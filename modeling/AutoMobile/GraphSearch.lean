import Mathlib.Data.List.Basic
import Mathlib.Logic.Relation
import Mathlib.Order.Defs.LinearOrder

/- Depth-first search with a stack and a seen list, and cycles of a finite
relation: a set in which everybody has a successor closes a cycle. -/
namespace GraphSearch

open List
open Relation (ReflTransGen TransGen)

variable {α : Type} [DecidableEq α]

/-- Pop, skip what was seen, push the successors. The stack has its top first. -/
def collect (successors : α → List α) : Nat → List α → List α → List α
  | 0, _, seen => seen
  | _ + 1, [], seen => seen
  | fuel + 1, next :: pending, seen =>
    if next ∈ seen then collect successors fuel pending seen
    else collect successors fuel ((successors next).reverse ++ pending) (seen ++ [next])

/-- The pushes still to come from the nodes not seen yet. -/
def work (successors : α → List α) (nodes seen : List α) : Nat :=
  nodes.foldr (fun node rest => (if node ∈ seen then 0 else (successors node).length) + rest) 0

/-- Everything that can be reached from `start` in one step or more. -/
def reachableFrom (successors : α → List α) (nodes : List α) (start : α) : List α :=
  collect successors ((successors start).length + work successors nodes [])
    (successors start).reverse []

variable {successors : α → List α} {nodes : List α}

theorem work_snoc_le (seen : List α) (next : α) :
    work successors nodes (seen ++ [next]) ≤ work successors nodes seen := by
  induction nodes with
  | nil => simp [work]
  | cons node rest ih =>
    simp only [work, foldr_cons] at ih ⊢
    have here : (if node ∈ seen ++ [next] then 0 else (successors node).length) ≤
        if node ∈ seen then 0 else (successors node).length := by
      by_cases old : node ∈ seen
      · simp [old]
      · split <;> simp
    omega

/-- Seeing a node pays for its successors. -/
theorem work_snoc {seen : List α} {next : α} (member : next ∈ nodes) (fresh : next ∉ seen) :
    work successors nodes (seen ++ [next]) + (successors next).length ≤
      work successors nodes seen := by
  induction nodes with
  | nil => simp at member
  | cons node rest ih =>
    have later : work successors rest (seen ++ [next]) ≤ work successors rest seen :=
      work_snoc_le seen next
    simp only [work, foldr_cons] at ih later ⊢
    by_cases same : node = next
    · subst same
      have spent : (if node ∈ seen ++ [node] then 0 else (successors node).length) = 0 := by simp
      have owed : (if node ∈ seen then 0 else (successors node).length) =
          (successors node).length := by simp [fresh]
      omega
    · have inside : next ∈ rest := (mem_cons.mp member).resolve_left (Ne.symm same)
      have paid := ih inside
      have kept : (if node ∈ seen ++ [next] then 0 else (successors node).length) =
          if node ∈ seen then 0 else (successors node).length := by simp [same]
      omega

theorem collect_sound (fuel : Nat) (pending seen : List α) {node : α}
    (found : node ∈ collect successors fuel pending seen) :
    node ∈ seen ∨ ∃ origin ∈ pending, ReflTransGen (fun a b => b ∈ successors a) origin node := by
  induction fuel generalizing pending seen with
  | zero => exact Or.inl found
  | succ fuel ih =>
    cases pending with
    | nil => exact Or.inl found
    | cons next pending =>
      unfold collect at found
      split at found
      · rcases ih pending seen found with old | ⟨origin, member, path⟩
        · exact Or.inl old
        · exact Or.inr ⟨origin, mem_cons_of_mem _ member, path⟩
      · rcases ih _ _ found with old | ⟨origin, member, path⟩
        · rcases mem_append.mp old with old | new
          · exact Or.inl old
          · rw [mem_singleton] at new
            exact Or.inr ⟨next, mem_cons_self, new ▸ ReflTransGen.refl⟩
        · rcases mem_append.mp member with pushed | member
          · exact Or.inr ⟨next, mem_cons_self, ReflTransGen.head (mem_reverse.mp pushed) path⟩
          · exact Or.inr ⟨origin, mem_cons_of_mem _ member, path⟩

/-- With fuel for every push the search ends with a closed set. -/
theorem collect_complete (closed : ∀ node ∈ nodes, ∀ next ∈ successors node, next ∈ nodes)
    (fuel : Nat) (pending seen : List α) (inside : ∀ node ∈ pending, node ∈ nodes)
    (enough : pending.length + work successors nodes seen ≤ fuel) :
    (∀ node, node ∈ seen ∨ node ∈ pending → node ∈ collect successors fuel pending seen) ∧
      ∀ node ∈ collect successors fuel pending seen, node ∉ seen →
        ∀ next ∈ successors node, next ∈ collect successors fuel pending seen := by
  induction fuel generalizing pending seen with
  | zero =>
    have empty : pending = [] := eq_nil_of_length_eq_zero (by omega)
    subst empty
    exact ⟨fun node cases => by simpa [collect] using cases,
      fun node found fresh => absurd found fresh⟩
  | succ fuel ih =>
    cases pending with
    | nil =>
      exact ⟨fun node cases => by simpa [collect] using cases,
        fun node found fresh => absurd found fresh⟩
    | cons next pending =>
      have rest : ∀ node ∈ pending, node ∈ nodes :=
        fun node member => inside node (mem_cons_of_mem _ member)
      have known := inside next mem_cons_self
      simp only [length_cons] at enough
      unfold collect
      split
      · rename_i old
        obtain ⟨kept, grown⟩ := ih pending seen rest (by omega)
        refine ⟨?_, grown⟩
        rintro node (member | member)
        · exact kept node (Or.inl member)
        · rcases mem_cons.mp member with rfl | member
          · exact kept node (Or.inl old)
          · exact kept node (Or.inr member)
      · rename_i fresh
        have paid : work successors nodes (seen ++ [next]) + (successors next).length ≤
            work successors nodes seen := work_snoc known fresh
        have pushed : ∀ node ∈ (successors next).reverse ++ pending, node ∈ nodes := by
          intro node member
          rcases mem_append.mp member with member | member
          · exact closed next known node (mem_reverse.mp member)
          · exact rest node member
        obtain ⟨kept, grown⟩ := ih ((successors next).reverse ++ pending) (seen ++ [next])
          pushed (by simp only [length_append, length_reverse]; omega)
        refine ⟨?_, ?_⟩
        · rintro node (member | member)
          · exact kept node (Or.inl (mem_append_left _ member))
          · rcases mem_cons.mp member with rfl | member
            · exact kept node (Or.inl (by simp))
            · exact kept node (Or.inr (mem_append_right _ member))
        · intro node found outside after step
          by_cases same : node = next
          · subst same
            exact kept after (Or.inr (by simp [step]))
          · exact grown node found (by simp [outside, same]) after step

/-- The search finds exactly what can be reached. -/
theorem mem_reachableFrom_iff (closed : ∀ node ∈ nodes, ∀ next ∈ successors node, next ∈ nodes)
    {start : α} (known : start ∈ nodes) (node : α) :
    node ∈ reachableFrom successors nodes start ↔
      TransGen (fun a b => b ∈ successors a) start node := by
  constructor
  · intro found
    rcases collect_sound _ _ _ found with none | ⟨origin, first, path⟩
    · simp at none
    · exact TransGen.head' (mem_reverse.mp first) path
  · intro path
    obtain ⟨kept, grown⟩ := collect_complete closed
      ((successors start).length + work successors nodes []) (successors start).reverse []
      (fun other member => closed start known other (mem_reverse.mp member))
      (by simp only [length_reverse]; omega)
    induction path with
    | single step => exact kept _ (Or.inr (mem_reverse.mpr step))
    | tail _ step ih => exact grown _ ih (by simp) _ step

end GraphSearch
