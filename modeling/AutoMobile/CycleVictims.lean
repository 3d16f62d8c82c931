import Mathlib.Data.Finset.Max

/- Breaking the cycles of a wait-for relation by one victim for each class of
nodes that wait for one another: the latest. -/
namespace CycleVictims

open Relation (TransGen)

variable {α : Type}

def Mutual (waits : α → α → Prop) (first second : α) : Prop :=
  TransGen waits first second ∧ TransGen waits second first

/-- On a cycle, and ranked highest among those it shares a cycle with. -/
def Latest (waits : α → α → Prop) (rank : α → Nat) (node : α) : Prop :=
  TransGen waits node node ∧ ∀ other, Mutual waits node other → rank other ≤ rank node

variable {waits : α → α → Prop} {rank : α → Nat} {first second third : α}

theorem Mutual.trans (one : Mutual waits first second) (two : Mutual waits second third) :
    Mutual waits first third :=
  ⟨one.1.trans two.1, two.2.trans one.2⟩

theorem Mutual.cycle (mutual_ : Mutual waits first second) : TransGen waits second second :=
  mutual_.2.trans mutual_.1

/-- Every class of a finite relation has a latest node. -/
theorem exists_latest [DecidableEq α] (nodes : List α)
    (bounded : ∀ other, Mutual waits first other → other ∈ nodes)
    (cycle : TransGen waits first first) :
    ∃ last, Mutual waits first last ∧ Latest waits rank last := by
  classical
  let members := nodes.toFinset.filter (fun other => Mutual waits first other)
  have inside : ∀ other, other ∈ members ↔ Mutual waits first other := by
    intro other
    simp only [members, Finset.mem_filter, List.mem_toFinset]
    exact ⟨fun both => both.2, fun shared => ⟨bounded other shared, shared⟩⟩
  have nonempty : members.Nonempty := ⟨first, (inside first).mpr ⟨cycle, cycle⟩⟩
  obtain ⟨last, member, highest⟩ := members.exists_max_image rank nonempty
  have shared := (inside last).mp member
  refine ⟨last, shared, shared.cycle, ?_⟩
  intro other onward
  exact highest other ((inside other).mpr (shared.trans onward))

/-- In a finite set where everybody waits for a member somebody is on a cycle. -/
theorem exists_cycle [DecidableEq α] (nodes : List α) (nonempty : nodes ≠ [])
    (onward : ∀ node ∈ nodes, ∃ next ∈ nodes, waits node next) :
    ∃ node ∈ nodes, TransGen waits node node := by
  classical
  obtain ⟨start, known⟩ := List.exists_mem_of_ne_nil nodes nonempty
  choose! next inside step using onward
  have stays : ∀ count, next^[count] start ∈ nodes := by
    intro count
    induction count with
    | zero => exact known
    | succ count ih =>
      rw [Function.iterate_succ_apply']
      exact inside _ ih
  have path : ∀ earlier distance,
      TransGen waits (next^[earlier] start) (next^[earlier + distance + 1] start) := by
    intro earlier distance
    induction distance with
    | zero =>
      rw [Nat.add_zero, Function.iterate_succ_apply']
      exact TransGen.single (step _ (stays earlier))
    | succ distance ih =>
      have last := step _ (stays (earlier + distance + 1))
      have reached : next (next^[earlier + distance + 1] start) =
          next^[earlier + (distance + 1) + 1] start :=
        (Function.iterate_succ_apply' next (earlier + distance + 1) start).symm
      exact ih.tail (reached ▸ last)
  -- more visits than nodes: one node is visited twice
  have crowded : nodes.toFinset.card < (Finset.range (nodes.toFinset.card + 1)).card := by
    rw [Finset.card_range]
    omega
  obtain ⟨one, -, two, -, apart, same⟩ := Finset.exists_ne_map_eq_of_card_lt_of_maps_to crowded
    (fun count _ => List.mem_toFinset.mpr (stays count))
  rcases Nat.lt_or_gt_of_ne apart with less | less
  · obtain ⟨distance, rfl⟩ := Nat.exists_eq_add_of_lt less
    exact ⟨_, stays one, same ▸ path one distance⟩
  · obtain ⟨distance, rfl⟩ := Nat.exists_eq_add_of_lt less
    exact ⟨_, stays two, same ▸ path two distance⟩

end CycleVictims
