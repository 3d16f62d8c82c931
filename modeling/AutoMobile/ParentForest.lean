import AutoMobile.InsertionMap

/- Disjoint sets as a map from every node to its parent, without compression. -/
namespace ParentForest

open InsertionMap

variable {κ : Type} [DecidableEq κ]

/-- A node that was not entered yet becomes its own parent. -/
def enter (parents : InsertionMap κ κ) (node : κ) : InsertionMap κ κ :=
  if has parents node then parents else put parents node node

/-- Go up until a node is its own parent. -/
def climb (parents : InsertionMap κ κ) : Nat → κ → κ
  | 0, node => node
  | fuel + 1, node =>
    match get? parents node with
    | some parent => if parent = node then node else climb parents fuel parent
    | none => node

/-- The root of a node; no path is longer than the map. -/
def findRoot (parents : InsertionMap κ κ) (node : κ) : κ := climb parents (parents.length + 1) node

/-- Hang the root of one node under the root of another. -/
def unite (parents : InsertionMap κ κ) (below above : κ) : InsertionMap κ κ :=
  put parents (findRoot parents below) (findRoot parents above)

/-- The root of a node is so many steps up. -/
inductive Climbs (parents : InsertionMap κ κ) : Nat → κ → κ → Prop
  | root {node : κ} (top : get? parents node = some node) : Climbs parents 0 node node
  | up {steps : Nat} {node parent root : κ} (next : get? parents node = some parent)
      (apart : parent ≠ node) (rest : Climbs parents steps parent root) :
      Climbs parents (steps + 1) node root

/-- The nodes below another one. -/
def inner (parents : InsertionMap κ κ) : Nat := parents.countP (fun entry => entry.2 ≠ entry.1)

/-- Every path ends at a root, and none is longer than the map allows. -/
def Rooted (parents : InsertionMap κ κ) : Prop :=
  ∀ node ∈ keys parents, ∃ steps root, steps ≤ inner parents ∧ Climbs parents steps node root

/-- Two nodes of one tree. -/
def Joined (parents : InsertionMap κ κ) (one other : κ) : Prop :=
  ∃ root first second, Climbs parents first one root ∧ Climbs parents second other root

/-- Nodes stay entered and joined. -/
structure Grows (before after : InsertionMap κ κ) : Prop where
  rooted : Rooted after
  entered : ∀ node ∈ keys before, node ∈ keys after
  joined : ∀ one other, Joined before one other → Joined after one other

variable {parents : InsertionMap κ κ}

variable {steps : Nat} {node root below above : κ}

theorem Climbs.climb_eq (path : Climbs parents steps node root) {fuel : Nat}
    (enough : steps < fuel) : climb parents fuel node = root := by
  induction path generalizing fuel with
  | root top =>
    obtain ⟨fuel, rfl⟩ : ∃ more, fuel = more + 1 := ⟨fuel - 1, by omega⟩
    simp [climb, top]
  | up next apart _ ih =>
    obtain ⟨fuel, rfl⟩ : ∃ more, fuel = more + 1 := ⟨fuel - 1, by omega⟩
    simp only [climb, next, apart, if_false]
    exact ih (by omega)

theorem Climbs.top (path : Climbs parents steps node root) : get? parents root = some root := by
  induction path with
  | root top => exact top
  | up _ _ _ ih => exact ih

theorem Rooted.climbs (rooted : Rooted parents) (known : node ∈ keys parents) :
    ∃ steps ≤ inner parents, Climbs parents steps node (findRoot parents node) := by
  obtain ⟨steps, root, bound, path⟩ := rooted node known
  have size : inner parents ≤ parents.length := List.countP_le_length
  have same : findRoot parents node = root := path.climb_eq (by omega)
  exact ⟨steps, bound, same ▸ path⟩

theorem Joined.findRoot_eq (rooted : Rooted parents) {one other : κ}
    (joined : Joined parents one other) : findRoot parents one = findRoot parents other := by
  obtain ⟨root, first, second, pathOne, pathOther⟩ := joined
  have known : ∀ {steps : Nat} {node : κ}, Climbs parents steps node root → node ∈ keys parents := by
    intro steps node path
    cases path with
    | root top => exact (mem_keys_iff _ _).mpr ⟨_, top⟩
    | up next _ _ => exact (mem_keys_iff _ _).mpr ⟨_, next⟩
  have size : inner parents ≤ parents.length := List.countP_le_length
  -- paths are unique, so the bounds that `Rooted` gives hold of these two
  have found : ∀ {steps : Nat} {node : κ}, Climbs parents steps node root →
      findRoot parents node = root := by
    intro steps node path
    obtain ⟨length, bound, upward⟩ := rooted.climbs (known path)
    have high : climb parents (steps + length + 1) _ = _ := upward.climb_eq (by omega)
    exact high.symm.trans (path.climb_eq (by omega))
  rw [found pathOne, found pathOther]

theorem Grows.trans {first second third : InsertionMap κ κ} (one : Grows first second)
    (two : Grows second third) : Grows first third where
  rooted := two.rooted
  entered node known := two.entered node (one.entered node known)
  joined a b pair := two.joined a b (one.joined a b pair)

theorem Grows.refl (rooted : Rooted parents) : Grows parents parents where
  rooted := rooted
  entered _ known := known
  joined _ _ pair := pair

/-- Paths survive when the nodes on them keep their parents. -/
theorem Climbs.kept {after : InsertionMap κ κ} (path : Climbs parents steps node root)
    (same : ∀ key ∈ keys parents, get? after key = get? parents key) :
    Climbs after steps node root := by
  induction path with
  | root top => exact .root ((same _ ((mem_keys_iff _ _).mpr ⟨_, top⟩)).trans top)
  | up next apart _ ih => exact .up ((same _ ((mem_keys_iff _ _).mpr ⟨_, next⟩)).trans next) apart ih

theorem enter_grows (rooted : Rooted parents) (node : κ) : Grows parents (enter parents node) := by
  unfold enter
  split
  · exact .refl rooted
  · rename_i absent
    have fresh : node ∉ keys parents := fun known => absent ((has_iff _ _).mpr known)
    have same : ∀ key ∈ keys parents, get? (put parents node node) key = get? parents key :=
      fun key known => get?_put_of_ne parents (ne_of_mem_of_not_mem known fresh).symm node
    have size : inner (put parents node node) = inner parents := by
      rw [put_of_fresh fresh]
      simp [inner]
    refine ⟨fun key known => ?_, fun key known => ?_, ?_⟩
    · rw [keys_put, if_neg fresh, List.mem_append, List.mem_singleton] at known
      rcases known with known | rfl
      · obtain ⟨steps, root, bound, path⟩ := rooted key known
        exact ⟨steps, root, size ▸ bound, path.kept same⟩
      · exact ⟨0, key, Nat.zero_le _, .root (get?_put_self _ _ _)⟩
    · rw [keys_put, if_neg fresh]
      exact List.mem_append_left _ known
    · rintro one other ⟨root, first, second, pathOne, pathOther⟩
      exact ⟨root, first, second, pathOne.kept same, pathOther.kept same⟩

theorem mem_keys_enter (node : κ) : node ∈ keys (enter parents node) := by
  unfold enter
  split
  · rename_i known
    exact (has_iff _ _).mp known
  · exact (mem_keys_iff _ _).mpr ⟨node, get?_put_self _ _ _⟩

/-- Hanging a root under another one lengthens the paths of its tree by one. -/
theorem Climbs.hung (apart : above ≠ below) (bottom : get? parents below = some below)
    (top : get? parents above = some above) (path : Climbs parents steps node root) :
    if root = below then Climbs (put parents below above) (steps + 1) node above
    else Climbs (put parents below above) steps node root := by
  induction path with
  | @root node here =>
    split
    · rename_i same
      subst same
      refine .up (get?_put_self _ _ _) apart (.root ?_)
      rw [get?_put_of_ne _ apart.symm, top]
    · rename_i other
      exact .root (by rw [get?_put_of_ne _ (Ne.symm other), here])
  | @up steps node parent root next step path ih =>
    have unmoved : below ≠ node := by
      rintro rfl
      exact step (Option.some.inj (next.symm.trans bottom))
    have kept : get? (put parents below above) node = some parent := by
      rw [get?_put_of_ne _ unmoved, next]
    split at ih <;> rename_i same <;> simp only [same, if_true, if_false]
    · exact .up kept step ih
    · exact .up kept step ih

theorem inner_put (apart : above ≠ below) (bottom : get? parents below = some below) :
    inner (put parents below above) = inner parents + 1 := by
  induction parents with
  | nil => simp [get?] at bottom
  | cons entry rest ih =>
    by_cases here : entry.1 = below
    · simp only [get?, here, if_true, Option.some.injEq] at bottom
      simp [put, here, inner, bottom, apart]
    · simp only [get?, here, if_false] at bottom
      have later := ih bottom
      simp only [inner] at later
      simp only [put, here, if_false, inner, List.countP_cons, later]
      omega

theorem unite_grows (rooted : Rooted parents) (first : below ∈ keys parents)
    (second : above ∈ keys parents) :
    Grows parents (unite parents below above) ∧ Joined (unite parents below above) below above := by
  obtain ⟨short, _, pathBelow⟩ := rooted.climbs first
  obtain ⟨long, _, pathAbove⟩ := rooted.climbs second
  unfold unite
  generalize findRoot parents below = low at pathBelow
  generalize findRoot parents above = high at pathAbove
  by_cases apart : high = low
  · subst apart
    rw [put_of_get? pathAbove.top]
    exact ⟨.refl rooted, high, short, long, pathBelow, pathAbove⟩
  · have hung : ∀ {steps : Nat} {node root : κ}, Climbs parents steps node root →
        if root = low then Climbs (put parents low high) (steps + 1) node high
        else Climbs (put parents low high) steps node root :=
      fun path => path.hung apart pathBelow.top pathAbove.top
    have size := inner_put apart pathBelow.top
    have known : low ∈ keys parents := (mem_keys_iff _ _).mpr ⟨_, pathBelow.top⟩
    have same : keys (put parents low high) = keys parents := by rw [keys_put, if_pos known]
    refine ⟨⟨fun node inside => ?_, fun node inside => same ▸ inside, ?_⟩, high, ?_⟩
    · obtain ⟨steps, root, bound, path⟩ := rooted node (same ▸ inside)
      have moved := hung path
      split at moved
      · exact ⟨steps + 1, high, by omega, moved⟩
      · exact ⟨steps, root, by omega, moved⟩
    · rintro one other ⟨root, a, b, pathOne, pathOther⟩
      have movedOne := hung pathOne
      have movedOther := hung pathOther
      split at movedOne <;> rename_i low' <;> simp only [low', if_true, if_false] at movedOther
      · exact ⟨high, a + 1, b + 1, movedOne, movedOther⟩
      · exact ⟨root, a, b, movedOne, movedOther⟩
    · have movedBelow := hung pathBelow
      have movedAbove := hung pathAbove
      rw [if_pos rfl] at movedBelow
      rw [if_neg apart] at movedAbove
      exact ⟨short + 1, long, movedBelow, movedAbove⟩

end ParentForest
