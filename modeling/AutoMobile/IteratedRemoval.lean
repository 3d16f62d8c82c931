import Mathlib.Data.List.Basic
import Mathlib.Order.Bounds.Basic

/- Removing, round after round, the members of a list that do not stay. When
staying is monotone in the members left, what remains is the greatest set of
members that all stay. -/
namespace IteratedRemoval

open List

variable {α : Type}

/-- One round a step, until a round removes nobody. -/
def settle (stays : List α → α → Bool) : Nat → List α → List α
  | 0, members => members
  | rounds + 1, members =>
    let kept := members.filter (stays members)
    if kept.length = members.length then members else settle stays rounds kept

variable {stays : List α → α → Bool}

theorem settle_sublist (rounds : Nat) (members : List α) :
    (settle stays rounds members).Sublist members := by
  induction rounds generalizing members with
  | zero => exact List.Sublist.refl members
  | succ rounds ih =>
    unfold settle
    dsimp only
    split
    · exact List.Sublist.refl members
    · exact (ih _).trans filter_sublist

/-- With a round for each member the last round removes nobody. -/
theorem settle_stays (rounds : Nat) (members : List α) (enough : members.length ≤ rounds) :
    ∀ member ∈ settle stays rounds members, stays (settle stays rounds members) member = true := by
  induction rounds generalizing members with
  | zero =>
    have empty : members = [] := eq_nil_of_length_eq_zero (by omega)
    simp [settle, empty]
  | succ rounds ih =>
    unfold settle
    dsimp only
    split
    · rename_i all
      have same := List.Sublist.eq_of_length filter_sublist all
      exact filter_eq_self.mp same
    · rename_i fewer
      have shorter := length_filter_le (stays members) members
      exact ih _ (by omega)

/-- Whatever can stay together is never removed. -/
theorem settle_greatest
    (monotone : ∀ small large member, (∀ other ∈ small, other ∈ large) →
      stays small member = true → stays large member = true)
    (rounds : Nat) (members group : List α) (inside : ∀ member ∈ group, member ∈ members)
    (together : ∀ member ∈ group, stays group member = true) :
    ∀ member ∈ group, member ∈ settle stays rounds members := by
  induction rounds generalizing members with
  | zero => exact inside
  | succ rounds ih =>
    unfold settle
    dsimp only
    split
    · exact inside
    · apply ih
      intro member chosen
      exact mem_filter.mpr ⟨inside member chosen,
        monotone group members member inside (together member chosen)⟩

/-- The members that stay form the greatest set that stays together. -/
theorem settle_isGreatest
    (monotone : ∀ small large member, (∀ other ∈ small, other ∈ large) →
      stays small member = true → stays large member = true)
    (members : List α) (StaysIn : Set α → α → Prop)
    (agrees : ∀ group member, stays group member = true ↔ StaysIn {other | other ∈ group} member) :
    IsGreatest {group : Set α | ∀ member ∈ group, member ∈ members ∧ StaysIn group member}
      {member | member ∈ settle stays members.length members} := by
  classical
  constructor
  · intro member remains
    refine ⟨(settle_sublist _ _).mem remains, ?_⟩
    exact (agrees _ member).mp (settle_stays _ members (Nat.le_refl _) member remains)
  · intro group together member chosen
    -- the group, listed, is one that stays together
    let listed := members.filter (fun other => other ∈ group)
    have same : {other | other ∈ listed} = group := by
      ext other
      simp only [listed, Set.mem_ofPred_eq, List.mem_filter, decide_eq_true_eq]
      exact ⟨fun both => both.2, fun inside => ⟨(together other inside).1, inside⟩⟩
    refine settle_greatest monotone _ members listed ?_ ?_ member ?_
    · exact fun other inside => List.mem_of_mem_filter inside
    · intro other inside
      rw [agrees, same]
      have belongs : other ∈ group := by
        rw [← same]
        exact inside
      exact (together other belongs).2
    · have belongs : member ∈ {other | other ∈ listed} := by
        rw [same]
        exact chosen
      exact belongs

end IteratedRemoval
