import Mathlib.Data.List.Basic

/- Binary search in a list whose elements pass a test up to some place and fail from there on. -/
namespace BinarySearch

open List

variable {α : Type}

/-- The search between two places, for the first element that does not pass. -/
def searchFrom (passes : α → Bool) (items : List α) (low high : Nat) : Nat :=
  if low < high then
    let middle := (low + high) / 2
    if items[middle]?.any passes then searchFrom passes items (middle + 1) high
    else searchFrom passes items low middle
  else low
termination_by high - low

def search (passes : α → Bool) (items : List α) : Nat := searchFrom passes items 0 items.length

/-- What comes before an element that passes has passed. -/
def Inherited (passes : α → Bool) (items : List α) : Prop :=
  items.Pairwise fun one other => passes other = true → passes one = true

variable {items : List α} {passes : α → Bool}

theorem searchFrom_le {low high : Nat} (ordered : low ≤ high) :
    searchFrom passes items low high ≤ high := by
  fun_induction searchFrom passes items low high with
  | case1 low high less middle _ ih => exact ih (by omega)
  | case2 low high less middle _ ih => exact Nat.le_trans (ih (by omega)) (by omega)
  | case3 low high met => exact ordered

theorem searchFrom_spec {low high : Nat} (inherited : Inherited passes items)
    (bound : high ≤ items.length)
    (before : ∀ index item, items[index]? = some item → index < low → passes item = true)
    (after : ∀ index item, items[index]? = some item → high ≤ index → passes item = false)
    (index : Nat) (item : α) (there : items[index]? = some item) :
    passes item = decide (index < searchFrom passes items low high) := by
  fun_induction searchFrom passes items low high with
  | case1 low high less middle passing ih =>
    apply ih bound _ after
    intro other earlier found short
    have inside : middle < items.length := by omega
    have own : passes items[middle] = true := by simpa [inside] using passing
    obtain ⟨within, rfl⟩ := List.getElem?_eq_some_iff.mp found
    rcases Nat.lt_or_eq_of_le (Nat.le_of_lt_succ short) with below | rfl
    · exact pairwise_iff_getElem.mp inherited other middle within inside below own
    · exact own
  | case2 low high less middle failing ih =>
    apply ih (by omega) before
    intro other later found long
    have inside : middle < items.length := by omega
    have own : passes items[middle] = false := by simpa [inside] using failing
    obtain ⟨within, rfl⟩ := List.getElem?_eq_some_iff.mp found
    rcases Nat.lt_or_eq_of_le long with above | rfl
    · by_contra passing
      have earlier := pairwise_iff_getElem.mp inherited middle other inside within above
        (by simpa using passing)
      rw [own] at earlier
      cases earlier
    · exact own
  | case3 low high met =>
    by_cases short : index < low
    · simp [short, before index item there short]
    · simp [short, after index item there (by omega)]

/-- Exactly what comes before the place that is found passes. -/
theorem search_spec (inherited : Inherited passes items) {index : Nat} {item : α}
    (there : items[index]? = some item) : passes item = decide (index < search passes items) := by
  apply searchFrom_spec inherited (Nat.le_refl items.length) _ _ index item there
  · exact fun _ _ _ short => absurd short (Nat.not_lt_zero _)
  · intro index item found long
    rw [getElem?_eq_none long] at found
    cases found

/-- The search cuts the list into what passes and what does not. -/
theorem search_cuts (inherited : Inherited passes items) :
    ∃ front back, items = front ++ back ∧ (∀ item ∈ front, passes item = true) ∧
      (∀ item ∈ back, passes item = false) ∧ search passes items = front.length := by
  have within : search passes items ≤ items.length := searchFrom_le (Nat.zero_le _)
  refine ⟨items.take _, items.drop _, (take_append_drop _ _).symm, ?_, ?_,
    (length_take_of_le within).symm⟩
  · intro item member
    obtain ⟨index, short, there⟩ := mem_take_iff_getElem.mp member
    rw [search_spec inherited (List.getElem?_eq_some_iff.mpr ⟨by omega, there⟩)]
    exact decide_eq_true (by omega)
  · intro item member
    obtain ⟨index, short, there⟩ := mem_drop_iff_getElem.mp member
    rw [search_spec inherited (List.getElem?_eq_some_iff.mpr ⟨by omega, there⟩)]
    exact decide_eq_false (by omega)

end BinarySearch
