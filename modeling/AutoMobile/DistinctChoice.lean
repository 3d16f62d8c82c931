import Mathlib.Data.Finset.Card
import Mathlib.Data.List.FinRange

/- Filling every slot of a list with a candidate of its own. -/
namespace DistinctChoice

open List

variable {δ α : Type}

/-- Every list of candidates gets one of its elements, no element twice. -/
def Fills (candidates : List (List δ)) : Prop :=
  ∃ choice : List δ, List.Forall₂ (fun element slot => element ∈ slot) choice candidates ∧
    choice.Nodup

variable {candidates : List (List δ)}

/-- The choice as a function of the position. -/
theorem fills_iff :
    Fills candidates ↔ ∃ choice : Fin candidates.length → δ, Function.Injective choice ∧
      ∀ index, choice index ∈ candidates.get index := by
  constructor
  · intro ⟨choice, chosen, distinct⟩
    have same := chosen.length_eq
    refine ⟨fun index => choice[index.val], ?_, ?_⟩
    · intro first second equal
      exact Fin.ext ((List.Nodup.getElem_inj_iff distinct).mp equal)
    · intro index
      exact (forall₂_iff_get.mp chosen).2 index.val (by omega) index.isLt
  · intro ⟨choice, injective, chosen⟩
    refine ⟨List.ofFn choice, ?_, nodup_ofFn.mpr injective⟩
    apply forall₂_iff_get.mpr
    refine ⟨length_ofFn, ?_⟩
    intro index _ bound
    simpa using chosen ⟨index, bound⟩

/-- The slot a choice fills, by position. -/
theorem chosen_getElem? {choice : List δ}
    (chosen : List.Forall₂ (fun element slot => element ∈ slot) choice candidates) {index : Nat}
    (bound : index < candidates.length) :
    ∃ element, choice[index]? = some element ∧ element ∈ candidates.getD index [] := by
  have length := chosen.length_eq
  have inside : index < choice.length := by omega
  refine ⟨choice[index], getElem?_eq_getElem inside, ?_⟩
  have member := (forall₂_iff_get.mp chosen).2 index inside bound
  simpa [getD_eq_getElem?_getD, getElem?_eq_getElem bound] using member

/-- Slots that share fewer candidates than they are cannot all be filled. -/
theorem not_fills_of_crowded [DecidableEq δ] {shared : Finset δ} {slots : Finset Nat}
    (bounded : ∀ index ∈ slots, index < candidates.length)
    (inside : ∀ index ∈ slots, ∀ element ∈ candidates.getD index [], element ∈ shared)
    (crowded : shared.card < slots.card) : ¬ Fills candidates := by
  rintro ⟨choice, chosen, nodup⟩
  have maps : ∀ index ∈ slots, choice[index]? ∈ shared.image some := by
    intro index member
    obtain ⟨element, at_, candidate⟩ := chosen_getElem? chosen (bounded index member)
    rw [at_]
    exact Finset.mem_image_of_mem some (inside index member element candidate)
  have injective : ∀ first ∈ slots, ∀ second ∈ slots,
      choice[first]? = choice[second]? → first = second := by
    intro first member second member' same
    have length := chosen.length_eq
    have bound := bounded first member
    have bound' := bounded second member'
    have one : first < choice.length := by omega
    have two : second < choice.length := by omega
    rw [getElem?_eq_getElem one, getElem?_eq_getElem two, Option.some.injEq] at same
    exact (List.Nodup.getElem_inj_iff nodup).mp same
  have few := Finset.card_le_card_of_injOn (fun index => choice[index]?) maps injective
  rw [Finset.card_image_of_injective shared (Option.some_injective δ)] at few
  omega

/-- An owner for every slot fills them all, since an element has one owner. -/
theorem fills_of_owner {owner : δ → Option Nat}
    (owned : ∀ index < candidates.length, ∃ element, element ∈ candidates.getD index [] ∧
      owner element = some index) : Fills candidates := by
  choose element member owns using owned
  refine ⟨List.ofFn (fun index : Fin candidates.length => element index index.2), ?_, ?_⟩
  · refine forall₂_iff_get.mpr ⟨length_ofFn, ?_⟩
    intro index _ bound
    have inside := member index bound
    simpa [getD_eq_getElem?_getD, getElem?_eq_getElem bound] using inside
  · refine nodup_ofFn.mpr ?_
    intro first second same
    have owns' := congrArg owner same
    simp only [owns, Option.some.injEq] at owns'
    exact Fin.ext owns'

end DistinctChoice
