import Mathlib.Data.List.Perm.Basic

/- Intervals that lie end to end share out the range from the first one to the last. -/
namespace AbuttingIntervals

open List

variable {α : Type} (low high : α → Nat)

/-- Each interval starts where the one before it ends. -/
inductive Abutting : Nat → List α → Nat → Prop
  | nil (position : Nat) : Abutting position [] position
  | cons {item : α} {rest : List α} {last : Nat} :
      Abutting (high item) rest last → Abutting (low item) (item :: rest) last

/-- The intervals cover what is before the last position, each position once. -/
structure Tiles (items : List α) (first last : Nat) : Prop where
  inside : ∀ item ∈ items, first ≤ low item ∧ high item ≤ last
  covered : ∀ position, first ≤ position → position < last →
    ∃ item ∈ items, low item ≤ position ∧ position < high item
  apart : items.Pairwise fun one other => high one ≤ low other ∨ high other ≤ low one

variable {low high} {items : List α} {first last : Nat}

theorem Abutting.tiles (abutting : Abutting low high first items last)
    (forward : ∀ item ∈ items, low item ≤ high item) :
    first ≤ last ∧ Tiles low high items first last := by
  induction abutting with
  | nil position =>
    refine ⟨Nat.le_refl position, ⟨forall_mem_nil _, ?_, List.Pairwise.nil⟩⟩
    intro other early late
    omega
  | @cons item rest last _ ih =>
    obtain ⟨rising, tiles⟩ := ih fun other member => forward other (mem_cons_of_mem _ member)
    have here : low item ≤ high item := forward item mem_cons_self
    refine ⟨Nat.le_trans here rising, ⟨?_, ?_, ?_⟩⟩
    · intro other member
      rcases mem_cons.mp member with rfl | later
      · exact ⟨Nat.le_refl _, rising⟩
      · have bounds := tiles.inside other later
        exact ⟨Nat.le_trans here bounds.1, bounds.2⟩
    · intro position early late
      by_cases first : position < high item
      · exact ⟨item, mem_cons_self, early, first⟩
      · obtain ⟨other, member, around⟩ := tiles.covered position (by omega) late
        exact ⟨other, mem_cons_of_mem _ member, around⟩
    · rw [pairwise_cons]
      exact ⟨fun other member => Or.inl (tiles.inside other member).1, tiles.apart⟩

/-- The order in which the intervals are listed does not matter. -/
theorem Tiles.of_perm {other : List α} (tiles : Tiles low high items first last)
    (same : other.Perm items) : Tiles low high other first last where
  inside item member := tiles.inside item (same.mem_iff.mp member)
  covered position early late := by
    obtain ⟨item, member, around⟩ := tiles.covered position early late
    exact ⟨item, same.mem_iff.mpr member, around⟩
  apart := (same.pairwise_iff fun apart => apart.symm).mpr tiles.apart

end AbuttingIntervals
