import Mathlib.Algebra.Order.BigOperators.Group.Finset
import Mathlib.Algebra.Group.Action.Defs
import Mathlib.Data.Finset.Max
import Mathlib.Tactic.Ring

/- Rounds in which `size` parties take part, one visit each. Every party has so many
visits to make. Serving the busiest parties first never gets stuck when that can be
avoided at all. -/
namespace BusiestFirst

variable {κ : Type}

/-- The visits fill the rounds, and nobody has more visits than there are rounds. -/
structure Feasible (size rounds : ℕ) (parties : Finset κ) (visits : κ → ℕ) : Prop where
  whole : ∑ party ∈ parties, visits party = size * rounds
  each : ∀ party ∈ parties, visits party ≤ rounds

variable {size rounds : ℕ} {parties : Finset κ} {visits : κ → ℕ}

/-- Enough parties are left for one more round. -/
theorem Feasible.enough (feasible : Feasible size (rounds + 1) parties visits) :
    size ≤ (parties.filter (0 < visits ·)).card := by
  have busy : ∑ party ∈ parties.filter (0 < visits ·), visits party = size * (rounds + 1) := by
    rw [← feasible.whole]
    refine Finset.sum_subset (Finset.filter_subset _ _) fun party member idle => ?_
    have none : ¬ 0 < visits party := fun some => idle (Finset.mem_filter.mpr ⟨member, some⟩)
    omega
  have most : ∑ party ∈ parties.filter (0 < visits ·), visits party ≤
      (parties.filter (0 < visits ·)).card * (rounds + 1) := by
    rw [← smul_eq_mul]
    exact Finset.sum_le_card_nsmul _ _ _ fun party member =>
      feasible.each party (Finset.mem_filter.mp member).1
  rw [busy] at most
  exact Nat.le_of_mul_le_mul_right most (Nat.succ_pos rounds)

variable [DecidableEq κ] {chosen : Finset κ}

/-- The visits left after a round of the chosen parties. -/
def served (chosen : Finset κ) (visits : κ → ℕ) (party : κ) : ℕ :=
  if party ∈ chosen then visits party - 1 else visits party

theorem sum_served (within : chosen ⊆ parties) (busy : ∀ party ∈ chosen, 0 < visits party) :
    ∑ party ∈ parties, served chosen visits party + chosen.card = ∑ party ∈ parties, visits party := by
  have split : ∀ values : κ → ℕ, ∑ party ∈ parties, values party =
      ∑ party ∈ parties \ chosen, values party + ∑ party ∈ chosen, values party :=
    fun values => (Finset.sum_sdiff within).symm
  have others : ∑ party ∈ parties \ chosen, served chosen visits party =
      ∑ party ∈ parties \ chosen, visits party :=
    Finset.sum_congr rfl fun party member => if_neg (Finset.mem_sdiff.mp member).2
  have ours : ∑ party ∈ chosen, served chosen visits party + chosen.card =
      ∑ party ∈ chosen, visits party := by
    rw [Finset.card_eq_sum_ones, ← Finset.sum_add_distrib]
    refine Finset.sum_congr rfl fun party member => ?_
    have positive := busy party member
    rw [served, if_pos member]
    omega
  rw [split (served chosen visits), split visits, others, add_assoc, ours]

/-- A round of the busiest parties leaves a feasible rest. -/
theorem Feasible.serve (feasible : Feasible size (rounds + 1) parties visits)
    (within : chosen ⊆ parties) (full : chosen.card = size)
    (busy : ∀ party ∈ chosen, 0 < visits party)
    (busiest : ∀ party ∈ chosen, ∀ other ∈ parties, other ∉ chosen → visits other ≤ visits party) :
    Feasible size rounds parties (served chosen visits) where
  whole := by
    have less := sum_served within busy
    rw [feasible.whole, full] at less
    have more : size * (rounds + 1) = size * rounds + size := by ring
    omega
  each party member := by
    have bound := feasible.each party member
    by_cases inside : party ∈ chosen
    · rw [served, if_pos inside]
      omega
    · rw [served, if_neg inside]
      by_contra late
      have last : visits party = rounds + 1 := by omega
      -- then all the chosen ones are as busy, and the visits exceed the rounds
      have all : chosen.card * (rounds + 1) ≤ ∑ other ∈ chosen, visits other := by
        rw [← smul_eq_mul]
        exact Finset.card_nsmul_le_sum _ _ _ fun other picked =>
          last ▸ busiest other picked party member inside
      have more : ∑ other ∈ insert party chosen, visits other ≤ size * (rounds + 1) := by
        rw [← feasible.whole]
        exact Finset.sum_le_sum_of_subset (Finset.insert_subset member within)
      rw [Finset.sum_insert inside, last] at more
      rw [full] at all
      omega

/-- As many parties as there are can be chosen so that no other one is busier. -/
theorem exists_busiest (visits : κ → ℕ) {size : ℕ} {parties : Finset κ} (enough : size ≤ parties.card) :
    ∃ chosen ⊆ parties, chosen.card = size ∧
      ∀ party ∈ chosen, ∀ other ∈ parties, other ∉ chosen → visits other ≤ visits party := by
  induction size generalizing parties with
  | zero => exact ⟨∅, Finset.empty_subset _, rfl, by simp⟩
  | succ size ih =>
    have nonempty : parties.Nonempty := Finset.card_pos.mp (by omega)
    obtain ⟨first, member, most⟩ := Finset.exists_max_image parties visits nonempty
    have rest : size ≤ (parties.erase first).card := by
      rw [Finset.card_erase_of_mem member]
      omega
    obtain ⟨chosen, within, full, busiest⟩ := ih rest
    have fresh : first ∉ chosen := fun inside => Finset.notMem_erase first parties (within inside)
    refine ⟨insert first chosen, ?_, ?_, fun party picked other known left => ?_⟩
    · exact Finset.insert_subset member (within.trans (Finset.erase_subset _ _))
    · rw [Finset.card_insert_of_notMem fresh, full]
    · have apart : other ≠ first ∧ other ∉ chosen := by simpa [Finset.mem_insert, not_or] using left
      rcases Finset.mem_insert.mp picked with rfl | old
      · exact most other known
      · exact busiest party old other (Finset.mem_erase.mpr ⟨apart.1, known⟩) apart.2

/-- Visits can be left out until so many remain. -/
theorem exists_fewer (most : κ → ℕ) {parties : Finset κ} {whole : ℕ}
    (enough : whole ≤ ∑ party ∈ parties, most party) :
    ∃ visits : κ → ℕ, (∀ party, visits party ≤ most party) ∧
      ∑ party ∈ parties, visits party = whole := by
  induction parties using Finset.induction_on generalizing whole with
  | empty =>
    rw [Finset.sum_empty] at enough
    exact ⟨fun _ => 0, fun _ => Nat.zero_le _, by rw [Finset.sum_empty]; omega⟩
  | insert first parties fresh ih =>
    rw [Finset.sum_insert fresh] at enough
    obtain ⟨visits, fewer, total⟩ := ih (by omega :
      whole - min whole (most first) ≤ ∑ party ∈ parties, most party)
    refine ⟨Function.update visits first (min whole (most first)), fun party => ?_, ?_⟩
    · by_cases same : party = first
      · subst same
        rw [Function.update_self]
        exact Nat.min_le_right _ _
      · rw [Function.update_of_ne same]
        exact fewer party
    · have others : ∑ party ∈ parties, Function.update visits first (min whole (most first)) party =
            ∑ party ∈ parties, visits party := by
        refine Finset.sum_congr rfl fun party member => ?_
        have apart : party ≠ first := by
          rintro rfl
          exact fresh member
        exact Function.update_of_ne apart _ _
      rw [Finset.sum_insert fresh, Function.update_self, others, total]
      omega

end BusiestFirst
