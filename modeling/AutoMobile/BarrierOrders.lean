import Mathlib.Data.Fintype.EquivFin
import Mathlib.Data.Set.Finite.Lattice
import AutoMobile.BarrierArrivals

/- Tracks whose arrivals are grouped in advance: if every group is of its lock's size and
no circle of groups waits for itself, releasing group after group finishes the tracks. -/
namespace BarrierArrivals

open List
open Relation (ReflTransGen TransGen)

variable {ι Γ Λ : Type}

/-- Some track is in the one group before it is in the other. -/
def Before (program : ι → List Γ) (one other : Γ) : Prop := ∃ track, [one, other] <+ program track

/-- A group that nothing comes before is next on all its tracks. -/
theorem head?_of_first {program : ι → List Γ} {group : Γ}
    (first : ∀ other, ¬ Before program other group) {track : ι} (member : group ∈ program track) :
    ∃ rest, program track = group :: rest ∧ group ∉ rest := by
  obtain ⟨front, rest, split⟩ := append_of_mem member
  cases front with
  | nil =>
    refine ⟨rest, split, fun again => first group ⟨track, ?_⟩⟩
    rw [split]
    exact cons_sublist_cons.mpr (singleton_sublist.mpr again)
  | cons other front =>
    refine absurd ⟨track, ?_⟩ (first other)
    rw [split]
    exact cons_sublist_cons.mpr (singleton_sublist.mpr (mem_append_right _ mem_cons_self))

/-- Without a circle some group comes before none other. -/
theorem exists_first [Finite ι] {program : ι → List Γ}
    (noCircle : ∀ group, ¬ TransGen (Before program) group group) {track : ι} {group : Γ}
    (member : group ∈ program track) :
    ∃ group, (∃ track, group ∈ program track) ∧ ∀ other, ¬ Before program other group := by
  let Left := {group : Γ // ∃ track, group ∈ program track}
  have finite : Finite Left := by
    have listed : {group : Γ | ∃ track, group ∈ program track} =
        ⋃ track, {group | group ∈ program track} := by
      ext group
      simp
    have union : Set.Finite {group : Γ | ∃ track, group ∈ program track} := by
      rw [listed]
      exact Set.finite_iUnion fun track => (program track).finite_toSet
    exact union.to_subtype
  let order (one other : Left) : Prop := TransGen (Before program) one.1 other.1
  have irreflexive : Std.Irrefl order := ⟨fun group => noCircle group.1⟩
  have transitive : IsTrans Left order := ⟨fun _ _ _ => TransGen.trans⟩
  obtain ⟨first, -, least⟩ :=
    (Finite.wellFounded_of_trans_of_irrefl order).has_min Set.univ ⟨⟨group, track, member⟩, trivial⟩
  refine ⟨first.1, first.2, fun other before => ?_⟩
  have known : ∃ track, other ∈ program track := by
    obtain ⟨track, here⟩ := before
    exact ⟨track, here.subset mem_cons_self⟩
  exact least ⟨other, known⟩ trivial (TransGen.single before)

variable [DecidableEq Γ]

/-- What is ahead of the tracks once a group is released. -/
def afterRelease (program : ι → List Γ) (group : Γ) (track : ι) : List Γ :=
  if group ∈ program track then (program track).tail else program track

theorem afterRelease_suffix (program : ι → List Γ) (group : Γ) (track : ι) :
    afterRelease program group track <:+ program track := by
  unfold afterRelease
  split
  · exact tail_suffix _
  · exact suffix_refl _

variable [Fintype ι] {count : Λ → ℕ} {lock : Γ → Λ}

/-- Every group is as large as its lock's, and no circle of groups waits for itself. -/
structure Grouped (count : Λ → ℕ) (lock : Γ → Λ) (program : ι → List Γ) : Prop where
  size : ∀ track, ∀ group ∈ program track,
    (Finset.univ.filter fun other => group ∈ program other).card = max 1 (count (lock group))
  noCircle : ∀ group, ¬ TransGen (Before program) group group

/-- Releasing a group that nothing comes before leaves the other groups as they are. -/
theorem Grouped.release {program : ι → List Γ} (grouped : Grouped count lock program) {group : Γ}
    (first : ∀ other, ¬ Before program other group) :
    Grouped count lock (afterRelease program group) := by
  have kept : ∀ track, ∀ other, other ∈ afterRelease program group track ↔
      other ∈ program track ∧ other ≠ group := by
    intro track other
    unfold afterRelease
    by_cases member : group ∈ program track
    · obtain ⟨rest, split, fresh⟩ := head?_of_first first member
      rw [if_pos member, split, tail_cons, mem_cons]
      constructor
      · exact fun inside => ⟨Or.inr inside, fun same => fresh (same ▸ inside)⟩
      · exact fun both => both.1.resolve_left both.2
    · rw [if_neg member]
      exact ⟨fun inside => ⟨inside, fun same => member (same ▸ inside)⟩, And.left⟩
  refine ⟨fun track other inside => ?_, fun other circle => grouped.noCircle other ?_⟩
  · obtain ⟨member, apart⟩ := (kept track other).mp inside
    rw [← grouped.size track other member]
    refine congrArg Finset.card (Finset.filter_congr fun track _ => ?_)
    rw [kept]
    exact and_iff_left apart
  · refine TransGen.mono (fun one other before => ?_) _ _ circle
    obtain ⟨track, here⟩ := before
    exact ⟨track, here.trans (afterRelease_suffix program group track).sublist⟩

variable [DecidableEq ι] [DecidableEq Λ]

/-- Grouped tracks finish: as long as a group is ahead, one of them is next on all its tracks. -/
theorem Grouped.finishes {program : ι → List Γ} (grouped : Grouped count lock program) :
    Finishes count (Standing.start fun track => (program track).map lock) := by
  generalize bound : ∑ track, (program track).length = size
  induction size using Nat.strong_induction_on generalizing program with
  | _ size ih =>
    by_cases done : ∀ track, program track = []
    · exact ⟨_, .refl, fun track => by simp [Standing.start, done track]⟩
    · obtain ⟨track, left⟩ := not_forall.mp done
      obtain ⟨some', member⟩ := exists_mem_of_ne_nil _ left
      obtain ⟨group, ⟨track, here⟩, first⟩ := exists_first grouped.noCircle member
      have there : ∀ other ∈ Finset.univ.filter fun other => group ∈ program other,
          ((program other).map lock).head? = some (lock group) := by
        intro other inside
        obtain ⟨rest, split, -⟩ := head?_of_first first (Finset.mem_filter.mp inside).2
        rw [split]
        rfl
      have passes := gather_pass (fun track => (program track).map lock) there
        (grouped.size track group here)
      have next : ((Standing.start fun track => (program track).map lock).pass
          (Finset.univ.filter fun other => group ∈ program other)).ahead =
            fun track => (afterRelease program group track).map lock := by
        funext other
        unfold Standing.pass Standing.start afterRelease
        simp only [Finset.mem_filter, Finset.mem_univ, true_and]
        split
        · rw [map_tail]
        · rfl
      rw [next] at passes
      have fewer : ∑ other, (afterRelease program group other).length < size := by
        rw [← bound]
        refine Finset.sum_lt_sum (fun other _ => (afterRelease_suffix program group other).length_le)
          ⟨track, Finset.mem_univ track, ?_⟩
        obtain ⟨rest, split, -⟩ := head?_of_first first here
        rw [afterRelease, if_pos here, split]
        exact Nat.lt_succ_self _
      obtain ⟨final, path, ended⟩ := ih _ fewer (grouped.release first) rfl
      exact ⟨final, passes.trans path, ended⟩

end BarrierArrivals
