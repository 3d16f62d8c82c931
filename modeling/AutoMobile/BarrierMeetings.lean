import AutoMobile.BarrierArrivals
import AutoMobile.BusiestFirst
import Mathlib.Algebra.BigOperators.Ring.Finset

/- How often a track can pass a lock: each time it meets a full group of others, and
another track meets it no more often than it arrives at the lock. -/
namespace BarrierArrivals

open BarrierRounds BusiestFirst List
open Relation (ReflTransGen)

variable {ι Λ : Type}

/-- A bound on what the others can do in so many meetings also bounds fewer meetings. -/
theorem meetings_mono (parties : Finset ι) (visits : ι → ℕ) {each few many : ℕ} (less : few ≤ many)
    (bound : many * each ≤ ∑ other ∈ parties, min (visits other) many) :
    few * each ≤ ∑ other ∈ parties, min (visits other) few := by
  rcases Nat.eq_zero_or_pos many with rfl | positive
  · obtain rfl : few = 0 := by omega
    simp
  · have scaled : ∀ other, few * min (visits other) many ≤ many * min (visits other) few := by
      intro other
      by_cases small : visits other ≤ few
      · rw [Nat.min_eq_left small, Nat.min_eq_left (small.trans less)]
        exact Nat.mul_le_mul_right _ less
      · rw [Nat.min_eq_right (by omega : few ≤ visits other), Nat.mul_comm many]
        exact Nat.mul_le_mul_left few (Nat.min_le_right _ _)
    have grown : many * (few * each) ≤ many * ∑ other ∈ parties, min (visits other) few := by
      calc many * (few * each) = few * (many * each) := by ring
        _ ≤ few * ∑ other ∈ parties, min (visits other) many := Nat.mul_le_mul_left few bound
        _ = ∑ other ∈ parties, few * min (visits other) many := Finset.mul_sum _ _ _
        _ ≤ ∑ other ∈ parties, many * min (visits other) few :=
            Finset.sum_le_sum fun other _ => scaled other
        _ = many * ∑ other ∈ parties, min (visits other) few := (Finset.mul_sum _ _ _).symm
    exact Nat.le_of_mul_le_mul_left grown positive

variable [DecidableEq ι]

theorem suffix_pass {standing : Standing ι Λ} (group : Finset ι) (track : ι) :
    (standing.pass group).ahead track <:+ standing.ahead track := by
  unfold Standing.pass
  dsimp only
  split
  · exact tail_suffix _
  · exact suffix_refl _

variable [DecidableEq Λ] {count : Λ → ℕ}

section Bound

variable (count) (program : ι → List Λ) (parties : Finset ι) (party : ι) (lock : Λ)

/-- The meetings of a track at a lock so far: `joint` says how often each other track
was there. -/
structure Met (standing : Standing ι Λ) (joint : ι → ℕ) : Prop where
  behind : ∀ track, standing.ahead track <:+ program track
  own : ∀ other, joint other + (standing.ahead other).count lock ≤ (program other).count lock
  shared : ∀ other, joint other + (standing.ahead party).count lock ≤ (program party).count lock
  full : ∑ other ∈ parties.erase party, joint other +
      (max 1 (count lock) - 1) * (standing.ahead party).count lock =
    (max 1 (count lock) - 1) * (program party).count lock

theorem met_start : Met count program parties party lock (Standing.start program)
    fun _ => 0 where
  behind track := suffix_refl _
  own other := by simp [Standing.start]
  shared other := by simp [Standing.start]
  full := by simp [Standing.start]

variable {count program parties party lock}

/-- What a group that passes a lock leaves of another lock. -/
theorem count_pass {standing : Standing ι Λ} {group : Finset ι} {here : Λ}
    (there : ∀ track ∈ group, (standing.ahead track).head? = some here) (lock : Λ) (track : ι) :
    (standing.ahead track).count lock = ((standing.pass group).ahead track).count lock +
        if track ∈ group ∧ here = lock then 1 else 0 := by
  unfold Standing.pass
  dsimp only
  by_cases member : track ∈ group
  · obtain ⟨rest, known⟩ := head?_eq_some_iff.mp (there track member)
    rw [if_pos member, known, tail_cons, count_cons]
    simp [member]
  · rw [if_neg member, if_neg fun both => member both.1, Nat.add_zero]

/-- A group that passes meets the track, or the track is not in it. -/
theorem Met.pass {standing : Standing ι Λ} {joint : ι → ℕ}
    (met : Met count program parties party lock standing joint)
    (known : ∀ track, program track ≠ [] → track ∈ parties) {group : Finset ι} {here : Λ}
    (there : ∀ track ∈ group, (standing.ahead track).head? = some here)
    (size : group.card = max 1 (count here)) :
    ∃ later, Met count program parties party lock (standing.pass group) later := by
  have ours := count_pass there lock party
  by_cases meets : party ∈ group ∧ here = lock
  · obtain ⟨inside, rfl⟩ := meets
    refine ⟨fun other => joint other + if other ∈ group then 1 else 0,
      fun track => (suffix_pass group track).trans (met.behind track), fun other => ?_,
      fun other => ?_, ?_⟩
    · have own := met.own other
      have theirs := count_pass there here other
      simp only [and_true] at theirs
      omega
    · have shared := met.shared other
      simp only [inside, and_self, if_true] at ours
      split <;> omega
    · have members : (parties.erase party).filter (· ∈ group) = group.erase party := by
        ext other
        rw [Finset.mem_filter, Finset.mem_erase, Finset.mem_erase]
        refine ⟨fun both => ⟨both.1.1, both.2⟩, fun both => ⟨⟨both.1, ?_⟩, both.2⟩⟩
        refine known other fun idle => ?_
        have short := (met.behind other).length_le
        have head := there other both.2
        rw [idle, length_nil, Nat.le_zero, length_eq_zero_iff] at short
        rw [short] at head
        cases head
      have more : ∑ other ∈ parties.erase party, (if other ∈ group then 1 else 0) =
          max 1 (count here) - 1 := by
        rw [← Finset.sum_filter, members, Finset.sum_const, smul_eq_mul, Nat.mul_one,
          Finset.card_erase_of_mem inside, size]
      have full := met.full
      rw [if_pos ⟨inside, rfl⟩] at ours
      rw [ours, Nat.mul_succ] at full
      rw [Finset.sum_add_distrib, more]
      omega
  · rw [if_neg meets, Nat.add_zero] at ours
    refine ⟨joint, fun track => (suffix_pass group track).trans (met.behind track),
      fun other => ?_, fun other => ?_, ?_⟩
    · have own := met.own other
      have theirs := count_pass there lock other
      omega
    · rw [← ours]
      exact met.shared other
    · rw [← ours]
      exact met.full

theorem Met.arrives {before after : Standing ι Λ} {joint : ι → ℕ}
    (met : Met count program parties party lock before joint)
    (known : ∀ track, program track ≠ [] → track ∈ parties) (steady : Steady count before)
    (arrives : Arrives count before after) :
    ∃ later, Met count program parties party lock after later := by
  cases arrives with
  | blocks track here free next few => exact ⟨joint, met.behind, met.own, met.shared, met.full⟩
  | passes track here free next full =>
    refine @Met.pass _ _ _ _ _ _ _ _ _ _ _ met known _ here (fun member inside => ?_) ?_
    · rcases Finset.mem_insert.mp inside with rfl | inside
      · exact next
      · exact (mem_waitingAt.mp inside).2
    · have fresh : track ∉ before.waitingAt here := fun inside => free (mem_waitingAt.mp inside).1
      have bound := steady here
      rw [Finset.card_insert_of_notMem fresh]
      omega

theorem met_of_reached (known : ∀ track, program track ≠ [] → track ∈ parties)
    {standing : Standing ι Λ}
    (reached : ReflTransGen (Arrives count) (Standing.start program) standing) :
    Steady count standing ∧ ∃ joint, Met count program parties party lock standing joint := by
  induction reached with
  | refl => exact ⟨steady_start program, _, met_start count program parties party lock⟩
  | tail _ arrives ih =>
    obtain ⟨steady, joint, met⟩ := ih
    exact ⟨arrives.steady steady, met.arrives known steady arrives⟩

/-- Every track that passed a lock so many times met as many full groups of tracks that
were there. -/
theorem meetings_bound (known : ∀ track, program track ≠ [] → track ∈ parties)
    {standing : Standing ι Λ}
    (reached : ReflTransGen (Arrives count) (Standing.start program) standing) {visits : ℕ}
    (passed : (standing.ahead party).count lock + visits ≤ (program party).count lock)
    {most : ι → ℕ}
    (there : ∀ other, (program other).count lock ≤ most other + (standing.ahead other).count lock) :
    visits * (max 1 (count lock) - 1) ≤
      ∑ other ∈ parties.erase party, min (most other) visits := by
  have reach := @met_of_reached _ _ _ _ _ _ _ party lock known _ reached
  obtain ⟨-, joint, met⟩ := reach
  have all := met.full
  obtain ⟨many, whole⟩ : ∃ many, (standing.ahead party).count lock + many =
      (program party).count lock := ⟨_, Nat.add_sub_of_le (by omega)⟩
  have less : visits ≤ many := by omega
  refine meetings_mono (parties.erase party) most less ?_
  rw [← whole, Nat.mul_add] at all
  have each : ∑ other ∈ parties.erase party, joint other ≤
      ∑ other ∈ parties.erase party, min (most other) many := by
    refine Finset.sum_le_sum fun other _ => ?_
    have own := met.own other
    have shared := met.shared other
    have bound := there other
    omega
  rw [Nat.mul_comm]
  omega

end Bound

section Reached

variable {program : ι → List Λ} {parties : Finset ι} {party : ι} {lock : Λ}

/-- Where all tracks stay at one lock, a track passes it as often as the others can fill
its groups. -/
theorem meetings_reached (one : ∀ track, ∀ here ∈ program track, here = lock) {visits : ℕ}
    (own : visits ≤ (program party).count lock)
    (enough : visits * (max 1 (count lock) - 1) ≤
      ∑ other ∈ parties.erase party, min ((program other).count lock) visits) :
    ∃ next : ι → List Λ,
      ReflTransGen (Arrives count) (Standing.start program) (Standing.start next) ∧
        (next party).length + visits = (program party).length := by
  obtain ⟨share, fewer, total⟩ :=
    exists_fewer (fun other => min ((program other).count lock) visits) enough
  have bounded : ∀ other, share other ≤ (program other).count lock ∧ share other ≤ visits :=
    fun other => ⟨(fewer other).trans (Nat.min_le_left _ _), (fewer other).trans (Nat.min_le_right _ _)⟩
  have feasible : Feasible (max 1 (count lock) - 1) visits (parties.erase party) share :=
    ⟨total.trans (Nat.mul_comm _ _), fun other _ => (bounded other).2⟩
  have within : ∀ other, other ≠ party → share other ≤ (program other).count lock :=
    fun other _ => (bounded other).1
  clear bounded total fewer enough
  induction visits generalizing program share with
  | zero => exact ⟨program, .refl, rfl⟩
  | succ visits ih =>
    obtain ⟨chosen, inside, full, busiest⟩ := exists_busiest share feasible.enough
    have apart : party ∉ chosen := fun member =>
      Finset.notMem_erase party parties (Finset.mem_filter.mp (inside member)).1
    have busy : ∀ other ∈ chosen, 0 < share other :=
      fun other member => (Finset.mem_filter.mp (inside member)).2
    have there : ∀ track ∈ insert party chosen, (program track).head? = some lock := by
      intro track member
      have some' : 0 < (program track).count lock := by
        rcases Finset.mem_insert.mp member with rfl | picked
        · omega
        · have other : track ≠ party := fun same => apart (same ▸ picked)
          exact (busy track picked).trans_le (within track other)
      cases known : program track with
      | nil => simp [known] at some'
      | cons first rest => rw [head?_cons, one track first (known ▸ mem_cons_self)]
    have size : (insert party chosen).card = max 1 (count lock) := by
      rw [Finset.card_insert_of_notMem apart, full]
      omega
    have passes := gather_pass program there size
    set next := ((Standing.start program).pass (insert party chosen)).ahead with next_eq
    have counted : ∀ track, (program track).count lock = (next track).count lock +
        if track ∈ insert party chosen ∧ lock = lock then 1 else 0 :=
      fun track => @count_pass _ _ _ _ (Standing.start program) _ _ there lock track
    have ours := counted party
    rw [if_pos ⟨Finset.mem_insert_self _ _, rfl⟩] at ours
    have behind : ∀ track, next track <:+ program track := fun track => suffix_pass _ track
    have still : ∀ track, ∀ here ∈ next track, here = lock := fun track here member =>
      one track here ((behind track).subset member)
    have rest := feasible.serve (inside.trans (Finset.filter_subset _ _)) full busy
      (fun one picked other member left => by
        by_cases idle : 0 < share other
        · exact busiest one picked other (Finset.mem_filter.mpr ⟨member, idle⟩) left
        · omega)
    have left : ∀ other, other ≠ party → served chosen share other ≤ (next other).count lock := by
      intro other away
      have before := within other away
      have after := counted other
      unfold served
      by_cases picked : other ∈ chosen
      · rw [if_pos ⟨Finset.mem_insert_of_mem picked, rfl⟩] at after
        rw [if_pos picked]
        omega
      · have out : ¬ (other ∈ insert party chosen ∧ lock = lock) := by simp [away, picked]
        rw [if_neg out] at after
        rw [if_neg picked]
        omega
    obtain ⟨final, path, length⟩ := ih still (by omega) _ rest left
    have shorter : (next party).length + 1 = (program party).length := by
      obtain ⟨tail, head⟩ := head?_eq_some_iff.mp (there party (Finset.mem_insert_self _ _))
      have moved : next party = (program party).tail := if_pos (Finset.mem_insert_self _ _)
      rw [moved, head]
      rfl
    exact ⟨final, passes.trans path, by omega⟩

end Reached

end BarrierArrivals
