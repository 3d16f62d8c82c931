import AutoMobile.BarrierGenerations

/- What resuming a barrier plan does to its schedules: the guard rewinds to the last
step that splits no generation. -/
namespace AutoMobile.BarrierResume

open List hiding keys
open BarrierRounds InsertionMap Plans
open CoordinationSchedule
open Relation (transGen_eq_self)

/-- The last step up to `startStep` that splits no generation. -/
structure LastClean (spans : List GenerationSpan) (startStep step : Nat) : Prop where
  bound : step ≤ startStep
  clean : ¬ Straddled spans step
  last : ∀ index, step < index → index ≤ startStep → Straddled spans index

section Rewind

variable {spans : List GenerationSpan}

theorem earliestSplit_spec (spans : List GenerationSpan) (safe : Nat) :
    earliestSplit spans safe ≤ safe ∧ (earliestSplit spans safe < safe → ∃ span ∈ spans,
        span.firstIndex = earliestSplit spans safe ∧ safe ≤ span.lastIndex) ∧
      ∀ span ∈ spans, span.firstIndex < safe → safe ≤ span.lastIndex →
        earliestSplit spans safe ≤ span.firstIndex := by
  induction spans using List.reverseRecOn with
  | nil => exact ⟨le_refl _, fun less => absurd less (lt_irrefl _), by simp⟩
  | append_singleton spans last ih =>
    obtain ⟨bound, found, least⟩ := ih
    have snoc : earliestSplit (spans ++ [last]) safe =
        if last.firstIndex < safe ∧ safe ≤ last.lastIndex ∧
          last.firstIndex < earliestSplit spans safe then last.firstIndex
        else earliestSplit spans safe := by
      unfold earliestSplit
      rw [foldl_append]
      rfl
    rw [snoc]
    split
    · rename_i earlier
      obtain ⟨before', after, less⟩ := earlier
      refine ⟨before'.le, fun _ => ⟨last, by simp, rfl, after⟩, fun span member first inside => ?_⟩
      rcases mem_append.mp member with old | new
      · exact less.le.trans (least span old first inside)
      · rw [mem_singleton.mp new]
    · rename_i later
      refine ⟨bound, fun less => ?_, fun span member first inside => ?_⟩
      · obtain ⟨span, member, same, after⟩ := found less
        exact ⟨span, mem_append_left _ member, same, after⟩
      · rcases mem_append.mp member with old | new
        · exact least span old first inside
        · rw [mem_singleton.mp new] at first inside ⊢
          by_contra less
          exact later ⟨first, inside, not_le.mp less⟩

theorem LastClean.unique {startStep one other : Nat} (first : LastClean spans startStep one)
    (second : LastClean spans startStep other) : one = other := by
  rcases Nat.lt_trichotomy one other with less | same | more
  · exact absurd (first.last other less second.bound) second.clean
  · exact same
  · exact absurd (second.last one more first.bound) first.clean

/-- Rewinding stops at the last step that splits no generation. -/
theorem rewind_lastClean {fuel safe : Nat} (enough : safe < fuel) :
    LastClean spans safe (rewind spans fuel safe) := by
  induction fuel generalizing safe with
  | zero => omega
  | succ fuel ih =>
    obtain ⟨bound, found, least⟩ := earliestSplit_spec spans safe
    unfold rewind
    by_cases still : earliestSplit spans safe = safe
    · simp only [still, if_true]
      refine ⟨le_refl _, ?_, fun index above below => by omega⟩
      rintro ⟨span, member, first, inside⟩
      have early := least span member first inside
      omega
    · have less : earliestSplit spans safe < safe := lt_of_le_of_ne bound still
      simp only [still, if_false]
      obtain ⟨span, member, same, inside⟩ := found less
      obtain ⟨low, clean, straddled⟩ := @ih (earliestSplit spans safe) (by omega)
      refine ⟨low.trans bound, clean, fun index above below => ?_⟩
      by_cases early : index ≤ earliestSplit spans safe
      · exact straddled index above early
      · exact ⟨span, member, by omega, by omega⟩

end Rewind

section Guard

variable {plan : Plan} {startStep : Int}

/-- Where the guard sends a resumption. -/
theorem computeSafe_eq {spans : List GenerationSpan} {safe : Nat}
    (collected : collectGenerationSpans plan = .ok spans) (some' : spans ≠ [])
    (late : 0 < startStep) (lastClean : LastClean spans startStep.toNat safe) :
    computeSafeBarrierResumeStep plan startStep =
      .ok (if hasCrossLockCycle plan safe = true then 0 else safe) := by
  have rewound : rewind spans (startStep.toNat + 1) startStep.toNat = safe :=
    (rewind_lastClean (Nat.lt_succ_self _)).unique lastClean
  unfold computeSafeBarrierResumeStep
  rw [if_neg (not_le.mpr late), collected]
  cases spans with
  | nil => exact absurd rfl some'
  | cons span rest =>
    simp only [rewound]
    by_cases zero : safe = 0
    · simp [zero]
    · have positive : 0 < safe := Nat.pos_of_ne_zero zero
      by_cases cycle : hasCrossLockCycle plan safe = true
      · simp [positive, cycle]
      · simp [cycle]

end Guard

/-- The guard finds a step, none later than the one asked for, from which the plan can
still complete. -/
def ResumesSoundly (count : String → ℕ) (plan : Plan)
    (tracks : InsertionMap String (List TrackedStep)) (startStep : Int) : Prop :=
  ∃ safe, computeSafeBarrierResumeStep plan startStep = .ok safe ∧ safe ≤ startStep ∧
    Completes count (resumedTracks tracks safe)

/-- A barrier of two devices. -/
def pairBarrier (device lock : String) : PlanStep where
  tool := "barrier"
  params := [("device", .text device), ("lock", .text lock), ("deviceCount", .number 2)]

theorem barrierOnly_of_pairs {plan : Plan}
    (all : ∀ step ∈ plan.steps, isCoordinationTool step.tool = true → step.tool = "barrier" ∧
      (readLock step).isSome = true ∧ readDeviceCount step = some 2) :
    BarrierOnly (fun _ => 2) plan := by
  intro step member coordinated
  obtain ⟨tool, locked, counted⟩ := all step member coordinated
  obtain ⟨lock, found⟩ := Option.isSome_iff_exists.mp locked
  exact ⟨tool, lock, found, counted⟩

/-- Resuming a barrier plan that can complete leaves a plan that can complete if the last step
that splits no generation is the first one, or the lock orders from there on oppose each other,
or the generations from there on wait in no circle. -/
theorem resume_sound_of_noCircle (count : String → ℕ) (plan : Plan)
    (tracks : InsertionMap String (List TrackedStep)) (partitioned : partition plan = .ok tracks)
    (barriers : BarrierOnly count plan) (completes : Completes count (resumedTracks tracks 0))
    (startStep : Int) :
    ∃ spans, collectGenerationSpans plan = .ok spans ∧ ∀ safe,
      LastClean spans startStep.toNat safe →
      (safe = 0 ∨ hasCrossLockCycle plan safe = true ∨ NoCircle spans safe) →
      ResumesSoundly count plan tracks startStep := by
  obtain ⟨spans, collected, empty⟩ := collectGenerationSpans_ok partitioned barriers completes
  refine ⟨spans, collected, fun safe lastClean orders => ?_⟩
  have below := lastClean.bound
  by_cases early : startStep ≤ 0
  · -- the whole plan is run again
    refine ⟨startStep, if_pos early, le_refl _, ?_⟩
    rw [resumedTracks_of_nonpos early]
    exact completes
  · have late : 0 < startStep := not_le.mp early
    by_cases none : spans = []
    · refine ⟨startStep, ?_, le_refl _, completes_of_no_arrivals partitioned barriers (empty none) _⟩
      rw [computeSafeBarrierResumeStep, if_neg early, collected, none]
    · unfold ResumesSoundly
      rw [computeSafe_eq collected none late lastClean]
      by_cases cycle : hasCrossLockCycle plan safe = true
      · exact ⟨0, by rw [if_pos cycle], late.le, completes⟩
      · refine ⟨safe, by rw [if_neg cycle], by omega, ?_⟩
        rcases orders with zero | cyclic | noCircle
        · rw [zero]
          exact completes
        · exact absurd cyclic cycle
        · exact completes_of_noCircle partitioned barriers collected lastClean.clean noCircle

/-- Two devices that meet at one lock, at another and at the first again. -/
def twicePlan : Plan where
  devices := ["A", "B"]
  steps := [pairBarrier "A" "X", pairBarrier "B" "X", pairBarrier "A" "Y", pairBarrier "B" "Y",
    pairBarrier "A" "X", pairBarrier "B" "X"]

def twiceTracks : InsertionMap String (List TrackedStep) := (partition twicePlan).toOption.getD []

/-- Resumed inside the second meeting, the plan is resumed before it. -/
theorem resume_sound_of_noCircle_twice : ResumesSoundly (fun _ => 2) twicePlan twiceTracks 3 := by
  have partitioned : partition twicePlan = .ok twiceTracks := by decide +kernel
  have barriers : BarrierOnly (fun _ => 2) twicePlan := barrierOnly_of_pairs (by decide +kernel)
  obtain ⟨consistent, modeled⟩ := resumedTracks_events partitioned barriers 0
  have unbounded : ∀ component ∈ splitIndependentComponents (resumedTracks twiceTracks 0),
      searchComponent component 1000 ≠ some .boundReached := by decide +kernel
  have completes : Completes (fun _ => 2) (resumedTracks twiceTracks 0) :=
    completes_of_none consistent modeled unbounded (by decide +kernel)
  obtain ⟨spans, collected, sound⟩ :=
    resume_sound_of_noCircle (fun _ => 2) twicePlan twiceTracks partitioned barriers completes 3
  have formed : collectGenerationSpans twicePlan =
      .ok ((collectGenerationSpans twicePlan).toOption.getD []) := by decide +kernel
  obtain rfl := Except.ok.inj (collected.symm.trans formed)
  refine sound 2 ⟨by decide, by decide +kernel, fun index above below => ?_⟩
    (Or.inr (Or.inr fun span circle => ?_))
  · obtain rfl : index = 3 := by omega
    decide +kernel
  · -- the generations go up in the plan
    have rising : ∀ one ∈ (collectGenerationSpans twicePlan).toOption.getD [],
        ∀ other ∈ (collectGenerationSpans twicePlan).toOption.getD [],
          Precedes ((collectGenerationSpans twicePlan).toOption.getD []) 2 one other →
            one.firstIndex < other.firstIndex := by decide +kernel
    have less := circle.lift GenerationSpan.firstIndex
      fun one other before => rising one before.1 other before.2.1 before
    rw [transGen_eq_self] at less
    exact lt_irrefl _ less

/-- Three devices that meet in a circle once the first meeting at `X` is over. -/
def circlePlan : Plan where
  devices := ["A", "B", "C", "D"]
  steps := [pairBarrier "C" "X", pairBarrier "D" "X", pairBarrier "A" "X", pairBarrier "A" "Y",
    pairBarrier "B" "Y", pairBarrier "B" "Z", pairBarrier "C" "Z", pairBarrier "C" "X"]

def circleTracks : InsertionMap String (List TrackedStep) := (partition circlePlan).toOption.getD []

/-- Resumed after the first meeting, the three wait for each other in a circle: no two of
them visit two locks in opposite orders, so the guard lets the step stand. -/
theorem circle_resumes_into_deadlock :
    partition circlePlan = .ok circleTracks ∧ BarrierOnly (fun _ => 2) circlePlan ∧
      Completes (fun _ => 2) (resumedTracks circleTracks 0) ∧
      ¬ ResumesSoundly (fun _ => 2) circlePlan circleTracks 2 := by
  have partitioned : partition circlePlan = .ok circleTracks := by decide +kernel
  have barriers : BarrierOnly (fun _ => 2) circlePlan := barrierOnly_of_pairs (by decide +kernel)
  refine ⟨partitioned, barriers, ?_, ?_⟩
  · obtain ⟨consistent, modeled⟩ := resumedTracks_events partitioned barriers 0
    have unbounded : ∀ component ∈ splitIndependentComponents (resumedTracks circleTracks 0),
        searchComponent component 1000 ≠ some .boundReached := by decide +kernel
    exact completes_of_none consistent modeled unbounded (by decide +kernel)
  · rintro ⟨safe, computed, -, completes⟩
    have same : computeSafeBarrierResumeStep circlePlan 2 = .ok 2 := by decide +kernel
    obtain rfl : (2 : Int) = safe := Except.ok.inj (same.symm.trans computed)
    obtain ⟨deadlock, found⟩ : ∃ deadlock, findUnavoidableCoordinationDeadlock
        (resumedTracks circleTracks 2) 1000 = some deadlock :=
      Option.isSome_iff_exists.mp (by decide +kernel)
    exact reported_deadlock_dooms (resumedTracks_events partitioned barriers 2).1 found
      completes

end AutoMobile.BarrierResume
