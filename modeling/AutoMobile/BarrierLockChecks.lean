import AutoMobile.BarrierResumeSoundness

/- The checks of `PlanValidator` that look at the arrivals of one barrier lock: each is
a condition that every plan that can run to its end meets. -/
namespace AutoMobile.PlanValidator

open List hiding keys
open BarrierResume CoordinationSchedule InsertionMap Plans

structure BarrierLockUsage where
  devices : List String := []
  deviceCounts : List Nat := []
  arrivals : Nat := 0
  deviceOccurrences : InsertionMap String Nat := []
deriving DecidableEq, Repr

/-- Add to a set that keeps the order in which its members came in. -/
def addNew {α : Type} [DecidableEq α] (set : List α) (item : α) : List α :=
  if item ∈ set then set else set ++ [item]

/-- The usage of a lock with one more step. -/
def recordStep (usage : BarrierLockUsage) (step : PlanStep) : BarrierLockUsage where
  arrivals := usage.arrivals + 1
  devices := match readDevice step with
    | some device => addNew usage.devices device
    | none => usage.devices
  deviceOccurrences := match readDevice step with
    | some device => put usage.deviceOccurrences device
        ((get? usage.deviceOccurrences device).getD 0 + 1)
    | none => usage.deviceOccurrences
  deviceCounts := match readDeviceCount step with
    | some deviceCount => addNew usage.deviceCounts deviceCount
    | none => usage.deviceCounts

def recordBarrierLockUsage (usageByLock : InsertionMap String BarrierLockUsage) (step : PlanStep) :
    InsertionMap String BarrierLockUsage :=
  match readLock step with
  | none => usageByLock
  | some lock => put usageByLock lock (recordStep ((get? usageByLock lock).getD {}) step)

def collectBarrierLockUsage (plan : Plan) : InsertionMap String BarrierLockUsage :=
  plan.steps.foldl
    (fun usageByLock step =>
      if step.tool = "barrier" then recordBarrierLockUsage usageByLock step else usageByLock) []

/-- All errors in one, or none. -/
def throwJoined (errors : List String) : Except String Unit :=
  if errors.isEmpty then .ok () else .error (String.intercalate "\n" errors)

def plural (count : Nat) : String := if count = 1 then "" else "s"

def distinctDeviceErrors (lock : String) (usage : BarrierLockUsage) : List String :=
  usage.deviceCounts.filterMap fun deviceCount =>
    if usage.devices.length < deviceCount then
      let devices := String.intercalate ", " usage.devices
      some ("barrier lock \"" ++ lock ++ "\" declares deviceCount=" ++ toString deviceCount ++
        " but only " ++ toString usage.devices.length ++ " distinct device" ++
        plural usage.devices.length ++ " (" ++ (if devices = "" then "none" else devices) ++
        ") ever target it in this plan. No round can ever complete.")
    else none

def validateBarrierDistinctDeviceCounts (plan : Plan) : Except String Unit :=
  throwJoined ((collectBarrierLockUsage plan).flatMap fun (lock, usage) =>
    distinctDeviceErrors lock usage)

def consistentCountErrors (lock : String) (usage : BarrierLockUsage) : List String :=
  if usage.deviceCounts.length ≤ 1 then []
  else
    let counts := String.intercalate ", " ((usage.deviceCounts.insertionSort (· ≤ ·)).map toString)
    ["barrier lock \"" ++ lock ++ "\" is reused with inconsistent deviceCount values (" ++ counts ++
      "). The runtime coordinator keeps a single shared expected count per lock name, so " ++
      "mixed-count reuse is racy and can deadlock depending on arrival order. Use a distinct lock " ++
      "name for each deviceCount instead."]

def validateBarrierConsistentDeviceCount (plan : Plan) : Except String Unit :=
  throwJoined ((collectBarrierLockUsage plan).flatMap fun (lock, usage) =>
    consistentCountErrors lock usage)

def completenessErrors (lock : String) (usage : BarrierLockUsage) : List String :=
  match usage.deviceCounts with
  | [deviceCount] =>
    if deviceCount < 1 ∨ usage.arrivals % deviceCount = 0 then []
    else
      ["barrier lock \"" ++ lock ++ "\" has " ++ toString usage.arrivals ++ " total arrival" ++
        plural usage.arrivals ++ " across the plan, which is not a multiple of its deviceCount=" ++
        toString deviceCount ++ ". At least one generation is necessarily incomplete and would " ++
        "deadlock waiting for a device that never arrives."]
  | _ => []

def validateBarrierGenerationCompleteness (plan : Plan) : Except String Unit :=
  throwJoined ((collectBarrierLockUsage plan).flatMap fun (lock, usage) =>
    completenessErrors lock usage)

def excessArrivalErrors (lock : String) (usage : BarrierLockUsage) : List String :=
  match usage.deviceCounts with
  | [deviceCount] =>
    if deviceCount < 1 ∨ usage.arrivals % deviceCount ≠ 0 then []
    else
      let generations := usage.arrivals / deviceCount
      usage.deviceOccurrences.filterMap fun (device, occurrences) =>
        if occurrences ≤ generations then none
        else
          some ("barrier lock \"" ++ lock ++ "\" has " ++ toString generations ++ " generation" ++
            plural generations ++ " available (deviceCount=" ++ toString deviceCount ++ ", " ++
            toString usage.arrivals ++ " total arrivals), but device \"" ++ device ++
            "\" arrives " ++ toString occurrences ++ " times. A device can participate in a lock " ++
            "at most once per generation, since each device's track executes sequentially, so " ++
            "this device would deadlock waiting for a generation that never admits it again.")
  | _ => []

def validateBarrierExcessDeviceArrivals (plan : Plan) : Except String Unit :=
  throwJoined ((collectBarrierLockUsage plan).flatMap fun (lock, usage) =>
    excessArrivalErrors lock usage)

/-- The usage of a lock from its steps. -/
def usageOf (steps : List PlanStep) : BarrierLockUsage := steps.foldl recordStep {}

theorem usageOf_snoc (steps : List PlanStep) (step : PlanStep) :
    usageOf (steps ++ [step]) = recordStep (usageOf steps) step := by
  rw [usageOf, foldl_append]
  rfl

section Usage

variable {steps : List PlanStep}

theorem usageOf_arrivals (steps : List PlanStep) : (usageOf steps).arrivals = steps.length := by
  induction steps using List.reverseRecOn with
  | nil => rfl
  | append_singleton steps step ih => rw [usageOf_snoc, recordStep, ih, length_append]; rfl

theorem mem_addNew {α : Type} [DecidableEq α] {set : List α} {item other : α} :
    other ∈ addNew set item ↔ other ∈ set ∨ other = item := by
  unfold addNew
  split
  · rename_i known
    constructor
    · exact Or.inl
    · rintro (old | rfl)
      · exact old
      · exact known
  · simp

theorem nodup_addNew {α : Type} [DecidableEq α] {set : List α} (distinct : set.Nodup) (item : α) :
    (addNew set item).Nodup := by
  unfold addNew
  split
  · exact distinct
  · rename_i fresh
    exact distinct.append (nodup_singleton item) (by simpa using fresh)

theorem usageOf_devices (steps : List PlanStep) : (usageOf steps).devices.Nodup ∧
      ∀ device, device ∈ (usageOf steps).devices ↔ ∃ step ∈ steps, readDevice step = some device := by
  induction steps using List.reverseRecOn with
  | nil => exact ⟨nodup_nil, by simp [usageOf]⟩
  | append_singleton steps step ih =>
    obtain ⟨distinct, members⟩ := ih
    rw [usageOf_snoc, recordStep]
    dsimp only
    cases found : readDevice step with
    | none =>
      refine ⟨distinct, fun device => ?_⟩
      simp [members, found, or_and_right, exists_or]
    | some name =>
      refine ⟨nodup_addNew distinct name, fun device => ?_⟩
      rw [mem_addNew, members]
      simp [found, or_and_right, exists_or, eq_comm]

theorem usageOf_deviceCounts {count : Nat} (nonempty : steps ≠ [])
    (all : ∀ step ∈ steps, readDeviceCount step = some count) :
    (usageOf steps).deviceCounts = [count] := by
  induction steps using List.reverseRecOn with
  | nil => exact absurd rfl nonempty
  | append_singleton steps step ih =>
    have here := all step (by simp)
    rw [usageOf_snoc, recordStep]
    dsimp only
    rw [here]
    by_cases first : steps = []
    · subst first
      rfl
    · rw [ih first fun other member => all other (by simp [member])]
      simp [addNew]

theorem usageOf_occurrences (steps : List PlanStep) :
    (keys (usageOf steps).deviceOccurrences).Nodup ∧ ∀ device,
      (get? (usageOf steps).deviceOccurrences device).getD 0 =
        steps.countP fun step => readDevice step = some device := by
  induction steps using List.reverseRecOn with
  | nil => exact ⟨nodup_keys_nil, fun device => rfl⟩
  | append_singleton steps step ih =>
    obtain ⟨distinct, counts⟩ := ih
    rw [usageOf_snoc, recordStep]
    dsimp only
    cases found : readDevice step with
    | none =>
      refine ⟨distinct, fun device => ?_⟩
      simp [counts, countP_append, found]
    | some name =>
      refine ⟨nodup_keys_put distinct _ _, fun device => ?_⟩
      rw [get?_put]
      by_cases same : name = device
      · subst same
        simp [counts, countP_append, found]
      · simp [counts, countP_append, found, same]

/-- Each lock has the usage of the barrier steps at it. -/
theorem get?_collectBarrierLockUsage (plan : Plan) (lock : String) {usage : BarrierLockUsage}
    (found : get? (collectBarrierLockUsage plan) lock = some usage) :
    usage = usageOf (plan.steps.filter fun step => step.tool = "barrier" ∧ readLock step = some lock) ∧
      (plan.steps.filter fun step => step.tool = "barrier" ∧ readLock step = some lock) ≠ [] := by
  suffices both : ∀ steps : List PlanStep, get? (steps.foldl (fun usageByLock step =>
        if step.tool = "barrier" then recordBarrierLockUsage usageByLock step else usageByLock) []) lock =
      if (steps.filter fun step => step.tool = "barrier" ∧ readLock step = some lock) = [] then none
      else some (usageOf
        (steps.filter fun step => step.tool = "barrier" ∧ readLock step = some lock)) by
    unfold collectBarrierLockUsage at found
    rw [both] at found
    split at found
    · cases found
    · rename_i some'
      exact ⟨(Option.some.inj found).symm, some'⟩
  intro steps
  induction steps using List.reverseRecOn with
  | nil => rfl
  | append_singleton steps step ih =>
    rw [foldl_append, foldl_cons, foldl_nil, filter_append]
    generalize steps.foldl _ [] = usageByLock at ih ⊢
    by_cases barrier : step.tool = "barrier"
    · rw [if_pos barrier]
      unfold recordBarrierLockUsage
      cases named : readLock step with
      | none => simpa [barrier, named] using ih
      | some other =>
        dsimp only
        rw [get?_put]
        by_cases same : other = lock
        · subst same
          have one : [step].filter
              (fun step => step.tool = "barrier" ∧ readLock step = some other) = [step] := by
            simp [barrier, named]
          rw [if_pos rfl, one, usageOf_snoc, ih]
          split <;> rename_i none
          · rw [none]
            simp [usageOf]
          · simp
        · simpa [barrier, named, same] using ih
    · simpa [barrier] using ih

theorem nodup_keys_collect (plan : Plan) : (keys (collectBarrierLockUsage plan)).Nodup := by
  unfold collectBarrierLockUsage
  generalize plan.steps = steps
  induction steps using List.reverseRecOn with
  | nil => exact nodup_keys_nil
  | append_singleton steps step ih =>
    rw [foldl_append, foldl_cons, foldl_nil]
    generalize steps.foldl _ [] = usageByLock at ih ⊢
    split
    · unfold recordBarrierLockUsage
      split
      · exact ih
      · exact nodup_keys_put ih _ _
    · exact ih

end Usage

/-- Names that occur at most `each` times are at least so many. -/
theorem length_le_of_count_le {names set : List String} {each : ℕ} (within : ∀ name ∈ names, name ∈ set)
    (bound : ∀ name, names.count name ≤ each) : names.length ≤ set.length * each := by
  calc names.length = ∑ name ∈ names.toFinset, names.count name :=
        (sum_toFinset_count_eq_length names).symm
    _ ≤ names.toFinset.card * each := Finset.sum_le_card_nsmul _ _ _ fun name _ => bound name
    _ ≤ set.toFinset.card * each := by
        refine Nat.mul_le_mul_right each (Finset.card_le_card fun name member => ?_)
        exact mem_toFinset.mpr (within name (mem_toFinset.mp member))
    _ ≤ set.length * each := Nat.mul_le_mul_right each (toFinset_card_le set)

section Runnable

variable {count : String → ℕ} {plan : Plan} {tracks : InsertionMap String (List TrackedStep)}
  {labelled : List (String × TrackedStep)}

/-- The barrier steps at a lock are the arrivals of the tracks at it. -/
theorem barrierSteps_eq (shared : SharedOut plan tracks labelled) (barriers : BarrierOnly count plan)
    (lock : String) :
    (plan.steps.filter fun step => step.tool = "barrier" ∧ readLock step = some lock) =
      (labelled.filter fun item => lockOf item.2 = some lock).map fun item => item.2.step := by
  have steps : labelled.map (fun item => item.2.step) = plan.steps := by
    have firsts := congrArg (List.map Prod.fst) shared.steps
    rw [List.map_map, zipIdx_map_fst] at firsts
    exact firsts
  rw [← steps, filter_map]
  refine congrArg _ (filter_congr fun item member => ?_)
  have inPlan := shared.mem_steps member
  rw [Function.comp_apply, Bool.eq_iff_iff, decide_eq_true_eq, decide_eq_true_eq]
  unfold lockOf
  constructor
  · rintro ⟨tool, locked⟩
    have coordinated : isCoordinationTool item.2.step.tool = true := by
      rw [tool]
      rfl
    rw [if_pos coordinated]
    exact locked
  · intro locked
    split at locked
    · rename_i coordinated
      exact ⟨(barriers _ inPlan coordinated).1, locked⟩
    · cases locked

/-- What the arrivals of a plan that can run to its end say about a lock. -/
structure FullRounds (usage : BarrierLockUsage) (deviceCount rounds : Nat) : Prop where
  counts : usage.deviceCounts = [deviceCount]
  positive : 1 ≤ deviceCount
  total : usage.arrivals = deviceCount * rounds
  enough : deviceCount ≤ usage.devices.length
  each : ∀ entry ∈ usage.deviceOccurrences, entry.2 ≤ rounds

theorem fullRounds_of_completes (partitioned : partition plan = .ok tracks)
    (barriers : BarrierOnly count plan) (completes : Completes count (resumedTracks tracks 0))
    {entry : String × BarrierLockUsage} (member : entry ∈ collectBarrierLockUsage plan) :
    ∃ rounds, FullRounds entry.2 (count entry.1) rounds := by
  obtain ⟨labelled, shared⟩ := partition_sharedOut partitioned
  obtain ⟨lock, usage⟩ := entry
  obtain ⟨usage_eq, some'⟩ :=
    get?_collectBarrierLockUsage plan lock (get?_of_mem (nodup_keys_collect plan) member)
  rw [barrierSteps_eq shared barriers lock] at usage_eq some'
  obtain ⟨rounds, fills⟩ := (completes_iff_completable.mp completes).fillsRounds lock
  obtain ⟨whole, each⟩ := fillsRounds_labelled shared barriers fills
  set bucket := labelled.filter fun item => lockOf item.2 = some lock with bucket_eq
  have nonempty : bucket ≠ [] := fun none => some' (by rw [none]; rfl)
  have inside : ∀ item ∈ bucket, item ∈ labelled ∧ lockOf item.2 = some lock := by
    intro item here
    obtain ⟨known, locked⟩ := mem_filter.mp here
    exact ⟨known, by simpa using locked⟩
  have devices : ∀ item ∈ bucket, readDevice item.2.step = some item.1 :=
    fun item here => readDevice_of_trackDevice (shared.device item (inside item here).1)
  have counts : ∀ step ∈ bucket.map (fun item => item.2.step),
      readDeviceCount step = some (count lock) := by
    intro step there
    obtain ⟨item, here, rfl⟩ := mem_map.mp there
    obtain ⟨known, locked⟩ := inside item here
    unfold lockOf at locked
    split at locked
    · rename_i coordinated
      obtain ⟨-, name, found, counted⟩ := barriers _ (shared.mem_steps known) coordinated
      obtain rfl := Option.some.inj (found.symm.trans locked)
      exact counted
    · cases locked
  have positive : 1 ≤ count lock := by
    obtain ⟨item, here⟩ := exists_mem_of_ne_nil _ nonempty
    exact readDeviceCount_pos (counts _ (mem_map_of_mem here))
  rw [Nat.max_eq_right positive] at whole
  have occurrences : ∀ device, (bucket.map fun item => item.2.step).countP
      (fun step => readDevice step = some device) ≤ rounds := by
    intro device
    refine Nat.le_trans (Nat.le_of_eq ?_) (each device)
    rw [countP_map, bucket_eq, countP_filter, countP_eq_length_filter]
    refine congrArg List.length (filter_congr fun item known => ?_)
    have named := readDevice_of_trackDevice (shared.device item known)
    simp [named]
  refine ⟨rounds, ?_, positive, ?_, ?_, fun entry listed => ?_⟩
  · rw [usage_eq, usageOf_deviceCounts some' counts]
  · rw [usage_eq, usageOf_arrivals, length_map, whole]
  · have spread := @length_le_of_count_le (bucket.map Prod.fst) usage.devices rounds
      (fun name there => by
        obtain ⟨item, here, rfl⟩ := mem_map.mp there
        rw [usage_eq, (usageOf_devices _).2]
        exact ⟨item.2.step, mem_map_of_mem here, devices item here⟩)
      (fun name => by
        refine Nat.le_trans (Nat.le_of_eq ?_) (occurrences name)
        rw [List.count, countP_map, countP_map]
        refine countP_congr fun item here => ?_
        simp [devices item here])
    rw [length_map, whole] at spread
    refine Nat.le_of_mul_le_mul_right spread (Nat.pos_of_ne_zero ?_)
    rintro rfl
    exact nonempty (eq_nil_of_length_eq_zero whole)
  · obtain ⟨distinct, counted⟩ := usageOf_occurrences (bucket.map fun item => item.2.step)
    rw [usage_eq] at listed
    have found := counted entry.1
    rw [get?_of_mem distinct listed, Option.getD_some] at found
    rw [found]
    exact occurrences entry.1

theorem throwJoined_flatMap {usages : InsertionMap String BarrierLockUsage}
    {errors : String → BarrierLockUsage → List String}
    (quiet : ∀ entry ∈ usages, errors entry.1 entry.2 = []) :
    throwJoined (usages.flatMap fun (lock, usage) => errors lock usage) = .ok () := by
  have none : (usages.flatMap fun (lock, usage) => errors lock usage) = [] :=
    flatMap_eq_nil_iff.mpr quiet
  rw [none]
  rfl

section Errors

variable {usage : BarrierLockUsage} {deviceCount rounds : Nat}

theorem FullRounds.distinctDevices (full : FullRounds usage deviceCount rounds) (lock : String) :
    distinctDeviceErrors lock usage = [] := by
  have enough := full.enough
  unfold distinctDeviceErrors
  rw [full.counts, filterMap_eq_nil_iff]
  intro other member
  obtain rfl := mem_singleton.mp member
  exact if_neg (by omega)

theorem FullRounds.consistentCount (full : FullRounds usage deviceCount rounds) (lock : String) :
    consistentCountErrors lock usage = [] := by
  unfold consistentCountErrors
  rw [full.counts]
  rfl

theorem FullRounds.completeness (full : FullRounds usage deviceCount rounds) (lock : String) :
    completenessErrors lock usage = [] := by
  unfold completenessErrors
  rw [full.counts]
  dsimp only
  rw [if_pos (Or.inr (by rw [full.total, Nat.mul_mod_right]))]

theorem FullRounds.excessArrivals (full : FullRounds usage deviceCount rounds) (lock : String) :
    excessArrivalErrors lock usage = [] := by
  unfold excessArrivalErrors
  rw [full.counts]
  dsimp only
  split
  · rfl
  · rw [full.total, Nat.mul_div_cancel_left _ full.positive, filterMap_eq_nil_iff]
    intro entry member
    exact if_pos (full.each entry member)

end Errors

end Runnable

/-- The checks of the single locks reject no plan that some order of arrivals completes. -/
theorem barrier_checks_pass (count : String → ℕ) (plan : Plan)
    (tracks : InsertionMap String (List TrackedStep)) (partitioned : partition plan = .ok tracks)
    (barriers : BarrierOnly count plan) (completes : Completes count (resumedTracks tracks 0)) :
    validateBarrierConsistentDeviceCount plan = .ok () ∧
      validateBarrierDistinctDeviceCounts plan = .ok () ∧
      validateBarrierGenerationCompleteness plan = .ok () ∧
      validateBarrierExcessDeviceArrivals plan = .ok () := by
  have full : ∀ entry ∈ collectBarrierLockUsage plan,
      ∃ rounds, FullRounds entry.2 (count entry.1) rounds :=
    fun entry member => fullRounds_of_completes partitioned barriers completes member
  refine ⟨?_, ?_, ?_, ?_⟩
  · refine throwJoined_flatMap fun entry member => ?_
    obtain ⟨rounds, here⟩ := full entry member
    exact here.consistentCount entry.1
  · refine throwJoined_flatMap fun entry member => ?_
    obtain ⟨rounds, here⟩ := full entry member
    exact here.distinctDevices entry.1
  · refine throwJoined_flatMap fun entry member => ?_
    obtain ⟨rounds, here⟩ := full entry member
    exact here.completeness entry.1
  · refine throwJoined_flatMap fun entry member => ?_
    obtain ⟨rounds, here⟩ := full entry member
    exact here.excessArrivals entry.1

/-- Three devices that meet in changing pairs. -/
def changingPairs : Plan where
  devices := ["A", "B", "C"]
  steps := [pairBarrier "A" "X", pairBarrier "B" "X", pairBarrier "A" "X", pairBarrier "C" "X"]

def changingTracks : InsertionMap String (List TrackedStep) :=
  (partition changingPairs).toOption.getD []

theorem barrier_checks_pass_pairs :
    validateBarrierGenerationCompleteness changingPairs = .ok () := by
  have partitioned : partition changingPairs = .ok changingTracks := by decide +kernel
  have barriers : BarrierOnly (fun _ => 2) changingPairs := barrierOnly_of_pairs (by decide +kernel)
  obtain ⟨consistent, modeled⟩ := resumedTracks_events partitioned barriers 0
  have completes : Completes (fun _ => 2) (resumedTracks changingTracks 0) :=
    @completes_of_none _ _ consistent 1000 modeled (by decide +kernel) (by decide +kernel)
  exact (barrier_checks_pass (fun _ => 2) changingPairs changingTracks partitioned barriers
    completes).2.2.1

end AutoMobile.PlanValidator
