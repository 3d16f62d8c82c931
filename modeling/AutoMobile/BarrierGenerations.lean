import AutoMobile.BarrierOrders
import AutoMobile.BarrierPartition
import AutoMobile.CoordinationFeasibility
import AutoMobile.PlanTracks

/- The arrivals of a barrier plan's tracks and the generations they fall into. -/
namespace AutoMobile.BarrierResume

open List hiding keys
open BarrierArrivals BarrierRounds InsertionMap Plans
open CoordinationSchedule
open Relation (TransGen)

/-- Coordination is by barriers only, and a lock has one device count. -/
def BarrierOnly (count : String → ℕ) (plan : Plan) : Prop :=
  ∀ step ∈ plan.steps, isCoordinationTool step.tool = true →
    step.tool = "barrier" ∧ ∃ lock, readLock step = some lock ∧
      readDeviceCount step = some (count lock)

/-- What a step of a device track means for the schedule. -/
def arrivalEvent (tracked : TrackedStep) : Option CoordinationEvent :=
  if isCoordinationTool tracked.step.tool then
    match readLock tracked.step, readDeviceCount tracked.step with
    | some lock, some deviceCount =>
      some { tool := tracked.step.tool, lock, deviceCount, stepIndex := tracked.planIndex }
    | _, _ => none
  else none

/-- The arrivals of the device tracks when the plan is resumed at `startStep`. -/
def resumedTracks (tracks : InsertionMap String (List TrackedStep)) (startStep : Int) :
    List CoordinationTrack :=
  tracks.map fun entry => ⟨entry.1, (remainingSteps startStep entry.2).filterMap arrivalEvent⟩

/-- Resuming at this step would split a generation. -/
def Straddled (spans : List GenerationSpan) (index : Nat) : Prop :=
  ∃ span ∈ spans, span.firstIndex < index ∧ index ≤ span.lastIndex

instance (spans : List GenerationSpan) : DecidablePred (Straddled spans) :=
  fun index => by unfold Straddled; infer_instance

section Locks

variable {count : String → ℕ} {plan : Plan} {tracks : InsertionMap String (List TrackedStep)}
  {labelled : List (String × TrackedStep)}

/-- The lock of a step that arrives somewhere. -/
def lockOf (tracked : TrackedStep) : Option String :=
  if isCoordinationTool tracked.step.tool then readLock tracked.step else none

def arrivalOf (tracked : TrackedStep) : Arrival :=
  ⟨tracked.planIndex, readDeviceCount tracked.step, readDevice tracked.step, tracked.step.tool⟩

theorem readDevice_of_trackDevice {step : PlanStep} {device : String}
    (known : trackDevice step = some (.text device)) : readDevice step = some device := by
  unfold trackDevice at known
  unfold readDevice effectiveStepField
  split at known
  · rename_i value found
    split at known
    · cases known
    · rename_i nonempty
      obtain rfl : value = device := by simpa using known
      simp [found, nonempty]
  · split at known <;> cases known
  · rename_i other none _
    rw [known] at none
    exact absurd rfl (none device)

theorem arrivalEvent_lock (barriers : BarrierOnly count plan) {tracked : TrackedStep}
    (inside : tracked.step ∈ plan.steps) :
    (arrivalEvent tracked).map (·.lock) = lockOf tracked := by
  unfold arrivalEvent lockOf
  split
  · rename_i coordinated
    obtain ⟨-, lock, found, counted⟩ := barriers _ inside coordinated
    simp [found, counted]
  · rfl

theorem lockArrivals_eq (shared : SharedOut plan tracks labelled) (wanted : String → Bool) :
    lockArrivals plan wanted = labelled.filterMap fun item =>
      if isCoordinationTool item.2.step.tool && wanted item.2.step.tool then
        (readLock item.2.step).map fun lock => (lock, arrivalOf item.2)
      else none := by
  unfold lockArrivals
  rw [← shared.steps, filterMap_map]
  rfl

/-- Collect the values of one key from a list that is labelled on the way. -/
theorem filter_filterMap_key {α κ β : Type} [DecidableEq κ] (items : List α) (keyOf : α → Option κ)
    (valueOf : α → β) (key : κ) :
    ((items.filterMap fun item => (keyOf item).map fun name => (name, valueOf item)).filter
      (·.1 = key)).map Prod.snd = (items.filter (keyOf · = some key)).map valueOf := by
  induction items with
  | nil => rfl
  | cons item items ih =>
    cases found : keyOf item with
    | none => simp [found, ih]
    | some name => by_cases same : name = key <;> simp [found, same, ih]

variable {lock : String} {startStep : Int}

/-- The arrivals at a lock, in plan order. -/
theorem arrivals_at_lock (shared : SharedOut plan tracks labelled)
    (barriers : BarrierOnly count plan) {arrivals : List Arrival}
    (bucket : (lock, arrivals) ∈ pushAll [] (lockArrivals plan (· == "barrier"))) :
    arrivals = (labelled.filter fun item => lockOf item.2 = some lock).map
      (fun item => arrivalOf item.2) ∧ arrivals ≠ [] := by
  have known : lockArrivals plan (· == "barrier") = labelled.filterMap fun item =>
      (lockOf item.2).map fun name => (name, arrivalOf item.2) := by
    rw [lockArrivals_eq shared]
    refine filterMap_congr fun item member => ?_
    unfold lockOf
    by_cases coordinated : isCoordinationTool item.2.step.tool = true
    · have tool := (barriers _ (shared.mem_steps member) coordinated).1
      have wanted : (isCoordinationTool item.2.step.tool && item.2.step.tool == "barrier") = true := by
        rw [coordinated, Bool.true_and, tool]
        rfl
      rw [if_pos wanted, if_pos coordinated]
    · simp [coordinated]
  have items : arrivals = ((lockArrivals plan (· == "barrier")).filter (·.1 = lock)).map Prod.snd :=
    (mem_pushAll_nil bucket).1
  obtain ⟨pair, member, same⟩ : ∃ pair ∈ lockArrivals plan (· == "barrier"), pair.1 = lock :=
    (mem_pushAll_nil bucket).2
  refine ⟨?_, fun empty => ?_⟩
  · rw [items, known]
    exact filter_filterMap_key labelled (fun item => lockOf item.2) (fun item => arrivalOf item.2) lock
  · have inside : pair.2 ∈ arrivals := by
      rw [items]
      exact mem_map_of_mem (mem_filter.mpr ⟨member, by simpa using same⟩)
    rw [empty] at inside
    cases inside

theorem lockArrivals_sections (shared : SharedOut plan tracks labelled)
    (barriers : BarrierOnly count plan) : lockArrivals plan (· != "barrier") = [] := by
  rw [lockArrivals_eq shared, filterMap_eq_nil_iff]
  intro item member
  by_cases coordinated : isCoordinationTool item.2.step.tool = true
  · have tool := (barriers _ (shared.mem_steps member) coordinated).1
    simp [tool]
  · simp [coordinated]

/-- The program of a resumed track is the list of its locks. -/
theorem lockProgram_resumed (shared : SharedOut plan tracks labelled)
    (barriers : BarrierOnly count plan) (startStep : Int) {entry : String × List TrackedStep}
    (member : entry ∈ tracks) :
    lockProgram ⟨entry.1, (remainingSteps startStep entry.2).filterMap arrivalEvent⟩ =
      (remainingSteps startStep entry.2).filterMap lockOf := by
  rw [lockProgram, map_filterMap]
  refine filterMap_congr fun tracked inside => ?_
  have inTrack : tracked ∈ entry.2 := (mem_filter.mp inside).1
  rw [shared.track entry member] at inTrack
  obtain ⟨item, selected, rfl⟩ := mem_map.mp inTrack
  exact arrivalEvent_lock barriers (shared.mem_steps (mem_filter.mp selected).1)

theorem remainingSteps_of_nonpos (early : startStep ≤ 0) (track : List TrackedStep) :
    remainingSteps startStep track = track := by
  refine filter_eq_self.mpr fun tracked _ => ?_
  have late : ¬ (tracked.planIndex : Int) < startStep := by omega
  simpa using late

/-- The programs of the plan as a whole. -/
theorem programsOf_whole (shared : SharedOut plan tracks labelled)
    (barriers : BarrierOnly count plan) :
    programsOf (resumedTracks tracks 0) =
      (tracks.map fun entry => entry.2.filterMap lockOf : List (List String)) := by
  unfold programsOf resumedTracks
  rw [List.map_map]
  congr 1
  refine map_congr_left fun entry member => ?_
  rw [Function.comp_apply, lockProgram_resumed shared barriers 0 member,
    remainingSteps_of_nonpos (le_refl 0)]

/-- What the rounds of a lock say about its arrivals. -/
theorem fillsRounds_labelled (shared : SharedOut plan tracks labelled)
    (barriers : BarrierOnly count plan) {rounds : Nat}
    (fills : FillsRounds count lock rounds (programsOf (resumedTracks tracks 0))) :
    (labelled.filter fun item => lockOf item.2 = some lock).length = max 1 (count lock) * rounds ∧
      ∀ device, (labelled.filter fun item =>
        item.1 = device && lockOf item.2 = some lock).length ≤ rounds := by
  rw [programsOf_whole shared barriers] at fills
  obtain ⟨whole, each⟩ := fills
  constructor
  · have counted : (labelled.map Prod.snd).countP (lockOf · == some lock) =
        max 1 (count lock) * rounds := by
      rw [← whole, Multiset.map_coe, Multiset.sum_coe, ← count_flatten]
      have flat : (tracks.map fun entry => entry.2.filterMap lockOf).flatten =
          (values tracks).flatten.filterMap lockOf := by
        rw [filterMap_flatten, values, List.map_map]
        rfl
      rw [flat, count_filterMap, shared.flatten.countP_eq]
    rw [← counted, countP_map, countP_eq_length_filter]
    congr 1
    refine filter_congr fun item _ => ?_
    rw [Bool.eq_iff_iff]
    simp
  · intro device
    by_cases known : device ∈ keys tracks
    · obtain ⟨track, found⟩ := (mem_keys_iff _ _).mp known
      have member := mem_of_get? found
      have bound := each _ (Multiset.mem_coe.mpr (mem_map_of_mem member))
      rw [count_filterMap, shared.track _ member, countP_map, countP_filter,
        countP_eq_length_filter] at bound
      refine le_trans (le_of_eq ?_) bound
      congr 1
      refine filter_congr fun item _ => ?_
      rw [Bool.eq_iff_iff]
      simp [and_comm]
    · have none : (labelled.filter fun item => item.1 = device && lockOf item.2 = some lock) = [] := by
        refine filter_eq_nil_iff.mpr fun item member => ?_
        have other : item.1 ≠ device := by
          rintro rfl
          exact known (shared.known item member)
        simp [other]
      rw [none]
      exact Nat.zero_le _

theorem readDeviceCount_pos {step : PlanStep} {deviceCount : Nat}
    (found : readDeviceCount step = some deviceCount) : 1 ≤ deviceCount := by
  unfold readDeviceCount at found
  split at found
  · split at found
    · obtain rfl := Option.some.inj found
      omega
    · cases found
  · cases found

/-- The arrivals at a lock are steps of its tracks and agree on the device count. -/
theorem arrivals_known (shared : SharedOut plan tracks labelled) (barriers : BarrierOnly count plan)
    {arrivals : List Arrival}
    (bucket : (lock, arrivals) ∈ pushAll [] (lockArrivals plan (· == "barrier"))) :
    (∀ arrival ∈ arrivals, ∃ item ∈ labelled, lockOf item.2 = some lock ∧
      arrivalOf item.2 = arrival ∧ arrival.device = some item.1) ∧
    1 ≤ count lock ∧ consistentDeviceCount arrivals = some (count lock) := by
  obtain ⟨same, nonempty⟩ := arrivals_at_lock shared barriers bucket
  have origin : ∀ arrival ∈ arrivals, ∃ item ∈ labelled, lockOf item.2 = some lock ∧
      arrivalOf item.2 = arrival ∧ arrival.device = some item.1 := by
    intro arrival member
    rw [same] at member
    obtain ⟨item, selected, rfl⟩ := mem_map.mp member
    obtain ⟨inside, here⟩ := mem_filter.mp selected
    exact ⟨item, inside, by simpa using here, rfl,
      readDevice_of_trackDevice (shared.device item inside)⟩
  have counts : ∀ arrival ∈ arrivals, arrival.deviceCount = some (count lock) := by
    intro arrival member
    obtain ⟨item, inside, here, rfl, -⟩ := origin arrival member
    unfold lockOf at here
    split at here
    · rename_i coordinated
      obtain ⟨-, name, found, counted⟩ := barriers _ (shared.mem_steps inside) coordinated
      obtain rfl := Option.some.inj (found.symm.trans here)
      exact counted
    · cases here
  have positive : 1 ≤ count lock := by
    obtain ⟨arrival, member⟩ := exists_mem_of_ne_nil _ nonempty
    obtain ⟨item, -, -, rfl, -⟩ := origin arrival member
    exact readDeviceCount_pos (counts _ member)
  exact ⟨origin, positive, consistentDeviceCount_eq nonempty positive counts⟩

/-- The arrivals at a lock of a plan that can complete are grouped. -/
theorem spansForLock_of_completes (shared : SharedOut plan tracks labelled)
    (barriers : BarrierOnly count plan) (completes : Completes count (resumedTracks tracks 0))
    {arrivals : List Arrival}
    (bucket : (lock, arrivals) ∈ pushAll [] (lockArrivals plan (· == "barrier"))) :
    ∃ spans, spansForLock lock arrivals = .ok spans ∧ spans ≠ [] := by
  obtain ⟨same, nonempty⟩ := arrivals_at_lock shared barriers bucket
  obtain ⟨origin, positive, consistent⟩ := arrivals_known shared barriers bucket
  obtain ⟨rounds, fills⟩ := (completes_iff_completable.mp completes).fillsRounds lock
  obtain ⟨whole, each⟩ := fillsRounds_labelled shared barriers fills
  rw [Nat.max_eq_right positive] at whole
  have known : ∀ arrival ∈ arrivals, arrival.device = some (arrival.device.getD "") := by
    intro arrival member
    obtain ⟨item, -, -, -, device⟩ := origin arrival member
    rw [device]
    rfl
  have total : arrivals.length = count lock * rounds := by rw [same, length_map, whole]
  refine spansForLock_ok nonempty positive known consistent total fun name => ?_
  refine le_trans (le_of_eq ?_) (each name)
  rw [same, filter_map, length_map, filter_filter]
  congr 1
  refine filter_congr fun item inside => ?_
  have device : (arrivalOf item.2).device = some item.1 :=
    readDevice_of_trackDevice (shared.device item inside)
  simp [device]

theorem barrierSpans_ok (bucket : InsertionMap String (List Arrival))
    (each : ∀ entry ∈ bucket, ∃ spans, spansForLock entry.1 entry.2 = .ok spans ∧ spans ≠ []) :
    ∃ spans, barrierSpans false bucket = .ok spans ∧ (spans = [] → bucket = []) := by
  induction bucket with
  | nil => exact ⟨[], rfl, fun _ => rfl⟩
  | cons entry rest ih =>
    obtain ⟨first, formed, some'⟩ := each entry mem_cons_self
    obtain ⟨later, ok, -⟩ := ih fun other member => each other (mem_cons_of_mem _ member)
    refine ⟨first ++ later, ?_, fun none => absurd (append_eq_nil_iff.mp none).1 some'⟩
    simp only [barrierSpans, spansForLockOrSkip, formed, ok]
    rfl

/-- The guard finds the generations of every plan that can complete. -/
theorem collectGenerationSpans_ok (partitioned : partition plan = .ok tracks)
    (barriers : BarrierOnly count plan) (completes : Completes count (resumedTracks tracks 0)) :
    ∃ spans, collectGenerationSpans plan = .ok spans ∧
      (spans = [] → lockArrivals plan (· == "barrier") = []) := by
  obtain ⟨labelled, shared⟩ := partition_sharedOut partitioned
  obtain ⟨spans, formed, empty⟩ := barrierSpans_ok _ fun entry member =>
    spansForLock_of_completes shared barriers completes member
  refine ⟨spans, ?_, fun none => ?_⟩
  · unfold collectGenerationSpans
    rw [formed, lockArrivals_sections shared barriers]
    simp [pushAll]
    rfl
  · have nothing := empty none
    cases found : lockArrivals plan (· == "barrier") with
    | nil => rfl
    | cons pair rest =>
      have known : pair.1 ∈ keys (pushAll [] (lockArrivals plan (· == "barrier"))) :=
        mem_keys_pushAll.mpr (Or.inr ⟨pair, by rw [found]; exact mem_cons_self, rfl⟩)
      rw [nothing] at known
      cases known

theorem resumedTracks_of_nonpos (early : startStep ≤ 0) :
    resumedTracks tracks startStep = resumedTracks tracks 0 := by
  unfold resumedTracks
  refine map_congr_left fun entry _ => ?_
  rw [remainingSteps_of_nonpos early, remainingSteps_of_nonpos (le_refl 0)]

theorem arrivalEvent_modeled (barriers : BarrierOnly count plan) {tracked : TrackedStep}
    (inPlan : tracked.step ∈ plan.steps) {event : CoordinationEvent}
    (here : arrivalEvent tracked = some event) :
    event.deviceCount = count event.lock ∧ event.unmodeled = false := by
  unfold arrivalEvent at here
  split at here
  · rename_i coordinated
    obtain ⟨-, lock, found, counted⟩ := barriers _ inPlan coordinated
    rw [found, counted] at here
    obtain rfl := Option.some.inj here
    exact ⟨rfl, rfl⟩
  · cases here

/-- Resumed tracks are modelled, with the device counts of the plan. -/
theorem resumedTracks_events (partitioned : partition plan = .ok tracks)
    (barriers : BarrierOnly count plan) (startStep : Int) :
    Consistent count (resumedTracks tracks startStep) ∧
      ∀ track ∈ resumedTracks tracks startStep, ∀ event ∈ track.events, event.unmodeled = false := by
  obtain ⟨labelled, shared⟩ := partition_sharedOut partitioned
  suffices both : ∀ track ∈ resumedTracks tracks startStep, ∀ event ∈ track.events,
      event.deviceCount = count event.lock ∧ event.unmodeled = false from
    ⟨fun track known event inside => (both track known event inside).1,
      fun track known event inside => (both track known event inside).2⟩
  intro track known event inside
  obtain ⟨entry, member, rfl⟩ := mem_map.mp known
  obtain ⟨tracked, remaining, here⟩ := mem_filterMap.mp inside
  have inTrack := (mem_filter.mp remaining).1
  rw [shared.track entry member] at inTrack
  obtain ⟨item, selected, rfl⟩ := mem_map.mp inTrack
  exact arrivalEvent_modeled barriers (shared.mem_steps (mem_filter.mp selected).1) here

/-- A plan that arrives nowhere can be resumed anywhere. -/
theorem completes_of_no_arrivals (partitioned : partition plan = .ok tracks)
    (barriers : BarrierOnly count plan) (none : lockArrivals plan (· == "barrier") = [])
    (startStep : Int) : Completes count (resumedTracks tracks startStep) := by
  obtain ⟨labelled, shared⟩ := partition_sharedOut partitioned
  refine completes_iff_completable.mpr ⟨_, .refl, fun program member => ?_⟩
  obtain ⟨track, known, rfl⟩ := mem_map.mp (Multiset.mem_coe.mp member)
  obtain ⟨entry, inTracks, rfl⟩ := mem_map.mp known
  rw [lockProgram_resumed shared barriers startStep inTracks, filterMap_eq_nil_iff]
  intro tracked remaining
  have inTrack := (mem_filter.mp remaining).1
  rw [shared.track entry inTracks] at inTrack
  obtain ⟨item, selected, rfl⟩ := mem_map.mp inTrack
  have labelledIn := (mem_filter.mp selected).1
  rw [lockArrivals_eq shared, filterMap_eq_nil_iff] at none
  have quiet := none item labelledIn
  unfold lockOf
  split
  · rename_i coordinated
    have tool := (barriers _ (shared.mem_steps labelledIn) coordinated).1
    have barrier : isCoordinationTool "barrier" = true := rfl
    simpa [tool, barrier] using quiet
  · rfl

section Tracks

/-- The labelled steps are in plan order. -/
theorem labelled_sorted (shared : SharedOut plan tracks labelled) :
    labelled.Pairwise fun one other => one.2.planIndex < other.2.planIndex := by
  have indices : (labelled.map fun item => item.2.planIndex) = List.range plan.steps.length := by
    have steps := congrArg (List.map Prod.snd) shared.steps
    rw [List.map_map] at steps
    simpa [Function.comp_def, zipIdx_map_snd, range_eq_range'] using steps
  have ordered : (labelled.map fun item => item.2.planIndex).Pairwise (· < ·) := by
    rw [indices]
    exact pairwise_lt_range
  rwa [pairwise_map] at ordered

/-- A plan step is a step of one track. -/
theorem labelled_index_injective (shared : SharedOut plan tracks labelled)
    {one other : String × TrackedStep} (first : one ∈ labelled) (second : other ∈ labelled)
    (same : one.2.planIndex = other.2.planIndex) : one = other := by
  have distinct : (labelled.map fun item => item.2.planIndex).Nodup :=
    pairwise_map.mpr ((labelled_sorted shared).imp fun less => Nat.ne_of_lt less)
  exact inj_on_of_nodup_map distinct first second same

/-- A track runs its steps in plan order. -/
theorem track_sorted (shared : SharedOut plan tracks labelled) (device : String) :
    ((get? tracks device).getD []).Pairwise fun one other => one.planIndex < other.planIndex := by
  cases found : get? tracks device with
  | none => exact List.Pairwise.nil
  | some track =>
    have same : track = _ := shared.track _ (mem_of_get? found)
    rw [Option.getD_some, same, pairwise_map]
    exact (labelled_sorted shared).filter _

/-- The steps of a track are the labelled steps of its device. -/
theorem mem_track (shared : SharedOut plan tracks labelled) {device : String}
    {tracked : TrackedStep} :
    tracked ∈ (get? tracks device).getD [] ↔ (device, tracked) ∈ labelled := by
  constructor
  · intro member
    cases found : get? tracks device with
    | none => simp [found] at member
    | some track =>
      have same : track = _ := shared.track _ (mem_of_get? found)
      rw [found, Option.getD_some, same] at member
      obtain ⟨item, selected, rfl⟩ := mem_map.mp member
      obtain ⟨inside, owner⟩ := mem_filter.mp selected
      have name : item.1 = device := by simpa using owner
      rw [← name]
      exact inside
  · intro inside
    obtain ⟨track, found⟩ := (mem_keys_iff _ _).mp (shared.known _ inside)
    have same : track = _ := shared.track _ (mem_of_get? found)
    rw [found, Option.getD_some, same]
    exact mem_map.mpr ⟨_, mem_filter.mpr ⟨inside, by simp⟩, rfl⟩

end Tracks

section Spans

variable {spans : List GenerationSpan}

/-- The spans are those of the locks. -/
theorem barrierSpans_spec {bucket : InsertionMap String (List Arrival)}
    (formed : barrierSpans false bucket = .ok spans) :
    (∀ entry ∈ bucket, ∃ own, spansForLock entry.1 entry.2 = .ok own ∧ own ⊆ spans) ∧
    ∀ span ∈ spans, ∃ entry ∈ bucket, ∃ own,
      spansForLock entry.1 entry.2 = .ok own ∧ span ∈ own := by
  induction bucket generalizing spans with
  | nil =>
    obtain rfl := Except.ok.inj formed
    exact ⟨fun entry member => (not_mem_nil member).elim, fun span member => (not_mem_nil member).elim⟩
  | cons entry rest ih =>
    unfold barrierSpans spansForLockOrSkip at formed
    cases first : spansForLock entry.1 entry.2 with
    | error message =>
      rw [first] at formed
      cases formed
    | ok own =>
      cases later : barrierSpans false rest with
      | error message =>
        rw [first, later] at formed
        cases formed
      | ok others =>
        rw [first, later] at formed
        obtain rfl : own ++ others = spans := Except.ok.inj formed
        obtain ⟨each, origin⟩ := ih later
        constructor
        · rw [forall_mem_cons]
          refine ⟨⟨own, first, subset_append_left _ _⟩, fun entry member => ?_⟩
          obtain ⟨mine, made, inside⟩ := each entry member
          exact ⟨mine, made, subset_append_of_subset_right _ inside⟩
        · intro span member
          rcases mem_append.mp member with here | there
          · exact ⟨entry, mem_cons_self, own, first, here⟩
          · obtain ⟨entry, known, made⟩ := origin span there
            exact ⟨entry, mem_cons_of_mem _ known, made⟩

/-- What the generations of a barrier plan are: every arrival is in one, and each has as many
devices as its lock asks for. -/
structure SpansOf (count : String → ℕ) (labelled : List (String × TrackedStep))
    (spans : List GenerationSpan) : Prop where
  covered : ∀ item ∈ labelled, ∀ lock, lockOf item.2 = some lock →
    ∃ span ∈ spans, arrivalOf item.2 ∈ span.arrivals
  made : ∀ span ∈ spans, ∀ arrival ∈ span.arrivals, ∃ item ∈ labelled,
    lockOf item.2 = some span.lock ∧ arrivalOf item.2 = arrival ∧ arrival.device = some item.1
  once : ∀ span ∈ spans, ∀ other ∈ spans, ∀ arrival ∈ span.arrivals, arrival ∈ other.arrivals →
    span = other
  size : ∀ span ∈ spans, span.arrivals.length = max 1 (count span.lock)
  devices : ∀ span ∈ spans, (span.arrivals.map (·.device)).Nodup
  bounds : ∀ span ∈ spans, ∀ arrival ∈ span.arrivals,
    span.firstIndex ≤ arrival.planIndex ∧ arrival.planIndex ≤ span.lastIndex

theorem bounds_spanForArrivals {lock : String} {arrivals : List Arrival} {arrival : Arrival}
    (member : arrival ∈ arrivals) :
    (spanForArrivals lock arrivals).firstIndex ≤ arrival.planIndex ∧
      arrival.planIndex ≤ (spanForArrivals lock arrivals).lastIndex := by
  have inside : arrival.planIndex ∈ arrivals.map (·.planIndex) := mem_map_of_mem member
  unfold spanForArrivals
  dsimp only
  constructor
  · cases least : (arrivals.map (·.planIndex)).min? with
    | none => exact Nat.zero_le _
    | some first => exact (min?_eq_some_iff.mp least).2 _ inside
  · cases greatest : (arrivals.map (·.planIndex)).max? with
    | none =>
      rw [max?_eq_none_iff] at greatest
      rw [greatest] at inside
      cases inside
    | some last => exact (max?_eq_some_iff.mp greatest).2 _ inside

theorem collectGenerationSpans_spansOf (shared : SharedOut plan tracks labelled)
    (barriers : BarrierOnly count plan) (collected : collectGenerationSpans plan = .ok spans) :
    SpansOf count labelled spans := by
  have formed : barrierSpans false (pushAll [] (lockArrivals plan (· == "barrier"))) = .ok spans := by
    unfold collectGenerationSpans at collected
    rw [lockArrivals_sections shared barriers] at collected
    cases barred : barrierSpans false (pushAll [] (lockArrivals plan (· == "barrier"))) with
    | error message =>
      rw [barred] at collected
      cases collected
    | ok own =>
      rw [barred] at collected
      have same : own ++ [] = spans := Except.ok.inj collected
      rw [← same, append_nil]
  -- a span, the arrivals at its lock, and how these are partitioned
  have origin : ∀ span ∈ spans, ∃ lock arrivals own,
      (lock, arrivals) ∈ pushAll [] (lockArrivals plan (· == "barrier")) ∧
      spansForLock lock arrivals = .ok own ∧ span ∈ own ∧
      Partitions (count lock) arrivals (own.map (·.arrivals)) ∧ 1 ≤ count lock ∧
      span = spanForArrivals lock span.arrivals := by
    intro span member
    obtain ⟨⟨lock, arrivals⟩, bucket, own, made, inside⟩ := (barrierSpans_spec formed).2 span member
    obtain ⟨known, positive, consistent⟩ := arrivals_known shared barriers bucket
    obtain ⟨partitions, shape⟩ := partitions_of_spans (fun arrival here => by
      obtain ⟨item, -, -, -, device⟩ := known arrival here
      rw [device]
      exact Option.some_ne_none _) consistent made
    exact ⟨lock, arrivals, own, bucket, made, inside, partitions, positive, shape span inside⟩
  have lock_eq : ∀ {span : GenerationSpan} {lock : String},
      span = spanForArrivals lock span.arrivals → span.lock = lock := by
    intro span lock shape
    rw [shape]
    rfl
  have made : ∀ span ∈ spans, ∀ arrival ∈ span.arrivals, ∃ item ∈ labelled,
      lockOf item.2 = some span.lock ∧ arrivalOf item.2 = arrival ∧ arrival.device = some item.1 := by
    intro span member arrival here
    obtain ⟨lock, arrivals, own, bucket, -, inside, partitions, -, shape⟩ := origin span member
    rw [lock_eq shape]
    exact (arrivals_known shared barriers bucket).1 arrival (partitions.whole.subset
      (mem_flatten.mpr ⟨_, mem_map_of_mem inside, here⟩))
  constructor
  case covered =>
    intro item member lock locked
    have pair : (lock, arrivalOf item.2) ∈ lockArrivals plan (· == "barrier") := by
      rw [lockArrivals_eq shared]
      refine mem_filterMap.mpr ⟨item, member, ?_⟩
      unfold lockOf at locked
      split at locked
      · rename_i coordinated
        have tool := (barriers _ (shared.mem_steps member) coordinated).1
        rw [coordinated, Bool.true_and, if_pos (by rw [tool]; rfl), locked]
        rfl
      · cases locked
    obtain ⟨arrivals, found⟩ := (mem_keys_iff _ _).mp
      (mem_keys_pushAll.mpr (Or.inr ⟨_, pair, rfl⟩) :
        lock ∈ keys (pushAll [] (lockArrivals plan (· == "barrier"))))
    have bucket := mem_of_get? found
    have here : arrivalOf item.2 ∈ arrivals := by
      rw [(arrivals_at_lock shared barriers bucket).1]
      exact mem_map_of_mem (mem_filter.mpr ⟨member, by simpa using locked⟩)
    obtain ⟨own, made, within⟩ := (barrierSpans_spec formed).1 _ bucket
    obtain ⟨known, -, consistent⟩ := arrivals_known shared barriers bucket
    obtain ⟨partitions, -⟩ := partitions_of_spans (fun arrival here => by
      obtain ⟨item, -, -, -, device⟩ := known arrival here
      rw [device]
      exact Option.some_ne_none _) consistent made
    obtain ⟨group, listed, inside⟩ := mem_flatten.mp (partitions.whole.symm.subset here)
    obtain ⟨span, mine, rfl⟩ := mem_map.mp listed
    exact ⟨span, within mine, inside⟩
  case made => exact made
  case once =>
    intro span first other second arrival here there
    obtain ⟨lock, arrivals, own, bucket, formed', inside, partitions, -, shape⟩ := origin span first
    obtain ⟨lock', arrivals', own', bucket', formed'', inside', -, -, shape'⟩ := origin other second
    -- the arrival is one step, so both spans are of its lock
    obtain ⟨item, member, locked, same, -⟩ := made span first arrival here
    obtain ⟨item', member', locked', same', -⟩ := made other second arrival there
    obtain rfl : item = item' := labelled_index_injective shared member member'
      (congrArg Arrival.planIndex (same.trans same'.symm))
    rw [lock_eq shape] at locked
    rw [lock_eq shape'] at locked'
    obtain rfl := Option.some.inj (locked.symm.trans locked')
    obtain rfl := ((arrivals_at_lock shared barriers bucket).1).trans
      ((arrivals_at_lock shared barriers bucket').1).symm
    obtain rfl := Except.ok.inj (formed'.symm.trans formed'')
    have distinct : arrivals.Nodup := by
      rw [(arrivals_at_lock shared barriers bucket).1]
      refine Nodup.map_on (fun one inOne other inOther equal => ?_)
        (((labelled_sorted shared).imp fun less same => ?_).filter _)
      · exact labelled_index_injective shared (mem_filter.mp inOne).1 (mem_filter.mp inOther).1
          (congrArg Arrival.planIndex equal)
      · exact absurd (congrArg (fun item => item.2.planIndex) same) (Nat.ne_of_lt less)
    have apart := (nodup_flatten.mp (partitions.whole.symm.nodup distinct)).2
    rw [pairwise_map] at apart
    have symmetric : Std.Symm fun one other : GenerationSpan =>
        List.Disjoint one.arrivals other.arrivals := ⟨fun _ _ disjoint => disjoint.symm⟩
    by_contra different
    exact apart.forall inside inside' different here there
  case size =>
    intro span member
    obtain ⟨lock, arrivals, own, -, -, inside, partitions, positive, shape⟩ := origin span member
    rw [lock_eq shape, Nat.max_eq_right positive]
    exact partitions.size _ (mem_map_of_mem inside)
  case devices =>
    intro span member
    obtain ⟨lock, arrivals, own, -, -, inside, partitions, -, -⟩ := origin span member
    exact partitions.devices _ (mem_map_of_mem inside)
  case bounds =>
    intro span member arrival here
    obtain ⟨lock, -, -, -, -, -, -, -, shape⟩ := origin span member
    rw [shape]
    exact bounds_spanForArrivals here

/-- The generation of a step. -/
def spanOf (spans : List GenerationSpan) (tracked : TrackedStep) : Option GenerationSpan :=
  spans.find? fun span => arrivalOf tracked ∈ span.arrivals

/-- The generations that a device is in when the plan is resumed. -/
def generationsAhead (spans : List GenerationSpan) (tracks : InsertionMap String (List TrackedStep))
    (startStep : Int) (device : String) : List GenerationSpan :=
  (remainingSteps startStep ((get? tracks device).getD [])).filterMap (spanOf spans)

/-- From a step on some device is in the one generation before it is in the other. -/
def Precedes (spans : List GenerationSpan) (first : Nat) (one other : GenerationSpan) : Prop :=
  one ∈ spans ∧ other ∈ spans ∧ ∃ early ∈ one.arrivals, ∃ late ∈ other.arrivals,
    early.device = late.device ∧ first ≤ early.planIndex ∧ early.planIndex < late.planIndex

instance (spans : List GenerationSpan) (first : Nat) : DecidableRel (Precedes spans first) :=
  fun one other => by unfold Precedes; infer_instance

/-- No circle of generations waits for itself from a step on. -/
def NoCircle (spans : List GenerationSpan) (first : Nat) : Prop :=
  ∀ span, ¬ TransGen (Precedes spans first) span span

section Ahead

variable (spansOf : SpansOf count labelled spans) (shared : SharedOut plan tracks labelled)
include spansOf

theorem spanOf_eq_some {tracked : TrackedStep} {span : GenerationSpan} :
    spanOf spans tracked = some span ↔ span ∈ spans ∧ arrivalOf tracked ∈ span.arrivals := by
  constructor
  · intro found
    exact ⟨mem_of_find?_eq_some found, by simpa using find?_some found⟩
  · rintro ⟨member, here⟩
    cases found : spanOf spans tracked with
    | none => exact absurd here (by simpa using find?_eq_none.mp found span member)
    | some other =>
      have there : arrivalOf tracked ∈ other.arrivals := by simpa using find?_some found
      rw [spansOf.once span member other (mem_of_find?_eq_some found) _ here there]

include shared

/-- The lock of a step is the lock of its generation. -/
theorem lockOf_eq_spanOf {item : String × TrackedStep} (member : item ∈ labelled) :
    lockOf item.2 = (spanOf spans item.2).map (·.lock) := by
  have known : ∀ span ∈ spans, arrivalOf item.2 ∈ span.arrivals → lockOf item.2 = some span.lock := by
    intro span inside here
    obtain ⟨other, there, locked, same, -⟩ := spansOf.made span inside _ here
    obtain rfl := labelled_index_injective shared there member (congrArg Arrival.planIndex same)
    exact locked
  cases found : spanOf spans item.2 with
  | some span =>
    obtain ⟨inside, here⟩ := (spanOf_eq_some spansOf).mp found
    exact known span inside here
  | none =>
    cases locked : lockOf item.2 with
    | none => rfl
    | some lock =>
      obtain ⟨span, inside, here⟩ := spansOf.covered item member lock locked
      rw [(spanOf_eq_some spansOf).mpr ⟨inside, here⟩] at found
      cases found

theorem mem_generationsAhead {device : String} {span : GenerationSpan} :
    span ∈ generationsAhead spans tracks startStep device ↔ span ∈ spans ∧
      ∃ arrival ∈ span.arrivals, arrival.device = some device ∧ startStep ≤ arrival.planIndex := by
  unfold generationsAhead
  rw [mem_filterMap]
  constructor
  · rintro ⟨tracked, remaining, found⟩
    obtain ⟨inTrack, late⟩ := mem_filter.mp remaining
    obtain ⟨inside, here⟩ := (spanOf_eq_some spansOf).mp found
    have labelledIn := (mem_track shared).mp inTrack
    have remains : ¬ (tracked.planIndex : Int) < startStep := by simpa using late
    exact ⟨inside, _, here, readDevice_of_trackDevice (shared.device _ labelledIn), not_lt.mp remains⟩
  · rintro ⟨inside, arrival, here, device, late⟩
    obtain ⟨item, labelledIn, -, rfl, named⟩ := spansOf.made span inside arrival here
    obtain rfl := Option.some.inj (named.symm.trans device)
    have remains : ¬ (item.2.planIndex : Int) < startStep := not_lt.mpr late
    exact ⟨item.2, mem_filter.mpr ⟨(mem_track shared).mpr labelledIn, by simpa using remains⟩,
      (spanOf_eq_some spansOf).mpr ⟨inside, here⟩⟩

/-- A device goes through its generations in the order of the plan. -/
theorem generationsAhead_pairwise (first : Nat) (device : String) :
    (generationsAhead spans tracks first device).Pairwise (Precedes spans first) := by
  unfold generationsAhead
  have sorted := List.Pairwise.and_mem.mp ((track_sorted shared device).filter
    fun tracked => ¬ (tracked.planIndex : Int) < first)
  refine List.Pairwise.filterMap _ (fun one other both early found late found' => ?_) sorted
  obtain ⟨inOne, inOther, less⟩ := both
  obtain ⟨inTrack, remains⟩ := mem_filter.mp inOne
  obtain ⟨inTrack', -⟩ := mem_filter.mp inOther
  obtain ⟨inside, here⟩ := (spanOf_eq_some spansOf).mp found
  obtain ⟨inside', there⟩ := (spanOf_eq_some spansOf).mp found'
  have name := readDevice_of_trackDevice (shared.device _ ((mem_track shared).mp inTrack))
  have name' := readDevice_of_trackDevice (shared.device _ ((mem_track shared).mp inTrack'))
  have from' : ¬ (one.planIndex : Int) < first := by simpa using remains
  have start : first ≤ one.planIndex := by omega
  exact ⟨inside, inside', _, here, _, there, name.trans name'.symm, start, less⟩

/-- Resumed where no generation is split, the tracks meet in the generations that are left. -/
theorem grouped_generationsAhead {first : Nat} (clean : ¬ Straddled spans first)
    (noCircle : NoCircle spans first) {ι : Type} [Fintype ι] {device : ι → String}
    (injective : Function.Injective device)
    (listed : ∀ name ∈ keys tracks, ∃ index, device index = name) :
    Grouped count (·.lock) fun index => generationsAhead spans tracks first (device index) := by
  constructor
  · intro index span member
    obtain ⟨inside, arrival, here, -, late⟩ := (mem_generationsAhead spansOf shared).mp member
    -- no arrival of the generation was made before
    have after : ∀ other ∈ span.arrivals, (first : Int) ≤ other.planIndex := by
      intro other there
      by_contra early
      have low := (spansOf.bounds span inside other there).1
      have high := (spansOf.bounds span inside arrival here).2
      exact clean ⟨span, inside, by omega, by omega⟩
    have image : (Finset.univ.filter fun other =>
        span ∈ generationsAhead spans tracks first (device other)).image (some ∘ device) =
          (span.arrivals.map (·.device)).toFinset := by
      ext name
      rw [Finset.mem_image, mem_toFinset, mem_map]
      constructor
      · rintro ⟨other, there, rfl⟩
        obtain ⟨-, arrival, here, named, -⟩ :=
          (mem_generationsAhead spansOf shared).mp (Finset.mem_filter.mp there).2
        exact ⟨arrival, here, named⟩
      · rintro ⟨arrival, here, rfl⟩
        obtain ⟨item, labelledIn, -, -, named⟩ := spansOf.made span inside arrival here
        obtain ⟨other, same⟩ := listed item.1 (shared.known item labelledIn)
        refine ⟨other, Finset.mem_filter.mpr ⟨Finset.mem_univ other, ?_⟩, ?_⟩
        · exact (mem_generationsAhead spansOf shared).mpr
            ⟨inside, arrival, here, by rw [named, same], after arrival here⟩
        · rw [named, ← same]
          rfl
    rw [← Finset.card_image_of_injective _ ((Option.some_injective String).comp injective), image,
      toFinset_card_of_nodup (spansOf.devices span inside), length_map, spansOf.size span inside]
  · intro span circle
    refine noCircle span (TransGen.mono (fun one other before => ?_) _ _ circle)
    obtain ⟨index, order⟩ := before
    exact pairwise_pair.mp ((generationsAhead_pairwise spansOf shared first (device index)).sublist
      order)

end Ahead

/-- A plan whose generations wait in no circle can complete from any step that splits none. -/
theorem completes_of_noCircle (partitioned : partition plan = .ok tracks)
    (barriers : BarrierOnly count plan) (collected : collectGenerationSpans plan = .ok spans)
    {first : Nat} (clean : ¬ Straddled spans first) (noCircle : NoCircle spans first) :
    Completes count (resumedTracks tracks first) := by
  obtain ⟨labelled, shared⟩ := partition_sharedOut partitioned
  have spansOf := collectGenerationSpans_spansOf shared barriers collected
  have distinct := partition_nodup_keys partitioned
  have names : (resumedTracks tracks first).map (·.device) = keys tracks := by
    simp [resumedTracks, keys, Function.comp_def]
  have injective : Function.Injective fun index : Fin (resumedTracks tracks first).length =>
      (resumedTracks tracks first)[index].device := by
    intro one other same
    rw [← names] at distinct
    have bound : ∀ index : Fin (resumedTracks tracks first).length,
        (index : Nat) < ((resumedTracks tracks first).map (·.device)).length := by simp
    exact Fin.ext ((@List.Nodup.getElem_inj_iff _ _ distinct _ (bound one) _ (bound other)).mp
      (by simpa using same))
  have listed : ∀ name ∈ keys tracks, ∃ index : Fin (resumedTracks tracks first).length,
      (resumedTracks tracks first)[index].device = name := by
    intro name known
    rw [← names] at known
    obtain ⟨index, bound, same⟩ := getElem_of_mem known
    rw [length_map] at bound
    exact ⟨⟨index, bound⟩, by simpa using same⟩
  have grouped := grouped_generationsAhead spansOf shared clean noCircle injective listed
  have programs : (fun index : Fin (resumedTracks tracks first).length =>
      lockProgram (resumedTracks tracks first)[index]) = fun index =>
        (generationsAhead spans tracks first (resumedTracks tracks first)[index].device).map
          (·.lock) := by
    funext index
    obtain ⟨entry, member, same⟩ := mem_map.mp (getElem_mem index.isLt)
    have here : (resumedTracks tracks first)[index] = _ := same.symm
    rw [here, lockProgram_resumed shared barriers first member, generationsAhead, map_filterMap,
      get?_of_mem distinct member, Option.getD_some]
    refine filterMap_congr fun tracked remaining => ?_
    have inTrack := (mem_filter.mp remaining).1
    rw [shared.track entry member] at inTrack
    obtain ⟨item, selected, rfl⟩ := mem_map.mp inTrack
    exact lockOf_eq_spanOf spansOf shared (mem_filter.mp selected).1
  unfold Completes
  rw [programs]
  exact grouped.finishes

end Spans

end Locks

end AutoMobile.BarrierResume
