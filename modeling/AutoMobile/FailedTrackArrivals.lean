import AutoMobile.BarrierMeetings
import AutoMobile.BarrierResumeSoundness

/- Which arrivals of the other tracks are given up when a track has failed. -/
namespace AutoMobile.BarrierResume

open List hiding keys
open BarrierArrivals BarrierRounds InsertionMap Plans
open CoordinationSchedule
open Relation (ReflTransGen)

/-- A surviving track's coordination step that can no longer be satisfied. -/
structure BlockedArrival where
  planIndex : Nat
  device : String
  lock : String
  tool : String
deriving DecidableEq, Repr

/-- Locks that cannot be recovered are skipped, so that there are always spans. -/
def recoverableSpans (plan : Plan) : List GenerationSpan :=
  match collectGenerationSpans plan true with
  | .ok spans => spans
  | .error _ => []

/-- The span holds an arrival that the failed track does not make any more. -/
def holdsLostArrival (failedDevice : String) (failedStepIndex : Int) (span : GenerationSpan) : Bool :=
  span.arrivals.any fun arrival =>
    arrival.device = some failedDevice ∧ failedStepIndex < arrival.planIndex

def blockedArrivals (failedDevice : String) (span : GenerationSpan) : List BlockedArrival :=
  span.arrivals.flatMap fun arrival =>
    match arrival.device with
    | some device =>
      if device ≠ failedDevice then [⟨arrival.planIndex, device, span.lock, arrival.tool⟩] else []
    | none => []

def findArrivalsBlockedByFailedTrack (plan : Plan) (failedDevice : String) (failedStepIndex : Int) :
    List BlockedArrival :=
  if failedStepIndex < 0 then []
  else
    ((recoverableSpans plan).filter (holdsLostArrival failedDevice failedStepIndex)).flatMap
      (blockedArrivals failedDevice)

/-- The tracks as they still run: the failed one makes no arrival after its failed step. -/
def tracksAfterFailure (failedDevice : String) (failedStepIndex : Int)
    (tracks : InsertionMap String (List TrackedStep)) : InsertionMap String (List TrackedStep) :=
  tracks.map fun entry =>
    (entry.1, if entry.1 = failedDevice then
      entry.2.filter fun tracked => (tracked.planIndex : Int) ≤ failedStepIndex else entry.2)

/-- The arrivals of a device's track, with their locks. -/
def visitsOf (tracks : InsertionMap String (List TrackedStep)) (device : String) :
    List (String × TrackedStep) :=
  ((get? tracks device).getD []).filterMap fun tracked =>
    (lockOf tracked).map fun lock => (lock, tracked)

def locksOf (tracks : InsertionMap String (List TrackedStep)) (device : String) : List String :=
  (visitsOf tracks device).map Prod.fst

/-- The arrivals of a device that were let pass so far. -/
def releasedVisits (tracks : InsertionMap String (List TrackedStep)) (standing : Standing String String)
    (device : String) : List (String × TrackedStep) :=
  (visitsOf tracks device).take ((visitsOf tracks device).length - (standing.ahead device).length)

/-- Some order of arrivals of the tracks releases the arrival of a plan step. -/
def CanBeReleased (count : String → ℕ) (tracks : InsertionMap String (List TrackedStep))
    (device : String) (planIndex : Nat) : Prop :=
  ∃ standing, ReflTransGen (Arrives count) (Standing.start (locksOf tracks)) standing ∧
    ∃ visit ∈ releasedVisits tracks standing device, visit.2.planIndex = planIndex

/-- No arrival that is given up could have been released. -/
def BlocksSoundly (count : String → ℕ) (plan : Plan) (tracks : InsertionMap String (List TrackedStep))
    (failedDevice : String) (failedStepIndex : Int) : Prop :=
  ∀ blocked ∈ findArrivalsBlockedByFailedTrack plan failedDevice failedStepIndex,
    ¬ CanBeReleased count (tracksAfterFailure failedDevice failedStepIndex tracks) blocked.device
      blocked.planIndex

/-- Which of its arrivals at the lock a device makes at a plan step, counted from one. -/
def ordinal (tracks : InsertionMap String (List TrackedStep)) (device lock : String)
    (planIndex : Nat) : Nat :=
  (visitsOf tracks device).countP fun visit => visit.1 = lock ∧ visit.2.planIndex ≤ planIndex

/-- How often a device is at a lock before it is past its first stuck arrival. -/
def visitsUpTo (tracks : InsertionMap String (List TrackedStep)) (stuck : Finset ℕ)
    (device lock : String) : Nat :=
  (visitsOf tracks device).countP fun visit => visit.1 = lock ∧
    ∀ other ∈ visitsOf tracks device, other.2.planIndex ∈ stuck →
      visit.2.planIndex ≤ other.2.planIndex

/-- The other devices arrive too seldom to fill that many groups around a device. -/
def TooFew (count : String → ℕ) (tracks : InsertionMap String (List TrackedStep))
    (stuck : Finset ℕ) (device lock : String) (groups : Nat) : Prop :=
  ∑ other ∈ (keys tracks).toFinset.erase device, min (visitsUpTo tracks stuck other lock) groups <
    groups * (count lock - 1)

instance (count : String → ℕ) (tracks : InsertionMap String (List TrackedStep)) (stuck : Finset ℕ)
    (device lock : String) (groups : Nat) :
    Decidable (TooFew count tracks stuck device lock groups) := by
  unfold TooFew
  infer_instance

/-- Arrivals that hold each other up: to fill the groups up to one of them, the other devices
are too few as long as each is held at its own first one. -/
def KeepsStuck (count : String → ℕ) (tracks : InsertionMap String (List TrackedStep))
    (stuck : Finset ℕ) : Prop :=
  ∀ device ∈ keys tracks, ∀ visit ∈ visitsOf tracks device, visit.2.planIndex ∈ stuck →
    TooFew count tracks stuck device visit.1 (ordinal tracks device visit.1 visit.2.planIndex)

instance (count : String → ℕ) (tracks : InsertionMap String (List TrackedStep)) (stuck : Finset ℕ) :
    Decidable (KeepsStuck count tracks stuck) := by
  unfold KeepsStuck
  infer_instance

/-- Every arrival that shares a generation with a lost one is among arrivals that hold each
other up. -/
def LostAreNeeded (count : String → ℕ) (plan : Plan)
    (tracks : InsertionMap String (List TrackedStep)) (failedDevice : String)
    (failedStepIndex : Int) : Prop :=
  ∃ stuck : Finset ℕ,
    KeepsStuck count (tracksAfterFailure failedDevice failedStepIndex tracks) stuck ∧
    ∀ span ∈ recoverableSpans plan, holdsLostArrival failedDevice failedStepIndex span = true →
      ∀ blocked ∈ blockedArrivals failedDevice span, blocked.planIndex ∈ stuck

section Spans

/-- What a lock's generations hold are its arrivals. -/
theorem mem_formGenerations {lock : String} {size : Nat}
    {tracks : InsertionMap String (List Arrival)} {rounds : Nat} {consumed : InsertionMap String Nat}
    {spans : List GenerationSpan} (formed : formGenerations lock size tracks rounds consumed = .ok spans)
    {span : GenerationSpan} (member : span ∈ spans) :
    span.lock = lock ∧ ∀ arrival ∈ span.arrivals, ∃ entry ∈ tracks, arrival ∈ entry.2 := by
  induction rounds generalizing consumed spans with
  | zero =>
    obtain rfl := Except.ok.inj formed
    cases member
  | succ rounds ih =>
    unfold formGenerations at formed
    dsimp only at formed
    split at formed
    · cases formed
    · cases later : formGenerations lock size tracks rounds (consume consumed
          (((nextArrivals tracks consumed).insertionSort before).take size)) with
      | error message =>
        rw [later] at formed
        cases formed
      | ok rest =>
        rw [later] at formed
        obtain rfl := Except.ok.inj formed
        rcases mem_cons.mp member with rfl | member
        · refine ⟨rfl, fun arrival inside => ?_⟩
          obtain ⟨candidate, chosen, rfl⟩ := mem_map.mp inside
          have sorted := mem_of_mem_take chosen
          have known : candidate ∈ nextArrivals tracks consumed :=
            (perm_insertionSort before _).mem_iff.mp sorted
          obtain ⟨entry, there, found⟩ := mem_filterMap.mp known
          obtain ⟨arrival, next, rfl⟩ := Option.map_eq_some_iff.mp found
          exact ⟨entry, there, mem_of_getElem? next⟩
        · exact ih later member

theorem mem_deviceTracks {arrivals : List Arrival} {tracks : InsertionMap String (List Arrival)}
    (grouped : deviceTracks arrivals = some tracks) {entry : String × List Arrival}
    (member : entry ∈ tracks) : ∀ arrival ∈ entry.2, arrival ∈ arrivals := by
  have known : ∀ arrival ∈ arrivals, arrival.device = some (arrival.device.getD "") := by
    clear member
    unfold deviceTracks at grouped
    generalize ([] : InsertionMap String (List Arrival)) = before at grouped
    induction arrivals generalizing before with
    | nil => simp
    | cons first rest ih =>
      rw [foldlM_cons] at grouped
      cases here : first.device with
      | none =>
        rw [here] at grouped
        cases grouped
      | some device =>
        rw [here] at grouped
        have later := ih _ grouped
        exact forall_mem_cons.mpr ⟨by rw [here]; rfl, later⟩
  have same := deviceTracks_eq known
  rw [grouped] at same
  obtain rfl := Option.some.inj same
  intro arrival inside
  rw [(mem_pushAll_nil member).1] at inside
  obtain ⟨pair, selected, rfl⟩ := mem_map.mp inside
  obtain ⟨original, there, rfl⟩ := mem_map.mp (mem_filter.mp selected).1
  exact there

theorem mem_spansForLock {lock : String} {arrivals : List Arrival} {spans : List GenerationSpan}
    (formed : spansForLock lock arrivals = .ok spans) {span : GenerationSpan} (member : span ∈ spans) :
    span.lock = lock ∧ ∀ arrival ∈ span.arrivals, arrival ∈ arrivals := by
  unfold spansForLock at formed
  split at formed
  · obtain rfl := Except.ok.inj formed
    cases member
  · dsimp only at formed
    split at formed
    · obtain rfl := Except.ok.inj formed
      obtain ⟨arrival, there, rfl⟩ := mem_map.mp member
      refine ⟨rfl, fun other inside => ?_⟩
      rw [mem_singleton.mp inside]
      exact there
    · cases formed
    · cases formed
    · rename_i tracked
      split at formed
      · cases formed
      · obtain ⟨same, inside⟩ := mem_formGenerations formed member
        refine ⟨same, fun arrival here => ?_⟩
        obtain ⟨entry, there, found⟩ := inside arrival here
        exact mem_deviceTracks tracked there arrival found

theorem mem_barrierSpans {bucket : InsertionMap String (List Arrival)} :
    ∃ spans, barrierSpans true bucket = .ok spans ∧ ∀ span ∈ spans, ∃ entry ∈ bucket,
      span.lock = entry.1 ∧ ∀ arrival ∈ span.arrivals, arrival ∈ entry.2 := by
  induction bucket with
  | nil => exact ⟨[], rfl, fun span member => by cases member⟩
  | cons entry rest ih =>
    obtain ⟨later, formed, known⟩ := ih
    have tail : ∀ span ∈ later, ∃ other ∈ entry :: rest, span.lock = other.1 ∧
        ∀ arrival ∈ span.arrivals, arrival ∈ other.2 := fun span member => by
      obtain ⟨other, there, same⟩ := known span member
      exact ⟨other, mem_cons_of_mem _ there, same⟩
    unfold barrierSpans spansForLockOrSkip
    cases first : spansForLock entry.1 entry.2 with
    | error message => exact ⟨later, by simp [formed]; rfl, tail⟩
    | ok spans =>
      refine ⟨spans ++ later, by simp [formed]; rfl, fun span member => ?_⟩
      rcases mem_append.mp member with here | there
      · exact ⟨entry, mem_cons_self, mem_spansForLock first here⟩
      · exact tail span there

end Spans

section Tracks

variable {count : String → ℕ} {plan : Plan} {tracks : InsertionMap String (List TrackedStep)}
  {labelled : List (String × TrackedStep)}

/-- The arrivals of the generations are steps of the device tracks. -/
theorem mem_recoverableSpans (shared : SharedOut plan tracks labelled)
    (barriers : BarrierOnly count plan) {span : GenerationSpan} (member : span ∈ recoverableSpans plan)
    {arrival : Arrival} (inside : arrival ∈ span.arrivals) :
    ∃ item ∈ labelled, lockOf item.2 = some span.lock ∧ arrivalOf item.2 = arrival := by
  obtain ⟨spans, formed, known⟩ :=
    @mem_barrierSpans (pushAll [] (lockArrivals plan (· == "barrier")))
  have collected : recoverableSpans plan = spans := by
    unfold recoverableSpans collectGenerationSpans
    rw [formed, lockArrivals_sections shared barriers]
    simp [pushAll, bind, Except.bind]
  rw [collected] at member
  obtain ⟨entry, bucket, same, there⟩ := known span member
  have listed := there arrival inside
  rw [(arrivals_at_lock shared barriers bucket).1] at listed
  obtain ⟨item, selected, rfl⟩ := mem_map.mp listed
  obtain ⟨labelledIn, here⟩ := mem_filter.mp selected
  exact ⟨item, labelledIn, by simpa [same] using here, rfl⟩

theorem get?_track (shared : SharedOut plan tracks labelled) {item : String × TrackedStep}
    (member : item ∈ labelled) :
    ∃ track, get? tracks item.1 = some track ∧ item.2 ∈ track := by
  obtain ⟨track, found⟩ := (mem_keys_iff _ _).mp (shared.known item member)
  refine ⟨track, found, ?_⟩
  have same : track = _ := shared.track _ (mem_of_get? found)
  rw [same]
  exact mem_map.mpr ⟨item, mem_filter.mpr ⟨member, by simp⟩, rfl⟩

theorem visitsOf_sorted (shared : SharedOut plan tracks labelled) (device : String) :
    (visitsOf tracks device).Pairwise fun one other => one.2.planIndex < other.2.planIndex := by
  refine List.Pairwise.filterMap _ (fun one other less first here second there => ?_)
    (track_sorted shared device)
  obtain ⟨lock, -, rfl⟩ := Option.map_eq_some_iff.mp here
  obtain ⟨lock, -, rfl⟩ := Option.map_eq_some_iff.mp there
  exact less

theorem get?_tracksAfterFailure (failedDevice : String) (failedStepIndex : Int) (device : String) :
    get? (tracksAfterFailure failedDevice failedStepIndex tracks) device =
      (get? tracks device).map fun track =>
        if device = failedDevice then
          track.filter fun tracked => (tracked.planIndex : Int) ≤ failedStepIndex
        else track :=
  get?_mapValues tracks (fun device track => if device = failedDevice then
    track.filter fun tracked => (tracked.planIndex : Int) ≤ failedStepIndex else track) device

theorem mem_keys_of_locksOf {device : String} (some' : locksOf tracks device ≠ []) :
    device ∈ (keys tracks).toFinset := by
  rw [mem_toFinset, mem_keys_iff]
  cases found : get? tracks device with
  | some track => exact ⟨track, rfl⟩
  | none =>
    refine absurd ?_ some'
    simp [locksOf, visitsOf, found]

/-- In a sorted list the items up to one that was taken were taken. -/
theorem countP_take {items : List (String × TrackedStep)}
    (sorted : items.Pairwise fun one other => one.2.planIndex < other.2.planIndex) {size : Nat}
    {item : String × TrackedStep} (taken : item ∈ items.take size)
    {test : String × TrackedStep → Bool}
    (early : ∀ visit, test visit = true → visit.2.planIndex ≤ item.2.planIndex) :
    items.countP test = (items.take size).countP test := by
  have parts := take_append_drop size items
  rw [← parts, pairwise_append] at sorted
  have late : (items.drop size).countP test = 0 := by
    rw [countP_eq_zero]
    intro visit dropped passes
    exact absurd (early visit passes) (Nat.not_le.mpr (sorted.2.2 item taken visit dropped))
  conv_lhs => rw [← parts]
  rw [countP_append, late, Nat.add_zero]

/-- In a sorted list an item is among as many as there are up to it. -/
theorem mem_take_countP {items : List (String × TrackedStep)}
    (sorted : items.Pairwise fun one other => one.2.planIndex < other.2.planIndex)
    {item : String × TrackedStep} (member : item ∈ items) :
    item ∈ items.take (items.countP fun visit => visit.2.planIndex ≤ item.2.planIndex) := by
  obtain ⟨index, inside, rfl⟩ := getElem_of_mem member
  rw [mem_take_iff_getElem]
  refine ⟨index, ?_, rfl⟩
  rw [Nat.lt_min]
  refine ⟨?_, inside⟩
  have upTo : (items.take (index + 1)).countP
      (fun visit => visit.2.planIndex ≤ items[index].2.planIndex) = index + 1 := by
    have all : ∀ visit ∈ items.take (index + 1),
        decide (visit.2.planIndex ≤ items[index].2.planIndex) = true := by
      intro visit here
      obtain ⟨position, bound, rfl⟩ := mem_take_iff_getElem.mp here
      rw [Nat.lt_min] at bound
      rw [decide_eq_true_eq]
      rcases Nat.lt_or_eq_of_le (Nat.le_of_lt_succ bound.1) with earlier | same
      · exact Nat.le_of_lt (pairwise_iff_getElem.mp sorted position index bound.2 inside earlier)
      · subst same
        exact Nat.le_refl _
    rw [countP_eq_length.mpr all, length_take]
    omega
  have fewer : (items.take (index + 1)).countP
      (fun visit => visit.2.planIndex ≤ items[index].2.planIndex) ≤
        items.countP fun visit => visit.2.planIndex ≤ items[index].2.planIndex :=
    (take_sublist (index + 1) items).countP_le
  omega

/-- An arrival that is given up, and the step and the lock that it stands for. -/
theorem mem_blockedArrivals (shared : SharedOut plan tracks labelled)
    (barriers : BarrierOnly count plan) {span : GenerationSpan} (member : span ∈ recoverableSpans plan)
    {failedDevice : String} {blocked : BlockedArrival}
    (inside : blocked ∈ blockedArrivals failedDevice span) :
    blocked.device ≠ failedDevice ∧ ∃ item ∈ labelled, item.1 = blocked.device ∧
      item.2.planIndex = blocked.planIndex ∧ (span.lock, item.2) ∈ visitsOf tracks blocked.device := by
  obtain ⟨arrival, there, found⟩ := mem_flatMap.mp inside
  obtain ⟨item, labelledIn, here, rfl⟩ := mem_recoverableSpans shared barriers member there
  have device : (arrivalOf item.2).device = some item.1 :=
    readDevice_of_trackDevice (shared.device item labelledIn)
  rw [device] at found
  dsimp only at found
  split at found
  · rename_i survives
    obtain rfl := mem_singleton.mp found
    obtain ⟨track, known, inTrack⟩ := get?_track shared labelledIn
    refine ⟨survives, item, labelledIn, rfl, rfl, mem_filterMap.mpr ⟨item.2, ?_, ?_⟩⟩
    · rw [known]
      exact inTrack
    · rw [here]
      rfl
  · cases found

theorem mem_findArrivals {failedDevice : String} {failedStepIndex : Int} {blocked : BlockedArrival} :
    blocked ∈ findArrivalsBlockedByFailedTrack plan failedDevice failedStepIndex ↔
      0 ≤ failedStepIndex ∧ ∃ span ∈ recoverableSpans plan,
        holdsLostArrival failedDevice failedStepIndex span = true ∧
        blocked ∈ blockedArrivals failedDevice span := by
  unfold findArrivalsBlockedByFailedTrack
  split
  · rename_i early
    simp [not_le.mpr early]
  · rename_i known
    simp [not_lt.mp known, mem_flatMap, mem_filter, and_assoc]

section Stuck

variable {stuck : Finset ℕ} {standing : Standing String String}

/-- What is released and what is ahead are the locks of a track. -/
theorem releasedVisits_append {device : String}
    (behind : standing.ahead device <:+ locksOf tracks device) :
    (releasedVisits tracks standing device).map Prod.fst ++ standing.ahead device =
      locksOf tracks device := by
  obtain ⟨front, whole⟩ := behind
  have visits : (visitsOf tracks device).map Prod.fst = front ++ standing.ahead device := whole.symm
  have size : front.length =
      (visitsOf tracks device).length - (standing.ahead device).length := by
    have length := congrArg List.length visits
    rw [length_map, length_append] at length
    omega
  rw [releasedVisits, map_take, visits, ← size, take_left]
  exact whole

/-- What is released has passed its lock as often as it takes. -/
theorem ordinal_of_released {device lock : String}
    (sorted : (visitsOf tracks device).Pairwise
      fun one other => one.2.planIndex < other.2.planIndex)
    (behind : standing.ahead device <:+ locksOf tracks device) {visit : String × TrackedStep}
    (released : visit ∈ releasedVisits tracks standing device) :
    (standing.ahead device).count lock + ordinal tracks device lock visit.2.planIndex ≤
      (locksOf tracks device).count lock := by
  have counted : ordinal tracks device lock visit.2.planIndex ≤
      ((releasedVisits tracks standing device).map Prod.fst).count lock := by
    unfold ordinal
    unfold releasedVisits at released ⊢
    rw [countP_take sorted released fun other here => by
      simp only [decide_eq_true_eq] at here
      exact here.2]
    rw [List.count, countP_map]
    refine countP_mono_left fun other _ here => ?_
    simp only [decide_eq_true_eq] at here
    simp [here.1]
  rw [← releasedVisits_append behind, count_append]
  omega

/-- Tracks none of whose released arrivals lies behind a stuck one were at a lock no more
often than up to there. -/
theorem count_le_visitsUpTo {device : String} (lock : String)
    (behind : standing.ahead device <:+ locksOf tracks device)
    (early : ∀ visit ∈ releasedVisits tracks standing device, ∀ other ∈ visitsOf tracks device,
      other.2.planIndex ∈ stuck → visit.2.planIndex ≤ other.2.planIndex) :
    (locksOf tracks device).count lock ≤
      visitsUpTo tracks stuck device lock + (standing.ahead device).count lock := by
  rw [← releasedVisits_append behind, count_append]
  refine Nat.add_le_add_right ?_ _
  rw [List.count, countP_map]
  calc (releasedVisits tracks standing device).countP ((· == lock) ∘ Prod.fst)
      ≤ (releasedVisits tracks standing device).countP fun visit => visit.1 = lock ∧
          ∀ other ∈ visitsOf tracks device, other.2.planIndex ∈ stuck →
            visit.2.planIndex ≤ other.2.planIndex :=
        countP_mono_left fun visit inside here =>
          decide_eq_true ⟨by simpa using here, early visit inside⟩
    _ ≤ visitsUpTo tracks stuck device lock := (take_sublist _ _).countP_le

/-- An arrival takes a track past one of its arrivals at most. -/
theorem length_of_arrives {count : String → ℕ} {before after : Standing String String}
    (arrives : Arrives count before after) (device : String) :
    (before.ahead device).length ≤ (after.ahead device).length + 1 := by
  cases arrives with
  | blocks track lock free next few => exact Nat.le_succ _
  | passes track lock free next full =>
    unfold Standing.pass
    dsimp only
    split
    · rw [length_tail]
      omega
    · exact Nat.le_succ _

/-- What is released before the last arrival was released before. -/
theorem released_before {before after : Standing String String} {device : String}
    (sorted : (visitsOf tracks device).Pairwise
      fun one other => one.2.planIndex < other.2.planIndex)
    (step : (before.ahead device).length ≤ (after.ahead device).length + 1)
    {visit other : String × TrackedStep} (released : visit ∈ releasedVisits tracks after device)
    (member : other ∈ visitsOf tracks device) (earlier : other.2.planIndex < visit.2.planIndex) :
    other ∈ releasedVisits tracks before device := by
  unfold releasedVisits at released ⊢
  obtain ⟨index, bound, rfl⟩ := mem_take_iff_getElem.mp released
  obtain ⟨place, inside, rfl⟩ := getElem_of_mem member
  rw [Nat.lt_min] at bound
  have less : place < index := by
    by_contra late
    rcases Nat.lt_or_eq_of_le (not_lt.mp late) with after' | same
    · have later := pairwise_iff_getElem.mp sorted index place bound.2 inside after'
      omega
    · subst same
      exact absurd earlier (lt_irrefl _)
  exact mem_take_iff_getElem.mpr ⟨place, Nat.lt_min.mpr ⟨by omega, inside⟩, rfl⟩

/-- Arrivals that hold each other up are never released: the first to be released would
have met groups that the others, not past their own, cannot fill. -/
theorem KeepsStuck.unreleased (kept : KeepsStuck count tracks stuck)
    (sorted : ∀ device, (visitsOf tracks device).Pairwise
      fun one other => one.2.planIndex < other.2.planIndex)
    (positive : ∀ device, ∀ visit ∈ visitsOf tracks device, 1 ≤ count visit.1)
    (reached : ReflTransGen (Arrives count) (Standing.start (locksOf tracks)) standing) :
    ∀ device, ∀ visit ∈ releasedVisits tracks standing device, visit.2.planIndex ∉ stuck := by
  have known : ∀ device, locksOf tracks device ≠ [] → device ∈ (keys tracks).toFinset :=
    fun device => mem_keys_of_locksOf
  induction reached with
  | refl =>
    intro device visit released
    simp [releasedVisits, Standing.start, locksOf] at released
  | @tail before after path arrives ih =>
    intro device visit released inside
    have member : visit ∈ visitsOf tracks device := mem_of_mem_take released
    have listed : device ∈ (keys tracks).toFinset := known device fun none => by
      rw [locksOf, map_eq_nil_iff] at none
      rw [none] at member
      cases member
    have reached := path.tail arrives
    obtain ⟨-, joint, met⟩ := @met_of_reached _ _ _ _ count _ _ device visit.1 known _ reached
    have passed := @ordinal_of_released _ _ _ visit.1 (sorted device) (met.behind device) _ released
    have bound := meetings_bound known reached passed fun other =>
      @count_le_visitsUpTo _ stuck _ other visit.1 (met.behind other)
        fun one gone held there hold => by
          by_contra late
          exact ih other held (released_before (sorted other) (length_of_arrives arrives other) gone
            there (not_le.mp late)) hold
    rw [Nat.max_eq_right (positive device visit member)] at bound
    have few := kept device (mem_toFinset.mp listed) visit member inside
    unfold TooFew at few
    omega

end Stuck

/-- The arrivals that are left after the failure. -/
theorem visitsOf_sublist (failedDevice : String) (failedStepIndex : Int) (device : String) :
    visitsOf (tracksAfterFailure failedDevice failedStepIndex tracks) device <+
      visitsOf tracks device := by
  unfold visitsOf
  refine Sublist.filterMap _ ?_
  rw [get?_tracksAfterFailure]
  cases get? tracks device with
  | none => exact nil_sublist _
  | some track =>
    rw [Option.map_some, Option.getD_some, Option.getD_some]
    split
    · exact filter_sublist
    · exact Sublist.refl _

/-- Where the tracks meet at one lock only, an arrival is released if the others suffice. -/
theorem released_of_enough {device lock : String} {step : TrackedStep} {stuck : Finset ℕ}
    (sorted : (visitsOf tracks device).Pairwise
      fun one other => one.2.planIndex < other.2.planIndex)
    (positive : 1 ≤ count lock) (one : ∀ other, ∀ visit ∈ visitsOf tracks other, visit.1 = lock)
    (member : (lock, step) ∈ visitsOf tracks device)
    (enough : ¬ TooFew count tracks stuck device lock (ordinal tracks device lock step.planIndex)) :
    CanBeReleased count tracks device step.planIndex := by
  have own : ordinal tracks device lock step.planIndex ≤ (locksOf tracks device).count lock := by
    rw [locksOf, List.count, countP_map]
    refine countP_mono_left fun visit _ here => ?_
    simp only [decide_eq_true_eq] at here
    simp [here.1]
  have fewer : ∀ other, visitsUpTo tracks stuck other lock ≤ (locksOf tracks other).count lock := by
    intro other
    rw [locksOf, List.count, countP_map]
    refine countP_mono_left fun visit _ here => ?_
    simp only [decide_eq_true_eq] at here
    simp [here.1]
  unfold TooFew at enough
  rw [not_lt] at enough
  have total : ordinal tracks device lock step.planIndex * (count lock - 1) ≤
      ∑ other ∈ (keys tracks).toFinset.erase device, min ((locksOf tracks other).count lock)
        (ordinal tracks device lock step.planIndex) :=
    enough.trans (Finset.sum_le_sum fun other _ => Nat.le_min.mpr
      ⟨(Nat.min_le_left _ _).trans (fewer other), Nat.min_le_right _ _⟩)
  obtain ⟨next, path, length⟩ := @meetings_reached _ _ _ _ count _ (keys tracks).toFinset device lock
    (fun other here inside => by
      obtain ⟨visit, there, rfl⟩ := mem_map.mp inside
      exact one other visit there) _ own
    (by rwa [Nat.max_eq_right positive])
  refine ⟨Standing.start next, path, (lock, step), ?_, rfl⟩
  have all : ordinal tracks device lock step.planIndex =
      (visitsOf tracks device).countP fun visit => visit.2.planIndex ≤ step.planIndex := by
    refine countP_congr fun visit inside => ?_
    simp [one device visit inside]
  have taken := mem_take_countP sorted member
  rw [← all] at taken
  unfold releasedVisits
  have size : (visitsOf tracks device).length - (next device).length =
      ordinal tracks device lock step.planIndex := by
    rw [locksOf, length_map] at length
    omega
  have ahead : (Standing.start next).ahead device = next device := rfl
  rw [ahead, size]
  exact taken

theorem mem_visitsOf (shared : SharedOut plan tracks labelled) {device : String}
    {visit : String × TrackedStep} (member : visit ∈ visitsOf tracks device) :
    ∃ item ∈ labelled, item = (device, visit.2) ∧ lockOf item.2 = some visit.1 := by
  obtain ⟨tracked, inTrack, found⟩ := mem_filterMap.mp member
  obtain ⟨lock, here, rfl⟩ := Option.map_eq_some_iff.mp found
  cases known : get? tracks device with
  | none => simp [known] at inTrack
  | some track =>
    have same : track = _ := shared.track _ (mem_of_get? known)
    rw [known, Option.getD_some, same] at inTrack
    obtain ⟨item, selected, rfl⟩ := mem_map.mp inTrack
    obtain ⟨inside, owner⟩ := mem_filter.mp selected
    exact ⟨item, inside, Prod.ext (by simpa using owner) rfl, here⟩

/-- The tracks meet at one lock only. -/
def OneLock (plan : Plan) : Prop :=
  ∃ lock, ∀ step ∈ plan.steps, isCoordinationTool step.tool = true → readLock step = some lock

section

variable (shared : SharedOut plan tracks labelled) (barriers : BarrierOnly count plan)
include shared barriers

theorem count_visit_pos {device : String} {visit : String × TrackedStep}
    (member : visit ∈ visitsOf tracks device) : 1 ≤ count visit.1 := by
  obtain ⟨item, inside, -, here⟩ := mem_visitsOf shared member
  unfold lockOf at here
  split at here
  · rename_i coordinated
    obtain ⟨-, name, found, counted⟩ := barriers _ (shared.mem_steps inside) coordinated
    obtain rfl := Option.some.inj (found.symm.trans here)
    exact readDeviceCount_pos counted
  · cases here

theorem blocks_soundly_of_needed (failedDevice : String) (failedStepIndex : Int)
    (needed : 0 ≤ failedStepIndex → LostAreNeeded count plan tracks failedDevice failedStepIndex) :
    BlocksSoundly count plan tracks failedDevice failedStepIndex := by
  rintro blocked member ⟨standing, reached, visit, released, same⟩
  obtain ⟨known, span, there, lost, inside⟩ := mem_findArrivals.mp member
  obtain ⟨stuck, kept, all⟩ := needed known
  have sublist := @visitsOf_sublist tracks failedDevice failedStepIndex
  refine kept.unreleased (fun device => (visitsOf_sorted shared device).sublist (sublist device))
    (fun device visit inside => count_visit_pos shared barriers ((sublist device).subset inside))
    reached blocked.device visit released ?_
  rw [same]
  exact all span there lost blocked inside

theorem needed_of_oneLock (single : OneLock plan) {failedDevice : String} {failedStepIndex : Int}
    (sound : BlocksSoundly count plan tracks failedDevice failedStepIndex)
    (known : 0 ≤ failedStepIndex) :
    LostAreNeeded count plan tracks failedDevice failedStepIndex := by
  obtain ⟨lock, one⟩ := single
  have sublist := @visitsOf_sublist tracks failedDevice failedStepIndex
  have same : ∀ other, ∀ visit ∈ visitsOf tracks other, visit.1 = lock := by
    intro other visit member
    obtain ⟨source, from', -, here⟩ := mem_visitsOf shared member
    unfold lockOf at here
    split at here
    · rename_i coordinated
      exact Option.some.inj (here.symm.trans (one _ (shared.mem_steps from') coordinated))
    · cases here
  refine ⟨((findArrivalsBlockedByFailedTrack plan failedDevice failedStepIndex).map
    (·.planIndex)).toFinset, fun device _ visit left stuck => ?_,
    fun span there lost blocked inside => mem_toFinset.mpr (mem_map_of_mem
      (mem_findArrivals.mpr ⟨known, span, there, lost, inside⟩))⟩
  have member := (sublist device).subset left
  obtain ⟨blocked, given, index⟩ := mem_map.mp (mem_toFinset.mp stuck)
  obtain ⟨-, span, there, lost, inside⟩ := mem_findArrivals.mp given
  obtain ⟨-, item, labelledIn, owner, place, -⟩ := mem_blockedArrivals shared barriers there inside
  obtain ⟨source, from', named, -⟩ := mem_visitsOf shared member
  -- the stuck plan step is a step of this device
  have mine : blocked.device = device := by
    rw [← owner, labelled_index_injective shared labelledIn from' (by rw [place, index, named]), named]
  by_contra enough
  obtain ⟨here, step⟩ := visit
  obtain rfl : here = lock := same device _ member
  have released := released_of_enough ((visitsOf_sorted shared device).sublist (sublist device))
    (count_visit_pos shared barriers member)
    (fun other visit inside => same other visit ((sublist other).subset inside)) left enough
  refine sound blocked given ?_
  rw [mine, index]
  exact released

end

end Tracks

/-- The arrivals that are given up could not have been released if they are among arrivals
that hold each other up, and where the tracks meet at one lock only, exactly then. -/
theorem blocks_soundly_of_counts (count : String → ℕ) (plan : Plan)
    (tracks : InsertionMap String (List TrackedStep)) (partitioned : partition plan = .ok tracks)
    (barriers : BarrierOnly count plan) (failedDevice : String) (failedStepIndex : Int) :
    ((0 ≤ failedStepIndex → LostAreNeeded count plan tracks failedDevice failedStepIndex) →
      BlocksSoundly count plan tracks failedDevice failedStepIndex) ∧
    (OneLock plan → (BlocksSoundly count plan tracks failedDevice failedStepIndex ↔
      (0 ≤ failedStepIndex → LostAreNeeded count plan tracks failedDevice failedStepIndex))) := by
  obtain ⟨labelled, shared⟩ := partition_sharedOut partitioned
  have enough := blocks_soundly_of_needed shared barriers failedDevice failedStepIndex
  exact ⟨enough, fun one => ⟨needed_of_oneLock shared barriers one, enough⟩⟩

/-- A step that needs no other device. -/
def soloStep (device : String) : PlanStep where
  tool := "tapOn"
  params := [("device", .text device)]

/-- Two devices that meet once, one of which fails before. -/
def meetOncePlan : Plan where
  devices := ["A", "B"]
  steps := [soloStep "A", pairBarrier "B" "X", pairBarrier "A" "X"]

def meetOnceTracks : InsertionMap String (List TrackedStep) :=
  (partition meetOncePlan).toOption.getD []

theorem blocks_soundly_of_counts_meetOnce :
    findArrivalsBlockedByFailedTrack meetOncePlan "A" 0 = [⟨1, "B", "X", "barrier"⟩] ∧
      BlocksSoundly (fun _ => 2) meetOncePlan meetOnceTracks "A" 0 :=
  ⟨by decide +kernel,
    (blocks_soundly_of_counts (fun _ => 2) meetOncePlan meetOnceTracks (by decide +kernel)
      (barrierOnly_of_pairs (by decide +kernel)) "A" 0).1 fun _ => ⟨{1}, by decide +kernel⟩⟩

/-- Four devices that meet in two pairs, one of which fails before. -/
def crowdedPlan : Plan where
  devices := ["A", "B", "C", "D"]
  steps := [soloStep "A", pairBarrier "A" "X", pairBarrier "B" "X", pairBarrier "C" "X",
    pairBarrier "D" "X"]

def crowdedTracks : InsertionMap String (List TrackedStep) :=
  (partition crowdedPlan).toOption.getD []

/-- The arrival of `B` is given up with the one of `A`, although `C` can meet it. -/
theorem crowded_blocks_unsoundly :
    partition crowdedPlan = .ok crowdedTracks ∧ BarrierOnly (fun _ => 2) crowdedPlan ∧
      findArrivalsBlockedByFailedTrack crowdedPlan "A" 0 = [⟨2, "B", "X", "barrier"⟩] ∧
      ¬ BlocksSoundly (fun _ => 2) crowdedPlan crowdedTracks "A" 0 := by
  have given : findArrivalsBlockedByFailedTrack crowdedPlan "A" 0 = [⟨2, "B", "X", "barrier"⟩] := by
    decide +kernel
  refine ⟨by decide +kernel, barrierOnly_of_pairs (by decide +kernel), given, fun sound => ?_⟩
  refine sound ⟨2, "B", "X", "barrier"⟩ (by rw [given]; exact mem_singleton.mpr rfl) ?_
  have there : ∀ device ∈ ({"B", "C"} : Finset String),
      (locksOf (tracksAfterFailure "A" 0 crowdedTracks) device).head? = some "X" := by decide +kernel
  have passed := @gather_pass _ _ _ _ (fun _ => 2) (locksOf (tracksAfterFailure "A" 0 crowdedTracks))
    "X" {"B", "C"} there rfl
  exact ⟨_, passed, ("X", ⟨pairBarrier "B" "X", 2, 0⟩), by decide +kernel, rfl⟩

end AutoMobile.BarrierResume
