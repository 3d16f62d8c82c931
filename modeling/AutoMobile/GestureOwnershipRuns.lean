import AutoMobile.GestureOwnershipRecords

/- Every gesture that was acked is on record under its live socket, was ended, or
is cancelled once, as long as no two gestures of a socket share a key. -/
namespace AutoMobile.GestureOwnership

open List hiding keys
open InsertionMap

def startedIn (effects : List Effect) : List Stroke :=
  effects.filterMap fun
    | .started stroke => some stroke
    | _ => none

def endedIn (effects : List Effect) : List Stroke :=
  effects.filterMap fun
    | .ended stroke => some stroke
    | _ => none

def cancelledIn (effects : List Effect) : List Stroke :=
  effects.filterMap fun
    | .cancelled stroke => some stroke
    | _ => none

section Effects

variable (first second : List Effect) (strokes : List Stroke)

@[simp] theorem startedIn_append : startedIn (first ++ second) = startedIn first ++ startedIn second :=
  filterMap_append

@[simp] theorem endedIn_append : endedIn (first ++ second) = endedIn first ++ endedIn second :=
  filterMap_append

@[simp] theorem cancelledIn_append :
    cancelledIn (first ++ second) = cancelledIn first ++ cancelledIn second :=
  filterMap_append

@[simp] theorem startedIn_cancels : startedIn (strokes.map .cancelled) = [] := by
  simp [startedIn, filterMap_map]

@[simp] theorem endedIn_cancels : endedIn (strokes.map .cancelled) = [] := by
  simp [endedIn, filterMap_map]

@[simp] theorem cancelledIn_cancels : cancelledIn (strokes.map .cancelled) = strokes := by
  simp [cancelledIn, filterMap_map]

@[simp] theorem startedIn_ends : startedIn (strokes.map .ended) = [] := by
  simp [startedIn, filterMap_map]

@[simp] theorem endedIn_ends : endedIn (strokes.map .ended) = strokes := by
  simp [endedIn, filterMap_map]

@[simp] theorem cancelledIn_ends : cancelledIn (strokes.map .ended) = [] := by
  simp [cancelledIn, filterMap_map]

end Effects

/-- How many cancels of a stroke the loops of closed sockets have still to issue. -/
def outstanding (state : State) (stroke : Stroke) : Nat := state.closing.flatten.count stroke

/-- Every gesture that was acked as started is on record, was ended by its end ack,
or has been taken off to be cancelled, once. -/
def Accounted (state : State) (effects : List Effect) : Prop :=
  ∀ stroke, (startedIn effects).count stroke =
    recorded state.bySocket stroke + (endedIn effects).count stroke +
      ((cancelledIn effects).count stroke + outstanding state stroke)

/-- No record is in the way of another gesture: a start that is recorded finds its
key free, and a frame finds the very gesture it names under its key. -/
def Distinct (state : State) : Event → Prop
  | .startAcked socket targetDevice gestureId _ admissionStillHolds =>
    admissionStillHolds = true → socket ∈ state.clientSockets →
      ownedAt state.bySocket socket targetDevice.deviceId gestureId = none
  | .endAcked socket deviceId gestureId =>
    ∀ owned ∈ ownedAt state.bySocket socket deviceId gestureId,
      owned.targetDevice.deviceId = deviceId ∧ owned.gestureId = gestureId
  | .frameRefused socket deviceId gestureId currentHolder =>
    ∀ owned ∈ ownedAt state.bySocket socket deviceId gestureId,
      owned.holderSessionId ≠ currentHolder →
        owned.targetDevice.deviceId = deviceId ∧ owned.gestureId = gestureId
  | _ => True

/-- The gestures that an event is about. -/
def Names : Event → String → OwnedGesture → Prop
  | .endAcked socket deviceId gestureId, other, owned =>
    other = socket ∧ owned.targetDevice.deviceId = deviceId ∧ owned.gestureId = gestureId
  | .socketClosed socket, other, _ => other = socket
  | .holderReleased holder, _, owned => owned.holderSessionId = some holder
  | .holderLeft holder deviceId, _, owned =>
    owned.holderSessionId = some holder ∧ owned.targetDevice.deviceId = deviceId
  | .deviceAcquired deviceId, _, owned =>
    owned.holderSessionId = none ∧ owned.targetDevice.deviceId = deviceId
  | .frameRefused socket deviceId gestureId currentHolder, other, owned =>
    other = socket ∧ owned.targetDevice.deviceId = deviceId ∧ owned.gestureId = gestureId ∧
      owned.holderSessionId ≠ currentHolder
  | _, _, _ => False

/-- A cancel is due to an event: it is of a gesture on record that the event names,
of the start that was not recorded, or the next one of the loop that goes on. -/
def DueTo (state : State) (stroke : Stroke) (event : Event) : Prop :=
  (∃ entry ∈ gesturesOf state.bySocket stroke.socketSessionId,
    Names event stroke.socketSessionId entry.2 ∧ entry.2.stroke stroke.socketSessionId = stroke) ∨
  (∃ holder admissionStillHolds, event =
    .startAcked stroke.socketSessionId stroke.targetDevice stroke.gestureId holder
      admissionStillHolds ∧
    (admissionStillHolds = false ∨ stroke.socketSessionId ∉ state.clientSockets)) ∨
  ∃ loop strokes, event = .cancelSettled loop ∧ state.closing[loop]? = some strokes ∧
    strokes.head? = some stroke

/-- A step takes off the record, and cancels, only what it names. -/
structure Spares (state : State) (event : Event) : Prop where
  records : ∀ socket entry, entry ∈ gesturesOf state.bySocket socket →
    ¬ Names event socket entry.2 → entry ∈ gesturesOf (step state event).1.bySocket socket
  cancels : ∀ stroke ∈ cancelledIn (step state event).2, DueTo state stroke event

/-- Sockets and records went, none came or changed. -/
structure Shrunk (before after : BySocket) : Prop where
  sockets : (keys after).Sublist (keys before)
  gestures : ∀ socket, (gesturesOf after socket).Sublist (gesturesOf before socket)

theorem Shrunk.refl (bySocket : BySocket) : Shrunk bySocket bySocket :=
  ⟨List.Sublist.refl _, fun _ => List.Sublist.refl _⟩

theorem onEndAcked_shrunk (bySocket : BySocket) (socket deviceId gestureId : String) :
    Shrunk bySocket (onEndAcked bySocket socket deviceId gestureId) where
  sockets := keys_onEndAcked_sublist bySocket socket deviceId gestureId
  gestures other := by
    rw [gesturesOf_onEndAcked]
    split
    · exact filter_sublist
    · exact List.Sublist.refl _

theorem cancelAllFor_shrunk (bySocket : BySocket) (socket : String) :
    Shrunk bySocket (cancelAllFor bySocket socket).1 where
  sockets := filter_sublist.map _
  gestures other := by
    unfold cancelAllFor
    dsimp only
    rw [gesturesOf_erase]
    split
    · exact nil_sublist _
    · exact List.Sublist.refl _

theorem cancelAllMatching_shrunk (wanted : OwnedGesture → Bool) {bySocket : BySocket}
    (distinct : (keys bySocket).Nodup) :
    Shrunk bySocket (cancelAllMatching wanted bySocket).1 where
  sockets := keys_cancelAllMatching_sublist wanted bySocket
  gestures other := by
    rw [gesturesOf_cancelAllMatching wanted distinct]
    exact filter_sublist

theorem cancelIfDeviceChangedHands_shrunk (bySocket : BySocket)
    (socket deviceId gestureId : String) (currentHolder : Option String) :
    Shrunk bySocket
      (cancelIfDeviceChangedHands bySocket socket deviceId gestureId currentHolder).1 := by
  unfold cancelIfDeviceChangedHands
  split
  · exact Shrunk.refl _
  · split
    · exact Shrunk.refl _
    · exact onEndAcked_shrunk bySocket socket deviceId gestureId

variable {state : State} {event : Event}

theorem Kept.shrunk {after : State} (kept : Kept state)
    (shrunk : Shrunk state.bySocket after.bySocket)
    (live : ∀ socket ∈ keys after.bySocket, socket ∈ after.clientSockets) : Kept after where
  sockets := kept.sockets.sublist shrunk.sockets
  gestures socket := (kept.gestures socket).sublist ((shrunk.gestures socket).map _)
  labelled socket entry member := kept.labelled socket entry ((shrunk.gestures socket).subset member)
  live := live

theorem Kept.started (kept : Kept state) {socket : String} (targetDevice : BootedDevice)
    (gestureId : String) (holder : Option String) (live : socket ∈ state.clientSockets) :
    Kept { state with
      bySocket := put state.bySocket socket (put (gesturesOf state.bySocket socket)
        (key targetDevice.deviceId gestureId) ⟨targetDevice, gestureId, holder⟩) } where
  sockets := nodup_keys_put kept.sockets _ _
  gestures other := by
    rw [gesturesOf_put]
    split
    · exact nodup_keys_put (kept.gestures socket) _ _
    · exact kept.gestures other
  labelled other entry member := by
    rw [gesturesOf_put] at member
    split at member
    · rcases mem_put member with rfl | before
      · rfl
      · exact kept.labelled socket entry before
    · exact kept.labelled other entry member
  live other member := by
    rcases mem_keys_put.mp member with before | rfl
    · exact kept.live other before
    · exact live

theorem kept_step (kept : Kept state) (event : Event) : Kept (step state event).1 := by
  have shrunk : ∀ after : BySocket, Shrunk state.bySocket after →
      Kept { state with bySocket := after } := fun after less =>
    kept.shrunk less fun socket member => kept.live socket (less.sockets.subset member)
  cases event with
  | socketOpened socket =>
    exact kept.shrunk (Shrunk.refl _) fun other member => mem_cons_of_mem _ (kept.live other member)
  | startAcked socket targetDevice gestureId holder admissionStillHolds =>
    unfold step onStartAcked
    dsimp only
    split
    · exact kept
    · rename_i admitted
      have live : socket ∈ state.clientSockets := by
        by_contra gone
        simp [gone] at admitted
      exact kept.started targetDevice gestureId holder live
  | endAcked socket deviceId gestureId => exact shrunk _ (onEndAcked_shrunk _ _ _ _)
  | socketClosed socket =>
    refine kept.shrunk (cancelAllFor_shrunk state.bySocket socket) fun other member => ?_
    obtain ⟨entry, selected, rfl⟩ := mem_map.mp member
    obtain ⟨before, apart⟩ := mem_filter.mp selected
    exact mem_filter.mpr ⟨kept.live _ (mem_map_of_mem before), apart⟩
  | holderReleased holder => exact shrunk _ (cancelAllMatching_shrunk _ kept.sockets)
  | holderLeft holder deviceId => exact shrunk _ (cancelAllMatching_shrunk _ kept.sockets)
  | deviceAcquired deviceId => exact shrunk _ (cancelAllMatching_shrunk _ kept.sockets)
  | frameRefused socket deviceId gestureId currentHolder =>
    exact shrunk _ (cancelIfDeviceChangedHands_shrunk _ _ _ _ _)
  | cancelSettled loop => exact kept.shrunk (Shrunk.refl _) kept.live

/-- The next cancel of a loop moves from what is outstanding to what is issued. -/
theorem count_set_tail (closing : List (List Stroke)) (loop : Nat) (stroke : Stroke) :
    closing.flatten.count stroke =
      (closing.set loop (closing[loop]?.getD []).tail).flatten.count stroke +
        ((closing[loop]?.getD []).take 1).count stroke := by
  induction closing generalizing loop with
  | nil => simp
  | cons first later ih =>
    cases loop with
    | zero =>
      cases first with
      | nil => simp
      | cons next rest =>
        simp only [getElem?_cons_zero, Option.getD_some, tail_cons,
          set_cons_zero, flatten_cons, count_append, take_succ_cons,
          take_zero, count_cons, count_nil]
        omega
    | succ loop =>
      have rest := ih loop
      simp only [getElem?_cons_succ, set_cons_succ, flatten_cons, count_append]
      omega

/-- What is on record or outstanding, and starts, is after the step on record or
outstanding, or it ended or was cancelled. -/
def Balanced (state : State) (event : Event) : Prop :=
  ∀ stroke, recorded state.bySocket stroke + outstanding state stroke +
      (startedIn (step state event).2).count stroke =
    recorded (step state event).1.bySocket stroke + outstanding (step state event).1 stroke +
      (endedIn (step state event).2).count stroke + (cancelledIn (step state event).2).count stroke

theorem balanced_matching (kept : Kept state) (wanted : OwnedGesture → Bool) (event : Event)
    (lifts : step state event =
      ({ state with bySocket := (cancelAllMatching wanted state.bySocket).1 },
        (cancelAllMatching wanted state.bySocket).2.map .cancelled)) : Balanced state event := by
  intro stroke
  have parts := recorded_cancelAllMatching wanted kept.sockets stroke
  rw [lifts, startedIn_cancels, endedIn_cancels, cancelledIn_cancels]
  simp only [outstanding, count_nil]
  omega

theorem balanced_of_distinct (kept : Kept state) (distinct : Distinct state event) :
    Balanced state event := by
  cases event with
  | socketOpened socket => exact fun stroke => rfl
  | startAcked socket targetDevice gestureId holder admissionStillHolds =>
    intro stroke
    unfold step onStartAcked
    dsimp only
    split
    · rename_i refused
      simp [startedIn, endedIn, cancelledIn, outstanding, count_cons]
    · rename_i admitted
      have live : admissionStillHolds = true ∧ socket ∈ state.clientSockets := by
        simpa using admitted
      have one := recorded_put_of_fresh kept holder (distinct live.1 live.2) stroke
      have same : outstanding state stroke = state.closing.flatten.count stroke := rfl
      unfold gesturesOf at one
      simp only [startedIn, endedIn, cancelledIn, outstanding, map_nil, filterMap_cons,
        filterMap_nil, count_cons, count_nil, beq_iff_eq]
      omega
  | endAcked socket deviceId gestureId =>
    intro stroke
    unfold step
    dsimp only
    rw [startedIn_ends, endedIn_ends, cancelledIn_ends]
    unfold endedBy
    cases known : ownedAt state.bySocket socket deviceId gestureId with
    | none =>
      have same : recorded (onEndAcked state.bySocket socket deviceId gestureId) stroke =
          recorded state.bySocket stroke := by
        unfold recorded
        rw [onEndAcked_of_none known]
      rw [same]
      rfl
    | some owned =>
      have itself := distinct owned known
      have less := recorded_onEndAcked kept known stroke
      dsimp only
      rw [if_pos itself, count_singleton]
      simp only [outstanding, count_nil, beq_iff_eq]
      omega
  | socketClosed socket =>
    intro stroke
    unfold step
    dsimp only
    rw [startedIn_cancels, endedIn_cancels, cancelledIn_cancels]
    have parts := recorded_cancelAllFor state.bySocket socket stroke
    have halves : (cancelAllFor state.bySocket socket).2.count stroke =
        ((cancelAllFor state.bySocket socket).2.take 1).count stroke +
          (cancelAllFor state.bySocket socket).2.tail.count stroke := by
      rw [← drop_one, ← count_append, take_append_drop]
    simp only [outstanding, flatten_append, flatten_singleton, count_append, count_nil]
    omega
  | holderReleased holder => exact balanced_matching kept _ _ rfl
  | holderLeft holder deviceId => exact balanced_matching kept _ _ rfl
  | deviceAcquired deviceId => exact balanced_matching kept _ _ rfl
  | frameRefused socket deviceId gestureId currentHolder =>
    intro stroke
    unfold step
    dsimp only
    rw [startedIn_cancels, endedIn_cancels, cancelledIn_cancels]
    unfold cancelIfDeviceChangedHands
    cases known : ownedAt state.bySocket socket deviceId gestureId with
    | none => rfl
    | some owned =>
      dsimp only
      split
      · rfl
      · rename_i changed
        have itself := distinct owned known changed
        have less := recorded_onEndAcked kept known stroke
        have named : (⟨socket, owned.targetDevice, gestureId⟩ : Stroke) = owned.stroke socket := by
          rw [← itself.2]
          rfl
        rw [named, count_singleton]
        simp only [outstanding, count_nil, beq_iff_eq]
        omega
  | cancelSettled loop =>
    intro stroke
    unfold step
    dsimp only
    rw [startedIn_cancels, endedIn_cancels, cancelledIn_cancels]
    have moved := count_set_tail state.closing loop stroke
    simp only [outstanding, count_nil]
    omega

theorem accounted_step {past : List Effect} (balanced : Balanced state event)
    (accounted : Accounted state past) :
    Accounted (step state event).1 (past ++ (step state event).2) := by
  intro stroke
  have before := accounted stroke
  have now := balanced stroke
  rw [startedIn_append, endedIn_append, cancelledIn_append, count_append, count_append,
    count_append]
  omega

theorem spares_matching (kept : Kept state) (wanted : OwnedGesture → Bool)
    (lifts : step state event =
      ({ state with bySocket := (cancelAllMatching wanted state.bySocket).1 },
        (cancelAllMatching wanted state.bySocket).2.map .cancelled))
    (named : ∀ socket owned, Names event socket owned ↔ wanted owned = true) :
    Spares state event where
  records socket entry member unnamed := by
    rw [lifts]
    dsimp only
    rw [gesturesOf_cancelAllMatching wanted kept.sockets]
    rw [named] at unnamed
    exact mem_filter.mpr ⟨member, by simpa using unnamed⟩
  cancels stroke member := by
    rw [lifts, cancelledIn_cancels] at member
    obtain ⟨entry, before, passes, same⟩ := mem_cancelAllMatching wanted kept.sockets member
    exact Or.inl ⟨entry, before, (named _ _).mpr passes, same⟩

/-- The record of another gesture survives the removal of a key. -/
theorem mem_onEndAcked (kept : Kept state) {socket deviceId gestureId : String} {other : String}
    {entry : String × OwnedGesture} (member : entry ∈ gesturesOf state.bySocket other)
    (apart : ∀ owned, other = socket → ownedAt state.bySocket socket deviceId gestureId =
      some owned → entry.2 ≠ owned) :
    entry ∈ gesturesOf (onEndAcked state.bySocket socket deviceId gestureId) other := by
  rw [gesturesOf_onEndAcked]
  split
  · rename_i same
    subst same
    refine mem_filter.mpr ⟨member, decide_eq_true fun labelled => ?_⟩
    have found : ownedAt state.bySocket socket deviceId gestureId = some entry.2 := by
      rw [ownedAt_eq, ← labelled]
      exact get?_of_mem (kept.gestures socket) member
    exact apart entry.2 rfl found rfl
  · exact member

theorem spares_of_distinct (kept : Kept state) (distinct : Distinct state event) :
    Spares state event := by
  cases event with
  | socketOpened socket => exact ⟨fun _ _ member _ => member, fun stroke none => by cases none⟩
  | startAcked socket targetDevice gestureId holder admissionStillHolds =>
    unfold Distinct at distinct
    constructor
    · intro other entry member _
      unfold step onStartAcked
      dsimp only
      split
      · exact member
      · rename_i admitted
        have live : admissionStillHolds = true ∧ socket ∈ state.clientSockets := by
          simpa using admitted
        rw [gesturesOf_put]
        split
        · rename_i same
          subst same
          have free := distinct live.1 live.2
          rw [ownedAt_eq, get?_eq_none_iff] at free
          have appended := put_of_fresh free ⟨targetDevice, gestureId, holder⟩
          unfold gesturesOf at appended member
          rw [appended]
          exact mem_append_left _ member
        · exact member
    · intro stroke member
      unfold step onStartAcked at member
      dsimp only at member
      split at member
      · rename_i refused
        have only : stroke = ⟨socket, targetDevice, gestureId⟩ := by
          simpa [cancelledIn] using member
        subst only
        refine Or.inr (Or.inl ⟨holder, admissionStillHolds, rfl, ?_⟩)
        simpa using refused
      · simp [cancelledIn] at member
  | endAcked socket deviceId gestureId =>
    constructor
    · intro other entry member unnamed
      refine mem_onEndAcked kept member fun owned same known equal => unnamed ?_
      subst equal
      exact ⟨same, distinct _ known⟩
    · intro stroke member
      unfold step at member
      rw [cancelledIn_ends] at member
      cases member
  | socketClosed socket =>
    constructor
    · intro other entry member unnamed
      unfold step cancelAllFor
      dsimp only
      rw [gesturesOf_erase, if_neg fun same => unnamed same.symm]
      exact member
    · intro stroke member
      unfold step at member
      rw [cancelledIn_cancels] at member
      obtain ⟨entry, before, rfl⟩ := mem_map.mp (mem_of_mem_take member)
      exact Or.inl ⟨entry, before, rfl, rfl⟩
  | holderReleased holder => exact spares_matching kept _ rfl fun _ _ => by simp [Names, heldBy]
  | holderLeft holder deviceId =>
    exact spares_matching kept _ rfl fun _ _ => by simp [Names, heldByOn]
  | deviceAcquired deviceId => exact spares_matching kept _ rfl fun _ _ => by simp [Names, unheldOn]
  | frameRefused socket deviceId gestureId currentHolder =>
    unfold Distinct at distinct
    constructor
    · intro other entry member unnamed
      unfold step cancelIfDeviceChangedHands
      dsimp only
      split
      · exact member
      · rename_i owned known
        split
        · exact member
        · rename_i changed
          refine mem_onEndAcked kept member fun found same here equal => unnamed ?_
          obtain rfl : owned = found := Option.some.inj (known.symm.trans here)
          subst equal
          have itself := distinct _ known changed
          exact ⟨same, itself.1, itself.2, changed⟩
    · intro stroke member
      unfold step at member
      rw [cancelledIn_cancels] at member
      unfold cancelIfDeviceChangedHands at member
      split at member
      · cases member
      · rename_i owned known
        split at member
        · cases member
        · rename_i changed
          have itself := distinct _ known changed
          obtain rfl := mem_singleton.mp member
          rw [ownedAt_eq] at known
          refine Or.inl ⟨_, mem_of_get? known, ⟨rfl, itself.1, itself.2, changed⟩, ?_⟩
          rw [← itself.2]
          rfl
  | cancelSettled loop =>
    constructor
    · exact fun _ _ member _ => member
    · intro stroke member
      unfold step at member
      rw [cancelledIn_cancels] at member
      refine Or.inr (Or.inr ⟨loop, ?_⟩)
      cases running : state.closing[loop]? with
      | none => simp [running] at member
      | some strokes =>
        refine ⟨strokes, rfl, rfl, ?_⟩
        rw [running] at member
        cases strokes with
        | nil => cases member
        | cons next rest => simpa [eq_comm] using member

/-- A step leaves a loop as it is, unless the cancel of that loop settles. -/
theorem closing_step {loop : Nat} {strokes : List Stroke}
    (running : state.closing[loop]? = some strokes) (other : event ≠ .cancelSettled loop) :
    (step state event).1.closing[loop]? = some strokes := by
  cases event with
  | socketClosed socket =>
    have bound : loop < state.closing.length := (List.getElem?_eq_some_iff.mp running).1
    exact (getElem?_append_left bound).trans running
  | cancelSettled next =>
    have apart : next ≠ loop := fun same => other (congrArg _ same)
    exact (getElem?_set_ne apart).trans running
  | _ => exact running

/-- A loop issues its cancels in turn, whatever happens in between. -/
theorem closing_run {loop : Nat} {strokes : List Stroke}
    (running : state.closing[loop]? = some strokes) (events : List Event) :
    (strokes.take (events.count (.cancelSettled loop))).Sublist
      (cancelledIn (Runs.run step state events).2) := by
  induction events generalizing state strokes with
  | nil => simp [cancelledIn]
  | cons event events ih =>
    rw [Runs.run_cons, cancelledIn_append, count_cons]
    by_cases settled : event = .cancelSettled loop
    · subst settled
      have next : (step state (.cancelSettled loop)).1.closing[loop]? = some strokes.tail := by
        have bound : loop < state.closing.length := (List.getElem?_eq_some_iff.mp running).1
        unfold step
        dsimp only
        rw [getElem?_set_self bound, running, Option.getD_some]
      have issued : cancelledIn (step state (.cancelSettled loop)).2 = strokes.take 1 := by
        unfold step
        rw [cancelledIn_cancels, running, Option.getD_some]
      rw [issued, beq_self_eq_true, if_pos rfl]
      have parts : strokes.take (events.count (.cancelSettled loop) + 1) =
          strokes.take 1 ++ strokes.tail.take (events.count (.cancelSettled loop)) := by
        cases strokes <;> simp
      rw [parts]
      exact (List.Sublist.refl _).append (ih next)
    · have still := ih (closing_step running settled)
      rw [beq_eq_false_iff_ne.mpr settled]
      exact still.trans (sublist_append_right _ _)

/-- The gestures of a socket, in the order of its loop. -/
def strokesOf (state : State) (socket : String) : List Stroke :=
  (cancelAllFor state.bySocket socket).2

/-- Closing a socket takes all its gestures off the record, and cancels each of them
as soon as the cancels before it have settled. -/
structure Closes (state : State) (socket : String) : Prop where
  records : gesturesOf (step state (.socketClosed socket)).1.bySocket socket = []
  cancels : ∀ later, ((strokesOf state socket).take
      (later.count (.cancelSettled state.closing.length) + 1)).Sublist
    (cancelledIn (Runs.run step state (.socketClosed socket :: later)).2)

theorem socket_closes (state : State) (socket : String) : Closes state socket where
  records := by
    unfold step cancelAllFor
    dsimp only
    rw [gesturesOf_erase, if_pos rfl]
  cancels later := by
    have running : (step state (.socketClosed socket)).1.closing[state.closing.length]? =
        some (strokesOf state socket).tail := by
      simp [step, strokesOf]
    have rest := closing_run running later
    have issued : cancelledIn (step state (.socketClosed socket)).2 =
        (strokesOf state socket).take 1 := by
      unfold step
      rw [cancelledIn_cancels]
      rfl
    have parts : (strokesOf state socket).take
        (later.count (.cancelSettled state.closing.length) + 1) = (strokesOf state socket).take 1 ++
            (strokesOf state socket).tail.take (later.count (.cancelSettled state.closing.length)) := by
      cases strokesOf state socket <;> simp
    rw [parts, Runs.run_cons, cancelledIn_append, issued]
    exact (List.Sublist.refl _).append rest

theorem kept_nil : Kept {} where
  sockets := nodup_keys_nil
  gestures _ := nodup_keys_nil
  labelled _ _ member := by cases member
  live _ member := by cases member

/-- Gestures are not lost as long as no two share a key: each acked start is on record
under a live socket, ended or cancelled, once; a socket that closes cancels what it
has open; and no operation touches a gesture that it does not name. -/
theorem gestures_kept (events : List Event) (distinct : Runs.Meets step Distinct {} events) :
    Accounted (run events).1 (run events).2 ∧
      (∀ stroke, 0 < recorded (run events).1.bySocket stroke →
        stroke.socketSessionId ∈ (run events).1.clientSockets) ∧
      (∀ socket, Closes (run events).1 socket) ∧
      ∀ event, Distinct (run events).1 event → Spares (run events).1 event := by
  have start : Kept {} ∧ Accounted {} [] := ⟨kept_nil, fun stroke => rfl⟩
  have final := Runs.Meets.invariant step (fun state past => Kept state ∧ Accounted state past)
    (fun state event past holds allowed => ⟨kept_step holds.1 event,
      accounted_step (balanced_of_distinct holds.1 allowed) holds.2⟩) [] start distinct
  rw [nil_append] at final
  obtain ⟨kept, accounted⟩ := final
  refine ⟨accounted, fun stroke some => ?_, fun socket => socket_closes _ socket,
    fun event allowed => spares_of_distinct kept allowed⟩
  refine kept.live _ ?_
  by_contra absent
  have nothing : gesturesOf (run events).1.bySocket stroke.socketSessionId = [] := by
    unfold gesturesOf run
    rw [(get?_eq_none_iff _ _).mpr absent]
    rfl
  rw [recorded, nothing] at some
  exact Nat.lt_irrefl 0 some

/-- Two gestures of one socket on two devices, one of which is dragged to its end. -/
def sampleEvents : List Event :=
  [.socketOpened "s", .startAcked "s" ⟨"a"⟩ "g" none true, .startAcked "s" ⟨"b"⟩ "g" none true,
    .endAcked "s" "b" "g", .socketClosed "s"]

theorem gestures_kept_sample : Accounted (run sampleEvents).1 (run sampleEvents).2 :=
  (gestures_kept sampleEvents (by
    unfold sampleEvents
    simp only [Runs.Meets, Distinct]
    decide)).1

/-- Devices and gestures whose ids run together under one key. -/
def collidingEvents : List Event :=
  [.socketOpened "s", .startAcked "s" ⟨"a"⟩ "b::c" none true,
    .startAcked "s" ⟨"a::b"⟩ "c" none true, .socketClosed "s", .cancelSettled 0]

/-- The first gesture was acked, and neither ended nor cancelled, nor is it on record. -/
theorem gestures_lost_collision :
    startedIn (run collidingEvents).2 = [⟨"s", ⟨"a"⟩, "b::c"⟩, ⟨"s", ⟨"a::b"⟩, "c"⟩] ∧
      endedIn (run collidingEvents).2 = [] ∧
      cancelledIn (run collidingEvents).2 = [⟨"s", ⟨"a::b"⟩, "c"⟩] ∧
      (run collidingEvents).1.bySocket = [] ∧ (run collidingEvents).1.closing.flatten = [] ∧
      ¬ Accounted (run collidingEvents).1 (run collidingEvents).2 := by
  refine ⟨by decide, by decide, by decide, by decide, by decide, fun accounted => ?_⟩
  have first := accounted ⟨"s", ⟨"a"⟩, "b::c"⟩
  revert first
  decide

end AutoMobile.GestureOwnership
