import AutoMobile.SdkEventBuffer

/- Where every event that was given to the buffer is, in every run of its steps. -/
namespace AutoMobile.EventBuffer

open List Runs

variable {Event : Type} {settings : Settings} {state next : State Event}
variable {current oldest : Tracked Event} {call : Nat}

section Counting

/-- How many of the events came from a call of `add`. -/
def occurrences (call : Nat) (events : List (Tracked Event)) : Nat :=
  events.countP fun event => event.call = call

@[simp] theorem occurrences_nil : occurrences call ([] : List (Tracked Event)) = 0 := rfl

@[simp] theorem occurrences_append (first second : List (Tracked Event)) :
    occurrences call (first ++ second) = occurrences call first + occurrences call second :=
  countP_append

theorem occurrences_cons (event : Tracked Event) (events : List (Tracked Event)) :
    occurrences call (event :: events) = occurrences call [event] + occurrences call events :=
  occurrences_append [event] events

theorem occurrences_single (event : Tracked Event) :
    occurrences call [event] = if event.call = call then 1 else 0 := by
  unfold occurrences
  rw [countP_singleton]
  simp

variable {index : Nat}

theorem occurrences_eraseIdx {events : List (Tracked Event)}
    (found : events[index]? = some current) :
    occurrences call events =
      occurrences call (events.eraseIdx index) + occurrences call [current] := by
  induction events generalizing index with
  | nil => cases found
  | cons event rest ih =>
    cases index with
    | zero =>
      cases found
      rw [occurrences_cons, Nat.add_comm]
      rfl
    | succ index =>
      rw [eraseIdx_cons_succ, occurrences_cons event rest,
        occurrences_cons event (rest.eraseIdx index), ih found]
      omega

theorem occurrences_flatten_eraseIdx {batches : List (List (Tracked Event))}
    {events : List (Tracked Event)} (found : batches[index]? = some events) :
    occurrences call batches.flatten =
      occurrences call (batches.eraseIdx index).flatten + occurrences call events := by
  induction batches generalizing index with
  | nil => cases found
  | cons batch rest ih =>
    cases index with
    | zero =>
      cases found
      rw [flatten_cons, occurrences_append, Nat.add_comm]
      rfl
    | succ index =>
      rw [eraseIdx_cons_succ, flatten_cons, flatten_cons, occurrences_append,
        occurrences_append, ih found]
      omega

/-- The batches that the drains have in hand. -/
def inHand (drains : List (Option (List (Tracked Event)))) : List (Tracked Event) :=
  drains.flatMap fun hand => hand.getD []

theorem occurrences_inHand_set {drains : List (Option (List (Tracked Event)))}
    {hand : Option (List (Tracked Event))} (found : drains[index]? = some hand)
    (later : Option (List (Tracked Event))) :
    occurrences call (inHand (drains.set index later)) + occurrences call (hand.getD []) =
      occurrences call (inHand drains) + occurrences call (later.getD []) := by
  induction drains generalizing index with
  | nil => cases found
  | cons first rest ih =>
    have split : ∀ front, inHand (front :: rest) = front.getD [] ++ inHand rest := fun _ => rfl
    cases index with
    | zero =>
      cases found
      rw [set_cons_zero, split, split, occurrences_append, occurrences_append]
      omega
    | succ index =>
      have tail := ih found
      show occurrences call (first.getD [] ++ inHand (rest.set index later)) + _ =
        occurrences call (first.getD [] ++ inHand rest) + _
      rw [occurrences_append, occurrences_append]
      omega

theorem inHand_eraseIdx {drains : List (Option (List (Tracked Event)))}
    (found : drains[index]? = some none) : inHand (drains.eraseIdx index) = inHand drains := by
  induction drains generalizing index with
  | nil => cases found
  | cons first rest ih =>
    cases index with
    | zero =>
      cases found
      rfl
    | succ index =>
      show first.getD [] ++ inHand (rest.eraseIdx index) = first.getD [] ++ inHand rest
      rw [ih found]

/-- Queued and buffered events, the oldest first. -/
def State.pending (state : State Event) : List (Tracked Event) :=
  state.pendingBatches.flatten ++ state.buffer

/-- In how many places the event of a call is: with a call of `add`, a drain or a flush, pending,
handed to `onFlush`, or dropped. -/
def State.places (state : State Event) (call : Nat) : Nat :=
  occurrences call state.entered + occurrences call state.processed +
    occurrences call (inHand state.drains) + occurrences call state.flushes.flatten +
    occurrences call state.pending + occurrences call state.handed +
    occurrences call (state.dropped.map Prod.fst)

theorem places_drop (reason : DropReason) :
    (state.drop current reason).places call = state.places call + occurrences call [current] := by
  unfold State.places State.drop
  dsimp only [State.pending]
  simp only [map_append, map_cons, map_nil, occurrences_append]
  omega

theorem pendingEventCount_eq : pendingEventCount state = state.pending.length := by
  unfold pendingEventCount State.pending
  rw [length_append, Nat.add_comm]

end Counting

section Pressure

/-- No queued batch is empty. -/
def Filled (state : State Event) : Prop := ∀ batch ∈ state.pendingBatches, batch ≠ []

/-- The state with other pending events and drops. -/
structure Relieved (state next : State Event) : Prop where
  same : next = { state with
    buffer := next.buffer, pendingBatches := next.pendingBatches, dropped := next.dropped }
  filled : Filled state → Filled next
  queued : next.pendingBatches ≠ [] → state.pendingBatches ≠ []
  later : next.pending <:+ state.pending

theorem Relieved.refl : Relieved state state := ⟨rfl, id, id, suffix_refl _⟩

theorem Relieved.trans {last : State Event} (first : Relieved state next)
    (second : Relieved next last) : Relieved state last := by
  refine ⟨?_, fun filled => second.filled (first.filled filled),
    fun queued => first.queued (second.queued queued), second.later.trans first.later⟩
  rw [second.same, first.same]

theorem dropOldest_spec (some' : dropOldestPendingEvent state = some (oldest, next)) :
    state.pending = oldest :: next.pending ∧ Relieved state next ∧ next.dropped = state.dropped := by
  unfold dropOldestPendingEvent at some'
  split at some'
  next none =>
    split at some'
    · cases some'
    next rest held =>
      cases some'
      have pending : state.pending = oldest :: rest := by
        unfold State.pending
        rw [none, held]
        rfl
      have left : State.pending { state with buffer := rest } = rest := by
        unfold State.pending
        rw [none]
        rfl
      refine ⟨?_, ⟨rfl, id, id, ?_⟩, rfl⟩
      · rw [pending, left]
      · rw [pending, left]
        exact suffix_cons _ _
  · cases some'
  next first rest later held =>
    cases some'
    have left : State.pending { state with
        pendingBatches := if rest.isEmpty then later else rest :: later } =
        rest ++ later.flatten ++ state.buffer := by
      unfold State.pending
      dsimp only
      split
      next empty =>
        rw [List.isEmpty_iff.mp empty]
        rfl
      next => rw [flatten_cons]
    have pending : state.pending = oldest :: (rest ++ later.flatten ++ state.buffer) := by
      unfold State.pending
      rw [held]
      rfl
    refine ⟨?_, ⟨rfl, ?_, ?_, ?_⟩, rfl⟩
    · rw [pending, left]
    · intro filled batch member
      dsimp only at member
      split at member
      next =>
        apply filled batch
        rw [held]
        exact mem_cons_of_mem _ member
      next some'' =>
        rcases mem_cons.mp member with rfl | there
        · exact fun empty => some'' (List.isEmpty_iff.mpr empty)
        · apply filled batch
          rw [held]
          exact mem_cons_of_mem _ there
    · intro _
      rw [held]
      exact cons_ne_nil _ _
    · rw [pending, left]
      exact suffix_cons _ _

/-- There is an oldest event to drop wherever something is pending. -/
theorem dropOldest_isSome (filled : Filled state) (some' : 0 < pendingEventCount state) :
    (dropOldestPendingEvent state).isSome = true := by
  unfold dropOldestPendingEvent
  split
  next none =>
    split
    next empty =>
      unfold pendingEventCount at some'
      rw [none, empty] at some'
      cases some'
    next => rfl
  next later held =>
    have nonempty := filled []
    rw [held] at nonempty
    exact absurd rfl (nonempty mem_cons_self)
  next => rfl

theorem places_of_pending {places : Nat} (relieved : Relieved state next)
    (dropped : next.dropped = state.dropped)
    (pending : occurrences call state.pending = occurrences call next.pending + places) :
    state.places call = next.places call + places := by
  unfold State.places
  rw [dropped, relieved.same]
  dsimp only
  have own : State.pending { state with
      buffer := next.buffer, pendingBatches := next.pendingBatches, dropped := next.dropped } =
      next.pending := rfl
  rw [own, pending]
  omega

/-- The loop keeps every event, one of them perhaps the current one, and ends below the bound. -/
structure MadeRoom (settings : Settings) (current : Tracked Event) (state next : State Event)
    (goesOn : Bool) : Prop where
  relieved : Relieved state next
  places : ∀ call, next.places call =
    state.places call + if goesOn then 0 else occurrences call [current]
  below : goesOn = true → pendingEventCount next < settings.maxPendingEvents

theorem makeRoom_spec {fuel : Nat} {goesOn : Bool} (enough : pendingEventCount state < fuel)
    (made : makeRoom settings current fuel state = some (next, goesOn)) :
    MadeRoom settings current state next goesOn := by
  induction fuel generalizing state with
  | zero => omega
  | succ fuel ih =>
    unfold makeRoom at made
    split at made
    next room =>
      cases made
      exact ⟨Relieved.refl, fun _ => rfl, fun _ => room⟩
    next full =>
      split at made
      next =>
        split at made
        · cases made
        next oldest rest taken =>
          obtain ⟨pending, relieved, dropped⟩ := dropOldest_spec taken
          have counted : pendingEventCount state = pendingEventCount rest + 1 := by
            rw [pendingEventCount_eq, pendingEventCount_eq, pending, length_cons]
          have fewer : pendingEventCount (rest.drop oldest .bufferOverflow) < fuel := by
            show pendingEventCount rest < fuel
            omega
          have tail := ih fewer made
          have dropping : Relieved state (rest.drop oldest .bufferOverflow) := by
            refine ⟨?_, relieved.filled, relieved.queued, relieved.later⟩
            unfold State.drop
            rw [relieved.same]
          refine ⟨dropping.trans tail.relieved, ?_, tail.below⟩
          intro call
          rw [tail.places, places_drop]
          have moved : state.places call = rest.places call + occurrences call [oldest] := by
            apply places_of_pending relieved dropped
            rw [pending, occurrences_cons, Nat.add_comm]
          omega
      next =>
        cases made
        refine ⟨⟨rfl, id, id, suffix_refl _⟩, ?_, fun no => by cases no⟩
        intro call
        exact places_drop _

theorem makeRoom_isSome (filled : Filled state) (fuel : Nat) :
    (makeRoom settings current fuel state).isSome = true := by
  induction fuel generalizing state with
  | zero => rfl
  | succ fuel ih =>
    unfold makeRoom
    split
    · rfl
    next full =>
      split
      next =>
        have pending : 0 < pendingEventCount state :=
          Nat.lt_of_lt_of_le settings.pendingPositive (Nat.not_lt.mp full)
        obtain ⟨⟨oldest, rest⟩, taken⟩ :=
          Option.isSome_iff_exists.mp (dropOldest_isSome filled pending)
        rw [taken]
        obtain ⟨_, relieved, _⟩ := dropOldest_spec taken
        exact ih (relieved.filled filled)
      next => rfl

end Pressure

section Invariant

variable {carried later : List (Tracked Event)}

/-- Every event is in one place, `carried` being those that the step has in hand; the pending events
are within the bound; a queued batch waits for the one drain there is; and a buffer that has been
shut down takes no more. -/
structure Sound (settings : Settings) (carried : List (Tracked Event)) (state : State Event) :
    Prop where
  once : ∀ call, state.places call + occurrences call carried = if call < state.given then 1 else 0
  bound : pendingEventCount state ≤ settings.maxPendingEvents
  filled : Filled state
  single : state.drains.length = if state.isDeliveryScheduled then 1 else 0
  queued : state.pendingBatches ≠ [] → state.isDeliveryScheduled = true
  stopped : state.isShutdown = true → state.buffer = []
  waits : state.awaiting = true → state.isShutdown = true
  ended : state.finished = true → state.isShutdown = true ∧ state.isDeliveryScheduled = false

theorem Sound.start : Sound settings [] ({} : State Event) := by
  refine ⟨fun _ => rfl, Nat.zero_le _, ?_, rfl, ?_, fun _ => rfl, ?_, ?_⟩
  · intro batch member
    cases member
  · intro some'
    exact absurd rfl some'
  · intro waits
    cases waits
  · intro ended
    cases ended

/-- Events change their place outside the buffer and the queue. -/
theorem Sound.moved (sound : Sound settings carried state)
    (places : ∀ call, next.places call + occurrences call later =
      state.places call + occurrences call carried)
    (given : next.given = state.given) (buffer : next.buffer = state.buffer)
    (batches : next.pendingBatches = state.pendingBatches)
    (drains : next.drains.length = state.drains.length)
    (scheduled : next.isDeliveryScheduled = state.isDeliveryScheduled)
    (shutdown : next.isShutdown = state.isShutdown) (awaiting : next.awaiting = state.awaiting)
    (finished : next.finished = state.finished) : Sound settings later next := by
  refine ⟨?_, ?_, ?_, ?_, ?_, ?_, ?_, ?_⟩
  · intro call
    rw [places, given]
    exact sound.once call
  · unfold pendingEventCount
    rw [buffer, batches]
    exact sound.bound
  · unfold Filled
    rw [batches]
    exact sound.filled
  · rw [drains, scheduled]
    exact sound.single
  · rw [batches, scheduled]
    exact sound.queued
  · rw [shutdown, buffer]
    exact sound.stopped
  · rw [awaiting, shutdown]
    exact sound.waits
  · rw [finished, shutdown, scheduled]
    exact sound.ended

theorem Sound.drop (sound : Sound settings [current] state) (reason : DropReason) :
    Sound settings [] (state.drop current reason) := by
  refine sound.moved (fun call => ?_) rfl rfl rfl rfl rfl rfl rfl rfl
  rw [places_drop]
  rfl

theorem Sound.takeEntered {index : Nat} (sound : Sound settings [] state)
    (found : state.entered[index]? = some current) :
    Sound settings [current] { state with entered := state.entered.eraseIdx index } := by
  refine sound.moved (fun call => ?_) rfl rfl rfl rfl rfl rfl rfl rfl
  have moved : occurrences call state.entered = _ + _ := occurrences_eraseIdx found
  unfold State.places
  rw [moved]
  dsimp only [State.pending, occurrences_nil]
  omega

theorem Sound.takeProcessed {index : Nat} (sound : Sound settings [] state)
    (found : state.processed[index]? = some current) :
    Sound settings [current] { state with processed := state.processed.eraseIdx index } := by
  refine sound.moved (fun call => ?_) rfl rfl rfl rfl rfl rfl rfl rfl
  have moved : occurrences call state.processed = _ + _ := occurrences_eraseIdx found
  unfold State.places
  rw [moved]
  dsimp only [State.pending, occurrences_nil]
  omega

/-- A processor's replacement stands for its event. -/
theorem Sound.putProcessed (sound : Sound settings [current] state) (event : Event) :
    Sound settings [] { state with processed := state.processed ++ [⟨current.call, event⟩] } := by
  refine sound.moved (fun call => ?_) rfl rfl rfl rfl rfl rfl rfl rfl
  unfold State.places
  dsimp only [State.pending]
  rw [occurrences_append state.processed, occurrences_single, occurrences_single, occurrences_nil]
  dsimp only
  omega

theorem pending_enqueueBuffer (state : State Event) :
    (enqueueBuffer state).pending = state.pending := by
  unfold enqueueBuffer enqueueDelivery State.pending
  simp

theorem places_enqueueBuffer (state : State Event) (call : Nat) :
    (enqueueBuffer state).places call = state.places call := by
  have hands : inHand (enqueueBuffer state).drains = inHand state.drains := by
    unfold enqueueBuffer enqueueDelivery
    dsimp only
    split
    · rfl
    · unfold inHand
      rw [flatMap_append]
      exact append_nil _
  unfold State.places
  rw [pending_enqueueBuffer, hands]
  rfl

theorem Sound.enqueueBuffer (sound : Sound settings carried state) (some' : state.buffer ≠ [])
    (running : state.finished = false) : Sound settings carried (enqueueBuffer state) := by
  refine ⟨?_, ?_, ?_, ?_, fun _ => rfl, fun _ => rfl, sound.waits, ?_⟩
  · intro call
    rw [places_enqueueBuffer]
    exact sound.once call
  · rw [pendingEventCount_eq, pending_enqueueBuffer, ← pendingEventCount_eq]
    exact sound.bound
  · intro batch member
    rcases mem_append.mp member with there | last
    · exact sound.filled batch there
    · rw [mem_singleton.mp last]
      exact some'
  · show (if state.isDeliveryScheduled then state.drains else state.drains ++ [none]).length = 1
    have single := sound.single
    split
    next scheduled =>
      rw [scheduled] at single
      exact single
    next idle =>
      rw [if_neg idle] at single
      rw [length_append, single]
      rfl
  · intro ended
    have same : (EventBuffer.enqueueBuffer state).finished = state.finished := rfl
    rw [same, running] at ended
    cases ended

theorem Sound.running (sound : Sound settings carried state) (opened : state.isShutdown = false) :
    state.finished = false := by
  cases ended : state.finished with
  | false => rfl
  | true =>
    have shutdown := (sound.ended ended).1
    rw [opened] at shutdown
    cases shutdown

/-- The buffer takes the event that has room. -/
theorem Sound.added (sound : Sound settings [current] state) (opened : state.isShutdown = false)
    (room : pendingEventCount state < settings.maxPendingEvents) :
    Sound settings [] { state with
      buffer := state.buffer ++ [current], accepted := state.accepted ++ [current] } := by
  refine ⟨?_, ?_, sound.filled, sound.single, sound.queued, ?_, sound.waits, sound.ended⟩
  · intro call
    have once := sound.once call
    unfold State.places at once ⊢
    dsimp only [State.pending] at once ⊢
    rw [← append_assoc, occurrences_append _ [current], occurrences_nil]
    omega
  · unfold pendingEventCount at room ⊢
    dsimp only
    rw [length_append, length_singleton]
    omega
  · intro shutdown
    change state.isShutdown = true at shutdown
    rw [opened] at shutdown
    cases shutdown

theorem Sound.madeRoom {goesOn : Bool} (sound : Sound settings [current] state)
    (opened : state.isShutdown = false)
    (made : MadeRoom settings current state next goesOn) :
    Sound settings (if goesOn then [current] else []) next := by
  obtain ⟨relieved, places, _⟩ := made
  have same := relieved.same
  have fewer : pendingEventCount next ≤ pendingEventCount state := by
    rw [pendingEventCount_eq, pendingEventCount_eq]
    exact relieved.later.length_le
  refine ⟨?_, Nat.le_trans fewer sound.bound, relieved.filled sound.filled, ?_, ?_, ?_, ?_, ?_⟩
  · intro call
    have once := sound.once call
    have given : next.given = state.given := by rw [same]
    rw [places, given, ← once]
    cases goesOn with
    | true => rfl
    | false =>
      show state.places call + occurrences call [current] + 0 = _
      rfl
  · rw [same]
    exact sound.single
  · intro queued
    rw [same]
    exact sound.queued (relieved.queued queued)
  · intro shutdown
    rw [same] at shutdown
    change state.isShutdown = true at shutdown
    rw [opened] at shutdown
    cases shutdown
  · rw [same]
    exact sound.waits
  · rw [same]
    exact sound.ended

theorem Sound.addLocked (sound : Sound settings [current] state) :
    ∃ next, addLocked settings state current = some next ∧ Sound settings [] next := by
  unfold EventBuffer.addLocked
  split
  · exact ⟨_, rfl, sound.drop .shutdown⟩
  next opened =>
    have opened : state.isShutdown = false := by simpa using opened
    obtain ⟨⟨roomy, goesOn⟩, made⟩ := Option.isSome_iff_exists.mp
      (@makeRoom_isSome Event settings state current sound.filled (pendingEventCount state + 1))
    have spec := makeRoom_spec (Nat.lt_succ_self _) made
    have room := sound.madeRoom opened spec
    rw [made]
    refine ⟨_, rfl, ?_⟩
    dsimp only
    cases goesOn with
    | false => exact room
    | true =>
      have still : roomy.isShutdown = false := by
        rw [spec.relieved.same]
        exact opened
      have added := room.added still (spec.below rfl)
      rw [if_pos rfl]
      split
      · exact added.enqueueBuffer (append_ne_nil_of_right_ne_nil _ (cons_ne_nil _ _))
          (room.running still)
      · exact added

theorem Sound.flush (sound : Sound settings [] state) :
    Sound settings [] { state with buffer := [], flushes := state.flushes ++ [state.buffer] } := by
  refine ⟨?_, ?_, sound.filled, sound.single, sound.queued, fun _ => rfl, sound.waits, sound.ended⟩
  · intro call
    rw [← sound.once call]
    unfold State.places State.pending
    dsimp only
    rw [flatten_append, flatten_singleton, occurrences_append state.flushes.flatten,
      append_nil, occurrences_append _ state.buffer]
    omega
  · have bound := sound.bound
    unfold pendingEventCount at bound ⊢
    dsimp only
    rw [length_nil]
    omega

/-- What is handed over was in hand. -/
theorem Sound.deliverBatch {events : List (Tracked Event)} (sound : Sound settings events state)
    (delivery : Delivery Event) : Sound settings [] (deliverBatch state events delivery) := by
  unfold EventBuffer.deliverBatch
  split
  next empty =>
    rw [List.isEmpty_iff.mp empty] at sound
    exact sound
  next =>
    refine sound.moved (fun call => ?_) rfl rfl rfl rfl rfl rfl rfl rfl
    unfold State.places
    dsimp only [State.pending]
    rw [occurrences_append state.handed, occurrences_nil]
    omega

theorem Sound.drain (sound : Sound settings [] state) (index : Nat) (delivery : Delivery Event) :
    Sound settings [] (drain state index delivery) := by
  unfold EventBuffer.drain
  split
  · exact sound
  next found =>
    have scheduled : state.isDeliveryScheduled = true := by
      have single := sound.single
      cases flag : state.isDeliveryScheduled with
      | true => rfl
      | false =>
        rw [flag] at single
        rw [eq_nil_of_length_eq_zero single] at found
        cases found
    have one : state.drains.length = 1 := by
      rw [sound.single, scheduled]
      rfl
    have first : index < state.drains.length := (List.getElem?_eq_some_iff.mp found).1
    split
    next none =>
      refine ⟨?_, sound.bound, sound.filled, ?_, ?_, sound.stopped, sound.waits, ?_⟩
      · intro call
        rw [← sound.once call]
        unfold State.places
        dsimp only [State.pending]
        rw [inHand_eraseIdx found]
      · show (state.drains.eraseIdx index).length = 0
        rw [length_eraseIdx_of_lt first, one]
      · intro queued
        exact absurd none queued
      · intro ended
        exact ⟨(sound.ended ended).1, rfl⟩
    next events later held =>
      refine ⟨?_, ?_, ?_, ?_, fun _ => scheduled, sound.stopped, sound.waits, sound.ended⟩
      · intro call
        rw [← sound.once call]
        have hands := @occurrences_inHand_set Event call _ _ _ found (some events)
        unfold State.places State.pending
        dsimp only
        rw [held, flatten_cons]
        simp only [occurrences_append]
        simp only [Option.getD_none, Option.getD_some, occurrences_nil] at hands
        omega
      · have bound := sound.bound
        unfold pendingEventCount at bound ⊢
        rw [held, flatten_cons, length_append] at bound
        dsimp only
        omega
      · intro batch member
        apply sound.filled batch
        rw [held]
        exact mem_cons_of_mem _ member
      · show (state.drains.set index (some events)).length = _
        rw [length_set]
        exact sound.single
  next events found =>
    have taken : Sound settings events { state with drains := state.drains.set index none } := by
      refine sound.moved (fun call => ?_) rfl rfl rfl length_set rfl rfl rfl rfl
      have hands := @occurrences_inHand_set Event call _ _ _ found none
      unfold State.places
      dsimp only [State.pending]
      simp only [Option.getD_none, Option.getD_some, occurrences_nil] at hands
      rw [occurrences_nil]
      omega
    exact taken.deliverBatch delivery

theorem Sound.stop (sound : Sound settings [] state) (empty : state.buffer = [])
    (running : state.finished = false) :
    Sound settings [] { state with isShutdown := true, awaiting := true } := by
  refine ⟨sound.once, sound.bound, sound.filled, sound.single, sound.queued, fun _ => empty,
    fun _ => rfl, ?_⟩
  intro ended
  change state.finished = true at ended
  rw [running] at ended
  cases ended

theorem Sound.awaited (sound : Sound settings [] state) (awaiting : state.awaiting = true)
    (terminated : state.drains = []) :
    Sound settings [] { state with awaiting := false, finished := true } := by
  refine ⟨sound.once, sound.bound, sound.filled, sound.single, sound.queued, sound.stopped, ?_, ?_⟩
  · intro waits
    cases waits
  · intro _
    refine ⟨sound.waits awaiting, ?_⟩
    have single := sound.single
    rw [terminated] at single
    show state.isDeliveryScheduled = false
    cases flag : state.isDeliveryScheduled with
    | false => rfl
    | true =>
      rw [flag] at single
      cases single

theorem Sound.step (sound : Sound settings [] state) (taken : Step Event) :
    Sound settings [] (step settings state taken).1 := by
  cases taken with
  | add event =>
    unfold EventBuffer.step
    dsimp only
    have given : ∀ {next : State Event}, next.given = state.given + 1 →
        (∀ call, next.places call = state.places call + if state.given = call then 1 else 0) →
        ∀ call, next.places call + occurrences call ([] : List (Tracked Event)) =
          if call < next.given then 1 else 0 := by
      intro next more places call
      have once := sound.once call
      rw [places, more]
      rw [occurrences_nil] at once ⊢
      split at once <;> split <;> split <;> omega
    split
    · refine ⟨given rfl fun call => ?_, sound.bound, sound.filled, sound.single, sound.queued,
        sound.stopped, sound.waits, sound.ended⟩
      have places : ({ state with given := state.given + 1 } : State Event).places call =
        state.places call := rfl
      dsimp only
      rw [places_drop, occurrences_single, places]
    · refine ⟨given rfl fun call => ?_, sound.bound, sound.filled, sound.single, sound.queued,
        sound.stopped, sound.waits, sound.ended⟩
      unfold State.places
      dsimp only [State.pending]
      rw [occurrences_append state.entered, occurrences_single]
      dsimp only
      omega
  | process index processors =>
    unfold EventBuffer.step
    dsimp only
    split
    · exact sound
    next current found =>
      have left := sound.takeEntered found
      split
      · exact left.drop .disabled
      · split
        next reason _ => exact left.drop reason
        next event _ => exact left.putProcessed event
  | addLocked index =>
    unfold EventBuffer.step
    dsimp only
    split
    · exact sound
    next current found =>
      obtain ⟨next, done, after⟩ := (sound.takeProcessed found).addLocked
      rw [done]
      exact after
  | flush =>
    unfold EventBuffer.step
    dsimp only
    split
    · exact sound
    · exact sound.flush
  | deliverFlush index delivery =>
    unfold EventBuffer.step
    dsimp only
    split
    · exact sound
    next events found =>
      have taken : Sound settings events { state with flushes := state.flushes.eraseIdx index } := by
        refine sound.moved (fun call => ?_) rfl rfl rfl rfl rfl rfl rfl rfl
        have moved := @occurrences_flatten_eraseIdx Event call _ _ _ found
        unfold State.places
        rw [moved, occurrences_nil]
        dsimp only [State.pending]
        omega
      exact taken.deliverBatch delivery
  | enqueueFlush =>
    unfold EventBuffer.step
    dsimp only
    split
    · exact sound
    next goes =>
      rw [Bool.or_eq_true, not_or] at goes
      refine sound.enqueueBuffer ?_ (sound.running (by simpa using goes.1))
      exact fun empty => goes.2 (List.isEmpty_iff.mpr empty)
  | drain index delivery => exact sound.drain index delivery
  | setEnabled enabled => exact sound.moved (fun _ => rfl) rfl rfl rfl rfl rfl rfl rfl rfl
  | shutdown =>
    unfold EventBuffer.step
    dsimp only
    split
    · exact sound
    next opened =>
      have running := sound.running (by simpa using opened)
      split
      next empty => exact sound.stop (List.isEmpty_iff.mp empty) running
      next some' =>
        have queued := sound.enqueueBuffer (fun empty => some' (List.isEmpty_iff.mpr empty)) running
        exact queued.stop rfl running
  | awaitTermination =>
    unfold EventBuffer.step
    dsimp only
    split
    next done =>
      rw [Bool.and_eq_true] at done
      exact sound.awaited done.1 (List.isEmpty_iff.mp done.2)
    · exact sound

end Invariant

section Order

/-- What was handed over, what the drain has in hand and what is pending follow each other in the
order in which the buffer took them. -/
structure Ordered (state : State Event) : Prop where
  undirected : state.flushes = []
  order : (state.handed ++ inHand state.drains ++ state.pending).Sublist state.accepted

theorem Ordered.of_same (ordered : Ordered state) (flushes : next.flushes = state.flushes)
    (handed : next.handed = state.handed) (drains : inHand next.drains = inHand state.drains)
    (pending : next.pending.Sublist state.pending) (accepted : next.accepted = state.accepted) :
    Ordered next := by
  refine ⟨flushes.trans ordered.undirected, ?_⟩
  rw [handed, drains, accepted]
  exact (List.Sublist.append_left pending _).trans ordered.order

theorem Ordered.enqueueBuffer (ordered : Ordered state) : Ordered (enqueueBuffer state) := by
  refine ordered.of_same rfl rfl ?_ ?_ rfl
  · unfold EventBuffer.enqueueBuffer enqueueDelivery
    dsimp only
    split
    · rfl
    · unfold inHand
      rw [flatMap_append]
      exact append_nil _
  · rw [pending_enqueueBuffer]

theorem Ordered.addLocked (ordered : Ordered state)
    (done : addLocked settings state current = some next) : Ordered next := by
  unfold EventBuffer.addLocked at done
  split at done
  · cases done
    exact ordered.of_same rfl rfl rfl (List.Sublist.refl _) rfl
  next =>
    obtain ⟨⟨roomy, goesOn⟩, made, same⟩ := Option.map_eq_some_iff.mp done
    have relieved := (makeRoom_spec (Nat.lt_succ_self _) made).relieved
    have room : Ordered roomy := by
      refine ordered.of_same ?_ ?_ ?_ relieved.later.sublist ?_ <;> rw [relieved.same]
    have added : Ordered { roomy with
        buffer := roomy.buffer ++ [current], accepted := roomy.accepted ++ [current] } := by
      refine ⟨room.undirected, ?_⟩
      have order := List.Sublist.append room.order (List.Sublist.refl [current])
      unfold State.pending at order ⊢
      simpa [append_assoc] using order
    dsimp only at same
    cases goesOn with
    | false =>
      cases same
      exact room
    | true =>
      rw [if_pos rfl] at same
      split at same
      · cases same
        exact added.enqueueBuffer
      · cases same
        exact added

/-- The one drain hands over what it took. -/
theorem Ordered.drain (ordered : Ordered state) (sound : Sound settings [] state) (index : Nat)
    (delivery : Delivery Event) : Ordered (drain state index delivery) := by
  have alone : ∀ hand, state.drains[index]? = some hand → index = 0 ∧ state.drains = [hand] := by
    intro hand found
    obtain ⟨first, same⟩ := List.getElem?_eq_some_iff.mp found
    have single := sound.single
    have one : state.drains.length = 1 := by split at single <;> omega
    obtain ⟨only, drains⟩ := length_eq_one_iff.mp one
    have zero : index = 0 := by omega
    subst zero
    rw [drains] at found
    cases found
    exact ⟨rfl, drains⟩
  unfold EventBuffer.drain
  split
  · exact ordered
  next found =>
    obtain ⟨rfl, drains⟩ := alone none found
    have order := ordered.order
    rw [drains] at order
    split
    next =>
      refine ordered.of_same rfl rfl ?_ (List.Sublist.refl _) rfl
      rw [drains]
      rfl
    next events later held =>
      refine ⟨ordered.undirected, ?_⟩
      unfold State.pending at order ⊢
      rw [held] at order
      rw [drains]
      simpa [inHand, append_assoc] using order
  next events found =>
    obtain ⟨rfl, drains⟩ := alone (some events) found
    have order := ordered.order
    rw [drains] at order
    unfold deliverBatch
    split
    next empty =>
      refine ordered.of_same rfl rfl ?_ (List.Sublist.refl _) rfl
      rw [drains, List.isEmpty_iff.mp empty]
      rfl
    next =>
      refine ⟨ordered.undirected, ?_⟩
      unfold State.pending at order ⊢
      rw [drains]
      simpa [inHand, append_assoc] using order

/-- The step is not a direct flush. -/
def Step.undirected : Step Event → Prop
  | .flush => False
  | _ => True

/-- `onFlush` does not throw in the step. -/
def Step.succeeds : Step Event → Prop
  | .drain _ delivery | .deliverFlush _ delivery => delivery = .sent
  | _ => True

theorem Ordered.step (ordered : Ordered state) (sound : Sound settings [] state)
    {taken : Step Event} (undirected : taken.undirected) :
    Ordered (step settings state taken).1 := by
  have kept : ∀ {next : State Event}, next.flushes = state.flushes → next.handed = state.handed →
      next.drains = state.drains → next.pending = state.pending →
      next.accepted = state.accepted → Ordered next := by
    intro next flushes handed drains pending accepted
    refine ordered.of_same flushes handed (by rw [drains]) ?_ accepted
    rw [pending]
  cases taken with
  | add event =>
    unfold EventBuffer.step
    dsimp only
    split <;> exact kept rfl rfl rfl rfl rfl
  | process index processors =>
    unfold EventBuffer.step
    dsimp only
    split
    · exact ordered
    · split
      · exact kept rfl rfl rfl rfl rfl
      · split <;> exact kept rfl rfl rfl rfl rfl
  | addLocked index =>
    unfold EventBuffer.step
    dsimp only
    split
    · exact ordered
    next current found =>
      have left : Ordered { state with processed := state.processed.eraseIdx index } :=
        kept rfl rfl rfl rfl rfl
      obtain ⟨next, done, _⟩ := (sound.takeProcessed found).addLocked
      rw [done]
      exact left.addLocked done
  | flush => exact undirected.elim
  | deliverFlush index delivery =>
    unfold EventBuffer.step
    rw [ordered.undirected]
    exact ordered
  | enqueueFlush =>
    unfold EventBuffer.step
    dsimp only
    split
    · exact ordered
    · exact ordered.enqueueBuffer
  | drain index delivery => exact ordered.drain sound index delivery
  | setEnabled enabled => exact kept rfl rfl rfl rfl rfl
  | shutdown =>
    unfold EventBuffer.step
    dsimp only
    split
    · exact ordered
    · split
      · exact kept rfl rfl rfl rfl rfl
      · exact Ordered.enqueueBuffer (kept rfl rfl rfl rfl rfl)
  | awaitTermination =>
    unfold EventBuffer.step
    dsimp only
    split
    · exact kept rfl rfl rfl rfl rfl
    · exact ordered

theorem flushErrors_addLocked (done : addLocked settings state current = some next) :
    next.flushErrors = state.flushErrors := by
  unfold addLocked at done
  split at done
  · cases done
    rfl
  · obtain ⟨⟨roomy, goesOn⟩, made, same⟩ := Option.map_eq_some_iff.mp done
    have relieved := (makeRoom_spec (Nat.lt_succ_self _) made).relieved
    have kept : roomy.flushErrors = state.flushErrors := by rw [relieved.same]
    dsimp only at same
    split at same
    · split at same <;> cases same <;> exact kept
    · cases same
      exact kept

/-- What one step adds to the count under `FLUSH_ERROR`: nothing, or that of a batch that it hands
to an `onFlush` that throws. -/
def CountsThrown (state next : State Event) (taken : Step Event) : Prop :=
  next.flushErrors = state.flushErrors ∨ ∃ index events delivery,
    (taken = .drain index delivery ∨ taken = .deliverFlush index delivery) ∧ delivery ≠ .sent ∧
      next.handed = state.handed ++ events ∧
      next.flushErrors = state.flushErrors + delivery.errors events

theorem countsThrown_deliverBatch {taken : Step Event} {index : Nat} {delivery : Delivery Event}
    (events : List (Tracked Event))
    (shape : taken = .drain index delivery ∨ taken = .deliverFlush index delivery) :
    CountsThrown state (deliverBatch state events delivery) taken := by
  unfold deliverBatch
  split
  · exact Or.inl rfl
  · cases delivery with
    | sent => exact Or.inl rfl
    | unsent batches => exact Or.inr ⟨index, events, _, shape, nofun, rfl, rfl⟩
    | failed => exact Or.inr ⟨index, events, _, shape, nofun, rfl, rfl⟩

theorem countsThrown_step (settings : Settings) (state : State Event) (taken : Step Event) :
    CountsThrown state (step settings state taken).1 taken := by
  cases taken with
  | addLocked index =>
    left
    unfold step
    dsimp only
    split
    · rfl
    next current _ =>
      cases done : addLocked settings { state with processed := state.processed.eraseIdx index }
          current with
      | none => rfl
      | some next =>
        have kept := flushErrors_addLocked done
        exact kept
  | deliverFlush index delivery =>
    unfold step
    dsimp only
    split
    · exact Or.inl rfl
    · exact countsThrown_deliverBatch _ (Or.inr rfl)
  | drain index delivery =>
    show CountsThrown state (drain state index delivery) _
    unfold drain
    split
    · exact Or.inl rfl
    · split <;> exact Or.inl rfl
    · exact countsThrown_deliverBatch _ (Or.inl rfl)
  | process index processors =>
    left
    unfold step
    dsimp only
    split
    · rfl
    · split
      · rfl
      · split <;> rfl
  | shutdown =>
    left
    unfold step
    dsimp only
    split
    · rfl
    · split <;> rfl
  | add _ | flush | enqueueFlush | awaitTermination =>
    left
    unfold step
    dsimp only
    split <;> rfl
  | setEnabled _ => exact Or.inl rfl

/-- Only an `onFlush` that throws is counted. -/
theorem flushErrors_step {taken : Step Event} (succeeds : taken.succeeds) :
    (step settings state taken).1.flushErrors = state.flushErrors := by
  rcases countsThrown_step settings state taken with
    same | ⟨index, events, delivery, rfl | rfl, thrown, -⟩
  · exact same
  · exact absurd succeeds thrown
  · exact absurd succeeds thrown

end Order

section Results

/-- What holds of the buffer in every state. -/
structure Conserves (settings : Settings) (state : State Event) : Prop where
  once : ∀ call, call < state.given → state.places call = 1
  only : ∀ call, state.given ≤ call → state.places call = 0
  bound : pendingEventCount state ≤ settings.maxPendingEvents
  filled : Filled state
  drained : state.pendingBatches ≠ [] → ∃ hand, state.drains = [hand]
  ended : state.finished = true → state.pending = []

theorem Sound.conserves (sound : Sound settings [] state) : Conserves settings state := by
  refine ⟨?_, ?_, sound.bound, sound.filled, ?_, ?_⟩
  · intro call given
    have once := sound.once call
    rw [if_pos given] at once
    exact once
  · intro call beyond
    have once := sound.once call
    rw [if_neg (Nat.not_lt.mpr beyond)] at once
    exact once
  · intro queued
    have single := sound.single
    rw [sound.queued queued, if_pos rfl] at single
    exact length_eq_one_iff.mp single
  · intro finished
    obtain ⟨shutdown, unscheduled⟩ := sound.ended finished
    have empty : state.pendingBatches = [] := by
      by_contra queued
      rw [sound.queued queued] at unscheduled
      cases unscheduled
    unfold State.pending
    rw [empty, sound.stopped shutdown]
    rfl

/-- Over every run: each event given to `add` is in exactly one place, the pending ones are within
the bound, a queued batch is not empty and has a drain, and nothing is pending once the shutdown
that stopped the buffer has returned; without direct flushes events are handed over in the order in
which the buffer took them; and `FLUSH_ERROR` counts only batches handed to an `onFlush` that threw,
so nothing where it never throws. -/
theorem events_conserved (settings : Settings) (steps : List (Step Event)) :
    Conserves settings (run (step settings) {} steps).1 ∧
    ((∀ taken ∈ steps, taken.undirected) →
      (run (step settings) {} steps).1.handed.Sublist (run (step settings) {} steps).1.accepted) ∧
    ((∀ taken ∈ steps, taken.succeeds) → (run (step settings) {} steps).1.flushErrors = 0) ∧
    ∀ (state : State Event) taken, CountsThrown state (step settings state taken).1 taken := by
  refine ⟨?_, ?_, ?_, countsThrown_step settings⟩
  · have sound := state_invariant_of_step (step settings) (Sound settings [])
      (fun _ taken sound => sound.step taken) Sound.start steps
    exact sound.conserves
  · intro undirected
    have meets : Meets (step settings) (fun _ taken => taken.undirected) {} steps :=
      Meets.of_forall _ (fun taken member _ => undirected taken member) _
    have both := meets.state_invariant (step settings)
      (fun state : State Event => Sound settings [] state ∧ Ordered state)
      (fun _ taken both allowed => ⟨both.1.step taken, both.2.step both.1 allowed⟩)
      ⟨Sound.start, rfl, nil_sublist _⟩
    have order := both.2.order
    rw [append_assoc] at order
    exact (sublist_append_left _ _).trans order
  · intro succeeds
    have meets : Meets (step settings) (fun _ taken => taken.succeeds) {} steps :=
      Meets.of_forall _ (fun taken member _ => succeeds taken member) _
    exact meets.state_invariant (step settings) (fun state : State Event => state.flushErrors = 0)
      (fun _ _ zero allowed => (flushErrors_step allowed).trans zero) rfl

/-- An `onFlush` that throws: its event was handed over, and is counted as well. A second call of
`shutdown` returns at once, while the first one's batch is still queued. -/
theorem handed_event_is_counted :
    let settings : Settings := ⟨2, 2, .dropOldest, by decide, by decide⟩
    let stopped : List (Step Unit) := [.add (), .process 0 [], .addLocked 0, .shutdown]
    let delivered := run (step settings) {} (stopped ++ [.drain 0 .sent, .drain 0 .failed])
    let again := run (step settings) {} (stopped ++ [.shutdown])
    delivered.1.handed = [⟨0, ()⟩] ∧ delivered.1.flushErrors = 1 ∧ again.2 = [⟨1⟩] := by
  decide

end Results

end AutoMobile.EventBuffer
