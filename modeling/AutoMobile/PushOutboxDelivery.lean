import AutoMobile.PushOutboxSteps
import AutoMobile.Runs

/- What a connection writes of all that is sent over it. -/
namespace AutoMobile.PushOutbox

open InsertionMap List Runs

variable {Body Line : Type} {stringify : Message Body → Line} {written : List (Pushed Body Line)}
  {outbox : Outbox Body Line}

section Origins

variable {pushed : Pushed Body Line} {socket : Socket}

theorem mem_words_queue : pushed ∈ words stringify [] outbox ↔
      ∃ entry ∈ outbox.pending, entry.2.pushed stringify = pushed := by
  simp [words]

theorem place_words {accepts drainPending : Bool} {message : Message Body}
    {serialized : Option Line} (member : pushed ∈ words stringify
      (place stringify outbox accepts message drainPending serialized).written
      (place stringify outbox accepts message drainPending serialized).outbox) :
    pushed ∈ words stringify [] outbox ∨ pushed = write stringify message serialized := by
  unfold place at member
  split at member
  case isTrue =>
    obtain ⟨entry, listed, rfl⟩ := mem_words_queue.1 member
    unfold enqueue at listed
    dsimp only at listed
    split at listed
    · obtain rfl | old := mem_put listed
      · exact .inr rfl
      · exact .inl (mem_words_queue.2 ⟨entry, old, rfl⟩)
    · obtain rfl | old := mem_put listed
      · exact .inr rfl
      · exact .inl (mem_words_queue.2 ⟨entry, old, rfl⟩)
  case isFalse =>
    obtain rfl | queued := mem_cons.1 member
    · exact .inr rfl
    · exact .inl queued

/-- What a send writes or leaves queued was queued, or is sent, or is lossless. -/
theorem send_words {writableLength : Nat} {accepts drainPending : Bool} {message : Message Body}
    {serialized : Option Line} (member : pushed ∈ words stringify
      (send stringify writableLength accepts outbox message drainPending serialized).written
      (send stringify writableLength accepts outbox message drainPending serialized).outbox) :
    pushed ∈ words stringify [] outbox ∨ pushed = write stringify message serialized ∨
      pushed.message.fields.state? = none := by
  by_cases overflows : Overflows writableLength message.fields
  · have fewer : ∀ {pushed : Pushed Body Line} {key : String},
        pushed ∈ words stringify [] (dropped writableLength outbox key) →
        pushed ∈ words stringify [] outbox := by
      intro pushed key member
      obtain ⟨entry, listed, rfl⟩ := mem_words_queue.1 member
      have inside := (mem_filter.1 listed).1
      rw [refreshed_pending] at inside
      exact mem_words_queue.2 ⟨entry, inside, rfl⟩
    rw [send_of_overflows overflows accepts outbox drainPending serialized
      (state?_of_overflows overflows)] at member
    split at member
    case isTrue => exact .inl (fewer member)
    case isFalse =>
      obtain old | rfl := place_words member
      · exact .inl (fewer old)
      · exact .inr (.inr (by simp [write, Message.fields, Fields.state?]))
  · rw [send_of_fits overflows] at member
    obtain old | sent := place_words member
    · rw [words_refreshed] at old
      exact .inl old
    · exact .inr (.inl sent)

theorem flushEntry_words {step : Nat} {entry : Slot × PendingPush Body Line}
    (member : pushed ∈ words stringify (flushEntry stringify socket step outbox entry).written
      (flushEntry stringify socket step outbox entry).outbox) :
    pushed ∈ words stringify [] outbox ∨ pushed = entry.2.pushed stringify ∨
      pushed.message.fields.state? = none := by
  have fewer : pushed ∈ words stringify [] { outbox with pending := erase outbox.pending entry.1 } →
      pushed ∈ words stringify [] outbox := by
    intro inside
    obtain ⟨other, listed, rfl⟩ := mem_words_queue.1 inside
    exact mem_words_queue.2 ⟨other, (mem_filter.1 listed).1, rfl⟩
  unfold flushEntry at member
  dsimp only at member
  split at member
  case isTrue => exact .inl (fewer member)
  case isFalse =>
    split at member
    case h_1 =>
      obtain old | sent := send_words member
      · exact .inl (fewer old)
      · exact .inr sent
    case h_2 =>
      obtain rfl | queued := mem_cons.1 member
      · exact .inr (.inl rfl)
      · exact .inl (fewer queued)

theorem flushEntries_words {step : Nat} {entries : InsertionMap Slot (PendingPush Body Line)}
    (member : pushed ∈ words stringify (flushEntries stringify socket step outbox entries).written
      (flushEntries stringify socket step outbox entries).outbox) :
    pushed ∈ words stringify [] outbox ∨ (∃ entry ∈ entries, entry.2.pushed stringify = pushed) ∨
      pushed.message.fields.state? = none := by
  induction entries generalizing step outbox with
  | nil => exact .inl member
  | cons entry rest ih =>
    have first : ∀ {pushed : Pushed Body Line},
        pushed ∈ words stringify (flushEntry stringify socket step outbox entry).written
          (flushEntry stringify socket step outbox entry).outbox →
        pushed ∈ words stringify [] outbox ∨
          (∃ other ∈ entry :: rest, other.2.pushed stringify = pushed) ∨
          pushed.message.fields.state? = none := by
      intro pushed inside
      obtain old | rfl | lossless := flushEntry_words inside
      · exact .inl old
      · exact .inr (.inl ⟨entry, mem_cons_self, rfl⟩)
      · exact .inr (.inr lossless)
    unfold flushEntries at member
    dsimp only at member
    split at member
    case isFalse => exact first member
    case isTrue =>
      unfold words at member
      rw [append_assoc] at member
      obtain early | late := mem_append.1 member
      · exact first (mem_append_left _ early)
      · obtain queued | ⟨other, inside, rfl⟩ | lossless := ih late
        · exact first (mem_append_right _ queued)
        · exact .inr (.inl ⟨other, mem_cons_of_mem _ inside, rfl⟩)
        · exact .inr (.inr lossless)

/-- Where the lines that an event writes or leaves queued come from. -/
theorem serve_words {connection : Connection Body Line} {event : Event Body Line}
    (member : pushed ∈ words stringify (serve stringify socket connection event).2
      (serve stringify socket connection event).1.outbox) :
    pushed ∈ words stringify [] connection.outbox ∨
      (∃ frame serialized, event = .send frame serialized ∧
        pushed = write stringify (.frame frame) serialized) ∨
      pushed.message.fields.state? = none := by
  cases event with
  | send frame serialized =>
    unfold serve sendOutbound at member
    dsimp only at member
    split at member
    case isTrue => exact .inl member
    case isFalse =>
      obtain old | sent | lossless := send_words member
      · exact .inl old
      · exact .inr (.inl ⟨frame, serialized, rfl, sent⟩)
      · exact .inr (.inr lossless)
  | drain =>
    obtain old | ⟨entry, listed, rfl⟩ | lossless := flushEntries_words member
    · exact .inl old
    · exact .inl (mem_words_queue.2 ⟨entry, listed, rfl⟩)
    · exact .inr (.inr lossless)
  | removeSubscription subscriptionId =>
    obtain ⟨entry, listed, rfl⟩ := mem_words_queue.1 member
    exact .inl (mem_words_queue.2 ⟨entry, (mem_filter.1 listed).1, rfl⟩)

theorem run_words {connection : Connection Body Line} {events : List (Event Body Line)}
    (member : pushed ∈ words stringify (run (serve stringify socket) connection events).2
      (run (serve stringify socket) connection events).1.outbox) :
    pushed ∈ words stringify [] connection.outbox ∨
      (∃ frame serialized, .send frame serialized ∈ events ∧
        pushed = write stringify (.frame frame) serialized) ∨
      pushed.message.fields.state? = none := by
  induction events generalizing connection with
  | nil => exact .inl member
  | cons event rest ih =>
    have first : ∀ {pushed : Pushed Body Line},
        pushed ∈ words stringify (serve stringify socket connection event).2
          (serve stringify socket connection event).1.outbox →
        pushed ∈ words stringify [] connection.outbox ∨
          (∃ frame serialized, .send frame serialized ∈ event :: rest ∧
            pushed = write stringify (.frame frame) serialized) ∨
          pushed.message.fields.state? = none := by
      intro pushed inside
      obtain old | ⟨frame, serialized, rfl, rfl⟩ | lossless := serve_words inside
      · exact .inl old
      · exact .inr (.inl ⟨frame, serialized, mem_cons_self, rfl⟩)
      · exact .inr (.inr lossless)
    rw [run_cons] at member
    unfold words at member
    rw [append_assoc] at member
    obtain early | late := mem_append.1 member
    · exact first (mem_append_left _ early)
    · obtain queued | ⟨frame, serialized, inside, rfl⟩ | lossless := ih late
      · exact first (mem_append_right _ queued)
      · exact .inr (.inl ⟨frame, serialized, mem_cons_of_mem _ inside, rfl⟩)
      · exact .inr (.inr lossless)

end Origins

section Others

theorem place_elsewhere {accepts drainPending : Bool} {message : Message Body}
    {serialized : Option Line} {slot : Slot}
    (apart : ∀ key, message.fields.state? = some key → Slot.state key ≠ slot)
    (older : Slot.sequence (outbox.sequence + 1) ≠ slot) :
    get? (place stringify outbox accepts message drainPending serialized).outbox.pending slot =
      get? outbox.pending slot := by
  unfold place
  split
  case isTrue =>
    unfold enqueue
    dsimp only
    split
    case h_1 key state => exact get?_put_of_ne _ (apart key state) _
    case h_2 => exact get?_put_of_ne _ older _
  case isFalse => rfl

/-- A send leaves the entries of other states as they are. -/
theorem send_elsewhere {writableLength : Nat} {accepts drainPending : Bool} {message : Message Body}
    {serialized : Option Line} {slot : Slot}
    (apart : ∀ key, message.fields.state? = some key → Slot.state key ≠ slot)
    (older : Slot.sequence (outbox.sequence + 1) ≠ slot) :
    get? (send stringify writableLength accepts outbox message drainPending
      serialized).outbox.pending slot = get? outbox.pending slot := by
  have number : (refreshed writableLength outbox).sequence = outbox.sequence := by
    unfold refreshed
    split
    · rfl
    · rfl
  by_cases overflows : Overflows writableLength message.fields
  · have state := state?_of_overflows overflows
    have others : ∀ key, message.fields.state? = some key →
        get? (dropped writableLength outbox key).pending slot = get? outbox.pending slot := by
      intro key named
      unfold dropped
      dsimp only
      rw [get?_erase, if_neg (apart key named), refreshed_pending]
    rw [send_of_overflows overflows accepts outbox drainPending serialized state]
    split
    case isTrue => exact others _ state
    case isFalse =>
      rw [place_elsewhere]
      · exact others _ state
      · intro key named
        simp [Message.fields, Fields.state?] at named
      · change Slot.sequence ((refreshed writableLength outbox).sequence + 1) ≠ slot
        rw [number]
        exact older
  · rw [send_of_fits overflows, place_elsewhere apart, refreshed_pending]
    rw [number]
    exact older

end Others

section Delivery

/-- The lossless frames that are sent, with their lines. -/
def sentLossless (stringify : Message Body → Line) (events : List (Event Body Line)) :
    List (Frame Body × Line) :=
  events.filterMap fun event =>
    match event with
    | .send frame serialized => (write stringify (.frame frame) serialized).lossless
    | _ => none

/-- The newest frame of a state, after one more event. -/
def newerSent (stringify : Message Body → Line) (key : String) (newest : Option (Frame Body × Line))
    (event : Event Body Line) : Option (Frame Body × Line) :=
  match event with
  | .send frame serialized =>
    if (Message.frame frame).fields.state? = some key then
      some (frame, (write stringify (.frame frame) serialized).line)
    else newest
  | .drain => newest
  | .removeSubscription subscriptionId =>
    newest.filter fun sent => (Message.frame sent.1).fields.subscriptionId ≠ some subscriptionId

/-- The newest frame that was sent of a state, unless its subscription was removed since. -/
def newestSent (stringify : Message Body → Line) (key : String) (events : List (Event Body Line)) :
    Option (Frame Body × Line) :=
  events.foldl (newerSent stringify key) none

/-- What places the frames of one state together. -/
def Fields.place (fields : Fields) :
    Option String × Option String × Option (Option String) × Option String :=
  (fields.subscriptionId, fields.deviceId, fields.deviceSessionUuid, fields.type)

/-- The invariant of a connection over the events it has seen. -/
structure Delivers (stringify : Message Body → Line) (events : List (Event Body Line))
    (connection : Connection Body Line) (written : List (Pushed Body Line)) : Prop where
  kept : Kept stringify written connection.outbox
  quiet : connection.drainPending = false → connection.outbox.pending = []
  lossless : (words stringify written connection.outbox).filterMap Pushed.lossless =
    sentLossless stringify events
  newest : ∀ key sent, newestSent stringify key events = some sent →
    (Message.frame sent.1).fields.state? = some key ∧
      (latest key (words stringify written connection.outbox) = some (some sent) ∨
        latest key (words stringify written connection.outbox) = some none)

theorem delivers_start : Delivers stringify [] ({} : Connection Body Line) [] where
  kept :=
    { distinct := nodup_nil
      numbered := fun _ member => by cases member
      states := fun _ _ member => by cases member
      lossless := fun _ _ member => by cases member
      order := List.Pairwise.nil
      reported := fun _ known => by simp [has, get?] at known
      screens := fun _ known => by simp [has, get?] at known }
  quiet _ := rfl
  lossless := rfl
  newest _ _ known := by cases known

theorem place_of_key {one two : Fields} {key : String} (first : one.state? = some key)
    (second : two.state? = some key) : one.place = two.place := by
  have shape : ∀ fields : Fields, fields.state? = some key → ∃ type, fields.type = some type ∧
        stateKey fields.subscriptionId fields.deviceId fields.deviceSessionUuid type = key := by
    intro fields state
    unfold Fields.state? at state
    split at state
    case h_1 => contradiction
    case h_2 type known =>
      split at state
      case isTrue => exact ⟨type, known, Option.some.inj state⟩
      case isFalse => contradiction
  obtain ⟨type, known, same⟩ := shape one first
  obtain ⟨type', known', same'⟩ := shape two second
  obtain ⟨subscriptions, devices, epochs, types⟩ := stateKey_injective (same.trans same'.symm)
  unfold Fields.place
  rw [known, known', subscriptions, devices, epochs, types]

variable {socket : Socket}

theorem Delivers.next (alive : ∀ step, socket.destroyed step = false)
    {events : List (Event Body Line)} {connection : Connection Body Line}
    (delivers : Delivers stringify events connection written) (event : Event Body Line) :
    Delivers stringify (events ++ [event]) (serve stringify socket connection event).1
      (written ++ (serve stringify socket connection event).2) := by
  have sentNow : sentLossless stringify (events ++ [event]) =
      sentLossless stringify events ++ sentLossless stringify [event] := filterMap_append
  have newestNow : ∀ key, newestSent stringify key (events ++ [event]) =
      newerSent stringify key (newestSent stringify key events) event := by
    intro key
    unfold newestSent
    rw [foldl_append]
    rfl
  cases event with
  | send frame serialized =>
    have served : serve stringify socket connection (.send frame serialized) =
        sendOutbound stringify socket connection frame serialized := rfl
    unfold sendOutbound at served
    rw [alive, if_neg Bool.false_ne_true] at served
    obtain ⟨kept, accepts, quiet⟩ := @send_spec _ _ stringify written connection.outbox
      (socket.writableLength connection.steps) (socket.accepts connection.steps)
      connection.drainPending frame serialized delivers.kept delivers.quiet
    rw [served]
    constructor
    case kept => exact kept
    case quiet =>
      intro idle
      apply quiet
      exact (Bool.or_eq_false_iff.1 idle).1
    case lossless =>
      have now : sentLossless stringify [.send frame serialized] =
          (write stringify (.frame frame) serialized).lossless.toList := by
        unfold sentLossless
        cases lossless : (write stringify (.frame frame) serialized).lossless with
        | none => simp [lossless]
        | some sent => simp [lossless]
      rw [sentNow, now, ← delivers.lossless]
      exact accepts.lossless
    case newest =>
      intro key sent known
      rw [newestNow] at known
      unfold newerSent at known
      dsimp only at known
      split at known
      case isTrue state =>
        obtain rfl := Option.some.inj known
        refine ⟨state, ?_⟩
        have told := accepts.newest key state
        have about : (write stringify (.frame frame) serialized).about key =
            some (some (frame, (write stringify (.frame frame) serialized).line)) := by
          rw [about_of_state state, if_pos rfl]
          rfl
        rw [about] at told
        exact told
      case isFalse other =>
        obtain ⟨state, newest⟩ := delivers.newest key sent known
        refine ⟨state, ?_⟩
        obtain same | dropped := accepts.others key other
        · exact newest.imp same.trans same.trans
        · exact .inr dropped
  | drain =>
    obtain ⟨kept, tells, empty⟩ := @flush_spec _ _ stringify written connection.outbox socket alive
      connection.steps delivers.kept
    constructor
    case kept => exact kept
    case quiet =>
      intro idle
      exact empty (by simpa [serve, drained] using idle)
    case lossless =>
      rw [sentNow]
      exact tells.lossless.trans (congrArg (· ++ []) delivers.lossless)
    case newest =>
      intro key sent known
      rw [newestNow] at known
      obtain ⟨state, told⟩ := delivers.newest key sent known
      refine ⟨state, ?_⟩
      obtain same | dropped := tells.told key
      · exact told.imp same.trans same.trans
      · exact .inr dropped
  | removeSubscription subscriptionId =>
    obtain ⟨kept, lossless, told⟩ := removeSubscription_spec subscriptionId delivers.kept
    have same : written ++ (serve stringify socket connection
        (.removeSubscription subscriptionId)).2 = written := append_nil _
    rw [same]
    constructor
    case kept => exact kept
    case quiet =>
      intro idle
      have empty := delivers.quiet idle
      change (removeSubscription connection.outbox subscriptionId).pending = []
      simp [removeSubscription, empty]
    case lossless =>
      rw [sentNow]
      exact lossless.trans (delivers.lossless.trans (append_nil _).symm)
    case newest =>
      intro key sent known
      rw [newestNow] at known
      obtain ⟨known, other⟩ := Option.filter_eq_some_iff.1 known
      obtain ⟨state, newest⟩ := delivers.newest key sent known
      refine ⟨state, ?_⟩
      have stays := told key fun entry member => by
        obtain ⟨queued, owner⟩ := delivers.kept.states key entry member
        have places := place_of_key queued state
        have owners : entry.message.fields.subscriptionId =
            (Message.frame sent.1).fields.subscriptionId := congrArg Prod.fst places
        rw [owner, owners]
        simpa using other
      exact newest.imp stays.trans stays.trans

theorem delivers_run (alive : ∀ step, socket.destroyed step = false)
    (events : List (Event Body Line)) :
    Delivers stringify events (run (serve stringify socket) {} events).1
      (run (serve stringify socket) {} events).2 := by
  induction events using List.reverseRecOn with
  | nil => exact delivers_start
  | append_singleton events event ih =>
    have next := ih.next alive event
    rw [run_append]
    simpa [run] using next

/-- After a removal, what is written of the subscription's states was sent since. -/
theorem written_since_removal (alive : ∀ step, socket.destroyed step = false)
    {subscriptionId : String} {before after : List (Event Body Line)} {pushed : Pushed Body Line}
    (member : pushed ∈ (run (serve stringify socket)
      (run (serve stringify socket) {} (before ++ [.removeSubscription subscriptionId])).1
        after).2) (state : pushed.message.fields.state? ≠ none)
    (owner : pushed.message.fields.subscriptionId = some subscriptionId) :
    ∃ frame serialized, .send frame serialized ∈ after ∧
      pushed = write stringify (.frame frame) serialized := by
  obtain queued | sent | lossless := run_words (mem_append_left _ member)
  · exfalso
    have delivers := @delivers_run _ _ stringify _ alive before
    obtain ⟨entry, listed, rfl⟩ := mem_words_queue.1 queued
    rw [run_append] at listed
    obtain ⟨inside, keeps⟩ := mem_filter.1 listed
    obtain ⟨slot, entry⟩ := entry
    cases slot with
    | sequence number => exact state (delivers.kept.lossless number entry inside)
    | state key =>
      obtain ⟨_, owned⟩ := delivers.kept.states key entry inside
      dsimp only at keeps
      rw [owned] at keeps
      have other : entry.message.fields.subscriptionId ≠ some subscriptionId := by simpa using keeps
      exact absurd owner other
  · exact sent
  · exact absurd lossless state

/-- A frame changes no queued frame of another subscription, device, epoch or type. -/
theorem queued_of_others {connection : Connection Body Line}
    (kept : Kept stringify written connection.outbox) {frame : Frame Body}
    {serialized : Option Line} {slot : Slot} {entry : PendingPush Body Line}
    (queued : get? connection.outbox.pending slot = some entry)
    (apart : entry.message.fields.place ≠ (Message.frame frame).fields.place) :
    get? (serve stringify socket connection (.send frame serialized)).1.outbox.pending slot =
      some entry := by
  unfold serve sendOutbound
  dsimp only
  split
  case isTrue => exact queued
  case isFalse =>
    rw [← queued]
    apply send_elsewhere
    · rintro key state rfl
      obtain ⟨stored, _⟩ := kept.states key entry (mem_of_get? queued)
      exact apart (place_of_key stored state)
    · rintro rfl
      have bound := kept.numbered _ ((mem_keys_iff _ _).2 ⟨entry, queued⟩)
      omega

/-- A connection whose socket lives delivers: the lossless frames are written in the order in which
they were sent, each once, and the others are queued; once the queue is empty, the last that was
written of a state is its newest frame or the notice of a drop, unless its subscription was
removed; after that removal no older state of the subscription is written; and frames that differ
in subscription, device, epoch or type leave each other alone. -/
theorem outbox_delivers {socket : Socket} (alive : ∀ step, socket.destroyed step = false)
    (stringify : Message Body → Line) (events : List (Event Body Line)) :
    let done := run (serve stringify socket) {} events
    done.2.filterMap Pushed.lossless ++
        (done.1.outbox.pending.map fun entry => entry.2.pushed stringify).filterMap
          Pushed.lossless = sentLossless stringify events ∧
    (∀ key sent, newestSent stringify key events = some sent → done.1.outbox.pending = [] →
      latest key done.2 = some (some sent) ∨ latest key done.2 = some none) ∧
    (∀ subscriptionId before after, events = before ++ .removeSubscription subscriptionId :: after →
      ∀ pushed ∈ (run (serve stringify socket)
        (run (serve stringify socket) {} (before ++ [.removeSubscription subscriptionId])).1
          after).2,
      pushed.message.fields.state? ≠ none →
      pushed.message.fields.subscriptionId = some subscriptionId →
      ∃ frame serialized, .send frame serialized ∈ after ∧
        pushed = write stringify (.frame frame) serialized) ∧
    (∀ frame serialized slot entry, get? done.1.outbox.pending slot = some entry →
      entry.message.fields.place ≠ (Message.frame frame).fields.place →
      get? (serve stringify socket done.1 (.send frame serialized)).1.outbox.pending slot =
        some entry) := by
  have delivers := @delivers_run _ _ stringify _ alive events
  refine ⟨?_, ?_, ?_, ?_⟩
  · rw [← delivers.lossless, words, filterMap_append]
  · intro key sent known empty
    have told := (delivers.newest key sent known).2
    simpa [words, empty] using told
  · intro subscriptionId before after _ pushed member state owner
    exact written_since_removal alive member state owner
  · intro frame serialized slot entry queued apart
    exact queued_of_others delivers.kept queued apart

end Delivery

section Removed

/-- A socket that takes one line and then none before the drain. It may be destroyed then. -/
def slowSocket (destroyedAtDrain : Bool) : Socket where
  writableLength _ := 0
  destroyed step := destroyedAtDrain && step == 2
  accepts step := step != 0

def frameOf (type : String) (value : Nat) : Frame Nat where
  hasId := false
  hasRequestId := false
  type := .text type
  subscriptionId := .text "sub"
  deviceId := .undefined
  deviceSessionUuid := .undefined
  body := value

def telemetry (value : Nat) : Frame Nat := frameOf "telemetry_push" value
def hierarchy (value : Nat) : Frame Nat := frameOf "hierarchy_update" value

/-- A lossless line that waits is written after its subscription was removed; a socket that is
destroyed before the drain takes it from the queue and does not write it. -/
theorem lossless_outlives_subscription : (run (serve id (slowSocket false))
      (run (serve id (slowSocket false)) {}
        [.send (telemetry 1) none, .send (telemetry 2) none, .removeSubscription "sub"]).1
      [.drain]).2 = [⟨.frame (telemetry 2), .frame (telemetry 2)⟩] ∧
    (run (serve id (slowSocket true)) {}
      [.send (telemetry 1) none, .send (telemetry 2) none, .drain]).2 =
        [⟨.frame (telemetry 1), .frame (telemetry 1)⟩] ∧
    (run (serve id (slowSocket true)) {}
      [.send (telemetry 1) none, .send (telemetry 2) none, .drain]).1.outbox.pending = [] := by
  decide +kernel

/-- Two lossless lines and two hierarchies on a socket that lives. -/
theorem outbox_delivers_slow :
    let events : List (Event Nat (Message Nat)) :=
      [.send (telemetry 1) none, .send (hierarchy 2) none, .send (hierarchy 3) none,
        .send (telemetry 4) none, .drain]
    let done := run (serve id (slowSocket false)) {} events
    let key := stateKey (some "sub") none none "hierarchy_update"
    done.2.filterMap Pushed.lossless ++
        (done.1.outbox.pending.map fun entry => entry.2.pushed id).filterMap Pushed.lossless =
      [(telemetry 1, .frame (telemetry 1)), (telemetry 4, .frame (telemetry 4))] ∧
    (latest key done.2 = some (some (hierarchy 3, .frame (hierarchy 3))) ∨
      latest key done.2 = some none) := by
  intro events done key
  obtain ⟨lossless, newest, _⟩ := @outbox_delivers _ _ (slowSocket false) (fun _ => rfl) id events
  exact ⟨lossless, newest key _ (by decide +kernel) (by decide +kernel)⟩

end Removed

end AutoMobile.PushOutbox
