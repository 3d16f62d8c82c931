import AutoMobile.PushOutboxWords

/- What a send, a flush and a removal make of the words of an outbox. -/
namespace AutoMobile.PushOutbox

open List hiding keys
open InsertionMap

variable {Body Line : Type} {stringify : Message Body → Line} {written : List (Pushed Body Line)}
  {outbox : Outbox Body Line}

/-- The marks of dropped frames, after the look at the socket that each send begins with. -/
def refreshed (writableLength : Nat) (outbox : Outbox Body Line) : Outbox Body Line :=
  if writableLength ≤ PUSH_SOCKET_WRITABLE_LIMIT_BYTES then { outbox with reportedDrops := [] }
  else outbox

theorem Kept.refreshed (kept : Kept stringify written outbox) (writableLength : Nat) :
    Kept stringify written (refreshed writableLength outbox) := by
  unfold PushOutbox.refreshed
  split
  · exact kept.clear
  · exact kept

theorem refreshed_pending (writableLength : Nat) (outbox : Outbox Body Line) :
    (refreshed writableLength outbox).pending = outbox.pending := by
  unfold refreshed
  split
  · rfl
  · rfl

theorem words_refreshed (writableLength : Nat) :
    words stringify written (refreshed writableLength outbox) = words stringify written outbox := by
  unfold words
  rw [refreshed_pending]

/-- A screenshot that is dropped at this length of the socket's buffer. -/
def Overflows (writableLength : Nat) (fields : Fields) : Prop :=
  fields.type = some "screenshot_update" ∧ fields.correlated = false ∧
    writableLength > PUSH_SOCKET_WRITABLE_LIMIT_BYTES

theorem state?_of_overflows {writableLength : Nat} {fields : Fields}
    (overflows : Overflows writableLength fields) :
    fields.state? = some (stateKey fields.subscriptionId fields.deviceId fields.deviceSessionUuid
      "screenshot_update") := by
  unfold Fields.state?
  rw [overflows.1]
  simp [overflows.2.1]

/-- Only screenshots are reported, and none that is sent within the limit. -/
theorem unreported_of_fits {writableLength : Nat} {fields : Fields} {key : String}
    (kept : Kept stringify written outbox) (fits : ¬ Overflows writableLength fields)
    (state : fields.state? = some key) :
    has (refreshed writableLength outbox).reportedDrops key = false := by
  by_contra known
  rw [Bool.not_eq_false] at known
  unfold refreshed at known
  split at known
  case isTrue => simp [has, get?] at known
  case isFalse full =>
    obtain ⟨subscriptionId, deviceId, epoch, same⟩ := kept.screens key known
    unfold Fields.state? at state
    split at state
    case h_1 => contradiction
    case h_2 type shape =>
      split at state
      case isFalse => contradiction
      case isTrue replaceable =>
        obtain ⟨_, _, _, screenshot⟩ := stateKey_injective ((Option.some.inj state).trans same)
        subst screenshot
        apply fits
        refine ⟨shape, by simpa using replaceable, ?_⟩
        omega

/-- The frame of a state that is not dropped, or a lossless one. -/
theorem place_frame {accepts drainPending : Bool} {frame : Frame Body} {serialized : Option Line}
    (kept : Kept stringify written outbox) (quiet : drainPending = false → outbox.pending = [])
    (unreported : ∀ key, (Message.frame frame).fields.state? = some key →
      has outbox.reportedDrops key = false) :
    let sent := place stringify outbox accepts (.frame frame) drainPending serialized
    Kept stringify (written ++ sent.written) sent.outbox ∧ Accepts (words stringify written outbox)
        (words stringify (written ++ sent.written) sent.outbox)
        (write stringify (.frame frame) serialized) ∧
      (drainPending = false → sent.outbox.pending = []) := by
  cases state : (Message.frame frame).fields.state? with
  | some key => exact place_state kept quiet state (unreported key state)
  | none =>
    have silent : ∀ key, (write stringify (.frame frame) serialized).about key = none :=
      fun key => about_of_other ⟨frame, rfl⟩ (by rw [show (write stringify (.frame frame)
        serialized).message = .frame frame from rfl, state]; simp)
    obtain ⟨after, last, empty⟩ := @place_lossless _ _ _ _ _ accepts _ _ serialized kept quiet state
      (fun key _ => silent key) fun key _ => .inl (silent key)
    refine ⟨after, ?_, empty⟩
    rw [last]
    exact Accepts.of_append ⟨frame, rfl⟩

theorem place_report (drops : InsertionMap String (Option String)) (accepts drainPending : Bool)
    (message : Message Body) (serialized : Option Line) :
    place stringify { outbox with reportedDrops := drops } accepts message drainPending serialized =
      { place stringify outbox accepts message drainPending serialized with
        outbox :=
          { (place stringify outbox accepts message drainPending serialized).outbox with
            reportedDrops := drops } } := by
  unfold place
  split
  case isTrue =>
    unfold enqueue
    dsimp only
    split
    · rfl
    · rfl
  case isFalse => rfl

theorem place_drops (accepts drainPending : Bool) (message : Message Body)
    (serialized : Option Line) :
    (place stringify outbox accepts message drainPending serialized).outbox.reportedDrops =
      outbox.reportedDrops := by
  unfold place
  split
  case isTrue =>
    unfold enqueue
    dsimp only
    split
    · rfl
    · rfl
  case isFalse => rfl

/-- The notice that frames of a state were dropped is the last that is told of it. -/
theorem place_notice {accepts drainPending : Bool} {subscriptionId deviceId : Option String}
    {epoch : Option (Option String)} (kept : Kept stringify written outbox)
    (quiet : drainPending = false → outbox.pending = [])
    (dropped : .state (stateKey subscriptionId deviceId epoch "screenshot_update") ∉
      keys outbox.pending) :
    let sent := place stringify
      { outbox with
        reportedDrops := put outbox.reportedDrops
          (stateKey subscriptionId deviceId epoch "screenshot_update") subscriptionId }
      accepts (.frames_dropped subscriptionId deviceId epoch) drainPending none
    Kept stringify (written ++ sent.written) sent.outbox ∧
      words stringify (written ++ sent.written) sent.outbox = words stringify written outbox ++
          [write stringify (.frames_dropped subscriptionId deviceId epoch) none] ∧
      (drainPending = false → sent.outbox.pending = []) := by
  let notice : Message Body := .frames_dropped subscriptionId deviceId epoch
  have about : ∀ key, (write stringify notice none).about key =
      if stateKey subscriptionId deviceId epoch "screenshot_update" = key then some none else none :=
    fun _ => rfl
  have silent : ∀ key, .state key ∈ keys outbox.pending →
      (write stringify notice none).about key = none := by
    intro key member
    rw [about, if_neg]
    rintro rfl
    exact dropped member
  have reported : ∀ key, (write stringify notice none).about key = none ∨
      (write stringify notice none).about key = some none := by
    intro key
    rw [about]
    split
    · exact .inr rfl
    · exact .inl rfl
  have stateless : notice.fields.state? = none := by simp [notice, Message.fields, Fields.state?]
  obtain ⟨after, last, empty⟩ := @place_lossless _ _ _ _ _ accepts drainPending notice none kept quiet
    stateless silent fun key _ => reported key
  have told : latest (stateKey subscriptionId deviceId epoch "screenshot_update")
      (words stringify (written ++ (place stringify outbox accepts notice drainPending none).written)
        (place stringify outbox accepts notice drainPending none).outbox) = some none := by
    rw [last, latest_append, latest_cons, latest_nil, about, if_pos rfl]
    rfl
  have marked := after.report subscriptionId told
  rw [place_drops] at marked
  dsimp only
  rw [place_report]
  exact ⟨marked, last, empty⟩

/-- The queue without the state whose frame overflows. -/
def dropped (writableLength : Nat) (outbox : Outbox Body Line) (key : String) : Outbox Body Line :=
  { refreshed writableLength outbox with
    pending := erase (refreshed writableLength outbox).pending (.state key) }

theorem send_of_overflows {writableLength : Nat} {message : Message Body}
    (overflows : Overflows writableLength message.fields) (accepts : Bool)
    (outbox : Outbox Body Line) (drainPending : Bool) (serialized : Option Line) {key : String}
    (state : message.fields.state? = some key) :
    send stringify writableLength accepts outbox message drainPending serialized =
      if has (dropped writableLength outbox key).reportedDrops key then
        ⟨dropped writableLength outbox key, [], !drainPending⟩
      else
        place stringify
          { dropped writableLength outbox key with
            reportedDrops := put (dropped writableLength outbox key).reportedDrops
              (stateKey message.fields.subscriptionId message.fields.deviceId
                message.fields.deviceSessionUuid "screenshot_update")
              message.fields.subscriptionId }
          accepts (.frames_dropped message.fields.subscriptionId message.fields.deviceId
            message.fields.deviceSessionUuid) drainPending none := by
  obtain rfl := Option.some.inj (state.symm.trans (state?_of_overflows overflows))
  unfold send
  exact if_pos overflows

theorem send_of_fits {writableLength : Nat} {message : Message Body}
    (fits : ¬ Overflows writableLength message.fields) (accepts : Bool)
    (outbox : Outbox Body Line) (drainPending : Bool) (serialized : Option Line) :
    send stringify writableLength accepts outbox message drainPending serialized =
      place stringify (refreshed writableLength outbox) accepts message drainPending
        serialized := by
  unfold send
  exact if_neg fits

/-- One send takes the frame over into the words. -/
theorem send_spec {writableLength : Nat} {accepts drainPending : Bool} {frame : Frame Body}
    {serialized : Option Line} (kept : Kept stringify written outbox)
    (quiet : drainPending = false → outbox.pending = []) :
    let sent := send stringify writableLength accepts outbox (.frame frame) drainPending serialized
    Kept stringify (written ++ sent.written) sent.outbox ∧ Accepts (words stringify written outbox)
        (words stringify (written ++ sent.written) sent.outbox)
        (write stringify (.frame frame) serialized) ∧
      (drainPending = false → sent.outbox.pending = []) := by
  have fresh := kept.refreshed writableLength
  have same := @words_refreshed _ _ stringify written outbox writableLength
  have quiet' : drainPending = false → (refreshed writableLength outbox).pending = [] := by
    rw [refreshed_pending]
    exact quiet
  rw [← same]
  by_cases overflows : Overflows writableLength (Message.frame frame).fields
  · have state := state?_of_overflows overflows
    let key := stateKey (Message.frame frame).fields.subscriptionId
      (Message.frame frame).fields.deviceId (Message.frame frame).fields.deviceSessionUuid
      "screenshot_update"
    let dropped := dropped writableLength outbox key
    obtain ⟨keptDropped, lossless, told⟩ := @Kept.filter _ _ _ _ _ fresh dropped
      (fun entry => entry.1 ≠ .state key) rfl rfl (fun _ known => known)
      fun entry _ gone => ⟨key, by simpa using gone⟩
    have others : ∀ other, other ≠ key → latest other (words stringify written dropped) =
        latest other (words stringify written (refreshed writableLength outbox)) := by
      intro other apart
      apply told
      intro entry _
      simp [apart]
    have gone : .state key ∉ keys dropped.pending := by
      rw [← get?_eq_none_iff]
      exact (get?_erase _ _ _).trans (if_pos rfl)
    have quietDropped : drainPending = false → dropped.pending = [] := fun idle => by
      have empty := quiet' idle
      simp [dropped, PushOutbox.dropped, empty, erase]
    have framed : (write stringify (.frame frame) serialized).lossless = none :=
      lossless_of_state state
    rw [send_of_overflows overflows accepts outbox drainPending serialized state]
    by_cases reported : has dropped.reportedDrops key = true
    · rw [if_pos reported]
      dsimp only
      rw [append_nil]
      refine ⟨keptDropped, ⟨?_, ?_, ?_⟩, quietDropped⟩
      · rw [framed]
        exact lossless.trans (append_nil _).symm
      · intro other isState
        obtain rfl := Option.some.inj (state.symm.trans isState)
        exact .inr (keptDropped.reported key reported)
      · intro other apart
        refine .inl (others other ?_)
        rintro rfl
        exact apart state
    · rw [if_neg reported]
      obtain ⟨after, last, empty⟩ := @place_notice _ _ _ _ _ accepts _ _ _ _ keptDropped
        quietDropped gone
      refine ⟨after, ⟨?_, ?_, ?_⟩, empty⟩
      · rw [last, framed, filterMap_append, lossless]
        rfl
      · intro other isState
        obtain rfl := Option.some.inj (state.symm.trans isState)
        right
        rw [last, latest_append, latest_cons, latest_nil]
        simp [write, Pushed.about]
      · intro other apart
        have away : ¬ key = other := by
          rintro rfl
          exact apart state
        left
        rw [last, latest_append, latest_cons, latest_nil, ← others other fun same => away same.symm]
        have silent : (write stringify (.frames_dropped (Message.frame frame).fields.subscriptionId
            (Message.frame frame).fields.deviceId
            (Message.frame frame).fields.deviceSessionUuid) none).about other = none := if_neg away
        rw [silent, Option.none_or, Option.none_or]
  · rw [send_of_fits overflows]
    apply place_frame fresh quiet'
    intro key state
    exact unreported_of_fits kept overflows state

section Flush

variable {entry : Slot × PendingPush Body Line} {rest : InsertionMap Slot (PendingPush Body Line)}

/-- The first entry leaves the queue, and its line is written, or that frames were dropped. -/
theorem Kept.dequeue (kept : Kept stringify written outbox) (split : outbox.pending = entry :: rest)
    {pushed : Pushed Body Line} (lossless : pushed.lossless = (entry.2.pushed stringify).lossless)
    (told : ∀ key, pushed.about key = (entry.2.pushed stringify).about key ∨
      (pushed.about key = some none ∧
        ∀ later ∈ rest, (later.2.pushed stringify).about key = none)) :
    Kept stringify (written ++ [pushed]) { outbox with pending := rest } ∧
      Extends (words stringify written outbox)
        (words stringify (written ++ [pushed]) { outbox with pending := rest }) [] := by
  have before : words stringify written outbox =
      written ++ entry.2.pushed stringify :: rest.map fun entry => entry.2.pushed stringify := by
    rw [words, split, map_cons]
  have after : words stringify (written ++ [pushed]) { outbox with pending := rest } =
      written ++ pushed :: rest.map fun entry => entry.2.pushed stringify := by
    rw [words, append_assoc, singleton_append]
  have latests : ∀ key,
      latest key (words stringify (written ++ [pushed]) { outbox with pending := rest }) =
        latest key (words stringify written outbox) ∨
      latest key (words stringify (written ++ [pushed]) { outbox with pending := rest }) =
        some none := by
    intro key
    rw [before, after, latest_append, latest_append, latest_cons, latest_cons]
    obtain same | ⟨dropped, silent⟩ := told key
    · rw [same]
      exact .inl rfl
    · right
      have quiet : latest key (rest.map fun entry => entry.2.pushed stringify) = none :=
        latest_none fun word member => by
          obtain ⟨later, inside, rfl⟩ := mem_map.1 member
          exact silent later inside
      rw [quiet, dropped]
      rfl
  have sublist : rest.Sublist outbox.pending := split ▸ sublist_cons_self _ _
  constructor
  · constructor
    case distinct => exact (sublist.map Prod.fst).nodup kept.distinct
    case numbered =>
      exact fun number member => kept.numbered number ((sublist.map Prod.fst).subset member)
    case states => exact fun key other member => kept.states key other (sublist.subset member)
    case lossless =>
      exact fun number other member => kept.lossless number other (sublist.subset member)
    case order => exact kept.order.sublist sublist
    case reported =>
      intro key known
      obtain same | dropped := latests key
      · exact same.trans (kept.reported key known)
      · exact dropped
    case screens => exact kept.screens
  · refine ⟨?_, latests⟩
    rw [before, after, filterMap_append, filterMap_append, filterMap_cons,
      filterMap_cons, lossless, append_nil]

theorem erase_first (distinct : (keys (entry :: rest)).Nodup) :
    erase (entry :: rest) entry.1 = rest := by
  rw [keys, map_cons, nodup_cons] at distinct
  have gone : erase rest entry.1 = rest := erase_of_fresh distinct.1
  simpa [erase] using gone

/-- One round of a flush. -/
theorem flushEntry_spec {socket : Socket} {step : Nat} (alive : socket.destroyed step = false)
    (kept : Kept stringify written outbox) (split : outbox.pending = entry :: rest) :
    let done := flushEntry stringify socket step outbox entry
    Kept stringify (written ++ done.written) done.outbox ∧ Extends (words stringify written outbox)
        (words stringify (written ++ done.written) done.outbox) [] ∧
      done.outbox.pending = rest := by
  have distinct := kept.distinct
  rw [split] at distinct
  have dequeued : erase outbox.pending entry.1 = rest := by
    rw [split]
    exact erase_first distinct
  obtain ⟨slot, entry⟩ := entry
  unfold flushEntry
  dsimp only at dequeued ⊢
  rw [dequeued, alive, if_neg Bool.false_ne_true]
  have member : (slot, entry) ∈ outbox.pending := by simp [split]
  have whole := kept.dequeue split rfl fun _ => .inl rfl
  cases slot with
  | sequence number => exact ⟨whole.1, whole.2, rfl⟩
  | state key =>
    obtain ⟨state, _⟩ := kept.states key entry member
    obtain ⟨frame, message⟩ := state?_frame state
    dsimp only
    by_cases overflows : Overflows (socket.writableLength step) entry.message.fields
    · have full : refreshed (socket.writableLength step) { outbox with pending := rest } =
          { outbox with pending := rest } := if_neg (Nat.not_le.2 overflows.2.2)
      have others : erase rest (.state key) = rest := by
        rw [keys, map_cons, nodup_cons] at distinct
        exact erase_of_fresh distinct.1
      have same : dropped (socket.writableLength step) { outbox with pending := rest } key =
          { outbox with pending := rest } := by
        unfold dropped
        rw [full]
        dsimp only
        rw [others]
      have unreported : has outbox.reportedDrops key = false :=
        kept.unreported (get?_of_mem kept.distinct member)
      rw [send_of_overflows overflows _ _ _ _ state, same]
      dsimp only
      rw [unreported, if_neg Bool.false_ne_true]
      have named := Option.some.inj (state.symm.trans (state?_of_overflows overflows))
      let notice := write stringify (.frames_dropped entry.message.fields.subscriptionId
        entry.message.fields.deviceId entry.message.fields.deviceSessionUuid) none
      have about : ∀ other, notice.about other = if key = other then some none else none := by
        rw [named]
        exact fun _ => rfl
      have silent : ∀ later ∈ rest, (later.2.pushed stringify).about key = none := by
        have order := kept.order
        rw [split, pairwise_cons] at order
        exact fun later inside => order.1 later inside key rfl
      have framed : (entry.pushed stringify).lossless = none := lossless_of_state state
      obtain ⟨after, tells⟩ := @Kept.dequeue _ _ _ _ _ _ _ kept split notice framed.symm
        fun other => by
          by_cases here : key = other
          · subst here
            exact .inr ⟨by rw [about, if_pos rfl], silent⟩
          · refine .inl ?_
            rw [about, if_neg here, about_of_state state, if_neg here]
      refine ⟨after.report _ ?_, tells, rfl⟩
      rw [← named]
      have rest' : latest key (rest.map fun entry => entry.2.pushed stringify) = none :=
        latest_none fun word listed => by
          obtain ⟨later, inside, rfl⟩ := mem_map.1 listed
          exact silent later inside
      rw [words, latest_append, latest_append, rest', latest_cons, latest_nil, about, if_pos rfl]
      rfl
    · rw [send_of_fits overflows]
      refine ⟨whole.1.refreshed _, ?_, refreshed_pending _ _⟩
      have words := @words_refreshed _ _ stringify (written ++ [entry.pushed stringify])
        { outbox with pending := rest } (socket.writableLength step)
      have extends' := whole.2
      rw [← words] at extends'
      exact extends'

theorem flushEntries_spec {socket : Socket} (alive : ∀ step, socket.destroyed step = false)
    {step : Nat} {entries : InsertionMap Slot (PendingPush Body Line)}
    (kept : Kept stringify written outbox) (all : outbox.pending = entries) :
    let done := flushEntries stringify socket step outbox entries
    Kept stringify (written ++ done.written) done.outbox ∧ Extends (words stringify written outbox)
        (words stringify (written ++ done.written) done.outbox) [] ∧
      (done.ok = true → done.outbox.pending = []) := by
  induction entries generalizing step written outbox with
  | nil =>
    dsimp only [flushEntries]
    rw [append_nil]
    exact ⟨kept, Extends.refl _, fun _ => all⟩
  | cons entry rest ih =>
    obtain ⟨after, tells, queue⟩ := @flushEntry_spec _ _ _ _ _ _ _ socket step (alive step) kept all
    unfold flushEntries
    dsimp only
    split
    case isTrue =>
      obtain ⟨later, told, drained⟩ := @ih _ _ (step + 1) after queue
      dsimp only
      rw [← append_assoc]
      exact ⟨later, tells.trans told, drained⟩
    case isFalse stopped => exact ⟨after, tells, fun went => absurd went stopped⟩

theorem flush_spec {socket : Socket} (alive : ∀ step, socket.destroyed step = false) {step : Nat}
    (kept : Kept stringify written outbox) :
    let done := flush stringify socket step outbox
    Kept stringify (written ++ done.written) done.outbox ∧ Extends (words stringify written outbox)
        (words stringify (written ++ done.written) done.outbox) [] ∧
      (done.ok = true → done.outbox.pending = []) :=
  flushEntries_spec alive kept.clear rfl

end Flush

section Removal

/-- A removal takes from the queue the states of the subscription, and those only. -/
theorem removeSubscription_spec (subscriptionId : String) (kept : Kept stringify written outbox) :
    let after := removeSubscription outbox subscriptionId
    Kept stringify written after ∧ (words stringify written after).filterMap Pushed.lossless =
        (words stringify written outbox).filterMap Pushed.lossless ∧
      ∀ key, (∀ entry, (.state key, entry) ∈ outbox.pending →
          entry.subscriptionId ≠ some subscriptionId) →
        latest key (words stringify written after) =
          latest key (words stringify written outbox) := by
  have drops : ∀ key, has (removeSubscription outbox subscriptionId).reportedDrops key = true →
      has outbox.reportedDrops key = true := by
    intro key known
    rw [has_iff] at known ⊢
    exact (filter_sublist.map Prod.fst).subset known
  have filtered := fun onlyStates => @Kept.filter _ _ _ _ _ kept
    (removeSubscription outbox subscriptionId) _ rfl rfl drops onlyStates
  obtain ⟨after, lossless, told⟩ := filtered (by
    rintro ⟨slot, entry⟩ _ gone
    cases slot with
    | state key => exact ⟨key, rfl⟩
    | sequence number => contradiction)
  refine ⟨after, lossless, fun key stays => told key ?_⟩
  intro entry member
  have elsewhere := stays entry member
  simp [elsewhere]

end Removal

end AutoMobile.PushOutbox
