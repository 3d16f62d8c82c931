import AutoMobile.InsertionMap
import AutoMobile.Runs

/- `StorageSubscriptionLedger`: the storage files a stream wants observed, what the daemon
confirmed of them, and the commands that wait for its answer. -/
namespace AutoMobile.StorageSubscriptions

open List hiding keys
open InsertionMap Runs

section Ledger

structure StorageSubscriptionKey where
  packageName : String
  fileName : String
deriving DecidableEq

structure PendingStorageSubscription where
  requestId : String
  key : StorageSubscriptionKey
  subscribe : Bool
  intentVersion : Nat
  forcedReconciliation : Bool
  connectionGeneration : Nat
deriving DecidableEq

structure StorageSubscriptionLedger where
  desired : List StorageSubscriptionKey := []
  confirmed : List StorageSubscriptionKey := []
  pending : InsertionMap String PendingStorageSubscription := []
  intentVersions : InsertionMap StorageSubscriptionKey Nat := []
  forcedReconciliations : List StorageSubscriptionKey := []
  connection : Nat := 0
deriving DecidableEq

structure StorageResolution where
  command : PendingStorageSubscription
  redrive : Bool
deriving DecidableEq

/-- `LinkedHashSet.add`. -/
def insert (set : List StorageSubscriptionKey) (key : StorageSubscriptionKey) :
    List StorageSubscriptionKey :=
  if set.contains key then set else set ++ [key]

/-- `LinkedHashSet.remove`. -/
def remove (set : List StorageSubscriptionKey) (key : StorageSubscriptionKey) :
    List StorageSubscriptionKey :=
  set.filter fun other => other ≠ key

theorem mem_insert {set : List StorageSubscriptionKey} {key other : StorageSubscriptionKey} :
    other ∈ insert set key ↔ other = key ∨ other ∈ set := by
  unfold insert
  split
  next present =>
    constructor
    · exact Or.inr
    · intro either
      rcases either with same | member
      · rw [same]
        exact contains_iff_mem.mp present
      · exact member
  next =>
    rw [mem_append, mem_singleton]
    exact or_comm

theorem mem_remove {set : List StorageSubscriptionKey} {key other : StorageSubscriptionKey} :
    other ∈ remove set key ↔ other ∈ set ∧ other ≠ key := by
  unfold remove
  rw [mem_filter, decide_eq_true_eq]

def bump (ledger : StorageSubscriptionLedger) (key : StorageSubscriptionKey) :
    StorageSubscriptionLedger :=
  { ledger with
    intentVersions := put ledger.intentVersions key ((get? ledger.intentVersions key).getD 0 + 1) }

/-- Whether a command of the file waits for its answer. -/
def isPending (ledger : StorageSubscriptionLedger) (key : StorageSubscriptionKey) : Bool :=
  (values ledger.pending).any fun command => command.key = key

def desiredKeys (ledger : StorageSubscriptionLedger) : List StorageSubscriptionKey := ledger.desired

def heldKeys (ledger : StorageSubscriptionLedger) : List StorageSubscriptionKey :=
  ledger.desired.filter fun key =>
    ledger.confirmed.contains key && !ledger.forcedReconciliations.contains key &&
      !isPending ledger key

def isDesired (ledger : StorageSubscriptionLedger) (key : StorageSubscriptionKey) : Bool :=
  ledger.desired.contains key

def want (ledger : StorageSubscriptionLedger) (key : StorageSubscriptionKey) :
    StorageSubscriptionLedger × Bool :=
  if ledger.desired.contains key then (ledger, false)
  else (bump { ledger with desired := insert ledger.desired key } key, true)

def unwant (ledger : StorageSubscriptionLedger) (key : StorageSubscriptionKey) :
    StorageSubscriptionLedger × Bool :=
  if ledger.desired.contains key then
    (bump { ledger with desired := remove ledger.desired key } key, true)
  else (ledger, false)

/-- The command that the file needs: to subscribe, to unsubscribe, or none. -/
def direction (ledger : StorageSubscriptionLedger) (key : StorageSubscriptionKey) : Option Bool :=
  let wanted := ledger.desired.contains key
  let held := ledger.confirmed.contains key
  if ledger.forcedReconciliations.contains key then some wanted
  else if wanted && !held then some true
  else if !wanted && held then some false
  else none

def next (ledger : StorageSubscriptionLedger) (key : StorageSubscriptionKey) (requestId : String)
    (connectionGeneration : Nat) :
    StorageSubscriptionLedger × Option PendingStorageSubscription :=
  if isPending ledger key then (ledger, none)
  else
    match direction ledger key with
    | none => (ledger, none)
    | some subscribe =>
      let command : PendingStorageSubscription :=
        { requestId := requestId
          key := key
          subscribe := subscribe
          intentVersion := (get? ledger.intentVersions key).getD 0
          forcedReconciliation := ledger.forcedReconciliations.contains key
          connectionGeneration := connectionGeneration }
      ({ ledger with pending := put ledger.pending requestId command }, some command)

def needsCommand (ledger : StorageSubscriptionLedger) (key : StorageSubscriptionKey) : Bool :=
  !isPending ledger key && (direction ledger key).isSome

def sent (ledger : StorageSubscriptionLedger) (command : PendingStorageSubscription)
    (sent : Bool) : StorageSubscriptionLedger :=
  if !sent then { ledger with pending := erase ledger.pending command.requestId }
  else if command.forcedReconciliation then
    { ledger with forcedReconciliations := remove ledger.forcedReconciliations command.key }
  else ledger

/-- What a command that succeeds does to a set of held files. -/
def carryOut (held : List StorageSubscriptionKey) (command : PendingStorageSubscription) :
    List StorageSubscriptionKey :=
  if command.subscribe then insert held command.key else remove held command.key

def resolve (ledger : StorageSubscriptionLedger) (requestId : String) (success : Bool) :
    StorageSubscriptionLedger × Option StorageResolution :=
  match get? ledger.pending requestId with
  | none => (ledger, none)
  | some command =>
    let confirmed := if success then carryOut ledger.confirmed command else ledger.confirmed
    let intentChanged :=
      decide ((get? ledger.intentVersions command.key).getD 0 ≠ command.intentVersion)
    let forced :=
      if !success && intentChanged then insert ledger.forcedReconciliations command.key
      else ledger.forcedReconciliations
    ({ ledger with
        pending := erase ledger.pending requestId
        confirmed := confirmed
        forcedReconciliations := forced },
      some ⟨command, success || intentChanged⟩)

def daemonSideKeys (ledger : StorageSubscriptionLedger) : List StorageSubscriptionKey :=
  ((values ledger.pending).map fun command => command.key).foldl insert ledger.confirmed

def connectionReset (ledger : StorageSubscriptionLedger) : StorageSubscriptionLedger :=
  { ledger with confirmed := [], pending := [], connection := ledger.connection + 1 }

end Ledger

section Daemon

/-- What the daemon does with a command that succeeds: it takes up an observer, or drops it. -/
def obey (held : List StorageSubscriptionKey) (command : PendingStorageSubscription) :
    List StorageSubscriptionKey :=
  match command.subscribe with
  | true => command.key :: held
  | false => held.filter (command.key ≠ ·)

/-- The ledger beside the daemon: the files it holds an observer for, the commands of the
connection that it has not answered and the ids of all of them, and every id ever used. `changes`
counts the changes of a file's wish, and `issuedAt` how many there were when a command was issued. -/
structure World where
  ledger : StorageSubscriptionLedger := {}
  held : List StorageSubscriptionKey := []
  flight : InsertionMap String PendingStorageSubscription := []
  carried : List String := []
  used : List String := []
  changes : StorageSubscriptionKey → Nat := fun _ => 0
  issuedAt : InsertionMap String Nat := []

inductive Event where
  | want (key : StorageSubscriptionKey)
  | unwant (key : StorageSubscriptionKey)
  | next (key : StorageSubscriptionKey) (requestId : String) (connectionGeneration : Nat)
  | sent (command : PendingStorageSubscription) (sent : Bool)
  | resolve (requestId : String) (success : Bool)
  | connectionReset
deriving DecidableEq

/-- The wish for the file changes. -/
def World.wish (world : World) (key : StorageSubscriptionKey)
    (done : StorageSubscriptionLedger × Bool) : World :=
  { world with
    ledger := done.1
    changes := fun other =>
      if done.2 ∧ other = key then world.changes other + 1 else world.changes other }

/-- The daemon's set changes only where one of the connection's commands succeeds. -/
def step (world : World) : Event → World × List Unit
  | .want key => (world.wish key (want world.ledger key), [])
  | .unwant key => (world.wish key (unwant world.ledger key), [])
  | .next key requestId connectionGeneration =>
    let done := next world.ledger key requestId connectionGeneration
    match done.2 with
    | none => ({ world with ledger := done.1 }, [])
    | some command =>
      ({ world with
          ledger := done.1
          flight := put world.flight requestId command
          carried := requestId :: world.carried
          used := requestId :: world.used
          issuedAt := put world.issuedAt requestId (world.changes key) }, [])
  | .sent command reached =>
    ({ world with
        ledger := sent world.ledger command reached
        flight := if reached then world.flight else erase world.flight command.requestId }, [])
  | .resolve requestId success =>
    ({ world with
        ledger := (resolve world.ledger requestId success).1
        held :=
          match get? world.flight requestId with
          | some command => if success then obey world.held command else world.held
          | none => world.held
        flight := erase world.flight requestId }, [])
  | .connectionReset =>
    ({ world with
        ledger := connectionReset world.ledger
        held := []
        flight := []
        carried := [] }, [])

/-- A command is issued under an id that was never used. -/
def Fresh (world : World) : Event → Prop
  | .next _ requestId _ => requestId ∉ world.used
  | _ => True

instance (world : World) : (event : Event) → Decidable (Fresh world event)
  | .next _ requestId _ => inferInstanceAs (Decidable (requestId ∉ world.used))
  | .want _ | .unwant _ | .sent _ _ | .resolve _ _ | .connectionReset => isTrue trivial

/-- What the daemon may hold before it answers: a command in flight may have been carried out. -/
def MayHold (world : World) (daemon : List StorageSubscriptionKey) : Prop :=
  ∀ key, (∀ command ∈ values world.flight, command.key ≠ key) → (key ∈ daemon ↔ key ∈ world.held)

/-- What the ledger says of the daemon. -/
structure Tracks (world : World) : Prop where
  single : ((values world.ledger.pending).map fun command => command.key).Nodup
  settled : ∀ key, isPending world.ledger key = false →
    (key ∈ world.ledger.confirmed ↔ key ∈ world.held)
  stale : ∀ requestId success, requestId ∉ world.carried →
    resolve world.ledger requestId success = (world.ledger, none)
  below : ∀ daemon, MayHold world daemon → ∀ key ∈ heldKeys world.ledger,
    key ∈ desiredKeys world.ledger ∧ key ∈ daemon
  above : ∀ daemon, MayHold world daemon → ∀ key ∈ daemon, key ∈ daemonSideKeys world.ledger
  rejected : ∀ requestId success resolution,
    (resolve world.ledger requestId success).2 = some resolution → resolution.redrive = false →
    success = false ∧ get? world.issuedAt requestId = some (world.changes resolution.command.key)
  quiet : ∀ key requestId generation, isPending world.ledger key = false →
    (next world.ledger key requestId generation).2 = none →
    (key ∈ desiredKeys world.ledger ↔ key ∈ world.held)

end Daemon

section Invariant

variable {world : World} {ledger : StorageSubscriptionLedger} {key : StorageSubscriptionKey}

theorem isPending_eq_false_iff :
    isPending ledger key = false ↔ ∀ command ∈ values ledger.pending, command.key ≠ key := by
  unfold isPending
  rw [any_eq_false]
  simp

/-- The daemon answers exactly the commands that are pending, each of them was issued in the
connection, under the count of changes that its version is, and the confirmed files are held. -/
structure Sound (world : World) : Prop where
  mirrored : world.ledger.pending = world.flight
  distinct : (keys world.flight).Nodup
  single : ((values world.flight).map fun command => command.key).Nodup
  carried : ∀ requestId ∈ keys world.flight, requestId ∈ world.carried
  used : ∀ requestId ∈ world.carried, requestId ∈ world.used
  confirmed : ∀ key, key ∈ world.ledger.confirmed ↔ key ∈ world.held
  counted : ∀ key, (get? world.ledger.intentVersions key).getD 0 = world.changes key
  issued : ∀ requestId command, get? world.flight requestId = some command →
    get? world.issuedAt requestId = some command.intentVersion

theorem Sound.start : Sound {} := by
  refine ⟨rfl, nodup_nil, nodup_nil, ?_, ?_, ?_, fun _ => rfl, ?_⟩
  · intro requestId member
    cases member
  · intro requestId member
    cases member
  · intro key
    exact Iff.rfl
  · intro requestId command found
    cases found

/-- A wish changes the file's version and its count together. -/
theorem Sound.wish (sound : Sound world) {done : StorageSubscriptionLedger × Bool}
    (pending : done.1.pending = world.ledger.pending)
    (confirmed : done.1.confirmed = world.ledger.confirmed)
    (versions : done.1.intentVersions = if done.2 then
      put world.ledger.intentVersions key ((get? world.ledger.intentVersions key).getD 0 + 1)
      else world.ledger.intentVersions) : Sound (world.wish key done) := by
  refine ⟨pending.trans sound.mirrored, sound.distinct, sound.single, sound.carried, sound.used,
    ?_, ?_, sound.issued⟩
  · intro other
    show other ∈ done.1.confirmed ↔ other ∈ world.held
    rw [confirmed]
    exact sound.confirmed other
  · intro other
    show (get? done.1.intentVersions other).getD 0 =
      if done.2 ∧ other = key then world.changes other + 1 else world.changes other
    rw [versions]
    cases changed : done.2 with
    | false =>
      rw [if_neg (by simp), if_neg (by simp)]
      exact sound.counted other
    | true =>
      rw [if_pos rfl, get?_put]
      by_cases same : key = other
      · subst same
        rw [if_pos rfl, if_pos ⟨rfl, rfl⟩, Option.getD_some, sound.counted]
      · rw [if_neg same, if_neg fun both => same both.2.symm]
        exact sound.counted other

theorem Sound.want (sound : Sound world) : Sound (world.wish key (want world.ledger key)) := by
  unfold StorageSubscriptions.want
  split
  · exact sound.wish rfl rfl rfl
  · exact sound.wish rfl rfl rfl

theorem Sound.unwant (sound : Sound world) : Sound (world.wish key (unwant world.ledger key)) := by
  unfold StorageSubscriptions.unwant
  split
  · exact sound.wish rfl rfl rfl
  · exact sound.wish rfl rfl rfl

/-- What a call of `next` issues. -/
theorem next_cases (ledger : StorageSubscriptionLedger) (key : StorageSubscriptionKey)
    (requestId : String) (generation : Nat) :
    next ledger key requestId generation = (ledger, none) ∨ ∃ command, command.key = key ∧
        command.intentVersion = (get? ledger.intentVersions key).getD 0 ∧
        isPending ledger key = false ∧
        next ledger key requestId generation =
          ({ ledger with pending := put ledger.pending requestId command }, some command) := by
  unfold next
  split
  · exact Or.inl rfl
  next idle =>
    split
    · exact Or.inl rfl
    · exact Or.inr ⟨_, rfl, rfl, by simpa using idle, rfl⟩

variable {requestId : String}

theorem values_put_of_fresh {flight : InsertionMap String PendingStorageSubscription}
    (absent : requestId ∉ keys flight) (command : PendingStorageSubscription) :
    values (put flight requestId command) = values flight ++ [command] := by
  rw [put_of_fresh absent]
  exact map_append

theorem Sound.next (sound : Sound world) (generation : Nat) (fresh : requestId ∉ world.used) :
    Sound (step world (.next key requestId generation)).1 := by
  have absent : requestId ∉ keys world.flight :=
    fun member => fresh (sound.used _ (sound.carried _ member))
  unfold step
  dsimp only
  rcases next_cases world.ledger key requestId generation with
    same | ⟨command, own, version, idle, same⟩
  · rw [same]
    exact sound
  · rw [same]
    refine ⟨?_, nodup_keys_put sound.distinct _ _, ?_, ?_, ?_, sound.confirmed, sound.counted, ?_⟩
    · show put world.ledger.pending requestId command = put world.flight requestId command
      rw [sound.mirrored]
    · show ((values (put world.flight requestId command)).map fun other => other.key).Nodup
      rw [values_put_of_fresh absent, map_append, nodup_append]
      refine ⟨sound.single, nodup_singleton _, ?_⟩
      intro other member last single equal
      obtain ⟨held, there, held_eq⟩ := mem_map.mp member
      rw [isPending_eq_false_iff, sound.mirrored] at idle
      apply idle held there
      have named : last = command.key := mem_singleton.mp single
      rw [held_eq, equal, named, own]
    · intro other member
      rcases mem_keys_put.mp member with there | rfl
      · exact mem_cons_of_mem _ (sound.carried other there)
      · exact mem_cons_self
    · intro other member
      rcases mem_cons.mp member with same | there
      · rw [same]
        exact mem_cons_self
      · exact mem_cons_of_mem _ (sound.used other there)
    · intro other held found
      show get? (put world.issuedAt requestId (world.changes key)) other = _
      change get? (put world.flight requestId command) other = some held at found
      rw [get?_put] at found ⊢
      split at found
      next same =>
        cases found
        rw [if_pos same, version, sound.counted]
      next apart =>
        rw [if_neg apart]
        exact sound.issued other held found

/-- A command leaves the flight. -/
theorem Sound.ended (sound : Sound world) (requestId : String)
    {after : StorageSubscriptionLedger} {held : List StorageSubscriptionKey}
    (pending : after.pending = erase world.ledger.pending requestId)
    (versions : after.intentVersions = world.ledger.intentVersions)
    (confirmed : ∀ key, key ∈ after.confirmed ↔ key ∈ held) :
    Sound { world with ledger := after, held := held, flight := erase world.flight requestId } := by
  refine ⟨?_, nodup_keys_erase sound.distinct _, ?_, ?_, sound.used, confirmed, ?_, ?_⟩
  · show after.pending = erase world.flight requestId
    rw [pending, sound.mirrored]
  · exact sound.single.sublist (List.Sublist.map _ (List.Sublist.map _ filter_sublist))
  · intro other member
    have sub : keys (erase world.flight requestId) ⊆ keys world.flight :=
      (List.Sublist.map _ filter_sublist).subset
    exact sound.carried other (sub member)
  · intro key
    show (get? after.intentVersions key).getD 0 = world.changes key
    rw [versions]
    exact sound.counted key
  · intro other command found
    change get? (erase world.flight requestId) other = some command at found
    replace found := (of_get?_erase found).2
    exact sound.issued other command found

/-- The ledger confirms what the daemon does. -/
theorem mem_carryOut {confirmed held : List StorageSubscriptionKey}
    (same : ∀ key, key ∈ confirmed ↔ key ∈ held) (command : PendingStorageSubscription)
    (key : StorageSubscriptionKey) : key ∈ carryOut confirmed command ↔ key ∈ obey held command := by
  unfold carryOut obey
  cases command.subscribe with
  | true => rw [if_pos rfl, mem_insert, mem_cons, same]
  | false =>
    rw [if_neg Bool.false_ne_true, mem_remove, same, mem_filter, decide_eq_true_eq]
    exact and_congr_right fun _ => ne_comm

theorem resolve_none (absent : get? ledger.pending requestId = none) (success : Bool) :
    resolve ledger requestId success = (ledger, none) := by
  unfold resolve
  rw [absent]

theorem erase_of_get?_none {flight : InsertionMap String PendingStorageSubscription}
    (absent : get? flight requestId = none) :
    erase flight requestId = flight :=
  erase_of_fresh ((get?_eq_none_iff _ _).mp absent)

theorem Sound.resolve (sound : Sound world) (requestId : String) (success : Bool) :
    Sound (step world (.resolve requestId success)).1 := by
  unfold step
  dsimp only
  cases found : get? world.flight requestId with
  | none =>
    have absent : get? world.ledger.pending requestId = none := by
      rw [sound.mirrored]
      exact found
    rw [resolve_none absent, erase_of_get?_none found]
    exact sound
  | some command =>
    have there : get? world.ledger.pending requestId = some command := by
      rw [sound.mirrored]
      exact found
    dsimp only
    refine sound.ended requestId ?_ ?_ ?_
    · unfold StorageSubscriptions.resolve
      rw [there]
    · unfold StorageSubscriptions.resolve
      rw [there]
    · intro key
      unfold StorageSubscriptions.resolve
      rw [there]
      dsimp only
      cases success with
      | true => exact mem_carryOut sound.confirmed command key
      | false => exact sound.confirmed key

theorem Sound.sent (sound : Sound world) (command : PendingStorageSubscription) (reached : Bool) :
    Sound (step world (.sent command reached)).1 := by
  unfold step StorageSubscriptions.sent
  dsimp only
  cases reached with
  | false => exact sound.ended command.requestId rfl rfl sound.confirmed
  | true =>
    have kept : ∀ after : StorageSubscriptionLedger, after.pending = world.ledger.pending →
        after.confirmed = world.ledger.confirmed →
        after.intentVersions = world.ledger.intentVersions →
        Sound { world with ledger := after } := by
      intro after pending confirmed versions
      refine ⟨pending.trans sound.mirrored, sound.distinct, sound.single, sound.carried,
        sound.used, ?_, ?_, sound.issued⟩
      · intro key
        show key ∈ after.confirmed ↔ key ∈ world.held
        rw [confirmed]
        exact sound.confirmed key
      · intro key
        show (get? after.intentVersions key).getD 0 = world.changes key
        rw [versions]
        exact sound.counted key
    rw [if_pos rfl]
    simp only [Bool.not_true, Bool.false_eq_true, if_false]
    split
    · exact kept _ rfl rfl rfl
    · exact kept _ rfl rfl rfl

theorem Sound.connectionReset (sound : Sound world) : Sound (step world .connectionReset).1 := by
  refine ⟨rfl, nodup_nil, nodup_nil, ?_, ?_, fun _ => Iff.rfl, sound.counted, ?_⟩
  · intro requestId member
    cases member
  · intro requestId member
    cases member
  · intro requestId command found
    cases found

theorem Sound.step (sound : Sound world) {event : Event} (fresh : Fresh world event) :
    Sound (step world event).1 := by
  cases event with
  | want key => exact sound.want
  | unwant key => exact sound.unwant
  | next key requestId generation => exact sound.next generation fresh
  | sent command reached => exact sound.sent command reached
  | resolve requestId success => exact sound.resolve requestId success
  | connectionReset => exact sound.connectionReset

end Invariant

section Results

variable {world : World} {ledger : StorageSubscriptionLedger} {key : StorageSubscriptionKey}

theorem mem_heldKeys : key ∈ heldKeys ledger ↔ key ∈ ledger.desired ∧ key ∈ ledger.confirmed ∧
    key ∉ ledger.forcedReconciliations ∧ isPending ledger key = false := by
  unfold heldKeys
  rw [mem_filter]
  simp [and_assoc]

theorem mem_foldl_insert {names set : List StorageSubscriptionKey} :
    key ∈ names.foldl insert set ↔ key ∈ set ∨ key ∈ names := by
  induction names generalizing set with
  | nil => simp
  | cons name rest ih =>
    rw [foldl_cons, ih, mem_insert, mem_cons]
    tauto

theorem mem_daemonSideKeys : key ∈ daemonSideKeys ledger ↔
    key ∈ ledger.confirmed ∨ isPending ledger key = true := by
  unfold daemonSideKeys
  rw [mem_foldl_insert, mem_map, isPending, any_eq_true]
  simp

theorem direction_none (settled : direction ledger key = none) :
    (key ∈ ledger.desired ↔ key ∈ ledger.confirmed) := by
  unfold direction at settled
  dsimp only at settled
  split at settled
  · cases settled
  · split at settled
    · cases settled
    next unsubscribed =>
      split at settled
      · cases settled
      next unheld =>
        simp only [Bool.and_eq_true, Bool.not_eq_true', contains_iff_mem, not_and,
          ← Bool.not_eq_true] at unsubscribed unheld
        tauto

theorem Sound.tracks (sound : Sound world) : Tracks world := by
  refine ⟨?_, fun key _ => sound.confirmed key, ?_, ?_, ?_, ?_, ?_⟩
  · rw [sound.mirrored]
    exact sound.single
  · intro requestId success stale
    apply resolve_none
    rw [sound.mirrored, get?_eq_none_iff]
    exact fun member => stale (sound.carried requestId member)
  · intro daemon may key member
    obtain ⟨wanted, confirmed, _, idle⟩ := mem_heldKeys.mp member
    rw [isPending_eq_false_iff, sound.mirrored] at idle
    exact ⟨wanted, (may key idle).mpr ((sound.confirmed key).mp confirmed)⟩
  · intro daemon may key member
    rw [mem_daemonSideKeys]
    cases pending : isPending world.ledger key with
    | true => exact Or.inr rfl
    | false =>
      rw [isPending_eq_false_iff, sound.mirrored] at pending
      exact Or.inl ((sound.confirmed key).mpr ((may key pending).mp member))
  · intro requestId success resolution answered idle
    unfold StorageSubscriptions.resolve at answered
    cases found : get? world.ledger.pending requestId with
    | none =>
      rw [found] at answered
      cases answered
    | some command =>
      rw [found] at answered
      cases answered
      simp only [Bool.or_eq_false_iff, decide_eq_false_iff_not, not_not] at idle
      refine ⟨idle.1, ?_⟩
      rw [sound.mirrored] at found
      rw [sound.issued requestId command found, ← sound.counted, idle.2]
  · intro key requestId generation idle settled
    unfold StorageSubscriptions.next at settled
    rw [idle, if_neg (by decide)] at settled
    have undirected : direction world.ledger key = none := by
      split at settled
      next same => exact same
      next => cases settled
    exact (direction_none undirected).trans (sound.confirmed key)

/-- Over every run of the ledger's calls in which request ids are fresh, the ledger tracks the
daemon, whatever answers arrive, and whatever the daemon does before it answers. -/
theorem ledger_tracks_daemon (events : List Event) (fresh : Meets step Fresh {} events) :
    Tracks (run step {} events).1 :=
  (fresh.state_invariant step Sound (fun _ _ sound allowed => sound.step allowed)
    Sound.start).tracks

/-- The file is wanted, unwanted while the command is in flight, and the connection resets before
the first answer arrives; the command of the new connection succeeds. -/
theorem ledger_tracks_daemon_reset : let file : StorageSubscriptionKey := ⟨"app", "settings"⟩
    let events : List Event := [.want file, .next file "first" 0, .unwant file,
      .connectionReset, .want file, .next file "second" 1, .resolve "first" true,
      .resolve "second" true]
    heldKeys (run step {} events).1.ledger = [file] ∧ (run step {} events).1.held = [file] ∧
      Tracks (run step {} events).1 := by
  intro file events
  exact ⟨by decide, by decide, ledger_tracks_daemon events (by decide)⟩

end Results

end AutoMobile.StorageSubscriptions
