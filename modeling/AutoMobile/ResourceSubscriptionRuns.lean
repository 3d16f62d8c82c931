import AutoMobile.ResourceSubscriptions
import Mathlib.Data.List.Nodup

/- Runs of the resource subscriptions: RPCs go one at a time and in call order, the set
agrees with the last RPC of a URI, and a call that has resolved stays subscribed in
the runs in which no other caller takes its URI out. -/
namespace AutoMobile.ResourceSubscriptions

open List

theorem contains_iff (entries : SetData) (uri : String) :
    entries.contains uri = true ↔ some uri ∈ entries := contains_iff_mem

theorem contains_add (entries : SetData) (uri other : String) :
    (entries.add uri).contains other = true ↔ entries.contains other = true ∨ other = uri := by
  unfold SetData.add
  split
  · rename_i held
    refine ⟨Or.inl, fun either => either.elim id fun same => ?_⟩
    rw [same]
    exact held
  · rw [contains_iff, contains_iff, mem_append, mem_singleton, Option.some_inj]

theorem contains_delete (entries : SetData) (uri other : String) :
    (entries.delete uri).contains other = true ↔ entries.contains other = true ∧ other ≠ uri := by
  rw [contains_iff, contains_iff]
  unfold SetData.delete
  constructor
  · intro member
    obtain ⟨entry, held, same⟩ := mem_map.mp member
    split at same
    · cases same
    · rename_i apart
      rw [same] at held apart
      exact ⟨held, fun equal => apart (by rw [equal])⟩
  · rintro ⟨held, apart⟩
    exact mem_map.mpr ⟨some other, held, if_neg fun same => apart (Option.some.inj same)⟩

/-- What a replay step may change: at most, it queues one more operation of its own. -/
theorem replayFrom_cases (state : State) (position : Nat) : replayFrom state position = state ∨
      ∃ uri after, replayFrom state position =
        syncResourceSubscription state uri (.replayer after) := by
  unfold replayFrom
  cases state.resourceSubscriptions.next position with
  | none => exact Or.inl rfl
  | some found => exact Or.inr ⟨found.1, found.2, rfl⟩

variable {state : State} {operation : Operation} {rest : List Operation}

theorem begin_of_waiting (queued : state.queue = operation :: rest)
    (waiting : state.phase = .waiting) :
    begin state = ({ state with phase := .running (methodFor state operation.uri) },
      [.issued operation.index operation.uri (methodFor state operation.uri)]) := by
  simp [begin, queued, waiting]

theorem settle_of_running {method : Method} (queued : state.queue = operation :: rest)
    (running : state.phase = .running method) (result : Result) :
    settle state result = ({ state with
          phase := .settled method result
          daemon := afterRpc state.daemon operation.uri method result },
        [.finished operation.index operation.uri method (result = .succeeded)]) := by
  simp [settle, queued, running]

theorem resume_of_settled {method : Method} {result : Result}
    (queued : state.queue = operation :: rest) (settled : state.phase = .settled method result) :
    resume state = resumeCaller { state with queue := rest, phase := .waiting } operation result := by
  simp [resume, queued, settled]

/-- The only turns that do something are those of the first operation. -/
theorem begin_cases (state : State) : begin state = (state, []) ∨
    ∃ operation rest, state.queue = operation :: rest ∧ state.phase = .waiting := by
  unfold begin
  split
  · rename_i operation rest queued waiting
    exact Or.inr ⟨operation, rest, queued, waiting⟩
  · exact Or.inl rfl

theorem settle_cases (state : State) (result : Result) : settle state result = (state, []) ∨
    ∃ operation rest method, state.queue = operation :: rest ∧ state.phase = .running method := by
  unfold settle
  split
  · rename_i operation rest method queued running
    exact Or.inr ⟨operation, rest, method, queued, running⟩
  · exact Or.inl rfl

theorem resume_cases (state : State) : resume state = (state, []) ∨
    ∃ operation rest method result, state.queue = operation :: rest ∧
      state.phase = .settled method result := by
  unfold resume
  split
  · rename_i operation rest method result queued settled
    exact Or.inr ⟨operation, rest, method, result, queued, settled⟩
  · exact Or.inl rfl

/-- What `resumeCaller` can do: it goes on with a set that lost at most the URI of a
failed operation, with at most one more operation, and no RPC. -/
theorem resumeCaller_quiet (state : State) (operation : Operation) (result : Result) :
    rpcs (resumeCaller state operation result).2 = [] ∧
      ∀ uri, lastRpc uri (resumeCaller state operation result).2 = none := by
  unfold resumeCaller
  split <;> exact ⟨rfl, fun _ => rfl⟩

section Turns

@[simp] theorem rpcs_append (first second : List Output) :
    rpcs (first ++ second) = rpcs first ++ rpcs second := filterMap_append

theorem inTurn_succ (count : Nat) :
    inTurn (count + 1) = inTurn count ++ [.issued count, .finished count] := by
  simp [inTurn, range_succ]

/-- The ends of the RPC of the first operation that are on record. -/
def inProgress (index : Nat) : Phase → List Rpc
  | .waiting => []
  | .running _ => [.issued index]
  | .settled _ _ => [.issued index, .finished index]

/-- `done` operations are over, and the queue holds those after them in call order. -/
structure Turns (state : State) (past : List Output) (done : Nat) : Prop where
  queued : state.queue.map Operation.index = List.range' done state.queue.length
  counted : state.operations = done + state.queue.length
  busy : state.phase ≠ .waiting → state.queue ≠ []
  trace : rpcs past = inTurn done ++ inProgress done state.phase

variable {state : State} {past : List Output} {done : Nat}

theorem Turns.sync (turns : Turns state past done) (uri : String) (caller : Caller) :
    Turns (syncResourceSubscription state uri caller) past done where
  queued := by
    have last : List.range' done (state.queue.length + 1) =
        List.range' done state.queue.length ++ [state.operations] := by
      rw [range'_concat, turns.counted, Nat.one_mul]
    show (state.queue ++ [_]).map Operation.index = List.range' done (state.queue ++ [_]).length
    rw [map_append, turns.queued, length_append, length_singleton, last]
    rfl
  counted := by
    show state.operations + 1 = done + (state.queue ++ [_]).length
    rw [length_append, length_singleton, turns.counted]
    omega
  busy := fun _ => append_ne_nil_of_right_ne_nil _ (cons_ne_nil _ _)
  trace := turns.trace

/-- The record of turns does not read the set, the daemon or the calls. -/
theorem Turns.of_same {other : State} (turns : Turns state past done)
    (queue : other.queue = state.queue) (phase : other.phase = state.phase)
    (operations : other.operations = state.operations) : Turns other past done where
  queued := by
    rw [queue]
    exact turns.queued
  counted := by
    rw [queue, operations]
    exact turns.counted
  busy := by
    rw [queue, phase]
    exact turns.busy
  trace := by
    rw [phase]
    exact turns.trace

theorem Turns.replay (turns : Turns state past done) (position : Nat) :
    Turns (replayFrom state position) past done := by
  rcases replayFrom_cases state position with same | ⟨uri, after, sync⟩
  · rw [same]
    exact turns
  · rw [sync]
    exact turns.sync uri _

theorem Turns.head (turns : Turns state past done) {operation : Operation}
    {rest : List Operation} (queued : state.queue = operation :: rest) :
    operation.index = done ∧ rest.map Operation.index = List.range' (done + 1) rest.length ∧
      state.operations = done + 1 + rest.length := by
  have order := turns.queued
  have counted := turns.counted
  rw [queued, map_cons, length_cons, range'_succ] at order
  rw [queued, length_cons] at counted
  injection order with first others
  exact ⟨first, others, by omega⟩

theorem Turns.resumeCaller (turns : Turns state past done) (operation : Operation)
    (result : Result) :
    Turns (ResourceSubscriptions.resumeCaller state operation result).1
      (past ++ (ResourceSubscriptions.resumeCaller state operation result).2) done := by
  have quiet := (resumeCaller_quiet state operation result).1
  have base : Turns (ResourceSubscriptions.resumeCaller state operation result).1 past done := by
    unfold ResourceSubscriptions.resumeCaller
    split
    · exact turns.of_same rfl rfl rfl
    · exact turns.of_same rfl rfl rfl
    · exact turns
    · exact turns
    · apply Turns.replay
      exact turns.of_same rfl rfl rfl
    · exact turns.replay _
  refine ⟨base.queued, base.counted, base.busy, ?_⟩
  rw [rpcs_append, quiet, append_nil]
  exact base.trace

theorem Turns.step (turns : Turns state past done) (event : Event) :
    ∃ now, Turns (ResourceSubscriptions.step state event).1
      (past ++ (ResourceSubscriptions.step state event).2) now := by
  cases event with
  | subscribeResource uri =>
    refine ⟨done, ?_⟩
    show Turns (subscribeResource state uri) (past ++ []) done
    rw [append_nil]
    apply Turns.sync
    exact turns.of_same rfl rfl rfl
  | unsubscribeResource uri =>
    refine ⟨done, ?_⟩
    show Turns (unsubscribeResource state uri) (past ++ []) done
    rw [append_nil]
    apply Turns.sync
    exact turns.of_same rfl rfl rfl
  | replayResourceSubscriptions =>
    refine ⟨done, ?_⟩
    show Turns (replayFrom state 0) (past ++ []) done
    rw [append_nil]
    exact turns.replay 0
  | begin =>
    refine ⟨done, ?_⟩
    show Turns (ResourceSubscriptions.begin state).1
      (past ++ (ResourceSubscriptions.begin state).2) done
    rcases begin_cases state with same | ⟨operation, rest, queued, waiting⟩
    · rw [same, append_nil]
      exact turns
    · have first := (turns.head queued).1
      have trace := turns.trace
      rw [waiting] at trace
      rw [begin_of_waiting queued waiting]
      refine ⟨turns.queued, turns.counted, fun _ => ?_, ?_⟩
      · dsimp only
        rw [queued]
        exact cons_ne_nil _ _
      · rw [rpcs_append, trace, first]
        simp [inProgress, rpcs]
  | settle result =>
    refine ⟨done, ?_⟩
    show Turns (ResourceSubscriptions.settle state result).1
      (past ++ (ResourceSubscriptions.settle state result).2) done
    rcases settle_cases state result with same | ⟨operation, rest, method, queued, running⟩
    · rw [same, append_nil]
      exact turns
    · have first := (turns.head queued).1
      have trace := turns.trace
      rw [running] at trace
      rw [settle_of_running queued running]
      refine ⟨turns.queued, turns.counted, fun _ => ?_, ?_⟩
      · dsimp only
        rw [queued]
        exact cons_ne_nil _ _
      · rw [rpcs_append, trace, first]
        simp [inProgress, rpcs]
  | resume =>
    show ∃ now, Turns (ResourceSubscriptions.resume state).1
      (past ++ (ResourceSubscriptions.resume state).2) now
    rcases resume_cases state with same | ⟨operation, rest, method, result, queued, settled⟩
    · refine ⟨done, ?_⟩
      rw [same, append_nil]
      exact turns
    · refine ⟨done + 1, ?_⟩
      have after := turns.head queued
      have trace := turns.trace
      rw [settled] at trace
      rw [resume_of_settled queued settled]
      apply Turns.resumeCaller
      refine ⟨after.2.1, after.2.2, fun busy => absurd rfl busy, ?_⟩
      rw [trace, inTurn_succ]
      simp [inProgress]

end Turns

section Agreement

theorem lastRpc_append (uri : String) (past outputs : List Output) :
    lastRpc uri (past ++ outputs) = (lastRpc uri outputs).or (lastRpc uri past) := by
  unfold lastRpc
  rw [filterMap_append, getLast?_append]

variable {uri : String} {changed : State}

theorem lastRpc_append_quiet {past outputs : List Output} (quiet : lastRpc uri outputs = none) :
    lastRpc uri (past ++ outputs) = lastRpc uri past := by
  rw [lastRpc_append, quiet, Option.none_or]

/-- The operations that have still to choose their method. -/
def undecided (state : State) : List Operation :=
  match state.phase with
  | .waiting => state.queue
  | _ => state.queue.tail

/-- The operation of this URI whose RPC is under way, with its method. -/
def Underway (state : State) (uri : String) (method : Method) : Prop :=
  state.phase = .running method ∧ (state.queue.head?.map Operation.uri) = some uri

/-- An operation of the URI is still to choose, or the one under way has chosen by the
set as it is, or the last one has, if it succeeded. -/
def Agreed (state : State) (past : List Output) (uri : String) : Prop :=
  (∃ operation ∈ undecided state, operation.uri = uri) ∨ Underway state uri (methodFor state uri) ∨
      (∀ method, ¬ Underway state uri method) ∧
        ∀ method, lastRpc uri past = some (method, true) → method = methodFor state uri

/-- Every URI is agreed on, and the RPC that has just settled is the last of its URI. -/
structure Agreement (state : State) (past : List Output) : Prop where
  busy : state.phase ≠ .waiting → state.queue ≠ []
  recorded : ∀ operation rest method result, state.queue = operation :: rest →
    state.phase = .settled method result →
    lastRpc operation.uri past = some (method, decide (result = .succeeded))
  agreed : ∀ uri, Agreed state past uri

variable {state : State} {past : List Output}

theorem undecided_sync (busy : state.phase ≠ .waiting → state.queue ≠ []) (uri : String)
    (caller : Caller) : undecided (syncResourceSubscription state uri caller) =
      undecided state ++ [⟨state.operations, uri, caller⟩] := by
  unfold undecided syncResourceSubscription
  cases phase : state.phase with
  | waiting => rfl
  | running | settled =>
    have some := busy (by rw [phase]; exact fun same => by cases same)
    cases queue : state.queue with
    | nil => exact absurd queue some
    | cons operation rest => rfl

theorem head?_append_of_ne_nil {α : Type} {first : List α} (some : first ≠ []) (second : List α) :
    (first ++ second).head? = first.head? := by
  cases first with
  | nil => exact absurd rfl some
  | cons head rest => rfl

theorem underway_sync (busy : state.phase ≠ .waiting → state.queue ≠ []) (uri other : String)
    (caller : Caller) (method : Method) :
    Underway (syncResourceSubscription state uri caller) other method ↔
      Underway state other method := by
  unfold Underway syncResourceSubscription
  refine and_congr_right fun running => ?_
  have running : state.phase = .running method := running
  have some := busy (by rw [running]; exact fun same => by cases same)
  dsimp only
  rw [head?_append_of_ne_nil some]

/-- A call may change the membership of the URI that it queues an operation for. -/
theorem Agreement.sync (agreement : Agreement state past) (queue : changed.queue = state.queue)
    (phase : changed.phase = state.phase) (uri : String) (caller : Caller)
    (others : ∀ other, other ≠ uri → methodFor changed other = methodFor state other) :
    Agreement (syncResourceSubscription changed uri caller) past := by
  have busy : changed.phase ≠ .waiting → changed.queue ≠ [] := by
    rw [queue, phase]
    exact agreement.busy
  refine ⟨fun _ => append_ne_nil_of_right_ne_nil _ (cons_ne_nil _ _), ?_, fun other => ?_⟩
  · intro operation rest method result queued settled
    have settled : state.phase = .settled method result := phase.symm.trans settled
    have some := agreement.busy (by rw [settled]; exact fun same => by cases same)
    cases shape : state.queue with
    | nil => exact absurd shape some
    | cons first later =>
      have queued : changed.queue ++ [_] = operation :: rest := queued
      rw [queue, shape] at queued
      injection queued with same
      rw [← same]
      exact agreement.recorded first later method result shape settled
  · by_cases same : other = uri
    · refine Or.inl ⟨⟨changed.operations, uri, caller⟩, ?_, same.symm⟩
      rw [undecided_sync busy]
      exact mem_append_right _ (mem_singleton.mpr rfl)
    · have chooses : methodFor (syncResourceSubscription changed uri caller) other =
          methodFor state other := others other same
      have undecidedSame : undecided changed = undecided state := by
        unfold undecided
        rw [phase, queue]
      have underwaySame : ∀ method, Underway changed other method ↔
          Underway state other method := fun method => by
        unfold Underway
        rw [phase, queue]
      rcases agreement.agreed other with ⟨operation, member, named⟩ | underway | ⟨idle, last⟩
      · refine Or.inl ⟨operation, ?_, named⟩
        rw [undecided_sync busy, undecidedSame]
        exact mem_append_left _ member
      · refine Or.inr (Or.inl ?_)
        rw [chooses, underway_sync busy, underwaySame]
        exact underway
      · refine Or.inr (Or.inr ⟨fun method => ?_, ?_⟩)
        · rw [underway_sync busy, underwaySame]
          exact idle method
        · rw [chooses]
          exact last

theorem Agreement.replay (agreement : Agreement state past) (position : Nat) :
    Agreement (replayFrom state position) past := by
  rcases replayFrom_cases state position with same | ⟨uri, after, sync⟩
  · rw [same]
    exact agreement
  · rw [sync]
    exact agreement.sync rfl rfl uri _ fun _ _ => rfl

theorem methodFor_congr {first second : State}
    (same : first.resourceSubscriptions.contains uri = true ↔
      second.resourceSubscriptions.contains uri = true) :
    methodFor first uri = methodFor second uri := by
  unfold methodFor
  by_cases held : second.resourceSubscriptions.contains uri = true
  · rw [if_pos held, if_pos (same.mpr held)]
  · rw [if_neg held, if_neg fun first => held (same.mp first)]

/-- Between two operations the set may lose a URI whose last RPC failed. -/
theorem Agreement.shrink (agreement : Agreement state past) (queue : changed.queue = state.queue)
    (waiting : state.phase = .waiting) (phase : changed.phase = state.phase)
    (kept : ∀ uri, methodFor changed uri = methodFor state uri ∨
      ∀ method, lastRpc uri past ≠ some (method, true)) : Agreement changed past := by
  have quiet : ∀ {current : State} {other : String} {method : Method},
      current.phase = .waiting → ¬ Underway current other method := by
    intro current other method waiting underway
    have running := underway.1
    rw [waiting] at running
    cases running
  have changedWaiting := phase.trans waiting
  refine ⟨fun busy => absurd changedWaiting busy, ?_, fun other => ?_⟩
  · intro operation rest method result _ settled
    rw [changedWaiting] at settled
    cases settled
  · rcases agreement.agreed other with ⟨operation, member, named⟩ | underway | ⟨-, last⟩
    · refine Or.inl ⟨operation, ?_, named⟩
      unfold undecided at member ⊢
      rw [phase, queue]
      exact member
    · exact absurd underway (quiet waiting)
    · refine Or.inr (Or.inr ⟨fun method => quiet changedWaiting, fun method ended => ?_⟩)
      rcases kept other with same | failed
      · rw [same]
        exact last method ended
      · exact absurd ended (failed method)

theorem methodFor_delete (state : State) {other : String} (apart : other ≠ uri)
    (deleted : changed.resourceSubscriptions = state.resourceSubscriptions.delete uri) :
    methodFor changed other = methodFor state other := by
  apply methodFor_congr
  rw [deleted, contains_delete]
  exact ⟨And.left, fun held => ⟨held, apart⟩⟩

theorem Agreement.step (agreement : Agreement state past) (event : Event) :
    Agreement (ResourceSubscriptions.step state event).1
      (past ++ (ResourceSubscriptions.step state event).2) := by
  cases event with
  | subscribeResource uri =>
    show Agreement (subscribeResource state uri) (past ++ [])
    rw [append_nil]
    unfold subscribeResource
    refine Agreement.sync agreement ?_ ?_ uri _ ?_
    · rfl
    · rfl
    intro other apart
    apply methodFor_congr
    rw [contains_add]
    exact ⟨fun held => held.resolve_right apart, Or.inl⟩
  | unsubscribeResource uri =>
    show Agreement (unsubscribeResource state uri) (past ++ [])
    rw [append_nil]
    unfold unsubscribeResource
    refine Agreement.sync agreement ?_ ?_ uri _ ?_
    · rfl
    · rfl
    exact fun other apart => methodFor_delete state apart rfl
  | replayResourceSubscriptions =>
    show Agreement (replayFrom state 0) (past ++ [])
    rw [append_nil]
    exact agreement.replay 0
  | begin =>
    show Agreement (ResourceSubscriptions.begin state).1
      (past ++ (ResourceSubscriptions.begin state).2)
    rcases begin_cases state with same | ⟨operation, rest, queued, waiting⟩
    · rw [same, append_nil]
      exact agreement
    · rw [begin_of_waiting queued waiting]
      refine ⟨fun _ => by rw [queued]; exact cons_ne_nil _ _, ?_, fun other => ?_⟩
      · intro _ _ _ _ _ settled
        cases settled
      · have quiet : lastRpc other [.issued operation.index operation.uri
            (methodFor state operation.uri)] = none := rfl
        rw [Agreed, lastRpc_append_quiet quiet]
        by_cases same : operation.uri = other
        · refine Or.inr (Or.inl ⟨?_, ?_⟩)
          · rw [same]
            rfl
          · dsimp only
            rw [queued]
            exact congrArg some same
        · have idle : ∀ method, ¬ Underway
              { state with phase := .running (methodFor state operation.uri) } other method := by
            intro method underway
            have first : (state.queue.head?.map Operation.uri) = some other := underway.2
            rw [queued] at first
            exact same (Option.some.inj first)
          rcases agreement.agreed other with ⟨found, member, named⟩ | underway | ⟨-, last⟩
          · unfold undecided at member
            rw [waiting, queued] at member
            rcases mem_cons.mp member with rfl | later
            · exact absurd named same
            · refine Or.inl ⟨found, ?_, named⟩
              show found ∈ state.queue.tail
              rw [queued]
              exact later
          · have running := underway.1
            rw [waiting] at running
            cases running
          · exact Or.inr (Or.inr ⟨idle, last⟩)
  | settle result =>
    show Agreement (ResourceSubscriptions.settle state result).1
      (past ++ (ResourceSubscriptions.settle state result).2)
    rcases settle_cases state result with same | ⟨operation, rest, method, queued, running⟩
    · rw [same, append_nil]
      exact agreement
    · have ended : lastRpc operation.uri [.finished operation.index operation.uri method
          (result = .succeeded)] = some (method, decide (result = .succeeded)) := by
        simp [lastRpc]
      rw [settle_of_running queued running]
      refine ⟨fun _ => by rw [queued]; exact cons_ne_nil _ _, ?_, fun other => ?_⟩
      · intro found later method' result' queue settled
        have queue : state.queue = found :: later := queue
        rw [queued] at queue
        injection queue with same
        cases settled
        rw [← same, lastRpc_append, ended]
        rfl
      · have idle : ∀ method', ¬ Underway
            { state with
              phase := .settled method result
              daemon := afterRpc state.daemon operation.uri method result } other method' := by
          intro method' underway
          have phase : Phase.settled method result = .running method' := underway.1
          cases phase
        rcases agreement.agreed other with ⟨found, member, named⟩ | underway | ⟨notUnderway, last⟩
        · refine Or.inl ⟨found, ?_, named⟩
          unfold undecided at member
          rw [running] at member
          exact member
        · have chosen : method = methodFor state other := by
            have phase := underway.1
            rw [running] at phase
            exact Phase.running.inj phase
          have named : operation.uri = other := by
            have first := underway.2
            rw [queued] at first
            exact Option.some.inj first
          refine Or.inr (Or.inr ⟨idle, fun method' told => ?_⟩)
          rw [← named, lastRpc_append, ended, Option.some_or] at told
          have told : (method, decide (result = .succeeded)) = (method', true) :=
            Option.some.inj told
          rw [← (Prod.mk.inj told).1]
          exact chosen
        · have apart : operation.uri ≠ other := fun same => notUnderway method
            ⟨running, by rw [queued]; exact congrArg some same⟩
          have silent : lastRpc other [.finished operation.index operation.uri method
              (result = .succeeded)] = none := by
            simp [lastRpc, apart]
          refine Or.inr (Or.inr ⟨idle, fun method' told => ?_⟩)
          rw [lastRpc_append_quiet silent] at told
          exact last method' told
  | resume =>
    show Agreement (ResourceSubscriptions.resume state).1
      (past ++ (ResourceSubscriptions.resume state).2)
    rcases resume_cases state with same | ⟨operation, rest, method, result, queued, settled⟩
    · rw [same, append_nil]
      exact agreement
    · have last := agreement.recorded operation rest method result queued settled
      have between : Agreement { state with queue := rest, phase := .waiting } past := by
        refine ⟨fun busy => absurd rfl busy, ?_, fun other => ?_⟩
        · intro _ _ _ _ _ phase
          cases phase
        rcases agreement.agreed other with ⟨found, member, named⟩ | underway | ⟨-, last⟩
        · refine Or.inl ⟨found, ?_, named⟩
          unfold undecided at member
          rw [settled, queued] at member
          exact member
        · have running := underway.1
          rw [settled] at running
          cases running
        · refine Or.inr (Or.inr ⟨fun method underway => ?_, last⟩)
          have phase : Phase.waiting = .running method := underway.1
          cases phase
      rw [resume_of_settled queued settled]
      have quiet := (resumeCaller_quiet
        { state with queue := rest, phase := .waiting } operation result).2
      suffices base : Agreement (resumeCaller
          { state with queue := rest, phase := .waiting } operation result).1 past by
        refine ⟨base.busy, fun found later method result queue phase => ?_, fun other => ?_⟩
        · rw [lastRpc_append_quiet (quiet _)]
          exact base.recorded found later method result queue phase
        · rw [Agreed, lastRpc_append_quiet (quiet _)]
          exact base.agreed other
      have deleted : ∀ permanent, result = .failed permanent → ∀ changed : State,
          changed.resourceSubscriptions = state.resourceSubscriptions.delete operation.uri →
          ∀ uri, methodFor changed uri =
              methodFor { state with queue := rest, phase := .waiting } uri ∨
            ∀ method, lastRpc uri past ≠ some (method, true) := by
        rintro permanent rfl changed gone uri
        by_cases same : uri = operation.uri
        · refine Or.inr fun method told => ?_
          rw [same, last] at told
          cases told
        · exact Or.inl (methodFor_delete _ same gone)
      unfold resumeCaller
      split
      · exact between.shrink rfl rfl rfl fun _ => Or.inl rfl
      · exact between.shrink rfl rfl rfl (deleted _ rfl _ rfl)
      · exact between
      · exact between
      · apply Agreement.replay
        exact between.shrink rfl rfl rfl (deleted _ rfl _ rfl)
      · exact between.replay _

end Agreement

end AutoMobile.ResourceSubscriptions
