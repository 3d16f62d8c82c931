import AutoMobile.ResourceSubscriptionRuns

/- The calls of subscribeResource: one that has resolved stays subscribed in every run
in which no caller takes the URI of another one out, and not in every run. -/
namespace AutoMobile.ResourceSubscriptions

open List

def Caller.call : Caller → Option Nat
  | .subscriber call | .unsubscriber call => some call
  | .replayer _ => none

/-- What the calls that stand are promised. -/
structure Sustained (state : State) : Prop where
  busy : state.phase ≠ .waiting → state.queue ≠ []
  listed : ∀ standing ∈ state.standing, state.resourceSubscriptions.contains standing.uri = true
  held : ∀ standing ∈ state.standing, standing.resolved = true → standing.uri ∈ state.daemon
  /-- the operation under way chooses subscribe, but for one that chose before the call -/
  choosing : ∀ standing ∈ state.standing, ∀ operation rest method,
    state.queue = operation :: rest → state.phase = .running method →
    operation.uri = standing.uri →
    (standing.resolved = true ∨ operation.caller = .subscriber standing.call) →
    method = .subscribe
  settled : ∀ standing ∈ state.standing, ∀ operation rest method,
    state.queue = operation :: rest → state.phase = .settled method .succeeded →
    operation.caller = .subscriber standing.call → standing.uri ∈ state.daemon
  linked : ∀ standing ∈ state.standing, ∀ operation ∈ state.queue,
    operation.caller.call = some standing.call →
    operation.caller = .subscriber standing.call ∧ operation.uri = standing.uri
  made : ∀ standing ∈ state.standing, standing.call < state.calls
  asked : ∀ operation ∈ state.queue, ∀ call, operation.caller.call = some call → call < state.calls
  once : state.queue.Pairwise fun first second => ∀ call, first.caller.call = some call →
    second.caller.call ≠ some call

section Steps

variable {state : State}

/-- One more operation at the end of the queue. -/
theorem Sustained.sync (sustained : Sustained state) (uri : String) (caller : Caller)
    (own : ∀ standing ∈ state.standing, caller.call = some standing.call →
      caller = .subscriber standing.call ∧ uri = standing.uri)
    (bounded : ∀ call, caller.call = some call → call < state.calls)
    (fresh : ∀ operation ∈ state.queue, ∀ call, operation.caller.call = some call →
      caller.call ≠ some call) : Sustained (syncResourceSubscription state uri caller) := by
  have first : ∀ operation rest, state.phase ≠ .waiting →
      state.queue ++ [⟨state.operations, uri, caller⟩] = operation :: rest →
      ∃ before, state.queue = operation :: before := by
    intro operation rest started shape
    have some := sustained.busy started
    cases queue : state.queue with
    | nil => exact absurd queue some
    | cons head tail =>
      rw [queue] at shape
      injection shape with same
      exact ⟨tail, by rw [same]⟩
  have last : ∀ operation, operation ∈ state.queue ++ [⟨state.operations, uri, caller⟩] →
      operation ∈ state.queue ∨ operation = ⟨state.operations, uri, caller⟩ := fun _ member =>
    (mem_append.mp member).imp_right mem_singleton.mp
  refine { sustained with
    busy := fun _ => append_ne_nil_of_right_ne_nil _ (cons_ne_nil _ _)
    choosing := ?_, settled := ?_, linked := ?_, asked := ?_, once := ?_ }
  · intro standing member operation rest method shape running
    have running : state.phase = .running method := running
    obtain ⟨before, queue⟩ := first operation rest
      (by rw [running]; exact fun same => by cases same) shape
    exact sustained.choosing standing member operation before method queue running
  · intro standing member operation rest method shape settled
    have settled : state.phase = .settled method .succeeded := settled
    obtain ⟨before, queue⟩ := first operation rest
      (by rw [settled]; exact fun same => by cases same) shape
    exact sustained.settled standing member operation before method queue settled
  · intro standing member operation queued
    rcases last operation queued with old | rfl
    · exact sustained.linked standing member operation old
    · exact own standing member
  · intro operation queued
    rcases last operation queued with old | rfl
    · exact sustained.asked operation old
    · exact bounded
  · refine pairwise_append.mpr ⟨sustained.once, pairwise_singleton _ _, ?_⟩
    intro operation queued new single call asked
    rw [mem_singleton.mp single]
    exact fresh operation queued call asked

theorem Sustained.replay (sustained : Sustained state) (position : Nat) :
    Sustained (replayFrom state position) := by
  rcases replayFrom_cases state position with same | ⟨uri, after, sync⟩
  · rw [same]
    exact sustained
  · rw [sync]
    refine sustained.sync uri (.replayer after) ?_ ?_ ?_
    · intro _ _ same
      cases same
    · intro _ same
      cases same
    · intro _ _ _ _ same
      cases same

/-- The state of a subscribeResource call before its operation is queued. -/
def subscribed (state : State) (uri : String) : State :=
  { state with
    resourceSubscriptions := state.resourceSubscriptions.add uri
    calls := state.calls + 1
    standing := state.standing ++ [⟨state.calls, uri, false⟩] }

theorem Sustained.subscribed (sustained : Sustained state) (uri : String) :
    Sustained (ResourceSubscriptions.subscribed state uri) := by
  have split : ∀ standing, standing ∈ state.standing ++ [⟨state.calls, uri, false⟩] →
      standing ∈ state.standing ∨ standing = ⟨state.calls, uri, false⟩ := fun _ member =>
    (mem_append.mp member).imp_right mem_singleton.mp
  have stranger : ∀ operation ∈ state.queue, operation.caller.call ≠ some state.calls :=
    fun operation queued same => Nat.lt_irrefl _ (sustained.asked operation queued _ same)
  refine { sustained with listed := ?_, held := ?_, choosing := ?_, settled := ?_, linked := ?_
                          made := ?_, asked := ?_ }
  · intro standing member
    apply (contains_add _ _ _).mpr
    rcases split standing member with old | rfl
    · exact Or.inl (sustained.listed standing old)
    · exact Or.inr rfl
  · intro standing member resolved
    rcases split standing member with old | rfl
    · exact sustained.held standing old resolved
    · cases resolved
  · intro standing member operation rest method queued running named chosen
    have queued : state.queue = operation :: rest := queued
    rcases split standing member with old | rfl
    · exact sustained.choosing standing old operation rest method queued running named chosen
    · have own : operation.caller = .subscriber state.calls :=
        chosen.resolve_left fun same => by cases same
      exact absurd (by rw [own]; rfl)
        (stranger operation (by rw [queued]; exact mem_cons_self))
  · intro standing member operation rest method queued settled own
    have queued : state.queue = operation :: rest := queued
    rcases split standing member with old | rfl
    · exact sustained.settled standing old operation rest method queued settled own
    · exact absurd (by rw [own]; rfl)
        (stranger operation (by rw [queued]; exact mem_cons_self))
  · intro standing member operation queued asked
    rcases split standing member with old | rfl
    · exact sustained.linked standing old operation queued asked
    · exact absurd asked (stranger operation queued)
  · intro standing member
    rcases split standing member with old | rfl
    · exact Nat.lt_succ_of_lt (sustained.made standing old)
    · exact Nat.lt_succ_self _
  · exact fun operation queued call asked =>
      Nat.lt_succ_of_lt (sustained.asked operation queued call asked)

/-- Some calls stand no longer, and the set loses URIs of none that does. -/
theorem Sustained.fewer {changed : State} (sustained : Sustained state)
    (queue : changed.queue = state.queue) (phase : changed.phase = state.phase)
    (daemon : changed.daemon = state.daemon) (calls : state.calls ≤ changed.calls)
    (standing : ∀ standing ∈ changed.standing, standing ∈ state.standing)
    (listed : ∀ standing ∈ changed.standing,
      changed.resourceSubscriptions.contains standing.uri = true) : Sustained changed where
  busy := by
    rw [queue, phase]
    exact sustained.busy
  listed := listed
  held call member := by
    rw [daemon]
    exact sustained.held call (standing call member)
  choosing call member := by
    rw [queue, phase]
    exact sustained.choosing call (standing call member)
  settled call member := by
    rw [queue, phase, daemon]
    exact sustained.settled call (standing call member)
  linked call member := by
    rw [queue]
    exact sustained.linked call (standing call member)
  made call member := Nat.lt_of_lt_of_le (sustained.made call (standing call member)) calls
  asked := by
    rw [queue]
    exact fun operation queued call asked =>
      Nat.lt_of_lt_of_le (sustained.asked operation queued call asked) calls
  once := by
    rw [queue]
    exact sustained.once

/-- The queue without its first operation, between two operations. -/
def behind (state : State) (rest : List Operation) : State :=
  { state with queue := rest, phase := .waiting }

variable {operation : Operation} {rest : List Operation} {uri : String} {method : Method}
  {call : Nat}

theorem Sustained.behind (sustained : Sustained state) (queued : state.queue = operation :: rest) :
    Sustained (ResourceSubscriptions.behind state rest) := by
  have later : ∀ other ∈ rest, other ∈ state.queue := fun other member => by
    rw [queued]
    exact mem_cons_of_mem _ member
  have once := sustained.once
  rw [queued] at once
  refine { sustained with
    busy := fun started => absurd rfl started
    choosing := ?_, settled := ?_
    linked := fun standing member other inside => sustained.linked standing member other
      (later other inside)
    asked := fun other inside => sustained.asked other (later other inside)
    once := (pairwise_cons.mp once).2 }
  · intro _ _ _ _ _ _ running
    cases running
  · intro _ _ _ _ _ _ settled
    cases settled

theorem mem_afterRpc_of_other {daemon : List String} {other : String} {result : Result}
    (held : other ∈ daemon) (kept : other = uri → method = .subscribe) :
    other ∈ afterRpc daemon uri method result := by
  unfold afterRpc
  split
  · exact held
  · split
    · exact mem_cons_of_mem _ held
    · refine mem_filter.mpr ⟨held, ?_⟩
      simp only [ne_eq, decide_not, Bool.not_eq_true', decide_eq_false_iff_not]
      intro same
      cases kept same

theorem Sustained.settle (sustained : Sustained state) (queued : state.queue = operation :: rest)
    (running : state.phase = .running method) (result : Result) :
    Sustained { state with
      phase := .settled method result
      daemon := afterRpc state.daemon operation.uri method result } := by
  refine { sustained with
    busy := fun _ => by rw [queued]; exact cons_ne_nil _ _
    held := ?_, choosing := ?_, settled := ?_ }
  · intro standing member resolved
    exact mem_afterRpc_of_other (sustained.held standing member resolved) fun same =>
      sustained.choosing standing member operation rest method queued running same.symm
        (Or.inl resolved)
  · intro _ _ _ _ _ _ phase
    cases phase
  · intro standing member other later method' queue phase own
    have queue : state.queue = other :: later := queue
    rw [queued] at queue
    injection queue with same
    subst same
    cases phase
    have named := (sustained.linked standing member operation
      (by rw [queued]; exact mem_cons_self) (by rw [own]; rfl)).2
    have chosen := sustained.choosing standing member operation rest method queued running named
      (Or.inr own)
    rw [chosen, ← named]
    exact mem_cons_self

theorem Sustained.begin (sustained : Sustained state) (queued : state.queue = operation :: rest) :
    Sustained { state with phase := .running (methodFor state operation.uri) } := by
  refine { sustained with
    busy := fun _ => by rw [queued]; exact cons_ne_nil _ _
    choosing := ?_, settled := ?_ }
  · intro standing member other later method queue running named _
    have queue : state.queue = other :: later := queue
    rw [queued] at queue
    injection queue with same
    subst same
    cases running
    unfold methodFor
    rw [named, if_pos (sustained.listed standing member)]
  · intro _ _ _ _ _ _ phase
    cases phase

theorem Sustained.resolve (sustained : Sustained state) (waiting : state.phase = .waiting)
    (call : Nat)
    (subscribed : ∀ standing ∈ state.standing, standing.call = call → standing.uri ∈ state.daemon) :
    Sustained { state with standing := state.standing.map (resolve call) } := by
  have origin : ∀ standing, standing ∈ state.standing.map (ResourceSubscriptions.resolve call) →
      ∃ before ∈ state.standing, standing.uri = before.uri ∧ standing.call = before.call ∧
        (standing.resolved = true → before.resolved = true ∨ before.call = call) := by
    intro standing member
    obtain ⟨before, held, rfl⟩ := mem_map.mp member
    refine ⟨before, held, ?_⟩
    unfold ResourceSubscriptions.resolve
    split
    · rename_i same
      exact ⟨rfl, rfl, fun _ => Or.inr same⟩
    · exact ⟨rfl, rfl, Or.inl⟩
  refine { sustained with listed := ?_, held := ?_, choosing := ?_, settled := ?_, linked := ?_
                          made := ?_ }
  · intro standing member
    obtain ⟨before, held, uri, -, -⟩ := origin standing member
    rw [uri]
    exact sustained.listed before held
  · intro standing member resolved
    obtain ⟨before, held, uri, -, cause⟩ := origin standing member
    rw [uri]
    rcases cause resolved with earlier | now
    · exact sustained.held before held earlier
    · exact subscribed before held now
  · intro _ _ _ _ _ _ running
    rw [waiting] at running
    cases running
  · intro _ _ _ _ _ _ settled
    rw [waiting] at settled
    cases settled
  · intro standing member operation queued asked
    obtain ⟨before, held, uri, named, -⟩ := origin standing member
    rw [named] at asked
    rw [uri, named]
    exact sustained.linked before held operation queued asked
  · intro standing member
    obtain ⟨before, held, -, named, -⟩ := origin standing member
    rw [named]
    exact sustained.made before held

/-- A caller takes the URI of its failed operation out of the set. -/
theorem Sustained.takeOut (sustained : Sustained state) (uri : String) (ended : Standing → Bool)
    (others : ∀ standing ∈ state.standing, standing.uri = uri → ended standing = true) :
    Sustained { state with
      resourceSubscriptions := state.resourceSubscriptions.delete uri
      standing := state.standing.filter fun standing => !ended standing } := by
  refine sustained.fewer rfl rfl rfl (Nat.le_refl _)
    (fun standing member => (mem_filter.mp member).1) fun standing member => ?_
  obtain ⟨held, kept⟩ := mem_filter.mp member
  refine (contains_delete _ _ _).mpr ⟨sustained.listed standing held, fun same => ?_⟩
  rw [others standing held same] at kept
  cases kept

theorem undisturbed_resume {permanent : Bool} (queued : state.queue = operation :: rest)
    (settled : state.phase = .settled method (.failed permanent))
    (calm : undisturbed state .resume = true) :
    (∀ call, operation.caller = .subscriber call →
        ∀ standing ∈ state.standing, standing.uri = operation.uri → standing.call = call) ∧
      ((∃ position, operation.caller = .replayer position) → permanent = true →
        ∀ standing ∈ state.standing, standing.uri = operation.uri → standing.resolved = true) := by
  unfold undisturbed at calm
  rw [queued, settled] at calm
  dsimp only at calm
  constructor
  · intro call own standing member same
    rw [own] at calm
    have here := all_eq_true.mp calm standing member
    simpa [same] using here
  · rintro ⟨position, own⟩ rfl standing member same
    rw [own] at calm
    have here := all_eq_true.mp calm standing member
    simpa [same] using here

theorem Sustained.resumeCaller (sustained : Sustained state) {result : Result}
    (queued : state.queue = operation :: rest) (settled : state.phase = .settled method result)
    (calm : undisturbed state .resume = true) :
    Sustained (ResourceSubscriptions.resumeCaller
      (ResourceSubscriptions.behind state rest) operation result).1 := by
  have between := sustained.behind queued
  unfold ResourceSubscriptions.resumeCaller
  split
  · rename_i call own
    refine between.resolve rfl call fun standing member same => ?_
    exact sustained.settled standing member operation rest method queued settled
      (by rw [same]; exact own)
  · rename_i call permanent own
    have alone := (undisturbed_resume queued settled calm).1 call own
    have taken := between.takeOut operation.uri (fun standing => standing.call = call)
      fun standing member same => decide_eq_true (alone standing member same)
    simpa using taken
  · exact between
  · exact between
  · rename_i position own
    have alone := (undisturbed_resume queued settled calm).2 ⟨position, own⟩ rfl
    apply Sustained.replay
    refine between.takeOut operation.uri
      (fun standing => standing.uri = operation.uri && standing.resolved) ?_
    intro standing member same
    simp only [same, decide_true, Bool.true_and]
    exact alone standing member same
  · exact between.replay _

theorem Sustained.step (sustained : Sustained state) {event : Event}
    (calm : undisturbed state event = true) :
    Sustained (ResourceSubscriptions.step state event).1 := by
  cases event with
  | subscribeResource uri =>
    have subscribed := sustained.subscribed uri
    refine subscribed.sync uri (.subscriber state.calls) ?_ ?_ ?_
    · intro standing member same
      have same : state.calls = standing.call := Option.some.inj same
      rcases mem_append.mp member with old | new
      · have made := sustained.made standing old
        omega
      · rw [mem_singleton.mp new]
        exact ⟨rfl, rfl⟩
    · intro call same
      rw [← Option.some.inj same]
      exact Nat.lt_succ_self _
    · intro operation queued call asked same
      have made := sustained.asked operation queued call asked
      have same : state.calls = call := Option.some.inj same
      omega
  | unsubscribeResource uri =>
    have fewer : Sustained { state with
        resourceSubscriptions := state.resourceSubscriptions.delete uri
        calls := state.calls + 1
        standing := state.standing.filter fun standing => standing.uri ≠ uri } := by
      refine sustained.fewer rfl rfl rfl (Nat.le_succ _)
        (fun standing member => (mem_filter.mp member).1) fun standing member => ?_
      obtain ⟨held, kept⟩ := mem_filter.mp member
      simp only [ne_eq, decide_not, Bool.not_eq_true', decide_eq_false_iff_not] at kept
      exact (contains_delete _ _ _).mpr ⟨sustained.listed standing held, kept⟩
    refine fewer.sync uri (.unsubscriber state.calls) ?_ ?_ ?_
    · intro standing member same
      have same : state.calls = standing.call := Option.some.inj same
      have made := sustained.made standing (mem_filter.mp member).1
      omega
    · intro call same
      rw [← Option.some.inj same]
      exact Nat.lt_succ_self _
    · intro operation queued call asked same
      have made := sustained.asked operation queued call asked
      have same : state.calls = call := Option.some.inj same
      omega
  | replayResourceSubscriptions => exact sustained.replay 0
  | begin =>
    show Sustained (ResourceSubscriptions.begin state).1
    rcases begin_cases state with same | ⟨operation, rest, queued, waiting⟩
    · rw [same]
      exact sustained
    · rw [begin_of_waiting queued waiting]
      exact sustained.begin queued
  | settle result =>
    show Sustained (ResourceSubscriptions.settle state result).1
    rcases settle_cases state result with same | ⟨operation, rest, method, queued, running⟩
    · rw [same]
      exact sustained
    · rw [settle_of_running queued running]
      exact sustained.settle queued running result
  | resume =>
    show Sustained (ResourceSubscriptions.resume state).1
    rcases resume_cases state with same | ⟨operation, rest, method, result, queued, settled⟩
    · rw [same]
      exact sustained
    · rw [resume_of_settled queued settled]
      exact sustained.resumeCaller queued settled calm

/-- No operation of this call is in the queue. -/
def Over (state : State) (call : Nat) : Prop :=
  ∀ operation ∈ state.queue, operation.caller.call ≠ some call

/-- Each time the call resolves, a replay drops the URI afterwards. -/
def DroppedSince (call : Nat) (uri : String) (past : List Output) : Prop :=
  ∀ front back, past = front ++ .resolved call :: back → Output.dropped uri ∈ back

/-- The fate of one subscribeResource call while no unsubscribeResource call of its URI
is made: it waits, or has resolved and stands, or was rejected or dropped. -/
structure Followed (call : Nat) (uri : String) (state : State) (past : List Output) : Prop where
  known : call < state.calls
  fate : (⟨call, uri, false⟩ ∈ state.standing ∧ Output.resolved call ∉ past) ∨
    (⟨call, uri, true⟩ ∈ state.standing ∧ Over state call) ∨
    (Over state call ∧ DroppedSince call uri past)

theorem DroppedSince.append {past more : List Output} (dropped : DroppedSince call uri past)
    (silent : Output.resolved call ∉ more) :
    DroppedSince call uri (past ++ more) := by
  intro front back shape
  rcases append_eq_append_iff.mp shape with ⟨middle, front', more'⟩ | ⟨middle, past', more'⟩
  · exact absurd (by rw [more']; exact mem_append_right _ mem_cons_self) silent
  · cases middle with
    | nil =>
      rw [nil_append] at more'
      exact absurd (by rw [← more']; exact mem_cons_self) silent
    | cons first rest =>
      injection more' with same tail
      rw [tail]
      exact mem_append_left _ (dropped front rest (by rw [past', same]))

theorem droppedSince_of_never {past : List Output} (uri : String)
    (never : Output.resolved call ∉ past) : DroppedSince call uri past := fun front back shape =>
  absurd (by rw [shape]; exact mem_append_right _ mem_cons_self) never

theorem droppedSince_of_last (past : List Output) :
    DroppedSince call uri (past ++ [.dropped uri]) := by
  intro front back shape
  rcases eq_nil_or_concat back with rfl | ⟨rest, last, rfl⟩
  · have same := append_inj_right' shape rfl
    cases same
  · rw [concat_eq_append, ← cons_append, ← append_assoc] at shape
    have same := append_inj_right' shape rfl
    injection same with same
    rw [same, concat_eq_append]
    exact mem_append_right _ (mem_singleton.mpr rfl)

theorem Over.sync (ended : Over state call) (uri : String) {caller : Caller}
    (other : caller.call ≠ some call) : Over (syncResourceSubscription state uri caller) call := by
  intro operation member
  rcases mem_append.mp member with old | new
  · exact ended operation old
  · rw [mem_singleton.mp new]
    exact other

section Following

variable {call : Nat} {uri : String} {past : List Output}

section

variable (followed : Followed call uri state past)
include followed

theorem Followed.of_same {other : State} (calls : other.calls = state.calls)
    (standing : other.standing = state.standing) (queue : other.queue = state.queue)
    {more : List Output} (silent : Output.resolved call ∉ more) :
    Followed call uri other (past ++ more) := by
  refine ⟨by rw [calls]; exact followed.known, ?_⟩
  have carried : Over state call → Over other call := fun ended => by
    unfold Over
    rw [queue]
    exact ended
  rw [standing]
  rcases followed.fate with ⟨waits, never⟩ | ⟨stands, ended⟩ | ⟨ended, dropped⟩
  · refine Or.inl ⟨waits, fun member => ?_⟩
    rcases mem_append.mp member with before | now
    · exact never before
    · exact silent now
  · exact Or.inr (Or.inl ⟨stands, carried ended⟩)
  · exact Or.inr (Or.inr ⟨carried ended, dropped.append silent⟩)

theorem Followed.sync (other : String) {caller : Caller} (foreign : caller.call ≠ some call) :
    Followed call uri (syncResourceSubscription state other caller) past := by
  refine ⟨followed.known, ?_⟩
  rcases followed.fate with waits | ⟨stands, ended⟩ | ⟨ended, dropped⟩
  · exact Or.inl waits
  · exact Or.inr (Or.inl ⟨stands, ended.sync other foreign⟩)
  · exact Or.inr (Or.inr ⟨ended.sync other foreign, dropped⟩)

theorem Followed.replay (position : Nat) : Followed call uri (replayFrom state position) past := by
  rcases replayFrom_cases state position with same | ⟨other, after, sync⟩
  · rw [same]
    exact followed
  · rw [sync]
    refine followed.sync other fun same => ?_
    cases same

/-- Standing calls that end or resolve are others than this one. -/
theorem Followed.standing {changed : State} (calls : state.calls ≤ changed.calls)
    (queue : changed.queue = state.queue)
    (kept : ∀ resolved, ⟨call, uri, resolved⟩ ∈ state.standing →
      ⟨call, uri, resolved⟩ ∈ changed.standing) : Followed call uri changed past := by
  refine ⟨Nat.lt_of_lt_of_le followed.known calls, ?_⟩
  unfold Over
  rw [queue]
  rcases followed.fate with ⟨waits, never⟩ | ⟨stands, ended⟩ | gone
  · exact Or.inl ⟨kept false waits, never⟩
  · exact Or.inr (Or.inl ⟨kept true stands, ended⟩)
  · exact Or.inr (Or.inr gone)

/-- The caller of another operation goes on. -/
theorem Followed.other_caller {operation : Operation} (foreign : operation.caller.call ≠ some call)
    (result : Result) :
    Followed call uri (ResourceSubscriptions.resumeCaller state operation result).1
      (past ++ (ResourceSubscriptions.resumeCaller state operation result).2) := by
  have apart : ∀ {outputs : List Output}, Output.resolved call ∉ outputs →
      Followed call uri state (past ++ outputs) := fun silent =>
    followed.of_same rfl rfl rfl silent
  unfold ResourceSubscriptions.resumeCaller
  split
  · rename_i other own
    have different : call ≠ other := fun same => foreign (by rw [own, same]; rfl)
    refine Followed.standing (apart fun member => ?_) (Nat.le_refl _) rfl fun resolved held => ?_
    · exact different (Output.resolved.inj (mem_singleton.mp member))
    · refine mem_map.mpr ⟨_, held, ?_⟩
      unfold ResourceSubscriptions.resolve
      rw [if_neg different]
  · rename_i other permanent own
    have different : call ≠ other := fun same => foreign (by rw [own, same]; rfl)
    refine Followed.standing (apart fun member => ?_) (Nat.le_refl _) rfl fun resolved held => ?_
    · cases mem_singleton.mp member
    · exact mem_filter.mpr ⟨held, by simp [different]⟩
  · rename_i other own
    have different : call ≠ other := fun same => foreign (by rw [own, same]; rfl)
    exact apart fun member => different (Output.resolved.inj (mem_singleton.mp member))
  · exact apart fun member => by cases mem_singleton.mp member
  · rename_i position own
    apply Followed.replay
    by_cases same : operation.uri = uri
    · refine ⟨followed.known, ?_⟩
      rcases followed.fate with ⟨waits, never⟩ | ⟨stands, ended⟩ | ⟨ended, dropped⟩
      · refine Or.inl ⟨mem_filter.mpr ⟨waits, by simp⟩, fun member => ?_⟩
        rcases mem_append.mp member with before | now
        · exact never before
        · cases mem_singleton.mp now
      · rw [same]
        exact Or.inr (Or.inr ⟨ended, droppedSince_of_last past⟩)
      · rw [same]
        exact Or.inr (Or.inr ⟨ended, droppedSince_of_last past⟩)
    · refine Followed.standing (apart fun member => ?_) (Nat.le_refl _) rfl fun resolved held => ?_
      · cases mem_singleton.mp member
      · exact mem_filter.mpr ⟨held, by simp [Ne.symm same]⟩
  · rw [append_nil]
    exact followed.replay _

theorem Followed.step (sustained : Sustained state) {event : Event}
    (kept : event ≠ .unsubscribeResource uri) :
    Followed call uri (ResourceSubscriptions.step state event).1
      (past ++ (ResourceSubscriptions.step state event).2) := by
  have known := followed.known
  cases event with
  | subscribeResource other =>
    show Followed call uri (subscribeResource state other) (past ++ [])
    rw [append_nil]
    unfold subscribeResource
    refine Followed.sync ?_ other fun same => ?_
    · exact followed.standing (Nat.le_succ _) rfl fun resolved held => mem_append_left _ held
    · have same : state.calls = call := Option.some.inj same
      omega
  | unsubscribeResource other =>
    show Followed call uri (unsubscribeResource state other) (past ++ [])
    rw [append_nil]
    unfold unsubscribeResource
    refine Followed.sync ?_ other fun same => ?_
    · refine followed.standing (Nat.le_succ _) rfl fun resolved held => ?_
      have apart : uri ≠ other := fun same => kept (by rw [same])
      exact mem_filter.mpr ⟨held, by simp [apart]⟩
    · have same : state.calls = call := Option.some.inj same
      omega
  | replayResourceSubscriptions =>
    show Followed call uri (replayFrom state 0) (past ++ [])
    rw [append_nil]
    exact followed.replay 0
  | begin =>
    show Followed call uri (ResourceSubscriptions.begin state).1
      (past ++ (ResourceSubscriptions.begin state).2)
    rcases begin_cases state with same | ⟨operation, rest, queued, waiting⟩
    · rw [same, append_nil]
      exact followed
    · rw [begin_of_waiting queued waiting]
      refine Followed.of_same followed ?_ ?_ ?_ fun member => ?_
      · rfl
      · rfl
      · rfl
      · cases mem_singleton.mp member
  | settle result =>
    show Followed call uri (ResourceSubscriptions.settle state result).1
      (past ++ (ResourceSubscriptions.settle state result).2)
    rcases settle_cases state result with same | ⟨operation, rest, method, queued, running⟩
    · rw [same, append_nil]
      exact followed
    · rw [settle_of_running queued running]
      refine Followed.of_same followed ?_ ?_ ?_ fun member => ?_
      · rfl
      · rfl
      · rfl
      · cases mem_singleton.mp member
  | resume =>
    show Followed call uri (ResourceSubscriptions.resume state).1
      (past ++ (ResourceSubscriptions.resume state).2)
    rcases resume_cases state with same | ⟨operation, rest, method, result, queued, settled⟩
    · rw [same, append_nil]
      exact followed
    · rw [resume_of_settled queued settled]
      have first : operation ∈ state.queue := by
        rw [queued]
        exact mem_cons_self
      have later : ∀ {call : Nat}, Over state call →
          Over (ResourceSubscriptions.behind state rest) call := fun ended other member =>
        ended other (by rw [queued]; exact mem_cons_of_mem _ member)
      by_cases own : operation.caller.call = some call
      · rcases followed.fate with ⟨waits, never⟩ | ⟨-, ended⟩ | ⟨ended, -⟩
        · have asker := (sustained.linked _ waits operation first own).1
          have once := sustained.once
          rw [queued] at once
          have ended : Over (ResourceSubscriptions.behind state rest) call :=
            fun other member => (pairwise_cons.mp once).1 other member call own
          cases result with
          | succeeded =>
            refine ⟨?_, Or.inr (Or.inl ?_)⟩
            · simp only [ResourceSubscriptions.resumeCaller, asker]
              exact known
            · simp only [ResourceSubscriptions.resumeCaller, asker]
              refine ⟨mem_map.mpr ⟨_, waits, ?_⟩, ended⟩
              simp [ResourceSubscriptions.resolve]
          | failed permanent =>
            refine ⟨?_, Or.inr (Or.inr ?_)⟩
            · simp only [ResourceSubscriptions.resumeCaller, asker]
              exact known
            · simp only [ResourceSubscriptions.resumeCaller, asker]
              refine ⟨ended, (droppedSince_of_never uri never).append fun member => ?_⟩
              cases mem_singleton.mp member
        · exact absurd own (ended operation first)
        · exact absurd own (ended operation first)
      · refine Followed.other_caller ?_ own result
        refine ⟨known, ?_⟩
        rcases followed.fate with waits | ⟨stands, ended⟩ | ⟨ended, dropped⟩
        · exact Or.inl waits
        · exact Or.inr (Or.inl ⟨stands, later ended⟩)
        · exact Or.inr (Or.inr ⟨later ended, dropped⟩)

end

end Following

end Steps

/-- A subscribeResource call that resolves leaves its URI in the set and subscribed at
the daemon, until the URI is unsubscribed or a later replay of it is rejected for good.
So no call that is rejected undoes it. -/
def StaysSubscribed (uris : List String) (events : List Event) : Prop :=
  ∀ before uri later, events = before ++ .subscribeResource uri :: later →
    Event.unsubscribeResource uri ∉ later →
    ∀ front back, (Runs.run step (subscribeResource (run uris before).1 uri) later).2 =
        front ++ .resolved (run uris before).1.calls :: back →
      Output.dropped uri ∉ back →
      (run uris events).1.resourceSubscriptions.contains uri = true ∧
        uri ∈ (run uris events).1.daemon

/-- RPCs go one at a time and in call order; when none is queued or running, the set
agrees with the last RPC of a URI, if that succeeded; and when no rejection disturbs
another call, a call that resolves stays subscribed. -/
theorem subscriptions_converge (uris : List String) (events : List Event) :
    (∃ count, rpcs (run uris events).2 = inTurn count ∨
        rpcs (run uris events).2 = inTurn count ++ [.issued count]) ∧
      ((run uris events).1.queue = [] → ∀ uri method,
        lastRpc uri (run uris events).2 = some (method, true) →
        (method = .subscribe ↔ (run uris events).1.resourceSubscriptions.contains uri = true)) ∧
      (Undisturbed uris events → StaysSubscribed uris events) := by
  have sound : Sustained (connected uris) := {
    busy := fun started => absurd rfl started
    listed := fun _ member => by cases member
    held := fun _ member => by cases member
    choosing := fun _ member => by cases member
    settled := fun _ member => by cases member
    linked := fun _ member => by cases member
    made := fun _ member => by cases member
    asked := fun _ member => by cases member
    once := List.Pairwise.nil }
  refine ⟨?_, ?_, ?_⟩
  · have turns := Runs.invariant_of_step step
      (fun state past => ∃ done, Turns state past done)
      (fun state event past holds => holds.elim fun done turns => turns.step event)
      [] (⟨0, rfl, rfl, fun started => absurd rfl started, rfl⟩ :
        ∃ done, Turns (connected uris) [] done) events
    obtain ⟨done, turns⟩ := turns
    have trace : rpcs (run uris events).2 = inTurn done ++
      inProgress done (run uris events).1.phase := turns.trace
    cases phase : (run uris events).1.phase with
    | waiting =>
      rw [phase] at trace
      exact ⟨done, Or.inl (trace.trans (append_nil _))⟩
    | running method =>
      rw [phase] at trace
      exact ⟨done, Or.inr trace⟩
    | settled method result =>
      rw [phase] at trace
      refine ⟨done + 1, Or.inl ?_⟩
      rw [trace, inTurn_succ]
      rfl
  · have first : Agreement (connected uris) [] :=
      ⟨fun started => absurd rfl started, fun _ _ _ _ queued _ => (by cases queued),
        fun _ => Or.inr (Or.inr ⟨fun _ underway => (by cases underway.1),
          fun _ ended => (by cases ended)⟩)⟩
    have agreement := Runs.invariant_of_step step Agreement
      (fun state event past holds => holds.step event) [] first events
    intro idle uri method ended
    have idle : (Runs.run step (connected uris) events).1.queue = [] := idle
    rcases agreement.agreed uri with ⟨operation, member, -⟩ | underway | ⟨-, last⟩
    · unfold undecided at member
      rw [idle] at member
      split at member <;> cases member
    · have first := underway.2
      rw [idle] at first
      cases first
    · have chosen : method = methodFor (run uris events).1 uri := last method ended
      rw [chosen]
      unfold methodFor
      split
      · rename_i held
        exact ⟨fun _ => held, fun _ => rfl⟩
      · rename_i absent
        exact ⟨fun same => (by cases same), fun held => absurd held absent⟩
  · intro calm before uri later shape kept front back outputs undropped
    subst shape
    have first := Runs.Meets.append_left step calm
    have rest := Runs.Meets.append_right step calm
    have reached : Sustained (run uris before).1 :=
      Runs.Meets.state_invariant step Sustained (fun _ _ holds calm => holds.step calm) sound first
    have called : Sustained (subscribeResource (run uris before).1 uri) := reached.step rest.1
    have whole : (run uris (before ++ .subscribeResource uri :: later)).1 =
        (Runs.run step (subscribeResource (run uris before).1 uri) later).1 := by
      unfold run
      rw [Runs.run_append, Runs.run_cons]
      rfl
    have others : Runs.Meets step (fun _ event => event ≠ .unsubscribeResource uri)
        (step (run uris before).1 (.subscribeResource uri)).1 later :=
      by
        refine Runs.Meets.of_forall step ?_ _
        intro event member _ same
        rw [same] at member
        exact kept member
    have meets := rest.2.and step others
    have followed := Runs.Meets.invariant step
      (fun state past => Sustained state ∧ Followed (run uris before).1.calls uri state past)
      (fun state event past holds allowed =>
        ⟨holds.1.step allowed.1, holds.2.step holds.1 allowed.2⟩)
      [] ⟨called, Nat.lt_succ_self _, Or.inl
        ⟨mem_append_right _ (mem_singleton.mpr rfl), not_mem_nil⟩⟩ meets
    rw [nil_append, outputs] at followed
    rw [whole]
    rcases followed.2.fate with ⟨-, never⟩ | ⟨stands, -⟩ | ⟨-, dropped⟩
    · exact absurd (mem_append_right _ mem_cons_self) never
    · exact ⟨followed.1.listed _ stands, followed.1.held _ stands rfl⟩
    · exact absurd (dropped front back rfl) undropped

/-- Two calls of a URI share an RPC queue after a replay, and the second resolves. -/
theorem subscriptions_converge_shared : StaysSubscribed ["logs"]
    [.replayResourceSubscriptions, .subscribeResource "devices", .begin, .settle .succeeded,
      .subscribeResource "devices", .resume, .begin, .settle .succeeded, .resume, .begin,
      .settle .succeeded, .resume] :=
  (subscriptions_converge ["logs"]
    [.replayResourceSubscriptions, .subscribeResource "devices", .begin, .settle .succeeded,
      .subscribeResource "devices", .resume, .begin, .settle .succeeded, .resume, .begin,
      .settle .succeeded, .resume]).2.2 (by unfold Undisturbed; decide)

/-- Two calls overlap, and the first is rejected: it takes the URI out, so the operation
of the second unsubscribes, and the second resolves with nothing subscribed. -/
theorem rejected_call_undoes_another : ¬ StaysSubscribed []
    [.subscribeResource "devices", .begin, .subscribeResource "devices", .settle (.failed false),
      .resume, .begin, .settle .succeeded, .resume] := by
  intro stays
  have told := stays [.subscribeResource "devices", .begin] "devices"
    [.settle (.failed false), .resume, .begin, .settle .succeeded, .resume] rfl (by decide)
    [.finished 0 "devices" .subscribe false, .rejected 0, .issued 1 "devices" .unsubscribe,
      .finished 1 "devices" .unsubscribe true] [] (by decide) (by decide)
  revert told
  decide

end AutoMobile.ResourceSubscriptions
