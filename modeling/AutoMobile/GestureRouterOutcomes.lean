import AutoMobile.GestureRouterAnswers

/- Outcomes go to the gesture they belong to: to the requests that wait when it
terminates, and a failure also to the first end request that comes after it. -/
namespace AutoMobile.GestureRouter

open List hiding keys
open InsertionMap

/-- The terminations that a block brings, but for those of the gestures that it
takes out itself, on a disconnect and on close. -/
def terminations (router : Router) : Event → List (Nat × Outcome)
  | .start _ gestureId owner ownerConnected reported =>
    if letIn router gestureId owner ownerConnected then
      reported.toList.map fun outcome => (router.gestures.length, outcome)
    else []
  | .move _ gestureId reported | .finishing _ gestureId _ reported =>
    if router.closed then []
    else (get? router.sessions gestureId).toList.flatMap fun reference =>
      reported.toList.map fun outcome => (reference, outcome)
  | .terminated reference outcome => [(reference, outcome)]
  | .cancelOwnedBy _ _ _ | .close _ => []

/-- The gesture stands for the id when the block runs, or the block starts it. -/
def Active (router : Router) (event : Event) (gestureId : String) (reference : Nat) : Prop :=
  get? router.sessions gestureId = some reference ∨ ∃ requestId owner ownerConnected reported,
      event = .start requestId gestureId owner ownerConnected reported ∧
        letIn router gestureId owner ownerConnected = true ∧ reference = router.gestures.length

/-- A termination inside a block is a call of `finish` on a sound router in which the
gesture stands for its id and the waiters are those from before. -/
structure Finishes (router : Router) (gestureId : String) (reference : Nat) (outcome : Outcome)
    (after : Router × List Output) : Prop where
  within : ∃ inner, Sound inner ∧ get? inner.sessions gestureId = some reference ∧
    after.1 = (finish inner reference outcome).1 ∧
    (∃ back, after.2 = (finish inner reference outcome).2 ++ back ∧
      (∀ ticket, answersTo ticket back = [])) ∧
    ∀ pending, Waits gestureId reference pending router → Waits gestureId reference pending inner

theorem mem_reports {router : Router} {gestureId : String} {reported : Option Outcome}
    {reference : Nat} {outcome : Outcome}
    (brought : (reference, outcome) ∈ (get? router.sessions gestureId).toList.flatMap
      fun reference => reported.toList.map fun outcome => (reference, outcome)) :
    get? router.sessions gestureId = some reference ∧ reported = some outcome := by
  obtain ⟨current, held, member⟩ := mem_flatMap.mp brought
  obtain ⟨told, said, same⟩ := mem_map.mp member
  obtain ⟨rfl, rfl⟩ := Prod.mk.inj same
  exact ⟨Option.mem_toList.mp held, Option.mem_toList.mp said⟩

theorem Sound.current_lt {router : Router} (sound : Sound router) {gestureId : String}
    {reference : Nat} (current : get? router.sessions gestureId = some reference) :
    reference < router.gestures.length := by
  obtain ⟨gesture, known, -, -⟩ := sound.made gestureId reference current
  exact (List.getElem?_eq_some_iff.mp known).1

theorem step_finishes {router : Router} (sound : Sound router) {event : Event}
    {gestureId : String} {reference : Nat} {outcome : Outcome}
    (brought : (reference, outcome) ∈ terminations router event)
    (active : Active router event gestureId reference) :
    Finishes router gestureId reference outcome (step router event) := by
  cases event with
  | start requestId other owner ownerConnected reported =>
    dsimp only [terminations] at brought
    cases admitted : letIn router other owner ownerConnected with
    | false =>
      rw [admitted] at brought
      cases brought
    | true =>
      rw [if_pos admitted] at brought
      obtain ⟨told, said, same⟩ := mem_map.mp brought
      obtain ⟨rfl, rfl⟩ := Prod.mk.inj same
      have said : reported = some told := Option.mem_toList.mp said
      have free := free_of_letIn admitted
      have same : other = gestureId := by
        rcases active with before | ⟨_, _, _, _, begun, _, _⟩
        · exact absurd (sound.current_lt before) (Nat.lt_irrefl _)
        · injection begun
      subst same said
      refine ⟨started router other owner, started_sound sound free.1 other owner,
        get?_put_self _ _ _, ?_, ⟨[.result .start requestId ⟨true, none⟩], ?_,
          fun _ => rfl⟩, fun pending waits => waits.stream free.2 owner⟩
      · show (start router requestId other owner ownerConnected (some told)).1 = _
        rw [start_of_letIn admitted]
        rfl
      · show (start router requestId other owner ownerConnected (some told)).2 = _
        rw [start_of_letIn admitted]
        rfl
  | cancelOwnedBy owner connected reported => cases brought
  | move requestId other reported =>
    dsimp only [terminations] at brought
    cases unclosed : router.closed with
    | true =>
      rw [unclosed] at brought
      cases brought
    | false =>
      rw [if_neg (by simp [unclosed])] at brought
      obtain ⟨current, rfl⟩ := mem_reports brought
      have held : get? router.sessions gestureId = some reference := by
        rcases active with before | ⟨_, _, _, _, begun, _, _⟩
        · exact before
        · cases begun
      have moved : step router (.move requestId other (some outcome)) =
          ((finish router reference outcome).1,
            (finish router reference outcome).2 ++ [.result .move requestId ⟨true, none⟩]) := by
        show move router requestId other (some outcome) = _
        rw [move_of_open unclosed, current]
        rfl
      rw [moved]
      exact ⟨router, sound, held, rfl, ⟨_, rfl, fun _ => rfl⟩, fun _ waits => waits⟩
  | finishing requestId other requester reported =>
    dsimp only [terminations] at brought
    cases unclosed : router.closed with
    | true =>
      rw [unclosed] at brought
      cases brought
    | false =>
      rw [if_neg (by simp [unclosed])] at brought
      obtain ⟨current, rfl⟩ := mem_reports brought
      have held : get? router.sessions gestureId = some reference := by
        rcases active with before | ⟨_, _, _, _, begun, _, _⟩
        · exact before
        · cases begun
      have ended : step router (.finishing requestId other requester (some outcome)) =
          finish (awaited router requestId other requester) reference outcome :=
        finishing_of_active unclosed current requestId requester (some outcome)
      rw [ended]
      refine ⟨awaited router requestId other requester,
        awaited_sound sound current requestId requester, ?_, rfl,
        ⟨[], (append_nil _).symm, fun _ => rfl⟩,
        fun pending waits => waits.join sound requestId other requester⟩
      rw [(awaited_kept router requestId other requester).2.1]
      exact held
  | terminated other told =>
    obtain ⟨rfl, rfl⟩ := Prod.mk.inj (mem_singleton.mp brought)
    have held : get? router.sessions gestureId = some reference := by
      rcases active with before | ⟨_, _, _, _, begun, _, _⟩
      · exact before
      · cases begun
    exact ⟨router, sound, held, rfl, ⟨[], (append_nil _).symm, fun _ => rfl⟩, fun _ waits => waits⟩
  | close reported => cases brought

/-- A request that waits when its gesture terminates gets the outcome. -/
theorem Waits.outcome {router : Router} {gestureId : String} {reference : Nat}
    {pending : PendingEnd} (waits : Waits gestureId reference pending router)
    (sound : Sound router) {event : Event} {outcome : Outcome}
    (brought : (reference, outcome) ∈ terminations router event) :
    answersTo pending.ticket (step router event).2 = [(some pending.requestId, outcome)] := by
  obtain ⟨inner, innerSound, -, -, ⟨back, outputs, quiet⟩, still⟩ :=
    (step_finishes sound brought (Or.inl waits.active)).within
  rw [outputs, answersTo_append, quiet, append_nil]
  exact ((still pending waits).finish_self innerSound outcome).2

/-- A gesture that has failed, and whose failure nobody has claimed yet. -/
structure Retained (gestureId : String) (outcome : Outcome) (router : Router) : Prop where
  inactive : get? router.sessions gestureId = none
  kept : get? router.terminalFailures gestureId = some outcome
  unclosed : router.closed = false

theorem get?_recordFailure {failures : InsertionMap String Outcome} {failed gestureId : String}
    {outcome : Outcome}
    (held : Output.evicted gestureId ∉ (recordFailure failures failed outcome).2) :
    get? (recordFailure failures failed outcome).1 gestureId =
      get? (put failures failed outcome) gestureId := by
  unfold recordFailure at held ⊢
  dsimp only at held ⊢
  split
  · rename_i full
    rw [if_pos full] at held
    cases entries : put failures failed outcome with
    | nil => rfl
    | cons oldest rest =>
      rw [entries] at held
      dsimp only at held ⊢
      rw [get?_erase, if_neg]
      exact fun same => held (by rw [same]; exact mem_singleton.mpr rfl)
  · rfl

section Failures

variable {router : Router} {gestureId : String} {outcome : Outcome}

theorem Retained.finish (retained : Retained gestureId outcome router) (reference : Nat)
    (other : Outcome)
    (held : Output.evicted gestureId ∉ (GestureRouter.finish router reference other).2) :
    Retained gestureId outcome (GestureRouter.finish router reference other).1 := by
  rcases accepts_or_refuses router reference with ⟨gesture, accepts⟩ | refuses
  · have apart : gesture.gestureId ≠ gestureId := by
      rintro rfl
      exact Option.some_ne_none _ (accepts.current.symm.trans retained.inactive)
    rw [finish_of_accepts accepts] at held ⊢
    refine ⟨?_, ?_, retained.unclosed⟩
    · show get? (erase router.sessions gesture.gestureId) gestureId = none
      rw [get?_erase, if_neg apart]
      exact retained.inactive
    · show get? (keptFailures router gesture.gestureId other).1 gestureId = some outcome
      have held : Output.evicted gestureId ∉
          (keptFailures router gesture.gestureId other).2 := fun member =>
        held (mem_append_left _ member)
      unfold keptFailures at held ⊢
      split
      · exact retained.kept
      · rename_i failed
        rw [if_neg failed] at held
        rw [get?_recordFailure held, get?_put_of_ne _ apart]
        exact retained.kept
  · rw [(finish_of_refuses refuses other).1]
    exact retained

theorem Retained.report (retained : Retained gestureId outcome router) (reference : Nat)
    (reported : Option Outcome)
    (held : Output.evicted gestureId ∉ (GestureRouter.report router reference reported).2) :
    Retained gestureId outcome (GestureRouter.report router reference reported).1 := by
  cases reported with
  | none => exact retained
  | some other => exact retained.finish reference other held

/-- The blocks that leave a failure where it is: no end request of its id, no new
stream under it, no close, and the cap does not drop it. -/
def Keeps (gestureId : String) (router : Router) (event : Event) : Prop :=
  (match event with
    | .start _ other owner ownerConnected _ =>
      other ≠ gestureId ∨ letIn router other owner ownerConnected = false
    | .finishing _ other _ _ => other ≠ gestureId
    | .close _ => False
    | _ => True) ∧
  Output.evicted gestureId ∉ (step router event).2

theorem Retained.step (retained : Retained gestureId outcome router) (sound : Sound router)
    {event : Event} (keeps : Keeps gestureId router event) :
    Retained gestureId outcome (GestureRouter.step router event).1 := by
  obtain ⟨elsewhere, held⟩ := keeps
  cases event with
  | start requestId other owner ownerConnected reported =>
    have held : Output.evicted gestureId ∉
      (start router requestId other owner ownerConnected reported).2 := held
    show Retained gestureId outcome
      (start router requestId other owner ownerConnected reported).1
    cases admitted : letIn router other owner ownerConnected with
    | false =>
      rw [(start_of_not_letIn admitted requestId reported).1]
      exact retained
    | true =>
      have apart : other ≠ gestureId := by
        rcases elsewhere with apart | turned
        · exact apart
        · rw [admitted] at turned
          cases turned
      rw [start_of_letIn admitted] at held ⊢
      have before : Retained gestureId outcome (started router other owner) := by
        refine ⟨(get?_put_of_ne _ apart _).trans retained.inactive, ?_, retained.unclosed⟩
        show get? (erase router.terminalFailures other) gestureId = some outcome
        rw [get?_erase, if_neg apart]
        exact retained.kept
      exact before.report _ reported fun member => held (mem_append_left _ member)
  | cancelOwnedBy owner connected reported =>
    refine Runs.Meets.state_invariant (cancelOwned owner connected reported)
      (Retained gestureId outcome) (fun state session holds current => ?_) retained
      (meets_ownedBy owner connected reported sound)
    have apart : session.1 ≠ gestureId := by
      intro same
      rw [same] at current
      exact Option.some_ne_none _ (current.symm.trans holds.inactive)
    rw [cancelOwned_fst]
    refine ⟨?_, ?_, holds.unclosed⟩
    · show get? (erase state.sessions session.1) gestureId = none
      rw [get?_erase, if_neg apart]
      exact holds.inactive
    · show get? (erase state.terminalFailures session.1) gestureId = some outcome
      rw [get?_erase, if_neg apart]
      exact holds.kept
  | move requestId other reported =>
    have held : Output.evicted gestureId ∉ (move router requestId other reported).2 := held
    show Retained gestureId outcome (move router requestId other reported).1
    rw [move_of_open retained.unclosed] at held ⊢
    cases current : get? router.sessions other with
    | none => exact retained
    | some reference =>
      rw [current] at held
      exact retained.report reference reported fun member => held (mem_append_left _ member)
  | finishing requestId other requester reported =>
    have held : Output.evicted gestureId ∉
      (finishing router requestId other requester reported).2 := held
    have elsewhere : other ≠ gestureId := elsewhere
    show Retained gestureId outcome (finishing router requestId other requester reported).1
    cases current : get? router.sessions other with
    | none =>
      rw [finishing_of_over retained.unclosed current]
      refine ⟨retained.inactive, ?_, retained.unclosed⟩
      show get? (erase router.terminalFailures other) gestureId = some outcome
      rw [get?_erase, if_neg elsewhere]
      exact retained.kept
    | some reference =>
      rw [finishing_of_active retained.unclosed current] at held ⊢
      have same := awaited_kept router requestId other requester
      have before : Retained gestureId outcome (awaited router requestId other requester) :=
        ⟨by rw [same.2.1]; exact retained.inactive, by rw [same.2.2.1]; exact retained.kept,
          by rw [same.2.2.2.1]; exact retained.unclosed⟩
      exact before.report reference reported held
  | terminated reference other => exact retained.finish reference other held
  | close reported => exact elsewhere.elim

/-- A gesture that fails while it stands for its id leaves its failure behind. -/
theorem retained_of_failure (sound : Sound router) {event : Event} {reference : Nat}
    (failed : outcome.success = false)
    (brought : (reference, outcome) ∈ terminations router event)
    (active : Active router event gestureId reference)
    (held : Output.evicted gestureId ∉ (step router event).2) :
    Retained gestureId outcome (step router event).1 := by
  obtain ⟨inner, innerSound, current, left, ⟨back, outputs, -⟩, -⟩ :=
    (step_finishes sound brought active).within
  obtain ⟨gesture, known, rfl, live⟩ := innerSound.made gestureId reference current
  have unclosed : inner.closed = false := by
    cases closed : inner.closed with
    | false => rfl
    | true =>
      rw [innerSound.shut closed] at current
      cases current
  have accepts : Accepts inner reference gesture := ⟨known, live, unclosed, current⟩
  rw [outputs, finish_of_accepts accepts] at held
  rw [left, finish_of_accepts accepts]
  refine ⟨?_, ?_, unclosed⟩
  · show get? (erase inner.sessions gesture.gestureId) gesture.gestureId = none
    rw [get?_erase, if_pos rfl]
  · have quiet : Output.evicted gesture.gestureId ∉
        (keptFailures inner gesture.gestureId outcome).2 := fun member =>
      held (mem_append_left _ (mem_append_left _ member))
    show get? (keptFailures inner gesture.gestureId outcome).1 gesture.gestureId = some outcome
    unfold keptFailures at quiet ⊢
    rw [failed] at quiet ⊢
    rw [if_neg (by decide)] at quiet ⊢
    rw [get?_recordFailure quiet, get?_put_self]

/-- The end request that claims a failure. -/
theorem Retained.claim (retained : Retained gestureId outcome router) (requestId : Option String)
    (requester : Option ConnectedClient) (reported : Option Outcome) :
    (GestureRouter.step router (.finishing requestId gestureId requester reported)).2 =
      [.result (.finishing router.ends) requestId outcome] := by
  show (finishing router requestId gestureId requester reported).2 = _
  rw [finishing_of_over retained.unclosed retained.inactive, retained.kept]
  rfl

theorem Retained.run (retained : Retained gestureId outcome router) (sound : Sound router)
    {events : List Event} (meets : Runs.Meets GestureRouter.step (Keeps gestureId) router events) :
    Retained gestureId outcome (Runs.run GestureRouter.step router events).1 := by
  have kept := Runs.Meets.state_invariant GestureRouter.step
    (fun state => Sound state ∧ Retained gestureId outcome state)
    (fun state event holds keeps => ⟨step_sound holds.1 event, holds.2.step holds.1 keeps⟩)
    ⟨sound, retained⟩ meets
  exact kept.2

end Failures

section Fates

variable {gestureId : String} {reference : Nat} {pending : PendingEnd}

theorem Gone.run {router : Router} (gone : Gone gestureId reference pending.ticket router)
    (sound : Sound router) (events : List Event) :
    answersTo pending.ticket (Runs.run step router events).2 = [] := by
  have kept := Runs.invariant_of_step step
    (fun state past => Sound state ∧ Gone gestureId reference pending.ticket state ∧
      answersTo pending.ticket past = [])
    (fun state event past holds => by
      have after := holds.2.1.pass holds.1 event
      refine ⟨step_sound holds.1 event, after.1, ?_⟩
      rw [answersTo_append, holds.2.2, after.2]
      rfl)
    [] ⟨sound, gone, rfl⟩ events
  exact kept.2.2

/-- An end request that waits is answered once over the blocks that follow, unless
its gesture is still active after them or a disconnect drops it. -/
theorem Waits.run {router : Router} (waits : Waits gestureId reference pending router)
    (sound : Sound router) (events : List Event) :
    (∃ outcome, answersTo pending.ticket (Runs.run step router events).2 =
        [(some pending.requestId, outcome)]) ∨
      answersTo pending.ticket (Runs.run step router events).2 = [] ∧
        (get? (Runs.run step router events).1.sessions gestureId = some reference ∨
          ∃ middle event rest, events = middle ++ event :: rest ∧
            Drops (Runs.run step router middle).1 gestureId reference event pending) := by
  induction events generalizing router with
  | nil => exact Or.inr ⟨rfl, Or.inl waits.active⟩
  | cons event events ih =>
    have later := step_sound sound event
    rw [Runs.run_cons]
    dsimp only
    rw [answersTo_append]
    rcases waits.pass sound event with ⟨still, quiet⟩ | ⟨gone, answered | ⟨quiet, drops⟩⟩
    · rw [quiet, nil_append]
      rcases ih still later with answered | ⟨none, active | ⟨middle, other, rest, split, drops⟩⟩
      · exact Or.inl answered
      · exact Or.inr ⟨none, Or.inl active⟩
      · exact Or.inr ⟨none, Or.inr ⟨event :: middle, other, rest, by rw [split]; rfl, drops⟩⟩
    · obtain ⟨outcome, answer⟩ := answered
      rw [answer, gone.run later events]
      exact Or.inl ⟨outcome, rfl⟩
    · rw [quiet, gone.run later events]
      exact Or.inr ⟨rfl, Or.inr ⟨[], event, events, rfl, drops⟩⟩

/-- A request that still waits after a run has waited all along. -/
theorem Waits.still {router : Router} (waits : Waits gestureId reference pending router)
    (sound : Sound router) (events : List Event)
    (active : get? (Runs.run step router events).1.sessions gestureId = some reference) :
    Waits gestureId reference pending (Runs.run step router events).1 := by
  have kept := Runs.state_invariant_of_step step
    (fun state => Sound state ∧ (Waits gestureId reference pending state ∨
      Gone gestureId reference pending.ticket state))
    (fun state event holds => by
      refine ⟨step_sound holds.1 event, ?_⟩
      rcases holds.2 with waits | gone
      · exact (waits.pass holds.1 event).imp And.left And.left
      · exact Or.inr (gone.pass holds.1 event).1)
    ⟨sound, Or.inl waits⟩ events
  rcases kept.2 with waits | gone
  · exact waits
  · exact absurd active gone.inactive

/-- An end request of an active gesture waits, until the call to the session returns. -/
theorem waits_of_ending {router : Router} (sound : Sound router)
    (current : get? router.sessions gestureId = some reference) (requestId : String)
    (requester : Option ConnectedClient) :
    Waits gestureId reference ⟨requestId, requester, router.ends⟩
      (awaited router (some requestId) gestureId requester) where
  active := current
  listed := by
    show _ ∈ (get? (push _ gestureId _) gestureId).getD []
    unfold push
    rw [get?_put_self]
    exact mem_append_right _ (mem_singleton.mpr rfl)
  alone := by
    have perm := waitingFor_awaited router (some requestId) gestureId requester router.ends
    rw [waitingFor_fresh sound (Nat.le_refl _)] at perm
    simp only [if_true, nil_append] at perm
    exact perm_singleton.mp perm

end Fates

section Requests

variable (before later : List Event) (requestId gestureId : String)
  (requester : Option ConnectedClient) (reported : Option Outcome)

/-- The ticket of an end request that comes after `before`. -/
def ticketAfter : Nat := (run before).1.ends

/-- The run in which the end request comes between `before` and `later`. -/
def ending : List Event :=
  before ++ .finishing (some requestId) gestureId requester reported :: later

/-- The request is answered once, unless its gesture is still active or a disconnect
of the owner drops it, whose requester is that owner or has itself disconnected. -/
def ExactlyOnce : Prop :=
  (∃ outcome, answersTo (ticketAfter before)
      (run (ending before later requestId gestureId requester reported)).2 =
        [(some requestId, outcome)]) ∨
    answersTo (ticketAfter before)
        (run (ending before later requestId gestureId requester reported)).2 = [] ∧
      ∃ reference, get? (run before).1.sessions gestureId = some reference ∧
        (get? (run (ending before later requestId gestureId requester reported)).1.sessions
            gestureId = some reference ∨
          ∃ middle event rest, later = middle ++ event :: rest ∧
            Drops (run (ending before middle requestId gestureId requester reported)).1 gestureId
              reference event ⟨requestId, requester, ticketAfter before⟩)

/-- The block in which the gesture of the request terminates answers the request with
the outcome of that gesture. -/
def OwnOutcome : Prop :=
  ∀ reference, get? (run before).1.sessions gestureId = some reference →
    (∀ outcome, reported = some outcome → answersTo (ticketAfter before) (step (run before).1
        (.finishing (some requestId) gestureId requester reported)).2 =
          [(some requestId, outcome)]) ∧
    ∀ middle event rest outcome, later = middle ++ event :: rest →
      get? (run (ending before middle requestId gestureId requester reported)).1.sessions
        gestureId = some reference →
      (reference, outcome) ∈ terminations
        (run (ending before middle requestId gestureId requester reported)).1 event →
      answersTo (ticketAfter before) (step
        (run (ending before middle requestId gestureId requester reported)).1 event).2 =
          [(some requestId, outcome)]

theorem run_ending : run (ending before later requestId gestureId requester reported) =
    ((Runs.run step (finishing (run before).1 (some requestId) gestureId requester reported).1
        later).1,
      (run before).2 ++
        ((finishing (run before).1 (some requestId) gestureId requester reported).2 ++
          (Runs.run step
            (finishing (run before).1 (some requestId) gestureId requester reported).1
              later).2)) := by
  unfold run ending
  rw [Runs.run_append, Runs.run_cons]
  rfl

theorem exactlyOnce (unclosed : (run before).1.closed = false) :
    ExactlyOnce before later requestId gestureId requester reported := by
  have sound := sound_run before
  have unasked := (answered_once before (ticketAfter before)).1 (Nat.le_refl _)
  unfold ExactlyOnce
  rw [run_ending, answersTo_append, unasked, nil_append, answersTo_append]
  have next := finishing_sound sound (some requestId) gestureId requester reported
  cases current : get? (run before).1.sessions gestureId with
  | none =>
    have once := (answered_once (ending before later requestId gestureId requester reported)
      (ticketAfter before)).2
    rw [run_ending, answersTo_append, unasked, nil_append, answersTo_append] at once
    have asked := finishing_of_over unclosed current (some requestId) requester reported
    have answer : answersTo (ticketAfter before)
        (finishing (run before).1 (some requestId) gestureId requester reported).2 =
          [(some requestId, ((get? (run before).1.terminalFailures gestureId).getD
            ⟨true, none⟩))] := by
      rw [asked, answersTo_finishing]
      exact if_pos rfl
    rw [answer] at once ⊢
    rw [length_append, length_singleton] at once
    have quiet : answersTo (ticketAfter before) (Runs.run step
        (finishing (run before).1 (some requestId) gestureId requester reported).1 later).2 = [] :=
      length_eq_zero_iff.mp (by omega)
    exact Or.inl ⟨_, by rw [quiet, append_nil]⟩
  | some reference =>
    have waits := waits_of_ending sound current requestId requester
    have inner := awaited_sound sound current (some requestId) requester
    rw [finishing_of_active unclosed current] at next ⊢
    rcases waits.hear inner reference reported with ⟨still, quiet⟩ | ⟨gone, outcome, answer⟩
    · have quiet : answersTo (ticketAfter before)
          (report (awaited (run before).1 (some requestId) gestureId requester) reference
            reported).2 = [] := quiet
      rw [quiet, nil_append]
      rcases still.run next later with answered | ⟨none, fate⟩
      · exact Or.inl answered
      · refine Or.inr ⟨none, reference, rfl, fate.imp_right ?_⟩
        rintro ⟨middle, event, rest, split, drops⟩
        refine ⟨middle, event, rest, split, ?_⟩
        rw [run_ending, finishing_of_active unclosed current]
        exact drops
    · have answer : answersTo (ticketAfter before)
          (report (awaited (run before).1 (some requestId) gestureId requester) reference
            reported).2 = [(some requestId, outcome)] := answer
      have quiet := gone.run next later
      exact Or.inl ⟨outcome, by rw [answer]; exact congrArg _ quiet⟩

theorem ownOutcome (unclosed : (run before).1.closed = false) :
    OwnOutcome before later requestId gestureId requester reported := by
  have sound := sound_run before
  intro reference current
  have waits := waits_of_ending sound current requestId requester
  have inner := awaited_sound sound current (some requestId) requester
  refine ⟨fun outcome said => ?_, fun middle event rest outcome _ active brought => ?_⟩
  · subst said
    show answersTo _ (finishing (run before).1 (some requestId) gestureId requester
      (some outcome)).2 = _
    rw [finishing_of_active unclosed current]
    exact (waits.finish_self inner outcome).2
  · have next := finishing_sound sound (some requestId) gestureId requester reported
    rw [run_ending] at active brought ⊢
    rw [finishing_of_active unclosed current] at active brought next ⊢
    have reached : Sound (Runs.run step (report (awaited (run before).1 (some requestId) gestureId
        requester) reference reported).1 middle).1 :=
      Runs.state_invariant_of_step step Sound (fun _ event sound => step_sound sound event) next
        middle
    have still : Waits gestureId reference ⟨requestId, requester, (run before).1.ends⟩
        (Runs.run step (report (awaited (run before).1 (some requestId) gestureId requester)
          reference reported).1 middle).1 := by
      rcases waits.hear inner reference reported with ⟨still, -⟩ | ⟨gone, -⟩
      · exact still.still next middle active
      · have follows := Runs.state_invariant_of_step step
          (fun state => Sound state ∧ Gone gestureId reference
            (⟨requestId, requester, (run before).1.ends⟩ : PendingEnd).ticket state)
          (fun state event holds => ⟨step_sound holds.1 event, (holds.2.pass holds.1 event).1⟩)
          ⟨next, gone⟩ middle
        exact absurd active follows.2.inactive
    exact still.outcome reached brought

end Requests

/-- A failure of a gesture that counts reaches the first end request of its id after
it, when the cap does not drop it and no new stream or close comes between. -/
def FailureReachesFirstEnd (counts : Router → Event → String → Nat → Prop) : Prop :=
  ∀ before event middle gestureId reference outcome requestId requester reported,
    outcome.success = false →
    (reference, outcome) ∈ terminations (run before).1 event →
    counts (run before).1 event gestureId reference →
    Output.evicted gestureId ∉ (step (run before).1 event).2 →
    Runs.Meets step (Keeps gestureId) (run (before ++ [event])).1 middle →
    (step (run (before ++ event :: middle)).1
        (.finishing requestId gestureId requester reported)).2 =
      [.result (.finishing (run (before ++ event :: middle)).1.ends) requestId outcome]

/-- A gesture of a client that disconnects can fail afterwards, and the failure is
only logged: the next end request of its id is told of a success. -/
theorem disconnected_failure_lost : ¬ FailureReachesFirstEnd fun router _ gestureId reference =>
    (router.gestures[reference]?).map Gesture.gestureId = some gestureId := by
  intro claimed
  have told := claimed
    [.start none "drag" (some 0) true none, .cancelOwnedBy 0 (fun _ => true) fun _ => none]
    (.terminated 0 ⟨false, some "refused"⟩) [] "drag" 0 ⟨false, some "refused"⟩ (some "release")
    (some 1) none rfl (by decide) (by decide) (by decide) trivial
  revert told
  decide

/-- End requests are answered exactly once and truthfully: at most once each; exactly
once but for those of active gestures and those that a disconnect drops; with the
outcome of their own gesture when it terminates. A failure of a gesture that stands
for its id reaches the first end request after it, any other termination changes
nothing, and only active ids have requests that wait. -/
theorem end_requests_answered : (∀ events ticket, (answersTo ticket (run events).2).length ≤ 1) ∧
      (∀ before later requestId gestureId requester reported, (run before).1.closed = false →
        ExactlyOnce before later requestId gestureId requester reported ∧
          OwnOutcome before later requestId gestureId requester reported) ∧
      FailureReachesFirstEnd Active ∧
      (∀ events reference gesture outcome, (run events).1.gestures[reference]? = some gesture →
        get? (run events).1.sessions gesture.gestureId ≠ some reference ∨
          gesture.disconnected = true →
        (step (run events).1 (.terminated reference outcome)).1 = (run events).1) ∧
      ∀ events, ∀ gestureId ∈ keys (run events).1.pendingEndRequests,
        gestureId ∈ keys (run events).1.sessions := by
  refine ⟨fun events ticket => ?_, fun before later requestId gestureId requester reported
    unclosed => ⟨exactlyOnce before later requestId gestureId requester reported unclosed,
      ownOutcome before later requestId gestureId requester reported unclosed⟩, ?_, ?_, ?_⟩
  · have once := (answered_once events ticket).2
    omega
  · intro before event middle gestureId reference outcome requestId requester reported failed
      brought active held meets
    have retained := retained_of_failure (sound_run before) failed brought active held
    have split : run (before ++ [event]) = ((step (run before).1 event).1,
        (run before).2 ++ (step (run before).1 event).2) := by
      unfold run
      rw [Runs.run_append, Runs.run_cons, Runs.run_nil, append_nil]
    have whole : (run (before ++ event :: middle)).1 =
        (Runs.run step (run (before ++ [event])).1 middle).1 := by
      unfold run
      rw [show before ++ event :: middle = (before ++ [event]) ++ middle by simp, Runs.run_append]
    have next := sound_run (before ++ [event])
    rw [split] at meets whole next
    rw [whole]
    exact (retained.run next meets).claim requestId requester reported
  · intro events reference gesture outcome known stale
    refine (finish_of_refuses (fun other accepts => ?_) outcome).1
    obtain rfl := Option.some.inj (known.symm.trans accepts.known)
    rcases stale with superseded | disconnected
    · exact superseded accepts.current
    · exact Bool.false_ne_true (accepts.connected.symm.trans disconnected)
  · intro events gestureId waiting
    obtain ⟨requests, listed⟩ := (mem_keys_iff _ _).mp waiting
    refine (mem_keys_iff _ _).mpr (Option.ne_none_iff_exists'.mp fun none => ?_)
    have gone := (sound_run events).active gestureId none
    rw [listed] at gone
    cases gone

end AutoMobile.GestureRouter
