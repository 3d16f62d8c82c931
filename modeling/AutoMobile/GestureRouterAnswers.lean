import AutoMobile.GestureRouterSteps

/- The fate of one end request: it waits for the gesture that was active when it
came, and gets that gesture's outcome. -/
namespace AutoMobile.GestureRouter

open InsertionMap List

/-- The sessions of a later router: old ones, or of gestures made since. -/
structure Follows (router after : Router) : Prop where
  grows : router.gestures.length ≤ after.gestures.length
  sessions : ∀ gestureId reference, get? after.sessions gestureId = some reference →
    get? router.sessions gestureId = some reference ∨ router.gestures.length ≤ reference

theorem Follows.refl (router : Router) : Follows router router :=
  ⟨Nat.le_refl _, fun _ _ current => Or.inl current⟩

theorem Follows.trans {first second third : Router} (one : Follows first second)
    (two : Follows second third) : Follows first third where
  grows := Nat.le_trans one.grows two.grows
  sessions gestureId reference current := by
    rcases two.sessions gestureId reference current with before | new
    · exact one.sessions gestureId reference before
    · exact Or.inr (Nat.le_trans one.grows new)

theorem get?_of_erase {sessions : InsertionMap String Nat} {gone gestureId : String}
    {reference : Nat} (current : get? (erase sessions gone) gestureId = some reference) :
    get? sessions gestureId = some reference := by
  replace current := (of_get?_erase current).2
  exact current

theorem finish_follows (router : Router) (reference : Nat) (outcome : Outcome) :
    Follows router (finish router reference outcome).1 := by
  rcases accepts_or_refuses router reference with ⟨gesture, accepts⟩ | refuses
  · rw [finish_of_accepts accepts]
    exact ⟨Nat.le_refl _, fun _ _ current => Or.inl (get?_of_erase current)⟩
  · rw [(finish_of_refuses refuses outcome).1]
    exact Follows.refl router

theorem report_follows (router : Router) (reference : Nat) (reported : Option Outcome) :
    Follows router (report router reference reported).1 := by
  cases reported with
  | none => exact Follows.refl router
  | some outcome => exact finish_follows router reference outcome

theorem disowned_follows (router : Router) (session : String × Nat) :
    Follows router (disowned router session) :=
  ⟨Nat.le_of_eq (length_modify disconnect router.gestures session.2).symm,
    fun _ _ current => Or.inl (get?_of_erase current)⟩

theorem step_follows (router : Router) (event : Event) : Follows router (step router event).1 := by
  cases event with
  | start requestId gestureId owner ownerConnected reported =>
    show Follows router (start router requestId gestureId owner ownerConnected reported).1
    cases admitted : letIn router gestureId owner ownerConnected with
    | false =>
      rw [(start_of_not_letIn admitted requestId reported).1]
      exact Follows.refl router
    | true =>
      rw [start_of_letIn admitted]
      refine Follows.trans ⟨?_, fun other reference current => ?_⟩
        (report_follows (started router gestureId owner) _ reported)
      · simp [started]
      · have put : (if gestureId = other then some router.gestures.length else
          get? router.sessions other) = some reference := (get?_put _ _ _ _).symm.trans current
        split at put
        · exact Or.inr (Nat.le_of_eq (Option.some.inj put))
        · exact Or.inl put
  | cancelOwnedBy owner connected reported =>
    exact Runs.state_invariant_of_step (cancelOwned owner connected reported) (Follows router)
      (fun state session holds => by
        rw [cancelOwned_fst]
        exact holds.trans (disowned_follows state session))
      (Follows.refl router) (ownedBy router owner)
  | move requestId gestureId reported =>
    show Follows router (move router requestId gestureId reported).1
    cases unclosed : router.closed with
    | true =>
      rw [move_of_closed unclosed]
      exact Follows.refl router
    | false =>
      rw [move_of_open unclosed]
      cases get? router.sessions gestureId with
      | none => exact Follows.refl router
      | some reference => exact report_follows router reference reported
  | finishing requestId gestureId requester reported =>
    show Follows router (finishing router requestId gestureId requester reported).1
    cases unclosed : router.closed with
    | true =>
      rw [finishing_of_closed unclosed]
      exact Follows.refl router
    | false =>
      cases current : get? router.sessions gestureId with
      | none =>
        rw [finishing_of_over unclosed current]
        exact ⟨Nat.le_refl _, fun _ _ held => Or.inl held⟩
      | some reference =>
        rw [finishing_of_active unclosed current]
        have kept := awaited_kept router requestId gestureId requester
        refine Follows.trans ⟨?_, fun other reference held => ?_⟩
          (report_follows (awaited router requestId gestureId requester) reference reported)
        · exact Nat.le_of_eq (congrArg List.length kept.1.symm)
        · rw [kept.2.1] at held
          exact Or.inl held
  | terminated reference outcome => exact finish_follows router reference outcome
  | close reported =>
    show Follows router (close router reported).1
    cases unclosed : router.closed with
    | true =>
      rw [close_of_closed unclosed]
      exact Follows.refl router
    | false =>
      rw [(close_of_open unclosed reported).1]
      exact ⟨Nat.le_refl _, fun _ _ current => by cases current⟩

/-- An end request waits for the active gesture of its id. -/
structure Waits (gestureId : String) (reference : Nat) (pending : PendingEnd) (router : Router) :
    Prop where
  active : get? router.sessions gestureId = some reference
  listed : pending ∈ (get? router.pendingEndRequests gestureId).getD []
  alone : waitingFor pending.ticket router = [pending]

/-- An end request waits no more, and its gesture is not active. -/
structure Gone (gestureId : String) (reference ticket : Nat) (router : Router) : Prop where
  made : reference < router.gestures.length
  inactive : get? router.sessions gestureId ≠ some reference
  unheard : waitingFor ticket router = []
  old : ticket < router.ends

section Fate

variable {router : Router} {gestureId : String} {reference : Nat} {pending : PendingEnd}

section

variable (waits : Waits gestureId reference pending router) (sound : Sound router)
include waits sound

theorem Waits.unclosed : router.closed = false := by
  cases closed : router.closed with
  | false => rfl
  | true =>
    have active := waits.active
    rw [sound.shut closed] at active
    cases active

theorem Waits.accepts :
    ∃ gesture, gesture.gestureId = gestureId ∧ Accepts router reference gesture := by
  obtain ⟨gesture, known, named, live⟩ := sound.made gestureId reference waits.active
  exact ⟨gesture, named, known, live, waits.unclosed sound, named ▸ waits.active⟩

/-- Of the requests with its ticket, the pending one is in the list of its id, and
no other list has one. -/
theorem Waits.split : (((get? router.pendingEndRequests gestureId).getD []).filter
        fun other => other.ticket = pending.ticket) = [pending] ∧
      (values (erase router.pendingEndRequests gestureId)).flatten.filter
        (fun other => other.ticket = pending.ticket) = [] := by
  have perm := waitingFor_erase sound pending.ticket gestureId
  rw [waits.alone] at perm
  have here : pending ∈ ((get? router.pendingEndRequests gestureId).getD []).filter
      fun other => other.ticket = pending.ticket :=
    mem_filter.mpr ⟨waits.listed, by simp⟩
  obtain ⟨front, back, shape⟩ := append_of_mem here
  have lengths := perm.length_eq
  rw [shape] at lengths ⊢
  simp only [length_append, length_cons, length_nil] at lengths
  have frontNil : front = [] := length_eq_zero_iff.mp (by omega)
  have backNil : back = [] := length_eq_zero_iff.mp (by omega)
  refine ⟨by rw [frontNil, backNil]; rfl, length_eq_zero_iff.mp (by omega)⟩

theorem Waits.old : pending.ticket < router.ends := by
  refine sound.numbered pending ?_
  have member : pending ∈ waitingFor pending.ticket router := by
    rw [waits.alone]
    exact mem_singleton.mpr rfl
  exact (mem_filter.mp member).1

theorem Waits.made : reference < router.gestures.length := by
  obtain ⟨gesture, known, -, -⟩ := sound.made gestureId reference waits.active
  exact (List.getElem?_eq_some_iff.mp known).1

/-- An id that is dropped leaves the waiters of the others. -/
theorem Waits.dropped_other {other : String} (apart : other ≠ gestureId)
    (failures : InsertionMap String Outcome) :
    Waits gestureId reference pending (dropped router other failures) where
  active := by
    show get? (erase router.sessions other) gestureId = some reference
    rw [get?_erase, if_neg apart]
    exact waits.active
  listed := by
    show pending ∈ (get? (erase router.pendingEndRequests other) gestureId).getD []
    rw [get?_erase, if_neg apart]
    exact waits.listed
  alone := by
    have member : pending ∈ ((get? (erase router.pendingEndRequests other) gestureId).getD []) := by
      rw [get?_erase, if_neg apart]
      exact waits.listed
    have inside : pending ∈ waitingFor pending.ticket (dropped router other failures) := by
      refine mem_filter.mpr ⟨?_, by simp⟩
      exact (flatten_erase (nodup_keys_erase sound.distinctPending other) gestureId).mem_iff.mpr
        (mem_append_left _ member)
    have lengths := (waitingFor_erase sound pending.ticket other).length_eq
    rw [waits.alone, length_append] at lengths
    have short : (waitingFor pending.ticket (dropped router other failures)).length ≤ 1 := by
      show ((values (erase router.pendingEndRequests other)).flatten.filter
        fun entry => entry.ticket = pending.ticket).length ≤ 1
      simp only [length_singleton] at lengths
      omega
    obtain ⟨front, back, shape⟩ := append_of_mem inside
    rw [shape] at short ⊢
    simp only [length_append, length_cons] at short
    have frontNil : front = [] := length_eq_zero_iff.mp (by omega)
    have backNil : back = [] := length_eq_zero_iff.mp (by omega)
    rw [frontNil, backNil]
    rfl

theorem Waits.dropped_self (failures : InsertionMap String Outcome) :
    Gone gestureId reference pending.ticket (dropped router gestureId failures) where
  made := waits.made sound
  inactive := by
    show get? (erase router.sessions gestureId) gestureId ≠ some reference
    rw [get?_erase, if_pos rfl]
    intro none
    cases none
  unheard := (waits.split sound).2
  old := waits.old sound

/-- The termination of the awaited gesture is the answer. -/
theorem Waits.finish_self (outcome : Outcome) :
    Gone gestureId reference pending.ticket (finish router reference outcome).1 ∧
      answersTo pending.ticket (finish router reference outcome).2 =
        [(some pending.requestId, outcome)] := by
  obtain ⟨gesture, rfl, accepts⟩ := waits.accepts sound
  rw [finish_of_accepts accepts, answersTo_append, answersTo_keptFailures, answersTo_answers,
    (waits.split sound).1]
  exact ⟨waits.dropped_self sound _, rfl⟩

/-- Any other termination leaves the request waiting. -/
theorem Waits.finish_other {other : Nat} (apart : other ≠ reference) (outcome : Outcome) :
    Waits gestureId reference pending (finish router other outcome).1 ∧
      answersTo pending.ticket (finish router other outcome).2 = [] := by
  rcases accepts_or_refuses router other with ⟨gesture, accepts⟩ | refuses
  · have unnamed : gesture.gestureId ≠ gestureId := by
      rintro rfl
      exact apart (Option.some.inj (accepts.current.symm.trans waits.active))
    have still := waits.dropped_other sound unnamed
      (keptFailures router gesture.gestureId outcome).1
    have spends := finish_spends sound pending.ticket other outcome
    unfold Spends at spends
    rw [waits.alone, finish_of_accepts accepts] at spends
    rw [finish_of_accepts accepts]
    refine ⟨still, length_eq_zero_iff.mp ?_⟩
    dsimp only at spends ⊢
    rw [still.alone] at spends
    simp only [length_singleton] at spends
    omega
  · have unchanged := finish_of_refuses refuses outcome
    rw [unchanged.1, answersTo_of_warnings _ unchanged.2]
    exact ⟨waits, rfl⟩

theorem Waits.hear (other : Nat) (reported : Option Outcome) :
    (Waits gestureId reference pending (report router other reported).1 ∧
        answersTo pending.ticket (report router other reported).2 = []) ∨
      (Gone gestureId reference pending.ticket (report router other reported).1 ∧
        ∃ outcome, answersTo pending.ticket (report router other reported).2 =
          [(some pending.requestId, outcome)]) := by
  cases reported with
  | none => exact Or.inl ⟨waits, rfl⟩
  | some outcome =>
    by_cases same : other = reference
    · subst same
      have ended := waits.finish_self sound outcome
      exact Or.inr ⟨ended.1, outcome, ended.2⟩
    · exact Or.inl (waits.finish_other sound same outcome)

end

theorem Gone.pass (gone : Gone gestureId reference pending.ticket router) (sound : Sound router)
    (event : Event) :
    Gone gestureId reference pending.ticket (step router event).1 ∧
      answersTo pending.ticket (step router event).2 = [] := by
  have spends := step_spends sound pending.ticket event
  have old := gone.old
  rw [gone.unheard, if_neg (by omega)] at spends
  simp only [length_nil] at spends
  have follows := step_follows router event
  refine ⟨⟨Nat.lt_of_lt_of_le gone.made follows.grows, fun current => ?_,
    length_eq_zero_iff.mp (by omega), Nat.lt_of_lt_of_le old (step_ends_le router event)⟩,
    length_eq_zero_iff.mp (by omega)⟩
  rcases follows.sessions gestureId reference current with before | new
  · exact gone.inactive before
  · have made := gone.made
    omega

/-- What one block does to an end request that waits: it waits on, or is answered,
or is dropped with the owner of its gesture. -/
def Passes (gestureId : String) (reference : Nat) (pending : PendingEnd)
    (droppable : PendingEnd → Prop) (after : Router × List Output) : Prop :=
  (Waits gestureId reference pending after.1 ∧ answersTo pending.ticket after.2 = []) ∨
    Gone gestureId reference pending.ticket after.1 ∧
      ((∃ outcome, answersTo pending.ticket after.2 = [(some pending.requestId, outcome)]) ∨
        answersTo pending.ticket after.2 = [] ∧ droppable pending)

/-- The end requests that a disconnect need not answer. -/
def Unanswerable (owner : ConnectedClient) (connected : ConnectedClient → Bool)
    (pending : PendingEnd) : Prop :=
  ∃ requester, pending.requester = some requester ∧
    (requester = owner ∨ connected requester = false)

theorem unanswerable_of {owner : ConnectedClient} {connected : ConnectedClient → Bool}
    {pending : PendingEnd} (silent : pending.answerable owner connected = false) :
    Unanswerable owner connected pending := by
  unfold PendingEnd.answerable at silent
  cases asked : pending.requester with
  | none =>
    rw [asked] at silent
    cases silent
  | some requester =>
    rw [asked] at silent
    refine ⟨requester, asked, ?_⟩
    simp only [Bool.and_eq_false_iff, decide_eq_false_iff_not, not_not] at silent
    exact silent

section

variable (waits : Waits gestureId reference pending router)
include waits

theorem Waits.leave (sound : Sound router) (owner : ConnectedClient)
    (connected : ConnectedClient → Bool) (reported : Nat → Option Outcome) {session : String × Nat}
    (current : get? router.sessions session.1 = some session.2) :
    Passes gestureId reference pending
      (fun pending => Unanswerable owner connected pending ∧ session = (gestureId, reference))
      (cancelOwned owner connected reported router session) := by
  unfold Passes
  rw [cancelOwned_fst, answersTo_cancelOwned]
  by_cases same : session.1 = gestureId
  · subst same
    have held : session.2 = reference := Option.some.inj (current.symm.trans waits.active)
    have gone := waits.dropped_self sound (erase router.terminalFailures session.1)
    refine Or.inr ⟨⟨?_, gone.inactive, gone.unheard, gone.old⟩, ?_⟩
    · exact Nat.lt_of_lt_of_le gone.made (disowned_follows router session).grows
    · rw [filter_comm, (waits.split sound).1]
      cases answerable : pending.answerable owner connected with
      | true => exact Or.inl ⟨⟨false, some "Gesture owner disconnected"⟩, by simp [answerable]⟩
      | false => exact Or.inr ⟨by simp [answerable], unanswerable_of answerable, by rw [← held]⟩
  · have still := waits.dropped_other sound same (erase router.terminalFailures session.1)
    have spends := cancelOwned_spends owner connected reported sound pending.ticket session
    unfold Spends at spends
    rw [cancelOwned_fst, answersTo_cancelOwned] at spends
    have alone : waitingFor pending.ticket (disowned router session) = [pending] := still.alone
    rw [alone, waits.alone] at spends
    exact Or.inl ⟨⟨still.active, still.listed, alone⟩, length_eq_zero_iff.mp (by
      simp only [length_singleton] at spends
      omega)⟩

theorem Waits.disconnect (sound : Sound router) (owner : ConnectedClient)
    (connected : ConnectedClient → Bool) (reported : Nat → Option Outcome) :
    Passes gestureId reference pending
      (fun pending => Unanswerable owner connected pending ∧
        (gestureId, reference) ∈ ownedBy router owner)
      (cancelOwnedBy router owner connected reported) := by
  have inside : Runs.Meets (cancelOwned owner connected reported)
      (fun _ session => session ∈ ownedBy router owner) router (ownedBy router owner) :=
    Runs.Meets.of_forall _ (fun _ member _ => member) router
  have meets := (meets_ownedBy owner connected reported sound).and
    (cancelOwned owner connected reported) inside
  have kept := Runs.Meets.invariant (cancelOwned owner connected reported)
    (fun state past => Sound state ∧ Passes gestureId reference pending
      (fun pending => Unanswerable owner connected pending ∧
        (gestureId, reference) ∈ ownedBy router owner) (state, past))
    (fun state session past holds allowed => by
      obtain ⟨sound, passes⟩ := holds
      refine ⟨cancelOwned_fst owner connected reported state session ▸
        disowned_sound sound allowed.1, ?_⟩
      rcases passes with ⟨waits, none⟩ | ⟨gone, answer⟩
      · have none : answersTo pending.ticket past = [] := none
        unfold Passes
        rw [answersTo_append, none, nil_append]
        rcases waits.leave sound owner connected reported allowed.1 with still | gone
        · exact Or.inl still
        · refine Or.inr ⟨gone.1, gone.2.imp_right fun silent => ⟨silent.1, silent.2.1, ?_⟩⟩
          rw [← silent.2.2]
          exact allowed.2
      · have spends := cancelOwned_spends owner connected reported sound pending.ticket session
        have gone : Gone gestureId reference pending.ticket state := gone
        unfold Spends at spends
        rw [gone.unheard, cancelOwned_fst] at spends
        simp only [length_nil] at spends
        have quiet : answersTo pending.ticket
            (cancelOwned owner connected reported state session).2 = [] :=
          length_eq_zero_iff.mp (by omega)
        have follows := disowned_follows state session
        unfold Passes
        rw [answersTo_append, quiet, append_nil, cancelOwned_fst]
        refine Or.inr ⟨⟨Nat.lt_of_lt_of_le gone.made follows.grows, fun current => ?_,
          length_eq_zero_iff.mp (by omega), gone.old⟩, answer⟩
        rcases follows.sessions gestureId reference current with before | new
        · exact gone.inactive before
        · have made := gone.made
          omega)
    [] ⟨sound, Or.inl ⟨waits, rfl⟩⟩ meets
  exact kept.2

theorem Waits.stream {other : String} (free : get? router.sessions other = none)
    (owner : Option ConnectedClient) :
    Waits gestureId reference pending (started router other owner) where
  active := by
    have apart : other ≠ gestureId := by
      rintro rfl
      exact Option.some_ne_none _ (waits.active.symm.trans free)
    exact (get?_put_of_ne _ apart _).trans waits.active
  listed := waits.listed
  alone := waits.alone

theorem Waits.join (sound : Sound router) (requestId : Option String) (other : String)
    (requester : Option ConnectedClient) :
    Waits gestureId reference pending (awaited router requestId other requester) where
  active := by
    rw [(awaited_kept router requestId other requester).2.1]
    exact waits.active
  listed := by
    cases requestId with
    | none => exact waits.listed
    | some requestId =>
      show pending ∈ (get? (push _ other _) gestureId).getD []
      unfold push
      rw [get?_put]
      split
      · rename_i same
        rw [same]
        exact mem_append_left _ waits.listed
      · exact waits.listed
  alone := by
    have perm := waitingFor_awaited router requestId other requester pending.ticket
    have older : router.ends ≠ pending.ticket := Nat.ne_of_gt (waits.old sound)
    rw [waits.alone] at perm
    cases requestId with
    | none => exact perm_singleton.mp perm
    | some requestId =>
      simp only [if_neg older, append_nil] at perm
      exact perm_singleton.mp perm

end

theorem Passes.of_report {after : Router × List Output} {droppable : PendingEnd → Prop}
    (reported : (Waits gestureId reference pending after.1 ∧
        answersTo pending.ticket after.2 = []) ∨
      (Gone gestureId reference pending.ticket after.1 ∧
        ∃ outcome, answersTo pending.ticket after.2 = [(some pending.requestId, outcome)])) :
    Passes gestureId reference pending droppable after :=
  reported.imp_right fun gone => ⟨gone.1, Or.inl gone.2⟩

/-- A disconnect that need not answer an end request of this gesture. -/
def Drops (router : Router) (gestureId : String) (reference : Nat) (event : Event)
    (pending : PendingEnd) : Prop :=
  ∃ owner connected reported, event = .cancelOwnedBy owner connected reported ∧
    (gestureId, reference) ∈ ownedBy router owner ∧ Unanswerable owner connected pending

theorem Waits.pass (waits : Waits gestureId reference pending router) (sound : Sound router)
    (event : Event) :
    Passes gestureId reference pending (Drops router gestureId reference event)
      (step router event) := by
  have unclosed := waits.unclosed sound
  cases event with
  | start requestId other owner ownerConnected reported =>
    show Passes _ _ _ _ (start router requestId other owner ownerConnected reported)
    cases admitted : letIn router other owner ownerConnected with
    | false =>
      have turned := start_of_not_letIn admitted requestId reported
      exact Or.inl ⟨by rw [turned.1]; exact waits, turned.2 pending.ticket⟩
    | true =>
      have free := free_of_letIn admitted
      rw [start_of_letIn admitted]
      refine Passes.of_report ?_
      rw [answersTo_append, answersTo_start, append_nil]
      exact (waits.stream free.2 owner).hear
        (started_sound sound free.1 other owner) _ reported
  | cancelOwnedBy owner connected reported =>
    refine (waits.disconnect sound owner connected reported).imp_right fun gone =>
      ⟨gone.1, gone.2.imp_right fun silent => ⟨silent.1, ?_⟩⟩
    exact ⟨owner, connected, reported, rfl, silent.2.2, silent.2.1⟩
  | move requestId other reported =>
    show Passes _ _ _ _ (move router requestId other reported)
    rw [move_of_open unclosed]
    cases get? router.sessions other with
    | none => exact Or.inl ⟨waits, rfl⟩
    | some moved =>
      refine Passes.of_report ?_
      dsimp only
      rw [answersTo_append, answersTo_move, append_nil]
      exact waits.hear sound moved reported
  | finishing requestId other requester reported =>
    show Passes _ _ _ _ (finishing router requestId other requester reported)
    have older : router.ends ≠ pending.ticket := Nat.ne_of_gt (waits.old sound)
    cases current : get? router.sessions other with
    | none =>
      rw [finishing_of_over unclosed current]
      refine Or.inl ⟨⟨waits.active, waits.listed, waits.alone⟩, ?_⟩
      rw [answersTo_finishing, if_neg older]
    | some ending =>
      rw [finishing_of_active unclosed current]
      exact Passes.of_report ((waits.join sound requestId other requester).hear
        (awaited_sound sound current requestId requester) ending reported)
  | terminated other outcome => exact Passes.of_report (waits.hear sound other (some outcome))
  | close reported =>
    show Passes _ _ _ _ (close router reported)
    have closing := close_of_open unclosed reported
    refine Or.inr ⟨?_, Or.inl ⟨⟨false, some "Gesture stream closed"⟩, ?_⟩⟩
    · rw [closing.1]
      exact {
        made := waits.made sound
        inactive := fun current => by cases current
        unheard := rfl
        old := waits.old sound }
    · rw [closing.2, waits.alone]
      rfl

end Fate

end AutoMobile.GestureRouter
