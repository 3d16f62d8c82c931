import AutoMobile.GestureRouterLedger

/- What each block of the gesture thread keeps, and the bound on the answers of a
whole run. -/
namespace AutoMobile.GestureRouter

open InsertionMap List

section Disconnecting

variable (owner : ConnectedClient) (connected : ConnectedClient → Bool)
  (reported : Nat → Option Outcome)

/-- The router that an owned gesture leaves behind. -/
def disowned (router : Router) (session : String × Nat) : Router :=
  { dropped router session.1 (erase router.terminalFailures session.1) with
    gestures := router.gestures.modify session.2 disconnect }

theorem cancelOwned_refuses (router : Router) (session : String × Nat) (gesture : Gesture) :
    ¬ Accepts (disowned router session) session.2 gesture := by
  intro accepts
  have known : (router.gestures.modify session.2 disconnect)[session.2]? = some gesture :=
    accepts.known
  rw [getElem?_modify_eq, Option.map_eq_map, Option.map_eq_some_iff] at known
  obtain ⟨before, -, rfl⟩ := known
  have connected : true = false := accepts.connected
  cases connected

theorem cancelOwned_fst (router : Router) (session : String × Nat) :
    (cancelOwned owner connected reported router session).1 = disowned router session :=
  (report_of_refuses (cancelOwned_refuses router session) (reported session.2)).1

theorem answersTo_cancelOwned (ticket : Nat) (router : Router) (session : String × Nat) :
    answersTo ticket (cancelOwned owner connected reported router session).2 =
      ((((get? router.pendingEndRequests session.1).getD []).filter
        (PendingEnd.answerable owner connected)).filter
          fun pending => pending.ticket = ticket).map
        fun pending => (some pending.requestId, ⟨false, some "Gesture owner disconnected"⟩) := by
  have silent := answersTo_of_warnings ticket
    (report_of_refuses (cancelOwned_refuses router session) (reported session.2)).2
  show answersTo ticket (_ ++ _) = _
  rw [answersTo_append, answersTo_answers]
  exact (congrArg _ silent).trans (append_nil _)

variable {router : Router}

theorem disowned_sound (sound : Sound router) {session : String × Nat}
    (current : get? router.sessions session.1 = some session.2) :
    Sound (disowned router session) := by
  have base : Sound (dropped router session.1 (erase router.terminalFailures session.1)) :=
    sound.dropped session.1 fun other apart => Or.inr (by rw [get?_erase, if_neg (Ne.symm apart)])
  refine { base with made := ?_ }
  intro gestureId reference held
  obtain ⟨gesture, known, named, live⟩ := base.made gestureId reference held
  refine ⟨gesture, ?_, named, live⟩
  have apart : session.2 ≠ reference := by
    rintro rfl
    obtain ⟨own, ownKnown, ownNamed, -⟩ := sound.made session.1 session.2 current
    have same : own = gesture := Option.some.inj (ownKnown.symm.trans known)
    have gone : get? (erase router.sessions session.1) session.1 = none := by
      rw [get?_erase, if_pos rfl]
    rw [← named, ← same, ownNamed] at held
    exact Option.some_ne_none _ (held.symm.trans gone)
  show (router.gestures.modify session.2 disconnect)[reference]? = some gesture
  rw [getElem?_modify_ne _ _ apart]
  exact known

theorem cancelOwned_spends (sound : Sound router) (ticket : Nat) (session : String × Nat) :
    Spends ticket router (cancelOwned owner connected reported router session) := by
  unfold Spends
  have fewer : (((get? router.pendingEndRequests session.1).getD []).filter
      (PendingEnd.answerable owner connected)).filter (fun pending => pending.ticket = ticket)
        |>.Sublist (((get? router.pendingEndRequests session.1).getD []).filter
          fun pending => pending.ticket = ticket) := filter_sublist.filter _
  rw [answersTo_cancelOwned, cancelOwned_fst, length_map,
    (waitingFor_erase sound ticket session.1).length_eq, length_append]
  exact Nat.add_le_add_right fewer.length_le _

/-- Each session of a list is still the current one of its id when its turn comes. -/
theorem meets_current {sessions : List (String × Nat)} (distinct : (sessions.map Prod.fst).Nodup)
    (current : ∀ session ∈ sessions, get? router.sessions session.1 = some session.2) :
    Runs.Meets (cancelOwned owner connected reported)
      (fun router session => get? router.sessions session.1 = some session.2) router sessions := by
  induction sessions generalizing router with
  | nil => trivial
  | cons first rest ih =>
    rw [map_cons, nodup_cons] at distinct
    refine ⟨current first mem_cons_self, ih distinct.2 fun session member => ?_⟩
    have apart : first.1 ≠ session.1 := fun same =>
      distinct.1 (mem_map.mpr ⟨session, member, same.symm⟩)
    rw [cancelOwned_fst]
    show get? (erase router.sessions first.1) session.1 = some session.2
    rw [get?_erase, if_neg apart]
    exact current session (mem_cons_of_mem _ member)

theorem meets_ownedBy (sound : Sound router) : Runs.Meets (cancelOwned owner connected reported)
      (fun router session => get? router.sessions session.1 = some session.2) router
      (ownedBy router owner) :=
  meets_current owner connected reported
    ((filter_sublist.map Prod.fst).nodup sound.distinctSessions)
    fun _ member => get?_of_mem sound.distinctSessions (mem_of_mem_filter member)

theorem cancelOwnedBy_sound (sound : Sound router) :
    Sound (cancelOwnedBy router owner connected reported).1 :=
  Runs.Meets.state_invariant _ Sound
    (fun _ session holds current => cancelOwned_fst owner connected reported _ session ▸
      disowned_sound holds current)
    sound (meets_ownedBy owner connected reported sound)

theorem cancelOwnedBy_spends (sound : Sound router) (ticket : Nat) :
    Spends ticket router (cancelOwnedBy router owner connected reported) := by
  have kept := Runs.Meets.invariant (cancelOwned owner connected reported)
    (fun state past => Sound state ∧ (answersTo ticket past).length +
      (waitingFor ticket state).length ≤ (waitingFor ticket router).length)
    (fun state session past holds current => by
      refine ⟨cancelOwned_fst owner connected reported _ session ▸
        disowned_sound holds.1 current, ?_⟩
      have spends := cancelOwned_spends owner connected reported holds.1 ticket session
      unfold Spends at spends
      have before := holds.2
      rw [answersTo_append, length_append]
      omega)
    [] ⟨sound, by simp⟩ (meets_ownedBy owner connected reported sound)
  exact kept.2

end Disconnecting

/-- The router right after a stream is let in. -/
def started (router : Router) (gestureId : String) (owner : Option ConnectedClient) : Router :=
  { router with
    gestures := router.gestures ++ [{ gestureId, owner }]
    sessions := put router.sessions gestureId router.gestures.length
    terminalFailures := erase router.terminalFailures gestureId }

/-- A start that is let in: an open router, a live owner and a free id. -/
def letIn (router : Router) (gestureId : String) (owner : Option ConnectedClient)
    (ownerConnected : Bool) : Bool :=
  !router.closed && !(owner.isSome && !ownerConnected) && !has router.sessions gestureId

variable {router : Router} {gestureId : String} {owner : Option ConnectedClient}
  {ownerConnected : Bool}

theorem start_of_letIn (admitted : letIn router gestureId owner ownerConnected = true)
    (requestId : Option String) (reported : Option Outcome) :
    start router requestId gestureId owner ownerConnected reported =
      ((report (started router gestureId owner) router.gestures.length reported).1,
        (report (started router gestureId owner) router.gestures.length reported).2 ++
          [.result .start requestId ⟨true, none⟩]) := by
  simp only [letIn, Bool.and_eq_true, Bool.not_eq_true'] at admitted
  unfold start
  rw [if_neg (by simp [admitted.1.1, admitted.1.2]), if_neg (by simp [admitted.2])]
  rfl

theorem start_of_not_letIn (turned : letIn router gestureId owner ownerConnected = false)
    (requestId : Option String) (reported : Option Outcome) :
    (start router requestId gestureId owner ownerConnected reported).1 = router ∧
      ∀ ticket, answersTo ticket
        (start router requestId gestureId owner ownerConnected reported).2 = [] := by
  unfold start
  by_cases barred : (router.closed || (owner.isSome && !ownerConnected)) = true
  · rw [if_pos barred]
    exact ⟨rfl, fun _ => rfl⟩
  · rw [if_neg barred]
    by_cases taken : has router.sessions gestureId = true
    · rw [if_pos taken]
      exact ⟨rfl, fun _ => rfl⟩
    · simp only [Bool.not_eq_true] at barred taken
      simp only [Bool.or_eq_false_iff] at barred
      simp [letIn, barred.1, barred.2, taken] at turned

theorem free_of_letIn (admitted : letIn router gestureId owner ownerConnected = true) :
    router.closed = false ∧ get? router.sessions gestureId = none := by
  simp only [letIn, Bool.and_eq_true, Bool.not_eq_true'] at admitted
  refine ⟨admitted.1.1, ?_⟩
  have free : (get? router.sessions gestureId).isSome = false := admitted.2
  simpa using free

theorem started_sound (sound : Sound router) (unclosed : router.closed = false) (gestureId : String)
    (owner : Option ConnectedClient) : Sound (started router gestureId owner) where
  distinctSessions := nodup_keys_put sound.distinctSessions gestureId _
  distinctPending := sound.distinctPending
  made other reference current := by
    have put : (if gestureId = other then some router.gestures.length else
      get? router.sessions other) = some reference := (get?_put _ _ _ _).symm.trans current
    by_cases same : gestureId = other
    · rw [if_pos same] at put
      obtain rfl := Option.some.inj put
      exact ⟨{ gestureId, owner }, getElem?_concat_length, same, rfl⟩
    · rw [if_neg same] at put
      obtain ⟨gesture, known, named, live⟩ := sound.made other reference put
      have bound := (List.getElem?_eq_some_iff.mp known).1
      exact ⟨gesture, (getElem?_append_left bound).trans known, named, live⟩
  active other gone := by
    have put : (if gestureId = other then some router.gestures.length else
      get? router.sessions other) = none := (get?_put _ _ _ _).symm.trans gone
    by_cases same : gestureId = other
    · rw [if_pos same] at put
      cases put
    · rw [if_neg same] at put
      exact sound.active other put
  unclaimed other reference current := by
    have put : (if gestureId = other then some router.gestures.length else
      get? router.sessions other) = some reference := (get?_put _ _ _ _).symm.trans current
    show get? (erase router.terminalFailures gestureId) other = none
    rw [get?_erase]
    by_cases same : gestureId = other
    · rw [if_pos same]
    · rw [if_neg same] at put ⊢
      exact sound.unclaimed other reference put
  numbered := sound.numbered
  shut closed := by
    have contradiction : router.closed = true := closed
    rw [unclosed] at contradiction
    cases contradiction

theorem start_sound (sound : Sound router) (requestId : Option String) (gestureId : String)
    (owner : Option ConnectedClient) (ownerConnected : Bool) (reported : Option Outcome) :
    Sound (start router requestId gestureId owner ownerConnected reported).1 := by
  cases admitted : letIn router gestureId owner ownerConnected with
  | false =>
    rw [(start_of_not_letIn admitted requestId reported).1]
    exact sound
  | true =>
    have free := free_of_letIn admitted
    rw [start_of_letIn admitted]
    exact report_sound (started_sound sound free.1 gestureId owner) _ _

theorem start_spends (sound : Sound router) (ticket : Nat) (requestId : Option String)
    (gestureId : String) (owner : Option ConnectedClient) (ownerConnected : Bool)
    (reported : Option Outcome) :
    Spends ticket router (start router requestId gestureId owner ownerConnected reported) := by
  cases admitted : letIn router gestureId owner ownerConnected with
  | false =>
    have turned := start_of_not_letIn admitted requestId reported
    unfold Spends
    rw [turned.1, turned.2]
    simp
  | true =>
    have free := free_of_letIn admitted
    have spends := report_spends (started_sound sound free.1 gestureId owner) ticket
      router.gestures.length reported
    unfold Spends at spends ⊢
    rw [start_of_letIn admitted, answersTo_append, answersTo_start, append_nil]
    exact spends

theorem move_of_open (unclosed : router.closed = false) (requestId : Option String)
    (gestureId : String) (reported : Option Outcome) :
    move router requestId gestureId reported = match get? router.sessions gestureId with
      | none => (router, [.result .move requestId ⟨true, none⟩])
      | some reference => ((report router reference reported).1,
          (report router reference reported).2 ++ [.result .move requestId ⟨true, none⟩]) := by
  unfold move
  rw [if_neg (by simp [unclosed])]
  cases get? router.sessions gestureId <;> rfl

theorem move_of_closed (closed : router.closed = true) (requestId : Option String)
    (gestureId : String) (reported : Option Outcome) :
    move router requestId gestureId reported = (router, []) := if_pos closed

theorem move_sound (sound : Sound router) (requestId : Option String) (gestureId : String)
    (reported : Option Outcome) :
    Sound (move router requestId gestureId reported).1 := by
  cases unclosed : router.closed with
  | true =>
    rw [move_of_closed unclosed]
    exact sound
  | false =>
    rw [move_of_open unclosed]
    cases get? router.sessions gestureId with
    | none => exact sound
    | some reference => exact report_sound sound reference reported

theorem move_spends (sound : Sound router) (ticket : Nat) (requestId : Option String)
    (gestureId : String) (reported : Option Outcome) :
    Spends ticket router (move router requestId gestureId reported) := by
  cases unclosed : router.closed with
  | true =>
    rw [move_of_closed unclosed]
    simp [Spends]
  | false =>
    rw [move_of_open unclosed]
    cases get? router.sessions gestureId with
    | none => exact Nat.le_of_eq (Nat.zero_add _)
    | some reference =>
      have spends := report_spends sound ticket reference reported
      unfold Spends at spends ⊢
      dsimp only
      rw [answersTo_append, answersTo_move, append_nil]
      exact spends

/-- The router while an end request is with the session of its gesture. -/
def awaited (router : Router) (requestId : Option String) (gestureId : String)
    (requester : Option ConnectedClient) : Router :=
  match requestId with
  | none => { router with ends := router.ends + 1 }
  | some requestId => { router with
      ends := router.ends + 1
      pendingEndRequests :=
        push router.pendingEndRequests gestureId ⟨requestId, requester, router.ends⟩ }

theorem finishing_of_closed (closed : router.closed = true) (requestId : Option String)
    (gestureId : String) (requester : Option ConnectedClient) (reported : Option Outcome) :
    finishing router requestId gestureId requester reported = (router, []) := if_pos closed

theorem finishing_of_over (unclosed : router.closed = false)
    (ended : get? router.sessions gestureId = none) (requestId : Option String)
    (requester : Option ConnectedClient) (reported : Option Outcome) :
    finishing router requestId gestureId requester reported = ({ router with
          ends := router.ends + 1
          terminalFailures := erase router.terminalFailures gestureId },
        [.result (.finishing router.ends) requestId
          ((get? router.terminalFailures gestureId).getD ⟨true, none⟩)]) := by
  simp [finishing, unclosed, ended]

theorem finishing_of_active (unclosed : router.closed = false) {reference : Nat}
    (current : get? router.sessions gestureId = some reference) (requestId : Option String)
    (requester : Option ConnectedClient) (reported : Option Outcome) :
    finishing router requestId gestureId requester reported =
      report (awaited router requestId gestureId requester) reference reported := by
  cases requestId <;> simp [finishing, unclosed, current, awaited]

theorem awaited_kept (router : Router) (requestId : Option String) (gestureId : String)
    (requester : Option ConnectedClient) :
    (awaited router requestId gestureId requester).gestures = router.gestures ∧
      (awaited router requestId gestureId requester).sessions = router.sessions ∧
      (awaited router requestId gestureId requester).terminalFailures = router.terminalFailures ∧
      (awaited router requestId gestureId requester).closed = router.closed ∧
      (awaited router requestId gestureId requester).ends = router.ends + 1 := by
  cases requestId <;> exact ⟨rfl, rfl, rfl, rfl, rfl⟩

theorem numbered_push (sound : Sound router) (gestureId requestId : String)
    (requester : Option ConnectedClient) :
    ∀ pending ∈ (values (push router.pendingEndRequests gestureId
      ⟨requestId, requester, router.ends⟩)).flatten, pending.ticket < router.ends + 1 := by
  intro pending member
  rcases mem_append.mp ((flatten_push _ _ _).mem_iff.mp member) with old | new
  · exact Nat.lt_succ_of_lt (sound.numbered pending old)
  · rw [mem_singleton.mp new]
    exact Nat.lt_succ_self _

theorem awaited_sound (sound : Sound router) {reference : Nat}
    (current : get? router.sessions gestureId = some reference) (requestId : Option String)
    (requester : Option ConnectedClient) :
    Sound (awaited router requestId gestureId requester) := by
  cases requestId with
  | none =>
    exact { sound with
      numbered := fun pending member => Nat.lt_succ_of_lt (sound.numbered pending member) }
  | some requestId =>
    refine { sound with
      distinctPending := nodup_keys_put sound.distinctPending gestureId _
      active := ?_
      numbered := numbered_push sound gestureId requestId requester }
    intro other gone
    have apart : gestureId ≠ other := by
      rintro rfl
      exact Option.some_ne_none _ (current.symm.trans gone)
    exact (get?_put_of_ne _ apart _).trans (sound.active other gone)

theorem waitingFor_awaited (router : Router) (requestId : Option String) (gestureId : String)
    (requester : Option ConnectedClient) (ticket : Nat) :
    (waitingFor ticket (awaited router requestId gestureId requester)).Perm
      (waitingFor ticket router ++ match requestId with
        | none => []
        | some requestId =>
          if router.ends = ticket then [⟨requestId, requester, router.ends⟩] else []) := by
  cases requestId with
  | none =>
    rw [append_nil]
    exact List.Perm.refl _
  | some requestId =>
    have perm := (flatten_push router.pendingEndRequests gestureId
      (⟨requestId, requester, router.ends⟩ : PendingEnd)).filter
        fun pending => decide (pending.ticket = ticket)
    rw [filter_append] at perm
    by_cases same : router.ends = ticket
    · simpa [waitingFor, awaited, same] using perm
    · simpa [waitingFor, awaited, same] using perm

theorem waitingFor_fresh (sound : Sound router) {ticket : Nat} (fresh : router.ends ≤ ticket) :
    waitingFor ticket router = [] := by
  refine filter_eq_nil_iff.mpr fun pending member => ?_
  have bound := sound.numbered pending member
  simp only [decide_eq_true_eq]
  omega

theorem finishing_sound (sound : Sound router) (requestId : Option String) (gestureId : String)
    (requester : Option ConnectedClient) (reported : Option Outcome) :
    Sound (finishing router requestId gestureId requester reported).1 := by
  cases unclosed : router.closed with
  | true =>
    rw [finishing_of_closed unclosed]
    exact sound
  | false =>
    cases current : get? router.sessions gestureId with
    | none =>
      rw [finishing_of_over unclosed current]
      refine { sound with unclaimed := ?_, numbered := ?_ }
      · intro other reference held
        show get? (erase router.terminalFailures gestureId) other = none
        rw [get?_erase]
        split
        · rfl
        · exact sound.unclaimed other reference held
      · exact fun pending member => Nat.lt_succ_of_lt (sound.numbered pending member)
    | some reference =>
      rw [finishing_of_active unclosed current]
      exact report_sound (awaited_sound sound current requestId requester) _ _

/-- The end request itself is the only one that a block brings in. -/
theorem finishing_spends (sound : Sound router) (ticket : Nat) (requestId : Option String)
    (gestureId : String) (requester : Option ConnectedClient) (reported : Option Outcome) :
    let after := finishing router requestId gestureId requester reported
    (answersTo ticket after.2).length + (waitingFor ticket after.1).length ≤
      (waitingFor ticket router).length +
        if router.closed = false ∧ router.ends = ticket then 1 else 0 := by
  dsimp only
  cases unclosed : router.closed with
  | true =>
    rw [finishing_of_closed unclosed]
    simp
  | false =>
    cases current : get? router.sessions gestureId with
    | none =>
      rw [finishing_of_over unclosed current, answersTo_finishing]
      have waiting : waitingFor ticket { router with
        ends := router.ends + 1
        terminalFailures := erase router.terminalFailures gestureId } =
          waitingFor ticket router := rfl
      dsimp only
      rw [waiting]
      by_cases same : router.ends = ticket
      · simp [same]
        omega
      · simp [same]
    | some reference =>
      rw [finishing_of_active unclosed current]
      have spends := report_spends (awaited_sound sound current requestId requester) ticket
        reference reported
      unfold Spends at spends
      rw [(waitingFor_awaited router requestId gestureId requester ticket).length_eq,
        length_append] at spends
      by_cases same : router.ends = ticket
      · cases requestId with
        | none =>
          simp only [length_nil] at spends
          omega
        | some requestId =>
          simp only [same, if_true, length_singleton, and_self] at spends ⊢
          exact spends
      · cases requestId <;> simpa [same] using spends

/-- The sessions that a closing router cancels report to nobody. -/
theorem close_reports (reported : Nat → Option Outcome) (closed : router.closed = true)
    (sessions : List (String × Nat)) :
    (Runs.run (fun router session => report router session.2 (reported session.2)) router
        sessions).1 = router ∧
      ∀ output ∈ (Runs.run (fun router session => report router session.2 (reported session.2))
        router sessions).2, ∃ text, output = .warning text := by
  induction sessions with
  | nil => exact ⟨rfl, fun output member => by cases member⟩
  | cons session rest ih =>
    have refuses : ∀ gesture, ¬ Accepts router session.2 gesture := fun gesture accepts => by
      have unclosed := accepts.unclosed
      rw [closed] at unclosed
      cases unclosed
    have silent := report_of_refuses refuses (reported session.2)
    rw [Runs.run_cons]
    dsimp only
    rw [silent.1]
    refine ⟨ih.1, fun output member => ?_⟩
    rcases mem_append.mp member with first | later
    · exact silent.2 output first
    · exact ih.2 output later

theorem close_of_open (unclosed : router.closed = false) (reported : Nat → Option Outcome) :
    (close router reported).1 = { router with
        closed := true, sessions := [], pendingEndRequests := [], terminalFailures := [] } ∧
      ∀ ticket, answersTo ticket (close router reported).2 = (waitingFor ticket router).map
          fun pending => (some pending.requestId, ⟨false, some "Gesture stream closed"⟩) := by
  have closing : ({ router with closed := true } : Router).closed = true := rfl
  have silent := close_reports reported closing router.sessions
  unfold close
  rw [if_neg (by simp [unclosed])]
  refine ⟨?_, fun ticket => ?_⟩
  · dsimp only
    rw [silent.1]
  · dsimp only
    rw [answersTo_append, answersTo_of_warnings ticket silent.2, silent.1, answersTo_answers]
    rfl

theorem close_of_closed (closed : router.closed = true) (reported : Nat → Option Outcome) :
    close router reported = (router, []) := if_pos closed

theorem close_sound (sound : Sound router) (reported : Nat → Option Outcome) :
    Sound (close router reported).1 := by
  cases unclosed : router.closed with
  | true =>
    rw [close_of_closed unclosed]
    exact sound
  | false =>
    rw [(close_of_open unclosed reported).1]
    exact {
      distinctSessions := nodup_nil
      distinctPending := nodup_nil
      made := fun _ _ current => by cases current
      active := fun _ _ => rfl
      unclaimed := fun _ _ current => by cases current
      numbered := fun _ member => by cases member
      shut := fun _ => rfl }

theorem close_spends (router : Router) (ticket : Nat) (reported : Nat → Option Outcome) :
    Spends ticket router (close router reported) := by
  unfold Spends
  cases unclosed : router.closed with
  | true =>
    rw [close_of_closed unclosed]
    simp
  | false =>
    have closing := close_of_open unclosed reported
    rw [closing.1, closing.2, length_map]
    exact Nat.le_refl _

theorem step_sound (sound : Sound router) (event : Event) : Sound (step router event).1 := by
  cases event with
  | start requestId gestureId owner ownerConnected reported =>
    exact start_sound sound requestId gestureId owner ownerConnected reported
  | cancelOwnedBy owner connected reported =>
    exact cancelOwnedBy_sound owner connected reported sound
  | move requestId gestureId reported => exact move_sound sound requestId gestureId reported
  | finishing requestId gestureId requester reported =>
    exact finishing_sound sound requestId gestureId requester reported
  | terminated reference outcome => exact finish_sound sound reference outcome
  | close reported => exact close_sound sound reported

theorem sound_run (events : List Event) : Sound (run events).1 := by
  have start : Sound {} := {
    distinctSessions := nodup_nil
    distinctPending := nodup_nil
    made := fun _ _ current => by cases current
    active := fun _ _ => rfl
    unclaimed := fun _ _ current => by cases current
    numbered := fun _ member => by cases member
    shut := fun _ => rfl }
  exact Runs.state_invariant_of_step step Sound (fun _ event sound => step_sound sound event)
    start events

/-- An end request that is let in, and gets the next ticket. -/
def takesTicket (router : Router) : Event → Bool
  | .finishing _ _ _ _ => !router.closed
  | _ => false

theorem step_spends (sound : Sound router) (ticket : Nat) (event : Event) :
    (answersTo ticket (step router event).2).length +
        (waitingFor ticket (step router event).1).length ≤
      (waitingFor ticket router).length +
        if takesTicket router event = true ∧ router.ends = ticket then 1 else 0 := by
  cases event with
  | start requestId gestureId owner ownerConnected reported =>
    exact Nat.le_add_right_of_le
      (start_spends sound ticket requestId gestureId owner ownerConnected reported)
  | cancelOwnedBy owner connected reported =>
    exact Nat.le_add_right_of_le (cancelOwnedBy_spends owner connected reported sound ticket)
  | move requestId gestureId reported =>
    exact Nat.le_add_right_of_le (move_spends sound ticket requestId gestureId reported)
  | finishing requestId gestureId requester reported =>
    have spends := finishing_spends sound ticket requestId gestureId requester reported
    simpa [takesTicket, step] using spends
  | terminated reference outcome =>
    exact Nat.le_add_right_of_le (finish_spends sound ticket reference outcome)
  | close reported => exact Nat.le_add_right_of_le (close_spends router ticket reported)

theorem finish_ends (router : Router) (reference : Nat) (outcome : Outcome) :
    (finish router reference outcome).1.ends = router.ends := by
  rcases accepts_or_refuses router reference with ⟨gesture, accepts⟩ | refuses
  · rw [finish_of_accepts accepts]
    rfl
  · rw [(finish_of_refuses refuses outcome).1]

theorem report_ends (router : Router) (reference : Nat) (reported : Option Outcome) :
    (report router reference reported).1.ends = router.ends := by
  cases reported with
  | none => rfl
  | some outcome => exact finish_ends router reference outcome

theorem ends_of_takesTicket {event : Event} (takes : takesTicket router event = true) :
    (step router event).1.ends = router.ends + 1 := by
  cases event with
  | finishing requestId gestureId requester reported =>
    have unclosed : router.closed = false := by simpa [takesTicket] using takes
    show (finishing router requestId gestureId requester reported).1.ends = _
    cases current : get? router.sessions gestureId with
    | none => rw [finishing_of_over unclosed current]
    | some reference =>
      rw [finishing_of_active unclosed current, report_ends]
      exact (awaited_kept router requestId gestureId requester).2.2.2.2
  | start | cancelOwnedBy | move | terminated | close => cases takes

theorem cancelOwnedBy_ends (router : Router) (owner : ConnectedClient)
    (connected : ConnectedClient → Bool) (reported : Nat → Option Outcome) :
    (cancelOwnedBy router owner connected reported).1.ends = router.ends :=
  Runs.state_invariant_of_step (cancelOwned owner connected reported)
    (fun state => state.ends = router.ends)
    (fun _ session holds => by
      rw [cancelOwned_fst]
      exact holds)
    rfl (ownedBy router owner)

theorem ends_of_not_takesTicket {event : Event} (takes : takesTicket router event = false) :
    (step router event).1.ends = router.ends := by
  cases event with
  | start requestId gestureId owner ownerConnected reported =>
    show (start router requestId gestureId owner ownerConnected reported).1.ends = _
    cases admitted : letIn router gestureId owner ownerConnected with
    | false => rw [(start_of_not_letIn admitted requestId reported).1]
    | true =>
      rw [start_of_letIn admitted, report_ends]
      rfl
  | cancelOwnedBy owner connected reported =>
    exact cancelOwnedBy_ends router owner connected reported
  | move requestId gestureId reported =>
    show (move router requestId gestureId reported).1.ends = _
    cases unclosed : router.closed with
    | true => rw [move_of_closed unclosed]
    | false =>
      rw [move_of_open unclosed]
      cases get? router.sessions gestureId with
      | none => rfl
      | some reference => exact report_ends _ _ _
  | finishing requestId gestureId requester reported =>
    have closed : router.closed = true := by simpa [takesTicket] using takes
    show (finishing router requestId gestureId requester reported).1.ends = _
    rw [finishing_of_closed closed]
  | terminated reference outcome => exact finish_ends _ _ _
  | close reported =>
    show (close router reported).1.ends = _
    cases unclosed : router.closed with
    | true => rw [close_of_closed unclosed]
    | false => rw [(close_of_open unclosed reported).1]

theorem step_ends_le (router : Router) (event : Event) :
    router.ends ≤ (step router event).1.ends := by
  cases takes : takesTicket router event with
  | true =>
    rw [ends_of_takesTicket takes]
    exact Nat.le_succ _
  | false => exact Nat.le_of_eq (ends_of_not_takesTicket takes).symm

/-- An end request is answered at most once, and not before it is made. -/
theorem answered_once (events : List Event) (ticket : Nat) :
    ((run events).1.ends ≤ ticket → answersTo ticket (run events).2 = []) ∧
      (answersTo ticket (run events).2).length + (waitingFor ticket (run events).1).length ≤ 1 := by
  have kept := Runs.invariant_of_step step
    (fun router past => Sound router ∧ (router.ends ≤ ticket → answersTo ticket past = []) ∧
      (answersTo ticket past).length + (waitingFor ticket router).length ≤ 1)
    (fun router event past holds => by
      obtain ⟨sound, early, once⟩ := holds
      have spends := step_spends sound ticket event
      refine ⟨step_sound sound event, fun later => ?_, ?_⟩
      · by_cases takes : takesTicket router event = true ∧ router.ends = ticket
        · have ends := ends_of_takesTicket takes.1
          omega
        · rw [if_neg takes] at spends
          by_cases fresh : router.ends ≤ ticket
          · rw [waitingFor_fresh sound fresh] at spends
            have none : answersTo ticket (step router event).2 = [] :=
              length_eq_zero_iff.mp (by simp at spends; simp [spends])
            rw [answersTo_append, early fresh, none]
            rfl
          · have grows : router.ends ≤ (step router event).1.ends := step_ends_le router event
            omega
      · rw [answersTo_append, length_append]
        by_cases takes : takesTicket router event = true ∧ router.ends = ticket
        · have fresh : router.ends ≤ ticket := Nat.le_of_eq takes.2
          rw [if_pos takes, waitingFor_fresh sound fresh] at spends
          rw [early fresh]
          simpa using spends
        · rw [if_neg takes] at spends
          omega)
    [] ⟨sound_run [], fun _ => rfl, Nat.zero_le 1⟩
    events
  exact kept.2

end AutoMobile.GestureRouter
