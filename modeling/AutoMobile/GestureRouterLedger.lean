import AutoMobile.GestureRouter

/- No block of the gesture thread makes answers out of nothing: what it answers to
an end request it takes from the pending ones. -/
namespace AutoMobile.GestureRouter

open List hiding keys
open InsertionMap

/-- What holds between two blocks. -/
structure Sound (router : Router) : Prop where
  distinctSessions : (keys router.sessions).Nodup
  distinctPending : (keys router.pendingEndRequests).Nodup
  made : ∀ gestureId reference, get? router.sessions gestureId = some reference →
    ∃ gesture, router.gestures[reference]? = some gesture ∧ gesture.gestureId = gestureId ∧
      gesture.disconnected = false
  active : ∀ gestureId, (get? router.sessions gestureId) = none →
    get? router.pendingEndRequests gestureId = none
  unclaimed : ∀ gestureId reference, get? router.sessions gestureId = some reference →
    get? router.terminalFailures gestureId = none
  numbered : ∀ pending ∈ (values router.pendingEndRequests).flatten, pending.ticket < router.ends
  shut : router.closed = true → router.sessions = []

/-- The end requests with this ticket that wait for their gesture. -/
def waitingFor (ticket : Nat) (router : Router) : List PendingEnd :=
  (values router.pendingEndRequests).flatten.filter fun pending => pending.ticket = ticket

@[simp] theorem answersTo_nil (ticket : Nat) : answersTo ticket [] = [] := rfl

@[simp] theorem answersTo_append (ticket : Nat) (first second : List Output) :
    answersTo ticket (first ++ second) = answersTo ticket first ++ answersTo ticket second :=
  filterMap_append

@[simp] theorem answersTo_start (ticket : Nat) (requestId : Option String) (outcome : Outcome) :
    answersTo ticket [.result .start requestId outcome] = [] := rfl

@[simp] theorem answersTo_move (ticket : Nat) (requestId : Option String) (outcome : Outcome) :
    answersTo ticket [.result .move requestId outcome] = [] := rfl

theorem answersTo_finishing (ticket other : Nat) (requestId : Option String) (outcome : Outcome) :
    answersTo ticket [.result (.finishing other) requestId outcome] =
      if other = ticket then [(requestId, outcome)] else [] := by
  by_cases same : other = ticket <;> simp [answersTo, same]

theorem answersTo_answers (ticket : Nat) (outcome : Outcome) (requests : List PendingEnd) :
    answersTo ticket (requests.map (PendingEnd.answer outcome)) =
      (requests.filter fun pending => pending.ticket = ticket).map
        fun pending => (some pending.requestId, outcome) := by
  induction requests with
  | nil => rfl
  | cons first rest ih =>
    have head : answersTo ticket [first.answer outcome] =
        if first.ticket = ticket then [(some first.requestId, outcome)] else [] :=
      answersTo_finishing ticket first.ticket (some first.requestId) outcome
    have split := answersTo_append ticket [first.answer outcome]
      (rest.map (PendingEnd.answer outcome))
    rw [head, ih] at split
    by_cases same : first.ticket = ticket
    · simpa [same] using split
    · simpa [same] using split

theorem answersTo_recordFailure (ticket : Nat) (failures : InsertionMap String Outcome)
    (gestureId : String) (outcome : Outcome) :
    answersTo ticket (recordFailure failures gestureId outcome).2 = [] := by
  unfold recordFailure
  dsimp only
  split
  · split <;> rfl
  · rfl

/-- The termination that `finish` takes: of the gesture that its id stands for. -/
structure Accepts (router : Router) (reference : Nat) (gesture : Gesture) : Prop where
  known : router.gestures[reference]? = some gesture
  connected : gesture.disconnected = false
  unclosed : router.closed = false
  current : get? router.sessions gesture.gestureId = some reference

/-- The failures that are kept after a termination, and what the cap drops. -/
def keptFailures (router : Router) (gestureId : String) (outcome : Outcome) :
    InsertionMap String Outcome × List Output :=
  if outcome.success then (router.terminalFailures, [])
  else recordFailure router.terminalFailures gestureId outcome

theorem answersTo_keptFailures (ticket : Nat) (router : Router) (gestureId : String)
    (outcome : Outcome) : answersTo ticket (keptFailures router gestureId outcome).2 = [] := by
  unfold keptFailures
  split
  · rfl
  · exact answersTo_recordFailure ticket _ _ _

/-- A router without the session of an id and its waiters. -/
def dropped (router : Router) (gestureId : String) (failures : InsertionMap String Outcome) :
    Router :=
  { router with
    sessions := erase router.sessions gestureId
    pendingEndRequests := erase router.pendingEndRequests gestureId
    terminalFailures := failures }

variable {router : Router} {reference : Nat}

theorem finish_of_accepts {gesture : Gesture} (accepts : Accepts router reference gesture)
    (outcome : Outcome) :
    finish router reference outcome =
      (dropped router gesture.gestureId (keptFailures router gesture.gestureId outcome).1,
        (keptFailures router gesture.gestureId outcome).2 ++
          ((get? router.pendingEndRequests gesture.gestureId).getD []).map
            (PendingEnd.answer outcome)) := by
  simp [finish, accepts.known, accepts.connected, accepts.unclosed, accepts.current, dropped,
    keptFailures]

/-- Every other termination changes nothing and answers nobody. -/
theorem finish_of_refuses (refuses : ∀ gesture, ¬ Accepts router reference gesture)
    (outcome : Outcome) :
    (finish router reference outcome).1 = router ∧
      ∀ output ∈ (finish router reference outcome).2, ∃ text, output = .warning text := by
  unfold finish
  cases known : router.gestures[reference]? with
  | none => exact ⟨rfl, fun output member => by cases member⟩
  | some gesture =>
    dsimp only
    cases connected : gesture.disconnected with
    | true =>
      simp only [if_true, true_and]
      intro output member
      split at member
      · cases member
      · exact ⟨_, mem_singleton.mp member⟩
    | false =>
      have stale : (router.closed || decide (get? router.sessions gesture.gestureId ≠
          some reference)) = true := by
        cases unclosed : router.closed with
        | true => rfl
        | false =>
          simp only [Bool.false_or, decide_eq_true_eq]
          exact fun current => refuses gesture ⟨known, connected, unclosed, current⟩
      rw [if_neg (by decide), if_pos stale]
      exact ⟨rfl, fun output member => by cases member⟩

theorem answersTo_of_warnings {outputs : List Output} (ticket : Nat)
    (silent : ∀ output ∈ outputs, ∃ text, output = .warning text) :
    answersTo ticket outputs = [] := by
  unfold answersTo
  rw [filterMap_eq_nil_iff]
  intro output member
  obtain ⟨text, rfl⟩ := silent output member
  rfl

theorem accepts_or_refuses (router : Router) (reference : Nat) :
    (∃ gesture, Accepts router reference gesture) ∨
      ∀ gesture, ¬ Accepts router reference gesture := by
  by_cases some : ∃ gesture, Accepts router reference gesture
  · exact Or.inl some
  · exact Or.inr fun gesture accepts => some ⟨gesture, accepts⟩

theorem numbered_erase (sound : Sound router) (gestureId : String) :
    ∀ pending ∈ (values (erase router.pendingEndRequests gestureId)).flatten,
      pending.ticket < router.ends := by
  intro pending member
  have perm := flatten_erase sound.distinctPending gestureId
  exact sound.numbered pending (perm.mem_iff.mpr (mem_append_right _ member))

/-- The router stays sound without one of its ids, whatever failures it keeps for
ids that are not active. -/
theorem Sound.dropped (sound : Sound router) (gestureId : String)
    {failures : InsertionMap String Outcome} (inactive : ∀ other, other ≠ gestureId →
      get? failures other = none ∨ get? failures other = get? router.terminalFailures other) :
    Sound (dropped router gestureId failures) where
  distinctSessions := nodup_keys_erase sound.distinctSessions gestureId
  distinctPending := nodup_keys_erase sound.distinctPending gestureId
  made other reference current := by
    have before : (if gestureId = other then none else get? router.sessions other) =
      some reference := (get?_erase _ _ _).symm.trans current
    by_cases same : gestureId = other
    · rw [if_pos same] at before
      cases before
    · rw [if_neg same] at before
      exact sound.made other reference before
  active other gone := by
    have before : (if gestureId = other then none else get? router.sessions other) = none :=
      (get?_erase _ _ _).symm.trans gone
    show get? (erase router.pendingEndRequests gestureId) other = none
    rw [get?_erase]
    by_cases same : gestureId = other
    · rw [if_pos same]
    · rw [if_neg same] at before ⊢
      exact sound.active other before
  unclaimed other reference current := by
    have before : (if gestureId = other then none else get? router.sessions other) =
      some reference := (get?_erase _ _ _).symm.trans current
    by_cases same : gestureId = other
    · rw [if_pos same] at before
      cases before
    · rw [if_neg same] at before
      rcases inactive other (Ne.symm same) with none | kept
      · exact none
      · exact kept.trans (sound.unclaimed other reference before)
  numbered := numbered_erase sound gestureId
  shut closed := by
    have empty := sound.shut closed
    show erase router.sessions gestureId = []
    rw [empty]
    rfl

theorem get?_keptFailures (router : Router) (gestureId : String) (outcome : Outcome)
    {other : String} (apart : other ≠ gestureId) :
    get? (keptFailures router gestureId outcome).1 other = none ∨
      get? (keptFailures router gestureId outcome).1 other =
        get? router.terminalFailures other := by
  unfold keptFailures
  split
  · exact Or.inr rfl
  · have recorded := get?_put_of_ne router.terminalFailures (Ne.symm apart) outcome
    unfold recordFailure
    dsimp only
    split
    · cases entries : put router.terminalFailures gestureId outcome with
      | nil =>
        rw [entries] at recorded
        exact Or.inr recorded
      | cons oldest rest =>
        rw [entries] at recorded
        dsimp only
        rw [get?_erase]
        split
        · exact Or.inl rfl
        · exact Or.inr recorded
    · exact Or.inr recorded

theorem finish_sound (sound : Sound router) (reference : Nat) (outcome : Outcome) :
    Sound (finish router reference outcome).1 := by
  rcases accepts_or_refuses router reference with ⟨gesture, accepts⟩ | refuses
  · rw [finish_of_accepts accepts]
    exact sound.dropped _ fun other apart => get?_keptFailures router _ outcome apart
  · rw [(finish_of_refuses refuses outcome).1]
    exact sound

theorem waitingFor_erase (sound : Sound router) (ticket : Nat) (gestureId : String) :
    (waitingFor ticket router).Perm
      (((get? router.pendingEndRequests gestureId).getD []).filter
        (fun pending => pending.ticket = ticket) ++
      (values (erase router.pendingEndRequests gestureId)).flatten.filter
        fun pending => pending.ticket = ticket) := by
  have perm := (flatten_erase sound.distinctPending gestureId).filter
    fun pending => decide (pending.ticket = ticket)
  rwa [filter_append] at perm

/-- What is answered to a ticket and what still waits with it is no more than what
waited before. -/
def Spends (ticket : Nat) (router : Router) (after : Router × List Output) : Prop :=
  (answersTo ticket after.2).length + (waitingFor ticket after.1).length ≤
    (waitingFor ticket router).length

theorem finish_spends (sound : Sound router) (ticket reference : Nat) (outcome : Outcome) :
    Spends ticket router (finish router reference outcome) := by
  unfold Spends
  rcases accepts_or_refuses router reference with ⟨gesture, accepts⟩ | refuses
  · rw [finish_of_accepts accepts, answersTo_append, answersTo_keptFailures, answersTo_answers,
      nil_append, length_map, (waitingFor_erase sound ticket gesture.gestureId).length_eq,
      length_append]
    exact Nat.le_refl _
  · have unchanged := finish_of_refuses refuses outcome
    rw [unchanged.1, answersTo_of_warnings ticket unchanged.2]
    simp

theorem report_sound (sound : Sound router) (reference : Nat) (reported : Option Outcome) :
    Sound (report router reference reported).1 := by
  cases reported with
  | none => exact sound
  | some outcome => exact finish_sound sound reference outcome

theorem report_spends (sound : Sound router) (ticket reference : Nat) (reported : Option Outcome) :
    Spends ticket router (report router reference reported) := by
  cases reported with
  | none => exact Nat.le_of_eq (Nat.zero_add _)
  | some outcome => exact finish_spends sound ticket reference outcome

theorem report_of_refuses (refuses : ∀ gesture, ¬ Accepts router reference gesture)
    (reported : Option Outcome) :
    (report router reference reported).1 = router ∧
      ∀ output ∈ (report router reference reported).2, ∃ text, output = .warning text := by
  cases reported with
  | none => exact ⟨rfl, fun output member => by cases member⟩
  | some outcome => exact finish_of_refuses refuses outcome

end AutoMobile.GestureRouter
