import AutoMobile.GestureOwnership

/- What each operation of the registry leaves on record, and what it takes off. -/
namespace AutoMobile.GestureOwnership

open List hiding keys
open InsertionMap

/-- The gestures on record under a socket. -/
def gesturesOf (bySocket : BySocket) (socket : String) : InsertionMap String OwnedGesture :=
  (get? bySocket socket).getD []

section Lookups

variable (bySocket : BySocket) (socket other deviceId gestureId : String)

theorem gesturesOf_put (gestures : InsertionMap String OwnedGesture) :
    gesturesOf (put bySocket socket gestures) other =
      if socket = other then gestures else gesturesOf bySocket other := by
  unfold gesturesOf
  rw [get?_put]
  split <;> rfl

theorem gesturesOf_erase : gesturesOf (erase bySocket socket) other =
      if socket = other then [] else gesturesOf bySocket other := by
  unfold gesturesOf
  rw [get?_erase]
  split <;> rfl

theorem ownedAt_eq : ownedAt bySocket socket deviceId gestureId =
      get? (gesturesOf bySocket socket) (key deviceId gestureId) := by
  unfold ownedAt gesturesOf
  cases get? bySocket socket <;> rfl

theorem gesturesOf_onEndAcked : gesturesOf (onEndAcked bySocket socket deviceId gestureId) other =
      if socket = other then erase (gesturesOf bySocket other) (key deviceId gestureId)
      else gesturesOf bySocket other := by
  by_cases same : socket = other
  · subst same
    rw [if_pos rfl]
    unfold onEndAcked
    cases known : get? bySocket socket with
    | none =>
      have nothing : gesturesOf bySocket socket = [] := by simp [gesturesOf, known]
      simp [nothing, erase]
    | some forSocket =>
      have here : gesturesOf bySocket socket = forSocket := by simp [gesturesOf, known]
      rw [here]
      dsimp only
      split
      · rename_i empty
        rw [gesturesOf_erase, if_pos rfl, List.isEmpty_iff.mp empty]
      · rw [gesturesOf_put, if_pos rfl]
  · rw [if_neg same]
    unfold onEndAcked
    cases get? bySocket socket with
    | none => rfl
    | some forSocket =>
      dsimp only
      split
      · rw [gesturesOf_erase, if_neg same]
      · rw [gesturesOf_put, if_neg same]

theorem keys_onEndAcked_sublist :
    (keys (onEndAcked bySocket socket deviceId gestureId)).Sublist (keys bySocket) := by
  unfold onEndAcked
  cases known : get? bySocket socket with
  | none => exact List.Sublist.refl _
  | some forSocket =>
    dsimp only
    split
    · exact filter_sublist.map _
    · have inside : socket ∈ keys bySocket := (mem_keys_iff _ _).mpr ⟨_, known⟩
      rw [keys_put, if_pos inside]

end Lookups

section Matching

variable (wanted : OwnedGesture → Bool)

theorem keys_cancelAllMatching_sublist (bySocket : BySocket) :
    (keys (cancelAllMatching wanted bySocket).1).Sublist (keys bySocket) := by
  induction bySocket with
  | nil => exact List.Sublist.refl _
  | cons entry later ih =>
    unfold cancelAllMatching
    dsimp only
    split
    · exact ih.cons _
    · exact ih.cons_cons _

theorem gesturesOf_cancelAllMatching {bySocket : BySocket} (distinct : (keys bySocket).Nodup)
    (socket : String) :
    gesturesOf (cancelAllMatching wanted bySocket).1 socket =
      (gesturesOf bySocket socket).filter fun entry => !wanted entry.2 := by
  induction bySocket with
  | nil => rfl
  | cons entry later ih =>
    rw [keys, map_cons, nodup_cons] at distinct
    have rest := ih distinct.2
    unfold cancelAllMatching
    dsimp only
    by_cases here : entry.1 = socket
    · have found : gesturesOf (entry :: later) socket = entry.2 := by simp [gesturesOf, get?, here]
      rw [found]
      split
      · rename_i empty
        have gone : get? (cancelAllMatching wanted later).1 socket = none := by
          rw [get?_eq_none_iff, ← here]
          exact fun inside => distinct.1 ((keys_cancelAllMatching_sublist wanted later).subset inside)
        rw [List.isEmpty_iff.mp empty, gesturesOf, gone]
        rfl
      · simp [gesturesOf, get?, here]
    · have found : gesturesOf (entry :: later) socket = gesturesOf later socket := by
        simp [gesturesOf, get?, here]
      rw [found, ← rest]
      split
      · rfl
      · simp [gesturesOf, get?, here]

/-- What is lifted was on record and is wanted. -/
theorem mem_cancelAllMatching {bySocket : BySocket} (distinct : (keys bySocket).Nodup)
    {stroke : Stroke} (lifted : stroke ∈ (cancelAllMatching wanted bySocket).2) :
    ∃ entry ∈ gesturesOf bySocket stroke.socketSessionId,
      wanted entry.2 = true ∧ entry.2.stroke stroke.socketSessionId = stroke := by
  induction bySocket with
  | nil => cases lifted
  | cons first later ih =>
    rw [keys, map_cons, nodup_cons] at distinct
    unfold cancelAllMatching at lifted
    rcases mem_append.mp lifted with here | there
    · obtain ⟨entry, selected, rfl⟩ := mem_map.mp here
      obtain ⟨member, passes⟩ := mem_filter.mp selected
      refine ⟨entry, ?_, passes, rfl⟩
      simpa [gesturesOf, get?, OwnedGesture.stroke] using member
    · obtain ⟨entry, member, passes, same⟩ := ih distinct.2 there
      have inside : get? later stroke.socketSessionId ≠ none := by
        intro nothing
        simp [gesturesOf, nothing] at member
      have apart : first.1 ≠ stroke.socketSessionId := by
        intro equal
        rw [Ne, get?_eq_none_iff, not_not, ← equal] at inside
        exact distinct.1 inside
      refine ⟨entry, ?_, passes, same⟩
      simpa [gesturesOf, get?, apart] using member

end Matching

/-- How many records a stroke has. -/
def recorded (bySocket : BySocket) (stroke : Stroke) : Nat :=
  (gesturesOf bySocket stroke.socketSessionId).countP
    fun entry => entry.2.stroke stroke.socketSessionId = stroke

theorem count_strokes (gestures : InsertionMap String OwnedGesture) (stroke : Stroke) :
    (gestures.map fun entry => entry.2.stroke stroke.socketSessionId).count stroke =
      gestures.countP fun entry => entry.2.stroke stroke.socketSessionId = stroke := by
  rw [List.count, countP_map]
  refine countP_congr fun entry _ => ?_
  simp

variable {socket gestureId : String}

theorem count_strokes_of_ne (gestures : InsertionMap String OwnedGesture) {stroke : Stroke}
    (apart : socket ≠ stroke.socketSessionId) :
    (gestures.map fun entry => entry.2.stroke socket).count stroke = 0 := by
  rw [count_eq_zero]
  intro member
  obtain ⟨entry, -, same⟩ := mem_map.mp member
  exact apart (congrArg Stroke.socketSessionId same)

theorem recorded_cancelAllFor (bySocket : BySocket) (socket : String) (stroke : Stroke) :
    recorded bySocket stroke = recorded (cancelAllFor bySocket socket).1 stroke +
        (cancelAllFor bySocket socket).2.count stroke := by
  unfold recorded cancelAllFor
  dsimp only
  rw [gesturesOf_erase]
  by_cases same : socket = stroke.socketSessionId
  · subst same
    have counted := count_strokes (gesturesOf bySocket stroke.socketSessionId) stroke
    rw [if_pos rfl, ← counted, countP_nil, Nat.zero_add, gesturesOf]
  · rw [if_neg same, count_strokes_of_ne _ same, Nat.add_zero]

theorem countP_cancelAllMatching (wanted : OwnedGesture → Bool) (bySocket : BySocket)
    (stroke : Stroke) (distinct : (keys bySocket).Nodup) :
    (cancelAllMatching wanted bySocket).2.count stroke =
      ((gesturesOf bySocket stroke.socketSessionId).filter fun entry => wanted entry.2).countP
        fun entry => entry.2.stroke stroke.socketSessionId = stroke := by
  induction bySocket with
  | nil => rfl
  | cons entry later ih =>
    rw [keys, map_cons, nodup_cons] at distinct
    have rest := ih distinct.2
    unfold cancelAllMatching
    dsimp only
    rw [count_append, rest]
    by_cases here : entry.1 = stroke.socketSessionId
    · have gone : gesturesOf later stroke.socketSessionId = [] := by
        have absent := (get?_eq_none_iff later entry.1).mpr distinct.1
        rw [gesturesOf, ← here, absent]
        rfl
      have found : gesturesOf (entry :: later) stroke.socketSessionId = entry.2 := by
        simp [gesturesOf, get?, here]
      rw [gone, found, here, count_strokes]
      rfl
    · have found : gesturesOf (entry :: later) stroke.socketSessionId =
          gesturesOf later stroke.socketSessionId := by
        simp [gesturesOf, get?, here]
      rw [found, count_strokes_of_ne _ here, Nat.zero_add]

theorem recorded_cancelAllMatching (wanted : OwnedGesture → Bool) {bySocket : BySocket}
    (distinct : (keys bySocket).Nodup) (stroke : Stroke) :
    recorded bySocket stroke = recorded (cancelAllMatching wanted bySocket).1 stroke +
        (cancelAllMatching wanted bySocket).2.count stroke := by
  have lifted := countP_cancelAllMatching wanted bySocket stroke distinct
  have parts := countP_eq_countP_filter_add (gesturesOf bySocket stroke.socketSessionId)
    (fun entry => entry.2.stroke stroke.socketSessionId = stroke) (fun entry => wanted entry.2)
  unfold recorded
  rw [gesturesOf_cancelAllMatching wanted distinct, lifted]
  rw [parts, Nat.add_comm]

/-- What holds of the records at any time. -/
structure Kept (state : State) : Prop where
  sockets : (keys state.bySocket).Nodup
  gestures : ∀ socket, (keys (gesturesOf state.bySocket socket)).Nodup
  labelled : ∀ socket entry, entry ∈ gesturesOf state.bySocket socket →
    entry.1 = key entry.2.targetDevice.deviceId entry.2.gestureId
  live : ∀ socket ∈ keys state.bySocket, socket ∈ state.clientSockets

theorem recorded_put_of_fresh {state : State} (kept : Kept state) {targetDevice : BootedDevice}
    (holder : Option String)
    (fresh : ownedAt state.bySocket socket targetDevice.deviceId gestureId = none)
    (stroke : Stroke) :
    recorded (put state.bySocket socket (put (gesturesOf state.bySocket socket)
        (key targetDevice.deviceId gestureId) ⟨targetDevice, gestureId, holder⟩)) stroke =
      recorded state.bySocket stroke +
        if (⟨socket, targetDevice, gestureId⟩ : Stroke) = stroke then 1 else 0 := by
  unfold recorded
  rw [gesturesOf_put]
  by_cases same : socket = stroke.socketSessionId
  · subst same
    rw [ownedAt_eq] at fresh
    have absent : has (gesturesOf state.bySocket stroke.socketSessionId)
        (key targetDevice.deviceId gestureId) = false := by
      rw [has, fresh]
      rfl
    rw [if_pos rfl, countP_put_of_fresh _ (kept.gestures _) absent]
    exact congrArg _ (if_congr decide_eq_true_iff rfl rfl)
  · have apart : ¬ (⟨socket, targetDevice, gestureId⟩ : Stroke) = stroke := by
      rintro rfl
      exact same rfl
    rw [if_neg same, if_neg apart, Nat.add_zero]

/-- Taking the record under a key off leaves all the others. -/
theorem recorded_onEndAcked {state : State} (kept : Kept state) {deviceId : String}
    {owned : OwnedGesture} (known : ownedAt state.bySocket socket deviceId gestureId = some owned)
    (stroke : Stroke) :
    recorded state.bySocket stroke =
      recorded (onEndAcked state.bySocket socket deviceId gestureId) stroke +
        if owned.stroke socket = stroke then 1 else 0 := by
  unfold recorded
  rw [gesturesOf_onEndAcked]
  by_cases same : socket = stroke.socketSessionId
  · subst same
    rw [ownedAt_eq] at known
    rw [if_pos rfl, countP_erase_of_get? _ (kept.gestures _) known]
    simp
  · have apart : ¬ owned.stroke socket = stroke := by
      rintro rfl
      exact same rfl
    rw [if_neg same, if_neg apart, Nat.add_zero]

theorem onEndAcked_of_none {bySocket : BySocket} {deviceId : String}
    (nothing : ownedAt bySocket socket deviceId gestureId = none) (other : String) :
    gesturesOf (onEndAcked bySocket socket deviceId gestureId) other =
      gesturesOf bySocket other := by
  rw [gesturesOf_onEndAcked]
  split
  · rename_i same
    subst same
    rw [ownedAt_eq, get?_eq_none_iff] at nothing
    exact erase_of_fresh nothing
  · rfl

end AutoMobile.GestureOwnership
