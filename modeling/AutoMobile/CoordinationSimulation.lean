import AutoMobile.BarrierArrivals
import AutoMobile.CoordinationSchedule

/- The states of the schedule search stand for standings at barriers, and its
successors are exactly the arrivals that the barriers allow. -/
namespace AutoMobile.CoordinationSchedule

open BarrierArrivals BarrierRounds List
open Relation (ReflTransGen)

/-- Every event of a lock asks for the same number of devices. -/
def Consistent (count : String → ℕ) (tracks : List CoordinationTrack) : Prop :=
  ∀ track ∈ tracks, ∀ event ∈ track.events, event.deviceCount = count event.lock

/-- The locks that a track arrives at, in order. -/
def lockProgram (track : CoordinationTrack) : List String := track.events.map (·.lock)

/-- Some order of arrivals of the whole plan brings every track to its end. -/
def Completes (count : String → ℕ) (tracks : List CoordinationTrack) : Prop :=
  Finishes count (Standing.start fun index : Fin tracks.length => lockProgram tracks[index])

/-- A state with one entry for each track. -/
structure Fits (tracks : List CoordinationTrack) (state : ScheduleState) : Prop where
  positions : state.positions.length = tracks.length
  arrived : state.arrived.length = tracks.length

/-- What a state of the search stands for. -/
def standingOf (tracks : List CoordinationTrack) (state : ScheduleState) :
    Standing (Fin tracks.length) String where
  ahead index := (lockProgram tracks[index]).drop (state.positions.getD index 0)
  blocked := Finset.univ.filter fun index => state.arrived.getD index false = true

/-- One step of the search. -/
def Next (tracks : List CoordinationTrack) (state next : ScheduleState) : Prop :=
  ∃ successor ∈ successorsOf tracks state, successor.state = next

variable {tracks : List CoordinationTrack} {count : String → ℕ} {state : ScheduleState}

theorem fits_initialState : Fits tracks (initialState tracks) := by
  constructor <;> simp [initialState]

theorem standingOf_initialState : standingOf tracks (initialState tracks) =
      Standing.start fun index : Fin tracks.length => lockProgram tracks[index] := by
  ext index
  · simp [standingOf, Standing.start, initialState]
  · simp [standingOf, Standing.start, initialState]

theorem currentEvent_lock (fits : Fits tracks state) (index : Fin tracks.length) :
    (currentEvent tracks state index).map (·.lock) = ((standingOf tracks state).ahead index).head? := by
  have inside : (index : Nat) < state.positions.length := by simp [fits.positions]
  simp [currentEvent, standingOf, lockProgram, getElem?_eq_getElem inside, getD_eq_getElem?_getD]

variable {index : Nat} {event : CoordinationEvent}

theorem currentEvent_mem (current : currentEvent tracks state index = some event) :
    ∃ track ∈ tracks, event ∈ track.events := by
  unfold currentEvent at current
  split at current
  · rename_i track position known _
    exact ⟨track, mem_of_getElem? known, mem_of_getElem? current⟩
  · cases current

theorem mem_waitersAt (fits : Fits tracks state) (lock : String) (index : Fin tracks.length) :
    (index : Nat) ∈ waitersAt tracks state lock ↔ index ∈ (standingOf tracks state).waitingAt lock := by
  rw [mem_waitingAt, ← currentEvent_lock fits]
  simp [waitersAt, standingOf]

/-- A filter of the indices, counted as a list and as a set. -/
theorem length_filter_range (size : Nat) (keep : Nat → Bool) :
    ((List.range size).filter keep).length =
      (Finset.univ.filter fun index : Fin size => keep index = true).card := by
  rw [← map_coe_finRange_eq_range, filter_map, length_map]
  simp only [Finset.card, Finset.filter, Finset.univ, Fintype.elems, Multiset.filter_coe,
    Multiset.coe_card]
  congr 2
  funext index
  simp

theorem length_waitersAt (fits : Fits tracks state) (lock : String) :
    (waitersAt tracks state lock).length = ((standingOf tracks state).waitingAt lock).card := by
  unfold waitersAt
  rw [length_filter_range]
  congr 1
  ext index
  rw [mem_waitingAt, ← currentEvent_lock fits]
  simp [standingOf]

theorem arrive_blocks (few : (waitersAt tracks state event.lock).length + 1 < event.deviceCount) :
    (arrive tracks state index event).state =
      { state with arrived := state.arrived.set index true } := by
  have size : (waitersAt tracks state event.lock ++ [index]).length < event.deviceCount := by
    simpa using few
  unfold arrive
  rw [if_pos size]

theorem arrive_passes (full : event.deviceCount ≤ (waitersAt tracks state event.lock).length + 1) :
    (arrive tracks state index event).state =
      { positions := state.positions.mapIdx fun member position =>
          if member ∈ waitersAt tracks state event.lock ++ [index] then position + 1 else position
        arrived := state.arrived.mapIdx fun member blocked =>
          if member ∈ waitersAt tracks state event.lock ++ [index] then false else blocked } := by
  have size : ¬ (waitersAt tracks state event.lock ++ [index]).length < event.deviceCount := by
    simpa using full
  unfold arrive
  rw [if_neg size]

/-- An arrival that does not fill the group blocks its track. -/
theorem standingOf_blocks (fits : Fits tracks state) (index : Fin tracks.length)
    (few : (waitersAt tracks state event.lock).length + 1 < event.deviceCount) :
    standingOf tracks (arrive tracks state index event).state =
      ⟨(standingOf tracks state).ahead, insert index (standingOf tracks state).blocked⟩ := by
  rw [arrive_blocks few]
  refine Standing.ext rfl (Finset.ext fun other => ?_)
  have inside : (index : Nat) < state.arrived.length := by simp [fits.arrived]
  simp only [standingOf, Finset.mem_filter, Finset.mem_univ, true_and, Finset.mem_insert,
    getD_eq_getElem?_getD]
  by_cases same : other = index
  · subst same
    simp [inside]
  · have apart : (index : Nat) ≠ other := fun equal => same (Fin.ext equal.symm)
    simp [getElem?_set_ne apart, same]

/-- An arrival that fills the group lets the group pass. -/
theorem standingOf_passes (fits : Fits tracks state) (index : Fin tracks.length)
    (full : event.deviceCount ≤ (waitersAt tracks state event.lock).length + 1) :
    standingOf tracks (arrive tracks state index event).state = (standingOf tracks state).pass
        (insert index ((standingOf tracks state).waitingAt event.lock)) := by
  rw [arrive_passes full]
  have member : ∀ other : Fin tracks.length,
      (other : Nat) ∈ waitersAt tracks state event.lock ++ [(index : Nat)] ↔
        other ∈ insert index ((standingOf tracks state).waitingAt event.lock) := by
    intro other
    rw [mem_append, mem_waitersAt fits, mem_singleton, Finset.mem_insert, Fin.val_inj]
    exact or_comm
  generalize insert index ((standingOf tracks state).waitingAt event.lock) = group at member
  refine Standing.ext (funext fun other => ?_) (Finset.ext fun other => ?_)
  · have inside : (other : Nat) < state.positions.length := by simp [fits.positions]
    simp only [standingOf, Standing.pass, getD_eq_getElem?_getD, getElem?_mapIdx,
      getElem?_eq_getElem inside, Option.map_some, Option.getD_some, member other]
    split
    · rw [tail_drop]
    · rfl
  · have inside : (other : Nat) < state.arrived.length := by simp [fits.arrived]
    simp only [standingOf, Standing.pass, getD_eq_getElem?_getD, getElem?_mapIdx,
      getElem?_eq_getElem inside, Option.map_some, Option.getD_some, member other,
      Finset.mem_filter, Finset.mem_univ, true_and, Finset.mem_sdiff]
    split <;> rename_i within <;> simp [within]

theorem fits_arrive (fits : Fits tracks state) (index : Nat) (event : CoordinationEvent) :
    Fits tracks (arrive tracks state index event).state := by
  by_cases few : (waitersAt tracks state event.lock).length + 1 < event.deviceCount
  · rw [arrive_blocks few]
    exact ⟨fits.positions, by simpa using fits.arrived⟩
  · rw [arrive_passes (not_lt.mp few)]
    exact ⟨by simpa using fits.positions, by simpa using fits.arrived⟩

theorem mem_successorsOf {successor : Successor} : successor ∈ successorsOf tracks state ↔
      ∃ index : Fin tracks.length, ∃ event, state.arrived.getD index false = false ∧
        currentEvent tracks state index = some event ∧
          arrive tracks state index event = successor := by
  constructor
  · intro member
    obtain ⟨index, known, here⟩ := mem_filterMap.mp member
    split at here
    · cases here
    · rename_i free
      obtain ⟨event, current, rfl⟩ := Option.map_eq_some_iff.mp here
      exact ⟨⟨index, mem_range.mp known⟩, event, by simpa using free, current, rfl⟩
  · rintro ⟨index, event, free, current, rfl⟩
    refine mem_filterMap.mpr ⟨index, mem_range.mpr index.isLt, ?_⟩
    simp only [free, current, Option.map_some, Bool.false_eq_true, if_false]

/-- What one arrival of the search does at the barriers. -/
theorem arrives_arrive (consistent : Consistent count tracks) (fits : Fits tracks state)
    {index : Fin tracks.length} (free : state.arrived.getD index false = false)
    (current : currentEvent tracks state index = some event) :
    Arrives count (standingOf tracks state)
      (standingOf tracks (arrive tracks state index event).state) := by
  have apart : index ∉ (standingOf tracks state).blocked := by simpa [standingOf] using free
  have head : ((standingOf tracks state).ahead index).head? = some event.lock := by
    rw [← currentEvent_lock fits, current, Option.map_some]
  obtain ⟨track, known, inside⟩ := currentEvent_mem current
  have needed := consistent track known event inside
  have waiting := length_waitersAt fits event.lock
  by_cases few : (waitersAt tracks state event.lock).length + 1 < event.deviceCount
  · rw [standingOf_blocks fits index few]
    exact .blocks _ index event.lock apart head (by omega)
  · rw [standingOf_passes fits index (by omega)]
    exact .passes _ index event.lock apart head (by omega)

theorem Next.sound (consistent : Consistent count tracks) (fits : Fits tracks state)
    {next : ScheduleState} (step : Next tracks state next) :
    Fits tracks next ∧ Arrives count (standingOf tracks state) (standingOf tracks next) := by
  obtain ⟨successor, member, rfl⟩ := step
  obtain ⟨index, event, free, current, rfl⟩ := mem_successorsOf.mp member
  exact ⟨fits_arrive fits index event, arrives_arrive consistent fits free current⟩

/-- Every arrival that the barriers allow is a successor of the search. -/
theorem Next.complete (consistent : Consistent count tracks) (fits : Fits tracks state)
    {standing : Standing (Fin tracks.length) String}
    (arrives : Arrives count (standingOf tracks state) standing) :
    ∃ next, Next tracks state next ∧ standingOf tracks next = standing := by
  have event_of : ∀ {index : Fin tracks.length} {lock : String},
      ((standingOf tracks state).ahead index).head? = some lock →
        ∃ event, currentEvent tracks state index = some event ∧ event.lock = lock ∧
          event.deviceCount = count lock := by
    intro index lock head
    rw [← currentEvent_lock fits] at head
    obtain ⟨event, current, rfl⟩ := Option.map_eq_some_iff.mp head
    obtain ⟨track, known, inside⟩ := currentEvent_mem current
    exact ⟨event, current, rfl, consistent track known event inside⟩
  have step_of : ∀ {index : Fin tracks.length} {event : CoordinationEvent},
      index ∉ (standingOf tracks state).blocked → currentEvent tracks state index = some event →
        Next tracks state (arrive tracks state index event).state := by
    intro index event free current
    exact ⟨_, mem_successorsOf.mpr ⟨index, event, by simpa [standingOf] using free, current, rfl⟩, rfl⟩
  cases arrives with
  | blocks index lock free head few =>
    obtain ⟨event, current, rfl, needed⟩ := event_of head
    refine ⟨_, step_of free current, standingOf_blocks fits index ?_⟩
    rw [length_waitersAt fits, needed]
    exact few
  | passes index lock free head full =>
    obtain ⟨event, current, rfl, needed⟩ := event_of head
    refine ⟨_, step_of free current, standingOf_passes fits index ?_⟩
    rw [length_waitersAt fits, needed]
    exact full

theorem isComplete_iff : isComplete tracks state = true ↔
    ∀ index, (standingOf tracks state).ahead index = [] := by
  simp only [isComplete, all_eq_true, Prod.forall, mem_zipIdx_iff_getElem?, standingOf,
    lockProgram, drop_eq_nil_iff, length_map, decide_eq_true_eq]
  constructor
  · intro all index
    exact all tracks[index] index (getElem?_eq_getElem index.isLt)
  · intro all track index known
    obtain ⟨inside, rfl⟩ := List.getElem?_eq_some_iff.mp known
    exact all ⟨index, inside⟩

/-- Runs of arrivals are paths of the search. -/
theorem lift_arrivals (consistent : Consistent count tracks) (fits : Fits tracks state)
    {standing : Standing (Fin tracks.length) String}
    (arrivals : ReflTransGen (Arrives count) (standingOf tracks state) standing) :
    ∃ final, ReflTransGen (Next tracks) state final ∧ Fits tracks final ∧
      standingOf tracks final = standing := by
  induction arrivals with
  | refl => exact ⟨state, .refl, fits, rfl⟩
  | tail _ arrives ih =>
    obtain ⟨final, path, fits, rfl⟩ := ih
    obtain ⟨next, step, same⟩ := Next.complete consistent fits arrives
    exact ⟨next, path.tail step, (step.sound consistent fits).1, same⟩

/-- Paths of the search are runs of arrivals. -/
theorem lower_path (consistent : Consistent count tracks) (fits : Fits tracks state)
    {final : ScheduleState} (path : ReflTransGen (Next tracks) state final) :
    Fits tracks final ∧
      ReflTransGen (Arrives count) (standingOf tracks state) (standingOf tracks final) := by
  induction path with
  | refl => exact ⟨fits, .refl⟩
  | tail _ step ih =>
    obtain ⟨fits, arrives⟩ := step.sound consistent ih.1
    exact ⟨fits, ih.2.tail arrives⟩

/-- The full interleaving graph of the search is that of the barriers. -/
theorem completes_iff_reaches (consistent : Consistent count tracks) : Completes count tracks ↔
      ∃ final, ReflTransGen (Next tracks) (initialState tracks) final ∧
        isComplete tracks final = true := by
  unfold Completes
  rw [← standingOf_initialState]
  constructor
  · rintro ⟨standing, arrivals, done⟩
    obtain ⟨final, path, -, rfl⟩ := lift_arrivals consistent fits_initialState arrivals
    exact ⟨final, path, isComplete_iff.mpr done⟩
  · rintro ⟨final, path, done⟩
    exact ⟨standingOf tracks final, (lower_path consistent fits_initialState path).2,
      isComplete_iff.mp done⟩

end AutoMobile.CoordinationSchedule
