import AutoMobile.CoordinationSimulation
import Mathlib.Data.Set.Finite.List

/- The feasibility search is exact: its depth-first search decides every component,
and the components of a plan, which share no lock, decide the plan. -/
namespace AutoMobile.CoordinationSchedule

open List hiding keys
open BarrierArrivals BarrierRounds InsertionMap ParentForest
open Relation (ReflTransGen)

variable {tracks : List CoordinationTrack} {count : String → ℕ}

/-- What has been visited so far is reachable, and what is off the stack is dealt with. -/
structure Explored (tracks : List CoordinationTrack) (visited : InsertionMap ScheduleState Visit)
    (stack : List ScheduleState) (deepest : Option DeadlockCandidate) : Prop where
  start : initialState tracks ∈ keys visited
  reached : ∀ state ∈ keys visited, ReflTransGen (Next tracks) (initialState tracks) state
  pending : ∀ state ∈ stack, state ∈ keys visited
  expanded : ∀ state ∈ keys visited, state ∉ stack →
    isComplete tracks state = false ∧ ∀ next, Next tracks state next → next ∈ keys visited
  stalls : deepest = none → ∀ state ∈ keys visited, state ∉ stack → ∃ next, Next tracks state next

/-- What an outcome says about the states that can be reached. -/
def Answers (tracks : List CoordinationTrack) : SearchOutcome → Prop
  | .complete => ∃ final, ReflTransGen (Next tracks) (initialState tracks) final ∧
      isComplete tracks final = true
  | .boundReached => True
  | .deadlock _ => ∀ final, ReflTransGen (Next tracks) (initialState tracks) final →
      isComplete tracks final = false
  | .nothingStalled => ∀ final, ReflTransGen (Next tracks) (initialState tracks) final →
      ∃ next, Next tracks final next

/-- What pushing the successors does to the map and the stack. -/
structure Pushed (successors : List Successor) (visited after : InsertionMap ScheduleState Visit)
    (stack stackAfter : List ScheduleState) : Prop where
  kept : ∀ state ∈ keys visited, state ∈ keys after
  pushed : ∀ successor ∈ successors, successor.state ∈ keys after
  origin : ∀ state ∈ keys after, state ∈ keys visited ∨
    ∃ successor ∈ successors, successor.state = state
  below : ∀ state ∈ stack, state ∈ stackAfter
  fresh : ∀ state ∈ keys after, state ∉ stackAfter → state ∈ keys visited
  within : ∀ state ∈ stackAfter, state ∈ stack ∨ state ∈ keys after
  balance : after.length + stack.length = visited.length + stackAfter.length

theorem pushSuccessors_spec {maxStates : Nat} {key : ScheduleState} (successors : List Successor)
    {visited after : InsertionMap ScheduleState Visit} {stack stackAfter : List ScheduleState}
    (room : visited.length ≤ max maxStates 1)
    (done : pushSuccessors maxStates key successors visited stack = some (after, stackAfter)) :
    Pushed successors visited after stack stackAfter ∧ after.length ≤ max maxStates 1 := by
  induction successors generalizing visited stack with
  | nil =>
    obtain ⟨rfl, rfl⟩ := Prod.mk.inj (Option.some.inj done)
    exact ⟨⟨fun _ h => h, by simp, fun _ h => Or.inl h, fun _ h => h, fun _ h _ => h,
      fun _ h => Or.inl h, rfl⟩, room⟩
  | cons successor rest ih =>
    unfold pushSuccessors at done
    split at done
    · rename_i known
      obtain ⟨earlier, bounded⟩ := ih room done
      refine ⟨⟨earlier.kept, ?_, ?_, earlier.below, earlier.fresh, earlier.within,
        earlier.balance⟩, bounded⟩
      · rintro other member
        rcases mem_cons.mp member with rfl | member
        · exact earlier.kept _ ((has_iff _ _).mp known)
        · exact earlier.pushed other member
      · exact fun state inside => (earlier.origin state inside).imp id
          fun ⟨other, member, same⟩ => ⟨other, mem_cons_of_mem _ member, same⟩
    · rename_i absent
      have new : successor.state ∉ keys visited := fun known => absent ((has_iff _ _).mpr known)
      split at done
      · cases done
      · rename_i bound
        have entries := put_of_fresh new { parent := some key, release := successor.release }
        rw [entries] at done
        have names : ∀ state, state ∈ keys (visited ++
            [(successor.state, { parent := some key, release := successor.release : Visit })]) ↔
            state ∈ keys visited ∨ state = successor.state := by
          intro state
          simp [keys]
        obtain ⟨earlier, bounded⟩ := ih (by simp only [length_append, length_singleton]; omega)
          done
        have here : successor.state ∈ keys after := earlier.kept _ ((names _).mpr (Or.inr rfl))
        refine ⟨⟨fun state inside => earlier.kept state ((names state).mpr (Or.inl inside)), ?_, ?_,
          fun state inside => earlier.below state (mem_cons_of_mem _ inside), ?_, ?_, ?_⟩,
          bounded⟩
        · rintro other member
          rcases mem_cons.mp member with rfl | member
          · exact here
          · exact earlier.pushed other member
        · intro state inside
          rcases earlier.origin state inside with old | ⟨other, member, same⟩
          · rcases (names state).mp old with old | rfl
            · exact Or.inl old
            · exact Or.inr ⟨successor, mem_cons_self, rfl⟩
          · exact Or.inr ⟨other, mem_cons_of_mem _ member, same⟩
        · intro state inside off
          rcases (names state).mp (earlier.fresh state inside off) with old | rfl
          · exact old
          · exact absurd (earlier.below _ mem_cons_self) off
        · intro state inside
          rcases earlier.within state inside with top | old
          · rcases mem_cons.mp top with rfl | old
            · exact Or.inr here
            · exact Or.inl old
          · exact Or.inr old
        · have balance := earlier.balance
          simp only [length_append, length_cons, length_nil] at balance
          omega

/-- Popping a state that has successors, and pushing them. -/
theorem Explored.expand {visited after : InsertionMap ScheduleState Visit} {state : ScheduleState}
    {stack stackAfter : List ScheduleState} {deepest : Option DeadlockCandidate}
    (explored : Explored tracks visited (state :: stack) deepest)
    (running : isComplete tracks state = false) (more : successorsOf tracks state ≠ [])
    (push : Pushed (successorsOf tracks state) visited after stack stackAfter) :
    Explored tracks after stackAfter deepest where
  start := push.kept _ explored.start
  reached other inside := by
    rcases push.origin other inside with old | ⟨successor, member, same⟩
    · exact explored.reached other old
    · exact (explored.reached state (explored.pending state mem_cons_self)).tail
        ⟨successor, member, same⟩
  pending other inside := by
    rcases push.within other inside with old | new
    · exact push.kept other (explored.pending other (mem_cons_of_mem _ old))
    · exact new
  expanded other inside off := by
    have old := push.fresh other inside off
    by_cases same : other = state
    · subst same
      exact ⟨running, fun next ⟨successor, member, equal⟩ => equal ▸ push.pushed successor member⟩
    · have below : other ∉ state :: stack := by
        rintro (_ | ⟨_, inStack⟩)
        · exact same rfl
        · exact off (push.below other inStack)
      obtain ⟨open', closed⟩ := explored.expanded other old below
      exact ⟨open', fun next step => push.kept next (closed next step)⟩
  stalls none other inside off := by
    have old := push.fresh other inside off
    by_cases same : other = state
    · subst same
      obtain ⟨successor, member⟩ := exists_mem_of_ne_nil _ more
      exact ⟨successor.state, successor, member, rfl⟩
    · refine explored.stalls none other old ?_
      rintro (_ | ⟨_, inStack⟩)
      · exact same rfl
      · exact off (push.below other inStack)

/-- Popping a state from which nothing can happen. -/
theorem Explored.stall {visited : InsertionMap ScheduleState Visit} {state : ScheduleState}
    {stack : List ScheduleState} {deepest : Option DeadlockCandidate}
    (explored : Explored tracks visited (state :: stack) deepest)
    (running : isComplete tracks state = false) (none : successorsOf tracks state = []) :
    Explored tracks visited stack (some (deeper deepest state)) where
  start := explored.start
  reached := explored.reached
  pending other inside := explored.pending other (mem_cons_of_mem _ inside)
  expanded other inside off := by
    by_cases same : other = state
    · subst same
      refine ⟨running, fun next ⟨successor, member, _⟩ => ?_⟩
      rw [none] at member
      cases member
    · refine explored.expanded other inside ?_
      rintro (_ | ⟨_, inStack⟩)
      · exact same rfl
      · exact off inStack
  stalls impossible := by cases impossible

/-- Once the stack is empty everything that can be reached has been visited. -/
theorem Explored.all {visited : InsertionMap ScheduleState Visit}
    {deepest : Option DeadlockCandidate} (explored : Explored tracks visited [] deepest)
    {final : ScheduleState} (path : ReflTransGen (Next tracks) (initialState tracks) final) :
    final ∈ keys visited := by
  induction path with
  | refl => exact explored.start
  | tail _ step ih => exact (explored.expanded _ ih (not_mem_nil)).2 _ step

/-- The search ends before its fuel does, and its answer is right. -/
theorem searchLoop_answers {maxStates : Nat} (fuel : Nat)
    {visited : InsertionMap ScheduleState Visit} {stack : List ScheduleState}
    {deepest : Option DeadlockCandidate} (explored : Explored tracks visited stack deepest)
    (room : visited.length ≤ max maxStates 1)
    (enough : max maxStates 1 + 1 + stack.length ≤ fuel + visited.length) :
    ∃ outcome, searchLoop tracks maxStates fuel visited stack deepest = some outcome ∧
      Answers tracks outcome := by
  induction fuel generalizing visited stack deepest with
  | zero => omega
  | succ fuel ih =>
    cases stack with
    | nil =>
      cases deepest with
      | none =>
        exact ⟨.nothingStalled, rfl, fun final path =>
          explored.stalls rfl final (explored.all path) not_mem_nil⟩
      | some candidate =>
        exact ⟨.deadlock (describeStall tracks visited candidate), rfl, fun final path =>
          (explored.expanded final (explored.all path) not_mem_nil).1⟩
    | cons state stack =>
      rw [length_cons] at enough
      by_cases finished : isComplete tracks state = true
      · refine ⟨.complete, by simp [searchLoop, finished], state, ?_, finished⟩
        exact explored.reached state (explored.pending state mem_cons_self)
      · have running : isComplete tracks state = false := by simpa using finished
        by_cases stuck : successorsOf tracks state = []
        · have loop : searchLoop tracks maxStates (fuel + 1) visited (state :: stack) deepest =
              searchLoop tracks maxStates fuel visited stack (some (deeper deepest state)) := by
            simp [searchLoop, running, stuck]
          rw [loop]
          exact ih (explored.stall running stuck) room (by omega)
        · cases push : pushSuccessors maxStates state (successorsOf tracks state) visited stack with
          | none => exact ⟨.boundReached, by simp [searchLoop, running, stuck, push], trivial⟩
          | some grown =>
            obtain ⟨after, stackAfter⟩ := grown
            obtain ⟨pushed, bounded⟩ := pushSuccessors_spec _ room push
            have balance := pushed.balance
            have loop : searchLoop tracks maxStates (fuel + 1) visited (state :: stack) deepest =
                searchLoop tracks maxStates fuel after stackAfter deepest := by
              simp [searchLoop, running, stuck, push]
            rw [loop]
            exact ih (explored.expand running stuck pushed) bounded (by omega)

theorem explored_initialState : Explored tracks [(initialState tracks, ({} : Visit))]
    [initialState tracks] none := by
  have only : ∀ state, state ∈ keys [(initialState tracks, ({} : Visit))] ↔
      state = initialState tracks := by
    intro state
    simp [keys]
  refine ⟨(only _).mpr rfl, fun state inside => ?_, fun state inside => ?_,
    fun state inside off => ?_, fun _ state inside off => ?_⟩
  · rw [(only state).mp inside]
  · exact (only state).mpr (mem_singleton.mp inside)
  · exact absurd (mem_singleton.mpr ((only state).mp inside)) off
  · exact absurd (mem_singleton.mpr ((only state).mp inside)) off

theorem searchComponent_answers (tracks : List CoordinationTrack) (maxStates : Nat) :
    ∃ outcome, searchComponent tracks maxStates = some outcome ∧ Answers tracks outcome :=
  searchLoop_answers _ explored_initialState (by simp) (by simp)

/-- Some state that can be reached has no successor. -/
theorem exists_terminal (consistent : Consistent count tracks) :
    ∃ final, ReflTransGen (Next tracks) (initialState tracks) final ∧
      ∀ next, ¬ Next tracks final next := by
  obtain ⟨standing, arrivals, last⟩ :=
    @exists_stuck _ _ _ _ count _ (standingOf tracks (initialState tracks))
  obtain ⟨final, path, fits, rfl⟩ := lift_arrivals consistent fits_initialState arrivals
  exact ⟨final, path, fun next step => last _ (step.sound consistent fits).2⟩

/-- A search that ends without a deadlock and within the bound has found a completing order. -/
theorem searchComponent_decides (consistent : Consistent count tracks) (maxStates : Nat) :
    (∀ deadlock, searchComponent tracks maxStates = some (.deadlock deadlock) →
        ¬ Completes count tracks) ∧
      (searchComponent tracks maxStates ≠ some .boundReached →
        (∀ deadlock, searchComponent tracks maxStates ≠ some (.deadlock deadlock)) →
          Completes count tracks) := by
  obtain ⟨outcome, result, answers⟩ := searchComponent_answers tracks maxStates
  rw [result, completes_iff_reaches consistent]
  constructor
  · rintro deadlock same ⟨final, path, finished⟩
    obtain rfl := Option.some.inj same
    exact absurd finished (by rw [answers final path]; exact Bool.false_ne_true)
  · intro unbounded free
    cases outcome with
    | complete => exact answers
    | boundReached => exact absurd rfl unbounded
    | deadlock deadlock => exact absurd rfl (free deadlock)
    | nothingStalled =>
      obtain ⟨final, path, last⟩ := exists_terminal consistent
      obtain ⟨next, step⟩ := answers final path
      exact absurd step (last next)

section Components

theorem linkTrack_grows {parents : InsertionMap String String} (rooted : Rooted parents)
    (track : CoordinationTrack) :
    Grows parents (linkTrack parents track) ∧
      ∀ event ∈ track.events, Joined (linkTrack parents track) (lockNode event.lock)
        (deviceNode track.device) := by
  have begun := enter_grows rooted (deviceNode track.device)
  unfold linkTrack
  -- over the events: the device is entered, and joined with the locks so far
  suffices linked : ∀ (events : List CoordinationEvent) (current : InsertionMap String String),
      Rooted current → deviceNode track.device ∈ keys current →
      Grows current (events.foldl (fun parents event => unite (enter parents (lockNode event.lock))
        (lockNode event.lock) (deviceNode track.device)) current) ∧
      ∀ event ∈ events, Joined (events.foldl (fun parents event => unite (enter parents
        (lockNode event.lock)) (lockNode event.lock) (deviceNode track.device)) current)
          (lockNode event.lock) (deviceNode track.device) by
    obtain ⟨grown, joined⟩ := linked track.events _ begun.rooted (mem_keys_enter _)
    exact ⟨begun.trans grown, joined⟩
  intro events
  induction events with
  | nil => exact fun current rooted _ => ⟨.refl rooted, by simp⟩
  | cons event events ih =>
    intro current rooted known
    have entered := enter_grows rooted (lockNode event.lock)
    obtain ⟨united, together⟩ := unite_grows entered.rooted (mem_keys_enter (lockNode event.lock))
      (entered.entered _ known)
    obtain ⟨grown, joined⟩ := ih _ united.rooted (united.entered _ (entered.entered _ known))
    refine ⟨(entered.trans united).trans grown, fun other member => ?_⟩
    rcases List.mem_cons.mp member with rfl | member
    · exact grown.joined _ _ together
    · exact joined other member

theorem linkTracks_joined (tracks : List CoordinationTrack) :
    Rooted (linkTracks tracks) ∧ ∀ track ∈ tracks, ∀ event ∈ track.events,
      Joined (linkTracks tracks) (lockNode event.lock) (deviceNode track.device) := by
  induction tracks using List.reverseRecOn with
  | nil => exact ⟨fun node known => by simp [linkTracks, keys] at known, by simp⟩
  | append_singleton tracks last ih =>
    have snoc : linkTracks (tracks ++ [last]) = linkTrack (linkTracks tracks) last := by
      simp [linkTracks]
    obtain ⟨grown, joined⟩ := linkTrack_grows ih.1 last
    rw [snoc]
    refine ⟨grown.rooted, fun track member event inside => ?_⟩
    rcases List.mem_append.mp member with earlier | same
    · exact grown.joined _ _ (ih.2 track earlier event inside)
    · obtain rfl := List.mem_singleton.mp same
      exact joined event inside

/-- The root of a track's device, which names its component. -/
def componentOf (tracks : List CoordinationTrack) (track : CoordinationTrack) : String :=
  findRoot (linkTracks tracks) (deviceNode track.device)

/-- Tracks that share a lock are in one component. -/
theorem componentOf_eq_of_shared {one other : CoordinationTrack} (first : one ∈ tracks)
    (second : other ∈ tracks) {lock : String} (inOne : lock ∈ lockProgram one)
    (inOther : lock ∈ lockProgram other) : componentOf tracks one = componentOf tracks other := by
  obtain ⟨rooted, joined⟩ := linkTracks_joined tracks
  obtain ⟨event, eventIn, rfl⟩ := List.mem_map.mp inOne
  obtain ⟨event', eventIn', same⟩ := List.mem_map.mp inOther
  have left := (joined one first event eventIn).findRoot_eq rooted
  have right := (joined other second event' eventIn').findRoot_eq rooted
  unfold componentOf
  rw [← left, ← right, same]

theorem flatten_split (tracks : List CoordinationTrack) :
    (splitIndependentComponents tracks).flatten.Perm tracks := flatten_grouped _ _

theorem mem_of_mem_split {component : List CoordinationTrack}
    (member : component ∈ splitIndependentComponents tracks) {track : CoordinationTrack}
    (inside : track ∈ component) : track ∈ tracks :=
  (flatten_split tracks).mem_iff.mp (List.mem_flatten.mpr ⟨component, member, inside⟩)

/-- The programs of a list of tracks. -/
def programsOf (tracks : List CoordinationTrack) : Multiset (List String) :=
  (tracks.map lockProgram : List (List String))

theorem completes_iff_completable :
    Completes count tracks ↔ Completable count (programsOf tracks) := by
  have programs : (Finset.univ : Finset (Fin tracks.length)).val.map
      (fun index => lockProgram tracks[index]) = programsOf tracks := by
    rw [Fin.univ_val_map]
    congr 1
    exact List.ofFn_getElem_eq_map tracks lockProgram
  unfold Completes
  rw [finishes_iff_completable, programs]

theorem pooled_programsOf (components : List (List CoordinationTrack)) :
    pooled (components.map programsOf) = programsOf components.flatten := by
  induction components with
  | nil => rfl
  | cons component components ih =>
    have whole : pooled ((component :: components).map programsOf) =
        programsOf component + pooled (components.map programsOf) := rfl
    rw [whole, ih]
    simp [programsOf]

/-- Components share no lock. -/
theorem split_disjoint (tracks : List CoordinationTrack) :
    ((splitIndependentComponents tracks).map programsOf).Pairwise BarrierRounds.Disjoint := by
  have distinct := nodup_keys_grouped (componentOf tracks) tracks
  have apart : (grouped (componentOf tracks) tracks).Pairwise fun one other => one.1 ≠ other.1 :=
    List.pairwise_map.mp distinct
  unfold splitIndependentComponents values
  rw [List.map_map, List.pairwise_map]
  refine apart.imp_of_mem fun {one other} first second different => ?_
  intro programOne inOne programOther inOther lock here there
  obtain ⟨trackOne, memberOne, rfl⟩ := List.mem_map.mp inOne
  obtain ⟨trackOther, memberOther, rfl⟩ := List.mem_map.mp inOther
  have known : ∀ {group : String × List CoordinationTrack},
      group ∈ grouped (componentOf tracks) tracks → group.2 ∈ splitIndependentComponents tracks :=
    fun inside => List.mem_map_of_mem inside
  have same := componentOf_eq_of_shared (mem_of_mem_split (known first) memberOne)
    (mem_of_mem_split (known second) memberOther) here there
  have keyOne : componentOf tracks trackOne = one.1 := keyOf_of_mem_grouped _ _ first _ memberOne
  have keyOther : componentOf tracks trackOther = other.1 :=
    keyOf_of_mem_grouped _ _ second _ memberOther
  exact different (keyOne.symm.trans (same.trans keyOther))

/-- A plan completes exactly when each of its components does. -/
theorem completes_iff_components (tracks : List CoordinationTrack) : Completes count tracks ↔
      ∀ component ∈ splitIndependentComponents tracks, Completes count component := by
  have shared : programsOf tracks = pooled ((splitIndependentComponents tracks).map programsOf) := by
    rw [pooled_programsOf]
    exact (Multiset.coe_eq_coe.mpr ((flatten_split tracks).map lockProgram)).symm
  rw [completes_iff_completable, shared, completable_pooled (split_disjoint tracks)]
  simp only [List.forall_mem_map, completes_iff_completable]

end Components

theorem Consistent.component (consistent : Consistent count tracks)
    {component : List CoordinationTrack} (member : component ∈ splitIndependentComponents tracks) :
    Consistent count component :=
  fun track inside => consistent track (mem_of_mem_split member inside)

/-- A deadlock that is reported dooms the whole plan. -/
theorem reported_deadlock_dooms (consistent : Consistent count tracks) {maxStates : Nat}
    {deadlock : CoordinationDeadlock}
    (found : findUnavoidableCoordinationDeadlock tracks maxStates = some deadlock) :
    ¬ Completes count tracks := by
  obtain ⟨component, member, here⟩ := List.exists_of_findSome?_eq_some found
  unfold componentDeadlock at here
  split at here
  · cases here
  · split at here
    · rename_i reported result
      intro completes
      exact (searchComponent_decides (consistent.component member) maxStates).1 reported result
        ((completes_iff_components tracks).mp completes component member)
    · cases here

/-- Without unmodelled events and within the bound, no report means that the plan can complete. -/
theorem completes_of_none (consistent : Consistent count tracks) {maxStates : Nat}
    (modeled : ∀ track ∈ tracks, ∀ event ∈ track.events, event.unmodeled = false)
    (unbounded : ∀ component ∈ splitIndependentComponents tracks,
      searchComponent component maxStates ≠ some .boundReached)
    (none : findUnavoidableCoordinationDeadlock tracks maxStates = none) :
    Completes count tracks := by
  refine (completes_iff_components tracks).mpr fun component member => ?_
  have quiet := List.findSome?_eq_none_iff.mp none component member
  have followed : isUnmodeled component = false := by
    simp only [isUnmodeled, List.any_eq_false]
    intro track inside unmodeled
    obtain ⟨event, inEvents, marked⟩ := List.any_eq_true.mp unmodeled
    rw [modeled track (mem_of_mem_split member inside) event inEvents] at marked
    cases marked
  refine (searchComponent_decides (consistent.component member) maxStates).2
    (unbounded component member) fun deadlock result => ?_
  simp [componentDeadlock, followed, result] at quiet

/-- The search of every component ends. A deadlock it reports dooms the whole plan, and
without unmodelled events and within the bound no report means that the plan can complete. -/
theorem feasibility_exact (count : String → ℕ) (tracks : List CoordinationTrack) (maxStates : Nat)
    (consistent : Consistent count tracks) :
    (∀ component ∈ splitIndependentComponents tracks,
      (searchComponent component maxStates).isSome) ∧
    (∀ deadlock, findUnavoidableCoordinationDeadlock tracks maxStates = some deadlock →
      ¬ Completes count tracks) ∧
    ((∀ track ∈ tracks, ∀ event ∈ track.events, event.unmodeled = false) →
      (∀ component ∈ splitIndependentComponents tracks,
        searchComponent component maxStates ≠ some .boundReached) →
      findUnavoidableCoordinationDeadlock tracks maxStates = none → Completes count tracks) := by
  refine ⟨fun component _ => ?_, fun deadlock => reported_deadlock_dooms consistent,
    completes_of_none consistent⟩
  obtain ⟨outcome, result, -⟩ := searchComponent_answers component maxStates
  simp [result]

/-- An arrival of two devices. -/
def pairEvent (lock : String) (stepIndex : Nat) : CoordinationEvent :=
  ⟨"barrier", lock, 2, stepIndex, false⟩

/-- Two devices visit two locks in opposite orders, beside an independent pair. -/
def crossedPlan : List CoordinationTrack :=
  [⟨"C", [pairEvent "Z" 0]⟩, ⟨"A", [pairEvent "X" 1, pairEvent "Y" 2]⟩,
    ⟨"D", [pairEvent "Z" 3]⟩, ⟨"B", [pairEvent "Y" 4, pairEvent "X" 5]⟩]

/-- The same devices, one of them in the other order. -/
def orderedPlan : List CoordinationTrack :=
  [⟨"C", [pairEvent "Z" 0]⟩, ⟨"A", [pairEvent "X" 1, pairEvent "Y" 2]⟩,
    ⟨"D", [pairEvent "Z" 3]⟩, ⟨"B", [pairEvent "X" 4, pairEvent "Y" 5]⟩]

theorem feasibility_exact_pairs :
    ¬ Completes (fun _ => 2) crossedPlan ∧ Completes (fun _ => 2) orderedPlan := by
  constructor
  · obtain ⟨deadlock, found⟩ : ∃ deadlock,
        findUnavoidableCoordinationDeadlock crossedPlan 100 = some deadlock :=
      Option.isSome_iff_exists.mp (by decide +kernel)
    have consistent : Consistent (fun _ => 2) crossedPlan := by
      intro track member event inside
      have all : ∀ track ∈ crossedPlan, ∀ event ∈ track.events, event.deviceCount = 2 := by decide
      exact all track member event inside
    exact (feasibility_exact _ crossedPlan 100 consistent).2.1 deadlock found
  · have consistent : Consistent (fun _ => 2) orderedPlan := by
      intro track member event inside
      have all : ∀ track ∈ orderedPlan, ∀ event ∈ track.events, event.deviceCount = 2 := by decide
      exact all track member event inside
    exact (feasibility_exact _ orderedPlan 100 consistent).2.2 (by decide +kernel)
      (by decide +kernel) (by decide +kernel)

end AutoMobile.CoordinationSchedule
