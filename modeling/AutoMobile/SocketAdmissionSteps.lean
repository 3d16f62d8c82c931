import AutoMobile.SocketRequestAdmission
import Mathlib.Data.List.Nodup
import Mathlib.Data.List.Pairwise

/- The invariant of a socket's queue, and what a start and a scan preserve. -/
namespace AutoMobile.SocketAdmission

open List

def Output.settles : Output → Option Nat
  | .resolved id => some id
  | .rejected id _ => some id
  | .started _ _ => none
  | .handled _ => none

def Output.handles : Output → Option Nat
  | .handled id => some id
  | .resolved _ => none
  | .rejected _ _ => none
  | .started _ _ => none

/-- The promise of the request is open: the request waits, or its handler runs. -/
def Unsettled (queue : Queue) (id : Nat) : Prop :=
  (∃ entry ∈ queue.pending, entry.id = id) ∨
    ∃ running ∈ queue.running, running.handling = true ∧ running.entry.id = id

/-- The invariant of the queue. -/
structure Sound (queue : Queue) : Prop where
  sorted : queue.pending.Pairwise fun earlier later => earlier.id < later.id
  fresh : ∀ entry ∈ queue.pending, entry.id < queue.requests
  known : ∀ running ∈ queue.running, running.entry.id < queue.requests
  distinct : (queue.running.map fun running => running.entry.id).Nodup
  apart : ∀ entry ∈ queue.pending, ∀ running ∈ queue.running, running.entry.id ≠ entry.id
  count : queue.runningCount = queue.running.length
  barrier : queue.barrierRunning = true ↔ ∃ running ∈ queue.running, running.entry.lane = none
  lanes : ∀ lane, lane ∈ queue.runningLanes ↔
    lane ≠ hostInventory ∧ ∃ running ∈ queue.running, running.entry.lane = some lane
  alone : ∀ running ∈ queue.running, running.entry.lane = none →
    ∀ other ∈ queue.running, other = running
  single : ∀ one ∈ queue.running, ∀ two ∈ queue.running, ∀ lane, lane ≠ hostInventory →
    one.entry.lane = some lane → two.entry.lane = some lane → one = two
  before : ∀ running ∈ queue.running, ∀ entry ∈ queue.pending,
    running.entry.lane = none ∨ entry.lane = none → running.entry.id < entry.id

/-- What was put out so far fits the queue. -/
structure Told (queue : Queue) (past : List Output) : Prop where
  started : ∀ id lane, .started id lane ∈ past → id < queue.requests
  next : ∀ id lane, .started id lane ∈ past → ∀ entry ∈ queue.pending, entry.lane = lane →
    id < entry.id
  starts : past.Pairwise fun earlier later => ∀ one two lane, earlier = .started one lane →
    later = .started two lane → one < two
  settled : ∀ id, id ∈ past.filterMap Output.settles ↔ id < queue.requests ∧ ¬ Unsettled queue id
  once : (past.filterMap Output.settles).Nodup
  handled : ∀ id ∈ past.filterMap Output.handles,
    id < queue.requests ∧ ∀ entry ∈ queue.pending, entry.id ≠ id
  handledOnce : (past.filterMap Output.handles).Nodup
  never : past.Pairwise fun earlier later => ∀ id, earlier.settles = some id → later ≠ .handled id

/-- The scan may start an entry after it has skipped others. -/
def Startable (queue : Queue) (skipped : List PendingRequest) (entry : PendingRequest) : Prop :=
  match entry.lane with
  | none => skipped = [] ∧ queue.running = []
  | some lane =>
    lane ∉ queue.runningLanes ∧ queue.barrierRunning = false ∧
      ∀ other ∈ skipped, ∃ lane', other.lane = some lane' ∧ lane' ≠ lane

section Start

variable {clock : Clock} {queue : Queue} {skipped rest : List PendingRequest}
  {entry : PendingRequest}

/-- The fields that a start changes. -/
theorem start_fields (clock : Clock) (queue : Queue) (entry : PendingRequest) :
    (start clock queue entry).1 = { queue with
        runningCount := queue.runningCount + 1
        barrierRunning := queue.barrierRunning || entry.lane.isNone
        runningLanes :=
          match entry.lane with
          | none => queue.runningLanes
          | some lane =>
            if lane ≠ hostInventory then lane :: queue.runningLanes else queue.runningLanes
        running := queue.running ++ [⟨entry, !expired clock entry⟩] } := by
  unfold start
  cases expired clock entry with
  | true => rfl
  | false => rfl

theorem start_outputs (clock : Clock) (queue : Queue) (entry : PendingRequest) :
    (start clock queue entry).2 = [.started entry.id entry.lane,
        if expired clock entry then .rejected entry.id (.timedOut entry.sameLaneWait)
        else .handled entry.id] := by
  unfold start
  cases expired clock entry with
  | true => rfl
  | false => rfl

/-- The entries before a place in the queue have smaller ids, those after it greater ones. -/
theorem Sound.around (sound : Sound queue) (split : queue.pending = skipped ++ entry :: rest) :
    (∀ other ∈ skipped, other.id < entry.id) ∧ ∀ other ∈ rest, entry.id < other.id := by
  have sorted := sound.sorted
  rw [split, pairwise_append, pairwise_cons] at sorted
  refine ⟨fun other member => ?_, sorted.2.1.1⟩
  exact sorted.2.2 other member entry mem_cons_self

theorem mem_of_removed {other : PendingRequest}
    (split : queue.pending = skipped ++ entry :: rest) (member : other ∈ skipped ++ rest) :
    other ∈ queue.pending := by
  rw [split]
  simp only [mem_append, mem_cons] at member ⊢
  exact member.imp id .inr

theorem start_sound (sound : Sound queue) (split : queue.pending = skipped ++ entry :: rest)
    (startable : Startable queue skipped entry) :
    Sound (start clock { queue with pending := skipped ++ rest } entry).1 := by
  have here : entry ∈ queue.pending := by simp [split]
  obtain ⟨smaller, greater⟩ := sound.around split
  have quiet : ∀ running ∈ queue.running, running.entry.lane ≠ none := by
    intro running member barrier
    unfold Startable at startable
    split at startable
    case h_1 =>
      rw [startable.2] at member
      cases member
    case h_2 =>
      have known := sound.barrier.2 ⟨running, member, barrier⟩
      rw [startable.2.1] at known
      contradiction
  rw [start_fields]
  constructor
  case sorted =>
    have sorted := sound.sorted
    rw [split] at sorted
    exact sorted.sublist ((List.Sublist.refl skipped).append (sublist_cons_self entry rest))
  case fresh => exact fun other member => sound.fresh other (mem_of_removed split member)
  case known =>
    intro running member
    obtain old | new := mem_append.1 member
    · exact sound.known running old
    · rw [mem_singleton.1 new]
      exact sound.fresh entry here
  case distinct =>
    rw [map_append, nodup_append]
    refine ⟨sound.distinct, nodup_singleton _, ?_⟩
    intro id listed other single
    obtain ⟨running, member, rfl⟩ := mem_map.1 listed
    rw [map_singleton, mem_singleton] at single
    rw [single]
    exact sound.apart entry here running member
  case apart =>
    intro other member running listed
    obtain old | new := mem_append.1 listed
    · exact sound.apart other (mem_of_removed split member) running old
    · rw [mem_singleton.1 new]
      obtain early | late := mem_append.1 member
      · exact Nat.ne_of_gt (smaller other early)
      · exact Nat.ne_of_lt (greater other late)
  case count =>
    change queue.runningCount + 1 = (queue.running ++ [_]).length
    rw [length_append, length_singleton, sound.count]
  case barrier =>
    change (queue.barrierRunning || entry.lane.isNone) = true ↔ _
    rw [Bool.or_eq_true, sound.barrier, Option.isNone_iff_eq_none]
    simp only [mem_append, mem_singleton, or_and_right, exists_or, exists_eq_left]
  case lanes =>
    intro lane
    have before := sound.lanes lane
    simp only [mem_append, mem_singleton, or_and_right, exists_or, exists_eq_left]
    cases known : entry.lane with
    | none => simpa using before
    | some own =>
      dsimp only
      split
      case isTrue other =>
        rw [mem_cons, before, Option.some.injEq]
        constructor
        · rintro (rfl | ⟨apart, running⟩)
          · exact ⟨other, .inr rfl⟩
          · exact ⟨apart, .inl running⟩
        · rintro ⟨apart, running | same⟩
          · exact .inr ⟨apart, running⟩
          · exact .inl same.symm
      case isFalse same =>
        rw [before, Option.some.injEq]
        constructor
        · exact fun ⟨apart, running⟩ => ⟨apart, .inl running⟩
        · rintro ⟨apart, running | rfl⟩
          · exact ⟨apart, running⟩
          · exact absurd apart same
  case alone =>
    intro running member barrier
    obtain old | new := mem_append.1 member
    · exact absurd barrier (quiet running old)
    · obtain rfl := mem_singleton.1 new
      have barrier : entry.lane = none := barrier
      unfold Startable at startable
      rw [barrier] at startable
      intro other listed
      rw [startable.2, nil_append] at listed
      exact mem_singleton.1 listed
  case single =>
    intro one member two member' lane other first second
    have apart : ∀ running ∈ queue.running, running.entry.lane = some lane →
        entry.lane ≠ some lane := by
      intro running listed here same
      unfold Startable at startable
      rw [same] at startable
      exact startable.1 ((sound.lanes lane).2 ⟨other, running, listed, here⟩)
    obtain old | new := mem_append.1 member
    · obtain old' | new' := mem_append.1 member'
      · exact sound.single one old two old' lane other first second
      · rw [mem_singleton.1 new'] at second
        exact absurd second (apart one old first)
    · obtain old' | new' := mem_append.1 member'
      · rw [mem_singleton.1 new] at first
        exact absurd first (apart two old' second)
      · rw [mem_singleton.1 new, mem_singleton.1 new']
  case before =>
    intro running member other listed ordered
    obtain old | new := mem_append.1 member
    · exact sound.before running old other (mem_of_removed split listed) ordered
    · rw [mem_singleton.1 new] at ordered ⊢
      obtain early | late := mem_append.1 listed
      · exfalso
        unfold Startable at startable
        split at startable
        case h_1 =>
          rw [startable.1] at early
          cases early
        case h_2 lane known =>
          obtain ⟨lane', laned, _⟩ := startable.2.2 other early
          rw [known, laned] at ordered
          simp at ordered
      · exact greater other late

theorem unsettled_start (id : Nat) :
    Unsettled (start clock { queue with pending := skipped ++ rest } entry).1 id ↔
      (∃ other ∈ skipped ++ rest, other.id = id) ∨
        (∃ running ∈ queue.running, running.handling = true ∧ running.entry.id = id) ∨
        (expired clock entry = false ∧ entry.id = id) := by
  rw [start_fields]
  unfold Unsettled
  simp only [mem_append, mem_singleton, or_and_right, exists_or, exists_eq_left, Bool.not_eq_true']

theorem start_told {past : List Output} (sound : Sound queue) (told : Told queue past)
    (split : queue.pending = skipped ++ entry :: rest)
    (startable : Startable queue skipped entry) :
    Told (start clock { queue with pending := skipped ++ rest } entry).1
      (past ++ (start clock { queue with pending := skipped ++ rest } entry).2) := by
  have here : entry ∈ queue.pending := by simp [split]
  obtain ⟨smaller, greater⟩ := sound.around split
  have requests : (start clock { queue with pending := skipped ++ rest } entry).1.requests =
      queue.requests := by rw [start_fields]
  have pending : (start clock { queue with pending := skipped ++ rest } entry).1.pending =
      skipped ++ rest := by rw [start_fields]
  have open_ : entry.id ∉ past.filterMap Output.settles := by
    rw [told.settled]
    exact fun settled => settled.2 (.inl ⟨entry, here, rfl⟩)
  have fresh : entry.id ∉ past.filterMap Output.handles := fun handled =>
    (told.handled entry.id handled).2 entry here rfl
  have notRunning : ∀ running ∈ queue.running, running.entry.id ≠ entry.id := sound.apart entry here
  have others : ∀ other ∈ skipped ++ rest, other.id ≠ entry.id := by
    intro other member
    obtain early | late := mem_append.1 member
    · exact Nat.ne_of_lt (smaller other early)
    · exact Nat.ne_of_gt (greater other late)
  have unsettled : ∀ id, Unsettled queue id ↔ entry.id = id ∨
      (∃ other ∈ skipped ++ rest, other.id = id) ∨
        ∃ running ∈ queue.running, running.handling = true ∧ running.entry.id = id := by
    intro id
    unfold Unsettled
    rw [split]
    simp only [mem_append, mem_cons, or_and_right, exists_or, exists_eq_left]
    rw [or_left_comm, or_assoc]
  have started : ∀ id lane, .started id lane ∈ [Output.started entry.id entry.lane,
        if expired clock entry then .rejected entry.id (.timedOut entry.sameLaneWait)
        else .handled entry.id] → id = entry.id ∧ lane = entry.lane := by
    intro id lane new
    obtain first | second := mem_cons.1 new
    · simpa using first
    · rw [mem_singleton] at second
      split at second <;> contradiction
  rw [start_outputs]
  constructor
  case started =>
    intro id lane member
    rw [requests]
    obtain old | new := mem_append.1 member
    · exact told.started id lane old
    · rw [(started id lane new).1]
      exact sound.fresh entry here
  case next =>
    intro id lane member other listed same
    rw [pending] at listed
    obtain old | new := mem_append.1 member
    · exact told.next id lane old other (mem_of_removed split listed) same
    · obtain ⟨rfl, rfl⟩ := started id lane new
      obtain early | late := mem_append.1 listed
      · exfalso
        unfold Startable at startable
        split at startable
        case h_1 =>
          rw [startable.1] at early
          cases early
        case h_2 lane known =>
          obtain ⟨lane', laned, apart⟩ := startable.2.2 other early
          rw [known, laned] at same
          exact apart (Option.some.inj same)
      · exact greater other late
  case starts =>
    rw [pairwise_append]
    refine ⟨told.starts, ?_, ?_⟩
    · rw [pairwise_cons]
      refine ⟨?_, pairwise_singleton _ _⟩
      intro later member one two lane _ second
      rw [mem_singleton] at member
      rw [member] at second
      split at second <;> contradiction
    · intro earlier member later new one two lane first second
      subst first second
      obtain new | new := mem_cons.1 new
      · obtain ⟨rfl, rfl⟩ := Output.started.inj new
        exact told.next one _ member entry here rfl
      · rw [mem_singleton] at new
        split at new <;> contradiction
  case settled =>
    intro id
    rw [filterMap_append, mem_append, told.settled, unsettled, requests, unsettled_start]
    have bound := sound.fresh entry here
    have apart := notRunning
    cases late : expired clock entry with
    | true =>
      simp only [Output.settles, filterMap_cons, filterMap_nil, mem_singleton,
        if_true, Bool.true_eq_false, false_and, or_false]
      constructor
      · rintro (⟨known, closed⟩ | rfl)
        · exact ⟨known, fun still => closed (.inr still)⟩
        · refine ⟨bound, ?_⟩
          rintro (⟨other, member, same⟩ | ⟨running, member, _, same⟩)
          · exact others other member same
          · exact apart running member same
      · rintro ⟨known, closed⟩
        by_cases same : entry.id = id
        · exact .inr same.symm
        · exact .inl ⟨known, fun still => still.elim same closed⟩
    | false =>
      simp only [Output.settles, filterMap_cons, filterMap_nil, not_mem_nil,
        or_false, Bool.false_eq_true, if_false, true_and]
      constructor
      · rintro ⟨known, closed⟩
        refine ⟨known, fun still => closed ?_⟩
        obtain waits | runs | same := still
        · exact .inr (.inl waits)
        · exact .inr (.inr runs)
        · exact .inl same
      · rintro ⟨known, closed⟩
        refine ⟨known, fun still => closed ?_⟩
        obtain same | waits | runs := still
        · exact .inr (.inr same)
        · exact .inl waits
        · exact .inr (.inl runs)
  case once =>
    rw [filterMap_append, nodup_append]
    refine ⟨told.once, ?_, ?_⟩
    · cases expired clock entry with
      | true => exact nodup_singleton _
      | false => exact nodup_nil
    · intro id listed other new same
      subst same
      cases late : expired clock entry with
      | true =>
        rw [late] at new
        simp only [Output.settles, filterMap_cons, filterMap_nil, mem_singleton, if_true] at new
        exact open_ (new ▸ listed)
      | false =>
        rw [late] at new
        simp [Output.settles] at new
  case handled =>
    intro id member
    rw [requests, pending]
    rw [filterMap_append, mem_append] at member
    obtain old | new := member
    · obtain ⟨known, gone⟩ := told.handled id old
      exact ⟨known, fun other listed => gone other (mem_of_removed split listed)⟩
    · cases late : expired clock entry with
      | true =>
        rw [late] at new
        simp [Output.handles] at new
      | false =>
        rw [late] at new
        have same : entry.id = id := by simpa [Output.handles] using new
        subst same
        exact ⟨sound.fresh entry here, others⟩
  case handledOnce =>
    rw [filterMap_append, nodup_append]
    refine ⟨told.handledOnce, ?_, ?_⟩
    · cases expired clock entry with
      | true => exact nodup_nil
      | false => exact nodup_singleton _
    · intro id listed other new same
      subst same
      cases late : expired clock entry with
      | true =>
        rw [late] at new
        simp [Output.handles] at new
      | false =>
        rw [late] at new
        have same : entry.id = id := by simpa [Output.handles] using new
        exact fresh (same.symm ▸ listed)
  case never =>
    rw [pairwise_append]
    refine ⟨told.never, ?_, ?_⟩
    · rw [pairwise_cons]
      refine ⟨?_, pairwise_singleton _ _⟩
      intro later _ id settles
      simp [Output.settles] at settles
    · intro earlier member later new id settles same
      subst same
      have settled : id ∈ past.filterMap Output.settles :=
        mem_filterMap.2 ⟨earlier, member, settles⟩
      obtain new | new := mem_cons.1 new
      · contradiction
      · rw [mem_singleton] at new
        split at new
        · contradiction
        · exact open_ (Output.handled.inj new ▸ settled)

end Start

section Pump

/-- What keeps a request waiting. -/
def Blocked (queue : Queue) (entry : PendingRequest) : Prop :=
  match entry.lane with
  | none => queue.running ≠ [] ∨ ∃ other ∈ queue.pending, other.id < entry.id
  | some lane =>
    (∃ running ∈ queue.running, running.entry.lane = none) ∨
      (∃ other ∈ queue.pending, other.lane = none ∧ other.id < entry.id) ∨
      (lane ≠ hostInventory ∧ ((∃ running ∈ queue.running, running.entry.lane = some lane) ∨
          ∃ other ∈ queue.pending, other.lane = some lane ∧ other.id < entry.id))

/-- No request waits for nothing. -/
def Quiescent (queue : Queue) : Prop := ∀ entry ∈ queue.pending, Blocked queue entry

variable {clock : Clock} {queue : Queue} {skipped rest : List PendingRequest}

theorem blocked_of_barrier {entry : PendingRequest} {running : Running}
    (member : running ∈ queue.running) (barrier : running.entry.lane = none) :
    Blocked queue entry := by
  unfold Blocked
  split
  · exact .inl (ne_nil_of_mem member)
  · exact .inl ⟨running, member, barrier⟩

theorem blocked_of_lane {entry : PendingRequest} (sound : Sound queue) {lane : String}
    (laned : entry.lane = some lane) (busy : lane ∈ queue.runningLanes) : Blocked queue entry := by
  obtain ⟨apart, running⟩ := (sound.lanes lane).1 busy
  unfold Blocked
  rw [laned]
  exact .inr (.inr ⟨apart, .inl running⟩)

theorem pending_self (split : queue.pending = skipped) : { queue with pending := skipped } = queue := by
  subst split
  rfl

/-- The scan leaves no request that could start. -/
theorem pumpFrom_spec {blockedLanes : List String} {past : List Output} (sound : Sound queue)
    (told : Told queue past) (split : queue.pending = skipped ++ rest)
    (idle : queue.barrierRunning = false)
    (lanes : ∀ other ∈ skipped, ∃ lane, other.lane = some lane ∧ lane ∈ queue.runningLanes)
    (blocked : ∀ lane ∈ blockedLanes, lane ∈ queue.runningLanes) :
    let done := pumpFrom clock skipped blockedLanes rest queue
    Sound done.1 ∧ Told done.1 (past ++ done.2) ∧ Quiescent done.1 := by
  induction rest generalizing skipped blockedLanes queue past with
  | nil =>
    rw [append_nil] at split
    unfold pumpFrom
    dsimp only
    rw [pending_self split, append_nil]
    refine ⟨sound, told, ?_⟩
    intro entry member
    rw [split] at member
    obtain ⟨lane, laned, busy⟩ := lanes entry member
    exact blocked_of_lane sound laned busy
  | cons entry rest ih =>
    unfold pumpFrom
    cases laned : entry.lane with
    | none =>
      dsimp only
      split
      case isTrue ready =>
        obtain ⟨rfl, none⟩ := ready
        have empty : queue.running = [] := by rw [← length_eq_zero_iff, ← sound.count, none]
        have startable : Startable queue [] entry := by
          unfold Startable
          rw [laned]
          exact ⟨rfl, empty⟩
        refine ⟨start_sound sound split startable, start_told sound told split startable, ?_⟩
        intro other _
        rw [start_fields]
        exact blocked_of_barrier (mem_append_right _ mem_cons_self) laned
      case isFalse waits =>
        rw [pending_self split, append_nil]
        refine ⟨sound, told, ?_⟩
        have listed : entry ∈ queue.pending := by simp [split]
        obtain ⟨smaller, greater⟩ := sound.around split
        intro other member
        rw [split] at member
        obtain early | late := mem_append.1 member
        · obtain ⟨lane, known, busy⟩ := lanes other early
          exact blocked_of_lane sound known busy
        · obtain rfl | late := mem_cons.1 late
          · unfold Blocked
            rw [laned]
            dsimp only
            by_cases first : skipped = []
            · left
              rintro empty
              exact waits ⟨first, by rw [sound.count, empty]; rfl⟩
            · obtain ⟨earlier, inside⟩ := exists_mem_of_ne_nil _ first
              exact .inr ⟨earlier, by simp [split, inside], smaller earlier inside⟩
          · have ahead := greater other late
            unfold Blocked
            split
            · exact .inr ⟨entry, listed, ahead⟩
            · exact .inr (.inl ⟨entry, listed, laned, ahead⟩)
    | some lane =>
      dsimp only
      split
      case isTrue busy =>
        have running : lane ∈ queue.runningLanes := busy.elim id (blocked lane)
        apply ih sound told
        · rw [split, append_assoc]
          rfl
        · exact idle
        · intro other member
          obtain early | here := mem_append.1 member
          · exact lanes other early
          · rw [mem_singleton.1 here]
            exact ⟨lane, laned, running⟩
        · intro other member
          obtain rfl | known := mem_cons.1 member
          · exact running
          · exact blocked other known
      case isFalse free =>
        have startable : Startable queue skipped entry := by
          unfold Startable
          rw [laned]
          refine ⟨fun busy => free (.inl busy), idle, fun other member => ?_⟩
          obtain ⟨lane', known, busy⟩ := lanes other member
          refine ⟨lane', known, ?_⟩
          rintro rfl
          exact free (.inl busy)
        have grows : ∀ lane, lane ∈ queue.runningLanes →
            lane ∈ (start clock { queue with pending := skipped ++ rest } entry).1.runningLanes := by
          intro other busy
          rw [start_fields, laned]
          dsimp only
          split
          · exact mem_cons_of_mem _ busy
          · exact busy
        have nextSound : Sound (start clock { queue with pending := skipped ++ rest } entry).1 :=
          start_sound sound split startable
        have nextTold := @start_told clock _ _ _ _ _ sound told split startable
        have nextIdle :
            (start clock { queue with pending := skipped ++ rest } entry).1.barrierRunning =
              false := by
          rw [start_fields, laned]
          exact congrArg (· || false) idle
        have nextPending : (start clock { queue with pending := skipped ++ rest } entry).1.pending =
              skipped ++ rest := by rw [start_fields]
        rw [← append_assoc]
        apply ih nextSound nextTold nextPending nextIdle
        · intro other member
          obtain ⟨lane', known, busy⟩ := lanes other member
          exact ⟨lane', known, grows lane' busy⟩
        · exact fun other known => grows other (blocked other known)

theorem pump_spec {past : List Output} (sound : Sound queue) (told : Told queue past) :
    let done := pump clock queue
    Sound done.1 ∧ Told done.1 (past ++ done.2) ∧ Quiescent done.1 := by
  unfold pump
  split
  case isTrue busy =>
    obtain ⟨running, member, barrier⟩ := sound.barrier.1 busy
    dsimp only
    rw [append_nil]
    exact ⟨sound, told, fun entry _ => blocked_of_barrier member barrier⟩
  case isFalse idle =>
    apply pumpFrom_spec sound told rfl (by simpa using idle)
    · intro other member
      cases member
    · intro lane member
      cases member

end Pump

end AutoMobile.SocketAdmission
