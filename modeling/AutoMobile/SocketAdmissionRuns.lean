import AutoMobile.SocketAdmissionSteps
import Mathlib.Data.List.Induction

/- What every run of a socket's queue keeps. -/
namespace AutoMobile.SocketAdmission

open List

section Steps

variable {clock : Clock} {queue : Queue} {past : List Output}

/-- The queue after its parts changed but not its requests. -/
theorem told_silent {queue' : Queue} (told : Told queue past)
    (requests : queue'.requests = queue.requests)
    (pending : ∀ entry ∈ queue'.pending, entry ∈ queue.pending)
    (unsettled : ∀ id, Unsettled queue' id ↔ Unsettled queue id) : Told queue' past where
  started id lane member := by
    rw [requests]
    exact told.started id lane member
  next id lane member entry listed same := told.next id lane member entry (pending entry listed) same
  starts := told.starts
  settled id := by rw [told.settled, requests, unsettled]
  once := told.once
  handled id member := by
    rw [requests]
    obtain ⟨known, gone⟩ := told.handled id member
    exact ⟨known, fun entry listed => gone entry (pending entry listed)⟩
  handledOnce := told.handledOnce
  never := told.never

/-- A promise is settled. -/
theorem told_settled {queue' : Queue} {id : Nat} {output : Output} (told : Told queue past)
    (requests : queue'.requests = queue.requests)
    (pending : ∀ entry ∈ queue'.pending, entry ∈ queue.pending) (bound : id < queue.requests)
    (was : Unsettled queue id)
    (unsettled : ∀ other, Unsettled queue' other ↔ Unsettled queue other ∧ other ≠ id)
    (settles : output.settles = some id) (handles : output.handles = none)
    (starts : ∀ other lane, output ≠ .started other lane) : Told queue' (past ++ [output]) where
  started other lane member := by
    rw [requests]
    obtain old | new := mem_append.1 member
    · exact told.started other lane old
    · exact absurd (mem_singleton.1 new).symm (starts other lane)
  next other lane member entry listed same := by
    obtain old | new := mem_append.1 member
    · exact told.next other lane old entry (pending entry listed) same
    · exact absurd (mem_singleton.1 new).symm (starts other lane)
  starts := by
    rw [pairwise_append]
    refine ⟨told.starts, pairwise_singleton _ _, ?_⟩
    intro earlier _ later new one two lane _ second
    rw [mem_singleton.1 new] at second
    exact absurd second (starts two lane)
  settled other := by
    rw [filterMap_append, mem_append, told.settled, requests, unsettled]
    simp only [filterMap_cons, filterMap_nil, settles, mem_singleton]
    constructor
    · rintro (⟨known, closed⟩ | rfl)
      · exact ⟨known, fun still => closed still.1⟩
      · exact ⟨bound, fun still => still.2 rfl⟩
    · rintro ⟨known, closed⟩
      by_cases same : other = id
      · exact .inr same
      · exact .inl ⟨known, fun still => closed ⟨still, same⟩⟩
  once := by
    rw [filterMap_append, nodup_append]
    simp only [filterMap_cons, filterMap_nil, settles, mem_singleton]
    refine ⟨told.once, nodup_singleton _, ?_⟩
    rintro other listed _ rfl rfl
    exact ((told.settled other).1 listed).2 was
  handled other member := by
    rw [requests]
    rw [filterMap_append, mem_append] at member
    obtain old | new := member
    · obtain ⟨known, gone⟩ := told.handled other old
      exact ⟨known, fun entry listed => gone entry (pending entry listed)⟩
    · simp [handles] at new
  handledOnce := by
    rw [filterMap_append]
    simp only [filterMap_cons, filterMap_nil, handles, append_nil]
    exact told.handledOnce
  never := by
    rw [pairwise_append]
    refine ⟨told.never, pairwise_singleton _ _, ?_⟩
    intro earlier _ later new other _ same
    rw [mem_singleton.1 new] at same
    rw [same] at handles
    contradiction

/-- A new request joins the queue last. -/
theorem push_spec (sound : Sound queue) (told : Told queue past) {entry : PendingRequest}
    (id : entry.id = queue.requests) :
    let pushed := { queue with
      pending := queue.pending ++ [entry], requests := queue.requests + 1 }
    Sound pushed ∧ Told pushed past := by
  have newer : ∀ other ∈ queue.pending, other.id < entry.id := fun other member =>
    id ▸ sound.fresh other member
  have members : ∀ other, other ∈ queue.pending ++ [entry] → other ∈ queue.pending ∨ other = entry :=
    fun other member => (mem_append.1 member).imp_right mem_singleton.1
  constructor
  · constructor
    case sorted =>
      rw [pairwise_append]
      refine ⟨sound.sorted, pairwise_singleton _ _, ?_⟩
      intro other member last here
      rw [mem_singleton.1 here]
      exact newer other member
    case fresh =>
      intro other member
      obtain old | rfl := members other member
      · exact Nat.lt_succ_of_lt (sound.fresh other old)
      · rw [id]
        exact Nat.lt_succ_self _
    case known => exact fun running member => Nat.lt_succ_of_lt (sound.known running member)
    case distinct => exact sound.distinct
    case apart =>
      intro other member running listed
      obtain old | rfl := members other member
      · exact sound.apart other old running listed
      · rw [id]
        exact Nat.ne_of_lt (sound.known running listed)
    case count => exact sound.count
    case barrier => exact sound.barrier
    case lanes => exact sound.lanes
    case alone => exact sound.alone
    case single => exact sound.single
    case before =>
      intro running member other listed ordered
      obtain old | rfl := members other listed
      · exact sound.before running member other old ordered
      · rw [id]
        exact sound.known running member
  · have unsettled : ∀ other, Unsettled { queue with
        pending := queue.pending ++ [entry], requests := queue.requests + 1 } other ↔
        Unsettled queue other ∨ other = queue.requests := by
      intro other
      unfold Unsettled
      simp only [mem_append, mem_singleton, or_and_right, exists_or, exists_eq_left]
      rw [or_right_comm, id, @eq_comm _ other]
    constructor
    case started =>
      exact fun other lane member => Nat.lt_succ_of_lt (told.started other lane member)
    case next =>
      intro other lane member waiting listed same
      obtain old | rfl := members waiting listed
      · exact told.next other lane member waiting old same
      · rw [id]
        exact told.started other lane member
    case starts => exact told.starts
    case settled =>
      intro other
      rw [told.settled, unsettled]
      constructor
      · rintro ⟨bound, closed⟩
        refine ⟨Nat.lt_succ_of_lt bound, ?_⟩
        rintro (still | rfl)
        · exact closed still
        · exact Nat.lt_irrefl _ bound
      · rintro ⟨bound, closed⟩
        refine ⟨?_, fun still => closed (.inl still)⟩
        have apart : other ≠ queue.requests := fun same => closed (.inr same)
        change other < queue.requests + 1 at bound
        omega
    case once => exact told.once
    case handled =>
      intro other member
      obtain ⟨bound, gone⟩ := told.handled other member
      refine ⟨Nat.lt_succ_of_lt bound, fun waiting listed => ?_⟩
      obtain old | rfl := members waiting listed
      · exact gone waiting old
      · rw [id]
        exact Nat.ne_of_gt bound
    case handledOnce => exact told.handledOnce
    case never => exact told.never

/-- Fewer requests wait. -/
theorem sound_filter (sound : Sound queue) (keep : PendingRequest → Bool) :
    Sound { queue with pending := queue.pending.filter keep } where
  sorted := sound.sorted.filter _
  fresh entry member := sound.fresh entry (mem_filter.1 member).1
  known := sound.known
  distinct := sound.distinct
  apart entry member := sound.apart entry (mem_filter.1 member).1
  count := sound.count
  barrier := sound.barrier
  lanes := sound.lanes
  alone := sound.alone
  single := sound.single
  before running member entry listed := sound.before running member entry (mem_filter.1 listed).1

theorem remove_spec (sound : Sound queue) (told : Told queue past) {id : Nat}
    {reason : PendingRequest → Rejection} (quiet : Quiescent queue ∨ ∃ entry ∈ queue.pending, entry.id = id) :
    let done := remove clock queue id reason
    Sound done.1 ∧ Told done.1 (past ++ done.2) ∧ Quiescent done.1 := by
  unfold remove
  cases found : queue.pending.find? fun entry => decide (entry.id = id) with
  | none =>
    dsimp only
    rw [append_nil]
    refine ⟨sound, told, quiet.resolve_right ?_⟩
    rintro ⟨entry, member, same⟩
    have unlike := find?_eq_none.1 found entry member
    simp [same] at unlike
  | some entry =>
    have member := mem_of_find?_eq_some found
    have same : entry.id = id := by simpa using find?_some found
    have removed : Told { queue with pending := queue.pending.filter fun entry => entry.id ≠ id }
        (past ++ [.rejected id (reason entry)]) := by
      apply told_settled told
      case requests => rfl
      case pending => exact fun other listed => (mem_filter.1 listed).1
      case bound => exact same ▸ sound.fresh entry member
      case was => exact .inl ⟨entry, member, same⟩
      case settles => rfl
      case handles => rfl
      case starts => exact fun _ _ equal => by contradiction
      case unsettled =>
        intro other
        unfold Unsettled
        constructor
        · rintro (⟨waiting, listed, rfl⟩ | ⟨running, listed, handling, rfl⟩)
          · obtain ⟨inside, apart⟩ := mem_filter.1 listed
            exact ⟨.inl ⟨waiting, inside, rfl⟩, by simpa using apart⟩
          · refine ⟨.inr ⟨running, listed, handling, rfl⟩, ?_⟩
            rw [← same]
            exact sound.apart entry member running listed
        · rintro ⟨⟨waiting, listed, rfl⟩ | running, apart⟩
          · exact .inl ⟨waiting, mem_filter.2 ⟨listed, by simpa using apart⟩, rfl⟩
          · exact .inr running
    have next := @pump_spec clock _ _ (sound_filter sound _) removed
    dsimp only at next
    rw [append_assoc, singleton_append] at next
    exact next

/-- The promise of a request changes, not the request. -/
theorem sound_map (sound : Sound queue) {change : Running → Running}
    (same : ∀ running, (change running).entry = running.entry) :
    Sound { queue with running := queue.running.map change } := by
  have entries : ∀ {running}, running ∈ queue.running.map change →
      ∃ old ∈ queue.running, change old = running ∧ running.entry = old.entry := by
    intro running member
    obtain ⟨old, listed, rfl⟩ := mem_map.1 member
    exact ⟨old, listed, rfl, same old⟩
  have lift : ∀ {test : PendingRequest → Prop}, (∃ running ∈ queue.running.map change,
      test running.entry) ↔ ∃ running ∈ queue.running, test running.entry := by
    intro test
    constructor
    · rintro ⟨running, member, holds⟩
      obtain ⟨old, listed, _, equal⟩ := entries member
      exact ⟨old, listed, equal ▸ holds⟩
    · rintro ⟨running, member, holds⟩
      exact ⟨change running, mem_map_of_mem member, (same running).symm ▸ holds⟩
  constructor
  case sorted => exact sound.sorted
  case fresh => exact sound.fresh
  case known =>
    intro running member
    obtain ⟨old, listed, _, equal⟩ := entries member
    rw [equal]
    exact sound.known old listed
  case distinct =>
    rw [List.map_map]
    have ids : ((fun running : Running => running.entry.id) ∘ change) =
        fun running => running.entry.id := by
      funext running
      exact congrArg PendingRequest.id (same running)
    rw [ids]
    exact sound.distinct
  case apart =>
    intro entry waiting running member
    obtain ⟨old, listed, _, equal⟩ := entries member
    rw [equal]
    exact sound.apart entry waiting old listed
  case count =>
    rw [length_map]
    exact sound.count
  case barrier => exact sound.barrier.trans (@lift fun entry => entry.lane = none).symm
  case lanes =>
    intro lane
    rw [sound.lanes lane]
    exact and_congr_right fun _ => (@lift fun entry => entry.lane = some lane).symm
  case alone =>
    intro running member barrier other listed
    obtain ⟨old, inside, rfl, equal⟩ := entries member
    obtain ⟨old', inside', rfl, _⟩ := entries listed
    rw [equal] at barrier
    rw [sound.alone old inside barrier old' inside']
  case single =>
    intro one member two member' lane other first second
    obtain ⟨old, inside, rfl, equal⟩ := entries member
    obtain ⟨old', inside', rfl, equal'⟩ := entries member'
    rw [equal] at first
    rw [equal'] at second
    rw [sound.single old inside old' inside' lane other first second]
  case before =>
    intro running member entry waiting ordered
    obtain ⟨old, inside, _, equal⟩ := entries member
    rw [equal] at ordered ⊢
    exact sound.before old inside entry waiting ordered

theorem quiescent_map (quiet : Quiescent queue) {change : Running → Running}
    (same : ∀ running, (change running).entry = running.entry) :
    Quiescent { queue with running := queue.running.map change } := by
  intro entry member
  have blocked := quiet entry member
  have lift : ∀ {lane : Option String}, (∃ running ∈ queue.running, running.entry.lane = lane) →
      ∃ running ∈ queue.running.map change, running.entry.lane = lane := by
    rintro lane ⟨running, listed, laned⟩
    exact ⟨change running, mem_map_of_mem listed, (same running).symm ▸ laned⟩
  unfold Blocked at blocked ⊢
  split at blocked
  case h_1 =>
    refine blocked.imp_left fun busy empty => busy ?_
    exact map_eq_nil_iff.1 empty
  case h_2 =>
    obtain barrier | earlier | ⟨other, running | ahead⟩ := blocked
    · exact .inl (lift barrier)
    · exact .inr (.inl earlier)
    · exact .inr (.inr ⟨other, .inl (lift running)⟩)
    · exact .inr (.inr ⟨other, .inr ahead⟩)

theorem settle_spec (sound : Sound queue) (told : Told queue past) (quiet : Quiescent queue)
    (id : Nat) (ok : Bool) :
    let done := settle queue id ok
    Sound done.1 ∧ Told done.1 (past ++ done.2) ∧ Quiescent done.1 := by
  unfold settle
  split
  case isFalse =>
    dsimp only
    rw [append_nil]
    exact ⟨sound, told, quiet⟩
  case isTrue runs =>
    obtain ⟨running, member, handles⟩ := any_eq_true.1 runs
    simp only [Bool.and_eq_true, decide_eq_true_eq] at handles
    have same : ∀ running : Running, (if running.entry.id = id then
        { running with handling := false } else running).entry = running.entry := by
      intro running
      split
      · rfl
      · rfl
    refine ⟨sound_map sound same, ?_, quiescent_map quiet same⟩
    apply told_settled told
    case requests => rfl
    case pending => exact fun _ listed => listed
    case bound => exact handles.1 ▸ sound.known running member
    case was => exact .inr ⟨running, member, handles.2, handles.1⟩
    case settles => cases ok <;> rfl
    case handles => cases ok <;> rfl
    case starts => cases ok <;> exact fun _ _ equal => by contradiction
    case unsettled =>
      intro other
      unfold Unsettled
      constructor
      · rintro (⟨waiting, listed, rfl⟩ | ⟨after, listed, handling, rfl⟩)
        · refine ⟨.inl ⟨waiting, listed, rfl⟩, ?_⟩
          rw [← handles.1]
          exact fun equal => sound.apart waiting listed running member equal.symm
        · obtain ⟨old, inside, rfl⟩ := mem_map.1 listed
          rw [same]
          by_cases here : old.entry.id = id
          · rw [if_pos here] at handling
            contradiction
          · rw [if_neg here] at handling
            exact ⟨.inr ⟨old, inside, handling, rfl⟩, here⟩
      · rintro ⟨waiting | ⟨old, inside, handling, rfl⟩, apart⟩
        · exact .inl waiting
        · refine .inr ⟨old, ?_, handling, rfl⟩
          exact mem_map.2 ⟨old, inside, if_neg apart⟩

/-- The started requests but one. -/
theorem others_of_mem (sound : Sound queue) {done : Running} (member : done ∈ queue.running) :
    (∀ running, running ∈ (queue.running.filter fun running => running.entry.id ≠ done.entry.id) ↔
      running ∈ queue.running ∧ running ≠ done) ∧
    (queue.running.filter fun running => running.entry.id ≠ done.entry.id).length + 1 =
      queue.running.length := by
  have unique : ∀ running ∈ queue.running, running.entry.id = done.entry.id → running = done :=
    fun running listed same => inj_on_of_nodup_map sound.distinct listed member same
  constructor
  · intro running
    rw [mem_filter]
    constructor
    · rintro ⟨listed, apart⟩
      refine ⟨listed, ?_⟩
      rintro rfl
      simp at apart
    · rintro ⟨listed, apart⟩
      refine ⟨listed, ?_⟩
      simp only [ne_eq, decide_not, Bool.not_eq_true', decide_eq_false_iff_not]
      exact fun same => apart (unique running listed same)
  · obtain ⟨front, back, split⟩ := append_of_mem member
    have distinct := sound.distinct
    rw [split, map_append, map_cons, nodup_append, nodup_cons] at distinct
    have keeps : ∀ part : List Running, (∀ running ∈ part, running.entry.id ≠ done.entry.id) →
        part.filter (fun running => running.entry.id ≠ done.entry.id) = part := by
      intro part apart
      apply filter_eq_self.2
      intro running listed
      simpa using apart running listed
    have early : ∀ running ∈ front, running.entry.id ≠ done.entry.id := by
      intro running listed
      exact distinct.2.2 _ (mem_map_of_mem listed) _ mem_cons_self
    have late : ∀ running ∈ back, running.entry.id ≠ done.entry.id := by
      intro running listed same
      exact distinct.2.1.1 (same ▸ mem_map_of_mem listed)
    rw [split, filter_append, filter_cons_of_neg (by simp), keeps front early, keeps back late]
    simp only [length_append, length_cons]
    omega

theorem sound_release (sound : Sound queue) {done : Running} (member : done ∈ queue.running) :
    Sound { queue with
      runningCount := queue.runningCount - 1
      running := queue.running.filter fun running => running.entry.id ≠ done.entry.id
      barrierRunning := if done.entry.lane = none then false else queue.barrierRunning
      runningLanes :=
        match done.entry.lane with
        | none => queue.runningLanes
        | some lane => queue.runningLanes.filter fun running => running ≠ lane } := by
  obtain ⟨others, fewer⟩ := others_of_mem sound member
  constructor
  case sorted => exact sound.sorted
  case fresh => exact sound.fresh
  case known => exact fun running listed => sound.known running ((others running).1 listed).1
  case distinct => exact (filter_sublist.map _).nodup sound.distinct
  case apart =>
    exact fun entry waiting running listed =>
      sound.apart entry waiting running ((others running).1 listed).1
  case count =>
    change queue.runningCount - 1 = (queue.running.filter _).length
    rw [sound.count]
    omega
  case barrier =>
    dsimp only
    split
    case isTrue barrier =>
      constructor
      · exact fun idle => by contradiction
      · rintro ⟨running, listed, _⟩
        obtain ⟨inside, apart⟩ := (others running).1 listed
        exact absurd (sound.alone done member barrier running inside) apart
    case isFalse laned =>
      rw [sound.barrier]
      constructor
      · rintro ⟨running, listed, barrier⟩
        refine ⟨running, (others running).2 ⟨listed, ?_⟩, barrier⟩
        rintro rfl
        exact laned barrier
      · rintro ⟨running, listed, barrier⟩
        exact ⟨running, ((others running).1 listed).1, barrier⟩
  case lanes =>
    intro lane
    dsimp only
    have rest : (∃ running ∈ queue.running.filter fun running =>
          running.entry.id ≠ done.entry.id, running.entry.lane = some lane) ↔
        ∃ running ∈ queue.running, running ≠ done ∧ running.entry.lane = some lane := by
      constructor
      · rintro ⟨running, listed, laned⟩
        obtain ⟨inside, apart⟩ := (others running).1 listed
        exact ⟨running, inside, apart, laned⟩
      · rintro ⟨running, inside, apart, laned⟩
        exact ⟨running, (others running).2 ⟨inside, apart⟩, laned⟩
    rw [rest]
    split
    case h_1 barrier =>
      rw [sound.lanes lane]
      apply and_congr_right
      intro _
      constructor
      · rintro ⟨running, inside, laned⟩
        refine ⟨running, inside, ?_, laned⟩
        rintro rfl
        rw [laned] at barrier
        contradiction
      · rintro ⟨running, inside, _, laned⟩
        exact ⟨running, inside, laned⟩
    case h_2 own known =>
      simp only [mem_filter, ne_eq, decide_not, Bool.not_eq_true', decide_eq_false_iff_not,
        sound.lanes lane]
      constructor
      · rintro ⟨⟨inventory, running, inside, laned⟩, apart⟩
        refine ⟨inventory, running, inside, ?_, laned⟩
        rintro rfl
        rw [laned] at known
        exact apart (Option.some.inj known)
      · rintro ⟨inventory, running, inside, apart, laned⟩
        refine ⟨⟨inventory, running, inside, laned⟩, ?_⟩
        rintro rfl
        exact apart (sound.single running inside done member lane inventory laned known)
  case alone =>
    intro running listed barrier other listed'
    exact sound.alone running ((others running).1 listed).1 barrier other
      ((others other).1 listed').1
  case single =>
    intro one listed two listed' lane inventory first second
    exact sound.single one ((others one).1 listed).1 two ((others two).1 listed').1 lane inventory
      first second
  case before =>
    exact fun running listed entry waiting =>
      sound.before running ((others running).1 listed).1 entry waiting

theorem release_spec (sound : Sound queue) (told : Told queue past) (quiet : Quiescent queue)
    (id : Nat) :
    let done := release clock queue id
    Sound done.1 ∧ Told done.1 (past ++ done.2) ∧ Quiescent done.1 := by
  unfold release
  split
  case h_1 =>
    dsimp only
    rw [append_nil]
    exact ⟨sound, told, quiet⟩
  case h_2 done found =>
    have member := mem_of_find?_eq_some found
    have shape : done.entry.id = id ∧ done.handling = false := by simpa using find?_some found
    obtain ⟨rfl, settled⟩ := shape
    have after := sound_release sound member
    have unsettled : ∀ other, Unsettled { queue with
          runningCount := queue.runningCount - 1
          running := queue.running.filter fun running => running.entry.id ≠ done.entry.id } other ↔
        Unsettled queue other := by
      intro other
      apply or_congr_right
      constructor
      · rintro ⟨running, listed, handling, same⟩
        exact ⟨running, (mem_filter.1 listed).1, handling, same⟩
      · rintro ⟨running, inside, handling, same⟩
        refine ⟨running, ((others_of_mem sound member).1 running).2 ⟨inside, ?_⟩, handling, same⟩
        rintro rfl
        rw [settled] at handling
        contradiction
    dsimp only
    split
    case h_1 barrier =>
      rw [barrier] at after
      exact pump_spec after (told_silent told rfl (fun _ waiting => waiting) unsettled)
    case h_2 lane laned =>
      rw [laned] at after
      exact pump_spec after (told_silent told rfl (fun _ waiting => waiting) unsettled)

/-- What one event keeps. -/
theorem serve_spec (sound : Sound queue) (told : Told queue past) (quiet : Quiescent queue)
    (event : Event) :
    let done := serve queue event
    Sound done.1 ∧ Told done.1 (past ++ done.2) ∧ Quiescent done.1 := by
  have idle : Sound queue ∧ Told queue (past ++ []) ∧ Quiescent queue := by
    rw [append_nil]
    exact ⟨sound, told, quiet⟩
  cases event with
  | run clock nowMs lane wait =>
    obtain ⟨pushedSound, pushedTold⟩ := @push_spec queue past sound told
      { id := queue.requests, lane, deadlineMs := wait.map QueueWait.deadlineMs
        sameLaneWait := lane.any fun lane =>
          lane ∈ queue.runningLanes || queue.pending.any fun entry => entry.lane = some lane } rfl
    have last := fun reason => @remove_spec clock _ _ pushedSound pushedTold queue.requests reason
      (.inr ⟨_, mem_append_right _ mem_cons_self, rfl⟩)
    unfold serve run
    cases wait with
    | none => exact pump_spec pushedSound pushedTold
    | some wait =>
      dsimp only
      split
      case isTrue => exact last _
      case isFalse =>
        split
        case isTrue => exact last _
        case isFalse => exact pump_spec pushedSound pushedTold
  | abort clock id =>
    unfold serve
    dsimp only
    split
    · exact remove_spec sound told (.inl quiet)
    · exact idle
  | deadline clock id =>
    unfold serve
    dsimp only
    split
    · exact remove_spec sound told (.inl quiet)
    · exact idle
  | settle id ok => exact settle_spec sound told quiet id ok
  | release clock id => exact release_spec sound told quiet id

end Steps

section Histories

theorem sound_start : Sound {} where
  sorted := List.Pairwise.nil
  fresh _ member := by cases member
  known _ member := by cases member
  distinct := nodup_nil
  apart _ member := by cases member
  count := rfl
  barrier := by
    constructor
    · exact fun busy => by contradiction
    · exact fun ⟨_, member, _⟩ => by cases member
  lanes _ := by
    constructor
    · exact fun member => by cases member
    · exact fun ⟨_, _, member, _⟩ => by cases member
  alone _ member := by cases member
  single _ member := by cases member
  before _ member := by cases member

theorem told_start : Told {} [] where
  started _ _ member := by cases member
  next _ _ member := by cases member
  starts := List.Pairwise.nil
  settled _ := by
    constructor
    · exact fun member => by cases member
    · exact fun ⟨bound, _⟩ => absurd bound (Nat.not_lt_zero _)
  once := nodup_nil
  handled _ member := by cases member
  handledOnce := nodup_nil
  never := List.Pairwise.nil

theorem queue_invariant (events : List Event) : let done := Runs.run serve {} events
    Sound done.1 ∧ Told done.1 done.2 ∧ Quiescent done.1 := by
  induction events using List.reverseRecOn with
  | nil => exact ⟨sound_start, told_start, fun _ member => by cases member⟩
  | append_singleton events event ih =>
    obtain ⟨sound, told, quiet⟩ := ih
    have next := serve_spec sound told quiet event
    rw [Runs.run_append]
    simpa [Runs.run] using next

/-- The calls among the events; a request is known by its place among them. -/
def calls (events : List Event) : Nat :=
  events.countP fun event => match event with
    | .run _ _ _ _ => true
    | _ => false

theorem pumpFrom_requests (clock : Clock) (skipped : List PendingRequest)
    (blockedLanes : List String) (rest : List PendingRequest) (queue : Queue) :
    (pumpFrom clock skipped blockedLanes rest queue).1.requests = queue.requests := by
  fun_induction pumpFrom clock skipped blockedLanes rest queue with
  | case5 skipped _ entry rest queue _ _ _ first later ih =>
    simp only [later, ih]
    simp [first, start_fields]
  | case1 | case2 | case3 | case4 => simp_all [start_fields]

theorem serve_requests (queue : Queue) (event : Event) :
    (serve queue event).1.requests = queue.requests + calls [event] := by
  have pumped : ∀ clock queue, (pump clock queue).1.requests = queue.requests := by
    intro clock queue
    unfold pump
    split
    · rfl
    · exact pumpFrom_requests _ _ _ _ _
  cases event <;> simp only [serve, run, remove, settle, release, calls] <;> repeat' split
  all_goals simp [pumped]

theorem requests_run (events : List Event) :
    (Runs.run serve {} events).1.requests = calls events := by
  induction events using List.reverseRecOn with
  | nil => rfl
  | append_singleton events event ih =>
    rw [Runs.run_append, calls, countP_append, ← calls, ← ih]
    exact serve_requests _ _

variable {queue : Queue}

/-- A request that waits is to be started and released, a started one to be released. -/
def Queue.load (queue : Queue) : Nat := 2 * queue.pending.length + queue.running.length

theorem pumpFrom_load (clock : Clock) (skipped : List PendingRequest) (blockedLanes : List String)
    (rest : List PendingRequest) (queue : Queue) :
    (pumpFrom clock skipped blockedLanes rest queue).1.load ≤
      2 * (skipped.length + rest.length) + queue.running.length := by
  unfold Queue.load
  fun_induction pumpFrom clock skipped blockedLanes rest queue with
  | case5 skipped _ entry rest queue _ _ _ first later ih =>
    have started : first.1.running.length = queue.running.length + 1 := by
      simp [first, start_fields]
    simp only [later, length_cons]
    omega
  | case1 | case2 | case3 | case4 => simp_all [start_fields] <;> omega

theorem pump_load (clock : Clock) (queue : Queue) : (pump clock queue).1.load ≤ queue.load := by
  unfold pump
  split
  · exact Nat.le_refl _
  · have scanned := pumpFrom_load clock [] [] queue.pending queue
    rwa [length_nil, Nat.zero_add] at scanned

/-- A started request that is done and released leaves less to do. -/
theorem finish_load (clock : Clock) {running : Running} (member : running ∈ queue.running) :
    let settled := serve queue (.settle running.entry.id true)
    (serve settled.1 (.release clock running.entry.id)).1.load < queue.load := by
  have settled : ∃ list, (settle queue running.entry.id true).1 = { queue with running := list } ∧
      list.length = queue.running.length ∧
      ∃ done ∈ list, done.entry.id = running.entry.id ∧ done.handling = false := by
    unfold settle
    split
    next =>
      refine ⟨_, rfl, length_map _, _, mem_map_of_mem member, ?_⟩
      simp
    next quiet =>
      refine ⟨_, rfl, rfl, running, member, rfl, ?_⟩
      by_contra handling
      exact quiet (any_eq_true.2 ⟨running, member, by simpa using handling⟩)
  obtain ⟨list, same, size, done, listed, here, still⟩ := settled
  dsimp only [serve]
  rw [same, release]
  have fewer : (list.filter fun other => other.entry.id ≠ running.entry.id).length < list.length :=
    length_filter_lt_length_iff_exists.2 ⟨done, listed, by simpa using here⟩
  split
  next missing => simpa [here, still] using find?_eq_none.1 missing done listed
  next =>
    dsimp only
    split <;> refine Nat.lt_of_le_of_lt (pump_load _ _) ?_ <;> unfold Queue.load <;> dsimp only <;>
      omega

/-- The first request that waits, waits for one that runs. -/
theorem Quiescent.running {entry : PendingRequest} {rest : List PendingRequest}
    (quiet : Quiescent queue) (sound : Sound queue) (first : queue.pending = entry :: rest) :
    queue.running ≠ [] := by
  have least := (pairwise_cons.1 (first ▸ sound.sorted)).1
  have blocked := quiet entry (first ▸ mem_cons_self)
  unfold Blocked at blocked
  rw [first] at blocked
  grind

/-- No request is stuck: after any events, finishing what runs, one request after another, empties
the queue, and then every request has been settled. -/
theorem admission_queue_drains (events : List Event) (clock : Clock) :
    ∃ finish : List Event,
      (∀ event ∈ finish, ∃ id, event = .settle id true ∨ event = .release clock id) ∧
      let done := Runs.run serve {} (events ++ finish)
      done.1.running = [] ∧ done.1.pending = [] ∧
        ∀ id < calls events, id ∈ done.2.filterMap Output.settles := by
  generalize size : (Runs.run serve {} events).1.load = load
  induction load using Nat.strongRecOn generalizing events with
  | _ load ih =>
    obtain ⟨sound, told, quiet⟩ := queue_invariant events
    cases runs : (Runs.run serve {} events).1.running with
    | nil =>
      refine ⟨[], by simp, ?_⟩
      cases waiting : (Runs.run serve {} events).1.pending with
      | nil => simp [told.settled, Unsettled, waiting, runs, requests_run]
      | cons entry rest => exact absurd runs (quiet.running sound waiting)
    | cons running others =>
      have less := finish_load clock (runs ▸ mem_cons_self : running ∈ _)
      obtain ⟨finish, only, done⟩ := ih _ (size ▸ less)
        (events ++ [.settle running.entry.id true, .release clock running.entry.id])
        (by simp [Runs.run_append, Runs.run])
      refine ⟨_ :: _ :: finish, ?_, by simpa [calls] using done⟩
      rintro event (_ | ⟨_, _ | ⟨_, member⟩⟩)
      · exact ⟨_, .inl rfl⟩
      · exact ⟨_, .inr rfl⟩
      · exact only event member

end Histories

end AutoMobile.SocketAdmission
