import AutoMobile.SpecRevisionLoops

/- What one show or patch does to the kept revisions, and the numbers over a run. -/
namespace AutoMobile.SpecRevisions

open List hiding keys
open InsertionMap

variable {Spec : Type}

/-- A count limit of one or more leaves at least the newest revision. -/
theorem trim_spec {limit : Limit} (fits : exceeds 1 limit = false) (kept : List (Revision Spec))
    (nonempty : kept ≠ []) :
    (trim limit kept).2.2 = false ∧ (trim limit kept).1 <:+ kept ∧ (trim limit kept).1 ≠ [] ∧
      (trim limit kept).2.1 + bytesOf (trim limit kept).1 = bytesOf kept := by
  induction kept with
  | nil => exact absurd rfl nonempty
  | cons oldest rest ih =>
    rw [trim]
    cases above : exceeds (rest.length + 1) limit with
    | false => exact ⟨rfl, suffix_refl _, cons_ne_nil _ _, by simp⟩
    | true =>
      have more : rest ≠ [] := by
        rintro rfl
        rw [show ((([] : List (Revision Spec)).length : Int) + 1) = 1 by rfl, fits] at above
        cases above
      obtain ⟨ends, suffix, left, bytes⟩ := ih more
      rw [if_pos rfl]
      refine ⟨ends, suffix.trans (suffix_cons _ _), left, ?_⟩
      simp only [bytesOf]
      omega

/-- The store when the history of an id has been found or made. -/
structure Opening (store opened : Store Spec) (id : String) (history : History Spec) : Prop where
  known : get? opened.histories id = some history
  others : ∀ other, other ≠ id → get? opened.histories other = get? store.histories other ∧
    get? opened.retired other = get? store.retired other
  unretired : get? opened.retired id = none
  kept : history.kept = keptOf store id
  next : history.next = nextNumber store id
  numbered : ∃ first, 1 ≤ first ∧ history.next = first + history.kept.length ∧
    history.kept.map Revision.revision = List.range' first history.kept.length
  sequence : opened.sequence = store.sequence
  distinct : (keys opened.histories).Nodup
  total : opened.totalBytes = keptBytes opened.histories

theorem historyFor_opening {store : Store Spec} (consistent : Consistent store) (id : String) :
    Opening store (historyFor store id).1 id (historyFor store id).2 := by
  unfold historyFor
  cases found : get? store.histories id with
  | some existing =>
    exact {
      known := found
      others := fun _ _ => ⟨rfl, rfl⟩
      unretired := consistent.living id existing found
      kept := (keptOf_of_get? found).symm
      next := by rw [nextNumber, found]; rfl
      numbered := (consistent.well id existing found).numbered
      sequence := rfl
      distinct := consistent.distinct
      total := consistent.total }
  | none =>
    have fresh : id ∉ keys store.histories := (get?_eq_none_iff _ _).mp found
    refine {
      known := get?_put_self _ _ _
      others := fun other apart => ⟨get?_put_of_ne _ (Ne.symm apart) _, ?_⟩
      unretired := ?_
      kept := (keptOf_of_none found).symm
      next := by rw [nextNumber, found]; rfl
      numbered := ?_
      sequence := rfl
      distinct := nodup_keys_put consistent.distinct id _
      total := ?_ }
    · show get? (erase store.retired id) other = get? store.retired other
      rw [get?_erase, if_neg (Ne.symm apart)]
    · show get? (erase store.retired id) id = none
      rw [get?_erase, if_pos rfl]
    · refine ⟨(get? store.retired id).getD 1, ?_, rfl, rfl⟩
      cases number : get? store.retired id with
      | none => exact Nat.le_refl 1
      | some next => exact consistent.positive id next number
    · show store.totalBytes = ((keptBytes (put store.histories id _) : Nat) : Int)
      rw [put_of_fresh fresh, keptBytes, weighed_append, consistent.total]
      simp [weighed, bytesOf, keptBytes]

/-- A show that only sets the variant opens the same history. -/
theorem Opening.variant {store opened : Store Spec} {id : String} {history : History Spec}
    (opening : Opening store opened id history) (variant : Option Variant) :
    Opening store { opened with
      histories := put opened.histories id { history with variant := variant } } id
        { history with variant := variant } where
  known := get?_put_self _ _ _
  others other apart := ⟨(get?_put_of_ne _ (Ne.symm apart) _).trans (opening.others other apart).1,
    (opening.others other apart).2⟩
  unretired := opening.unretired
  kept := opening.kept
  next := opening.next
  numbered := opening.numbered
  sequence := opening.sequence
  distinct := nodup_keys_put opening.distinct id _
  total := by
    have sum := weighed_put bytesOf opening.distinct opening.known
      { history with variant := variant }
    have before := opening.total
    show opened.totalBytes = ((keptBytes (put opened.histories id _) : Nat) : Int)
    unfold keptBytes at before ⊢
    dsimp only at sum
    omega

/-- The history of an id with its new revision, within the count limit. -/
structure Counted (store counted : Store Spec) (id : String) (newest : Revision Spec) : Prop where
  consistent : Consistent counted
  own : ∃ history, get? counted.histories id = some history ∧
    history.next = nextNumber store id + 1 ∧ history.kept.getLast? = some newest ∧
      history.kept <:+ keptOf store id ++ [newest]
  others : ∀ other, other ≠ id → get? counted.histories other = get? store.histories other ∧
    get? counted.retired other = get? store.retired other
  numbered : newest.revision = nextNumber store id
  sequence : counted.sequence = store.sequence + 1
  newer : newest.sequence = store.sequence + 1

/-- The store that `append` hands to the byte cap. -/
def countedStore (size : Spec → Nat) (limits : Limits) (store : Store Spec) (id : String)
    (history : History Spec) (entry : Entry Spec) : Store Spec :=
  let pushed := pushRevision size store id history entry
  let trimmed := trim limits.revisions pushed.2.kept
  { pushed.1 with
    histories := put pushed.1.histories id { pushed.2 with kept := trimmed.1 }
    totalBytes := pushed.1.totalBytes - trimmed.2.1 }

theorem counted_of_opening (size : Spec → Nat) {limits : Limits}
    (fits : exceeds 1 limits.revisions = false) {store opened : Store Spec}
    (consistent : Consistent store) {id : String} {history : History Spec}
    (opening : Opening store opened id history) (entry : Entry Spec) :
    Counted store (countedStore size limits opened id history entry) id
        (newRevision size opened history entry) ∧
      (trim limits.revisions (history.kept ++ [newRevision size opened history entry])).2.2 =
        false := by
  obtain ⟨ends, suffix, nonempty, bytes⟩ := trim_spec fits
    (history.kept ++ [newRevision size opened history entry]) (by simp)
  refine ⟨?_, ends⟩
  have pushedWell : WellKept { history with
      next := history.next + 1
      lastSequence := opened.sequence + 1
      kept := history.kept ++ [newRevision size opened history entry] } := by
    obtain ⟨first, positive, next, numbers⟩ := opening.numbered
    constructor
    · refine ⟨first, positive, ?_, ?_⟩
      · show history.next + 1 = first + (history.kept ++ [_]).length
        rw [length_append, length_singleton, next]
        omega
      · show (history.kept ++ [newRevision size opened history entry]).map Revision.revision =
          List.range' first (history.kept ++ [_]).length
        rw [map_append, length_append, length_singleton, range'_concat, numbers,
          Nat.one_mul, ← next]
        rfl
    · show (history.kept ++ [_]).getLast?.map Revision.sequence = _
      rw [getLast?_append_of_ne_nil _ (cons_ne_nil _ _)]
      rfl
  have well := pushedWell.suffix suffix nonempty
  have split : ∀ other found, get? (countedStore size limits opened id history entry).histories
      other = some found → (other = id ∧ found.lastSequence = opened.sequence + 1 ∧
        WellKept found) ∨ (other ≠ id ∧ get? store.histories other = some found) := by
    intro other found here
    have here : get? (put (put opened.histories id _) id _) other = some found := here
    rw [put_put] at here
    rcases of_get?_put here with ⟨same, rfl⟩ | ⟨apart, here⟩
    · exact Or.inl ⟨same.symm, rfl, well⟩
    · exact Or.inr ⟨Ne.symm apart, (opening.others other (Ne.symm apart)).1.symm.trans here⟩
  refine ⟨⟨?_, ?_, ?_, ?_, ?_, ?_, ?_⟩, ?_, ?_, opening.next, ?_, ?_⟩
  · exact nodup_keys_put (nodup_keys_put opening.distinct id _) id _
  · intro other found here
    rcases split other found here with ⟨rfl, -, -⟩ | ⟨apart, before⟩
    · exact opening.unretired
    · exact (opening.others other apart).2.trans (consistent.living other found before)
  · have sum := weighed_put bytesOf opening.distinct opening.known { history with
      next := history.next + 1
      lastSequence := opened.sequence + 1
      kept := (trim limits.revisions (history.kept ++ [newRevision size opened history entry])).1 }
    have before := opening.total
    rw [bytesOf_append] at bytes
    have new : bytesOf [newRevision size opened history entry] = size entry.spec := Nat.add_zero _
    show opened.totalBytes + size entry.spec - _ =
      ((keptBytes (put (put opened.histories id _) id _) : Nat) : Int)
    rw [put_put]
    unfold keptBytes at before ⊢
    dsimp only [pushRevision] at sum ⊢
    omega
  · intro other found here
    rcases split other found here with ⟨-, -, ordered⟩ | ⟨-, before⟩
    · exact ordered
    · exact consistent.well other found before
  · intro other found here
    show found.lastSequence ≤ opened.sequence + 1
    rcases split other found here with ⟨-, last, -⟩ | ⟨-, before⟩
    · omega
    · have recent := consistent.recent other found before
      rw [opening.sequence]
      omega
  · intro one other first second here there same
    have bound : ∀ name found, get? store.histories name = some found →
        found.lastSequence ≤ opened.sequence := fun name found before => by
      rw [opening.sequence]
      exact consistent.recent name found before
    rcases split one first here with ⟨rfl, last, -⟩ | ⟨apart, before⟩
    · rcases split other second there with ⟨rfl, -, -⟩ | ⟨-, before⟩
      · rfl
      · have old := bound other second before
        omega
    · rcases split other second there with ⟨rfl, last, -⟩ | ⟨-, before'⟩
      · have old := bound one first before
        omega
      · exact consistent.apart one other first second before before' same
  · intro other next number
    by_cases same : other = id
    · subst same
      have none : get? opened.retired other = some next := number
      rw [opening.unretired] at none
      cases none
    · exact consistent.positive other next ((opening.others other same).2.symm.trans number)
  · refine ⟨_, get?_put_self _ _ _, ?_, ?_, ?_⟩
    · exact congrArg (· + 1) opening.next
    · obtain ⟨dropped, whole⟩ := suffix
      have last := congrArg List.getLast? whole
      rw [getLast?_append_of_ne_nil _ nonempty,
        getLast?_append_of_ne_nil _ (cons_ne_nil _ _)] at last
      exact last
    · show _ <:+ keptOf store id ++ [newRevision size opened history entry]
      rw [← opening.kept]
      exact suffix
  · intro other apart
    refine ⟨?_, (opening.others other apart).2⟩
    show get? (put (put opened.histories id _) id _) other = _
    rw [put_put, get?_put_of_ne _ (Ne.symm apart)]
    exact (opening.others other apart).1
  · exact congrArg (· + 1) opening.sequence
  · exact congrArg (· + 1) opening.sequence

def Event.id : Event → String
  | .revision id _ | .pruned id | .evicted id => id

/-- The ids that some events call evicted, in order. -/
def evictedIds (events : List Event) : List String :=
  events.filterMap fun event =>
    match event with
    | .evicted id => some id
    | _ => none

/-- When the last revision of an id was recorded. -/
def lastSequenceOf (store : Store Spec) (id : String) : Nat :=
  ((keptOf store id).getLast?.map Revision.sequence).getD 0

/-- What a call that records a revision of `id` does to the store. -/
structure Recorded (limits : Limits) (before after : Store Spec) (id : String)
    (events : List Event) : Prop where
  /-- the total is the sum of the sizes of all kept revisions -/
  total : after.totalBytes = keptBytes after.histories
  /-- within the byte limit, or nothing is left but the latest revision of the id -/
  within : exceeds after.totalBytes limits.bytes = false ∨
    ∃ history latest, after.histories = [(id, history)] ∧ history.kept = [latest]
  /-- the numbers of an id run on to its latest one, which is the last one given -/
  runs : ∀ other history, get? after.histories other = some history → history.kept ≠ [] ∧
    ∃ first, 1 ≤ first ∧ history.next = first + history.kept.length ∧
      history.kept.map Revision.revision = List.range' first history.kept.length
  /-- the current id has the new revision as its latest -/
  current : ∃ latest, (keptOf after id).getLast? = some latest ∧
    latest.revision = nextNumber before id
  /-- an id loses its latest revision only when no id keeps another one -/
  lost : ∀ other, other ≠ id → keptOf before other ≠ [] →
    (keptOf after other).getLast? ≠ (keptOf before other).getLast? →
    ∀ any, (keptOf after any).length ≤ 1
  /-- the evicted ids go in the order of their last revisions, and before all others -/
  inOrder : (evictedIds events).Pairwise fun one other =>
    lastSequenceOf before one < lastSequenceOf before other
  first : ∀ one ∈ evictedIds events, ∀ other, other ≠ id → keptOf after other ≠ [] →
    lastSequenceOf before one < lastSequenceOf before other
  /-- each event names another id, and the new revision of this one comes first -/
  once : (events.map Event.id).Nodup
  revised : ∀ other number, .revision other number ∈ events ↔
    other = id ∧ number = nextNumber before id
  pruned : ∀ other, .pruned other ∈ events ↔
    other ≠ id ∧ keptOf after other ≠ keptOf before other ∧ keptOf after other ≠ []
  evicted : ∀ other, .evicted other ∈ events ↔
    other ≠ id ∧ keptOf before other ≠ [] ∧ keptOf after other = []

/-- The events of a call, when the loops of the byte cap have run. -/
def eventsOf (id : String) (number : Nat) (pruned evicted : List String) : List Event :=
  .revision id number ::
    ((pruned.filter fun other => other ≠ id && !evicted.contains other).map .pruned ++
      evicted.map .evicted)

theorem evictedIds_eventsOf (id : String) (number : Nat) (pruned evicted : List String) :
    evictedIds (eventsOf id number pruned evicted) = evicted := by
  have quiet : ∀ others : List String, evictedIds (others.map .pruned) = [] := by
    intro others
    induction others with
    | nil => rfl
    | cons other rest ih => exact ih
  have all : ∀ others : List String, evictedIds (others.map .evicted) = others := by
    intro others
    induction others with
    | nil => rfl
    | cons other rest ih => exact congrArg (other :: ·) ih
  have split : evictedIds (eventsOf id number pruned evicted) =
      evictedIds ((pruned.filter fun other => other ≠ id && !evicted.contains other).map .pruned) ++
        evictedIds (evicted.map .evicted) := filterMap_append
  rw [split, quiet, all]
  rfl

theorem mem_eventsOf (id : String) (number : Nat) (pruned evicted : List String) (event : Event) :
    event ∈ eventsOf id number pruned evicted ↔ event = .revision id number ∨
      (∃ other ∈ pruned, (other ≠ id ∧ other ∉ evicted) ∧ event = .pruned other) ∨
        ∃ other ∈ evicted, event = .evicted other := by
  unfold eventsOf
  rw [mem_cons, mem_append, mem_map, mem_map]
  refine or_congr_right (or_congr ?_ ?_)
  · constructor
    · rintro ⟨other, member, rfl⟩
      obtain ⟨held, apart⟩ := mem_filter.mp member
      exact ⟨other, held, by simpa using apart, rfl⟩
    · rintro ⟨other, held, apart, rfl⟩
      exact ⟨other, mem_filter.mpr ⟨held, by simpa using apart⟩, rfl⟩
  · constructor
    · rintro ⟨other, member, rfl⟩
      exact ⟨other, member, rfl⟩
    · rintro ⟨other, member, rfl⟩
      exact ⟨other, member, rfl⟩

theorem nodup_eventsOf {id : String} {pruned evicted : List String} (number : Nat)
    (onceOne : pruned.Nodup) (onceTwo : evicted.Nodup) (apart : id ∉ evicted) :
    ((eventsOf id number pruned evicted).map Event.id).Nodup := by
  have ids : (eventsOf id number pruned evicted).map Event.id =
      id :: ((pruned.filter fun other => other ≠ id && !evicted.contains other) ++ evicted) := by
    simp [eventsOf, Function.comp_def, Event.id]
  rw [ids, nodup_cons]
  refine ⟨fun member => ?_, nodup_append.mpr ⟨onceOne.filter _, onceTwo, ?_⟩⟩
  · rcases mem_append.mp member with kept | gone
    · simpa using (mem_filter.mp kept).2
    · exact apart gone
  · intro one kept other gone same
    have outside := (mem_filter.mp kept).2
    rw [same] at outside
    simp [gone] at outside

section Capped

variable {limits : Limits} {store counted pruned left : Store Spec} {id : String}
  {newest : Revision Spec} {dropped gone : List String}

theorem getLast?_of_suffix {α : Type} {part whole : List α} (suffix : part <:+ whole)
    (nonempty : part ≠ []) : part.getLast? = whole.getLast? := by
  obtain ⟨front, rfl⟩ := suffix
  rw [getLast?_append_of_ne_nil _ nonempty]

/-- A pruned history keeps all but its older revisions. -/
theorem Pruning.back (pruning : Pruning counted pruned dropped) {other : String}
    {history : History Spec} (known : get? pruned.histories other = some history) :
    ∃ before, get? counted.histories other = some before ∧
      history.lastSequence = before.lastSequence ∧ history.next = before.next ∧
      history.kept <:+ before.kept ∧ history.kept ≠ [] := by
  have present : other ∈ InsertionMap.keys counted.histories := by
    rw [← pruning.keys]
    exact (mem_keys_iff _ _).mpr ⟨history, known⟩
  obtain ⟨before, earlier⟩ := (mem_keys_iff _ _).mp present
  obtain ⟨kept, now, suffix, nonempty⟩ := pruning.fewer other before earlier
  obtain rfl := Option.some.inj (now.symm.trans known)
  exact ⟨before, earlier, rfl, rfl, suffix, nonempty⟩

theorem keptOf_eq_nil_iff {store : Store Spec} (consistent : Consistent store) (id : String) :
    keptOf store id = [] ↔ get? store.histories id = none := by
  cases found : get? store.histories id with
  | none => simp [keptOf_of_none found]
  | some history =>
    rw [keptOf_of_get? found]
    exact ⟨fun empty => absurd empty (consistent.well id history found).ne_nil,
      fun none => by cases none⟩

theorem lastSequenceOf_eq {store : Store Spec} (consistent : Consistent store) {id : String}
    {history : History Spec} (known : get? store.histories id = some history) :
    lastSequenceOf store id = history.lastSequence := by
  rw [lastSequenceOf, keptOf_of_get? known, (consistent.well id history known).last]
  rfl

/-- The two loops after a new revision is counted in make a recorded call. -/
theorem recorded_of_loops (counting : Counted store counted id newest)
    (pruning : Pruning counted pruned dropped) (evicting : Evicting id pruned left gone)
    (pruneStops : exceeds pruned.totalBytes limits.bytes = false ∨
      ∀ other history, get? pruned.histories other = some history → history.kept.length ≤ 1)
    (cause : gone ≠ [] → exceeds pruned.totalBytes limits.bytes = true)
    (evictStops : exceeds left.totalBytes limits.bytes = false ∨
      ∀ other history, get? left.histories other = some history → other = id) :
    Recorded limits store left id (eventsOf id (nextNumber store id) dropped gone) := by
  have keptBefore : ∀ other, other ≠ id → keptOf counted other = keptOf store other :=
    fun other apart => by rw [keptOf, keptOf, (counting.others other apart).1]
  have outside : id ∉ gone := fun member => (evicting.gone id member).1 rfl
  have remaining : ∀ other history, get? left.histories other = some history →
      other ∉ gone ∧ get? pruned.histories other = some history := by
    intro other history known
    rw [evicting.left] at known
    split at known
    · cases known
    · rename_i stays
      exact ⟨stays, known⟩
  have keptAfter : ∀ other, other ∉ gone → keptOf left other = keptOf pruned other :=
    fun other stays => by rw [keptOf, keptOf, evicting.left, if_neg stays]
  have keptGone : ∀ other, other ∈ gone → keptOf left other = [] := fun other away =>
    keptOf_of_none (by rw [evicting.left, if_pos away])
  have short : (∃ other, other ∈ gone) ∨ exceeds left.totalBytes limits.bytes = true →
      ∀ other history, get? pruned.histories other = some history → history.kept.length ≤ 1 := by
    intro either
    have above : exceeds pruned.totalBytes limits.bytes = true := by
      rcases either with ⟨other, member⟩ | above
      · exact cause (ne_nil_of_mem member)
      · exact exceeds_mono evicting.lower above
    refine pruneStops.resolve_left fun within => ?_
    rw [above] at within
    cases within
  have sequences : ∀ other history, other ≠ id → get? pruned.histories other = some history →
      lastSequenceOf store other = history.lastSequence := by
    intro other history apart known
    obtain ⟨before, earlier, same, -, -, -⟩ := pruning.back known
    rw [same, lastSequenceOf, ← keptBefore other apart]
    exact lastSequenceOf_eq counting.consistent earlier
  obtain ⟨own, ownKnown, ownNext, ownLast, -⟩ := counting.own
  obtain ⟨ownKept, ownPruned, ownSuffix, ownNonempty⟩ := pruning.fewer id own ownKnown
  have ownLeft : get? left.histories id = some { own with kept := ownKept } := by
    rw [evicting.left, if_neg outside]
    exact ownPruned
  refine {
    total := evicting.consistent.total
    within := ?_
    runs := fun other history known => ⟨(evicting.consistent.well other history known).ne_nil,
      (evicting.consistent.well other history known).numbered⟩
    current := ?_, lost := ?_, inOrder := ?_, first := ?_
    once := nodup_eventsOf _ pruning.once evicting.once outside
    revised := ?_, pruned := ?_, evicted := ?_ }
  · cases above : exceeds left.totalBytes limits.bytes with
    | false => exact Or.inl rfl
    | true =>
      have single := evictStops.resolve_left (by rw [above]; exact Bool.noConfusion)
      have one := short (Or.inr above) id _ ownPruned
      cases shape : ownKept with
      | nil => exact absurd shape ownNonempty
      | cons latest rest =>
        have empty : rest = [] := by
          have one : ownKept.length ≤ 1 := one
          rw [shape, length_cons] at one
          exact length_eq_zero_iff.mp (by omega)
        refine Or.inr ⟨{ own with kept := ownKept }, latest, ?_, by rw [empty] at shape; exact shape⟩
        refine eq_singleton evicting.consistent.distinct ownLeft fun other listed => ?_
        obtain ⟨history, known⟩ := (mem_keys_iff _ _).mp listed
        exact single other history known
  · refine ⟨newest, ?_, counting.numbered⟩
    rw [keptOf_of_get? ownLeft, ← ownLast]
    exact getLast?_of_suffix ownSuffix ownNonempty
  · intro other apart before changed any
    have away : other ∈ gone := by
      by_contra stays
      refine changed ?_
      have present : get? counted.histories other ≠ none := fun none =>
        before ((keptBefore other apart).symm.trans (keptOf_of_none none))
      obtain ⟨history, earlier⟩ := Option.ne_none_iff_exists'.mp present
      obtain ⟨kept, now, suffix, nonempty⟩ := pruning.fewer other history earlier
      rw [keptAfter other stays, keptOf_of_get? now, ← keptBefore other apart,
        keptOf_of_get? earlier]
      exact getLast?_of_suffix suffix nonempty
    cases found : get? left.histories any with
    | none => rw [keptOf_of_none found]; exact Nat.zero_le _
    | some history =>
      rw [keptOf_of_get? found]
      exact short (Or.inl ⟨other, away⟩) any history (remaining any history found).2
  · rw [evictedIds_eventsOf]
    refine evicting.inOrder.imp_of_mem fun {one other} here there before => ?_
    obtain ⟨apart, history, known⟩ := evicting.gone one here
    obtain ⟨apart', history', known'⟩ := evicting.gone other there
    rw [sequences one history apart known, sequences other history' apart' known']
    exact before history history' known known'
  · rw [evictedIds_eventsOf]
    intro one here other apart present
    obtain ⟨away, history, known⟩ := evicting.gone one here
    have some : get? left.histories other ≠ none := fun none => present (keptOf_of_none none)
    obtain ⟨history', found⟩ := Option.ne_none_iff_exists'.mp some
    obtain ⟨stays, known'⟩ := remaining other history' found
    rw [sequences one history away known, sequences other history' apart known']
    exact evicting.before one here other stays apart history history' known known'
  · intro other number
    rw [mem_eventsOf]
    simp
  · intro other
    rw [mem_eventsOf]
    constructor
    · rintro (same | ⟨name, member, ⟨apart, stays⟩, same⟩ | ⟨_, _, same⟩)
      · cases same
      · obtain rfl := Event.pruned.inj same
        have changed := (pruning.named other).mp member
        rw [keptBefore other apart, ← keptAfter other stays] at changed
        refine ⟨apart, changed, fun empty => ?_⟩
        have gone := (keptOf_eq_nil_iff evicting.consistent other).mp empty
        rw [evicting.left, if_neg stays] at gone
        have unknown : get? counted.histories other = none := by
          rw [get?_eq_none_iff, ← pruning.keys, ← get?_eq_none_iff]
          exact gone
        refine changed (empty.trans ?_)
        rw [← keptBefore other apart]
        exact (keptOf_of_none unknown).symm
      · cases same
    · rintro ⟨apart, changed, nonempty⟩
      have stays : other ∉ gone := fun away => nonempty (keptGone other away)
      refine Or.inr (Or.inl ⟨other, (pruning.named other).mpr ?_, ⟨apart, stays⟩, rfl⟩)
      rw [keptBefore other apart, ← keptAfter other stays]
      exact changed
  · intro other
    rw [mem_eventsOf]
    constructor
    · rintro (same | ⟨_, _, _, same⟩ | ⟨name, member, same⟩)
      · cases same
      · cases same
      · obtain rfl := Event.evicted.inj same
        obtain ⟨apart, history, known⟩ := evicting.gone other member
        obtain ⟨before, earlier, -⟩ := pruning.back known
        refine ⟨apart, ?_, keptGone other member⟩
        rw [← keptBefore other apart, keptOf_of_get? earlier]
        exact (counting.consistent.well other before earlier).ne_nil
    · rintro ⟨apart, before, empty⟩
      refine Or.inr (Or.inr ⟨other, ?_, rfl⟩)
      by_contra stays
      have unknown := (keptOf_eq_nil_iff evicting.consistent other).mp empty
      rw [evicting.left, if_neg stays] at unknown
      have none : get? counted.histories other = none := by
        rw [get?_eq_none_iff, ← pruning.keys, ← get?_eq_none_iff]
        exact unknown
      exact before ((keptBefore other apart).symm.trans (keptOf_of_none none))

end Capped

theorem nextNumber_of_get? {store : Store Spec} {id : String} {history : History Spec}
    (known : get? store.histories id = some history) : nextNumber store id = history.next := by
  rw [nextNumber, known]
  rfl

/-- The loops give no number and take none back. -/
theorem nextNumber_loops {counted pruned left : Store Spec} {id : String}
    {dropped gone : List String} (pruning : Pruning counted pruned dropped)
    (evicting : Evicting id pruned left gone) (other : String) :
    nextNumber left other = nextNumber counted other := by
  have first : nextNumber pruned other = nextNumber counted other := by
    cases found : get? pruned.histories other with
    | some history =>
      obtain ⟨before, earlier, -, next, -, -⟩ := pruning.back found
      rw [nextNumber_of_get? found, nextNumber_of_get? earlier, next]
    | none =>
      have unknown : get? counted.histories other = none := by
        rw [get?_eq_none_iff, ← pruning.keys, ← get?_eq_none_iff]
        exact found
      rw [nextNumber, nextNumber, found, unknown, pruning.retired]
  rw [← first]
  by_cases away : other ∈ gone
  · obtain ⟨-, history, known⟩ := evicting.gone other away
    rw [nextNumber, evicting.left, if_pos away, evicting.retired, if_pos away, known,
      nextNumber_of_get? known]
    rfl
  · rw [nextNumber, nextNumber, evicting.left, if_neg away, evicting.retired, if_neg away]

section Calls

variable (size : Spec → Nat) {limits : Limits} (fits : exceeds 1 limits.revisions = false)
include fits

/-- What `append` does to an opened history. -/
theorem append_recorded {store opened : Store Spec} (consistent : Consistent store) {id : String}
    {history : History Spec} (opening : Opening store opened id history) (entry : Entry Spec) :
    (append size limits opened id history entry).2.isSome = true ∧
      Recorded limits store (append size limits opened id history entry).1 id
        ((append size limits opened id history entry).2.getD []) ∧
      Consistent (append size limits opened id history entry).1 ∧
      ∀ other, nextNumber (append size limits opened id history entry).1 other =
        if other = id then nextNumber store id + 1 else nextNumber store other := by
  obtain ⟨counting, ends⟩ := counted_of_opening size fits consistent opening entry
  have pruning := pruneLoop_spec limits _ (Pruning.refl counting.consistent) (Nat.le_refl _)
  have evicting := evictLoop_spec limits _
    (Evicting.refl id pruning.1.consistent) (Nat.le_refl _) (fun same => absurd rfl same)
  have appended : append size limits opened id history entry =
      ((enforceByteCap limits (countedStore size limits opened id history entry) id).1,
        some (eventsOf id history.next
          (enforceByteCap limits (countedStore size limits opened id history entry) id).2.1
          (enforceByteCap limits (countedStore size limits opened id history entry) id).2.2)) := by
    unfold append
    have going : ¬ (trim limits.revisions (pushRevision size opened id history entry).2.kept).2.2 =
        true := by
      rw [show (trim limits.revisions (pushRevision size opened id history entry).2.kept).2.2 =
        false from ends]
      exact Bool.false_ne_true
    rw [if_neg going]
    rfl
  rw [appended, opening.next]
  refine ⟨rfl, recorded_of_loops counting pruning.1 evicting.1 pruning.2 evicting.2.1 evicting.2.2,
    evicting.1.consistent, fun other => ?_⟩
  have loops := nextNumber_loops pruning.1 evicting.1 other
  refine loops.trans ?_
  by_cases same : other = id
  · obtain ⟨own, known, next, -⟩ := counting.own
    rw [if_pos same, same, nextNumber_of_get? known, next]
  · rw [if_neg same, nextNumber, nextNumber, (counting.others other same).1,
      (counting.others other same).2]

theorem record_recorded {store : Store Spec} (consistent : Consistent store) (call : Call Spec) :
    (record size limits store call).2.isSome = true ∧
      Recorded limits store (record size limits store call).1 call.id
        ((record size limits store call).2.getD []) ∧
      Consistent (record size limits store call).1 ∧
      ∀ other, nextNumber (record size limits store call).1 other =
        if other = call.id then nextNumber store call.id + 1 else nextNumber store other := by
  have opening := historyFor_opening consistent call.id
  cases call with
  | recordShow id spec platform variant mcpSessionId time =>
    exact append_recorded size fits consistent (opening.variant variant) _
  | recordPatch id spec platform deviceRevision mcpSessionId time =>
    exact append_recorded size fits consistent opening _

theorem run_consistent {store : Store Spec} (consistent : Consistent store)
    (calls : List (Call Spec)) : Consistent (run size limits store calls).1 := by
  induction calls generalizing store with
  | nil => exact consistent
  | cons call calls ih => exact ih (record_recorded size fits consistent call).2.2.1

end Calls

theorem consistent_empty : Consistent ({} : Store Spec) where
  distinct := nodup_nil
  living _ _ known := by cases known
  total := rfl
  well _ _ known := by cases known
  recent _ _ known := by cases known
  apart _ _ _ _ known := by cases known
  positive _ _ known := by cases known

/-- The numbers that some events say were given, with their ids. -/
def given (events : List Event) : List (String × Nat) :=
  events.filterMap fun event =>
    match event with
    | .revision id number => some (id, number)
    | _ => none

theorem mem_given (events : List Event) (id : String) (number : Nat) :
    (id, number) ∈ given events ↔ .revision id number ∈ events := by
  unfold given
  rw [mem_filterMap]
  constructor
  · rintro ⟨event, member, same⟩
    cases event with
    | revision other given =>
      obtain ⟨rfl, rfl⟩ := Prod.mk.inj (Option.some.inj same)
      exact member
    | pruned | evicted => cases same
  · exact fun member => ⟨_, member, rfl⟩

theorem given_sublist_ids (events : List Event) :
    ((given events).map Prod.fst).Sublist (events.map Event.id) := by
  induction events with
  | nil => exact List.Sublist.refl _
  | cons event rest ih =>
    cases event with
    | revision id number => exact ih.cons_cons id
    | pruned id => exact ih.cons id
    | evicted id => exact ih.cons id

/-- A run gives the numbers from the next one on, each once. -/
theorem given_run (size : Spec → Nat) {limits : Limits} (fits : exceeds 1 limits.revisions = false)
    {store : Store Spec} (consistent : Consistent store) (calls : List (Call Spec)) :
    (given (run size limits store calls).2).Nodup ∧
      ∀ id number, (id, number) ∈ given (run size limits store calls).2 →
        nextNumber store id ≤ number := by
  induction calls generalizing store with
  | nil => exact ⟨nodup_nil, fun _ _ member => by cases member⟩
  | cons call calls ih =>
    obtain ⟨-, recorded, after, next⟩ := record_recorded size fits consistent call
    obtain ⟨once, above⟩ := ih after
    have own : ∀ id number, (id, number) ∈ given ((record size limits store call).2.getD []) →
        id = call.id ∧ number = nextNumber store call.id := fun id number member =>
      (recorded.revised id number).mp ((mem_given _ _ _).mp member)
    have later : ∀ id number, (id, number) ∈ given (run size limits
        (record size limits store call).1 calls).2 → nextNumber store id ≤ number ∧
          (id = call.id → nextNumber store id < number) := by
      intro id number member
      have bound := above id number member
      rw [next] at bound
      split at bound
      · rename_i same
        rw [same]
        exact ⟨by omega, fun _ => by omega⟩
      · rename_i apart
        exact ⟨bound, fun same => absurd same apart⟩
    have split : given (run size limits store (call :: calls)).2 =
        given ((record size limits store call).2.getD []) ++
          given (run size limits (record size limits store call).1 calls).2 :=
      filterMap_append
    rw [split]
    refine ⟨nodup_append.mpr ⟨?_, once, ?_⟩, fun id number member => ?_⟩
    · exact List.Nodup.of_map _ ((given_sublist_ids _).nodup recorded.once)
    · rintro ⟨id, number⟩ here other there rfl
      obtain ⟨same, exactly⟩ := own id number here
      have more := (later id number there).2 same
      rw [same] at more
      omega
    · rcases mem_append.mp member with here | there
      · obtain ⟨same, exactly⟩ := own id number here
        rw [same, exactly]
      · exact (later id number there).1

/-- Whatever has been shown and patched, a call records its revision and drops others
by the two limits alone, and no number is ever given twice to an id. -/
theorem revisions_recorded (size : Spec → Nat) (limits : Limits)
    (fits : exceeds 1 limits.revisions = false) (calls : List (Call Spec)) (call : Call Spec) :
    (∃ events, (record size limits (run size limits {} calls).1 call).2 = some events ∧
        Recorded limits (run size limits {} calls).1
          (record size limits (run size limits {} calls).1 call).1 call.id events) ∧
      (given (run size limits {} (calls ++ [call])).2).Nodup := by
  obtain ⟨answers, recorded, -, -⟩ := record_recorded size fits
    (run_consistent size fits consistent_empty calls) call
  obtain ⟨events, same⟩ := Option.isSome_iff_exists.mp answers
  rw [same] at recorded
  exact ⟨⟨events, same, recorded⟩, (given_run size fits consistent_empty _).1⟩

/-- The default limits, with specs of which each fills half of the byte limit. -/
theorem revisions_recorded_default :
    (∃ events, (record (fun _ : Unit => 16 * 1024 * 1024) Limits.default
        (run (fun _ => 16 * 1024 * 1024) Limits.default {}
          [.recordShow "one" () none none none 0, .recordShow "two" () none none none 1]).1
        (.recordPatch "one" () none none none 2)).2 = some events ∧
        Recorded Limits.default
          (run (fun _ => 16 * 1024 * 1024) Limits.default {}
            [.recordShow "one" () none none none 0, .recordShow "two" () none none none 1]).1
          (record (fun _ => 16 * 1024 * 1024) Limits.default
            (run (fun _ => 16 * 1024 * 1024) Limits.default {}
              [.recordShow "one" () none none none 0, .recordShow "two" () none none none 1]).1
            (.recordPatch "one" () none none none 2)).1 "one" events) ∧
      (given (run (fun _ => 16 * 1024 * 1024) Limits.default {}
        ([.recordShow "one" () none none none 0, .recordShow "two" () none none none 1] ++
          [.recordPatch "one" () none none none 2])).2).Nodup :=
  revisions_recorded (fun _ => 16 * 1024 * 1024) Limits.default (by decide) _ _

/-- With a count limit of none, an id does not even keep the revision just recorded. -/
theorem no_count_loses_latest : ¬ ∃ events, (record (fun _ : Unit => 1) ⟨.finite 0, .infinity⟩ {}
        (.recordShow "one" () none none none 0)).2 = some events ∧
      Recorded ⟨.finite 0, .infinity⟩ {}
        (record (fun _ : Unit => 1) ⟨.finite 0, .infinity⟩ {}
          (.recordShow "one" () none none none 0)).1 "one" events := by
  rintro ⟨events, -, recorded⟩
  obtain ⟨latest, last, -⟩ := recorded.current
  have empty : (keptOf (record (fun _ : Unit => 1) ⟨.finite 0, .infinity⟩ {}
      (.recordShow "one" () none none none 0)).1 "one").isEmpty = true := by decide +kernel
  rw [List.isEmpty_iff.mp empty] at last
  cases last

end AutoMobile.SpecRevisions
