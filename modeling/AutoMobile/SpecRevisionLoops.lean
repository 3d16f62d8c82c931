import AutoMobile.SpecRevisions

/- The two loops of the byte cap: what they take, what they leave, and when they stop. -/
namespace AutoMobile.SpecRevisions

open List hiding keys
open InsertionMap

variable {Spec : Type}

theorem exceeds_mono {small large : Int} (more : small ≤ large) {limit : Limit}
    (above : exceeds small limit = true) : exceeds large limit = true := by
  cases limit with
  | finite value =>
    simp only [exceeds, decide_eq_true_eq] at above ⊢
    exact lt_of_lt_of_le above (by exact_mod_cast more)
  | infinity => cases above
  | minusInfinity => rfl
  | nan => cases above

/-- The head of a stable sort is a smallest element. -/
theorem head?_mergeSort {α : Type} (rank : α → Nat) {items : List α} {first : α}
    (head : (items.mergeSort fun one other => rank one ≤ rank other).head? = some first) :
    first ∈ items ∧ ∀ other ∈ items, rank first ≤ rank other := by
  have sorted : (items.mergeSort fun one other => rank one ≤ rank other).Pairwise
      fun one other => decide (rank one ≤ rank other) = true := by
    apply pairwise_mergeSort
    · intro one two three first second
      exact decide_eq_true (Nat.le_trans (of_decide_eq_true first) (of_decide_eq_true second))
    · intro one two
      rcases Nat.le_total (rank one) (rank two) with below | below
      · simp [below]
      · simp [below]
  cases shape : items.mergeSort fun one other => rank one ≤ rank other with
  | nil =>
    rw [shape] at head
    cases head
  | cons least rest =>
    rw [shape] at head sorted
    have same : least = first := Option.some.inj head
    subst same
    refine ⟨mem_mergeSort.mp (by rw [shape]; exact mem_cons_self), fun other member => ?_⟩
    have inside : other ∈ least :: rest := by
      rw [← shape]
      exact mem_mergeSort.mpr member
    rcases mem_cons.mp inside with rfl | later
    · exact Nat.le_refl _
    · exact of_decide_eq_true ((pairwise_cons.mp sorted).1 other later)

theorem eq_nil_of_head?_mergeSort {α : Type} {items : List α} {le : α → α → Bool}
    (none : (items.mergeSort le).head? = none) : items = [] := by
  have empty := head?_eq_none_iff.mp none
  have length : (items.mergeSort le).length = items.length := length_mergeSort items
  rw [empty] at length
  exact length_eq_zero_iff.mp length.symm

section Weights

variable (weight : List (Revision Spec) → Nat)

theorem weighed_append (front back : InsertionMap String (History Spec)) :
    weighed weight (front ++ back) = weighed weight front + weighed weight back := by
  induction front with
  | nil => simp [weighed]
  | cons entry rest ih =>
    simp only [cons_append, weighed, ih]
    omega

variable {histories : InsertionMap String (History Spec)} (distinct : (keys histories).Nodup)
  {id : String} {history : History Spec}
include distinct

theorem weighed_put (known : get? histories id = some history) (other : History Spec) :
    weighed weight (put histories id other) + weight history.kept =
      weighed weight histories + weight other.kept := by
  obtain ⟨front, back, split, replaced, -⟩ := split_of_get? distinct known
  rw [replaced, split, weighed_append, weighed_append]
  simp only [weighed]
  omega

theorem weighed_erase (known : get? histories id = some history) :
    weighed weight (erase histories id) + weight history.kept = weighed weight histories := by
  obtain ⟨front, back, split, -, erased⟩ := split_of_get? distinct known
  rw [erased, split, weighed_append, weighed_append]
  simp only [weighed]
  omega

end Weights

theorem bytesOf_append (first second : List (Revision Spec)) :
    bytesOf (first ++ second) = bytesOf first + bytesOf second := by
  induction first with
  | nil => simp [bytesOf]
  | cons revision rest ih =>
    simp only [cons_append, bytesOf, ih]
    omega

/-- The kept revisions are numbered one after another, up to the last given number,
and the last one is the last of its id. -/
structure WellKept (history : History Spec) : Prop where
  numbered : ∃ first, 1 ≤ first ∧ history.next = first + history.kept.length ∧
    history.kept.map Revision.revision = List.range' first history.kept.length
  last : history.kept.getLast?.map Revision.sequence = some history.lastSequence

variable {history : History Spec} {store : Store Spec} {id : String}

theorem WellKept.ne_nil (well : WellKept history) : history.kept ≠ [] := by
  intro empty
  have last := well.last
  rw [empty] at last
  cases last

/-- Dropping old revisions keeps a history in order. -/
theorem WellKept.suffix (well : WellKept history) {fewer : List (Revision Spec)}
    (suffix : fewer <:+ history.kept) (some : fewer ≠ []) :
    WellKept { history with kept := fewer } := by
  obtain ⟨dropped, split⟩ := suffix
  obtain ⟨first, positive, next, numbers⟩ := well.numbered
  have last := well.last
  rw [← split] at next numbers last
  constructor
  · refine ⟨first + dropped.length, by omega, ?_, ?_⟩
    · show history.next = first + dropped.length + fewer.length
      rw [next, length_append]
      omega
    · have cut := congrArg (List.drop dropped.length) numbers
      rw [map_append, length_append, drop_left' (length_map ..), drop_range'] at cut
      simpa using cut
  · rw [getLast?_append_of_ne_nil _ some] at last
    exact last

/-- What holds of the store between two calls. -/
structure Consistent (store : Store Spec) : Prop where
  distinct : (keys store.histories).Nodup
  living : ∀ id history, get? store.histories id = some history → get? store.retired id = none
  total : store.totalBytes = keptBytes store.histories
  well : ∀ id history, get? store.histories id = some history → WellKept history
  recent : ∀ id history, get? store.histories id = some history →
    history.lastSequence ≤ store.sequence
  apart : ∀ one other first second, get? store.histories one = some first →
    get? store.histories other = some second → first.lastSequence = second.lastSequence → one = other
  positive : ∀ id next, get? store.retired id = some next → 1 ≤ next

theorem older_some (distinct : (keys store.histories).Nodup)
    (found : older store = some (id, history)) :
    get? store.histories id = some history ∧ 1 < history.kept.length := by
  obtain ⟨member, long⟩ := mem_filter.mp
    (head?_mergeSort (fun entry : String × History Spec => firstSequence entry.2) found).1
  exact ⟨get?_of_mem distinct member, of_decide_eq_true long⟩

theorem older_none (none : older store = none) (known : get? store.histories id = some history) :
    history.kept.length ≤ 1 := by
  have empty := eq_nil_of_head?_mergeSort none
  have short := filter_eq_nil_iff.mp empty (id, history) (mem_of_get? known)
  simpa using short

theorem stale_some (distinct : (keys store.histories).Nodup) {current : String}
    (found : stale store current = some (id, history)) :
    get? store.histories id = some history ∧ id ≠ current ∧
      ∀ other second, other ≠ current → get? store.histories other = some second →
        history.lastSequence ≤ second.lastSequence := by
  have least := head?_mergeSort
    (fun entry : String × History Spec => entry.2.lastSequence) found
  obtain ⟨member, apart⟩ := mem_filter.mp least.1
  refine ⟨get?_of_mem distinct member, of_decide_eq_true apart, fun other second away known => ?_⟩
  exact least.2 (other, second) (mem_filter.mpr ⟨mem_of_get? known, decide_eq_true away⟩)

theorem stale_none {current : String} (none : stale store current = none)
    (known : get? store.histories id = some history) :
    id = current := by
  have empty := eq_nil_of_head?_mergeSort none
  have kept := filter_eq_nil_iff.mp empty (id, history) (mem_of_get? known)
  simpa using kept

/-- What the first loop has done since the store was `start`. -/
structure Pruning (start store : Store Spec) (pruned : List String) : Prop where
  consistent : Consistent store
  sequence : store.sequence = start.sequence
  retired : store.retired = start.retired
  keys : keys store.histories = keys start.histories
  fewer : ∀ id history, get? start.histories id = some history → ∃ kept,
    get? store.histories id = some { history with kept := kept } ∧ kept <:+ history.kept ∧ kept ≠ []
  named : ∀ id, id ∈ pruned ↔ keptOf store id ≠ keptOf start id
  once : pruned.Nodup
  lower : store.totalBytes ≤ start.totalBytes

theorem keptOf_of_get? (known : get? store.histories id = some history) :
    keptOf store id = history.kept := by
  rw [keptOf, known]
  rfl

theorem keptOf_of_none (unknown : get? store.histories id = none) : keptOf store id = [] := by
  rw [keptOf, unknown]
  rfl

theorem mem_addOnce (ids : List String) (id other : String) :
    other ∈ addOnce ids id ↔ other ∈ ids ∨ other = id := by
  unfold addOnce
  split
  · rename_i held
    refine ⟨Or.inl, fun either => either.elim (fun kept => kept) fun same => ?_⟩
    rw [same]
    exact contains_iff_mem.mp held
  · rw [mem_append, mem_singleton]

theorem nodup_addOnce {ids : List String} (once : ids.Nodup) (id : String) :
    (addOnce ids id).Nodup := by
  unfold addOnce
  split
  · exact once
  · rename_i fresh
    rw [nodup_append]
    refine ⟨once, nodup_singleton _, fun one member other single same => fresh ?_⟩
    rw [mem_singleton.mp single] at same
    rw [← same]
    exact contains_iff_mem.mpr member

theorem keys_put_of_known {histories : InsertionMap String (History Spec)}
    (known : get? histories id = some history) (other : History Spec) :
    keys (put histories id other) = keys histories := by
  rw [keys_put, if_pos ((mem_keys_iff _ _).mpr ⟨history, known⟩)]

/-- A changed history of a known id is consistent with the others, when it is in order
and the total follows. -/
theorem Consistent.replace (consistent : Consistent store) {other : History Spec}
    (known : get? store.histories id = some history) (well : WellKept other)
    (last : other.lastSequence = history.lastSequence) {total : Int}
    (changed : total + bytesOf history.kept = store.totalBytes + bytesOf other.kept) :
    Consistent { store with histories := put store.histories id other, totalBytes := total } := by
  have origin : ∀ name found, get? (put store.histories id other) name = some found →
      ∃ before, get? store.histories name = some before ∧
        found.lastSequence = before.lastSequence ∧ WellKept found := by
    intro name found here
    rcases of_get?_put here with ⟨rfl, rfl⟩ | ⟨_, here⟩
    · exact ⟨history, known, last, well⟩
    · exact ⟨found, here, rfl, consistent.well name found here⟩
  refine ⟨nodup_keys_put consistent.distinct id other, ?_, ?_, ?_, ?_, ?_, consistent.positive⟩
  · intro name found here
    obtain ⟨before, earlier, -, -⟩ := origin name found here
    exact consistent.living name before earlier
  · have sum := weighed_put bytesOf consistent.distinct known other
    have before := consistent.total
    show total = ((keptBytes (put store.histories id other) : Nat) : Int)
    unfold keptBytes at before ⊢
    omega
  · intro name found here
    obtain ⟨-, -, -, ordered⟩ := origin name found here
    exact ordered
  · intro name found here
    obtain ⟨before, earlier, same, -⟩ := origin name found here
    rw [same]
    exact consistent.recent name before earlier
  · intro one two first second here there same
    obtain ⟨before, earlier, firstSame, -⟩ := origin one first here
    obtain ⟨before', earlier', secondSame, -⟩ := origin two second there
    exact consistent.apart one two before before' earlier earlier'
      (firstSame.symm.trans (same.trans secondSame))

section Pruning

variable {start store : Store Spec} {pruned : List String}

theorem Pruning.refl (consistent : Consistent start) : Pruning start start [] where
  consistent := consistent
  sequence := rfl
  retired := rfl
  keys := rfl
  fewer id history known :=
    ⟨history.kept, known, suffix_refl _, (consistent.well id history known).ne_nil⟩
  named id := by simp
  once := nodup_nil
  lower := Int.le_refl _

/-- One turn of the first loop takes the oldest revision of one id. -/
theorem Pruning.shift (pruning : Pruning start store pruned) {id : String}
    {history : History Spec} (known : get? store.histories id = some history)
    (long : 1 < history.kept.length) :
    Pruning start (shiftOldest store id history) (addOnce pruned id) ∧
      keptCount (shiftOldest store id history).histories < keptCount store.histories := by
  have consistent := pruning.consistent
  cases shape : history.kept with
  | nil =>
    rw [shape] at long
    cases long
  | cons oldest rest =>
    rw [shape] at long
    have nonempty : rest ≠ [] := by
      intro empty
      rw [empty] at long
      exact Nat.lt_irrefl 1 long
    have shifted : shiftOldest store id history = { store with
        totalBytes := store.totalBytes - oldest.bytes
        histories := put store.histories id { history with kept := rest } } := by
      rw [shiftOldest, shape]
    have suffix : rest <:+ history.kept := shape ▸ suffix_cons oldest rest
    have held : keptOf store id = oldest :: rest := (keptOf_of_get? known).trans shape
    have elsewhere : ∀ other, other ≠ id → get? (put store.histories id
        { history with kept := rest }) other = get? store.histories other := fun other apart =>
      get?_put_of_ne _ (Ne.symm apart) _
    rw [shifted]
    constructor
    · refine ⟨?_, pruning.sequence, pruning.retired, ?_, ?_, ?_, nodup_addOnce pruning.once id, ?_⟩
      · refine consistent.replace known ((consistent.well id history known).suffix suffix nonempty)
          rfl ?_
        rw [shape]
        simp only [bytesOf]
        omega
      · show InsertionMap.keys (put store.histories id _) = _
        rw [keys_put_of_known known]
        exact pruning.keys
      · intro other before earlier
        obtain ⟨kept, now, part, left⟩ := pruning.fewer other before earlier
        by_cases same : other = id
        · subst same
          obtain rfl := Option.some.inj (now.symm.trans known)
          exact ⟨rest, get?_put_self _ _ _, suffix.trans part, nonempty⟩
        · exact ⟨kept, (elsewhere other same).trans now, part, left⟩
      · intro other
        rw [mem_addOnce, pruning.named]
        by_cases same : other = id
        · subst same
          have now : keptOf { store with
              totalBytes := store.totalBytes - oldest.bytes
              histories := put store.histories other { history with kept := rest } } other =
                rest := by
            rw [keptOf]
            dsimp only
            rw [get?_put_self]
            rfl
          rw [now]
          refine ⟨fun _ unchanged => ?_, fun _ => Or.inr rfl⟩
          have before : ∃ first, get? start.histories other = some first := by
            apply (mem_keys_iff _ _).mp
            rw [← pruning.keys]
            exact (mem_keys_iff _ _).mpr ⟨history, known⟩
          obtain ⟨first, earlier⟩ := before
          obtain ⟨kept, now, part, -⟩ := pruning.fewer other first earlier
          obtain rfl := Option.some.inj (now.symm.trans known)
          have shorter := part.length_le
          rw [keptOf_of_get? earlier] at unchanged
          rw [← unchanged] at shorter
          have shape : kept = oldest :: rest := shape
          rw [shape, length_cons] at shorter
          omega
        · have now : keptOf { store with
              totalBytes := store.totalBytes - oldest.bytes
              histories := put store.histories id { history with kept := rest } } other =
                keptOf store other := by
            rw [keptOf, keptOf, elsewhere other same]
          rw [now]
          exact ⟨fun either => either.resolve_right same, Or.inl⟩
      · have lower := pruning.lower
        show store.totalBytes - oldest.bytes ≤ start.totalBytes
        omega
    · have sum := weighed_put List.length consistent.distinct known { history with kept := rest }
      rw [shape] at sum
      simp only [length_cons] at sum
      show weighed List.length (put store.histories id _) < weighed List.length store.histories
      omega

/-- The first loop stops within the limit, or with one revision of each id. -/
theorem pruneLoop_spec (limits : Limits) (turns : Nat) (pruning : Pruning start store pruned)
    (enough : keptCount store.histories ≤ turns) :
    Pruning start (pruneLoop limits turns store pruned).1 (pruneLoop limits turns store pruned).2 ∧
      (exceeds (pruneLoop limits turns store pruned).1.totalBytes limits.bytes = false ∨
        ∀ id history, get? (pruneLoop limits turns store pruned).1.histories id = some history →
          history.kept.length ≤ 1) := by
  induction turns generalizing store pruned with
  | zero =>
    refine ⟨pruning, Or.inr fun id history known => ?_⟩
    have sum := weighed_erase List.length pruning.consistent.distinct known
    have none : weighed List.length store.histories ≤ 0 := enough
    omega
  | succ turns ih =>
    rw [pruneLoop]
    cases above : exceeds store.totalBytes limits.bytes with
    | false => exact ⟨pruning, Or.inl above⟩
    | true =>
      rw [if_pos rfl]
      cases found : older store with
      | none => exact ⟨pruning, Or.inr fun id history known => older_none found known⟩
      | some entry =>
        obtain ⟨known, long⟩ := older_some pruning.consistent.distinct found
        have turn := pruning.shift known long
        exact ih turn.1 (by omega)

end Pruning

/-- What the second loop has done since the store was `start`. -/
structure Evicting (current : String) (start store : Store Spec) (evicted : List String) : Prop where
  consistent : Consistent store
  sequence : store.sequence = start.sequence
  left : ∀ id, get? store.histories id = if id ∈ evicted then none else get? start.histories id
  retired : ∀ id, get? store.retired id =
    if id ∈ evicted then (get? start.histories id).map History.next else get? start.retired id
  gone : ∀ id ∈ evicted, id ≠ current ∧ ∃ history, get? start.histories id = some history
  once : evicted.Nodup
  inOrder : evicted.Pairwise fun one other => ∀ first second,
    get? start.histories one = some first → get? start.histories other = some second →
    first.lastSequence < second.lastSequence
  before : ∀ one ∈ evicted, ∀ other, other ∉ evicted → other ≠ current → ∀ first second,
    get? start.histories one = some first → get? start.histories other = some second →
    first.lastSequence < second.lastSequence
  lower : store.totalBytes ≤ start.totalBytes

section Evicting

variable {current : String} {start store : Store Spec} {evicted : List String}

theorem Evicting.refl (current : String) (consistent : Consistent start) :
    Evicting current start start [] where
  consistent := consistent
  sequence := rfl
  left id := by simp
  retired id := by simp
  gone id member := by cases member
  once := nodup_nil
  inOrder := List.Pairwise.nil
  before one member := by cases member
  lower := Int.le_refl _

theorem Consistent.evict {store : Store Spec} (consistent : Consistent store) {id : String}
    {history : History Spec} (known : get? store.histories id = some history) :
    Consistent (SpecRevisions.evict store id history) := by
  have origin : ∀ name found, get? (erase store.histories id) name = some found →
      id ≠ name ∧ get? store.histories name = some found := by
    intro name found here
    obtain ⟨apart, here⟩ := of_get?_erase here
    exact ⟨apart, here⟩
  refine ⟨nodup_keys_erase consistent.distinct id, ?_, ?_, ?_, ?_, ?_, ?_⟩
  · intro name found here
    obtain ⟨apart, earlier⟩ := origin name found here
    exact (get?_put_of_ne _ apart _).trans (consistent.living name found earlier)
  · have sum := weighed_erase bytesOf consistent.distinct known
    have before := consistent.total
    show store.totalBytes - bytesOf history.kept = ((keptBytes (erase store.histories id) : Nat) : Int)
    unfold keptBytes at before ⊢
    omega
  · exact fun name found here => consistent.well name found (origin name found here).2
  · exact fun name found here => consistent.recent name found (origin name found here).2
  · exact fun one two first second here there =>
      consistent.apart one two first second (origin one first here).2 (origin two second there).2
  · intro name next here
    have put : (if id = name then some history.next else get? store.retired name) = some next :=
      (get?_put _ _ _ _).symm.trans here
    split at put
    · obtain ⟨first, positive, numbers, -⟩ := (consistent.well id history known).numbered
      have same : history.next = next := Option.some.inj put
      omega
    · exact consistent.positive name next put

/-- One turn of the second loop takes the least recently revised id but the current. -/
theorem Evicting.next (evicting : Evicting current start store evicted) {id : String}
    {history : History Spec} (found : stale store current = some (id, history)) :
    Evicting current start (evict store id history) (evicted ++ [id]) ∧
      (evict store id history).histories.length < store.histories.length := by
  have consistent := evicting.consistent
  obtain ⟨known, away, least⟩ := stale_some consistent.distinct found
  have fresh : id ∉ evicted := by
    intro member
    have none := evicting.left id
    rw [if_pos member, known] at none
    cases none
  have original : get? start.histories id = some history := by
    have same := evicting.left id
    rw [if_neg fresh, known] at same
    exact same.symm
  have snoc : ∀ other, other ∈ evicted ++ [id] ↔ other ∈ evicted ∨ other = id := fun other => by
    rw [mem_append, mem_singleton]
  constructor
  · refine ⟨consistent.evict known, evicting.sequence, fun other => ?_, fun other => ?_,
      fun other member => ?_, ?_, ?_, ?_, ?_⟩
    · show get? (erase store.histories id) other = _
      rw [get?_erase, evicting.left other]
      by_cases same : id = other
      · simp [same]
      · simp [same, Ne.symm same]
    · show get? (put store.retired id history.next) other = _
      rw [get?_put, evicting.retired other]
      by_cases same : id = other
      · subst same
        simp [original]
      · simp [same, Ne.symm same]
    · rcases (snoc other).mp member with old | rfl
      · exact evicting.gone other old
      · exact ⟨away, history, original⟩
    · rw [nodup_append]
      refine ⟨evicting.once, nodup_singleton _, fun one member other single same => fresh ?_⟩
      rw [mem_singleton.mp single] at same
      exact same ▸ member
    · refine pairwise_append.mpr ⟨evicting.inOrder, pairwise_singleton _ _, ?_⟩
      intro one member other single
      rw [mem_singleton.mp single]
      exact evicting.before one member id fresh away
    · intro one member other outside apart first second here there
      have untouched : other ∉ evicted := fun inside => outside ((snoc other).mpr (Or.inl inside))
      rcases (snoc one).mp member with old | rfl
      · exact evicting.before one old other untouched apart first second here there
      · obtain rfl := Option.some.inj (original.symm.trans here)
        have present : get? store.histories other = some second := by
          rw [evicting.left other, if_neg untouched]
          exact there
        have below := least other second apart present
        have different : history.lastSequence ≠ second.lastSequence := fun same =>
          outside ((snoc other).mpr (Or.inr
            (consistent.apart one other history second known present same).symm))
        omega
    · have lower := evicting.lower
      show store.totalBytes - bytesOf history.kept ≤ start.totalBytes
      omega
  · obtain ⟨front, back, split, -, erased⟩ := split_of_get? consistent.distinct known
    show (erase store.histories id).length < store.histories.length
    rw [erased, split]
    simp

/-- The second loop stops within the limit, or with the current id alone. -/
theorem evictLoop_spec (limits : Limits) (turns : Nat) (evicting : Evicting current start store evicted)
    (enough : store.histories.length ≤ turns)
    (cause : evicted ≠ [] → exceeds start.totalBytes limits.bytes = true) :
    Evicting current start (evictLoop limits current turns store evicted).1
        (evictLoop limits current turns store evicted).2 ∧
      ((evictLoop limits current turns store evicted).2 ≠ [] →
        exceeds start.totalBytes limits.bytes = true) ∧
      (exceeds (evictLoop limits current turns store evicted).1.totalBytes limits.bytes = false ∨
        ∀ id history,
          get? (evictLoop limits current turns store evicted).1.histories id = some history →
          id = current) := by
  induction turns generalizing store evicted with
  | zero =>
    refine ⟨evicting, cause, Or.inr fun id history known => ?_⟩
    have empty := length_eq_zero_iff.mp (Nat.le_zero.mp enough)
    have known : get? store.histories id = some history := known
    rw [empty] at known
    cases known
  | succ turns ih =>
    rw [evictLoop]
    cases above : exceeds store.totalBytes limits.bytes with
    | false => exact ⟨evicting, cause, Or.inl above⟩
    | true =>
      rw [if_pos rfl]
      cases found : stale store current with
      | none => exact ⟨evicting, cause, Or.inr fun id history known => stale_none found known⟩
      | some entry =>
        have turn := evicting.next found
        exact ih turn.1 (by omega) fun _ => exceeds_mono evicting.lower above

end Evicting

end AutoMobile.SpecRevisions
