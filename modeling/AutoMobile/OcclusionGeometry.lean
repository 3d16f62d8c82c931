import Mathlib.Data.Int.ConditionallyCompleteOrder
import Mathlib.Data.Int.Interval
import Mathlib.Tactic.Linarith
import AutoMobile.BinarySearch

/- `OcclusionGeometry`: the area of a union of rectangles, by a sweep over their edges. -/
namespace AutoMobile.OcclusionGeometry

open List
open BinarySearch (search search_cuts Inherited)

section Sweep

structure ElementBounds where
  left : Int
  top : Int
  right : Int
  bottom : Int
deriving DecidableEq, Repr

/-- A result of `Int` arithmetic. -/
def wrap (value : Int) : Int := value.bmod (2 ^ 32)

structure Event where
  x : Int
  y1 : Int
  y2 : Int
  delta : Int
deriving DecidableEq, Repr

def ElementBounds.start (rect : ElementBounds) : Event := ⟨rect.left, rect.top, rect.bottom, 1⟩

def ElementBounds.stop (rect : ElementBounds) : Event := ⟨rect.right, rect.top, rect.bottom, -1⟩

/-- The edges of the rectangles, from left to right; equal ones in the order of the rectangles. -/
def sortedEvents (rectangles : List ElementBounds) : List Event :=
  (rectangles.flatMap fun rect => [rect.start, rect.stop]).mergeSort
    fun first second => decide (first.x ≤ second.x)

/-- The intervals of the rectangles that the sweep line is in. -/
abbrev Intervals := List (Int × Int)

def add (active : Intervals) (y1 y2 : Int) : Intervals :=
  active.insertIdx (search (fun interval => interval.1 ≤ y1) active) (y1, y2)

/-- The loop of `remove`, over the intervals that it has not gone past. -/
def removeFrom (y1 y2 : Int) : Intervals → Intervals
  | [] => []
  | interval :: rest =>
    if interval.1 = y1 then
      if interval.2 = y2 then rest else interval :: removeFrom y1 y2 rest
    else interval :: rest

def remove (active : Intervals) (y1 y2 : Int) : Intervals :=
  let low := search (fun interval => interval.1 < y1) active
  active.take low ++ removeFrom y1 y2 (active.drop low)

/-- The loop of `activeUnionLength`. -/
def unionLengthFrom : Intervals → Int → Int → Int → Int
  | [], total, currentStart, currentEnd => wrap (total + wrap (currentEnd - currentStart))
  | (start, stop) :: rest, total, currentStart, currentEnd =>
    if currentEnd < start then
      unionLengthFrom rest (wrap (total + wrap (currentEnd - currentStart))) start stop
    else unionLengthFrom rest total currentStart (max currentEnd stop)

def activeUnionLength : Intervals → Int
  | [] => 0
  | (start, stop) :: rest => unionLengthFrom rest 0 start stop

/-- What an event does to the intervals. -/
def Event.toggle (event : Event) (active : Intervals) : Intervals :=
  if 0 < event.delta then add active event.y1 event.y2 else remove active event.y1 event.y2

/-- The loop of `calculateUnionArea`. -/
def sweepFrom (maxArea : Option Int) : List Event → Int → Int → Intervals → Int
  | [], _, area, _ => area
  | event :: rest, previousX, area, active =>
    let dx := wrap (event.x - previousX)
    if 0 < dx ∧ active ≠ [] then
      let larger := wrap (area + wrap (activeUnionLength active * dx))
      if maxArea.any (fun limit => limit ≤ larger) then larger
      else sweepFrom maxArea rest event.x larger (event.toggle active)
    else sweepFrom maxArea rest event.x area (event.toggle active)

def calculateUnionArea (rectangles : List ElementBounds) (maxArea : Option Int) : Int :=
  match sortedEvents rectangles with
  | [] => 0
  | first :: rest => sweepFrom maxArea (first :: rest) first.x 0 []

end Sweep

section Statement

/-- The unit cells that some rectangle covers. -/
noncomputable def covered (rectangles : List ElementBounds) : Finset (Int × Int) :=
  rectangles.toFinset.biUnion fun rect =>
    Finset.Ico rect.left rect.right ×ˢ Finset.Ico rect.top rect.bottom

/-- The intervals after some events. -/
def activeAfter (events : List Event) : Intervals :=
  events.foldl (fun active event => event.toggle active) []

def ElementBounds.Proper (rect : ElementBounds) : Prop :=
  rect.left < rect.right ∧ rect.top < rect.bottom

instance : DecidablePred ElementBounds.Proper :=
  fun rect => inferInstanceAs (Decidable (rect.left < rect.right ∧ rect.top < rect.bottom))

/-- The intervals are in the order of their starts. -/
def Ordered (active : Intervals) : Prop := active.Pairwise fun one other => one.1 ≤ other.1

/-- The event adds its interval, or removes one that is equal to it. -/
structure Toggles (event : Event) (before after : Intervals) : Prop where
  ordered : Ordered after
  added : 0 < event.delta → after.Perm ((event.y1, event.y2) :: before)
  removed : ¬ 0 < event.delta → before.Perm ((event.y1, event.y2) :: after)

end Statement

section Arithmetic

theorem wrap_of_fits {value : Int} (low : 0 ≤ value) (high : value < 2 ^ 31) :
    wrap value = value :=
  Int.bmod_eq_of_le (by omega) (by omega)

@[simp] theorem wrap_add_wrap (first second : Int) :
    wrap (first + wrap second) = wrap (first + second) := Int.add_bmod_bmod

@[simp] theorem wrap_wrap_add (first second : Int) :
    wrap (wrap first + second) = wrap (first + second) := Int.bmod_add_bmod

@[simp] theorem wrap_wrap_mul (first second : Int) :
    wrap (wrap first * second) = wrap (first * second) := Int.bmod_mul_bmod

end Arithmetic

section Lengths

/-- The unit steps that some interval covers. -/
noncomputable def span (active : Intervals) : Finset Int :=
  active.toFinset.biUnion fun interval => Finset.Ico interval.1 interval.2

variable {active : Intervals}

theorem mem_span {y : Int} :
    y ∈ span active ↔ ∃ interval ∈ active, interval.1 ≤ y ∧ y < interval.2 := by
  simp [span]

theorem span_cons (interval : Int × Int) (active : Intervals) :
    span (interval :: active) = Finset.Ico interval.1 interval.2 ∪ span active := by
  simp [span]

/-- Merging takes the union of what is left into account. -/
theorem unionLengthFrom_eq {total start stop : Int} (ordered : Ordered ((start, stop) :: active))
    (proper : ∀ interval ∈ (start, stop) :: active, interval.1 ≤ interval.2) :
    unionLengthFrom active total start stop =
      wrap (total + (span ((start, stop) :: active)).card) := by
  induction active generalizing total start stop with
  | nil =>
    have own : 0 ≤ stop - start := Int.sub_nonneg.mpr (proper (start, stop) mem_cons_self)
    simp [unionLengthFrom, span, max_eq_left own]
  | cons interval rest ih =>
    obtain ⟨next, last⟩ := interval
    have first := List.rel_of_pairwise_cons ordered (mem_cons_self : (next, last) ∈ _)
    have own := proper (start, stop) mem_cons_self
    dsimp only at first own
    have tail : Ordered ((next, last) :: rest) := List.Pairwise.of_cons ordered
    unfold unionLengthFrom
    split
    next gap =>
      rw [ih tail fun other member => proper other (mem_cons_of_mem _ member)]
      have apart : Disjoint (Finset.Ico start stop) (span ((next, last) :: rest)) := by
        rw [Finset.disjoint_left]
        intro y inside there
        obtain ⟨other, member, above, _⟩ := mem_span.mp there
        have later : next ≤ other.1 := by
          rcases mem_cons.mp member with rfl | member
          · exact le_refl _
          · exact List.rel_of_pairwise_cons tail member
        have below := (Finset.mem_Ico.mp inside).2
        omega
      rw [span_cons (start, stop), Finset.card_union_of_disjoint apart, Int.card_Ico,
        wrap_add_wrap, wrap_wrap_add]
      congr 1
      push_cast
      rw [Int.toNat_of_nonneg (by omega)]
      omega
    next touch =>
      have joined : span ((start, max stop last) :: rest) =
          span ((start, stop) :: (next, last) :: rest) := by
        simp only [span_cons, ← Finset.union_assoc]
        congr 1
        ext y
        simp only [Finset.mem_union, Finset.mem_Ico]
        omega
      rw [ih ?_ ?_, joined]
      · refine pairwise_cons.mpr ⟨?_, List.Pairwise.of_cons tail⟩
        exact fun other member =>
          List.rel_of_pairwise_cons ordered (mem_cons_of_mem _ member)
      · intro other member
        rcases mem_cons.mp member with rfl | member
        · exact own.trans (le_max_left _ _)
        · exact proper other (by simp [member])

theorem activeUnionLength_eq (ordered : Ordered active)
    (proper : ∀ interval ∈ active, interval.1 ≤ interval.2) :
    activeUnionLength active = wrap (span active).card := by
  cases active with
  | nil => simp [activeUnionLength, span, wrap]
  | cons interval rest =>
    have merged := @unionLengthFrom_eq rest 0 interval.1 interval.2 ordered proper
    rw [Int.zero_add] at merged
    exact merged

end Lengths

section Search

variable {active : Intervals}

theorem insertIdx_append (front back : Intervals) (interval : Int × Int) :
    (front ++ back).insertIdx front.length interval = front ++ interval :: back := by
  induction front with
  | nil => rfl
  | cons first rest ih => simp [ih]

/-- What `add` leaves: the interval stands behind those that start no later. -/
theorem add_eq (ordered : Ordered active) (y1 y2 : Int) :
    ∃ front back, active = front ++ back ∧ (∀ interval ∈ front, interval.1 ≤ y1) ∧
      (∀ interval ∈ back, y1 < interval.1) ∧ add active y1 y2 = front ++ (y1, y2) :: back := by
  have inherited : Inherited (fun interval => decide (interval.1 ≤ y1)) active :=
    ordered.imp fun earlier => by simpa using earlier.trans
  obtain ⟨front, back, split, before, after, found⟩ := search_cuts inherited
  refine ⟨front, back, split, by simpa using before, by simpa using after, ?_⟩
  rw [add, found, split, insertIdx_append]

theorem add_perm (ordered : Ordered active) (y1 y2 : Int) :
    (add active y1 y2).Perm ((y1, y2) :: active) := by
  obtain ⟨front, back, rfl, _, _, added⟩ := add_eq ordered y1 y2
  rw [added]
  exact perm_middle

theorem add_ordered (ordered : Ordered active) (y1 y2 : Int) : Ordered (add active y1 y2) := by
  obtain ⟨front, back, rfl, before, after, added⟩ := add_eq ordered y1 y2
  obtain ⟨first, second, between⟩ := pairwise_append.mp ordered
  rw [added]
  refine pairwise_append.mpr ⟨first, pairwise_cons.mpr ⟨?_, second⟩, ?_⟩
  · exact fun other member => (after other member).le
  · intro one member other later
    rcases mem_cons.mp later with rfl | later
    · exact before one member
    · exact between one member other later

theorem removeFrom_sublist (active : Intervals) (y1 y2 : Int) :
    (removeFrom y1 y2 active).Sublist active := by
  induction active with
  | nil => exact List.Sublist.slnil
  | cons interval rest ih =>
    unfold removeFrom
    split
    · split
      · exact sublist_cons_self _ _
      · exact ih.cons_cons _
    · exact List.Sublist.refl _

theorem removeFrom_perm (ordered : Ordered active) {y1 y2 : Int}
    (from_ : ∀ interval ∈ active, y1 ≤ interval.1) (member : (y1, y2) ∈ active) :
    active.Perm ((y1, y2) :: removeFrom y1 y2 active) := by
  induction active with
  | nil => cases member
  | cons interval rest ih =>
    have later := pairwise_cons.mp ordered
    unfold removeFrom
    by_cases own : interval = (y1, y2)
    · subst own
      rw [if_pos rfl, if_pos rfl]
    · have inside := (mem_cons.mp member).resolve_left fun same => own same.symm
      have start : interval.1 = y1 :=
        le_antisymm (later.1 _ inside) (from_ interval mem_cons_self)
      have stop : interval.2 ≠ y2 := fun same => own (Prod.ext start same)
      rw [if_pos start, if_neg stop]
      have kept := ih later.2 (fun other there => from_ other (mem_cons_of_mem _ there)) inside
      exact (kept.cons interval).trans (List.Perm.swap _ _ _)

/-- What `remove` leaves: its loop goes over the intervals that start no earlier. -/
theorem remove_eq (ordered : Ordered active) (y1 y2 : Int) :
    ∃ front back, active = front ++ back ∧ (∀ interval ∈ front, interval.1 < y1) ∧
      (∀ interval ∈ back, y1 ≤ interval.1) ∧
      remove active y1 y2 = front ++ removeFrom y1 y2 back := by
  have inherited : Inherited (fun interval => decide (interval.1 < y1)) active :=
    ordered.imp fun earlier => by simpa using earlier.trans_lt
  obtain ⟨front, back, split, before, after, found⟩ := search_cuts inherited
  refine ⟨front, back, split, by simpa using before, by simpa using after, ?_⟩
  simp only [remove, found]
  rw [split, take_left, drop_left]

theorem remove_ordered (ordered : Ordered active) (y1 y2 : Int) :
    Ordered (remove active y1 y2) := by
  obtain ⟨front, back, rfl, _, _, removed⟩ := remove_eq ordered y1 y2
  rw [removed]
  exact List.Pairwise.sublist ((removeFrom_sublist back y1 y2).append_left front) ordered

theorem remove_perm (ordered : Ordered active) {y1 y2 : Int} (member : (y1, y2) ∈ active) :
    active.Perm ((y1, y2) :: remove active y1 y2) := by
  obtain ⟨front, back, rfl, before, after, removed⟩ := remove_eq ordered y1 y2
  have inside : (y1, y2) ∈ back :=
    (mem_append.mp member).resolve_left fun early => lt_irrefl _ (before _ early)
  have kept := removeFrom_perm (pairwise_append.mp ordered).2.1 after inside
  rw [removed]
  exact (kept.append_left front).trans perm_middle

end Search

section Cells

def ElementBounds.interval (rect : ElementBounds) : Int × Int := (rect.top, rect.bottom)

/-- The cells that the rectangles cover from a column on. -/
noncomputable def ahead (x : Int) (rectangles : List ElementBounds) : Finset (Int × Int) :=
  (covered rectangles).filter fun cell => x ≤ cell.1

theorem mem_ahead {x : Int} {rectangles : List ElementBounds} {cell : Int × Int} :
    cell ∈ ahead x rectangles ↔ x ≤ cell.1 ∧ ∃ rect ∈ rectangles,
      (rect.left ≤ cell.1 ∧ cell.1 < rect.right) ∧ rect.top ≤ cell.2 ∧ cell.2 < rect.bottom := by
  simp only [ahead, covered, Finset.mem_filter, Finset.mem_biUnion, mem_toFinset,
    Finset.mem_product, Finset.mem_Ico]
  tauto

/-- Where the sweep is: which rectangles the line is in, and which it has not reached. -/
structure Sweeping (remaining : List Event) (previousX : Int) (active : Intervals)
    (opened waiting : List ElementBounds) : Prop where
  sorted : remaining.Pairwise fun one other => one.x ≤ other.x
  reached : ∀ event ∈ remaining, previousX ≤ event.x
  events : remaining.Perm (waiting.map ElementBounds.start ++
    (opened ++ waiting).map ElementBounds.stop)
  inside : active.Perm (opened.map ElementBounds.interval)
  ordered : Ordered active
  begun : ∀ rect ∈ opened, rect.left ≤ previousX
  proper : ∀ rect ∈ opened ++ waiting, rect.Proper

variable {event : Event} {rest : List Event} {previousX : Int} {active : Intervals}
  {opened waiting : List ElementBounds}

theorem Sweeping.stop_ge (sweeping : Sweeping (event :: rest) previousX active opened waiting)
    {rect : ElementBounds} (known : rect ∈ opened ++ waiting) : event.x ≤ rect.right := by
  have member : rect.stop ∈ event :: rest :=
    sweeping.events.mem_iff.mpr (mem_append_right _ (mem_map_of_mem known))
  rcases mem_cons.mp member with same | later
  · rw [← same]
    exact le_refl _
  · exact List.rel_of_pairwise_cons sweeping.sorted later

theorem Sweeping.start_ge (sweeping : Sweeping (event :: rest) previousX active opened waiting)
    {rect : ElementBounds} (waits : rect ∈ waiting) : event.x ≤ rect.left := by
  have member : rect.start ∈ event :: rest :=
    sweeping.events.mem_iff.mpr (mem_append_left _ (mem_map_of_mem waits))
  rcases mem_cons.mp member with same | later
  · rw [← same]
    exact le_refl _
  · exact List.rel_of_pairwise_cons sweeping.sorted later

theorem Sweeping.interval_le (sweeping : Sweeping rest previousX active opened waiting) :
    ∀ interval ∈ active, interval.1 ≤ interval.2 := by
  intro interval member
  obtain ⟨rect, known, rfl⟩ := mem_map.mp (sweeping.inside.mem_iff.mp member)
  exact (sweeping.proper rect (mem_append_left _ known)).2.le

theorem Sweeping.span_pos (sweeping : Sweeping rest previousX active opened waiting)
    (some : active ≠ []) : 0 < (span active).card := by
  obtain ⟨interval, member⟩ := exists_mem_of_ne_nil active some
  obtain ⟨rect, known, rfl⟩ := mem_map.mp (sweeping.inside.mem_iff.mp member)
  have tall := (sweeping.proper rect (mem_append_left _ known)).2
  exact Finset.card_pos.mpr ⟨rect.top, mem_span.mpr ⟨rect.interval, member, le_refl _, tall⟩⟩

/-- Up to the next event, the cells are the columns of what the active intervals span. -/
theorem Sweeping.slab (sweeping : Sweeping (event :: rest) previousX active opened waiting) :
    (ahead previousX (opened ++ waiting)).card =
      (event.x - previousX).toNat * (span active).card +
        (ahead event.x (opened ++ waiting)).card := by
  have split : ahead previousX (opened ++ waiting) =
      Finset.Ico previousX event.x ×ˢ span active ∪ ahead event.x (opened ++ waiting) := by
    have reached := sweeping.reached event mem_cons_self
    ext ⟨x, y⟩
    simp only [Finset.mem_union, Finset.mem_product, Finset.mem_Ico, mem_ahead, mem_span]
    constructor
    · intro ⟨after, rect, known, across, inside⟩
      by_cases before : x < event.x
      · left
        refine ⟨⟨after, before⟩, rect.interval, ?_, inside⟩
        rcases mem_append.mp known with open_ | waits
        · exact sweeping.inside.mem_iff.mpr (mem_map_of_mem open_)
        · have start := sweeping.start_ge waits
          omega
      · exact Or.inr ⟨by omega, rect, known, across, inside⟩
    · rintro (⟨⟨after, before⟩, interval, member, inside⟩ | ⟨after, rect, known, across, inside⟩)
      · obtain ⟨rect, open_, rfl⟩ := mem_map.mp (sweeping.inside.mem_iff.mp member)
        have known : rect ∈ opened ++ waiting := mem_append_left _ open_
        have stop := sweeping.stop_ge known
        have begun := sweeping.begun rect open_
        exact ⟨after, rect, known, by omega, inside⟩
      · exact ⟨by omega, rect, known, across, inside⟩
  have apart : Disjoint (Finset.Ico previousX event.x ×ˢ span active)
      (ahead event.x (opened ++ waiting)) := by
    rw [Finset.disjoint_left]
    intro cell here later
    have before := (Finset.mem_Ico.mp (Finset.mem_product.mp here).1).2
    have after := (mem_ahead.mp later).1
    omega
  rw [split, Finset.card_union_of_disjoint apart, Finset.card_product, Int.card_Ico]

/-- A rectangle that waits opens. -/
theorem Sweeping.opens (sweeping : Sweeping (event :: rest) previousX active opened waiting)
    {rect : ElementBounds} (waits : rect ∈ waiting) (starts : rect.start = event) :
    Toggles event active (event.toggle active) ∧
      Sweeping rest event.x (event.toggle active) (rect :: opened) (waiting.erase rect) := by
  have others := List.perm_cons_erase waits
  have whole : (opened ++ waiting).Perm (rect :: opened ++ waiting.erase rect) :=
    (others.append_left opened).trans perm_middle
  have delta : 0 < event.delta := by
    rw [← starts]
    exact Int.one_pos
  have toggled : event.toggle active = add active rect.top rect.bottom := by
    rw [Event.toggle, if_pos delta, ← starts]
    rfl
  have added := add_perm sweeping.ordered rect.top rect.bottom
  have ordered := add_ordered sweeping.ordered rect.top rect.bottom
  rw [toggled]
  refine ⟨⟨ordered, fun _ => by rw [← starts]; exact added, fun not => absurd delta not⟩,
    List.Pairwise.of_cons sweeping.sorted,
    fun later member => List.rel_of_pairwise_cons sweeping.sorted member, ?_,
    added.trans (sweeping.inside.cons _), ordered, ?_, ?_⟩
  · have events := sweeping.events.trans
      ((others.map ElementBounds.start).append (whole.map ElementBounds.stop))
    rw [map_cons, starts] at events
    exact events.cons_inv
  · intro other member
    rcases mem_cons.mp member with rfl | known
    · rw [← starts]
      exact le_refl _
    · exact (sweeping.begun other known).trans (sweeping.reached event mem_cons_self)
  · exact fun other member => sweeping.proper other (whole.mem_iff.mpr member)

/-- A rectangle that is open closes. -/
theorem Sweeping.closes (sweeping : Sweeping (event :: rest) previousX active opened waiting)
    {rect : ElementBounds} (known : rect ∈ opened) (stops : rect.stop = event) :
    Toggles event active (event.toggle active) ∧
      Sweeping rest event.x (event.toggle active) (opened.erase rect) waiting := by
  have others := List.perm_cons_erase known
  have delta : ¬ 0 < event.delta := by
    rw [← stops]
    exact Int.not_lt.mpr (Int.neg_nonpos_of_nonneg Int.one_nonneg)
  have toggled : event.toggle active = remove active rect.top rect.bottom := by
    rw [Event.toggle, if_neg delta, ← stops]
    rfl
  have removed : active.Perm ((rect.top, rect.bottom) :: remove active rect.top rect.bottom) :=
    remove_perm sweeping.ordered (sweeping.inside.mem_iff.mpr (mem_map_of_mem known))
  have ordered := remove_ordered sweeping.ordered rect.top rect.bottom
  rw [toggled]
  refine ⟨⟨ordered, fun pos => absurd pos delta, fun _ => by rw [← stops]; exact removed⟩,
    List.Pairwise.of_cons sweeping.sorted,
    fun later member => List.rel_of_pairwise_cons sweeping.sorted member, ?_, ?_, ordered, ?_, ?_⟩
  · have events := sweeping.events.trans
      (((others.append_right waiting).map ElementBounds.stop).append_left _)
    rw [cons_append, map_cons, stops] at events
    exact (events.trans perm_middle).cons_inv
  · exact (removed.symm.trans (sweeping.inside.trans (others.map _))).cons_inv
  · intro other member
    have early := sweeping.begun other (List.mem_of_mem_erase member)
    exact early.trans (sweeping.reached event mem_cons_self)
  · intro other member
    apply sweeping.proper other
    rcases mem_append.mp member with early | late
    · exact mem_append_left _ (List.mem_of_mem_erase early)
    · exact mem_append_right _ late

/-- After an event, the cells ahead are those that were ahead of it. -/
theorem Sweeping.next (sweeping : Sweeping (event :: rest) previousX active opened waiting) :
    Toggles event active (event.toggle active) ∧
      ∃ opened' waiting', Sweeping rest event.x (event.toggle active) opened' waiting' ∧
        ahead event.x (opened' ++ waiting') = ahead event.x (opened ++ waiting) := by
  have member := sweeping.events.mem_iff.mp mem_cons_self
  rcases mem_append.mp member with member | member
  · obtain ⟨rect, waits, starts⟩ := mem_map.mp member
    obtain ⟨toggles, next⟩ := sweeping.opens waits starts
    refine ⟨toggles, _, _, next, ?_⟩
    have whole : (opened ++ waiting).Perm (rect :: opened ++ waiting.erase rect) :=
      ((List.perm_cons_erase waits).append_left opened).trans perm_middle
    ext cell
    simp only [mem_ahead, whole.mem_iff]
  · obtain ⟨rect, known, stops⟩ := mem_map.mp member
    have x : rect.right = event.x := by rw [← stops]; rfl
    have open_ : rect ∈ opened := by
      rcases mem_append.mp known with open_ | waits
      · exact open_
      · have start := sweeping.start_ge waits
        have proper := (sweeping.proper rect known).1
        omega
    obtain ⟨toggles, next⟩ := sweeping.closes open_ stops
    refine ⟨toggles, _, _, next, ?_⟩
    ext cell
    simp only [mem_ahead, mem_append]
    constructor
    · rintro ⟨after, other, known | waits, inside⟩
      · exact ⟨after, other, Or.inl (List.mem_of_mem_erase known), inside⟩
      · exact ⟨after, other, Or.inr waits, inside⟩
    · rintro ⟨after, other, known | waits, inside⟩
      · have apart : other ≠ rect := by
          rintro rfl
          omega
        exact ⟨after, other, Or.inl ((mem_erase_of_ne apart).mpr known), inside⟩
      · exact ⟨after, other, Or.inr waits, inside⟩

theorem Sweeping.toggles (past : List Event)
    (sweeping : Sweeping (past ++ event :: rest) previousX active opened waiting) :
    Toggles event (past.foldl (fun active event => event.toggle active) active)
      (event.toggle (past.foldl (fun active event => event.toggle active) active)) := by
  induction past generalizing previousX active opened waiting with
  | nil => exact sweeping.next.1
  | cons first past ih =>
    obtain ⟨_, _, _, next, _⟩ := sweeping.next
    exact ih next

end Cells

section Run

/-- The loop adds the cells ahead, or stops at a limit that they reach. -/
theorem sweepFrom_area {remaining : List Event} {previousX area : Int} {active : Intervals}
    {opened waiting : List ElementBounds} (maxArea : Option Int)
    (sweeping : Sweeping remaining previousX active opened waiting) (low : 0 ≤ area)
    (fits : area + (ahead previousX (opened ++ waiting)).card < 2 ^ 31) :
    sweepFrom maxArea remaining previousX area active =
        area + (ahead previousX (opened ++ waiting)).card ∨
      ∃ limit ∈ maxArea, limit ≤ sweepFrom maxArea remaining previousX area active ∧
        sweepFrom maxArea remaining previousX area active ≤
          area + (ahead previousX (opened ++ waiting)).card := by
  induction remaining generalizing previousX area active opened waiting with
  | nil =>
    have none : (waiting.map ElementBounds.start ++
        (opened ++ waiting).map ElementBounds.stop).length = 0 := sweeping.events.length_eq.symm
    have nothing : opened ++ waiting = [] := by
      rw [length_append, length_map] at none
      exact length_eq_zero_iff.mp (by simpa using (Nat.add_eq_zero_iff.mp none).2)
    left
    simp [sweepFrom, nothing, ahead, covered]
  | cons event rest ih =>
    obtain ⟨_, opened', waiting', next, same⟩ := sweeping.next
    have slab := sweeping.slab
    have reached := sweeping.reached event mem_cons_self
    generalize whole : (ahead previousX (opened ++ waiting)).card = cells at *
    rw [← same] at slab
    have width : (0 : Int) ≤ event.x - previousX := by omega
    have added : (event.x - previousX) * (span active).card + (ahead event.x
        (opened' ++ waiting')).card = (cells : Int) := by
      rw [slab]
      push_cast
      rw [Int.toNat_of_nonneg width]
    unfold sweepFrom
    dsimp only
    by_cases idle : active = []
    · have same : area + (ahead event.x (opened' ++ waiting')).card = area + cells := by
        rw [← added, idle]
        simp [span]
      rw [if_neg fun both => both.2 idle, ← same]
      exact ih next low (by rw [same]; exact fits)
    · have some := sweeping.span_pos idle
      have columns : event.x - previousX ≤ (event.x - previousX) * (span active).card :=
        le_mul_of_one_le_right width (by exact_mod_cast some)
      have dx : wrap (event.x - previousX) = event.x - previousX :=
        wrap_of_fits width (by omega)
      have length := activeUnionLength_eq sweeping.ordered sweeping.interval_le
      rw [dx]
      by_cases moves : 0 < event.x - previousX
      · have larger : wrap (area + wrap (activeUnionLength active * (event.x - previousX))) =
            area + (event.x - previousX) * (span active).card := by
          rw [length, wrap_wrap_mul, wrap_add_wrap, Int.mul_comm ((span active).card : Int)]
          exact wrap_of_fits (by omega) (by omega)
        rw [if_pos ⟨moves, idle⟩, larger, ← added, ← Int.add_assoc]
        split
        next stops =>
          right
          cases maxArea with
          | none => cases stops
          | some limit => exact ⟨limit, rfl, of_decide_eq_true stops, by omega⟩
        next => exact ih next (by omega) (by omega)
      · have still : event.x - previousX = 0 := by omega
        rw [if_neg fun both => moves both.1]
        rw [still, Int.zero_mul, Int.zero_add] at added
        rw [← added]
        exact ih next low (by rw [added]; exact fits)

theorem start_stop_perm (rectangles : List ElementBounds) :
    (rectangles.flatMap fun rect => [rect.start, rect.stop]).Perm
      (rectangles.map ElementBounds.start ++ rectangles.map ElementBounds.stop) := by
  induction rectangles with
  | nil => exact List.Perm.refl _
  | cons rect rest ih =>
    rw [flatMap_cons, map_cons, map_cons, cons_append]
    exact ((ih.cons rect.stop).trans perm_middle.symm).cons rect.start

theorem sweeping_start {rectangles : List ElementBounds}
    (proper : ∀ rect ∈ rectangles, rect.Proper) {first : Event} {rest : List Event}
    (events : sortedEvents rectangles = first :: rest) :
    Sweeping (first :: rest) first.x [] [] rectangles := by
  have sorted : (first :: rest).Pairwise fun one other => one.x ≤ other.x := by
    rw [← events]
    have merged : (sortedEvents rectangles).Pairwise fun one other =>
        decide (one.x ≤ other.x) = true :=
      pairwise_mergeSort (by simpa using fun _ _ _ => Int.le_trans)
        (by simpa using fun _ _ => Int.le_total _ _) _
    exact merged.imp of_decide_eq_true
  refine ⟨sorted, ?_, ?_, List.Perm.refl _, List.Pairwise.nil, by simp, proper⟩
  · intro event member
    rcases mem_cons.mp member with rfl | later
    · exact le_refl _
    · exact List.rel_of_pairwise_cons sorted later
  · rw [← events]
    exact (mergeSort_perm _ _).trans (start_stop_perm rectangles)

/-- All that the rectangles cover is ahead of the first edge. -/
theorem ahead_start {rectangles : List ElementBounds} {first : Event} {rest : List Event}
    (sweeping : Sweeping (first :: rest) first.x [] [] rectangles) :
    ahead first.x ([] ++ rectangles) = covered rectangles := by
  apply Finset.filter_true_of_mem
  intro cell member
  obtain ⟨rect, known, inside⟩ := Finset.mem_biUnion.mp member
  have start := sweeping.start_ge (mem_toFinset.mp known)
  have left := (Finset.mem_Ico.mp (Finset.mem_product.mp inside).1).1
  omega

end Run

/-- The sweep finds the number of cells that are covered, or one that has reached the limit and is
no larger; after each event the intervals are ordered, and an end removes an interval equal to that
of its start. -/
theorem union_area_exact (rectangles : List ElementBounds)
    (proper : ∀ rect ∈ rectangles, rect.Proper)
    (fits : ((covered rectangles).card : Int) < 2 ^ 31) :
    calculateUnionArea rectangles none = (covered rectangles).card ∧
      (∀ limit, calculateUnionArea rectangles (some limit) = (covered rectangles).card ∨
        (limit ≤ calculateUnionArea rectangles (some limit) ∧
          calculateUnionArea rectangles (some limit) ≤ (covered rectangles).card)) ∧
      ∀ past event rest, sortedEvents rectangles = past ++ event :: rest →
        Toggles event (activeAfter past) (activeAfter (past ++ [event])) := by
  have swept : ∀ maxArea, calculateUnionArea rectangles maxArea = (covered rectangles).card ∨
      ∃ limit ∈ maxArea, limit ≤ calculateUnionArea rectangles maxArea ∧
        calculateUnionArea rectangles maxArea ≤ (covered rectangles).card := by
    intro maxArea
    unfold calculateUnionArea
    split
    next none =>
      left
      have empty : rectangles = [] := by
        have edges := (mergeSort_perm (rectangles.flatMap fun rect => [rect.start, rect.stop])
          fun first second => decide (first.x ≤ second.x)).trans (start_stop_perm rectangles)
        have length := edges.length_eq
        rw [show List.mergeSort _ _ = [] from none] at length
        simp only [length_nil, length_append, length_map] at length
        exact length_eq_zero_iff.mp (by omega)
      simp [empty, covered]
    next first rest events =>
      have sweeping := sweeping_start proper events
      have area := sweepFrom_area maxArea sweeping (le_refl 0)
      rw [ahead_start sweeping, Int.zero_add] at area
      exact area fits
  refine ⟨?_, ?_, ?_⟩
  · exact (swept none).resolve_right fun ⟨_, limited, _⟩ => nomatch limited
  · intro limit
    rcases swept (some limit) with exact_ | ⟨_, same, under, above⟩
    · exact Or.inl exact_
    · cases same
      exact Or.inr ⟨under, above⟩
  · intro past event rest events
    rw [activeAfter, activeAfter, foldl_append]
    cases past with
    | nil => exact Sweeping.toggles [] (sweeping_start proper events)
    | cons first past => exact Sweeping.toggles (first :: past) (sweeping_start proper events)

/-- Two equal rectangles, and one that touches them. -/
def touching : List ElementBounds := [⟨0, 0, 2, 2⟩, ⟨0, 0, 2, 2⟩, ⟨2, 1, 3, 3⟩]

theorem union_area_exact_touching : calculateUnionArea touching none = 6 := by
  have cells : (covered touching).card = 6 := by decide
  have fits : ((covered touching).card : Int) < 2 ^ 31 := by
    rw [cells]
    decide
  exact (union_area_exact touching (by decide) fits).1.trans (by rw [cells]; rfl)

end AutoMobile.OcclusionGeometry
