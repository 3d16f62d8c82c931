import Mathlib

/- Order-preserving alignment of two sequences of siblings, gaps free. -/
namespace AutoMobile.SequenceAlignment

variable {α : Type} [AddCommMonoid α] [LinearOrder α]

section Alignment

/-- One row of the table, from the row above it. -/
def fillRow (similarity above : Nat → WithBot α) : Nat → WithBot α
  | 0 => 0
  | j + 1 => max (max (above j + similarity j) (above (j + 1))) (fillRow similarity above j)

def alignmentScores (similarity : Nat → Nat → WithBot α) : Nat → Nat → WithBot α
  | 0 => fun _ => 0
  | i + 1 => fillRow (similarity i) (alignmentScores similarity i)

/-- A column of the alignment: an index of each side, or `none` for the `-1` of a gap. -/
abbrev Column := Option Nat × Option Nat

def alignmentDiagonal (score : Nat → Nat → WithBot α) (i j : Nat)
    (similarity : Nat → Nat → WithBot α) : WithBot α :=
  if 0 < i ∧ 0 < j then score (i - 1) (j - 1) + similarity (i - 1) (j - 1) else ⊥

/-- The loop that walks the table back from a cell, in at most `fuel` rounds: the columns in the
order in which they are added. `none` where it leaves the table. -/
def traceback (similarity score : Nat → Nat → WithBot α)
    (preferSkipA : Nat → Nat → WithBot α → WithBot α → Bool) :
    Nat → Nat → Nat → Option (List Column)
  | 0, i, j => if i = 0 ∧ j = 0 then some [] else none
  | fuel + 1, i, j =>
    if i = 0 ∧ j = 0 then some []
    else
      let diagonal := alignmentDiagonal score i j similarity
      let skipA := if 0 < i then score (i - 1) j else ⊥
      let skipB := if 0 < j then score i (j - 1) else ⊥
      let canPair := 0 < i ∧ 0 < j
      if canPair ∧ skipA ≤ diagonal ∧ skipB ≤ diagonal then
        (traceback similarity score preferSkipA fuel (i - 1) (j - 1)).map
          ((some (i - 1), some (j - 1)) :: ·)
      else if preferSkipA i j skipA skipB then
        if i = 0 then none
        else (traceback similarity score preferSkipA fuel (i - 1) j).map ((some (i - 1), none) :: ·)
      else if j = 0 then none
      else (traceback similarity score preferSkipA fuel i (j - 1)).map ((none, some (j - 1)) :: ·)

/-- `slots[index] = slot`, where the column has an index. -/
def assign (slots : List Nat) (slot : Nat) : Option Nat → List Nat
  | none => slots
  | some index => slots.set index slot

/-- The loop over the columns that are left. -/
def numberColumns : List Column → Nat → List Nat × List Nat → List Nat × List Nat
  | [], _, slots => slots
  | column :: rest, slot, slots =>
    numberColumns rest (slot + 1) (assign slots.1 slot column.1, assign slots.2 slot column.2)

def numberAlignmentSlots (n m : Nat) (columns : List Column) : List Nat × List Nat :=
  numberColumns columns.reverse 0 (List.replicate n 0, List.replicate m 0)

/-- The traceback from the last cell. It goes one row or one column back each time. -/
def alignmentColumns (n m : Nat) (similarity : Nat → Nat → WithBot α)
    (preferSkipA : Nat → Nat → WithBot α → WithBot α → Bool) : Option (List Column) :=
  traceback similarity (alignmentScores similarity) preferSkipA (n + m) n m

def alignSequenceSlots (n m : Nat) (similarity : Nat → Nat → WithBot α)
    (preferSkipA : Nat → Nat → WithBot α → WithBot α → Bool) : Option (List Nat × List Nat) :=
  (alignmentColumns n m similarity preferSkipA).map (numberAlignmentSlots n m)

/-- The gap policy that is used where the caller gives none. -/
def defaultPolicy (i j : Nat) (skipA skipB : WithBot α) : Bool :=
  decide (0 < i ∧ (j = 0 ∨ skipB ≤ skipA))

end Alignment

section Statement

/-- The policy skips what is left alone, and follows the larger score. -/
structure Follows (preferSkipA : Nat → Nat → WithBot α → WithBot α → Bool) : Prop where
  aloneA : ∀ i skipA skipB, preferSkipA (i + 1) 0 skipA skipB = true
  aloneB : ∀ j skipA skipB, preferSkipA 0 (j + 1) skipA skipB = false
  largerA : ∀ i j skipA skipB, skipB < skipA → preferSkipA (i + 1) (j + 1) skipA skipB = true
  largerB : ∀ i j skipA skipB, skipA < skipB → preferSkipA (i + 1) (j + 1) skipA skipB = false

omit [AddCommMonoid α] in
theorem follows_default : Follows (defaultPolicy (α := α)) where
  aloneA := by simp [defaultPolicy]
  aloneB := by simp [defaultPolicy]
  largerA := fun _ _ _ _ less => by simp [defaultPolicy, less.le]
  largerB := fun _ _ _ _ less => by simp [defaultPolicy, less]

/-- The indices that columns pair. -/
def pairs (columns : List Column) : Finset (Nat × Nat) :=
  (columns.filterMap fun column => column.1.bind fun i => column.2.map (Prod.mk i)).toFinset

/-- An order-preserving partial matching of the first `n` and the first `m` indices. -/
structure Matching (n m : Nat) (matched : Finset (Nat × Nat)) : Prop where
  within : ∀ pair ∈ matched, pair.1 < n ∧ pair.2 < m
  ordered : ∀ first ∈ matched, ∀ second ∈ matched, first ≠ second →
    (first.1 < second.1 ∧ first.2 < second.2) ∨ (second.1 < first.1 ∧ second.2 < first.2)

def total (similarity : Nat → Nat → WithBot α) (matched : Finset (Nat × Nat)) : WithBot α :=
  ∑ pair ∈ matched, similarity pair.1 pair.2

end Statement

section Scores

variable {similarity : Nat → Nat → WithBot α} {n m i j : Nat} {matched : Finset (Nat × Nat)}

theorem alignmentScores_zero (i : Nat) : alignmentScores similarity i 0 = 0 := by cases i <;> rfl

theorem alignmentScores_nonneg (i j : Nat) : 0 ≤ alignmentScores similarity i j := by
  induction i generalizing j with
  | zero => exact le_refl _
  | succ i ih =>
    cases j with
    | zero => exact le_refl _
    | succ j => exact (ih (j + 1)).trans ((le_max_right _ _).trans (le_max_left _ _))

theorem Matching.erase (matching : Matching (i + 1) (j + 1) matched) (last : (i, j) ∈ matched) :
    Matching i j (matched.erase (i, j)) where
  within := by
    intro pair member
    obtain ⟨other, member⟩ := Finset.mem_erase.mp member
    have inside := matching.within pair member
    rcases matching.ordered pair member (i, j) last other with before | after
    · exact before
    · omega
  ordered first one second two :=
    matching.ordered first (Finset.mem_of_mem_erase one) second (Finset.mem_of_mem_erase two)

/-- Without the last pair, one of the two last indices is not matched. -/
theorem Matching.narrow (matching : Matching (i + 1) (j + 1) matched) (apart : (i, j) ∉ matched) :
    Matching i (j + 1) matched ∨ Matching (i + 1) j matched := by
  by_cases last : ∃ pair ∈ matched, pair.1 = i
  · obtain ⟨pair, member, same⟩ := last
    refine Or.inr ⟨?_, matching.ordered⟩
    intro other inside
    have own := matching.within pair member
    have bounds := matching.within other inside
    have short : pair.2 ≠ j := by
      intro both
      apply apart
      rw [← same, ← both]
      exact member
    by_cases equal : other = pair
    · rw [equal]
      omega
    · have order := matching.ordered other inside pair member equal
      omega
  · refine Or.inl ⟨?_, matching.ordered⟩
    intro pair member
    have bounds := matching.within pair member
    have other : pair.1 ≠ i := fun same => last ⟨pair, member, same⟩
    omega

variable [IsOrderedAddMonoid α]

/-- No matching of a prefix has more than the score of its cell. -/
theorem total_le (matching : Matching i j matched) :
    total similarity matched ≤ alignmentScores similarity i j := by
  induction i generalizing j matched with
  | zero =>
    have nothing : matched = ∅ := Finset.eq_empty_of_forall_notMem fun pair member =>
      Nat.not_lt_zero _ (matching.within pair member).1
    rw [nothing]
    exact alignmentScores_nonneg _ _
  | succ i above =>
    induction j generalizing matched with
    | zero =>
      have nothing : matched = ∅ := Finset.eq_empty_of_forall_notMem fun pair member =>
        Nat.not_lt_zero _ (matching.within pair member).2
      rw [nothing]
      exact alignmentScores_nonneg _ _
    | succ j left =>
      by_cases last : (i, j) ∈ matched
      · have split : total similarity matched =
            total similarity (matched.erase (i, j)) + similarity i j :=
          (Finset.sum_erase_add _ _ last).symm
        rw [split]
        calc total similarity (matched.erase (i, j)) + similarity i j
            ≤ alignmentScores similarity i j + similarity i j :=
              add_le_add_left (above (matching.erase last)) _
          _ ≤ alignmentScores similarity (i + 1) (j + 1) :=
              (le_max_left _ _).trans (le_max_left _ _)
      · rcases matching.narrow last with narrow | narrow
        · exact (above narrow).trans ((le_max_right _ _).trans (le_max_left _ _))
        · exact (left narrow).trans (le_max_right _ _)

end Scores

section Traceback

/-- The columns of a walk back from a cell, the last column first. -/
inductive Path : List Column → Nat → Nat → Prop
  | done : Path [] 0 0
  | pair {columns i j} : Path columns i j → Path ((some i, some j) :: columns) (i + 1) (j + 1)
  | skipA {columns i j} : Path columns i j → Path ((some i, none) :: columns) (i + 1) j
  | skipB {columns i j} : Path columns i j → Path ((none, some j) :: columns) i (j + 1)

variable {columns : List Column} {i j : Nat}

theorem pairs_cons_pair (columns : List Column) (i j : Nat) :
    pairs ((some i, some j) :: columns) = insert (i, j) (pairs columns) := by
  simp [pairs]

theorem pairs_cons_skipA (columns : List Column) (i : Nat) :
    pairs ((some i, none) :: columns) = pairs columns := by
  simp [pairs]

theorem pairs_cons_skipB (columns : List Column) (j : Nat) :
    pairs ((none, some j) :: columns) = pairs columns := by
  simp [pairs]

theorem Path.matching (path : Path columns i j) : Matching i j (pairs columns) := by
  induction path with
  | done => exact ⟨by simp [pairs], by simp [pairs]⟩
  | @pair columns i j _ ih =>
    rw [pairs_cons_pair]
    constructor
    · intro pair member
      rcases Finset.mem_insert.mp member with rfl | member
      · exact ⟨Nat.lt_succ_self i, Nat.lt_succ_self j⟩
      · have inside := ih.within pair member
        omega
    · intro first one second two apart
      rcases Finset.mem_insert.mp one with rfl | one <;>
        rcases Finset.mem_insert.mp two with rfl | two
      · exact absurd rfl apart
      · exact Or.inr (ih.within second two)
      · exact Or.inl (ih.within first one)
      · exact ih.ordered first one second two apart
  | skipA _ ih =>
    rw [pairs_cons_skipA]
    refine ⟨fun pair member => ?_, ih.ordered⟩
    have inside := ih.within pair member
    omega
  | skipB _ ih =>
    rw [pairs_cons_skipB]
    refine ⟨fun pair member => ?_, ih.ordered⟩
    have inside := ih.within pair member
    omega

variable {similarity : Nat → Nat → WithBot α}
  {preferSkipA : Nat → Nat → WithBot α → WithBot α → Bool}

/-- What the traceback finds from a cell: a walk that is worth the score of the cell, and pairs
nothing that may not be paired. -/
structure Traced (similarity : Nat → Nat → WithBot α) (columns : List Column) (i j : Nat) :
    Prop where
  path : Path columns i j
  worth : total similarity (pairs columns) = alignmentScores similarity i j
  allowed : ∀ pair ∈ pairs columns, similarity pair.1 pair.2 ≠ ⊥

theorem Traced.pair (traced : Traced similarity columns i j)
    (aboveLe : alignmentScores similarity i (j + 1) ≤
      alignmentScores similarity i j + similarity i j)
    (leftLe : alignmentScores similarity (i + 1) j ≤
      alignmentScores similarity i j + similarity i j) :
    Traced similarity ((some i, some j) :: columns) (i + 1) (j + 1) := by
  have fresh : (i, j) ∉ pairs columns := by
    intro member
    exact Nat.lt_irrefl i (traced.path.matching.within (i, j) member).1
  refine ⟨traced.path.pair, ?_, ?_⟩
  · have score : alignmentScores similarity (i + 1) (j + 1) =
        alignmentScores similarity i j + similarity i j := by
      show max (max _ _) (alignmentScores similarity (i + 1) j) = _
      rw [max_eq_left aboveLe, max_eq_left leftLe]
    rw [pairs_cons_pair, total, Finset.sum_insert fresh, score, add_comm, ← traced.worth]
    rfl
  · intro pair member
    rw [pairs_cons_pair] at member
    rcases Finset.mem_insert.mp member with rfl | member
    · -- the score of the cell above is at least zero
      intro bottom
      have bound := (alignmentScores_nonneg i (j + 1)).trans aboveLe
      rw [bottom, WithBot.add_bot] at bound
      exact absurd bound (by simp)
    · exact traced.allowed pair member

theorem Traced.skipA (traced : Traced similarity columns i j)
    (score : alignmentScores similarity (i + 1) j = alignmentScores similarity i j) :
    Traced similarity ((some i, none) :: columns) (i + 1) j := by
  refine ⟨traced.path.skipA, ?_, ?_⟩ <;> rw [pairs_cons_skipA]
  · rw [traced.worth, score]
  · exact traced.allowed

theorem Traced.skipB (traced : Traced similarity columns i j)
    (score : alignmentScores similarity i (j + 1) = alignmentScores similarity i j) :
    Traced similarity ((none, some j) :: columns) i (j + 1) := by
  refine ⟨traced.path.skipB, ?_, ?_⟩ <;> rw [pairs_cons_skipB]
  · rw [traced.worth, score]
  · exact traced.allowed

/-- Each round leaves fewer rows and columns, so the traceback ends at the origin. -/
theorem traceback_traced (follows : Follows preferSkipA) {fuel : Nat} (enough : i + j ≤ fuel) :
    ∃ columns, traceback similarity (alignmentScores similarity) preferSkipA fuel i j =
      some columns ∧ Traced similarity columns i j := by
  induction fuel generalizing i j with
  | zero =>
    obtain ⟨rfl, rfl⟩ : i = 0 ∧ j = 0 := by omega
    exact ⟨[], rfl, .done, rfl, by simp [pairs]⟩
  | succ fuel ih =>
    match i, j with
    | 0, 0 => exact ⟨[], rfl, .done, rfl, by simp [pairs]⟩
    | i + 1, 0 =>
      obtain ⟨columns, found, traced⟩ := ih (show i + 0 ≤ fuel by omega)
      refine ⟨_, ?_, traced.skipA (alignmentScores_zero i).symm⟩
      simp [traceback, follows.aloneA, found]
    | 0, j + 1 =>
      obtain ⟨columns, found, traced⟩ := ih (show 0 + j ≤ fuel by omega)
      refine ⟨_, ?_, traced.skipB rfl⟩
      simp [traceback, follows.aloneB, found]
    | i + 1, j + 1 =>
      have score : alignmentScores similarity (i + 1) (j + 1) =
          max (max (alignmentScores similarity i j + similarity i j)
            (alignmentScores similarity i (j + 1))) (alignmentScores similarity (i + 1) j) := rfl
      simp only [traceback, alignmentDiagonal, Nat.succ_ne_zero, Nat.zero_lt_succ, and_self,
        if_true, if_false, true_and, Nat.add_sub_cancel]
      split
      next diagonal =>
        obtain ⟨columns, found, traced⟩ := ih (show i + j ≤ fuel by omega)
        refine ⟨_, ?_, traced.pair diagonal.1 diagonal.2⟩
        rw [found, Option.map_some]
      next gap =>
        split
        next prefers =>
          obtain ⟨columns, found, traced⟩ := ih (show i + (j + 1) ≤ fuel by omega)
          have larger : alignmentScores similarity (i + 1) j ≤
              alignmentScores similarity i (j + 1) := by
            by_contra less
            rw [follows.largerB _ _ _ _ (not_le.mp less)] at prefers
            cases prefers
          have beaten : alignmentScores similarity i j + similarity i j ≤
              alignmentScores similarity i (j + 1) := by
            by_contra less
            exact gap ⟨(not_le.mp less).le, larger.trans (not_le.mp less).le⟩
          refine ⟨_, ?_, traced.skipA ?_⟩
          · rw [found, Option.map_some]
          · rw [score, max_eq_right beaten, max_eq_left larger]
        next prefers =>
          obtain ⟨columns, found, traced⟩ := ih (show i + 1 + j ≤ fuel by omega)
          have larger : alignmentScores similarity i (j + 1) ≤
              alignmentScores similarity (i + 1) j := by
            by_contra less
            exact prefers (follows.largerA _ _ _ _ (not_le.mp less))
          have beaten : alignmentScores similarity i j + similarity i j ≤
              alignmentScores similarity (i + 1) j := by
            by_contra less
            exact gap ⟨larger.trans (not_le.mp less).le, (not_le.mp less).le⟩
          refine ⟨_, ?_, traced.skipB ?_⟩
          · rw [found, Option.map_some]
          · rw [score, max_eq_right (max_le beaten larger)]

end Traceback

section Slots

/-- What the numbers of the columns say of the two sides. -/
structure Numbered (columns : List Column) (slotsA slotsB : List Nat) : Prop where
  increasingA : slotsA.Pairwise (· < ·)
  increasingB : slotsB.Pairwise (· < ·)
  used : ∀ slot, slot ∈ slotsA ∨ slot ∈ slotsB ↔ slot < columns.length
  shared : ∀ i j, (∃ slot, slotsA[i]? = some slot ∧ slotsB[j]? = some slot) ↔ (i, j) ∈ pairs columns

variable {columns : List Column} {slotsA slotsB : List Nat} {n m i j : Nat}

theorem numberColumns_append (first second : List Column) (slot : Nat)
    (slots : List Nat × List Nat) :
    numberColumns (first ++ second) slot slots =
      numberColumns second (slot + first.length) (numberColumns first slot slots) := by
  induction first generalizing slot slots with
  | nil => rfl
  | cons column rest ih =>
    rw [List.cons_append, numberColumns, ih, numberColumns, List.length_cons]
    congr 1
    omega

theorem numberAlignmentSlots_cons (column : Column) (columns : List Column) :
    numberAlignmentSlots n m (column :: columns) =
      (assign (numberAlignmentSlots n m columns).1 columns.length column.1,
        assign (numberAlignmentSlots n m columns).2 columns.length column.2) := by
  rw [numberAlignmentSlots, List.reverse_cons, numberColumns_append, List.length_reverse,
    Nat.zero_add]
  rfl

/-- The first slot that is still zero takes the next number. -/
theorem set_first_free (slots : List Nat) (slot : Nat) (short : i < n) (length : slots.length = i) :
    (slots ++ List.replicate (n - i) 0).set i slot =
      slots ++ [slot] ++ List.replicate (n - (i + 1)) 0 := by
  obtain ⟨left, rfl⟩ : ∃ left, n = i + (left + 1) := ⟨n - (i + 1), by omega⟩
  have rest : i + (left + 1) - (i + 1) = left := by omega
  rw [Nat.add_sub_cancel_left, rest, List.set_append_right _ _ (by omega), length, Nat.sub_self,
    List.replicate_succ, List.set_cons_zero, List.append_assoc]
  rfl

theorem Numbered.below (numbered : Numbered columns slotsA slotsB) {slot : Nat}
    (member : slot ∈ slotsA ∨ slot ∈ slotsB) : slot < columns.length :=
  (numbered.used slot).mp member

theorem pairwise_snoc {slots : List Nat} {slot : Nat} (increasing : slots.Pairwise (· < ·))
    (below : ∀ other ∈ slots, other < slot) : (slots ++ [slot]).Pairwise (· < ·) := by
  rw [List.pairwise_append]
  exact ⟨increasing, List.pairwise_singleton _ _, by simpa using below⟩

theorem getElem?_snoc {slots : List Nat} {slot found : Nat} : (slots ++ [slot])[i]? = some found ↔
      slots[i]? = some found ∨ (i = slots.length ∧ found = slot) := by
  rw [List.getElem?_append]
  split
  next inside =>
    have other : i ≠ slots.length := by omega
    simp [other]
  next outside =>
    have missing : slots[i]? = none := List.getElem?_eq_none (by omega)
    rw [missing, List.getElem?_singleton]
    split
    next last =>
      have same : i = slots.length := by omega
      simp [same, eq_comm]
    next later =>
      have other : i ≠ slots.length := by omega
      simp [other]

/-- The number of a column is below the next, so what is paired is what shares one. -/
theorem Path.numbered (path : Path columns i j) (shortA : i ≤ n) (shortB : j ≤ m) :
    ∃ slotsA slotsB, slotsA.length = i ∧ slotsB.length = j ∧ Numbered columns slotsA slotsB ∧
      numberAlignmentSlots n m columns =
        (slotsA ++ List.replicate (n - i) 0, slotsB ++ List.replicate (m - j) 0) := by
  induction path with
  | done => exact ⟨[], [], rfl, rfl, ⟨.nil, .nil, by simp, by simp [pairs]⟩, rfl⟩
  | @pair columns i j path ih =>
    obtain ⟨slotsA, slotsB, lengthA, lengthB, numbered, same⟩ := ih (by omega) (by omega)
    refine ⟨slotsA ++ [columns.length], slotsB ++ [columns.length], by simp [lengthA],
      by simp [lengthB], ⟨?_, ?_, ?_, ?_⟩, ?_⟩
    · exact pairwise_snoc numbered.increasingA fun _ member => numbered.below (Or.inl member)
    · exact pairwise_snoc numbered.increasingB fun _ member => numbered.below (Or.inr member)
    · intro slot
      rw [List.length_cons, Nat.lt_succ_iff_lt_or_eq, ← numbered.used]
      simp only [List.mem_append, List.mem_singleton]
      tauto
    · intro x y
      rw [pairs_cons_pair, Finset.mem_insert, ← numbered.shared, Prod.mk.injEq]
      simp only [getElem?_snoc, lengthA, lengthB]
      constructor
      · intro ⟨slot, one, two⟩
        rcases one with one | ⟨atA, top⟩ <;> rcases two with two | ⟨atB, top'⟩
        · exact Or.inr ⟨slot, one, two⟩
        · have less := numbered.below (Or.inl (List.mem_of_getElem? one))
          omega
        · have less := numbered.below (Or.inr (List.mem_of_getElem? two))
          omega
        · exact Or.inl ⟨atA, atB⟩
      · rintro (⟨rfl, rfl⟩ | ⟨slot, one, two⟩)
        · exact ⟨columns.length, Or.inr ⟨rfl, rfl⟩, Or.inr ⟨rfl, rfl⟩⟩
        · exact ⟨slot, Or.inl one, Or.inl two⟩
    · rw [numberAlignmentSlots_cons, same]
      exact congrArg₂ Prod.mk (set_first_free slotsA _ shortA lengthA)
        (set_first_free slotsB _ shortB lengthB)
  | @skipA columns i j path ih =>
    obtain ⟨slotsA, slotsB, lengthA, lengthB, numbered, same⟩ := ih (by omega) shortB
    refine ⟨slotsA ++ [columns.length], slotsB, by simp [lengthA], lengthB,
      ⟨?_, numbered.increasingB, ?_, ?_⟩, ?_⟩
    · exact pairwise_snoc numbered.increasingA fun _ member => numbered.below (Or.inl member)
    · intro slot
      rw [List.length_cons, Nat.lt_succ_iff_lt_or_eq, ← numbered.used]
      simp only [List.mem_append, List.mem_singleton]
      tauto
    · intro x y
      rw [pairs_cons_skipA, ← numbered.shared]
      simp only [getElem?_snoc, lengthA]
      constructor
      · intro ⟨slot, one, two⟩
        have less := numbered.below (Or.inr (List.mem_of_getElem? two))
        rcases one with one | ⟨_, top⟩
        · exact ⟨slot, one, two⟩
        · omega
      · exact fun ⟨slot, one, two⟩ => ⟨slot, Or.inl one, two⟩
    · rw [numberAlignmentSlots_cons, same]
      exact congrArg₂ Prod.mk (set_first_free slotsA _ shortA lengthA) rfl
  | @skipB columns i j path ih =>
    obtain ⟨slotsA, slotsB, lengthA, lengthB, numbered, same⟩ := ih shortA (by omega)
    refine ⟨slotsA, slotsB ++ [columns.length], lengthA, by simp [lengthB],
      ⟨numbered.increasingA, ?_, ?_, ?_⟩, ?_⟩
    · exact pairwise_snoc numbered.increasingB fun _ member => numbered.below (Or.inr member)
    · intro slot
      rw [List.length_cons, Nat.lt_succ_iff_lt_or_eq, ← numbered.used]
      simp only [List.mem_append, List.mem_singleton]
      tauto
    · intro x y
      rw [pairs_cons_skipB, ← numbered.shared]
      simp only [getElem?_snoc, lengthB]
      constructor
      · intro ⟨slot, one, two⟩
        have less := numbered.below (Or.inl (List.mem_of_getElem? one))
        rcases two with two | ⟨_, top⟩
        · exact ⟨slot, one, two⟩
        · omega
      · exact fun ⟨slot, one, two⟩ => ⟨slot, one, Or.inl two⟩
    · rw [numberAlignmentSlots_cons, same]
      exact congrArg₂ Prod.mk rfl (set_first_free slotsB _ shortB lengthB)

end Slots

/-- The alignment is found, numbers its columns from the left, and pairs what an order-preserving
matching of the largest total similarity does. -/
theorem alignment_optimal [IsOrderedAddMonoid α] (n m : Nat) (similarity : Nat → Nat → WithBot α)
    (preferSkipA : Nat → Nat → WithBot α → WithBot α → Bool) (follows : Follows preferSkipA) :
    ∃ columns slotsA slotsB, alignmentColumns n m similarity preferSkipA = some columns ∧
      alignSequenceSlots n m similarity preferSkipA = some (slotsA, slotsB) ∧
      slotsA.length = n ∧ slotsB.length = m ∧ Numbered columns slotsA slotsB ∧
      Matching n m (pairs columns) ∧
      (∀ other, Matching n m other → total similarity other ≤ total similarity (pairs columns)) ∧
      ∀ pair ∈ pairs columns, similarity pair.1 pair.2 ≠ ⊥ := by
  obtain ⟨columns, found, traced⟩ : ∃ columns,
      alignmentColumns n m similarity preferSkipA = some columns ∧ Traced similarity columns n m :=
    traceback_traced follows (le_refl (n + m))
  obtain ⟨slotsA, slotsB, lengthA, lengthB, numbered, same⟩ :=
    traced.path.numbered (le_refl n) (le_refl m)
  refine ⟨columns, slotsA, slotsB, found, ?_, lengthA, lengthB, numbered, traced.path.matching,
    ?_, traced.allowed⟩
  · simp only [Nat.sub_self, List.replicate_zero, List.append_nil] at same
    rw [alignSequenceSlots, found, Option.map_some, same]
  · intro other matching
    rw [traced.worth]
    exact total_le matching

/-- The roles of the second pair differ. -/
def similarityInsert (i j : Nat) : WithBot Int :=
  if i = 1 ∧ j = 1 then ⊥ else if i + 1 = j then 2 else 1

theorem alignment_optimal_insert : ∃ columns slotsA slotsB,
      alignmentColumns 2 3 similarityInsert defaultPolicy = some columns ∧
      alignSequenceSlots 2 3 similarityInsert defaultPolicy = some (slotsA, slotsB) ∧
      slotsA.length = 2 ∧ slotsB.length = 3 ∧ Numbered columns slotsA slotsB ∧
      Matching 2 3 (pairs columns) ∧
      (∀ other, Matching 2 3 other →
        total similarityInsert other ≤ total similarityInsert (pairs columns)) ∧
      ∀ pair ∈ pairs columns, similarityInsert pair.1 pair.2 ≠ ⊥ :=
  alignment_optimal 2 3 similarityInsert defaultPolicy follows_default

end AutoMobile.SequenceAlignment
