import AutoMobile.CheckPatternClasses

/- What the parser does to quantifiers: it passes those that the grammar has and fails on all others. -/
namespace AutoMobile.CheckPattern

open Utf16 List

/-- Whether a quantifier may begin here. -/
def startsQuantifier (points : List Nat) : Bool := points.head?.any (includes "?*+\x7b")

namespace PatternParser

section Digits

variable {text rest first behind : Text} {digits points : List Nat} {unit : UInt16}

theorem isDigit_basic {code : Nat} (digit : isDigit code = true) : code < 0x80 := by
  unfold isDigit at digit
  simp only [Bool.and_eq_true, decide_eq_true_iff] at digit
  have top : '9'.toNat < 0x80 := by decide
  omega

theorem codePoints_digits (all : ∀ digit ∈ first, isDigit digit.toNat = true) :
    codePoints (first ++ rest) = first.map UInt16.toNat ++ codePoints rest := by
  induction first with
  | nil => rfl
  | cons digit later ih =>
    have small := isDigit_basic (all digit mem_cons_self)
    rw [cons_append, codePoints_plain (by omega), map_cons, cons_append,
      ih fun other member => all other (mem_cons_of_mem _ member)]

/-- Digits are units. -/
theorem digits_of_codePoints (all : ∀ digit ∈ digits, isDigit digit = true)
    (read : codePoints text = digits ++ points) :
    ∃ first rest, text = first ++ rest ∧ first.map UInt16.toNat = digits ∧
      codePoints rest = points := by
  induction digits generalizing text with
  | nil => exact ⟨[], text, rfl, rfl, read⟩
  | cons digit later ih =>
    have small := isDigit_basic (all digit mem_cons_self)
    obtain ⟨unit, behind, shape, _, same, left⟩ := codePoints_eq_cons_basic read (by omega)
    obtain ⟨first, rest, parts, spelled, more⟩ :=
      ih (fun other member => all other (mem_cons_of_mem _ member)) left
    refine ⟨unit :: first, rest, ?_, ?_, more⟩
    · rw [shape, parts]
      rfl
    · rw [map_cons, same, spelled]

theorem digitsOf_all : ∀ digit ∈ digitsOf text, isDigit digit.toNat = true := by
  have all : (digitsOf text).all (fun char => isDigit char.toNat) = true := all_takeWhile
  rw [all_eq_true] at all
  exact all

theorem digitsOf_append_drop (text : Text) : digitsOf text ++ text.drop (digitsOf text).length = text :=
  prefix_iff_eq_append.mp (List.takeWhile_prefix _)

theorem digitsOf_stop (all : ∀ digit ∈ first, isDigit digit.toNat = true)
    (stop : isDigit unit.toNat = false) : digitsOf (first ++ unit :: rest) = first := by
  unfold digitsOf
  rw [takeWhile_append_of_pos all, takeWhile_cons_of_neg (by simp [stop]), append_nil]

end Digits

section Bounded

variable {text behind : Text} {first : Text} {second : Option Text} {quantifier : Quantifier}
  {digits more points rest : List Nat}

/-- What the regular expression of a bounded quantifier matches, as code points. -/
def BoundedText (text : List Nat) (first : List Nat) (second : Option (List Nat))
    (rest : List Nat) : Prop :=
  Digits first ∧ match second with
    | none => text = '{'.toNat :: (first ++ '}'.toNat :: rest)
    | some more => (∀ digit ∈ more, isDigit digit = true) ∧
        text = '{'.toNat :: (first ++ ','.toNat :: (more ++ '}'.toNat :: rest))

theorem digits_toNat (all : ∀ digit ∈ first, isDigit digit.toNat = true) :
    ∀ digit ∈ first.map UInt16.toNat, isDigit digit = true := by
  intro digit member
  rw [mem_map] at member
  obtain ⟨unit, inside, same⟩ := member
  rw [← same]
  exact all unit inside

/-- Digits and what follows them. -/
theorem codePoints_digitsOf (text : Text) : codePoints text =
    (digitsOf text).map UInt16.toNat ++ codePoints (text.drop (digitsOf text).length) := by
  conv_lhs => rw [← digitsOf_append_drop text]
  exact codePoints_digits digitsOf_all

theorem boundedMatch_sound (found : boundedMatch text = some (first, second, behind)) :
    BoundedText (codePoints text) (first.map UInt16.toNat) (second.map (List.map UInt16.toNat))
      (codePoints behind) := by
  unfold boundedMatch at found
  dsimp only at found
  split at found
  · cases found
  · rename_i brace
    rw [not_or, not_not] at brace
    have opened := codePoints_drop (by decide) brace.1
    rw [codePoints_digitsOf (text.drop 1)] at opened
    have digits : Digits ((digitsOf (text.drop 1)).map UInt16.toNat) :=
      ⟨fun empty => brace.2 (map_eq_nil_iff.mp empty), digits_toNat digitsOf_all⟩
    split at found
    · rename_i closed
      cases found
      rw [codePoints_drop (by decide) closed] at opened
      exact ⟨digits, opened⟩
    · split at found
      · rename_i comma
        cases found
        rw [codePoints_drop (by decide) comma.1, codePoints_digitsOf (List.drop 1 (List.drop _ _)),
          codePoints_drop (by decide) comma.2] at opened
        exact ⟨digits, digits_toNat digitsOf_all, opened⟩
      · cases found

theorem boundedMatch_complete {more : Option (List Nat)}
    (shape : BoundedText (codePoints text) digits more rest) :
    ∃ first second behind, boundedMatch text = some (first, second, behind) ∧
      first.map UInt16.toNat = digits ∧ second.map (List.map UInt16.toNat) = more ∧
      codePoints behind = rest := by
  obtain ⟨written, shape⟩ := shape
  have filled {first : Text} (spelled : first.map UInt16.toNat = digits) : first ≠ [] := by
    intro empty
    rw [empty] at spelled
    exact written.1 spelled.symm
  have spelt {first : Text} {digits : List Nat} (all : ∀ digit ∈ digits, isDigit digit = true)
      (spelled : first.map UInt16.toNat = digits) :
      ∀ digit ∈ first, isDigit digit.toNat = true := by
    intro digit member
    apply all
    rw [← spelled]
    exact mem_map_of_mem member
  cases more with
  | none =>
    obtain ⟨brace, later, open_, _, opened, inner⟩ := codePoints_eq_cons_basic shape (by decide)
    obtain ⟨first, tail, parts, spelled, closing⟩ := digits_of_codePoints written.2 inner
    obtain ⟨close, behind, ended, _, closed, left⟩ := codePoints_eq_cons_basic closing (by decide)
    have taken : digitsOf later = first := by
      rw [parts, ended]
      exact digitsOf_stop (spelt written.2 spelled) (by rw [closed]; decide)
    refine ⟨first, none, behind, ?_, spelled, rfl, left⟩
    unfold boundedMatch
    simp only [open_, head?_cons, Option.map_some, opened, drop_succ_cons, drop_zero,
      taken]
    rw [if_neg (by simp [filled spelled]), parts, drop_left, ended]
    exact if_pos (congrArg some closed)
  | some more =>
    obtain ⟨again, shape⟩ := shape
    obtain ⟨brace, later, open_, _, opened, inner⟩ := codePoints_eq_cons_basic shape (by decide)
    obtain ⟨first, tail, parts, spelled, middle⟩ := digits_of_codePoints written.2 inner
    obtain ⟨comma, inside, parted, _, separated, inner⟩ :=
      codePoints_eq_cons_basic middle (by decide)
    obtain ⟨second, end_, others, repeated, closing⟩ := digits_of_codePoints again inner
    obtain ⟨close, behind, ended, _, closed, left⟩ := codePoints_eq_cons_basic closing (by decide)
    have taken : digitsOf later = first := by
      rw [parts, parted]
      exact digitsOf_stop (spelt written.2 spelled) (by rw [separated]; decide)
    have kept : digitsOf inside = second := by
      rw [others, ended]
      exact digitsOf_stop (spelt again repeated) (by rw [closed]; decide)
    refine ⟨first, some second, behind, ?_, spelled, congrArg some repeated, left⟩
    unfold boundedMatch
    simp only [open_, head?_cons, Option.map_some, opened, drop_succ_cons, drop_zero,
      taken]
    rw [if_neg (by simp [filled spelled]), parts, drop_left, parted]
    simp only [head?_cons, Option.map_some, separated, drop_succ_cons, drop_zero, kept]
    rw [if_neg (by decide), others, drop_left, ended]
    exact if_pos ⟨trivial, congrArg some closed⟩

theorem boundError_eq_none {min : Nat} {max : ℕ∞} :
    boundError min max = none ↔ min ≤ maxBound ∧ (max = ⊤ ∨ max ≤ maxBound) ∧ min ≤ max := by
  unfold boundError
  split
  · rename_i large
    simp only [reduceCtorEq, false_iff, not_and]
    intro small bounded
    rcases large with large | ⟨finite, large⟩
    · omega
    · rcases bounded with endless | bounded
      · exact absurd endless finite
      · exact absurd bounded (not_le.mpr large)
  · rename_i small
    rw [not_or, not_and, not_lt] at small
    split
    · rename_i crossed
      simp only [reduceCtorEq, false_iff, not_and]
      intro _ _ ordered
      exact absurd ordered (not_le.mpr crossed)
    · rename_i ordered
      simp only [true_iff]
      refine ⟨small.1, ?_, not_lt.mp ordered⟩
      by_cases endless : max = ⊤
      · exact Or.inl endless
      · exact Or.inr (not_lt.mp (small.2 endless))

/-- A match whose bounds are in order is a quantifier of the grammar. -/
theorem quantifierText_of_bounded
    (shape : BoundedText points (first.map UInt16.toNat) (second.map (List.map UInt16.toNat)) rest)
    (quiet : boundError (number (first.map UInt16.toNat))
      (maximumOf (number (first.map UInt16.toNat)) second) = none) :
    QuantifierText points ⟨number (first.map UInt16.toNat),
      maximumOf (number (first.map UInt16.toNat)) second⟩ rest := by
  obtain ⟨small, bounded, ordered⟩ := boundError_eq_none.mp quiet
  obtain ⟨written, shape⟩ := shape
  cases second with
  | none =>
    rw [shape]
    exact .exactly rest written small
  | some more =>
    obtain ⟨again, shape⟩ := shape
    rw [shape]
    cases more with
    | nil => exact .atLeast rest written small
    | cons digit others =>
      rcases bounded with endless | bounded
      · cases endless
      · exact .between rest written ⟨cons_ne_nil _ _, again⟩ (Nat.cast_le.mp ordered)
          (Nat.cast_le.mp bounded)

theorem bounded_of_quantifierText (text : QuantifierText ('{'.toNat :: points) quantifier rest) :
    ∃ digits more, BoundedText ('{'.toNat :: points) digits more rest ∧
      quantifier.min = number digits ∧
      (∀ second : Option Text, second.map (List.map UInt16.toNat) = more →
        maximumOf (number digits) second = quantifier.max) ∧
      boundError quantifier.min quantifier.max = none := by
  cases text with
  | @exactly digits _ written bound =>
    refine ⟨digits, none, ⟨written, rfl⟩, rfl, fun second same => ?_, ?_⟩
    · rw [Option.map_eq_none_iff] at same
      rw [same]
      rfl
    · exact boundError_eq_none.mpr ⟨bound, Or.inr (Nat.cast_le.mpr bound), le_refl _⟩
  | @atLeast digits _ written bound =>
    refine ⟨digits, some [], ⟨written, by simp, rfl⟩, rfl, fun second same => ?_, ?_⟩
    · obtain ⟨more, given, empty⟩ := Option.map_eq_some_iff.mp same
      rw [given, map_eq_nil_iff.mp empty]
      rfl
    · exact boundError_eq_none.mpr ⟨bound, Or.inl rfl, le_top⟩
  | @between digits more _ written again ordered bound =>
    refine ⟨digits, some more, ⟨written, again.2, rfl⟩, rfl, fun second same => ?_, ?_⟩
    · obtain ⟨units, given, spelled⟩ := Option.map_eq_some_iff.mp same
      rw [given]
      cases units with
      | nil => exact absurd spelled.symm again.1
      | cons unit others =>
        show ((number ((unit :: others).map UInt16.toNat) : Nat) : ℕ∞) = _
        rw [spelled]
    · exact boundError_eq_none.mpr
        ⟨by dsimp only; omega, Or.inr (Nat.cast_le.mpr bound), Nat.cast_le.mpr ordered⟩

end Bounded

section Reading

variable {parser next : PatternParser} {read : Option ℕ∞} {quantifier : Quantifier}
  {points rest : List Nat}

theorem boundedQuantifier_sound (ran : parser.boundedQuantifier = (next, read))
    (fine : next.error = none) : parser.error = none ∧
      next.variableQuantifiers = parser.variableQuantifiers ∧
      ∃ quantifier, read = some quantifier.max ∧ QuantifierText parser.left quantifier next.left ∧
        next.isVariable = decide quantifier.IsVariable := by
  unfold boundedQuantifier at ran
  split at ran
  · cases ran
    have both := Option.or_eq_none_iff.mp fine
    cases both.2
  · rename_i first second behind found
    cases ran
    have both := Option.or_eq_none_iff.mp fine
    exact ⟨both.1, rfl, _, rfl, quantifierText_of_bounded (boundedMatch_sound found) both.2, rfl⟩

theorem boundedQuantifier_complete (text : QuantifierText ('{'.toNat :: points) quantifier rest)
    (ready : At parser ('{'.toNat :: points)) :
    ∃ next, parser.boundedQuantifier = (next, some quantifier.max) ∧ At next rest ∧
      next.variableQuantifiers = parser.variableQuantifiers ∧
      next.isVariable = decide quantifier.IsVariable := by
  obtain ⟨digits, more, shape, least, most, quiet⟩ := bounded_of_quantifierText text
  rw [← ready.left] at shape
  obtain ⟨first, second, behind, found, spelled, others, left⟩ := boundedMatch_complete shape
  have max := most second others
  unfold boundedQuantifier
  rw [found]
  dsimp only
  rw [spelled, max, ← least, quiet]
  exact ⟨_, rfl, ⟨by rw [ready.fine]; rfl, left⟩, rfl, rfl⟩

/-- The quantifier read, before it is counted. -/
def readQuantifier (parser : PatternParser) : PatternParser × Option ℕ∞ :=
  let plain := { parser with isVariable := false }
  if parser.peek 0 = some '?'.toNat then ({ plain.advance 1 with isVariable := true }, some 1)
  else if parser.peek 0 = some '*'.toNat ∨ parser.peek 0 = some '+'.toNat then
    ({ plain.advance 1 with isVariable := true }, some ⊤)
  else if parser.peek 0 = some '{'.toNat then plain.boundedQuantifier
  else (plain, none)

/-- The quantifier counted, and what follows it checked. -/
def countQuantifier (parser : PatternParser) (max : Option ℕ∞) : PatternParser × Option ℕ∞ :=
  let counted := parser.countVariableQuantifier
  if max.isSome then
    ({ counted with error := counted.error.or (followError (counted.peek 0)) }, max)
  else (counted, max)

theorem quantifier_eq :
    parser.quantifier = countQuantifier parser.readQuantifier.1 parser.readQuantifier.2 := rfl

theorem isVariable_optional : Quantifier.IsVariable ⟨0, 1⟩ := by
  show ((0 : Nat) : ℕ∞) < 1
  exact_mod_cast Nat.zero_lt_one

theorem isVariable_endless (min : Nat) : Quantifier.IsVariable ⟨min, ⊤⟩ := ENat.natCast_lt_top min

theorem readQuantifier_sound (ran : parser.readQuantifier = (next, read))
    (fine : next.error = none) : parser.error = none ∧
      next.variableQuantifiers = parser.variableQuantifiers ∧
      ((read = none ∧ next.rest = parser.rest ∧ next.isVariable = false) ∨
        ∃ quantifier, read = some quantifier.max ∧ QuantifierText parser.left quantifier next.left ∧
          next.isVariable = decide quantifier.IsVariable) := by
  unfold readQuantifier at ran
  dsimp only at ran
  split at ran
  · rename_i mark
    cases ran
    rw [left_of_peek (by decide) mark]
    exact ⟨fine, rfl, Or.inr ⟨⟨0, 1⟩, rfl, .optional _, (decide_eq_true isVariable_optional).symm⟩⟩
  · split at ran
    · rename_i mark
      cases ran
      rcases mark with mark | mark
      · rw [left_of_peek (by decide) mark]
        exact ⟨fine, rfl, Or.inr ⟨⟨0, ⊤⟩, rfl, .star _,
          (decide_eq_true (isVariable_endless 0)).symm⟩⟩
      · rw [left_of_peek (by decide) mark]
        exact ⟨fine, rfl, Or.inr ⟨⟨1, ⊤⟩, rfl, .plus _,
          (decide_eq_true (isVariable_endless 1)).symm⟩⟩
    · split at ran
      · obtain ⟨before, same, quantifier, given, text, varies⟩ := boundedQuantifier_sound ran fine
        exact ⟨before, same, Or.inr ⟨quantifier, given, text, varies⟩⟩
      · cases ran
        exact ⟨fine, rfl, Or.inl ⟨rfl, rfl, rfl⟩⟩

theorem readQuantifier_none (ready : At parser points) (plain : startsQuantifier points = false) :
    parser.readQuantifier = ({ parser with isVariable := false }, none) := by
  have other {code : Nat} (basic : code < 0xD800) (mark : includes "?*+\x7b" code = true) :
      parser.peek 0 ≠ some code := by
    intro first
    rw [peek_iff basic, ready.left] at first
    rw [startsQuantifier, first, Option.any_some, mark] at plain
    cases plain
  unfold readQuantifier
  dsimp only
  rw [if_neg (other (by decide) (by decide)), if_neg, if_neg (other (by decide) (by decide))]
  rw [not_or]
  exact ⟨other (by decide) (by decide), other (by decide) (by decide)⟩

theorem readQuantifier_complete (text : QuantifierText points quantifier rest)
    (ready : At parser points) :
    ∃ next, parser.readQuantifier = (next, some quantifier.max) ∧ At next rest ∧
      next.variableQuantifiers = parser.variableQuantifiers ∧
      next.isVariable = decide quantifier.IsVariable := by
  have head {code : Nat} {behind : List Nat} (basic : code < 0xD800)
      (same : points = code :: behind) : parser.peek 0 = some code := by
    rw [peek_iff basic, ready.left, same]
    rfl
  have bounded {behind : List Nat} (same : points = '{'.toNat :: behind) :
      parser.readQuantifier = { parser with isVariable := false }.boundedQuantifier := by
    have first := head (by decide) same
    unfold readQuantifier
    dsimp only
    rw [first, if_neg (by decide), if_neg (by decide), if_pos rfl]
  have started : At { parser with isVariable := false } points := ⟨ready.fine, ready.left⟩
  have reads {behind : List Nat} (same : points = '{'.toNat :: behind) :
      ∃ next, parser.readQuantifier = (next, some quantifier.max) ∧ At next rest ∧
        next.variableQuantifiers = parser.variableQuantifiers ∧
        next.isVariable = decide quantifier.IsVariable := by
    rw [same] at text started
    rw [bounded same]
    exact boundedQuantifier_complete text started
  cases text with
  | optional rest =>
    refine ⟨_, if_pos (head (by decide) rfl),
      ⟨ready.fine, (started.advance (by decide)).left⟩, rfl, ?_⟩
    exact (decide_eq_true isVariable_optional).symm
  | star rest =>
    have first := head (by decide) rfl
    refine ⟨{ { parser with isVariable := false }.advance 1 with isVariable := true }, ?_,
      ⟨ready.fine, (started.advance (by decide)).left⟩, rfl, (decide_eq_true (isVariable_endless 0)).symm⟩
    unfold readQuantifier
    dsimp only
    rw [first, if_neg (by decide), if_pos (Or.inl rfl)]
  | plus rest =>
    have first := head (by decide) rfl
    refine ⟨{ { parser with isVariable := false }.advance 1 with isVariable := true }, ?_,
      ⟨ready.fine, (started.advance (by decide)).left⟩, rfl, (decide_eq_true (isVariable_endless 1)).symm⟩
    unfold readQuantifier
    dsimp only
    rw [first, if_neg (by decide), if_pos (Or.inr rfl)]
  | exactly rest written bound => exact reads rfl
  | atLeast rest written bound => exact reads rfl
  | between rest written again ordered bound => exact reads rfl

end Reading

section Counting

variable {parser next : PatternParser} {max read : Option ℕ∞} {quantifier : Quantifier}
  {points rest : List Nat}

theorem countVariableQuantifier_fine (fine : parser.countVariableQuantifier.error = none) :
    parser.error = none ∧
      (parser.isVariable = true → parser.variableQuantifiers + 1 ≤ maxVariable) := by
  unfold countVariableQuantifier at fine
  split at fine
  · obtain ⟨few, before⟩ := failIf_fine fine
    refine ⟨before, fun _ => ?_⟩
    rw [decide_eq_false_iff_not, not_lt] at few
    exact few
  · rename_i fixed
    exact ⟨fine, fun varies => absurd varies fixed⟩

@[simp] theorem countVariableQuantifier_rest :
    parser.countVariableQuantifier.rest = parser.rest := by
  unfold countVariableQuantifier
  split
  · exact failIf_rest _ _
  · rfl

@[simp] theorem countVariableQuantifier_isVariable :
    parser.countVariableQuantifier.isVariable = parser.isVariable := by
  unfold countVariableQuantifier
  split
  · exact failIf_isVariable _ _
  · rfl

@[simp] theorem countVariableQuantifier_count : parser.countVariableQuantifier.variableQuantifiers =
      parser.variableQuantifiers + if parser.isVariable then 1 else 0 := by
  unfold countVariableQuantifier
  split
  · exact failIf_variableQuantifiers _ _
  · rfl

theorem followError_eq_none (ready : parser.left = points) :
    followError (parser.peek 0) = none ↔ startsQuantifier points = false := by
  have marks : ∀ code < 0x80, followError (some code) = none ↔ includes "?*+\x7b" code = false := by
    decide
  have far {code : Nat} (large : 0x80 ≤ code) : includes "?*+\x7b" code = false := by
    rw [Bool.eq_false_iff]
    intro known
    have small : code < 0x80 := includes_basic known (by decide)
    omega
  have quiet {code : Nat} (large : 0x80 ≤ code) : followError (some code) = none := by
    have apart {char : Nat} (small : char < 0x80) : code ≠ char := by omega
    unfold followError
    dsimp only
    rw [if_neg (apart (by decide)), if_neg (apart (by decide)), if_neg]
    rw [not_or]
    exact ⟨apart (by decide), apart (by decide)⟩
  rw [startsQuantifier, ← ready]
  cases shape : parser.left with
  | nil =>
    rw [rest_of_left_nil] at shape
    simp [peek, shape, followError]
  | cons code behind =>
    by_cases small : code < 0x80
    · have first : parser.peek 0 = some code := by
        rw [peek_iff (by omega), shape]
        rfl
      rw [first]
      exact marks code small
    · rw [head?_cons, Option.any_some, far (by omega)]
      simp only [iff_true]
      cases first : parser.peek 0 with
      | none => rfl
      | some unit =>
        apply quiet
        by_contra less
        rw [peek_iff (by omega), shape] at first
        injection first with same
        omega

theorem quantifier_sound (ran : parser.quantifier = (next, read)) (fine : next.error = none) :
    parser.error = none ∧ ((read = none ∧ next.rest = parser.rest ∧ next.isVariable = false ∧
          next.variableQuantifiers = parser.variableQuantifiers) ∨
        ∃ quantifier, read = some quantifier.max ∧ QuantifierText parser.left quantifier next.left ∧
          next.isVariable = decide quantifier.IsVariable ∧
          next.variableQuantifiers =
            parser.variableQuantifiers + (if quantifier.IsVariable then 1 else 0) ∧
          (quantifier.IsVariable → next.variableQuantifiers ≤ maxVariable)) := by
  rw [quantifier_eq] at ran
  cases first : parser.readQuantifier with
  | mk middle max =>
    rw [first] at ran
    dsimp only at ran
    unfold countQuantifier at ran
    dsimp only at ran
    split at ran
    · rename_i present
      cases ran
      obtain ⟨passed, _⟩ := Option.or_eq_none_iff.mp fine
      obtain ⟨before, few⟩ := countVariableQuantifier_fine passed
      obtain ⟨start, kept, plain | ⟨quantifier, given, text, varies⟩⟩ :=
        readQuantifier_sound first before
      · rw [plain.1] at present
        cases present
      · refine ⟨start, Or.inr ⟨quantifier, given, ?_, ?_, ?_, ?_⟩⟩
        · rw [left] at text
          rw [left, left, countVariableQuantifier_rest]
          exact text
        · exact countVariableQuantifier_isVariable.trans varies
        · show middle.countVariableQuantifier.variableQuantifiers = _
          rw [countVariableQuantifier_count, kept, varies]
          simp only [decide_eq_true_eq]
        · intro choice
          rw [varies, decide_eq_true choice] at few
          show middle.countVariableQuantifier.variableQuantifiers ≤ _
          rw [countVariableQuantifier_count, varies, decide_eq_true choice, if_pos rfl]
          exact few rfl
    · rename_i absent
      cases ran
      obtain ⟨before, _⟩ := countVariableQuantifier_fine fine
      obtain ⟨start, kept, plain | ⟨quantifier, given, text, varies⟩⟩ :=
        readQuantifier_sound first before
      · refine ⟨start, Or.inl ⟨plain.1, ?_, ?_, ?_⟩⟩
        · rw [countVariableQuantifier_rest]
          exact plain.2.1
        · rw [countVariableQuantifier_isVariable]
          exact plain.2.2
        · rw [countVariableQuantifier_count, plain.2.2, kept]
          rfl
      · rw [given] at absent
        exact absurd rfl absent

theorem quantifier_none (ready : At parser points) (plain : startsQuantifier points = false) :
    parser.quantifier = ({ parser with isVariable := false }, none) := by
  rw [quantifier_eq, readQuantifier_none ready plain]
  rfl

theorem quantifier_complete (text : QuantifierText points quantifier rest)
    (ready : At parser points) (plain : startsQuantifier rest = false)
    (few : parser.variableQuantifiers + (if quantifier.IsVariable then 1 else 0) ≤ maxVariable) :
    ∃ next, parser.quantifier = (next, some quantifier.max) ∧ At next rest ∧
      next.isVariable = decide quantifier.IsVariable ∧
      next.variableQuantifiers =
        parser.variableQuantifiers + (if quantifier.IsVariable then 1 else 0) := by
  obtain ⟨middle, ran, reached, kept, varies⟩ := readQuantifier_complete text ready
  have counted : middle.countVariableQuantifier.variableQuantifiers =
      parser.variableQuantifiers + (if quantifier.IsVariable then 1 else 0) := by
    rw [countVariableQuantifier_count, kept, varies]
    simp only [decide_eq_true_eq]
  have passed : middle.countVariableQuantifier.error = none := by
    unfold countVariableQuantifier
    split
    · rename_i choice
      rw [varies, decide_eq_true_eq] at choice
      rw [if_pos choice] at few
      unfold failIf
      dsimp only
      rw [kept, if_neg]
      · exact reached.fine
      · rw [decide_eq_true_eq]
        omega
    · exact reached.fine
  have there : middle.countVariableQuantifier.left = rest := by
    rw [left, countVariableQuantifier_rest]
    exact reached.left
  have quiet := (followError_eq_none there).mpr plain
  rw [quantifier_eq, ran]
  refine ⟨{ middle.countVariableQuantifier with
    error := middle.countVariableQuantifier.error.or
      (followError (middle.countVariableQuantifier.peek 0)) }, rfl, ⟨?_, there⟩, ?_, counted⟩
  · dsimp only
    rw [passed, quiet]
    rfl
  · exact countVariableQuantifier_isVariable.trans varies

theorem boundedQuantifier_length (parser : PatternParser) :
    parser.boundedQuantifier.1.rest.length ≤ parser.rest.length := by
  unfold boundedQuantifier
  split
  · exact Nat.le_refl _
  · rename_i first second behind found
    unfold boundedMatch at found
    dsimp only at found
    split at found
    · cases found
    · split at found
      · cases found
        simp only [length_drop]
        omega
      · split at found
        · cases found
          simp only [length_drop]
          omega
        · cases found

theorem quantifier_length (parser : PatternParser) : parser.quantifier.1.rest.length ≤ parser.rest.length := by
  have read : parser.readQuantifier.1.rest.length ≤ parser.rest.length := by
    unfold readQuantifier
    dsimp only
    split
    · simp only [advance, length_drop]
      omega
    · split
      · simp only [advance, length_drop]
        omega
      · split
        · exact boundedQuantifier_length { parser with isVariable := false }
        · exact Nat.le_refl _
  rw [quantifier_eq]
  unfold countQuantifier
  dsimp only
  split
  · rw [countVariableQuantifier_rest]
    exact read
  · rw [countVariableQuantifier_rest]
    exact read

end Counting

end PatternParser

end AutoMobile.CheckPattern
