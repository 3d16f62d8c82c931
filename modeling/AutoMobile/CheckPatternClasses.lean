import AutoMobile.CheckPatternGrammar

/- What the parser does to escapes and classes: it passes those that the grammar has and fails on all
others. -/
namespace AutoMobile.CheckPattern

open Utf16 List

/-- The character of a member, which may begin or end a range. -/
def ClassItem.point? : ClassItem → Option Nat
  | literal point => some point
  | _ => none

variable {code : Nat}

theorem includes_iff {text : String} :
    includes text code = true ↔ ∃ char ∈ text.toList, char.toNat = code := by
  simp [includes]

/-- The characters of the grammar are all ASCII. -/
theorem includes_basic {text : String} (known : includes text code = true)
    (ascii : (text.toList.all fun char => char.toNat < 0x80) = true) : code < 0x80 := by
  obtain ⟨char, member, same⟩ := includes_iff.mp known
  rw [all_eq_true] at ascii
  rw [← same]
  exact of_decide_eq_true (ascii char member)

theorem escaped_basic (known : includes escaped code = true) : code < 0x80 :=
  includes_basic known (by decide)

theorem shorthands_basic (known : includes shorthands code = true) : code < 0x80 :=
  includes_basic known (by decide)

/-- The escapes that the parser passes. -/
theorem known_basic (known : (includes shorthands code || includes escaped code) = true) :
    code < 0x80 := by
  rcases Bool.or_eq_true_iff.mp known with letter | mark
  · exact shorthands_basic letter
  · exact escaped_basic mark

theorem escaped_not_shorthand (known : includes escaped code = true) :
    includes shorthands code = false := by
  have each : ∀ code < 0x80, includes escaped code = true → includes shorthands code = false := by
    decide
  exact each code (escaped_basic known) known

namespace PatternParser

/-- The code points that the cursor has not passed. -/
def left (parser : PatternParser) : List Nat := codePoints parser.rest

/-- The parser has not failed, and these code points are left. -/
structure At (parser : PatternParser) (points : List Nat) : Prop where
  fine : parser.error = none
  left : parser.left = points

section Peeking

variable {parser next : PatternParser} {code : Nat} {rest : List Nat}

theorem peek_zero : parser.peek 0 = parser.rest.head?.map UInt16.toNat := by
  rw [peek, head?_eq_getElem?]

theorem peek_iff (basic : code < 0xD800) :
    parser.peek 0 = some code ↔ parser.left.head? = some code := by
  rw [peek_zero, left, head_codePoints basic]

theorem left_of_peek (basic : code < 0xD800) (first : parser.peek 0 = some code) :
    parser.left = code :: (parser.advance 1).left := by
  rw [peek_zero] at first
  exact codePoints_drop basic first

theorem advance_left (basic : code < 0xD800) (first : parser.left = code :: rest) :
    (parser.advance 1).left = rest := by
  have peeked : parser.peek 0 = some code := by
    rw [peek_iff basic, first]
    rfl
  rw [left_of_peek basic peeked] at first
  injection first

theorem peek_one : parser.peek 1 = (parser.advance 1).peek 0 := by simp [peek, advance]

@[simp] theorem advance_error (count : Nat) : (parser.advance count).error = parser.error := rfl

@[simp] theorem advance_variableQuantifiers (count : Nat) :
    (parser.advance count).variableQuantifiers = parser.variableQuantifiers := rfl

theorem At.advance (ready : At parser (code :: rest)) (basic : code < 0xD800) :
    At (parser.advance 1) rest := ⟨ready.fine, advance_left basic ready.left⟩

theorem rest_of_left_nil : parser.left = [] ↔ parser.rest = [] := codePoints_eq_nil

@[simp] theorem failIf_false (message : Message) : parser.failIf false message = parser := rfl

@[simp] theorem failIf_rest (condition : Bool) (message : Message) :
    (parser.failIf condition message).rest = parser.rest := by
  unfold failIf
  split <;> rfl

@[simp] theorem failIf_variableQuantifiers (condition : Bool) (message : Message) :
    (parser.failIf condition message).variableQuantifiers = parser.variableQuantifiers := by
  unfold failIf
  split <;> rfl

@[simp] theorem failIf_isVariable (condition : Bool) (message : Message) :
    (parser.failIf condition message).isVariable = parser.isVariable := by
  unfold failIf
  split <;> rfl

theorem failIf_fine {condition : Bool} {message : Message}
    (fine : (parser.failIf condition message).error = none) :
    condition = false ∧ parser.error = none := by
  cases condition with
  | false => exact ⟨rfl, fine⟩
  | true =>
    have both := Option.or_eq_none_iff.mp fine
    cases both.2

end Peeking

section Escapes

variable {parser next : PatternParser} {read : Option Nat} {point : Nat} {points : List Nat}

theorem escapeError_eq_none {char : UInt16} : escapeError char = none ↔
      (includes shorthands char.toNat || includes escaped char.toNat) = true := by
  constructor
  · intro quiet
    unfold escapeError at quiet
    dsimp only at quiet
    split at quiet
    · cases quiet
    · split at quiet
      · cases quiet
      · split at quiet
        · cases quiet
        · split at quiet
          · cases quiet
          · rename_i known
            simpa [Bool.or_eq_true, or_iff_not_imp_left] using known
  · intro known
    have apart : (isDigit char.toNat || char.toNat = 'k'.toNat) = false ∧
        (char.toNat = 'p'.toNat || char.toNat = 'P'.toNat) = false ∧
        (char.toNat = 'b'.toNat || char.toNat = 'B'.toNat) = false := by
      have small := known_basic known
      revert known
      generalize char.toNat = code at small
      revert small
      revert code
      decide +kernel
    unfold escapeError
    dsimp only
    rw [apart.1, apart.2.1, apart.2.2]
    rw [Bool.or_eq_true_iff] at known
    rcases known with letter | mark
    · simp [letter]
    · simp [mark]

theorem escape_sound (ran : parser.escape = (next, read)) (fine : next.error = none) :
    parser.error = none ∧ ∃ code, parser.left = code :: next.left ∧
      (includes shorthands code || includes escaped code) = true ∧
      read = (if includes shorthands code then none else some code) ∧
      next.variableQuantifiers = parser.variableQuantifiers := by
  unfold escape at ran
  split at ran
  · cases ran
    have both := Option.or_eq_none_iff.mp fine
    cases both.2
  · rename_i char rest shape
    cases ran
    have both := Option.or_eq_none_iff.mp fine
    have known := escapeError_eq_none.mp both.2
    have small := known_basic known
    refine ⟨both.1, char.toNat, ?_, known, rfl, rfl⟩
    rw [left, shape, codePoints_plain (by omega)]
    rfl

theorem escape_complete {code : Nat} (ready : At parser (code :: points))
    (known : (includes shorthands code || includes escaped code) = true) :
    ∃ next, parser.escape = (next, if includes shorthands code then none else some code) ∧
      At next points ∧ next.variableQuantifiers = parser.variableQuantifiers := by
  have small := known_basic known
  obtain ⟨unit, rest, shape, _, same, behind⟩ := codePoints_eq_cons_basic ready.left (by omega)
  rw [← same] at known
  have quiet := escapeError_eq_none.mpr known
  refine ⟨{ parser with rest, error := parser.error.or (escapeError unit) }, ?_, ⟨?_, behind⟩, rfl⟩
  · unfold escape
    rw [shape, ← same]
  · rw [ready.fine, quiet]
    rfl

theorem escape_length (parser : PatternParser) : parser.escape.1.rest.length ≤ parser.rest.length := by
  unfold escape
  split
  · exact Nat.le_refl _
  · rename_i char rest shape
    rw [shape]
    exact Nat.le_succ _

end Escapes

section Members

variable {parser next : PatternParser} {read : Option Nat} {item : ClassItem}
  {points behind : List Nat}

theorem classAtom_backslash {char : UInt16} {rest : Text} (shape : parser.rest = char :: rest)
    (slash : char.toNat = '\\'.toNat) : parser.classAtom = escape { parser with rest } := by
  unfold classAtom
  rw [shape]
  exact if_pos slash

theorem classAtom_single {char : UInt16} {rest : Text} (shape : parser.rest = char :: rest)
    (slash : char.toNat ≠ '\\'.toNat) (apart : ¬ PairAt char rest) :
    parser.classAtom = ({ parser with rest }, some char.toNat) := by
  have small := char.toNat_lt
  unfold classAtom
  rw [shape]
  dsimp only
  rw [if_neg slash, codePointAt_single apart]
  exact if_neg (by omega)

theorem classAtom_pair {high low : UInt16} {rest : Text} (shape : parser.rest = high :: low :: rest)
    (first : High high.toNat) (second : Low low.toNat) :
    parser.classAtom = ({ parser with rest }, some (paired high.toNat low.toNat)) := by
  have slash : high.toNat ≠ '\\'.toNat := by
    intro same
    rw [same] at first
    revert first
    decide
  unfold classAtom advance
  rw [shape]
  dsimp only
  rw [if_neg slash, codePointAt_pair first second]
  exact if_pos (paired_gt _ _)

theorem classAtom_sound (ran : parser.classAtom = (next, read)) (fine : next.error = none)
    (there : parser.rest ≠ []) (inside : parser.peek 0 ≠ some ']'.toNat) :
    parser.error = none ∧ ∃ item, ClassAtom parser.left item next.left ∧ read = item.point? ∧
      next.variableQuantifiers = parser.variableQuantifiers := by
  cases shape : parser.rest with
  | nil => exact absurd shape there
  | cons char rest =>
    by_cases slash : char.toNat = '\\'.toNat
    · rw [classAtom_backslash shape slash] at ran
      obtain ⟨before, code, text, known, given, same⟩ := escape_sound ran fine
      have whole : parser.left = '\\'.toNat :: code :: next.left := by
        rw [left, shape, codePoints_plain (by rw [slash]; decide), slash]
        exact congrArg _ text
      rw [whole]
      refine ⟨before, ?_⟩
      by_cases letter : includes shorthands code = true
      · rw [if_pos letter] at given
        exact ⟨_, .shorthand _ letter, given, same⟩
      · rw [if_neg letter] at given
        rw [Bool.or_eq_true_iff, or_iff_right letter] at known
        exact ⟨_, .escape _ known, given, same⟩
    · by_cases pair : PairAt char rest
      · obtain ⟨low, later, follows, high, second⟩ := pair
        rw [follows] at shape
        rw [classAtom_pair shape high second] at ran
        cases ran
        have beyond := paired_gt char.toNat low.toNat
        have whole : parser.left = paired char.toNat low.toNat :: codePoints later := by
          rw [left, shape, codePoints_pair high second]
        rw [whole]
        have plain : ∀ code < 0x80, paired char.toNat low.toNat ≠ code := fun code small => by omega
        exact ⟨fine, _, .literal _ ⟨plain _ (by decide), plain _ (by decide)⟩, rfl, rfl⟩
      · rw [classAtom_single shape slash pair] at ran
        cases ran
        have bracket : char.toNat ≠ ']'.toNat := by
          intro same
          apply inside
          rw [peek_zero, shape]
          exact congrArg some same
        have whole : parser.left = char.toNat :: codePoints rest := by
          rw [left, shape, codePoints_single pair]
        rw [whole]
        exact ⟨fine, _, .literal _ ⟨slash, bracket⟩, rfl, rfl⟩

theorem classAtom_complete (derived : ClassAtom points item behind) (ready : At parser points) :
    ∃ next, parser.classAtom = (next, item.point?) ∧ At next behind ∧
      next.variableQuantifiers = parser.variableQuantifiers := by
  cases derived with
  | @literal point rest plain =>
    rcases codePoints_eq_cons ready.left with ⟨unit, rest, shape, apart, same, left⟩ |
        ⟨high, low, rest, shape, first, second, same, left⟩
    · rw [← same] at plain ⊢
      exact ⟨_, classAtom_single shape plain.1 apart, ⟨ready.fine, left⟩, rfl⟩
    · rw [← same]
      exact ⟨_, classAtom_pair shape first second, ⟨ready.fine, left⟩, rfl⟩
  | @escape point rest known =>
    obtain ⟨unit, later, shape, _, same, left⟩ := codePoints_eq_cons_basic ready.left (by decide)
    obtain ⟨next, ran, reached, kept⟩ := @escape_complete { parser with rest := later } _ _
      ⟨ready.fine, left⟩ (by rw [known, Bool.or_true])
    rw [escaped_not_shorthand known] at ran
    exact ⟨next, (classAtom_backslash shape same).trans ran, reached, kept⟩
  | @shorthand letter rest known =>
    obtain ⟨unit, later, shape, _, same, left⟩ := codePoints_eq_cons_basic ready.left (by decide)
    obtain ⟨next, ran, reached, kept⟩ := @escape_complete { parser with rest := later } _ _
      ⟨ready.fine, left⟩ (by rw [known, Bool.true_or])
    rw [if_pos known] at ran
    exact ⟨next, (classAtom_backslash shape same).trans ran, reached, kept⟩

theorem classAtom_length (there : parser.rest ≠ []) :
    parser.classAtom.1.rest.length < parser.rest.length := by
  cases shape : parser.rest with
  | nil => exact absurd shape there
  | cons char rest =>
    by_cases slash : char.toNat = '\\'.toNat
    · rw [classAtom_backslash shape slash]
      exact Nat.lt_succ_of_le (escape_length _)
    · by_cases pair : PairAt char rest
      · obtain ⟨low, later, follows, high, second⟩ := pair
        rw [follows] at shape
        rw [classAtom_pair shape high second, follows, length_cons, length_cons]
        dsimp only
        omega
      · rw [classAtom_single shape slash pair]
        exact Nat.lt_succ_self _

theorem classAtom_nil (empty : parser.rest = []) : parser.classAtom = (parser, none) := by
  unfold classAtom
  rw [empty]

end Members

section Rounds

variable {parser next : PatternParser} {points behind rest : List Nat} {items : List ClassItem}

theorem rangeSign_iff :
    (parser.peek 0 = some '-'.toNat ∧ parser.peek 1 ≠ some ']'.toNat) ↔ RangeSign parser.left := by
  constructor
  · rintro ⟨hyphen, open_⟩
    refine ⟨_, left_of_peek (by decide) hyphen, fun closed => open_ ?_⟩
    rw [peek_one, peek_iff (by decide)]
    exact closed
  · rintro ⟨behind, shape, open_⟩
    have hyphen : parser.peek 0 = some '-'.toNat := by
      rw [peek_iff (by decide), shape]
      rfl
    refine ⟨hyphen, fun closed => open_ ?_⟩
    rw [peek_one, peek_iff (by decide), advance_left (by decide) shape] at closed
    exact closed

variable {start : Option Nat} {added : List ClassItem}

theorem rangeError_eq_none {last : Option Nat} :
    rangeError start last = none ↔ ∃ low high, start = some low ∧ last = some high ∧ low ≤ high := by
  cases start with
  | none => simp [rangeError]
  | some low =>
    cases last with
    | none => simp [rangeError]
    | some high => simp [rangeError]

theorem point_eq_some {item : ClassItem} {point : Nat} (same : some point = item.point?) :
    item = .literal point := by
  cases item with
  | literal other =>
    injection same with equal
    rw [equal]
  | range low high => cases same
  | shorthand letter => cases same

theorem classRound_plain (first : parser.classAtom = (next, start))
    (apart : ¬ RangeSign next.left) : parser.classRound = next := by
  unfold classRound
  rw [first]
  exact if_neg fun sign => apart (rangeSign_iff.mp sign)

theorem classRound_range {later : PatternParser} {last : Option Nat}
    (first : parser.classAtom = (next, start)) (sign : RangeSign next.left)
    (second : (next.advance 1).classAtom = (later, last)) :
    parser.classRound = { later with error := later.error.or (rangeError start last) } := by
  unfold classRound
  rw [first]
  dsimp only
  rw [if_pos (rangeSign_iff.mpr sign), second]

/-- What one round passes. -/
inductive Passes (points behind : List Nat) : List ClassItem → Prop where
  | single {item : ClassItem} (first : ClassAtom points item behind) (apart : ¬ RangeSign behind) :
      Passes points behind [item]
  | range {low high : Nat} {middle : List Nat}
      (first : ClassAtom points (.literal low) ('-'.toNat :: middle))
      (sign : RangeSign ('-'.toNat :: middle)) (last : ClassAtom middle (.literal high) behind)
      (ordered : low ≤ high) : Passes points behind [.range low high]

theorem Passes.cons (passes : Passes points behind added) (later : ClassItems behind items rest) :
    ClassItems points (added ++ items) rest ∧ added.length = 1 := by
  cases passes with
  | single first apart => exact ⟨.single first apart later, rfl⟩
  | range first sign last ordered => exact ⟨.range first sign last ordered later, rfl⟩

theorem classRound_sound (fine : parser.classRound.error = none) (there : parser.rest ≠ [])
    (inside : parser.peek 0 ≠ some ']'.toNat) :
    parser.error = none ∧ parser.classRound.variableQuantifiers = parser.variableQuantifiers ∧
      ∃ added, Passes parser.left parser.classRound.left added := by
  cases first : parser.classAtom with
  | mk middle start =>
    by_cases sign : RangeSign middle.left
    · cases second : (middle.advance 1).classAtom with
      | mk later last =>
        rw [classRound_range first sign second] at fine ⊢
        have both := Option.or_eq_none_iff.mp fine
        obtain ⟨low, high, starts, ends, ordered⟩ := rangeError_eq_none.mp both.2
        obtain ⟨rest, shape, closed⟩ := sign
        have behind := advance_left (by decide) shape
        have more : (middle.advance 1).rest ≠ [] := by
          intro empty
          rw [classAtom_nil empty, ends] at second
          cases second
        have open_ : (middle.advance 1).peek 0 ≠ some ']'.toNat := by
          rw [ne_eq, peek_iff (by decide), behind]
          exact closed
        obtain ⟨passed, item, member, given, same⟩ := classAtom_sound second both.1 more open_
        obtain ⟨before, head, leading, taken, kept⟩ := classAtom_sound first passed there inside
        rw [ends] at given
        rw [starts] at taken
        rw [point_eq_some given, behind] at member
        rw [point_eq_some taken, shape] at leading
        exact ⟨before, same.trans kept, _, .range leading ⟨rest, rfl, closed⟩ member ordered⟩
    · rw [classRound_plain first sign] at fine ⊢
      obtain ⟨before, item, member, _, kept⟩ := classAtom_sound first fine there inside
      exact ⟨before, kept, _, .single member sign⟩

theorem classRound_complete (passes : Passes points behind added) (ready : At parser points) :
    At parser.classRound behind ∧
      parser.classRound.variableQuantifiers = parser.variableQuantifiers := by
  cases passes with
  | single first apart =>
    obtain ⟨next, ran, reached, kept⟩ := classAtom_complete first ready
    rw [← reached.left] at apart
    rw [classRound_plain ran apart]
    exact ⟨reached, kept⟩
  | @range low high middle first sign last ordered =>
    obtain ⟨next, ran, reached, kept⟩ := classAtom_complete first ready
    obtain ⟨later, second, ended, same⟩ := classAtom_complete last (reached.advance (by decide))
    rw [← reached.left] at sign
    have quiet : rangeError (some low) (some high) = none :=
      rangeError_eq_none.mpr ⟨low, high, rfl, rfl, ordered⟩
    rw [classRound_range ran sign second]
    refine ⟨⟨?_, ended.left⟩, same.trans kept⟩
    show later.error.or (rangeError (some low) (some high)) = none
    rw [quiet, ended.fine]
    rfl

theorem classRound_length (there : parser.rest ≠ []) :
    parser.classRound.rest.length < parser.rest.length := by
  cases first : parser.classAtom with
  | mk next start =>
    have shorter := classAtom_length there
    rw [first] at shorter
    by_cases sign : RangeSign next.left
    · cases second : (next.advance 1).classAtom with
      | mk later last =>
        rw [classRound_range first sign second]
        have dropped : (next.advance 1).rest.length ≤ next.rest.length := by
          rw [advance, length_drop]
          omega
        have fewer : later.rest.length ≤ (next.advance 1).rest.length := by
          by_cases more : (next.advance 1).rest = []
          · rw [classAtom_nil more] at second
            cases second
            exact Nat.le_refl _
          · have fewer := classAtom_length more
            rw [second] at fewer
            exact Nat.le_of_lt fewer
        dsimp only at shorter ⊢
        omega
    · rw [classRound_plain first sign]
      exact shorter

theorem classRounds_sound {fuel count total : Nat}
    (ran : classRounds fuel parser count = some (next, total)) (fine : next.error = none) :
    parser.error = none ∧ next.variableQuantifiers = parser.variableQuantifiers ∧
      (next.rest = [] ∨ next.peek 0 = some ']'.toNat) ∧
      ∃ items, ClassItems parser.left items next.left ∧ total = count + items.length := by
  induction fuel generalizing parser count with
  | zero => cases ran
  | succ fuel ih =>
    rw [classRounds] at ran
    split at ran
    · rename_i more
      obtain ⟨passed, kept, ended, items, members, counted⟩ := ih ran
      obtain ⟨before, same, added, passes⟩ := classRound_sound passed more.1 more.2.1
      obtain ⟨all, single⟩ := passes.cons members
      refine ⟨before, kept.trans same, ended, _, all, ?_⟩
      rw [counted, length_append, single]
      omega
    · rename_i done
      cases ran
      refine ⟨fine, rfl, ?_, [], .nil _, rfl⟩
      by_contra open_
      rw [not_or] at open_
      exact done ⟨open_.1, open_.2, fine⟩

theorem classAtom_there {item : ClassItem} (derived : ClassAtom points item behind) :
    points ≠ [] ∧ points.head? ≠ some ']'.toNat := by
  cases derived with
  | literal rest plain =>
    refine ⟨cons_ne_nil _ _, fun same => plain.2 ?_⟩
    injection same
  | escape rest known => exact ⟨cons_ne_nil _ _, by simp⟩
  | shorthand rest known => exact ⟨cons_ne_nil _ _, by simp⟩

theorem Passes.there (passes : Passes points behind added) :
    points ≠ [] ∧ points.head? ≠ some ']'.toNat := by
  cases passes with
  | single first apart => exact classAtom_there first
  | range first sign last ordered => exact classAtom_there first

theorem classRounds_step (passes : Passes points behind added) (ready : At parser points)
    (fuel count : Nat) :
    classRounds (fuel + 1) parser count = classRounds fuel parser.classRound (count + 1) := by
  obtain ⟨filled, open_⟩ := passes.there
  rw [classRounds]
  apply if_pos
  refine ⟨?_, ?_, ready.fine⟩
  · rw [ne_eq, ← rest_of_left_nil, ready.left]
    exact filled
  · rw [ne_eq, peek_iff (by decide), ready.left]
    exact open_

/-- The loop passes these members and stops at what is left behind them. -/
def RoundsTo (points : List Nat) (items : List ClassItem) (rest : List Nat) : Prop :=
  ∀ parser fuel count, At parser points → parser.rest.length < fuel →
    ∃ next, classRounds fuel parser count = some (next, count + items.length) ∧ At next rest ∧
      next.variableQuantifiers = parser.variableQuantifiers

theorem roundsTo_nil (closed : rest.head? = some ']'.toNat) : RoundsTo rest [] rest := by
  intro parser fuel count ready enough
  cases fuel with
  | zero => omega
  | succ fuel =>
    refine ⟨parser, ?_, ready, rfl⟩
    rw [classRounds]
    apply if_neg
    rintro ⟨_, open_, _⟩
    apply open_
    rw [peek_iff (by decide), ready.left]
    exact closed

theorem Passes.roundsTo (passes : Passes points behind added) (single : added.length = 1)
    (later : RoundsTo behind items rest) :
    RoundsTo points (added ++ items) rest := by
  intro parser fuel count ready enough
  cases fuel with
  | zero => omega
  | succ fuel =>
    have there : parser.rest ≠ [] := by
      rw [ne_eq, ← rest_of_left_nil, ready.left]
      exact passes.there.1
    have shorter := classRound_length there
    obtain ⟨passed, kept⟩ := classRound_complete passes ready
    obtain ⟨next, ran, reached, same⟩ := later _ fuel (count + 1) passed (by omega)
    refine ⟨next, ?_, reached, same.trans kept⟩
    rw [classRounds_step passes ready, ran, length_append, single, Nat.add_assoc]

theorem classRounds_complete (members : ClassItems points items rest)
    (closed : rest.head? = some ']'.toNat) : RoundsTo points items rest := by
  induction members with
  | nil rest => exact roundsTo_nil closed
  | single first apart later ih => exact (Passes.single first apart).roundsTo rfl (ih closed)
  | range first sign last ordered later ih =>
    exact (Passes.range first sign last ordered).roundsTo rfl (ih closed)

theorem classRounds_total {fuel count : Nat} (enough : parser.rest.length < fuel) :
    ∃ next total, classRounds fuel parser count = some (next, total) ∧
      next.rest.length ≤ parser.rest.length := by
  induction fuel generalizing parser count with
  | zero => omega
  | succ fuel ih =>
    rw [classRounds]
    split
    · rename_i more
      have shorter := classRound_length more.1
      obtain ⟨next, total, ran, fewer⟩ := @ih parser.classRound (count + 1) (by omega)
      exact ⟨next, total, ran, by omega⟩
    · exact ⟨parser, count, rfl, Nat.le_refl _⟩

end Rounds

section Whole

variable {parser next : PatternParser} {points rest : List Nat} {items : List ClassItem}

/-- The parser past the sign that negates a class. -/
def pastCaret (parser : PatternParser) : PatternParser :=
  if parser.peek 0 = some '^'.toNat then parser.advance 1 else parser

/-- The parser past the end of a class. -/
def closeClass (parser : PatternParser) (count : Nat) : PatternParser :=
  (if parser.peek 0 ≠ some ']'.toNat then parser.fail .unclosedClass
    else parser.advance 1).failIf (count = 0) .emptyClass

theorem characterClass_eq :
    parser.characterClass = (classRounds (parser.pastCaret.rest.length + 1) parser.pastCaret 0).map
      fun result => result.1.closeClass result.2 := by
  unfold characterClass pastCaret
  dsimp only
  cases classRounds _ _ 0 <;> rfl

theorem closeClass_fine {count : Nat} (fine : (parser.closeClass count).error = none) :
    parser.error = none ∧ count ≠ 0 ∧ parser.left = ']'.toNat :: (parser.closeClass count).left ∧
      (parser.closeClass count).variableQuantifiers = parser.variableQuantifiers := by
  obtain ⟨filled, passed⟩ := failIf_fine fine
  rw [decide_eq_false_iff_not] at filled
  unfold closeClass at fine ⊢
  rw [decide_eq_false filled, failIf_false] at fine ⊢
  by_cases closed : parser.peek 0 = some ']'.toNat
  · rw [if_neg (not_not_intro closed)] at fine ⊢
    exact ⟨fine, filled, left_of_peek (by decide) closed, rfl⟩
  · rw [if_pos closed] at fine
    have both := Option.or_eq_none_iff.mp fine
    cases both.2

theorem closeClass_complete {count : Nat} (ready : At parser (']'.toNat :: rest))
    (filled : count ≠ 0) : At (parser.closeClass count) rest ∧
      (parser.closeClass count).variableQuantifiers = parser.variableQuantifiers := by
  have closed : parser.peek 0 = some ']'.toNat := by
    rw [peek_iff (by decide), ready.left]
    rfl
  unfold closeClass
  rw [decide_eq_false filled, failIf_false, if_neg (not_not_intro closed)]
  exact ⟨ready.advance (by decide), rfl⟩

/-- The class of which the text is left, the opening bracket apart. -/
def ClassText (points : List Nat) (tree : Tree) (rest : List Nat) : Prop :=
  ∃ items, items ≠ [] ∧
    ((points.head? ≠ some '^'.toNat ∧ ClassItems points items (']'.toNat :: rest) ∧
        tree = .characterClass false items) ∨
      ∃ behind, points = '^'.toNat :: behind ∧ ClassItems behind items (']'.toNat :: rest) ∧
        tree = .characterClass true items)

theorem characterClass_sound (ran : parser.characterClass = some next) (fine : next.error = none) :
    parser.error = none ∧ next.variableQuantifiers = parser.variableQuantifiers ∧
      ∃ tree, ClassText parser.left tree next.left := by
  rw [characterClass_eq, Option.map_eq_some_iff] at ran
  obtain ⟨⟨middle, total⟩, looped, ended⟩ := ran
  dsimp only at ended
  rw [← ended] at fine ⊢
  obtain ⟨passed, filled, text, same⟩ := closeClass_fine fine
  obtain ⟨before, kept, _, items, members, counted⟩ := classRounds_sound looped passed
  rw [text] at members
  have some_ : items ≠ [] := by
    intro empty
    apply filled
    rw [counted, empty]
    rfl
  unfold pastCaret at before kept members
  by_cases caret : parser.peek 0 = some '^'.toNat
  · rw [if_pos caret] at before kept members
    refine ⟨before, same.trans kept, _, items, some_, .inr ⟨_, ?_, members, rfl⟩⟩
    exact left_of_peek (by decide) caret
  · rw [if_neg caret] at before kept members
    refine ⟨before, same.trans kept, _, items, some_, .inl ⟨?_, members, rfl⟩⟩
    rw [peek_iff (by decide)] at caret
    exact caret

theorem characterClass_complete {tree : Tree} (text : ClassText points tree rest)
    (ready : At parser points) :
    ∃ next, parser.characterClass = some next ∧ At next rest ∧
      next.variableQuantifiers = parser.variableQuantifiers := by
  obtain ⟨items, filled, shape⟩ := text
  obtain ⟨behind, members, reached, kept⟩ : ∃ behind,
      ClassItems behind items (']'.toNat :: rest) ∧ At parser.pastCaret behind ∧
        parser.pastCaret.variableQuantifiers = parser.variableQuantifiers := by
    unfold pastCaret
    rcases shape with ⟨plain, members, _⟩ | ⟨behind, negated, members, _⟩
    · rw [if_neg (by rw [peek_iff (by decide), ready.left]; exact plain)]
      exact ⟨points, members, ready, rfl⟩
    · rw [negated] at ready
      rw [if_pos (by rw [peek_iff (by decide), ready.left]; rfl)]
      exact ⟨behind, members, ready.advance (by decide), rfl⟩
  obtain ⟨middle, looped, ended, same⟩ :=
    classRounds_complete members rfl _ (parser.pastCaret.rest.length + 1) 0 reached (by omega)
  have some_ : 0 + items.length ≠ 0 := by
    rw [Nat.zero_add, ne_eq, length_eq_zero_iff]
    exact filled
  obtain ⟨closed, unchanged⟩ := closeClass_complete ended some_
  refine ⟨_, ?_, closed, unchanged.trans (same.trans kept)⟩
  rw [characterClass_eq, looped]
  rfl

theorem closeClass_length (count : Nat) :
    (parser.closeClass count).rest.length ≤ parser.rest.length := by
  unfold closeClass
  rw [failIf_rest]
  split
  · exact Nat.le_refl _
  · rw [advance, length_drop]
    omega

theorem characterClass_total (parser : PatternParser) : ∃ next, parser.characterClass = some next ∧
    next.rest.length ≤ parser.rest.length := by
  obtain ⟨middle, total, looped, fewer⟩ := @classRounds_total parser.pastCaret _ 0
    (Nat.lt_succ_self _)
  refine ⟨middle.closeClass total, ?_, ?_⟩
  · rw [characterClass_eq, looped]
    rfl
  · have closed := middle.closeClass_length total
    have past : parser.pastCaret.rest.length ≤ parser.rest.length := by
      unfold pastCaret
      split
      · rw [advance, length_drop]
        omega
      · exact Nat.le_refl _
    omega

end Whole

end PatternParser

end AutoMobile.CheckPattern
