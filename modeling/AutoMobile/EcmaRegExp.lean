import Mathlib

/- Regular expressions of ECMAScript with the `u` flag: the part of their grammar that has neither
names nor assertions other than `^`, `$` and `(?!…)`, and what their trees match. Patterns and values
are lists of code points. -/
namespace EcmaRegExp

section Syntax

/-- The characters of `SyntaxCharacter`. -/
def syntaxCharacters : List Nat := "^$\\.*+?()[]\x7b\x7d|".toList.map Char.toNat

/-- The letters of `CharacterClassEscape`, properties apart. -/
def classLetters : List Nat := "dDsSwW".toList.map Char.toNat

inductive ClassRange where
  | one (point : Nat)
  | span (first last : Nat)
  | escape (letter : Nat)

inductive Tree where
  | empty
  | append (first rest : Tree)
  | choice (first rest : Tree)
  | lineStart
  | lineEnd
  | notAhead (body : Tree)
  | character (point : Nat)
  | dot
  | classEscape (letter : Nat)
  | characterClass (negated : Bool) (ranges : List ClassRange)
  | group (body : Tree)
  | quantified (body : Tree) (min : Nat) (max : ℕ∞)

/-- The value of a text of digits. -/
def decimal (digits : List Nat) : Nat :=
  digits.foldl (fun value digit => value * 10 + (digit - '0'.toNat)) 0

def DecimalDigits (digits : List Nat) : Prop :=
  digits ≠ [] ∧ ∀ digit ∈ digits, '0'.toNat ≤ digit ∧ digit ≤ '9'.toNat

inductive Quantifier : List Nat → Nat → ℕ∞ → List Nat → Prop where
  | star (rest : List Nat) : Quantifier ('*'.toNat :: rest) 0 ⊤ rest
  | plus (rest : List Nat) : Quantifier ('+'.toNat :: rest) 1 ⊤ rest
  | optional (rest : List Nat) : Quantifier ('?'.toNat :: rest) 0 1 rest
  | exactly {digits : List Nat} (rest : List Nat) (written : DecimalDigits digits) :
      Quantifier ('{'.toNat :: (digits ++ '}'.toNat :: rest)) (decimal digits) (decimal digits) rest
  | atLeast {digits : List Nat} (rest : List Nat) (written : DecimalDigits digits) :
      Quantifier ('{'.toNat :: (digits ++ ','.toNat :: '}'.toNat :: rest)) (decimal digits) ⊤ rest
  | between {digits more : List Nat} (rest : List Nat) (written : DecimalDigits digits)
      (again : DecimalDigits more) (ordered : decimal digits ≤ decimal more) :
      Quantifier ('{'.toNat :: (digits ++ ','.toNat :: (more ++ '}'.toNat :: rest)))
        (decimal digits) (decimal more) rest

/-- The code points of `ControlEscape`, by their letters. -/
def controls : List (Nat × Nat) :=
  [('f'.toNat, 12), ('n'.toNat, 10), ('r'.toNat, 13), ('t'.toNat, 9), ('v'.toNat, 11)]

/-- The value of a hexadecimal digit. -/
def hexDigit (code : Nat) : Option Nat :=
  if '0'.toNat ≤ code ∧ code ≤ '9'.toNat then some (code - '0'.toNat)
  else if 'a'.toNat ≤ code ∧ code ≤ 'f'.toNat then some (code - 'a'.toNat + 10)
  else if 'A'.toNat ≤ code ∧ code ≤ 'F'.toNat then some (code - 'A'.toNat + 10)
  else none

/-- The value of hexadecimal digits. -/
def hexValue (digits : List Nat) : Option Nat :=
  digits.foldlM (fun value digit => (hexDigit digit).map fun last => value * 16 + last) 0

/-- What may stand behind a backslash for one character. -/
inductive CharacterEscape : List Nat → Nat → List Nat → Prop where
  | control {letter point : Nat} (rest : List Nat) (known : (letter, point) ∈ controls) :
      CharacterEscape (letter :: rest) point rest
  | hex {high low point : Nat} (rest : List Nat) (value : hexValue [high, low] = some point) :
      CharacterEscape ('x'.toNat :: high :: low :: rest) point rest
  | unicode {digits : List Nat} {point : Nat} (rest : List Nat) (filled : digits ≠ [])
      (value : hexValue digits = some point) (bound : point ≤ 0x10FFFF) :
      CharacterEscape ('u'.toNat :: '{'.toNat :: (digits ++ '}'.toNat :: rest)) point rest
  | identity {point : Nat} (rest : List Nat) (known : point ∈ syntaxCharacters ∨ point = '/'.toNat) :
      CharacterEscape (point :: rest) point rest

inductive ClassAtomNoDash : List Nat → ClassRange → List Nat → Prop where
  | source {point : Nat} (rest : List Nat)
      (plain : point ≠ '\\'.toNat ∧ point ≠ ']'.toNat ∧ point ≠ '-'.toNat) :
      ClassAtomNoDash (point :: rest) (.one point) rest
  | dash (rest : List Nat) : ClassAtomNoDash ('\\'.toNat :: '-'.toNat :: rest) (.one '-'.toNat) rest
  | classEscape {letter : Nat} (rest : List Nat) (known : letter ∈ classLetters) :
      ClassAtomNoDash ('\\'.toNat :: letter :: rest) (.escape letter) rest
  | escape {points rest : List Nat} {point : Nat} (escaped : CharacterEscape points point rest) :
      ClassAtomNoDash ('\\'.toNat :: points) (.one point) rest

inductive ClassAtom : List Nat → ClassRange → List Nat → Prop where
  | dash (rest : List Nat) : ClassAtom ('-'.toNat :: rest) (.one '-'.toNat) rest
  | other {points rest : List Nat} {atom : ClassRange} (plain : ClassAtomNoDash points atom rest) :
      ClassAtom points atom rest

inductive ClassSymbol where
  | contents
  | nonempty
  | noDash

/-- `ClassContents`, `NonemptyClassRanges` and `NonemptyClassRangesNoDash`. -/
inductive ClassRanges : ClassSymbol → List Nat → List ClassRange → List Nat → Prop where
  | empty (rest : List Nat) : ClassRanges .contents rest [] rest
  | filled {points rest : List Nat} {ranges : List ClassRange}
      (some_ : ClassRanges .nonempty points ranges rest) : ClassRanges .contents points ranges rest
  | last {points rest : List Nat} {atom : ClassRange} (only : ClassAtom points atom rest) :
      ClassRanges .nonempty points [atom] rest
  | first {points behind rest : List Nat} {atom : ClassRange} {ranges : List ClassRange}
      (start : ClassAtom points atom behind) (later : ClassRanges .noDash behind ranges rest) :
      ClassRanges .nonempty points (atom :: ranges) rest
  | span {points behind after rest : List Nat} {low high : Nat} {ranges : List ClassRange}
      (start : ClassAtom points (.one low) ('-'.toNat :: behind))
      (stop : ClassAtom behind (.one high) after) (ordered : low ≤ high)
      (later : ClassRanges .contents after ranges rest) :
      ClassRanges .nonempty points (.span low high :: ranges) rest
  | lastNoDash {points rest : List Nat} {atom : ClassRange} (only : ClassAtom points atom rest) :
      ClassRanges .noDash points [atom] rest
  | firstNoDash {points behind rest : List Nat} {atom : ClassRange} {ranges : List ClassRange}
      (start : ClassAtomNoDash points atom behind) (later : ClassRanges .noDash behind ranges rest) :
      ClassRanges .noDash points (atom :: ranges) rest
  | spanNoDash {points behind after rest : List Nat} {low high : Nat} {ranges : List ClassRange}
      (start : ClassAtomNoDash points (.one low) ('-'.toNat :: behind))
      (stop : ClassAtom behind (.one high) after) (ordered : low ≤ high)
      (later : ClassRanges .contents after ranges rest) :
      ClassRanges .noDash points (.span low high :: ranges) rest

inductive Symbol where
  | disjunction
  | alternative
  | term
  | atom

/-- The phrases of the grammar, by the points from their start on and those left behind them. The
terms of an alternative are put together from the last one on. -/
inductive Derives : Symbol → List Nat → Tree → List Nat → Prop where
  | one {points rest : List Nat} {tree : Tree} (only : Derives .alternative points tree rest) :
      Derives .disjunction points tree rest
  | more {points behind rest : List Nat} {first others : Tree}
      (alternative : Derives .alternative points first ('|'.toNat :: behind))
      (disjunction : Derives .disjunction behind others rest) :
      Derives .disjunction points (.choice first others) rest
  | empty (rest : List Nat) : Derives .alternative rest .empty rest
  | append {points behind rest : List Nat} {first others : Tree}
      (term : Derives .term points first behind)
      (alternative : Derives .alternative behind others rest) :
      Derives .alternative points (.append first others) rest
  | lineStart (rest : List Nat) : Derives .term ('^'.toNat :: rest) .lineStart rest
  | lineEnd (rest : List Nat) : Derives .term ('$'.toNat :: rest) .lineEnd rest
  | notAhead {points rest : List Nat} {tree : Tree}
      (body : Derives .disjunction points tree (')'.toNat :: rest)) :
      Derives .term ('('.toNat :: '?'.toNat :: '!'.toNat :: points) (.notAhead tree) rest
  | plain {points rest : List Nat} {tree : Tree} (atom : Derives .atom points tree rest) :
      Derives .term points tree rest
  | quantified {points behind rest : List Nat} {tree : Tree} {min : Nat} {max : ℕ∞}
      (atom : Derives .atom points tree behind) (text : Quantifier behind min max rest) :
      Derives .term points (.quantified tree min max) rest
  | character {point : Nat} (rest : List Nat) (plain : point ∉ syntaxCharacters) :
      Derives .atom (point :: rest) (.character point) rest
  | dot (rest : List Nat) : Derives .atom ('.'.toNat :: rest) .dot rest
  | classEscape {letter : Nat} (rest : List Nat) (known : letter ∈ classLetters) :
      Derives .atom ('\\'.toNat :: letter :: rest) (.classEscape letter) rest
  | escape {points rest : List Nat} {point : Nat} (escaped : CharacterEscape points point rest) :
      Derives .atom ('\\'.toNat :: points) (.character point) rest
  | characterClass {points rest : List Nat} {ranges : List ClassRange}
      (plain : points.head? ≠ some '^'.toNat)
      (contents : ClassRanges .contents points ranges (']'.toNat :: rest)) :
      Derives .atom ('['.toNat :: points) (.characterClass false ranges) rest
  | negatedClass {points rest : List Nat} {ranges : List ClassRange}
      (contents : ClassRanges .contents points ranges (']'.toNat :: rest)) :
      Derives .atom ('['.toNat :: '^'.toNat :: points) (.characterClass true ranges) rest
  | group {points rest : List Nat} {tree : Tree} (unnamed : points.head? ≠ some '?'.toNat)
      (body : Derives .disjunction points tree (')'.toNat :: rest)) :
      Derives .atom ('('.toNat :: points) (.group tree) rest
  | plainGroup {points rest : List Nat} {tree : Tree}
      (body : Derives .disjunction points tree (')'.toNat :: rest)) :
      Derives .atom ('('.toNat :: '?'.toNat :: ':'.toNat :: points) (.group tree) rest

/-- The source is a pattern, and this is its tree. -/
def Pattern (source : List Nat) (tree : Tree) : Prop := Derives .disjunction source tree []

end Syntax

section Semantics

/-- The characters of `CharacterClassEscape`. White space and line ends are those of the language. -/
def Escaped (letter code : Nat) : Prop :=
  let digit := '0'.toNat ≤ code ∧ code ≤ '9'.toNat
  let word := digit ∨ ('a'.toNat ≤ code ∧ code ≤ 'z'.toNat) ∨ ('A'.toNat ≤ code ∧ code ≤ 'Z'.toNat) ∨
    code = '_'.toNat
  let space := (0x09 ≤ code ∧ code ≤ 0x0D) ∨ code = 0x20 ∨ code = 0xA0 ∨ code = 0x1680 ∨
    (0x2000 ≤ code ∧ code ≤ 0x200A) ∨ code = 0x2028 ∨ code = 0x2029 ∨ code = 0x202F ∨
    code = 0x205F ∨ code = 0x3000 ∨ code = 0xFEFF
  (letter = 'd'.toNat ∧ digit) ∨ (letter = 'D'.toNat ∧ ¬ digit) ∨
  (letter = 'w'.toNat ∧ word) ∨ (letter = 'W'.toNat ∧ ¬ word) ∨
  (letter = 's'.toNat ∧ space) ∨ (letter = 'S'.toNat ∧ ¬ space)

def LineTerminator (code : Nat) : Prop := code = 0x0A ∨ code = 0x0D ∨ code = 0x2028 ∨ code = 0x2029

def ClassRange.Holds (code : Nat) : ClassRange → Prop
  | one point => code = point
  | span first last => first ≤ code ∧ code ≤ last
  | escape letter => Escaped letter code

/-- `CharacterSetMatcher`, forwards. -/
def Reads (value : List Nat) (holds : Nat → Prop) (i j : Nat) : Prop :=
  j = i + 1 ∧ ∃ code, value[i]? = some code ∧ holds code

/-- So many steps, one after the other. -/
def Steps (step : Nat → Nat → Prop) : Nat → Nat → Nat → Prop
  | 0, i, j => i = j
  | count + 1, i, j => ∃ k, step i k ∧ Steps step count k j

/-- `RepeatMatcher`: once the least number of rounds is made, a round that takes nothing fails. -/
inductive Repeats (step : Nat → Nat → Prop) : Nat → ℕ∞ → Nat → Nat → Prop where
  | done (max : ℕ∞) (i : Nat) : Repeats step 0 max i i
  | round {min : Nat} {max : ℕ∞} {i k j : Nat} (left : max ≠ 0) (taken : step i k)
      (moved : min = 0 → k ≠ i) (later : Repeats step (min - 1) (max - 1) k j) :
      Repeats step min max i j

/-- Some run of the matcher of the tree from one position ends at the other. -/
def Tree.Matches (value : List Nat) : Tree → Nat → Nat → Prop
  | empty, i, j => i = j
  | append first rest, i, j => ∃ k, first.Matches value i k ∧ rest.Matches value k j
  | choice first rest, i, j => first.Matches value i j ∨ rest.Matches value i j
  | lineStart, i, j => i = 0 ∧ i = j
  | lineEnd, i, j => i = value.length ∧ i = j
  | notAhead body, i, j => (¬ ∃ k, body.Matches value i k) ∧ i = j
  | character point, i, j => Reads value (· = point) i j
  | dot, i, j => Reads value (¬ LineTerminator ·) i j
  | classEscape letter, i, j => Reads value (Escaped letter) i j
  | characterClass negated ranges, i, j =>
    Reads value (fun code => negated = false ↔ ∃ range ∈ ranges, range.Holds code) i j
  | group body, i, j => body.Matches value i j
  | quantified body min max, i, j => Repeats (body.Matches value) min max i j

/-- `test`: the tree matches somewhere in the value. -/
def Tree.Test (tree : Tree) (value : List Nat) : Prop :=
  ∃ i j, i ≤ value.length ∧ tree.Matches value i j

end Semantics

section Repetition

variable {step other : Nat → Nat → Prop} {min : Nat} {max : ℕ∞} {i j : Nat}

/-- The rounds that take nothing do not matter. -/
theorem repeats_iff (ordered : (min : ℕ∞) ≤ max) :
    Repeats step min max i j ↔ ∃ count : Nat, min ≤ count ∧ (count : ℕ∞) ≤ max ∧ Steps step count i j := by
  constructor
  · intro repeats
    induction repeats with
    | done max i => exact ⟨0, Nat.le_refl _, by simp, rfl⟩
    | @round min max i k j left taken moved later ih =>
      have fewer : ((min - 1 : Nat) : ℕ∞) ≤ max - 1 := by
        rw [ENat.natCast_sub]
        exact tsub_le_tsub_right ordered 1
      obtain ⟨count, least, most, steps⟩ := ih fewer
      refine ⟨count + 1, by omega, ?_, k, taken, steps⟩
      have one : (1 : ℕ∞) ≤ max := Order.one_le_iff_pos.mpr (pos_iff_ne_zero.mpr left)
      calc ((count + 1 : Nat) : ℕ∞) = count + 1 := by push_cast; rfl
        _ ≤ (max - 1) + 1 := by gcongr
        _ = max := tsub_add_cancel_of_le one
  · rintro ⟨count, least, most, steps⟩
    induction count generalizing min max i with
    | zero =>
      have none_ : min = 0 := by omega
      cases steps
      rw [none_]
      exact .done max _
    | succ count ih =>
      obtain ⟨k, taken, later⟩ := steps
      have few : ((count : Nat) : ℕ∞) + 1 ≤ max := by exact_mod_cast most
      have left : max ≠ 0 := by
        intro none_
        rw [none_] at few
        simp at few
      by_cases idle : min = 0 ∧ k = i
      · -- a free round that takes nothing is left out
        rw [idle.2] at later
        refine ih ordered (by omega) ?_ later
        exact le_trans le_self_add few
      · refine .round left taken (fun free same => idle ⟨free, same⟩) ?_
        refine ih ?_ (by omega) ?_ later
        · rw [ENat.natCast_sub]
          exact tsub_le_tsub_right ordered 1
        · exact ENat.le_sub_of_add_le_right ENat.one_ne_top few

theorem Steps.congr (same : ∀ i j, step i j ↔ other i j) {count : Nat} {i j : Nat} :
    Steps step count i j ↔ Steps other count i j := by
  have equal : step = other := funext fun i => funext fun j => propext (same i j)
  rw [equal]

end Repetition

end EcmaRegExp
