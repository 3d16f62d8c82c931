import AutoMobile.CheckPattern
import AutoMobile.EcmaRegExp

/- The grammar of the portable patterns, over the code points of a pattern, and what its trees match.
A phrase is stated by the points from its start on and the points that are left behind it. -/
namespace AutoMobile.CheckPattern

open Utf16

structure Quantifier where
  min : Nat
  max : ℕ∞
deriving DecidableEq

/-- A quantifier that leaves a choice. -/
def Quantifier.IsVariable (quantifier : Quantifier) : Prop := quantifier.min < quantifier.max

instance (quantifier : Quantifier) : Decidable quantifier.IsVariable := by
  unfold Quantifier.IsVariable
  infer_instance

inductive ClassItem where
  | literal (point : Nat)
  | range (first last : Nat)
  | shorthand (letter : Nat)

inductive Tree where
  | empty
  | append (first rest : Tree)
  | choice (first rest : Tree)
  | start
  | stop
  | literal (point : Nat)
  | any
  | shorthand (letter : Nat)
  | characterClass (negated : Bool) (items : List ClassItem)
  | group (body : Tree)
  | repeated (body : Tree) (quantifier : Quantifier)

section Grammar

/-- The characters with a meaning of their own outside a class. -/
def syntaxCharacters : String := "^$\\.*+?()[]\x7b\x7d|"

/-- One or more digits; they may begin with zeros. -/
def Digits (digits : List Nat) : Prop := digits ≠ [] ∧ ∀ digit ∈ digits, isDigit digit = true

inductive QuantifierText : List Nat → Quantifier → List Nat → Prop where
  | optional (rest : List Nat) : QuantifierText ('?'.toNat :: rest) ⟨0, 1⟩ rest
  | star (rest : List Nat) : QuantifierText ('*'.toNat :: rest) ⟨0, ⊤⟩ rest
  | plus (rest : List Nat) : QuantifierText ('+'.toNat :: rest) ⟨1, ⊤⟩ rest
  | exactly {digits : List Nat} (rest : List Nat) (written : Digits digits)
      (bound : number digits ≤ maxBound) :
      QuantifierText ('{'.toNat :: (digits ++ '}'.toNat :: rest))
        ⟨number digits, number digits⟩ rest
  | atLeast {digits : List Nat} (rest : List Nat) (written : Digits digits)
      (bound : number digits ≤ maxBound) :
      QuantifierText ('{'.toNat :: (digits ++ ','.toNat :: '}'.toNat :: rest))
        ⟨number digits, ⊤⟩ rest
  | between {digits more : List Nat} (rest : List Nat) (written : Digits digits)
      (again : Digits more) (ordered : number digits ≤ number more)
      (bound : number more ≤ maxBound) :
      QuantifierText
        ('{'.toNat :: (digits ++ ','.toNat :: (more ++ '}'.toNat :: rest)))
        ⟨number digits, number more⟩ rest

/-- One member of a class. -/
inductive ClassAtom : List Nat → ClassItem → List Nat → Prop where
  | literal {point : Nat} (rest : List Nat) (plain : point ≠ '\\'.toNat ∧ point ≠ ']'.toNat) :
      ClassAtom (point :: rest) (.literal point) rest
  | escape {point : Nat} (rest : List Nat) (known : includes escaped point = true) :
      ClassAtom ('\\'.toNat :: point :: rest) (.literal point) rest
  | shorthand {letter : Nat} (rest : List Nat) (known : includes shorthands letter = true) :
      ClassAtom ('\\'.toNat :: letter :: rest) (.shorthand letter) rest

/-- A hyphen makes a range of the members around it, unless it ends the class. -/
def RangeSign (points : List Nat) : Prop :=
  ∃ rest, points = '-'.toNat :: rest ∧ rest.head? ≠ some ']'.toNat

inductive ClassItems : List Nat → List ClassItem → List Nat → Prop where
  | nil (rest : List Nat) : ClassItems rest [] rest
  | single {points behind rest : List Nat} {item : ClassItem} {items : List ClassItem}
      (first : ClassAtom points item behind) (apart : ¬ RangeSign behind)
      (later : ClassItems behind items rest) : ClassItems points (item :: items) rest
  | range {points behind after rest : List Nat} {low high : Nat} {items : List ClassItem}
      (first : ClassAtom points (.literal low) ('-'.toNat :: behind))
      (sign : RangeSign ('-'.toNat :: behind))
      (last : ClassAtom behind (.literal high) after) (ordered : low ≤ high)
      (later : ClassItems after items rest) : ClassItems points (.range low high :: items) rest

inductive Symbol where
  | body
  | branch
  | piece
  | atom

inductive Derives : Symbol → List Nat → Tree → List Nat → Prop where
  | one {points rest : List Nat} {tree : Tree} (only : Derives .branch points tree rest) :
      Derives .body points tree rest
  | more {points behind rest : List Nat} {first others : Tree}
      (branch : Derives .branch points first ('|'.toNat :: behind))
      (body : Derives .body behind others rest) : Derives .body points (.choice first others) rest
  | empty (rest : List Nat) : Derives .branch rest .empty rest
  | append {points behind rest : List Nat} {first others : Tree}
      (piece : Derives .piece points first behind)
      (branch : Derives .branch behind others rest) :
      Derives .branch points (.append first others) rest
  | start (rest : List Nat) : Derives .piece ('^'.toNat :: rest) .start rest
  | stop (rest : List Nat) : Derives .piece ('$'.toNat :: rest) .stop rest
  | plain {points rest : List Nat} {tree : Tree} (atom : Derives .atom points tree rest) :
      Derives .piece points tree rest
  | quantified {points behind rest : List Nat} {tree : Tree} {quantifier : Quantifier}
      (atom : Derives .atom points tree behind)
      (text : QuantifierText behind quantifier rest) :
      Derives .piece points (.repeated tree quantifier) rest
  | literal {point : Nat} (rest : List Nat) (plain : includes syntaxCharacters point = false) :
      Derives .atom (point :: rest) (.literal point) rest
  | any (rest : List Nat) : Derives .atom ('.'.toNat :: rest) .any rest
  | escape {point : Nat} (rest : List Nat) (known : includes escaped point = true) :
      Derives .atom ('\\'.toNat :: point :: rest) (.literal point) rest
  | shorthand {letter : Nat} (rest : List Nat) (known : includes shorthands letter = true) :
      Derives .atom ('\\'.toNat :: letter :: rest) (.shorthand letter) rest
  | characterClass {points rest : List Nat} {items : List ClassItem}
      (plain : points.head? ≠ some '^'.toNat) (filled : items ≠ [])
      (members : ClassItems points items (']'.toNat :: rest)) :
      Derives .atom ('['.toNat :: points) (.characterClass false items) rest
  | negatedClass {points rest : List Nat} {items : List ClassItem} (filled : items ≠ [])
      (members : ClassItems points items (']'.toNat :: rest)) :
      Derives .atom ('['.toNat :: '^'.toNat :: points) (.characterClass true items) rest
  | group {points rest : List Nat} {tree : Tree}
      (body : Derives .body points tree (')'.toNat :: rest)) :
      Derives .atom ('('.toNat :: points) (.group tree) rest
  | plainGroup {points rest : List Nat} {tree : Tree}
      (body : Derives .body points tree (')'.toNat :: rest)) :
      Derives .atom ('('.toNat :: '?'.toNat :: ':'.toNat :: points) (.group tree) rest

namespace Tree

/-- How many quantifiers of the tree leave a choice. -/
def variableCount : Tree → Nat
  | append first rest | choice first rest => first.variableCount + rest.variableCount
  | group body => body.variableCount
  | repeated body quantifier => body.variableCount + if quantifier.IsVariable then 1 else 0
  | _ => 0

/-- Whether there is an alternation in the tree. -/
def alternates : Tree → Bool
  | append first rest => first.alternates || rest.alternates
  | choice _ _ => true
  | group body | repeated body _ => body.alternates
  | _ => false

/-- What is repeated more than once has neither an alternation nor a variable quantifier in it. -/
def RepeatsSafely : Tree → Prop
  | append first rest | choice first rest => first.RepeatsSafely ∧ rest.RepeatsSafely
  | group body => body.RepeatsSafely
  | repeated body quantifier =>
    body.RepeatsSafely ∧ (1 < quantifier.max → body.variableCount = 0 ∧ body.alternates = false)
  | _ => True

end Tree

/-- The patterns that `prototype_checks_v1` allows, with their trees. -/
structure Allowed (pattern : Text) (tree : Tree) : Prop where
  short : pattern.length ≤ maxLength
  derived : Derives .body (codePoints pattern) tree []
  choices : tree.variableCount ≤ maxVariable
  repeats : tree.RepeatsSafely

end Grammar

section Matching

open EcmaRegExp (Reads Steps)

/-- `d`, `w` and `s`, over ASCII, and their complements. -/
def ShorthandHolds (letter code : Nat) : Prop :=
  let digit := '0'.toNat ≤ code ∧ code ≤ '9'.toNat
  let word := digit ∨ ('a'.toNat ≤ code ∧ code ≤ 'z'.toNat) ∨ ('A'.toNat ≤ code ∧ code ≤ 'Z'.toNat) ∨
    code = '_'.toNat
  -- tab, line feed, vertical tab, form feed and carriage return are 9 to 13
  let space := code = ' '.toNat ∨ (9 ≤ code ∧ code ≤ 13)
  (letter = 'd'.toNat ∧ digit) ∨ (letter = 'D'.toNat ∧ ¬ digit) ∨
  (letter = 'w'.toNat ∧ word) ∨ (letter = 'W'.toNat ∧ ¬ word) ∨
  (letter = 's'.toNat ∧ space) ∨ (letter = 'S'.toNat ∧ ¬ space)

/-- Line feed, carriage return and the two separators of Unicode. -/
def EndsLine (code : Nat) : Prop := code = 0x0A ∨ code = 0x0D ∨ code = 0x2028 ∨ code = 0x2029

def ClassItem.Holds (code : Nat) : ClassItem → Prop
  | literal point => code = point
  | range first last => first ≤ code ∧ code ≤ last
  | shorthand letter => ShorthandHolds letter code

/-- The tree matches the code points of the value from one position to the other. -/
def Tree.Matches (value : List Nat) : Tree → Nat → Nat → Prop
  | empty, i, j => i = j
  | append first rest, i, j => ∃ k, first.Matches value i k ∧ rest.Matches value k j
  | choice first rest, i, j => first.Matches value i j ∨ rest.Matches value i j
  | start, i, j => i = 0 ∧ i = j
  | stop, i, j => i = value.length ∧ i = j
  | literal point, i, j => Reads value (· = point) i j
  | any, i, j => Reads value (¬ EndsLine ·) i j
  | shorthand letter, i, j => Reads value (ShorthandHolds letter) i j
  | characterClass negated items, i, j =>
    Reads value (fun code => negated = false ↔ ∃ item ∈ items, item.Holds code) i j
  | group body, i, j => body.Matches value i j
  | repeated body quantifier, i, j =>
    ∃ count : Nat, quantifier.min ≤ count ∧ (count : ℕ∞) ≤ quantifier.max ∧
      Steps (body.Matches value) count i j

/-- The language of a tree: the values that it matches as a whole. -/
def Tree.Accepts (tree : Tree) (value : List Nat) : Prop := tree.Matches value 0 value.length

end Matching

end AutoMobile.CheckPattern
