import Mathlib.Data.ENat.Basic
import AutoMobile.Utf16Text

/- `prototypeCheckPattern`: the portable patterns of `prototype_checks_v1`. `PatternParser` accepts or
refuses a pattern, and `patternSource` makes a regular expression of an accepted one. -/
namespace AutoMobile.CheckPattern

open Utf16

def maxLength : Nat := 128
def maxBound : Nat := 100
def maxVariable : Nat := 2

/-- `text.includes(char)` -/
def includes (text : String) (code : Nat) : Bool := text.toList.any fun char => char.toNat = code

def escaped : String := "^$\\.*+?()[]\x7b\x7d|/-"

/-- The escapes that stand for a class of characters. -/
def shorthands : String := "dwsDWS"

def isDigit (code : Nat) : Bool := '0'.toNat ≤ code && code ≤ '9'.toNat

/-- `Number` of a text of digits. -/
def number (digits : List Nat) : Nat :=
  digits.foldl (fun value digit => value * 10 + (digit - '0'.toNat)) 0

inductive Message where
  | tooLong
  | unmatchedClosingGroup
  | unclosedGroup
  | anchorQuantified
  | repeatedGroup
  | unexpectedMetacharacter
  | lookahead
  | lookbehind
  | namedGroup
  | groupSyntax
  | trailingEscape
  | backreference
  | unicodeProperty
  | wordBoundary
  | unsupportedEscape (char : UInt16)
  | rangeEndpoints
  | reversedRange
  | unclosedClass
  | emptyClass
  | tooManyVariable
  | lazyQuantifier
  | possessiveQuantifier
  | repeatedQuantifier
  | malformedBounded
  | boundTooLarge
  | minimumExceedsMaximum
deriving DecidableEq, Repr

def Message.text : Message → Text
  | tooLong => units s!"Pattern exceeds {maxLength} characters"
  | unmatchedClosingGroup => units "Unmatched closing group"
  | unclosedGroup => units "Unclosed group"
  | anchorQuantified => units "Anchor cannot be quantified"
  | repeatedGroup => units "Repeated group contains repetition or alternation"
  | unexpectedMetacharacter => units "Unexpected metacharacter or quantifier"
  | lookahead => units "Lookahead is not supported"
  | lookbehind => units "Lookbehind is not supported"
  | namedGroup => units "Named groups are not supported"
  | groupSyntax => units "Inline flags or unsupported group syntax"
  | trailingEscape => units "Trailing escape"
  | backreference => units "Backreferences are not supported"
  | unicodeProperty => units "Unicode property classes are not supported"
  | wordBoundary => units "Word boundaries are not supported"
  | unsupportedEscape char => units "Unsupported escape \\" ++ [char]
  | rangeEndpoints => units "Character class range requires literal endpoints"
  | reversedRange => units "Character class range is reversed"
  | unclosedClass => units "Unclosed character class"
  | emptyClass => units "Empty character class is not supported"
  | tooManyVariable => units s!"pattern has too many variable quantifiers (max {maxVariable})"
  | lazyQuantifier => units "Lazy quantifiers are not supported"
  | possessiveQuantifier => units "Possessive quantifiers are not supported"
  | repeatedQuantifier => units "Repeated quantifier is not supported"
  | malformedBounded => units "Malformed bounded quantifier"
  | boundTooLarge => units s!"Quantifier bounds must be <={maxBound}"
  | minimumExceedsMaximum => units "Quantifier minimum exceeds maximum"

/-- What a body has in it, at any depth. -/
structure Body where
  isVariable : Bool := false
  alternation : Bool := false
deriving DecidableEq, Repr

structure PatternParser where
  /-- The source from the cursor on. -/
  rest : Text
  error : Option Message := none
  variableQuantifiers : Nat := 0
  isVariable : Bool := false
deriving DecidableEq, Repr

namespace PatternParser

/-- `source[cursor + offset]` -/
def peek (parser : PatternParser) (offset : Nat) : Option Nat :=
  parser.rest[offset]?.map UInt16.toNat

def advance (parser : PatternParser) (count : Nat) : PatternParser :=
  { parser with rest := parser.rest.drop count }

def fail (parser : PatternParser) (message : Message) : PatternParser :=
  { parser with error := parser.error.or (some message) }

/-- `fail`, on a condition. -/
def failIf (parser : PatternParser) (condition : Bool) (message : Message) : PatternParser :=
  if condition then parser.fail message else parser

section Classes

def escapeError (char : UInt16) : Option Message :=
  let code := char.toNat
  if isDigit code || code = 'k'.toNat then some .backreference
  else if code = 'p'.toNat || code = 'P'.toNat then some .unicodeProperty
  else if code = 'b'.toNat || code = 'B'.toNat then some .wordBoundary
  else if !includes shorthands code && !includes escaped code then some (.unsupportedEscape char)
  else none

/-- The parser past the escape, and the character it stands for. A class of characters is none. -/
def escape (parser : PatternParser) : PatternParser × Option Nat :=
  match parser.rest with
  | [] => (parser.fail .trailingEscape, none)
  | char :: rest =>
      let next := { parser with rest, error := parser.error.or (escapeError char) }
      (next, if includes shorthands char.toNat then none else some char.toNat)

/-- One scalar, or an escape. At the end of the source there is none. -/
def classAtom (parser : PatternParser) : PatternParser × Option Nat :=
  match parser.rest with
  | [] => (parser, none)
  | char :: rest =>
      if char.toNat = '\\'.toNat then escape { parser with rest }
      else match codePointAt parser.rest with
        | some point =>
            if point > 0xffff then (parser.advance 2, some point)
            else ({ parser with rest }, some char.toNat)
        | none => ({ parser with rest }, some char.toNat)

def rangeError : Option Nat → Option Nat → Option Message
  | some first, some last => if first > last then some .reversedRange else none
  | _, _ => some .rangeEndpoints

/-- One round of the loop over a class. -/
def classRound (parser : PatternParser) : PatternParser :=
  let (parser, start) := parser.classAtom
  if parser.peek 0 = some '-'.toNat ∧ parser.peek 1 ≠ some ']'.toNat then
    let (parser, last) := (parser.advance 1).classAtom
    { parser with error := parser.error.or (rangeError start last) }
  else parser

/-- The loop over a class, with the rounds it has made. The fuel is for its rounds. -/
def classRounds : Nat → PatternParser → Nat → Option (PatternParser × Nat)
  | 0, _, _ => none
  | fuel + 1, parser, count =>
      if parser.rest ≠ [] ∧ parser.peek 0 ≠ some ']'.toNat ∧ parser.error = none then
        classRounds fuel parser.classRound (count + 1)
      else some (parser, count)

def characterClass (parser : PatternParser) : Option PatternParser := do
  let parser := if parser.peek 0 = some '^'.toNat then parser.advance 1 else parser
  let (parser, count) ← classRounds (parser.rest.length + 1) parser 0
  let parser := if parser.peek 0 ≠ some ']'.toNat then parser.fail .unclosedClass
    else parser.advance 1
  return parser.failIf (count = 0) .emptyClass

end Classes

section Quantifiers

def digitsOf (text : Text) : Text := text.takeWhile fun char => isDigit char.toNat

/-- `/^\{([0-9]+)(?:,([0-9]*))?\}/`, with its groups and what follows the match. -/
def boundedMatch (text : Text) : Option (Text × Option Text × Text) :=
  let first := digitsOf (text.drop 1)
  let rest := (text.drop 1).drop first.length
  let second := digitsOf (rest.drop 1)
  let behind := (rest.drop 1).drop second.length
  if text.head?.map UInt16.toNat ≠ some '{'.toNat ∨ first = [] then none
  else if rest.head?.map UInt16.toNat = some '}'.toNat then some (first, none, rest.drop 1)
  else if rest.head?.map UInt16.toNat = some ','.toNat ∧
      behind.head?.map UInt16.toNat = some '}'.toNat then some (first, some second, behind.drop 1)
  else none

/-- The largest number of rounds; `⊤` for `Infinity`. -/
def maximumOf (min : Nat) : Option Text → ℕ∞
  | none => min
  | some [] => ⊤
  | some digits => number (digits.map UInt16.toNat)

def boundError (min : Nat) (max : ℕ∞) : Option Message :=
  if min > maxBound ∨ max ≠ ⊤ ∧ max > maxBound then some .boundTooLarge
  else if min > max then some .minimumExceedsMaximum
  else none

def boundedQuantifier (parser : PatternParser) : PatternParser × Option ℕ∞ :=
  match boundedMatch parser.rest with
  | none => (parser.fail .malformedBounded, none)
  | some (first, second, rest) =>
      let min := number (first.map UInt16.toNat)
      let max := maximumOf min second
      ({ parser with
          rest, error := parser.error.or (boundError min max), isVariable := decide (max > min) },
        some max)

def countVariableQuantifier (parser : PatternParser) : PatternParser :=
  if parser.isVariable then
    let counted := { parser with variableQuantifiers := parser.variableQuantifiers + 1 }
    counted.failIf (counted.variableQuantifiers > maxVariable) .tooManyVariable
  else parser

/-- What may not follow a quantifier. -/
def followError : Option Nat → Option Message
  | none => none
  | some next =>
      if next = '?'.toNat then some .lazyQuantifier
      else if next = '+'.toNat then some .possessiveQuantifier
      else if next = '*'.toNat ∨ next = '{'.toNat then some .repeatedQuantifier
      else none

/-- The parser past the quantifier, and the largest number of rounds, if there is a quantifier. -/
def quantifier (parser : PatternParser) : PatternParser × Option ℕ∞ :=
  let char := parser.peek 0
  let plain := { parser with isVariable := false }
  let (parser, max) :=
    if char = some '?'.toNat then ({ plain.advance 1 with isVariable := true }, some 1)
    else if char = some '*'.toNat ∨ char = some '+'.toNat then
      ({ plain.advance 1 with isVariable := true }, some ⊤)
    else if char = some '{'.toNat then plain.boundedQuantifier
    else (plain, none)
  let parser := parser.countVariableQuantifier
  if max.isSome then
    ({ parser with error := parser.error.or (followError (parser.peek 0)) }, max)
  else (parser, max)

end Quantifiers

section Bodies

def startsWith (parser : PatternParser) (text : String) : Bool := (units text).isPrefixOf parser.rest

def groupError (parser : PatternParser) : Message :=
  if parser.startsWith "?=" || parser.startsWith "?!" then .lookahead
  else if parser.startsWith "?<=" || parser.startsWith "?<!" then .lookbehind
  else if parser.startsWith "?<" then .namedGroup
  else .groupSyntax

/-- `atom`, with the parser for the body of a group. -/
def atom (group : PatternParser → Option (PatternParser × Body)) (parser : PatternParser) :
    Option (PatternParser × Option Body) :=
  let char := parser.peek 0
  let parser := parser.advance 1
  if char = some '\\'.toNat then some (parser.escape.1, none)
  else if char = some '['.toNat then do return (← parser.characterClass, none)
  else if char = some '('.toNat then
    if parser.peek 0 = some '?'.toNat then
      if parser.startsWith "?:" then do
        let (parser, body) ← group (parser.advance 2)
        return (parser, some body)
      else some (parser.fail parser.groupError, none)
    else do
      let (parser, body) ← group parser
      return (parser, some body)
  else some (parser.failIf (char.any (includes "*+?\x7b\x7d]")) .unexpectedMetacharacter, none)

def unsafeBody : Option Body → Bool
  | some body => body.isVariable || body.alternation
  | none => false

def mergeBody (body : Body) (atom : Option Body) (isVariable : Bool) : Body where
  isVariable := body.isVariable || isVariable || atom.any Body.isVariable
  alternation := body.alternation || atom.any Body.alternation

def bodyAtom (group : PatternParser → Option (PatternParser × Body)) (parser : PatternParser)
    (body : Body) (char : Nat) : Option (PatternParser × Body) := do
  let (parser, atom) ← parser.atom group
  let (parser, maximum) := parser.quantifier
  let parser := parser.failIf (maximum.isSome && (char = '^'.toNat || char = '$'.toNat))
    .anchorQuantified
  let parser := parser.failIf (maximum.any (fun max => decide (max > 1)) && unsafeBody atom)
    .repeatedGroup
  return (parser, mergeBody body atom parser.isVariable)

/-- The loop over a body, with what it has found. The fuel is for its rounds and those of its groups. -/
def body (group : Bool) : Nat → PatternParser → Body → Option (PatternParser × Body)
  | 0, _, _ => none
  | fuel + 1, parser, found =>
      match parser.rest with
      | [] => some (parser.failIf (group && parser.error.isNone) .unclosedGroup, found)
      | char :: _ =>
          if parser.error.isSome then some (parser, found)
          else if char.toNat = ')'.toNat then
            some (if !group then parser.fail .unmatchedClosingGroup else parser.advance 1, found)
          else if char.toNat = '|'.toNat then
            body group fuel (parser.advance 1) { found with alternation := true }
          else do
            let (parser, found) ← parser.bodyAtom (fun inner => body true fuel inner {}) found
              char.toNat
            body group fuel parser found

end Bodies

end PatternParser

inductive CheckPatternResult where
  | ok
  | refused (message : Message)
deriving DecidableEq, Repr

open PatternParser in
def parseCheckPattern (pattern : Text) : Option CheckPatternResult :=
  if pattern.length > maxLength then some (.refused .tooLong)
  else (body false (pattern.length + 1) { rest := pattern } {}).map fun result =>
    result.1.error.elim .ok .refused

section Source

/-- What stands for an escape in the regular expression. -/
def escapeSource (inClass : Bool) (char : UInt16) : Text :=
  if char.toNat = 's'.toNat then
    units (if inClass then " \\t\\r\\n\\f\\v" else "[ \\t\\r\\n\\f\\v]")
  else if char.toNat = 'S'.toNat then
    units (if inClass then "\\x00-\\x08\\x0e-\\x1f\\x21-\\u\x7b10ffff\x7d" else "[^ \\t\\r\\n\\f\\v]")
  else if char.toNat = '-'.toNat then units (if inClass then "\\-" else "-")
  else units "\\" ++ [char]

/-- The loop of `patternSource`. -/
def sourceFrom (inClass : Bool) : Text → Text
  | [] => []
  | char :: rest =>
      if char.toNat ≠ '\\'.toNat then
        char :: sourceFrom (if char.toNat = '['.toNat then true
          else if char.toNat = ']'.toNat then false else inClass) rest
      else match rest with
        | [] => units "\\undefined"
        | next :: rest => escapeSource inClass next ++ sourceFrom inClass rest

def patternSource (pattern : Text) : Text := sourceFrom false pattern

/-- The regular expression that a value is tested with. -/
def regExpSource (pattern : Text) : Text :=
  units "^(?:" ++ patternSource pattern ++ units ")$(?![\\s\\S])"

/-- `test source value` is what `new RegExp(source, "u").test(value)` gives. -/
def matchesCheckPattern (test : Text → Text → Bool) (pattern value : Text) : Bool :=
  if parseCheckPattern pattern ≠ some .ok then false else test (regExpSource pattern) value

end Source

example : parseCheckPattern (units "(?:a\x7b2\x7d|[a-z\\d])?") = some .ok := by decide +kernel

example : parseCheckPattern (units "(a|b)+") = some (.refused .repeatedGroup) := by decide +kernel

end AutoMobile.CheckPattern
