import AutoMobile.CheckPatternSource

/- The source made of an accepted pattern is a regular expression of the language, which matches what
the tree of the pattern matches. -/
namespace AutoMobile.CheckPattern

open List PatternParser Utf16

section Translation

/-- Space, tab, carriage return, line feed, form feed and vertical tab. -/
def spaces : List EcmaRegExp.ClassRange := [.one 0x20, .one 9, .one 13, .one 10, .one 12, .one 11]

/-- All others. -/
def notSpaces : List EcmaRegExp.ClassRange := [.span 0 8, .span 0x0e 0x1f, .span 0x21 0x10FFFF]

def ClassItem.ranges : ClassItem → List EcmaRegExp.ClassRange
  | literal point => [.one point]
  | range first last => [.span first last]
  | shorthand letter =>
    if letter = 's'.toNat then spaces
    else if letter = 'S'.toNat then notSpaces
    else [.escape letter]

def Tree.regExp : Tree → EcmaRegExp.Tree
  | empty => .empty
  | append first rest => .append first.regExp rest.regExp
  | choice first rest => .choice first.regExp rest.regExp
  | start => .lineStart
  | stop => .lineEnd
  | literal point => .character point
  | any => .dot
  | shorthand letter =>
    if letter = 's'.toNat then .characterClass false spaces
    else if letter = 'S'.toNat then .characterClass true spaces
    else .classEscape letter
  | characterClass negated items => .characterClass negated (items.flatMap ClassItem.ranges)
  | group body => .group body.regExp
  | repeated body quantifier => .quantified body.regExp quantifier.min quantifier.max

/-- The tree of the whole expression. -/
def Tree.whole (tree : Tree) : EcmaRegExp.Tree :=
  .append .lineStart (.append (.group tree.regExp) (.append .lineEnd
    (.append (.notAhead (.append (.characterClass false [.escape 's'.toNat, .escape 'S'.toNat])
      .empty)) .empty)))

end Translation

section Texts

variable {points behind rest tail : List Nat} {inClass : Bool} {code : Nat}

theorem pointsFrom_other (slash : code ≠ '\\'.toNat) (open_ : code ≠ '['.toNat)
    (close : code ≠ ']'.toNat) :
    pointsFrom inClass (code :: rest) = code :: pointsFrom inClass rest := by
  rw [pointsFrom_plain slash, if_neg open_, if_neg close]

theorem pointsFrom_digits {digits : List Nat} (all : ∀ digit ∈ digits, isDigit digit = true) :
    pointsFrom inClass (digits ++ rest) = digits ++ pointsFrom inClass rest := by
  induction digits with
  | nil => rfl
  | cons digit others ih =>
    have known := all digit mem_cons_self
    have apart : ∀ code, isDigit code = false → digit ≠ code := by
      intro code none_ same
      rw [same, none_] at known
      cases known
    rw [cons_append, pointsFrom_other (apart _ (by decide)) (apart _ (by decide))
      (apart _ (by decide)), ih fun code member => all code (mem_cons_of_mem _ member)]
    rfl

/-- The digits of one grammar are those of the other. -/
theorem decimalDigits {digits : List Nat} (written : Digits digits) :
    EcmaRegExp.DecimalDigits digits := by
  refine ⟨written.1, fun digit member => ?_⟩
  have known := written.2 digit member
  unfold isDigit at known
  simpa using known

theorem quantifier_text {quantifier : Quantifier} (text : QuantifierText points quantifier rest) :
    EcmaRegExp.Quantifier (pointsFrom false points ++ tail) quantifier.min quantifier.max
      (pointsFrom false rest ++ tail) := by
  have brace {digits tail_ : List Nat} (written : Digits digits) :
      pointsFrom false ('{'.toNat :: (digits ++ tail_)) =
        '{'.toNat :: (digits ++ pointsFrom false tail_) := by
    rw [pointsFrom_other (by decide) (by decide) (by decide), pointsFrom_digits written.2]
  have close {tail_ : List Nat} : pointsFrom false ('}'.toNat :: tail_) =
      '}'.toNat :: pointsFrom false tail_ := pointsFrom_other (by decide) (by decide) (by decide)
  have comma {tail_ : List Nat} : pointsFrom false (','.toNat :: tail_) =
      ','.toNat :: pointsFrom false tail_ := pointsFrom_other (by decide) (by decide) (by decide)
  cases text with
  | optional rest =>
    rw [pointsFrom_other (by decide) (by decide) (by decide)]
    exact .optional _
  | star rest =>
    rw [pointsFrom_other (by decide) (by decide) (by decide)]
    exact .star _
  | plus rest =>
    rw [pointsFrom_other (by decide) (by decide) (by decide)]
    exact .plus _
  | exactly rest written bound =>
    rw [brace written, close, cons_append, append_assoc]
    exact .exactly _ (decimalDigits written)
  | atLeast rest written bound =>
    rw [brace written, comma, close, cons_append, append_assoc]
    exact .atLeast _ (decimalDigits written)
  | between rest written again ordered bound =>
    rw [brace written, comma, pointsFrom_digits again.2, close, cons_append,
      append_assoc, cons_append, append_assoc]
    exact .between _ (decimalDigits written) (decimalDigits again) ordered

/-- The escapes that stay as they are. -/
theorem escapePoints_same (notSpace : code ≠ 's'.toNat) (notOther : code ≠ 'S'.toNat)
    (hyphen : code ≠ '-'.toNat ∨ inClass = true) : escapePoints inClass code = ['\\'.toNat, code] := by
  unfold escapePoints
  rw [if_neg notSpace, if_neg notOther]
  split
  · rename_i mark
    rcases hyphen with other | inside
    · exact absurd mark other
    · rw [inside, mark]
      decide
  · rfl

theorem escaped_ne {other : Nat} (known : includes escaped code = true)
    (apart : includes escaped other = false) : code ≠ other := by
  intro same
  rw [same, apart] at known
  cases known

/-- An escaped character is one of the syntax, a slash or a hyphen. -/
theorem escaped_identity (known : includes escaped code = true) :
    code ∈ EcmaRegExp.syntaxCharacters ∨ code = '/'.toNat ∨ code = '-'.toNat := by
  have each : ∀ code < 0x80, includes escaped code = true →
      code ∈ EcmaRegExp.syntaxCharacters ∨ code = '/'.toNat ∨ code = '-'.toNat := by decide
  exact each code (escaped_basic known) known

/-- The classes of characters that stay as they are. -/
theorem shorthand_letter (known : includes shorthands code = true) :
    code ∈ EcmaRegExp.classLetters := by
  have each : ∀ code < 0x80, includes shorthands code = true → code ∈ EcmaRegExp.classLetters := by
    decide
  exact each code (shorthands_basic known) known

theorem plain_not_special (plain : includes syntaxCharacters code = false) :
    code ∉ EcmaRegExp.syntaxCharacters := by
  intro member
  have known : includes syntaxCharacters code = true := by
    obtain ⟨char, inside, same⟩ := mem_map.mp member
    exact includes_iff.mpr ⟨char, inside, same⟩
  rw [plain] at known
  cases known

end Texts

section Classes

variable {points behind after rest tail : List Nat} {code : Nat} {item : ClassItem}
  {items : List ClassItem} {ranges : List EcmaRegExp.ClassRange} {atom : EcmaRegExp.ClassRange}

open EcmaRegExp (ClassRanges ClassAtomNoDash CharacterEscape)

theorem pointsFrom_member (slash : code ≠ '\\'.toNat) (close : code ≠ ']'.toNat) :
    pointsFrom true (code :: rest) = code :: pointsFrom true rest := by
  rw [pointsFrom_plain slash]
  by_cases open_ : code = '['.toNat
  · rw [if_pos open_]
  · rw [if_neg open_, if_neg close]

/-- A member that is a character, in the source. -/
theorem literal_text (tail : List Nat) (derived : ClassAtom points (.literal code) behind) :
    EcmaRegExp.ClassAtom (pointsFrom true points ++ tail) (.one code)
        (pointsFrom true behind ++ tail) ∧
      (points.head? ≠ some '-'.toNat → ClassAtomNoDash (pointsFrom true points ++ tail) (.one code)
          (pointsFrom true behind ++ tail)) := by
  cases derived with
  | literal rest plain =>
    rw [pointsFrom_member plain.1 plain.2]
    by_cases hyphen : code = '-'.toNat
    · rw [hyphen]
      exact ⟨.dash _, fun other => absurd rfl other⟩
    · have single : ClassAtomNoDash (code :: (pointsFrom true behind ++ tail)) (.one code)
          (pointsFrom true behind ++ tail) := .source _ ⟨plain.1, plain.2, hyphen⟩
      exact ⟨.other single, fun _ => single⟩
  | escape rest known =>
    rw [pointsFrom_escape, escapePoints_same (escaped_ne known (by decide))
      (escaped_ne known (by decide)) (Or.inr rfl)]
    have single : ClassAtomNoDash ('\\'.toNat :: code :: (pointsFrom true behind ++ tail))
        (.one code) (pointsFrom true behind ++ tail) := by
      rcases escaped_identity known with mark | mark | mark
      · exact .escape (.identity _ (Or.inl mark))
      · exact .escape (.identity _ (Or.inr mark))
      · rw [mark]
        exact .dash _
    exact ⟨.other single, fun _ => single⟩

/-- What may follow a member: nothing more, or ranges without a hyphen in front. -/
def Continues (points : List Nat) (ranges : List EcmaRegExp.ClassRange) (rest : List Nat) : Prop :=
  (ranges = [] ∧ points = rest) ∨ ClassRanges .noDash points ranges rest

theorem Continues.nonempty (start : EcmaRegExp.ClassAtom points atom behind)
    (later : Continues behind ranges rest) : ClassRanges .nonempty points (atom :: ranges) rest := by
  rcases later with ⟨none_, same⟩ | later
  · rw [none_, ← same]
    exact .last start
  · exact .first start later

theorem Continues.noDash (start : ClassAtomNoDash points atom behind)
    (later : Continues behind ranges rest) : ClassRanges .noDash points (atom :: ranges) rest := by
  rcases later with ⟨none_, same⟩ | later
  · rw [none_, ← same]
    exact .lastNoDash (.other start)
  · exact .firstNoDash start later

theorem control_text {letter : Nat} (known : (letter, code) ∈ EcmaRegExp.controls)
    (later : Continues behind ranges rest) :
    Continues ('\\'.toNat :: letter :: behind) (.one code :: ranges) rest :=
  Or.inr (later.noDash (.escape (.control _ known)))

/-- White space in a class, behind its first character. -/
theorem spaces_text (later : Continues behind ranges rest) :
    Continues (ascii "\\t\\r\\n\\f\\v" ++ behind)
      (.one 9 :: .one 13 :: .one 10 :: .one 12 :: .one 11 :: ranges) rest := by
  have spelled : ascii "\\t\\r\\n\\f\\v" = ['\\'.toNat, 't'.toNat, '\\'.toNat, 'r'.toNat,
    '\\'.toNat, 'n'.toNat, '\\'.toNat, 'f'.toNat, '\\'.toNat, 'v'.toNat] := by decide
  rw [spelled]
  exact control_text (by decide) (control_text (by decide) (control_text (by decide)
    (control_text (by decide) (control_text (by decide) later))))

theorem space_text (later : Continues behind ranges rest) :
    ClassRanges .nonempty (ascii " \\t\\r\\n\\f\\v" ++ behind) (spaces ++ ranges) rest ∧
      ClassRanges .noDash (ascii " \\t\\r\\n\\f\\v" ++ behind) (spaces ++ ranges) rest := by
  have first : ClassAtomNoDash (ascii " \\t\\r\\n\\f\\v" ++ behind) (.one 0x20)
      (ascii "\\t\\r\\n\\f\\v" ++ behind) := .source _ (by decide)
  exact ⟨(spaces_text later).nonempty (.other first), (spaces_text later).noDash first⟩

/-- All but white space in a class. -/
theorem notSpace_text (later : ClassRanges .contents behind ranges rest) :
    ClassRanges .nonempty (ascii "\\x00-\\x08\\x0e-\\x1f\\x21-\\u\x7b10ffff\x7d" ++ behind)
        (notSpaces ++ ranges) rest ∧
      ClassRanges .noDash (ascii "\\x00-\\x08\\x0e-\\x1f\\x21-\\u\x7b10ffff\x7d" ++ behind)
        (notSpaces ++ ranges) rest := by
  have hex {high low point : Nat} {rest : List Nat}
      (value : EcmaRegExp.hexValue [high, low] = some point) :
      ClassAtomNoDash ('\\'.toNat :: 'x'.toNat :: high :: low :: rest) (.one point) rest :=
    .escape (.hex _ value)
  have last : CharacterEscape ('u'.toNat :: '\x7b'.toNat :: (ascii "10ffff" ++ '\x7d'.toNat :: behind))
      0x10FFFF behind := .unicode behind (by decide) (by decide) (by decide)
  have top : ClassAtomNoDash (ascii "\\u\x7b10ffff\x7d" ++ behind) (.one 0x10FFFF) behind :=
    .escape last
  have third : ClassRanges .nonempty (ascii "\\x21-\\u\x7b10ffff\x7d" ++ behind)
      (.span 0x21 0x10FFFF :: ranges) rest :=
    .span (.other (hex (by decide))) (.other top) (by decide) later
  have second : ClassRanges .nonempty (ascii "\\x0e-\\x1f\\x21-\\u\x7b10ffff\x7d" ++ behind)
      (.span 0x0e 0x1f :: .span 0x21 0x10FFFF :: ranges) rest :=
    .span (.other (hex (by decide))) (.other (hex (by decide))) (by decide) (.filled third)
  exact ⟨.span (.other (hex (by decide))) (.other (hex (by decide))) (by decide) (.filled second),
    .spanNoDash (hex (by decide)) (.other (hex (by decide))) (by decide) (.filled second)⟩

/-- A member that stands alone, in the source, with what follows it. -/
theorem single_text (derived : ClassAtom points item behind)
    (later : Continues (pointsFrom true behind ++ tail) ranges rest)
    (contents : ClassRanges .contents (pointsFrom true behind ++ tail) ranges rest) :
    ClassRanges .nonempty (pointsFrom true points ++ tail) (item.ranges ++ ranges) rest ∧
      (points.head? ≠ some '-'.toNat →
        ClassRanges .noDash (pointsFrom true points ++ tail) (item.ranges ++ ranges) rest) := by
  cases item with
  | literal code =>
    obtain ⟨start, plain⟩ := literal_text tail derived
    exact ⟨later.nonempty start, fun hyphen => later.noDash (plain hyphen)⟩
  | range low high => cases derived
  | shorthand letter =>
    cases derived with
    | shorthand rest known =>
      rw [pointsFrom_escape, append_assoc, ClassItem.ranges]
      by_cases space : letter = 's'.toNat
      · have text : escapePoints true letter = ascii " \\t\\r\\n\\f\\v" := if_pos space
        rw [if_pos space, text]
        exact ⟨(space_text later).1, fun _ => (space_text later).2⟩
      · by_cases other : letter = 'S'.toNat
        · have text : escapePoints true letter =
              ascii "\\x00-\\x08\\x0e-\\x1f\\x21-\\u\x7b10ffff\x7d" := by
            unfold escapePoints
            rw [if_neg space, if_pos other]
            rfl
          rw [if_neg space, if_pos other, text]
          exact ⟨(notSpace_text contents).1, fun _ => (notSpace_text contents).2⟩
        · rw [if_neg space, if_neg other, escapePoints_same space other (Or.inr rfl)]
          have single : ClassAtomNoDash
              ('\\'.toNat :: letter :: (pointsFrom true behind ++ tail)) (.escape letter)
              (pointsFrom true behind ++ tail) := .classEscape _ (shorthand_letter known)
          exact ⟨later.nonempty (.other single), fun _ => later.noDash single⟩

/-- The members of a class, in the source. -/
theorem ClassItems.text (members : ClassItems points items behind) (tail : List Nat)
    (closed : behind.head? = some ']'.toNat) :
    (items = [] ∧ points = behind) ∨
      ClassRanges .nonempty (pointsFrom true points ++ tail) (items.flatMap ClassItem.ranges)
          (pointsFrom true behind ++ tail) ∧
        (¬ RangeSign points → ClassRanges .noDash (pointsFrom true points ++ tail)
          (items.flatMap ClassItem.ranges) (pointsFrom true behind ++ tail)) := by
  induction members with
  | nil rest => exact Or.inl ⟨rfl, rfl⟩
  | @single points behind rest item items first apart later ih =>
    right
    rw [flatMap_cons]
    have follows : Continues (pointsFrom true behind ++ tail) (items.flatMap ClassItem.ranges)
          (pointsFrom true rest ++ tail) ∧
        ClassRanges .contents (pointsFrom true behind ++ tail) (items.flatMap ClassItem.ranges)
          (pointsFrom true rest ++ tail) := by
      rcases ih closed with ⟨none_, same⟩ | ⟨more, plain⟩
      · rw [none_, same]
        exact ⟨Or.inl ⟨rfl, rfl⟩, .empty _⟩
      · exact ⟨Or.inr (plain apart), .filled more⟩
    obtain ⟨start, plain⟩ := single_text first follows.1 follows.2
    refine ⟨start, fun sign => ?_⟩
    by_cases hyphen : points.head? = some '-'.toNat
    · -- a hyphen that is no range sign is the last member
      cases points with
      | nil => cases hyphen
      | cons point others =>
        injection hyphen with hyphen
        have ends : others.head? = some ']'.toNat := by
          by_contra more
          exact sign ⟨others, by rw [hyphen], more⟩
        rw [hyphen] at first plain ⊢
        obtain ⟨same, left⟩ := (ClassAtom.literal others (by decide)).unique first
        rw [left] at later follows
        rw [same]
        cases later with
        | nil _ =>
          rw [List.flatMap_nil, List.append_nil, pointsFrom_member (by decide) (by decide)]
          exact .lastNoDash (.dash _)
        | single head _ _ => exact absurd ends (classAtom_there head).2
        | range head _ _ _ _ => exact absurd ends (classAtom_there head).2
    · exact plain hyphen
  | @range points behind after rest low high items first sign last ordered later ih =>
    right
    rw [List.flatMap_cons]
    obtain ⟨start, plain⟩ := literal_text tail first
    obtain ⟨stop, _⟩ := literal_text tail last
    rw [pointsFrom_member (by decide) (by decide)] at start plain
    have contents : ClassRanges .contents (pointsFrom true after ++ tail)
        (items.flatMap ClassItem.ranges) (pointsFrom true rest ++ tail) := by
      rcases ih closed with ⟨none_, same⟩ | ⟨more, _⟩
      · rw [none_, same]
        exact .empty _
      · exact .filled more
    refine ⟨.span start stop ordered contents, fun other => ?_⟩
    refine .spanNoDash (plain fun hyphen => ?_) stop ordered contents
    cases points with
    | nil => cases hyphen
    | cons point others =>
      injection hyphen with hyphen
      rw [hyphen] at first other
      obtain ⟨_, left⟩ := (ClassAtom.literal others (by decide)).unique first
      apply other
      refine ⟨others, rfl, ?_⟩
      rw [← left]
      exact fun same => nomatch same

theorem pointsFrom_close : pointsFrom true (']'.toNat :: rest) = ']'.toNat :: pointsFrom false rest := by
  rw [pointsFrom_plain (by decide), if_neg (by decide), if_pos rfl]

theorem class_text (filled : items ≠ []) (members : ClassItems points items (']'.toNat :: rest)) :
    ClassRanges .contents (pointsFrom true points ++ tail) (items.flatMap ClassItem.ranges)
      (']'.toNat :: (pointsFrom false rest ++ tail)) := by
  rcases members.text tail rfl with ⟨none_, _⟩ | ⟨text, _⟩
  · exact absurd none_ filled
  · rw [pointsFrom_close] at text
    exact .filled text

/-- The characters that the source of an escape begins with. -/
def escapeHeads : List Nat := ascii " [\\-"

theorem escapePoints_first (inClass : Bool) (known : Nat) :
    ∃ first more, escapePoints inClass known = first :: more ∧ first ∈ escapeHeads := by
  unfold escapePoints
  split
  · cases inClass
    · exact ⟨_, _, rfl, by decide⟩
    · exact ⟨_, _, rfl, by decide⟩
  · split
    · cases inClass
      · exact ⟨_, _, rfl, by decide⟩
      · exact ⟨_, _, rfl, by decide⟩
    · split
      · cases inClass
        · exact ⟨_, _, rfl, by decide⟩
        · exact ⟨_, _, rfl, by decide⟩
      · exact ⟨_, _, rfl, by decide⟩

/-- The source of what does not begin with a character does not begin with it either. -/
theorem pointsFrom_head {inClass : Bool} (other : points.head? ≠ some code) (there : points ≠ [])
    (apart : code ∉ escapeHeads) : (pointsFrom inClass points ++ tail).head? ≠ some code := by
  cases points with
  | nil => exact absurd rfl there
  | cons point rest =>
    by_cases escape : point = '\\'.toNat
    · rw [escape]
      cases rest with
      | nil =>
        rw [pointsFrom_trailing]
        intro same
        injection same with same
        rw [← same] at apart
        exact apart (by decide)
      | cons next others =>
        obtain ⟨first, more, shape, known⟩ := escapePoints_first inClass next
        rw [pointsFrom_escape, shape]
        intro same
        injection same with same
        rw [same] at known
        exact apart known
    · rw [pointsFrom_plain escape]
      exact other

end Classes

section Phrases

variable {points rest tail : List Nat} {tree : Tree} {symbol : Symbol} {letter code : Nat}

def Symbol.regExp : Symbol → EcmaRegExp.Symbol
  | body => .disjunction
  | branch => .alternative
  | piece => .term
  | atom => .atom

theorem shorthand_text (known : includes shorthands letter = true) :
    EcmaRegExp.Derives .atom (pointsFrom false ('\\'.toNat :: letter :: rest) ++ tail)
      (Tree.shorthand letter).regExp (pointsFrom false rest ++ tail) := by
  rw [pointsFrom_escape, List.append_assoc, Tree.regExp]
  generalize pointsFrom false rest ++ tail = left
  have inner : EcmaRegExp.ClassRanges .contents (ascii " \\t\\r\\n\\f\\v" ++ ']'.toNat :: left) spaces
      (']'.toNat :: left) := by
    have none_ : Continues (']'.toNat :: left) [] (']'.toNat :: left) := Or.inl ⟨rfl, rfl⟩
    have text := (space_text none_).1
    rw [List.append_nil] at text
    exact .filled text
  by_cases space : letter = 's'.toNat
  · have text : escapePoints false letter ++ left =
        '['.toNat :: (ascii " \\t\\r\\n\\f\\v" ++ ']'.toNat :: left) := by
      rw [space]
      rfl
    have first : (ascii " \\t\\r\\n\\f\\v" ++ ']'.toNat :: left).head? = some ' '.toNat := rfl
    rw [if_pos space, text]
    exact .characterClass (by rw [first]; decide) inner
  · by_cases other : letter = 'S'.toNat
    · have text : escapePoints false letter ++ left =
          '['.toNat :: '^'.toNat :: (ascii " \\t\\r\\n\\f\\v" ++ ']'.toNat :: left) := by
        rw [other]
        rfl
      rw [if_neg space, if_pos other, text]
      exact .negatedClass inner
    · have hyphen : letter ≠ '-'.toNat := by
        intro same
        rw [same] at known
        revert known
        decide
      rw [if_neg space, if_neg other, escapePoints_same space other (Or.inl hyphen)]
      exact .classEscape _ (shorthand_letter known)

theorem escape_text (known : includes escaped code = true) :
    EcmaRegExp.Derives .atom (pointsFrom false ('\\'.toNat :: code :: rest) ++ tail)
      (.character code) (pointsFrom false rest ++ tail) := by
  rw [pointsFrom_escape, List.append_assoc]
  by_cases hyphen : code = '-'.toNat
  · rw [hyphen]
    exact .character _ (by decide)
  · rw [escapePoints_same (escaped_ne known (by decide)) (escaped_ne known (by decide))
      (Or.inl hyphen)]
    rcases escaped_identity known with mark | mark | mark
    · exact .escape (.identity _ (Or.inl mark))
    · exact .escape (.identity _ (Or.inr mark))
    · exact absurd mark hyphen

theorem ClassItems.there {items : List ClassItem} {points behind : List Nat} (filled : items ≠ [])
    (members : ClassItems points items behind) : points ≠ [] := by
  cases members with
  | nil _ => exact absurd rfl filled
  | single first _ _ => exact (classAtom_there first).1
  | range first _ _ _ _ => exact (classAtom_there first).1

theorem body_there (derived : Derives .body points tree (')'.toNat :: rest)) : points ≠ [] := by
  have branch_there {points rest : List Nat} {tree : Tree}
      (derived : Derives .branch points tree rest) (filled : rest ≠ []) : points ≠ [] := by
    cases derived with
    | empty _ => exact filled
    | append piece _ =>
      obtain ⟨point, behind, shape, _⟩ := piece_first piece
      rw [shape]
      exact List.cons_ne_nil _ _
  cases derived with
  | one only => exact branch_there only (List.cons_ne_nil _ _)
  | more branch _ => exact branch_there branch (List.cons_ne_nil _ _)

/-- The source of a phrase is a phrase of the language. -/
theorem Derives.source_text (derived : Derives symbol points tree rest) (tail : List Nat) :
    EcmaRegExp.Derives symbol.regExp (pointsFrom false points ++ tail) tree.regExp
      (pointsFrom false rest ++ tail) := by
  have mark {code : Nat} {rest : List Nat} (slash : code ≠ '\\'.toNat) (open_ : code ≠ '['.toNat)
      (close : code ≠ ']'.toNat) :
      pointsFrom false (code :: rest) ++ tail = code :: (pointsFrom false rest ++ tail) := by
    rw [pointsFrom_other slash open_ close]
    rfl
  induction derived with
  | one only ih => exact .one ih
  | more branch body before after =>
    rw [mark (by decide) (by decide) (by decide)] at before
    exact .more before after
  | empty rest => exact .empty _
  | append piece branch before after => exact .append before after
  | start rest =>
    rw [mark (by decide) (by decide) (by decide)]
    exact .lineStart _
  | stop rest =>
    rw [mark (by decide) (by decide) (by decide)]
    exact .lineEnd _
  | plain atom ih => exact .plain ih
  | quantified atom text ih => exact .quantified ih (quantifier_text text)
  | literal rest plain =>
    have apart {other : Nat} (known : includes syntaxCharacters other = true) :=
      ne_of_includes plain known
    rw [mark (apart (by decide)) (apart (by decide)) (apart (by decide))]
    exact .character _ (plain_not_special plain)
  | any rest =>
    rw [mark (by decide) (by decide) (by decide)]
    exact .dot _
  | escape rest known => exact escape_text known
  | shorthand rest known => exact shorthand_text known
  | characterClass caret filled members =>
    rw [pointsFrom_plain (by decide), if_pos rfl, List.cons_append]
    exact .characterClass (pointsFrom_head caret (members.there filled) (by decide))
      (class_text filled members)
  | negatedClass filled members =>
    rw [pointsFrom_plain (by decide), if_pos rfl, List.cons_append,
      pointsFrom_member (by decide) (by decide)]
    exact .negatedClass (class_text filled members)
  | group body ih =>
    rw [mark (by decide) (by decide) (by decide)] at ih ⊢
    exact .group (pointsFrom_head (body_first body) (body_there body) (by decide)) ih
  | plainGroup body ih =>
    rw [mark (by decide) (by decide) (by decide)] at ih
    rw [mark (by decide) (by decide) (by decide), pointsFrom_other (by decide) (by decide)
      (by decide), pointsFrom_other (by decide) (by decide) (by decide)]
    exact .plainGroup ih

end Phrases

section Languages

variable {value : List Nat} {tree : Tree} {points rest : List Nat} {symbol : Symbol} {i j : Nat}

open EcmaRegExp (Reads Steps)

theorem reads_congr {holds other : Nat → Prop}
    (same : ∀ code ∈ value, (holds code ↔ other code)) : Reads value holds i j ↔ Reads value other i j := by
  have member {code : Nat} (read : value[i]? = some code) : code ∈ value :=
    List.mem_of_getElem? read
  constructor
  · rintro ⟨moved, code, read, held⟩
    exact ⟨moved, code, read, (same code (member read)).mp held⟩
  · rintro ⟨moved, code, read, held⟩
    exact ⟨moved, code, read, (same code (member read)).mpr held⟩

theorem spaces_holds (code : Nat) :
    (∃ range ∈ spaces, range.Holds code) ↔ ShorthandHolds 's'.toNat code := by
  simp [spaces, ShorthandHolds, EcmaRegExp.ClassRange.Holds]
  omega

theorem notSpaces_holds {code : Nat} (bound : code ≤ 0x10FFFF) :
    (∃ range ∈ notSpaces, range.Holds code) ↔ ShorthandHolds 'S'.toNat code := by
  simp [notSpaces, ShorthandHolds, EcmaRegExp.ClassRange.Holds]
  omega

theorem notSpace_iff (code : Nat) :
    ShorthandHolds 'S'.toNat code ↔ ¬ ShorthandHolds 's'.toNat code := by
  simp [ShorthandHolds]

theorem escaped_holds {letter : Nat} (space : letter ≠ 's'.toNat) (other : letter ≠ 'S'.toNat)
    (code : Nat) : EcmaRegExp.Escaped letter code ↔ ShorthandHolds letter code := by
  unfold EcmaRegExp.Escaped ShorthandHolds
  simp only [space, other, false_and, or_false]

theorem ranges_hold {item : ClassItem} {code : Nat} (bound : code ≤ 0x10FFFF) :
    (∃ range ∈ item.ranges, range.Holds code) ↔ item.Holds code := by
  cases item with
  | literal point => simp [ClassItem.ranges, ClassItem.Holds, EcmaRegExp.ClassRange.Holds]
  | range first last => simp [ClassItem.ranges, ClassItem.Holds, EcmaRegExp.ClassRange.Holds]
  | shorthand letter =>
    rw [ClassItem.ranges, ClassItem.Holds]
    by_cases space : letter = 's'.toNat
    · rw [if_pos space, space]
      exact spaces_holds code
    · by_cases other : letter = 'S'.toNat
      · rw [if_neg space, if_pos other, other]
        exact notSpaces_holds bound
      · rw [if_neg space, if_neg other, ← escaped_holds space other]
        simp [EcmaRegExp.ClassRange.Holds]

/-- The expression of a tree matches what the tree matches. -/
theorem Derives.matches_regExp (derived : Derives symbol points tree rest)
    (bound : ∀ code ∈ value, code ≤ 0x10FFFF) :
    tree.regExp.Matches value i j ↔ tree.Matches value i j := by
  induction derived generalizing i j with
  | one only ih => exact ih
  | more branch body before after => exact or_congr before after
  | empty rest => exact Iff.rfl
  | append piece branch before after => exact exists_congr fun k => and_congr before after
  | start rest => exact Iff.rfl
  | stop rest => exact Iff.rfl
  | plain atom ih => exact ih
  | quantified atom text ih =>
    have ordered : ∀ {points rest : List Nat} {quantifier : Quantifier},
        QuantifierText points quantifier rest → (quantifier.min : ℕ∞) ≤ quantifier.max := by
      intro points rest quantifier text
      cases text with
      | optional rest => exact isVariable_optional.le
      | star rest => exact le_top
      | plus rest => exact le_top
      | exactly rest written bound => exact le_refl _
      | atLeast rest written bound => exact le_top
      | between rest written again ordered bound => exact Nat.cast_le.mpr ordered
    rw [Tree.regExp, EcmaRegExp.Tree.Matches, EcmaRegExp.repeats_iff (ordered text), Tree.Matches]
    exact exists_congr fun count => and_congr_right fun _ => and_congr_right fun _ =>
      EcmaRegExp.Steps.congr fun _ _ => ih
  | literal rest plain => exact Iff.rfl
  | any rest => exact Iff.rfl
  | escape rest known => exact Iff.rfl
  | @shorthand letter rest known =>
    rw [Tree.regExp, Tree.Matches]
    by_cases space : letter = 's'.toNat
    · rw [if_pos space, space]
      refine reads_congr fun code _ => ?_
      simp only [true_iff]
      exact spaces_holds code
    · by_cases other : letter = 'S'.toNat
      · rw [if_neg space, if_pos other, other]
        refine reads_congr fun code _ => ?_
        rw [notSpace_iff, spaces_holds]
        simp
      · rw [if_neg space, if_neg other]
        exact reads_congr fun code _ => escaped_holds space other code
  | characterClass caret filled members =>
    refine reads_congr fun code member => iff_congr Iff.rfl ?_
    exact class_holds (bound code member)
  | negatedClass filled members =>
    refine reads_congr fun code member => iff_congr Iff.rfl ?_
    exact class_holds (bound code member)
  | group body ih => exact ih
  | plainGroup body ih => exact ih
where
  class_holds {items : List ClassItem} {code : Nat} (bound : code ≤ 0x10FFFF) :
      (∃ range ∈ items.flatMap ClassItem.ranges, range.Holds code) ↔
        ∃ item ∈ items, item.Holds code := by
    simp only [List.mem_flatMap]
    constructor
    · rintro ⟨range, ⟨item, inside, member⟩, held⟩
      exact ⟨item, inside, (ranges_hold bound).mp ⟨range, member, held⟩⟩
    · rintro ⟨item, inside, held⟩
      obtain ⟨range, member, held⟩ := (ranges_hold bound).mpr held
      exact ⟨range, ⟨item, inside, member⟩, held⟩

end Languages

end AutoMobile.CheckPattern
