import AutoMobile.CheckPatternQuantifiers

/- The parser passes nothing but phrases of the grammar: what a run over a body has passed derives a
tree, and the run has counted and checked what the tree has. -/
namespace AutoMobile.CheckPattern

open Utf16

section Trees

variable {points behind rest : List Nat} {first others tree : Tree}

/-- What a body has in it with a tree after what was found. -/
def Body.and (found : Body) (tree : Tree) : Body where
  isVariable := found.isVariable || decide (0 < tree.variableCount)
  alternation := found.alternation || tree.alternates

/-- The tree counts and repeats like two others, one after the other. -/
structure Joined (tree first others : Tree) : Prop where
  count : tree.variableCount = first.variableCount + others.variableCount
  alternates : tree.alternates = (first.alternates || others.alternates)
  repeats : first.RepeatsSafely → others.RepeatsSafely → tree.RepeatsSafely

theorem Joined.and {found : Body} (joined : Joined tree first others) :
    (found.and first).and others = found.and tree := by
  unfold Body.and
  rw [joined.count, joined.alternates]
  simp only [Body.mk.injEq, Bool.or_assoc, and_true]
  rw [← Bool.decide_or]
  congr 2
  simp only [eq_iff_iff]
  omega

/-- A piece before a body belongs to the first branch of the body. -/
theorem Derives.before_body (piece : Derives .piece points first behind)
    (body : Derives .body behind others rest) :
    ∃ tree, Derives .body points tree rest ∧ Joined tree first others := by
  cases body with
  | one only => refine ⟨_, .one (.append piece only), ⟨rfl, rfl, fun left right => ⟨left, right⟩⟩⟩
  | more branch body =>
    refine ⟨_, .more (.append piece branch) body, ⟨Nat.add_assoc _ _ _, ?_, ?_⟩⟩
    · exact (Bool.or_true _).symm
    · exact fun left right => ⟨⟨left, right.1⟩, right.2⟩

/-- Another tree that counts and repeats like a tree. -/
structure Similar (tree other : Tree) : Prop where
  count : other.variableCount = tree.variableCount
  alternates : other.alternates = tree.alternates
  repeats : tree.RepeatsSafely → other.RepeatsSafely

/-- Where a character stands that is none of the syntax, any other one may stand. -/
theorem Derives.other_literal {symbol : Symbol} {point other : Nat}
    (derived : Derives symbol points tree rest) (shape : points = point :: behind)
    (plain : includes syntaxCharacters point = false)
    (same : includes syntaxCharacters other = false)
    (there : symbol = .piece ∨ symbol = .atom ∨ rest.head? ≠ some point) :
    ∃ changed, Derives symbol (other :: behind) changed rest ∧ Similar tree changed := by
  have syntax_ne {code : Nat} {text : List Nat} (known : includes syntaxCharacters code = true)
      (equal : code :: text = point :: behind) : False := by
    injection equal with equal
    rw [equal, plain] at known
    cases known
  induction derived with
  | one only ih =>
    obtain ⟨changed, derived, similar⟩ := ih shape (there.imp (fun h => nomatch h)
      (Or.imp (fun h => nomatch h) id))
    exact ⟨changed, .one derived, similar⟩
  | more branch body ih _ =>
    obtain ⟨changed, derived, similar⟩ := ih shape (.inr (.inr fun bar => by
      injection bar with bar
      rw [← bar] at plain
      revert plain
      decide))
    exact ⟨_, .more derived body, ⟨congrArg (· + _) similar.count, rfl,
      fun both => ⟨similar.repeats both.1, both.2⟩⟩⟩
  | empty rest =>
    rcases there with there | there | there
    · cases there
    · cases there
    · rw [shape] at there
      exact absurd rfl there
  | append piece branch ih _ =>
    obtain ⟨changed, derived, similar⟩ := ih shape (.inl rfl)
    exact ⟨_, .append derived branch, ⟨congrArg (· + _) similar.count,
      congrArg (· || _) similar.alternates, fun both => ⟨similar.repeats both.1, both.2⟩⟩⟩
  | start rest => exact (syntax_ne (by decide) shape).elim
  | stop rest => exact (syntax_ne (by decide) shape).elim
  | plain atom ih =>
    obtain ⟨changed, derived, similar⟩ := ih shape (.inr (.inl rfl))
    exact ⟨changed, .plain derived, similar⟩
  | quantified atom text ih =>
    obtain ⟨changed, derived, similar⟩ := ih shape (.inr (.inl rfl))
    refine ⟨_, .quantified derived text, ⟨congrArg (· + _) similar.count, similar.alternates, ?_⟩⟩
    intro both
    refine ⟨similar.repeats both.1, fun many => ?_⟩
    rw [similar.count, similar.alternates]
    exact both.2 many
  | literal rest known =>
    injection shape with _ behind_eq
    rw [behind_eq]
    exact ⟨_, .literal _ same, ⟨rfl, rfl, id⟩⟩
  | any rest => exact (syntax_ne (by decide) shape).elim
  | escape rest known => exact (syntax_ne (by decide) shape).elim
  | shorthand rest known => exact (syntax_ne (by decide) shape).elim
  | characterClass caret filled members => exact (syntax_ne (by decide) shape).elim
  | negatedClass filled members => exact (syntax_ne (by decide) shape).elim
  | group body _ => exact (syntax_ne (by decide) shape).elim
  | plainGroup body _ => exact (syntax_ne (by decide) shape).elim

theorem large_plain {code : Nat} (large : 0x80 ≤ code) : includes syntaxCharacters code = false := by
  rw [Bool.eq_false_iff]
  intro known
  have small : code < 0x80 := includes_basic known (by decide)
  omega

theorem QuantifierText.starts {quantifier : Quantifier}
    (text : QuantifierText points quantifier rest) : startsQuantifier points = true := by
  have brace : includes "?*+\x7b" '{'.toNat = true := by decide
  cases text with
  | optional rest => exact (by decide : includes "?*+\x7b" '?'.toNat = true)
  | star rest => exact (by decide : includes "?*+\x7b" '*'.toNat = true)
  | plus rest => exact (by decide : includes "?*+\x7b" '+'.toNat = true)
  | exactly rest written bound => exact brace
  | atLeast rest written bound => exact brace
  | between rest written again ordered bound => exact brace

end Trees

namespace PatternParser

section Atoms

variable {parser next : PatternParser} {read : Option Body} {tree : Tree} {found result : Body}
  {char : UInt16} {rest : Text}

/-- What a run over a phrase with this tree has counted and checked. -/
structure Tallied (parser next : PatternParser) (tree : Tree) : Prop where
  counted : next.variableQuantifiers = parser.variableQuantifiers + tree.variableCount
  few : 0 < tree.variableCount → next.variableQuantifiers ≤ maxVariable
  repeats : tree.RepeatsSafely

/-- A run over a tree without quantifiers. -/
theorem Tallied.fixed (same : next.variableQuantifiers = parser.variableQuantifiers)
    (none_ : tree.variableCount = 0) (repeats : tree.RepeatsSafely) : Tallied parser next tree := by
  refine ⟨by rw [none_, same, Nat.add_zero], fun some_ => ?_, repeats⟩
  rw [none_] at some_
  cases some_

/-- What the parser of groups does to the body of a group. -/
def GroupSound (group : PatternParser → Option (PatternParser × Body)) : Prop :=
  ∀ parser next result, group parser = some (next, result) → next.error = none →
    parser.error = none ∧ ∃ tree, Derives .body parser.left tree (')'.toNat :: next.left) ∧
      Tallied parser next tree ∧ result = ({} : Body).and tree

/-- What `atom` says of the tree of an atom. -/
def Describes (read : Option Body) (tree : Tree) : Prop :=
  read.any Body.isVariable = decide (0 < tree.variableCount) ∧
    read.any Body.alternation = tree.alternates

theorem describes_none (fixed : tree.variableCount = 0) (single : tree.alternates = false) :
    Describes none tree := by
  unfold Describes
  rw [fixed, single]
  exact ⟨rfl, rfl⟩

theorem describes_group : Describes (some (({} : Body).and tree)) (.group tree) := by
  unfold Describes Body.and
  simp only [Option.any_some, Bool.false_or]
  exact ⟨rfl, rfl⟩

/-- What `atom` may have passed: an atom, an anchor, or the first half of a pair of surrogates. -/
inductive AtomPassed (parser next : PatternParser) (tree : Tree) : Prop where
  | atom (derived : Derives .atom parser.left tree next.left)
  | anchor (derived : Derives .piece parser.left tree next.left)
      (mark : parser.peek 0 = some '^'.toNat ∨ parser.peek 0 = some '$'.toNat)
  | half (high low : UInt16) (later : Text) (shape : parser.rest = high :: low :: later)
      (rest : next.rest = low :: later) (first : High high.toNat) (second : Low low.toNat)
      (nothing : tree = .empty)

theorem startsWith_plain (starts : (parser.startsWith "?:") = true) :
    parser.left = '?'.toNat :: ':'.toNat :: (parser.advance 2).left := by
  unfold startsWith at starts
  rw [List.isPrefixOf_iff_prefix] at starts
  obtain ⟨behind, shape⟩ := starts
  rw [left, ← shape]
  show codePoints (UInt16.ofNat '?'.toNat :: UInt16.ofNat ':'.toNat :: behind) = _
  rw [codePoints_plain (by decide), codePoints_plain (by decide), left, advance, ← shape]
  rfl

variable {code : Nat} {group : PatternParser → Option (PatternParser × Body)} {maximum : Option ℕ∞}

/-- The characters that `atom` takes as they stand. -/
theorem plain_of_passed (passed : includes "*+?\x7b\x7d]" code = false)
    (slash : code ≠ '\\'.toNat) (bracket : code ≠ '['.toNat) (open_ : code ≠ '('.toNat)
    (close : code ≠ ')'.toNat) (bar : code ≠ '|'.toNat) (caret : code ≠ '^'.toNat)
    (dollar : code ≠ '$'.toNat) (dot : code ≠ '.'.toNat) : includes syntaxCharacters code = false := by
  have each : ∀ code < 0x80, includes syntaxCharacters code = true →
      includes "*+?\x7b\x7d]" code = true ∨ code = '\\'.toNat ∨ code = '['.toNat ∨ code = '('.toNat ∨
        code = ')'.toNat ∨ code = '|'.toNat ∨ code = '^'.toNat ∨ code = '$'.toNat ∨
        code = '.'.toNat := by
    decide
  rw [Bool.eq_false_iff]
  intro known
  have small : code < 0x80 := includes_basic known (by decide)
  rcases each code small known with marked | same | same | same | same | same | same | same | same
  · rw [passed] at marked
    cases marked
  · exact slash same
  · exact bracket same
  · exact open_ same
  · exact close same
  · exact bar same
  · exact caret same
  · exact dollar same
  · exact dot same

theorem atom_plain_sound (shape : parser.rest = char :: rest) (taken : includes "*+?\x7b\x7d]" char.toNat = false)
    (slash : char.toNat ≠ '\\'.toNat) (bracket : char.toNat ≠ '['.toNat)
    (open_ : char.toNat ≠ '('.toNat) (close : char.toNat ≠ ')'.toNat)
    (bar : char.toNat ≠ '|'.toNat) :
    ∃ tree, AtomPassed parser (parser.advance 1) tree ∧
      Tallied parser (parser.advance 1) tree ∧ Describes none tree := by
  have peeked : parser.peek 0 = some char.toNat := by
    rw [peek_zero, shape]
    rfl
  have begins {code : Nat} (basic : code < 0xD800) (same : char.toNat = code) :
      parser.left = code :: (parser.advance 1).left :=
    left_of_peek basic (peeked.trans (congrArg some same))
  by_cases caret : char.toNat = '^'.toNat
  · refine ⟨.start, .anchor ?_ (.inl (peeked.trans (congrArg some caret))),
      .fixed rfl rfl trivial, describes_none rfl rfl⟩
    rw [begins (by decide) caret]
    exact .start _
  · by_cases dollar : char.toNat = '$'.toNat
    · refine ⟨.stop, .anchor ?_ (.inr (peeked.trans (congrArg some dollar))),
        .fixed rfl rfl trivial, describes_none rfl rfl⟩
      rw [begins (by decide) dollar]
      exact .stop _
    · by_cases dot : char.toNat = '.'.toNat
      · refine ⟨.any, .atom ?_, .fixed rfl rfl trivial, describes_none rfl rfl⟩
        rw [begins (by decide) dot]
        exact .any _
      · by_cases pair : PairAt char rest
        · obtain ⟨low, later, follows, high, second⟩ := pair
          rw [follows] at shape
          refine ⟨.empty, .half char low later shape ?_ high second rfl, .fixed rfl rfl trivial,
            describes_none rfl rfl⟩
          rw [advance, shape]
          rfl
        · refine ⟨.literal char.toNat, .atom ?_, .fixed rfl rfl trivial, describes_none rfl rfl⟩
          have whole : parser.left = char.toNat :: (parser.advance 1).left := by
            rw [left, shape, codePoints_single pair, left, advance, shape]
            rfl
          rw [whole]
          exact .literal _ (plain_of_passed taken slash bracket open_ close bar caret dollar dot)

theorem atom_sound (sound : GroupSound group) (ran : parser.atom group = some (next, read))
    (fine : next.error = none) (shape : parser.rest = char :: rest) (close : char.toNat ≠ ')'.toNat)
    (bar : char.toNat ≠ '|'.toNat) :
    parser.error = none ∧ ∃ tree, AtomPassed parser next tree ∧ Tallied parser next tree ∧
      Describes read tree := by
  have peeked : parser.peek 0 = some char.toNat := by
    rw [peek_zero, shape]
    rfl
  have begins {code : Nat} (basic : code < 0xD800) (same : some char.toNat = some code) :
      parser.left = code :: (parser.advance 1).left := left_of_peek basic (peeked.trans same)
  unfold atom at ran
  dsimp only at ran
  rw [peeked] at ran
  split at ran
  · rename_i slash
    cases ran
    obtain ⟨before, code, text, known, _, same⟩ := escape_sound (Prod.mk.eta).symm fine
    refine ⟨before, ?_⟩
    have whole := begins (by decide) slash
    rw [text] at whole
    by_cases letter : includes shorthands code = true
    · refine ⟨.shorthand code, .atom ?_, .fixed same rfl trivial, describes_none rfl rfl⟩
      rw [whole]
      exact .shorthand _ letter
    · rw [Bool.or_eq_true_iff, or_iff_right letter] at known
      refine ⟨.literal code, .atom ?_, .fixed same rfl trivial, describes_none rfl rfl⟩
      rw [whole]
      exact .escape _ known
  · rename_i slash
    split at ran
    · rename_i bracket
      obtain ⟨middle, passed, ended⟩ := Option.bind_eq_some_iff.mp ran
      cases ended
      obtain ⟨before, same, tree, items, filled, text⟩ := characterClass_sound passed fine
      refine ⟨before, tree, .atom ?_, ?_⟩
      · rw [begins (by decide) bracket]
        rcases text with ⟨plain, members, rfl⟩ | ⟨behind, negated, members, rfl⟩
        · exact .characterClass plain filled members
        · rw [negated]
          exact .negatedClass filled members
      · rcases text with ⟨plain, members, rfl⟩ | ⟨behind, negated, members, rfl⟩
        · exact ⟨.fixed same rfl trivial, describes_none rfl rfl⟩
        · exact ⟨.fixed same rfl trivial, describes_none rfl rfl⟩
    · rename_i bracket
      split at ran
      · rename_i open_
        split at ran
        · split at ran
          · rename_i starts
            obtain ⟨⟨middle, body⟩, passed, ended⟩ := Option.bind_eq_some_iff.mp ran
            cases ended
            obtain ⟨before, tree, derived, tallied, same⟩ := sound _ _ _ passed fine
            refine ⟨before, .group tree, .atom ?_, ⟨tallied.counted, tallied.few, tallied.repeats⟩, ?_⟩
            · rw [begins (by decide) open_, startsWith_plain starts]
              exact .plainGroup derived
            · rw [same]
              exact describes_group
          · cases ran
            have both := Option.or_eq_none_iff.mp fine
            cases both.2
        · obtain ⟨⟨middle, body⟩, passed, ended⟩ := Option.bind_eq_some_iff.mp ran
          cases ended
          obtain ⟨before, tree, derived, tallied, same⟩ := sound _ _ _ passed fine
          refine ⟨before, .group tree, .atom ?_, ⟨tallied.counted, tallied.few, tallied.repeats⟩, ?_⟩
          · rw [begins (by decide) open_]
            exact .group derived
          · rw [same]
            exact describes_group
      · rename_i open_
        cases ran
        obtain ⟨taken, passed⟩ := failIf_fine fine
        rw [Option.any_some] at taken
        rw [Option.any_some, taken, failIf_false]
        exact ⟨passed, atom_plain_sound shape taken (fun same => slash (congrArg some same))
          (fun same => bracket (congrArg some same)) (fun same => open_ (congrArg some same)) close bar⟩

/-- What a round of the loop over a body may have passed. -/
inductive PiecePassed (parser next : PatternParser) (found result : Body) : Prop where
  | piece (tree : Tree) (derived : Derives .piece parser.left tree next.left)
      (tallied : Tallied parser next tree) (same : result = found.and tree)
  | half (high low : UInt16) (later : Text) (shape : parser.rest = high :: low :: later)
      (rest : next.rest = low :: later) (first : High high.toNat) (second : Low low.toNat)
      (counted : next.variableQuantifiers = parser.variableQuantifiers) (same : result = found)

theorem unsafeBody_eq (describes : Describes read tree) :
    unsafeBody read = (decide (0 < tree.variableCount) || tree.alternates) := by
  rw [← describes.1, ← describes.2]
  cases read <;> rfl

theorem mergeBody_plain (describes : Describes read tree) :
    mergeBody found read false = found.and tree := by
  unfold mergeBody Body.and
  rw [describes.1, describes.2, Bool.or_false]

theorem mergeBody_repeated (describes : Describes read tree) (quantifier : Quantifier) :
    mergeBody found read (decide quantifier.IsVariable) = found.and (.repeated tree quantifier) := by
  unfold mergeBody Body.and
  rw [describes.1, describes.2, Bool.or_assoc, ← Bool.decide_or]
  have same : (quantifier.IsVariable ∨ 0 < tree.variableCount) ↔
      0 < (Tree.repeated tree quantifier).variableCount := by
    rw [Tree.variableCount]
    split
    · rename_i varies
      simp [varies]
    · rename_i fixed
      simp [fixed]
  rw [decide_eq_decide.mpr same]
  rfl

/-- The end of a round: what the quantifier may not do to what it follows. -/
def checkPiece (parser : PatternParser) (char : Nat) (maximum : Option ℕ∞) (read : Option Body) :
    PatternParser :=
  (parser.failIf (maximum.isSome && (char = '^'.toNat || char = '$'.toNat)) .anchorQuantified).failIf
    (maximum.any (fun max => decide (max > 1)) && unsafeBody read) .repeatedGroup

theorem bodyAtom_eq : parser.bodyAtom group found code = (parser.atom group).map fun result =>
      let piece := result.1.quantifier.1.checkPiece code result.1.quantifier.2 result.2
      (piece, mergeBody found result.2 piece.isVariable) := by
  unfold bodyAtom checkPiece
  cases parser.atom group <;> rfl

@[simp] theorem checkPiece_rest : (parser.checkPiece code maximum read).rest = parser.rest := by
  rw [checkPiece, failIf_rest, failIf_rest]

@[simp] theorem checkPiece_isVariable :
    (parser.checkPiece code maximum read).isVariable = parser.isVariable := by
  rw [checkPiece, failIf_isVariable, failIf_isVariable]

@[simp] theorem checkPiece_count :
    (parser.checkPiece code maximum read).variableQuantifiers = parser.variableQuantifiers := by
  rw [checkPiece, failIf_variableQuantifiers, failIf_variableQuantifiers]

theorem checkPiece_fine (fine : (parser.checkPiece code maximum read).error = none) :
    parser.error = none ∧ (maximum.isSome = true → code ≠ '^'.toNat ∧ code ≠ '$'.toNat) ∧
      ∀ max, maximum = some max → 1 < max → unsafeBody read = false := by
  obtain ⟨safe, passed⟩ := failIf_fine fine
  obtain ⟨free, before⟩ := failIf_fine passed
  refine ⟨before, fun present => ?_, fun max given many => ?_⟩
  · simpa [present] using free
  · simpa [given, many] using safe

theorem low_not_high (low : Low code) : ¬ High code := by
  unfold Low at low
  unfold High
  omega

theorem bodyAtom_sound (sound : GroupSound group)
    (ran : parser.bodyAtom group found char.toNat = some (next, result)) (fine : next.error = none)
    (shape : parser.rest = char :: rest) (close : char.toNat ≠ ')'.toNat)
    (bar : char.toNat ≠ '|'.toNat) :
    parser.error = none ∧ PiecePassed parser next found result := by
  have peeked : parser.peek 0 = some char.toNat := by
    rw [peek_zero, shape]
    rfl
  rw [bodyAtom_eq, Option.map_eq_some_iff] at ran
  obtain ⟨⟨middle, read⟩, passed, ended⟩ := ran
  dsimp only at ended
  cases counted : middle.quantifier with
  | mk later maximum =>
    rw [counted] at ended
    dsimp only at ended
    cases ended
    obtain ⟨quiet, free, safe⟩ := checkPiece_fine fine
    obtain ⟨before, plain | ⟨quantifier, given, text, varies, count, few⟩⟩ :=
      quantifier_sound counted quiet
    · obtain ⟨start, tree, atom, tallied, describes⟩ :=
        atom_sound sound passed before shape close bar
      refine ⟨start, ?_⟩
      have left_eq : (later.checkPiece char.toNat maximum read).left = middle.left := by
        rw [left, checkPiece_rest, plain.2.1]
        rfl
      have tallied : Tallied parser (later.checkPiece char.toNat maximum read) tree := by
        refine ⟨?_, fun some_ => ?_, tallied.repeats⟩
        · rw [checkPiece_count, plain.2.2.2, tallied.counted]
        · rw [checkPiece_count, plain.2.2.2]
          exact tallied.few some_
      have merged : mergeBody found read (later.checkPiece char.toNat maximum read).isVariable =
          found.and tree := by
        rw [checkPiece_isVariable, plain.2.2.1]
        exact mergeBody_plain describes
      cases atom with
      | atom derived => exact .piece tree (by rw [left_eq]; exact .plain derived) tallied merged
      | anchor derived mark => exact .piece tree (by rw [left_eq]; exact derived) tallied merged
      | half high low behind shape rest first second nothing =>
        rw [nothing] at tallied merged
        refine .half high low behind shape ?_ first second tallied.counted ?_
        · rw [checkPiece_rest, plain.2.1, rest]
        · rw [merged]
          unfold Body.and
          simp [Tree.variableCount, Tree.alternates]
    · obtain ⟨start, tree, atom, tallied, describes⟩ :=
        atom_sound sound passed before shape close bar
      refine ⟨start, ?_⟩
      cases atom with
      | atom derived =>
        refine .piece (.repeated tree quantifier) ?_ ⟨?_, fun some_ => ?_, tallied.repeats, ?_⟩ ?_
        · have left_eq : (later.checkPiece char.toNat maximum read).left = later.left := by
            rw [left, checkPiece_rest]
            rfl
          rw [left_eq]
          exact .quantified derived text
        · rw [checkPiece_count, count, tallied.counted, Tree.variableCount, Nat.add_assoc]
        · rw [checkPiece_count]
          by_cases choice : quantifier.IsVariable
          · exact few choice
          · rw [Tree.variableCount, if_neg choice] at some_
            rw [count, if_neg choice]
            exact tallied.few some_
        · intro many
          have harmless := safe quantifier.max given many
          rw [unsafeBody_eq describes, Bool.or_eq_false_iff, decide_eq_false_iff_not,
            Nat.not_lt, Nat.le_zero] at harmless
          exact harmless
        · rw [checkPiece_isVariable, varies]
          exact mergeBody_repeated describes quantifier
      | anchor derived mark =>
        rw [given] at free
        obtain ⟨caret, dollar⟩ := free rfl
        rw [peeked] at mark
        rcases mark with mark | mark
        · injection mark with same
          exact absurd same caret
        · injection mark with same
          exact absurd same dollar
      | half high low behind shape rest first second nothing =>
        have starts := text.starts
        have there : middle.left = low.toNat :: codePoints behind := by
          rw [left, rest]
          exact codePoints_single (not_pairAt (low_not_high second))
        rw [there] at starts
        have small : low.toNat < 0x80 := includes_basic starts (by decide)
        unfold Low at second
        omega

end Atoms

section Loop

variable {parser next : PatternParser} {found result : Body} {char : UInt16} {rest : Text}
  {group : Bool} {fuel : Nat} {tree : Tree}

theorem body_nil (empty : parser.rest = []) : body group (fuel + 1) parser found =
    some (parser.failIf (group && parser.error.isNone) .unclosedGroup, found) := by
  rw [body, empty]

theorem body_failed (shape : parser.rest = char :: rest) (failed : parser.error.isSome = true) :
    body group (fuel + 1) parser found = some (parser, found) := by
  rw [body, shape]
  exact if_pos failed

theorem body_close (shape : parser.rest = char :: rest) (fine : parser.error = none)
    (close : char.toNat = ')'.toNat) : body group (fuel + 1) parser found =
      some (if !group then parser.fail .unmatchedClosingGroup else parser.advance 1, found) := by
  rw [body, shape]
  dsimp only
  rw [fine]
  exact if_pos close

theorem body_bar (shape : parser.rest = char :: rest) (fine : parser.error = none)
    (bar : char.toNat = '|'.toNat) : body group (fuel + 1) parser found =
      body group fuel (parser.advance 1) { found with alternation := true } := by
  rw [body, shape]
  dsimp only
  rw [fine, bar]
  rfl

theorem body_round (shape : parser.rest = char :: rest) (fine : parser.error = none)
    (close : char.toNat ≠ ')'.toNat) (bar : char.toNat ≠ '|'.toNat) :
    body group (fuel + 1) parser found =
      (parser.bodyAtom (fun inner => body true fuel inner {}) found char.toNat).bind fun result =>
        body group fuel result.1 result.2 := by
  rw [body, shape]
  dsimp only
  rw [fine, if_neg (by simp), if_neg close, if_neg bar]
  rfl

/-- What a body leaves: nothing, or the end of its group. -/
def behindBody (group : Bool) (next : PatternParser) : List Nat :=
  if group then ')'.toNat :: next.left else next.left

theorem Tallied.trans {middle : PatternParser} {first others : Tree}
    (before : Tallied parser middle first) (after : Tallied middle next others)
    (joined : Joined tree first others) : Tallied parser next tree := by
  refine ⟨?_, fun some_ => ?_, joined.repeats before.repeats after.repeats⟩
  · rw [after.counted, before.counted, joined.count, Nat.add_assoc]
  · rw [joined.count] at some_
    by_cases later : 0 < others.variableCount
    · exact after.few later
    · have kept := after.counted
      have bound := before.few (by omega)
      omega

theorem body_sound (ran : body group fuel parser found = some (next, result))
    (fine : next.error = none) :
    parser.error = none ∧ (group = false → next.rest = []) ∧
      ∃ tree, Derives .body parser.left tree (behindBody group next) ∧ Tallied parser next tree ∧
        result = found.and tree := by
  have same (found : Body) : found = found.and .empty := by
    unfold Body.and
    simp [Tree.variableCount, Tree.alternates]
  induction fuel generalizing group parser found result next with
  | zero => cases ran
  | succ fuel ih =>
    cases shape : parser.rest with
    | nil =>
      rw [body_nil shape] at ran
      cases ran
      obtain ⟨top, before⟩ := failIf_fine fine
      rw [before, Option.isNone_none, Bool.and_true] at top
      rw [top, Bool.false_and, failIf_false]
      exact ⟨before, fun _ => shape, .empty, .one (.empty _), .fixed rfl rfl trivial, same found⟩
    | cons char rest =>
      by_cases failed : parser.error.isSome = true
      · rw [body_failed shape failed] at ran
        cases ran
        rw [fine] at failed
        cases failed
      · rw [Option.not_isSome_iff_eq_none] at failed
        refine ⟨failed, ?_⟩
        have peeked : parser.peek 0 = some char.toNat := by
          rw [peek_zero, shape]
          rfl
        by_cases close : char.toNat = ')'.toNat
        · rw [body_close shape failed close] at ran
          cases group with
          | false =>
            cases ran
            have both := Option.or_eq_none_iff.mp fine
            cases both.2
          | true =>
            cases ran
            refine ⟨fun top => absurd top (by decide), .empty, ?_, .fixed rfl rfl trivial, same found⟩
            rw [left_of_peek (by decide) (peeked.trans (congrArg some close))]
            exact .one (.empty _)
        · by_cases bar : char.toNat = '|'.toNat
          · rw [body_bar shape failed bar] at ran
            obtain ⟨_, end_, tree, derived, tallied, merged⟩ := ih ran fine
            refine ⟨end_, .choice .empty tree, ?_, ⟨?_, ?_, trivial, tallied.repeats⟩, ?_⟩
            · rw [left_of_peek (by decide) (peeked.trans (congrArg some bar))]
              exact .more (.empty _) derived
            · rw [tallied.counted]
              simp [Tree.variableCount]
            · simpa [Tree.variableCount] using tallied.few
            · rw [merged]
              unfold Body.and
              simp [Tree.variableCount, Tree.alternates]
          · rw [body_round shape failed close bar, Option.bind_eq_some_iff] at ran
            obtain ⟨⟨middle, between⟩, passed, later⟩ := ran
            obtain ⟨quiet, end_, others, derived, tallied, merged⟩ := ih later fine
            have sound : GroupSound fun inner => body true fuel inner {} := by
              intro parser next result ran fine
              obtain ⟨before, _, inside⟩ := ih ran fine
              exact ⟨before, inside⟩
            obtain ⟨_, piece⟩ := bodyAtom_sound sound passed quiet shape close bar
            refine ⟨end_, ?_⟩
            cases piece with
            | piece first piece counted joined =>
              obtain ⟨tree, whole, joins⟩ := piece.before_body derived
              refine ⟨tree, whole, counted.trans tallied joins, ?_⟩
              rw [merged, joined]
              exact joins.and
            | half high low behind pair after first second counted unchanged =>
              have there : middle.left = low.toNat :: codePoints behind := by
                rw [left, after]
                exact codePoints_single (not_pairAt (low_not_high second))
              have whole : parser.left = paired high.toNat low.toNat :: codePoints behind := by
                rw [left, pair]
                exact codePoints_pair first second
              have beyond := paired_gt high.toNat low.toNat
              have surrogate := second
              unfold Low at surrogate
              have apart : (behindBody group next).head? ≠ some low.toNat := by
                unfold behindBody
                cases group with
                | true =>
                  intro same
                  injection same with same
                  have small : ')'.toNat < 0x80 := by decide
                  omega
                | false =>
                  have done : next.left = [] := rest_of_left_nil.mpr (end_ rfl)
                  rw [if_neg (by decide), done]
                  intro same
                  cases same
              have changed : ∃ tree, Derives .body (paired high.toNat low.toNat ::
                  codePoints behind) tree (behindBody group next) ∧ Similar others tree :=
                derived.other_literal there (large_plain (by omega))
                  (large_plain (by omega)) (.inr (.inr apart))
              obtain ⟨tree, swapped, similar⟩ := changed
              rw [whole]
              refine ⟨tree, swapped, ⟨?_, fun some_ => ?_, similar.repeats tallied.repeats⟩, ?_⟩
              · rw [tallied.counted, counted, similar.count]
              · rw [similar.count] at some_
                exact tallied.few some_
              · rw [merged, unchanged]
                unfold Body.and
                rw [similar.count, similar.alternates]

end Loop

end PatternParser

end AutoMobile.CheckPattern
