import AutoMobile.CheckPatternBodies

/- The parser always ends, and it passes every phrase of the grammar that is within its limits. -/
namespace AutoMobile.CheckPattern

open Utf16 List

namespace PatternParser

section Ends

variable {parser : PatternParser} {found : Body} {char : UInt16} {rest : Text} {group : Bool}
  {fuel : Nat}

theorem advance_length (count : Nat) :
    (parser.advance count).rest.length = parser.rest.length - count := length_drop

/-- The parser of groups ends on everything that is shorter. -/
def GroupEnds (group : PatternParser → Option (PatternParser × Body)) (length : Nat) : Prop :=
  ∀ parser, parser.rest.length < length → ∃ next result, group parser = some (next, result) ∧
    next.rest.length ≤ parser.rest.length

theorem atom_ends {group : PatternParser → Option (PatternParser × Body)}
    (ends : GroupEnds group parser.rest.length) (there : parser.rest ≠ []) :
    ∃ next read, parser.atom group = some (next, read) ∧ next.rest.length < parser.rest.length := by
  have filled := length_pos_iff.mpr there
  have shorter := parser.advance_length 1
  unfold atom
  dsimp only
  split
  · refine ⟨_, _, rfl, ?_⟩
    have escaped := escape_length (parser.advance 1)
    omega
  · split
    · obtain ⟨next, ran, fewer⟩ := characterClass_total (parser.advance 1)
      exact ⟨next, none, by rw [ran]; rfl, by omega⟩
    · split
      · split
        · split
          · have less := (parser.advance 1).advance_length 2
            obtain ⟨next, body, ran, fewer⟩ := ends ((parser.advance 1).advance 2) (by omega)
            exact ⟨next, some body, by rw [ran]; rfl, by omega⟩
          · refine ⟨_, _, rfl, ?_⟩
            show (parser.advance 1).rest.length < _
            omega
        · obtain ⟨next, body, ran, fewer⟩ := ends (parser.advance 1) (by omega)
          exact ⟨next, some body, by rw [ran]; rfl, by omega⟩
      · refine ⟨_, _, rfl, ?_⟩
        rw [failIf_rest]
        omega

theorem body_ends (enough : parser.rest.length < fuel) :
    ∃ next result, body group fuel parser found = some (next, result) ∧
      next.rest.length ≤ parser.rest.length := by
  induction fuel generalizing group parser found with
  | zero => omega
  | succ fuel ih =>
    cases shape : parser.rest with
    | nil =>
      refine ⟨_, _, body_nil shape, ?_⟩
      rw [failIf_rest, shape]
    | cons char rest =>
      rw [← shape]
      by_cases failed : parser.error.isSome = true
      · exact ⟨_, _, body_failed shape failed, Nat.le_refl _⟩
      · rw [Option.not_isSome_iff_eq_none] at failed
        have there : parser.rest ≠ [] := by
          rw [shape]
          exact cons_ne_nil _ _
        have filled := length_pos_iff.mpr there
        by_cases close : char.toNat = ')'.toNat
        · refine ⟨_, _, body_close shape failed close, ?_⟩
          cases group with
          | false => exact Nat.le_refl _
          | true =>
            rw [if_neg (by decide), advance_length]
            omega
        · by_cases bar : char.toNat = '|'.toNat
          · have shorter := parser.advance_length 1
            obtain ⟨next, result, ran, fewer⟩ := @ih (parser.advance 1)
              { found with alternation := true } group (by omega)
            exact ⟨next, result, by rw [body_bar shape failed bar, ran], by omega⟩
          · have ends : GroupEnds (fun inner => body true fuel inner {}) parser.rest.length :=
              fun inner less => ih (by omega)
            obtain ⟨middle, read, passed, less⟩ := atom_ends ends there
            have counted := quantifier_length middle
            let piece := middle.quantifier.1.checkPiece char.toNat middle.quantifier.2 read
            have fewer : piece.rest.length ≤ middle.quantifier.1.rest.length :=
              Nat.le_of_eq (congrArg List.length checkPiece_rest)
            obtain ⟨next, result, ran, last⟩ := @ih piece
              (mergeBody found read piece.isVariable) group (by omega)
            refine ⟨next, result, ?_, by omega⟩
            rw [body_round shape failed close bar, bodyAtom_eq, passed]
            exact ran

end Ends

section Rounds

variable {parser middle next : PatternParser} {found : Body} {read : Option Body} {tree : Tree}
  {quantifier : Quantifier} {points behind rest : List Nat} {point : Nat} {fuel : Nat}
  {group : PatternParser → Option (PatternParser × Body)}

theorem bodyAtom_plain (found : Body) (ran : parser.atom group = some (middle, read)) (reached : At middle rest)
    (plain : startsQuantifier rest = false) (describes : Describes read tree) (code : Nat) :
    ∃ next, parser.bodyAtom group found code = some (next, found.and tree) ∧ At next rest ∧
      next.variableQuantifiers = middle.variableQuantifiers ∧
      next.rest.length ≤ middle.rest.length := by
  refine ⟨{ middle with isVariable := false }, ?_, ⟨reached.fine, reached.left⟩, rfl, Nat.le_refl _⟩
  rw [bodyAtom_eq, ran, Option.map_some]
  dsimp only
  rw [quantifier_none reached plain]
  show some ({ middle with isVariable := false }, mergeBody found read false) = _
  rw [mergeBody_plain describes]

variable {code : Nat} {later : Text}

theorem checkPiece_quiet {maximum : ℕ∞} (free : code ≠ '^'.toNat ∧ code ≠ '$'.toNat)
    (safe : 1 < maximum → unsafeBody read = false) :
    parser.checkPiece code (some maximum) read = parser := by
  unfold checkPiece
  have first : ((some maximum).isSome && (code = '^'.toNat || code = '$'.toNat)) = false := by
    rw [decide_eq_false free.1, decide_eq_false free.2]
    rfl
  have second : ((some maximum).any (fun max => decide (max > 1)) && unsafeBody read) = false := by
    rw [Option.any_some]
    by_cases many : 1 < maximum
    · rw [safe many, Bool.and_false]
    · rw [decide_eq_false many, Bool.false_and]
  rw [first, second, failIf_false, failIf_false]

theorem bodyAtom_repeated (ran : parser.atom group = some (middle, read))
    (reached : At middle behind) (text : QuantifierText behind quantifier rest)
    (plain : startsQuantifier rest = false)
    (few : middle.variableQuantifiers + (if quantifier.IsVariable then 1 else 0) ≤ maxVariable)
    (describes : Describes read tree) (free : code ≠ '^'.toNat ∧ code ≠ '$'.toNat)
    (safe : 1 < quantifier.max → tree.variableCount = 0 ∧ tree.alternates = false) :
    ∃ next, parser.bodyAtom group found code = some (next, found.and (.repeated tree quantifier)) ∧
      At next rest ∧ next.variableQuantifiers =
        middle.variableQuantifiers + (if quantifier.IsVariable then 1 else 0) ∧
      next.rest.length ≤ middle.rest.length := by
  obtain ⟨next, counted, there, varies, count⟩ := quantifier_complete text reached plain few
  have shorter := quantifier_length middle
  rw [counted] at shorter
  have harmless : 1 < quantifier.max → unsafeBody read = false := by
    intro many
    obtain ⟨fixed, single⟩ := safe many
    rw [unsafeBody_eq describes, fixed, single]
    rfl
  refine ⟨next, ?_, there, count, shorter⟩
  rw [bodyAtom_eq, ran, Option.map_some]
  dsimp only
  rw [counted]
  dsimp only
  rw [checkPiece_quiet free harmless, varies, mergeBody_repeated describes]

theorem unit_of_left (ready : At parser (point :: behind)) (basic : point < 0xD800) :
    ∃ unit later, parser.rest = unit :: later ∧ unit.toNat = point := by
  obtain ⟨unit, later, shape, _, same, _⟩ := codePoints_eq_cons_basic ready.left (by omega)
  exact ⟨unit, later, shape, same⟩

/-- What `atom` does to a character that is neither an escape nor a bracket. -/
theorem atom_single {unit : UInt16} (shape : parser.rest = unit :: later)
    (slash : unit.toNat ≠ '\\'.toNat) (bracket : unit.toNat ≠ '['.toNat)
    (open_ : unit.toNat ≠ '('.toNat) (passes : includes "*+?\x7b\x7d]" unit.toNat = false) :
    parser.atom group = some (parser.advance 1, none) := by
  have peeked : parser.peek 0 = some unit.toNat := by
    rw [peek_zero, shape]
    rfl
  have other {code : Nat} (differs : unit.toNat ≠ code) : some unit.toNat ≠ some code :=
    fun same => differs (Option.some.inj same)
  unfold atom
  dsimp only
  rw [peeked, if_neg (other slash), if_neg (other bracket), if_neg (other open_), Option.any_some,
    passes, failIf_false]

/-- The characters that the loop and `atom` take as they stand. -/
theorem plain_passes (plain : includes syntaxCharacters code = false) :
    includes "\\[(*+?\x7b\x7d])|^$" code = false := by
  have each : ∀ code < 0x80, includes "\\[(*+?\x7b\x7d])|^$" code = true →
      includes syntaxCharacters code = true := by decide
  rw [Bool.eq_false_iff]
  intro marked
  rw [each code (includes_basic marked (by decide)) marked] at plain
  cases plain

theorem ne_of_includes {text : String} {other : Nat} (apart : includes text code = false)
    (inside : includes text other = true) : code ≠ other := by
  intro same
  rw [same, inside] at apart
  cases apart

theorem atom_literal {unit : UInt16} (shape : parser.rest = unit :: later)
    (plain : includes syntaxCharacters unit.toNat = false) :
    parser.atom group = some (parser.advance 1, none) := by
  have passes := plain_passes plain
  have inner : includes "*+?\x7b\x7d]" unit.toNat = false := by
    have each : ∀ code < 0x80, includes "*+?\x7b\x7d]" code = true →
        includes "\\[(*+?\x7b\x7d])|^$" code = true := by decide
    rw [Bool.eq_false_iff]
    intro marked
    rw [each _ (includes_basic marked (by decide)) marked] at passes
    cases passes
  exact atom_single shape (ne_of_includes passes (by decide)) (ne_of_includes passes (by decide))
    (ne_of_includes passes (by decide)) inner

theorem and_empty (found : Body) : found.and .empty = found := by
  unfold Body.and
  simp [Tree.variableCount, Tree.alternates]

theorem startsQuantifier_large (large : 0x80 ≤ code) :
    startsQuantifier (code :: points) = false := by
  unfold startsQuantifier
  rw [head?_cons, Option.any_some, Bool.eq_false_iff]
  intro known
  have small : code < 0x80 := includes_basic known (by decide)
  omega

/-- A round takes the first half of a pair of surrogates. -/
theorem body_half (found : Body) (fuel : Nat) {high low : UInt16} (top : Bool)
    (shape : parser.rest = high :: low :: later) (fine : parser.error = none)
    (first : High high.toNat) (second : Low low.toNat) :
    ∃ next, body top (fuel + 1) parser found = body top fuel next found ∧
      next.rest = low :: later ∧ At next (low.toNat :: codePoints later) ∧
      next.variableQuantifiers = parser.variableQuantifiers := by
  have large := first
  have behind := second
  unfold High at large
  unfold Low at behind
  have marks : ∀ code < 0x80, high.toNat ≠ code := fun code small => by omega
  have rest_eq : (parser.advance 1).rest = low :: later := by
    rw [advance, shape]
    rfl
  have reached : At (parser.advance 1) (low.toNat :: codePoints later) := by
    refine ⟨fine, ?_⟩
    rw [left, rest_eq]
    exact codePoints_single (not_pairAt (low_not_high second))
  have ran : parser.atom (fun inner => body true fuel inner {}) = some (parser.advance 1, none) :=
    atom_literal shape (large_plain (by omega))
  refine ⟨{ parser.advance 1 with isVariable := false }, ?_, rest_eq,
    ⟨reached.fine, reached.left⟩, rfl⟩
  rw [body_round shape fine (marks _ (by decide)) (marks _ (by decide)), bodyAtom_eq, ran]
  simp only [Option.map_some, Option.bind_some]
  rw [quantifier_none reached (startsQuantifier_large (by omega))]
  show body top fuel { parser.advance 1 with isVariable := false } (mergeBody found none false) = _
  have nothing : Describes none .empty := describes_none rfl rfl
  rw [mergeBody_plain nothing, and_empty]

end Rounds

section Phrases

variable {points behind rest : List Nat} {first others tree : Tree}

/-- The loop passes a phrase with this tree, up to what is left behind it. -/
def Reaches (points : List Nat) (tree : Tree) (rest : List Nat) : Prop :=
  ∀ group parser found fuel, At parser points →
    parser.variableQuantifiers + tree.variableCount ≤ maxVariable → parser.rest.length < fuel →
    ∃ next left, At next rest ∧
      next.variableQuantifiers = parser.variableQuantifiers + tree.variableCount ∧
      next.rest.length < left ∧
      body group fuel parser found = body group left next (found.and tree)

/-- `atom` passes an atom with this tree, or the loop the first half of a pair of surrogates. -/
def AtomReaches (points : List Nat) (tree : Tree) (rest : List Nat) : Prop :=
  ∀ parser fuel, At parser points →
    parser.variableQuantifiers + tree.variableCount ≤ maxVariable → parser.rest.length ≤ fuel →
    (∃ next read, parser.atom (fun inner => body true fuel inner {}) = some (next, read) ∧
      At next rest ∧ next.rest.length < parser.rest.length ∧
      next.variableQuantifiers = parser.variableQuantifiers + tree.variableCount ∧
      Describes read tree) ∨
    ∃ high low later, parser.rest = high :: low :: later ∧ High high.toNat ∧ Low low.toNat ∧
      codePoints later = rest ∧ tree.variableCount = 0 ∧ tree.alternates = false

theorem Reaches.joined (before : Reaches points first behind) (after : Reaches behind others rest)
    (joined : Joined tree first others) : Reaches points tree rest := by
  intro group parser found fuel ready few enough
  rw [joined.count] at few
  obtain ⟨middle, between, reached, count, less, same⟩ :=
    before group parser found fuel ready (by omega) enough
  obtain ⟨next, left, ended, counted, fewer, later⟩ :=
    after group middle (found.and first) between reached (by omega) less
  refine ⟨next, left, ended, ?_, fewer, ?_⟩
  · rw [counted, count, joined.count, Nat.add_assoc]
  · rw [same, later, joined.and]

theorem reaches_empty (rest : List Nat) : Reaches rest .empty rest := by
  intro group parser found fuel ready few enough
  exact ⟨parser, fuel, ready, rfl, enough, by rw [and_empty]⟩

/-- A bar makes an alternation of what is found. -/
theorem Reaches.bar (after : Reaches behind others rest) :
    Reaches ('|'.toNat :: behind) (.choice .empty others) rest := by
  intro group parser found fuel ready few enough
  obtain ⟨unit, later, shape, same⟩ := unit_of_left ready (by decide)
  simp only [Tree.variableCount, Nat.zero_add] at few ⊢
  cases fuel with
  | zero => omega
  | succ fuel =>
    have filled : 0 < parser.rest.length := by
      rw [shape]
      exact Nat.succ_pos _
    have shorter := parser.advance_length 1
    obtain ⟨next, left, ended, counted, fewer, ran⟩ :=
      after group (parser.advance 1) { found with alternation := true } fuel
        (ready.advance (by decide)) few (by omega)
    refine ⟨next, left, ended, counted, fewer, ?_⟩
    rw [body_bar shape ready.fine same, ran]
    congr 1
    unfold Body.and
    simp [Tree.variableCount, Tree.alternates]

variable {parser : PatternParser} {point : Nat}

theorem length_pos_of_at (ready : At parser (point :: behind)) : 0 < parser.rest.length := by
  rw [length_pos_iff]
  intro empty
  have none_ := ready.left
  rw [rest_of_left_nil.mpr empty] at none_
  cases none_

/-- An anchor is taken as it stands. -/
theorem reaches_anchor (anchor : point = '^'.toNat ∨ point = '$'.toNat)
    (fixed : tree.variableCount = 0) (single : tree.alternates = false)
    (plain : startsQuantifier rest = false) : Reaches (point :: rest) tree rest := by
  intro group parser found fuel ready few enough
  have basic : point < 0x80 := by
    rcases anchor with same | same
    · rw [same]
      decide
    · rw [same]
      decide
  obtain ⟨unit, later, shape, same⟩ := unit_of_left ready (by omega)
  have apart : ∀ code, code ≠ '^'.toNat → code ≠ '$'.toNat → unit.toNat ≠ code := by
    intro code caret dollar equal
    rw [same] at equal
    rcases anchor with mark | mark
    · exact caret (equal.symm.trans mark)
    · exact dollar (equal.symm.trans mark)
  have passes : includes "*+?\x7b\x7d]" unit.toNat = false := by
    rw [same]
    rcases anchor with mark | mark
    · rw [mark]
      decide
    · rw [mark]
      decide
  cases fuel with
  | zero => omega
  | succ fuel =>
    have filled := length_pos_of_at ready
    have shorter := parser.advance_length 1
    have ran : parser.atom (fun inner => body true fuel inner {}) = some (parser.advance 1, none) :=
      atom_single shape (apart _ (by decide) (by decide)) (apart _ (by decide) (by decide))
        (apart _ (by decide) (by decide)) passes
    obtain ⟨next, passed, reached, count, less⟩ := bodyAtom_plain found ran
      (ready.advance (by omega)) plain (describes_none fixed single) unit.toNat
    refine ⟨next, fuel, reached, by rw [count, fixed]; rfl, by omega, ?_⟩
    rw [body_round shape ready.fine (apart _ (by decide) (by decide))
      (apart _ (by decide) (by decide)), passed]
    rfl

/-- The first character of an atom is one that the loop gives to `atom`. -/
theorem atom_first (derived : Derives .atom points tree rest) :
    ∃ point behind, points = point :: behind ∧ includes ")|^$?*+\x7b" point = false := by
  cases derived with
  | @literal point rest plain =>
    refine ⟨_, _, rfl, ?_⟩
    have each : ∀ code < 0x80, includes ")|^$?*+\x7b" code = true →
        includes syntaxCharacters code = true := by decide
    rw [Bool.eq_false_iff]
    intro marked
    rw [each _ (includes_basic marked (by decide)) marked] at plain
    cases plain
  | any rest => exact ⟨_, _, rfl, by decide⟩
  | escape rest known => exact ⟨_, _, rfl, by decide⟩
  | shorthand rest known => exact ⟨_, _, rfl, by decide⟩
  | characterClass caret filled members => exact ⟨_, _, rfl, by decide⟩
  | negatedClass filled members => exact ⟨_, _, rfl, by decide⟩
  | group body => exact ⟨_, _, rfl, by decide⟩
  | plainGroup body => exact ⟨_, _, rfl, by decide⟩

theorem startsQuantifier_of_first (first : includes ")|^$?*+\x7b" point = false) :
    startsQuantifier (point :: behind) = false := by
  have each : ∀ code < 0x80, includes "?*+\x7b" code = true → includes ")|^$?*+\x7b" code = true := by
    decide
  unfold startsQuantifier
  rw [head?_cons, Option.any_some, Bool.eq_false_iff]
  intro marked
  rw [each _ (includes_basic marked (by decide)) marked] at first
  cases first

/-- A branch does not begin with a quantifier. -/
theorem branch_first (derived : Derives .branch points tree rest)
    (plain : startsQuantifier rest = false) : startsQuantifier points = false := by
  cases derived with
  | empty rest => exact plain
  | append piece branch =>
    cases piece with
    | start rest => exact (by decide : includes "?*+\x7b" '^'.toNat = false)
    | stop rest => exact (by decide : includes "?*+\x7b" '$'.toNat = false)
    | plain atom =>
      obtain ⟨point, behind, shape, first⟩ := atom_first atom
      rw [shape]
      exact startsQuantifier_of_first first
    | quantified atom text =>
      obtain ⟨point, behind, shape, first⟩ := atom_first atom
      rw [shape]
      exact startsQuantifier_of_first first

/-- The first unit of an atom is one that the loop gives to `atom`. -/
theorem unit_of_atom (derived : Derives .atom points tree rest) (ready : At parser points) :
    ∃ unit later, parser.rest = unit :: later ∧ includes ")|^$?*+\x7b" unit.toNat = false := by
  obtain ⟨point, behind, shape, first⟩ := atom_first derived
  rw [shape] at ready
  rcases codePoints_eq_cons ready.left with ⟨unit, rest, text, _, same, _⟩ |
      ⟨high, low, rest, text, surrogate, _, _, _⟩
  · rw [← same] at first
    exact ⟨unit, rest, text, first⟩
  · refine ⟨high, _, text, ?_⟩
    unfold High at surrogate
    rw [Bool.eq_false_iff]
    intro known
    have small : high.toNat < 0x80 := includes_basic known (by decide)
    omega

/-- A piece with an atom that `atom` passes. -/
theorem atomReaches_round {code : Nat} {middle : PatternParser} (group : Bool) (found : Body)
    (fuel : Nat) {unit : UInt16} {later : Text} {piece : Tree} (shape : parser.rest = unit :: later)
    (fine : parser.error = none) (first : includes ")|^$?*+\x7b" unit.toNat = false)
    (step : ∃ next, parser.bodyAtom (fun inner => body true fuel inner {}) found unit.toNat =
        some (next, found.and piece) ∧ At next rest ∧ next.variableQuantifiers = code ∧
        next.rest.length ≤ middle.rest.length)
    (less : middle.rest.length < fuel) :
    ∃ next left, At next rest ∧ next.variableQuantifiers = code ∧ next.rest.length < left ∧
      body group (fuel + 1) parser found = body group left next (found.and piece) := by
  obtain ⟨next, passed, reached, count, fewer⟩ := step
  refine ⟨next, fuel, reached, count, by omega, ?_⟩
  rw [body_round shape fine (ne_of_includes first (by decide)) (ne_of_includes first (by decide)),
    passed]
  rfl

/-- What the end of a round makes of an atom: the piece with as many more variable quantifiers. -/
def RoundEnds (behind : List Nat) (tree piece : Tree) (extra : Nat) (rest : List Nat) : Prop :=
  ∀ inner (parser middle : PatternParser) read found code,
    parser.atom inner = some (middle, read) → At middle behind → Describes read tree →
    middle.variableQuantifiers + extra ≤ maxVariable →
    code ≠ '^'.toNat ∧ code ≠ '$'.toNat →
    ∃ next, parser.bodyAtom inner found code = some (next, found.and piece) ∧ At next rest ∧
      next.variableQuantifiers = middle.variableQuantifiers + extra ∧
      next.rest.length ≤ middle.rest.length

theorem AtomReaches.piece {piece : Tree} {extra : Nat} (reaches : AtomReaches points tree behind)
    (derived : Derives .atom points tree behind) (ends : RoundEnds behind tree piece extra rest)
    (count : piece.variableCount = tree.variableCount + extra) : Reaches points piece rest := by
  intro group parser found fuel ready few enough
  rw [count] at few ⊢
  obtain ⟨unit, later, shape, first⟩ := unit_of_atom derived ready
  have free := And.intro (ne_of_includes first (by decide : _ = true) : unit.toNat ≠ '^'.toNat)
    (ne_of_includes first (by decide : _ = true) : unit.toNat ≠ '$'.toNat)
  cases fuel with
  | zero => omega
  | succ fuel =>
    rcases reaches parser fuel ready (by omega) (by omega) with
      ⟨middle, read, ran, reached, less, counted, describes⟩ |
      ⟨high, low, later, pair, upper, lower, left, fixed, single⟩
    · have step := ends _ parser middle read found unit.toNat ran reached describes (by omega) free
      rw [counted, Nat.add_assoc] at step
      exact atomReaches_round group found fuel shape ready.fine first step (by omega)
    · obtain ⟨half, same, split, reached, kept⟩ :=
        body_half found fuel group pair ready.fine upper lower
      have surrogate := lower
      unfold Low at surrogate
      have plain : includes syntaxCharacters low.toNat = false := large_plain (by omega)
      have alone : includes ")|^$?*+\x7b" low.toNat = false := by
        rw [Bool.eq_false_iff]
        intro known
        have small : low.toNat < 0x80 := includes_basic known (by decide)
        omega
      have long := congrArg List.length pair
      have short := congrArg List.length split
      simp only [length_cons] at long short
      cases fuel with
      | zero => omega
      | succ fuel =>
        have ran : half.atom (fun inner => body true fuel inner {}) =
            some (half.advance 1, none) := atom_literal split plain
        have there : At (half.advance 1) behind := by
          refine ⟨reached.fine, ?_⟩
          rw [PatternParser.left, advance, split]
          exact left
        have step := ends _ half (half.advance 1) none found low.toNat ran there
          (describes_none fixed single) (by
            show half.variableQuantifiers + extra ≤ maxVariable
            omega)
          ⟨ne_of_includes alone (by decide), ne_of_includes alone (by decide)⟩
        have total : (half.advance 1).variableQuantifiers + extra =
            parser.variableQuantifiers + (tree.variableCount + extra) := by
          show half.variableQuantifiers + extra = _
          rw [kept, fixed, Nat.zero_add]
        rw [total] at step
        have fewer := half.advance_length 1
        rw [same]
        exact atomReaches_round group found fuel split reached.fine alone step (by omega)

theorem roundEnds_plain (plain : startsQuantifier rest = false) :
    RoundEnds rest tree tree 0 rest := by
  intro inner parser middle read found code ran reached describes _ _
  exact bodyAtom_plain found ran reached plain describes code

theorem roundEnds_repeated {quantifier : Quantifier}
    (text : QuantifierText behind quantifier rest) (plain : startsQuantifier rest = false)
    (safe : 1 < quantifier.max → tree.variableCount = 0 ∧ tree.alternates = false) :
    RoundEnds behind tree (.repeated tree quantifier) (if quantifier.IsVariable then 1 else 0)
      rest := by
  intro inner parser middle read found code ran reached describes few free
  exact bodyAtom_repeated ran reached text plain few describes free safe

theorem at_single {unit : UInt16} {later : Text} (ready : At parser points)
    (shape : parser.rest = unit :: later) (apart : ¬ PairAt unit later) :
    points = unit.toNat :: codePoints later ∧ At (parser.advance 1) (codePoints later) := by
  have whole := ready.left
  rw [PatternParser.left, shape, codePoints_single apart] at whole
  refine ⟨whole.symm, ready.fine, ?_⟩
  rw [PatternParser.left, advance, shape]
  rfl

theorem atomReaches_literal (plain : includes syntaxCharacters point = false) :
    AtomReaches (point :: rest) (.literal point) rest := by
  intro parser fuel ready few enough
  rcases codePoints_eq_cons ready.left with ⟨unit, later, shape, apart, same, left⟩ |
      ⟨high, low, later, shape, first, second, _, left⟩
  · refine Or.inl ⟨parser.advance 1, none, ?_, ?_, ?_, rfl, describes_none rfl rfl⟩
    · rw [← same] at plain
      exact atom_literal shape plain
    · rw [← left]
      exact (at_single ready shape apart).2
    · rw [advance, shape]
      exact Nat.lt_succ_self _
  · exact Or.inr ⟨high, low, later, shape, first, second, left, rfl, rfl⟩

theorem atomReaches_any : AtomReaches ('.'.toNat :: rest) .any rest := by
  intro parser fuel ready few enough
  obtain ⟨unit, later, shape, same⟩ := unit_of_left ready (by decide)
  refine Or.inl ⟨parser.advance 1, none, ?_, ready.advance (by decide), ?_, rfl,
    describes_none rfl rfl⟩
  · apply atom_single shape
    · rw [same]
      decide
    · rw [same]
      decide
    · rw [same]
      decide
    · rw [same]
      decide
  · rw [advance, shape]
    exact Nat.lt_succ_self _

theorem atomReaches_escape {code : Nat} (fixed : tree.variableCount = 0)
    (single : tree.alternates = false)
    (known : (includes shorthands code || includes escaped code) = true) :
    AtomReaches ('\\'.toNat :: code :: rest) tree rest := by
  intro parser fuel ready few enough
  obtain ⟨next, ran, reached, kept⟩ := escape_complete (ready.advance (by decide)) known
  have peeked : parser.peek 0 = some '\\'.toNat := by
    rw [peek_iff (by decide), ready.left]
    rfl
  have filled := length_pos_of_at ready
  have shorter := parser.advance_length 1
  have fewer := escape_length (parser.advance 1)
  rw [ran] at fewer
  refine Or.inl ⟨next, none, ?_, reached, ?_, ?_, describes_none fixed single⟩
  · unfold atom
    dsimp only
    rw [peeked, if_pos rfl, ran]
  · dsimp only at fewer
    omega
  · rw [fixed, kept]
    rfl

theorem atomReaches_class (fixed : tree.variableCount = 0) (single : tree.alternates = false)
    (text : ClassText points tree rest) : AtomReaches ('['.toNat :: points) tree rest := by
  intro parser fuel ready few enough
  obtain ⟨next, ran, reached, kept⟩ := characterClass_complete text (ready.advance (by decide))
  obtain ⟨other, total, fewer⟩ := characterClass_total (parser.advance 1)
  rw [ran] at total
  cases total
  have peeked : parser.peek 0 = some '['.toNat := by
    rw [peek_iff (by decide), ready.left]
    rfl
  have filled := length_pos_of_at ready
  have shorter := parser.advance_length 1
  refine Or.inl ⟨next, none, ?_, reached, by omega, ?_, describes_none fixed single⟩
  · unfold atom
    dsimp only
    rw [peeked, if_neg (by decide), if_pos rfl, ran]
    rfl
  · rw [fixed, kept]
    rfl

/-- The parser of groups passes the body of a group and its end. -/
theorem Reaches.group (reaches : Reaches points tree (')'.toNat :: rest)) (fuel : Nat)
    (ready : At parser points) (few : parser.variableQuantifiers + tree.variableCount ≤ maxVariable)
    (enough : parser.rest.length < fuel) :
    ∃ next, body true fuel parser {} = some (next, ({} : Body).and tree) ∧ At next rest ∧
      next.variableQuantifiers = parser.variableQuantifiers + tree.variableCount ∧
      next.rest.length ≤ parser.rest.length := by
  obtain ⟨middle, left, reached, counted, less, same⟩ :=
    reaches true parser {} fuel ready few enough
  obtain ⟨unit, later, shape, close⟩ := unit_of_left reached (by decide)
  obtain ⟨last, result, ended, fewer⟩ := @body_ends parser {} true _ enough
  cases left with
  | zero => omega
  | succ left =>
    rw [body_close shape reached.fine close] at same
    rw [same] at ended
    refine ⟨middle.advance 1, same, reached.advance (by decide), counted, ?_⟩
    cases ended
    exact fewer

theorem atomReaches_group (reaches : Reaches points tree (')'.toNat :: rest))
    (plain : points.head? ≠ some '?'.toNat) : AtomReaches ('('.toNat :: points) (.group tree) rest := by
  intro parser fuel ready few enough
  have inside := ready.advance (by decide)
  have filled := length_pos_of_at ready
  have shorter := parser.advance_length 1
  obtain ⟨next, ran, reached, counted, fewer⟩ := reaches.group fuel inside few (by omega)
  have peeked : parser.peek 0 = some '('.toNat := by
    rw [peek_iff (by decide), ready.left]
    rfl
  have behind : (parser.advance 1).peek 0 ≠ some '?'.toNat := by
    rw [ne_eq, peek_iff (by decide), inside.left]
    exact plain
  refine Or.inl ⟨next, some (({} : Body).and tree), ?_, reached, by omega, counted, describes_group⟩
  unfold atom
  dsimp only
  rw [peeked, if_neg (by decide), if_neg (by decide), if_pos rfl, if_neg behind, ran]
  rfl

theorem atomReaches_plainGroup (reaches : Reaches points tree (')'.toNat :: rest)) :
    AtomReaches ('('.toNat :: '?'.toNat :: ':'.toNat :: points) (.group tree) rest := by
  intro parser fuel ready few enough
  have inside := ready.advance (by decide)
  have colon := inside.advance (by decide)
  have body_ := colon.advance (by decide)
  have twice : ((parser.advance 1).advance 1).advance 1 = (parser.advance 1).advance 2 := by
    simp [advance, drop_drop]
  rw [twice] at body_
  have filled := length_pos_of_at ready
  have shorter := parser.advance_length 1
  have less := (parser.advance 1).advance_length 2
  obtain ⟨next, ran, reached, counted, fewer⟩ := reaches.group fuel body_ few (by omega)
  have peeked : parser.peek 0 = some '('.toNat := by
    rw [peek_iff (by decide), ready.left]
    rfl
  have behind : (parser.advance 1).peek 0 = some '?'.toNat := by
    rw [peek_iff (by decide), inside.left]
    rfl
  have starts : (parser.advance 1).startsWith "?:" = true := by
    obtain ⟨first, later, shape, same⟩ := unit_of_left inside (by decide)
    obtain ⟨second, last, text, equal⟩ := unit_of_left colon (by decide)
    have follows : later = second :: last := by
      rw [← text, advance, shape]
      rfl
    have mark : first = UInt16.ofNat '?'.toNat := UInt16.toNat_inj.mp same
    have point : second = UInt16.ofNat ':'.toNat := UInt16.toNat_inj.mp equal
    unfold startsWith
    rw [shape, follows, mark, point]
    rfl
  refine Or.inl ⟨next, some (({} : Body).and tree), ?_, reached, by omega, counted, describes_group⟩
  unfold atom
  dsimp only
  rw [peeked, if_neg (by decide), if_neg (by decide), if_pos rfl, if_pos behind, if_pos starts, ran]
  rfl

/-- What may follow a phrase. -/
def Follows : Symbol → List Nat → Prop
  | .body, rest => ∀ point, rest.head? = some point → point = ')'.toNat
  | .branch, rest => ∀ point, rest.head? = some point → point = ')'.toNat ∨ point = '|'.toNat
  | .piece, rest => startsQuantifier rest = false
  | .atom, _ => True

theorem startsQuantifier_of_follows
    (follows : ∀ point, rest.head? = some point → point = ')'.toNat ∨ point = '|'.toNat) :
    startsQuantifier rest = false := by
  cases rest with
  | nil => rfl
  | cons point behind =>
    rcases follows point rfl with same | same
    · rw [same]
      exact (by decide : includes "?*+\x7b" ')'.toNat = false)
    · rw [same]
      exact (by decide : includes "?*+\x7b" '|'.toNat = false)

theorem body_first (derived : Derives .body points tree (')'.toNat :: rest)) :
    points.head? ≠ some '?'.toNat := by
  have plain : startsQuantifier points = false := by
    cases derived with
    | one only => exact branch_first only (by decide : includes "?*+\x7b" ')'.toNat = false)
    | more branch body => exact branch_first branch (by decide : includes "?*+\x7b" '|'.toNat = false)
  intro mark
  rw [startsQuantifier, mark, Option.any_some] at plain
  revert plain
  decide

/-- What the parser does to a phrase. -/
def Passed : Symbol → List Nat → Tree → List Nat → Prop
  | .atom, points, tree, rest => AtomReaches points tree rest
  | _, points, tree, rest => Reaches points tree rest

theorem Derives.passed {symbol : Symbol} (derived : Derives symbol points tree rest)
    (repeats : tree.RepeatsSafely) (follows : Follows symbol rest) :
    Passed symbol points tree rest := by
  induction derived with
  | one only ih => exact ih repeats fun point first => Or.inl (follows point first)
  | @more points behind rest first others branch body before after =>
    have joined : Joined (.choice first others) first (.choice .empty others) :=
      ⟨by simp [Tree.variableCount], by simp [Tree.alternates], fun left right => ⟨left, right.2⟩⟩
    have bar := before repeats.1 fun point first => Or.inr (Option.some.inj first).symm
    exact bar.joined (after repeats.2 follows).bar joined
  | empty rest => exact reaches_empty rest
  | append piece branch before after =>
    have plain := branch_first branch (startsQuantifier_of_follows follows)
    exact (before repeats.1 plain).joined (after repeats.2 follows)
      ⟨rfl, rfl, fun left right => ⟨left, right⟩⟩
  | start rest => exact reaches_anchor (Or.inl rfl) rfl rfl follows
  | stop rest => exact reaches_anchor (Or.inr rfl) rfl rfl follows
  | plain atom ih => exact (ih repeats trivial).piece atom (roundEnds_plain follows) rfl
  | quantified atom text ih =>
    exact (ih repeats.1 trivial).piece atom (roundEnds_repeated text follows repeats.2) rfl
  | literal rest plain => exact atomReaches_literal plain
  | any rest => exact atomReaches_any
  | escape rest known => exact atomReaches_escape rfl rfl (by rw [known, Bool.or_true])
  | shorthand rest known => exact atomReaches_escape rfl rfl (by rw [known, Bool.true_or])
  | characterClass caret filled members =>
    exact atomReaches_class rfl rfl ⟨_, filled, Or.inl ⟨caret, members, rfl⟩⟩
  | negatedClass filled members =>
    exact atomReaches_class rfl rfl ⟨_, filled, Or.inr ⟨_, rfl, members, rfl⟩⟩
  | group body ih =>
    exact atomReaches_group (ih repeats fun point first => (Option.some.inj first).symm)
      (body_first body)
  | plainGroup body ih =>
    exact atomReaches_plainGroup (ih repeats fun point first => (Option.some.inj first).symm)

end Phrases

end PatternParser

section Whole

variable {pattern : Text} {tree : Tree}

open PatternParser

/-- The parser accepts a pattern exactly when the grammar has it within the limits. -/
theorem parseCheckPattern_ok :
    parseCheckPattern pattern = some .ok ↔ ∃ tree, Allowed pattern tree := by
  unfold parseCheckPattern
  constructor
  · intro accepted
    split at accepted
    · cases accepted
    · rename_i short
      obtain ⟨⟨next, result⟩, ran, given⟩ := Option.map_eq_some_iff.mp accepted
      have fine : next.error = none := by
        cases failed : next.error with
        | none => rfl
        | some message =>
          dsimp only at given
          rw [failed] at given
          cases given
      obtain ⟨_, done, tree, derived, tallied, _⟩ := body_sound ran fine
      have left_nil : next.left = [] := rest_of_left_nil.mpr (done rfl)
      rw [behindBody, if_neg (by decide), left_nil] at derived
      refine ⟨tree, Nat.le_of_not_lt short, derived, ?_, tallied.repeats⟩
      have count := tallied.counted
      by_cases some_ : 0 < tree.variableCount
      · have few := tallied.few some_
        dsimp only at count
        omega
      · omega
  · rintro ⟨tree, allowed⟩
    rw [if_neg (Nat.not_lt.mpr allowed.short)]
    have reaches := Derives.passed allowed.derived allowed.repeats fun point first => nomatch first
    obtain ⟨next, left, reached, _, less, same⟩ :=
      reaches false { rest := pattern } {} (pattern.length + 1) ⟨rfl, rfl⟩
        (by rw [Nat.zero_add]; exact allowed.choices) (Nat.lt_succ_self _)
    have empty := rest_of_left_nil.mp reached.left
    cases left with
    | zero => omega
    | succ left =>
      rw [same, body_nil empty, Bool.false_and, failIf_false, Option.map_some]
      dsimp only
      rw [reached.fine]
      rfl

theorem parseCheckPattern_ends : ∃ result, parseCheckPattern pattern = some result := by
  unfold parseCheckPattern
  split
  · exact ⟨_, rfl⟩
  · obtain ⟨next, result, ran, _⟩ := @body_ends { rest := pattern } {} false _
      (Nat.lt_succ_self pattern.length)
    exact ⟨_, by rw [ran]; rfl⟩

end Whole

end AutoMobile.CheckPattern
