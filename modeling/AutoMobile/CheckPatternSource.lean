import AutoMobile.CheckPatternUnique

/- The regular expression that is made of a pattern, as code points: it is the pattern with another text
for some of its escapes. -/
namespace AutoMobile.CheckPattern

open List PatternParser Utf16

section Points

variable {text tail rest : Text} {points : List Nat} {inClass : Bool}

/-- A text of ASCII as code points. -/
def ascii (text : String) : List Nat := text.toList.map Char.toNat

theorem codePoints_units {text : String}
    (basic : (text.toList.all fun char => char.toNat < 0x80) = true) (rest : Text) :
    codePoints (units text ++ rest) = ascii text ++ codePoints rest := by
  unfold units ascii
  revert basic
  generalize text.toList = chars
  intro basic
  induction chars with
  | nil => rfl
  | cons char others ih =>
    rw [all_cons, Bool.and_eq_true, decide_eq_true_iff] at basic
    have same : (UInt16.ofNat char.toNat).toNat = char.toNat := by
      rw [UInt16.toNat_ofNat']
      omega
    rw [map_cons, cons_append, codePoints_plain (by omega), same, ih basic.2]
    rfl

/-- `escapeSource`, as code points. -/
def escapePoints (inClass : Bool) (code : Nat) : List Nat :=
  if code = 's'.toNat then ascii (if inClass then " \\t\\r\\n\\f\\v" else "[ \\t\\r\\n\\f\\v]")
  else if code = 'S'.toNat then
    ascii (if inClass then "\\x00-\\x08\\x0e-\\x1f\\x21-\\u\x7b10ffff\x7d" else "[^ \\t\\r\\n\\f\\v]")
  else if code = '-'.toNat then ascii (if inClass then "\\-" else "-")
  else ['\\'.toNat, code]

/-- `sourceFrom`, on code points. -/
def pointsFrom (inClass : Bool) : List Nat → List Nat
  | [] => []
  | code :: rest =>
    if code ≠ '\\'.toNat then
      code :: pointsFrom (if code = '['.toNat then true
        else if code = ']'.toNat then false else inClass) rest
    else match rest with
      | [] => ascii "\\undefined"
      | next :: rest => escapePoints inClass next ++ pointsFrom inClass rest

/-- What does not begin with the second half of a pair of surrogates. -/
def NotLow (text : Text) : Prop := ∀ unit rest, text = unit :: rest → ¬ Low unit.toNat

theorem units_notLow {text : String} (filled : text.toList ≠ [])
    (basic : (text.toList.all fun char => char.toNat < 0x80) = true) (rest : Text) :
    NotLow (units text ++ rest) := by
  unfold units
  cases chars : text.toList with
  | nil => exact absurd chars filled
  | cons char others =>
    rw [chars, all_cons, Bool.and_eq_true, decide_eq_true_iff] at basic
    intro unit behind shape
    injection shape with same _
    rw [← same, UInt16.toNat_ofNat']
    unfold Low
    omega

theorem escapeSource_notLow (char : UInt16) (rest : Text) :
    NotLow (escapeSource inClass char ++ rest) := by
  unfold escapeSource
  split
  · cases inClass <;> exact units_notLow (by decide) (by decide) rest
  · split
    · cases inClass <;> exact units_notLow (by decide) (by decide) rest
    · split
      · cases inClass <;> exact units_notLow (by decide) (by decide) rest
      · rw [append_assoc]
        exact units_notLow (by decide) (by decide) _

variable {char : UInt16} {code : Nat}

theorem sourceFrom_plain (plain : char.toNat ≠ '\\'.toNat) :
    sourceFrom inClass (char :: rest) = char :: sourceFrom (if char.toNat = '['.toNat then true
      else if char.toNat = ']'.toNat then false else inClass) rest := by
  rw [sourceFrom.eq_def]
  exact if_pos plain

theorem sourceFrom_escape {next : UInt16} (slash : char.toNat = '\\'.toNat) :
    sourceFrom inClass (char :: next :: rest) =
      escapeSource inClass next ++ sourceFrom inClass rest := by
  rw [sourceFrom.eq_def]
  exact if_neg (not_not_intro slash)

theorem sourceFrom_trailing (slash : char.toNat = '\\'.toNat) :
    sourceFrom inClass [char] = units "\\undefined" := by
  rw [sourceFrom.eq_def]
  exact if_neg (not_not_intro slash)

theorem pointsFrom_plain {rest : List Nat} (plain : code ≠ '\\'.toNat) :
    pointsFrom inClass (code :: rest) = code :: pointsFrom (if code = '['.toNat then true
      else if code = ']'.toNat then false else inClass) rest := by
  rw [pointsFrom.eq_def]
  exact if_pos plain

theorem pointsFrom_escape {rest : List Nat} : pointsFrom inClass ('\\'.toNat :: code :: rest) =
      escapePoints inClass code ++ pointsFrom inClass rest := by
  rw [pointsFrom.eq_def]
  exact if_neg (not_not_intro rfl)

theorem pointsFrom_trailing : pointsFrom inClass ['\\'.toNat] = ascii "\\undefined" := by
  rw [pointsFrom.eq_def]
  exact if_neg (not_not_intro rfl)

/-- A pair of surrogates stands in the source where it stands in the pattern. -/
theorem sourceFrom_notLow (behind : NotLow tail) (plain : NotLow rest) :
    NotLow (sourceFrom inClass rest ++ tail) := by
  cases rest with
  | nil =>
    rw [sourceFrom]
    exact behind
  | cons char later =>
    by_cases slash : char.toNat = '\\'.toNat
    · cases later with
      | nil =>
        rw [sourceFrom_trailing slash]
        exact units_notLow (by decide) (by decide) tail
      | cons next others =>
        rw [sourceFrom_escape slash, append_assoc]
        exact escapeSource_notLow next _
    · rw [sourceFrom_plain slash]
      intro unit others shape
      injection shape with same _
      rw [← same]
      exact plain char later rfl

theorem not_pairAt_of_notLow {unit : UInt16} (plain : NotLow rest) : ¬ PairAt unit rest := by
  rintro ⟨low, later, shape, _, second⟩
  exact plain low later shape second

theorem not_pairAt_source {unit : UInt16} (behind : NotLow tail) (apart : ¬ PairAt unit rest) :
    ¬ PairAt unit (sourceFrom inClass rest ++ tail) := by
  by_cases high : High unit.toNat
  · apply not_pairAt_of_notLow
    apply sourceFrom_notLow behind
    intro low later shape second
    exact apart ⟨low, later, shape, high, second⟩
  · exact not_pairAt high

theorem escapeSource_known (known : char.toNat < 0x80) (rest : Text) :
    codePoints (escapeSource inClass char ++ rest) =
      escapePoints inClass char.toNat ++ codePoints rest := by
  unfold escapeSource escapePoints
  split
  · cases inClass <;> exact codePoints_units (by decide) rest
  · split
    · cases inClass <;> exact codePoints_units (by decide) rest
    · split
      · cases inClass <;> exact codePoints_units (by decide) rest
      · rw [append_assoc, codePoints_units (by decide), singleton_append,
          codePoints_plain (by omega)]
        rfl

theorem escapePoints_large (large : 0x80 ≤ code) :
    escapePoints inClass code = ['\\'.toNat, code] := by
  have apart : ∀ other < 0x80, code ≠ other := fun other small => by omega
  unfold escapePoints
  rw [if_neg (apart _ (by decide)), if_neg (apart _ (by decide)), if_neg (apart _ (by decide))]

theorem escapeSource_large (large : 0x80 ≤ char.toNat) :
    escapeSource inClass char = units "\\" ++ [char] := by
  have apart : ∀ other < 0x80, char.toNat ≠ other := fun other small => by omega
  unfold escapeSource
  rw [if_neg (apart _ (by decide)), if_neg (apart _ (by decide)), if_neg (apart _ (by decide))]

/-- The code points of the source are made of the code points of the pattern. -/
theorem codePoints_source (inClass : Bool) (text : Text) (behind : NotLow tail) :
    codePoints (sourceFrom inClass text ++ tail) =
      pointsFrom inClass (codePoints text) ++ codePoints tail := by
  induction length : text.length using Nat.strongRecOn generalizing inClass text with
  | ind size ih =>
    cases text with
    | nil => rfl
    | cons char rest =>
      rw [length_cons] at length
      by_cases slash : char.toNat = '\\'.toNat
      · have small : char.toNat < 0xD800 := by
          rw [slash]
          decide
        rw [codePoints_plain small, slash]
        cases rest with
        | nil =>
          rw [sourceFrom_trailing slash, codePoints_units (by decide)]
          exact congrArg (· ++ _) pointsFrom_trailing.symm
        | cons next others =>
          rw [length_cons] at length
          rw [sourceFrom_escape slash, append_assoc]
          by_cases known : next.toNat < 0x80
          · rw [escapeSource_known known, codePoints_plain (by omega), pointsFrom_escape,
              ih others.length (by omega) inClass others rfl, append_assoc]
          · rw [escapeSource_large (by omega), append_assoc,
              codePoints_units (by decide), singleton_append]
            by_cases pair : PairAt next others
            · obtain ⟨low, later, shape, high, second⟩ := pair
              have plain : low.toNat ≠ '\\'.toNat := by
                intro same
                rw [same] at second
                revert second
                decide
              have mark : ∀ other < 0x80, low.toNat ≠ other := by
                intro other small
                unfold Low at second
                omega
              rw [shape] at length ⊢
              rw [length_cons] at length
              have beyond := paired_gt next.toNat low.toNat
              rw [sourceFrom_plain plain, if_neg (mark _ (by decide)),
                if_neg (mark _ (by decide)), cons_append, codePoints_pair high second,
                codePoints_pair high second, pointsFrom_escape,
                escapePoints_large (by omega), ih later.length (by omega) inClass later rfl]
              rfl
            · rw [codePoints_single pair,
                codePoints_single (not_pairAt_source behind pair), pointsFrom_escape,
                escapePoints_large (by omega), ih others.length (by omega) inClass others rfl]
              rfl
      · rw [sourceFrom_plain slash, cons_append]
        by_cases pair : PairAt char rest
        · obtain ⟨low, later, shape, high, second⟩ := pair
          have plain : low.toNat ≠ '\\'.toNat := by
            intro same
            rw [same] at second
            revert second
            decide
          have mark : ∀ other < 0x80, low.toNat ≠ other := by
            intro other small
            unfold Low at second
            omega
          have top : ∀ other < 0x80, char.toNat ≠ other := by
            intro other small
            unfold High at high
            omega
          have beyond := paired_gt char.toNat low.toNat
          have far : ∀ other < 0x80, paired char.toNat low.toNat ≠ other := fun other small => by
            omega
          rw [shape] at length ⊢
          rw [length_cons] at length
          rw [if_neg (top _ (by decide)), if_neg (top _ (by decide)), sourceFrom_plain plain,
            if_neg (mark _ (by decide)), if_neg (mark _ (by decide)), cons_append,
            codePoints_pair high second, codePoints_pair high second,
            pointsFrom_plain (far _ (by decide)), if_neg (far _ (by decide)),
            if_neg (far _ (by decide)), ih later.length (by omega) inClass later rfl]
          rfl
        · rw [codePoints_single pair, codePoints_single (not_pairAt_source behind pair),
            pointsFrom_plain slash, ih rest.length (by omega) _ rest rfl]
          rfl

end Points

end AutoMobile.CheckPattern
