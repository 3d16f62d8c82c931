import AutoMobile.CheckPatternRegExp

/- The parser, the grammar and the regular expression agree on every pattern. -/
namespace AutoMobile.CheckPattern

open List PatternParser Utf16

section Whole

variable {pattern : Text} {tree : Tree} {value : List Nat}

/-- What stands behind the source of the pattern. -/
def wholeEnd : List Nat := ascii ")$(?![\\s\\S])"

theorem regExpSource_points : codePoints (regExpSource pattern) =
      ascii "^(?:" ++ (pointsFrom false (codePoints pattern) ++ wholeEnd) := by
  have behind : NotLow (units ")$(?![\\s\\S])") := by
    have plain := @units_notLow ")$(?![\\s\\S])" (by decide) (by decide) []
    rwa [append_nil] at plain
  have ended : codePoints (units ")$(?![\\s\\S])") = wholeEnd := by
    have spelled := @codePoints_units ")$(?![\\s\\S])" (by decide) []
    rw [append_nil] at spelled
    rw [spelled]
    exact append_nil _
  rw [regExpSource, append_assoc, codePoints_units (by decide), patternSource,
    codePoints_source false pattern behind, ended]

theorem patternSource_points :
    codePoints (patternSource pattern) = pointsFrom false (codePoints pattern) := by
  have behind : NotLow [] := fun _ _ shape => nomatch shape
  have points := codePoints_source false pattern behind
  rw [append_nil] at points
  rw [patternSource, points]
  exact append_nil _

/-- The assertion that nothing follows. -/
theorem notAhead_text : EcmaRegExp.Derives .term (ascii "(?![\\s\\S])")
    (.notAhead (.append (.characterClass false [.escape 's'.toNat, .escape 'S'.toNat]) .empty))
    [] := by
  have contents : EcmaRegExp.ClassRanges .contents (ascii "\\s\\S])")
      [.escape 's'.toNat, .escape 'S'.toNat] (ascii "])") :=
    .filled (.first (.other (.classEscape _ (by decide)))
      (.lastNoDash (.other (.classEscape _ (by decide)))))
  have class_ : EcmaRegExp.Derives .atom (ascii "[\\s\\S])")
      (.characterClass false [.escape 's'.toNat, .escape 'S'.toNat]) (ascii ")") :=
    .characterClass (by decide) contents
  exact .notAhead (.one (.append (.plain class_) (.empty _)))

theorem Allowed.patternSource (allowed : Allowed pattern tree) :
    EcmaRegExp.Pattern (codePoints (patternSource pattern)) tree.regExp := by
  have text := allowed.derived.source_text []
  rw [append_nil] at text
  rw [patternSource_points]
  exact text

theorem Allowed.regExpSource (allowed : Allowed pattern tree) :
    EcmaRegExp.Pattern (codePoints (regExpSource pattern)) tree.whole := by
  rw [regExpSource_points]
  have body : EcmaRegExp.Derives .disjunction (pointsFrom false (codePoints pattern) ++ wholeEnd)
      tree.regExp (')'.toNat :: ascii "$(?![\\s\\S])") := allowed.derived.source_text wholeEnd
  have rest : EcmaRegExp.Derives .alternative (ascii "$(?![\\s\\S])")
      (.append .lineEnd (.append (.notAhead (.append
        (.characterClass false [.escape 's'.toNat, .escape 'S'.toNat]) .empty)) .empty)) [] :=
    .append (.lineEnd _) (.append notAhead_text (.empty _))
  exact .one (.append (.lineStart _) (.append (.plain (.plainGroup body)) rest))

theorem whole_test (same : ∀ i j, tree.regExp.Matches value i j ↔ tree.Matches value i j) :
    tree.whole.Test value ↔ tree.Accepts value := by
  have past (holds : Nat → Prop) (k : Nat) : ¬ EcmaRegExp.Reads value holds value.length k := by
    rintro ⟨_, code, read, _⟩
    rw [getElem?_eq_none (Nat.le_refl _)] at read
    cases read
  constructor
  · rintro ⟨i, j, _, k, ⟨start, moved⟩, middle, inside, after, ⟨ended, _⟩, _⟩
    rw [← moved, start, ended] at inside
    exact (same _ _).mp inside
  · intro accepted
    refine ⟨0, value.length, Nat.zero_le _, 0, ⟨rfl, rfl⟩, value.length, (same _ _).mpr accepted,
      value.length, ⟨rfl, rfl⟩, value.length, ⟨?_, rfl⟩, rfl⟩
    rintro ⟨k, middle, read, _⟩
    exact past _ _ read

theorem Allowed.test (allowed : Allowed pattern tree) (value : Text) :
    tree.whole.Test (codePoints value) ↔ tree.Accepts (codePoints value) :=
  whole_test fun _ _ => allowed.derived.matches_regExp fun _ => codePoints_le

/-- `test` is what the language does: it tests the value with the tree of the source. -/
def Follows (test : Text → Text → Bool) : Prop :=
  ∀ source value regExp, EcmaRegExp.Pattern (codePoints source) regExp →
    (test source value = true ↔ regExp.Test (codePoints value))

theorem matchesCheckPattern_iff {test : Text → Text → Bool} (follows : Follows test) (value : Text) :
    matchesCheckPattern test pattern value = true ↔
      ∃ tree, Allowed pattern tree ∧ tree.Accepts (codePoints value) := by
  unfold matchesCheckPattern
  by_cases accepted : parseCheckPattern pattern = some .ok
  · rw [if_neg (not_not_intro accepted)]
    obtain ⟨tree, allowed⟩ := parseCheckPattern_ok.mp accepted
    rw [follows _ _ _ allowed.regExpSource, allowed.test]
    constructor
    · intro matched
      exact ⟨tree, allowed, matched⟩
    · rintro ⟨other, also, matched⟩
      rw [allowed.unique also] at matched
      exact matched
  · rw [if_pos accepted]
    constructor
    · intro impossible
      cases impossible
    · rintro ⟨tree, allowed, _⟩
      exact absurd (parseCheckPattern_ok.mpr ⟨tree, allowed⟩) accepted

/-- The parser ends on every pattern and accepts those of the grammar; such a pattern has one tree,
and the expressions made of it are well formed and match what the tree matches. -/
theorem checkPattern_exact (pattern : Text) : (∃ result, parseCheckPattern pattern = some result) ∧
      (parseCheckPattern pattern = some .ok ↔ ∃ tree, Allowed pattern tree) ∧
      (∀ tree other, Allowed pattern tree → Allowed pattern other → other = tree) ∧
      ∀ tree, Allowed pattern tree →
        EcmaRegExp.Pattern (codePoints (patternSource pattern)) tree.regExp ∧
        (∀ value i j, tree.regExp.Matches (codePoints value) i j ↔
          tree.Matches (codePoints value) i j) ∧
        EcmaRegExp.Pattern (codePoints (regExpSource pattern)) tree.whole ∧
        ∀ value, tree.whole.Test (codePoints value) ↔ tree.Accepts (codePoints value) := by
  refine ⟨parseCheckPattern_ends, parseCheckPattern_ok, fun tree other => Allowed.unique, ?_⟩
  intro tree allowed
  exact ⟨allowed.patternSource, fun _ _ _ => allowed.derived.matches_regExp fun _ => codePoints_le,
    allowed.regExpSource, allowed.test⟩

end Whole

end AutoMobile.CheckPattern
