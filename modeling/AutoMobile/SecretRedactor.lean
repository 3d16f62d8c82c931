import Mathlib.Data.List.Infix
import Mathlib.Data.List.Sort
import AutoMobile.Utf16Text

/- `SecretRedactor`: the forms in which a secret value may occur, and the passes that take every one
of them out of a text. Unicode normalization is a parameter. -/
namespace AutoMobile.SecretRedactor

open List Utf16

section Texts

/-- `String.contains`. -/
def contains (text value : Text) : Bool :=
  match text with
  | [] => value.isEmpty
  | unit :: rest => value.isPrefixOf (unit :: rest) || contains rest value

theorem contains_iff (text value : Text) : contains text value = true ↔ value <:+: text := by
  induction text with
  | nil =>
    unfold contains
    rw [List.isEmpty_iff, infix_nil]
  | cons unit rest ih =>
    unfold contains
    rw [Bool.or_eq_true, isPrefixOf_iff_prefix, ih, infix_cons_iff]

/-- `String.replace`, behind an occurrence of which `skip` units are left: the occurrences are taken
from the left and do not overlap. -/
def replaceFrom (value replacement : Text) : Nat → Text → Text
  | _, [] => []
  | skip + 1, _ :: rest => replaceFrom value replacement skip rest
  | 0, unit :: rest =>
    if value.isPrefixOf (unit :: rest) then
      replacement ++ replaceFrom value replacement (value.length - 1) rest
    else unit :: replaceFrom value replacement 0 rest

def replace (text value replacement : Text) : Text := replaceFrom value replacement 0 text

example : replace (units "aaXa") (units "aa") (units "-") = units "-Xa" := by decide

end Texts

section Forms

/-- `code.toString(16).padStart(4, '0')`. -/
def hexCode (code : Nat) : Text :=
  let digits := (Nat.toDigits 16 code).map fun char => UInt16.ofNat char.toNat
  List.replicate (4 - digits.length) 48 ++ digits

/-- The escape of one unit inside a JSON string. -/
def escapeUnit (character : UInt16) : Text :=
  if character = 34 then units "\\\""
  else if character = 92 then units "\\\\"
  else if character = 10 then units "\\n"
  else if character = 13 then units "\\r"
  else if character = 9 then units "\\t"
  else if character = 8 then units "\\b"
  else if character = 12 then units "\\f"
  else if character < 32 then units "\\u" ++ hexCode character.toNat
  else [character]

def jsonEscape (value : Text) : Text := value.flatMap escapeUnit

/-- `LinkedHashSet.add`. -/
def addValue (values : List Text) (value : Text) : List Text :=
  if values.contains value then values else values ++ [value]

/-- A form, and its escapes. -/
def encodings (form : Text) : List Text := [form, jsonEscape form, jsonEscape (jsonEscape form)]

/-- A value as it stands, and in its two normal forms. -/
def forms (normalizeNfc normalizeNfd : Text → Text) (value : Text) : List Text :=
  [value, normalizeNfc value, normalizeNfd value]

def secretValues (normalizeNfc normalizeNfd : Text → Text) (concreteValues : List Text) :
    List Text :=
  concreteValues.foldl (fun values value =>
    if value.isEmpty then values
    else ((forms normalizeNfc normalizeNfd value).flatMap encodings).foldl addValue values) []

theorem escapeUnit_ne_nil (character : UInt16) : escapeUnit character ≠ [] := by
  unfold escapeUnit
  repeat' split
  all_goals first | decide | simp [units]

theorem jsonEscape_ne_nil {value : Text} (some' : value ≠ []) : jsonEscape value ≠ [] := by
  cases value with
  | nil => exact absurd rfl some'
  | cons character rest =>
    unfold jsonEscape
    rw [flatMap_cons]
    exact append_ne_nil_of_left_ne_nil (escapeUnit_ne_nil character) _

theorem mem_addValue {values : List Text} {value other : Text} :
    other ∈ addValue values value ↔ other ∈ values ∨ other = value := by
  unfold addValue
  split
  next present =>
    constructor
    · exact Or.inl
    · intro either
      rcases either with member | same
      · exact member
      · rw [same]
        exact contains_iff_mem.mp present
  next => rw [mem_append, mem_singleton]

theorem mem_foldl_addValue {added values : List Text} {other : Text} :
    other ∈ added.foldl addValue values ↔ other ∈ values ∨ other ∈ added := by
  induction added generalizing values with
  | nil => simp
  | cons value rest ih => rw [foldl_cons, ih, mem_addValue, mem_cons, or_assoc]

variable {normalizeNfc normalizeNfd : Text → Text}

/-- The values are the encodings of the forms of those that are not empty. -/
theorem mem_secretValues {concreteValues : List Text} {secret : Text} :
    secret ∈ secretValues normalizeNfc normalizeNfd concreteValues ↔
      ∃ value ∈ concreteValues, value ≠ [] ∧
        ∃ form ∈ forms normalizeNfc normalizeNfd value, secret ∈ encodings form := by
  have each : ∀ (rest values : List Text), secret ∈ rest.foldl (fun values value =>
        if value.isEmpty then values
        else ((forms normalizeNfc normalizeNfd value).flatMap encodings).foldl addValue values)
        values ↔
      secret ∈ values ∨ ∃ value ∈ rest, value ≠ [] ∧
        ∃ form ∈ forms normalizeNfc normalizeNfd value, secret ∈ encodings form := by
    intro rest
    induction rest with
    | nil => simp
    | cons value rest ih =>
      intro values
      rw [foldl_cons, ih]
      by_cases empty : value = []
      · subst empty
        simp
      · rw [if_neg (by simpa using empty), mem_foldl_addValue, mem_flatMap]
        simp [empty, or_assoc]
  unfold secretValues
  rw [each]
  simp

end Forms

section Redaction

def placeholder : Text := units "***REDACTED***"

/-- What a value is replaced by: a part of the marker is removed. -/
def markFor (value : Text) : Text := if contains placeholder value then [] else placeholder

def replaceEach (text : Text) (ordered : List Text) : Option Text :=
  let done := ordered.foldl (fun (state : Text × Bool) value =>
    if contains state.1 value then (replace state.1 value (markFor value), true) else state)
    (text, false)
  if done.2 then some done.1 else none

/-- What `repeat` leaves: the text that a pass returned, or the one that the last pass made. -/
inductive Passed where
  | returned (redacted : Text)
  | bounded (redacted : Text)
deriving DecidableEq

def passes (ordered : List Text) : Nat → Text → Passed
  | 0, redacted => .bounded redacted
  | left + 1, redacted =>
    match replaceEach redacted ordered with
    | none => .returned redacted
    | some again => passes ordered left again

/-- The values that are not empty, the longest first, by a stable sort. -/
def orderedValues (secretValues : List Text) : List Text :=
  (secretValues.filter fun value => !value.isEmpty).insertionSort fun first second =>
    second.length ≤ first.length

def redact (text : Text) (secretValues : List Text) : Text :=
  let ordered := orderedValues secretValues
  if ordered.isEmpty then text
  else
    match passes ordered (ordered.length + 1) text with
    | .returned redacted => redacted
    | .bounded redacted =>
      if ordered.all fun value => !contains redacted value then redacted
      else if ordered.any fun value => contains placeholder value then [] else placeholder

/-- None of the values occurs in the text. -/
def Clean (ordered : List Text) (text : Text) : Prop := ∀ value ∈ ordered, ¬ value <:+: text

variable {ordered secrets : List Text} {text : Text}

theorem mem_orderedValues {secret : Text} :
    secret ∈ orderedValues secrets ↔ secret ∈ secrets ∧ secret ≠ [] := by
  unfold orderedValues
  rw [mem_insertionSort, mem_filter]
  simp

/-- Once a value has been replaced, the pass has changed the text. -/
theorem changed_foldl (ordered : List Text) (state : Text × Bool) (changed : state.2 = true) :
    (ordered.foldl (fun (state : Text × Bool) value =>
      if contains state.1 value then (replace state.1 value (markFor value), true) else state)
      state).2 = true := by
  induction ordered generalizing state with
  | nil => exact changed
  | cons value rest ih =>
    rw [foldl_cons]
    split
    · exact ih _ rfl
    · exact ih _ changed

/-- A pass finds nothing exactly where no value occurs. -/
theorem replaceEach_eq_none_iff : replaceEach text ordered = none ↔ Clean ordered text := by
  unfold replaceEach
  induction ordered with
  | nil =>
    refine iff_of_true rfl ?_
    intro value member
    cases member
  | cons value rest ih =>
    rw [foldl_cons]
    by_cases occurs : contains text value = true
    · rw [if_pos occurs]
      refine iff_of_false ?_ ?_
      · have changed := changed_foldl rest (replace text value (markFor value), true) rfl
        dsimp only
        rw [if_pos changed]
        exact Option.some_ne_none _
      · intro clean
        exact clean value mem_cons_self ((contains_iff text value).mp occurs)
    · rw [if_neg occurs, ih]
      unfold Clean
      rw [forall_mem_cons, ← contains_iff]
      exact (and_iff_right occurs).symm

theorem passes_returned (left : Nat) {redacted : Text}
    (returned : passes ordered left text = .returned redacted) : Clean ordered redacted := by
  induction left generalizing text with
  | zero => cases returned
  | succ left ih =>
    unfold passes at returned
    split at returned
    next none =>
      cases returned
      exact replaceEach_eq_none_iff.mp none
    next again _ => exact ih returned

theorem passes_of_clean (left : Nat) (clean : Clean ordered text) :
    passes ordered (left + 1) text = .returned text := by
  unfold passes
  rw [replaceEach_eq_none_iff.mpr clean]

/-- Whatever the passes leave, the result is clean. -/
theorem clean_redact (text : Text) (secrets : List Text) :
    Clean (orderedValues secrets) (redact text secrets) := by
  unfold redact
  dsimp only
  split
  next empty =>
    rw [List.isEmpty_iff.mp empty]
    intro value member
    cases member
  next =>
    split
    next redacted returned => exact passes_returned _ returned
    next redacted _ =>
      split
      next clean =>
        intro value member occurs
        have absent := all_eq_true.mp clean value member
        rw [(contains_iff redacted value).mpr occurs] at absent
        cases absent
      next =>
        split
        next =>
          intro value member occurs
          exact (mem_orderedValues.mp member).2 (infix_nil.mp occurs)
        next apart =>
          intro value member occurs
          apply apart
          exact any_eq_true.mpr ⟨value, member, (contains_iff placeholder value).mpr occurs⟩

theorem redact_of_clean (clean : Clean (orderedValues secrets) text) :
    redact text secrets = text := by
  unfold redact
  dsimp only
  split
  · rfl
  · rw [passes_of_clean _ clean]

theorem clean_of_absent (absent : ∀ secret ∈ secrets, secret ≠ [] → ¬ secret <:+: text) :
    Clean (orderedValues secrets) text := by
  intro value member
  obtain ⟨listed, some'⟩ := mem_orderedValues.mp member
  exact absent value listed some'

/-- No secret occurs in a redacted text, a text without secrets stays as it is, and so does a
redacted one; and no encoding of a value's forms survives that is not empty itself. -/
theorem redact_never_leaks (normalizeNfc normalizeNfd : Text → Text) (text : Text) : (∀ secrets,
      (∀ secret ∈ secrets, secret ≠ [] → ¬ secret <:+: redact text secrets) ∧
      ((∀ secret ∈ secrets, secret ≠ [] → ¬ secret <:+: text) → redact text secrets = text) ∧
      redact (redact text secrets) secrets = redact text secrets) ∧
    ∀ concreteValues, ∀ value ∈ concreteValues, value ≠ [] →
      ∀ form ∈ [value, normalizeNfc value, normalizeNfd value], form ≠ [] →
        ∀ secret ∈ [form, jsonEscape form, jsonEscape (jsonEscape form)],
          ¬ secret <:+: redact text (secretValues normalizeNfc normalizeNfd concreteValues) := by
  refine ⟨fun secrets => ⟨?_, ?_, ?_⟩, ?_⟩
  · intro secret member some'
    exact clean_redact text secrets secret (mem_orderedValues.mpr ⟨member, some'⟩)
  · intro absent
    exact redact_of_clean (clean_of_absent absent)
  · exact redact_of_clean (clean_redact text secrets)
  · intro concreteValues value member some' form listed filled secret encoded
    have occurs : secret ≠ [] := by
      have once := jsonEscape_ne_nil filled
      have twice := jsonEscape_ne_nil once
      simp only [mem_cons, not_mem_nil, or_false] at encoded
      rcases encoded with rfl | rfl | rfl
      · exact filled
      · exact once
      · exact twice
    have secrets : secret ∈ secretValues normalizeNfc normalizeNfd concreteValues :=
      mem_secretValues.mpr ⟨value, member, some', form, listed, encoded⟩
    exact clean_redact text _ secret (mem_orderedValues.mpr ⟨secrets, occurs⟩)

/-- The marker completes another secret, which the next pass takes out. -/
example : redact (units "XabcY") [units "abc", units "X***REDACTED***Y"] =
    units "***REDACTED***" := by
  decide +kernel

end Redaction

end AutoMobile.SecretRedactor
