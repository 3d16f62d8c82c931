import Mathlib.Data.List.Basic

/- Texts as scripts hold them: UTF-16 units, which are read as code points. A surrogate without its
partner is a code point of its own. -/
namespace Utf16

abbrev Text := List UInt16

/-- The units of a text without characters beyond the basic plane. -/
def units (text : String) : Text := text.toList.map fun char => UInt16.ofNat char.toNat

def High (code : Nat) : Prop := 0xD800 ≤ code ∧ code ≤ 0xDBFF

def Low (code : Nat) : Prop := 0xDC00 ≤ code ∧ code ≤ 0xDFFF

instance (code : Nat) : Decidable (High code) := by unfold High; infer_instance

instance (code : Nat) : Decidable (Low code) := by unfold Low; infer_instance

/-- The code point of a pair of surrogates. -/
def paired (high low : Nat) : Nat := 0x10000 + (high - 0xD800) * 0x400 + (low - 0xDC00)

/-- Whether a unit and what follows it begin with a pair of surrogates. -/
def PairAt (unit : UInt16) (rest : Text) : Prop :=
  ∃ low later, rest = low :: later ∧ High unit.toNat ∧ Low low.toNat

def codePoints : Text → List Nat
  | [] => []
  | [unit] => [unit.toNat]
  | unit :: next :: rest =>
    if High unit.toNat ∧ Low next.toNat then paired unit.toNat next.toNat :: codePoints rest
    else unit.toNat :: codePoints (next :: rest)

/-- `codePointAt`, at the start of the text. -/
def codePointAt : Text → Option Nat
  | [] => none
  | [unit] => some unit.toNat
  | unit :: next :: _ =>
    if High unit.toNat ∧ Low next.toNat then some (paired unit.toNat next.toNat)
    else some unit.toNat

section Reading

variable {unit low : UInt16} {text rest later : Text} {point : Nat} {points : List Nat}

theorem codePoints_pair (high : High unit.toNat) (second : Low low.toNat) :
    codePoints (unit :: low :: later) = paired unit.toNat low.toNat :: codePoints later :=
  if_pos ⟨high, second⟩

theorem codePoints_single (apart : ¬ PairAt unit rest) :
    codePoints (unit :: rest) = unit.toNat :: codePoints rest := by
  cases rest with
  | nil => rfl
  | cons next later =>
    apply if_neg
    intro both
    exact apart ⟨next, later, rfl, both.1, both.2⟩

theorem not_pairAt (plain : ¬ High unit.toNat) : ¬ PairAt unit rest := by
  rintro ⟨low, later, shape, high, second⟩
  exact plain high

/-- A unit that is no surrogate is a code point. -/
theorem codePoints_plain (plain : unit.toNat < 0xD800) :
    codePoints (unit :: rest) = unit.toNat :: codePoints rest := by
  apply codePoints_single
  apply not_pairAt
  unfold High
  omega

theorem codePointAt_single (apart : ¬ PairAt unit rest) :
    codePointAt (unit :: rest) = some unit.toNat := by
  cases rest with
  | nil => rfl
  | cons next later =>
    apply if_neg
    intro both
    exact apart ⟨next, later, rfl, both.1, both.2⟩

theorem codePointAt_pair (high : High unit.toNat) (second : Low low.toNat) :
    codePointAt (unit :: low :: later) = some (paired unit.toNat low.toNat) :=
  if_pos ⟨high, second⟩

theorem paired_gt (high low : Nat) : 0xffff < paired high low := by
  unfold paired
  omega

@[simp] theorem codePoints_eq_nil : codePoints text = [] ↔ text = [] := by
  constructor
  · intro empty
    match text with
    | [] => rfl
    | [unit] => cases empty
    | unit :: next :: rest =>
      rw [codePoints] at empty
      split at empty <;> cases empty
  · intro empty
    rw [empty]
    rfl

/-- The first code point is a unit or a pair of surrogates. -/
theorem codePoints_eq_cons (read : codePoints text = point :: points) :
    (∃ unit rest, text = unit :: rest ∧ ¬ PairAt unit rest ∧ unit.toNat = point ∧
      codePoints rest = points) ∨
    (∃ high low rest, text = high :: low :: rest ∧ High high.toNat ∧ Low low.toNat ∧
      paired high.toNat low.toNat = point ∧ codePoints rest = points) := by
  cases text with
  | nil => cases read
  | cons unit rest =>
    by_cases pair : PairAt unit rest
    · right
      obtain ⟨low, later, shape, high, second⟩ := pair
      rw [shape, codePoints_pair high second] at read
      injection read with same left
      exact ⟨unit, low, later, by rw [shape], high, second, same, left⟩
    · left
      rw [codePoints_single pair] at read
      injection read with same left
      exact ⟨unit, rest, rfl, pair, same, left⟩

/-- A code point of the basic plane is one unit. -/
theorem codePoints_eq_cons_basic (read : codePoints text = point :: points) (basic : point ≤ 0xffff) :
    ∃ unit rest, text = unit :: rest ∧ ¬ PairAt unit rest ∧ unit.toNat = point ∧
      codePoints rest = points := by
  rcases codePoints_eq_cons read with single | ⟨high, low, rest, shape, first, second, same, left⟩
  · exact single
  · have beyond := paired_gt high.toNat low.toNat
    omega

/-- Code points end with the last plane. -/
theorem codePoints_le {code : Nat} (member : code ∈ codePoints text) : code ≤ 0x10FFFF := by
  induction text using codePoints.induct with
  | case1 => cases member
  | case2 unit =>
    have small := unit.toNat_lt
    rw [codePoints, List.mem_singleton] at member
    omega
  | case3 unit next rest pair ih =>
    rw [codePoints_pair pair.1 pair.2, List.mem_cons] at member
    rcases member with same | member
    · have high := pair.1
      have low := pair.2
      unfold High at high
      unfold Low at low
      unfold paired at same
      omega
    · exact ih member
  | case4 unit next rest single ih =>
    have small := unit.toNat_lt
    rw [codePoints, if_neg single, List.mem_cons] at member
    rcases member with same | member
    · omega
    · exact ih member

theorem head_codePoints {code : Nat} (basic : code < 0xD800) :
    (codePoints text).head? = some code ↔ text.head?.map UInt16.toNat = some code := by
  cases text with
  | nil => rfl
  | cons unit rest =>
    by_cases pair : PairAt unit rest
    · obtain ⟨low, later, shape, high, second⟩ := pair
      rw [shape, codePoints_pair high second]
      have beyond := paired_gt unit.toNat low.toNat
      unfold High at high
      simp only [List.head?_cons, Option.map_some, Option.some.injEq]
      omega
    · rw [codePoints_single pair]
      rfl

theorem codePoints_drop {code : Nat} (basic : code < 0xD800)
    (first : text.head?.map UInt16.toNat = some code) :
    codePoints text = code :: codePoints (text.drop 1) := by
  cases text with
  | nil => cases first
  | cons unit rest =>
    have same : unit.toNat = code := by simpa using first
    rw [codePoints_plain (by omega), same]
    rfl

end Reading

end Utf16
