import AutoMobile.BundleZip

/- The names that a bundle may hold: none of the checks on names refuses them. -/
namespace AutoMobile.BundleZip

open ByteRecords List

/-- `.`, `/`, a digit or a small letter. -/
def PlainByte (byte : UInt8) : Prop := (0x2e ≤ byte ∧ byte ≤ 0x39) ∨ (0x61 ≤ byte ∧ byte ≤ 0x7a)

instance (byte : UInt8) : Decidable (PlainByte byte) := by
  unfold PlainByte
  infer_instance

theorem bundleAssert_ok {condition : Prop} [Decidable condition] {code : BundleErrorCode}
    {path : Option Name} (holds : condition) : bundleAssert condition code path = .ok () :=
  if_pos holds

theorem ok_bind {α β : Type} (value : α) (next : α → Except BundleFailure β) :
    (Except.ok value >>= next) = next value := rfl

theorem bind_error {α β : Type} {first : Except BundleFailure α} {failure : BundleFailure}
    {next : α → Except BundleFailure β} (failed : first = .error failure) :
    (first >>= next) = .error failure := by
  rw [failed]
  rfl

theorem bind_ok {α β : Type} {first : Except BundleFailure α} {value : α} {result : β}
    {next : α → Except BundleFailure β} (done : first = .ok value)
    (rest : next value = .ok result) : (first >>= next) = .ok result := by
  rw [done]
  exact rest

def folders : List String := ["assets/", "fonts/"]

def extensions : List String := [".png", ".jpg", ".webp", ".ttf", ".otf"]

variable {name : Name}

theorem hexDigit_plain {byte : UInt8} (digit : hexDigit byte = true) :
    PlainByte byte ∧ byte ≠ 0x2e ∧ byte ≠ 0x2f := by
  simp only [hexDigit, Bool.or_eq_true, Bool.and_eq_true, decide_eq_true_eq] at digit
  simp only [PlainByte, UInt8.le_iff_toNat_le, ne_eq, ← UInt8.toNat_inj] at digit ⊢
  simp only [UInt8.reduceToNat] at digit ⊢
  omega

theorem addressedName_parts {folder : String} {known : List String}
    (addressed : addressedName folder known name = true) :
    ∃ digits extension, name = ascii folder ++ (digits ++ ascii extension) ∧
      digits.length = 64 ∧ (∀ digit ∈ digits, hexDigit digit = true) ∧ extension ∈ known := by
  simp only [addressedName, Bool.and_eq_true, beq_iff_eq, all_eq_true, any_eq_true,
    isPrefixOf_iff_prefix] at addressed
  obtain ⟨⟨⟨⟨rest, whole⟩, long⟩, digits⟩, extension, listed, ending⟩ := addressed
  rw [← whole, drop_left] at long digits
  rw [← whole, drop_append, drop_eq_nil_of_le (Nat.le_add_right _ _), nil_append,
    Nat.add_sub_cancel_left] at ending
  refine ⟨rest.take 64, extension, ?_, long, digits, listed⟩
  rw [← ending, take_append_drop, whole]

/-- An allowed name is one of the two fixed names, or a folder with digits and an extension. -/
theorem ENTRY_PATTERN_cases (allowed : ENTRY_PATTERN name = true) :
    (name = ascii "bundle.json" ∨ name = ascii "spec.json") ∨
      ∃ folder ∈ folders, ∃ digits, ∃ extension ∈ extensions,
        name = ascii folder ++ (digits ++ ascii extension) ∧ digits.length = 64 ∧
          ∀ digit ∈ digits, hexDigit digit = true := by
  simp only [ENTRY_PATTERN, Bool.or_eq_true, beq_iff_eq] at allowed
  obtain (fixed | asset) | font := allowed
  · exact .inl fixed
  · obtain ⟨digits, extension, whole, long, hex, known⟩ := addressedName_parts asset
    have listed : extension ∈ extensions := by
      simp only [extensions, mem_cons] at known ⊢
      tauto
    exact .inr ⟨"assets/", by decide, digits, extension, listed, whole, long, hex⟩
  · obtain ⟨digits, extension, whole, long, hex, known⟩ := addressedName_parts font
    have listed : extension ∈ extensions := by
      simp only [extensions, mem_cons] at known ⊢
      tauto
    exact .inr ⟨"fonts/", by decide, digits, extension, listed, whole, long, hex⟩

theorem sublist_of_mem_splitOn {separator : UInt8} {part : Bytes}
    (listed : part ∈ name.splitOn separator) : part.Sublist name := by
  induction name generalizing part with
  | nil =>
    rw [splitOn_nil, mem_singleton] at listed
    rw [listed]
  | cons byte rest ih =>
    rw [splitOn_cons_eq_if_modifyHead] at listed
    split at listed
    · obtain empty | later := mem_cons.1 listed
      · rw [empty]
        exact nil_sublist _
      · exact (ih later).trans (sublist_cons_self _ _)
    · cases parts : rest.splitOn separator with
      | nil => exact absurd parts (splitOn_ne_nil _ _)
      | cons first others =>
        rw [parts, modifyHead_cons] at listed
        obtain here | later := mem_cons.1 listed
        · rw [here]
          exact (ih (by rw [parts]; exact mem_cons_self)).cons_cons byte
        · exact (ih (by rw [parts]; exact mem_cons_of_mem _ later)).trans
            (sublist_cons_self _ _)

/-- What the checks on a name look at. -/
structure PlainName (name : Name) : Prop where
  plain : ∀ byte ∈ name, PlainByte byte
  start : ∃ opening ∈ ["bundle.json", "spec.json", "assets/", "fonts/"], ascii opening <+: name
  ending : ∃ closing ∈ ["json", ".png", ".jpg", ".webp", ".ttf", ".otf"], ascii closing <:+ name
  dots : name.count 0x2e = 1
  size : name.length = 9 ∨ name.length = 11 ∨ 20 ≤ name.length
  short : name.length < 0x10000

theorem plainName_addressed {folder extension : String} {digits : Bytes}
    (opening : folder ∈ folders) (closing : extension ∈ extensions) (long : digits.length = 64)
    (hex : ∀ digit ∈ digits, hexDigit digit = true) :
    PlainName (ascii folder ++ (digits ++ ascii extension)) := by
  have folderBytes : ∀ known ∈ folders, (∀ byte ∈ ascii known, PlainByte byte) ∧
      (ascii known).count 0x2e = 0 ∧ (ascii known).length ≤ 7 ∧
      known ∈ ["bundle.json", "spec.json", "assets/", "fonts/"] := by decide +kernel
  have extensionBytes : ∀ known ∈ extensions, (∀ byte ∈ ascii known, PlainByte byte) ∧
      (ascii known).count 0x2e = 1 ∧ (ascii known).length ≤ 5 ∧
      known ∈ ["json", ".png", ".jpg", ".webp", ".ttf", ".otf"] := by decide +kernel
  obtain ⟨plainFolder, noDot, shortFolder, folderOpens⟩ := folderBytes folder opening
  obtain ⟨plainExtension, oneDot, shortExtension, extensionCloses⟩ :=
    extensionBytes extension closing
  have dotless : digits.count 0x2e = 0 := by
    refine count_eq_zero.2 fun inside => ?_
    exact (hexDigit_plain (hex _ inside)).2.1 rfl
  constructor
  case plain =>
    intro byte inside
    obtain first | digit | last : byte ∈ ascii folder ∨ byte ∈ digits ∨ byte ∈ ascii extension := by
      simpa only [mem_append] using inside
    · exact plainFolder byte first
    · exact (hexDigit_plain (hex byte digit)).1
    · exact plainExtension byte last
  case start => exact ⟨folder, folderOpens, prefix_append _ _⟩
  case ending => exact ⟨extension, extensionCloses, (suffix_append _ _).trans (suffix_append _ _)⟩
  case dots => rw [count_append, count_append, noDot, dotless, oneDot]
  case size =>
    simp only [length_append]
    omega
  case short =>
    simp only [length_append]
    omega

theorem plainName_of_allowed (allowed : ENTRY_PATTERN name = true) : PlainName name := by
  obtain (rfl | rfl) | ⟨folder, opening, digits, extension, closing, rfl, long, hex⟩ :=
    ENTRY_PATTERN_cases allowed
  · exact ⟨by decide +kernel, ⟨"bundle.json", by decide, by decide +kernel⟩,
      ⟨"json", by decide, by decide +kernel⟩, by decide +kernel, by decide, by decide⟩
  · exact ⟨by decide +kernel, ⟨"spec.json", by decide, by decide +kernel⟩,
      ⟨"json", by decide, by decide +kernel⟩, by decide +kernel, by decide, by decide⟩
  · exact plainName_addressed opening closing long hex

section Checks

variable (plain : PlainName name)

include plain

theorem PlainName.not_prefix {other : Bytes}
    (differs : ∀ opening ∈ ["bundle.json", "spec.json", "assets/", "fonts/"],
      ¬ ascii opening <+: other ∧ ¬ other <+: ascii opening) : ¬ other <+: name := by
  intro starts
  obtain ⟨opening, known, opens⟩ := plain.start
  obtain first | second := prefix_or_prefix_of_prefix starts opens
  · exact (differs opening known).2 first
  · exact (differs opening known).1 second

theorem PlainName.not_suffix {other : Bytes}
    (differs : ∀ closing ∈ ["json", ".png", ".jpg", ".webp", ".ttf", ".otf"],
      ¬ ascii closing <:+ other ∧ ¬ other <:+ ascii closing) : ¬ other <:+ name := by
  intro ends
  obtain ⟨closing, known, closes⟩ := plain.ending
  obtain first | second := suffix_or_suffix_of_suffix ends closes
  · exact (differs closing known).2 first
  · exact (differs closing known).1 second

theorem PlainName.not_mem {byte : UInt8} (strange : ¬ PlainByte byte) : byte ∉ name :=
  fun inside => strange (plain.plain byte inside)

/-- No part of the path is `..`, since the whole of it has one dot. -/
theorem PlainName.no_parent : ascii ".." ∉ name.splitOn 0x2f := by
  intro parent
  have few := (sublist_of_mem_splitOn parent).count_le 0x2e
  rw [plain.dots] at few
  exact absurd few (by decide)

theorem PlainName.toLowerCase_eq : toLowerCase name = name := by
  refine (map_congr_left fun byte inside => ?_).trans (map_id name)
  refine if_neg fun capital => ?_
  have small := plain.plain byte inside
  simp only [PlainByte, UInt8.le_iff_toNat_le, UInt8.reduceToNat] at small capital
  omega

end Checks

theorem safeName_of_plain (plain : PlainName name) : safeName name = .ok name := by
  have bytes : (∀ byte ∈ name, ¬ (byte = 0 ∨ 127 < byte)) ∧ 0x5c ∉ name := by
    refine ⟨fun byte inside => ?_, plain.not_mem (by decide)⟩
    have small := plain.plain byte inside
    simp only [PlainByte, UInt8.le_iff_toNat_le, UInt8.reduceToNat, UInt8.lt_iff_toNat_lt,
      ← UInt8.toNat_inj] at small ⊢
    omega
  have underscore : (0x5f : UInt8) ∉ name := plain.not_mem (by decide)
  have folderName : ¬ ascii "__MACOSX" <:+: name := fun inside =>
    underscore (inside.subset (by decide))
  have path : ¬ ascii "/" <+: name ∧ ascii ".." ∉ name.splitOn 0x2f ∧ ¬ ascii "__MACOSX" <:+: name :=
    ⟨plain.not_prefix (by decide), plain.no_parent, folderName⟩
  have file : ¬ ascii "/" <:+ name := plain.not_suffix (by decide)
  refine bind_ok (bundleAssert_ok bytes) ?_
  refine bind_ok (bundleAssert_ok path) ?_
  exact bind_ok (bundleAssert_ok file) rfl

end AutoMobile.BundleZip
