import AutoMobile.PrototypeChannelCoalesce
import AutoMobile.PrototypeDataLaws

/- What an upsert leaves of the rows of its array: one row takes the place of the first one with its
key, or comes last, and the window drops rows from the start. -/
namespace AutoMobile.PrototypeData

open List hiding keys
open InsertionMap LabelledTree Document ScriptValue

section Keys

variable {left right : Json}

theorem sameScalar_eq {left right : Scalar} (same : sameScalar left right = true) : left = right := by
  unfold sameScalar at same
  split at same
  · cases same
  · exact of_decide_eq_true same

theorem sameItems_eq {lefts rights : List Json} (length : lefts.length = rights.length)
    (each : ∀ left ∈ lefts, ∀ right ∈ rights, sameKey left right = true → left = right)
    (same : sameItems lefts rights = true) : lefts = rights := by
  induction lefts generalizing rights with
  | nil => exact (eq_nil_of_length_eq_zero length.symm).symm
  | cons left lefts ih =>
    cases rights with
    | nil => cases same
    | cons right rights =>
      rw [sameItems, Bool.and_eq_true] at same
      have here := each left mem_cons_self right mem_cons_self same.1
      have later := ih (Nat.succ.inj length)
        (fun one inside other known => each one (mem_cons_of_mem _ inside) other
          (mem_cons_of_mem _ known)) same.2
      rw [here, later]

theorem get?_of_sameMembers {lefts rights : List (String × Json)}
    (same : sameMembers lefts rights = true) {key : String} (member : (key, left) ∈ lefts) :
    ∃ right, get? rights key = some right ∧ sameKey left right = true := by
  induction lefts with
  | nil => cases member
  | cons entry lefts ih =>
    obtain ⟨name, value⟩ := entry
    rw [sameMembers, Bool.and_eq_true] at same
    rcases mem_cons.mp member with here | later
    · cases here
      have first := same.1
      cases held : get? rights key with
      | none =>
        rw [held] at first
        cases first
      | some right =>
        rw [held] at first
        exact ⟨right, rfl, first⟩
    · exact ih same.2 later

/-- Members in order that all lie in others of the same number are those others. -/
theorem members_eq {lefts rights : List (String × Json)} (one : Ordered lefts) (two : Ordered rights)
    (length : lefts.length = rights.length) (sub : ∀ entry ∈ lefts, entry ∈ rights) :
    lefts = rights := by
  have nodup : lefts.Nodup := List.Nodup.of_map Prod.fst (List.Pairwise.imp ne_of_lt one)
  have perm : lefts.Perm rights :=
    (subperm_of_subset nodup sub).perm_of_length_le (Nat.le_of_eq length.symm)
  have distinct {members : List (String × Json)} (ordered : Ordered members) :
      (keys members).Nodup := ordered.imp ne_of_lt
  apply ordered_ext one two
  intro key
  cases held : get? lefts key with
  | some value => exact (get?_of_mem (distinct two) (sub _ (mem_of_get? held))).symm
  | none =>
    rw [get?_eq_none_iff] at held
    symm
    rw [get?_eq_none_iff]
    exact fun known => held ((perm.map Prod.fst).mem_iff.mpr known)

/-- Values with the same key are equal. -/
theorem sameKey_eq (one : left.Canonical) (two : right.Canonical)
    (same : sameKey left right = true) : left = right := by
  induction one generalizing right with
  | scalar value =>
    cases two with
    | scalar other =>
      rw [sameKey] at same
      rw [sameScalar_eq same]
    | array => simp [sameKey] at same
    | object => simp [sameKey] at same
  | array canonical ih =>
    cases two with
    | scalar => simp [sameKey] at same
    | object => simp [sameKey] at same
    | array canonical' =>
      rw [sameKey, Bool.and_eq_true, beq_iff_eq] at same
      rw [sameItems_eq same.1 (fun item inside other known alike =>
        ih item inside (canonical' other known) alike) same.2]
  | object ordered canonical ih =>
    cases two with
    | scalar => simp [sameKey] at same
    | array => simp [sameKey] at same
    | object ordered' canonical' =>
      rw [sameKey, Bool.and_eq_true, beq_iff_eq] at same
      congr 1
      refine members_eq ordered ordered' same.1 fun entry member => ?_
      obtain ⟨other, held, alike⟩ := get?_of_sameMembers same.2 member
      have known := mem_of_get? held
      have equal := ih entry member (canonical' _ known) alike
      rw [← Prod.eta entry, equal]
      exact known

end Keys

section Walked

variable {value inner : Json} {depth : Nat}

variable {items : List Json}

theorem walkItems_none (walked : walkItems depth items = none) :
    ∀ item ∈ items, walkDataValue depth item = none := by
  induction items with
  | nil => exact forall_mem_nil _
  | cons item rest ih =>
    rw [walkItems, Option.or_eq_none_iff] at walked
    exact forall_mem_cons.mpr ⟨walked.1, ih walked.2⟩

theorem walkMembers_none {members : List (String × Json)}
    (walked : walkMembers depth members = none) :
    ∀ entry ∈ members, walkDataValue depth entry.2 = none := by
  induction members with
  | nil => exact forall_mem_nil _
  | cons entry rest ih =>
    rw [walkMembers, Option.or_eq_none_iff] at walked
    exact forall_mem_cons.mpr ⟨walked.1, ih walked.2⟩

theorem walked_items (walked : walkDataValue depth (.array items) = none) :
    ∀ item ∈ items, walkDataValue (depth + 1) item = none := by
  rw [walkDataValue] at walked
  split at walked
  · cases walked
  · split at walked
    · cases walked
    · exact walkItems_none walked

theorem walked_members {members : List (String × Json)}
    (walked : walkDataValue depth (.object members) = none) :
    ∀ entry ∈ members, walkDataValue (depth + 1) entry.2 = none := by
  rw [walkDataValue] at walked
  split at walked
  · cases walked
  · exact walkMembers_none walked

/-- What stands in valid data is valid. -/
theorem walked_resolve {path : List String} (walked : walkDataValue depth value = none)
    (found : value.resolve path = some inner) : ∃ below, walkDataValue below inner = none := by
  induction path generalizing value depth with
  | nil => exact ⟨depth, Option.some.inj found ▸ walked⟩
  | cons token rest ih =>
    rw [resolve, Option.bind_eq_some_iff] at found
    obtain ⟨next, here, found⟩ := found
    cases value with
    | scalar => cases here
    | array items =>
      rw [child, Option.bind_eq_some_iff] at here
      obtain ⟨index, -, held⟩ := here
      exact ih (walked_items walked next (mem_of_getElem? held)) found
    | object members => exact ih (walked_members walked _ (mem_of_get? here)) found

theorem sameItems_refl (each : ∀ item ∈ items, sameKey item item = true) :
    sameItems items items = true := by
  induction items with
  | nil => rfl
  | cons item rest ih =>
    rw [forall_mem_cons] at each
    rw [sameItems, each.1, ih each.2]
    rfl

theorem sameMembers_of_held {lefts rights : List (String × Json)}
    (each : ∀ entry ∈ lefts, get? rights entry.1 = some entry.2 ∧ sameKey entry.2 entry.2 = true) :
    sameMembers lefts rights = true := by
  induction lefts with
  | nil => rfl
  | cons entry rest ih =>
    rw [forall_mem_cons] at each
    obtain ⟨⟨held, same⟩, later⟩ := each
    rw [sameMembers, held, ih later, Bool.and_true]
    exact same

/-- A valid value has its own key: no number of it is `NaN`. -/
theorem sameKey_refl (canonical : value.Canonical) (walked : walkDataValue depth value = none) :
    sameKey value value = true := by
  induction canonical generalizing depth with
  | scalar value =>
    rw [sameKey]
    cases value with
    | null => rfl
    | bool value => exact decide_eq_true rfl
    | text value => exact decide_eq_true rfl
    | number value =>
      cases value with
      | nan => simp [walkDataValue, ScriptValue.Number.isFinite] at walked
      | infinite negative => exact decide_eq_true rfl
      | finite value => exact decide_eq_true rfl
  | array canonical ih =>
    rw [sameKey, beq_self_eq_true, Bool.true_and]
    exact sameItems_refl fun item member => ih item member (walked_items walked item member)
  | object ordered canonical ih =>
    rw [sameKey, beq_self_eq_true, Bool.true_and]
    refine sameMembers_of_held fun entry member => ⟨?_, ?_⟩
    · exact get?_of_mem (ordered.imp ne_of_lt) member
    · exact ih entry member (walked_members walked entry member)

end Walked

section Rows

variable {key : String} {value wanted : Json} {rows kept : List Json} {trimmed : Nat}

/-- The row has the key. -/
def HasKey (key : String) (wanted row : Json) : Prop :=
  resolvePrototypeDataPointer row key = some wanted

/-- How many rows have the key. -/
noncomputable def keyCount (key : String) (wanted : Json) (rows : List Json) : Nat :=
  open Classical in rows.countP fun row => decide (HasKey key wanted row)

theorem keyCount_append (first second : List Json) :
    keyCount key wanted (first ++ second) = keyCount key wanted first + keyCount key wanted second :=
  countP_append

theorem keyCount_sublist {fewer : List Json} (sublist : fewer.Sublist rows) :
    keyCount key wanted fewer ≤ keyCount key wanted rows := sublist.countP_le

theorem keyCount_eq_zero (none : ∀ row ∈ rows, ¬ HasKey key wanted row) :
    keyCount key wanted rows = 0 := by
  classical
  rw [keyCount, countP_eq_zero]
  intro row member
  simpa using none row member

theorem keyCount_singleton_self (has : HasKey key wanted value) :
    keyCount key wanted [value] = 1 := by
  classical
  simp [keyCount, has]

theorem keyCount_singleton_other {other : Json} (has : HasKey key wanted value)
    (apart : other ≠ wanted) : keyCount key other [value] = 0 := by
  apply keyCount_eq_zero
  intro row member found
  rw [mem_singleton.mp member, HasKey, has] at found
  exact apart (Option.some.inj found).symm

/-- A row in the place of one with the same key changes no count. -/
theorem keyCount_set {position : Nat} (inside : position < rows.length)
    (old : HasKey key wanted rows[position]) (has : HasKey key wanted value) (other : Json) :
    keyCount key other (rows.set position value) = keyCount key other rows := by
  classical
  have same : HasKey key other value ↔ HasKey key other rows[position] := by
    unfold HasKey at *
    rw [has, old]
  have split : rows = rows.take position ++ rows[position] :: rows.drop (position + 1) := by
    rw [← drop_eq_getElem_cons inside, take_append_drop]
  rw [set_eq_take_append_cons_drop, if_pos inside]
  conv_rhs => rw [split]
  rw [keyCount_append, keyCount_append]
  congr 1
  unfold keyCount
  rw [countP_cons, countP_cons]
  simp only [same]

/-- The key of the row is that of the value, as the search compares them. -/
def Matches (key : String) (wanted row : Json) : Prop :=
  ∃ candidate, resolvePrototypeDataPointer row key = some candidate ∧
    sameKey candidate wanted = true

/-- The rows with the value in the place found, or at the end. -/
def upsertAt (rows : List Json) (value : Json) (found : Option Nat) : List Json :=
  found.elim (rows ++ [value]) (rows.set · value)

/-- The value comes last, or in the place of the first row with its key. -/
theorem upsertRow_cases (keyed : HasKey key wanted value) :
    ((∀ row ∈ rows, ¬ Matches key wanted row) ∧ upsertRow rows key value = rows ++ [value]) ∨
      ∃ position, ∃ inside : position < rows.length, Matches key wanted rows[position] ∧
        (∀ earlier, ∀ before : earlier < position, ¬ Matches key wanted rows[earlier]) ∧
        upsertRow rows key value = rows.set position value := by
  have test (row : Json) : ((resolvePrototypeDataPointer row key).any fun candidate =>
      sameKey candidate wanted) = true ↔ Matches key wanted row := by
    unfold Matches
    cases resolvePrototypeDataPointer row key <;> simp
  have same : upsertRow rows key value = upsertAt rows value (rows.findIdx? fun row =>
      (resolvePrototypeDataPointer row key).any fun candidate => sameKey candidate wanted) := by
    unfold upsertRow upsertAt
    rw [keyed]
    dsimp only
    split
    all_goals
      rename_i found
      rw [show rows.findIdx? _ = _ from Eq.trans ?_ found]
      · rfl
      · congr 1
        funext row
        cases resolvePrototypeDataPointer row key <;> rfl
  rw [same, upsertAt]
  cases found : rows.findIdx? fun row => (resolvePrototypeDataPointer row key).any fun candidate =>
      sameKey candidate wanted with
  | none =>
    left
    rw [findIdx?_eq_none_iff] at found
    refine ⟨fun row member matching => ?_, rfl⟩
    have passed := (test row).mpr matching
    rw [found row member] at passed
    cases passed
  | some position =>
    right
    rw [findIdx?_eq_some_iff_getElem] at found
    obtain ⟨inside, matching, earlier⟩ := found
    refine ⟨position, inside, (test _).mp matching, fun other before => ?_, rfl⟩
    exact fun passed => earlier other before ((test _).mpr passed)

end Rows

section Window

variable {data : Option Json} {next value wanted : Json} {key path pointer : String}
  {rows kept : List Json} {trimmed : Nat} {maxItems : Option Number}

/-- What an upsert makes of the rows; so many of them are dropped, from the start. -/
structure UpsertLaws (key : String) (value wanted : Json) (rows kept : List Json) (trimmed : Nat)
    (maxItems : Option Number) : Prop where
  /-- A new key comes last, and once. -/
  fresh : (∀ row ∈ rows, ¬ HasKey key wanted row) →
    trimmed ≤ rows.length ∧ kept = rows.drop trimmed ++ [value] ∧ keyCount key wanted kept = 1
  /-- The first row with a known key is replaced in its place, which may be dropped. -/
  known : (∃ row ∈ rows, HasKey key wanted row) →
    ∃ position, ∃ inside : position < rows.length, HasKey key wanted rows[position] ∧
      (∀ earlier, ∀ before : earlier < position, ¬ HasKey key wanted rows[earlier]) ∧
      kept = (rows.set position value).drop trimmed ∧
      (trimmed ≤ position → kept[position - trimmed]? = some value) ∧
      (position < trimmed → kept = rows.drop trimmed)
  once : keyCount key wanted rows ≤ 1 → value ∈ kept → keyCount key wanted kept = 1
  counts : ∀ other, other ≠ wanted ∨ (∃ row ∈ rows, HasKey key wanted row) →
    keyCount key other kept ≤ keyCount key other rows
  bound : ∀ number, maxItems = some number → ∃ limit : Nat, number = .finite limit ∧
    kept.length ≤ limit
  unbounded : maxItems = none → trimmed = 0

theorem canonical_key {row candidate : Json} (canonical : row.Canonical)
    (found : resolvePrototypeDataPointer row key = some candidate) : candidate.Canonical := by
  unfold resolvePrototypeDataPointer at found
  split at found
  · exact canonical_resolve canonical found
  · cases found

theorem hasKey_of_matches {row : Json} (canonical : row.Canonical) (target : wanted.Canonical)
    (matching : Matches key wanted row) : HasKey key wanted row := by
  obtain ⟨candidate, found, same⟩ := matching
  rw [HasKey, found, sameKey_eq (canonical_key canonical found) target same]

theorem one_le_keyCount (has : HasKey key wanted value) (member : value ∈ kept) :
    1 ≤ keyCount key wanted kept := by
  classical
  exact countP_pos_iff.mpr ⟨value, member, by simpa using has⟩

def limitNumber (limit : Nat) : Number := .finite limit

/-- How many rows a window of the limit drops. -/
def dropped (limit : Option Nat) (length : Nat) : Nat :=
  match limit with
  | some limit => length - limit
  | none => 0

theorem dropped_some (limit length : Nat) : dropped (some limit) length = length - limit := rfl

theorem upsertLaws_of_rows (limit : Option Nat) (positive : ∀ number, limit = some number → 1 ≤ number)
    (canonical : ∀ row ∈ rows, row.Canonical) (target : wanted.Canonical)
    (keyed : HasKey key wanted value)
    (trimmed_eq : trimmed = dropped limit (upsertRow rows key value).length)
    (kept_eq : kept = (upsertRow rows key value).drop trimmed)
    (reflexive : value ∈ kept → sameKey wanted wanted = true) :
    UpsertLaws key value wanted rows kept trimmed (limit.map limitNumber) := by
  have bounds : ∀ number : Number, limit.map limitNumber = some number →
      ∃ limit : Nat, number = .finite limit ∧ kept.length ≤ limit := by
    intro number given
    rw [Option.map_eq_some_iff] at given
    obtain ⟨limit, rfl, rfl⟩ := given
    refine ⟨limit, rfl, ?_⟩
    rw [kept_eq, length_drop, trimmed_eq, dropped_some]
    omega
  have unbounded : limit.map limitNumber = none → trimmed = 0 := by
    intro given
    rw [Option.map_eq_none_iff] at given
    rw [trimmed_eq, given]
    rfl
  have choices : _ ∨ _ := @upsertRow_cases key value wanted rows keyed
  rcases choices with ⟨new, combined⟩ | ⟨position, inside, here, first, combined⟩
  · -- the value comes last, and the window has room for one row
    rw [combined] at trimmed_eq kept_eq
    have room : trimmed ≤ rows.length := by
      rw [trimmed_eq, List.length_append, List.length_singleton]
      cases given : limit with
      | none => exact Nat.zero_le _
      | some number =>
        have least := positive number given
        rw [dropped_some]
        omega
    rw [List.drop_append_of_le_length room] at kept_eq
    have there : value ∈ kept := by
      rw [kept_eq]
      exact List.mem_append_right _ List.mem_cons_self
    have absent : ∀ row ∈ rows, ¬ HasKey key wanted row := fun row member has =>
      new row member ⟨wanted, has, reflexive there⟩
    have none_left : keyCount key wanted (rows.drop trimmed) = 0 :=
      keyCount_eq_zero fun row member => absent row (List.mem_of_mem_drop member)
    have one : keyCount key wanted kept = 1 := by
      rw [kept_eq, keyCount_append, none_left, keyCount_singleton_self keyed]
    refine ⟨fun _ => ⟨room, kept_eq, one⟩, ?_, fun _ _ => one, ?_, bounds, unbounded⟩
    · rintro ⟨row, member, has⟩
      exact absurd has (absent row member)
    · rintro other (apart | ⟨row, member, has⟩)
      · rw [kept_eq, keyCount_append, keyCount_singleton_other keyed apart]
        exact keyCount_sublist (List.drop_sublist _ _)
      · exact absurd has (absent row member)
  · -- the value stands for the first row with its key
    rw [combined] at kept_eq
    have old := hasKey_of_matches (canonical _ (List.getElem_mem inside)) target here
    have reflexive : sameKey wanted wanted = true := by
      obtain ⟨candidate, found, same⟩ := here
      rw [HasKey, found, Option.some.injEq] at old
      exact old ▸ same
    have fewer : ∀ other, keyCount key other kept ≤ keyCount key other rows := by
      intro other
      rw [kept_eq, ← keyCount_set inside old keyed other]
      exact keyCount_sublist (List.drop_sublist _ _)
    refine ⟨fun absent => ?_, fun _ => ?_, ?_, fun other _ => fewer other, bounds, unbounded⟩
    · exact absurd old (absent _ (List.getElem_mem inside))
    · refine ⟨position, inside, old, ?_, kept_eq, ?_, ?_⟩
      · exact fun earlier before has => first earlier before ⟨wanted, has, reflexive⟩
      · intro room
        rw [kept_eq, List.getElem?_drop, Nat.add_sub_cancel' room]
        exact List.getElem?_set_self inside
      · intro late
        rw [kept_eq, List.drop_set_of_lt late]
    · intro single member
      have := one_le_keyCount keyed member
      have := fewer wanted
      omega

end Window

section Accepted

variable {data : Option Json} {next value : Json} {key path pointer : String} {trimmed : Nat}
  {maxItems : Option Number}

/-- An accepted upsert has a value with its key, and a limit of at least one row. -/
theorem upsert_value_ok (accepted : valueRefusal (.upsert path key (some value) maxItems) = none) :
    (∃ wanted, HasKey key wanted value) ∧ ∃ limit : Option Nat, maxItems = limit.map limitNumber ∧
        ∀ number, limit = some number → 1 ≤ number := by
  simp only [valueRefusal, DataWrite.value, Option.bind_some] at accepted
  split at accepted
  · cases accepted
  · rename_i keyed
    simp only [Bool.not_eq_true', Bool.not_eq_false, Bool.and_eq_true] at keyed
    refine ⟨Option.isSome_iff_exists.mp keyed.2, ?_⟩
    simp only [Bool.false_and, Bool.false_eq_true, if_false] at accepted
    unfold maximumRefusal at accepted
    cases maxItems with
    | none => exact ⟨none, rfl, fun number given => by cases given⟩
    | some given =>
      dsimp only [DataWrite.maxItems] at accepted
      split at accepted
      · rename_i bounded
        rw [Bool.and_eq_true] at bounded
        cases given with
        | nan => simp [isPositiveSafeInteger] at bounded
        | infinite negative => simp [isPositiveSafeInteger] at bounded
        | finite number =>
          have safe := bounded.1
          simp only [isPositiveSafeInteger, Bool.and_eq_true, beq_iff_eq, decide_eq_true_eq]
            at safe
          obtain ⟨⟨whole, positive⟩, -⟩ := safe
          have exact : number = (number.num : Rat) := (Rat.coe_int_num_of_den_eq_one whole).symm
          have least : 1 ≤ number.num := by
            rw [exact] at positive
            exact_mod_cast positive
          refine ⟨some number.num.toNat, ?_, ?_⟩
          · have same : number = ((number.num.toNat : Nat) : Rat) := by
              have cast : ((number.num.toNat : Nat) : Int) = number.num :=
                Int.toNat_of_nonneg (by omega)
              conv_lhs => rw [exact, ← cast]
              norm_cast
            rw [Option.map_some, limitNumber, ← same]
          · intro other given
            rw [Option.some.injEq] at given
            omega
      · cases accepted

/-- The target of an accepted upsert is an array. -/
theorem upsert_target_ok {tokens : List String}
    (accepted : targetRefusal (currentData data) tokens (.upsert path key (some value) maxItems) =
      none) : ∃ rows, (currentData data).resolve tokens = some (.array rows) := by
  unfold targetRefusal at accepted
  dsimp only at accepted
  cases found : (currentData data).resolve tokens with
  | none =>
    rw [found] at accepted
    cases accepted
  | some existing =>
    rw [found] at accepted
    cases existing with
    | array rows => exact ⟨rows, rfl⟩
    | scalar => cases accepted
    | object => cases accepted

/-- A replacement shows at its path. -/
theorem child_applyOp_replace {parent after : Json}
    (done : applyOp (.replace value) parent key = some after) : after.child key = some value := by
  cases parent with
  | scalar => cases done
  | object members =>
    simp only [applyOp, applyMember] at done
    split at done
    · cases done
      simp [child, get?_putMember]
    · cases done
  | array items =>
    simp only [applyOp, applyArray, Option.map_eq_some_iff] at done
    obtain ⟨index, spelled, rfl⟩ := done
    obtain ⟨inside, rfl⟩ := arrayIndex_some spelled
    have there : index < (items.set index value).length := by simpa using inside
    rw [child_array there, List.getElem_set_self]

theorem upsert_window_eq {rows : List Json} {tokens : List String} (limit : Option Nat)
    (found : (currentData data).resolve tokens = some (.array rows)) :
    windowedWrite (currentData data) tokens
        (.upsert path key (some value) (limit.map limitNumber)) =
      (some (.array ((upsertRow rows key value).drop
        (dropped limit (upsertRow rows key value).length))),
        dropped limit (upsertRow rows key value).length) := by
  unfold windowedWrite
  rw [found]
  cases limit with
  | none => rfl
  | some number => simp [DataWrite.maxItems, limitNumber, dropped, itemsOf]

end Accepted

theorem walked_of_valid {next : Json} {maxBytes : Nat}
    (valid : prototypeDataError next maxBytes = none) : walkDataValue 1 next = none := by
  obtain ⟨members, rfl⟩ := object_of_valid valid
  rw [prototypeDataError, Option.or_eq_none_iff] at valid
  exact valid.1

theorem walked_key {row wanted : Json} {key : String} {depth : Nat}
    (walked : walkDataValue depth row = none) (has : HasKey key wanted row) :
    ∃ below, walkDataValue below wanted = none := by
  unfold HasKey resolvePrototypeDataPointer at has
  split at has
  · exact walked_resolve walked has
  · cases has

/-- An accepted upsert keeps to the laws, on the rows of its array before and after. -/
theorem upsert_laws (data : Option CanonicalJson) (path key : String) (value : CanonicalJson)
    (maxItems : Option Number) {next : Json} {trimmed : Nat}
    (written : applyPrototypeDataWrite (data.map Subtype.val)
      (.upsert path key (some value.val) maxItems) = .ok (next, trimmed)) :
    ∃ pointer wanted rows kept, prototypeDataPathPointer path = some pointer ∧
      HasKey key wanted value.val ∧
      resolvePrototypeDataPointer (currentData (data.map Subtype.val)) pointer =
        some (.array rows) ∧
      resolvePrototypeDataPointer next pointer = some (.array kept) ∧
      UpsertLaws key value.val wanted rows kept trimmed maxItems := by
  obtain ⟨pointer, accepted⟩ := accepted_of_ok written
  obtain ⟨⟨wanted, keyed⟩, limit, rfl, positive⟩ := upsert_value_ok accepted.value
  obtain ⟨rows, found⟩ := upsert_target_ok accepted.target
  have proper := proper_of_path accepted.path
  have applied := accepted.applied
  have trimmed_eq := accepted.trimmed
  rw [upsert_window_eq limit found] at applied trimmed_eq
  rw [found, Option.isSome_some] at applied
  have canonical : (currentData (data.map Subtype.val)).Canonical := by
    apply canonical_currentData
    intro held given
    rw [Option.map_eq_some_iff] at given
    obtain ⟨start, -, rfl⟩ := given
    exact start.property
  have stored : next.resolve (prototypeDataPointerTokens pointer) =
      some (.array ((upsertRow rows key value.val).drop trimmed)) := by
    rw [← trimmed_eq]
    rw [patchOp, if_pos rfl, applyData] at applied
    obtain ⟨front, last, split⟩ := tokens_split proper
    rw [split] at applied ⊢
    obtain ⟨parent, after, known, done, rfl⟩ := editAt_some applied
    rw [resolve_replaceAt_inside known, resolve_singleton]
    exact child_applyOp_replace done
  refine ⟨pointer, wanted, rows, (upsertRow rows key value.val).drop trimmed, accepted.path, keyed,
    ?_, ?_, ?_⟩
  · rw [resolve_of_proper proper, found]
  · rw [resolve_of_proper proper, stored]
  · refine upsertLaws_of_rows limit positive ?_ (canonical_key value.property keyed) keyed
      trimmed_eq.symm rfl ?_
    · intro row member
      exact canonical_itemsOf (canonical_resolve canonical found) member
    · intro member
      obtain ⟨depth, walked⟩ := walked_resolve (walked_of_valid accepted.valid) stored
      obtain ⟨below, key_walked⟩ := walked_key (walked_items walked _ member) keyed
      exact sameKey_refl (canonical_key value.property keyed) key_walked

section Inputs

/-- A row of a list with its number under `id`. -/
def numbered (number : Nat) : Json := .object [("id", .scalar (.number (limitNumber number)))]

theorem canonical_numbered (number : Nat) : (numbered number).Canonical := by
  refine .object (List.pairwise_singleton _ _) fun entry member => ?_
  rw [List.mem_singleton.mp member]
  exact .scalar _

/-- Data whose `rows` have the numbers. -/
def numberedRows (numbers : List Nat) : CanonicalJson :=
  ⟨.object [("rows", .array (numbers.map numbered))], by
    refine .object (List.pairwise_singleton _ _) fun entry member => ?_
    rw [List.mem_singleton.mp member]
    refine .array fun item inside => ?_
    obtain ⟨number, -, rfl⟩ := List.mem_map.mp inside
    exact canonical_numbered number⟩

/-- The upsert of the row with a number, in a window of the limit. -/
def upsertNumbered (numbers : List Nat) (number limit : Nat) : Except DataWriteError (Json × Nat) :=
  applyPrototypeDataWrite (some (numberedRows numbers).val)
    (.upsert "/data/rows" "/id" (some (numbered number)) (some (limitNumber limit)))

/-- How many rows are left, and whether the row with the number is one of them. -/
def rowsLeft (number : Nat) (written : Except DataWriteError (Json × Nat)) : Option (Nat × Bool) :=
  match written with
  | .error _ => none
  | .ok result => (resolvePrototypeDataPointer result.1 "/rows").map fun rows =>
    ((itemsOf rows).length, (itemsOf rows).any fun row =>
      match resolvePrototypeDataPointer row "/id" with
      | some (.scalar label) => label == .number (limitNumber number)
      | _ => false)

theorem exists_of_rowsLeft {number : Nat} {written : Except DataWriteError (Json × Nat)}
    {left : Nat × Bool} (evaluated : rowsLeft number written = some left) :
    ∃ next trimmed, written = .ok (next, trimmed) := by
  cases written with
  | error failure => cases evaluated
  | ok result => exact ⟨result.1, result.2, rfl⟩

theorem not_hasKey_of_rowsLeft {number count : Nat} {next : Json} {trimmed : Nat}
    {kept : List Json} (evaluated : rowsLeft number (.ok (next, trimmed)) = some (count, false))
    (stored : resolvePrototypeDataPointer next "/rows" = some (.array kept)) :
    ∀ row ∈ kept, ¬ HasKey "/id" (.scalar (.number (limitNumber number))) row := by
  intro row member has
  simp only [rowsLeft, stored, Option.map_some, Option.some.injEq, Prod.mk.injEq, itemsOf,
    List.any_eq_false] at evaluated
  have absurdity := evaluated.2 row member
  rw [HasKey] at has
  rw [has] at absurdity
  simp at absurdity

end Inputs

theorem upsert_laws_numbered : ∃ next trimmed, upsertNumbered [1, 2] 3 2 = .ok (next, trimmed) ∧
      ∃ pointer wanted rows kept, prototypeDataPathPointer "/data/rows" = some pointer ∧
        HasKey "/id" wanted (numbered 3) ∧
        resolvePrototypeDataPointer (numberedRows [1, 2]).val pointer = some (.array rows) ∧
        resolvePrototypeDataPointer next pointer = some (.array kept) ∧
        UpsertLaws "/id" (numbered 3) wanted rows kept trimmed (some (limitNumber 2)) := by
  have evaluated : rowsLeft 3 (upsertNumbered [1, 2] 3 2) = some (2, true) := by decide +kernel
  obtain ⟨next, trimmed, written⟩ := exists_of_rowsLeft evaluated
  exact ⟨next, trimmed, written, upsert_laws (some (numberedRows [1, 2])) "/data/rows" "/id"
    ⟨numbered 3, canonical_numbered 3⟩ (some (limitNumber 2)) written⟩

/-- The window drops the row that was just written: the first row was the one with its key. -/
theorem upsert_drops_its_value :
    ¬ ∀ (data : Option CanonicalJson) (path key : String) (value : CanonicalJson)
      (maxItems : Option Number) (next : Json) (trimmed : Nat) (pointer : String) (wanted : Json)
      (kept : List Json),
      applyPrototypeDataWrite (data.map Subtype.val) (.upsert path key (some value.val) maxItems) =
        .ok (next, trimmed) →
      prototypeDataPathPointer path = some pointer → HasKey key wanted value.val →
      resolvePrototypeDataPointer next pointer = some (.array kept) →
      keyCount key wanted kept = 1 := by
  intro claim
  have evaluated : rowsLeft 1 (upsertNumbered [1, 2] 1 1) = some (1, false) := by decide +kernel
  obtain ⟨next, trimmed, written⟩ := exists_of_rowsLeft evaluated
  have stored : ∃ kept, resolvePrototypeDataPointer next "/rows" = some (.array kept) := by
    rw [written] at evaluated
    cases found : resolvePrototypeDataPointer next "/rows" with
    | none => simp [rowsLeft, found] at evaluated
    | some rows =>
      cases rows with
      | array kept => exact ⟨kept, rfl⟩
      | scalar => simp [rowsLeft, found, itemsOf] at evaluated
      | object => simp [rowsLeft, found, itemsOf] at evaluated
  obtain ⟨kept, stored⟩ := stored
  have keyed : HasKey "/id" (.scalar (.number (limitNumber 1))) (numbered 1) := by
    have proper : isPrototypeDataPointer "/id" = true := by decide +kernel
    have tokens : prototypeDataPointerTokens "/id" = ["id"] := by decide +kernel
    rw [HasKey, resolve_of_proper proper, tokens]
    simp [numbered, resolve, child, get?]
  have path : prototypeDataPathPointer "/data/rows" = some "/rows" := by decide +kernel
  have once := claim (some (numberedRows [1, 2])) "/data/rows" "/id"
    ⟨numbered 1, canonical_numbered 1⟩ (some (limitNumber 1)) next trimmed "/rows" _ kept written
    path keyed stored
  rw [written] at evaluated
  rw [keyCount_eq_zero (not_hasKey_of_rowsLeft evaluated stored)] at once
  cases once

end AutoMobile.PrototypeData
