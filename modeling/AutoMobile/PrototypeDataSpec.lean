import AutoMobile.LabelledTreePaths
import AutoMobile.PrototypeDataWrite

/- What an accepted write does to the data: a `set` replaces what stands at its path, and every
write keeps the members of the objects in order. -/
namespace AutoMobile.PrototypeData

open InsertionMap LabelledTree Document

variable {data : Option Json} {current next value : Json} {trimmed : Nat} {tokens : List String}

section Accepted

/-- The steps of a write that was accepted. -/
structure Accepted (data : Option Json) (write : DataWrite) (next : Json) (trimmed : Nat)
    (pointer : String) : Prop where
  path : prototypeDataPathPointer write.path = some pointer
  value : valueRefusal write = none
  target : targetRefusal (currentData data) (prototypeDataPointerTokens pointer) write = none
  applied : applyData (patchOp
      (windowedWrite (currentData data) (prototypeDataPointerTokens pointer) write).1
      ((currentData data).resolve (prototypeDataPointerTokens pointer)).isSome)
      (prototypeDataPointerTokens pointer) (currentData data) = some next
  trimmed : (windowedWrite (currentData data) (prototypeDataPointerTokens pointer) write).2 = trimmed
  valid : prototypeDataError next maxDataWriteBytes = none

theorem accepted_of_ok {write : DataWrite}
    (written : applyPrototypeDataWrite data write = .ok (next, trimmed)) :
    ∃ pointer, Accepted data write next trimmed pointer := by
  unfold applyPrototypeDataWrite at written
  cases path : prototypeDataPathPointer write.path with
  | none =>
    rw [path] at written
    cases written
  | some pointer =>
    rw [path] at written
    dsimp only at written
    cases refusal : valueRefusal write with
    | some refusal' =>
      rw [refusal] at written
      cases written
    | none =>
      rw [refusal] at written
      dsimp only at written
      cases target : targetRefusal (currentData data) (prototypeDataPointerTokens pointer)
        write with
      | some refusal' =>
        rw [target] at written
        cases written
      | none =>
        rw [target] at written
        dsimp only at written
        cases applied : applyData (patchOp
            (windowedWrite (currentData data) (prototypeDataPointerTokens pointer) write).1
            ((currentData data).resolve (prototypeDataPointerTokens pointer)).isSome)
            (prototypeDataPointerTokens pointer) (currentData data) with
        | none =>
          rw [applied] at written
          cases written
        | some result =>
          rw [applied] at written
          dsimp only at written
          cases valid : prototypeDataError result maxDataWriteBytes with
          | some message =>
            rw [valid] at written
            cases written
          | none =>
            rw [valid] at written
            cases written
            exact ⟨pointer, path, refusal, target, applied, rfl, valid⟩

/-- Data stays an object. -/
theorem object_of_valid {maxBytes : Nat} (valid : prototypeDataError next maxBytes = none) :
    ∃ members, next = .object members := by
  cases next with
  | object members => exact ⟨members, rfl⟩
  | _ => cases valid

theorem currentData_of_valid {maxBytes : Nat} (valid : prototypeDataError next maxBytes = none) :
    currentData (some next) = next := by
  obtain ⟨members, rfl⟩ := object_of_valid valid
  rfl

end Accepted

section Sets

/-- Put the value under the key of the array or object, which an array must have already. -/
def setChild (value parent : Json) (key : String) : Option Json :=
  match parent with
  | .array items => (arrayIndex key items.length).map fun index => .array (items.set index value)
  | .object members => some (.object (putMember members key value))
  | .scalar _ => none

theorem puts_setChild {parent result : Json} {key : String}
    (edited : setChild value parent key = some result) : Puts value parent key result := by
  cases parent with
  | scalar => cases edited
  | object members =>
    cases edited
    refine ⟨rfl, ?_, fun other apart => ?_⟩
    · simp [child, get?_putMember]
    · simp [child, get?_putMember, apart.symm]
  | array items =>
    rw [setChild, Option.map_eq_some_iff] at edited
    obtain ⟨index, spelled, rfl⟩ := edited
    obtain ⟨inside, rfl⟩ := arrayIndex_some spelled
    have put := puts_replaceChild value (child_array inside)
    simpa [replaceChild, spelled] using put

/-- An edit reaches the parent of its last token, or nothing. -/
theorem editAt_congr {first second : Json → String → Option Json} {path : List String}
    {tree : Json} (proper : path ≠ [])
    (same : ∀ parent, tree.resolve path.dropLast = some parent →
      first parent (path.getLast proper) = second parent (path.getLast proper)) :
    editAt first path tree = editAt second path tree := by
  induction path generalizing tree with
  | nil => exact absurd rfl proper
  | cons token rest ih =>
    cases rest with
    | nil => exact same tree rfl
    | cons next rest =>
      unfold editAt
      cases inner : child tree token with
      | none => rfl
      | some below =>
        rw [Option.bind_some, Option.bind_some]
        refine congrArg (Option.map _) (ih (by simp) fun parent found => ?_)
        have whole : tree.resolve (token :: next :: rest).dropLast = some parent := by
          rw [List.dropLast_cons_of_ne_nil (by simp), resolve, inner, Option.bind_some]
          exact found
        have edited := same parent whole
        rwa [List.getLast_cons (by simp)] at edited

theorem resolve_dropLast (tree : Json) (proper : tokens ≠ []) :
    tree.resolve tokens = (tree.resolve tokens.dropLast).bind fun parent =>
      child parent (tokens.getLast proper) := by
  conv_lhs => rw [← List.dropLast_append_getLast proper, resolve_append]
  refine congrArg (Option.bind _) (funext fun parent => ?_)
  rw [resolve]
  cases child parent (tokens.getLast proper) <;> rfl

/-- The data is an object. -/
theorem currentData_object (data : Option Json) :
    ∃ members, currentData data = .object members := by
  unfold currentData
  split
  · exact ⟨_, rfl⟩
  · exact ⟨_, rfl⟩

/-- A target in an array that the write may set is there already. -/
theorem present_of_array {path : String} {items : List Json} (proper : tokens ≠ [])
    (acceptable : setTargetRefusal (currentData data) tokens path
      ((currentData data).resolve tokens) = none)
    (parent : (currentData data).resolve tokens.dropLast = some (.array items)) :
    ((currentData data).resolve tokens).isSome = true := by
  cases existing : (currentData data).resolve tokens with
  | some found => rfl
  | none =>
    rw [existing] at acceptable
    unfold setTargetRefusal at acceptable
    by_cases single : tokens.length ≤ 1
    · -- a single token stands directly in the data, which is no array
      obtain ⟨key, rfl⟩ : ∃ key, tokens = [key] := by
        cases tokens with
        | nil => exact absurd rfl proper
        | cons key rest =>
          have short : rest = [] := List.eq_nil_of_length_eq_zero (by simpa using single)
          exact ⟨key, by rw [short]⟩
      obtain ⟨members, object⟩ := currentData_object data
      rw [object] at parent
      cases parent
    · rw [if_neg single, parent] at acceptable
      simp at acceptable

/-- An accepted `set` puts its value at its path. -/
theorem editAt_of_set {path pointer : String}
    (accepted : Accepted data (.set path (some value)) next trimmed pointer) :
    editAt (setChild value) (prototypeDataPointerTokens pointer) (currentData data) =
      some next := by
  have applied := accepted.applied
  have target := accepted.target
  simp only [windowedWrite, targetRefusal] at applied target
  generalize prototypeDataPointerTokens pointer = tokens at applied target ⊢
  have proper : tokens ≠ [] := by
    rintro rfl
    cases applied
  rw [← applied, applyData]
  refine editAt_congr proper fun parent found => ?_
  have there := resolve_dropLast (currentData data) proper
  rw [found, Option.bind_some] at there
  cases parent with
  | scalar => rfl
  | object members =>
    rw [there, child]
    unfold patchOp applyOp applyMember setChild has
    cases held : get? members (tokens.getLast proper) <;> simp [held]
  | array items =>
    rw [patchOp, if_pos (present_of_array proper target found)]
    rfl

end Sets

section Canonical

theorem canonical_currentData (canonical : ∀ value, data = some value → value.Canonical) :
    (currentData data).Canonical := by
  unfold currentData
  split
  · exact canonical _ rfl
  · exact .object List.Pairwise.nil (by simp)

theorem canonical_putMember {members : List (String × Json)} (ordered : Ordered members)
    (canonical : ∀ entry ∈ members, entry.2.Canonical) (key : String) (inner : value.Canonical) :
    (object (putMember members key value)).Canonical :=
  canonical_replaceChild (.object ordered canonical) inner key

/-- A patch with a canonical value keeps the document canonical. -/
theorem canonical_applyOp {op : PatchOp} {parent result : Json} {key : String}
    (inner : ∀ value, op = .add value ∨ op = .replace value → value.Canonical)
    (canonical : parent.Canonical) (edited : applyOp op parent key = some result) :
    result.Canonical := by
  cases canonical with
  | scalar => cases edited
  | object ordered canonical =>
    cases op with
    | add value =>
      cases edited
      exact canonical_putMember ordered canonical key (inner value (Or.inl rfl))
    | replace value =>
      simp only [applyOp, applyMember] at edited
      split at edited
      · cases edited
        exact canonical_putMember ordered canonical key (inner value (Or.inr rfl))
      · cases edited
    | remove =>
      simp only [applyOp, applyMember] at edited
      split at edited
      · cases edited
        exact .object (ordered_erase ordered key) fun entry member =>
          canonical entry (List.mem_filter.mp member).1
      · cases edited
  | array canonical =>
    cases op with
    | add value =>
      simp only [applyOp, applyArray, Option.map_eq_some_iff] at edited
      obtain ⟨index, -, rfl⟩ := edited
      refine .array fun item member => ?_
      rcases List.eq_or_mem_of_mem_insertIdx member with rfl | old
      · exact inner item (Or.inl rfl)
      · exact canonical item old
    | replace value =>
      simp only [applyOp, applyArray, Option.map_eq_some_iff] at edited
      obtain ⟨index, -, rfl⟩ := edited
      refine .array fun item member => ?_
      rcases List.mem_or_eq_of_mem_set member with old | rfl
      · exact canonical item old
      · exact inner item (Or.inr rfl)
    | remove =>
      simp only [applyOp, applyArray, Option.map_eq_some_iff] at edited
      obtain ⟨index, -, rfl⟩ := edited
      exact .array fun item member => canonical item (List.mem_of_mem_eraseIdx member)

theorem canonical_itemsOf (canonical : value.Canonical) {item : Json}
    (member : item ∈ itemsOf value) : item.Canonical := by
  cases canonical with
  | array canonical => exact canonical item member
  | scalar => simp [itemsOf] at member
  | object => simp [itemsOf] at member

theorem mem_upsertRow {existing : List Json} {key : String} {item : Json}
    (member : item ∈ upsertRow existing key value) : item ∈ existing ∨ item = value := by
  unfold upsertRow at member
  split at member
  · simpa using member
  · dsimp only at member
    split at member
    · exact List.mem_or_eq_of_mem_set member
    · simpa using member

/-- The rows that a write leaves were there or come with it. -/
theorem canonical_windowedWrite {write : DataWrite} (canonical : current.Canonical)
    (inner : ∀ value, write.value = some value → value.Canonical) {result : Json}
    (effective : (windowedWrite current tokens write).1 = some result) : result.Canonical := by
  have old {item : Json} (member : item ∈ ((current.resolve tokens).map itemsOf).getD []) :
      item.Canonical := by
    cases found : current.resolve tokens with
    | none => simp [found] at member
    | some existing =>
      rw [found] at member
      exact canonical_itemsOf (canonical_resolve canonical found) member
  have new {item : Json} (member : item ∈ (write.value.map itemsOf).getD []) : item.Canonical := by
    cases given : write.value with
    | none => simp [given] at member
    | some value =>
      rw [given] at member
      exact canonical_itemsOf (inner value given) member
  have rows {combined kept : List Json} (each : ∀ item ∈ combined, item.Canonical)
      (sub : kept.Sublist combined) : (array kept).Canonical :=
    .array fun item member => each item (sub.subset member)
  cases write with
  | set path value => exact inner result effective
  | remove path => cases effective
  | append path value maxItems =>
    cases effective
    refine rows (fun item member => ?_) (List.drop_sublist _ _)
    rcases List.mem_append.mp member with kept | added
    · exact old kept
    · exact inner item (show value = some item by simpa using added)
  | extend path value maxItems =>
    cases effective
    refine rows (fun item member => ?_) (List.drop_sublist _ _)
    rcases List.mem_append.mp member with kept | added
    · exact old kept
    · exact new added
  | prepend path value maxItems =>
    cases effective
    refine rows (fun item member => ?_) (List.take_sublist _ _)
    rcases List.mem_append.mp member with added | kept
    · exact new added
    · exact old kept
  | upsert path key value maxItems =>
    cases effective
    refine rows (fun item member => ?_) (List.drop_sublist _ _)
    cases given : value with
    | none =>
      rw [given] at member
      exact old member
    | some row =>
      rw [given] at member
      rcases mem_upsertRow member with kept | rfl
      · exact old kept
      · exact inner item given

/-- An accepted write keeps the members of every object in order. -/
theorem canonical_of_accepted {write : DataWrite} {pointer : String}
    (accepted : Accepted data write next trimmed pointer)
    (canonical : ∀ value, data = some value → value.Canonical)
    (inner : ∀ value, write.value = some value → value.Canonical) : next.Canonical := by
  have current := canonical_currentData canonical
  refine canonical_editAt (fun parent edited => canonical_applyOp (fun value op => ?_) parent edited)
    current accepted.applied
  cases effective : (windowedWrite (currentData data) (prototypeDataPointerTokens pointer)
    write).1 with
  | none =>
    rw [effective] at op
    rcases op with op | op <;> cases op
  | some written =>
    have same : written = value := by
      rw [effective] at op
      unfold patchOp at op
      dsimp only at op
      split at op <;> rcases op with op | op <;> cases op <;> rfl
    exact same ▸ canonical_windowedWrite current inner effective

end Canonical

end AutoMobile.PrototypeData
