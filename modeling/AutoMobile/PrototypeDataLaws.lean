import AutoMobile.PrototypeDataMemory

/- What a pointer resolves to after a data write: its own place shows the write, and the places
that have nothing to do with it stay. -/
namespace AutoMobile.PrototypeData

open InsertionMap LabelledTree Document RootedMemory List

/-- Neither pointer leads through the other. -/
def Unrelated (pointer other : String) : Prop :=
  ¬ prototypeDataPointerTokens pointer <+: prototypeDataPointerTokens other ∧
    ¬ prototypeDataPointerTokens other <+: prototypeDataPointerTokens pointer

/-- A `set` at the pointer made the second value of the first one. -/
structure SetLaws (before next : Json) (pointer : String) (value : Json) : Prop where
  written : resolvePrototypeDataPointer next pointer = some value
  rest : ∀ other, Unrelated pointer other →
    resolvePrototypeDataPointer next other = resolvePrototypeDataPointer before other

/-- The member of an object is gone. -/
structure MemberRemoved (before next : Json) (pointer : String) : Prop where
  member : ∃ front key members, prototypeDataPointerTokens pointer = front ++ [key] ∧
    before.resolve front = some (.object members) ∧
    next.resolve front = some (.object (erase members key))
  gone : resolvePrototypeDataPointer next pointer = none
  rest : ∀ other, Unrelated pointer other →
    resolvePrototypeDataPointer next other = resolvePrototypeDataPointer before other

/-- The item of an array is gone and the later ones have moved down by one. -/
structure ItemRemoved (before next : Json) (pointer : String) (front : List String) (index : Nat) :
    Prop where
  tokens : prototypeDataPointerTokens pointer = front ++ [Nat.repr index]
  item : ∃ items, before.resolve front = some (.array items) ∧ index < items.length ∧
    next.resolve front = some (.array (items.eraseIdx index))
  earlier : ∀ other < index, ∀ place,
    next.resolve (front ++ Nat.repr other :: place) = before.resolve (front ++ Nat.repr other :: place)
  later : ∀ other, index ≤ other → ∀ place, next.resolve (front ++ Nat.repr other :: place) =
      before.resolve (front ++ Nat.repr (other + 1) :: place)
  rest : ∀ other, Unrelated pointer other →
    (∀ index', index ≤ index' → ¬ front ++ [Nat.repr index'] <+: prototypeDataPointerTokens other) →
    resolvePrototypeDataPointer next other = resolvePrototypeDataPointer before other

variable {data : Option Json} {next value : Json} {trimmed : Nat} {pointer path : String}
  {tokens front : List String} {key : String}

theorem resolve_of_proper (proper : isPrototypeDataPointer pointer = true) (tree : Json) :
    resolvePrototypeDataPointer tree pointer = tree.resolve (prototypeDataPointerTokens pointer) :=
  if_pos proper

theorem resolvePointer_congr {first second : Json} {other : String}
    (same : first.resolve (prototypeDataPointerTokens other) =
      second.resolve (prototypeDataPointerTokens other)) :
    resolvePrototypeDataPointer first other = resolvePrototypeDataPointer second other := by
  unfold resolvePrototypeDataPointer
  rw [same]

/-- The last token of a pointer, and those before it. -/
theorem tokens_split (proper : isPrototypeDataPointer pointer = true) :
    ∃ front key, prototypeDataPointerTokens pointer = front ++ [key] :=
  ⟨_, _, (dropLast_append_getLast (tokens_ne_nil proper)).symm⟩

theorem resolve_singleton (tree : Json) (key : String) : tree.resolve [key] = tree.child key := by
  rw [resolve]
  cases child tree key <;> rfl

theorem setLaws_of_accepted
    (accepted : Accepted data (.set path (some value)) next trimmed pointer) :
    SetLaws (currentData data) next pointer value := by
  have proper := proper_of_path accepted.path
  have edited := editAt_of_set accepted
  obtain ⟨front, key, split⟩ := tokens_split proper
  rw [split] at edited
  constructor
  · obtain ⟨parent, after, found, done, rfl⟩ := editAt_some edited
    rw [resolve_of_proper proper, split, resolve_replaceAt_inside found, resolve_singleton]
    exact (puts_setChild done).child
  · intro other unrelated
    rw [Unrelated, split] at unrelated
    apply resolvePointer_congr
    exact resolve_editAt_apart (fun _ done => (puts_setChild done).rest) edited unrelated.1
      unrelated.2

section Removal

variable {items : List Json} {members : List (String × Json)} {after : Json} {index : Nat}

theorem applyMember_remove (done : applyMember members key .remove = some after) :
    after = .object (erase members key) := by
  rw [applyMember] at done
  split at done
  · exact (Option.some.inj done).symm
  · cases done

theorem applyArray_remove (done : applyArray items key .remove = some after) :
    ∃ index, index < items.length ∧ key = Nat.repr index ∧ after = .array (items.eraseIdx index) := by
  rw [applyArray, Option.map_eq_some_iff] at done
  obtain ⟨index, spelled, rfl⟩ := done
  obtain ⟨inside, rfl⟩ := arrayIndex_some spelled
  exact ⟨index, inside, rfl, rfl⟩

theorem child_erase (members : List (String × Json)) (key other : String) :
    child (.object (erase members key)) other =
      if key = other then none else child (.object members) other := by
  rw [child, child, get?_erase]

/-- An index names the item there, or nothing. -/
theorem child_items (items : List Json) (index : Nat) :
    child (.array items) (Nat.repr index) = items[index]? := by
  by_cases inside : index < items.length
  · rw [child_array inside, getElem?_eq_getElem inside]
  · rw [getElem?_eq_none (by omega), child]
    cases spelled : arrayIndex (Nat.repr index) items.length with
    | none => rfl
    | some other =>
      obtain ⟨known, same⟩ := arrayIndex_some spelled
      rw [Nat.repr_injective same] at inside
      exact absurd known inside

theorem child_eraseIdx (items : List Json) (index other : Nat) :
    child (.array (items.eraseIdx index)) (Nat.repr other) =
      if other < index then child (.array items) (Nat.repr other)
      else child (.array items) (Nat.repr (other + 1)) := by
  rw [child_items, child_items, child_items, getElem?_eraseIdx]

/-- A token that spells no index from the removed one on names what it named before. -/
theorem child_eraseIdx_other (earlier : ∀ later, index ≤ later → key ≠ Nat.repr later) :
    child (.array (items.eraseIdx index)) key = child (.array items) key := by
  cases spelled : arrayIndex key items.length with
  | some other =>
    obtain ⟨-, rfl⟩ := arrayIndex_some spelled
    have before : other < index := by
      by_contra late
      exact earlier other (by omega) rfl
    rw [child_eraseIdx, if_pos before]
  | none =>
    have nowhere : arrayIndex key (items.eraseIdx index).length = none := by
      cases shorter : arrayIndex key (items.eraseIdx index).length with
      | none => rfl
      | some other =>
        obtain ⟨known, rfl⟩ := arrayIndex_some shorter
        have longer : other < items.length :=
          Nat.lt_of_lt_of_le known (eraseIdx_sublist items index).length_le
        rw [arrayIndex_repr longer] at spelled
        cases spelled
    rw [child, child, nowhere, spelled]
    rfl

theorem removeLaws_of_accepted (accepted : Accepted data (.remove path) next trimmed pointer) :
    MemberRemoved (currentData data) next pointer ∨
      ∃ front index, ItemRemoved (currentData data) next pointer front index := by
  have proper := proper_of_path accepted.path
  have applied := accepted.applied
  simp only [windowedWrite, patchOp, applyData] at applied
  obtain ⟨front, key, split⟩ := tokens_split proper
  rw [split] at applied
  obtain ⟨parent, after, found, done, whole⟩ := editAt_some applied
  have inside (place : List String) : next.resolve (front ++ place) = after.resolve place := by
    rw [whole]
    exact resolve_replaceAt_inside found place
  have known (place : List String) :
      (currentData data).resolve (front ++ place) = parent.resolve place := by
    rw [resolve_append, found, Option.bind_some]
  cases parent with
  | scalar => cases done
  | object members =>
    have erased := applyMember_remove done
    subst erased
    left
    constructor
    · refine ⟨front, key, members, split, found, ?_⟩
      have here := inside []
      rwa [append_nil] at here
    · rw [resolve_of_proper proper, split, inside, resolve_singleton, child_erase, if_pos rfl]
    · intro other unrelated
      rw [Unrelated, split] at unrelated
      apply resolvePointer_congr
      refine resolve_editAt_apart (fun {parent after} held edited token apart => ?_) applied
        unrelated.1 unrelated.2
      rw [found, Option.some.injEq] at held
      subst held
      rw [applyMember_remove edited, child_erase, if_neg apart.symm]
  | array items =>
    obtain ⟨index, short, rfl, erased⟩ := applyArray_remove done
    subst erased
    right
    refine ⟨front, index, split, ⟨items, found, short, ?_⟩, ?_, ?_, ?_⟩
    · have here := inside []
      rwa [append_nil] at here
    · intro other early place
      rw [inside, known, resolve, child_eraseIdx, if_pos early, resolve]
    · intro other late place
      rw [inside, known, resolve, child_eraseIdx, if_neg (by omega), resolve]
    · intro other unrelated earlier
      rw [Unrelated, split] at unrelated
      apply resolvePointer_congr
      generalize prototypeDataPointerTokens other = place at unrelated earlier
      by_cases leads : front <+: place
      · obtain ⟨lower, rfl⟩ := leads
        rw [inside, known]
        cases lower with
        | nil =>
          rw [append_nil] at unrelated
          exact absurd (prefix_append front _) unrelated.2
        | cons token lower =>
          have apart : ∀ later, index ≤ later → token ≠ Nat.repr later := by
            rintro later late rfl
            apply earlier later late
            rw [prefix_append_right_inj]
            exact cons_prefix_cons.mpr ⟨rfl, nil_prefix⟩
          rw [resolve, child_eraseIdx_other apart, resolve]
      · rw [whole]
        apply resolve_replaceAt_apart leads
        exact fun above => unrelated.2 (above.trans (prefix_append front _))

end Removal

section Caller

variable {memory : List Json} {root : Option Nat} {write : DataWrite} {copy : Nat}

/-- The data that the caller holds; absent data has nothing at any pointer. -/
def callerData (memory : List Json) (root : Option Nat) : Json :=
  (root.bind fun known => memory[known]?).getD (.object [])

theorem currentData_held
    (object : ∀ known, root = some known → ∃ members, memory[known]? = some (.object members)) :
    currentData (root.bind fun known => memory[known]?) = callerData memory root := by
  cases root with
  | none => rfl
  | some known =>
    obtain ⟨members, held⟩ := object known rfl
    rw [callerData, Option.bind_some, held]
    rfl

theorem ok_of_memory (done : (applyPrototypeDataWriteIn memory root write).2 = .ok (copy, trimmed)) :
    ∃ next, dataAt (applyPrototypeDataWriteIn memory root write).1 copy = some next ∧
      applyPrototypeDataWrite (root.bind fun known => memory[known]?) write = .ok (next, trimmed) := by
  have read := (applyPrototypeDataWriteIn_refines memory root write).2
  rw [readResult, done] at read
  cases pure : applyPrototypeDataWrite (root.bind fun known => memory[known]?) write with
  | error failure =>
    rw [pure] at read
    cases read
  | ok result =>
    rw [pure] at read
    simp only [Except.map, Except.ok.injEq, Prod.mk.injEq] at read
    obtain ⟨held, rfl⟩ := read
    exact ⟨result.1, held, rfl⟩

end Caller

/-- A data write is a lens on the data: a `set` shows at its pointer, a `remove` takes its member or
item out, all other places stay, and nothing that the caller holds changes, accepted or refused. -/
theorem applyPrototypeDataWrite_lens (memory : List Json) (root : Option Nat) (write : DataWrite)
    (object : ∀ known, root = some known → ∃ members, memory[known]? = some (.object members)) :
    (∀ known < memory.length,
      (applyPrototypeDataWriteIn memory root write).1[known]? = memory[known]?) ∧
    ∀ copy trimmed, (applyPrototypeDataWriteIn memory root write).2 = .ok (copy, trimmed) →
      ∃ pointer next, prototypeDataPathPointer write.path = some pointer ∧
        dataAt (applyPrototypeDataWriteIn memory root write).1 copy = some next ∧
        (∀ path value, write = .set path value →
          ∃ given, value = some given ∧ SetLaws (callerData memory root) next pointer given) ∧
        (∀ path, write = .remove path → MemberRemoved (callerData memory root) next pointer ∨
          ∃ front index, ItemRemoved (callerData memory root) next pointer front index) := by
  obtain ⟨kept, -⟩ := applyPrototypeDataWriteIn_refines memory root write
  refine ⟨fun known inside => ?_, fun copy trimmed done => ?_⟩
  · obtain ⟨added, whole⟩ := kept
    rw [← whole, getElem?_append_left inside]
  · obtain ⟨next, held, written⟩ := ok_of_memory done
    obtain ⟨pointer, accepted⟩ := accepted_of_ok written
    rw [← currentData_held object]
    refine ⟨pointer, next, accepted.path, held, ?_, ?_⟩
    · rintro path value rfl
      cases value with
      | none => cases accepted.value
      | some given => exact ⟨given, rfl, setLaws_of_accepted accepted⟩
    · rintro path rfl
      exact removeLaws_of_accepted accepted

/-- The rows of a list, of which a write removes the first one. -/
def twoRows : Json := .object [("rows", .array [.scalar (.text "first"), .scalar (.text "second")])]

theorem applyPrototypeDataWrite_lens_twoRows : ∃ copy trimmed next,
      (applyPrototypeDataWriteIn [twoRows] (some 0) (.remove "/data/rows/0")).2 =
        .ok (copy, trimmed) ∧
      (MemberRemoved twoRows next "/rows/0" ∨
        ∃ front index, ItemRemoved twoRows next "/rows/0" front index) := by
  have object : ∀ known, some 0 = some known →
      ∃ members, [twoRows][known]? = some (.object members) := by
    rintro known ⟨⟩
    exact ⟨_, rfl⟩
  have done : (applyPrototypeDataWriteIn [twoRows] (some 0) (.remove "/data/rows/0")).2 =
      .ok (1, 0) := by decide +kernel
  have path : prototypeDataPathPointer "/data/rows/0" = some "/rows/0" := by decide +kernel
  obtain ⟨pointer, next, found, -, -, removed⟩ :=
    (applyPrototypeDataWrite_lens [twoRows] (some 0) (.remove "/data/rows/0") object).2 1 0 done
  have same : "/rows/0" = pointer := Option.some.inj (path.symm.trans found)
  subst same
  exact ⟨1, 0, next, done, removed _ rfl⟩

end AutoMobile.PrototypeData
