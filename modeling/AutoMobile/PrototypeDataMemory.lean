import AutoMobile.PrototypeDataSpec
import AutoMobile.RootedMemory

/- A data write as the source makes it, in the memory that it shares with its caller: the patch
works in place, on a copy. -/
namespace AutoMobile.PrototypeData

open InsertionMap LabelledTree Document RootedMemory List

/-- The `data` of the object that a root holds. -/
def dataAt (memory : List Json) (root : Nat) : Option Json :=
  (memory[root]?).bind fun spec => spec.resolve ["data"]

/-- `applyPrototypePatch({ data: current }, [op])`: the memory afterwards and the root of the
patched copy, none when the path does not exist. -/
def patchCopy (memory : List Json) (current : Json) (op : PatchOp) (tokens : List String) :
    List Json × Option Nat :=
  let copy := clone memory (.object [("data", current)])
  match modifyRoot (editAt (applyOp op) ("data" :: tokens)) copy.2 copy.1 with
  | some memory => (memory, some copy.2)
  | none => (copy.1, none)

/-- `applyPrototypeDataWrite` on the data that a root holds. An accepted write gives the root whose
`data` is the new data. -/
def applyPrototypeDataWriteIn (memory : List Json) (root : Option Nat) (write : DataWrite) :
    List Json × Except DataWriteError (Nat × Nat) :=
  match prototypeDataPathPointer write.path with
  | none => (memory, .error ⟨.invalidPath, s!"{write.path} is not a /data/<pointer> path"⟩)
  | some pointer =>
    match valueRefusal write with
    | some refusal => (memory, .error refusal)
    | none =>
      let current := currentData (root.bind fun root => memory[root]?)
      let tokens := prototypeDataPointerTokens pointer
      match targetRefusal current tokens write with
      | some refusal => (memory, .error refusal)
      | none =>
        let present := (current.resolve tokens).isSome
        let (value, trimmed) := windowedWrite current tokens write
        match patchCopy memory current (patchOp value present) tokens with
        | (memory, none) => (memory, .error ⟨.notFound, s!"{write.path}: Path does not exist"⟩)
        | (memory, some copy) =>
          match (dataAt memory copy).map fun next => prototypeDataError next maxDataWriteBytes with
          | some none => (memory, .ok (copy, trimmed))
          | some (some message) => (memory,
              .error ⟨if namesLimit message then .limitExceeded else .invalidValue, message⟩)
          | none => (memory, .error ⟨.invalidValue, "Data must stay an object"⟩)

section Refinement

variable {memory changed : List Json} {current next : Json} {tokens : List String}

/-- Editing below `data` edits the data. -/
theorem editAt_data (edit : Json → String → Option Json) (proper : tokens ≠ []) :
    editAt edit ("data" :: tokens) (.object [("data", current)]) =
      (editAt edit tokens current).map fun next => .object [("data", next)] := by
  rw [editAt_cons proper]
  have held : child (.object [("data", current)]) "data" = some current := by simp [child, get?]
  rw [held, Option.bind_some]
  refine congrArg (Option.map · _) (funext fun next => ?_)
  simp [replaceChild, putMember]

/-- The patched copy holds what the patch makes of the data. -/
theorem patchCopy_eq (memory : List Json) (current : Json) (op : PatchOp) (proper : tokens ≠ []) :
    patchCopy memory current op tokens = match applyData op tokens current with
      | some next => (memory ++ [.object [("data", next)]], some memory.length)
      | none => (memory ++ [.object [("data", current)]], none) := by
  unfold patchCopy applyData
  dsimp only
  rw [modifyRoot_clone, editAt_data _ proper]
  cases editAt (applyOp op) tokens current <;> rfl

theorem dataAt_patched (memory : List Json) (next : Json) :
    dataAt (memory ++ [.object [("data", next)]]) memory.length = some next := by
  rw [dataAt, getElem?_concat_length]
  simp [resolve, child, get?]

theorem tokens_ne_nil {pointer : String} (proper : isPrototypeDataPointer pointer = true) :
    prototypeDataPointerTokens pointer ≠ [] := by
  rw [prototypeDataPointerTokens, if_pos proper, ne_eq, map_eq_nil_iff]
  exact splitOn_ne_nil _ _

theorem proper_of_path {path pointer : String}
    (accepted : prototypeDataPathPointer path = some pointer) :
    isPrototypeDataPointer pointer = true := by
  unfold prototypeDataPathPointer at accepted
  split at accepted
  · dsimp only at accepted
    split at accepted
    · rename_i proper
      exact Option.some.inj accepted ▸ proper
    · cases accepted
  · cases accepted

/-- What a result in memory stands for. -/
def readResult (run : List Json × Except DataWriteError (Nat × Nat)) :
    Except DataWriteError (Option Json × Nat) :=
  run.2.map fun result => (dataAt run.1 result.1, result.2)

/-- The write in memory changes nothing that was there, and gives what the pure write gives. -/
theorem applyPrototypeDataWriteIn_refines (memory : List Json) (root : Option Nat)
    (write : DataWrite) :
    memory <+: (applyPrototypeDataWriteIn memory root write).1 ∧
      readResult (applyPrototypeDataWriteIn memory root write) =
        (applyPrototypeDataWrite (root.bind fun root => memory[root]?) write).map
          fun result => (some result.1, result.2) := by
  unfold applyPrototypeDataWriteIn applyPrototypeDataWrite
  cases path : prototypeDataPathPointer write.path with
  | none => exact ⟨prefix_refl memory, rfl⟩
  | some pointer =>
    dsimp only
    cases valueRefusal write with
    | some refusal => exact ⟨prefix_refl memory, rfl⟩
    | none =>
      dsimp only
      cases targetRefusal (currentData (root.bind fun root => memory[root]?))
          (prototypeDataPointerTokens pointer) write with
      | some refusal => exact ⟨prefix_refl memory, rfl⟩
      | none =>
        dsimp only
        rw [patchCopy_eq _ _ _ (tokens_ne_nil (proper_of_path path))]
        cases applyData _ (prototypeDataPointerTokens pointer)
            (currentData (root.bind fun root => memory[root]?)) with
        | none => exact ⟨prefix_append memory _, rfl⟩
        | some next =>
          dsimp only
          rw [dataAt_patched, Option.map_some]
          cases prototypeDataError next maxDataWriteBytes with
          | some message => exact ⟨prefix_append memory _, rfl⟩
          | none =>
            refine ⟨prefix_append memory _, ?_⟩
            rw [readResult]
            dsimp only [Except.map]
            rw [dataAt_patched]

end Refinement

end AutoMobile.PrototypeData
