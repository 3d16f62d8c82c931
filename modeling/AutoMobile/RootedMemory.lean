import Mathlib.Data.List.Basic

/- Documents that are held by roots, each in a part of memory of its own: what is changed in place
through one root shows through no other. -/
namespace RootedMemory

variable {α : Type} {memory changed : List α} {root known : Nat} {change : α → Option α}

/-- A copy of the document under a new root. -/
def clone (memory : List α) (document : α) : List α × Nat := (memory ++ [document], memory.length)

/-- Change in place what a root holds. -/
def modifyRoot (change : α → Option α) (root : Nat) (memory : List α) : Option (List α) :=
  (memory[root]?).bind fun document => (change document).map fun next => memory.set root next

theorem clone_fresh (memory : List α) (document : α) :
    (clone memory document).1[(clone memory document).2]? = some document :=
  List.getElem?_concat_length

theorem modifyRoot_held {document : α} (held : memory[root]? = some document) :
    modifyRoot change root memory = (change document).map fun next => memory.set root next := by
  rw [modifyRoot, held, Option.bind_some]

theorem modifyRoot_clone (memory : List α) (document : α) :
    modifyRoot change (clone memory document).2 (clone memory document).1 =
      (change document).map fun next => memory ++ [next] := by
  rw [modifyRoot_held (clone_fresh memory document)]
  refine congrArg (Option.map · _) (funext fun next => ?_)
  rw [clone, List.set_append_right _ _ (Nat.le_refl _), Nat.sub_self]
  rfl

end RootedMemory
