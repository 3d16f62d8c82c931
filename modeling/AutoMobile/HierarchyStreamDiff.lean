import AutoMobile.RootedMemory
import AutoMobile.ScriptValue

/- `hierarchyStreamDiff`: the marks that a frame of the view hierarchy gets against the frame before
it, and the numbers that are reported with them. -/
namespace AutoMobile.HierarchyDiff

open InsertionMap ScriptValue

inductive DiffState where
  | added
  | changed
deriving DecidableEq, Repr

def HIERARCHY_DIFF_STATE_KEY : String := "diffState"

def DiffState.text : DiffState → String
  | .added => "added"
  | .changed => "changed"

/-- The `$` of a node. -/
inductive Attributes where
  | absent
  | null
  | fields (fields : Fields)

/-- The fields of `$`; there are none in one that is absent or null. -/
def Attributes.get : Attributes → Fields
  | .fields known => known
  | .absent | .null => []

/-- A node without its children. -/
structure Own where
  attributes : Attributes
  bounds : Value
  /-- The other fields of the node. -/
  others : Fields

/-- A node, by what its field `node` is: nothing, one object, or an array. -/
inductive Node where
  | leaf (own : Own)
  | single (own : Own) (child : Node)
  | several (own : Own) (nodes : List Node)

namespace Node

def own : Node → Own
  | leaf own | single own _ | several own _ => own

/-- Whether the object of the node has no field at all. -/
def isEmpty : Node → Bool
  | leaf ⟨.absent, .undefined, []⟩ => true
  | _ => false

/-- An empty object is no child. -/
def children : Node → List Node
  | leaf _ => []
  | single _ child => if child.isEmpty then [] else [child]
  | several _ nodes => nodes

end Node

section Signature

-- `String(value)`
variable (text : Value → String)

def Value.orEmpty : Value → String
  | .undefined | .null => ""
  | value => text value

def boundsSignature : Value → String
  | .undefined | .null => ""
  | .object bounds =>
    let side (name : String) := Value.orEmpty text ((get? bounds name).getD .undefined)
    ",".intercalate [side "left", side "top", side "right", side "bottom"]
  | value => text value

/-- The first of the attributes that is there. -/
def firstOf (attrs : Fields) : List String → String
  | [] => ""
  | key :: keys =>
    match (get? attrs key).getD .undefined with
    | .undefined | .null => firstOf attrs keys
    | value => text value

def nodeSignature (own : Own) : String :=
  let attrs := own.attributes.get
  let get := firstOf text attrs
  let boundsSig := if own.bounds.truthy then boundsSignature text own.bounds
    else boundsSignature text ((get? attrs "bounds").getD .undefined)
  "\u0000".intercalate [get ["class", "className"], get ["text"], get ["resource-id", "resourceId"],
    get ["content-desc", "contentDesc"], boundsSig, get ["clickable"], get ["enabled"],
    get ["focused"], get ["selected"], get ["checked"], get ["scrollable"]]

end Signature

section Diff

def markState (own : Own) (state : DiffState) : Own :=
  { own with
    attributes := .fields (put own.attributes.get HIERARCHY_DIFF_STATE_KEY (.text state.text)) }

mutual

def markSubtreeAdded : Node → Node × Nat
  | .leaf own => (.leaf (markState own .added), 1)
  | .single own child =>
    if child.isEmpty then (.single (markState own .added) child, 1)
    else
      let marked := markSubtreeAdded child
      (.single (markState own .added) marked.1, 1 + marked.2)
  | .several own nodes =>
    let marked := markAllAdded nodes
    (.several (markState own .added) marked.1, 1 + marked.2)

def markAllAdded : List Node → List Node × Nat
  | [] => ([], 0)
  | node :: rest =>
    let first := markSubtreeAdded node
    let later := markAllAdded rest
    (first.1 :: later.1, first.2 + later.2)

end

mutual

def countSubtree : Node → Nat
  | .leaf _ => 1
  | .single _ child => if child.isEmpty then 1 else 1 + countSubtree child
  | .several _ nodes => 1 + countAll nodes

def countAll : List Node → Nat
  | [] => 0
  | node :: rest => countSubtree node + countAll rest

end

/-- How much a walk adds to the summary. -/
structure Counts where
  added : Nat := 0
  changed : Nat := 0
  removed : Nat := 0
deriving DecidableEq, Repr

def Counts.add (first second : Counts) : Counts where
  added := first.added + second.added
  changed := first.changed + second.changed
  removed := first.removed + second.removed

variable (text : Value → String)

/-- What the walk makes of the node itself. -/
def walkOwn (previous current : Own) : Own × Counts :=
  if nodeSignature text previous ≠ nodeSignature text current then
    (markState current .changed, { changed := 1 })
  else (current, {})

mutual

def walk (previous : Node) : Node → Node × Counts
  | .leaf own =>
    let here := walkOwn text previous.own own
    (.leaf here.1, here.2.add { removed := countAll previous.children })
  | .single own child =>
    let here := walkOwn text previous.own own
    if child.isEmpty then
      (.single here.1 child, here.2.add { removed := countAll previous.children })
    else
      match previous.children with
      | [] =>
        let marked := markSubtreeAdded child
        (.single here.1 marked.1, here.2.add { added := marked.2 })
      | matched :: later =>
        let below := walk matched child
        (.single here.1 below.1, (here.2.add below.2).add { removed := countAll later })
  | .several own nodes =>
    let here := walkOwn text previous.own own
    let below := walkEach previous.children nodes
    (.several here.1 below.1, here.2.add below.2)

/-- Children are matched by their index; those that are left on one side are added or removed. -/
def walkEach (previous : List Node) : List Node → List Node × Counts
  | [] => ([], { removed := countAll previous })
  | node :: rest =>
    match previous with
    | [] =>
      let first := markSubtreeAdded node
      let later := walkEach [] rest
      (first.1 :: later.1, Counts.add { added := first.2 } later.2)
    | matched :: others =>
      let first := walk matched node
      let later := walkEach others rest
      (first.1 :: later.1, first.2.add later.2)

end

structure HierarchyDiffSummary where
  hasBaseline : Bool
  counts : Counts
deriving DecidableEq, Repr

/-- A capture, by the root of its hierarchy and its other fields. -/
structure ViewHierarchyResult where
  node : Option Node
  others : Fields

def annotateHierarchyDiff (previous : Option ViewHierarchyResult) (current : ViewHierarchyResult) :
    ViewHierarchyResult × HierarchyDiffSummary :=
  match previous.bind (·.node), current.node with
  | some previousRoot, some currentRoot =>
    let walked := walk text previousRoot currentRoot
    ({ current with node := some walked.1 }, ⟨true, walked.2⟩)
  | _, _ => (current, ⟨false, {}⟩)

/-- The diff in the memory that it shares with its caller: the marks are made in place, on a copy of
the current capture. -/
def annotateHierarchyDiffIn (memory : List ViewHierarchyResult) (previous : Option Nat)
    (current : Nat) : Option (List ViewHierarchyResult × Nat × HierarchyDiffSummary) := do
  let capture ← memory[current]?
  let baseline := previous.bind fun root => memory[root]?
  let copy := RootedMemory.clone memory capture
  let annotated := annotateHierarchyDiff text baseline capture
  let memory ← RootedMemory.modifyRoot (fun _ => some annotated.1) copy.2 copy.1
  return (memory, copy.2, annotated.2)

end Diff

end AutoMobile.HierarchyDiff
