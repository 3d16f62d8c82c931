import AutoMobile.HierarchyStreamDiff

/- The marks of a frame say position by position what the frame before it had there, the numbers
balance, and the marks are all that the annotated frame adds. -/
namespace AutoMobile.HierarchyDiff

open InsertionMap ScriptValue List

variable (text : Value → String) {previous current node : Node} {own : Own}

namespace Node

/-- The node at a path of child indices. -/
def nodeAt : Node → List Nat → Option Node
  | node, [] => some node
  | node, index :: path => (node.children[index]?).bind fun child => nodeAt child path

theorem nodeAt_cons (node : Node) (index : Nat) (path : List Nat) :
    node.nodeAt (index :: path) = (node.children[index]?).bind fun child => child.nodeAt path := rfl

theorem children_single_empty {child : Node} (empty : child.isEmpty = true) :
    (single own child).children = [] := if_pos empty

theorem children_single {child : Node} (filled : child.isEmpty = false) :
    (single own child).children = [child] := by
  rw [children, filled]
  rfl

end Node

open Node

section Added

theorem markState_ne (own : Own) (state : DiffState) : (markState own state).attributes ≠ .absent := by
  simp [markState]

theorem isEmpty_of_attributes (present : node.own.attributes ≠ .absent) : node.isEmpty = false := by
  cases node with
  | single => rfl
  | several => rfl
  | leaf own =>
    obtain ⟨attributes, bounds, others⟩ := own
    cases attributes with
    | absent => exact absurd rfl present
    | null => rfl
    | fields => rfl

/-- The subtree of an added node. -/
def addedTree (node : Node) : Node := (markSubtreeAdded node).1

theorem addedTree_single_empty {child : Node} (empty : child.isEmpty = true) :
    addedTree (single own child) = single (markState own .added) child := by
  rw [addedTree, markSubtreeAdded, if_pos empty]

theorem addedTree_single {child : Node} (filled : child.isEmpty = false) :
    addedTree (single own child) = single (markState own .added) (addedTree child) := by
  rw [addedTree, markSubtreeAdded, filled]
  rfl

theorem markAllAdded_nodes (nodes : List Node) : (markAllAdded nodes).1 = nodes.map addedTree := by
  induction nodes with
  | nil => rfl
  | cons node rest ih =>
    rw [markAllAdded, map_cons, ← ih]
    rfl

theorem addedTree_several (own : Own) (nodes : List Node) :
    addedTree (several own nodes) = several (markState own .added) (nodes.map addedTree) := by
  rw [← markAllAdded_nodes]
  rfl

theorem own_addedTree (node : Node) : (addedTree node).own = markState node.own .added := by
  cases node with
  | leaf => rfl
  | several => rfl
  | single own child =>
    cases filled : child.isEmpty with
    | true =>
      rw [addedTree_single_empty filled]
      rfl
    | false =>
      rw [addedTree_single filled]
      rfl

theorem isEmpty_addedTree (node : Node) : (addedTree node).isEmpty = false :=
  isEmpty_of_attributes (by rw [own_addedTree]; exact markState_ne _ _)

theorem children_addedTree (node : Node) :
    (addedTree node).children = node.children.map addedTree := by
  cases node with
  | leaf => rfl
  | several own nodes =>
    rw [addedTree_several]
    rfl
  | single own child =>
    cases filled : child.isEmpty with
    | true =>
      rw [addedTree_single_empty filled, children_single_empty filled, children_single_empty filled]
      rfl
    | false =>
      rw [addedTree_single filled, children_single filled,
        children_single (isEmpty_addedTree child)]
      rfl

theorem nodeAt_addedTree (node : Node) (path : List Nat) :
    (addedTree node).nodeAt path = (node.nodeAt path).map addedTree := by
  induction path generalizing node with
  | nil => rfl
  | cons index path ih =>
    rw [nodeAt_cons, nodeAt_cons, children_addedTree, getElem?_map]
    cases node.children[index]? with
    | none => rfl
    | some child => exact ih child

mutual

/-- Marking a subtree counts it. -/
theorem markSubtreeAdded_count : ∀ node : Node, (markSubtreeAdded node).2 = countSubtree node
  | .leaf _ => rfl
  | .single own child => by
    rw [markSubtreeAdded, countSubtree]
    split
    · rfl
    · exact congrArg (1 + ·) (markSubtreeAdded_count child)
  | .several _ nodes => congrArg (1 + ·) (markAllAdded_count nodes)

theorem markAllAdded_count : ∀ nodes : List Node, (markAllAdded nodes).2 = countAll nodes
  | [] => rfl
  | node :: rest => congrArg₂ (· + ·) (markSubtreeAdded_count node) (markAllAdded_count rest)

end

end Added

section Walked

/-- The walked tree. -/
def walkedTree (previous current : Node) : Node := (walk text previous current).1

/-- A child that is there, against what was there before or against nothing. -/
def matchedTree (before : Option Node) (node : Node) : Node :=
  match before with
  | some matched => walkedTree text matched node
  | none => addedTree node

theorem walkedTree_single_empty {child : Node} (empty : child.isEmpty = true) :
    walkedTree text previous (single own child) =
      single (walkOwn text previous.own own).1 child := by
  rw [walkedTree, walk, if_pos empty]

theorem walkedTree_single {child : Node} (filled : child.isEmpty = false) :
    walkedTree text previous (single own child) =
      single (walkOwn text previous.own own).1 (matchedTree text previous.children[0]? child) := by
  rw [walkedTree, walk, filled, if_neg Bool.false_ne_true]
  cases previous.children <;> rfl

theorem walkEach_nodes (befores nodes : List Node) (index : Nat) :
    (walkEach text befores nodes).1[index]? =
      (nodes[index]?).map (matchedTree text befores[index]?) := by
  induction nodes generalizing befores index with
  | nil => rfl
  | cons node rest ih =>
    cases befores with
    | nil =>
      rw [walkEach]
      cases index with
      | zero => rfl
      | succ index =>
        have later := ih [] index
        rw [getElem?_nil] at later
        exact later
    | cons matched others =>
      rw [walkEach]
      cases index with
      | zero => rfl
      | succ index => exact ih others index

theorem own_walkedTree (previous current : Node) :
    (walkedTree text previous current).own = (walkOwn text previous.own current.own).1 := by
  cases current with
  | leaf => rfl
  | several => rfl
  | single own child =>
    cases filled : child.isEmpty with
    | true =>
      rw [walkedTree_single_empty text filled]
      rfl
    | false =>
      rw [walkedTree_single text filled]
      rfl

/-- A node with a field keeps one. -/
theorem isEmpty_walkedTree (filled : current.isEmpty = false) :
    (walkedTree text previous current).isEmpty = false := by
  cases current with
  | several => rfl
  | single own child =>
    cases inner : child.isEmpty with
    | true =>
      rw [walkedTree_single_empty text inner]
      rfl
    | false =>
      rw [walkedTree_single text inner]
      rfl
  | leaf own =>
    have walked : walkedTree text previous (leaf own) = leaf (walkOwn text previous.own own).1 := rfl
    rw [walked, walkOwn]
    split
    · exact isEmpty_of_attributes (markState_ne _ _)
    · exact filled

theorem isEmpty_matchedTree (before : Option Node) (filled : node.isEmpty = false) :
    (matchedTree text before node).isEmpty = false := by
  cases before with
  | none => exact isEmpty_addedTree node
  | some matched => exact isEmpty_walkedTree text filled

theorem children_walkedTree (previous current : Node) (index : Nat) :
    (walkedTree text previous current).children[index]? =
      (current.children[index]?).map (matchedTree text previous.children[index]?) := by
  cases current with
  | leaf => rfl
  | several own nodes => exact walkEach_nodes text previous.children nodes index
  | single own child =>
    cases filled : child.isEmpty with
    | true =>
      rw [walkedTree_single_empty text filled, children_single_empty filled,
        children_single_empty filled]
      rfl
    | false =>
      rw [walkedTree_single text filled, children_single filled,
        children_single (isEmpty_matchedTree text _ filled)]
      cases index <;> rfl

/-- Every node of the walked tree is the node of the current tree at its position, against the one
of the previous tree there. -/
theorem nodeAt_walkedTree (previous current : Node) (path : List Nat) :
    (walkedTree text previous current).nodeAt path =
      (current.nodeAt path).map (matchedTree text (previous.nodeAt path)) := by
  induction path generalizing previous current with
  | nil => rfl
  | cons index path ih =>
    rw [nodeAt_cons, nodeAt_cons, nodeAt_cons, children_walkedTree]
    cases current.children[index]? with
    | none => rfl
    | some child =>
      rw [Option.map_some, Option.bind_some, Option.bind_some]
      cases previous.children[index]? with
      | none => exact nodeAt_addedTree child path
      | some matched => exact ih matched child

end Walked

section Counted

theorem countSubtree_eq (node : Node) : countSubtree node = 1 + countAll node.children := by
  cases node with
  | leaf => rfl
  | several => rfl
  | single own child =>
    rw [countSubtree, children]
    split <;> rfl

theorem walkOwn_counts (previous current : Own) : (walkOwn text previous current).2.added = 0 ∧
      (walkOwn text previous current).2.removed = 0 := by
  unfold walkOwn
  split <;> exact ⟨rfl, rfl⟩

theorem added_add (first second : Counts) :
    (first.add second).added = first.added + second.added := rfl

theorem removed_add (first second : Counts) :
    (first.add second).removed = first.removed + second.removed := rfl

mutual

/-- What a walk counts as added or removed is the difference of the sizes. -/
theorem walk_conserves (previous : Node) : ∀ current : Node,
    countSubtree current + (walk text previous current).2.removed =
      countSubtree previous + (walk text previous current).2.added
  | .leaf own => by
    have here := walkOwn_counts text previous.own own
    have size := countSubtree_eq previous
    rw [walk, added_add, removed_add]
    simp only [countSubtree]
    omega
  | .single own child => by
    have here := walkOwn_counts text previous.own own
    have size := countSubtree_eq previous
    rw [walk, countSubtree]
    split
    · rw [added_add, removed_add]
      simp only
      omega
    · cases befores : previous.children with
      | nil =>
        have marked := markSubtreeAdded_count child
        rw [befores, countAll] at size
        rw [added_add, removed_add]
        simp only
        omega
      | cons matched later =>
        have below := walk_conserves matched child
        rw [befores, countAll] at size
        simp only [added_add, removed_add]
        omega
  | .several own nodes => by
    have here := walkOwn_counts text previous.own own
    have size := countSubtree_eq previous
    have below := walkEach_conserves previous.children nodes
    rw [walk, countSubtree, added_add, removed_add]
    omega

theorem walkEach_conserves (befores : List Node) : ∀ nodes : List Node,
    countAll nodes + (walkEach text befores nodes).2.removed =
      countAll befores + (walkEach text befores nodes).2.added
  | [] => Nat.zero_add _
  | node :: rest => by
    cases befores with
    | nil =>
      have marked := markSubtreeAdded_count node
      have later := walkEach_conserves [] rest
      rw [walkEach]
      simp only [added_add, removed_add, countAll] at later ⊢
      omega
    | cons matched others =>
      have first := walk_conserves matched node
      have later := walkEach_conserves others rest
      rw [walkEach, added_add, removed_add, countAll, countAll]
      omega

end

end Counted

section Erasing

/-- The node without a mark of its own. -/
def eraseOwn (own : Own) : Own :=
  match own.attributes with
  | .fields fields => { own with attributes := .fields (erase fields HIERARCHY_DIFF_STATE_KEY) }
  | _ => own

/-- The node without a mark, and with attributes. -/
def plainOwn (own : Own) : Own :=
  { own with attributes := .fields (erase own.attributes.get HIERARCHY_DIFF_STATE_KEY) }

mutual

def mapOwn (change : Own → Own) : Node → Node
  | .leaf own => .leaf (change own)
  | .single own child => .single (change own) (if child.isEmpty then child else mapOwn change child)
  | .several own nodes => .several (change own) (mapOwns change nodes)

def mapOwns (change : Own → Own) : List Node → List Node
  | [] => []
  | node :: rest => mapOwn change node :: mapOwns change rest

end

/-- The tree without the marks. -/
def eraseMarkers : Node → Node := mapOwn eraseOwn

/-- The tree without the marks, each node with attributes. -/
def plainTree : Node → Node := mapOwn plainOwn

/-- The node has attributes, and no mark among them. -/
def Unmarked (own : Own) : Prop :=
  ∃ fields, own.attributes = .fields fields ∧ get? fields HIERARCHY_DIFF_STATE_KEY = none

variable {change : Own → Own}

theorem plainOwn_markState (own : Own) (state : DiffState) :
    plainOwn (markState own state) = plainOwn own := by
  simp only [plainOwn, markState, Attributes.get, erase_put]

theorem eraseOwn_of_unmarked (unmarked : Unmarked own) : eraseOwn own = own := by
  obtain ⟨fields, attributes, fresh⟩ := unmarked
  rw [get?_eq_none_iff] at fresh
  obtain ⟨known, bounds, others⟩ := own
  simp only at attributes
  subst attributes
  simp only [eraseOwn, erase_of_fresh fresh]

theorem eraseOwn_markState (unmarked : Unmarked own) (state : DiffState) :
    eraseOwn (markState own state) = own := by
  obtain ⟨fields, attributes, fresh⟩ := unmarked
  rw [get?_eq_none_iff] at fresh
  obtain ⟨known, bounds, others⟩ := own
  simp only at attributes
  subst attributes
  simp only [eraseOwn, markState, Attributes.get, erase_put, erase_of_fresh fresh]

mutual

/-- Every node of the tree has the property. -/
def Everywhere (property : Own → Prop) : Node → Prop
  | .leaf own => property own
  | .single own child => property own ∧ (child.isEmpty = false → Everywhere property child)
  | .several own nodes => property own ∧ EverywhereAll property nodes

def EverywhereAll (property : Own → Prop) : List Node → Prop
  | [] => True
  | node :: rest => Everywhere property node ∧ EverywhereAll property rest

end

/-- A change of the nodes that a mark makes no difference to, where they have the property. -/
structure Ignores (property : Own → Prop) (change target : Own → Own) : Prop where
  marked : ∀ {own}, property own → ∀ state, change (markState own state) = target own
  unmarked : ∀ {own}, property own → change own = target own

variable {property : Own → Prop} {target : Own → Own}

theorem Ignores.walkOwn (ignores : Ignores property change target) {own : Own}
    (holds : property own) (previous : Own) :
    change (walkOwn text previous own).1 = target own := by
  unfold HierarchyDiff.walkOwn
  split
  · exact ignores.marked holds _
  · exact ignores.unmarked holds

mutual

theorem mapOwn_addedTree (ignores : Ignores property change target) : ∀ node : Node,
    Everywhere property node → mapOwn change (addedTree node) = mapOwn target node
  | .leaf own, holds => congrArg leaf (ignores.marked holds _)
  | .single own child, holds => by
    obtain ⟨here, below⟩ := holds
    cases filled : child.isEmpty with
    | true =>
      rw [addedTree_single_empty filled, mapOwn, mapOwn, if_pos filled, if_pos filled,
        ignores.marked here]
    | false =>
      rw [addedTree_single filled, mapOwn, mapOwn, isEmpty_addedTree, filled,
        ignores.marked here, mapOwn_addedTree ignores child (below filled)]
      rfl
  | .several own nodes, holds => by
    rw [addedTree_several, mapOwn, mapOwn, ignores.marked holds.1,
      mapOwns_addedTree ignores nodes holds.2]

theorem mapOwns_addedTree (ignores : Ignores property change target) : ∀ nodes : List Node,
    EverywhereAll property nodes → mapOwns change (nodes.map addedTree) = mapOwns target nodes
  | [], _ => rfl
  | node :: rest, holds => by
    rw [map_cons, mapOwns, mapOwns, mapOwn_addedTree ignores node holds.1,
      mapOwns_addedTree ignores rest holds.2]

end

mutual

theorem mapOwn_walkedTree (ignores : Ignores property change target) (previous : Node) :
    ∀ current : Node, Everywhere property current →
      mapOwn change (walkedTree text previous current) = mapOwn target current
  | .leaf own, holds => congrArg leaf (ignores.walkOwn text holds _)
  | .single own child, holds => by
    obtain ⟨here, below⟩ := holds
    cases filled : child.isEmpty with
    | true =>
      rw [walkedTree_single_empty text filled, mapOwn, mapOwn, if_pos filled, if_pos filled,
        ignores.walkOwn text here]
    | false =>
      have inner : mapOwn change (matchedTree text previous.children[0]? child) =
          mapOwn target child := by
        cases previous.children[0]? with
        | none => exact mapOwn_addedTree ignores child (below filled)
        | some matched => exact mapOwn_walkedTree ignores matched child (below filled)
      rw [walkedTree_single text filled, mapOwn, mapOwn, isEmpty_matchedTree text _ filled,
        filled, ignores.walkOwn text here, inner]
      rfl
  | .several own nodes, holds => by
    have below := mapOwns_walkEach ignores previous.children nodes holds.2
    have here := ignores.walkOwn text holds.1 previous.own
    unfold walkedTree
    rw [walk, mapOwn, mapOwn, below, here]

theorem mapOwns_walkEach (ignores : Ignores property change target) (befores : List Node) :
    ∀ nodes : List Node, EverywhereAll property nodes →
      mapOwns change (walkEach text befores nodes).1 = mapOwns target nodes
  | [], _ => rfl
  | node :: rest, holds => by
    cases befores with
    | nil =>
      have first := mapOwn_addedTree ignores node holds.1
      have later := mapOwns_walkEach ignores [] rest holds.2
      rw [walkEach]
      exact congrArg₂ List.cons first later
    | cons matched others =>
      have first := mapOwn_walkedTree ignores matched node holds.1
      have later := mapOwns_walkEach ignores others rest holds.2
      rw [walkEach]
      exact congrArg₂ List.cons first later

end

mutual

theorem everywhere_true : ∀ node : Node, Everywhere (fun _ => True) node
  | .leaf _ => trivial
  | .single _ child => ⟨trivial, fun _ => everywhere_true child⟩
  | .several _ nodes => ⟨trivial, everywhereAll_true nodes⟩

theorem everywhereAll_true : ∀ nodes : List Node, EverywhereAll (fun _ => True) nodes
  | [] => trivial
  | node :: rest => ⟨everywhere_true node, everywhereAll_true rest⟩

end

mutual

theorem mapOwn_id : ∀ node : Node, mapOwn id node = node
  | .leaf _ => rfl
  | .single own child => by
    rw [mapOwn, mapOwn_id child]
    split <;> rfl
  | .several own nodes => congrArg (several own) (mapOwns_id nodes)

theorem mapOwns_id : ∀ nodes : List Node, mapOwns id nodes = nodes
  | [] => rfl
  | node :: rest => congrArg₂ List.cons (mapOwn_id node) (mapOwns_id rest)

end

/-- Without the marks the walked tree is the current one, up to the attributes that a mark needs. -/
theorem plainTree_walkedTree (previous current : Node) :
    plainTree (walkedTree text previous current) = plainTree current :=
  mapOwn_walkedTree text ⟨fun _ state => plainOwn_markState _ state, fun _ => rfl⟩ previous current
    (everywhere_true current)

/-- Where every node has attributes without a mark, erasing the marks gives the current tree. -/
theorem eraseMarkers_walkedTree (previous : Node) (unmarked : Everywhere Unmarked current) :
    eraseMarkers (walkedTree text previous current) = current := by
  have ignores : Ignores Unmarked eraseOwn id :=
    ⟨fun holds state => eraseOwn_markState holds state, fun holds => eraseOwn_of_unmarked holds⟩
  exact (mapOwn_walkedTree text ignores previous current unmarked).trans (mapOwn_id current)

end Erasing

section Frames

/-- What the annotated tree is, at a position that the current tree has: its node without the mark
is the current one, and the mark says what the previous tree had there. -/
structure MarkedAt (before : Option Node) (now annotated : Own) : Prop where
  added : before = none → annotated = markState now .added
  changed : ∀ node, before = some node →
    nodeSignature text node.own ≠ nodeSignature text now → annotated = markState now .changed
  kept : ∀ node, before = some node →
    nodeSignature text node.own = nodeSignature text now → annotated = now

/-- The laws of a frame with a baseline. -/
structure DiffLaws (previous current annotated : Node) (counts : Counts) : Prop where
  conserved : (countSubtree current : Int) - counts.added = countSubtree previous - counts.removed
  positions : ∀ path, (annotated.nodeAt path).isSome = (current.nodeAt path).isSome
  marks : ∀ path now marked, current.nodeAt path = some now → annotated.nodeAt path = some marked →
    MarkedAt text (previous.nodeAt path) now.own marked.own
  plain : plainTree annotated = plainTree current
  erased : Everywhere Unmarked current → eraseMarkers annotated = current

theorem markedAt_matchedTree (before : Option Node) (now : Node) :
    MarkedAt text before now.own (matchedTree text before now).own := by
  cases before with
  | none => exact ⟨fun _ => own_addedTree now, fun _ same => (by cases same), fun _ same => (by cases same)⟩
  | some matched =>
    have walked : (matchedTree text (some matched) now).own =
        (walkOwn text matched.own now.own).1 := own_walkedTree text matched now
    refine ⟨fun absent => (by cases absent), ?_, ?_⟩
    · rintro node same differs
      obtain rfl := Option.some.inj same
      rw [walked, walkOwn, if_pos differs]
    · rintro node same alike
      obtain rfl := Option.some.inj same
      rw [walked, walkOwn, if_neg (not_not_intro alike)]

theorem diffLaws_walk (previous current : Node) :
    DiffLaws text previous current (walkedTree text previous current)
      (walk text previous current).2 := by
  refine ⟨?_, ?_, ?_, plainTree_walkedTree text previous current,
    eraseMarkers_walkedTree text previous⟩
  · have balance := walk_conserves text previous current
    omega
  · intro path
    rw [nodeAt_walkedTree, Option.isSome_map]
  · intro path now marked here there
    rw [nodeAt_walkedTree, here, Option.map_some] at there
    obtain rfl := Option.some.inj there
    exact markedAt_matchedTree text (previous.nodeAt path) now

end Frames

/-- A diff with a baseline keeps to the laws, and changes neither capture that the caller holds; one
without marks and counts nothing. -/
theorem annotateHierarchyDiff_laws (memory : List ViewHierarchyResult) (previousRoot currentRoot : Nat)
    (previous current : Node)
    (before : (memory[previousRoot]?).bind (·.node) = some previous)
    (now : (memory[currentRoot]?).bind (·.node) = some current) :
    (∀ (before : Option ViewHierarchyResult) (now : ViewHierarchyResult),
      before.bind (·.node) = none ∨ now.node = none →
        annotateHierarchyDiff text before now = (now, ⟨false, {}⟩)) ∧
    ∃ after copy counts annotated,
      annotateHierarchyDiffIn text memory (some previousRoot) currentRoot =
        some (after, copy, ⟨true, counts⟩) ∧
      (∀ known < memory.length, after[known]? = memory[known]?) ∧
      (after[copy]?).bind (·.node) = some annotated ∧
      DiffLaws text previous current annotated counts := by
  constructor
  · intro before now missing
    unfold annotateHierarchyDiff
    split
    · simp_all
    · rfl
  obtain ⟨capture, held, root⟩ := Option.bind_eq_some_iff.mp now
  obtain ⟨baseline, known, start⟩ := Option.bind_eq_some_iff.mp before
  have annotated : annotateHierarchyDiff text (some baseline) capture =
      ({ capture with node := some (walkedTree text previous current) },
        ⟨true, (walk text previous current).2⟩) := by
    rw [annotateHierarchyDiff, Option.bind_some, start, root]
    rfl
  refine ⟨memory ++ [{ capture with node := some (walkedTree text previous current) }],
    memory.length, (walk text previous current).2, walkedTree text previous current, ?_, ?_, ?_, ?_⟩
  · simp only [annotateHierarchyDiffIn, held, known, Option.bind_eq_bind, Option.bind_some, annotated,
      RootedMemory.modifyRoot_clone, Option.map_some]
    rfl
  · exact fun known inside => getElem?_append_left inside
  · rw [getElem?_concat_length]
    rfl
  · exact diffLaws_walk text previous current

section Inputs

/-- A capture of a root with the nodes below it. -/
def capture (nodes : List Node) : ViewHierarchyResult where
  node := some (.several ⟨.fields [], .undefined, []⟩ nodes)
  others := []

def bare : Node := .leaf ⟨.absent, .undefined, []⟩

def attributed : Node := .leaf ⟨.fields [], .undefined, []⟩

def titled : Node := .leaf ⟨.fields [("text", .text "Ok")], .undefined, []⟩

/-- The first child changes, and the second is removed. -/
theorem annotateHierarchyDiff_laws_bare : ∃ after copy counts annotated,
      annotateHierarchyDiffIn (fun _ => "Ok") [capture [bare, titled], capture [titled]] (some 0) 1 =
        some (after, copy, ⟨true, counts⟩) ∧
      (∀ known < 2, after[known]? = [capture [bare, titled], capture [titled]][known]?) ∧
      (after[copy]?).bind (·.node) = some annotated ∧
      DiffLaws (fun _ => "Ok") (.several ⟨.fields [], .undefined, []⟩ [bare, titled])
        (.several ⟨.fields [], .undefined, []⟩ [titled]) annotated counts :=
  (annotateHierarchyDiff_laws _ [capture [bare, titled], capture [titled]] 0 1 _ _ rfl rfl).2

/-- A node without attributes gets them with its mark: what the frame was before cannot be told from
the annotated one. -/
theorem marks_cannot_be_erased : ¬ ∃ erased : ViewHierarchyResult → ViewHierarchyResult,
      ∀ (text : Value → String) (previous current : ViewHierarchyResult),
        erased (annotateHierarchyDiff text (some previous) current).1 = current := by
  rintro ⟨erased, gives⟩
  have first := gives (fun _ => "") (capture []) (capture [bare])
  have second := gives (fun _ => "") (capture []) (capture [attributed])
  have same : (annotateHierarchyDiff (fun _ => "") (some (capture [])) (capture [bare])).1 =
      (annotateHierarchyDiff (fun _ => "") (some (capture [])) (capture [attributed])).1 := rfl
  rw [same, second] at first
  cases first

end Inputs

end AutoMobile.HierarchyDiff
