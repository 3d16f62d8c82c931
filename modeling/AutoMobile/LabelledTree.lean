import Mathlib
import AutoMobile.InsertionMap

/- Documents of nested arrays and objects, the places in them that a path of tokens names, and
what a replacement at one path leaves of every other. The members of an object are listed in the
order of their names, so that equal documents are equal values. -/
namespace LabelledTree

open List hiding keys
open InsertionMap

variable {σ ν : Type}

section Members

/-- The member gets its place in the order of the names. -/
def putMember : InsertionMap String ν → String → ν → InsertionMap String ν
  | [], key, value => [(key, value)]
  | entry :: rest, key, value =>
    if entry.1 = key then (key, value) :: rest
    else if key < entry.1 then (key, value) :: entry :: rest
    else entry :: putMember rest key value

/-- The names come in order, each of them once. -/
def Ordered (members : InsertionMap String ν) : Prop := (keys members).Pairwise (· < ·)

theorem get?_putMember (members : InsertionMap String ν) (key other : String) (value : ν) :
    get? (putMember members key value) other =
      if key = other then some value else get? members other := by
  induction members with
  | nil => rfl
  | cons entry rest ih =>
    unfold putMember
    split
    · rename_i here
      by_cases same : key = other
      · simp [get?, same]
      · have apart : ¬ entry.1 = other := fun equal => same (here.symm.trans equal)
        simp [get?, same, apart]
    · rename_i here
      split
      · rfl
      · by_cases first : entry.1 = other
        · have apart : ¬ key = other := fun equal => here (first.trans equal.symm)
          simp [get?, first, apart]
        · simp [get?, first, ih]

variable {members : InsertionMap String ν}

theorem mem_keys_putMember {key name : String} {value : ν}
    (member : name ∈ keys (putMember members key value)) : name = key ∨ name ∈ keys members := by
  rw [mem_keys_iff] at member
  obtain ⟨held, found⟩ := member
  rw [get?_putMember] at found
  split at found
  · rename_i same
    exact Or.inl same.symm
  · exact Or.inr ((mem_keys_iff _ _).mpr ⟨held, found⟩)

theorem ordered_putMember (ordered : Ordered members) (key : String) (value : ν) :
    Ordered (putMember members key value) := by
  induction members with
  | nil => exact pairwise_singleton _ _
  | cons entry rest ih =>
    unfold Ordered keys at ordered
    rw [map_cons, pairwise_cons] at ordered
    obtain ⟨first, tail⟩ := ordered
    unfold putMember
    split
    · rename_i here
      subst here
      exact pairwise_cons.mpr ⟨first, tail⟩
    · rename_i here
      split
      · rename_i before
        refine pairwise_cons.mpr ⟨fun name member => ?_, pairwise_cons.mpr ⟨first, tail⟩⟩
        rcases mem_cons.mp member with rfl | later
        · exact before
        · exact before.trans (first name later)
      · rename_i after
        have next : entry.1 < key := lt_of_le_of_ne (not_lt.mp after) here
        refine pairwise_cons.mpr ⟨fun name member => ?_, ih tail⟩
        rcases mem_keys_putMember member with rfl | old
        · exact next
        · exact first name old

theorem ordered_erase (ordered : Ordered members) (key : String) : Ordered (erase members key) :=
  ordered.sublist ((filter_sublist).map Prod.fst)

/-- Ordered members are determined by what they hold under each name. -/
theorem ordered_ext {first second : InsertionMap String ν} (one : Ordered first)
    (two : Ordered second) (same : ∀ key, get? first key = get? second key) : first = second := by
  have nodup {members : InsertionMap String ν} (ordered : Ordered members) :
      (keys members).Nodup := ordered.imp ne_of_lt
  have mem (entry : String × ν) : entry ∈ first ↔ entry ∈ second := by
    constructor
    · intro member
      exact mem_of_get? ((same entry.1).symm.trans (get?_of_mem (nodup one) member))
    · intro member
      exact mem_of_get? ((same entry.1).trans (get?_of_mem (nodup two) member))
  have perm : first.Perm second :=
    (perm_ext_iff_of_nodup (nodup one).of_map (nodup two).of_map).mpr mem
  have early : first.Pairwise fun before after => before.1 < after.1 := pairwise_map.mp one
  have late : second.Pairwise fun before after => before.1 < after.1 := pairwise_map.mp two
  exact perm.eq_of_pairwise
    (fun one two _ _ before after => absurd (before.trans after) (lt_irrefl _)) early late

end Members

/-- A document with labels of one type at its leaves. -/
inductive Document (σ : Type) where
  | scalar (value : σ)
  | array (items : List (Document σ))
  | object (members : List (String × Document σ))

namespace Document

/-- The objects of the document, at every depth, list their members in order. -/
inductive Canonical : Document σ → Prop where
  | scalar (value : σ) : Canonical (.scalar value)
  | array {items : List (Document σ)} (canonical : ∀ item ∈ items, Canonical item) :
      Canonical (.array items)
  | object {members : List (String × Document σ)} (ordered : Ordered members)
      (canonical : ∀ entry ∈ members, Canonical entry.2) : Canonical (.object members)

/-- The index that the token spells, without leading zeros. -/
def arrayIndex (token : String) (length : Nat) : Option Nat :=
  (List.range length).find? fun index => Nat.repr index == token

variable {index : Nat} {token : String} {tree next : Document σ} {path : List String}

theorem arrayIndex_repr {length : Nat} (inside : index < length) :
    arrayIndex (Nat.repr index) length = some index := by
  cases found : arrayIndex (Nat.repr index) length with
  | none =>
    have never := find?_eq_none.mp found index (mem_range.mpr inside)
    simp at never
  | some other =>
    have spelled := find?_some found
    rw [beq_iff_eq] at spelled
    rw [Nat.repr_injective spelled]

theorem arrayIndex_some {length : Nat} (found : arrayIndex token length = some index) :
    index < length ∧ token = Nat.repr index := by
  have spelled := find?_some found
  rw [beq_iff_eq] at spelled
  exact ⟨mem_range.mp (mem_of_find?_eq_some found), spelled.symm⟩

/-- The item or member that the token names. -/
def child : Document σ → String → Option (Document σ)
  | .scalar _, _ => none
  | .array items, token => (arrayIndex token items.length).bind fun index => items[index]?
  | .object members, token => get? members token

def resolve : Document σ → List String → Option (Document σ)
  | tree, [] => some tree
  | tree, token :: rest => (child tree token).bind fun next => resolve next rest

/-- What a document is at its root. -/
inductive Shape (σ : Type) where
  | scalar (value : σ)
  | array (length : Nat)
  | object

def shape : Document σ → Shape σ
  | .scalar value => .scalar value
  | .array items => .array items.length
  | .object _ => .object

/-- What stands at the path. -/
def view (tree : Document σ) (path : List String) : Option (Shape σ) :=
  (resolve tree path).map shape

theorem view_nil (tree : Document σ) : view tree [] = some tree.shape := rfl

theorem view_cons (tree : Document σ) (token : String) (path : List String) :
    view tree (token :: path) = (child tree token).bind fun next => view next path := by
  rw [view, resolve, Option.map_bind]
  rfl

theorem child_array {items : List (Document σ)} (inside : index < items.length) :
    child (.array items) (Nat.repr index) = some items[index] := by
  simp [child, arrayIndex_repr inside, inside]

theorem canonical_child (canonical : tree.Canonical) (found : child tree token = some next) :
    next.Canonical := by
  cases canonical with
  | scalar value => cases found
  | array canonical =>
    rw [child, Option.bind_eq_some_iff] at found
    obtain ⟨index, -, held⟩ := found
    exact canonical _ (mem_of_getElem? held)
  | object ordered canonical => exact canonical _ (mem_of_get? found)

theorem canonical_resolve (canonical : tree.Canonical) (found : resolve tree path = some next) :
    next.Canonical := by
  induction path generalizing tree with
  | nil => exact Option.some.inj found ▸ canonical
  | cons token rest ih =>
    rw [resolve, Option.bind_eq_some_iff] at found
    obtain ⟨inner, first, later⟩ := found
    exact ih (canonical_child canonical first) later

/-- Documents that agree at every path are the same. -/
theorem view_ext {first second : Document σ} (one : first.Canonical) (two : second.Canonical)
    (same : ∀ path, view first path = view second path) : first = second := by
  induction one generalizing second with
  | scalar value =>
    have root := same []
    rw [view_nil, view_nil, Option.some.injEq] at root
    cases second <;> simp_all [shape]
  | @array items _ ih =>
    have root := same []
    rw [view_nil, view_nil, Option.some.injEq] at root
    cases two with
    | scalar => cases root
    | object => cases root
    | @array others canonical =>
      have length : items.length = others.length := by simpa [shape] using root
      congr 1
      refine ext_getElem length fun index inside there => ?_
      refine ih _ (getElem_mem inside) (canonical _ (getElem_mem there)) fun path => ?_
      have below := same (Nat.repr index :: path)
      rw [view_cons, view_cons, child_array inside, child_array there] at below
      exact below
  | @object members ordered _ ih =>
    have root := same []
    rw [view_nil, view_nil, Option.some.injEq] at root
    cases two with
    | scalar => cases root
    | array => cases root
    | @object others ordered' canonical =>
      congr 1
      refine ordered_ext ordered ordered' fun key => ?_
      have below (path : List String) := same (key :: path)
      simp only [view_cons, child] at below
      cases here : get? members key with
      | none =>
        cases there : get? others key with
        | none => rfl
        | some value =>
          have absurdity := below []
          rw [here, there] at absurdity
          cases absurdity
      | some value =>
        cases there : get? others key with
        | none =>
          have absurdity := below []
          rw [here, there] at absurdity
          cases absurdity
        | some other =>
          congr 1
          refine ih _ (mem_of_get? here) (canonical _ (mem_of_get? there)) fun path => ?_
          have inner := below path
          rw [here, there] at inner
          exact inner

/-- The document with another item or member under the token, where it has one. -/
def replaceChild (tree : Document σ) (token : String) (next : Document σ) : Document σ :=
  match tree with
  | .scalar value => .scalar value
  | .array items =>
    match arrayIndex token items.length with
    | some index => .array (items.set index next)
    | none => .array items
  | .object members => .object (putMember members token next)

/-- Edit the array or object that holds the last token of the path. -/
def editAt (edit : Document σ → String → Option (Document σ)) : List String → Document σ → Option (Document σ)
  | [], _ => none
  | [key], tree => edit tree key
  | token :: next :: rest, tree => (child tree token).bind fun inner =>
    (editAt edit (next :: rest) inner).map (replaceChild tree token)

/-- The second document is the first one with the value under the token. -/
structure Puts (value tree : Document σ) (token : String) (result : Document σ) : Prop where
  shape : result.shape = tree.shape
  child : result.child token = some value
  rest : ∀ other, other ≠ token → result.child other = tree.child other

theorem puts_replaceChild (value : Document σ) (found : child tree token = some next) :
    Puts value tree token (replaceChild tree token value) := by
  cases tree with
  | scalar => cases found
  | object members =>
    refine ⟨rfl, ?_, fun other apart => ?_⟩
    · simp [replaceChild, child, get?_putMember]
    · simp [replaceChild, child, get?_putMember, apart.symm]
  | array items =>
    rw [child, Option.bind_eq_some_iff] at found
    obtain ⟨index, spelled, -⟩ := found
    obtain ⟨inside, rfl⟩ := arrayIndex_some spelled
    have result : replaceChild (.array items) (Nat.repr index) value =
        .array (items.set index value) := by
      simp [replaceChild, spelled]
    rw [result]
    refine ⟨by simp [Document.shape], ?_, fun other apart => ?_⟩
    · have there : index < (items.set index value).length := by simpa using inside
      rw [child_array there, getElem_set_self]
    · dsimp only [child]
      rw [length_set]
      cases place : arrayIndex other items.length with
      | none => rfl
      | some position =>
        obtain ⟨-, rfl⟩ := arrayIndex_some place
        have distinct : index ≠ position := fun same => apart (congrArg Nat.repr same.symm)
        exact getElem?_set_ne distinct

variable {edit : Document σ → String → Option (Document σ)}

/-- An edit that puts a value at the path shows there and nowhere else. -/
theorem view_editAt {value : Document σ}
    (puts : ∀ {tree key result}, edit tree key = some result → Puts value tree key result)
    {result : Document σ} (edited : editAt edit path tree = some result) (place : List String) :
    view result place =
      if path <+: place then view value (place.drop path.length) else view tree place := by
  induction path generalizing tree result place with
  | nil => cases edited
  | cons token rest ih =>
    have below {inner : Document σ} (put : Puts inner tree token result)
        (shows : ∀ lower, view inner lower = if rest <+: lower then
          view value (lower.drop rest.length)
          else ((child tree token).bind fun old => view old lower)) :
        view result place = if token :: rest <+: place then
          view value (place.drop (token :: rest).length) else view tree place := by
      cases place with
      | nil => simp [view_nil, put.shape]
      | cons head lower =>
        rw [view_cons, view_cons]
        by_cases here : head = token
        · subst here
          rw [put.child, Option.bind_some, shows lower]
          simp only [cons_prefix_cons, true_and, length_cons, drop_succ_cons]
        · have apart : ¬ token = head := fun same => here same.symm
          rw [put.rest head here]
          simp only [cons_prefix_cons, apart, false_and, if_false]
    cases rest with
    | nil =>
      exact below (puts edited) fun lower => by simp
    | cons next rest =>
      rw [editAt, Option.bind_eq_some_iff] at edited
      obtain ⟨inner, found, edited⟩ := edited
      rw [Option.map_eq_some_iff] at edited
      obtain ⟨after, edited, rfl⟩ := edited
      refine below (puts_replaceChild after found) fun lower => ?_
      rw [ih edited lower, found, Option.bind_some]

theorem canonical_replaceChild (canonical : tree.Canonical) (inner : next.Canonical)
    (token : String) : (replaceChild tree token next).Canonical := by
  cases canonical with
  | scalar value => exact .scalar value
  | array canonical =>
    unfold replaceChild
    dsimp only
    split
    · refine .array fun item member => ?_
      rcases mem_or_eq_of_mem_set member with old | rfl
      · exact canonical item old
      · exact inner
    · exact .array canonical
  | @object members ordered canonical =>
    refine .object (ordered_putMember ordered _ _) fun entry member => ?_
    have found := get?_of_mem ((ordered_putMember ordered token next).imp ne_of_lt) member
    rw [get?_putMember] at found
    split at found
    · exact Option.some.inj found ▸ inner
    · exact canonical _ (mem_of_get? found)

theorem canonical_editAt
    (keeps : ∀ {tree key result}, tree.Canonical → edit tree key = some result → result.Canonical)
    {result : Document σ} (canonical : tree.Canonical)
    (edited : editAt edit path tree = some result) : result.Canonical := by
  induction path generalizing tree result with
  | nil => cases edited
  | cons token rest ih =>
    cases rest with
    | nil => exact keeps canonical edited
    | cons next rest =>
      rw [editAt, Option.bind_eq_some_iff] at edited
      obtain ⟨inner, found, edited⟩ := edited
      rw [Option.map_eq_some_iff] at edited
      obtain ⟨after, edited, rfl⟩ := edited
      exact canonical_replaceChild canonical (ih (canonical_child canonical found) edited) token

section Agreement

/-- The documents agree at every path that none of the given ones leads to. -/
def AgreeOutside (paths : List (List String)) (first second : Document σ) : Prop :=
  ∀ place, (∀ path ∈ paths, ¬ path <+: place) → view first place = view second place

variable {paths : List (List String)} {first second third value : Document σ}

theorem AgreeOutside.refl (paths : List (List String)) (tree : Document σ) :
    AgreeOutside paths tree tree := fun _ _ => rfl

theorem AgreeOutside.symm (agree : AgreeOutside paths first second) :
    AgreeOutside paths second first := fun place outside => (agree place outside).symm

theorem AgreeOutside.trans (one : AgreeOutside paths first second)
    (two : AgreeOutside paths second third) : AgreeOutside paths first third :=
  fun place outside => (one place outside).trans (two place outside)

/-- Documents that agree everywhere are the same. -/
theorem AgreeOutside.eq (agree : AgreeOutside [] first second) (one : first.Canonical)
    (two : second.Canonical) : first = second :=
  view_ext one two fun place => agree place (by simp)

variable (puts : ∀ {tree key result}, edit tree key = some result → Puts value tree key result)
  {path : List String} {result other : Document σ}

include puts

/-- An edit at one of the paths does not show outside them. -/
theorem agreeOutside_editAt (member : path ∈ paths) (edited : editAt edit path first = some result) :
    AgreeOutside paths first result := by
  intro place outside
  rw [view_editAt puts edited place, if_neg (outside path member)]

/-- After the same edit two documents agree below its path as well. -/
theorem AgreeOutside.editAt {edit' : Document σ → String → Option (Document σ)}
    (puts' : ∀ {tree key result}, edit' tree key = some result → Puts value tree key result)
    (agree : AgreeOutside paths first second) (one : editAt edit path first = some result)
    (two : editAt edit' path second = some other) :
    AgreeOutside (paths.filter fun known => !path.isPrefixOf known) result other := by
  intro place outside
  rw [view_editAt puts one place, view_editAt puts' two place]
  split
  · rfl
  · rename_i apart
    refine agree place fun known member leads => ?_
    by_cases below : path <+: known
    · exact apart (below.trans leads)
    · have kept : (!path.isPrefixOf known) = true := by
        rw [Bool.not_eq_true', Bool.eq_false_iff, ne_eq, isPrefixOf_iff_prefix]
        exact below
      exact outside known (mem_filter.mpr ⟨member, kept⟩) leads

end Agreement

end Document

end LabelledTree
