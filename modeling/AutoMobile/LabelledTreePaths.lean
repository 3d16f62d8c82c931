import AutoMobile.LabelledTree

/- The replacement of what stands at a path of a document, and what every other path resolves to
afterwards. -/
namespace LabelledTree

open InsertionMap List

namespace Document

variable {σ : Type} {tree next result : Document σ} {front place : List String}
  {key token : String} {edit : Document σ → String → Option (Document σ)}

/-- The document with another one at the path. -/
def replaceAt (next : Document σ) : List String → Document σ → Document σ
  | [], _ => next
  | token :: rest, tree =>
    match child tree token with
    | some inner => replaceChild tree token (replaceAt next rest inner)
    | none => tree

theorem replaceAt_cons {inner : Document σ} (found : child tree token = some inner)
    (front : List String) :
    replaceAt next (token :: front) tree = replaceChild tree token (replaceAt next front inner) := by
  rw [replaceAt, found]

theorem resolve_cons {inner : Document σ} (found : child tree token = some inner)
    (place : List String) : resolve tree (token :: place) = resolve inner place := by
  rw [resolve, found, Option.bind_some]

theorem resolve_append (tree : Document σ) (first second : List String) :
    tree.resolve (first ++ second) =
      (tree.resolve first).bind fun inner => inner.resolve second := by
  induction first generalizing tree with
  | nil => rfl
  | cons token rest ih =>
    rw [cons_append, resolve, resolve]
    cases child tree token with
    | none => rfl
    | some inner => exact ih inner

/-- The replacement is what the path resolves to, and what is in it is found below. -/
theorem resolve_replaceAt_inside {old : Document σ} (found : tree.resolve front = some old)
    (place : List String) :
    (replaceAt next front tree).resolve (front ++ place) = next.resolve place := by
  induction front generalizing tree with
  | nil => rfl
  | cons token front ih =>
    rw [resolve, Option.bind_eq_some_iff] at found
    obtain ⟨inner, here, found⟩ := found
    have put := puts_replaceChild (replaceAt next front inner) here
    rw [replaceAt_cons here, cons_append, resolve_cons put.child]
    exact ih found

/-- A path that the replacement is neither below nor above resolves to what it did before. -/
theorem resolve_replaceAt_apart (below : ¬ front <+: place) (above : ¬ place <+: front) :
    (replaceAt next front tree).resolve place = tree.resolve place := by
  induction front generalizing tree place with
  | nil => exact absurd nil_prefix below
  | cons token front ih =>
    cases place with
    | nil => exact absurd nil_prefix above
    | cons head place =>
      cases here : child tree token with
      | none => rw [replaceAt, here]
      | some inner =>
        have put := puts_replaceChild (replaceAt next front inner) here
        rw [replaceAt_cons here]
        by_cases same : head = token
        · subst same
          rw [resolve_cons put.child, resolve_cons here]
          apply ih
          · exact fun leads => below (cons_prefix_cons.mpr ⟨rfl, leads⟩)
          · exact fun leads => above (cons_prefix_cons.mpr ⟨rfl, leads⟩)
        · rw [resolve, put.rest head same, resolve]

theorem editAt_cons (proper : front ≠ []) : editAt edit (token :: front) tree =
      (child tree token).bind fun inner =>
        (editAt edit front inner).map (replaceChild tree token) := by
  cases front with
  | nil => exact absurd rfl proper
  | cons _ _ => rfl

/-- An edit replaces the parent of its last token by the edited parent. -/
theorem editAt_some (edited : editAt edit (front ++ [key]) tree = some result) :
    ∃ parent after, tree.resolve front = some parent ∧ edit parent key = some after ∧
      result = replaceAt after front tree := by
  induction front generalizing tree result with
  | nil => exact ⟨tree, result, rfl, edited, rfl⟩
  | cons token front ih =>
    rw [cons_append, editAt_cons (by simp), Option.bind_eq_some_iff] at edited
    obtain ⟨inner, here, edited⟩ := edited
    rw [Option.map_eq_some_iff] at edited
    obtain ⟨changed, edited, rfl⟩ := edited
    obtain ⟨parent, after, found, done, rfl⟩ := ih edited
    refine ⟨parent, after, ?_, done, ?_⟩
    · rw [resolve_cons here, found]
    · rw [replaceAt_cons here]

/-- Where the edit leaves the other children of the parent alone, every path that is neither below
nor above its own resolves to what it did before. -/
theorem resolve_editAt_apart
    (rest : ∀ {parent after}, tree.resolve front = some parent → edit parent key = some after →
      ∀ other, other ≠ key → after.child other = parent.child other)
    (edited : editAt edit (front ++ [key]) tree = some result)
    (below : ¬ front ++ [key] <+: place) (above : ¬ place <+: front ++ [key]) :
    result.resolve place = tree.resolve place := by
  obtain ⟨parent, after, found, done, rfl⟩ := editAt_some edited
  by_cases inside : front <+: place
  · obtain ⟨lower, rfl⟩ := inside
    rw [resolve_replaceAt_inside found, resolve_append, found, Option.bind_some]
    cases lower with
    | nil =>
      rw [append_nil] at above
      exact absurd (prefix_append front [key]) above
    | cons other lower =>
      have apart : other ≠ key := by
        rintro rfl
        apply below
        rw [prefix_append_right_inj]
        exact cons_prefix_cons.mpr ⟨rfl, nil_prefix⟩
      rw [resolve, rest found done other apart, resolve]
  · apply resolve_replaceAt_apart inside
    exact fun leads => above (leads.trans (prefix_append front [key]))

end Document

end LabelledTree
