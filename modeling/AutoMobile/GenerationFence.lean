import AutoMobile.Runs

/- Compare-and-set on a generation and a value. A cell whose every change raises its generation
never shows a pair again that it has left. -/
namespace GenerationFence

variable {σ ε ο δ : Type}

@[ext]
structure Stamp (δ : Type) where
  generation : Nat
  value : δ
deriving DecidableEq, Repr

/-- Nothing happened to the cell, or its generation rose. -/
def Follows (before after : Stamp δ) : Prop := after = before ∨ before.generation < after.generation

theorem Follows.refl (stamp : Stamp δ) : Follows stamp stamp := .inl rfl

theorem Follows.le {before after : Stamp δ} (follows : Follows before after) :
    before.generation ≤ after.generation := by
  obtain rfl | raised := follows
  · exact Nat.le_refl _
  · exact Nat.le_of_lt raised

theorem Follows.trans {first second third : Stamp δ} (left : Follows first second)
    (right : Follows second third) : Follows first third := by
  obtain rfl | raised := left
  · exact right
  · exact .inr (Nat.lt_of_lt_of_le raised right.le)

/-- What the cell has left it does not come back to. -/
theorem Follows.never_recurs {first second third : Stamp δ} (left : Follows first second)
    (away : second ≠ first) (right : Follows second third) : third ≠ first := by
  intro back
  obtain same | raised := left
  · exact away same
  · apply Nat.lt_irrefl third.generation
    calc third.generation = first.generation := by rw [back]
      _ < second.generation := raised
      _ ≤ third.generation := right.le

/-- The stamp at both ends is that of every moment between. -/
theorem Follows.constant {first second third : Stamp δ} (left : Follows first second)
    (right : Follows second third) (same : third = first) : second = first := by
  obtain here | raised := left
  · exact here
  · apply absurd same
    exact Follows.never_recurs (.inr raised) (fun back => by simp [back] at raised) right

section Cells

open Runs

variable (step : σ → ε → σ × List ο) (cell : σ → Option (Stamp δ))

/-- The cell is there at every moment of the run. -/
def Present : σ → List ε → Prop
  | state, [] => (cell state).isSome
  | state, event :: events => (cell state).isSome ∧ Present (step state event).1 events

variable {step cell} {good : σ → Prop}

theorem Present.first {state : σ} {events : List ε} (present : Present step cell state events) :
    ∃ stamp, cell state = some stamp := by
  cases events with
  | nil => exact Option.isSome_iff_exists.1 present
  | cons event events => exact Option.isSome_iff_exists.1 present.1

theorem Present.split {state : σ} {first second : List ε}
    (present : Present step cell state (first ++ second)) :
    Present step cell state first ∧ Present step cell (run step state first).1 second := by
  induction first generalizing state with
  | nil =>
    obtain ⟨stamp, found⟩ := present.first
    exact ⟨Option.isSome_iff_exists.2 ⟨stamp, found⟩, present⟩
  | cons event events ih =>
    obtain ⟨here, later⟩ := present
    obtain ⟨before, after⟩ := ih later
    exact ⟨⟨here, before⟩, after⟩

/-- The rule of cells: if every step from a good state lets the stamp follow, so does every run
through which the cell is there. -/
theorem Present.follows
    (kept : ∀ state event before after, good state → cell state = some before →
      cell (step state event).1 = some after → Follows before after)
    (stays : ∀ state event, good state → good (step state event).1)
    {state : σ} {events : List ε} (present : Present step cell state events) (start : good state)
    {before after : Stamp δ} (found : cell state = some before)
    (reached : cell (run step state events).1 = some after) : Follows before after := by
  induction events generalizing state before with
  | nil =>
    rw [run_nil, found, Option.some.injEq] at reached
    exact .inl reached.symm
  | cons event events ih =>
    obtain ⟨middle, next⟩ := present.2.first
    have first := kept state event before middle start found next
    exact first.trans (ih present.2 (stays state event start) next reached)

end Cells

end GenerationFence
