import Mathlib.Data.List.Basic

/- Runs of a deterministic machine that answers every event with a list of
outputs. An invariant relates the state to everything put out so far. -/
namespace Runs

variable {σ ε ο : Type}

/-- Feed a list of events to a machine and collect its outputs in order. -/
def run (step : σ → ε → σ × List ο) : σ → List ε → σ × List ο
  | state, [] => (state, [])
  | state, event :: events =>
    let first := step state event
    let rest := run step first.1 events
    (rest.1, first.2 ++ rest.2)

/-- Every event of the run meets `ok` in the state it finds. -/
def Meets (step : σ → ε → σ × List ο) (ok : σ → ε → Prop) : σ → List ε → Prop
  | _, [] => True
  | state, event :: events => ok state event ∧ Meets step ok (step state event).1 events

instance Meets.decidable (step : σ → ε → σ × List ο) (ok : σ → ε → Prop)
    [∀ state event, Decidable (ok state event)] :
    ∀ state events, Decidable (Meets step ok state events)
  | _, [] => isTrue trivial
  | state, event :: events =>
    have := Meets.decidable step ok (step state event).1 events
    inferInstanceAs (Decidable (ok state event ∧ Meets step ok (step state event).1 events))

variable (step : σ → ε → σ × List ο)

@[simp] theorem run_nil (state : σ) : run step state [] = (state, []) := rfl

theorem run_cons (state : σ) (event : ε) (events : List ε) : run step state (event :: events) =
      ((run step (step state event).1 events).1,
        (step state event).2 ++ (run step (step state event).1 events).2) := rfl

theorem run_append (state : σ) (first second : List ε) : run step state (first ++ second) =
      ((run step (run step state first).1 second).1,
        (run step state first).2 ++ (run step (run step state first).1 second).2) := by
  induction first generalizing state with
  | nil => simp
  | cons event events ih => simp only [List.cons_append, run_cons, ih, List.append_assoc]

variable {ok : σ → ε → Prop} {events : List ε} {state : σ}

theorem Meets.of_forall (all : ∀ event ∈ events, ∀ state, ok state event) (state : σ) :
    Meets step ok state events := by
  induction events generalizing state with
  | nil => trivial
  | cons event events ih =>
    exact ⟨all event (by simp) state, ih (fun later member => all later (by simp [member])) _⟩

theorem Meets.and {also : σ → ε → Prop} (first : Meets step ok state events)
    (second : Meets step also state events) :
    Meets step (fun s e => ok s e ∧ also s e) state events := by
  induction events generalizing state with
  | nil => trivial
  | cons event events ih => exact ⟨⟨first.1, second.1⟩, ih first.2 second.2⟩

theorem Meets.append_left {first second : List ε} (meets : Meets step ok state (first ++ second)) :
    Meets step ok state first := by
  induction first generalizing state with
  | nil => trivial
  | cons event events ih => exact ⟨meets.1, ih meets.2⟩

theorem Meets.append_right {first second : List ε} (meets : Meets step ok state (first ++ second)) :
    Meets step ok (run step state first).1 second := by
  induction first generalizing state with
  | nil => exact meets
  | cons event events ih => exact ih meets.2

/-- The rule of runs: what every allowed step preserves, every allowed run preserves. -/
theorem Meets.invariant (inv : σ → List ο → Prop)
    (preserved : ∀ state event past, inv state past → ok state event →
      inv (step state event).1 (past ++ (step state event).2)) (past : List ο)
    (holds : inv state past) (meets : Meets step ok state events) :
    inv (run step state events).1 (past ++ (run step state events).2) := by
  induction events generalizing state past with
  | nil => simpa using holds
  | cons event events ih =>
    rw [run_cons, ← List.append_assoc]
    exact ih _ (preserved state event past holds meets.1) meets.2

/-- The rule for an invariant of the state alone. -/
theorem Meets.state_invariant (inv : σ → Prop)
    (preserved : ∀ state event, inv state → ok state event → inv (step state event).1)
    (holds : inv state) (meets : Meets step ok state events) :
    inv (run step state events).1 :=
  Meets.invariant step (fun s _ => inv s)
    (fun s e _ h allowed => preserved s e h allowed) [] holds meets

/-- What every step preserves, every run preserves. -/
theorem invariant_of_step (inv : σ → List ο → Prop)
    (preserved : ∀ state event past, inv state past →
      inv (step state event).1 (past ++ (step state event).2)) (past : List ο)
    (holds : inv state past) (events : List ε) :
    inv (run step state events).1 (past ++ (run step state events).2) := by
  induction events generalizing state past with
  | nil => simpa using holds
  | cons event events ih =>
    rw [run_cons, ← List.append_assoc]
    exact ih _ (preserved state event past holds)

theorem state_invariant_of_step (inv : σ → Prop)
    (preserved : ∀ state event, inv state → inv (step state event).1) (holds : inv state)
    (events : List ε) : inv (run step state events).1 :=
  invariant_of_step step (fun state _ => inv state) (fun state event _ => preserved state event)
    [] holds events

/-- Machines that answer alike and stay related at each step answer alike over every run. -/
theorem run_simulates {τ : Type} {other : τ → ε → τ × List ο} (related : σ → τ → Prop)
    (simulates : ∀ state abstract event, related state abstract →
      (step state event).2 = (other abstract event).2 ∧
        related (step state event).1 (other abstract event).1) (events : List ε) {abstract : τ}
    (holds : related state abstract) :
    (run step state events).2 = (run other abstract events).2 ∧
      related (run step state events).1 (run other abstract events).1 := by
  induction events generalizing state abstract with
  | nil => exact ⟨rfl, holds⟩
  | cons event events ih =>
    obtain ⟨answers, after⟩ := simulates state abstract event holds
    obtain ⟨later, kept⟩ := ih after
    rw [run_cons, run_cons, answers, later]
    exact ⟨rfl, kept⟩

end Runs
