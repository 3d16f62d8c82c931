import Mathlib.Algebra.BigOperators.Group.List.Basic
import Mathlib.Tactic.Ring
import Mathlib.Tactic.Linarith

/- Reservations on one timeline, in the order they were made: what those that start within a window
weigh, when a weight takes its length at some rate. -/
namespace ReservedSlots

open List

variable {α : Type} (start length weight : α → Nat)

/-- Each reservation starts where those before it have ended. -/
def Separated (entries : List α) : Prop :=
  entries.Pairwise fun first second => start first + length first ≤ start second

/-- Reservations that start within a window weigh what the rate carries over the window, and one
reservation more. -/
theorem Separated.sum_le {entries : List α} (separated : Separated start length entries)
    {rate unit low high largest : Nat}
    (paced : ∀ entry ∈ entries, weight entry * unit ≤ rate * length entry)
    (within : ∀ entry ∈ entries, low ≤ start entry ∧ start entry ≤ high)
    (bounded : ∀ entry ∈ entries, weight entry ≤ largest) :
    (entries.map weight).sum * unit ≤ rate * (high - low) + largest * unit := by
  induction entries generalizing low with
  | nil => simp
  | cons entry rest ih =>
    obtain ⟨after, tail⟩ := pairwise_cons.mp separated
    have pace := paced entry mem_cons_self
    obtain ⟨lower, _⟩ := within entry mem_cons_self
    have small := Nat.mul_le_mul_right unit (bounded entry mem_cons_self)
    cases rest with
    | nil =>
      simp only [map_cons, map_nil, sum_cons, sum_nil, Nat.add_zero]
      omega
    | cons next others =>
      have bound := @ih tail (start entry + length entry)
        (fun other member => paced other (mem_cons_of_mem _ member))
        (fun other member => ⟨after other member, (within other (mem_cons_of_mem _ member)).2⟩)
        (fun other member => bounded other (mem_cons_of_mem _ member))
      have inside := (within next (mem_cons_of_mem _ mem_cons_self)).2
      have later := after next mem_cons_self
      have span : length entry + (high - (start entry + length entry)) ≤ high - low := by omega
      have whole := Nat.mul_le_mul_left rate span
      rw [Nat.mul_add] at whole
      rw [map_cons, sum_cons, Nat.add_mul]
      omega

end ReservedSlots
