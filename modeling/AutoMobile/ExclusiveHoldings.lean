import Mathlib.Logic.Function.Basic

/- Holders that each hold at most one thing, where what different holders hold is kept apart. -/
namespace ExclusiveHoldings

open Function (update update_self update_of_ne)

variable {π ρ : Type}

/-- Two holders hold things that are apart. -/
def Exclusive (Apart : ρ → ρ → Prop) (holds : π → Option ρ) : Prop :=
  ∀ one other first second, holds one = some first → holds other = some second → one ≠ other →
    Apart first second

variable {Apart : ρ → ρ → Prop} {holds after : π → Option ρ}

/-- Holders may let go of what they hold. -/
theorem Exclusive.fewer (exclusive : Exclusive Apart holds)
    (held : ∀ holder thing, after holder = some thing → holds holder = some thing) :
    Exclusive Apart after :=
  fun one other first second here there apart =>
    exclusive one other first second (held one first here) (held other second there) apart

variable [DecidableEq π]

theorem update_none_holds {source holder : π} {thing : ρ}
    (held : update holds source none holder = some thing) :
    holder ≠ source ∧ holds holder = some thing := by
  by_cases same : holder = source
  · rw [same, update_self] at held
    cases held
  · rw [update_of_ne same] at held
    exact ⟨same, held⟩

theorem update_some_holds {target holder : π} {taken thing : ρ}
    (held : update holds target (some taken) holder = some thing) :
    thing = taken ∨ holds holder = some thing := by
  by_cases same : holder = target
  · rw [same, update_self] at held
    exact Or.inl (Option.some.inj held).symm
  · rw [update_of_ne same] at held
    exact Or.inr held

theorem Exclusive.release (exclusive : Exclusive Apart holds) (source : π) :
    Exclusive Apart (update holds source none) :=
  exclusive.fewer fun _ _ held => (update_none_holds held).2

/-- A holder takes what is apart from all that the others hold. -/
theorem Exclusive.grant (exclusive : Exclusive Apart holds) {target : π} {taken : ρ}
    (free : ∀ holder thing, holder ≠ target → holds holder = some thing →
      Apart taken thing ∧ Apart thing taken) :
    Exclusive Apart (update holds target (some taken)) := by
  intro one other first second here there apart
  by_cases isOne : one = target
  · rw [isOne, update_self] at here
    cases here
    have elsewhere : other ≠ target := fun same => apart (isOne.trans same.symm)
    rw [update_of_ne elsewhere] at there
    exact (free other second elsewhere there).1
  · rw [update_of_ne isOne] at here
    by_cases isOther : other = target
    · rw [isOther, update_self] at there
      cases there
      exact (free one first isOne here).2
    · rw [update_of_ne isOther] at there
      exact exclusive one other first second here there apart

/-- What one holder lets go of another may take. -/
theorem Exclusive.move (exclusive : Exclusive Apart holds) {source : π} {moved : ρ}
    (held : holds source = some moved) (target : π) :
    Exclusive Apart (update (update holds source none) target (some moved)) := by
  apply (exclusive.release source).grant
  intro holder thing _ there
  obtain ⟨apart, there⟩ := update_none_holds there
  exact ⟨exclusive source holder moved thing held there apart.symm,
    exclusive holder source thing moved there held apart⟩

end ExclusiveHoldings
