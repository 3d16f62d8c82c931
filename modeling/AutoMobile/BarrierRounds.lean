import Mathlib.Algebra.BigOperators.Group.Multiset.Basic

/- Programs that meet at barriers. A program is the list of locks it arrives at; a
lock lets `count lock` programs pass together. Schedules are given twice, by single
arrivals that block and by whole rounds, and the two finish the same programs.
Programs that share no lock do not affect each other. -/
namespace BarrierRounds

open List
open Relation (ReflTransGen)

variable {Λ : Type} (count : Λ → ℕ)

/-- A round lets one group of programs pass the lock that each of them is at. -/
inductive Round : Multiset (List Λ) → Multiset (List Λ) → Prop
  | pass (lock : Λ) (others group : Multiset (List Λ))
      (enough : group.card = max 1 (count lock)) :
      Round (others + group.map (lock :: ·)) (others + group)

/-- Some sequence of rounds brings every program to its end. -/
def Completable (programs : Multiset (List Λ)) : Prop :=
  ∃ final, ReflTransGen (Round count) programs final ∧ ∀ program ∈ final, program = []

/-- No lock occurs on both sides. -/
def Disjoint (left right : Multiset (List Λ)) : Prop :=
  ∀ one ∈ left, ∀ other ∈ right, ∀ lock ∈ one, lock ∉ other

variable {count}

variable {before after left right : Multiset (List Λ)}

theorem Round.add_right (round : Round count before after) (others : Multiset (List Λ)) :
    Round count (before + others) (after + others) := by
  obtain ⟨lock, rest, group, enough⟩ := round
  have same : Round count _ _ := Round.pass lock (rest + others) group enough
  rwa [add_right_comm, add_right_comm rest others group] at same

theorem Round.add_left (round : Round count before after) (others : Multiset (List Λ)) :
    Round count (others + before) (others + after) := by
  rw [add_comm others, add_comm others]
  exact round.add_right others

theorem rounds_add {leftEnd rightEnd : Multiset (List Λ)}
    (first : ReflTransGen (Round count) left leftEnd)
    (second : ReflTransGen (Round count) right rightEnd) :
    ReflTransGen (Round count) (left + right) (leftEnd + rightEnd) :=
  (first.lift (· + right) (fun _ _ round => round.add_right right)).trans
    (second.lift (leftEnd + ·) (fun _ _ round => round.add_left leftEnd))

/-- A group at one lock lies on one side. -/
theorem group_le_of_disjoint {group : Multiset (List Λ)} {lock : Λ}
    (within : group.map (lock :: ·) ≤ left + right) (absent : ∀ other ∈ right, lock ∉ other) :
    group.map (lock :: ·) ≤ left := by
  classical
  rw [Multiset.le_iff_count] at within ⊢
  intro program
  by_cases member : program ∈ group.map (lock :: ·)
  · have here : lock ∈ program := by
      obtain ⟨rest, -, rfl⟩ := Multiset.mem_map.mp member
      exact mem_cons_self
    have outside : Multiset.count program right = 0 :=
      Multiset.count_eq_zero.mpr fun inside => absent program inside here
    have counted := within program
    rwa [Multiset.count_add, outside, add_zero] at counted
  · rw [Multiset.count_eq_zero.mpr member]
    exact Nat.zero_le _

/-- What a round leaves has no lock that was not there before. -/
theorem Round.locks (round : Round count before after) :
    ∀ program ∈ after, ∃ earlier ∈ before, ∀ lock ∈ program, lock ∈ earlier := by
  obtain ⟨lock, others, group, -⟩ := round
  intro program member
  rcases Multiset.mem_add.mp member with member | member
  · exact ⟨program, Multiset.mem_add.mpr (Or.inl member), fun _ h => h⟩
  · exact ⟨lock :: program, Multiset.mem_add.mpr (Or.inr (Multiset.mem_map_of_mem _ member)),
      fun _ h => mem_cons_of_mem _ h⟩

theorem Disjoint.symm (apart : Disjoint left right) : Disjoint right left :=
  fun one first other second lock inOne inOther => apart other second one first lock inOther inOne

theorem Disjoint.of_round_left (apart : Disjoint left right) (round : Round count left after) :
    Disjoint after right := by
  intro one first other second lock inOne
  obtain ⟨earlier, before, known⟩ := round.locks one first
  exact apart earlier before other second lock (known lock inOne)

/-- A round of two sides is a round of one of them. -/
theorem Round.split (round : Round count (left + right) after) (apart : Disjoint left right) :
    (∃ next, Round count left next ∧ after = next + right) ∨
      ∃ next, Round count right next ∧ after = left + next := by
  generalize whole : left + right = programs at round
  obtain ⟨lock, others, group, enough⟩ := round
  have within : group.map (lock :: ·) ≤ left + right := by
    rw [whole]
    exact Multiset.le_add_left _ _
  by_cases used : ∃ one ∈ left, lock ∈ one
  · obtain ⟨one, member, inOne⟩ := used
    have inside := group_le_of_disjoint within
      (fun other second inOther => apart one member other second lock inOne inOther)
    obtain ⟨rest, rfl⟩ := Multiset.le_iff_exists_add.mp inside
    refine Or.inl ⟨rest + group, ?_, ?_⟩
    · rw [add_comm (Multiset.map _ _) rest]
      exact Round.pass lock rest group enough
    · have kept : others = rest + right := by
        rw [add_assoc, add_comm] at whole
        exact (add_right_cancel whole).symm
      rw [kept, add_right_comm]
  · rw [add_comm] at within
    have inside := group_le_of_disjoint within (fun one member inOne => used ⟨one, member, inOne⟩)
    obtain ⟨rest, rfl⟩ := Multiset.le_iff_exists_add.mp inside
    refine Or.inr ⟨rest + group, ?_, ?_⟩
    · rw [add_comm (Multiset.map _ _) rest]
      exact Round.pass lock rest group enough
    · have kept : others = left + rest := by
        rw [add_comm (Multiset.map _ _) rest, ← add_assoc] at whole
        exact (add_right_cancel whole).symm
      rw [kept, add_assoc]

/-- Sides that share no lock complete together exactly when each completes alone. -/
theorem completable_add (apart : Disjoint left right) :
    Completable count (left + right) ↔ Completable count left ∧ Completable count right := by
  constructor
  · rintro ⟨final, rounds, done⟩
    generalize whole : left + right = programs at rounds
    induction rounds using ReflTransGen.head_induction_on generalizing left right with
    | refl =>
      subst whole
      exact ⟨⟨left, .refl, fun program member => done program (Multiset.mem_add.mpr (.inl member))⟩,
        ⟨right, .refl, fun program member => done program (Multiset.mem_add.mpr (.inr member))⟩⟩
    | head round _ ih =>
      subst whole
      rcases round.split apart with ⟨next, first, rfl⟩ | ⟨next, first, rfl⟩
      · obtain ⟨⟨finish, more, ended⟩, second⟩ := ih (apart.of_round_left first) rfl
        exact ⟨⟨finish, .head first more, ended⟩, second⟩
      · obtain ⟨second, ⟨finish, more, ended⟩⟩ := ih (apart.symm.of_round_left first).symm rfl
        exact ⟨second, ⟨finish, .head first more, ended⟩⟩
  · rintro ⟨⟨leftEnd, first, leftDone⟩, ⟨rightEnd, second, rightDone⟩⟩
    refine ⟨leftEnd + rightEnd, rounds_add first second, fun program member => ?_⟩
    rcases Multiset.mem_add.mp member with member | member
    · exact leftDone program member
    · exact rightDone program member

section Counts

variable [DecidableEq Λ]

/-- The arrivals at a lock fill its rounds, and no program has more of them than there
are rounds. -/
def FillsRounds (count : Λ → ℕ) (lock : Λ) (rounds : ℕ) (programs : Multiset (List Λ)) : Prop :=
  (programs.map (List.count lock)).sum = max 1 (count lock) * rounds ∧
    ∀ program ∈ programs, program.count lock ≤ rounds

theorem Round.fillsRounds {before after : Multiset (List Λ)} (round : Round count before after)
    {lock : Λ} {rounds : ℕ} (fills : FillsRounds count lock rounds after) :
    ∃ rounds, FillsRounds count lock rounds before := by
  obtain ⟨here, others, group, enough⟩ := round
  obtain ⟨whole, each⟩ := fills
  rw [Multiset.map_add, Multiset.sum_add] at whole
  by_cases same : here = lock
  · subst same
    refine ⟨rounds + 1, ?_, fun program member => ?_⟩
    · have longer : ((group.map (here :: ·)).map (List.count here)).sum =
          (group.map (List.count here)).sum + group.card := by
        rw [Multiset.map_map]
        simp [Multiset.sum_map_add]
      rw [Multiset.map_add, Multiset.sum_add, longer, ← add_assoc, whole, enough, Nat.mul_succ]
    · rcases Multiset.mem_add.mp member with other | inside
      · exact (each program (Multiset.mem_add.mpr (Or.inl other))).trans (Nat.le_succ rounds)
      · obtain ⟨rest, known, rfl⟩ := Multiset.mem_map.mp inside
        rw [count_cons_self]
        exact Nat.succ_le_succ (each rest (Multiset.mem_add.mpr (Or.inr known)))
  · have kept : ∀ rest : List Λ, List.count lock (here :: rest) = List.count lock rest :=
      fun rest => count_cons_of_ne same
    refine ⟨rounds, ?_, fun program member => ?_⟩
    · rw [Multiset.map_add, Multiset.sum_add, Multiset.map_map]
      simpa [Function.comp_def, kept] using whole
    · rcases Multiset.mem_add.mp member with other | inside
      · exact each program (Multiset.mem_add.mpr (Or.inl other))
      · obtain ⟨rest, known, rfl⟩ := Multiset.mem_map.mp inside
        rw [kept]
        exact each rest (Multiset.mem_add.mpr (Or.inr known))

theorem Completable.fillsRounds {programs : Multiset (List Λ)}
    (completable : Completable count programs) (lock : Λ) :
    ∃ rounds, FillsRounds count lock rounds programs := by
  obtain ⟨final, path, done⟩ := completable
  induction path using ReflTransGen.head_induction_on with
  | refl =>
    refine ⟨0, Multiset.sum_eq_zero fun value member => ?_, fun program member => ?_⟩
    · obtain ⟨program, inside, rfl⟩ := Multiset.mem_map.mp member
      rw [done program inside, count_nil]
    · rw [done program member, count_nil]
  | head round _ ih =>
    obtain ⟨rounds, fills⟩ := ih
    exact round.fillsRounds fills

end Counts

@[simp] theorem completable_zero : Completable count (0 : Multiset (List Λ)) :=
  ⟨0, .refl, fun program member => absurd member (Multiset.notMem_zero program)⟩

/-- All programs of all parts. -/
def pooled (parts : List (Multiset (List Λ))) : Multiset (List Λ) := parts.foldr (· + ·) 0

theorem mem_pooled {parts : List (Multiset (List Λ))} {program : List Λ} :
    program ∈ pooled parts ↔ ∃ part ∈ parts, program ∈ part := by
  induction parts with
  | nil => simp [pooled]
  | cons part parts ih =>
    simp only [pooled, foldr_cons] at ih ⊢
    rw [Multiset.mem_add, ih]
    simp

/-- Parts that share no lock complete together exactly when each completes alone. -/
theorem completable_pooled {parts : List (Multiset (List Λ))} (apart : parts.Pairwise Disjoint) :
    Completable count (pooled parts) ↔ ∀ part ∈ parts, Completable count part := by
  induction parts with
  | nil => simp [pooled]
  | cons part parts ih =>
    rw [pairwise_cons] at apart
    have beyond : Disjoint part (pooled parts) := by
      intro one first other second
      obtain ⟨later, member, inside⟩ := mem_pooled.mp second
      exact apart.1 later member one first other inside
    have whole : pooled (part :: parts) = part + pooled parts := rfl
    rw [whole, completable_add beyond, ih apart.2, forall_mem_cons]

end BarrierRounds
