import Mathlib.Data.List.Nodup

/- What a reusable rendezvous of `count` parties promises, told by its history
alone: who arrived, which group was let through, who gave up. -/
namespace RendezvousHistory

open List

/-- One arrival: a call made on behalf of a party. -/
structure Waiter (δ : Type) where
  call : Nat
  party : δ
deriving DecidableEq, Repr

inductive Note (δ : Type) where
  | arrived (waiter : Waiter δ)
  | released (members : List (Waiter δ))
  | withdrawn (waiter : Waiter δ)
deriving DecidableEq, Repr

variable {δ : Type}

/-- What one note does to the arrivals that still wait. -/
def Note.apply (waiters : List (Waiter δ)) : Note δ → List (Waiter δ)
  | .arrived waiter => waiters ++ [waiter]
  | .released _ => []
  | .withdrawn waiter => waiters.filter (fun other => other.call ≠ waiter.call)

/-- The arrivals neither released nor withdrawn so far, in arrival order. -/
def waiting (history : List (Note δ)) : List (Waiter δ) := history.foldl Note.apply []

/-- When a note may follow a history. A release takes everyone who waits. -/
def Allowed (count : Nat) (past : List (Note δ)) : Note δ → Prop
  | .arrived waiter =>
    (∀ other, Note.arrived other ∈ past → other.call ≠ waiter.call) ∧
      ∀ other ∈ waiting past, other.party ≠ waiter.party
  | .released members => members = waiting past ∧ members.length = count
  | .withdrawn waiter => waiter ∈ waiting past

inductive Valid (count : Nat) : List (Note δ) → Prop
  | nil : Valid count []
  | snoc {past : List (Note δ)} {note : Note δ} :
      Valid count past → Allowed count past note → Valid count (past ++ [note])

@[simp] theorem waiting_nil : waiting ([] : List (Note δ)) = [] := rfl

@[simp] theorem waiting_snoc (past : List (Note δ)) (note : Note δ) :
    waiting (past ++ [note]) = note.apply (waiting past) := by
  simp [waiting]

/-- The members of the release a note stands for, if it is one. -/
def Note.members : Note δ → List (Waiter δ)
  | .released members => members
  | _ => []

/-- Everyone let through so far, release after release. -/
def releasedWaiters (history : List (Note δ)) : List (Waiter δ) := history.flatMap Note.members

@[simp] theorem releasedWaiters_nil : releasedWaiters ([] : List (Note δ)) = [] := rfl

@[simp] theorem releasedWaiters_snoc (past : List (Note δ)) (note : Note δ) :
    releasedWaiters (past ++ [note]) = releasedWaiters past ++ note.members := by
  simp [releasedWaiters]

variable {history : List (Note δ)} {count : Nat}

/-- A note that waits, was released or was withdrawn did arrive. -/
theorem Valid.arrived_of (valid : Valid count history) :
    (∀ waiter ∈ waiting history, Note.arrived waiter ∈ history) ∧
      (∀ waiter ∈ releasedWaiters history, Note.arrived waiter ∈ history) ∧
      ∀ waiter, Note.withdrawn waiter ∈ history → Note.arrived waiter ∈ history := by
  induction valid with
  | nil => simp
  | @snoc past note _ allowed ih =>
    obtain ⟨waits, released, withdrawn⟩ := ih
    simp only [waiting_snoc, releasedWaiters_snoc, mem_append, mem_singleton]
    cases note with
    | arrived fresh =>
      refine ⟨?_, ?_, ?_⟩
      · intro waiter member
        simp only [Note.apply, mem_append, mem_singleton] at member
        rcases member with member | rfl
        · exact Or.inl (waits waiter member)
        · exact Or.inr rfl
      · intro waiter member
        simp only [Note.members, not_mem_nil, or_false] at member
        exact Or.inl (released waiter member)
      · intro waiter member
        exact Or.inl (withdrawn waiter (member.resolve_right (by simp)))
    | released members =>
      refine ⟨by simp [Note.apply], ?_, ?_⟩
      · intro waiter member
        rcases member with member | member
        · exact Or.inl (released waiter member)
        · exact Or.inl (waits waiter (allowed.1 ▸ member))
      · intro waiter member
        exact Or.inl (withdrawn waiter (member.resolve_right (by simp)))
    | withdrawn gone =>
      refine ⟨?_, ?_, ?_⟩
      · intro waiter member
        exact Or.inl (waits waiter (mem_of_mem_filter member))
      · intro waiter member
        simp only [Note.members, not_mem_nil, or_false] at member
        exact Or.inl (released waiter member)
      · intro waiter member
        rcases member with member | member
        · exact Or.inl (withdrawn waiter member)
        · cases member
          exact Or.inl (waits _ allowed)

/-- Calls arrive once, and at any moment the waiting arrivals are of distinct parties. -/
theorem Valid.waiting_nodup (valid : Valid count history) :
    ((waiting history).map (·.party)).Nodup ∧ ((waiting history).map (·.call)).Nodup := by
  induction valid with
  | nil => simp
  | @snoc past note before allowed ih =>
    rw [waiting_snoc]
    cases note with
    | arrived fresh =>
      obtain ⟨unused, apart⟩ := allowed
      simp only [Note.apply, map_append, map_cons, map_nil, nodup_append,
        nodup_singleton, true_and, mem_singleton, mem_map]
      refine ⟨⟨ih.1, ?_⟩, ih.2, ?_⟩
      · rintro _ ⟨other, member, rfl⟩ _ rfl
        exact apart other member
      · rintro _ ⟨other, member, rfl⟩ _ rfl
        exact unused other (before.arrived_of.1 other member)
    | released members => simp [Note.apply]
    | withdrawn gone =>
      exact ⟨ih.1.sublist (filter_sublist.map _), ih.2.sublist (filter_sublist.map _)⟩

/-- Two arrivals of one call are the same arrival. -/
theorem Valid.arrived_unique (valid : Valid count history) {first second : Waiter δ}
    (one : Note.arrived first ∈ history) (two : Note.arrived second ∈ history)
    (same : first.call = second.call) : first = second := by
  induction valid with
  | nil => simp at one
  | @snoc past note before allowed ih =>
    simp only [mem_append, mem_singleton] at one two
    rcases one with one | rfl <;> rcases two with two | two
    · exact ih one two
    · subst two
      exact absurd same (allowed.1 first one)
    · exact absurd same.symm (allowed.1 second two)
    · cases two
      rfl

/-- Waiting, released and withdrawn exclude one another. -/
theorem Valid.settled_apart (valid : Valid count history) : (∀ waiter ∈ waiting history,
        waiter ∉ releasedWaiters history ∧ Note.withdrawn waiter ∉ history) ∧
      ∀ waiter ∈ releasedWaiters history, Note.withdrawn waiter ∉ history := by
  induction valid with
  | nil => simp
  | @snoc past note before allowed ih =>
    obtain ⟨arrivedWaits, arrivedReleased, arrivedWithdrawn⟩ := before.arrived_of
    obtain ⟨waits, released⟩ := ih
    simp only [waiting_snoc, releasedWaiters_snoc, mem_append, mem_singleton]
    cases note with
    | arrived fresh =>
      have unused : Note.arrived fresh ∉ past := fun member => allowed.1 fresh member rfl
      simp only [Note.apply, Note.members, mem_append, mem_singleton,
        not_mem_nil, or_false, reduceCtorEq]
      refine ⟨?_, released⟩
      rintro waiter (member | rfl)
      · exact waits waiter member
      · exact ⟨fun member => unused (arrivedReleased _ member),
          fun member => unused (arrivedWithdrawn _ member)⟩
    | released members =>
      obtain ⟨rfl, -⟩ := allowed
      simp only [Note.apply, Note.members, not_mem_nil, false_implies, implies_true,
        true_and, reduceCtorEq, or_false]
      rintro waiter (member | member)
      · exact released waiter member
      · exact (waits waiter member).2
    | withdrawn gone =>
      simp only [Note.apply, Note.members, mem_filter, not_mem_nil, or_false,
        decide_eq_true_eq, Note.withdrawn.injEq]
      refine ⟨?_, ?_⟩
      · rintro waiter ⟨member, apart⟩
        refine ⟨(waits waiter member).1, ?_⟩
        rintro (before | rfl)
        · exact (waits waiter member).2 before
        · exact apart rfl
      · rintro waiter member (before | rfl)
        · exact released waiter member before
        · exact (waits _ allowed).1 member

/-- The waiting arrivals are exactly those neither released nor withdrawn. -/
theorem Valid.mem_waiting_iff (valid : Valid count history) (waiter : Waiter δ) :
    waiter ∈ waiting history ↔ Note.arrived waiter ∈ history ∧
      waiter ∉ releasedWaiters history ∧ Note.withdrawn waiter ∉ history := by
  constructor
  · intro member
    exact ⟨valid.arrived_of.1 waiter member, valid.settled_apart.1 waiter member⟩
  · induction valid with
    | nil => simp
    | @snoc past note before allowed ih =>
      simp only [waiting_snoc, releasedWaiters_snoc, mem_append, mem_singleton, not_or]
      rintro ⟨arrived, ⟨kept, outside⟩, stayed, present⟩
      cases note with
      | arrived fresh =>
        simp only [Note.apply, mem_append, mem_singleton]
        rcases arrived with arrived | same
        · exact Or.inl (ih ⟨arrived, kept, stayed⟩)
        · exact Or.inr (Note.arrived.inj same)
      | released members =>
        exact absurd (allowed.1 ▸ ih ⟨arrived.resolve_right (by simp), kept, stayed⟩) outside
      | withdrawn gone =>
        have waited := ih ⟨arrived.resolve_right (by simp), kept, stayed⟩
        simp only [Note.apply, mem_filter, decide_eq_true_eq]
        refine ⟨waited, fun same => present ?_⟩
        rw [before.arrived_unique (before.arrived_of.1 _ waited)
          (before.arrived_of.1 _ allowed) same]

theorem Valid.append_left {past rest : List (Note δ)} (valid : Valid count (past ++ rest)) :
    Valid count past := by
  obtain ⟨history, same⟩ : ∃ history, history = past ++ rest := ⟨_, rfl⟩
  rw [← same] at valid
  induction valid generalizing rest with
  | nil =>
    obtain ⟨rfl, -⟩ := append_eq_nil_iff.mp same.symm
    exact Valid.nil
  | @snoc earlier note before allowed ih =>
    rcases eq_nil_or_concat rest with rfl | ⟨front, last, rfl⟩
    · rw [append_nil] at same
      exact same ▸ before.snoc allowed
    · have shape : earlier ++ [note] = (past ++ front) ++ [last] := by simpa using same
      exact ih (append_inj' shape rfl).1

end RendezvousHistory
