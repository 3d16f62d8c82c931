import Mathlib.Algebra.Order.BigOperators.Group.Finset
import AutoMobile.BarrierRounds

/- Barrier schedules by single arrivals: a track that arrives at a lock is blocked
until the lock's group is full, and the last arrival lets the whole group pass. -/
namespace BarrierArrivals

open BarrierRounds
open Relation (ReflTransGen)

variable {ι Λ : Type} [DecidableEq ι] [DecidableEq Λ]

/-- What each track still arrives at, and who is blocked. -/
@[ext]
structure Standing (ι Λ : Type) where
  ahead : ι → List Λ
  blocked : Finset ι

/-- Nobody has arrived anywhere yet. -/
def Standing.start (program : ι → List Λ) : Standing ι Λ := ⟨program, ∅⟩

/-- The tracks blocked at a lock. -/
def Standing.waitingAt (standing : Standing ι Λ) (lock : Λ) : Finset ι :=
  standing.blocked.filter (fun track => (standing.ahead track).head? = some lock)

/-- A group of tracks moves past the locks they are at. -/
def Standing.pass (standing : Standing ι Λ) (group : Finset ι) : Standing ι Λ where
  ahead track := if track ∈ group then (standing.ahead track).tail else standing.ahead track
  blocked := standing.blocked \ group

variable (count : Λ → ℕ)

/-- One arrival: it blocks the track, or it fills the group and everybody passes. -/
inductive Arrives : Standing ι Λ → Standing ι Λ → Prop
  | blocks (standing : Standing ι Λ) (track : ι) (lock : Λ) (free : track ∉ standing.blocked)
      (next : (standing.ahead track).head? = some lock)
      (few : (standing.waitingAt lock).card + 1 < count lock) :
      Arrives standing ⟨standing.ahead, insert track standing.blocked⟩
  | passes (standing : Standing ι Λ) (track : ι) (lock : Λ) (free : track ∉ standing.blocked)
      (next : (standing.ahead track).head? = some lock)
      (full : count lock ≤ (standing.waitingAt lock).card + 1) :
      Arrives standing (standing.pass (insert track (standing.waitingAt lock)))

/-- Some order of arrivals brings every track to its end. -/
def Finishes (standing : Standing ι Λ) : Prop :=
  ∃ final, ReflTransGen (Arrives count) standing final ∧ ∀ track, final.ahead track = []

/-- No group is kept waiting although it is full. -/
def Steady (standing : Standing ι Λ) : Prop :=
  ∀ lock, (standing.waitingAt lock).card < max 1 (count lock)

/-- The programs of all tracks. -/
def Standing.programs [Fintype ι] (standing : Standing ι Λ) : Multiset (List Λ) :=
  Finset.univ.val.map standing.ahead

variable {count}

omit [DecidableEq ι] in
theorem mem_waitingAt {standing : Standing ι Λ} {lock : Λ} {track : ι} :
    track ∈ standing.waitingAt lock ↔
      track ∈ standing.blocked ∧ (standing.ahead track).head? = some lock := by
  simp [Standing.waitingAt]

omit [DecidableEq ι] in
theorem steady_start (program : ι → List Λ) : Steady count (Standing.start program) := by
  intro lock
  have none : (Standing.start program).waitingAt lock = ∅ := Finset.filter_empty _
  rw [none, Finset.card_empty]
  omega

theorem Arrives.steady {before after : Standing ι Λ} (arrives : Arrives count before after)
    (steady : Steady count before) : Steady count after := by
  intro other
  have bound := steady other
  cases arrives with
  | blocks track lock free next few =>
    by_cases same : lock = other
    · subst same
      have grown : (Standing.waitingAt ⟨before.ahead, insert track before.blocked⟩ lock) ⊆
          insert track (before.waitingAt lock) := by
        intro member inside
        rw [mem_waitingAt, Finset.mem_insert] at inside
        rw [Finset.mem_insert, mem_waitingAt]
        exact inside.1.imp id fun old => ⟨old, inside.2⟩
      have few' := (Finset.card_le_card grown).trans (Finset.card_insert_le _ _)
      omega
    · have kept : (Standing.waitingAt ⟨before.ahead, insert track before.blocked⟩ other) ⊆
          before.waitingAt other := by
        intro member inside
        rw [mem_waitingAt, Finset.mem_insert] at inside
        rcases inside with ⟨rfl | old, here⟩
        · exact absurd (Option.some.inj (next.symm.trans here)) same
        · exact mem_waitingAt.mpr ⟨old, here⟩
      exact (Finset.card_le_card kept).trans_lt bound
  | passes track lock free next full =>
    have kept : (before.pass (insert track (before.waitingAt lock))).waitingAt other ⊆
        before.waitingAt other := by
      intro member inside
      obtain ⟨left, here⟩ := mem_waitingAt.mp inside
      obtain ⟨old, outside⟩ := Finset.mem_sdiff.mp left
      rw [mem_waitingAt]
      simp only [Standing.pass, outside, if_false] at here
      exact ⟨old, here⟩
    exact (Finset.card_le_card kept).trans_lt bound

section Rounds

variable [Fintype ι]

theorem map_univ_split {β : Type} (values : ι → β) (group : Finset ι) : Finset.univ.val.map values =
      (Finset.univ \ group).val.map values + group.val.map values := by
  have parts : (Finset.univ : Finset ι).val = (Finset.univ \ group).val + group.val := by
    rw [Finset.sdiff_val, Multiset.sub_add_cancel]
    exact Finset.val_le_iff.mpr (Finset.subset_univ group)
  rw [parts, Multiset.map_add]

omit [DecidableEq Λ] in
/-- The programs before and after a group passes its lock. -/
theorem programs_pass (standing : Standing ι Λ) {group : Finset ι} {lock : Λ}
    (there : ∀ track ∈ group, (standing.ahead track).head? = some lock)
    (enough : group.card = max 1 (count lock)) :
    Round count standing.programs (standing.pass group).programs := by
  have tails : group.val.map standing.ahead =
      (group.val.map fun track => (standing.ahead track).tail).map (lock :: ·) := by
    rw [Multiset.map_map]
    refine Multiset.map_congr rfl fun track member => ?_
    obtain ⟨rest, known⟩ := List.head?_eq_some_iff.mp (there track member)
    simp [known]
  have others : (Finset.univ \ group).val.map (standing.pass group).ahead =
      (Finset.univ \ group).val.map standing.ahead :=
    Multiset.map_congr rfl fun track member => if_neg (Finset.mem_sdiff.mp member).2
  have moved : group.val.map (standing.pass group).ahead =
      group.val.map fun track => (standing.ahead track).tail :=
    Multiset.map_congr rfl fun track member => if_pos member
  unfold Standing.programs
  rw [map_univ_split standing.ahead group, map_univ_split (standing.pass group).ahead group,
    others, moved, tails]
  exact Round.pass lock _ _ (by simpa using enough)

/-- An arrival is a round or changes no program. -/
theorem Arrives.programs {before after : Standing ι Λ} (arrives : Arrives count before after)
    (steady : Steady count before) :
    after.programs = before.programs ∨ Round count before.programs after.programs := by
  cases arrives with
  | blocks track lock free next few => exact Or.inl rfl
  | passes track lock free next full =>
    have there : ∀ member ∈ insert track (before.waitingAt lock),
        (before.ahead member).head? = some lock := by
      intro member inside
      rcases Finset.mem_insert.mp inside with rfl | inside
      · exact next
      · exact (mem_waitingAt.mp inside).2
    refine Or.inr (programs_pass before there ?_)
    · have fresh : track ∉ before.waitingAt lock := fun inside => free (mem_waitingAt.mp inside).1
      have bound := steady lock
      rw [Finset.card_insert_of_notMem fresh]
      omega

theorem completable_of_finishes {standing : Standing ι Λ} (steady : Steady count standing)
    (finishes : Finishes count standing) : Completable count standing.programs := by
  obtain ⟨final, arrivals, done⟩ := finishes
  induction arrivals using ReflTransGen.head_induction_on with
  | refl =>
    refine ⟨_, .refl, fun program member => ?_⟩
    obtain ⟨track, -, rfl⟩ := Multiset.mem_map.mp member
    exact done track
  | head arrives _ ih =>
    have later := ih (arrives.steady steady)
    rcases arrives.programs steady with same | round
    · rwa [same] at later
    · obtain ⟨finish, rounds, ended⟩ := later
      exact ⟨finish, .head round rounds, ended⟩

omit [Fintype ι] in
/-- Tracks at one lock can gather there as long as the group is not full. -/
theorem gather (program : ι → List Λ) {lock : Λ} (group : Finset ι)
    (there : ∀ track ∈ group, (program track).head? = some lock)
    (few : group = ∅ ∨ group.card < count lock) :
    ReflTransGen (Arrives count) (Standing.start program) ⟨program, group⟩ := by
  induction group using Finset.induction_on with
  | empty => exact .refl
  | insert track group fresh ih =>
    have small : (insert track group).card < count lock :=
      few.resolve_left (Finset.insert_ne_empty track group)
    rw [Finset.card_insert_of_notMem fresh] at small
    have earlier := ih (fun other member => there other (Finset.mem_insert_of_mem member))
      (Or.inr (by omega))
    refine earlier.tail (Arrives.blocks ⟨program, group⟩ track lock fresh
      (there track (Finset.mem_insert_self track group)) ?_)
    have most : (Standing.waitingAt ⟨program, group⟩ lock).card ≤ group.card :=
      Finset.card_le_card (Finset.filter_subset _ _)
    omega

omit [Fintype ι] in
/-- A group that is full passes from the start. -/
theorem gather_pass (program : ι → List Λ) {lock : Λ} {group : Finset ι}
    (there : ∀ track ∈ group, (program track).head? = some lock)
    (enough : group.card = max 1 (count lock)) :
    ReflTransGen (Arrives count) (Standing.start program)
      (Standing.start ((Standing.start program).pass group).ahead) := by
  obtain ⟨track, member⟩ : group.Nonempty := Finset.card_pos.mp (by omega)
  have size : (group.erase track).card + 1 = group.card := Finset.card_erase_add_one member
  have others : ∀ other ∈ group.erase track, (program other).head? = some lock :=
    fun other inside => there other (Finset.mem_of_mem_erase inside)
  have gathered : ReflTransGen (Arrives count) (Standing.start program)
      ⟨program, group.erase track⟩ := by
    refine gather program (group.erase track) others ?_
    by_cases alone : group.card = 1
    · exact Or.inl (Finset.card_eq_zero.mp (by omega))
    · exact Or.inr (by omega)
  have waiting : Standing.waitingAt ⟨program, group.erase track⟩ lock = group.erase track :=
    Finset.filter_true_of_mem others
  have passes : Arrives count _ _ := .passes ⟨program, group.erase track⟩ track lock
    (Finset.notMem_erase track group) (there track member) (by rw [waiting]; omega)
  rw [waiting, Finset.insert_erase member] at passes
  have empty : (Standing.pass ⟨program, group.erase track⟩ group) =
      Standing.start ((Standing.start program).pass group).ahead := by
    have none : group.erase track \ group = ∅ :=
      Finset.sdiff_eq_empty_iff_subset.mpr (Finset.erase_subset track group)
    simp [Standing.pass, Standing.start, none]
  rw [empty] at passes
  exact gathered.tail passes

/-- A part of an image is the image of a part. -/
theorem exists_map_eq_of_le {α β : Type} (values : α → β) {part : Multiset β} {whole : Multiset α}
    (within : part ≤ whole.map values) : ∃ chosen ≤ whole, chosen.map values = part := by
  classical
  induction part using Multiset.induction_on generalizing whole with
  | empty => exact ⟨0, Multiset.zero_le _, rfl⟩
  | cons value part ih =>
    obtain ⟨item, member, rfl⟩ :=
      Multiset.mem_map.mp (Multiset.mem_of_le within (Multiset.mem_cons_self value part))
    obtain ⟨rest, rfl⟩ := Multiset.exists_cons_of_mem member
    rw [Multiset.map_cons, Multiset.cons_le_cons_iff] at within
    obtain ⟨chosen, inside, same⟩ := ih within
    exact ⟨item ::ₘ chosen, (Multiset.cons_le_cons_iff item).mpr inside, by simp [same]⟩

/-- Every round can be played by arrivals. -/
theorem Round.arrivals {before : Multiset (List Λ)} {program : ι → List Λ}
    {after : Multiset (List Λ)} (round : Round count before after)
    (known : (Standing.start program).programs = before) :
    ∃ next : ι → List Λ, (Standing.start next).programs = after ∧
      ReflTransGen (Arrives count) (Standing.start program) (Standing.start next) := by
  obtain ⟨lock, others, members, enough⟩ := round
  have within : members.map (lock :: ·) ≤ Finset.univ.val.map program := by
    have whole : Finset.univ.val.map program = others + members.map (lock :: ·) := known
    rw [whole]
    exact Multiset.le_add_left _ _
  obtain ⟨chosen, inside, image⟩ := exists_map_eq_of_le program within
  let group : Finset ι := ⟨chosen, Multiset.nodup_of_le inside Finset.univ.nodup⟩
  have size : group.card = max 1 (count lock) := by
    have same := congrArg Multiset.card image
    rw [Multiset.card_map, Multiset.card_map] at same
    exact same.trans enough
  have there : ∀ track ∈ group, (program track).head? = some lock := by
    intro track member
    have passed : program track ∈ members.map (lock :: ·) := by
      rw [← image]
      exact Multiset.mem_map_of_mem program member
    obtain ⟨rest, -, same⟩ := Multiset.mem_map.mp passed
    simp [← same]
  refine ⟨((Standing.start program).pass group).ahead, ?_, gather_pass program there size⟩
  have rest : (Finset.univ \ group).val.map program = others := by
    have whole : Finset.univ.val.map program = others + members.map (lock :: ·) := known
    have image' : group.val.map program = members.map (lock :: ·) := image
    rw [map_univ_split program group, image'] at whole
    exact add_right_cancel whole
  have moved : group.val.map (fun track => (program track).tail) = members := by
    have tails := congrArg (Multiset.map List.tail) image
    rw [Multiset.map_map, Multiset.map_map] at tails
    simpa [Function.comp_def] using tails
  have still : (Finset.univ \ group).val.map ((Standing.start program).pass group).ahead =
      (Finset.univ \ group).val.map program :=
    Multiset.map_congr rfl fun track member => if_neg (Finset.mem_sdiff.mp member).2
  have passed : group.val.map ((Standing.start program).pass group).ahead =
      group.val.map fun track => (program track).tail :=
    Multiset.map_congr rfl fun track member => if_pos member
  unfold Standing.programs
  rw [map_univ_split _ group]
  change (Finset.univ \ group).val.map ((Standing.start program).pass group).ahead +
    group.val.map ((Standing.start program).pass group).ahead = others + members
  rw [still, passed, rest, moved]

/-- Arrivals finish exactly the programs that rounds complete. -/
theorem finishes_iff_completable (program : ι → List Λ) : Finishes count (Standing.start program) ↔
      Completable count (Finset.univ.val.map program) := by
  constructor
  · exact completable_of_finishes (steady_start program)
  · rintro ⟨final, rounds, done⟩
    generalize known : Finset.univ.val.map program = programs at rounds
    induction rounds using ReflTransGen.head_induction_on generalizing program with
    | refl =>
      refine ⟨Standing.start program, .refl, fun track => done _ ?_⟩
      rw [← known]
      exact Multiset.mem_map_of_mem program (Finset.mem_univ track)
    | head round _ ih =>
      obtain ⟨next, same, arrivals⟩ := Round.arrivals round known
      obtain ⟨finish, more, ended⟩ := ih next same
      exact ⟨finish, arrivals.trans more, ended⟩

/-- How much the tracks still have to do: to arrive and to pass at every lock ahead. -/
def Standing.toGo (standing : Standing ι Λ) : ℕ :=
  ∑ track, (2 * (standing.ahead track).length + if track ∈ standing.blocked then 0 else 1)

theorem Arrives.toGo_lt {before after : Standing ι Λ} (arrives : Arrives count before after) :
    after.toGo < before.toGo := by
  cases arrives with
  | blocks track lock free next few =>
    refine Finset.sum_lt_sum (fun other _ => ?_) ⟨track, Finset.mem_univ track, ?_⟩
    · by_cases old : other ∈ before.blocked
      · have still : other ∈ insert track before.blocked := Finset.mem_insert_of_mem old
        simp [old, still]
      · rw [if_neg old]
        refine Nat.add_le_add_left ?_ _
        split
        · exact Nat.zero_le 1
        · exact le_refl 1
    · simp [free]
  | passes track lock free next full =>
    have shorter : ∀ other ∈ insert track (before.waitingAt lock),
        (before.ahead other).tail.length + 1 = (before.ahead other).length := by
      intro other member
      have head : (before.ahead other).head? = some lock := by
        rcases Finset.mem_insert.mp member with rfl | waiting
        · exact next
        · exact (mem_waitingAt.mp waiting).2
      obtain ⟨rest, known⟩ := List.head?_eq_some_iff.mp head
      simp [known]
    refine Finset.sum_lt_sum (fun other _ => ?_) ⟨track, Finset.mem_univ track, ?_⟩
    · by_cases member : other ∈ insert track (before.waitingAt lock)
      · have less := shorter other member
        simp only [Standing.pass, Finset.mem_sdiff, member, not_true, and_false, if_true, if_false]
        omega
      · simp only [Standing.pass, Finset.mem_sdiff, member, not_false_iff, and_true, if_false]
        exact le_refl _
    · have here := Finset.mem_insert_self track (before.waitingAt lock)
      have less := shorter track here
      simp only [Standing.pass, Finset.mem_sdiff, here, not_true, and_false, free, if_true, if_false]
      omega

/-- Arrivals come to an end. -/
theorem exists_stuck (standing : Standing ι Λ) :
    ∃ final, ReflTransGen (Arrives count) standing final ∧ ∀ next, ¬ Arrives count final next := by
  generalize bound : standing.toGo = size
  induction size using Nat.strong_induction_on generalizing standing with
  | _ size ih =>
    by_cases stuck : ∃ next, Arrives count standing next
    · obtain ⟨next, arrives⟩ := stuck
      obtain ⟨final, path, last⟩ := ih next.toGo (bound ▸ arrives.toGo_lt) next rfl
      exact ⟨final, .head arrives path, last⟩
    · exact ⟨standing, .refl, fun next arrives => stuck ⟨next, arrives⟩⟩

end Rounds

end BarrierArrivals
