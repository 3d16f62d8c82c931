import Mathlib.Order.Interval.Finset.Nat
import AutoMobile.InsertionMap
import AutoMobile.Runs

/- `PrototypeCommitGenerations`: which of the overlapping shows of one prototype id may commit. The
history of an id says what became of every generation since the id was last idle; the code keeps
three counters and the generations that have not settled. -/
namespace AutoMobile.CommitGenerations

open List hiding keys
open InsertionMap Runs

structure KeyState where
  issued : Nat := 0
  /-- The newest generation that settled without being withdrawn. -/
  settledValid : Nat := 0
  /-- The newest generation that has not been withdrawn; 0 when none remains. -/
  latestValid : Nat := 0
  /-- Unsettled generations, mapped to whether each was withdrawn. -/
  inFlight : InsertionMap Nat Bool := []
deriving DecidableEq, Repr

/-- The state of each id of each device that has a show in flight. -/
abbrev States (Device Id : Type) := InsertionMap (Device × Id) KeyState

def newestValidBelow (state : KeyState) (generation : Nat) : Nat :=
  state.inFlight.foldl (fun newest entry =>
    if !entry.2 ∧ entry.1 < generation ∧ entry.1 > newest then entry.1 else newest)
    state.settledValid

section Calls

variable {Device Id : Type} [DecidableEq Device] [DecidableEq Id]

/-- `begin`: the new generation of the id. -/
def beginShow (states : States Device Id) (key : Device × Id) : States Device Id × Nat :=
  let state := (get? states key).getD {}
  let issued := state.issued + 1
  (put states key
    { state with issued, latestValid := issued, inFlight := put state.inFlight issued false },
    issued)

/-- A valid show is latest until a newer valid one arrives; a withdrawn one only while newest. -/
def isLatest (states : States Device Id) (key : Device × Id) (generation : Nat) : Bool :=
  match get? states key with
  | none => true
  | some state =>
    if get? state.inFlight generation = some true then generation == state.issued
    else generation == state.latestValid

def withdraw (states : States Device Id) (key : Device × Id) (generation : Nat) :
    States Device Id :=
  match get? states key with
  | none => states
  | some state =>
    if get? state.inFlight generation ≠ some false then states
    else
      let marked := { state with inFlight := put state.inFlight generation true }
      put states key
        (if marked.latestValid = generation then
          { marked with latestValid := newestValidBelow marked generation }
        else marked)

def settle (states : States Device Id) (key : Device × Id) (generation : Nat) : States Device Id :=
  match get? states key with
  | none => states
  | some state =>
    let settledValid :=
      if get? state.inFlight generation = some false then max state.settledValid generation
      else state.settledValid
    let inFlight := erase state.inFlight generation
    if inFlight.length = 0 then erase states key
    else put states key { state with settledValid, inFlight }

inductive Call (Device Id : Type) where
  | begin (key : Device × Id)
  | withdraw (key : Device × Id) (generation : Nat)
  | settle (key : Device × Id) (generation : Nat)
deriving DecidableEq, Repr

def Call.key : Call Device Id → Device × Id
  | .begin key | .withdraw key _ | .settle key _ => key

/-- A call, with the generation that it hands out. -/
def step (states : States Device Id) : Call Device Id → States Device Id × List Nat
  | .begin key => ((beginShow states key).1, [(beginShow states key).2])
  | .withdraw key generation => (withdraw states key generation, [])
  | .settle key generation => (settle states key generation, [])

def statesAfter (calls : List (Call Device Id)) : States Device Id := (run step [] calls).1

end Calls

section History

/-- The generations that were begun since the id was last idle, and what became of them. -/
@[ext]
structure History where
  begun : Nat := 0
  withdrawn : Finset Nat := ∅
  settled : Finset Nat := ∅
deriving DecidableEq

namespace History

variable (history : History) (generation : Nat)

def Begun : Prop := generation ∈ Finset.Icc 1 history.begun

def InFlight : Prop := history.Begun generation ∧ generation ∉ history.settled

/-- Begun and not withdrawn, in flight or settled. -/
def Valid : Prop := history.Begun generation ∧ generation ∉ history.withdrawn

instance : Decidable (history.Begun generation) := by unfold Begun; infer_instance

instance : Decidable (history.InFlight generation) := by unfold InFlight; infer_instance

instance : Decidable (history.Valid generation) := by unfold Valid; infer_instance

/-- Only a generation in flight can be withdrawn. -/
def withdraw : History :=
  if history.InFlight generation then
    { history with withdrawn := insert generation history.withdrawn }
  else history

/-- With its last show in flight the id becomes idle, and its generations start over. -/
def settle : History :=
  if history.InFlight generation then
    if insert generation history.settled = Finset.Icc 1 history.begun then {}
    else { history with settled := insert generation history.settled }
  else history

end History

variable {Device Id : Type} [DecidableEq Device] [DecidableEq Id]

def History.after (history : History) : Call Device Id → History
  | .begin _ => { history with begun := history.begun + 1 }
  | .withdraw _ generation => history.withdraw generation
  | .settle _ generation => history.settle generation

/-- The history of one id after some calls. -/
def historyOf (key : Device × Id) (calls : List (Call Device Id)) : History :=
  (calls.filter fun call => call.key = key).foldl History.after {}

end History

section Newest

/-- The newest of the generations with a property; 0 when there is none. -/
def Newest (property : Nat → Prop) (newest : Nat) : Prop :=
  IsGreatest {generation | generation = 0 ∨ property generation} newest

variable {property : Nat → Prop} {newest : Nat}

theorem Newest.eq_iff (greatest : Newest property newest) {generation : Nat}
    (has : property generation) :
    generation = newest ↔ ∀ newer, generation < newer → ¬ property newer := by
  constructor
  · rintro rfl newer above also
    exact absurd (greatest.2 (Or.inr also)) (Nat.not_le.mpr above)
  · intro none
    apply Nat.le_antisymm (greatest.2 (Or.inr has))
    rcases greatest.1 with zero | member
    · exact zero ▸ Nat.zero_le _
    · exact Nat.not_lt.mp fun above => none newest above member

theorem newest_none (none : ∀ generation, ¬ property generation) : Newest property 0 :=
  ⟨Or.inl rfl, fun generation either => by
    rcases either with rfl | member
    · exact Nat.le_refl 0
    · exact absurd member (none generation)⟩

/-- The scan keeps the largest of the entries that meet its test, or where it began. -/
theorem newest_foldl (entries : List (Nat × Bool)) (generation start : Nat) :
    Newest (fun candidate => candidate = start ∨
        ∃ entry ∈ entries, !entry.2 ∧ entry.1 < generation ∧ entry.1 = candidate)
      (entries.foldl (fun newest entry =>
        if !entry.2 ∧ entry.1 < generation ∧ entry.1 > newest then entry.1 else newest) start) := by
  induction entries generalizing start with
  | nil =>
    refine ⟨Or.inr (Or.inl rfl), ?_⟩
    rintro candidate (rfl | rfl | ⟨entry, member, -⟩)
    · exact Nat.zero_le _
    · exact Nat.le_refl _
    · cases member
  | cons entry rest ih =>
    rw [foldl_cons]
    split
    next taken =>
      obtain ⟨reached, bounds⟩ := ih entry.1
      refine ⟨?_, ?_⟩
      · rcases reached with zero | same | ⟨other, member, found⟩
        · exact Or.inl zero
        · exact Or.inr (Or.inr ⟨entry, mem_cons_self, taken.1, taken.2.1, same.symm⟩)
        · exact Or.inr (Or.inr ⟨other, mem_cons_of_mem _ member, found⟩)
      · have above := bounds (Or.inr (Or.inl rfl))
        rintro candidate (rfl | rfl | ⟨other, member, found⟩)
        · exact Nat.zero_le _
        · exact Nat.le_trans (Nat.le_of_lt taken.2.2) above
        · rcases mem_cons.mp member with rfl | later
          · exact found.2.2 ▸ above
          · exact bounds (Or.inr (Or.inr ⟨other, later, found⟩))
    next left =>
      obtain ⟨reached, bounds⟩ := ih start
      refine ⟨?_, ?_⟩
      · rcases reached with zero | same | ⟨other, member, found⟩
        · exact Or.inl zero
        · exact Or.inr (Or.inl same)
        · exact Or.inr (Or.inr ⟨other, mem_cons_of_mem _ member, found⟩)
      · have above := bounds (Or.inr (Or.inl rfl))
        rintro candidate (rfl | rfl | ⟨other, member, found⟩)
        · exact Nat.zero_le _
        · exact above
        · rcases mem_cons.mp member with rfl | later
          · have below : other.1 ≤ start :=
              Nat.not_lt.mp fun higher => left ⟨found.1, found.2.1, higher⟩
            exact found.2.2 ▸ Nat.le_trans below above
          · exact bounds (Or.inr (Or.inr ⟨other, later, found⟩))

end Newest

section Tracking

/-- The counters of an id that is not idle are those of its history. -/
structure Tracks (state : KeyState) (history : History) : Prop where
  issued : state.issued = history.begun
  distinct : (keys state.inFlight).Nodup
  inFlight : ∀ generation, get? state.inFlight generation =
    if history.InFlight generation then some (decide (generation ∈ history.withdrawn)) else none
  settledBegun : history.settled ⊆ Finset.Icc 1 history.begun
  withdrawnBegun : history.withdrawn ⊆ Finset.Icc 1 history.begun
  settledValid : Newest (fun generation =>
    generation ∈ history.settled ∧ generation ∉ history.withdrawn) state.settledValid
  latestValid : Newest history.Valid state.latestValid

/-- An id without state has no history, one with state has a show in flight. -/
def Follows (state : Option KeyState) (history : History) : Prop :=
  match state with
  | none => history = {}
  | some state => Tracks state history ∧ ∃ generation, history.InFlight generation

variable {state : KeyState} {history : History} {generation : Nat}

theorem History.begun_iff : history.Begun generation ↔
    1 ≤ generation ∧ generation ≤ history.begun := Finset.mem_Icc

theorem Tracks.get?_eq_some (tracks : Tracks state history) {withdrawn : Bool} :
    get? state.inFlight generation = some withdrawn ↔
      history.InFlight generation ∧ withdrawn = decide (generation ∈ history.withdrawn) := by
  rw [tracks.inFlight]
  split
  next flying => simp [flying, eq_comm]
  next landed => simp [landed]

theorem tracks_initial : Tracks {} {} where
  issued := rfl
  distinct := nodup_nil
  inFlight generation := by simp [get?, History.InFlight, History.Begun]
  settledBegun := Finset.empty_subset _
  withdrawnBegun := Finset.empty_subset _
  settledValid := newest_none fun _ => by simp
  latestValid := newest_none fun _ => by simp [History.Valid, History.Begun]

/-- A new show is the newest valid one. -/
theorem Tracks.begin (tracks : Tracks state history) : Tracks
      { state with
        issued := state.issued + 1
        latestValid := state.issued + 1
        inFlight := put state.inFlight (state.issued + 1) false }
      { history with begun := history.begun + 1 } := by
  have wider : Finset.Icc 1 history.begun ⊆ Finset.Icc 1 (history.begun + 1) :=
    Finset.Icc_subset_Icc_right (Nat.le_succ _)
  have fresh : history.begun + 1 ∉ Finset.Icc 1 history.begun := by simp
  refine ⟨congrArg (· + 1) tracks.issued, nodup_keys_put tracks.distinct _ _, ?_,
    tracks.settledBegun.trans wider, tracks.withdrawnBegun.trans wider, tracks.settledValid, ?_⟩
  · intro generation
    rw [get?_put, tracks.issued, tracks.inFlight]
    by_cases new : history.begun + 1 = generation
    · subst new
      have unsettled : history.begun + 1 ∉ history.settled :=
        fun member => fresh (tracks.settledBegun member)
      have unwithdrawn : history.begun + 1 ∉ history.withdrawn :=
        fun member => fresh (tracks.withdrawnBegun member)
      simp [History.InFlight, History.begun_iff, unsettled, unwithdrawn]
    · have same : History.Begun { history with begun := history.begun + 1 } generation ↔
          history.Begun generation := by
        simp only [History.begun_iff]
        omega
      rw [if_neg new]
      simp only [History.InFlight, same]
  · rw [tracks.issued]
    refine ⟨Or.inr ⟨by simp [History.begun_iff], fun member =>
      fresh (tracks.withdrawnBegun member)⟩, ?_⟩
    rintro generation (rfl | valid)
    · exact Nat.zero_le _
    · exact (History.begun_iff.mp valid.1).2

/-- What the scan over the generations in flight returns. -/
theorem newest_newestValidBelow (state : KeyState) (generation : Nat) :
    Newest (fun candidate => candidate = state.settledValid ∨
        ∃ entry ∈ state.inFlight, !entry.2 ∧ entry.1 < generation ∧ entry.1 = candidate)
      (newestValidBelow state generation) :=
  newest_foldl state.inFlight generation state.settledValid

/-- Marking a generation leaves the others, and who is in flight, as they were. -/
theorem Tracks.inFlight_marked (tracks : Tracks state history)
    (flying : history.InFlight generation) (other : Nat) :
    get? (put state.inFlight generation true) other = if history.InFlight other then
        some (decide (other ∈ insert generation history.withdrawn)) else none := by
  rw [get?_put, tracks.inFlight]
  by_cases same : generation = other
  · subst same
    simp [flying]
  · have apart : ¬ other = generation := fun equal => same equal.symm
    simp [same, apart]

theorem History.valid_withdraw (flying : history.InFlight generation) {other : Nat} :
    (history.withdraw generation).Valid other ↔ history.Valid other ∧ other ≠ generation := by
  unfold History.withdraw
  rw [if_pos flying]
  simp only [History.Valid, History.Begun, Finset.mem_insert, not_or]
  tauto

/-- Withdrawing the newest valid show gives its place to the newest valid one that is left. -/
theorem Tracks.newest_left (tracks : Tracks state history) (flying : history.InFlight generation)
    (newest : state.latestValid = generation) :
    Newest (history.withdraw generation).Valid
      (newestValidBelow { state with inFlight := put state.inFlight generation true }
        generation) := by
  have scan := newest_newestValidBelow
    { state with inFlight := put state.inFlight generation true } generation
  have below {other : Nat} (valid : history.Valid other) : other ≤ generation :=
    newest ▸ tracks.latestValid.2 (Or.inr valid)
  -- What the scan meets is what the history calls valid, in flight or settled.
  refine ⟨?_, ?_⟩
  · rcases scan.1 with zero | settled | ⟨entry, member, unmarked, -, same⟩
    · exact Or.inl zero
    · rcases tracks.settledValid.1 with zero | valid
      · exact Or.inl (settled.trans zero)
      · rw [settled]
        refine Or.inr ((History.valid_withdraw flying).mpr
          ⟨⟨tracks.settledBegun valid.1, valid.2⟩, ?_⟩)
        intro same
        exact flying.2 (same ▸ valid.1)
    · have found := get?_of_mem (nodup_keys_put tracks.distinct generation true) member
      rw [tracks.inFlight_marked flying] at found
      split at found
      next still =>
        rw [Option.some.injEq] at found
        rw [← found, Bool.not_eq_true', decide_eq_false_iff_not, Finset.mem_insert,
          not_or] at unmarked
        rw [← same]
        exact Or.inr ((History.valid_withdraw flying).mpr
          ⟨⟨still.1, unmarked.2⟩, unmarked.1⟩)
      next => cases found
  · rintro other (rfl | valid)
    · exact Nat.zero_le _
    · obtain ⟨valid, apart⟩ := (History.valid_withdraw flying).mp valid
      by_cases settled : other ∈ history.settled
      · exact Nat.le_trans (tracks.settledValid.2 (Or.inr ⟨settled, valid.2⟩))
          (scan.2 (Or.inr (Or.inl rfl)))
      · have entered : get? (put state.inFlight generation true) other = some false := by
          rw [tracks.inFlight_marked flying]
          simp [History.InFlight, valid.1, settled, apart, valid.2]
        exact scan.2 (Or.inr (Or.inr ⟨(other, false), mem_of_get? entered, rfl,
          Nat.lt_of_le_of_ne (below valid) apart, rfl⟩))

theorem Tracks.withdraw (tracks : Tracks state history) (flying : history.InFlight generation) :
    Tracks
      (if state.latestValid = generation then
        { state with
          inFlight := put state.inFlight generation true
          latestValid := newestValidBelow
            { state with inFlight := put state.inFlight generation true } generation }
      else { state with inFlight := put state.inFlight generation true })
      (history.withdraw generation) := by
  have marked : history.withdraw generation =
      { history with withdrawn := insert generation history.withdrawn } := if_pos flying
  have settledValid : Newest (fun other =>
      other ∈ history.settled ∧ other ∉ insert generation history.withdrawn)
      state.settledValid := by
    have same (other : Nat) :
        (other ∈ history.settled ∧ other ∉ insert generation history.withdrawn) ↔
          other ∈ history.settled ∧ other ∉ history.withdrawn := by
      rw [Finset.mem_insert, not_or]
      refine and_congr_right fun settled => and_iff_right ?_
      rintro rfl
      exact flying.2 settled
    simp only [same]
    exact tracks.settledValid
  have withdrawnBegun : insert generation history.withdrawn ⊆ Finset.Icc 1 history.begun :=
    Finset.insert_subset flying.1 tracks.withdrawnBegun
  split
  next newest =>
    have left := tracks.newest_left flying newest
    rw [marked] at left ⊢
    exact ⟨tracks.issued, nodup_keys_put tracks.distinct _ _, tracks.inFlight_marked flying,
      tracks.settledBegun, withdrawnBegun, settledValid, left⟩
  next older =>
    rw [marked]
    refine ⟨tracks.issued, nodup_keys_put tracks.distinct _ _, tracks.inFlight_marked flying,
      tracks.settledBegun, withdrawnBegun, settledValid, ?_, ?_⟩
    · rcases tracks.latestValid.1 with zero | valid
      · exact Or.inl zero
      · exact Or.inr (marked ▸ (History.valid_withdraw flying).mpr ⟨valid, older⟩)
    · rintro other (rfl | valid)
      · exact Nat.zero_le _
      · exact tracks.latestValid.2
          (Or.inr ((History.valid_withdraw flying).mp (marked ▸ valid)).1)

/-- Settling a show that is not the last in flight. -/
theorem Tracks.settle (tracks : Tracks state history) (flying : history.InFlight generation) :
    Tracks
      { state with
        settledValid :=
          if get? state.inFlight generation = some false then max state.settledValid generation
          else state.settledValid
        inFlight := erase state.inFlight generation }
      { history with settled := insert generation history.settled } := by
  refine ⟨tracks.issued, nodup_keys_erase tracks.distinct _, ?_,
    Finset.insert_subset flying.1 tracks.settledBegun, tracks.withdrawnBegun, ?_,
    tracks.latestValid⟩
  · intro other
    rw [get?_erase, tracks.inFlight]
    by_cases same : generation = other
    · subst same
      simp [History.InFlight]
    · have apart : ¬ other = generation := fun equal => same equal.symm
      simp [History.InFlight, History.Begun, same, apart]
  · dsimp only
    split
    next unwithdrawn =>
      have valid : generation ∉ history.withdrawn := by
        simpa using (tracks.get?_eq_some.mp unwithdrawn).2
      refine ⟨?_, ?_⟩
      · rcases Nat.le_total state.settledValid generation with newer | older
        · rw [Nat.max_eq_right newer]
          exact Or.inr ⟨Finset.mem_insert_self _ _, valid⟩
        · rw [Nat.max_eq_left older]
          exact tracks.settledValid.1.imp id (And.imp_left (Finset.mem_insert_of_mem))
      · rintro other (rfl | ⟨settled, kept⟩)
        · exact Nat.zero_le _
        · rcases Finset.mem_insert.mp settled with rfl | earlier
          · exact Nat.le_max_right _ _
          · exact Nat.le_trans (tracks.settledValid.2 (Or.inr ⟨earlier, kept⟩))
              (Nat.le_max_left _ _)
    next withdrawn =>
      have gone : generation ∈ history.withdrawn := by
        by_contra valid
        exact withdrawn (tracks.get?_eq_some.mpr ⟨flying, by simp [valid]⟩)
      have same (other : Nat) :
          (other ∈ insert generation history.settled ∧ other ∉ history.withdrawn) ↔
            other ∈ history.settled ∧ other ∉ history.withdrawn := by
        rw [Finset.mem_insert]
        constructor
        · rintro ⟨rfl | settled, kept⟩
          · exact absurd gone kept
          · exact ⟨settled, kept⟩
        · exact And.imp_left Or.inr
      simp only [same]
      exact tracks.settledValid

theorem Tracks.not_inFlight (tracks : Tracks state history)
    (absent : get? state.inFlight generation ≠ some false)
    (unwithdrawn : generation ∉ history.withdrawn) : ¬ history.InFlight generation :=
  fun flying => absent (tracks.get?_eq_some.mpr ⟨flying, by simp [unwithdrawn]⟩)

/-- With no other generation in flight, the id becomes idle. -/
theorem Tracks.idle_iff (tracks : Tracks state history) (flying : history.InFlight generation) :
    (erase state.inFlight generation).length = 0 ↔
      insert generation history.settled = Finset.Icc 1 history.begun := by
  have left (other : Nat) (still : History.InFlight
      { history with settled := insert generation history.settled } other) :
      (get? (erase state.inFlight generation) other).isSome := by
    have found := (tracks.settle flying).inFlight other
    rw [if_pos still] at found
    exact Option.isSome_iff_exists.mpr ⟨_, found⟩
  have all : insert generation history.settled ⊆ Finset.Icc 1 history.begun :=
    (tracks.settle flying).settledBegun
  rw [List.length_eq_zero_iff]
  constructor
  · intro empty
    refine all.antisymm fun other begun => ?_
    by_contra unsettled
    have found := left other ⟨begun, unsettled⟩
    rw [empty] at found
    cases found
  · intro full
    rw [List.eq_nil_iff_forall_not_mem]
    rintro ⟨other, withdrawn⟩ member
    have distinct := (tracks.settle flying).distinct
    have found := (tracks.settle flying).get?_eq_some.mp (get?_of_mem distinct member)
    exact found.1.2 (full ▸ found.1.1)

end Tracking

end AutoMobile.CommitGenerations
