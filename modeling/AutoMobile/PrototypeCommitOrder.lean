import AutoMobile.PrototypeCommitGenerations

/- Any calls of `begin`, `withdraw` and `settle`: every id keeps the state of its history, and
`isLatest` lets the newest valid show commit. -/
namespace AutoMobile.CommitGenerations

open InsertionMap List Runs

section Steps

variable {Device Id : Type} [DecidableEq Device] [DecidableEq Id] {states : States Device Id}
  {key : Device × Id} {history : History}

theorem follows_begin (follows : Follows (get? states key) history) :
    Follows (get? (beginShow states key).1 key) { history with begun := history.begun + 1 } := by
  unfold beginShow
  rw [get?_put_self]
  have newest : History.InFlight { history with begun := history.begun + 1 } (history.begun + 1) ↔
      history.begun + 1 ∉ history.settled := by
    simp [History.InFlight, History.begun_iff]
  cases found : get? states key with
  | none =>
    rw [found] at follows
    obtain rfl : history = {} := follows
    exact ⟨tracks_initial.begin, _, newest.mpr (Finset.notMem_empty _)⟩
  | some state =>
    rw [found] at follows
    obtain ⟨tracks, -⟩ := follows
    refine ⟨tracks.begin, _, newest.mpr fun settled => ?_⟩
    exact absurd (Finset.mem_Icc.mp (tracks.settledBegun settled)).2 (by omega)

theorem History.inFlight_withdraw (history : History) (generation other : Nat) :
    (history.withdraw generation).InFlight other ↔ history.InFlight other := by
  unfold History.withdraw
  split <;> exact Iff.rfl

theorem follows_withdraw (follows : Follows (get? states key) history) (generation : Nat) :
    Follows (get? (withdraw states key generation) key) (history.withdraw generation) := by
  unfold withdraw
  cases found : get? states key with
  | none =>
    rw [found] at follows
    obtain rfl : history = {} := follows
    dsimp only
    rw [found]
    rfl
  | some state =>
    rw [found] at follows
    obtain ⟨tracks, other, flying⟩ := follows
    dsimp only
    split
    next idle =>
      rw [found]
      have same : history.withdraw generation = history := by
        unfold History.withdraw
        split
        next still =>
          have gone : generation ∈ history.withdrawn := by
            by_contra unwithdrawn
            exact tracks.not_inFlight idle unwithdrawn still
          rw [Finset.insert_eq_of_mem gone]
        next => rfl
      rw [same]
      exact ⟨tracks, other, flying⟩
    next valid =>
      rw [get?_put_self]
      have still := (tracks.get?_eq_some.mp (not_not.mp valid)).1
      refine ⟨?_, other, (History.inFlight_withdraw history generation other).mpr flying⟩
      exact tracks.withdraw still

theorem follows_settle (follows : Follows (get? states key) history) (generation : Nat) :
    Follows (get? (settle states key generation) key) (history.settle generation) := by
  unfold settle
  cases found : get? states key with
  | none =>
    rw [found] at follows
    obtain rfl : history = {} := follows
    dsimp only
    rw [found]
    rfl
  | some state =>
    rw [found] at follows
    obtain ⟨tracks, other, flying⟩ := follows
    dsimp only
    by_cases still : history.InFlight generation
    · unfold History.settle
      rw [if_pos still]
      by_cases full : insert generation history.settled = Finset.Icc 1 history.begun
      · rw [if_pos full, if_pos ((tracks.idle_iff still).mpr full), get?_erase, if_pos rfl]
        rfl
      · rw [if_neg full, if_neg (full ∘ (tracks.idle_iff still).mp), get?_put_self]
        refine ⟨tracks.settle still, ?_⟩
        by_contra none
        refine full ((tracks.settle still).settledBegun.antisymm fun left begun => ?_)
        by_contra unsettled
        exact none ⟨left, begun, unsettled⟩
    · have absent : get? state.inFlight generation = none := by rw [tracks.inFlight, if_neg still]
      have kept : erase state.inFlight generation = state.inFlight :=
        erase_of_fresh ((get?_eq_none_iff _ _).mp absent)
      have busy : state.inFlight.length ≠ 0 := by
        intro empty
        have there := tracks.inFlight other
        rw [length_eq_zero_iff.mp empty, if_pos flying] at there
        cases there
      rw [kept, if_neg busy, get?_put_self]
      unfold History.settle
      rw [if_neg still]
      simp only [absent]
      exact ⟨tracks, other, flying⟩

/-- A call on one id leaves the others as they are. -/
theorem get?_step_other (call : Call Device Id) (apart : call.key ≠ key) :
    get? (step states call).1 key = get? states key := by
  cases call with
  | begin other => exact get?_put_of_ne _ apart _
  | withdraw other generation =>
    simp only [step, withdraw]
    split
    · rfl
    · split
      · rfl
      · exact get?_put_of_ne _ apart _
  | settle other generation =>
    simp only [step, settle]
    split
    · rfl
    · split
      · rw [get?_erase]
        exact if_neg apart
      · exact get?_put_of_ne _ apart _

theorem follows_step (follows : Follows (get? states key) history) (call : Call Device Id)
    (same : call.key = key) :
    Follows (get? (step states call).1 key) (history.after call) := by
  subst same
  cases call with
  | begin key => exact follows_begin follows
  | withdraw key generation => exact follows_withdraw follows generation
  | settle key generation => exact follows_settle follows generation

/-- After any calls, every id has the state of its history. -/
theorem follows_run (calls : List (Call Device Id)) (key : Device × Id) :
    Follows (get? (statesAfter calls) key) (historyOf key calls) := by
  have each : ∀ (calls : List (Call Device Id)) (states : States Device Id) (history : History),
      Follows (get? states key) history → Follows (get? (run step states calls).1 key)
          ((calls.filter fun call => call.key = key).foldl History.after history) := by
    intro calls
    induction calls with
    | nil => exact fun _ _ follows => follows
    | cons call calls ih =>
      intro states history follows
      rw [run_cons]
      by_cases same : call.key = key
      · rw [filter_cons_of_pos (by simpa using same), foldl_cons]
        exact ih _ _ (follows_step follows call same)
      · rw [filter_cons_of_neg (by simpa using same)]
        refine ih _ _ ?_
        rw [get?_step_other call same]
        exact follows
  exact each calls [] {} rfl

end Steps

section Commits

variable {history : History} {generation newer : Nat}

/-- A show in flight decides by the history alone whether it is the latest. -/
theorem isLatest_of_follows {Device Id : Type} [DecidableEq Device] [DecidableEq Id]
    {states : States Device Id} {key : Device × Id}
    (follows : Follows (get? states key) history) (flying : history.InFlight generation) :
    isLatest states key generation = true ↔
      if generation ∈ history.withdrawn then ∀ newer, generation < newer → ¬ history.Begun newer
      else ∀ newer, generation < newer → ¬ history.Valid newer := by
  unfold isLatest
  cases found : get? states key with
  | none =>
    rw [found] at follows
    obtain rfl : history = {} := follows
    exact absurd flying.1 (Finset.notMem_empty _)
  | some state =>
    rw [found] at follows
    obtain ⟨tracks, -⟩ := follows
    have here := tracks.inFlight generation
    rw [if_pos flying] at here
    dsimp only
    rw [here]
    by_cases withdrawn : generation ∈ history.withdrawn
    · rw [if_pos (by simp [withdrawn]), if_pos withdrawn, beq_iff_eq, tracks.issued]
      have begun := History.begun_iff.mp flying.1
      constructor
      · rintro rfl newer above also
        exact absurd (History.begun_iff.mp also).2 (Nat.not_le.mpr above)
      · intro none
        by_contra older
        exact none history.begun (by omega) (History.begun_iff.mpr ⟨by omega, Nat.le_refl _⟩)
    · rw [if_neg (by simp [withdrawn]), if_neg withdrawn, beq_iff_eq]
      exact tracks.latestValid.eq_iff ⟨flying.1, withdrawn⟩

theorem History.settle_inFlight (still : history.InFlight generation) {other : Nat}
    (apart : other ≠ generation) :
    (history.settle other).begun = history.begun ∧
      (history.settle other).withdrawn = history.withdrawn ∧
      ∀ ended, ended ∈ (history.settle other).settled ↔
        (ended = other ∧ history.InFlight other) ∨ ended ∈ history.settled := by
  unfold History.settle
  by_cases flying : history.InFlight other
  · have busy : insert other history.settled ≠ Finset.Icc 1 history.begun := by
      intro full
      have settled : generation ∈ insert other history.settled := full ▸ still.1
      rcases Finset.mem_insert.mp settled with same | earlier
      · exact apart same.symm
      · exact still.2 earlier
    simp [flying, busy]
  · simp [flying]

/-- An older show in flight stays below a newer valid one that has settled, until it settles. -/
theorem History.superseded_after {Device Id : Type} {key : Device × Id}
    (flying : history.InFlight generation) (settled : newer ∈ history.settled)
    (valid : history.Valid newer) (call : Call Device Id) (same : call.key = key)
    (other : call ≠ .settle key generation) :
    (history.after call).InFlight generation ∧ newer ∈ (history.after call).settled ∧
      (history.after call).Valid newer := by
  cases call with
  | begin key =>
    have wider : Finset.Icc 1 history.begun ⊆ Finset.Icc 1 (history.begun + 1) :=
      Finset.Icc_subset_Icc_right (Nat.le_succ _)
    exact ⟨⟨wider flying.1, flying.2⟩, settled, wider valid.1, valid.2⟩
  | withdraw key withdrawn =>
    refine ⟨(inFlight_withdraw history withdrawn generation).mpr flying, ?_, ?_⟩
    · simp only [after, withdraw]
      split <;> exact settled
    · by_cases still : history.InFlight withdrawn
      · exact (valid_withdraw still).mpr ⟨valid, fun equal => still.2 (equal ▸ settled)⟩
      · simp only [after, withdraw, if_neg still]
        exact valid
  | settle key ended =>
    have apart : ended ≠ generation := by
      rintro rfl
      exact other (congrArg (Call.settle · _) same)
    obtain ⟨begun, withdrawn, after⟩ := settle_inFlight flying apart
    simp only [History.after, InFlight, Valid, Begun, begun, withdrawn, after]
    refine ⟨⟨flying.1, ?_⟩, Or.inr settled, valid⟩
    rintro (⟨equal, -⟩ | earlier)
    · exact apart equal.symm
    · exact flying.2 earlier

theorem History.superseded_later {Device Id : Type} [DecidableEq Device] [DecidableEq Id]
    {key : Device × Id} (flying : history.InFlight generation)
    (settled : newer ∈ history.settled) (valid : history.Valid newer)
    {later : List (Call Device Id)} (all : ∀ call ∈ later, call.key = key)
    (unsettled : .settle key generation ∉ later) :
    (later.foldl History.after history).InFlight generation ∧
      (later.foldl History.after history).Valid newer := by
  induction later generalizing history with
  | nil => exact ⟨flying, valid⟩
  | cons call later ih =>
    rw [mem_cons, not_or] at unsettled
    rw [forall_mem_cons] at all
    obtain ⟨still, kept, valid⟩ := History.superseded_after flying settled valid call all.1
      (Ne.symm unsettled.1)
    exact ih still kept valid all.2 unsettled.2

/-- Withdrawing some shows leaves the others in flight and valid. -/
theorem History.withdrawn_all {Device Id : Type} (key : Device × Id) (withdrawals : List Nat)
    (history : History) (other : Nat) :
    let after := (withdrawals.map (Call.withdraw key)).foldl History.after history
    (after.InFlight other ↔ history.InFlight other) ∧ (after.Valid other ↔
        history.Valid other ∧ ¬ (history.InFlight other ∧ other ∈ withdrawals)) := by
  induction withdrawals generalizing history with
  | nil => simp
  | cons first rest ih =>
    obtain ⟨flying, valid⟩ := ih (history.withdraw first)
    rw [inFlight_withdraw] at flying valid
    refine ⟨flying, valid.trans ?_⟩
    by_cases still : history.InFlight first
    · rw [valid_withdraw still, mem_cons]
      constructor
      · rintro ⟨⟨valid, apart⟩, kept⟩
        exact ⟨valid, fun ⟨flies, either⟩ => kept ⟨flies, either.resolve_left apart⟩⟩
      · rintro ⟨valid, kept⟩
        exact ⟨⟨valid, fun same => kept ⟨same ▸ still, Or.inl same⟩⟩,
          fun ⟨flies, member⟩ => kept ⟨flies, Or.inr member⟩⟩
    · have same : history.withdraw first = history := if_neg still
      rw [same, mem_cons]
      refine and_congr_right fun _ => not_congr (and_congr_right fun flies => ?_)
      exact (or_iff_right fun equal : other = first => still (equal ▸ flies)).symm

variable {Device Id : Type} [DecidableEq Device] [DecidableEq Id]

theorem historyOf_append (key : Device × Id) (calls later : List (Call Device Id)) :
    historyOf key (calls ++ later) =
      (later.filter fun call => call.key = key).foldl History.after (historyOf key calls) := by
  unfold historyOf
  rw [filter_append, foldl_append]

/-- After any calls, the newest valid show of an id may commit and no other valid one: not even once
the newest has settled, and the next newest as soon as every newer one has been withdrawn. -/
theorem newest_valid_show_commits (calls : List (Call Device Id)) (key : Device × Id) :
    let states := statesAfter calls
    let history := historyOf key calls
    (beginShow states key).2 = history.begun + 1 ∧
    (∀ generation, history.InFlight generation → generation ∉ history.withdrawn →
      (isLatest states key generation = true ↔
        ∀ newer, generation < newer → ¬ history.Valid newer)) ∧
    (∀ generation, history.InFlight generation → generation ∈ history.withdrawn →
      (isLatest states key generation = true ↔
        ∀ newer, generation < newer → ¬ history.Begun newer)) ∧
    (∀ first second, history.InFlight first → history.Valid first → history.InFlight second →
      history.Valid second → isLatest states key first = true →
      isLatest states key second = true → first = second) ∧
    (∀ older newer, older < newer → history.InFlight older → newer ∈ history.settled →
      history.Valid newer → ∀ later, .settle key older ∉ later →
        isLatest (statesAfter (calls ++ later)) key older = false) ∧
    (∀ generation, history.InFlight generation → history.Valid generation →
      (∀ newer, generation < newer → newer ∈ history.settled → ¬ history.Valid newer) →
      ∀ withdrawals : List Nat, (∀ withdrawn ∈ withdrawals, generation < withdrawn) →
        (∀ newer, generation < newer → history.Valid newer → newer ∈ withdrawals) →
        isLatest (statesAfter (calls ++ withdrawals.map (.withdraw key))) key generation =
          true) := by
  intro states history
  have follows : Follows (get? states key) history := follows_run calls key
  refine ⟨?_, ?_, ?_, ?_, ?_, ?_⟩
  · unfold beginShow
    cases found : get? states key with
    | none =>
      rw [found] at follows
      exact congrArg (·.begun + 1) (Eq.symm follows)
    | some state =>
      rw [found] at follows
      exact congrArg (· + 1) follows.1.issued
  · intro generation flying valid
    rw [isLatest_of_follows follows flying, if_neg valid]
  · intro generation flying withdrawn
    rw [isLatest_of_follows follows flying, if_pos withdrawn]
  · intro first second flyingFirst validFirst flyingSecond validSecond latestFirst latestSecond
    rw [isLatest_of_follows follows flyingFirst, if_neg validFirst.2] at latestFirst
    rw [isLatest_of_follows follows flyingSecond, if_neg validSecond.2] at latestSecond
    rcases Nat.lt_trichotomy first second with below | same | above
    · exact absurd validSecond (latestFirst second below)
    · exact same
    · exact absurd validFirst (latestSecond first above)
  · intro older newer below flying settled valid later unsettled
    have after := follows_run (calls ++ later) key
    have kept : (historyOf key (calls ++ later)).InFlight older ∧
        (historyOf key (calls ++ later)).Valid newer := by
      rw [historyOf_append]
      apply History.superseded_later flying settled valid
      · intro call member
        simpa using (mem_filter.mp member).2
      · exact fun member => unsettled (mem_filter.mp member).1
    rw [Bool.eq_false_iff, ne_eq, isLatest_of_follows after kept.1]
    split
    · exact fun none => none newer below kept.2.1
    · exact fun none => none newer below kept.2
  · intro generation flying valid unsettled withdrawals above all
    have after := follows_run (calls ++ withdrawals.map (.withdraw key)) key
    have ours : (withdrawals.map (Call.withdraw key)).filter (fun call => call.key = key) =
        withdrawals.map (Call.withdraw key) := by
      rw [filter_eq_self]
      intro call member
      obtain ⟨withdrawn, -, rfl⟩ := mem_map.mp member
      simp [Call.key]
    rw [historyOf_append, ours] at after
    have left (other : Nat) := History.withdrawn_all key withdrawals history other
    have still := (left generation).1.mpr flying
    have kept := (left generation).2.mpr
      ⟨valid, fun ⟨_, member⟩ => Nat.lt_irrefl _ (above generation member)⟩
    rw [isLatest_of_follows after still, if_neg kept.2]
    intro newer newerAbove newerValid
    obtain ⟨before, unwithdrawn⟩ := (left newer).2.mp newerValid
    refine unwithdrawn ⟨⟨before.1, fun settled => ?_⟩, all newer newerAbove before⟩
    exact unsettled newer newerAbove settled before

/-- The second show settles as valid: the first one comes too late, whatever follows. -/
example : let calls : List (Call Unit Unit) :=
      [.begin ((), ()), .begin ((), ()), .begin ((), ()), .settle ((), ()) 2, .withdraw ((), ()) 3]
    isLatest (statesAfter calls) ((), ()) 1 = false := by
  decide

end Commits

end AutoMobile.CommitGenerations
