import AutoMobile.CoordinatorCleanup

/- The barrier of the coordinator is a rendezvous: the history of a key in any
run with one registered count is a valid rendezvous history. -/
namespace AutoMobile.CriticalSection

open Coordinator List RendezvousHistory

variable {κ δ M : Type} [DecidableEq κ] [DecidableEq δ]

section Withdrawals

variable {ops : MutexOps M} {count : Nat} {key : κ} {st : Coordinator κ δ M}
  {history : List (Note δ)}

/-- A rejection, of whichever call, is one withdrawal or nothing. -/
theorem BarrierInv.rejected (inv : BarrierInv count key st history) (shape : Shape st) (id : Nat) :
    BarrierInv count key (st.reject id).1 (history ++ historyOf key (st.reject id).2) := by
  by_cases parked : ∃ call set, st.calls id = some call ∧ call.phase = .waiting set
  · obtain ⟨call, set, found, phase⟩ := parked
    obtain ⟨notes, -⟩ := reject_parked st found phase
    by_cases ofKey : call.key = key
    · rw [notes, ofKey, historyOf_cons_self, historyOf_nil]
      exact inv.reject found ofKey phase
    · rw [notes, historyOf_cons_other ofKey, historyOf_nil, append_nil]
      refine inv.same (sameKey_reject shape ?_)
      intro other found'
      cases found.symm.trans found'
      exact ofKey
  · rw [reject_idle (fun call set found phase => parked ⟨call, set, found, phase⟩)]
    simpa using inv

theorem Shape.rejectAll (members : List (Waiter δ)) (shape : Shape st) :
    Shape (Coordinator.rejectAll members st).1 := by
  induction members generalizing st with
  | nil => exact shape
  | cons waiter rest ih => exact ih (shape.settles (settles_reject waiter.call))

/-- Rejecting everyone who waits empties the barrier. -/
theorem BarrierInv.rejectAll (members : List (Waiter δ)) (inv : BarrierInv count key st history)
    (shape : Shape st) (everyone : waiting history = members) :
    BarrierInv count key (Coordinator.rejectAll members st).1
        (history ++ historyOf key (Coordinator.rejectAll members st).2) ∧
      waiting (history ++ historyOf key (Coordinator.rejectAll members st).2) = [] := by
  induction members generalizing st history with
  | nil => simpa [Coordinator.rejectAll, everyone] using inv
  | cons waiter rest ih =>
    obtain ⟨call, set, found, ofKey, device, phase, -⟩ :=
      inv.parked waiter (everyone ▸ mem_cons_self)
    obtain ⟨notes, -⟩ := reject_parked st found phase
    have note : historyOf key (st.reject waiter.call).2 = [.withdrawn waiter] := by
      rw [notes, ofKey, device, historyOf_cons_self, historyOf_nil]
    have rejected := inv.rejected shape waiter.call
    rw [note] at rejected
    have others : waiting (history ++ [.withdrawn waiter]) = rest := by
      have apart := inv.valid.waiting_nodup.2
      rw [everyone, map_cons, nodup_cons] at apart
      rw [waiting_snoc, everyone]
      simp only [Note.apply, ne_eq, decide_not, filter_cons, decide_true, Bool.not_true,
        Bool.false_eq_true, ↓reduceIte, filter_eq_self, Bool.not_eq_eq_eq_not,
        decide_eq_false_iff_not]
      intro other member same
      exact apart.1 (mem_map.mpr ⟨other, member, same⟩)
    have later := ih rejected (shape.settles (settles_reject waiter.call)) others
    simpa only [Coordinator.rejectAll, historyOf_append, note, append_assoc] using later

/-- Rejecting the waiters of another key. -/
theorem sameKey_rejectAll (members : List (Waiter δ)) (shape : Shape st)
    (apart : ∀ waiter ∈ members, ∀ call, st.calls waiter.call = some call → call.key ≠ key) :
    SameKey key st (Coordinator.rejectAll members st).1 ∧
      historyOf key (Coordinator.rejectAll members st).2 = [] := by
  induction members generalizing st with
  | nil => exact ⟨(Quiet.refl key st).1, rfl⟩
  | cons waiter rest ih =>
    have settles : Settles st (st.reject waiter.call).1 := settles_reject waiter.call
    have outside := apart waiter mem_cons_self
    have first := sameKey_reject shape outside
    have apart' : ∀ other ∈ rest, ∀ call, (st.reject waiter.call).1.calls other.call =
        some call → call.key ≠ key := by
      intro other member later found'
      have same := settles.keys other.call
      rw [found'] at same
      obtain ⟨call, found, ofKey⟩ := Option.map_eq_some_iff.mp same.symm
      have ofKey : call.key = later.key := ofKey
      exact ofKey ▸ apart other (mem_cons_of_mem _ member) call found
    obtain ⟨second, quiet⟩ := ih (shape.settles settles) apart'
    refine ⟨first.trans second, ?_⟩
    simp only [Coordinator.rejectAll, historyOf_append, quiet, append_nil]
    by_cases parked : ∃ call set, st.calls waiter.call = some call ∧ call.phase = .waiting set
    · obtain ⟨call, set, found, phase⟩ := parked
      rw [(reject_parked st found phase).1, historyOf_cons_other (outside call found),
        historyOf_nil]
    · rw [reject_idle (fun call set found phase => parked ⟨call, set, found, phase⟩), historyOf_nil]

theorem BarrierInv.forceCleanup (inv : BarrierInv count key st history) (shape : Shape st)
    (name : κ) : BarrierInv count key (st.forceCleanup name).1
      (history ++ historyOf key (st.forceCleanup name).2) := by
  unfold Coordinator.forceCleanup
  by_cases same : name = key
  · subst same
    rw [inv.waiters]
    obtain ⟨rejected, empty⟩ := inv.rejectAll (waiting history) shape rfl
    exact rejected.deleteKey empty
  · have apart : ∀ waiter ∈ st.waiters name, ∀ call, st.calls waiter.call = some call →
        call.key ≠ key := by
      intro waiter member call found ofKey
      obtain ⟨call', found', ofName⟩ := shape.parked_key name waiter member
      cases found.symm.trans found'
      exact same (ofName.symm.trans ofKey)
    obtain ⟨kept, quiet⟩ := sameKey_rejectAll (st.waiters name) shape apart
    dsimp only
    rw [quiet, append_nil]
    exact inv.same (kept.trans (sameKey_deleteKey same))

omit [DecidableEq δ] in
/-- The delayed cleanup of a running generation never finds its barrier occupied. -/
theorem BarrierInv.cleanup (inv : BarrierInv count key st history) (aged : Aged key st)
    (name : κ) : BarrierInv count key (st.cleanup name) history := by
  unfold Coordinator.cleanup
  split
  · exact inv
  · rename_i generation pending
    split
    · exact inv.same (quiet_clearCleanup name).1
    · rename_i current
      by_cases same : name = key
      · subst same
        refine inv.deleteKey ?_
        by_contra waits
        have fresh := aged.fresh (inv.waiters ▸ waits)
        have older := fresh.pending generation pending
        omega
      · exact inv.same (sameKey_deleteKey same)

end Withdrawals

/-- Everything a run keeps about one key. -/
structure Tracked (count : Nat) (key : κ) (st : Coordinator κ δ M) (history : List (Note δ)) :
    Prop where
  shape : Shape st
  aged : Aged key st
  barrier : BarrierInv count key st history

section Steps

variable {ops : MutexOps M} {count : Nat} {key : κ} {st : Coordinator κ δ M}
  {history : List (Note δ)}

omit [DecidableEq κ] [DecidableEq δ] in
theorem Tracked.quiet (tracked : Tracked count key st history) {next : Coordinator κ δ M}
    (quiet : Quiet key st next) (ages : Ages key st next) :
    Tracked count key next history where
  shape := tracked.shape.settles quiet.2
  aged := tracked.aged.ages ages
  barrier := tracked.barrier.same quiet.1

omit [DecidableEq δ] in
theorem Tracked.registerExpectedDevices (tracked : Tracked count key st history) {name : κ}
    {deviceCount : Nat} (agreed : name = key → deviceCount = count) :
    Tracked count key (st.registerExpectedDevices ops name deviceCount) history where
  shape := tracked.shape.registerExpectedDevices name deviceCount
  aged := tracked.aged.ages (ages_registerExpectedDevices name deviceCount)
  barrier := by
    by_cases same : name = key
    · rw [agreed same, same]
      exact tracked.barrier.registerExpectedDevices
    · exact tracked.barrier.same (sameKey_registerExpectedDevices tracked.shape same deviceCount)

theorem Tracked.waitAtBarrier (tracked : Tracked count key st history) (name : κ) (deviceId : δ)
    (kind : Kind) : Tracked count key (st.waitAtBarrier name deviceId kind).1
      (history ++ historyOf key (st.waitAtBarrier name deviceId kind).2) := by
  by_cases same : name = key
  · subst same
    exact ⟨tracked.shape.waitAtBarrier .., tracked.aged.waitAtBarrier tracked.barrier ..,
      tracked.barrier.waitAtBarrier tracked.shape ..⟩
  · obtain ⟨kept, silent⟩ := sameKey_waitAtBarrier tracked.shape same deviceId kind
    rw [silent, append_nil]
    exact ⟨tracked.shape.waitAtBarrier .., tracked.aged.ages
      (ages_waitAtBarrier tracked.shape same deviceId kind), tracked.barrier.same kept⟩

theorem Tracked.reject (tracked : Tracked count key st history) (id : Nat) :
    Tracked count key (st.reject id).1 (history ++ historyOf key (st.reject id).2) where
  shape := tracked.shape.settles (settles_reject id)
  aged := tracked.aged.ages (ages_reject id)
  barrier := tracked.barrier.rejected tracked.shape id

theorem Tracked.abort (tracked : Tracked count key st history) (id : Nat) :
    Tracked count key (st.abort id).1 (history ++ historyOf key (st.abort id).2) := by
  by_cases parked : ∃ call set, st.calls id = some call ∧ call.phase = .waiting set
  · obtain ⟨call, set, found, phase⟩ := parked
    have rejects : st.abort id = st.reject id := by simp [Coordinator.abort, found, phase]
    rw [rejects]
    exact tracked.reject id
  · cases found : st.calls id with
    | none => simpa [Coordinator.abort, found] using tracked
    | some call =>
      have free : ∀ set, call.phase ≠ .waiting set :=
        fun set phase => parked ⟨call, set, found, phase⟩
      obtain ⟨quiet, silent⟩ : Quiet key st (st.abort id).1 ∧ (st.abort id).2 = [] :=
        quiet_abort found free
      rw [silent, historyOf_nil, append_nil]
      exact tracked.quiet quiet (ages_abort id)

/-- One event, whatever it is, keeps the barrier of the key a rendezvous. -/
theorem Tracked.step (tracked : Tracked count key st history) (event : Event κ δ)
    (agreed : ∀ registered, event.registers = some registered → registered.1 = key →
      registered.2 = count) :
    Tracked count key (st.step ops event).1 (history ++ historyOf key (st.step ops event).2) := by
  cases event with
  | registerExpectedDevices name deviceCount =>
    simpa [Coordinator.step] using
      tracked.registerExpectedDevices (agreed (name, deviceCount) rfl)
  | enterCriticalSection name deviceId aborted =>
    simp only [Coordinator.step]
    split
    · simpa using tracked
    · exact (tracked.quiet (quiet_ensureLock name) (ages_ensureLock name)).waitAtBarrier ..
  | awaitBarrier name deviceId deviceCount aborted =>
    simp only [Coordinator.step]
    split
    · simpa using tracked
    · exact (tracked.registerExpectedDevices (agreed (name, deviceCount) rfl)).waitAtBarrier ..
  | proceed id =>
    have ages : Ages key st (st.proceed ops id) := ages_proceed id
    simpa [Coordinator.step] using tracked.quiet (quiet_proceed id) ages
  | acquired id =>
    have ages : Ages key st (st.acquired ops id) := ages_acquired id
    simpa [Coordinator.step] using tracked.quiet (quiet_acquired id) ages
  | abort id => exact tracked.abort id
  | timeout id => exact tracked.reject id
  | release id =>
    have ages : Ages key st (st.release ops id) := ages_release id
    simpa [Coordinator.step] using tracked.quiet (quiet_release id) ages
  | cleanup name =>
    simpa [Coordinator.step] using Tracked.mk (tracked.shape.cleanup name)
      (tracked.aged.ages (ages_cleanup name)) (tracked.barrier.cleanup tracked.aged name)
  | forceCleanup name =>
    exact ⟨(tracked.shape.rejectAll (st.waiters name)).settles (settles_deleteKey name),
      tracked.aged.ages (ages_forceCleanup name),
      tracked.barrier.forceCleanup tracked.shape name⟩

omit [DecidableEq κ] [DecidableEq δ] in
theorem tracked_initial (count : Nat) (key : κ) :
    Tracked count key (initial ops : Coordinator κ δ M) [] where
  shape := by constructor <;> simp [initial, waiters]
  aged := by constructor <;> simp [initial, waiters]
  barrier := by constructor <;> simp [initial, waiters, Valid.nil]

/-- The barrier of a key with one registered count, after any run. -/
theorem tracked_run (ops : MutexOps M) {events : List (Event κ δ)} (consistent : Consistent key count events) :
    Tracked count key (runFrom ops events).1 (historyOf key (runFrom ops events).2) := by
  have meets : Runs.Meets (Coordinator.step ops)
      (fun _ event => ∀ registered, event.registers = some registered → registered.1 = key →
        registered.2 = count) (initial ops) events :=
    Runs.Meets.of_forall _ (fun event member _ => consistent event member) _
  have kept := Runs.Meets.invariant (Coordinator.step ops)
    (fun (st : Coordinator κ δ M) past => Tracked count key st (historyOf key past))
    (fun st event past tracked agreed => by
      rw [historyOf_append]
      exact tracked.step event agreed)
    [] (tracked_initial count key) meets
  simpa using kept

end Steps

end AutoMobile.CriticalSection
