import AutoMobile.SessionBrokerOwnership

/- The configured limits hold over every history, with evicted devices counted until their
destruction is confirmed. -/
namespace AutoMobile.SessionBroker

open InsertionMap

variable {Parameters Profile : Type}

/-- The limits that a transaction brings along, if it reserves anything. -/
def Transaction.limits : Transaction Parameters Profile → Option BrokerLimits
  | .call issued => issued.operation.limits
  | .pruneTerminalRequests .. => none

/-- The transaction confirms that a device is gone. -/
def Transaction.confirms : Transaction Parameters Profile → Bool
  | .call issued => issued.operation.confirms
  | .pruneTerminalRequests .. => false

/-- Every live resource is still there, and live. -/
def LiveKept (before after : Store Parameters Profile) : Prop :=
  ∀ resourceId resource, get? before.resources resourceId = some resource →
    resource.state ≠ .destroyed →
    ∃ later, get? after.resources resourceId = some later ∧ later.state ≠ .destroyed

theorem LiveKept.refl (store : Store Parameters Profile) : LiveKept store store :=
  fun _ resource found live => ⟨resource, found, live⟩

theorem LiveKept.trans {first second third : Store Parameters Profile}
    (one : LiveKept first second) (other : LiveKept second third) : LiveKept first third := by
  intro resourceId resource found live
  obtain ⟨later, there, still⟩ := one resourceId resource found live
  exact other resourceId later there still

variable {limits : BrokerLimits} {after store : Store Parameters Profile}

theorem Changes.liveKept {before : Store Parameters Profile}
    (changes : Changes limits before after) : LiveKept before after := by
  induction changes with
  | refl => exact LiveKept.refl before
  | tail _ change ih => exact ih.trans fun _ _ found live => change.live found live

theorem empty_capped (limits : BrokerLimits) : Capped limits ({} : Store Parameters Profile) where
  devices := fun _ _ => Nat.zero_le _
  sessions := fun _ _ => Nat.zero_le _

theorem Transaction.keeps (owned : Owned store) (transaction : Transaction Parameters Profile)
    (limited : ∀ own, transaction.limits = some own → own = limits) :
    Owned (transaction.commit store) ∧
      (Capped limits store → Capped limits (transaction.commit store)) := by
  cases transaction with
  | call issued =>
    have steps : Steps limits store (issued.commit store) := issued.steps owned limited
    exact ⟨steps.owned owned, steps.capped owned⟩
  | pruneTerminalRequests now retentionMs exportRetentionMs limit =>
    unfold Transaction.commit
    dsimp only
    split
    · rename_i after done
      exact pruneTerminalRequests_keeps owned done
    · exact ⟨owned, id⟩

theorem runAll_keeps (owned : Owned store) {transactions : List (Transaction Parameters Profile)}
    (limited : ∀ transaction ∈ transactions, ∀ own, transaction.limits = some own → own = limits) :
    Owned (runAll store transactions) ∧
      (Capped limits store → Capped limits (runAll store transactions)) := by
  induction transactions generalizing store with
  | nil => exact ⟨owned, id⟩
  | cons transaction rest ih =>
    obtain ⟨stays, capped⟩ := transaction.keeps owned (limited transaction List.mem_cons_self)
    obtain ⟨last, kept⟩ := ih stays fun other member =>
      limited other (List.mem_cons_of_mem _ member)
    exact ⟨last, fun start => kept (capped start)⟩

/-- Pruning drops no live resource. -/
theorem pruneTerminalRequests_liveKept {now retentionMs exportRetentionMs limit : Nat}
    (owned : Owned store)
    (done : pruneTerminalRequests now store retentionMs exportRetentionMs limit = .ok after) :
    LiveKept store after := by
  unfold pruneTerminalRequests at done
  split at done
  · cases done
  · obtain rfl := Except.ok.inj done
    have kept : Owned (deleteReceipts (stampAll now store) (expiredReceipts now retentionMs
        exportRetentionMs limit (stampAll now store))) :=
      deleteReceipts_owned owned
        (expiredReceipts_expired owned retentionMs exportRetentionMs limit)
    obtain ⟨keep, buried⟩ := deleteUnreferencedTombstones_buried
    intro resourceId resource found live
    have unlinked : get? (deleteReceipts (stampAll now store) (expiredReceipts now retentionMs
        exportRetentionMs limit (stampAll now store))).resources resourceId =
        some (unlink (expiredReceipts now retentionMs exportRetentionMs limit
          (stampAll now store)) resource) := by
      rw [get?_deleteReceipts_resources, found]
      rfl
    exact ⟨_, Buried.keeps buried kept unlinked (Or.inl (by simpa using live)), by simpa using live⟩

/-- Only a confirmed destruction ends a live resource. -/
theorem Transaction.liveKept (owned : Owned store) (transaction : Transaction Parameters Profile)
    (other : transaction.confirms = false) :
    LiveKept store (transaction.commit store) := by
  cases transaction with
  | call issued =>
    obtain ⟨host, surroundings, operation⟩ := issued
    unfold Transaction.commit Call.commit
    dsimp only
    split
    · rename_i after done
      have changes : Changes (operation.limits.getD {}) store after :=
        Operation.changes owned (fun own brings => by rw [brings]; rfl) other done
      exact changes.liveKept
    · exact LiveKept.refl store
  | pruneTerminalRequests now retentionMs exportRetentionMs limit =>
    unfold Transaction.commit
    dsimp only
    split
    · rename_i after done
      exact pruneTerminalRequests_liveKept owned done
    · exact LiveKept.refl store

/-- A request that is refused records its refusal, which occupies nothing. -/
theorem onlyRefused_of_refusal {host : BrokerHost Parameters} {surroundings : Surroundings}
    {input : BrokerAdmissionInput Parameters Profile} {reason : AdmissionRefusalReason}
    (owned : Owned store)
    (refused : admitRequest host surroundings store input = .ok (after, .refused reason) ∨
      continueAdmission host surroundings store input = .ok (after, .refused reason)) :
    OnlyRefused surroundings store after input.requestId reason := by
  rcases refused with admits | continues
  · exact (admitRequest_change owned admits).2 reason rfl
  · exact (continueAdmission_change owned continues).2 reason rfl

/-- Under fixed limits the live devices and the counted sessions stay within them after
every transaction; an evicted device counts until its destruction is confirmed; and a
refusal writes nothing but its receipt. -/
theorem capacity_kept {limits : BrokerLimits} {transactions : List (Transaction Parameters Profile)}
    (fixed : ∀ transaction ∈ transactions, ∀ own, transaction.limits = some own → own = limits) :
    Capped limits (runAll {} transactions) ∧
      (∀ transaction : Transaction Parameters Profile, transaction.confirms = false →
        LiveKept (runAll {} transactions) (transaction.commit (runAll {} transactions))) ∧
      ∀ (host : BrokerHost Parameters) (surroundings : Surroundings)
        (input : BrokerAdmissionInput Parameters Profile) (after : Store Parameters Profile)
        (reason : AdmissionRefusalReason),
        admitRequest host surroundings (runAll {} transactions) input = .ok (after, .refused reason) ∨
          continueAdmission host surroundings (runAll {} transactions) input =
            .ok (after, .refused reason) →
        OnlyRefused surroundings (runAll {} transactions) after input.requestId reason := by
  obtain ⟨owned, capped⟩ := runAll_keeps Owned.empty fixed
  exact ⟨capped (empty_capped limits), fun transaction other => transaction.liveKept owned other,
    fun _ _ _ _ _ refused => onlyRefused_of_refusal owned refused⟩

section OneDevice

def oneDevice : BrokerLimits := { sessionCap := some 1, totalDeviceCap := some 1 }

/-- One request gets the only device, the next one is refused. -/
def oneDeviceCalls : List (Transaction Unit Unit) :=
  [.call (exampleCall (.admitRequest (exampleInput "first" "device" oneDevice none))),
   .call (exampleCall (.admitRequest (exampleInput "second" "other" oneDevice none)))]

theorem capacity_kept_one_device :
    sessionCount (runAll {} oneDeviceCalls) = 1 ∧ Capped oneDevice (runAll {} oneDeviceCalls) := by
  refine ⟨by decide +kernel, (capacity_kept ?_).1⟩
  intro transaction member own brings
  simp only [oneDeviceCalls, List.mem_cons, List.not_mem_nil, or_false] at member
  rcases member with rfl | rfl <;> exact (Option.some.inj brings).symm

/-- A refused admission leaves a receipt in the requests table. -/
theorem refused_admission_leaves_receipt :
    ¬∀ (transactions : List (Transaction Unit Unit)) (input : BrokerAdmissionInput Unit Unit)
        (after : Store Unit Unit) (reason : AdmissionRefusalReason),
      admitRequest exampleHost exampleSurroundings (runAll {} transactions) input =
        .ok (after, .refused reason) →
      after.requests = (runAll {} transactions).requests ∧
        after.resources = (runAll {} transactions).resources := by
  intro holds
  let noDevice : BrokerLimits := { totalDeviceCap := some 0 }
  have refused : (admitRequest exampleHost exampleSurroundings {}
      (exampleInput "first" "device" noDevice none)).toOption.map
        (fun result => (keys result.1.requests, result.2)) =
      some (["first"], .refused .totalDeviceCapReached) := by
    decide +kernel
  cases refuses : admitRequest exampleHost exampleSurroundings {}
      (exampleInput "first" "device" noDevice none) with
  | error message =>
    rw [refuses] at refused
    cases refused
  | ok result =>
    rw [refuses] at refused
    obtain ⟨written, outcome⟩ := Prod.mk.inj (Option.some.inj refused)
    obtain ⟨after, reason⟩ := result
    obtain rfl : reason = _ := outcome
    have same := (holds [] _ after _ refuses).1
    rw [same] at written
    cases written

end OneDevice

end AutoMobile.SessionBroker
