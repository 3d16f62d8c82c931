import AutoMobile.InsertionMap
import AutoMobile.ScriptText

/- `proxy/ReleaseEpochLedger`: which sessions the daemon released, at which release epoch,
kept while a call that forwarded the session or an acquisition is in flight. -/
namespace AutoMobile.ReleaseEpochLedger

open List hiding keys
open InsertionMap ScriptText

structure Ledger where
  epochCounter : Nat := 0
  /-- Epoch at which each tracked session was last released. -/
  releasedSessionEpochs : InsertionMap String Nat := []
  /-- Why each tracked session was released. -/
  releasedSessionReasons : InsertionMap String String := []
  /-- In-flight calls forwarding each session. -/
  activeReleaseEpochReferences : InsertionMap String Nat := []
  /-- In-flight session-acquiring calls by the epoch they started at. -/
  activeAcquisitionReleaseEpochs : InsertionMap Nat Nat := []
deriving DecidableEq, Repr

namespace Ledger

/-- Record that the daemon released a session; every release advances the epoch. -/
def recordSessionReleased (ledger : Ledger) (sessionUuid : String) (reason : Option String) : Ledger :=
  let normalizedSessionUuid := trim sessionUuid
  if normalizedSessionUuid = "" then ledger
  else
    let advanced := { ledger with epochCounter := ledger.epochCounter + 1 }
    if !has ledger.activeReleaseEpochReferences normalizedSessionUuid &&
        ledger.activeAcquisitionReleaseEpochs.isEmpty then advanced
    else
      let epochs := put ledger.releasedSessionEpochs normalizedSessionUuid advanced.epochCounter
      let reasons :=
        put ledger.releasedSessionReasons normalizedSessionUuid (reason.getD "released")
      { advanced with releasedSessionEpochs := epochs, releasedSessionReasons := reasons }

def retainReleaseEpochReference (ledger : Ledger) : Option String → Ledger
  | none => ledger
  | some sessionUuid =>
    if sessionUuid = "" then ledger
    else
      let references := (get? ledger.activeReleaseEpochReferences sessionUuid).getD 0 + 1
      { ledger with
        activeReleaseEpochReferences :=
          put ledger.activeReleaseEpochReferences sessionUuid references }

/-- An active acquisition started before the release. -/
def isReleaseNeededByActiveAcquisition (ledger : Ledger) (releasedAtEpoch : Nat) : Bool :=
  (keys ledger.activeAcquisitionReleaseEpochs).any fun acquisitionEpoch =>
    acquisitionEpoch < releasedAtEpoch

/-- Drop what is recorded about a session. -/
def forget (ledger : Ledger) (sessionUuid : String) : Ledger :=
  { ledger with
    releasedSessionEpochs := erase ledger.releasedSessionEpochs sessionUuid
    releasedSessionReasons := erase ledger.releasedSessionReasons sessionUuid }

def releaseReleaseEpochReference (ledger : Ledger) : Option String → Ledger
  | none => ledger
  | some sessionUuid =>
    if sessionUuid = "" then ledger
    else
      let references := ((get? ledger.activeReleaseEpochReferences sessionUuid).getD 0 : Int) - 1
      if 0 < references then
        { ledger with
          activeReleaseEpochReferences :=
            put ledger.activeReleaseEpochReferences sessionUuid references.toNat }
      else
        let dropped :=
          { ledger with
            activeReleaseEpochReferences := erase ledger.activeReleaseEpochReferences sessionUuid }
        match get? ledger.releasedSessionEpochs sessionUuid with
        | none => dropped.forget sessionUuid
        | some releasedAtEpoch =>
          if ledger.isReleaseNeededByActiveAcquisition releasedAtEpoch then dropped
          else dropped.forget sessionUuid

def retainAcquisitionReleaseEpoch (ledger : Ledger) (isSessionAcquisition : Bool) (epoch : Nat) :
    Ledger :=
  if !isSessionAcquisition then ledger
  else
    let references := (get? ledger.activeAcquisitionReleaseEpochs epoch).getD 0 + 1
    { ledger with
      activeAcquisitionReleaseEpochs := put ledger.activeAcquisitionReleaseEpochs epoch references }

/-- Drop the records that no call references and no acquisition needs. -/
def trimRecords (ledger : Ledger) : Ledger :=
  (ledger.releasedSessionEpochs.filter fun (sessionUuid, releasedAtEpoch) =>
    !has ledger.activeReleaseEpochReferences sessionUuid &&
      !ledger.isReleaseNeededByActiveAcquisition releasedAtEpoch).foldl
    (fun trimmed entry => trimmed.forget entry.1) ledger

def releaseAcquisitionReleaseEpoch (ledger : Ledger) (isSessionAcquisition : Bool) (epoch : Nat) :
    Ledger :=
  if !isSessionAcquisition then ledger
  else
    let references := ((get? ledger.activeAcquisitionReleaseEpochs epoch).getD 0 : Int) - 1
    let acquisitions :=
      if 0 < references then put ledger.activeAcquisitionReleaseEpochs epoch references.toNat
      else erase ledger.activeAcquisitionReleaseEpochs epoch
    { ledger with activeAcquisitionReleaseEpochs := acquisitions }.trimRecords

/-- Why the session was released after `forwardEpoch`, or none when it was not. -/
def sessionReleaseReasonSince (ledger : Ledger) (sessionUuid : String) (forwardEpoch : Nat) :
    Option String :=
  if (get? ledger.releasedSessionEpochs sessionUuid).getD 0 ≤ forwardEpoch then none
  else some ((get? ledger.releasedSessionReasons sessionUuid).getD "released")

/-- Drain the records of sessions at the close or reconnect boundary. -/
def clearReleaseRecords (ledger : Ledger) : Ledger :=
  { ledger with
    releasedSessionEpochs := []
    releasedSessionReasons := []
    activeReleaseEpochReferences := [] }

section Effects

variable (ledger : Ledger)

/-- A retained reference changes its count and nothing else. -/
theorem retain_spec (sessionUuid : Option String) :
    ∃ references, ledger.retainReleaseEpochReference sessionUuid =
        { ledger with activeReleaseEpochReferences := references } ∧
      ∀ uuid, get? references uuid = if sessionUuid = some uuid ∧ uuid ≠ "" then
          some ((get? ledger.activeReleaseEpochReferences uuid).getD 0 + 1)
        else get? ledger.activeReleaseEpochReferences uuid := by
  cases sessionUuid with
  | none => exact ⟨_, rfl, fun uuid => by simp⟩
  | some named =>
    unfold retainReleaseEpochReference
    dsimp only
    by_cases empty : named = ""
    · refine ⟨ledger.activeReleaseEpochReferences, by simp [empty], fun uuid => ?_⟩
      rw [if_neg]
      rintro ⟨same, proper⟩
      exact proper ((Option.some.inj same).symm.trans empty)
    · refine ⟨_, by rw [if_neg empty], fun uuid => ?_⟩
      rw [get?_put]
      by_cases same : named = uuid
      · subst same
        simp [empty]
      · simp [same]

/-- A dropped reference changes its count; with the last one the record goes, unless an
acquisition needs it. -/
theorem drop_spec (sessionUuid : Option String) (after : Ledger)
    (drop : after = ledger.releaseReleaseEpochReference sessionUuid) :
    after.epochCounter = ledger.epochCounter ∧
      after.activeAcquisitionReleaseEpochs = ledger.activeAcquisitionReleaseEpochs ∧
      ∀ uuid, if sessionUuid = some uuid ∧ uuid ≠ "" then
          if 1 < (get? ledger.activeReleaseEpochReferences uuid).getD 0 then
            get? after.activeReleaseEpochReferences uuid =
                some ((get? ledger.activeReleaseEpochReferences uuid).getD 0 - 1) ∧
              get? after.releasedSessionEpochs uuid = get? ledger.releasedSessionEpochs uuid ∧
              get? after.releasedSessionReasons uuid = get? ledger.releasedSessionReasons uuid
          else
            get? after.activeReleaseEpochReferences uuid = none ∧
              (get? after.releasedSessionEpochs uuid = none ∧
                  get? after.releasedSessionReasons uuid = none ∨
                get? after.releasedSessionEpochs uuid = get? ledger.releasedSessionEpochs uuid ∧
                  get? after.releasedSessionReasons uuid = get? ledger.releasedSessionReasons uuid ∧
                  ledger.activeAcquisitionReleaseEpochs ≠ [])
        else
          get? after.activeReleaseEpochReferences uuid =
              get? ledger.activeReleaseEpochReferences uuid ∧
            get? after.releasedSessionEpochs uuid = get? ledger.releasedSessionEpochs uuid ∧
            get? after.releasedSessionReasons uuid = get? ledger.releasedSessionReasons uuid := by
  subst drop
  cases sessionUuid with
  | none => exact ⟨rfl, rfl, fun uuid => by simp [releaseReleaseEpochReference]⟩
  | some named =>
    unfold releaseReleaseEpochReference
    dsimp only
    by_cases empty : named = ""
    · rw [if_pos empty]
      refine ⟨rfl, rfl, fun uuid => ?_⟩
      rw [if_neg]
      · exact ⟨rfl, rfl, rfl⟩
      · rintro ⟨same, proper⟩
        exact proper ((Option.some.inj same).symm.trans empty)
    · rw [if_neg empty]
      by_cases several : 1 < (get? ledger.activeReleaseEpochReferences named).getD 0
      · have positive : (0 : Int) <
            ((get? ledger.activeReleaseEpochReferences named).getD 0 : Int) - 1 := by omega
        have left : (((get? ledger.activeReleaseEpochReferences named).getD 0 : Int) - 1).toNat =
            (get? ledger.activeReleaseEpochReferences named).getD 0 - 1 := by omega
        rw [if_pos positive, left]
        refine ⟨rfl, rfl, fun uuid => ?_⟩
        by_cases same : named = uuid
        · subst same
          simp [empty, several]
        · simp [same, get?_put]
      · have last : ¬(0 : Int) <
            ((get? ledger.activeReleaseEpochReferences named).getD 0 : Int) - 1 := by omega
        rw [if_neg last]
        cases found : get? ledger.releasedSessionEpochs named with
        | none =>
          refine ⟨rfl, rfl, fun uuid => ?_⟩
          by_cases same : named = uuid
          · subst same
            simp [empty, several, forget, get?_erase]
          · simp [same, forget, get?_erase]
        | some released =>
          dsimp only
          split
          · rename_i needed
            refine ⟨rfl, rfl, fun uuid => ?_⟩
            have acquires : ledger.activeAcquisitionReleaseEpochs ≠ [] := by
              intro none
              simp [isReleaseNeededByActiveAcquisition, none, keys] at needed
            by_cases same : named = uuid
            · subst same
              simp [empty, several, get?_erase, acquires]
            · simp [same, get?_erase]
          · refine ⟨rfl, rfl, fun uuid => ?_⟩
            by_cases same : named = uuid
            · subst same
              simp [empty, several, forget, get?_erase]
            · simp [same, forget, get?_erase]

/-- Forgetting some sessions leaves the other records. -/
theorem get?_foldl_forget (entries : InsertionMap String Nat) (uuid : String) :
    get? (entries.foldl (fun trimmed entry => trimmed.forget entry.1) ledger).releasedSessionEpochs
        uuid = (if uuid ∈ keys entries then none else get? ledger.releasedSessionEpochs uuid) ∧
      get? (entries.foldl (fun trimmed entry => trimmed.forget entry.1) ledger).releasedSessionReasons
        uuid = (if uuid ∈ keys entries then none else get? ledger.releasedSessionReasons uuid) := by
  induction entries generalizing ledger with
  | nil => simp [keys]
  | cons entry rest ih =>
    obtain ⟨epochs, reasons⟩ := ih (ledger.forget entry.1)
    rw [foldl_cons, epochs, reasons]
    by_cases later : uuid ∈ keys rest
    · have here : uuid ∈ keys (entry :: rest) := mem_cons_of_mem _ later
      simp [later, here]
    · by_cases first : entry.1 = uuid
      · have here : uuid ∈ keys (entry :: rest) := by simp [keys, first]
        simp [later, here, forget, get?_erase, first]
      · have apart : uuid ∉ keys (entry :: rest) := by
          rw [keys, map_cons, mem_cons, not_or]
          exact ⟨fun same => first same.symm, later⟩
        simp [later, apart, forget, get?_erase, first]

theorem foldl_forget_rest (entries : InsertionMap String Nat) :
    (entries.foldl (fun trimmed entry => trimmed.forget entry.1) ledger).activeReleaseEpochReferences =
        ledger.activeReleaseEpochReferences ∧
      (entries.foldl (fun trimmed entry => trimmed.forget entry.1)
        ledger).activeAcquisitionReleaseEpochs = ledger.activeAcquisitionReleaseEpochs ∧
      (entries.foldl (fun trimmed entry => trimmed.forget entry.1) ledger).epochCounter =
        ledger.epochCounter := by
  induction entries generalizing ledger with
  | nil => exact ⟨rfl, rfl, rfl⟩
  | cons entry rest ih => exact ih (ledger.forget entry.1)

/-- Trimming drops records of releases and touches nothing else. -/
theorem trimRecords_rest :
    ledger.trimRecords.activeReleaseEpochReferences = ledger.activeReleaseEpochReferences ∧
      ledger.trimRecords.activeAcquisitionReleaseEpochs = ledger.activeAcquisitionReleaseEpochs ∧
      ledger.trimRecords.epochCounter = ledger.epochCounter :=
  ledger.foldl_forget_rest _

/-- Trimming keeps the records of referenced sessions, and else only those that an
acquisition needs. -/
theorem trimRecords_spec (uuid : String) : (get? ledger.trimRecords.releasedSessionEpochs uuid =
          get? ledger.releasedSessionEpochs uuid ∧
        get? ledger.trimRecords.releasedSessionReasons uuid =
          get? ledger.releasedSessionReasons uuid ∧
        ∀ epoch, get? ledger.releasedSessionEpochs uuid = some epoch →
          has ledger.activeReleaseEpochReferences uuid = true ∨
            ledger.activeAcquisitionReleaseEpochs ≠ []) ∨
      (get? ledger.trimRecords.releasedSessionEpochs uuid = none ∧
        get? ledger.trimRecords.releasedSessionReasons uuid = none ∧
        has ledger.activeReleaseEpochReferences uuid = false) := by
  unfold trimRecords
  obtain ⟨epochs, reasons⟩ := ledger.get?_foldl_forget
    (ledger.releasedSessionEpochs.filter fun (sessionUuid, releasedAtEpoch) =>
      !has ledger.activeReleaseEpochReferences sessionUuid &&
        !ledger.isReleaseNeededByActiveAcquisition releasedAtEpoch) uuid
  rw [epochs, reasons]
  split
  · rename_i stale
    obtain ⟨entry, inside, rfl⟩ := mem_map.mp stale
    have unreferenced := (mem_filter.mp inside).2
    simp only [Bool.and_eq_true, Bool.not_eq_true'] at unreferenced
    exact Or.inr ⟨rfl, rfl, unreferenced.1⟩
  · rename_i kept
    refine Or.inl ⟨rfl, rfl, fun epoch found => ?_⟩
    by_contra unwanted
    rw [not_or, not_not, Bool.not_eq_true] at unwanted
    refine kept (mem_map.mpr ⟨(uuid, epoch), mem_filter.mpr ⟨mem_of_get? found, ?_⟩, rfl⟩)
    simp [unwanted.1, isReleaseNeededByActiveAcquisition, unwanted.2, keys]

/-- A closed acquisition changes its count, and then the records are trimmed. -/
theorem releaseAcquisition_spec (epoch : Nat) :
    ∃ acquisitions, ledger.releaseAcquisitionReleaseEpoch true epoch =
        { ledger with activeAcquisitionReleaseEpochs := acquisitions }.trimRecords ∧
      ∀ other, get? acquisitions other = if epoch = other then
          if 1 < (get? ledger.activeAcquisitionReleaseEpochs epoch).getD 0 then
            some ((get? ledger.activeAcquisitionReleaseEpochs epoch).getD 0 - 1)
          else none
        else get? ledger.activeAcquisitionReleaseEpochs other := by
  refine ⟨_, rfl, fun other => ?_⟩
  by_cases several : 1 < (get? ledger.activeAcquisitionReleaseEpochs epoch).getD 0
  · rw [if_pos (by omega), get?_put, if_pos several]
    split
    · exact congrArg some (by omega)
    · rfl
  · rw [if_neg (by omega), get?_erase, if_neg several]

/-- A release advances the epoch, and is recorded for a session in use. -/
theorem record_spec {sessionUuid : String} (proper : trim sessionUuid ≠ "")
    (reason : Option String) (after : Ledger)
    (records : after = ledger.recordSessionReleased sessionUuid reason) :
    after.epochCounter = ledger.epochCounter + 1 ∧
      after.activeReleaseEpochReferences = ledger.activeReleaseEpochReferences ∧
      after.activeAcquisitionReleaseEpochs = ledger.activeAcquisitionReleaseEpochs ∧
      (after.releasedSessionEpochs = ledger.releasedSessionEpochs ∧
          after.releasedSessionReasons = ledger.releasedSessionReasons ∧
          has ledger.activeReleaseEpochReferences (trim sessionUuid) = false ∧
          ledger.activeAcquisitionReleaseEpochs = [] ∨
        after.releasedSessionEpochs =
            put ledger.releasedSessionEpochs (trim sessionUuid) (ledger.epochCounter + 1) ∧
          after.releasedSessionReasons =
            put ledger.releasedSessionReasons (trim sessionUuid) (reason.getD "released") ∧
          (has ledger.activeReleaseEpochReferences (trim sessionUuid) = true ∨
            ledger.activeAcquisitionReleaseEpochs ≠ [])) := by
  subst records
  unfold recordSessionReleased
  dsimp only
  rw [if_neg proper]
  split
  · rename_i unused
    simp only [Bool.and_eq_true, Bool.not_eq_true', List.isEmpty_iff] at unused
    exact ⟨rfl, rfl, rfl, Or.inl ⟨rfl, rfl, unused⟩⟩
  · rename_i used
    refine ⟨rfl, rfl, rfl, Or.inr ⟨rfl, rfl, ?_⟩⟩
    by_contra neither
    rw [not_or, not_not, Bool.not_eq_true] at neither
    exact used (by simp [neither.1, neither.2])

end Effects

end Ledger

end AutoMobile.ReleaseEpochLedger
