import AutoMobile.ReleaseEpochLedger
import AutoMobile.Runs

/- Calls and acquisitions come and go while sessions are released and the records are
cleared; what a call in flight then learns from the ledger. -/
namespace AutoMobile.ReleaseEpochLedger

open InsertionMap ScriptText

/-- A call in flight: the session it forwarded and the epoch it captured. -/
structure ForwardedCall where
  sessionUuid : Option String
  releaseEpoch : Nat
deriving DecidableEq, Repr

/-- The ledger with the calls and acquisitions in flight, and every release since the
records were last cleared. -/
structure World where
  ledger : Ledger := {}
  calls : InsertionMap Nat ForwardedCall := []
  acquisitions : InsertionMap Nat Nat := []
  releases : List (String × Nat) := []
deriving DecidableEq, Repr

inductive Event where
  | openCall (call : Nat) (sessionUuid : Option String)
  | closeCall (call : Nat)
  | openAcquisition (acquisition epoch : Nat)
  | closeAcquisition (acquisition : Nat)
  | release (sessionUuid : String) (reason : Option String)
  | clear
deriving DecidableEq, Repr

/-- What a call does to the ledger when it is forwarded and when it ends, an acquisition when
it starts and ends, and what the daemon's notifications and a close do. -/
def step (world : World) : Event → World × List Unit
  | .openCall call sessionUuid =>
    if has world.calls call then (world, [])
    else
      let ledger := world.ledger.retainReleaseEpochReference sessionUuid
      let calls := put world.calls call ⟨sessionUuid, ledger.epochCounter⟩
      ({ world with ledger := ledger, calls := calls }, [])
  | .closeCall call =>
    match get? world.calls call with
    | none => (world, [])
    | some forwarded =>
      let ledger := world.ledger.releaseReleaseEpochReference forwarded.sessionUuid
      ({ world with ledger := ledger, calls := erase world.calls call }, [])
  | .openAcquisition acquisition epoch =>
    if has world.acquisitions acquisition then (world, [])
    else
      let ledger := world.ledger.retainAcquisitionReleaseEpoch true epoch
      ({ world with
        ledger := ledger, acquisitions := put world.acquisitions acquisition epoch }, [])
  | .closeAcquisition acquisition =>
    match get? world.acquisitions acquisition with
    | none => (world, [])
    | some epoch =>
      let ledger := world.ledger.releaseAcquisitionReleaseEpoch true epoch
      ({ world with ledger := ledger, acquisitions := erase world.acquisitions acquisition }, [])
  | .release sessionUuid reason =>
    let ledger := world.ledger.recordSessionReleased sessionUuid reason
    let releases :=
      if trim sessionUuid = "" then world.releases
      else world.releases ++ [(trim sessionUuid, ledger.epochCounter)]
    ({ world with ledger := ledger, releases := releases }, [])
  | .clear => ({ world with ledger := world.ledger.clearReleaseRecords, releases := [] }, [])

/-- The calls in flight that reference a session. -/
def referenced (world : World) (uuid : String) : Nat :=
  world.calls.countP fun entry => entry.2.sessionUuid = some uuid

/-- A call in flight gets a reason exactly when its session was released after the epoch it
captured, since the last clear. -/
def SeesReleases (world : World) (uuid : String) : Prop :=
  ∀ call epoch, get? world.calls call = some ⟨some uuid, epoch⟩ →
    ((world.ledger.sessionReleaseReasonSince uuid epoch).isSome ↔
      ∃ released, (uuid, released) ∈ world.releases ∧ epoch < released)

/-- What a call in flight is told does not change when another call ends. -/
def OutlastsOthers (world : World) (uuid : String) : Prop :=
  ∀ call epoch other, get? world.calls call = some ⟨some uuid, epoch⟩ → other ≠ call →
    (step world (.closeCall other)).1.ledger.sessionReleaseReasonSince uuid epoch =
      world.ledger.sessionReleaseReasonSince uuid epoch

/-- Without acquisitions, nothing is kept about a session that no call references. -/
def KeepsNothingIdle (world : World) : Prop :=
  ∀ uuid, referenced world uuid = 0 → world.acquisitions = [] →
    get? world.ledger.releasedSessionEpochs uuid = none ∧
      get? world.ledger.releasedSessionReasons uuid = none ∧
      get? world.ledger.activeReleaseEpochReferences uuid = none

/-- The records are cleared only while no call in flight references the session. -/
def ClearedIdle (uuid : String) (world : World) (event : Event) : Prop :=
  event = .clear → referenced world uuid = 0

/-- What holds of the ledger whatever is cleared. -/
structure Sound (world : World) : Prop where
  callKeys : (keys world.calls).Nodup
  acquisitionKeys : (keys world.acquisitions).Nodup
  counted : ∀ uuid count, get? world.ledger.activeReleaseEpochReferences uuid = some count →
    uuid ≠ "" ∧ 0 < count ∧ count ≤ referenced world uuid
  acquiring : ∀ epoch count, get? world.ledger.activeAcquisitionReleaseEpochs epoch = some count →
    0 < count ∧ count ≤ world.acquisitions.countP fun entry => entry.2 = epoch
  latest : ∀ uuid epoch, get? world.ledger.releasedSessionEpochs uuid = some epoch →
    (uuid, epoch) ∈ world.releases ∧ ∀ other, (uuid, other) ∈ world.releases → other ≤ epoch
  wanted : ∀ uuid epoch, get? world.ledger.releasedSessionEpochs uuid = some epoch →
    has world.ledger.activeReleaseEpochReferences uuid = true ∨
      world.ledger.activeAcquisitionReleaseEpochs ≠ []
  reasons : ∀ uuid, get? world.ledger.releasedSessionEpochs uuid = none →
    get? world.ledger.releasedSessionReasons uuid = none
  past : ∀ uuid epoch, (uuid, epoch) ∈ world.releases →
    uuid ≠ "" ∧ epoch ≤ world.ledger.epochCounter

/-- What holds for one session while it is never cleared in use. -/
structure Exact (world : World) (uuid : String) : Prop where
  count : uuid ≠ "" →
    (get? world.ledger.activeReleaseEpochReferences uuid).getD 0 = referenced world uuid
  seen : ∀ call epoch released, get? world.calls call = some ⟨some uuid, epoch⟩ →
    (uuid, released) ∈ world.releases → epoch < released →
    get? world.ledger.releasedSessionEpochs uuid ≠ none

theorem Exact.seesReleases {world : World} {uuid : String} (exact : Exact world uuid)
    (sound : Sound world) : SeesReleases world uuid := by
  intro call epoch inFlight
  unfold Ledger.sessionReleaseReasonSince
  constructor
  · intro told
    split at told
    · cases told
    · rename_i later
      cases found : get? world.ledger.releasedSessionEpochs uuid with
      | none =>
        rw [found] at later
        exact absurd (Nat.zero_le epoch) later
      | some released =>
        rw [found] at later
        exact ⟨released, (sound.latest uuid released found).1, Nat.lt_of_not_le later⟩
  · rintro ⟨released, there, later⟩
    have kept := exact.seen call epoch released inFlight there later
    obtain ⟨last, found⟩ := Option.ne_none_iff_exists'.mp kept
    have newest := (sound.latest uuid last found).2 released there
    rw [found, if_neg (by simp; omega)]
    rfl

section OneStep

variable {world : World}

theorem Sound.empty : Sound {} where
  callKeys := nodup_keys_nil
  acquisitionKeys := nodup_keys_nil
  counted := fun _ _ found => by cases found
  acquiring := fun _ _ found => by cases found
  latest := fun _ _ found => by cases found
  wanted := fun _ _ found => by cases found
  reasons := fun _ _ => rfl
  past := fun _ _ member => by cases member

theorem Exact.empty (uuid : String) : Exact {} uuid where
  count := fun _ => rfl
  seen := fun _ _ _ found => by cases found

variable {call : Nat} {ledger : Ledger}

/-- A new call references its session, and its epoch is after every release. -/
theorem openCall_sound (sound : Sound world) (fresh : has world.calls call = false)
    {sessionUuid : Option String}
    (retains : ledger = world.ledger.retainReleaseEpochReference sessionUuid) (epoch : Nat) :
    Sound { world with ledger := ledger, calls := put world.calls call ⟨sessionUuid, epoch⟩ } := by
  obtain ⟨references, same, counts⟩ := world.ledger.retain_spec sessionUuid
  rw [same] at retains
  subst retains
  have grown (uuid : String) := countP_put_of_fresh
    (fun entry : Nat × ForwardedCall => entry.2.sessionUuid = some uuid) sound.callKeys fresh
    ⟨sessionUuid, epoch⟩
  refine ⟨nodup_keys_put sound.callKeys _ _, sound.acquisitionKeys, fun uuid count found => ?_,
    sound.acquiring, sound.latest, fun uuid released found => ?_, sound.reasons, sound.past⟩
  · change get? references uuid = some count at found
    unfold referenced
    rw [grown]
    rw [counts] at found
    split at found
    · rename_i named
      obtain rfl := Option.some.inj found
      have before : (get? world.ledger.activeReleaseEpochReferences uuid).getD 0 ≤
          referenced world uuid := by
        cases known : get? world.ledger.activeReleaseEpochReferences uuid with
        | none => exact Nat.zero_le _
        | some count => exact (sound.counted uuid count known).2.2
      unfold referenced at before
      simp only [named.1, decide_true, if_true]
      exact ⟨named.2, by omega, by omega⟩
    · obtain ⟨proper, positive, before⟩ := sound.counted uuid count found
      unfold referenced at before
      exact ⟨proper, positive, by omega⟩
  · refine (sound.wanted uuid released found).imp_left fun known => ?_
    obtain ⟨count, there⟩ := (mem_keys_iff _ _).mp ((has_iff _ _).mp known)
    change has references uuid = true
    rw [has, counts]
    split <;> simp [there]

/-- A call that ends drops its reference. -/
theorem closeCall_sound (sound : Sound world) {forwarded : ForwardedCall}
    (known : get? world.calls call = some forwarded)
    (drops : ledger = world.ledger.releaseReleaseEpochReference forwarded.sessionUuid) :
    Sound { world with ledger := ledger, calls := erase world.calls call } := by
  obtain ⟨counter, acquisitions, effect⟩ := world.ledger.drop_spec forwarded.sessionUuid ledger drops
  have shrunk (uuid : String) := countP_erase_of_get?
    (fun entry : Nat × ForwardedCall => entry.2.sessionUuid = some uuid) sound.callKeys known
  have epochs (uuid : String) : get? ledger.releasedSessionEpochs uuid = none ∨
      get? ledger.releasedSessionEpochs uuid = get? world.ledger.releasedSessionEpochs uuid := by
    have here := effect uuid
    split at here
    · split at here
      · exact Or.inr here.2.1
      · exact here.2.imp And.left And.left
    · exact Or.inr here.2.1
  refine ⟨nodup_keys_erase sound.callKeys call, sound.acquisitionKeys, fun uuid count found => ?_,
    acquisitions ▸ sound.acquiring, fun uuid released found => ?_, fun uuid released found => ?_,
    fun uuid gone => ?_, counter ▸ sound.past⟩
  · have here := effect uuid
    have less := shrunk uuid
    unfold referenced
    split at here
    · rename_i named
      rw [if_pos (by simpa using named.1)] at less
      split at here
      · rename_i several
        rw [here.1] at found
        obtain rfl := Option.some.inj found
        have before : (get? world.ledger.activeReleaseEpochReferences uuid).getD 0 ≤
            referenced world uuid := by
          cases counted : get? world.ledger.activeReleaseEpochReferences uuid with
          | none => exact Nat.zero_le _
          | some count => exact (sound.counted uuid count counted).2.2
        unfold referenced at before
        exact ⟨named.2, by omega, by dsimp only; omega⟩
      · rw [here.1] at found
        cases found
    · rename_i unnamed
      rw [here.1] at found
      obtain ⟨proper, positive, before⟩ := sound.counted uuid count found
      unfold referenced at before
      rw [if_neg (by simpa using fun same => unnamed ⟨same, proper⟩)] at less
      exact ⟨proper, positive, by dsimp only; omega⟩
  · rcases epochs uuid with gone | same
    · rw [gone] at found
      cases found
    · exact sound.latest uuid released (same ▸ found)
  · have here := effect uuid
    dsimp only at found ⊢
    rw [acquisitions]
    split at here
    · split at here
      · exact Or.inl (by rw [has, here.1]; rfl)
      · rcases here.2 with ⟨gone, -⟩ | ⟨-, -, acquires⟩
        · rw [gone] at found
          cases found
        · exact Or.inr acquires
    · rw [here.2.1] at found
      rw [has, here.1]
      exact sound.wanted uuid released found
  · have here := effect uuid
    dsimp only at gone ⊢
    split at here
    · split at here
      · rw [here.2.2]
        exact sound.reasons uuid (here.2.1 ▸ gone)
      · rcases here.2 with ⟨-, none⟩ | ⟨same, reasons, -⟩
        · exact none
        · rw [reasons]
          exact sound.reasons uuid (same ▸ gone)
    · rw [here.2.2]
      exact sound.reasons uuid (here.2.1 ▸ gone)

theorem openAcquisition_sound (sound : Sound world) {acquisition : Nat}
    (fresh : has world.acquisitions acquisition = false) (epoch : Nat) :
    Sound { world with
      ledger := world.ledger.retainAcquisitionReleaseEpoch true epoch
      acquisitions := put world.acquisitions acquisition epoch } := by
  have grown (other : Nat) := countP_put_of_fresh
    (fun entry : Nat × Nat => entry.2 = other) sound.acquisitionKeys fresh epoch
  refine ⟨sound.callKeys, nodup_keys_put sound.acquisitionKeys _ _, sound.counted,
    fun other count found => ?_, sound.latest, fun uuid released found => ?_, sound.reasons,
    sound.past⟩
  · change get? (put world.ledger.activeAcquisitionReleaseEpochs epoch _) other = _ at found
    rw [grown]
    rcases of_get?_put found with ⟨rfl, rfl⟩ | ⟨_, found⟩
    · have before : (get? world.ledger.activeAcquisitionReleaseEpochs epoch).getD 0 ≤
          world.acquisitions.countP fun entry => entry.2 = epoch := by
        cases known : get? world.ledger.activeAcquisitionReleaseEpochs epoch with
        | none => exact Nat.zero_le _
        | some count => exact (sound.acquiring epoch count known).2
      simp only [decide_true, if_true]
      exact ⟨by omega, by omega⟩
    · obtain ⟨positive, before⟩ := sound.acquiring other count found
      exact ⟨positive, by omega⟩
  · exact (sound.wanted uuid released found).imp_right fun _ => put_ne_nil _ _ _

theorem closeAcquisition_sound (sound : Sound world) {acquisition epoch : Nat}
    (known : get? world.acquisitions acquisition = some epoch) :
    Sound { world with
      ledger := world.ledger.releaseAcquisitionReleaseEpoch true epoch
      acquisitions := erase world.acquisitions acquisition } := by
  have shrunk (other : Nat) := countP_erase_of_get?
    (fun entry : Nat × Nat => entry.2 = other) sound.acquisitionKeys known
  obtain ⟨acquisitions, same, counts⟩ := world.ledger.releaseAcquisition_spec epoch
  -- the ledger before its records are trimmed
  let dropped : Ledger := { world.ledger with activeAcquisitionReleaseEpochs := acquisitions }
  obtain ⟨trimmedReferences, trimmedAcquisitions, trimmedCounter⟩ := dropped.trimRecords_rest
  rw [same]
  change Sound { world with ledger := dropped.trimRecords, acquisitions := _ }
  refine ⟨sound.callKeys, nodup_keys_erase sound.acquisitionKeys _, ?_, ?_, ?_, ?_, ?_, ?_⟩
  · intro uuid count found
    change get? dropped.trimRecords.activeReleaseEpochReferences uuid = some count at found
    rw [trimmedReferences] at found
    exact sound.counted uuid count found
  · intro other count found
    change get? dropped.trimRecords.activeAcquisitionReleaseEpochs other = some count at found
    rw [trimmedAcquisitions] at found
    change get? acquisitions other = some count at found
    have less := shrunk other
    rw [counts] at found
    split at found
    · rename_i closed
      subst closed
      rw [if_pos (by simp)] at less
      split at found
      · rename_i several
        obtain rfl := Option.some.inj found
        cases counted : get? world.ledger.activeAcquisitionReleaseEpochs epoch with
        | none => simp [counted] at several
        | some total =>
          have bound := (sound.acquiring epoch total counted).2
          rw [counted, Option.getD_some] at several
          rw [Option.getD_some]
          exact ⟨by omega, by dsimp only; omega⟩
      · cases found
    · rename_i apart
      obtain ⟨positive, before⟩ := sound.acquiring other count found
      rw [if_neg (by simpa using apart)] at less
      exact ⟨positive, by dsimp only; omega⟩
  · intro uuid released found
    change get? dropped.trimRecords.releasedSessionEpochs uuid = some released at found
    rcases dropped.trimRecords_spec uuid with ⟨stays, -⟩ | ⟨gone, -⟩
    · rw [stays] at found
      exact sound.latest uuid released found
    · rw [gone] at found
      cases found
  · intro uuid released found
    change get? dropped.trimRecords.releasedSessionEpochs uuid = some released at found
    change has dropped.trimRecords.activeReleaseEpochReferences uuid = true ∨
      dropped.trimRecords.activeAcquisitionReleaseEpochs ≠ []
    rw [trimmedReferences, trimmedAcquisitions]
    rcases dropped.trimRecords_spec uuid with ⟨stays, -, wanted⟩ | ⟨gone, -⟩
    · exact wanted released (stays ▸ found)
    · rw [gone] at found
      cases found
  · intro uuid gone
    change get? dropped.trimRecords.releasedSessionEpochs uuid = none at gone
    change get? dropped.trimRecords.releasedSessionReasons uuid = none
    rcases dropped.trimRecords_spec uuid with ⟨stays, kept, -⟩ | ⟨-, none, -⟩
    · rw [kept]
      exact sound.reasons uuid (stays ▸ gone)
    · exact none
  · intro uuid released member
    change uuid ≠ "" ∧ released ≤ dropped.trimRecords.epochCounter
    rw [trimmedCounter]
    exact sound.past uuid released member

/-- A release is the latest one of its session, if it is recorded. -/
theorem release_sound (sound : Sound world) {sessionUuid : String} (proper : trim sessionUuid ≠ "")
    (reason : Option String)
    (records : ledger = world.ledger.recordSessionReleased sessionUuid reason) :
    Sound { world with
      ledger := ledger
      releases := world.releases ++ [(trim sessionUuid, ledger.epochCounter)] } := by
  obtain ⟨counter, references, acquisitions, effect⟩ :=
    world.ledger.record_spec proper reason ledger records
  refine ⟨sound.callKeys, sound.acquisitionKeys, references ▸ sound.counted,
    acquisitions ▸ sound.acquiring, ?_, ?_, ?_, ?_⟩
  · intro uuid released found
    dsimp only at found ⊢
    have older : get? world.ledger.releasedSessionEpochs uuid = some released →
        trim sessionUuid ≠ uuid →
        (uuid, released) ∈ world.releases ++ [(trim sessionUuid, ledger.epochCounter)] ∧
          ∀ other, (uuid, other) ∈ world.releases ++ [(trim sessionUuid, ledger.epochCounter)] →
            other ≤ released := by
      intro known apart
      obtain ⟨member, last⟩ := sound.latest uuid released known
      refine ⟨List.mem_append_left _ member, fun other there => ?_⟩
      rcases List.mem_append.mp there with old | new
      · exact last other old
      · exact absurd (Prod.mk.inj (List.mem_singleton.mp new)).1.symm apart
    rcases effect with ⟨epochs, -, unreferenced, idle⟩ | ⟨epochs, -, -⟩
    · rw [epochs] at found
      refine older found fun same => ?_
      -- a record of the session would be wanted by a call or an acquisition
      rcases sound.wanted uuid released found with used | acquires
      · rw [← same, unreferenced] at used
        cases used
      · exact acquires idle
    · rw [epochs] at found
      rcases of_get?_put found with ⟨rfl, rfl⟩ | ⟨apart, found⟩
      · rw [counter]
        refine ⟨List.mem_append_right _ (List.mem_singleton.mpr rfl), fun other there => ?_⟩
        rcases List.mem_append.mp there with old | new
        · have := (sound.past _ other old).2
          omega
        · exact Nat.le_of_eq (Prod.mk.inj (List.mem_singleton.mp new)).2
      · exact older found apart
  · intro uuid released found
    dsimp only at found ⊢
    rw [references, acquisitions]
    rcases effect with ⟨epochs, -⟩ | ⟨epochs, -, used⟩
    · rw [epochs] at found
      exact sound.wanted uuid released found
    · rw [epochs, get?_put] at found
      split at found
      · rename_i same
        exact same ▸ used
      · exact sound.wanted uuid released found
  · intro uuid gone
    dsimp only at gone ⊢
    rcases effect with ⟨epochs, reasons, -⟩ | ⟨epochs, reasons, -⟩
    · rw [reasons]
      exact sound.reasons uuid (epochs ▸ gone)
    · rw [epochs, get?_put] at gone
      rw [reasons, get?_put]
      split at gone
      · cases gone
      · rename_i apart
        rw [if_neg apart]
        exact sound.reasons uuid gone
  · intro uuid released member
    dsimp only at member ⊢
    rw [counter]
    rcases List.mem_append.mp member with old | new
    · obtain ⟨named, before⟩ := sound.past uuid released old
      exact ⟨named, by omega⟩
    · obtain ⟨rfl, rfl⟩ := Prod.mk.inj (List.mem_singleton.mp new)
      exact ⟨proper, Nat.le_of_eq counter⟩

theorem clear_sound (sound : Sound world) :
    Sound { world with ledger := world.ledger.clearReleaseRecords, releases := [] } where
  callKeys := sound.callKeys
  acquisitionKeys := sound.acquisitionKeys
  counted := fun _ _ found => by cases found
  acquiring := sound.acquiring
  latest := fun _ _ found => by cases found
  wanted := fun _ _ found => by cases found
  reasons := fun _ _ => rfl
  past := fun _ _ member => by cases member

/-- Every event keeps the ledger sound. -/
theorem Sound.step (sound : Sound world) (event : Event) :
    Sound (ReleaseEpochLedger.step world event).1 := by
  cases event with
  | openCall call sessionUuid =>
    unfold ReleaseEpochLedger.step
    dsimp only
    split
    · exact sound
    · rename_i fresh
      exact openCall_sound sound (by simpa using fresh) rfl _
  | closeCall call =>
    unfold ReleaseEpochLedger.step
    dsimp only
    split
    · exact sound
    · rename_i forwarded known
      exact closeCall_sound sound known rfl
  | openAcquisition acquisition epoch =>
    unfold ReleaseEpochLedger.step
    dsimp only
    split
    · exact sound
    · rename_i fresh
      exact openAcquisition_sound sound (by simpa using fresh) epoch
  | closeAcquisition acquisition =>
    unfold ReleaseEpochLedger.step
    dsimp only
    split
    · exact sound
    · rename_i epoch known
      exact closeAcquisition_sound sound known
  | release sessionUuid reason =>
    unfold ReleaseEpochLedger.step
    dsimp only
    split
    · rename_i blank
      rw [Ledger.recordSessionReleased]
      dsimp only
      rw [if_pos blank]
      exact sound
    · rename_i proper
      exact release_sound sound proper reason rfl
  | clear => exact clear_sound sound

variable {uuid : String}

/-- A call in flight keeps the reference of its session. -/
theorem Exact.has_reference (exact : Exact world uuid) (proper : uuid ≠ "") {epoch : Nat}
    (inFlight : get? world.calls call = some ⟨some uuid, epoch⟩) :
    has world.ledger.activeReleaseEpochReferences uuid = true := by
  have some_call : 0 < referenced world uuid :=
    List.countP_pos_iff.mpr ⟨_, mem_of_get? inFlight, by simp⟩
  have count := exact.count proper
  unfold has
  cases known : get? world.ledger.activeReleaseEpochReferences uuid with
  | none =>
    rw [known] at count
    exact absurd count.symm (Nat.ne_of_gt some_call)
  | some count => rfl

theorem openCall_exact (sound : Sound world) (exact : Exact world uuid)
    (fresh : has world.calls call = false) {sessionUuid : Option String}
    (retains : ledger = world.ledger.retainReleaseEpochReference sessionUuid) :
    Exact { world with
      ledger := ledger, calls := put world.calls call ⟨sessionUuid, ledger.epochCounter⟩ } uuid := by
  obtain ⟨references, same, counts⟩ := world.ledger.retain_spec sessionUuid
  rw [same] at retains
  subst retains
  have grown := countP_put_of_fresh
    (fun entry : Nat × ForwardedCall => entry.2.sessionUuid = some uuid) sound.callKeys fresh
    ⟨sessionUuid, world.ledger.epochCounter⟩
  refine ⟨fun proper => ?_, fun other epoch released inFlight member later => ?_⟩
  · have before := exact.count proper
    unfold referenced at before ⊢
    dsimp only
    rw [grown, counts, ← before]
    by_cases named : sessionUuid = some uuid
    · simp [named, proper]
    · simp [named]
  · dsimp only at inFlight member ⊢
    rw [get?_put] at inFlight
    split at inFlight
    · -- every release so far is before the new call
      obtain ⟨-, rfl⟩ := ForwardedCall.mk.inj (Option.some.inj inFlight)
      have before := (sound.past uuid released member).2
      omega
    · exact exact.seen other epoch released inFlight member later

theorem closeCall_exact (sound : Sound world) (exact : Exact world uuid) {forwarded : ForwardedCall}
    (known : get? world.calls call = some forwarded)
    (drops : ledger = world.ledger.releaseReleaseEpochReference forwarded.sessionUuid) :
    Exact { world with ledger := ledger, calls := erase world.calls call } uuid := by
  obtain ⟨-, -, effect⟩ := world.ledger.drop_spec forwarded.sessionUuid ledger drops
  have here := effect uuid
  have shrunk := countP_erase_of_get?
    (fun entry : Nat × ForwardedCall => entry.2.sessionUuid = some uuid) sound.callKeys known
  refine ⟨fun proper => ?_, fun other epoch released inFlight member later => ?_⟩
  · have before := exact.count proper
    unfold referenced at before ⊢
    rw [shrunk] at before
    dsimp only
    by_cases named : forwarded.sessionUuid = some uuid
    · rw [if_pos (by simpa using named)] at before
      rw [if_pos ⟨named, proper⟩] at here
      split at here
      · rw [here.1, Option.getD_some]
        omega
      · rw [here.1, Option.getD_none]
        omega
    · rw [if_neg (by simpa using named)] at before
      rw [if_neg (fun both => named both.1)] at here
      rw [here.1]
      omega
  · dsimp only at inFlight member ⊢
    obtain ⟨apart, inFlight⟩ := of_get?_erase inFlight
    have was := exact.seen other epoch released inFlight member later
    have proper := (sound.past uuid released member).1
    by_cases named : forwarded.sessionUuid = some uuid
    · -- the call that stays holds a second reference
      have left : 0 < (erase world.calls call).countP fun entry =>
          entry.2.sessionUuid = some uuid :=
        List.countP_pos_iff.mpr ⟨(other, ⟨some uuid, epoch⟩),
          mem_of_get? (by rw [get?_erase, if_neg apart, inFlight]), by simp⟩
      have before := exact.count proper
      unfold referenced at before
      rw [shrunk, if_pos (by simpa using named)] at before
      rw [if_pos ⟨named, proper⟩, if_pos (by omega)] at here
      rw [here.2.1]
      exact was
    · rw [if_neg (fun both => named both.1)] at here
      rw [here.2.1]
      exact was

theorem closeAcquisition_exact (sound : Sound world) (exact : Exact world uuid)
    (acquisition epoch : Nat) :
    Exact { world with
      ledger := world.ledger.releaseAcquisitionReleaseEpoch true epoch
      acquisitions := erase world.acquisitions acquisition } uuid := by
  obtain ⟨acquisitions, same, -⟩ := world.ledger.releaseAcquisition_spec epoch
  let dropped : Ledger := { world.ledger with activeAcquisitionReleaseEpochs := acquisitions }
  obtain ⟨references, -, -⟩ := dropped.trimRecords_rest
  rw [same]
  change Exact { world with ledger := dropped.trimRecords, acquisitions := _ } uuid
  refine ⟨fun proper => ?_, fun call captured released inFlight member later => ?_⟩
  · dsimp only
    rw [references]
    exact exact.count proper
  · dsimp only at inFlight member ⊢
    have was := exact.seen call captured released inFlight member later
    have used := exact.has_reference (sound.past uuid released member).1 inFlight
    rcases dropped.trimRecords_spec uuid with ⟨stays, -⟩ | ⟨-, -, unreferenced⟩
    · rw [stays]
      exact was
    · change has world.ledger.activeReleaseEpochReferences uuid = false at unreferenced
      rw [used] at unreferenced
      cases unreferenced

theorem release_exact (exact : Exact world uuid) {sessionUuid : String}
    (proper : trim sessionUuid ≠ "") (reason : Option String)
    (records : ledger = world.ledger.recordSessionReleased sessionUuid reason) :
    Exact { world with
      ledger := ledger
      releases := world.releases ++ [(trim sessionUuid, ledger.epochCounter)] } uuid := by
  obtain ⟨-, references, -, effect⟩ := world.ledger.record_spec proper reason ledger records
  refine ⟨references ▸ exact.count, fun call epoch released inFlight member later => ?_⟩
  dsimp only at inFlight member ⊢
  by_cases same : trim sessionUuid = uuid
  · rcases effect with ⟨-, -, unreferenced, -⟩ | ⟨epochs, -, -⟩
    · have used := exact.has_reference (same ▸ proper) inFlight
      rw [← same, unreferenced] at used
      cases used
    · rw [epochs, ← same, get?_put_self]
      simp
  · have old : (uuid, released) ∈ world.releases := by
      rcases List.mem_append.mp member with old | new
      · exact old
      · exact absurd (Prod.mk.inj (List.mem_singleton.mp new)).1.symm same
    have was := exact.seen call epoch released inFlight old later
    rcases effect with ⟨epochs, -⟩ | ⟨epochs, -, -⟩
    · rw [epochs]
      exact was
    · rw [epochs, get?_put_of_ne _ same]
      exact was

/-- Every event keeps the count and the records of a session exact, unless it clears them
under a call that references it. -/
theorem Exact.step (exact : Exact world uuid) (sound : Sound world) {event : Event}
    (idle : ClearedIdle uuid world event) : Exact (ReleaseEpochLedger.step world event).1 uuid := by
  cases event with
  | openCall call sessionUuid =>
    unfold ReleaseEpochLedger.step
    dsimp only
    split
    · exact exact
    · rename_i fresh
      exact openCall_exact sound exact (by simpa using fresh) rfl
  | closeCall call =>
    unfold ReleaseEpochLedger.step
    dsimp only
    split
    · exact exact
    · rename_i forwarded known
      exact closeCall_exact sound exact known rfl
  | openAcquisition acquisition epoch =>
    unfold ReleaseEpochLedger.step
    dsimp only
    split
    · exact exact
    · exact ⟨exact.count, exact.seen⟩
  | closeAcquisition acquisition =>
    unfold ReleaseEpochLedger.step
    dsimp only
    split
    · exact exact
    · rename_i epoch known
      exact closeAcquisition_exact sound exact acquisition epoch
  | release sessionUuid reason =>
    unfold ReleaseEpochLedger.step
    dsimp only
    split
    · rename_i blank
      rw [Ledger.recordSessionReleased]
      dsimp only
      rw [if_pos blank]
      exact exact
    · rename_i proper
      exact release_exact exact proper reason rfl
  | clear =>
    refine ⟨fun _ => ?_, fun _ _ _ _ member => by cases member⟩
    exact (idle rfl).symm

end OneStep

section Runs

variable {world : World} {uuid : String}

theorem Sound.keepsNothingIdle (sound : Sound world) : KeepsNothingIdle world := by
  intro uuid unused noAcquisition
  have unreferenced : get? world.ledger.activeReleaseEpochReferences uuid = none := by
    rw [Option.eq_none_iff_forall_ne_some]
    intro count found
    have bounds := (sound.counted uuid count found).2
    omega
  have unacquired : world.ledger.activeAcquisitionReleaseEpochs = [] := by
    cases acquiring : world.ledger.activeAcquisitionReleaseEpochs with
    | nil => rfl
    | cons entry rest =>
      have there : get? world.ledger.activeAcquisitionReleaseEpochs entry.1 = some entry.2 := by
        simp [acquiring, get?]
      have bounds := sound.acquiring entry.1 entry.2 there
      rw [noAcquisition, List.countP_nil] at bounds
      omega
  have unrecorded : get? world.ledger.releasedSessionEpochs uuid = none := by
    rw [Option.eq_none_iff_forall_ne_some]
    intro epoch found
    rcases sound.wanted uuid epoch found with used | acquires
    · rw [has, unreferenced] at used
      cases used
    · exact acquires unacquired
  exact ⟨unrecorded, sound.reasons uuid unrecorded, unreferenced⟩

theorem Exact.outlastsOthers (exact : Exact world uuid) (sound : Sound world) :
    OutlastsOthers world uuid := by
  intro call epoch other inFlight apart
  unfold ReleaseEpochLedger.step
  dsimp only
  split
  · rfl
  · rename_i forwarded known
    obtain ⟨-, -, effect⟩ := world.ledger.drop_spec forwarded.sessionUuid _ rfl
    have here := effect uuid
    have kept : get? (world.ledger.releaseReleaseEpochReference
          forwarded.sessionUuid).releasedSessionEpochs uuid =
          get? world.ledger.releasedSessionEpochs uuid ∧
        get? (world.ledger.releaseReleaseEpochReference
          forwarded.sessionUuid).releasedSessionReasons uuid =
          get? world.ledger.releasedSessionReasons uuid := by
      split at here
      · rename_i named
        have shrunk := countP_erase_of_get?
          (fun entry : Nat × ForwardedCall => entry.2.sessionUuid = some uuid) sound.callKeys known
        have left : 0 < (erase world.calls other).countP fun entry =>
            entry.2.sessionUuid = some uuid :=
          List.countP_pos_iff.mpr ⟨(call, ⟨some uuid, epoch⟩),
            mem_of_get? (by rw [get?_erase, if_neg apart, inFlight]), by simp⟩
        have before := exact.count named.2
        unfold referenced at before
        rw [shrunk, if_pos (by simpa using named.1)] at before
        rw [if_pos (by omega)] at here
        exact here.2
      · exact here.2
    unfold Ledger.sessionReleaseReasonSince
    rw [kept.1, kept.2]

/-- Without acquisitions nothing is kept about an unreferenced session; and in a run that
clears the records only while no call in flight references a session, every such call is
told of its release exactly when it was released after the captured epoch, whichever
other calls end. -/
theorem release_ledger_exact (events : List Event) : KeepsNothingIdle (Runs.run step {} events).1 ∧
      ∀ uuid, Runs.Meets step (ClearedIdle uuid) {} events →
        SeesReleases (Runs.run step {} events).1 uuid ∧
          OutlastsOthers (Runs.run step {} events).1 uuid := by
  have always : Runs.Meets step (fun _ _ => True) {} events :=
    Runs.Meets.of_forall step (fun _ _ _ => trivial) {}
  have sound : Sound (Runs.run step {} events).1 :=
    Runs.Meets.state_invariant step Sound (fun _ event kept _ => kept.step event) Sound.empty always
  refine ⟨sound.keepsNothingIdle, fun uuid meets => ?_⟩
  have both : Sound (Runs.run step {} events).1 ∧ Exact (Runs.run step {} events).1 uuid :=
    Runs.Meets.state_invariant step (fun world => Sound world ∧ Exact world uuid)
      (fun _ event kept idle => ⟨kept.1.step event, kept.2.step kept.1 idle⟩)
      ⟨Sound.empty, Exact.empty uuid⟩ meets
  exact ⟨both.2.seesReleases sound, both.2.outlastsOthers sound⟩

/-- A release is forgotten while no call is in flight; then a call is, the session is released, and
another call ends. -/
def overlappingCalls : List Event :=
  [.openCall 0 (some "session"), .release "session" (some "old"), .closeCall 0, .clear,
   .openCall 1 (some "session"), .openCall 2 (some "session"),
   .release "session" (some "idle"), .closeCall 1]

theorem release_ledger_exact_overlapping :
    (Runs.run step {} overlappingCalls).1.ledger.sessionReleaseReasonSince "session" 0 =
        some "idle" ∧
      SeesReleases (Runs.run step {} overlappingCalls).1 "session" := by
  refine ⟨by decide +kernel, ((release_ledger_exact overlappingCalls).2 "session" ?_).1⟩
  simp only [overlappingCalls, Runs.Meets, ClearedIdle]
  decide +kernel

/-- A call from before a clear ends after its session was released again. -/
def lateDrop : List Event :=
  [.openCall 1 (some "session"), .clear, .openCall 2 (some "session"),
   .release "session" (some "idle"), .closeCall 1]

/-- The late call takes the record from the one that is still in flight. -/
theorem late_drop_loses_release :
    ¬∀ events uuid, SeesReleases (Runs.run step {} events).1 uuid := by
  intro sees
  have told := (sees lateDrop "session" 2 0 (by decide +kernel)).mpr
    ⟨1, by decide +kernel, by decide⟩
  revert told
  decide +kernel

end Runs

end AutoMobile.ReleaseEpochLedger
