import AutoMobile.BindingRegistryCalls

/- What one transaction does to the assignments and to the journal. -/
namespace AutoMobile.BindingRegistry

open InsertionMap SessionBroker GenerationFence

variable {Spec : Type}

abbrev Assignments (Spec : Type) := InsertionMap BindingKey (BindingAssignmentRecord Spec)

/-- A change of a binding that is no commit. -/
structure RowKept (before after : BindingAssignmentRecord Spec) : Prop where
  platform : after.platform = before.platform
  device : after.stableDeviceId = before.stableDeviceId
  generation : after.generation = before.generation +
    if entersFencingState before.state after.state then 1 else 0

theorem RowKept.refl (row : BindingAssignmentRecord Spec) : RowKept row row where
  platform := rfl
  device := rfl
  generation := by simp [entersFencingState]

/-- The device of the binding is held by no other one. -/
def HeldHereOnly (rows : Assignments Spec) (key : BindingKey) (row : BindingAssignmentRecord Spec) :
    Prop :=
  ∀ other holder, other ≠ key → get? rows other = some holder → row.stableDeviceId ≠ none →
    holder.platform = row.platform → holder.stableDeviceId ≠ row.stableDeviceId

/-- One call changes the rows: it commits at most one binding, it makes rows without a device, and
it removes rows where that is allowed. -/
structure Changed (removable : BindingKey → Prop) (committed : Option BindingKey)
    (before after : Assignments Spec) : Prop where
  kept : ∀ key row later, committed ≠ some key → get? before key = some row →
    get? after key = some later → RowKept row later
  made : ∀ key row, get? before key = none → get? after key = some row →
    row.stableDeviceId = none ∧ committed ≠ some key
  removed : ∀ key row, get? before key = some row → get? after key = none → removable key
  commits : ∀ key, committed = some key → ∃ row later, get? before key = some row ∧
    get? after key = some later ∧ later.generation = row.generation + 1 ∧
      HeldHereOnly after key later

variable {removable : BindingKey → Prop} {rows : Assignments Spec} {key : BindingKey}
  {row later : BindingAssignmentRecord Spec}

theorem Changed.refl (removable : BindingKey → Prop) (rows : Assignments Spec) :
    Changed removable none rows rows where
  kept key row later _ found found' := by
    rw [Option.some.inj (found'.symm.trans found)]
    exact RowKept.refl row
  made key row absent found := by
    rw [absent] at found
    contradiction
  removed key row found absent := by
    rw [absent] at found
    contradiction
  commits key committed := by contradiction

/-- A row is written, by a commit or by a change that is none. -/
theorem Changed.put (removable : BindingKey → Prop) {committed : Option BindingKey}
    (found : get? rows key = some row) (only : committed = none ∨ committed = some key)
    (kept : committed = none → RowKept row later)
    (commits : committed = some key → later.generation = row.generation + 1 ∧
      HeldHereOnly (put rows key later) key later) :
    Changed removable committed rows (put rows key later) where
  kept other known known' apart before after := by
    rw [get?_put] at after
    split at after
    case isTrue same =>
      subst same
      obtain rfl := Option.some.inj (found.symm.trans before)
      obtain rfl := Option.some.inj after
      exact kept (only.resolve_right apart)
    case isFalse =>
      rw [Option.some.inj (after.symm.trans before)]
      exact RowKept.refl known
  made other known absent after := by
    rw [get?_put] at after
    split at after
    case isTrue same =>
      rw [← same, found] at absent
      contradiction
    case isFalse =>
      rw [absent] at after
      contradiction
  removed other known before after := by
    rw [get?_put] at after
    split at after
    case isTrue => contradiction
    case isFalse =>
      rw [after] at before
      contradiction
  commits other same := by
    subst same
    obtain absent | same := only
    · contradiction
    · obtain rfl := Option.some.inj same
      obtain ⟨raised, alone⟩ := commits rfl
      exact ⟨row, later, found, get?_put_self _ _ _, raised, alone⟩

theorem Changed.write (removable : BindingKey → Prop) (found : get? rows key = some row)
    (kept : RowKept row later) :
    Changed removable none rows (InsertionMap.put rows key later) :=
  Changed.put removable found (.inl rfl) (fun _ => kept) fun commits => by contradiction

theorem Changed.make (removable : BindingKey → Prop) (absent : get? rows key = none)
    (bare : row.stableDeviceId = none) :
    Changed removable none rows (InsertionMap.put rows key row) where
  kept other known known' _ before after := by
    rw [get?_put] at after
    split at after
    case isTrue same =>
      rw [← same, absent] at before
      contradiction
    case isFalse =>
      rw [Option.some.inj (after.symm.trans before)]
      exact RowKept.refl known
  made other known before after := by
    rw [get?_put] at after
    split at after
    case isTrue =>
      rw [← Option.some.inj after]
      exact ⟨bare, by simp⟩
    case isFalse =>
      rw [before] at after
      contradiction
  removed other known before after := by
    rw [get?_put] at after
    split at after
    case isTrue => contradiction
    case isFalse =>
      rw [after] at before
      contradiction
  commits key committed := by contradiction

theorem Changed.remove (allowed : removable key) :
    Changed removable none rows (erase rows key) where
  kept other known known' _ before after := by
    replace after := (of_get?_erase after).2
    rw [Option.some.inj (after.symm.trans before)]
    exact RowKept.refl known
  made other known before after := by
    replace after := (of_get?_erase after).2
    rw [before] at after
    contradiction
  removed other known before after := by
    rw [get?_erase] at after
    split at after
    case isTrue same => exact same ▸ allowed
    case isFalse =>
      rw [after] at before
      contradiction
  commits key committed := by contradiction

theorem recoveredRow_kept (nowMs : Int) (row : BindingAssignmentRecord Spec) :
    RowKept row (recoveredRow nowMs row) where
  platform := rfl
  device := rfl
  generation := by simp [recoveredRow, entersFencingState, FENCING_BINDING_STATES]

theorem updatedRow_kept (nowMs : Int) (row : BindingAssignmentRecord Spec)
    (state : BindingAssignmentState) (settler : Option BindingProcessIdentity) :
    RowKept row (updatedRow nowMs row state settler) where
  platform := rfl
  device := rfl
  generation := by
    have reached : (updatedRow nowMs row state settler).state = state := rfl
    have raised : (updatedRow nowMs row state settler).generation =
        if entersFencingState row.state state then row.generation + 1 else row.generation := rfl
    rw [reached, raised]
    split
    case isTrue => rfl
    case isFalse => rfl

/-- Rows are written back recovered: each row is as it was or recovered. -/
theorem get?_recover {nowMs : Int} (original : Assignments Spec)
    (settled : List (BindingKey × BindingAssignmentRecord Spec)) (registry : Registry Spec)
    (current : ∀ entry ∈ settled, get? original entry.1 = some entry.2)
    (before : ∀ key, get? registry.assignments key = get? original key ∨
      ∃ row, get? original key = some row ∧
        get? registry.assignments key = some (recoveredRow nowMs row)) (key : BindingKey) :
    get? (settled.foldl (fun registry row =>
        writeAssignment registry row.1 (recoveredRow nowMs row.2)) registry).assignments key =
        get? original key ∨
      ∃ row, get? original key = some row ∧ get? (settled.foldl (fun registry row =>
          writeAssignment registry row.1 (recoveredRow nowMs row.2)) registry).assignments key =
          some (recoveredRow nowMs row) := by
  induction settled generalizing registry with
  | nil => exact before key
  | cons entry rest ih =>
    apply ih
    · exact fun later listed => current later (List.mem_cons_of_mem _ listed)
    · intro other
      dsimp only [writeAssignment]
      rw [get?_put]
      split
      case isTrue same =>
        rw [← same]
        exact .inr ⟨entry.2, current entry List.mem_cons_self, rfl⟩
      case isFalse => exact before other

theorem Changed.of_recovered {nowMs : Int} {before after : Assignments Spec}
    (recovers : ∀ key, get? after key = get? before key ∨
      ∃ row, get? before key = some row ∧ get? after key = some (recoveredRow nowMs row)) :
    Changed removable none before after where
  kept key row later _ found found' := by
    obtain same | ⟨known, present, recovered⟩ := recovers key
    · rw [same, found] at found'
      rw [Option.some.inj found']
      exact RowKept.refl later
    · rw [found] at present
      rw [recovered] at found'
      rw [← Option.some.inj found', ← Option.some.inj present]
      exact recoveredRow_kept nowMs row
  made key row absent found := by
    obtain same | ⟨known, present, _⟩ := recovers key
    · rw [same, absent] at found
      contradiction
    · rw [absent] at present
      contradiction
  removed key row found absent := by
    obtain same | ⟨known, _, recovered⟩ := recovers key
    · rw [same, found] at absent
      contradiction
    · rw [absent] at recovered
      contradiction
  commits key committed := by contradiction

theorem recover_frame {nowMs : Int} (settled : List (BindingKey × BindingAssignmentRecord Spec))
    (registry : Registry Spec) :
    (settled.foldl (fun registry row =>
        writeAssignment registry row.1 (recoveredRow nowMs row.2)) registry).scopes =
        registry.scopes ∧
      (settled.foldl (fun registry row =>
        writeAssignment registry row.1 (recoveredRow nowMs row.2)) registry).journal =
        registry.journal ∧
      (settled.foldl (fun registry row =>
        writeAssignment registry row.1 (recoveredRow nowMs row.2)) registry).nextJournalId =
        registry.nextJournalId ∧
      ((keys registry.assignments).Nodup → (keys (settled.foldl (fun registry row =>
          writeAssignment registry row.1 (recoveredRow nowMs row.2))
            registry).assignments).Nodup) := by
  induction settled generalizing registry with
  | nil => exact ⟨rfl, rfl, rfl, id⟩
  | cons entry rest ih =>
    obtain ⟨scopes, journal, next, distinct⟩ := ih (writeAssignment registry entry.1
      (recoveredRow nowMs entry.2))
    exact ⟨scopes, journal, next, fun before => distinct (nodup_keys_put before _ _)⟩

section Parts

/-- A step that does not throw passes its value on. -/
theorem of_bind_ok {α β : Type} {first : Except String α} {next : α → Except String β} {result : β}
    (ran : (first >>= next) = .ok result) : ∃ value, first = .ok value ∧ next value = .ok result := by
  cases first with
  | error message => contradiction
  | ok value => exact ⟨value, rfl, ran⟩

variable {registry : Registry Spec} {expected : BindingBindingExpectation} {nowMs : Int}
  {isExecOwnerLive : BindingProcessIdentity → Bool}

theorem checkBinding_ok {journaled : Bool} {session : Option String}
    {checked : BindingAssignmentRecord Spec}
    (passed : checkBinding registry key expected journaled session = .ok checked) :
    get? registry.assignments key = some checked ∧ checked.binding = expected := by
  unfold checkBinding at passed
  dsimp only at passed
  split at passed
  case isTrue => contradiction
  case isFalse =>
    cases found : get? registry.assignments key with
    | none =>
      rw [found] at passed
      contradiction
    | some current =>
      rw [found] at passed
      dsimp only at passed
      split at passed
      case isTrue same =>
        obtain rfl := Except.ok.inj passed
        simp only [bindingMatches, Bool.and_eq_true, decide_eq_true_eq] at same
        refine ⟨rfl, ?_⟩
        unfold BindingAssignmentRecord.binding
        rw [same.1, same.2]
      case isFalse => contradiction

/-- No other binding holds the device that the search for a holder did not find. -/
theorem heldHereOnly_of_findHolder {platform : BindingPlatform}
    (absent : findHolder registry key platform row.stableDeviceId = none)
    (same : row.platform = platform) :
    HeldHereOnly (put registry.assignments key row) key row := by
  intro other holder differs found device platforms devices
  rw [get?_put_of_ne _ differs.symm] at found
  unfold findHolder at absent
  rw [if_neg device] at absent
  have unlike := List.find?_eq_none.1 absent (other, holder) (mem_of_get? found)
  simp only [Bool.and_eq_true, decide_eq_true_eq, not_and] at unlike
  exact unlike ⟨platforms.trans same, devices⟩ differs

theorem commitBindingIn_spec {next : BindingBindingCommit Spec} {journaled : Bool}
    {done : Registry Spec × CommitBindingResult Spec}
    (ran : commitBindingIn nowMs registry key expected next journaled = .ok done) :
    (∃ failure, done = (registry, .refused failure)) ∨
      ∃ row later, get? registry.assignments key = some row ∧ row.binding = expected ∧
        done = (writeAssignment registry key later, .committed later) ∧
        later.generation = row.generation + 1 ∧
        HeldHereOnly (put registry.assignments key later) key later := by
  unfold commitBindingIn at ran
  cases checked : checkBinding registry key expected journaled none with
  | error failure =>
    rw [checked] at ran
    exact .inl ⟨failure, (Except.ok.inj ran).symm⟩
  | ok row =>
    rw [checked] at ran
    obtain ⟨found, token⟩ := checkBinding_ok checked
    obtain ⟨platform, _, ran⟩ := of_bind_ok ran
    split at ran
    case h_1 holder _ => exact .inl ⟨_, (Except.ok.inj ran).symm⟩
    case h_2 absent =>
      refine .inr ⟨row, committedRow nowMs row platform next, found, token,
        (Except.ok.inj ran).symm, rfl, ?_⟩
      exact heldHereOnly_of_findHolder absent rfl

theorem updateBindingStateIn_spec (state : BindingAssignmentState)
    (settler : Option BindingProcessIdentity) (journaled : Bool) :
    (updateBindingStateIn nowMs isExecOwnerLive registry key expected state settler
        journaled).1 = registry ∧
      (∀ assignment, (updateBindingStateIn nowMs isExecOwnerLive registry key expected state
        settler journaled).2 ≠ .updated assignment) ∨
    ∃ row later, get? registry.assignments key = some row ∧ row.binding = expected ∧
      updateBindingStateIn nowMs isExecOwnerLive registry key expected state settler journaled =
        (writeAssignment registry key later, .updated later) ∧ RowKept row later := by
  unfold updateBindingStateIn
  cases checked : checkBinding registry key expected journaled none with
  | error failure => exact .inl ⟨rfl, fun _ => by simp⟩
  | ok row =>
    obtain ⟨found, token⟩ := checkBinding_ok checked
    dsimp only
    split
    case h_1 => exact .inl ⟨rfl, fun _ => by simp⟩
    case h_2 =>
      exact .inr ⟨row, updatedRow nowMs row state settler, found, token, rfl,
        updatedRow_kept nowMs row state settler⟩

def BindingJournalAssignmentChange.isCommit : BindingJournalAssignmentChange Spec → Bool
  | .commit _ _ => true
  | .state _ _ _ => false

/-- The change that goes with a journal transition writes the binding or refuses. -/
theorem applyJournalAssignmentChange_spec {change : BindingJournalAssignmentChange Spec}
    {applied : Registry Spec × Except (BindingJournalChangeFailure Spec)
      (BindingAssignmentRecord Spec)}
    (ran : applyJournalAssignmentChange nowMs isExecOwnerLive registry key change = .ok applied) :
    (∃ failure, applied = (registry, .error failure)) ∨
      ∃ row later, get? registry.assignments key = some row ∧ row.binding = change.expected ∧
        applied = (writeAssignment registry key later, .ok later) ∧
        (change.isCommit = false → RowKept row later) ∧
        (change.isCommit = true → later.generation = row.generation + 1 ∧
          HeldHereOnly (put registry.assignments key later) key later) := by
  cases change with
  | commit expected next =>
    obtain ⟨done, committed, ran⟩ := of_bind_ok ran
    obtain ⟨failure, rfl⟩ | ⟨row, later, found, token, rfl, raised, alone⟩ :=
      commitBindingIn_spec committed
    · exact .inl ⟨_, (Except.ok.inj ran).symm⟩
    · refine .inr ⟨row, later, found, token, (Except.ok.inj ran).symm, ?_, ?_⟩
      · exact fun other => by contradiction
      · exact fun _ => ⟨raised, alone⟩
  | state expected state settler =>
    obtain ⟨settler, _, ran⟩ := of_bind_ok ran
    dsimp only at ran
    obtain ⟨same, refused⟩ | ⟨row, later, found, token, wrote, kept⟩ :=
      updateBindingStateIn_spec state settler true
    · split at ran
      case h_1 assignment updated => exact absurd updated (refused assignment)
      case h_2 => exact .inl ⟨_, by rw [← Except.ok.inj ran, same]⟩
      case h_3 => exact .inl ⟨_, by rw [← Except.ok.inj ran, same]⟩
    · rw [wrote] at ran
      refine .inr ⟨row, later, found, token, (Except.ok.inj ran).symm, fun _ => kept, ?_⟩
      exact fun other => by contradiction

end Parts

end AutoMobile.BindingRegistry
