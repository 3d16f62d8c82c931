import AutoMobile.BindingRegistryEffects

/- The fence: what holds of the registry after any calls, and what a token that was read from a
binding is still worth later. -/
namespace AutoMobile.BindingRegistry

open InsertionMap SessionBroker GenerationFence Runs

variable {Spec : Type}

def DevicesHeldOnce (registry : Registry Spec) : Prop :=
  ∀ first second one two, get? registry.assignments first = some one →
    get? registry.assignments second = some two → one.stableDeviceId ≠ none →
    one.platform = two.platform → one.stableDeviceId = two.stableDeviceId → first = second

def OpenEntry (registry : Registry Spec) (id : Nat) (entry : BindingJournalEntry Spec) : Prop :=
  get? registry.journal id = some entry ∧ isBindingJournalPhaseOpen entry.phase = true

def OneOpenEntry (registry : Registry Spec) : Prop :=
  ∀ first second one two, OpenEntry registry first one → OpenEntry registry second two →
    one.key = two.key → first = second

def OneLiveScope (registry : Registry Spec) : Prop :=
  ∀ first second one two, get? registry.scopes first = some one →
    get? registry.scopes second = some two → one.state ≠ .invalidated →
    two.state ≠ .invalidated → one.managedHostScope = two.managedHostScope →
    one.runnerNamespace = two.runnerNamespace → first = second

/-- The binding is there, under this token. -/
def Shows (registry : Registry Spec) (key : BindingKey) (binding : BindingBindingExpectation) :
    Prop :=
  ∃ row, get? registry.assignments key = some row ∧ row.binding = binding

def BindingBindingExpectation.stamp (binding : BindingBindingExpectation) :
    Stamp (Option String) where
  generation := binding.generation
  value := binding.stableDeviceId

/-- The token of a binding, as the cell that its fence guards. -/
def bindingCell (key : BindingKey) (registry : Registry Spec) : Option (Stamp (Option String)) :=
  (get? registry.assignments key).map fun row => row.binding.stamp

/-- The invariant of the registry. -/
structure Sound (registry : Registry Spec) : Prop where
  rows : (keys registry.assignments).Nodup
  ids : (keys registry.journal).Nodup
  below : ∀ id ∈ keys registry.journal, id < registry.nextJournalId
  scopes : ScopesSound registry.scopes
  devices : DevicesHeldOnce registry
  single : OneOpenEntry registry
  recorded : ∀ id entry, OpenEntry registry id entry → ∃ row,
    get? registry.assignments entry.key = some row ∧ Follows entry.binding.stamp row.binding.stamp

theorem stamp_injective {one two : BindingBindingExpectation} (same : one.stamp = two.stamp) :
    one = two := by
  cases one
  cases two
  simpa [BindingBindingExpectation.stamp] using same

theorem shows_iff {registry : Registry Spec} {key : BindingKey}
    {binding : BindingBindingExpectation} :
    Shows registry key binding ↔ bindingCell key registry = some binding.stamp := by
  constructor
  · rintro ⟨row, found, rfl⟩
    unfold bindingCell
    rw [found]
    rfl
  · intro shown
    obtain ⟨row, found, same⟩ := Option.map_eq_some_iff.1 shown
    exact ⟨row, found, stamp_injective same⟩

section Steps

variable {before after : Registry Spec} {call : Call Spec} {outcome : Outcome Spec}

variable {row later : BindingAssignmentRecord Spec} {key : BindingKey}

theorem RowKept.follows (kept : RowKept row later) :
    Follows row.binding.stamp later.binding.stamp := by
  have generation : later.binding.stamp.generation = row.binding.stamp.generation +
      if entersFencingState row.state later.state then 1 else 0 := kept.generation
  split at generation
  case isTrue => exact .inr (by omega)
  case isFalse =>
    have value : later.binding.stamp.value = row.binding.stamp.value := kept.device
    left
    exact Stamp.ext generation value

/-- A commit or the entry into a fencing state raises the generation by one, nothing else. -/
theorem Effect.generation (effect : Effect call outcome before after)
    (found : get? before.assignments key = some row)
    (reached : get? after.assignments key = some later) :
    later.generation = row.generation +
      if committedBy call outcome = some key ∨ entersFencingState row.state later.state = true
      then 1 else 0 := by
  by_cases commits : committedBy call outcome = some key
  · obtain ⟨known, written, present, stored, raised, _⟩ := effect.rows.commits key commits
    rw [found, Option.some.injEq] at present
    rw [reached, Option.some.injEq] at stored
    subst present stored
    rw [if_pos (.inl commits), raised]
  · have kept := effect.rows.kept key row later commits found reached
    rw [kept.generation]
    simp [commits]

theorem Effect.follows (effect : Effect call outcome before after)
    (found : get? before.assignments key = some row)
    (reached : get? after.assignments key = some later) :
    Follows row.binding.stamp later.binding.stamp := by
  by_cases commits : committedBy call outcome = some key
  · right
    have raised := effect.generation found reached
    rw [if_pos (.inl commits)] at raised
    change row.generation < later.generation
    omega
  · exact (effect.rows.kept key row later commits found reached).follows

/-- A binding with a device is committed by the call, or it held the device before. -/
theorem Effect.device (effect : Effect call outcome before after)
    (found : get? after.assignments key = some row) (device : row.stableDeviceId ≠ none) :
    HeldHereOnly after.assignments key row ∨ ∃ old, get? before.assignments key = some old ∧
      row.platform = old.platform ∧ row.stableDeviceId = old.stableDeviceId := by
  by_cases commits : committedBy call outcome = some key
  · obtain ⟨_, written, _, stored, _, alone⟩ := effect.rows.commits key commits
    rw [found, Option.some.injEq] at stored
    subst stored
    exact .inl alone
  · cases known : get? before.assignments key with
    | none => exact absurd (effect.rows.made key row known found).1 device
    | some old =>
      have kept := effect.rows.kept key old row commits known found
      exact .inr ⟨old, rfl, kept.platform, kept.device⟩

theorem Effect.devices (effect : Effect call outcome before after)
    (once : DevicesHeldOnce before) : DevicesHeldOnce after := by
  intro first second one two found found' device platforms devices
  by_contra apart
  have device' : two.stableDeviceId ≠ none := devices ▸ device
  obtain alone | ⟨old, known, platform, held⟩ := effect.device found device
  · exact alone second two (fun same => apart same.symm) found' device platforms.symm devices.symm
  obtain alone | ⟨old', known', platform', held'⟩ := effect.device found' device'
  · exact alone first one apart found device' platforms devices
  apply apart
  apply once first second old old' known known'
  · rw [← held]
    exact device
  · rw [← platform, ← platform', platforms]
  · rw [← held, ← held', devices]

theorem Effect.single (effect : Effect call outcome before after)
    (ids : (keys before.journal).Nodup) (once : OneOpenEntry before) : OneOpenEntry after := by
  rintro first second one two ⟨found, opened⟩ ⟨found', opened'⟩ same
  obtain ⟨old, known, was, key, _⟩ | ⟨fresh, absent, _⟩ :=
    effect.journal.entries ids first one found opened
  · obtain ⟨old', known', was', key', _⟩ | ⟨_, absent', _⟩ :=
      effect.journal.entries ids second two found' opened'
    · apply once first second old old' ⟨known, was⟩ ⟨known', was'⟩
      rw [key, key', same]
    · exact absurd (key.trans same) (absent' first old known was)
  · obtain ⟨old', known', was', key', _⟩ | ⟨fresh', _, _⟩ :=
      effect.journal.entries ids second two found' opened'
    · exact absurd (key'.trans same.symm) (absent second old' known' was')
    · exact fresh.trans fresh'.symm

/-- The binding of an open entry is still there, and it follows what the entry records. -/
theorem Effect.recorded (effect : Effect call outcome before after) (sound : Sound before)
    {id : Nat} {entry : BindingJournalEntry Spec} (opened : OpenEntry after id entry) :
    ∃ row, get? after.assignments entry.key = some row ∧
      Follows entry.binding.stamp row.binding.stamp := by
  have anchor : Anchored after entry → ∃ row, get? after.assignments entry.key = some row ∧
      Follows entry.binding.stamp row.binding.stamp := by
    rintro ⟨row, found, same⟩
    rw [same]
    exact ⟨row, found, Follows.refl _⟩
  obtain ⟨old, known, was, key, same | anchored⟩ | ⟨_, _, anchored⟩ :=
    effect.journal.entries sound.ids id entry opened.1 opened.2
  · obtain ⟨row, present, follows⟩ := sound.recorded id old ⟨known, was⟩
    rw [key] at present
    cases found : get? after.assignments entry.key with
    | none =>
      have removable := effect.rows.removed entry.key row present found
      exact absurd key (removable id old known was)
    | some later =>
      rw [same]
      exact ⟨later, rfl, follows.trans (effect.follows present found)⟩
  · exact anchor anchored
  · exact anchor anchored

theorem Effect.sound (effect : Effect call outcome before after) (sound : Sound before) :
    Sound after where
  rows := effect.distinct sound.rows
  ids := effect.journal.distinct sound.ids
  below := effect.journal.below sound.below
  scopes := effect.scopes sound.scopes
  devices := effect.devices sound.devices
  single := effect.single sound.ids sound.single
  recorded _ _ opened := effect.recorded sound opened

end Steps

section Histories

variable (computeBindingScopeKey : BindingScopeIdentity → String)

/-- One call, as an event of a run. -/
def serve (registry : Registry Spec) (call : Call Spec) : Registry Spec × List (Outcome Spec) :=
  ((transact computeBindingScopeKey registry call).1,
    [(transact computeBindingScopeKey registry call).2])

/-- The registry after some calls, in the order of their transactions. -/
def serveAll (registry : Registry Spec) (calls : List (Call Spec)) : Registry Spec :=
  (run (serve computeBindingScopeKey) registry calls).1

variable {computeBindingScopeKey} {registry : Registry Spec}

theorem serveAll_append (first second : List (Call Spec)) :
    serveAll computeBindingScopeKey registry (first ++ second) =
      serveAll computeBindingScopeKey (serveAll computeBindingScopeKey registry first) second := by
  unfold serveAll
  rw [run_append]

theorem sound_empty : Sound ({} : Registry Spec) where
  rows := List.nodup_nil
  ids := List.nodup_nil
  below _ member := by cases member
  scopes :=
    { valid := fun _ _ found => by cases found
      once := fun _ _ _ _ found => by cases found }
  devices _ _ _ _ found := by cases found
  single _ _ _ _ opened := by cases opened.1
  recorded _ _ opened := by cases opened.1

theorem sound_transact (sound : Sound registry) (call : Call Spec) :
    Sound (transact computeBindingScopeKey registry call).1 :=
  (effect_transact sound.rows call).sound sound

theorem sound_serveAll (sound : Sound registry) (calls : List (Call Spec)) :
    Sound (serveAll computeBindingScopeKey registry calls) := by
  induction calls generalizing registry with
  | nil => exact sound
  | cons call rest ih => exact ih (sound_transact sound call)

theorem cell_follows (sound : Sound registry) (key : BindingKey) (call : Call Spec)
    {before after : Stamp (Option String)} (found : bindingCell key registry = some before)
    (reached : bindingCell key (serve computeBindingScopeKey registry call).1 = some after) :
    Follows before after := by
  obtain ⟨row, present, rfl⟩ := Option.map_eq_some_iff.1 found
  obtain ⟨later, stored, rfl⟩ := Option.map_eq_some_iff.1 reached
  exact (effect_transact sound.rows call).follows present stored

variable {key : BindingKey} {id : Nat} {entry : BindingJournalEntry Spec}

section

variable (sound : Sound registry)
include sound

/-- While the binding is there, its token follows the earlier ones. -/
theorem present_follows {calls : List (Call Spec)}
    (present : Present (serve computeBindingScopeKey) (bindingCell key) registry calls)
    {before after : Stamp (Option String)} (found : bindingCell key registry = some before)
    (reached : bindingCell key (serveAll computeBindingScopeKey registry calls) = some after) :
    Follows before after := by
  have stays : ∀ (registry : Registry Spec) call, Sound registry →
      Sound (serve computeBindingScopeKey registry call).1 :=
    fun _ call sound => sound_transact sound call
  exact present.follows (fun _ call _ _ sound => cell_follows sound key call) stays sound found
    reached

/-- An open entry was open before the call, for the same binding, or its id was not yet used. -/
theorem opened_before {call : Call Spec}
    (opened : OpenEntry (transact computeBindingScopeKey registry call).1 id entry)
    (used : id < registry.nextJournalId) :
    ∃ old, OpenEntry registry id old ∧ old.key = entry.key := by
  obtain ⟨old, known, was, key, _⟩ | ⟨fresh, _⟩ :=
    (effect_transact sound.rows call).journal.entries sound.ids id entry opened.1 opened.2
  · exact ⟨old, ⟨known, was⟩, key⟩
  · omega

theorem nextJournalId_le (call : Call Spec) :
    registry.nextJournalId ≤ (transact computeBindingScopeKey registry call).1.nextJournalId :=
  (effect_transact sound.rows call).journal.next

/-- While an entry that was open stays open, its binding stays there. -/
theorem present_of_open {calls : List (Call Spec)}
    (opened : OpenEntry (serveAll computeBindingScopeKey registry calls) id entry)
    (used : id < registry.nextJournalId) :
    Present (serve computeBindingScopeKey) (bindingCell entry.key) registry calls ∧
      ∃ old, OpenEntry registry id old ∧ old.key = entry.key := by
  induction calls generalizing registry with
  | nil =>
    obtain ⟨row, found, _⟩ := sound.recorded id entry opened
    refine ⟨?_, entry, opened, rfl⟩
    exact Option.isSome_iff_exists.2 ⟨_, Option.map_eq_some_iff.2 ⟨row, found, rfl⟩⟩
  | cons call rest ih =>
    have later : Sound (transact computeBindingScopeKey registry call).1 :=
      sound_transact sound call
    have known : id < (transact computeBindingScopeKey registry call).1.nextJournalId :=
      Nat.lt_of_lt_of_le used (nextJournalId_le sound call)
    obtain ⟨present, middle, isOpen, same⟩ := ih later opened known
    obtain ⟨old, was, key⟩ := opened_before sound isOpen used
    have first : (bindingCell entry.key registry).isSome := by
      obtain ⟨row, found, _⟩ := sound.recorded id old was
      rw [key, same] at found
      exact Option.isSome_iff_exists.2 ⟨_, Option.map_eq_some_iff.2 ⟨row, found, rfl⟩⟩
    exact ⟨⟨first, present⟩, old, was, key.trans same⟩

theorem cell_of_recorded (opened : OpenEntry registry id entry) :
    ∃ stamp, bindingCell entry.key registry = some stamp ∧ Follows entry.binding.stamp stamp := by
  obtain ⟨row, found, follows⟩ := sound.recorded id entry opened
  exact ⟨row.binding.stamp, Option.map_eq_some_iff.2 ⟨row, found, rfl⟩, follows⟩

/-- What an open entry recorded and its binding has left does not come back while the entry is
open. -/
theorem recorded_never_recurs {latest : BindingJournalEntry Spec} {first second : List (Call Spec)}
    (opened : OpenEntry registry id entry)
    (left : ¬ Shows (serveAll computeBindingScopeKey registry first) entry.key entry.binding)
    (still : OpenEntry (serveAll computeBindingScopeKey registry (first ++ second)) id latest) :
    ¬ Shows (serveAll computeBindingScopeKey registry (first ++ second)) entry.key
      entry.binding := by
  have used : id < registry.nextJournalId := sound.below id ((mem_keys_iff _ _).2 ⟨entry, opened.1⟩)
  obtain ⟨present, old, was, same⟩ := present_of_open sound still used
  have key : entry.key = latest.key := by rw [← same, Option.some.inj (was.1.symm.trans opened.1)]
  rw [← key] at present
  obtain ⟨before, after⟩ := present.split
  obtain ⟨start, found, anchored⟩ := cell_of_recorded sound opened
  obtain ⟨middle, halfway⟩ := after.first
  have away : middle ≠ entry.binding.stamp := by
    rintro rfl
    exact left (shows_iff.2 halfway)
  have soundHalfway : Sound (serveAll computeBindingScopeKey registry first) :=
    sound_serveAll sound first
  have follows : Follows entry.binding.stamp middle :=
    anchored.trans (present_follows sound before found halfway)
  intro back
  rw [serveAll_append, shows_iff] at back
  exact follows.never_recurs away (present_follows soundHalfway after halfway back) rfl

/-- A token that is read and later accepted, with the binding there throughout, was that of the
binding at every moment between. -/
theorem accepted_constant {binding : BindingBindingExpectation} {first second : List (Call Spec)}
    (read : Shows registry key binding)
    (present : Present (serve computeBindingScopeKey) (bindingCell key) registry
      (first ++ second))
    (shown : Shows (serveAll computeBindingScopeKey registry (first ++ second)) key binding) :
    Shows (serveAll computeBindingScopeKey registry first) key binding := by
  obtain ⟨before, after⟩ := present.split
  obtain ⟨middle, halfway⟩ := after.first
  have soundHalfway : Sound (serveAll computeBindingScopeKey registry first) :=
    sound_serveAll sound first
  rw [serveAll_append] at shown
  rw [shows_iff] at read shown ⊢
  have left := present_follows sound before read halfway
  have right := present_follows soundHalfway after halfway shown
  rw [← left.constant right rfl]
  exact halfway

theorem accepted_shows {call : Call Spec} {binding : BindingBindingExpectation}
    (accepted : acceptedBy call (transact computeBindingScopeKey registry call).2 =
      some (key, binding)) : Shows registry key binding :=
  (effect_transact sound.rows call).accepted key binding accepted

end

/-- The registry fences its bindings: after any calls of any daemons a device is held once, a
binding has one open entry, and a host's namespace has one live scope; the next call raises the
generation of a binding by one on a commit and on the entry into a fencing state and otherwise
leaves it; what an open entry recorded does not come back; and a token is accepted only where the
binding shows it, which it then did ever since it was read, if it was there all the time. -/
theorem registry_fences_bindings (past : List (Call Spec)) :
    let registry := serveAll computeBindingScopeKey {} past
    DevicesHeldOnce registry ∧ OneOpenEntry registry ∧ OneLiveScope registry ∧
    (∀ call key row later, get? registry.assignments key = some row →
      get? (transact computeBindingScopeKey registry call).1.assignments key = some later →
      later.generation = row.generation +
        if committedBy call (transact computeBindingScopeKey registry call).2 = some key ∨
          entersFencingState row.state later.state = true then 1 else 0) ∧
    (∀ id entry latest first second, OpenEntry registry id entry →
      ¬ Shows (serveAll computeBindingScopeKey registry first) entry.key entry.binding →
      OpenEntry (serveAll computeBindingScopeKey registry (first ++ second)) id latest →
      ¬ Shows (serveAll computeBindingScopeKey registry (first ++ second)) entry.key
        entry.binding) ∧
    (∀ key binding calls call, Shows registry key binding →
      acceptedBy call (transact computeBindingScopeKey
        (serveAll computeBindingScopeKey registry calls) call).2 = some (key, binding) →
      Shows (serveAll computeBindingScopeKey registry calls) key binding ∧
      (Present (serve computeBindingScopeKey) (bindingCell key) registry calls →
        ∀ first second, calls = first ++ second →
          Shows (serveAll computeBindingScopeKey registry first) key binding)) := by
  intro registry
  have sound : Sound registry := sound_serveAll sound_empty past
  refine ⟨sound.devices, sound.single, ?_, ?_, ?_, ?_⟩
  · intro first second one two found found' _ _ hosts namespaces
    exact sound.scopes.once first second one two found found' hosts namespaces
  · intro call key row later found reached
    exact (effect_transact sound.rows call).generation found reached
  · intro id entry latest first second opened left still
    exact recorded_never_recurs sound opened left still
  · intro key binding calls call read accepted
    have shown := accepted_shows (sound_serveAll sound calls) accepted
    refine ⟨shown, fun present first second split => ?_⟩
    subst split
    exact accepted_constant sound read present shown

end Histories

end AutoMobile.BindingRegistry
