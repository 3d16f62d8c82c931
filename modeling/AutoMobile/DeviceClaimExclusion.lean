import AutoMobile.DeviceClaimMirror

/- Who the table's rows name while the claims, releases and retries of all daemons are in flight. -/
namespace AutoMobile.DeviceClaims

open List hiding keys
open InsertionMap Runs

section Gist

/-- What retries, reconciliations and confirmations leave of an intent. -/
structure Gist where
  kind : Kind
  acquired : Bool
  isLiveForeignOwner : Bool
deriving DecidableEq

def MirrorIntent.gist (intent : MirrorIntent) : Gist :=
  ⟨intent.kind, intent.acquired, intent.isLiveForeignOwner⟩

/-- Every intent of the daemon is as `wanted` says for its device. -/
def Intends (system : System) (daemon : Owner) (wanted : Device → Gist → Prop) : Prop :=
  ∀ device intent, get? (system.mirrors daemon).intents device = some intent →
    wanted device intent.gist

/-- The write of an intent that `wanted` allows, just issued. -/
structure Issued (daemon : Owner) (wanted : Device → Gist → Prop) (proc : Proc) : Prop where
  daemon : proc.daemon = daemon
  write : ∃ version intent, proc.task = .write version intent ∧ wanted proc.device intent.gist ∧
    proc.phase = if intent.kind = .release then .releasing else .getting

/-- What a daemon's own bookkeeping makes of the system: intents as wanted and new writes. -/
structure Extends (daemon : Owner) (wanted : Device → Gist → Prop) (before after : System) :
    Prop where
  table : after.table = before.table
  dead : after.dead = before.dead
  holding : after.holding = before.holding
  others : ∀ other, other ≠ daemon → after.mirrors other = before.mirrors other
  intents : Intends after daemon wanted
  procs : ∃ added, after.procs = before.procs ++ added ∧ ∀ proc ∈ added, Issued daemon wanted proc

variable {daemon : Owner} {wanted : Device → Gist → Prop} {system first second third : System}

theorem Extends.refl (intends : Intends system daemon wanted) :
    Extends daemon wanted system system :=
  ⟨rfl, rfl, rfl, fun _ _ => rfl, intends, [], by simp, by simp⟩

theorem Extends.trans (one : Extends daemon wanted first second)
    (two : Extends daemon wanted second third) : Extends daemon wanted first third := by
  obtain ⟨added, early, issuedEarly⟩ := one.procs
  obtain ⟨more, late, issuedLate⟩ := two.procs
  refine ⟨two.table.trans one.table, two.dead.trans one.dead, two.holding.trans one.holding,
    fun other distinct => (two.others other distinct).trans (one.others other distinct),
    two.intents, added ++ more, ?_, ?_⟩
  · rw [late, early, append_assoc]
  · intro proc member
    obtain member | member := mem_append.mp member
    · exact issuedEarly proc member
    · exact issuedLate proc member

/-- A daemon whose mirror alone changes. -/
theorem Extends.setMirror (mirror : Mirror)
    (intends : ∀ device intent, get? mirror.intents device = some intent →
      wanted device intent.gist) :
    Extends daemon wanted system (system.setMirror daemon mirror) := by
  refine ⟨rfl, rfl, rfl, fun other distinct => ?_, ?_, [], by simp [System.setMirror], by simp⟩
  · exact Function.update_of_ne distinct _ _
  · intro device intent found
    apply intends device intent
    simpa [System.setMirror] using found

variable {device : Device} {intent : MirrorIntent}

theorem intends_put {intents : InsertionMap Device MirrorIntent}
    (intends : ∀ other held, get? intents other = some held → wanted other held.gist)
    (allowed : wanted device intent.gist) :
    ∀ other held, get? (put intents device intent) other = some held → wanted other held.gist := by
  intro other held found
  rw [get?_put] at found
  split at found
  next same =>
    rw [← same, ← Option.some.inj found]
    exact allowed
  next => exact intends other held found

theorem intends_erase {intents : InsertionMap Device MirrorIntent}
    (intends : ∀ other held, get? intents other = some held → wanted other held.gist) :
    ∀ other held, get? (erase intents device) other = some held → wanted other held.gist := by
  intro other held found
  replace found := (of_get?_erase found).2
  exact intends other held found

theorem Extends.setIntent (intends : Intends system daemon wanted)
    (allowed : wanted device intent.gist) :
    Extends daemon wanted system (system.setIntent daemon device intent) :=
  Extends.setMirror _ (intends_put intends allowed)

theorem Extends.dropIntent (intends : Intends system daemon wanted) (device : Device)
    (object : Nat) : Extends daemon wanted system (system.dropIntent daemon device object) := by
  unfold System.dropIntent
  dsimp only
  split
  · split
    · exact Extends.setMirror _ (intends_erase intends)
    · exact Extends.refl intends
  · exact Extends.refl intends

theorem Extends.scheduleRetry (intends : Intends system daemon wanted)
    (allowed : wanted device intent.gist) :
    Extends daemon wanted system (scheduleRetry system daemon device intent) := by
  unfold AutoMobile.DeviceClaims.scheduleRetry
  dsimp only
  split
  · exact Extends.refl intends
  · split
    · exact Extends.setIntent intends allowed
    · exact Extends.refl intends

theorem Extends.write (intends : Intends system daemon wanted) (device : Device) (given : Bool)
    (reading : Reading) :
    Extends daemon wanted system (write system daemon device given reading) := by
  unfold AutoMobile.DeviceClaims.write
  dsimp only
  split
  next => exact Extends.refl intends
  next intent found =>
    have allowed := intends device intent found
    split
    · exact Extends.refl intends
    · split
      · exact Extends.setMirror _ (intends_erase intends)
      · split
        · exact Extends.scheduleRetry intends allowed
        · have issuing : Extends daemon wanted system (system.setMirror daemon
              { system.mirrors daemon with
                inFlight := (system.mirrors daemon).inFlight ++ [device] }) :=
            Extends.setMirror _ intends
          refine ⟨issuing.table, issuing.dead, issuing.holding, issuing.others, issuing.intents,
            _, rfl, ?_⟩
          intro proc member
          rw [mem_singleton.mp member]
          exact ⟨rfl, intent.version, intent, rfl, allowed, rfl⟩

theorem Extends.record (intends : Intends system daemon wanted)
    (allowed : wanted device intent.gist) (reading : Reading) :
    Extends daemon wanted system (record system daemon device intent reading) := by
  unfold AutoMobile.DeviceClaims.record
  dsimp only
  split
  · exact Extends.refl intends
  · have recorded : Extends daemon wanted system _ :=
      Extends.setMirror { system.mirrors daemon with
        versions := (system.mirrors daemon).versions + 1
        intents := put (system.mirrors daemon).intents device
          { intent with
            object := (system.mirrors daemon).versions + 1
            version := (system.mirrors daemon).versions + 1 } } (intends_put intends allowed)
    exact recorded.trans (Extends.write recorded.intents device false reading)

theorem Extends.reconcile (intends : Intends system daemon wanted) (reading : Reading) :
    Extends daemon wanted system (reconcile system daemon reading) := by
  unfold AutoMobile.DeviceClaims.reconcile
  split
  next => exact Extends.refl intends
  next served =>
    clear served
    generalize keys (system.mirrors daemon).intents = devices
    induction devices generalizing system with
    | nil => exact Extends.refl intends
    | cons device devices ih =>
      simp only [foldl_cons]
      split
      next => exact ih intends
      next intent found =>
        have allowed := intends device intent found
        have renewed : Extends daemon wanted system _ :=
          Extends.setMirror { system.mirrors daemon with
            versions := (system.mirrors daemon).versions + 1
            intents := put (system.mirrors daemon).intents device { intent with
              synced := false
              attempts := 0
              version := (system.mirrors daemon).versions + 1
              retry := false } } (intends_put intends allowed)
        have written := renewed.trans (Extends.write renewed.intents device true reading)
        exact written.trans (ih written.intents)

theorem Extends.retry (intends : Intends system daemon wanted) (device : Device)
    (reading : Reading) : Extends daemon wanted system (retry system daemon device reading) := by
  unfold AutoMobile.DeviceClaims.retry
  dsimp only
  split
  next intent found =>
    have allowed := intends device intent found
    split
    · have fired : Extends daemon wanted system
          (system.setIntent daemon device { intent with retry := false }) :=
        Extends.setIntent intends allowed
      split
      · exact fired
      · exact fired.trans (Extends.write fired.intents device false reading)
    · exact Extends.refl intends
  next => exact Extends.refl intends

end Gist

section Sound

/-- Whether a task may still write a row. -/
def Phase.writes : Phase → Bool
  | .getting | .got _ | .judging _ | .replacing _ _ | .replaced _ _ => true
  | _ => false

/-- The row of the device names its daemon. -/
def Named (system : System) (daemon : Owner) (device : Device) : Prop :=
  ∃ row, system.table device = some row ∧ row.owner = daemon

/-- A claim written by the files' decision checks the owner it replaces, and no release is owed for
what the daemon holds. -/
def Wanted (system : System) (daemon : Owner) (device : Device) (gist : Gist) : Prop :=
  (gist.kind = .claim → gist.acquired = true ∨ gist.isLiveForeignOwner = true) ∧
    (system.holding daemon device = true → gist.kind ≠ .release)

structure SoundProc (system : System) (proc : Proc) : Prop where
  noRelease : system.holding proc.daemon proc.device = true → proc.phase ≠ .releasing
  pending : ∀ attempt claim, proc.task = .acquire attempt → proc.phase = .replaced true claim →
    system.dead proc.daemon = false → Named system proc.daemon proc.device
  judged : ∀ row claim, proc.phase = .replacing (some row) claim →
    row.owner = proc.daemon ∨ system.dead row.owner = true
  own : ∀ expected claim, proc.phase = .replacing expected claim → claim.owner = proc.daemon
  checks : ∀ version intent, proc.task = .write version intent → proc.phase.writes = true →
    intent.acquired = true ∨ intent.isLiveForeignOwner = true

structure Sound (system : System) : Prop where
  row : ∀ daemon device, system.holding daemon device = true → system.dead daemon = false →
    Named system daemon device
  intents : ∀ daemon, Intends system daemon (Wanted system daemon)
  procs : ∀ proc ∈ system.procs, SoundProc system proc

/-- Whether the task is an acquire that wrote its row and has not answered. -/
def Proc.won (proc : Proc) : Bool :=
  match proc.task, proc.phase with
  | .acquire _, .replaced true _ => true
  | _, _ => false

theorem Proc.won_of {proc : Proc} {attempt : Nat} {claim : DeviceClaim}
    (task : proc.task = .acquire attempt) (replaced : proc.phase = .replaced true claim) :
    proc.won = true := by
  simp only [won, task, replaced]

/-- The owner whose row the task has judged. -/
def Proc.judges (proc : Proc) : Option Owner :=
  match proc.phase with
  | .judging row => some row.owner
  | _ => none

/-- No release of a daemon waits for the table while the row that its own acquire of the device
wrote is not answered for. -/
def Clear (system : System) : Prop :=
  ∀ proc ∈ system.procs, proc.won = true → ∀ other ∈ system.procs,
    other.daemon = proc.daemon → other.device = proc.device → other.phase ≠ .releasing

instance (system : System) : Decidable (Clear system) :=
  inferInstanceAs (Decidable (∀ proc ∈ system.procs, proc.won = true → ∀ other ∈ system.procs,
    other.daemon = proc.daemon → other.device = proc.device → other.phase ≠ .releasing))

/-- Whether a claim that the files decided comes with a check of a row's owner. -/
def Event.checked : Event → Bool
  | .claimed _ _ _ _ isLiveForeignOwner => isLiveForeignOwner
  | _ => true

/-- Whether the step calls no live owner dead. -/
def truthful (system : System) (event : Event) : Bool :=
  match event with
  | .verdict index false => (system.procs[index]?.bind Proc.judges).all system.dead
  | _ => true

variable {system after : System} {proc : Proc}

/-- A task in a phase of no account. -/
theorem SoundProc.idle (proc : Proc) (releasing : proc.phase ≠ .releasing)
    (replaced : ∀ claim, proc.phase ≠ .replaced true claim)
    (replacing : ∀ expected claim, proc.phase ≠ .replacing expected claim)
    (checks : ∀ version intent, proc.task = .write version intent → proc.phase.writes = true →
      intent.acquired = true ∨ intent.isLiveForeignOwner = true) : SoundProc system proc :=
  { noRelease := fun _ => releasing
    pending := fun _ claim _ phase => absurd phase (replaced claim)
    judged := fun row claim phase => absurd phase (replacing (some row) claim)
    own := fun expected claim phase => absurd phase (replacing expected claim)
    checks := checks }

theorem SoundProc.of_issued {daemon : Owner} (issued : Issued daemon (Wanted system daemon) proc) :
    SoundProc system proc := by
  obtain ⟨version, intent, task, wanted, phase⟩ := issued.write
  have daemonIs := issued.daemon
  by_cases releases : intent.kind = .release
  · rw [if_pos releases] at phase
    refine ⟨fun holds => ?_, ?_, ?_, ?_, ?_⟩
    · rw [daemonIs] at holds
      exact absurd releases (wanted.2 holds)
    · intro _ _ _ replaced
      rw [phase] at replaced
      contradiction
    · intro _ _ replacing
      rw [phase] at replacing
      contradiction
    · intro _ _ replacing
      rw [phase] at replacing
      contradiction
    · intro _ _ _ writes
      rw [phase] at writes
      contradiction
  · rw [if_neg releases] at phase
    apply SoundProc.idle proc
    · rw [phase]
      exact Phase.noConfusion
    · intro claim
      rw [phase]
      exact Phase.noConfusion
    · intro expected claim
      rw [phase]
      exact Phase.noConfusion
    · intro other held task' _
      rw [task] at task'
      obtain ⟨_, rfl⟩ := Task.write.inj task'
      have claims : intent.kind = .claim := by
        cases kind : intent.kind with
        | claim => rfl
        | release => exact absurd kind releases
      exact wanted.1 claims

/-- Fewer hold, more have ended, and the rows stay: what was sound stays sound. -/
theorem SoundProc.mono (sound : SoundProc system proc) (table : after.table = system.table)
    (dead : ∀ daemon, system.dead daemon = true → after.dead daemon = true)
    (holding : ∀ daemon device, after.holding daemon device = true →
      system.holding daemon device = true) : SoundProc after proc := by
  refine ⟨fun holds => sound.noRelease (holding _ _ holds), ?_, ?_, sound.own, sound.checks⟩
  · intro attempt claim task phase alive
    have lived : system.dead proc.daemon = false := by
      cases ended : system.dead proc.daemon with
      | false => rfl
      | true => rw [dead _ ended] at alive; exact alive
    obtain ⟨row, found, owner⟩ := sound.pending attempt claim task phase lived
    exact ⟨row, by rw [table]; exact found, owner⟩
  · intro row claim phase
    obtain own | ended := sound.judged row claim phase
    · exact Or.inl own
    · exact Or.inr (dead _ ended)

/-- The daemon's bookkeeping keeps a system sound. -/
theorem Sound.extends {daemon : Owner} (sound : Sound system)
    (extends' : Extends daemon (Wanted system daemon) system after) : Sound after := by
  have wanted : ∀ other, Wanted after other = Wanted system other := by
    intro other
    funext device gist
    simp only [Wanted, extends'.holding]
  refine ⟨?_, fun other => ?_, ?_⟩
  · intro other device holds alive
    rw [extends'.holding] at holds
    rw [extends'.dead] at alive
    obtain ⟨row, found, owner⟩ := sound.row other device holds alive
    exact ⟨row, by rw [extends'.table]; exact found, owner⟩
  · rw [wanted]
    by_cases same : other = daemon
    · rw [same]
      exact extends'.intents
    · intro device intent found
      rw [extends'.others other same] at found
      exact sound.intents other device intent found
  · obtain ⟨added, procs, issued⟩ := extends'.procs
    intro proc member
    rw [procs] at member
    obtain member | member := mem_append.mp member
    · exact (sound.procs proc member).mono extends'.table
        (fun _ ended => by rw [extends'.dead]; exact ended)
        (fun _ _ holds => by rw [extends'.holding] at holds; exact holds)
    · apply SoundProc.of_issued
      rw [wanted]
      exact issued proc member

theorem Sound.setProc (sound : Sound system) {index : Nat} (next : SoundProc system proc) :
    Sound (system.setProc index proc) := by
  refine ⟨sound.row, sound.intents, fun other member => ?_⟩
  have mono : ∀ {one : Proc}, SoundProc system one → SoundProc (system.setProc index proc) one :=
    fun held => held.mono rfl (fun _ ended => ended) (fun _ _ holds => holds)
  obtain member | rfl := mem_or_eq_of_mem_set member
  · exact mono (sound.procs other member)
  · exact mono next

end Sound

section Execution

variable {system : System} {proc : Proc} {index : Nat}

variable {table : Table} {expected : Option DeviceClaim} {claim : DeviceClaim}

/-- A compare-and-set that succeeds replaces the row it judged, or none. -/
theorem replaceIf_true {changed : Table} {device : Device}
    (written : replaceIf table expected device claim = (true, changed)) :
    changed = Function.update table device (some claim) ∧
      ∀ row, table device = some row → ∃ judged, expected = some judged ∧ row.owner = judged.owner := by
  unfold replaceIf at written
  cases found : table device with
  | none =>
    cases expected with
    | none =>
      simp only [found, Prod.mk.injEq, true_and] at written
      exact ⟨written.symm, by simp⟩
    | some judged => simp [found] at written
  | some row =>
    cases expected with
    | none => simp [found] at written
    | some judged =>
      simp only [found] at written
      split at written
      next same =>
        refine ⟨(Prod.mk.inj written).2.symm, fun other found => ?_⟩
        rw [← Option.some.inj found]
        exact ⟨judged, rfl, same.1⟩
      next => simp at written

theorem replaceIf_false {changed : Table} {device : Device}
    (refused : replaceIf table expected device claim = (false, changed)) :
    changed = table := by
  unfold replaceIf at refused
  split at refused
  · simp at refused
  · split at refused
    · simp at refused
    · exact (Prod.mk.inj refused).2.symm
  · exact (Prod.mk.inj refused).2.symm

/-- A change of the table that takes no row from a live owner that holds or awaits its answer. -/
theorem Sound.retable (sound : Sound system) (table : Table)
    (kept : ∀ daemon device, system.dead daemon = false → Named system daemon device →
      (system.holding daemon device = true ∨ ∃ proc ∈ system.procs, ∃ attempt claim,
        proc.task = .acquire attempt ∧ proc.phase = .replaced true claim ∧
          proc.daemon = daemon ∧ proc.device = device) →
      Named { system with table := table } daemon device) :
    Sound { system with table := table } := by
  refine ⟨?_, sound.intents, ?_⟩
  · intro daemon device holds alive
    exact kept daemon device alive (sound.row daemon device holds alive) (Or.inl holds)
  · intro proc member
    have held := sound.procs proc member
    refine ⟨held.noRelease, ?_, held.judged, held.own, held.checks⟩
    intro attempt claim task phase alive
    exact kept _ _ alive (held.pending attempt claim task phase alive)
      (Or.inr ⟨proc, member, attempt, claim, task, phase, rfl, rfl⟩)

theorem Sound.release (sound : Sound system) (clear : Clear system) (member : proc ∈ system.procs)
    (releasing : proc.phase = .releasing) :
    Sound { system with table := release system.table proc.device proc.daemon } := by
  refine sound.retable _ ?_
  rintro daemon device alive ⟨row, found, owner⟩ holds
  refine ⟨row, ?_, owner⟩
  unfold AutoMobile.DeviceClaims.release
  split
  next stored there =>
    split
    next mine =>
      by_cases same : device = proc.device
      · -- Only the holder's own release takes its row, and none of those waits.
        subst same
        have stored' : stored = row := Option.some.inj (there.symm.trans found)
        have daemonIs : daemon = proc.daemon := by rw [← owner, ← stored', mine]
        obtain holds | ⟨acquirer, acquires, attempt, claim, task, phase, named, at'⟩ := holds
        · rw [daemonIs] at holds
          exact absurd releasing ((sound.procs proc member).noRelease holds)
        · exact absurd releasing (clear acquirer acquires (Proc.won_of task phase) proc member
            (by rw [named, daemonIs]) (by rw [at']))
      · simpa [Function.update_of_ne same] using found
    next => exact found
  next => exact found

theorem Sound.replace (sound : Sound system) (member : proc ∈ system.procs)
    (replacing : proc.phase = .replacing expected claim)
    (written : replaceIf system.table expected proc.device claim = (true, table)) :
    Sound { system with table := table } ∧
      Named { system with table := table } proc.daemon proc.device := by
  have held := sound.procs proc member
  obtain ⟨changed, judged⟩ := replaceIf_true written
  subst changed
  have mine : claim.owner = proc.daemon := held.own expected claim replacing
  have named : Named { system with table := Function.update system.table proc.device (some claim) }
      proc.daemon proc.device := ⟨claim, by simp, mine⟩
  refine ⟨sound.retable _ ?_, named⟩
  rintro daemon device alive ⟨row, found, owner⟩ _
  by_cases same : device = proc.device
  · -- The row that was judged is the holder's own: it is the writer, or it has ended.
    subst same
    obtain ⟨before, rfl, owners⟩ := judged row found
    obtain own | ended := held.judged before claim replacing
    · have daemonIs : daemon = proc.daemon := by rw [← owner, owners, own]
      rw [daemonIs]
      exact named
    · rw [← owners, owner, alive] at ended
      contradiction
  · exact ⟨row, by simpa [Function.update_of_ne same] using found, owner⟩

theorem Sound.execute (sound : Sound system) (clear : Clear system)
    (there : system.procs[index]? = some proc) :
    Sound (execute system index proc) := by
  have member : proc ∈ system.procs := List.mem_of_getElem? there
  have held := sound.procs proc member
  unfold AutoMobile.DeviceClaims.execute
  split
  next getting =>
    apply sound.setProc
    apply SoundProc.idle <;> try simp
    intro version intent task _
    exact held.checks version intent task (by rw [getting]; rfl)
  next expected claim replacing =>
    have checks : ∀ version intent, proc.task = .write version intent →
        intent.acquired = true ∨ intent.isLiveForeignOwner = true :=
      fun version intent task => held.checks version intent task (by rw [replacing]; rfl)
    cases written : replaceIf system.table expected proc.device claim with
    | mk ok table =>
      cases ok with
      | true =>
        obtain ⟨sound', named⟩ := sound.replace member replacing written
        have next : SoundProc { system with table := table }
            { proc with phase := .replaced true claim } :=
          { noRelease := fun _ => Phase.noConfusion
            pending := fun _ _ _ _ _ => named
            judged := fun _ _ phase => Phase.noConfusion phase
            own := fun _ _ phase => Phase.noConfusion phase
            checks := fun version intent task _ => checks version intent task }
        exact sound'.setProc next
      | false =>
        rw [replaceIf_false written]
        have next : SoundProc system { proc with phase := .replaced false claim } := by
          apply SoundProc.idle <;> try simp
          intro version intent task _
          exact checks version intent task
        exact sound.setProc next
  next releasing =>
    have sound' := sound.release clear member releasing
    have next : SoundProc { system with
        table := DeviceClaims.release system.table proc.device proc.daemon }
        { proc with phase := .released } := by
      apply SoundProc.idle <;> simp [Phase.writes]
    exact sound'.setProc next
  next => exact sound

end Execution

section Continuations

variable {system : System} {proc : Proc} {index : Nat}

/-- A task goes on to a phase that neither writes nor answers. -/
theorem Sound.at (sound : Sound system) (held : SoundProc system proc) (index : Nat) {phase : Phase}
    (releasing : phase ≠ .releasing) (replaced : ∀ claim, phase ≠ .replaced true claim)
    (replacing : ∀ expected claim, phase ≠ .replacing expected claim)
    (writes : phase.writes = true → proc.phase.writes = true) :
    Sound (system.at index proc phase) := by
  apply sound.setProc
  apply SoundProc.idle
  · exact releasing
  · exact replaced
  · exact replacing
  · exact fun version intent task phaseWrites =>
      held.checks version intent task (writes phaseWrites)

/-- A task issues its compare-and-set on a row of its own, of a dead owner, or on none. -/
theorem Sound.atReplacing (sound : Sound system) (held : SoundProc system proc) (index : Nat)
    {expected : Option DeviceClaim} {claim : DeviceClaim} (mine : claim.owner = proc.daemon)
    (judged : ∀ row, expected = some row → row.owner = proc.daemon ∨ system.dead row.owner = true)
    (writes : proc.phase.writes = true) :
    Sound (system.at index proc (.replacing expected claim)) := by
  apply sound.setProc
  refine ⟨fun _ => Phase.noConfusion, fun _ _ _ phase => Phase.noConfusion phase, ?_, ?_, ?_⟩
  · intro row other phase
    exact judged row (Phase.replacing.inj phase).1
  · intro before other phase
    rw [← (Phase.replacing.inj phase).2]
    exact mine
  · exact fun version intent task _ => held.checks version intent task writes

theorem Sound.reject (sound : Sound system) (there : system.procs[index]? = some proc) :
    Sound (reject system index proc) := by
  have held := sound.procs proc (List.mem_of_getElem? there)
  unfold AutoMobile.DeviceClaims.reject
  split <;>
    first
      | exact sound
      | exact sound.at held index (by simp) (by simp) (by simp) (by simp [Phase.writes])

theorem Sound.acquire (sound : Sound system) (daemon : Owner) (device : Device)
    (metadata : Option String) (reading : Reading) :
    Sound (acquire system daemon device metadata reading).1 := by
  unfold AutoMobile.DeviceClaims.acquire
  dsimp only
  split
  · exact sound
  · refine ⟨sound.row, sound.intents, fun proc member => ?_⟩
    obtain member | member := List.mem_append.mp member
    · exact (sound.procs proc member).mono rfl (fun _ ended => ended) (fun _ _ holds => holds)
    · rw [List.mem_singleton.mp member]
      apply SoundProc.idle <;> simp

theorem claimRowFor_owner (proc : Proc) (claimedAtMs : Int) (held : Option DeviceClaim)
    (reading : Reading) : (claimRowFor proc claimedAtMs held reading).owner = proc.daemon := by
  cases held with
  | none => rfl
  | some row => rfl

theorem Sound.verdict (sound : Sound system) (there : system.procs[index]? = some proc)
    (live : Bool) (reading : Reading)
    (truthful : live = false → ∀ row, proc.phase = .judging row → system.dead row.owner = true) :
    Sound (verdict system index proc live reading).1 := by
  have held := sound.procs proc (List.mem_of_getElem? there)
  unfold AutoMobile.DeviceClaims.verdict
  split
  next row judging =>
    have writes : proc.phase.writes = true := by
      rw [judging]
      rfl
    have dead : live = false → ∀ other, some row = some other →
        other.owner = proc.daemon ∨ system.dead other.owner = true := by
      intro found other same
      rw [← Option.some.inj same]
      exact Or.inr (truthful found row judging)
    cases live with
    | true =>
      cases task : proc.task with
      | acquire attempt => exact sound.at held index (by simp) (by simp) (by simp) (by simp [Phase.writes])
      | write version intent =>
        exact sound.at held index (by simp) (by simp) (by simp) (by simp [Phase.writes])
    | false =>
      cases task : proc.task with
      | acquire attempt => exact sound.atReplacing held index rfl (dead rfl) writes
      | write version intent =>
        exact sound.atReplacing held index (claimRowFor_owner _ _ _ _) (dead rfl) writes
  next => exact sound

variable {intent : MirrorIntent}

theorem recordAcquired_kind {claimedAtMs : Int}
    (found : get? ((recordAcquired system proc claimedAtMs).mirrors proc.daemon).intents
      proc.device = some intent) : intent.kind = .claim := by
  simp only [recordAcquired, System.setMirror, Function.update_self, get?_put_self,
    Option.some.injEq] at found
  rw [← found]

/-- The moment an acquire is told `claimed`. -/
theorem Sound.told (sound : Sound system) (clear : Clear system)
    (there : system.procs[index]? = some proc) {attempt : Nat} {claim : DeviceClaim}
    (task : proc.task = .acquire attempt) (replaced : proc.phase = .replaced true claim)
    (alive : system.dead proc.daemon = false) (reading : Reading) :
    Sound (settleAcquire system index proc attempt reading).1 := by
  have member := List.mem_of_getElem? there
  have held := sound.procs proc member
  have named := held.pending attempt claim task replaced alive
  have done : Sound (system.at index proc .done) :=
    sound.at held index (by simp) (by simp) (by simp) (by simp [Phase.writes])
  simp only [settleAcquire, replaced]
  let recorded := recordAcquired (system.at index proc .done) proc claim.claimedAtMs
  have extends' : Extends proc.daemon (Wanted system proc.daemon)
      (system.at index proc .done) recorded :=
    Extends.setMirror _ (intends_put (done.intents proc.daemon)
      ⟨fun _ => Or.inl rfl, fun _ => by simp [MirrorIntent.gist]⟩)
  have sound' : Sound recorded := done.extends extends'
  have holds : ∀ daemon device, Function.update recorded.holding proc.daemon
        (Function.update (recorded.holding proc.daemon) proc.device true) daemon device = true →
      daemon = proc.daemon ∧ device = proc.device ∨ recorded.holding daemon device = true := by
    intro daemon device holds
    by_cases daemonIs : daemon = proc.daemon
    · subst daemonIs
      by_cases deviceIs : device = proc.device
      · exact Or.inl ⟨rfl, deviceIs⟩
      · rw [Function.update_self, Function.update_of_ne deviceIs] at holds
        exact Or.inr holds
    · rw [Function.update_of_ne daemonIs] at holds
      exact Or.inr holds
  refine ⟨?_, ?_, ?_⟩
  · intro daemon device holding lives
    obtain ⟨rfl, rfl⟩ | holding := holds daemon device holding
    · exact named
    · exact sound'.row daemon device holding lives
  · intro daemon device intent found
    have wanted := sound'.intents daemon device intent found
    refine ⟨wanted.1, fun holding => ?_⟩
    obtain ⟨rfl, rfl⟩ | holding := holds daemon device holding
    · have claims : intent.kind = .claim := recordAcquired_kind found
      simp [MirrorIntent.gist, claims]
    · exact wanted.2 holding
  · intro other present
    have sound'' := sound'.procs other present
    refine ⟨fun holding => ?_, sound''.pending, sound''.judged, sound''.own, sound''.checks⟩
    obtain ⟨daemonIs, deviceIs⟩ | holding := holds other.daemon other.device holding
    · -- The condition: no release of the daemon for the device waits for the table.
      obtain present | finished := List.mem_or_eq_of_mem_set present
      · exact clear proc member (Proc.won_of task replaced) other present daemonIs deviceIs
      · rw [finished]
        exact Phase.noConfusion
    · exact sound''.noRelease holding

theorem Sound.settleAcquire (sound : Sound system) (clear : Clear system)
    (there : system.procs[index]? = some proc) {attempt : Nat}
    (task : proc.task = .acquire attempt) (alive : system.dead proc.daemon = false)
    (reading : Reading) : Sound (settleAcquire system index proc attempt reading).1 := by
  have held := sound.procs proc (List.mem_of_getElem? there)
  cases phase : proc.phase with
  | replaced ok claim =>
    cases ok with
    | true => exact sound.told clear there task phase alive reading
    | false =>
      simp only [DeviceClaims.settleAcquire, phase]
      apply sound.setProc
      apply SoundProc.idle <;> simp
  | rejected =>
    simp only [DeviceClaims.settleAcquire, phase]
    exact sound.at held index (by simp) (by simp) (by simp) (by simp [Phase.writes])
  | got row =>
    have writes : proc.phase.writes = true := by
      rw [phase]
      rfl
    simp only [DeviceClaims.settleAcquire, phase]
    split
    · exact sound.at held index (by simp) (by simp) (by simp) (by simp [Phase.writes])
    · cases row with
      | none => exact sound.atReplacing held index rfl (by simp) writes
      | some row =>
        dsimp only
        split
        next mine =>
          refine sound.atReplacing held index rfl (fun other same => ?_) writes
          rw [← Option.some.inj same]
          exact Or.inl mine
        next => exact sound.at held index (by simp) (by simp) (by simp) (fun _ => writes)
  | _ =>
    simp only [DeviceClaims.settleAcquire, phase]
    exact sound

theorem SoundProc.extends {daemon : Owner} {after : System} (held : SoundProc system proc)
    (extends' : Extends daemon (Wanted system daemon) system after) : SoundProc after proc :=
  held.mono extends'.table (fun _ ended => by rw [extends'.dead]; exact ended)
    (fun _ _ holds => by rw [extends'.holding] at holds; exact holds)

/-- An intent is dropped where a write of it ends. -/
theorem Sound.dropIntent (sound : Sound system) (held : SoundProc system proc) (index object : Nat) :
    Sound ((system.dropIntent proc.daemon proc.device object).at index proc (.resolved true)) := by
  have dropped := Extends.dropIntent (sound.intents proc.daemon) proc.device object
  exact (sound.extends dropped).at (held.extends dropped) index (by simp) (by simp) (by simp)
    (by simp [Phase.writes])

theorem Sound.settleGot (sound : Sound system) (held : SoundProc system proc) (index : Nat)
    {issued : Nat} (task : proc.task = .write issued intent) {row : Option DeviceClaim}
    (phase : proc.phase = .got row) (reading : Reading) :
    Sound (settleWrite system index proc issued intent reading) := by
  have writes : proc.phase.writes = true := by
    rw [phase]
    rfl
  have replacing : (∀ other, row = some other → other.owner = proc.daemon) →
      Sound (system.at index proc
        (.replacing row (claimRowFor proc intent.claimedAtMs row reading))) := fun own =>
    sound.atReplacing held index (claimRowFor_owner _ _ _ _)
      (fun other same => Or.inl (own other same)) writes
  simp only [settleWrite, phase]
  split
  next acquired =>
    split
    next => exact sound.dropIntent held index intent.object
    next own =>
      apply replacing
      intro other same
      simpa [foreign, same] using own
  next undecided =>
    cases row with
    | none => exact replacing (by simp)
    | some row =>
      dsimp only
      split
      next => exact sound.at held index (by simp) (by simp) (by simp) (fun _ => writes)
      next unjudged =>
        apply replacing
        intro other same
        have judges : intent.isLiveForeignOwner = true :=
          (held.checks issued intent task writes).resolve_left undecided
        rw [← Option.some.inj same]
        simpa [judges] using unjudged

theorem Sound.settleWrite (sound : Sound system) (there : system.procs[index]? = some proc)
    {issued : Nat} (task : proc.task = .write issued intent) (reading : Reading) :
    Sound (settleWrite system index proc issued intent reading) := by
  have held := sound.procs proc (List.mem_of_getElem? there)
  have resolved : ∀ ok, Sound (system.at index proc (.resolved ok)) := fun ok =>
    sound.at held index (by simp) (by simp) (by simp) (by simp [Phase.writes])
  cases phase : proc.phase with
  | got row => exact sound.settleGot held index task phase reading
  | replaced ok claim =>
    simp only [DeviceClaims.settleWrite, phase]
    split
    · cases ok with
      | true => exact resolved true
      | false => exact sound.dropIntent held index intent.object
    · exact resolved ok
  | released =>
    simp only [DeviceClaims.settleWrite, phase]
    exact resolved true
  | rejected =>
    simp only [DeviceClaims.settleWrite, phase]
    exact resolved false
  | resolved ok =>
    simp only [DeviceClaims.settleWrite, phase]
    have settled : Sound (system.at index proc .finishing) :=
      sound.at held index (by simp) (by simp) (by simp) (by simp [Phase.writes])
    split
    next latest found =>
      have wanted := settled.intents proc.daemon proc.device latest found
      split
      · cases ok with
        | true =>
          simp only [if_true, confirm]
          split
          · exact settled.extends
              (Extends.setMirror _ (intends_erase (settled.intents proc.daemon)))
          · exact settled.extends (Extends.setIntent (settled.intents proc.daemon) wanted)
        | false =>
          exact settled.extends (Extends.scheduleRetry (settled.intents proc.daemon) wanted)
      · exact settled
    next => exact settled
  | finishing =>
    simp only [DeviceClaims.settleWrite, phase]
    have done : Sound (system.at index proc .done) :=
      sound.at held index (by simp) (by simp) (by simp) (by simp [Phase.writes])
    have settled : Sound ((system.at index proc .done).setMirror proc.daemon
        { system.mirrors proc.daemon with
          inFlight := (system.mirrors proc.daemon).inFlight.erase proc.device }) :=
      done.extends (Extends.setMirror _ (done.intents proc.daemon))
    split
    next latest found =>
      split
      · exact settled
      · exact settled.extends (Extends.write (settled.intents proc.daemon) proc.device false reading)
    next => exact settled
  | _ =>
    simp only [DeviceClaims.settleWrite, phase]
    exact sound

end Continuations

section Exclusion

variable {system : System}

theorem Sound.claimed (sound : Sound system) (daemon : Owner) (device : Device)
    (metadata : Option String) (stillHeld : Bool) (reading : Reading) :
    Sound (claimed system daemon device metadata stillHeld true reading) := by
  unfold AutoMobile.DeviceClaims.claimed
  dsimp only
  split
  · exact sound
  · exact sound.extends (Extends.record (sound.intents daemon)
      ⟨fun _ => Or.inr rfl, fun _ => by simp [MirrorIntent.gist]⟩ reading)

/-- A daemon that lets go of a device. -/
def unheld (system : System) (daemon : Owner) (device : Device) : System :=
  { system with
    holding := Function.update system.holding daemon
      (Function.update (system.holding daemon) device false) }

theorem unheld_holding {daemon other : Owner} {device place : Device}
    (holds : (unheld system daemon device).holding other place = true) :
    system.holding other place = true ∧ ¬ (other = daemon ∧ place = device) := by
  simp only [unheld] at holds
  by_cases daemonIs : other = daemon
  · subst daemonIs
    by_cases deviceIs : place = device
    · subst deviceIs
      simp at holds
    · rw [Function.update_self, Function.update_of_ne deviceIs] at holds
      exact ⟨holds, fun both => deviceIs both.2⟩
  · rw [Function.update_of_ne daemonIs] at holds
    exact ⟨holds, fun both => daemonIs both.1⟩

theorem Sound.letGo (sound : Sound system) (daemon : Owner) (device : Device) :
    Sound (unheld system daemon device) := by
  refine ⟨?_, ?_, ?_⟩
  · intro other place holds alive
    exact sound.row other place (unheld_holding holds).1 alive
  · intro other place intent found
    obtain ⟨checks, kept⟩ := sound.intents other place intent found
    exact ⟨checks, fun holds => kept (unheld_holding holds).1⟩
  · intro proc member
    exact (sound.procs proc member).mono rfl (fun _ ended => ended)
      (fun _ _ holds => (unheld_holding holds).1)

theorem Sound.released (sound : Sound system) (daemon : Owner) (device : Device)
    (metadata : Option String) (reading : Reading) :
    Sound { released system daemon device metadata reading with
      holding := (unheld system daemon device).holding } := by
  have gone := sound.letGo daemon device
  have free : (unheld system daemon device).holding daemon device ≠ true := by
    intro holds
    exact (unheld_holding holds).2 ⟨rfl, rfl⟩
  unfold AutoMobile.DeviceClaims.released
  split
  · exact gone
  · have intends : Intends system daemon (Wanted (unheld system daemon device) daemon) :=
      gone.intents daemon
    have recorded := Extends.record intends
      (show Wanted (unheld system daemon device) daemon device (MirrorIntent.gist
            { object := 0, version := 0, kind := .release, metadata := metadata
              claimedAtMs := reading.now }) from
          ⟨by simp [MirrorIntent.gist], fun holds => absurd holds free⟩) reading
    exact gone.extends ⟨recorded.table, recorded.dead, rfl, recorded.others, recorded.intents,
      recorded.procs⟩

theorem get?_cancelRetries {mirror : Mirror} {device : Device} {intent : MirrorIntent}
    (found : get? (cancelRetries mirror).intents device = some intent) :
    ∃ before, get? mirror.intents device = some before ∧ intent.gist = before.gist := by
  have cancelled : get? (cancelRetries mirror).intents device =
      (get? mirror.intents device).map fun before => { before with retry := false } :=
    get?_mapValues mirror.intents (fun _ before => { before with retry := false }) device
  rw [cancelled] at found
  obtain ⟨before, there, same⟩ := Option.map_eq_some_iff.mp found
  refine ⟨before, there, ?_⟩
  rw [← same]
  rfl

/-- What a step needs of the state it finds: no release waits where it could undo an acquire that
is not answered yet, and a claim decided by the files checks the owner it replaces. -/
def Orderly (system : System) (event : Event × Reading) : Prop :=
  Clear system ∧ event.1.checked = true

instance (system : System) (event : Event × Reading) : Decidable (Orderly system event) :=
  inferInstanceAs (Decidable (_ ∧ _))

theorem Sound.step (sound : Sound system) (event : Event × Reading)
    (orderly : Orderly system event) (truth : truthful system event.1 = true) :
    Sound (step system event).1 := by
  obtain ⟨event, reading⟩ := event
  obtain ⟨clear, checked⟩ := orderly
  have byDaemon : ∀ (daemon : Owner) (next : System × List Answer), Sound next.1 →
      Sound (system.by daemon next).1 := by
    intro daemon next held
    unfold System.by
    split
    · exact sound
    · exact held
  have ofProc : ∀ (index : Nat) (next : Proc → System × List Answer),
      (∀ proc, system.procs[index]? = some proc → Sound (next proc).1) →
      Sound (system.ofProc index next).1 := by
    intro index next held
    unfold System.ofProc
    cases there : system.procs[index]? with
    | none => exact sound
    | some proc => exact held proc there
  cases event with
  | acquire daemon device metadata => exact byDaemon _ _ (sound.acquire daemon device metadata reading)
  | claimed daemon device metadata stillHeld isLiveForeignOwner =>
    have judges : isLiveForeignOwner = true := checked
    rw [judges]
    exact byDaemon _ _ (sound.claimed daemon device metadata stillHeld reading)
  | released daemon device metadata =>
    exact byDaemon _ _ (sound.released daemon device metadata reading)
  | reconcile daemon =>
    exact byDaemon _ _ (sound.extends (Extends.reconcile (sound.intents daemon) reading))
  | retry daemon device =>
    exact byDaemon _ _ (sound.extends (Extends.retry (sound.intents daemon) device reading))
  | skip daemon => exact byDaemon _ _ (sound.extends (Extends.setMirror _ (by simp [get?])))
  | dispose daemon =>
    refine byDaemon _ _ (sound.extends (Extends.setMirror _ ?_))
    intro device intent found
    obtain ⟨before, there, same⟩ := get?_cancelRetries found
    rw [same]
    exact sound.intents daemon device before there
  | ends daemon =>
    have ended : ∀ other, system.dead other = true →
        Function.update system.dead daemon true other = true := by
      intro other dead
      by_cases same : other = daemon
      · rw [same, Function.update_self]
      · rw [Function.update_of_ne same]
        exact dead
    refine ⟨?_, sound.intents, ?_⟩
    · intro other device holds alive
      apply sound.row other device holds
      cases dead : system.dead other with
      | false => rfl
      | true =>
        have lives : Function.update system.dead daemon true other = false := alive
        rw [ended other dead] at lives
        contradiction
    · intro proc member
      exact (sound.procs proc member).mono rfl ended (fun _ _ holds => holds)
  | execute index => exact ofProc _ _ fun proc there => sound.execute clear there
  | reject index => exact ofProc _ _ fun proc there => sound.reject there
  | verdict index live =>
    refine ofProc _ _ fun proc there => byDaemon _ _ (sound.verdict there live reading ?_)
    intro deadly row judging
    simpa [truthful, deadly, there, Proc.judges, judging] using truth
  | settle index =>
    refine ofProc _ _ fun proc there => ?_
    unfold System.by
    split
    · exact sound
    next alive =>
      have alive : system.dead proc.daemon = false := by simpa using alive
      cases task : proc.task with
      | acquire attempt => exact sound.settleAcquire clear there task alive reading
      | write issued intent => exact sound.settleWrite there task reading

theorem Sound.start (table : Table) (retryDelays : Owner → Nat) (dead : Owner → Bool) :
    Sound (System.start table retryDelays dead) :=
  { row := by simp [System.start]
    intents := by simp [System.start, Intends, get?]
    procs := by simp [System.start] }

theorem Sound.run {events : List (Event × Reading)}
    (meets : Meets DeviceClaims.step (fun system event => Orderly system event ∧ truthful system event.1 = true) system
      events) (sound : Sound system) : Sound (run DeviceClaims.step system events).1 :=
  Meets.state_invariant DeviceClaims.step Sound
    (fun _ event held allowed => held.step event allowed.1 allowed.2) sound meets

/-- Only an acquire's answer says `claimed`, and it is remembered. -/
theorem told_claimed {event : Event × Reading} {answer : Answer}
    (told : answer ∈ (step system event).2) (claimed : answer.acquisition = .claimed) :
    (step system event).1.holding answer.daemon answer.device = true ∧
      (step system event).1.dead = system.dead ∧ system.dead answer.daemon = false ∧
      ∀ daemon device, system.holding daemon device = true →
        (step system event).1.holding daemon device = true := by
  obtain ⟨event, reading⟩ := event
  have byDaemon : ∀ {daemon : Owner} {next : System × List Answer},
      answer ∈ (system.by daemon next).2 →
      system.dead daemon = false ∧ system.by daemon next = next ∧ answer ∈ next.2 := by
    intro daemon next told
    unfold System.by at told ⊢
    split at told
    · simp at told
    next alive =>
      rw [if_neg alive]
      exact ⟨by simpa using alive, rfl, told⟩
  have ofProc : ∀ {index : Nat} {next : Proc → System × List Answer},
      answer ∈ (system.ofProc index next).2 →
      ∃ proc, system.ofProc index next = next proc ∧ answer ∈ (next proc).2 := by
    intro index next told
    unfold System.ofProc at told ⊢
    cases there : system.procs[index]? with
    | none => simp [there] at told
    | some proc =>
      simp only [there] at told
      exact ⟨proc, rfl, told⟩
  cases event with
  | acquire daemon device metadata =>
    obtain ⟨_, _, told⟩ := byDaemon told
    unfold acquire at told
    dsimp only at told
    split at told
    · rw [List.mem_singleton.mp told] at claimed
      contradiction
    · simp at told
  | verdict index live =>
    obtain ⟨proc, _, told⟩ := ofProc told
    obtain ⟨_, _, told⟩ := byDaemon told
    unfold verdict at told
    split at told
    · split at told
      · split at told
        · rw [List.mem_singleton.mp told] at claimed
          contradiction
        · simp at told
      · split at told
        · simp at told
        · simp at told
    · simp at told
  | settle index =>
    obtain ⟨proc, there, told⟩ := ofProc told
    obtain ⟨alive, goes, told⟩ := byDaemon told
    have result : (step system (.settle index, reading)) = _ := there.trans goes
    rw [result]
    cases task : proc.task with
    | write issued intent => simp [task] at told
    | acquire attempt =>
      simp only [task] at told ⊢
      unfold settleAcquire at told ⊢
      cases phase : proc.phase with
      | replaced ok claim =>
        cases ok with
        | false => simp [phase] at told
        | true =>
          simp only [phase] at told ⊢
          rw [List.mem_singleton.mp told]
          refine ⟨by simp, rfl, alive, fun daemon device holds => ?_⟩
          have kept : (recordAcquired (system.at index proc .done) proc
              claim.claimedAtMs).holding daemon device = true := holds
          by_cases daemonIs : daemon = proc.daemon
          · subst daemonIs
            by_cases deviceIs : device = proc.device
            · rw [deviceIs]
              simp
            · simpa [Function.update_of_ne deviceIs] using kept
          · simpa [Function.update_of_ne daemonIs] using kept
      | got row =>
        simp only [phase] at told
        split at told
        · rw [List.mem_singleton.mp told] at claimed
          cases row with
          | none => contradiction
          | some row => contradiction
        · cases row with
          | none => simp at told
          | some row =>
            dsimp only at told
            split at told
            · simp at told
            · simp at told
      | rejected =>
        simp only [phase] at told
        rw [List.mem_singleton.mp told] at claimed
        contradiction
      | _ => simp [phase] at told
  | execute index =>
    obtain ⟨proc, _, told⟩ := ofProc told
    simp at told
  | reject index =>
    obtain ⟨proc, _, told⟩ := ofProc told
    simp at told
  | ends daemon => simp [step] at told
  | _ =>
    obtain ⟨_, _, told⟩ := byDaemon told
    simp at told

/-- Two live holders of a device are one: the row names both. -/
theorem Sound.unique (sound : Sound system) {one other : Owner} {device : Device}
    (first : system.holding one device = true) (second : system.holding other device = true)
    (alive : system.dead one = false) (lives : system.dead other = false) : one = other := by
  obtain ⟨row, found, owner⟩ := sound.row one device first alive
  obtain ⟨row', found', owner'⟩ := sound.row other device second lives
  rw [← owner, ← owner', Option.some.inj (found.symm.trans found')]

/-- In a run where no release of a daemon waits for the table while its own acquire's row is
unanswered, where claims decided by the files check the owners they replace, and where no live
owner is called dead: in every state reached, the row of a device names the live daemon that was
told `claimed` and has not released it, there is one such daemon, and no other is told. -/
theorem device_claims_exclude (table : Table) (retryDelays : Owner → Nat) (dead : Owner → Bool)
    (early late : List (Event × Reading)) (event : Event × Reading)
    (orderly : Meets step Orderly (System.start table retryDelays dead) (early ++ event :: late))
    (truth : Meets step (fun system event => truthful system event.1 = true)
      (System.start table retryDelays dead) (early ++ event :: late)) :
    let system := (run step (System.start table retryDelays dead) early).1
    ∀ daemon device, system.holding daemon device = true → system.dead daemon = false →
      Named system daemon device ∧
      (∀ other, system.holding other device = true → system.dead other = false → other = daemon) ∧
      ∀ answer ∈ (step system event).2, answer.device = device →
        answer.acquisition = .claimed → answer.daemon = daemon := by
  intro system daemon device holds alive
  have meets := orderly.and step truth
  have sound : Sound system :=
    Sound.run (meets.append_left step) (Sound.start table retryDelays dead)
  have sound' : Sound (step system event).1 := by
    have whole : Meets step (fun system event => Orderly system event ∧ truthful system event.1 = true)
        (System.start table retryDelays dead) ((early ++ [event]) ++ late) := by
      simpa using meets
    have reached := Sound.run (whole.append_left step) (Sound.start table retryDelays dead)
    rw [run_append] at reached
    exact reached
  refine ⟨sound.row daemon device holds alive, ?_, ?_⟩
  · intro other also lives
    exact sound.unique also holds lives alive
  · intro answer told deviceIs claimed
    obtain ⟨holding, ended, lives, kept⟩ := told_claimed told claimed
    rw [deviceIs] at holding
    exact sound'.unique holding (kept daemon device holds) (by rw [ended]; exact lives)
      (by rw [ended]; exact alive)

def emulator : Device := ⟨"android", "emulator-5554"⟩

def firstDaemon : Owner := ⟨100, "token-a"⟩

def secondDaemon : Owner := ⟨200, "token-b"⟩

/-- No row, and daemons that have just started. -/
def freshSystem : System := System.start (fun _ => none) (fun _ => 5) (fun _ => false)

def plain : Reading := {}

/-- A daemon's acquire of the device: the task at `index` reads, writes and is told. -/
def acquiring (daemon : Owner) (index : Nat) : List (Event × Reading) :=
  [(.acquire daemon emulator none, plain), (.execute index, plain), (.settle index, plain),
    (.execute index, plain), (.settle index, plain)]

/-- The first daemon releases its device and has it again; the second one asks for it and finds its
owner live. -/
theorem device_claims_exclude_second :
    let early := acquiring firstDaemon 0 ++
      [(.released firstDaemon emulator none, plain), (.execute 1, plain), (.settle 1, plain)] ++
      acquiring firstDaemon 2 ++
      [(.acquire secondDaemon emulator none, plain), (.execute 3, plain), (.settle 3, plain)]
    let system := (run step freshSystem early).1
    Named system firstDaemon emulator ∧
      ∀ answer ∈ (step system (.verdict 3 true, plain)).2, answer.device = emulator →
        answer.acquisition = .claimed → answer.daemon = firstDaemon := by
  intro early system
  obtain ⟨named, _, told⟩ := device_claims_exclude (fun _ => none) (fun _ => 5) (fun _ => false)
    early [] (.verdict 3 true, plain) (by decide +kernel) (by decide +kernel) firstDaemon emulator
    (by decide +kernel) (by decide +kernel)
  exact ⟨named, told⟩

/-- An older release is still in flight when its daemon acquires the device again: it takes the new
row away, and a second daemon is told `claimed` as well. -/
theorem older_release_frees_claim :
    let events := acquiring firstDaemon 0 ++ [(.released firstDaemon emulator none, plain)] ++
      acquiring firstDaemon 2 ++ [(.execute 1, plain)] ++ acquiring secondDaemon 3
    let done := run step freshSystem events
    ⟨firstDaemon, emulator, .claimed⟩ ∈ done.2 ∧ ⟨secondDaemon, emulator, .claimed⟩ ∈ done.2 ∧
      done.1.holding firstDaemon emulator = true ∧ done.1.holding secondDaemon emulator = true ∧
      done.1.dead firstDaemon = false := by
  decide +kernel

end Exclusion

end AutoMobile.DeviceClaims
