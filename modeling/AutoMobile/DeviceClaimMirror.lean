import AutoMobile.InsertionMap
import AutoMobile.Runs

/- `StoreDeviceClaimMirror`: the claims of any number of daemons on one host-wide table. A table
operation is issued, executes and settles in steps of its own. -/
namespace AutoMobile.DeviceClaims

open InsertionMap

structure Owner where
  pid : Int
  ownerToken : String
deriving DecidableEq, Repr

/-- A device of the table's key. -/
structure Device where
  platform : String
  deviceId : String
deriving DecidableEq, Repr

structure DeviceClaim where
  owner : Owner
  processGenerationToken : Option String := none
  metadata : Option String := none
  claimedAtMs : Int
  updatedAtMs : Int
deriving DecidableEq, Repr

section Table

abbrev Table := Device → Option DeviceClaim

/-- Writes only while the row is still the one that was judged, by its owner and its write. -/
def replaceIf (table : Table) (expected : Option DeviceClaim) (device : Device)
    (claim : DeviceClaim) : Bool × Table :=
  match expected, table device with
  | none, none => (true, Function.update table device (some claim))
  | some judged, some row =>
    if row.owner = judged.owner ∧ row.updatedAtMs = judged.updatedAtMs then
      (true, Function.update table device (some claim))
    else (false, table)
  | _, _ => (false, table)

/-- Removes the row only while `owner` holds it. -/
def release (table : Table) (device : Device) (owner : Owner) : Table :=
  match table device with
  | some row => if row.owner = owner then Function.update table device none else table
  | none => table

end Table

section Mirror

def ACQUIRE_ATTEMPTS : Nat := 3

inductive Kind where
  | claim
  | release
deriving DecidableEq, Repr

/-- What a device should read. `object` tells the intents of one device apart, which keep it when a
reconciliation gives them a new version. -/
structure MirrorIntent where
  object : Nat
  kind : Kind
  acquired : Bool := false
  /-- Whether the claim came with a check of a row's owner. -/
  isLiveForeignOwner : Bool := false
  /-- Whether the claim came with a check of its claim file. -/
  stillHeld : Bool := false
  metadata : Option String
  claimedAtMs : Int
  version : Nat
  synced : Bool := false
  attempts : Nat := 0
  retry : Bool := false
deriving DecidableEq, Repr

structure Mirror where
  intents : InsertionMap Device MirrorIntent := []
  inFlight : List Device := []
  versions : Nat := 0
  disposed : Bool := false
  skipped : Bool := false
  /-- How many delays a write is retried after. -/
  retryDelays : Nat := 5
deriving DecidableEq, Repr

inductive Task where
  | acquire (attempt : Nat)
  | write (issued : Nat) (intent : MirrorIntent)
deriving DecidableEq, Repr

/-- Where a task is: its operation issued, executed or rejected, or its continuation due. -/
inductive Phase where
  | getting
  | got (row : Option DeviceClaim)
  | judging (row : DeviceClaim)
  | replacing (expected : Option DeviceClaim) (claim : DeviceClaim)
  | replaced (ok : Bool) (claim : DeviceClaim)
  | releasing
  | released
  | rejected
  | resolved (ok : Bool)
  | finishing
  | done
deriving DecidableEq, Repr

/-- A run of `acquire` or of a mirrored write. -/
structure Proc where
  daemon : Owner
  device : Device
  metadata : Option String
  task : Task
  phase : Phase
deriving DecidableEq, Repr

inductive DeviceClaimAcquisition where
  | claimed
  | refused (ownerPid : Int)
  | unavailable
deriving DecidableEq, Repr

structure Answer where
  daemon : Owner
  device : Device
  acquisition : DeviceClaimAcquisition
deriving DecidableEq, Repr

structure System where
  mirrors : Owner → Mirror
  table : Table
  procs : List Proc := []
  /-- Daemons that have ended: they take no step, but what they issued may still execute. -/
  dead : Owner → Bool := fun _ => false
  /-- Told `claimed`, with no call of `released` since. -/
  holding : Owner → Device → Bool := fun _ _ => false

/-- What a step reads besides the system: the clock, the owner's process generation, whether a
registry is open and whether the claim file still names its owner. -/
structure Reading where
  now : Int := 0
  generation : Option String := none
  registry : Bool := true
  stillHeld : Bool := true

def System.setMirror (system : System) (daemon : Owner) (mirror : Mirror) : System :=
  { system with mirrors := Function.update system.mirrors daemon mirror }

def System.setProc (system : System) (index : Nat) (proc : Proc) : System :=
  { system with procs := system.procs.set index proc }

def System.setIntent (system : System) (daemon : Owner) (device : Device) (intent : MirrorIntent) :
    System :=
  let mirror := system.mirrors daemon
  system.setMirror daemon { mirror with intents := put mirror.intents device intent }

def System.dropIntent (system : System) (daemon : Owner) (device : Device)
    (object : Nat) : System :=
  let mirror := system.mirrors daemon
  match get? mirror.intents device with
  | some intent =>
    if intent.object = object then
      system.setMirror daemon { mirror with intents := erase mirror.intents device }
    else system
  | none => system

def scheduleRetry (system : System) (daemon : Owner) (device : Device) (intent : MirrorIntent) :
    System :=
  let mirror := system.mirrors daemon
  if mirror.disposed || mirror.skipped || intent.retry then system
  else if intent.attempts < mirror.retryDelays then
    system.setIntent daemon device { intent with attempts := intent.attempts + 1, retry := true }
  else system

/-- Write what the device should read, unless a write of it is in flight. -/
def write (system : System) (daemon : Owner) (device : Device) (given : Bool)
    (reading : Reading) : System :=
  let mirror := system.mirrors daemon
  match get? mirror.intents device with
  | none => system
  | some intent =>
    if mirror.disposed || mirror.skipped || device ∈ mirror.inFlight then system
    else if intent.kind = .claim && intent.stillHeld && !reading.stillHeld then
      system.setMirror daemon { mirror with intents := erase mirror.intents device }
    else if !given && !reading.registry then scheduleRetry system daemon device intent
    else
      let issuing := system.setMirror daemon
        { mirror with inFlight := mirror.inFlight ++ [device] }
      { issuing with
        procs := issuing.procs ++ [{
          daemon := daemon
          device := device
          metadata := intent.metadata
          task := .write intent.version intent
          phase := if intent.kind = .release then .releasing else .getting }] }

def record (system : System) (daemon : Owner) (device : Device) (intent : MirrorIntent)
    (reading : Reading) : System :=
  let mirror := system.mirrors daemon
  if mirror.disposed || mirror.skipped then system
  else
    let versions := mirror.versions + 1
    let recorded := system.setMirror daemon
      { mirror with
        versions := versions
        intents := put mirror.intents device { intent with object := versions, version := versions } }
    write recorded daemon device false reading

/-- A claim that the files decided. -/
def claimed (system : System) (daemon : Owner) (device : Device) (metadata : Option String)
    (stillHeld isLiveForeignOwner : Bool) (reading : Reading) : System :=
  let mirror := system.mirrors daemon
  if mirror.skipped then system
  else
    let claimedAtMs :=
      match get? mirror.intents device with
      | some held => if held.kind = .claim then held.claimedAtMs else reading.now
      | none => reading.now
    record system daemon device
      { object := 0, version := 0, kind := .claim, isLiveForeignOwner := isLiveForeignOwner
        stillHeld := stillHeld, metadata := metadata, claimedAtMs := claimedAtMs } reading

def released (system : System) (daemon : Owner) (device : Device) (metadata : Option String)
    (reading : Reading) : System :=
  if (system.mirrors daemon).skipped then system
  else
    record system daemon device
      { object := 0, version := 0, kind := .release, metadata := metadata
        claimedAtMs := reading.now } reading

/-- A registry opened: everything is written once more. -/
def reconcile (system : System) (daemon : Owner) (reading : Reading) : System :=
  if (system.mirrors daemon).skipped then system
  else
    (keys (system.mirrors daemon).intents).foldl (fun system device =>
      let mirror := system.mirrors daemon
      match get? mirror.intents device with
      | none => system
      | some intent =>
        let versions := mirror.versions + 1
        let renewed := system.setMirror daemon
          { mirror with
            versions := versions
            intents := put mirror.intents device { intent with
              synced := false, attempts := 0, version := versions, retry := false } }
        write renewed daemon device true reading) system

/-- The timer of a retry. -/
def retry (system : System) (daemon : Owner) (device : Device) (reading : Reading) : System :=
  let mirror := system.mirrors daemon
  match get? mirror.intents device with
  | some intent =>
    if intent.retry then
      let fired := system.setIntent daemon device { intent with retry := false }
      if intent.synced then fired else write fired daemon device false reading
    else system
  | none => system

def cancelRetries (mirror : Mirror) : Mirror :=
  { mirror with
    intents := mirror.intents.map fun entry => (entry.1, { entry.2 with retry := false }) }

end Mirror

section Tasks

def claimRow (proc : Proc) (claimedAtMs : Int) (reading : Reading) : DeviceClaim :=
  { owner := proc.daemon
    processGenerationToken := reading.generation
    metadata := proc.metadata
    claimedAtMs := claimedAtMs
    updatedAtMs := reading.now }

/-- The claim keeps the time of a row that already names this owner. -/
def claimRowFor (proc : Proc) (claimedAtMs : Int) (held : Option DeviceClaim) (reading : Reading) :
    DeviceClaim :=
  match held with
  | some row =>
    claimRow proc (if row.owner = proc.daemon then row.claimedAtMs else claimedAtMs) reading
  | none => claimRow proc claimedAtMs reading

/-- Whether the row names another owner. -/
def foreign (proc : Proc) (row : Option DeviceClaim) : Bool :=
  row.any fun row => row.owner ≠ proc.daemon

/-- An acquired claim is tracked like a mirrored one. -/
def recordAcquired (system : System) (proc : Proc) (claimedAtMs : Int) : System :=
  let mirror := system.mirrors proc.daemon
  let versions := mirror.versions + 1
  system.setMirror proc.daemon
    { mirror with
      versions := versions
      intents := put mirror.intents proc.device
        { object := versions, kind := .claim, acquired := true, metadata := proc.metadata
          claimedAtMs := claimedAtMs, version := versions, synced := true } }

def System.at (system : System) (index : Nat) (proc : Proc) (phase : Phase) : System :=
  system.setProc index { proc with phase := phase }

/-- The continuations of `acquire` and `acquireOnce`. -/
def settleAcquire (system : System) (index : Nat) (proc : Proc) (attempt : Nat)
    (reading : Reading) : System × List Answer :=
  let answer := fun acquisition => [⟨proc.daemon, proc.device, acquisition⟩]
  match proc.phase with
  | .got row =>
    if attempt = ACQUIRE_ATTEMPTS then
      (system.at index proc .done,
        answer (match row with | some winner => .refused winner.owner.pid | none => .unavailable))
    else
      match row with
      | some held =>
        if held.owner = proc.daemon then
          (system.at index proc (.replacing row (claimRow proc held.claimedAtMs reading)), [])
        else (system.at index proc (.judging held), [])
      | none => (system.at index proc (.replacing none (claimRow proc reading.now reading)), [])
  | .replaced true claim =>
    let recorded := recordAcquired (system.at index proc .done) proc claim.claimedAtMs
    ({ recorded with
        holding := Function.update recorded.holding proc.daemon
          (Function.update (recorded.holding proc.daemon) proc.device true) },
      answer .claimed)
  | .replaced false _ =>
    (system.setProc index { proc with task := .acquire (attempt + 1), phase := .getting }, [])
  | .rejected => (system.at index proc .done, answer .unavailable)
  | _ => (system, [])

/-- Nothing is owed by a release that was written, and a claim is in step. -/
def confirm (system : System) (proc : Proc) (intent : MirrorIntent) : System :=
  let mirror := system.mirrors proc.daemon
  if intent.kind = .release then
    system.setMirror proc.daemon { mirror with intents := erase mirror.intents proc.device }
  else system.setIntent proc.daemon proc.device { intent with synced := true, attempts := 0 }

/-- The continuations of `issue` and of the promises that `write` chains to it. -/
def settleWrite (system : System) (index : Nat) (proc : Proc) (issued : Nat) (intent : MirrorIntent)
    (reading : Reading) : System :=
  match proc.phase with
  | .got row =>
    let writing := system.at index proc
      (.replacing row (claimRowFor proc intent.claimedAtMs row reading))
    if intent.acquired then
      if foreign proc row then
        (system.dropIntent proc.daemon proc.device intent.object).at index proc (.resolved true)
      else writing
    else
      match row with
      | some held =>
        if held.owner ≠ proc.daemon && intent.isLiveForeignOwner then
          system.at index proc (.judging held)
        else writing
      | none => writing
  | .replaced ok _ =>
    if intent.acquired then
      let kept := if ok then system else system.dropIntent proc.daemon proc.device intent.object
      kept.at index proc (.resolved true)
    else system.at index proc (.resolved ok)
  | .released => system.at index proc (.resolved true)
  | .rejected => system.at index proc (.resolved false)
  | .resolved ok =>
    let settled := system.at index proc .finishing
    match get? (system.mirrors proc.daemon).intents proc.device with
    | some latest =>
      if latest.version = issued then
        if ok then confirm settled proc latest
        else scheduleRetry settled proc.daemon proc.device latest
      else settled
    | none => settled
  | .finishing =>
    let mirror := system.mirrors proc.daemon
    let settled := (system.at index proc .done).setMirror proc.daemon
      { mirror with inFlight := mirror.inFlight.erase proc.device }
    match get? mirror.intents proc.device with
    | some latest =>
      if latest.version = issued then settled
      else write settled proc.daemon proc.device false reading
    | none => settled
  | _ => system

/-- The table's operation of a task. -/
def execute (system : System) (index : Nat) (proc : Proc) : System :=
  match proc.phase with
  | .getting => system.at index proc (.got (system.table proc.device))
  | .replacing expected claim =>
    let (ok, table) := replaceIf system.table expected proc.device claim
    { system.at index proc (.replaced ok claim) with table := table }
  | .releasing =>
    { system.at index proc .released with
      table := release system.table proc.device proc.daemon }
  | _ => system

/-- An operation, executed or not, or a check of an owner is rejected. -/
def reject (system : System) (index : Nat) (proc : Proc) : System :=
  match proc.phase with
  | .getting | .got _ | .judging _ | .replacing _ _ | .replaced _ _ | .releasing | .released =>
    system.at index proc .rejected
  | _ => system

/-- A row's owner was found live or dead. -/
def verdict (system : System) (index : Nat) (proc : Proc) (live : Bool) (reading : Reading) :
    System × List Answer :=
  match proc.phase with
  | .judging row =>
    match proc.task with
    | .acquire _ =>
      if live then
        (system.at index proc .done, [⟨proc.daemon, proc.device, .refused row.owner.pid⟩])
      else
        (system.at index proc (.replacing (some row) (claimRow proc reading.now reading)), [])
    | .write _ intent =>
      if live then (system.at index proc (.resolved false), [])
      else
        (system.at index proc
          (.replacing (some row) (claimRowFor proc intent.claimedAtMs (some row) reading)), [])
  | _ => (system, [])

end Tasks

section Steps

inductive Event where
  | acquire (daemon : Owner) (device : Device) (metadata : Option String)
  | claimed (daemon : Owner) (device : Device) (metadata : Option String)
      (stillHeld isLiveForeignOwner : Bool)
  | released (daemon : Owner) (device : Device) (metadata : Option String)
  | reconcile (daemon : Owner)
  | retry (daemon : Owner) (device : Device)
  | skip (daemon : Owner)
  | dispose (daemon : Owner)
  | ends (daemon : Owner)
  | execute (index : Nat)
  | reject (index : Nat)
  | verdict (index : Nat) (live : Bool)
  | settle (index : Nat)

/-- The call of `acquire` that has its store, or finds none. -/
def acquire (system : System) (daemon : Owner) (device : Device) (metadata : Option String)
    (reading : Reading) : System × List Answer :=
  let mirror := system.mirrors daemon
  if !reading.registry || mirror.skipped || mirror.disposed then
    (system, [⟨daemon, device, .unavailable⟩])
  else
    ({ system with
        procs := system.procs ++ [{
          daemon := daemon, device := device, metadata := metadata, task := .acquire 0
          phase := .getting }] }, [])

/-- A step of a daemon that has not ended. -/
def System.by (system : System) (daemon : Owner) (next : System × List Answer) :
    System × List Answer :=
  if system.dead daemon then (system, []) else next

/-- A step of the task at `index`. -/
def System.ofProc (system : System) (index : Nat) (next : Proc → System × List Answer) :
    System × List Answer :=
  match system.procs[index]? with
  | some proc => next proc
  | none => (system, [])

def step (system : System) (event : Event × Reading) : System × List Answer :=
  let reading := event.2
  match event.1 with
  | .acquire daemon device metadata =>
    system.by daemon (acquire system daemon device metadata reading)
  | .claimed daemon device metadata stillHeld isLiveForeignOwner =>
    system.by daemon
      (claimed system daemon device metadata stillHeld isLiveForeignOwner reading, [])
  | .released daemon device metadata =>
    system.by daemon
      ({ released system daemon device metadata reading with
          holding := Function.update system.holding daemon
            (Function.update (system.holding daemon) device false) }, [])
  | .reconcile daemon => system.by daemon (reconcile system daemon reading, [])
  | .retry daemon device => system.by daemon (retry system daemon device reading, [])
  | .skip daemon =>
    system.by daemon
      (system.setMirror daemon { system.mirrors daemon with skipped := true, intents := [] }, [])
  | .dispose daemon =>
    system.by daemon
      (system.setMirror daemon { cancelRetries (system.mirrors daemon) with disposed := true }, [])
  | .ends daemon => ({ system with dead := Function.update system.dead daemon true }, [])
  | .execute index => system.ofProc index fun proc => (execute system index proc, [])
  | .reject index => system.ofProc index fun proc => (reject system index proc, [])
  | .verdict index live => system.ofProc index fun proc =>
    system.by proc.daemon (verdict system index proc live reading)
  | .settle index => system.ofProc index fun proc =>
    system.by proc.daemon
      (match proc.task with
      | .acquire attempt => settleAcquire system index proc attempt reading
      | .write issued intent => (settleWrite system index proc issued intent reading, []))

/-- Daemons that have recorded nothing yet, over any table and with any number of retries. -/
def System.start (table : Table) (retryDelays : Owner → Nat) (dead : Owner → Bool) : System :=
  { mirrors := fun daemon => { retryDelays := retryDelays daemon }
    table := table
    dead := dead }

end Steps

end AutoMobile.DeviceClaims
