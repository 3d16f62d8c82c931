import AutoMobile.InsertionMap

/- `BootAdmissionLedger`: the boots admitted by a gate and not yet visible in the listing of the
platform, with the sample windows that keep what ends while they are open. -/
namespace AutoMobile.BootAdmission

open InsertionMap

inductive BootAdmissionReason where
  | reset
  | create
  | restart
deriving DecidableEq, Repr

variable {Device : Type} [DecidableEq Device]

structure LedgerEntry (Device : Type) where
  reason : Option BootAdmissionReason := none
  deviceId : Option Device := none
  /-- An old device whose slot is held until the replacement binds its own identity. -/
  replacement : Bool := false
  processId : Option Nat := none
  /-- The entry ends when the device is visible or this passes. -/
  handedOffUntilMs : Option Nat := none
  handedOff : Bool := false
deriving DecidableEq, Repr

/-- Symbols and windows are told apart by numbers in the order in which they are made; `ended`
is what each window has kept so far. -/
structure Ledger (Device : Type) where
  nextToken : Nat := 0
  entries : InsertionMap Nat (LedgerEntry Device) := []
  nextWindow : Nat := 0
  openWindows : List Nat := []
  ended : Nat → List (LedgerEntry Device) := fun _ => []

/-- Admits a boot and gives the token of its entry. -/
def admitBoot (ledger : Ledger Device) (deviceId : Option Device) (replacement : Bool)
    (reason : BootAdmissionReason) : Ledger Device × Nat :=
  let token := ledger.nextToken
  ({ ledger with
      nextToken := token + 1
      entries := put ledger.entries token { deviceId, replacement, reason := some reason } }, token)

def bindBoot (ledger : Ledger Device) (token : Nat) (deviceId : Option Device) : Ledger Device :=
  match get? ledger.entries token with
  | none => ledger
  | some entry =>
    { ledger with
      entries := put ledger.entries token { entry with deviceId, replacement := false } }

/-- The hand-off writes a new entry: it has no reason and replaces nothing. -/
def handOffBoot (ledger : Ledger Device) (token : Nat) (deviceId : Option Device) (untilMs : Nat)
    (processId : Option Nat) : Ledger Device :=
  match get? ledger.entries token with
  | none => ledger
  | some entry =>
    { ledger with
      entries := put ledger.entries token {
        deviceId := deviceId.or entry.deviceId
        processId := processId.or entry.processId
        handedOffUntilMs := some untilMs
        handedOff := true } }

/-- The only way out of the ledger. What a listing showed is kept without its deadline. -/
def endBoot (ledger : Ledger Device) (token : Nat) (listed : Bool) : Ledger Device :=
  match get? ledger.entries token with
  | none => ledger
  | some entry =>
    let kept := if listed then { entry with handedOffUntilMs := none } else entry
    { ledger with
      entries := erase ledger.entries token
      ended := fun window =>
        if window ∈ ledger.openWindows then ledger.ended window ++ [kept]
        else ledger.ended window }

def releaseBoot (ledger : Ledger Device) (token : Nat) : Ledger Device := endBoot ledger token false

def beginSample (ledger : Ledger Device) : Ledger Device × Nat :=
  let window := ledger.nextWindow
  ({ ledger with
      nextWindow := window + 1
      openWindows := ledger.openWindows ++ [window] }, window)

def closeWindow (ledger : Ledger Device) (window : Nat) : Ledger Device :=
  { ledger with openWindows := ledger.openWindows.filter fun other => other ≠ window }

structure InFlightBootMemory (Device : Type) where
  deviceId : Option Device
  replacement : Bool
  processId : Option Nat
  handedOff : Bool
deriving DecidableEq, Repr

structure InFlightBootView (Device : Type) where
  count : Nat
  boots : List (InFlightBootMemory Device)
  withListedProcess : Nat
  listedWithoutProcess : Nat
deriving DecidableEq, Repr

section View

variable (now : Nat) (visibleDeviceIds : List Device) (excludeDeviceId : Option Device)
  (listedProcessIds : List Nat)

def LedgerEntry.hasListedProcess (entry : LedgerEntry Device) : Bool :=
  entry.processId.any fun processId => decide (processId ∈ listedProcessIds)

def LedgerEntry.isVisible (entry : LedgerEntry Device) : Bool :=
  entry.deviceId.any fun deviceId => decide (deviceId ∈ visibleDeviceIds)

/-- `now >= handedOffUntilMs`. -/
def LedgerEntry.isExpired (entry : LedgerEntry Device) : Bool :=
  entry.handedOffUntilMs.any fun untilMs => decide (untilMs ≤ now)

def LedgerEntry.isExcluded (entry : LedgerEntry Device) : Bool :=
  excludeDeviceId.isSome && entry.deviceId == excludeDeviceId

def windowEnded (ledger : Ledger Device) (window : Option Nat) : List (LedgerEntry Device) :=
  (window.map ledger.ended).getD []

/-- Boots that ended while the sample was open and that the sample does not show either. -/
def endedDuringSample (ledger : Ledger Device) (window : Option Nat) : List (LedgerEntry Device) :=
  (windowEnded ledger window).filter fun entry =>
    !entry.isExpired now && !entry.isVisible visibleDeviceIds && !entry.isExcluded excludeDeviceId

/-- A handed-off boot that is now visible, or past its hand-off window. -/
def LedgerEntry.leaves (entry : LedgerEntry Device) : Bool :=
  entry.handedOffUntilMs.isSome && (entry.isVisible visibleDeviceIds || entry.isExpired now)

def LedgerEntry.counts (entry : LedgerEntry Device) : Bool :=
  !entry.leaves now visibleDeviceIds &&
    (!entry.isVisible visibleDeviceIds && !entry.isExcluded excludeDeviceId)

/-- One entry of the traversal: it leaves, or it is in flight, or it is neither. -/
def viewEntry (progress : Ledger Device × List (LedgerEntry Device))
    (booked : Nat × LedgerEntry Device) : Ledger Device × List (LedgerEntry Device) :=
  if booked.2.leaves now visibleDeviceIds then
    (endBoot progress.1 booked.1 (booked.2.isVisible visibleDeviceIds), progress.2)
  else if booked.2.counts now visibleDeviceIds excludeDeviceId then
    (progress.1, progress.2 ++ [booked.2])
  else progress

def inFlightView (ledger : Ledger Device) (sampleWindow : Option Nat) :
    Ledger Device × InFlightBootView Device :=
  let ended := endedDuringSample now visibleDeviceIds excludeDeviceId ledger sampleWindow
  let known := windowEnded ledger sampleWindow ++ values ledger.entries
  let listedWithoutProcess := known.countP fun entry =>
    entry.isVisible visibleDeviceIds && !entry.hasListedProcess listedProcessIds &&
      !(entry.deviceId == excludeDeviceId) && !entry.replacement
  let final := ledger.entries.foldl (viewEntry now visibleDeviceIds excludeDeviceId) (ledger, ended)
  let boots := final.2
  (final.1, {
    count := boots.length
    boots := boots.map fun entry =>
      { deviceId := entry.deviceId, replacement := entry.replacement,
        processId := entry.processId, handedOff := entry.handedOff }
    withListedProcess := boots.countP fun entry => entry.hasListedProcess listedProcessIds
    listedWithoutProcess })

end View

end AutoMobile.BootAdmission
