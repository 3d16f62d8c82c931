import AutoMobile.BootAdmissionLedger
import AutoMobile.Runs

/- Concurrent calls of `admitBootNow` over one ledger, among the devices that start and stop and
the clock. -/
namespace AutoMobile.BootAdmission

open InsertionMap Runs

/-- A call whose sample has not returned, with its listing once that is read. -/
structure Call (Device : Type) where
  listing : Option (List Device) := none
deriving DecidableEq, Repr

/-- The gate and its surroundings: a call goes by its window, a boot by its token. -/
structure World (Device : Type) where
  now : Nat
  ledger : Ledger Device := {}
  calls : Nat → Option (Call Device) := fun _ => none
  /-- Running devices that no admitted boot started. -/
  others : List Device
  /-- Admitted boots whose device may still start. -/
  waiting : List Nat := []
  /-- Admitted boots whose device runs. -/
  started : List Nat := []

inductive Action (Device : Type) where
  /-- A call opens its window. -/
  | call
  /-- The devices of a call's listing are read. -/
  | list (window : Nat)
  /-- The sample returns and the call decides. -/
  | answer (window : Nat) (deviceId : Option Device) (replacement : Bool)
      (reason : BootAdmissionReason)
  /-- The sample fails, runs out of time or is cancelled. -/
  | abandon (window : Nat)
  | bind (token : Nat) (deviceId : Option Device)
  | handOff (token : Nat) (deviceId : Option Device) (untilMs : Nat) (processId : Option Nat)
  | release (token : Nat)
  | start (token : Nat)
  /-- The device of a boot can no longer start. -/
  | giveUp (token : Nat)
  | stop (device : Device)
  | clock (now : Nat)
deriving DecidableEq, Repr

inductive Decision where
  | admitted (token : Nat)
  | refused
deriving DecidableEq, Repr

variable {Device : Type} [DecidableEq Device]

/-- The decision of a call, in the turn in which its sample returned. -/
def decideAdmission (limit now : Nat) (ledger : Ledger Device) (window : Nat)
    (listing : List Device) (deviceId : Option Device) (replacement : Bool)
    (reason : BootAdmissionReason) : Ledger Device × Decision :=
  let viewed := inFlightView now listing none [] (closeWindow ledger window) (some window)
  if limit ≤ listing.length + viewed.2.count then (viewed.1, .refused)
  else
    let admission := admitBoot viewed.1 deviceId replacement reason
    (admission.1, .admitted admission.2)

/-- A handed-off boot that has not started by its deadline never does. -/
def expire (world : World Device) : World Device :=
  { world with
    waiting := world.waiting.filter fun token =>
      !(get? world.ledger.entries token).any fun entry => entry.isExpired world.now }

def forget (world : World Device) (window : Nat) : Nat → Option (Call Device) := fun other =>
  if other = window then none else world.calls other

variable (deviceOf : Nat → Device)

/-- The running devices; `deviceOf` gives the device of the boot with a token. -/
def running (world : World Device) : List Device := world.others ++ world.started.map deviceOf

def step (limit : Nat) (world : World Device) : Action Device → World Device × List Decision
  | .call =>
    let sample := beginSample world.ledger
    ({ world with
        ledger := sample.1
        calls := fun window => if window = sample.2 then some {} else world.calls window }, [])
  | .list window =>
    match world.calls window with
    | none => (world, [])
    | some _ =>
      ({ world with
          calls := fun other =>
            if other = window then some { listing := some (running deviceOf world) }
            else world.calls other }, [])
  | .answer window deviceId replacement reason =>
    match (world.calls window).bind Call.listing with
    | none => (world, [])
    | some listing =>
      let decided := decideAdmission limit world.now world.ledger window listing deviceId
        replacement reason
      match decided.2 with
      | .refused => ({ world with ledger := decided.1, calls := forget world window }, [.refused])
      | .admitted token =>
        ({ world with
            ledger := decided.1
            calls := forget world window
            waiting := token :: world.waiting }, [.admitted token])
  | .abandon window =>
    ({ world with
        ledger := closeWindow world.ledger window
        calls := forget world window }, [])
  | .bind token deviceId => ({ world with ledger := bindBoot world.ledger token deviceId }, [])
  | .handOff token deviceId untilMs processId =>
    (expire { world with ledger := handOffBoot world.ledger token deviceId untilMs processId }, [])
  | .release token => ({ world with ledger := releaseBoot world.ledger token }, [])
  | .start token =>
    if token ∈ world.waiting then
      ({ world with
          waiting := world.waiting.filter fun other => other ≠ token
          started := token :: world.started }, [])
    else (world, [])
  | .giveUp token => ({ world with waiting := world.waiting.filter fun other => other ≠ token }, [])
  | .stop device =>
    ({ world with
        others := world.others.filter fun other => other ≠ device
        started := world.started.filter fun token => deviceOf token ≠ device }, [])
  | .clock now => (expire { world with now }, [])

/-- What the callers of the ledger keep to: an entry carries the device of its own boot, from
before that device can be listed, and is released only when the device runs or cannot start. -/
def Assumed (world : World Device) : Action Device → Prop
  | .answer _ deviceId _ _ => deviceId = none ∨ deviceId = some (deviceOf world.ledger.nextToken)
  | .bind token deviceId =>
    deviceId = some (deviceOf token) ∨ (deviceId = none ∧ token ∉ world.started)
  | .handOff token deviceId _ _ => deviceId = none ∨ deviceId = some (deviceOf token)
  | .release token => token ∉ world.waiting
  | .start token =>
    (get? world.ledger.entries token).bind LedgerEntry.deviceId = some (deviceOf token)
  | _ => True

/-- When a call decides, its listing has every running device of a boot that is past its
deadline: of those in the ledger and of those that ended while the sample was open. -/
def Timely (world : World Device) : Action Device → Prop
  | .answer window _ _ _ =>
    ∀ listing, (world.calls window).bind Call.listing = some listing →
      ∀ entry ∈ world.ledger.ended window ++ values world.ledger.entries,
        entry.isExpired world.now = true → ∀ device, entry.deviceId = some device →
          device ∈ running deviceOf world → device ∈ listing
  | _ => True

/-- The running devices and the boots that may add one. -/
def WithinLimit (limit : Nat) (world : World Device) : Prop :=
  (running deviceOf world).length + world.waiting.length ≤ limit

end AutoMobile.BootAdmission
