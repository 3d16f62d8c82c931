import AutoMobile.InsertionMap

/- Plans of several devices: their steps, and how the steps are shared out among the
device tracks. -/
namespace AutoMobile.Plans

open InsertionMap

/-- A field of a step, as far as the coordination code tells values apart. -/
inductive FieldValue where
  | text (value : String)
  | number (value : Int)
  | other
deriving DecidableEq, Repr

structure PlanStep where
  tool : String
  params : InsertionMap String FieldValue := []
  /-- Fields that sit beside `params` on a step that was not normalized. -/
  inlineFields : InsertionMap String FieldValue := []
deriving DecidableEq, Repr

/-- `devices` are the labels that the plan declares. -/
structure Plan where
  devices : List String
  steps : List PlanStep
deriving DecidableEq, Repr

def isCoordinationTool (tool : String) : Bool := tool == "barrier" || tool == "criticalSection"

/-- Params win over inline fields. -/
def effectiveStepField (step : PlanStep) (field : String) : Option FieldValue :=
  match get? step.params field with
  | some value => some value
  | none => get? step.inlineFields field

structure TrackedStep where
  step : PlanStep
  planIndex : Nat
  trackIndex : Nat
deriving DecidableEq, Repr

/-- The `params.device` of a step; empty and missing values are both rejected. -/
def trackDevice (step : PlanStep) : Option FieldValue :=
  match get? step.params "device" with
  | some (.text device) => if device = "" then none else some (.text device)
  | some (.number label) => if label = 0 then none else some (.number label)
  | other => other

def missingDevice (step : PlanStep) (planIndex : Nat) : String :=
  "Step " ++ toString planIndex ++ " (" ++ step.tool ++ ") missing device parameter. " ++
    "This should have been caught during validation."

/-- The printed form of a label; how other values print is left open. -/
def printed (label : FieldValue) (shown : String := "") : String :=
  match label with
  | .text value => value
  | .number value => toString value
  | .other => shown

def unknownDevice (planIndex : Nat) (label : FieldValue) (devices : List String) : String :=
  "Step " ++ toString planIndex ++ " references unknown device \"" ++ printed label ++
    "\". Declared devices: [" ++ String.intercalate ", " devices ++ "]"

/-- Append the step at `planIndex` to the track of its device. -/
def assignStep (devices : List String) (tracks : InsertionMap String (List TrackedStep))
    (step : PlanStep) (planIndex : Nat) : Except String (InsertionMap String (List TrackedStep)) :=
  match trackDevice step with
  | none => .error (missingDevice step planIndex)
  | some (.text device) =>
    match get? tracks device with
    | none => .error (unknownDevice planIndex (.text device) devices)
    | some track => .ok (put tracks device (track ++ [⟨step, planIndex, track.length⟩]))
  | some label => .error (unknownDevice planIndex label devices)

/-- `partition` for a plan that declares devices. -/
def assignSteps (devices : List String) : InsertionMap String (List TrackedStep) →
    List (PlanStep × Nat) → Except String (InsertionMap String (List TrackedStep))
  | tracks, [] => .ok tracks
  | tracks, (step, planIndex) :: rest => do
    let grown ← assignStep devices tracks step planIndex
    assignSteps devices grown rest

def partition (plan : Plan) : Except String (InsertionMap String (List TrackedStep)) :=
  assignSteps plan.devices (plan.devices.foldl (fun tracks device => put tracks device []) [])
    plan.steps.zipIdx

/-- The steps that a device track runs when it is resumed: lower indices are skipped. -/
def remainingSteps (startStep : Int) (track : List TrackedStep) : List TrackedStep :=
  track.filter fun tracked => ¬ (tracked.planIndex : Int) < startStep

end AutoMobile.Plans
