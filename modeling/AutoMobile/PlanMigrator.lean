import AutoMobile.ScriptValue

/- `plan/PlanMigrator`: rewriting a plan of an older shape into the current one. -/
namespace AutoMobile.PlanMigrator

open InsertionMap ScriptValue

inductive Platform where
  | android
  | ios
deriving DecidableEq, Repr

structure MigrationWarning where
  message : String
  stepIndex : Option Nat
deriving DecidableEq, Repr

/-- An object under migration, the warnings recorded so far and whether a rule has fired. -/
structure Migration where
  fields : Fields
  warnings : List MigrationWarning := []
  changed : Bool := false

namespace Migration

variable (migration : Migration)

def field (key : String) : Value := ScriptValue.field migration.fields key

def set (key : String) (value : Value) : Migration :=
  { migration with fields := put migration.fields key value }

def delete (key : String) : Migration := { migration with fields := erase migration.fields key }

def recordWarning (message : String) (stepIndex : Option Nat) : Migration :=
  { migration with warnings := migration.warnings ++ [⟨message, stepIndex⟩] }

def markChanged : Migration := { migration with changed := true }

/-- Move a text to a field that is `undefined`. -/
def renameText (source target message : String) (stepIndex : Nat) : Migration :=
  if (migration.field target).isUndefined && (migration.field source).isText then
    (((migration.set target (migration.field source)).delete source).recordWarning message
      stepIndex).markChanged
  else migration

/-- Drop a field that is no longer read. -/
def dropField (key message : String) (stepIndex : Option Nat) : Migration :=
  if (migration.field key).isUndefined then migration
  else ((migration.delete key).recordWarning message stepIndex).markChanged

end Migration

def platform? (value : Value) : Option Platform :=
  match value.text? with
  | some "android" => some .android
  | some "ios" => some .ios
  | _ => none

structure StepMigrationContext where
  planPlatform : Value
  planDevices : Value
  fallbackPlatform : Value

def resolveStepPlatform (params : Fields) (context : StepMigrationContext) : Option Platform :=
  match platform? (field params "platform") with
  | some platform => some platform
  | none =>
    let device := do
      let label ← (field params "device").text?
      let devices ← context.planDevices.array?
      let device ← devices.find? fun entry =>
        entry.isRecord && (entry.member "label").text? == some label
      platform? (device.member "platform")
    match device with
    | some platform => some platform
    | none =>
      match platform? context.planPlatform with
      | some platform => some platform
      | none => platform? context.fallbackPlatform

section Plan

/-- The fields of the plan's metadata. -/
def metadataOf (plan : Migration) : Fields := ((plan.field "metadata").object?).getD []

def setMetadata (plan : Migration) (metadata : Fields) : Migration :=
  plan.set "metadata" (.object metadata)

def ensureMetadata (plan : Migration) : Migration :=
  if (plan.field "metadata").isRecord then plan
  else
    let plan :=
      if (plan.field "metadata").isUndefined then plan
      else plan.recordWarning "Plan metadata was not an object; resetting to defaults." none
    setMetadata plan []

/-- Take a text of the metadata over into the plan, which has none. -/
def moveFromMetadata (plan : Migration) (key message : String) : Migration :=
  let metadata := metadataOf plan
  if !(plan.field key).truthy && (field metadata key).isText then
    ((setMetadata (plan.set key (field metadata key)) (erase metadata key)).recordWarning message
      none).markChanged
  else plan

def migratePlanIdentity (plan : Migration) : Migration :=
  let plan :=
    if !(plan.field "name").truthy && (plan.field "planName").isText then
      (((plan.set "name" (plan.field "planName")).delete "planName").recordWarning
        "Renamed planName to name." none).markChanged
    else plan
  let plan := moveFromMetadata plan "name" "Moved metadata.name to plan name."
  moveFromMetadata plan "description" "Moved metadata.description to plan description."

/-- Copy a text of the plan into the metadata, which has none. -/
def copyToMetadata (plan : Migration) (source target message : String) : Migration :=
  let metadata := metadataOf plan
  if (plan.field source).isText && !(field metadata target).truthy then
    ((setMetadata plan (put metadata target (plan.field source))).recordWarning message
      none).markChanged
  else plan

def migrateLegacyPlanMetadata (plan : Migration) : Migration :=
  let plan := copyToMetadata plan "generated" "createdAt"
    "Mapped generated timestamp to metadata.createdAt."
  let plan := plan.dropField "generated" "Removed deprecated generated field." none
  let plan := copyToMetadata plan "appId" "appId" "Moved top-level appId to metadata.appId."
  plan.dropField "appId" "Removed deprecated top-level appId field." none

/-- The current time as the clock prints it. -/
abbrev IsoTime := { text : String // text ≠ "" }

def defaultMetadata (plan : Migration) (key text message : String) : Migration :=
  let metadata := metadataOf plan
  if (field metadata key).truthy then plan
  else ((setMetadata plan (put metadata key (.text text))).recordWarning message none).markChanged

def migratePlanVersionMetadata (now : IsoTime) (plan : Migration) : Migration :=
  let plan := moveFromMetadata plan "mcpVersion"
    "Moved metadata.mcpVersion to top-level mcpVersion."
  let plan :=
    if !(plan.field "mcpVersion").isText || !(plan.field "mcpVersion").truthy then
      ((plan.set "mcpVersion" (.text "unknown")).recordWarning
        "Defaulted missing mcpVersion to \"unknown\"." none).markChanged
    else plan
  let plan := defaultMetadata plan "createdAt" now.val "Defaulted missing metadata.createdAt."
  defaultMetadata plan "version" "1.0.0" "Defaulted missing metadata.version to 1.0.0."

def migratePlanFields (now : IsoTime) (plan : Migration) : Migration :=
  let plan := ensureMetadata plan
  let plan := migratePlanIdentity plan
  let plan := migrateLegacyPlanMetadata plan
  migratePlanVersionMetadata now plan

end Plan

section ToolName

variable (stepIndex : Nat)

def migrateInputTextParams (context : StepMigrationContext) (params : Migration) : Migration :=
  let params :=
    if (params.field "value").isUndefined then params
    else
      let params :=
        if (params.field "text").isUndefined then params.set "text" (params.field "value")
        else params
      (params.delete "value").recordWarning "Renamed inputText.value to text." stepIndex
  let operation :=
    if resolveStepPlatform params.fields context = some .ios then "insert" else "replace"
  let typeCommand : Fields :=
    [("action", .text "type"), ("text", params.field "text"), ("operation", .text operation)]
  let params := params.delete "text"
  let mode := params.field "mode"
  let typeCommand := if mode.isUndefined then typeCommand else put typeCommand "mode" mode
  let params := if mode.isUndefined then params else params.delete "mode"
  let imeAction := params.field "imeAction"
  let commands :=
    if imeAction.isUndefined then [Value.object typeCommand]
    else [Value.object typeCommand, .object [("action", .text "key"), ("key", imeAction)]]
  let params := if imeAction.isUndefined then params else params.delete "imeAction"
  let params :=
    if (params.field "dismissKeyboard").isUndefined then params
    else (params.delete "dismissKeyboard").recordWarning
      ("Dropped inputText.dismissKeyboard during sendKeys migration; " ++
        "use the keyboard tool to dismiss it explicitly.") stepIndex
  (params.set "commands" (.array commands)).recordWarning "Renamed inputText to sendKeys." stepIndex

/-- The current name of the tool, and the parameters that go with the change of name. -/
def migrateToolName (toolName : String) (context : StepMigrationContext) (params : Migration) :
    String × Migration :=
  if toolName = "tapOnText" then
    ("tapOn", (params.recordWarning "Renamed tapOnText to tapOn." stepIndex).markChanged)
  else if toolName = "swipeOnScreen" then
    let params := params.recordWarning "Renamed swipeOnScreen to swipeOn." stepIndex
    let params :=
      if (params.field "autoTarget").isUndefined then
        (params.set "autoTarget" (.bool false)).recordWarning
          "Defaulted autoTarget=false for swipeOnScreen migration." stepIndex
      else params
    ("swipeOn", params.markChanged)
  else if toolName = "scroll" then
    let params := params.recordWarning "Renamed scroll to swipeOn." stepIndex
    let params :=
      if (params.field "gestureType").truthy then params
      else (params.set "gestureType" (.text "scrollTowardsDirection")).recordWarning
        "Defaulted gestureType=scrollTowardsDirection for scroll migration." stepIndex
    ("swipeOn", params.markChanged)
  else if toolName = "inputText" then
    ("sendKeys", (migrateInputTextParams stepIndex context params).markChanged)
  else if toolName = "clearText" then
    let params := params.set "commands" (.array [.object [("action", .text "clear")]])
    ("sendKeys", (params.recordWarning "Renamed clearText to sendKeys." stepIndex).markChanged)
  else if toolName = "imeAction" then
    let key := params.field "action"
    let params := params.set "commands" (.array [.object [("action", .text "key"), ("key", key)]])
    let params := params.delete "action"
    ("sendKeys", (params.recordWarning "Renamed imeAction to sendKeys." stepIndex).markChanged)
  else (toolName, params)

end ToolName

section ToolParams

variable (stepIndex : Nat) (params : Migration)

def migrateAppParams : Migration :=
  let params := params.renameText "packageName" "appId" "Renamed packageName to appId." stepIndex
  params.renameText "bundleId" "appId" "Renamed bundleId to appId." stepIndex

/-- The tap is held for some time. -/
def hasDuration : Bool :=
  match (params.field "duration").number? with
  | some duration => duration.isFinite && duration.above 0
  | none => false

def defaultTapAction : Migration :=
  if (params.field "action").truthy then params
  else
    let hasDuration := hasDuration params
    let params := params.set "action" (.text (if hasDuration then "longPress" else "tap"))
    (params.recordWarning
      (if hasDuration then "Defaulted tapOn.action to longPress because duration is set."
        else "Defaulted tapOn.action to tap.") stepIndex).markChanged

/-- Take a legacy target of the tap over into its selector. -/
def moveToSelector (key : String) (legacy : Value → Bool) (tap : Fields × Migration) :
    Fields × Migration :=
  if legacy (tap.2.field key) then (put tap.1 key (tap.2.field key), tap.2.delete key)
  else tap

/-- The targets of a tap without a selector become its selector. -/
def wrapSelector : Migration :=
  if (params.field "selector").isRecord then params
  else
    let tap := moveToSelector "elementId" Value.isText ([], params)
    let tap := moveToSelector "text" Value.isText tap
    let tap := moveToSelector "textAny" (fun value => value.array?.isSome) tap
    if tap.1 = [] then tap.2
    else
      ((tap.2.set "selector" (.object tap.1)).recordWarning
        ("Wrapped legacy tapOn \x7b elementId|text|textAny \x7d under \x7b selector: \x7b ... " ++
          "\x7d \x7d for v0.0.30+ schema.") stepIndex).markChanged

def migrateTapParams : Migration :=
  let params := defaultTapAction stepIndex params
  let params := params.renameText "id" "elementId" "Renamed id to elementId for tapOn." stepIndex
  wrapSelector stepIndex params

def migrateHighlightParams : Migration :=
  if (params.field "id").isText then
    let params :=
      if (params.field "elementId").isUndefined then params.set "elementId" (params.field "id")
      else params
    ((params.delete "id").recordWarning "Renamed id to elementId for highlight."
      stepIndex).markChanged
  else params

def migrateLinkParams : Migration :=
  params.renameText "link" "url" "Renamed openLink.link to url." stepIndex

def migrateSwipeDuration : Migration :=
  if (params.field "duration").isUndefined then params
  else
    let params :=
      match !(params.field "speed").truthy, (params.field "duration").number? with
      | true, some duration =>
        let speed :=
          if duration.atLeast 800 then "slow" else if duration.atMost 250 then "fast"
          else "normal"
        (params.set "speed" (.text speed)).recordWarning "Mapped swipe duration to speed."
          stepIndex
      | _, _ => params
    ((params.delete "duration").recordWarning "Removed deprecated swipe duration field."
      stepIndex).markChanged

/-- Take a container target of the swipe over into its container. -/
def moveToContainer (source target message : String) (swipe : Fields × Migration) :
    Fields × Migration :=
  if (swipe.2.field source).isText && !(field swipe.1 target).truthy then
    (put swipe.1 target (swipe.2.field source),
      ((swipe.2.delete source).recordWarning message stepIndex).markChanged)
  else swipe

def migrateSwipeParams : Migration :=
  let swipe := (((params.field "container").object?).getD [], params)
  let swipe := moveToContainer stepIndex "containerElementId" "elementId"
    "Renamed containerElementId to container.elementId." swipe
  let swipe := moveToContainer stepIndex "containerText" "text"
    "Renamed containerText to container.text." swipe
  let params := if swipe.1 = [] then swipe.2 else swipe.2.set "container" (.object swipe.1)
  let params := migrateSwipeDuration stepIndex params
  params.dropField "scrollMode" "Removed deprecated scrollMode field." stepIndex

def migrateSystemTrayParams : Migration :=
  match (params.field "notification").object? with
  | none => params
  | some notification =>
    match (field notification "timeout").number?, (params.field "awaitTimeout").isUndefined with
    | some timeout, true =>
      let params := params.set "awaitTimeout" (.number timeout)
      let params := params.set "notification" (.object (erase notification "timeout"))
      (params.recordWarning "Moved notification.timeout to awaitTimeout."
        stepIndex).markChanged
    | _, _ => params

def migrateObserveParams : Migration :=
  params.dropField "withViewHierarchy" "Removed deprecated observe.withViewHierarchy field."
    stepIndex

def migrateToolParams (normalizedTool : String) : Migration :=
  if normalizedTool ∈ ["launchApp", "terminateApp", "crashApp", "stopApp"] then
    migrateAppParams stepIndex params
  else if normalizedTool = "tapOn" then migrateTapParams stepIndex params
  else if normalizedTool = "highlight" then migrateHighlightParams stepIndex params
  else if normalizedTool = "openLink" then migrateLinkParams stepIndex params
  else if normalizedTool = "swipeOn" then migrateSwipeParams stepIndex params
  else if normalizedTool = "systemTray" then migrateSystemTrayParams stepIndex params
  else if normalizedTool = "observe" then migrateObserveParams stepIndex params
  else params

end ToolParams

section Step

variable (stepIndex : Nat)

/-- Take the command of an old step for its tool. -/
def renameCommand (step : Migration) : Migration :=
  if !(step.field "tool").truthy && (step.field "command").isText then
    (((step.set "tool" (step.field "command")).delete "command").recordWarning
      "Renamed command to tool." stepIndex).markChanged
  else step

/-- Take the description of an old step for its label. -/
def mapDescription (step : Migration) : Migration :=
  if (step.field "description").isText && !(step.field "label").truthy then
    ((step.set "label" (step.field "description")).recordWarning
      "Mapped step description to label." stepIndex).markChanged
  else step

def migrateStepMetadata (step : Migration) : Migration :=
  let step := renameCommand stepIndex step
  let step := step.dropField "command" "Removed deprecated command field." stepIndex
  -- a highlight keeps its description, which is a parameter of the tool
  if (step.field "tool").text? = some "highlight" then step
  else (mapDescription stepIndex step).dropField "description"
    "Removed deprecated step description field." stepIndex

/-- The keys that stay at the step when its other fields become parameters. -/
def stepLevelKeys : List String :=
  ["tool", "command", "label", "params", "optional", "expectations", "geometry"]

def isInline (key : String) : Bool := decide (key ∉ stepLevelKeys)

/-- The fields that move into the parameters. Assigning to `__proto__` makes no field. -/
def inlineParams (step : Fields) : Fields :=
  step.filter fun entry => isInline entry.1 && entry.1 != "__proto__"

def migrateStepFields (context : StepMigrationContext) (step : Migration) : Migration :=
  let step := migrateStepMetadata stepIndex step
  match (step.field "tool").text? with
  | none => step
  | some toolName =>
    let paramsFromStep := ((step.field "params").object?).getD []
    let mergedParams := spread (inlineParams step.fields) paramsFromStep
    let changed := step.changed || step.fields.any fun entry => isInline entry.1
    let fields := step.fields.filter fun entry => !isInline entry.1
    let params : Migration := ⟨mergedParams, step.warnings, changed⟩
    let (normalizedTool, params) := migrateToolName stepIndex toolName context params
    let fields := put fields "tool" (.text normalizedTool)
    let params := migrateToolParams stepIndex params normalizedTool
    ⟨put fields "params" (.object params.fields), params.warnings, params.changed⟩

end Step

structure PlanMigrationOptions where
  platform : Value := .undefined
  devices : Value := .undefined

def migratePlanStep (step : Value) (stepIndex : Nat) (context : PlanMigrationOptions) : Value :=
  match step with
  | .object fields =>
    .object (migrateStepFields stepIndex ⟨context.platform, context.devices, .undefined⟩
      { fields := fields }).fields
  | other => other

section Versions

/-- The digits of the part as a number. -/
def digits? (part : String) : Option Nat :=
  let digits := part.toList.filter Char.isDigit
  if digits = [] then none
  else some (digits.foldl (fun number digit => 10 * number + (digit.toNat - '0'.toNat)) 0)

/-- The version without its build metadata. -/
def releaseVersion (version : String) : String := (version.splitOn "+").headD ""

def parseVersion (version : String) : Option (List Nat) :=
  if version = "" ∨ version = "unknown" ∨ version = "latest" then none
  else (((releaseVersion version).splitOn ".").mapM digits?).map (List.take 3)

def olderParts : List Nat → List Nat → Bool
  | [], [] => false
  | [], target :: targets => decide (0 < target) || olderParts [] targets
  | current :: currents, [] => !decide (0 < current) && olderParts currents []
  | current :: currents, target :: targets =>
    decide (current < target) ||
      (!decide (target < current) && olderParts currents targets)

def isOlderVersion (version target : String) : Bool :=
  match parseVersion version, parseVersion target with
  | some parsedVersion, some parsedTarget => olderParts parsedVersion parsedTarget
  | _, _ => true

end Versions

structure PlanMigrationReport where
  appliedMigrations : List String
  warnings : List MigrationWarning
  originalVersion : String
  targetVersion : String
  migrated : Bool
  outdated : Bool

/-- The steps after migration, with the warnings and changes of the plan so far. -/
def migrateSteps (context : StepMigrationContext) : Nat → List Value → List MigrationWarning →
    List Value × List MigrationWarning × Bool
  | _, [], warnings => ([], warnings, false)
  | stepIndex, .object fields :: rest, warnings =>
    let step := migrateStepFields stepIndex context ⟨fields, warnings, false⟩
    let (steps, warnings, changed) := migrateSteps context (stepIndex + 1) rest step.warnings
    (.object step.fields :: steps, warnings, step.changed || changed)
  | stepIndex, other :: rest, warnings =>
    let (steps, warnings, changed) := migrateSteps context (stepIndex + 1) rest warnings
    (other :: steps, warnings, changed)

def originalVersionOf (plan : Fields) : String :=
  match (field plan "mcpVersion").text? with
  | some version => version
  | none => (((field plan "metadata").member "mcpVersion").text?).getD "unknown"

def migratePlan (targetVersion : String) (now : IsoTime) (rawPlan : Value)
    (options : PlanMigrationOptions) : Except String (Fields × PlanMigrationReport) :=
  match rawPlan with
  | .object fields =>
    let originalVersion := originalVersionOf fields
    let plan := migratePlanFields now { fields := fields }
    let applied := if plan.changed then ["plan-fields"] else []
    let report (appliedMigrations : List String) (warnings : List MigrationWarning)
        (migrated : Bool) : PlanMigrationReport :=
      { appliedMigrations := appliedMigrations
        warnings := warnings
        originalVersion := originalVersion
        targetVersion := targetVersion
        migrated := migrated
        outdated := isOlderVersion originalVersion targetVersion }
    match (plan.field "steps").array? with
    | some steps =>
      let context : StepMigrationContext :=
        ⟨plan.field "platform", plan.field "devices", options.platform⟩
      let (steps, warnings, stepsChanged) := migrateSteps context 0 steps plan.warnings
      let applied := if stepsChanged then applied ++ ["step-fields"] else applied
      .ok (put plan.fields "steps" (.array steps),
        report applied warnings (plan.changed || stepsChanged))
    | none => .ok (plan.fields, report applied plan.warnings plan.changed)
  | _ => .error "Plan is not a valid object"

end AutoMobile.PlanMigrator
