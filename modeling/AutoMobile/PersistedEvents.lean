import AutoMobile.OrgJson

/- The codec of the SDK's persisted event batches: each kind of event is written to an object
by its own function and read back by another. -/
namespace AutoMobile.PersistedEvents

open InsertionMap OrgJson

section Events

inductive NavigationSourceType where
  | NAVIGATION_COMPONENT
  | COMPOSE_NAVIGATION
  | CIRCUIT
  | CUSTOM
  | DEEP_LINK
  | ACTIVITY
deriving DecidableEq

inductive WebSocketFrameDirection where
  | SENT
  | RECEIVED
deriving DecidableEq

inductive WebSocketFrameType where
  | TEXT
  | BINARY
  | PING
  | PONG
  | CLOSE
deriving DecidableEq

structure SdkNavigationEvent where
  timestamp : Int64
  applicationId : Option String := none
  destination : String
  source : NavigationSourceType
  arguments : Option TextMap := none
  metadata : Option TextMap := none

structure SdkDeviceInfo where
  model : String
  manufacturer : String
  osVersion : String
  sdkInt : Int32

structure SdkHandledExceptionEvent where
  timestamp : Int64
  applicationId : Option String := none
  exceptionClass : String
  exceptionMessage : Option String
  stackTrace : String
  customMessage : Option String := none
  currentScreen : Option String := none
  appVersion : Option String := none
  deviceInfo : Option SdkDeviceInfo := none

structure SdkNotificationActionEvent where
  timestamp : Int64
  applicationId : Option String := none
  notificationId : String
  actionId : String
  actionLabel : String

structure SdkRecompositionSnapshotEvent where
  timestamp : Int64
  applicationId : Option String := none
  snapshotJson : String

structure SdkCrashEvent where
  timestamp : Int64
  applicationId : Option String := none
  exceptionClass : String
  exceptionMessage : Option String
  stackTrace : String
  threadName : String
  currentScreen : Option String := none
  appVersion : Option String := none
  deviceInfo : Option SdkDeviceInfo := none

structure SdkAnrEvent where
  timestamp : Int64
  applicationId : Option String := none
  pid : Int32
  processName : String
  importance : String
  trace : Option String
  reason : String
  appVersion : Option String := none
  deviceInfo : Option SdkDeviceInfo := none

structure SdkNetworkRequestEvent where
  timestamp : Int64
  applicationId : Option String := none
  url : String
  method : String
  statusCode : Int32 := 0
  durationMs : Int64 := 0
  requestBodySize : Int64 := -1
  responseBodySize : Int64 := -1
  protocol : Option String := none
  host : Option String := none
  path : Option String := none
  error : Option String := none
  requestHeaders : Option TextMap := none
  responseHeaders : Option TextMap := none
  requestBody : Option String := none
  responseBody : Option String := none
  contentType : Option String := none

structure SdkWebSocketFrameEvent where
  timestamp : Int64
  applicationId : Option String := none
  connectionId : String
  url : String
  direction : WebSocketFrameDirection
  frameType : WebSocketFrameType
  payloadSize : Int64 := 0
  success : Bool := true

structure SdkLogEvent where
  timestamp : Int64
  applicationId : Option String := none
  level : Int32
  tag : String
  message : String
  pid : Int32 := 0
  tid : Int32 := 0

structure SdkBroadcastEvent where
  timestamp : Int64
  applicationId : Option String := none
  action : String
  categories : Option (List String) := none
  extraKeys : Option TextMap := none

structure SdkLifecycleEvent where
  timestamp : Int64
  applicationId : Option String := none
  kind : String
  details : Option TextMap := none

/-- Of a nested batch only the text that `toString` makes of it is written. -/
structure SdkEventBatch where
  timestamp : Int64
  applicationId : Option String := none
  asText : String

inductive SdkEvent where
  | navigation (event : SdkNavigationEvent)
  | handledException (event : SdkHandledExceptionEvent)
  | notificationAction (event : SdkNotificationActionEvent)
  | recompositionSnapshot (event : SdkRecompositionSnapshotEvent)
  | crash (event : SdkCrashEvent)
  | anr (event : SdkAnrEvent)
  | networkRequest (event : SdkNetworkRequestEvent)
  | webSocketFrame (event : SdkWebSocketFrameEvent)
  | log (event : SdkLogEvent)
  | broadcast (event : SdkBroadcastEvent)
  | lifecycle (event : SdkLifecycleEvent)
  | batch (event : SdkEventBatch)

structure PendingEventBatch where
  storageId : String
  events : List SdkEvent
  deliveryId : Option String := none

def SdkEvent.timestamp : SdkEvent → Int64
  | navigation event => event.timestamp
  | handledException event => event.timestamp
  | notificationAction event => event.timestamp
  | recompositionSnapshot event => event.timestamp
  | crash event => event.timestamp
  | anr event => event.timestamp
  | networkRequest event => event.timestamp
  | webSocketFrame event => event.timestamp
  | log event => event.timestamp
  | broadcast event => event.timestamp
  | lifecycle event => event.timestamp
  | batch event => event.timestamp

def SdkEvent.applicationId : SdkEvent → Option String
  | navigation event => event.applicationId
  | handledException event => event.applicationId
  | notificationAction event => event.applicationId
  | recompositionSnapshot event => event.applicationId
  | crash event => event.applicationId
  | anr event => event.applicationId
  | networkRequest event => event.applicationId
  | webSocketFrame event => event.applicationId
  | log event => event.applicationId
  | broadcast event => event.applicationId
  | lifecycle event => event.applicationId
  | batch event => event.applicationId

/-- What is left of an optional text: an empty one counts as absent. -/
def unlessEmpty (text : Option String) : Option String := text.filter fun text => text ≠ ""

/-- The event with its empty optional texts taken out. -/
def SdkEvent.withoutEmptyTexts : SdkEvent → SdkEvent
  | navigation event => navigation { event with applicationId := unlessEmpty event.applicationId }
  | handledException event => handledException
      { event with
        applicationId := unlessEmpty event.applicationId
        exceptionMessage := unlessEmpty event.exceptionMessage
        customMessage := unlessEmpty event.customMessage
        currentScreen := unlessEmpty event.currentScreen
        appVersion := unlessEmpty event.appVersion }
  | notificationAction event =>
    notificationAction { event with applicationId := unlessEmpty event.applicationId }
  | recompositionSnapshot event =>
    recompositionSnapshot { event with applicationId := unlessEmpty event.applicationId }
  | crash event => crash
      { event with
        applicationId := unlessEmpty event.applicationId
        exceptionMessage := unlessEmpty event.exceptionMessage
        currentScreen := unlessEmpty event.currentScreen
        appVersion := unlessEmpty event.appVersion }
  | anr event => anr
      { event with
        applicationId := unlessEmpty event.applicationId
        trace := unlessEmpty event.trace
        appVersion := unlessEmpty event.appVersion }
  | networkRequest event => networkRequest
      { event with
        applicationId := unlessEmpty event.applicationId
        protocol := unlessEmpty event.protocol
        host := unlessEmpty event.host
        path := unlessEmpty event.path
        error := unlessEmpty event.error
        requestBody := unlessEmpty event.requestBody
        responseBody := unlessEmpty event.responseBody
        contentType := unlessEmpty event.contentType }
  | webSocketFrame event =>
    webSocketFrame { event with applicationId := unlessEmpty event.applicationId }
  | log event => log { event with applicationId := unlessEmpty event.applicationId }
  | broadcast event => broadcast { event with applicationId := unlessEmpty event.applicationId }
  | lifecycle event => lifecycle { event with applicationId := unlessEmpty event.applicationId }
  | batch event => batch { event with applicationId := unlessEmpty event.applicationId }

def SdkEvent.isBatch : SdkEvent → Bool
  | batch _ => true
  | _ => false

end Events

section Enumerations

/-- `Enum.valueOf`: `none` stands for the exception. -/
def valueOf {α : Type} (entries : List α) (name : α → String) (text : String) : Option α :=
  entries.find? fun entry => name entry = text

def NavigationSourceType.entries : List NavigationSourceType :=
  [NAVIGATION_COMPONENT, COMPOSE_NAVIGATION, CIRCUIT, CUSTOM, DEEP_LINK, ACTIVITY]

def NavigationSourceType.name : NavigationSourceType → String
  | NAVIGATION_COMPONENT => "NAVIGATION_COMPONENT"
  | COMPOSE_NAVIGATION => "COMPOSE_NAVIGATION"
  | CIRCUIT => "CIRCUIT"
  | CUSTOM => "CUSTOM"
  | DEEP_LINK => "DEEP_LINK"
  | ACTIVITY => "ACTIVITY"

def WebSocketFrameDirection.entries : List WebSocketFrameDirection := [SENT, RECEIVED]

def WebSocketFrameDirection.name : WebSocketFrameDirection → String
  | SENT => "SENT"
  | RECEIVED => "RECEIVED"

def WebSocketFrameType.entries : List WebSocketFrameType := [TEXT, BINARY, PING, PONG, CLOSE]

def WebSocketFrameType.name : WebSocketFrameType → String
  | TEXT => "TEXT"
  | BINARY => "BINARY"
  | PING => "PING"
  | PONG => "PONG"
  | CLOSE => "CLOSE"

@[simp] theorem valueOf_source (source : NavigationSourceType) :
    valueOf NavigationSourceType.entries NavigationSourceType.name source.name = some source := by
  cases source <;> decide

@[simp] theorem valueOf_direction (direction : WebSocketFrameDirection) :
    valueOf WebSocketFrameDirection.entries WebSocketFrameDirection.name direction.name =
      some direction := by
  cases direction <;> decide

@[simp] theorem valueOf_frameType (frameType : WebSocketFrameType) :
    valueOf WebSocketFrameType.entries WebSocketFrameType.name frameType.name = some frameType := by
  cases frameType <;> decide

end Enumerations

section PersistedEventWriter

def serializeDeviceInfo (info : SdkDeviceInfo) : Json :=
  let obj : JsonObject := []
  let obj := put obj "model" (.text info.model)
  let obj := put obj "manufacturer" (.text info.manufacturer)
  let obj := put obj "osVersion" (.text info.osVersion)
  .object (put obj "sdkInt" (.number info.sdkInt.toInt64))

def writeNavigation (obj : JsonObject) (event : SdkNavigationEvent) : JsonObject :=
  let obj := put obj "destination" (.text event.destination)
  let obj := put obj "source" (.text event.source.name)
  let obj := putPresent obj "arguments" (event.arguments.map ofMap)
  putPresent obj "metadata" (event.metadata.map ofMap)

def writeHandledException (obj : JsonObject) (event : SdkHandledExceptionEvent) : JsonObject :=
  let obj := put obj "exceptionClass" (.text event.exceptionClass)
  let obj := put obj "exceptionMessage" (.text (event.exceptionMessage.getD ""))
  let obj := put obj "stackTrace" (.text event.stackTrace)
  let obj := putPresent obj "customMessage" (event.customMessage.map .text)
  let obj := putPresent obj "currentScreen" (event.currentScreen.map .text)
  let obj := putPresent obj "appVersion" (event.appVersion.map .text)
  putPresent obj "deviceInfo" (event.deviceInfo.map serializeDeviceInfo)

def writeCrash (obj : JsonObject) (event : SdkCrashEvent) : JsonObject :=
  let obj := put obj "exceptionClass" (.text event.exceptionClass)
  let obj := put obj "exceptionMessage" (.text (event.exceptionMessage.getD ""))
  let obj := put obj "stackTrace" (.text event.stackTrace)
  let obj := put obj "threadName" (.text event.threadName)
  let obj := putPresent obj "currentScreen" (event.currentScreen.map .text)
  let obj := putPresent obj "appVersion" (event.appVersion.map .text)
  putPresent obj "deviceInfo" (event.deviceInfo.map serializeDeviceInfo)

def writeAnr (obj : JsonObject) (event : SdkAnrEvent) : JsonObject :=
  let obj := put obj "pid" (.number event.pid.toInt64)
  let obj := put obj "processName" (.text event.processName)
  let obj := put obj "importance" (.text event.importance)
  let obj := putPresent obj "trace" (event.trace.map .text)
  let obj := put obj "reason" (.text event.reason)
  let obj := putPresent obj "appVersion" (event.appVersion.map .text)
  putPresent obj "deviceInfo" (event.deviceInfo.map serializeDeviceInfo)

def writeNetworkRequest (obj : JsonObject) (event : SdkNetworkRequestEvent) : JsonObject :=
  let obj := put obj "url" (.text event.url)
  let obj := put obj "method" (.text event.method)
  let obj := put obj "statusCode" (.number event.statusCode.toInt64)
  let obj := put obj "durationMs" (.number event.durationMs)
  let obj := put obj "requestBodySize" (.number event.requestBodySize)
  let obj := put obj "responseBodySize" (.number event.responseBodySize)
  let obj := putPresent obj "protocol" (event.protocol.map .text)
  let obj := putPresent obj "host" (event.host.map .text)
  let obj := putPresent obj "path" (event.path.map .text)
  let obj := putPresent obj "error" (event.error.map .text)
  let obj := putPresent obj "requestHeaders" (event.requestHeaders.map ofMap)
  let obj := putPresent obj "responseHeaders" (event.responseHeaders.map ofMap)
  let obj := putPresent obj "requestBody" (event.requestBody.map .text)
  let obj := putPresent obj "responseBody" (event.responseBody.map .text)
  putPresent obj "contentType" (event.contentType.map .text)

def writeBroadcast (obj : JsonObject) (event : SdkBroadcastEvent) : JsonObject :=
  let obj := put obj "action" (.text event.action)
  let obj := putPresent obj "categories" (event.categories.map ofList)
  putPresent obj "extraKeys" (event.extraKeys.map ofMap)

def writeLifecycle (obj : JsonObject) (event : SdkLifecycleEvent) : JsonObject :=
  let obj := put obj "kind" (.text event.kind)
  putPresent obj "details" (event.details.map ofMap)

def writeEventFields (obj : JsonObject) : SdkEvent → JsonObject
  | .navigation event => writeNavigation obj event
  | .handledException event => writeHandledException obj event
  | .notificationAction event =>
    let obj := put obj "notificationId" (.text event.notificationId)
    let obj := put obj "actionId" (.text event.actionId)
    put obj "actionLabel" (.text event.actionLabel)
  | .recompositionSnapshot event => put obj "snapshotJson" (.text event.snapshotJson)
  | .crash event => writeCrash obj event
  | .anr event => writeAnr obj event
  | .networkRequest event => writeNetworkRequest obj event
  | .webSocketFrame event =>
    let obj := put obj "connectionId" (.text event.connectionId)
    let obj := put obj "url" (.text event.url)
    let obj := put obj "direction" (.text event.direction.name)
    let obj := put obj "frameType" (.text event.frameType.name)
    let obj := put obj "payloadSize" (.number event.payloadSize)
    put obj "success" (.bool event.success)
  | .log event =>
    let obj := put obj "level" (.number event.level.toInt64)
    let obj := put obj "tag" (.text event.tag)
    let obj := put obj "message" (.text event.message)
    let obj := put obj "pid" (.number event.pid.toInt64)
    put obj "tid" (.number event.tid.toInt64)
  | .broadcast event => writeBroadcast obj event
  | .lifecycle event => writeLifecycle obj event
  | .batch event => put obj "data" (.text event.asText)

/-- The members that all events share are not written twice. -/
theorem get?_writeEventFields (event : SdkEvent) (obj : JsonObject) {key : String}
    (shared : key = "type" ∨ key = "timestamp" ∨ key = "applicationId") :
    get? (writeEventFields obj event) key = get? obj key := by
  rcases shared with rfl | rfl | rfl <;>
    cases event <;>
      simp [writeEventFields, writeNavigation, writeHandledException, writeCrash, writeAnr,
        writeNetworkRequest, writeBroadcast, writeLifecycle, get?_put, get?_putPresent]

def eventTypeKey : SdkEvent → String
  | .navigation _ => "navigation"
  | .handledException _ => "handled_exception"
  | .notificationAction _ => "notification_action"
  | .recompositionSnapshot _ => "recomposition_snapshot"
  | .crash _ => "crash"
  | .anr _ => "anr"
  | .networkRequest _ => "network_request"
  | .webSocketFrame _ => "websocket_frame"
  | .log _ => "log"
  | .broadcast _ => "broadcast"
  | .lifecycle _ => "lifecycle"
  | .batch _ => "unknown"

def serializeEvent (event : SdkEvent) : JsonObject :=
  let obj : JsonObject := []
  let obj := put obj "type" (.text (eventTypeKey event))
  let obj := put obj "timestamp" (.number event.timestamp)
  let obj := put obj "applicationId" (.text (event.applicationId.getD ""))
  writeEventFields obj event

def serializeEvents (events : List SdkEvent) : Json :=
  .array (events.map fun event => .object (serializeEvent event))

def serializePendingBatch (events : List SdkEvent) (deliveryId : Option String) : Json :=
  let obj : JsonObject := []
  let obj := put obj "batchId" ((deliveryId.map Json.text).getD .null)
  .object (put obj "events" (serializeEvents events))

end PersistedEventWriter

section PersistedEventReader

variable (coercions : Coercions)

/-- `text.ifEmpty { null }` -/
def ifEmptyNull (text : String) : Option String := if text = "" then none else some text

def deserializeDeviceInfo (obj : JsonObject) : SdkDeviceInfo where
  model := optString coercions obj "model"
  manufacturer := optString coercions obj "manufacturer"
  osVersion := optString coercions obj "osVersion"
  sdkInt := optInt coercions obj "sdkInt"

def readNavigation (obj : JsonObject) (timestamp : Int64) (appId : Option String) :
    SdkNavigationEvent where
  timestamp := timestamp
  applicationId := appId
  destination := optString coercions obj "destination"
  source := (valueOf NavigationSourceType.entries NavigationSourceType.name
    (optString coercions obj "source")).getD .CUSTOM
  arguments := (optJSONObject obj "arguments").map (jsonObjectToMap coercions)
  metadata := (optJSONObject obj "metadata").map (jsonObjectToMap coercions)

def readHandledException (obj : JsonObject) (timestamp : Int64) (appId : Option String) :
    SdkHandledExceptionEvent where
  timestamp := timestamp
  applicationId := appId
  exceptionClass := optString coercions obj "exceptionClass"
  exceptionMessage := ifEmptyNull (optString coercions obj "exceptionMessage")
  stackTrace := optString coercions obj "stackTrace"
  customMessage := ifEmptyNull (optString coercions obj "customMessage")
  currentScreen := ifEmptyNull (optString coercions obj "currentScreen")
  appVersion := ifEmptyNull (optString coercions obj "appVersion")
  deviceInfo := (optJSONObject obj "deviceInfo").map (deserializeDeviceInfo coercions)

def readCrash (obj : JsonObject) (timestamp : Int64) (appId : Option String) : SdkCrashEvent where
  timestamp := timestamp
  applicationId := appId
  exceptionClass := optString coercions obj "exceptionClass"
  exceptionMessage := ifEmptyNull (optString coercions obj "exceptionMessage")
  stackTrace := optString coercions obj "stackTrace"
  threadName := optString coercions obj "threadName"
  currentScreen := ifEmptyNull (optString coercions obj "currentScreen")
  appVersion := ifEmptyNull (optString coercions obj "appVersion")
  deviceInfo := (optJSONObject obj "deviceInfo").map (deserializeDeviceInfo coercions)

def readAnr (obj : JsonObject) (timestamp : Int64) (appId : Option String) : SdkAnrEvent where
  timestamp := timestamp
  applicationId := appId
  pid := optInt coercions obj "pid"
  processName := optString coercions obj "processName"
  importance := optString coercions obj "importance"
  trace := ifEmptyNull (optString coercions obj "trace")
  reason := optString coercions obj "reason"
  appVersion := ifEmptyNull (optString coercions obj "appVersion")
  deviceInfo := (optJSONObject obj "deviceInfo").map (deserializeDeviceInfo coercions)

def readNetworkRequest (obj : JsonObject) (timestamp : Int64) (appId : Option String) :
    SdkNetworkRequestEvent where
  timestamp := timestamp
  applicationId := appId
  url := optString coercions obj "url"
  method := optString coercions obj "method"
  statusCode := optInt coercions obj "statusCode"
  durationMs := optLong coercions obj "durationMs" 0
  requestBodySize := optLong coercions obj "requestBodySize" (-1)
  responseBodySize := optLong coercions obj "responseBodySize" (-1)
  protocol := ifEmptyNull (optString coercions obj "protocol")
  host := ifEmptyNull (optString coercions obj "host")
  path := ifEmptyNull (optString coercions obj "path")
  error := ifEmptyNull (optString coercions obj "error")
  requestHeaders := (optJSONObject obj "requestHeaders").map (jsonObjectToMap coercions)
  responseHeaders := (optJSONObject obj "responseHeaders").map (jsonObjectToMap coercions)
  requestBody := ifEmptyNull (optString coercions obj "requestBody")
  responseBody := ifEmptyNull (optString coercions obj "responseBody")
  contentType := ifEmptyNull (optString coercions obj "contentType")

def readWebSocketFrame (obj : JsonObject) (timestamp : Int64) (appId : Option String) :
    SdkWebSocketFrameEvent where
  timestamp := timestamp
  applicationId := appId
  connectionId := optString coercions obj "connectionId"
  url := optString coercions obj "url"
  direction := (valueOf WebSocketFrameDirection.entries WebSocketFrameDirection.name
    (optString coercions obj "direction")).getD .RECEIVED
  frameType := (valueOf WebSocketFrameType.entries WebSocketFrameType.name
    (optString coercions obj "frameType")).getD .TEXT
  payloadSize := optLong coercions obj "payloadSize" 0
  success := optBoolean coercions obj "success" true

def readBroadcast (obj : JsonObject) (timestamp : Int64) (appId : Option String) :
    SdkBroadcastEvent where
  timestamp := timestamp
  applicationId := appId
  action := optString coercions obj "action"
  categories := (optJSONArray obj "categories").map
    (List.map fun item => asString coercions (some item))
  extraKeys := (optJSONObject obj "extraKeys").map (jsonObjectToMap coercions)

def readLifecycle (obj : JsonObject) (timestamp : Int64) (appId : Option String) :
    SdkLifecycleEvent where
  timestamp := timestamp
  applicationId := appId
  kind := optString coercions obj "kind"
  details := (optJSONObject obj "details").map (jsonObjectToMap coercions)

def deserializeEvent (type : String) (obj : JsonObject) (timestamp : Int64)
    (appId : Option String) : Option SdkEvent :=
  if type = "navigation" then some (.navigation (readNavigation coercions obj timestamp appId))
  else if type = "handled_exception" then
    some (.handledException (readHandledException coercions obj timestamp appId))
  else if type = "notification_action" then
    some (.notificationAction
      { timestamp := timestamp
        applicationId := appId
        notificationId := optString coercions obj "notificationId"
        actionId := optString coercions obj "actionId"
        actionLabel := optString coercions obj "actionLabel" })
  else if type = "recomposition_snapshot" then
    some (.recompositionSnapshot
      { timestamp := timestamp
        applicationId := appId
        snapshotJson := optString coercions obj "snapshotJson" })
  else if type = "crash" then some (.crash (readCrash coercions obj timestamp appId))
  else if type = "anr" then some (.anr (readAnr coercions obj timestamp appId))
  else if type = "network_request" then
    some (.networkRequest (readNetworkRequest coercions obj timestamp appId))
  else if type = "websocket_frame" then
    some (.webSocketFrame (readWebSocketFrame coercions obj timestamp appId))
  else if type = "log" then
    some (.log
      { timestamp := timestamp
        applicationId := appId
        level := optInt coercions obj "level"
        tag := optString coercions obj "tag"
        message := optString coercions obj "message"
        pid := optInt coercions obj "pid"
        tid := optInt coercions obj "tid" })
  else if type = "broadcast" then some (.broadcast (readBroadcast coercions obj timestamp appId))
  else if type = "lifecycle" then some (.lifecycle (readLifecycle coercions obj timestamp appId))
  else none

inductive Failure where
  | jsonException
  | illegalState (message : String)
deriving DecidableEq

/-- One round of the loop of `deserializeEvents`. -/
def deserializeObject (obj : JsonObject) : Option SdkEvent :=
  deserializeEvent coercions (optString coercions obj "type") obj
    (optLong coercions obj "timestamp" 0) (ifEmptyNull (optString coercions obj "applicationId"))

def deserializeItems : List Json → Except Failure (List SdkEvent)
  | [] => .ok []
  | .object obj :: rest => do
    let others ← deserializeItems rest
    return (deserializeObject coercions obj).toList ++ others
  | _ :: _ => .error .jsonException

def deserializeEvents : Json → Except Failure (List SdkEvent)
  | .array items => deserializeItems coercions items
  | _ => .error .jsonException

def isNull (obj : JsonObject) (key : String) : Bool :=
  match get? obj key with
  | none | some .null => true
  | _ => false

/-- A plain array is an old file: it has no delivery identity. -/
def deserializePendingBatch (storageId : String) : Json → Except Failure PendingEventBatch
  | .array items => do
    let events ← deserializeEvents coercions (.array items)
    return { storageId, events }
  | .object obj =>
    match get? obj "events" with
    | some (.array items) => do
      let events ← deserializeEvents coercions (.array items)
      let deliveryId :=
        if isNull obj "batchId" then none else some (asString coercions (get? obj "batchId"))
      return { storageId, events, deliveryId }
    | _ => .error .jsonException
  | _ => .error (.illegalState "Invalid persisted event batch")

end PersistedEventReader

section RoundTrip

variable (coercions : Coercions)

@[simp] theorem ifEmptyNull_getD (text : Option String) :
    ifEmptyNull (text.getD "") = unlessEmpty text := by
  cases text with
  | none => rfl
  | some text =>
    by_cases empty : text = ""
    · simp [ifEmptyNull, unlessEmpty, Option.filter, empty]
    · simp [ifEmptyNull, unlessEmpty, Option.filter, empty]

theorem deserializeDeviceInfo_serialize (info : SdkDeviceInfo) :
    (asObject (some (serializeDeviceInfo info))).map (deserializeDeviceInfo coercions) =
      some info := by
  simp [serializeDeviceInfo, asObject, deserializeDeviceInfo, optString, optInt, get?_put]

@[simp] theorem deviceInfo_read_back (info : Option SdkDeviceInfo) :
    (asObject (info.map serializeDeviceInfo)).map (deserializeDeviceInfo coercions) = info := by
  cases info with
  | none => rfl
  | some info => exact deserializeDeviceInfo_serialize coercions info

theorem deserializeObject_serializeEvent (event : SdkEvent) :
    deserializeObject coercions (serializeEvent event) =
      deserializeEvent coercions (eventTypeKey event) (serializeEvent event) event.timestamp
        (unlessEmpty event.applicationId) := by
  have type : optString coercions (serializeEvent event) "type" = eventTypeKey event := by
    simp [optString, serializeEvent, get?_writeEventFields, get?_put]
  have timestamp : optLong coercions (serializeEvent event) "timestamp" 0 = event.timestamp := by
    simp [optLong, serializeEvent, get?_writeEventFields, get?_put]
  have appId : optString coercions (serializeEvent event) "applicationId" =
      event.applicationId.getD "" := by
    simp [optString, serializeEvent, get?_writeEventFields]
  rw [deserializeObject, type, timestamp, appId, ifEmptyNull_getD]

theorem readNavigation_serializeEvent (event : SdkNavigationEvent) :
    SdkEvent.navigation (readNavigation coercions (serializeEvent (.navigation event))
      event.timestamp (unlessEmpty event.applicationId)) =
        (SdkEvent.navigation event).withoutEmptyTexts := by
  simp [readNavigation, serializeEvent, writeEventFields, writeNavigation, get?_put,
    get?_putPresent, get?, SdkEvent.withoutEmptyTexts, optString, optJSONObject]

theorem readHandledException_serializeEvent (event : SdkHandledExceptionEvent) :
    SdkEvent.handledException (readHandledException coercions
      (serializeEvent (.handledException event)) event.timestamp
      (unlessEmpty event.applicationId)) = (SdkEvent.handledException event).withoutEmptyTexts := by
  simp [readHandledException, serializeEvent, writeEventFields, writeHandledException,
    get?_put, get?_putPresent, get?, SdkEvent.withoutEmptyTexts, optString, optJSONObject]

theorem readCrash_serializeEvent (event : SdkCrashEvent) :
    SdkEvent.crash (readCrash coercions (serializeEvent (.crash event))
      event.timestamp (unlessEmpty event.applicationId)) =
        (SdkEvent.crash event).withoutEmptyTexts := by
  simp [readCrash, serializeEvent, writeEventFields, writeCrash, get?_put, get?_putPresent,
    get?, SdkEvent.withoutEmptyTexts, optString, optJSONObject]

theorem readAnr_serializeEvent (event : SdkAnrEvent) :
    SdkEvent.anr (readAnr coercions (serializeEvent (.anr event))
      event.timestamp (unlessEmpty event.applicationId)) =
        (SdkEvent.anr event).withoutEmptyTexts := by
  simp [readAnr, serializeEvent, writeEventFields, writeAnr, get?_put, get?_putPresent,
    get?, SdkEvent.withoutEmptyTexts, optString, optInt, optJSONObject]

theorem readNetworkRequest_serializeEvent (event : SdkNetworkRequestEvent) :
    SdkEvent.networkRequest (readNetworkRequest coercions (serializeEvent (.networkRequest event))
      event.timestamp (unlessEmpty event.applicationId)) =
        (SdkEvent.networkRequest event).withoutEmptyTexts := by
  simp [readNetworkRequest, serializeEvent, writeEventFields, writeNetworkRequest, get?_put,
    get?_putPresent, get?, SdkEvent.withoutEmptyTexts, optString, optInt, optLong,
    optJSONObject]

theorem readBroadcast_serializeEvent (event : SdkBroadcastEvent) :
    SdkEvent.broadcast (readBroadcast coercions (serializeEvent (.broadcast event))
      event.timestamp (unlessEmpty event.applicationId)) =
        (SdkEvent.broadcast event).withoutEmptyTexts := by
  simp [readBroadcast, serializeEvent, writeEventFields, writeBroadcast, get?_put, get?_putPresent,
    get?, SdkEvent.withoutEmptyTexts, optString, optJSONObject, optJSONArray]

theorem readLifecycle_serializeEvent (event : SdkLifecycleEvent) :
    SdkEvent.lifecycle (readLifecycle coercions (serializeEvent (.lifecycle event))
      event.timestamp (unlessEmpty event.applicationId)) =
        (SdkEvent.lifecycle event).withoutEmptyTexts := by
  simp [readLifecycle, serializeEvent, writeEventFields, writeLifecycle, get?_put, get?_putPresent,
    get?, SdkEvent.withoutEmptyTexts, optString, optJSONObject]

theorem readWebSocketFrame_serializeEvent (event : SdkWebSocketFrameEvent) :
    SdkEvent.webSocketFrame (readWebSocketFrame coercions (serializeEvent (.webSocketFrame event))
      event.timestamp (unlessEmpty event.applicationId)) =
        (SdkEvent.webSocketFrame event).withoutEmptyTexts := by
  simp [readWebSocketFrame, serializeEvent, writeEventFields, get?_put, SdkEvent.withoutEmptyTexts,
    optString, optLong, optBoolean]

/-- A written event is read back, less its empty optional texts; a nested batch is skipped. -/
theorem event_read_back (event : SdkEvent) : deserializeObject coercions (serializeEvent event) =
      if event.isBatch then none else some event.withoutEmptyTexts := by
  rw [deserializeObject_serializeEvent]
  cases event with
  | navigation event => exact congrArg some (readNavigation_serializeEvent coercions event)
  | handledException event =>
    exact congrArg some (readHandledException_serializeEvent coercions event)
  | notificationAction event =>
    simp [deserializeEvent, eventTypeKey, serializeEvent, writeEventFields, get?_put, optString,
      SdkEvent.withoutEmptyTexts, SdkEvent.isBatch, SdkEvent.timestamp, SdkEvent.applicationId]
  | recompositionSnapshot event =>
    simp [deserializeEvent, eventTypeKey, serializeEvent, writeEventFields, optString,
      SdkEvent.withoutEmptyTexts, SdkEvent.isBatch, SdkEvent.timestamp, SdkEvent.applicationId]
  | crash event => exact congrArg some (readCrash_serializeEvent coercions event)
  | anr event => exact congrArg some (readAnr_serializeEvent coercions event)
  | networkRequest event => exact congrArg some (readNetworkRequest_serializeEvent coercions event)
  | webSocketFrame event => exact congrArg some (readWebSocketFrame_serializeEvent coercions event)
  | log event =>
    simp [deserializeEvent, eventTypeKey, serializeEvent, writeEventFields, get?_put, optString,
      optInt, SdkEvent.withoutEmptyTexts, SdkEvent.isBatch, SdkEvent.timestamp,
      SdkEvent.applicationId]
  | broadcast event => exact congrArg some (readBroadcast_serializeEvent coercions event)
  | lifecycle event => exact congrArg some (readLifecycle_serializeEvent coercions event)
  | batch event => rfl

theorem items_read_back (events : List SdkEvent) :
    deserializeItems coercions (events.map fun event => .object (serializeEvent event)) =
      .ok ((events.filter fun event => !event.isBatch).map SdkEvent.withoutEmptyTexts) := by
  induction events with
  | nil => rfl
  | cons event rest ih =>
    rw [List.map_cons, deserializeItems, ih, event_read_back]
    cases nested : event.isBatch with
    | true => simp [nested]
    | false => simp [nested]

/-- A persisted batch is read back with its delivery identity and with all its events in order,
apart from nested batches; optional texts that are empty come back as absent. -/
theorem batch_reads_back (storageId : String) (events : List SdkEvent)
    (deliveryId : Option String) :
    deserializePendingBatch coercions storageId (serializePendingBatch events deliveryId) =
      .ok ⟨storageId, (events.filter fun event => !event.isBatch).map SdkEvent.withoutEmptyTexts,
        deliveryId⟩ := by
  let obj : JsonObject := put (put [] "batchId" ((deliveryId.map Json.text).getD .null)) "events"
    (serializeEvents events)
  have stored : get? obj "events" =
      some (.array (events.map fun event => .object (serializeEvent event))) :=
    get?_put_self _ _ _
  have identity : get? obj "batchId" = some ((deliveryId.map Json.text).getD .null) := by
    simp [obj, get?_put]
  show deserializePendingBatch coercions storageId (.object obj) = _
  rw [deserializePendingBatch, stored]
  dsimp only
  rw [deserializeEvents, items_read_back, isNull, identity]
  cases deliveryId with
  | none => rfl
  | some deliveryId => rfl

/-- An empty application id is lost on the way, whatever the coercions are. -/
theorem empty_text_is_lost : ¬ ∀ (coercions : Coercions) (storageId : String)
    (events : List SdkEvent) (deliveryId : Option String),
    (∀ event ∈ events, event.isBatch = false) →
      deserializePendingBatch coercions storageId (serializePendingBatch events deliveryId) =
        .ok ⟨storageId, events, deliveryId⟩ := by
  intro claim
  let event : SdkEvent :=
    .lifecycle { timestamp := 1, applicationId := some "", kind := "screen_on" }
  let coercions : Coercions := ⟨fun _ => "", fun _ => none, fun _ => none, fun _ => none⟩
  have same := claim coercions "batch" [event] none (List.forall_mem_singleton.mpr rfl)
  have ids := congrArg (fun result => result.toOption.map fun batch =>
    batch.events.map SdkEvent.applicationId) same
  exact absurd ids (by decide)

end RoundTrip

end AutoMobile.PersistedEvents
