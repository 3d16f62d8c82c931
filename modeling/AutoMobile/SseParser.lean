import Mathlib

/- `prototypeSseParser`: a `text/event-stream` body, parsed as its chunks come in. -/
namespace AutoMobile.EventStream

/-- A text as scripts hold it: UTF-16 units, of which a chunk may end anywhere. -/
abbrev Text := List UInt16

def units (text : String) : Text := text.toList.map fun char => UInt16.ofNat char.toNat

def LF : UInt16 := 0x0A
def CR : UInt16 := 0x0D
def COLON : UInt16 := 0x3A
def SPACE : UInt16 := 0x20
def NUL : UInt16 := 0
def BOM : UInt16 := 0xFEFF

section Parsing

structure SseEvent where
  event : Option Text
  data : Text
  id : Option Text
deriving DecidableEq, Repr

/-- What the handlers are called with. -/
inductive Output where
  | event (event : SseEvent)
  /-- The digits of a retry value. -/
  | retry (digits : Text)
deriving DecidableEq, Repr

structure SseParser where
  buffer : Text := []
  pendingCr : Bool := false
  atStart : Bool := true
  eventName : Text := []
  dataLines : List Text := []
  hasData : Bool := false
  lastEventId : Text := []
deriving DecidableEq, Repr

namespace SseParser

def seedLastEventId (parser : SseParser) (id : Text) : SseParser := { parser with lastEventId := id }

def dispatch (parser : SseParser) : SseParser × List Output :=
  let next := { parser with eventName := [], dataLines := [], hasData := false }
  if !parser.hasData then (next, [])
  else (next, [.event {
    event := if parser.eventName = [] then none else some parser.eventName
    data := [LF].intercalate parser.dataLines
    id := if parser.lastEventId = [] then none else some parser.lastEventId }])

/-- `/^[0-9]+$/` -/
def isDigits (value : Text) : Bool := !value.isEmpty && value.all fun unit => 0x30 ≤ unit && unit ≤ 0x39

def applyField (parser : SseParser) (field value : Text) : SseParser × List Output :=
  if field = units "event" then ({ parser with eventName := value }, [])
  else if field = units "data" then
    ({ parser with dataLines := parser.dataLines ++ [value], hasData := true }, [])
  else if field = units "id" then
    if NUL ∉ value then ({ parser with lastEventId := value }, []) else (parser, [])
  else if field = units "retry" ∧ isDigits value = true then (parser, [.retry value])
  else (parser, [])

/-- One space after the colon is not part of the value. -/
def withoutSpace (value : Text) : Text := if [SPACE].isPrefixOf value then value.drop 1 else value

def endLine (parser : SseParser) : SseParser × List Output :=
  let line := parser.buffer
  let parser := { parser with buffer := [] }
  if line = [] then dispatch parser
  else if [COLON].isPrefixOf line then (parser, [])
  else
    let colon := line.idxOf? COLON
    let field := match colon with
      | none => line
      | some colon => line.take colon
    let value := match colon with
      | none => []
      | some colon => line.drop (colon + 1)
    applyField parser field (withoutSpace value)

/-- One round of the loop over the characters of a chunk. -/
def takeChar (parser : SseParser) (char : Text) : SseParser × List Output :=
  let skip := parser.pendingCr && char == [LF]
  let parser := { parser with pendingCr := false }
  if skip then (parser, [])
  else if char = [CR] then endLine { parser with pendingCr := true }
  else if char = [LF] then endLine parser
  else ({ parser with buffer := parser.buffer ++ char }, [])

/-- Let a step take its inputs one after another. -/
def each {α : Type} (step : SseParser → α → SseParser × List Output) :
    SseParser → List α → SseParser × List Output
  | parser, [] => (parser, [])
  | parser, input :: rest =>
    let first := step parser input
    let later := each step first.1 rest
    (later.1, first.2 ++ later.2)

def highSurrogate (unit : UInt16) : Bool := 0xD800 ≤ unit && unit ≤ 0xDBFF

def lowSurrogate (unit : UInt16) : Bool := 0xDC00 ≤ unit && unit ≤ 0xDFFF

/-- The characters of a text, as the loop has them: a pair of surrogates is one. -/
def characters : Text → List Text
  | [] => []
  | [unit] => [[unit]]
  | first :: second :: rest =>
    if highSurrogate first && lowSurrogate second then [first, second] :: characters rest
    else [first] :: characters (second :: rest)

def push (parser : SseParser) (chunk : Text) : SseParser × List Output :=
  let fresh := parser.atStart && decide (0 < chunk.length)
  let parser := if fresh then { parser with atStart := false } else parser
  let text := if fresh && [BOM].isPrefixOf chunk then chunk.drop 1 else chunk
  each takeChar parser (characters text)

/-- A parser with the last event id of an earlier connection, if there was one. -/
def start (seed : Text) : SseParser := seedLastEventId {} seed

/-- The outputs over all chunks. -/
def outputs (seed : Text) (chunks : List Text) : List Output := (each push (start seed) chunks).2

end SseParser

/-- The events among the outputs. -/
def eventsOf (outputs : List Output) : List SseEvent :=
  outputs.filterMap fun output => match output with
    | .event event => some event
    | .retry _ => none

end Parsing

/- The event-stream algorithm, on a whole stream. -/
section Specification

/-- An event as it is dispatched to a page. -/
structure Message where
  type : Text
  data : Text
  lastEventId : Text
deriving DecidableEq, Repr

/-- The lines of a stream that have ended; what follows the last end is no line. -/
def streamLines (line : Text) : Text → List Text
  | [] => []
  | unit :: rest =>
    if unit = CR then
      match rest with
      | [] => [line]
      | next :: later =>
        if next = LF then line :: streamLines [] later
        else line :: streamLines [] (next :: later)
    else if unit = LF then line :: streamLines [] rest
    else streamLines (line ++ [unit]) rest

structure Buffers where
  data : Text := []
  type : Text := []
  lastEventId : Text := []
deriving DecidableEq, Repr

def processField (buffers : Buffers) (field value : Text) : Buffers :=
  if field = units "event" then { buffers with type := value }
  else if field = units "data" then { buffers with data := buffers.data ++ value ++ [LF] }
  else if field = units "id" then
    if NUL ∈ value then buffers else { buffers with lastEventId := value }
  else buffers

/-- A trailing line feed is not part of the data. -/
def withoutFinalLF (data : Text) : Text := if data.getLast? = some LF then data.dropLast else data

def dispatchEvent (buffers : Buffers) : Buffers × Option Message :=
  let cleared := { buffers with data := [], type := [] }
  if buffers.data = [] then (cleared, none)
  else (cleared, some {
    type := if buffers.type = [] then units "message" else buffers.type
    data := withoutFinalLF buffers.data
    lastEventId := buffers.lastEventId })

def interpretLine (buffers : Buffers) (line : Text) : Buffers × Option Message :=
  if line = [] then dispatchEvent buffers
  else if line.head? = some COLON then (buffers, none)
  else if COLON ∈ line then
    let field := line.takeWhile fun unit => unit != COLON
    let value := (line.dropWhile fun unit => unit != COLON).drop 1
    let value := if value.head? = some SPACE then value.drop 1 else value
    (processField buffers field value, none)
  else (processField buffers line [], none)

def interpretLines : Buffers → List Text → List Message
  | _, [] => []
  | buffers, line :: rest =>
    let step := interpretLine buffers line
    step.2.toList ++ interpretLines step.1 rest

/-- One leading byte order mark is not part of the stream. -/
def withoutBom (stream : Text) : Text := if stream.head? = some BOM then stream.drop 1 else stream

/-- The events of a stream that goes on from a last event id. -/
def streamMessages (lastEventId : Text) (stream : Text) : List Message :=
  interpretLines { lastEventId := lastEventId } (streamLines [] (withoutBom stream))

end Specification

/-- The event of the parser as the page sees it: an absent name is `message`, an absent id is
empty. -/
def SseEvent.message (event : SseEvent) : Message where
  type := event.event.getD (units "message")
  data := event.data
  lastEventId := event.id.getD []

end AutoMobile.EventStream
