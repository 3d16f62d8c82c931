import AutoMobile.LabelledTree
import AutoMobile.ScriptValue

/- `prototypeDataWrite`: one write to a prototype's data, with the pointers, patches and limits
that it goes through. -/
namespace AutoMobile.PrototypeData

open InsertionMap LabelledTree ScriptValue

inductive Scalar where
  | null
  | bool (value : Bool)
  | number (value : Number)
  | text (value : String)
deriving DecidableEq, Repr

/-- A JSON value. Nothing here depends on the order of an object's members. -/
abbrev Json := Document Scalar

section Pointers

def maxPointerLength : Nat := 256

/-- The length of a text as scripts count it. -/
def utf16Length (text : String) : Nat :=
  (text.toList.map fun char => if char.toNat < 0x10000 then 1 else 2).sum

/-- Every `~` starts one of the escapes `~0` and `~1`. -/
def escapesProper : List Char → Bool
  | '~' :: code :: rest => (code == '0' || code == '1') && escapesProper rest
  | ['~'] => false
  | _ :: rest => escapesProper rest
  | [] => true

/-- `^(?:/(?:[^~/]|~[01])*)+$`, of bounded length. -/
def isPrototypeDataPointer (value : String) : Bool :=
  value.toList.head? == some '/' && escapesProper value.toList &&
    decide (utf16Length value ≤ maxPointerLength)

def prototypeDataPathPointer (path : String) : Option String :=
  if "/data/".toList.isPrefixOf path.toList then
    let pointer := String.ofList (path.toList.drop "/data".length)
    if isPrototypeDataPointer pointer then some pointer else none
  else none

/-- Replace every escape `~code` by the character. -/
def unescape (code char : Char) : List Char → List Char
  | '~' :: next :: rest =>
    if next = code then char :: unescape code char rest
    else '~' :: unescape code char (next :: rest)
  | other :: rest => other :: unescape code char rest
  | [] => []

def prototypeDataPointerTokens (pointer : String) : List String :=
  if isPrototypeDataPointer pointer then
    ((pointer.toList.drop 1).splitOn '/').map fun token =>
      String.ofList (unescape '0' '~' (unescape '1' '/' token))
  else []

def resolvePrototypeDataPointer (data : Json) (pointer : String) : Option Json :=
  if isPrototypeDataPointer pointer then data.resolve (prototypeDataPointerTokens pointer)
  else none

end Pointers

section Limits

def maxDataDepth : Nat := 8
def maxDataArrayItems : Nat := 2000
def maxDataWriteBytes : Nat := 786432
def maxEmitPayloadDepth : Nat := 24
def maxSafeInteger : Rat := 9007199254740991

/-- The bytes of a character inside a JSON string. -/
def charBytes (char : Char) : Nat :=
  if char = '"' ∨ char = '\\' then 2
  else if char.toNat ∈ [0x08, 0x09, 0x0A, 0x0C, 0x0D] then 2
  else if char.toNat < 0x20 then 6
  else char.utf8Size

/-- The bytes of a text as a JSON string. -/
def textBytes (text : String) : Nat := 2 + (text.toList.map charBytes).sum

/-- The cost of a scalar, none for one that JSON does not have. -/
def scalarCost : Scalar → Option Nat
  | .null => some 4
  | .bool value => some (if value then 4 else 5)
  | .number value => if value.isFinite then some 32 else none
  | .text value => some (textBytes value)

mutual

def jsonCost (depth : Nat) (value : Json) : Option Nat :=
  if maxEmitPayloadDepth < depth then none
  else
    match value with
    | .scalar value => scalarCost value
    | .array items => (itemsCost (depth + 1) items).map fun cost => 2 + (items.length - 1) + cost
    | .object members =>
      (membersCost (depth + 1) members).map fun cost => 2 + (members.length - 1) + cost

def itemsCost (depth : Nat) : List Json → Option Nat
  | [] => some 0
  | item :: rest => do
    let cost ← jsonCost depth item
    return cost + (← itemsCost depth rest)

def membersCost (depth : Nat) : List (String × Json) → Option Nat
  | [] => some 0
  | (key, child) :: rest => do
    let cost ← jsonCost depth child
    return textBytes key + 1 + cost + (← membersCost depth rest)

end

mutual

/-- Why data may not hold the value. -/
def walkDataValue (depth : Nat) (value : Json) : Option String :=
  match value with
  | .scalar (.text _) | .scalar (.bool _) => none
  | .scalar (.number value) => if value.isFinite then none else some "Invalid data value"
  | .scalar .null => some "Invalid data value"
  | .array items =>
    if maxDataDepth < depth then some "Data depth limit exceeded"
    else if maxDataArrayItems < items.length then some "Data array limit exceeded"
    else walkItems (depth + 1) items
  | .object members =>
    if maxDataDepth < depth then some "Data depth limit exceeded"
    else walkMembers (depth + 1) members

def walkItems (depth : Nat) : List Json → Option String
  | [] => none
  | item :: rest => (walkDataValue depth item).or (walkItems depth rest)

def walkMembers (depth : Nat) : List (String × Json) → Option String
  | [] => none
  | (_, child) :: rest => (walkDataValue depth child).or (walkMembers depth rest)

end

def prototypeDataError (value : Json) (maxBytes : Nat) : Option String :=
  match value with
  | .object members =>
    (walkDataValue 1 (.object members)).or
      (match jsonCost 0 (.object members) with
      | some cost => if maxBytes < cost then some "Data byte limit exceeded" else none
      | none => some "Data byte limit exceeded")
  | _ => some "Expected object"

end Limits

section Patch

/-- A patch of one place, whose value has been checked. -/
inductive PatchOp where
  | add (value : Json)
  | replace (value : Json)
  | remove

def applyMember (members : List (String × Json)) (key : String) : PatchOp → Option Json
  | .add value => some (.object (putMember members key value))
  | .replace value => if has members key then some (.object (putMember members key value)) else none
  | .remove => if has members key then some (.object (erase members key)) else none

def applyArray (items : List Json) (token : String) : PatchOp → Option Json
  | .add value =>
    let index := if token = "-" then some items.length
      else Document.arrayIndex token (items.length + 1)
    index.map fun index => .array (items.insertIdx index value)
  | .replace value =>
    (Document.arrayIndex token items.length).map fun index => .array (items.set index value)
  | .remove => (Document.arrayIndex token items.length).map fun index => .array (items.eraseIdx index)

def applyOp (op : PatchOp) (parent : Json) (key : String) : Option Json :=
  match parent with
  | .array items => applyArray items key op
  | .object members => applyMember members key op
  | .scalar _ => none

/-- The data after the patch at the tokens, none when the path does not exist. -/
def applyData (op : PatchOp) (tokens : List String) (data : Json) : Option Json :=
  Document.editAt (applyOp op) tokens data

end Patch

inductive DataWrite where
  | set (path : String) (value : Option Json)
  | upsert (path key : String) (value : Option Json) (maxItems : Option Number)
  | append (path : String) (value : Option Json) (maxItems : Option Number)
  | prepend (path : String) (value : Option Json) (maxItems : Option Number)
  | extend (path : String) (value : Option Json) (maxItems : Option Number)
  | remove (path : String)

namespace DataWrite

def path : DataWrite → String
  | set path _ | upsert path _ _ _ | append path _ _ | prepend path _ _ | extend path _ _
  | remove path => path

def value : DataWrite → Option Json
  | set _ value | upsert _ _ value _ | append _ value _ | prepend _ value _
  | extend _ value _ => value
  | remove _ => none

def maxItems : DataWrite → Option Number
  | upsert _ _ _ maxItems | append _ _ maxItems | prepend _ _ maxItems
  | extend _ _ maxItems => maxItems
  | set _ _ | remove _ => none

/-- What the messages call a write whose value is refused. -/
def valueName : DataWrite → String
  | set _ _ => "set"
  | upsert _ _ _ _ => "upsert"
  | append _ _ _ => "append"
  | prepend _ _ _ => "prependData"
  | extend _ _ _ => "extend"
  | remove _ => "remove"

/-- What the messages call a write whose target is refused. -/
def targetName : DataWrite → String
  | append _ _ _ => "appendData"
  | prepend _ _ _ => "prependData"
  | upsert _ _ _ _ => "upsertData"
  | extend _ _ _ => "extend"
  | set _ _ => "setData"
  | remove _ => "removeData"

end DataWrite

inductive DataWriteErrorCode where
  | invalidPath
  | invalidValue
  | notFound
  | notArray
  | limitExceeded
deriving DecidableEq, Repr

structure DataWriteError where
  code : DataWriteErrorCode
  message : String
deriving DecidableEq, Repr

section Refusals

/-- Whether the number is a positive safe integer. -/
def isPositiveSafeInteger : Number → Bool
  | .finite value => value.den == 1 && decide (1 ≤ value) && decide (value ≤ maxSafeInteger)
  | _ => false

def maximumRefusal (write : DataWrite) : Option DataWriteError :=
  match write.maxItems with
  | none => none
  | some maxItems =>
    let bounded := match write with
      | .upsert _ _ _ _ | .append _ _ _ => maxItems.atMost maxDataArrayItems
      | _ => true
    if isPositiveSafeInteger maxItems && bounded then none
    else some ⟨.invalidValue, s!"{write.valueName} maxItems must be a positive safe integer"⟩

def valueRefusal (write : DataWrite) : Option DataWriteError :=
  let needsArray := match write with
    | .extend _ _ _ | .prepend _ _ _ => true
    | _ => false
  let keyed := match write with
    | .upsert _ key value _ => isPrototypeDataPointer key &&
        (value.bind fun value => resolvePrototypeDataPointer value key).isSome
    | _ => true
  match write with
  | .remove _ => none
  | _ =>
    if !keyed then
      some ⟨.invalidValue, "upsert needs a valid key pointer present in value"⟩
    else
      match write.value with
      | none => some ⟨.invalidValue, s!"{write.valueName} write needs a value"⟩
      | some value =>
        let isArray := match value with
          | .array _ => true
          | _ => false
        if needsArray && !isArray then
          some ⟨.invalidValue, s!"{write.valueName} needs an array value"⟩
        else maximumRefusal write

def setTargetRefusal (data : Json) (tokens : List String) (path : String)
    (existing : Option Json) : Option DataWriteError :=
  -- the parent of a single token is the data itself, which is an object
  let parent := if tokens.length ≤ 1 then none else data.resolve tokens.dropLast
  let parentIsArray := match parent with
    | some (.array _) => true
    | _ => false
  let parentIsRecord := match parent with
    | some (.object _) => true
    | _ => false
  let parentIsContainer := decide (tokens.length ≤ 1) || parentIsArray || parentIsRecord
  if !parentIsContainer || (existing.isNone && parentIsArray) then
    some ⟨.notFound, s!"setData target {path} has no existing parent or element"⟩
  else none

def targetRefusal (data : Json) (tokens : List String) (write : DataWrite) :
    Option DataWriteError :=
  let existing := data.resolve tokens
  match write with
  | .set path _ => setTargetRefusal data tokens path existing
  | .remove path =>
    if existing.isNone then some ⟨.notFound, s!"removeData target {path} does not exist"⟩
    else none
  | _ =>
    match existing with
    | none => some ⟨.notFound, s!"{write.targetName} target {write.path} does not exist"⟩
    | some (.array _) => none
    | some _ => some ⟨.notArray, s!"{write.targetName} target {write.path} is not an array"⟩

end Refusals

section Windows

/-- Equal scalars, numbers by value. -/
def sameScalar : Scalar → Scalar → Bool
  | .number .nan, .number .nan => false
  | left, right => decide (left = right)

mutual

/-- Equal as JSON. -/
def sameKey : Json → Json → Bool
  | .scalar left, .scalar right => sameScalar left right
  | .array left, .array right => left.length == right.length && sameItems left right
  | .object left, .object right => left.length == right.length && sameMembers left right
  | _, _ => false

def sameItems : List Json → List Json → Bool
  | [], _ => true
  | left :: lefts, right :: rights => sameKey left right && sameItems lefts rights
  | _ :: _, [] => false

def sameMembers : List (String × Json) → List (String × Json) → Bool
  | [], _ => true
  | (key, left) :: lefts, rights =>
    (match get? rights key with
    | some right => sameKey left right
    | none => false) && sameMembers lefts rights

end

/-- The row with the value's key becomes the value, which else comes last. -/
def upsertRow (existing : List Json) (key : String) (value : Json) : List Json :=
  match resolvePrototypeDataPointer value key with
  | none => existing ++ [value]
  | some wanted =>
    let found := existing.findIdx? fun item =>
      match resolvePrototypeDataPointer item key with
      | some candidate => sameKey candidate wanted
      | none => false
    match found with
    | some index => existing.set index value
    | none => existing ++ [value]

def itemsOf : Json → List Json
  | .array items => items
  | _ => []

/-- The write as a plain one, and how many rows it trims. -/
def windowedWrite (current : Json) (tokens : List String) (write : DataWrite) : Option Json × Nat :=
  let existing := ((current.resolve tokens).map itemsOf).getD []
  let window (keepFirst : Bool) (combined : List Json) : Option Json × Nat :=
    let trimmed := match write.maxItems with
      | some (.finite maxItems) => combined.length - maxItems.num.toNat
      | _ => 0
    let rows := if keepFirst then combined.take (combined.length - trimmed)
      else combined.drop trimmed
    (some (.array rows), trimmed)
  match write with
  | .set _ value => (value, 0)
  | .remove _ => (none, 0)
  | .upsert _ key value _ => window false ((value.map (upsertRow existing key)).getD existing)
  | .append _ value _ => window false (existing ++ value.toList)
  | .extend _ value _ => window false (existing ++ (value.map itemsOf).getD [])
  | .prepend _ value _ => window true ((value.map itemsOf).getD [] ++ existing)

end Windows

/-- Absent data is an empty object. -/
def currentData : Option Json → Json
  | some (.object members) => .object members
  | _ => .object []

/-- The patch of a write whose target has been checked; a removal has no value. -/
def patchOp (value : Option Json) (present : Bool) : PatchOp :=
  match value with
  | none => .remove
  | some value => if present then .replace value else .add value

/-- `message.includes("limit")` -/
def namesLimit (message : String) : Bool :=
  ["Data depth limit exceeded", "Data array limit exceeded", "Data byte limit exceeded"].contains
    message

def applyPrototypeDataWrite (data : Option Json) (write : DataWrite) :
    Except DataWriteError (Json × Nat) :=
  match prototypeDataPathPointer write.path with
  | none => .error ⟨.invalidPath, s!"{write.path} is not a /data/<pointer> path"⟩
  | some pointer =>
    match valueRefusal write with
    | some refusal => .error refusal
    | none =>
      let current := currentData data
      let tokens := prototypeDataPointerTokens pointer
      match targetRefusal current tokens write with
      | some refusal => .error refusal
      | none =>
        let present := (current.resolve tokens).isSome
        let (value, trimmed) := windowedWrite current tokens write
        match applyData (patchOp value present) tokens current with
        | none => .error ⟨.notFound, s!"{write.path}: Path does not exist"⟩
        | some next =>
          match prototypeDataError next maxDataWriteBytes with
          | none => .ok (next, trimmed)
          | some message =>
            .error ⟨if namesLimit message then .limitExceeded else .invalidValue, message⟩

end AutoMobile.PrototypeData
