import AutoMobile.InsertionMap

/- The values that the scripts pass around: what a parsed document holds, and `undefined`
for a field that is not there. -/
namespace ScriptValue

open InsertionMap

/-- A number is a finite one, taken exactly, or one of the special values. -/
inductive Number where
  | nan
  | infinite (negative : Bool)
  | finite (value : Rat)
deriving DecidableEq, Repr

inductive Value where
  | undefined
  | null
  | bool (value : Bool)
  | number (value : Number)
  | text (value : String)
  | array (items : List Value)
  | object (fields : List (String × Value))

abbrev Fields := InsertionMap String Value

namespace Number

def isFinite : Number → Bool
  | finite _ => true
  | _ => false

/-- `number >= bound` -/
def atLeast (bound : Rat) : Number → Bool
  | nan => false
  | infinite negative => !negative
  | finite value => decide (bound ≤ value)

/-- `number <= bound` -/
def atMost (bound : Rat) : Number → Bool
  | nan => false
  | infinite negative => negative
  | finite value => decide (value ≤ bound)

/-- `number > bound` -/
def above (bound : Rat) : Number → Bool
  | nan => false
  | infinite negative => !negative
  | finite value => decide (bound < value)

end Number

namespace Value

def isUndefined : Value → Bool
  | undefined => true
  | _ => false

/-- What a condition on the value sees. -/
def truthy : Value → Bool
  | undefined | null => false
  | bool value => value
  | number .nan => false
  | number (.infinite _) => true
  | number (.finite value) => decide (value ≠ 0)
  | text value => decide (value ≠ "")
  | array _ | object _ => true

def text? : Value → Option String
  | text value => some value
  | _ => none

def number? : Value → Option Number
  | number value => some value
  | _ => none

def array? : Value → Option (List Value)
  | array items => some items
  | _ => none

def object? : Value → Option Fields
  | object fields => some fields
  | _ => none

def isText (value : Value) : Bool := value.text?.isSome

def isRecord (value : Value) : Bool := value.object?.isSome

/-- The field of a record, and `undefined` of anything else. -/
def member (value : Value) (key : String) : Value :=
  match value with
  | object fields => (get? fields key).getD undefined
  | _ => undefined

theorem isText_iff (value : Value) : value.isText = true ↔ ∃ text, value = .text text := by
  cases value <;> simp [isText, text?]

theorem isUndefined_of_isText {value : Value} (text : value.isText = true) :
    value.isUndefined = false := by
  obtain ⟨text, rfl⟩ := (isText_iff value).mp text
  rfl

@[simp] theorem isUndefined_text (text : String) : (Value.text text).isUndefined = false := rfl

@[simp] theorem isUndefined_undefined : Value.undefined.isUndefined = true := rfl

@[simp] theorem isText_undefined : Value.undefined.isText = false := rfl

@[simp] theorem isText_text (text : String) : (Value.text text).isText = true := rfl

@[simp] theorem isRecord_object (fields : Fields) : (Value.object fields).isRecord = true := rfl

theorem eq_undefined {value : Value} (absent : value.isUndefined = true) : value = .undefined := by
  cases value <;> first | rfl | cases absent

end Value

/-- The field as a script reads it. -/
def field (fields : Fields) (key : String) : Value := (get? fields key).getD .undefined

/-- `{ ...base, ...extra }`: a field of `extra` wins, and keeps the place it has in `base`. -/
def spread (base extra : Fields) : Fields :=
  base.map (fun entry => (entry.1, (get? extra entry.1).getD entry.2)) ++
    extra.filter fun entry => !has base entry.1

variable (fields : Fields)

theorem field_put (key other : String) (value : Value) :
    field (put fields key value) other = if key = other then value else field fields other := by
  unfold field
  rw [get?_put]
  split <;> rfl

@[simp] theorem field_put_self (key : String) (value : Value) :
    field (put fields key value) key = value := by
  rw [field_put, if_pos rfl]

variable {key : String}

theorem field_put_of_ne {other : String} (apart : key ≠ other) (value : Value) :
    field (put fields key value) other = field fields other := by
  rw [field_put, if_neg apart]

theorem field_erase (key other : String) :
    field (erase fields key) other = if key = other then .undefined else field fields other := by
  unfold field
  rw [get?_erase]
  split <;> rfl

@[simp] theorem field_erase_self (key : String) : field (erase fields key) key = .undefined := by
  rw [field_erase, if_pos rfl]

theorem field_erase_of_ne {other : String} (apart : key ≠ other) :
    field (erase fields key) other = field fields other := by
  rw [field_erase, if_neg apart]

@[simp] theorem spread_nil : spread [] fields = fields := by simp [spread, has, get?]

/-- A field that is read as something else than `undefined` is there. -/
theorem get?_of_field {fields : Fields} {value : Value} (read : field fields key = value)
    (present : value ≠ .undefined) :
    get? fields key = some value := by
  unfold field at read
  cases found : get? fields key with
  | none =>
    rw [found] at read
    exact absurd read.symm present
  | some stored =>
    rw [found] at read
    exact congrArg some read

/-- Writing a field back as it was read changes nothing. -/
theorem put_field {fields : Fields} {value : Value} (read : field fields key = value)
    (present : value ≠ .undefined) : put fields key value = fields :=
  put_of_get? (get?_of_field read present)

/-- A field of the second record hides the one of the first, also when it is `undefined`. -/
theorem field_spread (base extra : Fields) (key : String) : field (spread base extra) key =
      if has extra key then field extra key else field base key := by
  have read : get? (spread base extra) key = (get? extra key).or (get? base key) := by
    unfold spread
    rw [get?_append, get?_mapValues base (fun name old => (get? extra name).getD old),
      get?_filterKeys extra (fun name => !has base name)]
    unfold has
    cases get? base key with
    | none => simp
    | some old => cases get? extra key <;> simp
  unfold field
  rw [read, has]
  cases get? extra key <;> rfl

end ScriptValue
