import AutoMobile.InsertionMap

/- Values of `org.json` documents, and its accessors that fall back instead of throwing. A text
is taken as the value that it denotes. -/
namespace OrgJson

open List hiding keys
open InsertionMap

/-- Numbers are whole ones: nothing here writes another. -/
inductive Json where
  | null
  | bool (value : Bool)
  | number (value : Int64)
  | text (value : String)
  | array (items : List Json)
  | object (fields : List (String × Json))

abbrev JsonObject := InsertionMap String Json

/-- What the accessors make of a value that has another type than the one they ask for. -/
structure Coercions where
  toText : Json → String
  toInt : Json → Option Int32
  toLong : Json → Option Int64
  toBoolean : Json → Option Bool

/-- `Map<String, String>`. -/
structure TextMap where
  entries : InsertionMap String String
  distinct : (keys entries).Nodup

theorem TextMap.ext {first second : TextMap} (same : first.entries = second.entries) :
    first = second := by
  cases first
  cases second
  cases same
  rfl

section Accessors

variable (coercions : Coercions)

def asString : Option Json → String
  | none => ""
  | some (.text value) => value
  | some other => coercions.toText other

def asInt : Option Json → Int32
  | none => 0
  | some (.number value) => value.toInt32
  | some other => (coercions.toInt other).getD 0

def asLong (fallback : Int64) : Option Json → Int64
  | none => fallback
  | some (.number value) => value
  | some other => (coercions.toLong other).getD fallback

def asBoolean (fallback : Bool) : Option Json → Bool
  | none => fallback
  | some (.bool value) => value
  | some other => (coercions.toBoolean other).getD fallback

def asObject : Option Json → Option JsonObject
  | some (.object fields) => some fields
  | _ => none

def asArray : Option Json → Option (List Json)
  | some (.array items) => some items
  | _ => none

def optString (obj : JsonObject) (key : String) : String := asString coercions (get? obj key)

def optInt (obj : JsonObject) (key : String) : Int32 := asInt coercions (get? obj key)

def optLong (obj : JsonObject) (key : String) (fallback : Int64) : Int64 :=
  asLong coercions fallback (get? obj key)

def optBoolean (obj : JsonObject) (key : String) (fallback : Bool) : Bool :=
  asBoolean coercions fallback (get? obj key)

def optJSONObject (obj : JsonObject) (key : String) : Option JsonObject := asObject (get? obj key)

def optJSONArray (obj : JsonObject) (key : String) : Option (List Json) := asArray (get? obj key)

end Accessors

section Writing

/-- `value?.let { obj.put(key, it) }` -/
def putPresent (obj : JsonObject) (key : String) : Option Json → JsonObject
  | some value => put obj key value
  | none => obj

/-- `JSONObject(map)` -/
def ofMap (map : TextMap) : Json := .object (map.entries.map fun entry => (entry.1, .text entry.2))

/-- `JSONArray(list)` -/
def ofList (texts : List String) : Json := .array (texts.map .text)

theorem get?_putPresent (obj : JsonObject) (key other : String) (value : Option Json) :
    get? (putPresent obj key value) other =
      if key = other then value.or (get? obj other) else get? obj other := by
  cases value with
  | none => simp [putPresent]
  | some value => simp [putPresent, get?_put]

end Writing

section ReadingBack

variable (coercions : Coercions)

@[simp] theorem asString_text (value : String) :
    asString coercions (some (.text value)) = value := rfl

@[simp] theorem asString_none : asString coercions none = "" := rfl

@[simp] theorem asString_map_text (value : Option String) :
    asString coercions (value.map .text) = value.getD "" := by
  cases value <;> rfl

@[simp] theorem asInt_number (value : Int32) :
    asInt coercions (some (.number value.toInt64)) = value :=
  Int32.toInt32_toInt64 value

@[simp] theorem asLong_number (fallback value : Int64) :
    asLong coercions fallback (some (.number value)) = value := rfl

@[simp] theorem asBoolean_bool (fallback value : Bool) :
    asBoolean coercions fallback (some (.bool value)) = value := rfl

/-- `keys.associateWith(value)` -/
def associateWith (known : List String) (value : String → String) : InsertionMap String String :=
  known.foldl (fun entries key => put entries key (value key)) []

theorem nodup_keys_foldl_put (known : List String) (value : String → String)
    (entries : InsertionMap String String) (distinct : (keys entries).Nodup) :
    (keys (known.foldl (fun entries key => put entries key (value key)) entries)).Nodup := by
  induction known generalizing entries with
  | nil => exact distinct
  | cons key rest ih => exact ih _ (nodup_keys_put distinct key (value key))

theorem nodup_keys_associateWith (known : List String) (value : String → String) :
    (keys (associateWith known value)).Nodup :=
  nodup_keys_foldl_put known value [] nodup_keys_nil

theorem foldl_put_of_fresh (known : List String) (value : String → String)
    (entries : InsertionMap String String) (fresh : (keys entries ++ known).Nodup) :
    known.foldl (fun entries key => put entries key (value key)) entries =
      entries ++ known.map fun key => (key, value key) := by
  induction known generalizing entries with
  | nil => simp
  | cons key rest ih =>
    have absent : key ∉ keys entries := fun inside =>
      (nodup_append.mp fresh).2.2 key inside key mem_cons_self rfl
    have later : (keys (entries ++ [(key, value key)]) ++ rest).Nodup := by simpa [keys] using fresh
    rw [foldl_cons, put_of_fresh absent, ih _ later]
    simp

/-- `jsonObjectToMap`. -/
def jsonObjectToMap (obj : JsonObject) : TextMap :=
  ⟨associateWith (keys obj) (optString coercions obj), nodup_keys_associateWith _ _⟩

theorem jsonObjectToMap_ofMap (map : TextMap) :
    jsonObjectToMap coercions (map.entries.map fun entry => (entry.1, .text entry.2)) = map := by
  apply TextMap.ext
  let obj : JsonObject := map.entries.map fun entry => (entry.1, .text entry.2)
  have known : keys obj = keys map.entries := by simp [obj, keys, Function.comp_def]
  have stored : ∀ entry ∈ map.entries, optString coercions obj entry.1 = entry.2 := by
    intro entry member
    have inside : (entry.1, Json.text entry.2) ∈ obj := mem_map.mpr ⟨entry, member, rfl⟩
    rw [optString, get?_of_mem (known ▸ map.distinct) inside]
    rfl
  show associateWith (keys obj) (optString coercions obj) = map.entries
  rw [known, associateWith, foldl_put_of_fresh _ _ _ (by simpa [keys] using map.distinct)]
  calc ([] : InsertionMap String String) ++
        (keys map.entries).map (fun key => (key, optString coercions obj key))
      = map.entries.map fun entry => (entry.1, optString coercions obj entry.1) := by
        simp [keys, Function.comp_def]
    _ = map.entries.map id := map_congr_left fun entry member => Prod.ext rfl (stored entry member)
    _ = map.entries := map_id _

@[simp] theorem map_of_ofMap (map : Option TextMap) :
    (asObject (map.map ofMap)).map (jsonObjectToMap coercions) = map := by
  cases map with
  | none => rfl
  | some map => exact congrArg some (jsonObjectToMap_ofMap coercions map)

@[simp] theorem list_of_ofList (texts : Option (List String)) :
    (asArray (texts.map ofList)).map (List.map fun item => asString coercions (some item)) =
      texts := by
  cases texts with
  | none => rfl
  | some texts => simp [ofList, asArray, Function.comp_def]

end ReadingBack

end OrgJson
