import AutoMobile.InsertionMap
import Mathlib.Algebra.Order.Ring.Rat

/- The spec revisions of prototypes that a daemon keeps in memory: at most so many for
each prototype id, and at most so many bytes over all ids. -/
namespace AutoMobile.SpecRevisions

open InsertionMap

/-- A limit is a JavaScript number. -/
inductive Limit
  | finite (value : ℚ)
  | infinity
  | minusInfinity
  | nan
deriving DecidableEq, Repr

/-- The comparison `count > limit`. -/
def exceeds (count : Int) : Limit → Bool
  | .finite value => value < count
  | .infinity => false
  | .minusInfinity => true
  | .nan => false

structure Limits where
  revisions : Limit
  bytes : Limit
deriving DecidableEq, Repr

/-- The limits without a constructor argument. -/
def Limits.default : Limits := ⟨.finite 20, .finite (32 * 1024 * 1024)⟩

inductive Operation | shown | patched
deriving DecidableEq, Repr

inductive PlatformName | android | ios
deriving DecidableEq, Repr

structure Variant where
  group : String
  label : String
deriving DecidableEq, Repr

section Store

variable (Spec : Type)

/-- A kept revision; `sequence` counts the revisions of all ids. -/
structure Revision where
  revision : Nat
  operation : Operation
  spec : Spec
  deviceRevision : Option Nat
  platform : Option PlatformName
  time : Int
  variant : Option Variant
  mcpSessionId : Option String
  bytes : Nat
  sequence : Nat

structure History where
  order : Nat
  next : Nat
  lastSequence : Nat
  variant : Option Variant
  kept : List (Revision Spec)

structure Store where
  histories : InsertionMap String (History Spec) := []
  retired : InsertionMap String Nat := []
  sequence : Nat := 0
  order : Nat := 0
  totalBytes : Int := 0

/-- What a show or a patch reports, with the clock's reading. -/
structure Entry where
  operation : Operation
  spec : Spec
  platform : Option PlatformName
  deviceRevision : Option Nat
  mcpSessionId : Option String
  time : Int

end Store

inductive Event
  | revision (id : String) (revision : Nat)
  | pruned (id : String)
  | evicted (id : String)
deriving DecidableEq, Repr

variable {Spec : Type}

def historyFor (store : Store Spec) (id : String) : Store Spec × History Spec :=
  match get? store.histories id with
  | some existing => (store, existing)
  | none =>
    let created : History Spec := {
      order := store.order + 1
      next := (get? store.retired id).getD 1
      lastSequence := 0
      variant := none
      kept := [] }
    ({ store with
        retired := erase store.retired id
        order := store.order + 1
        histories := put store.histories id created }, created)

/-- The bytes of some revisions. -/
def bytesOf : List (Revision Spec) → Nat
  | [] => 0
  | revision :: rest => revision.bytes + bytesOf rest

/-- A weight summed over all histories. -/
def weighed (weight : List (Revision Spec) → Nat) : InsertionMap String (History Spec) → Nat
  | [] => 0
  | entry :: rest => weight entry.2.kept + weighed weight rest

/-- The bytes of all histories. -/
def keptBytes (histories : InsertionMap String (History Spec)) : Nat := weighed bytesOf histories

/-- How many revisions are kept over all ids. -/
def keptCount (histories : InsertionMap String (History Spec)) : Nat :=
  weighed List.length histories

/-- The loop over the count limit: what is left, what it took off the total, and
whether it ran on with nothing left, which throws. -/
def trim (limit : Limit) : List (Revision Spec) → List (Revision Spec) × Nat × Bool
  | [] => ([], 0, exceeds 0 limit)
  | oldest :: rest =>
    if exceeds (rest.length + 1) limit then
      let after := trim limit rest
      (after.1, oldest.bytes + after.2.1, after.2.2)
    else (oldest :: rest, 0, false)

def firstSequence (history : History Spec) : Nat :=
  (history.kept.head?.map Revision.sequence).getD 0

/-- The id whose oldest revision goes next: of those that keep more than one. -/
def older (store : Store Spec) : Option (String × History Spec) :=
  ((store.histories.filter fun entry => entry.2.kept.length > 1).mergeSort
    fun first second => firstSequence first.2 ≤ firstSequence second.2).head?

/-- The id that goes whole next: the least recently revised one but the current. -/
def stale (store : Store Spec) (current : String) : Option (String × History Spec) :=
  ((store.histories.filter fun entry => entry.1 ≠ current).mergeSort
    fun first second => first.2.lastSequence ≤ second.2.lastSequence).head?

def shiftOldest (store : Store Spec) (id : String) (history : History Spec) : Store Spec :=
  match history.kept with
  | [] => store
  | oldest :: rest => { store with
      totalBytes := store.totalBytes - oldest.bytes
      histories := put store.histories id { history with kept := rest } }

/-- A JavaScript set of ids, in the order in which they came in. -/
def addOnce (ids : List String) (id : String) : List String :=
  if ids.contains id then ids else ids ++ [id]

/-- The first loop of `enforceByteCap`; each turn takes one revision. -/
def pruneLoop (limits : Limits) : Nat → Store Spec → List String → Store Spec × List String
  | 0, store, pruned => (store, pruned)
  | turns + 1, store, pruned =>
    if exceeds store.totalBytes limits.bytes then
      match older store with
      | none => (store, pruned)
      | some (id, history) =>
        pruneLoop limits turns (shiftOldest store id history) (addOnce pruned id)
    else (store, pruned)

def evict (store : Store Spec) (id : String) (history : History Spec) : Store Spec :=
  { store with
    totalBytes := store.totalBytes - bytesOf history.kept
    histories := erase store.histories id
    retired := put store.retired id history.next }

/-- The second loop of `enforceByteCap`; each turn takes one id. -/
def evictLoop (limits : Limits) (current : String) :
    Nat → Store Spec → List String → Store Spec × List String
  | 0, store, evicted => (store, evicted)
  | turns + 1, store, evicted =>
    if exceeds store.totalBytes limits.bytes then
      match stale store current with
      | none => (store, evicted)
      | some (id, history) =>
        evictLoop limits current turns (evict store id history) (evicted ++ [id])
    else (store, evicted)

/-- The store, the pruned ids and the evicted ones. -/
def enforceByteCap (limits : Limits) (store : Store Spec) (current : String) :
    Store Spec × List String × List String :=
  let pruning := pruneLoop limits (keptCount store.histories) store []
  let evicting := evictLoop limits current pruning.1.histories.length pruning.1 []
  (evicting.1, pruning.2, evicting.2)

/-- The revision that a history gets next. -/
def newRevision (size : Spec → Nat) (store : Store Spec) (history : History Spec)
    (entry : Entry Spec) : Revision Spec where
  revision := history.next
  operation := entry.operation
  spec := entry.spec
  deviceRevision := entry.deviceRevision
  platform := entry.platform
  time := entry.time
  variant := history.variant
  mcpSessionId := entry.mcpSessionId
  bytes := size entry.spec
  sequence := store.sequence + 1

/-- The store with one more revision of an id, before anything is dropped. -/
def pushRevision (size : Spec → Nat) (store : Store Spec) (id : String) (history : History Spec)
    (entry : Entry Spec) : Store Spec × History Spec :=
  let pushed : History Spec := { history with
    next := history.next + 1
    lastSequence := store.sequence + 1
    kept := history.kept ++ [newRevision size store history entry] }
  ({ store with
      sequence := store.sequence + 1
      histories := put store.histories id pushed
      totalBytes := store.totalBytes + size entry.spec }, pushed)

/-- The events of a call; none when the loop over the count limit throws. -/
def append (size : Spec → Nat) (limits : Limits) (store : Store Spec) (id : String)
    (history : History Spec) (entry : Entry Spec) : Store Spec × Option (List Event) :=
  let pushed := pushRevision size store id history entry
  let trimmed := trim limits.revisions pushed.2.kept
  let counted := { pushed.1 with
    histories := put pushed.1.histories id { pushed.2 with kept := trimmed.1 }
    totalBytes := pushed.1.totalBytes - trimmed.2.1 }
  if trimmed.2.2 then (counted, none)
  else
    let capped := enforceByteCap limits counted id
    (capped.1, some (.revision id history.next ::
      ((capped.2.1.filter fun other => other ≠ id && !capped.2.2.contains other).map .pruned ++
        capped.2.2.map .evicted)))

def recordShow (size : Spec → Nat) (limits : Limits) (store : Store Spec) (id : String)
    (spec : Spec) (platform : Option PlatformName) (variant : Option Variant)
    (mcpSessionId : Option String) (time : Int) : Store Spec × Option (List Event) :=
  let found := historyFor store id
  -- each show states its variant afresh; a show without one leaves the group
  let history := { found.2 with variant := variant }
  append size limits { found.1 with histories := put found.1.histories id history } id history
    { operation := .shown, spec, platform, deviceRevision := none, mcpSessionId, time }

def recordPatch (size : Spec → Nat) (limits : Limits) (store : Store Spec) (id : String)
    (spec : Spec) (platform : Option PlatformName) (deviceRevision : Option Nat)
    (mcpSessionId : Option String) (time : Int) : Store Spec × Option (List Event) :=
  let found := historyFor store id
  append size limits found.1 id found.2
    { operation := .patched, spec, platform, deviceRevision, mcpSessionId, time }

inductive Call (Spec : Type)
  | recordShow (id : String) (spec : Spec) (platform : Option PlatformName)
      (variant : Option Variant) (mcpSessionId : Option String) (time : Int)
  | recordPatch (id : String) (spec : Spec) (platform : Option PlatformName)
      (deviceRevision : Option Nat) (mcpSessionId : Option String) (time : Int)

def Call.id : Call Spec → String
  | .recordShow id _ _ _ _ _ => id
  | .recordPatch id _ _ _ _ _ => id

def record (size : Spec → Nat) (limits : Limits) (store : Store Spec) :
    Call Spec → Store Spec × Option (List Event)
  | .recordShow id spec platform variant mcpSessionId time =>
    recordShow size limits store id spec platform variant mcpSessionId time
  | .recordPatch id spec platform deviceRevision mcpSessionId time =>
    recordPatch size limits store id spec platform deviceRevision mcpSessionId time

/-- The store after some calls, and the events of all of them. -/
def run (size : Spec → Nat) (limits : Limits) :
    Store Spec → List (Call Spec) → Store Spec × List Event
  | store, [] => (store, [])
  | store, call :: calls =>
    let after := record size limits store call
    let rest := run size limits after.1 calls
    (rest.1, after.2.getD [] ++ rest.2)

/-- The revisions that are kept of an id. -/
def keptOf (store : Store Spec) (id : String) : List (Revision Spec) :=
  ((get? store.histories id).map History.kept).getD []

/-- The number that the next revision of an id gets. -/
def nextNumber (store : Store Spec) (id : String) : Nat :=
  ((get? store.histories id).map History.next).getD ((get? store.retired id).getD 1)

end AutoMobile.SpecRevisions
