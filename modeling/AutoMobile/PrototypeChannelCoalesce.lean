import AutoMobile.PrototypeDataSpec

/- `prototypeChannelCoalesce`: within one flush window consecutive frames that only write the same
targets collapse to the last one. -/
namespace AutoMobile.PrototypeData

open LabelledTree Document

/-- A JSON value whose objects list their members in order. -/
abbrev CanonicalJson := { value : Json // value.Canonical }

structure ResolvedAction where
  type : String
  /-- The `/data/...` path of a data action. -/
  path : Option String := none
  /-- The state key of a `setState`, the row key of an `upsertData`. -/
  key : Option String := none
  value : Option CanonicalJson := none
  maxItems : Option ScriptValue.Number := none

/-- The actions one frame produced after its routes matched and its values were bound. -/
abbrev Frame := List ResolvedAction

section Coalesce

def targetOf (action : ResolvedAction) : Option String :=
  if action.type = "setData" ∧ action.path.isSome then action.path.map ("data:" ++ ·)
  else if action.type = "setState" then action.key.map ("state:" ++ ·)
  else none

/-- The targets of a frame made only of writes that can be coalesced, in order. -/
def coalesceSignature (frame : Frame) : Option (List String) :=
  if frame.isEmpty || frame.any fun action => (targetOf action).isNone then none
  else some (frame.filterMap targetOf).dedup.mergeSort

/-- Whether the second frame replaces the first. -/
def sameTargets (first second : Option (List String)) : Bool := second.isSome && second == first

def coalesceStep (window : List Frame × Option (List String)) (frame : Frame) :
    List Frame × Option (List String) :=
  let signature := coalesceSignature frame
  if sameTargets window.2 signature then (window.1.dropLast ++ [frame], signature)
  else (window.1 ++ [frame], signature)

/-- The frames of one flush window, each run of same-target frames reduced to its last. -/
def coalescePrototypeChannelFrames (frames : List Frame) : List Frame :=
  (frames.foldl coalesceStep ([], none)).1

end Coalesce

section Apply

/-- The write that a data action stands for. -/
def dataWrite (action : ResolvedAction) : Option DataWrite :=
  let value := action.value.map Subtype.val
  action.path.bind fun path =>
    if action.type = "setData" then some (.set path value)
    else if action.type = "appendData" then some (.append path value action.maxItems)
    else if action.type = "prependData" then some (.prepend path value action.maxItems)
    else if action.type = "upsertData" then
      action.key.map fun key => .upsert path key value action.maxItems
    else if action.type = "removeData" then some (.remove path)
    else none

/-- Whether the action is no data write, or one that the data takes. -/
def takesAction (data : Option Json) (action : ResolvedAction) : Bool :=
  match dataWrite action with
  | none => true
  | some write =>
    match applyPrototypeDataWrite data write with
    | .ok _ => true
    | .error _ => false

/-- A refused write changes nothing. -/
def applyAction (data : Option Json) (action : ResolvedAction) : Option Json :=
  match dataWrite action with
  | none => data
  | some write =>
    match applyPrototypeDataWrite data write with
    | .ok (next, _) => some next
    | .error _ => data

def applyFrame (data : Option Json) (frame : Frame) : Option Json := frame.foldl applyAction data

def applyFrames (data : Option Json) (frames : List Frame) : Option Json :=
  frames.foldl applyFrame data

/-- Whether the data takes every write of the frame in its turn. -/
def takesFrame (data : Option Json) : Frame → Bool
  | [] => true
  | action :: rest => takesAction data action && takesFrame (applyAction data action) rest

end Apply

section Runs

/-- The runs of consecutive frames with the same targets, of which the last frame is kept. -/
def runsOf : List Frame → List (List Frame)
  | [] => []
  | frame :: rest =>
    match runsOf rest with
    | (next :: later) :: runs =>
      if sameTargets (coalesceSignature frame) (coalesceSignature next) then
        (frame :: next :: later) :: runs
      else [frame] :: (next :: later) :: runs
    | runs => [frame] :: runs

/-- Each frame that replaces earlier ones has all its writes taken, both after these frames and
in their place. -/
def ReplacementsTaken (data : Option Json) : List (List Frame) → Prop
  | [] => True
  | run :: runs =>
    (∀ replaced frame, replaced ≠ [] → run = replaced ++ [frame] →
      takesFrame (applyFrames data replaced) frame = true ∧ takesFrame data frame = true) ∧
    ReplacementsTaken (applyFrames data run) runs

end Runs

end AutoMobile.PrototypeData
