import AutoMobile.PrototypeChannelCoalesce

/- A frame that replaces others with the same targets leaves the data that all of them would have
left, when all its writes are taken either way. -/
namespace AutoMobile.PrototypeData

open LabelledTree Document

variable {data : Option Json} {frame : Frame} {action : ResolvedAction}

section Runs

theorem runsOf_head (frame : Frame) (rest : List Frame) :
    ∃ later runs, runsOf (frame :: rest) = (frame :: later) :: runs := by
  unfold runsOf
  split
  · split
    · exact ⟨_, _, rfl⟩
    · exact ⟨_, _, rfl⟩
  · exact ⟨_, _, rfl⟩

theorem runsOf_cons (frame next : Frame) (rest : List Frame) :
    ∃ later runs, runsOf (next :: rest) = (next :: later) :: runs ∧ runsOf (frame :: next :: rest) =
        if sameTargets (coalesceSignature frame) (coalesceSignature next) then
          (frame :: next :: later) :: runs
        else [frame] :: (next :: later) :: runs := by
  obtain ⟨later, runs, same⟩ := runsOf_head next rest
  refine ⟨later, runs, same, ?_⟩
  rw [runsOf, same]

theorem flatten_runsOf (frames : List Frame) : (runsOf frames).flatten = frames := by
  induction frames with
  | nil => rfl
  | cons frame rest ih =>
    cases rest with
    | nil => rfl
    | cons next rest =>
      obtain ⟨later, runs, tail, whole⟩ := runsOf_cons frame next rest
      rw [tail] at ih
      rw [whole]
      split
      · simpa using ih
      · simpa using ih

/-- The frames of a run of two or more write the same targets. -/
theorem same_of_mem_runsOf (frames : List Frame) {run : List Frame} (member : run ∈ runsOf frames) :
    run ≠ [] ∧ ∀ first second, first ∈ run → second ∈ run → 1 < run.length →
      (coalesceSignature first).isSome = true ∧
        coalesceSignature first = coalesceSignature second := by
  induction frames generalizing run with
  | nil => simp [runsOf] at member
  | cons frame rest ih =>
    cases rest with
    | nil =>
      obtain rfl : run = [frame] := by simpa [runsOf] using member
      exact ⟨by simp, fun _ _ _ _ long => absurd long (by simp)⟩
    | cons next rest =>
      obtain ⟨later, runs, tail, whole⟩ := runsOf_cons frame next rest
      rw [whole] at member
      split at member
      · rename_i same
        rcases List.mem_cons.mp member with rfl | other
        · unfold sameTargets at same
          rw [Bool.and_eq_true, beq_iff_eq] at same
          -- the head joins a run whose frames all write what its first frame writes
          have joined (other : Frame) (member : other ∈ frame :: next :: later) :
              coalesceSignature other = coalesceSignature next := by
            rcases List.mem_cons.mp member with rfl | inside
            · exact same.2.symm
            · cases later with
              | nil => rw [List.mem_singleton.mp inside]
              | cons third more =>
                have run := ih (tail ▸ List.mem_cons_self)
                exact (run.2 other next inside List.mem_cons_self (by simp)).2
          refine ⟨by simp, fun first second one two _ => ?_⟩
          rw [joined first one, joined second two]
          exact ⟨same.1, rfl⟩
        · exact ih (tail ▸ List.mem_cons_of_mem _ other)
      · rcases List.mem_cons.mp member with rfl | other
        · exact ⟨by simp, fun _ _ _ _ long => absurd long (by simp)⟩
        · exact ih (tail ▸ other)

/-- Coalescing keeps the last frame of each run. -/
theorem foldl_coalesceStep (frame : Frame) (rest kept : List Frame) :
    (rest.foldl coalesceStep (kept ++ [frame], coalesceSignature frame)).1 =
      kept ++ (runsOf (frame :: rest)).filterMap List.getLast? := by
  induction rest generalizing frame kept with
  | nil => simp [runsOf]
  | cons next rest ih =>
    obtain ⟨later, runs, tail, whole⟩ := runsOf_cons frame next rest
    have step : coalesceStep (kept ++ [frame], coalesceSignature frame) next =
        if sameTargets (coalesceSignature frame) (coalesceSignature next) then
          (kept ++ [next], coalesceSignature next)
        else (kept ++ [frame] ++ [next], coalesceSignature next) := by
      unfold coalesceStep
      rw [List.dropLast_concat]
    rw [List.foldl_cons, whole, step]
    by_cases same : sameTargets (coalesceSignature frame) (coalesceSignature next) = true
    · rw [if_pos same, if_pos same, ih, tail, List.filterMap_cons, List.filterMap_cons,
        List.getLast?_cons_cons]
    · rw [if_neg same, if_neg same, ih, tail]
      simp

theorem coalesce_eq (frames : List Frame) :
    coalescePrototypeChannelFrames frames = (runsOf frames).filterMap List.getLast? := by
  cases frames with
  | nil => rfl
  | cons frame rest =>
    have start : coalesceStep ([], none) frame = ([] ++ [frame], coalesceSignature frame) := by
      unfold coalesceStep
      cases coalesceSignature frame <;> simp [sameTargets]
    unfold coalescePrototypeChannelFrames
    rw [List.foldl_cons, start, foldl_coalesceStep]
    rfl

theorem lasts_sublist (runs : List (List Frame)) :
    (runs.filterMap List.getLast?).Sublist runs.flatten := by
  induction runs with
  | nil => exact List.Sublist.refl _
  | cons run runs ih =>
    rw [List.flatten_cons]
    cases last : run.getLast? with
    | none =>
      rw [List.filterMap_cons_none last]
      exact ih.trans (List.sublist_append_right _ _)
    | some frame =>
      rw [List.filterMap_cons_some last]
      have member : frame ∈ run := List.mem_of_getLast? last
      exact (List.singleton_sublist.mpr member).append ih

end Runs

section Targets

/-- The tokens of the place that a `setData` writes. -/
def dataTokens (action : ResolvedAction) : Option (List String) :=
  match dataWrite action with
  | some (.set path _) => (prototypeDataPathPointer path).map prototypeDataPointerTokens
  | _ => none

/-- An action that can be coalesced is a `setData` or writes no data. -/
theorem targetOf_cases {target : String} (found : targetOf action = some target) :
    (∃ path, target = "data:" ++ path ∧
      dataWrite action = some (.set path (action.value.map Subtype.val))) ∨
    ((∃ key, target = "state:" ++ key) ∧ dataWrite action = none) := by
  unfold targetOf at found
  split at found
  · rename_i data
    obtain ⟨path, given⟩ := Option.isSome_iff_exists.mp data.2
    rw [given, Option.map_some, Option.some.injEq] at found
    exact Or.inl ⟨path, found.symm, by simp [dataWrite, data.1, given]⟩
  · split at found
    · rename_i state
      rw [Option.map_eq_some_iff] at found
      obtain ⟨key, given, rfl⟩ := found
      refine Or.inr ⟨⟨key, rfl⟩, ?_⟩
      cases action.path <;> simp [dataWrite, state]
    · cases found

theorem mem_signature {signature : List String} (signed : coalesceSignature frame = some signature) :
    (∀ action ∈ frame, (targetOf action).isSome = true) ∧
      ∀ target, target ∈ signature ↔ ∃ action ∈ frame, targetOf action = some target := by
  unfold coalesceSignature at signed
  split at signed
  · cases signed
  · rename_i proper
    cases signed
    rw [Bool.not_eq_true, Bool.or_eq_false_iff, List.any_eq_false] at proper
    refine ⟨fun action member => ?_, fun target => ?_⟩
    · simpa [Option.isNone_iff_eq_none, Option.isSome_iff_ne_none] using proper.2 action member
    · rw [List.mem_mergeSort, List.mem_dedup, List.mem_filterMap]

/-- Frames with one signature write data at the same paths. -/
theorem writes_of_same {first second : Frame} (proper : (coalesceSignature first).isSome = true)
    (same : coalesceSignature first = coalesceSignature second) (member : action ∈ first)
    (writes : dataWrite action ≠ none) :
    ∃ path value other value', other ∈ second ∧ dataWrite action = some (.set path value) ∧
      dataWrite other = some (.set path value') := by
  obtain ⟨signature, signed⟩ := Option.isSome_iff_exists.mp proper
  have signed' := same ▸ signed
  obtain ⟨targets, -⟩ := mem_signature signed
  obtain ⟨target, found⟩ := Option.isSome_iff_exists.mp (targets action member)
  have shared := ((mem_signature signed').2 target).mp
    (((mem_signature signed).2 target).mpr ⟨action, member, found⟩)
  obtain ⟨other, inside, found'⟩ := shared
  rcases targetOf_cases found with ⟨path, rfl, write⟩ | ⟨-, silent⟩
  · rcases targetOf_cases found' with ⟨path', same, write'⟩ | ⟨⟨key, clash⟩, -⟩
    · have equal : path' = path := by
        have chars := congrArg String.toList same
        rw [String.toList_append, String.toList_append] at chars
        exact (String.toList_injective (List.append_cancel_left chars)).symm
      exact ⟨path, _, other, _, inside, write, equal ▸ write'⟩
    · have chars := congrArg (fun target => target.toList.head?) clash
      simp at chars
  · exact absurd silent writes

/-- Frames with one signature set data at the same places. -/
theorem tokens_of_same {first second : Frame} (proper : (coalesceSignature first).isSome = true)
    (same : coalesceSignature first = coalesceSignature second) {tokens : List String}
    (member : action ∈ first) (written : dataTokens action = some tokens) :
    ∃ other ∈ second, dataTokens other = some tokens := by
  have writes : dataWrite action ≠ none := by
    intro silent
    rw [dataTokens, silent] at written
    cases written
  obtain ⟨path, value, other, value', inside, write, write'⟩ :=
    writes_of_same proper same member writes
  refine ⟨other, inside, ?_⟩
  rw [← written, dataTokens, write', dataTokens, write]

end Targets

section Replacement

/-- The data is canonical, if there is any. -/
def CanonicalData (data : Option Json) : Prop := ∀ value, data = some value → value.Canonical

theorem dataWrite_value {write : DataWrite} (given : dataWrite action = some write) :
    ∀ value, write.value = some value → value.Canonical := by
  have own (value : Json) (held : action.value.map Subtype.val = some value) : value.Canonical := by
    rw [Option.map_eq_some_iff] at held
    obtain ⟨canonical, -, rfl⟩ := held
    exact canonical.property
  unfold dataWrite at given
  rw [Option.bind_eq_some_iff] at given
  obtain ⟨path, -, given⟩ := given
  split at given
  · cases given
    exact own
  split at given
  · cases given
    exact own
  split at given
  · cases given
    exact own
  split at given
  · rw [Option.map_eq_some_iff] at given
    obtain ⟨key, -, rfl⟩ := given
    exact own
  split at given
  · cases given
    exact fun _ held => by cases held
  · cases given

/-- A write is taken and gives new data, or it changes nothing. -/
theorem applyAction_cases (data : Option Json) (action : ResolvedAction) :
    (∃ write next trimmed pointer, dataWrite action = some write ∧
      Accepted data write next trimmed pointer ∧ applyAction data action = some next ∧
      takesAction data action = true) ∨
    (applyAction data action = data ∧
      (takesAction data action = true → dataWrite action = none)) := by
  unfold applyAction takesAction
  cases dataWrite action with
  | none => exact Or.inr ⟨rfl, fun _ => rfl⟩
  | some write =>
    dsimp only
    cases written : applyPrototypeDataWrite data write with
    | error refusal => exact Or.inr ⟨rfl, fun taken => by cases taken⟩
    | ok result =>
      obtain ⟨next, trimmed⟩ := result
      obtain ⟨pointer, accepted⟩ := accepted_of_ok written
      exact Or.inl ⟨write, next, trimmed, pointer, rfl, accepted, rfl, rfl⟩

theorem canonicalData_applyAction (canonical : CanonicalData data) :
    CanonicalData (applyAction data action) := by
  rcases applyAction_cases data action with ⟨write, next, trimmed, pointer, given, accepted, same, -⟩ |
    ⟨same, -⟩
  · rw [same]
    intro value held
    cases held
    exact canonical_of_accepted accepted canonical (dataWrite_value given)
  · rw [same]
    exact canonical

theorem canonicalData_applyFrame (canonical : CanonicalData data) (frame : Frame) :
    CanonicalData (applyFrame data frame) := by
  induction frame generalizing data with
  | nil => exact canonical
  | cons action rest ih => exact ih (canonicalData_applyAction canonical)

theorem canonicalData_applyFrames (canonical : CanonicalData data) (frames : List Frame) :
    CanonicalData (applyFrames data frames) := by
  induction frames generalizing data with
  | nil => exact canonical
  | cons frame rest ih => exact ih (canonicalData_applyFrame canonical frame)

/-- An accepted `setData` puts its value at its place. -/
theorem setData_accepted {path : String} {value : Option Json} {next : Json} {trimmed : Nat}
    {pointer : String} (given : dataWrite action = some (.set path value))
    (accepted : Accepted data (.set path value) next trimmed pointer) :
    ∃ written, value = some written ∧
      dataTokens action = some (prototypeDataPointerTokens pointer) ∧
      editAt (setChild written) (prototypeDataPointerTokens pointer) (currentData data) =
        some next := by
  cases value with
  | none =>
    have refused := accepted.value
    simp [valueRefusal, DataWrite.value] at refused
  | some written =>
    have found : prototypeDataPathPointer path = some pointer := accepted.path
    refine ⟨written, rfl, ?_, editAt_of_set accepted⟩
    rw [dataTokens, given]
    dsimp only
    rw [found, Option.map_some]

variable {paths : List (List String)}

/-- An action that can be coalesced changes the data at its own place only. -/
theorem agreeOutside_applyAction (target : (targetOf action).isSome = true)
    (inside : ∀ tokens, dataTokens action = some tokens → tokens ∈ paths) :
    AgreeOutside paths (currentData data) (currentData (applyAction data action)) := by
  rcases applyAction_cases data action with ⟨write, next, trimmed, pointer, given, accepted, same, -⟩ |
    ⟨same, -⟩
  · obtain ⟨label, found⟩ := Option.isSome_iff_exists.mp target
    rcases targetOf_cases found with ⟨path, -, set⟩ | ⟨-, none⟩
    · rw [set, Option.some.injEq] at given
      subst given
      obtain ⟨written, -, tokens, edited⟩ := setData_accepted set accepted
      rw [same, currentData_of_valid accepted.valid]
      exact agreeOutside_editAt puts_setChild (inside _ tokens) edited
    · rw [none] at given
      cases given
  · rw [same]
    exact AgreeOutside.refl paths _

theorem agreeOutside_applyFrame (targets : ∀ action ∈ frame, (targetOf action).isSome = true)
    (inside : ∀ action ∈ frame, ∀ tokens, dataTokens action = some tokens → tokens ∈ paths) :
    AgreeOutside paths (currentData data) (currentData (applyFrame data frame)) := by
  induction frame generalizing data with
  | nil => exact AgreeOutside.refl paths _
  | cons action rest ih =>
    have head : AgreeOutside paths (currentData data) (currentData (applyAction data action)) :=
      agreeOutside_applyAction (targets action List.mem_cons_self)
        (inside action List.mem_cons_self)
    exact head.trans (ih (fun other member => targets other (List.mem_cons_of_mem _ member))
      fun other member => inside other (List.mem_cons_of_mem _ member))

theorem agreeOutside_applyFrames {frames : List Frame}
    (targets : ∀ frame ∈ frames, ∀ action ∈ frame, (targetOf action).isSome = true)
    (inside : ∀ frame ∈ frames, ∀ action ∈ frame, ∀ tokens,
      dataTokens action = some tokens → tokens ∈ paths) :
    AgreeOutside paths (currentData data) (currentData (applyFrames data frames)) := by
  induction frames generalizing data with
  | nil => exact AgreeOutside.refl paths _
  | cons frame rest ih =>
    have head : AgreeOutside paths (currentData data) (currentData (applyFrame data frame)) :=
      agreeOutside_applyFrame (targets frame List.mem_cons_self)
        (inside frame List.mem_cons_self)
    exact head.trans (ih (fun other member => targets other (List.mem_cons_of_mem _ member))
      fun other member => inside other (List.mem_cons_of_mem _ member))

/-- An action that two data take makes them agree below its place. -/
theorem agreeOutside_of_takesAction {first second : Option Json}
    (target : (targetOf action).isSome = true)
    (agree : AgreeOutside paths (currentData first) (currentData second))
    (one : takesAction first action = true) (two : takesAction second action = true) :
    ∃ rest : List (List String), (∀ path ∈ rest, path ∈ paths ∧ dataTokens action ≠ some path) ∧
      AgreeOutside rest (currentData (applyAction first action))
        (currentData (applyAction second action)) := by
  obtain ⟨label, found⟩ := Option.isSome_iff_exists.mp target
  rcases targetOf_cases found with ⟨path, -, set⟩ | ⟨-, none⟩
  · rcases applyAction_cases first action with
      ⟨write, next, trimmed, pointer, given, accepted, same, -⟩ | ⟨-, nothing⟩
    · rcases applyAction_cases second action with
        ⟨write', next', trimmed', pointer', given', accepted', same', -⟩ | ⟨-, nothing⟩
      · rw [set, Option.some.injEq] at given given'
        subst given given'
        obtain ⟨written, value, tokens, edited⟩ := setData_accepted set accepted
        obtain ⟨written', value', tokens', edited'⟩ := setData_accepted set accepted'
        rw [value, Option.some.injEq] at value'
        rw [tokens, Option.some.injEq] at tokens'
        rw [← value', ← tokens'] at edited'
        rw [same, same', currentData_of_valid accepted.valid, currentData_of_valid accepted'.valid]
        refine ⟨_, fun path member => ?_,
          AgreeOutside.editAt puts_setChild puts_setChild agree edited edited'⟩
        obtain ⟨known, apart⟩ := List.mem_filter.mp member
        refine ⟨known, fun equal => ?_⟩
        rw [tokens, Option.some.injEq] at equal
        subst equal
        simp [List.isPrefixOf_iff_prefix.mpr (List.prefix_refl _)] at apart
      · rw [nothing two] at set
        cases set
    · rw [nothing one] at set
      cases set
  · have same (data : Option Json) : applyAction data action = data := by rw [applyAction, none]
    refine ⟨paths, fun path member => ⟨member, ?_⟩, ?_⟩
    · rw [dataTokens, none]
      simp
    · rw [same, same]
      exact agree

/-- A frame that two data take makes them agree below each place that it writes. -/
theorem agreeOutside_of_takesFrame {first second : Option Json}
    (targets : ∀ action ∈ frame, (targetOf action).isSome = true)
    (agree : AgreeOutside paths (currentData first) (currentData second))
    (one : takesFrame first frame = true) (two : takesFrame second frame = true) :
    ∃ rest : List (List String),
      (∀ path ∈ rest, path ∈ paths ∧ ∀ action ∈ frame, dataTokens action ≠ some path) ∧
      AgreeOutside rest (currentData (applyFrame first frame))
        (currentData (applyFrame second frame)) := by
  induction frame generalizing first second paths with
  | nil => exact ⟨paths, fun path member => ⟨member, by simp⟩, agree⟩
  | cons action rest ih =>
    rw [takesFrame, Bool.and_eq_true] at one two
    obtain ⟨middle, own, agree'⟩ := agreeOutside_of_takesAction
      (targets action List.mem_cons_self) agree one.1 two.1
    obtain ⟨left, others, final⟩ := ih
      (fun other member => targets other (List.mem_cons_of_mem _ member)) agree' one.2 two.2
    refine ⟨left, fun path member => ?_, final⟩
    obtain ⟨kept, apart⟩ := others path member
    refine ⟨(own path kept).1, fun other inside => ?_⟩
    rcases List.mem_cons.mp inside with rfl | later
    · exact (own path kept).2
    · exact apart other later

/-- After a taken write the data is an object, and stays one. -/
theorem applyFrame_object {held : Option Json} (object : held = some (currentData held))
    (frame : Frame) : applyFrame held frame = some (currentData (applyFrame held frame)) := by
  induction frame generalizing held with
  | nil => exact object
  | cons action rest ih =>
    refine ih ?_
    rcases applyAction_cases held action with ⟨write, next, trimmed, pointer, -, accepted, same, -⟩ |
      ⟨same, -⟩
    · rw [same, currentData_of_valid accepted.valid]
    · rw [same]
      exact object

theorem applyFrame_taken (taken : takesFrame data frame = true)
    (writes : ∃ action ∈ frame, dataWrite action ≠ none) :
    applyFrame data frame = some (currentData (applyFrame data frame)) := by
  induction frame generalizing data with
  | nil => simp at writes
  | cons action rest ih =>
    rw [takesFrame, Bool.and_eq_true] at taken
    rcases applyAction_cases data action with
      ⟨write, next, trimmed, pointer, -, accepted, same, -⟩ | ⟨same, nothing⟩
    · refine applyFrame_object ?_ rest
      rw [same, currentData_of_valid accepted.valid]
    · refine ih taken.2 ?_
      obtain ⟨writer, member, write⟩ := writes
      rcases List.mem_cons.mp member with rfl | later
      · exact absurd (nothing taken.1) write
      · exact ⟨writer, later, write⟩

theorem applyFrame_silent (silent : ∀ action ∈ frame, dataWrite action = none) :
    applyFrame data frame = data := by
  induction frame generalizing data with
  | nil => rfl
  | cons action rest ih =>
    have same : applyAction data action = data := by
      rw [applyAction, silent action List.mem_cons_self]
    change applyFrame (applyAction data action) rest = data
    rw [same]
    exact ih fun other member => silent other (List.mem_cons_of_mem _ member)

theorem applyFrames_silent {frames : List Frame}
    (silent : ∀ frame ∈ frames, ∀ action ∈ frame, dataWrite action = none) :
    applyFrames data frames = data := by
  induction frames generalizing data with
  | nil => rfl
  | cons frame rest ih =>
    change applyFrames (applyFrame data frame) rest = data
    rw [applyFrame_silent (silent frame List.mem_cons_self)]
    exact ih fun other member => silent other (List.mem_cons_of_mem _ member)

/-- A frame that is taken in the place of frames with its targets, and after them, ends in the
same data. -/
theorem applyFrame_replaces {replaced : List Frame} (canonical : CanonicalData data)
    (proper : (coalesceSignature frame).isSome = true)
    (same : ∀ other ∈ replaced, coalesceSignature other = coalesceSignature frame)
    (after : takesFrame (applyFrames data replaced) frame = true)
    (instead : takesFrame data frame = true) :
    applyFrame (applyFrames data replaced) frame = applyFrame data frame := by
  have targets (other : Frame) (signed : coalesceSignature other = coalesceSignature frame) :
      ∀ action ∈ other, (targetOf action).isSome = true := by
    obtain ⟨signature, given⟩ := Option.isSome_iff_exists.mp proper
    exact (mem_signature (signed.trans given)).1
  have inside : ∀ other ∈ replaced, ∀ action ∈ other, ∀ tokens,
      dataTokens action = some tokens → tokens ∈ frame.filterMap dataTokens := by
    intro other member action held tokens written
    obtain ⟨last, there, equal⟩ := tokens_of_same (by rw [same other member]; exact proper)
      (same other member) held written
    exact List.mem_filterMap.mpr ⟨last, there, equal⟩
  have before : AgreeOutside (frame.filterMap dataTokens) (currentData data)
      (currentData (applyFrames data replaced)) :=
    agreeOutside_applyFrames (fun other member => targets other (same other member)) inside
  obtain ⟨rest, unwritten, agree⟩ := agreeOutside_of_takesFrame (targets frame rfl) before.symm
    after instead
  have nothing : rest = [] := by
    rw [List.eq_nil_iff_forall_not_mem]
    intro path member
    obtain ⟨written, apart⟩ := unwritten path member
    obtain ⟨action, held, equal⟩ := List.mem_filterMap.mp written
    exact apart action held equal
  subst nothing
  have canonical' := canonicalData_applyFrames canonical replaced
  have equal := agree.eq
    (canonical_currentData (canonicalData_applyFrame canonical' frame))
    (canonical_currentData (canonicalData_applyFrame canonical frame))
  by_cases writes : ∃ action ∈ frame, dataWrite action ≠ none
  · rw [applyFrame_taken after writes, applyFrame_taken instead writes, equal]
  · -- only the keys of states are written
    have silent : ∀ action ∈ frame, dataWrite action = none := by
      intro action member
      by_contra write
      exact writes ⟨action, member, write⟩
    have silent' : ∀ other ∈ replaced, ∀ action ∈ other, dataWrite action = none := by
      intro other member action held
      by_contra write
      obtain ⟨path, value, last, value', there, -, write'⟩ :=
        writes_of_same (by rw [same other member]; exact proper) (same other member) held write
      rw [silent last there] at write'
      cases write'
    rw [applyFrames_silent silent']

/-- Runs of frames may be reduced to their last ones, when these are taken. -/
theorem applyFrames_lasts {runs : List (List Frame)} (canonical : CanonicalData data)
    (proper : ∀ run ∈ runs, run ≠ [] ∧ ∀ first second, first ∈ run → second ∈ run →
      1 < run.length → (coalesceSignature first).isSome = true ∧
        coalesceSignature first = coalesceSignature second)
    (taken : ReplacementsTaken data runs) :
    applyFrames data (runs.filterMap List.getLast?) = applyFrames data runs.flatten := by
  induction runs generalizing data with
  | nil => rfl
  | cons run runs ih =>
    obtain ⟨last, later⟩ := taken
    obtain ⟨nonempty, same⟩ := proper run List.mem_cons_self
    have split := (List.dropLast_append_getLast nonempty).symm
    generalize run.dropLast = replaced at split
    generalize run.getLast nonempty = frame at split
    have equal : applyFrame data frame = applyFrames data run := by
      rw [split, applyFrames, List.foldl_append]
      change applyFrame data frame = applyFrame (applyFrames data replaced) frame
      by_cases alone : replaced = []
      · rw [alone]
        rfl
      · obtain ⟨after, instead⟩ := last replaced frame alone split
        have long : 1 < run.length := by
          rw [split, List.length_append, List.length_singleton]
          have := List.length_pos_of_ne_nil alone
          omega
        have inside : frame ∈ run := by simp [split]
        refine (applyFrame_replaces canonical (same frame frame inside inside long).1
          (fun other member => ?_) after instead).symm
        exact (same other frame (by simp [split, member]) inside long).2
    have kept : run.getLast? = some frame := by simp [split]
    rw [List.filterMap_cons_some kept, List.flatten_cons, applyFrames, List.foldl_cons,
      applyFrames, List.foldl_append]
    change applyFrames (applyFrame data frame) _ = applyFrames (applyFrames data run) _
    rw [equal]
    exact ih (canonicalData_applyFrames canonical run)
      (fun other member => proper other (List.mem_cons_of_mem _ member)) later

end Replacement

/-- Coalescing keeps frames in their order, and ends in the data of all frames whenever the data
takes each frame that replaces others. -/
theorem coalesced_frames_same_data (frames : List Frame) (data : Option CanonicalJson) :
    (coalescePrototypeChannelFrames frames).Sublist frames ∧
      (ReplacementsTaken (data.map Subtype.val) (runsOf frames) →
        applyFrames (data.map Subtype.val) (coalescePrototypeChannelFrames frames) =
          applyFrames (data.map Subtype.val) frames) := by
  have canonical : CanonicalData (data.map Subtype.val) := by
    intro value held
    rw [Option.map_eq_some_iff] at held
    obtain ⟨start, -, rfl⟩ := held
    exact start.property
  rw [coalesce_eq]
  constructor
  · have sublist := lasts_sublist (runsOf frames)
    rwa [flatten_runsOf] at sublist
  · intro taken
    rw [applyFrames_lasts canonical (fun run member => same_of_mem_runsOf frames member) taken,
      flatten_runsOf]

/-- A frame that sets the member `a` of the data to a scalar. -/
def setA (value : Scalar) : Frame :=
  [{ type := "setData", path := some "/data/a", value := some ⟨.scalar value, .scalar value⟩ }]

theorem coalesced_frames_same_data_two :
    applyFrames none (coalescePrototypeChannelFrames [setA (.bool true), setA (.bool false)]) =
      applyFrames none [setA (.bool true), setA (.bool false)] := by
  refine (coalesced_frames_same_data _ none).2 ?_
  have runs : runsOf [setA (.bool true), setA (.bool false)] =
      [[setA (.bool true), setA (.bool false)]] := by
    have same : sameTargets (coalesceSignature (setA (.bool true)))
        (coalesceSignature (setA (.bool false))) = true := by decide +kernel
    simp [runsOf, same]
  rw [runs]
  refine ⟨fun replaced frame nonempty split => ?_, trivial⟩
  obtain ⟨rfl, rfl⟩ : replaced = [setA (.bool true)] ∧ frame = setA (.bool false) := by
    have whole : replaced ++ [frame] = [setA (.bool true)] ++ [setA (.bool false)] := split.symm
    obtain ⟨front, last⟩ := List.append_inj' whole rfl
    exact ⟨front, List.singleton_inj.mp last⟩
  decide +kernel

/-- `null` is no data value: the frame that carries it replaces one whose write was taken, and
its own write is refused. -/
theorem refused_frame_loses_write : ¬ ∀ (frames : List Frame) (data : Option CanonicalJson),
      applyFrames (data.map Subtype.val) (coalescePrototypeChannelFrames frames) =
        applyFrames (data.map Subtype.val) frames := by
  intro same
  have ends := congrArg
    (fun data : Option Json => (data.bind fun value => resolvePrototypeDataPointer value "/a").isSome)
    (same [setA (.bool true), setA .null] none)
  exact absurd ends (by decide +kernel)

end AutoMobile.PrototypeData
