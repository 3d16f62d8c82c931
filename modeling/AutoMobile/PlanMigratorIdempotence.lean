import AutoMobile.PlanMigratorRules

/- Migrating twice: a step comes out of its first migration in the current shape, on which a
second migration changes nothing but a tap that named its element twice. -/
namespace AutoMobile.PlanMigrator

open InsertionMap ScriptValue

section Step

variable (stepIndex again : Nat) (context later : StepMigrationContext)

/-- The tool of the step, which an old step calls its command. -/
def toolOf (step : Fields) : Value :=
  if !(field step "tool").truthy && (field step "command").isText then field step "command"
  else field step "tool"

/-- The parameter of the step, which an old step keeps beside its tool. -/
def paramOf (step : Fields) (key : String) : Value :=
  match (field step "params").object? with
  | some params => if has params key then field params key else field step key
  | none => field step key

/-- A tap that names its element in `elementId` and in `id`, and has no selector. -/
def tapNamesElementTwice (step : Fields) : Bool :=
  ((toolOf step).text? == some "tapOn" || (toolOf step).text? == some "tapOnText") &&
    (paramOf step "elementId").isText && (paramOf step "id").isText &&
      !(paramOf step "selector").isRecord

variable {key : String} {step : Fields}

theorem field_renameCommand (step : Migration) (tool : "tool" ≠ key) (command : "command" ≠ key) :
    (renameCommand stepIndex step).field key = step.field key := by
  unfold renameCommand
  split
  · simp [tool, command]
  · rfl

theorem renameCommand_tool (step : Migration) :
    (renameCommand stepIndex step).field "tool" = toolOf step.fields := by
  have same : toolOf step.fields =
      if !(step.field "tool").truthy && (step.field "command").isText then step.field "command"
      else step.field "tool" := rfl
  rw [same, renameCommand]
  split
  · simp
  · rfl

theorem field_mapDescription (step : Migration) (label : "label" ≠ key) :
    (mapDescription stepIndex step).field key = step.field key := by
  unfold mapDescription
  split
  · simp [label]
  · rfl

/-- The metadata of a step is its tool, command, label and description. -/
theorem field_migrateStepMetadata (step : Migration) (tool : "tool" ≠ key)
    (command : "command" ≠ key) (label : "label" ≠ key) (description : "description" ≠ key) :
    (migrateStepMetadata stepIndex step).field key = step.field key := by
  unfold migrateStepMetadata
  dsimp only
  split
  · rw [field_dropField, if_neg command, field_renameCommand _ _ tool command]
  · rw [field_dropField, if_neg description, field_mapDescription _ _ label, field_dropField,
      if_neg command, field_renameCommand _ _ tool command]

theorem migrateStepMetadata_tool (step : Migration) :
    (migrateStepMetadata stepIndex step).field "tool" = toolOf step.fields := by
  unfold migrateStepMetadata
  dsimp only
  split
  · rw [field_dropField, if_neg (by decide), renameCommand_tool]
  · rw [field_dropField, if_neg (by decide), field_mapDescription _ _ (by decide),
      field_dropField, if_neg (by decide), renameCommand_tool]

theorem migrateStepMetadata_command (step : Migration) :
    ((migrateStepMetadata stepIndex step).field "command").isUndefined = true := by
  unfold migrateStepMetadata
  dsimp only
  split
  · rw [field_dropField, if_pos rfl]
    rfl
  · rw [field_dropField, if_neg (by decide), field_mapDescription _ _ (by decide),
      field_dropField, if_pos rfl]
    rfl

/-- The description stays with a highlight only. -/
theorem migrateStepMetadata_description (step : Migration) :
    (toolOf step.fields).text? = some "highlight" ∨
      ((migrateStepMetadata stepIndex step).field "description").isUndefined = true := by
  rw [← renameCommand_tool stepIndex step]
  unfold migrateStepMetadata
  dsimp only
  split
  · rename_i highlight
    rw [field_dropField, if_neg (by decide)] at highlight
    exact Or.inl highlight
  · right
    rw [field_dropField, if_pos rfl]
    rfl

/-- A step without command and description is named and labelled as now. -/
theorem migrateStepMetadata_settled (command : (field step "command").isUndefined = true)
    (description : (field step "tool").text? = some "highlight" ∨
      (field step "description").isUndefined = true) :
    Settled (migrateStepMetadata stepIndex) step := by
  intro warnings changed
  have named : renameCommand stepIndex ⟨step, warnings, changed⟩ = ⟨step, warnings, changed⟩ := by
    rw [renameCommand, Migration.field_mk _ step, Migration.field_mk _ step,
      Value.eq_undefined command, Value.isText_undefined, Bool.and_false, if_neg (by simp)]
  have noCommand : (⟨step, warnings, changed⟩ : Migration).dropField "command"
      "Removed deprecated command field." stepIndex = ⟨step, warnings, changed⟩ :=
    dropField_settled command warnings changed
  unfold migrateStepMetadata
  dsimp only
  rw [named, noCommand]
  rcases description with highlight | gone
  · rw [Migration.field_mk, if_pos highlight]
  · have labelled : mapDescription stepIndex ⟨step, warnings, changed⟩ =
        ⟨step, warnings, changed⟩ := by
      rw [mapDescription, Migration.field_mk _ step, Value.eq_undefined gone,
        Value.isText_undefined, Bool.false_and, if_neg (by simp)]
    have noDescription : (⟨step, warnings, changed⟩ : Migration).dropField "description"
        "Removed deprecated step description field." stepIndex = ⟨step, warnings, changed⟩ :=
      dropField_settled gone warnings changed
    rw [labelled, noDescription]
    split <;> rfl

/-- A current name of a tool is left alone. -/
theorem migrateToolName_again (toolName : String) (params next : Migration) :
    migrateToolName again (migrateToolName stepIndex toolName context params).1 later next =
      ((migrateToolName stepIndex toolName context params).1, next) := by
  unfold migrateToolName
  by_cases tapOnText : toolName = "tapOnText"
  · simp [tapOnText]
  by_cases swipeOnScreen : toolName = "swipeOnScreen"
  · simp [swipeOnScreen]
  by_cases scroll : toolName = "scroll"
  · simp [scroll]
  by_cases inputText : toolName = "inputText"
  · simp [inputText]
  by_cases clearText : toolName = "clearText"
  · simp [clearText]
  by_cases imeAction : toolName = "imeAction"
  · simp [imeAction]
  simp [tapOnText, swipeOnScreen, scroll, inputText, clearText, imeAction]

/-- A tap comes from a tap, and keeps its parameters when its tool is renamed. -/
theorem migrateToolName_tap (toolName : String) (params : Migration) :
    ((migrateToolName stepIndex toolName context params).1 = "tapOn" ↔
        toolName = "tapOn" ∨ toolName = "tapOnText") ∧
      ((migrateToolName stepIndex toolName context params).1 = "tapOn" →
        (migrateToolName stepIndex toolName context params).2.fields = params.fields) := by
  unfold migrateToolName
  by_cases tapOnText : toolName = "tapOnText"
  · simp [tapOnText, Migration.recordWarning, Migration.markChanged]
  by_cases swipeOnScreen : toolName = "swipeOnScreen"
  · simp [swipeOnScreen]
  by_cases scroll : toolName = "scroll"
  · simp [scroll]
  by_cases inputText : toolName = "inputText"
  · simp [inputText]
  by_cases clearText : toolName = "clearText"
  · simp [clearText]
  by_cases imeAction : toolName = "imeAction"
  · simp [imeAction]
  simp [tapOnText, swipeOnScreen, scroll, inputText, clearText, imeAction]

/-- The shape of a step after migration: a tool, its parameters, and no field beside them that
could be a parameter. -/
structure Current (step : Fields) (tool : String) (params : Fields) : Prop where
  tool : field step "tool" = .text tool
  params : field step "params" = .object params
  command : (field step "command").isUndefined = true
  keys : ∀ entry ∈ step, isInline entry.1 = false

theorem field_of_keys (keys : ∀ entry ∈ step, isInline entry.1 = false)
    (inline : isInline key = true) : (field step key).isUndefined = true := by
  unfold field
  cases held : get? step key with
  | none => rfl
  | some value =>
    have apart := keys _ (mem_of_get? held)
    rw [inline] at apart
    cases apart

/-- Migrating a step of the current shape runs the rules of its tool and nothing else. -/
theorem migrateStepFields_current {params : Fields} {tool : String}
    (current : Current step tool params)
    (known : ∀ next, migrateToolName again tool later next = (tool, next))
    (warnings : List MigrationWarning) (changed : Bool) :
    migrateStepFields again later ⟨step, warnings, changed⟩ = ⟨put step "params"
          (.object (migrateToolParams again ⟨params, warnings, changed⟩ tool).fields),
        (migrateToolParams again ⟨params, warnings, changed⟩ tool).warnings,
        (migrateToolParams again ⟨params, warnings, changed⟩ tool).changed⟩ := by
  have metadata := migrateStepMetadata_settled again current.command
    (Or.inr (field_of_keys current.keys (by decide))) warnings changed
  have noInline : inlineParams step = [] := by
    rw [inlineParams, List.filter_eq_nil_iff]
    intro entry member
    simp [current.keys entry member]
  have kept : (step.filter fun entry => !isInline entry.1) = step := by
    rw [List.filter_eq_self]
    intro entry member
    simp [current.keys entry member]
  have none : (step.any fun entry => isInline entry.1) = false := by
    rw [List.any_eq_false]
    intro entry member
    simp [current.keys entry member]
  have sameTool : put step "tool" (.text tool) = step := put_field current.tool (by simp)
  unfold migrateStepFields
  rw [metadata]
  simp only [Migration.field, current.tool, current.params, Value.text?, Value.object?,
    Option.getD_some, noInline, spread_nil, kept, none, Bool.or_false, known, sameTool]

/-- A field of the step is a parameter, unless the parameters have a field of that name. -/
theorem field_mergedParams (step : Migration) (inline : isInline key = true)
    (proper : key ≠ "__proto__") (description : "description" ≠ key) :
    field (spread (inlineParams (migrateStepMetadata stepIndex step).fields)
      (((migrateStepMetadata stepIndex step).field "params").object?.getD [])) key =
        paramOf step.fields key := by
  have apart (reserved : String) (level : reserved ∈ stepLevelKeys) : reserved ≠ key := by
    intro same
    subst same
    simp [isInline, level] at inline
  have kept : (migrateStepMetadata stepIndex step).field key = step.field key :=
    field_migrateStepMetadata _ _ (apart _ (by decide)) (apart _ (by decide))
      (apart _ (by decide)) description
  have beside : field (inlineParams (migrateStepMetadata stepIndex step).fields) key =
      step.field key := by
    rw [← kept]
    unfold inlineParams field
    rw [get?_filterKeys _ (fun name => isInline name && name != "__proto__"), inline]
    simp [proper, Migration.field, field]
  rw [field_spread, beside, field_migrateStepMetadata _ _ (by decide) (by decide) (by decide)
    (by decide), paramOf, Migration.field_fields, Migration.field_fields]
  cases (step.field "params").object? with
  | none => simp [has, get?]
  | some params => rfl

/-- A step with a tool comes out in the current shape, after its tool's rules on what the step
gives as parameters. -/
theorem migrateStepFields_shape (step : Migration) {toolName : String}
    (tool : (toolOf step.fields).text? = some toolName) :
    ∃ params : Migration, namesElementTwice params.fields =
        ((paramOf step.fields "elementId").isText && (paramOf step.fields "id").isText &&
          !(paramOf step.fields "selector").isRecord) ∧
      Current (migrateStepFields stepIndex context step).fields
        (migrateToolName stepIndex toolName context params).1
        (migrateToolParams stepIndex (migrateToolName stepIndex toolName context params).2
          (migrateToolName stepIndex toolName context params).1).fields := by
  set metadata := migrateStepMetadata stepIndex step with metadata_def
  let params : Migration :=
    ⟨spread (inlineParams metadata.fields) ((metadata.field "params").object?.getD []),
      metadata.warnings, metadata.changed || metadata.fields.any fun entry => isInline entry.1⟩
  refine ⟨params, ?_, ?_⟩
  · unfold namesElementTwice
    rw [field_mergedParams stepIndex step (by decide) (by decide) (by decide),
      field_mergedParams stepIndex step (by decide) (by decide) (by decide),
      field_mergedParams stepIndex step (by decide) (by decide) (by decide)]
  rw [← migrateStepMetadata_tool stepIndex step, ← metadata_def] at tool
  have result : (migrateStepFields stepIndex context step).fields =
      put (put (metadata.fields.filter fun entry => !isInline entry.1) "tool"
        (.text (migrateToolName stepIndex toolName context params).1)) "params"
        (.object (migrateToolParams stepIndex (migrateToolName stepIndex toolName context params).2
          (migrateToolName stepIndex toolName context params).1).fields) := by
    unfold migrateStepFields
    dsimp only
    rw [← metadata_def, tool]
  rw [result]
  refine ⟨?_, field_put_self _ _ _, ?_, ?_⟩
  · rw [field_put_of_ne _ (by decide), field_put_self]
  · have kept : field (metadata.fields.filter fun entry => !isInline entry.1) "command" =
        metadata.field "command" := by
      unfold field
      rw [get?_filterKeys _ (fun name => !isInline name), if_pos (by decide)]
      rfl
    rw [field_put_of_ne _ (by decide), field_put_of_ne _ (by decide), kept]
    exact migrateStepMetadata_command stepIndex step
  · intro entry member
    rcases mem_put member with rfl | member
    · exact (by decide : isInline "params" = false)
    rcases mem_put member with rfl | member
    · exact (by decide : isInline "tool" = false)
    · simpa using (List.mem_filter.mp member).2

/-- A step whose tool is no text keeps everything but its command and description. -/
theorem migrateStepFields_noTool (step : Migration) (tool : (toolOf step.fields).text? = none) :
    Settled (migrateStepFields again later) (migrateStepFields stepIndex context step).fields := by
  have stage := migrateStepMetadata_tool stepIndex step
  have result : migrateStepFields stepIndex context step = migrateStepMetadata stepIndex step := by
    unfold migrateStepFields
    dsimp only
    rw [stage, tool]
  have description : (field (migrateStepMetadata stepIndex step).fields "description").isUndefined =
      true := by
    rcases migrateStepMetadata_description stepIndex step with highlight | gone
    · rw [tool] at highlight
      cases highlight
    · exact gone
  intro warnings changed
  have metadata := migrateStepMetadata_settled again
    (migrateStepMetadata_command stepIndex step) (Or.inr description) warnings changed
  rw [result]
  unfold migrateStepFields
  dsimp only
  rw [metadata, Migration.field_mk, Migration.field_fields, stage, tool]

/-- A second migration leaves a step alone, unless the step was a tap with two elements. -/
theorem migrateStepFields_settled (step : Migration)
    (once : tapNamesElementTwice step.fields = false) :
    Settled (migrateStepFields again later) (migrateStepFields stepIndex context step).fields := by
  cases tool : (toolOf step.fields).text? with
  | none => exact migrateStepFields_noTool stepIndex again context later step tool
  | some toolName =>
    obtain ⟨params, twice, current⟩ := migrateStepFields_shape stepIndex context step tool
    have settled := migrateToolParams_settled stepIndex again
      (migrateToolName stepIndex toolName context params).2
      (migrateToolName stepIndex toolName context params).1 (by
        intro tap
        have origin := migrateToolName_tap stepIndex context toolName params
        rw [origin.2 tap, twice]
        unfold tapNamesElementTwice at once
        rw [tool] at once
        rcases origin.1.mp tap with rfl | rfl <;> simpa [Bool.and_assoc] using once)
    intro warnings changed
    have unchanged := settled warnings changed
    dsimp only at unchanged
    rw [migrateStepFields_current again later current
      (migrateToolName_again stepIndex again context later toolName params), unchanged,
      put_field current.params (by simp)]

theorem migrateToolParams_tapOn (params : Migration) :
    migrateToolParams stepIndex params "tapOn" = migrateTapParams stepIndex params := by
  simp [migrateToolParams]

/-- A tap with two elements changes again in its second migration. -/
theorem migrateStepFields_again (step : Migration)
    (twice : tapNamesElementTwice step.fields = true) (warnings : List MigrationWarning)
    (changed : Bool) :
    (migrateStepFields again later ⟨(migrateStepFields stepIndex context step).fields, warnings,
        changed⟩).fields ≠ (migrateStepFields stepIndex context step).fields ∧
      (migrateStepFields again later ⟨(migrateStepFields stepIndex context step).fields, warnings,
        changed⟩).changed = true := by
  unfold tapNamesElementTwice at twice
  simp only [Bool.and_assoc, Bool.and_eq_true, Bool.or_eq_true, beq_iff_eq] at twice
  obtain ⟨tap, elements⟩ := twice
  have named : ∃ toolName, (toolOf step.fields).text? = some toolName ∧
      (toolName = "tapOn" ∨ toolName = "tapOnText") := by
    rcases tap with tool | tool
    · exact ⟨_, tool, Or.inl rfl⟩
    · exact ⟨_, tool, Or.inr rfl⟩
  obtain ⟨toolName, tool, tap⟩ := named
  obtain ⟨params, same, current⟩ := migrateStepFields_shape stepIndex context step tool
  have known := migrateToolName_again stepIndex again context later toolName params
  obtain ⟨origin, kept⟩ := migrateToolName_tap stepIndex context toolName params
  have tapOn := origin.mpr tap
  have both : namesElementTwice (migrateToolName stepIndex toolName context params).2.fields =
      true := by
    rw [kept tapOn, same]
    simp [elements]
  rw [tapOn] at current known
  rw [migrateToolParams_tapOn] at current
  obtain ⟨identifier, -⟩ := migrateTapParams_twice stepIndex _ both
  obtain ⟨gone, marked⟩ := migrateTapParams_again stepIndex again _ both warnings changed
  rw [migrateStepFields_current again later current known]
  simp only [migrateToolParams_tapOn]
  refine ⟨fun equal => ?_, marked⟩
  have objects := congrArg (fun fields => (field fields "params").member "id") equal
  simp only [field_put_self, current.params, Value.member] at objects
  change (migrateTapParams again _).field "id" = (migrateTapParams stepIndex _).field "id" at objects
  rw [← objects, gone] at identifier
  cases identifier

end Step

end AutoMobile.PlanMigrator
