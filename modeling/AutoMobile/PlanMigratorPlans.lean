import AutoMobile.PlanMigratorIdempotence

/- Migrating a whole plan twice: its own fields are done after one pass, and so is each of its
steps but a tap that named its element twice. -/
namespace AutoMobile.PlanMigrator

open InsertionMap List ScriptValue

section PlanFields

/-- The rules write no other fields than these, of the plan and of its metadata. -/
structure Keeps (planKeys metadataKeys : List String) (before after : Migration) : Prop where
  plan : ∀ key, key ∉ planKeys → key ≠ "metadata" → after.field key = before.field key
  metadata : ∀ key, key ∉ metadataKeys →
    field (metadataOf after) key = field (metadataOf before) key
  record : (before.field "metadata").isRecord = true → (after.field "metadata").isRecord = true

variable {planKeys metadataKeys : List String} (plan : Migration) {key source target : String}
  (message : String)

theorem Keeps.refl : Keeps planKeys metadataKeys plan plan :=
  ⟨fun _ _ _ => rfl, fun _ _ => rfl, fun record => record⟩

variable {first second : Migration}

theorem Keeps.trans {third : Migration} {morePlan moreMetadata : List String}
    (one : Keeps planKeys metadataKeys first second)
    (two : Keeps morePlan moreMetadata second third) :
    Keeps (planKeys ++ morePlan) (metadataKeys ++ moreMetadata) first third := by
  refine ⟨fun name outside proper => ?_, fun name outside => ?_,
    fun record => two.record (one.record record)⟩
  · rw [mem_append, not_or] at outside
    rw [two.plan name outside.2 proper, one.plan name outside.1 proper]
  · rw [mem_append, not_or] at outside
    rw [two.metadata name outside.2, one.metadata name outside.1]

@[simp] theorem metadataOf_setMetadata (metadata : Fields) :
    metadataOf (setMetadata plan metadata) = metadata := by
  simp [metadataOf, setMetadata, Value.object?]

theorem keeps_report (index : Option Nat) :
    Keeps [] [] plan ((plan.recordWarning message index).markChanged) :=
  ⟨fun _ _ _ => rfl, fun _ _ => rfl, fun record => record⟩

theorem keeps_set (proper : key ≠ "metadata") (value : Value) :
    Keeps [key] [] plan (plan.set key value) := by
  refine ⟨fun name outside _ => ?_, fun name _ => ?_, fun record => ?_⟩
  · rw [Migration.field_set, if_neg (fun same => outside (by simp [same]))]
  · rw [metadataOf, Migration.field_set, if_neg proper, metadataOf]
  · rw [Migration.field_set, if_neg proper]
    exact record

theorem keeps_delete (proper : key ≠ "metadata") : Keeps [key] [] plan (plan.delete key) := by
  refine ⟨fun name outside _ => ?_, fun name _ => ?_, fun record => ?_⟩
  · rw [Migration.field_delete, if_neg (fun same => outside (by simp [same]))]
  · rw [metadataOf, Migration.field_delete, if_neg proper, metadataOf]
  · rw [Migration.field_delete, if_neg proper]
    exact record

theorem keeps_setMetadata (written : List String) {metadata : Fields}
    (rest : ∀ name, name ∉ written → field metadata name = field (metadataOf plan) name) :
    Keeps [] written plan (setMetadata plan metadata) := by
  refine ⟨fun name _ proper => ?_, fun name outside => ?_, fun _ => ?_⟩
  · rw [setMetadata, Migration.field_set, if_neg proper.symm]
  · rw [metadataOf_setMetadata]
    exact rest name outside
  · rw [setMetadata, Migration.field_set_self]
    rfl

theorem keeps_dropField (proper : key ≠ "metadata") (index : Option Nat) :
    Keeps [key] [] plan (plan.dropField key message index) := by
  unfold Migration.dropField
  split
  · exact Keeps.refl plan
  · exact (keeps_delete plan proper).trans (keeps_report _ message index)

/-- Whether a text of the metadata is due to move to the plan. -/
def pendingMove (plan : Migration) (key : String) : Bool :=
  !(plan.field key).truthy && (field (metadataOf plan) key).isText

theorem moveFromMetadata_stays (stays : pendingMove plan key = false) :
    moveFromMetadata plan key message = plan := by
  unfold pendingMove at stays
  unfold moveFromMetadata
  dsimp only
  rw [stays]
  rfl

theorem keeps_moveFromMetadata (proper : key ≠ "metadata") :
    Keeps [key] [key] plan (moveFromMetadata plan key message) := by
  unfold moveFromMetadata
  dsimp only
  split
  · refine ((keeps_set plan proper _).trans (keeps_setMetadata _ [key]
      fun name outside => ?_)).trans (keeps_report _ message none)
    rw [(keeps_set plan proper _).metadata name (by simp)]
    exact field_erase_of_ne _ (fun same => outside (by simp [same]))
  · exact Keeps.refl plan

theorem moveFromMetadata_done (plan : Migration) :
    pendingMove (moveFromMetadata plan key message) key = false := by
  unfold moveFromMetadata
  dsimp only
  split
  · unfold pendingMove
    change (_ && (field (metadataOf (setMetadata _ _)) key).isText) = false
    rw [metadataOf_setMetadata, field_erase_self, Value.isText_undefined, Bool.and_false]
  · rename_i stays
    exact Bool.eq_false_iff.mpr stays

theorem keeps_copyToMetadata : Keeps [] [target] plan
    (copyToMetadata plan source target message) := by
  unfold copyToMetadata
  dsimp only
  split
  · exact (keeps_setMetadata plan [target] fun name outside =>
      field_put_of_ne _ (fun same => outside (by simp [same])) _).trans
        (keeps_report _ message none)
  · exact Keeps.refl plan

theorem copyToMetadata_stays (gone : (plan.field source).isUndefined = true) :
    copyToMetadata plan source target message = plan := by
  unfold copyToMetadata
  dsimp only
  rw [Value.eq_undefined gone, Value.isText_undefined, Bool.false_and]
  rfl

theorem keeps_defaultMetadata (text : String) : Keeps [] [key] plan
    (defaultMetadata plan key text message) := by
  unfold defaultMetadata
  dsimp only
  split
  · exact Keeps.refl plan
  · exact (keeps_setMetadata plan [key] fun name outside =>
      field_put_of_ne _ (fun same => outside (by simp [same])) _).trans
        (keeps_report _ message none)

theorem defaultMetadata_done {text : String} (proper : text ≠ "") :
    (field (metadataOf (defaultMetadata plan key text message)) key).truthy = true := by
  unfold defaultMetadata
  dsimp only
  split
  · assumption
  · change (field (metadataOf (setMetadata _ _)) key).truthy = true
    rw [metadataOf_setMetadata, field_put_self]
    simpa [Value.truthy] using proper

theorem defaultMetadata_stays {text : String}
    (present : (field (metadataOf plan) key).truthy = true) :
    defaultMetadata plan key text message = plan := by
  unfold defaultMetadata
  dsimp only
  rw [if_pos present]

theorem ensureMetadata_record : ((ensureMetadata plan).field "metadata").isRecord = true := by
  unfold ensureMetadata
  split
  · assumption
  · dsimp only
    rw [setMetadata, Migration.field_set_self]
    rfl

/-- Whether the old name of the plan is due to become its name. -/
def pendingName (plan : Migration) : Bool :=
  !(plan.field "name").truthy && (plan.field "planName").isText

/-- The shape of a plan after migration: nothing is left to move, and all defaults are there. -/
structure CurrentPlan (plan : Migration) : Prop where
  record : (plan.field "metadata").isRecord = true
  planName : pendingName plan = false
  name : pendingMove plan "name" = false
  description : pendingMove plan "description" = false
  generated : (plan.field "generated").isUndefined = true
  appId : (plan.field "appId").isUndefined = true
  mcpMove : pendingMove plan "mcpVersion" = false
  mcpText : (plan.field "mcpVersion").isText = true
  mcpVersion : (plan.field "mcpVersion").truthy = true
  createdAt : (field (metadataOf plan) "createdAt").truthy = true
  version : (field (metadataOf plan) "version").truthy = true

theorem pendingMove_congr (key : String) (own : first.field key = second.field key)
    (theirs : field (metadataOf first) key = field (metadataOf second) key) :
    pendingMove first key = pendingMove second key := by
  rw [pendingMove, own, theirs, pendingMove]

/-- Nothing of the current shape depends on the steps. -/
theorem CurrentPlan.of_keeps (current : CurrentPlan first)
    (keeps : Keeps ["steps"] [] first second) : CurrentPlan second := by
  have own (key : String) (other : key ∉ ["steps", "metadata"]) :
      second.field key = first.field key := by
    simp only [mem_cons, not_mem_nil, or_false, not_or] at other
    exact keeps.plan key (by simpa using other.1) other.2
  have theirs (key : String) : field (metadataOf second) key = field (metadataOf first) key :=
    keeps.metadata key (by simp)
  have moves (key : String) (other : key ∉ ["steps", "metadata"]) :
      pendingMove second key = pendingMove first key :=
    pendingMove_congr key (own key other) (theirs key)
  refine ⟨keeps.record current.record, ?_, ?_, ?_, ?_, ?_, ?_, ?_, ?_, ?_, ?_⟩
  · rw [pendingName, own _ (by decide), own _ (by decide)]
    exact current.planName
  · rw [moves _ (by decide)]
    exact current.name
  · rw [moves _ (by decide)]
    exact current.description
  · rw [own _ (by decide)]
    exact current.generated
  · rw [own _ (by decide)]
    exact current.appId
  · rw [moves _ (by decide)]
    exact current.mcpMove
  · rw [own _ (by decide)]
    exact current.mcpText
  · rw [own _ (by decide)]
    exact current.mcpVersion
  · rw [theirs]
    exact current.createdAt
  · rw [theirs]
    exact current.version

/-- The plan's own rules change nothing of a plan of the current shape. -/
theorem CurrentPlan.unchanged {plan : Migration} (current : CurrentPlan plan) (now : IsoTime) :
    migratePlanFields now plan = plan := by
  have ensured : ensureMetadata plan = plan := by rw [ensureMetadata, if_pos current.record]
  have identity : migratePlanIdentity plan = plan := by
    have name := current.planName
    unfold pendingName at name
    unfold migratePlanIdentity
    rw [name]
    dsimp only
    rw [if_neg (by simp), moveFromMetadata_stays plan _ current.name,
      moveFromMetadata_stays plan _ current.description]
  have legacy : migrateLegacyPlanMetadata plan = plan := by
    unfold migrateLegacyPlanMetadata
    dsimp only
    rw [copyToMetadata_stays plan _ current.generated, dropField_stays current.generated,
      copyToMetadata_stays plan _ current.appId, dropField_stays current.appId]
  have versions : migratePlanVersionMetadata now plan = plan := by
    unfold migratePlanVersionMetadata
    dsimp only
    rw [moveFromMetadata_stays plan _ current.mcpMove, current.mcpText, current.mcpVersion,
      if_neg (by simp), defaultMetadata_stays plan _ current.createdAt,
      defaultMetadata_stays plan _ current.version]
  unfold migratePlanFields
  dsimp only
  rw [ensured, identity, legacy, versions]

/-- Take the old name of the plan over. -/
def renamePlanName (plan : Migration) : Migration :=
  if !(plan.field "name").truthy && (plan.field "planName").isText then
    (((plan.set "name" (plan.field "planName")).delete "planName").recordWarning
      "Renamed planName to name." none).markChanged
  else plan

theorem migratePlanIdentity_eq : migratePlanIdentity plan =
    moveFromMetadata (moveFromMetadata (renamePlanName plan) "name"
      "Moved metadata.name to plan name.") "description"
      "Moved metadata.description to plan description." := rfl

theorem keeps_renamePlanName : Keeps ["name", "planName"] [] plan (renamePlanName plan) := by
  unfold renamePlanName
  split
  · exact ((keeps_set plan (by decide) _).trans (keeps_delete _ (by decide))).trans
      (keeps_report _ _ none)
  · exact Keeps.refl plan

theorem renamePlanName_done : pendingName (renamePlanName plan) = false := by
  unfold renamePlanName
  split
  · simp [pendingName]
  · rename_i stays
    exact Bool.eq_false_iff.mpr stays

/-- A name from the metadata comes only where no old name is left. -/
theorem pendingName_moveFromMetadata (done : pendingName plan = false) :
    pendingName (moveFromMetadata plan "name" message) = false := by
  cases pending : pendingMove plan "name" with
  | false =>
    rw [moveFromMetadata_stays plan message pending]
    exact done
  | true =>
    have nameless : (plan.field "name").truthy = false := by
      unfold pendingMove at pending
      rw [Bool.and_eq_true] at pending
      simpa using pending.1
    rw [pendingName, nameless] at done
    rw [pendingName, (keeps_moveFromMetadata plan message (by decide)).plan "planName" (by decide)
      (by decide)]
    rw [Bool.not_false, Bool.true_and] at done
    rw [done, Bool.and_false]

/-- The names are in place after the first rules. -/
theorem migratePlanIdentity_done (record : (plan.field "metadata").isRecord = true) :
    ((migratePlanIdentity plan).field "metadata").isRecord = true ∧
      pendingName (migratePlanIdentity plan) = false ∧
      pendingMove (migratePlanIdentity plan) "name" = false ∧
      pendingMove (migratePlanIdentity plan) "description" = false := by
  rw [migratePlanIdentity_eq]
  have named := pendingName_moveFromMetadata _ "Moved metadata.name to plan name."
    (renamePlanName_done plan)
  have moved : pendingMove (moveFromMetadata (renamePlanName plan) "name"
      "Moved metadata.name to plan name.") "name" = false := moveFromMetadata_done _ _
  have keeps : Keeps ["name"] ["name"] (renamePlanName plan) (moveFromMetadata
      (renamePlanName plan) "name" "Moved metadata.name to plan name.") :=
    keeps_moveFromMetadata _ _ (by decide)
  have kept := keeps.record ((keeps_renamePlanName plan).record record)
  generalize moveFromMetadata (renamePlanName plan) "name" "Moved metadata.name to plan name." =
    second at named moved kept ⊢
  have last : Keeps ["description"] ["description"] second (moveFromMetadata second "description"
      "Moved metadata.description to plan description.") := keeps_moveFromMetadata _ _ (by decide)
  refine ⟨last.record kept, ?_, ?_, moveFromMetadata_done _ _⟩
  · rw [pendingName, last.plan _ (by decide) (by decide), last.plan _ (by decide) (by decide)]
    exact named
  · rw [pendingMove_congr "name" (last.plan _ (by decide) (by decide))
      (last.metadata _ (by decide))]
    exact moved

theorem keeps_migrateLegacyPlanMetadata :
    Keeps ["generated", "appId"] ["createdAt", "appId"] plan (migrateLegacyPlanMetadata plan) :=
  (((keeps_copyToMetadata plan _).trans (keeps_dropField _ _ (by decide) none)).trans
    (keeps_copyToMetadata _ _)).trans (keeps_dropField _ _ (by decide) none)

theorem migrateLegacyPlanMetadata_done :
    ((migrateLegacyPlanMetadata plan).field "generated").isUndefined = true ∧
      ((migrateLegacyPlanMetadata plan).field "appId").isUndefined = true := by
  unfold migrateLegacyPlanMetadata
  dsimp only
  constructor
  · rw [field_dropField, if_neg (by decide),
      (keeps_copyToMetadata _ _).plan "generated" (by decide) (by decide), field_dropField,
      if_pos rfl]
    rfl
  · rw [field_dropField, if_pos rfl]
    rfl

/-- The version of the plan's own, or the one it is given. -/
def defaultMcpVersion (plan : Migration) : Migration :=
  if !(plan.field "mcpVersion").isText || !(plan.field "mcpVersion").truthy then
    ((plan.set "mcpVersion" (.text "unknown")).recordWarning
      "Defaulted missing mcpVersion to \"unknown\"." none).markChanged
  else plan

theorem keeps_defaultMcpVersion : Keeps ["mcpVersion"] [] plan (defaultMcpVersion plan) := by
  unfold defaultMcpVersion
  split
  · exact (keeps_set plan (by decide) _).trans (keeps_report _ _ none)
  · exact Keeps.refl plan

theorem defaultMcpVersion_done : ((defaultMcpVersion plan).field "mcpVersion").isText = true ∧
      ((defaultMcpVersion plan).field "mcpVersion").truthy = true := by
  unfold defaultMcpVersion
  split
  · simp [Value.truthy]
  · rename_i present
    simpa using present

theorem migratePlanVersionMetadata_eq (now : IsoTime) : migratePlanVersionMetadata now plan =
    defaultMetadata (defaultMetadata (defaultMcpVersion (moveFromMetadata plan "mcpVersion"
      "Moved metadata.mcpVersion to top-level mcpVersion.")) "createdAt" now.val
      "Defaulted missing metadata.createdAt.") "version" "1.0.0"
      "Defaulted missing metadata.version to 1.0.0." := rfl

theorem keeps_migratePlanVersionMetadata (now : IsoTime) :
    Keeps ["mcpVersion", "mcpVersion"] ["mcpVersion", "createdAt", "version"] plan
      (migratePlanVersionMetadata now plan) :=
  (((keeps_moveFromMetadata plan _ (by decide)).trans (keeps_defaultMcpVersion _)).trans
    (keeps_defaultMetadata _ _ _)).trans (keeps_defaultMetadata _ _ _)

theorem migratePlanVersionMetadata_done (now : IsoTime) :
    ((migratePlanVersionMetadata now plan).field "mcpVersion").isText = true ∧
      ((migratePlanVersionMetadata now plan).field "mcpVersion").truthy = true ∧
      (field (metadataOf (migratePlanVersionMetadata now plan)) "createdAt").truthy = true ∧
      (field (metadataOf (migratePlanVersionMetadata now plan)) "version").truthy = true := by
  rw [migratePlanVersionMetadata_eq]
  generalize moveFromMetadata plan "mcpVersion"
    "Moved metadata.mcpVersion to top-level mcpVersion." = moved
  obtain ⟨text, present⟩ := defaultMcpVersion_done moved
  refine ⟨?_, ?_, ?_, defaultMetadata_done _ _ (by decide)⟩
  · rw [(keeps_defaultMetadata _ _ _).plan _ (by decide) (by decide),
      (keeps_defaultMetadata _ _ _).plan _ (by decide) (by decide)]
    exact text
  · rw [(keeps_defaultMetadata _ _ _).plan _ (by decide) (by decide),
      (keeps_defaultMetadata _ _ _).plan _ (by decide) (by decide)]
    exact present
  · rw [(keeps_defaultMetadata _ _ _).metadata _ (by decide)]
    exact defaultMetadata_done _ _ now.property

/-- A plan comes out of its own rules in the current shape. -/
theorem migratePlanFields_current (now : IsoTime) : CurrentPlan (migratePlanFields now plan) := by
  obtain ⟨record, planName, name, description⟩ :=
    migratePlanIdentity_done _ (ensureMetadata_record plan)
  unfold migratePlanFields
  dsimp only
  generalize migratePlanIdentity (ensureMetadata plan) = first at record planName name description ⊢
  have legacy := keeps_migrateLegacyPlanMetadata first
  obtain ⟨generated, appId⟩ := migrateLegacyPlanMetadata_done first
  generalize migrateLegacyPlanMetadata first = second at legacy generated appId ⊢
  have versions := keeps_migratePlanVersionMetadata second now
  obtain ⟨text, present, createdAt, version⟩ := migratePlanVersionMetadata_done second now
  generalize migratePlanVersionMetadata now second = third
    at versions text present createdAt version ⊢
  have rest := legacy.trans versions
  refine ⟨rest.record record, ?_, ?_, ?_, ?_, ?_, ?_, text, present, createdAt, version⟩
  · rw [pendingName, rest.plan _ (by decide) (by decide), rest.plan _ (by decide) (by decide)]
    exact planName
  · rw [pendingMove_congr "name" (rest.plan _ (by decide) (by decide))
      (rest.metadata _ (by decide))]
    exact name
  · rw [pendingMove_congr "description" (rest.plan _ (by decide) (by decide))
      (rest.metadata _ (by decide))]
    exact description
  · rw [versions.plan _ (by decide) (by decide)]
    exact generated
  · rw [versions.plan _ (by decide) (by decide)]
    exact appId
  · rw [pendingMove, present, Bool.not_true, Bool.false_and]

/-- Of the plan's own fields only those of older shapes change. -/
theorem migratePlanFields_steps (now : IsoTime) :
    (migratePlanFields now plan).field "steps" = plan.field "steps" := by
  have ensured : (ensureMetadata plan).field "steps" = plan.field "steps" := by
    unfold ensureMetadata
    split
    · rfl
    · dsimp only
      rw [setMetadata, Migration.field_set, if_neg (by decide)]
      split <;> rfl
  have identity : Keeps (["name", "planName"] ++ ["name"] ++ ["description"])
      ([] ++ ["name"] ++ ["description"]) (ensureMetadata plan)
      (migratePlanIdentity (ensureMetadata plan)) :=
    ((keeps_renamePlanName _).trans (keeps_moveFromMetadata _ _ (by decide))).trans
      (keeps_moveFromMetadata _ _ (by decide))
  have rest := (identity.trans (keeps_migrateLegacyPlanMetadata _)).trans
    (keeps_migratePlanVersionMetadata _ now)
  rw [← ensured]
  exact rest.plan _ (by decide) (by decide)

end PlanFields

section Steps

def stepNamesElementTwice : Value → Bool
  | .object step => tapNamesElementTwice step
  | _ => false

/-- Some step of the plan is a tap that names its element twice. -/
def planNamesElementTwice (plan : Fields) : Bool :=
  match (field plan "steps").array? with
  | some steps => steps.any stepNamesElementTwice
  | none => false

variable (context later : StepMigrationContext)

theorem migrateSteps_again (steps : List Value) (first second : Nat)
    (warnings more : List MigrationWarning) :
    if steps.any stepNamesElementTwice then
      (migrateSteps later second (migrateSteps context first steps warnings).1 more).2.2 = true
    else migrateSteps later second (migrateSteps context first steps warnings).1 more =
      ((migrateSteps context first steps warnings).1, more, false) := by
  induction steps generalizing first second warnings more with
  | nil => rfl
  | cons step rest ih =>
    cases step with
    | object fields =>
      set migrated := migrateStepFields first context ⟨fields, warnings, false⟩ with migrated_def
      have tail := ih (first + 1) (second + 1) migrated.warnings
        (migrateStepFields second later ⟨migrated.fields, more, false⟩).warnings
      cases twice : tapNamesElementTwice fields with
      | true =>
        have marked := (migrateStepFields_again first second context later
          ⟨fields, warnings, false⟩ twice more false).2
        simp only [any_cons, stepNamesElementTwice, twice, Bool.true_or, if_true]
        simp only [migrateSteps]
        rw [marked, Bool.true_or]
      | false =>
        have settled := migrateStepFields_settled first second context later
          ⟨fields, warnings, false⟩ twice more false
        rw [← migrated_def] at settled
        rw [settled] at tail
        simp only [any_cons, stepNamesElementTwice, twice, Bool.false_or]
        simp only [migrateSteps, ← migrated_def, settled]
        split at tail
        · rename_i other
          rw [if_pos other, tail]
          rfl
        · rename_i other
          rw [if_neg other, tail]
          rfl
    | _ =>
      have tail := ih (first + 1) (second + 1) warnings more
      simp only [any_cons, stepNamesElementTwice, Bool.false_or, migrateSteps]
      split at tail
      · rename_i other
        rw [if_pos other]
        exact tail
      · rename_i other
        rw [if_neg other, tail]

end Steps

section Whole

variable (targetVersion : String) (now later : IsoTime) (options again : PlanMigrationOptions)

/-- What a report says when the plan was in the current shape. -/
structure PlanMigrationReport.NothingMigrated (report : PlanMigrationReport) : Prop where
  migrated : report.migrated = false
  appliedMigrations : report.appliedMigrations = []
  warnings : report.warnings = []

theorem migratePlan_noSteps {plan : Fields} {first : Migration}
    (migrates : migratePlanFields now { fields := plan } = first)
    (none : (first.field "steps").array? = none) :
    ∃ report, migratePlan targetVersion now (.object plan) options = .ok (first.fields, report) ∧
      (first.changed = false → first.warnings = [] → report.NothingMigrated) := by
  unfold migratePlan
  dsimp only
  rw [migrates, none]
  refine ⟨_, rfl, fun unchanged silent => ⟨unchanged, ?_, silent⟩⟩
  simp [unchanged]

theorem migratePlan_steps {plan : Fields} {first : Migration}
    (migrates : migratePlanFields now { fields := plan } = first) {steps : List Value}
    (some : (first.field "steps").array? = some steps) :
    ∃ context report, migratePlan targetVersion now (.object plan) options =
        .ok (put first.fields "steps"
          (.array (migrateSteps context 0 steps first.warnings).1), report) ∧
      ((migrateSteps context 0 steps first.warnings).2.2 = true → report.migrated = true) ∧
      (first.changed = false → (migrateSteps context 0 steps first.warnings).2 = ([], false) →
        report.NothingMigrated) := by
  refine ⟨⟨first.field "platform", first.field "devices", options.platform⟩, ?_⟩
  unfold migratePlan
  dsimp only
  rw [migrates, some]
  refine ⟨_, rfl, fun changed => ?_, fun unchanged silent => ?_⟩
  · simp [changed]
  · constructor <;> simp [unchanged, silent]

/-- A migrated plan is migrated to itself, unless a step of it named its element twice. -/
theorem migratePlan_again (plan : Fields) : ∃ migrated report second secondReport,
      migratePlan targetVersion now (.object plan) options = .ok (migrated, report) ∧
      migratePlan targetVersion later (.object migrated) again = .ok (second, secondReport) ∧
      if planNamesElementTwice plan then secondReport.migrated = true
      else second = migrated ∧ secondReport.NothingMigrated := by
  obtain ⟨first, migrates⟩ : ∃ first, migratePlanFields now { fields := plan } = first := ⟨_, rfl⟩
  have current : CurrentPlan first := migrates ▸ migratePlanFields_current { fields := plan } now
  have same : first.field "steps" = field plan "steps" :=
    migrates ▸ migratePlanFields_steps { fields := plan } now
  unfold planNamesElementTwice
  rw [← same]
  cases held : (first.field "steps").array? with
  | none =>
    have keeps : Keeps ["steps"] [] first { fields := first.fields } :=
      ⟨fun _ _ _ => rfl, fun _ _ => rfl, fun record => record⟩
    have settled := (current.of_keeps keeps).unchanged later
    obtain ⟨report, result, -⟩ := migratePlan_noSteps targetVersion now options migrates held
    obtain ⟨secondReport, secondResult, nothing⟩ :=
      migratePlan_noSteps targetVersion later again settled held
    refine ⟨_, _, _, _, result, secondResult, ?_⟩
    rw [if_neg (by simp)]
    exact ⟨rfl, nothing rfl rfl⟩
  | some steps =>
    obtain ⟨context, report, result, -⟩ := migratePlan_steps targetVersion now options migrates held
    set done := (migrateSteps context 0 steps first.warnings).1 with done_def
    have keeps : Keeps ["steps"] [] first (first.set "steps" (.array done)) :=
      keeps_set first (by decide) (.array done)
    have bare : Keeps [] [] (first.set "steps" (.array done))
        { fields := put first.fields "steps" (.array done) } :=
      ⟨fun _ _ _ => rfl, fun _ _ => rfl, fun record => record⟩
    have settled := (current.of_keeps (keeps.trans bare)).unchanged later
    have written : ((⟨put first.fields "steps" (.array done), [], false⟩ : Migration).field
        "steps").array? = some done := by
      rw [Migration.field_mk, field_put_self]
      rfl
    obtain ⟨context', secondReport, secondResult, changes, nothing⟩ :=
      migratePlan_steps targetVersion later again settled written
    have twice := migrateSteps_again context context' steps 0 0 first.warnings []
    refine ⟨_, _, _, _, result, secondResult, ?_⟩
    dsimp only
    rw [← done_def] at twice
    split at twice
    · rename_i named
      rw [if_pos named]
      exact changes twice
    · rename_i named
      rw [if_neg named, twice]
      refine ⟨put_field (field_put_self _ _ _) (by simp), nothing rfl ?_⟩
      rw [twice]

/-- Migrating again changes nothing, of a plan as of a single step, exactly when no tap names its
element both in `elementId` and in `id` without a selector. -/
theorem migration_idempotent_iff : (∀ plan : Fields, ∃ migrated report second secondReport,
      migratePlan targetVersion now (.object plan) options = .ok (migrated, report) ∧
      migratePlan targetVersion later (.object migrated) again = .ok (second, secondReport) ∧
      ((second = migrated ∧ secondReport.NothingMigrated) ↔ planNamesElementTwice plan = false)) ∧
    ∀ (step : Value) (first second : Nat),
      migratePlanStep (migratePlanStep step first options) second again =
          migratePlanStep step first options ↔
        stepNamesElementTwice step = false := by
  refine ⟨fun plan => ?_, fun step first second => ?_⟩
  · obtain ⟨migrated, report, next, nextReport, result, nextResult, outcome⟩ :=
      migratePlan_again targetVersion now later options again plan
    refine ⟨migrated, report, next, nextReport, result, nextResult, ?_⟩
    split at outcome
    · rename_i named
      rw [named]
      exact ⟨fun unchanged => absurd unchanged.2.migrated (by simp [outcome]), fun never => by
        cases never⟩
    · rename_i named
      exact ⟨fun _ => Bool.eq_false_iff.mpr named, fun _ => outcome⟩
  · cases step with
    | object fields =>
      simp only [migratePlanStep, stepNamesElementTwice]
      constructor
      · intro same
        cases twice : tapNamesElementTwice fields with
        | false => rfl
        | true =>
          have changed := (migrateStepFields_again first second
            ⟨options.platform, options.devices, .undefined⟩
            ⟨again.platform, again.devices, .undefined⟩ { fields := fields } twice [] false).1
          exact absurd (Value.object.inj same) changed
      · intro once
        have settled := migrateStepFields_settled first second
          ⟨options.platform, options.devices, .undefined⟩
          ⟨again.platform, again.devices, .undefined⟩ { fields := fields } once [] false
        rw [settled]
    | _ => exact ⟨fun _ => rfl, fun _ => rfl⟩

/-- A tap on `elementId` that also carries an `id` is migrated twice: at first its `elementId`
moves into a selector, and the second time its `id` becomes the `elementId`. -/
theorem tap_with_id_changes_again :
    ¬ ∀ (step : Value) (stepIndex : Nat) (options : PlanMigrationOptions),
      migratePlanStep (migratePlanStep step stepIndex options) stepIndex options =
        migratePlanStep step stepIndex options := by
  intro idempotent
  have same := idempotent (.object [("tool", .text "tapOn"), ("params",
    .object [("action", .text "tap"), ("elementId", .text "login"), ("id", .text "row")])]) 0 {}
  have identifiers := congrArg (fun step => ((step.member "params").member "id").isText) same
  exact absurd identifiers (by decide +kernel)

end Whole

end AutoMobile.PlanMigrator
