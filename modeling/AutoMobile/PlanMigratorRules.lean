import AutoMobile.PlanMigrator

/- What each migration rule leaves behind: nothing that the rule itself would change again. -/
namespace AutoMobile.PlanMigrator

open InsertionMap ScriptValue

namespace Migration

variable (migration : Migration) (key other message : String) (value : Value)
  (stepIndex : Option Nat)

@[simp] theorem field_set_self : (migration.set key value).field key = value := field_put_self _ _ _

@[simp] theorem field_set :
    (migration.set key value).field other = if key = other then value else migration.field other :=
  field_put _ _ _ _

@[simp] theorem field_delete : (migration.delete key).field other =
    if key = other then .undefined else migration.field other :=
  field_erase _ _ _

@[simp] theorem field_recordWarning :
    (migration.recordWarning message stepIndex).field key = migration.field key := rfl

@[simp] theorem field_markChanged : migration.markChanged.field key = migration.field key := rfl

@[simp] theorem markChanged_changed : migration.markChanged.changed = true := rfl

/-- Neither the warnings nor the mark decide what a rule reads. -/
@[simp] theorem field_mk (fields : Fields) (warnings : List MigrationWarning) (changed : Bool) :
    (⟨fields, warnings, changed⟩ : Migration).field key = ScriptValue.field fields key := rfl

theorem field_fields : ScriptValue.field migration.fields key = migration.field key := rfl

end Migration

/-- On these fields the rules change nothing, warn of nothing and mark nothing. -/
def Settled (rules : Migration → Migration) (fields : Fields) : Prop :=
  ∀ warnings changed, rules ⟨fields, warnings, changed⟩ = ⟨fields, warnings, changed⟩

theorem Settled.comp {first second : Migration → Migration} {fields : Fields}
    (before : Settled first fields) (after : Settled second fields) :
    Settled (fun migration => second (first migration)) fields := by
  intro warnings changed
  change second (first _) = _
  rw [before, after]

section Renames

variable {source target message : String} {stepIndex : Nat}

/-- Whether the text of one field goes to the other. -/
def renames (fields : Fields) (source target : String) : Bool :=
  (field fields target).isUndefined && (field fields source).isText

theorem renameText_settled {fields : Fields} (done : renames fields source target = false) :
    Settled (fun migration => migration.renameText source target message stepIndex) fields := by
  intro warnings changed
  unfold renames at done
  simp [Migration.renameText, done]

/-- After the rule its target is a text, or it had nothing to move. -/
theorem renameText_target (migration : Migration) (apart : source ≠ target) :
    ((migration.renameText source target message stepIndex).field target).isText = true ∨
      (migration.renameText source target message stepIndex = migration ∧
        renames migration.fields source target = false) := by
  unfold Migration.renameText
  split
  · rename_i moves
    rw [Bool.and_eq_true] at moves
    left
    simpa [apart] using moves.2
  · rename_i stays
    exact Or.inr ⟨rfl, Bool.eq_false_iff.mpr stays⟩

theorem renames_of_isText {fields : Fields} (held : (field fields target).isText = true) :
    renames fields source target = false := by
  rw [renames, Value.isUndefined_of_isText held, Bool.false_and]

theorem renames_renameText (migration : Migration) (apart : source ≠ target) :
    renames (migration.renameText source target message stepIndex).fields source target =
      false := by
  rcases renameText_target migration apart with held | ⟨same, done⟩
  · exact renames_of_isText held
  · rw [same]
    exact done

theorem dropField_settled {fields : Fields} {key : String} {index : Option Nat}
    (gone : (field fields key).isUndefined = true) :
    Settled (fun migration => migration.dropField key message index) fields := by
  intro warnings changed
  simp [Migration.dropField, gone]

theorem dropField_stays {migration : Migration} {key : String} {index : Option Nat}
    (gone : (migration.field key).isUndefined = true) :
    migration.dropField key message index = migration := by
  rw [Migration.dropField, if_pos gone]

theorem field_dropField (migration : Migration) (key other : String) (index : Option Nat) :
    (migration.dropField key message index).field other =
      if key = other then .undefined else migration.field other := by
  unfold Migration.dropField
  split
  · rename_i gone
    split
    · rename_i same
      subst same
      exact Value.eq_undefined gone
    · rfl
  · simp

end Renames

section Params

variable (stepIndex again : Nat) (params : Migration)

theorem migrateAppParams_settled :
    Settled (migrateAppParams again) (migrateAppParams stepIndex params).fields := by
  have apart : "packageName" ≠ "appId" ∧ "bundleId" ≠ "appId" := by decide
  unfold migrateAppParams
  refine Settled.comp (renameText_settled ?_) (renameText_settled (renames_renameText _ apart.2))
  let renamed := params.renameText "packageName" "appId" "Renamed packageName to appId." stepIndex
  have first : renames renamed.fields "packageName" "appId" = false :=
    renames_renameText params apart.1
  let moved := renamed.renameText "bundleId" "appId" "Renamed bundleId to appId." stepIndex
  have second : (moved.field "appId").isText = true ∨
      (moved = renamed ∧ renames renamed.fields "bundleId" "appId" = false) :=
    renameText_target renamed apart.2
  change renames moved.fields "packageName" "appId" = false
  rcases second with held | ⟨same, -⟩
  · exact renames_of_isText held
  · rw [same]
    exact first

section Tap

/-- A tap that names its element twice, in `elementId` and in `id`, and has no selector. -/
def namesElementTwice (fields : Fields) : Bool :=
  (field fields "elementId").isText && (field fields "id").isText &&
    !(field fields "selector").isRecord

theorem defaultTapAction_action :
    ((defaultTapAction stepIndex params).field "action").truthy = true := by
  unfold defaultTapAction
  split
  · assumption
  · simp only [Migration.field_markChanged, Migration.field_recordWarning, Migration.field_set_self]
    cases hasDuration params <;> decide

theorem defaultTapAction_rest {key : String} (other : "action" ≠ key) :
    (defaultTapAction stepIndex params).field key = params.field key := by
  unfold defaultTapAction
  split
  · rfl
  · simp [other]

theorem defaultTapAction_settled {fields : Fields}
    (present : (field fields "action").truthy = true) :
    Settled (defaultTapAction stepIndex) fields := by
  intro warnings changed
  simp [defaultTapAction, present]

variable {key other : String} {legacy : Value → Bool} (tap : Fields × Migration)

theorem moveToSelector_rest (apart : key ≠ other) :
    (moveToSelector key legacy tap).2.field other = tap.2.field other := by
  unfold moveToSelector
  split
  · simp [apart]
  · rfl

/-- The selector is empty only while nothing was moved into it. -/
theorem moveToSelector_nil (empty : (moveToSelector key legacy tap).1 = []) :
    legacy (tap.2.field key) = false ∧ moveToSelector key legacy tap = tap := by
  unfold moveToSelector at empty ⊢
  split
  · rename_i moves
    rw [if_pos moves] at empty
    exact absurd empty (put_ne_nil _ _ _)
  · rename_i stays
    exact ⟨Bool.eq_false_iff.mpr stays, rfl⟩

theorem moveToSelector_stays (stays : legacy (tap.2.field key) = false) :
    moveToSelector key legacy tap = tap := by
  simp [moveToSelector, stays]

/-- No target is left for the selector to take over. -/
structure Bare (fields : Fields) : Prop where
  elementId : (field fields "elementId").isText = false
  text : (field fields "text").isText = false
  textAny : (field fields "textAny").array?.isSome = false

theorem wrapSelector_of_isRecord (given : (params.field "selector").isRecord = true) :
    wrapSelector stepIndex params = params := by
  simp [wrapSelector, given]

theorem wrapSelector_of_bare (bare : Bare params.fields) :
    wrapSelector stepIndex params = params := by
  unfold wrapSelector
  dsimp only
  rw [moveToSelector_stays (_, params) bare.elementId, moveToSelector_stays (_, params) bare.text,
    moveToSelector_stays (_, params) bare.textAny]
  simp

/-- The rule ends with a selector, or it found nothing to wrap. -/
theorem wrapSelector_cases : ((wrapSelector stepIndex params).field "selector").isRecord = true ∨
      (Bare params.fields ∧ wrapSelector stepIndex params = params) := by
  by_cases given : (params.field "selector").isRecord = true
  · left
    rw [wrapSelector_of_isRecord stepIndex params given]
    exact given
  unfold wrapSelector
  rw [if_neg given]
  dsimp only
  split
  · rename_i empty
    obtain ⟨any, sameAny⟩ := moveToSelector_nil _ empty
    rw [sameAny] at empty ⊢
    obtain ⟨text, sameText⟩ := moveToSelector_nil _ empty
    rw [sameText] at empty any ⊢
    obtain ⟨element, sameElement⟩ := moveToSelector_nil _ empty
    rw [sameElement] at text any ⊢
    exact Or.inr ⟨⟨element, text, any⟩, rfl⟩
  · exact Or.inl (by simp)

theorem wrapSelector_rest (element : key ≠ "elementId") (text : key ≠ "text")
    (any : key ≠ "textAny") (selector : key ≠ "selector") :
    (wrapSelector stepIndex params).field key = params.field key := by
  have kept : (moveToSelector "textAny" (fun value => value.array?.isSome)
      (moveToSelector "text" Value.isText
        (moveToSelector "elementId" Value.isText ([], params)))).2.field key =
      params.field key := by
    rw [moveToSelector_rest _ any.symm, moveToSelector_rest _ text.symm,
      moveToSelector_rest _ element.symm]
  unfold wrapSelector
  split
  · rfl
  · dsimp only
    split
    · exact kept
    · simpa [selector.symm] using kept

/-- Without a selector the rule takes the element's identifier over, and nothing else of it. -/
theorem wrapSelector_elementId (without : (params.field "selector").isRecord = false) :
    (wrapSelector stepIndex params).field "elementId" =
      if (params.field "elementId").isText then .undefined else params.field "elementId" := by
  have first : (moveToSelector "elementId" Value.isText ([], params)).2.field "elementId" =
      if (params.field "elementId").isText then .undefined else params.field "elementId" := by
    unfold moveToSelector
    dsimp only
    split <;> simp
  have kept : (moveToSelector "textAny" (fun value => value.array?.isSome)
      (moveToSelector "text" Value.isText
        (moveToSelector "elementId" Value.isText ([], params)))).2.field "elementId" =
      if (params.field "elementId").isText then .undefined else params.field "elementId" := by
    rw [moveToSelector_rest _ (by decide), moveToSelector_rest _ (by decide), first]
  unfold wrapSelector
  rw [if_neg (by simp [without])]
  dsimp only
  split
  · exact kept
  · simpa using kept

theorem wrapSelector_settled {fields : Fields}
    (done : (field fields "selector").isRecord = true ∨ Bare fields) :
    Settled (wrapSelector stepIndex) fields := by
  intro warnings changed
  rcases done with given | bare
  · exact wrapSelector_of_isRecord stepIndex _ given
  · exact wrapSelector_of_bare stepIndex _ bare

theorem wrapSelector_done : ((wrapSelector stepIndex params).field "selector").isRecord = true ∨
      Bare (wrapSelector stepIndex params).fields := by
  rcases wrapSelector_cases stepIndex params with given | ⟨bare, same⟩
  · exact Or.inl given
  · rw [same]
    exact Or.inr bare

theorem defaultTapAction_namesElementTwice :
    namesElementTwice (defaultTapAction stepIndex params).fields =
      namesElementTwice params.fields := by
  unfold namesElementTwice
  simp only [Migration.field_fields]
  rw [defaultTapAction_rest _ _ (by decide), defaultTapAction_rest _ _ (by decide),
    defaultTapAction_rest _ _ (by decide)]

theorem field_renameText (migration : Migration) {source target message : String}
    (index : Nat) (key : String) (other : key ≠ source) (apart : key ≠ target) :
    (migration.renameText source target message index).field key = migration.field key := by
  unfold Migration.renameText
  split
  · simp [other.symm, apart.symm]
  · rfl

/-- A moved identifier is gone, and one that stays has nowhere to go. -/
theorem renames_wrapSelector (once : namesElementTwice params.fields = false) :
    renames (wrapSelector stepIndex
      (params.renameText "id" "elementId" "Renamed id to elementId for tapOn." stepIndex)).fields
      "id" "elementId" = false := by
  unfold renames
  simp only [Migration.field_fields]
  have kept (migration : Migration) :
      (wrapSelector stepIndex migration).field "id" = migration.field "id" :=
    wrapSelector_rest _ _ (by decide) (by decide) (by decide) (by decide)
  rw [kept]
  unfold Migration.renameText
  split
  · -- the identifier has just moved
    simp
  rename_i stays
  cases text : (params.field "id").isText with
  | false => exact Bool.and_false _
  | true =>
    rw [Bool.and_true]
    rw [text, Bool.and_true, Bool.not_eq_true] at stays
    cases given : (params.field "selector").isRecord with
    | true =>
      rw [wrapSelector_of_isRecord stepIndex params given]
      exact stays
    | false =>
      -- the other element is no text, so that the selector leaves it in place
      have apart : (params.field "elementId").isText = false := by
        unfold namesElementTwice at once
        simp only [Migration.field_fields, text, given] at once
        simpa using once
      rw [wrapSelector_elementId stepIndex params given, apart]
      exact stays

/-- The rules leave a tap with an action. -/
theorem migrateTapParams_action :
    Settled (defaultTapAction again) (migrateTapParams stepIndex params).fields := by
  apply defaultTapAction_settled
  unfold migrateTapParams
  rw [Migration.field_fields, wrapSelector_rest _ _ (by decide) (by decide) (by decide)
    (by decide), field_renameText _ _ _ (by decide) (by decide)]
  exact defaultTapAction_action stepIndex params

/-- After the rules a tap has its action, its one element and its selector. -/
theorem migrateTapParams_settled (once : namesElementTwice params.fields = false) :
    Settled (migrateTapParams again) (migrateTapParams stepIndex params).fields := by
  have moving : Settled (fun migration => migration.renameText "id" "elementId"
      "Renamed id to elementId for tapOn." again) (migrateTapParams stepIndex params).fields := by
    apply renameText_settled
    apply renames_wrapSelector
    rw [defaultTapAction_namesElementTwice]
    exact once
  have wrapping : Settled (wrapSelector again) (migrateTapParams stepIndex params).fields :=
    wrapSelector_settled again (wrapSelector_done stepIndex _)
  exact ((migrateTapParams_action stepIndex again params).comp moving).comp wrapping

/-- An element named twice: the rules keep the `id` and move the `elementId` away. -/
theorem migrateTapParams_twice (twice : namesElementTwice params.fields = true) :
    ((migrateTapParams stepIndex params).field "id").isText = true ∧
      ((migrateTapParams stepIndex params).field "elementId").isUndefined = true ∧
      ((migrateTapParams stepIndex params).field "selector").isRecord = true := by
  rw [← defaultTapAction_namesElementTwice stepIndex params] at twice
  unfold migrateTapParams
  dsimp only
  generalize defaultTapAction stepIndex params = acting at twice ⊢
  simp only [namesElementTwice, Migration.field_fields, Bool.and_eq_true,
    Bool.not_eq_true'] at twice
  obtain ⟨⟨element, identifier⟩, without⟩ := twice
  have stays : acting.renameText "id" "elementId" "Renamed id to elementId for tapOn." stepIndex =
      acting := by
    rw [Migration.renameText, Value.isUndefined_of_isText element, Bool.false_and, if_neg (by simp)]
  rw [stays]
  refine ⟨?_, ?_, ?_⟩
  · rw [wrapSelector_rest _ _ (by decide) (by decide) (by decide) (by decide)]
    exact identifier
  · rw [wrapSelector_elementId stepIndex acting without, element, if_pos rfl]
    rfl
  · rcases wrapSelector_cases stepIndex acting with given | ⟨bare, -⟩
    · exact given
    · have none := bare.elementId
      rw [Migration.field_fields, element] at none
      cases none

/-- A second migration takes the `id` that was kept for the element of the tap. -/
theorem migrateTapParams_again (twice : namesElementTwice params.fields = true)
    (warnings : List MigrationWarning) (changed : Bool) :
    (migrateTapParams again ⟨(migrateTapParams stepIndex params).fields, warnings,
        changed⟩).field "id" = .undefined ∧
      (migrateTapParams again ⟨(migrateTapParams stepIndex params).fields, warnings,
        changed⟩).changed = true := by
  have acting := migrateTapParams_action stepIndex again params warnings changed
  obtain ⟨identifier, element, given⟩ := migrateTapParams_twice stepIndex params twice
  generalize migrateTapParams stepIndex params = done at acting identifier element given ⊢
  change ((⟨done.fields, warnings, changed⟩ : Migration).field "id").isText = true at identifier
  change ((⟨done.fields, warnings, changed⟩ : Migration).field "elementId").isUndefined = true
    at element
  change ((⟨done.fields, warnings, changed⟩ : Migration).field "selector").isRecord = true at given
  generalize (⟨done.fields, warnings, changed⟩ : Migration) = second at *
  unfold migrateTapParams
  dsimp only
  rw [acting, Migration.renameText, element, identifier, Bool.and_true, if_pos rfl,
    wrapSelector_of_isRecord]
  · simp
  · simpa using given

end Tap

theorem migrateHighlightParams_settled :
    Settled (migrateHighlightParams again) (migrateHighlightParams stepIndex params).fields := by
  have gone : ((migrateHighlightParams stepIndex params).field "id").isText = false := by
    unfold migrateHighlightParams
    split
    · simp
    · rename_i stays
      exact Bool.eq_false_iff.mpr stays
  intro warnings changed
  rw [migrateHighlightParams, Migration.field_mk, Migration.field_fields, gone]
  rfl

theorem migrateLinkParams_settled :
    Settled (migrateLinkParams again) (migrateLinkParams stepIndex params).fields :=
  renameText_settled (renames_renameText params (by decide))

section Swipe

variable {source target message : String} (swipe : Fields × Migration)

/-- Whether the swipe names a target that its container does not have. -/
def movesToContainer (swipe : Fields × Migration) (source target : String) : Bool :=
  (swipe.2.field source).isText && !(field swipe.1 target).truthy

theorem moveToContainer_stays (stays : movesToContainer swipe source target = false) :
    moveToContainer stepIndex source target message swipe = swipe := by
  unfold movesToContainer at stays
  rw [moveToContainer, stays]
  rfl

/-- After the move the source is gone, or the container has a target of its own. -/
theorem movesToContainer_done :
    movesToContainer (moveToContainer stepIndex source target message swipe) source target =
      false := by
  unfold moveToContainer
  split
  · simp [movesToContainer]
  · rename_i stays
    exact Bool.eq_false_iff.mpr stays

variable {key : String}

theorem moveToContainer_source (apart : source ≠ key) :
    (moveToContainer stepIndex source target message swipe).2.field key = swipe.2.field key := by
  unfold moveToContainer
  split
  · simp [apart]
  · rfl

theorem moveToContainer_target (apart : target ≠ key) :
    field (moveToContainer stepIndex source target message swipe).1 key = field swipe.1 key := by
  unfold moveToContainer
  split
  · exact field_put_of_ne _ apart _
  · rfl

theorem movesToContainer_other {first second : String} (source_apart : source ≠ first)
    (target_apart : target ≠ second) :
    movesToContainer (moveToContainer stepIndex source target message swipe) first second =
      movesToContainer swipe first second := by
  rw [movesToContainer, moveToContainer_source _ _ source_apart,
    moveToContainer_target _ _ target_apart, movesToContainer]

/-- The container that the swipe has now, and the parameters beside it. -/
def swipeOf (params : Migration) : Fields × Migration :=
  (((params.field "container").object?).getD [], params)

/-- Both targets of the swipe moved into its container. -/
def containerMoves (params : Migration) : Fields × Migration :=
  moveToContainer stepIndex "containerText" "text"
    "Renamed containerText to container.text."
    (moveToContainer stepIndex "containerElementId" "elementId"
      "Renamed containerElementId to container.elementId." (swipeOf params))

/-- Put the container back into the parameters. -/
def putContainer (swipe : Fields × Migration) : Migration :=
  if swipe.1 = [] then swipe.2 else swipe.2.set "container" (.object swipe.1)

theorem migrateSwipeParams_eq : migrateSwipeParams stepIndex params =
    (migrateSwipeDuration stepIndex (putContainer (containerMoves stepIndex params))).dropField
      "scrollMode" "Removed deprecated scrollMode field." stepIndex := rfl

theorem putContainer_field (apart : "container" ≠ key) :
    (putContainer swipe).field key = swipe.2.field key := by
  unfold putContainer
  split
  · rfl
  · simp [apart]

theorem migrateSwipeDuration_field (speed : "speed" ≠ key) (duration : "duration" ≠ key) :
    (migrateSwipeDuration stepIndex params).field key = params.field key := by
  unfold migrateSwipeDuration
  split
  · rfl
  · split <;> simp [speed, duration]

theorem migrateSwipeDuration_gone :
    ((migrateSwipeDuration stepIndex params).field "duration").isUndefined = true := by
  unfold migrateSwipeDuration
  split
  · assumption
  · simp

/-- The container of the result is the one that the moves built, or none was built. -/
theorem putContainer_container (built : swipe.1 = [] → (swipe.2.field "container").object?.getD [] =
    []) : ((putContainer swipe).field "container").object?.getD [] = swipe.1 := by
  unfold putContainer
  split
  · rename_i empty
    rw [empty]
    exact built empty
  · simp [Value.object?]

theorem moveToContainer_nil
    (empty : (moveToContainer stepIndex source target message swipe).1 = []) : swipe.1 = [] := by
  unfold moveToContainer at empty
  split at empty
  · exact absurd empty (put_ne_nil _ _ _)
  · exact empty

/-- Putting back the container that is there changes nothing. -/
theorem putContainer_swipeOf : putContainer (swipeOf params) = params := by
  unfold putContainer swipeOf
  dsimp only
  split
  · rfl
  · rename_i filled
    cases held : params.field "container" with
    | object container =>
      have same : put params.fields "container" (.object container) = params.fields :=
        put_field held (by simp)
      simp only [Value.object?, Option.getD_some, Migration.set, same]
    | _ => simp [held, Value.object?] at filled

theorem migrateSwipeParams_field (container : "container" ≠ key) (speed : "speed" ≠ key)
    (duration : "duration" ≠ key) (scrollMode : "scrollMode" ≠ key) :
    (migrateSwipeParams stepIndex params).field key =
      (containerMoves stepIndex params).2.field key := by
  rw [migrateSwipeParams_eq, field_dropField, if_neg scrollMode,
    migrateSwipeDuration_field _ _ speed duration, putContainer_field _ container]

theorem migrateSwipeParams_container :
    ((migrateSwipeParams stepIndex params).field "container").object?.getD [] =
      (containerMoves stepIndex params).1 := by
  rw [migrateSwipeParams_eq, field_dropField, if_neg (by decide),
    migrateSwipeDuration_field _ _ (by decide) (by decide)]
  apply putContainer_container
  intro empty
  unfold containerMoves at empty ⊢
  rw [moveToContainer_source _ _ (by decide), moveToContainer_source _ _ (by decide)]
  exact moveToContainer_nil _ _ (moveToContainer_nil _ _ empty)

/-- No target is left outside the container that the container could take. -/
theorem migrateSwipeParams_moved (warnings : List MigrationWarning) (changed : Bool) :
    containerMoves again ⟨(migrateSwipeParams stepIndex params).fields, warnings, changed⟩ =
      swipeOf ⟨(migrateSwipeParams stepIndex params).fields, warnings, changed⟩ := by
  have reads (source target : String) (container : "container" ≠ source)
      (speed : "speed" ≠ source) (duration : "duration" ≠ source)
      (scrollMode : "scrollMode" ≠ source) :
      movesToContainer
          (swipeOf ⟨(migrateSwipeParams stepIndex params).fields, warnings, changed⟩) source target =
        movesToContainer (containerMoves stepIndex params) source target := by
    unfold movesToContainer swipeOf
    simp only [Migration.field_mk, Migration.field_fields]
    rw [migrateSwipeParams_field _ _ container speed duration scrollMode,
      migrateSwipeParams_container]
  rw [containerMoves, moveToContainer_stays, moveToContainer_stays]
  · rw [reads _ _ (by decide) (by decide) (by decide) (by decide), containerMoves,
      movesToContainer_other _ _ (by decide) (by decide)]
    exact movesToContainer_done _ _
  · rw [moveToContainer_stays]
    · rw [reads _ _ (by decide) (by decide) (by decide) (by decide)]
      exact movesToContainer_done _ _
    · rw [reads _ _ (by decide) (by decide) (by decide) (by decide), containerMoves,
        movesToContainer_other _ _ (by decide) (by decide)]
      exact movesToContainer_done _ _

theorem migrateSwipeParams_settled :
    Settled (migrateSwipeParams again) (migrateSwipeParams stepIndex params).fields := by
  intro warnings changed
  have duration : ((⟨(migrateSwipeParams stepIndex params).fields, warnings, changed⟩ :
      Migration).field "duration").isUndefined = true := by
    rw [Migration.field_mk, Migration.field_fields, migrateSwipeParams_eq, field_dropField,
      if_neg (by decide)]
    exact migrateSwipeDuration_gone _ _
  have scrollMode : ((⟨(migrateSwipeParams stepIndex params).fields, warnings, changed⟩ :
      Migration).field "scrollMode").isUndefined = true := by
    rw [Migration.field_mk, Migration.field_fields, migrateSwipeParams_eq, field_dropField,
      if_pos rfl]
    rfl
  rw [migrateSwipeParams_eq again, migrateSwipeParams_moved, putContainer_swipeOf,
    migrateSwipeDuration, if_pos duration, Migration.dropField, if_pos scrollMode]

end Swipe

/-- Whether the notification of a system tray step holds the timeout of the step. -/
def movesTimeout (fields : Fields) : Bool :=
  match (field fields "notification").object? with
  | none => false
  | some notification => (field notification "timeout").number?.isSome &&
      (field fields "awaitTimeout").isUndefined

theorem migrateSystemTrayParams_of_done {migration : Migration}
    (done : movesTimeout migration.fields = false) :
    migrateSystemTrayParams again migration = migration := by
  unfold movesTimeout at done
  simp only [Migration.field_fields] at done
  unfold migrateSystemTrayParams
  cases held : (migration.field "notification").object? with
  | none => rfl
  | some notification =>
    rw [held] at done
    dsimp only at done ⊢
    cases timeout : (field notification "timeout").number? with
    | none => rfl
    | some number =>
      rw [timeout, Option.isSome_some, Bool.true_and] at done
      rw [done]

theorem movesTimeout_done :
    movesTimeout (migrateSystemTrayParams stepIndex params).fields = false := by
  unfold migrateSystemTrayParams
  cases held : (params.field "notification").object? with
  | none => simp [movesTimeout, Migration.field_fields, held]
  | some notification =>
    dsimp only
    cases timeout : (field notification "timeout").number? with
    | none => simp [movesTimeout, Migration.field_fields, held, timeout]
    | some number =>
      cases waits : (params.field "awaitTimeout").isUndefined with
      | false => simp [movesTimeout, Migration.field_fields, held, timeout, waits]
      | true =>
        dsimp only
        simp [movesTimeout, Migration.field_fields, Value.object?, Value.isUndefined]

theorem migrateSystemTrayParams_settled :
    Settled (migrateSystemTrayParams again) (migrateSystemTrayParams stepIndex params).fields :=
  fun _ _ => migrateSystemTrayParams_of_done again (movesTimeout_done stepIndex params)

theorem migrateObserveParams_settled :
    Settled (migrateObserveParams again) (migrateObserveParams stepIndex params).fields := by
  apply dropField_settled
  unfold migrateObserveParams
  rw [Migration.field_fields, field_dropField, if_pos rfl]
  rfl

/-- Every tool's rules are done after one pass, up to a tap that names its element twice. -/
theorem migrateToolParams_settled (normalizedTool : String)
    (once : normalizedTool = "tapOn" → namesElementTwice params.fields = false) :
    Settled (fun next => migrateToolParams again next normalizedTool)
      (migrateToolParams stepIndex params normalizedTool).fields := by
  unfold migrateToolParams
  repeat' split
  · exact migrateAppParams_settled stepIndex again params
  · rename_i tap
    exact migrateTapParams_settled stepIndex again params (once tap)
  · exact migrateHighlightParams_settled stepIndex again params
  · exact migrateLinkParams_settled stepIndex again params
  · exact migrateSwipeParams_settled stepIndex again params
  · exact migrateSystemTrayParams_settled stepIndex again params
  · exact migrateObserveParams_settled stepIndex again params
  · exact fun _ _ => rfl


end Params

end AutoMobile.PlanMigrator
