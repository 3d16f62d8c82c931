import AutoMobile.PlanSteps

/- What `partition` does: every step goes to the track of its device, in plan order. -/
namespace AutoMobile.Plans

open List hiding keys
open InsertionMap

variable {plan : Plan} {tracks grown : InsertionMap String (List TrackedStep)}

/-- The tracks share out the steps, each labelled with its device. -/
structure SharedOut (plan : Plan) (tracks : InsertionMap String (List TrackedStep))
    (labelled : List (String × TrackedStep)) : Prop where
  steps : labelled.map (fun item => (item.2.step, item.2.planIndex)) = plan.steps.zipIdx
  device : ∀ item ∈ labelled, trackDevice item.2.step = some (.text item.1)
  flatten : (values tracks).flatten.Perm (labelled.map Prod.snd)
  track : ∀ entry ∈ tracks, entry.2 = (labelled.filter (·.1 = entry.1)).map Prod.snd
  known : ∀ item ∈ labelled, item.1 ∈ keys tracks

/-- The steps of the tracks are those of the plan. -/
theorem SharedOut.mem_steps {labelled : List (String × TrackedStep)}
    (shared : SharedOut plan tracks labelled) {item : String × TrackedStep}
    (member : item ∈ labelled) : item.2.step ∈ plan.steps := by
  have inside : (item.2.step, item.2.planIndex) ∈ plan.steps.zipIdx := by
    rw [← shared.steps]
    exact mem_map_of_mem member
  exact fst_mem_of_mem_zipIdx inside

theorem assignStep_ok {devices : List String} {step : PlanStep} {planIndex : Nat}
    (assigned : assignStep devices tracks step planIndex = .ok grown) :
    ∃ device tracked, trackDevice step = some (.text device) ∧ tracked.step = step ∧
      tracked.planIndex = planIndex ∧ grown = push tracks device tracked := by
  unfold assignStep at assigned
  split at assigned
  · cases assigned
  · rename_i device known
    split at assigned
    · cases assigned
    · rename_i track found
      refine ⟨device, ⟨step, planIndex, track.length⟩, known, rfl, rfl, ?_⟩
      rw [push, found, Option.getD_some]
      exact (Except.ok.inj assigned).symm
  · cases assigned

theorem assignSteps_ok {devices : List String} (items : List (PlanStep × Nat))
    (assigned : assignSteps devices tracks items = .ok grown) :
    ∃ labelled : List (String × TrackedStep), grown = pushAll tracks labelled ∧
      labelled.map (fun item => (item.2.step, item.2.planIndex)) = items ∧
      ∀ item ∈ labelled, trackDevice item.2.step = some (.text item.1) := by
  induction items generalizing tracks with
  | nil => exact ⟨[], (Except.ok.inj assigned).symm, rfl, by simp⟩
  | cons item rest ih =>
    obtain ⟨step, planIndex⟩ := item
    unfold assignSteps at assigned
    cases first : assignStep devices tracks step planIndex with
    | error message =>
      rw [first] at assigned
      cases assigned
    | ok next =>
      rw [first] at assigned
      obtain ⟨device, tracked, known, rfl, rfl, rfl⟩ := assignStep_ok first
      obtain ⟨labelled, rfl, steps, devices⟩ := ih assigned
      refine ⟨(device, tracked) :: labelled, rfl, by simp [steps], ?_⟩
      rintro item member
      rcases mem_cons.mp member with rfl | member
      · exact known
      · exact devices item member

/-- Before the first step every declared device has an empty track. -/
theorem emptyTracks (devices : List String) {initial : InsertionMap String (List TrackedStep)}
    (distinct : (keys initial).Nodup) (empty : ∀ entry ∈ initial, entry.2 = []) :
    (keys (devices.foldl (fun tracks device => put tracks device []) initial)).Nodup ∧
      ∀ entry ∈ devices.foldl (fun tracks device => put tracks device []) initial, entry.2 = [] := by
  induction devices generalizing initial with
  | nil => exact ⟨distinct, empty⟩
  | cons device devices ih =>
    refine ih (nodup_keys_put distinct _ _) fun entry member => ?_
    rcases mem_put member with rfl | old
    · rfl
    · exact empty entry old

theorem partition_sharedOut (partitioned : partition plan = .ok tracks) :
    ∃ labelled, SharedOut plan tracks labelled := by
  obtain ⟨labelled, rfl, steps, devices⟩ := assignSteps_ok _ partitioned
  have start : (keys ([] : InsertionMap String (List TrackedStep))).Nodup := nodup_keys_nil
  obtain ⟨distinct, empty⟩ := emptyTracks plan.devices start (by simp)
  generalize plan.devices.foldl (fun tracks device => put tracks device []) [] = initial at distinct empty
  have none : (values initial).flatten = [] := by
    rw [flatten_eq_nil_iff]
    intro track member
    obtain ⟨entry, inside, rfl⟩ := mem_map.mp member
    exact empty entry inside
  have nothing : ∀ device, (get? initial device).getD [] = [] := by
    intro device
    cases found : get? initial device with
    | none => rfl
    | some track => exact empty _ (mem_of_get? found)
  have keys' := nodup_keys_pushAll distinct labelled
  refine ⟨labelled, steps, devices, ?_, fun entry member => ?_, fun item member => ?_⟩
  · have shared := flatten_pushAll initial labelled
    rwa [none, nil_append] at shared
  · have items := getD_get?_pushAll initial labelled entry.1
    rwa [get?_of_mem keys' member, nothing, Option.getD_some, nil_append] at items
  · exact mem_keys_pushAll.mpr (Or.inr ⟨item, member, rfl⟩)

/-- Every device has one track. -/
theorem partition_nodup_keys (partitioned : partition plan = .ok tracks) : (keys tracks).Nodup := by
  obtain ⟨labelled, rfl, -, -⟩ := assignSteps_ok _ partitioned
  exact nodup_keys_pushAll (emptyTracks plan.devices nodup_keys_nil (by simp)).1 labelled

end AutoMobile.Plans
