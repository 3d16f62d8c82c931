import AutoMobile.SessionBrokerSteps

/- What ends resources and receipts: a confirmed destruction, the removal of tombstones
that no receipt names, and the pruning of old receipts. -/
namespace AutoMobile.SessionBroker

open InsertionMap

variable {Parameters Profile : Type}

/-- A resource on its way out is gone; only an admission can still wait for it. -/
structure Destroyed (before after : Store Parameters Profile) (resourceId : String)
    (resource : ResourceRow Profile) : Prop where
  found : get? before.resources resourceId = some resource
  destroying : resource.state = .destroying
  requests : after.requests = before.requests
  resources : after.resources = put before.resources resourceId { resource with state := .destroyed }
  awaited : ∀ id row, get? before.requests id = some row → isTerminalState row.state = false →
    row.resourceId = some resourceId → row.state = .acquiring

variable {before after : Store Parameters Profile} {resourceId : String}
  {resource : ResourceRow Profile} {limits : BrokerLimits}
  {keep : String × ResourceRow Profile → Bool}

theorem Destroyed.owned (gone : Destroyed before after resourceId resource) (owned : Owned before) :
    Owned after where
  requestKeys := gone.requests ▸ owned.requestKeys
  resourceKeys := gone.resources ▸ nodup_keys_put owned.resourceKeys _ _
  request := by
    intro id row known
    rw [gone.requests] at known
    rw [gone.resources]
    have was := owned.request known
    refine ⟨was.nonempty, fun nonterminal other named => ?_, was.reserved, was.unbound⟩
    by_cases same : resourceId = other
    · subst same
      have back := (owned.holds known nonterminal named gone.found).1
      refine ⟨_, get?_put_self _ _ _, back, ?_⟩
      rw [gone.awaited id row known nonterminal named]
      exact Or.inr (Or.inr rfl)
    · obtain ⟨held, found, back, fits⟩ := was.holds nonterminal other named
      exact ⟨held, (get?_put_of_ne _ same _).trans found, back, fits⟩
  resource := by
    intro other held found
    rw [gone.resources] at found
    rw [gone.requests]
    rcases of_get?_put found with ⟨same, rfl⟩ | ⟨_, found⟩
    · exact ⟨same ▸ (owned.resource gone.found).nonempty, by simp [InUse], by simp⟩
    · exact owned.resource found

theorem Destroyed.capped (gone : Destroyed before after resourceId resource) (owned : Owned before)
    (capped : Capped limits before) : Capped limits after where
  devices := by
    intro cap limited
    have was := capped.devices cap limited
    have fewer := countOthers_le isLive before.resources resourceId
    rw [length_liveResources] at was ⊢
    rw [gone.resources, countP_put _ owned.resourceKeys]
    simp only [isLive] at fewer was ⊢
    simpa using fewer.trans was
  sessions := by
    intro cap limited
    refine le_trans ?_ (capped.sessions cap limited)
    rw [sessionCount_eq, sessionCount_eq, gone.requests, gone.resources]
    refine List.countP_mono_left fun entry _ counted => ?_
    rw [isCounted, countsAsSession_iff] at counted ⊢
    refine counted.imp_right ?_
    rintro ⟨failed, named, held, there, known, back, live⟩
    rcases of_get?_put known with ⟨_, rfl⟩ | ⟨_, known⟩
    · simp at live
    · exact ⟨failed, named, held, there, known, back, live⟩

/-- Some tombstones that no request names are dropped. -/
structure Buried (before after : Store Parameters Profile)
    (keep : String × ResourceRow Profile → Bool) : Prop where
  requests : after.requests = before.requests
  resources : after.resources = before.resources.filter keep
  dropped : ∀ resourceId resource, get? before.resources resourceId = some resource →
    keep (resourceId, resource) = false → resource.state = .destroyed ∧
      ∀ id row, get? before.requests id = some row → row.resourceId ≠ some resourceId

theorem Buried.found (buried : Buried before after keep) (owned : Owned before)
    (found : get? after.resources resourceId = some resource) :
    get? before.resources resourceId = some resource := by
  rw [buried.resources, get?_filter owned.resourceKeys] at found
  exact (Option.filter_eq_some_iff.mp found).1

theorem Buried.keeps (buried : Buried before after keep) (owned : Owned before)
    (found : get? before.resources resourceId = some resource)
    (needed : resource.state ≠ .destroyed ∨ ∃ id row, get? before.requests id = some row ∧
      row.resourceId = some resourceId) : get? after.resources resourceId = some resource := by
  rw [buried.resources, get?_filter owned.resourceKeys]
  refine Option.filter_eq_some_iff.mpr ⟨found, ?_⟩
  by_contra dropped
  obtain ⟨state, unnamed⟩ := buried.dropped resourceId resource found (by simpa using dropped)
  rcases needed with live | ⟨id, row, known, named⟩
  · exact live state
  · exact unnamed id row known named

theorem Buried.owned (buried : Buried before after keep) (owned : Owned before) : Owned after where
  requestKeys := buried.requests ▸ owned.requestKeys
  resourceKeys := by
    rw [buried.resources]
    exact (List.filter_sublist.map Prod.fst).nodup owned.resourceKeys
  request := by
    intro id row known
    rw [buried.requests] at known
    have was := owned.request known
    refine ⟨was.nonempty, fun nonterminal resourceId named => ?_, was.reserved, was.unbound⟩
    obtain ⟨resource, found, back, fits⟩ := was.holds nonterminal resourceId named
    exact ⟨resource, buried.keeps owned found (Or.inr ⟨id, row, known, named⟩), back, fits⟩
  resource := by
    intro resourceId resource found
    rw [buried.requests]
    exact owned.resource (buried.found owned found)

theorem Buried.capped (buried : Buried before after keep) (owned : Owned before)
    (capped : Capped limits before) : Capped limits after where
  devices := by
    intro cap limited
    have was := capped.devices cap limited
    rw [length_liveResources] at was ⊢
    rw [buried.resources]
    exact List.filter_sublist.countP_le.trans was
  sessions := by
    intro cap limited
    refine le_trans ?_ (capped.sessions cap limited)
    rw [sessionCount_eq, sessionCount_eq, buried.requests]
    refine List.countP_mono_left fun entry _ counted => ?_
    rw [isCounted, countsAsSession_iff] at counted ⊢
    refine counted.imp_right ?_
    rintro ⟨failed, named, held, there, known, back, live⟩
    exact ⟨failed, named, held, there, buried.found owned known, back, live⟩

/-- One step of a call. -/
inductive Step (limits : BrokerLimits) (before after : Store Parameters Profile) : Prop
  | change (change : Change limits before after)
  | destroyed (resourceId : String) (resource : ResourceRow Profile)
      (gone : Destroyed before after resourceId resource)
  | buried (keep : String × ResourceRow Profile → Bool) (buried : Buried before after keep)

abbrev Steps (limits : BrokerLimits) : Store Parameters Profile → Store Parameters Profile → Prop :=
  Relation.ReflTransGen (Step limits)

theorem Step.owned (step : Step limits before after) (owned : Owned before) : Owned after := by
  cases step with
  | change change => exact change.owned owned
  | destroyed _ _ gone => exact gone.owned owned
  | buried _ buried => exact buried.owned owned

theorem Step.follows (step : Step limits before after) : Follows before after := by
  cases step with
  | change change => exact change.follows
  | destroyed _ _ gone => exact Follows.of_requests_eq gone.requests
  | buried _ buried => exact Follows.of_requests_eq buried.requests

theorem Step.capped (step : Step limits before after) (owned : Owned before)
    (capped : Capped limits before) :
    Capped limits after := by
  cases step with
  | change change => exact change.capped owned capped
  | destroyed _ _ gone => exact gone.capped owned capped
  | buried _ buried => exact buried.capped owned capped

namespace Steps

variable {limits : BrokerLimits} {before after : Store Parameters Profile}

theorem owned (steps : Steps limits before after) (owned : Owned before) : Owned after := by
  induction steps with
  | refl => exact owned
  | tail _ step ih => exact step.owned ih

theorem follows (steps : Steps limits before after) : Follows before after := by
  induction steps with
  | refl => exact Follows.refl before
  | tail _ step ih => exact ih.trans step.follows

theorem capped (steps : Steps limits before after) (owned : Owned before)
    (capped : Capped limits before) :
    Capped limits after := by
  have both : Owned after ∧ Capped limits after := by
    induction steps with
    | refl => exact ⟨owned, capped⟩
    | tail _ step ih => exact ⟨step.owned ih.1, step.capped ih.1 ih.2⟩
  exact both.2

theorem of_changes (changes : Changes limits before after) : Steps limits before after := by
  induction changes with
  | refl => exact .refl
  | tail _ change ih => exact .tail ih (.change change)

end Steps

section Confirmation

variable {limits : BrokerLimits} {surroundings : Surroundings} {store : Store Parameters Profile}

variable {resourceId : String}

theorem any_names_eq_false {requests : InsertionMap String (RequestRow Parameters)}
    (unnamed : (requests.any fun (_, request) => request.resourceId = some resourceId) = false) :
    ∀ id row, get? requests id = some row → row.resourceId ≠ some resourceId := by
  intro id row known names
  rw [List.any_eq_false] at unnamed
  exact unnamed (id, row) (mem_of_get? known) (by simp [names])

theorem deleteUnreferencedTombstone_buried {store : Store Parameters Profile} (id : String) :
    ∃ keep, Buried store (deleteUnreferencedTombstone store id) keep := by
  refine ⟨_, rfl, rfl, fun resourceId resource _ dropped => ?_⟩
  simp only [Bool.not_eq_false', Bool.and_eq_true, decide_eq_true_eq, Bool.not_eq_true'] at dropped
  obtain ⟨⟨⟨-, state⟩, -⟩, unnamed⟩ := dropped
  exact ⟨state, any_names_eq_false unnamed⟩

theorem deleteUnreferencedTombstones_buried :
    ∃ keep, Buried store (deleteUnreferencedTombstones store) keep := by
  refine ⟨_, rfl, rfl, fun resourceId resource _ dropped => ?_⟩
  simp only [Bool.not_eq_false', Bool.and_eq_true, decide_eq_true_eq, Bool.not_eq_true'] at dropped
  obtain ⟨⟨state, -⟩, unnamed⟩ := dropped
  exact ⟨state, any_names_eq_false unnamed⟩

/-- A failed receipt can be written again. -/
theorem restamped_change (owned : Owned store) {after : Store Parameters Profile} {id : String}
    {row : RequestRow Parameters} (known : get? store.requests id = some row)
    (failed : row.state = .failed)
    (requests : after.requests = put store.requests id (stamped surroundings row))
    (resources : after.resources = store.resources) : Change limits store after := by
  have ended : isTerminalState row.state = true := by simp [failed, isTerminalState]
  refine .request id (stamped surroundings row) requests resources
    ⟨(owned.request known).nonempty, ?_, by simp [failed], by simp [failed]⟩ ?_ ?_ ?_
  · intro goesOn
    simp [ended] at goesOn
  · intro old there
    obtain rfl := Option.some.inj (known.symm.trans there)
    exact ⟨by simp, fun _ => by simp, fun session bound => by simpa using bound⟩
  · intro resourceId resource found used back
    obtain ⟨holder, there, goesOn, -⟩ := owned.names found used back
    obtain rfl := Option.some.inj (known.symm.trans there)
    simp [ended] at goesOn
  · intro counted
    refine Or.inl ⟨row, known, ?_⟩
    rw [countsAsSession_iff] at counted ⊢
    simpa using counted

/-- Only an admission or a release waits for a resource that is being destroyed. -/
theorem awaits_destruction (owned : Owned store) {resource : ResourceRow Profile}
    (found : get? store.resources resourceId = some resource)
    (destroying : resource.state = .destroying) {id : String} {row : RequestRow Parameters}
    (known : get? store.requests id = some row) (nonterminal : isTerminalState row.state = false)
    (names : row.resourceId = some resourceId) :
    resource.requestId = some id ∧ id ≠ "" ∧ (row.state = .acquiring ∨ row.state = .releasing) := by
  obtain ⟨back, fits⟩ := owned.holds known nonterminal names found
  rw [destroying] at fits
  refine ⟨back, (owned.request known).nonempty, ?_⟩
  cases stage : row.state <;> simp_all [Fits]

/-- Settling writes the receipt that waited, then the resource is gone. -/
theorem settle_steps (owned : Owned store) {gone : Store Parameters Profile}
    {resource : ResourceRow Profile} (found : get? store.resources resourceId = some resource)
    (destroying : resource.state = .destroying) {requestId : String}
    (back : resource.requestId = some requestId) (requests : gone.requests = store.requests)
    (resources : gone.resources =
      put store.resources resourceId { resource with state := .destroyed }) :
    Steps limits store (settleRequestAfterDestruction surroundings gone resourceId requestId) := by
  have waits {id : String} {row : RequestRow Parameters} (known : get? store.requests id = some row)
      (nonterminal : isTerminalState row.state = false) (names : row.resourceId = some resourceId) :
      id = requestId ∧ (row.state = .acquiring ∨ row.state = .releasing) := by
    obtain ⟨mine, -, stage⟩ := awaits_destruction owned found destroying known nonterminal names
    exact ⟨Option.some.inj (mine.symm.trans back), stage⟩
  unfold settleRequestAfterDestruction
  rw [requests]
  cases known : get? store.requests requestId with
  | none =>
    refine .single (.destroyed resourceId resource ⟨found, destroying, requests, resources, ?_⟩)
    intro id row there nonterminal names
    obtain ⟨rfl, -⟩ := waits there nonterminal names
    rw [known] at there
    cases there
  | some request =>
    dsimp only
    split
    · rename_i elsewhere
      refine .single (.destroyed resourceId resource ⟨found, destroying, requests, resources, ?_⟩)
      intro id row there nonterminal names
      obtain ⟨rfl, -⟩ := waits there nonterminal names
      obtain rfl := Option.some.inj (known.symm.trans there)
      exact absurd names elsewhere
    · split
      · rename_i releasing
        -- the release is over before the resource is gone
        let released := stamped surroundings { request with state := .released }
        have change : Change limits store
            { store with requests := put store.requests requestId released } := by
          refine Change.touch owned known (by simp [releasing, isTerminalState]) rfl rfl
            (by simp [released]) (by simp [released]) (by simp [released])
            (Or.inr ⟨by simp [released, isTerminalState], fun other held names there => ?_⟩)
          obtain ⟨-, fits⟩ := owned.holds known (by simp [releasing, isTerminalState]) names there
          rename_i named
          obtain rfl := Option.some.inj ((not_not.mp named).symm.trans names)
          obtain rfl := Option.some.inj (found.symm.trans there)
          simp [InUse, destroying]
        refine .tail (.single (.change change)) (.destroyed resourceId resource
          ⟨found, destroying, by rw [updateRequest_requests, requests], resources, ?_⟩)
        intro id row there nonterminal names
        rcases of_get?_put there with ⟨_, rfl⟩ | ⟨apart, there⟩
        · simp [released, isTerminalState] at nonterminal
        · exact absurd (waits there nonterminal names).1.symm apart
      · rename_i staying
        have acquires : ∀ id row, get? store.requests id = some row →
            isTerminalState row.state = false → row.resourceId = some resourceId →
            row.state = .acquiring := by
          intro id row there nonterminal names
          obtain ⟨rfl, stage⟩ := waits there nonterminal names
          obtain rfl := Option.some.inj (known.symm.trans there)
          exact stage.resolve_right staying
        split
        · rename_i failed
          have change : Change limits store
              { store with
                requests := put store.requests requestId (stamped surroundings request) } :=
            restamped_change owned known failed rfl rfl
          refine .tail (.single (.change change)) (.destroyed resourceId resource
            ⟨found, destroying, by rw [updateRequest_requests, requests], resources, ?_⟩)
          intro id row there nonterminal names
          rcases of_get?_put there with ⟨_, rfl⟩ | ⟨_, there⟩
          · simp [failed, isTerminalState] at nonterminal
          · exact acquires id row there nonterminal names
        · exact .single (.destroyed resourceId resource
            ⟨found, destroying, requests, resources, acquires⟩)

/-- Confirming a destruction settles the receipt that waits for it and ends the resource. -/
theorem confirmDestroyed_steps (owned : Owned store) (ticket : DestructionTicket) :
    Steps limits store (confirmDestroyed surroundings store ticket).1 := by
  unfold confirmDestroyed
  split
  · exact .refl
  · rename_i resource found
    split
    · exact .refl
    · split
      · exact .refl
      · split
        · exact .refl
        · rename_i staged
          have destroying : resource.state = .destroying := not_not.mp staged
          split
          · exact .refl
          · have buried (unowned : ∀ id, resource.requestId = some id → id = "") :
                Steps limits store (deleteUnreferencedTombstone
                  { store with
                    resources := put store.resources ticket.resourceId
                      { resource with state := .destroyed } } ticket.resourceId) := by
              have gone : Step limits store
                  { store with
                    resources := put store.resources ticket.resourceId
                      { resource with state := .destroyed } } := by
                refine .destroyed ticket.resourceId resource ⟨found, destroying, rfl, rfl, ?_⟩
                intro id row known nonterminal names
                obtain ⟨back, nonempty, -⟩ :=
                  awaits_destruction owned found destroying known nonterminal names
                exact absurd (unowned id back) nonempty
              obtain ⟨keep, buried⟩ := deleteUnreferencedTombstone_buried ticket.resourceId
              exact .tail (.single gone) (.buried keep buried)
            dsimp only
            split
            · rename_i requestId back
              split
              · rename_i empty
                refine buried fun id same => ?_
                exact (Option.some.inj (back.symm.trans same)).symm.trans empty
              · exact settle_steps owned found destroying back rfl rfl
            · rename_i nobody
              exact buried fun id same => by simp [nobody] at same

end Confirmation

section Pruning

variable {limits : BrokerLimits} {now : Nat} {store : Store Parameters Profile} {ids : List String}

@[simp] theorem stampTerminal_state (row : RequestRow Parameters) :
    (stampTerminal now row).state = row.state := by unfold stampTerminal; split <;> rfl

@[simp] theorem stampTerminal_resourceId (row : RequestRow Parameters) :
    (stampTerminal now row).resourceId = row.resourceId := by unfold stampTerminal; split <;> rfl

@[simp] theorem stampTerminal_sessionId (row : RequestRow Parameters) :
    (stampTerminal now row).sessionId = row.sessionId := by unfold stampTerminal; split <;> rfl

/-- The tables with every terminal time filled in. -/
def stampAll (now : Nat) (store : Store Parameters Profile) : Store Parameters Profile :=
  { store with requests := store.requests.map fun (id, row) => (id, stampTerminal now row) }

/-- A resource that no longer names a deleted receipt. -/
def unlink (ids : List String) (resource : ResourceRow Profile) : ResourceRow Profile :=
  if resource.requestId.any (· ∈ ids) then { resource with requestId := none } else resource

@[simp] theorem unlink_state (resource : ResourceRow Profile) :
    (unlink ids resource).state = resource.state := by unfold unlink; split <;> rfl

theorem unlink_requestId {resource : ResourceRow Profile} {id : String} :
    (unlink ids resource).requestId = some id ↔ resource.requestId = some id ∧ id ∉ ids := by
  unfold unlink
  split
  · rename_i deleted
    simp only [reduceCtorEq, false_iff, not_and, not_not]
    intro back
    simpa [back] using deleted
  · rename_i kept
    refine ⟨fun back => ⟨back, ?_⟩, And.left⟩
    simpa [back] using kept

/-- The receipts are over, and only destroyed resources name them. -/
def Expired (store : Store Parameters Profile) (ids : List String) : Prop :=
  ∀ id ∈ ids, ∃ row, get? store.requests id = some row ∧ isTerminalState row.state = true ∧
    ∀ resourceId resource, get? store.resources resourceId = some resource →
      resource.requestId = some id → resource.state = .destroyed

theorem get?_deleteReceipts (owned : Owned store) (id : String) :
    get? (deleteReceipts (stampAll now store) ids).requests id =
      if id ∈ ids then none else (get? store.requests id).map (stampTerminal now) := by
  have distinct : (keys (stampAll now store).requests).Nodup := by
    have same := keys_mapValues store.requests fun _ row => stampTerminal now row
    exact same.symm ▸ owned.requestKeys
  have rows : get? (stampAll now store).requests id =
      (get? store.requests id).map (stampTerminal now) :=
    get?_mapValues store.requests (fun _ row => stampTerminal now row) id
  have kept : get? (deleteReceipts (stampAll now store) ids).requests id = _ :=
    get?_filter distinct (fun (id, _) => id ∉ ids) id
  rw [kept, rows]
  split <;> cases get? store.requests id <;> simp_all [Option.filter_some]

theorem get?_deleteReceipts_resources (resourceId : String) :
    get? (deleteReceipts (stampAll now store) ids).resources resourceId =
      (get? store.resources resourceId).map (unlink ids) :=
  get?_mapValues store.resources (fun _ resource => unlink ids resource) resourceId

theorem deleteReceipts_owned (owned : Owned store) (expired : Expired store ids) :
    Owned (deleteReceipts (stampAll now store) ids) where
  requestKeys := by
    have same := keys_mapValues store.requests fun _ row => stampTerminal now row
    have distinct : (keys (stampAll now store).requests).Nodup := same.symm ▸ owned.requestKeys
    exact (List.filter_sublist.map Prod.fst).nodup distinct
  resourceKeys := by
    have same := keys_mapValues store.resources fun _ resource => unlink ids resource
    exact same.symm ▸ owned.resourceKeys
  request := by
    intro id row known
    rw [get?_deleteReceipts owned] at known
    split at known
    · cases known
    · rename_i kept
      obtain ⟨old, there, rfl⟩ := Option.map_eq_some_iff.mp known
      have was := owned.request there
      refine ⟨was.nonempty, fun nonterminal resourceId named => ?_, by simpa using was.reserved,
        by simpa using was.unbound⟩
      simp only [stampTerminal_state, stampTerminal_resourceId] at nonterminal named ⊢
      obtain ⟨resource, found, back, fits⟩ := was.holds nonterminal resourceId named
      refine ⟨unlink ids resource, ?_, unlink_requestId.mpr ⟨back, kept⟩, by simpa using fits⟩
      rw [get?_deleteReceipts_resources, found]
      rfl
  resource := by
    intro resourceId resource found
    rw [get?_deleteReceipts_resources] at found
    obtain ⟨old, there, rfl⟩ := Option.map_eq_some_iff.mp found
    have was := owned.resource there
    refine ⟨was.nonempty, fun used => ?_, fun idle => ?_⟩
    · rw [unlink_state] at used
      obtain ⟨id, row, back, known, nonterminal, named⟩ := was.owner used
      have kept : id ∉ ids := by
        intro deleted
        obtain ⟨_, _, _, gone⟩ := expired id deleted
        simp [InUse, gone resourceId old there back] at used
      refine ⟨id, stampTerminal now row, unlink_requestId.mpr ⟨back, kept⟩, ?_, by simpa using nonterminal,
        by simpa using named⟩
      rw [get?_deleteReceipts owned, if_neg kept, known]
      rfl
    · rw [unlink_state] at idle
      rw [Option.eq_none_iff_forall_ne_some]
      intro id back
      exact absurd (unlink_requestId.mp back).1 (by simp [was.idle idle])

theorem deleteReceipts_capped (capped : Capped limits store) :
    Capped limits (deleteReceipts (stampAll now store) ids) where
  devices := by
    intro cap limited
    have was := capped.devices cap limited
    rw [length_liveResources] at was ⊢
    have same : (deleteReceipts (stampAll now store) ids).resources =
        store.resources.map fun entry => (entry.1, unlink ids entry.2) := rfl
    have live : isLive ∘ (fun entry => (entry.1, unlink ids entry.2)) =
        (isLive : String × ResourceRow Profile → Bool) := by
      funext entry
      simp [isLive]
    rwa [same, List.countP_map, live]
  sessions := by
    intro cap limited
    refine le_trans ?_ (capped.sessions cap limited)
    have same : (deleteReceipts (stampAll now store) ids).requests =
        (store.requests.map fun entry => (entry.1, stampTerminal now entry.2)).filter
          fun entry => entry.1 ∉ ids := rfl
    rw [sessionCount_eq, sessionCount_eq, same]
    refine List.filter_sublist.countP_le.trans ?_
    rw [List.countP_map]
    refine List.countP_mono_left fun entry _ counted => ?_
    rw [Function.comp_apply, isCounted, countsAsSession_iff] at counted
    rw [isCounted, countsAsSession_iff]
    simp only [stampTerminal_state, stampTerminal_resourceId] at counted
    refine counted.imp_right ?_
    rintro ⟨failed, named, held, there, known, back, live⟩
    rw [get?_deleteReceipts_resources] at known
    obtain ⟨old, found, rfl⟩ := Option.map_eq_some_iff.mp known
    exact ⟨failed, named, old, there, found, (unlink_requestId.mp back).1, by simpa using live⟩

/-- Only what is over and holds no undestroyed resource expires. -/
theorem expiredReceipts_expired (owned : Owned store) (retentionMs exportRetentionMs limit : Nat) :
    Expired store (expiredReceipts now retentionMs exportRetentionMs limit (stampAll now store)) := by
  intro id member
  have listed := List.mem_of_mem_take member
  obtain ⟨⟨same, stampedRow⟩, sorted, rfl⟩ := List.mem_map.mp listed
  rw [(List.perm_insertionSort _ _).mem_iff, List.mem_filter] at sorted
  obtain ⟨there, old⟩ := sorted
  obtain ⟨⟨id, row⟩, known, equal⟩ := List.mem_map.mp there
  obtain ⟨rfl, rfl⟩ := Prod.mk.inj equal
  simp only [expiredReceipt, stampTerminal_state, Bool.and_eq_true, Bool.not_eq_true'] at old
  obtain ⟨⟨⟨ended, -⟩, -⟩, free⟩ := old
  refine ⟨row, get?_of_mem owned.requestKeys known, ended, fun resourceId resource found back => ?_⟩
  rw [List.any_eq_false] at free
  have gone := free (resourceId, resource) (mem_of_get? found)
  simpa [back] using gone

/-- Pruning keeps the tables in agreement, and within the limits. -/
theorem pruneTerminalRequests_keeps {after : Store Parameters Profile}
    {retentionMs exportRetentionMs limit : Nat} (owned : Owned store)
    (done : pruneTerminalRequests now store retentionMs exportRetentionMs limit = .ok after) :
    Owned after ∧ (Capped limits store → Capped limits after) := by
  unfold pruneTerminalRequests at done
  split at done
  · cases done
  · obtain rfl := Except.ok.inj done
    have kept : Owned (deleteReceipts (stampAll now store) (expiredReceipts now retentionMs
        exportRetentionMs limit (stampAll now store))) :=
      deleteReceipts_owned owned
        (expiredReceipts_expired owned retentionMs exportRetentionMs limit)
    obtain ⟨keep, buried⟩ := deleteUnreferencedTombstones_buried
    exact ⟨Buried.owned buried kept, fun capped =>
      Buried.capped buried kept (deleteReceipts_capped capped)⟩

end Pruning

end AutoMobile.SessionBroker
