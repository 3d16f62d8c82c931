import AutoMobile.FlowShaperIsolation
import AutoMobile.NetworkRuleOutcomes

/- A ticket of the store names one rule, as a shaper that is fed by the store takes for granted. -/
namespace AutoMobile.NetworkRules

open List hiding keys
open FlowShaping InsertionMap Runs

variable {pairs : List TombstoneKey} {store next : NetworkRuleStore} {past : List Answer}

/-- The conditions that tickets were installed with. -/
abbrev Installs : Type := List (NetworkRuleTicket × NetworkRuleCondition)

variable {made : Installs} {command : NetworkRuleCommand} {now : Nat} {result : NetworkRuleResult}

def markOfTicket (ticket : NetworkRuleTicket) : Mark :=
  (⟨ticket.target, ticket.owner⟩, toLex (ticket.ownerGeneration, ticket.revision))

/-- What the accepted applies have installed: one condition for each ticket. -/
structure Ledger (past : List Answer) (made : Installs) : Prop where
  single : ∀ ticket one two, (ticket, one) ∈ made → (ticket, two) ∈ made → one = two
  accepted : ∀ entry ∈ made, markOfTicket entry.1 ∈ acceptedOf past

theorem Ledger.append (ledger : Ledger past made) (answer : Answer) :
    Ledger (past ++ [answer]) made where
  single := ledger.single
  accepted entry member := by
    rw [acceptedOf_append]
    exact mem_append_left _ (ledger.accepted entry member)

/-- Every active rule is what its request resolves to, and was installed as such. -/
def Recorded (made : Installs) (store : NetworkRuleStore) : Prop :=
  ∀ target rule, get? store.rules target = some rule →
    rule.Resolved ∧ (rule.ticket target, rule.condition) ∈ made

theorem Recorded.put {target : NetworkRuleTarget} {rule : Rule} (recorded : Recorded made store)
    (resolved : rule.Resolved) (known : (rule.ticket target, rule.condition) ∈ made) :
    Recorded made { store with rules := InsertionMap.put store.rules target rule } := by
  intro other held found
  rcases of_get?_put found with ⟨rfl, rfl⟩ | ⟨_, there⟩
  · exact ⟨resolved, known⟩
  · exact recorded other held there

theorem Recorded.keep {target : NetworkRuleTarget} {rule : Rule} (recorded : Recorded made store)
    (found : get? store.rules target = some rule) (expiresAt droppedFlows : Nat) :
    Recorded made { store with
      rules := InsertionMap.put store.rules target { rule with expiresAt, droppedFlows } } :=
  recorded.put (recorded target rule found).1 (recorded target rule found).2

theorem Recorded.sweep (recorded : Recorded made store) (distinct : (keys store.rules).Nodup)
    (now : Nat) : Recorded made (sweep store now) := by
  intro target rule found
  rw [get?_sweep distinct] at found
  exact recorded target rule (Option.filter_eq_some_iff.mp found).1

theorem Rule.Resolved.condition_eq {first second : Rule} (one : first.Resolved)
    (other : second.Resolved) (same : first.request = second.request) :
    first.condition = second.condition := by
  unfold Rule.Resolved at one other
  rw [same] at one
  cases request : second.request <;> rw [request] at one other <;> grind

/-- An accepted apply whose mark was accepted before repeats the active rule's request. -/
theorem apply_again {resolved : Option ShapingResolution} {accepted fences : List Mark}
    (fenced : Fenced pairs accepted fences store)
    (done : apply store command resolved now = some (next, result))
    (applied : result.outcome = .applied)
    (again : markOf command.target command.ownership ∈ accepted) :
    ∃ existing, get? store.rules command.target = some existing ∧
      existing.ownership = command.ownership ∧ command.condition = some existing.request := by
  rcases apply_spec done with ⟨_, refused⟩ | ⟨_, rule, made⟩
  · exact absurd applied refused.1
  rcases fenced.accepted _ again with ⟨tombstone, found, level⟩ | ⟨existing, found, key, level⟩
  · exact absurd level (not_le.mpr (fenced_none made.passed found))
  have same := le_antisymm (made.older existing found).2 level
  have parts := Prod.ext_iff.mp (toLex_inj.mp same)
  have ownership := ownership_ext (congrArg TombstoneKey.owner key) parts.1 parts.2
  refine ⟨existing, found, ownership, ?_⟩
  grind [apply, applyRefusal, installedRefusal, markOf, keyOf, made.passed]

/-- A command keeps what is installed, or installs one rule more. -/
theorem execute_recorded {answer : Answer} {ended : List (NetworkRuleTarget × Rule)}
    (sound : Sound pairs past store)
    (few : pairs.length ≤ maximumTombstones) (ledger : Ledger past made)
    (recorded : Recorded made store) (answers : Answers command result now ended answer)
    (done : execute store command now = some (next, result)) :
    ∃ more, made ⊆ more ∧ Ledger (past ++ [answer]) more ∧ Recorded more next := by
  have swept := recorded.sweep sound.fenced.distinct now
  have live := live_sweep sound.fenced.distinct now
  have same := ledger.append answer
  have keeps (standing : Recorded made next) :
      ∃ more, made ⊆ more ∧ Ledger (past ++ [answer]) more ∧ Recorded more next :=
    ⟨made, Subset.refl _, same, standing⟩
  unfold execute at done
  split at done
  · cases done
    exact keeps recorded
  next resolved going =>
    dsimp only at done
    split at done
    next kind =>
      rcases apply_outcome live kind going done with ⟨rfl, _⟩ | ⟨outcome, rule, serves, _, rfl⟩
      · exact keeps swept
      · have told : command.mark ∈ acceptedOf (past ++ [answer]) := by
          rw [acceptedOf_append, answers.accepted, if_pos (.inl outcome)]
          exact mem_append_right _ mem_cons_self
        have only (other : NetworkRuleCondition)
            (known : (ticketOf command.target command.ownership, other) ∈ made) :
            other = rule.condition := by
          obtain ⟨existing, found, ownership, request⟩ := apply_again
            (sound.fenced.sweep few now) done outcome (ledger.accepted _ known)
          have before := swept _ _ found
          unfold Rule.ticket at before
          rw [ownership] at before
          rw [ledger.single _ _ _ known before.2]
          exact before.1.condition_eq serves.resolved
            (Option.some.inj (request.symm.trans serves.request))
        refine ⟨(ticketOf command.target command.ownership, rule.condition) :: made,
          subset_cons_self _ _, ⟨?_, ?_⟩, ?_⟩
        · grind [same.single]
        · rintro entry (_ | ⟨_, member⟩)
          · exact told
          · exact same.accepted entry member
        · refine Recorded.put (fun target rule found => ?_) serves.resolved ?_
          · exact (swept target rule found).imp_right (mem_cons_of_mem _)
          · rw [Rule.ticket, serves.ownership]
            exact mem_cons_self
    next =>
      have state : (reset (sweep store now) command.target command.ownership).1 = next :=
        (Prod.ext_iff.mp (Option.some.inj done)).1
      apply keeps
      rw [← state]
      rcases reset_spec (sweep store now) command.target command.ownership with
        ⟨same, _⟩ | ⟨same, _⟩ | ⟨same, _⟩ <;> rw [same]
      · exact swept
      · exact swept
      · intro target rule found
        rw [rules_bury_erase] at found
        split at found
        · cases found
        · exact swept target rule found
    next =>
      rcases renew_outcome live done with ⟨rfl, _⟩ | ⟨_, before, rule, found, renewed, _, rfl⟩
      · exact keeps swept
      · obtain ⟨_, _, _, rfl⟩ := renewed.lease
        exact keeps (swept.keep found _ _)

def Listed (made : Installs) (rule : ShapingRule) : Prop :=
  (rule.ticket, .shaped rule.profile) ∈ made

theorem Ledger.one_rule (ledger : Ledger past made) {one two : ShapingRule}
    (first : Listed made one) (second : Listed made two) (same : one.ticket = two.ticket) :
    one = two := by
  cases one
  cases two
  cases same
  cases ledger.single _ _ _ first second
  rfl

theorem serve_recorded {call : Call} {reply : Reply} (sound : Sound pairs past store)
    (few : pairs.length ≤ maximumTombstones) (ledger : Ledger past made)
    (recorded : Recorded made store) (served : serve store call = some (next, reply)) :
    ∃ more, made ⊆ more ∧ Ledger (past ++ [answerOf store call next reply]) more ∧
      Recorded more next ∧ ∀ rule, reply = .rule (some rule) → Listed more rule := by
  obtain ⟨now, request⟩ := call
  have swept := recorded.sweep sound.fenced.distinct now
  have same := ledger.append (answerOf store ⟨now, request⟩ next reply)
  cases request with
  | execute command =>
    obtain ⟨⟨state, result⟩, done, both⟩ := Option.map_eq_some_iff.mp served
    cases both
    obtain ⟨more, kept, still, standing⟩ := execute_recorded sound few ledger recorded
      (show Answers command result now _ (answerOf store _ next _) from ⟨rfl, rfl, rfl⟩) done
    exact ⟨more, kept, still, standing, nofun⟩
  | commitDrop ticket =>
    cases served
    refine ⟨made, Subset.refl _, same, ?_, nofun⟩
    show Recorded made (commitDrop store ticket now).1
    unfold commitDrop
    dsimp only
    split
    next rule found =>
      split
      · exact swept.keep found _ _
      · exact swept
    · exact swept
  | removeAll =>
    cases served
    refine ⟨made, Subset.refl _, same, fun _ _ found => ?_, nofun⟩
    cases found
  | activeRules =>
    cases served
    exact ⟨made, Subset.refl _, same, swept, nofun⟩
  | shapingRule target =>
    cases served
    refine ⟨made, Subset.refl _, same, swept, fun told given => ?_⟩
    obtain ⟨rule, found, shaped⟩ := Option.bind_eq_some_iff.mp (Reply.rule.inj given)
    have known := (swept target rule found).2
    split at shaped
    next profile condition =>
      cases shaped
      unfold Listed
      rw [← condition]
      exact known
    · cases shaped
  | evaluationSnapshot =>
    cases served
    refine ⟨made, Subset.refl _, same, ?_, nofun⟩
    show Recorded made (evaluationSnapshot store now).1
    unfold evaluationSnapshot
    dsimp only
    split <;> exact swept

/-- Every rule that a run has told of is listed, under one profile for each ticket. -/
theorem run_recorded (few : pairs.length ≤ maximumTombstones) (supportsShaping : Bool)
    {calls : List Call}
    (named : ∀ call ∈ calls, ∀ command, call.request = .execute command →
      keyOf command.target command.ownership ∈ pairs) :
    let done := run step (some { supportsShaping := supportsShaping }) calls
    ∃ made, (∀ store, done.1 = some store → Recorded made store) ∧ Ledger done.2 made ∧
      ∀ answer ∈ done.2, ∀ rule, answer.reply = .rule (some rule) → Listed made rule := by
  induction calls using List.reverseRecOn with
  | nil =>
    refine ⟨[], ?_, ⟨by simp, by simp⟩, by simp⟩
    rintro _ ⟨⟩ _ _ ⟨⟩
  | append_singleton front call ih =>
    have early := fun other member => named other (mem_append_left _ member)
    obtain ⟨made, recorded, ledger, listed⟩ := ih early
    have history := (history_run few supportsShaping early).1
    rw [run_append]
    generalize run step (some { supportsShaping := supportsShaping }) front = done at *
    rw [run_cons, run_nil]
    dsimp only
    rw [append_nil]
    obtain ⟨_ | store, answers⟩ := done
    · exact ⟨made, by simp [step], by simpa [step] using ledger, by simpa [step] using listed⟩
    cases served : serve store call with
    | none =>
      rw [step_trapped served, append_nil]
      exact ⟨made, by simp, ledger, listed⟩
    | some both =>
      obtain ⟨more, kept, still, standing, told⟩ :=
        serve_recorded (history store rfl) few ledger (recorded store rfl) served
      rw [step_served served]
      refine ⟨more, ?_, still, ?_⟩
      · rintro next ⟨⟩
        exact standing
      · intro answer member rule given
        rcases mem_append.mp member with old | new
        · exact kept (listed answer old rule given)
        · rw [mem_singleton.mp new] at given
          exact told rule given

/-- In every run of the store, with at most 256 pairs of a target and an owner, two answers with one
ticket are one rule. So a shaper that is fed by the answers grants a stream, where its rule has a
rate, no more than the quantum at once. -/
theorem told_rules_shape (supportsShaping : Bool) (calls : List Call) (pairs : List TombstoneKey)
    (few : pairs.length ≤ maximumTombstones)
    (named : ∀ call ∈ calls, ∀ command, call.request = .execute command →
      keyOf command.target command.ownership ∈ pairs) :
    let answers := (run step (some { supportsShaping := supportsShaping }) calls).2
    (∀ first ∈ answers, ∀ second ∈ answers, ∀ one two, first.reply = .rule (some one) →
      second.reply = .rule (some two) → one.ticket = two.ticket → one = two) ∧
    ∀ shaped : List FlowShaping.Call,
      (∀ call ∈ shaped, ∀ target rule, call.source.shapingRule target = some rule →
        ∃ answer ∈ answers, answer.reply = .rule (some rule)) →
      ∀ grant ∈ grantsFrom {} shaped, grant.WithinQuantum := by
  obtain ⟨made, _, ledger, listed⟩ := run_recorded few supportsShaping named
  refine ⟨?_, fun shaped told => quantum_run ?_⟩
  · intro first member second member' one two given given'
    exact ledger.one_rule (listed first member one given) (listed second member' two given')
  · intro first member second member' target other one two given given'
    obtain ⟨_, there, reply⟩ := told first member target one given
    obtain ⟨_, there', reply'⟩ := told second member' other two given'
    exact ledger.one_rule (listed _ there one reply) (listed _ there' two reply')

theorem owner_named : "owner" ≠ "" ∧ "owner".utf8ByteSize ≤ 128 := by decide

/-- An apply of the slow profile, and a question for its rule. -/
def slowApplied : List Call :=
  [⟨0, .execute
      { kind := .apply, target := app, ownership := ⟨"owner", 0, 1, owner_named, Nat.one_pos⟩,
        condition := some (.shaped { uploadKilobitsPerSecond := 8 }),
        leaseMilliseconds := some 1000 }⟩,
   ⟨1, .shapingRule app⟩]

/-- A stream that is offered 1000 bytes under the slow profile is granted 100. -/
theorem told_rules_shape_stream :
    let shaped := [Event.newFlow "a" app .stream, .data "a" .outbound 1000].map
      (callAt 0 (ruledBy slowProfile [app]))
    (∀ grant ∈ grantsFrom {} shaped, grant.WithinQuantum) ∧
      (grantsFrom {} shaped).map Grant.bytes = [100] := by
  have told : ((run step (some { supportsShaping := true }) slowApplied).2.map Answer.reply)[1]? =
      some (.rule (some (ruleOf slowProfile app))) := by decide +kernel
  obtain ⟨answer, member, reply⟩ := mem_map.mp (mem_of_getElem? told)
  refine ⟨(told_rules_shape true slowApplied [⟨app, "owner"⟩] (by decide) ?_).2 _ ?_,
    by decide +kernel⟩
  · rintro call (_ | ⟨_, _ | ⟨_, ⟨⟩⟩⟩) command asked <;> cases asked
    exact mem_cons_self
  · intro call listed target rule found
    obtain ⟨event, _, rfl⟩ := mem_map.mp listed
    obtain ⟨here, same⟩ := Option.ite_none_right_eq_some.mp found
    refine ⟨answer, member, ?_⟩
    rw [reply, ← Option.some.inj same, mem_singleton.mp here]

end AutoMobile.NetworkRules
