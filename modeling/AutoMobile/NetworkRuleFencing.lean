import Mathlib
import AutoMobile.NetworkRules

/- What each operation of the store keeps: a rule is newer than its owner's tombstone, and together
they are not older than anything that was accepted. -/
namespace AutoMobile.NetworkRules

open List hiding keys
open InsertionMap FlowShaping

variable {store : NetworkRuleStore} {target other : NetworkRuleTarget} {now : Nat}
variable {ownership : NetworkRuleOwnership} {rule : Rule}

section Stamps

/-- Generations first, then revisions. -/
abbrev Stamp : Type := ℕ ×ₗ ℕ

def NetworkRuleOwnership.stamp (ownership : NetworkRuleOwnership) : Stamp :=
  toLex (ownership.ownerGeneration, ownership.revision)

def Tombstone.stamp (tombstone : Tombstone) : Stamp :=
  toLex (tombstone.ownerGeneration, tombstone.revision)

def keyOf (target : NetworkRuleTarget) (ownership : NetworkRuleOwnership) : TombstoneKey :=
  ⟨target, ownership.owner⟩

theorem covers_iff (tombstone : Tombstone) (ownership : NetworkRuleOwnership) :
    tombstone.covers ownership = true ↔ ownership.stamp ≤ tombstone.stamp := by
  unfold Tombstone.covers NetworkRuleOwnership.stamp Tombstone.stamp
  rw [Prod.Lex.toLex_le_toLex]
  simp

/-- What passes the fence is newer than the tombstone. -/
theorem fenced_none {idempotentReset : Bool} {tombstone : Tombstone}
    (passed : fenced store target ownership idempotentReset = none)
    (found : get? store.tombstones (keyOf target ownership) = some tombstone) :
    tombstone.stamp < ownership.stamp := by
  unfold fenced at passed
  rw [show get? store.tombstones ⟨target, ownership.owner⟩ = _ from found] at passed
  dsimp only at passed
  unfold Tombstone.stamp NetworkRuleOwnership.stamp
  rw [Prod.Lex.toLex_lt_toLex]
  split at passed
  · cases passed
  next current =>
    split at passed
    next different => exact Or.inl (by omega)
    next same =>
      split at passed
      · cases passed
      · split at passed
        · cases passed
        next newer => exact Or.inr ⟨(Decidable.not_not.mp same).symm, by omega⟩

end Stamps

section Tombstones

/-- The order lists the tombstones' keys once each, and they are among the pairs. -/
structure Tidy (pairs : List TombstoneKey) (store : NetworkRuleStore) : Prop where
  distinct : store.tombstoneOrder.Nodup
  among : ∀ key ∈ store.tombstoneOrder, key ∈ pairs
  listed : ∀ key, key ∈ store.tombstoneOrder ↔ (get? store.tombstones key).isSome = true

variable {pairs : List TombstoneKey}

theorem boundTombstones_of_le {tombstones : InsertionMap TombstoneKey Tombstone}
    {order : List TombstoneKey} (few : order.length ≤ maximumTombstones) :
    boundTombstones tombstones order = (tombstones, order) := by
  cases order with
  | nil => rfl
  | cons oldest rest =>
    unfold boundTombstones
    rw [if_neg (Nat.not_lt.mpr few)]

@[simp] theorem bury_rules (byReset : Bool) :
    (bury store target ownership byReset).rules = store.rules := by
  unfold bury
  dsimp only
  split <;> rfl

/-- Burying replaces an older tombstone of the key, and no other. -/
theorem bury_spec (tidy : Tidy pairs store) (few : pairs.length ≤ maximumTombstones)
    (named : keyOf target ownership ∈ pairs) (byReset : Bool) :
    Tidy pairs (bury store target ownership byReset) ∧
      ∀ key, get? (bury store target ownership byReset).tombstones key =
        if key = keyOf target ownership ∧
            ¬ (get? store.tombstones key).any (fun held => held.covers ownership) then
          some ⟨ownership.ownerGeneration, ownership.revision, byReset⟩
        else get? store.tombstones key := by
  unfold bury
  dsimp only
  split
  next covered =>
    refine ⟨tidy, fun key => ?_⟩
    rw [if_neg]
    rintro ⟨same, uncovered⟩
    rw [same] at uncovered
    exact uncovered covered
  next uncovered =>
    let key := keyOf target ownership
    let order :=
      if (get? store.tombstones key).isNone then store.tombstoneOrder ++ [key]
      else store.tombstoneOrder
    have members : ∀ other, other ∈ order ↔ other = key ∨ other ∈ store.tombstoneOrder := by
      intro other
      show other ∈ (if _ then _ else _) ↔ _
      split
      · rw [mem_append, mem_singleton, or_comm]
      next held =>
        refine ⟨Or.inr, fun either => ?_⟩
        rcases either with same | there
        · rw [same]
          refine (tidy.listed key).mpr ?_
          cases found : get? store.tombstones key with
          | none => rw [found] at held; exact absurd rfl held
          | some tombstone => rfl
        · exact there
    have once : order.Nodup := by
      show (if _ then _ else _ : List TombstoneKey).Nodup
      split
      next missing =>
        refine nodup_append.mpr ⟨tidy.distinct, nodup_singleton _, ?_⟩
        intro other there last single equal
        rw [mem_singleton.mp single] at equal
        rw [equal] at there
        have found := (tidy.listed key).mp there
        rw [Option.isNone_iff_eq_none.mp missing] at found
        cases found
      · exact tidy.distinct
    have within : ∀ other ∈ order, other ∈ pairs := by
      intro other there
      rcases (members other).mp there with same | old
      · rw [same]
        exact named
      · exact tidy.among other old
    have short : order.length ≤ maximumTombstones :=
      Nat.le_trans (subperm_of_subset once within).length_le few
    have bounded := @boundTombstones_of_le
      (put store.tombstones key ⟨ownership.ownerGeneration, ownership.revision, byReset⟩) order short
    show Tidy pairs { store with
        tombstones := (boundTombstones (put store.tombstones key _) order).1
        tombstoneOrder := (boundTombstones (put store.tombstones key _) order).2 } ∧
      ∀ other, get? (boundTombstones (put store.tombstones key _) order).1 other = _
    rw [bounded]
    refine ⟨⟨once, within, fun other => ?_⟩, fun other => ?_⟩
    · rw [members, tidy.listed]
      show _ ↔ (get? (put store.tombstones key _) other).isSome = true
      rw [get?_put]
      by_cases same : key = other
      · simp [same]
      · simp [same, Ne.symm same]
    · show get? (put store.tombstones key _) other = _
      rw [get?_put]
      by_cases same : key = other
      · subst same
        rw [if_pos rfl, if_pos ⟨rfl, uncovered⟩]
      · rw [if_neg same, if_neg fun both => same both.1.symm]

/-- A key and a stamp. -/
abbrev Mark : Type := TombstoneKey × Stamp

def markOf (target : NetworkRuleTarget) (ownership : NetworkRuleOwnership) : Mark :=
  (keyOf target ownership, ownership.stamp)

/-- The key's tombstone is not older than the mark. -/
def Buried (store : NetworkRuleStore) (mark : Mark) : Prop :=
  ∃ tombstone, get? store.tombstones mark.1 = some tombstone ∧ mark.2 ≤ tombstone.stamp

theorem Buried.of_tombstones {before after : NetworkRuleStore} {mark : Mark}
    (same : after.tombstones = before.tombstones) (buried : Buried before mark) :
    Buried after mark := by
  unfold Buried
  rw [same]
  exact buried

theorem uncovered_of {held : Option Tombstone}
    (uncovered : ¬ held.any (fun tombstone => tombstone.covers ownership) = true)
    {tombstone : Tombstone} (found : held = some tombstone) :
    tombstone.stamp < ownership.stamp := by
  rw [found, Option.any_some, covers_iff] at uncovered
  exact not_le.mp uncovered

theorem Buried.bury {mark : Mark} (buried : Buried store mark) (tidy : Tidy pairs store)
    (few : pairs.length ≤ maximumTombstones) (named : keyOf target ownership ∈ pairs)
    (byReset : Bool) : Buried (bury store target ownership byReset) mark := by
  obtain ⟨tombstone, found, level⟩ := buried
  unfold Buried
  rw [(bury_spec tidy few named byReset).2]
  split
  next fresh => exact ⟨_, rfl, level.trans (uncovered_of fresh.2 found).le⟩
  next => exact ⟨tombstone, found, level⟩

theorem buried_bury (tidy : Tidy pairs store) (few : pairs.length ≤ maximumTombstones)
    (named : keyOf target ownership ∈ pairs) (byReset : Bool) :
    Buried (bury store target ownership byReset) (markOf target ownership) := by
  unfold Buried
  rw [(bury_spec tidy few named byReset).2]
  by_cases covered : (get? store.tombstones (keyOf target ownership)).any
      (fun held => held.covers ownership) = true
  · rw [markOf, if_neg fun fresh => fresh.2 covered]
    obtain ⟨tombstone, found, covers⟩ := (Option.any_eq_true _ _).mp covered
    exact ⟨tombstone, found, (covers_iff tombstone ownership).mp covers⟩
  · rw [markOf, if_pos ⟨rfl, covered⟩]
    exact ⟨_, rfl, le_refl _⟩

theorem get?_bury_of_ne (tidy : Tidy pairs store) (few : pairs.length ≤ maximumTombstones)
    (named : keyOf target ownership ∈ pairs) (byReset : Bool) {key : TombstoneKey}
    (apart : key ≠ keyOf target ownership) :
    get? (bury store target ownership byReset).tombstones key = get? store.tombstones key := by
  rw [(bury_spec tidy few named byReset).2, if_neg fun fresh => apart fresh.1]

end Tombstones

section Fences

variable {pairs : List TombstoneKey} {accepted fences : List Mark}

/-- The mark is not newer than the active rule of its key. -/
def Installed (store : NetworkRuleStore) (mark : Mark) : Prop :=
  ∃ rule, get? store.rules mark.1.target = some rule ∧
    keyOf mark.1.target rule.ownership = mark.1 ∧ mark.2 ≤ rule.ownership.stamp

/-- Every accepted command is buried, or not newer than its key's active rule; every fence is
buried, and an active rule is newer than its key's tombstone. -/
structure Fenced (pairs : List TombstoneKey) (accepted fences : List Mark)
    (store : NetworkRuleStore) : Prop where
  tidy : Tidy pairs store
  distinct : (keys store.rules).Nodup
  few : store.rules.length ≤ maximumRules
  allowed : ∀ target rule, get? store.rules target = some rule → keyOf target rule.ownership ∈ pairs
  above : ∀ target rule tombstone, get? store.rules target = some rule →
    get? store.tombstones (keyOf target rule.ownership) = some tombstone →
    tombstone.stamp < rule.ownership.stamp
  accepted : ∀ mark ∈ accepted, Buried store mark ∨ Installed store mark
  fences : ∀ mark ∈ fences, Buried store mark

theorem Fenced.start (supportsShaping : Bool) :
    Fenced pairs [] [] { supportsShaping := supportsShaping } := by
  refine ⟨⟨nodup_nil, ?_, ?_⟩, nodup_keys_nil, Nat.zero_le _, ?_, ?_, ?_, ?_⟩
  · intro key member
    cases member
  · intro key
    constructor
    · intro member
      cases member
    · intro found
      cases found
  · intro target rule found
    cases found
  · intro target rule tombstone found
    cases found
  · intro mark member
    cases member
  · intro mark member
    cases member

theorem Fenced.fewer {more : List Mark} (fenced : Fenced pairs more fences store)
    (among : accepted ⊆ more) : Fenced pairs accepted fences store :=
  ⟨fenced.tidy, fenced.distinct, fenced.few, fenced.allowed, fenced.above,
    fun mark member => fenced.accepted mark (among member), fenced.fences⟩

theorem rules_bury_erase (byReset : Bool) (other : NetworkRuleTarget) :
    get? (bury { store with rules := erase store.rules target } target ownership byReset).rules
        other =
      if target = other then none else get? store.rules other := by
  rw [bury_rules]
  exact get?_erase _ _ _

/-- A mark stays covered when its target's rule gives way to one that is not older. -/
theorem Fenced.covered {next : NetworkRuleStore} (fenced : Fenced pairs accepted fences store)
    (older : ∀ existing, get? store.rules target = some existing →
      keyOf target existing.ownership = keyOf target ownership ∧
        existing.ownership.stamp ≤ ownership.stamp)
    (kept : ∀ mark, Buried store mark → Buried next mark)
    (others : ∀ other, target ≠ other → get? next.rules other = get? store.rules other)
    (own : ∀ level, level ≤ ownership.stamp → Buried next (keyOf target ownership, level) ∨
      Installed next (keyOf target ownership, level)) :
    ∀ mark ∈ accepted ++ [markOf target ownership], Buried next mark ∨ Installed next mark := by
  intro mark member
  rcases mem_append.mp member with old | new
  · rcases fenced.accepted mark old with buried | ⟨rule, there, same, level⟩
    · exact Or.inl (kept mark buried)
    · by_cases here : target = mark.1.target
      · rw [← here] at there same
        obtain ⟨key, lower⟩ := older rule there
        have reached := own mark.2 (level.trans lower)
        rw [← key, same] at reached
        exact reached
      · exact Or.inr ⟨rule, (others _ here).trans there, same, level⟩
  · rw [mem_singleton.mp new]
    exact own _ (le_refl _)

/-- The target's rule ends and an ownership that is not older is buried: its stamp is a fence from
then on. -/
theorem Fenced.bury (fenced : Fenced pairs accepted fences store)
    (few : pairs.length ≤ maximumTombstones) (named : keyOf target ownership ∈ pairs)
    (older : ∀ existing, get? store.rules target = some existing →
      keyOf target existing.ownership = keyOf target ownership ∧
        existing.ownership.stamp ≤ ownership.stamp) (byReset : Bool) :
    Fenced pairs (accepted ++ [markOf target ownership]) (fences ++ [markOf target ownership])
      (NetworkRules.bury { store with rules := erase store.rules target } target ownership
        byReset) := by
  have erased : Tidy pairs { store with rules := erase store.rules target } :=
    ⟨fenced.tidy.distinct, fenced.tidy.among, fenced.tidy.listed⟩
  have kept : ∀ mark, Buried store mark →
      Buried (NetworkRules.bury { store with rules := erase store.rules target } target ownership
        byReset) mark := by
    intro mark buried
    have before : Buried { store with rules := erase store.rules target } mark := buried
    exact before.bury erased few named byReset
  have own := buried_bury erased few named byReset
  refine ⟨(bury_spec erased few named byReset).1, ?_, ?_, ?_, ?_, ?_, ?_⟩
  · rw [bury_rules]
    exact nodup_keys_erase fenced.distinct _
  · rw [bury_rules]
    exact Nat.le_trans (length_filter_le _ _) fenced.few
  · intro other rule there
    rw [rules_bury_erase] at there
    split at there
    · cases there
    · exact fenced.allowed other rule there
  · intro other rule tombstone there buried
    rw [rules_bury_erase] at there
    split at there
    · cases there
    next apart =>
      have different : keyOf other rule.ownership ≠ keyOf target ownership :=
        fun same => apart (congrArg TombstoneKey.target same).symm
      rw [get?_bury_of_ne erased few named byReset different] at buried
      exact fenced.above other rule tombstone there buried
  · apply fenced.covered older kept
    · intro other apart
      rw [rules_bury_erase, if_neg apart]
    · intro level lower
      obtain ⟨tombstone, stored, reached⟩ := own
      exact Or.inl ⟨tombstone, stored, lower.trans reached⟩
  · intro mark member
    rcases mem_append.mp member with old | new
    · exact kept mark (fenced.fences mark old)
    · rw [mem_singleton.mp new]
      exact own

theorem Fenced.expire {entry : NetworkRuleTarget × Rule}
    (fenced : Fenced pairs accepted fences store) (few : pairs.length ≤ maximumTombstones)
    (found : get? store.rules entry.1 = some entry.2) :
    Fenced pairs accepted (fences ++ [markOf entry.1 entry.2.ownership]) (expire store entry) := by
  have older : ∀ existing, get? store.rules entry.1 = some existing →
      keyOf entry.1 existing.ownership = keyOf entry.1 entry.2.ownership ∧
        existing.ownership.stamp ≤ entry.2.ownership.stamp := by
    intro existing there
    rw [found] at there
    cases there
    exact ⟨rfl, le_refl _⟩
  have buried := fenced.bury few (fenced.allowed entry.1 entry.2 found) older false
  exact buried.fewer (subset_append_left _ _)

/-- A rule is put in the place of one that is not newer, past the tombstone of its key. -/
theorem Fenced.put {fresh : Rule} (fenced : Fenced pairs accepted fences store)
    (named : keyOf target fresh.ownership ∈ pairs)
    (older : ∀ existing, get? store.rules target = some existing →
      keyOf target existing.ownership = keyOf target fresh.ownership ∧
        existing.ownership.stamp ≤ fresh.ownership.stamp)
    (newer : ∀ tombstone, get? store.tombstones (keyOf target fresh.ownership) = some tombstone →
      tombstone.stamp < fresh.ownership.stamp)
    (room : get? store.rules target = none → store.rules.length < maximumRules) :
    Fenced pairs (accepted ++ [markOf target fresh.ownership]) fences
      { store with rules := InsertionMap.put store.rules target fresh } := by
  refine ⟨⟨fenced.tidy.distinct, fenced.tidy.among, fenced.tidy.listed⟩,
    nodup_keys_put fenced.distinct _ _, ?_, ?_, ?_, ?_, fenced.fences⟩
  · cases found : get? store.rules target with
    | none =>
      have absent : target ∉ keys store.rules := (get?_eq_none_iff _ _).mp found
      show (InsertionMap.put store.rules target fresh).length ≤ maximumRules
      rw [put_of_fresh absent, length_append]
      exact room found
    | some existing =>
      have member : target ∈ keys store.rules := by
        by_contra absent
        rw [(get?_eq_none_iff _ _).mpr absent] at found
        cases found
      have same : (keys (InsertionMap.put store.rules target fresh)).length =
          (keys store.rules).length := by
        rw [keys_put, if_pos member]
      unfold keys at same
      rw [length_map, length_map] at same
      show (InsertionMap.put store.rules target fresh).length ≤ maximumRules
      rw [same]
      exact fenced.few
  · intro other rule there
    rcases of_get?_put there with ⟨same, rfl⟩ | ⟨_, there⟩
    · rw [← same]
      exact named
    · exact fenced.allowed other rule there
  · intro other rule tombstone there buried
    rcases of_get?_put there with ⟨same, rfl⟩ | ⟨_, there⟩
    · rw [← same] at buried
      exact newer tombstone buried
    · exact fenced.above other rule tombstone there buried
  · refine fenced.covered older (fun _ buried => ?_) ?_ ?_
    · exact buried
    · exact fun other apart => get?_put_of_ne _ apart _
    · exact fun level lower => Or.inr ⟨fresh, get?_put_self _ _ _, rfl, lower⟩

/-- Ending the rules of entries leaves those of other targets. -/
theorem get?_expireAll (entries : List (NetworkRuleTarget × Rule)) (target : NetworkRuleTarget) :
    get? (entries.foldl expire store).rules target =
      if target ∈ keys entries then none else get? store.rules target := by
  induction entries generalizing store with
  | nil => rfl
  | cons entry rest ih =>
    rw [foldl_cons, ih]
    have rules : get? (expire store entry).rules target =
        if entry.1 = target then none else get? store.rules target := by
      unfold expire
      rw [bury_rules]
      exact get?_erase _ _ _
    rw [rules]
    have listed : target ∈ keys (entry :: rest) ↔ target = entry.1 ∨ target ∈ keys rest := mem_cons
    by_cases here : target = entry.1
    · rw [if_pos here.symm, ite_self, if_pos (listed.mpr (Or.inl here))]
    · rw [if_neg (Ne.symm here)]
      by_cases later : target ∈ keys rest
      · rw [if_pos later, if_pos (listed.mpr (Or.inr later))]
      · rw [if_neg later, if_neg fun either => (listed.mp either).elim here later]

def marksOf (entries : List (NetworkRuleTarget × Rule)) : List Mark :=
  entries.map fun entry => markOf entry.1 entry.2.ownership

theorem Fenced.expireAll {entries : List (NetworkRuleTarget × Rule)}
    (fenced : Fenced pairs accepted fences store) (few : pairs.length ≤ maximumTombstones)
    (distinct : (keys entries).Nodup)
    (found : ∀ entry ∈ entries, get? store.rules entry.1 = some entry.2) :
    Fenced pairs accepted (fences ++ marksOf entries) (entries.foldl NetworkRules.expire store) := by
  induction entries generalizing store fences with
  | nil =>
    show Fenced pairs accepted (fences ++ []) store
    rw [append_nil]
    exact fenced
  | cons entry rest ih =>
    have first := fenced.expire few (found entry mem_cons_self)
    have apart := nodup_cons.mp distinct
    have later : ∀ other ∈ rest,
        get? (NetworkRules.expire store entry).rules other.1 = some other.2 := by
      intro other member
      have single := @get?_expireAll store [entry] other.1
      rw [foldl_cons, foldl_nil] at single
      rw [single, if_neg]
      · exact found other (mem_cons_of_mem _ member)
      · intro same
        rw [keys, map_cons, map_nil, mem_singleton] at same
        exact apart.1 (same ▸ mem_map_of_mem member)
    have whole := ih first apart.2 later
    rw [append_assoc] at whole
    exact whole

theorem expired_found (fenced : Fenced pairs accepted fences store) (now : Nat) :
    (keys (expired store now)).Nodup ∧
      ∀ entry ∈ expired store now, get? store.rules entry.1 = some entry.2 := by
  refine ⟨fenced.distinct.sublist (List.Sublist.map _ filter_sublist), ?_⟩
  intro entry member
  exact get?_of_mem fenced.distinct (mem_filter.mp member).1

theorem Fenced.sweep (fenced : Fenced pairs accepted fences store)
    (few : pairs.length ≤ maximumTombstones) (now : Nat) :
    Fenced pairs accepted (fences ++ marksOf (expired store now)) (sweep store now) := by
  obtain ⟨distinct, found⟩ := expired_found fenced now
  exact fenced.expireAll few distinct found

/-- A sweep leaves exactly the rules whose lease has not ended. -/
theorem get?_sweep (distinct : (keys store.rules).Nodup) (now : Nat) (target : NetworkRuleTarget) :
    get? (sweep store now).rules target =
      (get? store.rules target).filter fun rule => now < rule.expiresAt := by
  unfold sweep
  rw [get?_expireAll]
  cases found : get? store.rules target with
  | none => simp
  | some rule =>
    by_cases ended : rule.expiresAt ≤ now
    · have listed : (target, rule) ∈ expired store now :=
        mem_filter.mpr ⟨mem_of_get? found, decide_eq_true ended⟩
      have member : target ∈ keys (expired store now) := mem_map_of_mem listed
      rw [if_pos member, Option.filter_some, if_neg (by simp; omega)]
    · have absent : target ∉ keys (expired store now) := by
        intro member
        obtain ⟨entry, listed, same⟩ := mem_map.mp member
        obtain ⟨there, past⟩ := mem_filter.mp listed
        have own := get?_of_mem distinct there
        rw [same, found] at own
        cases own
        exact ended (of_decide_eq_true past)
      rw [if_neg absent, Option.filter_some, if_pos (by simp; omega)]

end Fences

section Commands

variable {command : NetworkRuleCommand} {resolved : Option ShapingResolution}
variable {next : NetworkRuleStore} {result : NetworkRuleResult}

/-- The result of a command that was not accepted. -/
def Refused (result : NetworkRuleResult) : Prop :=
  result.outcome ≠ .applied ∧ result.outcome ≠ .reset ∧ result.outcome ≠ .renewed

theorem refused_of (plain : result.outcome ≠ .applied ∧ result.outcome ≠ .reset ∧
    result.outcome ≠ .renewed) : Refused result := plain

/-- The refusal that is answered is all there is to the answer. -/
theorem Refused.only {refusal : NetworkRuleResult} {rest : Prop} (refused : Refused refusal)
    (done : some (store, refusal) = some (next, result)) :
    (next = store ∧ Refused result) ∨ rest := by
  cases done
  exact Or.inl ⟨rfl, refused⟩

theorem fenced_refused (passed : fenced store target ownership false = some result) :
    Refused result := by
  unfold fenced at passed
  unfold Refused
  split at passed
  · cases passed
  · split at passed
    · cases passed
      decide
    · split at passed
      · cases passed
      · split at passed
        next both => simp at both
        next =>
          split at passed
          · cases passed
            decide
          · cases passed

/-- The tombstone answers a reset: it refuses it, or has buried that very reset. -/
theorem fenced_answered (passed : fenced store target ownership true = some result) :
    Refused result ∨ (result.outcome = .reset ∧ Buried store (markOf target ownership)) := by
  unfold fenced at passed
  split at passed
  · cases passed
  next tombstone found =>
    split at passed
    · cases passed
      left
      unfold Refused
      decide
    next current =>
      split at passed
      · cases passed
      next same =>
        split at passed
        next duplicate =>
          cases passed
          refine Or.inr ⟨rfl, tombstone, found, ?_⟩
          simp only [Bool.true_and, Bool.and_eq_true, decide_eq_true_eq] at duplicate
          unfold markOf NetworkRuleOwnership.stamp Tombstone.stamp
          rw [Decidable.not_not.mp same, duplicate.2]
        next =>
          split at passed
          · cases passed
            left
            unfold Refused
            decide
          · cases passed

/-- The active rule of the target, if any, is of the owner and not newer. -/
def Older (store : NetworkRuleStore) (target : NetworkRuleTarget)
    (ownership : NetworkRuleOwnership) : Prop :=
  ∀ existing, get? store.rules target = some existing →
    keyOf target existing.ownership = keyOf target ownership ∧
      existing.ownership.stamp ≤ ownership.stamp

theorem stamp_le {first second : NetworkRuleOwnership}
    (generation : ¬ second.ownerGeneration < first.ownerGeneration)
    (revision : ¬ (second.ownerGeneration = first.ownerGeneration ∧
      second.revision < first.revision)) : first.stamp ≤ second.stamp := by
  unfold NetworkRuleOwnership.stamp
  rw [Prod.Lex.toLex_le_toLex]
  dsimp only
  omega

theorem applyRefusal_refused {condition : NetworkRuleCommandCondition}
    (refusal : applyRefusal store command condition now = some result) : Refused result := by
  unfold applyRefusal at refusal
  unfold Refused
  dsimp only at refusal
  split at refusal
  · split at refusal
    · cases refusal
      decide
    · split at refusal
      · cases refusal
        decide
      · split at refusal
        · cases refusal
          simp [installedRefusal]
        · split at refusal
          · cases refusal
            decide
          · cases refusal
  · split at refusal
    · cases refusal
      decide
    · cases refusal

theorem applyRefusal_none {condition : NetworkRuleCommandCondition}
    (passed : applyRefusal store command condition now = none) :
    Older store command.target command.ownership ∧
      (get? store.rules command.target = none → store.rules.length < maximumRules) := by
  unfold applyRefusal at passed
  dsimp only at passed
  split at passed
  next existing found =>
    constructor
    · intro other there
      rw [found] at there
      cases there
      split at passed
      · cases passed
      next same =>
        split at passed
        · cases passed
        next generation =>
          split at passed
          · cases passed
          next revision =>
            refine ⟨?_, stamp_le generation revision⟩
            unfold keyOf
            rw [Decidable.not_not.mp same]
    · intro missing
      rw [found] at missing
      cases missing
  next missing =>
    constructor
    · intro other there
      rw [missing] at there
      cases there
    · intro _
      split at passed
      · cases passed
      next room => exact Nat.not_le.mp room

/-- What an accepted apply has done. -/
structure Applied (store : NetworkRuleStore) (command : NetworkRuleCommand) (now : Nat)
    (next : NetworkRuleStore) (rule : Rule) : Prop where
  stored : next = { store with rules := put store.rules command.target rule }
  ownership : rule.ownership = command.ownership
  lease : ∃ lease, command.leaseMilliseconds = some lease ∧ rule.expiresAt = now + lease * 1000000
  passed : fenced store command.target command.ownership false = none
  older : Older store command.target command.ownership
  room : get? store.rules command.target = none → store.rules.length < maximumRules

theorem validLease_eq {milliseconds : Option Nat} {lease : Nat}
    (valid : validLease milliseconds = some lease) : milliseconds = some lease :=
  (Option.filter_eq_some_iff.mp valid).1

theorem expiry_eq {lease expiresAt : Nat} (within : expiry now lease = some expiresAt) :
    expiresAt = now + lease * 1000000 := by
  unfold expiry at within
  dsimp only at within
  split at within
  · exact (Option.some.inj within).symm
  · cases within

theorem apply_spec (done : apply store command resolved now = some (next, result)) :
    (next = store ∧ Refused result) ∨
      (result.outcome = .applied ∧ ∃ rule, Applied store command now next rule) := by
  unfold apply at done
  split at done
  · exact (refused_of (by decide)).only done
  next condition _ =>
    split at done
    · exact (refused_of (by decide)).only done
    next lease valid =>
      split at done
      next refusal answer => exact (fenced_refused answer).only done
      next passed =>
        split at done
        next refusal answer => exact (applyRefusal_refused answer).only done
        next accepted =>
          obtain ⟨expiresAt, within, same⟩ := Option.map_eq_some_iff.mp done
          cases same
          obtain ⟨older, room⟩ := applyRefusal_none accepted
          exact Or.inr ⟨rfl, _, rfl, rfl, ⟨lease, validLease_eq valid, expiry_eq within⟩, passed,
            older, room⟩

theorem resetRefusal_refused (refusal : resetRefusal store target ownership = some result) :
    Refused result := by
  unfold resetRefusal at refusal
  unfold Refused
  split at refusal
  · split at refusal
    · cases refusal
      decide
    · split at refusal
      · cases refusal
        decide
      · split at refusal
        · cases refusal
          simp
        · cases refusal
  · cases refusal

theorem resetRefusal_none (passed : resetRefusal store target ownership = none) :
    Older store target ownership := by
  intro existing there
  unfold resetRefusal at passed
  rw [there] at passed
  dsimp only at passed
  split at passed
  · cases passed
  next same =>
    split at passed
    · cases passed
    next generation =>
      split at passed
      · cases passed
      next revision =>
        refine ⟨?_, stamp_le generation fun both => revision ⟨both.1, both.2.le⟩⟩
        unfold keyOf
        rw [Decidable.not_not.mp same]

/-- A reset is refused, has been buried before, or ends the owner's rule and is buried. -/
theorem reset_spec (store : NetworkRuleStore) (target : NetworkRuleTarget)
    (ownership : NetworkRuleOwnership) :
    ((reset store target ownership).1 = store ∧ Refused (reset store target ownership).2) ∨
      ((reset store target ownership).1 = store ∧
        (reset store target ownership).2.outcome = .reset ∧
        Buried store (markOf target ownership)) ∨
      ((reset store target ownership).1 =
          bury { store with rules := erase store.rules target } target ownership true ∧
        (reset store target ownership).2.outcome = .reset ∧
        fenced store target ownership true = none ∧ Older store target ownership) := by
  unfold reset
  cases answer : fenced store target ownership true with
  | some refusal =>
    dsimp only
    rcases fenced_answered answer with refused | ⟨outcome, buried⟩
    · exact Or.inl ⟨rfl, refused⟩
    · exact Or.inr (Or.inl ⟨rfl, outcome, buried⟩)
  | none =>
    dsimp only
    cases refusal : resetRefusal store target ownership with
    | some refused => exact Or.inl ⟨rfl, resetRefusal_refused refusal⟩
    | none => exact Or.inr (Or.inr ⟨rfl, rfl, rfl, resetRefusal_none refusal⟩)

/-- What an accepted renew has done. -/
structure Renewed (store : NetworkRuleStore) (command : NetworkRuleCommand) (now : Nat)
    (next : NetworkRuleStore) (before rule : Rule) : Prop where
  found : get? store.rules command.target = some before
  owner : before.ownership.owner = command.ownership.owner
  ticket : before.ticket command.target = ticketOf command.target command.ownership
  stored : next = { store with rules := put store.rules command.target rule }
  ownership : rule.ownership = before.ownership
  lease : ∃ lease, command.leaseMilliseconds = some lease ∧ rule.expiresAt = now + lease * 1000000

theorem renew_spec (done : renew store command now = some (next, result)) :
    (next = store ∧ Refused result) ∨
      (result.outcome = .renewed ∧ ∃ before rule, Renewed store command now next before rule) := by
  unfold renew at done
  split at done
  · exact (refused_of (by decide)).only done
  next lease valid =>
    split at done
    · exact (refused_of (by decide)).only done
    next rule found =>
      split at done
      · exact (refused_of (by decide)).only done
      next owner =>
        split at done
        · exact (refused_of (by decide)).only done
        next generation =>
          split at done
          · exact (refused_of (by simp [installedRefusal])).only done
          next revision =>
            obtain ⟨expiresAt, within, same⟩ := Option.map_eq_some_iff.mp done
            cases same
            refine Or.inr ⟨rfl, rule, _, found, Decidable.not_not.mp owner, ?_, rfl, rfl,
              ⟨lease, validLease_eq valid, expiry_eq within⟩⟩
            unfold Rule.ticket ticketOf
            rw [Decidable.not_not.mp owner, ← Decidable.not_not.mp generation,
              ← Decidable.not_not.mp revision]

end Commands

end AutoMobile.NetworkRules
