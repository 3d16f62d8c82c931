import AutoMobile.BootAdmissionRuns

/- What the ledger does with its entries: an entry that leaves is kept by every open window, and a
view counts what is neither listed nor past its deadline. -/
namespace AutoMobile.BootAdmission

open List hiding keys
open InsertionMap

variable {Device : Type} [DecidableEq Device] {ledger before middle after : Ledger Device}
  {leaving : Nat → LedgerEntry Device → Prop}

/-- Nothing but entries that may leave is gone, and the open windows have kept those. -/
structure Ends (leaving : Nat → LedgerEntry Device → Prop) (before after : Ledger Device) :
    Prop where
  nextToken : after.nextToken = before.nextToken
  openWindows : after.openWindows = before.openWindows
  distinct : (keys before.entries).Nodup → (keys after.entries).Nodup
  remains : ∀ token entry, get? after.entries token = some entry →
    get? before.entries token = some entry
  ends : ∀ token entry, get? before.entries token = some entry →
    get? after.entries token = some entry ∨
      (leaving token entry ∧ ∀ window ∈ before.openWindows, ∃ kept ∈ after.ended window,
        kept.deviceId = entry.deviceId)
  keeps : ∀ window entry, entry ∈ before.ended window → entry ∈ after.ended window

omit [DecidableEq Device] in
theorem Ends.refl (ledger : Ledger Device) : Ends leaving ledger ledger where
  nextToken := rfl
  openWindows := rfl
  distinct := id
  remains _ _ found := found
  ends _ _ found := .inl found
  keeps _ _ kept := kept

omit [DecidableEq Device] in
theorem Ends.trans (first : Ends leaving before middle) (second : Ends leaving middle after) :
    Ends leaving before after where
  nextToken := second.nextToken.trans first.nextToken
  openWindows := second.openWindows.trans first.openWindows
  distinct := second.distinct ∘ first.distinct
  remains token entry found := first.remains token entry (second.remains token entry found)
  ends token entry found := by
    obtain there | ⟨left, windows⟩ := first.ends token entry found
    · obtain still | ⟨left, windows⟩ := second.ends token entry there
      · exact .inl still
      · exact .inr ⟨left, fun window opened => windows window (first.openWindows ▸ opened)⟩
    · refine .inr ⟨left, fun window opened => ?_⟩
      obtain ⟨kept, inside, same⟩ := windows window opened
      exact ⟨kept, second.keeps window kept inside, same⟩
  keeps window entry kept := second.keeps window entry (first.keeps window entry kept)

omit [DecidableEq Device] in
theorem ends_endBoot {token : Nat} {listed : Bool}
    (allowed : ∀ entry, get? ledger.entries token = some entry → leaving token entry) :
    Ends leaving ledger (endBoot ledger token listed) := by
  unfold endBoot
  cases booked : get? ledger.entries token with
  | none => exact Ends.refl ledger
  | some entry =>
    dsimp only
    constructor
    case nextToken => rfl
    case openWindows => rfl
    case distinct => exact fun distinct => nodup_keys_erase distinct token
    case remains =>
      intro other found present
      rw [get?_erase] at present
      split at present
      · exact absurd present (by simp)
      · exact present
    case ends =>
      intro other found present
      by_cases same : token = other
      · subst same
        obtain rfl := Option.some.inj (booked.symm.trans present)
        refine .inr ⟨allowed entry booked, fun window opened => ?_⟩
        refine ⟨if listed then { entry with handedOffUntilMs := none } else entry, ?_, ?_⟩
        · dsimp only
          rw [if_pos opened]
          exact mem_append_right _ (mem_singleton.2 rfl)
        · split <;> rfl
      · left
        rw [get?_erase, if_neg same]
        exact present
    case keeps =>
      intro window kept inside
      dsimp only
      split
      · exact mem_append_left _ inside
      · exact inside

section View

variable {now : Nat} {visible : List Device} {exclude : Option Device}

/-- The traversal ends what leaves; what it finds in the ledger is what it took from there. -/
theorem ends_viewEntries (listed : List (Nat × LedgerEntry Device)) (ledger : Ledger Device)
    (boots : List (LedgerEntry Device))
    (same : ∀ booked ∈ listed, ∀ entry, get? ledger.entries booked.1 = some entry →
      entry = booked.2) :
    Ends (fun _ entry => entry.leaves now visible = true) ledger
      (listed.foldl (viewEntry now visible exclude) (ledger, boots)).1 := by
  induction listed generalizing ledger boots with
  | nil => exact Ends.refl ledger
  | cons booked rest ih =>
    have sameRest : ∀ booked ∈ rest, ∀ entry, get? ledger.entries booked.1 = some entry →
        entry = booked.2 := fun other later => same other (mem_cons_of_mem _ later)
    rw [foldl_cons, viewEntry]
    split
    case isTrue leaves =>
      have first : Ends (fun _ entry => entry.leaves now visible = true) ledger
          (endBoot ledger booked.1 (booked.2.isVisible visible)) :=
        ends_endBoot fun entry found => by
          rw [same booked mem_cons_self entry found]
          exact leaves
      refine first.trans (ih _ _ fun other later entry found => ?_)
      exact sameRest other later entry (first.remains _ _ found)
    case isFalse =>
      split
      · exact ih ledger _ sameRest
      · exact ih ledger _ sameRest

theorem viewEntries_boots (listed : List (Nat × LedgerEntry Device)) (ledger : Ledger Device)
    (boots : List (LedgerEntry Device)) :
    (listed.foldl (viewEntry now visible exclude) (ledger, boots)).2.length =
      boots.length + (listed.filter fun booked => booked.2.counts now visible exclude).length := by
  induction listed generalizing ledger boots with
  | nil => rfl
  | cons booked rest ih =>
    rw [foldl_cons, viewEntry]
    split
    case isTrue leaves =>
      have uncounted : booked.2.counts now visible exclude = false := by
        simp [LedgerEntry.counts, leaves]
      rw [ih, filter_cons_of_neg (by simp [uncounted])]
    case isFalse =>
      split
      case isTrue counts =>
        rw [ih, filter_cons, if_pos counts, length_append, length_singleton, length_cons]
        exact Nat.add_right_comm _ _ _
      case isFalse uncounted => rw [ih, filter_cons, if_neg uncounted]

theorem ends_inFlightView (processes : List Nat) (window : Option Nat)
    (distinct : (keys ledger.entries).Nodup) :
    Ends (fun _ entry => entry.leaves now visible = true) ledger
      (inFlightView now visible exclude processes ledger window).1 := by
  refine ends_viewEntries ledger.entries ledger _ fun booked listed entry found => ?_
  exact Option.some.inj (found.symm.trans (get?_of_mem distinct listed))

/-- What a view counts: what ended during the sample, and what the ledger has. -/
theorem inFlightView_count (processes : List Nat) (window : Option Nat) :
    (inFlightView now visible exclude processes ledger window).2.count =
      (endedDuringSample now visible exclude ledger window).length +
        (ledger.entries.filter fun booked => booked.2.counts now visible exclude).length :=
  viewEntries_boots _ _ _

end View

end AutoMobile.BootAdmission
