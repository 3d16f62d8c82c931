import AutoMobile.BootAdmissionWindows

/- The limit on running devices: a decision counts every device that its listing lacks, as long as
no such device is one of a boot past its deadline. -/
namespace AutoMobile.BootAdmission

open List hiding keys
open InsertionMap Runs

variable {Device : Type} [DecidableEq Device] {deviceOf : Nat → Device}

/-- A listing still to be answered: what it lacks is in the ledger or in the window. -/
structure Listed (deviceOf : Nat → Device) (world : World Device) (window : Nat)
    (listing : List Device) : Prop where
  others : ∀ device ∈ world.others, device ∈ listing
  started : ∀ token ∈ world.started, deviceOf token ∈ listing ∨ token ∈ keys world.ledger.entries ∨
    ∃ entry ∈ world.ledger.ended window, entry.deviceId = some (deviceOf token)
  waiting : ∀ token ∈ world.waiting, deviceOf token ∉ listing
  later : ∀ token, world.ledger.nextToken ≤ token → deviceOf token ∉ listing

/-- The ledger has every boot that may still start, under the device of that boot. -/
structure Recorded (deviceOf : Nat → Device) (world : World Device) : Prop where
  distinct : (keys world.ledger.entries).Nodup
  fresh : ∀ token ∈ keys world.ledger.entries, token < world.ledger.nextToken
  waitingDistinct : world.waiting.Nodup
  waitingBooked : ∀ token ∈ world.waiting, token ∈ keys world.ledger.entries
  waitingDevice : ∀ token ∈ world.waiting, ∀ entry, get? world.ledger.entries token = some entry →
      entry.deviceId = none ∨ entry.deviceId = some (deviceOf token)
  waitingTimely : ∀ token ∈ world.waiting, ∀ entry,
    get? world.ledger.entries token = some entry → entry.isExpired world.now = false
  startedDistinct : world.started.Nodup
  startedFresh : ∀ token ∈ world.started, token < world.ledger.nextToken
  startedDevice : ∀ token ∈ world.started, ∀ entry,
    get? world.ledger.entries token = some entry → entry.deviceId = some (deviceOf token)
  apart : ∀ token ∈ world.started, token ∉ world.waiting
  othersDistinct : world.others.Nodup
  foreign : ∀ token, deviceOf token ∉ world.others
  windows : ∀ window call, world.calls window = some call → window ∈ world.ledger.openWindows
  listings : ∀ window listing, (world.calls window).bind Call.listing = some listing →
    Listed deviceOf world window listing

section Counting

variable {world : World Device} {window : Nat} {listing : List Device}

variable {entry : LedgerEntry Device} {token : Nat}

theorem isVisible_of_device {device : Device} (carried : entry.deviceId = some device) :
    entry.isVisible listing = decide (device ∈ listing) := by
  rw [LedgerEntry.isVisible, carried, Option.any_some]

theorem isVisible_of_none (bare : entry.deviceId = none) : entry.isVisible listing = false := by
  rw [LedgerEntry.isVisible, bare, Option.any_none]

/-- Neither listed nor past its deadline: then the entry counts. -/
theorem counts_of_unlisted {now : Nat} (unseen : entry.isVisible listing = false)
    (timely : entry.isExpired now = false) :
    entry.counts now listing none = true := by
  simp [LedgerEntry.counts, LedgerEntry.leaves, LedgerEntry.isExcluded, unseen, timely]

/-- The entries that a decision on the listing counts. -/
def countedTokens (world : World Device) (listing : List Device) : List Nat :=
  keys (world.ledger.entries.filter fun booked => booked.2.counts world.now listing none)

theorem mem_countedTokens (found : get? world.ledger.entries token = some entry)
    (counts : entry.counts world.now listing none = true) :
    token ∈ countedTokens world listing :=
  mem_map.2 ⟨(token, entry), mem_filter.2 ⟨mem_of_get? found, counts⟩, rfl⟩

/-- A started boot that the listing lacks and the ledger has is counted. -/
theorem counted_of_started (recorded : Recorded deviceOf world)
    (timely : ∀ entry ∈ world.ledger.ended window ++ values world.ledger.entries,
      entry.isExpired world.now = true → ∀ device, entry.deviceId = some device →
        device ∈ running deviceOf world → device ∈ listing) (runs : token ∈ world.started)
    (unlisted : deviceOf token ∉ listing) (booked : token ∈ keys world.ledger.entries) :
    token ∈ countedTokens world listing := by
  obtain ⟨entry, found⟩ := (mem_keys_iff _ _).1 booked
  have carried := recorded.startedDevice token runs entry found
  refine mem_countedTokens found (counts_of_unlisted ?_ ?_)
  · rw [isVisible_of_device carried]
    exact decide_eq_false unlisted
  · refine Bool.eq_false_iff.2 fun expired => unlisted ?_
    exact timely entry (mem_append_right _ (mem_map.2 ⟨_, mem_of_get? found, rfl⟩))
      expired _ carried (mem_append_right _ (mem_map.2 ⟨token, runs, rfl⟩))

theorem counted_of_waiting (recorded : Recorded deviceOf world)
    (listed : Listed deviceOf world window listing) (waits : token ∈ world.waiting) :
    token ∈ countedTokens world listing := by
  obtain ⟨entry, found⟩ := (mem_keys_iff _ _).1 (recorded.waitingBooked token waits)
  refine mem_countedTokens found
    (counts_of_unlisted ?_ (recorded.waitingTimely token waits entry found))
  obtain bare | carried := recorded.waitingDevice token waits entry found
  · exact isVisible_of_none bare
  · rw [isVisible_of_device carried]
    exact decide_eq_false (listed.waiting token waits)

/-- The boots whose device runs without being listed. -/
def unlistedBoots (deviceOf : Nat → Device) (world : World Device) (listing : List Device) :
    List Nat :=
  world.started.filter fun token => !decide (deviceOf token ∈ listing)

theorem mem_unlistedBoots : token ∈ unlistedBoots deviceOf world listing ↔
      token ∈ world.started ∧ deviceOf token ∉ listing := by
  simp [unlistedBoots]

section

variable (unique : Function.Injective deviceOf) (recorded : Recorded deviceOf world)
  (listed : Listed deviceOf world window listing)
include unique recorded listed

theorem listed_le : (running deviceOf world).length ≤
      listing.length + (unlistedBoots deviceOf world listing).length := by
  let seen := world.started.filter fun token => decide (deviceOf token ∈ listing)
  have parts : world.started.length = seen.length + (unlistedBoots deviceOf world listing).length :=
    length_eq_length_filter_add _
  have distinct : (world.others ++ seen.map deviceOf).Nodup := by
    refine List.Nodup.append recorded.othersDistinct
      ((recorded.startedDistinct.filter _).map unique) fun device other mapped => ?_
    obtain ⟨token, _, rfl⟩ := mem_map.1 mapped
    exact recorded.foreign token other
  have inside : world.others ++ seen.map deviceOf ⊆ listing := by
    intro device member
    obtain other | mapped := mem_append.1 member
    · exact listed.others device other
    · obtain ⟨token, kept, rfl⟩ := mem_map.1 mapped
      exact of_decide_eq_true (mem_filter.1 kept).2
  have bound := List.Nodup.length_le_of_subset distinct inside
  simp only [running, length_append, length_map] at bound ⊢
  omega

/-- An unlisted device is that of an entry, or of one that ended during the sample. -/
theorem unlisted_le (timely : ∀ entry ∈ world.ledger.ended window ++ values world.ledger.entries,
      entry.isExpired world.now = true → ∀ device, entry.deviceId = some device →
        device ∈ running deviceOf world → device ∈ listing) :
    (unlistedBoots deviceOf world listing).length + world.waiting.length ≤
      (endedDuringSample world.now listing none world.ledger (some window)).length +
        (countedTokens world listing).length := by
  let isBooked := fun token => decide (token ∈ keys world.ledger.entries)
  let booked := (unlistedBoots deviceOf world listing).filter isBooked
  let ended := (unlistedBoots deviceOf world listing).filter fun token => !isBooked token
  have parts : (unlistedBoots deviceOf world listing).length = booked.length + ended.length :=
    length_eq_length_filter_add _
  have unlistedDistinct : (unlistedBoots deviceOf world listing).Nodup :=
    recorded.startedDistinct.filter _
  have bookedDistinct : (booked ++ world.waiting).Nodup := by
    refine List.Nodup.append (unlistedDistinct.filter _) recorded.waitingDistinct ?_
    intro token kept waits
    exact recorded.apart token (mem_unlistedBoots.1 (mem_filter.1 kept).1).1 waits
  have bookedInside : booked ++ world.waiting ⊆ countedTokens world listing := by
    intro token member
    obtain kept | waits := mem_append.1 member
    · obtain ⟨runs, unlisted⟩ := mem_unlistedBoots.1 (mem_filter.1 kept).1
      exact counted_of_started recorded timely runs unlisted
        (of_decide_eq_true (mem_filter.1 kept).2)
    · exact counted_of_waiting recorded listed waits
  have endedInside : ended.map deviceOf ⊆
      (endedDuringSample world.now listing none world.ledger (some window)).filterMap
        LedgerEntry.deviceId := by
    intro device mapped
    obtain ⟨token, kept, rfl⟩ := mem_map.1 mapped
    obtain ⟨runs, unlisted⟩ := mem_unlistedBoots.1 (mem_filter.1 kept).1
    have unbooked : token ∉ keys world.ledger.entries := by
      simpa [isBooked] using (mem_filter.1 kept).2
    obtain seen | there | ⟨entry, inWindow, carried⟩ := listed.started token runs
    · exact absurd seen unlisted
    · exact absurd there unbooked
    · refine mem_filterMap.2 ⟨entry, mem_filter.2 ⟨inWindow, ?_⟩, carried⟩
      have unseen : entry.isVisible listing = false := by
        rw [isVisible_of_device carried]
        exact decide_eq_false unlisted
      have unexpired : entry.isExpired world.now = false := by
        refine Bool.eq_false_iff.2 fun expired => unlisted ?_
        exact timely entry (mem_append_left _ inWindow) expired _ carried
          (mem_append_right _ (mem_map.2 ⟨token, runs, rfl⟩))
      simp [unseen, unexpired, LedgerEntry.isExcluded]
  have bookedBound := List.Nodup.length_le_of_subset bookedDistinct bookedInside
  have endedDistinct : (ended.map deviceOf).Nodup := (unlistedDistinct.filter _).map unique
  have endedBound := List.Nodup.length_le_of_subset endedDistinct endedInside
  have carriers := length_filterMap_le LedgerEntry.deviceId
    (endedDuringSample world.now listing none world.ledger (some window))
  simp only [length_append, length_map] at bookedBound endedBound
  omega

/-- Every running device and every boot that may add one is listed or counted. -/
theorem load_le_listed_and_counted
    (timely : ∀ entry ∈ world.ledger.ended window ++ values world.ledger.entries,
      entry.isExpired world.now = true → ∀ device, entry.deviceId = some device →
        device ∈ running deviceOf world → device ∈ listing) :
    (running deviceOf world).length + world.waiting.length ≤ listing.length +
      (inFlightView world.now listing none [] (closeWindow world.ledger window)
        (some window)).2.count := by
  have shown := listed_le unique recorded listed
  have counted := unlisted_le unique recorded listed timely
  have view : (inFlightView world.now listing none [] (closeWindow world.ledger window)
      (some window)).2.count =
      (endedDuringSample world.now listing none world.ledger (some window)).length +
        (countedTokens world listing).length := by
    rw [inFlightView_count, countedTokens, keys, length_map]
    rfl
  omega

end

end Counting

section Steps

variable {world : World Device}

omit [DecidableEq Device] in
/-- Entries may leave if their device runs or cannot start any more. -/
theorem Recorded.of_ends {leaving : Nat → LedgerEntry Device → Prop} {ledger : Ledger Device}
    (recorded : Recorded deviceOf world) (ends : Ends leaving world.ledger ledger)
    (spares : ∀ token ∈ world.waiting, ∀ entry, get? world.ledger.entries token = some entry →
      ¬ leaving token entry) : Recorded deviceOf { world with ledger } := by
  have booked : ∀ token ∈ keys ledger.entries, token ∈ keys world.ledger.entries := by
    intro token member
    obtain ⟨entry, found⟩ := (mem_keys_iff _ _).1 member
    exact (mem_keys_iff _ _).2 ⟨entry, ends.remains token entry found⟩
  constructor
  case distinct => exact ends.distinct recorded.distinct
  case fresh =>
    intro token member
    rw [ends.nextToken]
    exact recorded.fresh token (booked token member)
  case waitingDistinct => exact recorded.waitingDistinct
  case waitingBooked =>
    intro token waits
    obtain ⟨entry, found⟩ := (mem_keys_iff _ _).1 (recorded.waitingBooked token waits)
    obtain still | ⟨left, _⟩ := ends.ends token entry found
    · exact (mem_keys_iff _ _).2 ⟨entry, still⟩
    · exact absurd left (spares token waits entry found)
  case waitingDevice =>
    exact fun token waits entry found =>
      recorded.waitingDevice token waits entry (ends.remains token entry found)
  case waitingTimely =>
    exact fun token waits entry found =>
      recorded.waitingTimely token waits entry (ends.remains token entry found)
  case startedDistinct => exact recorded.startedDistinct
  case startedFresh =>
    intro token runs
    rw [ends.nextToken]
    exact recorded.startedFresh token runs
  case startedDevice =>
    exact fun token runs entry found =>
      recorded.startedDevice token runs entry (ends.remains token entry found)
  case apart => exact recorded.apart
  case othersDistinct => exact recorded.othersDistinct
  case foreign => exact recorded.foreign
  case windows =>
    intro window call found
    rw [ends.openWindows]
    exact recorded.windows window call found
  case listings =>
    intro window listing found
    have listed := recorded.listings window listing found
    have opened : window ∈ world.ledger.openWindows := by
      obtain ⟨call, known, _⟩ := Option.bind_eq_some_iff.1 found
      exact recorded.windows window call known
    refine ⟨listed.others, fun token runs => ?_, listed.waiting, ?_⟩
    · obtain seen | there | ⟨entry, inside, carried⟩ := listed.started token runs
      · exact .inl seen
      · obtain ⟨entry, held⟩ := (mem_keys_iff _ _).1 there
        obtain still | ⟨_, kept⟩ := ends.ends token entry held
        · exact .inr (.inl ((mem_keys_iff _ _).2 ⟨entry, still⟩))
        · obtain ⟨copy, inside, same⟩ := kept window opened
          exact .inr (.inr ⟨copy, inside, same.trans (recorded.startedDevice token runs entry held)⟩)
      · exact .inr (.inr ⟨entry, ends.keeps window entry inside, carried⟩)
    · intro token late
      rw [ends.nextToken] at late
      exact listed.later token late

omit [DecidableEq Device] in
theorem Recorded.of_close (recorded : Recorded deviceOf world) (window : Nat) : Recorded deviceOf
      { world with ledger := closeWindow world.ledger window, calls := forget world window } := by
  refine { recorded with windows := ?_, listings := ?_ }
  · intro other call found
    dsimp only [forget] at found
    split at found
    case isTrue => exact absurd found (by simp)
    case isFalse apart =>
      refine mem_filter.2 ⟨recorded.windows other call found, ?_⟩
      simpa using apart
  · intro other listing found
    dsimp only [forget] at found
    split at found
    case isTrue => exact absurd found (by simp)
    case isFalse => exact { recorded.listings other listing found with }

omit [DecidableEq Device] in
theorem Recorded.of_call (recorded : Recorded deviceOf world) : Recorded deviceOf { world with
      ledger := (beginSample world.ledger).1
      calls := fun window =>
        if window = world.ledger.nextWindow then some {} else world.calls window } := by
  refine { recorded with windows := ?_, listings := ?_ }
  · intro other call found
    dsimp only at found
    split at found
    case isTrue same =>
      rw [same]
      exact mem_append_right _ mem_cons_self
    case isFalse => exact mem_append_left _ (recorded.windows other call found)
  · intro other listing found
    dsimp only at found
    split at found
    case isTrue => exact absurd found (by simp)
    case isFalse => exact { recorded.listings other listing found with }

omit [DecidableEq Device] in
/-- A listing that is read now has all running devices. -/
theorem Recorded.of_list (unique : Function.Injective deviceOf) (recorded : Recorded deviceOf world)
    {window : Nat} {call : Call Device} (known : world.calls window = some call) :
    Recorded deviceOf { world with
      calls := fun other =>
        if other = window then some { listing := some (running deviceOf world) }
        else world.calls other } := by
  refine { recorded with windows := ?_, listings := ?_ }
  · intro other call found
    dsimp only at found
    split at found
    case isTrue same =>
      rw [same]
      exact recorded.windows window _ known
    case isFalse => exact recorded.windows other call found
  · intro other listing found
    dsimp only at found
    split at found
    case isTrue =>
      obtain rfl : running deviceOf world = listing := Option.some.inj found
      have absent : ∀ token, token ∉ world.started → deviceOf token ∉ running deviceOf world := by
        intro token idle member
        obtain other | mapped := mem_append.1 member
        · exact recorded.foreign token other
        · obtain ⟨twin, runs, same⟩ := mem_map.1 mapped
          exact idle (unique same ▸ runs)
      refine ⟨fun device other => mem_append_left _ other, fun token runs => ?_, ?_, ?_⟩
      · exact .inl (mem_append_right _ (mem_map.2 ⟨token, runs, rfl⟩))
      · exact fun token waits => absent token fun runs => recorded.apart token runs waits
      · intro token late
        exact absent token fun runs =>
          Nat.lt_irrefl _ (Nat.lt_of_lt_of_le (recorded.startedFresh token runs) late)
    case isFalse => exact { recorded.listings other listing found with }

variable {deviceId : Option Device} {token : Nat}

omit [DecidableEq Device] in
/-- An admission is the newest entry, of a boot that may start. -/
theorem Recorded.of_admit (recorded : Recorded deviceOf world)
    (carries : deviceId = none ∨ deviceId = some (deviceOf world.ledger.nextToken))
    (replacement : Bool) (reason : BootAdmissionReason) :
    Recorded deviceOf { world with
      ledger := (admitBoot world.ledger deviceId replacement reason).1
      waiting := world.ledger.nextToken :: world.waiting } := by
  have unbooked : world.ledger.nextToken ∉ keys world.ledger.entries := fun member =>
    Nat.lt_irrefl _ (recorded.fresh _ member)
  have found : ∀ token entry, get? (admitBoot world.ledger deviceId replacement reason).1.entries
      token = some entry → token ≠ world.ledger.nextToken →
      get? world.ledger.entries token = some entry := by
    intro token entry known apart
    rw [admitBoot, get?_put_of_ne _ apart.symm] at known
    exact known
  have newest : ∀ entry, get? (admitBoot world.ledger deviceId replacement reason).1.entries
      world.ledger.nextToken = some entry →
      entry = { deviceId, replacement, reason := some reason } := by
    intro entry known
    rw [admitBoot, get?_put_self] at known
    exact (Option.some.inj known).symm
  have idle : world.ledger.nextToken ∉ world.waiting := fun waits =>
    unbooked (recorded.waitingBooked _ waits)
  have unstarted : ∀ token ∈ world.started, token ≠ world.ledger.nextToken := fun token runs =>
    Nat.ne_of_lt (recorded.startedFresh token runs)
  have bookedStill : ∀ token ∈ keys world.ledger.entries,
      token ∈ keys (admitBoot world.ledger deviceId replacement reason).1.entries :=
    fun token member => mem_keys_put.2 (.inl member)
  constructor
  case distinct => exact nodup_keys_put recorded.distinct _ _
  case fresh =>
    intro token member
    obtain old | same := mem_keys_put.1 member
    · exact Nat.lt_succ_of_lt (recorded.fresh token old)
    · exact Nat.lt_succ_of_le (Nat.le_of_eq same)
  case waitingDistinct => exact nodup_cons.2 ⟨idle, recorded.waitingDistinct⟩
  case waitingBooked =>
    intro token waits
    obtain same | old := mem_cons.1 waits
    · exact mem_keys_put.2 (.inr same)
    · exact bookedStill token (recorded.waitingBooked token old)
  case waitingDevice =>
    intro token waits entry known
    obtain rfl | old := mem_cons.1 waits
    · rw [newest entry known]
      exact carries
    · exact recorded.waitingDevice token old entry
        (found token entry known fun same => idle (same ▸ old))
  case waitingTimely =>
    intro token waits entry known
    obtain rfl | old := mem_cons.1 waits
    · rw [newest entry known]
      rfl
    · exact recorded.waitingTimely token old entry
        (found token entry known fun same => idle (same ▸ old))
  case startedDistinct => exact recorded.startedDistinct
  case startedFresh => exact fun token runs => Nat.lt_succ_of_lt (recorded.startedFresh token runs)
  case startedDevice =>
    exact fun token runs entry known =>
      recorded.startedDevice token runs entry (found token entry known (unstarted token runs))
  case apart =>
    intro token runs waits
    obtain same | old := mem_cons.1 waits
    · exact unstarted token runs same
    · exact recorded.apart token runs old
  case othersDistinct => exact recorded.othersDistinct
  case foreign => exact recorded.foreign
  case windows => exact recorded.windows
  case listings =>
    intro window listing known
    have listed := recorded.listings window listing known
    refine ⟨listed.others, fun token runs => ?_, fun token waits => ?_, fun token late => ?_⟩
    · exact (listed.started token runs).imp_right (Or.imp_left (bookedStill token))
    · obtain rfl | old := mem_cons.1 waits
      · exact listed.later _ (Nat.le_refl _)
      · exact listed.waiting token old
    · exact listed.later token (Nat.le_of_succ_le late)

omit [DecidableEq Device] in
/-- An entry is written anew; it still carries the device of its boot or none. -/
theorem Recorded.of_rewrite (recorded : Recorded deviceOf world) {entry : LedgerEntry Device}
    (booked : token ∈ keys world.ledger.entries) (waits : token ∈ world.waiting →
      entry.deviceId = none ∨ entry.deviceId = some (deviceOf token))
    (timely : token ∈ world.waiting → entry.isExpired world.now = false)
    (runs : token ∈ world.started → entry.deviceId = some (deviceOf token)) :
    Recorded deviceOf { world with
      ledger := { world.ledger with entries := put world.ledger.entries token entry } } := by
  have member : ∀ other, other ∈ keys (put world.ledger.entries token entry) ↔
      other ∈ keys world.ledger.entries := by
    intro other
    rw [mem_keys_put]
    exact ⟨fun either => either.elim id fun same => same ▸ booked, Or.inl⟩
  have found : ∀ other known, get? (put world.ledger.entries token entry) other = some known →
      (token = other ∧ entry = known) ∨ get? world.ledger.entries other = some known := by
    intro other known present
    rw [get?_put] at present
    split at present
    case isTrue same => exact .inl ⟨same, Option.some.inj present⟩
    case isFalse => exact .inr present
  refine { recorded with
    distinct := ?distinct, fresh := ?fresh, waitingBooked := ?waitingBooked
    waitingDevice := ?waitingDevice, waitingTimely := ?waitingTimely
    startedDevice := ?startedDevice, listings := ?listings }
  case distinct => exact nodup_keys_put recorded.distinct token entry
  case fresh => exact fun other booked => recorded.fresh other ((member other).1 booked)
  case waitingBooked =>
    exact fun other waiting => (member other).2 (recorded.waitingBooked other waiting)
  case waitingDevice =>
    intro other waiting known present
    obtain ⟨rfl, rfl⟩ | old := found other known present
    · exact waits waiting
    · exact recorded.waitingDevice other waiting known old
  case waitingTimely =>
    intro other waiting known present
    obtain ⟨rfl, rfl⟩ | old := found other known present
    · exact timely waiting
    · exact recorded.waitingTimely other waiting known old
  case startedDevice =>
    intro other started known present
    obtain ⟨rfl, rfl⟩ | old := found other known present
    · exact runs started
    · exact recorded.startedDevice other started known old
  case listings =>
    intro window listing known
    have listed := recorded.listings window listing known
    refine { listed with started := fun other started => ?_ }
    exact (listed.started other started).imp_right (Or.imp_left (member other).2)

omit [DecidableEq Device] in
theorem Recorded.of_fewer (recorded : Recorded deviceOf world) {waiting : List Nat}
    (fewer : waiting.Sublist world.waiting) : Recorded deviceOf { world with waiting } where
  distinct := recorded.distinct
  fresh := recorded.fresh
  waitingDistinct := fewer.nodup recorded.waitingDistinct
  waitingBooked token waits := recorded.waitingBooked token (fewer.subset waits)
  waitingDevice token waits := recorded.waitingDevice token (fewer.subset waits)
  waitingTimely token waits := recorded.waitingTimely token (fewer.subset waits)
  startedDistinct := recorded.startedDistinct
  startedFresh := recorded.startedFresh
  startedDevice := recorded.startedDevice
  apart token runs waits := recorded.apart token runs (fewer.subset waits)
  othersDistinct := recorded.othersDistinct
  foreign := recorded.foreign
  windows := recorded.windows
  listings window listing found :=
    let listed := recorded.listings window listing found
    { listed with waiting := fun token waits => listed.waiting token (fewer.subset waits) }

omit [DecidableEq Device] in
theorem mem_waiting_expire : token ∈ (expire world).waiting ↔
    token ∈ world.waiting ∧ ∀ entry, get? world.ledger.entries token = some entry →
      entry.isExpired world.now = false := by
  rw [expire, mem_filter]
  cases get? world.ledger.entries token <;> simp

section

variable (recorded : Recorded deviceOf world)
include recorded

omit [DecidableEq Device] in
theorem Recorded.of_clock (now : Nat) : Recorded deviceOf (expire { world with now }) := by
  have remaining : (expire { world with now }).waiting.Sublist world.waiting := filter_sublist
  have fewer := recorded.of_fewer remaining
  exact { fewer with
    waitingTimely := fun token waits => (mem_waiting_expire.1 waits).2
    listings := fun window listing found => { fewer.listings window listing found with } }

omit [DecidableEq Device] in
theorem Recorded.of_start (waits : token ∈ world.waiting)
    (carried : (get? world.ledger.entries token).bind LedgerEntry.deviceId =
      some (deviceOf token)) :
    Recorded deviceOf { world with
      waiting := world.waiting.filter fun other => other ≠ token
      started := token :: world.started } := by
  have remaining : (world.waiting.filter fun other => other ≠ token).Sublist world.waiting :=
    filter_sublist
  have fewer := recorded.of_fewer remaining
  have idle : token ∉ world.started := fun runs => recorded.apart token runs waits
  have booked := recorded.waitingBooked token waits
  refine { fewer with
    startedDistinct := nodup_cons.2 ⟨idle, recorded.startedDistinct⟩
    startedFresh := ?startedFresh, startedDevice := ?startedDevice, apart := ?apart
    listings := ?listings }
  case startedFresh =>
    intro other runs
    obtain rfl | old := mem_cons.1 runs
    · exact recorded.fresh other booked
    · exact recorded.startedFresh other old
  case startedDevice =>
    intro other runs entry found
    obtain rfl | old := mem_cons.1 runs
    · have found' : get? world.ledger.entries other = some entry := found
      rw [found', Option.bind_some] at carried
      exact carried
    · exact recorded.startedDevice other old entry found
  case apart =>
    intro other runs waiting
    obtain ⟨there, apart⟩ := mem_filter.1 waiting
    obtain rfl | old := mem_cons.1 runs
    · exact absurd rfl (of_decide_eq_true apart)
    · exact recorded.apart other old there
  case listings =>
    intro window listing found
    have listed := recorded.listings window listing found
    refine { fewer.listings window listing found with started := fun other runs => ?_ }
    obtain rfl | old := mem_cons.1 runs
    · exact .inr (.inl booked)
    · exact listed.started other old

theorem Recorded.of_stop (device : Device) : Recorded deviceOf { world with
      others := world.others.filter fun other => other ≠ device
      started := world.started.filter fun token => deviceOf token ≠ device } := by
  refine { recorded with
    startedDistinct := recorded.startedDistinct.filter _
    startedFresh := fun token runs => recorded.startedFresh token (mem_filter.1 runs).1
    startedDevice := fun token runs => recorded.startedDevice token (mem_filter.1 runs).1
    apart := fun token runs => recorded.apart token (mem_filter.1 runs).1
    othersDistinct := recorded.othersDistinct.filter _
    foreign := fun token other => recorded.foreign token (mem_filter.1 other).1
    listings := fun window listing found => ?_ }
  have listed := recorded.listings window listing found
  exact { listed with
    others := fun other remains => listed.others other (mem_filter.1 remains).1
    started := fun token runs => listed.started token (mem_filter.1 runs).1 }

omit [DecidableEq Device] in
theorem Recorded.of_bind
    (own : deviceId = some (deviceOf token) ∨ (deviceId = none ∧ token ∉ world.started)) :
    Recorded deviceOf { world with ledger := bindBoot world.ledger token deviceId } := by
  unfold bindBoot
  cases found : get? world.ledger.entries token with
  | none => exact recorded
  | some entry =>
    have booked := (mem_keys_iff _ _).2 ⟨entry, found⟩
    refine recorded.of_rewrite booked (fun _ => ?_) (fun waits => ?_) (fun runs => ?_)
    · exact own.symm.imp_left And.left
    · exact recorded.waitingTimely token waits entry found
    · exact own.elim id fun erased => absurd runs erased.2

omit [DecidableEq Device] in
theorem Recorded.of_handOff (untilMs : Nat) (processId : Option Nat)
    (own : deviceId = none ∨ deviceId = some (deviceOf token)) :
    Recorded deviceOf
      (expire { world with
        ledger := handOffBoot world.ledger token deviceId untilMs processId }) := by
  unfold handOffBoot
  cases found : get? world.ledger.entries token with
  | none => exact recorded.of_clock world.now
  | some entry =>
    let rewritten : LedgerEntry Device :=
      { deviceId := deviceId.or entry.deviceId
        processId := processId.or entry.processId
        handedOffUntilMs := some untilMs
        handedOff := true }
    let ledger := { world.ledger with entries := put world.ledger.entries token rewritten }
    have remaining : (expire { world with ledger }).waiting.Sublist world.waiting := filter_sublist
    have booked := (mem_keys_iff _ _).2 ⟨entry, found⟩
    refine (recorded.of_fewer remaining).of_rewrite booked (fun waits => ?_) (fun waits => ?_)
      (fun runs => ?_)
    · have before := recorded.waitingDevice token (remaining.subset waits) entry found
      obtain rfl | rfl := own
      · exact before
      · exact .inr rfl
    · exact (mem_waiting_expire.1 waits).2 rewritten (get?_put_self _ _ _)
    · obtain rfl | rfl := own
      · exact recorded.startedDevice token runs entry found
      · rfl

/-- Only what is listed or past its deadline leaves the ledger in a decision. -/
theorem Recorded.of_view {window : Nat} {listing : List Device}
    (listed : Listed deviceOf world window listing) :
    Recorded deviceOf { world with
      ledger := (inFlightView world.now listing none [] (closeWindow world.ledger window)
        (some window)).1
      calls := forget world window } := by
  have closed := recorded.of_close window
  refine closed.of_ends (ends_inFlightView _ _ closed.distinct) fun token waits entry found => ?_
  have unseen : entry.isVisible listing = false := by
    obtain bare | carried := recorded.waitingDevice token waits entry found
    · exact isVisible_of_none bare
    · rw [isVisible_of_device carried]
      exact decide_eq_false (listed.waiting token waits)
  have timely := recorded.waitingTimely token waits entry found
  simp [LedgerEntry.leaves, unseen, timely]

end

/-- One step keeps the record and the limit. -/
theorem step_within_limit (unique : Function.Injective deviceOf) {limit : Nat}
    (action : Action Device)
    (holds : Recorded deviceOf world ∧ WithinLimit deviceOf limit world)
    (assumed : Assumed deviceOf world action) (timely : Timely deviceOf world action) :
    Recorded deviceOf (step deviceOf limit world action).1 ∧
      WithinLimit deviceOf limit (step deviceOf limit world action).1 := by
  obtain ⟨recorded, within⟩ := holds
  cases action with
  | call => exact ⟨recorded.of_call, within⟩
  | list window =>
    dsimp only [step]
    split
    case h_1 => exact ⟨recorded, within⟩
    case h_2 call known => exact ⟨recorded.of_list unique known, within⟩
  | answer window deviceId replacement reason =>
    dsimp only [step]
    cases known : (world.calls window).bind Call.listing with
    | none => exact ⟨recorded, within⟩
    | some listing =>
      have listed := recorded.listings window listing known
      have viewed := recorded.of_view listed
      have load := load_le_listed_and_counted unique recorded listed (timely listing known)
      have token : (inFlightView world.now listing none []
          (closeWindow world.ledger window) (some window)).1.nextToken = world.ledger.nextToken :=
        (ends_inFlightView _ _ (recorded.of_close window).distinct).nextToken
      dsimp only [decideAdmission]
      by_cases full : limit ≤ listing.length + (inFlightView world.now listing none []
        (closeWindow world.ledger window) (some window)).2.count
      · simp only [if_pos full]
        exact ⟨viewed, within⟩
      · simp only [if_neg full]
        refine ⟨viewed.of_admit (token.symm ▸ assumed) replacement reason, ?_⟩
        dsimp only [WithinLimit, running] at load ⊢
        rw [length_cons]
        omega
  | abandon window => exact ⟨recorded.of_close window, within⟩
  | bind token deviceId => exact ⟨recorded.of_bind assumed, within⟩
  | handOff token deviceId untilMs processId =>
    refine ⟨recorded.of_handOff untilMs processId assumed, Nat.le_trans ?_ within⟩
    exact Nat.add_le_add_left (length_filter_le _ _) _
  | release token =>
    have ends : Ends (fun other _ => other = token) world.ledger
        (releaseBoot world.ledger token) := ends_endBoot fun _ _ => rfl
    refine ⟨recorded.of_ends ends fun other waits _ _ same => ?_, within⟩
    exact assumed (same ▸ waits)
  | start token =>
    dsimp only [step]
    split
    case isTrue waits =>
      have fewer : (world.waiting.filter fun other => other ≠ token).length <
          world.waiting.length :=
        length_filter_lt_length_iff_exists.2 ⟨token, waits, by simp⟩
      refine ⟨recorded.of_start waits assumed, ?_⟩
      dsimp only [WithinLimit, running] at within ⊢
      rw [map_cons, length_append, length_cons]
      rw [length_append] at within
      omega
    case isFalse => exact ⟨recorded, within⟩
  | giveUp token =>
    refine ⟨recorded.of_fewer filter_sublist, Nat.le_trans ?_ within⟩
    exact Nat.add_le_add_left (length_filter_le _ _) _
  | stop device =>
    refine ⟨recorded.of_stop device, Nat.le_trans ?_ within⟩
    refine Nat.add_le_add_right ?_ _
    dsimp only [running, step]
    rw [length_append, length_append, length_map, length_map]
    exact Nat.add_le_add (length_filter_le _ _) (length_filter_le _ _)
  | clock now =>
    refine ⟨recorded.of_clock now, Nat.le_trans ?_ within⟩
    exact Nat.add_le_add_left (length_filter_le _ _) _

end Steps

/-- The devices that run before the gate has admitted a boot. -/
def initial (now : Nat) (others : List Device) : World Device := { now, others }

omit [DecidableEq Device] in
theorem recorded_initial {now : Nat} {others : List Device} (distinct : others.Nodup)
    (foreign : ∀ token, deviceOf token ∉ others) :
    Recorded deviceOf (initial now others) where
  distinct := nodup_keys_nil
  fresh _ member := absurd member not_mem_nil
  waitingDistinct := nodup_nil
  waitingBooked _ waits := absurd waits not_mem_nil
  waitingDevice _ waits := absurd waits not_mem_nil
  waitingTimely _ waits := absurd waits not_mem_nil
  startedDistinct := nodup_nil
  startedFresh _ runs := absurd runs not_mem_nil
  startedDevice _ runs := absurd runs not_mem_nil
  apart _ runs := absurd runs not_mem_nil
  othersDistinct := distinct
  foreign := foreign
  windows _ _ known := absurd known (by simp [initial])
  listings _ _ known := absurd known (by simp [initial])

/-- In every run in which no listing lacks a running device of a boot past its deadline when it is
answered, the limit holds, and the ledger has every boot that may still start. -/
theorem admissions_within_limit (deviceOf : Nat → Device) (unique : Function.Injective deviceOf)
    (limit now : Nat) (others : List Device) (distinct : others.Nodup)
    (foreign : ∀ token, deviceOf token ∉ others) (room : others.length ≤ limit)
    (actions : List (Action Device))
    (meets : Meets (step deviceOf limit)
      (fun world action => Assumed deviceOf world action ∧ Timely deviceOf world action)
      (initial now others) actions) :
    WithinLimit deviceOf limit (run (step deviceOf limit) (initial now others) actions).1 ∧
      ∀ token ∈ (run (step deviceOf limit) (initial now others) actions).1.waiting,
        token ∈ keys (run (step deviceOf limit) (initial now others) actions).1.ledger.entries := by
  have start : Recorded deviceOf (initial now others) ∧
      WithinLimit deviceOf limit (initial now others) := by
    refine ⟨recorded_initial distinct foreign, ?_⟩
    dsimp only [WithinLimit, running, initial]
    rw [map_nil, append_nil]
    exact room
  have holds := Meets.state_invariant (step deviceOf limit)
    (fun world => Recorded deviceOf world ∧ WithinLimit deviceOf limit world)
    (fun _ action holds allowed => step_within_limit unique action holds allowed.1 allowed.2)
    start meets
  exact ⟨holds.2, holds.1.waitingBooked⟩

omit [DecidableEq Device] in
theorem timely_of_unexpired {world : World Device} {window : Nat} {deviceId : Option Device}
    {replacement : Bool} {reason : BootAdmissionReason}
    (unexpired : (world.ledger.ended window ++ values world.ledger.entries).all
      (fun entry => !entry.isExpired world.now) = true) :
    Timely deviceOf world (.answer window deviceId replacement reason) := by
  intro listing known entry member expired
  have timely := all_eq_true.1 unexpired entry member
  rw [expired] at timely
  exact absurd timely (by decide)

/-- A boot is admitted while another call has its sample open, and starts within it. -/
theorem admissions_within_limit_two :
    WithinLimit id 2 (run (step id 2) (initial 0 []) [.call, .call, .list 0, .list 1,
      .answer 0 none false .create, .bind 0 (some 0), .start 0, .release 0,
      .answer 1 none false .create]).1 ∧
      ∀ token ∈ (run (step id 2) (initial 0 []) [.call, .call, .list 0, .list 1,
        .answer 0 none false .create, .bind 0 (some 0), .start 0, .release 0,
        .answer 1 none false .create]).1.waiting,
        token ∈ keys (run (step id 2) (initial 0 []) [.call, .call, .list 0, .list 1,
          .answer 0 none false .create, .bind 0 (some 0), .start 0, .release 0,
          .answer 1 none false .create]).1.ledger.entries := by
  refine admissions_within_limit id Function.injective_id 2 0 [] nodup_nil
    (fun _ => not_mem_nil) (Nat.zero_le _) _ ?_
  exact ⟨⟨trivial, trivial⟩, ⟨trivial, trivial⟩, ⟨trivial, trivial⟩, ⟨trivial, trivial⟩,
    ⟨.inl rfl, timely_of_unexpired (by decide)⟩, ⟨.inl rfl, trivial⟩, ⟨rfl, trivial⟩,
    ⟨(by decide : (0 : Nat) ∉ []), trivial⟩, ⟨.inl rfl, timely_of_unexpired (by decide)⟩, trivial⟩

/-- A boot starts after a listing was read and before its own deadline; the listing is answered
after the deadline, and a second boot is admitted against the limit of one. -/
theorem expired_boot_not_counted :
    Meets (step id 1) (Assumed id) (initial 0 []) [.call, .list 0, .answer 0 none false .create,
      .handOff 0 (some 0) 10 none, .call, .list 1, .start 0, .clock 10,
      .answer 1 none false .create] ∧
    ¬ WithinLimit id 1 (run (step id 1) (initial 0 []) [.call, .list 0,
      .answer 0 none false .create, .handOff 0 (some 0) 10 none, .call, .list 1, .start 0,
      .clock 10, .answer 1 none false .create]).1 := by
  refine ⟨⟨trivial, trivial, .inl rfl, .inr rfl, trivial, trivial, rfl, trivial, .inl rfl,
    trivial⟩, ?_⟩
  unfold WithinLimit
  decide

end AutoMobile.BootAdmission
