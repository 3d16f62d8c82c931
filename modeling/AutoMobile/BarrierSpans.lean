import AutoMobile.BarrierResumeGuard
import AutoMobile.BusiestFirst

/- The generations of one lock: the greedy grouping of its arrivals goes through
whenever the arrivals of each device fit into the rounds of the lock. -/
namespace AutoMobile.BarrierResume

open List hiding keys
open BusiestFirst InsertionMap Plans

/-- The arrivals of one device that were not grouped yet. -/
def outstanding (tracks : InsertionMap String (List Arrival)) (consumed : InsertionMap String Nat)
    (device : String) : Nat :=
  ((get? tracks device).getD []).length - (get? consumed device).getD 0

variable {tracks : InsertionMap String (List Arrival)} {consumed : InsertionMap String Nat}

theorem mem_nextArrivals (distinct : (keys tracks).Nodup) {candidate : Candidate} :
    candidate ∈ nextArrivals tracks consumed ↔ candidate.device ∈ keys tracks ∧
      ((get? tracks candidate.device).getD [])[(get? consumed candidate.device).getD 0]? =
        some candidate.arrival ∧
      candidate.remainingAfter + 1 = outstanding tracks consumed candidate.device := by
  constructor
  · intro member
    obtain ⟨⟨device, track⟩, known, here⟩ := mem_filterMap.mp member
    obtain ⟨arrival, found, rfl⟩ := Option.map_eq_some_iff.mp here
    have track_eq := get?_of_mem distinct known
    obtain ⟨inside, -⟩ := List.getElem?_eq_some_iff.mp found
    refine ⟨mem_map_of_mem known, by simpa [track_eq] using found, ?_⟩
    simp only [outstanding, track_eq, Option.getD_some]
    omega
  · rintro ⟨known, found, after⟩
    obtain ⟨track, track_eq⟩ := (mem_keys_iff _ _).mp known
    refine mem_filterMap.mpr ⟨(candidate.device, track), mem_of_get? track_eq, ?_⟩
    rw [track_eq, Option.getD_some] at found
    simp only [outstanding, track_eq, Option.getD_some] at after
    have remaining : track.length - (get? consumed candidate.device).getD 0 - 1 =
        candidate.remainingAfter := by omega
    simp only [found, Option.map_some, remaining]

/-- Candidates come from different devices. -/
theorem nextArrivals_devices_nodup (distinct : (keys tracks).Nodup) :
    ((nextArrivals tracks consumed).map (·.device)).Nodup := by
  have sublist : ((nextArrivals tracks consumed).map (·.device)).Sublist (keys tracks) := by
    unfold nextArrivals keys
    induction tracks with
    | nil => simp
    | cons entry rest ih =>
      rw [keys, map_cons, nodup_cons] at distinct
      rw [filterMap_cons]
      split
      · exact (ih distinct.2).cons _
      · rename_i candidate here
        obtain ⟨arrival, -, rfl⟩ := Option.map_eq_some_iff.mp here
        exact (ih distinct.2).cons_cons _
  exact distinct.sublist sublist

theorem mem_nextArrivals_devices (distinct : (keys tracks).Nodup) (device : String) :
    device ∈ (nextArrivals tracks consumed).map (·.device) ↔
      device ∈ keys tracks ∧ 0 < outstanding tracks consumed device := by
  constructor
  · intro member
    obtain ⟨candidate, inside, rfl⟩ := mem_map.mp member
    obtain ⟨known, -, after⟩ := (mem_nextArrivals distinct).mp inside
    exact ⟨known, by omega⟩
  · rintro ⟨known, positive⟩
    have inside : (get? consumed device).getD 0 < ((get? tracks device).getD []).length := by
      unfold outstanding at positive
      omega
    exact mem_map.mpr ⟨⟨device, _, outstanding tracks consumed device - 1⟩,
      (mem_nextArrivals distinct).mpr ⟨known, getElem?_eq_getElem inside,
        Nat.sub_add_cancel positive⟩, rfl⟩

instance : Std.Total before where
  total one other := by
    unfold before
    omega

instance : IsTrans Candidate before where
  trans one two three := by
    unfold before
    omega

/-- What a generation consumes of each device. -/
theorem get?_consume (generation : List Candidate) (distinct : (generation.map (·.device)).Nodup)
    (device : String) :
    (get? (consume consumed generation) device).getD 0 = (get? consumed device).getD 0 +
      if device ∈ generation.map (·.device) then 1 else 0 := by
  unfold consume
  induction generation generalizing consumed with
  | nil => simp
  | cons candidate rest ih =>
    rw [map_cons, nodup_cons] at distinct
    rw [foldl_cons, ih distinct.2, get?_put]
    by_cases same : candidate.device = device
    · subst same
      simp [distinct.1]
    · have apart : ¬ device = candidate.device := fun equal => same equal.symm
      simp [same, apart]

section Generation

/-- The devices of a round, busiest first. -/
def chosenDevices (tracks : InsertionMap String (List Arrival)) (consumed : InsertionMap String Nat)
    (count : Nat) : List Candidate :=
  ((nextArrivals tracks consumed).insertionSort before).take count

theorem chosenDevices_nodup (distinct : (keys tracks).Nodup) (count : Nat) :
    ((chosenDevices tracks consumed count).map (·.device)).Nodup := by
  have sorted : (((nextArrivals tracks consumed).insertionSort before).map (·.device)).Nodup :=
    ((perm_insertionSort before _).map _).nodup_iff.mpr (nextArrivals_devices_nodup distinct)
  exact sorted.sublist ((take_sublist count _).map _)

/-- The sorted candidates fall into those that are chosen and those that are less busy. -/
theorem chosenDevices_busiest (distinct : (keys tracks).Nodup) {count : Nat} {one : Candidate}
    (picked : one ∈ chosenDevices tracks consumed count) {device : String}
    (known : device ∈ keys tracks)
    (left : device ∉ (chosenDevices tracks consumed count).map (·.device)) :
    outstanding tracks consumed device ≤ outstanding tracks consumed one.device := by
  by_cases idle : 0 < outstanding tracks consumed device
  · obtain ⟨other, member, rfl⟩ :=
      mem_map.mp ((mem_nextArrivals_devices distinct device).mpr ⟨known, idle⟩)
    have sorted := pairwise_insertionSort before (nextArrivals tracks consumed)
    rw [← take_append_drop count ((nextArrivals tracks consumed).insertionSort before),
      pairwise_append] at sorted
    have inAll : other ∈ (nextArrivals tracks consumed).insertionSort before :=
      (perm_insertionSort before _).mem_iff.mpr member
    rw [← take_append_drop count ((nextArrivals tracks consumed).insertionSort before)] at inAll
    have dropped : other ∈ ((nextArrivals tracks consumed).insertionSort before).drop count :=
      (mem_append.mp inAll).resolve_left fun taken => left (mem_map_of_mem taken)
    have ordered := sorted.2.2 one picked other dropped
    have oneIn : one ∈ nextArrivals tracks consumed :=
      (perm_insertionSort before _).mem_iff.mp (mem_of_mem_take picked)
    have oneAfter := ((mem_nextArrivals distinct).mp oneIn).2.2
    have otherAfter := ((mem_nextArrivals distinct).mp member).2.2
    unfold before at ordered
    omega
  · omega

theorem outstanding_consume (distinct : (keys tracks).Nodup) (count : Nat) (device : String) :
    outstanding tracks (consume consumed (chosenDevices tracks consumed count)) device =
      served ((chosenDevices tracks consumed count).map (·.device)).toFinset
        (outstanding tracks consumed) device := by
  unfold served
  by_cases picked : device ∈ (chosenDevices tracks consumed count).map (·.device)
  · rw [if_pos (mem_toFinset.mpr picked)]
    unfold outstanding
    rw [get?_consume _ (chosenDevices_nodup distinct count), if_pos picked]
    omega
  · rw [if_neg (mt mem_toFinset.mp picked)]
    unfold outstanding
    rw [get?_consume _ (chosenDevices_nodup distinct count), if_neg picked, Nat.add_zero]

/-- The grouping goes through when the outstanding arrivals are feasible. -/
theorem formGenerations_ok (distinct : (keys tracks).Nodup) (lock : String) {count : Nat}
    {rounds : Nat}
    (feasible : Feasible count rounds (keys tracks).toFinset (outstanding tracks consumed)) :
    ∃ spans, formGenerations lock count tracks rounds consumed = .ok spans ∧
      spans.length = rounds := by
  induction rounds generalizing consumed with
  | zero => exact ⟨[], rfl, rfl⟩
  | succ rounds ih =>
    have busy : ((nextArrivals tracks consumed).map (·.device)).toFinset =
        (keys tracks).toFinset.filter (0 < outstanding tracks consumed ·) := by
      ext device
      rw [mem_toFinset, mem_nextArrivals_devices distinct, Finset.mem_filter, mem_toFinset]
    have enough : count ≤ ((nextArrivals tracks consumed).insertionSort before).length := by
      have large := feasible.enough
      rw [← busy, toFinset_card_of_nodup (nextArrivals_devices_nodup distinct), length_map] at large
      rwa [length_insertionSort]
    have within : ((chosenDevices tracks consumed count).map (·.device)).toFinset ⊆
        (keys tracks).toFinset.filter (0 < outstanding tracks consumed ·) := by
      rw [← busy]
      intro device member
      obtain ⟨candidate, picked, rfl⟩ := mem_map.mp (mem_toFinset.mp member)
      exact mem_toFinset.mpr (mem_map_of_mem
        ((perm_insertionSort before _).mem_iff.mp (mem_of_mem_take picked)))
    have full : ((chosenDevices tracks consumed count).map (·.device)).toFinset.card = count := by
      rw [toFinset_card_of_nodup (chosenDevices_nodup distinct count), length_map,
        chosenDevices, length_take, Nat.min_eq_left enough]
    have rest := feasible.serve (within.trans (Finset.filter_subset _ _)) full
      (fun device member => (Finset.mem_filter.mp (within member)).2) (by
        intro device picked other known left
        obtain ⟨candidate, inside, rfl⟩ := mem_map.mp (mem_toFinset.mp picked)
        exact chosenDevices_busiest distinct inside (mem_toFinset.mp known)
          (mt mem_toFinset.mpr left))
    have same : served ((chosenDevices tracks consumed count).map (·.device)).toFinset
        (outstanding tracks consumed) =
          outstanding tracks (consume consumed (chosenDevices tracks consumed count)) :=
      funext fun device => (outstanding_consume distinct count device).symm
    rw [same] at rest
    obtain ⟨spans, formed, size⟩ := ih rest
    refine ⟨spanForArrivals lock ((chosenDevices tracks consumed count).map (·.arrival)) :: spans,
      ?_, by rw [length_cons, size]⟩
    unfold chosenDevices at formed
    simp only [formGenerations, not_lt.mpr enough, if_false, formed]
    rfl

end Generation

/-- With a device for every arrival the tracks are the arrivals by device. -/
theorem deviceTracks_eq {arrivals : List Arrival} {device : Arrival → String}
    (known : ∀ arrival ∈ arrivals, arrival.device = some (device arrival)) :
    deviceTracks arrivals =
      some (pushAll [] (arrivals.map fun arrival => (device arrival, arrival))) := by
  suffices grown : ∀ groups : InsertionMap String (List Arrival),
      arrivals.foldlM (fun tracks arrival =>
        arrival.device.map fun device => push tracks device arrival) groups =
          some (pushAll groups (arrivals.map fun arrival => (device arrival, arrival))) from grown []
  induction arrivals with
  | nil => exact fun groups => rfl
  | cons arrival rest ih =>
    intro groups
    rw [foldlM_cons, known arrival mem_cons_self]
    exact ih (fun other member => known other (mem_cons_of_mem _ member)) _

theorem consistentDeviceCount_eq {arrivals : List Arrival} {count : Nat}
    (some' : arrivals ≠ []) (positive : 1 ≤ count)
    (all : ∀ arrival ∈ arrivals, arrival.deviceCount = some count) :
    consistentDeviceCount arrivals = some count := by
  have counts : arrivals.filterMap (·.deviceCount) = List.replicate arrivals.length count := by
    rw [eq_replicate_iff]
    refine ⟨?_, fun value member => ?_⟩
    · rw [length_filterMap_eq_countP, countP_eq_length]
      intro arrival member
      simp [all arrival member]
    · obtain ⟨arrival, inside, here⟩ := mem_filterMap.mp member
      exact (Option.some.inj ((all arrival inside).symm.trans here)).symm
  have kept : (List.replicate arrivals.length count).filter (1 ≤ ·) =
      List.replicate arrivals.length count := filter_replicate_of_pos (by simpa using positive)
  unfold consistentDeviceCount
  rw [counts, kept, replicate_dedup (by simpa using some')]

/-- The lists of a map hold as many items as it has in all. -/
theorem sum_keys_length {entries : InsertionMap String (List Arrival)}
    (distinct : (keys entries).Nodup) :
    ∑ key ∈ (keys entries).toFinset, ((get? entries key).getD []).length =
      (values entries).flatten.length := by
  induction entries with
  | nil => rfl
  | cons entry rest ih =>
    rw [keys, map_cons, nodup_cons] at distinct
    have fresh : entry.1 ∉ (keys rest).toFinset := mt mem_toFinset.mp distinct.1
    have later : ∑ key ∈ (keys rest).toFinset, ((get? (entry :: rest) key).getD []).length =
        ∑ key ∈ (keys rest).toFinset, ((get? rest key).getD []).length := by
      refine Finset.sum_congr rfl fun key member => ?_
      have apart : ¬ entry.1 = key := by
        rintro rfl
        exact fresh member
      rw [get?, if_neg apart]
    have first : ((get? (entry :: rest) entry.1).getD []).length = entry.2.length := by simp [get?]
    have names : (keys (entry :: rest)).toFinset = insert entry.1 (keys rest).toFinset := by
      simp [keys]
    rw [names, Finset.sum_insert fresh, later, ih distinct.2, first]
    simp [values]

/-- The arrivals of a lock that share out over its rounds are grouped into generations. -/
theorem spansForLock_ok {lock : String} {arrivals : List Arrival} {count rounds : Nat}
    {device : Arrival → String} (some' : arrivals ≠ []) (positive : 1 ≤ count)
    (known : ∀ arrival ∈ arrivals, arrival.device = some (device arrival))
    (consistent : consistentDeviceCount arrivals = some count)
    (whole : arrivals.length = count * rounds)
    (each : ∀ name, (arrivals.filter (device · = name)).length ≤ rounds) :
    ∃ spans, spansForLock lock arrivals = .ok spans ∧ spans ≠ [] := by
  have nonempty : arrivals.isEmpty = false := by simpa using some'
  have tracked := deviceTracks_eq known
  by_cases alone : count = 1
  · subst alone
    refine ⟨arrivals.map (singletonSpan lock), ?_, by simpa using some'⟩
    simp [spansForLock, nonempty, consistent]
  · have multiple : arrivals.length % count = 0 := by rw [whole, Nat.mul_mod_right]
    have quotient : arrivals.length / count = rounds := by
      rw [whole, Nat.mul_div_cancel_left _ positive]
    set tracks := pushAll [] (arrivals.map fun arrival => (device arrival, arrival)) with tracks_eq
    have distinct : (keys tracks).Nodup := nodup_keys_pushAll nodup_keys_nil _
    have visits : ∀ name, outstanding tracks [] name = (arrivals.filter (device · = name)).length := by
      intro name
      have items := getD_get?_pushAll [] (arrivals.map fun arrival => (device arrival, arrival)) name
      have length := congrArg List.length items
      simpa [outstanding, get?, filter_map, Function.comp_def] using length
    have feasible : Feasible count rounds (keys tracks).toFinset (outstanding tracks []) := by
      refine ⟨?_, fun name _ => (visits name).trans_le (each name)⟩
      have shared := flatten_pushAll [] (arrivals.map fun arrival => (device arrival, arrival))
      have counted := (sum_keys_length distinct).trans shared.length_eq
      rw [← whole]
      simpa [outstanding, get?, values] using counted
    obtain ⟨spans, formed, size⟩ := formGenerations_ok distinct lock feasible
    refine ⟨spans, ?_, ?_⟩
    · simp [spansForLock, nonempty, consistent, tracked, multiple, quotient, formed]
    · rintro rfl
      have none : rounds = 0 := size.symm
      subst none
      exact some' (eq_nil_of_length_eq_zero whole)

end AutoMobile.BarrierResume
