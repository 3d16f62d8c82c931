import AutoMobile.BarrierSpans

/- The generations of a lock are a partition of its arrivals, found whenever there
is one. -/
namespace AutoMobile.BarrierResume

open List hiding keys
open InsertionMap

/-- Groups of so many arrivals of different devices share out the arrivals; each device's
arrivals are in the groups in their order. -/
structure Partitions (count : Nat) (arrivals : List Arrival) (groups : List (List Arrival)) :
    Prop where
  size : ∀ group ∈ groups, group.length = count
  devices : ∀ group ∈ groups, (group.map (·.device)).Nodup
  whole : groups.flatten.Perm arrivals
  ordered : ∀ device : String, groups.flatMap (fun group => group.filter (·.device = some device)) =
      arrivals.filter (·.device = some device)

section Generations

variable {tracks : InsertionMap String (List Arrival)} {consumed : InsertionMap String Nat}

/-- Every track holds the arrivals of its own device. -/
def Labelled (tracks : InsertionMap String (List Arrival)) : Prop :=
  ∀ entry ∈ tracks, ∀ arrival ∈ entry.2, arrival.device = some entry.1

theorem candidate_device (distinct : (keys tracks).Nodup) (labels : Labelled tracks)
    {candidate : Candidate} (member : candidate ∈ nextArrivals tracks consumed) :
    candidate.arrival.device = some candidate.device := by
  obtain ⟨known, found, -⟩ := (mem_nextArrivals distinct).mp member
  obtain ⟨track, track_eq⟩ := (mem_keys_iff _ _).mp known
  rw [track_eq, Option.getD_some] at found
  exact labels (candidate.device, track) (mem_of_get? track_eq) _ (mem_of_getElem? found)

/-- A generation holds one arrival of each chosen device. -/
theorem filter_generation {generation : List Candidate}
    (distinct : (generation.map (·.device)).Nodup)
    (labels : ∀ candidate ∈ generation, candidate.arrival.device = some candidate.device)
    {candidate : Candidate} (member : candidate ∈ generation) :
    (generation.map (·.arrival)).filter (·.device = some candidate.device) = [candidate.arrival] := by
  induction generation with
  | nil => cases member
  | cons first rest ih =>
    rw [map_cons, nodup_cons] at distinct
    have later : ∀ other ∈ rest, other.arrival.device = some other.device :=
      fun other inside => labels other (mem_cons_of_mem _ inside)
    have here := labels first mem_cons_self
    rcases mem_cons.mp member with rfl | inside
    · have nothing : (rest.map (·.arrival)).filter (·.device = some candidate.device) = [] := by
        rw [filter_eq_nil_iff]
        intro arrival listed
        obtain ⟨other, inside, rfl⟩ := mem_map.mp listed
        rw [later other inside]
        have apart : other.device ≠ candidate.device := fun same =>
          distinct.1 (same ▸ mem_map_of_mem inside)
        simpa using apart
      rw [map_cons, filter_cons, if_pos (by simpa using here), nothing]
    · have apart : first.device ≠ candidate.device := fun same =>
        distinct.1 (same ▸ mem_map_of_mem inside)
      rw [map_cons, filter_cons, if_neg (by rw [here]; simpa using apart)]
      exact ih distinct.2 later inside

theorem filter_generation_other {generation : List Candidate}
    (labels : ∀ candidate ∈ generation, candidate.arrival.device = some candidate.device)
    {device : String} (absent : device ∉ generation.map (·.device)) :
    (generation.map (·.arrival)).filter (·.device = some device) = [] := by
  rw [filter_eq_nil_iff]
  intro arrival listed
  obtain ⟨candidate, member, rfl⟩ := mem_map.mp listed
  rw [labels candidate member]
  have apart : candidate.device ≠ device := fun same => absent (same ▸ mem_map_of_mem member)
  simpa using apart

theorem chosenDevices_known {count : Nat} {candidate : Candidate}
    (member : candidate ∈ chosenDevices tracks consumed count) :
    candidate ∈ nextArrivals tracks consumed :=
  (perm_insertionSort before _).mem_iff.mp (mem_of_mem_take member)

/-- Each round takes the next arrival of its devices. -/
theorem drop_consumed (distinct : (keys tracks).Nodup) (labels : Labelled tracks) (count : Nat)
    (device : String) :
    ((get? tracks device).getD []).drop ((get? consumed device).getD 0) =
      ((chosenDevices tracks consumed count).map (·.arrival)).filter (·.device = some device) ++
        ((get? tracks device).getD []).drop
          ((get? (consume consumed (chosenDevices tracks consumed count)) device).getD 0) := by
  have chosen := @chosenDevices_nodup _ consumed distinct count
  have own : ∀ candidate ∈ chosenDevices tracks consumed count,
      candidate.arrival.device = some candidate.device :=
    fun candidate member => candidate_device distinct labels (chosenDevices_known member)
  rw [get?_consume _ chosen]
  by_cases picked : device ∈ (chosenDevices tracks consumed count).map (·.device)
  · obtain ⟨candidate, member, rfl⟩ := mem_map.mp picked
    obtain ⟨-, found, -⟩ := (mem_nextArrivals distinct).mp (chosenDevices_known member)
    obtain ⟨inside, here⟩ := List.getElem?_eq_some_iff.mp found
    rw [filter_generation chosen own member, if_pos picked, drop_eq_getElem_cons inside, here]
    rfl
  · rw [filter_generation_other own picked, if_neg picked, Nat.add_zero, nil_append]

/-- What the rounds of a lock make. -/
theorem formGenerations_spans (distinct : (keys tracks).Nodup) (labels : Labelled tracks)
    {lock : String} {count rounds : Nat} {spans : List GenerationSpan}
    (formed : formGenerations lock count tracks rounds consumed = .ok spans) :
    spans.length = rounds ∧
      (∀ span ∈ spans, span = spanForArrivals lock span.arrivals ∧ span.arrivals.length = count ∧
        (span.arrivals.map (·.device)).Nodup ∧ ∀ arrival ∈ span.arrivals, arrival.device ≠ none) ∧
      ∀ device : String, spans.flatMap (fun span => span.arrivals.filter (·.device = some device)) <+:
        ((get? tracks device).getD []).drop ((get? consumed device).getD 0) := by
  induction rounds generalizing consumed spans with
  | zero =>
    obtain rfl := Except.ok.inj formed
    exact ⟨rfl, by simp, fun device => nil_prefix⟩
  | succ rounds ih =>
    unfold formGenerations at formed
    dsimp only at formed
    split at formed
    · cases formed
    · rename_i enough
      cases later : formGenerations lock count tracks rounds (consume consumed
          (chosenDevices tracks consumed count)) with
      | error message =>
        unfold chosenDevices at later
        rw [later] at formed
        cases formed
      | ok rest =>
        obtain ⟨length, each, parts⟩ := ih later
        unfold chosenDevices at later
        rw [later] at formed
        obtain rfl := Except.ok.inj formed
        have own : ∀ candidate ∈ chosenDevices tracks consumed count,
            candidate.arrival.device = some candidate.device :=
          fun candidate member => candidate_device distinct labels (chosenDevices_known member)
        refine ⟨by rw [length_cons, length], fun span member => ?_, fun device => ?_⟩
        · rcases mem_cons.mp member with rfl | member
          · refine ⟨rfl, ?_, ?_, fun arrival inside => ?_⟩
            · have size : ((nextArrivals tracks consumed).insertionSort before).length ≥ count :=
                not_lt.mp enough
              simpa [spanForArrivals] using size
            · have names : ((chosenDevices tracks consumed count).map (·.arrival)).map
                  (·.device) = ((chosenDevices tracks consumed count).map (·.device)).map some := by
                rw [List.map_map, List.map_map]
                exact map_congr_left own
              have apart := (@chosenDevices_nodup _ consumed distinct count).map
                (Option.some_injective String)
              rw [← names] at apart
              exact apart
            · obtain ⟨candidate, chosen, rfl⟩ := mem_map.mp inside
              rw [own candidate chosen]
              exact Option.some_ne_none _
          · exact each span member
        · rw [drop_consumed distinct labels count device, flatMap_cons]
          exact (prefix_append_right_inj _).mpr (parts device)

end Generations

section Lock

variable {lock : String} {arrivals : List Arrival} {count : Nat}

theorem flatMap_filter (groups : List (List Arrival)) (device : String) :
    groups.flatMap (fun group => group.filter (·.device = some device)) =
      groups.flatten.filter (·.device = some device) := by
  rw [filter_flatten, List.flatMap]

/-- Groups that follow each device's order, and are as many arrivals, are all arrivals. -/
theorem Partitions.of_prefix {groups : List (List Arrival)}
    (size : ∀ group ∈ groups, group.length = count)
    (devices : ∀ group ∈ groups, (group.map (·.device)).Nodup)
    (labels : ∀ arrival ∈ groups.flatten, arrival.device ≠ none)
    (parts : ∀ device : String,
      groups.flatMap (fun group => group.filter (·.device = some device)) <+:
        arrivals.filter (·.device = some device))
    (enough : arrivals.length ≤ groups.flatten.length) : Partitions count arrivals groups := by
  have whole : groups.flatten.Perm arrivals := by
    refine List.Subperm.perm_of_length_le (subperm_ext_iff.mpr fun arrival member => ?_) enough
    obtain ⟨device, named⟩ := Option.ne_none_iff_exists'.mp (labels arrival member)
    have passes : decide (arrival.device = some device) = true := by simpa using named
    have part := (parts device).sublist.count_le arrival
    rw [flatMap_filter] at part
    have same : ∀ items : List Arrival,
        (items.filter (·.device = some device)).count arrival = items.count arrival :=
      fun items => count_filter passes
    rwa [same, same] at part
  refine ⟨size, devices, whole, fun device => (parts device).eq_of_length ?_⟩
  rw [flatMap_filter]
  exact (whole.filter _).length_eq

theorem flatten_length {groups : List (List Arrival)} (size : ∀ group ∈ groups, group.length = count) :
    groups.flatten.length = count * groups.length := by
  induction groups with
  | nil => rfl
  | cons group groups ih =>
    rw [flatten_cons, length_append, size group mem_cons_self,
      ih fun other member => size other (mem_cons_of_mem _ member), length_cons,
      Nat.mul_succ, Nat.add_comm]

/-- No device has more arrivals than there are groups. -/
theorem Partitions.device_le {groups : List (List Arrival)} (partitions : Partitions count arrivals groups)
    (device : String) : (arrivals.filter (·.device = some device)).length ≤ groups.length := by
  rw [← partitions.ordered device]
  have devices := partitions.devices
  clear partitions
  induction groups with
  | nil => simp
  | cons group groups ih =>
    have later := ih fun other member => devices other (mem_cons_of_mem _ member)
    have distinct := devices group mem_cons_self
    have once : (group.filter (·.device = some device)).length ≤ 1 := by
      rw [← countP_eq_length_filter]
      have counted := nodup_iff_count_le_one.mp distinct (some device)
      rw [List.count, countP_map] at counted
      refine Nat.le_trans (Nat.le_of_eq (countP_congr fun arrival _ => ?_)) counted
      simp
    rw [flatMap_cons, length_append, length_cons]
    omega

theorem ne_nil_of_consistent (consistent : consistentDeviceCount arrivals = some count) :
    arrivals ≠ [] := by
  rintro rfl
  cases consistent

/-- The generations that are formed are a partition. -/
theorem partitions_of_spans (known : ∀ arrival ∈ arrivals, arrival.device ≠ none)
    (consistent : consistentDeviceCount arrivals = some count) {spans : List GenerationSpan}
    (formed : spansForLock lock arrivals = .ok spans) :
    Partitions count arrivals (spans.map (·.arrivals)) ∧
      ∀ span ∈ spans, span = spanForArrivals lock span.arrivals := by
  have nonempty : arrivals.isEmpty = false := by simpa using ne_nil_of_consistent consistent
  by_cases alone : count = 1
  · subst alone
    obtain rfl : arrivals.map (singletonSpan lock) = spans := by
      simpa [spansForLock, nonempty, consistent] using formed
    have groups : (arrivals.map (singletonSpan lock)).map (·.arrivals) = arrivals.map ([·]) := by
      simp [singletonSpan, Function.comp_def]
    have flat : (arrivals.map ([·])).flatten = arrivals := by rw [← flatMap_def, flatMap_singleton']
    rw [groups]
    refine ⟨⟨?_, ?_, ?_, fun device => ?_⟩, fun span member => ?_⟩
    · simp
    · simp
    · rw [flat]
    · rw [flatMap_filter, flat]
    · obtain ⟨arrival, -, rfl⟩ := mem_map.mp member
      simp [singletonSpan, spanForArrivals]
  · have labels : ∀ arrival ∈ arrivals, arrival.device = some (arrival.device.getD "") := by
      intro arrival member
      obtain ⟨device, named⟩ := Option.ne_none_iff_exists'.mp (known arrival member)
      rw [named]
      rfl
    have tracked := deviceTracks_eq labels
    set tracks := pushAll [] (arrivals.map fun arrival => (arrival.device.getD "", arrival))
      with tracks_eq
    have distinct : (keys tracks).Nodup := nodup_keys_pushAll nodup_keys_nil _
    have items : ∀ device, (get? tracks device).getD [] =
        arrivals.filter (·.device = some device) := by
      intro device
      rw [tracks_eq, getD_get?_pushAll, filter_map, List.map_map]
      simp only [get?, Option.getD_none, nil_append, Function.comp_def, map_id']
      refine filter_congr fun arrival member => ?_
      rw [labels arrival member]
      simp
    have own : Labelled tracks := by
      intro entry member arrival inside
      have listed := items entry.1
      rw [get?_of_mem distinct member, Option.getD_some] at listed
      rw [listed] at inside
      simpa using (mem_filter.mp inside).2
    unfold spansForLock at formed
    rw [nonempty, consistent, tracked] at formed
    simp only [Bool.false_eq_true, if_false] at formed
    split at formed
    · cases formed
    · rename_i whole
      obtain ⟨length, each, parts⟩ := formGenerations_spans distinct own formed
      have size : ∀ group ∈ spans.map (·.arrivals), group.length = count := by
        intro group member
        obtain ⟨span, there, rfl⟩ := mem_map.mp member
        exact (each span there).2.1
      have part : ∀ device : String, (spans.map (·.arrivals)).flatMap
          (fun group => group.filter (·.device = some device)) <+:
            arrivals.filter (·.device = some device) := by
        intro device
        have found := parts device
        simp only [get?, Option.getD_none, drop_zero, items] at found
        rwa [flatMap_map]
      refine ⟨Partitions.of_prefix size ?_ ?_ part ?_, fun span member => (each span member).1⟩
      · intro group member
        obtain ⟨span, there, rfl⟩ := mem_map.mp member
        exact (each span there).2.2.1
      · intro arrival member
        obtain ⟨group, listed, inside⟩ := mem_flatten.mp member
        obtain ⟨span, there, rfl⟩ := mem_map.mp listed
        exact (each span there).2.2.2 arrival inside
      · rw [flatten_length size, length_map, length]
        exact Nat.le_of_eq (Nat.mul_div_cancel' (Nat.dvd_of_mod_eq_zero (not_not.mp whole))).symm

/-- A lock with a partition is grouped. -/
theorem spans_of_partitions (known : ∀ arrival ∈ arrivals, arrival.device ≠ none)
    (consistent : consistentDeviceCount arrivals = some count) (positive : 1 ≤ count)
    {groups : List (List Arrival)} (partitions : Partitions count arrivals groups) :
    ∃ spans, spansForLock lock arrivals = .ok spans := by
  have labels : ∀ arrival ∈ arrivals, arrival.device = some (arrival.device.getD "") := by
    intro arrival member
    obtain ⟨device, named⟩ := Option.ne_none_iff_exists'.mp (known arrival member)
    rw [named]
    rfl
  have total : arrivals.length = count * groups.length :=
    partitions.whole.length_eq.symm.trans (flatten_length partitions.size)
  have each : ∀ name, (arrivals.filter fun arrival => arrival.device.getD "" = name).length ≤
      groups.length := by
    intro name
    refine Nat.le_trans (Nat.le_of_eq (congrArg List.length ?_)) (partitions.device_le name)
    refine filter_congr fun arrival member => ?_
    rw [labels arrival member]
    simp
  obtain ⟨spans, formed, -⟩ := @spansForLock_ok lock _ _ _ _ (ne_nil_of_consistent consistent)
    positive labels consistent total each
  exact ⟨spans, formed⟩

end Lock

/-- The arrivals of a lock are grouped exactly when they can be partitioned, and the groups
are a partition. -/
theorem spansForLock_partitions (lock : String) (arrivals : List Arrival) (count : Nat)
    (known : ∀ arrival ∈ arrivals, arrival.device ≠ none)
    (consistent : consistentDeviceCount arrivals = some count) (positive : 1 ≤ count) :
    ((∃ spans, spansForLock lock arrivals = .ok spans) ↔
      ∃ groups, Partitions count arrivals groups) ∧
    ∀ spans, spansForLock lock arrivals = .ok spans →
      Partitions count arrivals (spans.map (·.arrivals)) ∧
        ∀ span ∈ spans, span = spanForArrivals lock span.arrivals := by
  refine ⟨⟨?_, ?_⟩, fun spans formed => partitions_of_spans known consistent formed⟩
  · rintro ⟨spans, formed⟩
    exact ⟨_, (partitions_of_spans known consistent formed).1⟩
  · rintro ⟨groups, partitions⟩
    exact spans_of_partitions known consistent positive partitions

/-- The arrivals `B, C, A, A, A, D` of pairs, which only the busiest device can share out. -/
def starArrivals : List Arrival :=
  ["B", "C", "A", "A", "A", "D"].zipIdx.map fun (device, planIndex) =>
    ⟨planIndex, some 2, some device, "barrier"⟩

theorem spansForLock_partitions_star : ∃ spans, spansForLock "X" starArrivals = .ok spans ∧
      Partitions 2 starArrivals (spans.map (·.arrivals)) := by
  have both := spansForLock_partitions "X" starArrivals 2 (by decide) (by decide) (by decide)
  obtain ⟨spans, formed⟩ : ∃ spans, spansForLock "X" starArrivals = .ok spans := by
    refine ⟨(spansForLock "X" starArrivals).toOption.getD [], ?_⟩
    decide +kernel
  exact ⟨spans, formed, (both.2 spans formed).1⟩

end AutoMobile.BarrierResume
