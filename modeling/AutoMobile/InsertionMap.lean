import Mathlib.Data.List.Induction
import Mathlib.Data.List.Perm.Basic
import Mathlib.Data.List.Sigma

/- Maps that list their entries in the order in which the keys came in, and the
grouping of a list by a key. -/
abbrev InsertionMap (κ ν : Type) := List (κ × ν)

namespace InsertionMap

open List

variable {κ ν α : Type} [DecidableEq κ]

def keys (entries : InsertionMap κ ν) : List κ := entries.map Prod.fst

def values (entries : InsertionMap κ ν) : List ν := entries.map Prod.snd

def get? : InsertionMap κ ν → κ → Option ν
  | [], _ => none
  | entry :: rest, key => if entry.1 = key then some entry.2 else get? rest key

/-- A known key keeps its place, a new one comes last. -/
def put : InsertionMap κ ν → κ → ν → InsertionMap κ ν
  | [], key, value => [(key, value)]
  | entry :: rest, key, value =>
    if entry.1 = key then (key, value) :: rest else entry :: put rest key value

def has (entries : InsertionMap κ ν) (key : κ) : Bool := (get? entries key).isSome

theorem get?_put (entries : InsertionMap κ ν) (key other : κ) (value : ν) :
    get? (put entries key value) other = if key = other then some value else get? entries other := by
  induction entries with
  | nil => simp [put, get?]
  | cons entry rest ih =>
    by_cases here : entry.1 = key
    · subst here
      by_cases same : entry.1 = other <;> simp [put, get?, same]
    · by_cases same : entry.1 = other
      · have apart : key ≠ other := fun equal => here (same.trans equal.symm)
        have elsewhere : ¬ other = key := fun equal => apart equal.symm
        simp [put, get?, same, apart, elsewhere]
      · simp [put, get?, here, same, ih]

@[simp] theorem get?_put_self (entries : InsertionMap κ ν) (key : κ) (value : ν) :
    get? (put entries key value) key = some value := by
  rw [get?_put, if_pos rfl]

variable {key : κ} {entries : InsertionMap κ ν} {value : ν}

theorem get?_put_of_ne (entries : InsertionMap κ ν) {other : κ} (apart : key ≠ other) (value : ν) :
    get? (put entries key value) other = get? entries other := by
  rw [get?_put, if_neg apart]

theorem of_get?_put {other : κ} {found : ν} (here : get? (put entries key value) other = some found) :
    key = other ∧ value = found ∨ key ≠ other ∧ get? entries other = some found := by
  by_cases same : key = other
  · rw [same, get?_put_self] at here
    exact Or.inl ⟨same, Option.some.inj here⟩
  · rw [get?_put_of_ne _ same] at here
    exact Or.inr ⟨same, here⟩

theorem mem_keys_iff (entries : InsertionMap κ ν) (key : κ) :
    key ∈ keys entries ↔ ∃ value, get? entries key = some value := by
  induction entries with
  | nil => simp [keys, get?]
  | cons entry rest ih =>
    by_cases here : entry.1 = key
    · simp [keys, get?, here]
    · have other : key ≠ entry.1 := fun equal => here equal.symm
      have tail : key ∈ rest.map Prod.fst ↔ ∃ value, get? rest key = some value := ih
      simp [keys, get?, here, other, tail]

theorem has_iff (entries : InsertionMap κ ν) (key : κ) :
    has entries key = true ↔ key ∈ keys entries := by
  rw [mem_keys_iff, has, Option.isSome_iff_exists]

theorem get?_eq_none_iff (entries : InsertionMap κ ν) (key : κ) :
    get? entries key = none ↔ key ∉ keys entries := by
  rw [mem_keys_iff, Option.eq_none_iff_forall_ne_some, not_exists]

theorem put_of_fresh (fresh : key ∉ keys entries) (value : ν) :
    put entries key value = entries ++ [(key, value)] := by
  induction entries with
  | nil => rfl
  | cons entry rest ih =>
    have apart : ¬ entry.1 = key := fun same => fresh (by simp [keys, same])
    have later : key ∉ keys rest := fun inside => fresh (mem_cons_of_mem _ inside)
    simp [put, apart, ih later]

/-- Putting what is there already changes nothing. -/
theorem put_of_get? (known : get? entries key = some value) : put entries key value = entries := by
  induction entries with
  | nil => simp [get?] at known
  | cons entry rest ih =>
    by_cases here : entry.1 = key
    · simp only [get?, here, if_true, Option.some.injEq] at known
      subst here known
      simp [put]
    · simp only [get?, here, if_false] at known
      simp [put, here, ih known]

theorem put_ne_nil (entries : InsertionMap κ ν) (key : κ) (value : ν) : put entries key value ≠ [] := by
  cases entries with
  | nil => simp [put]
  | cons entry rest =>
    unfold put
    split <;> simp

theorem put_put (entries : InsertionMap κ ν) (key : κ) (first second : ν) :
    put (put entries key first) key second = put entries key second := by
  induction entries with
  | nil => simp [put]
  | cons entry rest ih =>
    by_cases here : entry.1 = key
    · simp [put, here]
    · simp [put, here, ih]

theorem keys_put (entries : InsertionMap κ ν) (key : κ) (value : ν) :
    keys (put entries key value) = if key ∈ keys entries then keys entries else keys entries ++ [key] := by
  induction entries with
  | nil => simp [put, keys]
  | cons entry rest ih =>
    by_cases here : entry.1 = key
    · simp [put, keys, here]
    · have other : key ≠ entry.1 := fun equal => here equal.symm
      have tail : (put rest key value).map Prod.fst = if key ∈ rest.map Prod.fst then
          rest.map Prod.fst else rest.map Prod.fst ++ [key] := ih
      by_cases known : key ∈ rest.map Prod.fst
      · rw [if_pos known] at tail
        simp [put, keys, here, tail, known]
      · rw [if_neg known] at tail
        simp only [put, keys, here, if_false, map_cons, mem_cons, other, known, or_self,
          cons_append, tail]

theorem mem_keys_put {other : κ} :
    other ∈ keys (put entries key value) ↔ other ∈ keys entries ∨ other = key := by
  rw [keys_put]
  split
  case isTrue known =>
    refine ⟨Or.inl, fun member => member.elim id fun same => ?_⟩
    rw [same]
    exact known
  case isFalse => rw [mem_append, mem_singleton]

omit [DecidableEq κ] in
theorem nodup_keys_nil : (keys ([] : InsertionMap κ ν)).Nodup := nodup_nil

theorem nodup_keys_put (distinct : (keys entries).Nodup) (key : κ) (value : ν) :
    (keys (put entries key value)).Nodup := by
  rw [keys_put]
  split
  · exact distinct
  · rename_i fresh
    exact nodup_append.mpr ⟨distinct, nodup_singleton key, fun one first other second =>
      fun same => fresh (mem_singleton.mp second ▸ same ▸ first)⟩

/-- An entry of an updated map is new or was there. -/
theorem mem_put {entry : κ × ν} (member : entry ∈ put entries key value) :
    entry = (key, value) ∨ entry ∈ entries := by
  induction entries with
  | nil => exact Or.inl (mem_singleton.mp member)
  | cons first rest ih =>
    unfold put at member
    split at member
    · rcases mem_cons.mp member with same | later
      · exact Or.inl same
      · exact Or.inr (mem_cons_of_mem _ later)
    · rcases mem_cons.mp member with same | later
      · exact Or.inr (same ▸ mem_cons_self)
      · exact (ih later).imp id (mem_cons_of_mem _)

theorem mem_of_get? (known : get? entries key = some value) : (key, value) ∈ entries := by
  induction entries with
  | nil => simp [get?] at known
  | cons entry rest ih =>
    unfold get? at known
    split at known
    · rename_i here
      obtain rfl := Option.some.inj known
      exact mem_cons.mpr (Or.inl (Prod.ext here.symm rfl))
    · exact mem_cons_of_mem _ (ih known)

theorem get?_of_mem (distinct : (keys entries).Nodup) (member : (key, value) ∈ entries) :
    get? entries key = some value := by
  induction entries with
  | nil => cases member
  | cons entry rest ih =>
    rw [keys, map_cons, nodup_cons] at distinct
    rcases mem_cons.mp member with rfl | later
    · simp [get?]
    · have apart : ¬ entry.1 = key := by
        rintro rfl
        exact distinct.1 (mem_map.mpr ⟨_, later, rfl⟩)
      rw [get?, if_neg apart]
      exact ih distinct.2 later

/-- A map of one key has one entry. -/
theorem eq_singleton (distinct : (keys entries).Nodup) (known : get? entries key = some value)
    (only : ∀ other ∈ keys entries, other = key) :
    entries = [(key, value)] := by
  cases entries with
  | nil => cases known
  | cons entry rest =>
    have head : entry.1 = key := only entry.1 mem_cons_self
    rw [get?, if_pos head] at known
    cases rest with
    | nil => rw [← Option.some.inj known, ← head]
    | cons second rest =>
      have next : second.1 = key := only second.1 (mem_cons_of_mem _ mem_cons_self)
      simp [keys, head, next] at distinct

/-- Only the entries that pass are found. -/
theorem get?_filter (distinct : (keys entries).Nodup) (keep : κ × ν → Bool) (key : κ) :
    get? (entries.filter keep) key = (get? entries key).filter fun value => keep (key, value) := by
  induction entries with
  | nil => rfl
  | cons entry rest ih =>
    rw [keys, map_cons, nodup_cons] at distinct
    have tail := ih distinct.2
    obtain ⟨first, value⟩ := entry
    by_cases here : first = key
    · subst here
      have gone : get? rest first = none := (get?_eq_none_iff _ _).mpr distinct.1
      rw [gone] at tail
      by_cases kept : keep (first, value) = true
      · simp [kept, get?, Option.filter_some]
      · simp [kept, get?, tail, Option.filter_some]
    · by_cases kept : keep (first, value) = true
      · simp [kept, get?, here, tail]
      · simp [kept, get?, here, tail]

theorem get?_append (first second : InsertionMap κ ν) (key : κ) :
    get? (first ++ second) key = (get? first key).or (get? second key) := by
  induction first with
  | nil => rfl
  | cons entry rest ih =>
    by_cases here : entry.1 = key
    · simp [get?, here]
    · simp [get?, here, ih]

theorem get?_filterKeys (entries : InsertionMap κ ν) (wanted : κ → Bool) (key : κ) :
    get? (entries.filter fun entry => wanted entry.1) key =
      if wanted key then get? entries key else none := by
  induction entries with
  | nil => simp [get?]
  | cons entry rest ih =>
    by_cases here : entry.1 = key
    · subst here
      cases kept : wanted entry.1
      · simp [kept, ih]
      · simp [kept, get?]
    · cases kept : wanted entry.1
      · simp [kept, ih, get?, here]
      · simp [kept, get?, here, ih]

theorem get?_mapValues (entries : InsertionMap κ ν) (change : κ → ν → ν) (key : κ) :
    get? (entries.map fun entry => (entry.1, change entry.1 entry.2)) key =
      (get? entries key).map (change key) := by
  induction entries with
  | nil => rfl
  | cons entry rest ih =>
    by_cases here : entry.1 = key
    · subst here
      simp [get?]
    · simpa [get?, here] using ih

omit [DecidableEq κ] in
theorem keys_mapValues (entries : InsertionMap κ ν) (change : κ → ν → ν) :
    keys (entries.map fun entry => (entry.1, change entry.1 entry.2)) = keys entries := by
  simp [keys, Function.comp_def]

def erase (entries : InsertionMap κ ν) (key : κ) : InsertionMap κ ν :=
  entries.filter fun entry => entry.1 ≠ key

theorem get?_erase (entries : InsertionMap κ ν) (key other : κ) :
    get? (erase entries key) other = if key = other then none else get? entries other := by
  induction entries with
  | nil => simp [erase, get?]
  | cons entry rest ih =>
    have tail : get? (rest.filter fun entry => entry.1 ≠ key) other =
        if key = other then none else get? rest other := ih
    by_cases here : entry.1 = key
    · subst here
      by_cases same : entry.1 = other
      · simpa [erase, get?, same] using tail
      · simpa [erase, get?, same] using tail
    · by_cases same : entry.1 = other
      · have apart : key ≠ other := fun equal => here (same.trans equal.symm)
        simp [erase, get?, same, apart, apart.symm]
      · simpa [erase, get?, here, same] using tail

theorem of_get?_erase {other : κ} (here : get? (erase entries key) other = some value) :
    key ≠ other ∧ get? entries other = some value := by
  rw [get?_erase] at here
  split at here
  · cases here
  next apart => exact ⟨apart, here⟩

theorem erase_of_fresh (fresh : key ∉ keys entries) : erase entries key = entries := by
  apply filter_eq_self.mpr
  intro entry member
  simp only [ne_eq, decide_eq_true_eq]
  exact fun same => fresh (same ▸ mem_map_of_mem member)

/-- Taking out what was just put in leaves the rest. -/
theorem erase_put (entries : InsertionMap κ ν) (key : κ) (value : ν) :
    erase (put entries key value) key = erase entries key := by
  induction entries with
  | nil => simp [erase, put]
  | cons entry rest ih =>
    have tail : (put rest key value).filter (fun entry => entry.1 ≠ key) =
        rest.filter fun entry => entry.1 ≠ key := ih
    by_cases here : entry.1 = key
    · simp [erase, put, here]
    · simpa [erase, put, here] using tail

/-- A known key splits the map; putting changes its entry in place and erasing takes it out. -/
theorem split_of_get? (distinct : (keys entries).Nodup) (known : get? entries key = some value) :
    ∃ front back, entries = front ++ (key, value) :: back ∧
      (∀ other, put entries key other = front ++ (key, other) :: back) ∧
      erase entries key = front ++ back := by
  induction entries with
  | nil => cases known
  | cons entry rest ih =>
    rw [keys, map_cons, nodup_cons] at distinct
    by_cases here : entry.1 = key
    · have stored : entry.2 = value := by simpa [get?, here] using known
      subst here stored
      refine ⟨[], rest, rfl, fun other => by simp [put], ?_⟩
      have gone : erase rest entry.1 = rest := erase_of_fresh distinct.1
      simpa [erase] using gone
    · rw [get?, if_neg here] at known
      obtain ⟨front, back, split, replaced, erased⟩ := ih distinct.2 known
      refine ⟨entry :: front, back, by rw [split]; rfl, fun other => ?_, ?_⟩
      · rw [put, if_neg here, replaced]
        rfl
      · have kept : erase (entry :: rest) key = entry :: erase rest key := by simp [erase, here]
        rw [kept, erased]
        rfl

theorem nodup_keys_erase (distinct : (keys entries).Nodup) (key : κ) :
    (keys (erase entries key)).Nodup :=
  (filter_sublist.map Prod.fst).nodup distinct

section Counting

variable (test : κ × ν → Bool)

/-- How many entries of other keys pass. -/
def countOthers (entries : InsertionMap κ ν) (key : κ) : Nat :=
  entries.countP fun entry => entry.1 ≠ key && test entry

theorem countOthers_le (entries : InsertionMap κ ν) (key : κ) :
    countOthers test entries key ≤ entries.countP test :=
  countP_mono_left fun _ _ passes => (Bool.and_eq_true _ _ ▸ passes).2

variable {entries : InsertionMap κ ν} {key : κ}

theorem countOthers_of_fresh (fresh : key ∉ keys entries) :
    countOthers test entries key = entries.countP test := by
  refine countP_congr fun entry member => ?_
  have apart : entry.1 ≠ key := fun same => fresh (same ▸ mem_map_of_mem member)
  simp [apart]

theorem countP_of_get? (distinct : (keys entries).Nodup) {value : ν}
    (known : get? entries key = some value) :
    entries.countP test =
      countOthers test entries key + if test (key, value) = true then 1 else 0 := by
  induction entries with
  | nil => cases known
  | cons entry rest ih =>
    rw [keys, map_cons, nodup_cons] at distinct
    have split : countOthers test (entry :: rest) key = countOthers test rest key +
        if (entry.1 ≠ key && test entry) = true then 1 else 0 := countP_cons
    rw [countP_cons, split]
    by_cases here : entry.1 = key
    · simp only [get?, here, if_true, Option.some.injEq] at known
      subst here known
      rw [countOthers_of_fresh test distinct.1]
      simp
    · simp only [get?, here, if_false] at known
      rw [ih distinct.2 known]
      simp [here]
      omega

theorem countP_erase (entries : InsertionMap κ ν) (key : κ) :
    (erase entries key).countP test = countOthers test entries key := by
  unfold erase countOthers
  rw [countP_filter]
  refine countP_congr fun entry _ => ?_
  rw [Bool.and_comm]

theorem countOthers_put (entries : InsertionMap κ ν) (key : κ) (value : ν) :
    countOthers test (put entries key value) key = countOthers test entries key := by
  unfold countOthers
  induction entries with
  | nil => simp [put]
  | cons entry rest ih =>
    by_cases here : entry.1 = key
    · simp [put, here]
    · rw [put, if_neg here, countP_cons, countP_cons, ih]

theorem countP_put (distinct : (keys entries).Nodup) (key : κ) (value : ν) :
    (put entries key value).countP test =
      countOthers test entries key + if test (key, value) = true then 1 else 0 := by
  rw [countP_of_get? test (nodup_keys_put distinct key value) (get?_put_self entries key value),
    countOthers_put]

theorem countP_put_of_fresh (distinct : (keys entries).Nodup) (fresh : has entries key = false)
    (value : ν) :
    (put entries key value).countP test =
      entries.countP test + if test (key, value) = true then 1 else 0 := by
  have unknown : key ∉ keys entries := by
    rw [← has_iff, fresh]
    exact Bool.false_ne_true
  rw [countP_put test distinct, countOthers_of_fresh test unknown]

theorem countP_erase_of_get? (distinct : (keys entries).Nodup) {value : ν}
    (known : get? entries key = some value) :
    entries.countP test =
      (erase entries key).countP test + if test (key, value) = true then 1 else 0 := by
  rw [countP_erase, countP_of_get? test distinct known]

/-- A test that is harder to pass, but for one key, counts no more of the others. -/
theorem countOthers_mono {harder : κ × ν → Bool}
    (implied : ∀ entry ∈ entries, entry.1 ≠ key → harder entry = true → test entry = true) :
    countOthers harder entries key ≤ countOthers test entries key := by
  refine countP_mono_left fun entry member passes => ?_
  simp only [Bool.and_eq_true, decide_eq_true_eq] at passes ⊢
  exact ⟨passes.1, implied entry member passes.1 passes.2⟩

end Counting

/-- One more item in the list of its key. -/
def push (groups : InsertionMap κ (List α)) (key : κ) (item : α) : InsertionMap κ (List α) :=
  put groups key ((get? groups key).getD [] ++ [item])

/-- Push items under their keys, one after another. -/
def pushAll (groups : InsertionMap κ (List α)) (pairs : List (κ × α)) : InsertionMap κ (List α) :=
  pairs.foldl (fun groups pair => push groups pair.1 pair.2) groups

/-- The items by their keys, in order of appearance. -/
def grouped (keyOf : α → κ) (items : List α) : InsertionMap κ (List α) :=
  pushAll [] (items.map fun item => (keyOf item, item))

theorem flatten_push (groups : InsertionMap κ (List α)) (key : κ) (item : α) :
    (values (push groups key item)).flatten.Perm ((values groups).flatten ++ [item]) := by
  unfold push
  induction groups with
  | nil => simp [put, get?, values]
  | cons entry rest ih =>
    by_cases here : entry.1 = key
    · simp only [put, get?, here, if_true, values, map_cons, flatten_cons,
        Option.getD_some, append_assoc]
      exact perm_append_comm.append_left entry.2
    · simp only [put, get?, here, if_false, values, map_cons, flatten_cons, append_assoc]
      exact ih.append_left entry.2

variable {groups : InsertionMap κ (List α)}

/-- Taking a group out takes out its items. -/
theorem flatten_erase (distinct : (keys groups).Nodup) (key : κ) : (values groups).flatten.Perm
      ((get? groups key).getD [] ++ (values (erase groups key)).flatten) := by
  cases known : get? groups key with
  | none =>
    rw [erase_of_fresh ((get?_eq_none_iff groups key).mp known)]
    exact List.Perm.refl _
  | some items =>
    obtain ⟨front, back, split, -, erased⟩ := split_of_get? distinct known
    rw [erased, split]
    simp only [values, map_append, map_cons, flatten_append, flatten_cons, Option.getD_some]
    rw [← append_assoc, ← append_assoc]
    exact perm_append_comm.append_right _

/-- The groups share out the items. -/
theorem flatten_pushAll (groups : InsertionMap κ (List α)) (pairs : List (κ × α)) :
    (values (pushAll groups pairs)).flatten.Perm ((values groups).flatten ++ pairs.map Prod.snd) := by
  induction pairs generalizing groups with
  | nil => simp [pushAll]
  | cons pair pairs ih =>
    have first := (flatten_push groups pair.1 pair.2).append_right (pairs.map Prod.snd)
    rw [append_assoc] at first
    exact (ih (push groups pair.1 pair.2)).trans first

theorem nodup_keys_pushAll (distinct : (keys groups).Nodup) (pairs : List (κ × α)) :
    (keys (pushAll groups pairs)).Nodup := by
  induction pairs generalizing groups with
  | nil => exact distinct
  | cons pair pairs ih => exact ih (nodup_keys_put distinct _ _)

/-- A group has the items that came with its key, in order. -/
theorem getD_get?_pushAll (groups : InsertionMap κ (List α)) (pairs : List (κ × α)) (key : κ) :
    (get? (pushAll groups pairs) key).getD [] =
      (get? groups key).getD [] ++ (pairs.filter (·.1 = key)).map Prod.snd := by
  induction pairs generalizing groups with
  | nil => simp [pushAll]
  | cons pair pairs ih =>
    have rest : pushAll groups (pair :: pairs) = pushAll (push groups pair.1 pair.2) pairs := rfl
    rw [rest, ih, push, get?_put]
    by_cases same : pair.1 = key
    · subst same
      simp
    · simp [same]

theorem mem_keys_pushAll {pairs : List (κ × α)} {key : κ} :
    key ∈ keys (pushAll groups pairs) ↔ key ∈ keys groups ∨ ∃ pair ∈ pairs, pair.1 = key := by
  induction pairs generalizing groups with
  | nil => simp [pushAll]
  | cons pair pairs ih =>
    have rest : pushAll groups (pair :: pairs) = pushAll (push groups pair.1 pair.2) pairs := rfl
    have grown : key ∈ keys (push groups pair.1 pair.2) ↔ key ∈ keys groups ∨ pair.1 = key := by
      unfold push
      rw [keys_put]
      split
      · rename_i known
        exact ⟨Or.inl, fun cases => cases.elim id fun same => same ▸ known⟩
      · rw [mem_append, mem_singleton, @eq_comm _ key]
    rw [rest, ih, grown, exists_mem_cons_iff, or_assoc]

/-- The items of a group are those with its key. -/
theorem mem_pushAll_nil {pairs : List (κ × α)} {group : κ × List α}
    (member : group ∈ pushAll [] pairs) :
    group.2 = (pairs.filter (·.1 = group.1)).map Prod.snd ∧ ∃ pair ∈ pairs, pair.1 = group.1 := by
  have distinct : (keys (pushAll [] pairs)).Nodup := nodup_keys_pushAll nodup_keys_nil pairs
  have found := get?_of_mem distinct member
  have known : group.1 ∈ keys (pushAll [] pairs) := mem_map_of_mem member
  have items := getD_get?_pushAll [] pairs group.1
  rw [found] at items
  exact ⟨by simpa [get?] using items, (mem_keys_pushAll.mp known).resolve_left (by simp [keys])⟩

theorem flatten_grouped (keyOf : α → κ) (items : List α) :
    (values (grouped keyOf items)).flatten.Perm items := by
  have shared := flatten_pushAll [] (items.map fun item => (keyOf item, item))
  simpa [values, grouped, Function.comp_def] using shared

theorem nodup_keys_grouped (keyOf : α → κ) (items : List α) : (keys (grouped keyOf items)).Nodup :=
  nodup_keys_pushAll nodup_keys_nil _

/-- The items of a group have its key. -/
theorem keyOf_of_mem_grouped (keyOf : α → κ) (items : List α) {group : κ × List α}
    (member : group ∈ grouped keyOf items) : ∀ item ∈ group.2, keyOf item = group.1 := by
  intro item inside
  rw [(mem_pushAll_nil member).1] at inside
  obtain ⟨pair, selected, rfl⟩ := mem_map.mp inside
  obtain ⟨known, same⟩ := mem_filter.mp selected
  obtain ⟨other, -, rfl⟩ := mem_map.mp known
  simpa using same

end InsertionMap
