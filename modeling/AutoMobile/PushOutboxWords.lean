import AutoMobile.PushSubscriberOutbox

/- The keys of the states, and what one step of the outbox does to everything that was written and
is queued, taken as one sequence. -/
namespace AutoMobile.PushOutbox

open List hiding keys
open InsertionMap PrototypeData

section Keys

theorem eq_of_prefix {one two rest : List Char}
    (same : utf16Length (String.ofList one) = utf16Length (String.ofList two))
    (longer : two = one ++ rest) : rest = [] := by
  subst longer
  cases rest with
  | nil => rfl
  | cons char rest =>
    exfalso
    simp only [utf16Length, String.toList_ofList, map_append, sum_append,
      map_cons, sum_cons] at same
    split at same
    · omega
    · omega

/-- Texts of one length that start two equal lists are equal. -/
theorem texts_of_append {one two : String} {x y : List Char}
    (length : utf16Length one = utf16Length two) (same : one.toList ++ x = two.toList ++ y) :
    one = two ∧ x = y := by
  have measured : utf16Length (String.ofList one.toList) =
      utf16Length (String.ofList two.toList) := by
    rw [String.ofList_toList, String.ofList_toList, length]
  obtain ⟨rest, longer, tail⟩ | ⟨rest, longer, tail⟩ := append_eq_append_iff.1 same
  · obtain rfl := eq_of_prefix measured longer
    rw [append_nil] at longer
    exact ⟨(String.toList_inj.1 longer).symm, tail⟩
  · obtain rfl := eq_of_prefix measured.symm longer
    rw [append_nil] at longer
    exact ⟨String.toList_inj.1 longer, tail.symm⟩

theorem split_at_colon {front other back rest : List Char} (plain : ':' ∉ front)
    (plain' : ':' ∉ other) (same : front ++ ':' :: back = other ++ ':' :: rest) :
    front = other ∧ back = rest := by
  induction front generalizing other with
  | nil =>
    cases other with
    | nil => simpa using same
    | cons char other =>
      simp only [nil_append, cons_append, List.cons.injEq] at same
      simp [← same.1] at plain'
  | cons char front ih =>
    cases other with
    | nil =>
      simp only [nil_append, cons_append, List.cons.injEq] at same
      simp [same.1] at plain
    | cons char' other =>
      simp only [cons_append, List.cons.injEq] at same
      obtain ⟨rfl, same⟩ := same
      obtain ⟨rfl, rfl⟩ := ih (fun inside => plain (by simp [inside]))
        (fun inside => plain' (by simp [inside])) same
      exact ⟨rfl, rfl⟩

theorem colon_not_digit (number : Nat) : ':' ∉ (toString number).toList := by
  intro inside
  have digits : (toString number).toList = Nat.toDigits 10 number := Nat.toList_repr
  rw [digits] at inside
  have digit := Nat.isDigit_of_mem_toDigits (by omega) (by omega) inside
  contradiction

theorem toString_head (number : Nat) :
    ∃ char rest, (toString number).toList = char :: rest ∧ char.isDigit = true := by
  have digits : (toString number).toList = Nat.toDigits 10 number := Nat.toList_repr
  cases shape : Nat.toDigits 10 number with
  | nil => exact absurd shape Nat.toDigits_ne_nil
  | cons char rest =>
    refine ⟨char, rest, digits.trans shape, ?_⟩
    exact Nat.isDigit_of_mem_toDigits (by omega) (by omega) (shape ▸ mem_cons_self)

theorem toString_inj {one two : Nat} (same : (toString one).toList = (toString two).toList) :
    one = two := by
  have decode : ∀ number : Nat,
      Nat.ofDigitChars 10 (toString number).toList 0 = number := fun number => by
    have digits : (toString number).toList = Nat.toDigits 10 number := Nat.toList_repr
    rw [digits]
    exact Nat.ofDigitChars_toDigits (by omega) (by omega)
  rw [← decode one, same, decode two]

/-- A part of a key tells its field, whatever follows. -/
theorem keyPart_append {one two : Option (Option String)} {x y : List Char}
    (same : (keyPart one).toList ++ x = (keyPart two).toList ++ y) : one = two ∧ x = y := by
  have unlike : ∀ (field : String) (rest z : List Char) (start : Char), start.isDigit = false →
      start :: rest ≠ (toString (utf16Length field) ++ ":" ++ field).toList ++ z := by
    intro field rest z start letter equal
    obtain ⟨char, more, shape, digit⟩ := toString_head (utf16Length field)
    simp only [String.toList_append, shape, cons_append, List.cons.injEq] at equal
    rw [← equal.1, letter] at digit
    contradiction
  match one, two with
  | none, none => exact ⟨rfl, append_cancel_left same⟩
  | some none, some none => exact ⟨rfl, append_cancel_left same⟩
  | none, some none => simp [keyPart] at same
  | some none, none => simp [keyPart] at same
  | none, some (some field) => exact absurd same (unlike field _ y 'u' (by decide))
  | some (some field), none => exact absurd same.symm (unlike field _ x 'u' (by decide))
  | some none, some (some field) => exact absurd same (unlike field _ y 'n' (by decide))
  | some (some field), some none => exact absurd same.symm (unlike field _ x 'n' (by decide))
  | some (some field), some (some other) =>
    simp only [keyPart, String.toList_append, append_assoc] at same
    obtain ⟨digits, texts⟩ := split_at_colon (colon_not_digit _) (colon_not_digit _) same
    obtain ⟨rfl, rest⟩ := texts_of_append (toString_inj digits) texts
    exact ⟨rfl, rest⟩

/-- The key of a state tells the subscription, the device, the epoch and the type. -/
theorem stateKey_injective {subscriptionId subscriptionId' deviceId deviceId' : Option String}
    {epoch epoch' : Option (Option String)} {type type' : String}
    (same : stateKey subscriptionId deviceId epoch type =
      stateKey subscriptionId' deviceId' epoch' type') :
    subscriptionId = subscriptionId' ∧ deviceId = deviceId' ∧ epoch = epoch' ∧ type = type' := by
  have chars := congrArg String.toList same
  simp only [stateKey, String.intercalate_cons_cons, String.intercalate_singleton,
    String.toList_append, append_assoc] at chars
  obtain ⟨subscriptions, chars⟩ := keyPart_append chars
  obtain ⟨devices, chars⟩ := keyPart_append (append_cancel_left chars)
  obtain ⟨epochs, chars⟩ := keyPart_append (append_cancel_left chars)
  have types := @keyPart_append (some (some type)) (some (some type')) [] []
    (by simpa using append_cancel_left chars)
  have injective : Function.Injective (some : String → Option String) := Option.some_injective _
  exact ⟨Option.map_injective injective subscriptions, Option.map_injective injective devices,
    epochs, by simpa using types.1⟩

end Keys

section Words

variable {Body Line : Type} (stringify : Message Body → Line)

/-- The line that a queued message becomes, unless it is dropped. -/
def PendingPush.pushed (entry : PendingPush Body Line) : Pushed Body Line :=
  write stringify entry.message entry.serialized

/-- All that was written and is queued, in order. -/
def words (written : List (Pushed Body Line)) (outbox : Outbox Body Line) :
    List (Pushed Body Line) :=
  written ++ outbox.pending.map fun entry => entry.2.pushed stringify

/-- A caller's frame that no newer one replaces. -/
def Pushed.lossless (pushed : Pushed Body Line) : Option (Frame Body × Line) :=
  match pushed.message with
  | .frame frame =>
    if (Message.frame frame).fields.state? = none then some (frame, pushed.line) else none
  | .frames_dropped _ _ _ => none

/-- What a line tells about a state: its frame, or that frames were dropped. -/
def Pushed.about (key : String) (pushed : Pushed Body Line) : Option (Option (Frame Body × Line)) :=
  match pushed.message with
  | .frame frame =>
    if (Message.frame frame).fields.state? = some key then some (some (frame, pushed.line))
    else none
  | .frames_dropped subscriptionId deviceId epoch =>
    if stateKey subscriptionId deviceId epoch "screenshot_update" = key then some none else none

/-- The last thing told about a state. -/
def latest (key : String) (lines : List (Pushed Body Line)) : Option (Option (Frame Body × Line)) :=
  (lines.filterMap (Pushed.about key)).getLast?

theorem latest_append (key : String) (front back : List (Pushed Body Line)) :
    latest key (front ++ back) = (latest key back).or (latest key front) := by
  unfold latest
  rw [filterMap_append, getLast?_append]

theorem latest_none {key : String} {lines : List (Pushed Body Line)}
    (silent : ∀ pushed ∈ lines, pushed.about key = none) : latest key lines = none := by
  unfold latest
  rw [filterMap_eq_nil_iff.2 silent]
  rfl

theorem latest_cons (key : String) (pushed : Pushed Body Line) (lines : List (Pushed Body Line)) :
    latest key (pushed :: lines) = (latest key lines).or (pushed.about key) := by
  have single : latest key [pushed] = pushed.about key := by
    cases told : pushed.about key with
    | none => simp [latest, told]
    | some word => simp [latest, told]
  rw [← singleton_append, latest_append, single]

@[simp] theorem latest_nil (key : String) : latest key ([] : List (Pushed Body Line)) = none := rfl

variable {stringify}

/-- The queue is in order: each entry has the slot of its message, a state's entry is the last
that is told about it, and of a state whose drop is reported the drop is the last that is told. -/
structure Kept (stringify : Message Body → Line) (written : List (Pushed Body Line))
    (outbox : Outbox Body Line) : Prop where
  distinct : (keys outbox.pending).Nodup
  numbered : ∀ number, .sequence number ∈ keys outbox.pending → number ≤ outbox.sequence
  states : ∀ key entry, (.state key, entry) ∈ outbox.pending →
    entry.message.fields.state? = some key ∧
      entry.subscriptionId = entry.message.fields.subscriptionId
  lossless : ∀ number entry, (.sequence number, entry) ∈ outbox.pending →
    entry.message.fields.state? = none
  order : outbox.pending.Pairwise fun earlier later =>
    ∀ key, earlier.1 = .state key → (later.2.pushed stringify).about key = none
  reported : ∀ key, has outbox.reportedDrops key = true →
    latest key (words stringify written outbox) = some none
  screens : ∀ key, has outbox.reportedDrops key = true → ∃ subscriptionId deviceId epoch,
      key = stateKey subscriptionId deviceId epoch "screenshot_update"

/-- What a step makes of the words: it adds lossless frames, and of each state it tells what was
told before, or a drop. -/
structure Extends (before after : List (Pushed Body Line)) (added : List (Frame Body × Line)) :
    Prop where
  lossless : after.filterMap Pushed.lossless = before.filterMap Pushed.lossless ++ added
  told : ∀ key, latest key after = latest key before ∨ latest key after = some none

theorem Extends.refl (lines : List (Pushed Body Line)) : Extends lines lines [] where
  lossless := by rw [append_nil]
  told _ := .inl rfl

theorem Extends.trans {first second third : List (Pushed Body Line)}
    {added more : List (Frame Body × Line)} (left : Extends first second added)
    (right : Extends second third more) : Extends first third (added ++ more) where
  lossless := by rw [right.lossless, left.lossless, append_assoc]
  told key := by
    obtain same | dropped := right.told key
    · rw [same]
      exact left.told key
    · exact .inr dropped

section Steps

variable {written : List (Pushed Body Line)} {outbox : Outbox Body Line}

/-- A state's own frame tells about that state alone. -/
theorem about_of_state {pushed : Pushed Body Line} {key other : String}
    (state : pushed.message.fields.state? = some key) :
    pushed.about other = if key = other then
        match pushed.message with
        | .frame frame => some (some (frame, pushed.line))
        | .frames_dropped _ _ _ => none
      else none := by
  unfold Pushed.about
  cases message : pushed.message with
  | frame frame =>
    rw [message] at state
    dsimp only
    rw [state]
    by_cases same : key = other
    · rw [if_pos same, if_pos (congrArg some same)]
    · rw [if_neg same, if_neg fun equal => same (Option.some.inj equal)]
  | frames_dropped subscriptionId deviceId epoch =>
    rw [message] at state
    simp [Message.fields, Fields.state?] at state

theorem state?_frame {message : Message Body} {key : String}
    (state : message.fields.state? = some key) : ∃ frame, message = .frame frame := by
  cases message with
  | frame frame => exact ⟨frame, rfl⟩
  | frames_dropped subscriptionId deviceId epoch => simp [Message.fields, Fields.state?] at state

theorem lossless_of_state {pushed : Pushed Body Line} {key : String}
    (state : pushed.message.fields.state? = some key) : pushed.lossless = none := by
  unfold Pushed.lossless
  cases message : pushed.message with
  | frame frame =>
    rw [message] at state
    dsimp only
    rw [state, if_neg (by simp)]
  | frames_dropped subscriptionId deviceId epoch => rfl

theorem words_put_fresh {slot : Slot} (fresh : slot ∉ keys outbox.pending)
    (entry : PendingPush Body Line) (sequence : Nat) :
    words stringify written { outbox with sequence, pending := put outbox.pending slot entry } =
      words stringify written outbox ++ [entry.pushed stringify] := by
  simp [words, put_of_fresh fresh]

/-- An entry comes last. -/
theorem Kept.append (kept : Kept stringify written outbox) {slot : Slot}
    {entry : PendingPush Body Line} {sequence : Nat} (fresh : slot ∉ keys outbox.pending)
    (grows : outbox.sequence ≤ sequence)
    (numbered : ∀ number, slot = .sequence number → number ≤ sequence)
    (states : ∀ key, slot = .state key → entry.message.fields.state? = some key ∧
      entry.subscriptionId = entry.message.fields.subscriptionId)
    (lossless : ∀ number, slot = .sequence number → entry.message.fields.state? = none)
    (silent : ∀ key, .state key ∈ keys outbox.pending → (entry.pushed stringify).about key = none)
    (reported : ∀ key, has outbox.reportedDrops key = true →
      (entry.pushed stringify).about key = none ∨ (entry.pushed stringify).about key = some none) :
    Kept stringify written { outbox with sequence, pending := put outbox.pending slot entry } where
  distinct := nodup_keys_put kept.distinct _ _
  numbered number member := by
    obtain old | same := mem_keys_put.1 member
    · exact Nat.le_trans (kept.numbered number old) grows
    · exact numbered number same.symm
  states key other member := by
    obtain same | old := mem_put member
    · obtain ⟨rfl, rfl⟩ := Prod.mk.inj same
      exact states key rfl
    · exact kept.states key other old
  lossless number other member := by
    obtain same | old := mem_put member
    · obtain ⟨rfl, rfl⟩ := Prod.mk.inj same
      exact lossless number rfl
    · exact kept.lossless number other old
  order := by
    rw [put_of_fresh fresh, pairwise_append]
    refine ⟨kept.order, pairwise_singleton _ _, ?_⟩
    intro earlier member later here key slot
    obtain rfl := mem_singleton.1 here
    apply silent key
    rw [← slot]
    exact mem_map_of_mem member
  reported key has := by
    rw [words_put_fresh fresh, latest_append, kept.reported key has, latest_cons, latest_nil,
      Option.none_or]
    obtain silent | dropped := reported key has
    · rw [silent, Option.none_or]
    · rw [dropped, Option.some_or]
  screens := kept.screens

/-- A line is written past an empty queue. -/
theorem Kept.direct (kept : Kept stringify written outbox) (empty : outbox.pending = [])
    {pushed : Pushed Body Line}
    (reported : ∀ key, has outbox.reportedDrops key = true →
      pushed.about key = none ∨ pushed.about key = some none) :
    Kept stringify (written ++ [pushed]) outbox where
  distinct := kept.distinct
  numbered := kept.numbered
  states := kept.states
  lossless := kept.lossless
  order := kept.order
  reported key has := by
    have before := kept.reported key has
    simp only [words, empty, map_nil, append_nil] at before ⊢
    rw [latest_append, before, latest_cons, latest_nil, Option.none_or]
    obtain silent | dropped := reported key has
    · rw [silent, Option.none_or]
    · rw [dropped, Option.some_or]
  screens := kept.screens

theorem Kept.clear (kept : Kept stringify written outbox) :
    Kept stringify written { outbox with reportedDrops := [] } where
  distinct := kept.distinct
  numbered := kept.numbered
  states := kept.states
  lossless := kept.lossless
  order := kept.order
  reported key has := by simp [InsertionMap.has, get?] at has
  screens key has := by simp [InsertionMap.has, get?] at has

/-- The drop that was just told is reported. -/
theorem Kept.report (kept : Kept stringify written outbox) {subscriptionId deviceId : Option String}
    {epoch : Option (Option String)} (owner : Option String)
    (dropped : latest (stateKey subscriptionId deviceId epoch "screenshot_update")
      (words stringify written outbox) = some none) :
    Kept stringify written
      { outbox with
        reportedDrops := put outbox.reportedDrops
          (stateKey subscriptionId deviceId epoch "screenshot_update") owner } where
  distinct := kept.distinct
  numbered := kept.numbered
  states := kept.states
  lossless := kept.lossless
  order := kept.order
  reported key known := by
    rw [has_iff, mem_keys_put, ← has_iff] at known
    obtain old | rfl := known
    · exact kept.reported key old
    · exact dropped
  screens key known := by
    rw [has_iff, mem_keys_put, ← has_iff] at known
    obtain old | rfl := known
    · exact kept.screens key old
    · exact ⟨subscriptionId, deviceId, epoch, rfl⟩

/-- The queue around the entry of a state. -/
theorem Kept.around (kept : Kept stringify written outbox) {key : String}
    {entry : PendingPush Body Line} (found : get? outbox.pending (.state key) = some entry) :
    ∃ front back, outbox.pending = front ++ (.state key, entry) :: back ∧
      (∀ other, put outbox.pending (.state key) other = front ++ (.state key, other) :: back) ∧
      erase outbox.pending (.state key) = front ++ back ∧ .state key ∉ keys front ∧
      ∀ later ∈ back, (later.2.pushed stringify).about key = none := by
  obtain ⟨front, back, split, replaced, erased⟩ := split_of_get? kept.distinct found
  have distinct := kept.distinct
  have order := kept.order
  rw [split, keys, map_append, map_cons] at distinct
  rw [split, pairwise_append, pairwise_cons] at order
  refine ⟨front, back, split, replaced, erased, ?_, ?_⟩
  · intro member
    have apart := (nodup_append.1 distinct).2.2
    exact apart _ member _ mem_cons_self rfl
  · exact fun later member => order.2.1.1 later member key rfl

/-- The queued frame of a state is the last thing told about it. -/
theorem latest_around {front back : InsertionMap Slot (PendingPush Body Line)} {key : String}
    {entry : PendingPush Body Line} (split : outbox.pending = front ++ (.state key, entry) :: back)
    (state : entry.message.fields.state? = some key)
    (silent : ∀ later ∈ back, (later.2.pushed stringify).about key = none) :
    latest key (words stringify written outbox) = (entry.pushed stringify).about key := by
  have rest : latest key (back.map fun entry => entry.2.pushed stringify) = none :=
    latest_none fun pushed member => by
      obtain ⟨later, inside, rfl⟩ := mem_map.1 member
      exact silent later inside
  have here : ((entry.pushed stringify).about key).isSome := by
    obtain ⟨frame, message⟩ := state?_frame state
    rw [about_of_state state, if_pos rfl]
    simp [PendingPush.pushed, write, message]
  obtain ⟨word, here⟩ := Option.isSome_iff_exists.1 here
  unfold words
  rw [split, map_append, map_cons, latest_append, latest_append, latest_cons, rest,
    Option.none_or, here, Option.some_or, Option.some_or]

theorem Kept.unreported (kept : Kept stringify written outbox) {key : String}
    {entry : PendingPush Body Line} (found : get? outbox.pending (.state key) = some entry) :
    has outbox.reportedDrops key = false := by
  obtain ⟨front, back, split, _, _, _, silent⟩ := kept.around found
  obtain ⟨state, _⟩ := kept.states key entry (mem_of_get? found)
  by_contra known
  have dropped := kept.reported key (by simpa using known)
  obtain ⟨frame, message⟩ := state?_frame state
  rw [latest_around split state silent, about_of_state state, if_pos rfl] at dropped
  simp [PendingPush.pushed, write, message] at dropped

/-- A newer frame of a state takes the place of the queued one. -/
theorem Kept.replace (kept : Kept stringify written outbox) {after : Outbox Body Line} {key : String}
    {old entry : PendingPush Body Line} (found : get? outbox.pending (.state key) = some old)
    (state : entry.message.fields.state? = some key)
    (owner : entry.subscriptionId = entry.message.fields.subscriptionId)
    (queue : after.pending = put outbox.pending (.state key) entry)
    (drops : after.reportedDrops = outbox.reportedDrops)
    (number : after.sequence = outbox.sequence) :
    Kept stringify written after ∧
      latest key (words stringify written after) = (entry.pushed stringify).about key ∧
      (∀ other, other ≠ key → latest other (words stringify written after) =
        latest other (words stringify written outbox)) ∧
      (words stringify written after).filterMap Pushed.lossless =
        (words stringify written outbox).filterMap Pushed.lossless := by
  obtain ⟨front, back, split, replaced, _, outside, silent⟩ := kept.around found
  obtain ⟨oldState, _⟩ := kept.states key old (mem_of_get? found)
  rw [replaced] at queue
  have elsewhere : ∀ other, other ≠ key →
      (entry.pushed stringify).about other = none ∧ (old.pushed stringify).about other = none :=
    fun other apart => by
      have away : ¬ key = other := fun same => apart same.symm
      rw [about_of_state state, about_of_state oldState, if_neg away, if_neg away]
      exact ⟨rfl, rfl⟩
  have told : latest key (words stringify written after) = (entry.pushed stringify).about key :=
    latest_around queue state silent
  have others : ∀ other, other ≠ key → latest other (words stringify written after) =
      latest other (words stringify written outbox) := by
    intro other apart
    unfold words
    rw [queue, split, map_append, map_append, map_cons, map_cons]
    simp only [latest_append, latest_cons, (elsewhere other apart).1, (elsewhere other apart).2]
  refine ⟨?_, told, others, ?_⟩
  · constructor
    case distinct =>
      rw [queue, ← replaced]
      exact nodup_keys_put kept.distinct _ _
    case numbered =>
      intro value member
      rw [queue, ← replaced] at member
      rw [number]
      obtain known | same := mem_keys_put.1 member
      · exact kept.numbered value known
      · contradiction
    case states =>
      intro other given member
      rw [queue, ← replaced] at member
      obtain same | known := mem_put member
      · obtain ⟨slot, rfl⟩ := Prod.mk.inj same
        obtain rfl := Slot.state.inj slot
        exact ⟨state, owner⟩
      · exact kept.states other given known
    case lossless =>
      intro value given member
      rw [queue, ← replaced] at member
      obtain same | known := mem_put member
      · exact absurd (Prod.mk.inj same).1 (by simp)
      · exact kept.lossless value given known
    case order =>
      have order := kept.order
      rw [split, pairwise_append, pairwise_cons] at order
      rw [queue, pairwise_append, pairwise_cons]
      obtain ⟨before, ⟨_, after⟩, across⟩ := order
      refine ⟨before, ⟨?_, after⟩, ?_⟩
      · intro later member other same
        obtain rfl := Slot.state.inj same
        exact silent later member
      · intro earlier member later inside other same
        obtain rfl | inside := mem_cons.1 inside
        · apply (elsewhere other _).1
          rintro rfl
          exact outside (same ▸ mem_map_of_mem member)
        · exact across earlier member later (mem_cons_of_mem _ inside) other same
    case reported =>
      intro other known
      rw [drops] at known
      by_cases same : other = key
      · rw [same, kept.unreported found] at known
        contradiction
      · rw [others other same]
        exact kept.reported other known
    case screens =>
      rw [drops]
      exact kept.screens
  · unfold words
    rw [queue, split]
    have silent : ∀ entry : PendingPush Body Line, entry.message.fields.state? = some key →
        (entry.pushed stringify).lossless = none := fun entry state =>
      @lossless_of_state _ _ (entry.pushed stringify) key state
    simp [silent entry state, silent old oldState]

/-- Entries that a selection says nothing about may leave the queue. -/
theorem filterMap_words_filter {α : Type} {after : Outbox Body Line} {tells : Pushed Body Line → Option α}
    {keep : Slot × PendingPush Body Line → Bool}
    (queue : after.pending = outbox.pending.filter keep)
    (silent : ∀ entry ∈ outbox.pending, keep entry = false →
      tells (entry.2.pushed stringify) = none) :
    (words stringify written after).filterMap tells =
      (words stringify written outbox).filterMap tells := by
  unfold words
  rw [filterMap_append, filterMap_append, queue, filterMap_map, filterMap_map, filterMap_filter]
  congr 1
  apply filterMap_congr
  intro entry member
  cases kept : keep entry with
  | true => rw [if_pos rfl]
  | false =>
    rw [if_neg Bool.false_ne_true]
    exact (silent entry member kept).symm

/-- Queued states leave the queue. -/
theorem Kept.filter (kept : Kept stringify written outbox) {after : Outbox Body Line}
    {keep : Slot × PendingPush Body Line → Bool}
    (queue : after.pending = outbox.pending.filter keep)
    (number : after.sequence = outbox.sequence)
    (drops : ∀ key, has after.reportedDrops key = true → has outbox.reportedDrops key = true)
    (onlyStates : ∀ entry ∈ outbox.pending, keep entry = false → ∃ key, entry.1 = .state key) :
    Kept stringify written after ∧ (words stringify written after).filterMap Pushed.lossless =
        (words stringify written outbox).filterMap Pushed.lossless ∧
      ∀ key, (∀ entry, (.state key, entry) ∈ outbox.pending → keep (.state key, entry) = true) →
        latest key (words stringify written after) =
          latest key (words stringify written outbox) := by
  have told : ∀ key,
      (∀ entry, (.state key, entry) ∈ outbox.pending → keep (.state key, entry) = true) →
      latest key (words stringify written after) = latest key (words stringify written outbox) := by
    intro key stays
    unfold latest
    rw [filterMap_words_filter queue]
    rintro ⟨slot, entry⟩ member gone
    obtain ⟨other, rfl⟩ := onlyStates _ member gone
    obtain ⟨state, _⟩ := kept.states other entry member
    rw [about_of_state state, if_neg]
    rintro rfl
    rw [stays entry member] at gone
    contradiction
  have sublist : after.pending.Sublist outbox.pending := queue ▸ filter_sublist
  refine ⟨?_, filterMap_words_filter queue ?_, told⟩
  · constructor
    case distinct => exact (sublist.map Prod.fst).nodup kept.distinct
    case numbered =>
      intro value member
      rw [number]
      exact kept.numbered value ((sublist.map Prod.fst).subset member)
    case states => exact fun key entry member => kept.states key entry (sublist.subset member)
    case lossless =>
      exact fun value entry member => kept.lossless value entry (sublist.subset member)
    case order => exact kept.order.sublist sublist
    case reported =>
      intro key known
      rw [told key]
      · exact kept.reported key (drops key known)
      · intro entry member
        have queued := kept.unreported (get?_of_mem kept.distinct member)
        rw [drops key known] at queued
        contradiction
    case screens => exact fun key known => kept.screens key (drops key known)
  · rintro ⟨slot, entry⟩ member gone
    obtain ⟨other, rfl⟩ := onlyStates _ member gone
    obtain ⟨state, _⟩ := kept.states other entry member
    exact @lossless_of_state _ _ (entry.pushed stringify) other state

end Steps

section Sends

variable {written : List (Pushed Body Line)} {outbox : Outbox Body Line}

/-- A send of a message: a lossless frame is added, of the state of another frame its newest is
told, and of every other state what was told before, or a drop. -/
structure Accepts (before after : List (Pushed Body Line)) (pushed : Pushed Body Line) : Prop where
  lossless : after.filterMap Pushed.lossless =
    before.filterMap Pushed.lossless ++ pushed.lossless.toList
  newest : ∀ key, pushed.message.fields.state? = some key →
    latest key after = pushed.about key ∨ latest key after = some none
  others : ∀ key, pushed.message.fields.state? ≠ some key →
    latest key after = latest key before ∨ latest key after = some none

theorem about_of_other {pushed : Pushed Body Line} {key : String}
    (frame : ∃ frame, pushed.message = .frame frame)
    (other : pushed.message.fields.state? ≠ some key) : pushed.about key = none := by
  obtain ⟨frame, message⟩ := frame
  unfold Pushed.about
  rw [message] at other ⊢
  dsimp only
  rw [if_neg other]

/-- A line at the end of the words. -/
theorem Accepts.of_append {before : List (Pushed Body Line)} {pushed : Pushed Body Line}
    (frame : ∃ frame, pushed.message = .frame frame) :
    Accepts before (before ++ [pushed]) pushed where
  lossless := by
    rw [filterMap_append]
    cases lossless : pushed.lossless with
    | none => simp [lossless]
    | some sent => simp [lossless]
  newest key state := by
    have told : (pushed.about key).isSome := by
      obtain ⟨frame, message⟩ := frame
      rw [about_of_state state, if_pos rfl, message]
      rfl
    obtain ⟨word, told⟩ := Option.isSome_iff_exists.1 told
    left
    rw [latest_append, latest_cons, latest_nil, Option.none_or, told, Option.some_or]
  others key other := by
    left
    rw [latest_append, latest_cons, latest_nil, Option.none_or, about_of_other frame other,
      Option.none_or]

theorem words_direct (empty : outbox.pending = []) (pushed : Pushed Body Line) :
    words stringify (written ++ [pushed]) outbox = words stringify written outbox ++ [pushed] := by
  simp [words, empty]

/-- What has a slot of its own comes last. -/
theorem place_lossless {accepts drainPending : Bool} {message : Message Body}
    {serialized : Option Line} (kept : Kept stringify written outbox)
    (quiet : drainPending = false → outbox.pending = [])
    (stateless : message.fields.state? = none)
    (silent : ∀ key, .state key ∈ keys outbox.pending →
      (write stringify message serialized).about key = none)
    (reported : ∀ key, has outbox.reportedDrops key = true →
      (write stringify message serialized).about key = none ∨
        (write stringify message serialized).about key = some none) :
    let sent := place stringify outbox accepts message drainPending serialized
    Kept stringify (written ++ sent.written) sent.outbox ∧
      words stringify (written ++ sent.written) sent.outbox =
        words stringify written outbox ++ [write stringify message serialized] ∧
      (drainPending = false → sent.outbox.pending = []) := by
  unfold place
  cases drainPending with
  | false =>
    have empty := quiet rfl
    exact ⟨kept.direct empty reported, words_direct empty _, fun _ => empty⟩
  | true =>
    have fresh : .sequence (outbox.sequence + 1) ∉ keys outbox.pending := fun member => by
      have bound := kept.numbered _ member
      omega
    have queued : enqueue stringify outbox message serialized = { outbox with
          sequence := outbox.sequence + 1
          pending := put outbox.pending (.sequence (outbox.sequence + 1))
            { message, serialized := some (serialized.getD (stringify message)),
              subscriptionId := message.fields.subscriptionId } } := by
      unfold enqueue
      dsimp only
      rw [stateless]
    dsimp only
    rw [if_pos rfl]
    dsimp only
    rw [queued, append_nil]
    refine ⟨?_, words_put_fresh fresh _ _, fun other => by contradiction⟩
    apply kept.append fresh (by omega)
    case numbered =>
      intro number same
      rw [Slot.sequence.inj same]
    case states => exact fun key same => by contradiction
    case lossless => exact fun _ _ => stateless
    case silent => exact silent
    case reported => exact reported

/-- The frame of a state comes last or takes the place of an older one. -/
theorem place_state {accepts drainPending : Bool} {frame : Frame Body} {serialized : Option Line}
    {key : String} (kept : Kept stringify written outbox)
    (quiet : drainPending = false → outbox.pending = [])
    (state : (Message.frame frame).fields.state? = some key)
    (unreported : has outbox.reportedDrops key = false) :
    let sent := place stringify outbox accepts (.frame frame) drainPending serialized
    Kept stringify (written ++ sent.written) sent.outbox ∧ Accepts (words stringify written outbox)
        (words stringify (written ++ sent.written) sent.outbox)
        (write stringify (.frame frame) serialized) ∧
      (drainPending = false → sent.outbox.pending = []) := by
  have reported : ∀ other, has outbox.reportedDrops other = true →
      (write stringify (.frame frame) serialized).about other = none ∨
        (write stringify (.frame frame) serialized).about other = some none := by
    intro other known
    left
    rw [about_of_state state, if_neg]
    rintro rfl
    rw [known] at unreported
    contradiction
  unfold place
  cases drainPending with
  | false =>
    have empty := quiet rfl
    refine ⟨kept.direct empty reported, ?_, fun _ => empty⟩
    rw [if_neg Bool.false_ne_true, words_direct empty]
    exact Accepts.of_append ⟨frame, rfl⟩
  | true =>
    let entry : PendingPush Body Line :=
      { message := .frame frame, serialized,
        subscriptionId := (Message.frame frame).fields.subscriptionId }
    have queued : enqueue stringify outbox (.frame frame) serialized =
        { outbox with pending := put outbox.pending (.state key) entry } := by
      unfold enqueue
      dsimp only
      rw [state]
    dsimp only
    rw [if_pos rfl]
    dsimp only
    rw [queued, append_nil]
    cases found : get? outbox.pending (.state key) with
    | none =>
      have fresh := (get?_eq_none_iff _ _).1 found
      refine ⟨?_, ?_, fun other => by contradiction⟩
      · apply kept.append fresh (Nat.le_refl _)
        case numbered => exact fun number same => by contradiction
        case states =>
          intro other same
          obtain rfl := Slot.state.inj same
          exact ⟨state, rfl⟩
        case lossless => exact fun number same => by contradiction
        case reported => exact reported
        case silent =>
          intro other member
          change (write stringify (.frame frame) serialized).about other = none
          rw [about_of_state state, if_neg]
          rintro rfl
          exact fresh member
      · rw [words_put_fresh fresh]
        exact Accepts.of_append ⟨frame, rfl⟩
    | some old =>
      have queue : { outbox with pending := put outbox.pending (.state key) entry }.pending =
          put outbox.pending (.state key) entry := rfl
      obtain ⟨after, told, others, lossless⟩ := kept.replace found state rfl queue rfl rfl
      refine ⟨after, ?_, fun other => by contradiction⟩
      constructor
      case lossless =>
        have replaced : (write stringify (.frame frame) serialized).lossless = none :=
          lossless_of_state state
        rw [replaced]
        exact lossless.trans (append_nil _).symm
      case newest =>
        intro other same
        obtain rfl := Option.some.inj (state.symm.trans same)
        exact .inl told
      case others =>
        intro other apart
        refine .inl (others other ?_)
        rintro rfl
        exact apart state

end Sends


end Words

end AutoMobile.PushOutbox
