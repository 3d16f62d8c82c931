import AutoMobile.KeyedSerialQueue

/- What every run of the calls keeps, on each key. -/
namespace AutoMobile.KeyedSerial

open List hiding keys
open InsertionMap

/-- The call of an index. -/
def At (state : State) (index : Nat) (call : Call) : Prop := state.calls[index]? = some call

/-- The function of the call is done, or will never start. -/
def Call.ended (call : Call) : Prop := call.phase = .finished ∨ call.phase = .gaveUp

/-- Every earlier call of the key has left. -/
def Passed (state : State) (index : Nat) (key : String) : Prop :=
  ∀ earlier call, earlier < index → At state earlier call → call.executionKey = key →
    call.tailSettled = true

/-- The invariant of the chains. -/
structure Chained (state : State) : Prop where
  behind : ∀ index call previous, At state index call → call.previous = some previous →
    previous < index ∧ (∃ other, At state previous other ∧ other.executionKey = call.executionKey) ∧
      ∀ between other, previous < between → between < index → At state between other →
        other.executionKey ≠ call.executionKey
  first : ∀ index call, At state index call → call.previous = none →
    Passed state index call.executionKey
  passed : ∀ index call, At state index call →
    call.phase = .running ∨ call.phase = .finished ∨ call.tailSettled = true →
      Passed state index call.executionKey
  ended : ∀ index call, At state index call → call.tailSettled = true → call.ended
  tail : ∀ key index, get? state.tails key = some index → ∃ call, At state index call ∧
    call.executionKey = key ∧ call.finalized = false ∧
      ∀ other call, At state other call → call.executionKey = key → other ≤ index
  idle : ∀ key, get? state.tails key = none → get? state.idleCloseKeys key = none ∧
      ∀ index call, At state index call → call.executionKey = key → call.tailSettled = true

section Steps

variable {state : State} {index : Nat} {call after : Call}

theorem at_update {other : Nat} {found : Call} (here : At state index call) :
    At (update state index after) other found ↔
      (other = index ∧ found = after) ∨ (other ≠ index ∧ At state other found) := by
  have bound : index < state.calls.length := (List.getElem?_eq_some_iff.1 here).1
  unfold At update
  dsimp only
  rw [getElem?_set]
  by_cases same : index = other
  · subst same
    rw [if_pos rfl, if_pos bound]
    simp [eq_comm]
  · rw [if_neg same]
    constructor
    · exact fun known => .inr ⟨fun equal => same equal.symm, known⟩
    · rintro (⟨equal, _⟩ | ⟨_, known⟩)
      · exact absurd equal.symm same
      · exact known

theorem At.unique {other : Call} (first : At state index call) (second : At state index other) :
    call = other := Option.some.inj (first.symm.trans second)

/-- A call behind a settled tail has none before it on its key. -/
theorem Chained.passed_of_previous (chained : Chained state) (here : At state index call)
    (settled : previousSettled state call = true) : Passed state index call.executionKey := by
  cases behind : call.previous with
  | none => exact chained.first index call here behind
  | some previous =>
    obtain ⟨earlier, ⟨other, known, key⟩, between⟩ := chained.behind index call previous here behind
    have left : other.tailSettled = true := by
      unfold previousSettled at settled
      rw [behind] at settled
      unfold At at known
      simpa [known] using settled
    intro place found before listed same
    obtain less | equal | more := Nat.lt_trichotomy place previous
    · apply chained.passed previous other known (.inr (.inr left)) place found less listed
      rw [key, same]
    · subst equal
      rw [listed.unique known]
      exact left
    · exact absurd same (between place found more before listed)

/-- A call moves on: it keeps its key and its place, and its tail stays settled. -/
theorem Chained.update (chained : Chained state) (here : At state index call)
    (key : after.executionKey = call.executionKey) (previous : after.previous = call.previous)
    (kept : call.tailSettled = true → after.tailSettled = true)
    (passed : after.phase = .running ∨ after.phase = .finished ∨ after.tailSettled = true →
      Passed state index call.executionKey)
    (ended : after.tailSettled = true → after.ended)
    (open_ : get? state.tails call.executionKey = some index → after.finalized = false) :
    Chained (update state index after) := by
  have keys : ∀ other found, At (KeyedSerial.update state index after) other found →
      ∃ old, At state other old ∧ old.executionKey = found.executionKey ∧
        old.previous = found.previous ∧ (old.tailSettled = true → found.tailSettled = true) := by
    intro other found known
    obtain ⟨rfl, rfl⟩ | ⟨_, known⟩ := (at_update here).1 known
    · exact ⟨call, here, key.symm, previous.symm, kept⟩
    · exact ⟨found, known, rfl, rfl, id⟩
  have lift : ∀ other key, Passed state other key →
      Passed (KeyedSerial.update state index after) other key := by
    intro other key left earlier found before known same
    obtain ⟨old, listed, equal, _, settled⟩ := keys earlier found known
    exact settled (left earlier old before listed (equal.trans same))
  constructor
  case behind =>
    intro other found place known behind
    obtain ⟨old, listed, equal, shared, _⟩ := keys other found known
    obtain ⟨before, ⟨held, known', sameKey⟩, between⟩ :=
      chained.behind other old place listed (shared.trans behind)
    refine ⟨before, ?_, ?_⟩
    · by_cases same : place = index
      · subst same
        refine ⟨after, (at_update here).2 (.inl ⟨rfl, rfl⟩), ?_⟩
        rw [key, ← equal, ← sameKey, known'.unique here]
      · exact ⟨held, (at_update here).2 (.inr ⟨same, known'⟩), sameKey.trans equal⟩
    · intro middle found' low high listed'
      obtain ⟨old', present, equal', _, _⟩ := keys middle found' listed'
      rw [← equal, ← equal']
      exact between middle old' low high present
  case first =>
    intro other found known none
    obtain ⟨old, listed, equal, shared, _⟩ := keys other found known
    rw [← equal]
    exact lift _ _ (chained.first other old listed (shared.trans none))
  case passed =>
    intro other found known moved
    obtain ⟨rfl, rfl⟩ | ⟨_, known⟩ := (at_update here).1 known
    · rw [key]
      exact lift _ _ (passed moved)
    · exact lift _ _ (chained.passed other found known moved)
  case ended =>
    intro other found known settled
    obtain ⟨rfl, rfl⟩ | ⟨_, known⟩ := (at_update here).1 known
    · exact ended settled
    · exact chained.ended other found known settled
  case tail =>
    intro name place held
    obtain ⟨found, listed, same, unfinished, last⟩ := chained.tail name place held
    have latest : ∀ other call, At (KeyedSerial.update state index after) other call →
        call.executionKey = name → other ≤ place := by
      intro other call known named
      obtain ⟨old, present, equal, _, _⟩ := keys other call known
      exact last other old present (equal.trans named)
    by_cases here' : place = index
    · subst here'
      have shared : found = call := listed.unique here
      subst shared
      subst same
      exact ⟨after, (at_update here).2 (.inl ⟨rfl, rfl⟩), key, open_ held, latest⟩
    · exact ⟨found, (at_update here).2 (.inr ⟨here', listed⟩), same, unfinished, latest⟩
  case idle =>
    intro name none
    obtain ⟨closed, settled⟩ := chained.idle name none
    refine ⟨closed, fun other found known same => ?_⟩
    obtain ⟨old, listed, equal, _, stays⟩ := keys other found known
    exact stays (settled other old listed (equal.trans same))

/-- The tail of a key leaves. -/
theorem Chained.drain (chained : Chained state) (here : At state index call)
    (held : get? state.tails call.executionKey = some index) (settled : call.tailSettled = true) :
    Chained { state with
      tails := erase state.tails call.executionKey
      idleCloseKeys := erase state.idleCloseKeys call.executionKey } ∧
    ∀ other found, At state other found → found.executionKey = call.executionKey →
      found.tailSettled = true := by
  have all : ∀ other found, At state other found → found.executionKey = call.executionKey →
      found.tailSettled = true := by
    intro other found known same
    obtain ⟨_, _, _, _, last⟩ := chained.tail _ _ held
    obtain less | rfl := Nat.lt_or_eq_of_le (last other found known same)
    · exact chained.passed index call here (.inr (.inr settled)) other found less known same
    · rw [known.unique here]
      exact settled
  refine ⟨?_, all⟩
  constructor
  case behind => exact chained.behind
  case first => exact chained.first
  case passed => exact chained.passed
  case ended => exact chained.ended
  case tail =>
    intro key place held
    dsimp only at held
    replace held := (of_get?_erase held).2
    exact chained.tail key place held
  case idle =>
    intro key none
    dsimp only at none ⊢
    rw [get?_erase] at none ⊢
    split at none
    case isTrue same =>
      rw [if_pos same]
      exact ⟨rfl, fun other found known named => all other found known (named.trans same.symm)⟩
    case isFalse apart =>
      rw [if_neg apart]
      exact chained.idle key none

theorem at_append {calls : List Call} {tails : InsertionMap String Nat}
    {idleCloseKeys : InsertionMap String (List String)} {place : Nat} {found : Call} :
    At { tails, idleCloseKeys, calls := calls ++ [call] } place found ↔
      calls[place]? = some found ∨ (place = calls.length ∧ found = call) := by
  unfold At
  dsimp only
  rw [getElem?_append]
  split
  case isTrue bound =>
    constructor
    · exact fun known => .inl known
    · rintro (known | ⟨rfl, _⟩)
      · exact known
      · exact absurd bound (Nat.lt_irrefl _)
  case isFalse bound =>
    have none : calls[place]? = none := List.getElem?_eq_none_iff.2 (Nat.le_of_not_lt bound)
    rw [none]
    constructor
    · intro known
      rw [getElem?_singleton] at known
      split at known
      · exact .inr ⟨by omega, (Option.some.inj known).symm⟩
      · contradiction
    · rintro (known | ⟨rfl, rfl⟩)
      · contradiction
      · simp

/-- A new call joins the chain of its key. -/
theorem Chained.join (chained : Chained state) (executionKey : String)
    (idleCloseKey : Option String) (chainWait : Bool) :
    Chained (runKeyedSerial state executionKey idleCloseKey chainWait) := by
  have bound : ∀ {place found}, At state place found → place < state.calls.length :=
    fun known => (List.getElem?_eq_some_iff.1 known).1
  have others : ∀ key, key ≠ executionKey → get?
      (runKeyedSerial state executionKey idleCloseKey chainWait).idleCloseKeys key =
        get? state.idleCloseKeys key := by
    intro key apart
    unfold runKeyedSerial
    dsimp only
    split
    · rfl
    · exact get?_put_of_ne _ (fun same => apart same.symm) _
  have lift : ∀ {place key}, Passed state place key → place ≤ state.calls.length →
      Passed (runKeyedSerial state executionKey idleCloseKey chainWait) place key := by
    intro place key left small earlier found before known same
    obtain known | ⟨rfl, _⟩ := at_append.1 known
    · exact left earlier found before known same
    · omega
  constructor
  case behind =>
    intro index found previous known behind
    obtain known | ⟨rfl, rfl⟩ := at_append.1 known
    · obtain ⟨before, ⟨other, listed, same⟩, between⟩ :=
        chained.behind index found previous known behind
      refine ⟨before, ⟨other, at_append.2 (.inl listed), same⟩, ?_⟩
      intro middle found' low high known'
      obtain known' | ⟨rfl, _⟩ := at_append.1 known'
      · exact between middle found' low high known'
      · have small := bound known
        omega
    · obtain ⟨held, listed, same, _, last⟩ := chained.tail executionKey previous behind
      refine ⟨bound listed, ⟨held, at_append.2 (.inl listed), same⟩, ?_⟩
      intro middle found' low high known' named
      obtain known' | ⟨rfl, _⟩ := at_append.1 known'
      · have limit := last middle found' known' named
        omega
      · exact absurd high (Nat.lt_irrefl _)
  case first =>
    intro index found known none
    obtain known | ⟨rfl, rfl⟩ := at_append.1 known
    · exact lift (chained.first index found known none) (Nat.le_of_lt (bound known))
    · intro earlier found before known' same
      obtain known' | ⟨rfl, _⟩ := at_append.1 known'
      · exact (chained.idle executionKey none).2 earlier found known' same
      · exact absurd before (Nat.lt_irrefl _)
  case passed =>
    intro index found known moved
    obtain known | ⟨rfl, rfl⟩ := at_append.1 known
    · exact lift (chained.passed index found known moved) (Nat.le_of_lt (bound known))
    · simp at moved
  case ended =>
    intro index found known settled
    obtain known | ⟨rfl, rfl⟩ := at_append.1 known
    · exact chained.ended index found known settled
    · contradiction
  case tail =>
    intro key place held
    have stored : get? (put state.tails executionKey state.calls.length) key = some place := held
    rcases of_get?_put stored with ⟨rfl, rfl⟩ | ⟨apart, stored⟩
    · refine ⟨_, at_append.2 (.inr ⟨rfl, rfl⟩), rfl, rfl, fun other found known _ => ?_⟩
      obtain known | ⟨rfl, _⟩ := at_append.1 known
      · exact Nat.le_of_lt (bound known)
      · exact Nat.le_refl _
    · obtain ⟨found, listed, same, unfinished, last⟩ := chained.tail key place stored
      refine ⟨found, at_append.2 (.inl listed), same, unfinished, fun other found known named => ?_⟩
      obtain known | ⟨_, rfl⟩ := at_append.1 known
      · exact last other found known named
      · exact absurd named apart
  case idle =>
    intro key none
    have none : get? (put state.tails executionKey state.calls.length) key = Option.none := none
    rw [get?_put] at none
    split at none
    case isTrue => contradiction
    case isFalse apart =>
      obtain ⟨closed, settled⟩ := chained.idle key none
      rw [others key fun same => apart same.symm]
      refine ⟨closed, fun place found known named => ?_⟩
      obtain known | ⟨_, rfl⟩ := at_append.1 known
      · exact settled place found known named
      · exact absurd named apart

end Steps

section Trace

/-- The idle-close keys of a key after one more output. -/
def registers (key : String) (members : List String) : Output → List String
  | .called executionKey idleCloseKey =>
    if executionKey = key then
      (idleCloseKey.filter fun idle => idle ≠ "").elim members (addTo members)
    else members
  | .chainDrained executionKey => if executionKey = key then [] else members
  | _ => members

/-- The idle-close keys, empty ones apart, that the calls on a key have named since its chain last
drained. -/
def registeredSince (key : String) (past : List Output) : List String :=
  past.foldl (registers key) []

theorem registeredSince_append (key : String) (past more : List Output)
    (silent : ∀ output ∈ more, (∀ one two, output ≠ .called one two) ∧
      ∀ one, output ≠ .chainDrained one) :
    registeredSince key (past ++ more) = registeredSince key past := by
  unfold registeredSince
  rw [foldl_append]
  generalize List.foldl _ [] past = members
  induction more with
  | nil => rfl
  | cons output more ih =>
    obtain ⟨unregistered, undrained⟩ := silent output mem_cons_self
    rw [foldl_cons]
    cases output with
    | called one two => exact absurd rfl (unregistered one two)
    | chainDrained one => exact absurd rfl (undrained one)
    | acquired one => exact ih fun other member => silent other (mem_cons_of_mem _ member)
    | started one two => exact ih fun other member => silent other (mem_cons_of_mem _ member)
    | settled one two => exact ih fun other member => silent other (mem_cons_of_mem _ member)
    | timedOut one two => exact ih fun other member => silent other (mem_cons_of_mem _ member)
    | drained one two => exact ih fun other member => silent other (mem_cons_of_mem _ member)

/-- What was put out so far fits the chains. -/
structure Told (state : State) (past : List Output) : Prop where
  started : ∀ index key, .started index key ∈ past → ∃ call, At state index call ∧
    call.executionKey = key ∧ (call.phase = .running ∨ call.phase = .finished)
  starts : past.Pairwise fun earlier later => ∀ one two key, earlier = .started one key →
    later = .started two key → one < two
  registered : ∀ key, (get? state.idleCloseKeys key).getD [] = registeredSince key past

variable {state : State} {index : Nat} {call after : Call} {past : List Output}

/-- Outputs without a start leave the starts in order. -/
theorem Told.starts_append (told : Told state past) {more : List Output}
    (unstarted : ∀ output ∈ more, ∀ one two, output ≠ .started one two) :
    (past ++ more).Pairwise fun earlier later => ∀ one two key, earlier = .started one key →
      later = .started two key → one < two := by
  rw [pairwise_append]
  refine ⟨told.starts, ?_, ?_⟩
  · apply pairwise_of_forall_mem_list
    intro earlier member later _ one two name first _
    exact absurd first (unstarted earlier member one name)
  · intro earlier _ later new one two name _ second
    exact absurd second (unstarted later new two name)

/-- A call moves on without starting. -/
theorem Told.quiet (told : Told state past) (here : At state index call) {more : List Output}
    (key : after.executionKey = call.executionKey)
    (phase : call.phase = .running ∨ call.phase = .finished →
      after.phase = .running ∨ after.phase = .finished)
    (silent : ∀ output ∈ more, (∀ one two, output ≠ .called one two) ∧
      ∀ one, output ≠ .chainDrained one)
    (unstarted : ∀ output ∈ more, ∀ one two, output ≠ .started one two) :
    Told (update state index after) (past ++ more) where
  started place name member := by
    obtain old | new := mem_append.1 member
    · obtain ⟨found, known, same, moved⟩ := told.started place name old
      by_cases equal : place = index
      · subst equal
        obtain rfl := known.unique here
        exact ⟨after, (at_update here).2 (.inl ⟨rfl, rfl⟩), key.trans same, phase moved⟩
      · exact ⟨found, (at_update here).2 (.inr ⟨equal, known⟩), same, moved⟩
    · exact absurd rfl (unstarted _ new place name)
  starts := told.starts_append unstarted
  registered name := by
    rw [registeredSince_append name past more silent]
    exact told.registered name

/-- A call starts: those that started before on its key have smaller indices. -/
theorem Told.start (chained : Chained state) (told : Told state past) (here : At state index call)
    (waiting : call.phase = .waiting) :
    Told (update state index { call with phase := .running })
      (past ++ ((call.idleCloseKey.map Output.acquired).toList ++
        [.started index call.executionKey])) := by
  have outputs : ∀ output, output ∈ (call.idleCloseKey.map Output.acquired).toList ++
      [Output.started index call.executionKey] →
      (∃ key, output = .acquired key) ∨ output = .started index call.executionKey := by
    intro output member
    obtain acquired | last := mem_append.1 member
    · cases shape : call.idleCloseKey with
      | none => simp [shape] at acquired
      | some key =>
        simp only [shape, Option.map_some, Option.toList_some, mem_singleton] at acquired
        exact .inl ⟨key, acquired⟩
    · exact .inr (mem_singleton.1 last)
  have earlier : ∀ place, .started place call.executionKey ∈ past → place < index := by
    intro place member
    obtain ⟨found, known, same, moved⟩ := told.started place _ member
    obtain less | equal | more := Nat.lt_trichotomy place index
    · exact less
    · subst equal
      rw [known.unique here, waiting] at moved
      simp at moved
    · exfalso
      have left := chained.passed place found known (moved.imp_right .inl) index call more here
        same.symm
      have ended := chained.ended index call here left
      unfold Call.ended at ended
      rw [waiting] at ended
      simp at ended
  constructor
  case started =>
    intro place name member
    obtain old | new := mem_append.1 member
    · obtain ⟨found, known, same, moved⟩ := told.started place name old
      by_cases equal : place = index
      · subst equal
        obtain rfl := known.unique here
        exact ⟨_, (at_update here).2 (.inl ⟨rfl, rfl⟩), same, .inl rfl⟩
      · exact ⟨found, (at_update here).2 (.inr ⟨equal, known⟩), same, moved⟩
    · obtain ⟨key, other⟩ | same := outputs _ new
      · contradiction
      · obtain ⟨rfl, rfl⟩ := Output.started.inj same
        exact ⟨_, (at_update here).2 (.inl ⟨rfl, rfl⟩), rfl, .inl rfl⟩
  case starts =>
    rw [pairwise_append]
    refine ⟨told.starts, ?_, ?_⟩
    · rw [pairwise_append]
      refine ⟨?_, pairwise_singleton _ _, ?_⟩
      · cases call.idleCloseKey with
        | none => exact List.Pairwise.nil
        | some key => exact pairwise_singleton _ _
      · intro first member later _ one two name shape _
        subst shape
        cases idle : call.idleCloseKey with
        | none => simp [idle] at member
        | some key => simp [idle] at member
    · intro first member later new one two name shape shape'
      subst shape shape'
      obtain ⟨key, other⟩ | same := outputs _ new
      · contradiction
      · obtain ⟨rfl, rfl⟩ := Output.started.inj same
        exact earlier one member
  case registered =>
    intro name
    rw [registeredSince_append]
    · exact told.registered name
    · intro output member
      obtain ⟨key, rfl⟩ | rfl := outputs output member
      · exact ⟨fun _ _ equal => by contradiction, fun _ equal => by contradiction⟩
      · exact ⟨fun _ _ equal => by contradiction, fun _ equal => by contradiction⟩

theorem Told.join (told : Told state past) (executionKey : String) (idleCloseKey : Option String)
    (chainWait : Bool) :
    Told (runKeyedSerial state executionKey idleCloseKey chainWait)
      (past ++ [.called executionKey idleCloseKey]) := by
  constructor
  case started =>
    intro place name member
    obtain old | new := mem_append.1 member
    · obtain ⟨found, known, same⟩ := told.started place name old
      exact ⟨found, at_append.2 (.inl known), same⟩
    · exact absurd (mem_singleton.1 new) (by simp)
  case starts =>
    refine told.starts_append fun output new one two equal => ?_
    rw [mem_singleton.1 new] at equal
    contradiction
  case registered =>
    intro name
    have more : registeredSince name (past ++ [.called executionKey idleCloseKey]) =
        registers name (registeredSince name past) (.called executionKey idleCloseKey) := by
      unfold registeredSince
      rw [foldl_append]
      rfl
    rw [more, registers, ← told.registered]
    unfold runKeyedSerial
    cases idleCloseKey.filter fun key => decide (key ≠ "") with
    | none => simp
    | some key =>
      dsimp only [Option.elim]
      rw [get?_put]
      split
      case isTrue same =>
        subst same
        rfl
      case isFalse => rfl

theorem registeredSince_drained (key executionKey : String) (past : List Output)
    (members : List String) :
    registeredSince key (past ++ .chainDrained executionKey ::
        members.map (Output.drained executionKey)) =
      if executionKey = key then [] else registeredSince key past := by
  have silent : ∀ output ∈ members.map (Output.drained executionKey),
      (∀ one two, output ≠ .called one two) ∧ ∀ one, output ≠ .chainDrained one := by
    intro output member
    obtain ⟨idle, _, rfl⟩ := mem_map.1 member
    exact ⟨fun _ _ equal => by contradiction, fun _ equal => by contradiction⟩
  rw [append_cons, registeredSince_append key _ _ silent]
  unfold registeredSince
  rw [foldl_append]
  rfl

end Trace

section Histories

variable {state : State} {past : List Output}

theorem told_silent {output : Output} (one : (∀ key idle, output ≠ .called key idle) ∧
    ∀ key, output ≠ .chainDrained key) : ∀ other ∈ [output],
      (∀ key idle, other ≠ .called key idle) ∧ ∀ key, other ≠ .chainDrained key := by
  intro other member
  rw [mem_singleton.1 member]
  exact one

theorem finalize_spec {index : Nat} {call : Call} (chained : Chained state) (told : Told state past)
    (here : At state index call) (settled : call.tailSettled = true) :
    Chained (finalize state index call).1 ∧
      Told (finalize state index call).1 (past ++ (finalize state index call).2) := by
  unfold finalize
  dsimp only
  have next : Told (update state index { call with finalized := true }) (past ++ []) :=
    told.quiet here rfl id (fun _ member => by cases member) fun _ member => by cases member
  rw [append_nil] at next
  split
  case isFalse other =>
    rw [append_nil]
    refine ⟨?_, next⟩
    apply chained.update here
    case key => rfl
    case previous => rfl
    case kept => exact id
    case passed => exact chained.passed index call here
    case ended => exact chained.ended index call here
    case open_ => exact fun held => absurd held other
  case isTrue held =>
    obtain ⟨drained, _⟩ := chained.drain here held settled
    constructor
    · apply drained.update here
      case key => rfl
      case previous => rfl
      case kept => exact id
      case passed => exact chained.passed index call here
      case ended => exact chained.ended index call here
      case open_ =>
        intro still
        dsimp only at still
        rw [get?_erase, if_pos rfl] at still
        contradiction
    · constructor
      case started =>
        intro place name member
        obtain old | new := mem_append.1 member
        · exact next.started place name old
        · obtain equal | new := mem_cons.1 new
          · contradiction
          · obtain ⟨_, _, equal⟩ := mem_map.1 new
            contradiction
      case starts =>
        refine told.starts_append fun output member one two equal => ?_
        subst equal
        obtain equal | member := mem_cons.1 member
        · contradiction
        · obtain ⟨_, _, equal⟩ := mem_map.1 member
          contradiction
      case registered =>
        intro name
        rw [registeredSince_drained]
        dsimp only
        rw [get?_erase]
        split
        · rfl
        · exact told.registered name

theorem enabled_at {test : Call → Bool} {index : Nat}
    (enabled : state.calls[index]?.any test = true) :
    ∃ call, At state index call ∧ test call = true := by
  cases found : state.calls[index]? with
  | none => simp [found] at enabled
  | some call => exact ⟨call, found, by simpa [found] using enabled⟩

/-- What one step keeps. -/
theorem serve_spec (chained : Chained state) (told : Told state past) (event : Event) :
    Chained (serve state event).1 ∧ Told (serve state event).1 (past ++ (serve state event).2) := by
  unfold serve
  split
  case isTrue =>
    rw [append_nil]
    exact ⟨chained, told⟩
  case isFalse enabled =>
    rw [Bool.not_eq_true, Bool.not_eq_false'] at enabled
    cases event with
    | call executionKey idleCloseKey chainWait =>
      exact ⟨chained.join executionKey idleCloseKey chainWait,
        told.join executionKey idleCloseKey chainWait⟩
    | acquire index =>
      obtain ⟨call, here, ready⟩ := enabled_at enabled
      simp only [Bool.and_eq_true, decide_eq_true_eq] at ready
      have found : state.calls[index]? = some call := here
      dsimp only
      rw [found]
      refine ⟨?_, told.start chained here ready.1⟩
      apply chained.update here
      case key => rfl
      case previous => rfl
      case kept => exact id
      case passed => exact fun _ => chained.passed_of_previous here ready.2
      case ended =>
        intro settled
        have ended := chained.ended index call here settled
        unfold Call.ended at ended
        rw [ready.1] at ended
        simp at ended
      case open_ =>
        intro held
        obtain ⟨other, known, _, unfinished, _⟩ := chained.tail _ _ held
        rw [here.unique known]
        exact unfinished
    | giveUp index =>
      obtain ⟨call, here, ready⟩ := enabled_at enabled
      simp only [Bool.and_eq_true, decide_eq_true_eq] at ready
      have found : state.calls[index]? = some call := here
      dsimp only
      rw [found]
      constructor
      · apply chained.update here
        case key => rfl
        case previous => rfl
        case kept => exact id
        case passed =>
          rintro (running | finished | settled)
          · contradiction
          · contradiction
          · exact chained.passed index call here (.inr (.inr settled))
        case ended => exact fun _ => .inr rfl
        case open_ =>
          intro held
          obtain ⟨other, known, _, unfinished, _⟩ := chained.tail _ _ held
          rw [here.unique known]
          exact unfinished
      · apply told.quiet here
        case key => rfl
        case phase =>
          rw [ready.1]
          simp
        case silent => exact told_silent ⟨fun _ _ equal => by contradiction, fun _ equal => by contradiction⟩
        case unstarted =>
          intro output member one two equal
          rw [mem_singleton.1 member] at equal
          contradiction
    | finish index ok =>
      obtain ⟨call, here, ready⟩ := enabled_at enabled
      simp only [decide_eq_true_eq] at ready
      have found : state.calls[index]? = some call := here
      dsimp only
      rw [found]
      constructor
      · apply chained.update here
        case key => rfl
        case previous => rfl
        case kept => exact id
        case passed => exact fun _ => chained.passed index call here (.inl ready)
        case ended => exact fun _ => .inl rfl
        case open_ =>
          intro held
          obtain ⟨other, known, _, unfinished, _⟩ := chained.tail _ _ held
          rw [here.unique known]
          exact unfinished
      · apply told.quiet here
        case key => rfl
        case phase => exact fun _ => .inr rfl
        case silent => exact told_silent ⟨fun _ _ equal => by contradiction, fun _ equal => by contradiction⟩
        case unstarted =>
          intro output member one two equal
          rw [mem_singleton.1 member] at equal
          contradiction
    | settleTail index =>
      obtain ⟨call, here, ready⟩ := enabled_at enabled
      simp only [Bool.and_eq_true, Bool.or_eq_true, decide_eq_true_eq] at ready
      have found : state.calls[index]? = some call := here
      dsimp only
      rw [found]
      constructor
      · apply chained.update here
        case key => rfl
        case previous => rfl
        case kept => exact fun _ => rfl
        case passed => exact fun _ => chained.passed_of_previous here ready.2
        case ended => exact fun _ => ready.1.1
        case open_ =>
          intro held
          obtain ⟨other, known, _, unfinished, _⟩ := chained.tail _ _ held
          rw [here.unique known]
          exact unfinished
      · apply told.quiet here
        case key => rfl
        case phase => exact id
        case silent =>
          intro output member
          cases member
        case unstarted =>
          intro output member
          cases member
    | finalize index =>
      obtain ⟨call, here, ready⟩ := enabled_at enabled
      simp only [Bool.and_eq_true] at ready
      have found : state.calls[index]? = some call := here
      dsimp only
      rw [found]
      exact finalize_spec chained told here ready.1

/-- A call that has not left is behind one of its key whose function runs, or one of its key can
take a step. -/
theorem progress (chained : Chained state) {index : Nat} {call : Call}
    (here : At state index call) (open_ : call.tailSettled = false) :
    ∃ other found, other ≤ index ∧ At state other found ∧ found.executionKey = call.executionKey ∧
      (found.phase = .running ∨ Enabled state (.acquire other) = true ∨
        Enabled state (.settleTail other) = true) := by
  induction index using Nat.strongRecOn generalizing call with
  | ind index ih =>
    by_cases ready : previousSettled state call = true
    · refine ⟨index, call, Nat.le_refl _, here, rfl, ?_⟩
      have found : state.calls[index]? = some call := here
      unfold Enabled
      dsimp only
      rw [found]
      cases phase : call.phase with
      | waiting => simp [phase, ready]
      | running => simp
      | finished => simp [phase, ready, open_]
      | gaveUp => simp [phase, ready, open_]
    · cases behind : call.previous with
      | none =>
        rw [previousSettled, behind] at ready
        simp at ready
      | some previous =>
        obtain ⟨before, ⟨held, known, same⟩, _⟩ := chained.behind index call previous here behind
        have stored : state.calls[previous]? = some held := known
        have unsettled : held.tailSettled = false := by
          unfold previousSettled at ready
          rw [behind] at ready
          simpa [stored] using ready
        obtain ⟨other, found, less, listed, key, moves⟩ := ih previous before known unsettled
        exact ⟨other, found, by omega, listed, key.trans same, moves⟩

end Histories

end AutoMobile.KeyedSerial
