import Mathlib

/- Text typed on a device: the chunks, the commands, and what the device makes of them. -/
namespace AutoMobile.AndroidInputText

open List

section Plan

/-- `value.replace(/'/g, "'\''")`. -/
def escapeQuotes (value : List Char) : List Char :=
  value.flatMap fun char => if char = '\'' then ['\'', '\\', '\'', '\''] else [char]

def shellQuote (value : List Char) : List Char := '\'' :: (escapeQuotes value ++ ['\''])

/-- The error of text that `input text` cannot carry. -/
inductive InputTextError where
  | emptyOrLiteralSpaceEscape
deriving DecidableEq, Repr

def commandPrefix : List Char := "shell input text ".toList

/-- `text.replaceAll(" ", "%s")`. -/
def encodeSpaces (text : List Char) : List Char :=
  text.flatMap fun char => if char = ' ' then ['%', 's'] else [char]

def buildAndroidInputTextCommand (text : List Char) : Except InputTextError (List Char) :=
  if text = [] ∨ ['%', 's'] <:+: text then .error .emptyOrLiteralSpaceEscape
  else .ok (commandPrefix ++ shellQuote (encodeSpaces text))

def ANDROID_INPUT_TEXT_CHUNK_CHARS : Nat := 32
def ANDROID_INPUT_TEXT_PRE31_CHUNK_CHARS : Nat := 512

def androidInputTextChunkChars (apiLevel : Option Int) : Nat :=
  match apiLevel with
  | some level =>
    if level ≤ 30 then ANDROID_INPUT_TEXT_PRE31_CHUNK_CHARS else ANDROID_INPUT_TEXT_CHUNK_CHARS
  | none => ANDROID_INPUT_TEXT_CHUNK_CHARS

/-- The loop of `chunkEnd`: back over trailing spaces, to no less than one character. -/
def backOverSpaces (text : List Char) (start : Nat) : Nat → Nat
  | 0 => 0
  | stop + 1 =>
    if start < stop ∧ text[stop]? = some ' ' then backOverSpaces text start stop else stop + 1

def chunkEnd (text : List Char) (start chunkChars : Nat) : Nat :=
  let hardEnd := start + chunkChars
  if text.length ≤ hardEnd then text.length
  else
    let stop := backOverSpaces text start hardEnd
    if text[stop - 1]? ≠ some ' ' then stop
    else if 1 < chunkChars ∧ text[hardEnd]? ≠ some ' ' then hardEnd - 1
    else hardEnd

theorem backOverSpaces_spec (text : List Char) {start stop : Nat} (within : start < stop) :
    start < backOverSpaces text start stop ∧ backOverSpaces text start stop ≤ stop ∧
      ∀ index, backOverSpaces text start stop ≤ index → index < stop → text[index]? = some ' ' := by
  induction stop with
  | zero => omega
  | succ stop ih =>
    unfold backOverSpaces
    split
    next space =>
      obtain ⟨above, below, spaces⟩ := ih space.1
      refine ⟨above, Nat.le_succ_of_le below, fun index first last => ?_⟩
      rcases Nat.lt_succ_iff_lt_or_eq.mp last with inside | same
      · exact spaces index first inside
      · rw [same]
        exact space.2
    next => exact ⟨within, Nat.le_refl _, fun index first last => by omega⟩

/-- The loop stops at a character that is no space, or at the first one. -/
theorem backOverSpaces_stop (text : List Char) {start stop : Nat} (within : start < stop) :
    text[backOverSpaces text start stop - 1]? ≠ some ' ' ∨
      backOverSpaces text start stop = start + 1 := by
  induction stop with
  | zero => omega
  | succ stop ih =>
    unfold backOverSpaces
    split
    next space => exact ih space.1
    next other =>
      by_cases first : start < stop
      · exact Or.inl fun space => other ⟨first, space⟩
      · exact Or.inr (by omega)

/-- A chunk ends after its start, within the text and the chunk size. -/
theorem chunkEnd_bounds {text : List Char} {start chunkChars : Nat} (within : start < text.length)
    (room : 0 < chunkChars) :
    start < chunkEnd text start chunkChars ∧ chunkEnd text start chunkChars ≤ text.length ∧
      chunkEnd text start chunkChars ≤ start + chunkChars := by
  obtain ⟨above, below, _⟩ := backOverSpaces_spec text (show start < start + chunkChars by omega)
  unfold chunkEnd
  dsimp only
  split
  · omega
  split
  · omega
  split <;> omega

/-- The loop of `splitAndroidInputText`, from `start` on. -/
def splitFrom (text : List Char) (chunkChars : Nat) (room : 0 < chunkChars) (start : Nat) :
    List (List Char) :=
  if _within : start < text.length then
    (text.drop start).take (chunkEnd text start chunkChars - start) ::
      splitFrom text chunkChars room (chunkEnd text start chunkChars)
  else []
termination_by text.length - start
decreasing_by
  have bounds := chunkEnd_bounds _within room
  omega

theorem androidInputTextChunkChars_pos (apiLevel : Option Int) :
    1 < androidInputTextChunkChars apiLevel := by
  unfold androidInputTextChunkChars
  split
  · split <;> decide
  · decide

def splitAndroidInputText (text : List Char) (apiLevel : Option Int) : List (List Char) :=
  splitFrom text (androidInputTextChunkChars apiLevel)
    (Nat.lt_of_succ_lt (androidInputTextChunkChars_pos apiLevel)) 0

structure KeyEventPlan where
  commands : List (List Char)
  textLength : Nat
deriving DecidableEq, Repr

/-- The commands of the chunks, up to the first error. -/
def buildCommands : List (List Char) → Except InputTextError (List (List Char))
  | [] => .ok []
  | chunk :: rest => do
    let command ← buildAndroidInputTextCommand chunk
    let later ← buildCommands rest
    return command :: later

def buildAndroidInputTextPlan (text : List Char) (apiLevel : Option Int) :
    Except InputTextError KeyEventPlan := do
  let commands ← buildCommands (splitAndroidInputText text apiLevel)
  return { commands, textLength := min text.length (androidInputTextChunkChars apiLevel) }

end Plan

section Device

/-- Characters that stand for themselves in an unquoted shell word. -/
def plain (char : Char) : Bool := char.isAlphanum || "_./:@%+=,-".toList.contains char

/-- The rest of a shell word, inside single quotes or outside them. -/
def shellWordFrom : Bool → List Char → Option (List Char)
  | false, [] => some []
  | true, [] => none
  | true, char :: rest =>
    if char = '\'' then shellWordFrom false rest
    else (shellWordFrom true rest).map (char :: ·)
  | false, '\'' :: rest => shellWordFrom true rest
  | false, ['\\'] => none
  | false, '\\' :: char :: rest => (shellWordFrom false rest).map (char :: ·)
  | false, char :: rest => if plain char then (shellWordFrom false rest).map (char :: ·) else none

def shellWord (word : List Char) : Option (List Char) := shellWordFrom false word

/-- `input text` types a space for `%s`, from left to right. -/
def decodeSpaces : List Char → List Char
  | '%' :: 's' :: rest => ' ' :: decodeSpaces rest
  | char :: rest => char :: decodeSpaces rest
  | [] => []

/-- What the device types for a command. -/
def decodeCommand (command : List Char) : Option (List Char) := do
  let word ← command.dropPrefix? commandPrefix
  let value ← shellWord word
  return decodeSpaces value

end Device

section Chunks

variable {text : List Char} {chunkChars : Nat} {room : 0 < chunkChars}

/-- No chunk ends in a space unless the next character is a space too. -/
theorem chunkEnd_boundary {start : Nat} (pair : 1 < chunkChars)
    (before : chunkEnd text start chunkChars < text.length)
    (space : text[chunkEnd text start chunkChars - 1]? = some ' ') :
    text[chunkEnd text start chunkChars]? = some ' ' := by
  have reach : start < start + chunkChars := by omega
  obtain ⟨above, below, spaces⟩ := backOverSpaces_spec text reach
  have stopped := backOverSpaces_stop text reach
  unfold chunkEnd at before space ⊢
  dsimp only at before space ⊢
  by_cases last : text.length ≤ start + chunkChars
  · rw [if_pos last] at before
    omega
  · rw [if_neg last] at space ⊢
    by_cases other : text[backOverSpaces text start (start + chunkChars) - 1]? ≠ some ' '
    · rw [if_pos other] at space
      exact absurd space other
    · rw [if_neg other]
      have first : backOverSpaces text start (start + chunkChars) = start + 1 :=
        stopped.resolve_left other
      split
      next => exact spaces _ (by omega) (by omega)
      next full => exact not_not.mp fun stranded => full ⟨pair, stranded⟩

theorem splitFrom_cons {start : Nat} (within : start < text.length) :
    splitFrom text chunkChars room start =
      (text.drop start).take (chunkEnd text start chunkChars - start) ::
        splitFrom text chunkChars room (chunkEnd text start chunkChars) := by
  rw [splitFrom, dif_pos within]

theorem splitFrom_nil {start : Nat} (done : text.length ≤ start) :
    splitFrom text chunkChars room start = [] := by
  rw [splitFrom, dif_neg (Nat.not_lt.mpr done)]

/-- The induction of the loop, with the chunk that it cuts. -/
@[elab_as_elim]
theorem splitFrom_induct {motive : Nat → Prop} (text : List Char) {chunkChars : Nat}
    (room : 0 < chunkChars) (done : ∀ start, text.length ≤ start → motive start)
    (next : ∀ start, start < text.length → start < chunkEnd text start chunkChars →
      chunkEnd text start chunkChars ≤ text.length →
      chunkEnd text start chunkChars ≤ start + chunkChars →
      motive (chunkEnd text start chunkChars) → motive start)
    (start : Nat) : motive start := by
  induction left : text.length - start using Nat.strongRecOn generalizing start with
  | _ bound ih =>
    by_cases within : start < text.length
    · obtain ⟨above, inside, short⟩ := chunkEnd_bounds within room
      exact next start within above inside short (ih _ (by omega) _ rfl)
    · exact done start (Nat.not_lt.mp within)

theorem splitFrom_flatten (start : Nat) :
    (splitFrom text chunkChars room start).flatten = text.drop start := by
  induction start using splitFrom_induct text room with
  | done start done =>
    rw [splitFrom_nil done, drop_eq_nil_of_le done]
    rfl
  | next start within above inside short later =>
    rw [splitFrom_cons within, flatten_cons, later]
    have rest : text.drop (chunkEnd text start chunkChars) =
        (text.drop start).drop (chunkEnd text start chunkChars - start) := by
      rw [drop_drop]
      congr 1
      omega
    rw [rest, take_append_drop]

/-- Every chunk is a piece of the text, of at least one character and at most the chunk size. -/
theorem splitFrom_chunks (start : Nat) : ∀ chunk ∈ splitFrom text chunkChars room start,
      chunk <:+: text ∧ chunk ≠ [] ∧ chunk.length ≤ chunkChars := by
  induction start using splitFrom_induct text room with
  | done start done =>
    intro chunk member
    rw [splitFrom_nil done] at member
    cases member
  | next start within above inside short later =>
    intro chunk member
    rw [splitFrom_cons within] at member
    rcases mem_cons.mp member with same | after
    · have count : chunk.length = chunkEnd text start chunkChars - start := by
        rw [same, length_take, length_drop]
        omega
      refine ⟨?_, ?_, by omega⟩
      · rw [same]
        exact (List.take_prefix _ _).isInfix.trans (drop_suffix _ _).isInfix
      · apply ne_nil_of_length_pos
        omega
    · exact later chunk after

/-- Consecutive chunks: a space at the end of one is followed by a space. -/
def Together (first second : List Char) : Prop :=
  first.getLast? = some ' ' → second.head? = some ' '

theorem splitFrom_together (pair : 1 < chunkChars) (start : Nat) :
    (splitFrom text chunkChars room start).IsChain Together := by
  induction start using splitFrom_induct text room with
  | done start done =>
    rw [splitFrom_nil done]
    exact List.IsChain.nil
  | next start within above inside short later =>
    rw [splitFrom_cons within]
    by_cases more : chunkEnd text start chunkChars < text.length
    · rw [splitFrom_cons more] at later ⊢
      obtain ⟨beyond, _, _⟩ := chunkEnd_bounds more room
      refine List.IsChain.cons_cons (fun space => ?_) later
      have last : ((text.drop start).take (chunkEnd text start chunkChars - start)).getLast? =
          text[chunkEnd text start chunkChars - 1]? := by
        rw [getLast?_eq_getElem?, getElem?_take, length_take, length_drop,
          if_pos (by omega), getElem?_drop]
        congr 1
        omega
      have first : ((text.drop (chunkEnd text start chunkChars)).take
          (chunkEnd text (chunkEnd text start chunkChars) chunkChars -
            chunkEnd text start chunkChars)).head? = text[chunkEnd text start chunkChars]? := by
        rw [head?_eq_getElem?, getElem?_take, if_pos (by omega), getElem?_drop, Nat.add_zero]
      rw [first]
      exact chunkEnd_boundary pair more (last ▸ space)
    · rw [splitFrom_nil (Nat.not_lt.mp more)]
      exact List.IsChain.singleton _

end Chunks

section Decoding

theorem shellWordFrom_quoted (value rest : List Char) :
    shellWordFrom true (escapeQuotes value ++ '\'' :: rest) =
      (shellWordFrom false rest).map (value ++ ·) := by
  induction value with
  | nil =>
    show shellWordFrom true ('\'' :: rest) = _
    rw [shellWordFrom, if_pos rfl]
    cases shellWordFrom false rest <;> rfl
  | cons char value ih =>
    have whole : escapeQuotes (char :: value) ++ '\'' :: rest =
        (if char = '\'' then ['\'', '\\', '\'', '\''] else [char]) ++
          (escapeQuotes value ++ '\'' :: rest) := by
      rw [escapeQuotes, flatMap_cons, append_assoc]
      rfl
    rw [whole]
    split
    next quote =>
      subst quote
      show (shellWordFrom true (escapeQuotes value ++ '\'' :: rest)).map ('\'' :: ·) = _
      rw [ih, Option.map_map]
      rfl
    next other =>
      rw [singleton_append, shellWordFrom, if_neg other, ih, Option.map_map]
      rfl

/-- The device's shell reads a quoted value back as one word. -/
theorem shellWord_shellQuote (value : List Char) : shellWord (shellQuote value) = some value := by
  show shellWordFrom true (escapeQuotes value ++ ['\'']) = _
  rw [shellWordFrom_quoted]
  show some (value ++ []) = _
  rw [append_nil]

theorem decodeSpaces_cons {char : Char} {rest : List Char}
    (other : char = '%' → rest.head? ≠ some 's') :
    decodeSpaces (char :: rest) = char :: decodeSpaces rest := by
  cases rest with
  | nil => simp [decodeSpaces]
  | cons next rest =>
    by_cases percent : char = '%'
    · have letter : next ≠ 's' := fun same => other percent (congrArg some same)
      simp [decodeSpaces, letter]
    · simp [decodeSpaces, percent]

/-- Text without a literal `%s` is typed as it is. -/
theorem decodeSpaces_encodeSpaces {text : List Char} (plain : ¬['%', 's'] <:+: text) :
    decodeSpaces (encodeSpaces text) = text := by
  induction text with
  | nil => rfl
  | cons char rest ih =>
    have later : ¬['%', 's'] <:+: rest := fun inside =>
      plain (inside.trans (suffix_cons char rest).isInfix)
    have whole : encodeSpaces (char :: rest) =
        (if char = ' ' then ['%', 's'] else [char]) ++ encodeSpaces rest := flatMap_cons
    rw [whole]
    split
    next space =>
      show ' ' :: decodeSpaces (encodeSpaces rest) = _
      rw [ih later, space]
    next other =>
      rw [singleton_append, decodeSpaces_cons, ih later]
      intro percent following
      cases rest with
      | nil => cases following
      | cons next rest =>
        have head : (encodeSpaces (next :: rest)).head? =
            some (if next = ' ' then '%' else next) := by
          show ((if next = ' ' then ['%', 's'] else [next]) ++ encodeSpaces rest).head? = _
          split <;> rfl
        rw [head] at following
        have letter : next = 's' := by
          split at following
          next => cases following
          next => exact Option.some.inj following
        apply plain
        rw [percent, letter]
        exact (prefix_append ['%', 's'] rest).isInfix

theorem decodeCommand_build {chunk : List Char} (proper : chunk ≠ [])
    (plain : ¬['%', 's'] <:+: chunk) :
    ∃ command, buildAndroidInputTextCommand chunk = .ok command ∧
      decodeCommand command = some chunk := by
  have accepted : ¬(chunk = [] ∨ ['%', 's'] <:+: chunk) := fun refused => refused.elim proper plain
  refine ⟨_, if_neg accepted, ?_⟩
  have argument : (commandPrefix ++ shellQuote (encodeSpaces chunk)).dropPrefix? commandPrefix =
      some (shellQuote (encodeSpaces chunk)) := dropPrefix?_append_of_beq _ (by decide)
  unfold decodeCommand
  rw [argument]
  show (shellWord (shellQuote (encodeSpaces chunk))).bind (fun value => some (decodeSpaces value)) =
    some chunk
  rw [shellWord_shellQuote, Option.bind_some, decodeSpaces_encodeSpaces plain]

theorem decode_buildCommands {chunks : List (List Char)}
    (fine : ∀ chunk ∈ chunks, chunk ≠ [] ∧ ¬['%', 's'] <:+: chunk) :
    ∃ commands, buildCommands chunks = .ok commands ∧ commands.mapM decodeCommand = some chunks := by
  induction chunks with
  | nil => exact ⟨[], rfl, rfl⟩
  | cons chunk rest ih =>
    obtain ⟨later, built, decoded⟩ := ih fun other member => fine other (mem_cons_of_mem _ member)
    obtain ⟨proper, plain⟩ := fine chunk mem_cons_self
    obtain ⟨command, first, typed⟩ := decodeCommand_build proper plain
    refine ⟨command :: later, ?_, ?_⟩
    · unfold buildCommands
      rw [first, built]
      rfl
    · rw [mapM_cons, typed, decoded]
      rfl

/-- The chunks are the text, cut without stranding a space, and the device types it. -/
theorem input_text_delivered {text : List Char} (apiLevel : Option Int)
    (plain : ¬['%', 's'] <:+: text) :
    (∀ chunk ∈ splitAndroidInputText text apiLevel,
        chunk ≠ [] ∧ chunk.length ≤ androidInputTextChunkChars apiLevel) ∧
      (splitAndroidInputText text apiLevel).flatten = text ∧
      (splitAndroidInputText text apiLevel).IsChain Together ∧
      ∃ plan pieces, buildAndroidInputTextPlan text apiLevel = .ok plan ∧
        plan.commands.mapM decodeCommand = some pieces ∧ pieces.flatten = text := by
  have chunks := @splitFrom_chunks text (androidInputTextChunkChars apiLevel)
    (Nat.lt_of_succ_lt (androidInputTextChunkChars_pos apiLevel)) 0
  have whole : (splitAndroidInputText text apiLevel).flatten = text := splitFrom_flatten 0
  have fine : ∀ chunk ∈ splitAndroidInputText text apiLevel,
      chunk ≠ [] ∧ ¬['%', 's'] <:+: chunk := fun chunk member =>
    ⟨(chunks chunk member).2.1, fun inside => plain (inside.trans (chunks chunk member).1)⟩
  obtain ⟨commands, built, decoded⟩ := decode_buildCommands fine
  refine ⟨fun chunk member => (chunks chunk member).2, whole,
    splitFrom_together (androidInputTextChunkChars_pos apiLevel) 0,
    { commands, textLength := min text.length (androidInputTextChunkChars apiLevel) },
    splitAndroidInputText text apiLevel, ?_, decoded, whole⟩
  unfold buildAndroidInputTextPlan
  rw [built]
  rfl

/-- The first chunk ends at the spaces of the text. -/
theorem input_text_delivered_percent : let text := "50% of its text isn't in a part  of it".toList
    (splitAndroidInputText text (some 34)).flatten = text ∧
      ∃ plan pieces, buildAndroidInputTextPlan text (some 34) = .ok plan ∧
        plan.commands.mapM decodeCommand = some pieces ∧ pieces.flatten = text := by
  obtain ⟨_, whole, _, typed⟩ := @input_text_delivered
    "50% of its text isn't in a part  of it".toList (some 34) (by decide)
  exact ⟨whole, typed⟩

end Decoding

end AutoMobile.AndroidInputText
