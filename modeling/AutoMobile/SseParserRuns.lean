import AutoMobile.SseParser

/- However the stream is cut into chunks, the parser's events are those of the event-stream
algorithm on the whole. -/
namespace AutoMobile.EventStream

open List SseParser

variable {parser : SseParser} {buffers : Buffers} {line text : Text} {unit : UInt16}

theorem isPrefixOf_single (unit : UInt16) (text : Text) :
    [unit].isPrefixOf text = true ↔ text.head? = some unit := by
  cases text with
  | nil => simp [List.isPrefixOf]
  | cons first rest =>
    rw [head?_cons, Option.some.injEq, List.isPrefixOf, List.isPrefixOf, Bool.and_true, beq_iff_eq]
    exact eq_comm

section Steps

theorem each_append {α : Type} (step : SseParser → α → SseParser × List Output) (parser : SseParser)
    (first second : List α) :
    each step parser (first ++ second) = ((each step (each step parser first).1 second).1,
        (each step parser first).2 ++ (each step (each step parser first).1 second).2) := by
  induction first generalizing parser with
  | nil => rfl
  | cons input rest ih => simp only [cons_append, each, ih, append_assoc]

/-- One unit of the stream. -/
def takeUnit (parser : SseParser) (unit : UInt16) : SseParser × List Output := takeChar parser [unit]

theorem surrogate_ne {unit : UInt16} (surrogate : highSurrogate unit = true ∨ lowSurrogate unit = true) :
    unit ≠ LF ∧ unit ≠ CR := by
  constructor
  · rintro rfl
    revert surrogate
    decide
  · rintro rfl
    revert surrogate
    decide

theorem takeChar_plain (parser : SseParser) {char : Text} (plain : char ≠ [LF] ∧ char ≠ [CR]) :
    takeChar parser char =
      ({ parser with pendingCr := false, buffer := parser.buffer ++ char }, []) := by
  have first : (char == [LF]) = false := beq_eq_false_iff_ne.mpr plain.1
  unfold takeChar
  dsimp only
  rw [first, Bool.and_false, if_neg Bool.false_ne_true, if_neg plain.2, if_neg plain.1]

/-- A pair of surrogates is taken like its units. -/
theorem each_characters (parser : SseParser) (text : Text) :
    each takeChar parser (characters text) = each takeUnit parser text := by
  induction text using characters.induct generalizing parser with
  | case1 => rfl
  | case2 unit => rfl
  | case3 first second rest pair ih =>
    have surrogates := pair
    rw [Bool.and_eq_true] at surrogates
    have high := surrogate_ne (Or.inl surrogates.1)
    have low := surrogate_ne (Or.inr surrogates.2)
    rw [characters, if_pos pair, each, each, each, takeUnit, takeUnit,
      takeChar_plain parser (by simp), takeChar_plain parser (by simpa using high)]
    dsimp only
    rw [takeChar_plain _ (by simpa using low), ih]
    simp
  | case4 first second rest apart ih =>
    rw [characters, if_neg apart, each, ih]
    rfl

end Steps

section Chunks

/-- The parser once something has come in. -/
def started (parser : SseParser) : SseParser := { parser with atStart := false }

theorem atStart_dispatch (parser : SseParser) : (dispatch parser).1.atStart = parser.atStart := by
  unfold dispatch
  dsimp only
  split <;> rfl

theorem atStart_applyField (parser : SseParser) (field value : Text) :
    (applyField parser field value).1.atStart = parser.atStart := by
  unfold applyField
  split
  · rfl
  · split
    · rfl
    · split
      · split <;> rfl
      · split <;> rfl

theorem atStart_endLine (parser : SseParser) : (endLine parser).1.atStart = parser.atStart := by
  unfold endLine
  dsimp only
  split
  · rw [atStart_dispatch]
  · split
    · rfl
    · rw [atStart_applyField]

theorem atStart_takeUnit (parser : SseParser) (unit : UInt16) :
    (takeUnit parser unit).1.atStart = parser.atStart := by
  unfold takeUnit takeChar
  dsimp only
  split
  · rfl
  · split
    · rw [atStart_endLine]
    · split
      · rw [atStart_endLine]
      · rfl

theorem atStart_each (parser : SseParser) (text : Text) :
    (each takeUnit parser text).1.atStart = parser.atStart := by
  induction text generalizing parser with
  | nil => rfl
  | cons unit rest ih =>
    rw [each]
    dsimp only
    rw [ih, atStart_takeUnit]

theorem push_started (later : parser.atStart = false) (chunk : Text) :
    push parser chunk = each takeUnit parser chunk := by
  unfold push
  dsimp only
  rw [later, Bool.false_and, if_neg Bool.false_ne_true, Bool.false_and, if_neg Bool.false_ne_true,
    each_characters]

/-- After the start, pushing chunks is taking the units of the whole. -/
theorem each_push_started (chunks : List Text) {parser : SseParser}
    (later : parser.atStart = false) :
    each push parser chunks = each takeUnit parser chunks.flatten := by
  induction chunks generalizing parser with
  | nil => rfl
  | cons chunk rest ih =>
    have after : (each takeUnit parser chunk).1.atStart = false := by rw [atStart_each, later]
    rw [each, push_started later, flatten_cons, each_append, ih after]

theorem push_first (first : parser.atStart = true) (nonempty : text ≠ []) :
    push parser text = each takeUnit (started parser) (withoutBom text) := by
  have long : 0 < text.length := length_pos_of_ne_nil nonempty
  have bom : (if [BOM].isPrefixOf text = true then text.drop 1 else text) = withoutBom text :=
    if_congr (isPrefixOf_single BOM text) rfl rfl
  unfold push
  dsimp only
  rw [first, decide_eq_true long, Bool.true_and, Bool.true_and, if_pos rfl, bom, each_characters]
  rfl

theorem push_nil (parser : SseParser) : push parser [] = (parser, []) := by
  unfold push
  simp [each, characters]

/-- Where the stream is cut makes no difference. -/
theorem outputs_of_chunks (chunks : List Text) {parser : SseParser}
    (first : parser.atStart = true) :
    (each push parser chunks).2 = (each takeUnit (started parser) (withoutBom chunks.flatten)).2 := by
  induction chunks with
  | nil => rfl
  | cons chunk rest ih =>
    cases chunk with
    | nil =>
      rw [each, push_nil]
      dsimp only
      rw [nil_append, ih, flatten_cons, nil_append]
    | cons unit units =>
      have apart : withoutBom ((unit :: units) ++ rest.flatten) =
          withoutBom (unit :: units) ++ rest.flatten := by
        unfold withoutBom
        rw [cons_append, head?_cons, head?_cons]
        split <;> rfl
      have after : (each takeUnit (started parser) (withoutBom (unit :: units))).1.atStart =
          false := atStart_each _ _
      rw [each, push_first first (by simp), flatten_cons, apart, each_append]
      dsimp only
      rw [each_push_started rest after]

end Chunks

section Lines

/-- The parser holds what the algorithm has in its buffers: the data lines, each with a line feed,
are the data buffer. -/
structure Holds (parser : SseParser) (buffers : Buffers) : Prop where
  eventName : parser.eventName = buffers.type
  lastEventId : parser.lastEventId = buffers.lastEventId
  data : buffers.data = parser.dataLines.flatMap fun line => line ++ [LF]
  hasData : parser.hasData = !parser.dataLines.isEmpty

/-- What the outputs are as messages. -/
def messages (outputs : List Output) : List Message := (eventsOf outputs).map SseEvent.message

theorem messages_append (first second : List Output) :
    messages (first ++ second) = messages first ++ messages second := by
  simp [messages, eventsOf]

/-- A step of the parser that does what a line does to the buffers. -/
structure Follows (pendingCr : Bool) (step : SseParser × List Output)
    (effect : Buffers × Option Message) : Prop where
  holds : Holds step.1 effect.1
  empty : step.1.buffer = []
  pending : step.1.pendingCr = pendingCr
  messages : messages step.2 = effect.2.toList

theorem flatMap_lines {lines : List Text} (filled : lines ≠ []) :
    (lines.flatMap fun line => line ++ [LF]) = [LF].intercalate lines ++ [LF] := by
  induction lines with
  | nil => exact absurd rfl filled
  | cons line rest ih =>
    cases rest with
    | nil => simp [List.intercalate]
    | cons next rest =>
      rw [flatMap_cons, ih (by simp)]
      simp [List.intercalate]

theorem withoutFinalLF_lines {lines : List Text} (filled : lines ≠ []) :
    withoutFinalLF (lines.flatMap fun line => line ++ [LF]) = [LF].intercalate lines := by
  rw [flatMap_lines filled, withoutFinalLF, getLast?_concat, if_pos rfl, dropLast_concat]

theorem dispatch_follows (holds : Holds parser buffers) (empty : parser.buffer = []) :
    Follows parser.pendingCr (dispatch parser) (dispatchEvent buffers) := by
  obtain ⟨eventName, lastEventId, data, hasData⟩ := holds
  unfold dispatch dispatchEvent
  dsimp only
  by_cases nothing : parser.dataLines = []
  · have silent : parser.hasData = false := by rw [hasData, nothing]; rfl
    have blank : buffers.data = [] := by rw [data, nothing]; rfl
    rw [silent, blank, Bool.not_false, if_pos rfl]
    exact ⟨⟨rfl, lastEventId, rfl, rfl⟩, empty, rfl, rfl⟩
  · have loud : parser.hasData = true := by
      rw [hasData]
      cases lines : parser.dataLines with
      | nil => exact absurd lines nothing
      | cons => rfl
    have filled : buffers.data ≠ [] := by
      rw [data, flatMap_lines nothing]
      simp
    rw [loud, Bool.not_true, if_neg Bool.false_ne_true, if_neg filled]
    refine ⟨⟨rfl, lastEventId, rfl, rfl⟩, empty, rfl, ?_⟩
    have type : (if parser.eventName = [] then none else some parser.eventName).getD
        (units "message") = if buffers.type = [] then units "message" else buffers.type := by
      rw [eventName]
      split <;> rfl
    have id : (if parser.lastEventId = [] then none else some parser.lastEventId).getD [] =
        buffers.lastEventId := by
      rw [lastEventId]
      split
      · rename_i blank
        rw [blank]
        rfl
      · rfl
    simp only [messages, eventsOf, filterMap_cons, filterMap_nil, map_cons,
      map_nil, SseEvent.message, Option.toList_some, type, id]
    rw [data, withoutFinalLF_lines nothing]

theorem applyField_follows (holds : Holds parser buffers) (empty : parser.buffer = [])
    (field value : Text) :
    Follows parser.pendingCr (applyField parser field value) (processField buffers field value, none) := by
  obtain ⟨eventName, lastEventId, data, hasData⟩ := holds
  unfold applyField processField
  split
  · exact ⟨⟨rfl, lastEventId, data, hasData⟩, empty, rfl, rfl⟩
  · split
    · refine ⟨⟨eventName, lastEventId, ?_, ?_⟩, empty, rfl, rfl⟩
      · dsimp only
        rw [data, flatMap_append, append_assoc]
        simp
      · simp
    · split
      · by_cases nul : NUL ∈ value
        · rw [if_pos nul, if_neg (by simpa using nul)]
          exact ⟨⟨eventName, lastEventId, data, hasData⟩, empty, rfl, rfl⟩
        · rw [if_neg nul, if_pos nul]
          exact ⟨⟨eventName, rfl, data, hasData⟩, empty, rfl, rfl⟩
      · split
        · exact ⟨⟨eventName, lastEventId, data, hasData⟩, empty, rfl, rfl⟩
        · exact ⟨⟨eventName, lastEventId, data, hasData⟩, empty, rfl, rfl⟩

/-- The first colon splits a line into the field name and what follows. -/
theorem split_at_colon (line : Text) : (COLON ∉ line ∧ line.idxOf? COLON = none) ∨
      COLON ∈ line ∧ ∃ colon, line.idxOf? COLON = some colon ∧
        line.take colon = line.takeWhile (fun unit => unit != COLON) ∧
        line.drop (colon + 1) = (line.dropWhile fun unit => unit != COLON).drop 1 := by
  induction line with
  | nil => exact Or.inl ⟨not_mem_nil, rfl⟩
  | cons unit rest ih =>
    by_cases here : unit = COLON
    · subst here
      exact Or.inr ⟨mem_cons_self, 0, by simp [idxOf?_cons], by simp, by simp⟩
    · rcases ih with ⟨absent, nowhere⟩ | ⟨member, colon, found, before, after⟩
      · left
        refine ⟨?_, by simp [idxOf?_cons, here, nowhere]⟩
        rw [mem_cons, not_or]
        exact ⟨fun same => here same.symm, absent⟩
      · right
        refine ⟨mem_cons_of_mem _ member, colon + 1, ?_, ?_, ?_⟩
        · simp [idxOf?_cons, here, found]
        · simp [here, before]
        · simp [here, after]

theorem withoutSpace_eq (value : Text) :
    withoutSpace value = if value.head? = some SPACE then value.drop 1 else value :=
  if_congr (isPrefixOf_single SPACE value) rfl rfl

theorem Holds.clearBuffer (holds : Holds parser buffers) :
    Holds { parser with buffer := [] } buffers :=
  ⟨holds.eventName, holds.lastEventId, holds.data, holds.hasData⟩

/-- A line that has ended does to the parser what it does to the buffers. -/
theorem endLine_follows (holds : Holds parser buffers) :
    Follows parser.pendingCr (endLine parser) (interpretLine buffers parser.buffer) := by
  have clear := holds.clearBuffer
  unfold endLine interpretLine
  dsimp only
  generalize parser.buffer = line at *
  by_cases empty : line = []
  · rw [if_pos empty, if_pos empty]
    exact dispatch_follows clear rfl
  · rw [if_neg empty, if_neg empty]
    by_cases comment : line.head? = some COLON
    · rw [if_pos ((isPrefixOf_single COLON line).mpr comment), if_pos comment]
      exact ⟨clear, rfl, rfl, rfl⟩
    · rw [if_neg fun starts => comment ((isPrefixOf_single COLON line).mp starts), if_neg comment]
      rcases split_at_colon line with ⟨absent, nowhere⟩ | ⟨member, colon, found, before, after⟩
      · rw [nowhere, if_neg absent]
        exact applyField_follows clear rfl _ _
      · rw [found, if_pos member]
        dsimp only
        rw [before, after, withoutSpace_eq]
        exact applyField_follows clear rfl _ _

end Lines

section Stream

/-- The lines of a stream after a part of a line; a line feed right after a carriage return belongs
to it. -/
def linesFrom (pendingCr : Bool) (line stream : Text) : List Text :=
  if pendingCr = true ∧ stream.head? = some LF then streamLines line (stream.drop 1)
  else streamLines line stream

theorem linesFrom_false (line stream : Text) : linesFrom false line stream = streamLines line stream :=
  if_neg fun both => Bool.false_ne_true both.1

theorem streamLines_cr (line rest : Text) :
    streamLines line (CR :: rest) = line :: linesFrom true [] rest := by
  cases rest with
  | nil => rfl
  | cons next later =>
    rw [streamLines.eq_def, linesFrom]
    dsimp only
    rw [if_pos rfl]
    by_cases feed : next = LF
    · rw [if_pos feed, if_pos ⟨rfl, congrArg some feed⟩]
      rfl
    · rw [if_neg feed, if_neg fun both => feed (Option.some.inj both.2)]

theorem streamLines_lf (line rest : Text) :
    streamLines line (LF :: rest) = line :: linesFrom false [] rest := by
  rw [streamLines.eq_def]
  dsimp only
  rw [if_neg (by decide), if_pos rfl, linesFrom_false]

theorem streamLines_plain {unit : UInt16} (plain : unit ≠ LF ∧ unit ≠ CR) (line rest : Text) :
    streamLines line (unit :: rest) = linesFrom false (line ++ [unit]) rest := by
  rw [streamLines.eq_def]
  dsimp only
  rw [if_neg plain.2, if_neg plain.1, linesFrom_false]

theorem Holds.withPending (holds : Holds parser buffers) (pendingCr : Bool) :
    Holds { parser with pendingCr := pendingCr } buffers :=
  ⟨holds.eventName, holds.lastEventId, holds.data, holds.hasData⟩

theorem takeUnit_skip (pending : parser.pendingCr = true) :
    takeUnit parser LF = ({ parser with pendingCr := false }, []) := by
  unfold takeUnit takeChar
  rw [pending]
  rfl

theorem takeUnit_cr (parser : SseParser) :
    takeUnit parser CR = endLine { parser with pendingCr := true } := by
  have other : ([CR] == [LF]) = false := by decide
  unfold takeUnit takeChar
  dsimp only
  rw [other, Bool.and_false, if_neg Bool.false_ne_true, if_pos rfl]

theorem takeUnit_lf (alone : parser.pendingCr = false) : takeUnit parser LF = endLine parser := by
  have other : ¬ [LF] = [CR] := by decide
  unfold takeUnit takeChar
  dsimp only
  rw [alone, Bool.false_and, if_neg Bool.false_ne_true, if_neg other, if_pos rfl, ← alone]

/-- The units that come in are taken as the algorithm takes its lines. -/
theorem each_takeUnit_messages (holds : Holds parser buffers) (stream : Text) :
    messages (each takeUnit parser stream).2 =
      interpretLines buffers (linesFrom parser.pendingCr parser.buffer stream) := by
  induction stream generalizing parser buffers with
  | nil =>
    rw [linesFrom, if_neg fun both => by cases both.2]
    rfl
  | cons unit rest ih =>
    rw [each, messages_append]
    by_cases skip : parser.pendingCr = true ∧ unit = LF
    · obtain ⟨pending, rfl⟩ := skip
      have same : linesFrom parser.pendingCr parser.buffer (LF :: rest) =
          linesFrom false parser.buffer rest := by
        rw [linesFrom, if_pos ⟨pending, rfl⟩, linesFrom_false]
        rfl
      rw [takeUnit_skip pending, same, ih (holds.withPending false)]
      rfl
    · have whole : linesFrom parser.pendingCr parser.buffer (unit :: rest) =
          streamLines parser.buffer (unit :: rest) := by
        apply if_neg
        rintro ⟨pending, first⟩
        exact skip ⟨pending, Option.some.inj first⟩
      rw [whole]
      by_cases cr : unit = CR
      · subst cr
        have follows := endLine_follows (holds.withPending true)
        rw [streamLines_cr, interpretLines, takeUnit_cr, ih follows.holds, follows.messages,
          follows.empty, follows.pending]
      · by_cases lf : unit = LF
        · subst lf
          have alone : parser.pendingCr = false :=
            Bool.eq_false_iff.mpr fun pending => skip ⟨pending, rfl⟩
          have follows := endLine_follows holds
          rw [streamLines_lf, interpretLines, takeUnit_lf alone, ih follows.holds,
            follows.messages, follows.empty, follows.pending, alone]
        · have plain : takeUnit parser unit =
              ({ parser with pendingCr := false, buffer := parser.buffer ++ [unit] }, []) :=
            takeChar_plain parser (by simpa using ⟨lf, cr⟩)
          have kept : Holds { parser with pendingCr := false, buffer := parser.buffer ++ [unit] }
              buffers := ⟨holds.eventName, holds.lastEventId, holds.data, holds.hasData⟩
          rw [streamLines_plain ⟨lf, cr⟩, plain, ih kept]
          rfl

theorem holds_start (seed : Text) : Holds (started (start seed)) { lastEventId := seed } :=
  ⟨rfl, rfl, rfl, rfl⟩

end Stream

/-- The events of the parser are those of the event-stream algorithm on the whole stream, however it
came in. -/
theorem events_eq_streamMessages (seed : Text) (chunks : List Text) :
    (eventsOf (outputs seed chunks)).map SseEvent.message = streamMessages seed chunks.flatten := by
  have whole : outputs seed chunks =
      (each takeUnit (started (start seed)) (withoutBom chunks.flatten)).2 :=
    outputs_of_chunks chunks rfl
  rw [whole]
  have read := each_takeUnit_messages (holds_start seed) (withoutBom chunks.flatten)
  have fresh : (started (start seed)).pendingCr = false := rfl
  rw [fresh, linesFrom_false] at read
  exact read

example : streamMessages [] (units "event: a\r\ndata: x\rdata: y\n\ndata: z\n") =
    [⟨units "a", units "x\ny", []⟩] := by decide +kernel

end AutoMobile.EventStream
