import AutoMobile.LineFramer

/- However the bytes are cut into reads, the framer emits the newline-separated pieces up to
the first one that is too long. -/
namespace AutoMobile.LineFramer

open List

/-- The bytes of some lines, each with its newline. -/
def joined (lines : List (List UInt8)) : List UInt8 := (lines.map (· ++ [NEWLINE])).flatten

/-- The bytes up to the first newline. -/
def firstFrame (bytes : List UInt8) : List UInt8 := bytes.takeWhile (· ≠ NEWLINE)

theorem joined_concat (lines : List (List UInt8)) (line : List UInt8) :
    joined (lines ++ [line]) = joined lines ++ (line ++ [NEWLINE]) := by
  simp [joined]

theorem splitOn_joined {lines : List (List UInt8)} (unbroken : ∀ line ∈ lines, NEWLINE ∉ line)
    (rest : List UInt8) : (joined lines ++ rest).splitOn NEWLINE = lines ++ rest.splitOn NEWLINE := by
  induction lines with
  | nil => rfl
  | cons line lines ih =>
    have first : NEWLINE ∉ line := unbroken line mem_cons_self
    have tail := ih fun later member => unbroken later (mem_cons_of_mem _ member)
    have shape : joined (line :: lines) ++ rest = line ++ NEWLINE :: (joined lines ++ rest) := by
      simp [joined]
    rw [shape, splitOn_append_cons_self_of_not_mem first, tail]
    rfl

theorem firstFrame_of_not_mem {bytes : List UInt8} (unbroken : NEWLINE ∉ bytes) :
    firstFrame bytes = bytes := by
  refine takeWhile_eq_self_iff.mpr fun byte member => ?_
  rw [decide_eq_true_iff]
  exact fun same => unbroken (same ▸ member)

/-- The first piece of some bytes is what stands before the first newline. -/
theorem head?_splitOn (bytes : List UInt8) :
    ∃ others, bytes.splitOn NEWLINE = firstFrame bytes :: others := by
  induction bytes with
  | nil => exact ⟨[], rfl⟩
  | cons byte bytes ih =>
    obtain ⟨others, split⟩ := ih
    rw [splitOn_cons_eq_if_modifyHead, split]
    by_cases newline : byte = NEWLINE
    · exact ⟨firstFrame bytes :: others, by simp [newline, firstFrame]⟩
    · exact ⟨others, by simp [newline, firstFrame]⟩

theorem firstFrame_prefix_append (bytes more : List UInt8) :
    firstFrame bytes <+: firstFrame (bytes ++ more) := by
  unfold firstFrame
  induction bytes with
  | nil => exact nil_prefix
  | cons byte bytes ih =>
    rw [cons_append, takeWhile_cons, takeWhile_cons]
    split
    · exact cons_prefix_cons.mpr ⟨rfl, ih⟩
    · exact prefix_refl _

/-- Copying fills the head with the first bytes of the pieces. -/
theorem copyPieces_eq (size : Nat) (head : List UInt8) (pieces : List (List UInt8))
    (fits : head.length ≤ size) :
    copyPieces size head pieces = head ++ pieces.flatten.take (size - head.length) := by
  induction pieces generalizing head with
  | nil => simp [copyPieces]
  | cons piece pieces ih =>
    have shape : (piece :: pieces).flatten.take (size - head.length) =
        piece.take (size - head.length) ++
          pieces.flatten.take (size - head.length - piece.length) := by
      rw [flatten_cons, take_append]
    unfold copyPieces
    dsimp only
    rw [shape]
    split
    · rename_i full
      rw [length_append, length_take] at full
      have none_left : size - head.length - piece.length = 0 := by omega
      rw [none_left, take_zero, append_nil]
    · rename_i room
      have copied : (head ++ piece.take (size - head.length)).length =
          head.length + min (size - head.length) piece.length := by
        rw [length_append, length_take]
      rw [copied] at room
      rw [ih _ (by rw [copied]; omega), copied, append_assoc]
      congr 3
      omega

section Pushing

variable {Line : Type} (decode : List UInt8 → Line) (maxFrameBytes : Nat)

/-- After some bytes, none of whose pieces is too long: the lines are out and the
unterminated tail is kept. -/
structure Running (framer : Framer) (bytes : List UInt8) (lines : List (List UInt8)) : Prop where
  goesOn : framer.overflowed = false
  counted : framer.pendingBytes = framer.pending.flatten.length
  bytes_eq : bytes = joined lines ++ framer.pending.flatten
  unbroken : ∀ line ∈ lines, NEWLINE ∉ line
  fits : ∀ line ∈ lines, line.length ≤ maxFrameBytes
  tailUnbroken : NEWLINE ∉ framer.pending.flatten
  tailFits : framer.pending.flatten.length ≤ maxFrameBytes

/-- After some bytes with a piece that is too long: the lines before it are out, and a
bounded head of it. -/
structure Overflown (framer : Framer) (bytes : List UInt8) (lines : List (List UInt8))
    (head : List UInt8) : Prop where
  closed : framer.overflowed = true
  oversized : ∃ rest, bytes = joined lines ++ rest ∧ maxFrameBytes < (firstFrame rest).length ∧
    head <+: firstFrame rest
  unbroken : ∀ line ∈ lines, NEWLINE ∉ line
  fits : ∀ line ∈ lines, line.length ≤ maxFrameBytes
  bounded : head.length ≤ 256

/-- What is out and what is kept after some bytes. -/
inductive Reached (framer : Framer) (emitted : List (Emission Line)) (bytes : List UInt8) : Prop
  | running (lines : List (List UInt8)) (running : Running maxFrameBytes framer bytes lines)
      (out : emitted = lines.map fun line => .line (decode line))
  | overflown (lines : List (List UInt8)) (head : List UInt8)
      (overflown : Overflown maxFrameBytes framer bytes lines head)
      (out : emitted = (lines.map fun line => .line (decode line)) ++ [.overflow head])

variable {maxFrameBytes}

theorem Running.empty : Running maxFrameBytes {} [] [] where
  goesOn := rfl
  counted := rfl
  bytes_eq := rfl
  unbroken := fun _ member => by cases member
  fits := fun _ member => by cases member
  tailUnbroken := by simp
  tailFits := Nat.zero_le _

variable {framer : Framer} {bytes chunk : List UInt8} {lines : List (List UInt8)}
  {emitted : List (Emission Line)}

/-- Once overflown, more bytes change nothing. -/
theorem Overflown.append {head : List UInt8}
    (overflown : Overflown maxFrameBytes framer bytes lines head) (more : List UInt8) :
    Overflown maxFrameBytes framer (bytes ++ more) lines head := by
  obtain ⟨rest, same, long, begins⟩ := overflown.oversized
  have grows := firstFrame_prefix_append rest more
  refine ⟨overflown.closed, ⟨rest ++ more, by rw [same, append_assoc], ?_,
    begins.trans grows⟩, overflown.unbroken, overflown.fits, overflown.bounded⟩
  exact Nat.lt_of_lt_of_le long grows.length_le

/-- The head of an overflow is the first bytes of what was kept and what came. -/
theorem overflow_eq (counted : framer.pendingBytes = framer.pending.flatten.length)
    (tail : List UInt8) :
    (@overflow Line framer tail).2 = [.overflow ((framer.pending.flatten ++ tail).take 256)] := by
  have copied : copyPieces (min 256 (framer.pendingBytes + tail.length)) [] framer.pending =
      framer.pending.flatten.take (min 256 (framer.pendingBytes + tail.length)) := by
    rw [copyPieces_eq _ _ _ (Nat.zero_le _), nil_append, length_nil, Nat.sub_zero]
  unfold overflow
  dsimp only
  rw [copied]
  congr 2
  by_cases few : framer.pendingBytes + tail.length ≤ 256
  · rw [Nat.min_eq_right few, take_of_length_le (by omega), take_of_length_le (by omega),
      take_of_length_le (by rw [length_append]; omega)]
  · rw [Nat.min_eq_left (by omega), length_take, take_append]
    congr 2
    omega

/-- A piece that does not fit overflows, wherever it goes on. -/
theorem overflow_overflown (running : Running maxFrameBytes framer bytes lines) {tail : List UInt8}
    (unbroken : NEWLINE ∉ tail) (long : maxFrameBytes < framer.pendingBytes + tail.length)
    (rest : List UInt8) :
    ∃ head, (@overflow Line framer tail).2 = [.overflow head] ∧
      Overflown maxFrameBytes (@overflow Line framer tail).1 (bytes ++ (tail ++ rest)) lines head := by
  have piece : NEWLINE ∉ framer.pending.flatten ++ tail := by
    rw [mem_append, not_or]
    exact ⟨running.tailUnbroken, unbroken⟩
  have begins : framer.pending.flatten ++ tail <+:
      firstFrame (framer.pending.flatten ++ tail ++ rest) := by
    have grows := firstFrame_prefix_append (framer.pending.flatten ++ tail) rest
    rwa [firstFrame_of_not_mem piece] at grows
  refine ⟨(framer.pending.flatten ++ tail).take 256, overflow_eq running.counted tail, rfl,
    ⟨framer.pending.flatten ++ tail ++ rest, ?_, ?_, ?_⟩, running.unbroken, running.fits, ?_⟩
  · rw [running.bytes_eq]
    simp only [append_assoc]
  · refine Nat.lt_of_lt_of_le ?_ begins.length_le
    rw [length_append, ← running.counted]
    exact long
  · exact (List.take_prefix _ _).trans begins
  · exact length_take_le 256 _

/-- The tail of a chunk is kept, or overflows. -/
theorem appendPending_reached (running : Running maxFrameBytes framer bytes lines)
    {piece : List UInt8} (unbroken : NEWLINE ∉ piece) :
    Reached decode maxFrameBytes (@appendPending Line maxFrameBytes framer piece).1
      ((lines.map fun line => .line (decode line)) ++
        (appendPending maxFrameBytes framer piece).2) (bytes ++ piece) := by
  unfold appendPending
  split
  · rename_i long
    obtain ⟨head, out, overflown⟩ := @overflow_overflown Line _ _ _ _ running _ unbroken long []
    rw [append_nil] at overflown
    exact .overflown lines head overflown (by rw [out])
  · rename_i fits
    have kept : (framer.pending ++ [piece]).flatten = framer.pending.flatten ++ piece := by simp
    have counted := running.counted
    refine .running lines ⟨running.goesOn, ?_, ?_, running.unbroken, running.fits, ?_, ?_⟩ (by simp)
    · rw [kept, length_append, counted]
    · rw [kept, running.bytes_eq, append_assoc]
    · rw [kept, mem_append, not_or]
      exact ⟨running.tailUnbroken, unbroken⟩
    · rw [kept, length_append]
      omega

/-- A frame that ends is the next line, or overflows. -/
theorem completeFrame_reached (running : Running maxFrameBytes framer bytes lines)
    {tail : List UInt8} (unbroken : NEWLINE ∉ tail) (rest : List UInt8) :
    (completeFrame decode maxFrameBytes framer tail).2.2 = true ∧
        (∃ frame, (completeFrame decode maxFrameBytes framer tail).2.1 = [.line (decode frame)] ∧
          Running maxFrameBytes (completeFrame decode maxFrameBytes framer tail).1
            (bytes ++ (tail ++ [NEWLINE])) (lines ++ [frame])) ∨
      (completeFrame decode maxFrameBytes framer tail).2.2 = false ∧
        ∃ head, (completeFrame decode maxFrameBytes framer tail).2.1 = [.overflow head] ∧
          Overflown maxFrameBytes (completeFrame decode maxFrameBytes framer tail).1
            (bytes ++ (tail ++ rest)) lines head := by
  unfold completeFrame
  dsimp only
  split
  · rename_i long
    exact Or.inr ⟨rfl, overflow_overflown running unbroken long rest⟩
  · rename_i fits
    have frame : (if framer.pending = [] then tail else (framer.pending ++ [tail]).flatten) =
        framer.pending.flatten ++ tail := by
      split
      · rename_i none
        simp [none]
      · simp
    have counted := running.counted
    refine Or.inl ⟨rfl, _, rfl, running.goesOn, rfl, ?_, ?_, ?_, by simp, Nat.zero_le _⟩
    · rw [frame, joined_concat, running.bytes_eq]
      simp only [append_assoc, flatten_nil, append_nil]
    · intro line member
      rcases mem_append.mp member with old | new
      · exact running.unbroken line old
      · rw [mem_singleton.mp new, frame, mem_append, not_or]
        exact ⟨running.tailUnbroken, unbroken⟩
    · intro line member
      rcases mem_append.mp member with old | new
      · exact running.fits line old
      · rw [mem_singleton.mp new, frame, length_append]
        omega

/-- Scanning counts do not matter. -/
theorem Running.scanned (running : Running maxFrameBytes framer bytes lines)
    (scanCount scannedBytes : Nat) :
    Running maxFrameBytes { framer with scanCount, scannedBytes } bytes lines :=
  ⟨running.goesOn, running.counted, running.bytes_eq, running.unbroken, running.fits,
    running.tailUnbroken, running.tailFits⟩

theorem indexOf_none {start : Nat} (absent : indexOf chunk start = none) :
    NEWLINE ∉ chunk.drop start := by
  unfold indexOf at absent
  rw [Option.map_eq_none_iff, idxOf?_eq_none_iff] at absent
  exact absent

/-- The first newline from a start, and what stands before it. -/
theorem indexOf_some {start newline : Nat} (found : indexOf chunk start = some newline) :
    NEWLINE ∉ subarray chunk start newline ∧ newline < chunk.length ∧
      chunk.take newline = chunk.take start ++ subarray chunk start newline ∧
      chunk.take (newline + 1) = chunk.take newline ++ [NEWLINE] ∧
      chunk = chunk.take newline ++ NEWLINE :: chunk.drop (newline + 1) := by
  obtain ⟨offset, first, rfl⟩ := Option.map_eq_some_iff.mp found
  obtain ⟨inside, here, before⟩ := idxOf?_eq_some_iff.mp first
  have within : start + offset < chunk.length := by
    rw [length_drop] at inside
    omega
  have piece : subarray chunk start (start + offset) = (chunk.drop start).take offset := by
    rw [subarray, drop_take, Nat.add_sub_cancel_left]
  have there : chunk[start + offset] = NEWLINE := by simpa using here
  refine ⟨?_, within, ?_, ?_, ?_⟩
  · rw [piece, mem_take_iff_getElem]
    rintro ⟨index, bound, same⟩
    exact before index (by omega) (by simpa using same)
  · rw [piece, take_add]
  · rw [take_succ_eq_append_getElem within, there]
  · have drop : chunk.drop (start + offset) = NEWLINE :: chunk.drop (start + offset + 1) := by
      rw [drop_eq_getElem_cons within, there]
    rw [← drop, take_append_drop]

/-- The loop of `push` takes what was reached before its start to what is reached after the
whole chunk. -/
theorem pushFrom_reached {prior : List UInt8} (start : Nat) (framer : Framer)
    (running : Running maxFrameBytes framer (prior ++ chunk.take start) lines) :
    Reached decode maxFrameBytes (pushFrom decode maxFrameBytes framer chunk start).1
      ((lines.map fun line => .line (decode line)) ++
        (pushFrom decode maxFrameBytes framer chunk start).2) (prior ++ chunk) := by
  induction left : chunk.length - start using Nat.strong_induction_on
    generalizing start framer lines with
  | _ left ih =>
    rw [pushFrom]
    split
    · rename_i more
      split
      · rename_i absent
        have whole : prior ++ chunk = prior ++ chunk.take start ++ chunk.drop start := by
          rw [append_assoc, take_append_drop]
        rw [whole]
        exact appendPending_reached decode (running.scanned _ _) (indexOf_none absent)
      · rename_i newline found
        have later := le_of_indexOf found
        obtain ⟨unbroken, within, piece, next, shape⟩ := indexOf_some found
        have whole : prior ++ chunk = prior ++ chunk.take start ++
            (subarray chunk start newline ++ NEWLINE :: chunk.drop (newline + 1)) := by
          rw [append_assoc, ← append_assoc (chunk.take start), ← piece, ← shape]
        have ended : prior ++ chunk.take (newline + 1) = prior ++ chunk.take start ++
            (subarray chunk start newline ++ [NEWLINE]) := by
          rw [next, piece]
          simp only [append_assoc]
        dsimp only
        rcases completeFrame_reached decode (running.scanned (framer.scanCount + 1)
            (framer.scannedBytes + (newline - start))) unbroken
            (NEWLINE :: chunk.drop (newline + 1)) with
          ⟨complete, frame, out, after⟩ | ⟨incomplete, head, out, overflown⟩
        · rw [if_pos complete]
          rw [← ended] at after
          have rest := ih _ (by omega) (newline + 1) _ after rfl
          rw [out]
          simpa using rest
        · rw [if_neg (by rw [incomplete]; exact Bool.false_ne_true), out, whole]
          exact .overflown lines head overflown rfl
    · rename_i done
      have whole : chunk.take start = chunk := take_of_length_le (by omega)
      rw [whole] at running
      exact .running lines running (by simp)

/-- One more read goes on from what is reached. -/
theorem push_reached (reached : Reached decode maxFrameBytes framer emitted bytes) (data : Data) :
    Reached decode maxFrameBytes (push decode maxFrameBytes framer data).1
      (emitted ++ (push decode maxFrameBytes framer data).2) (bytes ++ data.bytes) := by
  unfold push
  cases reached with
  | running lines running out =>
    rw [if_neg (by rw [running.goesOn]; exact Bool.false_ne_true), out]
    refine pushFrom_reached decode 0 framer ?_
    rwa [take_zero, append_nil]
  | overflown lines head overflown out =>
    rw [if_pos overflown.closed]
    exact .overflown lines head (overflown.append data.bytes) (by simpa using out)

/-- Any reads go on from what is reached. -/
theorem pushAll_reached (reached : Reached decode maxFrameBytes framer emitted bytes)
    (reads : List Data) :
    Reached decode maxFrameBytes (pushAll decode maxFrameBytes framer reads).1
      (emitted ++ (pushAll decode maxFrameBytes framer reads).2)
      (bytes ++ (reads.map Data.bytes).flatten) := by
  induction reads generalizing framer emitted bytes with
  | nil => simpa [pushAll] using reached
  | cons data reads ih =>
    have next := ih (push_reached decode reached data)
    simpa [pushAll] using next

/-- What a framer of the specification has emitted and kept after some bytes: the pieces
between newlines, up to the first one that is too long, of which it reports a head. -/
def MeetsSpecification (framer : Framer) (emitted : List (Emission Line)) (maxFrameBytes : Nat)
    (bytes : List UInt8) : Prop :=
  match (bytes.splitOn NEWLINE).find? fun piece => maxFrameBytes < piece.length with
  | none =>
    emitted = (bytes.splitOn NEWLINE).dropLast.map (fun piece => .line (decode piece)) ∧
      (bytes.splitOn NEWLINE).getLast? = some framer.pending.flatten ∧
      framer.overflowed = false
  | some oversized =>
    framer.overflowed = true ∧ ∃ head, head <+: oversized ∧ head.length ≤ 256 ∧
      emitted = ((bytes.splitOn NEWLINE).takeWhile fun piece =>
        piece.length ≤ maxFrameBytes).map (fun piece => .line (decode piece)) ++ [.overflow head]

theorem Reached.meetsSpecification (reached : Reached decode maxFrameBytes framer emitted bytes) :
    MeetsSpecification decode framer emitted maxFrameBytes bytes := by
  unfold MeetsSpecification
  cases reached with
  | running lines running out =>
    have pieces : bytes.splitOn NEWLINE = lines ++ [framer.pending.flatten] := by
      rw [running.bytes_eq, splitOn_joined running.unbroken,
        splitOn_eq_singleton running.tailUnbroken]
    have fits : ((lines ++ [framer.pending.flatten]).find? fun piece =>
        maxFrameBytes < piece.length) = none := by
      rw [find?_eq_none]
      intro piece member
      rw [decide_eq_true_iff, Nat.not_lt]
      rcases mem_append.mp member with line | tail
      · exact running.fits piece line
      · rw [mem_singleton.mp tail]
        exact running.tailFits
    rw [pieces, fits]
    exact ⟨by rw [dropLast_concat]; exact out, by simp, running.goesOn⟩
  | overflown lines head overflown out =>
    obtain ⟨rest, same, long, begins⟩ := overflown.oversized
    obtain ⟨others, split⟩ := head?_splitOn rest
    have pieces : bytes.splitOn NEWLINE = lines ++ firstFrame rest :: others := by
      rw [same, splitOn_joined overflown.unbroken, split]
    have short : (lines.find? fun piece => maxFrameBytes < piece.length) = none := by
      rw [find?_eq_none]
      intro piece member
      rw [decide_eq_true_iff, Nat.not_lt]
      exact overflown.fits piece member
    have found : ((lines ++ firstFrame rest :: others).find? fun piece =>
        maxFrameBytes < piece.length) = some (firstFrame rest) := by
      rw [find?_append, short, Option.none_or, find?_cons_of_pos (by simpa using long)]
    have before : ((lines ++ firstFrame rest :: others).takeWhile fun piece =>
        piece.length ≤ maxFrameBytes) = lines := by
      rw [takeWhile_append_of_pos fun piece member => by simpa using overflown.fits piece member]
      rw [takeWhile_cons_of_neg (by simpa using long), append_nil]
    rw [pieces, found]
    exact ⟨overflown.closed, head, begins, overflown.bounded, by rw [before]; exact out⟩

variable (maxFrameBytes) in
/-- However the bytes are cut into reads, the framer meets its specification on them. -/
theorem framer_meets_specification (reads : List Data) :
    MeetsSpecification decode (pushAll decode maxFrameBytes {} reads).1
      (pushAll decode maxFrameBytes {} reads).2 maxFrameBytes (reads.map Data.bytes).flatten := by
  have start : Reached decode maxFrameBytes {} [] [] := .running [] Running.empty rfl
  simpa using (pushAll_reached decode start reads).meetsSpecification

end Pushing

end AutoMobile.LineFramer
