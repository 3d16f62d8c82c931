import AutoMobile.ByteRecords
import AutoMobile.Runs

/- Chunked storage of bytes: a queue of chunks holds the bytes that a list of them would. -/
namespace AutoMobile

open ByteRecords List

section Queue

structure BufferQueue where
  chunks : List Bytes := []
  headChunk : Nat := 0
  headOffset : Nat := 0
  length : Nat := 0
deriving DecidableEq, Repr

namespace BufferQueue

def append (queue : BufferQueue) (chunk : Bytes) : BufferQueue :=
  if chunk.length = 0 then queue
  else { queue with chunks := queue.chunks ++ [chunk], length := queue.length + chunk.length }

/-- The loop of `copyTo`, over the chunks that are left and the start in the first of them; `none`
where it goes on past the last of them. -/
def copyTo : List Bytes → Nat → Nat → Option Bytes
  | [], _, length => if length = 0 then some [] else none
  | chunk :: rest, start, length =>
    if length = 0 then some []
    else
      let count := min (chunk.length - start) length
      (copyTo rest 0 (length - count)).map ((chunk.drop start).take count ++ ·)

/-- `none` where the queue throws: it holds fewer bytes, or there is no chunk at its head. -/
def peek (queue : BufferQueue) (length : Nat) : Option Bytes :=
  if queue.length < length then none
  else if length = 0 then some []
  else
    match queue.chunks[queue.headChunk]? with
    | none => none
    | some first =>
      let firstAvailable := first.length - queue.headOffset
      if length ≤ firstAvailable then some ((first.drop queue.headOffset).take length)
      else copyTo (queue.chunks.drop queue.headChunk) queue.headOffset length

/-- The loop of `discard`, up to where it leaves the head and the length. -/
def discardLoop (chunks : List Bytes) (headChunk headOffset length remaining : Nat) :
    Option (Nat × Nat × Nat) :=
  if remaining = 0 then some (headChunk, headOffset, length)
  else
    match _found : chunks[headChunk]? with
    | none => none
    | some first =>
      let available := first.length - headOffset
      if remaining < available then some (headChunk, headOffset + remaining, length - remaining)
      else discardLoop chunks (headChunk + 1) 0 (length - available) (remaining - available)
termination_by chunks.length - headChunk
decreasing_by
  have within := (List.getElem?_eq_some_iff.mp _found).1
  omega

def compact (queue : BufferQueue) : BufferQueue :=
  if queue.headChunk = queue.chunks.length then { queue with chunks := [], headChunk := 0 }
  else if queue.chunks.length ≤ queue.headChunk * 2 then
    { queue with chunks := queue.chunks.drop queue.headChunk, headChunk := 0 }
  else queue

def discard (queue : BufferQueue) (length : Nat) : Option BufferQueue :=
  if queue.length < length then none
  else do
    let (headChunk, headOffset, left) ←
      discardLoop queue.chunks queue.headChunk queue.headOffset queue.length length
    return compact { queue with headChunk, headOffset, length := left }

def takeDetached (queue : BufferQueue) (length : Nat) : Option (Bytes × BufferQueue) :=
  if queue.length < length then none
  else if length = 0 then some ([], queue)
  else do
    let out ← copyTo (queue.chunks.drop queue.headChunk) queue.headOffset length
    let rest ← discard queue length
    return (out, rest)

variable {queue rest : BufferQueue} {data : Bytes} {length : Nat}

theorem discardLoop_length {chunks : List Bytes} {headChunk headOffset length remaining : Nat}
    {left : Nat × Nat × Nat}
    (done : discardLoop chunks headChunk headOffset length remaining = some left) :
    left.2.2 = length - remaining := by
  fun_induction discardLoop chunks headChunk headOffset length remaining with
  | case1 headChunk headOffset length =>
    cases done
    rfl
  | case2 => cases done
  | case3 =>
    cases done
    rfl
  | case4 headChunk headOffset length remaining positive first found available long ih =>
    have left := ih done
    omega

theorem discard_length (done : queue.discard length = some rest) :
    rest.length = queue.length - length := by
  unfold discard at done
  split at done
  next => cases done
  next =>
    cases looped : discardLoop queue.chunks queue.headChunk queue.headOffset queue.length length with
    | none =>
      rw [looped] at done
      cases done
    | some left =>
      rw [looped] at done
      cases done
      unfold compact
      split
      next => exact discardLoop_length looped
      split
      next => exact discardLoop_length looped
      next => exact discardLoop_length looped

theorem takeDetached_length (done : queue.takeDetached length = some (data, rest)) :
    rest.length ≤ queue.length := by
  unfold takeDetached at done
  split at done
  next => cases done
  split at done
  next =>
    cases done
    exact Nat.le_refl _
  next =>
    obtain ⟨_, _, done⟩ := Option.bind_eq_some_iff.mp done
    obtain ⟨left, dropped, same⟩ := Option.bind_eq_some_iff.mp done
    cases same
    rw [discard_length dropped]
    exact Nat.sub_le _ _

end BufferQueue

end Queue

namespace BufferQueue

section Content

/-- The bytes that the queue holds. -/
def content (queue : BufferQueue) : Bytes :=
  (queue.chunks.drop queue.headChunk).flatten.drop queue.headOffset

/-- The chunks from the head on, and the offset in the first of them. -/
structure Head (chunks : List Bytes) (headChunk headOffset : Nat) : Prop where
  within : headChunk ≤ chunks.length
  inside : ∀ first rest, chunks.drop headChunk = first :: rest → headOffset < first.length
  outside : chunks.drop headChunk = [] → headOffset = 0
  proper : ∀ chunk ∈ chunks.drop headChunk, 0 < chunk.length

structure WellFormed (queue : BufferQueue) : Prop where
  head : Head queue.chunks queue.headChunk queue.headOffset
  sized : queue.length = queue.content.length

theorem wellFormed_empty : WellFormed {} := ⟨⟨Nat.le_refl _, by simp, fun _ => rfl, by simp⟩, rfl⟩

variable {queue : BufferQueue}

theorem Head.offset_le {chunks : List Bytes} {headChunk headOffset : Nat}
    (head : Head chunks headChunk headOffset) :
    headOffset ≤ (chunks.drop headChunk).flatten.length := by
  cases live : chunks.drop headChunk with
  | nil => exact Nat.le_of_eq (head.outside live)
  | cons first rest =>
    have inside := head.inside first rest live
    rw [flatten_cons, length_append]
    omega

/-- What is appended comes after what is held. -/
theorem WellFormed.append (well : WellFormed queue) (chunk : Bytes) :
    WellFormed (queue.append chunk) ∧ (queue.append chunk).content = queue.content ++ chunk := by
  unfold BufferQueue.append
  split
  next empty =>
    rw [length_eq_zero_iff.mp empty, append_nil]
    exact ⟨well, rfl⟩
  next some =>
    have live : (queue.chunks ++ [chunk]).drop queue.headChunk =
        queue.chunks.drop queue.headChunk ++ [chunk] :=
      drop_append_of_le_length well.head.within
    have whole : BufferQueue.content
        { queue with chunks := queue.chunks ++ [chunk], length := queue.length + chunk.length } =
        queue.content ++ chunk := by
      show ((queue.chunks ++ [chunk]).drop queue.headChunk).flatten.drop queue.headOffset = _
      rw [live, flatten_append, flatten_singleton,
        drop_append_of_le_length well.head.offset_le]
      rfl
    refine ⟨⟨⟨?_, ?_, ?_, ?_⟩, ?_⟩, whole⟩
    · have within := well.head.within
      show queue.headChunk ≤ (queue.chunks ++ [chunk]).length
      rw [length_append]
      omega
    · show ∀ first rest, (queue.chunks ++ [chunk]).drop queue.headChunk = first :: rest → _
      rw [live]
      intro first rest split
      cases held : queue.chunks.drop queue.headChunk with
      | nil =>
        rw [held] at split
        injection split with same
        rw [← same, show queue.headOffset = 0 from well.head.outside held]
        omega
      | cons head tail =>
        rw [held] at split
        injection split with same
        rw [← same]
        exact well.head.inside head tail held
    · show (queue.chunks ++ [chunk]).drop queue.headChunk = [] → _
      rw [live]
      exact fun empty => absurd empty (by simp)
    · show ∀ other ∈ (queue.chunks ++ [chunk]).drop queue.headChunk, 0 < other.length
      rw [live]
      intro other member
      rcases mem_append.mp member with held | last
      · exact well.head.proper other held
      · rw [mem_singleton.mp last]
        omega
    · rw [whole, length_append, ← well.sized]

variable {length : Nat}

/-- The copy is of the first bytes held. -/
theorem copyTo_eq (chunks : List Bytes) {start : Nat}
    (inside : ∀ first rest, chunks = first :: rest → start ≤ first.length)
    (enough : length ≤ (chunks.flatten.drop start).length) :
    copyTo chunks start length = some ((chunks.flatten.drop start).take length) := by
  induction chunks generalizing start length with
  | nil =>
    have none : length = 0 := by simpa using enough
    rw [copyTo, if_pos none, none, take_zero]
  | cons chunk rest ih =>
    unfold copyTo
    split
    next none => rw [none, take_zero]
    next =>
      have within := inside chunk rest rfl
      rw [flatten_cons, drop_append_of_le_length within] at enough ⊢
      rw [length_append, length_drop] at enough
      have later : length - min (chunk.length - start) length ≤ (rest.flatten.drop 0).length := by
        rw [drop_zero]
        omega
      dsimp only
      rw [ih (fun _ _ _ => Nat.zero_le _) later, drop_zero, Option.map_some, take_append,
        length_drop]
      by_cases short : chunk.length - start ≤ length
      · have own : (chunk.drop start).take (chunk.length - start) = chunk.drop start :=
          take_of_length_le (Nat.le_of_eq length_drop)
        have whole : (chunk.drop start).take length = chunk.drop start :=
          take_of_length_le (by rw [length_drop]; exact short)
        rw [Nat.min_eq_left short, own, whole]
      · have all : length - (chunk.length - start) = 0 := by omega
        rw [Nat.min_eq_right (by omega), Nat.sub_self, all]

theorem WellFormed.first (well : WellFormed queue) (some : 0 < queue.length) :
    ∃ first rest, queue.chunks.drop queue.headChunk = first :: rest ∧
      queue.chunks[queue.headChunk]? = Option.some first ∧ queue.headOffset < first.length := by
  cases live : queue.chunks.drop queue.headChunk with
  | nil =>
    rw [well.sized, content, live] at some
    simp at some
  | cons first rest =>
    have found : queue.chunks[queue.headChunk]? = Option.some first := by
      rw [← head?_drop, live]
      rfl
    exact ⟨first, rest, rfl, found, well.head.inside first rest live⟩

theorem WellFormed.copied (well : WellFormed queue) (enough : length ≤ queue.length) :
    copyTo (queue.chunks.drop queue.headChunk) queue.headOffset length =
      some (queue.content.take length) := by
  apply copyTo_eq
  · intro first rest live
    exact Nat.le_of_lt (well.head.inside first rest live)
  · exact well.sized ▸ enough

/-- A peek within the length sees the first bytes held. -/
theorem WellFormed.peek (well : WellFormed queue) (enough : length ≤ queue.length) :
    queue.peek length = some (queue.content.take length) := by
  unfold BufferQueue.peek
  rw [if_neg (Nat.not_lt.mpr enough)]
  split
  next none => rw [none, take_zero]
  next positive =>
    obtain ⟨first, rest, live, found, inside⟩ := well.first (by omega)
    rw [found]
    dsimp only
    split
    next short =>
      rw [content, live, flatten_cons, drop_append_of_le_length (by omega),
        take_append_of_le_length (by rw [length_drop]; exact short)]
    next long => rw [well.copied enough]

/-- The loop leaves the head behind the bytes that it drops. -/
theorem discardLoop_spec {chunks : List Bytes} {headChunk headOffset remaining : Nat}
    (head : Head chunks headChunk headOffset)
    (enough : remaining ≤ ((chunks.drop headChunk).flatten.drop headOffset).length)
    (fits : remaining ≤ length) :
    ∃ nextChunk nextOffset, discardLoop chunks headChunk headOffset length remaining =
        some (nextChunk, nextOffset, length - remaining) ∧
      Head chunks nextChunk nextOffset ∧
      (chunks.drop nextChunk).flatten.drop nextOffset =
        ((chunks.drop headChunk).flatten.drop headOffset).drop remaining := by
  fun_induction discardLoop chunks headChunk headOffset length remaining with
  | case1 headChunk headOffset length =>
    exact ⟨headChunk, headOffset, rfl, head, by rw [drop_zero]⟩
  | case2 headChunk headOffset length remaining positive missing =>
    have empty : chunks.drop headChunk = [] :=
      drop_eq_nil_of_le (List.getElem?_eq_none_iff.mp missing)
    rw [empty] at enough
    simp at enough
    exact absurd enough positive
  | case3 headChunk headOffset length remaining positive first found available short =>
    have live : chunks.drop headChunk = first :: chunks.drop (headChunk + 1) := by
      obtain ⟨within, same⟩ := List.getElem?_eq_some_iff.mp found
      rw [← same]
      exact drop_eq_getElem_cons within
    refine ⟨headChunk, headOffset + remaining, rfl, ⟨head.within, ?_, ?_, head.proper⟩, ?_⟩
    · intro other rest split
      rw [live] at split
      injection split with same
      rw [← same]
      omega
    · intro empty
      rw [live] at empty
      cases empty
    · rw [drop_drop]
  | case4 headChunk headOffset length remaining positive first found available long ih =>
    have live : chunks.drop headChunk = first :: chunks.drop (headChunk + 1) := by
      obtain ⟨within, same⟩ := List.getElem?_eq_some_iff.mp found
      rw [← same]
      exact drop_eq_getElem_cons within
    have inside := head.inside first _ live
    have passed : (chunks.drop (headChunk + 1)).flatten.drop 0 =
        ((chunks.drop headChunk).flatten.drop headOffset).drop available := by
      rw [live, drop_drop, flatten_cons, drop_zero]
      have whole : headOffset + available = first.length := by omega
      rw [whole, drop_left]
    have next : Head chunks (headChunk + 1) 0 := by
      refine ⟨(List.getElem?_eq_some_iff.mp found).1, ?_, fun _ => rfl, ?_⟩
      · intro other rest split
        apply head.proper other
        rw [live, split]
        exact mem_cons_of_mem _ mem_cons_self
      · intro chunk member
        apply head.proper chunk
        rw [live]
        exact mem_cons_of_mem _ member
    obtain ⟨nextChunk, nextOffset, done, after, rest⟩ := ih next
      (by rw [passed, length_drop]; omega) (by omega)
    refine ⟨nextChunk, nextOffset, ?_, after, ?_⟩
    · rw [done]
      congr 3
      omega
    · rw [rest, passed, drop_drop]
      congr 1
      omega

theorem WellFormed.compact (well : WellFormed queue) :
    WellFormed queue.compact ∧ queue.compact.content = queue.content := by
  unfold BufferQueue.compact
  split
  next drained =>
    have empty : queue.chunks.drop queue.headChunk = [] :=
      drop_eq_nil_of_le (Nat.le_of_eq drained.symm)
    have nothing : queue.content = [] := by
      rw [content, empty]
      exact drop_nil
    have offset := well.head.outside empty
    have left : BufferQueue.content { queue with chunks := [], headChunk := 0 } = [] :=
      drop_nil
    refine ⟨⟨⟨Nat.le_refl _, ?_, fun _ => offset, ?_⟩, ?_⟩, left.trans nothing.symm⟩
    · exact fun first rest split => by cases split
    · exact fun chunk member => by cases member
    · rw [left, ← nothing]
      exact well.sized
  split
  next half =>
    have same : BufferQueue.content
        { queue with chunks := queue.chunks.drop queue.headChunk, headChunk := 0 } =
        queue.content := rfl
    exact ⟨⟨⟨Nat.zero_le _, well.head.inside, well.head.outside, well.head.proper⟩,
      well.sized⟩, same⟩
  next => exact ⟨well, rfl⟩

/-- Discarding within the length drops the first bytes held. -/
theorem WellFormed.discard (well : WellFormed queue) (enough : length ≤ queue.length) :
    ∃ rest, queue.discard length = some rest ∧ WellFormed rest ∧
      rest.content = queue.content.drop length := by
  have held : length ≤ ((queue.chunks.drop queue.headChunk).flatten.drop
      queue.headOffset).length := well.sized ▸ enough
  obtain ⟨nextChunk, nextOffset, done, head, dropped⟩ := discardLoop_spec well.head held enough
  have next : WellFormed
      { queue with
        headChunk := nextChunk
        headOffset := nextOffset
        length := queue.length - length } := by
    refine ⟨head, ?_⟩
    show queue.length - length = ((queue.chunks.drop nextChunk).flatten.drop nextOffset).length
    rw [dropped, length_drop, well.sized]
    rfl
  obtain ⟨compacted, same⟩ := next.compact
  refine ⟨_, ?_, compacted, same.trans dropped⟩
  unfold BufferQueue.discard
  rw [if_neg (Nat.not_lt.mpr enough), done]
  rfl

/-- Taking within the length copies the first bytes held, and drops them. -/
theorem WellFormed.takeDetached (well : WellFormed queue) (enough : length ≤ queue.length) :
    ∃ rest, queue.takeDetached length = some (queue.content.take length, rest) ∧
      WellFormed rest ∧ rest.content = queue.content.drop length := by
  unfold BufferQueue.takeDetached
  rw [if_neg (Nat.not_lt.mpr enough)]
  split
  next none =>
    rw [none, take_zero, drop_zero]
    exact ⟨queue, rfl, well, rfl⟩
  next positive =>
    obtain ⟨rest, dropped, after, left⟩ := well.discard enough
    rw [well.copied enough, dropped]
    exact ⟨rest, rfl, after, left⟩

end Content

section Calls

def toBuffer (queue : BufferQueue) : Option Bytes :=
  if queue.length = 0 then some []
  else if queue.headChunk + 1 = queue.chunks.length then
    queue.chunks[queue.headChunk]?.map (List.drop queue.headOffset)
  else copyTo (queue.chunks.drop queue.headChunk) queue.headOffset queue.length

def replace (bytes : Bytes) : BufferQueue :=
  { chunks := if bytes.length = 0 then [] else [bytes]
    headChunk := 0
    headOffset := 0
    length := bytes.length }

inductive Call where
  | append (chunk : Bytes)
  | peek (length : Nat)
  | takeDetached (length : Nat)
  | discard (length : Nat)
  | toBuffer
  | replace (bytes : Bytes)
deriving Repr

inductive Thrown where
  | rangeError (message : String)
  | typeError
deriving DecidableEq, Repr

/-- What a call that asks for `length` of the bytes throws. -/
def thrown (verb : String) (length held : Nat) : Thrown :=
  if held < length then
    .rangeError s!"cannot {verb} {length} bytes from {held}-byte queue"
  else .typeError

/-- One call: the queue that it leaves, and the bytes that it returns or what it throws. -/
def perform (queue : BufferQueue) : Call → BufferQueue × List (Except Thrown Bytes)
  | .append chunk => (queue.append chunk, [])
  | .peek length => (queue, [(queue.peek length).elim (.error (thrown "peek" length queue.length)) .ok])
  | .takeDetached length =>
    match queue.takeDetached length with
    | none => (queue, [.error (thrown "take" length queue.length)])
    | some (data, rest) => (rest, [.ok data])
  | .discard length =>
    match queue.discard length with
    | none => (queue, [.error (thrown "discard" length queue.length)])
    | some rest => (rest, [])
  | .toBuffer => (queue, [queue.toBuffer.elim (.error .typeError) .ok])
  | .replace bytes => (replace bytes, [])

/-- The same call on a list of bytes. -/
def Call.onBytes (held : Bytes) : Call → Bytes × List (Except Thrown Bytes)
  | .append chunk => (held ++ chunk, [])
  | .peek length =>
    if held.length < length then (held, [.error (thrown "peek" length held.length)])
    else (held, [.ok (held.take length)])
  | .takeDetached length =>
    if held.length < length then (held, [.error (thrown "take" length held.length)])
    else (held.drop length, [.ok (held.take length)])
  | .discard length =>
    if held.length < length then (held, [.error (thrown "discard" length held.length)])
    else (held.drop length, [])
  | .toBuffer => (held, [.ok held])
  | .replace bytes => (bytes, [])

variable {queue : BufferQueue}

theorem WellFormed.toBuffer (well : WellFormed queue) : queue.toBuffer = some queue.content := by
  unfold BufferQueue.toBuffer
  split
  next none =>
    rw [well.sized, length_eq_zero_iff] at none
    rw [none]
  next positive =>
    split
    next last =>
      obtain ⟨first, rest, live, found, inside⟩ := well.first (by omega)
      have alone : (queue.chunks.drop queue.headChunk).length = 1 := by
        rw [length_drop]
        omega
      have tail : rest = [] := by simpa [live] using alone
      rw [found, content, live, tail, flatten_singleton]
      rfl
    next => rw [well.copied (Nat.le_refl _), well.sized, take_length]

theorem wellFormed_replace (bytes : Bytes) :
    WellFormed (replace bytes) ∧ (replace bytes).content = bytes := by
  by_cases empty : bytes.length = 0
  · have nothing := length_eq_zero_iff.mp empty
    subst nothing
    exact ⟨⟨⟨Nat.le_refl _, by simp [replace], fun _ => rfl, by simp [replace]⟩, rfl⟩, rfl⟩
  · have held : (replace bytes).content = bytes := by simp [replace, content, empty]
    refine ⟨⟨⟨Nat.zero_le _, ?_, by simp [replace, empty], ?_⟩, by rw [held]; rfl⟩, held⟩
    · intro first rest split
      simp only [replace, empty, if_false, drop_zero, List.cons.injEq] at split
      rw [← split.1]
      exact Nat.pos_of_ne_zero empty
    · intro chunk member
      simp only [replace, empty, if_false, drop_zero, mem_singleton] at member
      rw [member]
      exact Nat.pos_of_ne_zero empty

/-- A call answers as it does on the bytes held, and leaves the queue holding what is left of
them. -/
theorem WellFormed.perform (well : WellFormed queue) (call : Call) :
    (queue.perform call).2 = (call.onBytes queue.content).2 ∧ WellFormed (queue.perform call).1 ∧
      (queue.perform call).1.content = (call.onBytes queue.content).1 := by
  cases call with
  | append chunk => exact ⟨rfl, well.append chunk⟩
  | peek length =>
    simp only [BufferQueue.perform, Call.onBytes, ← well.sized]
    split
    next short =>
      have refused : queue.peek length = none := by rw [BufferQueue.peek, if_pos short]
      rw [refused]
      exact ⟨rfl, well, rfl⟩
    next enough =>
      rw [well.peek (Nat.not_lt.mp enough)]
      exact ⟨rfl, well, rfl⟩
  | takeDetached length =>
    simp only [BufferQueue.perform, Call.onBytes, ← well.sized]
    by_cases short : queue.length < length
    · have refused : queue.takeDetached length = none := by
        rw [BufferQueue.takeDetached, if_pos short]
      rw [refused, if_pos short]
      exact ⟨rfl, well, rfl⟩
    · obtain ⟨rest, taken, after, left⟩ := well.takeDetached (Nat.not_lt.mp short)
      rw [taken, if_neg short]
      exact ⟨rfl, after, left⟩
  | discard length =>
    simp only [BufferQueue.perform, Call.onBytes, ← well.sized]
    by_cases short : queue.length < length
    · have refused : queue.discard length = none := by rw [BufferQueue.discard, if_pos short]
      rw [refused, if_pos short]
      exact ⟨rfl, well, rfl⟩
    · obtain ⟨rest, dropped, after, left⟩ := well.discard (Nat.not_lt.mp short)
      rw [dropped, if_neg short]
      exact ⟨rfl, after, left⟩
  | toBuffer =>
    rw [BufferQueue.perform, well.toBuffer]
    exact ⟨rfl, well, rfl⟩
  | replace bytes => exact ⟨rfl, wellFormed_replace bytes⟩

/-- How many bytes a call needs to be held. -/
def Call.asks : Call → Option Nat
  | .peek length | .takeDetached length | .discard length => some length
  | .append _ | .toBuffer | .replace _ => none

/-- What is thrown on a list of bytes is a range error, of a call that asks for more. -/
theorem Call.onBytes_throws {held : Bytes} {call : Call} {fault : Thrown}
    (throws : .error fault ∈ (call.onBytes held).2) :
    (∃ length ∈ call.asks, held.length < length) ∧ ∃ message, fault = .rangeError message := by
  cases call with
  | append | toBuffer | replace => simp [Call.onBytes] at throws
  | peek length | takeDetached length | discard length =>
    by_cases short : held.length < length
    · refine ⟨⟨length, rfl, short⟩, ?_⟩
      simp only [Call.onBytes, short, if_true, thrown, mem_singleton, Except.error.injEq]
        at throws
      exact ⟨_, throws⟩
    · simp [Call.onBytes, short] at throws

theorem Call.onBytes_refuses {held : Bytes} {call : Call} {length : Nat}
    (asks : call.asks = some length) (short : held.length < length) :
    ∃ message, .error (.rangeError message) ∈ (call.onBytes held).2 := by
  cases call with
  | append | toBuffer | replace => cases asks
  | peek | takeDetached | discard =>
    cases asks
    simp [Call.onBytes, short, thrown]

theorem perform_of_throws {call : Call} {fault : Thrown}
    (throws : .error fault ∈ (queue.perform call).2) : (queue.perform call).1 = queue := by
  cases call with
  | append | replace => cases throws
  | peek | toBuffer => rfl
  | takeDetached length =>
    simp only [BufferQueue.perform] at throws ⊢
    split
    next => rfl
    next taken => simp [taken] at throws
  | discard length =>
    simp only [BufferQueue.perform] at throws ⊢
    split
    next => rfl
    next dropped => simp [dropped] at throws

/-- Over every run the queue answers as the list of its bytes does. After it the queue has a byte at
its head unless it is empty, and a call throws exactly if it asks for more than is held: a range
error, which leaves the queue as it was. -/
theorem queue_refines_bytes (calls : List Call) :
    (Runs.run perform {} calls).2 = (Runs.run Call.onBytes [] calls).2 ∧
      ∀ queue held, queue = (Runs.run perform {} calls).1 →
        held = (Runs.run Call.onBytes [] calls).1 →
        queue.content = held ∧ queue.length = held.length ∧
          (held ≠ [] → ∃ first, queue.chunks[queue.headChunk]? = some first ∧
            queue.headOffset < first.length) ∧
          ∀ call : Call, ((∃ fault, .error fault ∈ (queue.perform call).2) ↔
              ∃ length ∈ call.asks, held.length < length) ∧
            ∀ fault, .error fault ∈ (queue.perform call).2 →
              (queue.perform call).1 = queue ∧ ∃ message, fault = .rangeError message := by
  have empty : WellFormed {} ∧ content {} = [] := ⟨wellFormed_empty, rfl⟩
  obtain ⟨answers, well, same⟩ := Runs.run_simulates perform
    (fun (queue : BufferQueue) (held : Bytes) => WellFormed queue ∧ queue.content = held)
    (fun queue held call related => by
      obtain ⟨well, rfl⟩ := related
      exact well.perform call)
    calls empty
  refine ⟨answers, ?_⟩
  rintro queue held rfl rfl
  rw [← same]
  refine ⟨rfl, well.sized, ?_, ?_⟩
  · intro some
    obtain ⟨first, _, _, found, inside⟩ := well.first (by
      rw [well.sized]
      exact length_pos_iff.mpr some)
    exact ⟨first, found, inside⟩
  · intro call
    rw [(well.perform call).1]
    refine ⟨⟨?_, ?_⟩, ?_⟩
    · intro ⟨fault, throws⟩
      exact (Call.onBytes_throws throws).1
    · intro ⟨length, asks, short⟩
      obtain ⟨message, throws⟩ := Call.onBytes_refuses asks short
      exact ⟨_, throws⟩
    · intro fault throws
      have unchanged := perform_of_throws ((well.perform call).1 ▸ throws)
      exact ⟨unchanged, (Call.onBytes_throws throws).2⟩

end Calls

end BufferQueue

end AutoMobile
