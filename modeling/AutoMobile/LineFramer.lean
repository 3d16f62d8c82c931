import Mathlib.Data.List.TakeWhile
import Mathlib.Data.List.Infix

/- `wire/LineFramer`: an inbound byte stream split into newline-delimited frames, with the
bytes of an unfinished frame kept as the chunks they came in. -/
namespace AutoMobile.LineFramer

def NEWLINE : UInt8 := 0x0a

/-- What a read hands over; a text comes as its UTF-8 bytes. -/
inductive Data where
  | buffer (bytes : List UInt8)
  | text (content : String)
deriving DecidableEq

def Data.bytes : Data → List UInt8
  | .buffer bytes => bytes
  | .text content => content.toUTF8.toList

/-- The calls of the handlers. -/
inductive Emission (Line : Type) where
  | line (line : Line)
  | overflow (frameHead : List UInt8)
deriving DecidableEq, Repr

structure Framer where
  scanCount : Nat := 0
  scannedBytes : Nat := 0
  pending : List (List UInt8) := []
  pendingBytes : Nat := 0
  overflowed : Bool := false
deriving DecidableEq, Repr

/-- `chunk.indexOf(NEWLINE, start)`. -/
def indexOf (chunk : List UInt8) (start : Nat) : Option Nat :=
  ((chunk.drop start).idxOf? NEWLINE).map (start + ·)

def subarray (chunk : List UInt8) (start stop : Nat) : List UInt8 := (chunk.take stop).drop start

/-- Copy the pieces into a head of the given size, one after another, until it is full. -/
def copyPieces (size : Nat) : List UInt8 → List (List UInt8) → List UInt8
  | head, [] => head
  | head, piece :: pieces =>
    let copied := head ++ piece.take (size - head.length)
    if copied.length = size then copied else copyPieces size copied pieces

section Handlers

variable {Line : Type} (decode : List UInt8 → Line) (maxFrameBytes : Nat)

/-- Report the bounded head once; nothing of the frame is kept. -/
def overflow (framer : Framer) (tail : List UInt8) : Framer × List (Emission Line) :=
  let size := min 256 (framer.pendingBytes + tail.length)
  let copied := copyPieces size [] framer.pending
  let head := copied ++ tail.take (size - copied.length)
  ({ framer with overflowed := true, pending := [], pendingBytes := 0 }, [.overflow head])

def appendPending (framer : Framer) (piece : List UInt8) : Framer × List (Emission Line) :=
  if maxFrameBytes < framer.pendingBytes + piece.length then overflow framer piece
  else
    ({ framer with
      pendingBytes := framer.pendingBytes + piece.length
      pending := framer.pending ++ [piece] }, [])

/-- Emit the frame that ends at a newline; false when it overflowed. -/
def completeFrame (framer : Framer) (tail : List UInt8) : Framer × List (Emission Line) × Bool :=
  let frameBytes := framer.pendingBytes + tail.length
  if maxFrameBytes < frameBytes then
    let overflows := overflow framer tail
    (overflows.1, overflows.2, false)
  else
    let frame := if framer.pending = [] then tail else (framer.pending ++ [tail]).flatten
    ({ framer with pending := [], pendingBytes := 0 }, [.line (decode frame)], true)

theorem le_of_indexOf {chunk : List UInt8} {start newline : Nat}
    (found : indexOf chunk start = some newline) : start ≤ newline := by
  obtain ⟨offset, -, rfl⟩ := Option.map_eq_some_iff.mp found
  exact Nat.le_add_right start offset

/-- The loop of `push` from a start in the chunk. -/
def pushFrom (framer : Framer) (chunk : List UInt8) (start : Nat) : Framer × List (Emission Line) :=
  if start < chunk.length then
    match found : indexOf chunk start with
    | none =>
      let scanned :=
        { framer with
          scanCount := framer.scanCount + 1
          scannedBytes := framer.scannedBytes + (chunk.length - start) }
      appendPending maxFrameBytes scanned (chunk.drop start)
    | some newline =>
      have := le_of_indexOf found
      let scanned :=
        { framer with
          scanCount := framer.scanCount + 1
          scannedBytes := framer.scannedBytes + (newline - start) }
      let completed := completeFrame decode maxFrameBytes scanned (subarray chunk start newline)
      if completed.2.2 then
        let rest := pushFrom completed.1 chunk (newline + 1)
        (rest.1, completed.2.1 ++ rest.2)
      else (completed.1, completed.2.1)
  else (framer, [])
termination_by chunk.length - start
decreasing_by omega

def push (framer : Framer) (data : Data) : Framer × List (Emission Line) :=
  if framer.overflowed then (framer, []) else pushFrom decode maxFrameBytes framer data.bytes 0

/-- Push one read after another. -/
def pushAll (framer : Framer) : List Data → Framer × List (Emission Line)
  | [] => (framer, [])
  | data :: rest =>
    let first := push decode maxFrameBytes framer data
    let later := pushAll first.1 rest
    (later.1, first.2 ++ later.2)

end Handlers

end AutoMobile.LineFramer
