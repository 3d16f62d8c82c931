import Mathlib.Data.List.Basic

/- Input that arrives in chunks: a scanner takes units off its front, and what it cannot take yet
waits for more. However the input is cut, the outputs are those of the whole. -/
namespace IncrementalScan

variable {σ β ο : Type}

/-- A scanner decides by the front of the input alone: more input changes nothing once a unit can be
taken. -/
structure Scanner (σ β ο : Type) where
  take : σ → List β → Option (σ × List ο × List β)
  shorter : ∀ {state input next outputs rest},
    take state input = some (next, outputs, rest) → rest.length < input.length
  stable : ∀ {state input next outputs rest}, take state input = some (next, outputs, rest) →
    ∀ more, take state (input ++ more) = some (next, outputs, rest ++ more)

variable (scanner : Scanner σ β ο)

/-- Take units for as long as there are any: the state, the outputs, and what is left. -/
def drain (state : σ) (input : List β) : σ × List ο × List β :=
  match taken : scanner.take state input with
  | none => (state, [], input)
  | some (next, outputs, rest) =>
    have := scanner.shorter taken
    let later := drain next rest
    (later.1, outputs ++ later.2.1, later.2.2)
termination_by input.length

variable {scanner} {state next : σ} {input rest : List β} {outputs : List ο}

theorem drain_none (stuck : scanner.take state input = none) :
    drain scanner state input = (state, [], input) := by
  rw [drain]
  split
  · rfl
  next taken =>
    rw [stuck] at taken
    cases taken

theorem drain_some (taken : scanner.take state input = some (next, outputs, rest)) :
    drain scanner state input =
      ((drain scanner next rest).1, outputs ++ (drain scanner next rest).2.1,
        (drain scanner next rest).2.2) := by
  rw [drain]
  split
  next stuck =>
    rw [taken] at stuck
    cases stuck
  next same =>
    rw [taken] at same
    cases same
    rfl

/-- Scanning the whole is scanning a part, and then what it left with the rest. -/
theorem drain_append (state : σ) (input more : List β) : drain scanner state (input ++ more) =
      let first := drain scanner state input
      let second := drain scanner first.1 (first.2.2 ++ more)
      (second.1, first.2.1 ++ second.2.1, second.2.2) := by
  induction size : input.length using Nat.strongRecOn generalizing state input with
  | _ bound ih =>
    cases taken : scanner.take state input with
    | none =>
      rw [drain_none taken]
      simp
    | some unit =>
      obtain ⟨next, outputs, rest⟩ := unit
      have smaller : rest.length < bound := size ▸ scanner.shorter taken
      rw [drain_some taken, drain_some (scanner.stable taken more), ih _ smaller next rest rfl]
      simp

/-- What is left over cannot be taken. -/
theorem take_drain (state : σ) (input : List β) :
    scanner.take (drain scanner state input).1 (drain scanner state input).2.2 = none := by
  induction size : input.length using Nat.strongRecOn generalizing state input with
  | _ bound ih =>
    cases taken : scanner.take state input with
    | none =>
      rw [drain_none taken]
      exact taken
    | some unit =>
      obtain ⟨next, outputs, rest⟩ := unit
      have smaller : rest.length < bound := size ▸ scanner.shorter taken
      rw [drain_some taken]
      exact ih _ smaller next rest rfl

variable (scanner)

/-- One chunk, after what was left over. -/
def feed (waiting : σ × List β) (chunk : List β) : (σ × List β) × List ο :=
  let drained := drain scanner waiting.1 (waiting.2 ++ chunk)
  ((drained.1, drained.2.2), drained.2.1)

def feedAll (waiting : σ × List β) : List (List β) → (σ × List β) × List ο
  | [] => (waiting, [])
  | chunk :: chunks =>
    let first := feed scanner waiting chunk
    let later := feedAll first.1 chunks
    (later.1, first.2 ++ later.2)

variable {scanner}

/-- However the input is cut into chunks, they give what the whole gives. -/
theorem feedAll_eq (state : σ) (left : List β) (stuck : scanner.take state left = none)
    (chunks : List (List β)) :
    feedAll scanner (state, left) chunks = (((drain scanner state (left ++ chunks.flatten)).1,
          (drain scanner state (left ++ chunks.flatten)).2.2),
        (drain scanner state (left ++ chunks.flatten)).2.1) := by
  induction chunks generalizing state left with
  | nil =>
    rw [List.flatten_nil, List.append_nil, drain_none stuck]
    rfl
  | cons chunk chunks ih =>
    rw [List.flatten_cons, ← List.append_assoc, drain_append]
    unfold feedAll feed
    dsimp only
    rw [ih _ _ (take_drain state (left ++ chunk))]

end IncrementalScan
