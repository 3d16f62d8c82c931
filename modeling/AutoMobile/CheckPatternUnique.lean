import AutoMobile.CheckPatternComplete

/- The grammar gives a pattern one tree at most. -/
namespace AutoMobile.CheckPattern

open Utf16 PatternParser

section Leaves

variable {points behind rest more : List Nat} {item other : ClassItem}
  {items others : List ClassItem} {quantifier second : Quantifier}

theorem ClassAtom.unique (derived : ClassAtom points item rest) (again : ClassAtom points other behind) :
    other = item ∧ behind = rest := by
  cases derived with
  | literal rest plain =>
    cases again with
    | literal _ _ => exact ⟨rfl, rfl⟩
    | escape _ _ => exact absurd rfl plain.1
    | shorthand _ _ => exact absurd rfl plain.1
  | escape rest known =>
    cases again with
    | literal _ plain => exact absurd rfl plain.1
    | escape _ _ => exact ⟨rfl, rfl⟩
    | shorthand _ letter =>
      rw [escaped_not_shorthand known] at letter
      cases letter
  | shorthand rest letter =>
    cases again with
    | literal _ plain => exact absurd rfl plain.1
    | escape _ known =>
      rw [escaped_not_shorthand known] at letter
      cases letter
    | shorthand _ _ => exact ⟨rfl, rfl⟩

theorem ClassItems.unique (derived : ClassItems points items rest)
    (again : ClassItems points others behind) (ends : rest.head? = some ']'.toNat)
    (stops : behind.head? = some ']'.toNat) : others = items ∧ behind = rest := by
  induction derived generalizing others behind with
  | nil rest =>
    cases again with
    | nil _ => exact ⟨rfl, rfl⟩
    | single first apart later => exact absurd ends (classAtom_there first).2
    | range first sign last ordered later => exact absurd ends (classAtom_there first).2
  | single first apart later ih =>
    cases again with
    | nil _ => exact absurd stops (classAtom_there first).2
    | single start _ follows =>
      obtain ⟨same, left⟩ := first.unique start
      rw [left] at follows
      obtain ⟨equal, ended⟩ := ih follows ends stops
      exact ⟨by rw [same, equal], ended⟩
    | range start sign _ _ _ =>
      obtain ⟨_, left⟩ := first.unique start
      rw [left] at sign
      exact absurd sign apart
  | range first sign last ordered later ih =>
    cases again with
    | nil _ => exact absurd stops (classAtom_there first).2
    | single start apart _ =>
      obtain ⟨_, left⟩ := first.unique start
      rw [← left] at sign
      exact absurd sign apart
    | range start _ finish _ follows =>
      obtain ⟨same, left⟩ := first.unique start
      injection same with low
      injection left with _ left
      rw [left] at finish
      obtain ⟨top, left⟩ := last.unique finish
      injection top with high
      rw [left] at follows
      obtain ⟨equal, ended⟩ := ih follows ends stops
      exact ⟨by rw [low, high, equal], ended⟩

/-- A run of digits ends where the digits end. -/
theorem digits_unique {digits first : List Nat} {stop halt : Nat}
    (all : ∀ digit ∈ digits, isDigit digit = true) (each : ∀ digit ∈ first, isDigit digit = true)
    (ends : isDigit stop = false) (stops : isDigit halt = false)
    (same : digits ++ stop :: rest = first ++ halt :: behind) :
    digits = first ∧ stop = halt ∧ rest = behind := by
  induction digits generalizing first with
  | nil =>
    cases first with
    | nil =>
      injection same with equal left
      exact ⟨rfl, equal, left⟩
    | cons digit others =>
      injection same with equal _
      rw [equal, each digit List.mem_cons_self] at ends
      cases ends
  | cons digit others ih =>
    cases first with
    | nil =>
      injection same with equal _
      rw [← equal, all digit List.mem_cons_self] at stops
      cases stops
    | cons start remaining =>
      injection same with equal left
      obtain ⟨parts, closed, ended⟩ := ih (fun code member => all code (List.mem_cons_of_mem _ member))
        (fun code member => each code (List.mem_cons_of_mem _ member)) left
      exact ⟨by rw [equal, parts], closed, ended⟩

theorem PatternParser.BoundedText.unique {digits first : List Nat} {second other : Option (List Nat)}
    (text : BoundedText points digits second rest) (again : BoundedText points first other behind) :
    first = digits ∧ other = second ∧ behind = rest := by
  have close : isDigit '}'.toNat = false := by decide
  have comma : isDigit ','.toNat = false := by decide
  obtain ⟨written, shape⟩ := text
  obtain ⟨also, form⟩ := again
  cases second with
  | none =>
    cases other with
    | none =>
      injection shape.symm.trans form with _ same
      obtain ⟨equal, _, left⟩ := digits_unique written.2 also.2 close close same
      exact ⟨equal.symm, rfl, left.symm⟩
    | some more =>
      injection shape.symm.trans form.2 with _ same
      obtain ⟨_, mark, _⟩ := digits_unique written.2 also.2 close comma same
      cases mark
  | some more =>
    cases other with
    | none =>
      injection shape.2.symm.trans form with _ same
      obtain ⟨_, mark, _⟩ := digits_unique written.2 also.2 comma close same
      cases mark
    | some others =>
      injection shape.2.symm.trans form.2 with _ same
      obtain ⟨equal, _, left⟩ := digits_unique written.2 also.2 comma comma same
      obtain ⟨alike, _, ended⟩ := digits_unique shape.1 form.1 close close left
      exact ⟨equal.symm, by rw [alike], ended.symm⟩

/-- The largest number of rounds, from the digits of the bounds. -/
def maximumFrom (digits : List Nat) : Option (List Nat) → ℕ∞
  | none => number digits
  | some [] => ⊤
  | some more => number more

theorem QuantifierText.bounded (text : QuantifierText ('{'.toNat :: points) quantifier rest) :
    ∃ digits more, BoundedText ('{'.toNat :: points) digits more rest ∧
      quantifier = ⟨number digits, maximumFrom digits more⟩ := by
  cases text with
  | @exactly digits _ written bound => exact ⟨digits, none, ⟨written, rfl⟩, rfl⟩
  | @atLeast digits _ written bound => exact ⟨digits, some [], ⟨written, by simp, rfl⟩, rfl⟩
  | @between digits more _ written again ordered bound =>
    refine ⟨digits, some more, ⟨written, again.2, rfl⟩, ?_⟩
    cases more with
    | nil => exact absurd rfl again.1
    | cons digit others => rfl

theorem QuantifierText.unique (text : QuantifierText points quantifier rest)
    (again : QuantifierText points second behind) : second = quantifier ∧ behind = rest := by
  have braces {points : List Nat} (text : QuantifierText ('{'.toNat :: points) quantifier rest)
      (again : QuantifierText ('{'.toNat :: points) second behind) :
      second = quantifier ∧ behind = rest := by
    obtain ⟨digits, more, shape, same⟩ := text.bounded
    obtain ⟨first, other, form, equal⟩ := again.bounded
    obtain ⟨spelled, bounds, left⟩ := BoundedText.unique shape form
    exact ⟨by rw [same, equal, spelled, bounds], left⟩
  cases text with
  | optional rest =>
    cases again
    exact ⟨rfl, rfl⟩
  | star rest =>
    cases again
    exact ⟨rfl, rfl⟩
  | plus rest =>
    cases again
    exact ⟨rfl, rfl⟩
  | exactly rest written bound => exact braces (.exactly rest written bound) again
  | atLeast rest written bound => exact braces (.atLeast rest written bound) again
  | between rest written others ordered bound =>
    exact braces (.between rest written others ordered bound) again

end Leaves

section Trees

variable {points behind rest : List Nat} {tree other : Tree} {symbol : Symbol}

theorem atom_head {point : Nat} (derived : Derives .atom (point :: points) tree rest) :
    includes ")|^$?*+\x7b" point = false := by
  obtain ⟨first, behind, shape, marked⟩ := atom_first derived
  injection shape with same
  rw [same]
  exact marked

/-- The first character of a piece neither ends a branch nor is a quantifier. -/
theorem piece_first (derived : Derives .piece points tree rest) :
    ∃ point behind, points = point :: behind ∧ includes ")|?*+\x7b" point = false := by
  have fewer_marks {point : Nat} (first : includes ")|^$?*+\x7b" point = false) :
      includes ")|?*+\x7b" point = false := by
    have each : ∀ code < 0x80, includes ")|?*+\x7b" code = true → includes ")|^$?*+\x7b" code = true := by
      decide
    rw [Bool.eq_false_iff]
    intro marked
    rw [each _ (includes_basic marked (by decide)) marked] at first
    cases first
  cases derived with
  | start rest => exact ⟨_, _, rfl, by decide⟩
  | stop rest => exact ⟨_, _, rfl, by decide⟩
  | plain atom =>
    obtain ⟨point, behind, shape, first⟩ := atom_first atom
    exact ⟨point, behind, shape, fewer_marks first⟩
  | quantified atom text =>
    obtain ⟨point, behind, shape, first⟩ := atom_first atom
    exact ⟨point, behind, shape, fewer_marks first⟩

theorem piece_apart (derived : Derives .piece points tree behind) (follows : Follows .branch points) :
    False := by
  obtain ⟨point, rest, shape, first⟩ := piece_first derived
  rw [shape] at follows
  rcases follows point rfl with same | same
  · rw [same] at first
    exact absurd first (by decide)
  · rw [same] at first
    exact absurd first (by decide)

theorem Derives.unique (derived : Derives symbol points tree rest)
    (again : Derives symbol points other behind) (follows : Follows symbol rest)
    (stops : Follows symbol behind) : other = tree ∧ behind = rest := by
  induction derived generalizing other behind with
  | one only ih =>
    cases again with
    | one also =>
      exact ih also (fun point first => Or.inl (follows point first))
        (fun point first => Or.inl (stops point first))
    | more branch body =>
      obtain ⟨_, left⟩ := ih branch (fun point first => Or.inl (follows point first))
        (fun point first => Or.inr (Option.some.inj first).symm)
      rw [← left] at follows
      have mark := follows _ rfl
      cases mark
  | more branch body before after =>
    have bar {points : List Nat} : Follows .branch ('|'.toNat :: points) :=
      fun point first => Or.inr (Option.some.inj first).symm
    cases again with
    | one also =>
      obtain ⟨_, left⟩ := before also bar (fun point first => Or.inl (stops point first))
      rw [left] at stops
      have mark := stops _ rfl
      cases mark
    | more also others =>
      obtain ⟨same, left⟩ := before also bar bar
      injection left with _ left
      rw [left] at others
      obtain ⟨equal, ended⟩ := after others follows stops
      exact ⟨by rw [same, equal], ended⟩
  | empty rest =>
    cases again with
    | empty _ => exact ⟨rfl, rfl⟩
    | append piece branch => exact (piece_apart piece follows).elim
  | append piece branch before after =>
    cases again with
    | empty _ => exact (piece_apart piece stops).elim
    | append also others =>
      have plain := branch_first branch (startsQuantifier_of_follows follows)
      have free := branch_first others (startsQuantifier_of_follows stops)
      obtain ⟨same, left⟩ := before also plain free
      rw [left] at others
      obtain ⟨equal, ended⟩ := after others follows stops
      exact ⟨by rw [same, equal], ended⟩
  | start rest =>
    cases again with
    | start _ => exact ⟨rfl, rfl⟩
    | plain atom => exact absurd (atom_head atom) (by decide)
    | quantified atom _ => exact absurd (atom_head atom) (by decide)
  | stop rest =>
    cases again with
    | stop _ => exact ⟨rfl, rfl⟩
    | plain atom => exact absurd (atom_head atom) (by decide)
    | quantified atom _ => exact absurd (atom_head atom) (by decide)
  | plain atom ih =>
    cases again with
    | start _ => exact absurd (atom_head atom) (by decide)
    | stop _ => exact absurd (atom_head atom) (by decide)
    | plain also => exact ih also trivial trivial
    | quantified also text =>
      obtain ⟨_, left⟩ := ih also trivial trivial
      rw [left] at text
      have starts := text.starts
      rw [follows] at starts
      cases starts
  | quantified atom text ih =>
    cases again with
    | start _ => exact absurd (atom_head atom) (by decide)
    | stop _ => exact absurd (atom_head atom) (by decide)
    | plain also =>
      obtain ⟨_, left⟩ := ih also trivial trivial
      rw [← left] at text
      have starts := text.starts
      rw [stops] at starts
      cases starts
    | quantified also more =>
      obtain ⟨same, left⟩ := ih also trivial trivial
      rw [left] at more
      obtain ⟨equal, ended⟩ := text.unique more
      exact ⟨by rw [same, equal], ended⟩
  | literal rest plain =>
    cases again with
    | literal _ _ => exact ⟨rfl, rfl⟩
    | any _ => exact absurd plain (by decide)
    | escape _ _ => exact absurd plain (by decide)
    | shorthand _ _ => exact absurd plain (by decide)
    | characterClass _ _ _ => exact absurd plain (by decide)
    | negatedClass _ _ => exact absurd plain (by decide)
    | group _ => exact absurd plain (by decide)
    | plainGroup _ => exact absurd plain (by decide)
  | any rest =>
    cases again with
    | literal _ plain => exact absurd plain (by decide)
    | any _ => exact ⟨rfl, rfl⟩
  | escape rest known =>
    cases again with
    | literal _ plain => exact absurd plain (by decide)
    | escape _ _ => exact ⟨rfl, rfl⟩
    | shorthand _ letter =>
      rw [escaped_not_shorthand known] at letter
      cases letter
  | shorthand rest letter =>
    cases again with
    | literal _ plain => exact absurd plain (by decide)
    | escape _ known =>
      rw [escaped_not_shorthand known] at letter
      cases letter
    | shorthand _ _ => exact ⟨rfl, rfl⟩
  | characterClass caret filled members =>
    cases again with
    | literal _ plain => exact absurd plain (by decide)
    | characterClass _ _ others =>
      obtain ⟨same, left⟩ := members.unique others rfl rfl
      injection left with _ left
      exact ⟨by rw [same], left⟩
    | negatedClass _ _ => exact absurd rfl caret
  | negatedClass filled members =>
    cases again with
    | literal _ plain => exact absurd plain (by decide)
    | characterClass caret _ _ => exact absurd rfl caret
    | negatedClass _ others =>
      obtain ⟨same, left⟩ := members.unique others rfl rfl
      injection left with _ left
      exact ⟨by rw [same], left⟩
  | group body ih =>
    cases again with
    | literal _ plain => exact absurd plain (by decide)
    | group also =>
      obtain ⟨same, left⟩ := ih also (fun point first => (Option.some.inj first).symm)
        (fun point first => (Option.some.inj first).symm)
      injection left with _ left
      exact ⟨by rw [same], left⟩
    | plainGroup _ => exact absurd rfl (body_first body)
  | plainGroup body ih =>
    cases again with
    | literal _ plain => exact absurd plain (by decide)
    | group also => exact absurd rfl (body_first also)
    | plainGroup also =>
      obtain ⟨same, left⟩ := ih also (fun point first => (Option.some.inj first).symm)
        (fun point first => (Option.some.inj first).symm)
      injection left with _ left
      exact ⟨by rw [same], left⟩

/-- A pattern has one tree at most. -/
theorem Allowed.unique {pattern : Text} (allowed : Allowed pattern tree)
    (again : Allowed pattern other) : other = tree :=
  (allowed.derived.unique again.derived (fun _ first => nomatch first)
    (fun _ first => nomatch first)).1

end Trees

end AutoMobile.CheckPattern
