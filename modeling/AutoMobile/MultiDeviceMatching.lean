import Mathlib
import AutoMobile.DistinctChoice

/- `hasCompleteMatching`: augmenting paths over claims and candidate devices. -/
namespace AutoMobile.MultiDevice

open DistinctChoice (Fills fills_iff)

variable {δ : Type} [DecidableEq δ]

/-- What one call of `augment` answers, with the map and the set it wrote to. -/
structure Augmented (δ : Type) where
  found : Bool
  owner : δ → Option Nat
  seen : List δ

/-- The body of `some` in `augment`, over the candidates of one claim. -/
def tryDevices (next : (δ → Option Nat) → List δ → Nat → Augmented δ) (index : Nat) :
    List δ → (δ → Option Nat) → List δ → Augmented δ
  | [], owner, seen => ⟨false, owner, seen⟩
  | deviceId :: rest, owner, seen =>
    if deviceId ∈ seen then tryDevices next index rest owner seen
    else
      match owner deviceId with
      | none => ⟨true, Function.update owner deviceId (some index), deviceId :: seen⟩
      | some current =>
        let moved := next owner (deviceId :: seen) current
        if moved.found then
          ⟨true, Function.update moved.owner deviceId (some index), moved.seen⟩
        else tryDevices next index rest moved.owner moved.seen

/-- `augment`, at most `depth` calls deep. -/
def augment (candidates : List (List δ)) : Nat → (δ → Option Nat) → List δ → Nat → Augmented δ
  | 0, owner, seen, _ => ⟨false, owner, seen⟩
  | depth + 1, owner, seen, index =>
    tryDevices (augment candidates depth) index (candidates.getD index []) owner seen

/-- The body of `every` in `hasCompleteMatching`. -/
def augmentAll (candidates : List (List δ)) (depth : Nat) : List Nat → (δ → Option Nat) → Bool
  | [], _ => true
  | index :: rest, owner =>
    let answer := augment candidates depth owner [] index
    answer.found && augmentAll candidates depth rest answer.owner

/-- Whether each claim can get a distinct device. A call sees one device more
than its caller, so the number of candidates bounds the depth. -/
def hasCompleteMatching (candidates : List (List δ)) : Bool :=
  augmentAll candidates (candidates.flatten.length + 1) (List.range candidates.length)
    (fun _ => none)

/-- The index owns a device outside `seen`. -/
def Owned (owner : δ → Option Nat) (seen : List δ) (index : Nat) : Prop :=
  ∃ deviceId, deviceId ∉ seen ∧ owner deviceId = some index

/-- A map of owners that respects the candidates and, outside `seen`, gives an
index one device at most. -/
structure Owners (candidates : List (List δ)) (owner : δ → Option Nat) (seen : List δ) : Prop where
  edges : ∀ deviceId index, owner deviceId = some index → deviceId ∈ candidates.getD index []
  single : ∀ first second index, first ∉ seen → second ∉ seen → owner first = some index →
    owner second = some index → first = second

/-- A successful call: outside `seen` exactly `index` has gained a device. -/
structure Gains (candidates : List (List δ)) (owner : δ → Option Nat) (seen : List δ) (index : Nat)
    (next : δ → Option Nat) : Prop where
  kept : ∀ deviceId ∈ seen, next deviceId = owner deviceId
  owners : Owners candidates next seen
  owned : ∀ other, Owned next seen other ↔ other = index ∨ Owned owner seen other

/-- A failed call: every device it has seen belongs to an index whose candidates
it has all seen as well. -/
structure Stuck (candidates : List (List δ)) (owner : δ → Option Nat) (seen after : List δ)
    (tried : List δ) : Prop where
  grows : ∀ deviceId ∈ seen, deviceId ∈ after
  tried : ∀ deviceId ∈ tried, deviceId ∈ after
  closed : ∀ deviceId ∈ after, deviceId ∉ seen → ∃ index, owner deviceId = some index ∧
    ∀ other ∈ candidates.getD index [], other ∈ after

section Paths

variable {candidates : List (List δ)} {owner next : δ → Option Nat} {seen after : List δ}
  {deviceId : δ} {index current : Nat}

omit [DecidableEq δ] in
theorem Owners.weaken (owners : Owners candidates owner seen)
    (grows : ∀ device ∈ seen, device ∈ after) : Owners candidates owner after where
  edges := owners.edges
  single first second shared outside outside' :=
    owners.single first second shared (fun member => outside (grows first member))
      (fun member => outside' (grows second member))

omit [DecidableEq δ] in
theorem Owned.of_weaken (owned : Owned owner after index)
    (grows : ∀ device ∈ seen, device ∈ after) : Owned owner seen index := by
  obtain ⟨device, outside, owns⟩ := owned
  exact ⟨device, fun member => outside (grows device member), owns⟩

/-- The device is free: its claim takes it. -/
theorem Gains.free (owners : Owners candidates owner seen) (outside : deviceId ∉ seen)
    (candidate : deviceId ∈ candidates.getD index []) (unowned : owner deviceId = none)
    (idle : ¬ Owned owner seen index) :
    Gains candidates owner seen index (Function.update owner deviceId (some index)) := by
  constructor
  case kept =>
    intro device member
    have other : device ≠ deviceId := fun same => outside (same ▸ member)
    simp [other]
  case owners =>
    constructor
    case edges =>
      intro device holder owns
      by_cases same : device = deviceId
      · subst same
        obtain rfl : index = holder := by simpa using owns
        exact candidate
      · exact owners.edges device holder (by simpa [same] using owns)
    case single =>
      intro first second holder out out' owns owns'
      by_cases one : first = deviceId <;> by_cases two : second = deviceId
      · rw [one, two]
      · subst one
        obtain rfl : index = holder := by simpa using owns
        exact absurd ⟨second, out', by simpa [two] using owns'⟩ idle
      · subst two
        obtain rfl : index = holder := by simpa using owns'
        exact absurd ⟨first, out, by simpa [one] using owns⟩ idle
      · exact owners.single first second holder out out' (by simpa [one] using owns)
          (by simpa [two] using owns')
  case owned =>
    intro other
    constructor
    · rintro ⟨device, out, owns⟩
      by_cases same : device = deviceId
      · subst same
        exact Or.inl (by simpa using owns.symm)
      · exact Or.inr ⟨device, out, by simpa [same] using owns⟩
    · rintro (rfl | ⟨device, out, owns⟩)
      · exact ⟨deviceId, outside, by simp⟩
      · have distinct : device ≠ deviceId := by
          rintro rfl
          rw [unowned] at owns
          cases owns
        exact ⟨device, out, by simpa [distinct] using owns⟩

/-- The owner of the device found another one: the claim takes this one over. -/
theorem Gains.through (outside : deviceId ∉ seen)
    (candidate : deviceId ∈ candidates.getD index []) (owns : owner deviceId = some current)
    (idle : ¬ Owned owner seen index)
    (moved : Gains candidates owner (deviceId :: seen) current next) :
    Gains candidates owner seen index (Function.update next deviceId (some index)) := by
  have away : ∀ device, device ≠ deviceId → device ∉ seen → device ∉ deviceId :: seen := by
    intro device other out
    simp [other, out]
  have apart : index ≠ current := by
    rintro rfl
    exact idle ⟨deviceId, outside, owns⟩
  -- the claim owned nothing, and the move gave devices to the old owner only
  have idle' : ¬ Owned next (deviceId :: seen) index := by
    rw [moved.owned]
    rintro (same | owned)
    · exact apart same
    · exact idle (owned.of_weaken (fun device member => List.mem_cons_of_mem _ member))
  constructor
  case kept =>
    intro device member
    have other : device ≠ deviceId := fun same => outside (same ▸ member)
    simpa [other] using moved.kept device (List.mem_cons_of_mem _ member)
  case owners =>
    constructor
    case edges =>
      intro device holder owns'
      by_cases same : device = deviceId
      · subst same
        obtain rfl : index = holder := by simpa using owns'
        exact candidate
      · exact moved.owners.edges device holder (by simpa [same] using owns')
    case single =>
      intro first second holder out out' owns₁ owns₂
      by_cases one : first = deviceId <;> by_cases two : second = deviceId
      · rw [one, two]
      · subst one
        obtain rfl : index = holder := by simpa using owns₁
        exact absurd ⟨second, away second two out', by simpa [two] using owns₂⟩ idle'
      · subst two
        obtain rfl : index = holder := by simpa using owns₂
        exact absurd ⟨first, away first one out, by simpa [one] using owns₁⟩ idle'
      · exact moved.owners.single first second holder (away first one out)
          (away second two out') (by simpa [one] using owns₁) (by simpa [two] using owns₂)
  case owned =>
    intro other
    constructor
    · rintro ⟨device, out, owns'⟩
      by_cases same : device = deviceId
      · subst same
        exact Or.inl (by simpa using owns'.symm)
      · have owned : Owned next (deviceId :: seen) other :=
          ⟨device, away device same out, by simpa [same] using owns'⟩
        rcases (moved.owned other).mp owned with rfl | owned
        · exact Or.inr ⟨deviceId, outside, owns⟩
        · exact Or.inr (owned.of_weaken (fun device member => List.mem_cons_of_mem _ member))
    · rintro (rfl | ⟨device, out, owns'⟩)
      · exact ⟨deviceId, outside, by simp⟩
      · have owned : Owned next (deviceId :: seen) other := by
          rw [moved.owned]
          by_cases same : device = deviceId
          · subst same
            exact Or.inl (Option.some.inj (owns'.symm.trans owns))
          · exact Or.inr ⟨device, away device same out, owns'⟩
        obtain ⟨found, out', owns''⟩ := owned
        simp only [List.mem_cons, not_or] at out'
        exact ⟨found, out'.2, by simpa [out'.1] using owns''⟩

/-- A gain outside a larger set is a gain outside a smaller one. -/
theorem Gains.weaken (owners : Owners candidates owner seen) (idle : ¬ Owned owner seen index)
    (grows : ∀ device ∈ seen, device ∈ after) (gains : Gains candidates owner after index next) :
    Gains candidates owner seen index next := by
  constructor
  case kept => exact fun device member => gains.kept device (grows device member)
  case owners =>
    constructor
    case edges => exact gains.owners.edges
    case single =>
      -- a device seen in between keeps its owner, who gained nothing
      have mixed : ∀ first second holder, first ∉ seen → first ∈ after → second ∉ after →
          next first = some holder → next second = some holder → first = second := by
        intro first second holder out inside out' owns owns'
        rw [gains.kept first inside] at owns
        rcases (gains.owned holder).mp ⟨second, out', owns'⟩ with rfl | ⟨third, out'', owns''⟩
        · exact absurd ⟨first, out, owns⟩ idle
        · have same := owners.single first third holder out
            (fun member => out'' (grows third member)) owns owns''
          exact absurd (same ▸ inside) out''
      intro first second holder out out' owns owns'
      by_cases one : first ∈ after <;> by_cases two : second ∈ after
      · exact owners.single first second holder out out' (gains.kept first one ▸ owns)
          (gains.kept second two ▸ owns')
      · exact mixed first second holder out one two owns owns'
      · exact (mixed second first holder out' two one owns' owns).symm
      · exact gains.owners.single first second holder one two owns owns'
  case owned =>
    intro other
    constructor
    · rintro ⟨device, out, owns⟩
      by_cases inside : device ∈ after
      · exact Or.inr ⟨device, out, gains.kept device inside ▸ owns⟩
      · rcases (gains.owned other).mp ⟨device, inside, owns⟩ with same | owned
        · exact Or.inl same
        · exact Or.inr (owned.of_weaken grows)
    · rintro (same | ⟨device, out, owns⟩)
      · exact ((gains.owned other).mpr (Or.inl same)).of_weaken grows
      · by_cases inside : device ∈ after
        · exact ⟨device, out, (gains.kept device inside).trans owns⟩
        · exact ((gains.owned other).mpr (Or.inr ⟨device, inside, owns⟩)).of_weaken grows

/-- What `augment` promises of an index that owns nothing yet. -/
def Answers (candidates : List (List δ)) (owner : δ → Option Nat) (seen tried : List δ)
    (index : Nat) (answer : Augmented δ) : Prop :=
  (answer.found = true ∧ Gains candidates owner seen index answer.owner) ∨
    (answer.found = false ∧ answer.owner = owner ∧ Stuck candidates owner seen answer.seen tried)

/-- The candidates not seen yet, which every deeper call has fewer of. -/
def unseen (candidates : List (List δ)) (seen : List δ) : Nat :=
  (candidates.flatten.filter (fun device => device ∉ seen)).length

omit [DecidableEq δ] in
theorem lt_of_mem_getD (member : deviceId ∈ candidates.getD index []) :
    index < candidates.length := by
  by_contra outside
  simp [List.getD_eq_getElem?_getD, List.getElem?_eq_none (Nat.le_of_not_lt outside)] at member

omit [DecidableEq δ] in
theorem mem_flatten_of_getD (member : deviceId ∈ candidates.getD index []) :
    deviceId ∈ candidates.flatten := by
  have bound := lt_of_mem_getD member
  rw [List.getD_eq_getElem?_getD, List.getElem?_eq_getElem bound, Option.getD_some] at member
  exact List.mem_flatten.mpr ⟨candidates[index], List.getElem_mem bound, member⟩

theorem unseen_le (grows : ∀ device ∈ seen, device ∈ after) :
    unseen candidates after ≤ unseen candidates seen := by
  apply List.Sublist.length_le
  apply List.monotone_filter_right
  intro device outside
  simp only [decide_eq_true_eq] at outside ⊢
  exact fun member => outside (grows device member)

theorem unseen_cons_lt (inside : deviceId ∈ candidates.flatten) (outside : deviceId ∉ seen) :
    unseen candidates (deviceId :: seen) < unseen candidates seen := by
  have split : candidates.flatten.filter (fun device => device ∉ deviceId :: seen) =
      (candidates.flatten.filter (fun device => device ∉ seen)).filter
        (fun device => device ≠ deviceId) := by
    rw [List.filter_filter]
    apply List.filter_congr
    intro device _
    simp [not_or]
  unfold unseen
  rw [split, List.length_filter_lt_length_iff_exists]
  exact ⟨deviceId, List.mem_filter.mpr ⟨inside, by simpa using outside⟩, by simp⟩

/-- Going through the candidates of one claim, given what the deeper calls promise. -/
theorem tryDevices_answers {depth : Nat} {deeper : (δ → Option Nat) → List δ → Nat → Augmented δ}
    (promise : ∀ owner seen index, unseen candidates seen < depth →
      Owners candidates owner seen → ¬ Owned owner seen index →
      Answers candidates owner seen (candidates.getD index []) index (deeper owner seen index))
    (devices : List δ) (members : ∀ device ∈ devices, device ∈ candidates.getD index [])
    (enough : unseen candidates seen < depth + 1) (owners : Owners candidates owner seen)
    (idle : ¬ Owned owner seen index) :
    Answers candidates owner seen devices index (tryDevices deeper index devices owner seen) := by
  induction devices generalizing seen with
  | nil =>
    refine Or.inr ⟨rfl, rfl, ⟨fun _ member => member, by simp, ?_⟩⟩
    exact fun device member outside => absurd member outside
  | cons deviceId rest ih =>
    have candidate := members deviceId List.mem_cons_self
    have others : ∀ device ∈ rest, device ∈ candidates.getD index [] :=
      fun device member => members device (List.mem_cons_of_mem _ member)
    unfold tryDevices
    by_cases outside : deviceId ∈ seen
    · rw [if_pos outside]
      rcases ih others enough owners idle with found | ⟨missed, same, stuck⟩
      · exact Or.inl found
      · refine Or.inr ⟨missed, same, ⟨stuck.grows, ?_, stuck.closed⟩⟩
        intro device member
        rcases List.mem_cons.mp member with rfl | member
        · exact stuck.grows device outside
        · exact stuck.tried device member
    · rw [if_neg outside]
      have fewer := unseen_cons_lt (mem_flatten_of_getD candidate) outside
      split
      · rename_i unowned
        exact Or.inl ⟨rfl, Gains.free owners outside candidate unowned idle⟩
      · rename_i current owns
        have wider : ∀ device ∈ seen, device ∈ deviceId :: seen :=
          fun device member => List.mem_cons_of_mem _ member
        -- outside the new set the current owner has nothing left
        have idle' : ¬ Owned owner (deviceId :: seen) current := by
          rintro ⟨other, out, owns'⟩
          simp only [List.mem_cons, not_or] at out
          exact out.1 (owners.single other deviceId current out.2 outside owns' owns)
        have below := promise owner (deviceId :: seen) current (by omega) (owners.weaken wider)
          idle'
        dsimp only
        rcases below with ⟨found, gains⟩ | ⟨missed, same, stuck⟩
        · rw [if_pos found]
          exact Or.inl ⟨rfl, Gains.through outside candidate owns idle gains⟩
        · rw [if_neg (by simp [missed]), same]
          have grows : ∀ device ∈ seen, device ∈ (deeper owner (deviceId :: seen) current).seen :=
            fun device member => stuck.grows device (wider device member)
          have shrinks : unseen candidates (deeper owner (deviceId :: seen) current).seen ≤
              unseen candidates seen := unseen_le grows
          have answer := ih others (by omega) (owners.weaken grows)
            (fun owned => idle (owned.of_weaken grows))
          rcases answer with ⟨found, gains⟩ | ⟨missed', same', later⟩
          · exact Or.inl ⟨found, gains.weaken owners idle grows⟩
          · refine Or.inr ⟨missed', same', ⟨?_, ?_, ?_⟩⟩
            · exact fun device member => later.grows device (grows device member)
            · intro device member
              rcases List.mem_cons.mp member with rfl | member
              · exact later.grows device (stuck.grows device List.mem_cons_self)
              · exact later.tried device member
            · intro device member out
              by_cases between : device ∈ (deeper owner (deviceId :: seen) current).seen
              · -- seen on the way down, or the device whose owner got stuck
                by_cases this : device = deviceId
                · subst this
                  exact ⟨current, owns, fun other candidate' =>
                    later.grows other (stuck.tried other candidate')⟩
                · obtain ⟨holder, owns', closed⟩ :=
                    stuck.closed device between (by simp [this, out])
                  exact ⟨holder, owns', fun other candidate' =>
                    later.grows other (closed other candidate')⟩
              · exact later.closed device member between

theorem augment_answers {depth : Nat} (enough : unseen candidates seen < depth)
    (owners : Owners candidates owner seen) (idle : ¬ Owned owner seen index) :
    Answers candidates owner seen (candidates.getD index []) index
      (augment candidates depth owner seen index) := by
  induction depth generalizing owner seen index with
  | zero => omega
  | succ depth ih =>
    exact tryDevices_answers (fun owner seen index below owners idle => ih below owners idle) _
      (fun _ member => member) enough owners idle

/-- A stuck claim shares the devices it saw with as many others as there are devices. -/
theorem Stuck.not_fills (owners : Owners candidates owner []) (idle : ¬ Owned owner [] index)
    (bound : index < candidates.length)
    (stuck : Stuck candidates owner [] after (candidates.getD index [])) : ¬ Fills candidates := by
  have owned : ∀ device ∈ after.toFinset, ∃ holder, owner device = some holder ∧
      ∀ other ∈ candidates.getD holder [], other ∈ after := by
    intro device member
    exact stuck.closed device (List.mem_toFinset.mp member) (by simp)
  let holders := after.toFinset.image (fun device => (owner device).getD 0)
  have distinct : holders.card = after.toFinset.card := by
    apply Finset.card_image_of_injOn
    intro first member second member' same
    obtain ⟨one, owns, -⟩ := owned first member
    obtain ⟨two, owns', -⟩ := owned second member'
    simp only [owns, owns', Option.getD_some] at same
    exact owners.single first second two (by simp) (by simp) (same ▸ owns) owns'
  have fresh : index ∉ holders := by
    intro member
    obtain ⟨device, inside, same⟩ := Finset.mem_image.mp member
    obtain ⟨holder, owns, -⟩ := owned device inside
    rw [owns, Option.getD_some] at same
    exact idle ⟨device, by simp, same ▸ owns⟩
  have cases : ∀ slot ∈ insert index holders, slot = index ∨ ∃ device ∈ after.toFinset,
      owner device = some slot ∧ ∀ other ∈ candidates.getD slot [], other ∈ after := by
    intro slot member
    rcases Finset.mem_insert.mp member with same | member
    · exact Or.inl same
    · obtain ⟨device, inside, same⟩ := Finset.mem_image.mp member
      obtain ⟨holder, owns, closed⟩ := owned device inside
      rw [owns, Option.getD_some] at same
      subst same
      exact Or.inr ⟨device, inside, owns, closed⟩
  have bounded : ∀ slot ∈ insert index holders, slot < candidates.length := by
    intro slot member
    rcases cases slot member with rfl | ⟨device, -, owns, -⟩
    · exact bound
    · exact lt_of_mem_getD (owners.edges device slot owns)
  have shared : ∀ slot ∈ insert index holders, ∀ element ∈ candidates.getD slot [],
      element ∈ after.toFinset := by
    intro slot member element candidate
    rcases cases slot member with rfl | ⟨_, -, -, closed⟩
    · exact List.mem_toFinset.mpr (stuck.tried element candidate)
    · exact List.mem_toFinset.mpr (closed element candidate)
  apply DistinctChoice.not_fills_of_crowded bounded shared
  rw [Finset.card_insert_of_notMem fresh]
  omega

/-- Claims before `start` own a device each; the others own none yet. -/
theorem augmentAll_iff (depth : Nat) (enough : candidates.flatten.length < depth) (count : Nat)
    {start : Nat} (total : start + count = candidates.length)
    (owners : Owners candidates owner [])
    (served : ∀ index, Owned owner [] index ↔ index < start) :
    augmentAll candidates depth (List.range' start count) owner = true ↔ Fills candidates := by
  induction count generalizing start owner with
  | zero =>
    simp only [List.range'_zero, augmentAll, true_iff]
    have owned : ∀ index < candidates.length, ∃ device, device ∈ candidates.getD index [] ∧
        owner device = some index := by
      intro index bound
      obtain ⟨device, -, owns⟩ := (served index).mpr (by omega)
      exact ⟨device, owners.edges device index owns, owns⟩
    exact DistinctChoice.fills_of_owner owned
  | succ count ih =>
    have idle : ¬ Owned owner [] start := by
      rw [served]
      omega
    have below : unseen candidates [] < depth :=
      Nat.lt_of_le_of_lt (List.length_filter_le _ _) enough
    rw [List.range'_succ, augmentAll]
    rcases augment_answers below owners idle with ⟨found, gains⟩ | ⟨missed, -, stuck⟩
    · rw [found, Bool.true_and]
      apply ih (by omega) gains.owners
      intro index
      rw [gains.owned, served]
      omega
    · simp only [missed, Bool.false_and, Bool.false_eq_true, false_iff]
      exact stuck.not_fills owners idle (by omega)

end Paths

section Calls

/-- The calls of `augment` over the candidates that are left, with no bound on their depth: a
derivation is a call that returns. -/
inductive Tries (candidates : List (List δ)) :
    Nat → List δ → (δ → Option Nat) → List δ → Augmented δ → Prop
  | none {index owner seen} : Tries candidates index [] owner seen ⟨false, owner, seen⟩
  | seen {index deviceId rest owner seen answer} : deviceId ∈ seen →
      Tries candidates index rest owner seen answer →
      Tries candidates index (deviceId :: rest) owner seen answer
  | free {index deviceId rest owner seen} : deviceId ∉ seen → owner deviceId = .none →
      Tries candidates index (deviceId :: rest) owner seen
        ⟨true, Function.update owner deviceId (some index), deviceId :: seen⟩
  | moved {index deviceId rest owner seen current moved} : deviceId ∉ seen →
      owner deviceId = some current →
      Tries candidates current (candidates.getD current []) owner (deviceId :: seen) moved →
      moved.found = true →
      Tries candidates index (deviceId :: rest) owner seen
        ⟨true, Function.update moved.owner deviceId (some index), moved.seen⟩
  | stuck {index deviceId rest owner seen current moved answer} : deviceId ∉ seen →
      owner deviceId = some current →
      Tries candidates current (candidates.getD current []) owner (deviceId :: seen) moved →
      moved.found = false → Tries candidates index rest moved.owner moved.seen answer →
      Tries candidates index (deviceId :: rest) owner seen answer

/-- The calls of `every`. -/
inductive Every (candidates : List (List δ)) : List Nat → (δ → Option Nat) → Bool → Prop
  | done {owner} : Every candidates [] owner true
  | failed {index rest owner answer} :
      Tries candidates index (candidates.getD index []) owner [] answer → answer.found = false →
      Every candidates (index :: rest) owner false
  | next {index rest owner answer result} :
      Tries candidates index (candidates.getD index []) owner [] answer → answer.found = true →
      Every candidates rest answer.owner result → Every candidates (index :: rest) owner result

variable {candidates : List (List δ)} {owner : δ → Option Nat} {seen devices : List δ}
  {answer : Augmented δ} {index depth : Nat}

theorem Tries.grows (tries : Tries candidates index devices owner seen answer) :
    ∀ device ∈ seen, device ∈ answer.seen := by
  induction tries with
  | none => exact fun _ member => member
  | seen _ _ ih => exact ih
  | free => exact fun _ member => List.mem_cons_of_mem _ member
  | moved _ _ _ _ ih => exact fun device member => ih device (List.mem_cons_of_mem _ member)
  | stuck _ _ _ _ _ below after =>
    exact fun device member => after device (below device (List.mem_cons_of_mem _ member))

/-- A call goes deeper only with a device seen that was not, so it returns. -/
theorem tries_tryDevices {deeper : (δ → Option Nat) → List δ → Nat → Augmented δ}
    (returns : ∀ owner seen index, unseen candidates seen < depth →
      Tries candidates index (candidates.getD index []) owner seen (deeper owner seen index))
    (members : ∀ device ∈ devices, device ∈ candidates.getD index [])
    (enough : unseen candidates seen < depth + 1) :
    Tries candidates index devices owner seen (tryDevices deeper index devices owner seen) := by
  induction devices generalizing owner seen with
  | nil => exact .none
  | cons deviceId rest ih =>
    have others : ∀ device ∈ rest, device ∈ candidates.getD index [] :=
      fun device member => members device (List.mem_cons_of_mem _ member)
    unfold tryDevices
    split
    next known => exact .seen known (ih others enough)
    next outside =>
      have fewer := unseen_cons_lt (mem_flatten_of_getD (members deviceId List.mem_cons_self)) outside
      split
      next unowned => exact .free outside unowned
      next current owns =>
        have below := returns owner (deviceId :: seen) current (by omega)
        dsimp only
        split
        next found => exact .moved outside owns below found
        next missed =>
          have shrinks := (unseen_le below.grows : unseen candidates _ ≤ unseen candidates _)
          exact .stuck outside owns below (by simpa using missed) (ih others (by omega))

theorem tries_augment (enough : unseen candidates seen < depth) :
    Tries candidates index (candidates.getD index []) owner seen
      (augment candidates depth owner seen index) := by
  induction depth generalizing owner seen index with
  | zero => omega
  | succ depth ih =>
    exact tries_tryDevices (fun owner seen index below => ih below) (fun _ member => member) enough

theorem every_augmentAll (enough : unseen candidates [] < depth) (indices : List Nat) :
    Every candidates indices owner (augmentAll candidates depth indices owner) := by
  induction indices generalizing owner with
  | nil => exact .done
  | cons index rest ih =>
    have tries : Tries candidates index (candidates.getD index []) owner []
        (augment candidates depth owner [] index) := tries_augment enough
    unfold augmentAll
    dsimp only
    cases found : (augment candidates depth owner [] index).found with
    | false => exact .failed tries found
    | true => exact .next tries found ih

end Calls

/-- The augmenting search finds a distinct device for each claim if there is one. -/
theorem hasCompleteMatching_iff (candidates : List (List δ)) :
    hasCompleteMatching candidates = true ↔ Fills candidates := by
  unfold hasCompleteMatching
  rw [List.range_eq_range']
  apply augmentAll_iff
  · omega
  · omega
  · exact ⟨by simp, by simp⟩
  · simp [Owned]

/-- The search returns, and finds a device of its own for each claim exactly if there is such a
choice. -/
theorem complete_matching_decided (candidates : List (List δ)) :
    Every candidates (List.range candidates.length) (fun _ => none)
        (hasCompleteMatching candidates) ∧
      (hasCompleteMatching candidates = true ↔
        ∃ choice : Fin candidates.length → δ, Function.Injective choice ∧
          ∀ index, choice index ∈ candidates[index]) := by
  have few : unseen candidates [] < candidates.flatten.length + 1 :=
    Nat.lt_succ_of_le (List.length_filter_le _ _)
  exact ⟨every_augmentAll few _, (hasCompleteMatching_iff candidates).trans fills_iff⟩

end AutoMobile.MultiDevice
