import AutoMobile.SessionLivenessLease
import Mathlib.Data.Finset.Basic

/- What a claim, its failed write and a failed release leave of the session they found, with any
heartbeats, adoptions, calls and stalls in between. -/
namespace AutoMobile.LivenessLease

open List Runs

variable {Token : Type} [DecidableEq Token]

def Reading.baseHolder (reading : Reading Token) : Option Token :=
  reading.baseView.bind LivenessOwnerView.holder

section Decision

theorem decide_claimed_of_other {claimantToken : Token} {session : LivenessOwnerView Token}
    {processed : Bool} {base : Option (LivenessOwnerView Token)}
    (foreign : session.ownerToken ≠ some claimantToken)
    (claimed : decideLivenessClaim claimantToken session processed base = .claimed) :
    base.bind LivenessOwnerView.holder = some claimantToken ∨
      (session.ownerToken.isSome && processed) = false ∧ session.holder = none ∧
        base.bind LivenessOwnerView.holder = none := by
  by_cases holdsBase : base.bind LivenessOwnerView.holder = some claimantToken
  · exact Or.inl holdsBase
  · right
    simp only [decideLivenessClaim, foreign, holdsBase, if_false] at claimed
    by_cases displaced : (session.ownerToken.isSome && processed) = true
    · simp [displaced] at claimed
    · cases held : session.holder with
      | some holder => simp [displaced, held] at claimed
      | none =>
        cases baseHeld : base.bind LivenessOwnerView.holder with
        | some holder => simp [displaced, held, baseHeld] at claimed
        | none => exact ⟨by simpa using displaced, rfl, rfl⟩

end Decision

section Session

variable (session : Session Token) (gap : StallGap)

omit [DecidableEq Token] in
@[simp] theorem view_ownerToken (reading : Reading Token) :
    (reading.view session).ownerToken = session.livenessOwnerToken := rfl

omit [DecidableEq Token] in
theorem mintBound_of_stamped {session : Session Token} (stamped : session.lastOwnerHeartbeat ≠ none) :
    mintBoundClaimLease session = none := by
  simp [mintBoundClaimLease, stamped]

/-- What neither a stall nor the end of a call touches. -/
structure SameOwner (before after : Session Token) : Prop where
  owner : after.livenessOwnerToken = before.livenessOwnerToken
  claims : after.livenessOwnershipClaims = before.livenessOwnershipClaims
  stamp : after.lastOwnerHeartbeat = before.lastOwnerHeartbeat
  heard : after.hasReceivedHeartbeat = before.hasReceivedHeartbeat
  ownership : after.ownership = before.ownership
  policy : after.livenessPolicy = before.livenessPolicy

omit [DecidableEq Token] in
theorem SameOwner.refl : SameOwner session session := ⟨rfl, rfl, rfl, rfl, rfl, rfl⟩

omit [DecidableEq Token] in
theorem SameOwner.trans {first second third : Session Token} (one : SameOwner first second)
    (two : SameOwner second third) : SameOwner first third :=
  ⟨two.owner.trans one.owner, two.claims.trans one.claims, two.stamp.trans one.stamp,
    two.heard.trans one.heard, two.ownership.trans one.ownership, two.policy.trans one.policy⟩

omit [DecidableEq Token] in
theorem connectedOwnerCredit_eq :
    ∃ budget, (connectedOwnerCredit session gap).2 = { session with budget := budget } := by
  unfold connectedOwnerCredit
  cases gap.gapBeganAt with
  | none => exact ⟨session.budget, rfl⟩
  | some gapBeganAt =>
    dsimp only
    split
    · exact ⟨session.budget, rfl⟩
    · exact ⟨_, rfl⟩

omit [DecidableEq Token] in
theorem daemonStallLeaseExtension_eq :
    ∃ budget stallForgivenAt, daemonStallLeaseExtension session gap =
      { session with budget := budget, stallForgivenAt := stallForgivenAt } := by
  obtain ⟨budget, credited⟩ := connectedOwnerCredit_eq session gap
  unfold daemonStallLeaseExtension
  cases ownerLeaseLiveAt session gap.gapBeganAt with
  | true => exact ⟨session.budget, _, rfl⟩
  | false =>
    simp only [Bool.false_eq_true, if_false, credited, Bool.false_or]
    split
    · exact ⟨budget, _, rfl⟩
    · exact ⟨budget, session.stallForgivenAt, rfl⟩

omit [DecidableEq Token] in
theorem forgiveMintBoundClaimLease_eq : ∃ boundAt, forgiveMintBoundClaimLease session gap =
        { session with livenessOwnerBoundAt := boundAt } ∧
      (mintBoundClaimLease session = none → boundAt = session.livenessOwnerBoundAt) := by
  unfold forgiveMintBoundClaimLease
  cases bound : mintBoundClaimLease session with
  | none => exact ⟨session.livenessOwnerBoundAt, rfl, fun _ => rfl⟩
  | some boundAt =>
    dsimp only
    split
    · exact ⟨_, rfl, fun impossible => by contradiction⟩
    · exact ⟨session.livenessOwnerBoundAt, rfl, fun _ => rfl⟩

/-- How a stall moves the window of a session under `policy` that waits for its owner. -/
def stalledWindow (policy : SessionLivenessPolicy) (gap : StallGap) (window : Option Int) :
    Option Int :=
  forgivenWindow window gap.resumedAt
    (if policy = .cliIdle then gap.lostMs else gap.lostMs + gap.sleptMs)

omit [DecidableEq Token] in
theorem forgiveDaemonStall_eq : ∃ boundAt stallForgivenAt idleStallForgivenAt expiresAt budget,
      forgiveDaemonStall session gap = { session with
          livenessOwnerBoundAt := boundAt
          stallForgivenAt := stallForgivenAt
          idleStallForgivenAt := idleStallForgivenAt
          expiresAt := expiresAt
          budget := budget
          awaitingOwnerSince :=
            stalledWindow session.livenessPolicy gap session.awaitingOwnerSince } ∧
      (mintBoundClaimLease session = none → boundAt = session.livenessOwnerBoundAt) := by
  unfold forgiveDaemonStall stalledWindow
  by_cases idle : session.livenessPolicy = .cliIdle
  · simp only [idle, if_true]
    exact ⟨session.livenessOwnerBoundAt, session.stallForgivenAt, _, session.expiresAt,
      session.budget, rfl, fun _ => rfl⟩
  · simp only [idle, if_false]
    obtain ⟨boundAt, bound, kept⟩ := forgiveMintBoundClaimLease_eq session gap
    obtain ⟨budget, forgiven, extended⟩ :=
      daemonStallLeaseExtension_eq (forgiveMintBoundClaimLease session gap) gap
    rw [extended, bound]
    exact ⟨boundAt, forgiven, session.idleStallForgivenAt, _, budget, rfl, kept⟩

omit [DecidableEq Token] in
theorem forgiveDaemonStall_sameOwner : SameOwner session (forgiveDaemonStall session gap) := by
  obtain ⟨_, _, _, _, _, forgiven, _⟩ := forgiveDaemonStall_eq session gap
  rw [forgiven]
  exact ⟨rfl, rfl, rfl, rfl, rfl, rfl⟩

omit [DecidableEq Token] in
@[simp] theorem forgiveDaemonStall_generation :
    (forgiveDaemonStall session gap).activityGeneration = session.activityGeneration := by
  obtain ⟨_, _, _, _, _, forgiven, _⟩ := forgiveDaemonStall_eq session gap
  rw [forgiven]

omit [DecidableEq Token] in
@[simp] theorem forgiveDaemonStall_window : (forgiveDaemonStall session gap).awaitingOwnerSince =
      stalledWindow session.livenessPolicy gap session.awaitingOwnerSince := by
  obtain ⟨_, _, _, _, _, forgiven, _⟩ := forgiveDaemonStall_eq session gap
  rw [forgiven]

omit [DecidableEq Token] in
theorem forgiveDaemonStall_boundAt {session : Session Token}
    (unbound : mintBoundClaimLease session = none) :
    (forgiveDaemonStall session gap).livenessOwnerBoundAt = session.livenessOwnerBoundAt := by
  obtain ⟨_, _, _, _, _, forgiven, kept⟩ := forgiveDaemonStall_eq session gap
  rw [forgiven]
  exact kept unbound

theorem restart_of_unbound {session : Session Token} {ownerToken : Token} {now : Int}
    (unbound : mintBoundClaimLease session = none) :
    restartMintBoundClaimLeases session ownerToken now = session := by
  simp [restartMintBoundClaimLeases, unbound]

theorem restart_eq (ownerToken : Token) (now : Int) :
    ∃ boundAt, restartMintBoundClaimLeases session ownerToken now =
      { session with livenessOwnerBoundAt := boundAt } := by
  unfold restartMintBoundClaimLeases
  cases mintBoundClaimLease session with
  | none => exact ⟨session.livenessOwnerBoundAt, rfl⟩
  | some boundAt =>
    dsimp only
    split
    · exact ⟨_, rfl⟩
    · exact ⟨session.livenessOwnerBoundAt, rfl⟩

end Session

section Between

/-- An event that neither hands the mutex over nor settles a write. -/
def Between (event : Event Token × Reading Token) : Prop :=
  match event.1 with
  | .enter | .settle _ => False
  | _ => True

/-- The state in which a claim of `ownerToken` awaits its write, `taken` being what it found. -/
structure Claiming (ownerToken : Token) (taken : Session Token) (world : World Token) : Prop where
  owner : world.session.livenessOwnerToken = some ownerToken
  claims : world.session.livenessOwnershipClaims = insert ownerToken taken.livenessOwnershipClaims
  heard : world.session.hasReceivedHeartbeat = true
  owned : world.session.ownership = .owned
  stamped : world.session.lastOwnerHeartbeat ≠ none
  generation : taken.activityGeneration ≤ world.session.activityGeneration
  writing : world.writing = some (.claim ownerToken
    (ownerToken ∈ taken.livenessOwnershipClaims) taken.livenessOwnerToken taken.lastOwnerHeartbeat
    taken.livenessOwnerBoundAt taken.hasReceivedHeartbeat taken.ownership taken.activityGeneration)

variable {ownerToken : Token} {taken : Session Token} {world : World Token}

theorem claiming_take (now : Int) :
    Claiming ownerToken world.session (takeLivenessOwnership world ownerToken now) :=
  ⟨rfl, rfl, rfl, rfl, by simp [takeLivenessOwnership, markAcceptedClaimantHeartbeating],
    le_refl _, rfl⟩

variable {session after : Session Token} {event : Event Token × Reading Token}

/-- An event that the session answers without a trace of a heartbeat, an adoption or a call. -/
def Quiet (session : Session Token) (event : Event Token × Reading Token) : Prop :=
  match event.1 with
  | .claim _ | .release _ | .ownerCallEnded _ | .stall _ => True
  | .bind _ | .heartbeat none => isTokenOwnedOrClaimPending session = true
  | .heartbeat (some token) =>
    isTokenOwnedOrClaimPending session = true ∧ session.livenessOwnerToken ≠ some token
  | .toolCallEnded | .enter | .settle _ => False

theorem adopt_eq {adopted : Session Token} {token : Token} {reading : Reading Token}
    (adopts : adoptUnownedLivenessOwnerToken session token reading = some adopted) :
    isTokenOwnedOrClaimPending session = false ∧
      adopted =
        { session with livenessOwnerToken := some token, livenessOwnerBoundAt := none } := by
  unfold adoptUnownedLivenessOwnerToken at adopts
  split at adopts
  next may =>
    simp only [mayAdoptUnownedLiveness, view_ownerToken] at may
    refine ⟨?_, (Option.some.inj adopts).symm⟩
    simp_all [isTokenOwnedOrClaimPending]
  next => contradiction

/-- What an event between two entries of the mutex makes of the session. -/
inductive Touched (session : Session Token) : Event Token × Reading Token → Session Token → Prop
  | still (event : Event Token × Reading Token)
      (unmoved : ∀ gap, event.1 = .stall gap → event.2.found = false) :
      Touched session event session
  | heard (token : Option Token) (reading : Reading Token)
      (noticed : ¬ Quiet session (.heartbeat token, reading)) :
      Touched session (.heartbeat token, reading) (recordHeartbeat session reading)
  | adopted (token : Token) (reading : Reading Token)
      (unowned : isTokenOwnedOrClaimPending session = false) :
      Touched session (.heartbeat (some token), reading) (recordHeartbeat { session with
          livenessOwnerToken := some token
          livenessOwnerBoundAt := none
          lastOwnerHeartbeat := some reading.now } reading)
  | bound (token : Token) (reading : Reading Token)
      (unowned : isTokenOwnedOrClaimPending session = false) :
      Touched session (.bind token, reading) { session with
          livenessOwnerToken := some token
          livenessOwnerBoundAt := some reading.now }
  | called (reading : Reading Token) :
      Touched session (.toolCallEnded, reading) (recordToolCallEnded session reading.now)
  | restarted (token : Token) (reading : Reading Token) :
      Touched session (.ownerCallEnded token, reading)
        (restartMintBoundClaimLeases session token reading.now)
  | stalled (gap : StallGap) (reading : Reading Token) (found : reading.found = true) :
      Touched session (.stall gap, reading) (forgiveDaemonStall session gap)

/-- Whatever happens between two entries of the mutex leaves its write alone. -/
theorem step_between (world : World Token) (event : Event Token × Reading Token)
    (between : Between event) :
    Touched world.session event (step world event).1.session ∧
      (step world event).1.writing = world.writing ∧
      ∀ answer ∈ (step world event).2, answer.outcome = .notFound := by
  obtain ⟨event, reading⟩ := event
  cases event with
  | enter => exact between.elim
  | settle ok => exact between.elim
  | claim token | release token =>
    simp only [step]
    split
    · exact ⟨.still _ (by simp), rfl, by simp⟩
    · exact ⟨.still _ (by simp), rfl, by simp⟩
  | heartbeat token =>
    simp only [step, handleHttpHeartbeat]
    split
    · exact ⟨.still _ (by simp), rfl, by simp⟩
    cases token with
    | none =>
      dsimp only
      split
      · exact ⟨.still _ (by simp), rfl, by simp⟩
      next unowned => exact ⟨.heard none reading unowned, rfl, by simp⟩
    | some token =>
      dsimp only
      split
      next owner =>
        refine ⟨.heard (some token) reading fun quiet => quiet.2 ?_, rfl, by simp⟩
        simpa [hasLivenessOwnership] using owner
      next =>
        cases adopts : adoptUnownedLivenessOwnerToken world.session token reading with
        | none => exact ⟨.still _ (by simp), rfl, by simp⟩
        | some adopted =>
          obtain ⟨unowned, rfl⟩ := adopt_eq adopts
          exact ⟨.adopted token reading unowned, rfl, by simp⟩
  | bind token =>
    simp only [step, bindAcquiredLivenessOwnerToken]
    split
    · exact ⟨.still _ (by simp), rfl, by simp⟩
    cases adopts : adoptUnownedLivenessOwnerToken world.session token reading with
    | none => exact ⟨.still _ (by simp), rfl, by simp⟩
    | some adopted =>
      obtain ⟨unowned, rfl⟩ := adopt_eq adopts
      exact ⟨.bound token reading unowned, rfl, by simp⟩
  | toolCallEnded =>
    simp only [step]
    split
    · exact ⟨.called reading, rfl, by simp⟩
    · exact ⟨.still _ (by simp), rfl, by simp⟩
  | ownerCallEnded token =>
    simp only [step]
    split
    · exact ⟨.restarted token reading, rfl, by simp⟩
    · exact ⟨.still _ (by simp), rfl, by simp⟩
  | stall gap =>
    simp only [step]
    split
    next found => exact ⟨.stalled gap reading found, rfl, by simp⟩
    next lost => exact ⟨.still _ (by simpa using lost), rfl, by simp⟩

omit [DecidableEq Token] in
theorem recordHeartbeat_claims (session : Session Token) (reading : Reading Token) :
    (recordHeartbeat session reading).livenessOwnershipClaims =
      session.livenessOwnershipClaims := by
  unfold recordHeartbeat
  split
  · dsimp only
    split
    · rfl
    · rfl
  · rfl

theorem Touched.claims (touched : Touched session event after) :
    after.livenessOwnershipClaims = session.livenessOwnershipClaims := by
  cases touched with
  | still | bound | called => rfl
  | heard | adopted => exact recordHeartbeat_claims _ _
  | restarted token reading =>
    obtain ⟨boundAt, restarted⟩ := restart_eq session token reading.now
    rw [restarted]
  | stalled gap => exact (forgiveDaemonStall_sameOwner session gap).claims

omit [DecidableEq Token] in
/-- A heartbeat recorded for an owned session keeps its owner. -/
theorem recordHeartbeat_owned (owned : session.ownership = .owned) (reading : Reading Token) :
    recordHeartbeat session reading = session ∨ recordHeartbeat session reading = { session with
        lastHeartbeat := reading.now
        lastOwnerHeartbeat := some reading.now
        activityGeneration := session.activityGeneration + 1
        hasReceivedHeartbeat := true } := by
  unfold recordHeartbeat
  split
  · right
    simp [owned]
  · exact Or.inl rfl

theorem Claiming.withSession {next : World Token} (claiming : Claiming ownerToken taken world)
    (same : SameOwner world.session next.session)
    (generation : world.session.activityGeneration ≤ next.session.activityGeneration)
    (writing : next.writing = world.writing) : Claiming ownerToken taken next :=
  { owner := same.owner.trans claiming.owner
    claims := same.claims.trans claiming.claims
    heard := same.heard.trans claiming.heard
    owned := same.ownership.trans claiming.owned
    stamped := by rw [same.stamp]; exact claiming.stamped
    generation := le_trans claiming.generation generation
    writing := writing.trans claiming.writing }

theorem Claiming.next (claiming : Claiming ownerToken taken world)
    (event : Event Token × Reading Token) (between : Between event) :
    Claiming ownerToken taken (step world event).1 := by
  have owned : isTokenOwnedOrClaimPending world.session = true := by
    simp [isTokenOwnedOrClaimPending, claiming.owner]
  obtain ⟨touched, writing, _⟩ := step_between world event between
  generalize (step world event).1 = next at touched writing
  obtain ⟨session, waiting, write⟩ := next
  dsimp only at touched writing
  cases touched with
  | still => exact claiming.withSession (.refl _) (le_refl _) writing
  | heard token reading noticed =>
    obtain same | recorded := recordHeartbeat_owned claiming.owned reading
    · rw [same]
      exact claiming.withSession (.refl _) (le_refl _) writing
    · rw [recorded]
      exact ⟨claiming.owner, claiming.claims, rfl, claiming.owned, by simp,
        le_trans claiming.generation (Nat.le_succ _), writing.trans claiming.writing⟩
  | adopted _ _ unowned | bound _ _ unowned =>
    rw [owned] at unowned
    cases unowned
  | called => exact claiming.withSession ⟨rfl, rfl, rfl, rfl, rfl, rfl⟩ (Nat.le_succ _) writing
  | restarted =>
    rw [restart_of_unbound (mintBound_of_stamped claiming.stamped)]
    exact claiming.withSession (.refl _) (le_refl _) writing
  | stalled gap =>
    exact claiming.withSession (forgiveDaemonStall_sameOwner _ gap) (by simp) writing

theorem Claiming.run (claiming : Claiming ownerToken taken world)
    {events : List (Event Token × Reading Token)} (between : ∀ event ∈ events, Between event) :
    Claiming ownerToken taken (run step world events).1 := by
  have meets : Meets step (fun _ event => Between event) world events :=
    Meets.of_forall step (fun event member _ => between event member) world
  exact Meets.state_invariant step (Claiming ownerToken taken)
    (fun _ event holds allowed => holds.next event allowed) claiming meets

end Between

section Claims

variable {world : World Token} {token : Token} {reading : Reading Token}

def World.pendingClaim (world : World Token) : Option Token :=
  match world.writing with
  | some (.claim ownerToken _ _ _ _ _ _ _) => some ownerToken
  | _ => none

def World.pendingRelease (world : World Token) : Option Token :=
  match world.writing with
  | some (.release ownerToken _) => some ownerToken
  | _ => none

/-- The world as it would be had the first that waits never asked. -/
def World.spared (world : World Token) : World Token := { world with waiting := world.waiting.tail }

/-- The session with its owner's release in force. -/
def releasedSession (session : Session Token) (token : Token) : Session Token :=
  { session with
    livenessOwnershipClaims := insert token session.livenessOwnershipClaims
    livenessOwnerToken := none
    livenessOwnerBoundAt := none
    activityGeneration := session.activityGeneration + 1 }

/-- The world in which the release awaits its write. -/
def World.releasing (world : World Token) (token : Token) : World Token :=
  { world with
    session := releasedSession world.session token
    writing := some (.release token world.session.livenessOwnerBoundAt) }

@[simp] theorem releasing_session :
    (world.releasing token).session = releasedSession world.session token := rfl

@[simp] theorem releasing_writing : (world.releasing token).writing =
    some (.release token world.session.livenessOwnerBoundAt) := rfl

/-- A claim is refused and leaves its world alone, is a retry of its owner, or takes effect. -/
theorem claimLivenessOwnership_cases (world : World Token) (token : Token)
    (reading : Reading Token) :
    (∃ outcome, claimLivenessOwnership world token reading = (world, [⟨.claim token, outcome⟩]) ∧
      (outcome = .claimed → token ∈ world.session.livenessOwnershipClaims)) ∨
      decideLivenessClaim token (reading.view world.session)
          (token ∈ world.session.livenessOwnershipClaims) reading.baseView = .claimed ∧
        claimLivenessOwnership world token reading =
          (takeLivenessOwnership world token reading.now, []) := by
  unfold claimLivenessOwnership
  cases reading.found with
  | false => exact Or.inl ⟨.notFound, rfl, by simp⟩
  | true =>
    simp only [Bool.true_eq_false, if_false]
    cases decided : decideLivenessClaim token (reading.view world.session)
        (token ∈ world.session.livenessOwnershipClaims) reading.baseView with
    | superseded => exact Or.inl ⟨.superseded, rfl, by simp⟩
    | conflictSession => exact Or.inl ⟨.conflict, rfl, by simp⟩
    | conflictBase => exact Or.inl ⟨.conflict, rfl, by simp⟩
    | claimed =>
      dsimp only
      split
      next retried => exact Or.inl ⟨.claimed, rfl, fun _ => retried.2⟩
      next => exact Or.inr ⟨rfl, rfl⟩

/-- A release is refused and leaves its world alone, or takes effect. -/
theorem releaseLivenessOwnership_cases (world : World Token) (token : Token)
    (reading : Reading Token) :
    (∃ outcome, releaseLivenessOwnership world token reading =
        (world, [⟨.release token, outcome⟩])) ∨
      world.session.livenessOwnerToken = some token ∧ releaseLivenessOwnership world token reading =
          (world.releasing token, []) := by
  unfold releaseLivenessOwnership
  dsimp only
  split
  · exact Or.inl ⟨.notFound, rfl⟩
  · split
    · exact Or.inl ⟨.alreadyUnowned, rfl⟩
    · split
      · exact Or.inl ⟨.notOwner, rfl⟩
      next owner =>
        simp only [ne_eq, not_not] at owner
        exact Or.inr ⟨owner, rfl⟩

/-- What the mutex's new holder makes of the world. -/
inductive Entered (world : World Token) (reading : Reading Token) :
    World Token × List (Answer Token) → Prop where
  | refused (waiting : List (Request Token)) (answers : List (Answer Token))
      (processed : ∀ token, ⟨.claim token, .claimed⟩ ∈ answers →
        token ∈ world.session.livenessOwnershipClaims)
      (busy : world.writing ≠ none → answers = []) :
      Entered world reading ({ world with waiting := waiting }, answers)
  | taken (token : Token) (free : world.writing = none)
      (decided : decideLivenessClaim token (reading.view world.session)
        (token ∈ world.session.livenessOwnershipClaims) reading.baseView = .claimed) :
      Entered world reading
        (takeLivenessOwnership { world with waiting := world.waiting.tail } token reading.now, [])
  | released (token : Token) (free : world.writing = none)
      (owner : world.session.livenessOwnerToken = some token) :
      Entered world reading
        (world.spared.releasing token, [])
  | persisting (free : world.writing = none) : Entered world reading
        ({ world with waiting := world.waiting.tail, writing := some .persistAdopted }, [])

theorem entered (world : World Token) (reading : Reading Token) :
    Entered world reading (enter world reading) := by
  have unchanged : Entered world reading (world, []) :=
    .refused world.waiting [] (by simp) (fun _ => rfl)
  obtain ⟨session, waiting, writing⟩ := world
  cases writing with
  | some write => exact unchanged
  | none =>
    cases waiting with
    | nil => exact unchanged
    | cons request waiting =>
      cases request with
      | claim token =>
        simp only [enter]
        obtain ⟨outcome, same, processed⟩ | ⟨decided, taken⟩ :=
          claimLivenessOwnership_cases ⟨session, waiting, none⟩ token reading
        · rw [same]
          refine .refused _ _ ?_ (fun busy => absurd rfl busy)
          intro other member
          simp only [mem_singleton, Answer.mk.injEq, Request.claim.injEq] at member
          rw [member.1]
          exact processed member.2.symm
        · rw [taken]
          exact .taken token rfl decided
      | release token =>
        simp only [enter]
        obtain ⟨outcome, same⟩ | ⟨owner, released⟩ :=
          releaseLivenessOwnership_cases ⟨session, waiting, none⟩ token reading
        · rw [same]
          exact .refused _ _ (by simp) (fun busy => absurd rfl busy)
        · rw [released]
          exact .released token rfl owner
      | persistAdopted =>
        simp only [enter]
        split
        · exact .persisting rfl
        · exact .refused _ _ (by simp) (fun busy => absurd rfl busy)

theorem owner_of_enter (before : world.session.livenessOwnerToken ≠ some token)
    (after : (step world (.enter, reading)).1.session.livenessOwnerToken = some token) :
    decideLivenessClaim token (reading.view world.session)
      (token ∈ world.session.livenessOwnershipClaims) reading.baseView = .claimed := by
  have shape := entered world reading
  simp only [step] at after
  cases shape' : enter world reading with
  | mk afterWorld answers =>
    rw [shape'] at shape after
    cases shape with
    | refused waiting answers processed busy => exact absurd after before
    | taken other free decided =>
      have same : other = token := by
        simpa [takeLivenessOwnership, markAcceptedClaimantHeartbeating] using after
      rw [← same]
      exact decided
    | released other free owner => simp [releasedSession] at after
    | persisting free => exact absurd after before

end Claims

section Processed

variable {world : World Token}

/-- A token that was told `claimed` stays among the processed claims. -/
structure Processed (world : World Token) (past : List (Answer Token)) : Prop where
  kept : ∀ token, ⟨.claim token, .claimed⟩ ∈ past → token ∈ world.session.livenessOwnershipClaims
  pending : ∀ token alreadyProcessed owner heartbeat boundAt heard ownership generation,
    world.writing = some (.claim token alreadyProcessed owner heartbeat boundAt heard ownership
      generation) →
    token ∈ world.session.livenessOwnershipClaims ∧
      (⟨.claim token, .claimed⟩ ∈ past → alreadyProcessed = true)

omit [DecidableEq Token] in
theorem Processed.start (session : Session Token) : Processed { session := session } [] :=
  { kept := by simp
    pending := by simp }

variable {past : List (Answer Token)}

theorem Processed.enter (processed : Processed world past) (reading : Reading Token) :
    Processed (enter world reading).1 (past ++ (enter world reading).2) := by
  have shape := entered world reading
  generalize AutoMobile.LivenessLease.enter world reading = after at shape ⊢
  cases shape with
  | refused waiting answers known busy =>
    refine ⟨fun token member => ?_, ?_⟩
    · obtain member | member := mem_append.mp member
      · exact processed.kept token member
      · exact known token member
    · intro token already owner heartbeat boundAt heard ownership generation writing
      dsimp only at writing
      rw [busy (by rw [writing]; simp), append_nil]
      exact processed.pending token already owner heartbeat boundAt heard ownership generation
        writing
  | taken token free decided =>
    simp only [append_nil]
    refine ⟨fun other member => Finset.mem_insert_of_mem (processed.kept other member), ?_⟩
    intro other already owner heartbeat boundAt heard ownership generation writing
    simp only [takeLivenessOwnership, Option.some.injEq, Write.claim.injEq] at writing
    obtain ⟨rfl, rfl, _⟩ := writing
    refine ⟨Finset.mem_insert_self _ _, fun answered => ?_⟩
    simpa using processed.kept token answered
  | released token free owner =>
    simp only [append_nil]
    refine ⟨fun other member => Finset.mem_insert_of_mem (processed.kept other member), ?_⟩
    intro other already owner heartbeat boundAt heard ownership generation writing
    simp at writing
  | persisting free =>
    simp only [append_nil]
    refine ⟨processed.kept, ?_⟩
    intro other already owner heartbeat boundAt heard ownership generation writing
    simp at writing

omit [DecidableEq Token] in
@[simp] theorem settleClaimantHeartbeat_claims (session : Session Token) (undo heard : Bool)
    (ownership : Ownership) (generation : Nat) :
    (settleClaimantHeartbeat session undo heard ownership generation).livenessOwnershipClaims =
      session.livenessOwnershipClaims := by
  unfold settleClaimantHeartbeat
  split
  · rfl
  · split
    · rfl
    · rfl

theorem Processed.settle (processed : Processed world past) (ok admitted : Bool) :
    Processed (settle world ok admitted).1 (past ++ (settle world ok admitted).2) := by
  obtain ⟨session, waiting, writing⟩ := world
  have free : ∀ (after : Session Token) (answers : List (Answer Token)),
      (∀ token, ⟨.claim token, .claimed⟩ ∈ past ++ answers →
        token ∈ after.livenessOwnershipClaims) →
      Processed ⟨after, waiting, none⟩ (past ++ answers) := fun after answers kept =>
    { kept := kept
      pending := by simp }
  cases writing with
  | none => simpa [AutoMobile.LivenessLease.settle] using processed
  | some write =>
    cases write with
    | persistAdopted =>
      apply free
      simpa [LivenessLease.settle] using processed.kept
    | release ownerToken previousOwnerBoundAt =>
      have kept := processed.kept
      cases ok with
      | true =>
        apply free
        intro token member
        exact kept token (by simpa [LivenessLease.settle] using member)
      | false =>
        apply free
        intro token member
        exact kept token (by simpa [LivenessLease.settle] using member)
    | claim ownerToken already owner heartbeat boundAt heard ownership generation =>
      obtain ⟨member, told⟩ := processed.pending ownerToken already _ _ _ _ _ _ rfl
      cases ok with
      | true =>
        apply free
        intro token answered
        rw [settleClaimantHeartbeat_claims]
        obtain answered | answered := mem_append.mp answered
        · exact processed.kept token answered
        · have same : token = ownerToken := by simpa [LivenessLease.settle] using answered
          rw [same]
          exact member
      | false =>
        apply free
        intro token member
        have answered : ⟨.claim token, .claimed⟩ ∈ past := by
          obtain answered | answered := mem_append.mp member
          · exact answered
          · cases admitted with
            | true => simp [LivenessLease.settle] at answered
            | false => simp [LivenessLease.settle] at answered
        have kept := processed.kept token answered
        by_cases same : token = ownerToken
        · subst same
          simp [told answered]
        · cases already with
          | true => simpa [same] using kept
          | false => simpa [same] using kept

theorem Processed.next (processed : Processed world past) (event : Event Token × Reading Token) :
    Processed (step world event).1 (past ++ (step world event).2) := by
  by_cases between : Between event
  · obtain ⟨touched, writing, refused⟩ := step_between world event between
    have claims := touched.claims
    have told : ∀ token, ⟨.claim token, .claimed⟩ ∈ past ++ (step world event).2 →
        ⟨.claim token, .claimed⟩ ∈ past := by
      intro token member
      obtain member | member := mem_append.mp member
      · exact member
      · exact absurd (refused _ member) (by simp)
    refine ⟨fun token member => ?_, ?_⟩
    · rw [claims]
      exact processed.kept token (told token member)
    · intro token already owner heartbeat boundAt heard ownership generation write
      rw [writing] at write
      obtain ⟨member, answered⟩ := processed.pending token already _ _ _ _ _ _ write
      rw [claims]
      exact ⟨member, fun again => answered (told token again)⟩
  · obtain ⟨event, reading⟩ := event
    cases event with
    | enter => exact processed.enter reading
    | settle ok => exact processed.settle ok reading.admitted
    | _ => exact absurd trivial between

theorem Processed.run (session : Session Token) (events : List (Event Token × Reading Token)) :
    Processed (run step { session := session } events).1
      (run step { session := session } events).2 := by
  have meets : Meets step (fun _ _ => True) { session := session } events :=
    Meets.of_forall step (fun _ _ _ => trivial) { session := session }
  exact Meets.invariant step Processed (fun _ event _ holds _ => holds.next event) []
    (Processed.start session) meets

end Processed

section FailedClaim

variable {world : World Token} {ownerToken : Token} {taken : Session Token}

theorem settle_failed (claiming : Claiming ownerToken taken world) (admitted : Bool) :
    (settle world false admitted).1.session = { settleClaimantHeartbeat { world.session with
          livenessOwnershipClaims := taken.livenessOwnershipClaims
          livenessOwnerToken := taken.livenessOwnerToken
          lastOwnerHeartbeat := taken.lastOwnerHeartbeat
          livenessOwnerBoundAt := taken.livenessOwnerBoundAt }
        true taken.hasReceivedHeartbeat taken.ownership taken.activityGeneration with
        livenessOwnershipClaims := taken.livenessOwnershipClaims } := by
  have claims : (if ownerToken ∈ taken.livenessOwnershipClaims then
      insert ownerToken ((insert ownerToken taken.livenessOwnershipClaims).erase ownerToken)
      else (insert ownerToken taken.livenessOwnershipClaims).erase ownerToken) =
      taken.livenessOwnershipClaims := by
    split
    next processed => rw [Finset.erase_insert_eq_erase, Finset.insert_erase processed]
    next fresh => exact Finset.erase_insert fresh
  simp only [settle, claiming.writing, claiming.claims, Bool.false_eq_true, if_false,
    settleClaimantHeartbeat, decide_eq_true_eq]
  split
  · simp only [claims]
  · split
    · simp only [claims]
    · simp only [claims]

/-- The undo of a failed claim puts back what the claim found, and no recorded activity. -/
theorem failed_quiet (claiming : Claiming ownerToken taken world)
    (quiet : world.session.activityGeneration = taken.activityGeneration) (admitted : Bool) :
    (settle world false admitted).1.session = { world.session with
        livenessOwnershipClaims := taken.livenessOwnershipClaims
        livenessOwnerToken := taken.livenessOwnerToken
        lastOwnerHeartbeat := taken.lastOwnerHeartbeat
        livenessOwnerBoundAt := taken.livenessOwnerBoundAt
        hasReceivedHeartbeat := taken.hasReceivedHeartbeat
        ownership := taken.ownership } := by
  rw [settle_failed claiming]
  simp only [settleClaimantHeartbeat, quiet, and_self, if_true]

theorem failed_owner (claiming : Claiming ownerToken taken world) (admitted : Bool) :
    (settle world false admitted).1.session.livenessOwnerToken = taken.livenessOwnerToken ∧
      (settle world false admitted).1.session.livenessOwnershipClaims =
        taken.livenessOwnershipClaims := by
  rw [settle_failed claiming]
  refine ⟨?_, rfl⟩
  simp only [settleClaimantHeartbeat]
  split
  · rfl
  · split
    · rfl
    · rfl

/-- What was heard while the write was pending stands. -/
theorem failed_heard (claiming : Claiming ownerToken taken world)
    (active : world.session.activityGeneration ≠ taken.activityGeneration) (admitted : Bool) :
    let after := (settle world false admitted).1.session
    after.hasReceivedHeartbeat = true ∧ after.ownership = .owned ∧
      (taken.ownership = .awaitingOwner → after.awaitingOwnerSince = none) := by
  rw [settle_failed claiming]
  unfold settleClaimantHeartbeat
  rw [if_neg (fun undone => active undone.2)]
  by_cases awaiting : taken.ownership = .awaitingOwner
  · rw [if_pos ⟨awaiting, claiming.owned⟩]
    exact ⟨claiming.heard, claiming.owned, fun _ => rfl⟩
  · rw [if_neg (fun promoted => awaiting promoted.1)]
    exact ⟨claiming.heard, claiming.owned, fun again => absurd again awaiting⟩

def ToolCallEnded (event : Event Token × Reading Token) : Prop :=
  match event.1 with
  | .toolCallEnded => True
  | _ => False

/-- An event that may move a lease start: the end of an owner's call, or a stall. -/
def MovesLease (event : Event Token × Reading Token) : Prop :=
  match event.1 with
  | .ownerCallEnded _ | .stall _ => True
  | _ => False

variable {event : Event Token × Reading Token} {events : List (Event Token × Reading Token)}

theorem Quiet.between {session : Session Token} (quiet : Quiet session event) : Between event := by
  obtain ⟨event, reading⟩ := event
  cases event with
  | enter => exact quiet.elim
  | settle ok => exact quiet.elim
  | _ => trivial

theorem Quiet.of_sameOwner {before after : Session Token} (quiet : Quiet before event)
    (same : SameOwner before after) : Quiet after event := by
  simpa only [Quiet, isTokenOwnedOrClaimPending, same.owner, same.claims] using quiet

/-- How an event moves the window of a session that waits for its owner. -/
def quietWindow (policy : SessionLivenessPolicy) (event : Event Token × Reading Token)
    (window : Option Int) : Option Int :=
  match event.1 with
  | .stall gap => if event.2.found then stalledWindow policy gap window else window
  | _ => window

/-- A session keeps its owner through quiet events, and its bind instant unless it is held by its
mint. -/
theorem Touched.quiet {session after : Session Token} (touched : Touched session event after)
    (quiet : Quiet session event ∨ ToolCallEnded event) : SameOwner session after ∧
      after.awaitingOwnerSince =
        quietWindow session.livenessPolicy event session.awaitingOwnerSince ∧
      (mintBoundClaimLease session = none →
        after.livenessOwnerBoundAt = session.livenessOwnerBoundAt) ∧
      (Quiet session event → after.activityGeneration = session.activityGeneration ∧
        (¬ MovesLease event → after = session)) := by
  cases touched with
  | still event unmoved =>
    refine ⟨.refl _, ?_, fun _ => rfl, fun _ => ⟨rfl, fun _ => rfl⟩⟩
    obtain ⟨event, reading⟩ := event
    cases event with
    | stall gap => simp [quietWindow, show reading.found = false from unmoved gap rfl]
    | _ => rfl
  | heard token reading noticed => exact (quiet.elim noticed fun called => called).elim
  | adopted token reading unowned =>
    obtain quiet | called := quiet
    · exact absurd quiet.1 (by simp [unowned])
    · exact called.elim
  | bound token reading unowned =>
    obtain quiet | called := quiet
    · exact absurd (show isTokenOwnedOrClaimPending _ = true from quiet) (by simp [unowned])
    · exact called.elim
  | called => exact ⟨⟨rfl, rfl, rfl, rfl, rfl, rfl⟩, rfl, fun _ => rfl, fun quiet => quiet.elim⟩
  | restarted token reading =>
    obtain ⟨boundAt, restarted⟩ := restart_eq session token reading.now
    refine ⟨?_, ?_, fun unbound => by rw [restart_of_unbound unbound],
      fun _ => ⟨?_, fun calm => absurd trivial calm⟩⟩
    all_goals rw [restarted]
    · exact ⟨rfl, rfl, rfl, rfl, rfl, rfl⟩
    · rfl
  | stalled gap reading found =>
    exact ⟨forgiveDaemonStall_sameOwner _ gap, by simp [quietWindow, found],
      forgiveDaemonStall_boundAt gap, fun _ => ⟨by simp, fun calm => absurd trivial calm⟩⟩

theorem Quiet.between_or {session : Session Token}
    (quiet : Quiet session event ∨ ToolCallEnded event) : Between event := by
  obtain ⟨event, reading⟩ := event
  cases event with
  | enter | settle ok => exact (quiet.elim id id).elim
  | _ => trivial

theorem quiet_run (quiet : ∀ event ∈ events, Quiet world.session event ∨ ToolCallEnded event) :
    SameOwner world.session (run step world events).1.session ∧
      (run step world events).1.session.awaitingOwnerSince =
        events.foldl (fun window event => quietWindow world.session.livenessPolicy event window)
          world.session.awaitingOwnerSince ∧
      (mintBoundClaimLease world.session = none →
        (run step world events).1.session.livenessOwnerBoundAt =
          world.session.livenessOwnerBoundAt) ∧
      ((∀ event ∈ events, Quiet world.session event) →
        (run step world events).1.session.activityGeneration =
          world.session.activityGeneration ∧
        ((∀ event ∈ events, ¬ MovesLease event) →
          (run step world events).1.session = world.session)) := by
  induction events generalizing world with
  | nil => exact ⟨.refl _, rfl, fun _ => rfl, fun _ => ⟨rfl, fun _ => rfl⟩⟩
  | cons event events ih =>
    have now := quiet event (by simp)
    obtain ⟨one, window, bound, silent⟩ :=
      (step_between world event (Quiet.between_or now)).1.quiet now
    obtain ⟨rest, moved, kept, silence⟩ := @ih (step world event).1 fun later member =>
      (quiet later (by simp [member])).imp_left (·.of_sameOwner one)
    rw [run_cons]
    refine ⟨one.trans rest, ?_, fun unbound => ?_, fun calm => ?_⟩
    · rw [foldl_cons, ← window, ← one.policy]
      exact moved
    · refine (kept ?_).trans (bound unbound)
      simpa only [mintBoundClaimLease, one.owner, one.stamp, bound unbound] using unbound
    · obtain ⟨generation, same⟩ := silent (calm event (by simp))
      obtain ⟨later, sames⟩ := silence fun later member =>
        (calm later (by simp [member])).of_sameOwner one
      refine ⟨later.trans generation, fun unmoved => ?_⟩
      exact (sames fun other member => unmoved other (by simp [member])).trans
        (same (unmoved event (by simp)))

end FailedClaim

section FailedWrites

variable {world : World Token} {token : Token} {reading : Reading Token}
  {events : List (Event Token × Reading Token)}

/-- Two sessions have the same owner, the same stamp of its last heartbeat and the same flags. -/
structure SameLiveness (spared after : Session Token) : Prop where
  owner : after.livenessOwnerToken = spared.livenessOwnerToken
  stamp : after.lastOwnerHeartbeat = spared.lastOwnerHeartbeat
  heard : after.hasReceivedHeartbeat = spared.hasReceivedHeartbeat
  ownership : after.ownership = spared.ownership
  window : after.awaitingOwnerSince = spared.awaitingOwnerSince

theorem pendingClaim_enter (free : world.writing = none)
    (pending : (step world (.enter, reading)).1.pendingClaim = some token) :
    (step world (.enter, reading)).1 = takeLivenessOwnership world.spared token reading.now := by
  have shape := entered world reading
  simp only [step] at pending ⊢
  generalize enter world reading = after at shape pending ⊢
  cases shape with
  | refused waiting answers processed busy => simp [World.pendingClaim, free] at pending
  | taken other free decided =>
    have same : other = token := by simpa [World.pendingClaim, takeLivenessOwnership] using pending
    rw [same]
    rfl
  | released other free owner => simp [World.pendingClaim] at pending
  | persisting free => simp [World.pendingClaim] at pending

theorem pendingRelease_enter (free : world.writing = none)
    (pending : (step world (.enter, reading)).1.pendingRelease = some token) :
    world.session.livenessOwnerToken = some token ∧
      (step world (.enter, reading)).1 = world.spared.releasing token := by
  have shape := entered world reading
  simp only [step] at pending ⊢
  generalize enter world reading = after at shape pending ⊢
  cases shape with
  | refused waiting answers processed busy => simp [World.pendingRelease, free] at pending
  | taken other free decided => simp [World.pendingRelease, takeLivenessOwnership] at pending
  | released other free owner =>
    have same : other = token := by simpa [World.pendingRelease] using pending
    rw [← same]
    exact ⟨owner, rfl⟩
  | persisting free => simp [World.pendingRelease] at pending

/-- A failed claim, with nothing in between that either world takes notice of. -/
theorem failed_claim_spared (world : World Token) (token : Token) (now : Int) (admitted : Bool)
    (quiet : ∀ event ∈ events,
      Quiet (takeLivenessOwnership world token now).session event ∧ Quiet world.session event) :
    let pending := (run step (takeLivenessOwnership world token now) events).1
    let spared := (run step world events).1.session
    let after := (settle pending false admitted).1.session
    SameLiveness spared after ∧ after.livenessOwnershipClaims = spared.livenessOwnershipClaims ∧
      (mintBoundClaimLease world.session = none →
        after.livenessOwnerBoundAt = spared.livenessOwnerBoundAt) ∧
      ((∀ event ∈ events, ¬ MovesLease event) → after = spared) := by
  intro pending spared after
  have claiming : Claiming token world.session pending :=
    (claiming_take now).run fun event member => (quiet event member).1.between
  have alike : ∀ event ∈ events, Quiet world.session event := fun event member =>
    (quiet event member).2
  obtain ⟨taken, moved, _, silent⟩ :=
    @quiet_run _ _ (takeLivenessOwnership world token now) events fun event member =>
      Or.inl (quiet event member).1
  obtain ⟨same, window, bound, still⟩ := quiet_run fun event member => Or.inl (alike event member)
  obtain ⟨generation, untouched⟩ := silent fun event member => (quiet event member).1
  have undone : after = _ := failed_quiet claiming generation admitted
  rw [undone]
  refine ⟨⟨same.owner.symm, same.stamp.symm, same.heard.symm, same.ownership.symm,
    moved.trans window.symm⟩, same.claims.symm, fun unbound => (bound unbound).symm, fun calm => ?_⟩
  have kept : spared = world.session := (still alike).2 calm
  rw [kept, show pending.session = _ from untouched calm]
  rfl

/-- A release that awaits its write leaves a session that takes notice of no heartbeat. -/
theorem released_quiet (session : Session Token) (event : Event Token × Reading Token)
    (between : Between event) :
    Quiet (releasedSession session token) event ∨ ToolCallEnded event := by
  have pending : isTokenOwnedOrClaimPending (releasedSession session token) = true := by
    simp [isTokenOwnedOrClaimPending, releasedSession]
  obtain ⟨event, reading⟩ := event
  cases event with
  | enter => exact between.elim
  | settle ok => exact between.elim
  | toolCallEnded => exact Or.inr trivial
  | heartbeat claimant =>
    left
    cases claimant with
    | none => exact pending
    | some claimant => exact ⟨pending, by simp [releasedSession]⟩
  | bind claimant => exact Or.inl pending
  | _ => exact Or.inl trivial

theorem run_writing {events : List (Event Token × Reading Token)}
    (between : ∀ event ∈ events, Between event) :
    (run step world events).1.writing = world.writing := by
  induction events generalizing world with
  | nil => rfl
  | cons event events ih =>
    rw [run_cons]
    exact (ih fun later member => between later (by simp [member])).trans
      (step_between world event (between event (by simp))).2.1

/-- A failed release puts back the owner and its bind instant, whatever came in between. -/
theorem failed_release (world : World Token) (token : Token)
    (between : ∀ event ∈ events, Between event) (admitted : Bool) :
    let pending := (run step (world.releasing token) events).1
    let after := (settle pending false admitted).1.session
    after = { pending.session with
        livenessOwnerToken := some token
        livenessOwnerBoundAt := world.session.livenessOwnerBoundAt } ∧
      SameOwner (releasedSession world.session token) pending.session := by
  intro pending after
  have writing : pending.writing = some (.release token world.session.livenessOwnerBoundAt) :=
    run_writing between
  refine ⟨?_, (@quiet_run _ _ (world.releasing token) events fun event member =>
    released_quiet world.session event (between event member)).1⟩
  simp only [after, settle, writing, Bool.false_eq_true, if_false]

/-- A failed release, with no heartbeat in between that the owner would have been heard by. -/
theorem failed_release_spared (world : World Token)
    (owner : world.session.livenessOwnerToken = some token)
    (quiet : ∀ event ∈ events, Quiet world.session event ∨ ToolCallEnded event)
    (admitted : Bool) :
    let pending := (run step (world.releasing token) events).1
    let spared := (run step world events).1.session
    let after := (settle pending false admitted).1.session
    SameLiveness spared after ∧ (token ∈ world.session.livenessOwnershipClaims →
        after.livenessOwnershipClaims = spared.livenessOwnershipClaims) ∧
      (mintBoundClaimLease world.session = none →
        after.livenessOwnerBoundAt = spared.livenessOwnerBoundAt) := by
  intro pending spared after
  have between : ∀ event ∈ events, Between event := fun event member =>
    Quiet.between_or (quiet event member)
  obtain ⟨restored, same⟩ := failed_release world token between admitted
  obtain ⟨_, moved, _⟩ := @quiet_run _ _ (world.releasing token) events fun event member =>
    released_quiet world.session event (between event member)
  obtain ⟨kept, window, bound, _⟩ := quiet_run quiet
  rw [show after = _ from restored]
  refine ⟨⟨?_, ?_, ?_, ?_, moved.trans window.symm⟩, fun processed => ?_,
    fun unbound => (bound unbound).symm⟩
  · rw [kept.owner, owner]
  · exact same.stamp.trans kept.stamp.symm
  · exact same.heard.trans kept.heard.symm
  · exact same.ownership.trans kept.ownership.symm
  · rw [kept.claims]
    exact same.claims.trans (Finset.insert_eq_of_mem processed)

end FailedWrites

section Ownership

variable {world : World Token} {reading : Reading Token} {token : Token}

/-- Who may become the owner at an entry of the mutex. -/
theorem claim_takes (before : world.session.livenessOwnerToken ≠ some token)
    (after : (step world (.enter, reading)).1.session.livenessOwnerToken = some token) :
    (∀ other, (reading.view world.session).holder = some other → reading.baseHolder = some token) ∧
      ∀ other, other ≠ token → reading.baseHolder ≠ some other := by
  have foreign : (reading.view world.session).ownerToken ≠ some token := before
  obtain onBase | ⟨_, unheld, baseUnheld⟩ :=
    decide_claimed_of_other foreign (owner_of_enter before after)
  · have holds : reading.baseHolder = some token := onBase
    refine ⟨fun _ _ => holds, fun other distinct otherHolds => distinct ?_⟩
    exact (Option.some.inj (holds.symm.trans otherHolds)).symm
  · have nobody : reading.baseHolder = none := baseUnheld
    refine ⟨fun other held => ?_, fun other _ held => ?_⟩
    · rw [unheld] at held
      contradiction
    · rw [nobody] at held
      contradiction

/-- A token among the processed claims takes nothing from another owner. -/
theorem displaced_stays {owner : Token} (owned : world.session.livenessOwnerToken = some owner)
    (distinct : owner ≠ token) (processed : token ∈ world.session.livenessOwnershipClaims)
    (offBase : reading.baseHolder ≠ some token) :
    (step world (.enter, reading)).1.session.livenessOwnerToken ≠ some token := by
  intro after
  have before : world.session.livenessOwnerToken ≠ some token := by
    rw [owned]
    exact fun same => distinct (Option.some.inj same)
  obtain onBase | ⟨fresh, _, _⟩ := decide_claimed_of_other before (owner_of_enter before after)
  · exact offBase onBase
  · simp [owned, processed] at fresh

/-- A claim makes its token the owner only past nobody's hold but its own base's; a token that was
told `claimed` takes nothing from a later owner, off its base; a failed claim restores the owner
and the processed claims, and the lease start and flags as far as nothing was recorded in between;
a failed release restores the owner, its lease start and its flags. -/
theorem liveness_ownership (world : World Token) (reading : Reading Token) (token : Token) :
    (world.session.livenessOwnerToken ≠ some token →
      (step world (.enter, reading)).1.session.livenessOwnerToken = some token →
      (∀ other, (reading.view world.session).holder = some other →
        reading.baseHolder = some token) ∧
        ∀ other, other ≠ token → reading.baseHolder ≠ some other) ∧
    (∀ session events later owner,
      ⟨.claim token, .claimed⟩ ∈ (run step { session := session } events).2 →
      let reached := (run step { session := session } (events ++ later)).1
      reached.session.livenessOwnerToken = some owner → owner ≠ token →
      reading.baseHolder ≠ some token →
      (step reached (.enter, reading)).1.session.livenessOwnerToken ≠ some token) ∧
    (∀ events settled, world.writing = none → (∀ event ∈ events, Between event) →
      let begun := (step world (.enter, reading)).1
      let pending := (run step begun events).1
      let spared := (run step world.spared events).1.session
      let after := (step pending (.settle false, settled)).1.session
      (begun.pendingClaim = some token →
        after.livenessOwnerToken = world.session.livenessOwnerToken ∧
        after.livenessOwnershipClaims = world.session.livenessOwnershipClaims ∧
        (pending.session.activityGeneration ≠ world.session.activityGeneration →
          after.hasReceivedHeartbeat = true ∧ after.ownership = .owned ∧
            (world.session.ownership = .awaitingOwner → after.awaitingOwnerSince = none)) ∧
        ((∀ event ∈ events, Quiet begun.session event ∧ Quiet world.session event) →
          SameLiveness spared after ∧
          after.livenessOwnershipClaims = spared.livenessOwnershipClaims ∧
          (mintBoundClaimLease world.session = none →
            after.livenessOwnerBoundAt = spared.livenessOwnerBoundAt) ∧
          ((∀ event ∈ events, ¬ MovesLease event) → after = spared))) ∧
      (begun.pendingRelease = some token →
        after.livenessOwnerToken = world.session.livenessOwnerToken ∧
        after.livenessOwnerBoundAt = world.session.livenessOwnerBoundAt ∧
        after.lastOwnerHeartbeat = world.session.lastOwnerHeartbeat ∧
        after.hasReceivedHeartbeat = world.session.hasReceivedHeartbeat ∧
        after.ownership = world.session.ownership ∧
        ((∀ event ∈ events, Quiet world.session event ∨ ToolCallEnded event) →
          SameLiveness spared after ∧
          (token ∈ world.session.livenessOwnershipClaims →
            after.livenessOwnershipClaims = spared.livenessOwnershipClaims) ∧
          (mintBoundClaimLease world.session = none →
            after.livenessOwnerBoundAt = spared.livenessOwnerBoundAt)))) := by
  refine ⟨claim_takes, ?_, ?_⟩
  · intro session events later owner told reached owned distinct offBase
    apply displaced_stays owned distinct _ offBase
    apply (Processed.run session (events ++ later)).kept
    rw [run_append]
    exact mem_append_left _ told
  · intro events settled free between begun pending spared after
    refine ⟨fun claims => ?_, fun releases => ?_⟩
    · have taken : begun = takeLivenessOwnership world.spared token reading.now :=
        pendingClaim_enter free claims
      have claiming : Claiming token world.session pending := by
        refine Claiming.run ?_ between
        rw [taken]
        exact @claiming_take _ _ token world.spared reading.now
      obtain ⟨owner, processed⟩ := failed_owner claiming settled.admitted
      refine ⟨owner, processed, fun active => failed_heard claiming active settled.admitted, ?_⟩
      intro quiet
      have restored := failed_claim_spared world.spared token reading.now settled.admitted
        (by rw [← taken]; exact quiet)
      rw [← taken] at restored
      exact restored
    · obtain ⟨owner, released⟩ := pendingRelease_enter free releases
      obtain ⟨undone, same⟩ := failed_release world.spared token between settled.admitted
      have restored : after =
          (settle (run step (world.spared.releasing token) events).1 false
            settled.admitted).1.session := by
        simp only [after, pending, begun, released]
        rfl
      have unmade : after = _ := restored.trans undone
      refine ⟨?_, ?_, ?_, ?_, ?_, fun quiet => ?_⟩
      · rw [unmade, owner]
      · rw [unmade]
        rfl
      · rw [unmade]
        exact same.stamp
      · rw [unmade]
        exact same.heard
      · rw [unmade]
        exact same.ownership
      · rw [restored]
        exact failed_release_spared world.spared owner quiet settled.admitted

/-- A session that its minter has not been heard from, with a successor's claim in the queue. -/
def mintedWorld : World String :=
  { session :=
      { livenessOwnerToken := some "minter"
        livenessOwnerBoundAt := some 1000
        lastUsedAt := 1000
        expiresAt := 61000
        lastHeartbeat := 1000
        sessionTimeoutMs := 60000
        heartbeatTimeoutMs := 4000 }
    waiting := [.claim "successor"] }

/-- While the successor's write is pending another client's heartbeat and a stall come and go. -/
theorem liveness_ownership_minted : let reading : Reading String := { now := 12000 }
    let events : List (Event String × Reading String) :=
      [(.heartbeat (some "stranger"), reading), (.claim "stranger", reading)]
    let after := (step (run step (step mintedWorld (.enter, reading)).1 events).1
      (.settle false, reading)).1.session
    after = (run step mintedWorld.spared events).1.session := by
  intro reading events after
  have whole := (liveness_ownership mintedWorld reading "successor").2.2 events reading (by decide)
    (by simp [events, Between])
  have claimed := (whole.1 (by decide)).2.2.2
  refine (claimed ?_).2.2.2 (by simp [events, MovesLease])
  intro event member
  simp only [events, mem_cons, not_mem_nil, or_false] at member
  obtain rfl | rfl := member
  · constructor
    · simp only [Quiet]
      decide
    · simp only [Quiet]
      decide
  · exact ⟨trivial, trivial⟩

/-- The claimant is heard while its write is pending, and the failure of the write leaves the
session heard, which it would not be without the claim. -/
theorem failed_claim_stays_heard : let reading : Reading String := { now := 12000 }
    let events : List (Event String × Reading String) := [(.heartbeat (some "successor"), reading)]
    let begun := (step mintedWorld (.enter, reading)).1
    let after := (step (run step begun events).1 (.settle false, reading)).1.session
    begun.pendingClaim = some "successor" ∧ after.livenessOwnerToken = some "minter" ∧
      after.hasReceivedHeartbeat = true ∧
      (run step mintedWorld.spared events).1.session.hasReceivedHeartbeat = false := by
  decide

end Ownership

end AutoMobile.LivenessLease
