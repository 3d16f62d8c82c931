import AutoMobile.Runs
import Mathlib.Data.Finset.Insert
import Mathlib.Data.Finset.Erase

/- The liveness owner of one session: its lease, the decision on a claim, and the claims, releases
and adoptions whose row writes settle later under the session's mutex. -/
namespace AutoMobile.LivenessLease

inductive SessionLivenessPolicy where
  | heartbeat
  | cliIdle
  | managedExecution
deriving DecidableEq, Repr

inductive Ownership where
  | owned
  | awaitingOwner
deriving DecidableEq, Repr

/-- The slice of a session that its liveness reads and writes. -/
structure Session (Token : Type) where
  livenessOwnerToken : Option Token := none
  /-- Absent and empty are the same to every reader. -/
  livenessOwnershipClaims : Finset Token := ∅
  lastUsedAt : Int
  activityGeneration : Nat := 0
  expiresAt : Int
  lastHeartbeat : Int
  lastOwnerHeartbeat : Option Int := none
  livenessOwnerBoundAt : Option Int := none
  stallForgivenAt : Option Int := none
  idleStallForgivenAt : Option Int := none
  sessionTimeoutMs : Int
  heartbeatTimeoutMs : Int
  hasReceivedHeartbeat : Bool := false
  ownership : Ownership := .owned
  awaitingOwnerSince : Option Int := none
  livenessPolicy : SessionLivenessPolicy := .heartbeat
  /-- The connected owner's stall credit, with the heartbeat it is counted from. -/
  budget : Option (Int × Int) := none
deriving DecidableEq

variable {Token : Type} [DecidableEq Token]

def SUSPECT_GRACE_MS : Int := 4000

def MAX_CREDIBLE_DAEMON_STALL_MS : Int := 30000

def STARVATION_CONNECTED_OWNER_CREDIT_CAP_MS : Int := 600000

/-- The later of an instant and one that may be absent. -/
def laterOf (instant : Int) (other : Option Int) : Int :=
  match other with
  | some other => max instant other
  | none => instant

section Lease

inductive LivenessLeasePhase where
  | live
  | suspect
  | lapsed
deriving DecidableEq, Repr

structure LivenessOwnerLeaseSnapshot where
  now : Int
  lastHeartbeat : Int
  heartbeatTimeoutMs : Int
  livenessPolicy : SessionLivenessPolicy
  graceMs : Int := 0

structure LivenessLeaseState where
  phase : LivenessLeasePhase
  remainingMs : Int
deriving DecidableEq, Repr

def livenessLeaseState (snapshot : LivenessOwnerLeaseSnapshot) : LivenessLeaseState :=
  let age := snapshot.now - snapshot.lastHeartbeat
  let graceEnd := snapshot.heartbeatTimeoutMs + snapshot.graceMs
  if age ≤ snapshot.heartbeatTimeoutMs then ⟨.live, snapshot.heartbeatTimeoutMs - age⟩
  else if age ≤ graceEnd then ⟨.suspect, graceEnd - age⟩
  else ⟨.lapsed, 0⟩

def holdsOwnerHeartbeatLease (policy : SessionLivenessPolicy) : Bool :=
  policy = .heartbeat || policy = .managedExecution

def leaseRunningAt (lastHeartbeat leaseMs instant : Int) : Bool := instant - lastHeartbeat ≤ leaseMs

def forgivenLeaseStart (leaseStart resumedAt leaseLostMs : Int) : Int :=
  max leaseStart (min resumedAt (leaseStart + leaseLostMs))

def effectiveLastHeartbeat (session : Session Token) : Int :=
  laterOf session.lastHeartbeat session.stallForgivenAt

def ownerLeaseHeartbeat (session : Session Token) : Int :=
  laterOf (session.lastOwnerHeartbeat.getD session.lastHeartbeat) session.stallForgivenAt

/-- The bind instant of a minted token whose owner has not proved its liveness. -/
def mintBoundClaimLease (session : Session Token) : Option Int :=
  if session.livenessOwnerToken.isSome ∧ session.lastOwnerHeartbeat = none then
    session.livenessOwnerBoundAt
  else none

def judgesOwnerHeartbeats (session : Session Token) : Bool :=
  session.livenessOwnerToken.isSome && session.hasReceivedHeartbeat

def judgedLeaseHeartbeat (session : Session Token) : Int :=
  if judgesOwnerHeartbeats session then ownerLeaseHeartbeat session
  else effectiveLastHeartbeat session

def ownerLeaseLiveAt (session : Session Token) (instant : Option Int) : Bool :=
  match instant with
  | none => true
  | some instant =>
    if session.ownership ≠ .owned then true
    else
      let lastHeartbeat :=
        if judgesOwnerHeartbeats session then
          session.lastOwnerHeartbeat.getD session.lastHeartbeat
        else session.lastHeartbeat
      leaseRunningAt lastHeartbeat session.heartbeatTimeoutMs instant

def suspectGraceMsFor (session : Session Token) : Int :=
  if holdsOwnerHeartbeatLease session.livenessPolicy && session.hasReceivedHeartbeat &&
      session.ownership = .owned then SUSPECT_GRACE_MS
  else 0

/-- The snapshot the claim path judges. -/
def sessionOwnerLeaseSnapshot (session : Session Token) (now : Int) (ownerCallInFlight : Bool) :
    LivenessOwnerLeaseSnapshot :=
  { now := now
    heartbeatTimeoutMs := session.heartbeatTimeoutMs
    livenessPolicy := session.livenessPolicy
    lastHeartbeat :=
      match mintBoundClaimLease session with
      | some boundAt => if ownerCallInFlight then now else boundAt
      | none => ownerLeaseHeartbeat session
    graceMs :=
      if (mintBoundClaimLease session).isSome &&
          holdsOwnerHeartbeatLease session.livenessPolicy && session.ownership = .owned then
        SUSPECT_GRACE_MS
      else suspectGraceMsFor session }

/-- An owner as a claim sees it: no phase is no hold. -/
structure LivenessOwnerView (Token : Type) where
  ownerToken : Option Token
  hold : Option LivenessLeasePhase

def livenessOwnerView (session : Session Token) (now : Int) (callInFlight : Token → Bool) :
    LivenessOwnerView Token :=
  { ownerToken := session.livenessOwnerToken
    hold :=
      match session.livenessOwnerToken with
      | none => none
      | some ownerToken =>
        if session.livenessPolicy = .cliIdle then none
        else
          some (livenessLeaseState (sessionOwnerLeaseSnapshot session now
            ((mintBoundClaimLease session).isSome && callInFlight ownerToken))).phase }

end Lease

section Decision

/-- The token that still holds: its lease is live or inside the suspect grace. -/
def LivenessOwnerView.holder (view : LivenessOwnerView Token) : Option Token :=
  match view.hold with
  | some .live | some .suspect => view.ownerToken
  | _ => none

inductive LivenessClaimDecision where
  | claimed
  | superseded
  | conflictSession
  | conflictBase
deriving DecidableEq, Repr

/-- The rules on a claim, in their order. -/
def decideLivenessClaim (claimantToken : Token) (session : LivenessOwnerView Token)
    (claimAlreadyProcessed : Bool) (base : Option (LivenessOwnerView Token)) :
    LivenessClaimDecision :=
  let baseHolder := base.bind LivenessOwnerView.holder
  if session.ownerToken = some claimantToken then .claimed
  else if baseHolder = some claimantToken then .claimed
  else if session.ownerToken.isSome && claimAlreadyProcessed then .superseded
  else if session.holder.isSome then .conflictSession
  else if baseHolder.isSome then .conflictBase
  else .claimed

def mayAdoptUnownedLiveness (claimantToken : Token) (session : LivenessOwnerView Token)
    (sessionHasClaimHistory : Bool) (base : Option (LivenessOwnerView Token)) : Bool :=
  if session.ownerToken.isSome || sessionHasClaimHistory then false
  else
    match base.bind LivenessOwnerView.holder with
    | some holder => holder = claimantToken
    | none => true

end Decision

/-- What a step reads of its surroundings: the clock, whether the session is still the one that
its id names and is admitted, the calls in flight and the live base session. -/
structure Reading (Token : Type) where
  now : Int
  found : Bool := true
  admitted : Bool := true
  callInFlight : Token → Bool := fun _ => false
  base : Option (Session Token) := none

def Reading.view (reading : Reading Token) (session : Session Token) : LivenessOwnerView Token :=
  livenessOwnerView session reading.now reading.callInFlight

def Reading.baseView (reading : Reading Token) : Option (LivenessOwnerView Token) :=
  reading.base.map reading.view

section Heartbeats

def recordHeartbeat (session : Session Token) (reading : Reading Token) : Session Token :=
  if reading.found && reading.admitted then
    let heard := { session with
      lastHeartbeat := reading.now
      lastOwnerHeartbeat := some reading.now
      activityGeneration := session.activityGeneration + 1
      hasReceivedHeartbeat := true }
    if session.ownership = .awaitingOwner then
      { heard with ownership := .owned, awaitingOwnerSince := none }
    else heard
  else session

def hasLivenessOwnership (session : Session Token) (ownerToken : Token) : Bool :=
  session.livenessOwnerToken = some ownerToken

def isTokenOwnedOrClaimPending (session : Session Token) : Bool :=
  session.livenessOwnerToken.isSome || session.livenessOwnershipClaims ≠ ∅

/-- The adopting session, when `ownerToken` may adopt. -/
def adoptUnownedLivenessOwnerToken (session : Session Token) (ownerToken : Token)
    (reading : Reading Token) : Option (Session Token) :=
  if mayAdoptUnownedLiveness ownerToken (reading.view session)
      (session.livenessOwnershipClaims ≠ ∅) reading.baseView then
    some { session with
      livenessOwnerToken := some ownerToken
      livenessOwnerBoundAt := none }
  else none

/-- The owner's completed call restarts a lease that is still counted from its bind instant. -/
def restartMintBoundClaimLeases (session : Session Token) (ownerToken : Token) (now : Int) :
    Session Token :=
  match mintBoundClaimLease session with
  | some boundAt =>
    if session.livenessOwnerToken = some ownerToken then
      { session with livenessOwnerBoundAt := some (max boundAt now) }
    else session
  | none => session

def recordToolCallEnded (session : Session Token) (now : Int) : Session Token :=
  { session with
    lastUsedAt := max session.lastUsedAt now
    lastHeartbeat := max session.lastHeartbeat now
    expiresAt := max session.expiresAt (now + session.sessionTimeoutMs)
    activityGeneration := session.activityGeneration + 1 }

end Heartbeats

section Stalls

/-- A gap that the daemon heard nobody in, with its reader of connected owners. -/
structure StallGap where
  resumedAt : Int
  lostMs : Int
  sleptMs : Int := 0
  gapBeganAt : Option Int := none
  ownerConnectedAtReader : Int → Bool := fun _ => false

def forgiveMintBoundClaimLease (session : Session Token) (gap : StallGap) : Session Token :=
  match mintBoundClaimLease session with
  | some boundAt =>
    if gap.gapBeganAt.all (leaseRunningAt boundAt session.heartbeatTimeoutMs) then
      { session with
        livenessOwnerBoundAt :=
          some (forgivenLeaseStart boundAt gap.resumedAt (gap.lostMs + gap.sleptMs)) }
    else session
  | none => session

/-- The credit of a connected owner, and the session with the credit counted. -/
def connectedOwnerCredit (session : Session Token) (gap : StallGap) : Int × Session Token :=
  match gap.gapBeganAt with
  | none => (0, session)
  | some gapBeganAt =>
    if gap.lostMs ≤ 0 ∨ session.ownership ≠ .owned ∨
        gap.ownerConnectedAtReader gapBeganAt = false then (0, session)
    else
      let heartbeat := session.lastOwnerHeartbeat.getD session.lastHeartbeat
      let creditedMs :=
        match session.budget with
        | some (counted, credited) => if counted = heartbeat then credited else 0
        | none => 0
      let cap :=
        if gap.ownerConnectedAtReader gap.resumedAt then STARVATION_CONNECTED_OWNER_CREDIT_CAP_MS
        else MAX_CREDIBLE_DAEMON_STALL_MS
      let credit := min gap.lostMs (max 0 (cap - creditedMs))
      (credit, { session with budget := some (heartbeat, creditedMs + credit) })

/-- The full lease rule comes first and spends no connected owner's credit. -/
def daemonStallLeaseExtension (session : Session Token) (gap : StallGap) : Session Token :=
  let full := ownerLeaseLiveAt session gap.gapBeganAt
  let (connectedCreditMs, counted) := if full then (0, session) else connectedOwnerCredit session gap
  let credit := if full then gap.lostMs + gap.sleptMs else connectedCreditMs
  if full || credit > 0 then
    { counted with
      stallForgivenAt :=
        some (forgivenLeaseStart (judgedLeaseHeartbeat session) gap.resumedAt credit) }
  else counted

/-- The window of a session that waits for its owner, moved by what was lost. -/
def forgivenWindow (awaitingOwnerSince : Option Int) (resumedAt lostMs : Int) : Option Int :=
  awaitingOwnerSince.map fun since => max since (min (since + lostMs) resumedAt)

def effectiveLastToolActivity (session : Session Token) : Int :=
  laterOf session.lastUsedAt session.idleStallForgivenAt

/-- One session's share of the daemon's stall. -/
def forgiveDaemonStall (session : Session Token) (gap : StallGap) : Session Token :=
  if session.livenessPolicy = .cliIdle then
    let idleStart := effectiveLastToolActivity session
    { session with
      idleStallForgivenAt := some (max idleStart (min gap.resumedAt (idleStart + gap.lostMs)))
      awaitingOwnerSince := forgivenWindow session.awaitingOwnerSince gap.resumedAt gap.lostMs }
  else
    let extended := daemonStallLeaseExtension (forgiveMintBoundClaimLease session gap) gap
    { extended with
      expiresAt := max extended.expiresAt
        (min (extended.expiresAt + gap.lostMs) (gap.resumedAt + extended.sessionTimeoutMs))
      awaitingOwnerSince := forgivenWindow extended.awaitingOwnerSince gap.resumedAt
        (gap.lostMs + gap.sleptMs) }

end Stalls

section Writes

/-- What waits for the mutex of the session's ownership. -/
inductive Request (Token : Type) where
  | claim (ownerToken : Token)
  | release (ownerToken : Token)
  | persistAdopted
deriving DecidableEq

/-- The row write that the holder of the mutex awaits, with what its failure puts back. -/
inductive Write (Token : Type) where
  | claim (ownerToken : Token) (alreadyProcessed : Bool) (previousOwnerToken : Option Token)
      (previousOwnerHeartbeat previousOwnerBoundAt : Option Int) (hasReceivedHeartbeat : Bool)
      (ownership : Ownership) (activityGeneration : Nat)
  | release (ownerToken : Token) (previousOwnerBoundAt : Option Int)
  | persistAdopted
deriving DecidableEq

inductive Outcome where
  | claimed
  | superseded
  | conflict
  | released
  | alreadyUnowned
  | notOwner
  | notFound
  | threw
deriving DecidableEq, Repr

structure World (Token : Type) where
  session : Session Token
  waiting : List (Request Token) := []
  writing : Option (Write Token) := none
deriving DecidableEq

/-- The answer to a claim or a release. -/
structure Answer (Token : Type) where
  request : Request Token
  outcome : Outcome
deriving DecidableEq

/-- An accepted claim is its owner's heartbeat. -/
def markAcceptedClaimantHeartbeating (session : Session Token) : Session Token :=
  { session with
    hasReceivedHeartbeat := true
    ownership := .owned }

/-- A claim that won takes effect before its row write. -/
def takeLivenessOwnership (world : World Token) (ownerToken : Token) (now : Int) : World Token :=
  let session := world.session
  { world with
    session := markAcceptedClaimantHeartbeating { session with
      livenessOwnershipClaims := insert ownerToken session.livenessOwnershipClaims
      livenessOwnerToken := some ownerToken
      livenessOwnerBoundAt := none
      lastOwnerHeartbeat := some now }
    writing := some (.claim ownerToken (ownerToken ∈ session.livenessOwnershipClaims)
      session.livenessOwnerToken session.lastOwnerHeartbeat session.livenessOwnerBoundAt
      session.hasReceivedHeartbeat session.ownership session.activityGeneration) }

/-- A claim that has the mutex. -/
def claimLivenessOwnership (world : World Token) (ownerToken : Token) (reading : Reading Token) :
    World Token × List (Answer Token) :=
  if reading.found = false then (world, [⟨.claim ownerToken, .notFound⟩])
  else
    let session := world.session
    let processed := ownerToken ∈ session.livenessOwnershipClaims
    match decideLivenessClaim ownerToken (reading.view session) processed reading.baseView with
    | .superseded => (world, [⟨.claim ownerToken, .superseded⟩])
    | .conflictSession | .conflictBase => (world, [⟨.claim ownerToken, .conflict⟩])
    | .claimed =>
      if session.livenessOwnerToken = some ownerToken ∧ processed then
        (world, [⟨.claim ownerToken, .claimed⟩])
      else (takeLivenessOwnership world ownerToken reading.now, [])

/-- A release that has the mutex. -/
def releaseLivenessOwnership (world : World Token) (ownerToken : Token) (reading : Reading Token) :
    World Token × List (Answer Token) :=
  let session := world.session
  if reading.found = false ∨ reading.admitted = false then
    (world, [⟨.release ownerToken, .notFound⟩])
  else if session.livenessOwnerToken = none then (world, [⟨.release ownerToken, .alreadyUnowned⟩])
  else if session.livenessOwnerToken ≠ some ownerToken then
    (world, [⟨.release ownerToken, .notOwner⟩])
  else
    ({ world with
        session := { session with
          livenessOwnershipClaims := insert ownerToken session.livenessOwnershipClaims
          livenessOwnerToken := none
          livenessOwnerBoundAt := none
          activityGeneration := session.activityGeneration + 1 }
        writing := some (.release ownerToken session.livenessOwnerBoundAt) }, [])

/-- The mutex goes to the first that waits. -/
def enter (world : World Token) (reading : Reading Token) : World Token × List (Answer Token) :=
  match world.writing, world.waiting with
  | none, .claim ownerToken :: waiting =>
    claimLivenessOwnership { world with waiting := waiting } ownerToken reading
  | none, .release ownerToken :: waiting =>
    releaseLivenessOwnership { world with waiting := waiting } ownerToken reading
  | none, .persistAdopted :: waiting =>
    if reading.found && reading.admitted && world.session.livenessOwnerToken.isSome then
      ({ world with waiting := waiting, writing := some .persistAdopted }, [])
    else ({ world with waiting := waiting }, [])
  | _, _ => (world, [])

/-- The end of a claim's mark: kept, or undone unless some activity was recorded since. -/
def settleClaimantHeartbeat (session : Session Token) (undo hasReceivedHeartbeat : Bool)
    (ownership : Ownership) (activityGeneration : Nat) : Session Token :=
  if undo ∧ session.activityGeneration = activityGeneration then
    { session with
      hasReceivedHeartbeat := hasReceivedHeartbeat
      ownership := ownership }
  else if ownership = .awaitingOwner ∧ session.ownership = .owned then
    { session with awaitingOwnerSince := none }
  else session

/-- The row write settles, and the mutex is free again. -/
def settle (world : World Token) (ok : Bool) (admitted : Bool) :
    World Token × List (Answer Token) :=
  let session := world.session
  match world.writing with
  | none => (world, [])
  | some .persistAdopted => ({ world with writing := none }, [])
  | some (.release ownerToken previousOwnerBoundAt) =>
    if ok then ({ world with writing := none }, [⟨.release ownerToken, .released⟩])
    else
      ({ world with
          session := { session with
            livenessOwnerToken := some ownerToken
            livenessOwnerBoundAt := previousOwnerBoundAt }
          writing := none },
        [⟨.release ownerToken, if admitted then .threw else .notFound⟩])
  | some (.claim ownerToken alreadyProcessed previousOwnerToken previousOwnerHeartbeat
      previousOwnerBoundAt hasReceivedHeartbeat ownership activityGeneration) =>
      if ok then
        ({ world with
            session := settleClaimantHeartbeat session false hasReceivedHeartbeat ownership
              activityGeneration
            writing := none },
          [⟨.claim ownerToken, .claimed⟩])
      else
        let undone := settleClaimantHeartbeat { session with
            livenessOwnershipClaims := session.livenessOwnershipClaims.erase ownerToken
            livenessOwnerToken := previousOwnerToken
            lastOwnerHeartbeat := previousOwnerHeartbeat
            livenessOwnerBoundAt := previousOwnerBoundAt }
          true hasReceivedHeartbeat ownership activityGeneration
        let claims :=
          if alreadyProcessed then insert ownerToken undone.livenessOwnershipClaims
          else undone.livenessOwnershipClaims
        ({ world with
            session := { undone with livenessOwnershipClaims := claims }
            writing := none },
          [⟨.claim ownerToken, if admitted then .threw else .notFound⟩])

end Writes

section Steps

inductive Event (Token : Type) where
  | claim (ownerToken : Token)
  | release (ownerToken : Token)
  | enter
  | settle (ok : Bool)
  /-- A heartbeat that claims nothing, and the part of a claiming one that renews its owner. -/
  | heartbeat (ownerToken : Option Token)
  | bind (ownerToken : Token)
  | toolCallEnded
  | ownerCallEnded (ownerToken : Token)
  | stall (gap : StallGap)

/-- A heartbeat with a token renews its owner or adopts; one without renews a session that no
token owns or has claimed. -/
def handleHttpHeartbeat (world : World Token) (ownerToken : Option Token)
    (reading : Reading Token) : World Token :=
  let session := world.session
  if reading.found = false then world
  else
    match ownerToken with
    | none =>
      if isTokenOwnedOrClaimPending session then world
      else { world with session := recordHeartbeat session reading }
    | some ownerToken =>
      if hasLivenessOwnership session ownerToken then
        { world with session := recordHeartbeat session reading }
      else
        match adoptUnownedLivenessOwnerToken session ownerToken reading with
        | none => world
        | some adopted =>
          { world with
            session := recordHeartbeat { adopted with lastOwnerHeartbeat := some reading.now }
              reading
            waiting := world.waiting ++ [.persistAdopted] }

/-- The acquisition's token starts a lease for claims only. -/
def bindAcquiredLivenessOwnerToken (world : World Token) (ownerToken : Token)
    (reading : Reading Token) : World Token :=
  if reading.found = false then world
  else
    match adoptUnownedLivenessOwnerToken world.session ownerToken reading with
    | none => world
    | some adopted =>
      { world with
        session := { adopted with livenessOwnerBoundAt := some reading.now }
        waiting := world.waiting ++ [.persistAdopted] }

def step (world : World Token) (event : Event Token × Reading Token) :
    World Token × List (Answer Token) :=
  let reading := event.2
  match event.1 with
  | .claim ownerToken =>
    if reading.found then ({ world with waiting := world.waiting ++ [.claim ownerToken] }, [])
    else (world, [⟨.claim ownerToken, .notFound⟩])
  | .release ownerToken =>
    if reading.found && reading.admitted then
      ({ world with waiting := world.waiting ++ [.release ownerToken] }, [])
    else (world, [⟨.release ownerToken, .notFound⟩])
  | .enter => enter world reading
  | .settle ok => settle world ok reading.admitted
  | .heartbeat ownerToken => (handleHttpHeartbeat world ownerToken reading, [])
  | .bind ownerToken => (bindAcquiredLivenessOwnerToken world ownerToken reading, [])
  | .toolCallEnded =>
    if reading.found then
      ({ world with session := recordToolCallEnded world.session reading.now }, [])
    else (world, [])
  | .ownerCallEnded ownerToken =>
    if reading.found then
      ({ world with session := restartMintBoundClaimLeases world.session ownerToken reading.now },
        [])
    else (world, [])
  | .stall gap =>
    if reading.found then ({ world with session := forgiveDaemonStall world.session gap }, [])
    else (world, [])

end Steps

end AutoMobile.LivenessLease
