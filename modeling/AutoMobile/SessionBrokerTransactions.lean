import AutoMobile.SessionBrokerOperations

/- The receipts of `sqliteReceipts`, and the calls that brokers make on the shared tables:
each is one transaction, with its broker, its arguments and what it finds around it. -/
namespace AutoMobile.SessionBroker

open InsertionMap

variable {Parameters Profile : Type}

def acknowledgeExport (now : Nat) (store : Store Parameters Profile) (prepareId : String) :
    Store Parameters Profile :=
  match get? store.exports prepareId with
  | none => store
  | some row =>
    if row.acknowledgedAtMs.isSome then store
    else
      { store with
        exports := put store.exports prepareId { row with acknowledgedAtMs := some now } }

/-- Replay links without consulting the current catalog, after checking the fingerprint. -/
def linkRequestExport (now : Nat) (store : Store Parameters Profile) (requestId fingerprint : String)
    (identity : BrokerExportIdentity) : Except String (Store Parameters Profile) :=
  match get? store.requests requestId with
  | some request =>
    if request.fingerprint = fingerprint then linkExport now store requestId (some identity)
    else .error "Session export identity, digest, or liveness owner does not match the request"
  | none => .error "Session export identity, digest, or liveness owner does not match the request"

/-- A terminal receipt without a terminal time gets a full window. -/
def stampTerminal (now : Nat) (row : RequestRow Parameters) : RequestRow Parameters :=
  if isTerminalState row.state && row.terminalAtMs.isNone then { row with terminalAtMs := some now }
  else row

/-- Dictionary order of code points, as the database compares texts. -/
def textPrecedes (left right : String) : Bool :=
  (left.toList.map Char.toNat).lex (right.toList.map Char.toNat) fun one other => one < other

/-- Terminal at least `retentionMs` ago, with no export to keep and no undestroyed resource. -/
def expiredReceipt (now retentionMs exportRetentionMs : Nat) (store : Store Parameters Profile)
    (id : String) (row : RequestRow Parameters) : Bool :=
  isTerminalState row.state &&
    (match row.terminalAtMs with
      | some terminal => terminal + retentionMs ≤ now
      | none => false) &&
    !(store.exports.any fun (_, kept) => kept.requestId = id && kept.acknowledgedAtMs.isNone &&
      now < kept.createdAtMs + exportRetentionMs) &&
    !(store.resources.any fun (_, resource) =>
      resource.requestId = some id && resource.state ≠ .destroyed)

def deleteUnreferencedTombstones (store : Store Parameters Profile) : Store Parameters Profile :=
  { store with
    resources := store.resources.filter fun (id, resource) =>
      !(resource.state = .destroyed && resource.requestId.isNone &&
        !store.requests.any fun (_, request) => request.resourceId = some id) }

/-- The oldest expired receipts, at most `limit` of them. -/
def expiredReceipts (now retentionMs exportRetentionMs limit : Nat)
    (store : Store Parameters Profile) : List String :=
  let expired := store.requests.filter fun (id, row) =>
    expiredReceipt now retentionMs exportRetentionMs store id row
  let oldest := expired.insertionSort fun (left, one) (right, other) =>
    one.terminalAtMs.getD 0 < other.terminalAtMs.getD 0 ∨
      one.terminalAtMs.getD 0 = other.terminalAtMs.getD 0 ∧ textPrecedes right left = false
  (keys oldest).take limit

/-- Delete the receipts with these ids, their exports, and what they still name. -/
def deleteReceipts (store : Store Parameters Profile) (ids : List String) :
    Store Parameters Profile :=
  { store with
    requests := store.requests.filter fun (id, _) => id ∉ ids
    resources := store.resources.map fun (id, resource) =>
      (id, if resource.requestId.any (· ∈ ids) then { resource with requestId := none }
        else resource)
    exports := store.exports.filter fun (_, row) => row.requestId ∉ ids }

def pruneTerminalRequests (now : Nat) (store : Store Parameters Profile)
    (retentionMs exportRetentionMs limit : Nat) : Except String (Store Parameters Profile) :=
  if limit < 1 then .error "Receipt retention needs a non-negative window and a positive limit"
  else
    let stamped :=
      { store with requests := store.requests.map fun (id, row) => (id, stampTerminal now row) }
    .ok (deleteUnreferencedTombstones
      (deleteReceipts stamped (expiredReceipts now retentionMs exportRetentionMs limit stamped)))

/-- The operations on reservations and receipts, with their arguments. -/
inductive Operation (Parameters Profile : Type) where
  | recordPreAdmissionFailure (input : BrokerAdmissionInput Parameters Profile)
      (failure : SessionBrokerFailure)
  | admitRequest (input : BrokerAdmissionInput Parameters Profile)
  | abandon (requestId : String) (owner : BindingProcessIdentity) (livenessOwnerToken : String)
  | continueAdmission (input : BrokerAdmissionInput Parameters Profile)
  | activate (requestId : String) (owner : BindingProcessIdentity) (sessionId : String)
      (hardware : Profile → Profile)
  | beginRelease (sessionId : String) (owner : BindingProcessIdentity)
  | completeCleanRelease (requestId : String) (owner : BindingProcessIdentity)
      (limits : BrokerLimits)
  | failWhere (requestId : String) (owner : BindingProcessIdentity) (failure : FailureReason)
  | releaseByDestruction (requestId : String) (owner : BindingProcessIdentity)
  | drainIdle (observed : Option (List DestructionTicket))
  | confirmDestroyed (ticket : DestructionTicket)
  | recoverRequest (requestId : String) (owner : BindingProcessIdentity)
  | relinquishForRestart (requestId : String) (owner : BindingProcessIdentity)
  | adoptRestartHandoff (requestId : String) (owner : BindingProcessIdentity)
  | linkRequestExport (requestId fingerprint : String) (identity : BrokerExportIdentity)
  | acknowledgeExport (prepareId : String)

def Operation.execute (host : BrokerHost Parameters) (surroundings : Surroundings)
    (store : Store Parameters Profile) :
    Operation Parameters Profile → Except String (Store Parameters Profile)
  | .recordPreAdmissionFailure input failure =>
    SessionBroker.recordPreAdmissionFailure surroundings store input failure
  | .admitRequest input => Prod.fst <$> SessionBroker.admitRequest host surroundings store input
  | .abandon requestId owner token =>
    Prod.fst <$> SessionBroker.abandon host surroundings store requestId owner token
  | .continueAdmission input => Prod.fst <$> SessionBroker.continueAdmission host surroundings store input
  | .activate requestId owner sessionId hardware =>
    SessionBroker.activate surroundings store requestId owner sessionId hardware
  | .beginRelease sessionId owner => SessionBroker.beginRelease surroundings store sessionId owner
  | .completeCleanRelease requestId owner limits =>
    Prod.fst <$> SessionBroker.completeCleanRelease host surroundings store requestId owner limits
  | .failWhere requestId owner failure =>
    Prod.fst <$> SessionBroker.failWhere surroundings store requestId owner failure
  | .releaseByDestruction requestId owner =>
    Prod.fst <$> SessionBroker.releaseByDestruction store requestId owner
  | .drainIdle observed => .ok (SessionBroker.drainIdle store observed).1
  | .confirmDestroyed ticket => .ok (SessionBroker.confirmDestroyed surroundings store ticket).1
  | .recoverRequest requestId owner =>
    Prod.fst <$> SessionBroker.recoverRequest surroundings store requestId owner
  | .relinquishForRestart requestId owner =>
    SessionBroker.relinquishForRestart surroundings store requestId owner
  | .adoptRestartHandoff requestId owner =>
    Prod.fst <$> SessionBroker.adoptRestartHandoff surroundings store requestId owner
  | .linkRequestExport requestId fingerprint identity =>
    SessionBroker.linkRequestExport surroundings.now store requestId fingerprint identity
  | .acknowledgeExport prepareId =>
    .ok (SessionBroker.acknowledgeExport surroundings.now store prepareId)

/-- An operation as one broker issues it. -/
structure Call (Parameters Profile : Type) where
  host : BrokerHost Parameters
  surroundings : Surroundings
  operation : Operation Parameters Profile

/-- The tables after a call; a call that fails is rolled back. -/
def Call.commit (store : Store Parameters Profile) (call : Call Parameters Profile) :
    Store Parameters Profile :=
  match call.operation.execute call.host call.surroundings store with
  | .ok after => after
  | .error _ => store

/-- The tables after a sequence of calls. -/
def run (store : Store Parameters Profile) (calls : List (Call Parameters Profile)) :
    Store Parameters Profile :=
  calls.foldl Call.commit store

/-- A call, or the maintenance that prunes old receipts. -/
inductive Transaction (Parameters Profile : Type) where
  | call (issued : Call Parameters Profile)
  | pruneTerminalRequests (now retentionMs exportRetentionMs limit : Nat)

def Transaction.commit (store : Store Parameters Profile) :
    Transaction Parameters Profile → Store Parameters Profile
  | .call issued => issued.commit store
  | .pruneTerminalRequests now retentionMs exportRetentionMs limit =>
    match SessionBroker.pruneTerminalRequests now store retentionMs exportRetentionMs limit with
    | .ok after => after
    | .error _ => store

def runAll (store : Store Parameters Profile) (transactions : List (Transaction Parameters Profile)) :
    Store Parameters Profile :=
  transactions.foldl Transaction.commit store

end AutoMobile.SessionBroker
