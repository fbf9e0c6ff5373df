import FerrumGate.Interleave.Pool
import FerrumGate.Store.World

/-!
# The operations a gateway process performs

`Op` lists the store statements and transactions, the clock, the uuid generator, the policy
engine, the second-factor check, the audit log, the deadline of a timeout and the rollback
adapter; `Op.exec` gives each its effect on the world. What the environment decides in a step is
its `Input`: whether the store reports a failure (the statement then has no effect), the clock
reading, and the answers of the policy engine and of the adapter. Uuids are drawn from a counter,
so no two of them are equal.

A gateway process is a `Prog` over these operations (`Gw`); a store routine of several statements
is one that may end with a `StoreError` (`StoreM`).
-/

namespace FerrumGate

open Interleave Interleave.Rows

/-! ## The rollback adapter's receipts (`ferrum-rollback/src/adapter.rs`) -/

structure PrepareReceipt where
  accepted : Bool
  adapterMetadata : JsonMap

structure ExecuteReceipt where
  resultDigest : Option String
  adapterMetadata : JsonMap

inductive VerifyOutcome where
  | applied | notApplied | indeterminate
  deriving DecidableEq

structure VerifyOutcomeReceipt where
  outcome : VerifyOutcome
  adapterMetadata : JsonMap

structure RecoveryReceipt where
  recovered : Bool
  adapterMetadata : JsonMap

structure RollbackPrepareRequest where
  intentId : IntentId
  proposalId : ProposalId
  executionId : ExecutionId
  actionType : ActionType
  rollbackClass : RollbackClass
  adapterKey : String
  target : RollbackTarget
  prepareChecks : List CheckSpec
  verifyChecks : List CheckSpec
  compensationPlan : List CompensationStep
  autoCommit : Bool
  metadata : JsonMap

structure ExecutionPlan where
  prepareChecks : List CheckSpec
  verifyChecks : List CheckSpec
  compensationPlan : List CompensationStep
  autoCommit : Bool

/-- What the policy engine answers to an evaluation. -/
structure PolicyVerdict where
  decision : Decision
  reason : String
  /-- The verdict carries an anomaly that is written to the audit log. -/
  anomaly : Bool := false

/-! ## Operations and replies -/

inductive Op where
  | readClock
  | newUuid
  | getIntent (id : IntentId)
  | getProposal (id : ProposalId)
  | getCapability (id : CapabilityId)
  | getApproval (id : ApprovalId)
  | getHold (id : QuarantineHoldId)
  | getHoldByProposal (id : ProposalId)
  | getExecution (id : ExecutionId)
  | getContract (id : RollbackContractId)
  | getOutbox (id : LifecycleOutboxId)
  | getEvent (id : EventId)
  | queryEvents (q : World.ProvenanceQuery)
  | getEdgesTo (id : EventId)
  | listStaleInFlight (staleBefore : Timestamp) (states : List ExecutionState) (limit : Nat)
  | listStaleApprovals (now ageCutoff : Timestamp) (batchSize : Nat)
  | listStaleHolds (now ageCutoff : Timestamp) (batchSize : Nat)
  | leaseIsCurrent (lease : LifecycleOutboxLease) (now : Timestamp)
  | insertIntent (intent : IntentEnvelope)
  | insertProposal (proposal : ActionProposal)
  | insertCapability (lease : CapabilityLease)
  | insertApproval (approval : ApprovalRequest)
  | insertHold (hold : QuarantineHold)
  | updateCapability (lease : CapabilityLease)
  | updateStatusIfActive (id : CapabilityId) (status : CapabilityStatus) (now : Timestamp)
  | revokeIfActive (id : CapabilityId) (revokedAt : Timestamp)
  | resolveApproval (approval : ApprovalRequest) (now : Timestamp)
  | expireApproval (approval : ApprovalRequest)
  | writeHoldIfPending (hold : QuarantineHold)
  | compareAndSetState (id : ExecutionId) (expected : List ExecutionState)
      (new : ExecutionState) (now : Timestamp)
  | recordLifecycleTransition (execution : ExecutionRecord)
      (contract : Option RollbackContract) (outbox : LifecycleOutboxRecord)
  | recordAuthorization (capability : CapabilityLease) (execution : ExecutionRecord)
      (outbox : LifecycleOutboxRecord) (now : Timestamp)
  | claimPendingReconciliation (limit : Nat) (owner : String) (now ttl : Timestamp)
  | renewReconciliationLease (lease : LifecycleOutboxLease) (expiresAt now : Timestamp)
  | updateOutboxRecord (record : LifecycleOutboxRecord) (clearLease allowLeaseOverride : Bool)
  | updateOutboxRecordClaimed (record : LifecycleOutboxRecord) (lease : LifecycleOutboxLease)
      (clearLease : Bool) (now : Timestamp)
  | appendEvent (event : ProvenanceEvent)
  | appendEventWithEdges (event : ProvenanceEvent) (edges : List ProvenanceEdge)
  | appendEdges (toEventId : EventId) (edges : List ProvenanceEdge)
  | appendAudit
  | evaluatePolicy (proposal : ActionProposal)
  | checkMfa (actorId : String)
  | deadline
  | adapterPrepare (request : RollbackPrepareRequest)
  | generatePlan (actionType : ActionType) (target : RollbackTarget)
  | adapterExecute (contract : RollbackContract) (payload : Json)
  | adapterVerify (contract : RollbackContract)
  | adapterCompensate (contract : RollbackContract)

/-- The answer of a store call. -/
abbrev StoreResult := Except StoreError

/-- The answer of an adapter call; `none` when it ends in an error. -/
abbrev AdapterResult := Option

@[reducible] def Op.Result : Op → Type
  | .readClock => Timestamp
  | .newUuid => Nat
  | .getIntent _ => StoreResult (Option IntentEnvelope)
  | .getProposal _ => StoreResult (Option ActionProposal)
  | .getCapability _ => StoreResult (Option CapabilityLease)
  | .getApproval _ => StoreResult (Option ApprovalRequest)
  | .getHold _ => StoreResult (Option QuarantineHold)
  | .getHoldByProposal _ => StoreResult (Option QuarantineHold)
  | .getExecution _ => StoreResult (Option ExecutionRecord)
  | .getContract _ => StoreResult (Option RollbackContract)
  | .getOutbox _ => StoreResult (Option LifecycleOutboxRecord)
  | .getEvent _ => StoreResult (Option ProvenanceEvent)
  | .queryEvents _ => StoreResult (List ProvenanceEvent)
  | .getEdgesTo _ => StoreResult (List ProvenanceEdge)
  | .listStaleInFlight .. => StoreResult (List ExecutionRecord)
  | .listStaleApprovals .. => StoreResult (List ApprovalRequest)
  | .listStaleHolds .. => StoreResult (List QuarantineHold)
  | .leaseIsCurrent .. => StoreResult Bool
  | .insertIntent _ => StoreResult Unit
  | .insertProposal _ => StoreResult Unit
  | .insertCapability _ => StoreResult Unit
  | .insertApproval _ => StoreResult Unit
  | .insertHold _ => StoreResult Unit
  | .updateCapability _ => StoreResult Unit
  | .updateStatusIfActive .. => StoreResult Bool
  | .revokeIfActive .. => StoreResult Bool
  | .resolveApproval .. => StoreResult Bool
  | .expireApproval _ => StoreResult Bool
  | .writeHoldIfPending _ => StoreResult Bool
  | .compareAndSetState .. => StoreResult Bool
  | .recordLifecycleTransition .. => StoreResult Unit
  | .recordAuthorization .. => StoreResult Bool
  | .claimPendingReconciliation .. => StoreResult (List LifecycleOutboxClaim)
  | .renewReconciliationLease .. => StoreResult Bool
  | .updateOutboxRecord .. => StoreResult Bool
  | .updateOutboxRecordClaimed .. => StoreResult Bool
  | .appendEvent _ => StoreResult Unit
  | .appendEventWithEdges .. => StoreResult Unit
  | .appendEdges .. => StoreResult Unit
  | .appendAudit => StoreResult Unit
  | .evaluatePolicy _ => Option PolicyVerdict
  | .checkMfa _ => Bool
  | .deadline => Bool
  | .adapterPrepare _ => AdapterResult PrepareReceipt
  | .generatePlan .. => Option ExecutionPlan
  | .adapterExecute .. => AdapterResult ExecuteReceipt
  | .adapterVerify _ => AdapterResult VerifyOutcomeReceipt
  | .adapterCompensate _ => AdapterResult RecoveryReceipt

/-- What the environment decides in one step. -/
structure Input where
  /-- The store reports a failure of the statement. -/
  storeFails : Bool := false
  /-- The clock reading. -/
  clock : Timestamp := 0
  /-- The policy engine's verdict; `none` when the evaluation fails. -/
  policy : Option PolicyVerdict := none
  /-- The second factor is accepted. -/
  mfaAccepted : Bool := false
  /-- The time allowed for the work under a deadline is over. -/
  elapsed : Bool := false
  prepareReply : AdapterResult PrepareReceipt := none
  plan : Option ExecutionPlan := none
  executeReply : AdapterResult ExecuteReceipt := none
  verifyReply : AdapterResult VerifyOutcomeReceipt := none
  compensateReply : AdapterResult RecoveryReceipt := none

/-- A read: the tables stay as they are. -/
def readWith {α : Type} (i : Input) (f : World → α) (w : World) : StoreResult α × World :=
  if i.storeFails then (.error .database, w) else (.ok (f w), w)

/-- A statement that always succeeds when the store works. -/
def writeWith {α : Type} (i : Input) (f : World → α × World) (w : World) :
    StoreResult α × World :=
  if i.storeFails then (.error .database, w) else (.ok (f w).1, (f w).2)

/-- A transaction: it answers and writes, or aborts and writes nothing. -/
def transactWith {α : Type} (i : Input) (f : World → Except StoreError (α × World)) (w : World) :
    StoreResult α × World :=
  if i.storeFails then (.error .database, w)
  else match f w with
    | .ok (a, w') => (.ok a, w')
    | .error e => (.error e, w)

/-- A transaction without an answer. -/
def commitWith (i : Input) (f : World → Except StoreError World) (w : World) :
    StoreResult Unit × World :=
  transactWith i (fun w => (f w).map ((), ·)) w

/-- The effect of each operation. -/
def Op.exec : (o : Op) → Input → World → o.Result × World
  | .readClock, i, w => (i.clock, w)
  | .newUuid, _, w => (w.nextUuid, { w with nextUuid := w.nextUuid + 1 })
  | .getIntent id, i, w => readWith i (fun w => find w.intents id) w
  | .getProposal id, i, w => readWith i (fun w => find w.proposals id) w
  | .getCapability id, i, w => readWith i (fun w => find w.capabilities id) w
  | .getApproval id, i, w => readWith i (fun w => find w.approvals id) w
  | .getHold id, i, w => readWith i (fun w => find w.holds id) w
  | .getHoldByProposal id, i, w => readWith i (World.holdByProposal id) w
  | .getExecution id, i, w => readWith i (fun w => find w.executions id) w
  | .getContract id, i, w => readWith i (fun w => find w.contracts id) w
  | .getOutbox id, i, w => readWith i (fun w => (find w.outbox id).map (·.record)) w
  | .getEvent id, i, w => readWith i (fun w => find w.events id) w
  | .queryEvents q, i, w => readWith i (World.queryEvents q) w
  | .getEdgesTo id, i, w => readWith i (World.edgesTo id) w
  | .listStaleInFlight before states limit, i, w =>
    readWith i (World.staleInFlight before states limit) w
  | .listStaleApprovals now cutoff batch, i, w =>
    readWith i (World.stalePendingApprovals now cutoff batch) w
  | .listStaleHolds now cutoff batch, i, w =>
    readWith i (World.stalePendingHolds now cutoff batch) w
  | .leaseIsCurrent lease now, i, w => readWith i (World.leaseIsCurrent lease now) w
  | .insertIntent intent, i, w => commitWith i (World.insertIntent intent) w
  | .insertProposal proposal, i, w => commitWith i (World.insertProposal proposal) w
  | .insertCapability lease, i, w => commitWith i (World.insertCapability lease) w
  | .insertApproval approval, i, w => commitWith i (World.insertApproval approval) w
  | .insertHold hold, i, w => commitWith i (World.insertHold hold) w
  | .updateCapability lease, i, w => writeWith i (fun w => ((), World.updateCapability lease w)) w
  | .updateStatusIfActive id status now, i, w =>
    writeWith i (World.updateStatusIfActive id status now) w
  | .revokeIfActive id revokedAt, i, w => writeWith i (World.revokeIfActive id revokedAt) w
  | .resolveApproval approval now, i, w => writeWith i (World.resolveApproval approval now) w
  | .expireApproval approval, i, w => writeWith i (World.expireApproval approval) w
  | .writeHoldIfPending hold, i, w => writeWith i (World.writeHoldIfPending hold) w
  | .compareAndSetState id expected new now, i, w =>
    writeWith i (World.compareAndSetState id expected new now) w
  | .recordLifecycleTransition execution contract outbox, i, w =>
    commitWith i (World.recordLifecycleTransition execution contract outbox) w
  | .recordAuthorization capability execution outbox now, i, w =>
    transactWith i (World.recordAuthorization capability execution outbox now) w
  | .claimPendingReconciliation limit owner now ttl, i, w =>
    writeWith i (World.claimPendingReconciliation limit owner now ttl) w
  | .renewReconciliationLease lease expiresAt now, i, w =>
    writeWith i (World.renewReconciliationLease lease expiresAt now) w
  | .updateOutboxRecord record clear override, i, w =>
    transactWith i (World.updateOutboxRecord record clear override) w
  | .updateOutboxRecordClaimed record lease clear now, i, w =>
    transactWith i (World.updateOutboxRecordClaimed record lease clear now) w
  | .appendEvent event, i, w => commitWith i (World.appendEvent event) w
  | .appendEventWithEdges event edges, i, w =>
    commitWith i (World.appendEventWithEdges event edges) w
  | .appendEdges toEventId edges, i, w => commitWith i (World.appendEdges toEventId edges) w
  | .appendAudit, i, w => readWith i (fun _ => ()) w
  | .evaluatePolicy _, i, w => (i.policy, w)
  | .checkMfa _, i, w => (i.mfaAccepted, w)
  | .deadline, i, w => (i.elapsed, w)
  | .adapterPrepare _, i, w => (i.prepareReply, w)
  | .generatePlan _ _, i, w => (i.plan, w)
  | .adapterExecute _ _, i, w => (i.executeReply, w)
  | .adapterVerify _, i, w => (i.verifyReply, w)
  | .adapterCompensate _, i, w => (i.compensateReply, w)

/-- A gateway process. -/
abbrev Gw (α : Type) := Prog Op Op.Result α

/-- Perform one operation. -/
def perform (o : Op) : Gw o.Result := Prog.op o

/-! ## Store routines -/

/-- The `Display` of a `StoreError`; the driver's own text is not kept. -/
def StoreError.text : StoreError → String
  | .notFound entity id => s!"{entity} '{id}' was not found"
  | .invalidState message => s!"invalid state transition: {message}"
  | .other message => message
  | .database => "database error"

/-- A store routine of several statements, which ends with a `StoreError` when one fails. -/
abbrev StoreM (α : Type) := ExceptT StoreError (Prog Op Op.Result) α

/-- An operation that cannot fail: the clock, the uuid generator. -/
def draw (o : Op) : StoreM o.Result := ExceptT.lift (perform o)

/-- A statement whose error ends the routine (`?`). -/
def statement {α : Type} (x : Gw (StoreResult α)) : StoreM α := ExceptT.mk x

end FerrumGate
