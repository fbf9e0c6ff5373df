import FerrumGate.Interleave.Rows
import FerrumGate.Proto.Provenance
import FerrumGate.Store.Transitions

/-!
# The SQLite store: tables and statements

One definition per SQL statement or transaction of `ferrum-store/src/sqlite/*.rs` that the
modelled handlers issue. A read is a function of the tables; a write returns its answer and the
new tables, or the error with which it aborts, and then nothing is written: a transaction is a
chain in `Except`, so it commits as a whole or not at all. Primary keys, the unique idempotency
key and the foreign keys of the migrations are checked where a statement can violate them.

A row is what a reader gets back (the `raw_json` column), without floats exactly what was stored; the
columns a `WHERE` clause tests are kept equal to it by every statement. A clock reading a statement
takes is an argument.
-/

namespace FerrumGate

open Interleave Interleave.Rows

/-- `StoreError`; `database` stands for what the driver reports (a violated constraint, a lost
connection, a busy database). -/
inductive StoreError where
  | notFound (entity id : String)
  | invalidState (message : String)
  | other (message : String)
  | database
  deriving DecidableEq

/-- A row of `lifecycle_outbox`: the record and its lease columns. -/
structure OutboxRow where
  record : LifecycleOutboxRecord
  leaseOwner : Option String
  leaseExpiresAt : Option Timestamp
  leaseGeneration : Nat
  deriving DecidableEq

/-- `LifecycleOutboxLease`. -/
structure LifecycleOutboxLease where
  outboxId : LifecycleOutboxId
  owner : String
  generation : Nat
  expiresAt : Timestamp
  deriving DecidableEq

/-- `LifecycleOutboxClaim`. -/
structure LifecycleOutboxClaim where
  lease : LifecycleOutboxLease
  record : LifecycleOutboxRecord
  deriving DecidableEq

/-- The tables of the store, and the number the next uuid is drawn from. -/
structure World where
  intents : List IntentEnvelope := []
  proposals : List ActionProposal := []
  capabilities : List CapabilityLease := []
  approvals : List ApprovalRequest := []
  holds : List QuarantineHold := []
  executions : List ExecutionRecord := []
  contracts : List RollbackContract := []
  outbox : List OutboxRow := []
  events : List ProvenanceEvent := []
  edges : List ProvenanceEdge := []
  nextUuid : Nat := 0

instance : Keyed IntentEnvelope IntentId := ⟨(·.intentId)⟩
instance : Keyed ActionProposal ProposalId := ⟨(·.proposalId)⟩
instance : Keyed CapabilityLease CapabilityId := ⟨(·.capabilityId)⟩
instance : Keyed ApprovalRequest ApprovalId := ⟨(·.approvalId)⟩
instance : Keyed QuarantineHold QuarantineHoldId := ⟨(·.holdId)⟩
instance : Keyed ExecutionRecord ExecutionId := ⟨(·.executionId)⟩
instance : Keyed RollbackContract RollbackContractId := ⟨(·.contractId)⟩
instance : Keyed OutboxRow LifecycleOutboxId := ⟨(·.record.outboxId)⟩
instance : Keyed ProvenanceEvent EventId := ⟨(·.eventId)⟩

namespace World

/-! ## Inserts of workflow objects -/

def insertIntent (intent : IntentEnvelope) (w : World) : Except StoreError World := do
  ensure (find w.intents intent.intentId = none) .database
  return { w with intents := w.intents ++ [intent] }

def insertProposal (proposal : ActionProposal) (w : World) : Except StoreError World := do
  ensure (find w.proposals proposal.proposalId = none) .database
  ensure (find w.intents proposal.intentId ≠ none) .database
  return { w with proposals := w.proposals ++ [proposal] }

def insertCapability (lease : CapabilityLease) (w : World) : Except StoreError World := do
  ensure (find w.capabilities lease.capabilityId = none) .database
  ensure (find w.intents lease.intentId ≠ none) .database
  ensure (find w.proposals lease.proposalId ≠ none) .database
  return { w with capabilities := w.capabilities ++ [lease] }

def insertApproval (approval : ApprovalRequest) (w : World) : Except StoreError World := do
  ensure (find w.approvals approval.approvalId = none) .database
  ensure (find w.intents approval.intentId ≠ none) .database
  ensure (find w.proposals approval.proposalId ≠ none) .database
  return { w with approvals := w.approvals ++ [approval] }

def insertHold (hold : QuarantineHold) (w : World) : Except StoreError World := do
  ensure (find w.holds hold.holdId = none) .database
  ensure (find w.intents hold.intentId ≠ none) .database
  ensure (find w.proposals hold.proposalId ≠ none) .database
  return { w with holds := w.holds ++ [hold] }

/-! ## Capabilities -/

/-- `update`: overwrite the row, whatever its status. -/
def updateCapability (lease : CapabilityLease) (w : World) : World :=
  { w with capabilities := put w.capabilities lease }

/-- An `UPDATE … WHERE key = ? AND guard`: whether a row was affected, and the tables after it. -/
def updateWhere {V : Type} (found : Option V) (guard : V → Prop) [DecidablePred guard]
    (write : V → World) (w : World) : Bool × World :=
  match found with
  | none => (false, w)
  | some row => if guard row then (true, write row) else (false, w)

/-- `update_status_if_active`. -/
def updateStatusIfActive (id : CapabilityId) (status : CapabilityStatus) (now : Timestamp)
    (w : World) : Bool × World :=
  updateWhere (find w.capabilities id) (fun lease => lease.status = .active ∧ now < lease.expiresAt)
    (fun lease => { w with capabilities := put w.capabilities { lease with status := status } }) w

/-- `revoke_if_active`. -/
def revokeIfActive (id : CapabilityId) (revokedAt : Timestamp) (w : World) : Bool × World :=
  updateWhere (find w.capabilities id)
    (fun lease => lease.status = .active ∧ revokedAt < lease.expiresAt)
    (fun lease =>
      { w with
        capabilities :=
          put w.capabilities { lease with status := .revoked, revokedAt := some revokedAt } }) w

/-! ## Approvals and quarantine holds -/

/-- The conditional update of `resolve_approval_sqlite`, writing the snapshot it was given. -/
def resolveApproval (approval : ApprovalRequest) (now : Timestamp) (w : World) : Bool × World :=
  updateWhere (find w.approvals approval.approvalId)
    (fun row => row.state = .pending ∧ now < row.expiresAt)
    (fun _ => { w with approvals := put w.approvals approval }) w

/-- The conditional update of `expire_stale_pending_sqlite` on one approval. -/
def expireApproval (approval : ApprovalRequest) (w : World) : Bool × World :=
  updateWhere (find w.approvals approval.approvalId) (fun row => row.state = .pending)
    (fun _ => { w with approvals := put w.approvals approval }) w

/-- The conditional update of a hold, when it is resolved or expired. -/
def writeHoldIfPending (hold : QuarantineHold) (w : World) : Bool × World :=
  updateWhere (find w.holds hold.holdId) (fun row => row.state = .pending)
    (fun _ => { w with holds := put w.holds hold }) w

/-- `get_by_proposal`: the newest hold of the proposal. -/
def holdByProposal (proposalId : ProposalId) (w : World) : Option QuarantineHold :=
  ((w.holds.filter (·.proposalId = proposalId)).insertionSort
    (fun a b => b.createdAt ≤ a.createdAt)).head?

/-- The selection of `expire_stale_pending_sqlite` for approvals. -/
def stalePendingApprovals (now ageCutoff : Timestamp) (batchSize : Nat) (w : World) :
    List ApprovalRequest :=
  (w.approvals.filter fun a =>
    a.state = .pending ∧ (a.expiresAt < now ∨ a.createdAt < ageCutoff)).take batchSize

/-- The selection of `expire_stale_pending_sqlite` for holds. -/
def stalePendingHolds (now ageCutoff : Timestamp) (batchSize : Nat) (w : World) :
    List QuarantineHold :=
  (w.holds.filter fun h =>
    h.state = .pending ∧ (h.expiresAt < now ∨ h.createdAt < ageCutoff)).take batchSize

/-! ## Executions -/

/-- `compare_and_set_state`; a terminal state also gets its finish time. -/
def compareAndSetState (id : ExecutionId) (expected : List ExecutionState)
    (new : ExecutionState) (now : Timestamp) (w : World) : Bool × World :=
  updateWhere (find w.executions id) (fun row => row.state ∈ expected)
    (fun row =>
      { w with
        executions :=
          put w.executions
            { row with
              state := new
              finishedAt := if executionStateIsTerminal new then some now else row.finishedAt } })
    w

/-- `list_stale_in_flight`. -/
def staleInFlight (staleBefore : Timestamp) (states : List ExecutionState) (limit : Nat)
    (w : World) : List ExecutionRecord :=
  ((w.executions.filter fun x =>
      x.state ∈ states ∧ x.startedAt < staleBefore ∧ x.finishedAt = none).insertionSort
    (fun a b => a.startedAt ≤ b.startedAt)).take limit

/-- The `UPDATE executions … WHERE execution_id = ? AND state = ?` of a lifecycle transition. -/
def updateExecution (expected : ExecutionState) (execution : ExecutionRecord) (w : World) :
    Except StoreError World :=
  match find w.executions execution.executionId with
  | some row =>
    if row.state = expected then .ok { w with executions := put w.executions execution }
    else .error (changed execution)
  | none => .error (changed execution)
where
  changed (execution : ExecutionRecord) : StoreError :=
    .invalidState s!"execution {execution.executionId.uuid} state changed before lifecycle transition"

/-- The `UPDATE rollback_contracts … WHERE contract_id = ? AND state = ?`. -/
def updateContract (expected : RollbackState) (contract : RollbackContract) (w : World) :
    Except StoreError World :=
  match find w.contracts contract.contractId with
  | some row =>
    if row.state = expected then .ok { w with contracts := put w.contracts contract }
    else .error (changed contract)
  | none => .error (changed contract)
where
  changed (contract : RollbackContract) : StoreError :=
    .invalidState
      s!"rollback contract {contract.contractId.uuid} state changed before lifecycle transition"

/-- The `INSERT INTO rollback_contracts`. -/
def insertContract (contract : RollbackContract) (w : World) : Except StoreError World := do
  ensure (find w.contracts contract.contractId = none) .database
  ensure (find w.intents contract.intentId ≠ none) .database
  ensure (find w.proposals contract.proposalId ≠ none) .database
  ensure (find w.executions contract.executionId ≠ none) .database
  return { w with contracts := w.contracts ++ [contract] }

/-- The contract part of a lifecycle transition: an update when the outbox record names the
previous contract state, an insert when it does not. -/
def writeContract (previous : Option RollbackState) (contract : RollbackContract) (w : World) :
    Except StoreError World :=
  match previous with
  | some expected => updateContract expected contract w
  | none => insertContract contract w

/-- `insert_outbox_record_tx`: a record with a known idempotency key is refused. -/
def insertOutboxRecord (record : LifecycleOutboxRecord) (w : World) : Except StoreError World := do
  ensure (∀ row ∈ w.outbox, row.record.idempotencyKey ≠ record.idempotencyKey)
    (.other s!"lifecycle outbox idempotency conflict for key {record.idempotencyKey.text}")
  ensure (find w.outbox record.outboxId = none) .database
  ensure (find w.executions record.executionId ≠ none) .database
  ensure (∀ c ∈ record.rollbackContractId, find w.contracts c ≠ none) .database
  return { w with
    outbox := w.outbox ++
      [{ record, leaseOwner := none, leaseExpiresAt := none, leaseGeneration := 0 }] }

/-- The checks of `record_lifecycle_transition` that read no table. -/
def checkTransition (execution : ExecutionRecord) (contract : Option RollbackContract)
    (outbox : LifecycleOutboxRecord) : Except StoreError ExecutionState := do
  match outbox.previousExecutionState with
  | none =>
    throw (.invalidState s!"lifecycle outbox {outbox.outboxId.uuid} missing previous execution state")
  | some expected =>
    ensure (isValidExecutionTransition expected execution.state = true)
      (.invalidState
        s!"invalid execution transition from {expected.debug} to {execution.state.debug}")
    match contract, outbox.previousRollbackState with
    | some contract, some previous =>
      ensure (isValidRollbackTransition previous contract.state = true)
        (.invalidState
          s!"invalid rollback transition from {previous.debug} to {contract.state.debug}")
      return expected
    | _, _ => return expected

/-- **`record_lifecycle_transition`**: the execution, its contract and the outbox record, in one
transaction. -/
def recordLifecycleTransition (execution : ExecutionRecord) (contract : Option RollbackContract)
    (outbox : LifecycleOutboxRecord) (w : World) : Except StoreError World := do
  let expected ← checkTransition execution contract outbox
  let w ← updateExecution expected execution w
  let w ←
    match contract with
    | some contract => writeContract outbox.previousRollbackState contract w
    | none => pure w
  insertOutboxRecord outbox w

/-- The `INSERT INTO executions` of an authorization. -/
def insertExecution (execution : ExecutionRecord) (w : World) : Except StoreError World := do
  ensure (find w.executions execution.executionId = none) .database
  ensure (find w.intents execution.intentId ≠ none) .database
  ensure (find w.proposals execution.proposalId ≠ none) .database
  ensure (find w.capabilities execution.capabilityId ≠ none) .database
  return { w with executions := w.executions ++ [execution] }

/-- **`record_authorization`**: consume the capability, insert the execution and the outbox
record, in one transaction; `false` when the capability is not there to be consumed. -/
def recordAuthorization (capability : CapabilityLease) (execution : ExecutionRecord)
    (outbox : LifecycleOutboxRecord) (now : Timestamp) (w : World) :
    Except StoreError (Bool × World) :=
  match updateStatusIfActive capability.capabilityId .used now w with
  | (false, _) => .ok (false, w)
  | (true, w) => do
    let w ← insertExecution execution w
    let w ← insertOutboxRecord outbox w
    return (true, w)

/-! ## The outbox: reconciliation leases and record updates -/

/-- A record the reconciler still has to close. -/
def OutboxRow.pending (row : OutboxRow) : Bool :=
  row.record.status matches .pendingProvenance | .provenanceWritten

/-- `reconciliation_lease_expires_at IS NULL OR … <= now`. -/
def OutboxRow.leaseFree (row : OutboxRow) (now : Timestamp) : Bool :=
  match row.leaseExpiresAt with
  | none => true
  | some expires => expires ≤ now

/-- `… lease_owner = ? AND … lease_generation = ? AND … lease_expires_at > now`. -/
def OutboxRow.heldBy (row : OutboxRow) (lease : LifecycleOutboxLease) (now : Timestamp) : Bool :=
  row.leaseOwner = some lease.owner && row.leaseGeneration = lease.generation &&
    match row.leaseExpiresAt with
    | none => false
    | some expires => now < expires

/-- The ids `claim_pending_reconciliation` selects, oldest first. -/
def claimable (limit : Nat) (now : Timestamp) (w : World) : List LifecycleOutboxId :=
  (((w.outbox.filter fun row => OutboxRow.pending row && OutboxRow.leaseFree row now).map
      (·.record)).insertionSort fun a b =>
    a.createdAt < b.createdAt ∨ a.createdAt = b.createdAt ∧ a.outboxId.uuid ≤ b.outboxId.uuid
    ).take limit |>.map (·.outboxId)

/-- One turn of the loop of `claim_pending_reconciliation`. -/
def claimOne (owner : String) (now expiresAt : Timestamp) (id : LifecycleOutboxId) (w : World) :
    Option LifecycleOutboxClaim × World :=
  match find w.outbox id with
  | none => (none, w)
  | some row =>
    if OutboxRow.leaseFree row now then
      let row := { row with
        leaseOwner := some owner
        leaseExpiresAt := some expiresAt
        leaseGeneration := row.leaseGeneration + 1 }
      (some ⟨⟨id, owner, row.leaseGeneration, expiresAt⟩, row.record⟩,
        { w with outbox := put w.outbox row })
    else (none, w)

def claimAll (owner : String) (now expiresAt : Timestamp) :
    List LifecycleOutboxId → World → List LifecycleOutboxClaim × World
  | [], w => ([], w)
  | id :: ids, w =>
    let (claim, w) := claimOne owner now expiresAt id w
    let (claims, w) := claimAll owner now expiresAt ids w
    (claim.toList ++ claims, w)

/-- **`claim_pending_reconciliation`**: lease up to `limit` pending records whose lease is free. -/
def claimPendingReconciliation (limit : Nat) (owner : String) (now ttl : Timestamp) (w : World) :
    List LifecycleOutboxClaim × World :=
  claimAll owner now (now + ttl) (claimable limit now w) w

/-- **`renew_reconciliation_lease`**. -/
def renewReconciliationLease (lease : LifecycleOutboxLease) (expiresAt now : Timestamp)
    (w : World) : Bool × World :=
  updateWhere (find w.outbox lease.outboxId)
    (fun row => OutboxRow.heldBy row lease now = true ∧ OutboxRow.pending row = true)
    (fun row => { w with outbox := put w.outbox { row with leaseExpiresAt := some expiresAt } }) w

/-- `lease_is_current`. -/
def leaseIsCurrent (lease : LifecycleOutboxLease) (now : Timestamp) (w : World) : Bool :=
  match find w.outbox lease.outboxId with
  | none => false
  | some row => OutboxRow.heldBy row lease now

/-- The row with the record written and, with `clearLease`, without owner and expiry; the
generation stays. -/
def OutboxRow.write (row : OutboxRow) (record : LifecycleOutboxRecord) (clearLease : Bool) :
    OutboxRow :=
  { row with
    record := record
    leaseOwner := if clearLease then none else row.leaseOwner
    leaseExpiresAt := if clearLease then none else row.leaseExpiresAt }

/-- The foreign key of `provenance_event_id`. -/
def eventKnown (record : LifecycleOutboxRecord) (w : World) : Prop :=
  ∀ id ∈ record.provenanceEventId, find w.events id ≠ none

instance (record : LifecycleOutboxRecord) (w : World) : Decidable (eventKnown record w) :=
  inferInstanceAs (Decidable (∀ id ∈ record.provenanceEventId, find w.events id ≠ none))

/-- `update_outbox_record`: without `allowLeaseOverride` only a row without a lease owner. -/
def updateOutboxRecord (record : LifecycleOutboxRecord) (clearLease allowLeaseOverride : Bool)
    (w : World) : Except StoreError (Bool × World) :=
  match find w.outbox record.outboxId with
  | none => .ok (false, w)
  | some row =>
    if allowLeaseOverride = true ∨ row.leaseOwner = none then do
      ensure (eventKnown record w) .database
      return (true, { w with outbox := put w.outbox (OutboxRow.write row record clearLease) })
    else .ok (false, w)

/-- `update_outbox_record_claimed`: only under the lease the caller holds. -/
def updateOutboxRecordClaimed (record : LifecycleOutboxRecord) (lease : LifecycleOutboxLease)
    (clearLease : Bool) (now : Timestamp) (w : World) : Except StoreError (Bool × World) :=
  match find w.outbox lease.outboxId with
  | none => .ok (false, w)
  | some row =>
    if OutboxRow.heldBy row lease now then do
      ensure (eventKnown record w) .database
      return (true, { w with outbox := put w.outbox (OutboxRow.write row record clearLease) })
    else .ok (false, w)

/-! ## Provenance -/

/-- `append_event`. -/
def appendEvent (event : ProvenanceEvent) (w : World) : Except StoreError World := do
  ensure (find w.events event.eventId = none) .database
  return { w with events := w.events ++ [event] }

/-- `append_edges`: both ends of an edge must be stored. One edge is one statement, which is how the
reconciler calls it; `append_event_with_edges` is a transaction. -/
def appendEdges (toEventId : EventId) (edges : List ProvenanceEdge) (w : World) :
    Except StoreError World := do
  ensure (find w.events toEventId ≠ none) .database
  ensure (∀ edge ∈ edges, find w.events edge.fromEventId ≠ none) .database
  return { w with edges := w.edges ++ edges.map ({ · with toEventId := toEventId }) }

/-- `append_event_with_edges`: the event and its edges in one transaction. -/
def appendEventWithEdges (event : ProvenanceEvent) (edges : List ProvenanceEdge) (w : World) :
    Except StoreError World := do
  ensure (∀ edge ∈ edges, edge.toEventId = event.eventId)
    (.other "provenance edge to_event_id does not match appended event")
  let w ← appendEvent event w
  appendEdges event.eventId edges w

/-- `ProvenanceQueryRequest`, the filters the modelled callers use. -/
structure ProvenanceQuery where
  intentId : Option IntentId := none
  executionId : Option ExecutionId := none
  capabilityId : Option CapabilityId := none
  eventKind : Option ProvenanceEventKind := none

def ProvenanceQuery.matchesEvent (q : ProvenanceQuery) (event : ProvenanceEvent) : Bool :=
  (q.intentId.isNone || event.intentId = q.intentId) &&
  (q.executionId.isNone || event.executionId = q.executionId) &&
  (q.capabilityId.isNone || event.capabilityId = q.capabilityId) &&
  (q.eventKind.isNone || some event.kind = q.eventKind)

theorem ProvenanceQuery.matchesEvent_iff {q : ProvenanceQuery} {event : ProvenanceEvent} :
    q.matchesEvent event = true ↔
      (∀ id ∈ q.intentId, event.intentId = some id) ∧
      (∀ id ∈ q.executionId, event.executionId = some id) ∧
      (∀ id ∈ q.capabilityId, event.capabilityId = some id) ∧
      ∀ kind ∈ q.eventKind, event.kind = kind := by
  obtain ⟨intentId, executionId, capabilityId, eventKind⟩ := q
  cases intentId <;> cases executionId <;> cases capabilityId <;> cases eventKind <;>
    simp [matchesEvent, and_assoc]

/-- `query`: the matching events by `occurred_at`, ties in insertion order. -/
def queryEvents (q : ProvenanceQuery) (w : World) : List ProvenanceEvent :=
  (w.events.insertionSort fun a b => a.occurredAt ≤ b.occurredAt).filter q.matchesEvent

/-- `get_edges_to`. -/
def edgesTo (id : EventId) (w : World) : List ProvenanceEdge :=
  w.edges.filter (·.toEventId = id)

end World

end FerrumGate
