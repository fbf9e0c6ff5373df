import FerrumGate.Store.OutboxRepo
import FerrumGate.Gateway.Provenance

/-!
# The outbox seam of the lifecycle handlers

`ferrum-gateway/src/execution/lifecycle_outbox.rs`: a lifecycle handler records its state change
together with an outbox record, appends the events the record obliges it to, and marks each one
written; a handler that gets through closes the record itself.
-/

namespace FerrumGate

open Interleave

/-- The idempotency key of a lifecycle transition. -/
def transitionKey (name : TransitionName) (execution : ExecutionRecord)
    (contract : Option RollbackContract) : IdempotencyKey :=
  .transition name execution.executionId execution.state (contract.map (·.state))

/-- The outbox record of a lifecycle transition. -/
def transitionRecord (outboxId : LifecycleOutboxId) (now : Timestamp) (name : TransitionName)
    (previous updated : ExecutionRecord) (previousContract updatedContract : Option RollbackContract)
    (kinds : List ProvenanceEventKind) : LifecycleOutboxRecord :=
  .pendingWithObligations outboxId now updated.executionId
    ((updatedContract.map (·.contractId)).or updated.rollbackContractId)
    (some previous.state) updated.state
    (previousContract.map (·.state)) (updatedContract.map (·.state))
    kinds (transitionKey name updated updatedContract)

/-- **`record_lifecycle_transition_outbox_with_obligations`**. -/
def recordLifecycleTransitionOutbox (name : TransitionName) (previous updated : ExecutionRecord)
    (previousContract updatedContract : Option RollbackContract)
    (kinds : List ProvenanceEventKind) : StoreM LifecycleOutboxRecord := do
  let outboxId : LifecycleOutboxId := ⟨← draw .newUuid⟩
  let now ← draw .readClock
  let outbox := transitionRecord outboxId now name previous updated previousContract
    updatedContract kinds
  statement (perform (.recordLifecycleTransition updated updatedContract outbox))
  pure outbox

/-- `lifecycle_event_metadata`. -/
def lifecycleEventMetadata (outbox : LifecycleOutboxRecord) (metadata : EventMetadata) :
    EventMetadata :=
  { metadata with
    lifecycleOutboxId := some outbox.outboxId
    idempotencyKey := some outbox.idempotencyKey }

/-- An event about an execution, as every lifecycle handler builds it. -/
def executionEvent (eventId : EventId) (occurredAt : Timestamp) (kind : ProvenanceEventKind)
    (execution : ExecutionRecord) (contractId : Option RollbackContractId)
    (metadata : EventMetadata) : ProvenanceEvent :=
  { eventId, kind, occurredAt, metadata
    intentId := some execution.intentId
    proposalId := some execution.proposalId
    executionId := some execution.executionId
    capabilityId := some execution.capabilityId
    rollbackContractId := contractId }

/-- Build the event with a fresh id at the given instant and append it. -/
def appendExecutionEventAt (occurredAt : Timestamp) (kind : ProvenanceEventKind)
    (execution : ExecutionRecord) (contractId : Option RollbackContractId)
    (metadata : EventMetadata) : StoreM EventId := do
  let eventId : EventId := ⟨← draw .newUuid⟩
  appendGovernanceEvent (executionEvent eventId occurredAt kind execution contractId metadata)
  pure eventId

/-- The same, at the time of the clock. -/
def appendExecutionEvent (kind : ProvenanceEventKind) (execution : ExecutionRecord)
    (contractId : Option RollbackContractId) (metadata : EventMetadata) : StoreM EventId := do
  let eventId : EventId := ⟨← draw .newUuid⟩
  let now ← draw .readClock
  appendGovernanceEvent (executionEvent eventId now kind execution contractId metadata)
  pure eventId

/-- `mark_lifecycle_obligation_written`. -/
def markLifecycleObligationWritten (outbox : LifecycleOutboxRecord) (kind : ProvenanceEventKind)
    (eventId : EventId) : StoreM Unit := do
  let updated ← markProvenanceObligationWritten outbox.outboxId kind eventId
  ofExcept (ensure (updated = true)
    (.other "lifecycle outbox obligation update did not affect any row"))

/-- `mark_lifecycle_transition_reconciled`. -/
def markLifecycleTransitionReconciled (outbox : LifecycleOutboxRecord) (eventId : EventId) :
    StoreM Unit := do
  markLifecycleObligationWritten outbox outbox.intendedProvenanceKind eventId
  markReconciled outbox.outboxId

/-- The finish time of a terminal state; the clock is not read for others. -/
def finishTime (new : ExecutionState) : StoreM Timestamp :=
  if executionStateIsTerminal new then draw .readClock else pure 0

/-- `compare_and_set_state`. -/
def compareAndSetState (id : ExecutionId) (expected : List ExecutionState)
    (new : ExecutionState) : StoreM Bool := do
  if expected.isEmpty then pure false
  else
    let now ← finishTime new
    statement (perform (.compareAndSetState id expected new now))

/-- `append_audit_checked`: a failed audit append stops the handler only when configured so. -/
def appendAuditChecked (state : AppState) : Handler Unit := do
  match ← call .appendAudit with
  | .ok () => pure ()
  | .error _ =>
    demand (state.auditFailClosed = false)
      ⟨.serviceUnavailable, .internal, "audit append failed: action blocked by fail-closed policy"⟩

end FerrumGate
