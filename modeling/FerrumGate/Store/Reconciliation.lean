import FerrumGate.Store.OutboxRepo

/-!
# Reconciliation of the lifecycle outbox

`ferrum-store/src/reconciliation.rs`: a run claims batches of pending records under a lease,
checks that execution and contract are in the states the record promises, finds or repairs one
event per obligation with the edge to its parent, and closes the record. Each record is handled
under a timeout; a failure or a timeout is counted on the record, and the third one sends it to
the operator.

The background renewal of a lease is a process of its own (`renewalTask`).
-/

namespace FerrumGate

open Interleave

def reconciliationLeaseTtl : Timestamp := seconds 120

def maxReconciliationAttempts : Nat := 3

def maxClaimsPerLeaseBatch : Nat := 3

structure LifecycleReconciliationReport where
  scanned : Nat := 0
  alreadyReconciled : Nat := 0
  repairedMissingProvenance : Nat := 0
  needsOperatorReview : Nat := 0
  failures : Nat := 0
  retryableFailures : Nat := 0
  claimConflicts : Nat := 0
  timedOut : Nat := 0
  deriving DecidableEq

inductive ReconcileOutcome where
  | alreadyReconciled | repairedMissingProvenance | needsOperatorReview
  deriving DecidableEq

/-! ## One record -/

/-- `require_fence`. -/
def requireFence (updated : Bool) : StoreM Unit :=
  ofExcept (ensure (updated = true)
    (.other "lifecycle reconciliation lease fencing token is stale"))

/-- `mark_needs_operator_review_claimed(…).and_then(require_fence)`, and the outcome. -/
def sendToReview (lease : LifecycleOutboxLease) (reason : String) : StoreM ReconcileOutcome := do
  requireFence (← markNeedsOperatorReviewClaimed lease reason)
  pure .needsOperatorReview

/-- `mark_ambiguous_parent`. -/
def markAmbiguousParent (lease : LifecycleOutboxLease) : StoreM ReconcileOutcome :=
  sendToReview lease "required parent edge is ambiguous or missing"

/-- `renew_or_fence`. -/
def renewOrFence (lease : LifecycleOutboxLease) (ttl : Timestamp) : StoreM Unit := do
  requireFence (← renewReconciliationLease lease ttl)

/-- `obligations_for_record`. -/
def obligationsForRecord (record : LifecycleOutboxRecord) : List ProvenanceObligation :=
  if record.provenanceObligations.isEmpty then
    [{ ProvenanceObligation.pending record.intendedProvenanceKind with
        eventId := record.provenanceEventId }]
  else record.provenanceObligations

/-- The filter of `discover_matching_event`. -/
def eventOfRecord (record : LifecycleOutboxRecord) (event : ProvenanceEvent) : Bool :=
  (record.rollbackContractId.isNone || event.rollbackContractId = record.rollbackContractId) &&
  event.metadata.lifecycleOutboxId = some record.outboxId &&
  event.metadata.idempotencyKey = some record.idempotencyKey

/-- `discover_matching_event`: the only event of the kind that carries the record's id and key. -/
def discoverMatchingEvent (record : LifecycleOutboxRecord) (obligation : ProvenanceObligation) :
    StoreM (Option ProvenanceEvent) := do
  let events ← statement (perform (.queryEvents
    { executionId := some record.executionId, eventKind := some obligation.eventKind }))
  match events.filter (eventOfRecord record) with
  | [event] => pure (some event)
  | _ => pure none

/-- The candidates for the parent of an obligation's event. -/
def parentCandidates (record : LifecycleOutboxRecord) (execution : ExecutionRecord)
    (parentKind : ProvenanceEventKind) : StoreM (List ProvenanceEvent) := do
  let candidates ← statement (perform (.queryEvents
    { executionId := some record.executionId, eventKind := some parentKind }))
  if candidates.isEmpty && parentKind = .capabilityMinted then
    statement (perform (.queryEvents
      { capabilityId := some execution.capabilityId, eventKind := some parentKind }))
  else pure candidates

/-- `required_parent_edge`: none when the obligation has no parent kind, or when there is not
exactly one candidate. -/
def requiredParentEdge (record : LifecycleOutboxRecord) (execution : ExecutionRecord)
    (obligation : ProvenanceObligation) (eventId : EventId) : StoreM (Option ProvenanceEdge) := do
  match obligation.parentKind with
  | none => pure none
  | some parentKind =>
    match ← parentCandidates record execution parentKind with
    | [parent] =>
      pure (some
        { edgeType := obligation.edgeType.getD .caused
          fromEventId := parent.eventId
          toEventId := eventId })
    | _ => pure none

/-- `ensure_required_parent_edge`. -/
def ensureRequiredParentEdge (claim : LifecycleOutboxClaim) (execution : ExecutionRecord)
    (obligation : ProvenanceObligation) (eventId : EventId) (ttl : Timestamp) : StoreM Bool := do
  let existing ← statement (perform (.getEdgesTo eventId))
  match obligation.edgeType with
  | none => pure true
  | some expected =>
    if existing.any (·.edgeType = expected) then pure true
    else
      match ← requiredParentEdge claim.record execution obligation eventId with
      | none => pure false
      | some edge =>
        renewOrFence claim.lease ttl
        statement (perform (.appendEdges eventId [edge]))
        pure true

/-- `repaired_event`, with the fresh id and the clock reading it takes. -/
def repairedEvent (eventId : EventId) (now : Timestamp) (record : LifecycleOutboxRecord)
    (execution : ExecutionRecord) (contract : Option RollbackContract)
    (kind : ProvenanceEventKind) : ProvenanceEvent :=
  { eventId, kind
    occurredAt := now
    intentId := some execution.intentId
    proposalId := some execution.proposalId
    executionId := some execution.executionId
    capabilityId := some execution.capabilityId
    rollbackContractId := contract.map (·.contractId)
    metadata :=
      { lifecycleOutboxId := some record.outboxId
        idempotencyKey := some record.idempotencyKey } }

/-- What one turn of the obligation loop found. -/
inductive ObligationOutcome where
  | present | discovered | repaired | ambiguous
  deriving DecidableEq

/-- The event of a satisfied obligation that is really stored. -/
def presentEvent (obligation : ProvenanceObligation) : StoreM (Option EventId) := do
  match obligation.eventId with
  | none => pure none
  | some eventId =>
    let event ← statement (perform (.getEvent eventId))
    pure (event.map fun _ => eventId)

/-- One turn of the obligation loop of `reconcile_record`: keep the event that is there, adopt the
one that carries the record's key, or append the missing one. -/
def reconcileObligation (claim : LifecycleOutboxClaim) (execution : ExecutionRecord)
    (contract : Option RollbackContract) (ttl : Timestamp) (obligation : ProvenanceObligation) :
    StoreM ObligationOutcome := do
  match ← presentEvent obligation with
  | some eventId =>
    if ← ensureRequiredParentEdge claim execution obligation eventId ttl then pure .present
    else pure .ambiguous
  | none =>
    match ← discoverMatchingEvent claim.record obligation with
    | some event =>
      if ← ensureRequiredParentEdge claim execution obligation event.eventId ttl then
        requireFence (← markProvenanceObligationWrittenClaimed claim.lease obligation.eventKind
          event.eventId)
        pure .discovered
      else pure .ambiguous
    | none =>
      let eventId : EventId := ⟨← draw .newUuid⟩
      let now ← draw .readClock
      let event := repairedEvent eventId now claim.record execution contract obligation.eventKind
      match ← requiredParentEdge claim.record execution obligation eventId with
      | none => pure .ambiguous
      | some edge =>
        renewOrFence claim.lease ttl
        statement (perform (.appendEventWithEdges event [edge]))
        requireFence (← markProvenanceObligationWrittenClaimed claim.lease obligation.eventKind
          eventId)
        pure .repaired

/-- The obligation loop and the closing mark. -/
def reconcileObligations (claim : LifecycleOutboxClaim) (execution : ExecutionRecord)
    (contract : Option RollbackContract) (ttl : Timestamp) :
    List ProvenanceObligation → Bool → StoreM ReconcileOutcome
  | [], repaired => do
    requireFence (← markReconciledClaimed claim.lease)
    pure (if repaired then .repairedMissingProvenance else .alreadyReconciled)
  | obligation :: rest, repaired => do
    match ← reconcileObligation claim execution contract ttl obligation with
    | .ambiguous => markAmbiguousParent claim.lease
    | .repaired => reconcileObligations claim execution contract ttl rest true
    | _ => reconcileObligations claim execution contract ttl rest repaired

/-- **`reconcile_record`**. -/
def reconcileRecord (claim : LifecycleOutboxClaim) (ttl : Timestamp) :
    StoreM ReconcileOutcome := do
  let record := claim.record
  if record.status = .reconciled then pure .alreadyReconciled
  else
    match ← statement (perform (.getExecution record.executionId)) with
    | none => sendToReview claim.lease "execution missing during lifecycle reconciliation"
    | some execution =>
      if execution.state ≠ record.newExecutionState then
        let stored := execution.state.debug
        let expected := record.newExecutionState.debug
        sendToReview claim.lease
          s!"execution state drift: stored={stored}, outbox_expected={expected}"
      else
        match record.rollbackContractId with
        | none =>
          reconcileObligations claim execution none ttl (obligationsForRecord record) false
        | some contractId =>
          match ← statement (perform (.getContract contractId)) with
          | none =>
            sendToReview claim.lease "rollback contract missing during lifecycle reconciliation"
          | some contract =>
            if some contract.state ≠ record.newRollbackState then
              let stored := contract.state.debug
              let expected :=
                match record.newRollbackState with
                | some state => "Some(" ++ state.debug ++ ")"
                | none => "None"
              sendToReview claim.lease
                s!"rollback state drift: stored={stored}, outbox_expected={expected}"
            else
              reconcileObligations claim execution (some contract) ttl
                (obligationsForRecord record) false

/-! ## A run -/

/-- `record_failure`. -/
def recordFailure (lease : LifecycleOutboxLease) (error : String)
    (report : LifecycleReconciliationReport) : Gw LifecycleReconciliationReport := do
  let report := { report with failures := report.failures + 1 }
  match ← (recordReconciliationFailure lease error maxReconciliationAttempts).run with
  | .ok .retryable => pure { report with retryableFailures := report.retryableFailures + 1 }
  | .ok .needsOperatorReview =>
    pure { report with needsOperatorReview := report.needsOperatorReview + 1 }
  | .ok .leaseLost => pure { report with claimConflicts := report.claimConflicts + 1 }
  | .error _ => pure { report with claimConflicts := report.claimConflicts + 1 }

/-- One claimed record: `reconcile_record` under its timeout, and the bookkeeping. -/
def reconcileClaim (claim : LifecycleOutboxClaim) (ttl : Timestamp)
    (report : LifecycleReconciliationReport) : Gw LifecycleReconciliationReport := do
  match ← (reconcileRecord claim ttl).run.underDeadline .deadline id with
  | some (.ok .alreadyReconciled) =>
    pure { report with alreadyReconciled := report.alreadyReconciled + 1 }
  | some (.ok .repairedMissingProvenance) =>
    pure { report with repairedMissingProvenance := report.repairedMissingProvenance + 1 }
  | some (.ok .needsOperatorReview) =>
    pure { report with needsOperatorReview := report.needsOperatorReview + 1 }
  | some (.error e) => recordFailure claim.lease e.text report
  | none =>
    recordFailure claim.lease "lifecycle reconciliation timed out after 30 seconds"
      { report with timedOut := report.timedOut + 1 }

/-- The inner loop over the fresh claims of a batch. -/
def reconcileClaims (ttl : Timestamp) :
    List LifecycleOutboxClaim → LifecycleReconciliationReport → Gw LifecycleReconciliationReport
  | [], report => pure report
  | claim :: rest, report => do
    let report ← reconcileClaim claim ttl report
    reconcileClaims ttl rest report

/-- The claims whose id has not been seen, and whether one had been. -/
def freshClaims (seen : List LifecycleOutboxId) :
    List LifecycleOutboxClaim → List LifecycleOutboxClaim × List LifecycleOutboxId × Bool
  | [] => ([], seen, false)
  | claim :: rest =>
    if claim.lease.outboxId ∈ seen then
      let (fresh, seen, _) := freshClaims seen rest
      (fresh, seen, true)
    else
      let (fresh, seen, duplicate) := freshClaims (claim.lease.outboxId :: seen) rest
      (claim :: fresh, seen, duplicate)

/-- The outer loop. Every turn takes at least one record off `remaining`, so `limit` turns are
enough. -/
def reconcileBatches (owner : String) (ttl : Timestamp) :
    (turns remaining : Nat) → List LifecycleOutboxId → LifecycleReconciliationReport →
    StoreM LifecycleReconciliationReport
  | 0, _, _, report => pure report
  | turns + 1, remaining, seen, report => do
    if remaining = 0 then pure report
    else
      let claims ← claimPendingReconciliation (min remaining maxClaimsPerLeaseBatch) owner ttl
      let (fresh, seen, duplicate) := freshClaims seen claims
      if fresh.isEmpty then pure report
      else
        let report := { report with scanned := report.scanned + fresh.length }
        let report ← ExceptT.lift (reconcileClaims ttl fresh report)
        if duplicate then pure report
        else reconcileBatches owner ttl turns (remaining - fresh.length) seen report

/-- `reconcile_lifecycle_outbox_with_lease`. -/
def reconcileLifecycleOutboxWithLease (limit : Nat) (owner : String) (ttl : Timestamp) :
    StoreM LifecycleReconciliationReport :=
  reconcileBatches owner ttl limit limit [] {}

/-- **`reconcile_lifecycle_outbox`**: a run under an owner of its own. -/
def reconcileLifecycleOutbox (limit : Nat) : StoreM LifecycleReconciliationReport := do
  let uuid ← draw .newUuid
  reconcileLifecycleOutboxWithLease limit s!"lifecycle-reconciler:{uuid}" reconciliationLeaseTtl

/-- The loop of `spawn_lease_renewal`, for as many ticks as it lives. -/
def renewalTask (lease : LifecycleOutboxLease) (ttl : Timestamp) : (ticks : Nat) → Gw Unit
  | 0 => pure ()
  | ticks + 1 => do
    match ← (renewReconciliationLease lease ttl).run with
    | .ok false => pure ()
    | _ => renewalTask lease ttl ticks

end FerrumGate
