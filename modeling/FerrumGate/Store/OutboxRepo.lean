import FerrumGate.Store.Op

/-!
# The routines on an outbox record

`LifecycleOutboxRepo` of `ferrum-store/src/sqlite/lifecycle_outbox.rs`. Each routine that changes
a record reads it in one statement and writes the changed copy back in another: the handlers' and
the operator's routines with `updateOutboxRecord`, a reconciler's with `updateOutboxRecordClaimed`
under its lease.
-/

namespace FerrumGate

open Interleave

/-- `require_updated`. -/
def requireUpdated (updated : Bool) : StoreM Unit :=
  ofExcept (ensure (updated = true) (.other "lifecycle outbox update did not affect any row"))

/-- `require_all_obligations_satisfied`. -/
def requireAllObligationsSatisfied (record : LifecycleOutboxRecord) : StoreM Unit :=
  ofExcept (ensure (record.obligationsSatisfied = true)
    (.other s!"lifecycle outbox {record.outboxId.uuid} has unsatisfied provenance obligations"))

/-! ## Without a lease -/

/-- `mark_provenance_obligation_written`. -/
def markProvenanceObligationWritten (id : LifecycleOutboxId) (kind : ProvenanceEventKind)
    (eventId : EventId) : StoreM Bool := do
  match ← statement (perform (.getOutbox id)) with
  | none => throw (.notFound "lifecycle_outbox" (toString id.uuid))
  | some record =>
    let now ← draw .readClock
    statement (perform
      (.updateOutboxRecord (record.markObligationWritten kind eventId now) false false))

/-- `mark_reconciled`. -/
def markReconciled (id : LifecycleOutboxId) : StoreM Unit := do
  match ← statement (perform (.getOutbox id)) with
  | none => pure ()
  | some record =>
    let now ← draw .readClock
    let record := { record with status := .reconciled, updatedAt := now }
    requireAllObligationsSatisfied record
    requireUpdated (← statement (perform (.updateOutboxRecord record true false)))

/-- `reset_for_retry`: the operator's override puts the record back to the reconciler. -/
def resetForRetry (id : LifecycleOutboxId) : StoreM (Option LifecycleOutboxRecord) := do
  match ← statement (perform (.getOutbox id)) with
  | none => pure none
  | some record =>
    let now ← draw .readClock
    let record := { record with status := .pendingProvenance, lastError := none, updatedAt := now }
    requireUpdated (← statement (perform (.updateOutboxRecord record true true)))
    pure (some record)

/-- `mark_operator_resolved`: the operator's override closes the record. -/
def markOperatorResolved (id : LifecycleOutboxId) : StoreM (Option LifecycleOutboxRecord) := do
  match ← statement (perform (.getOutbox id)) with
  | none => pure none
  | some record =>
    let now ← draw .readClock
    let record := { record with status := .reconciled, lastError := none, updatedAt := now }
    requireUpdated (← statement (perform (.updateOutboxRecord record true true)))
    pure (some record)

/-! ## Under a lease -/

/-- `claim_pending_reconciliation`: the clock is read before the transaction. -/
def claimPendingReconciliation (limit : Nat) (owner : String) (ttl : Timestamp) :
    StoreM (List LifecycleOutboxClaim) := do
  let now ← draw .readClock
  statement (perform (.claimPendingReconciliation limit owner now ttl))

/-- `renew_reconciliation_lease`: one reading for the new expiry, one for the comparison. -/
def renewReconciliationLease (lease : LifecycleOutboxLease) (ttl : Timestamp) : StoreM Bool := do
  let expiryBase ← draw .readClock
  let now ← draw .readClock
  statement (perform (.renewReconciliationLease lease (expiryBase + ttl) now))

/-- `update_outbox_record_claimed`, with the clock reading it compares the lease with. -/
def writeClaimed (record : LifecycleOutboxRecord) (lease : LifecycleOutboxLease)
    (clearLease : Bool) : StoreM Bool := do
  let now ← draw .readClock
  statement (perform (.updateOutboxRecordClaimed record lease clearLease now))

/-- `mark_provenance_obligation_written_claimed`. -/
def markProvenanceObligationWrittenClaimed (lease : LifecycleOutboxLease)
    (kind : ProvenanceEventKind) (eventId : EventId) : StoreM Bool := do
  match ← statement (perform (.getOutbox lease.outboxId)) with
  | none => pure false
  | some record =>
    let now ← draw .readClock
    writeClaimed (record.markObligationWritten kind eventId now) lease false

/-- `mark_reconciled_claimed`. -/
def markReconciledClaimed (lease : LifecycleOutboxLease) : StoreM Bool := do
  let checkedAt ← draw .readClock
  if ← statement (perform (.leaseIsCurrent lease checkedAt)) then
    match ← statement (perform (.getOutbox lease.outboxId)) with
    | none => pure false
    | some record =>
      let now ← draw .readClock
      let record := { record with status := .reconciled, updatedAt := now }
      requireAllObligationsSatisfied record
      writeClaimed record lease true
  else pure false

/-- `mark_needs_operator_review_claimed`. -/
def markNeedsOperatorReviewClaimed (lease : LifecycleOutboxLease) (reason : String) :
    StoreM Bool := do
  match ← statement (perform (.getOutbox lease.outboxId)) with
  | none => pure false
  | some record =>
    let now ← draw .readClock
    let record := { record with
      status := .needsOperatorReview
      lastError := some reason
      attemptCount := record.attemptCount + 1
      updatedAt := now }
    writeClaimed record lease true

/-- `ReconciliationFailureDisposition`. -/
inductive ReconciliationFailureDisposition where
  | retryable | needsOperatorReview | leaseLost
  deriving DecidableEq

/-- `record_reconciliation_failure`. -/
def recordReconciliationFailure (lease : LifecycleOutboxLease) (error : String)
    (maxAttempts : Nat) : StoreM ReconciliationFailureDisposition := do
  match ← statement (perform (.getOutbox lease.outboxId)) with
  | none => pure .leaseLost
  | some record =>
    let attempts := record.attemptCount + 1
    let now ← draw .readClock
    let disposition : ReconciliationFailureDisposition :=
      if maxAttempts ≤ attempts then .needsOperatorReview else .retryable
    let record := { record with
      attemptCount := attempts
      lastError := some error
      updatedAt := now
      status := if maxAttempts ≤ attempts then .needsOperatorReview else record.status }
    if ← writeClaimed record lease true then pure disposition else pure .leaseLost

end FerrumGate
