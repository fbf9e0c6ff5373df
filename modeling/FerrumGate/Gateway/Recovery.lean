import FerrumGate.Gateway.Executions

/-!
# Compensating, canceling and the HA reconciler

`ferrum-gateway/src/execution/{compensate, cancel}.rs` and `ferrum-gateway/src/ha_reconciler.rs`.
`compensateExecution` calls the adapter on the snapshot it read and records the outcome
afterwards; `cancelExecution` and the HA reconciler end executions that have not produced a side
effect, and the HA reconciler sends a stale `Running` execution to recovery.
-/

namespace FerrumGate

open Interleave

/-! ## Compensate -/

/-- The plan of an HTTP replay step that lacks its method is filled in from the contract. -/
def enrichedStep (step : CompensationStep) (method : HttpMethod) (metadata : JsonMap) :
    CompensationStep :=
  let payload := (metadata.lookup "execute_payload").getD .null
  let status := (((metadata.lookup "response_status").bind (·.asU64)).map (· % 65536)).getD 200
  { step with
    args := ((step.args.insert "method" (.str method.debug)).insert "payload" payload).insert
      "expected_statuses" (.ofList [.num (.ofNat status)]) }

/-- `enrich_http_compensation_if_needed`. -/
def enrichHttpCompensationIfNeeded (contract : RollbackContract) : RollbackContract :=
  if contract.adapterKey ≠ "http" then contract
  else match contract.compensationPlan, contract.target with
    | [step], .httpRequest method _ _ =>
      if step.operation ≠ "http.replay_v1" ∨ (step.args.lookup "method").isSome then contract
      else { contract with compensationPlan := [enrichedStep step method contract.metadata] }
    | _, _ => contract

/-- Only the compensation plan is filled in. -/
theorem enrichHttpCompensationIfNeeded_eq (contract : RollbackContract) :
    enrichHttpCompensationIfNeeded contract =
      { contract with
        compensationPlan := (enrichHttpCompensationIfNeeded contract).compensationPlan } := by
  unfold enrichHttpCompensationIfNeeded
  split
  · rfl
  · split
    · split <;> rfl
    · rfl

/-- Both sides of the pair are in recovery. -/
def inRecovery (contract : RollbackContract) (execution : ExecutionRecord) : Bool :=
  contract.state = .recoveryRequired && execution.state = .recoveryRequired

/-- The contract state an attempt to compensate leads to. -/
def compensatedContractState (recovered fromRecovery : Bool) : RollbackState :=
  if recovered then .compensated else if fromRecovery then .recoveryRequired else .failed

/-- The execution state an attempt to compensate leads to. -/
def compensatedState (recovered fromRecovery : Bool) : ExecutionState :=
  if recovered then .compensated else if fromRecovery then .recoveryRequired else .failed

/-- The contract after an attempt to compensate. -/
def compensatedContract (contract : RollbackContract) (receipt : RecoveryReceipt)
    (fromRecovery : Bool) : RollbackContract :=
  let metadata := (contract.metadata.insert "recovered" (.bool receipt.recovered)).insert
    "recovery_action" (.str "compensate")
  let metadata :=
    if receipt.recovered then metadata
    else
      let metadata := JsonMap.insert metadata "recovery_incomplete" (.bool true)
      if fromRecovery then JsonMap.insert metadata "recovery_required" (.bool true) else metadata
  let metadata :=
    if receipt.adapterMetadata.isEmpty then metadata
    else JsonMap.insert metadata "recovery_adapter_metadata"
      (JsonMap.toJson receipt.adapterMetadata)
  { contract with state := compensatedContractState receipt.recovered fromRecovery, metadata }

structure CompensateExecutionResponse where
  status : StatusCode
  executionId : ExecutionId
  compensated : Bool
  recoveryRequired : Bool
  rollbackContract : RollbackContract
  warnings : List String

/-- `compensate_execution` after the adapter has answered. -/
def recordCompensated (execution : ExecutionRecord) (contract : RollbackContract)
    (receipt : RecoveryReceipt) : StoreM RollbackContract := do
  let fromRecovery := inRecovery contract execution
  let updatedContract := compensatedContract contract receipt fromRecovery
  let finishedAt ← draw .readClock
  let updated := { execution with
    state := compensatedState receipt.recovered fromRecovery, finishedAt := some finishedAt }
  let kind := if receipt.recovered then .sideEffectCompensated else .errorRaised
  let outbox ← recordLifecycleTransitionOutbox .compensate execution updated
    (some contract) (some updatedContract) [kind]
  -- unlike the other handlers' events, this one does not carry the outbox id and key
  let eventId ← appendExecutionEvent kind updated (some updatedContract.contractId)
    { lineageParentOptional := if receipt.recovered && fromRecovery then some true else none }
  markLifecycleTransitionReconciled outbox eventId
  pure updatedContract

/-- **`compensate_execution`**. -/
def compensateExecution (state : AppState) (actor : Option AuthActor)
    (executionId : ExecutionId) : Handler CompensateExecutionResponse := do
  let execution ← loadExecution state actor executionId
  let contract ← loadContract execution
  demand (awaitsVerification contract execution = true ∨ inRecovery contract execution = true)
    (.conflict ("compensate not allowed in current state: contract=" ++ contract.state.debug ++
      ", execution=" ++ execution.state.debug))
  let contract := enrichHttpCompensationIfNeeded contract
  match ← call (.adapterCompensate contract) with
  | none => throw (.internal "adapter error")
  | some receipt =>
    let fromRecovery := inRecovery contract execution
    let updatedContract ← store (recordCompensated execution contract receipt)
    if receipt.recovered then
      pure ⟨.ok, executionId, true, false, updatedContract, []⟩
    else if fromRecovery then
      pure ⟨.accepted, executionId, false, true, updatedContract,
        ["recovery-required: compensation adapter did not report recovered=true; " ++
          "execution remains in recovery"]⟩
    else
      pure ⟨.ok, executionId, false, false, updatedContract,
        ["recovery-incomplete: compensation adapter did not report recovered=true"]⟩

/-! ## Cancel -/

/-- `execution_is_cancelable_pre_side_effect`, and the `PRE_SIDE_EFFECT_STATES` of the HA
reconciler. -/
def cancelable : ExecutionState → Bool
  | .proposed | .authorized | .prepared | .awaitingApproval => true
  | _ => false

structure CancelExecutionResponse where
  executionId : ExecutionId
  previousState : ExecutionState
  canceledAt : Timestamp

/-- **`cancel_execution`**. -/
def cancelExecution (state : AppState) (actor : Option AuthActor) (executionId : ExecutionId) :
    Handler CancelExecutionResponse := do
  let execution ← loadExecution state actor executionId
  demand (cancelable execution.state = true)
    (.conflict "cancel not allowed: execution is not in a cancelable pre-side-effect state")
  let finishedAt ← call .readClock
  let updated := { execution with state := .canceled, finishedAt := some finishedAt }
  let outbox ← store (recordLifecycleTransitionOutbox .cancel execution updated none none
    [.sideEffectRolledBack])
  appendAuditChecked state
  -- the event carries neither outbox id nor key, and its parent may be missing
  let eventId ← store (appendExecutionEvent .sideEffectRolledBack updated
    updated.rollbackContractId { lineageParentOptional := some true })
  store (markLifecycleTransitionReconciled outbox eventId)
  pure ⟨executionId, execution.state, ← call .readClock⟩

/-! ## The HA reconciler -/

/-- The contract of a stale `Running` execution. -/
def haRecoveryContract (contract : RollbackContract) : RollbackContract :=
  { contract with
    state := .recoveryRequired
    metadata := (contract.metadata.insert "recovery_required" (.bool true)).insert
      "ha_reconciler" (.bool true) }

/-- The lifecycle transition of `reconcile_running_prepared_pair`. -/
def recordHaRecovery (execution : ExecutionRecord) (contract : RollbackContract)
    (occurredAt : Timestamp) : StoreM Unit := do
  let updated := { execution with state := .recoveryRequired }
  let outbox ← recordLifecycleTransitionOutbox .haRecovery execution updated
    (some contract) (some (haRecoveryContract contract)) [.errorRaised]
  let eventId ← appendExecutionEventAt occurredAt .errorRaised execution
    execution.rollbackContractId (lifecycleEventMetadata outbox {})
  markLifecycleTransitionReconciled outbox eventId

/-- `reconcile_running_prepared_pair`: whether a transition was made. -/
def reconcileRunningPreparedPair (execution : ExecutionRecord) (occurredAt : Timestamp) :
    StoreM Bool := do
  match execution.rollbackContractId with
  | none => pure false
  | some contractId =>
    match ← statement (perform (.getContract contractId)) with
    | none => pure false
    | some contract =>
      if contract.state ≠ .prepared then pure false
      else
        recordHaRecovery execution contract occurredAt
        pure true

/-- The counters of a pass. -/
structure HaReport where
  canceled : Nat := 0
  recoveryRequired : Nat := 0
  errors : Nat := 0
  deriving DecidableEq

/-- One turn of the loop of `run_ha_reconciler_pass`; a failed event append is only logged. -/
def reconcileStale (execution : ExecutionRecord) (now : Timestamp) (report : HaReport) :
    Gw HaReport := do
  if execution.state = .running then
    match ← (reconcileRunningPreparedPair execution now).run with
    | .ok true => pure { report with recoveryRequired := report.recoveryRequired + 1 }
    | .ok false => pure report
    | .error _ => pure { report with errors := report.errors + 1 }
  else if cancelable execution.state then
    match ← (compareAndSetState execution.executionId [execution.state] .canceled).run with
    | .ok true =>
      let _ ← (appendExecutionEventAt now .errorRaised execution execution.rollbackContractId
        {}).run
      pure { report with canceled := report.canceled + 1 }
    | .ok false => pure report
    | .error _ => pure { report with errors := report.errors + 1 }
  else pure report

def reconcileAllStale (now : Timestamp) : List ExecutionRecord → HaReport → Gw HaReport
  | [], report => pure report
  | execution :: rest, report => do
    let report ← reconcileStale execution now report
    reconcileAllStale now rest report

/-- **`run_ha_reconciler_pass`**. -/
def runHaReconcilerPass (state : AppState) : Gw HaReport := do
  let now ← perform .readClock
  let staleBefore := now - seconds state.haReconcilerStaleThresholdSecs
  match ← perform (.listStaleInFlight staleBefore
      [.proposed, .authorized, .prepared, .awaitingApproval, .running]
      state.haReconcilerBatchSize) with
  | .error _ => pure { errors := 1 }
  | .ok executions => reconcileAllStale now executions {}

end FerrumGate
