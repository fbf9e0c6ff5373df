import FerrumGate.Gateway.Prepare

/-!
# Executing, verifying and committing

`ferrum-gateway/src/execution/{execute, verify, commit, validation}.rs`. `executeExecution` checks
its snapshot of the workflow objects and the lineage, claims the execution by setting it to
`Running`, and only then calls the adapter; `verifyExecution` and `commitExecution` move the
execution and its contract on from the snapshot they read.
-/

namespace FerrumGate

open Interleave

/-! ## Execute -/

/-- `validate_capability_proposal_binding`. -/
def validateCapabilityProposalBinding (lease : CapabilityLease) (proposal : ActionProposal) :
    Except String Unit := do
  ensure (lease.proposalId = proposal.proposalId) "capability proposal_id does not match proposal"
  ensure (lease.intentId = proposal.intentId)
    "capability intent_id does not match proposal intent_id"
  ensure (lease.toolBinding.serverName = proposal.serverName ∧
      lease.toolBinding.toolName = proposal.toolName)
    "capability tool_binding does not match proposal tool"

/-- The state pairs in which `execute` is allowed. -/
def executable (contract : RollbackContract) (execution : ExecutionRecord) : Bool :=
  contract.state = .prepared && execution.state.preClaim

/-- The payload the adapter gets: the request's, if it brings one, and then it must be the
proposal's own. -/
def adapterPayload (payload : Json) (proposal : ActionProposal) : Except ApiProblem Json :=
  if payload = .null then .ok proposal.rawArguments
  else if payload = proposal.rawArguments then .ok payload
  else .error (.policyDenied "execute payload must exactly match approved proposal arguments")

/-- The contract after an adapter error. -/
def recoveryContract (contract : RollbackContract) (payload : Json) : RollbackContract :=
  { contract with
    state := .recoveryRequired
    metadata := (contract.metadata.insert "recovery_required" (.bool true)).insert
      "execute_payload" payload }

/-- The target after a successful execute. -/
def executedTarget (target : RollbackTarget) (receipt : ExecuteReceipt) : RollbackTarget :=
  match target with
  | .filePath path beforeHash _ => .filePath path beforeHash receipt.resultDigest
  | .httpRequest method url requestDigest =>
    .httpRequest method url
      (((receipt.adapterMetadata.lookup "request_digest").bind (·.asStr)).getD requestDigest)
  | target => target

/-- The contract after a successful execute. -/
def executedContract (contract : RollbackContract) (receipt : ExecuteReceipt) (payload : Json) :
    RollbackContract :=
  { contract with
    state := .executedAwaitingVerify
    target := executedTarget contract.target receipt
    metadata := (JsonMap.extend contract.metadata receipt.adapterMetadata).insert
      "execute_payload" payload }

structure ExecuteExecutionResponse where
  status : StatusCode
  executionId : ExecutionId
  executed : Bool
  recoveryRequired : Bool
  resultDigest : Option String
  rollbackContract : RollbackContract
  warnings : List String

/-- What `execute_execution` has checked when it claims the execution. -/
structure ExecutionClaim where
  execution : ExecutionRecord
  contract : RollbackContract
  payload : Json

/-- `execute_execution` up to the claim. -/
def checkExecute (state : AppState) (actor : Option AuthActor) (executionId : ExecutionId)
    (payload : Json) : Handler ExecutionClaim := do
  let execution ← loadExecution state actor executionId
  let intent ← require (perform (.getIntent execution.intentId)) (.missing "intent not found")
  demand (intent.approvalMode ≠ .draftOnly)
    (.policyDenied "draft-only intent cannot proceed to execute")
  let contract ← loadContract execution
  demand (executable contract execution = true)
    (.conflict ("execute not allowed in current state: contract=" ++ contract.state.debug ++
      ", execution=" ++ execution.state.debug))
  demand (contract.executionId = execution.executionId ∧
      contract.intentId = execution.intentId ∧ contract.proposalId = execution.proposalId)
    (.integrityMismatch "rollback contract binding does not match execution")
  demand (¬(contract.rollbackClass = .r2Compensatable ∧
      (contract.actionType = .httpMutation ∨ contract.actionType = .sqlMutation)))
    (.conflict "R2Compensatable executions for HTTP/SQLite mutations are not supported")
  let capability ← require (perform (.getCapability execution.capabilityId))
    (.missing "capability not found for execution")
  let proposal ← require (perform (.getProposal execution.proposalId))
    (.missing "proposal not found for execution")
  demandOk (validateCapabilityProposalBinding capability proposal) .integrityMismatch
  let payload ← ofExcept (adapterPayload payload proposal)
  demandOk (state.validateArgumentConstraints payload capability.argumentConstraints) .policyDenied
  ExceptT.adapt .conflict (validateMinimumLineageChain execution)
  pure ⟨execution, contract, payload⟩

/-- `execute_execution` after an adapter error: the effect is ambiguous. -/
def recordAmbiguousExecute (claim : ExecutionClaim) : StoreM RollbackContract := do
  let running := { claim.execution with state := .running }
  let updated := { claim.execution with state := .recoveryRequired }
  let contract := recoveryContract claim.contract claim.payload
  let outbox ← recordLifecycleTransitionOutbox .executeRecovery running updated
    (some claim.contract) (some contract) [.errorRaised]
  let eventId ← appendExecutionEvent .errorRaised updated updated.rollbackContractId
    (lifecycleEventMetadata outbox {})
  markLifecycleTransitionReconciled outbox eventId
  pure contract

/-- `execute_execution` after the adapter has executed. -/
def recordExecuted (claim : ExecutionClaim) (receipt : ExecuteReceipt) :
    StoreM RollbackContract := do
  let running := { claim.execution with state := .running }
  let updated := { claim.execution with
    state := .awaitingVerification, resultDigest := receipt.resultDigest }
  let contract := executedContract claim.contract receipt claim.payload
  let outbox ← recordLifecycleTransitionOutbox .execute running updated
    (some claim.contract) (some contract) [.toolCallExecuted]
  let eventId ← appendExecutionEvent .toolCallExecuted updated updated.rollbackContractId
    (lifecycleEventMetadata outbox {})
  markLifecycleTransitionReconciled outbox eventId
  pure contract

/-- **`execute_execution`**. -/
def executeExecution (state : AppState) (actor : Option AuthActor) (executionId : ExecutionId)
    (payload : Json) : Handler ExecuteExecutionResponse := do
  let claim ← checkExecute state actor executionId payload
  let claimed ← store (compareAndSetState executionId [.prepared, .authorized, .proposed] .running)
  demand (claimed = true)
    (.conflict "execute not allowed: execution was already claimed or state changed")
  match ← call (.adapterExecute claim.contract claim.payload) with
  | none =>
    let contract ← store (recordAmbiguousExecute claim)
    pure ⟨.accepted, executionId, false, true, none, contract,
      ["adapter reported a recoverable error; execution requires manual review"]⟩
  | some receipt =>
    let contract ← store (recordExecuted claim receipt)
    pure ⟨.ok, executionId, true, false, receipt.resultDigest, contract, []⟩

/-! ## Verify -/

/-- The state pairs in which `verify` is allowed, and `compensate` outside recovery. -/
def awaitsVerification (contract : RollbackContract) (execution : ExecutionRecord) : Bool :=
  contract.state = .executedAwaitingVerify &&
    (execution.state = .running || execution.state = .awaitingVerification)

/-- The contract `verify` hands to the adapter and stores afterwards. -/
def verifyContract (contract : RollbackContract) (resultDigest : Option String) :
    RollbackContract :=
  let contract :=
    if contract.rollbackClass = .r3IrreversibleHighConsequence then
      { contract with autoCommit := false }
    else contract
  match resultDigest with
  | none => contract
  | some digest =>
    { contract with
      verifyChecks := contract.verifyChecks.map fun check =>
        if check.checkType = .fileHashMatches then
          { check with config := check.config.insert "expected_hash" (.str digest) }
        else check
      target := match contract.target with
        | .filePath path beforeHash _ => .filePath path beforeHash (some digest)
        | target => target }

/-- The contract after an indeterminate verification. -/
def indeterminateContract (contract : RollbackContract) : RollbackContract :=
  { contract with
    state := .recoveryRequired
    metadata := (contract.metadata.insert "recovery_required" (.bool true)).insert
      "verify_outcome" (.str "indeterminate") }

structure VerifyExecutionResponse where
  status : StatusCode
  executionId : ExecutionId
  verified : Bool
  recoveryRequired : Bool
  rollbackContract : RollbackContract
  warnings : List String

/-- `verify_execution` after an indeterminate outcome: the record is marked, not closed. -/
def recordIndeterminate (execution : ExecutionRecord) (previous checked : RollbackContract) :
    StoreM RollbackContract := do
  let updated := { execution with state := .recoveryRequired }
  let contract := indeterminateContract checked
  let outbox ← recordLifecycleTransitionOutbox .verifyRecovery execution updated
    (some previous) (some contract) [.errorRaised]
  let eventId ← appendExecutionEvent .errorRaised updated (some contract.contractId)
    (lifecycleEventMetadata outbox {})
  markLifecycleObligationWritten outbox .errorRaised eventId
  pure contract

/-- The last event of a verification that commits, and the closing mark. -/
def closeVerified (outbox : LifecycleOutboxRecord) (execution : ExecutionRecord)
    (contractId : RollbackContractId) (commits : Bool) : StoreM Unit := do
  if commits then
    let committedEventId ← appendExecutionEvent .sideEffectCommitted execution (some contractId)
      (lifecycleEventMetadata outbox {})
    markLifecycleObligationWritten outbox .sideEffectCommitted committedEventId
    markReconciled outbox.outboxId
  else markReconciled outbox.outboxId

/-- `verify_execution` after a definite outcome. -/
def recordVerified (execution : ExecutionRecord) (previous checked : RollbackContract)
    (verified : Bool) : StoreM RollbackContract := do
  let contract := { checked with state := if verified then .verified else .failed }
  let commits := verified && contract.autoCommit
  let updated := { execution with
    state := if verified then (if contract.autoCommit then .committed else execution.state)
      else .failed }
  let outbox ← recordLifecycleTransitionOutbox .verify execution updated
    (some previous) (some contract)
    (if commits then [.sideEffectVerified, .sideEffectCommitted] else [.sideEffectVerified])
  let verifiedEventId ← appendExecutionEvent .sideEffectVerified updated
    (some contract.contractId) (lifecycleEventMetadata outbox {})
  markLifecycleObligationWritten outbox .sideEffectVerified verifiedEventId
  closeVerified outbox updated contract.contractId commits
  pure contract

/-- **`verify_execution`**. -/
def verifyExecution (state : AppState) (actor : Option AuthActor) (executionId : ExecutionId) :
    Handler VerifyExecutionResponse := do
  let execution ← loadExecution state actor executionId
  let contract ← loadContract execution
  demand (awaitsVerification contract execution = true)
    (.conflict ("verify not allowed in current state: contract=" ++ contract.state.debug ++
      ", execution=" ++ execution.state.debug))
  let toVerify := verifyContract contract execution.resultDigest
  match ← call (.adapterVerify toVerify) with
  | none => throw (.internal "adapter error")
  | some receipt =>
    let checked := { toVerify with
      metadata := toVerify.metadata.insert "verify_outcome_receipt"
        (JsonMap.toJson receipt.adapterMetadata) }
    match receipt.outcome with
    | .indeterminate =>
      let contract ← store (recordIndeterminate execution contract checked)
      pure ⟨.accepted, executionId, false, true, contract,
        ["verification outcome is indeterminate; execution requires manual review"]⟩
    | outcome =>
      let verified := decide (outcome = .applied)
      let contract ← store (recordVerified execution contract checked verified)
      pure ⟨.ok, executionId, verified, false, contract, []⟩

/-! ## Commit -/

/-- **`commit_execution`**. -/
def commitExecution (state : AppState) (actor : Option AuthActor) (executionId : ExecutionId) :
    Handler RollbackContract := do
  let execution ← loadExecution state actor executionId
  demand (executionStateIsTerminal execution.state = false)
    (.conflict ("commit not allowed: execution is already in terminal state " ++
      execution.state.debug))
  let contract ← loadContract execution
  demand (contract.state = .verified)
    (.conflict ("commit not allowed: rollback contract is in state " ++ contract.state.debug ++
      ", expected Verified"))
  demand (contract.autoCommit = false)
    (.conflict ("commit not allowed: contract was prepared with auto_commit=true " ++
      "(execution was already auto-committed by verify)"))
  let verifiedEvents ← store (statement (perform (.queryEvents
    { executionId := some executionId, eventKind := some .sideEffectVerified })))
  demand (verifiedEvents ≠ [])
    (.conflict "commit not allowed: no SideEffectVerified provenance event found")
  let updatedContract := { contract with state := .committed }
  let updated := { execution with state := .committed }
  store do
    let outbox ← recordLifecycleTransitionOutbox .commit execution updated
      (some contract) (some updatedContract) [.sideEffectCommitted]
    let eventId ← appendExecutionEvent .sideEffectCommitted updated
      (some updatedContract.contractId) (lifecycleEventMetadata outbox {})
    markLifecycleTransitionReconciled outbox eventId
  pure updatedContract

end FerrumGate
