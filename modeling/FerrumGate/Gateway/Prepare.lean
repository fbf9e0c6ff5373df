import FerrumGate.Gateway.Outbox

/-!
# Preparing an execution

`ferrum-gateway/src/execution/prepare.rs` with the rollback service's `prepare`
(`ferrum-rollback/src/service.rs`): the adapter takes its snapshot, a planner may fill in checks
and a compensation plan, and the resulting contract is linked to the execution.
-/

namespace FerrumGate

open Interleave

/-- The lookup every lifecycle handler starts with. -/
def loadExecution (state : AppState) (actor : Option AuthActor) (id : ExecutionId) :
    Handler ExecutionRecord := do
  let execution ← require (perform (.getExecution id)) .objectNotFound
  ownerGuard state actor execution.ownerActorId
  pure execution

/-- The contract an execution links to. -/
def loadContract (execution : ExecutionRecord) : Handler RollbackContract :=
  match execution.rollbackContractId with
  | none => throw (.missing "execution has no rollback contract")
  | some id => require (perform (.getContract id)) (.missing "rollback contract not found")

/-! ## The prepare request -/

/-- `build_prepare_request_with_target`. -/
def buildPrepareRequestWithTarget (intentId : IntentId) (proposalId : ProposalId)
    (executionId : ExecutionId) (rollbackClass : RollbackClass) (actionType : ActionType)
    (adapterKey : String) (target : RollbackTarget) : RollbackPrepareRequest :=
  { intentId, proposalId, executionId, actionType, rollbackClass, adapterKey, target
    prepareChecks := []
    verifyChecks := []
    compensationPlan := []
    autoCommit := rollbackClass ≠ .r3IrreversibleHighConsequence
    metadata := [] }

/-- The arguments of the proposal that `prepare` of a git or SQL action needs. -/
def prepareMetadata (actionType : ActionType) (arguments : Json)
    (scope : List ResourceSelector) : JsonMap :=
  match actionType with
  | .gitBranchCreate => entry "branch_name"
      (((arguments.field "branch_name").or (arguments.field "branch")).bind (·.asStr))
  | .gitPush | .gitPull | .gitFetch =>
    JsonMap.extend (entry "branch_name" ((arguments.field "refspec").bind (·.asStr)))
      (entry "remote_name" ((arguments.field "remote").bind (·.asStr)))
  | .sqlMutation =>
    match scope.findSome? tables with
    | some names => [("allowed_tables", .ofList (names.map .str))]
    | none => []
  | _ => []
where
  entry (key : String) : Option String → JsonMap
    | some text => [(key, .str text)]
    | none => []
  tables : ResourceSelector → Option (List String)
    | .sqliteDatabase _ tables _ => some tables
    | _ => none

/-- `build_prepare_request_for_proposal`. -/
def buildPrepareRequestForProposal (state : AppState) (intentId : IntentId)
    (executionId : ExecutionId) (proposal : ActionProposal) (scope : List ResourceSelector)
    (uuid : Nat) : Except String RollbackPrepareRequest := do
  let (actionType, adapterKey) ←
    state.inferActionTypeAndAdapter proposal.toolName proposal.metadata
  let target := state.inferTargetFromScope scope actionType uuid
  let request := buildPrepareRequestWithTarget intentId proposal.proposalId executionId
    proposal.requestedRollbackClass actionType adapterKey target
  return { request with metadata := prepareMetadata actionType proposal.rawArguments scope }

/-! ## The rollback service -/

structure RollbackPrepareResponse where
  contract : RollbackContract
  accepted : Bool

/-- The checks, the plan and the commit mode of the new contract: the planner's when the request
brings none of its own. -/
def finalPlan (request : RollbackPrepareRequest) (planned : Option ExecutionPlan) :
    ExecutionPlan :=
  planned.getD ⟨request.prepareChecks, request.verifyChecks, request.compensationPlan,
    request.autoCommit⟩

/-- `RollbackService::prepare` after the adapter and the planners have answered. -/
def prepareContract (request : RollbackPrepareRequest) (receipt : PrepareReceipt)
    (plan : ExecutionPlan) (contractId : RollbackContractId) (now : Timestamp) :
    RollbackContract :=
  { contractId
    intentId := request.intentId
    proposalId := request.proposalId
    executionId := request.executionId
    actionType := request.actionType
    rollbackClass := request.rollbackClass
    adapterKey := request.adapterKey
    target := request.target
    prepareChecks := plan.prepareChecks
    verifyChecks := plan.verifyChecks
    compensationPlan := plan.compensationPlan
    autoCommit := plan.autoCommit && request.rollbackClass ≠ .r3IrreversibleHighConsequence
    state := .prepared
    createdAt := now
    expiresAt := none
    metadata := JsonMap.extend request.metadata receipt.adapterMetadata }

/-- An irreversible action is never committed on its own. -/
def withoutAutoCommitForR3 (request : RollbackPrepareRequest) : RollbackPrepareRequest :=
  if request.rollbackClass = .r3IrreversibleHighConsequence then
    { request with autoCommit := false }
  else request

/-- The planners are asked when the request brings neither checks nor a plan. -/
def generatedPlan (request : RollbackPrepareRequest) : Handler (Option ExecutionPlan) :=
  if request.prepareChecks = [] ∧ request.verifyChecks = [] ∧ request.compensationPlan = [] then
    call (.generatePlan request.actionType request.target)
  else pure none

/-- **`RollbackService::prepare`**. -/
def rollbackPrepare (request : RollbackPrepareRequest) : Handler RollbackPrepareResponse := do
  let request := withoutAutoCommitForR3 request
  demand (¬(request.rollbackClass = .r2Compensatable ∧
      (request.actionType = .httpMutation ∨ request.actionType = .sqlMutation)))
    (.internal "R2Compensatable is not supported for HttpMutation or SqlMutation")
  match ← call (.adapterPrepare request) with
  | none => throw (.internal "adapter error")
  | some receipt =>
    let plan := finalPlan request (← generatedPlan request)
    demand (¬(request.rollbackClass = .r2Compensatable ∧ plan.compensationPlan = []))
      (.internal "R2Compensatable requires a non-empty compensation plan but none was provided")
    let contractId : RollbackContractId := ⟨← call .newUuid⟩
    let now ← call .readClock
    pure ⟨prepareContract request receipt plan contractId now, receipt.accepted⟩

/-! ## The handler -/

structure PrepareExecutionResponse where
  executionId : ExecutionId
  prepared : Bool
  rollbackContract : RollbackContract

/-- **`prepare_execution`**. -/
def prepareExecution (state : AppState) (actor : Option AuthActor) (executionId : ExecutionId) :
    Handler PrepareExecutionResponse := do
  let execution ← loadExecution state actor executionId
  demand (execution.state = .authorized ∨ execution.state = .prepared)
    (.conflict ("execution in state '" ++ execution.state.debug ++
      "' cannot be prepared; only 'Authorized' or 'Prepared' are preparable"))
  let proposal ← require (perform (.getProposal execution.proposalId))
    (.missing "proposal not found")
  let intent ← require (perform (.getIntent execution.intentId)) (.missing "intent not found")
  demand (intent.approvalMode ≠ .draftOnly)
    (.policyDenied "draft-only intent cannot proceed to prepare")
  let uuid ← call .newUuid
  let request ← ofExcept ((buildPrepareRequestForProposal state execution.intentId executionId
    proposal intent.resourceScope uuid).mapError (⟨.badRequest, .validationError, ·⟩))
  let response ← rollbackPrepare request
  let contract := response.contract
  let updated := { execution with rollbackContractId := some contract.contractId }
  store do
    let outbox ← recordLifecycleTransitionOutbox .prepare execution updated none (some contract)
      [.sideEffectPrepared, .toolCallPrepared]
    let metadata := lifecycleEventMetadata outbox {}
    let prepareEventId ← appendExecutionEvent .sideEffectPrepared execution
      (some contract.contractId) metadata
    markLifecycleObligationWritten outbox .sideEffectPrepared prepareEventId
    let toolPreparedEventId ← appendExecutionEvent .toolCallPrepared execution
      (some contract.contractId) metadata
    markLifecycleObligationWritten outbox .toolCallPrepared toolPreparedEventId
    markReconciled outbox.outboxId
  pure ⟨executionId, response.accepted, contract⟩

end FerrumGate
