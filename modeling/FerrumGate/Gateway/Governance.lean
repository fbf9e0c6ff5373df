import FerrumGate.Gateway.Outbox

/-!
# Intents, proposals, approvals, quarantine holds and ingest

`ferrum-gateway/src/{intents, proposals, approval, quarantine, bridge, timeout_reconciler}.rs`:
the handlers that create the workflow objects and decide on them, the ingest of external events
and the timeouts of pending decisions. The policy engine and the second-factor check are
operations of the environment.
-/

namespace FerrumGate

open Interleave

/-! ## Intents and proposals -/

structure IntentCompileRequest where
  requestedResourceScope : List ResourceSelector
  approvalMode : Option ApprovalMode

/-- **`compile_intent`**. The validation of the envelope cannot fail: it has an outcome and
expires 15 minutes after its creation. -/
def compileIntent (actor : Option AuthActor) (request : IntentCompileRequest) :
    Handler IntentEnvelope := do
  let now ← call .readClock
  let intentId : IntentId := ⟨← call .newUuid⟩
  let envelope : IntentEnvelope :=
    { intentId
      resourceScope := request.requestedResourceScope
      approvalMode := request.approvalMode.getD .none
      expiresAt := now + seconds 900
      ownerActorId := actor.map (·.actorId) }
  store (statement (perform (.insertIntent envelope)))
  pure envelope

/-- An event about a proposal. -/
def proposalEvent (eventId : EventId) (occurredAt : Timestamp) (kind : ProvenanceEventKind)
    (intentId : IntentId) (proposalId : ProposalId) (metadata : EventMetadata) :
    ProvenanceEvent :=
  { eventId, kind, occurredAt, metadata
    intentId := some intentId
    proposalId := some proposalId
    executionId := none
    capabilityId := none
    rollbackContractId := none }

/-- `create_quarantine_hold`. -/
def createQuarantineHold (state : AppState) (proposal : ActionProposal) (reason : String) :
    StoreM Unit := do
  let now ← draw .readClock
  let holdId : QuarantineHoldId := ⟨← draw .newUuid⟩
  let hold : QuarantineHold :=
    { holdId
      intentId := proposal.intentId
      proposalId := proposal.proposalId
      reason
      state := .pending
      expiresAt := now + seconds state.quarantineTimeoutSeconds
      createdAt := now
      ownerActorId := proposal.ownerActorId }
  statement (perform (.insertHold hold))
  let eventId : EventId := ⟨← draw .newUuid⟩
  appendGovernanceEvent (proposalEvent eventId now .quarantineHoldCreated proposal.intentId
    proposal.proposalId {})

/-- An anomaly in the verdict is written to the audit log. -/
def auditAnomaly (state : AppState) (verdict : PolicyVerdict) : Handler Unit :=
  if verdict.anomaly then appendAuditChecked state else pure ()

/-- **`evaluate_proposal`**: a proposal of an unknown intent is evaluated too, and then refused by
the foreign key of its insert. -/
def evaluateProposal (state : AppState) (proposal : ActionProposal) : Handler PolicyVerdict := do
  let intent ← store (statement (perform (.getIntent proposal.intentId)))
  match ← call (.evaluatePolicy proposal) with
  | none => throw (.internal "policy evaluation failed")
  | some verdict =>
    let proposal := { proposal with ownerActorId := intent.bind (·.ownerActorId) }
    store (statement (perform (.insertProposal proposal)))
    auditAnomaly state verdict
    store do
      let eventId : EventId := ⟨← draw .newUuid⟩
      let now ← draw .readClock
      appendGovernanceEvent (proposalEvent eventId now .policyEvaluated proposal.intentId
        proposal.proposalId { decision := some verdict.decision.debug })
      if verdict.decision = .quarantine then createQuarantineHold state proposal verdict.reason
      else pure ()
    pure verdict

/-! ## Approvals and quarantine holds -/

structure ResolveRequest where
  actorId : String
  approve : Bool

/-- The actor a resolve request counts for: the authenticated one, which the request may only
repeat. -/
def effectiveActor (actor : Option AuthActor) (request : ResolveRequest) :
    Except ApiProblem String :=
  match actor with
  | none => .ok request.actorId
  | some actor =>
    if request.actorId ≠ "" ∧ request.actorId ≠ actor.actorId then
      .error ⟨.forbidden, .forbidden, "request actor does not match authenticated actor"⟩
    else .ok actor.actorId

/-- The second factor, when it is required. -/
def checkMfa (state : AppState) (actorId : String) : Handler Unit := do
  if state.approvalMfaRequired then
    let accepted ← call (.checkMfa actorId)
    demand (accepted = true) ⟨.forbidden, .mfaInvalid, "MFA verification code is invalid"⟩
  else pure ()

/-- `ApprovalRepo::resolve`: a snapshot, then the conditional update. -/
def resolveApprovalInStore (id : ApprovalId) (target : ApprovalState) (now : Timestamp) :
    StoreM Bool := do
  match ← statement (perform (.getApproval id)) with
  | none => pure false
  | some approval =>
    if approval.state ≠ .pending then pure false
    else
      statement (perform (.resolveApproval
        { approval with state := target, resolverEvidenceVersion := some 1 } now))

/-- The event of a resolved approval. -/
def approvalEvent (eventId : EventId) (now : Timestamp) (kind : ProvenanceEventKind)
    (approval : ApprovalRequest) (metadata : EventMetadata) : ProvenanceEvent :=
  { eventId, kind, metadata
    occurredAt := now
    objectApproval := some approval.approvalId
    intentId := some approval.intentId
    proposalId := some approval.proposalId
    executionId := approval.executionId
    capabilityId := none
    rollbackContractId := none }

/-- **`resolve_approval`**. -/
def resolveApproval (state : AppState) (actor : Option AuthActor) (id : ApprovalId)
    (request : ResolveRequest) : Handler ApprovalRequest := do
  let actorId ← ofExcept (effectiveActor actor request)
  checkMfa state actorId
  let approval ← require (perform (.getApproval id)) (.missing "approval not found")
  demand (approval.state = .pending)
    (.conflict ("approval is in terminal state " ++ approval.state.debug ++ ", cannot resolve"))
  let now ← call .readClock
  demand (now ≤ approval.expiresAt) (.policyDenied "approval has expired, cannot resolve")
  let won ← store (resolveApprovalInStore id (if request.approve then .granted else .denied) now)
  demand (won = true)
    (.conflict "approval could not be resolved: it is no longer pending or has expired")
  appendAuditChecked state
  let updated ← require (perform (.getApproval id)) (.missing "approval not found after resolve")
  let eventId : EventId := ⟨← call .newUuid⟩
  let occurredAt ← call .readClock
  let event := approvalEvent eventId occurredAt
    (if request.approve then .approvalGranted else .approvalDenied) approval
    { approvalId := some id
      actorAuthenticated := some actor.isSome
      actorRole := (actor.bind (·.role)).map (·.text) }
  store (statement (perform (.appendEvent event)))
  pure updated

/-- `QuarantineHoldRepo::resolve`. -/
def resolveHoldInStore (id : QuarantineHoldId) (allow : Bool) : StoreM Bool := do
  match ← statement (perform (.getHold id)) with
  | none => pure false
  | some hold =>
    if hold.state ≠ .pending then pure false
    else
      statement (perform (.writeHoldIfPending
        { hold with state := if allow then .allowed else .denied }))

/-- **`resolve_quarantine_hold`**. -/
def resolveQuarantineHold (state : AppState) (actor : Option AuthActor) (id : QuarantineHoldId)
    (request : ResolveRequest) : Handler QuarantineHold := do
  let actorId ← ofExcept (effectiveActor actor request)
  checkMfa state actorId
  let hold ← require (perform (.getHold id)) (.missing "quarantine hold not found")
  demand (hold.state = .pending)
    (.conflict ("quarantine hold is in terminal state " ++ hold.state.debug ++
      ", cannot resolve"))
  let now ← call .readClock
  demand (now ≤ hold.expiresAt) (.policyDenied "quarantine hold has expired, cannot resolve")
  let updated ← store (resolveHoldInStore id request.approve)
  demand (updated = true) (.conflict "quarantine hold was already resolved")
  appendAuditChecked state
  let updated ← require (perform (.getHold id)) (.missing "quarantine hold not found after resolve")
  store do
    let eventId : EventId := ⟨← draw .newUuid⟩
    let now ← draw .readClock
    appendGovernanceEvent (proposalEvent eventId now .quarantineResolved hold.intentId
      hold.proposalId {})
  pure updated

/-! ## Ingest -/

structure ProvenanceIngestRequest where
  /-- `source_runtime_id` is the id of a registered bridge. -/
  registered : Bool
  sourceRuntimeId : String
  kind : ProvenanceEventKind
  intentId : Option IntentId
  executionId : Option ExecutionId
  metadata : EventMetadata

/-- `is_externally_ingestible_kind`. -/
def isExternallyIngestibleKind (kind : ProvenanceEventKind) : Bool :=
  kind = .externalEventReceived || kind = .userGoalReceived

/-- **`ingest_provenance`**. -/
def ingestProvenance (request : ProvenanceIngestRequest) : Handler EventId := do
  demand (request.registered = true)
    ⟨.badRequest, .validationError, "unknown source_runtime_id: " ++ request.sourceRuntimeId⟩
  demand (isExternallyIngestibleKind request.kind = true)
    ⟨.badRequest, .validationError,
      "provenance event kind is not externally ingestible: " ++ request.kind.debug⟩
  let eventId : EventId := ⟨← call .newUuid⟩
  let now ← call .readClock
  let event : ProvenanceEvent :=
    { eventId
      kind := request.kind
      occurredAt := now
      intentId := request.intentId
      proposalId := none
      executionId := request.executionId
      capabilityId := none
      rollbackContractId := none
      metadata := request.metadata }
  store (statement (perform (.appendEvent event)))
  pure eventId

/-! ## Timeouts -/

/-- The loop of `expire_stale_pending_sqlite`: the rows that were still pending. -/
def expireApprovals : List ApprovalRequest → StoreM (List ApprovalRequest)
  | [] => pure []
  | approval :: rest => do
    let approval := { approval with state := .expired }
    let expired ← statement (perform (.expireApproval approval))
    let others ← expireApprovals rest
    pure (if expired then approval :: others else others)

/-- `emit_approval_timed_out_provenance` for each; a failed append is only logged. -/
def emitApprovalTimeouts : List ApprovalRequest → Gw Unit
  | [] => pure ()
  | approval :: rest => do
    let eventId : EventId := ⟨← perform .newUuid⟩
    let now ← perform .readClock
    let _ ← perform (.appendEvent (approvalEvent eventId now .approvalTimedOut approval
      { approvalId := some approval.approvalId }))
    emitApprovalTimeouts rest

/-- **`reconcile_approval_timeouts_once`**. -/
def reconcileApprovalTimeoutsOnce (state : AppState) : Gw (List ApprovalRequest) := do
  let now ← perform .readClock
  let expired ← ExceptT.run do
    let stale ← statement (perform (.listStaleApprovals now
      (now - seconds state.approvalTimeoutSeconds) 100))
    expireApprovals stale
  match expired with
  | .error _ => pure []
  | .ok expired =>
    emitApprovalTimeouts expired
    pure expired

/-- The same loop for holds. -/
def expireHolds : List QuarantineHold → StoreM (List QuarantineHold)
  | [] => pure []
  | hold :: rest => do
    let hold := { hold with state := .expired }
    let expired ← statement (perform (.writeHoldIfPending hold))
    let others ← expireHolds rest
    pure (if expired then hold :: others else others)

def emitHoldTimeouts : List QuarantineHold → Gw Unit
  | [] => pure ()
  | hold :: rest => do
    let eventId : EventId := ⟨← perform .newUuid⟩
    let now ← perform .readClock
    let _ ← (appendGovernanceEvent (proposalEvent eventId now .quarantineTimedOut hold.intentId
      hold.proposalId {})).run
    emitHoldTimeouts rest

/-- **`reconcile_quarantine_timeouts_once`**. -/
def reconcileQuarantineTimeoutsOnce (state : AppState) : Gw (List QuarantineHold) := do
  let now ← perform .readClock
  let expired ← ExceptT.run do
    let stale ← statement (perform (.listStaleHolds now
      (now - seconds state.quarantineTimeoutSeconds) 100))
    expireHolds stale
  match expired with
  | .error _ => pure []
  | .ok expired =>
    emitHoldTimeouts expired
    pure expired

end FerrumGate
