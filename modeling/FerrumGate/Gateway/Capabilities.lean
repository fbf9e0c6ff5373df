import FerrumGate.Gateway.Outbox

/-!
# Capabilities: minting, the store-backed service and revoking

`ferrum-gateway/src/capabilities.rs` and `ferrum-gateway/src/execution/{durable_capability,
approval_binding}.rs`. A capability is minted for a proposal whose latest policy decision allows
it, or whose approval or quarantine hold has been granted; it is used at most once, and revoked
while it is active.
-/

namespace FerrumGate

open Interleave

inductive CapabilityError where
  | notFound | alreadyUsed | revoked | expired | ttlTooLong | internal
  deriving DecidableEq

/-- `ApiProblem::from_capability`. -/
def ApiProblem.fromCapability : CapabilityError → ApiProblem
  | .notFound => ⟨.notFound, .notFound, "capability not found"⟩
  | .alreadyUsed => ⟨.conflict, .conflict, "capability already used"⟩
  | .revoked => ⟨.badRequest, .capabilityRevoked, "capability revoked"⟩
  | .expired => ⟨.badRequest, .capabilityExpired, "capability expired"⟩
  | .ttlTooLong => ⟨.badRequest, .validationError, "requested ttl exceeds max allowed"⟩
  | .internal => ⟨.internalServerError, .internal, "capability service internal error"⟩

/-- A routine of the capability service. -/
abbrev CapM (α : Type) := ExceptT CapabilityError (Prog Op Op.Result) α

/-- `map_store_error`. -/
def mapStoreError : StoreError → CapabilityError
  | .notFound _ _ => .notFound
  | _ => .internal

/-- A store statement of the capability service. -/
def capStatement {α : Type} (x : Gw (StoreResult α)) : CapM α :=
  ExceptT.adapt mapStoreError (statement x)

/-! ## The approval gate -/

/-- The events of `validate_approval_binding_digest` that are about the approval. -/
def grantsFor (approval : ApprovalRequest) (approvalId : ApprovalId) (event : ProvenanceEvent) :
    Bool :=
  event.proposalId = some approval.proposalId &&
    (event.metadata.approvalId = some approvalId || event.objectApproval = some approvalId)

/-- The event's actor role is one the binding allows. -/
def roleMatches (binding : ApprovalBinding) (event : ProvenanceEvent) : Bool :=
  match event.metadata.actorRole with
  | some role => role ∈ binding.approverRoles
  | none => false

/-- Whether the approval was granted by a role the binding allows. -/
def approvedByAllowedRole (binding : ApprovalBinding) (approval : ApprovalRequest)
    (grants : List ProvenanceEvent) : Bool :=
  let relevant := grants.filter (grantsFor approval binding.approvalId)
  if approval.resolverEvidenceVersion.isSome ||
      relevant.any (·.metadata.actorAuthenticated.isSome) then
    relevant.any fun event =>
      event.metadata.actorAuthenticated = some true && roleMatches binding event
  else
    relevant.any (roleMatches binding) ||
      decide (approval.requestedBy.debugLower ∈ binding.approverRoles)

/-- **`validate_approval_binding_digest`**. -/
def validateApprovalBindingDigest (state : AppState) (binding : ApprovalBinding)
    (proposalId : ProposalId) : Handler Unit := do
  let approval ← require (perform (.getApproval binding.approvalId))
    (.integrityMismatch "approval not found for binding")
  demand (approval.state = .granted)
    (.policyDenied ("approval state is " ++ approval.state.debug ++ ", expected Granted"))
  let bindingCheckedAt ← call .readClock
  demand (bindingCheckedAt ≤ binding.expiresAt) (.policyDenied "approval binding has expired")
  let approvalCheckedAt ← call .readClock
  demand (approvalCheckedAt ≤ approval.expiresAt) (.policyDenied "approval has expired")
  demand (binding.approvedActionDigest = approval.actionDigest)
    (.integrityMismatch "binding digest does not match approval digest")
  let proposal ← require (perform (.getProposal proposalId))
    (.integrityMismatch "proposal not found")
  demand (state.canonicalActionDigest proposal = binding.approvedActionDigest)
    (.integrityMismatch "computed proposal digest does not match binding digest")
  if binding.approverRoles.isEmpty then pure ()
  else
    let grants ← store (statement (perform (.queryEvents
      { intentId := some approval.intentId
        executionId := approval.executionId
        eventKind := some .approvalGranted })))
    demand (approvedByAllowedRole binding approval grants = true)
      (.policyDenied "approval was not granted by an allowed approver role")

/-! ## Minting -/

/-- `max_by_key(occurred_at)`: the last of the events with the greatest time. -/
def latestEvent : List ProvenanceEvent → Option ProvenanceEvent
  | [] => none
  | event :: rest =>
    match latestEvent rest with
    | none => some event
    | some later => if event.occurredAt ≤ later.occurredAt then some later else some event

/-- `latest_policy_decision_for_proposal`. -/
def latestPolicyDecisionForProposal (proposalId : ProposalId) (intentId : IntentId) :
    Handler Decision := do
  let events ← store (statement (perform (.queryEvents
    { intentId := some intentId, eventKind := some .policyEvaluated })))
  match latestEvent (events.filter (·.proposalId = some proposalId)) with
  | none =>
    throw (.conflict "capability mint requires prior PolicyEvaluated event for proposal")
  | some event =>
    match decisionFromPolicyEvent event with
    | none => throw (.conflict "PolicyEvaluated event is missing a valid decision")
    | some decision => pure decision

/-- `validate_quarantine_hold_for_proposal`. -/
def validateQuarantineHoldForProposal (proposalId : ProposalId) : Handler Unit := do
  match ← store (statement (perform (.getHoldByProposal proposalId))) with
  | none => throw (.policyDenied "quarantine hold is missing for quarantined proposal")
  | some hold =>
    match hold.state with
    | .allowed => pure ()
    | .pending =>
      throw (.policyDenied "proposal is under quarantine and awaiting operator resolution")
    | .denied => throw (.policyDenied "proposal was denied by quarantine resolution")
    | .expired => throw (.policyDenied "quarantine hold expired; proposal cannot be minted")

structure CapabilityMintRequest where
  intentId : IntentId
  proposalId : ProposalId
  toolBinding : ToolBinding
  resourceBindings : List ResourceBinding
  argumentConstraints : List ArgumentConstraint
  taintBudget : TaintBudget
  approvalBinding : Option ApprovalBinding
  requestedTtlSecs : Nat
  metadata : JsonMap

/-- The gate of `mint_capability` on the latest policy decision. -/
def mintGate (state : AppState) (request : CapabilityMintRequest) : Handler Unit := do
  match ← latestPolicyDecisionForProposal request.proposalId request.intentId with
  | .allow => pure ()
  | .requireApproval =>
    match request.approvalBinding with
    | none => throw (.policyDenied "policy requires approval before capability mint")
    | some binding => validateApprovalBindingDigest state binding request.proposalId
  | .quarantine => validateQuarantineHoldForProposal request.proposalId
  | decision =>
    throw (.policyDenied
      ("policy decision " ++ decision.debug ++ " does not allow capability mint"))

/-- The lease of `mint_capability_with_owner`. -/
def mintedLease (request : CapabilityMintRequest) (owner : Option String) (now : Timestamp)
    (capabilityId : CapabilityId) (policyBundleId : PolicyBundleId) : CapabilityLease :=
  { capabilityId, policyBundleId
    intentId := request.intentId
    proposalId := request.proposalId
    toolBinding := request.toolBinding
    resourceBindings := request.resourceBindings
    argumentConstraints := request.argumentConstraints
    taintBudget := request.taintBudget
    approvalBinding := request.approvalBinding
    status := .active
    issuedAt := now
    expiresAt := now + seconds request.requestedTtlSecs
    revokedAt := none
    metadata := request.metadata
    ownerActorId := owner }

/-- `mint_capability_with_owner`. -/
def mintCapabilityWithOwner (request : CapabilityMintRequest) (owner : Option String) :
    CapM CapabilityLease := do
  ofExcept (ensure (request.requestedTtlSecs ≤ 300) .ttlTooLong)
  let now ← ExceptT.lift (perform .readClock)
  let capabilityId : CapabilityId := ⟨← ExceptT.lift (perform .newUuid)⟩
  let policyBundleId : PolicyBundleId := ⟨← ExceptT.lift (perform .newUuid)⟩
  let lease := mintedLease request owner now capabilityId policyBundleId
  capStatement (perform (.insertCapability lease))
  pure lease

/-- An event about a capability. -/
def capabilityEvent (eventId : EventId) (now : Timestamp) (kind : ProvenanceEventKind)
    (lease : CapabilityLease) : ProvenanceEvent :=
  { eventId, kind
    occurredAt := now
    intentId := some lease.intentId
    proposalId := some lease.proposalId
    executionId := none
    capabilityId := some lease.capabilityId
    rollbackContractId := none
    policyBundleId := some lease.policyBundleId
    metadata := {} }

def appendCapabilityEvent (kind : ProvenanceEventKind) (lease : CapabilityLease) :
    StoreM Unit := do
  let eventId : EventId := ⟨← draw .newUuid⟩
  let now ← draw .readClock
  appendGovernanceEvent (capabilityEvent eventId now kind lease)

/-- **`mint_capability`**. -/
def mintCapability (state : AppState) (actor : Option AuthActor)
    (request : CapabilityMintRequest) : Handler CapabilityLease := do
  let proposal ← require (perform (.getProposal request.proposalId))
    (.missing "proposal not found for capability mint")
  demand (proposal.intentId = request.intentId ∧
      proposal.serverName = request.toolBinding.serverName ∧
      proposal.toolName = request.toolBinding.toolName)
    (.integrityMismatch "capability mint binding does not match proposal")
  demandOk (state.validateArgumentConstraints proposal.rawArguments request.argumentConstraints)
    .policyDenied
  let _ ← require (perform (.getIntent request.intentId))
    (.missing "intent not found for capability mint")
  mintGate state request
  let lease ← ExceptT.adapt .fromCapability
    (mintCapabilityWithOwner request (actor.map (·.actorId)))
  store (appendCapabilityEvent .capabilityMinted lease)
  pure lease

/-! ## The store-backed service -/

/-- A capability that must be stored. -/
def capGet (id : CapabilityId) : CapM CapabilityLease := do
  match ← capStatement (perform (.getCapability id)) with
  | some lease => pure lease
  | none => throw .notFound

/-- The status checks shared by `mark_used` and `revoke`; the clock is read for the last one. A
lease has one status, so their order does not matter. -/
def checkConsumable (lease : CapabilityLease) : CapM Unit := do
  ofExcept (ensure (lease.status ≠ .used) .alreadyUsed)
  ofExcept (ensure (lease.status ≠ .revoked) .revoked)
  let now ← ExceptT.lift (perform .readClock)
  ofExcept (ensure (now ≤ lease.expiresAt) .expired)

/-- `StoreCapabilityService::get`. -/
def capServiceGet (id : CapabilityId) : CapM CapabilityLease := do
  let lease ← capGet id
  ofExcept (ensure (lease.status ≠ .revoked) .revoked)
  let now ← ExceptT.lift (perform .readClock)
  ofExcept (ensure (now ≤ lease.expiresAt) .expired)
  pure lease

/-- `StoreCapabilityService::mark_used`. -/
def capMarkUsed (id : CapabilityId) : CapM CapabilityLease := do
  let lease ← capGet id
  checkConsumable lease
  let now ← ExceptT.lift (perform .readClock)
  if ← capStatement (perform (.updateStatusIfActive id .used now)) then capGet id
  else
    let lease ← capGet id
    checkConsumable lease
    throw .notFound

/-- `StoreCapabilityService::revoke`. -/
def capRevoke (id : CapabilityId) : CapM CapabilityLease := do
  let lease ← capGet id
  checkConsumable lease
  let revokedAt ← ExceptT.lift (perform .readClock)
  if ← capStatement (perform (.revokeIfActive id revokedAt)) then capGet id
  else
    let lease ← capGet id
    checkConsumable lease
    throw .notFound

/-- `revoke_capability` when the service does not find the capability: the row is overwritten
unconditionally. -/
def revokeInStore (id : CapabilityId) : Handler CapabilityLease := do
  let lease ← require (perform (.getCapability id)) .objectNotFound
  demand (lease.status ≠ .revoked) (.fromCapability .revoked)
  demand (lease.status ≠ .used) (.fromCapability .alreadyUsed)
  let now ← call .readClock
  demand (now ≤ lease.expiresAt) (.fromCapability .expired)
  let revokedAt ← call .readClock
  let lease := { lease with status := .revoked, revokedAt := some revokedAt }
  store (statement (perform (.updateCapability lease)))
  pure lease

/-- The service's revocation, and the store's when the service does not find the capability. -/
def revokeThroughService (id : CapabilityId) : Handler CapabilityLease := do
  match ← attempt (capRevoke id) with
  | .ok lease => pure lease
  | .error .notFound => revokeInStore id
  | .error e => throw (.fromCapability e)

/-- **`revoke_capability`**. -/
def revokeCapability (state : AppState) (actor : Option AuthActor) (id : CapabilityId) :
    Handler CapabilityLease := do
  let lease ← require (perform (.getCapability id)) .objectNotFound
  ownerGuard state actor lease.ownerActorId
  let lease ← revokeThroughService id
  store (appendCapabilityEvent .capabilityRevoked lease)
  pure lease

end FerrumGate
