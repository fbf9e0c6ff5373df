import FerrumGate.Gateway.Problem

/-!
# Governance events and the minimum lineage

`ferrum-gateway/src/provenance.rs`: the append of an internally generated event, which looks up
its causal parent and stores the edge with the event, and the gate that walks these edges back
from `ToolCallPrepared` to `PolicyEvaluated` before an adapter's side effect.
-/

namespace FerrumGate

open Interleave

/-- `same_context`: no id that both events carry differs. -/
def sameContext (child parent : ProvenanceEvent) : Bool :=
  agree child.intentId parent.intentId && agree child.proposalId parent.proposalId &&
  agree child.executionId parent.executionId && agree child.capabilityId parent.capabilityId &&
  agree child.policyBundleId parent.policyBundleId
where
  agree {α : Type} [DecidableEq α] : Option α → Option α → Bool
    | some a, some b => decide (a = b)
    | _, _ => true

/-- `decision_from_policy_event`. -/
def decisionFromPolicyEvent (event : ProvenanceEvent) : Option Decision :=
  match event.metadata.decision with
  | some "Allow" => some .allow
  | some "Deny" => some .deny
  | some "Quarantine" => some .quarantine
  | some "RequireApproval" => some .requireApproval
  | some "AllowDraftOnly" => some .allowDraftOnly
  | _ => none

/-- `has_approval_granted_for_policy`. -/
def hasApprovalGrantedForPolicy (events : List ProvenanceEvent) (execution : ExecutionRecord)
    (policy : ProvenanceEvent) : Bool :=
  events.any fun event =>
    event.kind = .approvalGranted && event.intentId = some execution.intentId &&
    event.proposalId = some execution.proposalId && policy.occurredAt ≤ event.occurredAt

/-- **`append_governance_event`**: the newest stored event of the parent kind in the same context
becomes the parent; without one the append is refused, unless the parent is optional. -/
def appendGovernanceEvent (event : ProvenanceEvent) : StoreM Unit := do
  match lineageParentSpec event.kind with
  | none => statement (perform (.appendEventWithEdges event []))
  | some (parentKind, edgeType) =>
    let candidates ← statement (perform (.queryEvents
      { intentId := event.intentId, eventKind := some parentKind }))
    match candidates.reverse.find? (sameContext event) with
    | some parent =>
      statement (perform (.appendEventWithEdges event
        [{ edgeType, fromEventId := parent.eventId, toEventId := event.eventId }]))
    | none =>
      if event.metadata.lineageParentOptional = some true then
        let event := { event with
          metadata := { event.metadata with lineageParentMissing := some parentKind.debug } }
        statement (perform (.appendEventWithEdges event []))
      else
        throw (.other
          s!"lineage parent missing for {event.kind.debug}: expected {parentKind.debug}")

/-! ## The lineage gate -/

/-- A check of the lineage, which ends with a reason. -/
abbrev Lineage (α : Type) := ExceptT String (Prog Op Op.Result) α

/-- `find_event`: the newest event that satisfies the predicate. -/
def findEvent (events : List ProvenanceEvent) (p : ProvenanceEvent → Bool) (label : String) :
    Except String ProvenanceEvent :=
  match events.reverse.find? p with
  | some event => .ok event
  | none => .error s!"minimum lineage prerequisite missing: {label}"

/-- The event an edge leads back to, if it is of the expected kind and in the child's context. -/
def parentThrough (child : ProvenanceEvent) (events : List ProvenanceEvent)
    (parentKind : ProvenanceEventKind) (edge : ProvenanceEdge) : Option ProvenanceEvent :=
  ((events.find? (·.eventId = edge.fromEventId)).filter (·.kind = parentKind)).filter
    (sameContext child ·)

/-- `require_parent_event`: the first edge of the expected type into the child that leads to an
eligible parent. -/
def requireParentEvent (child : ProvenanceEvent) (events : List ProvenanceEvent)
    (parentKind : ProvenanceEventKind) (edgeType : ProvenanceEdgeType) (label : String) :
    Lineage ProvenanceEvent := do
  let edges ← ExceptT.adapt (fun e : StoreError => s!"failed to load lineage edges: {e.text}")
    (statement (perform (.getEdgesTo child.eventId)))
  let eligible := edges.filter fun edge =>
    edge.edgeType = edgeType && edge.toEventId = child.eventId
  match eligible.findSome? (parentThrough child events parentKind) with
  | some parent => pure parent
  | none => throw s!"minimum lineage edge missing: {label} -> {child.kind.debug}"

/-- The part of the gate that judges the policy decision. -/
def checkPolicyDecision (events : List ProvenanceEvent) (execution : ExecutionRecord)
    (policy : ProvenanceEvent) : Except String Unit :=
  match decisionFromPolicyEvent policy with
  | some .allow => .ok ()
  | some .requireApproval =>
    ensure (hasApprovalGrantedForPolicy events execution policy = true)
      "minimum lineage requires ApprovalGranted for RequireApproval decision"
  | some decision =>
    .error s!"minimum lineage policy decision {decision.debug} does not allow side effect"
  | none => .error "minimum lineage PolicyEvaluated decision missing"

/-- The chain must not run backwards in time. -/
def checkOrder : List ProvenanceEvent → Except String Unit
  | a :: b :: rest =>
    if b.occurredAt < a.occurredAt then
      .error s!"minimum lineage order invalid: {a.kind.debug} occurs after {b.kind.debug}"
    else checkOrder (b :: rest)
  | _ => .ok ()

/-- **`validate_minimum_lineage_chain`**. -/
def validateMinimumLineageChain (execution : ExecutionRecord) : Lineage Unit := do
  let events ← ExceptT.adapt (fun e : StoreError => s!"failed to load minimum lineage: {e.text}")
    (statement (perform (.queryEvents { intentId := some execution.intentId })))
  let toolPrepared ← ofExcept (findEvent events
    (fun event => event.kind = .toolCallPrepared &&
      event.executionId = some execution.executionId &&
      event.proposalId = some execution.proposalId) "ToolCallPrepared")
  let prepared ← requireParentEvent toolPrepared events .sideEffectPrepared .caused
    "SideEffectPrepared"
  ofExcept (ensure (prepared.executionId = some execution.executionId ∧
      prepared.proposalId = some execution.proposalId)
    "minimum lineage SideEffectPrepared context mismatch")
  let submitted ← requireParentEvent prepared events .actionProposalSubmitted .caused
    "ActionProposalSubmitted"
  ofExcept (ensure (submitted.executionId = some execution.executionId ∧
      submitted.proposalId = some execution.proposalId)
    "minimum lineage ActionProposalSubmitted context mismatch")
  let capability ← requireParentEvent submitted events .capabilityMinted .authorizedBy
    "CapabilityMinted"
  ofExcept (ensure (capability.proposalId = some execution.proposalId ∧
      capability.capabilityId = some execution.capabilityId)
    "minimum lineage CapabilityMinted context mismatch")
  let policy ← requireParentEvent capability events .policyEvaluated .evaluatedByPolicy
    "PolicyEvaluated"
  ofExcept (ensure (policy.proposalId = some execution.proposalId)
    "minimum lineage PolicyEvaluated context mismatch")
  ofExcept (checkPolicyDecision events execution policy)
  ofExcept (checkOrder [policy, capability, submitted, prepared, toolPrepared])

end FerrumGate
