import FerrumGate.Proto.Types

/-!
# Provenance events and lifecycle outbox records

`ferrum-proto/src/provenance.rs` and `ferrum-proto/src/lifecycle_outbox.rs`. An event's metadata
map is kept as the typed values that some modelled function looks up in it (`EventMetadata`); an
idempotency key is kept as the parts it is formatted from (`IdempotencyKey`), which determine the
text and are determined by it.
-/

namespace FerrumGate

inductive ProvenanceEventKind where
  | userGoalReceived | intentCompiled | intentRevoked | actionProposalSubmitted | policyEvaluated
  | capabilityMinted | capabilityRevoked | approvalRequested | approvalGranted | approvalDenied
  | approvalTimedOut | toolCallPrepared | toolCallIntercepted | toolCallExecuted
  | toolOutputReceived | toolOutputSanitized | dlpBlocked | sideEffectPrepared
  | sideEffectVerified | sideEffectCommitted | sideEffectCompensated | sideEffectRolledBack
  | quarantined | quarantineHoldCreated | quarantineResolved | quarantineTimedOut | errorRaised
  | externalEventReceived | policyBundleActivated | policyBundleDeactivated
  | policyBundleRolledBack
  deriving DecidableEq

/-- `format!("{:?}", kind)`. -/
def ProvenanceEventKind.debug : ProvenanceEventKind → String
  | .userGoalReceived => "UserGoalReceived"
  | .intentCompiled => "IntentCompiled"
  | .intentRevoked => "IntentRevoked"
  | .actionProposalSubmitted => "ActionProposalSubmitted"
  | .policyEvaluated => "PolicyEvaluated"
  | .capabilityMinted => "CapabilityMinted"
  | .capabilityRevoked => "CapabilityRevoked"
  | .approvalRequested => "ApprovalRequested"
  | .approvalGranted => "ApprovalGranted"
  | .approvalDenied => "ApprovalDenied"
  | .approvalTimedOut => "ApprovalTimedOut"
  | .toolCallPrepared => "ToolCallPrepared"
  | .toolCallIntercepted => "ToolCallIntercepted"
  | .toolCallExecuted => "ToolCallExecuted"
  | .toolOutputReceived => "ToolOutputReceived"
  | .toolOutputSanitized => "ToolOutputSanitized"
  | .dlpBlocked => "DlpBlocked"
  | .sideEffectPrepared => "SideEffectPrepared"
  | .sideEffectVerified => "SideEffectVerified"
  | .sideEffectCommitted => "SideEffectCommitted"
  | .sideEffectCompensated => "SideEffectCompensated"
  | .sideEffectRolledBack => "SideEffectRolledBack"
  | .quarantined => "Quarantined"
  | .quarantineHoldCreated => "QuarantineHoldCreated"
  | .quarantineResolved => "QuarantineResolved"
  | .quarantineTimedOut => "QuarantineTimedOut"
  | .errorRaised => "ErrorRaised"
  | .externalEventReceived => "ExternalEventReceived"
  | .policyBundleActivated => "PolicyBundleActivated"
  | .policyBundleDeactivated => "PolicyBundleDeactivated"
  | .policyBundleRolledBack => "PolicyBundleRolledBack"

inductive ProvenanceEdgeType where
  | derivedFrom | authorizedBy | approvedBy | taintedBy | usesManifest | evaluatedByPolicy
  | caused | compensates | verifies | references
  deriving DecidableEq

/-- The parent kind and the edge type the lineage requires of an event of this kind. -/
def lineageParentSpec : ProvenanceEventKind → Option (ProvenanceEventKind × ProvenanceEdgeType)
  | .capabilityMinted => some (.policyEvaluated, .evaluatedByPolicy)
  | .capabilityRevoked => some (.capabilityMinted, .references)
  | .approvalGranted | .approvalDenied | .approvalTimedOut => some (.policyEvaluated, .approvedBy)
  | .quarantineHoldCreated => some (.policyEvaluated, .caused)
  | .quarantineResolved | .quarantineTimedOut => some (.quarantineHoldCreated, .caused)
  | .actionProposalSubmitted => some (.capabilityMinted, .authorizedBy)
  | .sideEffectPrepared => some (.actionProposalSubmitted, .caused)
  | .toolCallPrepared => some (.sideEffectPrepared, .caused)
  | .toolCallExecuted => some (.toolCallPrepared, .caused)
  | .sideEffectVerified => some (.toolCallExecuted, .verifies)
  | .sideEffectCommitted => some (.sideEffectVerified, .caused)
  | .sideEffectCompensated | .sideEffectRolledBack => some (.toolCallExecuted, .compensates)
  | _ => none

/-- The `transition_name` of a lifecycle transaction. -/
inductive TransitionName where
  | prepare | execute | executeRecovery | verify | verifyRecovery | commit | compensate | cancel
  | haRecovery
  deriving DecidableEq

def TransitionName.text : TransitionName → String
  | .prepare => "prepare"
  | .execute => "execute"
  | .executeRecovery => "execute-recovery"
  | .verify => "verify"
  | .verifyRecovery => "verify-recovery"
  | .commit => "commit"
  | .compensate => "compensate"
  | .cancel => "cancel"
  | .haRecovery => "ha-recovery"

/-- An outbox record's idempotency key: `authorize:{id}`, or
`{transition}:{id}:{execution state}:{contract state or none}`. -/
inductive IdempotencyKey where
  | authorize (executionId : ExecutionId)
  | transition (name : TransitionName) (executionId : ExecutionId) (state : ExecutionState)
      (contractState : Option RollbackState)
  deriving DecidableEq

def IdempotencyKey.text : IdempotencyKey → String
  | .authorize e => s!"authorize:{e.uuid}"
  | .transition name e state contractState =>
    let contract := (contractState.map (·.debug)).getD "none"
    s!"{name.text}:{e.uuid}:{state.debug}:{contract}"

/-- The metadata entries of an event that the gateway or the reconciler looks up. -/
structure EventMetadata where
  lifecycleOutboxId : Option LifecycleOutboxId := none
  idempotencyKey : Option IdempotencyKey := none
  decision : Option String := none
  approvalId : Option ApprovalId := none
  actorAuthenticated : Option Bool := none
  actorRole : Option String := none
  lineageParentOptional : Option Bool := none
  lineageParentMissing : Option String := none
  deriving DecidableEq

structure ProvenanceEvent where
  eventId : EventId
  kind : ProvenanceEventKind
  occurredAt : Timestamp
  /-- `object.object_id`, where it is the id of an approval. -/
  objectApproval : Option ApprovalId := none
  intentId : Option IntentId
  proposalId : Option ProposalId
  executionId : Option ExecutionId
  capabilityId : Option CapabilityId
  rollbackContractId : Option RollbackContractId
  policyBundleId : Option PolicyBundleId := none
  metadata : EventMetadata
  deriving DecidableEq

/-- A row of `provenance_edges`: the parent event, the child event and the type. -/
structure ProvenanceEdge where
  edgeType : ProvenanceEdgeType
  fromEventId : EventId
  toEventId : EventId
  deriving DecidableEq

/-! ## The lifecycle outbox -/

inductive LifecycleOutboxStatus where
  | pendingProvenance | provenanceWritten | reconciled | needsOperatorReview
  deriving DecidableEq

structure ProvenanceObligation where
  eventKind : ProvenanceEventKind
  parentKind : Option ProvenanceEventKind
  edgeType : Option ProvenanceEdgeType
  eventId : Option EventId
  deriving DecidableEq

def ProvenanceObligation.pending (kind : ProvenanceEventKind) : ProvenanceObligation :=
  { eventKind := kind
    parentKind := (lineageParentSpec kind).map (·.1)
    edgeType := (lineageParentSpec kind).map (·.2)
    eventId := none }

def ProvenanceObligation.isSatisfied (o : ProvenanceObligation) : Bool := o.eventId.isSome

structure LifecycleOutboxRecord where
  outboxId : LifecycleOutboxId
  executionId : ExecutionId
  rollbackContractId : Option RollbackContractId
  previousExecutionState : Option ExecutionState
  newExecutionState : ExecutionState
  previousRollbackState : Option RollbackState
  newRollbackState : Option RollbackState
  intendedProvenanceKind : ProvenanceEventKind
  idempotencyKey : IdempotencyKey
  status : LifecycleOutboxStatus
  provenanceEventId : Option EventId
  provenanceObligations : List ProvenanceObligation
  attemptCount : Nat
  lastError : Option String
  createdAt : Timestamp
  updatedAt : Timestamp
  deriving DecidableEq

/-- `LifecycleOutboxRecord::pending_with_obligations`, with the fresh id and the clock reading it
takes. -/
def LifecycleOutboxRecord.pendingWithObligations (outboxId : LifecycleOutboxId) (now : Timestamp)
    (executionId : ExecutionId) (rollbackContractId : Option RollbackContractId)
    (previousExecutionState : Option ExecutionState) (newExecutionState : ExecutionState)
    (previousRollbackState newRollbackState : Option RollbackState)
    (kinds : List ProvenanceEventKind) (idempotencyKey : IdempotencyKey) :
    LifecycleOutboxRecord :=
  { outboxId, executionId, rollbackContractId, previousExecutionState, newExecutionState,
    previousRollbackState, newRollbackState
    intendedProvenanceKind := kinds.head?.getD .errorRaised
    idempotencyKey
    status := .pendingProvenance
    provenanceEventId := none
    provenanceObligations := kinds.map .pending
    attemptCount := 0
    lastError := none
    createdAt := now
    updatedAt := now }

/-- `mark_obligation_written`: the first obligation of the kind gets the event id; a record
without obligations first gets the one of its intended kind, and a kind it does not list is
added. -/
def LifecycleOutboxRecord.markObligationWritten (r : LifecycleOutboxRecord)
    (kind : ProvenanceEventKind) (eventId : EventId) (now : Timestamp) : LifecycleOutboxRecord :=
  let obligations :=
    if r.provenanceObligations.isEmpty then [.pending r.intendedProvenanceKind]
    else r.provenanceObligations
  { r with
    provenanceObligations := fill obligations
    provenanceEventId := some eventId
    status := .provenanceWritten
    updatedAt := now }
where
  fill : List ProvenanceObligation → List ProvenanceObligation
    | [] => [{ ProvenanceObligation.pending kind with eventId := some eventId }]
    | o :: rest =>
      if o.eventKind = kind then { o with eventId := some eventId } :: rest else o :: fill rest

/-- `require_all_obligations_satisfied`, as a test. -/
def LifecycleOutboxRecord.obligationsSatisfied (r : LifecycleOutboxRecord) : Bool :=
  if r.provenanceObligations.isEmpty then r.provenanceEventId.isSome
  else r.provenanceObligations.all (·.isSatisfied)

end FerrumGate
