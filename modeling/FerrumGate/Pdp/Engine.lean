import FerrumGate.Proto.Text
import FerrumGate.Proto.Types

/-!
# The static policy engine

`ferrum-pdp/src/engine.rs`: the effect of a proposal is inferred from its texts, and the proposal is
denied, quarantined, sent to approval, confined to a draft or allowed by nested conditions, with the
outcomes that the intent forbids and allows as the last ones.
-/

namespace FerrumGate

/-! ## What the engines read -/

inductive RiskTier where
  | low | medium | high | critical
  deriving DecidableEq

inductive EffectType where
  | readOnlyAnalysis | draftCreation | fileMutation | gitMutation | databaseMutation
  | externalApiCall | externalCommunication | scheduling | administrativeChange
  deriving DecidableEq

/-- `format!("{:?}", effect)`. -/
def EffectType.debug : EffectType → String
  | .readOnlyAnalysis => "ReadOnlyAnalysis"
  | .draftCreation => "DraftCreation"
  | .fileMutation => "FileMutation"
  | .gitMutation => "GitMutation"
  | .databaseMutation => "DatabaseMutation"
  | .externalApiCall => "ExternalApiCall"
  | .externalCommunication => "ExternalCommunication"
  | .scheduling => "Scheduling"
  | .administrativeChange => "AdministrativeChange"

/-- `format!("{:?}", class)`. -/
def RollbackClass.debug : RollbackClass → String
  | .r0NativeReversible => "R0NativeReversible"
  | .r1SnapshotRecoverable => "R1SnapshotRecoverable"
  | .r2Compensatable => "R2Compensatable"
  | .r3IrreversibleHighConsequence => "R3IrreversibleHighConsequence"

/-- `format!("{:?}", mode)`. -/
def ApprovalMode.debug : ApprovalMode → String
  | .none => "None"
  | .required => "Required"
  | .draftOnly => "DraftOnly"
  | .twoPhaseCommit => "TwoPhaseCommit"

structure OutcomeClause where
  description : String
  effectType : EffectType
  deriving DecidableEq

/-- An intent, with the outcomes that only the policy engines look at. -/
structure PolicyIntent extends IntentEnvelope where
  allowedOutcomes : List OutcomeClause
  forbiddenOutcomes : List OutcomeClause

/-- A proposal, with what only the policy engines look at. -/
structure PolicyProposal extends ActionProposal where
  expectedEffect : String
  estimatedRisk : RiskTier

structure TrustContextSummary where
  taintScore : UInt8

structure EvaluateProposalResponse where
  decision : Decision
  reason : String
  matchedRuleIds : List String
  warnings : List String
  deriving DecidableEq

/-- `str::to_lowercase`. Outside ASCII it is left open. -/
structure Lowercase where
  apply : String → String
  ascii : ∀ text : String, text.toList.all (·.toNat < 128) = true →
    apply text = String.ofList (text.toList.map Char.toLower)

/-- The one that leaves other letters as they are. -/
def Lowercase.plain : Lowercase := ⟨fun text => String.ofList (text.toList.map Char.toLower),
  fun _ _ => rfl⟩

/-- The context of an evaluation. -/
structure PolicyContext where
  intent : PolicyIntent
  proposal : PolicyProposal
  trust : TrustContextSummary
  lowercase : Lowercase

/-! ## Effects and outcomes -/

/-- Is one of the parts in the text? -/
def containsAny (text : String) (parts : List String) : Bool := parts.any (containsText text)

/-- **`infer_effect_type`**. -/
def inferEffectType (lowercase : Lowercase) (proposal : PolicyProposal) : EffectType :=
  let toolName := lowercase.apply proposal.toolName
  let serverName := lowercase.apply proposal.serverName
  let expectedEffect := lowercase.apply proposal.expectedEffect
  let hasFileWord := containsAny expectedEffect ["file", "directory", "folder", "path"]
  let hasMutationWord := containsAny expectedEffect
    ["delete", "remove", "rename", "move", "create", "write", "modify"]
  if containsAny toolName ["sql", "db", "database"] then .databaseMutation
  else if containsText toolName "git" || containsText serverName "git" then .gitMutation
  else if hasFileWord && hasMutationWord then .fileMutation
  else if containsAny toolName ["http", "api", "fetch"] then .externalApiCall
  else if containsAny toolName ["email", "slack", "message", "send"] then .externalCommunication
  else if containsAny toolName ["schedule", "cron", "timer"] then .scheduling
  else if containsAny toolName ["admin", "user", "permission", "role"] then .administrativeChange
  else if containsAny expectedEffect ["draft", "create"] then .draftCreation
  else
    match proposal.requestedRollbackClass with
    | .r0NativeReversible => .readOnlyAnalysis
    | .r3IrreversibleHighConsequence => .administrativeChange
    | _ => .readOnlyAnalysis

/-- **`check_forbidden_outcomes`**: the reason to deny. -/
def checkForbiddenOutcomes (inferred : EffectType) (forbidden : List OutcomeClause) :
    Option String :=
  (forbidden.find? (·.effectType = inferred)).map fun clause =>
    s!"forbidden outcome detected: {clause.description} (effect_type={clause.effectType.debug})"

/-- **`check_allowed_outcomes`**: a warning. No clause at all restricts nothing. -/
def checkAllowedOutcomes (inferred : EffectType) (allowed : List OutcomeClause) : Option String :=
  if allowed.isEmpty then none
  else if allowed.any (·.effectType = inferred) then none
  else some s!"advisory mismatch: inferred effect {inferred.debug} is not in allowed outcomes"

/-! ## The static engine -/

/-- The action mutates something. -/
def PolicyProposal.isMutation (proposal : PolicyProposal) : Bool :=
  proposal.requestedRollbackClass ≠ .r0NativeReversible

namespace PolicyContext

/-- A mutation under an intent that authorizes no resource. -/
def scopeMismatch (context : PolicyContext) : Bool :=
  context.intent.resourceScope.isEmpty && context.proposal.isMutation

/-- A critical risk under an intent that asks for no approval. -/
def criticalRiskNoApproval (context : PolicyContext) : Bool :=
  context.proposal.estimatedRisk = .critical && context.intent.approvalMode = .none

/-- What the proposal is taken to do. -/
def inferredEffect (context : PolicyContext) : EffectType :=
  inferEffectType context.lowercase context.proposal

end PolicyContext

/-- **`StaticPdpEngine::evaluate`**. -/
def staticEvaluate (context : PolicyContext) : EvaluateProposalResponse :=
  if context.scopeMismatch then
    { decision := .deny
      reason := "scope mismatch: no resources authorized for mutation action"
      matchedRuleIds := ["scope.mismatch.empty.scope"]
      warnings := [] }
  else if context.criticalRiskNoApproval then
    { decision := .requireApproval
      reason := "critical risk tier requires explicit approval mode"
      matchedRuleIds := ["approval.critical.risk.required"]
      warnings := [] }
  else if 70 ≤ context.trust.taintScore && context.proposal.isMutation then
    { decision := .quarantine
      reason := "taint score is too high for mutating or impactful action"
      matchedRuleIds := ["quarantine.high.taint.mutation"]
      warnings := [] }
  else if context.proposal.requestedRollbackClass = .r3IrreversibleHighConsequence then
    { decision := .requireApproval
      reason := "R3 action requires approval or draft-only handling"
      matchedRuleIds := ["approval.r3.required"]
      warnings := [] }
  else if context.intent.approvalMode = .draftOnly then
    { decision := .allowDraftOnly
      reason := "intent requires draft-only execution"
      matchedRuleIds := ["draft.only.intent"]
      warnings := ["intent enforces draft-only mode"] }
  else
    match checkForbiddenOutcomes context.inferredEffect context.intent.forbiddenOutcomes with
    | some reason =>
      { decision := .deny
        reason := reason
        matchedRuleIds := ["outcome.forbidden"]
        warnings := [] }
    | none =>
      let mismatch := checkAllowedOutcomes context.inferredEffect context.intent.allowedOutcomes
      { decision := .allow
        reason := "proposal passed default scaffold policy"
        matchedRuleIds := mismatch.toList.map (fun _ => "outcome.advisory.mismatch") ++
          ["allow.default"]
        warnings := mismatch.toList }

end FerrumGate
