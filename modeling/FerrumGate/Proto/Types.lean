/-!
# Records and enumerations of `ferrum-proto`

The workflow objects the gateway stores: intents, proposals, capability leases, approvals,
quarantine holds, executions and rollback contracts (`ferrum-proto/src/{common, intent,
execution, capability, approval, quarantine, rollback}.rs`).

A uuid newtype is a number under its own name, an instant is the number of nanoseconds since some
epoch (only its order and sums with a duration matter), and a record keeps the fields that some
modelled function reads or copies. JSON values are kept as trees.
-/

namespace FerrumGate

/-! ## Identifiers and instants -/

structure IntentId where
  uuid : Nat
  deriving DecidableEq

structure ProposalId where
  uuid : Nat
  deriving DecidableEq

structure CapabilityId where
  uuid : Nat
  deriving DecidableEq

structure ExecutionId where
  uuid : Nat
  deriving DecidableEq

structure RollbackContractId where
  uuid : Nat
  deriving DecidableEq

structure ApprovalId where
  uuid : Nat
  deriving DecidableEq

structure QuarantineHoldId where
  uuid : Nat
  deriving DecidableEq

structure EventId where
  uuid : Nat
  deriving DecidableEq

structure LifecycleOutboxId where
  uuid : Nat
  deriving DecidableEq

structure PolicyBundleId where
  uuid : Nat
  deriving DecidableEq

/-- A `DateTime<Utc>`, in nanoseconds. -/
abbrev Timestamp := Nat

/-- `chrono::Duration::seconds`. -/
def seconds (n : Nat) : Timestamp := n * 1000000000

/-! ## JSON -/

mutual

/-- A `serde_json::Value` without floats: what is stored as JSON text is read back as it was. A float
can be read back as its neighbour. -/
inductive Json where
  | null
  | bool (b : Bool)
  | num (n : Int)
  | str (s : String)
  | arr (items : JsonItems)
  | obj (fields : JsonFields)
  deriving DecidableEq

inductive JsonItems where
  | nil
  | cons (head : Json) (tail : JsonItems)
  deriving DecidableEq

inductive JsonFields where
  | nil
  | cons (key : String) (value : Json) (tail : JsonFields)
  deriving DecidableEq

end

/-- `as_str`. -/
def Json.asStr : Json → Option String
  | .str s => some s
  | _ => none

/-- `as_u64`. -/
def Json.asU64 : Json → Option Nat
  | .num (.ofNat n) => if n < 18446744073709551616 then some n else none
  | _ => none

def JsonFields.get (key : String) : JsonFields → Option Json
  | .nil => none
  | .cons k value tail => if k = key then some value else tail.get key

/-- `as_object().and_then(|o| o.get(key))`. -/
def Json.field (key : String) : Json → Option Json
  | .obj fields => fields.get key
  | _ => none

/-- `json!` of a list. -/
def Json.ofList (items : List Json) : Json := .arr (items.foldr .cons .nil)

/-- `JsonMap`: an insertion-ordered map. -/
abbrev JsonMap := List (String × Json)

/-- `IndexMap::insert`: replace the value in place, or add the pair at the end. -/
def JsonMap.insert (m : JsonMap) (key : String) (value : Json) : JsonMap :=
  if m.any (·.1 == key) then m.map fun kv => if kv.1 == key then (key, value) else kv
  else m ++ [(key, value)]

/-- `for (key, value) in other { m.insert(key, value) }`. -/
def JsonMap.extend (m other : JsonMap) : JsonMap :=
  other.foldl (fun acc kv => JsonMap.insert acc kv.1 kv.2) m

/-- `json!` of a map. -/
def JsonMap.toJson (m : JsonMap) : Json :=
  .obj (m.foldr (fun kv fields => .cons kv.1 kv.2 fields) .nil)

/-! ## Enumerations -/

inductive Decision where
  | allow | deny | quarantine | requireApproval | allowDraftOnly
  deriving DecidableEq

/-- `format!("{:?}", decision)`. -/
def Decision.debug : Decision → String
  | .allow => "Allow"
  | .deny => "Deny"
  | .quarantine => "Quarantine"
  | .requireApproval => "RequireApproval"
  | .allowDraftOnly => "AllowDraftOnly"

inductive ApprovalMode where
  | none | required | draftOnly | twoPhaseCommit
  deriving DecidableEq

inductive RollbackClass where
  | r0NativeReversible | r1SnapshotRecoverable | r2Compensatable | r3IrreversibleHighConsequence
  deriving DecidableEq

inductive ExecutionState where
  | proposed | authorized | prepared | running | awaitingApproval | awaitingVerification
  | recoveryRequired | committed | compensated | rolledBack | denied | quarantined | failed
  | canceled
  deriving DecidableEq

/-- `format!("{:?}", state)`. -/
def ExecutionState.debug : ExecutionState → String
  | .proposed => "Proposed"
  | .authorized => "Authorized"
  | .prepared => "Prepared"
  | .running => "Running"
  | .awaitingApproval => "AwaitingApproval"
  | .awaitingVerification => "AwaitingVerification"
  | .recoveryRequired => "RecoveryRequired"
  | .committed => "Committed"
  | .compensated => "Compensated"
  | .rolledBack => "RolledBack"
  | .denied => "Denied"
  | .quarantined => "Quarantined"
  | .failed => "Failed"
  | .canceled => "Canceled"

inductive RollbackState where
  | pendingPrepare | prepared | recoveryRequired | executedAwaitingVerify | verified | committed
  | compensationPending | compensated | rolledBack | failed | expired
  deriving DecidableEq

/-- `format!("{:?}", state)`. -/
def RollbackState.debug : RollbackState → String
  | .pendingPrepare => "PendingPrepare"
  | .prepared => "Prepared"
  | .recoveryRequired => "RecoveryRequired"
  | .executedAwaitingVerify => "ExecutedAwaitingVerify"
  | .verified => "Verified"
  | .committed => "Committed"
  | .compensationPending => "CompensationPending"
  | .compensated => "Compensated"
  | .rolledBack => "RolledBack"
  | .failed => "Failed"
  | .expired => "Expired"

inductive CapabilityStatus where
  | active | used | expired | revoked | quarantined
  deriving DecidableEq

inductive ApprovalState where
  | pending | granted | denied | expired
  deriving DecidableEq

/-- `format!("{:?}", state)`. -/
def ApprovalState.debug : ApprovalState → String
  | .pending => "Pending"
  | .granted => "Granted"
  | .denied => "Denied"
  | .expired => "Expired"

inductive QuarantineHoldState where
  | pending | allowed | denied | expired
  deriving DecidableEq

/-- `format!("{:?}", state)`. -/
def QuarantineHoldState.debug : QuarantineHoldState → String
  | .pending => "Pending"
  | .allowed => "Allowed"
  | .denied => "Denied"
  | .expired => "Expired"

inductive ActorType where
  | user | agent | policyEngine | gateway | adapter | operator | system
  deriving DecidableEq

/-- `format!("{:?}", actor_type).to_ascii_lowercase()`. -/
def ActorType.debugLower : ActorType → String
  | .user => "user"
  | .agent => "agent"
  | .policyEngine => "policyengine"
  | .gateway => "gateway"
  | .adapter => "adapter"
  | .operator => "operator"
  | .system => "system"

inductive ActionType where
  | fileWrite | fileDelete | fileMove | fileCopy | fileAppend | fileChmod | dirCreate | dirDelete
  | gitCommit | gitBranchCreate | gitBranchDelete | gitTagCreate | gitTagDelete | gitPush
  | gitPull | gitFetch | sqlMutation | httpMutation | emailSend | mailDraft | mcpToolMutation
  | s3PutObject | s3DeleteObject | s3GetObject | s3CopyObject
  | gcsPutObject | gcsDeleteObject | gcsGetObject | unknown
  deriving DecidableEq

inductive ResourceMode where
  | read | write | readWrite | draft | execute | admin
  deriving DecidableEq

inductive HttpMethod where
  | get | post | put | patch | delete
  deriving DecidableEq

/-- `format!("{:?}", method)`. -/
def HttpMethod.debug : HttpMethod → String
  | .get => "Get"
  | .post => "Post"
  | .put => "Put"
  | .patch => "Patch"
  | .delete => "Delete"

inductive CheckType where
  | fileExists | fileHashMatches | gitRefMatches | sqlRowCountRange | httpStatusExpected
  | emailDraftExists | jsonPredicate | s3ObjectExists | s3VersionIdMatches | gcsObjectExists
  | gcsGenerationMatches
  deriving DecidableEq

/-! ## Resources -/

inductive ResourceSelector where
  | filesystemPath (path : String) (mode : ResourceMode) (contentHash : Option String)
  | gitRepository (repoPath : String) (allowedRefs : List String) (mode : ResourceMode)
  | sqliteDatabase (dbPath : String) (tables : List String) (mode : ResourceMode)
  | httpEndpoint (method : HttpMethod) (baseUrl pathPrefix : String) (mode : ResourceMode)
  | emailDraft (recipientAllowlist subjectPrefixAllowlist : List String) (mode : ResourceMode)
  | mcpTool (serverName toolName : String) (mode : ResourceMode)
  | s3Bucket (bucket : String) (keyPrefixAllowlist : List String) (mode : ResourceMode)
  deriving DecidableEq

inductive ResourceBinding where
  | file (path : String) (mode : ResourceMode) (requiredHash : Option String)
  | git (repoPath : String) (allowedRefs : List String) (mode : ResourceMode)
  | sqlite (dbPath : String) (tables : List String) (mode : ResourceMode)
  | http (method : HttpMethod) (baseUrl pathPrefix : String) (headerAllowlist : List String)
      (mode : ResourceMode)
  | emailDraft (recipients : List String) (allowSend : Bool) (mode : ResourceMode)
  deriving DecidableEq

inductive ArgumentConstraint where
  | exactString (key value : String)
  | stringOneOf (key : String) (values : List String)
  | stringRegex (key pattern : String)
  | intRange (key : String) (min max : Int)
  | boolExact (key : String) (value : Bool)
  | jsonPointerMustExist (pointer : String)
  | jsonPointerMustNotExist (pointer : String)
  deriving DecidableEq

inductive RollbackTarget where
  | filePath (path : String) (beforeHash afterHash : Option String)
  | gitRef (repoPath : String) (beforeRef afterRef : Option String)
  | sqliteTxn (dbPath txId : String)
  | httpRequest (method : HttpMethod) (url requestDigest : String)
  | emailDraft (draftId : Option String) (recipients : List String)
  | s3Object (bucket key : String) (versionId : Option String)
  | gcsObject (bucket key : String) (generation : Option Int)
  | generic (ns identifier : String)
  deriving DecidableEq

structure CheckSpec where
  checkType : CheckType
  config : JsonMap
  deriving DecidableEq

structure CompensationStep where
  order : Nat
  adapterKey : String
  operation : String
  args : JsonMap
  idempotencyKey : String
  deriving DecidableEq

/-! ## Stored records -/

structure IntentEnvelope where
  intentId : IntentId
  resourceScope : List ResourceSelector
  approvalMode : ApprovalMode
  expiresAt : Timestamp
  ownerActorId : Option String
  deriving DecidableEq

structure ActionProposal where
  proposalId : ProposalId
  intentId : IntentId
  toolName : String
  serverName : String
  rawArguments : Json
  requestedRollbackClass : RollbackClass
  metadata : JsonMap
  createdAt : Timestamp
  ownerActorId : Option String
  deriving DecidableEq

structure ToolBinding where
  serverName : String
  toolName : String
  toolVersion : Option String
  deriving DecidableEq

structure ApprovalBinding where
  approvalId : ApprovalId
  approverRoles : List String
  approvedActionDigest : String
  expiresAt : Timestamp
  deriving DecidableEq

structure TaintBudget where
  maxTaintScore : UInt8
  allowExternalToolOutput : Bool
  allowExternalMetadata : Bool
  allowUntrustedText : Bool
  deriving DecidableEq

structure CapabilityLease where
  capabilityId : CapabilityId
  intentId : IntentId
  proposalId : ProposalId
  toolBinding : ToolBinding
  resourceBindings : List ResourceBinding
  argumentConstraints : List ArgumentConstraint
  taintBudget : TaintBudget
  approvalBinding : Option ApprovalBinding
  policyBundleId : PolicyBundleId
  status : CapabilityStatus
  issuedAt : Timestamp
  expiresAt : Timestamp
  revokedAt : Option Timestamp
  metadata : JsonMap
  ownerActorId : Option String
  deriving DecidableEq

structure ApprovalRequest where
  approvalId : ApprovalId
  intentId : IntentId
  proposalId : ProposalId
  executionId : Option ExecutionId
  requestedBy : ActorType
  actionDigest : String
  expiresAt : Timestamp
  state : ApprovalState
  createdAt : Timestamp
  resolverEvidenceVersion : Option Nat
  ownerActorId : Option String
  deriving DecidableEq

structure QuarantineHold where
  holdId : QuarantineHoldId
  intentId : IntentId
  proposalId : ProposalId
  reason : String
  state : QuarantineHoldState
  expiresAt : Timestamp
  createdAt : Timestamp
  ownerActorId : Option String
  deriving DecidableEq

structure ExecutionRecord where
  executionId : ExecutionId
  proposalId : ProposalId
  intentId : IntentId
  capabilityId : CapabilityId
  rollbackContractId : Option RollbackContractId
  decision : Decision
  state : ExecutionState
  startedAt : Timestamp
  finishedAt : Option Timestamp
  resultDigest : Option String
  ownerActorId : Option String
  deriving DecidableEq

structure RollbackContract where
  contractId : RollbackContractId
  intentId : IntentId
  proposalId : ProposalId
  executionId : ExecutionId
  actionType : ActionType
  rollbackClass : RollbackClass
  adapterKey : String
  target : RollbackTarget
  prepareChecks : List CheckSpec
  verifyChecks : List CheckSpec
  compensationPlan : List CompensationStep
  autoCommit : Bool
  state : RollbackState
  createdAt : Timestamp
  expiresAt : Option Timestamp
  metadata : JsonMap
  deriving DecidableEq

end FerrumGate
