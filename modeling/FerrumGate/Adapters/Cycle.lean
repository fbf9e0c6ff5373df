import FerrumGate.Gateway.Executions
import FerrumGate.Proto.Metadata

/-!
# Rollback adapters

An adapter (`ferrum-rollback/src/adapter.rs`) acts on something outside the gateway, in three
phases: `prepare` looks at it and records what a recovery will need, `execute` changes it, and
`rollback` is to change it back. The phases share the contract: the rollback service adds the
metadata that `prepare` returns to those of the request, and the gateway adds those that `execute`
returns.
-/

namespace FerrumGate

inductive AdapterError where
  | unsupported (message : String)
  | validation (message : String)
  | internal (message : String)
  deriving DecidableEq

/-- `format!("{:?}", action_type)`. -/
def ActionType.debug : ActionType → String
  | .fileWrite => "FileWrite"
  | .fileDelete => "FileDelete"
  | .fileMove => "FileMove"
  | .fileCopy => "FileCopy"
  | .fileAppend => "FileAppend"
  | .fileChmod => "FileChmod"
  | .dirCreate => "DirCreate"
  | .dirDelete => "DirDelete"
  | .gitCommit => "GitCommit"
  | .gitBranchCreate => "GitBranchCreate"
  | .gitBranchDelete => "GitBranchDelete"
  | .gitTagCreate => "GitTagCreate"
  | .gitTagDelete => "GitTagDelete"
  | .gitPush => "GitPush"
  | .gitPull => "GitPull"
  | .gitFetch => "GitFetch"
  | .sqlMutation => "SqlMutation"
  | .httpMutation => "HttpMutation"
  | .emailSend => "EmailSend"
  | .mailDraft => "MailDraft"
  | .mcpToolMutation => "McpToolMutation"
  | .s3PutObject => "S3PutObject"
  | .s3DeleteObject => "S3DeleteObject"
  | .s3GetObject => "S3GetObject"
  | .s3CopyObject => "S3CopyObject"
  | .gcsPutObject => "GcsPutObject"
  | .gcsDeleteObject => "GcsDeleteObject"
  | .gcsGetObject => "GcsGetObject"
  | .unknown => "Unknown"

/-- `phase_wrap_internal`. -/
def phaseWrapInternal (phase message : String) : AdapterError :=
  .internal ("[" ++ phase ++ "] " ++ message)

/-! ## The metadata of the contract -/

variable {receipt : ExecuteReceipt} {contract : RollbackContract} {payload : Json} {key : String}

/-- What a recovery reads of the metadata of `execute`. -/
theorem executedContract_lookup (h : (receipt.adapterMetadata.map Prod.fst).Nodup)
    (hkey : key ≠ "execute_payload") :
    (executedContract contract receipt payload).metadata.lookup key =
      (receipt.adapterMetadata.lookup key).or (contract.metadata.lookup key) := by
  have hmetadata : (executedContract contract receipt payload).metadata =
      (JsonMap.extend contract.metadata receipt.adapterMetadata).insert "execute_payload"
        payload := rfl
  rw [hmetadata, JsonMap.lookup_insert, if_neg hkey, JsonMap.lookup_extend h]

/-- A text that `execute` recorded is in the contract. -/
theorem executedContract_str (hnodup : (receipt.adapterMetadata.map Prod.fst).Nodup)
    {text : String} (hkey : key ≠ "execute_payload")
    (h : receipt.adapterMetadata.lookup key = some (.str text)) :
    (executedContract contract receipt payload).metadata.str key = some text := by
  rw [JsonMap.str, executedContract_lookup hnodup hkey, h]
  rfl

/-! ## Closed runs -/

namespace Sample

/-- A request to an adapter with no checks and no plan of its own. -/
def adapterRequest (action : ActionType) (target : RollbackTarget) (metadata : JsonMap) :
    RollbackPrepareRequest where
  intentId := ⟨1⟩
  proposalId := ⟨2⟩
  executionId := ⟨3⟩
  actionType := action
  rollbackClass := .r1SnapshotRecoverable
  adapterKey := "adapter"
  target := target
  prepareChecks := []
  verifyChecks := []
  compensationPlan := []
  autoCommit := false
  metadata := metadata

end Sample

end FerrumGate
