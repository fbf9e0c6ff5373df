import FerrumGate.Adapters.Cycle
import FerrumGate.Proto.ActionDigest
import FerrumGate.Proto.Text

/-!
# What a proposal does

`infer_action_type_and_adapter` of `ferrum-gateway/src/execution/inference.rs`: the action and the
adapter are those that the metadata of the proposal name or, if they name none, those that the name
of the tool stands for. The digest that an approval is bound to covers the name of the tool, but not
the metadata.

* **`action_of_digest`** : what the digest fixes.
* `digest_with_two_actions` : two proposals with one digest that do different things.
-/

namespace FerrumGate.Digest

/-- The variants, as `serde` knows them. -/
def ActionType.all : List ActionType :=
  [.fileWrite, .fileDelete, .fileMove, .fileCopy, .fileAppend, .fileChmod, .dirCreate, .dirDelete,
    .gitCommit, .gitBranchCreate, .gitBranchDelete, .gitTagCreate, .gitTagDelete, .gitPush,
    .gitPull, .gitFetch, .sqlMutation, .httpMutation, .emailSend, .mailDraft, .mcpToolMutation,
    .s3PutObject, .s3DeleteObject, .s3GetObject, .s3CopyObject, .gcsPutObject, .gcsDeleteObject,
    .gcsGetObject, .unknown]

/-- `serde_json::from_value`: the name of a variant, alone or as the key of a `null`. -/
def actionTypeOf (value : Json) : Option ActionType :=
  let named (name : String) := ActionType.all.find? (·.debug = name)
  match value with
  | .str name => named name
  | .obj (.cons name .null .nil) => named name
  | _ => none

/-- What the libraries are asked for: `str::to_lowercase`, and what `serde_json` says about a value
that is no action. -/
structure InferEnv where
  lowercase : String → String
  serdeError : Json → String

variable (infer : InferEnv)

/-- `ActionBinding::from_metadata`, which is `explicit_action_binding` too. -/
def explicitActionBinding (metadata : JsonMap) : Except String (Option (ActionType × String)) :=
  match metadata.lookup "action_type" with
  | none => .ok none
  | some value =>
    match metadata.str "adapter_key" with
    | none => .error "explicit action binding requires metadata.adapter_key"
    | some adapterKey =>
      if trim adapterKey = "" then
        .error "explicit action binding adapter_key must not be empty"
      else
        match actionTypeOf value with
        | none => .error ("metadata.action_type is not a valid ferrum_proto::ActionType: " ++
            infer.serdeError value)
        | some .unknown => .error "explicit action binding must not use ActionType::Unknown"
        | some action => .ok (some (action, adapterKey))

/-- The parts of a tool's name that stand for an action, in the order they are looked for. -/
def toolActions : List (List String × ActionType × String) :=
  [(["file_write", "write_file", "fs_", "filesystem.write", "filesystem_write", "file-mutation"],
      .fileWrite, "fs"),
    (["fs.read", "filesystem.read", "file_read", "read_file"], .mcpToolMutation, "noop"),
    (["sql_mutate"], .sqlMutation, "sqlite"),
    (["maildraft", "draft_create", "email_draft"], .mailDraft, "maildraft"),
    (["git_branch_create"], .gitBranchCreate, "git"),
    (["git_tag_create"], .gitTagCreate, "git"),
    (["git_branch_delete"], .gitBranchDelete, "git"),
    (["git_tag_delete"], .gitTagDelete, "git"),
    (["git_push"], .gitPush, "git"),
    (["git_pull"], .gitPull, "git"),
    (["git_fetch"], .gitFetch, "git"),
    (["http_post", "http_put", "http_patch", "http_delete"], .httpMutation, "http"),
    (["s3_put", "s3putobject", "s3.write"], .s3PutObject, "s3"),
    (["s3_delete", "s3deleteobject", "s3.remove"], .s3DeleteObject, "s3"),
    (["s3_get", "s3getobject", "s3.read"], .s3GetObject, "s3"),
    (["s3_copy", "s3copyobject"], .s3CopyObject, "s3")]

def emailSendReserved : String :=
  "EmailSend is reserved/R3 but not implemented in v1. Use MailDraft for draft operations."

/-- What the name of a tool stands for. -/
def toolAction (toolName : String) : Except String (ActionType × String) :=
  let toolLower := infer.lowercase toolName
  if containsText toolLower "email_send" then .error emailSendReserved
  else
    match toolActions.find? fun entry => entry.1.any (containsText toolLower) with
    | some (_, action) => .ok action
    | none => .error ("unknown mutating tool '" ++ toolName ++ "' has no explicit action binding")

/-- **`infer_action_type_and_adapter`**. -/
def inferActionTypeAndAdapter (toolName : String) (metadata : JsonMap) :
    Except String (ActionType × String) :=
  match explicitActionBinding infer metadata with
  | .error e => .error e
  | .ok (some (.emailSend, _)) => .error emailSendReserved
  | .ok (some binding) => .ok binding
  | .ok none => toolAction infer toolName

variable {infer} {env : DigestEnv} {p q : ActionProposal}

/-- **What the digest fixes.** Without collisions, two proposals with the same digest do the same if
their metadata name the same action and adapter, or none. -/
theorem action_of_digest (hcollision : Function.Injective env.sha256Hex)
    (hdigest : canonicalActionDigest env p = canonicalActionDigest env q)
    (hbinding : explicitActionBinding infer p.metadata = explicitActionBinding infer q.metadata) :
    inferActionTypeAndAdapter infer p.toolName p.metadata =
      inferActionTypeAndAdapter infer q.toolName q.metadata := by
  have htool : p.toolName = q.toolName := toolName_of_digest hcollision hdigest
  unfold inferActionTypeAndAdapter
  rw [hbinding, htool]

namespace Sample

/-- The letters of ASCII. -/
def ascii : InferEnv where
  lowercase text := String.ofList (text.toList.map Char.toLower)
  serdeError _ := "unknown variant"

/-- A proposal of `git_push` with these metadata. -/
def withMetadata (metadata : JsonMap) : ActionProposal :=
  { proposal .nil (by simp [Serde.Value.Distinct, Serde.Fields.Distinct, Serde.Fields.keys]) with
    metadata := metadata }

/-- Metadata that name another action than the tool does. -/
def binding : JsonMap := [("action_type", .str "FileDelete"), ("adapter_key", .str "fs")]

end Sample

/-- Two proposals without a binding. -/
theorem action_of_plain_digest :
    inferActionTypeAndAdapter Sample.ascii "git_push" [] =
      inferActionTypeAndAdapter Sample.ascii "git_push" [("note", .str "again")] := by
  have hcollision : Function.Injective Sample.plain.sha256Hex :=
    fun _ _ h => String.ofList_injective h
  exact action_of_digest (p := Sample.withMetadata [])
    (q := Sample.withMetadata [("note", .str "again")]) hcollision rfl rfl

/-- **One digest, two actions.** The metadata of the second proposal name a deletion, and an
approval of the first one fits it. -/
theorem digest_with_two_actions :
    canonicalActionDigest Sample.plain (Sample.withMetadata []) =
        canonicalActionDigest Sample.plain (Sample.withMetadata Sample.binding) ∧
      inferActionTypeAndAdapter Sample.ascii "git_push" [] = .ok (.gitPush, "git") ∧
      inferActionTypeAndAdapter Sample.ascii "git_push" Sample.binding =
        .ok (.fileDelete, "fs") :=
  ⟨rfl, by decide +kernel, by decide +kernel⟩

end FerrumGate.Digest
