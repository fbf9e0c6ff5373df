import FerrumGate.Gateway.Problem
import FerrumGate.Interleave.Solo
import FerrumGate.Store.PolicyBundles

/-!
# The handlers of policy bundles

`create_policy_bundle`, `update_policy_bundle`, `set_policy_bundle_active` and
`rollback_policy_bundle` of `ferrum-gateway/src/policy.rs`, and how a bundle is made of a YAML body
(`into_policy_bundle` of `ferrum-proto/src/policy_bundle.rs`). YAML itself is parsed elsewhere: a
request holds the body as it was parsed, or the parser's error.
-/

namespace FerrumGate.PolicyBundles

open Interleave

/-- What the handlers take from elsewhere: lower case, the JSON text of a bundle, SHA-256 in hex,
the firewall's sanitizer, and whether a failed audit entry refuses the request. -/
structure PolicyEnv where
  lowercase : Lowercase
  /-- The text of a JSON value that was written and read once; that of a float can be another. -/
  reread : String → String
  toJson : PolicyBundleRecord → List Char
  sha256Hex : List Char → String
  sanitize : String → String
  auditFailClosed : Bool

/-- **`compute_content_hash`**. -/
def PolicyBundleRecord.computeContentHash (env : PolicyEnv) (bundle : PolicyBundleRecord) : String :=
  env.sha256Hex (env.toJson bundle)

/-- The matcher as it is read back from `raw_json`. -/
def rereadMatcher (env : PolicyEnv) : Matcher → Matcher
  | .unknown matcherType (some (.other json)) => .unknown matcherType (some (.other (env.reread json)))
  | matcher => matcher

/-- The bundle as it is read back. -/
def PolicyBundleRecord.reread (env : PolicyEnv) (bundle : PolicyBundleRecord) : PolicyBundleRecord :=
  { bundle with
    rules := bundle.rules.map fun rule =>
      { rule with matchers := rule.matchers.map (rereadMatcher env) } }

/-- A YAML body that was parsed. -/
structure YamlBody extends YamlPolicyBundle where
  version : String

/-- **`into_policy_bundle`**, with its timestamps and its hash. -/
def YamlBody.intoRecord (env : PolicyEnv) (now : Int) (yaml : YamlBody) : PolicyBundleRecord :=
  let bundle : PolicyBundleRecord :=
    { yaml.intoPolicyBundle env.lowercase with
      version := yaml.version
      -- inactive by default, activation is a separate step
      active := false
      contentHash := none
      createdAt := now
      updatedAt := now }
  { bundle with contentHash := some (bundle.computeContentHash env) }

/-- `PolicyBundleResponse` -/
structure PolicyBundleResponse where
  bundle : PolicyBundleRecord
  contentHash : String
  deriving DecidableEq

/-- `RollbackPolicyBundleResponse` -/
structure RollbackPolicyBundleResponse where
  bundleId : String
  newVersion : Int
  previousVersion : Int
  rolledBackToVersion : Int
  deriving DecidableEq

/-- A handler of policy bundles. -/
abbrev PolicyHandler (α : Type) := ExceptT ApiProblem (Prog PolicyOp PolicyOp.Result) α

/-- A routine of the store whose error is an internal problem. -/
def store {α : Type} (x : PolicyRepo α) : PolicyHandler α :=
  ExceptT.adapt (fun e => ApiProblem.internal e.text) x

/-- A statement whose error the handler looks at. -/
def ask (o : PolicyOp) : PolicyHandler o.Result := ExceptT.lift (Prog.op o)

def invalid (message : String) : ApiProblem := ⟨.badRequest, .validationError, message⟩

/-- `parse_policy_bundle_yaml`; a body that is not one is given by the parser's error. -/
def parsePolicyBundleYaml (env : PolicyEnv) (yaml : Except String YamlBody) (now : Int) :
    Except ApiProblem PolicyBundleRecord :=
  match yaml with
  | .error e => .error (invalid s!"invalid policy bundle YAML: {e}")
  | .ok yaml => .ok (yaml.intoRecord env now)

/-- `append_audit_checked` -/
def appendAuditChecked (env : PolicyEnv) : PolicyHandler Unit := do
  let appended ← ask .appendRecord
  ofExcept (ensure (appended.isOk ∨ ¬ env.auditFailClosed) ⟨.serviceUnavailable, .internal,
    "audit append failed: action blocked by fail-closed policy"⟩)

/-- **`create_policy_bundle`**. A lookup by hash that fails counts as a miss. -/
def createPolicyBundle (env : PolicyEnv) (yaml : Except String YamlBody) (now : Int) :
    PolicyHandler PolicyBundleResponse := do
  let bundle ← ofExcept (parsePolicyBundleYaml env yaml now)
  let contentHash := bundle.contentHash.getD ""
  let existing ← ask (.selectByHash contentHash)
  match existing with
  | .ok (some existing) => return ⟨existing, contentHash⟩
  | _ => do
    store (insert bundle)
    appendAuditChecked env
    return ⟨bundle, contentHash⟩

/-- **`update_policy_bundle`**; `parsed` and `now` are the times of the parse and of the update. -/
def updatePolicyBundle (env : PolicyEnv) (bundleId : String) (yaml : Except String YamlBody)
    (parsed now : Int) : PolicyHandler PolicyBundleResponse := do
  let bundle ← ofExcept (parsePolicyBundleYaml env yaml parsed)
  ofExcept (ensure (bundle.bundleId = bundleId) (invalid (
    s!"bundle_id in YAML ('{bundle.bundleId}') does not match path ('{bundleId}')")))
  let found ← store (sql (.selectBundle bundleId))
  match found with
  | none => throw (.missing s!"policy bundle '{bundleId}' not found")
  | some existing => do
    let bundle := { bundle with createdAt := existing.createdAt, updatedAt := now }
    let contentHash := bundle.computeContentHash env
    let bundle := { bundle with contentHash := some contentHash }
    store (update bundle)
    return ⟨bundle, contentHash⟩

/-- **`set_policy_bundle_active`**. -/
def setPolicyBundleActive (env : PolicyEnv) (bundleId : String) (active : Bool) :
    PolicyHandler (String × Bool) := do
  let found ← store (sql (.selectBundle bundleId))
  match found with
  | none => throw (.missing (env.sanitize s!"policy bundle '{bundleId}' not found"))
  | some _ => do
    store (setActive bundleId active)
    appendAuditChecked env
    -- the provenance event
    store (sql .appendRecord)
    return (bundleId, active)

/-- **`rollback_policy_bundle`**. -/
def rollbackPolicyBundle (env : PolicyEnv) (bundleId : String) (targetVersion now : Int) :
    PolicyHandler RollbackPolicyBundleResponse := do
  let versions ← store (sql (.selectVersions bundleId))
  let previousVersion := maxVersion versions
  let newVersion ← store (rollback bundleId targetVersion now)
  appendAuditChecked env
  -- the provenance event
  store (sql .appendRecord)
  return ⟨bundleId, newVersion, previousVersion, targetVersion⟩

/-! ## Requests -/

inductive PolicyRequest where
  | create (yaml : Except String YamlBody) (now : Int)
  | update (bundleId : String) (yaml : Except String YamlBody) (parsed now : Int)
  | setActive (bundleId : String) (active : Bool)
  | rollback (bundleId : String) (targetVersion now : Int)

/-- What a request is answered with. -/
inductive PolicyAnswer where
  | bundle (response : PolicyBundleResponse)
  | activated (bundleId : String) (active : Bool)
  | rolledBack (response : RollbackPolicyBundleResponse)
  deriving DecidableEq

def PolicyRequest.handler (env : PolicyEnv) : PolicyRequest → PolicyHandler PolicyAnswer
  | .create yaml now => do return .bundle (← createPolicyBundle env yaml now)
  | .update bundleId yaml parsed now => do
    return .bundle (← updatePolicyBundle env bundleId yaml parsed now)
  | .setActive bundleId active => do
    let (bundleId, active) ← setPolicyBundleActive env bundleId active
    return .activated bundleId active
  | .rollback bundleId targetVersion now => do
    return .rolledBack (← rollbackPolicyBundle env bundleId targetVersion now)

end FerrumGate.PolicyBundles
