import FerrumGate.Expiring.Cache
import FerrumGate.Gateway.Problem
import FerrumGate.Proto.Text

/-!
# Authentication of agents

`verify_agent_request` of `auth.rs`: an agent signs each request, and names in it an instant and a
nonce. The request passes if the instant is close to the clock, the nonce is not in the nonce
cache, and the signature is that of a registered agent with the scope of the route. The nonce is
stored before anything about the sender is known.

Hashing, base64, the instant's format and the signature scheme are given as `Primitives`.
-/

namespace FerrumGate

open Expiring

/-! ## Configuration and requests -/

/-- What agent authentication reads of the server's configuration. -/
structure AgentConfig where
  agentClockSkewSecs : Int := 30
  nonceCacheTtlSecs : Nat := 0
  nonceCacheMaxEntries : Nat := 10000

/-- The external functions the check is built from. -/
structure Primitives where
  parseRfc3339 : String → Option Timestamp
  blake3Hex : List UInt8 → String
  base64Decode : String → Option (List UInt8)
  /-- Do these 32 bytes name a point of the curve? -/
  verifyingKey : List UInt8 → Bool
  verify : List UInt8 → String → List UInt8 → Bool

/-- A registered agent. -/
structure AgentRecord where
  agentId : String
  publicKey : String
  allowedScopes : List String
  revokedAt : Option Timestamp

/-- A request as it is sent: a header that is absent, or is not text, is `none`. -/
structure AgentRequest where
  agentId : Option String
  timestamp : Option String
  nonce : Option String
  bodyHash : Option String
  signature : Option String
  method : String
  path : String
  body : List UInt8
  deriving DecidableEq

inductive AgentAuthError where
  | unauthorized (message : String)
  | forbidden (message : String)
  deriving DecidableEq

/-! ## Scopes -/

/-- An arm of the route table. -/
structure RouteScope where
  method : String
  covers : String → Bool
  scope : String

/-- The arm of one path. -/
def exactly (method path scope : String) : RouteScope := ⟨method, (· == path), scope⟩

/-- The arm of the paths below a directory. -/
def below (method start scope : String) : RouteScope := ⟨method, (startsWith · start), scope⟩

/-- The arm of one action on the objects below a directory. -/
def action (method start tail scope : String) : RouteScope :=
  ⟨method, fun path => startsWith path start && endsWith path tail, scope⟩

/-- The arm of everything but one action. -/
def butAction (method start tail scope : String) : RouteScope :=
  ⟨method, fun path => startsWith path start && !endsWith path tail, scope⟩

/-- The arms of `required_scope_for_path`, in order. -/
def routeScopes : List RouteScope := [
  exactly "POST" "/v1/intents/compile" "intent:submit",
  exactly "GET" "/v1/intents" "intent:submit",
  action "POST" "/v1/proposals/" "/evaluate" "proposal:evaluate",
  exactly "POST" "/v1/capabilities/mint" "capability:mint",
  action "POST" "/v1/capabilities/" "/revoke" "capability:mint",
  exactly "POST" "/v1/executions/authorize" "execution:authorize",
  action "POST" "/v1/executions/" "/prepare" "execution:prepare",
  action "POST" "/v1/executions/" "/execute" "execution:execute",
  action "POST" "/v1/executions/" "/verify" "execution:verify",
  action "POST" "/v1/executions/" "/commit" "execution:commit",
  action "POST" "/v1/executions/" "/compensate" "execution:compensate",
  action "POST" "/v1/executions/" "/cancel" "execution:execute",
  action "POST" "/v1/executions/" "/evaluate-outcome" "execution:verify",
  below "GET" "/v1/executions/" "provenance:read",
  exactly "GET" "/v1/approvals" "approval:read",
  butAction "GET" "/v1/approvals/" "/resolve" "approval:read",
  action "POST" "/v1/approvals/" "/resolve" "approval:resolve",
  exactly "GET" "/v1/quarantines" "approval:read",
  butAction "GET" "/v1/quarantines/" "/resolve" "approval:read",
  action "POST" "/v1/quarantines/" "/resolve" "approval:resolve",
  exactly "POST" "/v1/policy-bundles" "policy:write",
  exactly "GET" "/v1/policy-bundles" "policy:read",
  action "GET" "/v1/policy-bundles/" "/versions" "policy:read",
  action "GET" "/v1/policy-bundles/" "/diff" "policy:read",
  action "POST" "/v1/policy-bundles/" "/rollback" "policy:write",
  exactly "POST" "/v1/policy/simulate" "policy:read",
  exactly "POST" "/v1/policy-bundles/simulate" "policy:read",
  below "GET" "/v1/policy-bundles/" "policy:read",
  action "PUT" "/v1/policy-bundles/" "/active" "policy:write",
  below "PUT" "/v1/policy-bundles/" "policy:write",
  below "DELETE" "/v1/policy-bundles/" "policy:write",
  exactly "POST" "/v1/provenance/query" "provenance:read",
  exactly "POST" "/v1/provenance/lineage" "provenance:read",
  below "GET" "/v1/provenance/lineage/" "provenance:read",
  exactly "POST" "/v1/provenance/ingest" "provenance:write",
  exactly "GET" "/v1/bridges" "provenance:read",
  action "GET" "/v1/bridges/" "/tools" "provenance:read",
  exactly "POST" "/v1/admin/tokens" "admin:tokens",
  exactly "GET" "/v1/admin/tokens" "admin:tokens",
  below "DELETE" "/v1/admin/tokens/" "admin:tokens",
  action "POST" "/v1/admin/tokens/" "/rotate" "admin:tokens",
  exactly "POST" "/v1/admin/agents" "admin:agents",
  exactly "GET" "/v1/admin/agents" "admin:agents",
  below "DELETE" "/v1/admin/agents/" "admin:agents",
  action "POST" "/v1/admin/agents/" "/mfa/enroll" "admin:mfa",
  action "POST" "/v1/admin/agents/" "/mfa/verify" "admin:mfa",
  action "POST" "/v1/admin/agents/" "/mfa/disable" "admin:mfa",
  action "POST" "/v1/admin/agents/" "/mfa/rotate" "admin:mfa",
  action "GET" "/v1/admin/agents/" "/mfa" "admin:mfa",
  ⟨"GET", fun path => startsWith path "/v1/admin/agents/" && containsText path "/mfa/" &&
    !endsWith path "/mfa", "admin:mfa"⟩,
  exactly "GET" "/v1/admin/lifecycle-outbox" "admin:lifecycle-outbox:read",
  below "GET" "/v1/admin/lifecycle-outbox/" "admin:lifecycle-outbox:read",
  ⟨"POST", fun path => startsWith path "/v1/admin/lifecycle-outbox/" &&
    (endsWith path "/retry" || endsWith path "/resolve"), "admin:lifecycle-outbox:write"⟩,
  exactly "GET" "/v1/admin/audit-logs" "admin:audit",
  exactly "GET" "/v1/admin/audit-logs/export" "admin:audit",
  exactly "GET" "/v1/admin/audit/verify" "admin:audit",
  exactly "GET" "/v1/admin/audit/merkle-verify" "admin:audit",
  exactly "GET" "/v1/admin/audit/merkle-roots" "admin:audit",
  exactly "POST" "/v1/admin/audit/checkpoints" "admin:audit",
  exactly "GET" "/v1/admin/audit/checkpoints" "admin:audit",
  action "GET" "/v1/admin/audit/checkpoints/" "/verify" "admin:audit"]

/-- **`required_scope_for_path`**: an unknown route needs the administrator's scope. -/
def requiredScopeForPath (method path : String) : Option String :=
  match routeScopes.find? fun route => route.method == method && route.covers path with
  | some route => some route.scope
  | none => some "admin:tokens"

/-! ## The check of one request -/

/-- The headers of a request that carries all of them. -/
structure AgentHeaders where
  agentId : String
  timestamp : String
  nonce : String
  bodyHash : String
  signature : String

def requireHeader (name : String) (value : Option String) : Except AgentAuthError String :=
  match value with
  | some value => .ok value
  | none => .error (.unauthorized s!"missing {name}")

def extractHeaders (request : AgentRequest) : Except AgentAuthError AgentHeaders := do
  let agentId ← requireHeader "X-Ferrum-Agent-Id" request.agentId
  let timestamp ← requireHeader "X-Ferrum-Timestamp" request.timestamp
  let nonce ← requireHeader "X-Ferrum-Nonce" request.nonce
  let bodyHash ← requireHeader "X-Ferrum-Body-Hash" request.bodyHash
  let signature ← requireHeader "X-Ferrum-Signature" request.signature
  return ⟨agentId, timestamp, nonce, bodyHash, signature⟩

/-- The configured skew, as a duration. -/
def AgentConfig.skew (config : AgentConfig) : Int := config.agentClockSkewSecs * 1000000000

/-- Is the instant within the skew of the clock, on either side? -/
def AgentConfig.inWindow (config : AgentConfig) (timestamp now : Timestamp) : Prop :=
  (now : Int) - config.skew ≤ timestamp ∧ (timestamp : Int) ≤ now + config.skew

instance (config : AgentConfig) (timestamp now : Timestamp) :
    Decidable (config.inWindow timestamp now) := by
  unfold AgentConfig.inWindow
  infer_instance

/-- How long a nonce is kept: as configured, or twice the skew but at least a minute. -/
def AgentConfig.nonceTtl (config : AgentConfig) : Timestamp :=
  if 0 < config.nonceCacheTtlSecs then seconds config.nonceCacheTtlSecs
  else seconds (max (config.agentClockSkewSecs * 2) 60).toNat

/-- The checks before the nonce cache is asked: the headers, the instant, the nonce's length. -/
def beforeNonce (primitives : Primitives) (config : AgentConfig) (now : Timestamp)
    (request : AgentRequest) : Except AgentAuthError AgentHeaders := do
  let headers ← extractHeaders request
  match primitives.parseRfc3339 headers.timestamp with
  | none => .error (.unauthorized "invalid timestamp format")
  | some timestamp =>
    if config.inWindow timestamp now then
      if headers.nonce.length ≤ 256 then return headers
      else .error (.unauthorized "nonce exceeds maximum length")
    else .error (.unauthorized "timestamp out of skew window")

/-- What an agent signs. -/
def canonicalPayload (headers : AgentHeaders) (method path : String) : String :=
  headers.agentId ++ ":" ++ headers.timestamp ++ ":" ++ headers.nonce ++ ":" ++
    headers.bodyHash ++ ":" ++ method ++ ":" ++ path

def computedBodyHash (primitives : Primitives) (body : List UInt8) : String :=
  if body.isEmpty then "null" else primitives.blake3Hex body

/-- Bytes of a given length behind a base64 text. -/
def decodeBytes (primitives : Primitives) (what text : String) (length : Nat) :
    Except AgentAuthError (List UInt8) :=
  match primitives.base64Decode text with
  | none => .error (.unauthorized s!"invalid {what} encoding")
  | some bytes =>
    if bytes.length = length then .ok bytes
    else .error (.unauthorized s!"invalid {what} length")

/-- How a request meets the server: the clock when its instant is checked and when its nonce is,
the iteration order of the cache, the registry at the lookup, and which of the reads fail. -/
structure Arrival where
  request : AgentRequest
  windowTime : Timestamp
  cacheTime : Timestamp
  order : String → Nat := fun _ => 0
  agents : List AgentRecord
  cacheFails : Bool := false
  bodyFails : Bool := false
  lookupFails : Bool := false

/-- The checks after the nonce has been stored: body, agent, signature and scope. -/
def afterNonce (primitives : Primitives) (arrival : Arrival) (headers : AgentHeaders) :
    Except AgentAuthError AuthActor := do
  let request := arrival.request
  if arrival.bodyFails || 10 * 1024 * 1024 < request.body.length then
    throw (.unauthorized "failed to read body")
  if computedBodyHash primitives request.body ≠ headers.bodyHash then
    throw (.unauthorized "body hash mismatch")
  if arrival.lookupFails then throw (.unauthorized "agent lookup failed")
  match arrival.agents.find? (·.agentId = headers.agentId) with
  | none => throw (.unauthorized "agent not found")
  | some agent =>
    if agent.revokedAt.isSome then throw (.unauthorized "agent revoked")
    let payload := canonicalPayload headers request.method request.path
    let signature ← decodeBytes primitives "signature" headers.signature 64
    let key ← decodeBytes primitives "public key" agent.publicKey 32
    if !primitives.verifyingKey key then throw (.unauthorized "invalid public key")
    if !primitives.verify key payload signature then
      throw (.unauthorized "signature verification failed")
    match requiredScopeForPath request.method request.path with
    | some required =>
      if agent.allowedScopes.any fun s => s == "*" || s == required then
        return ⟨headers.agentId, none⟩
      else throw (.forbidden s!"required scope {required}")
    | none => return ⟨headers.agentId, none⟩

abbrev NonceCache := Cache String

/-- **`verify_agent_request`**, and the nonce cache it leaves. -/
def verifyAgentRequest (primitives : Primitives) (config : AgentConfig) (arrival : Arrival)
    (cache : NonceCache) : Except AgentAuthError AuthActor × NonceCache :=
  match beforeNonce primitives config arrival.windowTime arrival.request with
  | .error e => (.error e, cache)
  | .ok headers =>
    if arrival.cacheFails then (.error (.unauthorized "nonce cache unavailable"), cache)
    else
      match cache.checkAndInsert arrival.order config.nonceCacheMaxEntries config.nonceTtl
        arrival.cacheTime headers.nonce with
      | (false, cache) => (.error (.unauthorized "replayed nonce"), cache)
      | (true, cache) => (afterNonce primitives arrival headers, cache)

end FerrumGate
