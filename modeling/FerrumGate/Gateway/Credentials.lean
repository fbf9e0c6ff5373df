import FerrumGate.Gateway.AgentAuth

/-!
# Credentials and the requests that issue them

Scoped tokens and registered agents: the statements of their tables
(`ferrum-store/src/sqlite/{tokens,agents}.rs`), the part of `auth_middleware` that establishes the
caller and its scopes (`auth.rs`), and the handlers that create, rotate and revoke tokens and
register agents (`ferrum-gateway/src/admin`). Every statement, clock reading and random draw is one
operation, so that requests interleave between any two of them.

A rotation reads the token, checks it, revokes it without looking at the outcome, and inserts the
successor.
-/

namespace FerrumGate.Admin

open Interleave

/-! ## Credentials -/

/-- `TokenRole::default_scopes`. -/
def defaultScopes : TokenRole → List String
  | .admin => ["*"]
  | .operator =>
    ["approval:read", "approval:resolve", "admin:lifecycle-outbox:read",
      "admin:lifecycle-outbox:write", "provenance:read", "provenance:write", "policy:read",
      "execution:verify", "execution:commit", "backup:run"]
  | .policyAuthor => ["policy:read", "policy:write", "provenance:read"]
  | .auditor => ["provenance:read"]
  | .agent =>
    ["intent:submit", "proposal:evaluate", "capability:mint", "execution:authorize",
      "execution:prepare", "execution:execute", "execution:verify", "execution:compensate",
      "provenance:write"]
  | .readOnly => ["policy:read", "provenance:read"]

/-- A row of `scoped_tokens`. -/
structure ScopedToken where
  tokenId : String
  actorId : String
  role : TokenRole
  scopes : List String
  expiresAt : Timestamp
  revokedAt : Option Timestamp
  revokedReason : Option String
  rotatedFrom : Option String
  tokenLookupHash : String
  tokenHash : String
  tokenSalt : String
  deriving DecidableEq

/-- A row of `agent_registry`. -/
structure AgentRow extends AgentRecord where
  keyFingerprint : String

/-- An `AuthActor` with its scopes. -/
structure ScopedActor extends AuthActor where
  scopes : List String

/-- Is the scope among these, or the wildcard? -/
def holds (scopes : List String) (scope : String) : Bool :=
  scopes.any fun s => s == "*" || s == scope

/-- `AuthActor::has_scope`. -/
def ScopedActor.hasScope (actor : ScopedActor) (scope : String) : Bool := holds actor.scopes scope

def ScopedActor.wildcard (actor : ScopedActor) : Bool := actor.scopes.any (· == "*")

/-- Hashes, base64 and fingerprints. -/
structure TokenPrimitives where
  hashTokenValue : String → String
  hashTokenWithSalt : String → String → String
  base64Decode : String → Option (List UInt8)
  fingerprint : List UInt8 → String

/-! ## The store -/

structure CredentialStore where
  tokens : List ScopedToken
  agents : List AgentRow

/-- What a request does besides computing. -/
inductive AdminOp where
  | readClock
  /-- A random text. -/
  | draw
  | getTokenByLookupHash (lookupHash : String)
  | getToken (tokenId : String)
  /-- `UPDATE … SET revoked_at … WHERE token_id = … AND revoked_at IS NULL` -/
  | revokeToken (tokenId : String) (reason : Option String) (now : Timestamp)
  | insertToken (token : ScopedToken)
  | getAgent (agentId : String)
  | getAgentByFingerprint (fingerprint : String)
  | insertAgent (agent : AgentRow)
  | appendAudit

@[reducible] def AdminOp.Result : AdminOp → Type
  | .readClock => Timestamp
  | .draw => String
  | .getTokenByLookupHash _ => Except StoreError (Option ScopedToken)
  | .getToken _ => Except StoreError (Option ScopedToken)
  | .revokeToken _ _ _ => Except StoreError Bool
  | .insertToken _ => Except StoreError Unit
  | .getAgent _ => Except StoreError (Option AgentRow)
  | .getAgentByFingerprint _ => Except StoreError (Option AgentRow)
  | .insertAgent _ => Except StoreError Unit
  | .appendAudit => Except StoreError Unit

/-- What the environment supplies to an operation. -/
structure AdminInput where
  storeFails : Bool := false
  clock : Timestamp := 0
  drawn : String := ""

/-- A read that the store may fail. -/
def readWith {α : Type} (i : AdminInput) (a : α) : Except StoreError α :=
  if i.storeFails then .error .database else .ok a

/-- Rows the revocation changes. -/
def revocable (tokenId : String) (token : ScopedToken) : Bool :=
  token.tokenId == tokenId && token.revokedAt.isNone

def revoke (tokenId : String) (reason : Option String) (now : Timestamp) (token : ScopedToken) :
    ScopedToken :=
  if revocable tokenId token then
    { token with revokedAt := some now, revokedReason := reason }
  else token

/-- One operation on the store. Ids and fingerprints are unique. -/
def execAdmin : (o : AdminOp) → AdminInput → CredentialStore → o.Result × CredentialStore
  | .readClock, i, w => (i.clock, w)
  | .draw, i, w => (i.drawn, w)
  | .getTokenByLookupHash hash, i, w =>
    (readWith i (w.tokens.find? fun token => token.tokenLookupHash == hash), w)
  | .getToken tokenId, i, w =>
    (readWith i (w.tokens.find? fun token => token.tokenId == tokenId), w)
  | .revokeToken tokenId reason now, i, w =>
    if i.storeFails then (.error .database, w)
    else
      (.ok (w.tokens.any (revocable tokenId)),
        { w with tokens := w.tokens.map (revoke tokenId reason now) })
  | .insertToken token, i, w =>
    if i.storeFails || w.tokens.any (fun t => t.tokenId == token.tokenId) then
      (.error .database, w)
    else (.ok (), { w with tokens := w.tokens ++ [token] })
  | .getAgent agentId, i, w => (readWith i (w.agents.find? fun a => a.agentId == agentId), w)
  | .getAgentByFingerprint fingerprint, i, w =>
    (readWith i (w.agents.find? fun a => a.keyFingerprint == fingerprint), w)
  | .insertAgent agent, i, w =>
    if i.storeFails || w.agents.any (fun a => a.agentId == agent.agentId ||
        a.keyFingerprint == agent.keyFingerprint) then
      (.error .database, w)
    else (.ok (), { w with agents := w.agents ++ [agent] })
  | .appendAudit, i, w => (readWith i (), w)

/-! ## Requests -/

/-- Why a request ends. -/
inductive Refusal where
  | unauthorized (message : String)
  | forbidden (message : String)
  | problem (problem : ApiProblem)
  deriving DecidableEq

abbrev AdminM (α : Type) := ExceptT Refusal (Prog AdminOp AdminOp.Result) α

def perform (o : AdminOp) : AdminM o.Result := ExceptT.lift (Prog.op o)

/-- A statement whose failure ends the request. -/
def attemptOr {α : Type} (refusal : Refusal) (result : Except StoreError α) : AdminM α :=
  ofExcept (result.mapError fun _ => refusal)

/-- Go on only when the condition holds. -/
def insist (condition : Bool) (refusal : Refusal) : AdminM Unit :=
  ofExcept (if condition then .ok () else .error refusal)

/-- A lookup that has to find something. -/
def found {α : Type} (refusal : Refusal) (result : Option α) : AdminM α :=
  ofExcept (result.elim (.error refusal) .ok)

def refuse (status : StatusCode) (code : ApiErrorCode) (message : String) : Refusal :=
  .problem ⟨status, code, message⟩

/-- What the caller presents: a scoped token, an agent's signature, an identity that
`validate_oidc_token` has accepted, or nothing that carries an identity. -/
inductive Presented where
  | token (tokenValue : String)
  | agent (agentId : String) (signed : Bool)
  | oidc (actor : ScopedActor)
  | anonymous

/-- The part of `auth_middleware` for scoped tokens. -/
def authenticateScoped (primitives : TokenPrimitives) (tokenValue : String)
    (required : Option String) : AdminM ScopedActor := do
  let result ← perform (.getTokenByLookupHash (primitives.hashTokenValue tokenValue))
  let row ← attemptOr (.unauthorized "token lookup failed") result
  let token ← found (.unauthorized "invalid scoped token") row
  insist (primitives.hashTokenWithSalt tokenValue token.tokenSalt == token.tokenHash)
    (.unauthorized "invalid scoped token")
  insist token.revokedAt.isNone (.unauthorized "token revoked")
  let now ← perform .readClock
  insist (decide (now ≤ token.expiresAt)) (.unauthorized "token expired")
  insist (required.all (holds token.scopes))
    (.forbidden ("required scope " ++ required.getD ""))
  return { actorId := token.actorId, role := some token.role, scopes := token.scopes }

/-- The part of `verify_agent_request` that reads the registry; whether the signature and the other
headers pass is the caller's `signed`. -/
def authenticateAgent (agentId : String) (signed : Bool) (required : Option String) :
    AdminM ScopedActor := do
  let result ← perform (.getAgent agentId)
  let row ← attemptOr (.unauthorized "agent lookup failed") result
  let agent ← found (.unauthorized "agent not found") row
  insist agent.revokedAt.isNone (.unauthorized "agent revoked")
  insist signed (.unauthorized "signature verification failed")
  insist (required.all (holds agent.allowedScopes))
    (.forbidden ("required scope " ++ required.getD ""))
  return { actorId := agentId, role := none, scopes := agent.allowedScopes }

/-- The caller, if it has an identity. -/
def authenticate (primitives : TokenPrimitives) (method path : String) :
    Presented → AdminM (Option ScopedActor)
  | .token tokenValue => do
    let actor ← authenticateScoped primitives tokenValue (requiredScopeForPath method path)
    return some actor
  | .agent agentId signed => do
    let actor ← authenticateAgent agentId signed (requiredScopeForPath method path)
    return some actor
  | .oidc actor => do
    insist ((requiredScopeForPath method path).all actor.hasScope)
      (.forbidden ("required scope " ++ (requiredScopeForPath method path).getD ""))
    return some actor
  | .anonymous => return none

/-! ## Issuing -/

/-- `check_scope_attenuation`. -/
def checkScopeAttenuation (issuer : ScopedActor) (requested : List String) :
    Except Refusal Unit :=
  if issuer.wildcard then .ok ()
  else if requested.any (· == "*") then
    .error (refuse .forbidden .forbidden "wildcard scope requires issuer wildcard authority")
  else
    match requested.find? fun scope => !issuer.hasScope scope with
    | some scope =>
      .error (refuse .forbidden .forbidden
        ("requested scope '" ++ scope ++ "' exceeds issuer scopes"))
    | none => .ok ()

/-- Ninety days. -/
def maxTtl : Timestamp := seconds (90 * 24 * 3600)

def establish (issuer : Option ScopedActor) : AdminM ScopedActor :=
  found (refuse .forbidden .forbidden "caller identity and scopes could not be established") issuer

/-- A new token with fresh values, stored and audited. -/
def issueToken (primitives : TokenPrimitives) (auditFailClosed : Bool) (failed : String)
    (actorId : String) (role : TokenRole) (scopes : List String) (expiresAt : Timestamp)
    (rotatedFrom : Option String) : AdminM ScopedToken := do
  let tokenValue ← perform .draw
  let tokenSalt ← perform .draw
  let tokenId ← perform .draw
  let token : ScopedToken := {
    tokenId := "tok_" ++ tokenId
    actorId, role, scopes, expiresAt, rotatedFrom
    revokedAt := none
    revokedReason := none
    tokenLookupHash := primitives.hashTokenValue tokenValue
    tokenHash := primitives.hashTokenWithSalt tokenValue tokenSalt
    tokenSalt }
  let inserted ← perform (.insertToken token)
  attemptOr (refuse .internalServerError .internal failed) inserted
  let audited ← perform .appendAudit
  insist (audited.isOk || !auditFailClosed) (refuse .serviceUnavailable .internal
    "audit append failed: action blocked by fail-closed policy")
  return token

structure CreateTokenRequest where
  actorId : String
  role : TokenRole
  scopes : Option (List String)
  expiresAt : Timestamp

/-- `create_token`. -/
def createToken (primitives : TokenPrimitives) (auditFailClosed : Bool)
    (issuer : Option ScopedActor) (req : CreateTokenRequest) : AdminM ScopedToken := do
  let now ← perform .readClock
  insist (decide (req.expiresAt ≤ now + maxTtl))
    (refuse .badRequest .validationError "expires_at exceeds maximum TTL of 90 days")
  let issuer ← establish issuer
  insist (req.role != .admin || issuer.wildcard) (refuse .forbidden .forbidden
    "Admin role issuance requires issuer wildcard authority")
  let scopes := req.scopes.getD (defaultScopes req.role)
  ofExcept (checkScopeAttenuation issuer scopes)
  issueToken primitives auditFailClosed "failed to create token" req.actorId req.role scopes
    req.expiresAt none

structure RotateTokenRequest where
  expiresAt : Option Timestamp
  reason : Option String

/-- The expiry of a rotated token: as requested and at most ninety days away, or ninety days. -/
def rotatedExpiry (requested : Option Timestamp) : AdminM Timestamp :=
  match requested with
  | none => do
    let now ← perform .readClock
    return now + maxTtl
  | some expiresAt => do
    let now ← perform .readClock
    insist (decide (expiresAt ≤ now + maxTtl))
      (refuse .badRequest .validationError "expires_at exceeds maximum TTL of 90 days")
    return expiresAt

/-- `revoke` of the repository, with its own clock reading. -/
def revokeStored (tokenId : String) (reason : Option String) : AdminM (Except StoreError Bool) := do
  let now ← perform .readClock
  perform (.revokeToken tokenId reason now)

/-- `rotate_token`. -/
def rotateToken (primitives : TokenPrimitives) (auditFailClosed : Bool)
    (issuer : Option ScopedActor) (tokenId : String) (req : RotateTokenRequest) :
    AdminM ScopedToken := do
  let result ← perform (.getToken tokenId)
  let row ← attemptOr (refuse .internalServerError .internal "failed to rotate token") result
  let old ← found (refuse .notFound .notFound "token not found") row
  let now ← perform .readClock
  insist (old.revokedAt.isNone && decide (now ≤ old.expiresAt))
    (refuse .conflict .validationError "token is already revoked or expired")
  let expiresAt ← rotatedExpiry req.expiresAt
  let issuer ← establish issuer
  insist (old.role != .admin || issuer.wildcard) (refuse .forbidden .forbidden
    "Admin role token rotation requires issuer wildcard authority")
  ofExcept (checkScopeAttenuation issuer old.scopes)
  -- `let _ = …`: neither an error nor a row already revoked stops the rotation
  let _ ← revokeStored tokenId req.reason
  issueToken primitives auditFailClosed "failed to rotate token" old.actorId old.role old.scopes
    expiresAt (some tokenId)

/-- `revoke_token`. -/
def revokeToken (auditFailClosed : Bool) (tokenId : String) (reason : Option String) :
    AdminM Unit := do
  let result ← revokeStored tokenId reason
  let changed ← attemptOr (refuse .internalServerError .internal "failed to revoke token") result
  insist changed (refuse .notFound .notFound "token not found or already revoked")
  let audited ← perform .appendAudit
  insist (audited.isOk || !auditFailClosed) (refuse .serviceUnavailable .internal
    "audit append failed: action blocked by fail-closed policy")

structure RegisterAgentRequest where
  agentId : String
  publicKey : String
  scopes : Option (List String)

/-- The scopes of an agent that is registered without any. -/
def defaultAgentScopes : List String :=
  ["intent:submit", "proposal:evaluate", "capability:mint", "execution:authorize",
    "execution:prepare", "execution:execute", "execution:verify", "execution:compensate"]

/-- `create_agent`. -/
def createAgent (primitives : TokenPrimitives) (auditFailClosed : Bool)
    (issuer : Option ScopedActor) (req : RegisterAgentRequest) : AdminM AgentRow := do
  let bytes ← found (refuse .badRequest .validationError
    "invalid public_key: must be valid base64") (primitives.base64Decode req.publicKey)
  insist (bytes.length == 32)
    (refuse .badRequest .validationError "invalid public_key: must decode to 32 bytes")
  let fingerprint := primitives.fingerprint bytes
  let allowedScopes := req.scopes.getD defaultAgentScopes
  let issuer ← establish issuer
  ofExcept (checkScopeAttenuation issuer allowedScopes)
  let known ← perform (.getAgent req.agentId)
  let known ← attemptOr (refuse .internalServerError .internal "failed to register agent") known
  insist known.isNone
    (refuse .conflict .conflict ("agent_id '" ++ req.agentId ++ "' already exists"))
  let sameKey ← perform (.getAgentByFingerprint fingerprint)
  let sameKey ← attemptOr (refuse .internalServerError .internal "failed to register agent") sameKey
  insist sameKey.isNone (refuse .conflict .conflict
    ("public_key already registered for agent '" ++ (sameKey.map (·.agentId)).getD "" ++ "'"))
  let agent : AgentRow := {
    agentId := req.agentId
    publicKey := req.publicKey
    allowedScopes
    revokedAt := none
    keyFingerprint := fingerprint }
  let inserted ← perform (.insertAgent agent)
  attemptOr (refuse .internalServerError .internal "failed to register agent") inserted
  let audited ← perform .appendAudit
  insist (audited.isOk || !auditFailClosed) (refuse .serviceUnavailable .internal
    "audit append failed: action blocked by fail-closed policy")
  return agent

/-! ## The system -/

/-- A request to one of the four endpoints. -/
inductive AdminRequest where
  | create (req : CreateTokenRequest)
  | rotate (tokenId : String) (req : RotateTokenRequest)
  | revoke (tokenId : String) (reason : Option String)
  | register (req : RegisterAgentRequest)

/-- The route a request comes in on. -/
def AdminRequest.route : AdminRequest → String × String
  | .create _ => ("POST", "/v1/admin/tokens")
  | .rotate tokenId _ => ("POST", "/v1/admin/tokens/" ++ tokenId ++ "/rotate")
  | .revoke tokenId _ => ("DELETE", "/v1/admin/tokens/" ++ tokenId)
  | .register _ => ("POST", "/v1/admin/agents")

/-- The handler behind the route; what it answers is left out but for its error. -/
def handle (primitives : TokenPrimitives) (auditFailClosed : Bool) (issuer : Option ScopedActor) :
    AdminRequest → AdminM Unit
  | .create req => do
    let _ ← createToken primitives auditFailClosed issuer req
    return ()
  | .rotate tokenId req => do
    let _ ← rotateToken primitives auditFailClosed issuer tokenId req
    return ()
  | .revoke tokenId reason => revokeToken auditFailClosed tokenId reason
  | .register req => do
    let _ ← createAgent primitives auditFailClosed issuer req
    return ()

/-- The middleware and the handler. -/
def serve (primitives : TokenPrimitives) (auditFailClosed : Bool) (presented : Presented)
    (request : AdminRequest) : Prog AdminOp AdminOp.Result (Except Refusal Unit) :=
  ExceptT.run do
    let issuer ← authenticate primitives request.route.1 request.route.2 presented
    handle primitives auditFailClosed issuer request

/-- A server with one request for every process. -/
structure AdminSystem where
  primitives : TokenPrimitives
  auditFailClosed : Bool
  presented : Nat → Presented
  requests : Nat → AdminRequest

def AdminSystem.start (S : AdminSystem) (w : CredentialStore) :
    Config AdminOp AdminOp.Result CredentialStore (Except Refusal Unit) :=
  Config.start w fun p => serve S.primitives S.auditFailClosed (S.presented p) (S.requests p)

end FerrumGate.Admin
