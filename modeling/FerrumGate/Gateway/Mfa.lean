import FerrumGate.Gateway.Problem
import FerrumGate.Store.Mfa

/-!
# Requests that are protected by a second factor

`ferrum-gateway/src/mfa.rs`, the endpoints of `admin/mfa.rs`, and the parts of `resolve_approval`
and `resolve_quarantine_hold` that check a factor. HOTP and the decryption of a secret are functions
of the environment; the audit entries and the otpauth uri are left out.

What the paths share is written once (`acceptCode`); what each one does before it differs: `verify`,
`approval` and `quarantine` look at the agent's lockout themselves, `disable` and `rotate` do not.
-/

namespace FerrumGate.Mfa

open Interleave

/-- What the requests take from elsewhere; `key` is the configured key, or why there is none. -/
structure MfaEnv where
  hotp : String → Nat → String
  decryptSecret : String → String → Option String
  blank : String → Bool
  key : Except String Unit
  policy : LockoutPolicy

/-- **`verify_totp_code_with_counter`**: the previous, the current and the next step of 30 seconds. -/
def verifyTotpCodeWithCounter (hotp : String → Nat → String) (secret code : String)
    (timestamp : Nat) : Option Nat :=
  let counter := timestamp / 30
  [(counter + (2 ^ 64 - 1)) % 2 ^ 64, counter, counter + 1].find? (hotp secret · = code)

/-- An `ApiProblem` with its `retry_after_seconds`. -/
structure MfaProblem extends ApiProblem where
  retryAfterSeconds : Option Nat := none
  deriving DecidableEq

abbrev MfaProg (α : Type) := Prog MfaOp MfaOp.Result α

abbrev MfaHandler (α : Type) := ExceptT MfaProblem (Prog MfaOp MfaOp.Result) α

def perform (o : MfaOp) : MfaProg o.Result := Prog.op o

def ask (o : MfaOp) : MfaHandler o.Result := ExceptT.lift (perform o)

def problem (status : StatusCode) (code : ApiErrorCode) (message : String) : MfaProblem :=
  { status, code, message }

def forbidden (code : ApiErrorCode) (message : String) : MfaProblem := problem .forbidden code message

def internal (message : String) : MfaProblem := problem .internalServerError .internal message

def notFound (message : String) : MfaProblem := problem .notFound .notFound message

/-- `mfa_locked_response`, `mfa_locked_problem` -/
def mfaLocked (retryAfterSecs : Nat) : MfaProblem :=
  { status := .forbidden, code := .mfaLocked
    message := "MFA is locked due to too many failed attempts"
    retryAfterSeconds := some retryAfterSecs }

/-- A statement whose error becomes a problem. -/
def orElse {α : Type} (problem : StoreError → MfaProblem) (x : Except StoreError α) :
    MfaHandler α :=
  ofExcept (x.mapError problem)

/-! ## Verification -/

inductive TotpVerifyResult where
  | success (counter : Nat)
  | locked (retryAfterSeconds : Nat)
  | invalid
  | internal

/-- The time left of a lock that is active, in whole seconds. -/
def retryAfter (lockedUntil : Option Timestamp) (now : Timestamp) : Option Nat :=
  (lockedUntil.filter (now < ·)).map fun expiry => (expiry - now) / seconds 1

/-- **`check_agent_mfa_lockout`**. -/
def checkAgentMfaLockout (agentId : String) : MfaProg (Except StoreError (Option Nat)) := do
  let reading ← perform (.getAgentLockout agentId)
  pure (reading.map fun (row, now) => retryAfter (lockOf row) now)

/-- `check_factor_lockout` -/
def checkFactorLockout (record : MfaCredentialRecord) : MfaProg (Option Nat) :=
  match record.lockedUntil with
  | none => pure none
  | some expiry => do
    let now ← perform .clock
    pure (retryAfter (some expiry) now)

section Verify

variable (env : MfaEnv) (agentId : String) (record : MfaCredentialRecord)

/-- `record_failed_attempt` of the store, with the row it reads back. -/
def recordFactorFailure : MfaProg (Except StoreError Bool) := do
  match ← perform (.recordFailedAttempt record.mfaFactorId env.policy.maxAttempts
      env.policy.durationSecs) with
  | .error e => pure (.error e)
  | .ok (false, _) => pure (.ok false)
  | .ok (true, now) => do
    let row ← perform (.getFactor record.mfaFactorId)
    pure (row.map fun row => (row.bind (·.lockedUntil)).any (now < ·))

/-- The time left for the factor, if this failure has locked it. -/
def factorRetry (locked : Bool) : MfaProg (Except StoreError (Option Nat)) :=
  if locked then do
    match ← perform (.getFactor record.mfaFactorId) with
    | .error e => pure (.error e)
    | .ok row =>
      let now ← perform .clock
      pure (.ok ((row.bind (·.lockedUntil)).map fun expiry => (expiry - now) / seconds 1))
  else pure (.ok none)

/-- What follows a code that is wrong. -/
def recordFailure : MfaProg TotpVerifyResult := do
  match ← perform (.recordAgentFailure agentId env.policy.maxAttempts env.policy.durationSecs) with
  | .error _ => pure .internal
  | .ok () =>
    match ← perform (.getAgentLockout agentId) with
    -- there is a row: it has just been written
    | .error _ | .ok (none, _) => pure .internal
    | .ok (some row, now) =>
      match ← recordFactorFailure env record with
      | .error _ => pure .internal
      | .ok factorLocked =>
        let later ← perform .clock
        let agentRetry := (row.lockedUntil.filter (now < ·)).map fun expiry =>
          (expiry - later) / seconds 1
        match ← factorRetry record factorLocked with
        | .error _ => pure .internal
        | .ok factorRetry =>
          match agentRetry, factorRetry with
          | some a, some f => pure (.locked (max a f))
          | some r, none | none, some r => pure (.locked r)
          | none, none => pure .invalid

/-- The code is compared with the secret of the factor. -/
def compareCode (code : String) : MfaProg TotpVerifyResult :=
  match env.decryptSecret record.encryptedSecret record.secretNonce with
  | none => pure .internal
  | some secret => do
    match ← perform (.compare agentId record.mfaFactorId secret code) with
    | some counter => pure (.success counter)
    | none => recordFailure env agentId record

/-- **`verify_totp_with_lockout`**. -/
def verifyTotpWithLockout (code : String) : MfaProg TotpVerifyResult := do
  match ← checkAgentMfaLockout agentId with
  | .error _ => pure .internal
  | .ok agentRetry =>
    if 0 < agentRetry.getD 0 then pure (.locked (agentRetry.getD 0))
    else
      match ← checkFactorLockout record with
      | some retry => pure (.locked retry)
      | none => compareCode env agentId record code

end Verify

/-- What the answers of a path look like: to a wrong code, and to a reset that failed. -/
structure Answers where
  invalid : MfaProblem
  reset : StoreError → MfaProblem

/-- Of the endpoints of `admin/mfa.rs`. -/
def adminAnswers : Answers :=
  ⟨forbidden .mfaInvalid "invalid TOTP code", fun _ => internal "MFA state update failed"⟩

/-- Of `resolve_approval` and `resolve_quarantine_hold`. -/
def resolveAnswers : Answers :=
  ⟨forbidden .mfaInvalid "MFA verification code is invalid", fun e => internal e.text⟩

/-- **A code is accepted**: it is verified, its counter is recorded as used, and only then the
lockouts are reset. -/
def acceptCode (env : MfaEnv) (answers : Answers) (agentId : String) (record : MfaCredentialRecord)
    (id : MfaFactorId) (code : String) : MfaHandler Unit := do
  match ← ExceptT.lift (verifyTotpWithLockout env agentId record code) with
  | .locked retry => throw (mfaLocked retry)
  | .invalid => throw answers.invalid
  | .internal => throw (internal "MFA verification failed")
  | .success counter =>
    match ← ask (.recordUse id counter) with
    | .error _ => throw (internal "MFA state update failed")
    | .ok false => throw answers.invalid
    | .ok true =>
      let agent ← ask (.resetAgentLockout agentId)
      let _ ← orElse answers.reset agent
      let factor ← ask (.resetLockout record.mfaFactorId)
      let _ ← orElse answers.reset factor

/-- The check with which a path refuses a locked agent before it looks at a factor. -/
def refuseLocked (problem : StoreError → MfaProblem) (agentId : String) : MfaHandler Unit := do
  match ← ExceptT.lift (checkAgentMfaLockout agentId) with
  | .error e => throw (problem e)
  | .ok (some retry) => throw (mfaLocked retry)
  | .ok none => pure ()

/-! ## Endpoints -/

section Endpoints

variable (env : MfaEnv)

/-- `resolve_mfa_key` -/
def resolveMfaKey : MfaHandler Unit := ofExcept (env.key.mapError (forbidden .misconfigured))

/-- **`verify_mfa`**: the newest pending factor of the agent is activated. -/
def verifyMfa (agentId code : String) : MfaHandler Unit := do
  resolveMfaKey env
  let records ← orElse (fun _ => internal "failed to list MFA factors")
    (← ask (.listByAgent agentId))
  match records.find? (·.isPending) with
  | none => throw (notFound "no pending MFA factor found for agent")
  | some record =>
    refuseLocked (fun _ => internal "MFA lockout check failed") agentId
    acceptCode env adminAnswers agentId record record.mfaFactorId code
    let activated ← orElse (fun _ => internal "failed to activate MFA factor")
      (← ask (.activate record.mfaFactorId))
    if activated then pure ()
    else throw (problem .conflict .conflict "factor was not pending or already activated")

/-- **`verify_or_breakglass`**; `breakglass` is whether the actor has the scope for it. -/
def verifyOrBreakglass (active : MfaCredentialRecord) (code reason : Option String)
    (breakglass : Bool) : MfaHandler Unit :=
  match code with
  | some code => do
    resolveMfaKey env
    acceptCode env adminAnswers active.agentId active active.mfaFactorId code
  | none =>
    if breakglass = false then
      throw (forbidden .mfaRequired "MFA code required or break-glass scope needed")
    else if env.blank (reason.getD "") then
      throw (problem .badRequest .validationError "break-glass reason is required")
    else pure ()

/-- **`disable_mfa`**. -/
def disableMfa (agentId : String) (code reason : Option String) (breakglass : Bool) :
    MfaHandler Unit := do
  match ← orElse (fun _ => internal "failed to retrieve active MFA factor")
      (← ask (.getActiveForAgent agentId)) with
  | none => throw (notFound "no active MFA factor found for agent")
  | some active =>
    verifyOrBreakglass env active code reason breakglass
    let revoked ← orElse (fun _ => internal "failed to disable MFA factor")
      (← ask (.revoke active.mfaFactorId))
    if revoked then pure () else throw (notFound "factor not found or already revoked")

/-- The last part of `rotate_mfa`: the new pending factor is stored. -/
def newPendingFactor (agentId : String) : MfaHandler Unit := do
  match ← ask (.newFactor agentId) with
  | none => throw (internal "failed to encrypt MFA secret")
  | some record =>
    orElse (fun _ => internal "failed to create new MFA factor") (← ask (.insertFactor record))

/-- **`rotate_mfa`**: the active factor, if there is one, gives way to a new pending one. -/
def rotateMfa (agentId : String) (code reason : Option String) (breakglass : Bool) :
    MfaHandler Unit := do
  resolveMfaKey env
  match ← orElse (fun _ => internal "failed to retrieve active MFA factor")
      (← ask (.getActiveForAgent agentId)) with
  | none => pure ()
  | some active =>
    verifyOrBreakglass env active code reason breakglass
    let _ ← orElse (fun _ => internal "failed to revoke existing MFA factor")
      (← ask (.revoke active.mfaFactorId))
  newPendingFactor agentId

/-- `MfaFactor` of a resolve request. -/
structure MfaFactorRef where
  id : MfaFactorId
  code : Option String

def codeMissing : MfaProblem := forbidden .mfaInvalid "MFA verification code is missing"

/-- The factor of a resolve request, if it is an active one of the actor. -/
def ownFactor (actorId : String) (id : MfaFactorId) : MfaHandler MfaCredentialRecord := do
  match ← orElse (fun e => internal e.text) (← ask (.getFactor id)) with
  | none => throw (forbidden .mfaInvalid "MFA factor not found")
  | some record =>
    if record.agentId ≠ actorId then
      throw (forbidden .mfaInvalid "MFA factor does not belong to the actor")
    else if record.status ≠ .active then
      throw (forbidden .mfaInvalid "MFA factor is not active")
    else pure record

/-- **The factor check of `resolve_approval`**: a missing code is found last. -/
def approvalFactor (actorId : String) : Option MfaFactorRef → MfaHandler Unit
  | none => throw (forbidden .mfaRequired "MFA factor is required for approval resolve")
  | some factor => do
    resolveMfaKey env
    refuseLocked (fun e => internal e.text) actorId
    let record ← ownFactor actorId factor.id
    match factor.code with
    | none => throw codeMissing
    | some code => acceptCode env resolveAnswers record.agentId record factor.id code

/-- **`verify_mfa_factor`** of a quarantine: a missing code is found first. -/
def quarantineFactor (actorId : String) : Option MfaFactorRef → MfaHandler Unit
  | none => throw (forbidden .mfaRequired "MFA factor is required for quarantine resolve")
  | some factor => do
    resolveMfaKey env
    match factor.code with
    | none => throw codeMissing
    | some code =>
      refuseLocked (fun e => internal e.text) actorId
      let record ← ownFactor actorId factor.id
      acceptCode env resolveAnswers record.agentId record factor.id code

/-- The requests, and what each of them presents. -/
inductive MfaRequest where
  | verify (agentId code : String)
  | disable (agentId : String) (code reason : Option String) (breakglass : Bool)
  | rotate (agentId : String) (code reason : Option String) (breakglass : Bool)
  | approval (actorId : String) (factor : Option MfaFactorRef)
  | quarantine (actorId : String) (factor : Option MfaFactorRef)

def MfaRequest.handler : MfaRequest → MfaHandler Unit
  | .verify agentId code => verifyMfa env agentId code
  | .disable agentId code reason breakglass => disableMfa env agentId code reason breakglass
  | .rotate agentId code reason breakglass => rotateMfa env agentId code reason breakglass
  | .approval actorId factor => approvalFactor env actorId factor
  | .quarantine actorId factor => quarantineFactor env actorId factor

/-- The step of an operation in this environment. -/
def MfaEnv.exec : (o : MfaOp) → MfaInput → MfaStore → o.Result × MfaStore :=
  Mfa.exec (verifyTotpCodeWithCounter env.hotp)

/-- One process for each request. -/
def MfaEnv.start (requests : Nat → MfaRequest) (w : MfaStore) :
    Config MfaOp MfaOp.Result MfaStore (Except MfaProblem Unit) :=
  .start w fun p => ((requests p).handler env).run

end Endpoints

end FerrumGate.Mfa
