import FerrumGate.Store.Op

/-!
# Handlers, their errors and the owner guard

A governance handler answers or ends with an `ApiProblem` (`ferrum-gateway/src/problem.rs`); a
store routine made of several statements ends with a `StoreError`. `call`, `store` and `require`
are the three ways a handler uses what is below it: an operation whose failure it handles itself,
a store routine whose failure is an internal error, and a lookup whose miss is a problem of its
own. `AppState` holds what the handlers read of their configuration.
-/

namespace FerrumGate

open Interleave

inductive StatusCode where
  | ok | accepted | badRequest | forbidden | notFound | conflict | internalServerError
  | serviceUnavailable
  deriving DecidableEq

inductive ApiErrorCode where
  | validationError | notFound | policyDenied | approvalRequired | capabilityExpired
  | capabilityRevoked | integrityMismatch | conflict | internal | forbidden | mfaInvalid
  | mfaRequired | mfaLocked | misconfigured
  deriving DecidableEq

/-- `ApiProblem`: the status and the parts of the error envelope that are not fixed. -/
structure ApiProblem where
  status : StatusCode
  code : ApiErrorCode
  message : String
  deriving DecidableEq

namespace ApiProblem

def objectNotFound : ApiProblem := ⟨.notFound, .notFound, "object not found"⟩

def internal (message : String) : ApiProblem := ⟨.internalServerError, .internal, message⟩

def missing (message : String) : ApiProblem := ⟨.notFound, .notFound, message⟩

def conflict (message : String) : ApiProblem := ⟨.conflict, .conflict, message⟩

def integrityMismatch (message : String) : ApiProblem := ⟨.forbidden, .integrityMismatch, message⟩

def policyDenied (message : String) : ApiProblem := ⟨.forbidden, .policyDenied, message⟩

end ApiProblem

/-! ## Handlers -/

/-- A governance handler. -/
abbrev Handler (α : Type) := ExceptT ApiProblem (Prog Op Op.Result) α

/-- One operation. -/
def call (o : Op) : Handler o.Result := ExceptT.lift (perform o)

/-- A store routine whose error is an internal problem. -/
def store {α : Type} (x : StoreM α) : Handler α :=
  ExceptT.adapt (fun e => ApiProblem.internal e.text) x

/-- A lookup that has to find something. -/
def require {α : Type} (x : Gw (StoreResult (Option α))) (missing : ApiProblem) : Handler α := do
  match ← store (statement x) with
  | some a => pure a
  | none => throw missing

/-- Go on only when the condition holds. -/
def demand (c : Prop) [Decidable c] (problem : ApiProblem) : Handler Unit :=
  ofExcept (ensure c problem)

/-- A check with a reason, reported under the given status and code. -/
def demandOk (x : Except String Unit) (problem : String → ApiProblem) : Handler Unit :=
  ofExcept (x.mapError problem)

/-! ## Configuration -/

inductive AuthMode where
  | disabled | bearer | scoped | oidc | agent
  deriving DecidableEq

inductive TokenRole where
  | admin | operator | policyAuthor | auditor | agent | readOnly
  deriving DecidableEq

/-- The `Display` of a role, as the event of a resolved approval carries it. -/
def TokenRole.text : TokenRole → String
  | .admin => "admin"
  | .operator => "operator"
  | .policyAuthor => "policy_author"
  | .auditor => "auditor"
  | .agent => "agent"
  | .readOnly => "read_only"

structure AuthActor where
  actorId : String
  role : Option TokenRole

/-- What the handlers read of the server's configuration, and the checks on payloads, scopes,
digests and inferred actions, which are functions of their arguments alone. -/
structure AppState where
  authMode : AuthMode
  legacyObjectCompatAllowUntil : Option Timestamp
  haReconcilerStaleThresholdSecs : Nat
  haReconcilerBatchSize : Nat
  approvalTimeoutSeconds : Nat
  quarantineTimeoutSeconds : Nat
  approvalMfaRequired : Bool
  auditFailClosed : Bool
  validateArgumentConstraints : Json → List ArgumentConstraint → Except String Unit
  validateResourceBindingsSubsetOfScope :
    List ResourceBinding → List ResourceSelector → Except String Unit
  canonicalActionDigest : ActionProposal → String
  inferActionTypeAndAdapter : String → JsonMap → Except String (ActionType × String)
  /-- The number is the uuid a transaction target is named after. -/
  inferTargetFromScope : List ResourceSelector → ActionType → Nat → RollbackTarget

/-- **`enforce_object_owner_guard`**: bearer and disabled authentication pass; otherwise the actor
must be the owner, and an object without owner is open until the configured instant. -/
def enforceObjectOwnerGuard (actor : Option AuthActor) (owner : Option String) (mode : AuthMode)
    (allowUntil : Option Timestamp) (now : Timestamp) : Except ApiProblem Unit :=
  match mode with
  | .bearer | .disabled => .ok ()
  | _ =>
    match actor with
    | none => .error .objectNotFound
    | some actor =>
      match owner with
      | some owner => ensure (actor.actorId = owner) .objectNotFound
      | none =>
        match allowUntil with
        | some until_ => ensure (now < until_) .objectNotFound
        | none => .error .objectNotFound

/-- The owner guard of a handler, with the clock reading it takes. -/
def ownerGuard (state : AppState) (actor : Option AuthActor) (owner : Option String) :
    Handler Unit := do
  let now ← call .readClock
  ofExcept (enforceObjectOwnerGuard actor owner state.authMode
    state.legacyObjectCompatAllowUntil now)

end FerrumGate
