import FerrumGate.Interleave.Pool
import FerrumGate.Store.World
import Mathlib.Algebra.Group.Nat.Defs

/-!
# The store of MFA factors and lockouts

`SqliteMfaCredentialRepo` (`ferrum-store/src/sqlite/mfa_credentials.rs`): the factors of the agents,
one lockout row for an agent, and the statements over them. A transaction is one statement here.
Times are in nanoseconds.
-/

namespace FerrumGate.Mfa

open Interleave

/-! ## Rows -/

structure MfaFactorId where
  uuid : Nat
  deriving DecidableEq

inductive MfaFactorStatus where
  | active | inactive | pending
  deriving DecidableEq

structure MfaCredentialRecord where
  mfaFactorId : MfaFactorId
  agentId : String
  status : MfaFactorStatus
  encryptedSecret : String
  secretNonce : String
  createdAt : Timestamp
  verifiedAt : Option Timestamp
  lastUsedCounter : Option Nat
  revokedAt : Option Timestamp
  failedAttempts : Nat
  lockedUntil : Option Timestamp
  lockoutCount : Nat
  deriving DecidableEq

instance : Keyed MfaCredentialRecord MfaFactorId := ⟨MfaCredentialRecord.mfaFactorId⟩

structure MfaAgentLockoutRecord where
  agentId : String
  failedAttempts : Nat
  lockedUntil : Option Timestamp
  lockoutCount : Nat
  deriving DecidableEq

instance : Keyed MfaAgentLockoutRecord String := ⟨MfaAgentLockoutRecord.agentId⟩

structure MfaStore where
  factors : List MfaCredentialRecord
  lockouts : List MfaAgentLockoutRecord
  deriving DecidableEq

/-- The end of a lock that is set now. -/
def lockEnd (now : Timestamp) (durationSecs : Nat) : Timestamp := now + seconds durationSecs

theorem lt_lockEnd (now : Timestamp) {durationSecs : Nat} (h : 0 < durationSecs) :
    now < lockEnd now durationSecs :=
  Nat.lt_add_of_pos_right (Nat.mul_pos h (by decide))

theorem lockEnd_le {s t : Timestamp} (h : s ≤ t) (durationSecs : Nat) :
    lockEnd s durationSecs ≤ lockEnd t durationSecs :=
  Nat.add_le_add_right h _

/-- `status = 'Active' AND revoked_at IS NULL` -/
def MfaCredentialRecord.isActive (r : MfaCredentialRecord) : Bool :=
  r.status = .active ∧ r.revokedAt = none

/-- `status = 'Pending' AND revoked_at IS NULL` -/
def MfaCredentialRecord.isPending (r : MfaCredentialRecord) : Bool :=
  r.status = .pending ∧ r.revokedAt = none

/-- `created_at DESC` -/
def Newer (r r' : MfaCredentialRecord) : Prop := r'.createdAt ≤ r.createdAt

instance : DecidableRel Newer := fun _ _ => inferInstanceAs (Decidable (_ ≤ _))

/-- `UPDATE … WHERE p`: whether a row was affected, and the rows. -/
def update (p : MfaCredentialRecord → Bool) (f : MfaCredentialRecord → MfaCredentialRecord)
    (rows : List MfaCredentialRecord) : Bool × List MfaCredentialRecord :=
  (rows.any p, rows.map fun r => if p r then f r else r)

/-! ## Factors -/

/-- **`activate`**: the other active factors of the agent are revoked, then the factor itself is
made active if it is pending. -/
def activate (id : MfaFactorId) (now : Timestamp) (rows : List MfaCredentialRecord) :
    Bool × List MfaCredentialRecord :=
  let agent := (Rows.find rows id).map (·.agentId)
  let others := update (fun r => some r.agentId = agent ∧ r.mfaFactorId ≠ id ∧ r.isActive)
    (fun r => { r with status := .inactive, revokedAt := some now }) rows
  update (fun r => r.mfaFactorId = id ∧ r.isPending)
    (fun r => { r with status := .active, verifiedAt := some now }) others.2

/-- `record_use`: the counter is set only if it is higher than the last one. -/
def recordUse (id : MfaFactorId) (counter : Nat) (rows : List MfaCredentialRecord) :
    Bool × List MfaCredentialRecord :=
  update (fun r => r.mfaFactorId = id ∧ ∀ last ∈ r.lastUsedCounter, last < counter)
    (fun r => { r with lastUsedCounter := some counter }) rows

/-- The statement of `record_failed_attempt`. -/
def recordFailedAttempt (id : MfaFactorId) (maxAttempts durationSecs : Nat) (now : Timestamp)
    (rows : List MfaCredentialRecord) : Bool × List MfaCredentialRecord :=
  update (fun r => r.mfaFactorId = id) (fun r =>
    if maxAttempts ≤ r.failedAttempts + 1 then
      { r with
        failedAttempts := r.failedAttempts + 1, lockoutCount := r.lockoutCount + 1
        lockedUntil := some (lockEnd now durationSecs) }
    else { r with failedAttempts := r.failedAttempts + 1 }) rows

/-- `reset_lockout` -/
def resetLockout (id : MfaFactorId) (rows : List MfaCredentialRecord) :
    Bool × List MfaCredentialRecord :=
  update (fun r => r.mfaFactorId = id)
    (fun r => { r with failedAttempts := 0, lockedUntil := none }) rows

/-- `revoke` -/
def revoke (id : MfaFactorId) (now : Timestamp) (rows : List MfaCredentialRecord) :
    Bool × List MfaCredentialRecord :=
  update (fun r => r.mfaFactorId = id ∧ r.revokedAt = none)
    (fun r => { r with status := .inactive, revokedAt := some now }) rows

/-! ## Lockouts of agents -/

/-- The end of the lock, if there is one. -/
def lockOf (row : Option MfaAgentLockoutRecord) : Option Timestamp := row.bind (·.lockedUntil)

@[simp] theorem lockOf_none : lockOf none = none := rfl

@[simp] theorem lockOf_some (row : MfaAgentLockoutRecord) : lockOf (some row) = row.lockedUntil := rfl

/-- The row of an agent is locked at a time. -/
def lockedAt (row : Option MfaAgentLockoutRecord) (t : Timestamp) : Bool := (lockOf row).any (t < ·)

theorem lockedAt_iff {row : Option MfaAgentLockoutRecord} {t : Timestamp} :
    lockedAt row t = true ↔ ∃ expiry, lockOf row = some expiry ∧ t < expiry := by
  cases h : lockOf row <;> simp [lockedAt, h]

/-- The row with so many failures, while the agent is not locked. -/
def counted (agentId : String) (maxAttempts durationSecs : Nat) (now : Timestamp)
    (failed lockoutCount : Nat) : MfaAgentLockoutRecord :=
  if maxAttempts ≤ failed then ⟨agentId, failed, some (lockEnd now durationSecs), lockoutCount + 1⟩
  else ⟨agentId, failed, none, lockoutCount⟩

/-- The limits of the lockout, as the configuration allows them. -/
structure LockoutPolicy where
  maxAttempts : Nat
  durationSecs : Nat
  attempts : 1 ≤ maxAttempts
  duration : 0 < durationSecs

/-- **`record_agent_failed_attempt`**, its transaction: the row after one more failure. -/
def failedAttempt (agentId : String) (maxAttempts durationSecs : Nat) (now : Timestamp) :
    Option MfaAgentLockoutRecord → MfaAgentLockoutRecord
  | some row =>
    if lockedAt (some row) now then
      -- still locked: the lock is extended
      ⟨agentId, row.failedAttempts + 1, some (lockEnd now durationSecs), row.lockoutCount⟩
    else if row.lockedUntil.isSome then
      -- the lock has expired: the count starts again
      counted agentId maxAttempts durationSecs now 1 row.lockoutCount
    else counted agentId maxAttempts durationSecs now (row.failedAttempts + 1) row.lockoutCount
  | none => counted agentId maxAttempts durationSecs now 1 0

/-- `reset_agent_lockout`, on the row. -/
def MfaAgentLockoutRecord.cleared (row : MfaAgentLockoutRecord) : MfaAgentLockoutRecord :=
  { row with failedAttempts := 0, lockedUntil := none }

theorem failedAttempt_agentId (agentId : String) (maxAttempts durationSecs : Nat) (now : Timestamp)
    (row : Option MfaAgentLockoutRecord) :
    (failedAttempt agentId maxAttempts durationSecs now row).agentId = agentId := by
  unfold failedAttempt counted
  split
  · split_ifs <;> rfl
  · split_ifs <;> rfl

/-! ## Statements -/

inductive MfaOp where
  | getFactor (id : MfaFactorId)
  | getActiveForAgent (agentId : String)
  | listByAgent (agentId : String)
  | insertFactor (record : MfaCredentialRecord)
  | activate (id : MfaFactorId)
  | recordUse (id : MfaFactorId) (counter : Nat)
  /-- Whether there is such a factor, and the time of the statement. -/
  | recordFailedAttempt (id : MfaFactorId) (maxAttempts durationSecs : Nat)
  | resetLockout (id : MfaFactorId)
  | revoke (id : MfaFactorId)
  /-- The row, with the reading of the clock that follows it. -/
  | getAgentLockout (agentId : String)
  | recordAgentFailure (agentId : String) (maxAttempts durationSecs : Nat)
  | resetAgentLockout (agentId : String)
  | clock
  /-- A new pending factor of the agent, or nothing if its secret cannot be encrypted. -/
  | newFactor (agentId : String)
  /-- A code is compared with a secret at the time of the comparison. -/
  | compare (agentId : String) (id : MfaFactorId) (secret code : String)
  deriving DecidableEq

@[reducible] def MfaOp.Result : MfaOp → Type
  | .getFactor _ => Except StoreError (Option MfaCredentialRecord)
  | .getActiveForAgent _ => Except StoreError (Option MfaCredentialRecord)
  | .listByAgent _ => Except StoreError (List MfaCredentialRecord)
  | .insertFactor _ => Except StoreError Unit
  | .activate _ => Except StoreError Bool
  | .recordUse _ _ => Except StoreError Bool
  | .recordFailedAttempt _ _ _ => Except StoreError (Bool × Timestamp)
  | .resetLockout _ => Except StoreError Bool
  | .revoke _ => Except StoreError Bool
  | .getAgentLockout _ => Except StoreError (Option MfaAgentLockoutRecord × Timestamp)
  | .recordAgentFailure _ _ _ => Except StoreError Unit
  | .resetAgentLockout _ => Except StoreError Bool
  | .clock => Timestamp
  | .newFactor _ => Option MfaCredentialRecord
  | .compare _ _ _ _ => Option Nat

/-- What the environment supplies to a step: whether a statement fails, the clock, a fresh uuid and
an encrypted secret with its nonce. -/
structure MfaInput where
  fails : Bool
  now : Timestamp
  uuid : Nat
  encrypted : Option (String × String)

/-- A statement on the factors that can fail. -/
def onFactors (i : MfaInput) (w : MfaStore) (x : Bool × List MfaCredentialRecord) :
    Except StoreError Bool × MfaStore :=
  if i.fails then (.error .database, w) else (.ok x.1, { w with factors := x.2 })

/-- A query that can fail. -/
def query {α : Type} (i : MfaInput) (w : MfaStore) (a : α) : Except StoreError α × MfaStore :=
  (if i.fails then .error .database else .ok a, w)

/-- The step of an operation; `verify` compares a code with a secret at a time in seconds. -/
def exec (verify : String → String → Nat → Option Nat) :
    (o : MfaOp) → MfaInput → MfaStore → o.Result × MfaStore
  | .getFactor id, i, w => query i w (Rows.find w.factors id)
  | .getActiveForAgent agentId, i, w => query i w
      ((w.factors.filter fun r => r.agentId = agentId ∧ r.isActive).insertionSort Newer).head?
  | .listByAgent agentId, i, w =>
    query i w ((w.factors.filter (·.agentId = agentId)).insertionSort Newer)
  | .insertFactor record, i, w =>
    if i.fails || (Rows.find w.factors record.mfaFactorId).isSome then (.error .database, w)
    else (.ok (), { w with factors := w.factors ++ [record] })
  | .activate id, i, w => onFactors i w (activate id i.now w.factors)
  | .recordUse id counter, i, w =>
    if 2 ^ 63 ≤ counter then
      (.error (.invalidState s!"counter {counter} exceeds i64::MAX"), w)
    else onFactors i w (recordUse id counter w.factors)
  | .recordFailedAttempt id maxAttempts durationSecs, i, w =>
    let x := onFactors i w (recordFailedAttempt id maxAttempts durationSecs i.now w.factors)
    (x.1.map (·, i.now), x.2)
  | .resetLockout id, i, w => onFactors i w (resetLockout id w.factors)
  | .revoke id, i, w => onFactors i w (revoke id i.now w.factors)
  | .getAgentLockout agentId, i, w => query i w (Rows.find w.lockouts agentId, i.now)
  | .recordAgentFailure agentId maxAttempts durationSecs, i, w =>
    let row := failedAttempt agentId maxAttempts durationSecs i.now (Rows.find w.lockouts agentId)
    if i.fails then (.error .database, w)
    else if (Rows.find w.lockouts agentId).isSome then
      (.ok (), { w with lockouts := Rows.put w.lockouts row })
    else (.ok (), { w with lockouts := w.lockouts ++ [row] })
  | .resetAgentLockout agentId, i, w =>
    if i.fails then (.error .database, w)
    else match Rows.find w.lockouts agentId with
      | some row => (.ok true, { w with lockouts := Rows.put w.lockouts row.cleared })
      | none => (.ok false, w)
  | .clock, i, w => (i.now, w)
  | .newFactor agentId, i, w =>
    (i.encrypted.map fun (secret, nonce) =>
      ⟨⟨i.uuid⟩, agentId, .pending, secret, nonce, i.now, none, none, none, 0, none, 0⟩, w)
  | .compare _ _ secret code, i, w => (verify secret code (i.now / seconds 1), w)

end FerrumGate.Mfa
