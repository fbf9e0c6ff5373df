import FerrumGate.Proto.Types

/-!
# The transition matrices of the store

`ferrum-store/src/transitions.rs`: which state changes the store seam lets through. The lemmas say
which parts of the lifecycle the execution matrix closes off on its own, whatever the handlers do.
-/

namespace FerrumGate

/-- `execution_state_is_terminal`. -/
def executionStateIsTerminal : ExecutionState → Bool
  | .committed | .compensated | .rolledBack | .denied | .quarantined | .failed | .canceled => true
  | _ => false

/-- `rollback_state_is_terminal`. -/
def rollbackStateIsTerminal : RollbackState → Bool
  | .committed | .compensated | .rolledBack | .failed | .expired => true
  | _ => false

/-- `is_valid_execution_transition`. -/
def isValidExecutionTransition (previous next : ExecutionState) : Bool :=
  if executionStateIsTerminal previous then false
  else match previous with
    | .proposed => (next matches .authorized | .running | .canceled)
    | .authorized => (next matches .running | .canceled | .authorized)
    | .prepared => (next matches .running | .canceled | .prepared)
    | .running =>
      (next matches .committed | .failed | .compensated | .recoveryRequired | .awaitingVerification
        | .running)
    | .awaitingVerification =>
      (next matches .committed | .failed | .compensated | .recoveryRequired | .awaitingVerification)
    | .recoveryRequired =>
      (next matches .awaitingVerification | .compensated | .failed | .recoveryRequired)
    | .awaitingApproval => (next matches .canceled)
    | _ => false

/-- `is_valid_rollback_transition`. -/
def isValidRollbackTransition (previous next : RollbackState) : Bool :=
  if rollbackStateIsTerminal previous then false
  else match previous with
    | .pendingPrepare => (next matches .prepared | .pendingPrepare)
    | .prepared => (next matches .executedAwaitingVerify | .recoveryRequired | .prepared)
    | .executedAwaitingVerify =>
      (next matches .verified | .failed | .compensated | .recoveryRequired | .executedAwaitingVerify)
    | .recoveryRequired =>
      (next matches .executedAwaitingVerify | .compensated | .failed | .recoveryRequired)
    | .verified => (next matches .committed)
    | _ => false

/-- The states in which no side effect has been claimed: what `compare_and_set_state` expects
before it sets `Running`. -/
def ExecutionState.preClaim : ExecutionState → Bool
  | .proposed | .authorized | .prepared => true
  | _ => false

/-- The states an execution can be in once it has been claimed for its side effect. -/
def ExecutionState.claimed : ExecutionState → Bool
  | .running | .awaitingVerification | .recoveryRequired | .committed | .compensated | .failed =>
    true
  | _ => false

theorem isValidExecutionTransition_terminal {s t : ExecutionState}
    (h : executionStateIsTerminal s = true) : isValidExecutionTransition s t = false := by
  simp [isValidExecutionTransition, h]

/-- No transition leads back before the claim, or from a claimed state anywhere else. -/
theorem claimed_closed {s t : ExecutionState} (hs : s.claimed = true)
    (h : isValidExecutionTransition s t = true) : t.claimed = true := by
  cases s <;> cases t <;> first | rfl | exact absurd hs (by decide) | exact absurd h (by decide)

end FerrumGate
