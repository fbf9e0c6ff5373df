import FerrumGate.Gateway.Obeys.Reconciliation
import FerrumGate.Store.Effects

/-!
# What one step of a conforming run does to a row

For an execution, one operation can do five things to the stored row: nothing, insert it, claim
it, cancel it, or carry it through a lifecycle transition. `execution_step` says so once, with
what the process had seen; the invariants are case splits over it.
-/

namespace FerrumGate

open Interleave Interleave.Rows

variable {served : Request} {t : Knowledge} {o : Op} {i : Input} {w w' : World}

/-- What an operation with reply `r` does to the row of execution `e`. -/
inductive ExecutionStep (served : Request) (t : Knowledge) (e : ExecutionId) :
    (o : Op) → o.Result → Option ExecutionRecord → Option ExecutionRecord → Prop
  | same {o : Op} {r : o.Result} {row : Option ExecutionRecord} : ExecutionStep served t e o r row row
  | authorized {lease : CapabilityLease} {x : ExecutionRecord} {outbox : LifecycleOutboxRecord}
      {now : Timestamp} (id : x.executionId = e)
      (write : AuthorizationWrite served t (.recordAuthorization lease x outbox now)) :
      ExecutionStep served t e (.recordAuthorization lease x outbox now) (.ok true) none (some x)
  | claimed {claim : ExecutionClaim} {x : ExecutionRecord} (checked : Checked t claim)
      (id : claim.execution.executionId = e) (pre : x.state.preClaim = true) :
      ExecutionStep served t e (claimOp e) (.ok true) (some x) (some { x with state := .running })
  | canceled {x y : ExecutionRecord} {now : Timestamp} (asked : served = .haReconcilerPass)
      (read : ReadExecution t y)
      (id : y.executionId = e) (state : x.state = y.state)
      (cancelable : cancelable x.state = true) :
      ExecutionStep served t e (.compareAndSetState e [y.state] .canceled now) (.ok true) (some x)
        (some { x with state := .canceled, finishedAt := some now })
  | transition {x x' : ExecutionRecord} {contract : Option RollbackContract}
      {outbox : LifecycleOutboxRecord} (id : x'.executionId = e)
      (write : TransitionWrite served t x' contract outbox)
      (previous : outbox.previousExecutionState = some x.state)
      (valid : isValidExecutionTransition x.state x'.state = true) :
      ExecutionStep served t e (.recordLifecycleTransition x' contract outbox) (.ok ()) (some x) (some x')

/-- The two compare-and-sets of the conduct. -/
theorem StateWrite.cases {id : ExecutionId} {expected : List ExecutionState}
    {new : ExecutionState} {now : Timestamp}
    (h : StateWrite served t (.compareAndSetState id expected new now)) :
    (∃ claim, Checked t claim ∧ claim.execution.executionId = id ∧
      expected = [.prepared, .authorized, .proposed] ∧ new = .running ∧ now = 0) ∨
    (∃ y, served = .haReconcilerPass ∧ ReadExecution t y ∧ y.executionId = id ∧
      cancelable y.state = true ∧ expected = [y.state] ∧ new = .canceled) := by
  generalize ho : Op.compareAndSetState id expected new now = o at h
  cases h with
  | @claim claim checked =>
    cases ho
    exact .inl ⟨claim, checked, rfl, rfl, rfl, rfl⟩
  | @cancel y _ asked read cancelable =>
    cases ho
    exact .inr ⟨y, asked, read, rfl, cancelable, rfl, rfl⟩

variable {now : Timestamp}

theorem ExecutionStep.of_compareAndSet {id : ExecutionId} {expected : List ExecutionState}
    {new : ExecutionState} {row : ExecutionRecord}
    (hmay : StateWrite served t (.compareAndSetState id expected new now))
    (hmem : row.state ∈ expected) :
    ExecutionStep served t id (.compareAndSetState id expected new now) (.ok true) (some row)
      (some { row with
        state := new
        finishedAt := if executionStateIsTerminal new then some now else row.finishedAt }) := by
  rcases hmay.cases with
    ⟨claim, checked, hclaim, rfl, rfl, rfl⟩ | ⟨y, asked, read, hy, hc, rfl, rfl⟩
  · have hpre : row.state.preClaim = true := by
      simp only [List.mem_cons, List.not_mem_nil, or_false] at hmem
      rcases hmem with h | h | h <;> rw [h] <;> rfl
    exact .claimed checked hclaim hpre
  · have hstate : row.state = y.state := List.mem_singleton.mp hmem
    exact .canceled asked read hy hstate (hstate ▸ hc)

theorem ExecutionStep.of_wrote {r : o.Result} (hmay : may served t o) (hw : Wrote o r w w')
    (e : ExecutionId) : ExecutionStep served t e o r (find w.executions e) (find w'.executions e) := by
  cases hw with
  | @compareAndSetState _ id expected new now row found mem =>
    have hkey : row.executionId = id := find_key found
    refine find_put_rel (P := ExecutionStep served t e _ _) (hkey ▸ found) e .same fun he => ?_
    obtain rfl : id = e := hkey.symm.trans he
    exact .of_compareAndSet hmay mem
  | recordLifecycleTransition previous valid found _ _ _ =>
    exact find_put_rel (P := ExecutionStep served t e _ _) found e .same fun he =>
      .transition he hmay previous valid
  | recordAuthorization _ _ _ new _ _ =>
    exact find_append_rel (P := ExecutionStep served t e _ _) new e .same fun he =>
      .authorized he hmay
  | claimPendingReconciliation =>
    rw [World.claimPendingReconciliation_eq]
    exact .same
  | _ => exact .same

/-- **One step, seen from one execution.** -/
theorem execution_step (hmay : may served t o) (e : ExecutionId) :
    ExecutionStep served t e o (o.exec i w).1 (find w.executions e)
      (find (o.exec i w).2.executions e) := by
  rcases exec_effect o i w with ⟨_, hw⟩ | ⟨_, hq⟩
  · exact .of_wrote hmay hw e
  · rw [hq]
    exact .same

variable {x : ExecutionRecord} {outbox : LifecycleOutboxRecord}

/-- The authorized execution carries the id of the capability that was consumed for it. -/
theorem AuthorizationWrite.capability {lease : CapabilityLease}
    (h : AuthorizationWrite served t (.recordAuthorization lease x outbox now)) :
    x.capabilityId = lease.capabilityId := by
  obtain ⟨_, _, _, _, _, _, -, -, -, -, rfl, rfl⟩ := h.inv
  rfl

/-- An execution that appears in a step has been authorized in it. -/
theorem authorized_of_new (hmay : may served t o) {e : ExecutionId}
    (hnone : find w.executions e = none) (hx : find (o.exec i w).2.executions e = some x) :
    ∃ lease outbox now, (⟨o, (o.exec i w).1⟩ : Reply Op Op.Result) =
        ⟨.recordAuthorization lease x outbox now, .ok true⟩ ∧
      lease.capabilityId = x.capabilityId ∧ x.executionId = e := by
  have hstep := execution_step (i := i) (w := w) hmay e
  rw [hnone, hx] at hstep
  generalize (o.exec i w).1 = r at hstep ⊢
  cases hstep with
  | authorized id write => exact ⟨_, _, _, rfl, write.capability.symm, id⟩

variable {s : ExecutionState}

theorem preClaim_not_claimed (h : s.preClaim = true) : s.claimed = false := by
  cases s <;> first | rfl | exact absurd h (by decide)

theorem cancelable_not_claimed (h : cancelable s = true) : s.claimed = false := by
  cases s <;> first | rfl | exact absurd h (by decide)

theorem preClaim_not_terminal (h : s.preClaim = true) : executionStateIsTerminal s = false := by
  cases s <;> first | rfl | exact absurd h (by decide)

theorem cancelable_not_terminal (h : cancelable s = true) : executionStateIsTerminal s = false := by
  cases s <;> first | rfl | exact absurd h (by decide)

/-- The stored state of an execution. -/
def World.executionState (w : World) (e : ExecutionId) : Option ExecutionState :=
  (find w.executions e).map (·.state)

/-- A terminal state stays. -/
theorem terminal_step {e : ExecutionId} (hmay : may served t o)
    (hterminal : executionStateIsTerminal s = true) (h : w.executionState e = some s) :
    (o.exec i w).2.executionState e = some s := by
  obtain ⟨x, hx, rfl⟩ := Option.map_eq_some_iff.mp h
  have hstep := execution_step (i := i) (w := w) hmay e
  rw [hx] at hstep
  unfold World.executionState
  generalize find (o.exec i w).2.executions e = row' at hstep
  generalize (o.exec i w).1 = r at hstep
  cases hstep with
  | same => rfl
  | claimed _ _ hpre => rw [preClaim_not_terminal hpre] at hterminal; cases hterminal
  | canceled _ _ _ _ hc => rw [cancelable_not_terminal hc] at hterminal; cases hterminal
  | transition _ _ _ hvalid =>
    rw [isValidExecutionTransition_terminal hterminal] at hvalid
    cases hvalid

/-! ## Contracts -/

/-- What an operation with reply `r` does to the contract `id`. -/
inductive ContractStep (served : Request) (t : Knowledge) (id : RollbackContractId) :
    (o : Op) → o.Result → Option RollbackContract → Option RollbackContract → Prop
  | same {o : Op} {r : o.Result} {row : Option RollbackContract} :
      ContractStep served t id o r row row
  | inserted {x : ExecutionRecord} {c : RollbackContract} {outbox : LifecycleOutboxRecord}
      (id_ : c.contractId = id) (write : TransitionWrite served t x (some c) outbox)
      (previous : outbox.previousRollbackState = none) :
      ContractStep served t id (.recordLifecycleTransition x (some c) outbox) (.ok ()) none (some c)
  | updated {x : ExecutionRecord} {c c' : RollbackContract} {outbox : LifecycleOutboxRecord}
      (id_ : c'.contractId = id) (write : TransitionWrite served t x (some c') outbox)
      (previous : outbox.previousRollbackState = some c.state) :
      ContractStep served t id (.recordLifecycleTransition x (some c') outbox) (.ok ()) (some c)
        (some c')

theorem ContractStep.of_wrote {r : o.Result} (hmay : may served t o) (hw : Wrote o r w w')
    (id : RollbackContractId) :
    ContractStep served t id o r (find w.contracts id) (find w'.contracts id) := by
  cases hw with
  | recordLifecycleTransition _ _ _ contractWrite _ _ =>
    cases contractWrite with
    | none => exact .same
    | update previous found _ =>
      exact find_put_rel (P := ContractStep served t id _ _) found id .same fun hid =>
        .updated hid hmay previous
    | insert previous new _ =>
      exact find_append_rel (P := ContractStep served t id _ _) new id .same fun hid =>
        .inserted hid hmay previous
  | claimPendingReconciliation =>
    rw [World.claimPendingReconciliation_eq]
    exact .same
  | _ => exact .same

/-- **One step, seen from one contract.** -/
theorem contract_step (hmay : may served t o) (id : RollbackContractId) :
    ContractStep served t id o (o.exec i w).1 (find w.contracts id)
      (find (o.exec i w).2.contracts id) := by
  rcases exec_effect o i w with ⟨_, hw⟩ | ⟨_, hq⟩
  · exact .of_wrote hmay hw id
  · rw [hq]
    exact .same

/-! ## Outbox rows -/

/-- What an operation with reply `r` does to the outbox row `id`. -/
inductive OutboxStep (served : Request) (t : Knowledge) (id : LifecycleOutboxId) :
    (o : Op) → o.Result → Option OutboxRow → Option OutboxRow → Prop
  | same {o : Op} {r : o.Result} {row : Option OutboxRow}
      (noClaim : ∀ limit owner now ttl claims,
        (⟨o, r⟩ : Reply Op Op.Result) =
          ⟨.claimPendingReconciliation limit owner now ttl, .ok claims⟩ →
        ∀ claim ∈ claims, claim.lease.outboxId ≠ id) :
      OutboxStep served t id o r row row
  | transition {x : ExecutionRecord} {contract : Option RollbackContract}
      {outbox : LifecycleOutboxRecord} (id_ : outbox.outboxId = id)
      (write : TransitionWrite served t x contract outbox) :
      OutboxStep served t id (.recordLifecycleTransition x contract outbox) (.ok ()) none
        (some (.fresh outbox))
  | authorized {lease : CapabilityLease} {x : ExecutionRecord} {outbox : LifecycleOutboxRecord}
      {now : Timestamp} (id_ : outbox.outboxId = id)
      (write : AuthorizationWrite served t (.recordAuthorization lease x outbox now)) :
      OutboxStep served t id (.recordAuthorization lease x outbox now) (.ok true) none
        (some (.fresh outbox))
  | edited {old new : LifecycleOutboxRecord} {clear override : Bool} {row : OutboxRow}
      (id_ : old.outboxId = id) (read : Saw t (.getOutbox id) (.ok (some old)))
      (change : RecordEdit served t old new clear override)
      (open_ : override = true ∨ row.leaseOwner = none) :
      OutboxStep served t id (.updateOutboxRecord new clear override) (.ok true) (some row)
        (some (World.OutboxRow.write row new clear))
  | claimedEdit {claim : LifecycleOutboxClaim} {old new : LifecycleOutboxRecord} {clear : Bool}
      {now : Timestamp} {row : OutboxRow} (holds : HoldsClaim t claim)
      (lease_ : claim.lease.outboxId = id) (id_ : old.outboxId = id)
      (read : Saw t (.getOutbox id) (.ok (some old)))
      (change : ClaimedEdit t claim.record old new clear) (clock : Saw t .readClock now)
      (held : World.OutboxRow.heldBy row claim.lease now = true) :
      OutboxStep served t id (.updateOutboxRecordClaimed new claim.lease clear now) (.ok true)
        (some row) (some (World.OutboxRow.write row new clear))
  | leased {limit uuid : Nat} {now : Timestamp} {claims : List LifecycleOutboxClaim}
      {row : OutboxRow} (clock : Saw t .readClock now)
      (free : World.OutboxRow.leaseFree row now = true)
      (mem : row.claim s!"lifecycle-reconciler:{uuid}" (now + reconciliationLeaseTtl) ∈ claims)
      (only : ∀ claim ∈ claims, claim.lease.outboxId = id →
        claim = row.claim s!"lifecycle-reconciler:{uuid}" (now + reconciliationLeaseTtl)) :
      OutboxStep served t id
        (.claimPendingReconciliation limit s!"lifecycle-reconciler:{uuid}" now
          reconciliationLeaseTtl) (.ok claims) (some row)
        (some (row.leased s!"lifecycle-reconciler:{uuid}" (now + reconciliationLeaseTtl)))
  | renewed {lease : LifecycleOutboxLease} {expiryBase now : Timestamp} {row : OutboxRow}
      (id_ : lease.outboxId = id) (base : Saw t .readClock expiryBase)
      (clock : Saw t .readClock now) (held : World.OutboxRow.heldBy row lease now = true)
      (pending : World.OutboxRow.pending row = true) :
      OutboxStep served t id
        (.renewReconciliationLease lease (expiryBase + reconciliationLeaseTtl) now) (.ok true)
        (some row)
        (some { row with leaseExpiresAt := some (expiryBase + reconciliationLeaseTtl) })

/-- An operation that claims no records. -/
theorem noClaim_of_ne {id : LifecycleOutboxId} {r : o.Result}
    (h : ∀ limit owner now ttl, o ≠ .claimPendingReconciliation limit owner now ttl) :
    ∀ limit owner now ttl claims,
      (⟨o, r⟩ : Reply Op Op.Result) =
        ⟨.claimPendingReconciliation limit owner now ttl, .ok claims⟩ →
      ∀ claim ∈ claims, claim.lease.outboxId ≠ id :=
  fun limit owner now ttl _ heq => absurd (congrArg Sigma.fst heq) (h limit owner now ttl)

/-! The four writes of the conduct, inverted. -/

theorem OutboxWrite.edit_inv {new : LifecycleOutboxRecord} {clear override : Bool}
    (h : OutboxWrite served t (.updateOutboxRecord new clear override)) :
    ∃ old, Saw t (.getOutbox old.outboxId) (.ok (some old)) ∧
      RecordEdit served t old new clear override := by
  generalize ho : Op.updateOutboxRecord new clear override = o at h
  cases h with
  | edit read change =>
    cases ho
    exact ⟨_, read, change⟩
  | _ => cases ho

theorem OutboxWrite.claimedEdit_inv {new : LifecycleOutboxRecord} {lease : LifecycleOutboxLease}
    {clear : Bool} (h : OutboxWrite served t (.updateOutboxRecordClaimed new lease clear now)) :
    ∃ claim old, claim.lease = lease ∧ HoldsClaim t claim ∧
      Saw t (.getOutbox lease.outboxId) (.ok (some old)) ∧ old.outboxId = lease.outboxId ∧
      ClaimedEdit t claim.record old new clear ∧ Saw t .readClock now := by
  generalize ho : Op.updateOutboxRecordClaimed new lease clear now = o at h
  cases h with
  | claimedEdit holds read id change clock =>
    cases ho
    exact ⟨_, _, rfl, holds, read, id, change, clock⟩
  | _ => cases ho

variable {limit : Nat} {owner : String} {ttl : Timestamp}

theorem OutboxWrite.claim_inv
    (h : OutboxWrite served t (.claimPendingReconciliation limit owner now ttl)) :
    ∃ uuid : Nat, owner = s!"lifecycle-reconciler:{uuid}" ∧ ttl = reconciliationLeaseTtl ∧
      Saw t .newUuid uuid ∧ Saw t .readClock now := by
  generalize ho : Op.claimPendingReconciliation limit owner now ttl = o at h
  cases h with
  | claim owner clock =>
    cases ho
    exact ⟨_, rfl, rfl, owner, clock⟩
  | _ => cases ho

theorem OutboxWrite.renew_inv {lease : LifecycleOutboxLease} {expiresAt : Timestamp}
    (h : OutboxWrite served t (.renewReconciliationLease lease expiresAt now)) :
    ∃ expiryBase, expiresAt = expiryBase + reconciliationLeaseTtl ∧ Saw t .readClock expiryBase ∧
      Saw t .readClock now := by
  generalize ho : Op.renewReconciliationLease lease expiresAt now = o at h
  cases h with
  | renew base clock =>
    cases ho
    exact ⟨_, rfl, base, clock⟩
  | _ => cases ho

theorem OutboxStep.of_claim
    (hmay : OutboxWrite served t (.claimPendingReconciliation limit owner now ttl))
    (id : LifecycleOutboxId) :
    OutboxStep served t id (.claimPendingReconciliation limit owner now ttl)
      (.ok (w.claimPendingReconciliation limit owner now ttl).1) (find w.outbox id)
      (find (w.claimPendingReconciliation limit owner now ttl).2.outbox id) := by
  obtain ⟨uuid, rfl, rfl, -, clock⟩ := hmay.claim_inv
  have hpos : 0 < reconciliationLeaseTtl := by decide
  have hlt : now < now + reconciliationLeaseTtl := Nat.lt_add_of_pos_right hpos
  unfold World.claimPendingReconciliation
  rcases World.claimAll_row hlt (World.claimable limit now w) w id with
    ⟨hsame, hnone⟩ | ⟨row, hrow, hfree, hfound, hmem, honly⟩
  · rw [hsame]
    refine .same fun _ _ _ _ claims heq => ?_
    cases heq
    exact hnone
  · rw [hrow, hfound]
    exact .leased clock hfree hmem honly

theorem OutboxStep.of_wrote {r : o.Result} (hmay : may served t o) (hw : Wrote o r w w')
    (id : LifecycleOutboxId) : OutboxStep served t id o r (find w.outbox id) (find w'.outbox id) := by
  cases hw with
  | recordLifecycleTransition _ _ _ _ _ newId =>
    exact find_append_rel (P := OutboxStep served t id _ _) newId id
      (.same (noClaim_of_ne (by simp))) fun hid => .transition hid hmay
  | recordAuthorization _ _ _ _ _ newId =>
    exact find_append_rel (P := OutboxStep served t id _ _) newId id
      (.same (noClaim_of_ne (by simp))) fun hid => .authorized hid hmay
  | claimPendingReconciliation => exact .of_claim hmay id
  | @renewReconciliationLease _ lease expiresAt now row found held pending =>
    have hkey : row.record.outboxId = lease.outboxId := find_key found
    obtain ⟨expiryBase, rfl, base, clock⟩ := OutboxWrite.renew_inv hmay
    exact find_put_rel (P := OutboxStep served t id _ _)
      (v := { row with leaseExpiresAt := some (expiryBase + reconciliationLeaseTtl) })
      (hkey ▸ found) id (.same (noClaim_of_ne (by simp))) fun hid =>
        .renewed (hkey.symm.trans hid) base clock held pending
  | @updateOutboxRecord _ record clear override row found open_ known =>
    obtain ⟨old, read, change⟩ := OutboxWrite.edit_inv hmay
    refine find_put_rel (P := OutboxStep served t id _ _) found id
      (.same (noClaim_of_ne (by simp))) fun hid => ?_
    have hold : old.outboxId = id := change.sameRecord.outboxId.symm.trans hid
    exact .edited hold (hold ▸ read) change open_
  | @updateOutboxRecordClaimed _ record lease clear now row found held known =>
    obtain ⟨claim, old, rfl, holds, read, hold, change, clock⟩ := OutboxWrite.claimedEdit_inv hmay
    have hkey : record.outboxId = claim.lease.outboxId := change.sameRecord.outboxId.trans hold
    refine find_put_rel (P := OutboxStep served t id _ _) (hkey ▸ found) id
      (.same (noClaim_of_ne (by simp))) fun hid => ?_
    have hlease : claim.lease.outboxId = id := hkey.symm.trans hid
    exact .claimedEdit holds hlease (hold.trans hlease) (hlease ▸ read) change clock held
  | _ => exact .same (noClaim_of_ne (by simp))

/-- **One step, seen from one outbox row.** -/
theorem outbox_step (hmay : may served t o) (id : LifecycleOutboxId) :
    OutboxStep served t id o (o.exec i w).1 (find w.outbox id) (find (o.exec i w).2.outbox id) := by
  rcases exec_effect o i w with ⟨_, hw⟩ | ⟨hquiet, hq⟩
  · exact .of_wrote hmay hw id
  · rw [hq]
    refine .same fun limit owner now ttl claims heq => ?_
    obtain ⟨ho, hr⟩ := Sigma.mk.inj heq
    subst ho
    rw [eq_of_heq hr] at hquiet
    cases hquiet

theorem recorded_of_quiet {r : o.Result} (h : o.announces r = false) : recorded ⟨o, r⟩ = none := by
  cases o with
  | recordLifecycleTransition =>
    cases r with
    | error e => rfl
    | ok u => cases h
  | recordAuthorization =>
    cases r with
    | error e => rfl
    | ok b =>
      cases b with
      | false => rfl
      | true => cases h
  | _ => rfl

/-- The record that a transaction reports as stored is a new row. -/
theorem recorded_stored (h : recorded ⟨o, (o.exec i w).1⟩ = some (x, outbox)) :
    find w.outbox outbox.outboxId = none ∧
      find (o.exec i w).2.outbox outbox.outboxId = some (.fresh outbox) := by
  revert h
  refine exec_rule (P := fun r w' => recorded ⟨o, r⟩ = some (x, outbox) →
    find w.outbox outbox.outboxId = none ∧ find w'.outbox outbox.outboxId = some (.fresh outbox))
    (fun r w' hw h => ?_) fun r hquiet h => ?_
  · cases hw with
    | recordLifecycleTransition _ _ _ _ _ newId | recordAuthorization _ _ _ _ _ newId =>
      cases h
      exact ⟨newId, find_append_self (v := OutboxRow.fresh outbox) newId⟩
    | _ => cases h
  · rw [recorded_of_quiet hquiet] at h
    cases h

/-- The execution that a transaction reports as stored. -/
theorem recorded_execution (h : recorded ⟨o, (o.exec i w).1⟩ = some (x, outbox)) :
    find (o.exec i w).2.executions x.executionId = some x := by
  rcases exec_effect o i w with ⟨_, hw⟩ | ⟨hquiet, _⟩
  · generalize (o.exec i w).2 = w' at hw ⊢
    generalize (o.exec i w).1 = r at hw h
    cases hw with
    | recordLifecycleTransition _ _ found =>
      cases h
      exact find_put_self found
    | recordAuthorization _ _ _ new =>
      cases h
      exact find_append_self new
    | _ => cases h
  · rw [recorded_of_quiet hquiet] at h
    cases h

variable {claims : List LifecycleOutboxClaim} {claim : LifecycleOutboxClaim}

/-- What a reconciler is given is what the claim of the store gives. -/
theorem claim_exec
    (h : ((Op.claimPendingReconciliation limit owner now ttl).exec i w).1 = .ok claims) :
    claims = (w.claimPendingReconciliation limit owner now ttl).1 ∧
      ((Op.claimPendingReconciliation limit owner now ttl).exec i w).2 =
        (w.claimPendingReconciliation limit owner now ttl).2 := by
  have hw := exec_wrote (o := .claimPendingReconciliation limit owner now ttl) (i := i) (w := w)
    (by rw [h]; rfl)
  rw [h] at hw
  generalize ((Op.claimPendingReconciliation limit owner now ttl).exec i w).2 = w' at hw ⊢
  cases hw with
  | claimPendingReconciliation => exact ⟨rfl, rfl⟩

/-- The records that a reconciler gets with its leases are those that were stored. -/
theorem claimed_before
    (h : ((Op.claimPendingReconciliation limit owner now ttl).exec i w).1 = .ok claims)
    (hmem : claim ∈ claims) :
    ∃ row, find w.outbox claim.lease.outboxId = some row ∧ row.record = claim.record := by
  obtain ⟨rfl, -⟩ := claim_exec h
  exact Option.map_eq_some_iff.mp (World.claimAll_mem hmem).2

/-- The ids of the outbox stay distinct. -/
theorem outbox_keys_step (h : (w.outbox.map Keyed.key).Nodup) :
    ((o.exec i w).2.outbox.map Keyed.key).Nodup := by
  refine exec_rule (P := fun _ w' => (w'.outbox.map Keyed.key).Nodup) (fun r w' hw => ?_)
    fun _ _ => h
  cases hw with
  | recordLifecycleTransition _ _ _ _ _ newId | recordAuthorization _ _ _ _ _ newId =>
    exact nodup_keys_append (v := OutboxRow.fresh _) h newId
  | claimPendingReconciliation =>
    unfold World.claimPendingReconciliation
    rw [World.claimAll_keys]
    exact h
  | renewReconciliationLease | updateOutboxRecord | updateOutboxRecordClaimed =>
    dsimp only
    rw [keys_put]
    exact h
  | _ => exact h

/-- A record that a reconciler gets a lease on was pending. -/
theorem claimed_pending (hn : (w.outbox.map Keyed.key).Nodup)
    (h : ((Op.claimPendingReconciliation limit owner now ttl).exec i w).1 = .ok claims)
    (hmem : claim ∈ claims) :
    ∃ row, find w.outbox claim.lease.outboxId = some row ∧
      World.OutboxRow.pending row = true := by
  obtain ⟨rfl, -⟩ := claim_exec h
  obtain ⟨record, hrecord, hid⟩ := List.mem_map.mp (World.claimAll_mem hmem).1
  have hsorted := List.mem_of_mem_take hrecord
  rw [List.mem_insertionSort] at hsorted
  obtain ⟨row, hrow, rfl⟩ := List.mem_map.mp hsorted
  obtain ⟨hstored, hpending⟩ := List.mem_filter.mp hrow
  refine ⟨row, hid ▸ find_of_mem hn hstored, ?_⟩
  exact (Bool.and_eq_true_iff.mp hpending).1

/-- The rows that a reconciler has claimed hold the records it got. -/
theorem claimed_stored
    (h : ((Op.claimPendingReconciliation limit owner now ttl).exec i w).1 = .ok claims)
    (hmem : claim ∈ claims) :
    ∃ row, find ((Op.claimPendingReconciliation limit owner now ttl).exec i w).2.outbox
      claim.lease.outboxId = some row ∧ row.record = claim.record := by
  obtain ⟨rfl, hworld⟩ := claim_exec h
  rw [hworld]
  have hrecord := World.claimAll_records owner now (now + ttl) (World.claimable limit now w) w
    claim.lease.outboxId
  rw [(World.claimAll_mem hmem).2] at hrecord
  exact Option.map_eq_some_iff.mp hrecord

/-! ## Capabilities -/

/-- What an operation with reply `r` does to the capability `id`. -/
inductive CapabilityStep (served : Request) (t : Knowledge) (id : CapabilityId) :
    (o : Op) → o.Result → Option CapabilityLease → Option CapabilityLease → Prop
  | same {o : Op} {r : o.Result} {row : Option CapabilityLease} : CapabilityStep served t id o r row row
  | minted {lease : CapabilityLease} (id_ : lease.capabilityId = id)
      (write : CapabilityWrite served t (.insertCapability lease)) :
      CapabilityStep served t id (.insertCapability lease) (.ok ()) none (some lease)
  | consumed {lease row : CapabilityLease} {x : ExecutionRecord} {outbox : LifecycleOutboxRecord}
      {now : Timestamp} (id_ : lease.capabilityId = id)
      (write : AuthorizationWrite served t (.recordAuthorization lease x outbox now))
      (active : row.status = .active) (unexpired : now < row.expiresAt) :
      CapabilityStep served t id (.recordAuthorization lease x outbox now) (.ok true) (some row)
        (some { row with status := .used })
  | markedUsed {lease row : CapabilityLease} {x : ExecutionRecord} {outbox : LifecycleOutboxRecord}
      {authorizedAt now : Timestamp} (id_ : lease.capabilityId = id)
      (authorized : Saw t (.recordAuthorization lease x outbox authorizedAt) (.ok true))
      (active : row.status = .active) :
      CapabilityStep served t id (.updateStatusIfActive id .used now) (.ok true) (some row)
        (some { row with status := .used })
  | revoked {row : CapabilityLease} {revokedAt : Timestamp} (active : row.status = .active) :
      CapabilityStep served t id (.revokeIfActive id revokedAt) (.ok true) (some row)
        (some { row with status := .revoked, revokedAt := some revokedAt })
  | overwritten {lease row : CapabilityLease} {revokedAt : Timestamp}
      (id_ : lease.capabilityId = id)
      (read : Saw t (.getCapability id) (.ok (some lease))) :
      CapabilityStep served t id
        (.updateCapability { lease with status := .revoked, revokedAt := some revokedAt }) (.ok ())
        (some row) (some { lease with status := .revoked, revokedAt := some revokedAt })

theorem CapabilityWrite.overwrite_inv {new : CapabilityLease}
    (h : CapabilityWrite served t (.updateCapability new)) :
    ∃ lease revokedAt, Saw t (.getCapability lease.capabilityId) (.ok (some lease)) ∧
      new = { lease with status := .revoked, revokedAt := some revokedAt } := by
  generalize ho : Op.updateCapability new = o at h
  cases h with
  | overwrite read =>
    cases ho
    exact ⟨_, _, read, rfl⟩
  | _ => cases ho

theorem CapabilityWrite.markUsed_inv {id : CapabilityId} {status : CapabilityStatus}
    (h : CapabilityWrite served t (.updateStatusIfActive id status now)) :
    status = .used ∧ ∃ lease x outbox authorizedAt, lease.capabilityId = id ∧
      Saw t (.recordAuthorization lease x outbox authorizedAt) (.ok true) := by
  generalize ho : Op.updateStatusIfActive id status now = o at h
  cases h with
  | markUsed authorized =>
    cases ho
    exact ⟨rfl, _, _, _, _, rfl, authorized⟩
  | _ => cases ho

theorem CapabilityStep.of_overwrite {new : CapabilityLease}
    (hmay : CapabilityWrite served t (.updateCapability new)) (id : CapabilityId) :
    CapabilityStep served t id (.updateCapability new) (.ok ()) (find w.capabilities id)
      (find (put w.capabilities new) id) := by
  cases hrow : find w.capabilities new.capabilityId with
  | none =>
    rw [find_put_none hrow]
    exact .same
  | some row =>
    refine find_put_rel (P := CapabilityStep served t id _ _) hrow id .same fun hid => ?_
    obtain ⟨lease, revokedAt, read, rfl⟩ := hmay.overwrite_inv
    obtain rfl : lease.capabilityId = id := hid
    exact .overwritten rfl read

theorem CapabilityStep.of_wrote {r : o.Result} (hmay : may served t o) (hw : Wrote o r w w')
    (id : CapabilityId) :
    CapabilityStep served t id o r (find w.capabilities id) (find w'.capabilities id) := by
  cases hw with
  | insertCapability new =>
    exact find_append_rel (P := CapabilityStep served t id _ _) new id .same fun hid =>
      .minted hid hmay
  | updateCapability => exact .of_overwrite hmay id
  | @updateStatusIfActive _ capability status now row found active _ =>
    have hkey : row.capabilityId = capability := find_key found
    obtain ⟨rfl, lease, x, outbox, authorizedAt, hlease, authorized⟩ :=
      CapabilityWrite.markUsed_inv hmay
    refine find_put_rel (P := CapabilityStep served t id _ _) (hkey ▸ found) id .same fun hid => ?_
    obtain rfl : capability = id := hkey.symm.trans hid
    exact .markedUsed hlease authorized active
  | @revokeIfActive _ capability revokedAt row found active _ =>
    have hkey : row.capabilityId = capability := find_key found
    refine find_put_rel (P := CapabilityStep served t id _ _) (hkey ▸ found) id .same fun hid => ?_
    obtain rfl : capability = id := hkey.symm.trans hid
    exact .revoked active
  | @recordAuthorization _ lease row x outbox now found active unexpired _ _ _ =>
    have hkey : row.capabilityId = lease.capabilityId := find_key found
    exact find_put_rel (P := CapabilityStep served t id _ _) (hkey ▸ found) id .same fun hid =>
      .consumed (hkey.symm.trans hid) hmay active unexpired
  | claimPendingReconciliation =>
    rw [World.claimPendingReconciliation_eq]
    exact .same
  | _ => exact .same

/-- **One step, seen from one capability.** -/
theorem capability_step (hmay : may served t o) (id : CapabilityId) :
    CapabilityStep served t id o (o.exec i w).1 (find w.capabilities id)
      (find (o.exec i w).2.capabilities id) := by
  rcases exec_effect o i w with ⟨_, hw⟩ | ⟨_, hq⟩
  · exact .of_wrote hmay hw id
  · rw [hq]
    exact .same

/-! ## Proposals and events -/

/-- A stored proposal is never changed. -/
theorem proposal_step {id : ProposalId} {proposal : ActionProposal}
    (h : find w.proposals id = some proposal) :
    find (o.exec i w).2.proposals id = some proposal := by
  refine exec_rule (P := fun _ w' => find w'.proposals id = some proposal) (fun r w' hw => ?_)
    fun _ _ => h
  cases hw with
  | insertProposal _ => exact find_append_of_some h
  | claimPendingReconciliation =>
    rw [World.claimPendingReconciliation_eq]
    exact h
  | _ => exact h

/-- The kinds of the events that are appended on their own. -/
def ProvenanceEventKind.noted : ProvenanceEventKind → Bool
  | .approvalGranted | .approvalDenied | .approvalTimedOut => true
  | kind => isExternallyIngestibleKind kind

variable {event : ProvenanceEvent}

theorem Notes.noted (h : Notes t event) : event.kind.noted = true := by
  cases h with
  | approvalResolved => split <;> rfl
  | approvalTimedOut => rfl
  | ingested external =>
    unfold ProvenanceEventKind.noted
    split
    · rfl
    · rfl
    · rfl
    · exact external

/-- What an operation with reply `r` does to the provenance store. -/
inductive ProvenanceStep (t : Knowledge) : (o : Op) → o.Result → World → World → Prop
  | same {o : Op} {r : o.Result} {w w' : World} (events_ : w'.events = w.events)
      (edges_ : w'.edges = w.edges) (quiet : appended ⟨o, r⟩ = none) : ProvenanceStep t o r w w'
  | noted {w w' : World} {event : ProvenanceEvent} (write : Notes t event)
      (new : find w.events event.eventId = none) (events_ : w'.events = w.events ++ [event])
      (edges_ : w'.edges = w.edges) : ProvenanceStep t (.appendEvent event) (.ok ()) w w'
  | appended {w w' : World} {event : ProvenanceEvent} {edges : List ProvenanceEdge}
      (write : Appends t event edges ∨ Repair t event edges)
      (new : find w.events event.eventId = none)
      (known : ∀ edge ∈ edges, find (w.events ++ [event]) edge.fromEventId ≠ none)
      (events_ : w'.events = w.events ++ [event]) (edges_ : w'.edges = w.edges ++ edges) :
      ProvenanceStep t (.appendEventWithEdges event edges) (.ok ()) w w'
  | linked {w w' : World} {id : EventId} {edges : List ProvenanceEdge}
      (write : EdgeRepair t id edges) (target : find w.events id ≠ none)
      (known : ∀ edge ∈ edges, find w.events edge.fromEventId ≠ none)
      (events_ : w'.events = w.events)
      (edges_ : w'.edges = w.edges ++ edges.map ({ · with toEventId := id })) :
      ProvenanceStep t (.appendEdges id edges) (.ok ()) w w'

theorem appended_of_quiet {r : o.Result} (h : o.announces r = false) : appended ⟨o, r⟩ = none := by
  cases o with
  | appendEvent event =>
    cases r with
    | error e => rfl
    | ok u => cases h
  | appendEventWithEdges event edges =>
    cases r with
    | error e => rfl
    | ok u => cases h
  | _ => rfl

theorem ProvenanceStep.of_wrote {r : o.Result} (hmay : may served t o) (hw : Wrote o r w w') :
    ProvenanceStep t o r w w' := by
  cases hw with
  | appendEvent new => exact .noted hmay.1 new rfl rfl
  | appendEventWithEdges new _ known => exact .appended hmay.1 new known rfl rfl
  | appendEdges target known => exact .linked hmay target known rfl rfl
  | claimPendingReconciliation =>
    rw [World.claimPendingReconciliation_eq]
    exact .same rfl rfl rfl
  | _ => exact .same rfl rfl rfl

/-- **One step, seen from the provenance store.** -/
theorem provenance_step (hmay : may served t o) :
    ProvenanceStep t o (o.exec i w).1 w (o.exec i w).2 := by
  rcases exec_effect o i w with ⟨_, hw⟩ | ⟨hquiet, hq⟩
  · exact .of_wrote hmay hw
  · rw [hq]
    exact .same rfl rfl (appended_of_quiet hquiet)

/-- The event that a reply reports as stored is stored. -/
theorem appended_stored (h : appended ⟨o, (o.exec i w).1⟩ = some event) :
    event ∈ (o.exec i w).2.events := by
  rcases exec_effect o i w with ⟨_, hw⟩ | ⟨hquiet, _⟩
  · generalize (o.exec i w).2 = w' at hw ⊢
    generalize (o.exec i w).1 = r at hw h
    cases hw with
    | appendEvent _ | appendEventWithEdges _ _ _ =>
      cases h
      exact List.mem_append_right _ (List.mem_singleton_self _)
    | _ => cases h
  · rw [appended_of_quiet hquiet] at h
    cases h

/-- No event is ever removed. -/
theorem event_step (h : event ∈ w.events) : event ∈ (o.exec i w).2.events := by
  refine exec_rule (P := fun _ w' => event ∈ w'.events) (fun r w' hw => ?_) fun _ _ => h
  cases hw with
  | appendEvent _ | appendEventWithEdges _ _ _ => exact List.mem_append_left _ h
  | claimPendingReconciliation =>
    rw [World.claimPendingReconciliation_eq]
    exact h
  | _ => exact h

/-- The ids of the events stay distinct. -/
theorem event_keys_step (h : (w.events.map Keyed.key).Nodup) :
    ((o.exec i w).2.events.map Keyed.key).Nodup := by
  refine exec_rule (P := fun _ w' => (w'.events.map Keyed.key).Nodup) (fun r w' hw => ?_)
    fun _ _ => h
  cases hw with
  | appendEvent new | appendEventWithEdges new => exact nodup_keys_append h new
  | claimPendingReconciliation =>
    rw [World.claimPendingReconciliation_eq]
    exact h
  | _ => exact h

/-- An event that is stored after a step was stored before, or has been appended in it. -/
theorem event_cases (hmay : may served t o) (h : event ∈ (o.exec i w).2.events) :
    event ∈ w.events ∨ appended ⟨o, (o.exec i w).1⟩ = some event ∧
      (Notes t event ∨ ∃ edges, Appends t event edges ∨ Repair t event edges) := by
  have hstep := provenance_step (i := i) (w := w) hmay
  generalize (o.exec i w).2 = w' at hstep h
  generalize (o.exec i w).1 = r at hstep ⊢
  cases hstep with
  | same events_ => exact .inl (events_ ▸ h)
  | noted write _ events_ =>
    rw [events_] at h
    rcases List.mem_append.mp h with hold | hnew
    · exact .inl hold
    · obtain rfl := List.mem_singleton.mp hnew
      exact .inr ⟨rfl, .inl write⟩
  | appended write _ _ events_ =>
    rw [events_] at h
    rcases List.mem_append.mp h with hold | hnew
    · exact .inl hold
    · obtain rfl := List.mem_singleton.mp hnew
      exact .inr ⟨rfl, .inr ⟨_, write⟩⟩
  | linked _ _ _ events_ => exact .inl (events_ ▸ h)

end FerrumGate
