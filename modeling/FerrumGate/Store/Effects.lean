import FerrumGate.Store.Op

/-!
# What an operation can do to the world

`Wrote o r w w'` says, operation by operation, what has happened when the reply `r` announces a
write: which rows were found, which guards they passed, and what the tables are afterwards.
`exec_effect` says that this is all there is: an operation whose reply announces a write has done
just that, and any other leaves the world as it was. Invariants are proved from it, without looking
into the statements again.
-/

namespace FerrumGate

open Interleave Interleave.Rows

/-- A row of the outbox as it is inserted. -/
def OutboxRow.fresh (record : LifecycleOutboxRecord) : OutboxRow :=
  { record, leaseOwner := none, leaseExpiresAt := none, leaseGeneration := 0 }

/-- The contract part of a lifecycle transition. -/
inductive ContractWrite (w : World) (outbox : LifecycleOutboxRecord) :
    Option RollbackContract → List RollbackContract → Prop
  | none : ContractWrite w outbox none w.contracts
  | update {contract row : RollbackContract}
      (previous : outbox.previousRollbackState = some row.state)
      (found : find w.contracts contract.contractId = some row)
      (valid : isValidRollbackTransition row.state contract.state = true) :
      ContractWrite w outbox (some contract) (put w.contracts contract)
  | insert {contract : RollbackContract} (previous : outbox.previousRollbackState = .none)
      (new : find w.contracts contract.contractId = .none)
      (owned : find w.executions contract.executionId ≠ .none) :
      ContractWrite w outbox (some contract) (w.contracts ++ [contract])

/-- What has happened when the reply announces a write. -/
inductive Wrote : (o : Op) → o.Result → World → World → Prop
  | newUuid {w : World} :
      Wrote .newUuid w.nextUuid w { w with nextUuid := w.nextUuid + 1 }
  | insertIntent {w : World} {x : IntentEnvelope} (new : find w.intents x.intentId = none) :
      Wrote (.insertIntent x) (.ok ()) w { w with intents := w.intents ++ [x] }
  | insertProposal {w : World} {x : ActionProposal} (new : find w.proposals x.proposalId = none) :
      Wrote (.insertProposal x) (.ok ()) w { w with proposals := w.proposals ++ [x] }
  | insertCapability {w : World} {x : CapabilityLease}
      (new : find w.capabilities x.capabilityId = none) :
      Wrote (.insertCapability x) (.ok ()) w { w with capabilities := w.capabilities ++ [x] }
  | insertApproval {w : World} {x : ApprovalRequest} (new : find w.approvals x.approvalId = none) :
      Wrote (.insertApproval x) (.ok ()) w { w with approvals := w.approvals ++ [x] }
  | insertHold {w : World} {x : QuarantineHold} (new : find w.holds x.holdId = none) :
      Wrote (.insertHold x) (.ok ()) w { w with holds := w.holds ++ [x] }
  | updateCapability {w : World} {x : CapabilityLease} :
      Wrote (.updateCapability x) (.ok ()) w { w with capabilities := put w.capabilities x }
  | updateStatusIfActive {w : World} {id : CapabilityId} {status : CapabilityStatus}
      {now : Timestamp} {row : CapabilityLease} (found : find w.capabilities id = some row)
      (active : row.status = .active) (unexpired : now < row.expiresAt) :
      Wrote (.updateStatusIfActive id status now) (.ok true) w
        { w with capabilities := put w.capabilities { row with status := status } }
  | revokeIfActive {w : World} {id : CapabilityId} {revokedAt : Timestamp} {row : CapabilityLease}
      (found : find w.capabilities id = some row) (active : row.status = .active)
      (unexpired : revokedAt < row.expiresAt) :
      Wrote (.revokeIfActive id revokedAt) (.ok true) w
        { w with
          capabilities :=
            put w.capabilities { row with status := .revoked, revokedAt := some revokedAt } }
  | resolveApproval {w : World} {x row : ApprovalRequest} {now : Timestamp}
      (found : find w.approvals x.approvalId = some row) (pending : row.state = .pending)
      (unexpired : now < row.expiresAt) :
      Wrote (.resolveApproval x now) (.ok true) w { w with approvals := put w.approvals x }
  | expireApproval {w : World} {x row : ApprovalRequest}
      (found : find w.approvals x.approvalId = some row) (pending : row.state = .pending) :
      Wrote (.expireApproval x) (.ok true) w { w with approvals := put w.approvals x }
  | writeHoldIfPending {w : World} {x row : QuarantineHold}
      (found : find w.holds x.holdId = some row) (pending : row.state = .pending) :
      Wrote (.writeHoldIfPending x) (.ok true) w { w with holds := put w.holds x }
  | compareAndSetState {w : World} {id : ExecutionId} {expected : List ExecutionState}
      {new : ExecutionState} {now : Timestamp} {row : ExecutionRecord}
      (found : find w.executions id = some row) (mem : row.state ∈ expected) :
      Wrote (.compareAndSetState id expected new now) (.ok true) w
        { w with
          executions :=
            put w.executions
              { row with
                state := new
                finishedAt := if executionStateIsTerminal new then some now else row.finishedAt } }
  | recordLifecycleTransition {w : World} {x row : ExecutionRecord}
      {contract : Option RollbackContract} {outbox : LifecycleOutboxRecord}
      {contracts : List RollbackContract}
      (previous : outbox.previousExecutionState = some row.state)
      (valid : isValidExecutionTransition row.state x.state = true)
      (found : find w.executions x.executionId = some row)
      (contractWrite : ContractWrite { w with executions := put w.executions x } outbox contract
        contracts)
      (newKey : ∀ r ∈ w.outbox, r.record.idempotencyKey ≠ outbox.idempotencyKey)
      (newId : find w.outbox outbox.outboxId = none) :
      Wrote (.recordLifecycleTransition x contract outbox) (.ok ()) w
        { w with
          executions := put w.executions x
          contracts := contracts
          outbox := w.outbox ++ [.fresh outbox] }
  | recordAuthorization {w : World} {capability row : CapabilityLease} {x : ExecutionRecord}
      {outbox : LifecycleOutboxRecord} {now : Timestamp}
      (found : find w.capabilities capability.capabilityId = some row)
      (active : row.status = .active) (unexpired : now < row.expiresAt)
      (new : find w.executions x.executionId = none)
      (newKey : ∀ r ∈ w.outbox, r.record.idempotencyKey ≠ outbox.idempotencyKey)
      (newId : find w.outbox outbox.outboxId = none) :
      Wrote (.recordAuthorization capability x outbox now) (.ok true) w
        { w with
          capabilities := put w.capabilities { row with status := .used }
          executions := w.executions ++ [x]
          outbox := w.outbox ++ [.fresh outbox] }
  | claimPendingReconciliation {w : World} {limit : Nat} {owner : String} {now ttl : Timestamp} :
      Wrote (.claimPendingReconciliation limit owner now ttl)
        (.ok (w.claimPendingReconciliation limit owner now ttl).1) w
        (w.claimPendingReconciliation limit owner now ttl).2
  | renewReconciliationLease {w : World} {lease : LifecycleOutboxLease}
      {expiresAt now : Timestamp} {row : OutboxRow}
      (found : find w.outbox lease.outboxId = some row)
      (held : World.OutboxRow.heldBy row lease now = true)
      (pending : World.OutboxRow.pending row = true) :
      Wrote (.renewReconciliationLease lease expiresAt now) (.ok true) w
        { w with outbox := put w.outbox { row with leaseExpiresAt := some expiresAt } }
  | updateOutboxRecord {w : World} {record : LifecycleOutboxRecord}
      {clearLease allowLeaseOverride : Bool} {row : OutboxRow}
      (found : find w.outbox record.outboxId = some row)
      (open_ : allowLeaseOverride = true ∨ row.leaseOwner = none)
      (known : World.eventKnown record w) :
      Wrote (.updateOutboxRecord record clearLease allowLeaseOverride) (.ok true) w
        { w with outbox := put w.outbox (World.OutboxRow.write row record clearLease) }
  | updateOutboxRecordClaimed {w : World} {record : LifecycleOutboxRecord}
      {lease : LifecycleOutboxLease} {clearLease : Bool} {now : Timestamp} {row : OutboxRow}
      (found : find w.outbox lease.outboxId = some row)
      (held : World.OutboxRow.heldBy row lease now = true) (known : World.eventKnown record w) :
      Wrote (.updateOutboxRecordClaimed record lease clearLease now) (.ok true) w
        { w with outbox := put w.outbox (World.OutboxRow.write row record clearLease) }
  | appendEvent {w : World} {event : ProvenanceEvent} (new : find w.events event.eventId = none) :
      Wrote (.appendEvent event) (.ok ()) w { w with events := w.events ++ [event] }
  | appendEventWithEdges {w : World} {event : ProvenanceEvent} {edges : List ProvenanceEdge}
      (new : find w.events event.eventId = none)
      (into : ∀ edge ∈ edges, edge.toEventId = event.eventId)
      (known : ∀ edge ∈ edges, find (w.events ++ [event]) edge.fromEventId ≠ none) :
      Wrote (.appendEventWithEdges event edges) (.ok ()) w
        { w with events := w.events ++ [event], edges := w.edges ++ edges }
  | appendEdges {w : World} {id : EventId} {edges : List ProvenanceEdge}
      (target : find w.events id ≠ none)
      (known : ∀ edge ∈ edges, find w.events edge.fromEventId ≠ none) :
      Wrote (.appendEdges id edges) (.ok ()) w
        { w with edges := w.edges ++ edges.map ({ · with toEventId := id }) }

/-- The reply announces a write. -/
def Op.announces : (o : Op) → o.Result → Bool
  | .newUuid, _ => true
  | .insertIntent _, .ok _ => true
  | .insertProposal _, .ok _ => true
  | .insertCapability _, .ok _ => true
  | .insertApproval _, .ok _ => true
  | .insertHold _, .ok _ => true
  | .updateCapability _, .ok _ => true
  | .updateStatusIfActive .., .ok b => b
  | .revokeIfActive .., .ok b => b
  | .resolveApproval .., .ok b => b
  | .expireApproval _, .ok b => b
  | .writeHoldIfPending _, .ok b => b
  | .compareAndSetState .., .ok b => b
  | .recordLifecycleTransition .., .ok _ => true
  | .recordAuthorization .., .ok b => b
  | .claimPendingReconciliation .., .ok _ => true
  | .renewReconciliationLease .., .ok b => b
  | .updateOutboxRecord .., .ok b => b
  | .updateOutboxRecordClaimed .., .ok b => b
  | .appendEvent _, .ok _ => true
  | .appendEventWithEdges .., .ok _ => true
  | .appendEdges .., .ok _ => true
  | _, _ => false

/-! ## The statements, inverted -/

variable {now : Timestamp}

section Statements

variable {α : Type} (i : Input) (w : World)

theorem writeWith_cases (f : World → α × World) :
    writeWith i f w = (.error .database, w) ∨ writeWith i f w = (.ok (f w).1, (f w).2) := by
  unfold writeWith
  split <;> simp

theorem transactWith_cases (f : World → Except StoreError (α × World)) :
    (∃ e, transactWith i f w = (.error e, w)) ∨
      ∃ a w', f w = .ok (a, w') ∧ transactWith i f w = (.ok a, w') := by
  unfold transactWith
  split
  · exact .inl ⟨_, rfl⟩
  · cases hf : f w with
    | error e => exact .inl ⟨e, rfl⟩
    | ok r => exact .inr ⟨r.1, r.2, rfl, rfl⟩

theorem commitWith_cases (f : World → Except StoreError World) :
    (∃ e, commitWith i f w = (.error e, w)) ∨
      ∃ w', f w = .ok w' ∧ commitWith i f w = (.ok (), w') := by
  rcases transactWith_cases i w (fun w => (f w).map ((), ·)) with ⟨e, h⟩ | ⟨a, w', hf, h⟩
  · exact .inl ⟨e, h⟩
  · cases hw : f w with
    | error e => simp [hw, Except.map] at hf
    | ok w'' =>
      have hw' : w'' = w' := by simpa [hw, Except.map] using hf
      subst hw'
      exact .inr ⟨w'', rfl, h⟩

variable {w} {w' : World}

theorem World.insertIntent_ok {x : IntentEnvelope} (h : World.insertIntent x w = .ok w') :
    find w.intents x.intentId = none ∧ w' = { w with intents := w.intents ++ [x] } := by
  simp only [World.insertIntent, bind_ok, ensure_ok] at h
  obtain ⟨_, hnew, h⟩ := h
  exact ⟨hnew, (Except.ok.inj h).symm⟩

theorem World.insertProposal_ok {x : ActionProposal} (h : World.insertProposal x w = .ok w') :
    find w.proposals x.proposalId = none ∧ w' = { w with proposals := w.proposals ++ [x] } := by
  simp only [World.insertProposal, bind_ok, ensure_ok] at h
  obtain ⟨_, hnew, _, _, h⟩ := h
  exact ⟨hnew, (Except.ok.inj h).symm⟩

theorem World.insertCapability_ok {x : CapabilityLease}
    (h : World.insertCapability x w = .ok w') :
    find w.capabilities x.capabilityId = none ∧
      w' = { w with capabilities := w.capabilities ++ [x] } := by
  simp only [World.insertCapability, bind_ok, ensure_ok] at h
  obtain ⟨_, hnew, _, _, _, _, h⟩ := h
  exact ⟨hnew, (Except.ok.inj h).symm⟩

theorem World.insertApproval_ok {x : ApprovalRequest} (h : World.insertApproval x w = .ok w') :
    find w.approvals x.approvalId = none ∧ w' = { w with approvals := w.approvals ++ [x] } := by
  simp only [World.insertApproval, bind_ok, ensure_ok] at h
  obtain ⟨_, hnew, _, _, _, _, h⟩ := h
  exact ⟨hnew, (Except.ok.inj h).symm⟩

theorem World.insertHold_ok {x : QuarantineHold} (h : World.insertHold x w = .ok w') :
    find w.holds x.holdId = none ∧ w' = { w with holds := w.holds ++ [x] } := by
  simp only [World.insertHold, bind_ok, ensure_ok] at h
  obtain ⟨_, hnew, _, _, _, _, h⟩ := h
  exact ⟨hnew, (Except.ok.inj h).symm⟩

variable {x : ExecutionRecord}

theorem World.updateExecution_ok {expected : ExecutionState}
    (h : World.updateExecution expected x w = .ok w') :
    ∃ row, find w.executions x.executionId = some row ∧ row.state = expected ∧
      w' = { w with executions := put w.executions x } := by
  unfold World.updateExecution at h
  cases hf : find w.executions x.executionId with
  | none => simp [hf] at h
  | some row =>
    by_cases hs : row.state = expected
    · exact ⟨row, rfl, hs, by simpa [hf, hs] using h.symm⟩
    · simp [hf, hs] at h

theorem World.updateContract_ok {expected : RollbackState} {c : RollbackContract}
    (h : World.updateContract expected c w = .ok w') :
    ∃ row, find w.contracts c.contractId = some row ∧ row.state = expected ∧
      w' = { w with contracts := put w.contracts c } := by
  unfold World.updateContract at h
  cases hf : find w.contracts c.contractId with
  | none => simp [hf] at h
  | some row =>
    by_cases hs : row.state = expected
    · exact ⟨row, rfl, hs, by simpa [hf, hs] using h.symm⟩
    · simp [hf, hs] at h

theorem World.insertContract_ok {c : RollbackContract} (h : World.insertContract c w = .ok w') :
    find w.contracts c.contractId = none ∧ find w.executions c.executionId ≠ none ∧
      w' = { w with contracts := w.contracts ++ [c] } := by
  simp only [World.insertContract, bind_ok, ensure_ok] at h
  obtain ⟨_, hnew, _, _, _, _, _, howned, h⟩ := h
  exact ⟨hnew, howned, (Except.ok.inj h).symm⟩

variable {r : LifecycleOutboxRecord}

theorem World.insertOutboxRecord_ok (h : World.insertOutboxRecord r w = .ok w') :
    (∀ row ∈ w.outbox, row.record.idempotencyKey ≠ r.idempotencyKey) ∧
      find w.outbox r.outboxId = none ∧ w' = { w with outbox := w.outbox ++ [.fresh r] } := by
  simp only [World.insertOutboxRecord, bind_ok, ensure_ok] at h
  obtain ⟨_, hkey, _, hid, _, _, _, _, h⟩ := h
  exact ⟨hkey, hid, (Except.ok.inj h).symm⟩

variable {outbox : LifecycleOutboxRecord}

theorem World.checkTransition_ok {c : Option RollbackContract} {expected : ExecutionState}
    (h : World.checkTransition x c outbox = .ok expected) :
    outbox.previousExecutionState = some expected ∧
      isValidExecutionTransition expected x.state = true ∧
      ∀ contract previous, c = some contract → outbox.previousRollbackState = some previous →
        isValidRollbackTransition previous contract.state = true := by
  unfold World.checkTransition at h
  cases hp : outbox.previousExecutionState with
  | none => simp [hp, throw, throwThe, MonadExceptOf.throw] at h
  | some s =>
    simp only [hp, bind_ok, ensure_ok] at h
    obtain ⟨_, hv, h⟩ := h
    cases hc : c with
    | none =>
      simp only [hc] at h
      cases Except.ok.inj h
      exact ⟨rfl, hv, fun _ _ hc' => absurd hc' (by simp)⟩
    | some contract =>
      cases hr : outbox.previousRollbackState with
      | none =>
        simp only [hc, hr] at h
        cases Except.ok.inj h
        exact ⟨rfl, hv, fun _ _ _ hr' => absurd hr' (by simp)⟩
      | some previous =>
        simp only [hc, hr, bind_ok, ensure_ok] at h
        obtain ⟨_, hrv, h⟩ := h
        cases Except.ok.inj h
        refine ⟨rfl, hv, fun contract' previous' hc' hr' => ?_⟩
        cases hc'
        cases hr'
        exact hrv

theorem World.recordLifecycleTransition_ok {c : Option RollbackContract}
    (h : World.recordLifecycleTransition x c outbox w = .ok w') :
    Wrote (.recordLifecycleTransition x c outbox) (.ok ()) w w' := by
  simp only [World.recordLifecycleTransition, bind_ok] at h
  obtain ⟨expected, hcheck, w₁, hx, h⟩ := h
  obtain ⟨hprev, hvalid, hroll⟩ := World.checkTransition_ok hcheck
  obtain ⟨row, hfound, rfl, rfl⟩ := World.updateExecution_ok hx
  cases c with
  | none =>
    obtain ⟨hkey, hid, rfl⟩ := World.insertOutboxRecord_ok h
    exact .recordLifecycleTransition hprev hvalid hfound .none hkey hid
  | some contract =>
    simp only [bind_ok] at h
    obtain ⟨w₂, hc, ho⟩ := h
    cases hp : outbox.previousRollbackState with
    | none =>
      simp only [hp, World.writeContract] at hc
      obtain ⟨hnew, howned, rfl⟩ := World.insertContract_ok hc
      obtain ⟨hkey, hid, rfl⟩ := World.insertOutboxRecord_ok ho
      exact .recordLifecycleTransition hprev hvalid hfound (.insert hp hnew howned) hkey hid
    | some previous =>
      simp only [hp, World.writeContract] at hc
      obtain ⟨crow, hcrow, rfl, rfl⟩ := World.updateContract_ok hc
      obtain ⟨hkey, hid, rfl⟩ := World.insertOutboxRecord_ok ho
      exact .recordLifecycleTransition hprev hvalid hfound
        (.update hp hcrow (hroll _ _ rfl hp)) hkey hid

theorem World.insertExecution_ok (h : World.insertExecution x w = .ok w') :
    find w.executions x.executionId = none ∧
      w' = { w with executions := w.executions ++ [x] } := by
  simp only [World.insertExecution, bind_ok, ensure_ok] at h
  obtain ⟨_, hnew, _, _, _, _, _, _, h⟩ := h
  exact ⟨hnew, (Except.ok.inj h).symm⟩

theorem World.updateWhere_cases {V : Type} (found : Option V) (guard : V → Prop)
    [DecidablePred guard] (write : V → World) (w : World) :
    (∃ row, found = some row ∧ guard row ∧
      World.updateWhere found guard write w = (true, write row)) ∨
      World.updateWhere found guard write w = (false, w) := by
  unfold World.updateWhere
  cases found with
  | none => exact .inr rfl
  | some row =>
    by_cases hg : guard row
    · exact .inl ⟨row, rfl, hg, if_pos hg⟩
    · exact .inr (if_neg hg)

variable {b : Bool}

theorem World.recordAuthorization_ok {capability : CapabilityLease}
    (h : World.recordAuthorization capability x outbox now w = .ok (b, w')) :
    (b = true ∧ Wrote (.recordAuthorization capability x outbox now) (.ok true) w w') ∨
      (b = false ∧ w' = w) := by
  unfold World.recordAuthorization World.updateStatusIfActive at h
  rcases World.updateWhere_cases (find w.capabilities capability.capabilityId)
    (fun lease => lease.status = .active ∧ now < lease.expiresAt)
    (fun lease => { w with
      capabilities := put w.capabilities { lease with status := .used } }) w with
    ⟨row, hfound, hguard, hu⟩ | hu
  · simp only [hu, bind_ok] at h
    obtain ⟨w₂, hx, w₃, ho, h⟩ := h
    cases Except.ok.inj h
    obtain ⟨hnew, rfl⟩ := World.insertExecution_ok hx
    obtain ⟨hkey, hid, rfl⟩ := World.insertOutboxRecord_ok ho
    exact .inl ⟨rfl, .recordAuthorization hfound hguard.1 hguard.2 hnew hkey hid⟩
  · simp only [hu] at h
    cases Except.ok.inj h
    exact .inr ⟨rfl, rfl⟩

theorem World.updateOutboxRecord_ok {clear override : Bool}
    (h : World.updateOutboxRecord r clear override w = .ok (b, w')) :
    (b = true ∧ Wrote (.updateOutboxRecord r clear override) (.ok true) w w') ∨
      (b = false ∧ w' = w) := by
  unfold World.updateOutboxRecord at h
  cases hf : find w.outbox r.outboxId with
  | none =>
    simp only [hf] at h
    cases Except.ok.inj h
    exact .inr ⟨rfl, rfl⟩
  | some row =>
    by_cases hg : override = true ∨ row.leaseOwner = none
    · simp only [hf, hg, if_true, bind_ok, ensure_ok] at h
      obtain ⟨_, hknown, h⟩ := h
      cases Except.ok.inj h
      exact .inl ⟨rfl, .updateOutboxRecord hf hg hknown⟩
    · simp only [hf, hg, if_false] at h
      cases Except.ok.inj h
      exact .inr ⟨rfl, rfl⟩

theorem World.updateOutboxRecordClaimed_ok {lease : LifecycleOutboxLease} {clear : Bool}
    (h : World.updateOutboxRecordClaimed r lease clear now w = .ok (b, w')) :
    (b = true ∧ Wrote (.updateOutboxRecordClaimed r lease clear now) (.ok true) w w') ∨
      (b = false ∧ w' = w) := by
  unfold World.updateOutboxRecordClaimed at h
  cases hf : find w.outbox lease.outboxId with
  | none =>
    simp only [hf] at h
    cases Except.ok.inj h
    exact .inr ⟨rfl, rfl⟩
  | some row =>
    by_cases hg : World.OutboxRow.heldBy row lease now = true
    · simp only [hf, hg, if_true, bind_ok, ensure_ok] at h
      obtain ⟨_, hknown, h⟩ := h
      cases Except.ok.inj h
      exact .inl ⟨rfl, .updateOutboxRecordClaimed hf hg hknown⟩
    · simp only [hf, hg] at h
      cases Except.ok.inj h
      exact .inr ⟨rfl, rfl⟩

theorem World.appendEvent_ok {event : ProvenanceEvent} (h : World.appendEvent event w = .ok w') :
    find w.events event.eventId = none ∧ w' = { w with events := w.events ++ [event] } := by
  simp only [World.appendEvent, bind_ok, ensure_ok] at h
  obtain ⟨_, hnew, h⟩ := h
  exact ⟨hnew, (Except.ok.inj h).symm⟩

theorem World.appendEdges_ok {id : EventId} {edges : List ProvenanceEdge}
    (h : World.appendEdges id edges w = .ok w') :
    find w.events id ≠ none ∧ (∀ edge ∈ edges, find w.events edge.fromEventId ≠ none) ∧
      w' = { w with edges := w.edges ++ edges.map ({ · with toEventId := id }) } := by
  simp only [World.appendEdges, bind_ok, ensure_ok] at h
  obtain ⟨_, htarget, _, hknown, h⟩ := h
  exact ⟨htarget, hknown, (Except.ok.inj h).symm⟩

theorem World.appendEventWithEdges_ok {event : ProvenanceEvent} {edges : List ProvenanceEdge}
    (h : World.appendEventWithEdges event edges w = .ok w') :
    Wrote (.appendEventWithEdges event edges) (.ok ()) w w' := by
  simp only [World.appendEventWithEdges, bind_ok, ensure_ok] at h
  obtain ⟨_, hinto, w₁, he, hd⟩ := h
  obtain ⟨hnew, rfl⟩ := World.appendEvent_ok he
  obtain ⟨_, hknown, rfl⟩ := World.appendEdges_ok hd
  have hmap : edges.map ({ · with toEventId := event.eventId }) = edges := by
    refine (List.map_congr_left fun edge hedge => ?_).trans (List.map_id edges)
    rw [← hinto edge hedge]
    rfl
  rw [hmap]
  exact .appendEventWithEdges hnew hinto hknown

end Statements

/-! ## The operations -/

/-- A claim of records touches the outbox only. -/
theorem World.claimAll_eq (owner : String) (now expiresAt : Timestamp)
    (ids : List LifecycleOutboxId) (w : World) :
    (World.claimAll owner now expiresAt ids w).2 =
      { w with outbox := (World.claimAll owner now expiresAt ids w).2.outbox } := by
  induction ids generalizing w with
  | nil => rfl
  | cons id ids ih =>
    change (World.claimAll owner now expiresAt ids (World.claimOne owner now expiresAt id w).2).2 =
      { w with outbox := (World.claimAll owner now expiresAt ids
        (World.claimOne owner now expiresAt id w).2).2.outbox }
    rw [ih]
    unfold World.claimOne
    split
    · rfl
    · split <;> rfl

theorem World.claimPendingReconciliation_eq (limit : Nat) (owner : String) (now ttl : Timestamp)
    (w : World) :
    (w.claimPendingReconciliation limit owner now ttl).2 =
      { w with outbox := (w.claimPendingReconciliation limit owner now ttl).2.outbox } :=
  World.claimAll_eq owner now (now + ttl) _ w

/-- A row a reconciler has just leased. -/
def OutboxRow.leased (row : OutboxRow) (owner : String) (expiresAt : Timestamp) : OutboxRow :=
  { row with
    leaseOwner := some owner
    leaseExpiresAt := some expiresAt
    leaseGeneration := row.leaseGeneration + 1 }

/-- The claim that goes with it. -/
def OutboxRow.claim (row : OutboxRow) (owner : String) (expiresAt : Timestamp) :
    LifecycleOutboxClaim :=
  ⟨⟨row.record.outboxId, owner, row.leaseGeneration + 1, expiresAt⟩, row.record⟩

/-- One turn of the claiming loop: the row is leased, or nothing happens. -/
theorem World.claimOne_cases (owner : String) (now expiresAt : Timestamp) (id : LifecycleOutboxId)
    (w : World) :
    (∃ row, find w.outbox id = some row ∧ World.OutboxRow.leaseFree row now = true ∧
      World.claimOne owner now expiresAt id w =
        (some (row.claim owner expiresAt),
          { w with outbox := put w.outbox (row.leased owner expiresAt) })) ∨
      World.claimOne owner now expiresAt id w = (none, w) := by
  unfold World.claimOne
  cases hfind : find w.outbox id with
  | none => exact .inr rfl
  | some row =>
    by_cases hfree : World.OutboxRow.leaseFree row now = true
    · have hid : row.record.outboxId = id := find_key hfind
      subst hid
      exact .inl ⟨row, rfl, hfree, if_pos hfree⟩
    · exact .inr (if_neg hfree)

/-- What the claiming loop does to one row: nothing, or it is leased once and handed out. -/
theorem World.claimAll_row {owner : String} {expiresAt : Timestamp} (ht : now < expiresAt)
    (ids : List LifecycleOutboxId) (w : World) (k : LifecycleOutboxId) :
    (find (World.claimAll owner now expiresAt ids w).2.outbox k = find w.outbox k ∧
      ∀ claim ∈ (World.claimAll owner now expiresAt ids w).1, claim.lease.outboxId ≠ k) ∨
    ∃ row, find w.outbox k = some row ∧ World.OutboxRow.leaseFree row now = true ∧
      find (World.claimAll owner now expiresAt ids w).2.outbox k =
        some (row.leased owner expiresAt) ∧
      row.claim owner expiresAt ∈ (World.claimAll owner now expiresAt ids w).1 ∧
      ∀ claim ∈ (World.claimAll owner now expiresAt ids w).1, claim.lease.outboxId = k →
        claim = row.claim owner expiresAt := by
  induction ids generalizing w with
  | nil => exact .inl ⟨rfl, fun claim h => absurd h (by simp [World.claimAll])⟩
  | cons id ids ih =>
    have hunfold : World.claimAll owner now expiresAt (id :: ids) w =
        ((World.claimOne owner now expiresAt id w).1.toList ++
          (World.claimAll owner now expiresAt ids (World.claimOne owner now expiresAt id w).2).1,
        (World.claimAll owner now expiresAt ids (World.claimOne owner now expiresAt id w).2).2) :=
      rfl
    rw [hunfold]
    rcases World.claimOne_cases owner now expiresAt id w with ⟨row, hrow, hfree, hone⟩ | hone
    · rw [hone]
      have hid : row.record.outboxId = id := find_key hrow
      rcases find_put_cases (v := row.leased owner expiresAt) (hid ▸ hrow) k with
        ⟨hk, hold, hput⟩ | ⟨hk, hput⟩
      · -- the row just leased: its lease is not free any more, so the rest leaves it alone
        have hk' : row.record.outboxId = k := hk
        rcases ih { w with outbox := put w.outbox (row.leased owner expiresAt) } with
          ⟨hsame, hnone⟩ | ⟨row', hrow', hfree', _⟩
        · refine .inr ⟨row, hold, hfree, hsame.trans hput, by simp, fun claim hclaim hck => ?_⟩
          rcases List.mem_append.mp hclaim with hmem | hmem
          · exact Option.some.inj (Option.mem_toList.mp hmem).symm
          · exact absurd hck (hnone claim hmem)
        · have hleased : row' = row.leased owner expiresAt :=
            Option.some.inj (hrow'.symm.trans hput)
          rw [hleased] at hfree'
          have : expiresAt ≤ now := by
            simpa [World.OutboxRow.leaseFree, OutboxRow.leased] using hfree'
          exact absurd ht (not_lt.mpr this)
      · have hk' : row.record.outboxId ≠ k := hk
        rcases ih { w with outbox := put w.outbox (row.leased owner expiresAt) } with
          ⟨hsame, hnone⟩ | ⟨row', hrow', hfree', hfound, hmem', hclaims⟩
        · refine .inl ⟨hsame.trans hput, fun claim hclaim => ?_⟩
          rcases List.mem_append.mp hclaim with hmem | hmem
          · cases Option.some.inj (Option.mem_toList.mp hmem)
            exact hk'
          · exact hnone claim hmem
        · refine .inr ⟨row', hput.symm.trans hrow', hfree', hfound, List.mem_append_right _ hmem',
            fun claim hclaim hck => ?_⟩
          rcases List.mem_append.mp hclaim with hmem | hmem
          · cases Option.some.inj (Option.mem_toList.mp hmem)
            exact absurd hck hk'
          · exact hclaims claim hmem hck
    · rw [hone]
      exact ih w

/-- The claiming loop writes no record. -/
theorem World.claimAll_records (owner : String) (now expiresAt : Timestamp)
    (ids : List LifecycleOutboxId) (w : World) (k : LifecycleOutboxId) :
    (find (World.claimAll owner now expiresAt ids w).2.outbox k).map (·.record) =
      (find w.outbox k).map (·.record) := by
  induction ids generalizing w with
  | nil => rfl
  | cons id ids ih =>
    refine (ih (World.claimOne owner now expiresAt id w).2).trans ?_
    rcases World.claimOne_cases owner now expiresAt id w with ⟨row, hrow, _, hone⟩ | hone
    · rw [hone]
      have hid : row.record.outboxId = id := find_key hrow
      rcases find_put_cases (v := row.leased owner expiresAt) (hid ▸ hrow) k with
        ⟨_, hold, hput⟩ | ⟨_, hput⟩
      · rw [hold]
        exact (congrArg (Option.map OutboxRow.record) hput).trans rfl
      · exact congrArg (Option.map OutboxRow.record) hput
    · rw [hone]

theorem World.claimAll_keys (owner : String) (now expiresAt : Timestamp)
    (ids : List LifecycleOutboxId) (w : World) :
    (World.claimAll owner now expiresAt ids w).2.outbox.map Keyed.key =
      w.outbox.map Keyed.key := by
  induction ids generalizing w with
  | nil => rfl
  | cons id ids ih =>
    refine (ih (World.claimOne owner now expiresAt id w).2).trans ?_
    rcases World.claimOne_cases owner now expiresAt id w with ⟨row, _, _, hone⟩ | hone
    · rw [hone]
      exact keys_put w.outbox (row.leased owner expiresAt)
    · rw [hone]

/-- A claim holds the stored record, and one that was asked for. -/
theorem World.claimAll_mem {owner : String} {expiresAt : Timestamp} {ids : List LifecycleOutboxId}
    {w : World} {claim : LifecycleOutboxClaim}
    (h : claim ∈ (World.claimAll owner now expiresAt ids w).1) :
    claim.lease.outboxId ∈ ids ∧
      (find w.outbox claim.lease.outboxId).map (·.record) = some claim.record := by
  induction ids generalizing w with
  | nil => cases h
  | cons id ids ih =>
    have hcases : claim ∈ (World.claimOne owner now expiresAt id w).1.toList ∨
        claim ∈ (World.claimAll owner now expiresAt ids
          (World.claimOne owner now expiresAt id w).2).1 := List.mem_append.mp h
    rcases hcases with hone | hrest
    · rcases World.claimOne_cases owner now expiresAt id w with ⟨row, hrow, _, heq⟩ | heq
      · rw [heq] at hone
        cases Option.some.inj (Option.mem_toList.mp hone)
        have hid : row.record.outboxId = id := find_key hrow
        refine ⟨List.mem_cons.mpr (.inl hid), ?_⟩
        have hfind : find w.outbox row.record.outboxId = some row := hid ▸ hrow
        exact congrArg (Option.map OutboxRow.record) hfind
      · rw [heq] at hone
        cases hone
    · obtain ⟨hmem, hrecord⟩ := ih hrest
      refine ⟨List.mem_cons_of_mem _ hmem, hrecord.symm.trans ?_ |>.symm⟩
      exact World.claimAll_records owner now expiresAt [id] w _

/-- An operation does what its reply announces, or nothing. -/
def Effect (o : Op) (w : World) (result : o.Result × World) : Prop :=
  (o.announces result.1 = true ∧ Wrote o result.1 w result.2) ∨
    (o.announces result.1 = false ∧ result.2 = w)

section Effects

variable {i : Input} {w : World}

theorem effect_read {α : Type} (f : World → α) : (readWith i f w).2 = w := by
  unfold readWith
  split <;> rfl

/-- A commit makes the world that the statement gives, or fails and leaves it. -/
theorem effect_commit {f : World → Except StoreError World}
    {P : Except StoreError Unit × World → Prop} (hfailed : ∀ e, P (.error e, w))
    (hdone : ∀ w', f w = .ok w' → P (.ok (), w')) : P (commitWith i f w) := by
  rcases commitWith_cases i w f with ⟨e, h⟩ | ⟨w', hf, h⟩ <;> rw [h]
  · exact hfailed e
  · exact hdone w' hf

/-- The same for a transaction with an answer. -/
theorem effect_transact {f : World → Except StoreError (Bool × World)}
    {P : Except StoreError Bool × World → Prop} (hfailed : ∀ e, P (.error e, w))
    (hdone : ∀ b w', f w = .ok (b, w') → P (.ok b, w')) : P (transactWith i f w) := by
  rcases transactWith_cases i w f with ⟨e, h⟩ | ⟨b, w', hf, h⟩ <;> rw [h]
  · exact hfailed e
  · exact hdone b w' hf

/-- A conditional update does its write, or nothing. -/
theorem effect_updateWhere {V : Type} {f : World → Bool × World} {found : Option V}
    {guard : V → Prop} [DecidablePred guard] {write : V → World}
    {P : Except StoreError Bool × World → Prop}
    (hf : f w = World.updateWhere found guard write w)
    (hnothing : ∀ r, r = .ok false ∨ r = .error .database → P (r, w))
    (hdone : ∀ row, found = some row → guard row → P (.ok true, write row)) :
    P (writeWith i f w) := by
  rcases writeWith_cases i w f with h | h <;> rw [h]
  · exact hnothing _ (.inr rfl)
  · rcases World.updateWhere_cases found guard write w with ⟨row, hrow, hg, hu⟩ | hu <;> rw [hf, hu]
    · exact hdone row hrow hg
    · exact hnothing _ (.inl rfl)

end Effects

/-- **Every operation does what its reply announces, or nothing.** -/
theorem exec_effect (o : Op) (i : Input) (w : World) : Effect o w (o.exec i w) := by
  cases o with
  | readClock => exact .inr ⟨rfl, rfl⟩
  | newUuid => exact .inl ⟨rfl, .newUuid⟩
  | getIntent id => exact .inr ⟨rfl, effect_read _⟩
  | getProposal id => exact .inr ⟨rfl, effect_read _⟩
  | getCapability id => exact .inr ⟨rfl, effect_read _⟩
  | getApproval id => exact .inr ⟨rfl, effect_read _⟩
  | getHold id => exact .inr ⟨rfl, effect_read _⟩
  | getHoldByProposal id => exact .inr ⟨rfl, effect_read _⟩
  | getExecution id => exact .inr ⟨rfl, effect_read _⟩
  | getContract id => exact .inr ⟨rfl, effect_read _⟩
  | getOutbox id => exact .inr ⟨rfl, effect_read _⟩
  | getEvent id => exact .inr ⟨rfl, effect_read _⟩
  | queryEvents q => exact .inr ⟨rfl, effect_read _⟩
  | getEdgesTo id => exact .inr ⟨rfl, effect_read _⟩
  | listStaleInFlight b s l => exact .inr ⟨rfl, effect_read _⟩
  | listStaleApprovals n c b => exact .inr ⟨rfl, effect_read _⟩
  | listStaleHolds n c b => exact .inr ⟨rfl, effect_read _⟩
  | leaseIsCurrent l n => exact .inr ⟨rfl, effect_read _⟩
  | appendAudit => exact .inr ⟨rfl, effect_read _⟩
  | evaluatePolicy p => exact .inr ⟨rfl, rfl⟩
  | checkMfa a => exact .inr ⟨rfl, rfl⟩
  | deadline => exact .inr ⟨rfl, rfl⟩
  | adapterPrepare r => exact .inr ⟨rfl, rfl⟩
  | generatePlan a t => exact .inr ⟨rfl, rfl⟩
  | adapterExecute c p => exact .inr ⟨rfl, rfl⟩
  | adapterVerify c => exact .inr ⟨rfl, rfl⟩
  | adapterCompensate c => exact .inr ⟨rfl, rfl⟩
  | insertIntent x =>
    refine effect_commit (P := Effect (.insertIntent x) w) (fun _ => .inr ⟨rfl, rfl⟩)
      fun w' hf => ?_
    obtain ⟨hnew, rfl⟩ := World.insertIntent_ok hf
    exact .inl ⟨rfl, .insertIntent hnew⟩
  | insertProposal x =>
    refine effect_commit (P := Effect (.insertProposal x) w) (fun _ => .inr ⟨rfl, rfl⟩)
      fun w' hf => ?_
    obtain ⟨hnew, rfl⟩ := World.insertProposal_ok hf
    exact .inl ⟨rfl, .insertProposal hnew⟩
  | insertCapability x =>
    refine effect_commit (P := Effect (.insertCapability x) w) (fun _ => .inr ⟨rfl, rfl⟩)
      fun w' hf => ?_
    obtain ⟨hnew, rfl⟩ := World.insertCapability_ok hf
    exact .inl ⟨rfl, .insertCapability hnew⟩
  | insertApproval x =>
    refine effect_commit (P := Effect (.insertApproval x) w) (fun _ => .inr ⟨rfl, rfl⟩)
      fun w' hf => ?_
    obtain ⟨hnew, rfl⟩ := World.insertApproval_ok hf
    exact .inl ⟨rfl, .insertApproval hnew⟩
  | insertHold x =>
    refine effect_commit (P := Effect (.insertHold x) w) (fun _ => .inr ⟨rfl, rfl⟩) fun w' hf => ?_
    obtain ⟨hnew, rfl⟩ := World.insertHold_ok hf
    exact .inl ⟨rfl, .insertHold hnew⟩
  | updateCapability x =>
    change Effect (.updateCapability x) w
      (writeWith i (fun w => ((), World.updateCapability x w)) w)
    rcases writeWith_cases i w (fun w => ((), World.updateCapability x w)) with h | h <;> rw [h]
    · exact .inr ⟨rfl, rfl⟩
    · exact .inl ⟨rfl, .updateCapability⟩
  | updateStatusIfActive id status now =>
    refine effect_updateWhere (P := Effect (.updateStatusIfActive id status now) w)
      rfl ?_ fun row hrow hg => ?_
    · rintro _ (rfl | rfl) <;> exact .inr ⟨rfl, rfl⟩
    · exact .inl ⟨rfl, .updateStatusIfActive hrow hg.1 hg.2⟩
  | revokeIfActive id revokedAt =>
    refine effect_updateWhere (P := Effect (.revokeIfActive id revokedAt) w)
      rfl ?_ fun row hrow hg => ?_
    · rintro _ (rfl | rfl) <;> exact .inr ⟨rfl, rfl⟩
    · exact .inl ⟨rfl, .revokeIfActive hrow hg.1 hg.2⟩
  | resolveApproval x now =>
    refine effect_updateWhere (P := Effect (.resolveApproval x now) w) rfl ?_ fun row hrow hg => ?_
    · rintro _ (rfl | rfl) <;> exact .inr ⟨rfl, rfl⟩
    · exact .inl ⟨rfl, .resolveApproval hrow hg.1 hg.2⟩
  | expireApproval x =>
    refine effect_updateWhere (P := Effect (.expireApproval x) w) rfl ?_ fun row hrow hg => ?_
    · rintro _ (rfl | rfl) <;> exact .inr ⟨rfl, rfl⟩
    · exact .inl ⟨rfl, .expireApproval hrow hg⟩
  | writeHoldIfPending x =>
    refine effect_updateWhere (P := Effect (.writeHoldIfPending x) w) rfl ?_ fun row hrow hg => ?_
    · rintro _ (rfl | rfl) <;> exact .inr ⟨rfl, rfl⟩
    · exact .inl ⟨rfl, .writeHoldIfPending hrow hg⟩
  | compareAndSetState id expected new now =>
    refine effect_updateWhere (P := Effect (.compareAndSetState id expected new now) w)
      rfl ?_ fun row hrow hg => ?_
    · rintro _ (rfl | rfl) <;> exact .inr ⟨rfl, rfl⟩
    · exact .inl ⟨rfl, .compareAndSetState hrow hg⟩
  | recordLifecycleTransition x c outbox =>
    refine effect_commit (P := Effect (.recordLifecycleTransition x c outbox) w)
      (fun _ => .inr ⟨rfl, rfl⟩) fun w' hf => ?_
    exact .inl ⟨rfl, World.recordLifecycleTransition_ok hf⟩
  | recordAuthorization capability x outbox now =>
    refine effect_transact (P := Effect (.recordAuthorization capability x outbox now) w)
      (fun _ => .inr ⟨rfl, rfl⟩) fun b w' hf => ?_
    rcases World.recordAuthorization_ok hf with ⟨rfl, hw⟩ | ⟨rfl, rfl⟩
    · exact .inl ⟨rfl, hw⟩
    · exact .inr ⟨rfl, rfl⟩
  | claimPendingReconciliation limit owner now ttl =>
    change Effect (.claimPendingReconciliation limit owner now ttl) w
      (writeWith i (World.claimPendingReconciliation limit owner now ttl) w)
    rcases writeWith_cases i w (World.claimPendingReconciliation limit owner now ttl) with h | h <;>
      rw [h]
    · exact .inr ⟨rfl, rfl⟩
    · exact .inl ⟨rfl, .claimPendingReconciliation⟩
  | renewReconciliationLease lease expiresAt now =>
    refine effect_updateWhere (P := Effect (.renewReconciliationLease lease expiresAt now) w)
      rfl ?_ fun row hrow hg => ?_
    · rintro _ (rfl | rfl) <;> exact .inr ⟨rfl, rfl⟩
    · exact .inl ⟨rfl, .renewReconciliationLease hrow hg.1 hg.2⟩
  | updateOutboxRecord r clear override =>
    refine effect_transact (P := Effect (.updateOutboxRecord r clear override) w)
      (fun _ => .inr ⟨rfl, rfl⟩) fun b w' hf => ?_
    rcases World.updateOutboxRecord_ok hf with ⟨rfl, hw⟩ | ⟨rfl, rfl⟩
    · exact .inl ⟨rfl, hw⟩
    · exact .inr ⟨rfl, rfl⟩
  | updateOutboxRecordClaimed r lease clear now =>
    refine effect_transact (P := Effect (.updateOutboxRecordClaimed r lease clear now) w)
      (fun _ => .inr ⟨rfl, rfl⟩) fun b w' hf => ?_
    rcases World.updateOutboxRecordClaimed_ok hf with ⟨rfl, hw⟩ | ⟨rfl, rfl⟩
    · exact .inl ⟨rfl, hw⟩
    · exact .inr ⟨rfl, rfl⟩
  | appendEvent event =>
    refine effect_commit (P := Effect (.appendEvent event) w) (fun _ => .inr ⟨rfl, rfl⟩)
      fun w' hf => ?_
    obtain ⟨hnew, rfl⟩ := World.appendEvent_ok hf
    exact .inl ⟨rfl, .appendEvent hnew⟩
  | appendEventWithEdges event edges =>
    refine effect_commit (P := Effect (.appendEventWithEdges event edges) w)
      (fun _ => .inr ⟨rfl, rfl⟩) fun w' hf => ?_
    exact .inl ⟨rfl, World.appendEventWithEdges_ok hf⟩
  | appendEdges id edges =>
    refine effect_commit (P := Effect (.appendEdges id edges) w) (fun _ => .inr ⟨rfl, rfl⟩)
      fun w' hf => ?_
    obtain ⟨htarget, hknown, rfl⟩ := World.appendEdges_ok hf
    exact .inl ⟨rfl, .appendEdges htarget hknown⟩

/-- What holds after every write, and if nothing is done, holds after every operation. -/
theorem exec_rule {o : Op} {i : Input} {w : World} {P : o.Result → World → Prop}
    (wrote : ∀ r w', Wrote o r w w' → P r w') (quiet : ∀ r, o.announces r = false → P r w) :
    P (o.exec i w).1 (o.exec i w).2 := by
  rcases exec_effect o i w with ⟨_, hw⟩ | ⟨hquiet, hsame⟩
  · exact wrote _ _ hw
  · rw [hsame]
    exact quiet _ hquiet

/-- The reply announced a write, and it has been made. -/
theorem exec_wrote {o : Op} {i : Input} {w : World} (h : o.announces (o.exec i w).1 = true) :
    Wrote o (o.exec i w).1 w (o.exec i w).2 := by
  rcases exec_effect o i w with ⟨_, hw⟩ | ⟨hq, _⟩
  · exact hw
  · exact absurd (h.symm.trans hq) (by simp)

end FerrumGate
