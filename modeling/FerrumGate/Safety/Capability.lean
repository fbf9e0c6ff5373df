import FerrumGate.Safety.Pairs

/-!
# A capability is used once

An authorization consumes its capability in the transaction that inserts the execution; a
revocation closes it by a conditional update, or by an unconditional one when the service does not
find it. The handlers decide on leases they loaded before, and none of that matters: what counts is
the status in the row when a statement runs, and no statement makes a capability `Active` again.

* `capability_single_use`: for one capability, over every run from the empty store.
* `CapabilityInv.step` carries it. The mark of `capMarkUsed` after the transaction is the one other
  write of `Used`; it never finds the row `Active`, because its process has just consumed it.
-/

namespace FerrumGate

open Interleave Interleave.Rows

variable {served : Request} {requests : Nat → Request} {t : Knowledge} {o : Op} {i : Input}
  {w : World} {log : GatewayLog} {p : Nat}
  {id : CapabilityId}

/-- The stored status of a capability. -/
def World.capabilityStatus (w : World) (id : CapabilityId) : Option CapabilityStatus :=
  (find w.capabilities id).map (·.status)

/-- A statement that revokes the capability. -/
def Op.revokes (id : CapabilityId) : Op → Bool
  | .revokeIfActive capability _ => capability = id
  | .updateCapability lease => lease.capabilityId = id && lease.status = .revoked
  | _ => false

/-- The entry is a successful revocation of the capability. -/
def revoked (id : CapabilityId) (x : Reply Op Op.Result) : Bool :=
  x.1.revokes id && x.1.announces x.2

/-- The capability is stored, and no longer `Active`. -/
def Closed (w : World) (id : CapabilityId) : Prop :=
  ∃ row, find w.capabilities id = some row ∧ row.status ≠ .active

/-- A stored execution references the capability. -/
def Referenced (w : World) (id : CapabilityId) : Prop :=
  ∃ e x, find w.executions e = some x ∧ x.capabilityId = id

theorem closed_step (ht : Trusted w t) (hmay : may served t o) (h : Closed w id) :
    Closed (o.exec i w).2 id := by
  obtain ⟨row, hrow, hstatus⟩ := h
  obtain ⟨row', hrow', hlater⟩ := capability_lasting_step (i := i) ht hmay hrow
  exact ⟨row', hrow', hlater.inactive hstatus⟩

theorem referenced_step (ht : Trusted w t) (hmay : may served t o) (h : Referenced w id) :
    Referenced (o.exec i w).2 id := by
  obtain ⟨e, x, hx, hid⟩ := h
  obtain ⟨x', hx', hsame⟩ := execution_identity_step (i := i) ht hmay hx
  exact ⟨e, x', hx', hsame.2.2.2.trans hid⟩

/-! ## The transaction of an authorization -/

/-- The three writes of `record_authorization`. -/
structure AuthorizedIn (w w' : World) (lease : CapabilityLease) (x : ExecutionRecord)
    (outbox : LifecycleOutboxRecord) (now : Timestamp) : Prop where
  consumed : ∃ row, find w.capabilities lease.capabilityId = some row ∧ row.status = .active ∧
    now < row.expiresAt ∧ w'.capabilities = put w.capabilities { row with status := .used }
  inserted : find w.executions x.executionId = none ∧ w'.executions = w.executions ++ [x]
  recorded : w'.outbox = w.outbox ++ [.fresh outbox]

/-- **All three, or nothing.** -/
theorem recordAuthorization_atomic (lease : CapabilityLease) (x : ExecutionRecord)
    (outbox : LifecycleOutboxRecord) (now : Timestamp) (i : Input) (w : World) :
    (((Op.recordAuthorization lease x outbox now).exec i w).1 = .ok true ∧
        AuthorizedIn w ((Op.recordAuthorization lease x outbox now).exec i w).2 lease x outbox now) ∨
      (((Op.recordAuthorization lease x outbox now).exec i w).1 ≠ .ok true ∧
        ((Op.recordAuthorization lease x outbox now).exec i w).2 = w) := by
  rcases exec_effect (.recordAuthorization lease x outbox now) i w with ⟨_, hw⟩ | ⟨hquiet, hq⟩
  · generalize ((Op.recordAuthorization lease x outbox now).exec i w).1 = r at hw ⊢
    generalize ((Op.recordAuthorization lease x outbox now).exec i w).2 = w' at hw ⊢
    cases hw with
    | recordAuthorization found active unexpired new _ _ =>
      exact .inl ⟨rfl, ⟨_, found, active, unexpired, rfl⟩, ⟨new, rfl⟩, rfl⟩
  · refine .inr ⟨fun hok => ?_, hq⟩
    rw [hok] at hquiet
    cases hquiet

variable {lease : CapabilityLease} {x : ExecutionRecord} {outbox : LifecycleOutboxRecord}
  {now : Timestamp}

theorem AuthorizedIn.used {w' : World} (h : AuthorizedIn w w' lease x outbox now) :
    ∃ row, find w'.capabilities lease.capabilityId = some row ∧ row.status = .used ∧
      now < row.expiresAt := by
  obtain ⟨row, found, _, unexpired, hput⟩ := h.consumed
  have hkey : row.capabilityId = lease.capabilityId := find_key found
  refine ⟨{ row with status := .used }, ?_, rfl, unexpired⟩
  rw [hput, ← hkey]
  exact find_put_self (v := { row with status := .used }) (hkey ▸ found)

theorem AuthorizedIn.stored {w' : World} (h : AuthorizedIn w w' lease x outbox now) :
    find w'.executions x.executionId = some x := by
  rw [h.inserted.2]
  exact find_append_self h.inserted.1

/-- What an entry of a successful authorization did in its step. -/
theorem authorizedIn_of_ok
    (h : ((Op.recordAuthorization lease x outbox now).exec i w).1 = .ok true) :
    AuthorizedIn w ((Op.recordAuthorization lease x outbox now).exec i w).2 lease x outbox now := by
  rcases recordAuthorization_atomic lease x outbox now i w with ⟨_, hdone⟩ | ⟨hno, _⟩
  · exact hdone
  · exact absurd h hno

/-! ## The invariant -/

/-- What a run keeps about all capabilities. -/
structure CapabilityInv (log : GatewayLog) (w : World) : Prop where
  used : ∀ {id row}, find w.capabilities id = some row → row.status = .used → Referenced w id
  referenced : ∀ {e x}, find w.executions e = some x → Closed w x.capabilityId
  unique : ∀ {e e' x y}, find w.executions e = some x → find w.executions e' = some y →
    x.capabilityId = y.capabilityId → e = e'
  revoked : ∀ {q x id}, (q, x) ∈ log → revoked id x = true → Closed w id
  consumed : ∀ {q lease x outbox now},
    (q, ⟨.recordAuthorization lease x outbox now, .ok true⟩) ∈ log →
    Closed w lease.capabilityId ∧
      ∃ y, find w.executions x.executionId = some y ∧ y.capabilityId = lease.capabilityId
  authorized : ∀ {e x}, find w.executions e = some x → ∃ q lease x₀ outbox now,
    (q, ⟨.recordAuthorization lease x₀ outbox now, .ok true⟩) ∈ log ∧
      lease.capabilityId = x.capabilityId ∧ x₀.executionId = e

theorem CapabilityInv.start : CapabilityInv [] {} where
  used h := by cases h
  referenced h := by cases h
  unique h := by cases h
  revoked h := absurd h List.not_mem_nil
  consumed h := absurd h List.not_mem_nil
  authorized h := by cases h

/-- A successful revocation leaves a row that is not `Active`. -/
theorem closed_of_revoked (ht : Trusted w t) (hmay : may served t o)
    (h : revoked id ⟨o, (o.exec i w).1⟩ = true) : Closed (o.exec i w).2 id := by
  simp only [FerrumGate.revoked, Bool.and_eq_true] at h
  obtain ⟨hrevokes, hannounces⟩ := h
  have hw := exec_wrote hannounces
  generalize (o.exec i w).1 = r at hw
  generalize (o.exec i w).2 = w' at hw ⊢
  cases o with
  | revokeIfActive capability revokedAt =>
    obtain rfl : capability = id := by simpa [Op.revokes] using hrevokes
    cases hw with
    | @revokeIfActive _ _ _ row found _ _ =>
      have hkey : row.capabilityId = capability := find_key found
      subst hkey
      exact ⟨_, find_put_self (v := { row with status := .revoked, revokedAt := some revokedAt })
        found, by simp⟩
  | updateCapability lease =>
    obtain ⟨rfl, hstatus⟩ : lease.capabilityId = id ∧ lease.status = .revoked := by
      simpa [Op.revokes] using hrevokes
    cases hw with
    | updateCapability =>
      -- the lease was read, so there is a row to overwrite
      obtain ⟨read, revokedAt, hread, rfl⟩ := CapabilityWrite.overwrite_inv hmay
      obtain ⟨stored, hstored, _, _⟩ := ht.capability hread
      exact ⟨_, find_put_self (v := { read with status := .revoked, revokedAt := some revokedAt })
        hstored, by simp⟩
  | _ => cases hrevokes

/-- A minted capability is `Active`. -/
theorem CapabilityWrite.mint_active (h : CapabilityWrite served t (.insertCapability lease)) :
    lease.status = .active := by
  generalize ho : Op.insertCapability lease = o at h
  cases h with
  | mint =>
    cases ho
    rfl
  | _ => cases ho

/-- `Used` is written together with an execution. -/
theorem CapabilityInv.used_step (h : CapabilityInv log w) (ht : Trusted w (own p log))
    (hmay : may (requests p) (own p log) o) {row : CapabilityLease}
    (hrow : find (o.exec i w).2.capabilities id = some row) (hused : row.status = .used) :
    Referenced (o.exec i w).2 id := by
  have hreferenced := fun hr : Referenced w id => referenced_step (i := i) ht hmay hr
  have hstep := capability_step (i := i) (w := w) hmay id
  rw [hrow] at hstep
  generalize hold : find w.capabilities id = row₀ at hstep
  generalize hr : (o.exec i w).1 = r at hstep
  cases hstep with
  | same => exact hreferenced (h.used hold hused)
  | minted _ write =>
    rw [write.mint_active] at hused
    cases hused
  | consumed hid write =>
    have hdone := authorizedIn_of_ok hr
    exact ⟨_, _, hdone.stored, write.capability.trans hid⟩
  | markedUsed hid authorized active =>
    obtain ⟨⟨row', hrow', hclosed⟩, _⟩ := h.consumed (mem_own.mp authorized)
    rw [hid, hold] at hrow'
    cases Option.some.inj hrow'
    exact absurd active hclosed
  | revoked => cases hused
  | overwritten => cases hused

/-- An execution that appears in a step consumes an `Active` capability. -/
theorem fresh_of_new (hmay : may served t o) {e : ExecutionId}
    (hnone : find w.executions e = none) (hx : find (o.exec i w).2.executions e = some x) :
    ¬ Closed w x.capabilityId ∧ Closed (o.exec i w).2 x.capabilityId ∧
      ∀ e' y, find w.executions e' = none → find (o.exec i w).2.executions e' = some y → e' = e := by
  obtain ⟨lease, outbox, now, heq, hcapability, hid⟩ := authorized_of_new hmay hnone hx
  obtain ⟨rfl, hr⟩ := Sigma.mk.inj heq
  have hdone := authorizedIn_of_ok (eq_of_heq hr)
  refine ⟨?_, ?_, ?_⟩
  · rintro ⟨row, hrow, hclosed⟩
    obtain ⟨row', found, active, _⟩ := hdone.consumed
    rw [← hcapability, found] at hrow
    cases Option.some.inj hrow
    exact hclosed active
  · obtain ⟨row, found, hused, _⟩ := hdone.used
    exact ⟨row, hcapability ▸ found, by rw [hused]; simp⟩
  · intro e' y hnone' hy
    rw [hdone.inserted.2] at hy
    rcases find_append_cases hdone.inserted.1 e' with ⟨hkey, _, _⟩ | ⟨_, hsame⟩
    · have hkey' : x.executionId = e' := hkey
      rw [← hkey', hid]
    · rw [hsame, hnone'] at hy
      cases hy

theorem CapabilityInv.step (h : CapabilityInv log w) (ht : Trusted w (own p log))
    (hmay : may (requests p) (own p log) o) :
    CapabilityInv ((p, ⟨o, (o.exec i w).1⟩) :: log) (o.exec i w).2 where
  used := h.used_step ht hmay
  referenced := by
    intro e x hx
    cases hold : find w.executions e with
    | none => exact (fresh_of_new hmay hold hx).2.1
    | some y =>
      obtain ⟨x', hx', hsame⟩ := execution_identity_step (i := i) ht hmay hold
      cases Option.some.inj (hx.symm.trans hx')
      rw [hsame.2.2.2]
      exact closed_step ht hmay (h.referenced hold)
  unique := by
    intro e e' x y hx hy hsameCapability
    cases hold : find w.executions e with
    | none =>
      obtain ⟨hopen, _, honly⟩ := fresh_of_new hmay hold hx
      cases hold' : find w.executions e' with
      | none => exact (honly e' y hold' hy).symm
      | some y₀ =>
        obtain ⟨y', hy', hsame⟩ := execution_identity_step (i := i) ht hmay hold'
        cases Option.some.inj (hy.symm.trans hy')
        rw [hsameCapability, hsame.2.2.2] at hopen
        exact absurd (h.referenced hold') hopen
    | some x₀ =>
      obtain ⟨x', hx', hsame⟩ := execution_identity_step (i := i) ht hmay hold
      cases Option.some.inj (hx.symm.trans hx')
      cases hold' : find w.executions e' with
      | none =>
        have hopen := (fresh_of_new hmay hold' hy).1
        rw [← hsameCapability, hsame.2.2.2] at hopen
        exact absurd (h.referenced hold) hopen
      | some y₀ =>
        obtain ⟨y', hy', hsame'⟩ := execution_identity_step (i := i) ht hmay hold'
        cases Option.some.inj (hy.symm.trans hy')
        refine h.unique hold hold' ?_
        rw [← hsame.2.2.2, hsameCapability, hsame'.2.2.2]
  revoked := by
    intro q x id hmem hrevoked
    rcases List.mem_cons.mp hmem with heq | hold
    · obtain ⟨-, rfl⟩ := Prod.mk.inj heq
      exact closed_of_revoked ht hmay hrevoked
    · exact closed_step ht hmay (h.revoked hold hrevoked)
  consumed := by
    intro q lease x outbox now hmem
    rcases List.mem_cons.mp hmem with heq | hold
    · obtain ⟨-, hx⟩ := Prod.mk.inj heq
      obtain ⟨rfl, hr⟩ := Sigma.mk.inj hx
      have hdone := authorizedIn_of_ok (eq_of_heq hr).symm
      obtain ⟨row, found, hused, _⟩ := hdone.used
      exact ⟨⟨row, found, by rw [hused]; simp⟩,
        ⟨_, hdone.stored, AuthorizationWrite.capability hmay⟩⟩
    · obtain ⟨hclosed, y, hy, hcapability⟩ := h.consumed hold
      obtain ⟨y', hy', hsame⟩ := execution_identity_step (i := i) ht hmay hy
      exact ⟨closed_step ht hmay hclosed, y', hy', hsame.2.2.2.trans hcapability⟩
  authorized := by
    intro e x hx
    cases hold : find w.executions e with
    | none =>
      obtain ⟨lease, outbox, now, heq, hcapability, hid⟩ := authorized_of_new hmay hold hx
      exact ⟨p, lease, x, outbox, now, by rw [heq]; exact List.mem_cons_self, hcapability, hid⟩
    | some y =>
      obtain ⟨x', hx', hsame⟩ := execution_identity_step (i := i) ht hmay hold
      cases Option.some.inj (hx.symm.trans hx')
      obtain ⟨q, lease, x₀, outbox, now, hmem, hcapability, hid⟩ := h.authorized hold
      exact ⟨q, lease, x₀, outbox, now, List.mem_cons_of_mem _ hmem,
        hcapability.trans hsame.2.2.2.symm, hid⟩

theorem capabilityInv_of_conforms (h : Conforms requests {} log w) : CapabilityInv log w := by
  induction h with
  | start => exact .start
  | step p o i hb hmay ih => exact ih.step ((pairInv_of_conforms hb).2 p) hmay

/-! ## Whole runs -/

section Runs

variable {state : AppState} {requests : Nat → Request} {s : Schedule} {newer older : GatewayLog}
  {lease : CapabilityLease} {x : ExecutionRecord} {outbox : LifecycleOutboxRecord}
  {now : Timestamp}

/-- Right after the transaction of an authorization. -/
theorem run_after_authorization
    (hlog : (run state requests {} s).log =
      newer ++ (p, ⟨.recordAuthorization lease x outbox now, .ok true⟩) :: older) :
    ∃ s₁ s₂, s = s₁ ++ s₂ ∧ ∃ row,
      find (run state requests {} s₁).world.capabilities lease.capabilityId = some row ∧
        row.status = .used ∧ now < row.expiresAt := by
  obtain ⟨s₁, s₂, rfl, hlast⟩ := Config.run_prefix _ (c := Gateway.start state requests {}) rfl hlog
  have hconforms := run_conforms state requests {} s₁
  rw [show (run state requests {} s₁).log = _ from hlast] at hconforms
  obtain ⟨w₁, i, _, _, hr, hworld⟩ := hconforms.last
  refine ⟨s₁, s₂, rfl, ?_⟩
  rw [hworld]
  exact (authorizedIn_of_ok hr.symm).used

/-- An authorization found the capability `Active`: it had not been revoked. -/
theorem not_revoked_before
    (hlog : (run state requests {} s).log =
      newer ++ (p, ⟨.recordAuthorization lease x outbox now, .ok true⟩) :: older) :
    ∀ entry ∈ older, revoked lease.capabilityId entry.2 = false := by
  intro entry hentry
  obtain ⟨w₁, i, hb, _, hr⟩ := (run_conforms state requests {} s).entry hlog
  obtain ⟨row, found, active, _⟩ := (authorizedIn_of_ok hr.symm).consumed
  by_contra hrevoked
  obtain ⟨row', hrow', hclosed⟩ := (capabilityInv_of_conforms hb).revoked hentry
    (Bool.not_eq_false _ ▸ hrevoked)
  cases Option.some.inj (found.symm.trans hrow')
  exact hclosed active

/-- The expiry that the transaction compared with is the one stored at the end. -/
theorem unexpired_at_end
    (hlog : (run state requests {} s).log =
      newer ++ (p, ⟨.recordAuthorization lease x outbox now, .ok true⟩) :: older) :
    ∃ row, find (run state requests {} s).world.capabilities lease.capabilityId = some row ∧
      now < row.expiresAt := by
  obtain ⟨s₁, s₂, rfl, row, hrow, _, hunexpired⟩ := run_after_authorization hlog
  refine run_preserves (P := fun _ w => ∃ row,
    find w.capabilities lease.capabilityId = some row ∧ now < row.expiresAt) ?_ s₁ s₂
    ⟨row, hrow, hunexpired⟩
  rintro log w p o i hb hmay ⟨row, hrow, hunexpired⟩
  obtain ⟨row', hrow', hlater⟩ :=
    capability_lasting_step (i := i) ((pairInv_of_conforms hb).2 p) hmay hrow
  exact ⟨row', hrow', by rw [hlater.expiresAt]; exact hunexpired⟩

/-- An execution references the capability exactly when its status became `Used`. -/
theorem referenced_iff_used (state : AppState) (requests : Nat → Request) (s : Schedule)
    (id : CapabilityId) :
    Referenced (run state requests {} s).world id ↔ ∃ s₁ s₂, s = s₁ ++ s₂ ∧
      (run state requests {} s₁).world.capabilityStatus id = some .used := by
  constructor
  · rintro ⟨e, x, hx, rfl⟩
    obtain ⟨q, lease, x₀, outbox, now, hmem, hcapability, -⟩ :=
      (capabilityInv_of_conforms (run_conforms state requests {} s)).authorized hx
    obtain ⟨newer, older, hlog⟩ := List.append_of_mem hmem
    obtain ⟨s₁, s₂, hs, row, hrow, hused, -⟩ := run_after_authorization hlog
    refine ⟨s₁, s₂, hs, ?_⟩
    unfold World.capabilityStatus
    rw [← hcapability, hrow, Option.map_some, hused]
  · rintro ⟨s₁, s₂, rfl, hused⟩
    obtain ⟨row, hrow, hstatus⟩ := Option.map_eq_some_iff.mp hused
    have hreferenced :=
      (capabilityInv_of_conforms (run_conforms state requests {} s₁)).used hrow hstatus
    exact run_preserves (P := fun _ w => Referenced w id)
      (fun p _ _ hb hmay h => referenced_step ((pairInv_of_conforms hb).2 p) hmay h) s₁ s₂
      hreferenced

end Runs

/-- **A capability is used once.** Over every run of the gateway from the empty store: at most one
execution references the capability, and one does exactly when its status became `Used`; no
authorization succeeds after a successful revocation, or with a clock reading at the store that is
not before the expiry; and the three writes of an authorization happen together or not at all. -/
theorem capability_single_use (state : AppState) (requests : Nat → Request) (s : Schedule)
    (id : CapabilityId) :
    (∀ e e' x y, find (run state requests {} s).world.executions e = some x →
      find (run state requests {} s).world.executions e' = some y →
      x.capabilityId = id → y.capabilityId = id → e = e') ∧
    (Referenced (run state requests {} s).world id ↔ ∃ s₁ s₂, s = s₁ ++ s₂ ∧
      (run state requests {} s₁).world.capabilityStatus id = some .used) ∧
    (∀ newer p lease x outbox now older, (run state requests {} s).log =
        newer ++ (p, ⟨.recordAuthorization lease x outbox now, .ok true⟩) :: older →
      lease.capabilityId = id →
      (∀ entry ∈ older, revoked id entry.2 = false) ∧
        ∃ row, find (run state requests {} s).world.capabilities id = some row ∧
          now < row.expiresAt) ∧
    ∀ lease x outbox now i w,
      (((Op.recordAuthorization lease x outbox now).exec i w).1 = .ok true ∧
        AuthorizedIn w ((Op.recordAuthorization lease x outbox now).exec i w).2 lease x outbox
          now) ∨
      (((Op.recordAuthorization lease x outbox now).exec i w).1 ≠ .ok true ∧
        ((Op.recordAuthorization lease x outbox now).exec i w).2 = w) := by
  have hinv := capabilityInv_of_conforms (run_conforms state requests {} s)
  refine ⟨?_, referenced_iff_used state requests s id, ?_, recordAuthorization_atomic⟩
  · intro e e' x y hx hy hxid hyid
    exact hinv.unique hx hy (hxid.trans hyid.symm)
  · rintro newer p lease x outbox now older hlog rfl
    exact ⟨not_revoked_before hlog, unexpired_at_end hlog⟩

end FerrumGate
