import FerrumGate.Civil.Instant
import FerrumGate.Interleave.Image
import FerrumGate.Store.World

/-!
# Times as text columns

SQLite has no type for a time. The lease, expiry and creation columns are `TEXT`; stored values and
bound parameters are what `to_rfc3339` writes, and a statement compares two such texts character by
character.

The statements of `sqlite/lifecycle_outbox.rs`, `sqlite/capabilities.rs`, `sqlite/approvals.rs` and
`sqlite/quarantine.rs` that do so are stated here once for any ordered type of the time columns, one
constructor of `Statement` for each, over the columns they read and write. At `Civil.Instant` they
compare times, at `List Char` they are what the database runs.

* `exec_map`: along an embedding of orders a statement gives the same answer, and the tables after
  it correspond.
* `text_statements_decide_as_time_statements`: so for the texts of instants, over any sequence of
  statements, in whatever way several clients interleave.
* `claimable_columns` and the other `_columns`: at numbers these are the statements of `World`, which
  has no `reconciliation_lease_stats` and no page of approvals.

Two statements are not among them because they do not compare two such texts: the filter for active
tokens, which compares with `datetime('now')`, and the page of intents after a cursor
(`before_cursor_iff`).
-/

namespace FerrumGate.TimeColumns

open Interleave Interleave.Rows

/-! ## The columns -/

/-- Columns of `lifecycle_outbox`. -/
structure OutboxColumns (τ : Type) where
  outboxId : LifecycleOutboxId
  status : LifecycleOutboxStatus
  createdAt : τ
  leaseOwner : Option String
  leaseExpiresAt : Option τ
  leaseGeneration : Nat

/-- Columns of `capabilities`. -/
structure CapabilityColumns (τ : Type) where
  capabilityId : CapabilityId
  status : CapabilityStatus
  expiresAt : τ
  revokedAt : Option τ

/-- Columns of `approvals` and of `quarantine_holds`. -/
structure PendingColumns (ι σ τ : Type) where
  id : ι
  proposalId : ProposalId
  state : σ
  createdAt : τ
  expiresAt : τ

structure Tables (τ : Type) where
  outbox : List (OutboxColumns τ)
  capabilities : List (CapabilityColumns τ)
  approvals : List (PendingColumns ApprovalId ApprovalState τ)
  holds : List (PendingColumns QuarantineHoldId QuarantineHoldState τ)

section Columns

variable {ι σ τ υ : Type}

instance : Keyed (OutboxColumns τ) LifecycleOutboxId := ⟨(·.outboxId)⟩
instance : Keyed (CapabilityColumns τ) CapabilityId := ⟨(·.capabilityId)⟩
instance : Keyed (PendingColumns ι σ τ) ι := ⟨(·.id)⟩

variable (f : τ → υ)

/-- The row with its times written another way. -/
def OutboxColumns.map (row : OutboxColumns τ) : OutboxColumns υ where
  outboxId := row.outboxId
  status := row.status
  createdAt := f row.createdAt
  leaseOwner := row.leaseOwner
  leaseExpiresAt := row.leaseExpiresAt.map f
  leaseGeneration := row.leaseGeneration

@[inherit_doc OutboxColumns.map]
def CapabilityColumns.map (row : CapabilityColumns τ) : CapabilityColumns υ where
  capabilityId := row.capabilityId
  status := row.status
  expiresAt := f row.expiresAt
  revokedAt := row.revokedAt.map f

@[inherit_doc OutboxColumns.map]
def PendingColumns.map (row : PendingColumns ι σ τ) : PendingColumns ι σ υ where
  id := row.id
  proposalId := row.proposalId
  state := row.state
  createdAt := f row.createdAt
  expiresAt := f row.expiresAt

def Tables.map (t : Tables τ) : Tables υ where
  outbox := t.outbox.map (·.map f)
  capabilities := t.capabilities.map (·.map f)
  approvals := t.approvals.map (·.map f)
  holds := t.holds.map (·.map f)

end Columns

/-! ## Conditions and orders -/

section Conditions

variable {ι σ τ : Type} [LinearOrder τ]

/-- `status IN ('PendingProvenance', 'ProvenanceWritten')` -/
def OutboxColumns.pending (row : OutboxColumns τ) : Bool :=
  row.status matches .pendingProvenance | .provenanceWritten

/-- `reconciliation_lease_expires_at IS NULL OR reconciliation_lease_expires_at <= now` -/
def OutboxColumns.leaseFree (now : τ) (row : OutboxColumns τ) : Bool :=
  row.leaseExpiresAt.all (· ≤ now)

/-- `reconciliation_lease_expires_at > now`, which a NULL is not. -/
def OutboxColumns.leaseRuns (now : τ) (row : OutboxColumns τ) : Bool :=
  row.leaseExpiresAt.any (now < ·)

/-- `reconciliation_lease_expires_at <= now`, which a NULL is not either. -/
def OutboxColumns.leaseOver (now : τ) (row : OutboxColumns τ) : Bool :=
  row.leaseExpiresAt.any (· ≤ now)

/-- What a lease statement names of the lease. -/
structure LeaseKey where
  outboxId : LifecycleOutboxId
  owner : String
  generation : Nat

/-- `… lease_owner = ? AND … lease_generation = ? AND … lease_expires_at > now` -/
def OutboxColumns.heldBy (lease : LeaseKey) (now : τ) (row : OutboxColumns τ) : Bool :=
  row.leaseOwner = some lease.owner && row.leaseGeneration = lease.generation && row.leaseRuns now

/-- `ORDER BY created_at ASC, outbox_id ASC` -/
def OutboxColumns.oldestFirst (a b : OutboxColumns τ) : Bool :=
  a.createdAt < b.createdAt ∨ a.createdAt = b.createdAt ∧ a.outboxId.uuid ≤ b.outboxId.uuid

/-- `status = 'Active' AND expires_at > now` -/
def CapabilityColumns.activeAt (now : τ) (row : CapabilityColumns τ) : Bool :=
  row.status = .active ∧ now < row.expiresAt

/-- `state = 'Pending' AND expires_at > now` -/
def PendingColumns.resolvable (now : τ) (row : PendingColumns ι ApprovalState τ) : Bool :=
  row.state = .pending ∧ now < row.expiresAt

/-- `state = 'Pending' AND (expires_at < now OR created_at < cutoff)` -/
def PendingColumns.stale [DecidableEq σ] (pending : σ) (now cutoff : τ)
    (row : PendingColumns ι σ τ) : Bool :=
  row.state = pending ∧ (row.expiresAt < now ∨ row.createdAt < cutoff)

/-- `state = 'Pending'`, and `proposal_id = ?` if there is one. -/
def PendingColumns.pendingFor (proposalId : Option ProposalId)
    (row : PendingColumns ι ApprovalState τ) : Bool :=
  row.state = .pending && proposalId.all (row.proposalId = ·)

/-- `(created_at, approval_id) < (createdAfter, idAfter)` -/
def keyBefore (createdAfter : τ) (idAfter : ApprovalId)
    (row : PendingColumns ApprovalId ApprovalState τ) : Bool :=
  row.createdAt < createdAfter ∨ row.createdAt = createdAfter ∧ row.id.uuid < idAfter.uuid

/-- `ORDER BY created_at DESC, approval_id DESC` -/
def newestFirst (a b : PendingColumns ApprovalId ApprovalState τ) : Bool :=
  b.createdAt < a.createdAt ∨ b.createdAt = a.createdAt ∧ b.id.uuid ≤ a.id.uuid

end Conditions

/-! ## The statements -/

/-- A statement, with its parameters. Clock readings are parameters. -/
inductive Statement (τ : Type) where
  /-- The `SELECT` of `claim_pending_reconciliation`. -/
  | selectClaimable (limit : Nat) (now : τ)
  /-- The `UPDATE … RETURNING` of `claim_pending_reconciliation`. -/
  | claim (id : LifecycleOutboxId) (owner : String) (expiresAt now : τ)
  /-- `renew_reconciliation_lease` -/
  | renewReconciliationLease (lease : LeaseKey) (expiresAt now : τ)
  /-- `update_outbox_record_claimed` -/
  | updateOutboxRecordClaimed (lease : LeaseKey) (status : LifecycleOutboxStatus)
      (clearLease : Bool) (now : τ)
  /-- `lease_is_current` -/
  | leaseIsCurrent (lease : LeaseKey) (now : τ)
  /-- `reconciliation_lease_stats` -/
  | reconciliationLeaseStats (now : τ)
  /-- `update_status_if_active`, also in `record_authorization`. -/
  | updateStatusIfActive (id : CapabilityId) (status : CapabilityStatus) (now : τ)
  /-- `revoke_if_active` -/
  | revokeIfActive (id : CapabilityId) (revokedAt : τ)
  /-- The `UPDATE` of `resolve_approval_sqlite`. -/
  | resolveApproval (id : ApprovalId) (state : ApprovalState) (now : τ)
  /-- The `SELECT` of `expire_stale_pending_sqlite` for approvals, and its `UPDATE`. -/
  | selectStaleApprovals (now cutoff : τ) (batchSize : Nat)
  | expireApproval (id : ApprovalId)
  /-- The same for holds. -/
  | selectStaleHolds (now cutoff : τ) (batchSize : Nat)
  | expireHold (id : QuarantineHoldId)
  /-- `list_pending_cursor`, and `list_pending_by_proposal_cursor` for one proposal. -/
  | listPendingCursor (proposalId : Option ProposalId) (createdAfter : τ) (idAfter : ApprovalId)
      (limit : Nat)
  /-- `INSERT`s of rows with new keys. -/
  | insert (rows : Tables τ)

inductive Answer where
  | affected (any : Bool)
  | generation (claimed : Option Nat)
  | outbox (ids : List LifecycleOutboxId)
  | counts (active expired : Nat)
  | approvals (ids : List ApprovalId)
  | holds (ids : List QuarantineHoldId)
  | inserted

def Statement.map {τ υ : Type} (f : τ → υ) : Statement τ → Statement υ
  | selectClaimable limit now => selectClaimable limit (f now)
  | claim id owner expiresAt now => claim id owner (f expiresAt) (f now)
  | renewReconciliationLease lease expiresAt now =>
    renewReconciliationLease lease (f expiresAt) (f now)
  | updateOutboxRecordClaimed lease status clearLease now =>
    updateOutboxRecordClaimed lease status clearLease (f now)
  | leaseIsCurrent lease now => leaseIsCurrent lease (f now)
  | reconciliationLeaseStats now => reconciliationLeaseStats (f now)
  | updateStatusIfActive id status now => updateStatusIfActive id status (f now)
  | revokeIfActive id revokedAt => revokeIfActive id (f revokedAt)
  | resolveApproval id state now => resolveApproval id state (f now)
  | selectStaleApprovals now cutoff batchSize => selectStaleApprovals (f now) (f cutoff) batchSize
  | expireApproval id => expireApproval id
  | selectStaleHolds now cutoff batchSize => selectStaleHolds (f now) (f cutoff) batchSize
  | expireHold id => expireHold id
  | listPendingCursor proposalId createdAfter idAfter limit =>
    listPendingCursor proposalId (f createdAfter) idAfter limit
  | insert rows => insert (rows.map f)

section Exec

variable {τ : Type}

def Tables.append (t new : Tables τ) : Tables τ where
  outbox := t.outbox ++ new.outbox
  capabilities := t.capabilities ++ new.capabilities
  approvals := t.approvals ++ new.approvals
  holds := t.holds ++ new.holds

/-- `rows_affected() > 0`; a statement with the primary key affects one row at most. -/
def affected {V : Type} (row : Option V) : Answer := .affected row.isSome

variable [LinearOrder τ]

/-- The answer to a statement, and the tables after it. -/
def exec : Statement τ → Tables τ → Answer × Tables τ
  | .selectClaimable limit now, t =>
    let rows := selectWhere (fun row => row.pending && row.leaseFree now)
      OutboxColumns.oldestFirst limit t.outbox
    (.outbox (rows.map (·.outboxId)), t)
  | .claim id owner expiresAt now, t =>
    (updateWhere id (·.leaseFree now) (fun row =>
      { row with
        leaseOwner := some owner
        leaseExpiresAt := some expiresAt
        leaseGeneration := row.leaseGeneration + 1 }) t.outbox).map
      (fun row => .generation (row.map (·.leaseGeneration))) ({ t with outbox := · })
  | .renewReconciliationLease lease expiresAt now, t =>
    (updateWhere lease.outboxId (fun row => row.heldBy lease now && row.pending)
      (fun row => { row with leaseExpiresAt := some expiresAt }) t.outbox).map
      affected ({ t with outbox := · })
  | .updateOutboxRecordClaimed lease status clearLease now, t =>
    (updateWhere lease.outboxId (·.heldBy lease now) (fun row =>
      { row with
        status := status
        leaseOwner := if clearLease then none else row.leaseOwner
        leaseExpiresAt := if clearLease then none else row.leaseExpiresAt }) t.outbox).map
      affected ({ t with outbox := · })
  | .leaseIsCurrent lease now, t =>
    (.affected ((find t.outbox lease.outboxId).any (·.heldBy lease now)), t)
  | .reconciliationLeaseStats now, t =>
    let leased := t.outbox.filter fun row => row.pending && row.leaseOwner.isSome
    (.counts (leased.countP (·.leaseRuns now)) (leased.countP (·.leaseOver now)), t)
  | .updateStatusIfActive id status now, t =>
    (updateWhere id (·.activeAt now) (fun row => { row with status := status }) t.capabilities).map
      affected ({ t with capabilities := · })
  | .revokeIfActive id revokedAt, t =>
    (updateWhere id (·.activeAt revokedAt)
      (fun row => { row with status := .revoked, revokedAt := some revokedAt }) t.capabilities).map
      affected ({ t with capabilities := · })
  | .resolveApproval id state now, t =>
    (updateWhere id (·.resolvable now) (fun row => { row with state := state }) t.approvals).map
      affected ({ t with approvals := · })
  | .selectStaleApprovals now cutoff batchSize, t =>
    (.approvals (((t.approvals.filter (·.stale .pending now cutoff)).take batchSize).map (·.id)), t)
  | .expireApproval id, t =>
    (updateWhere id (·.state = .pending) (fun row => { row with state := .expired }) t.approvals).map
      affected ({ t with approvals := · })
  | .selectStaleHolds now cutoff batchSize, t =>
    (.holds (((t.holds.filter (·.stale .pending now cutoff)).take batchSize).map (·.id)), t)
  | .expireHold id, t =>
    (updateWhere id (·.state = .pending) (fun row => { row with state := .expired }) t.holds).map
      affected ({ t with holds := · })
  | .listPendingCursor proposalId createdAfter idAfter limit, t =>
    let rows := selectWhere (fun row => row.pendingFor proposalId &&
      keyBefore createdAfter idAfter row) newestFirst limit t.approvals
    (.approvals (rows.map (·.id)), t)
  | .insert rows, t => (.inserted, t.append rows)

end Exec

/-! ## Another order of the same kind -/

section Embedding

variable {ι σ τ υ : Type} [LinearOrder τ] [LinearOrder υ] (f : τ ↪o υ)

theorem leaseFree_map (now : τ) (row : OutboxColumns τ) :
    (row.map f).leaseFree (f now) = row.leaseFree now := by
  cases h : row.leaseExpiresAt <;> simp [OutboxColumns.leaseFree, OutboxColumns.map, h]

theorem leaseRuns_map (now : τ) (row : OutboxColumns τ) :
    (row.map f).leaseRuns (f now) = row.leaseRuns now := by
  cases h : row.leaseExpiresAt <;> simp [OutboxColumns.leaseRuns, OutboxColumns.map, h]

theorem leaseOver_map (now : τ) (row : OutboxColumns τ) :
    (row.map f).leaseOver (f now) = row.leaseOver now := by
  cases h : row.leaseExpiresAt <;> simp [OutboxColumns.leaseOver, OutboxColumns.map, h]

theorem heldBy_map (lease : LeaseKey) (now : τ) (row : OutboxColumns τ) :
    (row.map f).heldBy lease (f now) = row.heldBy lease now := by
  simp only [OutboxColumns.heldBy, leaseRuns_map]
  rfl

theorem oldestFirst_map (a b : OutboxColumns τ) :
    (a.map f).oldestFirst (b.map f) = a.oldestFirst b := by
  simp [OutboxColumns.oldestFirst, OutboxColumns.map]

theorem activeAt_map (now : τ) (row : CapabilityColumns τ) :
    (row.map f).activeAt (f now) = row.activeAt now := by
  simp [CapabilityColumns.activeAt, CapabilityColumns.map]

theorem resolvable_map (now : τ) (row : PendingColumns ι ApprovalState τ) :
    (row.map f).resolvable (f now) = row.resolvable now := by
  simp [PendingColumns.resolvable, PendingColumns.map]

theorem stale_map [DecidableEq σ] (pending : σ) (now cutoff : τ) (row : PendingColumns ι σ τ) :
    (row.map f).stale pending (f now) (f cutoff) = row.stale pending now cutoff := by
  simp [PendingColumns.stale, PendingColumns.map]

theorem keyBefore_map (createdAfter : τ) (idAfter : ApprovalId)
    (row : PendingColumns ApprovalId ApprovalState τ) :
    keyBefore (f createdAfter) idAfter (row.map f) = keyBefore createdAfter idAfter row := by
  simp [keyBefore, PendingColumns.map]

theorem newestFirst_map (a b : PendingColumns ApprovalId ApprovalState τ) :
    newestFirst (a.map f) (b.map f) = newestFirst a b := by
  simp [newestFirst, PendingColumns.map]

theorem affected_map {V V' : Type} (g : V → V') (row : Option V) :
    affected (row.map g) = affected row := by
  cases row <;> rfl

/-- **A statement decides in the same way in every ordered type of the time columns.** -/
theorem exec_map (s : Statement τ) (t : Tables τ) :
    exec (s.map f) (t.map f) = (exec s t).map id (Tables.map f) := by
  cases s with simp only [Statement.map, exec]
  | selectClaimable limit now =>
    have hguard (row : OutboxColumns τ) : ((row.map f).pending && (row.map f).leaseFree (f now)) =
        (row.pending && row.leaseFree now) := by
      rw [leaseFree_map]
      rfl
    simp only [Tables.map]
    rw [selectWhere_image _ hguard (oldestFirst_map f), List.map_map]
    rfl
  | claim id owner expiresAt now =>
    refine updateWhere_image (OutboxColumns.map f) ?_ (leaseFree_map f now) ?_ ?_ ?_ _ _
    · exact fun _ => rfl
    · exact fun _ => rfl
    · rintro (_ | _) <;> rfl
    · exact fun _ => rfl
  | renewReconciliationLease lease expiresAt now =>
    have hguard (row : OutboxColumns τ) : ((row.map f).heldBy lease (f now) && (row.map f).pending) =
        (row.heldBy lease now && row.pending) := by
      rw [heldBy_map]
      rfl
    refine updateWhere_image (OutboxColumns.map f) ?_ hguard ?_ (affected_map _) ?_ _ _ <;>
      exact fun _ => rfl
  | updateOutboxRecordClaimed lease status clearLease now =>
    refine updateWhere_image (OutboxColumns.map f) ?_ (heldBy_map f lease now) ?_ (affected_map _)
      ?_ _ _
    · exact fun _ => rfl
    · intro row
      cases clearLease <;> rfl
    · exact fun _ => rfl
  | leaseIsCurrent lease now =>
    simp only [Tables.map, find_image (OutboxColumns.map f) fun _ => rfl, Option.any_map,
      heldBy_map]
    rfl
  | reconciliationLeaseStats now =>
    simp only [Tables.map, List.filter_map, List.countP_map, Function.comp_def, leaseRuns_map,
      leaseOver_map]
    rfl
  | updateStatusIfActive id status now =>
    refine updateWhere_image (CapabilityColumns.map f) ?_ (activeAt_map f now) ?_ (affected_map _)
      ?_ _ _ <;> exact fun _ => rfl
  | revokeIfActive id revokedAt =>
    refine updateWhere_image (CapabilityColumns.map f) ?_ (activeAt_map f revokedAt) ?_
      (affected_map _) ?_ _ _ <;> exact fun _ => rfl
  | resolveApproval id state now =>
    refine updateWhere_image (PendingColumns.map f) ?_ (resolvable_map f now) ?_ (affected_map _)
      ?_ _ _ <;> exact fun _ => rfl
  | selectStaleApprovals now cutoff batchSize | selectStaleHolds now cutoff batchSize =>
    simp only [Tables.map, List.filter_map, ← List.map_take, List.map_map, Function.comp_def,
      stale_map]
    rfl
  | expireApproval id | expireHold id =>
    refine updateWhere_image (PendingColumns.map f) ?_ ?_ ?_ (affected_map _) ?_ _ _ <;>
      exact fun _ => rfl
  | listPendingCursor proposalId createdAfter idAfter limit =>
    have hguard (row : PendingColumns ApprovalId ApprovalState τ) :
        ((row.map f).pendingFor proposalId && keyBefore (f createdAfter) idAfter (row.map f)) =
          (row.pendingFor proposalId && keyBefore createdAfter idAfter row) := by
      rw [keyBefore_map]
      rfl
    simp only [Tables.map]
    rw [selectWhere_image _ hguard (newestFirst_map f), List.map_map]
    rfl
  | insert rows =>
    simp only [Tables.map, Tables.append, ← List.map_append]
    rfl

end Embedding

/-! ## Instants and their texts -/

/-- **Texts of instants are in the order of time**, and any sequence of lease, expiry and keyset
statements answers on the texts what it answers on the instants. -/
theorem text_statements_decide_as_time_statements :
    (∀ a b : Civil.Instant,
      (a.rfc3339 < b.rfc3339 ↔ a < b) ∧ (a.rfc3339 = b.rfc3339 ↔ a = b)) ∧
    ∀ (statements : List (Statement Civil.Instant)) (t : Tables Civil.Instant),
      runAll exec (statements.map (·.map Civil.Instant.rfc3339)) (t.map Civil.Instant.rfc3339) =
        (runAll exec statements t).map id (Tables.map Civil.Instant.rfc3339) := by
  constructor
  · intro a b
    exact ⟨Civil.Instant.rfc3339_strictMono.lt_iff_lt,
      Civil.Instant.rfc3339_strictMono.injective.eq_iff⟩
  · intro statements t
    exact runAll_image (exec_map Civil.Instant.rfc3339Embedding) statements t

/-! ## The page of intents

The cursor of `list_intents` holds `created_at` as `Display` writes it, with a blank behind the
date, and is cut at its first colon. -/

open Civil in
/-- `format!("{}:{}", created_at, intent_id)` -/
def intentsCursor (createdAt : Instant) (intentId : List Char) : List Char :=
  (dateOf (createdAt.second / 86400)).text ++ ' ' ::
    (digits 2 (createdAt.second % 86400 / 3600) ++ ':' ::
      (digits 2 (createdAt.second / 60 % 60) ++ ':' ::
        (digits 2 createdAt.clockSecond ++ (fractionText createdAt.nanosecond ++
          (" UTC:".toList ++ intentId)))))

/-- `parts[0]` of `splitn(2, ':')`, the text `created_at` is compared with. -/
def cursorCreatedAt (cursor : List Char) : List Char := cursor.takeWhile (· ≠ ':')

theorem digits_ne_colon {width n : Nat} {c : Char} (h : c ∈ Civil.digits width n) : c ≠ ':' := by
  have hdigit : ∀ a : Fin 10, Char.ofNat ('0'.toNat + a) ≠ ':' := by decide
  induction width generalizing n with
  | zero => cases h
  | succ width ih =>
    rcases List.mem_append.1 h with hfront | hlast
    · exact ih hfront
    · rw [List.mem_singleton.1 hlast]
      exact hdigit ⟨n % 10, Nat.mod_lt _ (by decide)⟩

open Civil in
theorem cursorCreatedAt_eq (t : Instant) (intentId : List Char) :
    cursorCreatedAt (intentsCursor t intentId) =
      (dateOf (t.second / 86400)).text ++ ' ' :: digits 2 (t.second % 86400 / 3600) := by
  have hfront : ∀ c ∈ (dateOf (t.second / 86400)).text ++ ' ' :: digits 2 (t.second % 86400 / 3600),
      c ≠ ':' := by
    intro c hc
    simp only [Date.text, yearText, if_pos t.year_le, List.append_assoc, List.cons_append,
      List.mem_append, List.mem_cons] at hc
    rcases hc with h | rfl | h | rfl | h | rfl | h
    all_goals first | exact digits_ne_colon h | decide
  rw [cursorCreatedAt, intentsCursor, ← List.cons_append, ← List.append_assoc,
    List.takeWhile_append_of_pos fun c hc => decide_eq_true (hfront c hc)]
  exact List.append_nil _

/-- **After a cursor stand the intents of earlier days only**, whatever the times of the day:
`created_at < ? OR (created_at = ? AND intent_id < ?)`. -/
theorem before_cursor_iff (a b : Civil.Instant) (intentId : List Char) (idBefore : Prop) :
    (a.rfc3339 < cursorCreatedAt (intentsCursor b intentId) ∨
      a.rfc3339 = cursorCreatedAt (intentsCursor b intentId) ∧ idBefore) ↔
      a.second / 86400 < b.second / 86400 := by
  have hlength : (Civil.dateOf (a.second / 86400)).text.length =
      (Civil.dateOf (b.second / 86400)).text.length := by
    rw [Civil.length_text a.year_le, Civil.length_text b.year_le]
  rw [cursorCreatedAt_eq, Civil.Instant.rfc3339, Civil.append_lt_append_iff hlength]
  constructor
  · rintro ((hlt | ⟨-, hrest⟩) | ⟨heq, -⟩)
    · by_contra hday
      rcases Nat.lt_or_eq_of_le (not_lt.1 hday) with hgt | hsame
      · exact lt_asymm hlt (Civil.text_lt_text a.year_le hgt)
      · rw [hsame] at hlt
        exact lt_irrefl _ hlt
    · simp [List.cons_lt_cons_iff] at hrest
    · exact absurd (List.append_inj heq hlength).2 (by simp)
  · exact fun hday => Or.inl (Or.inl (Civil.text_lt_text b.year_le hday))

/-! ## The statements of the store's model -/

section World

def ofOutbox (row : OutboxRow) : OutboxColumns Timestamp :=
  ⟨row.record.outboxId, row.record.status, row.record.createdAt, row.leaseOwner,
    row.leaseExpiresAt, row.leaseGeneration⟩

def ofCapability (lease : CapabilityLease) : CapabilityColumns Timestamp :=
  ⟨lease.capabilityId, lease.status, lease.expiresAt, lease.revokedAt⟩

def ofApproval (approval : ApprovalRequest) : PendingColumns ApprovalId ApprovalState Timestamp :=
  ⟨approval.approvalId, approval.proposalId, approval.state, approval.createdAt,
    approval.expiresAt⟩

def ofHold (hold : QuarantineHold) :
    PendingColumns QuarantineHoldId QuarantineHoldState Timestamp :=
  ⟨hold.holdId, hold.proposalId, hold.state, hold.createdAt, hold.expiresAt⟩

def ofWorld (w : World) : Tables Timestamp :=
  ⟨w.outbox.map ofOutbox, w.capabilities.map ofCapability, w.approvals.map ofApproval,
    w.holds.map ofHold⟩

def LeaseKey.of (lease : LifecycleOutboxLease) : LeaseKey :=
  ⟨lease.outboxId, lease.owner, lease.generation⟩

theorem leaseFree_ofOutbox (now : Timestamp) (row : OutboxRow) :
    (ofOutbox row).leaseFree now = World.OutboxRow.leaseFree row now := by
  cases h : row.leaseExpiresAt <;>
    simp [OutboxColumns.leaseFree, ofOutbox, World.OutboxRow.leaseFree, h]

theorem heldBy_ofOutbox (lease : LifecycleOutboxLease) (now : Timestamp) (row : OutboxRow) :
    (ofOutbox row).heldBy (.of lease) now = World.OutboxRow.heldBy row lease now := by
  cases h : row.leaseExpiresAt <;>
    simp [OutboxColumns.heldBy, OutboxColumns.leaseRuns, LeaseKey.of, ofOutbox,
      World.OutboxRow.heldBy, h]

theorem claimable_columns (limit : Nat) (now : Timestamp) (w : World) :
    exec (.selectClaimable limit now) (ofWorld w) =
      (.outbox (World.claimable limit now w), ofWorld w) := by
  have hguard : (fun row => (ofOutbox row).pending && (ofOutbox row).leaseFree now) =
      fun row => World.OutboxRow.pending row && World.OutboxRow.leaseFree row now := by
    funext row
    rw [leaseFree_ofOutbox]
    rfl
  simp only [exec, ofWorld, selectWhere, World.claimable, List.filter_map, Function.comp_def,
    hguard]
  -- the model sorts the records, the statement their columns
  let le (a b : OutboxRow) : Bool := (ofOutbox a).oldestFirst (ofOutbox b)
  rw [← List.map_insertionSort (fun a b => le a b = true) _ ofOutbox _ fun _ _ _ _ => Iff.rfl,
    ← List.map_insertionSort (fun a b => le a b = true) (fun a b : LifecycleOutboxRecord =>
      a.createdAt < b.createdAt ∨ a.createdAt = b.createdAt ∧ a.outboxId.uuid ≤ b.outboxId.uuid)
      OutboxRow.record _ fun _ _ _ _ => decide_eq_true_iff]
  simp only [← List.map_take, List.map_map]
  rfl

theorem claimOne_columns (owner : String) (now expiresAt : Timestamp) (id : LifecycleOutboxId)
    (w : World) :
    exec (.claim id owner expiresAt now) (ofWorld w) =
      (World.claimOne owner now expiresAt id w).map
        (fun claim => .generation (claim.map (·.lease.generation))) ofWorld := by
  simp only [exec, ofWorld, updateWhere, World.claimOne]
  rw [find_image ofOutbox fun _ => rfl]
  cases find w.outbox id with
  | none => rfl
  | some row =>
    simp only [Option.map_some, Option.filter_some, leaseFree_ofOutbox]
    cases World.OutboxRow.leaseFree row now with
    | false => rfl
    | true =>
      have hput := put_image ofOutbox (fun _ => rfl) w.outbox
        { row with
          leaseOwner := some owner
          leaseExpiresAt := some expiresAt
          leaseGeneration := row.leaseGeneration + 1 }
      exact Prod.ext rfl (congrArg ({ ofWorld w with outbox := · }) hput)

/-- A conditional update of the model and the statement on the columns. -/
theorem updateWhere_columns {V V' K : Type} [Keyed V K] [Keyed V' K] [DecidableEq K]
    (image : V → V') (hkey : ∀ v, Keyed.key (image v) = Keyed.key v) {rows : List V} {w : World}
    {k : K} {guard : V → Prop} [DecidablePred guard] {guard' : V' → Bool} (write : V → V)
    {write' : V' → V'} {next : V → World} {place : List V' → Tables Timestamp}
    (hguard : ∀ v, guard' (image v) = decide (guard v))
    (hwrite : ∀ v, find rows k = some v → write' (image v) = image (write v))
    (hnext : ∀ v, place ((put rows (write v)).map image) = ofWorld (next v))
    (hsame : place (rows.map image) = ofWorld w) :
    (updateWhere k guard' write' (rows.map image)).map affected place =
      (World.updateWhere (find rows k) guard next w).map .affected ofWorld := by
  unfold updateWhere World.updateWhere
  rw [find_image image hkey]
  cases hfind : find rows k with
  | none => exact Prod.ext rfl hsame
  | some row =>
    simp only [Option.map_some, Option.filter_some, hguard, decide_eq_true_eq]
    by_cases hrow : guard row
    · simp only [hrow, if_true, hwrite row hfind, put_image image hkey]
      exact Prod.ext rfl (hnext row)
    · simp only [hrow, if_false]
      exact Prod.ext rfl hsame

theorem renewReconciliationLease_columns (lease : LifecycleOutboxLease)
    (expiresAt now : Timestamp) (w : World) :
    exec (.renewReconciliationLease (.of lease) expiresAt now) (ofWorld w) =
      (World.renewReconciliationLease lease expiresAt now w).map .affected ofWorld := by
  simp only [exec, World.renewReconciliationLease]
  refine updateWhere_columns ofOutbox (fun _ => rfl)
    (fun row => { row with leaseExpiresAt := some expiresAt }) (fun row => ?_) (fun _ _ => rfl)
    (fun _ => rfl) rfl
  rw [heldBy_ofOutbox, Bool.decide_and, Bool.decide_eq_true, Bool.decide_eq_true]
  rfl

theorem updateStatusIfActive_columns (id : CapabilityId) (status : CapabilityStatus)
    (now : Timestamp) (w : World) :
    exec (.updateStatusIfActive id status now) (ofWorld w) =
      (World.updateStatusIfActive id status now w).map .affected ofWorld := by
  simp only [exec, World.updateStatusIfActive]
  exact updateWhere_columns ofCapability (fun _ => rfl) (fun lease => { lease with status := status })
    (fun _ => rfl) (fun _ _ => rfl) (fun _ => rfl) rfl

theorem revokeIfActive_columns (id : CapabilityId) (revokedAt : Timestamp) (w : World) :
    exec (.revokeIfActive id revokedAt) (ofWorld w) =
      (World.revokeIfActive id revokedAt w).map .affected ofWorld := by
  simp only [exec, World.revokeIfActive]
  exact updateWhere_columns ofCapability (fun _ => rfl)
    (fun lease => { lease with status := .revoked, revokedAt := some revokedAt })
    (fun _ => rfl) (fun _ _ => rfl) (fun _ => rfl) rfl

theorem leaseIsCurrent_columns (lease : LifecycleOutboxLease) (now : Timestamp) (w : World) :
    exec (.leaseIsCurrent (.of lease) now) (ofWorld w) =
      (.affected (World.leaseIsCurrent lease now w), ofWorld w) := by
  simp only [exec, ofWorld, find_image ofOutbox fun _ => rfl, Option.any_map, heldBy_ofOutbox,
    World.leaseIsCurrent]
  show (Answer.affected ((find w.outbox lease.outboxId).any _), _) = _
  cases find w.outbox lease.outboxId <;> rfl

/-- The statement itself; the model's also refuses a record whose event is not stored. -/
theorem updateOutboxRecordClaimed_columns {record : LifecycleOutboxRecord}
    {lease : LifecycleOutboxLease} {clearLease answer : Bool} {now : Timestamp} {w w' : World}
    (hrecord : ∀ row, find w.outbox lease.outboxId = some row →
      record.outboxId = row.record.outboxId ∧ record.createdAt = row.record.createdAt)
    (h : World.updateOutboxRecordClaimed record lease clearLease now w = .ok (answer, w')) :
    exec (.updateOutboxRecordClaimed (.of lease) record.status clearLease now) (ofWorld w) =
      (.affected answer, ofWorld w') := by
  simp only [exec, ofWorld, updateWhere, find_image ofOutbox fun _ => rfl]
  rw [show (LeaseKey.of lease).outboxId = lease.outboxId from rfl]
  unfold World.updateOutboxRecordClaimed at h
  cases hfind : find w.outbox lease.outboxId with
  | none =>
    cases hfind ▸ h
    rfl
  | some row =>
    simp only [Option.map_some, Option.filter_some, heldBy_ofOutbox]
    simp only [hfind] at h
    by_cases hrow : World.OutboxRow.heldBy row lease now = true
    · rw [if_pos hrow] at h ⊢
      by_cases hknown : World.eventKnown record w
      · rw [ensure_bind hknown] at h
        cases h
        obtain ⟨hid, hcreated⟩ := hrecord row hfind
        have hput := put_image ofOutbox (fun _ => rfl) w.outbox
          (World.OutboxRow.write row record clearLease)
        simp only [ofOutbox, World.OutboxRow.write, hid, hcreated] at hput
        exact Prod.ext rfl (congrArg ({ ofWorld w with outbox := · }) hput)
      · rw [ensure, if_neg hknown] at h
        cases h
    · rw [if_neg hrow] at h ⊢
      cases h
      rfl

/-! A resolution and an expiry of the model write a snapshot of the row with the new state. -/

theorem resolveApproval_columns (approval : ApprovalRequest) (now : Timestamp) (w : World)
    (h : ∀ row, find w.approvals approval.approvalId = some row →
      ofApproval approval = { ofApproval row with state := approval.state }) :
    exec (.resolveApproval approval.approvalId approval.state now) (ofWorld w) =
      (World.resolveApproval approval now w).map .affected ofWorld := by
  simp only [exec, World.resolveApproval]
  exact updateWhere_columns ofApproval (fun _ => rfl) (fun _ => approval) (fun _ => rfl)
    (fun row hrow => (h row hrow).symm) (fun _ => rfl) rfl

theorem expireApproval_columns (approval : ApprovalRequest) (w : World)
    (h : ∀ row, find w.approvals approval.approvalId = some row →
      ofApproval approval = { ofApproval row with state := .expired }) :
    exec (.expireApproval approval.approvalId) (ofWorld w) =
      (World.expireApproval approval w).map .affected ofWorld := by
  simp only [exec, World.expireApproval]
  exact updateWhere_columns ofApproval (fun _ => rfl) (fun _ => approval) (fun _ => rfl)
    (fun row hrow => (h row hrow).symm) (fun _ => rfl) rfl

theorem expireHold_columns (hold : QuarantineHold) (w : World)
    (h : ∀ row, find w.holds hold.holdId = some row →
      ofHold hold = { ofHold row with state := .expired }) :
    exec (.expireHold hold.holdId) (ofWorld w) =
      (World.writeHoldIfPending hold w).map .affected ofWorld := by
  simp only [exec, World.writeHoldIfPending]
  exact updateWhere_columns ofHold (fun _ => rfl) (fun _ => hold) (fun _ => rfl)
    (fun row hrow => (h row hrow).symm) (fun _ => rfl) rfl

theorem stale_columns (now cutoff : Timestamp) (batchSize : Nat) (w : World) :
    exec (.selectStaleApprovals now cutoff batchSize) (ofWorld w) =
        (.approvals ((World.stalePendingApprovals now cutoff batchSize w).map (·.approvalId)),
          ofWorld w) ∧
      exec (.selectStaleHolds now cutoff batchSize) (ofWorld w) =
        (.holds ((World.stalePendingHolds now cutoff batchSize w).map (·.holdId)), ofWorld w) := by
  simp only [exec, ofWorld, List.filter_map, ← List.map_take, List.map_map]
  exact ⟨rfl, rfl⟩

/-- The inserts of the model write their rows behind those of the table. -/
theorem insert_columns {w w' new : World} (houtbox : w'.outbox = w.outbox ++ new.outbox)
    (hcapabilities : w'.capabilities = w.capabilities ++ new.capabilities)
    (happrovals : w'.approvals = w.approvals ++ new.approvals)
    (hholds : w'.holds = w.holds ++ new.holds) :
    exec (.insert (ofWorld new)) (ofWorld w) = (.inserted, ofWorld w') := by
  simp only [exec, Tables.append, ofWorld, ← List.map_append, houtbox, hcapabilities, happrovals,
    hholds]

end World

end FerrumGate.TimeColumns
