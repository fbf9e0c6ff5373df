import FerrumGate.Safety.Records

/-!
# From the handler to the reconciler

An outbox record has two kinds of writers: the handler that stored it, which marks its events and
closes it without a lease, and the reconcile runs, which lease it. A lease keeps the handler out
while it is held; nothing keeps it out afterwards, and nothing keeps a reconciler from taking the
record over while its handler is still at work.

* `reconciled_stays`: a `Reconciled` record does not change any more, as long as no operator writes
  it, in every run in which the handler's writes come before the reconcilers' and the operator's;
* `reconciled_record_reopened` is what happens otherwise: the handler marks its own event on a
  record that a reconcile run has already repaired and closed.
-/

namespace FerrumGate

open Interleave Interleave.Rows

variable {served : Request} {requests : Nat → Request} {t : Knowledge} {o : Op} {i : Input}
  {w w' : World} {log log' : GatewayLog} {p q : Nat} {id : LifecycleOutboxId} {row : OutboxRow}

/-! ## Who writes a record -/

/-- The transaction that stored the record. -/
def records (id : LifecycleOutboxId) (e : Reply Op Op.Result) : Bool :=
  (recorded e).any fun r => r.2.outboxId = id

/-- A write of the record by its handler. -/
def handlerWrites (id : LifecycleOutboxId) : Reply Op Op.Result → Bool
  | ⟨.updateOutboxRecord record _ false, .ok true⟩ => record.outboxId = id
  | _ => false

/-- A write of the record by an operator. -/
def overrides (id : LifecycleOutboxId) : Reply Op Op.Result → Bool
  | ⟨.updateOutboxRecord record _ true, .ok true⟩ => record.outboxId = id
  | _ => false

/-- A reconcile run takes a lease on the record. -/
def leases (id : LifecycleOutboxId) : Reply Op Op.Result → Bool
  | ⟨.claimPendingReconciliation _ _ _ _, .ok claims⟩ => claims.any fun c => c.lease.outboxId = id
  | _ => false

/-- **The handler's writes of the record come first**: none of them is later than a lease that a
reconcile run took, or than an operator's write. -/
def HandlerFirst (id : LifecycleOutboxId) (log : GatewayLog) : Prop :=
  log.Pairwise fun late early => handlerWrites id late.2 = true →
    leases id early.2 = false ∧ overrides id early.2 = false

instance (id : LifecycleOutboxId) (log : GatewayLog) : Decidable (HandlerFirst id log) :=
  inferInstanceAs (Decidable (List.Pairwise _ _))

theorem leases_of_holds {claim : LifecycleOutboxClaim} (h : HoldsClaim (own p log) claim) :
    ∃ e ∈ log, leases claim.lease.outboxId e.2 = true := by
  obtain ⟨limit, owner, now, ttl, claims, hsaw, hmem⟩ := h
  exact ⟨_, mem_own.mp hsaw, List.any_eq_true.mpr ⟨claim, hmem, by simp⟩⟩

/-! ## One transaction per record -/

theorem records_iff {e : Reply Op Op.Result} :
    records id e = true ↔ ∃ x outbox, recorded e = some (x, outbox) ∧ outbox.outboxId = id := by
  unfold records
  cases recorded e with
  | none => simp
  | some r => simp [Prod.ext_iff]

/-- A record is stored once, and stays. -/
theorem recorded_once (h : Conforms requests {} log w) (id : LifecycleOutboxId) :
    Once (records id) log ∧
      ∀ e ∈ log, records id e.2 = true → find w.outbox id ≠ none := by
  induction h with
  | start => exact ⟨.nil, fun e he => absurd he (by simp)⟩
  | @step log w p o i hb hmay ih =>
    obtain ⟨hpairwise, hstored⟩ := ih
    have hnew : records id ⟨o, (o.exec i w).1⟩ = true →
        find w.outbox id = none ∧ find (o.exec i w).2.outbox id ≠ none := by
      intro hrecords
      obtain ⟨x, outbox, hrecorded, rfl⟩ := records_iff.mp hrecords
      obtain ⟨hnone, hsome⟩ := recorded_stored hrecorded
      exact ⟨hnone, by simp [hsome]⟩
    refine ⟨List.pairwise_cons.mpr ⟨fun e he hboth => ?_, hpairwise⟩, fun e he hrecords => ?_⟩
    · exact hstored e he hboth.2 (hnew hboth.1).1
    · rcases List.mem_cons.mp he with rfl | hold
      · exact (hnew hrecords).2
      · obtain ⟨row, hrow⟩ := Option.ne_none_iff_exists'.mp (hstored e hold hrecords)
        have hstable := stable_step (i := i) ((pairInv_of_conforms hb).2 p) hmay
        obtain ⟨row', hrow', -⟩ := hstable.records hrow
        simp [hrow']

/-- The handler has closed the record it stored: the close is later than the transaction. -/
def ClosedBy (p : Nat) (id : LifecycleOutboxId) (log : GatewayLog) : Prop :=
  ∃ recent close older, own p log = recent ++ close :: older ∧ close.1.closes = true ∧
    ∃ tx ∈ older, records id tx = true

theorem ClosedBy.cons (h : ClosedBy p id log) (x : Reply Op Op.Result) :
    ClosedBy p id ((q, x) :: log) := by
  by_cases hq : q = p
  · subst hq
    obtain ⟨recent, close, older, hown, hrest⟩ := h
    exact ⟨x :: recent, close, older, by rw [own_cons_self, hown, List.cons_append], hrest⟩
  · unfold ClosedBy
    rw [own_cons_ne hq]
    exact h

theorem not_closes_of_recorded {e : Reply Op Op.Result} (h : records id e = true) :
    e.1.closes = false := by
  obtain ⟨x, outbox, hrecorded, -⟩ := records_iff.mp h
  obtain ⟨o, r⟩ := e
  cases o with
  | updateOutboxRecord => cases hrecorded
  | _ => rfl

/-- What the process has done after it stored the record belongs to its tail. -/
theorem Tail.recent (h : Conforms requests {} log w) {x : ExecutionRecord}
    {outbox : LifecycleOutboxRecord} {kinds : List ProvenanceEventKind}
    (htail : Tail (own p log) x outbox kinds) {newer older : Knowledge} {z tx' : Reply Op Op.Result}
    (hown' : own p log = newer ++ z :: older) (hz : records outbox.outboxId z = false)
    (htx' : tx' ∈ older) (hrecords' : records outbox.outboxId tx' = true) :
    (∀ event ∈ appended z, event.kind ∈ kinds) ∧ z.1.closes = false := by
  obtain ⟨recent, tx, old, hown, htx, hrecent⟩ := htail
  have hrecords : records outbox.outboxId tx = true := records_iff.mpr ⟨x, outbox, htx, rfl⟩
  have hne : z ≠ tx := by
    rintro rfl
    rw [hrecords] at hz
    cases hz
  have heq := hown.symm.trans hown'
  rcases List.append_eq_append_iff.mp heq with ⟨as, rfl, has⟩ | ⟨as, rfl, has⟩
  · cases as with
    | nil => exact absurd (List.cons.inj has).1.symm hne
    | cons a as =>
      -- `z` is older than the transaction, so the transaction before it is a second one
      obtain ⟨rfl, hold⟩ := List.cons.inj has
      have hpair := (recorded_once h outbox.outboxId).1.own p
      rw [hown] at hpair
      have hlater := (List.pairwise_cons.mp (List.pairwise_append.mp hpair).2.1).1 tx'
      exact absurd ⟨hrecords, hrecords'⟩ (hlater (by rw [hold]; simp [htx']))
  · cases as with
    | nil => exact absurd (List.cons.inj has).1 hne
    | cons a as =>
      obtain ⟨rfl, -⟩ := List.cons.inj has
      exact hrecent z (by simp)

/-- The one who stored the record is not at work on it after it has been closed. -/
theorem Tail.not_closed (h : Conforms requests {} log w) {x : ExecutionRecord}
    {outbox : LifecycleOutboxRecord} {kinds : List ProvenanceEventKind}
    (htail : Tail (own p log) x outbox kinds) : ¬ ClosedBy q outbox.outboxId log := by
  rintro ⟨newer, close, older, hown, hcloses, tx', htx', hrecords'⟩
  have hclose : records outbox.outboxId close = false := by
    by_contra hrecords
    rw [not_closes_of_recorded (by simpa using hrecords)] at hcloses
    cases hcloses
  obtain ⟨tx, hmem, y, htx⟩ := htail.owns
  have hmem' : tx' ∈ own q log := by
    rw [hown]
    simp [htx']
  have hentry := (recorded_once h outbox.outboxId).1.eq (mem_own.mp hmem) (mem_own.mp hmem')
    (records_iff.mpr ⟨y, outbox, htx, rfl⟩) hrecords'
  obtain rfl : p = q := congrArg Prod.fst hentry
  rw [(htail.recent h hown hclose htx' hrecords').2] at hcloses
  cases hcloses

/-! ## Reconciled records -/

/-- **What a run keeps about a `Reconciled` record**: nobody holds a lease on it, and a reconcile
run, an operator or its own handler has closed it. -/
structure ReconciledInv (id : LifecycleOutboxId) (log : GatewayLog) (w : World) : Prop where
  released : ∀ {row}, find w.outbox id = some row → row.record.status = .reconciled →
    row.leaseOwner = none
  closer : ∀ {row}, find w.outbox id = some row → row.record.status = .reconciled →
    (∃ e ∈ log, leases id e.2 = true ∨ overrides id e.2 = true) ∨ ∃ q, ClosedBy q id log

theorem pending_not_reconciled (h : World.OutboxRow.pending row = true) :
    row.record.status ≠ .reconciled := by
  intro hstatus
  unfold World.OutboxRow.pending at h
  rw [hstatus] at h
  cases h

section Step

/-- The reply of a step that leases the row, with the row as it was. -/
theorem leased_pending (hn : (w.outbox.map Keyed.key).Nodup) {limit : Nat} {owner : String}
    {now ttl expiresAt : Timestamp} {claims : List LifecycleOutboxClaim}
    (hr : ((Op.claimPendingReconciliation limit owner now ttl).exec i w).1 = .ok claims)
    (hrow : find w.outbox id = some row) (hmem : row.claim owner expiresAt ∈ claims) :
    World.OutboxRow.pending row = true := by
  obtain ⟨row', hrow', hpending⟩ := claimed_pending hn hr hmem
  have hid : row.record.outboxId = id := find_key hrow
  have hfind : find w.outbox row.record.outboxId = some row' := hrow'
  rw [hid, hrow] at hfind
  cases Option.some.inj hfind
  exact hpending

theorem ReconciledInv.step (h : ReconciledInv id log w) (hn : (w.outbox.map Keyed.key).Nodup)
    (hmay : may (requests p) (own p log) o) :
    ReconciledInv id ((p, ⟨o, (o.exec i w).1⟩) :: log) (o.exec i w).2 := by
  suffices hrow : ∀ {row'}, find (o.exec i w).2.outbox id = some row' →
      row'.record.status = .reconciled → row'.leaseOwner = none ∧
        ((∃ e ∈ (p, ⟨o, (o.exec i w).1⟩) :: log, leases id e.2 = true ∨ overrides id e.2 = true) ∨
          ∃ q, ClosedBy q id ((p, ⟨o, (o.exec i w).1⟩) :: log)) from
    ⟨fun hfind hs => (hrow hfind hs).1, fun hfind hs => (hrow hfind hs).2⟩
  intro row' hrow' hstatus
  have hstep := outbox_step (i := i) (w := w) hmay id
  rw [hrow'] at hstep
  generalize hrow : find w.outbox id = row at hstep
  generalize hr : (o.exec i w).1 = r at hstep ⊢
  cases hstep with
  | same =>
    refine ⟨h.released hrow hstatus, (h.closer hrow hstatus).imp ?_ ?_⟩
    · rintro ⟨e, he, hclose⟩
      exact ⟨e, List.mem_cons_of_mem _ he, hclose⟩
    · rintro ⟨q, hq⟩
      exact ⟨q, hq.cons _⟩
  | transition _ write =>
    rw [show (OutboxRow.fresh _).record.status = _ from write.pending] at hstatus
    cases hstatus
  | authorized _ write =>
    rw [show (OutboxRow.fresh _).record.status = _ from write.owes.1] at hstatus
    cases hstatus
  | edited id_ read change =>
    cases change with
    | mark => cases hstatus
    | @close x outbox old kinds now tail hid satisfied =>
      refine ⟨rfl, .inr ⟨p, [], _, own p log, own_cons_self p _ log, rfl, ?_⟩⟩
      obtain ⟨tx, htx, y, hrecorded⟩ := tail.owns
      exact ⟨tx, htx, records_iff.mpr ⟨y, outbox, hrecorded, hid.symm.trans id_⟩⟩
    | reset => cases hstatus
    | resolve =>
      exact ⟨rfl, .inl ⟨_, List.mem_cons_self, .inr (decide_eq_true id_)⟩⟩
  | claimedEdit holds lease_ id_ read change =>
    obtain ⟨e, he, hleases⟩ := leases_of_holds holds
    rw [lease_] at hleases
    refine ⟨?_, .inl ⟨e, List.mem_cons_of_mem _ he, .inl hleases⟩⟩
    cases change with
    | mark => cases hstatus
    | close => rfl
    | giveUp => rfl
  | leased clock free mem only =>
    have hpending := leased_pending hn hr hrow mem
    exact absurd hstatus (pending_not_reconciled hpending)
  | renewed id_ base clock held pending => exact absurd hstatus (pending_not_reconciled pending)

/-- A step in which the handler does not come late leaves a `Reconciled` record alone, unless it is
an operator's. -/
theorem reconciled_step (hb : Conforms requests {} log w)
    (h : ReconciledInv id log w) (hmay : may (requests p) (own p log) o)
    (hrow : find w.outbox id = some row) (hstatus : row.record.status = .reconciled)
    (hfirst : handlerWrites id ⟨o, (o.exec i w).1⟩ = true → ∀ e ∈ log,
      leases id e.2 = false ∧ overrides id e.2 = false)
    (hoperator : overrides id ⟨o, (o.exec i w).1⟩ = false) :
    find (o.exec i w).2.outbox id = some row := by
  have hstep := outbox_step (i := i) (w := w) hmay id
  rw [hrow] at hstep
  generalize find (o.exec i w).2.outbox id = row' at hstep ⊢
  generalize hr : (o.exec i w).1 = r at hstep hfirst hoperator
  cases hstep with
  | same => rfl
  | @edited old new clear override _ id_ read change open_ =>
    have hid : new.outboxId = id := change.sameRecord.outboxId.trans id_
    have hlate : ∀ {x outbox kinds}, Tail (own p log) x outbox kinds → old.outboxId = outbox.outboxId →
        handlerWrites id ⟨.updateOutboxRecord new clear override, .ok true⟩ = true → False := by
      intro x outbox kinds tail hsame hwrites
      rcases h.closer hrow hstatus with ⟨e, he, htaken⟩ | ⟨q, hclosed⟩
      · obtain ⟨hleases, hoverrides⟩ := hfirst hwrites e he
        rw [hleases, hoverrides] at htaken
        simp at htaken
      · rw [← id_, hsame] at hclosed
        exact tail.not_closed hb hclosed
    cases change with
    | mark tail hsame => exact (hlate tail hsame (decide_eq_true hid)).elim
    | close tail hsame => exact (hlate tail hsame (decide_eq_true hid)).elim
    | reset => exact absurd (decide_eq_true hid) (by rw [show decide _ = _ from hoperator]; simp)
    | resolve => exact absurd (decide_eq_true hid) (by rw [show decide _ = _ from hoperator]; simp)
  | claimedEdit holds lease_ id_ read change clock held =>
    have hnone := h.released hrow hstatus
    simp [World.OutboxRow.heldBy, hnone] at held
  | leased clock free mem only =>
    have hpending := leased_pending (outbox_keys_of_conforms hb) hr hrow mem
    exact absurd hstatus (pending_not_reconciled hpending)
  | renewed id_ base clock held pending => exact absurd hstatus (pending_not_reconciled pending)

end Step

theorem reconciledInv_of_conforms (h : Conforms requests {} log w) : ReconciledInv id log w := by
  induction h with
  | start => exact ⟨fun h => (by cases h), fun h => (by cases h)⟩
  | step p o i hb hmay ih => exact ih.step (outbox_keys_of_conforms hb) hmay

/-- **A `Reconciled` record does not change**: in every run from the empty store in which the
handler's writes of the record come before the reconcilers' leases and the operators' writes. The
record is `Reconciled` after `s₁`, and no operator writes it in `s₂`. -/
theorem reconciled_stays (state : AppState) (requests : Nat → Request) (s₁ s₂ : Schedule)
    (id : LifecycleOutboxId) (row : OutboxRow)
    (hrow : find (run state requests {} s₁).world.outbox id = some row)
    (hstatus : row.record.status = .reconciled)
    (hfirst : HandlerFirst id (run state requests {} (s₁ ++ s₂)).log)
    (hoperator : (run state requests {} (s₁ ++ s₂)).log.countP (fun e => overrides id e.2) =
      (run state requests {} s₁).log.countP fun e => overrides id e.2) :
    find (run state requests {} (s₁ ++ s₂)).world.outbox id = some row := by
  generalize hn : (run state requests {} s₁).log.countP (fun e => overrides id e.2) = n
    at hoperator
  suffices hkept : n ≤ (run state requests {} (s₁ ++ s₂)).log.countP (fun e => overrides id e.2) ∧
      (HandlerFirst id (run state requests {} (s₁ ++ s₂)).log →
        (run state requests {} (s₁ ++ s₂)).log.countP (fun e => overrides id e.2) = n →
        find (run state requests {} (s₁ ++ s₂)).world.outbox id = some row) from
    hkept.2 hfirst hoperator
  refine run_preserves (P := fun log w => n ≤ log.countP (fun e => overrides id e.2) ∧
      (HandlerFirst id log → log.countP (fun e => overrides id e.2) = n →
        find w.outbox id = some row))
    (fun {log w} p o i hb hmay h => ?_) s₁ s₂ ⟨hn.ge, fun _ _ => hrow⟩
  obtain ⟨hle, hsame⟩ := h
  rw [List.countP_cons]
  refine ⟨by omega, fun hfirst hcount => ?_⟩
  obtain ⟨hhead, hrest⟩ := List.pairwise_cons.mp hfirst
  have hnot : overrides id ⟨o, (o.exec i w).1⟩ = false := by
    by_contra hover
    rw [if_pos (by simpa using hover)] at hcount
    omega
  have hcount' : log.countP (fun e => overrides id e.2) = n := by
    rw [if_neg (by simp [hnot])] at hcount
    exact hcount
  exact reconciled_step hb (reconciledInv_of_conforms hb) hmay (hsame hrest hcount') hstatus
    (fun hwrites e he => hhead e he hwrites) hnot

namespace Sample

/-- A reconcile run takes the record of the sample's execution over right after its transaction,
repairs its event and closes it. -/
def takenOver : Schedule := prepared ++ steps 5 16 ++ steps 6 60

/-- The outbox record of the sample's execution: its status and its events. -/
def closing (gateway : Gateway) : Option (LifecycleOutboxStatus × List (Option EventId)) :=
  (find gateway.world.outbox ⟨13⟩).map fun row =>
    (row.record.status, row.record.provenanceObligations.map (·.eventId))

end Sample

/-- The handler goes on, and marks its own event on the record that has been closed. -/
theorem reconciled_record_reopened :
    Sample.closing (run Sample.state (Sample.requests fun _ => .reconcileOutbox 10) {}
      Sample.takenOver) = some (.reconciled, [some ⟨15⟩]) ∧
    Sample.closing (run Sample.state (Sample.requests fun _ => .reconcileOutbox 10) {}
      (Sample.takenOver ++ Sample.steps 5 7)) = some (.provenanceWritten, [some ⟨16⟩]) := by
  constructor <;> decide +kernel

/-- The record of the sample's `prepare` is not touched by the run that takes over the next one. -/
theorem reconciled_stays_sample :
    ∃ row, find (run Sample.state (Sample.requests fun _ => .reconcileOutbox 10) {}
        Sample.prepared).world.outbox ⟨10⟩ = some row ∧ row.record.status = .reconciled ∧
      find (run Sample.state (Sample.requests fun _ => .reconcileOutbox 10) {}
        (Sample.prepared ++ (Sample.steps 5 16 ++ Sample.steps 6 60))).world.outbox ⟨10⟩ =
          some row := by
  have hstatus : (find (run Sample.state (Sample.requests fun _ => .reconcileOutbox 10) {}
      Sample.prepared).world.outbox ⟨10⟩).map (·.record.status) = some .reconciled := by
    decide +kernel
  obtain ⟨row, hrow, hreconciled⟩ := Option.map_eq_some_iff.mp hstatus
  refine ⟨row, hrow, hreconciled, reconciled_stays _ _ _ _ _ row hrow hreconciled ?_ ?_⟩ <;>
    decide +kernel

end FerrumGate
