import FerrumGate.Safety.Records

/-!
# Reconciliation leases

A lease on an outbox record is an owner, a generation and an expiry in the record's row. A worker
keeps the token it got with its claim, `(outbox_id, lease_owner, generation)`, and every write under
the lease compares the token with the row and the row's expiry with a clock reading that the worker
took before the statement.

`lease_fencing` is what this amounts to when workers pause anywhere and the clock never goes back:
the generation of a record grows with every claim, a claim finds no lease that is still unexpired,
and a write or renewal succeeds for the token of the latest claim alone, which nothing has cleared
since. The lease was unexpired at the worker's reading; `expired_lease_writes` shows that it need
not be unexpired any more when the statement is performed.
-/

namespace FerrumGate

open Interleave Interleave.Rows

variable {requests : Nat → Request} {t : Knowledge} {o : Op} {i : Input} {w w' : World}
  {log : GatewayLog} {p q : Nat} {id : LifecycleOutboxId} {row row' : OutboxRow}
  {x : Reply Op Op.Result} {claim : LifecycleOutboxClaim} {owner : String}

/-! ## Claims, writes under a lease, and what clears it -/

/-- The fencing token of a lease. -/
def LifecycleOutboxLease.token (lease : LifecycleOutboxLease) :
    LifecycleOutboxId × String × Nat :=
  (lease.outboxId, lease.owner, lease.generation)

/-- The claim on the record that a reply hands out. -/
def hands (id : LifecycleOutboxId) : Reply Op Op.Result → Option LifecycleOutboxClaim
  | ⟨.claimPendingReconciliation _ _ _ _, .ok claims⟩ => claims.find? (·.lease.outboxId = id)
  | _ => none

/-- The lease and the clock reading of a claimed write or a renewal that has succeeded. -/
def fencedWrite : Reply Op Op.Result → Option (LifecycleOutboxLease × Timestamp)
  | ⟨.updateOutboxRecordClaimed _ lease _ now, .ok true⟩ => some (lease, now)
  | ⟨.renewReconciliationLease lease _ now, .ok true⟩ => some (lease, now)
  | _ => none

/-- A write that clears the lease on the record: the operator's override, or the close by the
holder or by the handler. -/
def clears (id : LifecycleOutboxId) : Reply Op Op.Result → Bool
  | ⟨.updateOutboxRecord record true _, .ok true⟩ => record.outboxId = id
  | ⟨.updateOutboxRecordClaimed record _ true _, .ok true⟩ => record.outboxId = id
  | _ => false

/-- **The claim is the latest one on its record, and nothing has cleared its lease.** -/
def HeldSince (log : GatewayLog) (claim : LifecycleOutboxClaim) : Prop :=
  ∃ newer entry older, log = newer ++ entry :: older ∧
    hands claim.lease.outboxId entry.2 = some claim ∧
    ∀ e ∈ newer, hands claim.lease.outboxId e.2 = none ∧ clears claim.lease.outboxId e.2 = false

theorem HeldSince.cons (h : HeldSince log claim) (hands_ : hands claim.lease.outboxId x = none)
    (clears_ : clears claim.lease.outboxId x = false) : HeldSince ((p, x) :: log) claim := by
  obtain ⟨newer, entry, older, rfl, hentry, hnewer⟩ := h
  refine ⟨(p, x) :: newer, entry, older, rfl, hentry, fun e he => ?_⟩
  rcases List.mem_cons.mp he with rfl | hold
  · exact ⟨hands_, clears_⟩
  · exact hnewer e hold

theorem hands_id (h : hands id x = some claim) : claim.lease.outboxId = id := by
  obtain ⟨o, r⟩ := x
  cases o with
  | claimPendingReconciliation limit owner now ttl =>
    cases r with
    | error e => cases h
    | ok claims => simpa using List.find?_some h
  | _ => cases h

theorem hands_eq_none {limit : Nat} {owner : String} {now ttl : Timestamp}
    {claims : List LifecycleOutboxClaim} (h : ∀ claim ∈ claims, claim.lease.outboxId ≠ id) :
    hands id ⟨.claimPendingReconciliation limit owner now ttl, .ok claims⟩ = none :=
  List.find?_eq_none.mpr fun claim hclaim => by simpa using h claim hclaim

theorem hands_eq_some {limit : Nat} {owner : String} {now ttl : Timestamp}
    {claims : List LifecycleOutboxClaim} (hid : claim.lease.outboxId = id) (hmem : claim ∈ claims)
    (honly : ∀ claim' ∈ claims, claim'.lease.outboxId = id → claim' = claim) :
    hands id ⟨.claimPendingReconciliation limit owner now ttl, .ok claims⟩ = some claim := by
  have hsome : (claims.find? (·.lease.outboxId = id)).isSome = true :=
    List.find?_isSome.mpr ⟨claim, hmem, by simpa using hid⟩
  obtain ⟨found, hfound⟩ := Option.isSome_iff_exists.mp hsome
  have hfoundId : found.lease.outboxId = id := by simpa using List.find?_some hfound
  rw [← honly found (List.mem_of_find?_eq_some hfound) hfoundId]
  exact hfound

/-! ## One step -/

section Step

/-- What a step with reply `x` does to the lease columns of a row. -/
inductive LeaseStep (t : Knowledge) (id : LifecycleOutboxId) (x : Reply Op Op.Result) :
    (row row' : Option OutboxRow) → Prop
  | absent (hands_ : hands id x = none) : LeaseStep t id x none none
  | fresh {row' : OutboxRow} (hands_ : hands id x = none) (owner_ : row'.leaseOwner = none) :
      LeaseStep t id x none (some row')
  | kept {row row' : OutboxRow} (hands_ : hands id x = none)
      (owner_ : row'.leaseOwner = row.leaseOwner ∨ row'.leaseOwner = none)
      (generation : row'.leaseGeneration = row.leaseGeneration) :
      LeaseStep t id x (some row) (some row')
  | leased {row : OutboxRow} {owner : String} {expiresAt now : Timestamp}
      (clock : Saw t .readClock now) (free : World.OutboxRow.leaseFree row now = true)
      (hands_ : hands id x = some (row.claim owner expiresAt)) :
      LeaseStep t id x (some row) (some (row.leased owner expiresAt))

theorem write_owner (record : LifecycleOutboxRecord) (clear : Bool) :
    (World.OutboxRow.write row record clear).leaseOwner = row.leaseOwner ∨
      (World.OutboxRow.write row record clear).leaseOwner = none := by
  cases clear with
  | false => exact .inl rfl
  | true => exact .inr rfl

/-- **One step, seen from the lease of one record.** -/
theorem lease_step {served : Request} (hmay : may served t o) (id : LifecycleOutboxId) :
    LeaseStep t id ⟨o, (o.exec i w).1⟩ (find w.outbox id) (find (o.exec i w).2.outbox id) := by
  have hstep := outbox_step (i := i) (w := w) hmay id
  generalize hrow : find w.outbox id = row at hstep ⊢
  generalize find (o.exec i w).2.outbox id = row' at hstep ⊢
  generalize (o.exec i w).1 = r at hstep ⊢
  cases hstep with
  | same noClaim =>
    have hnone : hands id ⟨o, r⟩ = none := by
      cases o with
      | claimPendingReconciliation limit owner now ttl =>
        cases r with
        | error e => rfl
        | ok claims => exact hands_eq_none (noClaim limit owner now ttl claims rfl)
      | _ => rfl
    cases row with
    | none => exact .absent hnone
    | some row => exact .kept hnone (.inl rfl) rfl
  | transition => exact .fresh rfl rfl
  | authorized => exact .fresh rfl rfl
  | edited => exact .kept rfl (write_owner _ _) rfl
  | claimedEdit => exact .kept rfl (write_owner _ _) rfl
  | leased clock free mem only =>
    exact .leased clock free (hands_eq_some (find_key hrow) mem only)
  | renewed => exact .kept rfl (.inl rfl) rfl

theorem clears_announces {r : o.Result} (h : clears id ⟨o, r⟩ = true) : o.announces r = true := by
  cases o with
  | updateOutboxRecord _ clear | updateOutboxRecordClaimed _ _ clear =>
    rcases r with _ | _ | _
    · cases clear <;> cases h
    · cases clear <;> cases h
    · rfl
  | _ => cases h

/-- A row whose lease a step has cleared has no owner. -/
theorem clears_stored (h : clears id ⟨o, (o.exec i w).1⟩ = true)
    (hrow : find (o.exec i w).2.outbox id = some row) : row.leaseOwner = none := by
  have hput : ∀ {old : OutboxRow} {record : LifecycleOutboxRecord}, record.outboxId = id →
      find (put w.outbox (World.OutboxRow.write old record true)) id = some row →
      row.leaseOwner = none := by
    intro old record hid hfind
    rw [find_put, if_pos (show Keyed.key (World.OutboxRow.write old record true) = id from hid)]
      at hfind
    obtain ⟨_, -, rfl⟩ := Option.map_eq_some_iff.mp hfind
    rfl
  rcases exec_effect o i w with ⟨_, hw⟩ | ⟨hquiet, _⟩
  · generalize (o.exec i w).2 = w' at hw hrow
    generalize (o.exec i w).1 = r at hw h
    cases hw with
    | @updateOutboxRecord _ record clear =>
      cases clear with
      | false => cases h
      | true => exact hput (of_decide_eq_true h) hrow
    | @updateOutboxRecordClaimed _ record _ clear =>
      cases clear with
      | false => cases h
      | true => exact hput (of_decide_eq_true h) hrow
    | _ => cases h
  · rw [clears_announces h] at hquiet
    cases hquiet

/-- **What a run keeps about the leases on a record**: a lease in the row belongs to the latest
claim and has not been cleared, no claim is ahead of the row, and each claim has a higher
generation than those before it. -/
structure LeaseInv (id : LifecycleOutboxId) (log : GatewayLog) (w : World) : Prop where
  held : ∀ {row owner}, find w.outbox id = some row → row.leaseOwner = some owner →
    ∃ claim, HeldSince log claim ∧ claim.lease.token = (id, owner, row.leaseGeneration)
  behind : ∀ e ∈ log, ∀ claim ∈ hands id e.2,
    ∃ row, find w.outbox id = some row ∧ claim.lease.generation ≤ row.leaseGeneration
  increasing : log.Pairwise fun late early => ∀ claim ∈ hands id late.2,
    ∀ earlier ∈ hands id early.2, earlier.lease.generation < claim.lease.generation

/-- A step without a claim on the record. -/
theorem LeaseInv.unclaimed (h : LeaseInv id log w) (hands_ : hands id x = none)
    (hrows : ∀ {row}, find w.outbox id = some row →
      ∃ row', find w'.outbox id = some row' ∧ row'.leaseGeneration = row.leaseGeneration)
    (hheld : ∀ {row' owner}, find w'.outbox id = some row' → row'.leaseOwner = some owner →
      clears id x = false ∧ ∃ row, find w.outbox id = some row ∧ row.leaseOwner = some owner ∧
        row'.leaseGeneration = row.leaseGeneration) :
    LeaseInv id ((p, x) :: log) w' where
  held := by
    intro row' owner hrow' howner'
    obtain ⟨hclears, row, hrow, howner, hgeneration⟩ := hheld hrow' howner'
    obtain ⟨claim, hsince, htoken⟩ := h.held hrow howner
    obtain rfl : claim.lease.outboxId = id := congrArg Prod.fst htoken
    exact ⟨claim, hsince.cons hands_ hclears, hgeneration ▸ htoken⟩
  behind := by
    intro e he claim hclaim
    rcases List.mem_cons.mp he with rfl | hold
    · rw [hands_] at hclaim
      cases hclaim
    · obtain ⟨row, hrow, hle⟩ := h.behind e hold claim hclaim
      obtain ⟨row', hrow', hgeneration⟩ := hrows hrow
      exact ⟨row', hrow', hgeneration ▸ hle⟩
  increasing := by
    refine List.pairwise_cons.mpr ⟨fun e _ claim hclaim => ?_, h.increasing⟩
    rw [hands_] at hclaim
    cases hclaim

/-- A claim on the record. -/
theorem LeaseInv.claimed (h : LeaseInv id log w) {expiresAt : Timestamp}
    (hrow : find w.outbox id = some row)
    (hands_ : hands id x = some (row.claim owner expiresAt))
    (hrow' : find w'.outbox id = some (row.leased owner expiresAt)) :
    LeaseInv id ((p, x) :: log) w' where
  held := by
    intro row₂ owner₂ hrow₂ howner₂
    cases Option.some.inj (hrow'.symm.trans hrow₂)
    cases howner₂
    obtain rfl : row.record.outboxId = id := find_key hrow
    exact ⟨row.claim owner expiresAt, ⟨[], (p, x), log, rfl, hands_, by simp⟩, rfl⟩
  behind := by
    intro e he claim hclaim
    refine ⟨_, hrow', ?_⟩
    rcases List.mem_cons.mp he with rfl | hold
    · cases Option.some.inj (hands_.symm.trans hclaim)
      exact le_rfl
    · obtain ⟨row₁, hrow₁, hle⟩ := h.behind e hold claim hclaim
      cases Option.some.inj (hrow.symm.trans hrow₁)
      exact Nat.le_succ_of_le hle
  increasing := by
    refine List.pairwise_cons.mpr ⟨fun e he claim hclaim earlier hearlier => ?_, h.increasing⟩
    cases Option.some.inj (hands_.symm.trans hclaim)
    obtain ⟨row₁, hrow₁, hle⟩ := h.behind e he earlier hearlier
    cases Option.some.inj (hrow.symm.trans hrow₁)
    exact Nat.lt_succ_of_le hle

theorem LeaseInv.step {served : Request} (h : LeaseInv id log w) (hmay : may served (own p log) o) :
    LeaseInv id ((p, ⟨o, (o.exec i w).1⟩) :: log) (o.exec i w).2 := by
  have hclears : ∀ {row owner}, find (o.exec i w).2.outbox id = some row →
      row.leaseOwner = some owner → clears id ⟨o, (o.exec i w).1⟩ = false := by
    intro row owner hrow howner
    by_contra hclears
    rw [clears_stored (by simpa using hclears) hrow] at howner
    cases howner
  have hstep := lease_step (i := i) (w := w) hmay id
  generalize hbefore : find w.outbox id = before at hstep
  generalize hafter : find (o.exec i w).2.outbox id = after at hstep
  generalize (⟨o, (o.exec i w).1⟩ : Reply Op Op.Result) = x at hstep hclears ⊢
  generalize (o.exec i w).2 = w' at hafter hclears ⊢
  cases hstep with
  | absent hands_ =>
    refine h.unclaimed hands_ (fun hrow => ?_) (fun hrow' _ => ?_)
    · rw [hbefore] at hrow
      cases hrow
    · rw [hafter] at hrow'
      cases hrow'
  | fresh hands_ owner_ =>
    refine h.unclaimed hands_ (fun hrow => ?_) (fun hrow' howner' => ?_)
    · rw [hbefore] at hrow
      cases hrow
    · cases Option.some.inj (hafter.symm.trans hrow')
      rw [owner_] at howner'
      cases howner'
  | kept hands_ owner_ generation =>
    refine h.unclaimed hands_ (fun hrow => ?_) (fun hrow' howner' => ?_)
    · cases Option.some.inj (hbefore.symm.trans hrow)
      exact ⟨_, hafter, generation⟩
    · have hkept := hclears hrow' howner'
      cases Option.some.inj (hafter.symm.trans hrow')
      rcases owner_ with hsame | hnone
      · exact ⟨hkept, _, hbefore, hsame.symm.trans howner', generation⟩
      · rw [hnone] at howner'
        cases howner'
  | leased clock free hands_ => exact h.claimed hbefore hands_ hafter

end Step

theorem leaseInv_of_conforms (h : Conforms requests {} log w) : LeaseInv id log w := by
  induction h with
  | start => exact ⟨fun h => (by cases h), fun e he => absurd he (by simp), .nil⟩
  | step p o i _ hmay ih => exact ih.step hmay

/-! ## Fencing -/

/-- **What a step of process `p` at the time `clock` does with leases**, from the store `w`: a claim
gets a generation above all before it, and finds no lease that is still unexpired; a claimed write
or renewal that succeeds has the token of the latest claim, uncleared, and the lease was unexpired
at the reading that the process took for it. -/
structure Fenced (log : GatewayLog) (w : World) (p : Nat) (clock : Timestamp)
    (x : Reply Op Op.Result) : Prop where
  generation : ∀ {id claim}, hands id x = some claim → ∀ e ∈ log, ∀ earlier ∈ hands id e.2,
    earlier.lease.generation < claim.lease.generation
  exclusive : ∀ {id claim}, hands id x = some claim → ∀ {row expiresAt},
    find w.outbox id = some row → row.leaseExpiresAt = some expiresAt → expiresAt ≤ clock
  latest : ∀ {lease now}, fencedWrite x = some (lease, now) →
    ∃ claim, HeldSince log claim ∧ claim.lease.token = lease.token
  unexpired : ∀ {lease now}, fencedWrite x = some (lease, now) →
    (p, ⟨.readClock, now⟩) ∈ log ∧ now ≤ clock ∧ ∃ row expiresAt,
      find w.outbox lease.outboxId = some row ∧ row.leaseExpiresAt = some expiresAt ∧
        now < expiresAt

/-- Of all the leases on a record that have been handed out, at most one is current. -/
def OneLease (log : GatewayLog) (w : World) : Prop :=
  ∀ id now, ∀ e₁ ∈ log, ∀ e₂ ∈ log, ∀ claim₁ ∈ hands id e₁.2, ∀ claim₂ ∈ hands id e₂.2,
    World.leaseIsCurrent claim₁.lease now w = true →
    World.leaseIsCurrent claim₂.lease now w = true → e₁ = e₂

section Fencing

variable {lease : LifecycleOutboxLease} {now : Timestamp}

theorem heldBy_iff : World.OutboxRow.heldBy row lease now = true ↔
    row.leaseOwner = some lease.owner ∧ row.leaseGeneration = lease.generation ∧
      ∃ expiresAt, row.leaseExpiresAt = some expiresAt ∧ now < expiresAt := by
  unfold World.OutboxRow.heldBy
  cases row.leaseExpiresAt <;> simp [and_assoc]

theorem fencedWrite_announces {r : o.Result} (h : fencedWrite ⟨o, r⟩ = some (lease, now)) :
    o.announces r = true := by
  cases o with
  | updateOutboxRecordClaimed | renewReconciliationLease =>
    rcases r with _ | _ | _
    · cases h
    · cases h
    · rfl
  | _ => cases h

/-- A write under a lease succeeds on a row that the lease holds. -/
theorem fencedWrite_held (h : fencedWrite ⟨o, (o.exec i w).1⟩ = some (lease, now)) :
    ∃ row, find w.outbox lease.outboxId = some row ∧
      World.OutboxRow.heldBy row lease now = true := by
  rcases exec_effect o i w with ⟨_, hw⟩ | ⟨hquiet, _⟩
  · generalize (o.exec i w).2 = w' at hw
    generalize (o.exec i w).1 = r at hw h
    cases hw with
    | updateOutboxRecordClaimed found held =>
      cases h
      exact ⟨_, found, held⟩
    | renewReconciliationLease found held =>
      cases h
      exact ⟨_, found, held⟩
    | _ => cases h
  · rw [fencedWrite_announces h] at hquiet
    cases hquiet

/-- The process has read the clock for its write. -/
theorem fencedWrite_clock {served : Request} {r : o.Result} (hmay : may served t o)
    (h : fencedWrite ⟨o, r⟩ = some (lease, now)) : Saw t .readClock now := by
  cases o with
  | updateOutboxRecordClaimed =>
    rcases r with _ | _ | _ <;> cases h
    obtain ⟨_, _, _, _, _, _, _, hclock⟩ := OutboxWrite.claimedEdit_inv hmay
    exact hclock
  | renewReconciliationLease =>
    rcases r with _ | _ | _ <;> cases h
    obtain ⟨_, _, _, hclock⟩ := OutboxWrite.renew_inv hmay
    exact hclock
  | _ => cases h

theorem fenced_step (hconforms : Conforms requests {} log w)
    (hmay : may (requests p) (own p log) o) {clock : Timestamp}
    (hclock : ∀ reading, (p, ⟨.readClock, reading⟩) ∈ log → reading ≤ clock) :
    Fenced log w p clock ⟨o, (o.exec i w).1⟩ where
  generation := by
    intro id claim hclaim e he earlier hearlier
    have hnext : LeaseInv id ((p, ⟨o, (o.exec i w).1⟩) :: log) (o.exec i w).2 :=
      leaseInv_of_conforms (.step p o i hconforms hmay)
    exact (List.pairwise_cons.mp hnext.increasing).1 e he claim hclaim earlier hearlier
  exclusive := by
    intro id claim hclaim row expiresAt hrow hexpires
    have hstep := lease_step (i := i) (w := w) hmay id
    rw [hrow] at hstep
    generalize find (o.exec i w).2.outbox id = after at hstep
    cases hstep with
    | kept hands_ =>
      rw [hands_] at hclaim
      cases hclaim
    | @leased _ _ _ reading saw free =>
      have hfree : expiresAt ≤ reading := by
        simpa [World.OutboxRow.leaseFree, hexpires] using free
      exact hfree.trans (hclock reading (mem_own.mp saw))
  latest := by
    intro lease now hwrite
    obtain ⟨row, hrow, hheld⟩ := fencedWrite_held hwrite
    obtain ⟨howner, hgeneration, -⟩ := heldBy_iff.mp hheld
    obtain ⟨claim, hsince, htoken⟩ := (leaseInv_of_conforms hconforms).held hrow howner
    exact ⟨claim, hsince, htoken.trans (by rw [hgeneration]; rfl)⟩
  unexpired := by
    intro lease now hwrite
    have hsaw := mem_own.mp (fencedWrite_clock hmay hwrite)
    obtain ⟨row, hrow, hheld⟩ := fencedWrite_held hwrite
    obtain ⟨-, -, expiresAt, hexpires, hlt⟩ := heldBy_iff.mp hheld
    exact ⟨hsaw, hclock now hsaw, row, expiresAt, hrow, hexpires, hlt⟩

theorem oneLease_of_conforms (h : Conforms requests {} log w) : OneLease log w := by
  intro id now e₁ he₁ e₂ he₂ claim₁ hclaim₁ claim₂ hclaim₂ hcurrent₁ hcurrent₂
  have hgeneration : ∀ {claim e}, claim ∈ hands id e → World.leaseIsCurrent claim.lease now w = true →
      ((find w.outbox id).map (·.leaseGeneration)) = some claim.lease.generation := by
    intro claim e hclaim hcurrent
    unfold World.leaseIsCurrent at hcurrent
    rw [hands_id hclaim] at hcurrent
    cases hrow : find w.outbox id with
    | none =>
      rw [hrow] at hcurrent
      cases hcurrent
    | some row =>
      rw [hrow] at hcurrent
      exact congrArg some (heldBy_iff.mp hcurrent).2.1
  have hsame : claim₁.lease.generation = claim₂.lease.generation :=
    Option.some.inj ((hgeneration hclaim₁ hcurrent₁).symm.trans (hgeneration hclaim₂ hcurrent₂))
  -- two entries of the log with claims on the record have different generations
  have hdifferent : log.Pairwise fun a b => ∀ claim ∈ hands id a.2, ∀ claim' ∈ hands id b.2,
      claim.lease.generation ≠ claim'.lease.generation :=
    (leaseInv_of_conforms h).increasing.imp fun hlt claim hclaim claim' hclaim' =>
      (hlt claim hclaim claim' hclaim').ne'
  have : Std.Symm fun a b : Nat × Reply Op Op.Result => ∀ claim ∈ hands id a.2,
      ∀ claim' ∈ hands id b.2, claim.lease.generation ≠ claim'.lease.generation :=
    ⟨fun _ _ hab claim hclaim claim' hclaim' => (hab claim' hclaim' claim hclaim).symm⟩
  by_contra hne
  exact hdifferent.forall he₁ he₂ hne claim₁ hclaim₁ claim₂ hclaim₂ hsame

end Fencing

/-- The clock never goes back. -/
def Schedule.clocked (s : Schedule) : Prop := s.Pairwise fun a b => a.2.clock ≤ b.2.clock

instance (s : Schedule) : Decidable s.clocked := inferInstanceAs (Decidable (List.Pairwise _ _))

/-- **Fencing**, for any requests and any interleaving of them in which the clock never goes back:
after `s` at most one lease on a record is current, and the next step of any process is fenced. -/
theorem lease_fencing (state : AppState) (requests : Nat → Request) (s : Schedule) (p : Nat)
    (i : Input) (hclocked : Schedule.clocked (s ++ [(p, i)])) :
    OneLease (run state requests {} s).log (run state requests {} s).world ∧
      ∀ x, (run state requests {} (s ++ [(p, i)])).log = (p, x) :: (run state requests {} s).log →
        Fenced (run state requests {} s).log (run state requests {} s).world p i.clock x := by
  have hconforms := run_conforms state requests {} s
  refine ⟨oneLease_of_conforms hconforms, fun x hx => ?_⟩
  obtain ⟨o, hmay, hlast⟩ := run_last hx
  obtain rfl := (Prod.mk.inj hlast).2
  refine fenced_step hconforms hmay fun reading hreading => ?_
  obtain ⟨j, w, hj, hread⟩ := Config.run_input Op.exec rfl hreading
  have hreading' : reading = j.clock := hread
  rw [hreading']
  exact (List.pairwise_append.mp hclocked).2.2 _ hj _ (List.mem_singleton_self _)

namespace Sample

/-- The reconcile run of the sample stops before its first write under the lease, and goes on when
two minutes and a second have passed. -/
def paused : Schedule := prepared ++ steps 5 16 ++ steps 6 30

def late : Input := { input with clock := seconds 121 }

end Sample

/-- The write succeeds, although the lease it is made under has expired: the reading that it
compares the expiry with is older than the pause. -/
theorem expired_lease_writes :
    Schedule.clocked (Sample.paused ++ [(6, Sample.late)]) ∧
    ((find (run Sample.state (Sample.requests fun _ => .reconcileOutbox 10) {}
      Sample.paused).world.outbox ⟨13⟩).bind (·.leaseExpiresAt)) = some (seconds 120) ∧
    seconds 120 < Sample.late.clock ∧
    ((run Sample.state (Sample.requests fun _ => .reconcileOutbox 10) {}
      (Sample.paused ++ [(6, Sample.late)])).log.head?.bind fun e => fencedWrite e.2).map
        (fun write => (write.1.outboxId, write.2)) = some (⟨13⟩, 0) := by
  refine ⟨?_, ?_, ?_, ?_⟩ <;> decide +kernel

/-- Without the pause the sample's write is a step of this kind. -/
theorem lease_fencing_sample :
    Schedule.clocked (Sample.paused ++ [(6, Sample.input)]) ∧
    ((run Sample.state (Sample.requests fun _ => .reconcileOutbox 10) {}
      (Sample.paused ++ [(6, Sample.input)])).log.head?.bind fun e => fencedWrite e.2).map
        (fun write => (write.1.outboxId, write.2)) = some (⟨13⟩, 0) ∧
    ∀ x, (run Sample.state (Sample.requests fun _ => .reconcileOutbox 10) {}
        (Sample.paused ++ [(6, Sample.input)])).log = (6, x) ::
          (run Sample.state (Sample.requests fun _ => .reconcileOutbox 10) {} Sample.paused).log →
      Fenced (run Sample.state (Sample.requests fun _ => .reconcileOutbox 10) {} Sample.paused).log
        (run Sample.state (Sample.requests fun _ => .reconcileOutbox 10) {} Sample.paused).world 6
        Sample.input.clock x :=
  ⟨by decide +kernel, by decide +kernel, (lease_fencing _ _ _ _ _ (by decide +kernel)).2⟩

end FerrumGate
