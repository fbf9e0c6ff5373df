import FerrumGate.Interleave.Answer
import FerrumGate.Store.Reconciliation

/-!
# The accounts of a reconcile run

`reconcile_lifecycle_outbox_with_lease` of `ferrum-store/src/reconciliation.rs` against a store that
may answer anything, as long as it claims at most as many records as it was asked for: its claims
may overlap, statements may fail, records time out, and leases get lost.

* `reconcileBatches_turns` : the loop takes a record off `remaining` in every turn, so that the
  number of turns of the model never ends it.
* `reconcileBatchesLogged_erase` : the run with a log of the records it handles is the run.
* **`reconcile_run_accounts`** : a run in which no claim fails ends with a report; it has handled at
  most `limit` records, no id twice, and counts each in exactly one of five fields.
-/

namespace FerrumGate

open Interleave

/-! ## The loop ends by itself -/

theorem freshClaims_length (seen : List LifecycleOutboxId) (claims : List LifecycleOutboxClaim) :
    (freshClaims seen claims).1.length ≤ claims.length := by
  induction claims generalizing seen with
  | nil => exact Nat.le_refl _
  | cons claim rest ih =>
    unfold freshClaims
    split
    · exact (ih _).trans (Nat.le_succ _)
    · exact Nat.succ_le_succ (ih _)

/-- The new ids are put in front of those seen before. -/
theorem freshClaims_seen (seen : List LifecycleOutboxId) (claims : List LifecycleOutboxClaim) :
    (freshClaims seen claims).2.1 =
      ((freshClaims seen claims).1.map (·.lease.outboxId)).reverse ++ seen := by
  induction claims generalizing seen with
  | nil => rfl
  | cons claim rest ih =>
    unfold freshClaims
    split
    · exact ih seen
    · simp [ih]

theorem freshClaims_nodup {seen : List LifecycleOutboxId} (h : seen.Nodup)
    (claims : List LifecycleOutboxClaim) : (freshClaims seen claims).2.1.Nodup := by
  induction claims generalizing seen with
  | nil => exact h
  | cons claim rest ih =>
    unfold freshClaims
    split
    · exact ih h
    · next hnew => exact ih (List.nodup_cons.mpr ⟨hnew, h⟩)

/-- More turns than records that remain change nothing. -/
theorem reconcileBatches_turns (owner : String) (ttl : Timestamp) {turns remaining : Nat}
    (h : remaining ≤ turns) (more : Nat) (seen : List LifecycleOutboxId)
    (report : LifecycleReconciliationReport) :
    reconcileBatches owner ttl (turns + more) remaining seen report =
      reconcileBatches owner ttl turns remaining seen report := by
  induction turns generalizing remaining seen report with
  | zero =>
    obtain rfl := Nat.le_zero.mp h
    cases more with
    | zero => rfl
    | succ more => rfl
  | succ turns ih =>
    rw [Nat.succ_add]
    unfold reconcileBatches
    split
    · rfl
    · next hremaining =>
      refine congrArg _ (funext fun claims => ?_)
      obtain ⟨fresh, seen', duplicate⟩ := freshClaims seen claims
      dsimp only
      split
      · rfl
      · next hfresh =>
        have hpos : 0 < fresh.length := by
          rw [List.length_pos_iff]
          rintro rfl
          exact hfresh rfl
        refine congrArg _ (funext fun report => ?_)
        split
        · rfl
        · exact ih (by omega) seen' report

/-! ## The records of a run -/

/-- `reconcileClaims`, with a log of the claims it has handled. -/
def reconcileClaimsLogged (ttl : Timestamp) :
    List LifecycleOutboxClaim → List LifecycleOutboxClaim → LifecycleReconciliationReport →
    Gw (List LifecycleOutboxClaim × LifecycleReconciliationReport)
  | [], log, report => pure (log, report)
  | claim :: rest, log, report => do
    let report ← reconcileClaim claim ttl report
    reconcileClaimsLogged ttl rest (log ++ [claim]) report

/-- `reconcileBatches`, with a log of the claims it has handled. -/
def reconcileBatchesLogged (owner : String) (ttl : Timestamp) :
    (turns remaining : Nat) → List LifecycleOutboxId → List LifecycleOutboxClaim →
    LifecycleReconciliationReport →
    StoreM (List LifecycleOutboxClaim × LifecycleReconciliationReport)
  | 0, _, _, log, report => pure (log, report)
  | turns + 1, remaining, seen, log, report => do
    if remaining = 0 then pure (log, report)
    else
      let claims ← claimPendingReconciliation (min remaining maxClaimsPerLeaseBatch) owner ttl
      let (fresh, seen, duplicate) := freshClaims seen claims
      if fresh.isEmpty then pure (log, report)
      else
        let report := { report with scanned := report.scanned + fresh.length }
        let (log, report) ← ExceptT.lift (reconcileClaimsLogged ttl fresh log report)
        if duplicate then pure (log, report)
        else reconcileBatchesLogged owner ttl turns (remaining - fresh.length) seen log report

/-- The same for a whole run. -/
def reconcileLogged (limit : Nat) (owner : String) (ttl : Timestamp) :
    StoreM (List LifecycleOutboxClaim × LifecycleReconciliationReport) :=
  reconcileBatchesLogged owner ttl limit limit [] [] {}

section Erase

variable {env : Environment Op Op.Result} {ttl : Timestamp}

/-- All the claims are handled, one after the other. -/
theorem reconcileClaimsLogged_erase (claims log : List LifecycleOutboxClaim)
    (report : LifecycleReconciliationReport) (t : Transcript Op Op.Result) :
    (reconcileClaimsLogged ttl claims log report).answered env t =
      ((log ++ claims, ((reconcileClaims ttl claims report).answered env t).1),
        ((reconcileClaims ttl claims report).answered env t).2) := by
  induction claims generalizing log report t with
  | nil =>
    rw [List.append_nil]
    rfl
  | cons claim rest ih => simp [reconcileClaimsLogged, reconcileClaims, ih]

/-- Without its log, the run is the run. -/
theorem reconcileBatchesLogged_erase (owner : String) (turns remaining : Nat)
    (seen : List LifecycleOutboxId) (log : List LifecycleOutboxClaim)
    (report : LifecycleReconciliationReport) (t : Transcript Op Op.Result) :
    (reconcileBatches owner ttl turns remaining seen report).run.answered env t =
      (((reconcileBatchesLogged owner ttl turns remaining seen log report).run.answered env t).1.map
          Prod.snd,
        ((reconcileBatchesLogged owner ttl turns remaining seen log report).run.answered env
          t).2) := by
  induction turns generalizing remaining seen log report t with
  | zero => rfl
  | succ turns ih =>
    unfold reconcileBatches reconcileBatchesLogged
    split
    · rfl
    · rw [Prog.answered_run_bind, Prog.answered_run_bind]
      split
      · next claims hclaims =>
        obtain ⟨fresh, seen', duplicate⟩ := freshClaims seen claims
        dsimp only
        split
        · rfl
        · rw [Prog.answered_run_bind, Prog.answered_run_bind, Prog.answered_run_lift,
            Prog.answered_run_lift, reconcileClaimsLogged_erase]
          dsimp only
          split
          · rfl
          · exact ih ..
      · rfl

end Erase

/-! ## Each record is counted once -/

/-- The records that a report has put into one of its five fields. -/
def LifecycleReconciliationReport.counted (report : LifecycleReconciliationReport) : Nat :=
  report.alreadyReconciled + report.repairedMissingProvenance + report.needsOperatorReview +
    report.retryableFailures + report.claimConflicts

section Counted

variable {env : Environment Op Op.Result} {ttl : Timestamp}

/-- One more record is counted. -/
structure CountsOne (report after : LifecycleReconciliationReport) : Prop where
  counted : after.counted = report.counted + 1
  scanned : after.scanned = report.scanned

theorem recordFailure_counts (lease : LifecycleOutboxLease) (error : String)
    (report : LifecycleReconciliationReport)
    (t : Transcript Op Op.Result) :
    CountsOne report ((recordFailure lease error report).answered env t).1 := by
  unfold recordFailure
  rw [Prog.answered_bind]
  split <;> refine ⟨?_, rfl⟩ <;>
    dsimp only [pure, Prog.answered, LifecycleReconciliationReport.counted] <;> omega

theorem reconcileClaim_counts (env : Environment Op Op.Result) (ttl : Timestamp)
    (claim : LifecycleOutboxClaim) (report : LifecycleReconciliationReport)
    (t : Transcript Op Op.Result) :
    CountsOne report ((reconcileClaim claim ttl report).answered env t).1 := by
  unfold reconcileClaim
  rw [Prog.answered_bind]
  split
  · refine ⟨?_, rfl⟩
    dsimp only [pure, Prog.answered, LifecycleReconciliationReport.counted]
    omega
  · refine ⟨?_, rfl⟩
    dsimp only [pure, Prog.answered, LifecycleReconciliationReport.counted]
    omega
  · refine ⟨?_, rfl⟩
    dsimp only [pure, Prog.answered, LifecycleReconciliationReport.counted]
    omega
  · exact recordFailure_counts _ _ report _
  · obtain ⟨hcounted, hscanned⟩ := recordFailure_counts claim.lease
      "lifecycle reconciliation timed out after 30 seconds"
      { report with timedOut := report.timedOut + 1 } _
    exact ⟨hcounted, hscanned⟩

theorem reconcileClaims_counts (env : Environment Op Op.Result) (ttl : Timestamp)
    (claims : List LifecycleOutboxClaim) (report : LifecycleReconciliationReport)
    (t : Transcript Op Op.Result) :
    ((reconcileClaims ttl claims report).answered env t).1.counted =
        report.counted + claims.length ∧
      ((reconcileClaims ttl claims report).answered env t).1.scanned = report.scanned := by
  induction claims generalizing report t with
  | nil => exact ⟨rfl, rfl⟩
  | cons claim rest ih =>
    unfold reconcileClaims
    rw [Prog.answered_bind]
    obtain ⟨hcounted, hscanned⟩ := reconcileClaim_counts env ttl claim report t
    obtain ⟨hrest, hrest'⟩ := ih ((reconcileClaim claim ttl report).answered env t).1
      ((reconcileClaim claim ttl report).answered env t).2
    rw [hrest, hrest', hcounted, hscanned, List.length_cons]
    exact ⟨by omega, rfl⟩

end Counted

/-! ## A run -/

/-- The store claims at most as many records as it was asked for. -/
def ClaimsFit (env : Environment Op Op.Result) : Prop :=
  ∀ t limit owner now ttl claims,
    env t (.claimPendingReconciliation limit owner now ttl) = .ok claims → claims.length ≤ limit

/-- A claim that the store did not answer. -/
def FailedClaim (entry : Reply Op Op.Result) : Prop :=
  ∃ limit owner now ttl e, entry = ⟨.claimPendingReconciliation limit owner now ttl, .error e⟩

/-- Between two turns: what is seen is what is handled, and the report counts it. -/
structure RunAccounts (limit remaining : Nat) (seen : List LifecycleOutboxId)
    (log : List LifecycleOutboxClaim) (report : LifecycleReconciliationReport) : Prop where
  seen_eq : seen = (log.map (·.lease.outboxId)).reverse
  nodup : seen.Nodup
  room : log.length + remaining = limit
  scanned : report.scanned = log.length
  counted : report.counted = log.length

section Run

variable {env : Environment Op Op.Result} {ttl : Timestamp} {limit remaining : Nat}
  {seen : List LifecycleOutboxId} {log : List LifecycleOutboxClaim}
  {report : LifecycleReconciliationReport}

/-- **One turn** with the claims the store gave. -/
theorem RunAccounts.turn (env : Environment Op Op.Result) (ttl : Timestamp)
    (h : RunAccounts limit remaining seen log report)
    {claims : List LifecycleOutboxClaim} (hsize : claims.length ≤ remaining)
    (t : Transcript Op Op.Result) :
    RunAccounts limit (remaining - (freshClaims seen claims).1.length) (freshClaims seen claims).2.1
      (log ++ (freshClaims seen claims).1)
      ((reconcileClaims ttl (freshClaims seen claims).1
        { report with scanned := report.scanned + (freshClaims seen claims).1.length }).answered env
          t).1 := by
  have hfresh := (freshClaims_length seen claims).trans hsize
  obtain ⟨hcounted, hscanned⟩ := reconcileClaims_counts env ttl
    (freshClaims seen claims).1
    { report with scanned := report.scanned + (freshClaims seen claims).1.length } t
  refine ⟨?_, freshClaims_nodup h.nodup claims, ?_, ?_, ?_⟩
  · rw [freshClaims_seen, List.map_append, List.reverse_append, ← h.seen_eq]
  · rw [List.length_append, ← h.room]
    omega
  · rw [hscanned, List.length_append, h.scanned]
  · rw [hcounted, List.length_append, ← h.counted]
    rfl

/-- The outcome of a run: accounts, or a claim that failed. -/
def RunEnds (limit : Nat) : Except StoreError (List LifecycleOutboxClaim ×
    LifecycleReconciliationReport) × Transcript Op Op.Result → Prop
  | (.ok (log, report), _) => ∃ remaining seen, RunAccounts limit remaining seen log report
  | (.error _, t) => ∃ entry ∈ t, FailedClaim entry

/-- What a claim leaves. -/
theorem claimPendingReconciliation_answered (ttl : Timestamp) (hfit : ClaimsFit env) (asked : Nat)
    (owner : String) (t : Transcript Op Op.Result) :
    match ((claimPendingReconciliation asked owner ttl).run.answered env t) with
    | (.ok claims, _) => claims.length ≤ asked
    | (.error _, t) => ∃ entry ∈ t, FailedClaim entry := by
  let t' : Transcript Op Op.Result := ⟨.readClock, env t .readClock⟩ :: t
  have hanswered : (claimPendingReconciliation asked owner ttl).run.answered env t =
      (env t' (.claimPendingReconciliation asked owner (env t .readClock) ttl),
        ⟨.claimPendingReconciliation asked owner (env t .readClock) ttl,
          env t' (.claimPendingReconciliation asked owner (env t .readClock) ttl)⟩ :: t') := rfl
  rw [hanswered]
  cases hclaims : env t' (.claimPendingReconciliation asked owner (env t .readClock) ttl) with
  | ok claims => exact hfit _ _ _ _ _ _ hclaims
  | error e => exact ⟨_, List.mem_cons_self, _, _, _, _, _, rfl⟩

/-- **A whole run**: it keeps its accounts, or ends at a claim that failed. -/
theorem reconcileBatchesLogged_accounts (ttl : Timestamp) (hfit : ClaimsFit env) (owner : String)
    (turns : Nat) (h : RunAccounts limit remaining seen log report) (t : Transcript Op Op.Result) :
    RunEnds limit
      ((reconcileBatchesLogged owner ttl turns remaining seen log report).run.answered env t) := by
  induction turns generalizing remaining seen log report t with
  | zero => exact ⟨remaining, seen, h⟩
  | succ turns ih =>
    unfold reconcileBatchesLogged
    split
    · exact ⟨remaining, seen, h⟩
    · rw [Prog.answered_run_bind]
      have hclaim := claimPendingReconciliation_answered ttl hfit
        (min remaining maxClaimsPerLeaseBatch) owner t
      cases hanswer : (claimPendingReconciliation (min remaining maxClaimsPerLeaseBatch) owner
        ttl).run.answered env t with
      | mk answer t₁ =>
        rw [hanswer] at hclaim
        cases answer with
        | error e => exact hclaim
        | ok claims =>
          have hturn := h.turn env ttl (hclaim.trans (Nat.min_le_left _ _)) t₁
          dsimp only
          split
          · exact ⟨remaining, seen, h⟩
          · rw [Prog.answered_run_bind, Prog.answered_run_lift, reconcileClaimsLogged_erase]
            dsimp only
            split
            · exact ⟨_, _, hturn⟩
            · exact ih hturn _

end Run

/-- **The accounts of a run** in which no claim fails: it ends, not for want of turns, with a report,
and with a log of the claims it has handled, each of an id of its own and at most `limit` of
them. -/
theorem reconcile_run_accounts (env : Environment Op Op.Result) (limit : Nat) (owner : String)
    (ttl : Timestamp) (hfit : ClaimsFit env)
    (hclaims : ∀ entry ∈
      ((reconcileLifecycleOutboxWithLease limit owner ttl).run.answered env []).2,
      ¬ FailedClaim entry) :
    (∀ more, reconcileBatches owner ttl (limit + more) limit [] {} =
      reconcileLifecycleOutboxWithLease limit owner ttl) ∧
    ∃ handled report t,
      (reconcileLifecycleOutboxWithLease limit owner ttl).run.answered env [] = (.ok report, t) ∧
      (reconcileLogged limit owner ttl).run.answered env [] = (.ok (handled, report), t) ∧
      (handled.map (·.lease.outboxId)).Nodup ∧ handled.length ≤ limit ∧
      report.scanned = handled.length ∧
      report.scanned = report.alreadyReconciled + report.repairedMissingProvenance +
        report.needsOperatorReview + report.retryableFailures + report.claimConflicts := by
  refine ⟨fun more => reconcileBatches_turns owner ttl (Nat.le_refl limit) more [] {}, ?_⟩
  have herase : (reconcileLifecycleOutboxWithLease limit owner ttl).run.answered env [] =
      (((reconcileLogged limit owner ttl).run.answered env []).1.map Prod.snd,
        ((reconcileLogged limit owner ttl).run.answered env []).2) :=
    reconcileBatchesLogged_erase owner limit limit [] [] {} []
  have hends := reconcileBatchesLogged_accounts ttl hfit owner limit
    (⟨rfl, List.nodup_nil, Nat.zero_add limit, rfl, rfl⟩ : RunAccounts limit limit [] [] {}) []
  change RunEnds limit ((reconcileLogged limit owner ttl).run.answered env []) at hends
  rw [herase] at hclaims ⊢
  cases hrun : (reconcileLogged limit owner ttl).run.answered env [] with
  | mk answer t =>
    rw [hrun] at hends hclaims
    cases answer with
    | error e =>
      obtain ⟨entry, hentry, hfailed⟩ := hends
      exact absurd hfailed (hclaims entry hentry)
    | ok result =>
      obtain ⟨handled, report⟩ := result
      obtain ⟨remaining, seen, haccounts⟩ := hends
      refine ⟨handled, report, t, rfl, rfl, ?_, ?_, haccounts.scanned, ?_⟩
      · rw [← List.nodup_reverse, ← haccounts.seen_eq]
        exact haccounts.nodup
      · rw [← haccounts.room]
        exact Nat.le_add_right _ _
      · rw [haccounts.scanned, ← haccounts.counted]
        rfl

namespace ReconcileSample

/-- A record that is reconciled already. -/
def claim : LifecycleOutboxClaim where
  lease := ⟨⟨1⟩, "reconciler", 1, 120⟩
  record :=
    { LifecycleOutboxRecord.pendingWithObligations ⟨1⟩ 0 ⟨2⟩ none none .authorized none none []
        (.authorize ⟨2⟩) with
      status := .reconciled }

/-- A store that has one record to claim, again and again, and nothing else. -/
def repeats : Environment Op Op.Result := fun _ o =>
  match o with
  | .claimPendingReconciliation limit .. => .ok ([claim].take limit)
  | o => (o.exec {} {}).1

theorem repeats_fit : ClaimsFit repeats := by
  intro t limit owner now ttl claims h
  cases h
  exact List.length_take_le limit [claim]

theorem repeats_answers {limit : Nat} {owner : String} {ttl : Timestamp} :
    ∀ entry ∈ ((reconcileLifecycleOutboxWithLease limit owner ttl).run.answered repeats []).2,
      ¬ FailedClaim entry := by
  rintro _ hentry ⟨_, _, _, _, _, rfl⟩
  rcases Prog.mem_answered hentry with hnil | ⟨_, hgiven⟩
  · cases hnil
  · cases hgiven

end ReconcileSample

open ReconcileSample in
theorem reconcile_run_of_repeats :
    ClaimsFit repeats ∧
    (∀ entry ∈
      ((reconcileLifecycleOutboxWithLease 5 "reconciler" 120).run.answered repeats []).2,
      ¬ FailedClaim entry) ∧
    ∃ report,
      ((reconcileLifecycleOutboxWithLease 5 "reconciler" 120).run.answered repeats []).1 =
        .ok report ∧ report.scanned = 1 ∧ report.alreadyReconciled = 1 := by
  obtain ⟨-, _, report, _, hrun, _⟩ :=
    reconcile_run_accounts repeats 5 "reconciler" 120 repeats_fit repeats_answers
  refine ⟨repeats_fit, repeats_answers, report, congrArg Prod.fst hrun, ?_⟩
  have hreport : (reconcileLifecycleOutboxWithLease 5 "reconciler" 120).run.answered repeats [] =
      (.ok { scanned := 1, alreadyReconciled := 1 }, _) := rfl
  rw [hreport] at hrun
  cases hrun
  exact ⟨rfl, rfl⟩

end FerrumGate
