import FerrumGate.Safety.Steps

/-!
# The adapter's execute is called at most once

An execution is claimed by a compare-and-set out of a state before the claim, and no write leads
from a claimed state back: so the claim is won at most once. A process calls the adapter directly
after winning the claim and at no other time, so a won claim is worth one call.

`armed` is the moment between the two. The invariant counts a claim that is armed as a call that
is still to come.
-/

namespace FerrumGate

open Interleave Interleave.Rows

/-- The adapter's execute, called for this execution. -/
def Op.executes (e : ExecutionId) : Op → Bool
  | .adapterExecute contract _ => contract.executionId = e
  | _ => false

/-- How often the adapter's execute has been called for an execution. -/
def executeCalls (e : ExecutionId) (log : GatewayLog) : Nat :=
  log.countP fun entry => entry.2.1.executes e

/-- The execution has been claimed for its side effect. -/
def ClaimedIn (w : World) (e : ExecutionId) : Prop :=
  ∃ x, find w.executions e = some x ∧ x.state.claimed = true

/-- The process has just won the claim. -/
def Armed (e : ExecutionId) (log : GatewayLog) (p : Nat) : Prop :=
  ∃ rest, own p log = ⟨claimOp e, .ok true⟩ :: rest

variable {served : Request} {requests : Nat → Request} {e : ExecutionId} {t : Knowledge} {o : Op}
  {i : Input} {w w₀ : World} {log : GatewayLog}
  {p q : Nat}

/-! ## States -/

/-- No step takes a claim back. -/
theorem claimedIn_step (hmay : may served t o) (h : ClaimedIn w e) : ClaimedIn (o.exec i w).2 e := by
  obtain ⟨x, hx, hclaimed⟩ := h
  have hstep := execution_step (i := i) (w := w) hmay e
  rw [hx] at hstep
  generalize hrow' : find (o.exec i w).2.executions e = row' at hstep
  generalize (o.exec i w).1 = r at hstep
  cases hstep with
  | same => exact ⟨x, hrow', hclaimed⟩
  | claimed _ _ hpre => exact absurd (preClaim_not_claimed hpre) (by simp [hclaimed])
  | canceled _ _ _ _ hc => exact absurd (cancelable_not_claimed hc) (by simp [hclaimed])
  | @transition _ x' _ _ _ _ _ hvalid => exact ⟨x', hrow', claimed_closed hclaimed hvalid⟩

theorem not_claimedIn_of_canceled (h : w.executionState e = some .canceled) : ¬ ClaimedIn w e := by
  obtain ⟨x, hx, hcanceled⟩ := Option.map_eq_some_iff.mp h
  rintro ⟨y, hy, hclaimed⟩
  cases Option.some.inj (hx.symm.trans hy)
  rw [hcanceled] at hclaimed
  cases hclaimed

/-- A won claim takes the execution from before the claim to a claimed state. -/
theorem claim_won (h : ((claimOp e).exec i w).1 = .ok true) :
    ¬ ClaimedIn w e ∧ ClaimedIn ((claimOp e).exec i w).2 e := by
  have hw : Wrote (claimOp e) ((claimOp e).exec i w).1 w ((claimOp e).exec i w).2 :=
    exec_wrote (by rw [h]; rfl)
  rw [h] at hw
  generalize hw' : ((claimOp e).exec i w).2 = w' at hw
  cases hw with
  | @compareAndSetState _ _ _ _ _ row found mem =>
    have hkey : row.executionId = e := find_key found
    subst hkey
    simp only [List.mem_cons, List.not_mem_nil, or_false] at mem
    constructor
    · rintro ⟨x, hx, hclaimed⟩
      cases Option.some.inj (found.symm.trans hx)
      rcases mem with hs | hs | hs <;> rw [hs] at hclaimed <;> cases hclaimed
    · exact ⟨_, find_put_self (v := { row with state := .running }) found, rfl⟩

/-! ## The moment between the claim and the call -/

theorem armed_cons {x : Reply Op Op.Result} :
    Armed e ((q, x) :: log) p ↔
      (p = q ∧ x = ⟨claimOp e, .ok true⟩) ∨ (p ≠ q ∧ Armed e log p) := by
  by_cases hp : p = q
  · subst hp
    simp [Armed]
  · simp [Armed, hp, own_cons_ne (Ne.symm hp)]

/-- The adapter is called by a process that has just won the claim. -/
theorem armed_of_executes (hmay : may (requests p) (own p log) o) (ho : o.executes e = true) :
    Armed e log p := by
  cases o with
  | adapterExecute contract payload =>
    obtain ⟨claim, -, hchecked, rfl, -, rest, ht⟩ := hmay
    have hid : claim.execution.executionId = e :=
      hchecked.bound.symm.trans (by simpa [Op.executes] using ho)
    exact ⟨rest, hid ▸ ht⟩
  | _ => cases ho

/-- What a run keeps about the calls for one execution. -/
structure OneCall (e : ExecutionId) (log : GatewayLog) (w : World) : Prop where
  once : executeCalls e log ≤ 1
  called : executeCalls e log = 1 → ClaimedIn w e ∧ ∀ p, ¬ Armed e log p
  armed : ∀ p, Armed e log p → ClaimedIn w e
  unique : ∀ p q, Armed e log p → Armed e log q → p = q

theorem OneCall.start : OneCall e [] w where
  once := Nat.zero_le 1
  called h := absurd h (by simp [executeCalls])
  armed p h := by simp [Armed] at h
  unique p q h _ := by simp [Armed] at h

theorem executeCalls_cons (x : Reply Op Op.Result) :
    executeCalls e ((p, x) :: log) = executeCalls e log + if x.1.executes e then 1 else 0 := by
  simp [executeCalls, List.countP_cons]

/-- The call uses up the claim. -/
theorem OneCall.step_call (h : OneCall e log w) (hmay : may (requests p) (own p log) o)
    (ho : o.executes e = true) : OneCall e ((p, ⟨o, (o.exec i w).1⟩) :: log) (o.exec i w).2 := by
  have harmed : Armed e log p := armed_of_executes hmay ho
  have hzero : executeCalls e log = 0 := by
    have hne : executeCalls e log ≠ 1 := fun h1 => (h.called h1).2 p harmed
    have := h.once
    omega
  have hcalls : executeCalls e ((p, ⟨o, (o.exec i w).1⟩) :: log) = 1 := by
    rw [executeCalls_cons, hzero, if_pos ho]
  have hnone : ∀ q, ¬ Armed e ((p, ⟨o, (o.exec i w).1⟩) :: log) q := by
    intro q hq
    rcases armed_cons.mp hq with ⟨-, hx⟩ | ⟨hne, hq'⟩
    · have hop : o = claimOp e := congrArg Sigma.fst hx
      rw [hop] at ho
      cases ho
    · exact hne (h.unique q p hq' harmed)
  exact ⟨hcalls.le, fun _ => ⟨claimedIn_step hmay (h.armed p harmed), hnone⟩,
    fun q hq => absurd hq (hnone q), fun q _ hq => absurd hq (hnone q)⟩

/-- A won claim is the first one, and nobody has called yet. -/
theorem OneCall.step_claim (h : OneCall e log w)
    (hr : ((claimOp e).exec i w).1 = .ok true) :
    OneCall e ((p, ⟨claimOp e, ((claimOp e).exec i w).1⟩) :: log) ((claimOp e).exec i w).2 := by
  obtain ⟨hbefore, hafter⟩ := claim_won hr
  have hnone : ∀ q, ¬ Armed e log q := fun q hq => hbefore (h.armed q hq)
  have hzero : executeCalls e log = 0 := by
    have hne : executeCalls e log ≠ 1 := fun h1 => hbefore (h.called h1).1
    have := h.once
    omega
  have hcalls : executeCalls e ((p, ⟨claimOp e, ((claimOp e).exec i w).1⟩) :: log) = 0 := by
    rw [executeCalls_cons, hzero]
    rfl
  refine ⟨by omega, fun h1 => absurd h1 (by omega), fun _ _ => hafter, fun q₁ q₂ h₁ h₂ => ?_⟩
  rcases armed_cons.mp h₁ with ⟨rfl, -⟩ | ⟨-, h₁'⟩
  · rcases armed_cons.mp h₂ with ⟨rfl, -⟩ | ⟨-, h₂'⟩
    · rfl
    · exact absurd h₂' (hnone q₂)
  · exact absurd h₁' (hnone q₁)

/-- Any other step arms nobody. -/
theorem OneCall.step_other (h : OneCall e log w) (hmay : may (requests p) (own p log) o)
    (ho : o.executes e = false)
    (hx : (⟨o, (o.exec i w).1⟩ : Reply Op Op.Result) ≠ ⟨claimOp e, .ok true⟩) :
    OneCall e ((p, ⟨o, (o.exec i w).1⟩) :: log) (o.exec i w).2 := by
  have hold : ∀ q, Armed e ((p, ⟨o, (o.exec i w).1⟩) :: log) q → Armed e log q := by
    intro q hq
    rcases armed_cons.mp hq with ⟨-, hx'⟩ | ⟨-, hq'⟩
    · exact absurd hx' hx
    · exact hq'
  have hcalls : executeCalls e ((p, ⟨o, (o.exec i w).1⟩) :: log) = executeCalls e log := by
    rw [executeCalls_cons, ho]
    rfl
  refine ⟨hcalls ▸ h.once, fun h1 => ?_, fun q hq => claimedIn_step hmay (h.armed q (hold q hq)),
    fun q₁ q₂ h₁ h₂ => h.unique q₁ q₂ (hold q₁ h₁) (hold q₂ h₂)⟩
  obtain ⟨hclaimed, hnone⟩ := h.called (hcalls ▸ h1)
  exact ⟨claimedIn_step hmay hclaimed, fun q hq => hnone q (hold q hq)⟩

theorem OneCall.step (h : OneCall e log w) (hmay : may (requests p) (own p log) o) :
    OneCall e ((p, ⟨o, (o.exec i w).1⟩) :: log) (o.exec i w).2 := by
  by_cases ho : o.executes e = true
  · exact h.step_call hmay ho
  · by_cases hx : (⟨o, (o.exec i w).1⟩ : Reply Op Op.Result) = ⟨claimOp e, .ok true⟩
    · have hop : o = claimOp e := congrArg Sigma.fst hx
      subst hop
      exact h.step_claim (eq_of_heq (Sigma.mk.inj hx).2)
    · exact h.step_other hmay (by simpa using ho) hx

theorem oneCall_of_conforms (h : Conforms requests w₀ log w) : OneCall e log w := by
  induction h with
  | start => exact .start
  | step p o i _ hmay ih => exact ih.step hmay

/-! ## Whole runs -/

/-- Once the execution is canceled, nobody is armed and nothing is called any more. -/
theorem quiet_after_cancel (hb : Conforms requests w₀ log w) (hmay : may (requests p) (own p log) o)
    (h : w.executionState e = some .canceled ∧ executeCalls e log = 0) :
    (o.exec i w).2.executionState e = some .canceled ∧
      executeCalls e ((p, ⟨o, (o.exec i w).1⟩) :: log) = 0 := by
  refine ⟨terminal_step hmay rfl h.1, ?_⟩
  have hno : ¬ o.executes e = true := fun ho =>
    not_claimedIn_of_canceled h.1 ((oneCall_of_conforms hb).armed p (armed_of_executes hmay ho))
  rw [executeCalls_cons, h.2, if_neg hno]

/-- **At most one call of the adapter's execute, and none for an execution that is canceled at any
time**: in every run of the gateway, of any number of requests and background passes, with every
statement and transaction atomic. `s₁ ++ s₂` is the whole schedule; the execution is canceled after
`s₁`. -/
theorem execute_called_once_never_canceled (state : AppState) (requests : Nat → Request)
    (w₀ : World) (s₁ s₂ : Schedule) (e : ExecutionId) :
    executeCalls e (run state requests w₀ (s₁ ++ s₂)).log ≤ 1 ∧
      ((run state requests w₀ s₁).world.executionState e = some .canceled →
        executeCalls e (run state requests w₀ (s₁ ++ s₂)).log = 0) := by
  refine ⟨(oneCall_of_conforms (run_conforms state requests w₀ _)).once, fun hcanceled => ?_⟩
  have hmid := oneCall_of_conforms (e := e) (run_conforms state requests w₀ s₁)
  have hzero : executeCalls e (run state requests w₀ s₁).log = 0 := by
    have hne : executeCalls e (run state requests w₀ s₁).log ≠ 1 := fun h1 =>
      not_claimedIn_of_canceled hcanceled (hmid.called h1).1
    have := hmid.once
    omega
  exact (run_preserves (P := fun log w => w.executionState e = some .canceled ∧
    executeCalls e log = 0) (fun _ _ _ hb hmay h => quiet_after_cancel hb hmay h) s₁ s₂
    ⟨hcanceled, hzero⟩).2

end FerrumGate
