import FerrumGate.Safety.Gates

/-!
# What every run keeps

Results about the store over whole runs, assembled from the invariants of the other modules.

* **`history_kept`** : what was recorded is neither removed nor given another meaning.
* **`references_hold`** : executions, contracts and events name stored rows.
* **`states_follow_table`** : an execution moves along the table of the store, which
  `compare_and_set_state` does not look up.
* **`one_decision`** : a proposal has one policy decision.
* **`decided_stays`** : a decision on an approval or a hold is final.
-/

namespace FerrumGate

open Interleave Interleave.Rows

/-- **Nothing recorded is lost or changes its meaning**, from any moment of a run on. -/
theorem history_kept (state : AppState) (requests : Nat → Request) (s₁ s₂ : Schedule) :
    Stable (run state requests {} s₁).world (run state requests {} (s₁ ++ s₂)).world :=
  run_preserves (P := fun _ => Stable (run state requests {} s₁).world)
    (fun p _ _ hconforms hmay h =>
      h.trans _ _ _ (stable_step ((pairInv_of_conforms hconforms).2 p) hmay)) s₁ s₂ (.refl _)

/-! ## References -/

/-- The rows that such a row names are stored and about the same thing. -/
structure References (w : World) : Prop where
  capability : ∀ {e x}, find w.executions e = some x → ∃ lease,
    find w.capabilities x.capabilityId = some lease ∧ lease.status ≠ .active ∧
      lease.intentId = x.intentId ∧ lease.proposalId = x.proposalId
  contract : ∀ {e x id}, find w.executions e = some x → x.rollbackContractId = some id →
    ∃ c, find w.contracts id = some c ∧ c.executionId = x.executionId
  execution : ∀ {id c}, find w.contracts id = some c → ∃ x,
    find w.executions c.executionId = some x ∧
      (x.state ≠ .canceled → x.rollbackContractId = some id)
  events : ∀ event ∈ w.events,
    (event.kind.lifecycle = true → event.kind ≠ .errorRaised → OfExecution w event) ∧
      (event.kind = .capabilityMinted → OfCapability w event)

/-- **What these rows name is stored.** -/
theorem references_hold (state : AppState) (requests : Nat → Request) (s : Schedule) :
    References (run state requests {} s).world := by
  have hconforms := run_conforms state requests {} s
  have hpairs := (pairInv_of_conforms hconforms).1
  have hcontext := contextInv_of_conforms hconforms
  constructor
  · intro e x hx
    obtain ⟨lease, hlease, hids⟩ := hcontext.authorized hx
    obtain ⟨row, hrow, hclosed⟩ := (capabilityInv_of_conforms hconforms).referenced hx
    cases Option.some.inj (hlease.symm.trans hrow)
    exact ⟨lease, hlease, hclosed, hids⟩
  · intro e x id hx hlink
    obtain ⟨c, hc, hown, -⟩ := (hpairs.pair hx).contract hlink
    exact ⟨c, hc, hown⟩
  · intro id c hc
    obtain ⟨x, hx⟩ := hpairs.owner hc
    exact ⟨x, hx, hpairs.linked hc hx⟩
  · exact fun event hevent => ⟨hcontext.lifecycle hevent, hcontext.minted hevent⟩

/-! ## States -/

/-- An execution is authorized, or its state moves as the table allows. -/
inductive Moves : Option ExecutionState → Option ExecutionState → Prop
  | authorized {s : ExecutionState} (mem : s = .authorized ∨ s = .prepared) : Moves none (some s)
  | valid {s s' : ExecutionState} (ok : isValidExecutionTransition s s' = true) :
      Moves (some s) (some s')

theorem moves_step {served : Request} {t : Knowledge} {o : Op} {i : Input} {w : World}
    (hmay : may served t o) (e : ExecutionId) :
    Relation.ReflGen Moves (w.executionState e) ((o.exec i w).2.executionState e) := by
  have hstep := execution_step (i := i) (w := w) hmay e
  have hvalid (s : ExecutionState) :
      (s.preClaim = true → isValidExecutionTransition s .running = true) ∧
        (cancelable s = true → isValidExecutionTransition s .canceled = true) := by
    cases s <;> decide
  unfold World.executionState
  generalize (o.exec i w).1 = r at hstep
  generalize find w.executions e = row, find (o.exec i w).2.executions e = row' at hstep ⊢
  cases hstep with
  | same => exact .refl
  | authorized _ write => exact .single (.authorized write.execution_new.2)
  | claimed _ _ hpre => exact .single (.valid ((hvalid _).1 hpre))
  | canceled _ _ _ _ hcancelable => exact .single (.valid ((hvalid _).2 hcancelable))
  | transition _ _ _ valid => exact .single (.valid valid)

/-- **The state of an execution follows the table**, at every step of every run from any store. -/
theorem states_follow_table (state : AppState) (requests : Nat → Request) (w₀ : World)
    (s : Schedule) (p : Nat) (i : Input) (e : ExecutionId) :
    Relation.ReflGen Moves ((run state requests w₀ s).world.executionState e)
      ((run state requests w₀ (s ++ [(p, i)])).world.executionState e) := by
  have hobeys := (run_obeys state requests w₀ s).2 p
  rw [run_append]
  show Relation.ReflGen Moves _
    (((run state requests w₀ s).step Op.exec p i).world.executionState e)
  unfold Config.step
  cases hp : (run state requests w₀ s).procs p with
  | pure r => exact .refl
  | perform o k =>
    rw [hp] at hobeys
    exact moves_step hobeys.1 e

/-! ## Decisions -/

/-- **A proposal has one policy decision**, however often it is submitted. -/
theorem one_decision (state : AppState) (requests : Nat → Request) (s : Schedule)
    (id : ProposalId) : ∃ d, ∀ event ∈ (run state requests {} s).world.events,
      event.kind = .policyEvaluated → event.proposalId = some id →
        event.metadata.decision = some d := by
  have hconforms := run_conforms state requests {} s
  by_cases h : ∃ event ∈ (run state requests {} s).world.events,
      event.kind = .policyEvaluated ∧ event.proposalId = some id
  · obtain ⟨policy, hpolicy, hkind, hid⟩ := h
    obtain ⟨d, hd⟩ := policy_decided hconforms hpolicy hkind
    refine ⟨d, fun event hevent hkind' hid' => ?_⟩
    obtain ⟨d', hd'⟩ := policy_decided hconforms hevent hkind'
    rw [hd', decision_unique hconforms hevent hpolicy hkind' hkind (hid'.trans hid.symm) hd' hd]
  · exact ⟨"", fun event hevent hkind hid => absurd ⟨event, hevent, hkind, hid⟩ h⟩

section Final

variable {V K : Type} {pending : V → Prop}

/-- The row is as before, or it was pending or not there. -/
def Final (pending : V → Prop) (old new : Option V) : Prop := new = old ∨ ∀ v ∈ old, pending v

theorem Final.trans {a b c : Option V} (h₁ : Final pending a b) (h₂ : Final pending b c) :
    Final pending a c := by
  rcases h₁ with rfl | h
  · exact h₂
  · exact .inr h

variable [Keyed V K] [DecidableEq K] {rows : List V} {v row : V}

theorem Final.append (new : find rows (Keyed.key v) = none) (id : K) :
    Final pending (find rows id) (find (rows ++ [v]) id) :=
  find_append_rel (P := Final pending) new id (.inl rfl) fun _ => .inr (by simp)

theorem Final.put (found : find rows (Keyed.key v) = some row) (h : pending row) (id : K) :
    Final pending (find rows id) (find (put rows v) id) :=
  find_put_rel (P := Final pending) found id (.inl rfl) fun _ => .inr (by simpa using h)

end Final

theorem final_step (o : Op) (i : Input) (w : World) :
    (∀ id, Final (·.state = .pending) (find w.approvals id) (find (o.exec i w).2.approvals id)) ∧
    ∀ id, Final (·.state = .pending) (find w.holds id) (find (o.exec i w).2.holds id) := by
  rcases exec_effect o i w with ⟨_, hw⟩ | ⟨_, hq⟩
  · generalize (o.exec i w).1 = r, (o.exec i w).2 = w' at hw ⊢
    cases hw with
    | insertApproval new => exact ⟨.append new, fun _ => .inl rfl⟩
    | insertHold new => exact ⟨fun _ => .inl rfl, .append new⟩
    | resolveApproval found pending | expireApproval found pending =>
      exact ⟨.put found pending, fun _ => .inl rfl⟩
    | writeHoldIfPending found pending => exact ⟨fun _ => .inl rfl, .put found pending⟩
    | claimPendingReconciliation =>
      rw [World.claimPendingReconciliation_eq]
      exact ⟨fun _ => .inl rfl, fun _ => .inl rfl⟩
    | _ => exact ⟨fun _ => .inl rfl, fun _ => .inl rfl⟩
  · rw [hq]
    exact ⟨fun _ => .inl rfl, fun _ => .inl rfl⟩

/-- **An approval or a hold that is decided is never decided again**, from any store. -/
theorem decided_stays (state : AppState) (requests : Nat → Request) (w₀ : World)
    (s₁ s₂ : Schedule) :
    (∀ id, Final (·.state = .pending) (find (run state requests w₀ s₁).world.approvals id)
      (find (run state requests w₀ (s₁ ++ s₂)).world.approvals id)) ∧
    ∀ id, Final (·.state = .pending) (find (run state requests w₀ s₁).world.holds id)
      (find (run state requests w₀ (s₁ ++ s₂)).world.holds id) := by
  constructor <;> intro id
  · exact run_preserves (P := fun _ w => Final _ _ (find w.approvals id))
      (fun _ o i _ _ h => h.trans ((final_step o i _).1 id)) s₁ s₂ (.inl rfl)
  · exact run_preserves (P := fun _ w => Final _ _ (find w.holds id))
      (fun _ o i _ _ h => h.trans ((final_step o i _).2 id)) s₁ s₂ (.inl rfl)

end FerrumGate
