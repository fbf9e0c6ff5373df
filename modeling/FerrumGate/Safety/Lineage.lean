import FerrumGate.Safety.Capability

/-!
# What a side effect rests on

Before the adapter's execute, the handler compares its payload with the stored proposal and walks
the lineage back to the policy decision. `execute_grounded` says what that is worth over a whole
run from the empty store, whatever else is going on and whatever is ingested from outside.

The gate finds events by kind and ids. That a policy event with a decision speaks about an
evaluation of the very proposal that is stored (`GovernanceInv.policies`) is an invariant: the
event is appended by the process that evaluated and inserted the proposal, a proposal id is
inserted once, and no event that is ingested or repaired carries a decision.
-/

namespace FerrumGate

open Interleave Interleave.Rows

variable {served : Request} {requests : Nat → Request} {t : Knowledge} {o : Op} {i : Input}
  {w : World} {log : GatewayLog} {p : Nat}

/-! ## The statement -/

/-- The policy engine has evaluated the proposal as it is stored, up to the owner that is filled in
with the insert. -/
def EvaluatedAs (log : GatewayLog) (proposal : ActionProposal) (verdict : PolicyVerdict) : Prop :=
  ∃ q owner, (q, ⟨.evaluatePolicy { proposal with ownerActorId := owner }, some verdict⟩) ∈ log

/-- The decision lets the side effect pass: it allows it, or it requires an approval and one was
granted for the same intent and proposal, not earlier. -/
def DecisionAllows (w : World) (x : ExecutionRecord) (policy : ProvenanceEvent)
    (decision : Decision) : Prop :=
  decision = .allow ∨ decision = .requireApproval ∧ ∃ grant ∈ w.events,
    grant.kind = .approvalGranted ∧ grant.intentId = some x.intentId ∧
      grant.proposalId = some x.proposalId ∧ policy.occurredAt ≤ grant.occurredAt

/-- **What the side effect of an execution must rest on.** -/
structure Grounded (log : GatewayLog) (w : World) (x : ExecutionRecord) (payload : Json) : Prop where
  governed : ∃ proposal verdict policy, find w.proposals x.proposalId = some proposal ∧
    payload = proposal.rawArguments ∧ EvaluatedAs log proposal verdict ∧ policy ∈ w.events ∧
    policy.kind = .policyEvaluated ∧ policy.intentId = some x.intentId ∧
    policy.proposalId = some x.proposalId ∧
    policy.metadata.decision = some verdict.decision.debug ∧
    DecisionAllows w x policy verdict.decision
  minted : ∃ event ∈ w.events, event.kind = .capabilityMinted ∧
    event.intentId = some x.intentId ∧ event.capabilityId = some x.capabilityId
  consumed : ∃ q lease x₀ outbox now,
    (q, ⟨.recordAuthorization lease x₀ outbox now, .ok true⟩) ∈ log ∧
      lease.capabilityId = x.capabilityId ∧ x₀.executionId = x.executionId
  exclusive : ∀ {q lease x₀ outbox now},
    (q, ⟨.recordAuthorization lease x₀ outbox now, .ok true⟩) ∈ log →
      lease.capabilityId = x.capabilityId → x₀.executionId = x.executionId

/-! ## The invariant -/

/-- Inserted proposals stay, and decisions come from evaluations of them. -/
structure GovernanceInv (log : GatewayLog) (w : World) : Prop where
  inserted : ∀ {q proposal}, (q, ⟨.insertProposal proposal, .ok ()⟩) ∈ log →
    find w.proposals proposal.proposalId = some proposal
  policies : ∀ {event d}, event ∈ w.events → event.kind = .policyEvaluated →
    event.metadata.decision = some d → ∃ q submitted owner verdict,
      (q, ⟨.evaluatePolicy submitted, some verdict⟩) ∈ log ∧
      (q, ⟨.insertProposal { submitted with ownerActorId := owner }, .ok ()⟩) ∈ log ∧
      event.proposalId = some submitted.proposalId ∧ d = verdict.decision.debug

variable {event : ProvenanceEvent}

/-- The decision of the event is the verdict on a proposal that was then inserted. -/
def Evaluated (t : Knowledge) (event : ProvenanceEvent) (d : String) : Prop :=
  ∃ submitted owner verdict, Saw t (.evaluatePolicy submitted) (some verdict) ∧
    Saw t (.insertProposal { submitted with ownerActorId := owner }) (.ok ()) ∧
    event.proposalId = some submitted.proposalId ∧ d = verdict.decision.debug

/-- Of the events the gateway generates, only that of an evaluation carries a decision. -/
theorem Announces.policy {d : String} (h : Announces t event)
    (hkind : event.kind = .policyEvaluated) (hd : event.metadata.decision = some d) :
    Evaluated t event d := by
  generalize hevent : event = event' at h
  cases h with
  | policyEvaluated evaluated inserted =>
    subst hevent
    exact ⟨_, _, _, evaluated, inserted, rfl, (Option.some.inj hd).symm⟩
  | lifecycle _ _ _ _ event_ =>
    subst hevent
    rw [event_.decision] at hd
    cases hd
  | _ =>
    subst hevent
    cases hd

theorem Appends.policy {edges : List ProvenanceEdge} {d : String} (h : Appends t event edges)
    (hkind : event.kind = .policyEvaluated) (hd : event.metadata.decision = some d) :
    Evaluated t event d := by
  cases h with
  | root announced => exact announced.policy hkind hd
  | linked announced => exact announced.policy hkind hd
  | orphan announced => exact announced.policy hkind hd

theorem Repair.decision {edges : List ProvenanceEdge} (h : Repair t event edges) :
    event.metadata.decision = none := by
  cases h
  rfl

theorem insertProposal_stored {proposal : ActionProposal}
    (h : ((Op.insertProposal proposal).exec i w).1 = .ok ()) :
    find ((Op.insertProposal proposal).exec i w).2.proposals proposal.proposalId =
      some proposal := by
  have hw := exec_wrote (o := .insertProposal proposal) (i := i) (w := w) (by rw [h]; rfl)
  generalize ((Op.insertProposal proposal).exec i w).2 = w' at hw ⊢
  generalize ((Op.insertProposal proposal).exec i w).1 = r at hw
  cases hw with
  | insertProposal new => exact find_append_self new

theorem GovernanceInv.step (h : GovernanceInv log w) (hmay : may (requests p) (own p log) o) :
    GovernanceInv ((p, ⟨o, (o.exec i w).1⟩) :: log) (o.exec i w).2 where
  inserted := by
    intro q proposal hmem
    rcases List.mem_cons.mp hmem with heq | hold
    · obtain ⟨-, hx⟩ := Prod.mk.inj heq
      obtain ⟨rfl, hr⟩ := Sigma.mk.inj hx
      exact insertProposal_stored (eq_of_heq hr).symm
    · exact proposal_step (h.inserted hold)
  policies := by
    intro event d hevent hkind hd
    have hnew : Evaluated (own p log) event d → ∃ q submitted owner verdict,
        (q, ⟨.evaluatePolicy submitted, some verdict⟩) ∈ (p, ⟨o, (o.exec i w).1⟩) :: log ∧
        (q, ⟨.insertProposal { submitted with ownerActorId := owner }, .ok ()⟩) ∈
          (p, ⟨o, (o.exec i w).1⟩) :: log ∧
        event.proposalId = some submitted.proposalId ∧ d = verdict.decision.debug := by
      rintro ⟨submitted, owner, verdict, hevaluated, hinserted, hid, hdecision⟩
      exact ⟨p, submitted, owner, verdict, List.mem_cons_of_mem _ (mem_own.mp hevaluated),
        List.mem_cons_of_mem _ (mem_own.mp hinserted), hid, hdecision⟩
    rcases event_cases hmay hevent with hold | ⟨-, hnoted | ⟨edges, happended | hrepaired⟩⟩
    · obtain ⟨q, submitted, owner, verdict, hevaluated, hinserted, hrest⟩ :=
        h.policies hold hkind hd
      exact ⟨q, submitted, owner, verdict, List.mem_cons_of_mem _ hevaluated,
        List.mem_cons_of_mem _ hinserted, hrest⟩
    · have hkind' := hnoted.noted
      rw [hkind] at hkind'
      cases hkind'
    · exact hnew (happended.policy hkind hd)
    · rw [hrepaired.decision] at hd
      cases hd

theorem governanceInv_of_conforms (h : Conforms requests {} log w) : GovernanceInv log w := by
  induction h with
  | start =>
    exact ⟨fun h => absurd h List.not_mem_nil, fun h => absurd h List.not_mem_nil⟩
  | step p o i _ hmay ih => exact ih.step hmay

/-! ## What the gate found is still there -/

variable {d : Decision} {policy : ProvenanceEvent}

section Reads

variable {x : ExecutionRecord}

/-- The events that a query answered are stored, and of the intent that was asked for. -/
theorem Trusted.events (h : Trusted w t) {id : IntentId} {events : List ProvenanceEvent}
    (hs : Saw t (.queryEvents { intentId := some id }) (.ok events)) (hmem : event ∈ events) :
    event ∈ w.events ∧ event.intentId = some id := by
  obtain ⟨hstored, hmatches⟩ := h.queried hs hmem
  exact ⟨hstored, (World.ProvenanceQuery.matchesEvent_iff.mp hmatches).1 id rfl⟩

theorem Trusted.proposal (h : Trusted w t) {id : ProposalId} {proposal : ActionProposal}
    (hs : Saw t (.getProposal id) (.ok (some proposal))) :
    find w.proposals id = some proposal := by
  obtain ⟨w₁, _, hstable, ha⟩ := h.read hs (fun w₁ => find w₁.proposals id) (some proposal)
    fun i w₁ hr => ⟨readWith_snd i _ w₁, readWith_ok hr.symm⟩
  exact hstable.proposals ha.symm

theorem decisionFromPolicyEvent_some (h : decisionFromPolicyEvent event = some d) :
    event.metadata.decision = some d.debug := by
  unfold decisionFromPolicyEvent at h
  split at h <;> cases h
  all_goals assumption

/-- The gate passes two decisions. -/
theorem checkPolicyDecision_ok {events : List ProvenanceEvent}
    (h : checkPolicyDecision events x policy = .ok ()) :
    ∃ d, decisionFromPolicyEvent policy = some d ∧
      (d = .allow ∨ d = .requireApproval ∧ hasApprovalGrantedForPolicy events x policy = true) := by
  unfold checkPolicyDecision at h
  split at h
  · exact ⟨_, ‹_›, .inl rfl⟩
  · exact ⟨_, ‹_›, .inr ⟨rfl, ensure_ok.mp h⟩⟩
  · cases h
  · cases h

theorem debug_injective {d' : Decision} (h : d.debug = d'.debug) : d = d' := by
  cases d <;> cases d' <;> first | rfl | exact absurd h (by decide)

end Reads

/-- What the claimed execution's lineage says about its policy decision. -/
theorem decisionAllows_of_lineage (ht : Trusted w t) {x : ExecutionRecord}
    {events : List ProvenanceEvent} {verdict : PolicyVerdict}
    (hs : Saw t (.queryEvents { intentId := some x.intentId }) (.ok events))
    (hcheck : checkPolicyDecision events x policy = .ok ())
    (hdecision : policy.metadata.decision = some verdict.decision.debug) :
    DecisionAllows w x policy verdict.decision := by
  obtain ⟨d, hd, hpasses⟩ := checkPolicyDecision_ok hcheck
  have hverdict : verdict.decision = d :=
    debug_injective (Option.some.inj (hdecision.symm.trans (decisionFromPolicyEvent_some hd)))
  rw [hverdict]
  rcases hpasses with hallow | ⟨hrequire, happroved⟩
  · exact .inl hallow
  · obtain ⟨grant, hmem, hgrant⟩ := List.any_eq_true.mp happroved
    simp only [Bool.and_eq_true, decide_eq_true_eq] at hgrant
    obtain ⟨⟨⟨hkind, hintent⟩, hproposal⟩, htime⟩ := hgrant
    exact .inr ⟨hrequire, grant, (ht.events hs hmem).1, hkind, hintent, hproposal, htime⟩

theorem DecisionAllows.same {x y : ExecutionRecord} (hsame : SameExecution y x)
    (h : DecisionAllows w x policy d) : DecisionAllows w y policy d := by
  obtain ⟨-, hproposal, hintent, -⟩ := hsame
  unfold DecisionAllows at h ⊢
  rw [hproposal, hintent]
  exact h

/-- The checks before the claim, in the world of any later moment. -/
theorem grounded_of_checked (hinv : GovernanceInv log w) (hcap : CapabilityInv log w)
    (ht : Trusted w t) {claim : ExecutionClaim} (hc : Checked t claim) :
    ∃ x, find w.executions claim.contract.executionId = some x ∧ Grounded log w x claim.payload := by
  obtain ⟨w₁, _, hstable, hread⟩ := ht.execution hc.pair.execution
  obtain ⟨x, hx, hsame⟩ := hstable.executions hread
  obtain ⟨events, policy, capability, hquery, hlineage⟩ := hc.lineage
  obtain ⟨proposal, hproposal, hpayload⟩ := hc.payload
  obtain ⟨-, hproposalId, hintentId, hcapabilityId⟩ := id hsame
  have hid : x.executionId = claim.execution.executionId := hsame.1
  refine ⟨x, by rw [hc.bound]; exact hx, ?_, ?_, ?_, ?_⟩
  · obtain ⟨d, hd, -⟩ := checkPolicyDecision_ok hlineage.decision
    obtain ⟨hpolicy, hintent⟩ := ht.events hquery hlineage.policyRead
    obtain ⟨q, submitted, owner, verdict, hevaluated, hinserted, hsubmitted, hverdict⟩ :=
      hinv.policies hpolicy hlineage.policyKind (decisionFromPolicyEvent_some hd)
    -- the id of the policy event leads to the proposal its process inserted
    have hstored := ht.proposal hproposal
    have hsubmittedId : submitted.proposalId = claim.execution.proposalId :=
      Option.some.inj (hsubmitted.symm.trans hlineage.policyProposal)
    have hsameProposal : proposal = { submitted with ownerActorId := owner } := by
      have hthere := hinv.inserted hinserted
      rw [← hsubmittedId] at hstored
      exact Option.some.inj (hstored.symm.trans hthere)
    have hdecision : policy.metadata.decision = some verdict.decision.debug := by
      rw [decisionFromPolicyEvent_some hd, hverdict]
    refine ⟨proposal, verdict, policy, by rw [hproposalId]; exact hstored, hpayload, ?_, hpolicy,
      hlineage.policyKind, by rw [hintentId]; exact hintent,
      by rw [hproposalId]; exact hlineage.policyProposal, hdecision, ?_⟩
    · exact ⟨q, submitted.ownerActorId, by rw [hsameProposal]; exact hevaluated⟩
    · exact (decisionAllows_of_lineage ht hquery hlineage.decision hdecision).same hsame
  · obtain ⟨hcapability, hintent⟩ := ht.events hquery hlineage.capabilityRead
    exact ⟨capability, hcapability, hlineage.capabilityKind, by rw [hintentId]; exact hintent,
      by rw [hcapabilityId]; exact hlineage.capabilityId⟩
  · obtain ⟨q, lease, x₀, outbox, now, hmem, hcapability, hx₀⟩ := hcap.authorized hx
    exact ⟨q, lease, x₀, outbox, now, hmem, hcapability, hx₀.trans hid.symm⟩
  · intro q lease x₀ outbox now hmem hcapability
    obtain ⟨-, y, hy, hy'⟩ := hcap.consumed hmem
    exact (hcap.unique hy hx (hy'.trans hcapability)).trans hid.symm

/-- **Whenever the adapter's execute is invoked, the side effect is grounded**: in every run of the
gateway from the empty store. The execution is the one the contract belongs to; `s` may end with
the call, and nothing of this is lost later. -/
theorem execute_grounded (state : AppState) (requests : Nat → Request) (s : Schedule)
    (p : Nat) (contract : RollbackContract) (payload : Json) (receipt : Option ExecuteReceipt)
    (h : (p, ⟨.adapterExecute contract payload, receipt⟩) ∈ (run state requests {} s).log) :
    ∃ x, find (run state requests {} s).world.executions contract.executionId = some x ∧
      Grounded (run state requests {} s).log (run state requests {} s).world x payload := by
  have hconforms := run_conforms state requests {} s
  obtain ⟨newer, older, hlog⟩ := List.append_of_mem h
  obtain ⟨w₁, i, _, hmay, -⟩ := hconforms.entry hlog
  obtain ⟨claim, -, hchecked, rfl, rfl, -⟩ := hmay
  have hsubset : own p older ⊆ own p (run state requests {} s).log :=
    own_subset (by rw [hlog]; simp)
  exact grounded_of_checked (governanceInv_of_conforms hconforms)
    (capabilityInv_of_conforms hconforms) ((pairInv_of_conforms hconforms).2 p)
    (hchecked.mono hsubset)

/-- A side effect with this payload. -/
def Op.executesOn (content : Json) : Op → Bool
  | .adapterExecute _ payload => payload = content
  | _ => false

/-- The sample workflow reaches its side effect, with the payload of its proposal. -/
theorem execute_grounded_sample :
    ∃ contract receipt, (5, ⟨.adapterExecute contract (.str "content"), receipt⟩) ∈
        (run Sample.state (Sample.requests fun _ => .haReconcilerPass) {} Sample.executed).log ∧
      ∃ x, find (run Sample.state (Sample.requests fun _ => .haReconcilerPass) {}
          Sample.executed).world.executions contract.executionId = some x ∧
        Grounded (run Sample.state (Sample.requests fun _ => .haReconcilerPass) {}
            Sample.executed).log
          (run Sample.state (Sample.requests fun _ => .haReconcilerPass) {} Sample.executed).world
          x (.str "content") := by
  have hany : (run Sample.state (Sample.requests fun _ => .haReconcilerPass) {}
      Sample.executed).log.any (fun entry => entry.1 = 5 && entry.2.1.executesOn (.str "content"))
        = true := by
    decide +kernel
  obtain ⟨⟨p, o, r⟩, hmem, ho⟩ := List.any_eq_true.mp hany
  simp only [Bool.and_eq_true, decide_eq_true_eq] at ho
  obtain ⟨rfl, ho⟩ := ho
  cases o with
  | adapterExecute contract payload =>
    cases of_decide_eq_true ho
    exact ⟨contract, r, hmem, execute_grounded _ _ _ _ _ _ _ hmem⟩
  | _ => cases ho

end FerrumGate
