import FerrumGate.Safety.Lineage
import FerrumGate.Safety.Graph

/-!
# The mint gate and the lineage gate

A proposal's policy decision is judged twice: by `mint_capability`, from the decision event, the
approval named in the request and the quarantine hold; and before the side effect by
`validate_minimum_lineage_chain`, from the decision event and the events of granted approvals. The
second gate knows nothing of holds.

`lineage_gate_after_mint` says what the second gate makes of a capability that the first one let
through: it judges the same decision (a proposal is evaluated once), accepts an `Allow`, accepts a
`RequireApproval` when the grant has been recorded for the execution's own intent and proposal, and
refuses a `Quarantine` whatever the operator decided. `released_proposal_refused` is such a run.
-/

namespace FerrumGate

open Interleave Interleave.Rows

variable {served : Request} {requests : Nat → Request} {t : Knowledge} {o : Op} {i : Input}
  {w : World} {log : GatewayLog} {p q : Nat} {event policy : ProvenanceEvent} {d : Decision}

/-! ## One decision per proposal -/

/-- The process has inserted the proposal. -/
def inserts (id : ProposalId) : Reply Op Op.Result → Bool
  | ⟨.insertProposal proposal, .ok ()⟩ => proposal.proposalId = id
  | _ => false

/-- The process has asked the policy engine. -/
def evaluates (x : Reply Op Op.Result) : Bool := x.1 matches .evaluatePolicy _

theorem inserts_new {id : ProposalId} (h : inserts id ⟨o, (o.exec i w).1⟩ = true) :
    find w.proposals id = none ∧ find (o.exec i w).2.proposals id ≠ none := by
  rcases exec_effect o i w with ⟨_, hw⟩ | ⟨hquiet, _⟩
  · generalize (o.exec i w).2 = w' at hw ⊢
    generalize (o.exec i w).1 = r at hw h
    cases hw with
    | @insertProposal _ proposal new =>
      obtain rfl : proposal.proposalId = id := of_decide_eq_true h
      have hfind : find (w.proposals ++ [proposal]) proposal.proposalId = some proposal :=
        find_append_self new
      exact ⟨new, by simp [hfind]⟩
    | _ => cases h
  · generalize (o.exec i w).1 = r at hquiet h
    cases o with
    | insertProposal =>
      cases r with
      | error e => cases h
      | ok u => cases hquiet
    | _ => cases h

/-- A proposal id is inserted once. -/
theorem inserted_once (h : Conforms requests {} log w) (id : ProposalId) :
    Once (inserts id) log ∧ ∀ e ∈ log, inserts id e.2 = true → find w.proposals id ≠ none := by
  induction h with
  | start => exact ⟨.nil, fun e he => absurd he (by simp)⟩
  | step p o i hb hmay ih =>
    obtain ⟨honce, hstored⟩ := ih
    refine ⟨List.pairwise_cons.mpr ⟨fun e he hboth => ?_, honce⟩, fun e he hinserts => ?_⟩
    · exact hstored e he hboth.2 (inserts_new hboth.1).1
    · rcases List.mem_cons.mp he with rfl | hold
      · exact (inserts_new hinserts).2
      · obtain ⟨proposal, hproposal⟩ := Option.ne_none_iff_exists'.mp (hstored e hold hinserts)
        rw [proposal_step hproposal]
        simp

/-- A process asks the policy engine once. -/
theorem evaluated_once (h : Conforms requests {} log w) (p : Nat) :
    (own p log).Pairwise fun a b => ¬ (evaluates a = true ∧ evaluates b = true) := by
  induction h with
  | start => exact .nil
  | step q o i hb hmay ih =>
    by_cases hq : q = p
    · subst hq
      rw [own_cons_self]
      refine List.pairwise_cons.mpr ⟨fun e he hboth => ?_, ih⟩
      obtain ⟨hnew, hold⟩ := hboth
      cases o with
      | evaluatePolicy proposal =>
        obtain ⟨o', r'⟩ := e
        cases o' with
        | evaluatePolicy proposal' => exact hmay _ he proposal' rfl
        | _ => cases hold
      | _ => cases hnew
    · rw [own_cons_ne hq]
      exact ih

/-- Two decisions on one proposal are the same. -/
theorem decision_unique (h : Conforms requests {} log w) {d₁ d₂ : String}
    (hevent : event ∈ w.events) (hpolicy : policy ∈ w.events) (hkind : event.kind = .policyEvaluated)
    (hkind' : policy.kind = .policyEvaluated) (hproposal : event.proposalId = policy.proposalId)
    (hd₁ : event.metadata.decision = some d₁) (hd₂ : policy.metadata.decision = some d₂) :
    d₁ = d₂ := by
  have hinv := governanceInv_of_conforms h
  obtain ⟨q₁, submitted₁, owner₁, verdict₁, heval₁, hins₁, hid₁, rfl⟩ := hinv.policies hevent hkind hd₁
  obtain ⟨q₂, submitted₂, owner₂, verdict₂, heval₂, hins₂, hid₂, rfl⟩ :=
    hinv.policies hpolicy hkind' hd₂
  have hsame : submitted₁.proposalId = submitted₂.proposalId :=
    Option.some.inj (hid₁.symm.trans (hproposal.trans hid₂))
  have hinsert := (inserted_once h submitted₂.proposalId).1.eq hins₁ hins₂
    (decide_eq_true hsame) (decide_eq_true rfl)
  obtain rfl : q₁ = q₂ := congrArg Prod.fst hinsert
  have heval := eq_of_pairwise (evaluated_once h q₁) (mem_own.mpr heval₁) (mem_own.mpr heval₂)
    rfl rfl
  cases heval
  rfl

theorem Announces.decided (hkinds : OwedKinds t) (h : Announces t event)
    (hkind : event.kind = .policyEvaluated) : ∃ d, event.metadata.decision = some d := by
  cases h with
  | @policyEvaluated submitted owner verdict => exact ⟨verdict.decision.debug, rfl⟩
  | holdCreated | capabilityMinted | capabilityRevoked | haCanceled => cases hkind
  | holdDecided kind_ => rcases kind_ with rfl | rfl <;> cases hkind
  | @lifecycle _ _ _ kind _ _ _ _ _ tail _ owed =>
    have hkind' : kind = .policyEvaluated := hkind
    subst hkind'
    cases hkinds tail.owns owed

/-- Every stored policy event carries a decision. -/
theorem policy_decided (h : Conforms requests {} log w) (hevent : event ∈ w.events)
    (hkind : event.kind = .policyEvaluated) : ∃ d, event.metadata.decision = some d := by
  induction h with
  | start => cases hevent
  | step p o i hb hmay ih =>
    have hkinds : OwedKinds (own p _) := owedKinds_of_conforms hb
    rcases event_cases hmay hevent with hold | ⟨-, hnoted | ⟨edges, happended | hrepaired⟩⟩
    · exact ih hold
    · have hnoted' := hnoted.noted
      rw [hkind] at hnoted'
      cases hnoted'
    · cases happended with
      | root announced => exact announced.decided hkinds hkind
      | linked announced => exact announced.decided hkinds hkind
      | orphan announced =>
        have hdecided := announced.decided hkinds hkind
        exact hdecided
    · have hlifecycle := hrepaired.lifecycle ((recordInv_of_conforms hb).2 p)
      rw [hkind] at hlifecycle
      cases hlifecycle

/-! ## What the gates read -/

theorem CapabilityWrite.mint_inv {lease : CapabilityLease}
    (h : CapabilityWrite served t (.insertCapability lease)) :
    ∃ actor request d, served = .mintCapability actor request ∧ MintGate t request d ∧
      lease.intentId = request.intentId ∧ lease.proposalId = request.proposalId := by
  generalize ho : Op.insertCapability lease = o at h
  cases h with
  | mint asked fresh gate =>
    cases ho
    exact ⟨_, _, _, asked, gate, rfl, rfl⟩
  | _ => cases ho

theorem MintGate.judged {request : CapabilityMintRequest} (h : MintGate t request d) :
    Judged t request d := by
  cases h with
  | allowed judged => exact judged
  | approved judged => exact judged
  | released judged => exact judged

/-- The event the mint gate judged is stored. -/
theorem Judged.stored (ht : Trusted w t) {request : CapabilityMintRequest}
    (h : Judged t request d) :
    ∃ event ∈ w.events, event.kind = .policyEvaluated ∧
      event.proposalId = some request.proposalId ∧ decisionFromPolicyEvent event = some d := by
  obtain ⟨events, event, hquery, hmem, hproposal, hdecision⟩ := h
  obtain ⟨hstored, hmatches⟩ := ht.queried hquery hmem
  obtain ⟨-, -, -, hkind⟩ := World.ProvenanceQuery.matchesEvent_iff.mp hmatches
  exact ⟨event, hstored, hkind _ rfl, hproposal, hdecision⟩

theorem mem_queryEvents {query : World.ProvenanceQuery} :
    event ∈ World.queryEvents query w ↔ event ∈ w.events ∧ query.matchesEvent event = true := by
  unfold World.queryEvents
  rw [List.mem_filter, List.mem_insertionSort]

/-- The grant that the lineage gate looks for among the events of the intent. -/
theorem hasApprovalGranted_iff {x : ExecutionRecord} :
    hasApprovalGrantedForPolicy (World.queryEvents { intentId := some x.intentId } w) x policy =
        true ↔ ∃ grant ∈ w.events, grant.kind = .approvalGranted ∧
          grant.intentId = some x.intentId ∧ grant.proposalId = some x.proposalId ∧
          policy.occurredAt ≤ grant.occurredAt := by
  unfold hasApprovalGrantedForPolicy
  rw [List.any_eq_true]
  constructor
  · rintro ⟨grant, hmem, hgrant⟩
    simp only [Bool.and_eq_true, decide_eq_true_eq] at hgrant
    obtain ⟨⟨⟨hkind, hintent⟩, hproposal⟩, htime⟩ := hgrant
    exact ⟨grant, (mem_queryEvents.mp hmem).1, hkind, hintent, hproposal, htime⟩
  · rintro ⟨grant, hmem, hkind, hintent, hproposal, htime⟩
    refine ⟨grant, mem_queryEvents.mpr ⟨hmem, ?_⟩, by simp [hkind, hintent, hproposal, htime]⟩
    exact World.ProvenanceQuery.matchesEvent_iff.mpr (by simp [hintent])

/-- The lineage gate's judgement of a decision. -/
theorem checkPolicyDecision_iff {x : ExecutionRecord} (h : decisionFromPolicyEvent policy = some d) :
    checkPolicyDecision (World.queryEvents { intentId := some x.intentId } w) x policy = .ok () ↔
      DecisionAllows w x policy d := by
  unfold checkPolicyDecision DecisionAllows
  rw [h]
  cases d with
  | allow => simp
  | requireApproval => simp [ensure_ok, hasApprovalGranted_iff]
  | _ => simp

/-! ## Agreement -/

/-- **The lineage gate on a capability that the mint gate let through.** The capability `lease` was
minted with the decision `d`, the execution `x` was authorized with it, and `policy` is any policy
event of its proposal: the gate accepts if and only if `d` allows the side effect. -/
theorem lineage_gate_after_mint (state : AppState) (requests : Nat → Request) (s : Schedule)
    (p : Nat) (lease : CapabilityLease) (e : ExecutionId) (x : ExecutionRecord)
    (policy : ProvenanceEvent)
    (hminted : (p, ⟨.insertCapability lease, .ok ()⟩) ∈ (run state requests {} s).log)
    (hx : find (run state requests {} s).world.executions e = some x)
    (hcapability : x.capabilityId = lease.capabilityId)
    (hpolicy : policy ∈ (run state requests {} s).world.events)
    (hkind : policy.kind = .policyEvaluated)
    (hproposal : policy.proposalId = some x.proposalId) :
    ∃ actor request d, requests p = .mintCapability actor request ∧
      MintGate (own p (run state requests {} s).log) request d ∧
      request.intentId = x.intentId ∧ request.proposalId = x.proposalId ∧
      (checkPolicyDecision (World.queryEvents { intentId := some x.intentId }
          (run state requests {} s).world) x policy = .ok () ↔
        DecisionAllows (run state requests {} s).world x policy d) := by
  have hconforms := run_conforms state requests {} s
  generalize (run state requests {} s).log = log at *
  generalize (run state requests {} s).world = w at *
  have ht := (pairInv_of_conforms hconforms).2 p
  obtain ⟨newer, older, hlog⟩ := List.append_of_mem hminted
  obtain ⟨_, _, -, hmay, -⟩ := hconforms.entry hlog
  obtain ⟨actor, request, d, hserved, hgate, hintent, hrequest⟩ := CapabilityWrite.mint_inv hmay
  have hgate' : MintGate (own p log) request d := hgate.mono (own_subset (by rw [hlog]; simp))
  -- the execution is bound to what the capability was minted for
  obtain ⟨stored, hstored, hlater⟩ := ht.minted (mem_own.mpr hminted)
  obtain ⟨bound, hbound, hboundIntent, hboundProposal⟩ :=
    (contextInv_of_conforms hconforms).authorized hx
  rw [hcapability] at hbound
  cases Option.some.inj (hstored.symm.trans hbound)
  have hxIntent : request.intentId = x.intentId := by
    rw [← hboundIntent, hlater.intentId, hintent]
  have hxProposal : request.proposalId = x.proposalId := by
    rw [← hboundProposal, hlater.proposalId, hrequest]
  -- the policy event says what the mint gate read
  obtain ⟨event, hevent, hkind', hproposal', hdecision⟩ := hgate'.judged.stored ht
  obtain ⟨d', hd'⟩ := policy_decided hconforms hpolicy hkind
  have hsame : d.debug = d' := decision_unique hconforms hevent hpolicy hkind' hkind
    (by rw [hproposal', hproposal, hxProposal]) (decisionFromPolicyEvent_some hdecision) hd'
  have hpolicyDecision : decisionFromPolicyEvent policy = some d := by
    rw [← hdecision]
    unfold decisionFromPolicyEvent
    rw [decisionFromPolicyEvent_some hdecision, hd', hsame]
  exact ⟨actor, request, d, hserved, hgate', hxIntent, hxProposal,
    checkPolicyDecision_iff hpolicyDecision⟩

/-- The problem a handler has answered with, if any. -/
def Response.problem : Response → Option ApiProblem
  | .capability (.error e) | .authorized (.error e) | .prepared (.error e)
  | .executed (.error e) => some e
  | _ => none

/-- The answer of a process that has ended. -/
def Gateway.problem (gateway : Gateway) (p : Nat) : Option (Option ApiProblem) :=
  match gateway.procs p with
  | .pure response => some response.problem
  | .perform _ _ => none

namespace Sample

/-- The sample workflow for a proposal that the policy quarantines, and the operator's release of
it. -/
def quarantineRequests : Nat → Request
  | 3 => .authorize none ⟨⟨0⟩, ⟨5⟩, false⟩
  | 4 => .prepare none ⟨8⟩
  | 5 => .execute none ⟨8⟩ .null
  | p => Sample.requests (fun _ => .resolveHold none ⟨2⟩ ⟨"operator", true⟩) p

def quarantine : Input := { input with policy := some ⟨.quarantine, "review", false⟩ }

/-- The hold is released before the capability is minted. -/
def released : Schedule :=
  steps 0 10 ++ List.replicate 20 (1, quarantine) ++ steps 6 20 ++ steps 2 20 ++ steps 3 30 ++
    steps 4 40 ++ steps 5 40

end Sample

/-- A released proposal gets its capability, is authorized and prepared, and is refused before the
side effect. -/
theorem released_proposal_refused :
    (World.holdByProposal ⟨0⟩ (run Sample.state Sample.quarantineRequests {}
      Sample.released).world).map (·.state) = some .allowed ∧
    (∀ p ∈ [2, 3, 4], (run Sample.state Sample.quarantineRequests {}
      Sample.released).problem p = some none) ∧
    (run Sample.state Sample.quarantineRequests {} Sample.released).problem 5 = some (some (.conflict
      "minimum lineage policy decision Quarantine does not allow side effect")) := by
  refine ⟨?_, ?_, ?_⟩ <;> decide +kernel

/-- A reply to the insert of the capability `id`. -/
def stores (id : CapabilityId) : Reply Op Op.Result → Bool
  | ⟨.insertCapability lease, .ok ()⟩ => lease.capabilityId = id
  | _ => false

/-- In the sample workflow, the gate judges the decision that the capability was minted with. -/
theorem lineage_gate_after_mint_sample :
    ∃ x policy d, find (run Sample.state (Sample.requests fun _ => .haReconcilerPass) {}
        Sample.executed).world.executions Sample.executionId = some x ∧
      policy ∈ (run Sample.state (Sample.requests fun _ => .haReconcilerPass) {}
        Sample.executed).world.events ∧
      MintGate (own 2 (run Sample.state (Sample.requests fun _ => .haReconcilerPass) {}
        Sample.executed).log) Sample.mintRequest d ∧
      (checkPolicyDecision (World.queryEvents { intentId := some x.intentId }
          (run Sample.state (Sample.requests fun _ => .haReconcilerPass) {}
            Sample.executed).world) x policy = .ok () ↔
        DecisionAllows (run Sample.state (Sample.requests fun _ => .haReconcilerPass) {}
          Sample.executed).world x policy d) := by
  have hexecution : (find (run Sample.state (Sample.requests fun _ => .haReconcilerPass) {}
      Sample.executed).world.executions Sample.executionId).map
        (fun x => (x.capabilityId, x.proposalId)) = some (⟨2⟩, ⟨0⟩) := by decide +kernel
  have hevent : (run Sample.state (Sample.requests fun _ => .haReconcilerPass) {}
      Sample.executed).world.events.any (fun event => event.kind = .policyEvaluated &&
        event.proposalId = some ⟨0⟩) = true := by decide +kernel
  have hmint : (run Sample.state (Sample.requests fun _ => .haReconcilerPass) {}
      Sample.executed).log.any (fun entry => entry.1 = 2 && stores ⟨2⟩ entry.2) = true := by
    decide +kernel
  obtain ⟨x, hx, hids⟩ := Option.map_eq_some_iff.mp hexecution
  obtain ⟨hcapability, hproposal⟩ := Prod.mk.inj hids
  obtain ⟨policy, hpolicy, hfacts⟩ := List.any_eq_true.mp hevent
  simp only [Bool.and_eq_true, decide_eq_true_eq] at hfacts
  obtain ⟨⟨p, o, r⟩, hmem, hlease⟩ := List.any_eq_true.mp hmint
  simp only [Bool.and_eq_true, decide_eq_true_eq] at hlease
  obtain ⟨rfl, hlease⟩ := hlease
  cases o with
  | insertCapability lease =>
    cases r with
    | error e => cases hlease
    | ok u =>
      have hid : lease.capabilityId = ⟨2⟩ := of_decide_eq_true hlease
      obtain ⟨actor, request, d, hserved, hgate, -, -, hiff⟩ := lineage_gate_after_mint _ _ _ 2
        lease _ x policy hmem hx (hcapability.trans hid.symm) hpolicy hfacts.1
        (hfacts.2.trans (congrArg some hproposal.symm))
      cases hserved
      exact ⟨x, policy, d, hx, hpolicy, hgate, hiff⟩
  | _ => cases hlease

end FerrumGate
