import FerrumGate.Safety.ExecuteOnce
import FerrumGate.Safety.Pairs

/-!
# How an execution ends

What the final rows of an execution say about the run that led to them, from the empty store:

* a committed execution was verified as applied after its side effect, and one with an
  irreversible contract was committed by a commit request (`committed_verified_and_requested`);
* a side effect was prepared and claimed by requests for that execution, a dry run's included
  (`dry_run_needs_prepare_and_execute`).

Both follow an invariant that reads the contract's state as a claim about the log (`ContractInv`).
-/

namespace FerrumGate

open Interleave Interleave.Rows

variable {served : Request} {requests : Nat → Request} {t : Knowledge} {o : Op} {i : Input}
  {w w₀ : World} {log log' : GatewayLog} {p : Nat} {e : ExecutionId} {id : RollbackContractId}

/-! ## What a contract's state says about the log -/

/-- A prepare request has stored the contract. -/
def PreparedIn (requests : Nat → Request) (log : GatewayLog) (id : RollbackContractId)
    (e : ExecutionId) : Prop :=
  ∃ p actor x c outbox, requests p = .prepare actor e ∧
    (p, ⟨.recordLifecycleTransition x (some c) outbox, .ok ()⟩) ∈ log ∧ c.contractId = id

/-- The adapter has executed the contract's side effect without an error. -/
def ExecutedIn (log : GatewayLog) (id : RollbackContractId) (e : ExecutionId) : Prop :=
  ∃ p c payload receipt, (p, ⟨.adapterExecute c payload, some receipt⟩) ∈ log ∧
    c.contractId = id ∧ c.executionId = e

/-- The adapter has verified the contract's side effect as applied. -/
def VerifiedIn (log : GatewayLog) (id : RollbackContractId) (e : ExecutionId) : Prop :=
  ∃ p c metadata, (p, ⟨.adapterVerify c, some ⟨.applied, metadata⟩⟩) ∈ log ∧
    c.contractId = id ∧ c.executionId = e

theorem PreparedIn.mono (h : log ⊆ log') :
    PreparedIn requests log id e → PreparedIn requests log' id e
  | ⟨p, actor, x, c, outbox, hserved, hmem, hid⟩ => ⟨p, actor, x, c, outbox, hserved, h hmem, hid⟩

theorem ExecutedIn.mono (h : log ⊆ log') : ExecutedIn log id e → ExecutedIn log' id e
  | ⟨p, c, payload, receipt, hmem, hid⟩ => ⟨p, c, payload, receipt, h hmem, hid⟩

theorem VerifiedIn.mono (h : log ⊆ log') : VerifiedIn log id e → VerifiedIn log' id e
  | ⟨p, c, metadata, hmem, hid⟩ => ⟨p, c, metadata, h hmem, hid⟩

/-- The contract states behind a successful execute. -/
def RollbackState.executed : RollbackState → Bool
  | .executedAwaitingVerify | .verified | .committed => true
  | _ => false

/-- The contract states behind a verification as applied. -/
def RollbackState.confirmed : RollbackState → Bool
  | .verified | .committed => true
  | _ => false

/-- What a stored or a read contract vouches for. -/
structure Vouched (requests : Nat → Request) (log : GatewayLog) (c : RollbackContract) : Prop where
  prepared : PreparedIn requests log c.contractId c.executionId
  executed : c.state.executed = true → ExecutedIn log c.contractId c.executionId
  confirmed : c.state.confirmed = true → VerifiedIn log c.contractId c.executionId

theorem Vouched.mono {c : RollbackContract} (h : log ⊆ log') (hv : Vouched requests log c) :
    Vouched requests log' c :=
  ⟨hv.prepared.mono h, fun hs => (hv.executed hs).mono h, fun hs => (hv.confirmed hs).mono h⟩

/-- A contract that is copied with a state that says no more. -/
theorem Vouched.copy {c d : RollbackContract} (h : Vouched requests log c)
    (hid : d.contractId = c.contractId) (hown : d.executionId = c.executionId)
    (hexecuted : d.state.executed = true → c.state.executed = true)
    (hconfirmed : d.state.confirmed = true → VerifiedIn log c.contractId c.executionId) :
    Vouched requests log d := by
  refine ⟨?_, fun hs => ?_, fun hs => ?_⟩
  · rw [hid, hown]
    exact h.prepared
  · rw [hid, hown]
    exact h.executed (hexecuted hs)
  · rw [hid, hown]
    exact hconfirmed hs

/-- **What a run keeps about contracts and committed executions.** -/
structure ContractInv (requests : Nat → Request) (log : GatewayLog) (w : World) : Prop where
  vouched : ∀ {id c}, find w.contracts id = some c → Vouched requests log c
  committed : ∀ {e x}, find w.executions e = some x → x.state = .committed →
    ∃ id, x.rollbackContractId = some id ∧ VerifiedIn log id e

theorem ContractInv.empty : ContractInv requests [] {} where
  vouched h := by cases h
  committed h := by cases h

theorem awaitsVerification_state {c : RollbackContract} {x : ExecutionRecord}
    (h : awaitsVerification c x = true) :
    c.state = .executedAwaitingVerify ∧
      (x.state = .running ∨ x.state = .awaitingVerification) := by
  simpa [awaitsVerification] using h

/-- A read contract vouches for what a stored one vouches for. -/
def TrustedContracts (requests : Nat → Request) (log : GatewayLog) (t : Knowledge) : Prop :=
  ∀ {c : RollbackContract}, Saw t (.getContract c.contractId) (.ok (some c)) →
    Vouched requests log c

section Transitions

variable {name : TransitionName} {x x' : ExecutionRecord} {c c' : Option RollbackContract}
  {kinds : List ProvenanceEventKind}

/-- The reply of a definite verification: the contract is confirmed only when it was applied. -/
theorem verified_reply {y : ExecutionRecord} {d : RollbackContract} {outcome : VerifyOutcome}
    {metadata : JsonMap} {verified : Bool} (hv : verified = true)
    (hdefinite : verified = decide (outcome = .applied))
    (hreply : Saw (own p log) (.adapterVerify (verifyContract d y.resultDigest))
      (some ⟨outcome, metadata⟩)) : VerifiedIn log d.contractId d.executionId := by
  rw [hv] at hdefinite
  obtain rfl : outcome = .applied := of_decide_eq_true hdefinite.symm
  obtain ⟨hid, hown⟩ := verifyContract_identity d y.resultDigest
  exact ⟨p, _, metadata, mem_own.mp hreply, hid, hown⟩

/-- The contract a transition writes vouches for what its state says. -/
theorem Transition.vouched {d : RollbackContract} {outbox : LifecycleOutboxRecord}
    (h : Transition (own p log) name x x' c (some d) kinds)
    (hasked : (requests p).asksFor name x'.executionId)
    (hread : TrustedContracts requests log (own p log)) :
    Vouched requests
      ((p, ⟨.recordLifecycleTransition x' (some d) outbox, .ok ()⟩) :: log) d := by
  have hsub : log ⊆ (p, ⟨.recordLifecycleTransition x' (some d) outbox, .ok ()⟩) :: log :=
    List.subset_cons_self _ _
  generalize hd : some d = d' at h
  cases h with
  | prepare read _ _ bound prepared =>
    cases hd
    refine ⟨?_, fun hs => ?_, fun hs => ?_⟩
    · cases hrequest : requests p with
      | prepare actor id =>
        rw [hrequest] at hasked
        obtain rfl := hasked
        exact ⟨p, actor, _, d, outbox, bound ▸ hrequest, List.mem_cons_self, rfl⟩
      | _ =>
        rw [hrequest] at hasked
        exact hasked.elim
    · rw [prepared] at hs
      cases hs
    · rw [prepared] at hs
      cases hs
  | @execute claim receipt claimed reply =>
    cases hd
    have hv := hread claimed.checked.pair.contract
    exact ⟨hv.prepared.mono hsub,
      fun _ => ⟨p, claim.contract, _, _, hsub (mem_own.mp reply), rfl, rfl⟩, fun hs => by cases hs⟩
  | executeRecovery claimed _ =>
    cases hd
    refine Vouched.mono hsub (Vouched.copy (hread claimed.checked.pair.contract) rfl rfl ?_ ?_) <;>
      exact fun hs => by cases hs
  | @verify _ d₀ outcome metadata verified pair awaits reply definite =>
    cases hd
    obtain ⟨hid, hown⟩ := verifyContract_identity d₀ x.resultDigest
    have hstate : d₀.state.executed = true := by
      rw [(awaitsVerification_state awaits).1]
      rfl
    refine Vouched.mono hsub
      (Vouched.copy (hread pair.contract) hid hown (fun _ => hstate) fun hs => ?_)
    cases hv : verified with
    | false =>
      rw [hv] at hs
      cases hs
    | true => exact verified_reply hv definite reply
  | @verifyRecovery _ d₀ metadata pair _ =>
    cases hd
    obtain ⟨hid, hown⟩ := verifyContract_identity d₀ x.resultDigest
    refine Vouched.mono hsub (Vouched.copy (hread pair.contract) hid hown ?_ ?_) <;>
      exact fun hs => by cases hs
  | @commit _ d₀ pair _ verified _ =>
    cases hd
    have hstate : d₀.state.confirmed = true := by
      rw [verified]
      rfl
    refine Vouched.mono hsub (Vouched.copy (hread pair.contract) rfl rfl (fun _ => ?_) fun _ => ?_)
    · rw [verified]
      rfl
    · exact (hread pair.contract).confirmed hstate
  | @compensate _ d₀ receipt _ pair _ _ =>
    cases hd
    have henrich := enrichHttpCompensationIfNeeded_eq d₀
    refine Vouched.mono hsub
      (Vouched.copy (hread pair.contract) ?_ ?_ (fun hs => ?_) fun hs => ?_)
    · rw [henrich]
      rfl
    · rw [henrich]
      rfl
    all_goals
      simp only [compensatedContract, compensatedContractState] at hs
      split at hs
      · cases hs
      · split at hs <;> cases hs
  | cancel => cases hd
  | haRecovery pair _ _ =>
    cases hd
    refine Vouched.mono hsub (Vouched.copy (hread pair.contract) rfl rfl ?_ ?_) <;>
      exact fun hs => by cases hs

theorem verifyContract_irreversible {d : RollbackContract} {digest : Option String}
    (h : (verifyContract d digest).rollbackClass = .r3IrreversibleHighConsequence) :
    (verifyContract d digest).autoCommit = false := by
  unfold verifyContract at h ⊢
  by_cases hclass : d.rollbackClass = .r3IrreversibleHighConsequence
  · rw [if_pos hclass]
    cases digest <;> rfl
  · rw [if_neg hclass] at h
    cases digest <;> exact absurd h hclass

/-- A transition to `Committed` confirms the contract; `verify` makes none of an irreversible
contract, whatever its `auto_commit` says. -/
theorem Transition.commits (h : Transition t name x x' c c' kinds) (hs : x'.state = .committed) :
    ∃ d, c' = some d ∧ d.state.confirmed = true ∧ x'.rollbackContractId = some d.contractId ∧
      (d.rollbackClass = .r3IrreversibleHighConsequence → name = .commit) := by
  cases h with
  | prepare _ preparable =>
    rcases preparable with hp | hp <;> rw [show x.state = .committed from hs] at hp <;> cases hp
  | @verify _ d₀ outcome metadata verified pair awaits =>
    obtain ⟨hid, -⟩ := verifyContract_identity d₀ x.resultDigest
    refine ⟨_, rfl, ?_, pair.linked.trans (congrArg some hid.symm), fun hclass => ?_⟩
    · cases verified with
      | false => cases hs
      | true => rfl
    · have hclass' : (verifyContract d₀ x.resultDigest).rollbackClass =
          .r3IrreversibleHighConsequence := hclass
      have hauto : (verifiedContract x d₀ metadata verified).autoCommit = false :=
        verifyContract_irreversible hclass'
      simp only [hauto, Bool.false_eq_true, if_false] at hs
      obtain ⟨-, hx⟩ := awaitsVerification_state awaits
      cases verified with
      | false => cases hs
      | true => rcases hx with hx | hx <;> rw [hx] at hs <;> cases hs
  | commit pair => exact ⟨_, rfl, rfl, pair.linked, fun _ => rfl⟩
  | compensate =>
    simp only [compensatedState] at hs
    split at hs
    · cases hs
    · split at hs <;> cases hs
  | _ => cases hs

end Transitions

theorem ContractInv.step_contract (h : ContractInv requests log w)
    (hread : TrustedContracts requests log (own p log)) (hmay : may (requests p) (own p log) o)
    {c : RollbackContract} (hc : find (o.exec i w).2.contracts id = some c) :
    Vouched requests ((p, ⟨o, (o.exec i w).1⟩) :: log) c := by
  have hstep := contract_step (i := i) (w := w) hmay id
  rw [hc] at hstep
  generalize hrow : find w.contracts id = row at hstep
  generalize (o.exec i w).1 = r at hstep ⊢
  cases hstep with
  | same => exact (h.vouched hrow).mono (List.subset_cons_self _ _)
  | inserted _ write =>
    obtain ⟨_, _, _, _, _, hasked, htransition, -, -⟩ := write
    exact htransition.vouched hasked hread
  | updated _ write =>
    obtain ⟨_, _, _, _, _, hasked, htransition, -, -⟩ := write
    exact htransition.vouched hasked hread

theorem ContractInv.step_committed (h : ContractInv requests log w) (ht : Trusted w (own p log))
    (hread : TrustedContracts requests log (own p log)) (hmay : may (requests p) (own p log) o)
    {x : ExecutionRecord} (hx : find (o.exec i w).2.executions e = some x)
    (hs : x.state = .committed) :
    ∃ id, x.rollbackContractId = some id ∧
      VerifiedIn ((p, ⟨o, (o.exec i w).1⟩) :: log) id e := by
  have hstep := execution_step (i := i) (w := w) hmay e
  rw [hx] at hstep
  generalize hrow : find w.executions e = row at hstep
  generalize (o.exec i w).1 = r at hstep ⊢
  cases hstep with
  | same =>
    obtain ⟨id, hlink, hv⟩ := h.committed hrow hs
    exact ⟨id, hlink, hv.mono (List.subset_cons_self _ _)⟩
  | authorized _ write =>
    obtain ⟨-, hstate⟩ := AuthorizationWrite.execution_new write
    rcases hstate with hx | hx <;> rw [hs] at hx <;> cases hx
  | claimed => cases hs
  | canceled => cases hs
  | transition id_ write =>
    obtain ⟨_, _, _, _, _, hasked, htransition, -, -⟩ := write
    obtain ⟨d, rfl, hconfirmed, hlink, -⟩ := htransition.commits hs
    refine ⟨d.contractId, hlink, ?_⟩
    cases htransition.shape with
    | prepare _ preparable _ _ hupdated =>
      rw [hupdated] at hs
      rcases preparable with hp | hp <;> rw [show _ = ExecutionState.committed from hs] at hp <;>
        cases hp
    | pair hpair =>
      obtain ⟨-, -, -, hown⟩ := ht.pair hpair.read
      have howner : d.executionId = e :=
        hpair.owner.trans (hown.trans (hpair.execution.symm.trans id_))
      rw [← howner]
      exact (htransition.vouched hasked hread).confirmed hconfirmed

/-- The invariant along every run from the empty store, and what read contracts are worth. -/
theorem contractInv_of_conforms (h : Conforms requests {} log w) :
    ContractInv requests log w ∧ ∀ p, TrustedContracts requests log (own p log) := by
  have hread : ∀ {log : GatewayLog} {w : World} {p : Nat},
      (∀ entry ∈ log, Seen Op.exec (fun log₁ w₁ => log₁ ⊆ log ∧ ContractInv requests log₁ w₁)
        (fun _ _ => True) w entry.2) → TrustedContracts requests log (own p log) := by
    intro log w p hseen c hsaw
    obtain ⟨log₁, w₁, i, ⟨hsub, hinv⟩, hreply, -, -⟩ := hseen _ (mem_own.mp hsaw)
    exact (hinv.vouched (readWith_ok hreply.symm).symm).mono hsub
  have hhistory := Behaviour.history (ContractInv requests) (fun _ _ => True) (fun _ => trivial)
    (fun _ _ _ _ _ => trivial) .empty (fun {log w} p o i hb hinv hseen hmay => by
      have htrusted := (pairInv_of_conforms hb).2 p
      exact ⟨⟨fun hc => hinv.step_contract (hread hseen) hmay hc,
        fun hx hs => hinv.step_committed htrusted (hread hseen) hmay hx hs⟩, trivial⟩) h
  exact ⟨hhistory.1, fun p => hread hhistory.2.2⟩

/-! ## Commits -/

/-- The contract has been verified as applied, after its side effect. -/
def VerifiedAfterExecute (log : GatewayLog) (id : RollbackContractId) (e : ExecutionId) : Prop :=
  ∃ newer older p c metadata,
    log = newer ++ (p, ⟨.adapterVerify c, some ⟨.applied, metadata⟩⟩) :: older ∧
      c.contractId = id ∧ c.executionId = e ∧ ExecutedIn older id e

/-- A verification is asked for only after the execute it verifies. -/
theorem verifiedAfterExecute_of_conforms (h : Conforms requests {} log w)
    (hv : VerifiedIn log id e) : VerifiedAfterExecute log id e := by
  obtain ⟨p, c, metadata, hmem, rfl, rfl⟩ := hv
  obtain ⟨newer, older, hlog⟩ := List.append_of_mem hmem
  obtain ⟨w₁, i, hb, hmay, -⟩ := h.entry hlog
  obtain ⟨x, d, hpair, hawaits, rfl⟩ := hmay
  obtain ⟨hid, hown⟩ := verifyContract_identity d x.resultDigest
  have hvouched := (contractInv_of_conforms hb).2 p hpair.contract
  refine ⟨newer, older, p, _, metadata, hlog, rfl, rfl, ?_⟩
  rw [hid, hown]
  exact hvouched.executed (by rw [(awaitsVerification_state hawaits).1]; rfl)

/-- The transaction that committed the execution; of an irreversible contract it is a commit
request's. -/
def CommittedBy (requests : Nat → Request) (log : GatewayLog) (e : ExecutionId) : Prop :=
  ∃ p x c outbox, (p, ⟨.recordLifecycleTransition x (some c) outbox, .ok ()⟩) ∈ log ∧
    x.executionId = e ∧ x.state = .committed ∧ x.rollbackContractId = some c.contractId ∧
    (c.rollbackClass = .r3IrreversibleHighConsequence → ∃ actor, requests p = .commit actor e)

theorem asksFor_commit (h : served.asksFor .commit e) : ∃ actor, served = .commit actor e := by
  cases served with
  | commit actor id =>
    obtain rfl : e = id := h
    exact ⟨actor, rfl⟩
  | _ => exact h.elim

/-- Only a lifecycle transaction makes an execution `Committed`. -/
theorem committedBy_of_conforms (h : Conforms requests w₀ log w)
    (h₀ : w₀.executionState e ≠ some .committed) (hs : w.executionState e = some .committed) :
    CommittedBy requests log e := by
  induction h with
  | start => exact absurd hs h₀
  | @step log w p o i hb hmay ih =>
    obtain ⟨x, hx, hs'⟩ := Option.map_eq_some_iff.mp hs
    have hstep := execution_step (i := i) (w := w) hmay e
    rw [hx] at hstep
    generalize hrow : find w.executions e = row at hstep
    generalize (o.exec i w).1 = r at hstep ⊢
    cases hstep with
    | same =>
      have hbefore : w.executionState e = some .committed := by
        unfold World.executionState
        rw [hrow]
        exact congrArg some hs'
      obtain ⟨q, x, c, outbox, hmem, hrest⟩ := ih hbefore
      exact ⟨q, x, c, outbox, List.mem_cons_of_mem _ hmem, hrest⟩
    | authorized _ write =>
      obtain ⟨-, hstate⟩ := AuthorizationWrite.execution_new write
      rcases hstate with hx | hx <;> rw [hs'] at hx <;> cases hx
    | claimed => cases hs'
    | canceled => cases hs'
    | transition id_ write =>
      obtain ⟨_, _, _, _, _, hasked, htransition, -, -⟩ := write
      obtain ⟨d, rfl, -, hlink, hclass⟩ := htransition.commits hs'
      refine ⟨p, x, d, _, List.mem_cons_self, id_, hs', hlink, fun hirreversible => ?_⟩
      rw [hclass hirreversible, id_] at hasked
      exact asksFor_commit hasked

/-- **A committed execution was verified as applied after its side effect, and one with an
irreversible contract was committed by a commit request.** The first part is about every run from
the empty store. The second starts from any store, with whatever `auto_commit` the contracts in it
carry; `c` is the contract as the transaction stored it. -/
theorem committed_verified_and_requested (state : AppState) (requests : Nat → Request)
    (s : Schedule) (e : ExecutionId) :
    (∀ x, find (run state requests {} s).world.executions e = some x → x.state = .committed →
      ∃ id, x.rollbackContractId = some id ∧
        VerifiedAfterExecute (run state requests {} s).log id e) ∧
    ∀ w₀ : World, w₀.executionState e ≠ some .committed →
      (run state requests w₀ s).world.executionState e = some .committed →
      CommittedBy requests (run state requests w₀ s).log e := by
  refine ⟨fun x hx hs => ?_, fun w₀ h₀ hs =>
    committedBy_of_conforms (run_conforms state requests w₀ s) h₀ hs⟩
  have hconforms := run_conforms state requests {} s
  obtain ⟨id, hlink, hv⟩ := (contractInv_of_conforms hconforms).1.committed hx hs
  exact ⟨id, hlink, verifiedAfterExecute_of_conforms hconforms hv⟩

/-! ## Dry runs -/

/-- The reply reports the authorization of the execution. -/
def authorizes (e : ExecutionId) : Reply Op Op.Result → Bool
  | ⟨.recordAuthorization _ x _ _, .ok true⟩ => x.executionId = e
  | _ => false

theorem asksFor_execute (h : served.asksFor .execute e) :
    ∃ actor payload, served = .execute actor e payload := by
  cases served with
  | execute actor id payload =>
    obtain rfl : e = id := h
    exact ⟨actor, payload, rfl⟩
  | _ => exact h.elim

/-- An authorization with `dry_run` set stores the execution as `Authorized`, without a contract. -/
theorem dryRun_stored {actor : Option AuthActor} {request : AuthorizeExecutionRequest}
    {y : Reply Op Op.Result} (h : Conforms requests w₀ log w)
    (hserved : requests p = .authorize actor request) (hdry : request.dryRun = true)
    (hmem : y ∈ own p log) (hy : authorizes e y = true) :
    ∃ lease x outbox now, y = ⟨.recordAuthorization lease x outbox now, .ok true⟩ ∧
      x.executionId = e ∧ x.state = .authorized ∧ x.rollbackContractId = none := by
  obtain ⟨o, r⟩ := y
  obtain ⟨newer, older, hlog⟩ := List.append_of_mem (mem_own.mp hmem)
  obtain ⟨_, _, _, hmay, -⟩ := h.entry hlog
  cases o with
  | recordAuthorization lease x outbox now =>
    obtain _ | (_ | _) := r
    · cases hy
    · cases hy
    · refine ⟨lease, x, outbox, now, rfl, of_decide_eq_true hy, ?_⟩
      have hwrite : AuthorizationWrite (requests p) (own p older)
          (.recordAuthorization lease x outbox now) := hmay
      obtain ⟨_, _, _, _, _, _, asked, -, -, -, rfl, rfl⟩ := hwrite.inv
      rw [hserved] at asked
      cases asked
      exact ⟨by simp [authorizedExecution, hdry], rfl⟩
  | _ => cases hy

/-- **A dry run reaches the adapter only through requests of its own**: the authorization leaves
the execution `Authorized` and without a contract, and the adapter's execute is called for it only
by an execute request for it that has won the claim, after a prepare request for it has stored its
contract. -/
theorem dry_run_needs_prepare_and_execute (state : AppState) (requests : Nat → Request)
    (s : Schedule) (e : ExecutionId) (p : Nat) (actor : Option AuthActor)
    (request : AuthorizeExecutionRequest) (hserved : requests p = .authorize actor request)
    (hdry : request.dryRun = true) (y : Reply Op Op.Result)
    (hmem : y ∈ own p (run state requests {} s).log) (hy : authorizes e y = true) :
    (∃ lease x outbox now, y = ⟨.recordAuthorization lease x outbox now, .ok true⟩ ∧
      x.executionId = e ∧ x.state = .authorized ∧ x.rollbackContractId = none) ∧
    ∀ newer q contract payload receipt older,
      (run state requests {} s).log =
        newer ++ (q, ⟨.adapterExecute contract payload, receipt⟩) :: older →
      contract.executionId = e →
      (∃ actor payload, requests q = .execute actor e payload) ∧
        ⟨claimOp e, .ok true⟩ ∈ own q older ∧ PreparedIn requests older contract.contractId e := by
  have hconforms := run_conforms state requests {} s
  refine ⟨dryRun_stored hconforms hserved hdry hmem hy, ?_⟩
  rintro newer q contract payload receipt older hlog rfl
  obtain ⟨w₁, _, hb, hmay, -⟩ := hconforms.entry hlog
  obtain ⟨claim, hasked, hchecked, rfl, -, rest, ht⟩ := hmay
  rw [← hchecked.bound] at hasked ht
  refine ⟨asksFor_execute hasked, by rw [ht]; exact List.mem_cons_self, ?_⟩
  exact ((contractInv_of_conforms hb).2 q hchecked.pair.contract).prepared

namespace Sample

/-- The sample workflow with a dry run. -/
def dryRun : Nat → Request
  | 3 => .authorize none ⟨⟨0⟩, ⟨2⟩, true⟩
  | n => Sample.requests (fun _ => .haReconcilerPass) n

end Sample

/-- Prepare and execute accept a dry run's execution, and the adapter is called for it. -/
theorem dry_run_reaches_adapter :
    Sample.dryRun 3 = .authorize none ⟨⟨0⟩, ⟨2⟩, true⟩ ∧
      (∃ y ∈ own 3 (run Sample.state Sample.dryRun {} Sample.executed).log,
        authorizes Sample.executionId y = true) ∧
      executeCalls Sample.executionId (run Sample.state Sample.dryRun {} Sample.executed).log =
        1 := by
  refine ⟨rfl, ?_, by decide +kernel⟩
  have hany : (own 3 (run Sample.state Sample.dryRun {} Sample.executed).log).any
      (authorizes Sample.executionId) = true := by decide +kernel
  exact List.any_eq_true.mp hany

/-- The sample's dry run is prepared and claimed before its one call. -/
theorem dry_run_sample :
    ∃ y ∈ own 3 (run Sample.state Sample.dryRun {} Sample.executed).log,
      authorizes Sample.executionId y = true ∧
      ∀ newer q contract payload receipt older,
        (run Sample.state Sample.dryRun {} Sample.executed).log =
          newer ++ (q, ⟨.adapterExecute contract payload, receipt⟩) :: older →
        contract.executionId = Sample.executionId →
        PreparedIn Sample.dryRun older contract.contractId Sample.executionId := by
  have hany : (own 3 (run Sample.state Sample.dryRun {} Sample.executed).log).any
      (authorizes Sample.executionId) = true := by decide +kernel
  obtain ⟨y, hmem, hy⟩ := List.any_eq_true.mp hany
  refine ⟨y, hmem, hy, fun newer q contract payload receipt older hlog he => ?_⟩
  exact ((dry_run_needs_prepare_and_execute Sample.state Sample.dryRun Sample.executed
    Sample.executionId 3 none ⟨⟨0⟩, ⟨2⟩, true⟩ rfl rfl y hmem hy).2 newer q contract payload
    receipt older hlog he).2.2

end FerrumGate
