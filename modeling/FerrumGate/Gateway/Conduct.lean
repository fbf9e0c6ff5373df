import FerrumGate.Gateway.System

/-!
# What the gateway's processes may write

The conduct of the gateway: for each operation that writes, or calls the adapter for a side
effect, what the process must have seen before. A handler works on rows it read some time ago, so
a form such as `Transition` speaks about rows in the process's own transcript; whether the stored
rows still are what was read is the store's business, not the conduct's.

`conduct` is the interface between the programs and the safety proofs: that the programs obey it
is shown handler by handler, and the invariants are proved from it alone.
-/

namespace FerrumGate

open Interleave Interleave.Rows

/-- The transcript of a gateway process. -/
abbrev Knowledge := Transcript Op Op.Result

/-- The process has got this reply. -/
def Saw (t : Knowledge) (o : Op) (r : o.Result) : Prop := (⟨o, r⟩ : Reply Op Op.Result) ∈ t

variable {served : Request} {t t' : Knowledge}

variable {o : Op}

theorem Saw.mono (h : t ⊆ t') {r : o.Result} (hs : Saw t o r) : Saw t' o r := h hs

theorem Saw.now {r : o.Result} : Saw (⟨o, r⟩ :: t) o r := List.mem_cons_self

variable {e : Reply Op Op.Result}

theorem Saw.earlier {r : o.Result} (h : Saw t o r) : Saw (e :: t) o r :=
  List.mem_cons_of_mem _ h

/-! ## Transactions and appends -/

/-- The lifecycle transaction a reply reports: the execution and the outbox record it stored. -/
def recorded : Reply Op Op.Result → Option (ExecutionRecord × LifecycleOutboxRecord)
  | ⟨.recordLifecycleTransition x _ outbox, .ok ()⟩ => some (x, outbox)
  | ⟨.recordAuthorization _ x outbox _, .ok true⟩ => some (x, outbox)
  | _ => none

/-- The event a reply reports as stored. -/
def appended : Reply Op Op.Result → Option ProvenanceEvent
  | ⟨.appendEvent event, .ok ()⟩ => some event
  | ⟨.appendEventWithEdges event _, .ok ()⟩ => some event
  | _ => none

/-- The process has stored this outbox record with its transaction. -/
def Owns (t : Knowledge) (outbox : LifecycleOutboxRecord) : Prop :=
  ∃ tx ∈ t, ∃ x, recorded tx = some (x, outbox)

variable {outbox : LifecycleOutboxRecord}

theorem Owns.mono (h : t ⊆ t') :
    Owns t outbox → Owns t' outbox
  | ⟨tx, hm, x, hx⟩ => ⟨tx, h hm, x, hx⟩

/-- The write with which a process closes an outbox record, its lease included. -/
def Op.closes : Op → Bool
  | .updateOutboxRecord _ clear _ => clear
  | _ => false

/-- A reply about anything but an appended event or a closed record. -/
def minor (e : Reply Op Op.Result) : Bool := (appended e).isNone && !e.1.closes

/-- From `t` to `t'` the process has appended no event and closed no record. -/
def Quietly (t t' : Knowledge) : Prop := ∃ new, t' = new ++ t ∧ ∀ e ∈ new, minor e = true

theorem Quietly.refl (t : Knowledge) : Quietly t t := ⟨[], rfl, by simp⟩

theorem Quietly.cons (h : Quietly t t') (he : minor e = true) : Quietly t (e :: t') := by
  obtain ⟨new, rfl, hnew⟩ := h
  exact ⟨e :: new, rfl, by simpa using ⟨he, hnew⟩⟩

theorem Quietly.trans {t'' : Knowledge} (h₁ : Quietly t t') (h₂ : Quietly t' t'') :
    Quietly t t'' := by
  obtain ⟨new₁, rfl, hnew₁⟩ := h₁
  obtain ⟨new₂, rfl, hnew₂⟩ := h₂
  refine ⟨new₂ ++ new₁, (List.append_assoc _ _ _).symm, fun e he => ?_⟩
  rcases List.mem_append.mp he with he | he
  · exact hnew₂ e he
  · exact hnew₁ e he

theorem Quietly.subset (h : Quietly t t') : t ⊆ t' := by
  obtain ⟨new, rfl, _⟩ := h
  exact List.subset_append_right _ _

/-- The operations that store an event or close a record. -/
def Op.major : Op → Bool
  | .appendEvent _ | .appendEventWithEdges _ _ => true
  | .updateOutboxRecord _ clear _ => clear
  | _ => false

theorem minor_of_op (h : e.1.major = false) : minor e = true := by
  obtain ⟨o, r⟩ := e
  cases o with
  | appendEvent | appendEventWithEdges => cases h
  | updateOutboxRecord _ clear =>
    cases clear with
    | false => rfl
    | true => cases h
  | _ => rfl

/-- Since it stored `outbox` for the execution `x`, the process has appended events of these kinds
only, and has not closed the record. -/
def Tail (t : Knowledge) (x : ExecutionRecord) (outbox : LifecycleOutboxRecord)
    (kinds : List ProvenanceEventKind) : Prop :=
  ∃ recent tx old, t = recent ++ tx :: old ∧ recorded tx = some (x, outbox) ∧
    ∀ e ∈ recent, (∀ event ∈ appended e, event.kind ∈ kinds) ∧ e.1.closes = false

variable {event : ProvenanceEvent}

theorem closes_of_appended (h : appended e = some event) : e.1.closes = false := by
  obtain ⟨o, r⟩ := e
  cases o with
  | updateOutboxRecord => cases h
  | _ => rfl

section Tail

variable {x : ExecutionRecord} {outbox : LifecycleOutboxRecord} {kinds : List ProvenanceEventKind}

theorem Tail.start {tx : Reply Op Op.Result} (h : recorded tx = some (x, outbox)) :
    Tail (tx :: t) x outbox [] :=
  ⟨[], tx, t, rfl, h, by simp⟩

theorem Tail.quietly (h : Tail t x outbox kinds) (hq : Quietly t t') : Tail t' x outbox kinds := by
  obtain ⟨recent, tx, old, rfl, htx, hrecent⟩ := h
  obtain ⟨new, rfl, hnew⟩ := hq
  refine ⟨new ++ recent, tx, old, (List.append_assoc _ _ _).symm, htx, fun e he => ?_⟩
  rcases List.mem_append.mp he with he | he
  · have hminor := hnew e he
    simp only [minor, Bool.and_eq_true, Option.isNone_iff_eq_none, Bool.not_eq_true'] at hminor
    refine ⟨fun event hevent => ?_, hminor.2⟩
    rw [hminor.1] at hevent
    cases hevent
  · exact hrecent e he

/-- One more event. -/
theorem Tail.append (h : Tail t x outbox kinds) (he : appended e = some event) :
    Tail (e :: t) x outbox (event.kind :: kinds) := by
  obtain ⟨recent, tx, old, rfl, htx, hrecent⟩ := h
  refine ⟨e :: recent, tx, old, rfl, htx, fun e' he' => ?_⟩
  rcases List.mem_cons.mp he' with rfl | he'
  · refine ⟨fun event' hevent' => ?_, closes_of_appended he⟩
    rw [he] at hevent'
    cases hevent'
    exact List.mem_cons_self
  · exact ⟨fun event' hevent' => List.mem_cons_of_mem _ ((hrecent e' he').1 event' hevent'),
      (hrecent e' he').2⟩

theorem Tail.owns (h : Tail t x outbox kinds) : Owns t outbox := by
  obtain ⟨recent, tx, old, rfl, htx, _⟩ := h
  exact ⟨tx, by simp, x, htx⟩

end Tail

/-! ## Rows the process has read -/

inductive ReadExecution (t : Knowledge) (x : ExecutionRecord) : Prop
  | byId (read : Saw t (.getExecution x.executionId) (.ok (some x)))
  | stale {before : Timestamp} {states : List ExecutionState} {limit : Nat}
      {rows : List ExecutionRecord} (read : Saw t (.listStaleInFlight before states limit) (.ok rows))
      (mem : x ∈ rows)

variable {x : ExecutionRecord}

theorem ReadExecution.mono (h : t ⊆ t') :
    ReadExecution t x → ReadExecution t' x
  | .byId read => .byId (read.mono h)
  | .stale read mem => .stale (read.mono h) mem

/-- The process has read an execution and the contract it links to. -/
structure ReadPair (t : Knowledge) (x : ExecutionRecord) (c : RollbackContract) : Prop where
  execution : ReadExecution t x
  contract : Saw t (.getContract c.contractId) (.ok (some c))
  linked : x.rollbackContractId = some c.contractId

theorem ReadPair.mono (h : t ⊆ t') {c : RollbackContract} (hp : ReadPair t x c) : ReadPair t' x c :=
  ⟨hp.execution.mono h, hp.contract.mono h, hp.linked⟩

/-- The process holds, or has held, a lease on an outbox record. -/
def HoldsClaim (t : Knowledge) (claim : LifecycleOutboxClaim) : Prop :=
  ∃ limit owner now ttl claims,
    Saw t (.claimPendingReconciliation limit owner now ttl) (.ok claims) ∧ claim ∈ claims

variable {claim : LifecycleOutboxClaim}

theorem HoldsClaim.mono (h : t ⊆ t') :
    HoldsClaim t claim → HoldsClaim t' claim
  | ⟨limit, owner, now, ttl, claims, hs, hm⟩ => ⟨limit, owner, now, ttl, claims, hs.mono h, hm⟩

/-- Two versions of the row of one execution: what it was authorized for is the same. -/
def SameExecution (x y : ExecutionRecord) : Prop :=
  x.executionId = y.executionId ∧ x.proposalId = y.proposalId ∧ x.intentId = y.intentId ∧
    x.capabilityId = y.capabilityId

theorem SameExecution.trans {y z : ExecutionRecord} (h₁ : SameExecution x y)
    (h₂ : SameExecution y z) : SameExecution x z :=
  ⟨h₁.1.trans h₂.1, h₁.2.1.trans h₂.2.1, h₁.2.2.1.trans h₂.2.2.1, h₁.2.2.2.trans h₂.2.2.2⟩

theorem SameExecution.symm {y : ExecutionRecord} (h : SameExecution x y) : SameExecution y x :=
  ⟨h.1.symm, h.2.1.symm, h.2.2.1.symm, h.2.2.2.symm⟩

/-! ## Claiming an execution -/

/-- What the lineage gate has found among the events it read. -/
structure MinimumLineage (events : List ProvenanceEvent) (x : ExecutionRecord)
    (policy capability : ProvenanceEvent) : Prop where
  policyRead : policy ∈ events
  policyKind : policy.kind = .policyEvaluated
  policyProposal : policy.proposalId = some x.proposalId
  capabilityRead : capability ∈ events
  capabilityKind : capability.kind = .capabilityMinted
  capabilityId : capability.capabilityId = some x.capabilityId
  decision : checkPolicyDecision events x policy = .ok ()

/-- What `checkExecute` has established. -/
structure Checked (t : Knowledge) (claim : ExecutionClaim) : Prop where
  pair : ReadPair t claim.execution claim.contract
  executable : executable claim.contract claim.execution = true
  bound : claim.contract.executionId = claim.execution.executionId
  payload : ∃ proposal, Saw t (.getProposal claim.execution.proposalId) (.ok (some proposal)) ∧
    claim.payload = proposal.rawArguments
  lineage : ∃ events policy capability,
    Saw t (.queryEvents { intentId := some claim.execution.intentId }) (.ok events) ∧
      MinimumLineage events claim.execution policy capability

theorem Checked.mono (h : t ⊆ t') {claim : ExecutionClaim} (hc : Checked t claim) :
    Checked t' claim := by
  obtain ⟨proposal, hp, hpayload⟩ := hc.payload
  obtain ⟨events, policy, capability, he, hl⟩ := hc.lineage
  exact ⟨hc.pair.mono h, hc.executable, hc.bound, ⟨proposal, hp.mono h, hpayload⟩,
    ⟨events, policy, capability, he.mono h, hl⟩⟩

/-- The compare-and-set with which `execute` claims an execution. -/
def claimOp (id : ExecutionId) : Op :=
  .compareAndSetState id [.prepared, .authorized, .proposed] .running 0

/-- The process has checked the execution and won the claim. -/
structure Claimed (t : Knowledge) (claim : ExecutionClaim) : Prop where
  checked : Checked t claim
  won : Saw t (claimOp claim.execution.executionId) (.ok true)

theorem Claimed.mono (h : t ⊆ t') {claim : ExecutionClaim} (hc : Claimed t claim) :
    Claimed t' claim :=
  ⟨hc.checked.mono h, hc.won.mono h⟩

/-- A direct write of an execution's state: the claim, or the HA reconciler's cancelation of a
row it listed. -/
inductive StateWrite (served : Request) (t : Knowledge) : Op → Prop
  | claim {claim : ExecutionClaim} (checked : Checked t claim) :
      StateWrite served t (claimOp claim.execution.executionId)
  | cancel {x : ExecutionRecord} {now : Timestamp} (asked : served = .haReconcilerPass)
      (read : ReadExecution t x) (cancelable : cancelable x.state = true) :
      StateWrite served t (.compareAndSetState x.executionId [x.state] .canceled now)

theorem StateWrite.mono (h : t ⊆ t') : StateWrite served t o → StateWrite served t' o
  | .claim checked => .claim (checked.mono h)
  | .cancel asked read cancelable => .cancel asked (read.mono h) cancelable

/-! ## Lifecycle transitions -/

/-- The contract `verify` stores, before its state is set. -/
def checkedContract (x : ExecutionRecord) (c : RollbackContract) (metadata : JsonMap) :
    RollbackContract :=
  { verifyContract c x.resultDigest with
    metadata := (verifyContract c x.resultDigest).metadata.insert "verify_outcome_receipt"
      (JsonMap.toJson metadata) }

/-- The contract after a definite verification. -/
def verifiedContract (x : ExecutionRecord) (c : RollbackContract) (metadata : JsonMap)
    (verified : Bool) : RollbackContract :=
  { checkedContract x c metadata with state := if verified then .verified else .failed }

/-- **The nine lifecycle transitions**: the rows the handler read, the rows it writes, and the
events it owes. -/
inductive Transition (t : Knowledge) : TransitionName → (previous updated : ExecutionRecord) →
    (previousContract updatedContract : Option RollbackContract) → List ProvenanceEventKind → Prop
  | prepare {x : ExecutionRecord} {c : RollbackContract} (read : ReadExecution t x)
      (preparable : x.state = .authorized ∨ x.state = .prepared)
      (fresh : Saw t .newUuid c.contractId.uuid) (bound : c.executionId = x.executionId)
      (prepared : c.state = .prepared) :
      Transition t .prepare x { x with rollbackContractId := some c.contractId } none (some c)
        [.sideEffectPrepared, .toolCallPrepared]
  | execute {claim : ExecutionClaim} {receipt : ExecuteReceipt} (claimed : Claimed t claim)
      (reply : Saw t (.adapterExecute claim.contract claim.payload) (some receipt)) :
      Transition t .execute { claim.execution with state := .running }
        { claim.execution with
          state := .awaitingVerification, resultDigest := receipt.resultDigest }
        (some claim.contract) (some (executedContract claim.contract receipt claim.payload))
        [.toolCallExecuted]
  | executeRecovery {claim : ExecutionClaim} (claimed : Claimed t claim)
      (reply : Saw t (.adapterExecute claim.contract claim.payload) none) :
      Transition t .executeRecovery { claim.execution with state := .running }
        { claim.execution with state := .recoveryRequired }
        (some claim.contract) (some (recoveryContract claim.contract claim.payload))
        [.errorRaised]
  | verify {x : ExecutionRecord} {c : RollbackContract} {outcome : VerifyOutcome}
      {metadata : JsonMap} {verified : Bool} (pair : ReadPair t x c)
      (awaits : awaitsVerification c x = true)
      (reply : Saw t (.adapterVerify (verifyContract c x.resultDigest)) (some ⟨outcome, metadata⟩))
      (definite : verified = decide (outcome = .applied)) :
      Transition t .verify x
        { x with
          state :=
            if verified then
              (if (verifiedContract x c metadata verified).autoCommit then .committed else x.state)
            else .failed }
        (some c) (some (verifiedContract x c metadata verified))
        (if verified && (verifiedContract x c metadata verified).autoCommit then
          [.sideEffectVerified, .sideEffectCommitted] else [.sideEffectVerified])
  | verifyRecovery {x : ExecutionRecord} {c : RollbackContract} (metadata : JsonMap)
      (pair : ReadPair t x c) (awaits : awaitsVerification c x = true) :
      Transition t .verifyRecovery x { x with state := .recoveryRequired } (some c)
        (some (indeterminateContract (checkedContract x c metadata))) [.errorRaised]
  | commit {x : ExecutionRecord} {c : RollbackContract} (pair : ReadPair t x c)
      (open_ : executionStateIsTerminal x.state = false) (verified : c.state = .verified)
      (manual : c.autoCommit = false) :
      Transition t .commit x { x with state := .committed } (some c)
        (some { c with state := .committed }) [.sideEffectCommitted]
  | compensate {x : ExecutionRecord} {c : RollbackContract} {receipt : RecoveryReceipt}
      {finishedAt : Timestamp} (pair : ReadPair t x c)
      (allowed : awaitsVerification c x = true ∨ inRecovery c x = true)
      (reply : Saw t (.adapterCompensate (enrichHttpCompensationIfNeeded c)) (some receipt)) :
      Transition t .compensate x
        { x with
          state := compensatedState receipt.recovered (inRecovery c x)
          finishedAt := some finishedAt }
        (some (enrichHttpCompensationIfNeeded c))
        (some (compensatedContract (enrichHttpCompensationIfNeeded c) receipt (inRecovery c x)))
        [if receipt.recovered then .sideEffectCompensated else .errorRaised]
  | cancel {x : ExecutionRecord} {finishedAt : Timestamp} (read : ReadExecution t x)
      (cancelable : cancelable x.state = true) :
      Transition t .cancel x { x with state := .canceled, finishedAt := some finishedAt } none none
        [.sideEffectRolledBack]
  | haRecovery {x : ExecutionRecord} {c : RollbackContract} (pair : ReadPair t x c)
      (running : x.state = .running) (prepared : c.state = .prepared) :
      Transition t .haRecovery x { x with state := .recoveryRequired } (some c)
        (some (haRecoveryContract c)) [.errorRaised]

theorem Transition.mono (h : t ⊆ t') {name : TransitionName} {x' : ExecutionRecord}
    {c c' : Option RollbackContract} {kinds : List ProvenanceEventKind} :
    Transition t name x x' c c' kinds → Transition t' name x x' c c' kinds
  | .prepare read preparable fresh bound prepared =>
    .prepare (read.mono h) preparable (fresh.mono h) bound prepared
  | .execute claimed reply => .execute (claimed.mono h) (reply.mono h)
  | .executeRecovery claimed reply => .executeRecovery (claimed.mono h) (reply.mono h)
  | .verify pair awaits reply definite => .verify (pair.mono h) awaits (reply.mono h) definite
  | .verifyRecovery metadata pair awaits => .verifyRecovery metadata (pair.mono h) awaits
  | .commit pair open_ verified manual => .commit (pair.mono h) open_ verified manual
  | .compensate pair allowed reply => .compensate (pair.mono h) allowed (reply.mono h)
  | .cancel read cancelable => .cancel (read.mono h) cancelable
  | .haRecovery pair running prepared => .haRecovery (pair.mono h) running prepared

/-- The lifecycle transitions a request asks for, and of which execution. -/
def Request.asksFor : Request → TransitionName → ExecutionId → Prop
  | .prepare _ id, .prepare, e => e = id
  | .execute _ id _, .execute, e => e = id
  | .execute _ id _, .executeRecovery, e => e = id
  | .verify _ id, .verify, e => e = id
  | .verify _ id, .verifyRecovery, e => e = id
  | .commit _ id, .commit, e => e = id
  | .compensate _ id, .compensate, e => e = id
  | .cancel _ id, .cancel, e => e = id
  | .haReconcilerPass, .haRecovery, _ => True
  | _, _, _ => False

/-- The transaction of a lifecycle transition. -/
def TransitionWrite (served : Request) (t : Knowledge) (updated : ExecutionRecord)
    (updatedContract : Option RollbackContract) (outbox : LifecycleOutboxRecord) : Prop :=
  ∃ name previous previousContract kinds now,
    served.asksFor name updated.executionId ∧
      Transition t name previous updated previousContract updatedContract kinds ∧
      Saw t .newUuid outbox.outboxId.uuid ∧
      outbox = transitionRecord outbox.outboxId now name previous updated previousContract
        updatedContract kinds

theorem TransitionWrite.mono (h : t ⊆ t') {c : Option RollbackContract} :
    TransitionWrite served t x c outbox → TransitionWrite served t' x c outbox
  | ⟨name, x₀, c₀, kinds, now, ha, ht, hu, ho⟩ =>
    ⟨name, x₀, c₀, kinds, now, ha, ht.mono h, hu.mono h, ho⟩

/-! ## Capabilities and authorization -/

/-- The transaction of an authorization. -/
inductive AuthorizationWrite (served : Request) (t : Knowledge) : Op → Prop
  | mk {lease : CapabilityLease} {actor : Option AuthActor} {request : AuthorizeExecutionRequest}
      {executionId : ExecutionId} {outboxId : LifecycleOutboxId}
      {startedAt recordedAt now : Timestamp} (asked : served = .authorize actor request)
      (read : Saw t (.getCapability lease.capabilityId) (.ok (some lease)))
      (bound : request.proposalId = lease.proposalId)
      (freshExecution : Saw t .newUuid executionId.uuid)
      (freshRecord : Saw t .newUuid outboxId.uuid)
      (clock : Saw t .readClock now) :
      AuthorizationWrite served t
        (.recordAuthorization lease (authorizedExecution executionId startedAt request lease)
          (authorizationRecord outboxId recordedAt
            (authorizedExecution executionId startedAt request lease)) now)

theorem AuthorizationWrite.mono (h : t ⊆ t') :
    AuthorizationWrite served t o → AuthorizationWrite served t' o
  | .mk asked read bound freshExecution freshRecord clock =>
    .mk asked (read.mono h) bound (freshExecution.mono h) (freshRecord.mono h) (clock.mono h)

/-- The execution and the record that an authorization writes. -/
theorem AuthorizationWrite.inv {lease : CapabilityLease} {outbox : LifecycleOutboxRecord}
    {now : Timestamp} (h : AuthorizationWrite served t (.recordAuthorization lease x outbox now)) :
    ∃ actor request executionId outboxId startedAt recordedAt,
      served = .authorize actor request ∧
      Saw t (.getCapability lease.capabilityId) (.ok (some lease)) ∧
      request.proposalId = lease.proposalId ∧ Saw t .newUuid outboxId.uuid ∧
      x = authorizedExecution executionId startedAt request lease ∧
      outbox = authorizationRecord outboxId recordedAt x := by
  generalize ho : Op.recordAuthorization lease x outbox now = o at h
  cases h with
  | mk asked read bound _ freshRecord =>
    cases ho
    exact ⟨_, _, _, _, _, _, asked, read, bound, freshRecord, rfl, rfl⟩

/-- The decision the process has read for the proposal of a mint request. -/
def Judged (t : Knowledge) (request : CapabilityMintRequest) (decision : Decision) : Prop :=
  ∃ events event, Saw t (.queryEvents
      { intentId := some request.intentId, eventKind := some .policyEvaluated }) (.ok events) ∧
    event ∈ events ∧ event.proposalId = some request.proposalId ∧
    decisionFromPolicyEvent event = some decision

theorem Judged.mono (h : t ⊆ t') {request : CapabilityMintRequest} {decision : Decision} :
    Judged t request decision → Judged t' request decision
  | ⟨events, event, hs, hrest⟩ => ⟨events, event, hs.mono h, hrest⟩

/-- **The three ways through `mint_capability`'s gate.** -/
inductive MintGate (t : Knowledge) (request : CapabilityMintRequest) : Decision → Prop
  | allowed (judged : Judged t request .allow) : MintGate t request .allow
  | approved {binding : ApprovalBinding} {approval : ApprovalRequest}
      (judged : Judged t request .requireApproval)
      (bound : request.approvalBinding = some binding)
      (read : Saw t (.getApproval binding.approvalId) (.ok (some approval)))
      (granted : approval.state = .granted)
      (digest : binding.approvedActionDigest = approval.actionDigest) :
      MintGate t request .requireApproval
  | released {hold : QuarantineHold} (judged : Judged t request .quarantine)
      (read : Saw t (.getHoldByProposal request.proposalId) (.ok (some hold)))
      (state : hold.state = .allowed) : MintGate t request .quarantine

theorem MintGate.mono (h : t ⊆ t') {request : CapabilityMintRequest} {decision : Decision} :
    MintGate t request decision → MintGate t' request decision
  | .allowed judged => .allowed (judged.mono h)
  | .approved judged bound read granted digest =>
    .approved (judged.mono h) bound (read.mono h) granted digest
  | .released judged read state => .released (judged.mono h) (read.mono h) state

/-- A direct write of a capability: the mark after the process's own authorization, the
revocation of a row it read, or a new lease that has passed the mint gate. -/
inductive CapabilityWrite (served : Request) (t : Knowledge) : Op → Prop
  | markUsed {lease : CapabilityLease} {x : ExecutionRecord} {outbox : LifecycleOutboxRecord}
      {authorizedAt now : Timestamp}
      (authorized : Saw t (.recordAuthorization lease x outbox authorizedAt) (.ok true)) :
      CapabilityWrite served t (.updateStatusIfActive lease.capabilityId .used now)
  | revoke {id : CapabilityId} {revokedAt : Timestamp} :
      CapabilityWrite served t (.revokeIfActive id revokedAt)
  | overwrite {lease : CapabilityLease} {revokedAt : Timestamp}
      (read : Saw t (.getCapability lease.capabilityId) (.ok (some lease))) :
      CapabilityWrite served t
        (.updateCapability { lease with status := .revoked, revokedAt := some revokedAt })
  | mint {actor : Option AuthActor} {request : CapabilityMintRequest} {owner : Option String}
      {now : Timestamp} {capabilityId : CapabilityId} {policyBundleId : PolicyBundleId}
      {decision : Decision} (asked : served = .mintCapability actor request)
      (fresh : Saw t .newUuid capabilityId.uuid)
      (gate : MintGate t request decision) :
      CapabilityWrite served t
        (.insertCapability (mintedLease request owner now capabilityId policyBundleId))

theorem CapabilityWrite.mono (h : t ⊆ t') :
    CapabilityWrite served t o → CapabilityWrite served t' o
  | .markUsed authorized => .markUsed (authorized.mono h)
  | .revoke => .revoke
  | .overwrite read => .overwrite (read.mono h)
  | .mint asked fresh gate => .mint asked (fresh.mono h) (gate.mono h)

/-! ## Outbox records -/

/-- The events of a compensation and of a cancelation do not name their outbox record. -/
def IdempotencyKey.tagsEvents : IdempotencyKey → Bool
  | .transition .compensate _ _ _ | .transition .cancel _ _ _ => false
  | _ => true

/-- The event is about the execution and the contract of the outbox record, and it names the
record where its handler does so. -/
structure EventOf (outbox : LifecycleOutboxRecord) (event : ProvenanceEvent) : Prop where
  execution : event.executionId = some outbox.executionId
  contract : event.rollbackContractId = outbox.rollbackContractId
  decision : event.metadata.decision = none
  tagged : outbox.idempotencyKey.tagsEvents = true →
    event.metadata = lifecycleEventMetadata outbox {}
  untagged : outbox.idempotencyKey.tagsEvents = false → event.metadata.lifecycleOutboxId = none

/-- The process has appended the event of this kind for its outbox record. -/
def Written (t : Knowledge) (outbox : LifecycleOutboxRecord) (kind : ProvenanceEventKind)
    (eventId : EventId) : Prop :=
  ∃ event edges, Saw t (.appendEventWithEdges event edges) (.ok ()) ∧ event.eventId = eventId ∧
    event.kind = kind ∧ EventOf outbox event

variable {kind : ProvenanceEventKind} {eventId : EventId}

theorem Written.mono (h : t ⊆ t') : Written t outbox kind eventId → Written t' outbox kind eventId
  | ⟨event, edges, hs, hrest⟩ => ⟨event, edges, hs.mono h, hrest⟩

/-- The kinds of the events an outbox record owes. -/
def LifecycleOutboxRecord.kinds (record : LifecycleOutboxRecord) : List ProvenanceEventKind :=
  record.provenanceObligations.map (·.eventKind)

/-- A change of an outbox record by its handler or by the operator: the record before and after,
and whether the write clears the lease and overrides one. -/
inductive RecordEdit (served : Request) (t : Knowledge) :
    (old new : LifecycleOutboxRecord) → (clear override : Bool) → Prop
  | mark {x : ExecutionRecord} {outbox old : LifecycleOutboxRecord}
      {kinds : List ProvenanceEventKind} {kind : ProvenanceEventKind} {eventId : EventId}
      {now : Timestamp} (tail : Tail t x outbox kinds) (id : old.outboxId = outbox.outboxId)
      (owed : kind ∈ outbox.kinds) (written : Written t outbox kind eventId) :
      RecordEdit served t old (old.markObligationWritten kind eventId now) false false
  | close {x : ExecutionRecord} {outbox old : LifecycleOutboxRecord}
      {kinds : List ProvenanceEventKind} {now : Timestamp} (tail : Tail t x outbox kinds)
      (id : old.outboxId = outbox.outboxId) (satisfied : old.obligationsSatisfied = true) :
      RecordEdit served t old { old with status := .reconciled, updatedAt := now } true false
  | reset {old : LifecycleOutboxRecord} {now : Timestamp}
      (asked : served = .retryOutbox old.outboxId) :
      RecordEdit served t old
        { old with status := .pendingProvenance, lastError := none, updatedAt := now } true true
  | resolve {old : LifecycleOutboxRecord} {now : Timestamp} {reasonBlank : Bool}
      (asked : served = .resolveOutbox old.outboxId reasonBlank) :
      RecordEdit served t old
        { old with status := .reconciled, lastError := none, updatedAt := now } true true

/-- The event a reconciler counts for an obligation of the record it has leased: the one it has
appended, or one it has found under the record's id and key. -/
inductive Adopted (t : Knowledge) (record : LifecycleOutboxRecord) (kind : ProvenanceEventKind)
    (eventId : EventId) : Prop
  | repaired {event : ProvenanceEvent} {edges : List ProvenanceEdge}
      (stored : Saw t (.appendEventWithEdges event edges) (.ok ()))
      (id : event.eventId = eventId) (kind_ : event.kind = kind)
      (execution : event.executionId = some record.executionId)
      (own_ : eventOfRecord record event = true)
  | discovered {event : ProvenanceEvent} {events : List ProvenanceEvent}
      (read : Saw t (.queryEvents
        { executionId := some record.executionId, eventKind := some kind }) (.ok events))
      (mem : event ∈ events) (id : event.eventId = eventId) (own_ : eventOfRecord record event = true)

variable {record : LifecycleOutboxRecord}

theorem Adopted.mono (h : t ⊆ t') : Adopted t record kind eventId → Adopted t' record kind eventId
  | .repaired stored id kind_ execution own_ => .repaired (stored.mono h) id kind_ execution own_
  | .discovered read mem id own_ => .discovered (read.mono h) mem id own_

/-- A change of an outbox record under a lease; `record` is the one that was leased. -/
inductive ClaimedEdit (t : Knowledge) (record : LifecycleOutboxRecord) :
    (old new : LifecycleOutboxRecord) → (clear : Bool) → Prop
  | mark {old : LifecycleOutboxRecord} {kind : ProvenanceEventKind} {eventId : EventId}
      {now : Timestamp} (owed : kind ∈ (obligationsForRecord record).map (·.eventKind))
      (adopted : Adopted t record kind eventId) :
      ClaimedEdit t record old (old.markObligationWritten kind eventId now) false
  | close {old : LifecycleOutboxRecord} {now : Timestamp}
      (satisfied : old.obligationsSatisfied = true) :
      ClaimedEdit t record old { old with status := .reconciled, updatedAt := now } true
  | giveUp {old : LifecycleOutboxRecord} {status : LifecycleOutboxStatus} {reason : String}
      {now : Timestamp} (status_ : status = .needsOperatorReview ∨ status = old.status) :
      ClaimedEdit t record old
        { old with
          status := status
          lastError := some reason
          attemptCount := old.attemptCount + 1
          updatedAt := now } true

variable {old new : LifecycleOutboxRecord} {clear : Bool}

theorem ClaimedEdit.mono (h : t ⊆ t') :
    ClaimedEdit t record old new clear → ClaimedEdit t' record old new clear
  | .mark owed adopted => .mark owed (adopted.mono h)
  | .close satisfied => .close satisfied
  | .giveUp status_ => .giveUp status_

/-- The parts of a record that no edit touches are the same. -/
def SameRecord (old new : LifecycleOutboxRecord) : Prop :=
  new = { old with
    status := new.status
    provenanceEventId := new.provenanceEventId
    provenanceObligations := new.provenanceObligations
    attemptCount := new.attemptCount
    lastError := new.lastError
    updatedAt := new.updatedAt }

theorem SameRecord.refl (record : LifecycleOutboxRecord) : SameRecord record record := rfl

theorem SameRecord.symm (h : SameRecord old new) : SameRecord new old := by
  unfold SameRecord at h ⊢
  rw [h]

theorem SameRecord.trans {a b c : LifecycleOutboxRecord} (h₁ : SameRecord a b)
    (h₂ : SameRecord b c) : SameRecord a c := by
  unfold SameRecord at h₁ h₂ ⊢
  rw [h₂, h₁]

theorem RecordEdit.sameRecord {override : Bool} (h : RecordEdit served t old new clear override) :
    SameRecord old new := by
  cases h <;> rfl

theorem ClaimedEdit.sameRecord (h : ClaimedEdit t record old new clear) : SameRecord old new := by
  cases h <;> rfl

theorem SameRecord.outboxId (h : SameRecord old new) : new.outboxId = old.outboxId := by
  unfold SameRecord at h
  rw [h]

theorem SameRecord.executionId (h : SameRecord old new) : new.executionId = old.executionId := by
  unfold SameRecord at h
  rw [h]

theorem SameRecord.newExecutionState (h : SameRecord old new) :
    new.newExecutionState = old.newExecutionState := by
  unfold SameRecord at h
  rw [h]

theorem SameRecord.idempotencyKey (h : SameRecord old new) :
    new.idempotencyKey = old.idempotencyKey := by
  unfold SameRecord at h
  rw [h]

/-- A write to the outbox outside a transaction of the lifecycle: each starts from the record as
the process last read it. -/
inductive OutboxWrite (served : Request) (t : Knowledge) : Op → Prop
  | edit {old new : LifecycleOutboxRecord} {clear override : Bool}
      (read : Saw t (.getOutbox old.outboxId) (.ok (some old)))
      (change : RecordEdit served t old new clear override) :
      OutboxWrite served t (.updateOutboxRecord new clear override)
  | claimedEdit {claim : LifecycleOutboxClaim} {old new : LifecycleOutboxRecord} {clear : Bool}
      {now : Timestamp} (holds : HoldsClaim t claim)
      (read : Saw t (.getOutbox claim.lease.outboxId) (.ok (some old)))
      (id : old.outboxId = claim.lease.outboxId)
      (change : ClaimedEdit t claim.record old new clear) (clock : Saw t .readClock now) :
      OutboxWrite served t (.updateOutboxRecordClaimed new claim.lease clear now)
  | claim {limit uuid : Nat} {now : Timestamp} (owner : Saw t .newUuid uuid)
      (clock : Saw t .readClock now) :
      OutboxWrite served t (.claimPendingReconciliation limit s!"lifecycle-reconciler:{uuid}" now
        reconciliationLeaseTtl)
  | renew {lease : LifecycleOutboxLease} {expiryBase now : Timestamp}
      (base : Saw t .readClock expiryBase) (clock : Saw t .readClock now) :
      OutboxWrite served t (.renewReconciliationLease lease (expiryBase + reconciliationLeaseTtl) now)

theorem OutboxWrite.mono (h : t ⊆ t')
    (ho : ∀ record clear override, o ≠ .updateOutboxRecord record clear override) :
    OutboxWrite served t o → OutboxWrite served t' o
  | .edit _ _ => absurd rfl (ho _ _ _)
  | .claimedEdit holds read id change clock =>
    .claimedEdit (holds.mono h) (read.mono h) id (change.mono h) (clock.mono h)
  | .claim owner clock => .claim (owner.mono h) (clock.mono h)
  | .renew base clock => .renew (base.mono h) (clock.mono h)

/-! ## Decisions on approvals and holds -/

/-- A decision written over a row the process read. -/
inductive DecisionWrite (t : Knowledge) : Op → Prop
  | resolveApproval {approval : ApprovalRequest} {granted : Bool} {now : Timestamp}
      (read : Saw t (.getApproval approval.approvalId) (.ok (some approval))) :
      DecisionWrite t
        (.resolveApproval
          { approval with
            state := if granted then .granted else .denied, resolverEvidenceVersion := some 1 } now)
  | expireApproval {approval : ApprovalRequest} {now cutoff : Timestamp} {batch : Nat}
      {rows : List ApprovalRequest} (read : Saw t (.listStaleApprovals now cutoff batch) (.ok rows))
      (mem : approval ∈ rows) :
      DecisionWrite t (.expireApproval { approval with state := .expired })
  | resolveHold {hold : QuarantineHold} {allow : Bool}
      (read : Saw t (.getHold hold.holdId) (.ok (some hold))) :
      DecisionWrite t
        (.writeHoldIfPending { hold with state := if allow then .allowed else .denied })
  | expireHold {hold : QuarantineHold} {now cutoff : Timestamp} {batch : Nat}
      {rows : List QuarantineHold} (read : Saw t (.listStaleHolds now cutoff batch) (.ok rows))
      (mem : hold ∈ rows) :
      DecisionWrite t (.writeHoldIfPending { hold with state := .expired })

theorem DecisionWrite.mono (h : t ⊆ t') : DecisionWrite t o → DecisionWrite t' o
  | .resolveApproval read => .resolveApproval (read.mono h)
  | .expireApproval read mem => .expireApproval (read.mono h) mem
  | .resolveHold read => .resolveHold (read.mono h)
  | .expireHold read mem => .expireHold (read.mono h) mem

/-- A proposal is stored after its own evaluation. -/
def EvaluatedProposal (t : Knowledge) (proposal : ActionProposal) : Prop :=
  ∃ submitted verdict, Saw t (.evaluatePolicy submitted) (some verdict) ∧
    proposal = { submitted with ownerActorId := proposal.ownerActorId }

theorem EvaluatedProposal.mono (h : t ⊆ t') {proposal : ActionProposal} :
    EvaluatedProposal t proposal → EvaluatedProposal t' proposal
  | ⟨submitted, verdict, hs, hp⟩ => ⟨submitted, verdict, hs.mono h, hp⟩

/-! ## Provenance events -/

/-- **The events with a place in the lineage**, each after the write it reports. -/
inductive Announces (t : Knowledge) : ProvenanceEvent → Prop
  | policyEvaluated {submitted : ActionProposal} {owner : Option String} {verdict : PolicyVerdict}
      {eventId : EventId} {now : Timestamp}
      (evaluated : Saw t (.evaluatePolicy submitted) (some verdict))
      (inserted : Saw t (.insertProposal { submitted with ownerActorId := owner }) (.ok ())) :
      Announces t (proposalEvent eventId now .policyEvaluated submitted.intentId
        submitted.proposalId { decision := some verdict.decision.debug })
  | holdCreated {hold : QuarantineHold} {eventId : EventId} {now : Timestamp}
      (inserted : Saw t (.insertHold hold) (.ok ())) :
      Announces t (proposalEvent eventId now .quarantineHoldCreated hold.intentId hold.proposalId
        {})
  | holdDecided {hold : QuarantineHold} {kind : ProvenanceEventKind} {eventId : EventId}
      {now : Timestamp} (kind_ : kind = .quarantineResolved ∨ kind = .quarantineTimedOut) :
      Announces t (proposalEvent eventId now kind hold.intentId hold.proposalId {})
  | capabilityMinted {lease : CapabilityLease} {eventId : EventId} {now : Timestamp}
      (inserted : Saw t (.insertCapability lease) (.ok ())) :
      Announces t (capabilityEvent eventId now .capabilityMinted lease)
  | capabilityRevoked {lease : CapabilityLease} {eventId : EventId} {now : Timestamp} :
      Announces t (capabilityEvent eventId now .capabilityRevoked lease)
  /-- An event that the process's own outbox record owes, for the first time. -/
  | lifecycle {x y : ExecutionRecord} {outbox : LifecycleOutboxRecord}
      {kind : ProvenanceEventKind} {kinds : List ProvenanceEventKind} {eventId : EventId}
      {now : Timestamp} {contractId : Option RollbackContractId} {metadata : EventMetadata}
      (tail : Tail t x outbox kinds) (first : kind ∉ kinds) (owed : kind ∈ outbox.kinds)
      (same : SameExecution y x)
      (event_ : EventOf outbox (executionEvent eventId now kind y contractId metadata)) :
      Announces t (executionEvent eventId now kind y contractId metadata)
  | haCanceled {x : ExecutionRecord} {eventId : EventId} {now finishedAt : Timestamp}
      (canceled : Saw t (.compareAndSetState x.executionId [x.state] .canceled finishedAt)
        (.ok true)) :
      Announces t (executionEvent eventId now .errorRaised x x.rollbackContractId {})

/-- What may be announced may still be announced after a quiet step. -/
theorem Announces.later (hq : Quietly t t') :
    Announces t event → Announces t' event
  | .policyEvaluated evaluated inserted =>
    .policyEvaluated (evaluated.mono hq.subset) (inserted.mono hq.subset)
  | .holdCreated inserted => .holdCreated (inserted.mono hq.subset)
  | .holdDecided kind_ => .holdDecided kind_
  | .capabilityMinted inserted => .capabilityMinted (inserted.mono hq.subset)
  | .capabilityRevoked => .capabilityRevoked
  | .lifecycle tail first owed same event_ => .lifecycle (tail.quietly hq) first owed same event_
  | .haCanceled canceled => .haCanceled (canceled.mono hq.subset)

/-- The event and the edges of one append by `append_governance_event`. -/
inductive Appends (t : Knowledge) : ProvenanceEvent → List ProvenanceEdge → Prop
  /-- An event without a parent kind. -/
  | root {event : ProvenanceEvent} (announced : Announces t event)
      (spec : lineageParentSpec event.kind = none) : Appends t event []
  | linked {event parent : ProvenanceEvent} {parentKind : ProvenanceEventKind}
      {edgeType : ProvenanceEdgeType} {candidates : List ProvenanceEvent}
      (announced : Announces t event)
      (spec : lineageParentSpec event.kind = some (parentKind, edgeType))
      (read : Saw t (.queryEvents { intentId := event.intentId, eventKind := some parentKind })
        (.ok candidates))
      (mem : parent ∈ candidates) (context : sameContext event parent = true) :
      Appends t event
        [{ edgeType, fromEventId := parent.eventId, toEventId := event.eventId }]
  /-- The parent is optional, and missing. -/
  | orphan {event : ProvenanceEvent} {parentKind : ProvenanceEventKind}
      (announced : Announces t event)
      (optional : event.metadata.lineageParentOptional = some true) :
      Appends t
        { event with
          metadata := { event.metadata with lineageParentMissing := some parentKind.debug } } []

/-- A reconciler looks up an event that an obligation of a record it has leased names. -/
def MayLookUp (t : Knowledge) (eventId : EventId) : Prop :=
  ∃ claim obligation, HoldsClaim t claim ∧ obligation ∈ obligationsForRecord claim.record ∧
    obligation.eventId = some eventId

theorem MayLookUp.mono (h : t ⊆ t') :
    MayLookUp t eventId → MayLookUp t' eventId
  | ⟨claim, obligation, hclaim, hrest⟩ => ⟨claim, obligation, hclaim.mono h, hrest⟩

/-- The only event a reconciler found as the parent of one it has to repair. -/
def OnlyParent (t : Knowledge) (record : LifecycleOutboxRecord) (x : ExecutionRecord)
    (parentKind : ProvenanceEventKind) (parent : ProvenanceEvent) : Prop :=
  Saw t (.queryEvents { executionId := some record.executionId, eventKind := some parentKind })
      (.ok [parent]) ∨
    parentKind = .capabilityMinted ∧
      Saw t (.queryEvents
        { capabilityId := some x.capabilityId, eventKind := some parentKind }) (.ok [parent])

theorem OnlyParent.mono (h : t ⊆ t') {parentKind : ProvenanceEventKind} {parent : ProvenanceEvent} :
    OnlyParent t record x parentKind parent → OnlyParent t' record x parentKind parent
  | .inl read => .inl (read.mono h)
  | .inr ⟨kind_, read⟩ => .inr ⟨kind_, read.mono h⟩

/-- Since it leased the record, the reconciler has searched the store for the record's event of
this kind, has not found just one, and has appended nothing. -/
def Searched (t : Knowledge) (claim : LifecycleOutboxClaim) (kind : ProvenanceEventKind) : Prop :=
  ∃ recent events old,
    t = recent ++
      ⟨.queryEvents { executionId := some claim.record.executionId, eventKind := some kind },
        .ok events⟩ :: old ∧
    HoldsClaim old claim ∧ (events.filter (eventOfRecord claim.record)).length ≠ 1 ∧
    ∀ e ∈ recent, appended e = none

theorem Searched.quietly (h : Searched t claim kind) (hq : Quietly t t') :
    Searched t' claim kind := by
  obtain ⟨recent, events, old, rfl, hclaim, hnone, hrecent⟩ := h
  obtain ⟨new, rfl, hnew⟩ := hq
  refine ⟨new ++ recent, events, old, (List.append_assoc _ _ _).symm, hclaim, hnone,
    fun e he => ?_⟩
  rcases List.mem_append.mp he with he | he
  · have hminor := hnew e he
    simp only [minor, Bool.and_eq_true, Option.isNone_iff_eq_none] at hminor
    exact hminor.1
  · exact hrecent e he

theorem Searched.padded (h : Searched t claim kind) (hp : Padded .deadline t t') :
    Searched t' claim kind := by
  obtain ⟨recent, events, old, rfl, hclaim, hnone, hrecent⟩ := h
  obtain ⟨recent', old', rfl, hrecent', hold⟩ := hp.split
  refine ⟨recent', events, old', rfl, hclaim.mono hold.subset, hnone, fun e he => ?_⟩
  rcases hrecent'.mem he with he | he
  · exact hrecent e he
  · obtain ⟨o, r⟩ := e
    cases he
    rfl

/-- The event and the edge a reconciler appends for an obligation whose event is not there. -/
inductive Repair (t : Knowledge) : ProvenanceEvent → List ProvenanceEdge → Prop
  | mk {claim : LifecycleOutboxClaim} {x : ExecutionRecord} {contract : Option RollbackContract}
      {obligation : ProvenanceObligation} {eventId : EventId} {now : Timestamp}
      {parentKind : ProvenanceEventKind} {parent : ProvenanceEvent}
      (claimed : HoldsClaim t claim)
      (read : Saw t (.getExecution claim.record.executionId) (.ok (some x)))
      (contract_ : contract.map (·.contractId) = claim.record.rollbackContractId)
      (owed : obligation ∈ obligationsForRecord claim.record)
      (missing : ∀ id ∈ obligation.eventId, Saw t (.getEvent id) (.ok none))
      (searched : Searched t claim obligation.eventKind)
      (spec : obligation.parentKind = some parentKind)
      (only : OnlyParent t claim.record x parentKind parent) :
      Repair t (repairedEvent eventId now claim.record x contract obligation.eventKind)
        [{ edgeType := obligation.edgeType.getD .caused
           fromEventId := parent.eventId
           toEventId := eventId }]

theorem Repair.padded (h : Padded .deadline t t') {edges : List ProvenanceEdge} :
    Repair t event edges → Repair t' event edges
  | .mk claimed read contract_ owed missing searched spec only =>
    .mk (claimed.mono h.subset) (read.mono h.subset) contract_ owed
      (fun id hid => (missing id hid).mono h.subset) (searched.padded h) spec (only.mono h.subset)

/-- The edge a reconciler adds to the event of an obligation that is there without one. -/
inductive EdgeRepair (t : Knowledge) : EventId → List ProvenanceEdge → Prop
  | mk {claim : LifecycleOutboxClaim} {x : ExecutionRecord} {obligation : ProvenanceObligation}
      {eventId : EventId} {parentKind : ProvenanceEventKind} {parent : ProvenanceEvent}
      (claimed : HoldsClaim t claim)
      (read : Saw t (.getExecution claim.record.executionId) (.ok (some x)))
      (owed : obligation ∈ obligationsForRecord claim.record)
      (child : obligation.eventId = some eventId ∨
        Adopted t claim.record obligation.eventKind eventId)
      (spec : obligation.parentKind = some parentKind)
      (only : OnlyParent t claim.record x parentKind parent) :
      EdgeRepair t eventId
        [{ edgeType := obligation.edgeType.getD .caused
           fromEventId := parent.eventId
           toEventId := eventId }]

theorem EdgeRepair.mono (h : t ⊆ t') {edges : List ProvenanceEdge} :
    EdgeRepair t eventId edges → EdgeRepair t' eventId edges
  | .mk claimed read owed child spec only =>
    .mk (claimed.mono h) (read.mono h) owed (child.imp_right fun ha => ha.mono h) spec
      (only.mono h)

/-- The events that are appended on their own. -/
inductive Notes (t : Knowledge) : ProvenanceEvent → Prop
  | approvalResolved {approval written : ApprovalRequest} {granted : Bool} {eventId : EventId}
      {resolvedAt now : Timestamp} {authenticated : Bool} {role : Option String}
      (read : Saw t (.getApproval approval.approvalId) (.ok (some approval)))
      (resolved : Saw t (.resolveApproval written resolvedAt) (.ok true))
      (id : written.approvalId = approval.approvalId)
      (state : written.state = if granted then .granted else .denied) :
      Notes t (approvalEvent eventId now
        (if granted then .approvalGranted else .approvalDenied) approval
        { approvalId := some approval.approvalId
          actorAuthenticated := some authenticated
          actorRole := role })
  | approvalTimedOut {approval : ApprovalRequest} {eventId : EventId} {now : Timestamp} :
      Notes t (approvalEvent eventId now .approvalTimedOut approval
        { approvalId := some approval.approvalId })
  | ingested {event : ProvenanceEvent} (external : isExternallyIngestibleKind event.kind = true) :
      Notes t event

theorem Notes.mono (h : t ⊆ t') : Notes t event → Notes t' event
  | .approvalResolved read resolved id state =>
    .approvalResolved (read.mono h) (resolved.mono h) id state
  | .approvalTimedOut => .approvalTimedOut
  | .ingested external => .ingested external

/-- No event of a parent kind can be ingested. -/
theorem internal_of_parentSpec {parentKind : ProvenanceEventKind} {edgeType : ProvenanceEdgeType}
    (h : lineageParentSpec kind = some (parentKind, edgeType)) :
    isExternallyIngestibleKind parentKind = false := by
  cases kind <;> cases h <;> rfl

/-- The events a process asks the store for: those of a kind that cannot be ingested, or of one
that a record it has leased owes or asks for as a parent. Only the lineage gate of `execute` reads
events whatever their kind. -/
inductive MayQuery (served : Request) (t : Knowledge) (q : World.ProvenanceQuery) : Prop
  | governed {kind : ProvenanceEventKind} (kind_ : q.eventKind = some kind)
      (internal : isExternallyIngestibleKind kind = false) : MayQuery served t q
  | kindOwed {claim : LifecycleOutboxClaim} {obligation : ProvenanceObligation}
      (claimed : HoldsClaim t claim) (owed : obligation ∈ obligationsForRecord claim.record)
      (kind_ : q.eventKind = some obligation.eventKind) : MayQuery served t q
  | parentOwed {claim : LifecycleOutboxClaim} {obligation : ProvenanceObligation}
      {parentKind : ProvenanceEventKind} (claimed : HoldsClaim t claim)
      (owed : obligation ∈ obligationsForRecord claim.record)
      (spec : obligation.parentKind = some parentKind)
      (kind_ : q.eventKind = some parentKind) : MayQuery served t q
  | gate {actor : Option AuthActor} {id : ExecutionId} {payload : Json}
      (asked : served = .execute actor id payload) (any : q.eventKind = none) :
      MayQuery served t q

theorem MayQuery.mono (h : t ⊆ t') {q : World.ProvenanceQuery} :
    MayQuery served t q → MayQuery served t' q
  | .governed kind_ internal => .governed kind_ internal
  | .kindOwed claimed owed kind_ => .kindOwed (claimed.mono h) owed kind_
  | .parentOwed claimed owed spec kind_ => .parentOwed (claimed.mono h) owed spec kind_
  | .gate asked any => .gate asked any

/-! ## The adapter's side effects -/

/-- The adapter's execute is asked for, and follows the won claim at once. -/
def MayExecute (served : Request) (t : Knowledge) (contract : RollbackContract)
    (payload : Json) : Prop :=
  ∃ claim : ExecutionClaim, served.asksFor .execute claim.execution.executionId ∧
    Checked t claim ∧ claim.contract = contract ∧ claim.payload = payload ∧
    ∃ rest, t = ⟨claimOp claim.execution.executionId, .ok true⟩ :: rest

/-- The adapter's verify works on a pair the process read after its execute. -/
def MayVerify (t : Knowledge) (contract : RollbackContract) : Prop :=
  ∃ x c, ReadPair t x c ∧ awaitsVerification c x = true ∧
    contract = verifyContract c x.resultDigest

theorem MayVerify.mono (h : t ⊆ t') {contract : RollbackContract} :
    MayVerify t contract → MayVerify t' contract
  | ⟨x, c, hp, ha, hc⟩ => ⟨x, c, hp.mono h, ha, hc⟩

/-- The adapter's compensate works on a pair the process read. -/
def MayCompensate (t : Knowledge) (contract : RollbackContract) : Prop :=
  ∃ x c, ReadPair t x c ∧ (awaitsVerification c x = true ∨ inRecovery c x = true) ∧
    contract = enrichHttpCompensationIfNeeded c

theorem MayCompensate.mono (h : t ⊆ t') {contract : RollbackContract} :
    MayCompensate t contract → MayCompensate t' contract
  | ⟨x, c, hp, ha, hc⟩ => ⟨x, c, hp.mono h, ha, hc⟩

/-! ## The conduct -/

/-- The id of an event is new: the process has drawn it. -/
def Drawn (t : Knowledge) (eventId : EventId) : Prop := Saw t .newUuid eventId.uuid

/-- What a process of the gateway that serves the request may do after the transcript `t`. -/
def may (served : Request) (t : Knowledge) : Op → Prop
  | .insertProposal proposal => EvaluatedProposal t proposal
  | .insertCapability lease => CapabilityWrite served t (.insertCapability lease)
  | .updateCapability lease => CapabilityWrite served t (.updateCapability lease)
  | .updateStatusIfActive id status now =>
    CapabilityWrite served t (.updateStatusIfActive id status now)
  | .revokeIfActive id revokedAt => CapabilityWrite served t (.revokeIfActive id revokedAt)
  | .resolveApproval approval now => DecisionWrite t (.resolveApproval approval now)
  | .expireApproval approval => DecisionWrite t (.expireApproval approval)
  | .writeHoldIfPending hold => DecisionWrite t (.writeHoldIfPending hold)
  | .compareAndSetState id expected new now =>
    StateWrite served t (.compareAndSetState id expected new now)
  | .recordLifecycleTransition x contract outbox => TransitionWrite served t x contract outbox
  | .recordAuthorization lease x outbox now =>
    AuthorizationWrite served t (.recordAuthorization lease x outbox now)
  | .claimPendingReconciliation limit owner now ttl =>
    OutboxWrite served t (.claimPendingReconciliation limit owner now ttl)
  | .renewReconciliationLease lease expiresAt now =>
    OutboxWrite served t (.renewReconciliationLease lease expiresAt now)
  | .updateOutboxRecord record clear override =>
    OutboxWrite served t (.updateOutboxRecord record clear override)
  | .updateOutboxRecordClaimed record lease clear now =>
    OutboxWrite served t (.updateOutboxRecordClaimed record lease clear now)
  | .getEvent eventId => MayLookUp t eventId
  | .queryEvents q => MayQuery served t q
  | .appendEvent event => Notes t event ∧ Drawn t event.eventId
  | .appendEventWithEdges event edges =>
    (Appends t event edges ∨ Repair t event edges) ∧ Drawn t event.eventId
  | .appendEdges eventId edges => EdgeRepair t eventId edges
  | .evaluatePolicy _ => ∀ e ∈ t, ∀ proposal, e.1 ≠ .evaluatePolicy proposal
  | .adapterExecute contract payload => MayExecute served t contract payload
  | .adapterVerify contract => MayVerify t contract
  | .adapterCompensate contract => MayCompensate t contract
  | _ => True

/-- The reply the store can give to an operation. -/
def Op.gives (o : Op) (r : o.Result) : Prop := ∃ i w, (o.exec i w).1 = r

/-- The conduct of a process that serves the request; the world answers as the store does. -/
def conduct (served : Request) : Conduct Op Op.Result where
  may := may served
  gives := Op.gives

/-- What the replies of a deadline cannot forbid: everything but the adapter's execute, which
follows its claim at once, the one evaluation of a process, the first append of an event, and a
handler's writes to its outbox record before it closes it. -/
def Steady (t : Knowledge) : Op → Prop
  | .adapterExecute _ _ | .evaluatePolicy _ | .updateOutboxRecord _ _ _ => False
  | .appendEventWithEdges event edges => Repair t event edges
  | _ => True

theorem may_padded (t t' : Knowledge) (o : Op) (ho : Steady t o) (hp : Padded .deadline t t')
    (hm : may served t o) : may served t' o := by
  have h := hp.subset
  cases o with
  | insertProposal proposal => exact EvaluatedProposal.mono h hm
  | insertCapability lease => exact CapabilityWrite.mono h hm
  | updateCapability lease => exact CapabilityWrite.mono h hm
  | updateStatusIfActive id status now => exact CapabilityWrite.mono h hm
  | revokeIfActive id revokedAt => exact CapabilityWrite.mono h hm
  | resolveApproval approval now => exact DecisionWrite.mono h hm
  | expireApproval approval => exact DecisionWrite.mono h hm
  | writeHoldIfPending hold => exact DecisionWrite.mono h hm
  | compareAndSetState id expected new now => exact StateWrite.mono h hm
  | recordLifecycleTransition x contract outbox => exact TransitionWrite.mono h hm
  | recordAuthorization lease x outbox now => exact AuthorizationWrite.mono h hm
  | claimPendingReconciliation limit owner now ttl => exact OutboxWrite.mono h (by simp) hm
  | renewReconciliationLease lease expiresAt now => exact OutboxWrite.mono h (by simp) hm
  | updateOutboxRecord record clear override => exact ho.elim
  | updateOutboxRecordClaimed record lease clear now => exact OutboxWrite.mono h (by simp) hm
  | getEvent eventId => exact MayLookUp.mono h hm
  | queryEvents q => exact MayQuery.mono h hm
  | appendEvent event => exact ⟨Notes.mono h hm.1, hm.2.mono h⟩
  | appendEventWithEdges event edges => exact ⟨.inr (Repair.padded hp ho), hm.2.mono h⟩
  | appendEdges id edges => exact EdgeRepair.mono h hm
  | evaluatePolicy proposal => exact ho.elim
  | adapterExecute contract payload => exact ho.elim
  | adapterVerify contract => exact MayVerify.mono h hm
  | adapterCompensate contract => exact MayCompensate.mono h hm
  | _ => trivial

end FerrumGate
