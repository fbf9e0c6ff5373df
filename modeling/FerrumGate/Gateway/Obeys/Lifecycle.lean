import FerrumGate.Gateway.Obeys.Rules

/-!
# The lifecycle handlers obey

`prepare`, `execute`, `verify`, `commit`, `compensate`, `cancel` and the HA reconciler's pass: each
performs one of the transitions of `Transition`, with the rows it read, and announces the events
the transition owes.
-/

namespace FerrumGate

open Interleave Interleave.Rows

variable {served : Request} {t : Knowledge} {state : AppState} {actor : Option AuthActor}

/-! ## Lookups -/

theorem ownerGuard_obeys {owner : Option String} :
    ObeysE (conduct served) (fun _ _ => True) (ownerGuard state actor owner) t := by
  unfold ownerGuard
  exact walk_call trivial fun _ _ => obeysE_ofExcept.mpr fun _ _ => trivial

variable {id : ExecutionId}

theorem loadExecution_obeys :
    ObeysE (conduct served)
      (fun x t' => x.executionId = id ∧ Saw t' (.getExecution x.executionId) (.ok (some x)))
      (loadExecution state actor id) t := by
  unfold loadExecution
  refine walk_require ⟨trivial, ?_⟩
  rintro _ hr x rfl
  obtain rfl := gives_getExecution hr
  refine ownerGuard_obeys.andThen fun _ t' ht _ => obeysE_pure.mpr ⟨rfl, ?_⟩
  exact Saw.now.mono ht

variable {x : ExecutionRecord}

theorem loadContract_obeys :
    ObeysE (conduct served)
      (fun c t' => x.rollbackContractId = some c.contractId ∧
        Saw t' (.getContract c.contractId) (.ok (some c)))
      (loadContract x) t := by
  unfold loadContract
  cases hlink : x.rollbackContractId with
  | none => exact obeysE_throw
  | some id =>
    refine obeysE_require ⟨trivial, ?_⟩
    rintro _ hr c rfl
    obtain rfl := gives_getContract hr
    exact ⟨rfl, Saw.now⟩

variable {c : RollbackContract}

/-- The lookups of `verify`, `commit` and `compensate`. -/
theorem readPair_of {t' : Knowledge} (ht : t ⊆ t')
    (hx : Saw t (.getExecution x.executionId) (.ok (some x)))
    (hc : x.rollbackContractId = some c.contractId ∧
      Saw t' (.getContract c.contractId) (.ok (some c))) : ReadPair t' x c :=
  ⟨.byId (hx.mono ht), hc.2, hc.1⟩

/-! ## The lineage gate -/

theorem parentThrough_some {child parent : ProvenanceEvent} {events : List ProvenanceEvent}
    {parentKind : ProvenanceEventKind} {edge : ProvenanceEdge}
    (h : parentThrough child events parentKind edge = some parent) :
    parent ∈ events ∧ parent.kind = parentKind ∧ sameContext child parent = true := by
  unfold parentThrough at h
  rw [Option.filter_eq_some_iff, Option.filter_eq_some_iff] at h
  obtain ⟨⟨hfind, hkind⟩, hctx⟩ := h
  exact ⟨List.mem_of_find?_eq_some hfind, by simpa using hkind, hctx⟩

theorem requireParentEvent_obeys {child : ProvenanceEvent} {events : List ProvenanceEvent}
    {parentKind : ProvenanceEventKind} {edgeType : ProvenanceEdgeType} {label : String} :
    ObeysE (conduct served) (fun parent _ => parent ∈ events ∧ parent.kind = parentKind)
      (requireParentEvent child events parentKind edgeType label) t := by
  unfold requireParentEvent
  refine obeysE_bind.mpr (obeysE_adapt.mpr ⟨trivial, ?_⟩)
  rintro _ - edges rfl
  dsimp only
  cases hfind : (edges.filter fun edge =>
      edge.edgeType = edgeType && edge.toEventId = child.eventId).findSome?
      (parentThrough child events parentKind) with
  | none => exact obeysE_throw
  | some parent =>
    obtain ⟨edge, _, hedge⟩ := List.exists_of_findSome?_eq_some hfind
    obtain ⟨hmem, hkind, _⟩ := parentThrough_some hedge
    exact obeysE_pure.mpr ⟨hmem, hkind⟩

variable {payload : Json}

theorem validateMinimumLineageChain_obeys :
    ObeysE (conduct (.execute actor id payload))
      (fun _ t' => ∃ events policy capability,
        Saw t' (.queryEvents { intentId := some x.intentId }) (.ok events) ∧
          MinimumLineage events x policy capability)
      (validateMinimumLineageChain x) t := by
  unfold validateMinimumLineageChain
  refine obeysE_bind.mpr (obeysE_adapt.mpr ⟨.gate rfl rfl, ?_⟩)
  rintro _ - events rfl
  refine obeysE_bind.mpr (obeysE_ofExcept.mpr fun toolPrepared _ => ?_)
  refine requireParentEvent_obeys.andThen fun prepared t₁ h₁ _ => walk_ensure fun _ => ?_
  refine requireParentEvent_obeys.andThen fun submitted t₂ h₂ _ => walk_ensure fun _ => ?_
  refine requireParentEvent_obeys.andThen fun capability t₃ h₃ hcap => walk_ensure fun hcapId => ?_
  refine requireParentEvent_obeys.andThen fun policy t₄ h₄ hpol => walk_ensure fun hpolId => ?_
  refine obeysE_bind.mpr (obeysE_ofExcept.mpr fun _ hdec => obeysE_ofExcept.mpr fun _ _ => ?_)
  have hread := (((Saw.now.mono h₁).mono h₂).mono h₃).mono h₄
  exact ⟨events, policy, capability, hread,
    ⟨hpol.1, hpol.2, hpolId, hcap.1, hcap.2, hcapId.2, hdec⟩⟩

/-! ## Prepare -/

theorem withoutAutoCommitForR3_executionId (request : RollbackPrepareRequest) :
    (withoutAutoCommitForR3 request).executionId = request.executionId := by
  unfold withoutAutoCommitForR3
  split <;> rfl

variable {request : RollbackPrepareRequest}

theorem generatedPlan_obeys :
    ObeysE (conduct served) (fun _ _ => True) (generatedPlan request) t := by
  unfold generatedPlan
  split
  · exact obeysE_lift.mpr ⟨trivial, fun _ _ => trivial⟩
  · exact obeysE_pure.mpr trivial

theorem rollbackPrepare_obeys :
    ObeysE (conduct served)
      (fun response t' => Saw t' .newUuid response.contract.contractId.uuid ∧
        response.contract.executionId = request.executionId ∧
        response.contract.state = .prepared)
      (rollbackPrepare request) t := by
  unfold rollbackPrepare
  refine walk_demand fun _ => walk_call trivial fun reply _ => ?_
  cases reply with
  | none => exact obeysE_throw
  | some receipt =>
    refine generatedPlan_obeys.andThen fun planned t₁ _ _ => walk_demand fun _ => ?_
    refine walk_call trivial fun uuid _ => walk_call trivial fun now _ => obeysE_pure.mpr ?_
    exact ⟨Saw.now.earlier, withoutAutoCommitForR3_executionId request, rfl⟩

theorem buildPrepareRequestForProposal_executionId {intentId : IntentId}
    {executionId : ExecutionId} {proposal : ActionProposal} {scope : List ResourceSelector}
    {uuid : Nat}
    (h : buildPrepareRequestForProposal state intentId executionId proposal scope uuid =
      .ok request) : request.executionId = executionId := by
  unfold buildPrepareRequestForProposal at h
  obtain ⟨_, _, h⟩ := bind_ok.mp h
  cases Except.ok.inj h
  rfl

theorem prepareExecution_obeys :
    ObeysE (conduct (.prepare actor id))
      (fun _ t' => Settles t' id [.sideEffectPrepared, .toolCallPrepared])
      (prepareExecution state actor id) t := by
  unfold prepareExecution
  refine loadExecution_obeys.andThen fun x t₁ _ hx => walk_demand fun hstate => ?_
  obtain ⟨rfl, hread⟩ := hx
  refine walk_require ⟨trivial, ?_⟩
  rintro _ - proposal rfl
  refine walk_require ⟨trivial, ?_⟩
  rintro _ - intent rfl
  refine walk_demand fun _ => walk_call trivial fun uuid _ => ?_
  refine obeysE_bind.mpr (obeysE_ofExcept.mpr fun request hrequest => ?_)
  refine rollbackPrepare_obeys.andThen fun response t₂ ht₂ hresponse => ?_
  obtain ⟨hfresh, hbound, hprepared⟩ := hresponse
  have hid : request.executionId = x.executionId := by
    cases hb : buildPrepareRequestForProposal state x.intentId x.executionId proposal
        intent.resourceScope uuid with
    | error e =>
      rw [hb] at hrequest
      cases hrequest
    | ok built =>
      rw [hb] at hrequest
      cases Except.ok.inj hrequest
      exact buildPrepareRequestForProposal_executionId hb
  have hread₂ : ReadExecution t₂ x :=
    .byId ((hread.mono (by intro e he; simp [he])).mono ht₂)
  have hstep := Transition.prepare hread₂ hstate hfresh (hbound.trans hid) hprepared
  have hasked : (Request.prepare actor x.executionId).asksFor .prepare x.executionId := rfl
  refine walk_store (P := fun _ t' =>
    Settles t' x.executionId [.sideEffectPrepared, .toolCallPrepared]) ?_
    fun _ _ _ hsettles => obeysE_pure.mpr hsettles
  refine (recordLifecycleTransitionOutbox_obeys hstep hasked).andThen fun outbox t₃ _ hout => ?_
  obtain ⟨htail, outboxId, recordedAt, rfl⟩ := hout
  refine (appendOwed_obeys htail List.not_mem_nil (by simp [transitionRecord_kinds])
    ⟨rfl, rfl, rfl, rfl⟩ rfl rfl rfl).andThen fun preparedId t₄ _ h => ?_
  obtain ⟨htail₄, hwritten₄⟩ := h
  refine (markLifecycleObligationWritten_obeys htail₄ (by simp [transitionRecord_kinds])
    hwritten₄).andThen fun _ t₅ ht₅ h₅ => ?_
  refine (appendOwed_obeys (htail₄.quietly h₅.1) (by simp) (by simp [transitionRecord_kinds])
    ⟨rfl, rfl, rfl, rfl⟩ rfl rfl rfl).andThen fun toolPreparedId t₆ ht₆ h => ?_
  obtain ⟨htail₆, hwritten₆⟩ := h
  refine (markLifecycleObligationWritten_obeys htail₆ (by simp [transitionRecord_kinds])
    hwritten₆).andThen fun _ t₇ ht₇ h₇ => ?_
  refine (markReconciled_obeys (htail₆.quietly h₇.1)).mono fun _ t₈ h₇₈ => ?_
  have h₆₈ := List.Subset.trans ht₇ h₇₈
  have h₅₈ := List.Subset.trans ht₆ h₆₈
  have h₄₈ := List.Subset.trans ht₅ h₅₈
  refine ⟨_, rfl, transitionRecord_kinds, htail₆.owns.mono h₆₈, fun kind hkind => ?_⟩
  rw [transitionRecord_kinds] at hkind
  rcases List.mem_pair.mp hkind with rfl | rfl
  · exact ⟨preparedId, hwritten₄.mono h₄₈, h₅.2.mono h₅₈⟩
  · exact ⟨toolPreparedId, hwritten₆.mono h₆₈, h₇.2.mono h₇₈⟩

/-! ## Execute -/

theorem adapterPayload_ok {payload' : Json} {proposal : ActionProposal}
    (h : adapterPayload payload proposal = .ok payload') : payload' = proposal.rawArguments := by
  unfold adapterPayload at h
  split at h
  · exact (Except.ok.inj h).symm
  · split at h
    · rename_i heq
      rw [← Except.ok.inj h, heq]
    · cases h

theorem checkExecute_obeys :
    ObeysE (conduct (.execute actor id payload))
      (fun claim t' => claim.execution.executionId = id ∧ Checked t' claim)
      (checkExecute state actor id payload) t := by
  unfold checkExecute
  refine loadExecution_obeys.andThen fun x t₁ _ hx => walk_require ⟨trivial, ?_⟩
  rintro _ - intent rfl
  refine walk_demand fun _ => loadContract_obeys.andThen fun c t₂ ht₂ hc => ?_
  have hpair : ReadPair t₂ x c := readPair_of ht₂ (hx.2.mono (List.subset_cons_self _ _)) hc
  refine walk_demand fun hexec => walk_demand fun hbound => walk_demand fun _ => ?_
  refine walk_require ⟨trivial, ?_⟩
  rintro _ - lease rfl
  refine walk_require ⟨trivial, ?_⟩
  rintro _ - proposal rfl
  refine walk_demandOk fun _ => obeysE_bind.mpr (obeysE_ofExcept.mpr fun payload' hpay => ?_)
  refine walk_demandOk fun _ => ?_
  refine ObeysE.andThen (obeysE_adapt.mpr validateMinimumLineageChain_obeys)
    fun _ t₃ ht₃ hlineage => obeysE_pure.mpr ⟨hx.1, ?_⟩
  have hproposal : Saw t₃ (.getProposal x.proposalId) (.ok (some proposal)) := Saw.now.mono ht₃
  have hpair₃ : ReadPair t₃ x c := (hpair.mono (by intro e he; simp [he])).mono ht₃
  exact ⟨hpair₃, hexec, hbound.1, ⟨proposal, hproposal, adapterPayload_ok hpay⟩, hlineage⟩

variable {claim : ExecutionClaim}

/-- The claim, when the compare-and-set has been won. -/
theorem claim_obeys (h : Checked t claim) :
    ObeysE (conduct served)
      (fun claimed t' => claimed = true →
        t' = ⟨claimOp claim.execution.executionId, .ok true⟩ :: t)
      (compareAndSetState claim.execution.executionId [.prepared, .authorized, .proposed] .running)
      t := by
  unfold compareAndSetState
  refine ⟨.claim h, ?_⟩
  rintro r - b rfl
  rintro rfl
  rfl

theorem recordAmbiguousExecute_obeys
    (hasked : served.asksFor .executeRecovery claim.execution.executionId) (h : Claimed t claim)
    (hreply : Saw t (.adapterExecute claim.contract claim.payload) none) :
    ObeysE (conduct served) (fun _ t' => Settles t' claim.execution.executionId [.errorRaised])
      (recordAmbiguousExecute claim) t := by
  unfold recordAmbiguousExecute
  refine (recordLifecycleTransitionOutbox_obeys (.executeRecovery h hreply) hasked).andThen
    fun outbox t₁ _ hout => ?_
  obtain ⟨htail, id, now, rfl⟩ := hout
  refine (appendOnly_obeys htail ⟨rfl, rfl, rfl, rfl⟩ h.checked.pair.linked rfl).andThen
    fun eventId t₂ _ hw => ?_
  exact (closeOnly_obeys hw.1 hw.2).andThen fun _ _ _ hs => obeysE_pure.mpr hs

theorem recordExecuted_obeys {receipt : ExecuteReceipt}
    (hasked : served.asksFor .execute claim.execution.executionId) (h : Claimed t claim)
    (hreply : Saw t (.adapterExecute claim.contract claim.payload) (some receipt)) :
    ObeysE (conduct served) (fun _ t' => Settles t' claim.execution.executionId [.toolCallExecuted])
      (recordExecuted claim receipt) t := by
  unfold recordExecuted
  refine (recordLifecycleTransitionOutbox_obeys (.execute h hreply) hasked).andThen
    fun outbox t₁ _ hout => ?_
  obtain ⟨htail, id, now, rfl⟩ := hout
  refine (appendOnly_obeys htail ⟨rfl, rfl, rfl, rfl⟩ h.checked.pair.linked rfl).andThen
    fun eventId t₂ _ hw => ?_
  exact (closeOnly_obeys hw.1 hw.2).andThen fun _ _ _ hs => obeysE_pure.mpr hs

theorem executeExecution_obeys :
    ObeysE (conduct (.execute actor id payload)) (fun _ t' => ∃ kinds, Settles t' id kinds)
      (executeExecution state actor id payload) t := by
  unfold executeExecution
  refine checkExecute_obeys.andThen fun claim t₁ _ hclaim => ?_
  obtain ⟨rfl, hchecked⟩ := hclaim
  refine walk_store (claim_obeys hchecked) fun claimed t₂ ht₂ hwon => walk_demand fun htrue => ?_
  have ht := hwon htrue
  have hclaimed : Claimed t₂ claim := ⟨hchecked.mono ht₂, ht ▸ Saw.now⟩
  refine walk_call ⟨claim, rfl, hclaimed.checked, rfl, rfl, t₁, ht⟩ fun reply _ => ?_
  have hclaimed' := hclaimed.mono (List.subset_cons_self
    (⟨.adapterExecute claim.contract claim.payload, reply⟩ : Reply Op Op.Result) t₂)
  cases reply with
  | none =>
    exact walk_store (recordAmbiguousExecute_obeys rfl hclaimed' Saw.now)
      fun _ _ _ hs => obeysE_pure.mpr ⟨_, hs⟩
  | some receipt =>
    exact walk_store (recordExecuted_obeys rfl hclaimed' Saw.now)
      fun _ _ _ hs => obeysE_pure.mpr ⟨_, hs⟩

/-! ## Verify and commit -/

theorem closeVerified_obeys {y : ExecutionRecord} {outbox : LifecycleOutboxRecord}
    {contractId : RollbackContractId} {commits : Bool}
    (htail : Tail t x outbox [.sideEffectVerified]) (hsame : SameExecution y x)
    (hid : y.executionId = outbox.executionId)
    (hcontract : some contractId = outbox.rollbackContractId)
    (htags : outbox.idempotencyKey.tagsEvents = true) (hkinds : outbox.kinds =
      if commits then [.sideEffectVerified, .sideEffectCommitted] else [.sideEffectVerified])
    {verifiedId : EventId} (hwritten : Written t outbox .sideEffectVerified verifiedId)
    (hmarked : Marked t outbox.outboxId .sideEffectVerified verifiedId) :
    ObeysE (conduct served) (fun _ t' => Settled t' outbox)
      (closeVerified outbox y contractId commits) t := by
  unfold closeVerified
  cases commits with
  | false =>
    refine (markReconciled_obeys htail).mono fun _ t' hsub => ?_
    refine ⟨htail.owns.mono hsub, fun kind hkind => ⟨verifiedId, ?_⟩⟩
    rw [hkinds] at hkind
    obtain rfl := List.mem_singleton.mp hkind
    exact ⟨hwritten.mono hsub, hmarked.mono hsub⟩
  | true =>
    have howed : .sideEffectCommitted ∈ outbox.kinds := by simp [hkinds]
    have hmetadata : Tags outbox (lifecycleEventMetadata outbox {}) := by
      unfold Tags
      rw [htags]
      rfl
    refine (appendOwed_obeys htail (by decide) howed hsame hid hcontract hmetadata).andThen
      fun committedId t₁ ht₁ h => ?_
    obtain ⟨htail₁, hwritten₁⟩ := h
    refine (markLifecycleObligationWritten_obeys htail₁ howed hwritten₁).andThen
      fun _ t₂ ht₂ h₂ => ?_
    refine (markReconciled_obeys (htail₁.quietly h₂.1)).mono fun _ t₃ h₂₃ => ?_
    have h₁₃ := List.Subset.trans ht₂ h₂₃
    have h₃ := List.Subset.trans ht₁ h₁₃
    refine ⟨htail₁.owns.mono h₁₃, fun kind hkind => ?_⟩
    rw [hkinds] at hkind
    rcases List.mem_pair.mp hkind with rfl | rfl
    · exact ⟨verifiedId, hwritten.mono h₃, hmarked.mono h₃⟩
    · exact ⟨committedId, hwritten₁.mono h₁₃, h₂.2.mono h₂₃⟩

theorem recordVerified_obeys {outcome : VerifyOutcome} {metadata : JsonMap} {verified : Bool}
    (hasked : served.asksFor .verify x.executionId) (hpair : ReadPair t x c)
    (hawaits : awaitsVerification c x = true)
    (hreply : Saw t (.adapterVerify (verifyContract c x.resultDigest)) (some ⟨outcome, metadata⟩))
    (hdefinite : verified = decide (outcome = .applied)) :
    ObeysE (conduct served) (fun _ t' => ∃ kinds, Settles t' x.executionId kinds)
      (recordVerified x c (checkedContract x c metadata) verified) t := by
  unfold recordVerified
  refine (recordLifecycleTransitionOutbox_obeys (.verify hpair hawaits hreply hdefinite)
    hasked).andThen fun outbox t₁ _ hout => ?_
  obtain ⟨htail, id, now, rfl⟩ := hout
  refine (appendOwed_obeys htail List.not_mem_nil ?_ ⟨rfl, rfl, rfl, rfl⟩ rfl rfl rfl).andThen
    fun verifiedId t₂ ht₂ h => ?_
  · rw [transitionRecord_kinds]
    split <;> simp
  obtain ⟨htail₂, hwritten₂⟩ := h
  refine (markLifecycleObligationWritten_obeys htail₂ ?_ hwritten₂).andThen fun _ t₃ ht₃ h₃ => ?_
  · rw [transitionRecord_kinds]
    split <;> simp
  refine (closeVerified_obeys (htail₂.quietly h₃.1) ⟨rfl, rfl, rfl, rfl⟩ rfl rfl rfl
    transitionRecord_kinds (hwritten₂.mono ht₃) h₃.2).andThen fun _ t₄ _ hs => ?_
  exact obeysE_pure.mpr ⟨_, _, rfl, rfl, hs⟩

theorem recordIndeterminate_obeys (metadata : JsonMap)
    (hasked : served.asksFor .verifyRecovery x.executionId) (hpair : ReadPair t x c)
    (hawaits : awaitsVerification c x = true) :
    ObeysE (conduct served) (fun _ t' => Settles t' x.executionId [.errorRaised])
      (recordIndeterminate x c (checkedContract x c metadata)) t := by
  unfold recordIndeterminate
  refine (recordLifecycleTransitionOutbox_obeys (.verifyRecovery metadata hpair hawaits)
    hasked).andThen fun outbox t₁ _ hout => ?_
  obtain ⟨htail, id, now, rfl⟩ := hout
  refine (appendOwed_obeys htail List.not_mem_nil (by simp [transitionRecord_kinds])
    ⟨rfl, rfl, rfl, rfl⟩ rfl rfl rfl).andThen fun eventId t₂ ht₂ h => ?_
  obtain ⟨htail₂, hwritten₂⟩ := h
  refine (markLifecycleObligationWritten_obeys htail₂ (by simp [transitionRecord_kinds])
    hwritten₂).andThen fun _ t₃ ht₃ h₃ => obeysE_pure.mpr ?_
  refine ⟨_, rfl, transitionRecord_kinds, htail₂.owns.mono ht₃, fun kind hkind => ?_⟩
  rw [transitionRecord_kinds] at hkind
  obtain rfl := List.mem_singleton.mp hkind
  exact ⟨eventId, hwritten₂.mono ht₃, h₃.2⟩

theorem verifyExecution_obeys :
    ObeysE (conduct (.verify actor id)) (fun _ t' => ∃ kinds, Settles t' id kinds)
      (verifyExecution state actor id) t := by
  unfold verifyExecution
  refine loadExecution_obeys.andThen fun x t₁ _ hx => ?_
  obtain ⟨rfl, hread⟩ := hx
  refine loadContract_obeys.andThen fun c t₂ ht₂ hc => walk_demand fun hawaits => ?_
  have hpair : ReadPair t₂ x c := readPair_of ht₂ hread hc
  refine walk_call ⟨x, c, hpair, hawaits, rfl⟩ fun reply _ => ?_
  have hpair' := hpair.mono (List.subset_cons_self
    (⟨.adapterVerify (verifyContract c x.resultDigest), reply⟩ : Reply Op Op.Result) t₂)
  cases reply with
  | none => exact obeysE_throw
  | some receipt =>
    obtain ⟨outcome, metadata⟩ := receipt
    cases outcome with
    | indeterminate =>
      exact walk_store (recordIndeterminate_obeys metadata rfl hpair' hawaits)
        fun _ _ _ hs => obeysE_pure.mpr ⟨_, hs⟩
    | applied =>
      exact walk_store (recordVerified_obeys rfl hpair' hawaits Saw.now rfl)
        fun _ _ _ hs => obeysE_pure.mpr hs
    | notApplied =>
      exact walk_store (recordVerified_obeys rfl hpair' hawaits Saw.now rfl)
        fun _ _ _ hs => obeysE_pure.mpr hs

theorem commitExecution_obeys :
    ObeysE (conduct (.commit actor id)) (fun _ t' => Settles t' id [.sideEffectCommitted])
      (commitExecution state actor id) t := by
  unfold commitExecution
  refine loadExecution_obeys.andThen fun x t₁ _ hx => walk_demand fun hopen => ?_
  obtain ⟨rfl, hread⟩ := hx
  refine loadContract_obeys.andThen fun c t₂ ht₂ hc => walk_demand fun hverified => ?_
  have hpair : ReadPair t₂ x c := readPair_of ht₂ hread hc
  refine walk_demand fun hmanual => walk_store (P := fun _ _ => True) ?_ fun events t₃ ht₃ _ => ?_
  · exact ⟨.governed rfl rfl, fun _ _ _ _ => trivial⟩
  · refine walk_demand fun _ => walk_store (P := fun _ t' =>
      Settles t' x.executionId [.sideEffectCommitted]) ?_ fun _ _ _ hs => obeysE_pure.mpr hs
    have hasked : (Request.commit actor x.executionId).asksFor .commit x.executionId := rfl
    refine (recordLifecycleTransitionOutbox_obeys
      (.commit (hpair.mono ht₃) hopen hverified hmanual) hasked).andThen fun outbox t₄ _ hout => ?_
    obtain ⟨htail, outboxId, now, rfl⟩ := hout
    refine (appendOnly_obeys htail ⟨rfl, rfl, rfl, rfl⟩ rfl rfl).andThen fun _ _ _ hw => ?_
    exact (closeOnly_obeys hw.1 hw.2).mono fun _ _ hs => hs

/-! ## Compensate and cancel -/

theorem inRecovery_enrich (c : RollbackContract) (x : ExecutionRecord) :
    inRecovery (enrichHttpCompensationIfNeeded c) x = inRecovery c x := by
  rw [enrichHttpCompensationIfNeeded_eq]
  rfl

theorem recordCompensated_obeys {receipt : RecoveryReceipt}
    (hasked : served.asksFor .compensate x.executionId) (hpair : ReadPair t x c)
    (hallowed : awaitsVerification c x = true ∨ inRecovery c x = true)
    (hreply : Saw t (.adapterCompensate (enrichHttpCompensationIfNeeded c)) (some receipt)) :
    ObeysE (conduct served) (fun _ t' => ∃ kinds, Settles t' x.executionId kinds)
      (recordCompensated x (enrichHttpCompensationIfNeeded c) receipt) t := by
  unfold recordCompensated
  simp only [inRecovery_enrich]
  refine walk_draw trivial fun finishedAt _ => ?_
  have hsub := List.subset_cons_self (⟨.readClock, finishedAt⟩ : Reply Op Op.Result) t
  refine (recordLifecycleTransitionOutbox_obeys
    (.compensate (hpair.mono hsub) hallowed (hreply.mono hsub)) hasked).andThen
    fun outbox t₁ _ hout => ?_
  obtain ⟨htail, id, now, rfl⟩ := hout
  refine (appendOnly_obeys htail ⟨rfl, rfl, rfl, rfl⟩ rfl ?_).andThen fun eventId t₂ _ hw => ?_
  · rfl
  · exact (closeOnly_obeys hw.1 hw.2).andThen fun _ _ _ hs => obeysE_pure.mpr ⟨_, hs⟩

theorem compensateExecution_obeys :
    ObeysE (conduct (.compensate actor id)) (fun _ t' => ∃ kinds, Settles t' id kinds)
      (compensateExecution state actor id) t := by
  unfold compensateExecution
  refine loadExecution_obeys.andThen fun x t₁ _ hx => ?_
  obtain ⟨rfl, hread⟩ := hx
  refine loadContract_obeys.andThen fun c t₂ ht₂ hc => walk_demand fun hallowed => ?_
  have hpair : ReadPair t₂ x c := readPair_of ht₂ hread hc
  refine walk_call ⟨x, c, hpair, hallowed, rfl⟩ fun reply _ => ?_
  cases reply with
  | none => exact obeysE_throw
  | some receipt =>
    refine walk_store (recordCompensated_obeys rfl (hpair.mono (List.subset_cons_self _ _))
      hallowed Saw.now) fun _ _ _ hs => ?_
    split
    · exact obeysE_pure.mpr hs
    · split
      · exact obeysE_pure.mpr hs
      · exact obeysE_pure.mpr hs

theorem cancelExecution_obeys :
    ObeysE (conduct (.cancel actor id)) (fun _ t' => Settles t' id [.sideEffectRolledBack])
      (cancelExecution state actor id) t := by
  unfold cancelExecution
  refine loadExecution_obeys.andThen fun x t₁ _ hx => walk_demand fun hcancelable => ?_
  obtain ⟨rfl, hread⟩ := hx
  refine walk_call trivial fun finishedAt _ => ?_
  have hread₁ : ReadExecution (⟨.readClock, finishedAt⟩ :: t₁) x :=
    .byId (hread.mono (List.subset_cons_self _ _))
  have hasked : (Request.cancel actor x.executionId).asksFor .cancel x.executionId := rfl
  refine walk_store (recordLifecycleTransitionOutbox_obeys (.cancel hread₁ hcancelable) hasked)
    fun outbox t₂ _ hout => ?_
  obtain ⟨htail, outboxId, now, rfl⟩ := hout
  refine appendAuditChecked_obeys.andThen fun _ t₃ _ hq => ?_
  refine walk_store (appendOnly_obeys (htail.quietly hq) ⟨rfl, rfl, rfl, rfl⟩ rfl rfl)
    fun eventId t₄ _ hw => ?_
  refine walk_store (closeOnly_obeys hw.1 hw.2) fun _ t₅ _ hs => ?_
  exact walk_call trivial fun _ _ => obeysE_pure.mpr (hs.mono (List.subset_cons_self _ _))

/-! ## The HA reconciler -/

theorem recordHaRecovery_obeys {occurredAt : Timestamp} (hpair : ReadPair t x c)
    (hrunning : x.state = .running) (hprepared : c.state = .prepared) :
    ObeysE (conduct .haReconcilerPass) (fun _ _ => True) (recordHaRecovery x c occurredAt) t := by
  unfold recordHaRecovery
  have hasked : Request.haReconcilerPass.asksFor .haRecovery x.executionId := trivial
  refine (recordLifecycleTransitionOutbox_obeys (.haRecovery hpair hrunning hprepared)
    hasked).andThen fun outbox t₁ _ hout => ?_
  obtain ⟨htail, id, now, rfl⟩ := hout
  have hevent : ∀ eventId, EventOf
      (transitionRecord id now .haRecovery x { x with state := .recoveryRequired } (some c)
        (some (haRecoveryContract c)) [.errorRaised])
      (executionEvent eventId occurredAt .errorRaised x x.rollbackContractId
        (lifecycleEventMetadata (transitionRecord id now .haRecovery x
          { x with state := .recoveryRequired } (some c) (some (haRecoveryContract c))
          [.errorRaised]) {})) :=
    fun _ => Tags.eventOf rfl rfl hpair.linked
  refine (appendExecutionEventAt_obeys fun eventId => .lifecycle htail List.not_mem_nil
    (by simp [transitionRecord_kinds]) ⟨rfl, rfl, rfl, rfl⟩ (hevent eventId)).andThen
    fun eventId t₂ _ happ => ?_
  exact (closeOnly_obeys (happ.tail htail) (happ.written (hevent eventId))).mono
    fun _ _ _ => trivial

theorem reconcileRunningPreparedPair_obeys {occurredAt : Timestamp} (hread : ReadExecution t x)
    (hrunning : x.state = .running) :
    ObeysE (conduct .haReconcilerPass) (fun _ _ => True) (reconcileRunningPreparedPair x occurredAt) t := by
  unfold reconcileRunningPreparedPair
  cases hlink : x.rollbackContractId with
  | none => exact obeysE_pure.mpr trivial
  | some contractId =>
    refine walk_statement ⟨trivial, ?_⟩
    rintro _ hr found rfl
    cases found with
    | none => exact obeysE_pure.mpr trivial
    | some c =>
      obtain rfl := gives_getContract hr
      dsimp only
      split
      · exact obeysE_pure.mpr trivial
      · rename_i hprepared
        have hpair : ReadPair (⟨.getContract c.contractId, .ok (some c)⟩ :: t) x c :=
          ⟨hread.mono (List.subset_cons_self _ _), Saw.now, hlink⟩
        exact (recordHaRecovery_obeys hpair hrunning (not_not.mp hprepared)).andThen
          fun _ _ _ _ => obeysE_pure.mpr trivial

/-- The HA reconciler's cancelation of a row it listed. -/
theorem haCancel_obeys (hread : ReadExecution t x) (hcancelable : cancelable x.state = true) :
    ObeysE (conduct .haReconcilerPass)
      (fun canceled t' => canceled = true → ∃ finishedAt,
        Saw t' (.compareAndSetState x.executionId [x.state] .canceled finishedAt) (.ok true))
      (compareAndSetState x.executionId [x.state] .canceled) t := by
  unfold compareAndSetState finishTime
  refine walk_draw trivial fun finishedAt _ => ⟨?_, ?_⟩
  · exact .cancel rfl (hread.mono (List.subset_cons_self _ _)) hcancelable
  · rintro _ - b rfl
    rintro rfl
    exact ⟨finishedAt, Saw.now⟩

theorem reconcileStale_obeys {now : Timestamp} {report : HaReport} (hread : ReadExecution t x) :
    Obeys (conduct .haReconcilerPass) (fun _ _ => True) (reconcileStale x now report) t := by
  unfold reconcileStale
  split
  · rename_i hrunning
    refine Obeys.andThen (reconcileRunningPreparedPair_obeys hread hrunning) fun r _ _ _ => ?_
    rcases r with e | ⟨_ | _⟩ <;> exact obeys_pure.mpr trivial
  · split
    · rename_i hcancelable
      refine Obeys.andThen (haCancel_obeys hread hcancelable) fun r t₁ ht₁ hr => ?_
      rcases r with e | ⟨_ | _⟩
      · exact obeys_pure.mpr trivial
      · exact obeys_pure.mpr trivial
      · obtain ⟨finishedAt, hcanceled⟩ := hr true rfl rfl
        exact Obeys.andThen (appendExecutionEventAt_obeys fun _ => .haCanceled hcanceled)
          fun _ _ _ _ => obeys_pure.mpr trivial
    · exact obeys_pure.mpr trivial

theorem reconcileAllStale_obeys {now : Timestamp} {rows : List ExecutionRecord}
    {report : HaReport} (hread : ∀ x ∈ rows, ReadExecution t x) :
    Obeys (conduct .haReconcilerPass) (fun _ _ => True) (reconcileAllStale now rows report) t := by
  induction rows generalizing t report with
  | nil => exact obeys_pure.mpr trivial
  | cons x rows ih =>
    unfold reconcileAllStale
    refine (reconcileStale_obeys (hread x (by simp))).andThen fun report' t' ht _ => ?_
    exact ih fun y hy => (hread y (by simp [hy])).mono ht

theorem runHaReconcilerPass_obeys :
    Obeys (conduct .haReconcilerPass) (fun _ _ => True) (runHaReconcilerPass state) t := by
  unfold runHaReconcilerPass
  refine obeys_bind.mpr ⟨trivial, fun now _ => obeys_bind.mpr ⟨trivial, fun r _ => ?_⟩⟩
  rcases r with e | rows
  · exact obeys_pure.mpr trivial
  · exact reconcileAllStale_obeys fun x hx => .stale Saw.now hx

end FerrumGate
