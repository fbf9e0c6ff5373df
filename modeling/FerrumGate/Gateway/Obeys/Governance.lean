import FerrumGate.Gateway.Obeys.Lifecycle

/-!
# The governance handlers obey

Capabilities, authorization, intents and proposals, approvals, quarantine holds, ingest and the
timeouts of pending decisions.
-/

namespace FerrumGate

open Interleave Interleave.Rows

variable {served : Request} {t : Knowledge} {state : AppState} {actor : Option AuthActor}

/-! ## Capabilities -/

/-- An approval the process has read in state `Granted`, with the digest of the binding. -/
def Approved (t : Knowledge) (binding : ApprovalBinding) : Prop :=
  ∃ approval : ApprovalRequest, Saw t (.getApproval binding.approvalId) (.ok (some approval)) ∧
    approval.state = .granted ∧ binding.approvedActionDigest = approval.actionDigest

theorem validateApprovalBindingDigest_obeys {binding : ApprovalBinding} {proposalId : ProposalId} :
    ObeysE (conduct served) (fun _ t' => Approved t' binding)
      (validateApprovalBindingDigest state binding proposalId) t := by
  unfold validateApprovalBindingDigest
  refine walk_require ⟨trivial, ?_⟩
  rintro _ - approval rfl
  refine walk_demand fun hgranted => walk_call trivial fun _ _ => walk_demand fun _ => ?_
  refine walk_call trivial fun _ _ => walk_demand fun _ => walk_demand fun hdigest => ?_
  refine walk_require ⟨trivial, ?_⟩
  rintro _ - proposal rfl
  refine walk_demand fun _ => ?_
  have happroved : ∀ {t'}, (⟨.getApproval binding.approvalId, .ok (some approval)⟩ :: t) ⊆ t' →
      Approved t' binding := fun h => ⟨approval, Saw.now.mono h, hgranted, hdigest⟩
  split
  · exact obeysE_pure.mpr (happroved (by intro e he; simp [he]))
  · refine walk_store (P := fun _ _ => True) ⟨.governed rfl rfl, fun _ _ _ _ => trivial⟩
      fun _ t' ht' _ => ?_
    refine obeysE_ofExcept.mpr fun _ _ => happroved (List.Subset.trans ?_ ht')
    intro e he
    simp [he]

theorem latestEvent_mem {events : List ProvenanceEvent} {event : ProvenanceEvent}
    (h : latestEvent events = some event) : event ∈ events := by
  induction events generalizing event with
  | nil => cases h
  | cons head rest ih =>
    unfold latestEvent at h
    cases hrest : latestEvent rest with
    | none =>
      rw [hrest] at h
      cases h
      exact List.mem_cons_self
    | some later =>
      rw [hrest] at h
      dsimp only at h
      split at h
      · cases h
        exact List.mem_cons_of_mem _ (ih hrest)
      · cases h
        exact List.mem_cons_self

variable {request : CapabilityMintRequest}

theorem latestPolicyDecisionForProposal_obeys :
    ObeysE (conduct served) (fun decision t' => Judged t' request decision)
      (latestPolicyDecisionForProposal request.proposalId request.intentId) t := by
  unfold latestPolicyDecisionForProposal
  refine walk_store (P := fun events t' => Saw t' (.queryEvents
    { intentId := some request.intentId, eventKind := some .policyEvaluated }) (.ok events))
    ⟨.governed rfl rfl, ?_⟩ fun events t₁ _ hread => ?_
  · rintro _ - events rfl
    exact Saw.now
  · cases hlatest : latestEvent (events.filter (·.proposalId = some request.proposalId)) with
    | none => exact obeysE_throw
    | some event =>
      dsimp only
      cases hdecision : decisionFromPolicyEvent event with
      | none => exact obeysE_throw
      | some decision =>
        have hmem := List.mem_filter.mp (latestEvent_mem hlatest)
        exact obeysE_pure.mpr
          ⟨events, event, hread, hmem.1, by simpa using hmem.2, hdecision⟩

theorem validateQuarantineHoldForProposal_obeys {proposalId : ProposalId} :
    ObeysE (conduct served)
      (fun _ t' => ∃ hold : QuarantineHold,
        Saw t' (.getHoldByProposal proposalId) (.ok (some hold)) ∧ hold.state = .allowed)
      (validateQuarantineHoldForProposal proposalId) t := by
  unfold validateQuarantineHoldForProposal
  refine walk_store (P := fun found t' => Saw t' (.getHoldByProposal proposalId) (.ok found))
    ⟨trivial, ?_⟩ fun found t₁ _ hread => ?_
  · rintro _ - found rfl
    exact Saw.now
  · cases found with
    | none => exact obeysE_throw
    | some hold =>
      dsimp only
      cases hstate : hold.state with
      | allowed => exact obeysE_pure.mpr ⟨hold, hread, hstate⟩
      | pending => exact obeysE_throw
      | denied => exact obeysE_throw
      | expired => exact obeysE_throw

theorem mintGate_obeys :
    ObeysE (conduct served) (fun _ t' => ∃ decision, MintGate t' request decision)
      (mintGate state request) t := by
  unfold mintGate
  refine latestPolicyDecisionForProposal_obeys.andThen fun decision t₁ _ hjudged => ?_
  cases decision with
  | allow => exact obeysE_pure.mpr ⟨.allow, .allowed hjudged⟩
  | requireApproval =>
    dsimp only
    cases hbinding : request.approvalBinding with
    | none => exact obeysE_throw
    | some binding =>
      refine (validateApprovalBindingDigest_obeys.suffix).mono ?_
      rintro r t₂ ⟨happroved, ht₂⟩ a ha
      obtain ⟨approval, hread, hgranted, hdigest⟩ := happroved a ha
      exact ⟨_, .approved (hjudged.mono ht₂.subset) hbinding hread hgranted hdigest⟩
  | quarantine =>
    refine (validateQuarantineHoldForProposal_obeys.suffix).mono ?_
    rintro r t₂ ⟨hheld, ht₂⟩ a ha
    obtain ⟨hold, hread, hstate⟩ := hheld a ha
    exact ⟨_, .released (hjudged.mono ht₂.subset) hread hstate⟩
  | deny => exact obeysE_throw
  | allowDraftOnly => exact obeysE_throw

theorem mintCapabilityWithOwner_obeys {owner : Option String} {decision : Decision}
    (hgate : MintGate t request decision) :
    ObeysE (conduct (.mintCapability actor request))
      (fun lease t' => Saw t' (.insertCapability lease) (.ok ()))
      (mintCapabilityWithOwner request owner) t := by
  unfold mintCapabilityWithOwner
  refine walk_ensure fun _ => obeysE_bind.mpr (obeysE_lift.mpr ⟨trivial, fun now _ => ?_⟩)
  refine obeysE_bind.mpr (obeysE_lift.mpr ⟨trivial, fun capability _ => ?_⟩)
  refine obeysE_bind.mpr (obeysE_lift.mpr ⟨trivial, fun bundle _ => walk_capStatement ⟨?_, ?_⟩⟩)
  · exact .mint rfl Saw.now.earlier (hgate.mono (by intro e he; simp [he]))
  · rintro _ - ⟨⟩ rfl
    exact obeysE_pure.mpr Saw.now

variable {lease : CapabilityLease}

theorem appendCapabilityEvent_obeys {kind : ProvenanceEventKind}
    (h : ∀ eventId now, Announces t (capabilityEvent eventId now kind lease)) :
    ObeysE (conduct served) (fun _ _ => True) (appendCapabilityEvent kind lease) t := by
  unfold appendCapabilityEvent
  refine walk_draw trivial fun uuid _ => walk_draw trivial fun now _ => ?_
  have hq : Quietly t (⟨.readClock, now⟩ :: ⟨.newUuid, uuid⟩ :: t) :=
    ((Quietly.refl t).cons rfl).cons rfl
  exact (appendGovernanceEvent_obeys ((h ⟨uuid⟩ now).later hq) Saw.now.earlier).mono
    fun _ _ _ => trivial

theorem mintCapability_obeys :
    ObeysE (conduct (.mintCapability actor request)) (fun _ _ => True)
      (mintCapability state actor request) t := by
  unfold mintCapability
  refine walk_require ⟨trivial, ?_⟩
  rintro _ - proposal rfl
  refine walk_demand fun _ => walk_demandOk fun _ => walk_require ⟨trivial, ?_⟩
  rintro _ - intent rfl
  refine mintGate_obeys.andThen fun _ t₁ _ hgate => ?_
  obtain ⟨decision, hgate⟩ := hgate
  refine ObeysE.andThen (obeysE_adapt.mpr (mintCapabilityWithOwner_obeys hgate))
    fun lease t₂ _ hinserted => ?_
  exact walk_store (appendCapabilityEvent_obeys fun _ _ => .capabilityMinted hinserted)
    fun _ _ _ _ => obeysE_pure.mpr trivial

/-- The conduct of a routine that appends no event and closes no record. -/
abbrev quiet (served : Request) : Conduct Op Op.Result :=
  (conduct served).only fun _ o => o.major = false

variable {id : CapabilityId}

theorem capGet_obeys :
    ObeysE (quiet served)
      (fun lease t' => lease.capabilityId = id ∧
        Saw t' (.getCapability lease.capabilityId) (.ok (some lease)))
      (capGet id) t := by
  unfold capGet
  refine walk_capStatement ⟨⟨rfl, trivial⟩, ?_⟩
  rintro _ hr found rfl
  cases found with
  | none => exact obeysE_throw
  | some lease =>
    obtain rfl := gives_getCapability hr
    exact obeysE_pure.mpr ⟨rfl, Saw.now⟩

theorem checkConsumable_obeys :
    ObeysE (quiet served) (fun _ _ => True) (checkConsumable lease) t := by
  unfold checkConsumable
  refine walk_ensure fun _ => walk_ensure fun _ => ?_
  exact obeysE_bind.mpr (obeysE_lift.mpr ⟨⟨rfl, trivial⟩, fun _ _ => obeysE_ofExcept.mpr
    fun _ _ => trivial⟩)

/-- What `mark_used` and `revoke` do after their conditional update. -/
theorem afterConditionalUpdate_obeys {updated : Bool} :
    ObeysE (quiet served) (fun _ _ => True)
      (if updated then capGet id
        else do
          let lease ← capGet id
          checkConsumable lease
          throw .notFound) t := by
  split
  · exact ObeysE.mono capGet_obeys fun _ _ _ => trivial
  · refine capGet_obeys.andThen fun _ _ _ _ => checkConsumable_obeys.andThen fun _ _ _ _ => ?_
    exact obeysE_throw

variable {now : Timestamp}

/-- The service's own mark appends no event, however it ends. -/
theorem capMarkUsed_obeys {x : ExecutionRecord} {outbox : LifecycleOutboxRecord}
    (h : Saw t (.recordAuthorization lease x outbox now) (.ok true)) :
    Obeys (conduct served) (fun _ t' => Quietly t t') (capMarkUsed lease.capabilityId).run t := by
  have hquiet : ObeysE (quiet served) (fun _ _ => True) (capMarkUsed lease.capabilityId) t := by
    unfold capMarkUsed
    refine capGet_obeys.andThen fun row t₁ ht₁ _ => ?_
    refine checkConsumable_obeys.andThen fun _ t₂ ht₂ _ => ?_
    refine obeysE_bind.mpr (obeysE_lift.mpr
      ⟨⟨rfl, trivial⟩, fun now' _ => walk_capStatement ⟨⟨rfl, ?_⟩, ?_⟩⟩)
    · exact .markUsed (((h.mono ht₁).mono ht₂).mono (List.subset_cons_self _ _))
    · rintro _ - updated rfl
      exact afterConditionalUpdate_obeys
  refine (Obeys.of_only_new hquiet).mono ?_
  rintro _ t' ⟨-, new, rfl, hnew⟩
  exact ⟨new, rfl, fun e he => minor_of_op (hnew e he)⟩

theorem capRevoke_obeys : ObeysE (quiet served) (fun _ _ => True) (capRevoke id) t := by
  unfold capRevoke
  refine capGet_obeys.andThen fun row t₁ ht₁ _ => ?_
  refine checkConsumable_obeys.andThen fun _ t₂ ht₂ _ => ?_
  refine obeysE_bind.mpr (obeysE_lift.mpr
    ⟨⟨rfl, trivial⟩, fun now _ => walk_capStatement ⟨⟨rfl, .revoke⟩, ?_⟩⟩)
  rintro _ - updated rfl
  exact afterConditionalUpdate_obeys

theorem revokeInStore_obeys : ObeysE (conduct served) (fun _ _ => True) (revokeInStore id) t := by
  unfold revokeInStore
  refine walk_require ⟨trivial, ?_⟩
  rintro _ hr lease rfl
  obtain rfl := gives_getCapability hr
  refine walk_demand fun _ => walk_demand fun _ => walk_call trivial fun _ _ => ?_
  refine walk_demand fun _ => walk_call trivial fun revokedAt _ => ?_
  refine walk_store (P := fun _ _ => True) ⟨?_, fun _ _ _ _ => trivial⟩
    fun _ _ _ _ => obeysE_pure.mpr trivial
  exact .overwrite Saw.now.earlier.earlier

theorem revokeThroughService_obeys :
    ObeysE (conduct served) (fun _ _ => True) (revokeThroughService id) t := by
  unfold revokeThroughService
  refine ObeysE.andThen (obeysE_attempt.mpr (Obeys.of_only capRevoke_obeys)) fun r _ _ _ => ?_
  rcases r with e | lease
  · cases e with
    | notFound => exact revokeInStore_obeys
    | _ => exact obeysE_throw
  · exact obeysE_pure.mpr trivial

theorem revokeCapability_obeys :
    ObeysE (conduct served) (fun _ _ => True) (revokeCapability state actor id) t := by
  unfold revokeCapability
  refine walk_require ⟨trivial, ?_⟩
  rintro _ - lease rfl
  refine ownerGuard_obeys.andThen fun _ _ _ _ => ?_
  refine revokeThroughService_obeys.andThen fun _ _ _ _ => ?_
  exact walk_store (appendCapabilityEvent_obeys fun _ _ => .capabilityRevoked)
    fun _ _ _ _ => obeysE_pure.mpr trivial

/-! ## Authorization -/

theorem capServiceGet_obeys :
    ObeysE (conduct served)
      (fun lease t' => lease.capabilityId = id ∧
        Saw t' (.getCapability lease.capabilityId) (.ok (some lease)))
      (capServiceGet id) t := by
  unfold capServiceGet
  refine ObeysE.andThen (Obeys.of_only capGet_obeys) fun lease t₁ _ hlease => walk_ensure fun _ => ?_
  refine obeysE_bind.mpr (obeysE_lift.mpr ⟨trivial, fun now _ => walk_ensure fun _ => ?_⟩)
  exact obeysE_pure.mpr ⟨hlease.1, hlease.2.earlier⟩

theorem getCapabilityForAuthorize_obeys :
    ObeysE (conduct served)
      (fun lease t' => lease.capabilityId = id ∧
        Saw t' (.getCapability lease.capabilityId) (.ok (some lease)))
      (getCapabilityForAuthorize id) t := by
  unfold getCapabilityForAuthorize
  refine ObeysE.andThen (obeysE_attempt.mpr capServiceGet_obeys) fun r t₁ _ hr => ?_
  rcases r with e | lease
  · cases e with
    | notFound =>
      refine obeysE_bind.mpr (obeysE_adapt.mpr ⟨trivial, ?_⟩)
      rintro _ hrow found rfl
      cases found with
      | none => exact obeysE_throw
      | some lease =>
        obtain rfl := gives_getCapability hrow
        refine ObeysE.andThen (Obeys.of_only checkConsumable_obeys)
          fun _ t₂ ht₂ _ => obeysE_pure.mpr ⟨rfl, ?_⟩
        exact Saw.now.mono ht₂
    | _ => exact obeysE_throw
  · exact obeysE_pure.mpr (hr lease rfl)

theorem checkAuthorize_obeys {request : AuthorizeExecutionRequest} :
    ObeysE (conduct served)
      (fun lease t' => lease.capabilityId = request.capabilityId ∧
        request.proposalId = lease.proposalId ∧
        Saw t' (.getCapability lease.capabilityId) (.ok (some lease)))
      (checkAuthorize state actor request) t := by
  unfold checkAuthorize
  refine ObeysE.andThen (obeysE_adapt.mpr getCapabilityForAuthorize_obeys)
    fun lease t₁ _ hlease => ownerGuard_obeys.andThen fun _ t₂ ht₂ _ => walk_demand fun hbound => ?_
  refine walk_require ⟨trivial, ?_⟩
  rintro _ - proposal rfl
  refine walk_demandOk fun _ => walk_require ⟨trivial, ?_⟩
  rintro _ - intent rfl
  refine walk_demandOk fun _ => ?_
  have hread := hlease.2.mono ht₂
  cases lease.approvalBinding with
  | none => exact obeysE_pure.mpr ⟨hlease.1, hbound, hread.earlier.earlier⟩
  | some binding =>
    refine validateApprovalBindingDigest_obeys.andThen fun _ t₃ ht₃ _ => obeysE_pure.mpr ?_
    exact ⟨hlease.1, hbound, hread.earlier.earlier.mono ht₃⟩

theorem closeAuthorization_obeys {x : ExecutionRecord} {id : LifecycleOutboxId}
    (htail : Tail t x (authorizationRecord id now x) []) :
    ObeysE (conduct served) (fun _ t' => Settles t' x.executionId [.actionProposalSubmitted])
      (closeAuthorization x (authorizationRecord id now x)) t := by
  unfold closeAuthorization
  have howed : .actionProposalSubmitted ∈ (authorizationRecord id now x).kinds :=
    List.mem_cons_self
  refine (appendOwed_obeys htail List.not_mem_nil howed ⟨rfl, rfl, rfl, rfl⟩ rfl rfl rfl).andThen
    fun eventId t₁ _ hw => ?_
  refine (markLifecycleTransitionReconciled_obeys hw.1 howed hw.2).mono fun _ t₂ h => ?_
  obtain ⟨hsub, hmarked⟩ := h
  refine ⟨_, rfl, rfl, hw.1.owns.mono hsub, fun kind hkind => ⟨eventId, ?_⟩⟩
  obtain rfl := List.mem_singleton.mp hkind
  exact ⟨hw.2.mono hsub, hmarked⟩

theorem classifyAuthorizationCasFailure_obeys :
    Obeys (conduct served) (fun _ _ => True) (classifyAuthorizationCasFailure id) t := by
  unfold classifyAuthorizationCasFailure
  exact obeys_bind.mpr ⟨trivial, fun _ _ => obeys_bind.mpr ⟨trivial, fun _ _ =>
    obeys_pure.mpr trivial⟩⟩

theorem authorizeExecution_obeys {request : AuthorizeExecutionRequest} :
    ObeysE (conduct (.authorize actor request))
      (fun x t' => Settles t' x.executionId [.actionProposalSubmitted])
      (authorizeExecution state actor request) t := by
  unfold authorizeExecution
  refine checkAuthorize_obeys.andThen fun lease t₁ _ hlease => ?_
  obtain ⟨hid, hbound, hread⟩ := hlease
  refine walk_call trivial fun executionId _ => walk_call trivial fun startedAt _ => ?_
  refine walk_call trivial fun outboxId _ => walk_call trivial fun recordedAt _ => ?_
  refine walk_call trivial fun now _ => ?_
  refine walk_store (P := fun won t' => won = true → ∃ t₀, t' =
    ⟨.recordAuthorization lease (authorizedExecution ⟨executionId⟩ startedAt request lease)
      (authorizationRecord ⟨outboxId⟩ recordedAt
        (authorizedExecution ⟨executionId⟩ startedAt request lease)) now, .ok true⟩ :: t₀)
    ⟨?_, ?_⟩ fun won t₂ _ hwon => ?_
  · exact .mk rfl (hread.mono (by intro e he; simp [he])) hbound (by simp [Saw]) (by simp [Saw])
      Saw.now
  · rintro _ - won rfl rfl
    exact ⟨_, rfl⟩
  · split
    · rename_i htrue
      obtain ⟨t₀, rfl⟩ := hwon htrue
      refine ObeysE.andThen (obeysE_attempt.mpr (hid ▸ capMarkUsed_obeys Saw.now))
        fun _ t₃ _ hq => ?_
      exact walk_store (closeAuthorization_obeys ((Tail.start rfl).quietly hq))
        fun _ _ _ hs => obeysE_pure.mpr hs
    · exact ObeysE.andThen (obeysE_lift.mpr classifyAuthorizationCasFailure_obeys)
        fun _ _ _ _ => obeysE_throw

/-! ## Intents and proposals -/

theorem compileIntent_obeys {request : IntentCompileRequest} :
    ObeysE (conduct served) (fun _ _ => True) (compileIntent actor request) t := by
  unfold compileIntent
  refine walk_call trivial fun _ _ => walk_call trivial fun _ _ => ?_
  exact walk_store (P := fun _ _ => True) ⟨trivial, fun _ _ _ _ => trivial⟩
    fun _ _ _ _ => obeysE_pure.mpr trivial

theorem createQuarantineHold_obeys {proposal : ActionProposal} {reason : String} :
    ObeysE (conduct served) (fun _ _ => True) (createQuarantineHold state proposal reason) t := by
  unfold createQuarantineHold
  refine walk_draw trivial fun now _ => walk_draw trivial fun holdId _ => ?_
  refine walk_statement ⟨trivial, ?_⟩
  rintro _ - ⟨⟩ rfl
  refine walk_draw trivial fun eventId _ => ?_
  exact (appendGovernanceEvent_obeys (.holdCreated Saw.now.earlier) Saw.now).mono
    fun _ _ _ => trivial

theorem auditAnomaly_obeys {verdict : PolicyVerdict} :
    ObeysE (conduct served) (fun _ _ => True) (auditAnomaly state verdict) t := by
  unfold auditAnomaly
  split
  · exact appendAuditChecked_obeys.mono fun _ _ _ => trivial
  · exact obeysE_pure.mpr trivial

theorem evaluateProposal_obeys {proposal : ActionProposal} :
    ObeysE (conduct served) (fun _ _ => True) (evaluateProposal state proposal) [] := by
  unfold evaluateProposal
  refine walk_store (P := fun intent t' => t' = [⟨.getIntent proposal.intentId, .ok intent⟩])
    ⟨trivial, ?_⟩ fun intent t₁ _ ht₁ => ?_
  · rintro _ - intent rfl
    rfl
  subst ht₁
  refine walk_call (by simp [conduct, may]) fun reply _ => ?_
  cases reply with
  | none => exact obeysE_throw
  | some verdict =>
    refine walk_store (P := fun _ t' => Saw t' (.evaluatePolicy proposal) (some verdict) ∧
      Saw t' (.insertProposal { proposal with
        ownerActorId := intent.bind (·.ownerActorId) }) (.ok ())) ⟨?_, ?_⟩ fun _ t₂ _ hsaw => ?_
    · exact ⟨proposal, verdict, Saw.now, rfl⟩
    · rintro _ - ⟨⟩ rfl
      exact ⟨Saw.now.earlier, Saw.now⟩
    · refine auditAnomaly_obeys.andThen fun _ t₃ ht₃ _ => ?_
      refine walk_store (P := fun _ _ => True) ?_ fun _ _ _ _ => obeysE_pure.mpr trivial
      refine walk_draw trivial fun eventId _ => walk_draw trivial fun now _ => ?_
      have hevent : Announces (⟨.readClock, now⟩ :: ⟨.newUuid, eventId⟩ :: t₃)
          (proposalEvent ⟨eventId⟩ now .policyEvaluated proposal.intentId proposal.proposalId
            { decision := some verdict.decision.debug }) :=
        .policyEvaluated (hsaw.1.mono ht₃).earlier.earlier (hsaw.2.mono ht₃).earlier.earlier
      refine (appendGovernanceEvent_obeys hevent Saw.now.earlier).andThen fun _ _ _ _ => ?_
      split
      · exact createQuarantineHold_obeys
      · exact obeysE_pure.mpr trivial

/-! ## Approvals and quarantine holds -/

theorem checkMfa_obeys {actorId : String} :
    ObeysE (conduct served) (fun _ _ => True) (checkMfa state actorId) t := by
  unfold checkMfa
  split
  · exact walk_call trivial fun _ _ => obeysE_ofExcept.mpr fun _ _ => trivial
  · exact obeysE_pure.mpr trivial

theorem resolveApprovalInStore_obeys {id : ApprovalId} {granted : Bool} :
    ObeysE (conduct served)
      (fun won t' => won = true → ∃ written, written.approvalId = id ∧
        written.state = (if granted then .granted else .denied) ∧
        Saw t' (.resolveApproval written now) (.ok true))
      (resolveApprovalInStore id (if granted then .granted else .denied) now) t := by
  unfold resolveApprovalInStore
  refine walk_statement ⟨trivial, ?_⟩
  rintro _ hr found rfl
  cases found with
  | none => exact obeysE_pure.mpr (by simp)
  | some approval =>
    obtain rfl := gives_getApproval hr
    dsimp only
    by_cases hpending : approval.state ≠ .pending
    · rw [if_pos hpending]
      exact obeysE_pure.mpr (by simp)
    · rw [if_neg hpending]
      refine ⟨.resolveApproval Saw.now, ?_⟩
      rintro _ - won rfl rfl
      exact ⟨{ approval with
        state := if granted then .granted else .denied
        resolverEvidenceVersion := some 1 }, rfl, rfl, Saw.now⟩

theorem resolveApproval_obeys {id : ApprovalId} {request : ResolveRequest} :
    ObeysE (conduct served) (fun _ _ => True) (resolveApproval state actor id request) t := by
  unfold resolveApproval
  refine obeysE_bind.mpr (obeysE_ofExcept.mpr fun actorId _ => ?_)
  refine checkMfa_obeys.andThen fun _ t₁ _ _ => walk_require ⟨trivial, ?_⟩
  rintro _ hr approval rfl
  obtain rfl := gives_getApproval hr
  refine walk_demand fun _ => walk_call trivial fun now _ => walk_demand fun _ => ?_
  refine walk_store resolveApprovalInStore_obeys fun won t₂ ht₂ hwon => walk_demand fun htrue => ?_
  obtain ⟨written, hid, hstate, hsaw⟩ := hwon htrue
  refine appendAuditChecked_obeys.andThen fun _ t₃ ht₃ _ => walk_require ⟨trivial, ?_⟩
  rintro _ - updated rfl
  refine walk_call trivial fun eventId _ => walk_call trivial fun occurredAt _ => ?_
  refine walk_store (P := fun _ _ => True) ⟨?_, fun _ _ _ _ => trivial⟩
    fun _ _ _ _ => obeysE_pure.mpr trivial
  have hread := (Saw.now.earlier.mono ht₂).mono ht₃
  exact ⟨.approvalResolved hread.earlier.earlier.earlier
    (hsaw.mono ht₃).earlier.earlier.earlier hid hstate, Saw.now.earlier⟩

theorem resolveHoldInStore_obeys {id : QuarantineHoldId} {allow : Bool} :
    ObeysE (conduct served) (fun _ _ => True) (resolveHoldInStore id allow) t := by
  unfold resolveHoldInStore
  refine walk_statement ⟨trivial, ?_⟩
  rintro _ hr found rfl
  cases found with
  | none => exact obeysE_pure.mpr trivial
  | some hold =>
    obtain rfl := gives_getHold hr
    dsimp only
    split
    · exact obeysE_pure.mpr trivial
    · exact ⟨.resolveHold Saw.now, fun _ _ _ _ => trivial⟩

theorem resolveQuarantineHold_obeys {id : QuarantineHoldId} {request : ResolveRequest} :
    ObeysE (conduct served) (fun _ _ => True) (resolveQuarantineHold state actor id request) t := by
  unfold resolveQuarantineHold
  refine obeysE_bind.mpr (obeysE_ofExcept.mpr fun actorId _ => ?_)
  refine checkMfa_obeys.andThen fun _ _ _ _ => walk_require ⟨trivial, ?_⟩
  rintro _ - hold rfl
  refine walk_demand fun _ => walk_call trivial fun now _ => walk_demand fun _ => ?_
  refine walk_store resolveHoldInStore_obeys fun _ _ _ _ => walk_demand fun _ => ?_
  refine appendAuditChecked_obeys.andThen fun _ _ _ _ => walk_require ⟨trivial, ?_⟩
  rintro _ - updated rfl
  refine walk_store (P := fun _ _ => True) ?_ fun _ _ _ _ => obeysE_pure.mpr trivial
  refine walk_draw trivial fun eventId _ => walk_draw trivial fun now _ => ?_
  exact (appendGovernanceEvent_obeys (.holdDecided (.inl rfl)) Saw.now.earlier).mono
    fun _ _ _ => trivial

/-! ## Ingest and timeouts -/

theorem ingestProvenance_obeys {request : ProvenanceIngestRequest} :
    ObeysE (conduct served) (fun _ _ => True) (ingestProvenance request) t := by
  unfold ingestProvenance
  refine walk_demand fun _ => walk_demand fun hkind => ?_
  refine walk_call trivial fun eventId _ => walk_call trivial fun now _ => ?_
  exact walk_store (P := fun _ _ => True) ⟨⟨.ingested hkind, Saw.now.earlier⟩,
    fun _ _ _ _ => trivial⟩
    fun _ _ _ _ => obeysE_pure.mpr trivial

theorem expireApprovals_obeys {cutoff : Timestamp} {batch : Nat} {all rows : List ApprovalRequest}
    (hread : Saw t (.listStaleApprovals now cutoff batch) (.ok all)) (hrows : rows ⊆ all) :
    ObeysE (conduct served) (fun _ _ => True) (expireApprovals rows) t := by
  induction rows generalizing t with
  | nil => exact obeysE_pure.mpr trivial
  | cons approval rows ih =>
    unfold expireApprovals
    refine walk_statement ⟨.expireApproval hread (hrows (by simp)), ?_⟩
    rintro _ - expired rfl
    refine (ih hread.earlier fun a ha => hrows (by simp [ha])).andThen fun _ _ _ _ => ?_
    exact obeysE_pure.mpr trivial

theorem emitApprovalTimeouts_obeys {rows : List ApprovalRequest} :
    Obeys (conduct served) (fun _ _ => True) (emitApprovalTimeouts rows) t := by
  induction rows generalizing t with
  | nil => exact obeys_pure.mpr trivial
  | cons approval rows ih =>
    unfold emitApprovalTimeouts
    refine obeys_bind.mpr ⟨trivial, fun eventId _ => obeys_bind.mpr ⟨trivial, fun now _ => ?_⟩⟩
    exact obeys_bind.mpr ⟨⟨.approvalTimedOut, Saw.now.earlier⟩, fun _ _ => ih⟩

theorem reconcileApprovalTimeoutsOnce_obeys :
    Obeys (conduct served) (fun _ _ => True) (reconcileApprovalTimeoutsOnce state) t := by
  unfold reconcileApprovalTimeoutsOnce
  refine obeys_bind.mpr ⟨trivial, fun now _ => ?_⟩
  refine Obeys.andThen (Q := fun _ _ => True) ?_ fun expired _ _ _ => ?_
  · refine Obeys.mono (Q := fun r t' => ∀ a, r = .ok a → True) ?_ fun _ _ _ => trivial
    refine walk_statement ⟨trivial, ?_⟩
    rintro _ - stale rfl
    exact expireApprovals_obeys Saw.now (List.Subset.refl _)
  · rcases expired with e | expired
    · exact obeys_pure.mpr trivial
    · exact emitApprovalTimeouts_obeys.andThen fun _ _ _ _ => obeys_pure.mpr trivial

theorem expireHolds_obeys {cutoff : Timestamp} {batch : Nat} {all rows : List QuarantineHold}
    (hread : Saw t (.listStaleHolds now cutoff batch) (.ok all)) (hrows : rows ⊆ all) :
    ObeysE (conduct served) (fun _ _ => True) (expireHolds rows) t := by
  induction rows generalizing t with
  | nil => exact obeysE_pure.mpr trivial
  | cons hold rows ih =>
    unfold expireHolds
    refine walk_statement ⟨.expireHold hread (hrows (by simp)), ?_⟩
    rintro _ - expired rfl
    refine (ih hread.earlier fun a ha => hrows (by simp [ha])).andThen fun _ _ _ _ => ?_
    exact obeysE_pure.mpr trivial

theorem emitHoldTimeouts_obeys {rows : List QuarantineHold} :
    Obeys (conduct served) (fun _ _ => True) (emitHoldTimeouts rows) t := by
  induction rows generalizing t with
  | nil => exact obeys_pure.mpr trivial
  | cons hold rows ih =>
    unfold emitHoldTimeouts
    refine obeys_bind.mpr ⟨trivial, fun eventId _ => obeys_bind.mpr ⟨trivial, fun now _ => ?_⟩⟩
    exact Obeys.andThen (appendGovernanceEvent_obeys (.holdDecided (.inr rfl)) Saw.now.earlier)
      fun _ _ _ _ => ih

theorem reconcileQuarantineTimeoutsOnce_obeys :
    Obeys (conduct served) (fun _ _ => True) (reconcileQuarantineTimeoutsOnce state) t := by
  unfold reconcileQuarantineTimeoutsOnce
  refine obeys_bind.mpr ⟨trivial, fun now _ => ?_⟩
  refine Obeys.andThen (Q := fun _ _ => True) ?_ fun expired _ _ _ => ?_
  · refine Obeys.mono (Q := fun r t' => ∀ a, r = .ok a → True) ?_ fun _ _ _ => trivial
    refine walk_statement ⟨trivial, ?_⟩
    rintro _ - stale rfl
    exact expireHolds_obeys Saw.now (List.Subset.refl _)
  · rcases expired with e | expired
    · exact obeys_pure.mpr trivial
    · exact emitHoldTimeouts_obeys.andThen fun _ _ _ _ => obeys_pure.mpr trivial

end FerrumGate
