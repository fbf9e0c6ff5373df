import FerrumGate.Gateway.Obeys.Governance

/-!
# The outbox reconciler obeys, and with it the whole gateway

`reconcile_record` runs under a timeout, so it is checked against the part of the conduct that
the replies of a deadline cannot forbid (`steady`). `run_conforms` collects all the handlers: every
run of the gateway is a behaviour of the conduct.
-/

namespace FerrumGate

open Interleave Interleave.Rows

variable {served : Request} {t : Knowledge} {state : AppState}

/-- The part of the conduct that the replies of a deadline cannot forbid. -/
abbrev steady (served : Request) : Conduct Op Op.Result := (conduct served).only Steady

/-! ## The reconciler's writes -/

variable {eventId : EventId} {lease : LifecycleOutboxLease}

section Claimed

variable {claim : LifecycleOutboxClaim}

theorem writeClaimed_obeys {old new : LifecycleOutboxRecord} {clear : Bool}
    (hclaim : HoldsClaim t claim)
    (hread : Saw t (.getOutbox claim.lease.outboxId) (.ok (some old)))
    (hid : old.outboxId = claim.lease.outboxId) (hedit : ClaimedEdit t claim.record old new clear) :
    ObeysE (steady served) (fun _ _ => True) (writeClaimed new claim.lease clear) t := by
  unfold writeClaimed
  refine walk_draw ⟨trivial, trivial⟩ fun now _ => ?_
  have hsub := List.subset_cons_self (⟨.readClock, now⟩ : Reply Op Op.Result) t
  exact ⟨⟨trivial, .claimedEdit (hclaim.mono hsub) hread.earlier hid (hedit.mono hsub) Saw.now⟩,
    fun _ _ _ _ => trivial⟩

theorem markProvenanceObligationWrittenClaimed_obeys {kind : ProvenanceEventKind}
    (hclaim : HoldsClaim t claim)
    (howed : kind ∈ (obligationsForRecord claim.record).map (·.eventKind))
    (hadopted : Adopted t claim.record kind eventId) :
    ObeysE (steady served) (fun _ _ => True)
      (markProvenanceObligationWrittenClaimed claim.lease kind eventId) t := by
  unfold markProvenanceObligationWrittenClaimed
  refine walk_statement ⟨⟨trivial, trivial⟩, ?_⟩
  rintro _ hr found rfl
  cases found with
  | none => exact obeysE_pure.mpr trivial
  | some record =>
    refine walk_draw ⟨trivial, trivial⟩ fun now _ => ?_
    have hsub : t ⊆ ⟨.readClock, now⟩ ::
        ⟨.getOutbox claim.lease.outboxId, .ok (some record)⟩ :: t := by simp
    exact writeClaimed_obeys (hclaim.mono hsub) Saw.now.earlier
      (gives_getOutbox hr) (.mark howed (hadopted.mono hsub))

theorem markReconciledClaimed_obeys (hclaim : HoldsClaim t claim) :
    ObeysE (steady served) (fun _ _ => True) (markReconciledClaimed claim.lease) t := by
  unfold markReconciledClaimed
  refine walk_draw ⟨trivial, trivial⟩ fun checkedAt _ => ?_
  refine walk_statement ⟨⟨trivial, trivial⟩, ?_⟩
  rintro _ - current rfl
  split
  · refine walk_statement ⟨⟨trivial, trivial⟩, ?_⟩
    rintro _ hr found rfl
    cases found with
    | none => exact obeysE_pure.mpr trivial
    | some record =>
      refine walk_draw ⟨trivial, trivial⟩ fun now _ => walk_ensure fun hsatisfied => ?_
      exact writeClaimed_obeys (hclaim.mono (by intro e he; simp [he])) Saw.now.earlier
        (gives_getOutbox hr) (.close hsatisfied)
  · exact obeysE_pure.mpr trivial

theorem markNeedsOperatorReviewClaimed_obeys {reason : String} (hclaim : HoldsClaim t claim) :
    ObeysE (steady served) (fun _ _ => True) (markNeedsOperatorReviewClaimed claim.lease reason)
      t := by
  unfold markNeedsOperatorReviewClaimed
  refine walk_statement ⟨⟨trivial, trivial⟩, ?_⟩
  rintro _ hr found rfl
  cases found with
  | none => exact obeysE_pure.mpr trivial
  | some record =>
    refine walk_draw ⟨trivial, trivial⟩ fun now _ => ?_
    exact writeClaimed_obeys (hclaim.mono (by simp)) Saw.now.earlier
      (gives_getOutbox hr) (.giveUp (.inl rfl))

theorem recordReconciliationFailure_obeys {error : String} {maxAttempts : Nat}
    (hclaim : HoldsClaim t claim) :
    ObeysE (steady served) (fun _ _ => True)
      (recordReconciliationFailure claim.lease error maxAttempts) t := by
  unfold recordReconciliationFailure
  refine walk_statement ⟨⟨trivial, trivial⟩, ?_⟩
  rintro _ hr found rfl
  cases found with
  | none => exact obeysE_pure.mpr trivial
  | some record =>
    refine walk_draw ⟨trivial, trivial⟩ fun now _ => ?_
    refine (writeClaimed_obeys (hclaim.mono (by simp)) Saw.now.earlier
      (gives_getOutbox hr) (.giveUp ?_)).andThen fun _ _ _ _ => ?_
    · split
      · exact .inl rfl
      · exact .inr rfl
    · split <;> exact obeysE_pure.mpr trivial

theorem requireFence_obeys {updated : Bool} :
    ObeysE (steady served) (fun _ _ => True) (requireFence updated) t :=
  obeysE_ofExcept.mpr fun _ _ => trivial

theorem sendToReview_obeys {reason : String} (hclaim : HoldsClaim t claim) :
    ObeysE (steady served) (fun _ _ => True) (sendToReview claim.lease reason) t := by
  unfold sendToReview
  refine (markNeedsOperatorReviewClaimed_obeys hclaim).andThen fun _ _ _ _ => ?_
  exact requireFence_obeys.andThen fun _ _ _ _ => obeysE_pure.mpr trivial

theorem renewReconciliationLease_obeys :
    ObeysE (steady served) (fun _ t' => Quietly t t')
      (renewReconciliationLease lease reconciliationLeaseTtl) t := by
  unfold renewReconciliationLease
  refine walk_draw ⟨trivial, trivial⟩ fun expiryBase _ => ?_
  refine walk_draw ⟨trivial, trivial⟩ fun now _ => ?_
  refine ⟨⟨trivial, .renew Saw.now.earlier Saw.now⟩, fun _ _ _ _ => ?_⟩
  exact (((Quietly.refl t).cons rfl).cons rfl).cons rfl

theorem renewOrFence_obeys :
    ObeysE (steady served) (fun _ t' => Quietly t t') (renewOrFence lease reconciliationLeaseTtl)
      t := by
  unfold renewOrFence
  exact renewReconciliationLease_obeys.andThen fun _ _ _ hq => obeysE_ofExcept.mpr fun _ _ => hq

end Claimed

/-! ## One record -/

variable {claim : LifecycleOutboxClaim} {obligation : ProvenanceObligation}

theorem discoverMatchingEvent_obeys (hclaim : HoldsClaim t claim)
    (howed : obligation ∈ obligationsForRecord claim.record) :
    ObeysE (steady served)
      (fun found t' => match found with
        | some event => Adopted t' claim.record obligation.eventKind event.eventId
        | none => Searched t' claim obligation.eventKind)
      (discoverMatchingEvent claim.record obligation) t := by
  unfold discoverMatchingEvent
  refine walk_statement ⟨⟨trivial, .kindOwed hclaim howed rfl⟩, ?_⟩
  rintro _ - events rfl
  split
  · rename_i event hfilter
    have hmem : event ∈ events.filter (eventOfRecord claim.record) := by simp [hfilter]
    exact obeysE_pure.mpr
      (.discovered Saw.now (List.mem_filter.mp hmem).1 rfl (List.mem_filter.mp hmem).2)
  · rename_i hfilter
    refine obeysE_pure.mpr ⟨[], events, t, rfl, hclaim, fun hlength => ?_, by simp⟩
    obtain ⟨event, hevent⟩ := List.length_eq_one_iff.mp hlength
    exact hfilter event hevent

variable {x : ExecutionRecord}

theorem parentCandidates_obeys {parentKind : ProvenanceEventKind} (hclaim : HoldsClaim t claim)
    (howed : obligation ∈ obligationsForRecord claim.record)
    (hspec : obligation.parentKind = some parentKind) :
    ObeysE (steady served)
      (fun candidates t' => Quietly t t' ∧
        ∀ parent, candidates = [parent] → OnlyParent t' claim.record x parentKind parent)
      (parentCandidates claim.record x parentKind) t := by
  unfold parentCandidates
  refine walk_statement ⟨⟨trivial, .parentOwed hclaim howed hspec rfl⟩, ?_⟩
  rintro _ - candidates rfl
  split
  · rename_i hminted
    have hkind : parentKind = .capabilityMinted := by
      simp only [Bool.and_eq_true, decide_eq_true_eq] at hminted
      exact hminted.2
    refine ⟨⟨trivial, .parentOwed (hclaim.mono (List.subset_cons_self _ _)) howed hspec rfl⟩, ?_⟩
    rintro _ - found rfl
    refine ⟨((Quietly.refl t).cons rfl).cons rfl, ?_⟩
    rintro parent rfl
    exact .inr ⟨hkind, Saw.now⟩
  · refine obeysE_pure.mpr ⟨(Quietly.refl t).cons rfl, ?_⟩
    rintro parent rfl
    exact .inl Saw.now

theorem requiredParentEdge_obeys (hclaim : HoldsClaim t claim)
    (howed : obligation ∈ obligationsForRecord claim.record) :
    ObeysE (steady served)
      (fun found t' => Quietly t t' ∧ ∀ edge ∈ found, ∃ parentKind parent,
        obligation.parentKind = some parentKind ∧ OnlyParent t' claim.record x parentKind parent ∧
          edge = { edgeType := obligation.edgeType.getD .caused
                   fromEventId := parent.eventId
                   toEventId := eventId })
      (requiredParentEdge claim.record x obligation eventId) t := by
  unfold requiredParentEdge
  cases hkind : obligation.parentKind with
  | none => exact obeysE_pure.mpr ⟨.refl t, by simp⟩
  | some parentKind =>
    refine (parentCandidates_obeys hclaim howed hkind).andThen fun candidates t₁ _ h => ?_
    obtain ⟨hq, honly⟩ := h
    split
    · rename_i parent
      refine obeysE_pure.mpr ⟨hq, fun edge hedge => ⟨parentKind, parent, rfl, honly parent rfl, ?_⟩⟩
      exact (Option.some.inj hedge).symm
    · exact obeysE_pure.mpr ⟨hq, by simp⟩

/-- The record and the execution a reconciler is working on. -/
structure Repairs (t : Knowledge) (claim : LifecycleOutboxClaim) (x : ExecutionRecord) : Prop where
  claimed : HoldsClaim t claim
  read : Saw t (.getExecution claim.record.executionId) (.ok (some x))
  bound : x.executionId = claim.record.executionId

theorem Repairs.mono {t' : Knowledge} (h : t ⊆ t') (hr : Repairs t claim x) : Repairs t' claim x :=
  ⟨hr.claimed.mono h, hr.read.mono h, hr.bound⟩

theorem ensureRequiredParentEdge_obeys (hrep : Repairs t claim x)
    (howed : obligation ∈ obligationsForRecord claim.record)
    (hchild : obligation.eventId = some eventId ∨
      Adopted t claim.record obligation.eventKind eventId) :
    ObeysE (steady served) (fun _ _ => True)
      (ensureRequiredParentEdge claim x obligation eventId reconciliationLeaseTtl) t := by
  unfold ensureRequiredParentEdge
  refine walk_statement ⟨⟨trivial, trivial⟩, ?_⟩
  rintro _ - existing rfl
  cases obligation.edgeType with
  | none => exact obeysE_pure.mpr trivial
  | some expected =>
    dsimp only
    split
    · exact obeysE_pure.mpr trivial
    · refine (requiredParentEdge_obeys (hrep.claimed.mono (List.subset_cons_self _ _)) howed).andThen
        fun found t₂ ht₂ hedge => ?_
      cases found with
      | none => exact obeysE_pure.mpr trivial
      | some edge =>
        obtain ⟨parentKind, parent, hspec, honly, rfl⟩ := hedge.2 edge rfl
        refine renewOrFence_obeys.andThen fun _ t₃ ht₃ _ => walk_statement ⟨⟨trivial, ?_⟩, ?_⟩
        · have hsub : t ⊆ t₃ := List.Subset.trans (by simp) (List.Subset.trans ht₂ ht₃)
          exact .mk (hrep.claimed.mono hsub) (hrep.read.mono hsub) howed
            (hchild.imp_right fun h => h.mono hsub) hspec (honly.mono ht₃)
        · exact fun _ _ _ _ => obeysE_pure.mpr trivial

theorem presentEvent_obeys (hclaim : HoldsClaim t claim)
    (howed : obligation ∈ obligationsForRecord claim.record) :
    ObeysE (steady served)
      (fun found t' => match found with
        | some eventId => obligation.eventId = some eventId
        | none => ∀ id ∈ obligation.eventId, Saw t' (.getEvent id) (.ok none))
      (presentEvent obligation) t := by
  unfold presentEvent
  cases hid : obligation.eventId with
  | none => exact obeysE_pure.mpr (by simp)
  | some eventId =>
    refine walk_statement ⟨⟨trivial, claim, obligation, hclaim, howed, hid⟩, ?_⟩
    rintro _ - found rfl
    cases found with
    | none =>
      refine obeysE_pure.mpr fun id hid => ?_
      obtain rfl := Option.some.inj hid
      exact Saw.now
    | some event => exact obeysE_pure.mpr rfl

variable {contract : Option RollbackContract}

/-- The event a reconciler appends carries the id and the key of the leased record. -/
theorem repairedEvent_adopted {kind : ProvenanceEventKind} {now : Timestamp}
    {edges : List ProvenanceEdge} (hrep : Repairs t claim x)
    (hcontract : contract.map (·.contractId) = claim.record.rollbackContractId)
    (hstored : Saw t (.appendEventWithEdges
      (repairedEvent eventId now claim.record x contract kind) edges) (.ok ())) :
    Adopted t claim.record kind eventId := by
  refine .repaired hstored rfl rfl (congrArg some hrep.bound) ?_
  simp [eventOfRecord, repairedEvent, hcontract]

theorem reconcileObligation_obeys (hrep : Repairs t claim x)
    (hcontract : contract.map (·.contractId) = claim.record.rollbackContractId)
    (howed : obligation ∈ obligationsForRecord claim.record) :
    ObeysE (steady served) (fun _ _ => True)
      (reconcileObligation claim x contract reconciliationLeaseTtl obligation) t := by
  have hkind : obligation.eventKind ∈ (obligationsForRecord claim.record).map (·.eventKind) :=
    List.mem_map_of_mem howed
  unfold reconcileObligation
  refine (presentEvent_obeys hrep.claimed howed).andThen fun present t₁ ht₁ hpresent => ?_
  have hrep₁ := hrep.mono ht₁
  cases present with
  | some eventId =>
    refine (ensureRequiredParentEdge_obeys hrep₁ howed (.inl hpresent)).andThen fun _ _ _ _ => ?_
    split <;> exact obeysE_pure.mpr trivial
  | none =>
    refine (discoverMatchingEvent_obeys hrep₁.claimed howed).andThen fun found t₂ ht₂ hfound => ?_
    have hrep₂ := hrep₁.mono ht₂
    cases found with
    | some event =>
      have hadopted : Adopted t₂ claim.record obligation.eventKind event.eventId := hfound
      refine (ensureRequiredParentEdge_obeys hrep₂ howed (.inr hadopted)).andThen
        fun _ t₃ ht₃ _ => ?_
      split
      · refine (markProvenanceObligationWrittenClaimed_obeys (hrep₂.mono ht₃).claimed hkind
          (hadopted.mono ht₃)).andThen fun _ _ _ _ => ?_
        exact requireFence_obeys.andThen fun _ _ _ _ => obeysE_pure.mpr trivial
      · exact obeysE_pure.mpr trivial
    | none =>
      refine walk_draw ⟨trivial, trivial⟩ fun eventId _ => ?_
      refine walk_draw ⟨trivial, trivial⟩ fun now _ => ?_
      refine (requiredParentEdge_obeys (hrep₂.claimed.mono (by simp)) howed).andThen
        fun edge t₃ ht₃ hedge => ?_
      obtain ⟨hq₃, hedge⟩ := hedge
      cases edge with
      | none => exact obeysE_pure.mpr trivial
      | some edge =>
        obtain ⟨parentKind, parent, hspec, honly, rfl⟩ := hedge edge rfl
        refine renewOrFence_obeys.andThen fun _ t₄ ht₄ hq₄ => ?_
        have hq : Quietly t₂ t₄ :=
          ((((Quietly.refl t₂).cons rfl).cons rfl).trans hq₃).trans hq₄
        have hsearched : Searched t₂ claim obligation.eventKind := hfound
        have hdrawn : Drawn t₄ ⟨eventId⟩ := (Saw.now.earlier.mono ht₃).mono ht₄
        have hrep₄ := hrep₂.mono hq.subset
        have hmissing := fun id hid => ((hpresent id hid).mono ht₂).mono hq.subset
        have hrepair : Repair t₄ (repairedEvent ⟨eventId⟩ now claim.record x contract
            obligation.eventKind) [{
              edgeType := obligation.edgeType.getD .caused
              fromEventId := parent.eventId
              toEventId := ⟨eventId⟩ }] :=
          .mk hrep₄.claimed hrep₄.read hcontract howed hmissing (hsearched.quietly hq) hspec
            (honly.mono ht₄)
        refine walk_statement ⟨⟨hrepair, .inr hrepair, hdrawn⟩, ?_⟩
        rintro _ - ⟨⟩ rfl
        have hrep₅ := hrep₄.mono (List.subset_cons_self (⟨.appendEventWithEdges (repairedEvent
          ⟨eventId⟩ now claim.record x contract obligation.eventKind) [{
              edgeType := obligation.edgeType.getD .caused
              fromEventId := parent.eventId
              toEventId := ⟨eventId⟩ }], .ok ()⟩ : Reply Op Op.Result) t₄)
        refine (markProvenanceObligationWrittenClaimed_obeys hrep₅.claimed hkind
          (repairedEvent_adopted hrep₅ hcontract Saw.now)).andThen fun _ _ _ _ => ?_
        exact requireFence_obeys.andThen fun _ _ _ _ => obeysE_pure.mpr trivial

theorem reconcileObligations_obeys {obligations : List ProvenanceObligation} {repaired : Bool}
    (hrep : Repairs t claim x)
    (hcontract : contract.map (·.contractId) = claim.record.rollbackContractId)
    (howed : obligations ⊆ obligationsForRecord claim.record) :
    ObeysE (steady served) (fun _ _ => True)
      (reconcileObligations claim x contract reconciliationLeaseTtl obligations repaired) t := by
  induction obligations generalizing t repaired with
  | nil =>
    unfold reconcileObligations
    refine (markReconciledClaimed_obeys hrep.claimed).andThen fun _ _ _ _ => ?_
    exact requireFence_obeys.andThen fun _ _ _ _ => obeysE_pure.mpr trivial
  | cons obligation obligations ih =>
    unfold reconcileObligations
    refine (reconcileObligation_obeys hrep hcontract (howed (by simp))).andThen
      fun outcome t₁ ht₁ _ => ?_
    have hrest : obligations ⊆ obligationsForRecord claim.record := fun _ ho => howed (by simp [ho])
    have hrep₁ := hrep.mono ht₁
    cases outcome with
    | ambiguous => exact sendToReview_obeys hrep₁.claimed
    | repaired => exact ih hrep₁ hrest
    | present => exact ih hrep₁ hrest
    | discovered => exact ih hrep₁ hrest

theorem reconcileRecord_obeys (hclaim : HoldsClaim t claim) :
    ObeysE (steady served) (fun _ _ => True) (reconcileRecord claim reconciliationLeaseTtl) t := by
  unfold reconcileRecord
  dsimp only
  split
  · exact obeysE_pure.mpr trivial
  · refine walk_statement ⟨⟨trivial, trivial⟩, ?_⟩
    rintro _ hr found rfl
    cases found with
    | none => exact sendToReview_obeys (hclaim.mono (List.subset_cons_self _ _))
    | some x =>
      have hrep : Repairs (⟨.getExecution claim.record.executionId, .ok (some x)⟩ :: t) claim x :=
        ⟨hclaim.mono (List.subset_cons_self _ _), Saw.now, gives_getExecution hr⟩
      dsimp only
      split
      · exact sendToReview_obeys hrep.claimed
      · cases hid : claim.record.rollbackContractId with
        | none => exact reconcileObligations_obeys hrep hid.symm (List.Subset.refl _)
        | some contractId =>
          refine walk_statement ⟨⟨trivial, trivial⟩, ?_⟩
          rintro _ hr found rfl
          cases found with
          | none => exact sendToReview_obeys (hrep.claimed.mono (List.subset_cons_self _ _))
          | some contract =>
            dsimp only
            split
            · exact sendToReview_obeys (hrep.claimed.mono (List.subset_cons_self _ _))
            · have hcontract : contract.contractId = contractId :=
                gives_getContract hr
              refine reconcileObligations_obeys (hrep.mono (List.subset_cons_self _ _)) ?_
                (List.Subset.refl _)
              rw [hid, ← hcontract]
              rfl

/-! ## A run -/

variable {report : LifecycleReconciliationReport}

theorem recordFailure_obeys {error : String} (hclaim : HoldsClaim t claim) :
    Obeys (conduct served) (fun _ _ => True) (recordFailure claim.lease error report) t := by
  unfold recordFailure
  refine Obeys.andThen (Obeys.of_only (recordReconciliationFailure_obeys hclaim))
    fun r _ _ _ => ?_
  rcases r with e | disposition
  · exact obeys_pure.mpr trivial
  · cases disposition <;> exact obeys_pure.mpr trivial

theorem reconcileClaim_obeys (hclaim : HoldsClaim t claim) :
    Obeys (conduct served) (fun _ _ => True) (reconcileClaim claim reconciliationLeaseTtl report) t := by
  unfold reconcileClaim
  refine Obeys.andThen (Obeys.underDeadline (fun _ => trivial) may_padded
    (reconcileRecord_obeys hclaim) (.refl t)) fun r t₁ ht₁ _ => ?_
  rcases r with _ | e | outcome
  · exact recordFailure_obeys (hclaim.mono ht₁)
  · exact recordFailure_obeys (hclaim.mono ht₁)
  · cases outcome <;> exact obeys_pure.mpr trivial

theorem reconcileClaims_obeys {claims : List LifecycleOutboxClaim}
    (hclaims : ∀ claim ∈ claims, HoldsClaim t claim) :
    Obeys (conduct served) (fun _ _ => True) (reconcileClaims reconciliationLeaseTtl claims report) t := by
  induction claims generalizing t report with
  | nil => exact obeys_pure.mpr trivial
  | cons claim claims ih =>
    unfold reconcileClaims
    refine (reconcileClaim_obeys (hclaims claim (by simp))).andThen fun _ t' ht _ => ?_
    exact ih fun c hc => (hclaims c (by simp [hc])).mono ht

theorem freshClaims_subset (seen : List LifecycleOutboxId) (claims : List LifecycleOutboxClaim) :
    (freshClaims seen claims).1 ⊆ claims := by
  induction claims generalizing seen with
  | nil => exact List.Subset.refl _
  | cons claim claims ih =>
    unfold freshClaims
    split
    · exact fun c hc => List.mem_cons_of_mem _ (ih _ hc)
    · exact List.cons_subset_cons _ (ih _)

theorem reconcileBatches_obeys {uuid turns remaining : Nat} {seen : List LifecycleOutboxId}
    (howner : Saw t .newUuid uuid) :
    ObeysE (conduct served) (fun _ _ => True)
      (reconcileBatches s!"lifecycle-reconciler:{uuid}" reconciliationLeaseTtl turns remaining seen
        report) t := by
  induction turns generalizing t remaining seen report with
  | zero => exact obeysE_pure.mpr trivial
  | succ turns ih =>
    unfold reconcileBatches
    split
    · exact obeysE_pure.mpr trivial
    · refine ObeysE.andThen (Q := fun claims t' => ∀ claim ∈ claims, HoldsClaim t' claim) ?_
        fun claims t₁ ht₁ hclaims => ?_
      · refine walk_draw trivial fun now _ => ⟨.claim howner.earlier Saw.now, ?_⟩
        rintro _ - claims rfl
        exact fun claim hclaim => ⟨_, _, _, _, claims, Saw.now, hclaim⟩
      · dsimp only
        split
        · exact obeysE_pure.mpr trivial
        · refine ObeysE.andThen (obeysE_lift.mpr (reconcileClaims_obeys fun claim hclaim =>
            hclaims claim (freshClaims_subset seen claims hclaim))) fun _ t₂ ht₂ _ => ?_
          split
          · exact obeysE_pure.mpr trivial
          · exact ih ((howner.mono ht₁).mono ht₂)

theorem reconcileLifecycleOutbox_obeys {limit : Nat} :
    ObeysE (conduct served) (fun _ _ => True) (reconcileLifecycleOutbox limit) t := by
  unfold reconcileLifecycleOutbox
  exact walk_draw trivial fun uuid _ => reconcileBatches_obeys Saw.now

theorem renewalTask_obeys {ticks : Nat} :
    Obeys (conduct served) (fun _ _ => True) (renewalTask lease reconciliationLeaseTtl ticks) t := by
  induction ticks generalizing t with
  | zero => exact obeys_pure.mpr trivial
  | succ ticks ih =>
    unfold renewalTask
    refine Obeys.andThen (Obeys.of_only renewReconciliationLease_obeys) fun r _ _ _ => ?_
    rcases r with e | ⟨_ | _⟩
    · exact ih
    · exact obeys_pure.mpr trivial
    · exact ih

/-! ## The operator's handlers -/

variable {id : LifecycleOutboxId}

theorem resetForRetry_obeys :
    ObeysE (conduct (.retryOutbox id)) (fun _ _ => True) (resetForRetry id) t := by
  unfold resetForRetry
  refine walk_statement ⟨trivial, ?_⟩
  rintro _ hr found rfl
  cases found with
  | none => exact obeysE_pure.mpr trivial
  | some record =>
    obtain rfl := gives_getOutbox hr
    refine walk_draw trivial fun now _ => walk_statement ⟨.edit Saw.now.earlier (.reset rfl), ?_⟩
    rintro _ - updated rfl
    exact walk_ensure fun _ => obeysE_pure.mpr trivial

theorem markOperatorResolved_obeys {reasonBlank : Bool} :
    ObeysE (conduct (.resolveOutbox id reasonBlank)) (fun _ _ => True) (markOperatorResolved id)
      t := by
  unfold markOperatorResolved
  refine walk_statement ⟨trivial, ?_⟩
  rintro _ hr found rfl
  cases found with
  | none => exact obeysE_pure.mpr trivial
  | some record =>
    obtain rfl := gives_getOutbox hr
    refine walk_draw trivial fun now _ => walk_statement ⟨.edit Saw.now.earlier (.resolve rfl), ?_⟩
    rintro _ - updated rfl
    exact walk_ensure fun _ => obeysE_pure.mpr trivial

theorem retryLifecycleOutbox_obeys :
    ObeysE (conduct (.retryOutbox id)) (fun _ _ => True) (retryLifecycleOutbox state id) t := by
  unfold retryLifecycleOutbox
  refine ObeysE.andThen (obeysE_adapt.mpr resetForRetry_obeys) fun found _ _ _ => ?_
  cases found with
  | none => exact obeysE_throw
  | some record =>
    refine ObeysE.andThen (obeysE_attempt.mpr reconcileLifecycleOutbox_obeys) fun _ _ _ _ => ?_
    refine walk_call trivial fun _ _ => appendAuditChecked_obeys.andThen fun _ _ _ _ => ?_
    exact obeysE_pure.mpr trivial

theorem resolveLifecycleOutbox_obeys {reasonBlank : Bool} :
    ObeysE (conduct (.resolveOutbox id reasonBlank)) (fun _ _ => True)
      (resolveLifecycleOutbox state id reasonBlank) t := by
  unfold resolveLifecycleOutbox
  refine walk_demand fun _ => ?_
  refine ObeysE.andThen (obeysE_adapt.mpr markOperatorResolved_obeys) fun found _ _ _ => ?_
  cases found with
  | none => exact obeysE_throw
  | some record => exact appendAuditChecked_obeys.andThen fun _ _ _ _ => obeysE_pure.mpr trivial

/-! ## The gateway -/

/-- What the answer of a process says about what it has done: a lifecycle handler that answers
with success has stored its outbox record and appended every event the record owes. -/
def Answers : Request → Response → Knowledge → Prop
  | .authorize _ _, .authorized (.ok x), t => Settles t x.executionId [.actionProposalSubmitted]
  | .prepare _ id, .prepared (.ok _), t => Settles t id [.sideEffectPrepared, .toolCallPrepared]
  | .execute _ id _, .executed (.ok _), t => ∃ kinds, Settles t id kinds
  | .verify _ id, .verified (.ok _), t => ∃ kinds, Settles t id kinds
  | .commit _ id, .committed (.ok _), t => Settles t id [.sideEffectCommitted]
  | .compensate _ id, .compensated (.ok _), t => ∃ kinds, Settles t id kinds
  | .cancel _ id, .canceled (.ok _), t => Settles t id [.sideEffectRolledBack]
  | _, _, _ => True

/-- A handler's outcome is handed to the client, whatever it is. -/
theorem reply_obeys {α : Type} {Q : α → Knowledge → Prop} {R : Response → Knowledge → Prop}
    {x : Handler α} {f : Except ApiProblem α → Response} (hx : ObeysE (conduct served) Q x t)
    (hok : ∀ a t', Q a t' → R (f (.ok a)) t') (herror : ∀ e t', R (f (.error e)) t') :
    Obeys (conduct served) R (do return f (← x.run)) t := by
  refine Obeys.andThen hx fun r t' _ hr => obeys_pure.mpr ?_
  cases r with
  | error e => exact herror e t'
  | ok a => exact hok a t' (hr a rfl)

/-- **Every process obeys the conduct of its request.** -/
theorem serve_obeys (state : AppState) (request : Request) :
    Obeys (conduct request) (Answers request) (serve state request) [] := by
  have hnone : ∀ {α : Type} (_ : α) (_ : Knowledge), True := fun _ _ => trivial
  cases request with
  | compileIntent actor request =>
    exact reply_obeys compileIntent_obeys (fun _ _ _ => trivial) hnone
  | evaluateProposal proposal =>
    exact reply_obeys evaluateProposal_obeys (fun _ _ _ => trivial) hnone
  | requestApproval approval =>
    exact obeys_bind.mpr ⟨trivial, fun _ _ => obeys_pure.mpr trivial⟩
  | resolveApproval actor id request =>
    exact reply_obeys resolveApproval_obeys (fun _ _ _ => trivial) hnone
  | resolveHold actor id request =>
    exact reply_obeys resolveQuarantineHold_obeys (fun _ _ _ => trivial) hnone
  | mintCapability actor request =>
    exact reply_obeys mintCapability_obeys (fun _ _ _ => trivial) hnone
  | revokeCapability actor id =>
    exact reply_obeys revokeCapability_obeys (fun _ _ _ => trivial) hnone
  | authorize actor request =>
    exact reply_obeys authorizeExecution_obeys (fun _ _ hs => hs) hnone
  | prepare actor id => exact reply_obeys prepareExecution_obeys (fun _ _ hs => hs) hnone
  | execute actor id payload => exact reply_obeys executeExecution_obeys (fun _ _ hs => hs) hnone
  | verify actor id => exact reply_obeys verifyExecution_obeys (fun _ _ hs => hs) hnone
  | commit actor id => exact reply_obeys commitExecution_obeys (fun _ _ hs => hs) hnone
  | compensate actor id =>
    exact reply_obeys compensateExecution_obeys (fun _ _ hs => hs) hnone
  | cancel actor id => exact reply_obeys cancelExecution_obeys (fun _ _ hs => hs) hnone
  | ingestProvenance request =>
    exact reply_obeys ingestProvenance_obeys (fun _ _ _ => trivial) hnone
  | haReconcilerPass =>
    exact runHaReconcilerPass_obeys.andThen fun _ _ _ _ => obeys_pure.mpr trivial
  | approvalTimeouts =>
    exact reconcileApprovalTimeoutsOnce_obeys.andThen fun _ _ _ _ => obeys_pure.mpr trivial
  | quarantineTimeouts =>
    exact reconcileQuarantineTimeoutsOnce_obeys.andThen fun _ _ _ _ => obeys_pure.mpr trivial
  | reconcileOutbox limit =>
    exact Obeys.andThen reconcileLifecycleOutbox_obeys fun _ _ _ _ => obeys_pure.mpr trivial
  | renewLease lease ticks =>
    exact renewalTask_obeys.andThen fun _ _ _ _ => obeys_pure.mpr trivial
  | retryOutbox id => exact reply_obeys retryLifecycleOutbox_obeys (fun _ _ _ => trivial) hnone
  | resolveOutbox id reasonBlank =>
    exact reply_obeys resolveLifecycleOutbox_obeys (fun _ _ _ => trivial) hnone

/-- What the gateway can do: operations one after another, each allowed to a process by its request
and by what it has seen. -/
abbrev Conforms (requests : Nat → Request) (w₀ : World) (log : GatewayLog) (w : World) : Prop :=
  Behaviour Op.exec (fun p => may (requests p)) w₀ log w

/-- The whole pool after a schedule: it conforms, and what is left of each process still obeys. -/
theorem run_obeys (state : AppState) (requests : Nat → Request) (w₀ : World) (s : Schedule) :
    Conforms requests w₀ (run state requests w₀ s).log (run state requests w₀ s).world ∧
      ∀ p, Obeys (conduct (requests p)) (Answers (requests p)) ((run state requests w₀ s).procs p)
        (own p (run state requests w₀ s).log) :=
  Config.run_behaviour (C := fun p => conduct (requests p)) (fun _ _ i w => ⟨i, w, rfl⟩)
    (c := Gateway.start state requests w₀) .start (fun p => serve_obeys state (requests p)) s

/-- **Every run of the gateway is a behaviour of the conduct.** -/
theorem run_conforms (state : AppState) (requests : Nat → Request) (w₀ : World) (s : Schedule) :
    Conforms requests w₀ (run state requests w₀ s).log (run state requests w₀ s).world :=
  (run_obeys state requests w₀ s).1

variable {state : AppState} {requests : Nat → Request} {w₀ : World}

/-- The last step of a run, when it performed something: an allowed operation. -/
theorem run_last {s : Schedule} {p : Nat} {i : Input} {y : Nat × Reply Op Op.Result}
    (h : (run state requests w₀ (s ++ [(p, i)])).log = y :: (run state requests w₀ s).log) :
    ∃ o, may (requests p) (own p (run state requests w₀ s).log) o ∧
      y = (p, ⟨o, (o.exec i (run state requests w₀ s).world).1⟩) := by
  obtain ⟨o, k, hprocs, rfl⟩ := Config.run_snoc Op.exec h
  have hobeys := (run_obeys state requests w₀ s).2 p
  have hperform : Obeys (conduct (requests p)) (Answers (requests p)) (.perform o k)
      (own p (run state requests w₀ s).log) := hprocs ▸ hobeys
  exact ⟨o, hperform.1, rfl⟩

/-- A process that has ended has done what its answer says. -/
theorem run_answers {s : Schedule} {p : Nat} {response : Response}
    (h : (run state requests w₀ s).procs p = .pure response) :
    Answers (requests p) response (own p (run state requests w₀ s).log) := by
  have hobeys := (run_obeys state requests w₀ s).2 p
  rw [h] at hobeys
  exact hobeys

/-- What every allowed step keeps, a run keeps from any of its moments on. -/
theorem run_preserves {P : GatewayLog → World → Prop}
    (hstep : ∀ {log : GatewayLog} {w : World} (p : Nat) (o : Op) (i : Input),
      Conforms requests w₀ log w → may (requests p) (own p log) o → P log w →
      P ((p, ⟨o, (o.exec i w).1⟩) :: log) (o.exec i w).2) (s₁ s₂ : Schedule)
    (h : P (run state requests w₀ s₁).log (run state requests w₀ s₁).world) :
    P (run state requests w₀ (s₁ ++ s₂)).log (run state requests w₀ (s₁ ++ s₂)).world := by
  obtain ⟨hconforms, hobeys⟩ := run_obeys state requests w₀ s₁
  rw [run_append]
  exact Config.run_preserves (C := fun p => conduct (requests p)) (fun _ _ i w => ⟨i, w, rfl⟩)
    hstep hconforms hobeys h s₂

end FerrumGate
