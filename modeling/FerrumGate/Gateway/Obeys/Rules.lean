import FerrumGate.Gateway.Conduct

/-!
# Rules for walking through a handler

One rule per combinator the handlers are written with, for any conduct, and what a reply of the
store says about the row it carries. The routines shared by the handlers (the append of a
governance event, the transaction of a lifecycle transition, the marks on an outbox record) get
one specification each.
-/

namespace FerrumGate

open Interleave Interleave.Rows

section Rules

variable {C : Conduct Op Op.Result} {t : Knowledge} {α β ε : Type} {Q : β → Knowledge → Prop}

/-- A handler performs an operation and goes on with the reply. -/
theorem walk_call {o : Op} {f : o.Result → Handler β} (hmay : C.may t o)
    (hf : ∀ r, C.gives o r → ObeysE C Q (f r) (⟨o, r⟩ :: t)) :
    ObeysE C Q (call o >>= f) t :=
  obeysE_bind.mpr (obeysE_lift.mpr ⟨hmay, hf⟩)

/-- A store routine draws a value that cannot fail. -/
theorem walk_draw {o : Op} {f : o.Result → StoreM β} (hmay : C.may t o)
    (hf : ∀ r, C.gives o r → ObeysE C Q (f r) (⟨o, r⟩ :: t)) :
    ObeysE C Q (draw o >>= f) t :=
  obeysE_bind.mpr (obeysE_lift.mpr ⟨hmay, hf⟩)

/-- A store routine performs a statement; an error ends it. -/
theorem walk_statement {x : Gw (StoreResult α)} {f : α → StoreM β}
    (hx : Obeys C (fun r t' => ∀ a, r = .ok a → ObeysE C Q (f a) t') x t) :
    ObeysE C Q (statement x >>= f) t :=
  obeysE_bind.mpr hx

/-- The capability service performs a statement; an error ends it. -/
theorem walk_capStatement {x : Gw (StoreResult α)} {f : α → CapM β}
    (hx : Obeys C (fun r t' => ∀ a, r = .ok a → ObeysE C Q (f a) t') x t) :
    ObeysE C Q (capStatement x >>= f) t :=
  obeysE_bind.mpr (obeysE_adapt.mpr hx)

theorem obeysE_require {x : Gw (StoreResult (Option β))} {missing : ApiProblem}
    (hx : Obeys C (fun r t' => ∀ a, r = .ok (some a) → Q a t') x t) :
    ObeysE C Q (require x missing) t := by
  refine obeysE_bind.mpr (obeysE_adapt.mpr (Obeys.mono hx fun r t' hr a ha => ?_))
  cases a with
  | none => exact obeysE_throw
  | some b => exact obeysE_pure.mpr (hr b ha)

/-- A handler looks a row up and goes on when it is there. -/
theorem walk_require {x : Gw (StoreResult (Option α))} {missing : ApiProblem}
    {f : α → Handler β}
    (hx : Obeys C (fun r t' => ∀ a, r = .ok (some a) → ObeysE C Q (f a) t') x t) :
    ObeysE C Q (require x missing >>= f) t :=
  obeysE_bind.mpr (obeysE_require hx)

theorem walk_ensure {c : Prop} [Decidable c] {e : ε} {f : Unit → ExceptT ε (Prog Op Op.Result) β}
    (hf : c → ObeysE C Q (f ()) t) :
    ObeysE C Q ((ofExcept (ensure c e) : ExceptT ε (Prog Op Op.Result) Unit) >>= f) t :=
  obeysE_bind.mpr (obeysE_ofExcept.mpr fun _ hc => hf (ensure_ok.mp hc))

theorem walk_demand {c : Prop} [Decidable c] {problem : ApiProblem} {f : Unit → Handler β}
    (hf : c → ObeysE C Q (f ()) t) : ObeysE C Q (demand c problem >>= f) t :=
  walk_ensure hf

theorem walk_demandOk {x : Except String Unit} {problem : String → ApiProblem}
    {f : Unit → Handler β} (hf : x = .ok () → ObeysE C Q (f ()) t) :
    ObeysE C Q (demandOk x problem >>= f) t := by
  refine obeysE_bind.mpr (obeysE_ofExcept.mpr fun a ha => hf ?_)
  cases x with
  | error e => cases ha
  | ok u => rfl

/-- A handler uses a store routine that meets a specification. -/
theorem walk_store {P : α → Knowledge → Prop} {x : StoreM α} {f : α → Handler β}
    (hx : ObeysE C P x t) (hf : ∀ a t', t ⊆ t' → P a t' → ObeysE C Q (f a) t') :
    ObeysE C Q (store x >>= f) t :=
  ObeysE.andThen (obeysE_adapt.mpr hx) hf

end Rules

/-! ## What the store's replies say -/

theorem readWith_ok {α : Type} {i : Input} {f : World → α} {w : World} {a : α}
    (h : (readWith i f w).1 = .ok a) : a = f w := by
  unfold readWith at h
  split at h
  · cases h
  · exact (Except.ok.inj h).symm

/-- A lookup by primary key answers with a row of that key. -/
theorem key_of_gives {V K : Type} [Keyed V K] [DecidableEq K] {table : World → List V} {k : K}
    {v : V} (h : ∃ i w, (readWith i (fun w => find (table w) k) w).1 = .ok (some v)) :
    Keyed.key v = k := by
  obtain ⟨i, w, h⟩ := h
  exact find_key (readWith_ok h).symm

variable {x : ExecutionRecord}

theorem gives_getExecution {id : ExecutionId} (h : Op.gives (.getExecution id) (.ok (some x))) :
    x.executionId = id :=
  key_of_gives h

theorem gives_getContract {id : RollbackContractId} {c : RollbackContract}
    (h : Op.gives (.getContract id) (.ok (some c))) : c.contractId = id :=
  key_of_gives h

theorem gives_getCapability {id : CapabilityId} {lease : CapabilityLease}
    (h : Op.gives (.getCapability id) (.ok (some lease))) : lease.capabilityId = id :=
  key_of_gives h

theorem gives_getApproval {id : ApprovalId} {approval : ApprovalRequest}
    (h : Op.gives (.getApproval id) (.ok (some approval))) :
    approval.approvalId = id :=
  key_of_gives h

theorem gives_getHold {id : QuarantineHoldId} {hold : QuarantineHold}
    (h : Op.gives (.getHold id) (.ok (some hold))) : hold.holdId = id :=
  key_of_gives h

variable {id : LifecycleOutboxId}

theorem gives_getOutbox {record : LifecycleOutboxRecord}
    (h : Op.gives (.getOutbox id) (.ok (some record))) : record.outboxId = id := by
  obtain ⟨i, w, h⟩ := h
  obtain ⟨row, hrow, rfl⟩ := Option.map_eq_some_iff.mp (readWith_ok h).symm
  exact find_key hrow

/-! ## The shared routines -/

variable {event : ProvenanceEvent} {contractId : Option RollbackContractId}
  {metadata : EventMetadata}

section Routines

variable {served : Request} {t t' : Knowledge}

/-- The process has appended `event`, or, when its parent is optional, the event with a note that
the parent is missing. -/
def Appended (t t' : Knowledge) (event : ProvenanceEvent) : Prop :=
  ∃ stored edges quiet, t' = ⟨.appendEventWithEdges stored edges, .ok ()⟩ :: quiet ∧
    Quietly t quiet ∧ (stored = event ∨ event.metadata.lineageParentOptional = some true ∧
      ∃ missing, stored =
        { event with metadata := { event.metadata with lineageParentMissing := some missing } })

theorem appendGovernanceEvent_obeys (h : Announces t event) (hdrawn : Drawn t event.eventId) :
    ObeysE (conduct served) (fun _ t' => Appended t t' event) (appendGovernanceEvent event) t := by
  unfold appendGovernanceEvent
  cases hspec : lineageParentSpec event.kind with
  | none =>
    refine ⟨⟨.inl (.root h hspec), hdrawn⟩, ?_⟩
    rintro _ - ⟨⟩ rfl
    exact ⟨event, [], t, rfl, .refl t, .inl rfl⟩
  | some spec =>
    obtain ⟨parentKind, edgeType⟩ := spec
    refine obeysE_bind.mpr ⟨.governed rfl (internal_of_parentSpec hspec), ?_⟩
    rintro _ - candidates rfl
    have hq : Quietly t (⟨.queryEvents { intentId := event.intentId, eventKind := some parentKind },
        .ok candidates⟩ :: t) := (Quietly.refl t).cons rfl
    have h' := h.later hq
    cases hfind : candidates.reverse.find? (sameContext event) with
    | some parent =>
      have hmem : parent ∈ candidates := List.mem_reverse.mp (List.mem_of_find?_eq_some hfind)
      have hctx : sameContext event parent = true := List.find?_some hfind
      refine ⟨⟨.inl (.linked h' hspec Saw.now hmem hctx), hdrawn.earlier⟩, ?_⟩
      rintro _ - ⟨⟩ rfl
      exact ⟨event, _, _, rfl, hq, .inl rfl⟩
    | none =>
      by_cases hopt : event.metadata.lineageParentOptional = some true
      · simp only [hopt, if_true]
        refine ⟨⟨.inl (.orphan h' hopt), hdrawn.earlier⟩, ?_⟩
        rintro _ - ⟨⟩ rfl
        exact ⟨_, [], _, rfl, hq, .inr ⟨hopt, _, rfl⟩⟩
      · simp only [hopt, if_false]
        exact obeysE_throw

/-- The transaction of a lifecycle transition. -/
theorem recordLifecycleTransitionOutbox_obeys {name : TransitionName} {x' : ExecutionRecord}
    {c c' : Option RollbackContract} {kinds : List ProvenanceEventKind}
    (h : Transition t name x x' c c' kinds) (hasked : served.asksFor name x'.executionId) :
    ObeysE (conduct served)
      (fun outbox t' => Tail t' x' outbox [] ∧
        ∃ id now, outbox = transitionRecord id now name x x' c c' kinds)
      (recordLifecycleTransitionOutbox name x x' c c' kinds) t := by
  unfold recordLifecycleTransitionOutbox
  refine walk_draw trivial fun uuid _ => walk_draw trivial fun now _ => walk_statement ⟨?_, ?_⟩
  · exact ⟨name, x, c, kinds, now, hasked, h.mono (by simp), Saw.now.earlier, rfl⟩
  · rintro _ - ⟨⟩ rfl
    exact obeysE_pure.mpr ⟨.start rfl, _, _, rfl⟩

theorem transitionRecord_kinds {now : Timestamp} {name : TransitionName} {x' : ExecutionRecord}
    {c c' : Option RollbackContract} {kinds : List ProvenanceEventKind} :
    (transitionRecord id now name x x' c c' kinds).kinds = kinds := by
  simp [LifecycleOutboxRecord.kinds, transitionRecord,
    LifecycleOutboxRecord.pendingWithObligations, ProvenanceObligation.pending, Function.comp_def]

/-- An event about an execution that the process may announce. -/
theorem appendExecutionEventAt_obeys {occurredAt : Timestamp} {kind : ProvenanceEventKind}
    (h : ∀ eventId, Announces t (executionEvent eventId occurredAt kind x contractId metadata)) :
    ObeysE (conduct served)
      (fun eventId t' =>
        Appended t t' (executionEvent eventId occurredAt kind x contractId metadata))
      (appendExecutionEventAt occurredAt kind x contractId metadata) t := by
  unfold appendExecutionEventAt
  refine walk_draw trivial fun uuid _ => ?_
  have hq : Quietly t (⟨.newUuid, uuid⟩ :: t) := (Quietly.refl t).cons rfl
  refine (appendGovernanceEvent_obeys ((h ⟨uuid⟩).later hq) Saw.now).andThen fun _ _ _ happ => ?_
  obtain ⟨stored, edges, quiet, rfl, hquiet, hstored⟩ := happ
  exact obeysE_pure.mpr ⟨stored, edges, quiet, rfl, hq.trans hquiet, hstored⟩

theorem appendExecutionEvent_obeys {kind : ProvenanceEventKind}
    (h : ∀ eventId now, Announces t (executionEvent eventId now kind x contractId metadata)) :
    ObeysE (conduct served)
      (fun eventId t' => ∃ now, Appended t t' (executionEvent eventId now kind x contractId metadata))
      (appendExecutionEvent kind x contractId metadata) t := by
  unfold appendExecutionEvent
  refine walk_draw trivial fun uuid _ => walk_draw trivial fun now _ => ?_
  have hq : Quietly t (⟨.readClock, now⟩ :: ⟨.newUuid, uuid⟩ :: t) :=
    ((Quietly.refl t).cons rfl).cons rfl
  refine (appendGovernanceEvent_obeys ((h ⟨uuid⟩ now).later hq) Saw.now.earlier).andThen
    fun _ _ _ happ => ?_
  obtain ⟨stored, edges, quiet, rfl, hquiet, hstored⟩ := happ
  exact obeysE_pure.mpr ⟨now, stored, edges, quiet, rfl, hq.trans hquiet, hstored⟩

end Routines

/-! ## After the transaction -/

section Tail

variable {served : Request} {t t' : Knowledge} {x y : ExecutionRecord} {outbox : LifecycleOutboxRecord}
  {kinds : List ProvenanceEventKind} {kind : ProvenanceEventKind} {eventId : EventId}

/-- Where the handler's event names the record, it says nothing else; where it does not, it may
say that its parent is optional. -/
def Tags (outbox : LifecycleOutboxRecord) (metadata : EventMetadata) : Prop :=
  metadata =
    if outbox.idempotencyKey.tagsEvents then lifecycleEventMetadata outbox {}
    else { lineageParentOptional := metadata.lineageParentOptional }

theorem Tags.eventOf {now : Timestamp} (htags : Tags outbox metadata)
    (hid : y.executionId = outbox.executionId)
    (hcontract : contractId = outbox.rollbackContractId) :
    EventOf outbox (executionEvent eventId now kind y contractId metadata) := by
  unfold Tags at htags
  refine ⟨congrArg some hid, hcontract, ?_, fun htagged => ?_, fun htagged => ?_⟩
  · change metadata.decision = none
    rw [htags]
    split <;> rfl
  · rw [htagged] at htags
    exact htags
  · rw [htagged] at htags
    change metadata.lifecycleOutboxId = none
    rw [htags]
    rfl

/-- A record's event whose parent is optional does not name the record. -/
theorem EventOf.orphan {missing : String} (h : EventOf outbox event)
    (hoptional : event.metadata.lineageParentOptional = some true) :
    EventOf outbox
      { event with
        metadata := { event.metadata with lineageParentMissing := some missing } } := by
  refine ⟨h.execution, h.contract, h.decision, fun htagged => ?_, h.untagged⟩
  rw [h.tagged htagged] at hoptional
  cases hoptional

theorem Appended.tail (h : Appended t t' event) (htail : Tail t x outbox kinds) :
    Tail t' x outbox (event.kind :: kinds) := by
  obtain ⟨stored, edges, quiet, rfl, hquiet, hstored⟩ := h
  have hkind : stored.kind = event.kind := by
    rcases hstored with rfl | ⟨_, missing, rfl⟩ <;> rfl
  rw [← hkind]
  exact (htail.quietly hquiet).append rfl

theorem Appended.written (h : Appended t t' event) (hevent : EventOf outbox event) :
    Written t' outbox event.kind event.eventId := by
  obtain ⟨stored, edges, quiet, rfl, -, hstored⟩ := h
  refine ⟨stored, edges, Saw.now, ?_⟩
  rcases hstored with rfl | ⟨hoptional, missing, rfl⟩
  · exact ⟨rfl, rfl, hevent⟩
  · exact ⟨rfl, rfl, hevent.orphan hoptional⟩

/-- The event that the handler's record owes. -/
theorem appendOwed_obeys (htail : Tail t x outbox kinds) (hfirst : kind ∉ kinds)
    (howed : kind ∈ outbox.kinds) (hsame : SameExecution y x)
    (hid : y.executionId = outbox.executionId)
    (hcontract : contractId = outbox.rollbackContractId) (htags : Tags outbox metadata) :
    ObeysE (conduct served)
      (fun eventId t' => Tail t' x outbox (kind :: kinds) ∧ Written t' outbox kind eventId)
      (appendExecutionEvent kind y contractId metadata) t := by
  refine (appendExecutionEvent_obeys fun eventId now => .lifecycle htail hfirst howed hsame
    (htags.eventOf hid hcontract)).mono ?_
  rintro eventId t' ⟨now, happ⟩
  exact ⟨happ.tail htail, happ.written (htags.eventOf hid hcontract)⟩

/-- The process has marked the event in its outbox record. -/
def Marked (t : Knowledge) (id : LifecycleOutboxId) (kind : ProvenanceEventKind)
    (eventId : EventId) : Prop :=
  ∃ (old : LifecycleOutboxRecord) (now : Timestamp), old.outboxId = id ∧
    Saw t (.updateOutboxRecord (old.markObligationWritten kind eventId now) false false) (.ok true)

theorem Marked.mono (h : t ⊆ t') :
    Marked t id kind eventId → Marked t' id kind eventId
  | ⟨old, now, hid, hs⟩ => ⟨old, now, hid, hs.mono h⟩

theorem markProvenanceObligationWritten_obeys (htail : Tail t x outbox kinds)
    (howed : kind ∈ outbox.kinds) (hwritten : Written t outbox kind eventId) :
    ObeysE (conduct served)
      (fun updated t' => Quietly t t' ∧ (updated = true → Marked t' outbox.outboxId kind eventId))
      (markProvenanceObligationWritten outbox.outboxId kind eventId) t := by
  unfold markProvenanceObligationWritten
  refine walk_statement ⟨trivial, ?_⟩
  rintro _ hr found rfl
  cases found with
  | none => exact obeysE_throw
  | some record =>
    have hrecord : record.outboxId = outbox.outboxId := gives_getOutbox hr
    refine walk_draw trivial fun now _ => ⟨?_, ?_⟩
    · have hq : Quietly t
          (⟨.readClock, now⟩ :: ⟨.getOutbox outbox.outboxId, .ok (some record)⟩ :: t) :=
        ((Quietly.refl t).cons rfl).cons rfl
      exact .edit (hrecord ▸ Saw.now.earlier)
        (.mark (htail.quietly hq) hrecord howed (hwritten.mono hq.subset))
    · rintro _ - updated rfl
      refine ⟨(((Quietly.refl t).cons rfl).cons rfl).cons rfl, ?_⟩
      rintro rfl
      exact ⟨record, now, hrecord, Saw.now⟩

/-- The mark of a written event. -/
theorem markLifecycleObligationWritten_obeys (htail : Tail t x outbox kinds)
    (howed : kind ∈ outbox.kinds) (hwritten : Written t outbox kind eventId) :
    ObeysE (conduct served) (fun _ t' => Quietly t t' ∧ Marked t' outbox.outboxId kind eventId)
      (markLifecycleObligationWritten outbox kind eventId) t := by
  unfold markLifecycleObligationWritten
  refine (markProvenanceObligationWritten_obeys htail howed hwritten).andThen fun _ _ _ h => ?_
  exact obeysE_ofExcept.mpr fun _ hupdated => ⟨h.1, h.2 (ensure_ok.mp hupdated)⟩

theorem markReconciled_obeys (htail : Tail t x outbox kinds) :
    ObeysE (conduct served) (fun _ t' => t ⊆ t') (markReconciled outbox.outboxId) t := by
  unfold markReconciled
  refine walk_statement ⟨trivial, ?_⟩
  rintro _ hr found rfl
  cases found with
  | none => exact obeysE_pure.mpr (List.subset_cons_self _ _)
  | some record =>
    have hrecord := gives_getOutbox hr
    have hq : ∀ now, Quietly t
        (⟨.readClock, now⟩ :: ⟨.getOutbox outbox.outboxId, .ok (some record)⟩ :: t) :=
      fun now => ((Quietly.refl t).cons rfl).cons rfl
    refine walk_draw trivial fun now _ => walk_ensure fun hsatisfied => walk_statement ⟨?_, ?_⟩
    · exact .edit (hrecord ▸ Saw.now.earlier) (.close (htail.quietly (hq now)) hrecord hsatisfied)
    · rintro _ - updated rfl
      exact obeysE_ofExcept.mpr fun _ _ => List.subset_cons_of_subset _ (hq now).subset

theorem markLifecycleTransitionReconciled_obeys (htail : Tail t x outbox kinds)
    (howed : outbox.intendedProvenanceKind ∈ outbox.kinds)
    (hwritten : Written t outbox outbox.intendedProvenanceKind eventId) :
    ObeysE (conduct served)
      (fun _ t' => t ⊆ t' ∧ Marked t' outbox.outboxId outbox.intendedProvenanceKind eventId)
      (markLifecycleTransitionReconciled outbox eventId) t := by
  unfold markLifecycleTransitionReconciled
  refine (markLifecycleObligationWritten_obeys htail howed hwritten).andThen fun _ t₁ _ h => ?_
  exact (markReconciled_obeys (htail.quietly h.1)).mono fun _ _ hsub =>
    ⟨List.Subset.trans h.1.subset hsub, h.2.mono hsub⟩

/-- The process has appended every event its outbox record owes, and has marked it there. -/
structure Settled (t : Knowledge) (outbox : LifecycleOutboxRecord) : Prop where
  owner : Owns t outbox
  written : ∀ kind ∈ outbox.kinds, ∃ eventId, Written t outbox kind eventId ∧
    Marked t outbox.outboxId kind eventId

theorem Settled.mono (h : t ⊆ t') (hs : Settled t outbox) : Settled t' outbox := by
  refine ⟨hs.owner.mono h, fun kind hkind => ?_⟩
  obtain ⟨eventId, hw, hm⟩ := hs.written kind hkind
  exact ⟨eventId, hw.mono h, hm.mono h⟩

/-- The process has stored an outbox record of the execution that owes events of these kinds, and
has appended them. -/
def Settles (t : Knowledge) (id : ExecutionId) (kinds : List ProvenanceEventKind) : Prop :=
  ∃ outbox : LifecycleOutboxRecord, outbox.executionId = id ∧ outbox.kinds = kinds ∧
    Settled t outbox

theorem Settles.mono (h : t ⊆ t') {id : ExecutionId} : Settles t id kinds → Settles t' id kinds
  | ⟨outbox, hid, hkinds, hs⟩ => ⟨outbox, hid, hkinds, hs.mono h⟩

section OneEvent

variable {id : LifecycleOutboxId} {now : Timestamp} {name : TransitionName}
  {previous : ExecutionRecord} {c c' : Option RollbackContract}

/-- The event of a handler whose record owes one. -/
theorem appendOnly_obeys
    (htail : Tail t x (transitionRecord id now name previous x c c' [kind]) [])
    (hsame : SameExecution y x)
    (hcontract : contractId = (c'.map (·.contractId)).or x.rollbackContractId)
    (htags : Tags (transitionRecord id now name previous x c c' [kind]) metadata) :
    ObeysE (conduct served)
      (fun eventId t' => Tail t' x (transitionRecord id now name previous x c c' [kind]) [kind] ∧
        Written t' (transitionRecord id now name previous x c c' [kind]) kind eventId)
      (appendExecutionEvent kind y contractId metadata) t :=
  appendOwed_obeys htail List.not_mem_nil (by simp [transitionRecord_kinds]) hsame hsame.1
    hcontract htags

/-- The marks that end a handler whose record owes one event. -/
theorem closeOnly_obeys
    (htail : Tail t x (transitionRecord id now name previous x c c' [kind]) [kind])
    (hwritten : Written t (transitionRecord id now name previous x c c' [kind]) kind eventId) :
    ObeysE (conduct served) (fun _ t' => Settles t' x.executionId [kind])
      (markLifecycleTransitionReconciled (transitionRecord id now name previous x c c' [kind])
        eventId) t := by
  have howed : kind ∈ (transitionRecord id now name previous x c c' [kind]).kinds := by
    simp [transitionRecord_kinds]
  refine (markLifecycleTransitionReconciled_obeys htail howed hwritten).mono fun _ t' h => ?_
  obtain ⟨hsub, hmarked⟩ := h
  refine ⟨_, rfl, transitionRecord_kinds, htail.owns.mono hsub, fun kind' hkind' => ?_⟩
  rw [transitionRecord_kinds, List.mem_singleton] at hkind'
  subst hkind'
  exact ⟨eventId, hwritten.mono hsub, hmarked⟩

end OneEvent

theorem appendAuditChecked_obeys {state : AppState} :
    ObeysE (conduct served) (fun _ t' => Quietly t t') (appendAuditChecked state) t := by
  unfold appendAuditChecked
  refine walk_call trivial fun r _ => ?_
  have hq : Quietly t (⟨.appendAudit, r⟩ :: t) := (Quietly.refl t).cons rfl
  rcases r with e | u
  · exact obeysE_ofExcept.mpr fun _ _ => hq
  · exact obeysE_pure.mpr hq

end Tail

end FerrumGate
