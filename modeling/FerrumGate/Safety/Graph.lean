import FerrumGate.Safety.Records

/-!
# The graph of the lineage

Edges are written by two kinds of process: a handler that appends an event links it to the newest
stored event of the parent kind, and a reconciler links an event it repairs or adopts to the only
parent it finds. Neither reads the graph before it adds to it, and neither compares intents.

`lineage_edges_acyclic` holds nevertheless, for two reasons that no interleaving touches. The kind
of an event lies one step deeper in the lineage than the kind of its parent
(`ProvenanceEventKind.depth`), so that the edges cannot run in a circle; and an id that a lookup
goes by belongs to one intent: the execution's to the intent it was authorized for, which is also
the intent of its capability (`ContextInv`).
-/

namespace FerrumGate

open Interleave Interleave.Rows

variable {served : Request} {requests : Nat → Request} {t : Knowledge} {o : Op} {i : Input}
  {w w' : World} {log : GatewayLog} {p : Nat} {event parent : ProvenanceEvent}
  {kind parentKind : ProvenanceEventKind} {edge : ProvenanceEdge} {edges : List ProvenanceEdge}

/-! ## Kinds -/

/-- How far an event of this kind lies below the policy's evaluation. -/
def ProvenanceEventKind.depth : ProvenanceEventKind → Nat
  | .capabilityMinted | .approvalGranted | .approvalDenied | .approvalTimedOut
  | .quarantineHoldCreated => 1
  | .capabilityRevoked | .actionProposalSubmitted | .quarantineResolved | .quarantineTimedOut => 2
  | .sideEffectPrepared => 3
  | .toolCallPrepared => 4
  | .toolCallExecuted => 5
  | .sideEffectVerified | .sideEffectCompensated | .sideEffectRolledBack => 6
  | .sideEffectCommitted => 7
  | _ => 0

theorem lineageParentSpec_depth {edgeType : ProvenanceEdgeType}
    (h : lineageParentSpec kind = some (parentKind, edgeType)) :
    parentKind.depth < kind.depth := by
  cases kind <;> cases h <;> decide

/-- The parent of a lifecycle event is a capability's event or a lifecycle event again. -/
theorem lineageParentSpec_lifecycle {edgeType : ProvenanceEdgeType}
    (hkind : kind.lifecycle = true)
    (h : lineageParentSpec kind = some (parentKind, edgeType)) :
    parentKind = .capabilityMinted ∨ parentKind.lifecycle = true ∧ parentKind ≠ .errorRaised := by
  cases kind <;> cases hkind <;> cases h <;> simp [ProvenanceEventKind.lifecycle]

/-! ## The intent of an id -/

/-- The execution was authorized for the intent. -/
def ExecutionIntent (w : World) (e : ExecutionId) (intent : IntentId) : Prop :=
  ∃ x, find w.executions e = some x ∧ x.intentId = intent

theorem ExecutionIntent.mono {e : ExecutionId} {intent : IntentId} (hs : Stable w w') :
    ExecutionIntent w e intent → ExecutionIntent w' e intent := by
  rintro ⟨x, hx, rfl⟩
  obtain ⟨x', hx', hsame⟩ := hs.executions hx
  exact ⟨x', hx', hsame.2.2.1⟩

theorem ExecutionIntent.eq {e : ExecutionId} {a b : IntentId} (ha : ExecutionIntent w e a)
    (hb : ExecutionIntent w e b) : a = b := by
  obtain ⟨x, hx, rfl⟩ := ha
  obtain ⟨y, hy, rfl⟩ := hb
  cases Option.some.inj (hx.symm.trans hy)
  rfl

/-- The capability was minted for the intent. -/
def CapabilityIntent (w : World) (id : CapabilityId) (intent : IntentId) : Prop :=
  ∃ lease, find w.capabilities id = some lease ∧ lease.intentId = intent

theorem CapabilityIntent.mono {id : CapabilityId} {intent : IntentId} (hs : Stable w w') :
    CapabilityIntent w id intent → CapabilityIntent w' id intent := by
  rintro ⟨lease, hlease, rfl⟩
  obtain ⟨lease', hlease', hlater⟩ := hs.capabilities hlease
  exact ⟨lease', hlease', hlater.intentId⟩

theorem CapabilityIntent.eq {id : CapabilityId} {a b : IntentId} (ha : CapabilityIntent w id a)
    (hb : CapabilityIntent w id b) : a = b := by
  obtain ⟨x, hx, rfl⟩ := ha
  obtain ⟨y, hy, rfl⟩ := hb
  cases Option.some.inj (hx.symm.trans hy)
  rfl

/-- The execution that a process has read. -/
theorem Trusted.executionIntent (h : Trusted w t) {e : ExecutionId} {x : ExecutionRecord}
    (hread : Saw t (.getExecution e) (.ok (some x))) :
    x.executionId = e ∧ ExecutionIntent w e x.intentId ∧
      ∃ stored, find w.executions e = some stored ∧ SameExecution stored x := by
  obtain ⟨w₁, _, hstable, ha⟩ := h.read hread (fun w₁ => find w₁.executions e) (some x)
    fun i w₁ hr => ⟨readWith_snd i _ w₁, readWith_ok hr.symm⟩
  obtain ⟨stored, hstored, hsame⟩ := hstable.executions ha.symm
  exact ⟨find_key ha.symm, ⟨stored, hstored, hsame.2.2.1⟩, stored, hstored, hsame⟩

/-! ## Events and their intents -/

/-- The event names an execution, and the intent of that execution. -/
def OfExecution (w : World) (event : ProvenanceEvent) : Prop :=
  ∃ e intent, event.executionId = some e ∧ event.intentId = some intent ∧
    ExecutionIntent w e intent

theorem OfExecution.mono (hs : Stable w w') : OfExecution w event → OfExecution w' event
  | ⟨e, intent, he, hi, hintent⟩ => ⟨e, intent, he, hi, hintent.mono hs⟩

/-- The event names no execution, but a capability and the intent of that capability. -/
def OfCapability (w : World) (event : ProvenanceEvent) : Prop :=
  event.executionId = none ∧ ∃ id intent, event.capabilityId = some id ∧
    event.intentId = some intent ∧ CapabilityIntent w id intent

theorem OfCapability.mono (hs : Stable w w') : OfCapability w event → OfCapability w' event
  | ⟨hnone, id, intent, hid, hi, hintent⟩ => ⟨hnone, id, intent, hid, hi, hintent.mono hs⟩

/-- **What a run keeps about the ids that lookups go by.** `ErrorRaised` has no place in the
lineage and is left out. -/
structure ContextInv (w : World) : Prop where
  lifecycle : ∀ {event}, event ∈ w.events → event.kind.lifecycle = true →
    event.kind ≠ .errorRaised → OfExecution w event
  minted : ∀ {event}, event ∈ w.events → event.kind = .capabilityMinted → OfCapability w event
  authorized : ∀ {e x}, find w.executions e = some x → ∃ lease,
    find w.capabilities x.capabilityId = some lease ∧ lease.intentId = x.intentId ∧
      lease.proposalId = x.proposalId

section Step

/-- Every announced event names its intent. -/
theorem Announces.intent (h : Announces t event) : ∃ intent, event.intentId = some intent := by
  cases h <;> exact ⟨_, rfl⟩

/-- The event that a process appends without a reconciler's lease, up to its metadata. -/
theorem Appends.announced (h : Appends t event edges) :
    ∃ metadata, Announces t { event with metadata := metadata } := by
  cases h with
  | root announced => exact ⟨_, announced⟩
  | linked announced => exact ⟨_, announced⟩
  | orphan announced => exact ⟨_, announced⟩

/-- The capability that a process has minted is stored. -/
theorem insertCapability_stored {lease : CapabilityLease}
    (h : (Op.exec (.insertCapability lease) i w).1 = .ok ()) :
    find (Op.exec (.insertCapability lease) i w).2.capabilities lease.capabilityId = some lease := by
  rcases exec_effect (.insertCapability lease) i w with ⟨_, hw⟩ | ⟨hquiet, _⟩
  · generalize (Op.exec (.insertCapability lease) i w).2 = w' at hw ⊢
    generalize (Op.exec (.insertCapability lease) i w).1 = r at hw
    cases hw with
    | insertCapability new => exact find_append_self new
  · rw [h] at hquiet
    cases hquiet

theorem Trusted.minted (h : Trusted w t) {lease : CapabilityLease}
    (hs : Saw t (.insertCapability lease) (.ok ())) :
    ∃ stored, find w.capabilities lease.capabilityId = some stored ∧ LaterLease lease stored := by
  obtain ⟨_, w₁, i, _, hr, _, hstable⟩ := h _ hs
  exact hstable.capabilities (insertCapability_stored hr.symm)

/-- The execution of a transaction of the process. -/
theorem Trusted.recorded (h : Trusted w t) {e : Reply Op Op.Result} (he : e ∈ t)
    {x : ExecutionRecord} {outbox : LifecycleOutboxRecord}
    (hrecorded : recorded e = some (x, outbox)) : ExecutionIntent w x.executionId x.intentId := by
  obtain ⟨o, r⟩ := e
  obtain ⟨_, w₁, i, _, hr, _, hstable⟩ := h _ he
  have hr' : r = (o.exec i w₁).1 := hr
  subst hr'
  obtain ⟨x', hx', hsame⟩ := hstable.executions (recorded_execution hrecorded)
  exact ⟨x', hx', hsame.2.2.1⟩

/-- A lifecycle event that a handler announces is about the execution it has written. -/
theorem Announces.ofExecution (ht : Trusted w t) (h : Announces t event)
    (hkind : event.kind.lifecycle = true) (hne : event.kind ≠ .errorRaised) :
    OfExecution w event := by
  cases h with
  | policyEvaluated | holdCreated | capabilityMinted | capabilityRevoked => cases hkind
  | holdDecided kind_ => rcases kind_ with rfl | rfl <;> cases hkind
  | @lifecycle x y outbox kind kinds eventId now contractId metadata tail _ _ same =>
    obtain ⟨recent, tx, old, rfl, htx, -⟩ := tail
    have hx := ht.recorded (List.mem_append_right _ List.mem_cons_self) htx
    rw [← same.1, ← same.2.2.1] at hx
    exact ⟨y.executionId, y.intentId, rfl, rfl, hx⟩
  | haCanceled => exact absurd rfl hne

/-- The event of a mint is about the capability that has been stored. -/
theorem Announces.ofCapability (ht : Trusted w t) (hkinds : OwedKinds t)
    (h : Announces t event) (hkind : event.kind = .capabilityMinted) : OfCapability w event := by
  cases h with
  | policyEvaluated | holdCreated | capabilityRevoked | haCanceled => cases hkind
  | holdDecided kind_ => rcases kind_ with rfl | rfl <;> cases hkind
  | @capabilityMinted lease eventId now inserted =>
    obtain ⟨stored, hstored, hlater⟩ := ht.minted inserted
    exact ⟨rfl, lease.capabilityId, lease.intentId, rfl, rfl, stored, hstored, hlater.intentId⟩
  | @lifecycle _ _ _ kind _ _ _ _ _ tail _ owed =>
    have hkind' : kind = .capabilityMinted := hkind
    subst hkind'
    cases hkinds tail.owns owed

/-- A repaired event is about the execution of the record. -/
theorem Repair.ofExecution (ht : Trusted w t) (h : Repair t event edges) :
    OfExecution w event := by
  cases h with
  | @mk claim x contract obligation eventId now parentKind parent claimed read =>
    obtain ⟨hid, hintent, -⟩ := ht.executionIntent read
    exact ⟨x.executionId, x.intentId, rfl, rfl, hid ▸ hintent⟩

theorem Repair.lifecycle (hcopies : TrustedRecords requests log w t) (h : Repair t event edges) :
    event.kind.lifecycle = true := by
  cases h with
  | @mk claim x contract obligation eventId now parentKind parent claimed read _ owed =>
    have hok := hcopies (.leased claimed)
    rw [hok.obligationsForRecord] at owed
    exact hok.lifecycle obligation owed

/-- The execution of an authorization belongs to the intent and the proposal of its capability. -/
theorem AuthorizationWrite.bound {lease : CapabilityLease} {x : ExecutionRecord}
    {outbox : LifecycleOutboxRecord} {now : Timestamp} (ht : Trusted w t)
    (h : AuthorizationWrite served t (.recordAuthorization lease x outbox now)) :
    ∃ stored, find w.capabilities x.capabilityId = some stored ∧ stored.intentId = x.intentId ∧
      stored.proposalId = x.proposalId := by
  obtain ⟨_, _, _, _, _, _, -, read, bound, -, rfl, rfl⟩ := h.inv
  obtain ⟨stored, hstored, hlater⟩ := ht.capability read
  exact ⟨stored, hstored, hlater.intentId, hlater.proposalId.trans bound.symm⟩

theorem ContextInv.step (h : ContextInv w) (ht : Trusted w t) (hkinds : OwedKinds t)
    (hcopies : TrustedRecords requests log w t) (hmay : may served t o) :
    ContextInv (o.exec i w).2 := by
  have hs := stable_step (i := i) ht hmay
  refine ⟨fun {event} hevent hkind hne => ?_, fun {event} hevent hkind => ?_, fun {e x} hx => ?_⟩
  · suffices hbefore : OfExecution w event from hbefore.mono hs
    rcases event_cases hmay hevent with hold | ⟨-, hnoted | ⟨edges, happended | hrepaired⟩⟩
    · exact h.lifecycle hold hkind hne
    · rw [hnoted.not_lifecycle] at hkind
      cases hkind
    · obtain ⟨metadata, hannounced⟩ := happended.announced
      have hof := hannounced.ofExecution ht hkind hne
      exact hof
    · exact hrepaired.ofExecution ht
  · suffices hbefore : OfCapability w event from hbefore.mono hs
    rcases event_cases hmay hevent with hold | ⟨-, hnoted | ⟨edges, happended | hrepaired⟩⟩
    · exact h.minted hold hkind
    · have hkind' := hnoted.noted
      rw [hkind] at hkind'
      cases hkind'
    · obtain ⟨metadata, hannounced⟩ := happended.announced
      have hof := hannounced.ofCapability ht hkinds hkind
      exact hof
    · have hlifecycle := hrepaired.lifecycle hcopies
      rw [hkind] at hlifecycle
      cases hlifecycle
  · suffices hbefore : ∃ lease, find w.capabilities x.capabilityId = some lease ∧
        lease.intentId = x.intentId ∧ lease.proposalId = x.proposalId by
      obtain ⟨lease, hlease, hintent, hproposal⟩ := hbefore
      obtain ⟨lease', hlease', hlater⟩ := hs.capabilities hlease
      exact ⟨lease', hlease', hlater.intentId.trans hintent, hlater.proposalId.trans hproposal⟩
    cases hbefore : find w.executions e with
    | some y =>
      obtain ⟨x', hx', -, hproposal, hintent, hcapability⟩ := hs.executions hbefore
      cases Option.some.inj (hx.symm.trans hx')
      rw [hproposal, hintent, hcapability]
      exact h.authorized hbefore
    | none =>
      have hstep := execution_step (i := i) (w := w) hmay e
      rw [hbefore, hx] at hstep
      generalize (o.exec i w).1 = r at hstep
      cases hstep with
      | authorized _ write => exact write.bound ht

theorem contextInv_of_conforms (h : Conforms requests {} log w) : ContextInv w := by
  induction h with
  | start =>
    exact ⟨fun h => absurd h List.not_mem_nil, fun h => absurd h List.not_mem_nil,
      fun h => by cases h⟩
  | step p o i hb hmay ih =>
    exact ih.step ((pairInv_of_conforms hb).2 p) (owedKinds_of_conforms hb)
      ((recordInv_of_conforms hb).2 p) hmay

end Step

/-! ## Edges -/

/-- **An edge of the lineage**: it joins two stored events of one intent, and leads from the kind
that the child's kind has as its parent. -/
def Lineal (w : World) (edge : ProvenanceEdge) : Prop :=
  ∃ parent ∈ w.events, ∃ child ∈ w.events, parent.eventId = edge.fromEventId ∧
    child.eventId = edge.toEventId ∧
    (∃ intent, parent.intentId = some intent ∧ child.intentId = some intent) ∧
    lineageParentSpec child.kind = some (parent.kind, edge.edgeType)

theorem Lineal.mono (hs : Stable w w') : Lineal w edge → Lineal w' edge
  | ⟨parent, hparent, child, hchild, hrest⟩ =>
    ⟨parent, hs.events hparent, child, hs.events hchild, hrest⟩

section Edges

/-- What a regular obligation asks for. -/
theorem ProvenanceObligation.Regular.spec {obligation : ProvenanceObligation}
    (h : obligation.Regular) (hparent : obligation.parentKind = some parentKind) :
    lineageParentSpec obligation.eventKind =
      some (parentKind, obligation.edgeType.getD .caused) := by
  obtain ⟨hkind, hedge⟩ := h
  rw [hparent] at hkind
  obtain ⟨⟨kind, edgeType⟩, hspec, rfl⟩ := Option.map_eq_some_iff.mp hkind.symm
  rw [hedge, hspec]
  rfl

/-- The only parent that a reconciler finds belongs to the execution's intent. -/
theorem OnlyParent.intent (hinv : ContextInv w) (ht : Trusted w t)
    {record : LifecycleOutboxRecord} {x : ExecutionRecord} {edgeType : ProvenanceEdgeType}
    (hread : Saw t (.getExecution record.executionId) (.ok (some x)))
    (hkind : kind.lifecycle = true)
    (hspec : lineageParentSpec kind = some (parentKind, edgeType))
    (h : OnlyParent t record x parentKind parent) :
    parent ∈ w.events ∧ parent.kind = parentKind ∧ parent.intentId = some x.intentId := by
  obtain ⟨-, hintent, stored, hstored, hsame⟩ := ht.executionIntent hread
  rcases h with hquery | ⟨hminted, hquery⟩
  · obtain ⟨hmem, hmatches⟩ := ht.queried hquery (List.mem_singleton_self parent)
    obtain ⟨-, hexecution, -, hparent⟩ := World.ProvenanceQuery.matchesEvent_iff.mp hmatches
    have hparentKind : parent.kind = parentKind := hparent parentKind rfl
    refine ⟨hmem, hparentKind, ?_⟩
    rcases lineageParentSpec_lifecycle hkind hspec with hcapability | ⟨hlifecycle, hne⟩
    · have hnone := (hinv.minted hmem (hparentKind.trans hcapability)).1
      rw [hexecution _ rfl] at hnone
      cases hnone
    · rw [← hparentKind] at hlifecycle hne
      obtain ⟨e, intent, he, hi, hof⟩ := hinv.lifecycle hmem hlifecycle hne
      cases Option.some.inj (he.symm.trans (hexecution _ rfl))
      rw [hi, hof.eq hintent]
  · obtain ⟨hmem, hmatches⟩ := ht.queried hquery (List.mem_singleton_self parent)
    obtain ⟨-, -, hcapability, hparent⟩ := World.ProvenanceQuery.matchesEvent_iff.mp hmatches
    have hparentKind : parent.kind = parentKind := hparent parentKind rfl
    refine ⟨hmem, hparentKind, ?_⟩
    obtain ⟨-, id, intent, hid, hi, hof⟩ := hinv.minted hmem (hparentKind.trans hminted)
    cases Option.some.inj (hid.symm.trans (hcapability _ rfl))
    obtain ⟨lease, hlease, hleaseIntent, -⟩ := hinv.authorized hstored
    rw [hsame.2.2.2] at hlease
    rw [hi, hof.eq ⟨lease, hlease, hleaseIntent.trans hsame.2.2.1⟩]

/-- The edges that a handler stores with its event; `w'` is the store that has the event. -/
theorem Appends.lineal (ht : Trusted w t) (hs : Stable w w') (hevent : event ∈ w'.events)
    (h : Appends t event edges) : ∀ edge ∈ edges, Lineal w' edge := by
  intro edge hedge
  cases h with
  | root | orphan => cases hedge
  | @linked _ parent parentKind edgeType candidates announced spec read mem =>
    obtain rfl := List.mem_singleton.mp hedge
    obtain ⟨intent, hintent⟩ := announced.intent
    obtain ⟨hstored, hmatches⟩ := ht.queried read mem
    obtain ⟨hparentIntent, -, -, hkind⟩ := World.ProvenanceQuery.matchesEvent_iff.mp hmatches
    have hparentKind : parent.kind = parentKind := hkind parentKind rfl
    exact ⟨parent, hs.events hstored, event, hevent, rfl, rfl,
      ⟨intent, hparentIntent intent hintent, hintent⟩, hparentKind ▸ spec⟩

/-- The edge that a reconciler stores with the event it repairs. -/
theorem Repair.lineal (hinv : ContextInv w) (ht : Trusted w t)
    (hcopies : TrustedRecords requests log w t) (hs : Stable w w') (hevent : event ∈ w'.events)
    (h : Repair t event edges) : ∀ edge ∈ edges, Lineal w' edge := by
  intro edge hedge
  cases h with
  | @mk claim x contract obligation eventId now parentKind parent claimed read _ owed _ _ spec
      only =>
    obtain rfl := List.mem_singleton.mp hedge
    have hok := hcopies (.leased claimed)
    rw [hok.obligationsForRecord] at owed
    have hspec := (hok.regular obligation owed).spec spec
    obtain ⟨hparent, hkind, hintent⟩ :=
      only.intent hinv ht read (hok.lifecycle obligation owed) hspec
    exact ⟨parent, hs.events hparent, _, hevent, rfl, rfl, ⟨x.intentId, hintent, rfl⟩,
      hkind ▸ hspec⟩

/-- The edge that a reconciler adds to an event it has found. -/
theorem EdgeRepair.lineal (hinv : ContextInv w) (ht : Trusted w t)
    (hcopies : TrustedRecords requests log w t) {id : EventId} (h : EdgeRepair t id edges) :
    ∀ edge ∈ edges, Lineal w { edge with toEventId := id } := by
  intro edge hedge
  cases h with
  | @mk claim x obligation _ parentKind parent claimed read owed child spec only =>
    obtain rfl := List.mem_singleton.mp hedge
    have hok := hcopies (.leased claimed)
    rw [hok.obligationsForRecord] at owed
    have hspec := (hok.regular obligation owed).spec spec
    have hlifecycle := hok.lifecycle obligation owed
    obtain ⟨hparent, hkind, hintent⟩ := only.intent hinv ht read hlifecycle hspec
    have hnamed : NamesEvent w claim.record.executionId obligation.eventKind id := by
      rcases child with hnames | hadopted
      · exact hok.stored obligation owed id hnames
      · exact hadopted.names ht
    obtain ⟨event, hevent, hid, hchild, hexecution⟩ := hnamed
    have hne : obligation.eventKind ≠ .errorRaised := by
      intro herror
      rw [herror] at hspec
      cases hspec
    rw [← hchild] at hlifecycle hne hspec
    obtain ⟨e, intent, he, hi, hof⟩ := hinv.lifecycle hevent hlifecycle hne
    cases Option.some.inj (he.symm.trans hexecution)
    rw [hof.eq (ht.executionIntent read).2.1] at hi
    exact ⟨parent, hparent, event, hevent, rfl, hid, ⟨x.intentId, hintent, hi⟩, hkind ▸ hspec⟩

/-- **One step keeps the edges lineal.** -/
theorem lineal_step (h : ∀ edge ∈ w.edges, Lineal w edge) (hinv : ContextInv w)
    (ht : Trusted w t) (hcopies : TrustedRecords requests log w t) (hmay : may served t o) :
    ∀ edge ∈ (o.exec i w).2.edges, Lineal (o.exec i w).2 edge := by
  have hs := stable_step (i := i) ht hmay
  have hstep := provenance_step (i := i) (w := w) hmay
  generalize (o.exec i w).2 = w' at hs hstep ⊢
  generalize (o.exec i w).1 = r at hstep
  intro edge hedge
  cases hstep with
  | same _ edges_ => exact (h edge (edges_ ▸ hedge)).mono hs
  | noted _ _ _ edges_ => exact (h edge (edges_ ▸ hedge)).mono hs
  | @appended _ _ event edges write _ _ events_ edges_ =>
    have hevent : event ∈ w'.events := by
      rw [events_]
      exact List.mem_append_right _ (List.mem_singleton_self event)
    rw [edges_] at hedge
    rcases List.mem_append.mp hedge with hold | hnew
    · exact (h edge hold).mono hs
    · rcases write with happends | hrepair
      · exact happends.lineal ht hs hevent edge hnew
      · exact hrepair.lineal hinv ht hcopies hs hevent edge hnew
  | linked write _ _ _ edges_ =>
    rw [edges_] at hedge
    rcases List.mem_append.mp hedge with hold | hnew
    · exact (h edge hold).mono hs
    · obtain ⟨edge', hedge', rfl⟩ := List.mem_map.mp hnew
      exact (write.lineal hinv ht hcopies edge' hedge').mono hs

theorem lineal_of_conforms (h : Conforms requests {} log w) :
    ∀ edge ∈ w.edges, Lineal w edge := by
  induction h with
  | start => exact fun edge hedge => absurd hedge List.not_mem_nil
  | step p o i hb hmay ih =>
    exact lineal_step ih (contextInv_of_conforms hb) ((pairInv_of_conforms hb).2 p)
      ((recordInv_of_conforms hb).2 p) hmay

end Edges

/-! ## No circle -/

/-- The graph of the stored edges. -/
def Linked (w : World) (parent child : EventId) : Prop :=
  ∃ edge ∈ w.edges, edge.fromEventId = parent ∧ edge.toEventId = child

/-- How deep the kind of the event with this id lies. -/
def World.eventDepth (w : World) (id : EventId) : Nat :=
  ((find w.events id).map (·.kind.depth)).getD 0

theorem eventDepth_of_mem (hkeys : (w.events.map Keyed.key).Nodup) (h : event ∈ w.events) :
    w.eventDepth event.eventId = event.kind.depth := by
  have hfind : find w.events event.eventId = some event := find_of_mem hkeys h
  unfold World.eventDepth
  rw [hfind]
  rfl

/-- An edge leads one step deeper. -/
theorem Linked.deeper (hkeys : (w.events.map Keyed.key).Nodup)
    (hlineal : ∀ edge ∈ w.edges, Lineal w edge) {a b : EventId} (h : Linked w a b) :
    w.eventDepth a < w.eventDepth b := by
  obtain ⟨edge, hedge, rfl, rfl⟩ := h
  obtain ⟨parent, hparent, child, hchild, hfrom, hto, -, hspec⟩ := hlineal edge hedge
  rw [← hfrom, ← hto, eventDepth_of_mem hkeys hparent, eventDepth_of_mem hkeys hchild]
  exact lineageParentSpec_depth hspec

/-- **The lineage is acyclic, and each edge joins events of one intent whose kinds
`lineage_parent_spec` relates**, after any interleaving of requests and reconciler runs. -/
theorem lineage_edges_acyclic (state : AppState) (requests : Nat → Request) (s : Schedule) :
    (∀ id, ¬ Relation.TransGen (Linked (run state requests {} s).world) id id) ∧
      ∀ edge ∈ (run state requests {} s).world.edges,
        Lineal (run state requests {} s).world edge := by
  have hconforms := run_conforms state requests {} s
  have hlineal := lineal_of_conforms hconforms
  refine ⟨fun id hcircle => ?_, hlineal⟩
  have hdeeper := hcircle.lift (run state requests {} s).world.eventDepth
    fun a b hlinked => hlinked.deeper (event_keys_of_conforms hconforms) hlineal
  rw [Relation.transGen_eq_self] at hdeeper
  exact lt_irrefl _ hdeeper

/-- The chain behind the sample's execution has five edges. -/
example : (run Sample.state (Sample.requests fun _ => .haReconcilerPass) {}
    Sample.executed).world.edges.map (·.edgeType) =
      [.evaluatedByPolicy, .authorizedBy, .caused, .caused, .caused] := by decide +kernel

end FerrumGate
