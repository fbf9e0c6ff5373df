import FerrumGate.Safety.Pairs

/-!
# Outbox records and the events they name

A lifecycle handler appends its events after the transaction that stored its outbox record, and
marks them on the record one by one; a reconciler does the same under a lease. Each of these writes
puts back a whole copy of the record that its process read some time before.

`reconciled_events_stored` says what the copies cannot spoil: a `Reconciled` record has a stored
event for each of its obligations, unless an operator resolved it. The invariant (`RecordOk`) is
about copies as much as about rows: an event id in an obligation names a stored event of the
obligation's kind, whichever process wrote it and whenever it was read.
-/

namespace FerrumGate

open Interleave Interleave.Rows

variable {served : Request} {requests : Nat → Request} {t : Knowledge} {o : Op} {i : Input}
  {w w' : World} {log log' : GatewayLog} {p : Nat} {id : LifecycleOutboxId}
  {record old new outbox : LifecycleOutboxRecord} {kind : ProvenanceEventKind}

/-! ## Good records -/

/-- A stored event of this kind about the execution has this id. -/
def NamesEvent (w : World) (e : ExecutionId) (kind : ProvenanceEventKind) (eventId : EventId) :
    Prop :=
  ∃ event ∈ w.events, event.eventId = eventId ∧ event.kind = kind ∧ event.executionId = some e

variable {kind : ProvenanceEventKind} {eventId : EventId}

theorem NamesEvent.mono (hs : Stable w w') {e : ExecutionId} :
    NamesEvent w e kind eventId → NamesEvent w' e kind eventId
  | ⟨event, hmem, hrest⟩ => ⟨event, hs.events hmem, hrest⟩

/-- An operator's `resolve` has written the record. -/
def OperatorResolved (requests : Nat → Request) (log : GatewayLog) (id : LifecycleOutboxId) :
    Prop :=
  ∃ p reasonBlank record, requests p = .resolveOutbox id reasonBlank ∧ record.outboxId = id ∧
    (p, ⟨.updateOutboxRecord record true true, .ok true⟩) ∈ log

theorem OperatorResolved.mono (h : log ⊆ log') :
    OperatorResolved requests log id → OperatorResolved requests log' id
  | ⟨p, blank, record, hserved, hid, hmem⟩ => ⟨p, blank, record, hserved, hid, h hmem⟩

/-- The parent an obligation asks for is the one its kind has in the lineage. -/
def ProvenanceObligation.Regular (o : ProvenanceObligation) : Prop :=
  o.parentKind = (lineageParentSpec o.eventKind).map (·.1) ∧
    o.edgeType = (lineageParentSpec o.eventKind).map (·.2)

/-- The kinds of the events that lifecycle records owe. -/
def ProvenanceEventKind.lifecycle : ProvenanceEventKind → Bool
  | .actionProposalSubmitted | .sideEffectPrepared | .toolCallPrepared | .toolCallExecuted
  | .errorRaised | .sideEffectVerified | .sideEffectCommitted | .sideEffectCompensated
  | .sideEffectRolledBack => true
  | _ => false

/-- **What holds of every copy of an outbox record.** -/
structure RecordOk (requests : Nat → Request) (log : GatewayLog) (w : World)
    (record : LifecycleOutboxRecord) : Prop where
  owes : record.provenanceObligations ≠ []
  regular : ∀ o ∈ record.provenanceObligations, o.Regular
  lifecycle : ∀ o ∈ record.provenanceObligations, o.eventKind.lifecycle = true
  stored : ∀ o ∈ record.provenanceObligations, ∀ eventId ∈ o.eventId,
    NamesEvent w record.executionId o.eventKind eventId
  named : ∀ eventId ∈ record.provenanceEventId,
    ∃ kind, kind.lifecycle = true ∧ NamesEvent w record.executionId kind eventId
  closed : record.status = .reconciled → OperatorResolved requests log record.outboxId ∨
    ∀ o ∈ record.provenanceObligations, o.eventId.isSome = true

theorem RecordOk.mono (hlog : log ⊆ log') (hs : Stable w w')
    (h : RecordOk requests log w record) : RecordOk requests log' w' record where
  owes := h.owes
  regular := h.regular
  lifecycle := h.lifecycle
  stored o ho eventId hid := (h.stored o ho eventId hid).mono hs
  named eventId hid :=
    let ⟨kind, hkind, hnames⟩ := h.named eventId hid
    ⟨kind, hkind, hnames.mono hs⟩
  closed hstatus := (h.closed hstatus).imp_left fun hr => hr.mono hlog

theorem RecordOk.obligationsForRecord (h : RecordOk requests log w record) :
    obligationsForRecord record = record.provenanceObligations :=
  if_neg (by simpa using h.owes)

/-- A record as its transaction stores it. -/
theorem RecordOk.pending {kinds : List ProvenanceEventKind} (hkinds : kinds ≠ [])
    (hlifecycle : ∀ kind ∈ kinds, kind.lifecycle = true)
    (hobligations : record.provenanceObligations = kinds.map .pending)
    (hunnamed : record.provenanceEventId = none) (hstatus : record.status = .pendingProvenance) :
    RecordOk requests log w record where
  owes := by
    rw [hobligations]
    exact fun h => hkinds (List.map_eq_nil_iff.mp h)
  regular o ho := by
    rw [hobligations] at ho
    obtain ⟨kind, _, rfl⟩ := List.mem_map.mp ho
    exact ⟨rfl, rfl⟩
  lifecycle o ho := by
    rw [hobligations] at ho
    obtain ⟨kind, hkind, rfl⟩ := List.mem_map.mp ho
    exact hlifecycle kind hkind
  stored o ho eventId hid := by
    rw [hobligations] at ho
    obtain ⟨kind, _, rfl⟩ := List.mem_map.mp ho
    cases hid
  named eventId hid := by
    rw [hunnamed] at hid
    cases hid
  closed hclosed := by
    rw [hstatus] at hclosed
    cases hclosed

/-- An edit that leaves the obligations alone. -/
theorem RecordOk.withStatus (h : RecordOk requests log w old) (hsame : SameRecord old new)
    (hobligations : new.provenanceObligations = old.provenanceObligations)
    (hnamed : new.provenanceEventId = old.provenanceEventId)
    (hclosed : new.status = .reconciled → OperatorResolved requests log old.outboxId ∨
      ∀ o ∈ old.provenanceObligations, o.eventId.isSome = true) :
    RecordOk requests log w new where
  owes := hobligations ▸ h.owes
  regular := hobligations ▸ h.regular
  lifecycle := hobligations ▸ h.lifecycle
  stored := by
    rw [hobligations, hsame.executionId]
    exact h.stored
  named := by
    rw [hnamed, hsame.executionId]
    exact h.named
  closed := by
    rw [hobligations, hsame.outboxId]
    exact hclosed

theorem isSome_of_obligationsSatisfied (howes : record.provenanceObligations ≠ [])
    (h : record.obligationsSatisfied = true) :
    ∀ o ∈ record.provenanceObligations, o.eventId.isSome = true := by
  unfold LifecycleOutboxRecord.obligationsSatisfied at h
  rw [if_neg (by simpa using howes)] at h
  exact List.all_eq_true.mp h

/-- The obligations after a mark: those there were, and one of the kind with the event id. -/
theorem mem_fill {o : ProvenanceObligation} {l : List ProvenanceObligation}
    (h : o ∈ LifecycleOutboxRecord.markObligationWritten.fill kind eventId l) :
    o ∈ l ∨ o.eventKind = kind ∧ o.eventId = some eventId ∧
      (o = { ProvenanceObligation.pending kind with eventId := some eventId } ∨
        ∃ o' ∈ l, o = { o' with eventId := some eventId }) := by
  induction l with
  | nil =>
    obtain rfl := List.mem_singleton.mp h
    exact .inr ⟨rfl, rfl, .inl rfl⟩
  | cons first rest ih =>
    unfold LifecycleOutboxRecord.markObligationWritten.fill at h
    split at h
    · rename_i hkind
      rcases List.mem_cons.mp h with rfl | hrest
      · exact .inr ⟨hkind, rfl, .inr ⟨first, List.mem_cons_self, rfl⟩⟩
      · exact .inl (List.mem_cons_of_mem _ hrest)
    · rcases List.mem_cons.mp h with rfl | hrest
      · exact .inl List.mem_cons_self
      · rcases ih hrest with hold | ⟨hkind, hid, hform⟩
        · exact .inl (List.mem_cons_of_mem _ hold)
        · refine .inr ⟨hkind, hid, hform.imp_right ?_⟩
          rintro ⟨o', ho', rfl⟩
          exact ⟨o', List.mem_cons_of_mem _ ho', rfl⟩

theorem fill_ne_nil (l : List ProvenanceObligation) :
    LifecycleOutboxRecord.markObligationWritten.fill kind eventId l ≠ [] := by
  cases l with
  | nil => exact List.cons_ne_nil _ _
  | cons first rest =>
    unfold LifecycleOutboxRecord.markObligationWritten.fill
    split <;> exact List.cons_ne_nil _ _

/-- A mark with the id of an event that is stored. -/
theorem RecordOk.mark (h : RecordOk requests log w old) (hkind : kind.lifecycle = true)
    (hevent : NamesEvent w old.executionId kind eventId) (now : Timestamp) :
    RecordOk requests log w (old.markObligationWritten kind eventId now) := by
  have hobligations : (old.markObligationWritten kind eventId now).provenanceObligations =
      LifecycleOutboxRecord.markObligationWritten.fill kind eventId old.provenanceObligations := by
    have hempty : ¬ old.provenanceObligations.isEmpty = true := by simpa using h.owes
    unfold LifecycleOutboxRecord.markObligationWritten
    dsimp only
    rw [if_neg hempty]
  refine ⟨?_, ?_, ?_, ?_, ?_, fun hstatus => by cases hstatus⟩
  · rw [hobligations]
    exact fill_ne_nil _
  · intro o ho
    rw [hobligations] at ho
    rcases mem_fill ho with hold | ⟨-, -, rfl | ⟨o', ho', rfl⟩⟩
    · exact h.regular o hold
    · exact ⟨rfl, rfl⟩
    · exact h.regular o' ho'
  · intro o ho
    rw [hobligations] at ho
    rcases mem_fill ho with hold | ⟨hsame, -⟩
    · exact h.lifecycle o hold
    · rw [hsame]
      exact hkind
  · intro o ho eventId' hid
    rw [hobligations] at ho
    rcases mem_fill ho with hold | ⟨hsame, hid', -⟩
    · exact h.stored o hold eventId' hid
    · rw [hid'] at hid
      cases hid
      rw [hsame]
      exact hevent
  · intro eventId' hid
    cases hid
    exact ⟨kind, hkind, hevent⟩

/-! ## One step -/

section Step

variable {x : ExecutionRecord} {c : Option RollbackContract}

/-- Every transition owes an event. -/
theorem Transition.kinds_ne_nil {name : TransitionName} {x' : ExecutionRecord}
    {c' : Option RollbackContract} {kinds : List ProvenanceEventKind}
    (h : Transition t name x x' c c' kinds) : kinds ≠ [] := by
  cases h with
  | verify => split <;> exact List.cons_ne_nil _ _
  | _ => exact List.cons_ne_nil _ _

theorem Transition.kinds_lifecycle {name : TransitionName} {x' : ExecutionRecord}
    {c' : Option RollbackContract} {kinds : List ProvenanceEventKind}
    (h : Transition t name x x' c c' kinds) (hkind : kind ∈ kinds) : kind.lifecycle = true := by
  cases h with
  | verify =>
    split at hkind
    · simp only [List.mem_cons, List.not_mem_nil, or_false] at hkind
      rcases hkind with rfl | rfl <;> rfl
    · rw [List.mem_singleton.mp hkind]
      rfl
  | prepare =>
    simp only [List.mem_cons, List.not_mem_nil, or_false] at hkind
    rcases hkind with rfl | rfl <;> rfl
  | compensate =>
    rw [List.mem_singleton.mp hkind]
    split <;> rfl
  | _ =>
    rw [List.mem_singleton.mp hkind]
    rfl

/-- An event of a lifecycle kind is not appended on its own. -/
theorem Notes.not_lifecycle {event : ProvenanceEvent} (h : Notes t event) :
    event.kind.lifecycle = false := by
  have hnoted := h.noted
  generalize event.kind = kind at hnoted ⊢
  cases kind <;> first | rfl | cases hnoted

theorem TransitionWrite.pending (h : TransitionWrite served t x c outbox) :
    outbox.status = .pendingProvenance := by
  obtain ⟨_, _, _, _, _, -, -, -, houtbox⟩ := h
  rw [houtbox]
  rfl

variable {lease : CapabilityLease} {now : Timestamp}

theorem AuthorizationWrite.owes
    (h : AuthorizationWrite served t (.recordAuthorization lease x outbox now)) :
    outbox.status = .pendingProvenance ∧ outbox.kinds = [.actionProposalSubmitted] ∧
      outbox.idempotencyKey.tagsEvents = true := by
  obtain ⟨_, _, _, _, _, _, -, -, -, -, rfl, rfl⟩ := h.inv
  exact ⟨rfl, rfl, rfl⟩

theorem TransitionWrite.recordOk (h : TransitionWrite served t x c outbox) :
    RecordOk requests log w outbox := by
  obtain ⟨name, x₀, c₀, kinds, now, -, htransition, -, houtbox⟩ := id h
  exact .pending htransition.kinds_ne_nil (fun _ => htransition.kinds_lifecycle)
    (by rw [houtbox]; rfl) (by rw [houtbox]; rfl) h.pending

theorem AuthorizationWrite.recordOk
    (h : AuthorizationWrite served t (.recordAuthorization lease x outbox now)) :
    RecordOk requests log w outbox := by
  obtain ⟨_, _, _, _, _, _, -, -, -, -, rfl, rfl⟩ := h.inv
  exact .pending (List.cons_ne_nil .actionProposalSubmitted [])
    (by simp [ProvenanceEventKind.lifecycle]) rfl rfl rfl

/-- The two transactions that store a record. -/
theorem recorded_cases {y : Reply Op Op.Result} (h : recorded y = some (x, outbox)) :
    (∃ c, y = ⟨.recordLifecycleTransition x c outbox, .ok ()⟩) ∨
      ∃ lease now, y = ⟨.recordAuthorization lease x outbox now, .ok true⟩ := by
  obtain ⟨o, r⟩ := y
  cases o with
  | recordLifecycleTransition x' c outbox' =>
    rcases r with _ | _
    · cases h
    · cases h
      exact .inl ⟨c, rfl⟩
  | recordAuthorization lease x' outbox' now =>
    rcases r with _ | _ | _
    · cases h
    · cases h
    · cases h
      exact .inr ⟨lease, now, rfl⟩
  | _ => cases h

/-- A stored record owes events of lifecycle kinds. -/
theorem kinds_lifecycle_of_recorded (h : Conforms requests {} log w) {y : Reply Op Op.Result}
    (hmem : (p, y) ∈ log) (hrecorded : recorded y = some (x, outbox))
    (hkind : kind ∈ outbox.kinds) : kind.lifecycle = true := by
  obtain ⟨newer, older, hlog⟩ := List.append_of_mem hmem
  obtain ⟨_, _, _, hmay, -⟩ := h.entry hlog
  rcases recorded_cases hrecorded with ⟨c, rfl⟩ | ⟨lease, now, rfl⟩
  · obtain ⟨_, _, _, kinds, _, -, htransition, -, houtbox⟩ := hmay
    rw [houtbox, transitionRecord_kinds] at hkind
    exact htransition.kinds_lifecycle hkind
  · have hwrite : AuthorizationWrite (requests p) (own p older)
      (.recordAuthorization lease x outbox now) := hmay
    rw [hwrite.owes.2.1] at hkind
    rw [List.mem_singleton.mp hkind]
    rfl

/-- The event a handler has appended for the record it stored. -/
theorem Written.names (ht : Trusted w t) (howns : Owns t outbox)
    (h : Written t outbox kind eventId)
    (hread : Saw t (.getOutbox outbox.outboxId) (.ok (some old))) :
    NamesEvent w old.executionId kind eventId := by
  obtain ⟨event, edges, hsaw, hid, hkind, hof⟩ := h
  obtain ⟨row, hrow, hsame⟩ := ht.owned howns
  obtain ⟨row', hrow', hsame'⟩ := ht.record hread
  cases Option.some.inj (hrow.symm.trans hrow')
  refine ⟨event, ht.appended hsaw rfl, hid, hkind, ?_⟩
  rw [hof.execution, ← hsame.executionId, hsame'.executionId]

/-- The event a reconciler counts for the record it has leased. -/
theorem Adopted.names (ht : Trusted w t) (h : Adopted t record kind eventId) :
    NamesEvent w record.executionId kind eventId := by
  cases h with
  | repaired stored id kind_ execution =>
    exact ⟨_, ht.appended stored rfl, id, kind_, execution⟩
  | @discovered event events read mem id own_ =>
    obtain ⟨hstored, hmatches⟩ := ht.queried read mem
    obtain ⟨-, hexecution, -, hkind⟩ := World.ProvenanceQuery.matchesEvent_iff.mp hmatches
    exact ⟨event, hstored, id, hkind kind rfl, hexecution _ rfl⟩

/-- A copy of a record that the process has got: with a read, or with the lease on it. -/
inductive RecordCopy (t : Knowledge) : LifecycleOutboxRecord → Prop
  | read {id : LifecycleOutboxId} {record : LifecycleOutboxRecord}
      (saw : Saw t (.getOutbox id) (.ok (some record))) : RecordCopy t record
  | leased {claim : LifecycleOutboxClaim} (holds : HoldsClaim t claim) : RecordCopy t claim.record

/-- The copies of records that the process has got are good. -/
def TrustedRecords (requests : Nat → Request) (log : GatewayLog) (w : World) (t : Knowledge) :
    Prop :=
  ∀ {record}, RecordCopy t record → RecordOk requests log w record

/-- The records that the process has stored owe events of lifecycle kinds. -/
def OwedKinds (t : Knowledge) : Prop :=
  ∀ {outbox kind}, Owns t outbox → kind ∈ outbox.kinds → kind.lifecycle = true

theorem owedKinds_of_conforms (h : Conforms requests {} log w) : OwedKinds (own p log) := by
  rintro outbox kind ⟨tx, htx, x, hrecorded⟩ hkind
  exact kinds_lifecycle_of_recorded h (mem_own.mp htx) hrecorded hkind

/-- An edit of a good copy, by a handler or the operator. -/
theorem RecordEdit.recordOk {clear override : Bool} (ht : Trusted w (own p log))
    (hkinds : OwedKinds (own p log))
    (hread : Saw (own p log) (.getOutbox old.outboxId) (.ok (some old)))
    (hold : RecordOk requests log w old)
    (h : RecordEdit (requests p) (own p log) old new clear override) :
    RecordOk requests ((p, ⟨.updateOutboxRecord new clear override, .ok true⟩) :: log) w new := by
  have hlater : RecordOk requests
      ((p, ⟨.updateOutboxRecord new clear override, .ok true⟩) :: log) w old :=
    hold.mono (List.subset_cons_self _ _) (.refl w)
  have hsame := h.sameRecord
  cases h with
  | mark tail hid owed written =>
    exact hlater.mark (hkinds tail.owns owed) (written.names ht tail.owns (hid ▸ hread)) _
  | close tail hid satisfied =>
    exact hlater.withStatus hsame rfl rfl fun _ =>
      .inr (isSome_of_obligationsSatisfied hold.owes satisfied)
  | reset asked => exact hlater.withStatus hsame rfl rfl fun hstatus => by cases hstatus
  | @resolve _ _ blank asked =>
    exact hlater.withStatus hsame rfl rfl fun _ =>
      .inl ⟨p, blank, _, asked, hsame.outboxId, List.mem_cons_self⟩

/-- An edit of a good copy, under a lease. -/
theorem ClaimedEdit.recordOk {clear : Bool} {claim : LifecycleOutboxClaim} (ht : Trusted w t)
    (hclaim : HoldsClaim t claim)
    (hread : Saw t (.getOutbox claim.lease.outboxId) (.ok (some old)))
    (hclaimed : RecordOk requests log w claim.record) (hold : RecordOk requests log w old)
    (h : ClaimedEdit t claim.record old new clear) :
    RecordOk requests log w new := by
  have hsame := h.sameRecord
  cases h with
  | mark owed adopted =>
    obtain ⟨row, hrow, hrecord⟩ := ht.claimed hclaim
    obtain ⟨row', hrow', hrecord'⟩ := ht.record hread
    cases Option.some.inj (hrow.symm.trans hrow')
    have hexecution : claim.record.executionId = old.executionId := by
      rw [← hrecord.executionId, hrecord'.executionId]
    obtain ⟨obligation, ho, rfl⟩ := List.mem_map.mp owed
    rw [hclaimed.obligationsForRecord] at ho
    exact hold.mark (hclaimed.lifecycle obligation ho) (hexecution ▸ adopted.names ht) _
  | close satisfied =>
    exact hold.withStatus hsame rfl rfl fun _ =>
      .inr (isSome_of_obligationsSatisfied hold.owes satisfied)
  | giveUp status_ =>
    refine hold.withStatus hsame rfl rfl fun hstatus => ?_
    rcases status_ with rfl | rfl
    · cases hstatus
    · exact hold.closed hstatus

/-- **What a run keeps about outbox records.** -/
def RecordInv (requests : Nat → Request) (log : GatewayLog) (w : World) : Prop :=
  ∀ {id row}, find w.outbox id = some row → RecordOk requests log w row.record

theorem RecordInv.step (h : RecordInv requests log w) (ht : Trusted w (own p log))
    (hkinds : OwedKinds (own p log)) (hcopies : TrustedRecords requests log w (own p log))
    (hmay : may (requests p) (own p log) o) :
    RecordInv requests ((p, ⟨o, (o.exec i w).1⟩) :: log) (o.exec i w).2 := by
  intro id row' hrow'
  have hs := stable_step (i := i) ht hmay
  have hstep := outbox_step (i := i) (w := w) hmay id
  rw [hrow'] at hstep
  generalize hrow : find w.outbox id = row at hstep
  generalize (o.exec i w).2 = w' at hs ⊢
  generalize (o.exec i w).1 = r at hstep ⊢
  have hlog : log ⊆ (p, ⟨o, r⟩) :: log := List.subset_cons_self _ _
  cases hstep with
  | same => exact (h hrow).mono hlog hs
  | transition _ write => exact write.recordOk
  | authorized _ write => exact write.recordOk
  | edited id_ read change =>
    subst id_
    exact (change.recordOk ht hkinds read (hcopies (.read read))).mono (List.Subset.refl _) hs
  | claimedEdit holds lease_ id_ read change =>
    subst lease_
    exact (change.recordOk ht holds read (hcopies (.leased holds)) (hcopies (.read read))).mono
      hlog hs
  | leased => exact (h hrow).mono hlog hs
  | renewed => exact (h hrow).mono hlog hs

end Step

/-! ## Whole runs -/

/-- Rows and the copies that processes have read are good. -/
theorem recordInv_of_conforms (h : Conforms requests {} log w) :
    RecordInv requests log w ∧ ∀ p, TrustedRecords requests log w (own p log) := by
  have hread : ∀ {log w}, (∀ e ∈ log, Seen Op.exec
      (fun log₁ w₁ => log₁ ⊆ log ∧ RecordInv requests log₁ w₁) Stable w e.2) →
      ∀ p, TrustedRecords requests log w (own p log) := by
    intro log w hseen p record hcopy
    cases hcopy with
    | read saw =>
      obtain ⟨log₁, w₁, i, ⟨hsubset, hinv⟩, hr, hstep, hstable⟩ := hseen _ (mem_own.mp saw)
      obtain ⟨row, hrow, rfl⟩ := Option.map_eq_some_iff.mp (readWith_ok hr.symm).symm
      exact (hinv hrow).mono hsubset (hstep.trans _ _ _ hstable)
    | leased holds =>
      obtain ⟨limit, owner, now, ttl, claims, saw, hmem⟩ := holds
      obtain ⟨log₁, w₁, i, ⟨hsubset, hinv⟩, hr, hstep, hstable⟩ := hseen _ (mem_own.mp saw)
      obtain ⟨row, hrow, hrecord⟩ := claimed_before hr.symm hmem
      exact hrecord ▸ (hinv hrow).mono hsubset (hstep.trans _ _ _ hstable)
  have hhistory := Behaviour.history (RecordInv requests) Stable Stable.refl Stable.trans
    (fun h => by cases h)
    (fun {log w} p o i hb hinv hseen hmay => by
      have ht := (pairInv_of_conforms hb).2 p
      exact ⟨hinv.step ht (owedKinds_of_conforms hb) (hread hseen p) hmay, stable_step ht hmay⟩) h
  exact ⟨hhistory.1, hread hhistory.2.2⟩

theorem outbox_keys_of_conforms (h : Conforms requests {} log w) :
    (w.outbox.map Keyed.key).Nodup := by
  induction h with
  | start => exact List.nodup_nil
  | step p o i _ _ ih => exact outbox_keys_step ih

theorem event_keys_of_conforms (h : Conforms requests {} log w) :
    (w.events.map Keyed.key).Nodup := by
  induction h with
  | start => exact List.nodup_nil
  | step p o i _ _ ih => exact event_keys_step ih

/-- Every stored event has been appended. -/
theorem event_logged (h : Conforms requests {} log w) {event : ProvenanceEvent}
    (hevent : event ∈ w.events) : ∃ p e, (p, e) ∈ log ∧ appended e = some event := by
  induction h with
  | start => cases hevent
  | step p o i _ hmay ih =>
    rcases event_cases hmay hevent with hold | ⟨hnew, -⟩
    · obtain ⟨q, e, hmem, he⟩ := ih hold
      exact ⟨q, e, List.mem_cons_of_mem _ hmem, he⟩
    · exact ⟨p, _, List.mem_cons_self, hnew⟩

/-- An event that a reconciler looks up is there: the obligation that names it was marked after the
append. -/
theorem lookUp_finds (h : Conforms requests {} log w) :
    (p, ⟨.getEvent eventId, .ok none⟩) ∉ log := by
  intro hmem
  obtain ⟨newer, older, hlog⟩ := List.append_of_mem hmem
  obtain ⟨w₁, i, hconforms, hmay, hreply⟩ := h.entry hlog
  obtain ⟨claim, obligation, hclaim, howed, hid⟩ := hmay
  have hok := (recordInv_of_conforms hconforms).2 p (.leased hclaim)
  rw [hok.obligationsForRecord] at howed
  obtain ⟨event, hstored, heventId, -⟩ := hok.stored obligation howed eventId hid
  have hnone := readWith_ok hreply.symm
  exact find_eq_none.mp hnone.symm event hstored heventId

/-- **A `Reconciled` record has its events**: in every state that a run of the gateway from the
empty store reaches, a process may stop anywhere, a record with the status `Reconciled` that no
operator resolved has an event id for every obligation, and each id is that of a stored event. -/
theorem reconciled_events_stored (state : AppState) (requests : Nat → Request) (s : Schedule)
    (id : LifecycleOutboxId) (row : OutboxRow)
    (hrow : find (run state requests {} s).world.outbox id = some row)
    (hstatus : row.record.status = .reconciled)
    (hunresolved : ¬ OperatorResolved requests (run state requests {} s).log id) :
    row.record.provenanceObligations ≠ [] ∧
    ∀ o ∈ row.record.provenanceObligations, ∃ eventId, o.eventId = some eventId ∧
      NamesEvent (run state requests {} s).world row.record.executionId o.eventKind eventId := by
  have hok := (recordInv_of_conforms (run_conforms state requests {} s)).1 hrow
  have hid : row.record.outboxId = id := find_key hrow
  refine ⟨hok.owes, fun o ho => ?_⟩
  rcases hok.closed hstatus with hresolved | hsome
  · exact absurd (hid ▸ hresolved) hunresolved
  · obtain ⟨eventId, heventId⟩ := Option.isSome_iff_exists.mp (hsome o ho)
    exact ⟨eventId, heventId, hok.stored o ho eventId heventId⟩

/-- The record of the sample's `prepare` was closed by its handler, and has both of its events. -/
theorem reconciled_events_stored_sample :
    ∃ row, find (run Sample.state (Sample.requests fun _ => .haReconcilerPass) {}
        Sample.executed).world.outbox ⟨10⟩ = some row ∧
      row.record.status = .reconciled ∧ row.record.provenanceObligations ≠ [] ∧
      ∀ o ∈ row.record.provenanceObligations, ∃ eventId, o.eventId = some eventId ∧
        NamesEvent (run Sample.state (Sample.requests fun _ => .haReconcilerPass) {}
          Sample.executed).world row.record.executionId o.eventKind eventId := by
  have hstatus : (find (run Sample.state (Sample.requests fun _ => .haReconcilerPass) {}
      Sample.executed).world.outbox ⟨10⟩).map (·.record.status) = some .reconciled := by
    decide +kernel
  obtain ⟨row, hrow, hreconciled⟩ := Option.map_eq_some_iff.mp hstatus
  refine ⟨row, hrow, hreconciled, reconciled_events_stored _ _ _ _ row hrow hreconciled ?_⟩
  rintro ⟨p, _, _, hserved, -⟩
  match p, hserved with
  | 0, h | 1, h | 2, h | 3, h | 4, h | 5, h | _ + 6, h => cases h

end FerrumGate
