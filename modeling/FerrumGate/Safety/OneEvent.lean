import FerrumGate.Safety.Handover
import FerrumGate.Safety.Terminal

/-!
# One event per obligation

The handler appends the events of its outbox record outside the transaction that stored the record,
and a reconcile run appends those it does not find. `one_event_per_obligation` says when the two do
not meet: a handler that has answered with success has left exactly one event for each obligation of
its record, in every run in which no reconcile run leases the record before all its obligations are
marked. `obligation_written_twice` is a run in which one does.

Events of a compensation and of a cancelation do not name their record. They are told apart by the
execution: an execution has at most one such record for each kind of event (`untagged_once`).
-/

namespace FerrumGate

open Interleave Interleave.Rows

variable {served : Request} {requests : Nat → Request} {t : Knowledge} {o : Op} {i : Input}
  {w : World} {log : GatewayLog} {p q : Nat} {e : ExecutionId} {kind : ProvenanceEventKind}
  {outbox : LifecycleOutboxRecord}

/-! ## Events of a record -/

/-- The event is one for the obligation of this kind: it names the record, or it is about the
record's execution and the record is one whose handler does not name it. -/
def eventFor (outbox : LifecycleOutboxRecord) (kind : ProvenanceEventKind)
    (event : ProvenanceEvent) : Bool :=
  event.kind = kind && event.executionId = some outbox.executionId &&
    (event.metadata.lifecycleOutboxId = some outbox.outboxId ||
      !outbox.idempotencyKey.tagsEvents && event.metadata.lifecycleOutboxId = none)

/-- A reconcile run leases the record while an obligation of it is not marked. -/
def leasedUnmarked (id : LifecycleOutboxId) : Reply Op Op.Result → Bool
  | ⟨.claimPendingReconciliation _ _ _ _, .ok claims⟩ =>
    claims.any fun c => c.lease.outboxId = id && !c.record.obligationsSatisfied
  | _ => false

/-- **Reconcile runs lease the record only when all its obligations are marked.** -/
def MarkedWhenLeased (id : LifecycleOutboxId) (log : GatewayLog) : Prop :=
  ∀ entry ∈ log, leasedUnmarked id entry.2 = false

variable {event : ProvenanceEvent}

/-- The event that a repair appends names a record that was leased with an open obligation. -/
theorem Repair.unmarked (h : Conforms requests {} log w) {edges : List ProvenanceEdge}
    (hrepair : Repair (own p log) event edges) {id : LifecycleOutboxId}
    (hid : event.metadata.lifecycleOutboxId = some id) : ¬ MarkedWhenLeased id log := by
  intro hmarked
  cases hrepair with
  | @mk claim x contract obligation eventId now parentKind parent claimed read contract_ owed
      missing searched spec only =>
    have hok := (recordInv_of_conforms h).2 p (.leased claimed)
    obtain ⟨row, hrow, hsame⟩ := ((pairInv_of_conforms h).2 p).claimed claimed
    have hlease : claim.lease.outboxId = id := by
      have hrecord : claim.record.outboxId = id := Option.some.inj hid
      rw [← hrecord, ← hsame.outboxId]
      exact (find_key hrow).symm
    cases hevent : obligation.eventId with
    | some eventId' => exact lookUp_finds h (mem_own.mp (missing eventId' hevent))
    | none =>
      obtain ⟨limit, owner, now', ttl, claims, hsaw, hmem⟩ := claimed
      have hleased : claims.any (fun c => c.lease.outboxId = id &&
          !c.record.obligationsSatisfied) = false := hmarked _ (mem_own.mp hsaw)
      have hsatisfied : claim.record.obligationsSatisfied = true := by
        simpa [hlease] using List.any_eq_false.mp hleased claim hmem
      rw [hok.obligationsForRecord] at owed
      have hsome := isSome_of_obligationsSatisfied hok.owes hsatisfied obligation owed
      rw [hevent] at hsome
      cases hsome

/-! ## Records whose events do not name them -/

/-- The key of a compensation that did not recover an execution in `RecoveryRequired`. -/
def recoveryKey (e : ExecutionId) : IdempotencyKey :=
  .transition .compensate e .recoveryRequired (some .recoveryRequired)

/-- A record of a compensation or a cancelation: it ended the execution, or it is the one attempt
in `RecoveryRequired`. -/
inductive UntaggedWrite (served : Request) (x : ExecutionRecord) (outbox : LifecycleOutboxRecord)
    (kind : ProvenanceEventKind) : Prop
  | ended (terminal : executionStateIsTerminal x.state = true)
      (before : kind = .errorRaised → outbox.previousExecutionState ≠ some .recoveryRequired)
  | attempt (kind_ : kind = .errorRaised) (state : x.state = .recoveryRequired)
      (asked : served.compensates x.executionId = true)
      (key : outbox.idempotencyKey = recoveryKey x.executionId)

variable {x : ExecutionRecord}

theorem TransitionWrite.untagged {c : Option RollbackContract}
    (h : TransitionWrite served t x c outbox)
    (huntagged : outbox.idempotencyKey.tagsEvents = false) (hkind : kind ∈ outbox.kinds) :
    UntaggedWrite served x outbox kind := by
  obtain ⟨name, x₀, c₀, kinds, now, hasked, htransition, -, houtbox⟩ := h
  have hcompensates := compensates_of_asksFor hasked
  have hprevious : outbox.previousExecutionState = some x₀.state := by
    rw [houtbox]
    rfl
  have hkinds : kind ∈ kinds := by
    rw [houtbox, transitionRecord_kinds] at hkind
    exact hkind
  rw [houtbox] at huntagged
  cases htransition with
  | cancel =>
    rw [List.mem_singleton.mp hkinds]
    exact .ended rfl (by simp)
  | @compensate _ d receipt finishedAt pair allowed =>
    rw [List.mem_singleton.mp hkinds]
    rcases allowed with hawaits | hrecovery
    · refine .ended ?_ fun _ hrecovery => ?_
      · have hnot : inRecovery d x₀ = false := by
          have hunderway := (underway_open (awaitsVerification_underway hawaits)).2
          simp [inRecovery, hunderway]
        rw [hnot]
        cases receipt.recovered <;> rfl
      · rw [hprevious] at hrecovery
        exact (underway_open (awaitsVerification_underway hawaits)).2 (Option.some.inj hrecovery)
    · rw [hrecovery] at houtbox ⊢
      cases hrecovered : receipt.recovered with
      | true => exact .ended rfl (by simp)
      | false =>
        refine .attempt rfl rfl hcompensates ?_
        rw [houtbox]
        change IdempotencyKey.transition .compensate _ (compensatedState receipt.recovered true)
          (some (compensatedContractState receipt.recovered true)) = _
        rw [hrecovered]
        rfl
  | _ => cases huntagged

/-- The transaction of such a record about the execution, with an obligation of this kind. -/
def untaggedFor (e : ExecutionId) (kind : ProvenanceEventKind) (y : Reply Op Op.Result) : Bool :=
  (recorded y).any fun r =>
    !r.2.idempotencyKey.tagsEvents && r.2.executionId = e && r.2.kinds.contains kind

variable {y : Reply Op Op.Result}

theorem untaggedFor_iff :
    untaggedFor e kind y = true ↔ ∃ x outbox, recorded y = some (x, outbox) ∧
      outbox.idempotencyKey.tagsEvents = false ∧ outbox.executionId = e ∧ kind ∈ outbox.kinds := by
  unfold untaggedFor
  cases recorded y with
  | none => simp
  | some r => simp [Prod.ext_iff, and_assoc]

/-- It is the transaction of a compensation or of a cancelation. -/
theorem untaggedFor_write (h : Conforms requests {} log w) (hmem : (p, y) ∈ log)
    (huntagged : untaggedFor e kind y = true) :
    ∃ x c outbox, y = ⟨.recordLifecycleTransition x c outbox, .ok ()⟩ ∧ x.executionId = e ∧
      UntaggedWrite (requests p) x outbox kind := by
  obtain ⟨newer, older, hlog⟩ := List.append_of_mem hmem
  obtain ⟨w₁, j, _, hmay, -⟩ := h.entry hlog
  obtain ⟨x, outbox, hrecorded, hkey, hexecution, hkind⟩ := untaggedFor_iff.mp huntagged
  rcases recorded_cases hrecorded with ⟨c, rfl⟩ | ⟨lease, now, rfl⟩
  · have hwrite : TransitionWrite (requests p) (own p older) x c outbox := hmay
    exact ⟨x, c, outbox, rfl, hwrite.names.1.symm.trans hexecution, hwrite.untagged hkey hkind⟩
  · have hwrite : AuthorizationWrite (requests p) (own p older)
      (.recordAuthorization lease x outbox now) := hmay
    rw [hwrite.owes.2.2] at hkey
    cases hkey

/-- What is left of such a record in the store. -/
theorem untaggedFor_stored (h : Conforms requests {} log w) (hmem : (p, y) ∈ log)
    (huntagged : untaggedFor e kind y = true) :
    (∃ s, executionStateIsTerminal s = true ∧ RecordedAs w e s) ∨
      kind = .errorRaised ∧ Unrecovered requests log e ∧ KeyTaken w (recoveryKey e) := by
  obtain ⟨x, c, outbox, rfl, rfl, hwrite⟩ := untaggedFor_write h hmem huntagged
  obtain ⟨newer, older, hlog⟩ := List.append_of_mem hmem
  obtain ⟨row, hrow, hsame⟩ := ((pairInv_of_conforms h).2 p).owned
    ⟨_, mem_own.mpr hmem, x, rfl⟩
  obtain ⟨_, _, _, hmay, -⟩ := h.entry hlog
  obtain ⟨hexecution, hstate⟩ := TransitionWrite.names hmay
  cases hwrite with
  | ended terminal _ =>
    exact .inl ⟨x.state, terminal, outbox.outboxId, row, hrow,
      hsame.executionId.trans hexecution, hsame.newExecutionState.trans hstate⟩
  | attempt kind_ state asked key =>
    exact .inr ⟨kind_, ⟨p, x, c, outbox, hmem, rfl, asked, state⟩,
      ⟨outbox.outboxId, row, hrow, hsame.idempotencyKey.trans key⟩⟩

/-- **An execution has at most one such record for a kind of event.** -/
theorem untagged_once (h : Conforms requests {} log w) (e : ExecutionId)
    (kind : ProvenanceEventKind) : Once (untaggedFor e kind) log := by
  induction h with
  | start => exact .nil
  | @step log w p o i hb hmay ih =>
    refine List.pairwise_cons.mpr ⟨?_, ih⟩
    rintro ⟨q, y⟩ hy ⟨hnew, hold⟩
    have hb' := Behaviour.step p o i hb hmay
    obtain ⟨x, c, outbox, heq, rfl, hwrite⟩ := untaggedFor_write hb' List.mem_cons_self hnew
    obtain ⟨rfl, hr⟩ := Sigma.mk.inj heq
    obtain ⟨⟨row, hrow, hprevious, hvalid⟩, -, -⟩ := transition_stored (eq_of_heq hr)
    have hopen := not_terminal_of_valid hvalid
    rcases untaggedFor_stored hb hy hold with ⟨s, hterminal, hrecorded⟩ | ⟨rfl, hunrecovered, hkey⟩
    · have hstate := ((terminalInv_of_conforms hb).settled hrecorded hterminal).1
      obtain ⟨row', hrow', rfl⟩ := Option.map_eq_some_iff.mp hstate
      cases Option.some.inj (hrow.symm.trans hrow')
      rw [hterminal] at hopen
      cases hopen
    · have hrecovery := ((finishInv_of_conforms hb).rows hrow).open_ hopen |>.2.1
      rw [show row.executionId = x.executionId from find_key hrow] at hrecovery
      cases hwrite with
      | ended _ before =>
        rw [hrecovery hunrecovered] at hprevious
        exact before rfl hprevious
      | attempt _ _ _ key => exact transition_key_free (eq_of_heq hr) (key ▸ hkey)

/-- After an attempt in `RecoveryRequired` the execution is not canceled any more. -/
theorem unrecovered_not_canceled (h : Conforms requests {} log w)
    (hu : Unrecovered requests log e) : w.executionState e ≠ some .canceled := by
  induction h with
  | start =>
    obtain ⟨_, _, _, _, hmem, -⟩ := hu
    cases hmem
  | @step log w p o i hb hmay ih =>
    intro hcanceled
    obtain ⟨x', hx', hstate'⟩ := Option.map_eq_some_iff.mp hcanceled
    have hopen : ∀ {row}, find w.executions e = some row →
        executionStateIsTerminal row.state = false → Unrecovered requests log e →
        row.state = .recoveryRequired := by
      intro row hrow hopen hu
      have hrecovery := ((finishInv_of_conforms hb).rows hrow).open_ hopen |>.2.1
      rw [show row.executionId = e from find_key hrow] at hrecovery
      exact hrecovery hu
    cases hy : transitions e ⟨o, (o.exec i w).1⟩ with
    | true =>
      obtain ⟨x, c, outbox, heq, rfl⟩ := transitions_true hy
      obtain ⟨rfl, hr⟩ := Sigma.mk.inj heq
      obtain ⟨⟨row, hrow, -, hvalid⟩, hnew, -⟩ := transition_stored (eq_of_heq hr)
      cases Option.some.inj (hx'.symm.trans hnew)
      rw [eq_of_heq hr] at hu
      rcases recordedFor_transition.mp hu with ⟨-, hrecovery⟩ | hold
      · rw [hrecovery] at hstate'
        cases hstate'
      · rw [hopen hrow (not_terminal_of_valid hvalid) hold, hstate'] at hvalid
        cases hvalid
    | false =>
      have hold := (recordedFor_other hy).mp hu
      have hstep := execution_step (i := i) (w := w) hmay e
      rw [hx'] at hstep
      generalize hrow : find w.executions e = row at hstep
      generalize (o.exec i w).1 = r at hstep hy
      cases hstep with
      | same => exact ih hold (by rw [World.executionState, hrow]; exact congrArg some hstate')
      | authorized _ write => exact ((finishInv_of_conforms hb).absent hrow).2 hold
      | claimed => cases hstate'
      | @canceled y _ _ _ _ _ _ cancelable =>
        rw [hopen hrow (cancelable_not_terminal cancelable) hold] at cancelable
        cases cancelable
      | transition id_ => exact absurd hy (by simp [transitions, id_])

/-- Such a record and the HA reconciler's cancelation exclude each other. -/
theorem untagged_not_haCanceled (h : Conforms requests {} log w) (hmem : (p, y) ∈ log)
    (huntagged : untaggedFor e kind y = true) : ¬ HaCanceled requests log e := by
  intro hcanceled
  rcases untaggedFor_stored h hmem huntagged with ⟨s, hterminal, hrecorded⟩ | ⟨-, hunrecovered, -⟩
  · exact ((terminalInv_of_conforms h).settled hrecorded hterminal).2 hcanceled
  · exact unrecovered_not_canceled h hunrecovered ((terminalInv_of_conforms h).canceled hcanceled)

/-! ## Where the events of a record come from -/

/-- The event says which record it is for, as the record's handler does. -/
structure Credits (outbox : LifecycleOutboxRecord) (event : ProvenanceEvent) : Prop where
  execution : event.executionId = some outbox.executionId
  tagged : outbox.idempotencyKey.tagsEvents = true →
    event.metadata.lifecycleOutboxId = some outbox.outboxId
  untagged : outbox.idempotencyKey.tagsEvents = false → event.metadata.lifecycleOutboxId = none

/-- An event of a lifecycle kind that the gateway appends: its own record owes it and it is the
first of its kind, or the HA reconciler reports a cancelation. -/
inductive LifecycleEvent (t : Knowledge) (event : ProvenanceEvent) : Prop
  | owed {x : ExecutionRecord} {outbox : LifecycleOutboxRecord} {kinds : List ProvenanceEventKind}
      (tail : Tail t x outbox kinds) (first : event.kind ∉ kinds) (owes : event.kind ∈ outbox.kinds)
      (credits : Credits outbox event)
  | haCanceled {x : ExecutionRecord} {finishedAt : Timestamp}
      (canceled : Saw t (.compareAndSetState x.executionId [x.state] .canceled finishedAt)
        (.ok true)) (kind_ : event.kind = .errorRaised)
      (execution : event.executionId = some x.executionId)
      (untagged : event.metadata.lifecycleOutboxId = none)

theorem Announces.lifecycleEvent (h : Announces t event) (hkind : event.kind.lifecycle = true) :
    LifecycleEvent t event := by
  cases h with
  | lifecycle tail first owed same event_ =>
    exact .owed tail first owed ⟨event_.execution, fun htags => by rw [event_.tagged htags]; rfl,
      event_.untagged⟩
  | haCanceled canceled => exact .haCanceled canceled rfl rfl rfl
  | holdDecided kind_ =>
    change ProvenanceEventKind.lifecycle _ = true at hkind
    rcases kind_ with rfl | rfl <;> cases hkind
  | _ => cases hkind

theorem Appends.lifecycleEvent {edges : List ProvenanceEdge} (h : Appends t event edges)
    (hkind : event.kind.lifecycle = true) : LifecycleEvent t event := by
  cases h with
  | root announced => exact announced.lifecycleEvent hkind
  | linked announced => exact announced.lifecycleEvent hkind
  | orphan announced =>
    cases announced.lifecycleEvent hkind with
    | owed tail first owes credits =>
      exact .owed tail first owes ⟨credits.execution, credits.tagged, credits.untagged⟩
    | haCanceled canceled kind_ execution untagged =>
      exact .haCanceled canceled kind_ execution untagged

/-- A record as its transaction stored it. -/
theorem recordOk_of_recorded (h : Conforms requests {} log w) (hmem : (p, y) ∈ log)
    (hrecorded : recorded y = some (x, outbox)) : RecordOk requests log w outbox := by
  obtain ⟨newer, older, hlog⟩ := List.append_of_mem hmem
  obtain ⟨_, _, _, hmay, -⟩ := h.entry hlog
  rcases recorded_cases hrecorded with ⟨c, rfl⟩ | ⟨lease, now, rfl⟩
  · exact TransitionWrite.recordOk hmay
  · exact AuthorizationWrite.recordOk hmay

/-- A compare-and-set to `Canceled` is the HA reconciler's. -/
theorem haCanceled_of_won (h : Conforms requests {} log w) {expected : List ExecutionState}
    {now : Timestamp} (hmem : (p, ⟨.compareAndSetState e expected .canceled now, .ok true⟩) ∈ log) :
    HaCanceled requests log e := by
  obtain ⟨newer, older, hlog⟩ := List.append_of_mem hmem
  obtain ⟨_, _, _, hmay, -⟩ := h.entry hlog
  have hwrite : StateWrite (requests p) (own p older)
    (.compareAndSetState e expected .canceled now) := hmay
  rcases hwrite.cases with ⟨_, _, _, _, hnew, _⟩ | ⟨_, hasked, _⟩
  · cases hnew
  · exact ⟨p, expected, now, hasked, hmem⟩

/-- **An event for an obligation was appended by the handler of the record**, as the first one of
its kind after the transaction. -/
theorem eventFor_origin (h : Conforms requests {} log w) {tx : Reply Op Op.Result}
    (htx : (p, tx) ∈ log) (hrecorded : recorded tx = some (x, outbox))
    (hkind : kind ∈ outbox.kinds) (hmarked : MarkedWhenLeased outbox.outboxId log)
    (hevent : event ∈ w.events) (hfor : eventFor outbox kind event = true) :
    ∃ y newer older x' kinds, log = newer ++ (p, y) :: older ∧ appended y = some event ∧
      Tail (own p older) x' outbox kinds ∧ kind ∉ kinds := by
  obtain ⟨q, ⟨o, r⟩, hmem, happended⟩ := event_logged h hevent
  obtain ⟨newer, older, hlog⟩ := List.append_of_mem hmem
  obtain ⟨w₁, j, hconforms, hmay, -⟩ := h.entry hlog
  have hsub : older ⊆ log := by
    rw [hlog]
    exact fun z hz => List.mem_append_right _ (List.mem_cons_of_mem _ hz)
  simp only [eventFor, Bool.and_eq_true, decide_eq_true_eq, Bool.or_eq_true,
    Bool.not_eq_true'] at hfor
  obtain ⟨⟨rfl, hexecution⟩, htag⟩ := hfor
  have hlifecycle := kinds_lifecycle_of_recorded h htx hrecorded hkind
  cases o with
  | appendEvent event' =>
    rcases r with _ | _ <;> cases happended
    rw [Notes.not_lifecycle hmay.1] at hlifecycle
    cases hlifecycle
  | appendEventWithEdges event' edges =>
    rcases r with _ | _ <;> cases happended
    rcases hmay.1 with happends | hrepair
    · cases happends.lifecycleEvent hlifecycle with
      | @owed x' outbox' kinds tail first owes credits =>
        -- the record that the event is credited to is the one of the transaction
        have hsame : (p, tx) = (q, tx) ∧ outbox' = outbox := by
          obtain ⟨tx', hmem', y, htx'⟩ := tail.owns
          have hmem' := hsub (mem_own.mp hmem')
          have hentry : (p, tx) = (q, tx') := by
            cases htags : outbox'.idempotencyKey.tagsEvents with
            | true =>
              rw [credits.tagged htags] at htag
              have hid : outbox'.outboxId = outbox.outboxId := by simpa using htag
              exact (recorded_once h outbox.outboxId).1.eq htx hmem'
                (records_iff.mpr ⟨x, outbox, hrecorded, rfl⟩)
                (records_iff.mpr ⟨y, outbox', htx', hid⟩)
            | false =>
              rw [credits.untagged htags] at htag
              have huntagged : outbox.idempotencyKey.tagsEvents = false := by simpa using htag
              have hid : outbox'.executionId = outbox.executionId :=
                Option.some.inj (credits.execution.symm.trans hexecution)
              exact (untagged_once h outbox.executionId _).eq htx hmem'
                (untaggedFor_iff.mpr ⟨x, outbox, hrecorded, huntagged, rfl, hkind⟩)
                (untaggedFor_iff.mpr ⟨y, outbox', htx', htags, hid, owes⟩)
          obtain ⟨rfl, rfl⟩ := Prod.mk.inj hentry
          exact ⟨rfl, (Prod.mk.inj (Option.some.inj (htx'.symm.trans hrecorded))).2⟩
        obtain ⟨hp, rfl⟩ := hsame
        obtain ⟨rfl, -⟩ := Prod.mk.inj hp
        exact ⟨_, newer, older, x', kinds, hlog, rfl, tail, first⟩
      | haCanceled canceled kind_ execution untagged =>
        rw [untagged] at htag
        have huntagged : outbox.idempotencyKey.tagsEvents = false := by simpa using htag
        have hcanceled := haCanceled_of_won h (hsub (mem_own.mp canceled))
        rw [Option.some.inj (execution.symm.trans hexecution)] at hcanceled
        exact (untagged_not_haCanceled h htx
          (untaggedFor_iff.mpr ⟨x, outbox, hrecorded, huntagged, rfl, hkind⟩) hcanceled).elim
    · have hid : event.metadata.lifecycleOutboxId = some outbox.outboxId := by
        rcases htag with hid | ⟨-, hnone⟩
        · exact hid
        · cases hrepair
          cases hnone
      exact (hrepair.unmarked hconforms hid fun z hz => hmarked z (hsub hz)).elim
  | _ => cases happended

theorem not_records_of_appended (h : appended y = some event) (id : LifecycleOutboxId) :
    records id y = false := by
  obtain ⟨o, r⟩ := y
  cases o with
  | appendEvent | appendEventWithEdges => rfl
  | _ => cases h

/-- A first event of its kind has no older one of the same record. -/
theorem Tail.no_older (h : Conforms requests {} log w) {x' : ExecutionRecord}
    {kinds kinds' : List ProvenanceEventKind} (htail : Tail (own p log) x outbox kinds)
    {mid older : GatewayLog} (hsplit : log = mid ++ (p, y) :: older)
    (happended : appended y = some event) (htail' : Tail (own p older) x' outbox kinds') :
    event.kind ∈ kinds := by
  obtain ⟨tx, hmem, z, htx⟩ := htail'.owns
  have hown : own p log = own p mid ++ y :: own p older := by
    rw [hsplit, own_append, own_cons_self]
  exact (htail.recent h hown (not_records_of_appended happended _) hmem
    (records_iff.mpr ⟨z, outbox, htx, rfl⟩)).1 event happended

theorem eventFor_unique (h : Conforms requests {} log w) {tx : Reply Op Op.Result}
    (htx : (p, tx) ∈ log) (hrecorded : recorded tx = some (x, outbox))
    (hkind : kind ∈ outbox.kinds) (hmarked : MarkedWhenLeased outbox.outboxId log)
    {event₁ event₂ : ProvenanceEvent} (hevent₁ : event₁ ∈ w.events)
    (hfor₁ : eventFor outbox kind event₁ = true) (hevent₂ : event₂ ∈ w.events)
    (hfor₂ : eventFor outbox kind event₂ = true) : event₁ = event₂ := by
  have hkindOf : ∀ {event}, eventFor outbox kind event = true → event.kind = kind := by
    intro event hfor
    simp only [eventFor, Bool.and_eq_true, decide_eq_true_eq] at hfor
    exact hfor.1.1
  obtain ⟨y₁, newer₁, older₁, x₁, kinds₁, hlog₁, happended₁, htail₁, hfirst₁⟩ :=
    eventFor_origin h htx hrecorded hkind hmarked hevent₁ hfor₁
  obtain ⟨y₂, newer₂, older₂, x₂, kinds₂, hlog₂, happended₂, htail₂, hfirst₂⟩ :=
    eventFor_origin h htx hrecorded hkind hmarked hevent₂ hfor₂
  obtain ⟨_, _, hb₁, -⟩ := h.entry hlog₁
  obtain ⟨_, _, hb₂, -⟩ := h.entry hlog₂
  rcases List.append_eq_append_iff.mp (hlog₁.symm.trans hlog₂) with ⟨as, -, has⟩ | ⟨as, -, has⟩
  · cases as with
    | nil =>
      obtain ⟨hy, -⟩ := List.cons.inj has
      obtain ⟨-, rfl⟩ := Prod.mk.inj hy
      exact Option.some.inj (happended₁.symm.trans happended₂)
    | cons a as =>
      have hin := htail₁.no_older hb₁ (List.cons.inj has).2 happended₂ htail₂
      exact absurd (hkindOf hfor₂ ▸ hin) hfirst₁
  · cases as with
    | nil =>
      obtain ⟨hy, -⟩ := List.cons.inj has
      obtain ⟨-, rfl⟩ := Prod.mk.inj hy
      exact Option.some.inj (happended₁.symm.trans happended₂)
    | cons a as =>
      have hin := htail₂.no_older hb₂ (List.cons.inj has).2 happended₁ htail₁
      exact absurd (hkindOf hfor₁ ▸ hin) hfirst₂

/-! ## Whole runs -/

/-- The answer of a lifecycle handler that has gone through. -/
def succeeds : Request → Response → Bool
  | .authorize _ _, .authorized (.ok _) | .prepare _ _, .prepared (.ok _)
  | .execute _ _ _, .executed (.ok _) | .verify _ _, .verified (.ok _)
  | .commit _ _, .committed (.ok _) | .compensate _ _, .compensated (.ok _)
  | .cancel _ _, .canceled (.ok _) => true
  | _, _ => false

/-- Process `p` is a lifecycle handler that has answered with success. -/
def Gateway.answered (gateway : Gateway) (requests : Nat → Request) (p : Nat) : Bool :=
  match gateway.procs p with
  | .pure response => succeeds (requests p) response
  | .perform _ _ => false

theorem Answers.settled {request : Request} {response : Response} (h : Answers request response t)
    (hok : succeeds request response = true) : ∃ outbox, Settled t outbox := by
  have hsettles : ∀ {id kinds}, Settles t id kinds → ∃ outbox, Settled t outbox :=
    fun ⟨outbox, _, _, hsettled⟩ => ⟨outbox, hsettled⟩
  unfold succeeds at hok
  split at hok
  · exact hsettles h
  · exact hsettles h
  · exact hsettles h.choose_spec
  · exact hsettles h.choose_spec
  · exact hsettles h
  · exact hsettles h.choose_spec
  · exact hsettles h
  · cases hok

/-- **Exactly one event per obligation**: in every run from the empty store, a lifecycle handler
that has answered with success has stored an outbox record with obligations, and each of them has
exactly one stored event, provided that reconcile runs lease the record only when all its
obligations are marked. -/
theorem one_event_per_obligation (state : AppState) (requests : Nat → Request) (s : Schedule)
    (p : Nat) (hanswered : (run state requests {} s).answered requests p = true) :
    ∃ outbox, Owns (own p (run state requests {} s).log) outbox ∧ outbox.kinds ≠ [] ∧
      (MarkedWhenLeased outbox.outboxId (run state requests {} s).log →
        ∀ kind ∈ outbox.kinds,
          (run state requests {} s).world.events.countP (eventFor outbox kind) = 1) := by
  have hconforms := run_conforms state requests {} s
  obtain ⟨response, hdone, hok⟩ : ∃ response,
      (run state requests {} s).procs p = .pure response ∧
        succeeds (requests p) response = true := by
    unfold Gateway.answered at hanswered
    split at hanswered
    · exact ⟨_, ‹_›, hanswered⟩
    · cases hanswered
  obtain ⟨outbox, hsettled⟩ := (run_answers hdone).settled hok
  obtain ⟨tx, htx, x, hrecorded⟩ := hsettled.owner
  refine ⟨outbox, hsettled.owner, ?_, fun hmarked kind hkind => ?_⟩
  · exact fun hnil => (recordOk_of_recorded hconforms (mem_own.mp htx) hrecorded).owes
      (List.map_eq_nil_iff.mp hnil)
  · obtain ⟨eventId, ⟨event, edges, hsaw, -, hkindOf, hof⟩, -⟩ := hsettled.written kind hkind
    have hstored := ((pairInv_of_conforms hconforms).2 p).appended hsaw rfl
    have hfor : eventFor outbox kind event = true := by
      simp only [eventFor, Bool.and_eq_true, decide_eq_true_eq, Bool.or_eq_true, Bool.not_eq_true']
      refine ⟨⟨hkindOf, hof.execution⟩, ?_⟩
      cases htags : outbox.idempotencyKey.tagsEvents with
      | true => exact .inl (by rw [hof.tagged htags]; rfl)
      | false => exact .inr ⟨rfl, hof.untagged htags⟩
    exact countP_eq_one (event_keys_of_conforms hconforms) hstored hfor fun event' hevent' hfor' =>
      eventFor_unique hconforms (mem_own.mp htx) hrecorded hkind hmarked hevent' hfor' hstored hfor

/-- The sample's handler and the reconcile run that took its record over have both ended well, and
the record has two events for its one obligation. -/
theorem obligation_written_twice :
    (run Sample.state (Sample.requests fun _ => .reconcileOutbox 10) {}
      (Sample.takenOver ++ Sample.steps 5 40)).answered
        (Sample.requests fun _ => .reconcileOutbox 10) 5 = true ∧
    (find (run Sample.state (Sample.requests fun _ => .reconcileOutbox 10) {}
      (Sample.takenOver ++ Sample.steps 5 40)).world.outbox ⟨13⟩).map (fun row =>
        (row.record.status, (run Sample.state (Sample.requests fun _ => .reconcileOutbox 10) {}
          (Sample.takenOver ++ Sample.steps 5 40)).world.events.countP
            (eventFor row.record .toolCallExecuted))) = some (.reconciled, 2) := by
  constructor <;> decide +kernel

/-- Whatever is claimed has all its obligations marked. -/
def claimsMarked : Reply Op Op.Result → Bool
  | ⟨.claimPendingReconciliation _ _ _ _, .ok claims⟩ => claims.all (·.record.obligationsSatisfied)
  | _ => true

theorem leasedUnmarked_of_claimsMarked {reply : Reply Op Op.Result}
    (h : claimsMarked reply = true) (id : LifecycleOutboxId) : leasedUnmarked id reply = false := by
  unfold leasedUnmarked
  split
  · refine List.any_eq_false.mpr fun c hc => ?_
    simp [List.all_eq_true.mp h c hc]
  · rfl

/-- A reconcile run leases the record of the sample's `execute` after its event is marked and closes
it, while the handler is still at work. -/
def Sample.closedMeanwhile : Schedule := prepared ++ steps 5 24 ++ steps 6 60 ++ steps 5 40

theorem one_event_per_obligation_sample :
    (run Sample.state (Sample.requests fun _ => .reconcileOutbox 10) {}
      Sample.closedMeanwhile).log.any (fun entry => leases ⟨13⟩ entry.2) = true ∧
    ∃ outbox, Owns (own 5 (run Sample.state (Sample.requests fun _ => .reconcileOutbox 10) {}
        Sample.closedMeanwhile).log) outbox ∧ outbox.kinds ≠ [] ∧
      ∀ kind ∈ outbox.kinds, (run Sample.state (Sample.requests fun _ => .reconcileOutbox 10) {}
        Sample.closedMeanwhile).world.events.countP (eventFor outbox kind) = 1 := by
  have hanswered : (run Sample.state (Sample.requests fun _ => .reconcileOutbox 10) {}
      Sample.closedMeanwhile).answered (Sample.requests fun _ => .reconcileOutbox 10) 5 = true := by
    decide +kernel
  have hmarked : ∀ entry ∈ (run Sample.state (Sample.requests fun _ => .reconcileOutbox 10) {}
      Sample.closedMeanwhile).log, claimsMarked entry.2 = true := by
    decide +kernel
  obtain ⟨outbox, howns, hkinds, hone⟩ := one_event_per_obligation _ _ _ 5 hanswered
  exact ⟨by decide +kernel, outbox, howns, hkinds,
    hone fun entry hentry => leasedUnmarked_of_claimsMarked (hmarked entry hentry) _⟩

end FerrumGate
