import FerrumGate.Safety.Pairs

/-!
# Compensation against verification and commit

`compensate` reads the pair, calls the adapter and records the outcome afterwards. Nothing is
claimed before the call, so whether the side effect is undone at most once, and never behind a
committed execution, depends on what other processes do between the read and the record.

`compensate_race_commits` is a run in which a verification commits the execution in between.
`compensate_exclusive_when_alone` says that this is all that can go wrong: when each such call
stands alone, the property holds in every state a run reaches. Calls that found the pair in
recovery need no such care, because no write leads from recovery to `Committed`.
-/

namespace FerrumGate

open Interleave Interleave.Rows

/-! ## The property and the condition -/

/-- The adapter's compensate, called for this execution. -/
def Op.compensates (e : ExecutionId) : Op → Bool
  | .adapterCompensate contract => contract.executionId = e
  | _ => false

/-- The same, by a request that did not find the pair in recovery. -/
def Op.compensatesOutsideRecovery (e : ExecutionId) : Op → Bool
  | .adapterCompensate contract => contract.executionId = e && contract.state ≠ .recoveryRequired
  | _ => false

/-- A write to the row of the execution. -/
def Op.writesExecution (e : ExecutionId) : Op → Bool
  | .recordLifecycleTransition x _ _ => x.executionId = e
  | .compareAndSetState id _ _ _ => id = e
  | _ => false

/-- The transition that records the outcome of a compensation. -/
def Op.recordsCompensation (e : ExecutionId) : Op → Bool
  | .recordLifecycleTransition x _ outbox =>
    x.executionId = e && (outbox.idempotencyKey matches .transition .compensate _ _ _)
  | _ => false

/-- The entry has compensated the execution or written its row. -/
def touches (e : ExecutionId) (x : Reply Op Op.Result) : Bool :=
  x.1.compensates e || (x.1.writesExecution e && x.1.announces x.2)

/-- How often the adapter's compensate has been called for an execution. -/
def compensateCalls (e : ExecutionId) (log : GatewayLog) : Nat :=
  log.countP fun entry => entry.2.1.compensates e

/-- How often it has been called outside recovery. -/
def compensateCallsOutsideRecovery (e : ExecutionId) (log : GatewayLog) : Nat :=
  log.countP fun entry => entry.2.1.compensatesOutsideRecovery e

/-- **Compensation excludes commit, and happens once.** -/
def CompensateExclusive (e : ExecutionId) (g : Gateway) : Prop :=
  (g.world.executionState e = some .committed → compensateCalls e g.log = 0) ∧
    compensateCallsOutsideRecovery e g.log ≤ 1

instance (e : ExecutionId) (g : Gateway) : Decidable (CompensateExclusive e g) :=
  inferInstanceAs (Decidable (_ ∧ _))

/-- A call by process `q` stands alone between the entries before it (`older`, newest first) and
after it (`newer`, oldest first): nothing has touched the execution since `q` began, and the next
thing that does is `q` recording the outcome. -/
def alone (e : ExecutionId) (q : Nat) (newer older : GatewayLog) : Bool :=
  (since q older).all (fun y => !touches e y.2) &&
    match newer.find? fun y => touches e y.2 with
    | none => true
    | some y => y.1 = q && y.2.1.recordsCompensation e

/-- Every call outside recovery stands alone; `newer` is what came after `log`. -/
def compensatesAlone (e : ExecutionId) : (newer log : GatewayLog) → Bool
  | _, [] => true
  | newer, y :: older =>
    (!y.2.1.compensatesOutsideRecovery e || alone e y.1 newer older) &&
      compensatesAlone e (y :: newer) older

variable {served : Request} {requests : Nat → Request} {e : ExecutionId} {t : Knowledge} {o : Op}
  {i : Input} {w : World} {log : GatewayLog}
  {p q : Nat}

variable {newer older : GatewayLog}

theorem alone_iff :
    alone e q newer older = true ↔ (∀ y ∈ since q older, touches e y.2 = false) ∧
      ∀ y, newer.find? (fun y => touches e y.2) = some y →
        y.1 = q ∧ y.2.1.recordsCompensation e = true := by
  unfold alone
  cases newer.find? fun y => touches e y.2 <;> simp

variable {y : Nat × Reply Op Op.Result}

/-- A call that stands alone did so before the last entry. -/
theorem alone_of_append (h : alone e q (newer ++ [y]) older = true) :
    alone e q newer older = true := by
  rw [alone_iff] at h ⊢
  refine ⟨h.1, fun z hz => h.2 z ?_⟩
  rw [List.find?_append, hz]
  rfl

theorem compensatesAlone_of_append (h : compensatesAlone e (newer ++ [y]) log = true) :
    compensatesAlone e newer log = true := by
  induction log generalizing newer with
  | nil => rfl
  | cons z older ih =>
    rw [compensatesAlone, Bool.and_eq_true, Bool.or_eq_true] at h ⊢
    have htail : compensatesAlone e ((z :: newer) ++ [y]) older = true := h.2
    exact ⟨h.1.imp_right alone_of_append, ih htail⟩

theorem compensatesAlone_tail (h : compensatesAlone e [] (y :: log) = true) :
    compensatesAlone e [] log = true := by
  rw [compensatesAlone, Bool.and_eq_true] at h
  have htail : compensatesAlone e ([] ++ [y]) log = true := h.2
  exact compensatesAlone_of_append htail

theorem alone_of_split {acc : GatewayLog}
    (h : compensatesAlone e acc (newer ++ y :: older) = true)
    (hy : y.2.1.compensatesOutsideRecovery e = true) :
    alone e y.1 (newer.reverse ++ acc) older = true := by
  induction newer generalizing acc with
  | nil =>
    rw [List.nil_append, compensatesAlone, hy, Bool.and_eq_true] at h
    simpa using h.1
  | cons z newer ih =>
    rw [List.cons_append, compensatesAlone, Bool.and_eq_true] at h
    rw [List.reverse_cons, List.append_assoc]
    exact ih h.2

/-! ## What a read says later -/

variable {x : ExecutionRecord}

/-- A read of an execution is one of those before, or the last operation. -/
theorem ReadExecution.cons_cases {y : Reply Op Op.Result} (h : ReadExecution (y :: t) x) :
    ReadExecution t x ∨ ReadExecution [y] x := by
  cases h with
  | byId read =>
    rcases List.mem_cons.mp read with hy | hold
    · exact .inr (.byId (List.mem_singleton.mpr hy))
    · exact .inl (.byId hold)
  | stale read mem =>
    rcases List.mem_cons.mp read with hy | hold
    · exact .inr (.stale (List.mem_singleton.mpr hy) mem)
    · exact .inl (.stale hold mem)

/-- What a read answers is stored, and stays so in that step. -/
theorem ReadExecution.stored (hinv : PairInv w) (h : ReadExecution [⟨o, (o.exec i w).1⟩] x) :
    find w.executions x.executionId = some x ∧ (o.exec i w).2 = w := by
  cases h with
  | byId read =>
    obtain ⟨rfl, hr⟩ := Sigma.mk.inj (List.mem_singleton.mp read)
    exact ⟨(readWith_ok (eq_of_heq hr).symm).symm, readWith_snd i _ w⟩
  | @stale before states limit rows read mem =>
    obtain ⟨rfl, hr⟩ := Sigma.mk.inj (List.mem_singleton.mp read)
    have hrows : rows = World.staleInFlight before states limit w :=
      readWith_ok (eq_of_heq hr).symm
    rw [hrows] at mem
    exact ⟨hinv.stale_stored mem, readWith_snd i _ w⟩

/-- What holds of a row when it is read, and is kept by every step, holds from the read on. -/
theorem Conforms.after_read {K : GatewayLog → World → Prop}
    (hnow : ∀ {log : GatewayLog} {w : World} (y : Reply Op Op.Result),
      find w.executions x.executionId = some x → K ((q, y) :: log) w)
    (hstep : ∀ {log : GatewayLog} {w : World} (p : Nat) (o : Op) (i : Input),
      may (requests p) (own p log) o → K log w → K ((p, ⟨o, (o.exec i w).1⟩) :: log) (o.exec i w).2)
    (h : Conforms requests {} log w) (hread : ReadExecution (own q log) x) : K log w := by
  induction h with
  | start => cases hread with
    | byId read => exact absurd read (List.not_mem_nil)
    | stale read => exact absurd read (List.not_mem_nil)
  | @step log w p o i hb hmay ih =>
    by_cases hp : p = q
    · subst hp
      rw [own_cons_self] at hread
      rcases hread.cons_cases with hold | hlast
      · exact hstep p o i hmay (ih hold)
      · obtain ⟨hstored, hsame⟩ := hlast.stored (pairInv_of_conforms hb).1
        rw [hsame]
        exact hnow _ hstored
    · rw [own_cons_ne hp] at hread
      exact hstep p o i hmay (ih hread)

theorem touches_of_writes {r : o.Result} (hwrites : o.writesExecution e = true)
    (hannounces : o.announces r = true) : touches e ⟨o, r⟩ = true := by
  unfold touches
  rw [hwrites, hannounces]
  exact Bool.or_true _

/-- An operation that does not touch the execution leaves its row. -/
theorem row_of_untouched (hmay : may served t o) (htouch : touches e ⟨o, (o.exec i w).1⟩ = false)
    (hx : find w.executions e = some x) : find (o.exec i w).2.executions e = some x := by
  have hstep := execution_step (i := i) (w := w) hmay e
  rw [hx] at hstep
  generalize find (o.exec i w).2.executions e = row' at hstep ⊢
  generalize (o.exec i w).1 = r at hstep htouch
  cases hstep with
  | same => rfl
  | claimed _ _ _ =>
    exact (Bool.eq_false_iff.mp htouch (touches_of_writes (decide_eq_true rfl) rfl)).elim
  | canceled =>
    exact (Bool.eq_false_iff.mp htouch (touches_of_writes (decide_eq_true rfl) rfl)).elim
  | transition hid _ _ _ =>
    exact (Bool.eq_false_iff.mp htouch (touches_of_writes (decide_eq_true hid) rfl)).elim

/-- A row read by a process that nothing has disturbed is still stored. -/
theorem row_of_fresh_read (h : Conforms requests {} log w) (hread : ReadExecution (own q log) x)
    (hfresh : ∀ y ∈ since q log, touches x.executionId y.2 = false) :
    find w.executions x.executionId = some x := by
  refine (Conforms.after_read (K := fun log w => (∃ z, (q, z) ∈ log) ∧
    ((∀ y ∈ since q log, touches x.executionId y.2 = false) →
      find w.executions x.executionId = some x)) ?_ ?_ h hread).2 hfresh
  · intro log w y hstored
    exact ⟨⟨y, List.mem_cons_self⟩, fun _ => hstored⟩
  · rintro log w p o i hmay ⟨⟨z, hz⟩, hk⟩
    refine ⟨⟨z, List.mem_cons_of_mem _ hz⟩, fun hall => ?_⟩
    rw [since_cons hz] at hall
    have hrow := hk fun y hy => hall y (List.mem_append_left _ hy)
    exact row_of_untouched hmay (hall _ (List.mem_append_right _ List.mem_cons_self)) hrow

/-! ## Recovery does not lead to a commit -/

/-- The states an execution can be in once it required recovery. -/
def ExecutionState.pastRecovery : ExecutionState → Bool
  | .recoveryRequired | .compensated | .failed => true
  | _ => false

theorem pastRecovery_claimed {s : ExecutionState} (h : s.pastRecovery = true) :
    s.claimed = true := by
  cases s <;> first | rfl | exact absurd h (by decide)

/-- The other two states are terminal. -/
theorem pastRecovery_open {s s' : ExecutionState} (h : s.pastRecovery = true)
    (hvalid : isValidExecutionTransition s s' = true) : s = .recoveryRequired := by
  cases s <;> first
    | rfl
    | exact absurd h (by decide)
    | exact absurd hvalid Bool.false_ne_true

/-- The one transition out of `RecoveryRequired` is `compensate`. -/
theorem Transition.pastRecovery {name : TransitionName} {x' : ExecutionRecord}
    {c c' : Option RollbackContract} {kinds : List ProvenanceEventKind}
    (h : Transition t name x x' c c' kinds) (hx : x.state = .recoveryRequired)
    (hvalid : isValidExecutionTransition x.state x'.state = true) :
    x'.state.pastRecovery = true := by
  rw [hx] at hvalid
  cases h with
  | prepare _ preparable => rw [hx] at preparable; exact absurd preparable (by decide)
  | execute => cases hx
  | executeRecovery => rfl
  | verify _ awaits => simp [awaitsVerification, hx] at awaits
  | verifyRecovery => rfl
  | commit => exact absurd hvalid Bool.false_ne_true
  | @compensate _ _ receipt =>
    simp only [compensatedState]
    split
    · rfl
    · split <;> rfl
  | cancel _ cancelable => rw [hx] at cancelable; cases cancelable
  | haRecovery => rfl

/-- The stored execution has required recovery. -/
def PastRecovery (w : World) (e : ExecutionId) : Prop :=
  ∃ x, find w.executions e = some x ∧ x.state.pastRecovery = true

theorem pastRecovery_step (hmay : may served t o) (h : PastRecovery w e) :
    PastRecovery (o.exec i w).2 e := by
  obtain ⟨x, hx, hpast⟩ := h
  have hstep := execution_step (i := i) (w := w) hmay e
  rw [hx] at hstep
  generalize hrow' : find (o.exec i w).2.executions e = row' at hstep
  generalize (o.exec i w).1 = r at hstep
  cases hstep with
  | same => exact ⟨x, hrow', hpast⟩
  | claimed _ _ hpre =>
    exact absurd (preClaim_not_claimed hpre) (by simp [pastRecovery_claimed hpast])
  | canceled _ _ _ _ hc =>
    exact absurd (cancelable_not_claimed hc) (by simp [pastRecovery_claimed hpast])
  | @transition _ x' _ _ _ hwrite hprevious hvalid =>
    refine ⟨x', hrow', ?_⟩
    obtain ⟨name, x₀, c₀, kinds, now, -, htransition, -, houtbox⟩ := hwrite
    rw [houtbox] at hprevious
    have hstate : x₀.state = x.state := Option.some.inj hprevious
    have hrecovery : x.state = .recoveryRequired := pastRecovery_open hpast hvalid
    exact htransition.pastRecovery (hstate.trans hrecovery) (hstate ▸ hvalid)

theorem pastRecovery_of_read (h : Conforms requests {} log w)
    (hread : ReadExecution (own q log) x) (hx : x.state = .recoveryRequired) :
    PastRecovery w x.executionId := by
  refine Conforms.after_read (K := fun _ w => PastRecovery w x.executionId) ?_ ?_ h hread
  · intro _ w _ hstored
    exact ⟨x, hstored, by rw [hx]; rfl⟩
  · intro _ w p o i hmay hk
    exact pastRecovery_step hmay hk

/-- What a call of the adapter's compensate rests on. -/
theorem call_of_compensates (h : Conforms requests {} log w) (hmay : may (requests p) (own p log) o)
    (ho : o.compensates e = true) :
    ∃ x, ReadExecution (own p log) x ∧ x.executionId = e ∧ (o.exec i w).2 = w ∧
      ((o.compensatesOutsideRecovery e = true ∧
          (x.state = .running ∨ x.state = .awaitingVerification)) ∨
        (o.compensatesOutsideRecovery e = false ∧ x.state = .recoveryRequired)) := by
  cases o with
  | adapterCompensate contract =>
    obtain ⟨x, c, hpair, hallowed, rfl⟩ := hmay
    obtain ⟨_, _, _, hown⟩ := ((pairInv_of_conforms h).2 p).pair hpair
    rw [enrichHttpCompensationIfNeeded_eq] at ho ⊢
    have he : c.executionId = e := by simpa [Op.compensates] using ho
    refine ⟨x, hpair.execution, hown.symm.trans he, rfl, ?_⟩
    rcases hallowed with hawaits | hrecovery
    · have hstates : c.state = .executedAwaitingVerify ∧
          (x.state = .running ∨ x.state = .awaitingVerification) := by
        simpa [awaitsVerification] using hawaits
      exact .inl ⟨by simp [Op.compensatesOutsideRecovery, he, hstates.1], hstates.2⟩
    · have hstates : c.state = .recoveryRequired ∧ x.state = .recoveryRequired := by
        simpa [inRecovery] using hrecovery
      exact .inr ⟨by simp [Op.compensatesOutsideRecovery, hstates.1], hstates.2⟩
  | _ => cases ho

/-! ## The phases of an execution -/

/-- The stored execution awaits its verification. -/
def Awaiting (w : World) (e : ExecutionId) : Prop :=
  ∃ x, find w.executions e = some x ∧ (x.state = .running ∨ x.state = .awaitingVerification)

/-- Nobody has compensated outside recovery; or the one call of `q` is still to be recorded; or it
has been recorded. -/
inductive Phase (e : ExecutionId) (log : GatewayLog) (w : World) : Prop
  | untouched (zero : compensateCallsOutsideRecovery e log = 0)
  | called {q : Nat} {call : Reply Op Op.Result} (newer older : GatewayLog)
      (split : log = newer ++ (q, call) :: older)
      (outside : call.1.compensatesOutsideRecovery e = true)
      (quiet : ∀ y ∈ newer, touches e y.2 = false)
      (one : compensateCallsOutsideRecovery e log = 1) (awaiting : Awaiting w e)
  | recorded (one : compensateCallsOutsideRecovery e log = 1) {s : ExecutionState}
      (state : w.executionState e = some s) (ended : s = .compensated ∨ s = .failed)

theorem outsideCalls_cons (x : Reply Op Op.Result) :
    compensateCallsOutsideRecovery e ((p, x) :: log) =
      compensateCallsOutsideRecovery e log +
        if x.1.compensatesOutsideRecovery e then 1 else 0 := by
  simp [compensateCallsOutsideRecovery, List.countP_cons]

theorem compensates_of_outside (h : o.compensatesOutsideRecovery e = true) :
    o.compensates e = true := by
  cases o with
  | adapterCompensate contract =>
    simp only [Op.compensatesOutsideRecovery, Bool.and_eq_true] at h
    exact h.1
  | _ => cases h

/-- After a call that stands alone, the next entry that touches the execution is its record. -/
theorem records_of_touches {call y : Reply Op Op.Result}
    (hlog : log = newer ++ (q, call) :: older)
    (hcall : call.1.compensatesOutsideRecovery e = true)
    (hquiet : ∀ z ∈ newer, touches e z.2 = false) (htouch : touches e y = true)
    (halone : compensatesAlone e [] ((p, y) :: log) = true) : y.1.recordsCompensation e = true := by
  have hsplit : (p, y) :: log = ((p, y) :: newer) ++ (q, call) :: older := by rw [hlog]; rfl
  rw [hsplit] at halone
  have hstand := alone_iff.mp (alone_of_split halone hcall)
  refine (hstand.2 (p, y) ?_).2
  have hnone : newer.reverse.find? (fun z => touches e z.2) = none := by
    rw [List.find?_eq_none]
    intro z hz
    simp [hquiet z (List.mem_reverse.mp hz)]
  simp [hnone, htouch]

/-- The record of a compensation that did not start in recovery ends the execution. -/
theorem state_of_records (hmay : may served t o) (hrecords : o.recordsCompensation e = true)
    (hannounces : o.announces (o.exec i w).1 = true) (hawaiting : Awaiting w e) :
    ∃ s, (o.exec i w).2.executionState e = some s ∧ (s = .compensated ∨ s = .failed) := by
  obtain ⟨row, hrow, hstate⟩ := hawaiting
  cases o with
  | recordLifecycleTransition x contract outbox =>
    obtain ⟨hx, hname⟩ : x.executionId = e ∧
        (outbox.idempotencyKey matches .transition .compensate _ _ _) := by
      simpa [Op.recordsCompensation] using hrecords
    subst hx
    have hw := exec_wrote hannounces
    generalize ((Op.recordLifecycleTransition x contract outbox).exec i w).1 = r at hw
    generalize ((Op.recordLifecycleTransition x contract outbox).exec i w).2 = w' at hw ⊢
    cases hw with
    | recordLifecycleTransition previous _ found _ _ _ =>
      cases Option.some.inj (hrow.symm.trans found)
      refine ⟨x.state, ?_, ?_⟩
      · exact congrArg (Option.map (·.state)) (find_put_self found)
      · obtain ⟨name, x₀, c₀, kinds, now, -, htransition, -, houtbox⟩ := hmay
        rw [houtbox] at previous hname
        have hprevious : x₀.state = row.state := Option.some.inj previous
        have hcompensate : name = .compensate := by
          cases name <;> first | rfl | exact absurd hname (by simp [transitionRecord,
            LifecycleOutboxRecord.pendingWithObligations, transitionKey])
        subst hcompensate
        cases htransition with
        | @compensate x₀ c receipt =>
          have hrecovery : inRecovery c x₀ = false := by
            rcases hstate with hs | hs <;> simp [inRecovery, hprevious, hs]
          cases receipt.recovered <;> simp [compensatedState, hrecovery]
  | _ => cases hrecords

theorem Phase.step_call (h : Phase e log w) (hb : Conforms requests {} log w)
    (hmay : may (requests p) (own p log) o) (ho : o.compensatesOutsideRecovery e = true)
    (halone : compensatesAlone e [] ((p, ⟨o, (o.exec i w).1⟩) :: log) = true) :
    Phase e ((p, ⟨o, (o.exec i w).1⟩) :: log) (o.exec i w).2 := by
  have hcompensates := compensates_of_outside ho
  obtain ⟨x, hread, he, hsame, hstate⟩ := call_of_compensates (i := i) hb hmay hcompensates
  subst he
  have hawaits : x.state = .running ∨ x.state = .awaitingVerification := by
    rcases hstate with ⟨-, hs⟩ | ⟨hno, -⟩
    · exact hs
    · rw [ho] at hno
      cases hno
  -- the call stands alone, so what it read is still stored
  have hrow : find w.executions x.executionId = some x := by
    have hsplit := halone
    rw [compensatesAlone, Bool.and_eq_true] at hsplit
    have hstand : alone x.executionId p [] log = true := by simpa [ho] using hsplit.1
    exact row_of_fresh_read hb hread (alone_iff.mp hstand).1
  have htouch : touches x.executionId ⟨o, (o.exec i w).1⟩ = true := by
    simp [touches, hcompensates]
  cases h with
  | untouched zero =>
    refine .called [] log rfl ho (fun y hy => absurd hy List.not_mem_nil) ?_ ?_
    · rw [outsideCalls_cons, zero, if_pos ho]
    · rw [hsame]
      exact ⟨x, hrow, hawaits⟩
  | called newer older split outside quiet _ _ =>
    have hrecords := records_of_touches split outside quiet htouch halone
    cases o with
    | adapterCompensate contract => cases hrecords
    | _ => cases ho
  | recorded _ state ended =>
    have hs : w.executionState x.executionId = some x.state := by
      unfold World.executionState
      rw [hrow]
      rfl
    cases Option.some.inj (hs.symm.trans state)
    rcases hawaits with ha | ha <;> rcases ended with hended | hended <;>
      exact absurd (ha.symm.trans hended) (by decide)

theorem Phase.step_other (h : Phase e log w) (hmay : may (requests p) (own p log) o)
    (ho : o.compensatesOutsideRecovery e = false)
    (halone : compensatesAlone e [] ((p, ⟨o, (o.exec i w).1⟩) :: log) = true) :
    Phase e ((p, ⟨o, (o.exec i w).1⟩) :: log) (o.exec i w).2 := by
  have hcalls : compensateCallsOutsideRecovery e ((p, ⟨o, (o.exec i w).1⟩) :: log) =
      compensateCallsOutsideRecovery e log := by
    rw [outsideCalls_cons, ho]
    rfl
  cases h with
  | untouched zero => exact .untouched (hcalls.trans zero)
  | called newer older split outside quiet one awaiting =>
    by_cases htouch : touches e ⟨o, (o.exec i w).1⟩ = true
    · have hrecords := records_of_touches split outside quiet htouch halone
      have hannounces : o.announces (o.exec i w).1 = true := by
        cases o with
        | recordLifecycleTransition x contract outbox =>
          simp only [touches, Op.compensates, Bool.false_or, Bool.and_eq_true] at htouch
          exact htouch.2
        | _ => cases hrecords
      obtain ⟨s, hs, hended⟩ := state_of_records hmay hrecords hannounces awaiting
      exact .recorded (hcalls.trans one) hs hended
    · have huntouched : touches e ⟨o, (o.exec i w).1⟩ = false := by simpa using htouch
      obtain ⟨x, hx, hstate⟩ := awaiting
      refine .called ((p, ⟨o, (o.exec i w).1⟩) :: newer) older (by rw [split]; rfl) outside ?_
        (hcalls.trans one) ⟨x, row_of_untouched hmay huntouched hx, hstate⟩
      intro y hy
      rcases List.mem_cons.mp hy with rfl | hy
      · exact huntouched
      · exact quiet y hy
  | recorded one state ended =>
    refine .recorded (hcalls.trans one) (terminal_step hmay ?_ state) ended
    rcases ended with rfl | rfl <;> rfl

theorem phase_of_conforms (h : Conforms requests {} log w) (halone : compensatesAlone e [] log = true) :
    Phase e log w := by
  induction h with
  | start => exact .untouched rfl
  | step p o i hb hmay ih =>
    have hphase := ih (compensatesAlone_tail halone)
    cases ho : o.compensatesOutsideRecovery e with
    | true => exact hphase.step_call hb hmay ho halone
    | false => exact hphase.step_other hmay ho halone

/-! ## Whole runs -/

/-- A committed execution has not been compensated. -/
theorem no_calls_of_committed (h : Conforms requests {} log w) (hphase : Phase e log w)
    (hcommitted : w.executionState e = some .committed) : compensateCalls e log = 0 := by
  obtain ⟨row, hrow, hstate⟩ := Option.map_eq_some_iff.mp hcommitted
  have hzero : compensateCallsOutsideRecovery e log = 0 := by
    cases hphase with
    | untouched zero => exact zero
    | called _ _ _ _ _ _ awaiting =>
      obtain ⟨x, hx, hawaiting⟩ := awaiting
      cases Option.some.inj (hrow.symm.trans hx)
      rw [hstate] at hawaiting
      exact absurd hawaiting (by decide)
    | recorded _ state ended =>
      cases Option.some.inj (hcommitted.symm.trans state)
      exact absurd ended (by decide)
  unfold compensateCalls
  rw [List.countP_eq_zero]
  rintro ⟨p, x⟩ hx hcompensates
  obtain ⟨newer, older, hlog⟩ := List.append_of_mem hx
  have houtside : x.1.compensatesOutsideRecovery e = false := by
    simpa using List.countP_eq_zero.mp hzero _ hx
  obtain ⟨w₁, i, hb, hmay, -⟩ := h.entry hlog
  obtain ⟨y, hread, rfl, -, hcall⟩ := call_of_compensates (i := i) hb hmay hcompensates
  have hrecovery : y.state = .recoveryRequired := by
    rcases hcall with ⟨hout, -⟩ | ⟨-, hy⟩
    · rw [houtside] at hout
      cases hout
    · exact hy
  have hsubset : own p older ⊆ own p log := own_subset (by rw [hlog]; simp)
  obtain ⟨z, hz, hpast⟩ := pastRecovery_of_read h (hread.mono hsubset) hrecovery
  cases Option.some.inj (hrow.symm.trans hz)
  rw [hstate] at hpast
  cases hpast

/-- **Where every call stands alone, compensation excludes commit and happens once**: in every
state a run of the gateway from the empty store reaches. -/
theorem compensate_exclusive_when_alone (state : AppState) (requests : Nat → Request)
    (s : Schedule) (e : ExecutionId)
    (halone : compensatesAlone e [] (run state requests {} s).log = true) :
    CompensateExclusive e (run state requests {} s) := by
  have hconforms := run_conforms state requests {} s
  have hphase := phase_of_conforms hconforms halone
  refine ⟨no_calls_of_committed hconforms hphase, ?_⟩
  cases hphase with
  | untouched zero => omega
  | called _ _ _ _ _ one _ => omega
  | recorded one _ _ => omega

/-- The compensation of the sample workflow, with nobody else around. -/
def compensatedSample : Gateway :=
  run Sample.state (Sample.requests fun _ => .compensate none Sample.executionId) {}
    (Sample.executed ++ Sample.steps 6 20)

theorem compensate_exclusive_sample :
    compensatedSample.world.executionState Sample.executionId = some .compensated ∧
      compensateCalls Sample.executionId compensatedSample.log = 1 ∧
      CompensateExclusive Sample.executionId compensatedSample :=
  ⟨by decide +kernel, by decide +kernel,
    compensate_exclusive_when_alone _ _ _ _ (by decide +kernel)⟩

/-- A compensation has read the pair when a verification commits the execution; then it calls the
adapter. -/
def raceSample : Gateway :=
  run Sample.state
    (Sample.requests fun
      | 0 => .compensate none Sample.executionId
      | _ => .verify none Sample.executionId) {}
    (Sample.executed ++ Sample.steps 6 3 ++ Sample.steps 7 30 ++ Sample.steps 6 20)

/-- The execution is committed, and its side effect has been undone. -/
theorem compensate_race_commits :
    ¬ CompensateExclusive Sample.executionId raceSample := by
  decide +kernel

end FerrumGate
