import FerrumGate.Safety.Pairs

/-!
# What is stored beside a terminal state

Two readings of the rows of one execution, along every run from the empty store:

* `terminal_recorded_iff`: a terminal state has an outbox record that names it, unless a pass of
  the HA reconciler set it, whose compare-and-set writes no record;
* `finished_iff_terminal`: the finish time is set exactly in the terminal states, unless `verify`
  or `commit` ended the execution, which leave it unset, or `compensate` has recorded an attempt
  that did not recover, which sets it in `RecoveryRequired`.
-/

namespace FerrumGate

open Interleave Interleave.Rows

variable {served : Request} {requests : Nat → Request} {t : Knowledge} {o : Op} {i : Input}
  {w : World} {log log' : GatewayLog} {p : Nat} {e : ExecutionId}

variable {now : Timestamp}

/-- A compare-and-set that has been won. -/
theorem compareAndSet_won {expected : List ExecutionState} {new : ExecutionState}
    (h : ((Op.compareAndSetState e expected new now).exec i w).1 = .ok true) :
    ∃ row, find w.executions e = some row ∧ row.state ∈ expected ∧
      ((Op.compareAndSetState e expected new now).exec i w).2.executionState e = some new := by
  have hw := exec_wrote (o := .compareAndSetState e expected new now) (i := i) (w := w)
    (by rw [h]; rfl)
  rw [h] at hw
  generalize ((Op.compareAndSetState e expected new now).exec i w).2 = w' at hw ⊢
  cases hw with
  | @compareAndSetState _ _ _ _ _ row found mem =>
    have hkey : row.executionId = e := find_key found
    subst hkey
    have hput := find_put_self (v := { row with
      state := new
      finishedAt := if executionStateIsTerminal new then some now else row.finishedAt }) found
    refine ⟨row, found, mem, ?_⟩
    exact congrArg (Option.map ExecutionRecord.state) hput

variable {x : ExecutionRecord} {c : Option RollbackContract} {outbox : LifecycleOutboxRecord}

/-- A lifecycle transaction that has been committed: where it started from, and what it stored. -/
theorem transition_stored (h : ((Op.recordLifecycleTransition x c outbox).exec i w).1 = .ok ()) :
    (∃ row, find w.executions x.executionId = some row ∧
      outbox.previousExecutionState = some row.state ∧
      isValidExecutionTransition row.state x.state = true) ∧
    find ((Op.recordLifecycleTransition x c outbox).exec i w).2.executions x.executionId = some x ∧
    find ((Op.recordLifecycleTransition x c outbox).exec i w).2.outbox outbox.outboxId =
      some (.fresh outbox) := by
  have hw := exec_wrote (o := .recordLifecycleTransition x c outbox) (i := i) (w := w)
    (by rw [h]; rfl)
  rw [h] at hw
  generalize ((Op.recordLifecycleTransition x c outbox).exec i w).2 = w' at hw ⊢
  cases hw with
  | @recordLifecycleTransition _ _ row _ _ _ previous valid found _ _ newId =>
    exact ⟨⟨row, found, previous, valid⟩, find_put_self found,
      find_append_self (v := OutboxRow.fresh outbox) newId⟩

/-- A lifecycle transaction is refused when its key is taken. -/
theorem transition_key_free (h : ((Op.recordLifecycleTransition x c outbox).exec i w).1 = .ok ()) :
    ¬ KeyTaken w outbox.idempotencyKey := by
  have hw := exec_wrote (o := .recordLifecycleTransition x c outbox) (i := i) (w := w)
    (by rw [h]; rfl)
  rw [h] at hw
  generalize ((Op.recordLifecycleTransition x c outbox).exec i w).2 = w' at hw
  cases hw with
  | recordLifecycleTransition _ _ _ _ newKey => exact fun htaken => htaken.refuses newKey

variable {s : ExecutionState}

theorem not_terminal_of_valid {s' : ExecutionState} (h : isValidExecutionTransition s s' = true) :
    executionStateIsTerminal s = false := by
  cases hterminal : executionStateIsTerminal s with
  | false => rfl
  | true =>
    rw [isValidExecutionTransition_terminal hterminal] at h
    cases h

/-- The record of a transition names the execution and the state it led to. -/
theorem TransitionWrite.names (h : TransitionWrite served t x c outbox) :
    outbox.executionId = x.executionId ∧ outbox.newExecutionState = x.state := by
  obtain ⟨_, _, _, _, _, -, -, -, houtbox⟩ := h
  rw [houtbox]
  exact ⟨rfl, rfl⟩

theorem AuthorizationWrite.names {lease : CapabilityLease}
    (h : AuthorizationWrite served t (.recordAuthorization lease x outbox now)) :
    outbox.executionId = x.executionId ∧ outbox.newExecutionState = x.state := by
  obtain ⟨_, _, _, _, _, _, -, -, -, -, rfl, rfl⟩ := h.inv
  exact ⟨rfl, rfl⟩

theorem AuthorizationWrite.unfinished {lease : CapabilityLease}
    (h : AuthorizationWrite served t (.recordAuthorization lease x outbox now)) :
    x.finishedAt = none := by
  obtain ⟨_, _, _, _, _, _, -, -, -, -, rfl, rfl⟩ := h.inv
  rfl

/-! ## Records of terminal states -/

/-- An outbox record of the execution names `s` as the state it led to. -/
def RecordedAs (w : World) (e : ExecutionId) (s : ExecutionState) : Prop :=
  ∃ id row, find w.outbox id = some row ∧ row.record.executionId = e ∧
    row.record.newExecutionState = s

/-- A pass of the HA reconciler has canceled the execution. -/
def HaCanceled (requests : Nat → Request) (log : GatewayLog) (e : ExecutionId) : Prop :=
  ∃ p expected now, requests p = .haReconcilerPass ∧
    (p, ⟨.compareAndSetState e expected .canceled now, .ok true⟩) ∈ log

theorem RecordedAs.mono {w' : World} (hs : Stable w w') (h : RecordedAs w e s) :
    RecordedAs w' e s := by
  obtain ⟨id, row, hrow, rfl, rfl⟩ := h
  obtain ⟨row', hrow', hsame⟩ := hs.records hrow
  exact ⟨id, row', hrow', hsame.executionId, hsame.newExecutionState⟩

theorem HaCanceled.mono (h : log ⊆ log') : HaCanceled requests log e → HaCanceled requests log' e
  | ⟨p, expected, now, hserved, hmem⟩ => ⟨p, expected, now, hserved, h hmem⟩

variable {y : Reply Op Op.Result}

/-- The execution has been canceled by the HA reconciler before, or in this step. -/
theorem haCanceled_cons (h : HaCanceled requests ((p, y) :: log) e) :
    HaCanceled requests log e ∨
      ∃ expected now, y = ⟨.compareAndSetState e expected .canceled now, .ok true⟩ := by
  obtain ⟨q, expected, now, hserved, hmem⟩ := h
  rcases List.mem_cons.mp hmem with heq | hold
  · exact .inr ⟨expected, now, (Prod.mk.inj heq).2.symm⟩
  · exact .inl ⟨q, expected, now, hserved, hold⟩

/-- The HA reconciler cancels an execution that has not ended. -/
theorem not_terminal_of_haCancel {expected : List ExecutionState}
    (hmay : may served t (.compareAndSetState e expected .canceled now))
    (h : ((Op.compareAndSetState e expected .canceled now).exec i w).1 = .ok true)
    (hs : w.executionState e = some s) : executionStateIsTerminal s = false := by
  obtain ⟨row, hrow, hmem, -⟩ := compareAndSet_won h
  obtain ⟨x, hx, rfl⟩ := Option.map_eq_some_iff.mp hs
  cases Option.some.inj (hrow.symm.trans hx)
  have hwrite : StateWrite served t (.compareAndSetState e expected .canceled now) := hmay
  rcases hwrite.cases with ⟨_, _, _, _, hnew, _⟩ | ⟨y, _, _, _, hcancelable, rfl, _⟩
  · cases hnew
  · rw [List.mem_singleton.mp hmem]
    exact cancelable_not_terminal hcancelable

/-- **What a run keeps about the records of one execution.** -/
structure TerminalInv (requests : Nat → Request) (e : ExecutionId) (log : GatewayLog)
    (w : World) : Prop where
  recorded : ∀ {s}, w.executionState e = some s → executionStateIsTerminal s = true →
    HaCanceled requests log e ∨ RecordedAs w e s
  settled : ∀ {s}, RecordedAs w e s → executionStateIsTerminal s = true →
    w.executionState e = some s ∧ ¬ HaCanceled requests log e
  canceled : HaCanceled requests log e → w.executionState e = some .canceled

theorem TerminalInv.empty : TerminalInv requests e [] {} where
  recorded h := by cases h
  settled h := by
    obtain ⟨_, _, h, _⟩ := h
    cases h
  canceled h := by
    obtain ⟨_, _, _, _, h⟩ := h
    cases h

section Step

variable (h : TerminalInv requests e log w) (ht : Trusted w (own p log))
  (hmay : may (requests p) (own p log) o)

include hmay in
/-- A record that is new after a step is that of a transition or of an authorization. -/
theorem recordedAs_cases (ht : Trusted w (own p log)) (h : RecordedAs (o.exec i w).2 e s)
    (hterminal : executionStateIsTerminal s = true) :
    RecordedAs w e s ∨ ∃ x c outbox,
      (⟨o, (o.exec i w).1⟩ : Reply Op Op.Result) = ⟨.recordLifecycleTransition x c outbox, .ok ()⟩ ∧
      x.executionId = e ∧ x.state = s := by
  obtain ⟨id, row', hrow', hid, hnext⟩ := h
  cases hrow : find w.outbox id with
  | some row =>
    obtain ⟨row₁, hrow₁, hsame⟩ := (stable_step (i := i) ht hmay).records hrow
    cases Option.some.inj (hrow'.symm.trans hrow₁)
    exact .inl ⟨id, row, hrow, hsame.executionId.symm.trans hid,
      hsame.newExecutionState.symm.trans hnext⟩
  | none =>
    have hstep := outbox_step (i := i) (w := w) hmay id
    rw [hrow, hrow'] at hstep
    generalize (o.exec i w).1 = r at hstep ⊢
    cases hstep with
    | transition _ write =>
      obtain ⟨hexecution, hstate⟩ := write.names
      exact .inr ⟨_, _, _, rfl, hexecution.symm.trans hid, hstate.symm.trans hnext⟩
    | @authorized _ _ outbox _ _ write =>
      obtain ⟨-, hstate⟩ := AuthorizationWrite.execution_new write
      have hs : outbox.newExecutionState = s := hnext
      rw [← write.names.2, hs] at hstate
      rcases hstate with rfl | rfl <;> cases hterminal

include h ht hmay

theorem TerminalInv.step_recorded (hs : (o.exec i w).2.executionState e = some s)
    (hterminal : executionStateIsTerminal s = true) :
    HaCanceled requests ((p, ⟨o, (o.exec i w).1⟩) :: log) e ∨ RecordedAs (o.exec i w).2 e s := by
  have hstable := stable_step (i := i) ht hmay
  obtain ⟨x, hx, rfl⟩ := Option.map_eq_some_iff.mp hs
  have hstep := execution_step (i := i) (w := w) hmay e
  rw [hx] at hstep
  generalize hrow : find w.executions e = row at hstep
  generalize hr : (o.exec i w).1 = r at hstep ⊢
  cases hstep with
  | same =>
    have hbefore : w.executionState e = some x.state := congrArg (Option.map _) hrow
    exact (h.recorded hbefore hterminal).imp (·.mono (List.subset_cons_self _ _))
      (·.mono hstable)
  | authorized _ write =>
    obtain ⟨-, hstate⟩ := AuthorizationWrite.execution_new write
    rcases hstate with hs | hs <;> rw [hs] at hterminal <;> cases hterminal
  | claimed => cases hterminal
  | canceled asked => exact .inl ⟨p, _, _, asked, List.mem_cons_self⟩
  | transition id_ write =>
    obtain ⟨hexecution, hstate⟩ := write.names
    exact .inr ⟨_, _, (transition_stored hr).2.2, hexecution.trans id_, hstate⟩

theorem TerminalInv.step_settled (hrecorded : RecordedAs (o.exec i w).2 e s)
    (hterminal : executionStateIsTerminal s = true) :
    (o.exec i w).2.executionState e = some s ∧
      ¬ HaCanceled requests ((p, ⟨o, (o.exec i w).1⟩) :: log) e := by
  rcases recordedAs_cases hmay ht hrecorded hterminal with
    hold | ⟨x, c, outbox, heq, rfl, rfl⟩
  · obtain ⟨hstate, hnot⟩ := h.settled hold hterminal
    refine ⟨terminal_step hmay hterminal hstate, fun hcanceled => ?_⟩
    rcases haCanceled_cons hcanceled with hbefore | ⟨expected, now, heq⟩
    · exact hnot hbefore
    · obtain ⟨rfl, hr⟩ := Sigma.mk.inj heq
      rw [not_terminal_of_haCancel hmay (eq_of_heq hr) hstate] at hterminal
      cases hterminal
  · obtain ⟨rfl, hr⟩ := Sigma.mk.inj heq
    obtain ⟨⟨row, hrow, -, hvalid⟩, hstored, -⟩ := transition_stored (eq_of_heq hr)
    refine ⟨congrArg (Option.map ExecutionRecord.state) hstored, fun hcanceled => ?_⟩
    rcases haCanceled_cons hcanceled with hbefore | ⟨expected, now, heq'⟩
    · have hstate := h.canceled hbefore
      rw [World.executionState, hrow] at hstate
      have hrowState : row.state = .canceled := Option.some.inj hstate
      exact not_canceled_of_valid hvalid hrowState
    · cases (Sigma.mk.inj heq').1

theorem TerminalInv.step : TerminalInv requests e ((p, ⟨o, (o.exec i w).1⟩) :: log)
    (o.exec i w).2 where
  recorded := h.step_recorded ht hmay
  settled := h.step_settled ht hmay
  canceled hcanceled := by
    rcases haCanceled_cons hcanceled with hbefore | ⟨expected, now, heq⟩
    · exact terminal_step hmay rfl (h.canceled hbefore)
    · obtain ⟨rfl, hr⟩ := Sigma.mk.inj heq
      obtain ⟨_, _, _, hstate⟩ := compareAndSet_won (eq_of_heq hr)
      exact hstate

end Step

theorem terminalInv_of_conforms (h : Conforms requests {} log w) :
    TerminalInv requests e log w := by
  induction h with
  | start => exact .empty
  | step p o i hb hmay ih => exact ih.step ((pairInv_of_conforms hb).2 p) hmay

/-- **A terminal execution has an outbox record of its state, unless the HA reconciler canceled
it**: in every run of the gateway from the empty store, at any moment of it. -/
theorem terminal_recorded_iff (state : AppState) (requests : Nat → Request) (s : Schedule)
    (e : ExecutionId) (last : ExecutionState)
    (hlast : (run state requests {} s).world.executionState e = some last)
    (hterminal : executionStateIsTerminal last = true) :
    RecordedAs (run state requests {} s).world e last ↔
      ¬ HaCanceled requests (run state requests {} s).log e := by
  have hinv := terminalInv_of_conforms (e := e) (run_conforms state requests {} s)
  exact ⟨fun hrecorded => (hinv.settled hrecorded hterminal).2,
    fun hnot => (hinv.recorded hlast hterminal).resolve_left hnot⟩

namespace Sample

/-- The workflow up to the authorization. -/
def authorized : Schedule := steps 0 10 ++ steps 1 10 ++ steps 2 20 ++ steps 3 30

/-- The authorized execution is left alone until it is stale, and a pass cancels it. -/
def staleCanceled : Gateway :=
  run state (Sample.requests fun _ => .haReconcilerPass) {}
    (authorized ++ List.replicate 10 (6, { input with clock := seconds 1000 }))

/-- The authorized execution is canceled by a request. -/
def canceledByRequest : Gateway :=
  run state (Sample.requests fun _ => .cancel none executionId) {} (authorized ++ steps 6 30)

end Sample

/-- The HA reconciler's cancelation leaves no outbox record. -/
theorem ha_cancel_leaves_no_record :
    Sample.staleCanceled.world.executionState Sample.executionId = some .canceled ∧
      ¬ RecordedAs Sample.staleCanceled.world Sample.executionId .canceled := by
  refine ⟨by decide +kernel, ?_⟩
  rintro ⟨id, row, hrow, hexecution, hstate⟩
  have hall : Sample.staleCanceled.world.outbox.all (fun row =>
      row.record.executionId ≠ Sample.executionId ∨ row.record.newExecutionState ≠ .canceled) =
        true := by
    decide +kernel
  have hnot := of_decide_eq_true (List.all_eq_true.mp hall row (mem_of_find hrow))
  exact hnot.elim (absurd hexecution) (absurd hstate)

/-- The cancelation by a request is recorded. -/
theorem terminal_recorded_sample :
    Sample.canceledByRequest.world.executionState Sample.executionId = some .canceled ∧
      RecordedAs Sample.canceledByRequest.world Sample.executionId .canceled := by
  have hstate : Sample.canceledByRequest.world.executionState Sample.executionId =
      some .canceled := by
    decide +kernel
  refine ⟨hstate, (terminal_recorded_iff _ _ _ _ _ hstate rfl).mpr ?_⟩
  rintro ⟨p, _, _, hserved, -⟩
  match p, hserved with
  | 0, h | 1, h | 2, h | 3, h | 4, h | 5, h | _ + 6, h => cases h

/-! ## The finish time -/

/-- The request asks to verify or to commit the execution. -/
def Request.verifiesOrCommits (e : ExecutionId) : Request → Bool
  | .verify _ id | .commit _ id => id = e
  | _ => false

/-- The request asks to compensate the execution. -/
def Request.compensates (e : ExecutionId) : Request → Bool
  | .compensate _ id => id = e
  | _ => false

/-- A transition of the execution has been recorded, by a request and with a row that satisfy
`P`. -/
def RecordedFor (requests : Nat → Request) (log : GatewayLog) (e : ExecutionId)
    (P : Request → ExecutionRecord → Prop) : Prop :=
  ∃ p x c outbox, (p, ⟨.recordLifecycleTransition x c outbox, .ok ()⟩) ∈ log ∧
    x.executionId = e ∧ P (requests p) x

/-- A verify or a commit request has brought the execution to a terminal state. -/
def EndedByVerdict (requests : Nat → Request) (log : GatewayLog) (e : ExecutionId) : Prop :=
  RecordedFor requests log e fun request x =>
    request.verifiesOrCommits e = true ∧ executionStateIsTerminal x.state = true

/-- A compensation has been recorded that left the execution in `RecoveryRequired`. -/
def Unrecovered (requests : Nat → Request) (log : GatewayLog) (e : ExecutionId) : Prop :=
  RecordedFor requests log e fun request x =>
    request.compensates e = true ∧ x.state = .recoveryRequired

/-- The reply reports a lifecycle transition of the execution. -/
def transitions (e : ExecutionId) : Reply Op Op.Result → Bool
  | ⟨.recordLifecycleTransition x _ _, .ok ()⟩ => x.executionId = e
  | _ => false

theorem transitions_true (h : transitions e y = true) :
    ∃ x c outbox, y = ⟨.recordLifecycleTransition x c outbox, .ok ()⟩ ∧ x.executionId = e := by
  obtain ⟨o, r⟩ := y
  cases o with
  | recordLifecycleTransition x c outbox =>
    obtain _ | _ := r
    · cases h
    · exact ⟨x, c, outbox, rfl, of_decide_eq_true h⟩
  | _ => cases h

section RecordedFor

variable {P : Request → ExecutionRecord → Prop}

theorem recordedFor_other (hy : transitions e y = false) :
    RecordedFor requests ((p, y) :: log) e P ↔ RecordedFor requests log e P := by
  constructor
  · rintro ⟨q, x, c, outbox, hmem, hid, hP⟩
    rcases List.mem_cons.mp hmem with heq | hold
    · obtain ⟨-, rfl⟩ := Prod.mk.inj heq
      exact absurd hy (by simp [transitions, hid])
    · exact ⟨q, x, c, outbox, hold, hid, hP⟩
  · rintro ⟨q, x, c, outbox, hmem, hrest⟩
    exact ⟨q, x, c, outbox, List.mem_cons_of_mem _ hmem, hrest⟩

theorem recordedFor_transition :
    RecordedFor requests ((p, ⟨.recordLifecycleTransition x c outbox, .ok ()⟩) :: log)
        x.executionId P ↔
      P (requests p) x ∨ RecordedFor requests log x.executionId P := by
  constructor
  · rintro ⟨q, x', c', outbox', hmem, hid, hP⟩
    rcases List.mem_cons.mp hmem with heq | hold
    · cases heq
      exact .inl hP
    · exact .inr ⟨q, x', c', outbox', hold, hid, hP⟩
  · rintro (hP | ⟨q, x', c', outbox', hmem, hrest⟩)
    · exact ⟨p, x, c, outbox, List.mem_cons_self, rfl, hP⟩
    · exact ⟨q, x', c', outbox', List.mem_cons_of_mem _ hmem, hrest⟩

end RecordedFor

variable {name : TransitionName}

theorem verifiesOrCommits_of_asksFor (h : served.asksFor name e) :
    served.verifiesOrCommits e =
      decide (name = .verify ∨ name = .verifyRecovery ∨ name = .commit) := by
  cases served <;> cases name <;> first
    | exact h.elim
    | rfl
    | exact decide_eq_true (Eq.symm h)

theorem compensates_of_asksFor (h : served.asksFor name e) :
    served.compensates e = decide (name = .compensate) := by
  cases served <;> cases name <;> first
    | exact h.elim
    | rfl
    | exact decide_eq_true (Eq.symm h)

/-- What a transition does about the finish time. -/
inductive FinishCase (served : Request) (previous updated : ExecutionRecord) : Prop
  | unset (open_ : executionStateIsTerminal updated.state = false)
      (unset_ : updated.finishedAt.isSome = false) (before : previous.state ≠ .recoveryRequired)
      (asked : served.compensates updated.executionId = false)
  | attempt (state : updated.state = .recoveryRequired) (set_ : updated.finishedAt.isSome = true)
      (asked : served.compensates updated.executionId = true)
  | finished (terminal : executionStateIsTerminal updated.state = true)
      (set_ : updated.finishedAt.isSome = true)
      (asked : served.verifiesOrCommits updated.executionId = false)
  | verdict (terminal : executionStateIsTerminal updated.state = true)
      (unset_ : updated.finishedAt.isSome = false)
      (asked : served.verifiesOrCommits updated.executionId = true)

/-- Before the verdict and outside recovery: no finish time is set here. -/
def ExecutionState.underway : ExecutionState → Bool
  | .authorized | .prepared | .proposed | .running | .awaitingVerification => true
  | _ => false

theorem underway_open (h : s.underway = true) :
    executionStateIsTerminal s = false ∧ s ≠ .recoveryRequired := by
  cases s <;> first | decide | cases h

/-- A row that was read underway has no finish time. -/
def Unfinished (t : Knowledge) : Prop :=
  ∀ x, ReadExecution t x → x.state.underway = true → x.finishedAt.isSome = false

theorem preClaim_underway (h : s.preClaim = true) : s.underway = true := by
  cases s <;> first | rfl | cases h

theorem awaitsVerification_underway {c : RollbackContract} (h : awaitsVerification c x = true) :
    x.state.underway = true := by
  have hstate : c.state = .executedAwaitingVerify ∧
      (x.state = .running ∨ x.state = .awaitingVerification) := by
    simpa [awaitsVerification] using h
  rcases hstate.2 with hs | hs <;> rw [hs] <;> rfl

/-- The matrix lets no execution in recovery be committed. -/
theorem underway_of_commit (h : isValidExecutionTransition s .committed = true) :
    s.underway = true := by
  cases s <;> first | rfl | cases h

theorem Transition.finishCase {x' : ExecutionRecord} {c' : Option RollbackContract}
    {kinds : List ProvenanceEventKind} (h : Transition t name x x' c c' kinds)
    (hasked : served.asksFor name x'.executionId)
    (hvalid : isValidExecutionTransition x.state x'.state = true) (hread : Unfinished t) :
    FinishCase served x x' := by
  have hends := verifiesOrCommits_of_asksFor hasked
  have hcompensates := compensates_of_asksFor hasked
  -- the row that `execute` writes back is the one it read before its claim
  have hclaim : ∀ {claim : ExecutionClaim}, Claimed t claim →
      claim.execution.finishedAt.isSome = false := by
    intro claim claimed
    have hpre := claimed.checked.executable
    simp only [executable, Bool.and_eq_true] at hpre
    exact hread _ claimed.checked.pair.execution (preClaim_underway hpre.2)
  cases h with
  | prepare read preparable =>
    have hstate : x.state.underway = true := by rcases preparable with hs | hs <;> rw [hs] <;> rfl
    exact .unset (underway_open hstate).1 (hread x read hstate) (underway_open hstate).2 hcompensates
  | execute claimed => exact .unset rfl (hclaim claimed) (by simp) hcompensates
  | executeRecovery claimed => exact .unset rfl (hclaim claimed) (by simp) hcompensates
  | @verify _ d outcome metadata verified pair awaits =>
    have hstate := awaitsVerification_underway awaits
    have hunset := hread x pair.execution hstate
    cases verified with
    | false => exact .verdict rfl hunset hends
    | true =>
      by_cases hauto : (verifiedContract x d metadata true).autoCommit = true
      · simp only [if_true, hauto] at hends ⊢
        exact .verdict rfl hunset hends
      · simp only [if_true, hauto, Bool.false_eq_true, if_false] at hcompensates ⊢
        exact .unset (underway_open hstate).1 hunset (underway_open hstate).2 hcompensates
  | verifyRecovery _ pair awaits =>
    have hstate := awaitsVerification_underway awaits
    exact .unset rfl (hread x pair.execution hstate) (underway_open hstate).2 hcompensates
  | commit pair => exact .verdict rfl (hread x pair.execution (underway_of_commit hvalid)) hends
  | @compensate _ d receipt _ pair =>
    cases receipt.recovered with
    | true => exact .finished rfl rfl hends
    | false =>
      cases inRecovery d x with
      | true => exact .attempt rfl rfl hcompensates
      | false => exact .finished rfl rfl hends
  | cancel read => exact .finished rfl rfl hends
  | haRecovery pair running =>
    have hstate : x.state.underway = true := by rw [running]; rfl
    exact .unset rfl (hread x pair.execution hstate) (underway_open hstate).2 hcompensates

/-- What the finish time of a stored row says about the log. -/
structure FinishOk (requests : Nat → Request) (log : GatewayLog) (x : ExecutionRecord) : Prop where
  open_ : executionStateIsTerminal x.state = false →
    ¬ EndedByVerdict requests log x.executionId ∧
      (Unrecovered requests log x.executionId → x.state = .recoveryRequired) ∧
      (x.finishedAt.isSome = true ↔ Unrecovered requests log x.executionId)
  closed : executionStateIsTerminal x.state = true →
    (x.finishedAt.isSome = true ↔ ¬ EndedByVerdict requests log x.executionId)

/-- **What a run keeps about finish times.** -/
structure FinishInv (requests : Nat → Request) (log : GatewayLog) (w : World) : Prop where
  absent : ∀ {e}, find w.executions e = none →
    ¬ EndedByVerdict requests log e ∧ ¬ Unrecovered requests log e
  rows : ∀ {e x}, find w.executions e = some x → FinishOk requests log x

theorem FinishInv.empty : FinishInv requests [] {} where
  absent _ := ⟨fun ⟨_, _, _, _, h, _⟩ => absurd h List.not_mem_nil,
    fun ⟨_, _, _, _, h, _⟩ => absurd h List.not_mem_nil⟩
  rows h := by cases h

/-- The step of a transition, for the execution it is about. -/
theorem FinishInv.step_transition (h : FinishInv requests log w) (hread : Unfinished (own p log))
    (hmay : may (requests p) (own p log) (.recordLifecycleTransition x c outbox))
    (hr : ((Op.recordLifecycleTransition x c outbox).exec i w).1 = .ok ()) :
    FinishOk requests ((p, ⟨.recordLifecycleTransition x c outbox, .ok ()⟩) :: log) x := by
  obtain ⟨⟨row, hrow, hprevious, hvalid⟩, -, -⟩ := transition_stored hr
  obtain ⟨hnot, hrecovery, -⟩ := (h.rows hrow).open_ (not_terminal_of_valid hvalid)
  rw [show row.executionId = x.executionId from find_key hrow] at hnot hrecovery
  obtain ⟨name, x₀, c₀, kinds, now, hasked, htransition, -, houtbox⟩ := hmay
  have hstate : x₀.state = row.state := by
    rw [houtbox] at hprevious
    exact Option.some.inj hprevious
  have hcase := htransition.finishCase hasked (by rw [hstate]; exact hvalid) hread
  have hended : EndedByVerdict requests
      ((p, ⟨.recordLifecycleTransition x c outbox, .ok ()⟩) :: log) x.executionId ↔
        (requests p).verifiesOrCommits x.executionId = true ∧
          executionStateIsTerminal x.state = true :=
    recordedFor_transition.trans (or_iff_left hnot)
  have hattempted : Unrecovered requests
      ((p, ⟨.recordLifecycleTransition x c outbox, .ok ()⟩) :: log) x.executionId ↔
        ((requests p).compensates x.executionId = true ∧ x.state = .recoveryRequired) ∨
          Unrecovered requests log x.executionId :=
    recordedFor_transition
  constructor
  all_goals rw [hended]
  · rw [hattempted]
    cases hcase with
    | unset hopen hunset hbefore hnone =>
      have hold : ¬ Unrecovered requests log x.executionId := fun hu =>
        hbefore (hstate.trans (hrecovery hu))
      simp [hopen, hunset, hnone, hold]
    | attempt hs hset hcompensates => simp [hs, hset, hcompensates, executionStateIsTerminal]
    | finished hterminal => simp [hterminal]
    | verdict hterminal => simp [hterminal]
  · cases hcase with
    | unset hopen => simp [hopen]
    | attempt hs => simp [hs, executionStateIsTerminal]
    | finished hterminal hset hnone => simp [hset, hnone]
    | verdict hterminal hunset hends => simp [hterminal, hunset, hends]

/-- A step that is no transition of the execution. -/
theorem FinishInv.step_other (h : FinishInv requests log w)
    (hmay : may (requests p) (own p log) o) (hother : transitions e ⟨o, (o.exec i w).1⟩ = false)
    (hx : find (o.exec i w).2.executions e = some x) :
    FinishOk requests ((p, ⟨o, (o.exec i w).1⟩) :: log) x := by
  have hkey : x.executionId = e := find_key hx
  subst hkey
  have hended : EndedByVerdict requests ((p, ⟨o, (o.exec i w).1⟩) :: log) x.executionId ↔
      EndedByVerdict requests log x.executionId := recordedFor_other hother
  have hattempted : Unrecovered requests ((p, ⟨o, (o.exec i w).1⟩) :: log) x.executionId ↔
      Unrecovered requests log x.executionId := recordedFor_other hother
  suffices hold : FinishOk requests log x by
    refine ⟨fun hopen => ?_, fun hterminal => ?_⟩
    · rw [hended, hattempted]
      exact hold.open_ hopen
    · rw [hended]
      exact hold.closed hterminal
  have hstep := execution_step (i := i) (w := w) hmay x.executionId
  rw [hx] at hstep
  generalize hrow : find w.executions x.executionId = row at hstep
  generalize (o.exec i w).1 = r at hstep hother
  clear hended hattempted
  generalize hid : x.executionId = e at hstep hother hrow
  cases hstep with
  | same => exact h.rows hrow
  | authorized _ write =>
    obtain ⟨hnot, hnone⟩ := h.absent hrow
    rw [← hid] at hnot hnone
    obtain ⟨-, hstate⟩ := AuthorizationWrite.execution_new write
    refine ⟨fun _ => ⟨hnot, fun hu => absurd hu hnone, ?_⟩, fun hterminal => ?_⟩
    · simp [write.unfinished, hnone]
    · rcases hstate with hs | hs <;> rw [hs] at hterminal <;> cases hterminal
  | @claimed _ y _ _ pre =>
    obtain ⟨hnot, hrecovery, hset⟩ := (h.rows hrow).open_ (preClaim_not_terminal pre)
    refine ⟨fun _ => ⟨hnot, fun hu => ?_, hset⟩, fun hterminal => by cases hterminal⟩
    rw [hrecovery hu] at pre
    cases pre
  | @canceled y _ _ _ _ _ _ cancelable =>
    obtain ⟨hnot, -, -⟩ := (h.rows hrow).open_ (cancelable_not_terminal cancelable)
    exact ⟨fun hopen => (by cases hopen), fun _ => by simpa using hnot⟩
  | transition id_ => exact absurd hother (by simp [transitions, id_])

theorem FinishInv.step (h : FinishInv requests log w) (ht : Trusted w (own p log))
    (hread : Unfinished (own p log)) (hmay : may (requests p) (own p log) o) :
    FinishInv requests ((p, ⟨o, (o.exec i w).1⟩) :: log) (o.exec i w).2 where
  absent := by
    intro e hnone
    have hbefore : find w.executions e = none := by
      cases hrow : find w.executions e with
      | none => rfl
      | some x =>
        obtain ⟨x', hx', -⟩ := (stable_step (i := i) ht hmay).executions hrow
        rw [hnone] at hx'
        cases hx'
    cases hy : transitions e ⟨o, (o.exec i w).1⟩ with
    | false =>
      obtain ⟨hnot, hnot'⟩ := h.absent hbefore
      exact ⟨fun hended => hnot ((recordedFor_other hy).mp hended),
        fun hu => hnot' ((recordedFor_other hy).mp hu)⟩
    | true =>
      obtain ⟨x, c, outbox, heq, rfl⟩ := transitions_true hy
      obtain ⟨rfl, hr⟩ := Sigma.mk.inj heq
      rw [(transition_stored (eq_of_heq hr)).2.1] at hnone
      cases hnone
  rows := by
    intro e x hx
    cases hy : transitions e ⟨o, (o.exec i w).1⟩ with
    | false => exact h.step_other hmay hy hx
    | true =>
      obtain ⟨x', c, outbox, heq, rfl⟩ := transitions_true hy
      obtain ⟨rfl, hr⟩ := Sigma.mk.inj heq
      rw [(transition_stored (eq_of_heq hr)).2.1] at hx
      cases hx
      rw [eq_of_heq hr]
      exact h.step_transition hread hmay (eq_of_heq hr)

/-- A row that was read was stored once. -/
theorem ReadExecution.seen {Inv : GatewayLog → World → Prop} {Ext : World → World → Prop}
    (hinv : ∀ log₁ w₁, Inv log₁ w₁ → PairInv w₁) (hseen : ∀ y ∈ t, Seen Op.exec Inv Ext w y)
    (h : ReadExecution t x) :
    ∃ log₁ w₁, Inv log₁ w₁ ∧ find w₁.executions x.executionId = some x := by
  cases h with
  | byId read =>
    obtain ⟨log₁, w₁, i, h₁, hreply, -, -⟩ := hseen _ read
    exact ⟨log₁, w₁, h₁, (readWith_ok hreply.symm).symm⟩
  | stale read mem =>
    obtain ⟨log₁, w₁, i, h₁, hreply, -, -⟩ := hseen _ read
    rw [readWith_ok hreply.symm] at mem
    exact ⟨log₁, w₁, h₁, (hinv log₁ w₁ h₁).stale_stored mem⟩

theorem finishInv_of_conforms (h : Conforms requests {} log w) : FinishInv requests log w := by
  have hread : ∀ {log : GatewayLog} {w : World} {p : Nat},
      (∀ entry ∈ log, Seen Op.exec (fun log₁ w₁ => log₁ ⊆ log ∧ PairInv w₁ ∧
        FinishInv requests log₁ w₁) (fun _ _ => True) w entry.2) → Unfinished (own p log) := by
    intro log w p hseen x hx hstate
    obtain ⟨log₁, w₁, ⟨-, -, hinv⟩, hfind⟩ :=
      hx.seen (fun _ _ h => h.2.1) fun y hy => hseen _ (mem_own.mp hy)
    obtain ⟨hopen, hne⟩ := underway_open hstate
    obtain ⟨-, hrecovery, hset⟩ := (hinv.rows hfind).open_ hopen
    rw [Bool.eq_false_iff]
    exact fun hsome => hne (hrecovery (hset.mp hsome))
  have hhistory := Behaviour.history (fun log w => PairInv w ∧ FinishInv requests log w)
    (fun _ _ => True) (fun _ => trivial) (fun _ _ _ _ _ => trivial) ⟨.empty, .empty⟩
    (fun {log w} p o i hb hinv hseen hmay => by
      obtain ⟨hpair, htrusted⟩ := pairInv_of_conforms hb
      exact ⟨⟨pairInv_step hpair (htrusted p) hmay,
        hinv.2.step (htrusted p) (hread hseen) hmay⟩, trivial⟩) h
  exact hhistory.1.2

/-- **When the finish time tells a terminal state**: in every state that a run from the empty store
reaches, `finished_at` is set exactly when the state is terminal, if and only if no verify or
commit request has ended the execution and no compensation has left it in `RecoveryRequired`. -/
theorem finished_iff_terminal (state : AppState) (requests : Nat → Request) (s : Schedule)
    (e : ExecutionId) (x : ExecutionRecord)
    (hx : find (run state requests {} s).world.executions e = some x) :
    (x.finishedAt.isSome = true ↔ executionStateIsTerminal x.state = true) ↔
      ¬ EndedByVerdict requests (run state requests {} s).log e ∧
        ¬ (x.state = .recoveryRequired ∧ Unrecovered requests (run state requests {} s).log e) := by
  have hok := (finishInv_of_conforms (run_conforms state requests {} s)).rows hx
  rw [show e = x.executionId from (find_key hx).symm]
  cases hterminal : executionStateIsTerminal x.state with
  | true =>
    have hne : x.state ≠ .recoveryRequired := by
      intro hs
      rw [hs] at hterminal
      cases hterminal
    simpa [hne] using hok.closed hterminal
  | false =>
    obtain ⟨hnot, hrecovery, hset⟩ := hok.open_ hterminal
    rw [hset]
    simp only [Bool.false_eq_true, iff_false, hnot, not_false_eq_true, true_and, not_and]
    exact ⟨fun hu _ => hu, fun hu hold => hu (hrecovery hold) hold⟩

namespace Sample

/-- The side effect is verified, and committed with the verification. -/
def committedByVerify : Gateway :=
  run state (Sample.requests fun _ => .verify none executionId) {} (executed ++ steps 6 40)

/-- The side effect's outcome is unknown, and a compensation does not recover it. -/
def unrecovered : Gateway :=
  run state (Sample.requests fun _ => .compensate none executionId) {}
    (prepared ++ List.replicate 40 (5, { input with executeReply := none }) ++
      List.replicate 40 (6, { input with compensateReply := some ⟨false, []⟩ }))

/-- The side effect is compensated. -/
def compensated : Gateway :=
  run state (Sample.requests fun _ => .compensate none executionId) {} (executed ++ steps 6 40)

/-- What the stored row of the sample's execution says about its end. -/
def ending (gateway : Gateway) : Option (ExecutionState × Bool) :=
  (find gateway.world.executions executionId).map fun x => (x.state, x.finishedAt.isSome)

end Sample

/-- A committed execution without a finish time, and one in recovery with it. -/
theorem finish_time_misplaced :
    Sample.ending Sample.committedByVerify = some (.committed, false) ∧
      Sample.ending Sample.unrecovered = some (.recoveryRequired, true) := by
  constructor <;> decide +kernel

/-- The finish time of the compensated sample is where it should be. -/
theorem finished_iff_terminal_sample :
    ∃ x, find Sample.compensated.world.executions Sample.executionId = some x ∧
      (x.finishedAt.isSome = true ↔ executionStateIsTerminal x.state = true) := by
  have hending : Sample.ending Sample.compensated = some (.compensated, true) := by
    decide +kernel
  obtain ⟨x, hx, hpair⟩ := Option.map_eq_some_iff.mp hending
  obtain ⟨hstate, -⟩ := Prod.mk.inj hpair
  refine ⟨x, hx, ?_⟩
  unfold Sample.compensated at hx
  refine (finished_iff_terminal _ _ _ _ x hx).mpr ⟨?_, fun h => ?_⟩
  · rintro ⟨p, _, _, _, _, _, hasked, -⟩
    match p, hasked with
    | 0, h | 1, h | 2, h | 3, h | 4, h | 5, h | _ + 6, h => cases h
  · rw [hstate] at h
    cases h.1

end FerrumGate
