import Mathlib.Data.List.Basic
import Mathlib.Data.List.Induction

/-!
# The write queue

`ferrum-store/src/sqlite/write_queue.rs`: callers hand their operations to one writer task through
a bounded channel, and `pending_ops` counts the operations on their way. A call raises the counter
before it asks the channel for room; the writer lowers it after an operation, and a call lowers it
again if the channel is closed (or, for `try_fire_and_forget`, full).

* `accounts_run` : at any moment the counter is the number of operations accepted and not
  processed, of calls between raising the counter and their operation's acceptance, and of `send`
  futures that were dropped in between.
* **`pending_depth_iff`** : so between calls the depth is right exactly if no future was ever
  dropped there. Such a future never lowers the counter (`dropped_while_waiting`).
* **`executed_in_order`** : operations are executed in the order of their acceptance, each once.

What an operation does to the database is left out, and so are the 64 bits of the counter.
-/

namespace FerrumGate.WriteQueue

variable {Op : Type}

/-! ## Calls, writer, channel -/

/-- How far a call has got. -/
inductive Call (Op : Type) where
  /-- `send` has raised the counter and is about to ask for room. -/
  | sending (op : Op)
  /-- `send` has used up the budget of its task and is polled again later, whether or not there is
  room; here its future can be dropped. -/
  | yielding (op : Op)
  /-- `send` waits for room; here its future can be dropped, too. -/
  | waiting (op : Op)
  /-- `try_fire_and_forget` has raised the counter and is about to ask for room. -/
  | trying (op : Op)
  /-- The channel did not take the operation, and the counter is about to be lowered. -/
  | refused
  /-- The operation is in the channel and `send` waits for the reply; here its future can be
  dropped as well. -/
  | awaiting
  /-- The call has returned, or its future was dropped. -/
  | ended
  deriving DecidableEq

/-- The call has raised the counter for an operation that the channel does not have (yet). -/
def Call.counted : Call Op → Bool
  | .sending _ | .yielding _ | .waiting _ | .trying _ | .refused => true
  | .awaiting | .ended => false

def Call.isWaiting : Call Op → Bool
  | .waiting _ => true
  | _ => false

def Call.isOver : Call Op → Bool
  | .ended => true
  | _ => false

/-- Where the writer task is. -/
inductive Writer (Op : Type) where
  | receiving
  /-- An operation is executed; `last` if a shutdown was requested when it was received. -/
  | executing (op : Op) (last : Bool)
  | draining
  | drainingOp (op : Op)
  /-- Both loops are left, and the receiver is about to be dropped. -/
  | ending
  | stopped
  deriving DecidableEq

/-- The number of operations that the writer has taken out of the channel and not processed. -/
def Writer.inHand : Writer Op → Nat
  | .executing _ _ | .drainingOp _ => 1
  | _ => 0

structure State (Op : Type) where
  pendingOps : Nat := 0
  /-- The operations in the channel, the oldest first. -/
  channel : List Op := []
  /-- Every call made so far. -/
  calls : List (Call Op) := []
  writer : Writer Op := .receiving
  shutdownRequested : Bool := false
  /-- All senders are gone. -/
  sendersDropped : Bool := false
  /-- How many operations the channel has accepted so far. -/
  accepted : Nat := 0
  /-- How many the writer has processed. -/
  processed : Nat := 0
  /-- How many went down with the receiver. -/
  lost : Nat := 0
  /-- How many `send` futures were dropped before the channel had their operation. -/
  abandoned : Nat := 0
  deriving DecidableEq

/-- `pending_depth` -/
def State.pendingDepth (s : State Op) : Nat := s.pendingOps

/-- `WRITE_QUEUE_CAPACITY` -/
def writeQueueCapacity : Nat := 256

/-! ## Steps -/

/-- What can happen next; the number of a call says which one it is. -/
inductive Event (Op : Type) where
  /-- `send` (or one of the calls with a reply of their own) raises the counter. -/
  | send (op : Op)
  /-- `try_fire_and_forget` raises the counter. -/
  | tryFireAndForget (op : Op)
  /-- The call goes on; `room` if the channel has a permit for it. -/
  | poll (call : Nat) (room : Bool)
  /-- The call is polled without a budget. -/
  | pollSpent (call : Nat)
  /-- The future of the call is dropped. -/
  | dropFuture (call : Nat)
  | dropSenders
  | requestShutdown
  /-- `rx.recv()` is ready. -/
  | receive
  /-- `execute_write_op` returns and the counter is lowered. -/
  | finish
  /-- The 100 ms of a `recv` are over. -/
  | timeout
  | dropReceiver
  /-- The writer task panics or is aborted. -/
  | crash
  deriving DecidableEq

namespace State

def setCall (s : State Op) (i : Nat) (call : Call Op) : State Op :=
  { s with calls := s.calls.set i call }

/-- There may be no permit: the channel is full, or calls are waiting, which get one first. -/
def crowded (capacity : Nat) (s : State Op) : Bool :=
  s.channel.length = capacity || s.calls.any Call.isWaiting

/-- The channel takes an operation. -/
def accept (s : State Op) (op : Op) : State Op :=
  { s with channel := s.channel ++ [op], accepted := s.accepted + 1 }

/-- A call asks for room: the channel takes the operation, is closed, or has no room. -/
def reserve (capacity : Nat) (s : State Op) (i : Nat) (op : Op) (room : Bool)
    (taken noRoom : Call Op) : State Op :=
  match s.writer with
  | .stopped => s.setCall i .refused
  | _ =>
    if room then
      if s.channel.length < capacity then (s.setCall i taken).accept op else s
    else if s.crowded capacity then s.setCall i noRoom else s

/-- The call goes on. -/
def poll (capacity : Nat) (s : State Op) (i : Nat) (room : Bool) : State Op :=
  match s.calls[i]? with
  | some (.sending op) | some (.yielding op) | some (.waiting op) =>
    s.reserve capacity i op room .awaiting (.waiting op)
  | some (.trying op) => s.reserve capacity i op room .ended .refused
  | some .refused => { s.setCall i .ended with pendingOps := s.pendingOps - 1 }
  | some .awaiting => s.setCall i .ended
  | _ => s

/-- A call that waits keeps its place. -/
def pollSpent (s : State Op) (i : Nat) : State Op :=
  match s.calls[i]? with
  | some (.sending op) => s.setCall i (.yielding op)
  | _ => s

/-- A future is dropped at one of its two awaits. -/
def dropFuture (s : State Op) (i : Nat) : State Op :=
  match s.calls[i]? with
  | some (.yielding _) | some (.waiting _) =>
    { s.setCall i .ended with abandoned := s.abandoned + 1 }
  | some .awaiting => s.setCall i .ended
  | _ => s

/-- The receiver is dropped with what is in the channel. -/
def stop (s : State Op) : State Op :=
  { s with
    writer := .stopped
    channel := []
    lost := s.lost + s.channel.length + s.writer.inHand }

/-- What `recv` gives: the oldest operation, or nothing if all senders are gone. -/
def receive (s : State Op) : State Op :=
  match s.writer, s.channel with
  | .receiving, op :: rest =>
    { s with writer := .executing op s.shutdownRequested, channel := rest }
  | .receiving, [] => if s.sendersDropped then { s with writer := .draining } else s
  | .draining, op :: rest => { s with writer := .drainingOp op, channel := rest }
  | .draining, [] => if s.sendersDropped then { s with writer := .ending } else s
  | _, _ => s

/-- The operation in hand is done. -/
def processedOp (s : State Op) (writer : Writer Op) : State Op :=
  { s with writer, pendingOps := s.pendingOps - 1, processed := s.processed + 1 }

def finish (s : State Op) : State Op :=
  match s.writer with
  | .executing _ last => s.processedOp (if last then .draining else .receiving)
  | .drainingOp _ => s.processedOp .draining
  | _ => s

/-- No operation came. -/
def timeout (s : State Op) : State Op :=
  match s.writer, s.channel with
  | .receiving, [] => if s.shutdownRequested then { s with writer := .draining } else s
  | .draining, [] => { s with writer := .ending }
  | _, _ => s

def dropReceiver (s : State Op) : State Op :=
  match s.writer with
  | .ending => s.stop
  | _ => s

/-- A call raises the counter. -/
def start (s : State Op) (call : Call Op) : State Op :=
  if s.sendersDropped then s
  else { s with pendingOps := s.pendingOps + 1, calls := s.calls ++ [call] }

/-- A call borrows its sender. -/
def dropSenders (s : State Op) : State Op :=
  if s.calls.all Call.isOver then { s with sendersDropped := true } else s

/-- One step; an event that cannot happen now changes nothing. -/
def step (capacity : Nat) (s : State Op) : Event Op → State Op
  | .send op => s.start (.sending op)
  | .tryFireAndForget op => s.start (.trying op)
  | .poll i room => s.poll capacity i room
  | .pollSpent i => s.pollSpent i
  | .dropFuture i => s.dropFuture i
  | .dropSenders => s.dropSenders
  | .requestShutdown => { s with shutdownRequested := true }
  | .receive => s.receive
  | .finish => s.finish
  | .timeout => s.timeout
  | .dropReceiver => s.dropReceiver
  | .crash => s.stop

end State

/-- The queue after a schedule of calls and writer. -/
def run (capacity : Nat) (events : List (Event Op)) : State Op :=
  events.foldl (State.step capacity) {}

/-! ## The counter -/

/-- What the counter counts, and where the accepted operations are. -/
structure Accounts (s : State Op) : Prop where
  counter : s.pendingOps + s.processed =
    s.accepted + s.calls.countP Call.counted + s.abandoned
  operations : s.accepted = s.processed + s.channel.length + s.writer.inHand + s.lost
  intact : s.writer ≠ .stopped → s.lost = 0

section Steps

variable {s : State Op} {i capacity : Nat} {c c' : Call Op}

theorem countP_set (h : s.calls[i]? = some c) (c' : Call Op) :
    (s.calls.set i c').countP Call.counted + c.counted.toNat =
      s.calls.countP Call.counted + c'.counted.toNat := by
  obtain ⟨hi, hc⟩ := List.getElem?_eq_some_iff.1 h
  have hpos : c.counted = true → 0 < s.calls.countP Call.counted := fun hcounted =>
    List.countP_pos_iff.2 ⟨c, List.mem_of_getElem? h, hcounted⟩
  rw [List.countP_set hi, hc]
  cases hcounted : c.counted <;> cases c'.counted <;> simp_all

/-- A call that stays counted, or stays uncounted. -/
theorem Accounts.setCall (h : Accounts s) (hc : s.calls[i]? = some c)
    (hsame : c'.counted = c.counted) : Accounts (s.setCall i c') := by
  have hcount := countP_set hc c'
  rw [hsame] at hcount
  refine ⟨?_, h.operations, h.intact⟩
  simp only [State.setCall]
  rw [h.counter, Nat.add_right_cancel hcount]

/-- The channel takes the operation of a counted call. -/
theorem Accounts.accept (h : Accounts s) (hc : s.calls[i]? = some c) (hcounted : c.counted = true)
    (htaken : c'.counted = false) (op : Op) : Accounts ((s.setCall i c').accept op) := by
  have hcount := countP_set hc c'
  rw [hcounted, htaken] at hcount
  obtain ⟨hcounter, hoperations, hintact⟩ := h
  refine ⟨?_, ?_, hintact⟩
  · simp only [State.accept, State.setCall, Bool.toNat_true, Bool.toNat_false] at hcount ⊢
    omega
  · simp only [State.accept, State.setCall, List.length_append, List.length_singleton]
    omega

theorem Accounts.reserve (h : Accounts s) (hc : s.calls[i]? = some c) (hcounted : c.counted = true)
    {taken noRoom : Call Op} (htaken : taken.counted = false) (hnoRoom : noRoom.counted = true)
    (op : Op) (room : Bool) : Accounts (s.reserve capacity i op room taken noRoom) := by
  unfold State.reserve
  split
  · exact h.setCall hc hcounted.symm
  · split_ifs
    · exact h.accept hc hcounted htaken op
    · exact h
    · exact h.setCall hc (hnoRoom.trans hcounted.symm)
    · exact h

theorem Accounts.poll (h : Accounts s) (i : Nat) (room : Bool) :
    Accounts (s.poll capacity i room) := by
  unfold State.poll
  split
  iterate 4
    next op hc => exact h.reserve hc rfl rfl rfl op room
  · next hc =>
    -- the call is one of those counted, so that the counter can be lowered
    have hcount := countP_set hc .ended
    obtain ⟨hcounter, hoperations, hintact⟩ := h
    refine ⟨?_, hoperations, hintact⟩
    simp only [State.setCall, Call.counted, Bool.toNat_true, Bool.toNat_false] at hcount ⊢
    omega
  · next hc => exact h.setCall hc rfl
  · exact h

/-- A future that is dropped before the channel has its operation keeps what it added to the
counter. -/
theorem Accounts.abandon (h : Accounts s) (hc : s.calls[i]? = some c)
    (hcounted : c.counted = true) :
    Accounts { s.setCall i .ended with abandoned := s.abandoned + 1 } := by
  have hcount := countP_set hc .ended
  rw [hcounted] at hcount
  obtain ⟨hcounter, hoperations, hintact⟩ := h
  refine ⟨?_, hoperations, hintact⟩
  simp only [State.setCall, Call.counted, Bool.toNat_true, Bool.toNat_false] at hcount ⊢
  omega

theorem Accounts.dropFuture (h : Accounts s) (i : Nat) : Accounts (s.dropFuture i) := by
  unfold State.dropFuture
  split
  · next hc => exact h.abandon hc rfl
  · next hc => exact h.abandon hc rfl
  · next hc => exact h.setCall hc rfl
  · exact h

theorem Accounts.stop (h : Accounts s) : Accounts s.stop := by
  refine ⟨h.counter, ?_, fun hne => absurd rfl hne⟩
  simp only [State.stop, List.length_nil]
  rw [h.operations, show (Writer.stopped : Writer Op).inHand = 0 from rfl]
  omega

/-- The writer goes elsewhere; what it takes out of the channel it has in hand. -/
theorem Accounts.moveWriter (h : Accounts s) (hruns : s.writer ≠ .stopped) {writer : Writer Op}
    {channel : List Op}
    (hheld : channel.length + writer.inHand = s.channel.length + s.writer.inHand) :
    Accounts { s with writer, channel } := by
  refine ⟨h.counter, ?_, fun _ => h.intact hruns⟩
  have hoperations := h.operations
  simp only
  omega

theorem Accounts.receive (h : Accounts s) : Accounts s.receive := by
  unfold State.receive
  split
  · next hwriter hchannel =>
    exact h.moveWriter (by simp [hwriter]) (by rw [hwriter, hchannel]; rfl)
  · next hwriter hchannel =>
    split_ifs
    · exact h.moveWriter (by simp [hwriter]) (by rw [hwriter]; rfl)
    · exact h
  · next hwriter hchannel =>
    exact h.moveWriter (by simp [hwriter]) (by rw [hwriter, hchannel]; rfl)
  · next hwriter hchannel =>
    split_ifs
    · exact h.moveWriter (by simp [hwriter]) (by rw [hwriter]; rfl)
    · exact h
  · exact h

theorem Accounts.timeout (h : Accounts s) : Accounts s.timeout := by
  unfold State.timeout
  split
  · next hwriter hchannel =>
    split_ifs
    · exact h.moveWriter (by simp [hwriter]) (by rw [hwriter]; rfl)
    · exact h
  · next hwriter hchannel => exact h.moveWriter (by simp [hwriter]) (by rw [hwriter]; rfl)
  · exact h

/-- The operation in hand is one of those counted, so that the counter can be lowered. -/
theorem Accounts.processedOp (h : Accounts s) (hhand : s.writer.inHand = 1) {writer : Writer Op}
    (hwriter : writer.inHand = 0) : Accounts (s.processedOp writer) := by
  obtain ⟨hcounter, hoperations, hintact⟩ := h
  have hruns : s.writer ≠ .stopped := fun hstopped => by
    rw [hstopped] at hhand
    cases hhand
  refine ⟨?_, ?_, fun _ => hintact hruns⟩
  · simp only [State.processedOp]
    omega
  · simp only [State.processedOp]
    omega

theorem Accounts.finish (h : Accounts s) : Accounts s.finish := by
  unfold State.finish
  split
  · next op last hwriter =>
    refine h.processedOp (by rw [hwriter]; rfl) ?_
    cases last <;> rfl
  · next op hwriter => exact h.processedOp (by rw [hwriter]; rfl) rfl
  · exact h

theorem Accounts.start (h : Accounts s) (hcounted : c.counted = true) : Accounts (s.start c) := by
  unfold State.start
  split_ifs
  · exact h
  · obtain ⟨hcounter, hoperations, hintact⟩ := h
    refine ⟨?_, hoperations, hintact⟩
    simp only [List.countP_append, List.countP_singleton, hcounted, if_true]
    omega

/-- **One step.** -/
theorem Accounts.step (h : Accounts s) (event : Event Op) : Accounts (s.step capacity event) := by
  cases event with
  | send op => exact h.start rfl
  | tryFireAndForget op => exact h.start rfl
  | poll i room => exact h.poll i room
  | pollSpent i =>
    change Accounts (s.pollSpent i)
    unfold State.pollSpent
    split
    · next hc => exact h.setCall hc rfl
    · exact h
  | dropFuture i => exact h.dropFuture i
  | dropSenders =>
    change Accounts s.dropSenders
    unfold State.dropSenders
    split_ifs
    · exact ⟨h.counter, h.operations, h.intact⟩
    · exact h
  | requestShutdown => exact ⟨h.counter, h.operations, h.intact⟩
  | receive => exact h.receive
  | finish => exact h.finish
  | timeout => exact h.timeout
  | dropReceiver =>
    change Accounts s.dropReceiver
    unfold State.dropReceiver
    split
    · exact h.stop
    · exact h
  | crash => exact h.stop

end Steps

section Runs

variable (capacity : Nat)

theorem run_concat (events : List (Event Op)) (event : Event Op) :
    run capacity (events ++ [event]) = (run capacity events).step capacity event :=
  List.foldl_concat ..

/-- **A whole schedule.** -/
theorem accounts_run (events : List (Event Op)) : Accounts (run capacity events) := by
  induction events using List.reverseRecOn with
  | nil => exact ⟨rfl, rfl, fun _ => rfl⟩
  | append_singleton events event ih =>
    rw [run_concat]
    exact ih.step event

/-- No `send` call is in progress. -/
def State.Idle (s : State Op) : Prop := ∀ call ∈ s.calls, call.isOver = true

theorem State.Idle.counted {s : State Op} (h : s.Idle) : s.calls.countP Call.counted = 0 := by
  rw [List.countP_eq_zero]
  intro call hcall
  have hover := h call hcall
  cases call with
  | ended => exact Bool.false_ne_true
  | _ => cases hover

/-- **When the depth is right.** Between calls it is the number of operations that were accepted and
not processed, and zero once the writer has emptied the channel, exactly if no `send` future was
dropped before the channel had its operation. -/
theorem pending_depth_iff (events : List (Event Op)) (hidle : (run capacity events).Idle) :
    ((run capacity events).pendingDepth =
        (run capacity events).accepted - (run capacity events).processed ↔
      (run capacity events).abandoned = 0) ∧
    ((run capacity events).writer ≠ .stopped → (run capacity events).writer.inHand = 0 →
      (run capacity events).channel = [] →
      ((run capacity events).pendingDepth = 0 ↔ (run capacity events).abandoned = 0)) := by
  obtain ⟨hcounter, hoperations, hintact⟩ := accounts_run capacity events
  rw [hidle.counted] at hcounter
  unfold State.pendingDepth
  refine ⟨by omega, fun hruns hhand hchannel => ?_⟩
  rw [hhand, hchannel, List.length_nil, hintact hruns] at hoperations
  omega

end Runs

/-- The channel has room for one operation; a second `send` waits until the writer has taken the
first one. -/
def waitingSchedule : List (Event Nat) :=
  [.send 1, .pollSpent 0, .poll 0 true, .send 2, .poll 1 false, .receive, .poll 1 true, .finish,
    .receive, .finish, .poll 0 true, .poll 1 true]

theorem pending_depth_after_wait :
    (run 1 waitingSchedule).Idle ∧ (run 1 waitingSchedule).accepted = 2 ∧
    (run 1 waitingSchedule).pendingDepth = 0 := by
  have hidle : (run 1 waitingSchedule).Idle := by
    unfold State.Idle
    decide
  have hruns : (run 1 waitingSchedule).writer ≠ .stopped := by decide
  exact ⟨hidle, rfl, ((pending_depth_iff _ _ hidle).2 hruns rfl rfl).mpr rfl⟩

/-- The channel is filled; one more `send` waits for room and is dropped; then the writer empties
the channel. -/
def droppedSchedule : List (Event Unit) :=
  (List.range writeQueueCapacity).flatMap (fun i => [.tryFireAndForget (), .poll i true]) ++
    [.send (), .poll writeQueueCapacity false, .dropFuture writeQueueCapacity] ++
    (List.range writeQueueCapacity).flatMap (fun _ => [.receive, .finish])

/-- **The depth stays at one** with all calls over, all operations processed, and the writer waiting
in front of an empty channel. -/
theorem dropped_while_waiting :
    (run writeQueueCapacity droppedSchedule).calls.all Call.isOver = true ∧
    (run writeQueueCapacity droppedSchedule).writer = .receiving ∧
    (run writeQueueCapacity droppedSchedule).channel = [] ∧
    (run writeQueueCapacity droppedSchedule).accepted = writeQueueCapacity ∧
    (run writeQueueCapacity droppedSchedule).processed = writeQueueCapacity ∧
    (run writeQueueCapacity droppedSchedule).pendingDepth = 1 := by
  decide +kernel

/-! ## The order of the operations -/

/-- What the writer has taken and not processed. -/
def Writer.held : Writer Op → List Op
  | .executing op _ | .drainingOp op => [op]
  | _ => []

/-- What has been accepted and not processed, the oldest first. -/
def State.onTheWay (s : State Op) : List Op := s.writer.held ++ s.channel

/-- The operations that the channel takes in a step. -/
def taken (s s' : State Op) : List Op := s'.channel.drop s.channel.length

/-- The operations that the writer ends in a step. -/
def ended (s s' : State Op) : List Op := if s'.processed = s.processed then [] else s.writer.held

/-- What the steps of a schedule show; the last event stands first. -/
def observed (f : State Op → State Op → List Op) (capacity : Nat) : List (Event Op) → List Op
  | [] => []
  | event :: before =>
    let s := run capacity before.reverse
    observed f capacity before ++ f s (s.step capacity event)

section Order

variable {s s' : State Op}

/-- Operations come in at the back and end at the front, or the writer is gone. -/
def Passes (s s' : State Op) : Prop :=
  s'.writer = .stopped ∧ taken s s' = [] ∧ ended s s' = [] ∨
    s.writer ≠ .stopped ∧ s.onTheWay ++ taken s s' = ended s s' ++ s'.onTheWay

theorem Passes.of_same (hchannel : s'.channel = s.channel) (hwriter : s'.writer = s.writer)
    (hprocessed : s'.processed = s.processed) : Passes s s' := by
  by_cases h : s.writer = .stopped
  · exact .inl ⟨hwriter.trans h, by simp [taken, hchannel], if_pos hprocessed⟩
  · exact .inr ⟨h, by simp [taken, ended, State.onTheWay, hchannel, hwriter, hprocessed]⟩

theorem Passes.stop : Passes s s.stop := .inl ⟨rfl, List.drop_nil, if_pos rfl⟩

theorem passes_step (capacity : Nat) (event : Event Op) : Passes s (s.step capacity event) := by
  cases event with
  | send op | tryFireAndForget op | pollSpent i | dropFuture i | dropSenders | requestShutdown =>
    simp only [State.step, State.start, State.pollSpent, State.dropFuture, State.dropSenders]
    (try split) <;> exact .of_same rfl rfl rfl
  | poll i room =>
    simp only [State.step, State.poll, State.reserve]
    (repeat' split) <;> first
      | exact .of_same rfl rfl rfl
      | next hruns _ _ =>
        exact .inr ⟨hruns, by simp [taken, ended, State.onTheWay, State.accept, State.setCall]⟩
  | receive | finish | timeout =>
    simp only [State.step, State.receive, State.finish, State.timeout, State.processedOp]
    (repeat' split) <;> first
      | exact .of_same rfl rfl rfl
      | simp_all [Passes, taken, ended, State.onTheWay, Writer.held]
  | dropReceiver =>
    simp only [State.step, State.dropReceiver]
    split
    · exact .stop
    · exact .of_same rfl rfl rfl
  | crash => exact .stop

/-- **Every accepted operation is executed once, in the order of acceptance**, up to those on their
way, whatever calls and writer do; operations are lost with the writer only. -/
theorem executed_in_order (capacity : Nat) (events : List (Event Op)) :
    observed ended capacity events <+: observed taken capacity events ∧
    ((run capacity events.reverse).writer ≠ .stopped →
      observed taken capacity events =
        observed ended capacity events ++ (run capacity events.reverse).onTheWay) := by
  induction events with
  | nil => exact ⟨List.nil_prefix, fun _ => rfl⟩
  | cons event before ih =>
    rw [List.reverse_cons, run_concat, observed, observed]
    rcases passes_step (s := run capacity before.reverse) capacity event with
      ⟨hstop, ht, he⟩ | ⟨hruns, hpasses⟩
    · rw [ht, he, List.append_nil, List.append_nil]
      exact ⟨ih.1, fun h => absurd hstop h⟩
    · have heq := congrArg (observed ended capacity before ++ ·) hpasses
      simp only [← List.append_assoc, ← ih.2 hruns] at heq
      exact ⟨⟨_, heq.symm⟩, fun _ => heq⟩

end Order

end FerrumGate.WriteQueue
