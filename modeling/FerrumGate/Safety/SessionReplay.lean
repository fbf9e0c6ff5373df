import FerrumGate.Mcp.SessionStore

/-!
# What a session replays, over every interleaving of appends

* **`session_within_bounds`** : the byte counter is the size of the buffer, and the buffer is within
  its bounds whenever no append is in progress.
* **`replay_without_gaps`** : an answer that is not stale holds every event after the client's, as
  long as the events are pushed in the order of their ids and each one fits by itself.
-/

namespace FerrumGate.Mcp

open Interleave

/-- What a call has done so far. -/
abbrev Calls := Transcript SessionOp SessionOp.Result

/-- A call draws, pushes what it has drawn, and enforces the bounds. -/
def may (t : Calls) : SessionOp → Prop
  | .draw => t = []
  | .push e => t = [⟨.draw, e.id⟩]
  | .enforce => ∃ e, t = [⟨.push e, ()⟩, ⟨.draw, e.id⟩]

def conduct : Conduct SessionOp SessionOp.Result := ⟨may, fun _ _ => True⟩

/-- How a call ends: it has done nothing, or it has done everything. -/
def Ended (payload : String) (r : Except SessionError UInt64) (t : Calls) : Prop :=
  (t = [] ∧ r = .error .payloadTooLarge) ∨
    ∃ id, r = .ok id ∧ t = [⟨.enforce, ()⟩, ⟨.push ⟨id, payload⟩, ()⟩, ⟨.draw, id⟩]

theorem appendEvent_obeys (l : Limits) (payload : String) :
    Obeys conduct (Ended payload) (appendEvent l payload) [] := by
  unfold appendEvent
  split_ifs
  · exact .inl ⟨rfl, rfl⟩
  · exact ⟨rfl, fun id _ => ⟨rfl, fun _ _ => ⟨⟨⟨id, payload⟩, rfl⟩, fun _ _ => .inr ⟨id, rfl, rfl⟩⟩⟩⟩

section Runs

variable (l : Limits) (payloads : Nat → String) (s : List (Nat × Unit))

theorem run_behaves :
    Behaviour (exec l) (mayOf fun _ => conduct) .new ((start l payloads).run (exec l) s).log
        ((start l payloads).run (exec l) s).world ∧
      ∀ p, Obeys conduct (Ended (payloads p)) (((start l payloads).run (exec l) s).procs p)
        (own p ((start l payloads).run (exec l) s).log) :=
  Config.run_behaviour (fun _ _ _ _ => trivial) .start (fun p => appendEvent_obeys l (payloads p)) s

end Runs

/-! ## Bounds -/

/-- The call has started and has not returned. -/
def InProgress (c : Config SessionOp SessionOp.Result McpSession (Except SessionError UInt64))
    (p : Nat) : Prop :=
  own p c.log ≠ [] ∧ ∀ r, c.procs p ≠ .pure r

/-- The call has pushed its event and nothing more. -/
def Pushed (p : Nat) (log : Log SessionOp SessionOp.Result) : Prop :=
  ∃ e t, own p log = ⟨.push e, ()⟩ :: t

/-- The buffer is within its bounds, or a call that has pushed will see to it. -/
structure Kept (l : Limits) (log : Log SessionOp SessionOp.Result) (w : McpSession) : Prop where
  total : w.totalBytes = bytesOf w.events
  bounds : (w.events.length ≤ l.maxEvents ∧ w.totalBytes ≤ l.maxTotalBytes) ∨ ∃ p, Pushed p log

theorem Pushed.aside {p q : Nat} {log : Log SessionOp SessionOp.Result} (h : Pushed p log)
    (hne : q ≠ p) (x : Reply SessionOp SessionOp.Result) : Pushed p ((q, x) :: log) := by
  obtain ⟨e, t, hown⟩ := h
  exact ⟨e, t, by rw [own_cons_ne hne, hown]⟩

theorem Kept.step {l : Limits} {log : Log SessionOp SessionOp.Result} {w : McpSession} (p : Nat)
    (o : SessionOp) (i : Unit) (hmay : may (own p log) o) (h : Kept l log w) :
    Kept l ((p, ⟨o, (exec l o i w).1⟩) :: log) (exec l o i w).2 := by
  cases o with
  | draw =>
    refine ⟨h.total, h.bounds.imp_right fun ⟨q, hq⟩ => ⟨q, hq.aside ?_ _⟩⟩
    rintro rfl
    obtain ⟨e, t, hown⟩ := hq
    rw [show own p log = [] from hmay] at hown
    cases hown
  | push e =>
    refine ⟨?_, .inr ⟨p, e, own p log, own_cons_self _ _ _⟩⟩
    simp [exec, McpSession.push, h.total, bytesOf]
  | enforce =>
    have hevicted := evict_spec l w.events w rfl h.total
    exact ⟨hevicted.total, .inl ⟨hevicted.length, hevicted.bytes⟩⟩

theorem kept_run (l : Limits) (payloads : Nat → String) (s : List (Nat × Unit)) :
    Kept l ((start l payloads).run (exec l) s).log ((start l payloads).run (exec l) s).world :=
  Config.run_preserves (P := Kept l) (fun _ _ _ _ => trivial)
    (fun p o i _ hmay h => h.step p o i hmay) .start
    (fun p => appendEvent_obeys l (payloads p)) ⟨rfl, .inl ⟨Nat.zero_le _, Nat.zero_le _⟩⟩ s

/-- **A session is within its bounds**: over every interleaving of any number of appends, the byte
counter is the sum of the retained payloads, and once no append is in progress the session retains
no more events and no more bytes than it may. -/
theorem session_within_bounds (l : Limits) (payloads : Nat → String) (s : List (Nat × Unit)) :
    ((start l payloads).run (exec l) s).world.totalBytes =
        bytesOf ((start l payloads).run (exec l) s).world.events ∧
    ((∀ p, ¬ InProgress ((start l payloads).run (exec l) s) p) →
      ((start l payloads).run (exec l) s).world.events.length ≤ l.maxEvents ∧
        bytesOf ((start l payloads).run (exec l) s).world.events ≤ l.maxTotalBytes) := by
  have h := kept_run l payloads s
  refine ⟨h.total, fun hidle => ?_⟩
  rcases h.bounds with ⟨hlength, hbytes⟩ | ⟨p, e, t, hown⟩
  · exact ⟨hlength, h.total ▸ hbytes⟩
  · refine absurd ⟨by rw [hown]; simp, fun r hr => ?_⟩ (hidle p)
    -- a call that has returned has enforced the bounds last
    have hend := (run_behaves l payloads s).2 p
    rw [hr, hown] at hend
    rcases hend with ⟨hnil, -⟩ | ⟨id, -, hall⟩
    · cases hnil
    · cases hall

/-! ## Replay -/

/-- The events pushed before have lower ids. -/
def SessionOp.below (id : UInt64) : SessionOp → Bool
  | .push e => e.id < id
  | _ => true

/-- An event is pushed after all those with lower ids, and fits by itself; the ids have not run out. -/
def inOrder (l : Limits)
    (c : Config SessionOp SessionOp.Result McpSession (Except SessionError UInt64)) (p : Nat)
    (_ : Unit) : Bool :=
  match c.procs p with
  | .perform (.push e) _ =>
    0 < e.id && e.bytes ≤ l.maxTotalBytes && c.log.all fun x => x.2.1.below e.id
  | _ => true

/-- What a run in order keeps: every event that was pushed is in the buffer, or before it. -/
structure Gapless (l : Limits) (log : Log SessionOp SessionOp.Result) (w : McpSession) : Prop where
  total : w.totalBytes = bytesOf w.events
  marked : Marked w
  sorted : w.events.Pairwise (·.id < ·.id)
  fits : ∀ e ∈ w.events, 0 < e.id ∧ e.bytes ≤ l.maxTotalBytes
  known : ∀ e ∈ w.events, ∃ q, (q, ⟨.push e, ()⟩) ∈ log
  covered : ∀ q e, (q, ⟨.push e, ()⟩) ∈ log → e ∈ w.events ∨ e.id < w.firstEventId

section Gapless

variable {l : Limits} {log : Log SessionOp SessionOp.Result} {w : McpSession}

theorem first_of_cons {e : ReplayEvent} {rest : List ReplayEvent} (h : Marked w)
    (hw : w.events = e :: rest) : w.firstEventId = e.id := by
  rw [h.first, hw]
  rfl

theorem first_of_nil (h : Marked w) (hw : w.events = []) : w.firstEventId = 0 := by
  rw [h.first, hw]
  rfl

theorem Gapless.push (h : Gapless l log w) (p : Nat) {e : ReplayEvent} (hid : 0 < e.id)
    (hfits : e.bytes ≤ l.maxTotalBytes)
    (hnew : ∀ q e', (q, ⟨.push e', ()⟩) ∈ log → e'.id < e.id) :
    Gapless l ((p, ⟨.push e, ()⟩) :: log) (w.push e) := by
  constructor
  · simp [McpSession.push, h.total, bytesOf]
  · refine ⟨?_, by simp [McpSession.push]⟩
    cases hw : w.events with
    | nil => simp [McpSession.push, hw, first_of_nil h.marked hw]
    | cons e' rest =>
      have hpos := (h.fits e' (by rw [hw]; exact List.mem_cons_self)).1
      have hne : e'.id ≠ 0 := (UInt64.ne_of_lt hpos).symm
      simp [McpSession.push, hw, first_of_cons h.marked hw, hne]
  · refine List.pairwise_append.mpr ⟨h.sorted, List.pairwise_singleton _ _, fun e' he' e'' he'' => ?_⟩
    obtain ⟨q, hq⟩ := h.known e' he'
    rw [List.mem_singleton.mp he'']
    exact hnew q e' hq
  · intro e' he'
    rcases List.mem_append.mp he' with he' | he'
    · exact h.fits e' he'
    · rw [List.mem_singleton.mp he']
      exact ⟨hid, hfits⟩
  · intro e' he'
    rcases List.mem_append.mp he' with he' | he'
    · obtain ⟨q, hq⟩ := h.known e' he'
      exact ⟨q, List.mem_cons_of_mem _ hq⟩
    · rw [List.mem_singleton.mp he']
      exact ⟨p, List.mem_cons_self⟩
  · intro q e' hmem
    rcases List.mem_cons.mp hmem with heq | hmem
    · cases heq
      exact .inl (List.mem_append_right _ (List.mem_singleton_self _))
    · rcases h.covered q e' hmem with he' | hlt
      · exact .inl (List.mem_append_left _ he')
      · right
        have hne : w.firstEventId ≠ 0 := by
          rintro h0
          rw [h0] at hlt
          exact UInt64.not_lt_zero hlt
        simpa [McpSession.push, hne] using hlt

/-- The events that the loop removes come before the first one it leaves. -/
theorem Gapless.enforce (h : Gapless l log w) (p : Nat) :
    Gapless l ((p, ⟨.enforce, ()⟩) :: log) (w.enforceBounds l) := by
  have hev := evict_spec l w.events w rfl h.total
  obtain ⟨dropped, hsplit⟩ := hev.suffix
  have hmem : ∀ e ∈ (evict l w.events w).events, e ∈ w.events := fun e he => hev.suffix.subset he
  have hsorted := h.sorted
  rw [← hsplit, List.pairwise_append] at hsorted
  refine ⟨hev.total, hev.marked h.marked, hsorted.2.1, fun e he => h.fits e (hmem e he),
    fun e he => ?_, fun q e hq => ?_⟩
  · obtain ⟨q, hq⟩ := h.known e (hmem e he)
    exact ⟨q, List.mem_cons_of_mem _ hq⟩
  · rcases List.mem_cons.mp hq with heq | hq
    · cases heq
    cases hleft : (evict l w.events w).events with
    | nil =>
      -- the newest event fits by itself, so there was none
      cases hlast : w.events.getLast? with
      | some newest =>
        have hfits := (h.fits newest (List.mem_of_getLast? hlast)).2
        exact absurd hleft (hev.keeps newest hlast hfits)
      | none =>
        have hw : w.events = [] := List.getLast?_eq_none_iff.mp hlast
        rcases h.covered q e hq with he | hlt
        · rw [hw] at he
          cases he
        · rw [first_of_nil h.marked hw] at hlt
          exact absurd hlt UInt64.not_lt_zero
    | cons first rest =>
      have hfirst : (w.enforceBounds l).firstEventId = first.id :=
        first_of_cons (hev.marked h.marked) hleft
      rw [hleft] at hsplit hsorted
      rw [hfirst]
      rcases h.covered q e hq with he | hlt
      · rw [← hsplit] at he
        rcases List.mem_append.mp he with he | he
        · exact .inr (hsorted.2.2 e he first List.mem_cons_self)
        · exact .inl (by rw [McpSession.enforceBounds, hleft]; exact he)
      · right
        cases dropped with
        | nil => rwa [first_of_cons h.marked hsplit.symm] at hlt
        | cons old dropped =>
          rw [first_of_cons h.marked hsplit.symm] at hlt
          exact UInt64.lt_trans hlt (hsorted.2.2 old List.mem_cons_self first List.mem_cons_self)

theorem Gapless.step {c : Config SessionOp SessionOp.Result McpSession (Except SessionError UInt64)}
    {p : Nat} {o : SessionOp} {k : o.Result → SessionProg (Except SessionError UInt64)} (i : Unit)
    (hp : c.procs p = .perform o k) (hin : inOrder l c p i = true) (h : Gapless l c.log c.world) :
    Gapless l ((p, ⟨o, (exec l o i c.world).1⟩) :: c.log) (exec l o i c.world).2 := by
  cases o with
  | draw =>
    refine ⟨h.total, ⟨h.marked.first, h.marked.last⟩, h.sorted, h.fits, fun e he => ?_,
      fun q e hq => ?_⟩
    · obtain ⟨q, hq⟩ := h.known e he
      exact ⟨q, List.mem_cons_of_mem _ hq⟩
    · rcases List.mem_cons.mp hq with heq | hq
      · cases heq
      · exact h.covered q e hq
  | push e =>
    simp only [inOrder, hp, Bool.and_eq_true, decide_eq_true_eq, List.all_eq_true] at hin
    obtain ⟨⟨hid, hfits⟩, hbelow⟩ := hin
    exact h.push p hid hfits fun q e' hq => by simpa [SessionOp.below] using hbelow _ hq
  | enforce => exact h.enforce p

end Gapless

theorem add_one_lt {a b c : UInt64} (hab : a < b) (hbc : b < c) : a + 1 < c := by
  grind

/-- **Replay without gaps**: in every run of any number of appends that pushes the events in the
order of their ids, each fitting by itself, an answer to a client that is not stale holds every
event after the client's whose append has returned. -/
theorem replay_without_gaps (l : Limits) (payloads : Nat → String) (s : List (Nat × Unit))
    (horder : (start l payloads).Along (exec l) (fun c p i => inOrder l c p i = true) s)
    (last : UInt64) (answer : List ReplayEvent)
    (hanswer : ((start l payloads).run (exec l) s).world.eventsAfter (some (some last)) = .ok answer)
    (p : Nat) (id : UInt64) (hreturned : ((start l payloads).run (exec l) s).procs p = .pure (.ok id))
    (hafter : last < id) : ⟨id, payloads p⟩ ∈ answer := by
  have hgapless : Gapless l ((start l payloads).run (exec l) s).log
      ((start l payloads).run (exec l) s).world :=
    Config.run_along (P := Gapless l) (fun _ _ _ _ => trivial)
      (fun i hp _ hin h => h.step i hp hin) .start (fun p => appendEvent_obeys l (payloads p))
      ⟨rfl, ⟨rfl, rfl⟩, List.Pairwise.nil, by simp [start, Config.start, McpSession.new],
        by simp [start, Config.start, McpSession.new], by simp [start, Config.start]⟩ s horder
  have hpushed : (p, ⟨.push ⟨id, payloads p⟩, ()⟩) ∈ ((start l payloads).run (exec l) s).log := by
    have hend := (run_behaves l payloads s).2 p
    rw [hreturned] at hend
    rcases hend with ⟨-, herror⟩ | ⟨id', hok, hall⟩
    · cases herror
    · cases hok
      exact mem_own.mp (by rw [hall]; simp)
  simp only [McpSession.eventsAfter] at hanswer
  split_ifs at hanswer with _ hevicted
  cases hanswer
  rcases hgapless.covered p _ hpushed with hmem | hlt
  · exact List.mem_filter.mpr ⟨hmem, decide_eq_true hafter⟩
  · -- the event was removed, so the client is too far behind for an answer
    refine absurd ⟨?_, ?_⟩ hevicted
    · exact UInt64.lt_of_le_of_lt UInt64.zero_le hlt
    · exact add_one_lt hafter hlt

namespace SessionSample

/-- One event of at most two bytes, and so many bytes in all. -/
def limits (maxTotalBytes : Nat) : Limits := .new 1 2 maxTotalBytes

/-- The run in which the appends perform one operation each time they are named. -/
def run (maxTotalBytes : Nat) (payload : String) (ps : List Nat) :
    Config SessionOp SessionOp.Result McpSession (Except SessionError UInt64) :=
  (start (limits maxTotalBytes) fun _ => payload).run (exec (limits maxTotalBytes)) (ps.map (·, ()))

end SessionSample

open SessionSample in
/-- The second event removes the first one; a client that has received the first gets the second. -/
theorem replay_after_eviction :
    (run 9 "a" [0, 0, 0, 1, 1, 1]).world.firstEventId = 2 ∧
    ∀ answer, (run 9 "a" [0, 0, 0, 1, 1, 1]).world.eventsAfter (some (some 1)) = .ok answer →
      ⟨2, "a"⟩ ∈ answer :=
  ⟨rfl, fun answer hanswer => replay_without_gaps (limits 9) (fun _ => "a")
    ([0, 0, 0, 1, 1, 1].map (·, ())) ⟨rfl, rfl, rfl, rfl, rfl, rfl, trivial⟩ 1 answer hanswer 1 2 rfl
    (by decide)⟩

open SessionSample in
/-- **Events that are lost**: event 2 is pushed before event 1 and removed as if it were the older
one; and an event that does not fit removes itself. A client that has received nothing is not told
in either case. -/
theorem returned_events_lost :
    ((run 9 "a" [0, 1, 1, 1, 0, 0]).procs 1 = .pure (.ok 2) ∧
      (run 9 "a" [0, 1, 1, 1, 0, 0]).world.eventsAfter (some (some 0)) = .ok [⟨1, "a"⟩]) ∧
    (run 1 "ab" [0, 0, 0]).procs 0 = .pure (.ok 1) ∧
      (run 1 "ab" [0, 0, 0]).world.eventsAfter (some (some 0)) = .ok [] :=
  ⟨⟨rfl, rfl⟩, rfl, rfl⟩

end FerrumGate.Mcp
