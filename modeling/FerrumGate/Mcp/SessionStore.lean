import FerrumGate.Interleave.Pool
import Mathlib.Algebra.GroupWithZero.Nat
import Mathlib.Data.List.Basic

/-!
# The replay buffer of an MCP session

`McpSession` and `McpSessionStore` of `ferrum-integrations-mcp/src/mcp_session_store.rs`, for one
session. An append is three steps: the id is drawn from an atomic counter, the event is pushed in
one critical section, and the bounds are enforced in another; an answer to a client is one critical
section too. What happens inside a section is one operation. The table of sessions, their
fingerprints and their activity are left out.

* `evict_spec` : what the loop of `enforce_bounds` leaves of a buffer.
-/

namespace FerrumGate.Mcp

open Interleave

inductive SessionError where
  | staleEventId | payloadTooLarge
  deriving DecidableEq

/-- `ReplayEvent`; the id is the number that its text spells. -/
structure ReplayEvent where
  id : UInt64
  payload : String
  deriving DecidableEq

def ReplayEvent.bytes (e : ReplayEvent) : Nat := e.payload.utf8ByteSize

structure McpSession where
  events : List ReplayEvent
  nextEventId : UInt64
  firstEventId : UInt64
  lastEventId : UInt64
  totalBytes : Nat

/-- `McpSession::new` -/
def McpSession.new : McpSession := ⟨[], 1, 0, 0, 0⟩

/-- The limits of a store, each at least 1. -/
structure Limits where
  maxEvents : Nat
  maxEventBytes : Nat
  maxTotalBytes : Nat
  events_pos : 1 ≤ maxEvents
  eventBytes_pos : 1 ≤ maxEventBytes
  totalBytes_pos : 1 ≤ maxTotalBytes

/-- The clamping of `McpSessionStore::new`. -/
def Limits.new (maxEvents maxEventBytes maxTotalBytes : Nat) : Limits :=
  ⟨max maxEvents 1, max maxEventBytes 1, max maxTotalBytes 1, le_max_right _ _, le_max_right _ _,
    le_max_right _ _⟩

/-- The critical section of `McpSession::append_event`. -/
def McpSession.push (e : ReplayEvent) (s : McpSession) : McpSession :=
  { s with
    events := s.events ++ [e]
    totalBytes := s.totalBytes + e.bytes
    firstEventId := if s.firstEventId = 0 then e.id else s.firstEventId
    lastEventId := e.id }

/-- The oldest event is removed, and the markers follow. -/
def McpSession.dropOldest (e : ReplayEvent) (rest : List ReplayEvent) (s : McpSession) : McpSession :=
  { s with
    events := rest
    totalBytes := s.totalBytes - e.bytes
    firstEventId := (rest.head?.map (·.id)).getD 0
    lastEventId := if rest.isEmpty then 0 else s.lastEventId }

/-- The loop of `enforce_bounds`. -/
def evict (l : Limits) : List ReplayEvent → McpSession → McpSession
  | [], s => s
  | e :: rest, s =>
    if l.maxEvents < rest.length + 1 ∨ l.maxTotalBytes < s.totalBytes then
      evict l rest (s.dropOldest e rest)
    else s

/-- **`enforce_bounds`**. -/
def McpSession.enforceBounds (l : Limits) (s : McpSession) : McpSession := evict l s.events s

/-- **`events_after`**; the header, if there is one, is a number or something else. -/
def McpSession.eventsAfter (s : McpSession) :
    Option (Option UInt64) → Except SessionError (List ReplayEvent)
  | none => .ok s.events
  | some none => .error .staleEventId
  | some (some last) =>
    if 0 < last ∧ s.lastEventId = 0 then .error .staleEventId
    else if 0 < s.firstEventId ∧ last + 1 < s.firstEventId then .error .staleEventId
    else if s.lastEventId < last then .error .staleEventId
    else .ok (s.events.filter (last < ·.id))

/-! ## Appends -/

inductive SessionOp where
  | draw
  | push (e : ReplayEvent)
  | enforce
  deriving DecidableEq

@[reducible] def SessionOp.Result : SessionOp → Type
  | .draw => UInt64
  | .push _ => Unit
  | .enforce => Unit

def exec (l : Limits) : (o : SessionOp) → Unit → McpSession → o.Result × McpSession
  | .draw, _, s => (s.nextEventId, { s with nextEventId := s.nextEventId + 1 })
  | .push e, _, s => ((), s.push e)
  | .enforce, _, s => ((), s.enforceBounds l)

abbrev SessionProg (α : Type) := Prog SessionOp SessionOp.Result α

/-- **`append_event`** of the store. -/
def appendEvent (l : Limits) (payload : String) : SessionProg (Except SessionError UInt64) :=
  if l.maxEventBytes < payload.utf8ByteSize then pure (.error .payloadTooLarge)
  else .perform .draw fun id =>
    .perform (.push ⟨id, payload⟩) fun _ =>
      .perform .enforce fun _ => pure (.ok id)

/-- One process for each call. -/
def start (l : Limits) (payloads : Nat → String) :
    Config SessionOp SessionOp.Result McpSession (Except SessionError UInt64) :=
  .start .new fun p => appendEvent l (payloads p)

/-! ## Buffers -/

def bytesOf (events : List ReplayEvent) : Nat := (events.map (·.bytes)).sum

/-- The markers are those of the buffer. -/
structure Marked (s : McpSession) : Prop where
  first : s.firstEventId = (s.events.head?.map (·.id)).getD 0
  last : s.lastEventId = (s.events.getLast?.map (·.id)).getD 0

/-- What the loop leaves: an end of the buffer that is within the bounds, and not without need. -/
structure Evicted (l : Limits) (s s' : McpSession) : Prop where
  suffix : s'.events <:+ s.events
  next : s'.nextEventId = s.nextEventId
  total : s'.totalBytes = bytesOf s'.events
  length : s'.events.length ≤ l.maxEvents
  bytes : s'.totalBytes ≤ l.maxTotalBytes
  marked : Marked s → Marked s'
  /-- The newest event stays, if it fits by itself. -/
  keeps : ∀ e, s.events.getLast? = some e → e.bytes ≤ l.maxTotalBytes → s'.events ≠ []

theorem Marked.dropOldest {s : McpSession} {e : ReplayEvent} {rest : List ReplayEvent}
    (h : Marked s) (hs : s.events = e :: rest) : Marked (s.dropOldest e rest) := by
  refine ⟨rfl, ?_⟩
  cases rest with
  | nil => rfl
  | cons e' rest =>
    have hlast := h.last
    rw [hs, List.getLast?_cons_cons] at hlast
    exact hlast

theorem evict_spec (l : Limits) (events : List ReplayEvent) :
    ∀ s : McpSession, s.events = events → s.totalBytes = bytesOf events →
      Evicted l s (evict l events s) := by
  induction events with
  | nil =>
    intro s hs htotal
    refine ⟨List.suffix_rfl, rfl, ?_, ?_, ?_, id, fun e he => ?_⟩
    · rw [evict, hs, htotal]
    · simp [evict, hs]
    · simp [evict, htotal, bytesOf]
    · rw [hs] at he
      cases he
  | cons e rest ih =>
    intro s hs htotal
    rw [evict]
    split_ifs with hover
    · have hrest : (s.dropOldest e rest).totalBytes = bytesOf rest := by
        simp [McpSession.dropOldest, htotal, bytesOf]
      have h := ih (s.dropOldest e rest) rfl hrest
      refine ⟨?_, h.next, h.total, h.length, h.bytes, fun hm => h.marked (hm.dropOldest hs), ?_⟩
      · rw [hs]
        exact h.suffix.trans (List.suffix_cons e rest)
      · intro e' he' hfits
        rw [hs] at he'
        cases rest with
        | nil =>
          -- the only event fits, so the loop would not have removed it
          rw [List.getLast?_singleton, Option.some.injEq] at he'
          subst he'
          have hone := l.events_pos
          simp [htotal, bytesOf] at hover
          omega
        | cons e'' rest =>
          rw [List.getLast?_cons_cons] at he'
          exact h.keeps e' he' hfits
    · rw [not_or, not_lt, not_lt] at hover
      refine ⟨List.suffix_rfl, rfl, by rw [htotal, hs], by rw [hs]; exact hover.1, hover.2, id,
        fun _ _ _ => ?_⟩
      rw [hs]
      exact List.cons_ne_nil e rest

end FerrumGate.Mcp
