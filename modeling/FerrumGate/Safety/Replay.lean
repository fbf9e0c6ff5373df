import FerrumGate.Gateway.AgentAuth

/-!
# Replayed agent requests

An agent's request must not be accepted twice by one process. The window of instants that pass is
`2 * skew` wide, both ends included, so a nonce has to be kept for longer than that; and no other
request may push it out of the cache before. Neither is sure: by default a nonce is kept for
exactly `2 * skew`, a shorter time can be configured, and the cache is bounded while the requests
that fill it are not yet authenticated.

* `nonce_kept`: a nonce stays in the cache, over any number of requests, while it is young and
  every request finds room.
* `accepted_once`: in every run in which that is so, no request is accepted twice.
* `captured_request_replayed`: with two unsigned requests an attacker replays a captured one, and
  under the default configuration it passes again after a minute.
-/

namespace FerrumGate

open Expiring

/-! ## Runs -/

/-- A request that has been served: the cache it met, how it arrived, and the answer. -/
structure Served where
  before : NonceCache
  arrival : Arrival
  answer : Except AgentAuthError AuthActor

def Served.accepted (s : Served) : Bool := s.answer.isOk

/-- Serve requests in the order in which they reach the nonce cache. -/
def serveAgents (primitives : Primitives) (config : AgentConfig) :
    NonceCache → List Arrival → List Served
  | _, [] => []
  | cache, arrival :: rest =>
    ⟨cache, arrival, (verifyAgentRequest primitives config arrival cache).1⟩ ::
      serveAgents primitives config (verifyAgentRequest primitives config arrival cache).2 rest

/-- The clock never runs backwards: not from one access of the cache to the next, nor between the
two readings of one request. -/
def Clocked (arrivals : List Arrival) : Prop :=
  arrivals.Pairwise (fun a b => a.cacheTime ≤ b.cacheTime) ∧
    ∀ a ∈ arrivals, a.windowTime ≤ a.cacheTime

instance decidableClocked (arrivals : List Arrival) : Decidable (Clocked arrivals) := by
  unfold Clocked
  infer_instance

/-- What a request must meet, if it gets as far as the nonce cache: room for its nonce beside those
still live, and a clock that is ahead of its instant by less than the lifetime of a nonce less the
skew. -/
def Unpressed (primitives : Primitives) (config : AgentConfig) (cache : NonceCache)
    (arrival : Arrival) : Prop :=
  ∀ headers ∈ (beforeNonce primitives config arrival.windowTime arrival.request).toOption,
    (cache.live arrival.cacheTime config.nonceTtl).size ≤ config.nonceCacheMaxEntries - 1 ∧
    ∀ timestamp ∈ primitives.parseRfc3339 headers.timestamp,
      (arrival.cacheTime : Int) + config.skew < timestamp + config.nonceTtl

instance (primitives : Primitives) (config : AgentConfig) (cache : NonceCache)
    (arrival : Arrival) : Decidable (Unpressed primitives config cache arrival) := by
  unfold Unpressed
  infer_instance

variable {primitives : Primitives} {config : AgentConfig} {cache : NonceCache}
  {arrival : Arrival} {headers : AgentHeaders}

/-! ## One request -/

theorem beforeNonce_ok {now : Timestamp} {request : AgentRequest}
    (h : beforeNonce primitives config now request = .ok headers) :
    extractHeaders request = .ok headers ∧
      ∃ timestamp, primitives.parseRfc3339 headers.timestamp = some timestamp ∧
        config.inWindow timestamp now := by
  unfold beforeNonce at h
  cases hheaders : extractHeaders request with
  | error e => simp [hheaders, bind, Except.bind] at h
  | ok found =>
    cases hparse : primitives.parseRfc3339 found.timestamp with
    | none => simp [hheaders, hparse, bind, Except.bind] at h
    | some timestamp =>
      simp only [hheaders, hparse, bind, Except.bind, pure, Except.pure] at h
      split_ifs at h with hwindow hlength
      cases h
      exact ⟨rfl, timestamp, hparse, hwindow⟩

/-- An accepted request got past the first checks, and its nonce past the cache. -/
theorem accepted_passed (h : (verifyAgentRequest primitives config arrival cache).1.isOk = true) :
    ∃ headers, beforeNonce primitives config arrival.windowTime arrival.request = .ok headers ∧
      (cache.checkAndInsert arrival.order config.nonceCacheMaxEntries config.nonceTtl
        arrival.cacheTime headers.nonce).1 = true := by
  unfold verifyAgentRequest at h
  cases hbefore : beforeNonce primitives config arrival.windowTime arrival.request with
  | error e => simp [hbefore, Except.isOk, Except.toBool] at h
  | ok headers =>
    refine ⟨headers, rfl, ?_⟩
    rw [hbefore] at h
    dsimp only at h
    split_ifs at h
    · simp [Except.isOk, Except.toBool] at h
    · split at h
      · simp [Except.isOk, Except.toBool] at h
      · next hcheck => rw [hcheck]

/-- The nonce of an accepted request is in the cache it leaves. -/
theorem accepted_stored
    (hbefore : beforeNonce primitives config arrival.windowTime arrival.request = .ok headers)
    (h : (verifyAgentRequest primitives config arrival cache).1.isOk = true) :
    (headers.nonce, arrival.cacheTime) ∈
      (verifyAgentRequest primitives config arrival cache).2.entries := by
  obtain ⟨found, hfound, hcheck⟩ := accepted_passed h
  obtain rfl := Except.ok.inj (hbefore.symm.trans hfound)
  have hstored := Cache.checkAndInsert_stored hcheck
  unfold verifyAgentRequest at h ⊢
  rw [hbefore] at h ⊢
  dsimp only at h ⊢
  split_ifs at h ⊢
  · simp [Except.isOk, Except.toBool] at h
  · split <;> next hpair => rwa [hpair] at hstored

/-- One request keeps a young nonce in the cache if it finds room. -/
theorem nonce_kept_step (hcalm : Unpressed primitives config cache arrival) {nonce : String}
    {stored : Timestamp} (hmem : (nonce, stored) ∈ cache.entries)
    (hyoung : arrival.cacheTime - stored < config.nonceTtl) :
    (nonce, stored) ∈ (verifyAgentRequest primitives config arrival cache).2.entries := by
  unfold verifyAgentRequest
  cases hbefore : beforeNonce primitives config arrival.windowTime arrival.request with
  | error e => exact hmem
  | ok headers =>
    have hkept := Cache.mem_checkAndInsert arrival.order headers.nonce hmem hyoung
      (hcalm headers (by rw [hbefore]; rfl)).1
    dsimp only
    split_ifs
    · exact hmem
    · split <;> next hpair => rwa [hpair] at hkept

/-! ## Every run -/

theorem serveAgents_arrival {s : Served} :
    ∀ {arrivals : List Arrival} {cache : NonceCache},
      s ∈ serveAgents primitives config cache arrivals → s.arrival ∈ arrivals := by
  intro arrivals
  induction arrivals with
  | nil =>
    intro _ hs
    simp [serveAgents] at hs
  | cons arrival rest ih =>
    intro cache hs
    simp only [serveAgents, List.mem_cons] at hs
    rcases hs with rfl | hs
    · exact List.mem_cons_self
    · exact List.mem_cons_of_mem _ (ih hs)

theorem serveAgents_answer {s : Served} :
    ∀ {arrivals : List Arrival} {cache : NonceCache},
      s ∈ serveAgents primitives config cache arrivals →
      s.answer = (verifyAgentRequest primitives config s.arrival s.before).1 := by
  intro arrivals
  induction arrivals with
  | nil =>
    intro _ hs
    simp [serveAgents] at hs
  | cons arrival rest ih =>
    intro cache hs
    simp only [serveAgents, List.mem_cons] at hs
    rcases hs with rfl | hs
    · rfl
    · exact ih hs

theorem Clocked.tail {arrivals : List Arrival} (h : Clocked (arrival :: arrivals)) :
    Clocked arrivals :=
  ⟨(List.pairwise_cons.mp h.1).2, fun a ha => h.2 a (List.mem_cons_of_mem _ ha)⟩

theorem Clocked.head_le {arrivals : List Arrival} (h : Clocked (arrival :: arrivals))
    {later : Arrival} (hlater : later ∈ arrivals) : arrival.cacheTime ≤ later.cacheTime :=
  (List.pairwise_cons.mp h.1).1 later hlater

/-- **A young nonce stays**: it is in the cache that any later request meets, if that request comes
before the nonce expires and all requests on the way find room. -/
theorem nonce_kept {nonce : String} {stored : Timestamp} :
    ∀ {arrivals : List Arrival} {cache : NonceCache}, Clocked arrivals →
      (∀ s ∈ serveAgents primitives config cache arrivals,
        Unpressed primitives config s.before s.arrival) →
      (nonce, stored) ∈ cache.entries →
      ∀ s ∈ serveAgents primitives config cache arrivals,
        s.arrival.cacheTime - stored < config.nonceTtl → (nonce, stored) ∈ s.before.entries := by
  intro arrivals
  induction arrivals with
  | nil =>
    intro _ _ _ _ s hs
    simp [serveAgents] at hs
  | cons arrival rest ih =>
    intro cache hclock hcalm hmem s hs hyoung
    simp only [serveAgents, List.mem_cons] at hs hcalm
    rcases hs with rfl | hs
    · exact hmem
    · have hlater : arrival.cacheTime ≤ s.arrival.cacheTime :=
        hclock.head_le (serveAgents_arrival hs)
      have hnow : arrival.cacheTime - stored < config.nonceTtl :=
        lt_of_le_of_lt (Nat.sub_le_sub_right hlater stored) hyoung
      have hstep := nonce_kept_step (hcalm _ (Or.inl rfl)) hmem hnow
      exact ih hclock.tail (fun t ht => hcalm t (Or.inr ht)) hstep s hs hyoung

/-- A request that is accepted is not accepted later, if all requests find room and come early
enough. -/
theorem not_accepted_again {arrivals : List Arrival} (hclock : Clocked (arrival :: arrivals))
    (haccepted : (verifyAgentRequest primitives config arrival cache).1.isOk = true)
    (hcalm : ∀ s ∈ serveAgents primitives config
      (verifyAgentRequest primitives config arrival cache).2 arrivals,
      Unpressed primitives config s.before s.arrival)
    {s : Served} (hs : s ∈ serveAgents primitives config
      (verifyAgentRequest primitives config arrival cache).2 arrivals)
    (hagain : s.accepted = true) : arrival.request ≠ s.arrival.request := by
  intro hsame
  obtain ⟨headers, hbefore, -⟩ := accepted_passed haccepted
  obtain ⟨hheaders, timestamp, hparse, -, hwindow⟩ := beforeNonce_ok hbefore
  rw [Served.accepted, serveAgents_answer hs] at hagain
  obtain ⟨found, hfound, hpassed⟩ := accepted_passed hagain
  have hsent : extractHeaders arrival.request = .ok found := by
    rw [hsame]
    exact (beforeNonce_ok hfound).1
  obtain rfl := Except.ok.inj (hheaders.symm.trans hsent)
  obtain ⟨hroom, hearly⟩ := hcalm s hs headers (by rw [hfound]; rfl)
  -- The nonce was stored no earlier than the instant in the request, less the skew.
  have hyoung : s.arrival.cacheTime - arrival.cacheTime < config.nonceTtl := by
    have hread : arrival.windowTime ≤ arrival.cacheTime := hclock.2 arrival List.mem_cons_self
    have hlater := hclock.head_le (serveAgents_arrival hs)
    have hbound := hearly timestamp hparse
    simp only [Timestamp] at hread hlater hbound hwindow ⊢
    omega
  have hkept := nonce_kept hclock.tail hcalm (accepted_stored hbefore haccepted) s hs hyoung
  have hseen := Cache.checkAndInsert_seen s.arrival.order hkept hyoung hroom
  rw [hpassed] at hseen
  exact Bool.noConfusion hseen

/-- **Accepted once.** In every run from an empty cache, with a clock that never runs backwards, in
which every request that reaches the cache finds room and comes early enough, no request is
accepted twice. -/
theorem accepted_once (primitives : Primitives) (config : AgentConfig) (arrivals : List Arrival)
    (hclock : Clocked arrivals)
    (hcalm : ∀ s ∈ serveAgents primitives config .empty arrivals,
      Unpressed primitives config s.before s.arrival) :
    (serveAgents primitives config .empty arrivals).Pairwise fun s t =>
      s.accepted = true → t.accepted = true → s.arrival.request ≠ t.arrival.request := by
  suffices h : ∀ cache : NonceCache,
      (∀ s ∈ serveAgents primitives config cache arrivals,
        Unpressed primitives config s.before s.arrival) →
      (serveAgents primitives config cache arrivals).Pairwise fun s t =>
        s.accepted = true → t.accepted = true → s.arrival.request ≠ t.arrival.request from
    h .empty hcalm
  clear hcalm
  induction arrivals with
  | nil => exact fun _ _ => List.Pairwise.nil
  | cons arrival rest ih =>
    intro cache hcalm
    simp only [serveAgents, List.mem_cons] at hcalm ⊢
    have hrest := fun s hs => hcalm s (Or.inr hs)
    refine List.pairwise_cons.mpr ⟨?_, ih hclock.tail _ hrest⟩
    exact fun t ht hfirst hagain => not_accepted_again hclock hfirst hrest ht hagain

/-! ## The captured request -/

namespace Sample

/-- Primitives under which instants are read as numbers of seconds by a table, and every signature
but that of `"signed"` fails. -/
def crypto : Primitives where
  parseRfc3339 text := if text = "12:00:30" then some (seconds 30) else none
  blake3Hex _ := "hash"
  base64Decode text :=
    if text = "key" then some (List.replicate 32 0)
    else if text = "signed" then some (List.replicate 64 1)
    else some (List.replicate 64 0)
  verifyingKey _ := true
  verify _ _ signature := signature == List.replicate 64 1

def agent : AgentRecord := ⟨"agent-1", "key", ["*"], none⟩

/-- A request of the agent, signed, with the instant 12:00:30. -/
def captured : AgentRequest where
  agentId := some "agent-1"
  timestamp := some "12:00:30"
  nonce := some "nonce-1"
  bodyHash := some "null"
  signature := some "signed"
  method := "GET"
  path := "/v1/approvals"
  body := []

/-- What an attacker without a key sends. -/
def unsigned (nonce : String) : AgentRequest :=
  { captured with nonce := some nonce, signature := some "forged" }

def arrive (second : Nat) (request : AgentRequest) : Arrival where
  request := request
  windowTime := seconds second
  cacheTime := seconds second
  agents := [agent]

/-- The captured request, two unsigned ones, and the captured one again, within four seconds. -/
def flood : List Arrival :=
  [arrive 10 captured, arrive 11 (unsigned "x"), arrive 12 (unsigned "y"), arrive 13 captured]

/-- The captured request, and again ten seconds later. -/
def soon : List Arrival := [arrive 10 captured, arrive 20 captured]

/-- The captured request at the two ends of the default window. -/
def ends : List Arrival := [arrive 0 captured, arrive 60 captured]

end Sample

/-- The captured request is refused ten seconds later. -/
theorem accepted_once_captured :
    (serveAgents Sample.crypto {} .empty Sample.soon).map Served.accepted = [true, false] ∧
    (serveAgents Sample.crypto {} .empty Sample.soon).Pairwise fun s t =>
      s.accepted = true → t.accepted = true → s.arrival.request ≠ t.arrival.request :=
  ⟨by decide +kernel, accepted_once Sample.crypto {} Sample.soon (by decide +kernel)
    (by decide +kernel)⟩

/-- **A captured request passes again**: in a cache for two nonces after two unsigned requests, and
under the default configuration at the far end of the window. -/
theorem captured_request_replayed :
    Clocked Sample.flood ∧
    (serveAgents Sample.crypto { nonceCacheMaxEntries := 2 } .empty Sample.flood).map
      Served.accepted = [true, false, false, true] ∧
    Clocked Sample.ends ∧
    (serveAgents Sample.crypto {} .empty Sample.ends).map Served.accepted = [true, true] := by
  decide +kernel

end FerrumGate
