import FerrumGate.Pdp.Engine
import Mathlib.Data.List.AList
import Mathlib.Data.List.MinMax
import Mathlib.Data.Finset.Card

/-!
# The behavioral profiler

`ThresholdBehavioralProfiler` of `ferrum-gateway/src/behavioral.rs`: the times of a principal's
high-risk proposals are kept in a queue, and their number in a rolling window gives the severity.

* The queue is pruned at the front only, which on times that never fall is the same as filtering.
* It holds at most `critical_threshold + 1` times: what is dropped beyond that cannot lower the
  verdict, which is `Critical` already.
* The count is the length cast to 32 bits. With the highest threshold the queue may hold `2 ^ 32`
  times, and these are counted as none.
* A new principal evicts another one when `max_actors` are tracked.

* **`severity_exact_iff`** : when the queue gives the severity of the full history.
-/

namespace FerrumGate.Behavioral

inductive BehavioralSeverity where
  | warning | critical
  deriving DecidableEq

structure BehavioralFinding where
  severity : BehavioralSeverity
  principalId : String
  windowCount : UInt32
  windowSecs : Nat
  threshold : UInt32
  deriving DecidableEq

/-- The times of a principal, in nanoseconds of the monotonic clock, the oldest in front. -/
structure ActorWindow where
  events : List Nat := []

/-- `duration_since` is zero for an instant that lies ahead. -/
def ActorWindow.prune (actor : ActorWindow) (now window : Nat) : ActorWindow :=
  { actor with events := actor.events.dropWhile fun t => window ≤ now - t }

structure ThresholdBehavioralProfiler where
  /-- In nanoseconds. -/
  window : Nat
  warningThreshold : UInt32
  criticalThreshold : UInt32
  maxActors : Nat

/-- On 64 bits the sum does not overflow. -/
def ThresholdBehavioralProfiler.maxEventsPerActor (self : ThresholdBehavioralProfiler) : Nat :=
  self.criticalThreshold.toNat + 1

theorem ThresholdBehavioralProfiler.maxEventsPerActor_pos (self : ThresholdBehavioralProfiler) :
    0 < self.maxEventsPerActor := Nat.succ_pos _

abbrev Actors := AList fun _ : String => ActorWindow

/-- A call of `inspect_proposal`, with the instant it reads. -/
structure Proposal where
  principalId : String
  estimatedRisk : RiskTier
  requestedRollbackClass : RollbackClass
  instant : Nat

def isTarget (risk : RiskTier) (rollback : RollbackClass) : Bool :=
  (risk = .high || risk = .critical) || rollback = .r3IrreversibleHighConsequence

def Proposal.isTarget (p : Proposal) : Bool :=
  Behavioral.isTarget p.estimatedRisk p.requestedRollbackClass

/-- At capacity a new principal takes the place of the one that the map lists first; `order` ranks
the keys as the map does. -/
def evict (order : String → Nat) (maxActors : Nat) (principalId : String) (actors : Actors) :
    Actors :=
  if principalId ∉ actors ∧ maxActors ≤ actors.keys.length then
    match actors.keys.argmin order with
    | some oldest => actors.erase oldest
    | none => actors
  else actors

/-- The end of `inspect_proposal`. -/
def findingOf (self : ThresholdBehavioralProfiler) (principalId : String) (count : UInt32) :
    Option BehavioralFinding :=
  if self.criticalThreshold ≤ count then
    some { severity := .critical, principalId, windowCount := count,
           windowSecs := self.window / 10 ^ 9, threshold := self.criticalThreshold }
  else if self.warningThreshold ≤ count then
    some { severity := .warning, principalId, windowCount := count,
           windowSecs := self.window / 10 ^ 9, threshold := self.warningThreshold }
  else none

def inspectProposal (self : ThresholdBehavioralProfiler) (order : String → Nat) (actors : Actors)
    (p : Proposal) : Option BehavioralFinding × Actors :=
  if !p.isTarget then (none, actors)
  else
    let actors := evict order self.maxActors p.principalId actors
    let actor := (actors.lookup p.principalId).getD {}
    let actor := actor.prune p.instant self.window
    let events := actor.events ++ [p.instant]
    -- the loop pops from the front while there are too many
    let events := events.drop (events.length - self.maxEventsPerActor)
    (findingOf self p.principalId (UInt32.ofNat events.length),
      actors.insert p.principalId ⟨events⟩)

/-- The map after a sequence of proposals. -/
def tracked (self : ThresholdBehavioralProfiler) (order : String → Nat)
    (proposals : List Proposal) : Actors :=
  proposals.foldl (fun actors p => (inspectProposal self order actors p).2) ∅

/-! ## The verdict by the full history -/

/-- The times of all qualifying proposals of a principal. -/
def history (principalId : String) (proposals : List Proposal) : List Nat :=
  (proposals.filter fun q => q.isTarget && q.principalId == principalId).map Proposal.instant

/-- How many qualifying proposals of the principal of `p`, `p` included, are less than one window
old. -/
def windowCount (window : Nat) (before : List Proposal) (p : Proposal) : Nat :=
  ((history p.principalId before).filter fun t => p.instant - t < window).length + 1

def severityOf (self : ThresholdBehavioralProfiler) (count : Nat) : Option BehavioralSeverity :=
  if self.criticalThreshold.toNat ≤ count then some .critical
  else if self.warningThreshold.toNat ≤ count then some .warning
  else none

/-- Every qualifying proposal gets the severity of the full history. -/
def Exact (self : ThresholdBehavioralProfiler) (order : String → Nat)
    (proposals : List Proposal) : Prop :=
  ∀ before p behind, proposals = before ++ p :: behind → p.isTarget →
    (inspectProposal self order (tracked self order before) p).1.map (·.severity) =
      severityOf self (windowCount self.window before p)

/-! ## The queue -/

section Queue

variable {window cap now : Nat}

/-- The last `cap` elements. -/
def lastOf (cap : Nat) (l : List Nat) : List Nat := l.drop (l.length - cap)

private theorem length_lastOf (l : List Nat) : (lastOf cap l).length = min l.length cap := by
  unfold lastOf
  simp only [List.length_drop]
  omega

private theorem lastOf_of_le {l : List Nat} (h : l.length ≤ cap) : lastOf cap l = l := by
  unfold lastOf
  rw [Nat.sub_eq_zero_of_le h, List.drop_zero]

private theorem lastOf_append {l r : List Nat} (h : r.length ≤ cap) :
    lastOf cap (l ++ r) = lastOf (cap - r.length) l ++ r := by
  unfold lastOf
  rw [List.length_append, List.drop_append]
  have hr : l.length + r.length - cap - l.length = 0 := by omega
  have hl : l.length + r.length - cap = l.length - (cap - r.length) := by omega
  rw [hr, List.drop_zero, hl]

/-- Times that never fall are an expired part in front of the recent one. -/
private theorem expired_append_recent (window now : Nat) {l : List Nat}
    (hl : l.Pairwise (· ≤ ·)) :
    ∃ old, l = old ++ l.filter (fun t => now - t < window) ∧ ∀ t ∈ old, window ≤ now - t := by
  induction l with
  | nil => exact ⟨[], by simp⟩
  | cons t l ih =>
    rw [List.pairwise_cons] at hl
    obtain ⟨old, heq, hold⟩ := ih hl.2
    by_cases ht : now - t < window
    · -- all that follow are as recent
      refine ⟨[], ?_, by simp⟩
      have hall : l.filter (fun s => now - s < window) = l := by
        refine List.filter_eq_self.2 fun s hs => ?_
        have := hl.1 s hs
        simp only [decide_eq_true_eq]
        omega
      simp [ht, hall]
    · refine ⟨t :: old, ?_, ?_⟩
      · simpa [ht] using heq
      · rintro s (_ | ⟨_, hs⟩)
        · omega
        · exact hold s hs

private theorem dropWhile_recent {recent : List Nat} (h : ∀ t ∈ recent, now - t < window) :
    recent.dropWhile (fun t => window ≤ now - t) = recent := by
  cases recent with
  | nil => rfl
  | cons t _ =>
    have := h t (by simp)
    simp only [List.dropWhile_cons, decide_eq_true_eq]
    exact if_neg (by omega)

private theorem dropWhile_expired {old recent : List Nat} (hold : ∀ t ∈ old, window ≤ now - t)
    (hrecent : ∀ t ∈ recent, now - t < window) :
    (old ++ recent).dropWhile (fun t => window ≤ now - t) = recent := by
  induction old with
  | nil => exact dropWhile_recent hrecent
  | cons t old ih =>
    have ht := hold t (by simp)
    simp only [List.cons_append, List.dropWhile_cons, ht, decide_true, if_true]
    exact ih fun s hs => hold s (by simp [hs])

/-- The queue holds the last `cap` of the times, but for some that have expired. -/
def Follows (window cap now : Nat) (times queue : List Nat) : Prop :=
  ∃ expired live, times = expired ++ live ∧ (∀ t ∈ expired, window ≤ now - t) ∧
    queue = lastOf cap live

private theorem Follows.mono {times queue : List Nat} {later : Nat} (hle : now ≤ later)
    (h : Follows window cap now times queue) : Follows window cap later times queue := by
  obtain ⟨expired, live, htimes, hexpired, hqueue⟩ := h
  refine ⟨expired, live, htimes, fun t ht => ?_, hqueue⟩
  have := hexpired t ht
  omega

/-- Pruned at the front, the queue holds the last of the recent times. -/
private theorem Follows.prune {times queue : List Nat} (htimes : times.Pairwise (· ≤ ·))
    (h : Follows window cap now times queue) :
    queue.dropWhile (fun t => window ≤ now - t) =
      lastOf cap (times.filter fun t => now - t < window) := by
  obtain ⟨expired, live, rfl, hexpired, rfl⟩ := h
  obtain ⟨old, heq, hold⟩ :=
    expired_append_recent window now (List.pairwise_append.1 htimes).2.1
  have hnone : expired.filter (fun t => now - t < window) = [] := by
    refine List.filter_eq_nil_iff.2 fun t ht => ?_
    have := hexpired t ht
    simp only [decide_eq_true_eq]
    omega
  rw [List.filter_append, hnone, List.nil_append]
  have hrecent : ∀ t ∈ live.filter (fun t => now - t < window), now - t < window := by
    intro t ht
    simpa using (List.mem_filter.1 ht).2
  generalize live.filter (fun t => now - t < window) = recent at heq hrecent
  subst heq
  by_cases hcap : recent.length ≤ cap
  · -- the whole recent part is held, behind some expired times
    rw [lastOf_append hcap, lastOf_of_le hcap]
    exact dropWhile_expired (fun t ht => hold t (List.mem_of_mem_drop ht)) hrecent
  · -- only recent times are held
    have hlast : lastOf cap (old ++ recent) = lastOf cap recent := by
      unfold lastOf
      rw [List.length_append, List.drop_append, List.drop_of_length_le (by omega),
        List.nil_append]
      congr 1
      omega
    rw [hlast]
    exact dropWhile_recent fun t ht => hrecent t (List.mem_of_mem_drop ht)

private theorem lastOf_lastOf {n : Nat} (l : List Nat) (hn : n ≤ cap) :
    lastOf n (lastOf cap l) = lastOf n l := by
  unfold lastOf
  rw [List.drop_drop, List.length_drop]
  congr 1
  omega

/-- With the next time pushed and the cap applied, the queue still follows, and it holds as many
times as the window, up to the cap. -/
private theorem Follows.push {times queue : List Nat} (hcap : 0 < cap)
    (htimes : times.Pairwise (· ≤ ·)) (h : Follows window cap now times queue) :
    Follows window cap now (times ++ [now])
        (lastOf cap (queue.dropWhile (fun t => window ≤ now - t) ++ [now])) ∧
      (lastOf cap (queue.dropWhile (fun t => window ≤ now - t) ++ [now])).length =
        min ((times.filter fun t => now - t < window).length + 1) cap := by
  have hone : [now].length ≤ cap := hcap
  have heq : lastOf cap (queue.dropWhile (fun t => window ≤ now - t) ++ [now]) =
      lastOf cap ((times.filter fun t => now - t < window) ++ [now]) := by
    rw [h.prune htimes, lastOf_append hone, lastOf_append hone, lastOf_lastOf _ (Nat.sub_le _ _)]
  rw [heq]
  refine ⟨?_, by rw [length_lastOf, List.length_append, List.length_singleton]⟩
  obtain ⟨old, hsplit, hold⟩ := expired_append_recent window now htimes
  exact ⟨old, times.filter (fun t => now - t < window) ++ [now],
    by rw [← List.append_assoc, ← hsplit], hold, rfl⟩

end Queue

/-! ## One proposal -/

/-- The queue of a principal. -/
def queueOf (actors : Actors) (principalId : String) : List Nat :=
  ((actors.lookup principalId).getD {}).events

/-- The queue of the principal of `p` once `p` is recorded. -/
private def recorded (self : ThresholdBehavioralProfiler) (queue : List Nat) (p : Proposal) :
    List Nat :=
  lastOf self.maxEventsPerActor
    (queue.dropWhile (fun t => self.window ≤ p.instant - t) ++ [p.instant])

section Step

variable (self : ThresholdBehavioralProfiler) (order : String → Nat)

private theorem inspectProposal_other (actors : Actors) {p : Proposal} (hp : ¬ p.isTarget) :
    inspectProposal self order actors p = (none, actors) := by
  simp [inspectProposal, hp]

theorem findingOf_severity (principalId : String) (count : UInt32) :
    (findingOf self principalId count).map (·.severity) = severityOf self count.toNat := by
  simp only [findingOf, severityOf, UInt32.le_iff_toNat_le]
  split
  · rfl
  · split <;> rfl

/-- A qualifying proposal, with room for its principal. -/
private theorem inspectProposal_target {actors : Actors} {p : Proposal} (hp : p.isTarget)
    (hroom : evict order self.maxActors p.principalId actors = actors) :
    inspectProposal self order actors p =
      (findingOf self p.principalId
          (UInt32.ofNat (recorded self (queueOf actors p.principalId) p).length),
        actors.insert p.principalId ⟨recorded self (queueOf actors p.principalId) p⟩) := by
  simp only [inspectProposal, hp, Bool.not_true, Bool.false_eq_true, if_false, hroom]
  rfl

/-- The length modulo `2 ^ 32` gives the verdict of the count unless the queue holds `2 ^ 32`
times. -/
private theorem severityOf_capped_iff (count : Nat) :
    severityOf self (min count self.maxEventsPerActor % 2 ^ 32) = severityOf self count ↔
      (self.criticalThreshold.toNat < 2 ^ 32 - 1 ∨ count < 2 ^ 32) := by
  have hcritical := self.criticalThreshold.toNat_lt
  unfold ThresholdBehavioralProfiler.maxEventsPerActor
  by_cases h : self.criticalThreshold.toNat < 2 ^ 32 - 1 ∨ count < 2 ^ 32
  · simp only [h, iff_true]
    rw [Nat.mod_eq_of_lt (by omega)]
    by_cases hcount : self.criticalThreshold.toNat ≤ count
    · rw [severityOf, severityOf, if_pos (by omega), if_pos hcount]
    · rw [Nat.min_eq_left (by omega)]
  · simp only [h, iff_false]
    have hmod : min count (self.criticalThreshold.toNat + 1) % 2 ^ 32 = 0 := by
      rw [Nat.min_eq_right (by omega)]
      omega
    rw [hmod, severityOf, severityOf, if_neg (by omega),
      if_pos (show self.criticalThreshold.toNat ≤ count by omega)]
    split <;> simp

end Step

/-! ## A run -/

section Run

variable {self : ThresholdBehavioralProfiler} {order : String → Nat}

theorem tracked_snoc (before : List Proposal) (p : Proposal) :
    tracked self order (before ++ [p]) =
      (inspectProposal self order (tracked self order before) p).2 := by
  unfold tracked
  rw [List.foldl_append, List.foldl_cons, List.foldl_nil]

theorem history_snoc_other {a : String} (before : List Proposal) {p : Proposal}
    (h : ¬ (p.isTarget ∧ p.principalId = a)) :
    history a (before ++ [p]) = history a before := by
  have hp : (p.isTarget && p.principalId == a) = false := by simpa using h
  simp [history, List.filter_append, hp]

theorem history_snoc_target (before : List Proposal) {p : Proposal} (hp : p.isTarget) :
    history p.principalId (before ++ [p]) = history p.principalId before ++ [p.instant] := by
  simp [history, List.filter_append, hp]

/-- The assumptions on a run: the clock does not go back, and there is room for all principals. -/
structure Within (profiler : ThresholdBehavioralProfiler) (proposals : List Proposal) : Prop where
  times : (proposals.map Proposal.instant).Pairwise (· ≤ ·)
  principals : (proposals.map Proposal.principalId).toFinset.card ≤ profiler.maxActors

theorem Within.before {before behind : List Proposal} (h : Within self (before ++ behind)) :
    Within self before := by
  refine ⟨?_, le_trans (Finset.card_le_card fun a ha => ?_) h.principals⟩
  · have := h.times
    rw [List.map_append] at this
    exact (List.pairwise_append.1 this).1
  · simp only [List.map_append, List.toFinset_append, Finset.mem_union]
    exact Or.inl ha

theorem Within.instant_le {before : List Proposal} {p : Proposal}
    (h : Within self (before ++ [p])) : ∀ q ∈ before, q.instant ≤ p.instant := by
  intro q hq
  have := h.times
  rw [List.map_append] at this
  exact (List.pairwise_append.1 this).2.2 _ (List.mem_map_of_mem hq) _ (by simp)

theorem Within.history_sorted {proposals : List Proposal} (h : Within self proposals) (a : String) :
    (history a proposals).Pairwise (· ≤ ·) :=
  h.times.sublist (List.filter_sublist.map _)

/-- No principal is evicted: the tracked ones have all made a proposal before. -/
theorem evict_eq_self {before : List Proposal} {p : Proposal} {actors : Actors}
    (h : Within self (before ++ [p])) (hkeys : ∀ a ∈ actors, a ∈ before.map Proposal.principalId) :
    evict order self.maxActors p.principalId actors = actors := by
  refine if_neg fun ⟨hnew, hfull⟩ => ?_
  have hsub : insert p.principalId actors.keys.toFinset ⊆
      ((before ++ [p]).map Proposal.principalId).toFinset := by
    intro a ha
    rw [Finset.mem_insert, List.mem_toFinset] at ha
    rw [List.mem_toFinset, List.map_append, List.mem_append]
    rcases ha with rfl | ha
    · exact Or.inr (by simp)
    · exact Or.inl (hkeys a (AList.mem_keys.2 ha))
  have hcard := Finset.card_le_card hsub
  have hnotin : p.principalId ∉ actors.keys.toFinset := fun hmem =>
    hnew (AList.mem_keys.2 (List.mem_toFinset.1 hmem))
  rw [Finset.card_insert_of_notMem hnotin, List.toFinset_card_of_nodup actors.keys_nodup] at hcard
  have := h.principals
  omega

/-- What a run keeps: the map tracks principals of the run, and each queue follows the history. -/
structure Tracks (profiler : ThresholdBehavioralProfiler) (before : List Proposal)
    (actors : Actors) : Prop where
  keys : ∀ a ∈ actors, a ∈ before.map Proposal.principalId
  follows : ∀ now, (∀ q ∈ before, q.instant ≤ now) → ∀ a,
    Follows profiler.window profiler.maxEventsPerActor now (history a before) (queueOf actors a)

private theorem Tracks.step {before : List Proposal} {p : Proposal} {actors : Actors}
    (h : Tracks self before actors) (hrun : Within self (before ++ [p])) :
    Tracks self (before ++ [p]) (inspectProposal self order actors p).2 := by
  by_cases hp : p.isTarget
  · rw [inspectProposal_target self order hp (evict_eq_self hrun h.keys)]
    constructor
    · intro a ha
      rw [List.map_append, List.mem_append]
      rcases (AList.mem_insert actors).1 ha with rfl | ha
      · exact Or.inr (by simp)
      · exact Or.inl (h.keys a ha)
    · intro now hnow a
      have hle : p.instant ≤ now := hnow p (by simp)
      have hfollows := h.follows p.instant hrun.instant_le a
      by_cases ha : a = p.principalId
      · subst ha
        rw [history_snoc_target before hp, queueOf, AList.lookup_insert]
        exact (hfollows.push self.maxEventsPerActor_pos (hrun.before.history_sorted _)).1.mono hle
      · rw [history_snoc_other before fun h => ha h.2.symm, queueOf, AList.lookup_insert_ne ha]
        exact hfollows.mono hle
  · rw [inspectProposal_other self order actors hp]
    refine ⟨fun a ha => ?_, fun now hnow a => ?_⟩
    · rw [List.map_append, List.mem_append]
      exact Or.inl (h.keys a ha)
    · rw [history_snoc_other before fun h => hp h.1]
      exact h.follows now (fun q hq => hnow q (by simp [hq])) a

private theorem tracks_tracked (order : String → Nat) {before : List Proposal}
    (hrun : Within self before) : Tracks self before (tracked self order before) := by
  induction before using List.reverseRecOn with
  | nil =>
    refine ⟨fun a ha => absurd ha (AList.notMem_empty a), fun now _ a => ?_⟩
    exact ⟨[], [], rfl, by simp, by simp [queueOf, tracked, lastOf]⟩
  | append_singleton before p ih =>
    rw [tracked_snoc]
    exact (ih hrun.before).step hrun

/-- The severity of one proposal is the one of the full history unless the count wraps. -/
private theorem severity_eq_iff {before : List Proposal} {p : Proposal}
    (hrun : Within self (before ++ [p])) (hp : p.isTarget) :
    (inspectProposal self order (tracked self order before) p).1.map (·.severity) =
        severityOf self (windowCount self.window before p) ↔
      (self.criticalThreshold.toNat < 2 ^ 32 - 1 ∨
        windowCount self.window before p < 2 ^ 32) := by
  have htracks := tracks_tracked order hrun.before
  have hpush := ((htracks.follows p.instant hrun.instant_le p.principalId).push
    self.maxEventsPerActor_pos (hrun.before.history_sorted _)).2
  rw [inspectProposal_target self order hp (evict_eq_self hrun htracks.keys), findingOf_severity,
    UInt32.toNat_ofNat', recorded, hpush]
  exact severityOf_capped_iff self _

/-- The capped queue gives every proposal the severity of the full history, unless the critical
threshold is the highest number of 32 bits and as many proposals as that, and one more, are in a
window. -/
theorem severity_exact_iff (self : ThresholdBehavioralProfiler) (order : String → Nat)
    (proposals : List Proposal) (htimes : (proposals.map Proposal.instant).Pairwise (· ≤ ·))
    (hprincipals : (proposals.map Proposal.principalId).toFinset.card ≤ self.maxActors) :
    Exact self order proposals ↔
      (self.criticalThreshold.toNat < 2 ^ 32 - 1 ∨
        ∀ before p behind, proposals = before ++ p :: behind → p.isTarget →
          windowCount self.window before p < 2 ^ 32) := by
  have hrun : Within self proposals := ⟨htimes, hprincipals⟩
  have hat : ∀ before p behind, proposals = before ++ p :: behind → p.isTarget →
      ((inspectProposal self order (tracked self order before) p).1.map (·.severity) =
          severityOf self (windowCount self.window before p) ↔
        (self.criticalThreshold.toNat < 2 ^ 32 - 1 ∨
          windowCount self.window before p < 2 ^ 32)) := by
    intro before p behind heq hp
    rw [heq, List.append_cons] at hrun
    exact severity_eq_iff hrun.before hp
  constructor
  · intro h
    by_cases hcritical : self.criticalThreshold.toNat < 2 ^ 32 - 1
    · exact Or.inl hcritical
    · refine Or.inr fun before p behind heq hp => ?_
      exact ((hat before p behind heq hp).1 (h before p behind heq hp)).resolve_left hcritical
  · intro h before p behind heq hp
    exact (hat before p behind heq hp).2 (h.imp_right fun h => h before p behind heq hp)

end Run

/-- A proposal of high risk. -/
private def risky (principalId : String) (instant : Nat) : Proposal :=
  ⟨principalId, .high, .r0NativeReversible, instant⟩

theorem severity_exact_two_principals :
    Exact ⟨seconds 10, 1, 2, 2⟩ String.length
      [risky "a" 0, risky "b" (seconds 3), risky "a" (seconds 9), risky "a" (seconds 10)] :=
  (severity_exact_iff _ _ _ (by decide) (by decide)).2 (Or.inl (by decide))

private theorem windowCount_replicate (n : Nat) :
    windowCount (seconds 60) (List.replicate n (risky "a" 0)) (risky "a" 0) = n + 1 := by
  simp [windowCount, history, risky, Proposal.isTarget, isTarget, seconds]

private theorem within_replicate (n : Nat) (self : ThresholdBehavioralProfiler)
    (h : 0 < self.maxActors) : Within self (List.replicate n (risky "a" 0) ++ [risky "a" 0]) := by
  rw [← List.replicate_succ']
  constructor
  · rw [List.map_replicate]
    exact List.pairwise_replicate.2 (Or.inr le_rfl)
  · rw [List.map_replicate, List.toFinset_replicate_of_ne_zero (Nat.succ_ne_zero n),
      Finset.card_singleton]
    exact h

/-- With the highest threshold, the proposal that makes it `2 ^ 32` in a window is not reported as
critical. -/
theorem count_wraps :
    severityOf ⟨seconds 60, 1, 4294967295, 1⟩
        (windowCount (seconds 60) (List.replicate 4294967295 (risky "a" 0)) (risky "a" 0)) =
        some .critical ∧
      (inspectProposal ⟨seconds 60, 1, 4294967295, 1⟩ String.length
        (tracked ⟨seconds 60, 1, 4294967295, 1⟩ String.length
          (List.replicate 4294967295 (risky "a" 0))) (risky "a" 0)).1.map (·.severity) ≠
        some .critical := by
  have hcount := windowCount_replicate 4294967295
  have hseverity : severityOf ⟨seconds 60, 1, 4294967295, 1⟩
      (windowCount (seconds 60) (List.replicate 4294967295 (risky "a" 0)) (risky "a" 0)) =
      some .critical := by
    rw [hcount]
    decide
  refine ⟨hseverity, fun h => ?_⟩
  have hexact := (severity_eq_iff (within_replicate 4294967295 _ Nat.one_pos) (by decide)).1
    (h.trans hseverity.symm)
  rw [hcount] at hexact
  exact absurd hexact (by decide)

end FerrumGate.Behavioral
