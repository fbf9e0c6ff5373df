import FerrumGate.Expiring.Full

/-!
# Replays and the capacity of the nonce cache

`InMemoryNonceCache::check_and_insert` of `ferrum-store/src/nonce_cache.rs` is
`Expiring.Cache.checkAndInsert`. Here it is run over a whole sequence of checks with one time to
live, and compared with the nonces it has accepted.

* The oldest entries are pruned to `max_entries - 1` before the nonce is looked up, even when it is
  about to be found. A cache that is exactly full forgets its oldest nonce that way.
* Which of several nonces of one age is the oldest is up to the iteration order of the map, which
  may be any after each check.
* A poisoned lock, the only error, is left out.

* **`replays_rejected_iff`** : which sequences of checks have all their replays rejected.
-/

namespace FerrumGate.Nonces

open Expiring

/-- A nonce, and the instant it is checked at. Sequences of checks have the latest in front. -/
structure Check where
  nonce : String
  now : Nat

section Run

variable (capacity ttl : Nat) (order : List Check → String → Nat)

/-- The cache after some checks; `order` ranks the keys as the map lists them by then. -/
def cacheAfter : List Check → Cache String
  | [] => .empty
  | c :: before =>
    ((cacheAfter before).checkAndInsert (order before) capacity ttl c.now c.nonce).2

/-- Is the nonce accepted? -/
def passes (before : List Check) (c : Check) : Bool :=
  ((cacheAfter capacity ttl order before).checkAndInsert (order before) capacity ttl c.now
    c.nonce).1

/-- When each nonce was last accepted. -/
def accepted : List Check → Cache String
  | [] => .empty
  | c :: before => (accepted before).logged (passes capacity ttl order before c) c.nonce c.now

/-- After each check, at most `capacity` nonces of the log are younger than the time to live. -/
def Bounded (log : List Check → Cache String) : List Check → Prop
  | [] => True
  | c :: before => ((log (c :: before)).live c.now ttl).size ≤ capacity ∧ Bounded log before

/-- As long as no more nonces are live than there is room for, each nonce accepted less than one
time to live earlier is rejected. -/
def RejectsReplays (checks : List Check) : Prop :=
  ∀ c before, c :: before <:+ checks →
    Bounded capacity ttl (accepted capacity ttl order) before →
    ((accepted capacity ttl order before).live c.now ttl).contains c.nonce →
    passes capacity ttl order before c = false

end Run

/-- When each nonce was last used for the first time: what a cache without a bound accepts. -/
def firstUses (ttl : Nat) : List Check → Cache String
  | [] => .empty
  | c :: before =>
    (firstUses ttl before).logged (!((firstUses ttl before).live c.now ttl).contains c.nonce)
      c.nonce c.now

section Proofs

variable {capacity ttl : Nat} {order : List Check → String → Nat} {favoured : String → Prop}

theorem RejectsReplays.suffix {before checks : List Check} (hsuffix : before <:+ checks)
    (h : RejectsReplays capacity ttl order checks) : RejectsReplays capacity ttl order before :=
  fun c rest hrest => h c rest (hrest.trans hsuffix)

/-- Until the next check, live nonces can only become fewer. -/
theorem Bounded.size_le {log : List Check → Cache String} (hlog : log [] = .empty)
    {before : List Check} {now : Nat} (hnow : ∀ c ∈ before, c.now ≤ now)
    (h : Bounded capacity ttl log before) : ((log before).live now ttl).size ≤ capacity := by
  cases before with
  | nil =>
    rw [hlog]
    exact Nat.zero_le _
  | cons c before =>
    refine le_trans (List.Sublist.length_le (List.monotone_filter_right _ fun entry hentry => ?_)) h.1
    have := hnow c (by simp)
    simp only [decide_eq_true_eq] at hentry ⊢
    omega

/-- While all replays are rejected, what the cache accepts are first uses, and the cache tracks
them. -/
theorem accepted_eq_firstUses (horder : ∀ before, Cache.Favours favoured (order before))
    {checks : List Check} (htimes : (checks.map Check.now).Pairwise (· ≥ ·))
    (hrejects : RejectsReplays capacity ttl order checks)
    (hbounded : Bounded capacity ttl (accepted capacity ttl order) checks ∨
      Bounded capacity ttl (firstUses ttl) checks) :
    accepted capacity ttl order checks = firstUses ttl checks ∧
      Bounded capacity ttl (accepted capacity ttl order) checks ∧
      Bounded capacity ttl (firstUses ttl) checks ∧
      ∀ now, (∀ c ∈ checks, c.now ≤ now) →
        Cache.Tracks favoured capacity ttl now (cacheAfter capacity ttl order checks)
          (accepted capacity ttl order checks) := by
  induction checks with
  | nil => exact ⟨rfl, trivial, trivial, fun _ _ => Cache.Tracks.empty⟩
  | cons c before ih =>
    rw [List.map_cons, List.pairwise_cons] at htimes
    have hnow : ∀ earlier ∈ before, earlier.now ≤ c.now := fun earlier hmem =>
      htimes.1 _ (List.mem_map_of_mem hmem)
    obtain ⟨heq, haccepted, hfirst, htracks⟩ := ih htimes.2
      (hrejects.suffix (List.suffix_cons c before)) (hbounded.imp And.right And.right)
    have hat := htracks c.now hnow
    have hsize := haccepted.size_le rfl hnow
    have hpasses : passes capacity ttl order before c =
        !((firstUses ttl before).live c.now ttl).contains c.nonce := by
      rw [← heq]
      by_cases hlive : ((accepted capacity ttl order before).live c.now ttl).contains c.nonce
      · rw [hlive]
        exact hrejects c before List.suffix_rfl haccepted hlive
      · rw [Bool.not_eq_true _ |>.mp hlive]
        exact hat.fresh (horder before) hsize hlive
    have heq' : accepted capacity ttl order (c :: before) = firstUses ttl (c :: before) := by
      rw [accepted, firstUses, heq, hpasses]
    have hsize' : ((accepted capacity ttl order (c :: before)).live c.now ttl).size ≤ capacity := by
      rcases hbounded with hbounded | hbounded
      · exact hbounded.1
      · rw [heq']
        exact hbounded.1
    refine ⟨heq', ⟨hsize', haccepted⟩, ⟨heq' ▸ hsize', hfirst⟩, fun now hle => ?_⟩
    exact (hat.check (horder before) hsize hsize').advance (hle c (by simp))

/-- All replays are rejected, whatever the iteration order of the map, just when no replay finds
the cache full of live nonces and no older one among them. -/
theorem replays_rejected_iff (capacity ttl : Nat) (checks : List Check)
    (htimes : (checks.map Check.now).Pairwise (· ≥ ·)) :
    (∀ order, RejectsReplays capacity ttl order checks) ↔
      ∀ c before t, c :: before <:+ checks → Bounded capacity ttl (firstUses ttl) before →
        (c.nonce, t) ∈ ((firstUses ttl before).live c.now ttl).entries →
        ((firstUses ttl before).live c.now ttl).size = capacity →
        ∃ entry ∈ ((firstUses ttl before).live c.now ttl).entries, entry.2 < t := by
  have hsorted : ∀ c before, c :: before <:+ checks →
      (before.map Check.now).Pairwise (· ≥ ·) ∧ ∀ earlier ∈ before, earlier.now ≤ c.now := by
    intro c before hsuffix
    have h := htimes.sublist (hsuffix.sublist.map Check.now)
    rw [List.map_cons, List.pairwise_cons] at h
    exact ⟨h.2, fun earlier hmem => h.1 _ (List.mem_map_of_mem hmem)⟩
  constructor
  · -- rank the replayed nonce first: if it is as old as any, it is the one forgotten
    intro hrejects c before t hsuffix hbounded hmem hfull
    by_contra hold
    push Not at hold
    have hrejects := hrejects fun _ nonce => if nonce = c.nonce then 0 else 1
    have horder : Cache.Favours (· = c.nonce) fun nonce => if nonce = c.nonce then 0 else 1 := by
      rintro _ rfl other hne
      simp [hne]
    obtain ⟨hbefore, hnow⟩ := hsorted c before hsuffix
    obtain ⟨heq, haccepted, _, htracks⟩ := accepted_eq_firstUses (fun _ => horder) hbefore
      (hrejects.suffix ((List.suffix_cons c before).trans hsuffix)) (Or.inr hbounded)
    rw [← heq] at hmem hfull hold
    have hpasses := (htracks c.now hnow).forgotten horder hmem hfull hold rfl
    have hrejected := hrejects c before hsuffix haccepted (Cache.contains_iff.2 ⟨t, hmem⟩)
    exact Bool.false_ne_true (hrejected.symm.trans hpasses)
  · intro hcond order
    have horder : ∀ before, Cache.Favours (fun _ => False) (order before) :=
      fun _ _ hfalse => hfalse.elim
    -- by induction on the sequence: what precedes a check has its replays rejected
    suffices h : ∀ part, part <:+ checks → RejectsReplays capacity ttl order part from
      h checks List.suffix_rfl
    intro part
    induction part with
    | nil => exact fun _ c before hsuffix => absurd (List.suffix_nil.1 hsuffix) (List.cons_ne_nil _ _)
    | cons c before ih =>
      intro hpart later rest hsuffix hbounded hlive
      have hrejects := ih ((List.suffix_cons c before).trans hpart)
      rcases List.suffix_cons_iff.1 hsuffix with heq | hsuffix
      · obtain ⟨rfl, rfl⟩ := List.cons.inj heq
        obtain ⟨hbefore, hnow⟩ := hsorted _ _ hpart
        obtain ⟨heq, _, hfirst, htracks⟩ :=
          accepted_eq_firstUses horder hbefore hrejects (Or.inl hbounded)
        obtain ⟨t, hmem⟩ := Cache.contains_iff.1 hlive
        refine (htracks _ hnow).seen (horder _) (hbounded.size_le rfl hnow) hmem fun hfull => ?_
        rw [heq] at hmem hfull ⊢
        exact hcond _ _ t hpart hfirst hmem hfull
      · exact hrejects later rest hsuffix hbounded hlive

/-- With room for two, one nonce is never forgotten. -/
theorem replays_rejected_room :
    (([⟨"a", 1⟩, ⟨"a", 0⟩] : List Check).map Check.now).Pairwise (· ≥ ·) ∧
      ∀ order, RejectsReplays 2 10 order [⟨"a", 1⟩, ⟨"a", 0⟩] := by
  refine ⟨by decide, ?_⟩
  refine (replays_rejected_iff 2 10 _ (by decide)).2 fun c before t hsuffix _ _ hfull => ?_
  simp only [List.suffix_cons_iff, List.suffix_nil, List.cons.injEq, reduceCtorEq, or_false]
    at hsuffix
  rcases hsuffix with ⟨rfl, rfl⟩ | ⟨rfl, rfl⟩ <;> exact absurd hfull (by decide)

end Proofs

/-- A cache for one nonce accepts the nonce it holds. -/
theorem full_cache_forgets :
    Bounded 1 10 (accepted 1 10 fun _ _ => 0) [⟨"a", 0⟩] ∧
      ((accepted 1 10 (fun _ _ => 0) [⟨"a", 0⟩]).live 1 10).contains "a" = true ∧
      passes 1 10 (fun _ _ => 0) [⟨"a", 0⟩] ⟨"a", 1⟩ = true :=
  ⟨⟨by decide, trivial⟩, by decide, by decide⟩

end FerrumGate.Nonces
