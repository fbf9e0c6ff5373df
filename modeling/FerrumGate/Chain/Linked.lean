import Mathlib.Data.List.Nodup

/-!
# Chains of hashes

Every link names the hash of the one before it, the first one names none. A link's own hash says
nothing about what it names, so what such a chain detects are gaps:

* `linked_append` : a chain is two chains, the second from where the first one ends.
* **`not_linked_replace`**, **`not_linked_erase`**, **`not_linked_exchange`** : with pairwise
  distinct hashes, another hash before a link, a link taken out before another, and two links exchanged.
* `linked_reverse` : a chain of two or more links is none the other way round.
* `hashes_eq` : the names and the last hash are all there is to the hashes.
-/

namespace Chain

variable {H : Type}

/-- A hash, and the one it names as the hash before. -/
structure Link (H : Type) where
  hash : H
  previous : Option H
  deriving DecidableEq

/-- The hash the next link has to name. -/
def lastHash (prior : Option H) : List (Link H) → Option H
  | [] => prior
  | link :: links => lastHash (some link.hash) links

/-- Every link names the hash before it. -/
def Linked (prior : Option H) : List (Link H) → Prop
  | [] => True
  | link :: links => link.previous = prior ∧ Linked (some link.hash) links

variable {prior : Option H} {x y : Link H} {xs ys zs : List (Link H)}

theorem lastHash_append : lastHash prior (xs ++ ys) = lastHash (lastHash prior xs) ys := by
  induction xs generalizing prior with
  | nil => rfl
  | cons x xs ih => exact ih

theorem linked_append :
    Linked prior (xs ++ ys) ↔ Linked prior xs ∧ Linked (lastHash prior xs) ys := by
  induction xs generalizing prior with
  | nil => exact (true_and (Linked prior ys)).symm.to_iff
  | cons x xs ih =>
    simp only [List.cons_append, Linked, lastHash, ih, and_assoc]

/-- The hash to be named is the last one, or what it was at the start. -/
theorem lastHash_eq (prior : Option H) (xs : List (Link H)) :
    lastHash prior xs = (xs.map Link.hash).getLast?.or prior := by
  induction xs generalizing prior with
  | nil => rfl
  | cons x xs ih =>
    rw [lastHash, ih, List.map_cons, List.getLast?_cons]
    cases (xs.map Link.hash).getLast? <;> rfl

/-- The hash to be named is that of a link, or what it was at the start. -/
theorem lastHash_mem (prior : Option H) (xs : List (Link H)) :
    lastHash prior xs = prior ∨ ∃ x ∈ xs, lastHash prior xs = some x.hash := by
  induction xs generalizing prior with
  | nil => exact .inl rfl
  | cons x xs ih =>
    rcases ih (some x.hash) with h | ⟨z, hz, h⟩
    · exact .inr ⟨x, List.mem_cons_self, h⟩
    · exact .inr ⟨z, List.mem_cons_of_mem _ hz, h⟩

theorem lastHash_cons_mem (prior : Option H) (x : Link H) (xs : List (Link H)) :
    ∃ z ∈ x :: xs, lastHash prior (x :: xs) = some z.hash := by
  rcases lastHash_mem (some x.hash) xs with h | ⟨z, hz, h⟩
  · exact ⟨x, List.mem_cons_self, h⟩
  · exact ⟨z, List.mem_cons_of_mem _ hz, h⟩

/-- Distinct hashes: the last one among links is none of those before them. -/
theorem lastHash_ne (prior : Option H) (h : ((xs ++ x :: ys).map Link.hash).Nodup) :
    lastHash prior (x :: ys) ≠ lastHash none xs := by
  obtain ⟨z, hz, hlast⟩ := lastHash_cons_mem prior x ys
  rw [hlast]
  rcases lastHash_mem none xs with hnone | ⟨w, hw, hsome⟩
  · rw [hnone]
    exact Option.some_ne_none _
  · rw [hsome]
    intro heq
    rw [List.map_append, List.nodup_append] at h
    exact h.2.2 w.hash (List.mem_map_of_mem hw) z.hash (List.mem_map_of_mem hz)
      (Option.some.inj heq).symm

/-! ## What breaks a chain -/

/-- **Another hash before a link.** -/
theorem not_linked_replace {x' : Link H} (h : Linked prior (xs ++ x :: y :: ys))
    (hne : x'.hash ≠ x.hash) : ¬ Linked prior (xs ++ x' :: y :: ys) := by
  intro h'
  have hy : y.previous = some x.hash := (linked_append.1 h).2.2.1
  have hy' : y.previous = some x'.hash := (linked_append.1 h').2.2.1
  exact hne (Option.some.inj (hy'.symm.trans hy))

/-- **A link taken out before another.** -/
theorem not_linked_erase (h : Linked none (xs ++ x :: y :: ys))
    (hnodup : ((xs ++ x :: y :: ys).map Link.hash).Nodup) : ¬ Linked none (xs ++ y :: ys) := by
  intro h'
  have hy : y.previous = lastHash none (xs ++ [x]) := by
    rw [lastHash_append]
    exact (linked_append.1 h).2.2.1
  have hy' : y.previous = lastHash none xs := (linked_append.1 h').2.1
  have hpart : ((xs ++ x :: []).map Link.hash).Nodup := by
    refine hnodup.sublist (List.Sublist.map _ (List.Sublist.append_left ?_ xs))
    exact (List.nil_sublist _).cons_cons x
  refine lastHash_ne (lastHash none xs) hpart ?_
  rw [← lastHash_append, ← hy, hy']

/-- **Two links exchanged.** -/
theorem not_linked_exchange (h : Linked none (xs ++ x :: (ys ++ y :: zs)))
    (hnodup : ((xs ++ x :: (ys ++ y :: zs)).map Link.hash).Nodup) :
    ¬ Linked none (xs ++ y :: (ys ++ x :: zs)) := by
  intro h'
  have hy : y.previous = lastHash (lastHash none xs) (x :: ys) := by
    have hrest := (linked_append.1 h).2
    rw [← List.cons_append] at hrest
    exact (linked_append.1 hrest).2.1
  have hy' : y.previous = lastHash none xs := (linked_append.1 h').2.1
  have hpart : ((xs ++ x :: ys).map Link.hash).Nodup := by
    refine hnodup.sublist (List.Sublist.map _ (List.Sublist.append_left ?_ xs))
    exact (List.sublist_append_left ys _).cons_cons x
  exact lastHash_ne _ hpart (hy.symm.trans hy')

/-- **The other way round**, only a single link is a chain. -/
theorem linked_reverse (h : Linked none xs) : Linked none xs.reverse ↔ xs.length ≤ 1 := by
  match xs with
  | [] => simp [Linked]
  | [x] => exact ⟨fun _ => Nat.le_refl 1, fun _ => h⟩
  | x :: y :: zs =>
    refine ⟨fun hreverse => ?_, fun hle => by simp at hle⟩
    -- the last link comes first, and it names a hash
    obtain ⟨last, hlast⟩ : ∃ last, (y :: zs).getLast? = some last :=
      Option.isSome_iff_exists.1 (by simp)
    obtain ⟨front, hfront⟩ := List.getLast?_eq_some_iff.1 hlast
    rw [hfront] at h hreverse
    have hnamed : last.previous = lastHash none (x :: front) := by
      rw [← List.cons_append] at h
      exact (linked_append.1 h).2.1
    rw [List.reverse_cons, List.reverse_append, List.reverse_singleton, List.singleton_append] at hreverse
    obtain ⟨z, -, hz⟩ := lastHash_cons_mem none x front
    rw [hreverse.1, hz] at hnamed
    cases hnamed

/-! ## What determines a chain -/

/-- The names and the last hash determine every hash. -/
theorem hashes_eq {prior' : Option H} (hx : Linked prior xs) (hy : Linked prior' ys)
    (hprevious : xs.map Link.previous = ys.map Link.previous)
    (hlast : lastHash prior xs = lastHash prior' ys) :
    xs.map Link.hash = ys.map Link.hash := by
  induction xs generalizing prior prior' ys with
  | nil =>
    cases ys with
    | nil => rfl
    | cons y ys => cases hprevious
  | cons x xs ih =>
    cases ys with
    | nil => cases hprevious
    | cons y ys =>
      obtain ⟨-, htail⟩ := List.cons.inj hprevious
      have hrest := ih hx.2 hy.2 htail hlast
      refine List.cons_eq_cons.2 ⟨?_, hrest⟩
      -- the hash of a link is what the next one names, or the last hash
      cases xs with
      | nil =>
        cases ys with
        | nil => exact Option.some.inj hlast
        | cons y' ys => cases htail
      | cons x' xs =>
        cases ys with
        | nil => cases htail
        | cons y' ys =>
          have hnames : x'.previous = y'.previous := (List.cons.inj htail).1
          rw [hx.2.1, hy.2.1] at hnames
          exact Option.some.inj hnames

/-- The hashes determine what is named and the last hash. -/
theorem previous_eq (hx : Linked prior xs) (hy : Linked prior ys)
    (hhash : xs.map Link.hash = ys.map Link.hash) :
    xs.map Link.previous = ys.map Link.previous ∧ lastHash prior xs = lastHash prior ys := by
  induction xs generalizing prior ys with
  | nil =>
    cases ys with
    | nil => exact ⟨rfl, rfl⟩
    | cons y ys => cases hhash
  | cons x xs ih =>
    cases ys with
    | nil => cases hhash
    | cons y ys =>
      obtain ⟨hhead, htail⟩ := List.cons.inj hhash
      have hy' := hy.2
      rw [← hhead] at hy'
      obtain ⟨hprevious, hlast⟩ := ih hx.2 hy' htail
      refine ⟨List.cons_eq_cons.2 ⟨hx.1.trans hy.1.symm, hprevious⟩, ?_⟩
      rw [lastHash, lastHash, ← hhead]
      exact hlast

end Chain
