import Mathlib.Data.Option.Basic

/-!
# Merkle roots

The root over a list of leaves: neighbours are joined level by level, and a last node without a
neighbour is joined with itself. Because of the latter the root does not say how many leaves there
were.

* `root_isSome` : the loop ends with a root if there is a leaf.
* **`root_injective_of_apart`** : between leaf lists of one length, the root stands for the leaves,
  if none of the pairs joined on the way to it collide.
-/

namespace Merkle

variable {α : Type} (node : α → α → α)

/-- The level above. -/
def pairUp : List α → List α
  | [] => []
  | [a] => [node a a]
  | a :: b :: rest => node a b :: pairUp rest

/-- The levels up to the root; each is shorter than the one below it, so that as many rounds as
there are leaves are enough. -/
def rootWithin : Nat → List α → Option α
  | _, [] => none
  | _, [a] => some a
  | 0, _ => none
  | n + 1, level => rootWithin n (pairUp node level)

def root (leaves : List α) : Option α := rootWithin node leaves.length leaves

variable {node}

theorem length_pairUp : (level : List α) → (pairUp node level).length = (level.length + 1) / 2
  | [] => by rw [pairUp, List.length_nil]
  | [_] => by rw [pairUp, List.length_singleton, List.length_singleton]
  | _ :: _ :: rest => by
    rw [pairUp, List.length_cons, length_pairUp rest]
    simp only [List.length_cons]
    omega

theorem rootWithin_isSome {n : Nat} {level : List α} (hn : level.length ≤ n + 1)
    (hlevel : level ≠ []) : (rootWithin node n level).isSome = true := by
  induction n generalizing level with
  | zero =>
    match level, hlevel with
    | [a], _ => rfl
    | a :: b :: rest, _ => simp at hn
  | succ n ih =>
    match level, hlevel with
    | [a], _ => rfl
    | a :: b :: rest, _ =>
      have hlength : (pairUp node (a :: b :: rest)).length ≤ n + 1 := by
        rw [length_pairUp]
        simp only [List.length_cons] at hn ⊢
        omega
      exact ih hlength (List.cons_ne_nil _ _)

theorem root_isSome {leaves : List α} (h : leaves ≠ []) : (root node leaves).isSome = true :=
  rootWithin_isSome (Nat.le_succ _) h

/-! ## Leaf lists of one length -/

/-- The neighbours that are joined in one level. -/
def pairs : List α → List (α × α)
  | [] => []
  | [a] => [(a, a)]
  | a :: b :: rest => (a, b) :: pairs rest

variable (node) in
/-- The neighbours that are joined on the way to the root. -/
def joinedWithin : Nat → List α → List (α × α)
  | _, [] => []
  | _, [_] => []
  | 0, _ => []
  | n + 1, level => pairs level ++ joinedWithin n (pairUp node level)

variable (node) in
def joined (leaves : List α) : List (α × α) := joinedWithin node leaves.length leaves

variable (node) in
/-- No two of the pairs, one from each list, are joined to one node. -/
def Apart (joins joins' : List (α × α)) : Prop :=
  ∀ p ∈ joins, ∀ p' ∈ joins', node p.1 p.2 = node p'.1 p'.2 → p = p'

theorem Apart.of_injective (hnode : Function.Injective2 node) (joins joins' : List (α × α)) :
    Apart node joins joins' :=
  fun _ _ _ _ h => Prod.ext (hnode h).1 (hnode h).2

theorem Apart.mono {joins joins' more more' : List (α × α)} (h : Apart node more more')
    (hsub : joins ⊆ more) (hsub' : joins' ⊆ more') : Apart node joins joins' :=
  fun p hp p' hp' => h p (hsub hp) p' (hsub' hp')

theorem pairUp_injective : {level level' : List α} → Apart node (pairs level) (pairs level') →
    level.length = level'.length → pairUp node level = pairUp node level' → level = level'
  | [], [], _, _, _ => rfl
  | [a], [a'], hapart, _, h => by
    rw [pairUp, pairUp] at h
    have hpair := hapart (a, a) (.head _) (a', a') (.head _) (List.cons.inj h).1
    rw [(Prod.mk.inj hpair).1]
  | a :: b :: rest, a' :: b' :: rest', hapart, hlength, h => by
    rw [pairUp, pairUp] at h
    obtain ⟨hhead, htail⟩ := List.cons.inj h
    have hpair := hapart (a, b) (.head _) (a', b') (.head _) hhead
    have hrest : rest = rest' :=
      pairUp_injective (hapart.mono (List.subset_cons_self _ _) (List.subset_cons_self _ _))
        (by simpa using hlength) htail
    rw [(Prod.mk.inj hpair).1, (Prod.mk.inj hpair).2, hrest]

theorem rootWithin_injective {n : Nat} {level level' : List α}
    (hapart : Apart node (joinedWithin node n level) (joinedWithin node n level'))
    (hlength : level.length = level'.length) (hsome : (rootWithin node n level).isSome = true)
    (h : rootWithin node n level = rootWithin node n level') : level = level' := by
  induction n generalizing level level' with
  | zero =>
    match level, level', hlength with
    | [], [], _ => rfl
    | [a], [a'], _ =>
      rw [rootWithin, rootWithin] at h
      rw [Option.some.inj h]
    | a :: b :: rest, _ :: _ :: _, _ => cases hsome
  | succ n ih =>
    match level, level', hlength with
    | [], [], _ => rfl
    | [a], [a'], _ =>
      rw [rootWithin, rootWithin] at h
      rw [Option.some.inj h]
    | a :: b :: rest, a' :: b' :: rest', hlength =>
      refine pairUp_injective
        (hapart.mono (List.subset_append_left _ _) (List.subset_append_left _ _)) hlength
        (ih (hapart.mono (List.subset_append_right _ _) (List.subset_append_right _ _)) ?_ hsome h)
      rw [length_pairUp, length_pairUp, hlength]

/-- **Leaf lists of one length with one root are one list**, if what was joined for them was joined
to different nodes. -/
theorem root_injective_of_apart {leaves leaves' : List α}
    (hapart : Apart node (joined node leaves) (joined node leaves'))
    (hlength : leaves.length = leaves'.length) (h : root node leaves = root node leaves') :
    leaves = leaves' := by
  cases leaves with
  | nil => exact (List.length_eq_zero_iff.1 hlength.symm).symm
  | cons a rest =>
    rw [root, root, ← hlength] at h
    rw [joined, joined, ← hlength] at hapart
    exact rootWithin_injective hapart hlength
      (rootWithin_isSome (Nat.le_succ _) (List.cons_ne_nil a rest)) h

theorem root_injective (hnode : Function.Injective2 node) {leaves leaves' : List α}
    (hlength : leaves.length = leaves'.length) (h : root node leaves = root node leaves') :
    leaves = leaves' :=
  root_injective_of_apart (.of_injective hnode _ _) hlength h

end Merkle
