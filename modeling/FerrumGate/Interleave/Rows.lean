import Mathlib.Data.List.Sort

/-!
# Tables with a primary key

A table is the list of its rows in insertion order; `Keyed` names the primary key. `find` is
`SELECT … WHERE key = k`, `put` replaces the row with the new row's key (the effect of an `UPDATE`
whose guard has been checked), and an `INSERT` of a row whose key is free appends it.

`bind_ok` peels a transaction written in `Except` apart: a transaction that commits has passed
each of its statements.
-/

namespace Interleave

/-- The primary key of a row. -/
class Keyed (V : Type) (K : outParam Type) where
  key : V → K

namespace Rows

variable {V K : Type} [Keyed V K] [DecidableEq K]

/-- The row with primary key `k`. -/
def find (t : List V) (k : K) : Option V := t.find? fun v => decide (Keyed.key v = k)

/-- Replace the row that has the key of `v`. -/
def put (t : List V) (v : V) : List V := t.map fun w => if Keyed.key w = Keyed.key v then v else w

variable {t : List V} {k : K} {v : V}

theorem find_key (h : find t k = some v) : Keyed.key v = k := by
  simpa using List.find?_some h

theorem mem_of_find (h : find t k = some v) : v ∈ t :=
  List.mem_of_find?_eq_some h

theorem find_eq_none : find t k = none ↔ ∀ v ∈ t, Keyed.key v ≠ k := by
  simp [find, List.find?_eq_none]

@[simp] theorem find_nil (k : K) : find ([] : List V) k = none := rfl

theorem find_cons (v : V) (t : List V) (k : K) :
    find (v :: t) k = if Keyed.key v = k then some v else find t k := by
  by_cases h : Keyed.key v = k <;> simp [find, h]

/-- What a replaced row does to every lookup. -/
theorem find_put (t : List V) (v : V) (k : K) :
    find (put t v) k = if Keyed.key v = k then (find t k).map fun _ => v else find t k := by
  induction t with
  | nil => simp [put]
  | cons w t ih =>
    have hput : put (w :: t) v = (if Keyed.key w = Keyed.key v then v else w) :: put t v := rfl
    rw [hput, find_cons, find_cons, ih]
    by_cases hv : Keyed.key v = k
    · by_cases hw : Keyed.key w = k
      · simp [hv, hw]
      · simp [hv, hw]
    · by_cases hw : Keyed.key w = Keyed.key v
      · simp [hv, hw]
      · simp [hv, hw]

variable {w : V}

theorem find_put_self (h : find t (Keyed.key v) = some w) :
    find (put t v) (Keyed.key v) = some v := by
  simp [find_put, h]

theorem find_put_ne (h : Keyed.key v ≠ k) : find (put t v) k = find t k := by
  simp [find_put, h]

/-- Without a row to replace, nothing changes. -/
theorem find_put_none (h : find t (Keyed.key v) = none) (k : K) : find (put t v) k = find t k := by
  rw [find_put]
  by_cases hk : Keyed.key v = k
  · rw [if_pos hk, ← hk, h]
    rfl
  · rw [if_neg hk]

/-- A replaced row, seen from one key. -/
theorem find_put_cases {row : V} (h : find t (Keyed.key v) = some row) (k : K) :
    (Keyed.key v = k ∧ find t k = some row ∧ find (put t v) k = some v) ∨
      (Keyed.key v ≠ k ∧ find (put t v) k = find t k) := by
  by_cases hk : Keyed.key v = k
  · subst hk
    exact .inl ⟨rfl, h, find_put_self h⟩
  · exact .inr ⟨hk, find_put_ne hk⟩

/-- A relation between what a key finds before and after, when a row is replaced. -/
theorem find_put_rel {P : Option V → Option V → Prop} {row : V}
    (h : find t (Keyed.key v) = some row) (k : K) (hsame : P (find t k) (find t k))
    (hnew : Keyed.key v = k → P (some row) (some v)) : P (find t k) (find (put t v) k) := by
  rcases find_put_cases h k with ⟨hk, hrow, hput⟩ | ⟨_, hput⟩
  · rw [hrow, hput]
    exact hnew hk
  · rw [hput]
    exact hsame

/-- What an inserted row does to every lookup. -/
theorem find_append (t : List V) (v : V) (k : K) :
    find (t ++ [v]) k = (find t k).or (if Keyed.key v = k then some v else none) := by
  induction t with
  | nil => simp [find_cons]
  | cons w t ih =>
    rw [List.cons_append, find_cons, find_cons, ih]
    by_cases hw : Keyed.key w = k <;> simp [hw]

theorem find_append_of_some (h : find t k = some w) : find (t ++ [v]) k = some w := by
  simp [find_append, h]

theorem find_append_self (h : find t (Keyed.key v) = none) :
    find (t ++ [v]) (Keyed.key v) = some v := by
  simp [find_append, h]

theorem find_append_ne (h : Keyed.key v ≠ k) : find (t ++ [v]) k = find t k := by
  simp [find_append, h]

/-- An inserted row, seen from one key. -/
theorem find_append_cases (h : find t (Keyed.key v) = none) (k : K) :
    (Keyed.key v = k ∧ find t k = none ∧ find (t ++ [v]) k = some v) ∨
      (Keyed.key v ≠ k ∧ find (t ++ [v]) k = find t k) := by
  by_cases hk : Keyed.key v = k
  · subst hk
    exact .inl ⟨rfl, h, find_append_self h⟩
  · exact .inr ⟨hk, find_append_ne hk⟩

/-- A relation between what a key finds before and after, when a row is inserted. -/
theorem find_append_rel {P : Option V → Option V → Prop} (h : find t (Keyed.key v) = none) (k : K)
    (hsame : P (find t k) (find t k)) (hnew : Keyed.key v = k → P none (some v)) :
    P (find t k) (find (t ++ [v]) k) := by
  rcases find_append_cases h k with ⟨hk, hnone, happend⟩ | ⟨_, happend⟩
  · rw [hnone, happend]
    exact hnew hk
  · rw [happend]
    exact hsame

theorem keys_put (t : List V) (v : V) : (put t v).map Keyed.key = t.map Keyed.key := by
  simp only [put, List.map_map]
  refine List.map_congr_left fun w _ => ?_
  by_cases h : Keyed.key w = Keyed.key v <;> simp [h]

/-- An insert that finds no row under its key keeps the keys distinct. -/
theorem nodup_keys_append (hn : (t.map Keyed.key).Nodup) (h : find t (Keyed.key v) = none) :
    ((t ++ [v]).map Keyed.key).Nodup := by
  rw [List.map_append]
  refine List.nodup_append.mpr ⟨hn, List.nodup_singleton _, ?_⟩
  rintro k hk _ hx rfl
  obtain ⟨y, hy, rfl⟩ := List.mem_map.mp hk
  exact find_eq_none.mp h y hy (List.mem_singleton.mp hx)

/-- With distinct keys, a row of the table is the one its key finds. -/
theorem find_of_mem (hn : (t.map Keyed.key).Nodup) (h : v ∈ t) : find t (Keyed.key v) = some v := by
  induction t with
  | nil => exact absurd h (by simp)
  | cons w t ih =>
    rw [List.map_cons, List.nodup_cons] at hn
    rw [find_cons]
    rcases List.mem_cons.mp h with rfl | h'
    · simp
    · have hne : Keyed.key w ≠ Keyed.key v := fun e =>
        hn.1 (e ▸ List.mem_map_of_mem h')
      rw [if_neg hne, ih hn.2 h']

omit [DecidableEq K] in
/-- With distinct keys, a property that only one row has is counted once. -/
theorem countP_eq_one (hn : (t.map Keyed.key).Nodup) {P : V → Bool} (h : v ∈ t) (hv : P v = true)
    (hunique : ∀ u ∈ t, P u = true → u = v) : t.countP P = 1 := by
  induction t with
  | nil => cases h
  | cons u t ih =>
    rw [List.map_cons, List.nodup_cons] at hn
    rw [List.countP_cons]
    by_cases hu : P u = true
    · obtain rfl := hunique u List.mem_cons_self hu
      have hnone : t.countP P = 0 := List.countP_eq_zero.mpr fun u' hu' hP => by
        have heq := hunique u' (List.mem_cons_of_mem _ hu') hP
        exact hn.1 (heq ▸ List.mem_map_of_mem hu')
      rw [hnone, if_pos hu]
    · have hmem : v ∈ t := by
        rcases List.mem_cons.mp h with rfl | h
        · exact absurd hv hu
        · exact h
      rw [ih hn.2 hmem fun u' hu' => hunique u' (List.mem_cons_of_mem _ hu'), if_neg hu]

end Rows

/-! ## Transactions -/

section Transactions

variable {α β ε : Type}

/-- Go on when the condition holds, abort with `e` otherwise. -/
def ensure (c : Prop) [Decidable c] (e : ε) : Except ε Unit := if c then .ok () else .error e

theorem ensure_ok {c : Prop} [Decidable c] {e : ε} {u : Unit} : ensure c e = .ok u ↔ c := by
  unfold ensure
  split <;> simp_all

/-- A check that passes. -/
theorem ensure_bind {c : Prop} [Decidable c] (h : c) (e : ε) (f : Unit → Except ε β) :
    (ensure c e >>= f) = f () := by
  rw [ensure, if_pos h]
  rfl

/-- A transaction that commits has passed each of its statements. -/
theorem bind_ok {x : Except ε α} {f : α → Except ε β} {b : β} :
    (x >>= f) = .ok b ↔ ∃ a, x = .ok a ∧ f a = .ok b := by
  cases x with
  | error e => simp [bind, Except.bind]
  | ok a => simp [bind, Except.bind]

end Transactions

end Interleave
