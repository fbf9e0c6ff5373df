import Mathlib.Data.List.Nodup
import Mathlib.Data.Nat.Basic

/-!
# Search level by level

A graph is given by the neighbours of each node, in the order in which they are visited, or by the
relation between a node and its neighbours. `levels` is a breadth-first search without a queue: the
neighbours of one level that have not been seen are the next one.

* `mem_levels` : what is found are the nodes at a distance between one and the number of levels.
* `nodup_levels`, `levels_ascend` : each of them once, the nearer ones first.
-/

namespace Search

variable {V : Type}

/-! ## Distances -/

/-- There is a walk of this length. -/
def Walk (r : V → V → Prop) : Nat → V → V → Prop
  | 0, a, b => a = b
  | n + 1, a, b => ∃ c, Walk r n a c ∧ r c b

/-- The length of the shortest walk. -/
def Distance (r : V → V → Prop) (a b : V) (n : Nat) : Prop :=
  Walk r n a b ∧ ∀ m < n, ¬ Walk r m a b

variable {r r' : V → V → Prop} {a b : V} {m n : Nat}

theorem Walk.mono (h : ∀ a b, r a b → r' a b) (hwalk : Walk r n a b) : Walk r' n a b := by
  induction n generalizing b with
  | zero => exact hwalk
  | succ n ih =>
    obtain ⟨c, hc, hb⟩ := hwalk
    exact ⟨c, ih hc, h c b hb⟩

theorem Distance.unique (hm : Distance r a b m) (hn : Distance r a b n) : m = n := by
  rcases Nat.lt_trichotomy m n with h | h | h
  · exact absurd hm.1 (hn.2 m h)
  · exact h
  · exact absurd hn.1 (hm.2 n h)

/-- A walk can be made a shortest one. -/
theorem exists_distance (h : Walk r n a b) : ∃ m ≤ n, Distance r a b m := by
  induction n using Nat.strongRecOn with
  | ind n ih =>
    by_cases hshorter : ∃ m < n, Walk r m a b
    · obtain ⟨m, hlt, hwalk⟩ := hshorter
      obtain ⟨d, hd, hdist⟩ := ih m hlt hwalk
      exact ⟨d, by omega, hdist⟩
    · exact ⟨n, le_rfl, h, fun m hm hwalk => hshorter ⟨m, hm, hwalk⟩⟩

/-- The last step of a shortest walk starts one step nearer. -/
theorem Distance.step {c : V} (h : Distance r a b (n + 1)) (hc : Walk r n a c) (hb : r c b) :
    Distance r a c n :=
  ⟨hc, fun m hm hwalk => h.2 (m + 1) (by omega) ⟨c, hwalk, hb⟩⟩

/-- What is in reach, without the start itself, is at a distance of at least one. -/
theorem reached_iff : (∃ d, 1 ≤ d ∧ d ≤ n ∧ Distance r a b d) ↔ b ≠ a ∧ ∃ m ≤ n, Walk r m a b := by
  constructor
  · rintro ⟨d, hpos, hle, hdist⟩
    refine ⟨?_, d, hle, hdist.1⟩
    rintro rfl
    exact hdist.2 0 hpos rfl
  · rintro ⟨hne, m, hle, hwalk⟩
    obtain ⟨d, hd, hdist⟩ := exists_distance hwalk
    refine ⟨d, ?_, by omega, hdist⟩
    by_contra hzero
    obtain rfl : d = 0 := by omega
    exact hne hdist.1.symm

/-! ## What has not been seen -/

variable [DecidableEq V]

/-- The values of a list that have not been seen, each once. -/
def fresh (seen : List V) : List V → List V
  | [] => []
  | v :: vs => if v ∈ seen then fresh seen vs else v :: fresh (seen ++ [v]) vs

variable {seen vs ws : List V} {v : V}

theorem fresh_cons_seen (h : v ∈ seen) : fresh seen (v :: vs) = fresh seen vs := if_pos h

theorem fresh_cons_new (h : v ∉ seen) : fresh seen (v :: vs) = v :: fresh (seen ++ [v]) vs :=
  if_neg h

theorem mem_fresh : v ∈ fresh seen vs ↔ v ∈ vs ∧ v ∉ seen := by
  induction vs generalizing seen with
  | nil => simp [fresh]
  | cons w vs ih =>
    by_cases hw : w ∈ seen
    · rw [fresh_cons_seen hw, ih, List.mem_cons]
      constructor
      · exact fun h => ⟨.inr h.1, h.2⟩
      · rintro ⟨rfl | h, hv⟩
        · exact absurd hw hv
        · exact ⟨h, hv⟩
    · rw [fresh_cons_new hw, List.mem_cons, List.mem_cons, ih]
      by_cases hvw : v = w
      · simp [hvw, hw]
      · simp [hvw]

theorem nodup_fresh : (fresh seen vs).Nodup := by
  induction vs generalizing seen with
  | nil => exact List.nodup_nil
  | cons w vs ih =>
    by_cases hw : w ∈ seen
    · rw [fresh_cons_seen hw]
      exact ih
    · rw [fresh_cons_new hw, List.nodup_cons]
      exact ⟨fun h => by simpa using (mem_fresh.mp h).2, ih⟩

theorem fresh_append : fresh seen (vs ++ ws) =
    fresh seen vs ++ fresh (seen ++ fresh seen vs) ws := by
  induction vs generalizing seen with
  | nil => simp [fresh]
  | cons w vs ih =>
    rw [List.cons_append]
    by_cases hw : w ∈ seen
    · rw [fresh_cons_seen hw, fresh_cons_seen hw, ih]
    · rw [fresh_cons_new hw, fresh_cons_new hw, ih, List.cons_append, List.append_assoc,
        List.singleton_append]

/-- Values that do not count can be dropped before or after. -/
theorem filter_fresh {p : V → Bool} :
    (fresh seen vs).filter p = fresh (seen.filter p) (vs.filter p) := by
  induction vs generalizing seen with
  | nil => rfl
  | cons w vs ih =>
    by_cases hp : p w = true
    · by_cases hw : w ∈ seen
      · rw [fresh_cons_seen hw, ih, List.filter_cons_of_pos hp,
          fresh_cons_seen (List.mem_filter.mpr ⟨hw, hp⟩)]
      · rw [fresh_cons_new hw, List.filter_cons_of_pos hp, ih, List.filter_cons_of_pos hp,
          fresh_cons_new fun h => hw (List.mem_of_mem_filter h), List.filter_append,
          List.filter_cons_of_pos hp, List.filter_nil]
    · rw [List.filter_cons_of_neg hp]
      by_cases hw : w ∈ seen
      · rw [fresh_cons_seen hw, ih]
      · rw [fresh_cons_new hw, List.filter_cons_of_neg hp, ih, List.filter_append,
          List.filter_cons_of_neg hp, List.filter_nil, List.append_nil]

/-! ## Levels -/

/-- What is found in so many steps from the frontier. -/
def levels (next : V → List V) : Nat → List V → List V → List V
  | 0, _, _ => []
  | hops + 1, seen, frontier =>
    let found := fresh seen (frontier.flatMap next)
    found ++ levels next hops (seen ++ found) found

theorem levels_succ (next : V → List V) (hops : Nat) (seen frontier : List V) :
    levels next (hops + 1) seen frontier = fresh seen (frontier.flatMap next) ++
      levels next hops (seen ++ fresh seen (frontier.flatMap next))
        (fresh seen (frontier.flatMap next)) :=
  rfl

theorem levels_nil (next : V → List V) (hops : Nat) (seen : List V) :
    levels next hops seen [] = [] := by
  induction hops generalizing seen with
  | zero => rfl
  | succ hops ih => simp [levels, fresh, ih]

variable {next : V → List V} {frontier : List V} {hops : Nat}

theorem not_seen_of_mem_levels (h : v ∈ levels next hops seen frontier) : v ∉ seen := by
  induction hops generalizing seen frontier with
  | zero => simp [levels] at h
  | succ hops ih =>
    rcases List.mem_append.mp h with h | h
    · exact (mem_fresh.mp h).2
    · exact fun hv => ih h (List.mem_append_left _ hv)

theorem nodup_levels : (levels next hops seen frontier).Nodup := by
  induction hops generalizing seen frontier with
  | zero => exact List.nodup_nil
  | succ hops ih =>
    refine List.nodup_append'.mpr ⟨nodup_fresh, ih, fun v hfound hlater => ?_⟩
    exact not_seen_of_mem_levels hlater (List.mem_append_right _ hfound)

/-- The search has come this far: it has seen what is in reach, and its frontier is what is
farthest. -/
structure Front (r : V → V → Prop) (start : V) (n : Nat) (seen frontier : List V) : Prop where
  seen : ∀ v, v ∈ seen ↔ ∃ m ≤ n, Walk r m start v
  frontier : ∀ v, v ∈ frontier ↔ Distance r start v n

variable {start : V}

omit [DecidableEq V] in
theorem Front.init (r : V → V → Prop) (start : V) : Front r start 0 [start] [start] where
  seen v := by simp [Walk, eq_comm]
  frontier v := by simp [Distance, Walk, eq_comm]

variable (hnext : ∀ a b, b ∈ next a ↔ r a b)
include hnext

theorem Front.found (h : Front r start n seen frontier) :
    v ∈ fresh seen (frontier.flatMap next) ↔ Distance r start v (n + 1) := by
  rw [mem_fresh, List.mem_flatMap]
  constructor
  · rintro ⟨⟨u, hu, hv⟩, hseen⟩
    refine ⟨⟨u, ((h.frontier u).mp hu).1, (hnext u v).mp hv⟩, fun m hm hwalk => ?_⟩
    exact hseen ((h.seen v).mpr ⟨m, by omega, hwalk⟩)
  · intro hdist
    obtain ⟨u, hu, hv⟩ := hdist.1
    refine ⟨⟨u, (h.frontier u).mpr (hdist.step hu hv), (hnext u v).mpr hv⟩, fun hseen => ?_⟩
    obtain ⟨m, hm, hwalk⟩ := (h.seen v).mp hseen
    exact hdist.2 m (by omega) hwalk

theorem Front.advance (h : Front r start n seen frontier) :
    Front r start (n + 1) (seen ++ fresh seen (frontier.flatMap next))
      (fresh seen (frontier.flatMap next)) where
  frontier v := h.found hnext
  seen v := by
    rw [List.mem_append, h.found hnext, h.seen]
    constructor
    · rintro (⟨m, hm, hwalk⟩ | hdist)
      · exact ⟨m, by omega, hwalk⟩
      · exact ⟨n + 1, le_rfl, hdist.1⟩
    · rintro ⟨m, hm, hwalk⟩
      obtain ⟨d, hd, hdist⟩ := exists_distance hwalk
      by_cases hle : d ≤ n
      · exact .inl ⟨d, hle, hdist.1⟩
      · obtain rfl : d = n + 1 := by omega
        exact .inr hdist

/-- **What is found**: the nodes beyond the frontier, up to so many steps farther. -/
theorem Front.mem_levels (h : Front r start n seen frontier) :
    v ∈ levels next hops seen frontier ↔ ∃ d, n < d ∧ d ≤ n + hops ∧ Distance r start v d := by
  induction hops generalizing n seen frontier with
  | zero =>
    constructor
    · simp [levels]
    · rintro ⟨d, hlt, hle, -⟩
      omega
  | succ hops ih =>
    rw [levels_succ, List.mem_append, h.found hnext, ih (h.advance hnext)]
    constructor
    · rintro (hdist | ⟨d, hlt, hle, hdist⟩)
      · exact ⟨n + 1, by omega, by omega, hdist⟩
      · exact ⟨d, by omega, by omega, hdist⟩
    · rintro ⟨d, hlt, hle, hdist⟩
      by_cases heq : d = n + 1
      · exact .inl (heq ▸ hdist)
      · exact .inr ⟨d, by omega, by omega, hdist⟩

/-- The nearer ones come first. -/
theorem Front.levels_ascend (h : Front r start n seen frontier) :
    (levels next hops seen frontier).Pairwise fun u v =>
      ∀ m m', Distance r start u m → Distance r start v m' → m ≤ m' := by
  induction hops generalizing n seen frontier with
  | zero => exact List.Pairwise.nil
  | succ hops ih =>
    have hfound : ∀ u ∈ fresh seen (frontier.flatMap next), ∀ m, Distance r start u m →
        m = n + 1 := fun u hu m hm => hm.unique ((h.found hnext).mp hu)
    refine List.pairwise_append.mpr ⟨?_, ih (h.advance hnext), ?_⟩
    · refine List.pairwise_of_forall_mem_list fun u hu v hv m m' hm hm' => ?_
      have := hfound u hu m hm
      have := hfound v hv m' hm'
      omega
    · intro u hu v hv m m' hm hm'
      obtain ⟨d, hlt, -, hd⟩ := ((h.advance hnext).mem_levels hnext).mp hv
      have := hfound u hu m hm
      have := hm'.unique hd
      omega

/-- From the start itself. -/
theorem mem_levels : v ∈ levels next hops [start] [start] ↔
    ∃ d, 1 ≤ d ∧ d ≤ hops ∧ Distance r start v d := by
  rw [(Front.init r start).mem_levels hnext, Nat.zero_add]
  rfl

end Search
