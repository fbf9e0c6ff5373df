import FerrumGate.Search.Breadth
import Mathlib.Data.List.Induction

/-!
# The lineage graph

`LineageGraph` of `ferrum-graph/src/lib.rs`: parents and children of each event, and the three
traversals, which are one search with a queue. Ids are texts in the source and any type with
equality here. The stored events themselves are read by no traversal and are left out.

* **`traversals_exact`** : ancestors and descendants are the nodes at a distance between one and
  `max_hops`, each once, the nearer ones first.
* **`both_eq_union_iff`** : when the search in both directions finds nothing but these. It may turn
  around at every node (`sibling_found`), so nothing new may be there after the first turn.
-/

namespace FerrumGate.Lineage

open Search

variable {K : Type} [DecidableEq K]

/-! ## The graph -/

/-- The maps `children` and `parents`. -/
structure LineageGraph (K : Type) where
  children : K → Option (List K)
  parents : K → Option (List K)

/-- `LineageGraph::new` -/
def LineageGraph.new : LineageGraph K := ⟨fun _ => none, fun _ => none⟩

/-- `entry(key).or_default()`, with something done to the entry. -/
def atEntry (map : K → Option (List K)) (key : K) (f : List K → List K) : K → Option (List K) :=
  Function.update map key (some (f ((map key).getD [])))

/-- `add_event` -/
def LineageGraph.addEvent (g : LineageGraph K) (id : K) : LineageGraph K where
  children := atEntry g.children id fun ids => ids
  parents := atEntry g.parents id fun ids => ids

/-- `add_edge` -/
def LineageGraph.addEdge (g : LineageGraph K) (parentId childId : K) : LineageGraph K where
  children := atEntry g.children parentId (· ++ [childId])
  parents := atEntry g.parents childId (· ++ [parentId])

inductive GraphOp (K : Type) where
  | addEvent (id : K)
  | addEdge (parentId childId : K)

def LineageGraph.apply (g : LineageGraph K) : GraphOp K → LineageGraph K
  | .addEvent id => g.addEvent id
  | .addEdge parentId childId => g.addEdge parentId childId

/-- The graph that is built by these calls. -/
def build (ops : List (GraphOp K)) : LineageGraph K := ops.foldl LineageGraph.apply .new

/-! ## The search -/

inductive BfsMode where
  | ancestors | descendants | both

def LineageGraph.neighbors (g : LineageGraph K) (mode : BfsMode) (current : K) : List K :=
  match mode with
  | .ancestors => (g.parents current).getD []
  | .descendants => (g.children current).getD []
  | .both =>
    let n := (g.parents current).getD []
    match g.children current with
    | some childNeighbors => n ++ childNeighbors
    | none => n

structure BfsState (K : Type) where
  visited : List K
  result : List K
  queue : List (K × Nat)

/-- The loop over the neighbours of a node that is so many hops away. -/
def visit (hops : Nat) : List K → BfsState K → BfsState K
  | [], s => s
  | neighbor :: neighbors, s =>
    visit hops neighbors <|
      if neighbor ∈ s.visited then s
      else
        { visited := s.visited ++ [neighbor]
          result := s.result ++ [neighbor]
          queue := s.queue ++ [(neighbor, hops + 1)] }

/-- The loop over the queue, for at most so many rounds. -/
def bfsLoop (neighbors : K → List K) (maxHops : Nat) : Nat → BfsState K → Option (List K)
  | 0, _ => none
  | rounds + 1, s =>
    match s.queue with
    | [] => some s.result
    | (current, hops) :: queue =>
      if maxHops ≤ hops then bfsLoop neighbors maxHops rounds { s with queue }
      else bfsLoop neighbors maxHops rounds (visit hops (neighbors current) { s with queue })

/-- **`bfs`** -/
def LineageGraph.bfs (g : LineageGraph K) (eventId : K) (maxHops : Nat) (mode : BfsMode)
    (rounds : Nat) : Option (List K) :=
  bfsLoop (g.neighbors mode) maxHops rounds ⟨[eventId], [], [(eventId, 0)]⟩

def LineageGraph.ancestors (g : LineageGraph K) (eventId : K) (maxHops : Nat) :
    Nat → Option (List K) :=
  g.bfs eventId maxHops .ancestors

def LineageGraph.descendants (g : LineageGraph K) (eventId : K) (maxHops : Nat) :
    Nat → Option (List K) :=
  g.bfs eventId maxHops .descendants

def LineageGraph.bothDirections (g : LineageGraph K) (eventId : K) (maxHops : Nat) :
    Nat → Option (List K) :=
  g.bfs eventId maxHops .both

/-- The loop ends with this result. -/
def Returns (f : Nat → Option (List K)) (result : List K) : Prop :=
  ∃ enough, ∀ rounds, enough ≤ rounds → f rounds = some result

/-! ## Queue and levels -/

section Queue

variable {neighbors : K → List K} {maxHops : Nat} {visited result frontier found : List K}

theorem visit_eq (hops : Nat) (ids : List K) (queue : List (K × Nat)) :
    visit hops ids ⟨visited, result, queue⟩ =
      ⟨visited ++ fresh visited ids, result ++ fresh visited ids,
        queue ++ (fresh visited ids).map (·, hops + 1)⟩ := by
  induction ids generalizing visited result queue with
  | nil => simp [visit, fresh]
  | cons id ids ih =>
    unfold visit
    by_cases hid : id ∈ visited
    · rw [if_pos hid, ih, fresh_cons_seen hid]
    · rw [if_neg hid, ih, fresh_cons_new hid]
      simp

theorem bfsLoop_cons (rounds : Nat) (current : K) (hops : Nat) (queue : List (K × Nat)) :
    bfsLoop neighbors maxHops (rounds + 1) ⟨visited, result, (current, hops) :: queue⟩ =
      if maxHops ≤ hops then bfsLoop neighbors maxHops rounds ⟨visited, result, queue⟩
      else bfsLoop neighbors maxHops rounds
        (visit hops (neighbors current) ⟨visited, result, queue⟩) :=
  rfl

/-- The nodes of one level leave the queue, and those of the next one come in behind. -/
theorem bfsLoop_level (visited result frontier found : List K) {hops : Nat}
    (hhops : hops < maxHops) (rounds : Nat) :
    bfsLoop neighbors maxHops (rounds + frontier.length)
        ⟨visited, result, frontier.map (·, hops) ++ found.map (·, hops + 1)⟩ =
      bfsLoop neighbors maxHops rounds
        ⟨visited ++ fresh visited (frontier.flatMap neighbors),
          result ++ fresh visited (frontier.flatMap neighbors),
          (found ++ fresh visited (frontier.flatMap neighbors)).map (·, hops + 1)⟩ := by
  induction frontier generalizing visited result found with
  | nil => simp [fresh]
  | cons current frontier ih =>
    rw [List.length_cons, ← Nat.add_assoc, List.map_cons, List.cons_append, bfsLoop_cons,
      if_neg (Nat.not_le.mpr hhops), visit_eq, List.append_assoc, ← List.map_append, ih,
      List.flatMap_cons, fresh_append]
    simp only [List.append_assoc]

/-- The last level is not expanded. -/
theorem bfsLoop_last (rounds : Nat) :
    bfsLoop neighbors maxHops (rounds + 1 + frontier.length)
      ⟨visited, result, frontier.map (·, maxHops)⟩ = some result := by
  induction frontier with
  | nil => rfl
  | cons current frontier ih =>
    rw [List.length_cons, ← Nat.add_assoc, List.map_cons, bfsLoop_cons,
      if_pos (Nat.le_refl _)]
    exact ih

/-- The search with a queue is the search by levels. The induction is on the hops that are left. -/
theorem bfsLoop_eq (visited result frontier : List K) {left hops : Nat}
    (hhops : hops + left = maxHops) (rounds : Nat) :
    bfsLoop neighbors maxHops
        (rounds + 1 + (levels neighbors left visited frontier).length + frontier.length)
        ⟨visited, result, frontier.map (·, hops)⟩ =
      some (result ++ levels neighbors left visited frontier) := by
  induction left generalizing hops visited result frontier with
  | zero =>
    obtain rfl : hops = maxHops := by omega
    rw [levels, List.append_nil]
    exact bfsLoop_last rounds
  | succ left ih =>
    have hqueue : frontier.map (·, hops) = frontier.map (·, hops) ++ [].map (·, hops + 1) :=
      (List.append_nil _).symm
    rw [hqueue, bfsLoop_level visited result frontier [] (by omega), List.nil_append, levels,
      ← List.append_assoc, ← ih _ _ _ (by omega : hops + 1 + left = maxHops), List.length_append]
    congr 1
    omega

end Queue

/-! ## Edges -/

/-- The edges that were added, from parent to child. -/
def edgesOf (ops : List (GraphOp K)) : List (K × K) :=
  ops.filterMap fun
    | .addEvent _ => none
    | .addEdge parentId childId => some (parentId, childId)

theorem getD_atEntry (map : K → Option (List K)) (key id : K) (f : List K → List K) :
    (atEntry map key f id).getD [] =
      if id = key then f ((map id).getD []) else (map id).getD [] := by
  unfold atEntry Function.update
  by_cases h : id = key
  · subst h
    simp
  · simp [h]

/-- Both maps hold the edges. -/
theorem mem_build (ops : List (GraphOp K)) (a b : K) :
    (b ∈ ((build ops).children a).getD [] ↔ (a, b) ∈ edgesOf ops) ∧
      (b ∈ ((build ops).parents a).getD [] ↔ (b, a) ∈ edgesOf ops) := by
  induction ops using List.reverseRecOn with
  | nil => simp [build, LineageGraph.new, edgesOf]
  | append_singleton ops op ih =>
    have hbuild : build (ops ++ [op]) = (build ops).apply op := List.foldl_concat _ _ _ _
    have hedges : edgesOf (ops ++ [op]) = edgesOf ops ++ edgesOf [op] := List.filterMap_append
    rw [hbuild, hedges, List.mem_append, List.mem_append, ← ih.1, ← ih.2]
    cases op with
    | addEvent id => simp [LineageGraph.apply, LineageGraph.addEvent, getD_atEntry, edgesOf]
    | addEdge parentId childId =>
      simp only [LineageGraph.apply, LineageGraph.addEdge, getD_atEntry, edgesOf]
      constructor
      · by_cases ha : a = parentId <;> simp [ha]
      · by_cases ha : a = childId <;> simp [ha]

/-- One step of a search in this mode. -/
def Linked (ops : List (GraphOp K)) : BfsMode → K → K → Prop
  | .ancestors, a, b => (b, a) ∈ edgesOf ops
  | .descendants, a, b => (a, b) ∈ edgesOf ops
  | .both, a, b => (b, a) ∈ edgesOf ops ∨ (a, b) ∈ edgesOf ops

theorem mem_neighbors (ops : List (GraphOp K)) (mode : BfsMode) (a b : K) :
    b ∈ (build ops).neighbors mode a ↔ Linked ops mode a b := by
  cases mode with
  | ancestors => exact (mem_build ops a b).2
  | descendants => exact (mem_build ops a b).1
  | both =>
    change _ ↔ (b, a) ∈ edgesOf ops ∨ (a, b) ∈ edgesOf ops
    rw [← (mem_build ops a b).1, ← (mem_build ops a b).2, LineageGraph.neighbors]
    cases (build ops).children a <;> simp

/-! ## What is found -/

/-- The nodes at a distance between one and `maxHops`, each once, the nearer ones first. -/
structure Exact (r : K → K → Prop) (start : K) (maxHops : Nat) (result : List K) : Prop where
  mem_iff : ∀ v, v ∈ result ↔ ∃ d, 1 ≤ d ∧ d ≤ maxHops ∧ Distance r start v d
  nodup : result.Nodup
  ascends : result.Pairwise fun u v =>
    ∀ m n, Distance r start u m → Distance r start v n → m ≤ n

theorem bfs_exact (ops : List (GraphOp K)) (start : K) (maxHops : Nat) (mode : BfsMode) :
    ∃ result, Returns ((build ops).bfs start maxHops mode) result ∧
      Exact (Linked ops mode) start maxHops result := by
  have hnext := mem_neighbors ops mode
  refine ⟨levels ((build ops).neighbors mode) maxHops [start] [start], ?_, ?_⟩
  · refine ⟨(levels ((build ops).neighbors mode) maxHops [start] [start]).length + 2, ?_⟩
    intro rounds hrounds
    obtain ⟨more, rfl⟩ := Nat.exists_eq_add_of_le hrounds
    have heq : _ = some ([] ++ levels ((build ops).neighbors mode) maxHops [start] [start]) :=
      bfsLoop_eq [start] [] [start] (Nat.zero_add maxHops) more
    rw [List.nil_append] at heq
    rw [← heq]
    unfold LineageGraph.bfs
    congr 1
    simp only [List.length_singleton]
    omega
  · exact ⟨fun v => mem_levels hnext, nodup_levels, (Front.init _ start).levels_ascend hnext⟩

/-- **Ancestors and descendants.** -/
theorem traversals_exact (ops : List (GraphOp K)) (start : K) (maxHops : Nat) :
    (∃ result, Returns ((build ops).ancestors start maxHops) result ∧
      Exact (fun child parent => (parent, child) ∈ edgesOf ops) start maxHops result) ∧
    (∃ result, Returns ((build ops).descendants start maxHops) result ∧
      Exact (fun parent child => (parent, child) ∈ edgesOf ops) start maxHops result) :=
  ⟨bfs_exact ops start maxHops .ancestors, bfs_exact ops start maxHops .descendants⟩

section Turns

omit [DecidableEq K]

variable {ops : List (GraphOp K)} {start v w : K} {m n maxHops : Nat}

/-- A walk that does not turn around leads there. -/
def Straight (ops : List (GraphOp K)) (start : K) (n : Nat) (v : K) : Prop :=
  Walk (Linked ops .ancestors) n start v ∨ Walk (Linked ops .descendants) n start v

/-- One turn leads there: to a child of an ancestor or a parent of a descendant, `n` hops away. -/
def Turn (ops : List (GraphOp K)) (start : K) (n : Nat) (w : K) : Prop :=
  ∃ v, Walk (Linked ops .ancestors) n start v ∧ (v, w) ∈ edgesOf ops ∨
    Walk (Linked ops .descendants) n start v ∧ (w, v) ∈ edgesOf ops

theorem Straight.both (h : Straight ops start n v) : Walk (Linked ops .both) n start v :=
  h.elim (·.mono fun _ _ => .inl) (·.mono fun _ _ => .inr)

theorem Turn.both (h : Turn ops start n w) : Walk (Linked ops .both) (n + 1) start w := by
  obtain ⟨v, ⟨hwalk, hedge⟩ | ⟨hwalk, hedge⟩⟩ := h
  · exact ⟨v, Straight.both (.inl hwalk), .inr hedge⟩
  · exact ⟨v, Straight.both (.inr hwalk), .inl hedge⟩

theorem Straight.step (h : Straight ops start n v) (hlink : Linked ops .both v w) :
    Straight ops start (n + 1) w ∨ Turn ops start n w := by
  rcases h with hup | hdown <;> rcases hlink with hparent | hchild
  · exact .inl (.inl ⟨v, hup, hparent⟩)
  · exact .inr ⟨v, .inl ⟨hup, hchild⟩⟩
  · exact .inr ⟨v, .inr ⟨hdown, hparent⟩⟩
  · exact .inl (.inr ⟨v, hdown, hchild⟩)

/-- If no turn leads to something new, nor do several. -/
theorem straight_of_both
    (hturns : ∀ m < maxHops, ∀ w, Turn ops start m w → ∃ n ≤ m + 1, Straight ops start n w)
    (hn : n ≤ maxHops) (h : Walk (Linked ops .both) n start v) :
    ∃ m ≤ n, Straight ops start m v := by
  induction n generalizing v with
  | zero => exact ⟨0, Nat.le_refl _, .inl h⟩
  | succ n ih =>
    obtain ⟨u, hwalk, hlink⟩ := h
    obtain ⟨m, hm, hstraight⟩ := ih (by omega) hwalk
    rcases hstraight.step hlink with hstep | hturn
    · exact ⟨m + 1, by omega, hstep⟩
    · obtain ⟨k, hk, hnew⟩ := hturns m (by omega) v hturn
      exact ⟨k, by omega, hnew⟩

end Turns

/-- **When both directions find the ancestors and the descendants**, for as many hops and for
fewer: if no child of an ancestor and no parent of a descendant is new. -/
theorem both_eq_union_iff (ops : List (GraphOp K)) (start : K) (maxHops : Nat) :
    ∃ both ancestors descendants : Nat → List K,
      (∀ hops, Returns ((build ops).bothDirections start hops) (both hops) ∧
        Returns ((build ops).ancestors start hops) (ancestors hops) ∧
        Returns ((build ops).descendants start hops) (descendants hops)) ∧
      ((∀ hops ≤ maxHops, ∀ v, v ∈ both hops ↔ v ∈ ancestors hops ∨ v ∈ descendants hops) ↔
        ∀ m < maxHops, ∀ w, Turn ops start m w → ∃ n ≤ m + 1, Straight ops start n w) := by
  choose both hboth hbothExact using fun hops => bfs_exact ops start hops .both
  choose up hup hupExact using fun hops => bfs_exact ops start hops .ancestors
  choose down hdown hdownExact using fun hops => bfs_exact ops start hops .descendants
  refine ⟨both, up, down, fun hops => ⟨hboth hops, hup hops, hdown hops⟩, ?_⟩
  simp only [(hbothExact _).mem_iff, (hupExact _).mem_iff, (hdownExact _).mem_iff, reached_iff]
  constructor
  · intro h m hm w hturn
    by_cases hstart : w = start
    · exact ⟨0, Nat.zero_le _, .inl hstart.symm⟩
    · rcases (h (m + 1) hm w).mp ⟨hstart, m + 1, Nat.le_refl _, hturn.both⟩ with
        ⟨-, n, hn, hwalk⟩ | ⟨-, n, hn, hwalk⟩
      · exact ⟨n, hn, .inl hwalk⟩
      · exact ⟨n, hn, .inr hwalk⟩
  · intro hturns hops hhops v
    constructor
    · rintro ⟨hstart, n, hn, hwalk⟩
      obtain ⟨m, hm, hup | hdown⟩ := straight_of_both hturns (by omega) hwalk
      · exact .inl ⟨hstart, m, by omega, hup⟩
      · exact .inr ⟨hstart, m, by omega, hdown⟩
    · rintro (⟨hstart, n, hn, hwalk⟩ | ⟨hstart, n, hn, hwalk⟩)
      · exact ⟨hstart, n, hn, Straight.both (.inl hwalk)⟩
      · exact ⟨hstart, n, hn, Straight.both (.inr hwalk)⟩

/-- Two children of one parent: each is found from the other, and is neither its ancestor nor its
descendant. -/
theorem sibling_found :
    (build [.addEdge "parent" "a", .addEdge "parent" "b"]).bothDirections "a" 2 9 =
        some ["parent", "b"] ∧
      (build [.addEdge "parent" "a", .addEdge "parent" "b"]).ancestors "a" 2 9 = some ["parent"] ∧
      (build [.addEdge "parent" "a", .addEdge "parent" "b"]).descendants "a" 2 9 = some [] := by
  decide

end FerrumGate.Lineage
