import FerrumGate.Gateway.Problem
import FerrumGate.Graph.Lineage

/-!
# The lineage of an event

`query_lineage` of `ferrum-gateway/src/lineage.rs`, over the stored events and edges. It is a search
of its own: the frontier of the next hop is collected while that of this one is expanded, an event
that is not stored is visited but leads nowhere, and every edge that is looked at is listed. The
texts of the response are sanitized afterwards; that is left out.

* **`lineage_query_exact`** : the events and edges of a query in one direction, and that
  `LineageGraph` finds the same.
-/

namespace FerrumGate.Lineage

open Interleave Interleave.Rows Search

inductive LineageDirection where
  | ancestors | descendants | both
  deriving DecidableEq

structure LineageQueryRequest where
  eventId : EventId
  direction : LineageDirection
  maxHops : Nat

structure LineageQueryResponse where
  events : List ProvenanceEvent
  edges : List ProvenanceEdge
  deriving DecidableEq

/-- `get_edges_from`, for one event. -/
def edgesFrom (id : EventId) (w : World) : List ProvenanceEdge :=
  w.edges.filter (·.fromEventId = id)

/-- `max_hops.clamp(1, 10)` -/
def LineageQueryRequest.hops (request : LineageQueryRequest) : Nat := max 1 (min request.maxHops 10)

/-! ## The query -/

structure LineageState where
  visited : List EventId
  events : List ProvenanceEvent
  edges : List ProvenanceEdge
  nextFrontier : List EventId

/-- What is done with an edge that leads to the event `far`. -/
def followEdge (w : World) (far : ProvenanceEdge → EventId) (s : LineageState)
    (edge : ProvenanceEdge) : LineageState :=
  let s :=
    if far edge ∈ s.visited then s
    else
      let s := { s with visited := s.visited ++ [far edge] }
      match find w.events (far edge) with
      | some event =>
        { s with events := s.events ++ [event], nextFrontier := s.nextFrontier ++ [far edge] }
      | none => s
  { s with edges := s.edges ++ [edge] }

/-- The body of the loop over the frontier. -/
def expandEvent (w : World) (direction : LineageDirection) (s : LineageState) (id : EventId) :
    LineageState :=
  let s := if direction = .ancestors ∨ direction = .both then
    (World.edgesTo id w).foldl (followEdge w (·.fromEventId)) s else s
  if direction = .descendants ∨ direction = .both then
    (edgesFrom id w).foldl (followEdge w (·.toEventId)) s else s

/-- The loop over the hops. -/
def expandHops (w : World) (direction : LineageDirection) :
    Nat → List EventId → LineageState → LineageState
  | 0, _, s => s
  | hops + 1, frontier, s =>
    if frontier.isEmpty then s
    else
      let s := frontier.foldl (expandEvent w direction) s
      expandHops w direction hops s.nextFrontier { s with nextFrontier := [] }

/-- **`query_lineage`** -/
def queryLineage (w : World) (request : LineageQueryRequest) :
    Except ApiProblem LineageQueryResponse :=
  match find w.events request.eventId with
  | none => .error (.missing "seed event not found")
  | some seed =>
    let s := expandHops w request.direction request.hops [request.eventId]
      ⟨[request.eventId], [seed], [], []⟩
    .ok ⟨s.events, s.edges⟩

/-! ## One direction -/

/-- The end of an edge where a search in this direction comes from, and the one it goes to. -/
def LineageDirection.ends (direction : LineageDirection) (edge : ProvenanceEdge) :
    EventId × EventId :=
  match direction with
  | .ancestors => (edge.toEventId, edge.fromEventId)
  | _ => (edge.fromEventId, edge.toEventId)

def stored (w : World) (id : EventId) : Bool := (find w.events id).isSome

/-- The edges at an event that a search in this direction looks at. -/
def edgesAt (w : World) (direction : LineageDirection) (id : EventId) : List ProvenanceEdge :=
  w.edges.filter fun edge => (direction.ends edge).1 = id

/-- The stored events that these edges lead to. -/
def storedNext (w : World) (direction : LineageDirection) (id : EventId) : List EventId :=
  ((edgesAt w direction id).map fun edge => (direction.ends edge).2).filter (stored w)

section OneDirection

variable {w : World} {direction : LineageDirection}

theorem expandEvent_eq (h : direction ≠ .both) (s : LineageState) (id : EventId) :
    expandEvent w direction s id =
      (edgesAt w direction id).foldl (followEdge w fun edge => (direction.ends edge).2) s := by
  cases direction with
  | ancestors => rfl
  | descendants => rfl
  | both => exact absurd rfl h

/-- The loop over the edges of an event, or of several. -/
theorem followEdges_eq (far : ProvenanceEdge → EventId) (edges : List ProvenanceEdge)
    (s : LineageState) :
    edges.foldl (followEdge w far) s =
      { visited := s.visited ++ fresh s.visited (edges.map far)
        events := s.events ++ (fresh s.visited (edges.map far)).filterMap (find w.events)
        edges := s.edges ++ edges
        nextFrontier := s.nextFrontier ++ (fresh s.visited (edges.map far)).filter (stored w) } := by
  induction edges generalizing s with
  | nil => simp [fresh]
  | cons edge edges ih =>
    rw [List.foldl_cons, ih, List.map_cons]
    by_cases hvisited : far edge ∈ s.visited
    · rw [fresh_cons_seen hvisited]
      simp [followEdge, hvisited]
    · rw [fresh_cons_new hvisited]
      cases hfind : find w.events (far edge) with
      | none => simp [followEdge, hvisited, hfind, stored]
      | some event => simp [followEdge, hvisited, hfind, stored]

theorem filterMap_find (ids : List EventId) :
    (ids.filter (stored w)).filterMap (find w.events) = ids.filterMap (find w.events) := by
  rw [List.filterMap_filter]
  congr 1
  funext id
  unfold stored
  cases find w.events id <;> simp

/-- The loop over the frontier: what is found of it are the stored events not seen before. -/
theorem expandFrontier_eq (h : direction ≠ .both) (frontier : List EventId) (s : LineageState)
    (hnext : s.nextFrontier = []) :
    let found := fresh (s.visited.filter (stored w)) (frontier.flatMap (storedNext w direction))
    let s' := frontier.foldl (expandEvent w direction) s
    s'.visited.filter (stored w) = s.visited.filter (stored w) ++ found ∧
      s'.events = s.events ++ found.filterMap (find w.events) ∧
      s'.edges = s.edges ++ frontier.flatMap (edgesAt w direction) ∧ s'.nextFrontier = found := by
  have hfold : frontier.foldl (expandEvent w direction) s =
      (frontier.flatMap (edgesAt w direction)).foldl
        (followEdge w fun edge => (direction.ends edge).2) s := by
    rw [List.foldl_flatMap]
    congr 1
    funext s id
    exact expandEvent_eq h s id
  have hfound : fresh (s.visited.filter (stored w)) (frontier.flatMap (storedNext w direction)) =
      (fresh s.visited ((frontier.flatMap (edgesAt w direction)).map
        fun edge => (direction.ends edge).2)).filter (stored w) := by
    rw [filter_fresh, List.map_flatMap, List.filter_flatMap]
    rfl
  intro found s'
  simp only [found, s', hfold, followEdges_eq, hfound, filterMap_find, hnext, List.filter_append,
    List.nil_append, and_self]

/-- All hops: the search by levels over the stored events. The events that are expanded are those
that all hops but the last one find. -/
theorem expandHops_eq (h : direction ≠ .both) (hops : Nat) (frontier : List EventId)
    (s : LineageState) (hnext : s.nextFrontier = []) :
    (expandHops w direction (hops + 1) frontier s).events = s.events ++
        (levels (storedNext w direction) (hops + 1) (s.visited.filter (stored w))
          frontier).filterMap (find w.events) ∧
      (expandHops w direction (hops + 1) frontier s).edges = s.edges ++
        (frontier ++ levels (storedNext w direction) hops (s.visited.filter (stored w))
          frontier).flatMap (edgesAt w direction) := by
  induction hops generalizing frontier s with
  | zero =>
    obtain ⟨-, hevents, hedges, -⟩ := expandFrontier_eq h frontier s hnext
    cases frontier with
    | nil => simp [expandHops, levels, fresh]
    | cons id frontier =>
      simp only [expandHops, List.isEmpty_cons, Bool.false_eq_true, if_false, levels,
        List.append_nil]
      exact ⟨hevents, hedges⟩
  | succ hops ih =>
    cases hfrontier : frontier with
    | nil => simp [expandHops, levels_nil]
    | cons id rest =>
      rw [← hfrontier]
      obtain ⟨hvisited, hevents, hedges, hfound⟩ := expandFrontier_eq h frontier s hnext
      have hstep : expandHops w direction (hops + 1 + 1) frontier s =
          expandHops w direction (hops + 1) (frontier.foldl (expandEvent w direction) s).nextFrontier
            { frontier.foldl (expandEvent w direction) s with nextFrontier := [] } := by
        rw [hfrontier]
        rfl
      obtain ⟨hevents', hedges'⟩ := ih (frontier.foldl (expandEvent w direction) s).nextFrontier
        { frontier.foldl (expandEvent w direction) s with nextFrontier := [] } rfl
      rw [hstep, hevents', hedges', hfound]
      dsimp only at hvisited ⊢
      rw [hvisited, hevents, hedges, levels_succ _ (hops + 1),
        levels_succ _ hops (s.visited.filter (stored w)) frontier]
      simp only [List.filterMap_append, List.flatMap_append, List.append_assoc, and_self]

/-! ## What is found -/

/-- The stored edges between stored events, as a graph is built of them. -/
def storedEdges (w : World) : List (GraphOp EventId) :=
  (w.edges.filter fun edge => stored w edge.fromEventId && stored w edge.toEventId).map
    fun edge => .addEdge edge.fromEventId edge.toEventId

def LineageDirection.mode : LineageDirection → BfsMode
  | .ancestors => .ancestors
  | .descendants => .descendants
  | .both => .both

theorem mem_storedNext {a b : EventId} : b ∈ storedNext w direction a ↔
    ∃ edge ∈ w.edges, direction.ends edge = (a, b) ∧ stored w b = true := by
  unfold storedNext edgesAt
  rw [List.mem_filter, List.mem_map]
  constructor
  · rintro ⟨⟨edge, hedge, rfl⟩, hstored⟩
    obtain ⟨hmem, hnear⟩ := List.mem_filter.mp hedge
    exact ⟨edge, hmem, Prod.ext (of_decide_eq_true hnear) rfl, hstored⟩
  · rintro ⟨edge, hmem, hends, hstored⟩
    exact ⟨⟨edge, List.mem_filter.mpr ⟨hmem, by simp [hends]⟩, by rw [hends]⟩, hstored⟩

theorem linked_storedEdges (h : direction ≠ .both) {a b : EventId} :
    Linked (storedEdges w) direction.mode a b ↔ b ∈ storedNext w direction a ∧ stored w a = true := by
  have hedge : ∀ parent child, (parent, child) ∈ edgesOf (storedEdges w) ↔
      ∃ edge ∈ w.edges, (edge.fromEventId = parent ∧ edge.toEventId = child) ∧
        stored w parent = true ∧ stored w child = true := by
    intro parent child
    simp only [edgesOf, storedEdges, List.filterMap_map, List.mem_filterMap, List.mem_filter,
      Function.comp_apply, Option.some.injEq, Prod.mk.injEq, Bool.and_eq_true]
    constructor
    · rintro ⟨edge, ⟨hmem, hfrom, hto⟩, rfl, rfl⟩
      exact ⟨edge, hmem, ⟨rfl, rfl⟩, hfrom, hto⟩
    · rintro ⟨edge, hmem, ⟨rfl, rfl⟩, hfrom, hto⟩
      exact ⟨edge, ⟨hmem, hfrom, hto⟩, rfl, rfl⟩
  rw [mem_storedNext]
  cases direction with
  | ancestors =>
    change (b, a) ∈ _ ↔ _
    rw [hedge]
    simp only [LineageDirection.ends, Prod.mk.injEq]
    constructor
    · rintro ⟨edge, hmem, ⟨hfrom, hto⟩, hb, ha⟩
      exact ⟨⟨edge, hmem, ⟨hto, hfrom⟩, hb⟩, ha⟩
    · rintro ⟨⟨edge, hmem, ⟨hto, hfrom⟩, hb⟩, ha⟩
      exact ⟨edge, hmem, ⟨hfrom, hto⟩, hb, ha⟩
  | descendants =>
    change (a, b) ∈ _ ↔ _
    rw [hedge]
    simp only [LineageDirection.ends, Prod.mk.injEq]
    constructor
    · rintro ⟨edge, hmem, hends, ha, hb⟩
      exact ⟨⟨edge, hmem, hends, hb⟩, ha⟩
    · rintro ⟨⟨edge, hmem, hends, hb⟩, ha⟩
      exact ⟨edge, hmem, hends, ha, hb⟩
  | both => exact absurd rfl h

/-- From a stored event, a walk over stored events is a walk in the graph. -/
theorem walk_iff (h : direction ≠ .both) {seed id : EventId} (hseed : stored w seed = true)
    (n : Nat) : Walk (fun a b => b ∈ storedNext w direction a) n seed id ↔
      Walk (Linked (storedEdges w) direction.mode) n seed id := by
  have hstored : ∀ n id, Walk (fun a b => b ∈ storedNext w direction a) n seed id →
      stored w id = true := by
    intro n id hwalk
    cases n with
    | zero => exact hwalk ▸ hseed
    | succ n =>
      obtain ⟨c, -, hid⟩ := hwalk
      exact (List.mem_filter.mp hid).2
  constructor
  · intro hwalk
    induction n generalizing id with
    | zero => exact hwalk
    | succ n ih =>
      obtain ⟨c, hc, hid⟩ := hwalk
      exact ⟨c, ih hc, (linked_storedEdges h).mpr ⟨hid, hstored n c hc⟩⟩
  · exact Walk.mono fun a b hlinked => ((linked_storedEdges h).mp hlinked).1

/-- The edges at several events, each once. -/
theorem flatMap_edgesAt_perm {ids : List EventId} (hnodup : ids.Nodup) :
    (ids.flatMap (edgesAt w direction)).Perm
      (w.edges.filter fun edge => (direction.ends edge).1 ∈ ids) := by
  induction ids with
  | nil => simp
  | cons id ids ih =>
    rw [List.nodup_cons] at hnodup
    rw [List.flatMap_cons]
    refine ((ih hnodup.2).append_left _).trans ?_
    have hsplit := List.filter_append_perm (fun edge => decide ((direction.ends edge).1 = id))
      (w.edges.filter fun edge => (direction.ends edge).1 ∈ id :: ids)
    rw [List.filter_filter, List.filter_filter] at hsplit
    convert hsplit using 2
    · refine List.filter_congr fun edge _ => ?_
      by_cases heq : (direction.ends edge).1 = id <;> simp [heq]
    · refine List.filter_congr fun edge _ => ?_
      by_cases heq : (direction.ends edge).1 = id
      · simp [heq, hnodup.1]
      · simp [heq]

theorem map_filterMap_find {ids : List EventId} (h : ∀ id ∈ ids, stored w id = true) :
    (ids.filterMap (find w.events)).map (·.eventId) = ids := by
  induction ids with
  | nil => rfl
  | cons id ids ih =>
    rw [List.forall_mem_cons] at h
    obtain ⟨event, hevent⟩ := Option.isSome_iff_exists.mp h.1
    rw [List.filterMap_cons_some hevent, List.map_cons, ih h.2]
    exact congrArg (· :: ids) (find_key hevent)

/-- The seed, and what is found in so many hops. -/
def reached (w : World) (direction : LineageDirection) (seed : EventId) (hops : Nat) :
    List EventId :=
  seed :: levels (storedNext w direction) hops [seed] [seed]

section Reached

variable {seed id : EventId} {hops : Nat}

theorem nodup_reached : (reached w direction seed hops).Nodup :=
  List.nodup_cons.mpr ⟨fun h => not_seen_of_mem_levels h List.mem_cons_self, nodup_levels⟩

variable (h : direction ≠ .both) (hseed : stored w seed = true)
include h hseed

theorem mem_found : id ∈ levels (storedNext w direction) hops [seed] [seed] ↔
    id ≠ seed ∧ ∃ n ≤ hops, Walk (Linked (storedEdges w) direction.mode) n seed id := by
  rw [mem_levels (r := fun a b => b ∈ storedNext w direction a) fun _ _ => Iff.rfl, reached_iff]
  simp only [walk_iff h hseed]

theorem mem_reached : id ∈ reached w direction seed hops ↔
    ∃ n ≤ hops, Walk (Linked (storedEdges w) direction.mode) n seed id := by
  rw [reached, List.mem_cons, mem_found h hseed]
  by_cases hid : id = seed
  · simp only [hid, true_or, true_iff]
    exact ⟨0, Nat.zero_le hops, rfl⟩
  · simp [hid]

theorem stored_of_mem_reached (hid : id ∈ reached w direction seed hops) :
    stored w id = true := by
  obtain ⟨n, -, hwalk⟩ := (mem_reached h hseed).mp hid
  cases n with
  | zero => exact hwalk ▸ hseed
  | succ n =>
    obtain ⟨c, -, hlinked⟩ := hwalk
    exact (List.mem_filter.mp ((linked_storedEdges h).mp hlinked).1).2

end Reached

end OneDirection

/-- What a query in one direction is to be answered with: the stored events in reach, each once,
which are those that `LineageGraph` finds, and the edges at all that are nearer than `max_hops`. -/
structure Answers (w : World) (request : LineageQueryRequest) (response : LineageQueryResponse) :
    Prop where
  events : ∀ event, event ∈ response.events ↔ find w.events event.eventId = some event ∧
    ∃ n ≤ request.hops, Walk (Linked (storedEdges w) request.direction.mode) n request.eventId
      event.eventId
  nodup : (response.events.map (·.eventId)).Nodup
  graph : ∃ found, Returns ((build (storedEdges w)).bfs request.eventId request.hops
      request.direction.mode) found ∧
    ∀ id, id ∈ response.events.map (·.eventId) ↔ id = request.eventId ∨ id ∈ found
  edges : ∃ nearer : List EventId, (∀ id, id ∈ nearer ↔ ∃ n < request.hops,
      Walk (Linked (storedEdges w) request.direction.mode) n request.eventId id) ∧
    response.edges.Perm (w.edges.filter fun edge => (request.direction.ends edge).1 ∈ nearer)

/-- **The lineage of a stored event, in one direction.** -/
theorem lineage_query_exact (w : World) (request : LineageQueryRequest)
    (hone : request.direction ≠ .both) (hseed : stored w request.eventId = true) :
    ∃ response, queryLineage w request = .ok response ∧ Answers w request response := by
  obtain ⟨seed, hfind⟩ := Option.isSome_iff_exists.mp hseed
  obtain ⟨hops, hhops⟩ : ∃ hops, request.hops = hops + 1 :=
    Nat.exists_eq_succ_of_ne_zero (by unfold LineageQueryRequest.hops; omega)
  obtain ⟨hevents, hedges⟩ := expandHops_eq (w := w) hone hops [request.eventId]
    ⟨[request.eventId], [seed], [], []⟩ rfl
  rw [List.filter_cons_of_pos hseed, List.filter_nil] at hevents hedges
  have hanswer : [seed] ++ (levels (storedNext w request.direction) (hops + 1) [request.eventId]
      [request.eventId]).filterMap (find w.events) =
        (reached w request.direction request.eventId (hops + 1)).filterMap (find w.events) :=
    (List.filterMap_cons_some hfind).symm
  rw [hanswer] at hevents
  have hids : ((reached w request.direction request.eventId (hops + 1)).filterMap
      (find w.events)).map (·.eventId) = reached w request.direction request.eventId (hops + 1) :=
    map_filterMap_find fun id hid => stored_of_mem_reached hone hseed hid
  refine ⟨_, by rw [queryLineage, hfind], ?_, ?_, ?_, ?_⟩
  · intro event
    rw [hhops, hevents, List.mem_filterMap, ← mem_reached hone hseed]
    constructor
    · rintro ⟨id, hid, hevent⟩
      have hkey : event.eventId = id := find_key hevent
      exact ⟨hkey ▸ hevent, hkey ▸ hid⟩
    · rintro ⟨hevent, hid⟩
      exact ⟨event.eventId, hid, hevent⟩
  · rw [hhops, hevents, hids]
    exact nodup_reached
  · obtain ⟨found, hreturns, hexact⟩ := bfs_exact (storedEdges w) request.eventId request.hops
      request.direction.mode
    refine ⟨found, hreturns, fun id => ?_⟩
    rw [hhops, hevents, hids, reached, List.mem_cons, mem_found hone hseed, hexact.mem_iff,
      reached_iff, hhops]
  · refine ⟨reached w request.direction request.eventId hops, fun id => ?_, ?_⟩
    · rw [mem_reached hone hseed, hhops]
      simp only [Nat.lt_succ_iff]
    · rw [hhops, hedges]
      exact flatMap_edgesAt_perm nodup_reached

namespace QuerySample

def event (n : Nat) (kind : ProvenanceEventKind) : ProvenanceEvent where
  eventId := ⟨n⟩
  kind := kind
  occurredAt := n
  intentId := none
  proposalId := none
  executionId := none
  capabilityId := none
  rollbackContractId := none
  metadata := {}

def edge (parent child : Nat) : ProvenanceEdge := ⟨.caused, ⟨parent⟩, ⟨child⟩⟩

/-- An event with two parents, of which one is not stored. -/
def world : World where
  events := [event 1 .sideEffectVerified, event 2 .sideEffectCommitted]
  edges := [edge 1 2, edge 3 2, edge 2 1]

end QuerySample

open QuerySample in
/-- The ancestors of an event on a cycle. -/
theorem lineage_query_cycle :
    queryLineage world ⟨⟨2⟩, .ancestors, 3⟩ = .ok
        ⟨[event 2 .sideEffectCommitted, event 1 .sideEffectVerified],
          [edge 1 2, edge 3 2, edge 2 1]⟩ ∧
      ∃ response, queryLineage world ⟨⟨2⟩, .ancestors, 3⟩ = .ok response ∧
        Answers world ⟨⟨2⟩, .ancestors, 3⟩ response :=
  ⟨by decide, lineage_query_exact world _ (by decide) (by decide)⟩

end FerrumGate.Lineage
