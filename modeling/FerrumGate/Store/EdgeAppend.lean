import FerrumGate.Store.World

/-!
# Appending provenance edges, statement by statement

`append_edges` and `append_event_with_edges` of `ferrum-store/src/sqlite/provenance.rs`
(`postgres/provenance.rs` has the same statements). The first inserts edge after edge on the pool,
the second runs its inserts in a transaction; with a write queue the writer runs the same routines.

* `insertEdges_eq` : the loop stores the edges before the first statement that fails.
* **`append_edges_all_or_none_iff`** : so `append_edges` stores all edges or none exactly if no
  statement fails, the first one does, or the queue does not run it; with one edge, which is what
  the reconciler appends, always. `append_event_with_edges` stores everything or nothing.
* `append_edges_keeps_first` : the second of two edges names an unknown event, and the first one
  stays.

A statement fails when the database says so (`fault`) or when an end of its edge is not stored
(`PRAGMA foreign_keys=ON`).
-/

namespace FerrumGate.EdgeAppend

open Interleave Interleave.Rows

/-- `ProvenanceEdge` -/
structure Edge where
  edgeType : ProvenanceEdgeType
  fromEventId : EventId
  toEventId : Option EventId
  summary : Option String
  deriving DecidableEq

/-- A row of `provenance_edges`. -/
structure EdgeRow where
  toEventId : EventId
  fromEventId : EventId
  edgeType : ProvenanceEdgeType
  summary : Option String
  deriving DecidableEq

/-- The ids of the stored events, and the stored edges. -/
structure Tables where
  events : List EventId
  edges : List EdgeRow
  deriving DecidableEq

def Edge.row (edge : Edge) (toEventId : EventId) : EdgeRow :=
  ⟨toEventId, edge.fromEventId, edge.edgeType, edge.summary⟩

/-! ## Statements -/

/-- Which statements of a call the database refuses, counted from the first. -/
abbrev Fault := Nat → Bool

/-- Statement `n` of the call goes through. -/
def accepts (fault : Fault) (tables : Tables) (toEventId : EventId) (n : Nat) (edge : Edge) : Bool :=
  !fault n && tables.events.contains toEventId && tables.events.contains edge.fromEventId

/-- `INSERT INTO provenance_edges` -/
def insertEdge (fault : Fault) (toEventId : EventId) (n : Nat) (edge : Edge) (tables : Tables) :
    Except StoreError Tables :=
  if accepts fault tables toEventId n edge then
    .ok { tables with edges := tables.edges ++ [edge.row toEventId] }
  else .error .database

/-- The loop over the edges, from statement `n` on. -/
def insertEdges (fault : Fault) (toEventId : EventId) :
    Nat → List Edge → Tables → Except StoreError Unit × Tables
  | _, [], tables => (.ok (), tables)
  | n, edge :: rest, tables =>
    match insertEdge fault toEventId n edge tables with
    | .error e => (.error e, tables)
    | .ok tables => insertEdges fault toEventId (n + 1) rest tables

/-- `INSERT INTO provenance_events` -/
def insertEvent (fault : Fault) (eventId : EventId) (n : Nat) (tables : Tables) :
    Except StoreError Tables :=
  if fault n || tables.events.contains eventId then .error .database
  else .ok { tables with events := tables.events ++ [eventId] }

/-! ## The two operations -/

/-- How an operation gets to the database. -/
inductive Path where
  | direct
  /-- `queue.send` finds the queue closed. -/
  | queueClosed
  /-- The queue takes the operation and drops it. -/
  | queueDropped
  /-- The writer runs the operation; the reply may get lost. -/
  | queued (answered : Bool)
  deriving DecidableEq

/-- Is the routine run at all? -/
def Path.runs : Path → Bool
  | .direct | .queued _ => true
  | .queueClosed | .queueDropped => false

def onPath (routine : Tables → Except StoreError Unit × Tables) (tables : Tables) :
    Path → Except StoreError Unit × Tables
  | .direct | .queued true => routine tables
  | .queueClosed => (.error (.other "write queue closed"), tables)
  | .queueDropped => (.error (.other "write operation cancelled"), tables)
  | .queued false => (.error (.other "write operation cancelled"), (routine tables).2)

/-- **`append_edges`** -/
def appendEdges (fault : Fault) (toEventId : EventId) (edges : List Edge) (path : Path)
    (tables : Tables) : Except StoreError Unit × Tables :=
  onPath (insertEdges fault toEventId 0 edges) tables path

/-- What the transaction does between `BEGIN` (statement 0) and `COMMIT`. -/
def eventTransaction (fault : Fault) (eventId : EventId) (edges : List Edge) (tables : Tables) :
    Except StoreError Tables := do
  ensure (fault 0 = false) .database
  let tables ← insertEvent fault eventId 1 tables
  match insertEdges fault eventId 2 edges tables with
  | (.error e, _) => .error e
  | (.ok _, tables) =>
    ensure (fault (edges.length + 2) = false) .database
    return tables

/-- **`append_event_with_edges`**: a transaction that is not committed is rolled back. -/
def appendEventWithEdges (fault : Fault) (eventId : EventId) (edges : List Edge) (path : Path)
    (tables : Tables) : Except StoreError Unit × Tables :=
  if edges.any fun edge => edge.toEventId.any (· ≠ eventId) then
    (.error (.other "provenance edge to_event_id does not match appended event"), tables)
  else onPath (fun tables =>
    match eventTransaction fault eventId edges tables with
    | .ok after => (.ok (), after)
    | .error e => (.error e, tables)) tables path

/-! ## What is stored -/

/-- The edges before the first statement that fails. -/
def written (fault : Fault) (tables : Tables) (toEventId : EventId) : Nat → List Edge → List Edge
  | _, [] => []
  | n, edge :: rest =>
    if accepts fault tables toEventId n edge then edge :: written fault tables toEventId (n + 1) rest
    else []

section Stored

variable {fault : Fault} {toEventId : EventId} {tables : Tables}

theorem insertEdges_eq (fault : Fault) (toEventId : EventId) (tables : Tables) (n : Nat)
    (edges : List Edge) (rows : List EdgeRow) :
    insertEdges fault toEventId n edges { tables with edges := rows } =
      (if written fault tables toEventId n edges = edges then .ok () else .error .database,
        { tables with
          edges := rows ++ (written fault tables toEventId n edges).map (·.row toEventId) }) := by
  induction edges generalizing n rows with
  | nil => simp [insertEdges, written]
  | cons edge rest ih =>
    have haccepts : accepts fault { tables with edges := rows } toEventId n edge =
        accepts fault tables toEventId n edge := rfl
    by_cases h : accepts fault tables toEventId n edge = true
    · simp [insertEdges, insertEdge, written, haccepts, h, ih]
    · simp [insertEdges, insertEdge, written, haccepts, h]

theorem written_front (n : Nat) (edges : List Edge) :
    written fault tables toEventId n edges <+: edges := by
  induction edges generalizing n with
  | nil => exact List.prefix_rfl
  | cons edge rest ih =>
    unfold written
    split
    · exact List.prefix_cons_inj edge |>.mpr (ih (n + 1))
    · exact List.nil_prefix

theorem written_eq_self_iff (n : Nat) (edges : List Edge) :
    written fault tables toEventId n edges = edges ↔
      ∀ i edge, edges[i]? = some edge → accepts fault tables toEventId (n + i) edge = true := by
  induction edges generalizing n with
  | nil => simp [written]
  | cons edge rest ih =>
    by_cases h : accepts fault tables toEventId n edge = true
    · rw [written, if_pos h, List.cons_inj_right, ih]
      constructor
      · rintro hrest (_ | i) found hfound
        · cases hfound
          exact h
        · have hnext := hrest i found hfound
          rwa [Nat.add_right_comm] at hnext
      · intro hall i found hfound
        rw [Nat.add_right_comm]
        exact hall (i + 1) found hfound
    · rw [written, if_neg h]
      exact iff_of_false (List.cons_ne_nil _ _).symm fun hall => h (hall 0 edge rfl)

/-- Statement `i` fails. -/
def Fails (fault : Fault) (tables : Tables) (toEventId : EventId) (edges : List Edge) (i : Nat) :
    Prop :=
  ∃ edge, edges[i]? = some edge ∧ accepts fault tables toEventId i edge = false

theorem written_all_iff (edges : List Edge) :
    written fault tables toEventId 0 edges = edges ↔
      ∀ i, ¬ Fails fault tables toEventId edges i := by
  rw [written_eq_self_iff]
  simp only [Fails, not_exists, not_and, Nat.zero_add, Bool.not_eq_false]

theorem written_none_iff (edges : List Edge) :
    written fault tables toEventId 0 edges = [] ↔
      edges = [] ∨ Fails fault tables toEventId edges 0 := by
  cases edges with
  | nil => simp [written]
  | cons edge rest => simp [written, Fails]

/-- All the edges are stored, or nothing is changed. -/
def AllOrNone (tables after : Tables) (toEventId : EventId) (edges : List Edge) : Prop :=
  after = tables ∨ after = { tables with edges := tables.edges ++ edges.map (·.row toEventId) }

/-- After the loop, by what it has written. -/
theorem allOrNone_written_iff {edges stored : List Edge} (h : stored <+: edges) :
    AllOrNone tables { tables with edges := tables.edges ++ stored.map (·.row toEventId) }
      toEventId edges ↔ stored = [] ∨ stored = edges := by
  obtain ⟨events, rows⟩ := tables
  simp only [AllOrNone, Tables.mk.injEq, true_and, List.append_right_inj, List.append_right_eq_self,
    List.map_eq_nil_iff]
  refine or_congr_right ⟨fun hmap => h.eq_of_length ?_, fun heq => by rw [heq]⟩
  have hlength := congrArg List.length hmap
  rwa [List.length_map, List.length_map] at hlength

theorem appendEdges_runs {path : Path} (h : path.runs = true) (edges : List Edge) :
    (appendEdges fault toEventId edges path tables).2 =
      { tables with
        edges := tables.edges ++
          (written fault tables toEventId 0 edges).map (·.row toEventId) } := by
  have hloop := insertEdges_eq fault toEventId tables 0 edges tables.edges
  cases path with
  | direct => exact congrArg Prod.snd hloop
  | queueClosed => cases h
  | queueDropped => cases h
  | queued answered => cases answered <;> exact congrArg Prod.snd hloop

theorem appendEdges_allOrNone_iff (edges : List Edge) (path : Path) :
    AllOrNone tables (appendEdges fault toEventId edges path tables).2 toEventId edges ↔
      path.runs = false ∨ Fails fault tables toEventId edges 0 ∨
        ∀ i, ¬ Fails fault tables toEventId edges i := by
  cases hruns : path.runs with
  | false =>
    refine iff_of_true (.inl ?_) (.inl rfl)
    cases path <;> first | rfl | cases hruns
  | true =>
    rw [appendEdges_runs hruns, allOrNone_written_iff (written_front 0 edges), written_none_iff,
      written_all_iff]
    constructor
    · rintro ((rfl | hfirst) | hall)
      · exact .inr (.inr fun i ⟨_, hnone, _⟩ => by cases hnone)
      · exact .inr (.inl hfirst)
      · exact .inr (.inr hall)
    · rintro (hnot | hfirst | hall)
      · cases hnot
      · exact .inl (.inr hfirst)
      · exact .inr hall

theorem eventTransaction_ok {eventId : EventId} {edges : List Edge} {after : Tables}
    (h : eventTransaction fault eventId edges tables = .ok after) :
    after = ⟨tables.events ++ [eventId], tables.edges ++ edges.map (·.row eventId)⟩ := by
  simp only [eventTransaction, bind_ok, ensure_ok] at h
  obtain ⟨_, _, inserted, hevent, h⟩ := h
  unfold insertEvent at hevent
  split_ifs at hevent with hfault
  cases hevent
  rw [show (⟨tables.events ++ [eventId], tables.edges⟩ : Tables) =
    { (⟨tables.events ++ [eventId], []⟩ : Tables) with edges := tables.edges } from rfl,
    insertEdges_eq] at h
  split_ifs at h with hall
  simp only [bind_ok, ensure_ok] at h
  obtain ⟨_, _, h⟩ := h
  cases h
  rw [hall]

theorem appendEventWithEdges_allOrNone (eventId : EventId) (edges : List Edge) (path : Path) :
    (appendEventWithEdges fault eventId edges path tables).2 = tables ∨
      (appendEventWithEdges fault eventId edges path tables).2 =
        ⟨tables.events ++ [eventId], tables.edges ++ edges.map (·.row eventId)⟩ := by
  unfold appendEventWithEdges
  split_ifs
  · exact .inl rfl
  · cases h : eventTransaction fault eventId edges tables with
    | error e =>
      left
      cases path with
      | queued answered => cases answered <;> simp [onPath, h]
      | _ => simp [onPath, h]
    | ok after =>
      obtain rfl := eventTransaction_ok h
      cases path with
      | direct => exact .inr (by simp [onPath, h])
      | queueClosed => exact .inl rfl
      | queueDropped => exact .inl rfl
      | queued answered => cases answered <;> exact .inr (by simp [onPath, h])

end Stored

/-- **When edges are appended together**, and which are stored if `append_edges` runs. -/
theorem append_edges_all_or_none_iff (fault : Fault) (toEventId : EventId) (edges : List Edge)
    (path : Path) (tables : Tables) :
    (path.runs = true → (appendEdges fault toEventId edges path tables).2 =
      { tables with
        edges := tables.edges ++
          (written fault tables toEventId 0 edges).map (·.row toEventId) }) ∧
    (AllOrNone tables (appendEdges fault toEventId edges path tables).2 toEventId edges ↔
      path.runs = false ∨ Fails fault tables toEventId edges 0 ∨
        ∀ i, ¬ Fails fault tables toEventId edges i) ∧
    ((appendEventWithEdges fault toEventId edges path tables).2 = tables ∨
      (appendEventWithEdges fault toEventId edges path tables).2 =
        ⟨tables.events ++ [toEventId], tables.edges ++ edges.map (·.row toEventId)⟩) :=
  ⟨fun h => appendEdges_runs h edges, appendEdges_allOrNone_iff edges path,
    appendEventWithEdges_allOrNone toEventId edges path⟩

/-- Two edges into event 1, from event 2 and from event 3. -/
def twoEdges : List Edge := [⟨.derivedFrom, ⟨2⟩, none, none⟩, ⟨.derivedFrom, ⟨3⟩, none, none⟩]

/-- Event 3 is not stored. -/
theorem append_edges_keeps_first :
    appendEdges (fun _ => false) ⟨1⟩ twoEdges .direct ⟨[⟨1⟩, ⟨2⟩], []⟩ =
      (.error .database, ⟨[⟨1⟩, ⟨2⟩], [⟨⟨1⟩, ⟨2⟩, .derivedFrom, none⟩]⟩) ∧
    appendEdges (fun _ => false) ⟨1⟩ twoEdges (.queued true) ⟨[⟨1⟩, ⟨2⟩], []⟩ =
      (.error .database, ⟨[⟨1⟩, ⟨2⟩], [⟨⟨1⟩, ⟨2⟩, .derivedFrom, none⟩]⟩) :=
  ⟨rfl, rfl⟩

end FerrumGate.EdgeAppend
