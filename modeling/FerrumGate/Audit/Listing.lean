import FerrumGate.Audit.Export

/-!
# Paging through the audit log

`list_audit_logs` of `ferrum-gateway/src/audit.rs` over `list` of the store, and a client that
follows `next_cursor`. The rows are sorted by time and then by id; the cursor is the id of the last
row alone.

* A row of a later page that has a higher id than the cursor is skipped, and a row of an earlier
  page that has a lower one is served again.
* An unknown `action` or `resource_type` is taken for none.
* With the limit zero the page is empty and has no cursor.

* **`audit_pages_iff`** : when the client gets the filtered rows, each once and in order.
-/

namespace FerrumGate.Audit

open Paging

structure ListAuditLogsQuery where
  action : Option String
  resourceType : Option String
  resourceId : Option String
  /-- The cursor as the number it is read as. -/
  cursor : Option Int
  limit : Option Nat
  since : Option Int
  «until» : Option Int

/-- The conditions a query stands for. -/
def ListAuditLogsQuery.filter (params : ListAuditLogsQuery) : AuditFilter where
  action := params.action.bind fun s => (AuditAction.fromText s).toOption
  resourceType := params.resourceType.bind fun s => (AuditResourceType.fromText s).toOption
  resourceId := params.resourceId
  since := params.since
  «until» := params.until

def ListAuditLogsQuery.pageLimit (params : ListAuditLogsQuery) : Nat := min (params.limit.getD 50) 200

/-- **`list_audit_logs`**. -/
def listAuditLogs (env : AuditEnv) (rows : List AuditRow) (params : ListAuditLogsQuery) :
    Except ExportError (List AuditLogEntry × Option Int) :=
  (list env rows params.filter params.cursor params.pageLimit).mapError fun _ =>
    ⟨500, "failed to list audit logs"⟩

/-- The rows that pass the filter, newest first. -/
def filtered (env : AuditEnv) (rows : List AuditRow) (filter : AuditFilter) : List AuditRow :=
  (rows.filter (filter.selects env)).insertionSort NewestFirst

/-- A client that follows the cursors. -/
def followAuditLogs (env : AuditEnv) (rows : List AuditRow) (params : ListAuditLogsQuery)
    (fuel : Nat) : Option (List AuditLogEntry) :=
  follow (fun cursor => listAuditLogs env rows { params with cursor := cursor }) fuel none

/-! ## The rows behind the pages -/

section Pages

variable {env : AuditEnv} {rows : List AuditRow} {filter : AuditFilter}

theorem nodup_filtered (hids : (rows.map (·.id)).Nodup) :
    ((filtered env rows filter).map (·.id)).Nodup :=
  ((List.perm_insertionSort _ _).map _).nodup_iff.2 (hids.sublist (List.filter_sublist.map _))

/-- Sorting and the condition on the cursor commute. -/
theorem sorted_below (hids : (rows.map (·.id)).Nodup) (cursor : Option Int) :
    (rows.filter fun row => filter.selects env row && cursor.all (row.id < ·)).insertionSort
      NewestFirst = below (·.id) (filtered env rows filter) cursor := by
  have hsplit : (rows.filter fun row => filter.selects env row && cursor.all (row.id < ·)) =
      (rows.filter (filter.selects env)).filter fun row => cursor.all (row.id < ·) := by
    rw [List.filter_filter]
    exact List.filter_congr fun row _ => Bool.and_comm _ _
  have hperm := List.perm_insertionSort NewestFirst
    (rows.filter fun row => filter.selects env row && cursor.all (row.id < ·))
  refine newestFirst_unique ?_ ?_ (List.pairwise_insertionSort _ _)
    ((List.pairwise_insertionSort _ _).filter _)
  · exact (hperm.map _).nodup_iff.2 (hids.sublist (List.filter_sublist.map _))
  · refine hperm.trans ?_
    rw [hsplit]
    exact ((List.perm_insertionSort _ _).filter _).symm

theorem rowToEntry_readable {row : AuditRow} {entry : AuditLogEntry}
    (h : rowToEntry env row = .ok entry) : rowToEntry env row = .ok (entryOf env row) := by
  cases hread : readContent env row.toAuditColumns with
  | error e =>
    rw [rowToEntry, hread] at h
    cases h
  | ok content =>
    rw [rowToEntry, hread, entryOf, contentOf, hread]
    rfl

/-- A page of readable rows. -/
theorem listAuditLogs_readable (hids : (rows.map (·.id)).Nodup) (params : ListAuditLogsQuery)
    (hread : ∀ row ∈ filtered env rows params.filter, rowToEntry env row = .ok (entryOf env row))
    (cursor : Option Int) :
    ∃ items next,
      page (·.id) params.pageLimit (filtered env rows params.filter) cursor = .ok (items, next) ∧
      listAuditLogs env rows { params with cursor := cursor } =
        .ok (items.map (entryOf env), next) := by
  refine ⟨_, _, rfl, ?_⟩
  have hentries := mapM_ok (l := (below (·.id) (filtered env rows params.filter) cursor).take
    (params.pageLimit + 1)) fun row hrow =>
      hread row (List.mem_of_mem_filter (List.mem_of_mem_take hrow))
  unfold listAuditLogs list
  dsimp only
  rw [show ({ params with cursor := cursor } : ListAuditLogsQuery).filter = params.filter from rfl,
    show ({ params with cursor := cursor } : ListAuditLogsQuery).pageLimit = params.pageLimit
      from rfl, sorted_below hids, hentries]
  exact congrArg Except.ok (cutPage_rows (fun _ => rfl) _ _)

/-- Rows of the log are told apart by their entries. -/
theorem map_entryOf_inj (hids : (rows.map (·.id)).Nodup) {l l' : List AuditRow}
    (hl : ∀ row ∈ l, row ∈ rows) (hl' : ∀ row ∈ l', row ∈ rows)
    (h : l.map (entryOf env) = l'.map (entryOf env)) : l = l' := by
  induction l generalizing l' with
  | nil => exact (List.map_eq_nil_iff.1 h.symm).symm
  | cons row l ih =>
    cases l' with
    | nil => cases h
    | cons row' l' =>
      rw [List.map_cons, List.map_cons, List.cons.injEq] at h
      rw [List.forall_mem_cons] at hl hl'
      have hid : row.id = row'.id := congrArg AuditLogEntry.id h.1
      rw [List.inj_on_of_nodup_map hids hl.1 hl'.1 hid, ih hl.2 hl'.2 h.2]

end Pages

/-- **When paging through the audit log is exact**: every row that passes the filter can be read, a
page holds at least one, and at the end of each page the ids fall as the order of the listing
does. -/
theorem audit_pages_iff (env : AuditEnv) (rows : List AuditRow) (params : ListAuditLogsQuery)
    (hids : (rows.map (·.id)).Nodup) :
    (∃ fuel visited, followAuditLogs env rows params fuel = some visited ∧
        (filtered env rows params.filter).mapM (rowToEntry env) = .ok visited) ↔
      (∀ row ∈ filtered env rows params.filter, ∃ entry, rowToEntry env row = .ok entry) ∧
        (params.pageLimit = 0 → filtered env rows params.filter = []) ∧
        Aligned (·.id) params.pageLimit (filtered env rows params.filter) := by
  by_cases hread : ∀ row ∈ filtered env rows params.filter, ∃ entry, rowToEntry env row = .ok entry
  · have hread' : ∀ row ∈ filtered env rows params.filter,
        rowToEntry env row = .ok (entryOf env row) := fun row hrow =>
      (hread row hrow).elim fun _ hentry => rowToEntry_readable hentry
    have hfollow := follow_map (entryOf env) (listAuditLogs_readable hids params hread')
    rw [← follow_all_iff (nodup_filtered hids), mapM_ok hread', iff_comm, and_iff_right hread,
      iff_comm]
    constructor
    · rintro ⟨fuel, visited, hvisited, hall⟩
      rw [followAuditLogs, hfollow, Option.map_eq_some_iff] at hvisited
      obtain ⟨items, hitems, rfl⟩ := hvisited
      refine ⟨fuel, ?_⟩
      have hmem : ∀ row ∈ items, row ∈ filtered env rows params.filter := fun row hrow =>
        List.mem_of_mem_filter (mem_below_of_follow hitems row hrow)
      rw [hitems, map_entryOf_inj (nodup_filtered hids) hmem (fun _ hrow => hrow)
        (Except.ok.inj hall).symm]
    · rintro ⟨fuel, h⟩
      exact ⟨fuel, _, by rw [followAuditLogs, hfollow, h, Option.map_some], rfl⟩
  · refine ⟨?_, fun h => absurd h.1 hread⟩
    rintro ⟨_, visited, _, hall⟩
    exact absurd (exists_of_mapM_eq_ok hall) hread

namespace ListingSample

/-- As many digits as the time has nanoseconds. -/
def timeText (t : Int) : String :=
  String.ofList ((if t < 0 then ['-'] else []) ++ List.replicate t.natAbs '1')

def parseTime (s : String) : Except String Int :=
  match s.toList with
  | '-' :: digits => .ok (-digits.length)
  | digits => .ok digits.length

theorem parseTime_timeText (t : Int) : parseTime (timeText t) = .ok t := by
  unfold parseTime timeText
  rw [String.toList_ofList]
  by_cases hneg : t < 0
  · simp only [hneg, if_true, List.singleton_append, List.length_replicate, Except.ok.injEq]
    omega
  · obtain ⟨n, rfl⟩ := Int.eq_ofNat_of_zero_le (not_lt.1 hneg)
    rw [if_neg hneg, List.nil_append, Int.natAbs_natCast]
    cases n with
    | zero => rfl
    | succ n =>
      change Except.ok (((List.replicate (n + 1) '1').length : Nat) : Int) = _
      rw [List.length_replicate]

def env : AuditEnv where
  sha256Hex := String.ofList
  toRfc3339 := timeText
  parseRfc3339 := parseTime
  reader := ⟨fun _ => none⟩
  jsonError _ := "expected value"
  toRfc3339_injective t t' h := by
    have hparse := parseTime_timeText t
    rw [h, parseTime_timeText] at hparse
    exact (Except.ok.inj hparse).symm
  parse_toRfc3339 t _ := parseTime_timeText t

/-- A token is created. -/
def row (id : Int) (createdAt : String) : AuditRow where
  actorId := "operator"
  action := "token_create"
  resourceType := "token"
  resourceId := "t1"
  result := "success"
  metadata := none
  createdAt := createdAt
  contentHash := none
  previousHash := none
  id := id

/-- One entry a page. -/
def params : ListAuditLogsQuery := ⟨none, none, none, none, some 1, none, none⟩

end ListingSample

open ListingSample in
theorem audit_pages_in_order :
    ∃ fuel visited, followAuditLogs env [row 1 "1", row 2 "11"] params fuel = some visited ∧
      (filtered env [row 1 "1", row 2 "11"] params.filter).mapM (rowToEntry env) = .ok visited := by
  have hfiltered : filtered env [row 1 "1", row 2 "11"] params.filter = [row 2 "11", row 1 "1"] := by
    decide
  refine (audit_pages_iff env [row 1 "1", row 2 "11"] params (by decide)).2 ⟨?_, by decide, ?_⟩
  · rw [hfiltered]
    intro row hrow
    rcases List.mem_pair.1 hrow with rfl | rfl <;> exact ⟨_, rfl⟩
  · rw [hfiltered]
    intro front last behind heq _ hbehind
    cases front with
    | nil =>
      obtain ⟨rfl, rfl⟩ := List.cons.inj heq
      decide
    | cons _ front =>
      -- the second row is the last one
      refine absurd (List.length_eq_zero_iff.1 ?_) hbehind
      have hlength := congrArg List.length heq
      simp only [List.length_cons, List.length_nil, List.length_append] at hlength
      omega

open ListingSample in
/-- The clock was set back: the second entry is older than the first one, and is never listed. -/
theorem set_back_skipped :
    (followAuditLogs env [row 1 "11", row 2 "1"] params 3).map (List.map (·.id)) = some [1] ∧
      (filtered env [row 1 "11", row 2 "1"] params.filter).map (·.id) = [1, 2] := by
  decide

end FerrumGate.Audit
