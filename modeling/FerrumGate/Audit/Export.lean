import FerrumGate.Audit.Bundle
import FerrumGate.Paging.Keyset

/-!
# Listing and exporting the audit log

`list` of `ferrum-store/src/sqlite/audit_log.rs`, `export_audit_logs` of
`ferrum-gateway/src/audit.rs`, which pages through it, and `export_bundle` of `ferrumctl`, which
makes a bundle of what the endpoint serves. `list` is sorted by the column `created_at`, which is a
text, and by id; its cursor is an id.

* **`exportAuditLogs_ok`** : a log whose times do not decrease is served whole, newest entry first.
-/

namespace FerrumGate.Audit

open Interleave Paging Serde

/-! ## Listing -/

structure AuditFilter where
  action : Option AuditAction
  resourceType : Option AuditResourceType
  resourceId : Option String
  since : Option Int
  «until» : Option Int

/-- The conditions of the query but the one on the cursor. -/
def AuditFilter.selects (env : AuditEnv) (f : AuditFilter) (row : AuditRow) : Bool :=
  f.action.all (fun action => row.action = action.toText) &&
  f.resourceType.all (fun type => row.resourceType = type.toText) &&
  f.resourceId.all (fun id => row.resourceId = id) &&
  f.since.all (fun t => env.toRfc3339 t ≤ row.createdAt) &&
  f.until.all (fun t => row.createdAt ≤ env.toRfc3339 t)

/-- No condition. -/
def AuditFilter.all : AuditFilter := ⟨none, none, none, none, none⟩

/-- `ORDER BY created_at DESC, id DESC` -/
def NewestFirst (row row' : AuditRow) : Prop :=
  row'.createdAt < row.createdAt ∨ row.createdAt = row'.createdAt ∧ row'.id ≤ row.id

instance : DecidableRel NewestFirst := fun _ _ => inferInstanceAs (Decidable (_ ∨ _))

/-- One row more than the limit was asked for, to know whether there are more. -/
def cutPage (limit : Nat) (entries : List AuditLogEntry) : List AuditLogEntry × Option Int :=
  if limit < entries.length then
    (entries.dropLast, entries.dropLast.getLast?.map (·.id))
  else (entries, none)

/-- **`list`**. The cursor is the id of the last entry of the page before. -/
def list (env : AuditEnv) (rows : List AuditRow) (filter : AuditFilter) (cursor : Option Int)
    (limit : Nat) : Except StoreError (List AuditLogEntry × Option Int) := do
  let selected := rows.filter fun row => filter.selects env row && cursor.all (row.id < ·)
  let entries ← ((selected.insertionSort NewestFirst).take (limit + 1)).mapM (rowToEntry env)
  return cutPage limit entries

/-! ## Exporting -/

/-- What a client is told when there is no export. -/
structure ExportError where
  status : Nat
  message : String
  deriving DecidableEq

/-- `EXPORT_MAX_ROWS` -/
def exportMaxRows : Nat := 10000

/-- `EXPORT_PAGE_SIZE` -/
def exportPageSize : Nat := 500

/-- The pages from a cursor on, after what is there already. Every page but the last one is full, so
that there are at most as many rounds as full pages in the largest export, and one more. -/
def exportPages (env : AuditEnv) (rows : List AuditRow) (filter : AuditFilter) :
    Nat → Option Int → List AuditLogEntry → Except ExportError (List AuditLogEntry)
  | 0, _, _ => .error ⟨500, "failed to export audit logs"⟩
  | rounds + 1, cursor, entries =>
    match list env rows filter cursor exportPageSize with
    | .error _ => .error ⟨500, "failed to export audit logs"⟩
    | .ok (items, nextCursor) =>
      let entries := entries ++ items
      if exportMaxRows < entries.length then
        .error ⟨413, s!"export exceeds maximum of {exportMaxRows} rows; " ++
          "narrow filters or use pagination"⟩
      else
        match nextCursor with
        | none => .ok entries
        | some _ => exportPages env rows filter rounds nextCursor entries

/-- **`export_audit_logs`**, in the format `ndjson`. -/
def exportAuditLogs (env : BundleEnv) (rows : List AuditRow) (filter : AuditFilter) :
    Except ExportError (List Char) := do
  let entries ← exportPages env.toAuditEnv rows filter (exportMaxRows / exportPageSize + 1) none []
  return toLines env entries

/-! ## The order of the pages -/

instance : IsTrans AuditRow NewestFirst where
  trans a b c := by
    rintro (h | ⟨h, hid⟩) (h' | ⟨h', hid'⟩)
    · exact .inl (lt_trans h' h)
    · exact .inl (h' ▸ h)
    · exact .inl (h ▸ h')
    · exact .inr ⟨h.trans h', hid'.trans hid⟩

instance : Std.Total NewestFirst where
  total a b := by
    rcases lt_trichotomy a.createdAt b.createdAt with h | h | h
    · exact .inr (.inl h)
    · rcases le_total a.id b.id with hid | hid
      · exact .inr (.inr ⟨h.symm, hid⟩)
      · exact .inl (.inr ⟨h, hid⟩)
    · exact .inl (.inl h)

/-- A log in the order of its ids, whose times do not decrease. -/
def Chronological (rows : List AuditRow) : Prop :=
  rows.Pairwise fun row row' => row.id < row'.id ∧ row.createdAt ≤ row'.createdAt

/-- Rows with different ids have only one order. -/
theorem newestFirst_unique {rows rows' : List AuditRow} (hnodup : (rows.map (·.id)).Nodup)
    (hperm : rows.Perm rows') (hrows : rows.Pairwise NewestFirst)
    (hrows' : rows'.Pairwise NewestFirst) : rows = rows' := by
  refine List.Perm.eq_of_pairwise ?_ hrows hrows' hperm
  intro a b ha hb hab hba
  have hsame : a.id = b.id := by
    rcases hab with hlt | ⟨heq, hle⟩
    · rcases hba with hlt' | ⟨heq', -⟩
      · exact absurd hlt (lt_asymm hlt')
      · exact absurd hlt (heq' ▸ lt_irrefl _)
    · rcases hba with hlt' | ⟨-, hle'⟩
      · exact absurd hlt' (heq ▸ lt_irrefl _)
      · exact le_antisymm hle' hle
  exact List.inj_on_of_nodup_map hnodup ha (hperm.mem_iff.2 hb) hsame

/-- Such a log is listed from its end. -/
theorem newestFirst_reverse {rows : List AuditRow} (h : Chronological rows) :
    rows.insertionSort NewestFirst = rows.reverse := by
  have hreverse : rows.reverse.Pairwise NewestFirst := by
    rw [List.pairwise_reverse]
    refine h.imp ?_
    rintro a b ⟨hid, hcreated⟩
    rcases lt_or_eq_of_le hcreated with hlt | heq
    · exact .inl hlt
    · exact .inr ⟨heq.symm, hid.le⟩
  have hnodup : (rows.map (·.id)).Nodup :=
    List.pairwise_map.2 (h.imp fun hlt => hlt.1.ne)
  have hperm := List.perm_insertionSort NewestFirst rows
  exact newestFirst_unique ((hperm.map _).nodup_iff.2 hnodup)
    (hperm.trans (List.reverse_perm rows).symm) (List.pairwise_insertionSort _ rows) hreverse

/-! ## Rows as entries -/

/-- What a row says, if it can be read. -/
def contentOf (env : AuditEnv) (row : AuditRow) : AuditContent :=
  match readContent env row.toAuditColumns with
  | .ok content => content
  | .error _ => ⟨"", .tokenCreate, .token, "", "", none, 0⟩

/-- The entry that a readable row is. -/
def entryOf (env : AuditEnv) (row : AuditRow) : AuditLogEntry :=
  ⟨contentOf env row, row.id, row.contentHash, row.previousHash⟩

theorem rowToEntry_sound {env : AuditEnv} {row : AuditRow} (h : Sound env row.toAuditColumns) :
    rowToEntry env row = .ok (entryOf env row) ∧ SoundEntry env (entryOf env row) := by
  obtain ⟨content, hread, hhash⟩ := h
  have hcontent : contentOf env row = content := by rw [contentOf, hread]
  refine ⟨?_, fun hash h => ?_⟩
  · rw [rowToEntry, hread, entryOf, hcontent]
    rfl
  · rw [entryOf, hcontent]
    exact hhash hash h

theorem entryLinks_rows (env : AuditEnv) (rows : List AuditRow) :
    entryLinks (rows.map (entryOf env)) = links rows := by
  rw [entryLinks, List.filterMap_map]
  rfl

/-! ## What is exported -/

theorem mapM_ok {α β ε : Type} {read : α → Except ε β} {f : α → β} {l : List α}
    (h : ∀ a ∈ l, read a = .ok (f a)) : l.mapM read = .ok (l.map f) :=
  mapM_eq_ok.2 (List.forall₂_map_right_iff.2 (List.forall₂_same.2 h))

/-- A page is cut off the entries as it is off the rows. -/
theorem cutPage_rows {f : AuditRow → AuditLogEntry} (hid : ∀ row, (f row).id = row.id)
    (limit : Nat) (rows : List AuditRow) :
    cutPage limit (rows.map f) = ((cut limit (·.id) rows).1.map f, (cut limit (·.id) rows).2) := by
  unfold cutPage cut
  rw [List.length_map]
  split_ifs
  · rw [← List.map_dropLast, List.getLast?_map, Option.map_map]
    congr 2
    exact funext hid
  · rfl

/-- A page of rows that can be read. -/
theorem cutPage_map {f : AuditRow → AuditLogEntry} (hid : ∀ row, (f row).id = row.id) (limit : Nat)
    (rows : List AuditRow) :
    cutPage limit ((rows.take (limit + 1)).map f) =
      if limit < rows.length then
        ((rows.take limit).map f, (rows.take limit).getLast?.map (·.id))
      else (rows.map f, none) := by
  rw [cutPage_rows hid]
  by_cases hmore : limit < rows.length
  · rw [if_pos hmore, cut_take_of_lt _ hmore]
  · rw [if_neg hmore, cut_take_of_le _ (Nat.not_lt.1 hmore)]

section Pages

variable {env : AuditEnv} {rows : List AuditRow} {f : AuditRow → AuditLogEntry}

/-- What `list` returns without a filter. -/
theorem list_all (hchron : Chronological rows) (hread : ∀ row ∈ rows, rowToEntry env row = .ok (f row))
    (cursor : Option Int) (limit : Nat) :
    list env rows .all cursor limit = .ok (cutPage limit
      (((rows.reverse.filter fun row => cursor.all (row.id < ·)).take (limit + 1)).map f)) := by
  have hselected : (rows.filter fun row => AuditFilter.all.selects env row &&
      cursor.all (row.id < ·)).insertionSort NewestFirst =
        rows.reverse.filter fun row => cursor.all (row.id < ·) := by
    have hall : (fun row => AuditFilter.all.selects env row && cursor.all (row.id < ·)) =
        fun row : AuditRow => cursor.all (row.id < ·) := funext fun row => by
      simp [AuditFilter.selects, AuditFilter.all]
    rw [hall, newestFirst_reverse (hchron.filter _), List.filter_reverse]
  have hentries := mapM_ok (l := (rows.reverse.filter fun row => cursor.all (row.id < ·)).take
    (limit + 1)) fun row hrow =>
      hread row (List.mem_reverse.1 (List.mem_of_mem_filter (List.mem_of_mem_take hrow)))
  unfold list
  dsimp only
  rw [hselected, hentries]
  rfl

/-- The pages behind a cursor: the induction is on the rounds, `behind` is what is left to list. -/
theorem exportPages_ok (hchron : Chronological rows)
    (hread : ∀ row ∈ rows, rowToEntry env row = .ok (f row)) (hid : ∀ row, (f row).id = row.id)
    (rounds : Nat) (cursor : Option Int) (front behind : List AuditRow)
    (hrows : rows.reverse = front ++ behind)
    (hcursor : (rows.reverse.filter fun row => cursor.all (row.id < ·)) = behind)
    (hlimit : rows.length ≤ exportMaxRows) (hrounds : behind.length < rounds * exportPageSize) :
    exportPages env rows .all rounds cursor (front.map f) = .ok (rows.reverse.map f) := by
  induction rounds generalizing cursor front behind with
  | zero => simp at hrounds
  | succ rounds ih =>
    have hlength : front.length + behind.length = rows.length := by
      rw [← List.length_append, ← hrows, List.length_reverse]
    rw [exportPages, list_all hchron hread, hcursor, cutPage_map hid]
    by_cases hmore : exportPageSize < behind.length
    · -- a full page: its last row is the next cursor
      have hsize : (behind.take exportPageSize).length = exportPageSize := by
        rw [List.length_take]
        omega
      have hne : behind.take exportPageSize ≠ [] :=
        List.ne_nil_of_length_pos (by rw [hsize]; decide)
      have hsplit : rows.reverse = (front ++ (behind.take exportPageSize).dropLast) ++
          (behind.take exportPageSize).getLast hne :: behind.drop exportPageSize := by
        rw [hrows, List.append_assoc, ← List.singleton_append, ← List.append_assoc _ [_],
          List.dropLast_append_getLast hne, List.take_append_drop]
      have hfalling : rows.reverse.Pairwise fun row row' => row'.id < row.id :=
        List.pairwise_reverse.2 (hchron.imp fun h => h.1)
      have hnext := ih (some ((behind.take exportPageSize).getLast hne).id)
        (front ++ behind.take exportPageSize) (behind.drop exportPageSize)
        (by rw [hrows, List.append_assoc, List.take_append_drop])
        (by
          rw [hsplit, List.pairwise_append, List.pairwise_cons] at hfalling
          exact below_eq_behind hsplit (fun row hrow => hfalling.2.2 row hrow _ List.mem_cons_self)
            hfalling.2.1.1)
        (by
          rw [List.length_drop]
          rw [Nat.succ_mul] at hrounds
          omega)
      rw [List.map_append] at hnext
      rw [if_pos hmore]
      simp only [List.getLast?_eq_some_getLast hne, Option.map_some, List.length_append,
        List.length_map, hsize]
      rw [if_neg (by omega)]
      exact hnext
    · rw [if_neg hmore]
      have hall : front.map f ++ behind.map f = rows.reverse.map f := by
        rw [hrows, List.map_append]
      simp only [hall, List.length_map, List.length_reverse]
      rw [if_neg (by omega)]

/-- **The export of a log whose times do not decrease**: all of it, from its end. -/
theorem exportAuditLogs_ok {env : BundleEnv} (hchron : Chronological rows)
    (hread : ∀ row ∈ rows, rowToEntry env.toAuditEnv row = .ok (f row))
    (hid : ∀ row, (f row).id = row.id) (hlimit : rows.length ≤ exportMaxRows) :
    exportAuditLogs env rows .all = .ok (toLines env (rows.reverse.map f)) := by
  have hpages := exportPages_ok hchron hread hid (exportMaxRows / exportPageSize + 1) none []
    rows.reverse rfl (List.filter_eq_self.2 fun _ _ => rfl) hlimit (by
      rw [List.length_reverse]
      exact lt_of_le_of_lt hlimit (by decide))
  rw [List.map_nil] at hpages
  rw [exportAuditLogs, hpages]
  rfl

end Pages

end FerrumGate.Audit
