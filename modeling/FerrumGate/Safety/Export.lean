import FerrumGate.Audit.Export
import FerrumGate.Safety.Bundles

/-!
# Exports as bundles

* **`export_verifies_iff`** : the export of an accepted log makes a bundle that verifies exactly if
  at most one row of the log is hashed, and every entry is read back from its line with its hash.
  The endpoint serves the newest entry first, and the verifier walks the chain from the first line.
-/

namespace FerrumGate.Audit

open Interleave Serde

/-- The row's entry can be read back from its line, with the hash that is stored. -/
def LineReadsBack (env : BundleEnv) (row : AuditRow) : Prop :=
  ∃ entry entry', rowToEntry env.toAuditEnv row = .ok entry ∧
    fromLine env (toLine env entry) = some entry' ∧ SoundEntry env.toAuditEnv entry'

/-- **Portable metadata are enough.** -/
theorem lineReadsBack {env : BundleEnv} {row : AuditRow} (hid : isI64 row.id)
    (hsound : Sound env.toAuditEnv row.toAuditColumns)
    (h : Portable env.reader (contentOf env.toAuditEnv row).metadata) : LineReadsBack env row := by
  obtain ⟨hread, hhash⟩ := rowToEntry_sound hsound
  obtain ⟨entry', hreread, hhashed⟩ :=
    reread_portable (e := entryOf env.toAuditEnv row) h
  refine ⟨entryOf env.toAuditEnv row, entry', hread, ?_, ?_⟩
  · rw [fromLine_toLine hid, hreread]
  · intro hash hstored
    rw [contentHash_hashed env.toAuditEnv hhashed]
    exact hhash hash ((reread_fields hreread).2.1 ▸ hstored)

/-- Entries that are read back keep their ids and links. -/
theorem forall₂_reread {r : Reader} {entries entries' : List AuditLogEntry}
    (h : List.Forall₂ (fun e e' => e.reread r = some e') entries entries') :
    entries'.map (·.id) = entries.map (·.id) ∧ entryLinks entries' = entryLinks entries := by
  induction h with
  | nil => exact ⟨rfl, rfl⟩
  | cons he _ ih =>
    obtain ⟨hid, hhash, hprevious⟩ := reread_fields he
    constructor
    · rw [List.map_cons, List.map_cons, hid, ih.1]
    · have hlinks := ih.2
      unfold entryLinks at hlinks ⊢
      rw [List.filterMap_cons, List.filterMap_cons, hhash, hprevious, hlinks]

theorem links_length (rows : List AuditRow) :
    (links rows).length = rows.countP fun row => row.contentHash.isSome := by
  induction rows with
  | nil => rfl
  | cons row rows ih =>
    rw [List.countP_cons, ← ih]
    cases hhash : row.contentHash with
    | none => simp [links_legacy hhash]
    | some hash => simp [links_hashed hhash]

theorem exists_of_forall₂ {α β : Type} {R : α → β → Prop} {l : List α} {l' : List β}
    (h : List.Forall₂ R l l') {a : α} (ha : a ∈ l) : ∃ b ∈ l', R a b := by
  induction h with
  | nil => exact absurd ha List.not_mem_nil
  | cons hab _ ih =>
    rcases List.mem_cons.1 ha with rfl | ha
    · exact ⟨_, List.mem_cons_self, hab⟩
    · obtain ⟨b, hb, hR⟩ := ih ha
      exact ⟨b, List.mem_cons_of_mem _ hb, hR⟩

/-- Entries that are all read, each as one with a property. -/
theorem mapM_reread_some {r : Reader} {P : AuditLogEntry → Prop} {entries : List AuditLogEntry}
    (h : ∀ entry ∈ entries, ∃ entry', entry.reread r = some entry' ∧ P entry') :
    ∃ entries', entries.mapM (·.reread r) = some entries' ∧ ∀ entry' ∈ entries', P entry' := by
  induction entries with
  | nil => exact ⟨[], rfl, fun _ h => absurd h List.not_mem_nil⟩
  | cons entry entries ih =>
    rw [List.forall_mem_cons] at h
    obtain ⟨entry', hread, hP⟩ := h.1
    obtain ⟨entries', hreads, hPs⟩ := ih h.2
    refine ⟨entry' :: entries', ?_, List.forall_mem_cons.2 ⟨hP, hPs⟩⟩
    rw [List.mapM_cons, hread, hreads]
    rfl

/-- The unfiltered export, made a bundle by `ferrumctl`, is accepted. -/
def ExportVerifies (env : BundleEnv) (rows : List AuditRow) : Prop :=
  ∃ body bundle, exportAuditLogs env rows .all = .ok body ∧
    buildBundleFromNdjson env body = .ok bundle ∧
    verifyBundle env bundle.manifest bundle.body = .ok bundle.manifest

section Export

variable {env : BundleEnv} {rows : List AuditRow}

/-- What is served, and which of it verifies: the entries as they are read back from the end of the
log to its start. -/
theorem exportVerifies_iff_chained (haccepted : verifyChain env.toAuditEnv rows = .ok ())
    (hlimit : rows.length ≤ exportMaxRows) (hchron : Chronological rows)
    (hid : ∀ row ∈ rows, isI64 row.id) :
    ExportVerifies env rows ↔
      ∃ entries', (rows.reverse.map (entryOf env.toAuditEnv)).mapM (·.reread env.reader) =
        some entries' ∧ Chained env.toAuditEnv none entries' := by
  have hsound := (verifyChain_ok.1 haccepted).1
  have hexport := exportAuditLogs_ok (f := entryOf env.toAuditEnv) hchron
    (fun row hrow => (rowToEntry_sound (hsound row hrow)).1) (fun _ => rfl) hlimit
  have hentries : entriesOf env (toLines env (rows.reverse.map (entryOf env.toAuditEnv))) =
      (rows.reverse.map (entryOf env.toAuditEnv)).mapM (·.reread env.reader) := by
    refine entriesOf_lines (linesOf_toLines env _) fun entry hentry => ?_
    obtain ⟨row, hrow, rfl⟩ := List.mem_map.1 hentry
    exact hid row (List.mem_reverse.1 hrow)
  rw [← hentries, ← verifies_iff, ← buildBundleFromNdjson_verifies, ExportVerifies, hexport]
  constructor
  · rintro ⟨body, bundle, ⟨⟩, h⟩
    exact ⟨bundle, h⟩
  · rintro ⟨bundle, h⟩
    exact ⟨_, bundle, rfl, h⟩

/-- The ids and links of what is read back are those of the rows, from the end. -/
theorem reread_reverse {entries' : List AuditLogEntry}
    (h : (rows.reverse.map (entryOf env.toAuditEnv)).mapM (·.reread env.reader) = some entries') :
    entries'.map (·.id) = (rows.map (·.id)).reverse ∧ entryLinks entries' = (links rows).reverse := by
  obtain ⟨hids, hlinks⟩ := forall₂_reread (mapM_reread h)
  constructor
  · rw [hids, List.map_map, List.map_reverse]
    rfl
  · rw [hlinks, entryLinks_rows, links, List.filterMap_reverse]
    rfl

/-- The export verifies if the chain is one the other way round too. -/
theorem exportVerifies_iff_linked (haccepted : verifyChain env.toAuditEnv rows = .ok ())
    (hlimit : rows.length ≤ exportMaxRows) (hchron : Chronological rows)
    (hid : ∀ row ∈ rows, isI64 row.id) :
    ExportVerifies env rows ↔
      Chain.Linked none (links rows).reverse ∧ ∀ row ∈ rows, LineReadsBack env row := by
  have hsound := (verifyChain_ok.1 haccepted).1
  rw [exportVerifies_iff_chained haccepted hlimit hchron hid]
  constructor
  · rintro ⟨entries', h, hchained⟩
    refine ⟨(reread_reverse h).2 ▸ hchained.linked, fun row hrow => ?_⟩
    have hmem : entryOf env.toAuditEnv row ∈ rows.reverse.map (entryOf env.toAuditEnv) :=
      List.mem_map_of_mem (List.mem_reverse.2 hrow)
    obtain ⟨entry', hentry', hreread⟩ := exists_of_forall₂ (mapM_reread h) hmem
    refine ⟨_, entry', (rowToEntry_sound (hsound row hrow)).1, ?_, hchained.sound entry' hentry'⟩
    rw [fromLine_toLine (hid row hrow), hreread]
  · rintro ⟨hreverse, hlines⟩
    have hrereads : ∀ entry ∈ rows.reverse.map (entryOf env.toAuditEnv), ∃ entry',
        entry.reread env.reader = some entry' ∧ SoundEntry env.toAuditEnv entry' := by
      intro entry hentry
      obtain ⟨row, hrow, rfl⟩ := List.mem_map.1 hentry
      rw [List.mem_reverse] at hrow
      obtain ⟨entry, entry', hentry, hline, hsound'⟩ := hlines row hrow
      rw [(rowToEntry_sound (hsound row hrow)).1] at hentry
      cases hentry
      rw [fromLine_toLine (hid row hrow)] at hline
      exact ⟨entry', hline, hsound'⟩
    obtain ⟨entries', hall, hsound'⟩ := mapM_reread_some hrereads
    obtain ⟨hids, hlinks⟩ := reread_reverse hall
    refine ⟨entries', hall, ?_, hsound', hlinks ▸ hreverse⟩
    rw [hids, List.nodup_reverse]
    exact List.pairwise_map.2 (hchron.imp fun h => h.1.ne)

end Export

/-- **Which exports verify.** -/
theorem export_verifies_iff (env : BundleEnv) (rows : List AuditRow)
    (haccepted : verifyChain env.toAuditEnv rows = .ok ()) (hlimit : rows.length ≤ exportMaxRows)
    (hchron : Chronological rows) (hid : ∀ row ∈ rows, isI64 row.id) :
    ExportVerifies env rows ↔
      rows.countP (fun row => row.contentHash.isSome) ≤ 1 ∧
        ∀ row ∈ rows, LineReadsBack env row := by
  have hlinked := (verifyChain_ok.1 haccepted).2
  rw [exportVerifies_iff_linked haccepted hlimit hchron hid, ← links_length,
    ← Chain.linked_reverse hlinked]

namespace BundleSample

/-- A row from before there were hashes, and one that was appended. -/
def oneHashed : List AuditRow :=
  [AuditSample.legacyRow, ⟨entryColumns AuditSample.env (AuditSample.creates "alice" none) none, 1⟩]

theorem oneHashed_sound : ∀ row ∈ oneHashed, Sound AuditSample.env row.toAuditColumns := by
  simp only [oneHashed, List.forall_mem_cons, List.not_mem_nil, false_implies, implies_true, and_true]
  exact ⟨AuditSample.legacyRow_sound, readsBack (AuditSample.plain_creates "alice")⟩

theorem oneHashed_accepted : verifyChain AuditSample.env oneHashed = .ok () :=
  verifyChain_ok.2 ⟨oneHashed_sound, rfl, trivial⟩

theorem oneHashed_readsBack : ∀ row ∈ oneHashed, LineReadsBack env row := by
  intro row hrow
  have hmetadata : isI64 row.id ∧ (contentOf AuditSample.env row).metadata = none := by
    have hcontent : ∀ actorId, contentOf AuditSample.env
        ⟨entryColumns AuditSample.env (AuditSample.creates actorId none) none, 1⟩ =
          AuditSample.creates actorId none := fun actorId => by
      rw [contentOf, readContent_columns (AuditSample.plain_creates actorId)]
    simp only [oneHashed, List.mem_cons, List.not_mem_nil, or_false] at hrow
    rcases hrow with rfl | rfl
    · exact ⟨by decide, congrArg AuditContent.metadata (hcontent "root")⟩
    · exact ⟨by decide, congrArg AuditContent.metadata (hcontent "alice")⟩
  refine lineReadsBack hmetadata.1 (oneHashed_sound row hrow) ⟨?_, ?_⟩
  · intro d hd
    rw [show (contentOf env.toAuditEnv row).metadata = none from hmetadata.2] at hd
    cases hd
  · intro d hd
    rw [show (contentOf env.toAuditEnv row).metadata = none from hmetadata.2] at hd
    cases hd

end BundleSample

/-- A log with one hashed row. -/
theorem export_verifies_single : ExportVerifies BundleSample.env BundleSample.oneHashed := by
  refine (export_verifies_iff BundleSample.env BundleSample.oneHashed
    BundleSample.oneHashed_accepted (by decide) ?_ ?_).2
      ⟨by decide, BundleSample.oneHashed_readsBack⟩
  · exact List.pairwise_pair.2 ⟨by decide, le_rfl⟩
  · simp only [BundleSample.oneHashed, List.forall_mem_cons, List.not_mem_nil, false_implies,
      implies_true, and_true]
    decide

/-- A log of two appends: it is accepted, and its export does not verify. -/
theorem export_of_two_rejected :
    verifyChain BundleSample.env.toAuditEnv (AuditSample.rows "alice" "bob") = .ok () ∧
      (AuditSample.rows "alice" "bob").length = 2 ∧
      Chronological (AuditSample.rows "alice" "bob") ∧
      ¬ ExportVerifies BundleSample.env (AuditSample.rows "alice" "bob") := by
  have hchron : Chronological (AuditSample.rows "alice" "bob") :=
    List.pairwise_pair.2 ⟨by decide, le_rfl⟩
  have haccepted : verifyChain BundleSample.env.toAuditEnv (AuditSample.rows "alice" "bob") =
      .ok () := AuditSample.rows_accepted "alice" "bob"
  refine ⟨haccepted, rfl, hchron, fun hverifies => ?_⟩
  have hreverse := ((exportVerifies_iff_linked haccepted (by decide) hchron (by decide)).1
    hverifies).1
  have hle := (Chain.linked_reverse (verifyChain_ok.1 haccepted).2).1 hreverse
  rw [AuditSample.length_rows] at hle
  omega

end FerrumGate.Audit
