import FerrumGate.Audit.Line
import FerrumGate.Merkle.Root

/-!
# Audit bundles

`ferrum-audit-bundle/src/lib.rs`: a bundle is a body of entries, one a line, and a manifest with the
number of entries, the first and the last content hash, the Merkle root of all of them, and the hash
that the first hashed entry names if the bundle goes on from another one.

* **`verifyBundle_ok`** : what `verify_bundle` accepts.
* **`verifies_iff`** : which bodies make a bundle that is accepted.
-/

namespace FerrumGate.Audit

open Interleave Serde

/-- A failure, or the task gone down with a panic. -/
inductive AuditBundleError where
  | invalid (message : String)
  | panicked
  deriving DecidableEq

structure AuditBundleManifest where
  version : Nat
  firstHash : String
  lastHash : String
  merkleRoot : String
  entryCount : Nat
  previousBoundaryHash : Option String
  deriving DecidableEq

structure AuditBundle where
  body : List Char
  manifest : AuditBundleManifest

/-! ## Building -/

/-- **`compute_merkle_root`**; none is the panic on a hash that is not hex. -/
def computeMerkleRoot (env : BundleEnv) (hashes : List String) : Option String :=
  if hashes = [] then some ""
  else (hashes.mapM env.leafHash).bind (Merkle.root env.nodeHash)

/-- The content hashes, of the entries that have one. -/
def hashesOf (entries : List AuditLogEntry) : List String := entries.filterMap (·.contentHash)

/-- The manifest of entries, given their Merkle root. -/
def manifestOf (entries : List AuditLogEntry) (merkleRoot : String)
    (previousBoundaryHash : Option String) : AuditBundleManifest where
  version := 1
  firstHash := (hashesOf entries).head?.getD ""
  lastHash := (hashesOf entries).getLast?.getD ""
  merkleRoot := merkleRoot
  entryCount := entries.length
  previousBoundaryHash := previousBoundaryHash

/-- **`build_bundle_with_boundary`**. -/
def buildBundleWithBoundary (env : BundleEnv) (entries : List AuditLogEntry) (body : List Char)
    (previousBoundaryHash : Option String) : Except AuditBundleError AuditBundle :=
  match computeMerkleRoot env (hashesOf entries) with
  | none => .error .panicked
  | some merkleRoot =>
    .ok { body, manifest := manifestOf entries merkleRoot previousBoundaryHash }

/-- `build_bundle`. -/
def buildBundle (env : BundleEnv) (entries : List AuditLogEntry) (body : List Char) :
    Except AuditBundleError AuditBundle :=
  buildBundleWithBoundary env entries body none

/-- One line of a body. -/
def parseEntry (env : BundleEnv) (context : String) (line : List Char) :
    Except AuditBundleError AuditLogEntry :=
  match fromLine env line with
  | some entry => .ok entry
  | none => .error (.invalid (context ++ ": " ++ env.jsonError (String.ofList line)))

/-- **`build_bundle_from_ndjson`**. -/
def buildBundleFromNdjson (env : BundleEnv) (body : List Char) :
    Except AuditBundleError AuditBundle := do
  let entries ← (bodyLines body).mapM (parseEntry env "failed to parse audit log entry")
  buildBundle env entries body

/-! ## Verifying -/

/-- The entries of a body, with the ids seen before them. -/
def readEntries (env : BundleEnv) (seen : List Int) :
    List (List Char) → Except AuditBundleError (List AuditLogEntry)
  | [] => .ok []
  | line :: lines => do
    let entry ← parseEntry env "failed to parse audit log entry in bundle" line
    if entry.id ∈ seen then
      .error (.invalid s!"duplicate audit log entry id: {entry.id}")
    else
      let entries ← readEntries env (entry.id :: seen) lines
      return entry :: entries

/-- What is wrong with a hashed entry, if anything: its content, or the hash it names. -/
def checkBundleEntry (env : BundleEnv) (boundary prior : Option String) (entry : AuditLogEntry)
    (storedHash : String) : Except AuditBundleError Unit :=
  let recomputed := computeContentHash env.toAuditEnv entry.toAuditContent
  if storedHash ≠ recomputed then
    .error (.invalid (s!"audit log entry {entry.id} has tampered content: " ++
      s!"stored content_hash '{storedHash}' != recomputed '{recomputed}'"))
  else
    match prior, boundary with
    | some prior, _ =>
      match entry.previousHash with
      | none =>
        .error (.invalid s!"audit log entry {entry.id} has content_hash but missing previous_hash")
      | some prev =>
        if prev ≠ prior then
          .error (.invalid (s!"audit log entry {entry.id} has broken chain: " ++
            s!"previous_hash '{prev}' != prior content_hash '{prior}'"))
        else .ok ()
    -- a windowed bundle goes on from the one before it
    | none, some boundary =>
      match entry.previousHash with
      | none =>
        .error (.invalid (s!"audit log entry {entry.id} is the first hashed entry of a windowed " ++
          s!"bundle but has no previous_hash; expected boundary '{boundary}'"))
      | some prev =>
        if prev ≠ boundary then
          .error (.invalid (s!"audit log entry {entry.id} has broken boundary: " ++
            s!"previous_hash '{prev}' != manifest boundary '{boundary}'"))
        else .ok ()
    | none, none =>
      if entry.previousHash.isSome then
        .error (.invalid
          s!"audit log entry {entry.id} is the first hashed entry but has previous_hash")
      else .ok ()

/-- The walk along the chain, with the last content hash seen. -/
def verifyEntries (env : BundleEnv) (boundary : Option String) (prior : Option String) :
    List AuditLogEntry → Except AuditBundleError Unit
  | [] => .ok ()
  | entry :: entries =>
    match entry.contentHash with
    | none => verifyEntries env boundary prior entries
    | some storedHash => do
      checkBundleEntry env boundary prior entry storedHash
      verifyEntries env boundary (some storedHash) entries

/-- **`verify_bundle`**, on what the two files of a bundle hold. -/
def verifyBundle (env : BundleEnv) (manifest : AuditBundleManifest) (body : List Char) :
    Except AuditBundleError AuditBundleManifest := do
  ensure (manifest.version = 1) (.invalid s!"unsupported bundle version: {manifest.version}")
  let entries ← readEntries env [] (bodyLines body)
  ensure (entries.length = manifest.entryCount) (.invalid (
    s!"entry count mismatch: manifest says {manifest.entryCount} " ++
      s!"but found {entries.length} entries"))
  verifyEntries env manifest.previousBoundaryHash none entries
  let hashes := hashesOf entries
  let firstHash := hashes.head?.getD ""
  let lastHash := hashes.getLast?.getD ""
  ensure (firstHash = manifest.firstHash) (.invalid
    s!"first hash mismatch: manifest '{manifest.firstHash}' != computed '{firstHash}'")
  ensure (lastHash = manifest.lastHash) (.invalid
    s!"last hash mismatch: manifest '{manifest.lastHash}' != computed '{lastHash}'")
  match computeMerkleRoot env hashes with
  | none => .error .panicked
  | some merkleRoot =>
    ensure (merkleRoot = manifest.merkleRoot) (.invalid
      s!"merkle root mismatch: manifest '{manifest.merkleRoot}' != computed '{merkleRoot}'")
    return manifest

/-! ## What is accepted -/

/-- The links of the hashed entries. -/
def entryLinks (entries : List AuditLogEntry) : List (Chain.Link String) :=
  entries.filterMap fun entry => entry.contentHash.map fun hash => ⟨hash, entry.previousHash⟩

/-- A stored hash is that of the content. -/
def SoundEntry (env : AuditEnv) (entry : AuditLogEntry) : Prop :=
  ∀ hash, entry.contentHash = some hash → hash = computeContentHash env entry.toAuditContent

theorem entryLinks_append (entries entries' : List AuditLogEntry) :
    entryLinks (entries ++ entries') = entryLinks entries ++ entryLinks entries' :=
  List.filterMap_append

variable {entry : AuditLogEntry}

theorem entryLinks_hashed {hash : String} (h : entry.contentHash = some hash)
    (entries : List AuditLogEntry) :
    entryLinks (entry :: entries) = ⟨hash, entry.previousHash⟩ :: entryLinks entries := by
  rw [entryLinks, List.filterMap_cons, h]
  rfl

theorem entryLinks_legacy (h : entry.contentHash = none) (entries : List AuditLogEntry) :
    entryLinks (entry :: entries) = entryLinks entries := by
  rw [entryLinks, List.filterMap_cons, h]
  rfl

theorem entryLinks_hashes (entries : List AuditLogEntry) :
    (entryLinks entries).map Chain.Link.hash = hashesOf entries := by
  rw [entryLinks, hashesOf, List.map_filterMap]
  congr 1
  funext entry
  cases entry.contentHash <;> rfl

theorem lastHash_entryLinks (prior : Option String) (entries : List AuditLogEntry) :
    Chain.lastHash prior (entryLinks entries) = (hashesOf entries).getLast?.or prior := by
  rw [Chain.lastHash_eq, entryLinks_hashes]

variable {env : BundleEnv} {boundary : Option String}

theorem checkBundleEntry_ok {prior : Option String} {hash : String} :
    checkBundleEntry env boundary prior entry hash = .ok () ↔
      hash = computeContentHash env.toAuditEnv entry.toAuditContent ∧
        entry.previousHash = prior.or boundary := by
  unfold checkBundleEntry
  by_cases hhash : hash = computeContentHash env.toAuditEnv entry.toAuditContent
  · simp only [ne_eq, ← hhash, not_true_eq_false, if_false, true_and]
    cases prior with
    | some prior =>
      cases entry.previousHash with
      | none => simp
      | some prev => by_cases hprev : prev = prior <;> simp [hprev]
    | none =>
      cases boundary with
      | none => cases entry.previousHash <;> simp
      | some boundary =>
        cases entry.previousHash with
        | none => simp
        | some prev => by_cases hprev : prev = boundary <;> simp [hprev]
  · simp [hhash]

variable {entries : List AuditLogEntry}

/-- The walk accepts a chain from the hash it carries, or from the boundary. -/
theorem verifyEntries_ok {prior : Option String} :
    verifyEntries env boundary prior entries = .ok () ↔
      (∀ entry ∈ entries, SoundEntry env.toAuditEnv entry) ∧
        Chain.Linked (prior.or boundary) (entryLinks entries) := by
  induction entries generalizing prior with
  | nil => simp [verifyEntries, entryLinks, Chain.Linked]
  | cons entry entries ih =>
    rw [List.forall_mem_cons, verifyEntries]
    cases hhash : entry.contentHash with
    | none =>
      simp only [SoundEntry, hhash, entryLinks_legacy hhash, ih, reduceCtorEq, false_implies,
        implies_true, true_and]
    | some hash =>
      have hsound : SoundEntry env.toAuditEnv entry ↔
          hash = computeContentHash env.toAuditEnv entry.toAuditContent := by
        simp [SoundEntry, hhash]
      rw [hsound, entryLinks_hashed hhash, Chain.Linked]
      dsimp only
      cases hresult : checkBundleEntry env boundary prior entry hash with
      | error e =>
        constructor
        · intro h
          cases h
        · rintro ⟨⟨h, -⟩, hprior, -⟩
          rw [checkBundleEntry_ok.2 ⟨h, hprior⟩] at hresult
          cases hresult
      | ok u =>
        obtain ⟨hcomputed, hprior⟩ := checkBundleEntry_ok.1 hresult
        change verifyEntries env boundary (some hash) entries = _ ↔ _
        rw [ih, Option.some_or]
        simp [← hcomputed, hprior]

/-- The lines are read, and no id comes twice. -/
theorem readEntries_ok {seen : List Int} {lines : List (List Char)} :
    readEntries env seen lines = .ok entries ↔
      lines.mapM (fromLine env) = some entries ∧ (entries.map (·.id)).Nodup ∧
        ∀ entry ∈ entries, entry.id ∉ seen := by
  induction lines generalizing seen entries with
  | nil =>
    rw [readEntries, List.mapM_nil]
    constructor
    · rintro ⟨⟩
      simp
    · rintro ⟨h, -⟩
      cases h
      rfl
  | cons line lines ih =>
    rw [readEntries, parseEntry, List.mapM_cons]
    cases hline : fromLine env line with
    | none =>
      constructor
      · intro h
        cases h
      · rintro ⟨h, -⟩
        cases h
    | some entry =>
      change (if entry.id ∈ seen then _ else (readEntries env (entry.id :: seen) lines).bind
          fun rest => .ok (entry :: rest)) = _ ↔
        ((lines.mapM (fromLine env)).bind fun rest => some (entry :: rest)) = _ ∧ _
      rw [Option.bind_eq_some_iff]
      split_ifs with hseen
      · constructor
        · intro h
          cases h
        · rintro ⟨⟨rest, -, heq⟩, -, hfresh⟩
          cases heq
          exact absurd hseen (hfresh entry List.mem_cons_self)
      · constructor
        · intro h
          cases hread : readEntries env (entry.id :: seen) lines with
          | error e =>
            rw [hread] at h
            cases h
          | ok rest =>
            rw [hread] at h
            cases h
            obtain ⟨hlines, hnodup, hfresh⟩ := ih.1 hread
            refine ⟨⟨rest, hlines, rfl⟩, ?_, ?_⟩
            · rw [List.map_cons, List.nodup_cons]
              refine ⟨?_, hnodup⟩
              intro hmem
              obtain ⟨other, hother, hid⟩ := List.mem_map.1 hmem
              exact hfresh other hother (hid ▸ List.mem_cons_self)
            · rw [List.forall_mem_cons]
              exact ⟨hseen, fun other hother h => hfresh other hother (List.mem_cons_of_mem _ h)⟩
        · rintro ⟨⟨rest, hlines, heq⟩, hnodup, hfresh⟩
          cases heq
          rw [List.map_cons, List.nodup_cons] at hnodup
          rw [List.forall_mem_cons] at hfresh
          have hread : readEntries env (entry.id :: seen) lines = .ok rest := by
            refine ih.2 ⟨hlines, hnodup.2, fun other hother => ?_⟩
            rw [List.mem_cons, not_or]
            exact ⟨fun hid => hnodup.1 (List.mem_map.2 ⟨other, hother, hid⟩), hfresh.2 other hother⟩
          rw [hread]
          rfl

/-- The entries of a body. -/
def entriesOf (env : BundleEnv) (body : List Char) : Option (List AuditLogEntry) :=
  (bodyLines body).mapM (fromLine env)

/-- Entries with different ids whose stored hashes are those of their contents, in a chain that
goes on from the boundary. -/
structure Chained (env : AuditEnv) (boundary : Option String) (entries : List AuditLogEntry) :
    Prop where
  nodup : (entries.map (·.id)).Nodup
  sound : ∀ entry ∈ entries, SoundEntry env entry
  linked : Chain.Linked boundary (entryLinks entries)

variable {body : List Char}

/-- **What `verify_bundle` accepts**: the manifest of chained entries. -/
theorem verifyBundle_ok {manifest manifest' : AuditBundleManifest} :
    verifyBundle env manifest body = .ok manifest' ↔
      manifest' = manifest ∧ ∃ entries root, entriesOf env body = some entries ∧
        Chained env.toAuditEnv manifest.previousBoundaryHash entries ∧
        computeMerkleRoot env (hashesOf entries) = some root ∧
        manifest = manifestOf entries root manifest.previousBoundaryHash := by
  have hroot : ∀ hashes,
      (match computeMerkleRoot env hashes with
        | none => .error .panicked
        | some merkleRoot => do
          ensure (merkleRoot = manifest.merkleRoot) (.invalid
            s!"merkle root mismatch: manifest '{manifest.merkleRoot}' != computed '{merkleRoot}'")
          return manifest : Except AuditBundleError AuditBundleManifest) = .ok manifest' ↔
        manifest' = manifest ∧ computeMerkleRoot env hashes = some manifest.merkleRoot := by
    intro hashes
    cases computeMerkleRoot env hashes with
    | none => simp
    | some root =>
      simp only [bind_ok, ensure_ok, pure, Except.pure, Except.ok.injEq, Option.some.injEq]
      tauto
  have hwalk : ∀ entries (u : Unit),
      verifyEntries env manifest.previousBoundaryHash none entries = .ok u ↔
        (∀ entry ∈ entries, SoundEntry env.toAuditEnv entry) ∧
          Chain.Linked manifest.previousBoundaryHash (entryLinks entries) :=
    fun _ _ => verifyEntries_ok
  simp only [verifyBundle, bind_ok, ensure_ok, hroot, readEntries_ok, hwalk,
    List.not_mem_nil, not_false_eq_true, implies_true, and_true]
  constructor
  · rintro ⟨-, hversion, entries, ⟨hread, hnodup⟩, -, hcount, -, ⟨hsound, hlinked⟩, -, hfirst, -,
      hlast, hmanifest, hmerkle⟩
    refine ⟨hmanifest, entries, _, hread, ⟨hnodup, hsound, hlinked⟩, hmerkle, ?_⟩
    simp only [manifestOf, hfirst, hlast, hcount, ← hversion]
  · rintro ⟨hmanifest, entries, root, hread, hchained, hmerkle, heq⟩
    have hversion : manifest.version = 1 := by rw [heq, manifestOf]
    have hcount : entries.length = manifest.entryCount := by rw [heq, manifestOf]
    have hfirst : (hashesOf entries).head?.getD "" = manifest.firstHash := by rw [heq, manifestOf]
    have hlast : (hashesOf entries).getLast?.getD "" = manifest.lastHash := by rw [heq, manifestOf]
    have hroot : root = manifest.merkleRoot := by rw [heq, manifestOf]
    exact ⟨(), hversion, entries, ⟨hread, hchained.nodup⟩, (), hcount, (),
      ⟨hchained.sound, hchained.linked⟩, (), hfirst, (), hlast, hmanifest, hroot ▸ hmerkle⟩

/-- The entries of a body that holds the lines of entries. -/
theorem entriesOf_lines (hbody : linesOf body = entries.map (toLine env))
    (hid : ∀ entry ∈ entries, isI64 entry.id) :
    entriesOf env body = entries.mapM (·.reread env.reader) := by
  rw [entriesOf, bodyLines_eq hbody, List.mapM_map]
  clear hbody
  induction entries with
  | nil => rfl
  | cons entry entries ih =>
    rw [List.forall_mem_cons] at hid
    rw [List.mapM_cons, List.mapM_cons, ih hid.2]
    exact congrArg (· >>= _) (fromLine_toLine hid.1)

/-! ## Bundles that were built -/

/-- Hashes of contents are hex, so that there is a Merkle root. -/
theorem computeMerkleRoot_isSome (h : ∀ entry ∈ entries, SoundEntry env.toAuditEnv entry) :
    (computeMerkleRoot env (hashesOf entries)).isSome = true := by
  have hleaves : ∀ hashes : List String, (∀ hash ∈ hashes, (env.leafHash hash).isSome = true) →
      ∃ leaves, hashes.mapM env.leafHash = some leaves ∧ leaves.length = hashes.length := by
    intro hashes hall
    induction hashes with
    | nil => exact ⟨[], rfl, rfl⟩
    | cons hash hashes ih =>
      rw [List.forall_mem_cons] at hall
      obtain ⟨leaves, hleaves, hlength⟩ := ih hall.2
      obtain ⟨leaf, hleaf⟩ := Option.isSome_iff_exists.1 hall.1
      refine ⟨leaf :: leaves, ?_, by rw [List.length_cons, List.length_cons, hlength]⟩
      rw [List.mapM_cons, hleaf, hleaves]
      rfl
  have hall : ∀ hash ∈ hashesOf entries, (env.leafHash hash).isSome = true := by
    intro hash hmem
    obtain ⟨entry, hentry, hhash⟩ := List.mem_filterMap.1 hmem
    rw [h entry hentry hash hhash]
    exact env.leafHash_content _
  obtain ⟨leaves, hleaves, hlength⟩ := hleaves _ hall
  unfold computeMerkleRoot
  split_ifs with hempty
  · rfl
  · rw [hleaves, Option.bind_some]
    refine Merkle.root_isSome fun hnil => hempty ?_
    rw [hnil] at hlength
    exact List.length_eq_zero_iff.1 hlength.symm

/-- The bundle that is built for a body, with this boundary, is accepted. -/
def Verifies (env : BundleEnv) (boundary : Option String) (body : List Char) : Prop :=
  ∃ entries bundle, entriesOf env body = some entries ∧
    buildBundleWithBoundary env entries body boundary = .ok bundle ∧
    verifyBundle env bundle.manifest bundle.body = .ok bundle.manifest

/-- **A bundle that is built is accepted if its entries are chained.** -/
theorem verifies_iff :
    Verifies env boundary body ↔
      ∃ entries, entriesOf env body = some entries ∧ Chained env.toAuditEnv boundary entries := by
  constructor
  · rintro ⟨entries, bundle, hentries, hbuilt, hverify⟩
    rw [buildBundleWithBoundary] at hbuilt
    split at hbuilt
    · cases hbuilt
    · cases hbuilt
      obtain ⟨-, entries', root, hentries', hchained, -⟩ := verifyBundle_ok.1 hverify
      rw [hentries] at hentries'
      cases hentries'
      exact ⟨entries, hentries, hchained⟩
  · rintro ⟨entries, hentries, hchained⟩
    obtain ⟨root, hroot⟩ := Option.isSome_iff_exists.1 (computeMerkleRoot_isSome hchained.sound)
    refine ⟨entries, ⟨body, manifestOf entries root boundary⟩, hentries, ?_, ?_⟩
    · rw [buildBundleWithBoundary, hroot]
    · exact verifyBundle_ok.2 ⟨rfl, entries, root, hentries, hchained, hroot, rfl⟩

/-- The lines of a body are parsed as they are read. -/
theorem mapM_parseEntry {context : String} {lines : List (List Char)} :
    lines.mapM (parseEntry env context) = .ok entries ↔
      lines.mapM (fromLine env) = some entries := by
  induction lines generalizing entries with
  | nil =>
    rw [List.mapM_nil, List.mapM_nil]
    simp only [pure, Except.pure, Except.ok.injEq, Option.some.injEq]
  | cons line lines ih =>
    rw [List.mapM_cons, List.mapM_cons, parseEntry]
    cases fromLine env line with
    | none => simp [bind_ok]
    | some entry =>
      simp only [bind_ok, Option.bind_eq_bind, Option.bind_some, Option.bind_eq_some_iff, pure,
        Except.pure, Except.ok.injEq, Option.some.injEq, exists_eq_left', ih]

/-- What `ferrumctl` makes of a body is accepted if the body verifies without a boundary. -/
theorem buildBundleFromNdjson_verifies :
    (∃ bundle, buildBundleFromNdjson env body = .ok bundle ∧
      verifyBundle env bundle.manifest bundle.body = .ok bundle.manifest) ↔
        Verifies env none body := by
  simp only [buildBundleFromNdjson, bind_ok, mapM_parseEntry, buildBundle]
  constructor
  · rintro ⟨bundle, ⟨entries, hentries, hbuilt⟩, hverify⟩
    exact ⟨entries, bundle, hentries, hbuilt, hverify⟩
  · rintro ⟨entries, bundle, hentries, hbuilt, hverify⟩
    exact ⟨bundle, ⟨entries, hentries, hbuilt⟩, hverify⟩

end FerrumGate.Audit
