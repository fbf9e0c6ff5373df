import FerrumGate.Audit.Bundle
import FerrumGate.Safety.AuditChain

/-!
# What bundles say about the log

* **`windowed_bundles_compose`** : a log that verifies can be cut into windows that verify, each
  from the last hash before it, and windows that fit together in this way make a log that verifies.
* **`manifest_binds_iff`** : two bodies accepted against one manifest hold the same hashed entries
  exactly if they hold equally many entries without a hash. The Merkle tree joins a last odd node
  with itself, and the manifest counts entries with and without hash together, so
  `doubled_entry_accepted` puts a second copy of the last entry in the place of an unhashed one.
-/

namespace FerrumGate.Audit

open Interleave Serde

/-! ## Bundles to look at -/

variable {entries : List AuditLogEntry}

namespace BundleSample

open AuditSample

/-- Two texts in one: the first one with a mark before each of its characters. -/
def joined (l r : List Char) : List Char := l.flatMap (fun c => ['a', c]) ++ 'b' :: r

theorem joined_injective : {l r l' r' : List Char} → joined l r = joined l' r' → l = l' ∧ r = r'
  | [], _, [], _, h => ⟨rfl, (List.cons.inj h).2⟩
  | [], _, _ :: _, _, h => absurd (List.cons.inj h).1 (by decide)
  | _ :: _, _, [], _, h => absurd (List.cons.inj h).1 (by decide)
  | c :: l, r, c' :: l', r', h => by
    obtain ⟨hc, htail⟩ := List.cons.inj (List.cons.inj h).2
    obtain ⟨hl, hr⟩ := joined_injective (l := l) (r := r) htail
    exact ⟨by rw [hc, hl], hr⟩

/-- Texts stand for their own hashes, and pairs of texts too. -/
def env : BundleEnv where
  toAuditEnv := AuditSample.env
  leafHash := some
  nodeHash l r := String.ofList (joined l.toList r.toList)
  writeTime := epochText
  parseTime s := (parseEpoch s).toOption
  leafHash_content := fun _ => rfl
  parse_writeTime := fun t => by rw [parseEpoch_epochText]; rfl

def hash (actorId : String) : String := computeContentHash env.toAuditEnv (creates actorId none)

/-- Somebody creates a token, after the entry with this hash. -/
def entry (id : Int) (actorId : String) (previousHash : Option String) : AuditLogEntry :=
  { creates actorId none with id, contentHash := some (hash actorId), previousHash }

/-- An entry from before there were hashes. -/
def legacy (id : Int) (actorId : String) : AuditLogEntry :=
  { creates actorId none with id, contentHash := none, previousHash := none }

theorem entry_sound (id : Int) (actorId : String) (previousHash : Option String) :
    SoundEntry env.toAuditEnv (entry id actorId previousHash) := by
  rintro _ ⟨⟩
  rfl

theorem legacy_sound (id : Int) (actorId : String) :
    SoundEntry env.toAuditEnv (legacy id actorId) := by
  rintro _ ⟨⟩

/-- Entries without metadata are read back. -/
theorem entriesOf_toLines (h : ∀ entry ∈ entries, isI64 entry.id ∧ entry.metadata = none) :
    entriesOf env (toLines env entries) = some entries := by
  rw [entriesOf_lines (linesOf_toLines env entries) fun entry hentry => (h entry hentry).1]
  induction entries with
  | nil => rfl
  | cons entry entries ih =>
    rw [List.forall_mem_cons] at h
    have hread : entry.reread env.reader = some entry := by
      rw [AuditLogEntry.reread, h.1.2, rereadMetadata, Option.map_some, ← h.1.2]
    rw [List.mapM_cons, hread, ih h.2]
    rfl

end BundleSample

/-! ## Windows -/

theorem hashesOf_append (entries entries' : List AuditLogEntry) :
    hashesOf (entries ++ entries') = hashesOf entries ++ hashesOf entries' := List.filterMap_append

variable {entries' : List AuditLogEntry}

/-- Chained entries are two parts, the second from where the first one ends. -/
theorem chained_append {env : AuditEnv} {boundary : Option String} :
    Chained env boundary (entries ++ entries') ↔
      Chained env boundary entries ∧
        Chained env ((hashesOf entries).getLast?.or boundary) entries' ∧
        List.Disjoint (entries.map (·.id)) (entries'.map (·.id)) := by
  constructor
  · rintro ⟨hnodup, hsound, hlinked⟩
    rw [List.map_append, List.nodup_append'] at hnodup
    rw [List.forall_mem_append] at hsound
    rw [entryLinks_append, Chain.linked_append, lastHash_entryLinks] at hlinked
    exact ⟨⟨hnodup.1, hsound.1, hlinked.1⟩, ⟨hnodup.2.1, hsound.2, hlinked.2⟩, hnodup.2.2⟩
  · rintro ⟨h, h', hdisjoint⟩
    refine ⟨?_, ?_, ?_⟩
    · rw [List.map_append, List.nodup_append']
      exact ⟨h.nodup, h'.nodup, hdisjoint⟩
    · rw [List.forall_mem_append]
      exact ⟨h.sound, h'.sound⟩
    · rw [entryLinks_append, Chain.linked_append, lastHash_entryLinks]
      exact ⟨h.linked, h'.linked⟩

/-- **Any number of parts**, each from the last hash before it. -/
theorem chained_flatten {env : AuditEnv} {boundary : Option String}
    {parts : List (List AuditLogEntry)} :
    Chained env boundary parts.flatten ↔
      (∀ before part after, parts = before ++ part :: after →
        Chained env ((hashesOf before.flatten).getLast?.or boundary) part) ∧
      parts.Pairwise fun part part' => List.Disjoint (part.map (·.id)) (part'.map (·.id)) := by
  induction parts generalizing boundary with
  | nil =>
    have hnil : Chained env boundary [] := ⟨List.nodup_nil, by simp, trivial⟩
    simp [hnil]
  | cons head parts ih =>
    have hdisjoint : List.Disjoint (head.map (·.id)) (parts.flatten.map (·.id)) ↔
        ∀ part ∈ parts, List.Disjoint (head.map (·.id)) (part.map (·.id)) := by
      simp only [List.disjoint_right, List.map_flatten, List.mem_flatten, List.mem_map]
      grind
    have hlast : ∀ before : List (List AuditLogEntry),
        (hashesOf (head :: before).flatten).getLast?.or boundary =
          (hashesOf before.flatten).getLast?.or ((hashesOf head).getLast?.or boundary) := by
      intro before
      rw [List.flatten_cons, hashesOf_append, List.getLast?_append, Option.or_assoc]
    rw [List.flatten_cons, chained_append, ih, hdisjoint, List.pairwise_cons]
    constructor
    · rintro ⟨hhead, ⟨hparts, hpairwise⟩, hdisjoint⟩
      refine ⟨?_, hdisjoint, hpairwise⟩
      intro before part after heq
      cases before with
      | nil =>
        obtain ⟨rfl, rfl⟩ := List.cons.inj heq
        exact hhead
      | cons first before =>
        obtain ⟨rfl, rfl⟩ := List.cons.inj heq
        rw [hlast]
        exact hparts before part after rfl
    · rintro ⟨hparts, hdisjoint, hpairwise⟩
      refine ⟨hparts [] head parts rfl, ⟨?_, hpairwise⟩, hdisjoint⟩
      intro before part after heq
      rw [← hlast]
      exact hparts (head :: before) part after (by rw [heq, List.cons_append])

/-- The last content hash in these bodies. -/
def lastHashIn (env : BundleEnv) (bodies : List (List Char)) : Option String :=
  (hashesOf (bodies.flatMap fun body => (entriesOf env body).getD [])).getLast?

/-- The ids in a body. -/
def idsIn (env : BundleEnv) (body : List Char) : List Int :=
  ((entriesOf env body).getD []).map (·.id)

/-- A body is read if its windows are, as their entries in order. -/
theorem entriesOf_windows {env : BundleEnv} {windows : List (List Char)} {body : List Char}
    (hcut : bodyLines body = windows.flatMap bodyLines) :
    entriesOf env body = some entries ↔
      (∀ window ∈ windows, (entriesOf env window).isSome = true) ∧
        entries = (windows.map fun window => (entriesOf env window).getD []).flatten := by
  unfold entriesOf
  rw [hcut]
  clear hcut
  induction windows generalizing entries with
  | nil =>
    simp only [List.flatMap_nil, List.mapM_nil, List.map_nil, List.flatten_nil, List.not_mem_nil,
      false_implies, implies_true, true_and, Option.pure_def, Option.some.injEq]
    exact eq_comm
  | cons window windows ih =>
    rw [List.flatMap_cons, List.mapM_append, List.forall_mem_cons, List.map_cons, List.flatten_cons]
    simp only [Option.bind_eq_bind, Option.bind_eq_some_iff, Option.pure_def, Option.some.injEq, ih]
    constructor
    · rintro ⟨first, hfirst, rest, ⟨hall, rfl⟩, rfl⟩
      rw [hfirst]
      exact ⟨⟨rfl, hall⟩, rfl⟩
    · rintro ⟨⟨hfirst, hall⟩, rfl⟩
      obtain ⟨first, hfirst⟩ := Option.isSome_iff_exists.1 hfirst
      rw [hfirst]
      exact ⟨first, rfl, _, ⟨hall, rfl⟩, rfl⟩

/-- **Windowed bundles compose.** -/
theorem windowed_bundles_compose (env : BundleEnv) :
    (∀ (body : List Char) (windows : List (List Char)), bodyLines body = windows.flatMap bodyLines →
      Verifies env none body → ∀ before window after, windows = before ++ window :: after →
        Verifies env (lastHashIn env before) window) ∧
    (∀ (boundary : Option String) (windows : List AuditBundle) (body : List Char),
      bodyLines body = windows.flatMap (fun window => bodyLines window.body) →
      (∀ window ∈ windows, verifyBundle env window.manifest window.body = .ok window.manifest) →
      windows.Pairwise (fun window window' =>
        List.Disjoint (idsIn env window.body) (idsIn env window'.body)) →
      (∀ before window after, windows = before ++ window :: after →
        window.manifest.previousBoundaryHash =
          (lastHashIn env (before.map (·.body))).or boundary) →
      Verifies env boundary body) := by
  have hlast : ∀ bodies : List (List Char), lastHashIn env bodies =
      (hashesOf (bodies.map fun body => (entriesOf env body).getD []).flatten).getLast? :=
    fun bodies => by rw [lastHashIn, List.flatMap_def]
  constructor
  · intro body windows hcut hverifies before window after heq
    obtain ⟨entries, hentries, hchained⟩ := verifies_iff.1 hverifies
    obtain ⟨hall, rfl⟩ := (entriesOf_windows hcut).1 hentries
    subst heq
    obtain ⟨part, hpart⟩ := Option.isSome_iff_exists.1 (hall window (by simp))
    have hwindow := (chained_flatten.1 hchained).1
      (before.map fun body => (entriesOf env body).getD []) part
      (after.map fun body => (entriesOf env body).getD []) (by simp [hpart])
    rw [Option.or_none] at hwindow
    exact verifies_iff.2 ⟨part, hpart, hlast before ▸ hwindow⟩
  · intro boundary windows body hcut hverify hdisjoint hboundary
    have hread : ∀ window ∈ windows, ∃ part, entriesOf env window.body = some part ∧
        Chained env.toAuditEnv window.manifest.previousBoundaryHash part := by
      intro window hwindow
      obtain ⟨-, part, root, hpart, hchained, -⟩ := verifyBundle_ok.1 (hverify window hwindow)
      exact ⟨part, hpart, hchained⟩
    rw [← List.flatMap_map] at hcut
    refine verifies_iff.2 ⟨_, (entriesOf_windows hcut).2 ⟨?_, rfl⟩, chained_flatten.2 ⟨?_, ?_⟩⟩
    · intro text htext
      obtain ⟨window, hwindow, rfl⟩ := List.mem_map.1 htext
      obtain ⟨part, hpart, -⟩ := hread window hwindow
      rw [hpart]
      rfl
    · intro before part after heq
      rw [List.map_map] at heq
      obtain ⟨first, rest, rfl, rfl, hrest⟩ := List.map_eq_append_iff.1 heq
      obtain ⟨window, last, rfl, rfl, rfl⟩ := List.map_eq_cons_iff.1 hrest
      obtain ⟨part, hpart, hchained⟩ := hread window (by simp)
      have hlast' := hlast (first.map (·.body))
      rw [hboundary first window last rfl, hlast', List.map_map] at hchained
      simpa only [Function.comp, hpart, Option.getD_some] using hchained
    · rw [List.map_map, List.pairwise_map]
      exact hdisjoint

namespace BundleSample

def alice : AuditLogEntry := entry 1 "alice" none

def bob : AuditLogEntry := entry 3 "bob" (some (hash "alice"))

/-- Two hashed entries with an unhashed one between them. -/
def log : List AuditLogEntry := [alice, legacy 2 "root", bob]

theorem log_chained : Chained env.toAuditEnv none log where
  nodup := by decide
  sound := by
    simp only [log, List.forall_mem_cons, List.not_mem_nil, false_implies, implies_true, and_true]
    exact ⟨entry_sound _ _ _, legacy_sound _ _, entry_sound _ _ _⟩
  linked := ⟨rfl, rfl, trivial⟩

theorem log_plain : ∀ entry ∈ log, isI64 entry.id ∧ entry.metadata = none := by
  decide

end BundleSample

/-- The log cut behind its unhashed entry. -/
theorem windowed_bundles_compose_cut :
    Verifies BundleSample.env none (toLines BundleSample.env BundleSample.log) ∧
      Verifies BundleSample.env (some (BundleSample.hash "alice"))
        (toLines BundleSample.env [BundleSample.bob]) := by
  have hlog : Verifies BundleSample.env none (toLines BundleSample.env BundleSample.log) :=
    verifies_iff.2 ⟨_, BundleSample.entriesOf_toLines BundleSample.log_plain,
      BundleSample.log_chained⟩
  have hlines : ∀ entries, bodyLines (toLines BundleSample.env entries) =
      entries.map (toLine BundleSample.env) := fun entries =>
    bodyLines_eq (linesOf_toLines BundleSample.env entries)
  have hfirst : lastHashIn BundleSample.env
      [toLines BundleSample.env [BundleSample.alice, BundleSample.legacy 2 "root"]] =
        some (BundleSample.hash "alice") := by
    rw [lastHashIn, List.flatMap_singleton, BundleSample.entriesOf_toLines (by decide)]
    rfl
  refine ⟨hlog, ?_⟩
  have hsecond := (windowed_bundles_compose BundleSample.env).1 _
    [toLines BundleSample.env [BundleSample.alice, BundleSample.legacy 2 "root"],
      toLines BundleSample.env [BundleSample.bob]]
    (by
      rw [List.flatMap_cons, List.flatMap_singleton, hlines, hlines, hlines]
      rfl) hlog [_] _ [] rfl
  rw [hfirst] at hsecond
  exact hsecond

/-! ## Manifests -/

/-- The hash functions are free of collisions, on what they are used for. -/
structure CollisionFree (env : BundleEnv) : Prop where
  content : Function.Injective env.sha256Hex
  leaf : ∀ text text', env.leafHash (env.sha256Hex text) = env.leafHash (env.sha256Hex text') →
    env.sha256Hex text = env.sha256Hex text'
  node : Function.Injective2 env.nodeHash

/-- The hashed fields of hashed entries. -/
def hashedFields (entries : List AuditLogEntry) : List AuditContent :=
  entries.filterMap fun entry => entry.contentHash.map fun _ => entry.toAuditContent.hashed

/-- The hashed fields of the hashed entries of a body, in order. -/
def hashedFieldsIn (env : BundleEnv) (body : List Char) : List AuditContent :=
  hashedFields ((entriesOf env body).getD [])

/-- How many entries of a body have no content hash. -/
def unhashedIn (env : BundleEnv) (body : List Char) : Nat :=
  ((entriesOf env body).getD []).countP fun entry => entry.contentHash.isNone

theorem length_hashesOf (entries : List AuditLogEntry) :
    (hashesOf entries).length + entries.countP (fun entry => entry.contentHash.isNone) =
      entries.length := by
  induction entries with
  | nil => rfl
  | cons entry entries ih =>
    rw [List.length_cons, ← ih, hashesOf, List.filterMap_cons, List.countP_cons]
    cases entry.contentHash with
    | none => simp [hashesOf, Nat.add_assoc]
    | some hash =>
      simp [hashesOf]
      omega

variable {hashes : List String}

theorem mapM_length {leaves : List String} {leafHash : String → Option String}
    (h : hashes.mapM leafHash = some leaves) : leaves.length = hashes.length := by
  induction hashes generalizing leaves with
  | nil =>
    cases h
    rfl
  | cons hash hashes ih =>
    simp only [List.mapM_cons, Option.bind_eq_bind, Option.bind_eq_some_iff, Option.pure_def] at h
    obtain ⟨leaf, -, rest, hrest, heq⟩ := h
    cases heq
    rw [List.length_cons, List.length_cons, ih hrest]

/-- Hashes of contents with the same leaves are the same. -/
theorem leaves_injective {env : BundleEnv} (hfree : CollisionFree env)
    {hashes' leaves : List String} (hcontent : ∀ hash ∈ hashes, ∃ text, hash = env.sha256Hex text)
    (hcontent' : ∀ hash ∈ hashes', ∃ text, hash = env.sha256Hex text)
    (h : hashes.mapM env.leafHash = some leaves) (h' : hashes'.mapM env.leafHash = some leaves) :
    hashes = hashes' := by
  induction hashes generalizing hashes' leaves with
  | nil =>
    cases h
    exact (List.length_eq_zero_iff.1 (mapM_length h').symm).symm
  | cons hash hashes ih =>
    cases hashes' with
    | nil =>
      cases h'
      exact List.length_eq_zero_iff.1 (mapM_length h).symm
    | cons hash' hashes' =>
      simp only [List.mapM_cons, Option.bind_eq_bind, Option.bind_eq_some_iff, Option.pure_def]
        at h h'
      obtain ⟨leaf, hleaf, rest, hrest, ⟨⟩⟩ := h
      obtain ⟨leaf', hleaf', rest', hrest', heq⟩ := h'
      cases heq
      rw [List.forall_mem_cons] at hcontent hcontent'
      obtain ⟨text, rfl⟩ := hcontent.1
      obtain ⟨text', rfl⟩ := hcontent'.1
      rw [hfree.leaf text text' (hleaf.trans hleaf'.symm), ih hcontent.2 hcontent'.2 hrest hrest']

theorem hashesOf_content {env : AuditEnv} (hsound : ∀ entry ∈ entries, SoundEntry env entry) :
    ∀ hash ∈ hashesOf entries, ∃ text, hash = env.sha256Hex text := by
  intro hash hmem
  obtain ⟨entry, hentry, hhash⟩ := List.mem_filterMap.1 hmem
  exact ⟨_, hsound entry hentry hash hhash⟩

/-- Sound entries with equally many hashes and one Merkle root have the same hashes. -/
theorem hashesOf_eq {env : BundleEnv} (hfree : CollisionFree env)
    (hsound : ∀ entry ∈ entries, SoundEntry env.toAuditEnv entry)
    (hsound' : ∀ entry ∈ entries', SoundEntry env.toAuditEnv entry)
    (hlength : (hashesOf entries).length = (hashesOf entries').length) {root : String}
    (hroot : computeMerkleRoot env (hashesOf entries) = some root)
    (hroot' : computeMerkleRoot env (hashesOf entries') = some root) :
    hashesOf entries = hashesOf entries' := by
  by_cases hempty : hashesOf entries = []
  · rw [hempty] at hlength
    rw [hempty, List.length_eq_zero_iff.1 hlength.symm]
  · have hempty' : hashesOf entries' ≠ [] := fun h => hempty (List.length_eq_zero_iff.1 (by
      rw [hlength, h]
      rfl))
    rw [computeMerkleRoot, if_neg hempty, Option.bind_eq_some_iff] at hroot
    rw [computeMerkleRoot, if_neg hempty', Option.bind_eq_some_iff] at hroot'
    obtain ⟨leaves, hleaves, hroot⟩ := hroot
    obtain ⟨leaves', hleaves', hroot'⟩ := hroot'
    have hsame : leaves = leaves' := by
      refine Merkle.root_injective hfree.node ?_ (hroot.trans hroot'.symm)
      rw [mapM_length hleaves, mapM_length hleaves', hlength]
    exact leaves_injective hfree (hashesOf_content hsound) (hashesOf_content hsound') hleaves
      (hsame ▸ hleaves')

theorem length_hashedFields (entries : List AuditLogEntry) :
    (hashedFields entries).length = (hashesOf entries).length := by
  unfold hashedFields hashesOf
  induction entries with
  | nil => rfl
  | cons entry entries ih =>
    rw [List.filterMap_cons, List.filterMap_cons]
    cases entry.contentHash with
    | none => exact ih
    | some hash => exact congrArg (· + 1) ih

/-- Without collisions, sound entries with the same hashes have the same hashed fields. -/
theorem hashedFields_eq {env : AuditEnv} (hcollision : Function.Injective env.sha256Hex)
    (hsound : ∀ entry ∈ entries, SoundEntry env entry)
    (hsound' : ∀ entry ∈ entries', SoundEntry env entry)
    (h : hashesOf entries = hashesOf entries') : hashedFields entries = hashedFields entries' := by
  have hhashes : ∀ entries : List AuditLogEntry, (∀ entry ∈ entries, SoundEntry env entry) →
      hashesOf entries = (hashedFields entries).map (computeContentHash env) := by
    intro entries hsound
    rw [hashedFields, List.map_filterMap]
    refine List.filterMap_congr fun entry hentry => ?_
    cases hhash : entry.contentHash with
    | none => rfl
    | some hash =>
      rw [Option.map_some, Option.map_some, hsound entry hentry hash hhash]
      rfl
  have hself : ∀ entries : List AuditLogEntry,
      (hashedFields entries).map AuditContent.hashed = hashedFields entries := by
    intro entries
    rw [hashedFields, List.map_filterMap]
    refine List.filterMap_congr fun entry _ => ?_
    cases entry.contentHash <;> rfl
  rw [hhashes entries hsound, hhashes entries' hsound'] at h
  rw [← hself entries, ← hself entries']
  exact map_hashed_eq hcollision h

/-- **What two bodies have to share besides their manifest.** -/
theorem manifest_binds_iff (env : BundleEnv) (hfree : CollisionFree env)
    (manifest : AuditBundleManifest) (body body' : List Char)
    (h : verifyBundle env manifest body = .ok manifest)
    (h' : verifyBundle env manifest body' = .ok manifest) :
    hashedFieldsIn env body = hashedFieldsIn env body' ↔
      unhashedIn env body = unhashedIn env body' := by
  obtain ⟨-, entries, root, hread, hchained, hroot, hmanifest⟩ := verifyBundle_ok.1 h
  obtain ⟨-, entries', root', hread', hchained', hroot', hmanifest'⟩ := verifyBundle_ok.1 h'
  have hcount : entries.length = entries'.length := by
    have heq := congrArg AuditBundleManifest.entryCount (hmanifest.symm.trans hmanifest')
    exact heq
  have hsame : root' = root := by
    have heq := congrArg AuditBundleManifest.merkleRoot (hmanifest'.symm.trans hmanifest)
    exact heq
  have hhashed := length_hashesOf entries
  have hhashed' := length_hashesOf entries'
  simp only [hashedFieldsIn, unhashedIn, hread, hread', Option.getD_some]
  constructor
  · intro heq
    have hlength := congrArg List.length heq
    rw [length_hashedFields, length_hashedFields] at hlength
    omega
  · intro heq
    refine hashedFields_eq hfree.content hchained.sound hchained'.sound ?_
    exact hashesOf_eq hfree hchained.sound hchained'.sound (by omega) hroot (hsame ▸ hroot')

namespace BundleSample

theorem collisionFree : CollisionFree env where
  content := AuditSample.collisionFree
  leaf := fun _ _ h => Option.some.inj h
  node := by
    intro l r l' r' h
    have htext := congrArg String.toList h
    simp only [env, String.toList_ofList] at htext
    obtain ⟨hl, hr⟩ := joined_injective htext
    exact ⟨String.toList_inj.1 hl, String.toList_inj.1 hr⟩

/-- A manifest without boundary. -/
def manifest (firstHash lastHash merkleRoot : String) (entryCount : Nat) : AuditBundleManifest where
  version := 1
  firstHash := firstHash
  lastHash := lastHash
  merkleRoot := merkleRoot
  entryCount := entryCount
  previousBoundaryHash := none

/-- Chained entries without metadata are accepted against a manifest with their hashes. -/
theorem accepted {first last root : String}
    (hplain : ∀ entry ∈ entries, isI64 entry.id ∧ entry.metadata = none)
    (hchained : Chained env.toAuditEnv none entries) (hhashes : hashesOf entries = hashes)
    (hfirst : hashes.head? = some first) (hlast : hashes.getLast? = some last)
    (hroot : computeMerkleRoot env hashes = some root) :
    verifyBundle env (manifest first last root entries.length) (toLines env entries) =
      .ok (manifest first last root entries.length) := by
  refine verifyBundle_ok.2 ⟨rfl, entries, root, entriesOf_toLines hplain, hchained, ?_, ?_⟩
  · rw [hhashes, hroot]
  · rw [manifestOf, hhashes, hfirst, hlast]
    rfl

theorem root_two (a b : String) : computeMerkleRoot env [a, b] = some (env.nodeHash a b) := rfl

theorem root_three (a b c : String) : computeMerkleRoot env [a, b, c] =
    some (env.nodeHash (env.nodeHash a b) (env.nodeHash c c)) := rfl

theorem root_four (a b c d : String) : computeMerkleRoot env [a, b, c, d] =
    some (env.nodeHash (env.nodeHash a b) (env.nodeHash c d)) := rfl

/-- Another unhashed entry in the place of the first one. -/
def log' : List AuditLogEntry := [alice, legacy 2 "admin", bob]

theorem log'_chained : Chained env.toAuditEnv none log' where
  nodup := by decide
  sound := by
    simp only [log', List.forall_mem_cons, List.not_mem_nil, false_implies, implies_true, and_true]
    exact ⟨entry_sound _ _ _, legacy_sound _ _, entry_sound _ _ _⟩
  linked := ⟨rfl, rfl, trivial⟩

theorem log'_plain : ∀ entry ∈ log', isI64 entry.id ∧ entry.metadata = none := by
  decide

def logManifest : AuditBundleManifest :=
  manifest (hash "alice") (hash "bob") (env.nodeHash (hash "alice") (hash "bob")) 3

theorem log_accepted : verifyBundle env logManifest (toLines env log) = .ok logManifest :=
  accepted log_plain log_chained rfl rfl rfl (root_two _ _)

theorem log'_accepted : verifyBundle env logManifest (toLines env log') = .ok logManifest :=
  accepted log'_plain log'_chained rfl rfl rfl (root_two _ _)

end BundleSample

/-- Two logs that differ in an unhashed entry. -/
theorem manifest_binds_unhashed :
    unhashedIn BundleSample.env (toLines BundleSample.env BundleSample.log) =
        unhashedIn BundleSample.env (toLines BundleSample.env BundleSample.log') ∧
      hashedFieldsIn BundleSample.env (toLines BundleSample.env BundleSample.log) =
        hashedFieldsIn BundleSample.env (toLines BundleSample.env BundleSample.log') := by
  have hone : unhashedIn BundleSample.env (toLines BundleSample.env BundleSample.log) =
      unhashedIn BundleSample.env (toLines BundleSample.env BundleSample.log') := by
    rw [unhashedIn, unhashedIn, BundleSample.entriesOf_toLines BundleSample.log_plain,
      BundleSample.entriesOf_toLines BundleSample.log'_plain]
    rfl
  refine ⟨hone, ?_⟩
  exact (manifest_binds_iff BundleSample.env BundleSample.collisionFree BundleSample.logManifest
    _ _ BundleSample.log_accepted BundleSample.log'_accepted).2 hone

namespace BundleSample

def carol : AuditLogEntry := entry 4 "carol" (some (hash "bob"))

/-- Three hashed entries, and one without. -/
def three : List AuditLogEntry := [alice, bob, carol, legacy 5 "root"]

/-- The third hashed entry once more, in the place of the one without. -/
def doubled : List AuditLogEntry := [alice, bob, carol, entry 5 "carol" (some (hash "carol"))]

def threeManifest : AuditBundleManifest :=
  manifest (hash "alice") (hash "carol") (env.nodeHash (env.nodeHash (hash "alice") (hash "bob"))
    (env.nodeHash (hash "carol") (hash "carol"))) 4

theorem three_chained : Chained env.toAuditEnv none three where
  nodup := by decide
  sound := by
    simp only [three, List.forall_mem_cons, List.not_mem_nil, false_implies, implies_true, and_true]
    exact ⟨entry_sound _ _ _, entry_sound _ _ _, entry_sound _ _ _, legacy_sound _ _⟩
  linked := ⟨rfl, rfl, rfl, trivial⟩

theorem doubled_chained : Chained env.toAuditEnv none doubled where
  nodup := by decide
  sound := by
    simp only [doubled, List.forall_mem_cons, List.not_mem_nil, false_implies, implies_true,
      and_true]
    exact ⟨entry_sound _ _ _, entry_sound _ _ _, entry_sound _ _ _, entry_sound _ _ _⟩
  linked := ⟨rfl, rfl, rfl, rfl, trivial⟩

theorem three_plain : ∀ entry ∈ three, isI64 entry.id ∧ entry.metadata = none := by
  decide

theorem doubled_plain : ∀ entry ∈ doubled, isI64 entry.id ∧ entry.metadata = none := by
  decide

end BundleSample

/-- One manifest, two bodies: the copy of the last entry stands where the tree doubles it anyway. -/
theorem doubled_entry_accepted :
    CollisionFree BundleSample.env ∧
    (∀ body ∈ [toLines BundleSample.env BundleSample.three,
        toLines BundleSample.env BundleSample.doubled],
      verifyBundle BundleSample.env BundleSample.threeManifest body =
        .ok BundleSample.threeManifest) ∧
      (hashedFieldsIn BundleSample.env (toLines BundleSample.env BundleSample.three)).length = 3 ∧
      (hashedFieldsIn BundleSample.env (toLines BundleSample.env BundleSample.doubled)).length = 4 := by
  refine ⟨BundleSample.collisionFree, ?_, ?_, ?_⟩
  · simp only [List.forall_mem_cons, List.not_mem_nil, false_implies, implies_true, and_true]
    constructor
    · exact BundleSample.accepted BundleSample.three_plain BundleSample.three_chained rfl rfl rfl
        (BundleSample.root_three _ _ _)
    · exact BundleSample.accepted BundleSample.doubled_plain BundleSample.doubled_chained rfl rfl rfl
        (BundleSample.root_four _ _ _ _)
  · rw [hashedFieldsIn, BundleSample.entriesOf_toLines BundleSample.three_plain]
    rfl
  · rw [hashedFieldsIn, BundleSample.entriesOf_toLines BundleSample.doubled_plain]
    rfl

end FerrumGate.Audit
