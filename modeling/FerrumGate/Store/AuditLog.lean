import FerrumGate.Chain.Linked
import FerrumGate.Interleave.Pool
import FerrumGate.Serde.Document
import FerrumGate.Store.World

/-!
# The audit log

`ferrum-proto/src/audit_log.rs` and `ferrum-store/src/{sqlite,postgres}/audit_log.rs`: the content
hash of an entry, the two statements of `append`, and `verify_chain`, which reads every row back.

* **`verifyChain_ok`** : what `verify_chain` accepts are logs whose rows can all be read, whose
  stored hashes are those of the rows' contents, and whose hashed rows are a chain.
* `contentHash_injective` : without collisions the content hash determines the hashed fields.
* `readsBack` : which entries are read back from the row they are stored in.
-/

namespace FerrumGate.Audit

open Interleave Serde

/-! ## Entries -/

inductive AuditAction where
  | tokenCreate
  | tokenRevoke
  | tokenRotate
  | policyBundleCreate
  | policyBundleActivate
  | policyBundleRollback
  | approvalResolve
  | quarantineResolve
  | executionCancel
  | authFailed
  | agentRegister
  | agentRevoke
  | agentAuthFailed
  | lifecycleOutboxRetry
  | lifecycleOutboxResolve
  | mfaEnroll
  | mfaVerify
  | mfaDisable
  | mfaRotate
  | behavioralAnomaly
  deriving DecidableEq

/-- `Display`. -/
def AuditAction.toText : AuditAction → String
  | .tokenCreate => "token_create"
  | .tokenRevoke => "token_revoke"
  | .tokenRotate => "token_rotate"
  | .policyBundleCreate => "policy_bundle_create"
  | .policyBundleActivate => "policy_bundle_activate"
  | .policyBundleRollback => "policy_bundle_rollback"
  | .approvalResolve => "approval_resolve"
  | .quarantineResolve => "quarantine_resolve"
  | .executionCancel => "execution_cancel"
  | .authFailed => "auth_failed"
  | .agentRegister => "agent_register"
  | .agentRevoke => "agent_revoke"
  | .agentAuthFailed => "agent_auth_failed"
  | .lifecycleOutboxRetry => "lifecycle_outbox_retry"
  | .lifecycleOutboxResolve => "lifecycle_outbox_resolve"
  | .mfaEnroll => "mfa_enroll"
  | .mfaVerify => "mfa_verify"
  | .mfaDisable => "mfa_disable"
  | .mfaRotate => "mfa_rotate"
  | .behavioralAnomaly => "behavioral_anomaly"

/-- `FromStr`. -/
def AuditAction.fromText (s : String) : Except String AuditAction :=
  if s = "token_create" then .ok .tokenCreate
  else if s = "token_revoke" then .ok .tokenRevoke
  else if s = "token_rotate" then .ok .tokenRotate
  else if s = "policy_bundle_create" then .ok .policyBundleCreate
  else if s = "policy_bundle_activate" then .ok .policyBundleActivate
  else if s = "policy_bundle_rollback" then .ok .policyBundleRollback
  else if s = "approval_resolve" then .ok .approvalResolve
  else if s = "quarantine_resolve" then .ok .quarantineResolve
  else if s = "execution_cancel" then .ok .executionCancel
  else if s = "auth_failed" then .ok .authFailed
  else if s = "agent_register" then .ok .agentRegister
  else if s = "agent_revoke" then .ok .agentRevoke
  else if s = "agent_auth_failed" then .ok .agentAuthFailed
  else if s = "lifecycle_outbox_retry" then .ok .lifecycleOutboxRetry
  else if s = "lifecycle_outbox_resolve" then .ok .lifecycleOutboxResolve
  else if s = "mfa_enroll" then .ok .mfaEnroll
  else if s = "mfa_verify" then .ok .mfaVerify
  else if s = "mfa_disable" then .ok .mfaDisable
  else if s = "mfa_rotate" then .ok .mfaRotate
  else if s = "behavioral_anomaly" then .ok .behavioralAnomaly
  else .error s!"invalid audit action: {s}"

inductive AuditResourceType where
  | token
  | policyBundle
  | approval
  | quarantineHold
  | execution
  | auth
  | agent
  | lifecycleOutbox
  | mfaCredential
  | proposal
  deriving DecidableEq

/-- `Display`. -/
def AuditResourceType.toText : AuditResourceType → String
  | .token => "token"
  | .policyBundle => "policy_bundle"
  | .approval => "approval"
  | .quarantineHold => "quarantine_hold"
  | .execution => "execution"
  | .auth => "auth"
  | .agent => "agent"
  | .lifecycleOutbox => "lifecycle_outbox"
  | .mfaCredential => "mfa_credential"
  | .proposal => "proposal"

/-- `FromStr`. -/
def AuditResourceType.fromText (s : String) : Except String AuditResourceType :=
  if s = "token" then .ok .token
  else if s = "policy_bundle" then .ok .policyBundle
  else if s = "approval" then .ok .approval
  else if s = "quarantine_hold" then .ok .quarantineHold
  else if s = "execution" then .ok .execution
  else if s = "auth" then .ok .auth
  else if s = "agent" then .ok .agent
  else if s = "lifecycle_outbox" then .ok .lifecycleOutbox
  else if s = "mfa_credential" then .ok .mfaCredential
  else if s = "proposal" then .ok .proposal
  else .error s!"invalid audit resource type: {s}"

theorem AuditAction.fromText_toText (a : AuditAction) : fromText a.toText = .ok a := by
  cases a <;> decide

theorem AuditResourceType.fromText_toText (t : AuditResourceType) : fromText t.toText = .ok t := by
  cases t <;> decide

/-- What an entry says. The time is in nanoseconds since the epoch. -/
structure AuditContent where
  actorId : String
  action : AuditAction
  resourceType : AuditResourceType
  resourceId : String
  result : String
  metadata : Option Document
  createdAt : Int

/-- An entry as it is read from the store. -/
structure AuditLogEntry extends AuditContent where
  id : Int
  contentHash : Option String
  previousHash : Option String

/-- The columns of a row of `audit_log` but its id. -/
structure AuditColumns where
  actorId : String
  action : String
  resourceType : String
  resourceId : String
  result : String
  metadata : Option String
  createdAt : String
  contentHash : Option String
  previousHash : Option String
  deriving DecidableEq

/-- A row of `audit_log`. -/
structure AuditRow extends AuditColumns where
  id : Int
  deriving DecidableEq

/-- Years that are written with four digits, from 0 to 9999. -/
def fourDigitYear (t : Int) : Prop :=
  -62167219200000000000 ≤ t ∧ t < 253402300800000000000

/-- What the log takes from libraries: SHA-256 in hex, RFC 3339 texts, and how `serde_json` rounds
floats and words its errors. -/
structure AuditEnv where
  sha256Hex : List Char → String
  toRfc3339 : Int → String
  parseRfc3339 : String → Except String Int
  reader : Reader
  jsonError : String → String
  toRfc3339_injective : Function.Injective toRfc3339
  /-- The parser takes years of four digits only, the printer writes more where it has to. -/
  parse_toRfc3339 : ∀ t, fourDigitYear t → parseRfc3339 (toRfc3339 t) = .ok t

/-! ## The content hash -/

/-- The value that is hashed; absent metadata are `null`. -/
def AuditContent.canonical (env : AuditEnv) (e : AuditContent) : Value :=
  .obj
    (.cons "action".toList (.str e.action.toText.toList)
    (.cons "actor_id".toList (.str e.actorId.toList)
    (.cons "created_at".toList (.str (env.toRfc3339 e.createdAt).toList)
    (.cons "metadata".toList (e.metadata.getD Document.null).value
    (.cons "resource_id".toList (.str e.resourceId.toList)
    (.cons "resource_type".toList (.str e.resourceType.toText.toList)
    (.cons "result".toList (.str e.result.toList)
    .nil)))))))

/-- `compute_content_hash`. -/
def computeContentHash (env : AuditEnv) (e : AuditContent) : String :=
  env.sha256Hex (e.canonical env).write

/-- The same entry as far as the hash goes: absent metadata and `null` are one. -/
def AuditContent.hashed (e : AuditContent) : AuditContent :=
  { e with metadata := some (e.metadata.getD Document.null) }

/-! ## Rows -/

/-- The column `metadata`, parsed. -/
def readMetadata (env : AuditEnv) : Option String → Except StoreError (Option Document)
  | none => .ok none
  | some m =>
    match env.reader.fromStr m.toList with
    | some d => .ok (some d)
    | none => .error (.other ("invalid metadata: " ++ env.jsonError m))

/-- The columns that have to be parsed, in the order in which `row_to_entry` does, and those that
are taken as they are. -/
def readContent (env : AuditEnv) (row : AuditColumns) : Except StoreError AuditContent := do
  let action ← (AuditAction.fromText row.action).mapError fun e =>
    .other s!"invalid audit action in database: {e}"
  let resourceType ← (AuditResourceType.fromText row.resourceType).mapError fun e =>
    .other s!"invalid audit resource type in database: {e}"
  let createdAt ← (env.parseRfc3339 row.createdAt).mapError fun e =>
    .other s!"invalid created_at: {e}"
  let metadata ← readMetadata env row.metadata
  return {
    actorId := row.actorId, action, resourceType, resourceId := row.resourceId,
    result := row.result, metadata, createdAt }

/-- `row_to_entry`. -/
def rowToEntry (env : AuditEnv) (row : AuditRow) : Except StoreError AuditLogEntry := do
  let content ← readContent env row.toAuditColumns
  return { content with
    id := row.id, contentHash := row.contentHash, previousHash := row.previousHash }

/-- What `append` stores for an entry, with the hash it links to. -/
def entryColumns (env : AuditEnv) (e : AuditContent) (previousHash : Option String) :
    AuditColumns where
  actorId := e.actorId
  action := e.action.toText
  resourceType := e.resourceType.toText
  resourceId := e.resourceId
  result := e.result
  metadata := e.metadata.map fun d => String.ofList d.toText
  createdAt := env.toRfc3339 e.createdAt
  contentHash := some (computeContentHash env e)
  previousHash := previousHash

/-! ## Statements -/

/-- The table `audit_log`, its rows in the order of their ids. -/
structure AuditTable where
  rows : List AuditRow
  /-- The counter behind `AUTOINCREMENT`. -/
  lastId : Int
  deriving DecidableEq

/-- The statements of `append`. -/
inductive AuditOp where
  /-- `SELECT content_hash … WHERE content_hash IS NOT NULL ORDER BY id DESC LIMIT 1` -/
  | selectLatestHash
  | insert (columns : AuditColumns)

@[reducible] def AuditOp.Result : AuditOp → Type
  | .selectLatestHash => Except StoreError (Option String)
  | .insert _ => Except StoreError Unit

/-- The newest content hash. -/
def latestHash (rows : List AuditRow) : Option String :=
  (rows.filterMap fun row => row.contentHash).getLast?

def AuditTable.insert (t : AuditTable) (columns : AuditColumns) : AuditTable where
  rows := t.rows ++ [{ columns with id := t.lastId + 1 }]
  lastId := t.lastId + 1

/-- One statement; the input says whether the store fails. -/
def execAudit : (o : AuditOp) → Bool → AuditTable → o.Result × AuditTable
  | .selectLatestHash, fails, t => (if fails then .error .database else .ok (latestHash t.rows), t)
  | .insert columns, fails, t =>
    if fails then (.error .database, t) else (.ok (), t.insert columns)

/-- `append`. -/
def append (env : AuditEnv) (e : AuditContent) :
    Prog AuditOp AuditOp.Result (Except StoreError Unit) :=
  .perform .selectLatestHash fun
    | .error err => .pure (.error err)
    | .ok previousHash => .perform (.insert (entryColumns env e previousHash)) .pure

/-! ## Verification -/

/-- What is wrong with a hashed row, if anything: its content, or what it names as the hash before
it. -/
def checkEntry (env : AuditEnv) (prior : Option String) (entry : AuditLogEntry)
    (storedHash : String) : Except StoreError Unit :=
  let recomputed := computeContentHash env entry.toAuditContent
  if storedHash ≠ recomputed then
    .error (.invalidState (s!"audit log entry {entry.id} has tampered content: " ++
      s!"stored content_hash '{storedHash}' != recomputed '{recomputed}'"))
  else
    match prior with
    | some prior =>
      match entry.previousHash with
      | none =>
        .error (.invalidState
          s!"audit log entry {entry.id} has content_hash but missing previous_hash")
      | some prev =>
        if prev ≠ prior then
          .error (.invalidState (s!"audit log entry {entry.id} has broken chain: " ++
            s!"previous_hash '{prev}' != prior content_hash '{prior}'"))
        else .ok ()
    | none =>
      if entry.previousHash.isSome then
        .error (.invalidState
          s!"audit log entry {entry.id} is the first hashed entry but has previous_hash")
      else .ok ()

/-- The loop of `verify_chain`, with the last content hash seen. -/
def verifyRows (env : AuditEnv) (prior : Option String) : List AuditRow → Except StoreError Unit
  | [] => .ok ()
  | row :: rows => do
    let entry ← rowToEntry env row
    match entry.contentHash with
    -- a legacy row: the chain goes on behind it
    | none => verifyRows env prior rows
    | some storedHash =>
      checkEntry env prior entry storedHash
      verifyRows env (some storedHash) rows

/-- **`verify_chain`**. -/
def verifyChain (env : AuditEnv) (rows : List AuditRow) : Except StoreError Unit :=
  verifyRows env none rows

/-! ## What is accepted -/

/-- The links of the hashed rows. -/
def links (rows : List AuditRow) : List (Chain.Link String) :=
  rows.filterMap fun row => row.contentHash.map fun hash => ⟨hash, row.previousHash⟩

/-- The row can be read, and a stored hash is that of its content. -/
def Sound (env : AuditEnv) (row : AuditColumns) : Prop :=
  ∃ content, readContent env row = .ok content ∧
    ∀ hash, row.contentHash = some hash → hash = computeContentHash env content

theorem links_append (rows rows' : List AuditRow) :
    links (rows ++ rows') = links rows ++ links rows' := List.filterMap_append

variable {row : AuditRow}

theorem links_hashed {hash : String} (h : row.contentHash = some hash) (rows : List AuditRow) :
    links (row :: rows) = ⟨hash, row.previousHash⟩ :: links rows := by
  rw [links, List.filterMap_cons, h]
  rfl

theorem links_legacy (h : row.contentHash = none) (rows : List AuditRow) :
    links (row :: rows) = links rows := by
  rw [links, List.filterMap_cons, h]
  rfl

variable {env : AuditEnv}

theorem checkEntry_ok {prior : Option String} {entry : AuditLogEntry} {hash : String} :
    checkEntry env prior entry hash = .ok () ↔
      hash = computeContentHash env entry.toAuditContent ∧ entry.previousHash = prior := by
  unfold checkEntry
  by_cases hhash : hash = computeContentHash env entry.toAuditContent
  · simp only [ne_eq, ← hhash, not_true_eq_false, if_false, true_and]
    cases prior with
    | none => cases entry.previousHash <;> simp
    | some prior =>
      cases entry.previousHash with
      | none => simp
      | some prev => by_cases hprev : prev = prior <;> simp [hprev]
  · simp [hhash]

variable {rows : List AuditRow}

/-- The loop accepts what it reads as a chain from the hash it carries. -/
theorem verifyRows_ok {prior : Option String} :
    verifyRows env prior rows = .ok () ↔
      (∀ row ∈ rows, Sound env row.toAuditColumns) ∧ Chain.Linked prior (links rows) := by
  induction rows generalizing prior with
  | nil => simp [verifyRows, links, Chain.Linked]
  | cons row rows ih =>
    rw [List.forall_mem_cons, verifyRows, rowToEntry]
    cases hread : readContent env row.toAuditColumns with
    | error e =>
      constructor
      · intro h
        cases h
      · rintro ⟨⟨⟨content, hcontent, -⟩, -⟩, -⟩
        rw [hread] at hcontent
        cases hcontent
    | ok content =>
      have hsound : Sound env row.toAuditColumns ↔ ∀ hash, row.contentHash = some hash →
          hash = computeContentHash env content := by
        constructor
        · rintro ⟨content', hcontent, h⟩
          rw [hread] at hcontent
          cases hcontent
          exact h
        · exact fun h => ⟨content, hread, h⟩
      rw [hsound]
      change (match row.contentHash with
        | none => verifyRows env prior rows
        | some storedHash => _) = _ ↔ _
      cases hhash : row.contentHash with
      | none =>
        rw [links_legacy hhash]
        simp [ih]
      | some hash =>
        rw [links_hashed hhash, Chain.Linked]
        simp only
        generalize hentry : AuditLogEntry.mk content row.id (some hash) row.previousHash = entry
        have hcheck : checkEntry env prior entry hash = .ok () ↔
            hash = computeContentHash env content ∧ row.previousHash = prior := by
          rw [checkEntry_ok, ← hentry]
        cases hresult : checkEntry env prior entry hash with
        | error e =>
          constructor
          · intro h
            cases h
          · rintro ⟨⟨h, -⟩, hprior, -⟩
            rw [hcheck.2 ⟨h hash rfl, hprior⟩] at hresult
            cases hresult
        | ok u =>
          obtain ⟨hcomputed, hprior⟩ := hcheck.1 hresult
          change verifyRows env (some hash) rows = _ ↔ _
          rw [ih]
          simp [hcomputed, hprior]

/-- **What is accepted**: rows that can be read, with the hashes of their contents, in a chain. -/
theorem verifyChain_ok :
    verifyChain env rows = .ok () ↔
      (∀ row ∈ rows, Sound env row.toAuditColumns) ∧ Chain.Linked none (links rows) :=
  verifyRows_ok

theorem links_hashes (rows : List AuditRow) :
    (links rows).map Chain.Link.hash = rows.filterMap fun row => row.contentHash := by
  rw [links, List.map_filterMap]
  congr 1
  funext row
  cases row.contentHash <;> rfl

theorem lastHash_links (prior : Option String) (rows : List AuditRow) :
    Chain.lastHash prior (links rows) = (latestHash rows).or prior := by
  rw [Chain.lastHash_eq, links_hashes, latestHash]

theorem latestHash_eq (rows : List AuditRow) :
    latestHash rows = Chain.lastHash none (links rows) := by
  rw [lastHash_links, Option.or_none]

/-- A hashed row at the end of the log. -/
theorem verifyChain_concat (hhash : row.contentHash.isSome = true) :
    verifyChain env (rows ++ [row]) = .ok () ↔
      verifyChain env rows = .ok () ∧ row.previousHash = latestHash rows ∧
        Sound env row.toAuditColumns := by
  obtain ⟨hash, hhash⟩ := Option.isSome_iff_exists.1 hhash
  rw [verifyChain_ok, verifyChain_ok, links_append, Chain.linked_append, links_hashed hhash,
    latestHash_eq]
  simp only [List.forall_mem_append, List.forall_mem_singleton, Chain.Linked, links,
    List.filterMap_nil, and_true]
  tauto

/-! ## What the hash covers -/

variable {e : AuditContent}

/-- The hash sees the hashed fields only. -/
theorem contentHash_hashed (env : AuditEnv) {e' : AuditContent} (h : e.hashed = e'.hashed) :
    computeContentHash env e = computeContentHash env e' := by
  have hcanonical : ∀ x : AuditContent, x.hashed.canonical env = x.canonical env := fun _ => rfl
  rw [computeContentHash, computeContentHash, ← hcanonical e, h, hcanonical e']

/-- Without collisions, the content hash stands for the hashed fields. -/
theorem contentHash_injective (hcollision : Function.Injective env.sha256Hex) {e' : AuditContent} :
    computeContentHash env e = computeContentHash env e' ↔ e.hashed = e'.hashed := by
  constructor
  · intro h
    have hcanonical : e.canonical env = e'.canonical env := write_injective (hcollision h)
    simp only [AuditContent.canonical, Value.obj.injEq, Fields.cons.injEq, Value.str.injEq,
      String.toList_inj, true_and, and_true] at hcanonical
    obtain ⟨haction, hactor, hcreated, hmetadata, hid, htype, hresult⟩ := hcanonical
    have haction' : e.action = e'.action := by
      have := AuditAction.fromText_toText e.action
      rw [haction, AuditAction.fromText_toText] at this
      exact (Except.ok.inj this).symm
    have htype' : e.resourceType = e'.resourceType := by
      have := AuditResourceType.fromText_toText e.resourceType
      rw [htype, AuditResourceType.fromText_toText] at this
      exact (Except.ok.inj this).symm
    simp only [AuditContent.hashed, AuditContent.mk.injEq, Option.some.injEq]
    exact ⟨hactor, haction', htype', hid, hresult, Document.ext_value hmetadata,
      env.toRfc3339_injective hcreated⟩
  · exact contentHash_hashed env

/-! ## What is read back -/

/-- An entry whose metadata and time are read back: floats are taken for what they are, nothing is
nested deeper than the reader goes, and the year has four digits. -/
structure Plain (env : AuditEnv) (e : AuditContent) : Prop where
  year : fourDigitYear e.createdAt
  kept : ∀ d, e.metadata = some d → d.value.Kept env.reader
  depth : ∀ d, e.metadata = some d → d.value.depth < depthLimit

/-- The row of a plain entry is read as the entry. -/
theorem readContent_columns (h : Plain env e) (previousHash : Option String) :
    readContent env (entryColumns env e previousHash) = .ok e := by
  have hmetadata : readMetadata env (e.metadata.map fun d => String.ofList d.toText) =
      .ok e.metadata := by
    cases hm : e.metadata with
    | none => rfl
    | some d =>
      rw [Option.map_some, readMetadata, String.toList_ofList,
        fromStr_toText env.reader (h.kept d hm) (h.depth d hm)]
  unfold readContent
  simp only [entryColumns, AuditAction.fromText_toText, AuditResourceType.fromText_toText,
    env.parse_toRfc3339 _ h.year, hmetadata]
  rfl

/-- Metadata that the reader refuses make the row unreadable. -/
theorem readContent_refused {d : Document} (hyear : fourDigitYear e.createdAt)
    (hmetadata : e.metadata = some d) (hrefused : env.reader.fromStr d.toText = none)
    (previousHash : Option String) :
    readContent env (entryColumns env e previousHash) =
      .error (.other ("invalid metadata: " ++ env.jsonError (String.ofList d.toText))) := by
  have hread : readMetadata env (some (String.ofList d.toText)) =
      .error (.other ("invalid metadata: " ++ env.jsonError (String.ofList d.toText))) := by
    rw [readMetadata, String.toList_ofList, hrefused]
  unfold readContent
  simp only [entryColumns, AuditAction.fromText_toText, AuditResourceType.fromText_toText,
    env.parse_toRfc3339 _ hyear, hmetadata, Option.map_some, hread]
  rfl

/-- What an entry is stored as can be read, and has the hash of what is read. -/
def ReadsBack (env : AuditEnv) (e : AuditContent) : Prop := Sound env (entryColumns env e none)

theorem readsBack (h : Plain env e) : ReadsBack env e := by
  refine ⟨e, readContent_columns h none, ?_⟩
  rintro hash ⟨⟩
  rfl

end FerrumGate.Audit
