import FerrumGate.Proto.Text
import FerrumGate.Serde.Record
import FerrumGate.Store.AuditLog

/-!
# Audit entries on a line

`AuditLogEntry` (`ferrum-proto/src/audit_log.rs`) as `serde_json` writes and reads it, one entry a
line. The metadata are one level deeper on the line than in the column of the row, so the line of an
entry whose metadata are nested as deep as the column allows is not read.

* **`fromLine_toLine`** : what is read from the line of an entry.
* `reread_portable` : which entries are read back from their line.
* `linesOf_toLines` : the lines of a body are the lines of its entries.
-/

namespace FerrumGate.Audit

open Serde

/-- What bundles take from libraries, besides what the log does: the two hashes of the Merkle tree
on the hex texts of digests, and the time as `chrono` writes it into JSON. -/
structure BundleEnv extends AuditEnv where
  /-- The hash of a zero byte and the bytes of a hex text, if it is one. -/
  leafHash : String → Option String
  /-- The hash of a one byte and two digests. -/
  nodeHash : String → String → String
  writeTime : Int → String
  parseTime : String → Option Int
  leafHash_content : ∀ text, (leafHash (sha256Hex text)).isSome = true
  parse_writeTime : ∀ t, parseTime (writeTime t) = some t

/-! ## Names in JSON -/

/-- The name that the derived `Serialize` writes. -/
def AuditAction.variant : AuditAction → String
  | .tokenCreate => "TokenCreate"
  | .tokenRevoke => "TokenRevoke"
  | .tokenRotate => "TokenRotate"
  | .policyBundleCreate => "PolicyBundleCreate"
  | .policyBundleActivate => "PolicyBundleActivate"
  | .policyBundleRollback => "PolicyBundleRollback"
  | .approvalResolve => "ApprovalResolve"
  | .quarantineResolve => "QuarantineResolve"
  | .executionCancel => "ExecutionCancel"
  | .authFailed => "AuthFailed"
  | .agentRegister => "AgentRegister"
  | .agentRevoke => "AgentRevoke"
  | .agentAuthFailed => "AgentAuthFailed"
  | .lifecycleOutboxRetry => "LifecycleOutboxRetry"
  | .lifecycleOutboxResolve => "LifecycleOutboxResolve"
  | .mfaEnroll => "MfaEnroll"
  | .mfaVerify => "MfaVerify"
  | .mfaDisable => "MfaDisable"
  | .mfaRotate => "MfaRotate"
  | .behavioralAnomaly => "BehavioralAnomaly"

def AuditAction.all : List AuditAction :=
  [.tokenCreate, .tokenRevoke, .tokenRotate, .policyBundleCreate, .policyBundleActivate,
    .policyBundleRollback, .approvalResolve, .quarantineResolve, .executionCancel, .authFailed,
    .agentRegister, .agentRevoke, .agentAuthFailed, .lifecycleOutboxRetry, .lifecycleOutboxResolve,
    .mfaEnroll, .mfaVerify, .mfaDisable, .mfaRotate, .behavioralAnomaly]

def AuditAction.ofVariant (name : String) : Option AuditAction :=
  AuditAction.all.find? fun action => action.variant = name

def AuditResourceType.variant : AuditResourceType → String
  | .token => "Token"
  | .policyBundle => "PolicyBundle"
  | .approval => "Approval"
  | .quarantineHold => "QuarantineHold"
  | .execution => "Execution"
  | .auth => "Auth"
  | .agent => "Agent"
  | .lifecycleOutbox => "LifecycleOutbox"
  | .mfaCredential => "MfaCredential"
  | .proposal => "Proposal"

def AuditResourceType.all : List AuditResourceType :=
  [.token, .policyBundle, .approval, .quarantineHold, .execution, .auth, .agent, .lifecycleOutbox,
    .mfaCredential, .proposal]

def AuditResourceType.ofVariant (name : String) : Option AuditResourceType :=
  AuditResourceType.all.find? fun type => type.variant = name

theorem AuditAction.ofVariant_variant (a : AuditAction) : ofVariant a.variant = some a := by
  cases a <;> decide

theorem AuditResourceType.ofVariant_variant (t : AuditResourceType) :
    ofVariant t.variant = some t := by
  cases t <;> decide

/-! ## Writing -/

/-- The values of an `i64`. -/
def isI64 (n : Int) : Prop := -9223372036854775808 ≤ n ∧ n < 9223372036854775808

instance (n : Int) : Decidable (isI64 n) := inferInstanceAs (Decidable (_ ∧ _))

/-- An integer of the program, which is one of 64 bits. -/
def jsonInt (n : Int) : Value :=
  if h : -9223372036854775808 ≤ n ∧ n < 18446744073709551616 then .int ⟨n, h⟩ else .null

/-- The fields that are written, in the order of the declaration. -/
def entryPairs (env : BundleEnv) (e : AuditLogEntry) : List (String × Value) :=
  [("id", jsonInt e.id), ("actor_id", .str e.actorId.toList),
    ("action", .str e.action.variant.toList), ("resource_type", .str e.resourceType.variant.toList),
    ("resource_id", .str e.resourceId.toList), ("result", .str e.result.toList)] ++
  (e.metadata.map fun d => ("metadata", d.value)).toList ++
  [("created_at", .str (env.writeTime e.createdAt).toList)] ++
  (e.contentHash.map fun hash => ("content_hash", Value.str hash.toList)).toList ++
  (e.previousHash.map fun hash => ("previous_hash", Value.str hash.toList)).toList

/-- `serde_json::to_string` of an entry. -/
def toLine (env : BundleEnv) (e : AuditLogEntry) : List Char :=
  (Value.obj (Fields.ofPairs (entryPairs env e))).write

/-! ## Reading -/

def readI64 : Value → Option Int
  | .int n => if n.val < 9223372036854775808 then some n.val else none
  | _ => none

def readText : Value → Option String
  | .str s => some (String.ofList s)
  | _ => none

/-- The name of a variant without fields, alone or as the key of `null`. -/
def readVariant : Value → Option String
  | .str s => some (String.ofList s)
  | .obj (.cons name .null .nil) => some (String.ofList name)
  | _ => none

def readDocument (v : Value) : Option Document := some ⟨v.sorted, sorted_ordered v⟩

/-- The derived `Deserialize`, for an object. -/
def entryOfFields (env : BundleEnv) (fields : Fields) : Option AuditLogEntry := do
  let id ← fields.required "id" readI64
  let actorId ← fields.required "actor_id" readText
  let action ← fields.required "action" fun v => (readVariant v).bind AuditAction.ofVariant
  let resourceType ← fields.required "resource_type" fun v =>
    (readVariant v).bind AuditResourceType.ofVariant
  let resourceId ← fields.required "resource_id" readText
  let result ← fields.required "result" readText
  let metadata ← fields.optional "metadata" readDocument
  let createdAt ← fields.required "created_at" fun v => (readText v).bind env.parseTime
  let contentHash ← fields.optional "content_hash" readText
  let previousHash ← fields.optional "previous_hash" readText
  return {
    id, actorId, action, resourceType, resourceId, result, metadata, createdAt, contentHash,
    previousHash }

def entryKeys : List String :=
  ["id", "actor_id", "action", "resource_type", "resource_id", "result", "metadata", "created_at",
    "content_hash", "previous_hash"]

/-- The same for an array, which holds the fields in the order of the declaration. -/
def entryOfItems (env : BundleEnv) (items : List Value) : Option AuditLogEntry :=
  if items.length = entryKeys.length then
    entryOfFields env (Fields.ofPairs (entryKeys.zip items))
  else none

/-- `serde_json::from_str` for an entry. -/
def fromLine (env : BundleEnv) (line : List Char) : Option AuditLogEntry :=
  match env.reader.readAll depthLimit line with
  | some (.obj fields) => entryOfFields env fields
  | some (.arr items) => entryOfItems env items.toList
  | _ => none

/-! ## What is read back -/

/-- The metadata as they are read from the line; `null` is read as none. -/
def rereadMetadata (r : Reader) : Option Document → Option (Option Document)
  | none => some none
  | some d =>
    (d.value.reread r (depthLimit - 1)).bind fun value => atMostOne readDocument [value]

/-- An entry as it is read from its line, if it is. -/
def AuditLogEntry.reread (r : Reader) (e : AuditLogEntry) : Option AuditLogEntry :=
  (rereadMetadata r e.metadata).map fun metadata => { e with metadata }

theorem atMostOne_text (hash : Option String) :
    atMostOne readText (hash.map fun h => Value.str h.toList).toList = some hash := by
  cases hash with
  | none => rfl
  | some h =>
    rw [Option.map_some, Option.toList_some, atMostOne_value (by simp), readText,
      String.ofList_toList, Option.map_some]

theorem readI64_jsonInt {n : Int} (h : isI64 n) : readI64 (jsonInt n) = some n := by
  have hwide : -9223372036854775808 ≤ n ∧ n < 18446744073709551616 := ⟨h.1, by have := h.2; omega⟩
  rw [jsonInt, dif_pos hwide, readI64, if_pos h.2]

theorem reread_jsonInt (r : Reader) (depth : Nat) (n : Int) :
    (jsonInt n).reread r depth = some (jsonInt n) := by
  rw [jsonInt]
  split_ifs <;> rw [Value.reread] <;> simp

/-- What stands under a key among the fields that are written. -/
theorem values_entryPairs (env : BundleEnv) (e : AuditLogEntry) :
    let fields := Fields.ofPairs (entryPairs env e)
    fields.values "id" = [jsonInt e.id] ∧ fields.values "actor_id" = [.str e.actorId.toList] ∧
    fields.values "action" = [.str e.action.variant.toList] ∧
    fields.values "resource_type" = [.str e.resourceType.variant.toList] ∧
    fields.values "resource_id" = [.str e.resourceId.toList] ∧
    fields.values "result" = [.str e.result.toList] ∧
    fields.values "metadata" = (e.metadata.map fun d => d.value).toList ∧
    fields.values "created_at" = [.str (env.writeTime e.createdAt).toList] ∧
    fields.values "content_hash" = (e.contentHash.map fun h => Value.str h.toList).toList ∧
    fields.values "previous_hash" = (e.previousHash.map fun h => Value.str h.toList).toList := by
  simp only [values_ofPairs, entryPairs]
  rcases e.metadata with _ | d <;> rcases e.contentHash with _ | h <;>
    rcases e.previousHash with _ | h' <;> simp

/-- Only the metadata can fail to be read. -/
theorem entryPairs_read (env : BundleEnv) (e : AuditLogEntry) (depth : Nat) :
    (∀ pair ∈ entryPairs env e, (pair.2.reread env.reader depth).isSome = true) ↔
      ∀ d, e.metadata = some d → (d.value.reread env.reader depth).isSome = true := by
  constructor
  · intro h d hd
    exact h ("metadata", d.value) (by simp [entryPairs, hd])
  · intro h pair hpair
    simp only [entryPairs, List.mem_append, List.mem_cons, List.not_mem_nil, or_false,
      Option.mem_toList, Option.map_eq_some_iff] at hpair
    rcases hpair with (((hpair | ⟨d, hd, rfl⟩) | rfl) | ⟨hash, -, rfl⟩) | ⟨hash, -, rfl⟩
    · rcases hpair with rfl | rfl | rfl | rfl | rfl | rfl <;>
        simp only [reread_jsonInt, reread_str, Option.isSome_some]
    · exact h d hd
    all_goals simp only [reread_str, Option.isSome_some]

/-- The fields after writing and reading, as an entry. -/
theorem entryOfFields_reread {env : BundleEnv} {e : AuditLogEntry} {fields : Fields}
    (hid : isI64 e.id)
    (h : (Fields.ofPairs (entryPairs env e)).reread env.reader (depthLimit - 1) = some fields) :
    entryOfFields env fields = e.reread env.reader := by
  have hstr : ∀ {key} {s : List Char}, (Fields.ofPairs (entryPairs env e)).values key = [.str s] →
      fields.values key = [.str s] := by
    intro key s hkey
    have hread := values_reread key _ h
    rw [hkey, List.mapM_cons, reread_str, List.mapM_nil] at hread
    exact (Option.some.inj hread).symm
  have hhash : ∀ {key} {hash : Option String}, (Fields.ofPairs (entryPairs env e)).values key =
      (hash.map fun h => Value.str h.toList).toList →
      fields.values key = (hash.map fun h => Value.str h.toList).toList := by
    intro key hash hkey
    cases hash with
    | some hash => exact hstr hkey
    | none =>
      have hread := values_reread key _ h
      rw [hkey] at hread
      exact (Option.some.inj hread).symm
  obtain ⟨h₁, h₂, h₃, h₄, h₅, h₆, h₇, h₈, h₉, h₁₀⟩ := values_entryPairs env e
  have hidValue : fields.values "id" = [jsonInt e.id] := by
    have hread := values_reread "id" _ h
    rw [h₁, List.mapM_cons, reread_jsonInt, List.mapM_nil] at hread
    exact (Option.some.inj hread).symm
  have hmetadata : atMostOne readDocument (fields.values "metadata") =
      rereadMetadata env.reader e.metadata := by
    have hread := values_reread "metadata" _ h
    rw [h₇] at hread
    cases hm : e.metadata with
    | none =>
      rw [hm] at hread
      rw [← Option.some.inj hread]
      rfl
    | some d =>
      rw [hm, Option.map_some, Option.toList_some, List.mapM_cons, List.mapM_nil] at hread
      cases hd : d.value.reread env.reader (depthLimit - 1) with
      | none =>
        rw [hd] at hread
        cases hread
      | some value =>
        rw [hd] at hread
        rw [← Option.some.inj hread, rereadMetadata, hd]
        rfl
  unfold entryOfFields Fields.required Fields.optional
  rw [hidValue, hstr h₂, hstr h₃, hstr h₄, hstr h₅, hstr h₆, hmetadata, hstr h₈, hhash h₉,
    hhash h₁₀, atMostOne_text, atMostOne_text]
  simp only [exactlyOne, readI64_jsonInt hid, readText, readVariant, String.ofList_toList,
    Option.bind_some, AuditAction.ofVariant_variant, AuditResourceType.ofVariant_variant,
    env.parse_writeTime]
  rw [AuditLogEntry.reread]
  cases rereadMetadata env.reader e.metadata <;> rfl

/-- **What is read from the line of an entry.** -/
theorem fromLine_toLine {env : BundleEnv} {e : AuditLogEntry} (hid : isI64 e.id) :
    fromLine env (toLine env e) = e.reread env.reader := by
  rw [fromLine, toLine, readAll_reread, Value.reread, if_neg (by decide)]
  cases hfields : (Fields.ofPairs (entryPairs env e)).reread env.reader (depthLimit - 1) with
  | some fields => exact entryOfFields_reread hid hfields
  | none =>
    -- then it is the metadata that could not be read
    have hsome : ¬ ∀ d, e.metadata = some d →
        (d.value.reread env.reader (depthLimit - 1)).isSome = true := by
      rw [← entryPairs_read, ← reread_ofPairs_isSome, hfields]
      exact Bool.false_ne_true
    push Not at hsome
    obtain ⟨d, hd, hnone⟩ := hsome
    rw [AuditLogEntry.reread, hd, rereadMetadata, Option.not_isSome_iff_eq_none.1 hnone]
    rfl

/-! ### Entries that are read back -/

/-- Metadata that are read back from a line: one level is the entry itself. -/
structure Portable (r : Reader) (metadata : Option Document) : Prop where
  kept : ∀ d, metadata = some d → d.value.Kept r
  depth : ∀ d, metadata = some d → d.value.depth + 1 < depthLimit

/-- Portable metadata are read as they are, but for `null`. -/
theorem reread_portable {r : Reader} {e : AuditLogEntry} (h : Portable r e.metadata) :
    ∃ e', e.reread r = some e' ∧ e'.hashed = e.hashed := by
  cases hm : e.metadata with
  | none =>
    refine ⟨e, ?_, rfl⟩
    rw [AuditLogEntry.reread, hm, rereadMetadata, Option.map_some, ← hm]
  | some d =>
    have hdepth : d.value.depth < depthLimit - 1 := by
      have := h.depth d hm
      omega
    have hread : d.value.reread r (depthLimit - 1) = some d.value :=
      reread_kept d.value (h.kept d hm) hdepth
    by_cases hnull : d.value = .null
    · refine ⟨{ e with metadata := none }, ?_, ?_⟩
      · rw [AuditLogEntry.reread, hm, rereadMetadata, hread, Option.bind_some, hnull, atMostOne_null,
          Option.map_some]
      · have hd : d = Document.null := Document.ext_value hnull
        simp only [AuditContent.hashed, hm, hd, Option.getD_none, Option.getD_some]
    · refine ⟨e, ?_, rfl⟩
      have hdocument : readDocument d.value = some d :=
        congrArg some (Document.ext_value (sorted_of_ordered d.value d.ordered))
      rw [AuditLogEntry.reread, hm, rereadMetadata, hread, Option.bind_some, atMostOne_value hnull,
        hdocument, Option.map_some, Option.map_some, ← hm]

theorem reread_fields {r : Reader} {e e' : AuditLogEntry} (h : e.reread r = some e') :
    e'.id = e.id ∧ e'.contentHash = e.contentHash ∧ e'.previousHash = e.previousHash := by
  obtain ⟨metadata, -, rfl⟩ := Option.map_eq_some_iff.1 h
  exact ⟨rfl, rfl, rfl⟩

/-- What stays of a list of entries that is written and read. -/
theorem mapM_reread {r : Reader} {entries entries' : List AuditLogEntry}
    (h : entries.mapM (·.reread r) = some entries') :
    List.Forall₂ (fun e e' => e.reread r = some e') entries entries' := by
  induction entries generalizing entries' with
  | nil =>
    cases h
    exact .nil
  | cons e entries ih =>
    simp only [List.mapM_cons, Option.bind_eq_bind, Option.bind_eq_some_iff, Option.pure_def] at h
    obtain ⟨e', he, rest, hrest, ⟨⟩⟩ := h
    exact .cons he (ih hrest)

/-! ## Bodies -/

/-- The lines of a body that are not blank, without the whitespace around them. -/
def bodyLines (body : List Char) : List (List Char) :=
  ((linesOf body).map trimmed).filter fun line => !line.isEmpty

/-- The body that `export_audit_logs` serves: every line ends. -/
def toLines (env : BundleEnv) (entries : List AuditLogEntry) : List Char :=
  entries.flatMap fun e => toLine env e ++ ['\n']

theorem toLine_plain (env : BundleEnv) (e : AuditLogEntry) :
    '\n' ∉ toLine env e ∧ '\r' ∉ toLine env e ∧ toLine env e ≠ [] ∧
      trimmed (toLine env e) = toLine env e := by
  have hprintable := write_printable (.obj (Fields.ofPairs (entryPairs env e)))
  obtain ⟨text, htext⟩ := write_object (Fields.ofPairs (entryPairs env e))
  refine ⟨hprintable.not_break, hprintable.not_return, ?_, ?_⟩
  · rw [toLine, htext]
    exact List.cons_ne_nil _ _
  · rw [toLine, htext]
    exact trimmed_eq rfl rfl

theorem linesOf_toLines (env : BundleEnv) (entries : List AuditLogEntry) :
    linesOf (toLines env entries) = entries.map (toLine env) := by
  unfold toLines
  induction entries with
  | nil => rfl
  | cons e entries ih =>
    obtain ⟨hbreak, hreturn, -, -⟩ := toLine_plain env e
    rw [List.flatMap_cons, List.append_assoc, List.singleton_append, linesOf_line hbreak hreturn, ih,
      List.map_cons]

/-- A body whose lines are those of entries has no others. -/
theorem bodyLines_eq {env : BundleEnv} {body : List Char} {entries : List AuditLogEntry}
    (h : linesOf body = entries.map (toLine env)) : bodyLines body = entries.map (toLine env) := by
  rw [bodyLines, h, List.map_map]
  have htrimmed : trimmed ∘ toLine env = toLine env := funext fun e => (toLine_plain env e).2.2.2
  rw [htrimmed, List.filter_eq_self]
  intro line hline
  obtain ⟨e, -, rfl⟩ := List.mem_map.1 hline
  simpa using (toLine_plain env e).2.2.1

end FerrumGate.Audit
