import FerrumGate.Proto.Types
import FerrumGate.Serde.Alike

/-!
# The digest of a proposal

`canonical_action_digest` of `ferrum-proto/src/execution.rs`, to which approvals are bound: eight
fields of a proposal as one JSON object, with the keys of all objects in order, written and hashed.

The arguments are kept as the text will have them, numbers included; in the other modules a proposal
carries them as a tree. Of the remaining fields those are kept that the choice of the adapter reads.

* **`digest_eq_iff`** : when two proposals have the same digest.
-/

namespace FerrumGate.Digest

open Serde

inductive RiskTier where
  | low | medium | high | critical
  deriving DecidableEq

/-- A `serde_json::Value`: no object has a key twice. -/
structure Arguments where
  value : Value
  distinct : value.Distinct

structure ActionProposal where
  proposalId : ProposalId
  intentId : IntentId
  toolName : String
  serverName : String
  rawArguments : Arguments
  expectedEffect : String
  estimatedRisk : RiskTier
  requestedRollbackClass : RollbackClass
  metadata : JsonMap

/-- The hash, and how an id is printed. -/
structure DigestEnv where
  /-- The SHA-256 of a text in UTF-8, in hex. -/
  sha256Hex : List Char → String
  uuidText : Nat → String
  uuidText_injective : Function.Injective uuidText

/-- How `serde` writes a tier. -/
def RiskTier.text : RiskTier → String
  | .low => "Low"
  | .medium => "Medium"
  | .high => "High"
  | .critical => "Critical"

/-- How `serde` writes a class. -/
def classText : RollbackClass → String
  | .r0NativeReversible => "R0NativeReversible"
  | .r1SnapshotRecoverable => "R1SnapshotRecoverable"
  | .r2Compensatable => "R2Compensatable"
  | .r3IrreversibleHighConsequence => "R3IrreversibleHighConsequence"

theorem RiskTier.text_injective : Function.Injective RiskTier.text := by
  intro a b
  cases a <;> cases b <;> decide

theorem classText_injective : Function.Injective classText := by
  intro a b
  cases a <;> cases b <;> decide

/-- `normalize_json_value`: every object with its keys in order. -/
def normalizeJsonValue (value : Value) : Value := value.sorted

variable (env : DigestEnv)

/-- What is hashed, before its keys are put in order. -/
def digestInput (p : ActionProposal) : Value :=
  .obj
    (.cons "intent_id".toList (.str (env.uuidText p.intentId.uuid).toList)
    (.cons "proposal_id".toList (.str (env.uuidText p.proposalId.uuid).toList)
    (.cons "tool_name".toList (.str p.toolName.toList)
    (.cons "server_name".toList (.str p.serverName.toList)
    (.cons "raw_arguments".toList (normalizeJsonValue p.rawArguments.value)
    (.cons "expected_effect".toList (.str p.expectedEffect.toList)
    (.cons "estimated_risk".toList (.str p.estimatedRisk.text.toList)
    (.cons "requested_rollback_class".toList (.str (classText p.requestedRollbackClass).toList)
    .nil))))))))

/-- **`canonical_action_digest`**. -/
def canonicalActionDigest (p : ActionProposal) : String :=
  env.sha256Hex (normalizeJsonValue (digestInput env p)).write

/-- Two proposals agree on the fields that the digest covers; the arguments, up to the order of
keys. -/
structure SameAction (p q : ActionProposal) : Prop where
  intentId : p.intentId = q.intentId
  proposalId : p.proposalId = q.proposalId
  toolName : p.toolName = q.toolName
  serverName : p.serverName = q.serverName
  rawArguments : p.rawArguments.value.Alike q.rawArguments.value
  expectedEffect : p.expectedEffect = q.expectedEffect
  estimatedRisk : p.estimatedRisk = q.estimatedRisk
  requestedRollbackClass : p.requestedRollbackClass = q.requestedRollbackClass

variable {env} {p q : ActionProposal}

theorem normalize_idem (v : Value) : (normalizeJsonValue v).sorted = normalizeJsonValue v :=
  sorted_of_ordered _ (sorted_ordered v)

/-- The hashed object has its keys in this order. -/
theorem normalize_digestInput (env : DigestEnv) (p : ActionProposal) :
    normalizeJsonValue (digestInput env p) =
      .obj
        (.cons "estimated_risk".toList (.str p.estimatedRisk.text.toList)
        (.cons "expected_effect".toList (.str p.expectedEffect.toList)
        (.cons "intent_id".toList (.str (env.uuidText p.intentId.uuid).toList)
        (.cons "proposal_id".toList (.str (env.uuidText p.proposalId.uuid).toList)
        (.cons "raw_arguments".toList (normalizeJsonValue p.rawArguments.value)
        (.cons "requested_rollback_class".toList
          (.str (classText p.requestedRollbackClass).toList)
        (.cons "server_name".toList (.str p.serverName.toList)
        (.cons "tool_name".toList (.str p.toolName.toList)
        .nil)))))))) := by
  rw [← normalize_idem p.rawArguments.value]
  rfl

/-- Without collisions, the digest stands for what is hashed. -/
theorem digest_eq_iff_normalize_eq (hcollision : Function.Injective env.sha256Hex) :
    canonicalActionDigest env p = canonicalActionDigest env q ↔
      normalizeJsonValue (digestInput env p) = normalizeJsonValue (digestInput env q) :=
  (hcollision.comp write_injective).eq_iff

/-- The digest fixes the tool. -/
theorem toolName_of_digest (hcollision : Function.Injective env.sha256Hex)
    (hdigest : canonicalActionDigest env p = canonicalActionDigest env q) :
    p.toolName = q.toolName := by
  have hfields := (digest_eq_iff_normalize_eq hcollision).mp hdigest
  rw [normalize_digestInput, normalize_digestInput] at hfields
  simp only [Value.obj.injEq, Fields.cons.injEq, Value.str.injEq, String.toList_inj] at hfields
  tauto

/-- **What the digest stands for.** Without collisions, two proposals have the same digest exactly
if they agree on every field it covers. -/
theorem digest_eq_iff (hcollision : Function.Injective env.sha256Hex) :
    canonicalActionDigest env p = canonicalActionDigest env q ↔ SameAction p q := by
  have harguments : normalizeJsonValue p.rawArguments.value =
      normalizeJsonValue q.rawArguments.value ↔ p.rawArguments.value.Alike q.rawArguments.value :=
    sorted_eq_iff p.rawArguments.distinct q.rawArguments.distinct
  rw [digest_eq_iff_normalize_eq hcollision, normalize_digestInput, normalize_digestInput]
  simp only [Value.obj.injEq, Fields.cons.injEq, Value.str.injEq, String.toList_inj, true_and,
    and_true, harguments, RiskTier.text_injective.eq_iff, classText_injective.eq_iff,
    env.uuidText_injective.eq_iff]
  constructor
  · rintro ⟨hrisk, heffect, hintent, hproposal, hargs, hclass, hserver, htool⟩
    refine ⟨?_, ?_, htool, hserver, hargs, heffect, hrisk, hclass⟩
    · exact congrArg IntentId.mk hintent
    · exact congrArg ProposalId.mk hproposal
  · intro h
    exact ⟨h.estimatedRisk, h.expectedEffect, congrArg IntentId.uuid h.intentId,
      congrArg ProposalId.uuid h.proposalId, h.rawArguments, h.requestedRollbackClass, h.serverName,
      h.toolName⟩

namespace Sample

/-- The hash of a text is the text. -/
def plain : DigestEnv where
  sha256Hex := String.ofList
  uuidText n := String.ofList (List.replicate n 'x')
  uuidText_injective m n h := by
    have hlength := congrArg List.length (String.ofList_injective h)
    simpa using hlength

/-- A proposal with these arguments. -/
def proposal (fields : Fields) (h : (Value.obj fields).Distinct) : ActionProposal :=
  ⟨⟨1⟩, ⟨2⟩, "git_push", "git", ⟨.obj fields, h⟩, "push", .low, .r0NativeReversible, []⟩

def remote (rest : Fields) : Fields := .cons ['r'] (.str ['o']) rest

def branch (rest : Fields) : Fields := .cons ['b'] (.str ['m']) rest

theorem distinct_pair : (Value.obj (remote (branch .nil))).Distinct ∧
    (Value.obj (branch (remote .nil))).Distinct := by
  simp [remote, branch, Value.Distinct, Fields.Distinct, Fields.keys]

end Sample

/-- Two proposals whose arguments are in another order. -/
theorem digest_of_swapped :
    canonicalActionDigest Sample.plain
        (Sample.proposal (Sample.remote (Sample.branch .nil)) Sample.distinct_pair.1) =
      canonicalActionDigest Sample.plain
        (Sample.proposal (Sample.branch (Sample.remote .nil)) Sample.distinct_pair.2) :=
  (digest_eq_iff fun _ _ h => String.ofList_injective h).mpr
    ⟨rfl, rfl, rfl, rfl, .obj .swap, rfl, rfl, rfl⟩

end FerrumGate.Digest
