import FerrumGate.Pdp.Engine
import Mathlib.Data.List.Sort

/-!
# Policy bundles

`ferrum-pdp/src/{matchers, bundle_engine}.rs` and the evaluation of the gateway
(`policy_eval.rs`, `evaluate_proposal_decision` of `proposals.rs`).

A bundle is a list of rules with priorities. The rules that match decide by groups of one priority,
the highest first; within a group the strictest decision counts. The engine adds its own invariant
rules to each bundle, the gateway evaluates the active bundles of the store as they are.

* `evaluateBundleRules_none` : a bundle decides nothing when none of its rules matches.
* **`evaluateBundleRules_some`** : otherwise it decides as the strictest of the matching rules of
  the highest priority.
* **`written_threshold_iff`** : a threshold written in YAML means what is written exactly up to 255,
  or on scores below its low byte; `threshold_wraps` takes 256 as no threshold at all.
-/

namespace FerrumGate

/-! ## Rules -/

/-- An `i32`. -/
structure I32 where
  val : Int
  inRange : -2147483648 ≤ val ∧ val ≤ 2147483647
  deriving DecidableEq

/-- `i32::MAX`. -/
def I32.max : I32 := ⟨2147483647, by decide⟩

/-- `i32::MAX - 1`. -/
def I32.belowMax : I32 := ⟨2147483646, by decide⟩

/-- A value in the YAML of a matcher. -/
inductive YamlValue where
  | number (n : Nat)
  | text (s : String)
  /-- Any other value, as its JSON text. -/
  | other (json : String)
  deriving DecidableEq

inductive Matcher where
  | scopeMismatch
  | taintAtLeast (value : UInt8)
  | actionIsMutation
  | rollbackClassEquals (value : String)
  | actionTypeEquals (value : String)
  | criticalRiskNoApproval
  | approvalModeEquals (value : String)
  | unknown (matcherType : String) (value : Option YamlValue)
  deriving DecidableEq

structure PolicyRule where
  id : String
  description : String
  decision : Decision
  priority : I32
  matchers : List Matcher
  deriving DecidableEq

structure PolicyBundle where
  bundleId : String
  rules : List PolicyRule
  deriving DecidableEq

/-- `decision_strictness_rank`. -/
def decisionStrictnessRank : Decision → Nat
  | .allow => 0
  | .allowDraftOnly => 1
  | .requireApproval => 2
  | .quarantine => 3
  | .deny => 4

/-- `stricter_decision`. -/
def stricterDecision (a b : Decision) : Decision :=
  if decisionStrictnessRank b ≤ decisionStrictnessRank a then a else b

theorem rank_le_stricter_left (a b : Decision) :
    decisionStrictnessRank a ≤ decisionStrictnessRank (stricterDecision a b) := by
  rw [stricterDecision]
  split <;> omega

theorem rank_le_stricter_right (a b : Decision) :
    decisionStrictnessRank b ≤ decisionStrictnessRank (stricterDecision a b) := by
  rw [stricterDecision]
  split <;> omega

theorem stricterDecision_mem (a b : Decision) :
    stricterDecision a b = a ∨ stricterDecision a b = b := by
  rw [stricterDecision]
  split
  · exact .inl rfl
  · exact .inr rfl

theorem rank_injective : Function.Injective decisionStrictnessRank := by
  intro a b h
  cases a <;> cases b <;> first | rfl | cases h

/-- Nothing is stricter than `Deny`. -/
theorem eq_deny_of_rank {d : Decision} (h : decisionStrictnessRank .deny ≤ decisionStrictnessRank d) :
    d = .deny := by
  cases d <;> first | rfl | exact absurd h (by decide)

/-- Only `Allow` is as lax as `Allow`. -/
theorem eq_allow_of_rank {d : Decision} (h : decisionStrictnessRank d ≤ decisionStrictnessRank .allow) :
    d = .allow := by
  cases d <;> first | rfl | exact absurd h (by decide)

section Evaluation

variable (context : PolicyContext)

/-- `evaluate_matcher`. -/
def evaluateMatcher : Matcher → Bool
  | .scopeMismatch => context.scopeMismatch
  | .taintAtLeast value => value ≤ context.trust.taintScore
  | .actionIsMutation => context.proposal.isMutation
  | .rollbackClassEquals value => context.proposal.requestedRollbackClass.debug = value
  | .actionTypeEquals value => context.inferredEffect.debug = value
  | .criticalRiskNoApproval => context.criticalRiskNoApproval
  | .approvalModeEquals value => context.intent.approvalMode.debug = value
  | .unknown _ _ => false

/-- `evaluate_rule_matchers`. -/
def evaluateRuleMatchers (rule : PolicyRule) : Bool :=
  rule.matchers.all (evaluateMatcher context)

/-- What a bundle has decided so far: the ids of the rules, the decision, the reason. -/
abbrev RuleMatch := String × Decision × String

/-- A rule that matches is added to what was decided in its group. -/
def combine (bundleId : String) (rule : PolicyRule) : Option RuleMatch → RuleMatch
  | some (existingId, existing, _) =>
    (s!"{existingId}+policy_bundle:{bundleId}:{rule.id}", stricterDecision existing rule.decision,
      s!"policy bundle {bundleId} matched rule {rule.id}: {rule.description}")
  | none =>
    (s!"policy_bundle:{bundleId}:{rule.id}", rule.decision,
      s!"policy bundle {bundleId} matched rule {rule.id}: {rule.description}")

/-- The loop over the sorted rules. It ends at the first rule of a lower priority than the last
match. -/
def scanRules (bundleId : String) :
    List PolicyRule → Option RuleMatch → Option I32 → Option RuleMatch
  | [], result, _ => result
  | rule :: rest, result, current =>
    if current.any (· ≠ rule.priority) && result.isSome then result
    else if evaluateRuleMatchers context rule then
      scanRules bundleId rest (some (combine bundleId rule result)) (some rule.priority)
    else scanRules bundleId rest result current

/-- Before in the order of evaluation: `sort_by_key` with the reversed priority, which is stable. -/
def Earlier (a b : PolicyRule) : Prop := b.priority.val ≤ a.priority.val

instance : DecidableRel Earlier := fun _ _ => inferInstanceAs (Decidable (_ ≤ _))

instance : Std.Total Earlier := ⟨fun a b => (le_total b.priority.val a.priority.val)⟩

instance : IsTrans PolicyRule Earlier := ⟨fun _ _ _ hab hbc => le_trans hbc hab⟩

/-- **`evaluate_bundle_rules`**. -/
def evaluateBundleRules (bundle : PolicyBundle) : Option RuleMatch :=
  scanRules context bundle.bundleId (bundle.rules.insertionSort Earlier)
    none none

end Evaluation

/-! ## Which rules decide -/

/-- A rule that matches, and no rule of a higher priority does. -/
structure Deciding (context : PolicyContext) (rules : List PolicyRule) (rule : PolicyRule) : Prop where
  mem : rule ∈ rules
  matched : evaluateRuleMatchers context rule = true
  top : ∀ other ∈ rules, evaluateRuleMatchers context other = true →
    other.priority.val ≤ rule.priority.val

section Deciding

variable (context : PolicyContext)

theorem I32.ext_val {a b : I32} (h : a.val = b.val) : a = b := by
  cases a
  cases b
  cases h
  rfl

/-- Within a group: the loop goes on over the rules of the same priority, and keeps the strictest
decision. -/
theorem scanRules_group (bundleId : String) {rules : List PolicyRule}
    (hsorted : rules.Pairwise Earlier) (found : RuleMatch) (p : I32)
    (hle : ∀ rule ∈ rules, rule.priority.val ≤ p.val) :
    ∃ result, scanRules context bundleId rules (some found) (some p) =
        some result ∧
      decisionStrictnessRank found.2.1 ≤ decisionStrictnessRank result.2.1 ∧
      (∀ rule ∈ rules, evaluateRuleMatchers context rule = true →
        rule.priority = p → decisionStrictnessRank rule.decision ≤
          decisionStrictnessRank result.2.1) ∧
      (result.2.1 = found.2.1 ∨ ∃ rule ∈ rules, rule.priority = p ∧
        evaluateRuleMatchers context rule = true ∧
        result.2.1 = rule.decision) := by
  induction rules generalizing found with
  | nil => exact ⟨found, rfl, le_refl _, by simp, .inl rfl⟩
  | cons rule rest ih =>
    obtain ⟨hhead, hrest⟩ := List.pairwise_cons.mp hsorted
    have hle' : ∀ r ∈ rest, r.priority.val ≤ p.val := fun r hr => hle r (List.mem_cons_of_mem _ hr)
    by_cases hp : rule.priority = p
    · subst hp
      by_cases hmatch : evaluateRuleMatchers context rule = true
      · obtain ⟨result, heq, hmore, hall, hfrom⟩ :=
          ih hrest (combine bundleId rule (some found)) hle'
        have hdecision : (combine bundleId rule (some found)).2.1 =
          stricterDecision found.2.1 rule.decision := rfl
        rw [hdecision] at hmore hfrom
        refine ⟨result, ?_, (rank_le_stricter_left _ _).trans hmore, ?_, ?_⟩
        · simpa [scanRules, hmatch] using heq
        · intro r hr hrmatch hrp
          rcases List.mem_cons.mp hr with rfl | hr
          · exact (rank_le_stricter_right _ _).trans hmore
          · exact hall r hr hrmatch hrp
        · rcases hfrom with hfrom | ⟨r, hr, hrest⟩
          · rcases stricterDecision_mem found.2.1 rule.decision with hkept | hkept
            · exact .inl (hfrom.trans hkept)
            · exact .inr ⟨rule, List.mem_cons_self, rfl, hmatch, hfrom.trans hkept⟩
          · exact .inr ⟨r, List.mem_cons_of_mem _ hr, hrest⟩
      · obtain ⟨result, heq, hmore, hall, hfrom⟩ := ih hrest found hle'
        refine ⟨result, by simpa [scanRules, hmatch] using heq, hmore, ?_, ?_⟩
        · intro r hr hrmatch hrp
          rcases List.mem_cons.mp hr with rfl | hr
          · exact absurd hrmatch hmatch
          · exact hall r hr hrmatch hrp
        · exact hfrom.imp_right fun ⟨r, hr, h⟩ => ⟨r, List.mem_cons_of_mem _ hr, h⟩
    · -- a lower priority ends the loop, and nothing after it is of this group
      refine ⟨found, by simp [scanRules, Ne.symm hp], le_refl _, ?_, .inl rfl⟩
      intro r hr _ hrp
      have hlt : rule.priority.val < p.val :=
        lt_of_le_of_ne (hle rule List.mem_cons_self) fun h => hp (I32.ext_val h)
      rcases List.mem_cons.mp hr with rfl | hr
      · exact absurd hrp hp
      · have : r.priority.val ≤ rule.priority.val := hhead r hr
        rw [hrp] at this
        omega

theorem scanRules_start (bundleId : String) {rules : List PolicyRule}
    (hsorted : rules.Pairwise Earlier) :
    (scanRules context bundleId rules none none = none ∧
      ∀ rule ∈ rules, evaluateRuleMatchers context rule = false) ∨
    ∃ result, scanRules context bundleId rules none none = some result ∧
      (∃ rule, Deciding context rules rule ∧
        result.2.1 = rule.decision) ∧
      ∀ rule, Deciding context rules rule →
        decisionStrictnessRank rule.decision ≤ decisionStrictnessRank result.2.1 := by
  induction rules with
  | nil => exact .inl ⟨rfl, by simp⟩
  | cons rule rest ih =>
    obtain ⟨hhead, hrest⟩ := List.pairwise_cons.mp hsorted
    by_cases hmatch : evaluateRuleMatchers context rule = true
    · have htop : Deciding context (rule :: rest) rule := by
        refine ⟨List.mem_cons_self, hmatch, fun other hother _ => ?_⟩
        rcases List.mem_cons.mp hother with rfl | hother
        · exact le_refl _
        · exact hhead other hother
      obtain ⟨result, heq, hmore, hall, hfrom⟩ := scanRules_group context bundleId hrest
        (combine bundleId rule none) rule.priority hhead
      refine .inr ⟨result, by simpa [scanRules, hmatch] using heq, ?_, ?_⟩
      · rcases hfrom with hfrom | ⟨r, hr, hp, hrmatch, hfrom⟩
        · exact ⟨rule, htop, hfrom⟩
        · refine ⟨r, ⟨List.mem_cons_of_mem _ hr, hrmatch, ?_⟩, hfrom⟩
          rw [hp]
          exact htop.top
      · intro r hr
        rcases List.mem_cons.mp hr.mem with rfl | hmem
        · exact hmore
        · refine hall r hmem hr.matched (I32.ext_val (le_antisymm (hhead r hmem) ?_))
          exact hr.top rule List.mem_cons_self hmatch
    · have hskip : scanRules context bundleId (rule :: rest) none none =
          scanRules context bundleId rest none none := by
        simp [scanRules, hmatch]
      have hiff : ∀ r, Deciding context (rule :: rest) r ↔
          Deciding context rest r := by
        intro r
        constructor
        · intro h
          refine ⟨(List.mem_cons.mp h.mem).resolve_left ?_, h.matched,
            fun other hother => h.top other (List.mem_cons_of_mem _ hother)⟩
          rintro rfl
          exact hmatch h.matched
        · intro h
          refine ⟨List.mem_cons_of_mem _ h.mem, h.matched, fun other hother hm => ?_⟩
          rcases List.mem_cons.mp hother with rfl | hother
          · exact absurd hm hmatch
          · exact h.top other hother hm
      simp only [hskip, hiff]
      refine (ih hrest).imp_left fun ⟨hnone, hall⟩ => ⟨hnone, fun r hr => ?_⟩
      rcases List.mem_cons.mp hr with rfl | hr
      · exact Bool.not_eq_true _ ▸ hmatch
      · exact hall r hr

variable {context}

/-- Where no two rules have one priority, the first match decides. -/
theorem scanRules_distinct (bundleId : String) {rules : List PolicyRule}
    (hdistinct : rules.Pairwise fun a b => a.priority ≠ b.priority) :
    (scanRules context bundleId rules none none).map (·.2.1) =
      (rules.find? (evaluateRuleMatchers context)).map (·.decision) := by
  induction rules with
  | nil => rfl
  | cons rule rest ih =>
    obtain ⟨hhead, hrest⟩ := List.pairwise_cons.mp hdistinct
    by_cases hmatch : evaluateRuleMatchers context rule = true
    · have hstop : ∀ found, scanRules context bundleId rest (some found) (some rule.priority) =
          some found := by
        intro found
        cases rest with
        | nil => rfl
        | cons next rest => simp [scanRules, hhead next List.mem_cons_self]
      have hscan : scanRules context bundleId (rule :: rest) none none =
          some (combine bundleId rule none) := by
        rw [scanRules, if_neg (by simp), if_pos hmatch, hstop]
      rw [hscan, List.find?_cons_of_pos hmatch]
      rfl
    · rw [scanRules, if_neg (by simp), if_neg hmatch, ih hrest, List.find?_cons_of_neg hmatch]

theorem deciding_perm {rules rules' : List PolicyRule} (h : rules.Perm rules')
    {rule : PolicyRule} : Deciding context rules rule ↔ Deciding context rules' rule :=
  ⟨fun hd => ⟨h.mem_iff.mp hd.mem, hd.matched, fun other ho => hd.top other (h.mem_iff.mpr ho)⟩,
    fun hd => ⟨h.mem_iff.mpr hd.mem, hd.matched, fun other ho => hd.top other (h.mem_iff.mp ho)⟩⟩

/-- No rule of the bundle matches. -/
def PolicyBundle.Silent (context : PolicyContext) (bundle : PolicyBundle) : Prop :=
  ∀ rule ∈ bundle.rules, evaluateRuleMatchers context rule = false

/-- A bundle decides nothing when none of its rules matches. -/
theorem evaluateBundleRules_none {bundle : PolicyBundle} :
    evaluateBundleRules context bundle = none ↔ bundle.Silent context := by
  have hperm := List.perm_insertionSort Earlier bundle.rules
  rcases scanRules_start context bundle.bundleId (List.pairwise_insertionSort Earlier bundle.rules)
    with ⟨hnone, hall⟩ | ⟨result, hsome, ⟨rule, hrule, -⟩, -⟩
  · exact iff_of_true hnone fun rule hrule => hall rule (hperm.mem_iff.mpr hrule)
  · refine iff_of_false (by rw [evaluateBundleRules, hsome]; simp) fun hsilent => ?_
    have := hsilent rule (hperm.mem_iff.mp hrule.mem)
    rw [hrule.matched] at this
    cases this

/-- **A bundle decides as the strictest of its deciding rules.** -/
theorem evaluateBundleRules_some {bundle : PolicyBundle} {result : RuleMatch}
    (h : evaluateBundleRules context bundle = some result) :
    (∃ rule, Deciding context bundle.rules rule ∧ result.2.1 = rule.decision) ∧
      ∀ rule, Deciding context bundle.rules rule →
        decisionStrictnessRank rule.decision ≤ decisionStrictnessRank result.2.1 := by
  have hperm := List.perm_insertionSort Earlier bundle.rules
  rcases scanRules_start context bundle.bundleId (List.pairwise_insertionSort Earlier bundle.rules)
    with ⟨hnone, -⟩ | ⟨found, hsome, ⟨rule, hrule, hfrom⟩, hall⟩
  · rw [evaluateBundleRules, hnone] at h
    cases h
  · rw [evaluateBundleRules, hsome] at h
    cases h
    exact ⟨⟨rule, (deciding_perm hperm).mp hrule, hfrom⟩,
      fun r hr => hall r ((deciding_perm hperm).mpr hr)⟩

/-- The strictest decision of the deciding rules. -/
def Strictest (context : PolicyContext) (rules : List PolicyRule) (decision : Decision) : Prop :=
  (∃ rule, Deciding context rules rule ∧ rule.decision = decision) ∧
    ∀ rule, Deciding context rules rule →
      decisionStrictnessRank rule.decision ≤ decisionStrictnessRank decision

theorem evaluateBundleRules_decision {bundle : PolicyBundle} {decision : Decision} :
    (evaluateBundleRules context bundle).map (·.2.1) = some decision ↔
      Strictest context bundle.rules decision := by
  cases h : evaluateBundleRules context bundle with
  | none =>
    refine iff_of_false (by simp) ?_
    rintro ⟨⟨rule, hrule, -⟩, -⟩
    have hfalse := evaluateBundleRules_none.mp h rule hrule.mem
    rw [hrule.matched] at hfalse
    cases hfalse
  | some result =>
    obtain ⟨⟨rule, hrule, hfrom⟩, hall⟩ := evaluateBundleRules_some h
    constructor
    · rintro ⟨⟩
      exact ⟨⟨rule, hrule, hfrom.symm⟩, hall⟩
    · rintro ⟨⟨strict, hstrict, rfl⟩, hle⟩
      have hrank := le_antisymm (hfrom ▸ hle rule hrule) (hall strict hstrict)
      exact congrArg some (rank_injective hrank)

/-- The deciding rules decide, and nothing else of the bundle does. -/
theorem decision_congr {bundle bundle' : PolicyBundle}
    (h : ∀ rule, Deciding context bundle.rules rule ↔ Deciding context bundle'.rules rule) :
    (evaluateBundleRules context bundle).map (·.2.1) =
      (evaluateBundleRules context bundle').map (·.2.1) := by
  refine Option.ext fun decision => ?_
  rw [evaluateBundleRules_decision, evaluateBundleRules_decision, Strictest, Strictest]
  simp only [h]

/-- A rule that does not match, or is of a lower priority than one that does, decides nothing. -/
theorem deciding_append {rules extra : List PolicyRule}
    (h : ∀ other ∈ extra, evaluateRuleMatchers context other = false ∨
      ∃ rule, Deciding context rules rule ∧ other.priority.val < rule.priority.val)
    {rule : PolicyRule} : Deciding context (rules ++ extra) rule ↔ Deciding context rules rule := by
  constructor
  · intro hd
    refine ⟨(List.mem_append.mp hd.mem).resolve_right fun hmem => ?_, hd.matched,
      fun other ho => hd.top other (List.mem_append_left _ ho)⟩
    rcases h rule hmem with hfalse | ⟨top, htop, hlt⟩
    · exact absurd (hd.matched.symm.trans hfalse) (by simp)
    · have hle := hd.top top (List.mem_append_left _ htop.mem) htop.matched
      omega
  · intro hd
    refine ⟨List.mem_append_left _ hd.mem, hd.matched, fun other ho hmatch => ?_⟩
    rcases List.mem_append.mp ho with ho | ho
    · exact hd.top other ho hmatch
    · rcases h other ho with hfalse | ⟨top, htop, hlt⟩
      · exact absurd (hmatch.symm.trans hfalse) (by simp)
      · have hle := hd.top top htop.mem htop.matched
        omega

/-- It is as strict as required when one of its deciding rules is. -/
theorem evaluateBundleRules_strict {bundle : PolicyBundle} {result : RuleMatch}
    (h : evaluateBundleRules context bundle = some result) (required : Decision) :
    decisionStrictnessRank required ≤ decisionStrictnessRank result.2.1 ↔
      ∃ rule, Deciding context bundle.rules rule ∧
        decisionStrictnessRank required ≤ decisionStrictnessRank rule.decision := by
  obtain ⟨⟨rule, hrule, hfrom⟩, hall⟩ := evaluateBundleRules_some h
  constructor
  · exact fun hle => ⟨rule, hrule, hfrom ▸ hle⟩
  · rintro ⟨strict, hstrict, hle⟩
    exact hle.trans (hall strict hstrict)

end Deciding

/-! ## The bundle engine -/

/-- `invariant_rules`. -/
def invariantRules : List PolicyRule := [
  { id := "invariant.scope_mismatch"
    description := "Deny mutating actions when no resource scope is declared"
    decision := .deny
    priority := .max
    matchers := [.scopeMismatch] },
  { id := "invariant.critical_risk_no_approval"
    description := "Critical risk with no approval mode requires approval"
    decision := .requireApproval
    priority := .belowMax
    matchers := [.criticalRiskNoApproval] }]

/-- `invariant_reason`. -/
def invariantReason (ruleId : String) : String :=
  if ruleId = "invariant.scope_mismatch" then
    "scope mismatch: no resources authorized for mutation action"
  else if ruleId = "invariant.critical_risk_no_approval" then
    "critical risk tier requires explicit approval mode"
  else s!"invariant rule matched: {ruleId}"

/-- The bundle with the invariant rules at its end. -/
def PolicyBundle.augmented (bundle : PolicyBundle) : PolicyBundle :=
  { bundle with rules := bundle.rules ++ invariantRules }

/-- `evaluate_bundle`. -/
def evaluateBundle (context : PolicyContext) (bundle : PolicyBundle) :
    Option EvaluateProposalResponse :=
  (evaluateBundleRules context bundle.augmented).map fun (ruleId, decision, reason) =>
    { decision
      reason := if containsText ruleId ":invariant." then invariantReason ruleId else reason
      matchedRuleIds := [ruleId]
      warnings := [] }

/-- The outcomes, after the rules: only an `Allow` is affected. -/
def outcomePostPass (context : PolicyContext) (response : EvaluateProposalResponse) :
    EvaluateProposalResponse :=
  if response.decision = .allow then
    match checkForbiddenOutcomes context.inferredEffect context.intent.forbiddenOutcomes with
    | some reason =>
      { decision := .deny
        reason
        matchedRuleIds := ["outcome.forbidden"]
        warnings := response.warnings }
    | none =>
      match checkAllowedOutcomes context.inferredEffect context.intent.allowedOutcomes with
      | some warning =>
        { decision := .allow
          reason := response.reason
          matchedRuleIds := response.matchedRuleIds ++ ["outcome.advisory.mismatch"]
          warnings := response.warnings ++ [warning] }
      | none => response
  else response

/-- **`PolicyBundlePdpEngine::evaluate`** on the bundles of its source. -/
def bundleEvaluate (source : List PolicyBundle) (context : PolicyContext) :
    EvaluateProposalResponse :=
  outcomePostPass context <|
    (source.findSome? (evaluateBundle context)).getD
      { decision := .allow
        reason := "no policy bundle rule matched; default allow"
        matchedRuleIds := ["allow.default"]
        warnings := [] }

/-! ## Bundles from YAML -/

/-- `as_u64`. -/
def YamlValue.asU64 : YamlValue → Option Nat
  | .number n => some n
  | _ => none

/-- `as_str`. -/
def YamlValue.asStr : YamlValue → Option String
  | .text s => some s
  | _ => none

structure YamlMatcher where
  matcherType : String
  value : Option YamlValue

structure YamlPolicyRule where
  id : String
  description : String
  decision : String
  priority : I32
  matchers : List YamlMatcher

structure YamlPolicyBundle where
  bundleId : String
  rules : List YamlPolicyRule

/-- The text of a matcher's value; empty where there is none. -/
def YamlMatcher.valueText (m : YamlMatcher) : String := (m.value.bind (·.asStr)).getD ""

/-- `into_matcher`. -/
def YamlMatcher.intoMatcher (m : YamlMatcher) : Matcher :=
  match m.matcherType with
  | "scope_mismatch" => .scopeMismatch
  | "taint_at_least" => .taintAtLeast (UInt8.ofNat ((m.value.bind (·.asU64)).getD 0))
  | "action_is_mutation" => .actionIsMutation
  | "rollback_class_equals" => .rollbackClassEquals m.valueText
  | "action_type_equals" => .actionTypeEquals m.valueText
  | "critical_risk_no_approval" => .criticalRiskNoApproval
  | "approval_mode_equals" => .approvalModeEquals m.valueText
  | other => .unknown other m.value

/-- `parse_decision`: an unknown text denies. -/
def parseDecision (lowercase : Lowercase) (text : String) : Decision :=
  match lowercase.apply text with
  | "allow" => .allow
  | "deny" => .deny
  | "quarantine" => .quarantine
  | "requireapproval" => .requireApproval
  | "require_approval" => .requireApproval
  | "allowdraftonly" => .allowDraftOnly
  | "allow_draft_only" => .allowDraftOnly
  | _ => .deny

/-- `into_policy_rule`. -/
def YamlPolicyRule.intoPolicyRule (lowercase : Lowercase) (rule : YamlPolicyRule) : PolicyRule :=
  { id := rule.id
    description := rule.description
    decision := parseDecision lowercase rule.decision
    priority := rule.priority
    matchers := rule.matchers.map YamlMatcher.intoMatcher }

/-- `into_policy_bundle`. -/
def YamlPolicyBundle.intoPolicyBundle (lowercase : Lowercase) (bundle : YamlPolicyBundle) :
    PolicyBundle :=
  { bundleId := bundle.bundleId
    rules := bundle.rules.map (·.intoPolicyRule lowercase) }

/-- `configs/policy-bundles/static-default.yaml`. -/
def staticDefaultYaml : YamlPolicyBundle where
  bundleId := "static-default"
  rules := [
    { id := "quarantine.high.taint.mutation"
      description := "Quarantine mutating actions with high taint"
      decision := "Quarantine"
      priority := ⟨90, by decide⟩
      matchers := [⟨"taint_at_least", some (.number 70)⟩, ⟨"action_is_mutation", none⟩] },
    { id := "approval.r3.required"
      description := "Require approval for R3 actions"
      decision := "RequireApproval"
      priority := ⟨80, by decide⟩
      matchers := [⟨"rollback_class_equals", some (.text "R3IrreversibleHighConsequence")⟩] },
    { id := "draft.only.intent"
      description := "Force draft-only execution when intent approval mode is DraftOnly"
      decision := "AllowDraftOnly"
      priority := ⟨70, by decide⟩
      matchers := [⟨"approval_mode_equals", some (.text "DraftOnly")⟩] },
    { id := "allow.default"
      description := "Default allow when no other rule matches"
      decision := "Allow"
      priority := ⟨0, by decide⟩
      matchers := [] }]

/-! ### Written thresholds -/

/-- How the YAML parser reads the non-negative integers it accepts: as numbers if they have 64 bits,
and as something that is none otherwise. -/
structure YamlIntegers where
  read : Nat → Option YamlValue
  asU64_read : ∀ n value, read n = some value → value.asU64 = if n < 2 ^ 64 then some n else none

/-- A rule with a written threshold and nothing else. -/
def YamlPolicyRule.atLeast (rule : YamlPolicyRule) (value : YamlValue) : YamlPolicyRule :=
  { rule with matchers := [⟨"taint_at_least", some value⟩] }

section Thresholds

variable {context : PolicyContext} {lowercase : Lowercase} (yaml : YamlIntegers)
  (rule : YamlPolicyRule) {n : Nat} {value : YamlValue}

/-- The low byte of a threshold is compared; one that does not fit in 64 bits counts as zero. -/
theorem evaluate_atLeast (h : yaml.read n = some value) :
    evaluateRuleMatchers context ((rule.atLeast value).intoPolicyRule lowercase) = true ↔
      (if n < 2 ^ 64 then n % 256 else 0) ≤ context.trust.taintScore.toNat := by
  have hmatch : evaluateRuleMatchers context ((rule.atLeast value).intoPolicyRule lowercase) =
      decide (UInt8.ofNat (value.asU64.getD 0) ≤ context.trust.taintScore) :=
    Bool.and_true _
  rw [hmatch, decide_eq_true_iff, UInt8.le_iff_toNat_le, UInt8.toNat_ofNat', yaml.asU64_read n value h]
  split_ifs <;> rfl

/-- **When a rule means the threshold that is written.** For one of at least 256 the rule and the
text agree only on scores below both. -/
theorem written_threshold_iff (h : yaml.read n = some value) :
    ((evaluateRuleMatchers context ((rule.atLeast value).intoPolicyRule lowercase) = true ↔
        n ≤ context.trust.taintScore.toNat) ↔
      n < 256 ∨ n < 2 ^ 64 ∧ context.trust.taintScore.toNat < n % 256) := by
  rw [evaluate_atLeast yaml rule h]
  have hscore := context.trust.taintScore.toNat_lt
  split_ifs with hbits
  · constructor
    · intro hagree
      by_cases hn : n < 256
      · exact .inl hn
      · exact .inr ⟨hbits, by omega⟩
    · rintro (hn | ⟨-, hlow⟩)
      · rw [Nat.mod_eq_of_lt hn]
      · omega
  · omega

end Thresholds

namespace ThresholdSample

/-- An action of some taint. -/
def tainted (taintScore : UInt8) : PolicyContext where
  intent :=
    { intentId := ⟨1⟩, resourceScope := [], approvalMode := .none, expiresAt := 10
      ownerActorId := none, allowedOutcomes := [], forbiddenOutcomes := [] }
  proposal :=
    { proposalId := ⟨2⟩, intentId := ⟨1⟩, toolName := "write", serverName := "local"
      rawArguments := .null, requestedRollbackClass := .r1SnapshotRecoverable, metadata := []
      createdAt := 0, ownerActorId := none, expectedEffect := "", estimatedRisk := .low }
  trust := ⟨taintScore⟩
  lowercase := .plain

def quarantine : YamlPolicyRule where
  id := "quarantine.taint"
  description := "Quarantine tainted actions"
  decision := "Quarantine"
  priority := ⟨90, by decide⟩
  matchers := []

/-- Numbers of 64 bits are all that is accepted. -/
def yaml : YamlIntegers where
  read n := if n < 2 ^ 64 then some (.number n) else none
  asU64_read n value h := by
    split_ifs at h ⊢
    cases h
    rfl

end ThresholdSample

open ThresholdSample in
/-- A threshold of 70 and a score of 80. -/
theorem written_threshold_seventy :
    yaml.read 70 = some (.number 70) ∧
    evaluateRuleMatchers (tainted 80) ((quarantine.atLeast (.number 70)).intoPolicyRule .plain) =
      true := by
  have hread : yaml.read 70 = some (.number 70) := rfl
  exact ⟨hread, ((written_threshold_iff yaml quarantine hread).mpr (.inl (by decide))).mpr
    (by decide)⟩

open ThresholdSample in
/-- A threshold of 256 matches an action without any taint. -/
theorem threshold_wraps :
    yaml.read 256 = some (.number 256) ∧ (tainted 0).trust.taintScore.toNat < 256 ∧
    evaluateRuleMatchers (tainted 0) ((quarantine.atLeast (.number 256)).intoPolicyRule .plain) =
      true := by
  refine ⟨rfl, by decide, ?_⟩
  rw [evaluate_atLeast yaml quarantine (n := 256) rfl]
  decide

/-! ## The gateway -/

inductive PdpMode where
  | static | bundles | dual
  deriving DecidableEq

/-- The engine that the gateway was started with. -/
inductive PdpEngine where
  | static
  | bundles (source : List PolicyBundle)

def PdpEngine.evaluate : PdpEngine → PolicyContext → EvaluateProposalResponse
  | .static => staticEvaluate
  | .bundles source => bundleEvaluate source

/-- **`evaluate_active_policy_bundles`**; `none` is a store that fails to list them. -/
def evaluateActivePolicyBundles (active : Option (List PolicyBundle)) (context : PolicyContext) :
    Option EvaluateProposalResponse :=
  match active with
  | none => none
  | some bundles =>
    bundles.findSome? fun bundle =>
      (evaluateBundleRules context bundle).map fun (ruleId, decision, reason) =>
        { decision, reason, matchedRuleIds := [ruleId], warnings := [] }

/-- **`evaluate_proposal_decision`**. -/
def evaluateProposalDecision (mode : PdpMode) (pdp : PdpEngine)
    (active : Option (List PolicyBundle)) (context : PolicyContext) : EvaluateProposalResponse :=
  match mode with
  | .static => pdp.evaluate context
  | .bundles =>
    (evaluateActivePolicyBundles active context).getD
      { decision := .allow
        reason := "no active bundle matched; default allow"
        matchedRuleIds := ["allow.default"]
        warnings := [] }
  | .dual => (evaluateActivePolicyBundles active context).getD (pdp.evaluate context)

end FerrumGate
