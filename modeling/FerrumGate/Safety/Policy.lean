import FerrumGate.Pdp.Bundles

/-!
# The policy engines agree, and their invariants can be lost

* **`bundle_decides`** : a bundle decides as the strictest of its matching rules of the highest
  priority, and by these alone.
* **`engines_agree`** : the static engine and the bundle engine with the shipped bundle decide
  alike, for every context.
* `guarded_iff` : when an engine keeps to the invariants on scopes and on critical risks. The static
  one always does; the bundle engine needs a bundle, and no lax rule of the highest priority in it.
* **`invariants_held_iff`** : when the gateway keeps to them. It asks the active bundles of the
  store first, or only these, and does not add the invariants to them.
* `invariants_overridden` : the three ways in which they are lost.
-/

namespace FerrumGate

/-- **What a bundle decides**, for every bundle and context: nothing when no rule matches, and else
the strictest decision among the matching rules of the highest priority. Neither the order of the
rules nor rules that do not match or are of a lower priority change it. -/
theorem bundle_decides (context : PolicyContext) (bundle : PolicyBundle) :
    (evaluateBundleRules context bundle = none ↔
      ∀ rule ∈ bundle.rules, evaluateRuleMatchers context rule = false) ∧
    (∀ decision, (evaluateBundleRules context bundle).map (·.2.1) = some decision ↔
      Strictest context bundle.rules decision) ∧
    (∀ rules, bundle.rules.Perm rules →
      (evaluateBundleRules context { bundle with rules }).map (·.2.1) =
        (evaluateBundleRules context bundle).map (·.2.1)) ∧
    ∀ extra : List PolicyRule, (∀ other ∈ extra, evaluateRuleMatchers context other = false ∨
        ∃ rule, Deciding context bundle.rules rule ∧ other.priority.val < rule.priority.val) →
      (evaluateBundleRules context { bundle with rules := bundle.rules ++ extra }).map (·.2.1) =
        (evaluateBundleRules context bundle).map (·.2.1) :=
  ⟨evaluateBundleRules_none, fun _ => evaluateBundleRules_decision,
    fun _ hperm => decision_congr fun _ => (deciding_perm hperm).symm,
    fun _ hextra => decision_congr fun _ => deciding_append hextra⟩

/-! ## The shipped bundle -/

section StaticDefault

variable (context : PolicyContext)

/-- The shipped bundle, as the engine loads it. -/
def staticDefault (lowercase : Lowercase) : PolicyBundle :=
  staticDefaultYaml.intoPolicyBundle lowercase

theorem parseDecision_ascii {lowercase : Lowercase} (text : String)
    (h : text.toList.all (·.toNat < 128) = true) :
    parseDecision lowercase text = parseDecision .plain text := by
  rw [parseDecision, lowercase.ascii text h]
  rfl

theorem staticDefault_eq (lowercase : Lowercase) :
    staticDefault lowercase = staticDefault .plain := by
  simp only [staticDefault, staticDefaultYaml, YamlPolicyBundle.intoPolicyBundle, List.map,
    YamlPolicyRule.intoPolicyRule]
  rw [parseDecision_ascii "Quarantine" (by decide +kernel),
    parseDecision_ascii "RequireApproval" (by decide +kernel),
    parseDecision_ascii "AllowDraftOnly" (by decide +kernel),
    parseDecision_ascii "Allow" (by decide +kernel)]

/-- The rules of the shipped bundle in the order of evaluation, invariants included. -/
theorem staticDefault_sorted :
    ((staticDefault .plain).augmented.rules.insertionSort Earlier).map
      (fun rule => (rule.matchers, rule.decision)) =
      [([.scopeMismatch], .deny), ([.criticalRiskNoApproval], .requireApproval),
        ([.taintAtLeast 70, .actionIsMutation], .quarantine),
        ([.rollbackClassEquals "R3IrreversibleHighConsequence"], .requireApproval),
        ([.approvalModeEquals "DraftOnly"], .allowDraftOnly), ([], .allow)] := by
  decide +kernel

theorem staticDefault_distinct :
    ((staticDefault .plain).augmented.rules.insertionSort Earlier).Pairwise
      fun a b => a.priority ≠ b.priority := by
  decide +kernel

theorem debug_r3 (rollbackClass : RollbackClass) :
    rollbackClass.debug = "R3IrreversibleHighConsequence" ↔
      rollbackClass = .r3IrreversibleHighConsequence := by
  cases rollbackClass <;> decide

theorem debug_draftOnly (mode : ApprovalMode) :
    mode.debug = "DraftOnly" ↔ mode = .draftOnly := by
  cases mode <;> decide

/-- The conditions of the static engine before the outcomes. -/
def PolicyContext.conditions : Decision :=
  if context.scopeMismatch then .deny
  else if context.criticalRiskNoApproval then .requireApproval
  else if 70 ≤ context.trust.taintScore && context.proposal.isMutation then .quarantine
  else if context.proposal.requestedRollbackClass = .r3IrreversibleHighConsequence then
    .requireApproval
  else if context.intent.approvalMode = .draftOnly then .allowDraftOnly
  else .allow

theorem staticDefault_decision (lowercase : Lowercase) :
    (evaluateBundleRules context (staticDefault lowercase).augmented).map (·.2.1) =
      some context.conditions := by
  have hfind : ∀ rules : List PolicyRule,
      (rules.find? (evaluateRuleMatchers context)).map (·.decision) =
        ((rules.map fun rule => (rule.matchers, rule.decision)).find?
          fun entry => entry.1.all (evaluateMatcher context)).map (·.2) := by
    intro rules
    rw [List.find?_map, Option.map_map]
    rfl
  rw [staticDefault_eq, evaluateBundleRules, scanRules_distinct _ staticDefault_distinct, hfind,
    staticDefault_sorted]
  simp only [List.find?, List.all_cons, List.all_nil, Bool.and_true, evaluateMatcher, debug_r3,
    debug_draftOnly, PolicyContext.conditions]
  generalize context.scopeMismatch = mismatch
  generalize context.criticalRiskNoApproval = critical
  generalize (decide (70 ≤ context.trust.taintScore) && context.proposal.isMutation) = tainted
  cases mismatch with
  | true => rfl
  | false =>
    cases critical with
    | true => rfl
    | false =>
      cases tainted with
      | true => rfl
      | false => split_ifs <;> simp_all

end StaticDefault

/-! ## The outcomes -/

section Outcomes

variable (context : PolicyContext)

/-- The intent forbids what the proposal is taken to do. -/
def PolicyContext.forbids : Bool :=
  context.intent.forbiddenOutcomes.any (·.effectType = context.inferredEffect)

/-- What the outcomes make of a decision. -/
def PolicyContext.afterOutcomes (decision : Decision) : Decision :=
  if decision = .allow ∧ context.forbids then .deny else decision

theorem checkForbiddenOutcomes_isSome :
    (checkForbiddenOutcomes context.inferredEffect context.intent.forbiddenOutcomes).isSome =
      context.forbids := by
  rw [checkForbiddenOutcomes, Option.isSome_map, PolicyContext.forbids, Bool.eq_iff_iff,
    List.find?_isSome, List.any_eq_true]

theorem outcomePostPass_decision (response : EvaluateProposalResponse) :
    (outcomePostPass context response).decision = context.afterOutcomes response.decision := by
  have hforbids := checkForbiddenOutcomes_isSome context
  rw [outcomePostPass, PolicyContext.afterOutcomes, ← hforbids]
  split_ifs <;> (try split) <;> (try split) <;> simp_all

theorem staticEvaluate_decision :
    (staticEvaluate context).decision = context.afterOutcomes context.conditions := by
  have hforbids := checkForbiddenOutcomes_isSome context
  rw [staticEvaluate, PolicyContext.afterOutcomes, PolicyContext.conditions, ← hforbids]
  split_ifs <;> (try split) <;> simp_all

end Outcomes

/-- **The static engine and the bundle engine with the shipped bundle decide alike.** -/
theorem engines_agree (context : PolicyContext) :
    (staticEvaluate context).decision =
      (bundleEvaluate [staticDefault context.lowercase] context).decision := by
  obtain ⟨⟨id, decision, reason⟩, hresult, hdecision⟩ :=
    Option.map_eq_some_iff.mp (staticDefault_decision context context.lowercase)
  rw [staticEvaluate_decision, bundleEvaluate, outcomePostPass_decision, List.findSome?_singleton,
    evaluateBundle, hresult]
  exact congrArg context.afterOutcomes hdecision.symm

/-! ## The invariants -/

/-- How strict the invariants want the decision to be. -/
def PolicyContext.demands (context : PolicyContext) : Option Decision :=
  if context.scopeMismatch then some .deny
  else if context.criticalRiskNoApproval then some .requireApproval
  else none

theorem demands_iff {context : PolicyContext} {decision : Decision} :
    ((context.scopeMismatch = true → decision = .deny) ∧
      (context.criticalRiskNoApproval = true →
        decisionStrictnessRank .requireApproval ≤ decisionStrictnessRank decision)) ↔
    ∀ required ∈ context.demands,
      decisionStrictnessRank required ≤ decisionStrictnessRank decision := by
  rw [PolicyContext.demands]
  split_ifs with hmismatch hcritical
  · constructor
    · rintro ⟨hdeny, -⟩ required ⟨⟩
      rw [hdeny hmismatch]
    · intro h
      have hdeny := eq_deny_of_rank (h .deny rfl)
      exact ⟨fun _ => hdeny, fun _ => by rw [hdeny]; decide⟩
  · constructor
    · rintro ⟨-, happroval⟩ required ⟨⟩
      exact happroval hcritical
    · exact fun h => ⟨fun hm => absurd hm hmismatch, fun _ => h .requireApproval rfl⟩
  · simp [hmismatch, hcritical]

/-! ### Active bundles -/

/-- In the first bundle with a rule that matches, one of the deciding rules is as strict as
required. -/
def FirstDecides (context : PolicyContext) (required : Decision) : List PolicyBundle → Prop
  | [] => False
  | bundle :: rest =>
    (∃ rule, Deciding context bundle.rules rule ∧
      decisionStrictnessRank required ≤ decisionStrictnessRank rule.decision) ∨
    (bundle.Silent context ∧ FirstDecides context required rest)

section Active

variable {context : PolicyContext} {bundles : List PolicyBundle}

theorem not_silent_of_deciding {bundle : PolicyBundle} {rule : PolicyRule}
    (h : Deciding context bundle.rules rule) : ¬ bundle.Silent context := by
  intro hsilent
  have := hsilent rule h.mem
  rw [h.matched] at this
  cases this

theorem evaluateActive_none :
    evaluateActivePolicyBundles (some bundles) context = none ↔
      ∀ bundle ∈ bundles, bundle.Silent context := by
  simp [evaluateActivePolicyBundles, List.findSome?_eq_none_iff, evaluateBundleRules_none]

theorem evaluateActive_strict {response : EvaluateProposalResponse}
    (h : evaluateActivePolicyBundles (some bundles) context = some response)
    (required : Decision) :
    decisionStrictnessRank required ≤ decisionStrictnessRank response.decision ↔
      FirstDecides context required bundles := by
  induction bundles with
  | nil => cases h
  | cons bundle rest ih =>
    cases hrules : evaluateBundleRules context bundle with
    | none =>
      have hsilent := evaluateBundleRules_none.mp hrules
      have hrest : evaluateActivePolicyBundles (some rest) context = some response := by
        simpa [evaluateActivePolicyBundles, List.findSome?_cons, hrules] using h
      rw [ih hrest, FirstDecides]
      exact ⟨fun hrest => .inr ⟨hsilent, hrest⟩, fun h => h.elim
        (fun ⟨_, hrule, _⟩ => absurd hsilent (not_silent_of_deciding hrule)) And.right⟩
    | some result =>
      have hresponse : result.2.1 = response.decision := by
        simp only [evaluateActivePolicyBundles, List.findSome?_cons, hrules, Option.map_some,
          Option.some.injEq] at h
        rw [← h]
      have hloud : ¬ bundle.Silent context := by
        rw [← evaluateBundleRules_none, hrules]
        simp
      rw [← hresponse, evaluateBundleRules_strict hrules, FirstDecides, or_iff_left]
      exact fun h => hloud h.1

end Active

/-! ### The bundle engine -/

/-- A rule that comes before the invariant on critical risks. -/
structure Shadows (context : PolicyContext) (bundle : PolicyBundle) (rule : PolicyRule) : Prop where
  mem : rule ∈ bundle.rules
  priority : rule.priority = .max
  matched : evaluateRuleMatchers context rule = true

/-- When the engine of the gateway keeps to its invariants. -/
def PdpEngine.Guarded (context : PolicyContext) : PdpEngine → Prop
  | .static => True
  | .bundles [] => context.forbids = true
  | .bundles (bundle :: _) =>
    context.scopeMismatch = true ∨
    (∀ rule, ¬ Shadows context bundle rule) ∨
    (∃ rule, Shadows context bundle rule ∧
      decisionStrictnessRank .requireApproval ≤ decisionStrictnessRank rule.decision) ∨
    ((∀ rule, Shadows context bundle rule → rule.decision = .allow) ∧ context.forbids = true)

section Engine

variable {context : PolicyContext} {bundle : PolicyBundle} {rule : PolicyRule}

theorem rank_le_afterOutcomes (decision : Decision) :
    decisionStrictnessRank decision ≤
      decisionStrictnessRank (context.afterOutcomes decision) := by
  rw [PolicyContext.afterOutcomes]
  split_ifs with h
  · rw [h.1]
    decide
  · exact le_refl _

/-- The invariant on scopes has the highest priority. -/
theorem scope_deciding (bundle : PolicyBundle) (h : context.scopeMismatch = true) :
    ∃ rule, Deciding context bundle.augmented.rules rule ∧ rule.decision = .deny := by
  refine ⟨invariantRules[0], ⟨List.mem_append_right _ (by decide), ?_, ?_⟩, rfl⟩
  · simpa [invariantRules, evaluateRuleMatchers, evaluateMatcher] using h
  · exact fun other _ _ => other.priority.inRange.2

/-- The invariant on critical risks decides when nothing shadows it. -/
theorem critical_deciding (hmismatch : context.scopeMismatch = false)
    (hcritical : context.criticalRiskNoApproval = true)
    (hshadow : ∀ rule, ¬ Shadows context bundle rule) :
    ∃ rule, Deciding context bundle.augmented.rules rule ∧ rule.decision = .requireApproval := by
  refine ⟨invariantRules[1], ⟨List.mem_append_right _ (by decide), ?_, ?_⟩, rfl⟩
  · simpa [invariantRules, evaluateRuleMatchers, evaluateMatcher] using hcritical
  · intro other hother hmatch
    have hrange := other.priority.inRange.2
    rcases List.mem_append.mp hother with hown | hinvariant
    · have hne : other.priority.val ≠ 2147483647 := fun h =>
        hshadow other ⟨hown, I32.ext_val h, hmatch⟩
      show other.priority.val ≤ 2147483646
      omega
    · simp only [invariantRules, List.mem_cons, List.not_mem_nil, or_false] at hinvariant
      rcases hinvariant with rfl | rfl
      · simp [evaluateRuleMatchers, evaluateMatcher, hmismatch] at hmatch
      · exact le_refl _

/-- A rule that shadows decides. -/
theorem Shadows.deciding (h : Shadows context bundle rule) :
    Deciding context bundle.augmented.rules rule := by
  refine ⟨List.mem_append_left _ h.mem, h.matched, fun other _ _ => ?_⟩
  rw [h.priority]
  exact other.priority.inRange.2

/-- Where something shadows, only such rules decide. -/
theorem shadows_of_deciding (hmismatch : context.scopeMismatch = false)
    (hshadow : ∃ rule, Shadows context bundle rule)
    (h : Deciding context bundle.augmented.rules rule) : Shadows context bundle rule := by
  obtain ⟨top, htop⟩ := hshadow
  have hle := h.top top (List.mem_append_left _ htop.mem) htop.matched
  have hmax : rule.priority = .max :=
    I32.ext_val (le_antisymm rule.priority.inRange.2 (htop.priority ▸ hle))
  rcases List.mem_append.mp h.mem with hown | hinvariant
  · exact ⟨hown, hmax, h.matched⟩
  · have hmatch := h.matched
    simp only [invariantRules, List.mem_cons, List.not_mem_nil, or_false] at hinvariant
    rcases hinvariant with rfl | rfl
    · simp [evaluateRuleMatchers, evaluateMatcher, hmismatch] at hmatch
    · cases hmax

/-- The engine decides by its first bundle when an invariant speaks. -/
theorem bundleEvaluate_cons (bundle : PolicyBundle) (rest : List PolicyBundle)
    {required : Decision}
    (hdemands : context.demands = some required) :
    ∃ result, evaluateBundleRules context bundle.augmented = some result ∧
      (bundleEvaluate (bundle :: rest) context).decision =
        context.afterOutcomes result.2.1 := by
  have hloud : ¬ bundle.augmented.Silent context := by
    intro hsilent
    rw [PolicyContext.demands] at hdemands
    split_ifs at hdemands with hmismatch hcritical
    · obtain ⟨rule, hrule, -⟩ := scope_deciding bundle hmismatch
      exact not_silent_of_deciding hrule hsilent
    · have := hsilent invariantRules[1] (List.mem_append_right _ (by decide))
      simp [invariantRules, evaluateRuleMatchers, evaluateMatcher, hcritical] at this
  cases hrules : evaluateBundleRules context bundle.augmented with
  | none => exact absurd (evaluateBundleRules_none.mp hrules) hloud
  | some result =>
    refine ⟨result, rfl, ?_⟩
    rw [bundleEvaluate, outcomePostPass_decision, List.findSome?_cons, evaluateBundle, hrules]
    rfl

/-- Where only the invariant on critical risks speaks: it decides, or what shadows it does. -/
theorem shadowed_iff (hmismatch : context.scopeMismatch = false)
    (hcritical : context.criticalRiskNoApproval = true) {result : RuleMatch}
    (hresult : evaluateBundleRules context bundle.augmented = some result) :
    decisionStrictnessRank .requireApproval ≤
        decisionStrictnessRank (context.afterOutcomes result.2.1) ↔
      (∀ rule, ¬ Shadows context bundle rule) ∨
      (∃ rule, Shadows context bundle rule ∧
        decisionStrictnessRank .requireApproval ≤ decisionStrictnessRank rule.decision) ∨
      ((∀ rule, Shadows context bundle rule → rule.decision = .allow) ∧
        context.forbids = true) := by
  obtain ⟨⟨decider, hdecider, hfrom⟩, hall⟩ := evaluateBundleRules_some hresult
  by_cases hshadow : ∃ rule, Shadows context bundle rule
  · have hdecider' := shadows_of_deciding hmismatch hshadow hdecider
    constructor
    · intro hstrict
      rw [PolicyContext.afterOutcomes] at hstrict
      split_ifs at hstrict with hforbidden
      · refine .inr (.inr ⟨fun rule hrule => ?_, hforbidden.2⟩)
        have hle := hall rule hrule.deciding
        rw [hforbidden.1] at hle
        exact eq_allow_of_rank hle
      · exact .inr (.inl ⟨decider, hdecider', hfrom ▸ hstrict⟩)
    · rintro (hnone | ⟨rule, hrule, hle⟩ | ⟨hallow, hforbids⟩)
      · exact absurd hshadow (not_exists.mpr hnone)
      · exact hle.trans ((hall rule hrule.deciding).trans (rank_le_afterOutcomes _))
      · rw [hfrom, hallow decider hdecider', PolicyContext.afterOutcomes, if_pos ⟨rfl, hforbids⟩]
        decide
  · have hnone := not_exists.mp hshadow
    obtain ⟨rule, hrule, happroval⟩ := critical_deciding hmismatch hcritical hnone
    refine iff_of_true ?_ (.inl hnone)
    exact (happroval ▸ hall rule hrule).trans (rank_le_afterOutcomes _)

/-- **When the engine of the gateway is as strict as its invariants demand.** -/
theorem guarded_iff (pdp : PdpEngine) {required : Decision}
    (hdemands : context.demands = some required) :
    decisionStrictnessRank required ≤ decisionStrictnessRank (pdp.evaluate context).decision ↔
      pdp.Guarded context := by
  have hcases : (required = .deny ∧ context.scopeMismatch = true) ∨
      (required = .requireApproval ∧ context.scopeMismatch = false ∧
        context.criticalRiskNoApproval = true) := by
    rw [PolicyContext.demands] at hdemands
    split_ifs at hdemands with hmismatch hcritical
    · exact .inl ⟨(Option.some.inj hdemands).symm, hmismatch⟩
    · exact .inr ⟨(Option.some.inj hdemands).symm, Bool.not_eq_true _ ▸ hmismatch, hcritical⟩
  cases pdp with
  | static =>
    refine iff_of_true ?_ trivial
    rw [PdpEngine.evaluate, staticEvaluate_decision]
    refine le_trans ?_ (rank_le_afterOutcomes _)
    rcases hcases with ⟨rfl, hmismatch⟩ | ⟨rfl, hmismatch, hcritical⟩
    · simp [PolicyContext.conditions, hmismatch]
    · simp [PolicyContext.conditions, hmismatch, hcritical]
  | bundles source =>
    cases source with
    | nil =>
      have hdecision : (PdpEngine.evaluate (.bundles []) context).decision =
          context.afterOutcomes .allow := outcomePostPass_decision context _
      rw [hdecision, PolicyContext.afterOutcomes, PdpEngine.Guarded]
      cases context.forbids with
      | true => rcases hcases with ⟨rfl, -⟩ | ⟨rfl, -⟩ <;> decide
      | false => rcases hcases with ⟨rfl, -⟩ | ⟨rfl, -⟩ <;> decide
    | cons bundle rest =>
      obtain ⟨result, hresult, hdecision⟩ := bundleEvaluate_cons bundle rest hdemands
      rw [PdpEngine.evaluate, hdecision, PdpEngine.Guarded]
      rcases hcases with ⟨rfl, hmismatch⟩ | ⟨rfl, hmismatch, hcritical⟩
      · obtain ⟨rule, hrule, hdeny⟩ := scope_deciding bundle hmismatch
        have hstrict := (evaluateBundleRules_strict hresult .deny).mpr ⟨rule, hrule, by rw [hdeny]⟩
        exact iff_of_true (hstrict.trans (rank_le_afterOutcomes _)) (.inl hmismatch)
      · rw [shadowed_iff hmismatch hcritical hresult, hmismatch]
        simp

end Engine

/-! ### The gateway -/

/-- What has to hold of the bundles, by the mode of the gateway, for a decision to be as strict as
required. -/
def Guarded (mode : PdpMode) (pdp : PdpEngine) (active : Option (List PolicyBundle))
    (context : PolicyContext) (required : Decision) : Prop :=
  match mode with
  | .static => pdp.Guarded context
  | .bundles => ∃ bundles ∈ active, FirstDecides context required bundles
  | .dual =>
    (∃ bundles ∈ active, FirstDecides context required bundles) ∨
    ((∀ bundles ∈ active, ∀ bundle ∈ bundles, bundle.Silent context) ∧ pdp.Guarded context)

theorem not_firstDecides {context : PolicyContext} {required : Decision}
    {bundles : List PolicyBundle} (h : ∀ bundle ∈ bundles, bundle.Silent context) :
    ¬ FirstDecides context required bundles := by
  induction bundles with
  | nil => exact id
  | cons bundle rest ih =>
    rintro (⟨rule, hrule, -⟩ | ⟨-, hrest⟩)
    · exact not_silent_of_deciding hrule (h bundle List.mem_cons_self)
    · exact ih (fun b hb => h b (List.mem_cons_of_mem _ hb)) hrest

/-- **When the invariants hold**: for every mode, engine and store, exactly when the bundles that
are asked first are themselves as strict, or leave the decision to an engine that keeps to its
invariants. -/
theorem invariants_held_iff (mode : PdpMode) (pdp : PdpEngine)
    (active : Option (List PolicyBundle)) (context : PolicyContext) :
    ((context.scopeMismatch = true →
        (evaluateProposalDecision mode pdp active context).decision = .deny) ∧
      (context.criticalRiskNoApproval = true →
        decisionStrictnessRank .requireApproval ≤
          decisionStrictnessRank (evaluateProposalDecision mode pdp active context).decision)) ↔
      ∀ required ∈ context.demands, Guarded mode pdp active context required := by
  rw [demands_iff]
  refine forall_congr' fun required => forall_congr' fun hdemands => ?_
  have hpositive : ¬ decisionStrictnessRank required ≤ decisionStrictnessRank .allow := by
    rw [Option.mem_def, PolicyContext.demands] at hdemands
    split_ifs at hdemands <;> cases hdemands <;> decide
  cases hactive : evaluateActivePolicyBundles active context with
  | none =>
    have hsilent : ∀ bundles ∈ active, ∀ bundle ∈ bundles, bundle.Silent context := by
      rintro bundles rfl
      exact evaluateActive_none.mp hactive
    have hfirst : ¬ ∃ bundles ∈ active, FirstDecides context required bundles :=
      fun ⟨bundles, hmem, h⟩ => not_firstDecides (hsilent bundles hmem) h
    cases mode with
    | static => exact guarded_iff pdp hdemands
    | bundles =>
      rw [evaluateProposalDecision, hactive]
      exact iff_of_false hpositive hfirst
    | dual =>
      rw [evaluateProposalDecision, hactive, Guarded, or_iff_right hfirst, and_iff_right hsilent]
      exact guarded_iff pdp hdemands
  | some response =>
    cases active with
    | none => cases hactive
    | some bundles =>
      have hstrict := evaluateActive_strict hactive required
      have hloud : ¬ ∀ list ∈ some bundles, ∀ bundle ∈ list, bundle.Silent context := by
        intro h
        rw [evaluateActive_none.mpr (h bundles rfl)] at hactive
        cases hactive
      have hfirst : (∃ list ∈ some bundles, FirstDecides context required list) ↔
          FirstDecides context required bundles := by simp
      cases mode with
      | static => exact guarded_iff pdp hdemands
      | bundles =>
        rw [evaluateProposalDecision, hactive, Guarded, hfirst]
        exact hstrict
      | dual =>
        rw [evaluateProposalDecision, hactive, Guarded, hfirst, or_iff_left fun h => hloud h.1]
        exact hstrict

namespace PolicySample

/-- A mutation without any scope. -/
def unscoped : PolicyContext := ThresholdSample.tainted 0

/-- A critical risk that changes nothing. -/
def critical : PolicyContext :=
  { unscoped with proposal :=
    { unscoped.proposal with
      requestedRollbackClass := .r0NativeReversible, estimatedRisk := .critical } }

/-- A bundle that allows everything, with the highest priority. -/
def permissive : PolicyBundle where
  bundleId := "operator"
  rules := [⟨"allow.all", "Allow everything", .allow, .max, []⟩]

end PolicySample

open PolicySample in
/-- An active bundle that allows everything wins over the static engine; without active bundles the
bundle mode allows by default; and in the bundle engine itself a rule of the highest priority comes
before the invariant on critical risks. -/
theorem invariants_overridden :
    unscoped.scopeMismatch = true ∧ critical.criticalRiskNoApproval = true ∧
    (evaluateProposalDecision .dual .static (some [permissive]) unscoped).decision = .allow ∧
    (evaluateProposalDecision .bundles .static (some []) unscoped).decision = .allow ∧
    (evaluateProposalDecision .static (.bundles [permissive]) (some []) critical).decision =
      .allow := by
  decide +kernel

end FerrumGate
