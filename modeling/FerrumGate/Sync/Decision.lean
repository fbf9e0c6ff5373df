import FerrumGate.Proto.Text

/-!
# Sync decisions

`ferrum-sync/src/{decision, preflight, transport, repo}.rs` and
`ferrum-store/src/sync_service.rs`. The decision kernel `decide` maps two ledger tips and a
hash-path verdict to a decision; `classify` and `diff_class_to_decision` map the tips alone. The
readiness service runs the preflight checks and then takes the second way.

* **`decisions_agree_iff`** : where the second way proceeds, the kernel decides the same exactly if
  there is a tip at all and, with the leader ahead of a follower that has one, the hash path is
  valid; and a readiness verdict always carries the kernel's decision, since it needs a leader tip
  and a verified chain.
* `sync_past_invalid_path` : tips on which the second way syncs and the kernel aborts.

The kernel's hash-path verdict is `verify_local_chain_for_hash_path_valid`, that is, whether the
chain verifies.
-/

namespace FerrumGate.Sync

/-! ## The decision kernel -/

structure TipId where
  sequence : UInt64
  hash : String
  deriving DecidableEq

inductive Sync1AbortCode where
  | A0 | A3 | A4 | A5 | A6 | A7 | A8
  deriving DecidableEq

structure DecisionInput where
  followerTip : Option TipId
  leaderTip : Option TipId
  hashPathValid : Bool
  deriving DecidableEq

inductive Sync1Decision where
  | done
  | sync
  | fastForward
  | abort (code : Sync1AbortCode)
  deriving DecidableEq

def Sync1Decision.isProceed : Sync1Decision → Bool
  | .abort _ => false
  | _ => true

/-- **`decide`** -/
def DecisionInput.decide (input : DecisionInput) : Sync1Decision :=
  match input.leaderTip with
  | none => .abort .A7
  | some leader =>
    match input.followerTip with
    | none => .fastForward
    | some follower =>
      if leader.sequence = follower.sequence then
        if leader.hash = follower.hash then .done else .abort .A3
      else if leader.sequence < follower.sequence then .abort .A4
      else if input.hashPathValid then .sync
      else .abort .A3

/-! ## The diff classifier -/

inductive DiffClass where
  | inSync | followerAhead | leaderAhead | bootstrap | divergent | unknown
  deriving DecidableEq

/-- **`classify`**. The tips are compared as a whole first; the two `Unknown` exits of the source
are behind tests that leave both tips present. -/
def classify (followerTip leaderTip : Option TipId) : DiffClass :=
  if followerTip.isNone && leaderTip.isNone then .inSync
  else if followerTip.isSome && followerTip = leaderTip then .inSync
  else if followerTip.isSome && leaderTip.isNone then .followerAhead
  else if followerTip.isNone && leaderTip.isSome then .bootstrap
  else
    match followerTip, leaderTip with
    | none, _ => .unknown
    | _, none => .unknown
    | some follower, some leader =>
      if leader.sequence < follower.sequence then .followerAhead
      else if follower.sequence < leader.sequence then .leaderAhead
      else if follower.hash = leader.hash then .inSync
      else .divergent

/-- `diff_class_to_decision` -/
def diffClassToDecision : DiffClass → Sync1Decision
  | .inSync => .done
  | .followerAhead => .abort .A4
  | .leaderAhead => .sync
  | .bootstrap => .fastForward
  | .divergent => .abort .A3
  | .unknown => .abort .A0

/-! ## Preflight -/

inductive PreflightCheckCode where
  | PF1 | PF2 | PF3 | PF4 | PF5 | PF6 | PF7 | PF8
  deriving DecidableEq

inductive PreflightResult where
  | pass
  | fail (code : PreflightCheckCode)
  deriving DecidableEq

structure PreflightInput where
  chainIntegrityOk : Bool
  noInflightCommits : Bool
  leaderIdentityKnown : Bool
  leaderAuthorized : Bool
  ledgerReadable : Bool
  noUncommittedEntries : Bool
  notCurrentlySyncing : Bool
  leaderTipAvailable : Bool

/-- `run_preflight`: the first check that fails. -/
def runPreflight (input : PreflightInput) : PreflightResult :=
  if !input.chainIntegrityOk then .fail .PF1
  else if !input.noInflightCommits then .fail .PF2
  else if !input.leaderIdentityKnown then .fail .PF3
  else if !input.leaderAuthorized then .fail .PF4
  else if !input.ledgerReadable then .fail .PF5
  else if !input.noUncommittedEntries then .fail .PF6
  else if !input.notCurrentlySyncing then .fail .PF7
  else if !input.leaderTipAvailable then .fail .PF8
  else .pass

structure LocalPreflightState where
  followerTip : Option TipId
  hasInflightCommits : Bool
  hasUncommittedEntries : Bool
  syncInProgress : Bool

structure PreflightTransportInput where
  leaderAddress : Option String
  cachedLeaderTip : Option TipId

structure PreflightTransportFlags where
  leaderIdentityKnown : Bool
  leaderTipAvailable : Bool

def PreflightTransportInput.evaluate (input : PreflightTransportInput) :
    PreflightTransportFlags where
  leaderIdentityKnown := (input.leaderAddress.map fun a => !(trim a).isEmpty).getD false
  leaderTipAvailable := input.cachedLeaderTip.isSome

/-- `build_preflight_input` -/
def buildPreflightInput (localState : LocalPreflightState) (chainVerified leaderIdentityKnown
    leaderAuthorized leaderTipAvailable : Bool) : PreflightInput where
  chainIntegrityOk := chainVerified
  noInflightCommits := !localState.hasInflightCommits
  leaderIdentityKnown := leaderIdentityKnown
  leaderAuthorized := leaderAuthorized
  ledgerReadable := true
  noUncommittedEntries := !localState.hasUncommittedEntries
  notCurrentlySyncing := !localState.syncInProgress
  leaderTipAvailable := leaderTipAvailable

/-! ## The readiness service -/

inductive SyncRepoError where
  | chainIntegrityFailed (reason : String)
  | ledgerNotReadable (reason : String)
  | internalError (reason : String)

def SyncRepoError.display : SyncRepoError → String
  | .chainIntegrityFailed reason => "local chain integrity check failed: " ++ reason
  | .ledgerNotReadable reason => "local ledger not readable: " ++ reason
  | .internalError reason => "internal repo error: " ++ reason

/-- What the repository answers during one evaluation; a failed read of the tip cache answers the
text of its error. -/
structure SyncPreflightRepo where
  verifyLocalChain : Except SyncRepoError Unit
  readLocalState : Except SyncRepoError LocalPreflightState
  isLeaderAuthorized : String → Except SyncRepoError Bool
  readLeaderTip : String → Except String (Option TipId)

/-- `verify_local_chain_for_hash_path_valid` -/
def SyncPreflightRepo.verifyLocalChainForHashPathValid (repo : SyncPreflightRepo) : Bool :=
  repo.verifyLocalChain.isOk

inductive SyncReadinessVerdict where
  | preflightFailed (failedCheck : PreflightCheckCode)
  | ready (diffClass : DiffClass) (decision : Sync1Decision)
      (followerTip leaderTip : Option TipId)
  deriving DecidableEq

inductive SyncReadinessError where
  | chainVerificationFailed (msg : String)
  | localStateReadFailed (msg : String)
  | leaderAuthCheckFailed (msg : String)
  deriving DecidableEq

/-- **`evaluate_sync_readiness_from_cache`** -/
def evaluateSyncReadinessFromCache (leaderAddress : Option String) (repo : SyncPreflightRepo) :
    Except SyncReadinessError SyncReadinessVerdict := do
  repo.verifyLocalChain.mapError fun e => .chainVerificationFailed e.display
  let chainVerified := true
  let localState ← repo.readLocalState.mapError fun e => .localStateReadFailed e.display
  let leaderAuthorized ← (repo.isLeaderAuthorized (leaderAddress.getD "")).mapError fun e =>
    .leaderAuthCheckFailed e.display
  let cachedLeaderTip ← (repo.readLeaderTip (leaderAddress.getD "")).mapError fun e =>
    .leaderAuthCheckFailed ("leader_tip_cache read failed: " ++ e)
  let flags := PreflightTransportInput.evaluate ⟨leaderAddress, cachedLeaderTip⟩
  let input := buildPreflightInput localState chainVerified flags.leaderIdentityKnown
    leaderAuthorized flags.leaderTipAvailable
  match runPreflight input with
  | .fail failedCheck => return .preflightFailed failedCheck
  | .pass =>
    let diffClass := classify localState.followerTip cachedLeaderTip
    return .ready diffClass (diffClassToDecision diffClass) localState.followerTip cachedLeaderTip

/-! ## The two ways agree -/

section Agreement

variable {followerTip leaderTip : Option TipId} {follower leader : TipId} {hashPathValid : Bool}

/-- Two tips are classified by their sequence numbers, and at one number by their hashes. -/
theorem classify_tips : classify (some follower) (some leader) =
    if leader.sequence < follower.sequence then .followerAhead
    else if follower.sequence < leader.sequence then .leaderAhead
    else if follower.hash = leader.hash then .inSync else .divergent := by
  by_cases heq : follower = leader
  · subst heq
    simp [classify]
  · simp [classify, heq]

/-- With a leader tip the two ways part only at a leader that is ahead on an invalid path. -/
theorem decide_leader
    (hpath : ∀ follower, followerTip = some follower → follower.sequence < leader.sequence →
      hashPathValid = true) :
    DecisionInput.decide ⟨followerTip, some leader, hashPathValid⟩ =
      diffClassToDecision (classify followerTip (some leader)) := by
  cases followerTip with
  | none => rfl
  | some follower =>
    rw [classify_tips]
    by_cases hlt : leader.sequence < follower.sequence
    · simp [DecisionInput.decide, hlt, UInt64.ne_of_lt hlt, diffClassToDecision]
    by_cases hgt : follower.sequence < leader.sequence
    · simp [DecisionInput.decide, hgt, hlt, (UInt64.ne_of_lt hgt).symm, hpath follower rfl hgt,
        diffClassToDecision]
    · have heq : leader.sequence = follower.sequence :=
        UInt64.le_antisymm (UInt64.not_lt.mp hgt) (UInt64.not_lt.mp hlt)
      by_cases hhash : leader.hash = follower.hash
      · simp [DecisionInput.decide, heq, hhash, diffClassToDecision]
      · simp [DecisionInput.decide, heq, hhash, Ne.symm hhash, diffClassToDecision]

/-- Where the hash path matters. -/
theorem decide_ahead (h : follower.sequence < leader.sequence) :
    DecisionInput.decide ⟨some follower, some leader, false⟩ = .abort .A3 ∧
      classify (some follower) (some leader) = .leaderAhead := by
  have hnot : ¬ leader.sequence < follower.sequence := UInt64.lt_asymm h
  rw [classify_tips, if_neg hnot, if_pos h]
  exact ⟨by simp [DecisionInput.decide, (UInt64.ne_of_lt h).symm, hnot], rfl⟩

end Agreement

theorem runPreflight_pass {input : PreflightInput} (h : runPreflight input = .pass) :
    input.chainIntegrityOk = true ∧ input.leaderTipAvailable = true := by
  unfold runPreflight at h
  split_ifs at h with h1 h2 h3 h4 h5 h6 h7 h8
  simp only [Bool.not_eq_true', Bool.not_eq_false] at h1 h8
  exact ⟨h1, h8⟩

section Readiness

variable {leaderAddress : Option String} {repo : SyncPreflightRepo} {diffClass : DiffClass}
  {decision : Sync1Decision} {followerTip leaderTip : Option TipId}

/-- What a readiness verdict says about the repository. -/
theorem ready_inv (h : evaluateSyncReadinessFromCache leaderAddress repo =
      .ok (.ready diffClass decision followerTip leaderTip)) :
    repo.verifyLocalChainForHashPathValid = true ∧ leaderTip.isSome = true ∧
      diffClass = classify followerTip leaderTip ∧ decision = diffClassToDecision diffClass := by
  unfold evaluateSyncReadinessFromCache at h
  obtain ⟨chain, localState, authorized, readTip⟩ := repo
  rcases chain with _ | _
  · cases h
  rcases localState with _ | localState
  · cases h
  cases hauth : authorized (leaderAddress.getD "") with
  | error e => simp [hauth, Except.mapError, bind, Except.bind] at h
  | ok leaderAuthorized =>
    cases htip : readTip (leaderAddress.getD "") with
    | error e => simp [hauth, htip, Except.mapError, bind, Except.bind] at h
    | ok cachedLeaderTip =>
      simp only [hauth, htip, Except.mapError, bind, Except.bind] at h
      split at h
      · cases h
      · next hpass =>
        cases h
        exact ⟨rfl, (runPreflight_pass hpass).2, rfl, rfl⟩

end Readiness

/-- **The two ways agree where the service goes.** -/
theorem decisions_agree_iff :
    (∀ (followerTip leaderTip : Option TipId) (hashPathValid : Bool),
      ((diffClassToDecision (classify followerTip leaderTip)).isProceed = true →
        DecisionInput.decide ⟨followerTip, leaderTip, hashPathValid⟩ =
          diffClassToDecision (classify followerTip leaderTip)) ↔
      (followerTip ≠ none ∨ leaderTip ≠ none) ∧
        ∀ follower leader, followerTip = some follower → leaderTip = some leader →
          follower.sequence < leader.sequence → hashPathValid = true) ∧
    ∀ leaderAddress repo diffClass decision followerTip leaderTip,
      evaluateSyncReadinessFromCache leaderAddress repo =
          .ok (.ready diffClass decision followerTip leaderTip) →
        decision =
          DecisionInput.decide ⟨followerTip, leaderTip, repo.verifyLocalChainForHashPathValid⟩ := by
  refine ⟨fun followerTip leaderTip hashPathValid => ?_, ?_⟩
  · cases leaderTip with
    | none =>
      cases followerTip with
      | none => simp [classify, diffClassToDecision, Sync1Decision.isProceed, DecisionInput.decide]
      | some follower => simp [classify, diffClassToDecision, Sync1Decision.isProceed]
    | some leader =>
      constructor
      · intro hagree
        refine ⟨.inr (Option.some_ne_none leader), ?_⟩
        rintro follower _ rfl ⟨⟩ hahead
        by_contra hinvalid
        obtain ⟨habort, hclass⟩ := decide_ahead hahead
        rw [hclass, Bool.eq_false_of_not_eq_true hinvalid, habort] at hagree
        cases hagree rfl
      · rintro ⟨-, hpath⟩ -
        exact decide_leader fun follower hfollower => hpath follower leader hfollower rfl
  · intro leaderAddress repo diffClass decision followerTip leaderTip h
    obtain ⟨hchain, htip, hclass, hdecision⟩ := ready_inv h
    obtain ⟨leader, rfl⟩ := Option.isSome_iff_exists.mp htip
    rw [hdecision, hclass, hchain]
    exact (decide_leader fun _ _ _ => rfl).symm

/-- A repository that is ready to fetch two entries. -/
def readyRepo : SyncPreflightRepo where
  verifyLocalChain := .ok ()
  readLocalState := .ok ⟨some ⟨5, "e5"⟩, false, false, false⟩
  isLeaderAuthorized _ := .ok true
  readLeaderTip _ := .ok (some ⟨7, "e7"⟩)

theorem decisions_agree_ready :
    evaluateSyncReadinessFromCache (some "leader:9000") readyRepo =
      .ok (.ready .leaderAhead .sync (some ⟨5, "e5"⟩) (some ⟨7, "e7"⟩)) ∧
    Sync1Decision.sync = DecisionInput.decide ⟨some ⟨5, "e5"⟩, some ⟨7, "e7"⟩, true⟩ := by
  have hready : evaluateSyncReadinessFromCache (some "leader:9000") readyRepo =
      .ok (.ready .leaderAhead .sync (some ⟨5, "e5"⟩) (some ⟨7, "e7"⟩)) := rfl
  exact ⟨hready, decisions_agree_iff.2 _ _ _ _ _ _ hready⟩

/-- With the leader ahead on an invalid path, and with no tips at all, the classifier proceeds and
the kernel aborts. -/
theorem sync_past_invalid_path :
    diffClassToDecision (classify (some ⟨5, "e5"⟩) (some ⟨7, "e7"⟩)) = .sync ∧
    DecisionInput.decide ⟨some ⟨5, "e5"⟩, some ⟨7, "e7"⟩, false⟩ = .abort .A3 ∧
    diffClassToDecision (classify none none) = .done ∧
    DecisionInput.decide ⟨none, none, true⟩ = .abort .A7 := by
  decide

end FerrumGate.Sync
