import FerrumGate.Gateway.Mfa
import FerrumGate.Safety.MfaLockout

/-!
# Codes, counters and guesses over every interleaving

Any number of requests that are protected by a second factor, each one a process of its own.

* **`codes_used_once`** : the counters recorded for a factor are strictly increasing, and no request
  whose code was compared succeeds without such a record of its own.
* **`locked_agent_not_compared`** : no code is compared after a check that has seen an active lock,
  as long as no check falls in the last second of a lock.
* **`guesses_bounded`** : at most `max_attempts` wrong codes are compared before the lock expires,
  as long as each one is compared with the lockout its check has read, and counted before the next.
-/

namespace FerrumGate.Mfa

open Interleave

/-- The transcript of a request. -/
abbrev Seen := Transcript MfaOp MfaOp.Result

/-! ## What a request may do -/

/-- What the last check of the agent's lockout has read. -/
def lastCheck (agentId : String) : Seen → Option (Option MfaAgentLockoutRecord × Timestamp)
  | [] => none
  | ⟨.getAgentLockout agentId', .ok reading⟩ :: t =>
    if agentId' = agentId then some reading else lastCheck agentId t
  | _ :: t => lastCheck agentId t

/-- The last check has found less than a second of the lock left. -/
def Passed (agentId : String) (t : Seen) : Prop :=
  ∃ row now, lastCheck agentId t = some (row, now) ∧
    ∀ expiry, lockOf row = some expiry → expiry < now + seconds 1

def may (env : MfaEnv) (t : Seen) : MfaOp → Prop
  | .compare agentId _ _ _ => Passed agentId t
  | .recordAgentFailure _ maxAttempts durationSecs =>
    maxAttempts = env.policy.maxAttempts ∧ durationSecs = env.policy.durationSecs
  | .resetAgentLockout agentId => ∃ id secret code counter,
      (⟨.compare agentId id secret code, some counter⟩ : Reply MfaOp MfaOp.Result) ∈ t
  | _ => True

/-- A factor that is found has the id that was asked for. -/
def gives : (o : MfaOp) → o.Result → Prop
  | .getFactor id, .ok (some row) => row.mfaFactorId = id
  | _, _ => True

def conduct (env : MfaEnv) : Conduct MfaOp MfaOp.Result := ⟨may env, gives⟩

def MfaOp.isCompare : MfaOp → Bool
  | .compare .. => true
  | _ => false

/-- Every code that was compared was right, and its counter has been recorded. -/
def Settled (t : Seen) : Prop :=
  ∀ agentId id secret code reply,
    (⟨.compare agentId id secret code, reply⟩ : Reply MfaOp MfaOp.Result) ∈ t →
      ∃ counter, reply = some counter ∧
        (⟨.recordUse id counter, .ok true⟩ : Reply MfaOp MfaOp.Result) ∈ t

/-- No code has been compared yet. -/
def Uncompared (t : Seen) : Prop := ∀ e ∈ t, e.1.isCompare = false

section Obeys

variable {env : MfaEnv} {agentId code : String} {record : MfaCredentialRecord} {t : Seen}

theorem obeys_perform {α : Type} {Q : α → Seen → Prop} {o : MfaOp} {f : o.Result → MfaProg α} :
    Obeys (conduct env) Q (perform o >>= f) t ↔
      may env t o ∧ ∀ r, gives o r → Obeys (conduct env) Q (f r) (⟨o, r⟩ :: t) := Iff.rfl

theorem recordFactorFailure_obeys :
    Obeys (conduct env) (fun _ _ => True) (recordFactorFailure env record) t := by
  unfold recordFactorFailure
  refine obeys_perform.mpr ⟨trivial, fun r _ => ?_⟩
  rcases r with e | ⟨_ | _, now⟩
  · trivial
  · trivial
  · exact obeys_perform.mpr ⟨trivial, fun _ _ => trivial⟩

theorem factorRetry_obeys (locked : Bool) :
    Obeys (conduct env) (fun _ _ => True) (factorRetry record locked) t := by
  unfold factorRetry
  cases locked with
  | false => trivial
  | true =>
    refine obeys_perform.mpr ⟨trivial, fun r _ => ?_⟩
    cases r with
    | error e => trivial
    | ok row => exact obeys_perform.mpr ⟨trivial, fun _ _ => trivial⟩

theorem recordFailure_obeys :
    Obeys (conduct env) (fun result _ => ∀ counter, result ≠ .success counter)
      (recordFailure env agentId record) t := by
  unfold recordFailure
  refine obeys_perform.mpr ⟨⟨rfl, rfl⟩, fun r _ => ?_⟩
  cases r with
  | error e => simp [obeys_pure]
  | ok u =>
    refine obeys_perform.mpr ⟨trivial, fun r _ => ?_⟩
    rcases r with e | ⟨_ | row, now⟩
    · simp [obeys_pure]
    · simp [obeys_pure]
    · refine obeys_bind.mpr (recordFactorFailure_obeys.mono fun r t' _ => ?_)
      cases r with
      | error e => simp [obeys_pure]
      | ok factorLocked =>
        refine obeys_perform.mpr ⟨trivial, fun later _ => ?_⟩
        refine obeys_bind.mpr ((factorRetry_obeys factorLocked).mono fun r t' _ => ?_)
        cases r with
        | error e => simp [obeys_pure]
        | ok retry =>
          dsimp only
          split <;> simp [obeys_pure]

/-- A success is the reply to the one code that was compared. -/
def Matched (agentId : String) (id : MfaFactorId) (result : TotpVerifyResult) (t : Seen) : Prop :=
  ∀ counter, result = .success counter → ∃ secret code t₀,
    t = ⟨.compare agentId id secret code, some counter⟩ :: t₀ ∧ Uncompared t₀

theorem compareCode_obeys (hpassed : Passed agentId t) (ht : Uncompared t) :
    Obeys (conduct env) (Matched agentId record.mfaFactorId)
      (compareCode env agentId record code) t := by
  unfold compareCode
  split
  · simp [obeys_pure, Matched]
  · rename_i secret _
    refine obeys_perform.mpr ⟨hpassed, fun r _ => ?_⟩
    cases r with
    | some counter =>
      intro counter' h
      cases h
      exact ⟨secret, code, t, rfl, ht⟩
    | none => exact recordFailure_obeys.mono fun result t' h counter hresult => absurd hresult (h counter)

theorem passed_of_retry {row : Option MfaAgentLockoutRecord} {now : Timestamp}
    (h : ¬ 0 < (retryAfter (lockOf row) now).getD 0) :
    ∀ expiry, lockOf row = some expiry → expiry < now + seconds 1 := by
  intro expiry hexpiry
  by_contra hlate
  have hleft : now + seconds 1 ≤ expiry := Nat.le_of_not_lt hlate
  have hactive : now < expiry := Nat.lt_of_lt_of_le (Nat.lt_add_of_pos_right (by decide)) hleft
  apply h
  rw [hexpiry, retryAfter, Option.filter_some, if_pos (decide_eq_true hactive)]
  exact Nat.div_pos (Nat.le_sub_of_add_le' hleft) (by decide)

theorem verifyTotpWithLockout_obeys (ht : Uncompared t) :
    Obeys (conduct env) (Matched agentId record.mfaFactorId)
      (verifyTotpWithLockout env agentId record code) t := by
  unfold verifyTotpWithLockout
  refine obeys_perform.mpr ⟨trivial, fun r _ => ?_⟩
  rcases r with e | ⟨row, now⟩
  · exact fun _ h => by cases h
  · have hread : lastCheck agentId (⟨.getAgentLockout agentId, .ok (row, now)⟩ :: t) =
        some (row, now) := by
      simp [lastCheck]
    have ht' : Uncompared (⟨.getAgentLockout agentId, .ok (row, now)⟩ :: t) :=
      List.forall_mem_cons.mpr ⟨rfl, ht⟩
    change Obeys _ _ (if 0 < (retryAfter (lockOf row) now).getD 0 then _ else _) _
    split_ifs with hretry
    · exact fun _ h => by cases h
    · have hexpiry := passed_of_retry hretry
      refine obeys_bind.mpr ?_
      unfold checkFactorLockout
      cases record.lockedUntil with
      | none => exact compareCode_obeys ⟨row, now, hread, hexpiry⟩ ht'
      | some factorExpiry =>
        refine obeys_perform.mpr ⟨trivial, fun later _ => ?_⟩
        rw [obeys_pure]
        split
        · exact fun _ h => by cases h
        · exact compareCode_obeys ⟨row, now, hread, hexpiry⟩ (List.forall_mem_cons.mpr ⟨rfl, ht'⟩)

/-! ### Handlers -/

theorem obeysE_ask {α : Type} {Q : α → Seen → Prop} {o : MfaOp} {f : o.Result → MfaHandler α} :
    ObeysE (conduct env) Q (ask o >>= f) t ↔
      may env t o ∧ ∀ r, gives o r → ObeysE (conduct env) Q (f r) (⟨o, r⟩ :: t) := by
  rw [obeysE_bind, ask, obeysE_lift]
  exact Iff.rfl

theorem obeysE_orElse {α β : Type} {Q : β → Seen → Prop} {x : Except StoreError α}
    {problem : StoreError → MfaProblem} {f : α → MfaHandler β} :
    ObeysE (conduct env) Q (orElse problem x >>= f) t ↔
      ∀ a, x = .ok a → ObeysE (conduct env) Q (f a) t := by
  rw [obeysE_bind, orElse, obeysE_ofExcept]
  cases x <;> simp [Except.mapError]

theorem Uncompared.cons {e : Reply MfaOp MfaOp.Result} (he : e.1.isCompare = false)
    (ht : Uncompared t) : Uncompared (e :: t) :=
  List.forall_mem_cons.mpr ⟨he, ht⟩

theorem Uncompared.settled (ht : Uncompared t) : Settled t := by
  intro agentId id secret code reply h
  exact absurd (ht _ h) (by simp [MfaOp.isCompare])

theorem Settled.cons {e : Reply MfaOp MfaOp.Result} (he : e.1.isCompare = false) (ht : Settled t) :
    Settled (e :: t) := by
  intro agentId id secret code reply h
  rcases List.mem_cons.mp h with rfl | h
  · cases he
  · obtain ⟨counter, hreply, hused⟩ := ht agentId id secret code reply h
    exact ⟨counter, hreply, List.mem_cons_of_mem _ hused⟩

theorem acceptCode_obeys (answers : Answers) (ht : Uncompared t) :
    ObeysE (conduct env) (fun _ => Settled)
      (acceptCode env answers agentId record record.mfaFactorId code) t := by
  unfold acceptCode
  rw [obeysE_bind, obeysE_lift]
  refine (verifyTotpWithLockout_obeys ht).mono fun result t' hmatched => ?_
  cases result with
  | locked retry => exact obeysE_throw
  | invalid => exact obeysE_throw
  | internal => exact obeysE_throw
  | success counter =>
    obtain ⟨secret, code', t₀, rfl, ht₀⟩ := hmatched counter rfl
    refine obeysE_ask.mpr ⟨trivial, fun used _ => ?_⟩
    rcases used with e | _ | _
    · exact obeysE_throw
    · exact obeysE_throw
    · refine obeysE_ask.mpr ⟨⟨record.mfaFactorId, secret, code', counter, by simp⟩, fun r _ => ?_⟩
      refine obeysE_orElse.mpr fun _ _ => obeysE_ask.mpr ⟨trivial, fun r' _ => ?_⟩
      refine obeysE_orElse.mpr fun _ _ => obeysE_pure.mpr ?_
      refine .cons rfl (.cons rfl ?_)
      intro agentId' id secret' code'' reply h
      rcases List.mem_cons.mp h with h | h
      · cases h
      · rcases List.mem_cons.mp h with h | h
        · cases h
          exact ⟨counter, rfl, List.mem_cons_self⟩
        · exact absurd (ht₀ _ h) (by simp [MfaOp.isCompare])

theorem refuseLocked_obeys (problem : StoreError → MfaProblem) (ht : Uncompared t) :
    ObeysE (conduct env) (fun _ => Uncompared) (refuseLocked problem agentId) t := by
  unfold refuseLocked
  rw [obeysE_bind, obeysE_lift]
  refine obeys_perform.mpr ⟨trivial, fun r _ => ?_⟩
  rw [obeys_pure]
  split
  · exact obeysE_throw
  · exact obeysE_throw
  · exact obeysE_pure.mpr (ht.cons rfl)

theorem resolveMfaKey_obeys (ht : Uncompared t) :
    ObeysE (conduct env) (fun _ => Uncompared) (resolveMfaKey env) t :=
  obeysE_ofExcept.mpr fun _ _ => ht

theorem ownFactor_obeys (actorId : String) (id : MfaFactorId) (ht : Uncompared t) :
    ObeysE (conduct env) (fun record t' => record.mfaFactorId = id ∧ Uncompared t')
      (ownFactor actorId id) t := by
  unfold ownFactor
  refine obeysE_ask.mpr ⟨trivial, fun row hrow => obeysE_orElse.mpr ?_⟩
  rintro _ rfl
  split
  · exact obeysE_throw
  · split_ifs
    · exact obeysE_throw
    · exact obeysE_throw
    · exact obeysE_pure.mpr ⟨hrow, ht.cons rfl⟩

theorem verifyOrBreakglass_obeys (active : MfaCredentialRecord) (code reason : Option String)
    (breakglass : Bool) (ht : Uncompared t) :
    ObeysE (conduct env) (fun _ => Settled) (verifyOrBreakglass env active code reason breakglass)
      t := by
  unfold verifyOrBreakglass
  cases code with
  | some code =>
    exact obeysE_bind.mpr ((resolveMfaKey_obeys ht).mono fun _ _ ht' => acceptCode_obeys _ ht')
  | none =>
    dsimp only
    split_ifs
    · exact obeysE_throw
    · exact obeysE_throw
    · exact obeysE_pure.mpr ht.settled

/-- **Every request keeps to the conduct**, and if it succeeds every code it compared is settled. -/
theorem handler_obeys (request : MfaRequest) :
    ObeysE (conduct env) (fun _ => Settled) (request.handler env) [] := by
  have hstart : Uncompared [] := fun e he => absurd he (by simp)
  cases request with
  | verify agentId code =>
    refine obeysE_bind.mpr ((resolveMfaKey_obeys hstart).mono fun _ t' ht' => ?_)
    refine obeysE_ask.mpr ⟨trivial, fun _ _ => obeysE_orElse.mpr fun records _ => ?_⟩
    split
    · exact obeysE_throw
    · refine obeysE_bind.mpr ((refuseLocked_obeys _ (ht'.cons rfl)).mono fun _ t' ht' => ?_)
      refine obeysE_bind.mpr ((acceptCode_obeys _ ht').mono fun _ t' ht' => ?_)
      refine obeysE_ask.mpr ⟨trivial, fun _ _ => obeysE_orElse.mpr fun activated _ => ?_⟩
      split_ifs
      · exact obeysE_pure.mpr (ht'.cons rfl)
      · exact obeysE_throw
  | disable agentId code reason breakglass =>
    refine obeysE_ask.mpr ⟨trivial, fun active _ => obeysE_orElse.mpr fun active _ => ?_⟩
    cases active with
    | none => exact obeysE_throw
    | some active =>
      refine obeysE_bind.mpr ((verifyOrBreakglass_obeys active code reason breakglass
        (hstart.cons rfl)).mono fun _ t' ht' => ?_)
      refine obeysE_ask.mpr ⟨trivial, fun revoked _ => obeysE_orElse.mpr fun revoked _ => ?_⟩
      split_ifs
      · exact obeysE_pure.mpr (ht'.cons rfl)
      · exact obeysE_throw
  | rotate agentId code reason breakglass =>
    have hnew : ∀ t' : Seen, Settled t' → ObeysE (conduct env) (fun _ => Settled)
        (newPendingFactor agentId) t' := fun t' ht' => by
      refine obeysE_ask.mpr ⟨trivial, fun record _ => ?_⟩
      cases record with
      | none => exact obeysE_throw
      | some record =>
        refine obeysE_ask.mpr ⟨trivial, fun inserted _ => ?_⟩
        exact obeysE_ofExcept.mpr fun _ _ => (ht'.cons rfl).cons rfl
    refine obeysE_bind.mpr ((resolveMfaKey_obeys hstart).mono fun _ t' ht' => ?_)
    refine obeysE_ask.mpr ⟨trivial, fun _ _ => obeysE_orElse.mpr fun active _ => ?_⟩
    cases active with
    | none => exact hnew _ (ht'.cons rfl).settled
    | some active =>
      refine obeysE_bind.mpr ((verifyOrBreakglass_obeys active code reason breakglass
        (ht'.cons rfl)).mono fun _ t' ht' => ?_)
      refine obeysE_ask.mpr ⟨trivial, fun _ _ => obeysE_orElse.mpr fun _ _ => ?_⟩
      exact hnew _ (ht'.cons rfl)
  | approval actorId factor =>
    cases factor with
    | none => exact obeysE_throw
    | some factor =>
      refine obeysE_bind.mpr ((resolveMfaKey_obeys hstart).mono fun _ t' ht' => ?_)
      refine obeysE_bind.mpr ((refuseLocked_obeys _ ht').mono fun _ t' ht' => ?_)
      refine obeysE_bind.mpr ((ownFactor_obeys actorId factor.id ht').mono ?_)
      rintro record t' ⟨hid, ht'⟩
      split
      · exact obeysE_throw
      · rw [← hid]
        exact acceptCode_obeys _ ht'
  | quarantine actorId factor =>
    cases factor with
    | none => exact obeysE_throw
    | some factor =>
      refine obeysE_bind.mpr ((resolveMfaKey_obeys hstart).mono fun _ t' ht' => ?_)
      split
      · exact obeysE_throw
      · refine obeysE_bind.mpr ((refuseLocked_obeys _ ht').mono fun _ t' ht' => ?_)
        refine obeysE_bind.mpr ((ownFactor_obeys actorId factor.id ht').mono ?_)
        rintro record t' ⟨hid, ht'⟩
        rw [← hid]
        exact acceptCode_obeys _ ht'

end Obeys

/-! ## Runs -/

section Run

variable {env : MfaEnv} {requests : Nat → MfaRequest} {w₀ : MfaStore}

theorem exec_gives (o : MfaOp) (i : MfaInput) (w : MfaStore) : gives o (env.exec o i w).1 := by
  cases o with
  | getFactor id =>
    change gives (.getFactor id) (query i w (Rows.find w.factors id)).1
    unfold query
    split_ifs
    · trivial
    · cases h : Rows.find w.factors id with
      | none => trivial
      | some row => exact Rows.find_key h
  | _ => trivial

theorem start_obeys (p : Nat) :
    Obeys (conduct env) (fun r t => ∀ a, r = .ok a → Settled t)
      ((env.start requests w₀).procs p) (own p (env.start requests w₀).log) :=
  handler_obeys (requests p)

variable (env requests w₀) in
theorem run_behaves (s : List (Nat × MfaInput)) :
    Behaviour env.exec (mayOf fun _ => conduct env) w₀ ((env.start requests w₀).run env.exec s).log
        ((env.start requests w₀).run env.exec s).world ∧
      ∀ p, Obeys (conduct env) (fun r t => ∀ a, r = .ok a → Settled t)
        (((env.start requests w₀).run env.exec s).procs p)
        (own p ((env.start requests w₀).run env.exec s).log) :=
  Config.run_behaviour (fun _ => exec_gives) .start start_obeys s

end Run

/-! ## Counters are used once -/

/-- The counter that a reply reports as recorded for a factor. -/
def usedCounter (id : MfaFactorId) : Reply MfaOp MfaOp.Result → Option Nat
  | ⟨.recordUse id' counter, .ok true⟩ => if id' = id then some counter else none
  | _ => none

/-- The counters that were accepted for a factor, newest first. -/
def usedCounters (id : MfaFactorId) (log : Log MfaOp MfaOp.Result) : List Nat :=
  log.filterMap fun e => usedCounter id e.2

/-- The counter is spent: whatever row the factor has, it has reached it. -/
def Spent (rows : List MfaCredentialRecord) (id : MfaFactorId) (counter : Nat) : Prop :=
  (∃ row ∈ rows, row.mfaFactorId = id) ∧
    ∀ row ∈ rows, row.mfaFactorId = id → ∃ last, row.lastUsedCounter = some last ∧ counter ≤ last

section Used

variable {env : MfaEnv} {id : MfaFactorId} {w : MfaStore} {i : MfaInput} {counter : Nat}

/-- An update that keeps the ids and lowers no counter. -/
theorem Spent.update {rows : List MfaCredentialRecord} {p : MfaCredentialRecord → Bool}
    {f : MfaCredentialRecord → MfaCredentialRecord} (h : Spent rows id counter)
    (hid : ∀ r, (f r).mfaFactorId = r.mfaFactorId)
    (hlast : ∀ r last, p r = true → r.lastUsedCounter = some last →
      ∃ last', (f r).lastUsedCounter = some last' ∧ last ≤ last') :
    Spent (update p f rows).2 id counter := by
  have hkey : ∀ r, (if p r then f r else r).mfaFactorId = r.mfaFactorId := by
    intro r
    split_ifs
    · exact hid r
    · rfl
  obtain ⟨⟨row, hrow, hrowId⟩, hall⟩ := h
  refine ⟨⟨_, List.mem_map_of_mem hrow, (hkey row).trans hrowId⟩, fun row' hrow' hid' => ?_⟩
  obtain ⟨r, hr, rfl⟩ := List.mem_map.mp hrow'
  obtain ⟨last, hcounter, hle⟩ := hall r hr ((hkey r).symm.trans hid')
  by_cases hp : p r = true
  · obtain ⟨last', hcounter', hle'⟩ := hlast r last hp hcounter
    exact ⟨last', by simpa [hp] using hcounter', hle.trans hle'⟩
  · exact ⟨last, by simpa [hp] using hcounter, hle⟩

theorem Spent.update_same {rows : List MfaCredentialRecord} {p : MfaCredentialRecord → Bool}
    {f : MfaCredentialRecord → MfaCredentialRecord} (h : Spent rows id counter)
    (hf : ∀ r, (f r).mfaFactorId = r.mfaFactorId ∧ (f r).lastUsedCounter = r.lastUsedCounter) :
    Spent (Mfa.update p f rows).2 id counter :=
  h.update (fun r => (hf r).1) fun r last _ hr => ⟨last, by rw [(hf r).2, hr], le_rfl⟩

theorem Spent.onFactors {x : Bool × List MfaCredentialRecord} (h : Spent w.factors id counter)
    (hx : Spent x.2 id counter) : Spent (onFactors i w x).2.factors id counter := by
  unfold Mfa.onFactors
  split_ifs
  · exact h
  · exact hx

/-- What is spent stays spent. -/
theorem Spent.exec (h : Spent w.factors id counter) (o : MfaOp) :
    Spent (env.exec o i w).2.factors id counter := by
  cases o with
  | activate id' =>
    refine h.onFactors (Spent.update_same (h.update_same ?_) ?_)
    · exact fun _ => ⟨rfl, rfl⟩
    · exact fun _ => ⟨rfl, rfl⟩
  | revoke id' =>
    refine h.onFactors (h.update_same ?_)
    exact fun _ => ⟨rfl, rfl⟩
  | resetLockout id' =>
    refine h.onFactors (h.update_same ?_)
    exact fun _ => ⟨rfl, rfl⟩
  | recordFailedAttempt id' maxAttempts durationSecs =>
    refine h.onFactors (h.update_same fun r => ?_)
    split_ifs <;> exact ⟨rfl, rfl⟩
  | recordUse id' counter' =>
    change Spent (if _ then _ else _ : Except StoreError Bool × MfaStore).2.factors id counter
    split_ifs
    · exact h
    · refine h.onFactors (h.update (fun _ => rfl) fun r last hp hr => ?_)
      simp only [hr, Option.mem_some_iff, forall_eq', decide_eq_true_eq] at hp
      exact ⟨counter', rfl, hp.2.le⟩
  | insertFactor record =>
    change Spent (if _ then _ else _ : Except StoreError Unit × MfaStore).2.factors id counter
    split_ifs with hstored
    · exact h
    · obtain ⟨⟨row, hrow, hid⟩, hall⟩ := h
      refine ⟨⟨row, List.mem_append_left _ hrow, hid⟩, fun row' hrow' hid' => ?_⟩
      rcases List.mem_append.mp hrow' with hrow' | hrow'
      · exact hall row' hrow' hid'
      · -- the id of the new row is not in the table yet
        cases List.mem_singleton.mp hrow'
        have hnone : Rows.find w.factors record.mfaFactorId = none := by
          cases hfind : Rows.find w.factors record.mfaFactorId <;> simp_all
        exact absurd (hid.trans hid'.symm) (Rows.find_eq_none.mp hnone row hrow)
  | recordAgentFailure agentId maxAttempts durationSecs =>
    change Spent (if _ then _ else if _ then _ else _ : Except StoreError Unit × MfaStore).2.factors
      id counter
    split_ifs <;> exact h
  | resetAgentLockout agentId =>
    change Spent (if _ then _ else _ : Except StoreError Bool × MfaStore).2.factors id counter
    split_ifs
    · exact h
    · split <;> exact h
  | _ => exact h

theorem recordUse_of_used {o : MfaOp} {r : o.Result} (h : usedCounter id ⟨o, r⟩ = some counter) :
    (⟨o, r⟩ : Reply MfaOp MfaOp.Result) = ⟨.recordUse id counter, .ok true⟩ := by
  unfold usedCounter at h
  split at h
  · rename_i id' counter' heq
    rw [heq]
    split_ifs at h with hid
    cases h
    rw [hid]
  · cases h

/-- A counter that is recorded is higher than any that is spent, and is spent then. -/
theorem recordUse_spends {o : MfaOp} (h : usedCounter id ⟨o, (env.exec o i w).1⟩ = some counter) :
    (∀ spent, Spent w.factors id spent → spent < counter) ∧
      Spent (env.exec o i w).2.factors id counter := by
  have hreply := recordUse_of_used h
  obtain ⟨rfl, hreply⟩ := Sigma.mk.inj hreply
  replace hreply := eq_of_heq hreply
  change (if _ then _ else Mfa.onFactors i w (recordUse id counter w.factors) :
    Except StoreError Bool × MfaStore).1 = .ok true at hreply
  change _ ∧ Spent (if _ then _ else Mfa.onFactors i w (recordUse id counter w.factors) :
    Except StoreError Bool × MfaStore).2.factors id counter
  split_ifs at hreply ⊢ with hlarge
  unfold Mfa.onFactors at hreply ⊢
  split_ifs at hreply ⊢ with hfails
  have hany : (recordUse id counter w.factors).1 = true := by simpa using hreply
  obtain ⟨row, hrow, hp⟩ := List.any_eq_true.mp hany
  simp only [decide_eq_true_eq] at hp
  refine ⟨fun spent hspent => ?_, ⟨_, List.mem_map_of_mem hrow, ?_⟩, fun row' hrow' hid' => ?_⟩
  · obtain ⟨last, hlast, hle⟩ := hspent.2 row hrow hp.1
    exact hle.trans_lt (hp.2 last hlast)
  · split_ifs
    · exact hp.1
    · exact hp.1
  · obtain ⟨r, hr, rfl⟩ := List.mem_map.mp hrow'
    split_ifs at hid' ⊢ with hr'
    · exact ⟨counter, rfl, le_rfl⟩
    · simp only [decide_eq_true_eq, not_and, not_forall, not_lt] at hr'
      obtain ⟨last, hlast, hle⟩ := hr' hid'
      exact ⟨last, hlast, hle⟩

/-- What a run keeps: the counters are increasing, and all of them are spent. -/
def Increasing (log : Log MfaOp MfaOp.Result) (w : MfaStore) : Prop :=
  ∀ id, (usedCounters id log).Pairwise (· > ·) ∧
    ∀ counter ∈ usedCounters id log, Spent w.factors id counter

theorem Increasing.step {log : Log MfaOp MfaOp.Result} (h : Increasing log w) (p : Nat) (o : MfaOp)
    (i : MfaInput) :
    Increasing ((p, ⟨o, (env.exec o i w).1⟩) :: log) (env.exec o i w).2 := by
  intro id
  obtain ⟨hpairwise, hspent⟩ := h id
  cases hused : usedCounter id ⟨o, (env.exec o i w).1⟩ with
  | none =>
    have hsame : usedCounters id ((p, ⟨o, (env.exec o i w).1⟩) :: log) = usedCounters id log :=
      List.filterMap_cons_none hused
    rw [hsame]
    exact ⟨hpairwise, fun counter hcounter => (hspent counter hcounter).exec o⟩
  | some counter =>
    have hcons : usedCounters id ((p, ⟨o, (env.exec o i w).1⟩) :: log) =
        counter :: usedCounters id log := List.filterMap_cons_some hused
    obtain ⟨hlower, hnew⟩ := recordUse_spends hused
    rw [hcons]
    refine ⟨List.pairwise_cons.mpr ⟨fun c hc => hlower c (hspent c hc), hpairwise⟩, ?_⟩
    exact List.forall_mem_cons.mpr ⟨hnew, fun c hc => (hspent c hc).exec o⟩

end Used

/-- **Codes are used once**, over every interleaving of requests: the counters accepted for a factor
are strictly increasing in the order of their updates, so that each is accepted once, and a request
whose code was compared succeeds only with such an update of its own. -/
theorem codes_used_once (env : MfaEnv) (requests : Nat → MfaRequest) (w₀ : MfaStore)
    (s : List (Nat × MfaInput)) :
    (∀ id, (usedCounters id ((env.start requests w₀).run env.exec s).log).Pairwise (· > ·)) ∧
    ∀ p, ((env.start requests w₀).run env.exec s).procs p = .pure (.ok ()) →
      ∀ agentId id secret code reply,
        (p, ⟨.compare agentId id secret code, reply⟩) ∈
            ((env.start requests w₀).run env.exec s).log →
          ∃ counter, reply = some counter ∧
            (p, ⟨.recordUse id counter, .ok true⟩) ∈
              ((env.start requests w₀).run env.exec s).log := by
  constructor
  · have hrun : Increasing ((env.start requests w₀).run env.exec s).log
        ((env.start requests w₀).run env.exec s).world :=
      Config.run_preserves (fun _ => exec_gives) (fun p o i _ _ h => h.step p o i) .start start_obeys
        (fun _ => ⟨List.Pairwise.nil, by simp [usedCounters, MfaEnv.start, Config.start]⟩) s
    exact fun id => (hrun id).1
  · intro p hend agentId id secret code reply hcompare
    have hobeys := (run_behaves env requests w₀ s).2 p
    rw [hend] at hobeys
    obtain ⟨counter, hreply, hused⟩ :=
      hobeys () rfl agentId id secret code reply (mem_own.mpr hcompare)
    exact ⟨counter, hreply, mem_own.mp hused⟩

namespace MfaSample

/-- One failure locks for two seconds; the right code is always 0. -/
def env : MfaEnv where
  hotp _ _ := "0"
  decryptSecret secret _ := some secret
  blank reason := reason = ""
  key := .ok ()
  policy := ⟨1, 2, Nat.le_refl 1, by decide⟩

/-- Every request disables the agent's factor with a wrong code. -/
def requests (_ : Nat) : MfaRequest := .disable "agent" (some "1") none false

def storeWith (lockouts : List MfaAgentLockoutRecord) : MfaStore :=
  ⟨[FactorSample.factor 1 .active], lockouts⟩

def input (now : Timestamp) : MfaInput := ⟨false, now, 0, none⟩

/-- The run in which the processes perform one operation each time they are named. -/
def run (lockouts : List MfaAgentLockoutRecord) (now : Timestamp) (ps : List Nat) :
    Config MfaOp MfaOp.Result MfaStore (Except MfaProblem Unit) :=
  (env.start requests (storeWith lockouts)).run env.exec (ps.map (·, input now))

end MfaSample

/-! ## Locked agents -/

/-- The lock is active at the time, with less than a second left. -/
def LastSecond (row : Option MfaAgentLockoutRecord) (now : Timestamp) : Prop :=
  ∃ expiry, lockOf row = some expiry ∧ now < expiry ∧ expiry < now + seconds 1

theorem mem_of_lastCheck {agentId : String} {t : Seen}
    {reading : Option MfaAgentLockoutRecord × Timestamp} (h : lastCheck agentId t = some reading) :
    (⟨.getAgentLockout agentId, .ok reading⟩ : Reply MfaOp MfaOp.Result) ∈ t := by
  fun_induction lastCheck agentId t with
  | case1 => cases h
  | case2 t reading' =>
    cases h
    exact List.mem_cons_self
  | case3 agentId' reading' t hne ih => exact List.mem_cons_of_mem _ (ih h)
  | case4 e t _ ih => exact List.mem_cons_of_mem _ (ih h)

/-- **A locked agent's code is not compared**: in every run in which no check falls in the last
second of a lock, a code is compared only if the check before it has found no active lock. -/
theorem locked_agent_not_compared (env : MfaEnv) (requests : Nat → MfaRequest) (w₀ : MfaStore)
    (s : List (Nat × MfaInput))
    (hclear : ∀ p agentId row now, (p, ⟨.getAgentLockout agentId, .ok (row, now)⟩) ∈
      ((env.start requests w₀).run env.exec s).log → ¬ LastSecond row now)
    (newer older : Log MfaOp MfaOp.Result) (p : Nat) (agentId : String) (id : MfaFactorId)
    (secret code : String) (reply : Option Nat)
    (hlog : ((env.start requests w₀).run env.exec s).log =
      newer ++ (p, ⟨.compare agentId id secret code, reply⟩) :: older) :
    ∃ row now, lastCheck agentId (own p older) = some (row, now) ∧ lockedAt row now = false := by
  obtain ⟨-, -, -, hmay, -⟩ :=
    (run_behaves env requests w₀ s).1.entry hlog
  obtain ⟨row, now, hcheck, hpassed⟩ := hmay
  refine ⟨row, now, hcheck, ?_⟩
  have hread : (p, ⟨.getAgentLockout agentId, .ok (row, now)⟩) ∈
      ((env.start requests w₀).run env.exec s).log := by
    rw [hlog]
    exact List.mem_append_right _ (List.mem_cons_of_mem _ (mem_own.mp (mem_of_lastCheck hcheck)))
  cases hlocked : lockedAt row now with
  | false => rfl
  | true =>
    obtain ⟨expiry, hexpiry, hlt⟩ := lockedAt_iff.mp hlocked
    exact absurd ⟨expiry, hexpiry, hlt, hpassed expiry hexpiry⟩ (hclear p agentId row now hread)

/-- A lock of the agent that ends after two seconds. -/
def MfaSample.lock : MfaAgentLockoutRecord := ⟨"agent", 1, some (seconds 2), 1⟩

open MfaSample in
/-- The lock has just ended. -/
theorem unlocked_agent_compared :
    ∃ row now, lastCheck "agent" (own 0 ((run [lock] (seconds 2) [0, 0]).log)) = some (row, now) ∧
      lockedAt row now = false := by
  have hlog : (run [lock] (seconds 2) [0, 0, 0]).log =
      [(0, ⟨.compare "agent" ⟨1⟩ "" "1", none⟩),
        (0, ⟨.getAgentLockout "agent", .ok (some lock, seconds 2)⟩),
        (0, ⟨.getActiveForAgent "agent", .ok (some (FactorSample.factor 1 .active))⟩)] := rfl
  refine locked_agent_not_compared env requests (storeWith [lock])
    ([0, 0, 0].map (·, input (seconds 2))) (fun p agentId row now hmem => ?_) [] _ 0 "agent" ⟨1⟩ ""
    "1" none hlog
  change (p, _) ∈ (run [lock] (seconds 2) [0, 0, 0]).log at hmem
  rw [hlog] at hmem
  rintro ⟨expiry, hexpiry, hlt, -⟩
  simp only [List.mem_cons, Prod.mk.injEq, List.not_mem_nil, or_false] at hmem
  rcases hmem with ⟨-, h⟩ | ⟨-, h⟩ | ⟨-, h⟩
  · cases h
  · cases h
    cases hexpiry
    exact absurd hlt (by decide)
  · cases h

open MfaSample in
/-- **A code is compared in the last second of a lock**: half a second is left, the check finds no
whole second, and takes the agent for unlocked. -/
theorem compared_in_last_second :
    ∃ reply older row now,
      (run [lock] (seconds 2 - 500000000) [0, 0, 0]).log =
        (0, ⟨.compare "agent" ⟨1⟩ "" "1", reply⟩) :: older ∧
      lastCheck "agent" (own 0 older) = some (row, now) ∧ lockedAt row now = true :=
  ⟨_, _, _, _, rfl, rfl, rfl⟩

/-! ## Guesses -/

/-- A wrong code of the agent was compared. -/
def wrongGuess (agentId : String) : Reply MfaOp MfaOp.Result → Bool
  | ⟨.compare agentId' _ _ _, none⟩ => agentId' = agentId
  | _ => false

/-- A right code of the agent was compared. -/
def rightGuess (agentId : String) : Reply MfaOp MfaOp.Result → Bool
  | ⟨.compare agentId' _ _ _, some _⟩ => agentId' = agentId
  | _ => false

/-- A failure of the agent was recorded. -/
def recordsFailure (agentId : String) : Reply MfaOp MfaOp.Result → Bool
  | ⟨.recordAgentFailure agentId' _ _, .ok ()⟩ => agentId' = agentId
  | _ => false

def guesses (agentId : String) (log : Log MfaOp MfaOp.Result) : Nat :=
  log.countP fun e => wrongGuess agentId e.2

def recordedFailures (agentId : String) (log : Log MfaOp MfaOp.Result) : Nat :=
  log.countP fun e => recordsFailure agentId e.2

/-- What a reply does to the agent's lockout. -/
def lockoutAfter (agentId : String) (now : Timestamp) :
    Reply MfaOp MfaOp.Result → Option MfaAgentLockoutRecord → Option MfaAgentLockoutRecord
  | ⟨.recordAgentFailure agentId' maxAttempts durationSecs, .ok ()⟩, row =>
    if agentId' = agentId then some (failedAttempt agentId maxAttempts durationSecs now row) else row
  | ⟨.resetAgentLockout agentId', .ok _⟩, row =>
    if agentId' = agentId then row.map (·.cleared) else row
  | _, row => row

/-- A code is compared with the lockout that the check has read, and after every wrong code before
it has been recorded; the lock, if there is one, has a second to go; and no code was right. -/
def orderly (agentId : String) (c : Config MfaOp MfaOp.Result MfaStore (Except MfaProblem Unit))
    (p : Nat) (i : MfaInput) : Bool :=
  (match c.procs p with
    | .perform (.compare agentId' _ _ _) _ => agentId' ≠ agentId ||
      ((lastCheck agentId (own p c.log)).any (·.1 = Rows.find c.world.lockouts agentId) &&
        guesses agentId c.log = recordedFailures agentId c.log)
    | _ => true) &&
  (lockOf (Rows.find c.world.lockouts agentId)).all (i.now + seconds 1 ≤ ·) &&
  c.log.all fun e => !rightGuess agentId e.2

section Guesses

variable {env : MfaEnv} {agentId : String}

variable (env agentId) in
theorem find_lockouts (o : MfaOp) (i : MfaInput) (w : MfaStore) :
    Rows.find (env.exec o i w).2.lockouts agentId =
      lockoutAfter agentId i.now ⟨o, (env.exec o i w).1⟩ (Rows.find w.lockouts agentId) := by
  have hfactors : ∀ x, (onFactors i w x).2.lockouts = w.lockouts := fun x => by
    unfold onFactors
    split_ifs <;> rfl
  cases o with
  | activate id => exact congrArg (Rows.find · agentId) (hfactors _)
  | revoke id => exact congrArg (Rows.find · agentId) (hfactors _)
  | resetLockout id => exact congrArg (Rows.find · agentId) (hfactors _)
  | recordFailedAttempt id maxAttempts durationSecs =>
    exact congrArg (Rows.find · agentId) (hfactors _)
  | recordUse id counter =>
    change Rows.find (if _ then _ else _ : Except StoreError Bool × MfaStore).2.lockouts agentId = _
    split_ifs
    · rfl
    · exact congrArg (Rows.find · agentId) (hfactors _)
  | insertFactor record =>
    change Rows.find (if _ then _ else _ : Except StoreError Unit × MfaStore).2.lockouts agentId = _
    split_ifs <;> rfl
  | recordAgentFailure agentId' maxAttempts durationSecs =>
    have hkey := failedAttempt_agentId agentId' maxAttempts durationSecs i.now
      (Rows.find w.lockouts agentId')
    simp only [MfaEnv.exec, exec]
    split_ifs with hfails hrow
    · rfl
    · obtain ⟨row, hrow⟩ := Option.isSome_iff_exists.mp hrow
      simp only [Rows.find_put, Keyed.key, hkey, lockoutAfter]
      split_ifs with hagent
      · subst hagent
        rw [hrow, Option.map_some]
      · rfl
    · have hnone : Rows.find w.lockouts agentId' = none := by simpa using hrow
      simp only [Rows.find_append, Keyed.key, hkey, lockoutAfter]
      split_ifs with hagent
      · subst hagent
        rw [hnone, Option.none_or]
      · rw [Option.or_none]
  | resetAgentLockout agentId' =>
    simp only [MfaEnv.exec, exec]
    split_ifs
    · rfl
    · cases hrow : Rows.find w.lockouts agentId' with
      | none =>
        simp only [lockoutAfter]
        split_ifs with hagent
        · rw [← hagent, hrow, Option.map_none]
        · rfl
      | some row =>
        have hkey : row.agentId = agentId' := Rows.find_key hrow
        simp only [Rows.find_put, Keyed.key, MfaAgentLockoutRecord.cleared, hkey, lockoutAfter]
        split_ifs with hagent
        · rw [← hagent, hrow, Option.map_some, Option.map_some, ← hkey]
        · rfl
  | _ => rfl

/-- What an orderly run keeps: the lockout counts the failures that were recorded. -/
structure Bounded (env : MfaEnv) (agentId : String) (log : Log MfaOp MfaOp.Result) (w : MfaStore) :
    Prop where
  guesses : guesses agentId log ≤ env.policy.maxAttempts
  /-- No check was made later than a second before the end of a lock. -/
  readings : ∀ p row now expiry, (p, ⟨.getAgentLockout agentId, .ok (row, now)⟩) ∈ log →
    lockOf row = some expiry → now + seconds 1 ≤ expiry
  counting : recordedFailures agentId log < env.policy.maxAttempts →
    lockOf (Rows.find w.lockouts agentId) = none ∧
      counting (Rows.find w.lockouts agentId) = recordedFailures agentId log
  locked : env.policy.maxAttempts ≤ recordedFailures agentId log →
    (lockOf (Rows.find w.lockouts agentId)).isSome

variable {log : Log MfaOp MfaOp.Result} {w w' : MfaStore}

/-- A step that is no guess, no check and no write for this agent. -/
theorem Bounded.aside (h : Bounded env agentId log w) (p : Nat) (e : Reply MfaOp MfaOp.Result)
    (hguess : wrongGuess agentId e = false) (hrecord : recordsFailure agentId e = false)
    (hcheck : e.1 ≠ .getAgentLockout agentId)
    (hfind : Rows.find w'.lockouts agentId = Rows.find w.lockouts agentId) :
    Bounded env agentId ((p, e) :: log) w' := by
  have hguesses : Mfa.guesses agentId ((p, e) :: log) = Mfa.guesses agentId log := by
    simp [Mfa.guesses, hguess]
  have hrecords : recordedFailures agentId ((p, e) :: log) = recordedFailures agentId log := by
    simp [recordedFailures, hrecord]
  constructor
  · rw [hguesses]
    exact h.guesses
  · intro q row now expiry hmem
    rcases List.mem_cons.mp hmem with heq | hmem
    · cases heq
      exact absurd rfl hcheck
    · exact h.readings q row now expiry hmem
  · rw [hrecords, hfind]
    exact h.counting
  · rw [hrecords, hfind]
    exact h.locked

/-- A guess is made only while the agent is not locked, so one more is allowed. -/
theorem Bounded.guess (h : Bounded env agentId log w) {p : Nat} {id : MfaFactorId}
    {secret code : String} (reply : Option Nat) (hpassed : Passed agentId (own p log))
    (hfresh : (lastCheck agentId (own p log)).any (·.1 = Rows.find w.lockouts agentId) = true)
    (hcounted : Mfa.guesses agentId log = recordedFailures agentId log) :
    Bounded env agentId ((p, ⟨.compare agentId id secret code, reply⟩) :: log) w := by
  obtain ⟨row, now, hcheck, hexpiry⟩ := hpassed
  simp only [hcheck, Option.any_some, decide_eq_true_eq] at hfresh
  subst hfresh
  have hread := mem_own.mp (mem_of_lastCheck hcheck)
  have hopen : lockOf (Rows.find w.lockouts agentId) = none := by
    rw [Option.eq_none_iff_forall_ne_some]
    intro expiry hlock
    exact absurd (hexpiry expiry hlock) (h.readings p _ now expiry hread hlock).not_gt
  have hfew : recordedFailures agentId log < env.policy.maxAttempts := by
    by_contra hmany
    have hlocked := h.locked (Nat.le_of_not_lt hmany)
    simp [hopen] at hlocked
  refine ⟨?_, fun q row' now' expiry hmem => ?_, h.counting, h.locked⟩
  · simp only [Mfa.guesses, List.countP_cons]
    have hle : Mfa.guesses agentId log + 1 ≤ env.policy.maxAttempts := by omega
    split_ifs
    · exact hle
    · exact h.guesses
  · rcases List.mem_cons.mp hmem with heq | hmem
    · cases heq
    · exact h.readings q row' now' expiry hmem

/-- A recorded failure counts, or locks, or keeps the agent locked. -/
theorem Bounded.record (h : Bounded env agentId log w) {p : Nat} {now : Timestamp}
    (hearly : ∀ expiry, lockOf (Rows.find w.lockouts agentId) = some expiry → now < expiry)
    (hfind : Rows.find w'.lockouts agentId = some (failedAttempt agentId env.policy.maxAttempts
      env.policy.durationSecs now (Rows.find w.lockouts agentId))) :
    Bounded env agentId ((p, ⟨.recordAgentFailure agentId env.policy.maxAttempts
      env.policy.durationSecs, .ok ()⟩) :: log) w' := by
  have hrecords : recordedFailures agentId ((p, ⟨.recordAgentFailure agentId env.policy.maxAttempts
      env.policy.durationSecs, .ok ()⟩) :: log) = recordedFailures agentId log + 1 := by
    simp [recordedFailures, recordsFailure]
  have hreadings : ∀ q row now expiry, (q, ⟨.getAgentLockout agentId, .ok (row, now)⟩) ∈
      ((p, ⟨.recordAgentFailure agentId env.policy.maxAttempts env.policy.durationSecs, .ok ()⟩) ::
        log : Log MfaOp MfaOp.Result) → lockOf row = some expiry → now + seconds 1 ≤ expiry := by
    intro q row now expiry hmem
    rcases List.mem_cons.mp hmem with heq | hmem
    · cases heq
    · exact h.readings q row now expiry hmem
  by_cases hfew : recordedFailures agentId log < env.policy.maxAttempts
  · obtain ⟨hopen, hcounting⟩ := h.counting hfew
    have hunlocked : lockedAt (Rows.find w.lockouts agentId) now = false := by simp [lockedAt, hopen]
    rw [failedAttempt_of_unlocked hunlocked, hcounting] at hfind
    refine ⟨h.guesses, hreadings, fun hlt => ?_, fun hle => ?_⟩
    · rw [hrecords] at hlt ⊢
      have hnot : ¬ env.policy.maxAttempts ≤ recordedFailures agentId log + 1 := by omega
      simp [hfind, counted, hnot, Mfa.counting]
    · rw [hrecords] at hle
      simp [hfind, counted, hle]
  · obtain ⟨expiry, hexpiry⟩ := Option.isSome_iff_exists.mp (h.locked (Nat.le_of_not_lt hfew))
    have hlocked : lockedAt (Rows.find w.lockouts agentId) now = true :=
      lockedAt_iff.mpr ⟨expiry, hexpiry, hearly expiry hexpiry⟩
    obtain ⟨failed, hrow⟩ := failedAttempt_of_locked hlocked agentId env.policy.maxAttempts
      env.policy.durationSecs
    refine ⟨h.guesses, hreadings, fun hlt => ?_, fun _ => by simp [hfind, hrow]⟩
    rw [hrecords] at hlt
    omega

theorem getAgentLockout_ok {i : MfaInput} {row : Option MfaAgentLockoutRecord} {now : Timestamp}
    (h : (env.exec (.getAgentLockout agentId) i w).1 = .ok (row, now)) :
    Rows.find w.lockouts agentId = row ∧ i.now = now := by
  change (if i.fails then _ else _ : Except StoreError _) = _ at h
  split_ifs at h
  cases h
  exact ⟨rfl, rfl⟩

theorem Bounded.step {c : Config MfaOp MfaOp.Result MfaStore (Except MfaProblem Unit)} {p : Nat}
    {o : MfaOp} {k : o.Result → MfaProg (Except MfaProblem Unit)} (i : MfaInput)
    (hp : c.procs p = .perform o k) (hmay : may env (own p c.log) o)
    (horderly : orderly agentId c p i = true) (h : Bounded env agentId c.log c.world) :
    Bounded env agentId ((p, ⟨o, (env.exec o i c.world).1⟩) :: c.log) (env.exec o i c.world).2 := by
  have hfind := find_lockouts env agentId o i c.world
  simp only [orderly, hp, Bool.and_eq_true, List.all_eq_true, Bool.not_eq_true'] at horderly
  obtain ⟨⟨hcompare, hearly⟩, hright⟩ := horderly
  replace hearly : ∀ expiry, lockOf (Rows.find c.world.lockouts agentId) = some expiry →
      i.now + seconds 1 ≤ expiry := by
    intro expiry hexpiry
    rw [hexpiry, Option.all_some] at hearly
    exact of_decide_eq_true hearly
  cases o with
  | compare agentId' id secret code =>
    by_cases hagent : agentId' = agentId
    · subst hagent
      simp only [ne_eq, not_true_eq_false, decide_false, Bool.false_or, Bool.and_eq_true,
        decide_eq_true_eq] at hcompare
      exact h.guess _ hmay hcompare.1 hcompare.2
    · refine h.aside p _ ?_ rfl (by simp) hfind
      cases (env.exec (.compare agentId' id secret code) i c.world).1 <;> simp [wrongGuess, hagent]
  | getAgentLockout agentId' =>
    by_cases hagent : agentId' = agentId
    · subst hagent
      refine ⟨h.guesses, fun q row now expiry hmem hexpiry => ?_, h.counting, h.locked⟩
      rcases List.mem_cons.mp hmem with heq | hmem
      · obtain ⟨rfl, rfl⟩ := getAgentLockout_ok
          (eq_of_heq (Sigma.mk.inj (Prod.mk.inj heq).2).2).symm
        exact hearly expiry hexpiry
      · exact h.readings q row now expiry hmem hexpiry
    · exact h.aside p _ rfl rfl (by simpa using hagent) hfind
  | recordAgentFailure agentId' maxAttempts durationSecs =>
    obtain ⟨rfl, rfl⟩ := hmay
    generalize (env.exec _ i c.world).1 = reply at hfind ⊢
    cases reply with
    | error e => exact h.aside p _ rfl rfl (by simp) hfind
    | ok u =>
      by_cases hagent : agentId' = agentId
      · subst hagent
        refine h.record (fun expiry hexpiry => ?_) (by simpa [lockoutAfter] using hfind)
        exact Nat.lt_of_lt_of_le (Nat.lt_add_of_pos_right (by decide)) (hearly expiry hexpiry)
      · refine h.aside p _ rfl (by simp [recordsFailure, hagent]) (by simp) (hfind.trans ?_)
        simp [lockoutAfter, hagent]
  | resetAgentLockout agentId' =>
    by_cases hagent : agentId' = agentId
    · subst hagent
      obtain ⟨id, secret, code, counter, hmem⟩ := hmay
      exact absurd (hright _ (mem_own.mp hmem)) (by simp [rightGuess])
    · refine h.aside p _ rfl rfl (by simp) (hfind.trans ?_)
      cases (env.exec (.resetAgentLockout agentId') i c.world).1 <;> simp [lockoutAfter, hagent]
  | _ => exact h.aside p _ rfl rfl (by simp) hfind

theorem Bounded.start {w₀ : MfaStore}
    (hreset : ∀ row, Rows.find w₀.lockouts agentId = some row →
      row.failedAttempts = 0 ∧ row.lockedUntil = none) : Bounded env agentId [] w₀ := by
  refine ⟨Nat.zero_le _, by simp, fun _ => ?_, fun hle => ?_⟩
  · cases hrow : Rows.find w₀.lockouts agentId with
    | none => exact ⟨rfl, rfl⟩
    | some row =>
      obtain ⟨hfailed, hopen⟩ := hreset row hrow
      exact ⟨hopen, by simp [Mfa.counting, hopen, hfailed, recordedFailures]⟩
  · exact absurd (env.policy.attempts.trans hle) (by simp [recordedFailures])

end Guesses

/-- **Guesses are bounded**: from a reset lockout, in every orderly run of any number of requests,
at most `max_attempts` wrong codes of the agent are compared. -/
theorem guesses_bounded (env : MfaEnv) (requests : Nat → MfaRequest) (w₀ : MfaStore)
    (agentId : String) (hreset : ∀ row, Rows.find w₀.lockouts agentId = some row →
      row.failedAttempts = 0 ∧ row.lockedUntil = none) (s : List (Nat × MfaInput))
    (horderly : (env.start requests w₀).Along env.exec (fun c p i => orderly agentId c p i = true) s) :
    guesses agentId ((env.start requests w₀).run env.exec s).log ≤ env.policy.maxAttempts :=
  (Config.run_along (P := Bounded env agentId) (fun _ => exec_gives)
    (fun i hp hmay hcond h => h.step i hp hmay hcond) .start start_obeys (.start hreset) s
    horderly).guesses

open MfaSample in
/-- A second request comes after the first one has locked the agent. -/
theorem guesses_bounded_locked :
    (run [] 5 [0, 0, 0, 0, 1, 1]).procs 1 = .pure (.error (mfaLocked 2)) ∧
    guesses "agent" (run [] 5 [0, 0, 0, 0, 1, 1]).log = 1 ∧
      guesses "agent" (run [] 5 [0, 0, 0, 0, 1, 1]).log ≤ env.policy.maxAttempts :=
  ⟨rfl, rfl, guesses_bounded env requests (storeWith []) "agent" (by intro row h; cases h)
    ([0, 0, 0, 0, 1, 1].map (·, input 5)) ⟨rfl, rfl, rfl, rfl, rfl, rfl, trivial⟩⟩

open MfaSample in
/-- **Two guesses where one is allowed**: both requests check the lockout before either of them has
recorded its failure. -/
theorem guesses_exceed :
    env.policy.maxAttempts = 1 ∧ guesses "agent" (run [] 5 [0, 0, 1, 1, 0, 1]).log = 2 :=
  ⟨rfl, rfl⟩

end FerrumGate.Mfa
