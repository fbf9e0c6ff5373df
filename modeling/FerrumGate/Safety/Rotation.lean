import FerrumGate.Interleave.History
import FerrumGate.Safety.Delegation

/-!
# Rotation of a token

A rotation reads the token, revokes it, and inserts a successor; it does not look at what its
revocation did. So another request may revoke or rotate the token in between, and the revocation may
fail, and the successor is inserted all the same.

* **`rotated_once`** : in every run in which each rotation of a token performs its revocation while
  the token is there and not revoked, and without a failure, the token has at most one successor,
  only the request that revoked it has inserted it, and the two are never both usable.
* **`rotations_race`** : two successors; a successor of a token that was revoked before; and a token
  that stays usable beside its successor.
-/

namespace FerrumGate.Admin

open Interleave

/-! ## Successors -/

def isSuccessor (tokenId : String) (token : ScopedToken) : Bool := token.rotatedFrom == some tokenId

/-- The tokens that name this one as `rotated_from`. -/
def CredentialStore.successors (w : CredentialStore) (tokenId : String) : List ScopedToken :=
  w.tokens.filter (isSuccessor tokenId)

/-- Does the middleware accept the token at this time? -/
def usable (now : Timestamp) (token : ScopedToken) : Bool :=
  token.revokedAt.isNone && decide (now ≤ token.expiresAt)

/-- The reply reports that the token was revoked just now. -/
def revokes (tokenId : String) : Reply AdminOp AdminOp.Result → Bool
  | ⟨.revokeToken id _ _, .ok true⟩ => id == tokenId
  | _ => false

/-- The row of the token is there and not revoked. -/
def CredentialStore.live (w : CredentialStore) (tokenId : String) : Bool :=
  w.tokens.any (revocable tokenId)

/-- The step in which process `p` performs its revocation, when it rotates the token: the token is
live and the store does not fail. -/
def InTurn (S : AdminSystem) (tokenId : String)
    (c : Config AdminOp AdminOp.Result CredentialStore (Except Refusal Unit)) (p : Nat)
    (i : AdminInput) : Prop :=
  ∀ req reason now k, S.requests p = .rotate tokenId req →
    c.procs p = .perform (.revokeToken tokenId reason now) k →
      c.world.live tokenId = true ∧ i.storeFails = false

/-- `InTurn`, evaluated. -/
def inTurn (S : AdminSystem) (tokenId : String)
    (c : Config AdminOp AdminOp.Result CredentialStore (Except Refusal Unit)) (p : Nat)
    (i : AdminInput) : Bool :=
  match S.requests p, c.procs p with
  | .rotate id _, .perform (.revokeToken id' _ _) _ =>
    id != tokenId || id' != tokenId || (c.world.live tokenId && !i.storeFails)
  | _, _ => true

theorem inTurn_sound {S : AdminSystem} {tokenId : String}
    {c : Config AdminOp AdminOp.Result CredentialStore (Except Refusal Unit)} {p : Nat}
    {i : AdminInput} (h : inTurn S tokenId c p i = true) : InTurn S tokenId c p i := by
  intro req reason now k hrequest hprocs
  rw [inTurn, hrequest, hprocs] at h
  simpa using h

/-- Every step of the run is in turn. -/
def allInTurn (S : AdminSystem) (tokenId : String)
    (c : Config AdminOp AdminOp.Result CredentialStore (Except Refusal Unit)) :
    List (Nat × AdminInput) → Bool
  | [] => true
  | (p, i) :: s => inTurn S tokenId c p i && allInTurn S tokenId (c.step execAdmin p i) s

theorem allInTurn_sound {S : AdminSystem} {tokenId : String} (s₁ : List (Nat × AdminInput)) :
    ∀ {c : Config AdminOp AdminOp.Result CredentialStore (Except Refusal Unit)}
      {s s₂ : List (Nat × AdminInput)} {p : Nat} {i : AdminInput},
      allInTurn S tokenId c s = true → s = s₁ ++ (p, i) :: s₂ →
        InTurn S tokenId (c.run execAdmin s₁) p i := by
  induction s₁ with
  | nil =>
    rintro c s s₂ p i h rfl
    exact inTurn_sound (Bool.and_eq_true_iff.1 h).1
  | cons x s₁ ih =>
    rintro c s s₂ p i h rfl
    exact ih (Bool.and_eq_true_iff.1 h).2 rfl

/-! ## What one operation does -/

section Step

variable {tokenId : String} {w : CredentialStore}

theorem revoke_isSuccessor (id : String) (reason : Option String) (now : Timestamp)
    (token : ScopedToken) :
    isSuccessor tokenId (revoke id reason now token) = isSuccessor tokenId token := by
  unfold revoke
  split_ifs
  · rfl
  · rfl

theorem revoke_not_revocable (reason : Option String) (now : Timestamp) (token : ScopedToken) :
    revocable tokenId (revoke tokenId reason now token) = false := by
  unfold revoke
  split_ifs with h
  · simp [revocable]
  · simpa using h

theorem revocable_of_revoke {id : String} {reason : Option String} {now : Timestamp}
    {token : ScopedToken} (h : revocable tokenId (revoke id reason now token) = true) :
    revocable tokenId token = true := by
  unfold revoke at h
  split_ifs at h with hrow
  · simp [revocable] at h
  · exact h

/-- Somebody revokes: the successors are the same, but for their own revocation. -/
theorem successors_revoke (id : String) (reason : Option String) (now : Timestamp) :
    ({ w with tokens := w.tokens.map (revoke id reason now) } : CredentialStore).successors tokenId =
      (w.successors tokenId).map (revoke id reason now) := by
  rw [CredentialStore.successors, CredentialStore.successors, List.filter_map]
  congr 1
  refine List.filter_congr fun token _ => ?_
  exact revoke_isSuccessor id reason now token

/-- The row of the token is there, and revoked. -/
def CredentialStore.dead (w : CredentialStore) (tokenId : String) : Prop :=
  w.live tokenId = false ∧ ∃ row ∈ w.tokens, row.tokenId = tokenId

theorem revoke_tokenId (id : String) (reason : Option String) (now : Timestamp)
    (token : ScopedToken) : (revoke id reason now token).tokenId = token.tokenId := by
  unfold revoke
  split_ifs
  · rfl
  · rfl

/-- What is revoked stays revoked. -/
theorem dead_step (h : w.dead tokenId) (o : AdminOp) (i : AdminInput) :
    (execAdmin o i w).2.dead tokenId := by
  obtain ⟨hlive, row, hrow, hid⟩ := h
  cases o with
  | revokeToken id reason now =>
    rw [execAdmin]
    split_ifs
    · exact ⟨hlive, row, hrow, hid⟩
    · refine ⟨?_, revoke id reason now row, List.mem_map_of_mem hrow, ?_⟩
      · rw [CredentialStore.live, List.any_map, List.any_eq_false]
        intro token htoken hrevocable
        exact List.any_eq_false.1 hlive token htoken (revocable_of_revoke hrevocable)
      · rw [revoke_tokenId, hid]
  | insertToken token =>
    rw [execAdmin]
    split_ifs with hfails
    · exact ⟨hlive, row, hrow, hid⟩
    · refine ⟨?_, row, List.mem_append_left _ hrow, hid⟩
      -- the id is taken, so the new row is another token's
      have hother : token.tokenId ≠ tokenId := by
        intro heq
        refine hfails (Bool.or_eq_true_iff.2 (.inr (List.any_eq_true.2 ⟨row, hrow, ?_⟩)))
        rw [hid, heq, beq_self_eq_true]
      rw [CredentialStore.live, List.any_append, Bool.or_eq_false_iff]
      refine ⟨hlive, ?_⟩
      simp [revocable, hother]
  | insertAgent agent =>
    rw [execAdmin]
    split_ifs
    · exact ⟨hlive, row, hrow, hid⟩
    · exact ⟨hlive, row, hrow, hid⟩
  | readClock => exact ⟨hlive, row, hrow, hid⟩
  | draw => exact ⟨hlive, row, hrow, hid⟩
  | getTokenByLookupHash hash => exact ⟨hlive, row, hrow, hid⟩
  | getToken id => exact ⟨hlive, row, hrow, hid⟩
  | getAgent agentId => exact ⟨hlive, row, hrow, hid⟩
  | getAgentByFingerprint fingerprint => exact ⟨hlive, row, hrow, hid⟩
  | appendAudit => exact ⟨hlive, row, hrow, hid⟩

/-- A revocation of a live token, without a failure: the reply reports it, and the token is dead. -/
theorem exec_revokeToken {reason : Option String} {now : Timestamp} {i : AdminInput}
    (hfails : i.storeFails = false) (hlive : w.live tokenId = true) :
    revokes tokenId ⟨.revokeToken tokenId reason now,
        (execAdmin (.revokeToken tokenId reason now) i w).1⟩ = true ∧
      (execAdmin (.revokeToken tokenId reason now) i w).2.dead tokenId := by
  have hany : w.tokens.any (revocable tokenId) = true := hlive
  rw [execAdmin, hfails, if_neg Bool.false_ne_true, hany]
  refine ⟨by simp [revokes], ?_, ?_⟩
  · rw [CredentialStore.live, List.any_map, List.any_eq_false]
    intro token _ hrevocable
    rw [Function.comp_apply, revoke_not_revocable] at hrevocable
    cases hrevocable
  · obtain ⟨row, hrow, hrevocable⟩ := List.any_eq_true.1 hany
    refine ⟨revoke tokenId reason now row, List.mem_map_of_mem hrow, ?_⟩
    rw [revoke_tokenId]
    exact eq_of_beq (Bool.and_eq_true_iff.1 hrevocable).1

/-- Who reports a revocation found the token live. -/
theorem live_of_revokes {o : AdminOp} {i : AdminInput}
    (h : revokes tokenId ⟨o, (execAdmin o i w).1⟩ = true) :
    ∃ reason now, o = .revokeToken tokenId reason now ∧ w.live tokenId = true ∧
      i.storeFails = false := by
  cases o with
  | revokeToken id reason now =>
    rw [execAdmin] at h
    cases hfails : i.storeFails with
    | true =>
      rw [hfails, if_pos rfl] at h
      cases h
    | false =>
      rw [hfails, if_neg Bool.false_ne_true] at h
      cases hany : w.tokens.any (revocable id) with
      | false =>
        rw [hany] at h
        cases h
      | true =>
        rw [hany] at h
        obtain rfl : id = tokenId := eq_of_beq h
        exact ⟨reason, now, rfl, hany, rfl⟩
  | readClock => cases h
  | draw => cases h
  | getTokenByLookupHash hash => cases h
  | getToken id => cases h
  | insertToken token => cases h
  | getAgent agentId => cases h
  | getAgentByFingerprint fingerprint => cases h
  | insertAgent agent => cases h
  | appendAudit => cases h

/-- What one operation does to the successors: at most their revocation, or it inserts one. -/
theorem exec_successors (o : AdminOp) (i : AdminInput) :
    (∃ f : ScopedToken → ScopedToken,
      (execAdmin o i w).2.successors tokenId = (w.successors tokenId).map f) ∨
    ∃ token, o = .insertToken token ∧ isSuccessor tokenId token = true ∧
      (execAdmin o i w).2.successors tokenId = w.successors tokenId ++ [token] := by
  have hsame : ∃ f : ScopedToken → ScopedToken,
      w.successors tokenId = (w.successors tokenId).map f := ⟨id, (List.map_id _).symm⟩
  cases o with
  | revokeToken rowId reason now =>
    rw [execAdmin]
    split_ifs
    · exact .inl hsame
    · exact .inl ⟨_, successors_revoke rowId reason now⟩
  | insertToken token =>
    rw [execAdmin]
    split_ifs
    · exact .inl hsame
    · have hfilter : ({ w with tokens := w.tokens ++ [token] } : CredentialStore).successors tokenId =
          w.successors tokenId ++ [token].filter (isSuccessor tokenId) := List.filter_append _ _
      cases hsuccessor : isSuccessor tokenId token with
      | true =>
        refine .inr ⟨token, rfl, hsuccessor, ?_⟩
        rw [hfilter, List.filter_cons_of_pos hsuccessor, List.filter_nil]
      | false =>
        refine .inl ⟨id, ?_⟩
        rw [hfilter, List.filter_cons_of_neg (by rw [hsuccessor]; exact Bool.false_ne_true),
          List.filter_nil, List.append_nil, List.map_id]
  | insertAgent agent =>
    rw [execAdmin]
    split_ifs
    · exact .inl hsame
    · exact .inl hsame
  | readClock => exact .inl hsame
  | draw => exact .inl hsame
  | getTokenByLookupHash hash => exact .inl hsame
  | getToken rowId => exact .inl hsame
  | getAgent agentId => exact .inl hsame
  | getAgentByFingerprint fingerprint => exact .inl hsame
  | appendAudit => exact .inl hsame

end Step

/-! ## The invariant -/

/-- One revocation at most, and at most one successor, from the request that revoked. -/
structure Single (S : AdminSystem) (tokenId : String) (log : Log AdminOp AdminOp.Result)
    (w : CredentialStore) : Prop where
  once : Once (revokes tokenId) log
  dead : ∀ p x, (p, x) ∈ log → revokes tokenId x = true → w.dead tokenId
  rotations : ∀ p req reason now r, S.requests p = .rotate tokenId req →
    (p, ⟨.revokeToken tokenId reason now, r⟩) ∈ log →
      revokes tokenId ⟨.revokeToken tokenId reason now, r⟩ = true
  successors : w.successors tokenId = [] ∨ ((w.successors tokenId).length = 1 ∧
    ∃ p req x y, S.requests p = .rotate tokenId req ∧ (p, x) ∈ log ∧ isInsert x.1 = true ∧
      (p, y) ∈ log ∧ revokes tokenId y = true)

section Run

variable {S : AdminSystem} {tokenId : String} {log : Log AdminOp AdminOp.Result}
  {w : CredentialStore}

theorem single_step (h : Single S tokenId log w) (p : Nat) (o : AdminOp) (i : AdminInput)
    (hmay : mayWrite S.primitives (S.presented p) (S.requests p) (own p log) o)
    (hturn : ∀ req reason now, S.requests p = .rotate tokenId req →
      o = .revokeToken tokenId reason now → w.live tokenId = true ∧ i.storeFails = false) :
    Single S tokenId ((p, ⟨o, (execAdmin o i w).1⟩) :: log) (execAdmin o i w).2 := by
  refine ⟨?_, ?_, ?_, ?_⟩
  · -- a second revocation would have found the token dead
    refine List.pairwise_cons.2 ⟨?_, h.once⟩
    rintro ⟨q, y⟩ hy ⟨hnew, hold⟩
    obtain ⟨-, -, -, hlive, -⟩ := live_of_revokes hnew
    rw [(h.dead q y hy hold).1] at hlive
    cases hlive
  · intro q x hx hrevokes
    rcases List.mem_cons.1 hx with heq | hold
    · obtain ⟨rfl, rfl⟩ := Prod.mk.inj heq
      obtain ⟨reason, now, rfl, hlive, hfails⟩ := live_of_revokes hrevokes
      exact (exec_revokeToken hfails hlive).2
    · exact dead_step (h.dead q x hold hrevokes) o i
  · intro q req reason now r hrequest hmem
    rcases List.mem_cons.1 hmem with heq | hold
    · obtain ⟨rfl, hreply⟩ := Prod.mk.inj heq
      obtain ⟨rfl, hresult⟩ := Sigma.mk.inj hreply
      obtain rfl := eq_of_heq hresult
      obtain ⟨hlive, hfails⟩ := hturn req reason now hrequest rfl
      exact (exec_revokeToken hfails hlive).1
    · exact h.rotations q req reason now r hrequest hold
  · rcases exec_successors (w := w) o i with ⟨f, hsame⟩ | ⟨token, rfl, hsuccessor, hnew⟩
    · rw [hsame]
      rcases h.successors with hnone | ⟨hone, q, req, x, y, hrequest, hx, hinsert, hy, hrevokes⟩
      · exact .inl (by rw [hnone, List.map_nil])
      · exact .inr ⟨by rw [List.length_map, hone], q, req, x, y, hrequest,
          List.mem_cons_of_mem _ hx, hinsert, List.mem_cons_of_mem _ hy, hrevokes⟩
    · obtain ⟨huninserted, hsucceeds, -⟩ := hmay
      obtain ⟨⟨req, hrequest⟩, reason, now, r, hr⟩ := hsucceeds tokenId (eq_of_beq hsuccessor)
      have hrevokes := h.rotations p req reason now r hrequest (mem_own.1 hr)
      -- an earlier successor came from the request that revoked, which is this one
      have hnone : w.successors tokenId = [] := by
        rcases h.successors with hnone | ⟨-, q, -, x, y, -, hx, hinsert, hy, hrevokes'⟩
        · exact hnone
        · have hsame := h.once.eq (mem_own.1 hr) hy hrevokes hrevokes'
          obtain ⟨rfl, -⟩ := Prod.mk.inj hsame
          rw [huninserted x (mem_own.2 hx)] at hinsert
          cases hinsert
      refine .inr ⟨by rw [hnew, hnone]; rfl, p, req, _, _, hrequest, List.mem_cons_self, rfl,
        List.mem_cons_of_mem _ (mem_own.1 hr), hrevokes⟩

theorem single_start {w₀ : CredentialStore} (h : w₀.successors tokenId = []) :
    Single S tokenId [] w₀ where
  once := List.Pairwise.nil
  dead := by
    intro p x hx
    cases hx
  rotations := by
    intro p req reason now r _ hmem
    cases hmem
  successors := .inl h

/-- The invariant along every run whose rotations are in turn. -/
theorem single_run {w₀ : CredentialStore} (h : w₀.successors tokenId = [])
    (s : List (Nat × AdminInput))
    (hturn : ∀ s₁ p i s₂, s = s₁ ++ (p, i) :: s₂ →
      InTurn S tokenId ((S.start w₀).run execAdmin s₁) p i) :
    Single S tokenId ((S.start w₀).run execAdmin s).log ((S.start w₀).run execAdmin s).world := by
  induction s using List.reverseRecOn with
  | nil => exact single_start h
  | append_singleton s x ih =>
    obtain ⟨p, i⟩ := x
    have hbefore := ih fun s₁ q j s₂ hs => hturn s₁ q j (s₂ ++ [(p, i)]) (by
      rw [hs, List.append_assoc, List.cons_append])
    have hnow := hturn s p i [] rfl
    have hbehaves := run_behaviour S w₀ (s ++ [(p, i)])
    rw [Config.run_concat] at hbehaves ⊢
    rw [Config.step] at hbehaves ⊢
    cases hp : ((S.start w₀).run execAdmin s).procs p with
    | pure r => exact hbefore
    | perform o k =>
      rw [hp] at hbehaves
      obtain ⟨-, -, -, hmay, -, -⟩ := hbehaves.last
      refine single_step hbefore p o i hmay fun req reason now hrequest ho => ?_
      subst ho
      exact hnow req reason now k hrequest hp

end Run

/-- **A token is rotated once**, in every run whose rotations are in turn: it has at most one
successor, the one revocation that succeeded was the rotation's own, and the token and its successor
are never both usable. -/
theorem rotated_once (S : AdminSystem) (w₀ : CredentialStore) (tokenId : String)
    (hfresh : w₀.successors tokenId = []) (s : List (Nat × AdminInput))
    (hturn : ∀ s₁ p i s₂, s = s₁ ++ (p, i) :: s₂ →
      InTurn S tokenId ((S.start w₀).run execAdmin s₁) p i) :
    (((S.start w₀).run execAdmin s).world.successors tokenId).length ≤ 1 ∧
    (∀ q y, (q, y) ∈ ((S.start w₀).run execAdmin s).log → revokes tokenId y = true →
      ((S.start w₀).run execAdmin s).world.successors tokenId ≠ [] →
        ∃ req, S.requests q = .rotate tokenId req) ∧
    (∀ old ∈ ((S.start w₀).run execAdmin s).world.tokens, old.tokenId = tokenId →
      ∀ new ∈ ((S.start w₀).run execAdmin s).world.successors tokenId, ∀ now,
        ¬ (usable now old = true ∧ usable now new = true)) := by
  have hsingle := single_run hfresh s hturn
  rcases hsingle.successors with hnone | ⟨hone, p, req, x, y, hrequest, -, -, hy, hrevokes⟩
  · rw [hnone]
    exact ⟨Nat.zero_le 1, fun _ _ _ _ h => absurd rfl h, fun _ _ _ _ hnew => by cases hnew⟩
  · refine ⟨hone.le, fun q z hz hrevokes' _ => ?_, ?_⟩
    · have hsame := hsingle.once.eq hy hz hrevokes hrevokes'
      obtain ⟨rfl, -⟩ := Prod.mk.inj hsame
      exact ⟨req, hrequest⟩
    · rintro old hold hid new - now ⟨husable, -⟩
      have hdead := (hsingle.dead p y hy hrevokes).1
      refine absurd (List.any_eq_true.2 ⟨old, hold, ?_⟩) (by rw [← CredentialStore.live, hdead]; simp)
      rw [usable, Bool.and_eq_true] at husable
      simp [revocable, hid, husable.1]

namespace RotationSample

def primitives : TokenPrimitives where
  hashTokenValue value := value
  hashTokenWithSalt value salt := value ++ salt
  base64Decode _ := none
  fingerprint _ := ""

/-- A token that may be rotated. -/
def token : ScopedToken where
  tokenId := "tok_1"
  actorId := "ci"
  role := .readOnly
  scopes := ["policy:read"]
  expiresAt := seconds 60
  revokedAt := none
  revokedReason := none
  rotatedFrom := none
  tokenLookupHash := "h"
  tokenHash := "h"
  tokenSalt := ""

def store : CredentialStore := ⟨[token], []⟩

/-- An administrator asks for these, one process each. -/
def system (requests : Nat → AdminRequest) : AdminSystem where
  primitives := primitives
  auditFailClosed := true
  presented _ := .oidc { actorId := "root", role := some .admin, scopes := ["*"] }
  requests := requests

/-- Two rotations. -/
def rotations : AdminSystem := system fun _ => .rotate "tok_1" ⟨none, none⟩

/-- A rotation and a revocation. -/
def revocation : AdminSystem :=
  system fun p => if p = 0 then .rotate "tok_1" ⟨none, none⟩ else .revoke "tok_1" none

/-- So many steps of one process, which draws this text. -/
def steps (p n : Nat) (drawn : String) : List (Nat × AdminInput) :=
  List.replicate n (p, { drawn := drawn })

def run (S : AdminSystem) (s : List (Nat × AdminInput)) :
    Config AdminOp AdminOp.Result CredentialStore (Except Refusal Unit) :=
  (S.start store).run execAdmin s

def successorIds (S : AdminSystem) (s : List (Nat × AdminInput)) : List String :=
  ((run S s).world.successors "tok_1").map (·.tokenId)

end RotationSample

/-- A rotation, and another one that comes too late. -/
theorem rotated_once_late :
    ((RotationSample.run RotationSample.rotations
      (RotationSample.steps 0 10 "a" ++ RotationSample.steps 1 4 "b")).world.successors
        "tok_1").length ≤ 1 := by
  have hturns : allInTurn RotationSample.rotations "tok_1"
      (RotationSample.rotations.start RotationSample.store)
      (RotationSample.steps 0 10 "a" ++ RotationSample.steps 1 4 "b") = true := by
    decide +kernel
  exact (rotated_once RotationSample.rotations RotationSample.store "tok_1" rfl _
    fun s₁ _ _ _ hs => allInTurn_sound s₁ hturns hs).1

/-- **What the rotation lets happen**: two rotations between their check and their revocation leave
two successors; a revocation there succeeds, and the token gets a successor after it; and when the
rotation's revocation fails, the token and its successor are both usable. -/
theorem rotations_race :
    RotationSample.successorIds RotationSample.rotations
      (RotationSample.steps 0 4 "a" ++ RotationSample.steps 1 4 "b" ++
        RotationSample.steps 0 6 "a" ++ RotationSample.steps 1 6 "b") = ["tok_a", "tok_b"] ∧
    ((RotationSample.run RotationSample.revocation
      (RotationSample.steps 0 4 "a" ++ RotationSample.steps 1 3 "b" ++
        RotationSample.steps 0 6 "a")).log.map fun e => (e.1, revokes "tok_1" e.2)).filter (·.2) =
      [(1, true)] ∧
    RotationSample.successorIds RotationSample.revocation
      (RotationSample.steps 0 4 "a" ++ RotationSample.steps 1 3 "b" ++
        RotationSample.steps 0 6 "a") = ["tok_a"] ∧
    (RotationSample.run RotationSample.rotations
      (RotationSample.steps 0 4 "a" ++ [(0, { storeFails := true })] ++
        RotationSample.steps 0 5 "a")).world.tokens.map (fun t => (t.tokenId, usable 0 t)) =
      [("tok_1", true), ("tok_a", true)] := by
  decide +kernel

end FerrumGate.Admin
