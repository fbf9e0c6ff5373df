import FerrumGate.Gateway.Issuing

/-!
# Delegation never amplifies

Requests that create and rotate tokens and register agents, in any interleaving, with any failures:

* **`delegation_never_amplifies`** : whatever a request issues, its caller holds at that moment; a
  caller without the wildcard issues neither the wildcard nor the administrator's role; and every
  scope of every credential goes back to one of the first credentials.
-/

namespace FerrumGate.Admin

open Interleave

/-! ## Credentials, of either kind -/

/-- What a credential is worth. -/
structure Credential where
  scopes : List String
  role : Option TokenRole
  deriving DecidableEq

def ScopedToken.credential (token : ScopedToken) : Credential := ⟨token.scopes, some token.role⟩

def AgentRow.credential (agent : AgentRow) : Credential := ⟨agent.allowedScopes, none⟩

def CredentialStore.credentials (w : CredentialStore) : List Credential :=
  w.tokens.map ScopedToken.credential ++ w.agents.map AgentRow.credential

/-- The credential a reply reports as stored. -/
def issued : Reply AdminOp AdminOp.Result → Option Credential
  | ⟨.insertToken token, .ok ()⟩ => some token.credential
  | ⟨.insertAgent agent, .ok ()⟩ => some agent.credential
  | _ => none

/-- The caller that presents this is known to the store under these scopes. -/
inductive Presents (primitives : TokenPrimitives) (w : CredentialStore) :
    Presented → ScopedActor → Prop
  | token {tokenValue : String} {token : ScopedToken} (hmem : token ∈ w.tokens)
      (hhash : token.tokenLookupHash = primitives.hashTokenValue tokenValue) :
      Presents primitives w (.token tokenValue)
        { actorId := token.actorId, role := some token.role, scopes := token.scopes }
  | agent {agentId : String} {agent : AgentRow} (hmem : agent ∈ w.agents)
      (hid : agent.agentId = agentId) :
      Presents primitives w (.agent agentId true)
        { actorId := agentId, role := none, scopes := agent.allowedScopes }
  | oidc (actor : ScopedActor) : Presents primitives w (.oidc actor) actor

/-- One of the first credentials holds the scope: a stored one, or an identity from outside. -/
def InitiallyHeld (S : AdminSystem) (w₀ : CredentialStore) (scope : String) : Prop :=
  (∃ credential ∈ w₀.credentials, holds credential.scopes scope = true) ∨
    ∃ p actor, S.presented p = .oidc actor ∧ actor.hasScope scope = true

/-! ## What a step does to the store -/

/-- The row is the token, as far as nobody can change it. -/
def Stands (w : CredentialStore) (token : ScopedToken) : Prop :=
  ∃ row ∈ w.tokens, row.tokenLookupHash = token.tokenLookupHash ∧ row.actorId = token.actorId ∧
    row.role = token.role ∧ row.scopes = token.scopes

theorem revoke_fields (tokenId : String) (reason : Option String) (now : Timestamp)
    (token : ScopedToken) :
    (revoke tokenId reason now token).tokenLookupHash = token.tokenLookupHash ∧
      (revoke tokenId reason now token).actorId = token.actorId ∧
      (revoke tokenId reason now token).role = token.role ∧
      (revoke tokenId reason now token).scopes = token.scopes := by
  unfold revoke
  split_ifs
  · exact ⟨rfl, rfl, rfl, rfl⟩
  · exact ⟨rfl, rfl, rfl, rfl⟩

theorem revoke_credential (tokenId : String) (reason : Option String) (now : Timestamp)
    (token : ScopedToken) :
    (revoke tokenId reason now token).credential = token.credential := by
  obtain ⟨-, -, hrole, hscopes⟩ := revoke_fields tokenId reason now token
  rw [ScopedToken.credential, ScopedToken.credential, hrole, hscopes]

theorem readWith_ok {α : Type} {i : AdminInput} {a b : α} (h : readWith i a = .ok b) : a = b := by
  unfold readWith at h
  split_ifs at h
  exact Except.ok.inj h

/-- What is in the store stays, but for revocations. -/
structure Grows (w w' : CredentialStore) : Prop where
  tokens : ∀ token ∈ w.tokens, Stands w' token
  agents : ∀ agent ∈ w.agents, agent ∈ w'.agents

theorem Grows.refl (w : CredentialStore) : Grows w w :=
  ⟨fun token h => ⟨token, h, rfl, rfl, rfl, rfl⟩, fun _ h => h⟩

theorem Stands.grows {w w' : CredentialStore} {token : ScopedToken} (h : Stands w token)
    (hgrows : Grows w w') : Stands w' token := by
  obtain ⟨row, hrow, hhash, hactor, hrole, hscopes⟩ := h
  obtain ⟨row', hrow', hhash', hactor', hrole', hscopes'⟩ := hgrows.tokens row hrow
  exact ⟨row', hrow', hhash'.trans hhash, hactor'.trans hactor, hrole'.trans hrole,
    hscopes'.trans hscopes⟩

/-- **One operation**: the store grows, and the only new credential is the one it reports. -/
theorem exec_grows (o : AdminOp) (i : AdminInput) (w : CredentialStore) :
    Grows w (execAdmin o i w).2 ∧
      ∀ credential ∈ (execAdmin o i w).2.credentials, credential ∈ w.credentials ∨
        issued ⟨o, (execAdmin o i w).1⟩ = some credential := by
  have hsame : ∀ w' : CredentialStore, w' = w → Grows w w' ∧
      ∀ credential ∈ w'.credentials, credential ∈ w.credentials ∨
        issued ⟨o, (execAdmin o i w).1⟩ = some credential := by
    intro w' hw
    rw [hw]
    exact ⟨.refl w, fun _ h => .inl h⟩
  cases o with
  | revokeToken tokenId reason now =>
    rw [execAdmin]
    split_ifs
    · exact ⟨.refl w, fun _ h => .inl h⟩
    · refine ⟨⟨fun token h => ?_, fun _ h => h⟩, fun credential h => .inl ?_⟩
      · exact ⟨revoke tokenId reason now token, List.mem_map_of_mem h,
          revoke_fields tokenId reason now token⟩
      · have hmap : (w.tokens.map (revoke tokenId reason now)).map ScopedToken.credential =
            w.tokens.map ScopedToken.credential := by
          rw [List.map_map]
          exact List.map_congr_left fun token _ => revoke_credential tokenId reason now token
        rw [CredentialStore.credentials, hmap] at h
        exact h
  | insertToken token =>
    rw [execAdmin]
    split_ifs
    · exact ⟨.refl w, fun _ h => .inl h⟩
    · refine ⟨⟨fun old h => ?_, fun _ h => h⟩, fun credential h => ?_⟩
      · exact ⟨old, List.mem_append_left _ h, rfl, rfl, rfl, rfl⟩
      · simp only [CredentialStore.credentials, List.map_append, List.map_cons, List.map_nil,
          List.mem_append, List.mem_singleton] at h ⊢
        rcases h with (h | rfl) | h
        · exact .inl (.inl h)
        · exact .inr rfl
        · exact .inl (.inr h)
  | insertAgent agent =>
    rw [execAdmin]
    split_ifs
    · exact ⟨.refl w, fun _ h => .inl h⟩
    · refine ⟨⟨fun old h => ⟨old, h, rfl, rfl, rfl, rfl⟩, fun old h => ?_⟩, fun credential h => ?_⟩
      · exact List.mem_append_left _ h
      · simp only [CredentialStore.credentials, List.map_append, List.map_cons, List.map_nil,
          List.mem_append, List.mem_singleton] at h ⊢
        rcases h with h | h | rfl
        · exact .inl (.inl h)
        · exact .inl (.inr h)
        · exact .inr rfl
  | readClock => exact hsame _ rfl
  | draw => exact hsame _ rfl
  | getTokenByLookupHash hash => exact hsame _ rfl
  | getToken tokenId => exact hsame _ rfl
  | getAgent agentId => exact hsame _ rfl
  | getAgentByFingerprint fingerprint => exact hsame _ rfl
  | appendAudit => exact hsame _ rfl

/-! ## The invariant -/

/-- Rows that were read are still there, and every credential goes back to a first one. -/
structure Derived (S : AdminSystem) (w₀ : CredentialStore)
    (log : Log AdminOp AdminOp.Result) (w : CredentialStore) : Prop where
  tokensRead : ∀ p hash token, (p, ⟨.getTokenByLookupHash hash, .ok (some token)⟩) ∈ log →
    token.tokenLookupHash = hash ∧ Stands w token
  agentsRead : ∀ p agentId agent, (p, ⟨.getAgent agentId, .ok (some agent)⟩) ∈ log →
    agent.agentId = agentId ∧ agent ∈ w.agents
  held : ∀ credential ∈ w.credentials, ∀ scope, holds credential.scopes scope = true →
    InitiallyHeld S w₀ scope
  known : ∀ credential ∈ w.credentials, credential ∈ w₀.credentials ∨
    ∃ p x, (p, x) ∈ log ∧ issued x = some credential

section Run

variable {S : AdminSystem} {w₀ w : CredentialStore} {log : Log AdminOp AdminOp.Result}

/-- The caller that a request has established stands in the store. -/
theorem Derived.presents (h : Derived S w₀ log w) {p : Nat} {presented : Presented}
    {issuer : ScopedActor} (hissuer : Established S.primitives (own p log) presented issuer) :
    Presents S.primitives w presented issuer := by
  cases hissuer with
  | token hread =>
    obtain ⟨hhash, row, hrow, hrowHash, hactor, hrole, hscopes⟩ :=
      h.tokensRead p _ _ (mem_own.1 hread)
    rw [← hactor, ← hrole, ← hscopes]
    exact .token hrow (hrowHash.trans hhash)
  | agent hread =>
    obtain ⟨hid, hmem⟩ := h.agentsRead p _ _ (mem_own.1 hread)
    exact .agent hmem hid
  | oidc => exact .oidc issuer

/-- What a caller holds, a first credential holds. -/
theorem Derived.issuerHeld (h : Derived S w₀ log w) {p : Nat} {issuer : ScopedActor}
    (hissuer : Presents S.primitives w (S.presented p) issuer) {scope : String}
    (hscope : issuer.hasScope scope = true) : InitiallyHeld S w₀ scope := by
  generalize hpresented : S.presented p = presented at hissuer
  cases hissuer with
  | token hmem hhash =>
    refine h.held _ (List.mem_append_left _ (List.mem_map_of_mem hmem)) scope hscope
  | agent hmem hid =>
    refine h.held _ (List.mem_append_right _ (List.mem_map_of_mem hmem)) scope hscope
  | oidc actor => exact .inr ⟨p, issuer, hpresented, hscope⟩

/-- What a request may issue: its caller holds it. -/
def Granted (primitives : TokenPrimitives) (w : CredentialStore) (presented : Presented)
    (credential : Credential) : Prop :=
  ∃ issuer, Presents primitives w presented issuer ∧
    (∀ scope ∈ credential.scopes, issuer.hasScope scope = true) ∧
    (issuer.wildcard = false → "*" ∉ credential.scopes ∧ credential.role ≠ some .admin)

theorem Derived.granted (h : Derived S w₀ log w) {p : Nat} {o : AdminOp} {r : o.Result}
    {credential : Credential}
    (hmay : mayWrite S.primitives (S.presented p) (S.requests p) (own p log) o)
    (hissued : issued ⟨o, r⟩ = some credential) :
    Granted S.primitives w (S.presented p) credential := by
  unfold issued at hissued
  split at hissued
  · next token heq =>
    cases heq
    cases hissued
    obtain ⟨-, -, issuer, hissuer, ⟨hscopes, hstar⟩, hrole⟩ := hmay
    refine ⟨issuer, h.presents hissuer, hscopes, fun hplain => ⟨fun hmem => ?_, fun hadmin => ?_⟩⟩
    · rw [hstar hmem] at hplain
      cases hplain
    · rw [hrole (Option.some.inj hadmin)] at hplain
      cases hplain
  · next agent heq =>
    cases heq
    cases hissued
    obtain ⟨-, issuer, hissuer, hscopes, hstar⟩ := hmay
    refine ⟨issuer, h.presents hissuer, hscopes, fun hplain => ⟨fun hmem => ?_, fun hadmin => ?_⟩⟩
    · rw [hstar hmem] at hplain
      cases hplain
    · cases hadmin
  · cases hissued

/-- A wildcard that is granted is the issuer's. -/
theorem Granted.holds {presented : Presented} {credential : Credential}
    (h : Granted S.primitives w presented credential) :
    ∃ issuer, Presents S.primitives w presented issuer ∧
      ∀ scope, holds credential.scopes scope = true → issuer.hasScope scope = true := by
  obtain ⟨issuer, hpresents, hscopes, hplain⟩ := h
  refine ⟨issuer, hpresents, fun scope hscope => ?_⟩
  obtain ⟨s, hs, hmatch⟩ := List.any_eq_true.1 hscope
  rw [Bool.or_eq_true] at hmatch
  rcases hmatch with hstar | hsame
  · have hmem : "*" ∈ credential.scopes := eq_of_beq hstar ▸ hs
    cases hwild : issuer.wildcard with
    | true => exact wildcard_hasScope hwild scope
    | false => exact absurd hmem (hplain hwild).1
  · exact eq_of_beq hsame ▸ hscopes s hs

theorem derived_step (h : Derived S w₀ log w) (p : Nat) (o : AdminOp) (i : AdminInput)
    (hmay : mayWrite S.primitives (S.presented p) (S.requests p) (own p log) o) :
    Derived S w₀ ((p, ⟨o, (execAdmin o i w).1⟩) :: log) (execAdmin o i w).2 := by
  obtain ⟨hgrows, hnew⟩ := exec_grows o i w
  refine ⟨?_, ?_, ?_, ?_⟩
  · intro q hash token hmem
    rcases List.mem_cons.1 hmem with heq | hold
    · obtain ⟨-, hreply⟩ := Prod.mk.inj heq
      obtain ⟨rfl, hresult⟩ := Sigma.mk.inj hreply
      have hfind := readWith_ok (eq_of_heq hresult).symm
      exact ⟨eq_of_beq (List.find?_some hfind :),
        hgrows.tokens token (List.mem_of_find?_eq_some hfind)⟩
    · obtain ⟨hhash, hstands⟩ := h.tokensRead q hash token hold
      exact ⟨hhash, hstands.grows hgrows⟩
  · intro q agentId agent hmem
    rcases List.mem_cons.1 hmem with heq | hold
    · obtain ⟨-, hreply⟩ := Prod.mk.inj heq
      obtain ⟨rfl, hresult⟩ := Sigma.mk.inj hreply
      have hfind := readWith_ok (eq_of_heq hresult).symm
      exact ⟨eq_of_beq (List.find?_some hfind :),
        hgrows.agents agent (List.mem_of_find?_eq_some hfind)⟩
    · obtain ⟨hid, hin⟩ := h.agentsRead q agentId agent hold
      exact ⟨hid, hgrows.agents agent hin⟩
  · intro credential hmem scope hscope
    rcases hnew credential hmem with hold | hissued
    · exact h.held credential hold scope hscope
    · obtain ⟨issuer, hpresents, hholds⟩ := (h.granted hmay hissued).holds
      exact h.issuerHeld hpresents (hholds scope hscope)
  · intro credential hmem
    rcases hnew credential hmem with hold | hissued
    · rcases h.known credential hold with hfirst | ⟨q, x, hx, hcredential⟩
      · exact .inl hfirst
      · exact .inr ⟨q, x, List.mem_cons_of_mem _ hx, hcredential⟩
    · exact .inr ⟨p, _, List.mem_cons_self, hissued⟩

theorem derived_start (S : AdminSystem) (w₀ : CredentialStore) : Derived S w₀ [] w₀ where
  tokensRead := by
    intro p hash token hmem
    cases hmem
  agentsRead := by
    intro p agentId agent hmem
    cases hmem
  held := fun credential hmem _ hscope => .inl ⟨credential, hmem, hscope⟩
  known := fun _ hmem => .inl hmem

/-- Every run is a behaviour of obedient requests. -/
theorem run_behaviour (S : AdminSystem) (w₀ : CredentialStore) (s : List (Nat × AdminInput)) :
    Behaviour execAdmin (mayOf fun p => conduct S.primitives (S.presented p) (S.requests p)) w₀
      ((S.start w₀).run execAdmin s).log ((S.start w₀).run execAdmin s).world :=
  (Config.run_behaviour (fun _ _ _ _ => trivial) .start
    (fun p => serve_obeys S.primitives S.auditFailClosed (S.presented p) (S.requests p)) s).1

theorem derived_of_behaviour
    (h : Behaviour execAdmin (mayOf fun p => conduct S.primitives (S.presented p) (S.requests p)) w₀
      log w) : Derived S w₀ log w := by
  induction h with
  | start => exact derived_start S w₀
  | step p o i _ hmay ih => exact derived_step ih p o i hmay

end Run

/-- **Delegation never amplifies.** In every run, each credential that a step issues is granted by a
caller who holds it at that moment; a credential in the store is one of the first or was issued so;
and every scope it holds, a first credential holds. -/
theorem delegation_never_amplifies (S : AdminSystem) (w₀ : CredentialStore)
    (s : List (Nat × AdminInput)) :
    (∀ p i x credential, ((S.start w₀).run execAdmin (s ++ [(p, i)])).log =
        (p, x) :: ((S.start w₀).run execAdmin s).log → issued x = some credential →
      Granted S.primitives ((S.start w₀).run execAdmin s).world (S.presented p) credential) ∧
    ∀ credential ∈ ((S.start w₀).run execAdmin s).world.credentials,
      (credential ∈ w₀.credentials ∨
        ∃ p x, (p, x) ∈ ((S.start w₀).run execAdmin s).log ∧ issued x = some credential) ∧
      ∀ scope ∈ credential.scopes, InitiallyHeld S w₀ scope := by
  have hderived := derived_of_behaviour (run_behaviour S w₀ s)
  constructor
  · intro p i x credential hlog hissued
    have hnext := run_behaviour S w₀ (s ++ [(p, i)])
    rw [hlog] at hnext
    obtain ⟨w₁, j, -, hmay, -, -⟩ := hnext.last
    exact hderived.granted (r := x.2) hmay hissued
  · intro credential hmem
    refine ⟨hderived.known credential hmem, fun scope hscope => hderived.held credential hmem scope ?_⟩
    exact List.any_eq_true.2 ⟨scope, hscope, by simp⟩

end FerrumGate.Admin
