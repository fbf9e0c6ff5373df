import FerrumGate.Gateway.Credentials

/-!
# How credentials are issued

The conduct of a request on credentials: what it must have seen before it revokes or inserts. That
the programs obey it is shown here handler by handler; the safety proofs use the conduct alone.

* **`serve_obeys`** : every request obeys.
* `checkScopeAttenuation_ok` : what the check of the scopes has shown when it passes.
-/

namespace FerrumGate.Admin

open Interleave

abbrev Seen := Transcript AdminOp AdminOp.Result

/-! ## What is checked -/

/-- The issuer holds these scopes; the wildcard is granted only by a wildcard. -/
def Attenuates (issuer : ScopedActor) (scopes : List String) : Prop :=
  (∀ scope ∈ scopes, issuer.hasScope scope = true) ∧ ("*" ∈ scopes → issuer.wildcard = true)

theorem wildcard_hasScope {actor : ScopedActor} (h : actor.wildcard = true) (scope : String) :
    actor.hasScope scope = true := by
  obtain ⟨s, hs, hstar⟩ := List.any_eq_true.1 h
  exact List.any_eq_true.2 ⟨s, hs, by rw [hstar, Bool.true_or]⟩

/-- **What the check of the scopes shows.** -/
theorem checkScopeAttenuation_ok {issuer : ScopedActor} {scopes : List String}
    (h : checkScopeAttenuation issuer scopes = .ok ()) : Attenuates issuer scopes := by
  unfold checkScopeAttenuation at h
  split_ifs at h with hwild hstar
  · exact ⟨fun scope _ => wildcard_hasScope hwild scope, fun _ => hwild⟩
  · split at h
    · cases h
    · next hnone =>
      refine ⟨fun scope hscope => ?_, fun hmem => ?_⟩
      · have hnot := List.find?_eq_none.1 hnone scope hscope
        simpa using hnot
      · exact absurd (List.any_eq_true.2 ⟨"*", hmem, rfl⟩) hstar

/-- The caller whom the middleware has established. -/
inductive Established (primitives : TokenPrimitives) (t : Seen) : Presented → ScopedActor → Prop
  | token {tokenValue : String} {token : ScopedToken}
      (h : ⟨.getTokenByLookupHash (primitives.hashTokenValue tokenValue), .ok (some token)⟩ ∈ t) :
      Established primitives t (.token tokenValue)
        { actorId := token.actorId, role := some token.role, scopes := token.scopes }
  | agent {agentId : String} {agent : AgentRow}
      (h : ⟨.getAgent agentId, .ok (some agent)⟩ ∈ t) :
      Established primitives t (.agent agentId true)
        { actorId := agentId, role := none, scopes := agent.allowedScopes }
  | oidc (actor : ScopedActor) : Established primitives t (.oidc actor) actor

theorem Established.mono {primitives : TokenPrimitives} {t t' : Seen} (ht : t ⊆ t')
    {presented : Presented} {actor : ScopedActor} (h : Established primitives t presented actor) :
    Established primitives t' presented actor := by
  cases h with
  | token h => exact .token (ht h)
  | agent h => exact .agent (ht h)
  | oidc actor => exact .oidc actor

/-! ## The conduct -/

def isInsert : AdminOp → Bool
  | .insertToken _ => true
  | .insertAgent _ => true
  | _ => false

/-- Nothing has been inserted. -/
def Uninserted (t : Seen) : Prop := ∀ e ∈ t, isInsert e.1 = false

theorem uninserted_nil : Uninserted [] := by simp [Uninserted]

theorem Uninserted.cons {t : Seen} (h : Uninserted t) {o : AdminOp} {r : o.Result}
    (ho : isInsert o = false) : Uninserted (⟨o, r⟩ :: t) := by
  intro e he
  rcases List.mem_cons.1 he with rfl | he
  · exact ho
  · exact h e he

/-- The request has performed its revocation of the token. -/
def Revoked (t : Seen) (tokenId : String) : Prop :=
  ∃ reason now r, (⟨.revokeToken tokenId reason now, r⟩ : Reply AdminOp AdminOp.Result) ∈ t

/-- A successor is that of a token whose rotation was asked for, and comes after its revocation. -/
def Succeeds (request : AdminRequest) (t : Seen) (token : ScopedToken) : Prop :=
  ∀ tokenId, token.rotatedFrom = some tokenId →
    (∃ req, request = .rotate tokenId req) ∧ Revoked t tokenId

/-- What a request has to have seen before it writes. -/
def mayWrite (primitives : TokenPrimitives) (presented : Presented) (request : AdminRequest)
    (t : Seen) : AdminOp → Prop
  | .insertToken token =>
    Uninserted t ∧ Succeeds request t token ∧
      ∃ issuer, Established primitives t presented issuer ∧ Attenuates issuer token.scopes ∧
        (token.role = .admin → issuer.wildcard = true)
  | .insertAgent agent =>
    Uninserted t ∧
      ∃ issuer, Established primitives t presented issuer ∧ Attenuates issuer agent.allowedScopes
  | _ => True

def conduct (primitives : TokenPrimitives) (presented : Presented) (request : AdminRequest) :
    Conduct AdminOp AdminOp.Result where
  may := mayWrite primitives presented request
  gives := fun _ _ => True

/-! ## Walking through a request -/

section Walk

variable {primitives : TokenPrimitives} {presented : Presented} {request : AdminRequest}
  {α β : Type} {Q : β → Seen → Prop} {t : Seen}

theorem walk_perform {o : AdminOp} {f : o.Result → AdminM β}
    (hmay : mayWrite primitives presented request t o)
    (h : ∀ r, ObeysE (conduct primitives presented request) Q (f r) (⟨o, r⟩ :: t)) :
    ObeysE (conduct primitives presented request) Q (perform o >>= f) t := by
  rw [perform, obeysE_bind, obeysE_lift, obeys_op]
  exact ⟨hmay, fun r _ => h r⟩

theorem walk_ofExcept {x : Except Refusal α} {f : α → AdminM β}
    (h : ∀ a, x = .ok a → ObeysE (conduct primitives presented request) Q (f a) t) :
    ObeysE (conduct primitives presented request) Q ((ofExcept x : AdminM α) >>= f) t := by
  rw [obeysE_bind, obeysE_ofExcept]
  exact h

theorem walk_attempt {refusal : Refusal} {result : Except StoreError α} {f : α → AdminM β}
    (h : ∀ a, result = .ok a → ObeysE (conduct primitives presented request) Q (f a) t) :
    ObeysE (conduct primitives presented request) Q (attemptOr refusal result >>= f) t := by
  refine walk_ofExcept fun a ha => h a ?_
  cases result with
  | error e => cases ha
  | ok b => exact congrArg _ (Except.ok.inj ha)

theorem walk_insist {condition : Bool} {refusal : Refusal} {f : Unit → AdminM β}
    (h : condition = true → ObeysE (conduct primitives presented request) Q (f ()) t) :
    ObeysE (conduct primitives presented request) Q (insist condition refusal >>= f) t := by
  refine walk_ofExcept fun a ha => ?_
  cases condition with
  | false => cases ha
  | true => exact h rfl

theorem walk_found {refusal : Refusal} {result : Option α} {f : α → AdminM β}
    (h : ∀ a, result = some a → ObeysE (conduct primitives presented request) Q (f a) t) :
    ObeysE (conduct primitives presented request) Q (found refusal result >>= f) t := by
  refine walk_ofExcept fun a ha => h a ?_
  cases result with
  | none => cases ha
  | some b => exact congrArg _ (Except.ok.inj ha)

end Walk

/-! ## The middleware -/

section Handlers

variable {primitives : TokenPrimitives} {presented : Presented} {request : AdminRequest} {t : Seen}
  {auditFailClosed : Bool}

/-- The caller is established, and nothing has been inserted. -/
def Caller (primitives : TokenPrimitives) (presented : Presented) (issuer : Option ScopedActor)
    (t : Seen) : Prop :=
  Uninserted t ∧ ∀ actor, issuer = some actor → Established primitives t presented actor

theorem authenticateScoped_obeys {tokenValue : String} {required : Option String}
    (ht : Uninserted t) :
    ObeysE (conduct primitives (.token tokenValue) request)
      (fun actor t' => Caller primitives (.token tokenValue) (some actor) t')
      (authenticateScoped primitives tokenValue required) t := by
  unfold authenticateScoped
  refine walk_perform trivial fun result => walk_attempt fun row hrow => walk_found fun token htoken => ?_
  subst hrow
  subst htoken
  refine walk_insist fun _ => walk_insist fun _ => walk_perform trivial fun now => ?_
  refine walk_insist fun _ => walk_insist fun _ => obeysE_pure.2 ⟨(ht.cons rfl).cons rfl, ?_⟩
  rintro actor ⟨⟩
  exact .token (List.mem_cons_of_mem _ List.mem_cons_self)

theorem authenticateAgent_obeys {agentId : String} {signed : Bool} {required : Option String}
    (ht : Uninserted t) :
    ObeysE (conduct primitives (.agent agentId signed) request)
      (fun actor t' => Caller primitives (.agent agentId signed) (some actor) t')
      (authenticateAgent agentId signed required) t := by
  unfold authenticateAgent
  refine walk_perform trivial fun result => walk_attempt fun row hrow => walk_found fun agent hagent => ?_
  subst hrow
  subst hagent
  refine walk_insist fun _ => walk_insist fun hsigned => walk_insist fun _ => ?_
  subst hsigned
  refine obeysE_pure.2 ⟨ht.cons rfl, ?_⟩
  rintro actor ⟨⟩
  exact .agent List.mem_cons_self

theorem authenticate_obeys {method path : String} (ht : Uninserted t) :
    ObeysE (conduct primitives presented request) (fun issuer t' => Caller primitives presented issuer t')
      (authenticate primitives method path presented) t := by
  cases presented with
  | token tokenValue =>
    refine obeysE_bind.2 ((authenticateScoped_obeys ht).mono fun actor t' h => ?_)
    exact obeysE_pure.2 h
  | agent agentId signed =>
    refine obeysE_bind.2 ((authenticateAgent_obeys ht).mono fun actor t' h => ?_)
    exact obeysE_pure.2 h
  | oidc actor =>
    refine walk_insist fun _ => obeysE_pure.2 ⟨ht, ?_⟩
    rintro actor' ⟨⟩
    exact .oidc actor
  | anonymous =>
    refine obeysE_pure.2 ⟨ht, ?_⟩
    rintro actor ⟨⟩

/-! ## The handlers -/

/-- After what was checked, the token may be inserted. -/
theorem issueToken_obeys {failed actorId : String} {role : TokenRole} {scopes : List String}
    {expiresAt : Timestamp} {rotatedFrom : Option String} {issuer : ScopedActor}
    (ht : Uninserted t) (hissuer : Established primitives t presented issuer)
    (hscopes : Attenuates issuer scopes) (hrole : role = .admin → issuer.wildcard = true)
    (hrotated : ∀ tokenId, rotatedFrom = some tokenId →
      (∃ req, request = .rotate tokenId req) ∧ Revoked t tokenId) :
    ObeysE (conduct primitives presented request) (fun _ _ => True)
      (issueToken primitives auditFailClosed failed actorId role scopes expiresAt rotatedFrom) t := by
  unfold issueToken
  refine walk_perform trivial fun tokenValue => walk_perform trivial fun tokenSalt => ?_
  refine walk_perform trivial fun tokenId => ?_
  have hsub : t ⊆ ⟨.draw, tokenId⟩ :: ⟨.draw, tokenSalt⟩ :: ⟨.draw, tokenValue⟩ :: t :=
    fun e he => List.mem_cons_of_mem _ (List.mem_cons_of_mem _ (List.mem_cons_of_mem _ he))
  refine walk_perform ⟨((ht.cons rfl).cons rfl).cons rfl, ?_, issuer, hissuer.mono hsub, hscopes,
    hrole⟩ fun inserted => walk_attempt fun _ _ => ?_
  · intro rotated hrot
    obtain ⟨hreq, reason, now, r, hr⟩ := hrotated rotated hrot
    exact ⟨hreq, reason, now, r, hsub hr⟩
  · refine walk_perform trivial fun audited => walk_insist fun _ => obeysE_pure.2 trivial

theorem createToken_obeys {issuer : Option ScopedActor} {req : CreateTokenRequest}
    (hcaller : Caller primitives presented issuer t) :
    ObeysE (conduct primitives presented request) (fun _ _ => True)
      (createToken primitives auditFailClosed issuer req) t := by
  obtain ⟨ht, hissuer⟩ := hcaller
  unfold createToken
  refine walk_perform trivial fun now => walk_insist fun _ => walk_found fun actor hactor => ?_
  refine walk_insist fun hrole => walk_ofExcept fun _ hscopes => ?_
  refine issueToken_obeys (ht.cons rfl)
    ((hissuer actor hactor).mono (List.subset_cons_of_subset _ (List.Subset.refl _)))
    (checkScopeAttenuation_ok hscopes) ?_ ?_
  · intro hadmin
    rw [hadmin] at hrole
    simpa using hrole
  · rintro tokenId ⟨⟩

theorem rotatedExpiry_obeys {requested : Option Timestamp} (ht : Uninserted t) :
    ObeysE (conduct primitives presented request) (fun _ t' => Uninserted t' ∧ t ⊆ t')
      (rotatedExpiry requested) t := by
  have hsub : ∀ now, t ⊆ (⟨.readClock, now⟩ : Reply AdminOp AdminOp.Result) :: t :=
    fun _ => List.subset_cons_of_subset _ (List.Subset.refl _)
  cases requested with
  | none => exact walk_perform trivial fun now => obeysE_pure.2 ⟨ht.cons rfl, hsub now⟩
  | some expiresAt =>
    exact walk_perform trivial fun now => walk_insist fun _ =>
      obeysE_pure.2 ⟨ht.cons rfl, hsub now⟩

theorem revokeStored_obeys {tokenId : String} {reason : Option String} :
    ObeysE (conduct primitives presented request)
      (fun r t' => ∃ now, t' = ⟨.revokeToken tokenId reason now, r⟩ :: ⟨.readClock, now⟩ :: t)
      (revokeStored tokenId reason) t := by
  refine walk_perform trivial fun now => ?_
  exact obeysE_lift.2 ⟨trivial, fun r _ => ⟨now, rfl⟩⟩

theorem rotateToken_obeys {issuer : Option ScopedActor} {tokenId : String}
    {req : RotateTokenRequest} (hcaller : Caller primitives presented issuer t)
    (hrequest : request = .rotate tokenId req) :
    ObeysE (conduct primitives presented request) (fun _ _ => True)
      (rotateToken primitives auditFailClosed issuer tokenId req) t := by
  obtain ⟨ht, hissuer⟩ := hcaller
  unfold rotateToken
  refine walk_perform trivial fun result => walk_attempt fun row _ => walk_found fun old _ => ?_
  refine walk_perform trivial fun now => walk_insist fun _ => ?_
  refine obeysE_bind.2 ((rotatedExpiry_obeys ((ht.cons rfl).cons rfl)).mono fun expiresAt t₁ h₁ => ?_)
  obtain ⟨hun, hsub⟩ := h₁
  refine walk_found fun actor hactor => walk_insist fun hrole => walk_ofExcept fun _ hscopes => ?_
  refine obeysE_bind.2 (revokeStored_obeys.mono ?_)
  rintro revoked _ ⟨now', rfl⟩
  have hsub' : t ⊆ ⟨.revokeToken tokenId req.reason now', revoked⟩ :: ⟨.readClock, now'⟩ :: t₁ :=
    fun e he => List.mem_cons_of_mem _ (List.mem_cons_of_mem _
      (hsub (List.mem_cons_of_mem _ (List.mem_cons_of_mem _ he))))
  refine issueToken_obeys ((hun.cons rfl).cons rfl) ((hissuer actor hactor).mono hsub')
    (checkScopeAttenuation_ok hscopes) ?_ ?_
  · intro hadmin
    rw [hadmin] at hrole
    simpa using hrole
  · rintro rotated ⟨⟩
    exact ⟨⟨req, hrequest⟩, req.reason, now', revoked, List.mem_cons_self⟩

theorem revokeToken_obeys {tokenId : String} {reason : Option String} :
    ObeysE (conduct primitives presented request) (fun _ _ => True)
      (revokeToken auditFailClosed tokenId reason) t := by
  unfold revokeToken
  refine obeysE_bind.2 (revokeStored_obeys.mono fun revoked _ _ => ?_)
  refine walk_attempt fun changed _ => walk_insist fun _ => ?_
  refine walk_perform trivial fun audited => ?_
  exact obeysE_ofExcept.2 fun _ _ => trivial

theorem createAgent_obeys {issuer : Option ScopedActor} {req : RegisterAgentRequest}
    (hcaller : Caller primitives presented issuer t) :
    ObeysE (conduct primitives presented request) (fun _ _ => True)
      (createAgent primitives auditFailClosed issuer req) t := by
  obtain ⟨ht, hissuer⟩ := hcaller
  unfold createAgent
  refine walk_found fun bytes _ => walk_insist fun _ => walk_found fun actor hactor => ?_
  refine walk_ofExcept fun _ hscopes => ?_
  refine walk_perform trivial fun known => walk_attempt fun _ _ => walk_insist fun _ => ?_
  refine walk_perform trivial fun sameKey => walk_attempt fun _ _ => walk_insist fun _ => ?_
  have hestablished : Established primitives
      (⟨.getAgentByFingerprint (primitives.fingerprint bytes), sameKey⟩ ::
        ⟨.getAgent req.agentId, known⟩ :: t) presented actor :=
    (hissuer actor hactor).mono fun e he => List.mem_cons_of_mem _ (List.mem_cons_of_mem _ he)
  refine walk_perform ⟨(ht.cons rfl).cons rfl, actor, hestablished,
    checkScopeAttenuation_ok hscopes⟩ fun inserted => walk_attempt fun _ _ => ?_
  exact walk_perform trivial fun audited => walk_insist fun _ => obeysE_pure.2 trivial

/-- **Every request obeys.** -/
theorem serve_obeys (primitives : TokenPrimitives) (auditFailClosed : Bool) (presented : Presented)
    (request : AdminRequest) :
    Obeys (conduct primitives presented request) (fun _ _ => True)
      (serve primitives auditFailClosed presented request) [] := by
  have hrun : ObeysE (conduct primitives presented request) (fun _ _ => True)
      (authenticate primitives request.route.1 request.route.2 presented >>= fun issuer =>
        handle primitives auditFailClosed issuer request) [] := by
    refine obeysE_bind.2 ((authenticate_obeys uninserted_nil).mono fun issuer t hcaller => ?_)
    cases request with
    | create req =>
      exact obeysE_bind.2 ((createToken_obeys hcaller).mono fun _ _ _ => obeysE_pure.2 trivial)
    | rotate tokenId req =>
      exact obeysE_bind.2 ((rotateToken_obeys hcaller rfl).mono fun _ _ _ => obeysE_pure.2 trivial)
    | revoke tokenId reason => exact revokeToken_obeys
    | register req =>
      exact obeysE_bind.2 ((createAgent_obeys hcaller).mono fun _ _ _ => obeysE_pure.2 trivial)
  exact Obeys.mono hrun fun _ _ _ => trivial

end Handlers

end FerrumGate.Admin
