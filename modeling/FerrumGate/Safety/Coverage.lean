import FerrumGate.Safety.Replay
import FerrumGate.Wire.Fields

/-!
# What an agent's signature covers

An agent signs `agent_id:timestamp:nonce:body_hash:method:path`. The query string is not in it, and
a nonce may contain the separator, as a path may: the text does not say where the nonce ends.

* **`signature_covers_iff`** : two requests that pass for one agent with one signature are the same
  exactly if their query strings are and their nonces contain the separator equally often.
* **`signature_reused`** : a signature that passes for two paths and nonces, and for two queries.
-/

namespace FerrumGate

/-! ## Requests as they come in -/

/-- The characters of a token (RFC 9110). -/
def isTokenChar (c : Char) : Bool := c.isAlphanum || "!#$%&'*+-.^_`|~".toList.contains c

/-- A method: `http` takes tokens only. -/
structure RequestMethod where
  text : String
  token : text.toList.all isTokenChar = true
  deriving DecidableEq

/-- A request with the path and the query string of its URI. -/
structure HttpRequest where
  agentId : Option String
  timestamp : Option String
  nonce : Option String
  bodyHash : Option String
  signature : Option String
  method : RequestMethod
  path : String
  query : Option String
  body : List UInt8
  deriving DecidableEq

/-- What `auth_middleware` hands to `verify_agent_request`: `uri().path()` leaves the query out. -/
def HttpRequest.agentRequest (request : HttpRequest) : AgentRequest where
  agentId := request.agentId
  timestamp := request.timestamp
  nonce := request.nonce
  bodyHash := request.bodyHash
  signature := request.signature
  method := request.method.text
  path := request.path
  body := request.body

theorem RequestMethod.no_colon (method : RequestMethod) : ':' ∉ method.text.toList := by
  intro hmem
  have htoken := List.all_eq_true.1 method.token ':' hmem
  exact absurd htoken (by decide)

theorem RequestMethod.ext_text {m m' : RequestMethod} (h : m.text = m'.text) : m = m' := by
  cases m
  cases m'
  simp only at h
  subst h
  rfl

/-! ## The primitives, idealised -/

def isHexDigit (c : Char) : Bool := c.isDigit || "abcdef".toList.contains c

/-- A signature is one of one message, digests are written in hex, and instants as in RFC 3339. -/
structure Ideal (primitives : Primitives) : Prop where
  unforgeable : ∀ key message message' signature, primitives.verify key message signature = true →
    primitives.verify key message' signature = true → message = message'
  hex : ∀ body, (primitives.blake3Hex body).toList.all isHexDigit = true
  rfc3339 : ∀ text timestamp, primitives.parseRfc3339 text = some timestamp →
    Wire.IsDateTime text.toList

section Digests

variable {primitives : Primitives}

theorem bodyHash_no_colon (hideal : Ideal primitives) (body : List UInt8) :
    ':' ∉ (computedBodyHash primitives body).toList := by
  intro hmem
  unfold computedBodyHash at hmem
  split_ifs at hmem
  · exact absurd hmem (by decide)
  · exact absurd (List.all_eq_true.1 (hideal.hex body) ':' hmem) (by decide)

/-- No digest is `null`. -/
theorem digest_ne_null (hideal : Ideal primitives) (body : List UInt8) :
    primitives.blake3Hex body ≠ "null" := by
  intro hnull
  have hhex := hideal.hex body
  rw [hnull] at hhex
  exact absurd hhex (by decide)

/-- Bodies that do not collide are told apart. -/
theorem body_eq_of_hash (hideal : Ideal primitives) {body body' : List UInt8}
    (hcollision : primitives.blake3Hex body = primitives.blake3Hex body' → body = body')
    (h : computedBodyHash primitives body = computedBodyHash primitives body') : body = body' := by
  unfold computedBodyHash at h
  split_ifs at h with hempty hempty' hempty'
  · rw [List.isEmpty_iff.1 hempty, List.isEmpty_iff.1 hempty']
  · exact absurd h.symm (digest_ne_null hideal body')
  · exact absurd h (digest_ne_null hideal body)
  · exact hcollision h

end Digests

/-! ## What an accepted request has shown -/

section Accepted

variable {primitives : Primitives} {config : AgentConfig} {cache : NonceCache}
  {arrival : Arrival} {headers : AgentHeaders}

theorem extractHeaders_ok {request : AgentRequest} (h : extractHeaders request = .ok headers) :
    request.agentId = some headers.agentId ∧ request.timestamp = some headers.timestamp ∧
      request.nonce = some headers.nonce ∧ request.bodyHash = some headers.bodyHash ∧
      request.signature = some headers.signature := by
  unfold extractHeaders requireHeader at h
  cases hagent : request.agentId <;> cases htime : request.timestamp <;>
    cases hnonce : request.nonce <;> cases hhash : request.bodyHash <;>
    cases hsignature : request.signature <;>
    simp only [hagent, htime, hnonce, hhash, hsignature, bind, Except.bind, pure, Except.pure,
      reduceCtorEq, Except.ok.injEq] at h
  subst h
  exact ⟨rfl, rfl, rfl, rfl, rfl⟩

theorem decodeBytes_ok {what text : String} {length : Nat} {bytes : List UInt8}
    (h : decodeBytes primitives what text length = .ok bytes) :
    primitives.base64Decode text = some bytes := by
  unfold decodeBytes at h
  split at h
  · cases h
  · next hdecode =>
    split_ifs at h
    cases h
    exact hdecode

/-- The signature of an accepted request is the agent's for its text. -/
structure Signed (primitives : Primitives) (arrival : Arrival) (headers : AgentHeaders) : Prop where
  extracted : extractHeaders arrival.request = .ok headers
  instant : ∃ timestamp, primitives.parseRfc3339 headers.timestamp = some timestamp
  bodyHash : computedBodyHash primitives arrival.request.body = headers.bodyHash
  verified : ∃ agent key signature,
    arrival.agents.find? (·.agentId = headers.agentId) = some agent ∧
    primitives.base64Decode agent.publicKey = some key ∧
    primitives.base64Decode headers.signature = some signature ∧
    primitives.verify key (canonicalPayload headers arrival.request.method arrival.request.path)
      signature = true

/-- The checks after the nonce, when they pass. -/
theorem afterNonce_signed (h : (afterNonce primitives arrival headers).isOk = true) :
    computedBodyHash primitives arrival.request.body = headers.bodyHash ∧
    ∃ agent key signature, arrival.agents.find? (·.agentId = headers.agentId) = some agent ∧
      primitives.base64Decode agent.publicKey = some key ∧
      primitives.base64Decode headers.signature = some signature ∧
      primitives.verify key (canonicalPayload headers arrival.request.method arrival.request.path)
        signature = true := by
  have herror : ∀ e : AgentAuthError,
      ¬ ((Except.error e : Except AgentAuthError AuthActor).isOk = true) := fun _ h => by cases h
  unfold afterNonce at h
  simp only [bind, Except.bind, throw, throwThe, MonadExceptOf.throw, pure, Except.pure] at h
  split_ifs at h with hread hbody hlookup
  · exact absurd h (herror _)
  · exact absurd h (herror _)
  · exact absurd h (herror _)
  refine ⟨not_not.1 hbody, ?_⟩
  cases hfind : arrival.agents.find? (·.agentId = headers.agentId) with
  | none =>
    rw [hfind] at h
    exact absurd h (herror _)
  | some agent =>
    rw [hfind] at h
    dsimp only at h
    split_ifs at h
    · exact absurd h (herror _)
    cases hsignature : decodeBytes primitives "signature" headers.signature 64 with
    | error e =>
      rw [hsignature] at h
      exact absurd h (herror _)
    | ok signature =>
      cases hkey : decodeBytes primitives "public key" agent.publicKey 32 with
      | error e =>
        rw [hsignature, hkey] at h
        exact absurd h (herror _)
      | ok key =>
        rw [hsignature, hkey] at h
        dsimp only at h
        split_ifs at h with hpoint hverify
        · exact absurd h (herror _)
        · exact absurd h (herror _)
        · refine ⟨agent, key, signature, rfl, decodeBytes_ok hkey, decodeBytes_ok hsignature, ?_⟩
          simpa using hverify

theorem accepted_signed (h : (verifyAgentRequest primitives config arrival cache).1.isOk = true) :
    ∃ headers, Signed primitives arrival headers := by
  obtain ⟨headers, hbefore, hcheck⟩ := accepted_passed h
  obtain ⟨hextracted, timestamp, hparse, -⟩ := beforeNonce_ok hbefore
  have hafter : (afterNonce primitives arrival headers).isOk = true := by
    unfold verifyAgentRequest at h
    rw [hbefore] at h
    dsimp only at h
    split_ifs at h
    · cases h
    · split at h
      · cases h
      · exact h
  obtain ⟨hbody, hverified⟩ := afterNonce_signed hafter
  exact ⟨headers, hextracted, ⟨timestamp, hparse⟩, hbody, hverified⟩

end Accepted

/-! ## What the signed text says -/

theorem canonicalPayload_toList (headers : AgentHeaders) (method path : String) :
    (canonicalPayload headers method path).toList =
      headers.agentId.toList ++ ':' :: (headers.timestamp.toList ++ ':' ::
        (headers.nonce.toList ++ ':' :: (headers.bodyHash.toList ++ ':' ::
          (method.toList ++ ':' :: path.toList)))) := by
  have hcolon : ":".toList = [':'] := rfl
  simp only [canonicalPayload, String.toList_append, hcolon, List.append_assoc,
    List.cons_append, List.nil_append]

/-- How often the separator is in a header. -/
def colons (header : Option String) : Nat := (header.map fun text => text.toList.count ':').getD 0

/-- With as many separators in the nonces, the signed text determines its fields. -/
theorem canonicalPayload_inj {headers headers' : AgentHeaders} {method method' path path' : String}
    (hagent : headers.agentId = headers'.agentId)
    (htime : Wire.IsDateTime headers.timestamp.toList)
    (htime' : Wire.IsDateTime headers'.timestamp.toList)
    (hnonce : headers.nonce.toList.count ':' = headers'.nonce.toList.count ':')
    (hhash : ':' ∉ headers.bodyHash.toList) (hhash' : ':' ∉ headers'.bodyHash.toList)
    (hmethod : ':' ∉ method.toList) (hmethod' : ':' ∉ method'.toList)
    (h : canonicalPayload headers method path = canonicalPayload headers' method' path') :
    headers.timestamp = headers'.timestamp ∧ headers.nonce = headers'.nonce ∧
      headers.bodyHash = headers'.bodyHash ∧ method = method' ∧ path = path' := by
  have htext := congrArg String.toList h
  rw [canonicalPayload_toList, canonicalPayload_toList, hagent] at htext
  have htext₁ := (List.cons.inj (List.append_cancel_left htext)).2
  obtain ⟨htimestamp, htext₂⟩ := Wire.dateTime_split htime htime' htext₁
  obtain ⟨hnonces, htext₃⟩ := Wire.append_separator_inj hnonce (List.cons.inj htext₂).2
  obtain ⟨hhashes, htext₄⟩ := Wire.append_separator_inj_of_not_mem hhash hhash' htext₃
  obtain ⟨hmethods, hpaths⟩ := Wire.append_separator_inj_of_not_mem hmethod hmethod' htext₄
  exact ⟨String.toList_inj.1 htimestamp, String.toList_inj.1 hnonces, String.toList_inj.1 hhashes,
    String.toList_inj.1 hmethods, String.toList_inj.1 hpaths⟩

/-- The key an agent is registered with. -/
def registeredKey (agents : List AgentRecord) (agentId : String) : Option String :=
  (agents.find? (·.agentId = agentId)).map (·.publicKey)

/-- **What a signature covers**: of two requests that pass for one agent with one signature, all but
the query string, if the nonces have as many separators. -/
theorem signature_covers_iff (primitives : Primitives) (hideal : Ideal primitives)
    (config config' : AgentConfig) (arrival arrival' : Arrival) (cache cache' : NonceCache)
    (request request' : HttpRequest) (agentId : String)
    (hrequest : arrival.request = request.agentRequest)
    (hrequest' : arrival'.request = request'.agentRequest)
    (hpass : (verifyAgentRequest primitives config arrival cache).1.isOk = true)
    (hpass' : (verifyAgentRequest primitives config' arrival' cache').1.isOk = true)
    (hagent : request.agentId = some agentId) (hagent' : request'.agentId = some agentId)
    (hkey : registeredKey arrival.agents agentId = registeredKey arrival'.agents agentId)
    (hsignature : request.signature.map primitives.base64Decode =
      request'.signature.map primitives.base64Decode)
    (hcollision : primitives.blake3Hex request.body = primitives.blake3Hex request'.body →
      request.body = request'.body) :
    (request.timestamp = request'.timestamp ∧ request.nonce = request'.nonce ∧
      request.method = request'.method ∧ request.path = request'.path ∧
      request.query = request'.query ∧ request.body = request'.body) ↔
    (request.query = request'.query ∧ colons request.nonce = colons request'.nonce) := by
  constructor
  · rintro ⟨-, hnonce, -, -, hquery, -⟩
    exact ⟨hquery, by rw [hnonce]⟩
  · rintro ⟨hquery, hcolons⟩
    obtain ⟨headers, hsigned⟩ := accepted_signed hpass
    obtain ⟨headers', hsigned'⟩ := accepted_signed hpass'
    obtain ⟨hid, htime, hnonce, -, hsig⟩ := extractHeaders_ok hsigned.extracted
    obtain ⟨hid', htime', hnonce', -, hsig'⟩ := extractHeaders_ok hsigned'.extracted
    obtain ⟨timestamp, hparse⟩ := hsigned.instant
    obtain ⟨timestamp', hparse'⟩ := hsigned'.instant
    have hbody := hsigned.bodyHash
    have hbody' := hsigned'.bodyHash
    obtain ⟨agent, key, signature, hfind, hkeyBytes, hsigBytes, hverify⟩ := hsigned.verified
    obtain ⟨agent', key', signature', hfind', hkeyBytes', hsigBytes', hverify'⟩ := hsigned'.verified
    rw [hrequest] at hid htime hnonce hsig hbody hverify
    rw [hrequest'] at hid' htime' hnonce' hsig' hbody' hverify'
    have hheader : headers.agentId = agentId := Option.some.inj (hid.symm.trans hagent)
    have hheader' : headers'.agentId = agentId := Option.some.inj (hid'.symm.trans hagent')
    -- one key and one signature, so one signed text
    have hkeys : key = key' := by
      rw [hheader] at hfind
      rw [hheader'] at hfind'
      rw [registeredKey, registeredKey, hfind, hfind'] at hkey
      have hpublic : agent.publicKey = agent'.publicKey := Option.some.inj hkey
      rw [hpublic, hkeyBytes'] at hkeyBytes
      exact (Option.some.inj hkeyBytes).symm
    have hsignatures : signature = signature' := by
      have hdecoded : primitives.base64Decode headers.signature =
          primitives.base64Decode headers'.signature := by
        have hmapped := hsignature
        change request.signature = some headers.signature at hsig
        change request'.signature = some headers'.signature at hsig'
        rw [hsig, hsig'] at hmapped
        exact Option.some.inj hmapped
      rw [hdecoded, hsigBytes'] at hsigBytes
      exact (Option.some.inj hsigBytes).symm
    rw [← hkeys, ← hsignatures] at hverify'
    have hpayload := hideal.unforgeable _ _ _ _ hverify hverify'
    have hcount : headers.nonce.toList.count ':' = headers'.nonce.toList.count ':' := by
      change request.nonce = some headers.nonce at hnonce
      change request'.nonce = some headers'.nonce at hnonce'
      rw [hnonce, hnonce'] at hcolons
      exact hcolons
    have hhash : ':' ∉ headers.bodyHash.toList := hbody ▸ bodyHash_no_colon hideal _
    have hhash' : ':' ∉ headers'.bodyHash.toList := hbody' ▸ bodyHash_no_colon hideal _
    obtain ⟨htimes, hnonces, hhashes, hmethods, hpaths⟩ :=
      canonicalPayload_inj (hheader.trans hheader'.symm) (hideal.rfc3339 _ _ hparse)
        (hideal.rfc3339 _ _ hparse') hcount hhash hhash' request.method.no_colon
        request'.method.no_colon hpayload
    refine ⟨?_, ?_, RequestMethod.ext_text hmethods, hpaths, hquery, ?_⟩
    · exact htime.trans ((congrArg some htimes).trans htime'.symm)
    · exact hnonce.trans ((congrArg some hnonces).trans hnonce'.symm)
    · exact body_eq_of_hash hideal hcollision (hbody.trans (hhashes.trans hbody'.symm))

namespace SignSample

/-- The one text that was ever signed. -/
def signedText : String :=
  "agent-1:2026-05-28T12:34:56Z:a:null:GET:/v1/approvals/x:null:GET:/v1/approvals"

def crypto : Primitives where
  parseRfc3339 text := if text = "2026-05-28T12:34:56Z" then some (seconds 56) else none
  blake3Hex _ := "00"
  base64Decode text :=
    if text = "key" then some (List.replicate 32 0) else some (List.replicate 64 1)
  verifyingKey _ := true
  verify _ message _ := message == signedText

theorem ideal_crypto : Ideal crypto where
  unforgeable := by
    intro key message message' signature h h'
    rw [eq_of_beq h, eq_of_beq h']
  hex := by
    intro body
    change "00".toList.all isHexDigit = true
    decide
  rfc3339 := by
    intro text timestamp h
    change (if text = "2026-05-28T12:34:56Z" then some (seconds 56) else none) = _ at h
    split_ifs at h with htext
    subst htext
    decide

/-- The agent asks for an approval with an odd id. -/
def asked : HttpRequest where
  agentId := some "agent-1"
  timestamp := some "2026-05-28T12:34:56Z"
  nonce := some "a"
  bodyHash := some "null"
  signature := some "signed"
  method := ⟨"GET", by decide⟩
  path := "/v1/approvals/x:null:GET:/v1/approvals"
  query := none
  body := []

/-- The same signature on a request for all approvals, with another nonce. -/
def moved : HttpRequest :=
  { asked with nonce := some "a:null:GET:/v1/approvals/x", path := "/v1/approvals" }

/-- The same signature with a query. -/
def queried : HttpRequest := { asked with query := some "limit=1000" }

def arrive (request : HttpRequest) : Arrival where
  request := request.agentRequest
  windowTime := seconds 60
  cacheTime := seconds 60
  agents := [⟨"agent-1", "key", ["approval:read"], none⟩]

/-- The request passes where its nonce is new. -/
def passes (request : HttpRequest) : Bool :=
  (verifyAgentRequest crypto {} (arrive request) .empty).1.isOk

end SignSample

/-- The two requests differ, as their nonces have different numbers of separators. -/
theorem moved_request_differs :
    ¬ (SignSample.asked.timestamp = SignSample.moved.timestamp ∧
      SignSample.asked.nonce = SignSample.moved.nonce ∧
      SignSample.asked.method = SignSample.moved.method ∧
      SignSample.asked.path = SignSample.moved.path ∧
      SignSample.asked.query = SignSample.moved.query ∧
      SignSample.asked.body = SignSample.moved.body) := by
  intro h
  have hcovered := (signature_covers_iff SignSample.crypto SignSample.ideal_crypto {} {}
    (SignSample.arrive SignSample.asked) (SignSample.arrive SignSample.moved) .empty .empty
    SignSample.asked SignSample.moved "agent-1" rfl rfl (by decide +kernel) (by decide +kernel) rfl
    rfl rfl rfl (fun _ => rfl)).1 h
  exact absurd hcovered.2 (by decide)

/-- **One signature, three requests**: another path with another nonce, and another query. -/
theorem signature_reused :
    Ideal SignSample.crypto ∧
    SignSample.passes SignSample.asked = true ∧ SignSample.passes SignSample.moved = true ∧
    SignSample.passes SignSample.queried = true ∧
    SignSample.asked.signature = SignSample.moved.signature ∧
    SignSample.asked.path ≠ SignSample.moved.path ∧
    SignSample.asked.nonce ≠ SignSample.moved.nonce ∧
    SignSample.asked.signature = SignSample.queried.signature ∧
    SignSample.asked.query ≠ SignSample.queried.query :=
  ⟨SignSample.ideal_crypto, by decide +kernel⟩

end FerrumGate
