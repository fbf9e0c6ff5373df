import FerrumGate.Adapters.Cycle
import FerrumGate.Proto.Numbers
import FerrumGate.Serde.Text

/-!
# The HTTP adapter

`ferrum-adapter-http/src/lib.rs`: `execute` sends the request that the target and the payload
describe; `compensate` and `rollback` send the request of the compensation plan. The plan is
compared with the request digest of the target, in `execute` as well, but the request `execute`
sends is compared with nothing.

* `execute_sends`, `recover_sends`: the one request each phase sends when it succeeds.
* **`replayed_request_iff`**: the two requests are the same exactly if the plan has the method of
  the target and a payload with the same body as the one that was executed.
* **`request_digest_binds`**: the digest binds the method and the bytes of URL and body together, and
  not where the URL ends (`digest_of_shifted_url`). A replay has the URL of its target, so there it
  binds the whole request (`replay_of_target`).
* `replays_another_request`: a successful `execute` of one order, and the `compensate` that then
  places another.

The state of the model is the list of requests sent. A body is kept as its bytes; building them
from a JSON value does not fail.
-/

namespace FerrumGate

/-! ## JSON texts -/

mutual

/-- `serde_json::to_string`. -/
def Json.write : Json → List Char
  | .null => "null".toList
  | .bool b => (toString b).toList
  | .num n => Serde.writeInteger n
  | .str s => Serde.quote :: Serde.writeString s.toList
  | .arr .nil => "[]".toList
  | .arr (.cons head tail) => '[' :: (head.write ++ tail.write)
  | .obj .nil => "\x7b\x7d".toList
  | .obj (.cons key value tail) =>
    '{' :: Serde.quote :: (Serde.writeString key.toList ++ ':' :: (value.write ++ tail.write))

/-- The items after the first one, and the end of the array. -/
def JsonItems.write : JsonItems → List Char
  | .nil => [']']
  | .cons head tail => ',' :: (head.write ++ tail.write)

/-- The fields after the first one, and the end of the object. -/
def JsonFields.write : JsonFields → List Char
  | .nil => ['}']
  | .cons key value tail =>
    ',' :: Serde.quote :: (Serde.writeString key.toList ++ ':' :: (value.write ++ tail.write))

end

def Json.text (json : Json) : String := String.ofList json.write

def AdapterError.display : AdapterError → String
  | .unsupported message => "unsupported action: " ++ message
  | .validation message => "validation failed: " ++ message
  | .internal message => "internal: " ++ message

namespace Http

abbrev Bytes := List UInt8

def utf8 (text : String) : Bytes := text.toUTF8.data.toList

/-- A request as it leaves the adapter. -/
structure HttpRequest where
  method : HttpMethod
  url : String
  body : Option Bytes
  idempotencyKey : Option String
  deriving DecidableEq

/-- What the adapter is made with. -/
structure HttpAdapter where
  /-- `validate_url`: the shape of a URL and the egress policy. -/
  validateUrl : String → Except AdapterError Unit
  /-- The SHA-256 of some bytes, in hexadecimal. -/
  sha256 : Bytes → String

/-- What the other side does with a request: a status and a body, or the text of the failure. -/
abbrev Server := HttpRequest → Except String (Nat × Bytes)

/-! ## Requests -/

def extractHttpTarget : RollbackTarget → Except AdapterError (HttpMethod × String)
  | .httpRequest method url _ => .ok (method, url)
  | _ => .error (.validation "invalid target: expected HttpRequest")

def targetRequestDigest : RollbackTarget → String
  | .httpRequest _ _ requestDigest => requestDigest
  | _ => ""

/-- The bytes of a value that is the body itself. -/
def bodyBytes : Json → Option Bytes
  | .str s => some (utf8 s)
  | .num n => some (utf8 (toString n))
  | .bool b => some (utf8 (toString b))
  | .null => none
  | json => some (utf8 json.text)

/-- `extract_body_bytes`: an object with a field `body` stands for that field. -/
def extractBodyBytes (payload : Json) : Option Bytes :=
  match payload with
  | .obj fields =>
    match fields.get "body" with
    | some body => bodyBytes body
    | none => bodyBytes payload
  | _ => bodyBytes payload

def computeRequestDigest (adapter : HttpAdapter) (method : HttpMethod) (url : String)
    (body : Option Bytes) : String :=
  adapter.sha256 (utf8 method.debug ++ utf8 url ++ body.getD [])

/-- The digest of a response, over the first 64 KiB of its body. -/
def responseDigest (adapter : HttpAdapter) (status : Nat) (body : Bytes) : String :=
  adapter.sha256 (utf8 (toString status) ++ body.take 65536)

def executeHttpRequest (adapter : HttpAdapter) (server : Server) (phase : String)
    (request : HttpRequest) (sent : List HttpRequest) :
    Except AdapterError (Nat × Bytes) × List HttpRequest :=
  match adapter.validateUrl request.url with
  | .error e => (.error e, sent)
  | .ok () =>
    match server request with
    | .error message => (.error (phaseWrapInternal phase message), sent ++ [request])
    | .ok response => (.ok response, sent ++ [request])

/-! ## The replay contract -/

def replayOperation : String := "http.replay_v1"

def replayValidKeys : List String := ["method", "url", "payload", "expected_statuses"]

structure ReplayContract where
  idempotencyKey : String
  method : HttpMethod
  url : String
  payload : Json
  expectedStatuses : List Nat

/-- An error of the replay, `HttpAdapterError::ReplayValidation`. -/
def replayError (phase message : String) : AdapterError :=
  .validation ("[" ++ phase ++ "] http.replay_v1 " ++ message)

/-- Fail unless the condition holds. -/
def require (condition : Bool) (e : AdapterError) : Except AdapterError Unit :=
  if condition then .ok () else .error e

/-- `ok_or_else`. -/
def okOr {α : Type} (e : AdapterError) : Option α → Except AdapterError α
  | some a => .ok a
  | none => .error e

def validateIdempotencyKey (key : String) : Except AdapterError Unit := do
  require (!key.isEmpty) (.validation "idempotency_key must be non-empty")
  require (key.toList.all fun c => 0x21 ≤ c.toNat && c.toNat ≤ 0x7e)
    (.validation "idempotency_key contains non-header-safe character")

def replayMethod : String → Option HttpMethod
  | "POST" | "post" | "Post" => some .post
  | "PUT" | "put" | "Put" => some .put
  | "PATCH" | "patch" | "Patch" => some .patch
  | _ => none

def isValidHttpStatus (status : Nat) : Bool := 100 ≤ status && status ≤ 599

/-- How a parser looks at a JSON value, whatever its numbers are. -/
structure JsonView (J : Type) where
  /-- Of a number, its `as_u64`. -/
  number : J → Option (Option Nat)
  asStr : J → Option String
  asArray : J → Option (List J)
  text : J → String

def jsonView : JsonView Json where
  number
    | .num n => some (Json.asU64 (.num n))
    | _ => none
  asStr := Json.asStr
  asArray := Json.asArray
  text := Json.text

section Statuses

variable {J : Type} (view : JsonView J)

/-- The status an element stands for; a number is cut to 16 bits. -/
def elementStatus (item : J) : Option Nat :=
  match view.number item with
  | some n => some (n.getD 0 % 65536)
  | none => (view.asStr item).bind fun s => (fromStrRadix 10 16 s).toOption

/-- The elements of `expected_statuses` from the `i`-th on. -/
def parseElements (phase : String) : Nat → List J → Except AdapterError (List Nat)
  | _, [] => .ok []
  | i, item :: rest => do
    let element := "expected_statuses element " ++ toString i
    let status ← okOr (replayError phase (element ++ " must be a number, got " ++
      (view.asStr item).elim (view.text item) fun s => "'" ++ s ++ "'")) (elementStatus view item)
    require (isValidHttpStatus status) (replayError phase
      (element ++ " is out of valid HTTP range (100..=599), got " ++ toString status))
    let statuses ← parseElements phase (i + 1) rest
    return status :: statuses

def parseExpectedStatusesArray (phase : String) (value : J) : Except AdapterError (List Nat) := do
  let items ← okOr (replayError phase
    ("expected_statuses must be an array, got " ++ view.text value)) (view.asArray value)
  require (!items.isEmpty) (replayError phase "expected_statuses cannot be empty")
  parseElements view phase 0 items

end Statuses

/-- A required argument of the step that is a text. -/
def textArg (phase : String) (args : JsonMap) (key : String) : Except AdapterError String := do
  let value ← okOr (replayError phase ("args missing required '" ++ key ++ "' field"))
    (args.lookup key)
  okOr (replayError phase ("args '" ++ key ++ "' must be a string")) value.asStr

/-- The payload the plan replays. -/
def replayPayload (args : JsonMap) : Json := (args.lookup "payload").getD .null

/-- The arguments of the one step of the plan. -/
def parseStep (phase : String) (target : RollbackTarget) (step : CompensationStep) :
    Except AdapterError ReplayContract := do
  require (step.operation == replayOperation) (replayError phase
    ("requires operation '" ++ replayOperation ++ "', got '" ++ step.operation ++ "'"))
  validateIdempotencyKey step.idempotencyKey
  let unknown := step.args.find? fun arg => !replayValidKeys.contains arg.1
  require unknown.isNone (replayError phase ("args contains unknown key '" ++
    (unknown.map Prod.fst).getD "" ++
      "'; allowed: [\"method\", \"url\", \"payload\", \"expected_statuses\"]"))
  let methodText ← textArg phase step.args "method"
  let method ← okOr (replayError phase ("requires method POST/PUT/PATCH, got '" ++ methodText ++
    "'")) (replayMethod methodText)
  let (_, targetUrl) ← okOr (replayError phase "requires target to be HttpRequest")
    (extractHttpTarget target).toOption
  let url ← textArg phase step.args "url"
  require (url == targetUrl) (replayError phase ("args url must equal target.url '" ++ targetUrl ++
    "', got '" ++ url ++ "'"))
  let statuses ← okOr (replayError phase "args missing required 'expected_statuses' field")
    (step.args.lookup "expected_statuses")
  let expectedStatuses ← parseExpectedStatusesArray jsonView phase statuses
  return ⟨step.idempotencyKey, method, url, replayPayload step.args, expectedStatuses⟩

def parseReplayContract (contract : RollbackContract) (phase : String) :
    Except AdapterError ReplayContract :=
  match contract.compensationPlan with
  | [step] => parseStep phase contract.target step
  | plan => .error (replayError phase
      ("requires exactly 1 compensation step, got " ++ toString plan.length))

/-- The plan is that of the request in the target. -/
def checkDigest (adapter : HttpAdapter) (phase : String) (contract : RollbackContract)
    (replay : ReplayContract) : Except AdapterError Unit :=
  let computed := computeRequestDigest adapter replay.method replay.url
    (extractBodyBytes replay.payload)
  require (computed == targetRequestDigest contract.target) (replayError phase
    ("digest mismatch: computed '" ++ computed ++ "' != target.request_digest '" ++
      targetRequestDigest contract.target ++ "'"))

/-! ## The phases -/

/-- What both phases check first: the target, the action and the URL. -/
def checkTarget (adapter : HttpAdapter) (phase : String) (contract : RollbackContract) :
    Except AdapterError (HttpMethod × String) := do
  let (method, url) ← extractHttpTarget contract.target
  require (contract.actionType == .httpMutation)
    (.unsupported ("[" ++ phase ++ "] unsupported action type: " ++ contract.actionType.debug))
  adapter.validateUrl url
  return (method, url)

/-- The request of `execute`: that of the target and the payload, with the key of the plan if the
plan is a replay contract. -/
def executeRequest (adapter : HttpAdapter) (contract : RollbackContract) (payload : Json) :
    Except AdapterError HttpRequest := do
  let (method, url) ← checkTarget adapter "execute" contract
  let replay := (parseReplayContract contract "execute").toOption
  replay.elim (pure ()) (checkDigest adapter "execute" contract)
  return ⟨method, url, extractBodyBytes payload, replay.map (·.idempotencyKey)⟩

def executeReceipt (adapter : HttpAdapter) (request : HttpRequest) (status : Nat)
    (body : Bytes) : ExecuteReceipt :=
  ⟨some ("http-" ++ toString status),
   [("adapter_kind", .str "http"),
    ("target_method", .str request.method.debug),
    ("target_url", .str request.url),
    ("request_digest",
      .str (computeRequestDigest adapter request.method request.url request.body)),
    ("response_status", .num status),
    ("response_body_size", .num body.length),
    ("response_digest", .str (responseDigest adapter status body)),
    ("response_body_truncated", .bool (65536 < body.length))]⟩

def execute (adapter : HttpAdapter) (server : Server) (contract : RollbackContract)
    (payload : Json) (sent : List HttpRequest) :
    Except AdapterError ExecuteReceipt × List HttpRequest :=
  match executeRequest adapter contract payload with
  | .error e => (.error e, sent)
  | .ok request =>
    match executeHttpRequest adapter server "execute" request sent with
    | (.error e, sent) => (.error e, sent)
    | (.ok (status, body), sent) => (.ok (executeReceipt adapter request status body), sent)

def buildUnsupportedReasonCodes (contract : RollbackContract) : List String :=
  ["RECOVERY_SLICE_NARROW_HTTP_REPLAY_V1",
   if contract.compensationPlan.isEmpty then "NO_COMPENSATION_PLAN"
   else if contract.compensationPlan.all (·.idempotencyKey.isEmpty) then
     "NO_IDEMPOTENCY_KEY_IN_COMPENSATION"
   else "COMPENSATION_PLAN_UNSUPPORTED_FOR_HTTP",
   "NO_OUTBOUND_RECOVERY_PATH", "NO_PERSISTED_EXECUTE_EVIDENCE"]

/-- The replay of a recovery phase, with its digest checked. The methods a plan can have are those
that the phase checks once more. -/
def recoveryReplay (adapter : HttpAdapter) (phase : String) (contract : RollbackContract) :
    Except AdapterError ReplayContract := do
  let _ ← checkTarget adapter phase contract
  match parseReplayContract contract phase with
  | .error e => throw (.unsupported ("[" ++ phase ++
      "] http.replay_v1 contract validation failed: " ++ e.display ++ ". Reason codes: [" ++
      ", ".intercalate (buildUnsupportedReasonCodes contract) ++ "]"))
  | .ok replay =>
    checkDigest adapter phase contract replay
    return replay

/-- The request of a replay. -/
def ReplayContract.request (replay : ReplayContract) : HttpRequest :=
  ⟨replay.method, replay.url, extractBodyBytes replay.payload, some replay.idempotencyKey⟩

def recoveryReceipt (adapter : HttpAdapter) (replay : ReplayContract) (status : Nat)
    (body : Bytes) : RecoveryReceipt :=
  ⟨true,
   [("adapter_kind", .str "http"),
    ("replay_operation", .str replayOperation),
    ("idempotency_key", .str replay.idempotencyKey),
    ("response_status", .num status),
    ("response_body_size", .num body.length),
    ("replay_target_url", .str replay.url),
    ("replay_method", .str replay.method.debug),
    ("replay_request_digest", .str (computeRequestDigest adapter replay.method replay.url
      (extractBodyBytes replay.payload))),
    ("replay_response_digest", .str (responseDigest adapter status body)),
    ("replay_response_body_truncated", .bool (65536 < body.length)),
    ("expected_statuses_checked",
      .ofList (replay.expectedStatuses.map fun status => .num status))]⟩

/-- `compensate` and `rollback`. -/
def recover (phase : String) (adapter : HttpAdapter) (server : Server)
    (contract : RollbackContract) (sent : List HttpRequest) :
    Except AdapterError RecoveryReceipt × List HttpRequest :=
  match recoveryReplay adapter phase contract with
  | .error e => (.error e, sent)
  | .ok replay =>
    match executeHttpRequest adapter server phase replay.request sent with
    | (.error e, sent) => (.error e, sent)
    | (.ok (status, body), sent) =>
      if replay.expectedStatuses.contains status then
        (.ok (recoveryReceipt adapter replay status body), sent)
      else (.error (replayError phase ("status mismatch: expected " ++
        toString replay.expectedStatuses ++ ", got " ++ toString status)), sent)

def compensate := recover "compensate"

def rollback := recover "rollback"

/-! ## The phase is only in the errors -/

@[simp]
theorem toOption_bind {α β : Type} (x : Except AdapterError α)
    (f : α → Except AdapterError β) :
    (x >>= f).toOption = x.toOption.bind fun a => (f a).toOption := by
  cases x <;> rfl

@[simp]
theorem toOption_pure {α : Type} (a : α) :
    (pure a : Except AdapterError α).toOption = some a := rfl

@[simp]
theorem toOption_require (condition : Bool) (e : AdapterError) :
    (require condition e).toOption = if condition then some () else none := by
  unfold require
  split <;> rfl

@[simp]
theorem toOption_okOr {α : Type} (e : AdapterError) (o : Option α) :
    (okOr e o).toOption = o := by
  cases o <;> rfl

theorem toOption_eq_some {α : Type} {x : Except AdapterError α} {a : α} :
    x.toOption = some a ↔ x = .ok a := by
  cases x <;> simp [Except.toOption]

theorem parseElements_phase {J : Type} (view : JsonView J) (phase phase' : String) (i : Nat)
    (items : List J) :
    (parseElements view phase i items).toOption = (parseElements view phase' i items).toOption := by
  induction items generalizing i with
  | nil => rfl
  | cons item rest ih =>
    unfold parseElements
    simp only [toOption_bind, toOption_okOr, toOption_require, ih]

theorem parseStep_phase (phase phase' : String) {target target' : RollbackTarget}
    (step : CompensationStep) (h : extractHttpTarget target = extractHttpTarget target') :
    (parseStep phase target step).toOption = (parseStep phase' target' step).toOption := by
  unfold parseStep textArg parseExpectedStatusesArray
  simp only [toOption_bind, toOption_okOr, toOption_require, h,
    parseElements_phase jsonView phase phase']

/-- What the plan is read as depends on the plan, the method and the URL. -/
theorem parseReplayContract_congr {contract later : RollbackContract} (phase phase' : String)
    (hplan : later.compensationPlan = contract.compensationPlan)
    (htarget : extractHttpTarget later.target = extractHttpTarget contract.target) :
    (parseReplayContract later phase).toOption =
      (parseReplayContract contract phase').toOption := by
  unfold parseReplayContract
  rw [hplan]
  split
  · exact parseStep_phase phase phase' _ htarget
  · rfl

/-! ## What is sent -/

/-- The method the plan replays. -/
def planMethod (step : CompensationStep) : Option HttpMethod :=
  ((step.args.lookup "method").bind Json.asStr).bind replayMethod

/-- The plan replays the method of the target and the body of the payload. -/
def planMatches (contract : RollbackContract) (payload : Json) : Bool :=
  match contract.compensationPlan, extractHttpTarget contract.target with
  | [step], .ok (method, _) => planMethod step = some method &&
      extractBodyBytes (replayPayload step.args) = extractBodyBytes payload
  | _, _ => false

theorem planMatches_iff {contract : RollbackContract} {payload : Json} {step : CompensationStep}
    {target : HttpMethod × String} (hstep : contract.compensationPlan = [step])
    (htarget : extractHttpTarget contract.target = .ok target) :
    planMatches contract payload = true ↔ planMethod step = some target.1 ∧
      extractBodyBytes (replayPayload step.args) = extractBodyBytes payload := by
  simp [planMatches, hstep, htarget]

section Sent

variable {adapter : HttpAdapter} {server server' : Server} {contract later : RollbackContract}
  {payload : Json} {phase : String} {request : HttpRequest} {replay : ReplayContract}
  {sent sent' after after' : List HttpRequest} {receipt : ExecuteReceipt}
  {recovery : RecoveryReceipt}

theorem executeHttpRequest_sends {response : Nat × Bytes}
    (h : executeHttpRequest adapter server phase request sent = (.ok response, after)) :
    after = sent ++ [request] := by
  unfold executeHttpRequest at h
  split at h
  · simp at h
  · split at h
    · simp at h
    · exact (Prod.mk.inj h).2.symm

/-- A successful `execute` has sent one request. -/
theorem execute_sends (h : execute adapter server contract payload sent = (.ok receipt, after)) :
    ∃ request, executeRequest adapter contract payload = .ok request ∧
      after = sent ++ [request] := by
  unfold execute at h
  split at h
  · simp at h
  · next request hrequest =>
    split at h
    · simp at h
    · next hsend =>
      rw [← (Prod.mk.inj h).2]
      exact ⟨request, hrequest, executeHttpRequest_sends hsend⟩

/-- A successful recovery has sent one request, that of the plan. -/
theorem recover_sends (h : recover phase adapter server contract sent = (.ok recovery, after)) :
    ∃ replay, recoveryReplay adapter phase contract = .ok replay ∧
      after = sent ++ [replay.request] := by
  unfold recover at h
  split at h
  · simp at h
  · next replay hreplay =>
    split at h
    · simp at h
    · next hsend =>
      split at h
      · rw [← (Prod.mk.inj h).2]
        exact ⟨replay, hreplay, executeHttpRequest_sends hsend⟩
      · simp at h

theorem checkTarget_ok {target : HttpMethod × String}
    (h : checkTarget adapter phase contract = .ok target) :
    extractHttpTarget contract.target = .ok target := by
  rw [← toOption_eq_some] at h ⊢
  simp only [checkTarget, toOption_bind, Option.bind_eq_some_iff, toOption_pure] at h
  obtain ⟨found, hfound, _, _, _, _, heq⟩ := h
  rw [hfound, heq]

/-- The request of `execute` is that of the target and the payload; of the plan it has the key. -/
theorem executeRequest_ok (h : executeRequest adapter contract payload = .ok request) :
    extractHttpTarget contract.target = .ok (request.method, request.url) ∧
      request.body = extractBodyBytes payload ∧
      request.idempotencyKey =
        (parseReplayContract contract "execute").toOption.map (·.idempotencyKey) := by
  rw [← toOption_eq_some] at h
  simp only [executeRequest, toOption_bind, Option.bind_eq_some_iff, toOption_pure] at h
  obtain ⟨target, htarget, _, _, heq⟩ := h
  cases Option.some.inj heq
  exact ⟨checkTarget_ok (toOption_eq_some.mp htarget), rfl, rfl⟩

theorem recoveryReplay_ok (h : recoveryReplay adapter phase contract = .ok replay) :
    parseReplayContract contract phase = .ok replay := by
  rw [← toOption_eq_some] at h
  simp only [recoveryReplay, toOption_bind, Option.bind_eq_some_iff] at h
  obtain ⟨_, _, h⟩ := h
  split at h
  · simp [Except.toOption] at h
  · next found hfound =>
    simp only [toOption_bind, Option.bind_eq_some_iff, toOption_pure] at h
    obtain ⟨_, _, heq⟩ := h
    rw [hfound, Option.some.inj heq]

theorem parseStep_ok {target : RollbackTarget} {step : CompensationStep}
    (h : parseStep phase target step = .ok replay) :
    replay.idempotencyKey = step.idempotencyKey ∧ replay.payload = replayPayload step.args ∧
      planMethod step = some replay.method ∧
      ∃ method, extractHttpTarget target = .ok (method, replay.url) := by
  rw [← toOption_eq_some] at h
  simp only [parseStep, textArg, toOption_bind, toOption_okOr, toOption_require,
    Option.bind_eq_some_iff, toOption_pure] at h
  obtain ⟨_, _, _, _, _, _, text, ⟨value, hvalue, htext⟩, method, hmethod, found, hfound, url, _,
    _, hurl, _, _, _, _, heq⟩ := h
  cases Option.some.inj heq
  have hurl : url = found.2 := by
    by_cases h : url = found.2
    · exact h
    · simp [h] at hurl
  refine ⟨rfl, rfl, ?_, found.1, ?_⟩
  · rw [planMethod, hvalue, Option.bind_some, htext, Option.bind_some, hmethod]
  · rw [toOption_eq_some.mp hfound, hurl]

/-- A replay contract that was read has the plan's one step, and its URL is that of the target. -/
theorem parseReplayContract_ok (h : parseReplayContract contract phase = .ok replay) :
    ∃ step, contract.compensationPlan = [step] ∧ replay.payload = replayPayload step.args ∧
      planMethod step = some replay.method ∧
      ∃ method, extractHttpTarget contract.target = .ok (method, replay.url) := by
  unfold parseReplayContract at h
  split at h
  · next step hplan => exact ⟨step, hplan, (parseStep_ok h).2⟩
  · cases h

/-- **The adapter replays what it executed exactly if the plan was made from it.** After a
successful `execute`, the `compensate` of a contract with the same plan, method and URL (the
request digest may have been replaced, as the gateway does) that reports a recovery sends one
request; it has the method, the URL, the body and the key of the executed one if and only if the
plan has the target's method and a payload with the executed body. -/
theorem replayed_request_iff
    (hplan : later.compensationPlan = contract.compensationPlan)
    (htarget : extractHttpTarget later.target = extractHttpTarget contract.target)
    (hexecute : execute adapter server contract payload sent = (.ok receipt, after))
    (hcompensate : compensate adapter server' later sent' = (.ok recovery, after'))
    (_ : recovery.recovered = true) :
    ∃ request replayed, after = sent ++ [request] ∧ after' = sent' ++ [replayed] ∧
      (replayed = request ↔ planMatches contract payload = true) := by
  obtain ⟨request, hrequest, hafter⟩ := execute_sends hexecute
  obtain ⟨replay, hreplay, hafter'⟩ := recover_sends hcompensate
  have hparsed := recoveryReplay_ok hreplay
  obtain ⟨hendpoint, hbody, hkey⟩ := executeRequest_ok hrequest
  -- The plan read as a replay contract in one phase is read as the same one in the other.
  have hsame : (parseReplayContract contract "execute").toOption = some replay := by
    rw [← parseReplayContract_congr "compensate" "execute" hplan htarget]
    exact toOption_eq_some.mpr hparsed
  rw [hsame, Option.map_some] at hkey
  obtain ⟨step, hstep, hpayload, hmethod, method, hurl⟩ :=
    parseReplayContract_ok (toOption_eq_some.mp hsame)
  have hurl : request.url = replay.url := by
    rw [hendpoint] at hurl
    exact (Prod.mk.inj (Except.ok.inj hurl)).2
  refine ⟨request, replay.request, hafter, hafter', ?_⟩
  rw [planMatches_iff hstep hendpoint, hmethod, ← hpayload, ← hbody]
  constructor
  · intro heq
    rw [← heq]
    exact ⟨rfl, rfl⟩
  · rintro ⟨hmethod, hbody⟩
    obtain ⟨_, _, _, _⟩ := request
    simp only [ReplayContract.request, HttpRequest.mk.injEq]
    exact ⟨Option.some.inj hmethod, hurl.symm, hbody, hkey.symm⟩

end Sent

/-! ## What the digest binds -/

/-- What is hashed for a request. -/
def requestInput (method : HttpMethod) (url : String) (body : Option Bytes) : Bytes :=
  utf8 method.debug ++ utf8 url ++ body.getD []

theorem utf8_injective : Function.Injective utf8 := fun _ _ h =>
  String.toByteArray_inj.mp (ByteArray.ext (Array.toList_inj.mp h))

/-- The first two bytes of its name are enough to tell a method. -/
def methodMark (method : HttpMethod) : Bytes := (utf8 method.debug).take 2

theorem methodMark_injective : Function.Injective methodMark := by
  intro method method' h
  cases method <;> cases method' <;> first | rfl | exact absurd h (by decide)

theorem take_two_debug (method : HttpMethod) (rest : Bytes) :
    (utf8 method.debug ++ rest).take 2 = methodMark method :=
  List.take_append_of_le_length (by cases method <;> decide)

/-- No method's name is the beginning of another one's; between URL and body there is no mark. -/
theorem requestInput_eq_iff {method method' : HttpMethod} {url url' : String}
    {body body' : Option Bytes} :
    requestInput method url body = requestInput method' url' body' ↔
      method = method' ∧ utf8 url ++ body.getD [] = utf8 url' ++ body'.getD [] := by
  unfold requestInput
  rw [List.append_assoc, List.append_assoc]
  constructor
  · intro h
    have hmark := congrArg (List.take 2) h
    rw [take_two_debug, take_two_debug] at hmark
    obtain rfl := methodMark_injective hmark
    exact ⟨rfl, List.append_cancel_left h⟩
  · rintro ⟨rfl, h⟩
    rw [h]

/-- URLs of one length end at the same byte. -/
theorem url_body_eq_iff {url url' : String} {body body' : Bytes}
    (h : utf8 url ++ body = utf8 url' ++ body') :
    url = url' ∧ body = body' ↔ (utf8 url).length = (utf8 url').length := by
  constructor
  · rintro ⟨rfl, -⟩
    rfl
  · intro hlength
    obtain ⟨hurl, hbody⟩ := List.append_inj h hlength
    exact ⟨utf8_injective hurl, hbody⟩

section Digest

variable {adapter : HttpAdapter} {method method' : HttpMethod} {url url' : String}
  {body body' : Option Bytes}

/-- **What the digest binds.** Unless the two requests are a collision, equal digests are equal
methods and equal bytes of URL and body together; the requests are then the same (an absent and an
empty body being one) exactly if their URLs are equally long. -/
theorem request_digest_binds
    (hfree : Set.InjOn adapter.sha256
      {requestInput method url body, requestInput method' url' body'}) :
    (computeRequestDigest adapter method url body =
        computeRequestDigest adapter method' url' body' ↔
      method = method' ∧ utf8 url ++ body.getD [] = utf8 url' ++ body'.getD []) ∧
    (computeRequestDigest adapter method url body =
        computeRequestDigest adapter method' url' body' →
      ((method, url, body.getD []) = (method', url', body'.getD []) ↔
        (utf8 url).length = (utf8 url').length)) := by
  have hdigest : computeRequestDigest adapter method url body =
      computeRequestDigest adapter method' url' body' ↔
      method = method' ∧ utf8 url ++ body.getD [] = utf8 url' ++ body'.getD [] :=
    (hfree.eq_iff (.inl rfl) (.inr rfl)).trans requestInput_eq_iff
  refine ⟨hdigest, fun heq => ?_⟩
  obtain ⟨hmethod, hbytes⟩ := hdigest.mp heq
  rw [Prod.mk.injEq, Prod.mk.injEq, url_body_eq_iff hbytes]
  exact and_iff_right hmethod

/-- The plan that is replayed has the digest of the target. -/
theorem recoveryReplay_digest {phase : String} {contract : RollbackContract}
    {replay : ReplayContract} (h : recoveryReplay adapter phase contract = .ok replay) :
    computeRequestDigest adapter replay.method replay.url (extractBodyBytes replay.payload) =
      targetRequestDigest contract.target := by
  rw [← toOption_eq_some] at h
  simp only [recoveryReplay, toOption_bind, Option.bind_eq_some_iff] at h
  obtain ⟨_, _, h⟩ := h
  split at h
  · simp [Except.toOption] at h
  · next found hfound =>
    simp only [toOption_bind, Option.bind_eq_some_iff, toOption_pure, checkDigest,
      toOption_require] at h
    obtain ⟨_, hcheck, heq⟩ := h
    cases Option.some.inj heq
    by_contra hne
    simp [beq_eq_false_iff_ne.mpr hne] at hcheck

/-- **A recovery sends the request of its target**, once. The plan's URL is compared with the one of
the target before the digests are, so that the digest binds method and body, unless the two requests
are a collision. -/
theorem replay_of_target {phase : String} {server : Server} {contract : RollbackContract}
    {sent after : List HttpRequest} {recovery : RecoveryReceipt}
    (htarget : contract.target =
      .httpRequest method url (computeRequestDigest adapter method url body))
    (h : recover phase adapter server contract sent = (.ok recovery, after)) :
    ∃ request, after = sent ++ [request] ∧ request.url = url ∧
      (Set.InjOn adapter.sha256
        {requestInput request.method request.url request.body, requestInput method url body} →
        request.method = method ∧ request.body.getD [] = body.getD []) := by
  obtain ⟨replay, hreplay, rfl⟩ := recover_sends h
  obtain ⟨_, _, _, _, _, hurl⟩ := parseReplayContract_ok (recoveryReplay_ok hreplay)
  have hdigest := recoveryReplay_digest hreplay
  rw [htarget] at hurl hdigest
  have hurl : replay.url = url := (Prod.mk.inj (Except.ok.inj hurl)).2.symm
  refine ⟨replay.request, rfl, hurl, fun hfree => ?_⟩
  obtain ⟨hmethod, hbytes⟩ := requestInput_eq_iff.mp (hfree (.inl rfl) (.inr rfl) hdigest)
  exact ⟨hmethod, ((url_body_eq_iff hbytes).mpr (congrArg (fun u => (utf8 u).length) hurl)).2⟩

end Digest

/-! ## An order -/

namespace Orders

def adapter : HttpAdapter where
  validateUrl _ := .ok ()
  sha256 bytes := String.ofList (bytes.map fun b => Char.ofNat b.toNat)

theorem toNat_ofNat_byte (b : UInt8) : (Char.ofNat b.toNat).toNat = b.toNat := by
  have hvalid : b.toNat.isValidChar := .inl (b.toNat_lt.trans (by decide))
  rw [Char.ofNat, dif_pos hvalid]
  rfl

theorem sha256_injective : Function.Injective adapter.sha256 := by
  have hbyte : Function.Injective fun b : UInt8 => Char.ofNat b.toNat := by
    intro b b' (h : Char.ofNat b.toNat = Char.ofNat b'.toNat)
    rw [← UInt8.toNat_inj, ← toNat_ofNat_byte, h, toNat_ofNat_byte]
  exact fun _ _ h => List.map_injective_iff.mpr hbyte (String.ofList_injective h)

def accepts : Server := fun _ => .ok (200, [])

def url : String := "https://shop.local/orders"

def order (quantity : Nat) : Json := JsonMap.toJson [("quantity", .num quantity)]

/-- A contract whose plan, and the digest of whose target, is that of the payload. -/
def contract (planned : Json) : RollbackContract where
  contractId := ⟨1⟩
  intentId := ⟨2⟩
  proposalId := ⟨3⟩
  executionId := ⟨4⟩
  actionType := .httpMutation
  rollbackClass := .r3IrreversibleHighConsequence
  adapterKey := "http"
  target := .httpRequest .post url
    (computeRequestDigest adapter .post url (extractBodyBytes planned))
  prepareChecks := []
  verifyChecks := []
  compensationPlan := [⟨1, "http", "http.replay_v1",
    [("method", .str "POST"), ("url", .str url), ("payload", planned),
      ("expected_statuses", .ofList [.num 200])], "order-1"⟩]
  autoCommit := false
  state := .prepared
  createdAt := 0
  expiresAt := none
  metadata := []

def request (payload : Json) : HttpRequest :=
  ⟨.post, url, extractBodyBytes payload, some "order-1"⟩

end Orders

open Orders in
theorem replayed_request_of_order :
    ∃ first replayed, [request (order 1)] = [] ++ [first] ∧
      [request (order 1)] = [] ++ [replayed] ∧
      (replayed = first ↔ planMatches (contract (order 1)) (order 1) = true) :=
  replayed_request_iff (Eq.refl (contract (order 1)).compensationPlan)
    (Eq.refl (extractHttpTarget (contract (order 1)).target))
    (show execute adapter accepts (contract (order 1)) (order 1) [] =
      (.ok (executeReceipt adapter (request (order 1)) 200 []), _) from rfl)
    (show compensate adapter accepts (contract (order 1)) [] =
      (.ok (recoveryReceipt adapter ⟨"order-1", .post, url, order 1, [200]⟩ 200
        []), _) from rfl) rfl

open Orders in
theorem replay_of_order :
    ∃ sent, [request (order 1)] = [] ++ [sent] ∧ sent.url = url ∧ sent.method = .post ∧
      sent.body.getD [] = (extractBodyBytes (order 1)).getD [] := by
  obtain ⟨sent, hsent, hurl, hrest⟩ := replay_of_target (Eq.refl (contract (order 1)).target)
    (show compensate adapter accepts (contract (order 1)) [] =
      (.ok (recoveryReceipt adapter ⟨"order-1", .post, url, order 1, [200]⟩ 200 []), _) from rfl)
  exact ⟨sent, hsent, hurl, hrest sha256_injective.injOn⟩

open Orders in
/-- One order is placed, and the compensation, which is said to have recovered it, places
another. -/
theorem replays_another_request :
    (execute adapter accepts (contract (order 2)) (order 1) []).1.isOk = true ∧
      (execute adapter accepts (contract (order 2)) (order 1) []).2 = [request (order 1)] ∧
      (compensate adapter accepts (contract (order 2)) []).1.toOption.map (·.recovered) =
        some true ∧
      (compensate adapter accepts (contract (order 2)) []).2 = [request (order 2)] ∧
      request (order 2) ≠ request (order 1) := by
  refine ⟨rfl, rfl, rfl, rfl, ?_⟩
  decide

open Orders in
/-- Two requests that differ in their URLs only. -/
theorem request_digest_of_order :
    Set.InjOn adapter.sha256
      {requestInput .post "/a" (some [1]), requestInput .post "/b" (some [1])} ∧
    computeRequestDigest adapter .post "/a" (some [1]) ≠
      computeRequestDigest adapter .post "/b" (some [1]) := by
  have hfree : Set.InjOn adapter.sha256
      {requestInput .post "/a" (some [1]), requestInput .post "/b" (some [1])} :=
    sha256_injective.injOn
  refine ⟨hfree, fun h => ?_⟩
  exact absurd ((request_digest_binds hfree).1.mp h).2 (by decide)

open Orders in
/-- The end of a URL moved to the front of the body; the hash has no collisions. -/
theorem digest_of_shifted_url :
    Function.Injective adapter.sha256 ∧
    computeRequestDigest adapter .post "https://shop.local/orders" (some (utf8 "/1")) =
      computeRequestDigest adapter .post "https://shop.local/orders/1" none ∧
    (HttpMethod.post, "https://shop.local/orders", (some (utf8 "/1")).getD []) ≠
      (HttpMethod.post, "https://shop.local/orders/1", (none : Option Bytes).getD []) := by
  refine ⟨sha256_injective, congrArg adapter.sha256 ?_, by decide⟩
  decide

end Http

end FerrumGate
