import FerrumGate.Civil.Calendar
import FerrumGate.Gateway.Credentials
import FerrumGate.Interleave.Solo
import FerrumGate.Paging.Keyset

/-!
# Listing tokens and agents

`list` of `ferrum-store/src/sqlite/{tokens,agents}.rs` and the handlers `list_tokens` and
`list_agents` of `ferrum-gateway/src/admin`. Times are stored as texts; here a time is a number of
nanoseconds from the start of year 0, and its text is that of `Civil.rfc3339`.

* `_cursor` is not looked at, so every page is the first one.
* A token is active if it is not revoked and the text of its expiry is greater than
  `datetime('now')`. The two texts have a `T` and a blank behind the date, so a token that expired
  earlier on the same day counts as active.
* A year of more than four digits is written with a sign and cannot be read back; a listing that
  comes across such a row fails, and so does the lookup of the token.

* **`listings_paged_iff`** : when following the pages visits every row once.
* **`active_iff_accepted_iff`** : when the listing of active tokens agrees with the authentication.
-/

namespace FerrumGate.Admin

open Interleave Paging

/-! ## Rows -/

/-- A row of `scoped_tokens` with the other times it has. -/
structure TokenRow extends ScopedToken where
  createdAt : Timestamp
  lastUsedAt : Option Timestamp
  deriving DecidableEq

/-- A row of `agent_registry` with the time it has besides. -/
structure RegisteredAgent extends AgentRow where
  createdAt : Timestamp

/-- A time read back from its text. -/
def parseTime (column : String) (t : Timestamp) : Except StoreError Timestamp :=
  if Civil.yearOf t ≤ 9999 then .ok t
  else .error (.other ("invalid " ++ column ++ ": input contains invalid characters"))

/-- `row_to_token`. -/
def rowToToken (row : TokenRow) : Except StoreError TokenRow := do
  let expiresAt ← parseTime "expires_at" row.expiresAt
  let createdAt ← parseTime "created_at" row.createdAt
  let lastUsedAt ← row.lastUsedAt.mapM (parseTime "last_used_at")
  let revokedAt ← row.revokedAt.mapM (parseTime "revoked_at")
  return { row with expiresAt, createdAt, lastUsedAt, revokedAt }

/-- `row_to_agent`. -/
def rowToAgent (row : RegisteredAgent) : Except StoreError RegisteredAgent := do
  let createdAt ← parseTime "created_at" row.createdAt
  let revokedAt ← row.revokedAt.mapM (parseTime "revoked_at")
  return { row with createdAt, revokedAt }

/-! ## The statements -/

/-- `ORDER BY created_at DESC` -/
def newestFirst {ρ : Type} (createdAt : ρ → Timestamp) (rows : List ρ) : List ρ :=
  rows.insertionSort fun a b => Civil.rfc3339 (createdAt b) ≤ Civil.rfc3339 (createdAt a)

/-- One row more than the limit is read, to know whether there are more. -/
def fetchPage {ρ : Type} (read : ρ → Except StoreError ρ) (idOf : ρ → String) (limit : Nat)
    (rows : List ρ) : Except StoreError (List ρ × Option String) := do
  let items ← (rows.take (limit + 1)).mapM read
  return cut limit idOf items

/-- `revoked_at IS NULL AND expires_at > datetime('now')` -/
def activeAt (now : Timestamp) (row : TokenRow) : Bool :=
  row.revokedAt.isNone && (Civil.sqlDateTime now).any (· < Civil.rfc3339 row.expiresAt)

/-- The conditions of the query. -/
def tokenSelected (actorId role : Option String) (activeOnly : Bool) (now : Timestamp)
    (row : TokenRow) : Bool :=
  (!activeOnly || activeAt now row) && actorId.all (row.actorId = ·) &&
    role.all (row.role.text = ·)

/-- `list` of the tokens. -/
def tokensList (rows : List TokenRow) (now : Timestamp) (actorId role : Option String)
    (activeOnly : Bool) (limit : Nat) (_cursor : Option String) :
    Except StoreError (List TokenRow × Option String) :=
  fetchPage rowToToken (·.tokenId) limit
    (newestFirst (·.createdAt) (rows.filter (tokenSelected actorId role activeOnly now)))

/-- `revoked_at IS NULL`, if asked for. -/
def agentSelected (activeOnly : Bool) (row : RegisteredAgent) : Bool :=
  !activeOnly || row.revokedAt.isNone

/-- `list` of the agents. -/
def agentsList (rows : List RegisteredAgent) (activeOnly : Bool) (limit : Nat)
    (_cursor : Option String) : Except StoreError (List RegisteredAgent × Option String) :=
  fetchPage rowToAgent (·.agentId) limit
    (newestFirst (·.createdAt) (rows.filter (agentSelected activeOnly)))

/-! ## The handlers -/

structure ListTokensQuery where
  actorId : Option String
  role : Option String
  activeOnly : Option Bool
  limit : Option Nat
  cursor : Option String

structure ListAgentsQuery where
  activeOnly : Option Bool
  limit : Option Nat
  cursor : Option String

/-- `limit.unwrap_or(50).min(200)` -/
def pageLimit (limit : Option Nat) : Nat := min (limit.getD 50) 200

def listingFailed (message : String) : ApiProblem := ⟨.internalServerError, .internal, message⟩

/-- `list_tokens`; the `total` is always zero. -/
def listTokens (rows : List TokenRow) (now : Timestamp) (params : ListTokensQuery) :
    Except ApiProblem (List TokenRow × Option String) :=
  (tokensList rows now params.actorId params.role (params.activeOnly.getD false)
    (pageLimit params.limit) params.cursor).mapError fun _ => listingFailed "failed to list tokens"

structure AgentListResponse where
  items : List RegisteredAgent
  nextCursor : Option String
  total : Nat

/-- `list_agents`. -/
def listAgents (rows : List RegisteredAgent) (params : ListAgentsQuery) :
    Except ApiProblem AgentListResponse := do
  let activeOnly := params.activeOnly.getD false
  let (items, nextCursor) ← (agentsList rows activeOnly (pageLimit params.limit)
    params.cursor).mapError fun _ => listingFailed "failed to list agents"
  return { items, nextCursor, total := rows.countP (agentSelected activeOnly) }

/-- A client that follows the cursors of the tokens. -/
def followTokens (rows : List TokenRow) (now : Timestamp) (params : ListTokensQuery) (fuel : Nat) :
    Option (List TokenRow) :=
  follow (fun cursor => listTokens rows now { params with cursor := cursor }) fuel none

/-- A client that follows the cursors of the agents. -/
def followAgents (rows : List RegisteredAgent) (params : ListAgentsQuery) (fuel : Nat) :
    Option (List RegisteredAgent) :=
  follow (fun cursor => (listAgents rows { params with cursor := cursor }).map fun response =>
    (response.items, response.nextCursor)) fuel none

/-! ## Pages -/

theorem parseTime_eq {column : String} {t t' : Timestamp} (h : parseTime column t = .ok t') :
    t' = t ∧ Civil.yearOf t ≤ 9999 := by
  unfold parseTime at h
  split_ifs at h with hyear
  exact ⟨(Except.ok.inj h).symm, hyear⟩

theorem mapM_parseTime_eq {column : String} {t t' : Option Timestamp}
    (h : t.mapM (parseTime column) = .ok t') : t' = t := by
  cases t with
  | none => exact (Except.ok.inj h).symm
  | some t =>
    cases hparse : parseTime column t with
    | error e =>
      rw [Option.mapM_some, hparse] at h
      cases h
    | ok parsed =>
      rw [Option.mapM_some, hparse] at h
      rw [← Except.ok.inj h, (parseTime_eq hparse).1]

/-- What is read is what was stored. -/
theorem rowToToken_eq {row token : TokenRow} (h : rowToToken row = .ok token) :
    token = row ∧ Civil.yearOf row.expiresAt ≤ 9999 := by
  obtain ⟨expiresAt, hexpires, h⟩ := bind_ok.1 h
  obtain ⟨createdAt, hcreated, h⟩ := bind_ok.1 h
  obtain ⟨lastUsedAt, hused, h⟩ := bind_ok.1 h
  obtain ⟨revokedAt, hrevoked, h⟩ := bind_ok.1 h
  obtain ⟨rfl, hyear⟩ := parseTime_eq hexpires
  obtain ⟨rfl, -⟩ := parseTime_eq hcreated
  rw [mapM_parseTime_eq hused, mapM_parseTime_eq hrevoked] at h
  exact ⟨(Except.ok.inj h).symm, hyear⟩

theorem rowToAgent_eq {row agent : RegisteredAgent} (h : rowToAgent row = .ok agent) :
    agent = row := by
  obtain ⟨createdAt, hcreated, h⟩ := bind_ok.1 h
  obtain ⟨revokedAt, hrevoked, h⟩ := bind_ok.1 h
  rw [(parseTime_eq hcreated).1, mapM_parseTime_eq hrevoked] at h
  exact (Except.ok.inj h).symm

theorem newestFirst_perm {ρ : Type} (createdAt : ρ → Timestamp) (rows : List ρ) :
    (newestFirst createdAt rows).Perm rows := List.perm_insertionSort _ _

section Fetch

variable {ρ : Type} {read : ρ → Except StoreError ρ} {idOf : ρ → String} {limit : Nat}
  {rows : List ρ}

/-- A page is served if all that is read for it can be. -/
theorem fetchPage_iff (hread : ∀ row item, read row = .ok item → item = row)
    {page : List ρ × Option String} :
    fetchPage read idOf limit rows = .ok page ↔
      (∀ row ∈ rows.take (limit + 1), read row = .ok row) ∧
        cut limit idOf (rows.take (limit + 1)) = page := by
  unfold fetchPage
  rw [bind_ok]
  generalize rows.take (limit + 1) = taken
  constructor
  · rintro ⟨items, hitems, hcut⟩
    have hall : ∀ row ∈ taken, read row = .ok row := fun row hrow => by
      obtain ⟨item, hitem⟩ := exists_of_mapM_eq_ok hitems row hrow
      rw [hitem, hread row item hitem]
    rw [mapM_eq_ok.2 (List.forall₂_same.2 hall)] at hitems
    rw [← Except.ok.inj hitems] at hcut
    exact ⟨hall, Except.ok.inj hcut⟩
  · rintro ⟨hall, rfl⟩
    exact ⟨taken, mapM_eq_ok.2 (List.forall₂_same.2 hall), rfl⟩

/-- A page that holds all the rows. -/
theorem fetchPage_all (hread : ∀ row item, read row = .ok item → item = row)
    (hlength : rows.length ≤ limit) {page : List ρ × Option String} :
    fetchPage read idOf limit rows = .ok page ↔
      (∀ row ∈ rows, read row = .ok row) ∧ (rows, none) = page := by
  rw [fetchPage_iff hread, cut_take_of_le idOf hlength, List.take_of_length_le (by omega)]

theorem mapError_eq_ok {ε α : Type} {x : Except StoreError α} {f : StoreError → ε} {a : α} :
    x.mapError f = .ok a ↔ x = .ok a := by
  cases x <;> simp [Except.mapError]

/-- A listing whose pages are all alike. -/
theorem pages_iff {sorted : List ρ} (idOf : ρ → String) (problem : ApiProblem)
    (hperm : sorted.Perm rows) (hread : ∀ row item, read row = .ok item → item = row) :
    (∃ fuel visited,
        follow (fun _ => (fetchPage read idOf limit sorted).mapError fun _ => problem) fuel none =
          some visited ∧ visited.Perm rows) ↔
      (∀ row ∈ rows, read row = .ok row) ∧ rows.length ≤ limit := by
  rw [exists_comm]
  simp only [exists_and_right, follow_constant, mapError_eq_ok, ← hperm.length_eq,
    ← hperm.mem_iff]
  by_cases hlength : sorted.length ≤ limit
  · simp only [fetchPage_all hread hlength, hlength, and_true, Prod.mk.injEq]
    constructor
    · exact fun ⟨_, ⟨hall, _⟩, _⟩ => hall
    · exact fun hall => ⟨sorted, ⟨hall, rfl⟩, hperm⟩
  · -- more rows than the limit: the page has a cursor, or no room for a single row
    simp only [fetchPage_iff hread, cut_take_of_lt idOf (not_le.1 hlength), Prod.mk.injEq,
      Option.map_eq_none_iff, List.getLast?_eq_none_iff]
    refine iff_of_false ?_ fun h => hlength h.2
    rintro ⟨visited, ⟨-, rfl, hnil⟩, hvisited⟩
    rw [hnil] at hvisited
    rw [(hperm.trans hvisited.symm).eq_nil] at hlength
    exact hlength (Nat.zero_le _)

end Fetch

/-- **When following the pages visits every row once**, for tokens and for agents: all the rows can
be read and fit on the first page. -/
theorem listings_paged_iff (tokens : List TokenRow) (now : Timestamp) (params : ListTokensQuery)
    (agents : List RegisteredAgent) (agentParams : ListAgentsQuery) :
    ((∃ fuel visited, followTokens tokens now params fuel = some visited ∧
        visited.Perm (tokens.filter
          (tokenSelected params.actorId params.role (params.activeOnly.getD false) now))) ↔
      (∀ row ∈ tokens.filter
          (tokenSelected params.actorId params.role (params.activeOnly.getD false) now),
        rowToToken row = .ok row) ∧
      (tokens.filter (tokenSelected params.actorId params.role (params.activeOnly.getD false)
        now)).length ≤ pageLimit params.limit) ∧
    ((∃ fuel visited, followAgents agents agentParams fuel = some visited ∧
        visited.Perm (agents.filter (agentSelected (agentParams.activeOnly.getD false)))) ↔
      (∀ row ∈ agents.filter (agentSelected (agentParams.activeOnly.getD false)),
        rowToAgent row = .ok row) ∧
      (agents.filter (agentSelected (agentParams.activeOnly.getD false))).length ≤
        pageLimit agentParams.limit) := by
  constructor
  · have hfollow : ∀ fuel, followTokens tokens now params fuel =
        follow (fun _ => (fetchPage rowToToken (fun row => row.tokenId) (pageLimit params.limit)
          (newestFirst (fun row => row.createdAt) (tokens.filter (tokenSelected params.actorId
            params.role (params.activeOnly.getD false) now)))).mapError fun _ =>
              listingFailed "failed to list tokens") fuel none := fun _ => rfl
    simp only [hfollow]
    exact pages_iff _ _ (newestFirst_perm _ _) fun _ _ h => (rowToToken_eq h).1
  · have hpage : ∀ cursor, ((listAgents agents { agentParams with cursor := cursor }).map
        fun response => (response.items, response.nextCursor)) =
          (fetchPage rowToAgent (fun row => row.agentId) (pageLimit agentParams.limit)
            (newestFirst (fun row => row.createdAt) (agents.filter (agentSelected
              (agentParams.activeOnly.getD false))))).mapError fun _ =>
                listingFailed "failed to list agents" := by
      intro cursor
      unfold listAgents agentsList
      dsimp only
      cases fetchPage rowToAgent (fun row => row.agentId) (pageLimit agentParams.limit)
        (newestFirst (fun row => row.createdAt) (agents.filter (agentSelected
          (agentParams.activeOnly.getD false)))) <;> rfl
    simp only [followAgents, hpage]
    exact pages_iff _ _ (newestFirst_perm _ _) fun _ _ h => rowToAgent_eq h

namespace ListingSample

/-- A token that expires after ten hours of the first day. -/
def token (tokenId : String) : TokenRow where
  tokenId := tokenId
  actorId := "operator"
  role := .operator
  scopes := ["policy:read"]
  expiresAt := seconds (10 * 3600)
  revokedAt := none
  revokedReason := none
  rotatedFrom := none
  tokenLookupHash := tokenId
  tokenHash := tokenId
  tokenSalt := ""
  createdAt := 0
  lastUsedAt := none

/-- Texts stand for their hashes. -/
def primitives : TokenPrimitives where
  hashTokenValue := id
  hashTokenWithSalt value salt := value ++ salt
  base64Decode _ := none
  fingerprint _ := ""

end ListingSample

open ListingSample in
/-- Two tokens, one a page: the cursor of the first page leads to the first page. -/
theorem first_page_again :
    listTokens [token "a", token "b"] 0 ⟨none, none, none, some 1, none⟩ =
        .ok ([token "a"], some "a") ∧
      listTokens [token "a", token "b"] 0 ⟨none, none, none, some 1, some "a"⟩ =
        .ok ([token "a"], some "a") := by
  decide +kernel

/-! ## Active tokens -/

/-- Does the listing of the active tokens include the token? -/
def ListedActive (rows : List TokenRow) (now : Timestamp) (row : TokenRow) : Prop :=
  ∃ items cursor, listTokens rows now ⟨none, none, some true, none, none⟩ = .ok (items, cursor) ∧
    row ∈ items

/-- Is a token accepted by the authentication? The lookup fails if the row cannot be read. -/
def acceptedScoped (primitives : TokenPrimitives) (rows : List TokenRow) (now : Timestamp)
    (tokenValue : String) (required : Option String) : Bool :=
  let row := rows.find? fun row => row.tokenLookupHash == primitives.hashTokenValue tokenValue
  let input : AdminInput :=
    { storeFails := row.any fun row => !(rowToToken row).isOk, clock := now }
  ((authenticateScoped primitives tokenValue required).run.finish execAdmin input
    ⟨rows.map (·.toScopedToken), []⟩).1.isOk

section Accepted

variable {primitives : TokenPrimitives} {rows : List TokenRow} {row : TokenRow} {now : Timestamp}
  {tokenValue : String} {required : Option String}

theorem finish_perform (o : AdminOp) (i : AdminInput) (w : CredentialStore) :
    (perform o).run.finish execAdmin i w = (.ok (execAdmin o i w).1, (execAdmin o i w).2) := rfl

theorem finish_insist {α : Type} (condition : Bool) (refusal : Refusal) (f : Unit → AdminM α)
    (i : AdminInput) (w : CredentialStore) :
    (insist condition refusal >>= f).run.finish execAdmin i w =
      if condition then (f ()).run.finish execAdmin i w else (.error refusal, w) := by
  cases condition <;> rfl

/-- What is left to check of a token that is found, has the right hash and the scope. -/
theorem acceptedScoped_iff
    (hlookup : (rows.find? fun row =>
      row.tokenLookupHash == primitives.hashTokenValue tokenValue) = some row)
    (hhash : primitives.hashTokenWithSalt tokenValue row.tokenSalt = row.tokenHash)
    (hscope : required.all (holds row.scopes) = true) :
    acceptedScoped primitives rows now tokenValue required = true ↔
      rowToToken row = .ok row ∧ row.revokedAt = none ∧ now ≤ row.expiresAt := by
  have hfound : (rows.map (·.toScopedToken)).find? (fun token =>
      token.tokenLookupHash == primitives.hashTokenValue tokenValue) = some row.toScopedToken := by
    rw [List.find?_map]
    exact congrArg (Option.map _) hlookup
  unfold acceptedScoped
  rw [hlookup]
  dsimp only [Option.any_some]
  rw [authenticateScoped, finish_ok (finish_perform _ _ _)]
  dsimp only [execAdmin]
  rw [hfound]
  cases hread : rowToToken row with
  | error e => exact iff_of_false Bool.false_ne_true fun h => by cases h.1
  | ok token =>
    obtain ⟨rfl, -⟩ := rowToToken_eq hread
    change ((insist _ _ >>= fun _ => insist _ _ >>= fun _ => _).run.finish _ _ _).1.isOk = true ↔ _
    rw [finish_insist, if_pos (beq_iff_eq.2 hhash), finish_insist]
    cases hrevoked : token.revokedAt with
    | some t => exact iff_of_false Bool.false_ne_true fun h => by cases h.2.1
    | none =>
      rw [if_pos Option.isNone_none]
      change ((insist (decide (now ≤ token.expiresAt)) _ >>= fun _ => _).run.finish _ _ _).1.isOk =
        true ↔ _
      rw [finish_insist]
      by_cases hnow : now ≤ token.expiresAt
      · rw [if_pos (decide_eq_true hnow), finish_insist, if_pos hscope]
        exact iff_of_true rfl ⟨rfl, rfl, hnow⟩
      · rw [if_neg (by simpa using hnow)]
        exact iff_of_false Bool.false_ne_true fun h => hnow h.2.2

theorem activeAt_iff : activeAt now row = true ↔
    row.revokedAt = none ∧ Civil.yearOf now ≤ 9999 ∧ Civil.yearOf row.expiresAt ≤ 9999 ∧
      Civil.dayOf now ≤ Civil.dayOf row.expiresAt := by
  unfold activeAt
  rw [Bool.and_eq_true, Option.isNone_iff_eq_none]
  refine and_congr_right fun _ => ?_
  cases htext : Civil.sqlDateTime now with
  | none =>
    have hyear : ¬ Civil.yearOf now ≤ 9999 := by
      intro hyear
      rw [Civil.sqlDateTime, if_pos hyear] at htext
      cases htext
    simp [hyear]
  | some text =>
    have hyear : Civil.yearOf now ≤ 9999 := by
      by_contra hyear
      rw [Civil.sqlDateTime, if_neg hyear] at htext
      cases htext
    simp only [Option.any_some, decide_eq_true_eq, Civil.sqlDateTime_lt_rfc3339_iff htext, hyear,
      true_and]

/-- Among tokens that can be read and fit on the page, exactly the active ones are listed. -/
theorem listedActive_iff (hmem : row ∈ rows)
    (hothers : ∀ other ∈ rows, other ≠ row → rowToToken other = .ok other)
    (hfit : (rows.filter (activeAt now)).length ≤ 50) :
    ListedActive rows now row ↔ rowToToken row = .ok row ∧ activeAt now row = true := by
  have hselected : tokenSelected none none true now = activeAt now := by
    funext other
    simp [tokenSelected]
  have hperm := newestFirst_perm (fun row => row.createdAt) (rows.filter (activeAt now))
  have hlist : listTokens rows now ⟨none, none, some true, none, none⟩ =
      (fetchPage rowToToken (fun row => row.tokenId) 50
        (newestFirst (fun row => row.createdAt) (rows.filter (activeAt now)))).mapError fun _ =>
          listingFailed "failed to list tokens" := by
    rw [← hselected]
    rfl
  have hlength : (newestFirst (fun row => row.createdAt) (rows.filter (activeAt now))).length ≤ 50 :=
    hperm.length_eq ▸ hfit
  have hmem' : ∀ other, other ∈ newestFirst (fun row => row.createdAt) (rows.filter (activeAt now)) ↔
      other ∈ rows ∧ activeAt now other = true := fun other =>
    hperm.mem_iff.trans List.mem_filter
  unfold ListedActive
  rw [hlist]
  generalize newestFirst (fun row => row.createdAt) (rows.filter (activeAt now)) = sorted at *
  simp only [mapError_eq_ok, fetchPage_all (fun _ _ h => (rowToToken_eq h).1) hlength,
    Prod.mk.injEq]
  constructor
  · rintro ⟨_, _, ⟨hall, rfl, -⟩, hrow⟩
    exact ⟨hall row hrow, ((hmem' row).1 hrow).2⟩
  · rintro ⟨hread, hactive⟩
    refine ⟨sorted, none, ⟨fun other hother => ?_, rfl, rfl⟩, (hmem' row).2 ⟨hmem, hactive⟩⟩
    by_cases heq : other = row
    · rw [heq, hread]
    · exact hothers other ((hmem' other).1 hother).1 heq

end Accepted

/-- **When the listing of active tokens agrees with the authentication** on a token that can be
presented for the scope: unless the token, not revoked, expired earlier on the same day. -/
theorem active_iff_accepted_iff (primitives : TokenPrimitives) (rows : List TokenRow)
    (row : TokenRow) (now : Timestamp) (tokenValue : String) (required : Option String)
    (hlookup : (rows.find? fun row =>
      row.tokenLookupHash == primitives.hashTokenValue tokenValue) = some row)
    (hhash : primitives.hashTokenWithSalt tokenValue row.tokenSalt = row.tokenHash)
    (hscope : required.all (holds row.scopes) = true)
    (hothers : ∀ other ∈ rows, other ≠ row → rowToToken other = .ok other)
    (hfit : (rows.filter (activeAt now)).length ≤ 50) :
    (ListedActive rows now row ↔
        acceptedScoped primitives rows now tokenValue required = true) ↔
      ¬ (rowToToken row = .ok row ∧ row.revokedAt = none ∧
        Civil.dayOf row.expiresAt = Civil.dayOf now ∧ row.expiresAt < now) := by
  rw [listedActive_iff (List.mem_of_find?_eq_some hlookup) hothers hfit,
    acceptedScoped_iff hlookup hhash hscope, activeAt_iff]
  by_cases hread : rowToToken row = .ok row
  · have hyear := (rowToToken_eq hread).2
    have hday : ∀ {t t' : Timestamp}, t ≤ t' → Civil.dayOf t ≤ Civil.dayOf t' := fun h =>
      Nat.div_le_div_right h
    have hnow : Civil.dayOf now ≤ Civil.dayOf row.expiresAt → Civil.yearOf now ≤ 9999 := fun h =>
      (Civil.year_mono h).trans hyear
    simp only [hread, hyear, true_and]
    by_cases hrevoked : row.revokedAt = none
    · simp only [hrevoked, true_and]
      by_cases hlive : now ≤ row.expiresAt
      · simp [hlive, hday hlive, hnow (hday hlive), Nat.not_lt.2 hlive]
      · have hle := hday (Nat.le_of_lt (Nat.not_le.1 hlive))
        by_cases hsame : Civil.dayOf row.expiresAt = Civil.dayOf now
        · simp [hlive, hsame, hnow hsame.ge, Nat.not_le.1 hlive]
        · have hlater : ¬ Civil.dayOf now ≤ Civil.dayOf row.expiresAt := by omega
          simp [hlive, hsame, hlater]
    · simp [hrevoked]
  · simp [hread]

open ListingSample in
theorem active_iff_accepted_morning :
    ListedActive [token "a"] (seconds (9 * 3600)) (token "a") ↔
      acceptedScoped primitives [token "a"] (seconds (9 * 3600)) "a" (some "policy:read") = true :=
  (active_iff_accepted_iff primitives [token "a"] (token "a") (seconds (9 * 3600)) "a"
    (some "policy:read") (by decide) (by decide) (by decide) (by decide +kernel)
    (by decide +kernel)).2 (by decide +kernel)

open ListingSample in
/-- At noon the token is listed as active, and refused. -/
theorem expired_listed :
    ListedActive [token "a"] (seconds (12 * 3600)) (token "a") ∧
      acceptedScoped primitives [token "a"] (seconds (12 * 3600)) "a" none = false :=
  ⟨⟨[token "a"], none, by decide +kernel, List.mem_singleton_self _⟩, by decide +kernel⟩

end FerrumGate.Admin
