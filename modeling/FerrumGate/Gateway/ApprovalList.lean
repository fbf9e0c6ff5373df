import FerrumGate.Gateway.Problem

/-!
# Listing pending approvals page by page

`list_approvals` of `ferrum-gateway/src/approval.rs` with its cursors, and the queries behind it
(`ferrum-store/src/sqlite/approvals.rs`). Texts are lists of characters. Of the texts themselves
only what the cursor needs is known (`CursorCodec`).

* **`approvals_paged_iff`** : when following the pages visits every pending approval once, and that
  no cursor is ever read back.
-/

namespace FerrumGate

/-- The texts a cursor is made of: URL-safe base64 of UTF-8, RFC 3339 and uuids. A text that is not
base64, or not UTF-8 then, is refused with a reason. -/
structure CursorCodec where
  encode : List Char → List Char
  decode : List Char → Except String (List Char)
  decode_encode : ∀ text, decode (encode text) = .ok text
  toRfc3339 : Timestamp → List Char
  parseFromRfc3339 : List Char → Option Timestamp
  /-- Hours, minutes and seconds are separated by colons. -/
  colon_mem : ∀ text t, parseFromRfc3339 text = some t → ':' ∈ text
  uuidText : Nat → List Char
  parseUuid : List Char → Option Nat

def invalidParam (message : String) : ApiProblem := ⟨.badRequest, .validationError, message⟩

section Cursor

variable (codec : CursorCodec)

/-- **`encode_cursor`**. -/
def encodeCursor (createdAt : Timestamp) (approvalId : ApprovalId) : List Char :=
  codec.encode (codec.toRfc3339 createdAt ++ ':' :: codec.uuidText approvalId.uuid)

/-- `splitn(2, ':')`, when there are two parts. -/
def splitAtColon (text : List Char) : Option (List Char × List Char) :=
  match text.dropWhile (· ≠ ':') with
  | [] => none
  | _ :: rest => some (text.takeWhile (· ≠ ':'), rest)

/-- **`decode_cursor`**. -/
def decodeCursor (cursor : List Char) : Except ApiProblem (Timestamp × ApprovalId) :=
  match codec.decode cursor with
  | .error reason => .error (invalidParam reason)
  | .ok text =>
    match splitAtColon text with
    | none => .error (invalidParam "invalid cursor structure")
    | some (first, second) =>
      match codec.parseFromRfc3339 first with
      | none => .error (invalidParam "invalid cursor timestamp")
      | some createdAt =>
        match codec.parseUuid second with
        | none => .error (invalidParam "invalid cursor approval_id")
        | some uuid => .ok (createdAt, ⟨uuid⟩)

/-! ## Pages -/

/-- `PaginationParams`; a proposal id that is no uuid is `some none`. -/
structure PaginationParams where
  limit : Option Nat
  offset : Option Nat
  proposalId : Option (Option ProposalId)
  cursor : Option (List Char)

def PaginationParams.pageLimit (params : PaginationParams) : Except ApiProblem Nat :=
  if 100 < params.limit.getD 50 then .error (invalidParam "limit exceeds maximum of 100")
  else .ok (params.limit.getD 50)

/-- `WHERE state = 'Pending'`, and for one proposal if there is one. -/
def pendingFor (rows : List ApprovalRequest) (proposalId : Option ProposalId) :
    List ApprovalRequest :=
  rows.filter fun a => a.state = .pending ∧ ∀ id ∈ proposalId, a.proposalId = id

/-- `ORDER BY created_at DESC LIMIT … OFFSET …` -/
def paginated (rows : List ApprovalRequest) (limit offset : Nat) : List ApprovalRequest :=
  ((rows.insertionSort fun a b => b.createdAt ≤ a.createdAt).drop offset).take limit

/-- `(created_at, approval_id) < (…, …)`, on the texts that the columns hold. -/
def keyBefore (a : Timestamp × ApprovalId) (b : Timestamp × ApprovalId) : Bool :=
  codec.toRfc3339 a.1 < codec.toRfc3339 b.1 ∨
    codec.toRfc3339 a.1 = codec.toRfc3339 b.1 ∧ codec.uuidText a.2.uuid < codec.uuidText b.2.uuid

/-- `WHERE (created_at, approval_id) < (…) ORDER BY created_at DESC, approval_id DESC LIMIT …` -/
def afterCursor (rows : List ApprovalRequest) (cursor : Timestamp × ApprovalId) (limit : Nat) :
    List ApprovalRequest :=
  ((rows.filter fun a => keyBefore codec (a.createdAt, a.approvalId) cursor).insertionSort fun a b =>
    keyBefore codec (a.createdAt, a.approvalId) (b.createdAt, b.approvalId) = false).take limit

/-- `ApprovalListEnvelope` -/
structure ApprovalListEnvelope where
  items : List ApprovalRequest
  nextCursor : Option (List Char)

/-- **`list_approvals`**, over the stored approvals. -/
def listApprovals (rows : List ApprovalRequest) (params : PaginationParams) :
    Except ApiProblem ApprovalListEnvelope := do
  let limit ← params.pageLimit
  match params.cursor with
  | some cursor =>
    let after ← decodeCursor codec cursor
    let proposalId ← parseProposalId params.proposalId
    -- one more, to see whether there is a next page
    let approvals := afterCursor codec (pendingFor rows proposalId) after (limit + 1)
    let items := approvals.take limit
    pure ⟨items, if limit < approvals.length then
      items.getLast?.map fun a => encodeCursor codec a.createdAt a.approvalId else none⟩
  | none =>
    let proposalId ← parseProposalId params.proposalId
    pure ⟨paginated (pendingFor rows proposalId) limit (params.offset.getD 0), none⟩
where
  parseProposalId : Option (Option ProposalId) → Except ApiProblem (Option ProposalId)
    | none => .ok none
    | some none => .error (invalidParam "proposal_id is not a valid uuid")
    | some (some id) => .ok (some id)

/-- A client that follows `next_cursor` until it is absent; nothing, if a page is refused. -/
def followPages (rows : List ApprovalRequest) (limit : Option Nat) :
    Nat → Option (List Char) → Option (List ApprovalRequest)
  | 0, _ => none
  | fuel + 1, cursor =>
    match listApprovals codec rows ⟨limit, none, none, cursor⟩ with
    | .error _ => none
    | .ok ⟨items, none⟩ => some items
    | .ok ⟨items, some next⟩ => (followPages rows limit fuel (some next)).map (items ++ ·)

/-! ## What is visited -/

variable {codec}

theorem splitAtColon_fst {text first second : List Char}
    (h : splitAtColon text = some (first, second)) : ':' ∉ first := by
  unfold splitAtColon at h
  split at h
  · cases h
  · cases h
    exact fun hmem => by simpa using List.mem_takeWhile_imp hmem

/-- What stands before the first colon is never a time. -/
theorem parse_before_colon {text first second : List Char}
    (h : splitAtColon text = some (first, second)) : codec.parseFromRfc3339 first = none := by
  cases hparse : codec.parseFromRfc3339 first with
  | none => rfl
  | some t => exact absurd (codec.colon_mem first t hparse) (splitAtColon_fst h)

/-- A cursor is not read back, whatever it was made of. -/
theorem decodeCursor_encodeCursor (createdAt : Timestamp) (approvalId : ApprovalId) :
    decodeCursor codec (encodeCursor codec createdAt approvalId) =
      .error (invalidParam "invalid cursor timestamp") := by
  unfold decodeCursor encodeCursor
  rw [codec.decode_encode]
  cases hsplit : splitAtColon (codec.toRfc3339 createdAt ++ ':' :: codec.uuidText approvalId.uuid) with
  | none =>
    unfold splitAtColon at hsplit
    split at hsplit
    · rename_i hdrop
      have hall := List.dropWhile_eq_nil_iff.mp hdrop ':' (by simp)
      simp at hall
    · cases hsplit
  | some parts => simp only [hsplit, parse_before_colon hsplit]

/-- The first page is the last one. -/
theorem followPages_succ (rows : List ApprovalRequest) (limit : Option Nat) (fuel : Nat) :
    followPages codec rows limit (fuel + 1) none =
      if 100 < limit.getD 50 then none
      else some (paginated (pendingFor rows none) (limit.getD 50) 0) := by
  unfold followPages listApprovals PaginationParams.pageLimit
  split_ifs <;> rfl

theorem paginated_perm (rows : List ApprovalRequest) (limit : Nat) :
    (paginated rows limit 0).Perm rows ↔ rows.length ≤ limit := by
  have hsort := List.perm_insertionSort (fun a b : ApprovalRequest => b.createdAt ≤ a.createdAt) rows
  unfold paginated
  rw [List.drop_zero]
  constructor
  · intro h
    have hlength := h.length_eq
    rw [List.length_take, hsort.length_eq] at hlength
    omega
  · intro h
    rw [List.take_of_length_le (by rw [hsort.length_eq]; exact h)]
    exact hsort

/-- **When paging visits every pending approval once**: the limit is allowed and the first page
holds them all, since it comes without a cursor; and no cursor that is made is accepted. -/
theorem approvals_paged_iff (codec : CursorCodec) (rows : List ApprovalRequest)
    (limit : Option Nat) :
    ((∃ fuel visited, followPages codec rows limit fuel none = some visited ∧
        visited.Perm (pendingFor rows none)) ↔
      limit.getD 50 ≤ 100 ∧ (pendingFor rows none).length ≤ limit.getD 50) ∧
    ∀ createdAt approvalId, decodeCursor codec (encodeCursor codec createdAt approvalId) =
      .error (invalidParam "invalid cursor timestamp") := by
  refine ⟨⟨?_, ?_⟩, decodeCursor_encodeCursor⟩
  · rintro ⟨fuel, visited, hvisited, hperm⟩
    cases fuel with
    | zero => cases hvisited
    | succ fuel =>
      rw [followPages_succ] at hvisited
      split_ifs at hvisited with hlimit
      cases hvisited
      exact ⟨Nat.le_of_not_lt hlimit, (paginated_perm _ _).mp hperm⟩
  · rintro ⟨hlimit, hfew⟩
    refine ⟨1, _, ?_, (paginated_perm _ _).mpr hfew⟩
    rw [followPages_succ, if_neg (Nat.not_lt.mpr hlimit)]

end Cursor

namespace PagingSample

def codec : CursorCodec where
  encode := id
  decode := .ok
  decode_encode _ := rfl
  toRfc3339 t := ':' :: List.replicate t '0'
  parseFromRfc3339
    | ':' :: rest => some rest.length
    | _ => none
  colon_mem text t h := by
    split at h
    · exact List.mem_cons_self
    · cases h
  uuidText n := List.replicate n '0'
  parseUuid text := some text.length

def approval (n : Nat) : ApprovalRequest where
  approvalId := ⟨n⟩
  intentId := ⟨0⟩
  proposalId := ⟨0⟩
  executionId := none
  requestedBy := .agent
  actionDigest := ""
  expiresAt := 9
  state := .pending
  createdAt := n
  resolverEvidenceVersion := none
  ownerActorId := none

end PagingSample

open PagingSample in
/-- Two approvals are pending, a page holds one: the older one is never visited. -/
theorem second_page_unreachable :
    followPages codec [approval 1, approval 2] (some 1) 9 none = some [approval 2] ∧
      decodeCursor codec (encodeCursor codec 3 ⟨4⟩) =
        .error (invalidParam "invalid cursor timestamp") := by
  decide

end FerrumGate
