import FerrumGate.Interleave.History
import FerrumGate.Safety.Steps

/-!
# Execution and contract move as a pair

Seven handlers and the HA reconciler write the two rows of a pair from rows they read some time
before. `pairAllowed` lists the state pairs; `pair_allowed_along_runs` says that a run from the
empty store never leaves the list.

The pair alone is not inductive. What carries it (`PairInv`): an execution has at most one
contract, since a second `prepare` would need the idempotency key of the first; the execution is
linked to that contract as long as it is not canceled, whatever snapshot a handler writes back;
and some things never change (`Stable`), a contract's owner among them, so that a row read long ago
still names the right contract.
-/

namespace FerrumGate

open Interleave Interleave.Rows

/-- The state pairs of an execution and the contract it links to. -/
def pairAllowed : ExecutionState → Option RollbackState → Bool
  | .authorized, none | .authorized, some .prepared => true
  | .prepared, none | .prepared, some .prepared => true
  | .running, some .prepared => true
  | .awaitingVerification, some .executedAwaitingVerify => true
  | .awaitingVerification, some .verified => true
  | .committed, some .verified | .committed, some .committed => true
  | .failed, some .failed => true
  | .recoveryRequired, some .recoveryRequired => true
  | .compensated, some .compensated => true
  | .canceled, none | .canceled, some .prepared => true
  | _, _ => false

/-- The stored pair of an execution is allowed, and a link leads to a contract of its own. -/
def PairOk (w : World) (x : ExecutionRecord) : Prop :=
  match x.rollbackContractId with
  | none => pairAllowed x.state none = true
  | some id => ∃ c, find w.contracts id = some c ∧ c.executionId = x.executionId ∧
      pairAllowed x.state (some c.state) = true

variable {w : World} {x : ExecutionRecord}

theorem PairOk.of_none (hlink : x.rollbackContractId = none) (h : pairAllowed x.state none = true) :
    PairOk w x := by
  unfold PairOk
  rw [hlink]
  exact h

variable {c : RollbackContract}

theorem PairOk.of_some (hlink : x.rollbackContractId = some c.contractId)
    (hfind : find w.contracts c.contractId = some c) (hown : c.executionId = x.executionId)
    (h : pairAllowed x.state (some c.state) = true) : PairOk w x := by
  unfold PairOk
  rw [hlink]
  exact ⟨c, hfind, hown, h⟩

variable {id : RollbackContractId}

theorem PairOk.contract (h : PairOk w x) (hlink : x.rollbackContractId = some id) :
    ∃ c, find w.contracts id = some c ∧ c.executionId = x.executionId ∧
      pairAllowed x.state (some c.state) = true := by
  unfold PairOk at h
  rw [hlink] at h
  exact h

variable {w' : World}

/-- The pair survives when the contracts that executions link to stay as they are. -/
theorem PairOk.frame (h : PairOk w x)
    (hc : ∀ id c, find w.contracts id = some c → c.executionId = x.executionId →
      find w'.contracts id = some c) : PairOk w' x := by
  unfold PairOk at h ⊢
  cases hlink : x.rollbackContractId with
  | none =>
    rw [hlink] at h
    exact h
  | some id =>
    rw [hlink] at h
    obtain ⟨c, hfind, hown, hpair⟩ := h
    exact ⟨c, hc id c hfind hown, hown, hpair⟩

/-- An outbox record with this idempotency key is stored. -/
def KeyTaken (w : World) (key : IdempotencyKey) : Prop :=
  ∃ id row, find w.outbox id = some row ∧ row.record.idempotencyKey = key

/-- The key of the one `prepare` an execution can have. -/
def prepareKey (x : ExecutionRecord) : IdempotencyKey :=
  .transition .prepare x.executionId x.state (some .prepared)

/-- **The invariant of the pair.** -/
structure PairInv (w : World) : Prop where
  distinct : (w.executions.map Keyed.key).Nodup
  pair : ∀ {e x}, find w.executions e = some x → PairOk w x
  owner : ∀ {id c}, find w.contracts id = some c → ∃ x, find w.executions c.executionId = some x
  linked : ∀ {id c x}, find w.contracts id = some c → find w.executions c.executionId = some x →
    x.state ≠ .canceled → x.rollbackContractId = some id
  keyed : ∀ {id c x}, find w.contracts id = some c → find w.executions c.executionId = some x →
    x.state = .authorized ∨ x.state = .prepared → KeyTaken w (prepareKey x)

/-- Two versions of one capability: it is never `Active` again, and the rest of what matters here
is the same. -/
structure LaterLease (lease lease' : CapabilityLease) : Prop where
  expiresAt : lease'.expiresAt = lease.expiresAt
  intentId : lease'.intentId = lease.intentId
  proposalId : lease'.proposalId = lease.proposalId
  inactive : lease.status ≠ .active → lease'.status ≠ .active

theorem LaterLease.refl (lease : CapabilityLease) : LaterLease lease lease :=
  ⟨rfl, rfl, rfl, fun h => h⟩

theorem LaterLease.trans {a b c : CapabilityLease} (h₁ : LaterLease a b) (h₂ : LaterLease b c) :
    LaterLease a c :=
  ⟨h₂.expiresAt.trans h₁.expiresAt, h₂.intentId.trans h₁.intentId,
    h₂.proposalId.trans h₁.proposalId, fun hs => h₂.inactive (h₁.inactive hs)⟩

/-- What never changes: the owner of a contract, what an outbox record is about, what an execution
was authorized for, a proposal, the expiry, the intent and the proposal of a capability and that it
has left `Active`, and the events that have been appended. Values are compared as `Json` has them,
without floats. -/
structure Stable (w w' : World) : Prop where
  contracts : ∀ {id c}, find w.contracts id = some c →
    ∃ c', find w'.contracts id = some c' ∧ c'.executionId = c.executionId
  records : ∀ {id row}, find w.outbox id = some row →
    ∃ row', find w'.outbox id = some row' ∧ SameRecord row.record row'.record
  executions : ∀ {e x}, find w.executions e = some x →
    ∃ x', find w'.executions e = some x' ∧ SameExecution x' x
  proposals : ∀ {id proposal}, find w.proposals id = some proposal →
    find w'.proposals id = some proposal
  capabilities : ∀ {id lease}, find w.capabilities id = some lease →
    ∃ lease', find w'.capabilities id = some lease' ∧ LaterLease lease lease'
  events : ∀ {event}, event ∈ w.events → event ∈ w'.events

theorem Stable.refl (w : World) : Stable w w where
  contracts h := ⟨_, h, rfl⟩
  records h := ⟨_, h, .refl _⟩
  executions h := ⟨_, h, rfl, rfl, rfl, rfl⟩
  proposals h := h
  capabilities h := ⟨_, h, .refl _⟩
  events h := h

theorem Stable.trans (a b c : World) (h₁ : Stable a b) (h₂ : Stable b c) : Stable a c where
  contracts h := by
    obtain ⟨c₁, hc₁, he₁⟩ := h₁.contracts h
    obtain ⟨c₂, hc₂, he₂⟩ := h₂.contracts hc₁
    exact ⟨c₂, hc₂, he₂.trans he₁⟩
  records h := by
    obtain ⟨r₁, hr₁, hk₁⟩ := h₁.records h
    obtain ⟨r₂, hr₂, hk₂⟩ := h₂.records hr₁
    exact ⟨r₂, hr₂, hk₁.trans hk₂⟩
  executions h := by
    obtain ⟨x₁, hx₁, hs₁⟩ := h₁.executions h
    obtain ⟨x₂, hx₂, hs₂⟩ := h₂.executions hx₁
    exact ⟨x₂, hx₂, hs₂.trans hs₁⟩
  proposals h := h₂.proposals (h₁.proposals h)
  capabilities h := by
    obtain ⟨l₁, hl₁, hs₁⟩ := h₁.capabilities h
    obtain ⟨l₂, hl₂, hs₂⟩ := h₂.capabilities hl₁
    exact ⟨l₂, hl₂, hs₁.trans hs₂⟩
  events h := h₂.events (h₁.events h)

theorem KeyTaken.mono (h : Stable w w') {key : IdempotencyKey} (hk : KeyTaken w key) :
    KeyTaken w' key := by
  obtain ⟨id, row, hrow, rfl⟩ := hk
  obtain ⟨row', hrow', hsame⟩ := h.records hrow
  exact ⟨id, row', hrow', hsame.idempotencyKey⟩

/-- A taken key refuses a new record. -/
theorem KeyTaken.refuses {key : IdempotencyKey} (h : KeyTaken w key)
    (hnew : ∀ row ∈ w.outbox, row.record.idempotencyKey ≠ key) : False := by
  obtain ⟨id, row, hrow, hkey⟩ := h
  exact hnew row (mem_of_find hrow) hkey

theorem PairInv.empty : PairInv {} where
  distinct := List.nodup_nil
  pair h := by cases h
  owner h := by cases h
  linked h := by cases h
  keyed h := by cases h

/-- Steps that leave executions and contracts alone. -/
theorem PairInv.frame (h : PairInv w) (he : w'.executions = w.executions)
    (hc : w'.contracts = w.contracts) (hs : Stable w w') : PairInv w' where
  distinct := by
    rw [he]
    exact h.distinct
  pair hx := by
    rw [he] at hx
    exact (h.pair hx).frame fun _ _ hfind _ => by rw [hc]; exact hfind
  owner hfind := by
    rw [hc] at hfind
    rw [he]
    exact h.owner hfind
  linked hfind hx := by
    rw [hc] at hfind
    rw [he] at hx
    exact h.linked hfind hx
  keyed hfind hx hstate := by
    rw [hc] at hfind
    rw [he] at hx
    exact (h.keyed hfind hx hstate).mono hs

/-! ## What a row read earlier still says -/

/-- Every reply of the transcript was given in a world with the invariant, from which the present
one has only moved on. -/
def Trusted (w : World) (t : Knowledge) : Prop :=
  ∀ x ∈ t, Seen Op.exec (fun _ => PairInv) Stable w x

variable {lease : CapabilityLease} {outbox : LifecycleOutboxRecord}

section Trusted

variable {w : World} {t : Knowledge}

/-- What a read answered was true in a world with the invariant. -/
theorem Trusted.read {α : Type} {o : Op} {r : o.Result} (h : Trusted w t) (hs : Saw t o r)
    (f : World → α) (a : α)
    (hexec : ∀ i w₁, r = (o.exec i w₁).1 → (o.exec i w₁).2 = w₁ ∧ a = f w₁) :
    ∃ w₁, PairInv w₁ ∧ Stable w₁ w ∧ a = f w₁ := by
  obtain ⟨_, w₁, i, hinv, hr, _, hstable⟩ := h _ hs
  obtain ⟨hsame, ha⟩ := hexec i w₁ hr
  exact ⟨w₁, hinv, hsame ▸ hstable, ha⟩

theorem readWith_snd {α : Type} (i : Input) (f : World → α) (w : World) :
    (readWith i f w).2 = w := by
  unfold readWith
  split <;> rfl

/-- A row that a listing shows is the one stored under its key. -/
theorem PairInv.stale_stored (h : PairInv w) {before : Timestamp} {states : List ExecutionState}
    {limit : Nat} (hx : x ∈ World.staleInFlight before states limit w) :
    find w.executions x.executionId = some x := by
  refine find_of_mem h.distinct ?_
  have hsorted := List.mem_of_mem_take hx
  rw [List.mem_insertionSort] at hsorted
  exact (List.mem_filter.mp hsorted).1

theorem Trusted.execution (h : Trusted w t) (hx : ReadExecution t x) :
    ∃ w₁, PairInv w₁ ∧ Stable w₁ w ∧ find w₁.executions x.executionId = some x := by
  cases hx with
  | byId read =>
    obtain ⟨w₁, hinv, hstable, ha⟩ := h.read read (fun w₁ => find w₁.executions x.executionId)
      (some x) fun i w₁ hr => ⟨readWith_snd i _ w₁, readWith_ok hr.symm⟩
    exact ⟨w₁, hinv, hstable, ha.symm⟩
  | @stale before states limit rows read mem =>
    obtain ⟨w₁, hinv, hstable, ha⟩ := h.read read (World.staleInFlight before states limit) rows
      fun i w₁ hr => ⟨readWith_snd i _ w₁, readWith_ok hr.symm⟩
    rw [ha] at mem
    exact ⟨w₁, hinv, hstable, hinv.stale_stored mem⟩

theorem Trusted.contract (h : Trusted w t) (hc : Saw t (.getContract c.contractId) (.ok (some c))) :
    ∃ w₁, Stable w₁ w ∧ find w₁.contracts c.contractId = some c := by
  obtain ⟨w₁, _, hstable, ha⟩ := h.read hc (fun w₁ => find w₁.contracts c.contractId) (some c)
    fun i w₁ hr => ⟨readWith_snd i _ w₁, readWith_ok hr.symm⟩
  exact ⟨w₁, hstable, ha.symm⟩

theorem Trusted.record (h : Trusted w t) {old : LifecycleOutboxRecord} {id : LifecycleOutboxId}
    (hr : Saw t (.getOutbox id) (.ok (some old))) :
    ∃ row, find w.outbox id = some row ∧ SameRecord old row.record := by
  obtain ⟨w₁, _, hstable, ha⟩ := h.read hr
    (fun w₁ => (find w₁.outbox id).map (·.record)) (some old)
    fun i w₁ hr => ⟨readWith_snd i _ w₁, readWith_ok hr.symm⟩
  obtain ⟨row₁, hrow₁, rfl⟩ := Option.map_eq_some_iff.mp ha.symm
  exact hstable.records hrow₁

theorem Trusted.capability (h : Trusted w t) {id : CapabilityId}
    (hr : Saw t (.getCapability id) (.ok (some lease))) :
    ∃ stored, find w.capabilities id = some stored ∧ LaterLease lease stored := by
  obtain ⟨w₁, _, hstable, ha⟩ := h.read hr (fun w₁ => find w₁.capabilities id) (some lease)
    fun i w₁ hr => ⟨readWith_snd i _ w₁, readWith_ok hr.symm⟩
  exact hstable.capabilities ha.symm

/-- The events that a query answered are stored, and match it. -/
theorem Trusted.queried (h : Trusted w t) {q : World.ProvenanceQuery}
    {events : List ProvenanceEvent} (hs : Saw t (.queryEvents q) (.ok events))
    {event : ProvenanceEvent} (hmem : event ∈ events) :
    event ∈ w.events ∧ q.matchesEvent event = true := by
  obtain ⟨w₁, _, hstable, ha⟩ := h.read hs (World.queryEvents q) events
    fun i w₁ hr => ⟨readWith_snd i _ w₁, readWith_ok hr.symm⟩
  rw [ha] at hmem
  obtain ⟨hsorted, hmatches⟩ := List.mem_filter.mp hmem
  rw [List.mem_insertionSort] at hsorted
  exact ⟨hstable.events hsorted, hmatches⟩

/-- An event the process has appended is stored. -/
theorem Trusted.appended (h : Trusted w t) {e : Reply Op Op.Result} (he : e ∈ t)
    {event : ProvenanceEvent} (happended : appended e = some event) : event ∈ w.events := by
  obtain ⟨o, r⟩ := e
  obtain ⟨_, w₁, i, _, hr, _, hstable⟩ := h _ he
  have hr' : r = (o.exec i w₁).1 := hr
  subst hr'
  exact hstable.events (appended_stored happended)

/-- A record that the process has stored with its transaction. -/
theorem Trusted.owned (h : Trusted w t) (ho : Owns t outbox) :
    ∃ row, find w.outbox outbox.outboxId = some row ∧ SameRecord outbox row.record := by
  obtain ⟨⟨o, r⟩, hmem, x, htx⟩ := ho
  obtain ⟨_, w₁, i, _, hr, _, hstable⟩ := h _ hmem
  have hr' : r = (o.exec i w₁).1 := hr
  subst hr'
  exact hstable.records (recorded_stored htx).2

/-- A record that the process has leased. -/
theorem Trusted.claimed (h : Trusted w t) {claim : LifecycleOutboxClaim}
    (hc : HoldsClaim t claim) :
    ∃ row, find w.outbox claim.lease.outboxId = some row ∧ SameRecord claim.record row.record := by
  obtain ⟨limit, owner, now, ttl, claims, hs, hmem⟩ := hc
  obtain ⟨_, w₁, i, _, hr, _, hstable⟩ := h _ hs
  obtain ⟨row, hrow, hsame⟩ := claimed_stored hr.symm hmem
  obtain ⟨row', hrow', hsame'⟩ := hstable.records hrow
  exact ⟨row', hrow', hsame ▸ hsame'⟩

/-- A contract that a read execution links to is stored, and belongs to the execution. -/
theorem Trusted.linked (h : Trusted w t) (hx : ReadExecution t x)
    (hlink : x.rollbackContractId = some id) :
    ∃ c, find w.contracts id = some c ∧ c.executionId = x.executionId := by
  obtain ⟨w₁, hinv, hstable, hfind⟩ := h.execution hx
  obtain ⟨c₁, hc₁, hown, _⟩ := (hinv.pair hfind).contract hlink
  obtain ⟨c, hc, he⟩ := hstable.contracts hc₁
  exact ⟨c, hc, he.trans hown⟩

/-- Both contracts of a read pair, the one read and the one stored, belong to the execution. -/
theorem Trusted.pair (h : Trusted w t) (hp : ReadPair t x c) :
    ∃ stored, find w.contracts c.contractId = some stored ∧
      stored.executionId = x.executionId ∧ c.executionId = x.executionId := by
  obtain ⟨stored, hfind, hown⟩ := h.linked hp.execution hp.linked
  obtain ⟨w₁, hstable, hread⟩ := h.contract hp.contract
  obtain ⟨stored', hfind', he⟩ := hstable.contracts hread
  cases Option.some.inj (hfind.symm.trans hfind')
  exact ⟨stored, hfind, hown, he.symm.trans hown⟩

end Trusted

/-! ## The transitions, seen from the pair -/

theorem verifyContract_identity (c : RollbackContract) (digest : Option String) :
    (verifyContract c digest).contractId = c.contractId ∧
      (verifyContract c digest).executionId = c.executionId := by
  unfold verifyContract
  cases digest with
  | none => dsimp only; split <;> exact ⟨rfl, rfl⟩
  | some d => dsimp only; split <;> exact ⟨rfl, rfl⟩

/-- A transition that carries both rows of a read pair on. -/
structure PairTransition (t : Knowledge) (previous updated : ExecutionRecord)
    (previousContract : Option RollbackContract) (x : ExecutionRecord)
    (c c' : RollbackContract) : Prop where
  read : ReadPair t x c
  execution : updated.executionId = x.executionId
  link : updated.rollbackContractId = x.rollbackContractId
  expected : previousContract.map (·.state) = some c.state
  contract : c'.contractId = c.contractId
  owner : c'.executionId = c.executionId
  claimed : updated.state.claimed = true
  allowed : pairAllowed previous.state (some c.state) = true →
    pairAllowed updated.state (some c'.state) = true

/-- The three shapes of a transition. -/
inductive TransitionShape (t : Knowledge) (name : TransitionName)
    (previous updated : ExecutionRecord) (previousContract : Option RollbackContract) :
    Option RollbackContract → Prop
  | prepare {c : RollbackContract} (name_ : name = .prepare)
      (preparable : previous.state = .authorized ∨ previous.state = .prepared)
      (bound : c.executionId = previous.executionId) (prepared : c.state = .prepared)
      (updated_ : updated = { previous with rollbackContractId := some c.contractId })
      (none_ : previousContract = none) :
      TransitionShape t name previous updated previousContract (some c)
  | cancel (read : ReadExecution t previous) (cancelable : cancelable previous.state = true)
      (execution : updated.executionId = previous.executionId)
      (link : updated.rollbackContractId = previous.rollbackContractId)
      (canceled : updated.state = .canceled) :
      TransitionShape t name previous updated previousContract none
  | pair {x : ExecutionRecord} {c c' : RollbackContract}
      (step : PairTransition t previous updated previousContract x c c') :
      TransitionShape t name previous updated previousContract (some c')

theorem Transition.shape {t : Knowledge} {name : TransitionName} {x' : ExecutionRecord}
    {c c' : Option RollbackContract} {kinds : List ProvenanceEventKind}
    (h : Transition t name x x' c c' kinds) : TransitionShape t name x x' c c' := by
  cases h with
  | prepare read preparable _ bound prepared =>
    exact .prepare rfl preparable bound prepared rfl rfl
  | cancel read cancelable => exact .cancel read cancelable rfl rfl rfl
  | execute claimed _ =>
    exact .pair ⟨claimed.checked.pair, rfl, rfl, rfl, rfl, rfl, rfl, fun _ => rfl⟩
  | executeRecovery claimed _ =>
    exact .pair ⟨claimed.checked.pair, rfl, rfl, rfl, rfl, rfl, rfl, fun _ => rfl⟩
  | @verify x c outcome metadata verified pair awaits _ _ =>
    obtain ⟨hid, hown⟩ := verifyContract_identity c x.resultDigest
    -- the pair list excludes `Running` beside an executed contract
    have hstates : c.state = .executedAwaitingVerify ∧
        (x.state = .running ∨ x.state = .awaitingVerification) := by
      simpa [awaitsVerification] using awaits
    refine .pair ⟨pair, rfl, rfl, rfl, hid, hown, ?_, ?_⟩
    · cases verified with
      | false => rfl
      | true =>
        rcases hstates.2 with hs | hs <;> simp only [if_true] <;> split <;>
          simp [hs, ExecutionState.claimed]
    · rw [hstates.1]
      rcases hstates.2 with hs | hs
      · rw [hs]
        exact fun h => absurd h (by decide)
      · intro _
        cases verified with
        | false => rfl
        | true =>
          simp only [verifiedContract, if_true]
          split
          · rfl
          · rw [hs]
            rfl
  | @verifyRecovery x c metadata pair awaits =>
    obtain ⟨hid, hown⟩ := verifyContract_identity c x.resultDigest
    exact .pair ⟨pair, rfl, rfl, rfl, hid, hown, rfl, fun _ => rfl⟩
  | commit pair _ _ _ => exact .pair ⟨pair, rfl, rfl, rfl, rfl, rfl, rfl, fun _ => rfl⟩
  | @compensate x c receipt _ pair _ _ =>
    have henrich := enrichHttpCompensationIfNeeded_eq c
    refine .pair ⟨pair, rfl, rfl, ?_, ?_, ?_, ?_, fun _ => ?_⟩
    · rw [henrich]
      rfl
    · rw [henrich]
      rfl
    · rw [henrich]
      rfl
    · simp only [compensatedState]
      split
      · rfl
      · split <;> rfl
    · simp only [compensatedState, compensatedContract, compensatedContractState]
      split
      · rfl
      · split <;> rfl
  | haRecovery pair _ _ => exact .pair ⟨pair, rfl, rfl, rfl, rfl, rfl, rfl, fun _ => rfl⟩

/-! ## What a write keeps -/

section Writes

variable {w w' : World} {row updated : ExecutionRecord}

/-- One execution is rewritten, and only its own contract with it. -/
theorem PairInv.replace (h : PairInv w)
    (hfound : find w.executions updated.executionId = some row)
    (he : w'.executions = put w.executions updated) (hs : Stable w w') (hpair : PairOk w' updated)
    (hothers : ∀ id c, c.executionId ≠ updated.executionId →
      (find w'.contracts id = some c ↔ find w.contracts id = some c))
    (hlinked : ∀ id c, find w'.contracts id = some c → c.executionId = updated.executionId →
      updated.state ≠ .canceled → updated.rollbackContractId = some id)
    (hkeyed : ∀ id c, find w'.contracts id = some c → c.executionId = updated.executionId →
      updated.state = .authorized ∨ updated.state = .prepared →
      KeyTaken w' (prepareKey updated)) : PairInv w' where
  distinct := by
    rw [he, keys_put]
    exact h.distinct
  pair := by
    intro e x hx
    rw [he] at hx
    rcases find_put_cases hfound e with ⟨_, _, hput⟩ | ⟨hne, hput⟩
    · cases Option.some.inj (hx.symm.trans hput)
      exact hpair
    · rw [hput] at hx
      have hxe : x.executionId = e := find_key hx
      refine (h.pair hx).frame fun id c hc hown => (hothers id c ?_).mpr hc
      rw [hown, hxe]
      exact Ne.symm hne
  owner := by
    intro id c hc
    rw [he]
    rcases find_put_cases hfound c.executionId with ⟨_, _, hput⟩ | ⟨hne, hput⟩
    · exact ⟨updated, hput⟩
    · rw [hput]
      exact h.owner ((hothers id c (Ne.symm hne)).mp hc)
  linked := by
    intro id c x hc hx hstate
    rw [he] at hx
    rcases find_put_cases hfound c.executionId with ⟨hid, _, hput⟩ | ⟨hne, hput⟩
    · cases Option.some.inj (hx.symm.trans hput)
      exact hlinked id c hc hid.symm hstate
    · rw [hput] at hx
      exact h.linked ((hothers id c (Ne.symm hne)).mp hc) hx hstate
  keyed := by
    intro id c x hc hx hstate
    rw [he] at hx
    rcases find_put_cases hfound c.executionId with ⟨hid, _, hput⟩ | ⟨hne, hput⟩
    · cases Option.some.inj (hx.symm.trans hput)
      exact hkeyed id c hc hid.symm hstate
    · rw [hput] at hx
      exact (h.keyed ((hothers id c (Ne.symm hne)).mp hc) hx hstate).mono hs

variable {s : ExecutionState}

theorem not_canceled_of_valid {s' : ExecutionState} (h : isValidExecutionTransition s s' = true) :
    s ≠ .canceled := by
  rintro rfl
  rw [isValidExecutionTransition_terminal rfl] at h
  cases h

/-- In the list of pairs, a cancelable execution has no contract or a prepared one. -/
theorem cancelable_pair {c : Option RollbackState} (h : pairAllowed s c = true)
    (hs : cancelable s = true) : pairAllowed .canceled c = true := by
  rcases c with _ | c
  · rfl
  · cases s <;> cases c <;>
      first | rfl | exact absurd h (by decide) | exact absurd hs (by decide)

/-- In the list of pairs, an execution before its claim that has a contract has a prepared one. -/
theorem preClaim_pair {c : RollbackState} (h : pairAllowed s (some c) = true)
    (hs : s.preClaim = true) : pairAllowed .running (some c) = true := by
  cases s <;> cases c <;>
    first | rfl | exact absurd h (by decide) | exact absurd hs (by decide)

/-- Cancelation, with the link of the row or of an older copy of it. -/
theorem PairInv.cancel (h : PairInv w) (he : w'.executions = put w.executions updated)
    (hfound : find w.executions updated.executionId = some row)
    (hrow : cancelable row.state = true) (hcanceled : updated.state = .canceled)
    (hlink : ∀ id, updated.rollbackContractId = some id →
      ∃ c, find w.contracts id = some c ∧ c.executionId = updated.executionId)
    (hc : w'.contracts = w.contracts) (hs : Stable w w') : PairInv w' := by
  have hrowState : row.state ≠ .canceled := by
    intro hcan
    rw [hcan] at hrow
    cases hrow
  refine h.replace hfound he hs ?_ (fun _ _ _ => by rw [hc]) ?_ ?_
  · cases hl : updated.rollbackContractId with
    | none => exact .of_none hl (by rw [hcanceled]; rfl)
    | some id =>
      obtain ⟨c, hfind, hown⟩ := hlink id hl
      have hcid : c.contractId = id := find_key hfind
      have hrowLink : row.rollbackContractId = some id :=
        h.linked hfind (hown ▸ hfound) hrowState
      obtain ⟨c', hfind', _, hpair⟩ := (h.pair hfound).contract hrowLink
      cases Option.some.inj (hfind.symm.trans hfind')
      subst hcid
      refine .of_some hl (by rw [hc]; exact hfind) hown ?_
      rw [hcanceled]
      exact cancelable_pair hpair hrow
  · exact fun _ _ _ _ hne => absurd hcanceled hne
  · intro _ _ _ _ hstate
    rw [hcanceled] at hstate
    rcases hstate with hx | hx <;> cases hx

/-- The claim: the execution has its prepared contract, and goes to `Running`. -/
theorem PairInv.claim (h : PairInv w) (hfound : find w.executions row.executionId = some row)
    (hrow : row.state.preClaim = true) (hfind : find w.contracts id = some c)
    (hown : c.executionId = row.executionId)
    (he : w'.executions = put w.executions { row with state := .running })
    (hc : w'.contracts = w.contracts) (hs : Stable w w') : PairInv w' := by
  have hrowState : row.state ≠ .canceled := by
    intro hcan
    rw [hcan] at hrow
    cases hrow
  have hlink : row.rollbackContractId = some id := h.linked hfind (hown ▸ hfound) hrowState
  have hcid : c.contractId = id := find_key hfind
  have hrunning : find w.executions ({ row with state := .running } : ExecutionRecord).executionId =
    some row := hfound
  refine h.replace hrunning he hs ?_ (fun _ _ _ => by rw [hc]) ?_ ?_
  · obtain ⟨c', hfind', hown', hpair⟩ := (h.pair hfound).contract hlink
    cases Option.some.inj (hfind.symm.trans hfind')
    subst hcid
    exact .of_some hlink (by rw [hc]; exact hfind) hown (preClaim_pair hpair hrow)
  · intro id' c' hfind' hown' _
    rw [hc] at hfind'
    have hrow : find w.executions c'.executionId = some row := by
      rw [show c'.executionId = row.executionId from hown']
      exact hfound
    have hrowLink : row.rollbackContractId = some id' := h.linked hfind' hrow hrowState
    exact hrowLink
  · intro _ _ _ _ hstate
    rcases hstate with hx | hx <;> cases hx

/-- A transition of the pair. -/
theorem PairInv.pairStep (h : PairInv w) {t : Knowledge} (ht : Trusted w t)
    {previous : ExecutionRecord} {previousContract : Option RollbackContract}
    {c' stored : RollbackContract}
    (hstep : PairTransition t previous updated previousContract x c c')
    (hfound : find w.executions updated.executionId = some row)
    (hrow : row.state = previous.state)
    (hvalid : isValidExecutionTransition row.state updated.state = true)
    (hstored : find w.contracts c'.contractId = some stored) (hexpected : stored.state = c.state)
    (he : w'.executions = put w.executions updated) (hc : w'.contracts = put w.contracts c')
    (hs : Stable w w') : PairInv w' := by
  obtain ⟨stored', hfind', hown', hown⟩ := ht.pair hstep.read
  rw [← hstep.contract, hstored] at hfind'
  cases Option.some.inj hfind'
  have hstoredOwner : stored.executionId = updated.executionId := hown'.trans hstep.execution.symm
  have hnewOwner : c'.executionId = updated.executionId :=
    hstep.owner.trans (hown.trans hstep.execution.symm)
  have hlink : updated.rollbackContractId = some c'.contractId := by
    rw [hstep.link, hstep.contract]
    exact hstep.read.linked
  have hrowLink : row.rollbackContractId = some c'.contractId :=
    h.linked hstored (hstoredOwner ▸ hfound) (not_canceled_of_valid hvalid)
  have hpair : pairAllowed updated.state (some c'.state) = true := by
    obtain ⟨c₁, hc₁, _, hp⟩ := (h.pair hfound).contract hrowLink
    cases Option.some.inj (hstored.symm.trans hc₁)
    rw [hrow, hexpected] at hp
    exact hstep.allowed hp
  refine h.replace hfound he hs ?_ ?_ ?_ ?_
  · exact .of_some hlink (by rw [hc]; exact find_put_self hstored) hnewOwner hpair
  · intro id c₁ hne
    rw [hc]
    rcases find_put_cases hstored id with ⟨_, hold, hput⟩ | ⟨_, hput⟩
    · rw [hold, hput]
      constructor
      · intro heq
        cases Option.some.inj heq
        exact absurd hnewOwner hne
      · intro heq
        cases Option.some.inj heq
        exact absurd hstoredOwner hne
    · rw [hput]
  · intro id c₁ hfind hown₁ _
    rw [hc] at hfind
    rcases find_put_cases hstored id with ⟨hid, _, _⟩ | ⟨_, hput⟩
    · have hid' : c'.contractId = id := hid
      rw [hlink, hid']
    · rw [hput] at hfind
      have hrow₁ := h.linked hfind (hown₁ ▸ hfound) (not_canceled_of_valid hvalid)
      rw [hlink, ← hrowLink, hrow₁]
  · intro _ _ _ _ hstate
    have hclaimed := hstep.claimed
    rcases hstate with hx | hx <;> rw [hx] at hclaimed <;> cases hclaimed

/-- The one `prepare` of an execution. -/
theorem PairInv.prepare (h : PairInv w) {previous : ExecutionRecord} {outboxRow : OutboxRow}
    (hupdated : updated = { previous with rollbackContractId := some c.contractId })
    (hfound : find w.executions updated.executionId = some row)
    (hrow : row.state = previous.state)
    (hpreparable : previous.state = .authorized ∨ previous.state = .prepared)
    (hbound : c.executionId = previous.executionId) (hprepared : c.state = .prepared)
    (hnew : find w.contracts c.contractId = none)
    (hfresh : ∀ r ∈ w.outbox, r.record.idempotencyKey ≠ prepareKey updated)
    (hkey : outboxRow.record.idempotencyKey = prepareKey updated)
    (hid : find w.outbox outboxRow.record.outboxId = none)
    (he : w'.executions = put w.executions updated) (hc : w'.contracts = w.contracts ++ [c])
    (ho : w'.outbox = w.outbox ++ [outboxRow]) (hs : Stable w w') : PairInv w' := by
  have hexec : updated.executionId = previous.executionId := by rw [hupdated]
  have hstate : updated.state = previous.state := by rw [hupdated]
  have hlink : updated.rollbackContractId = some c.contractId := by rw [hupdated]
  -- a contract of this execution would have taken the key
  have hnone : ∀ id c₁, find w.contracts id = some c₁ → c₁.executionId ≠ updated.executionId := by
    intro id c₁ hfind hown
    have hrowKey := h.keyed hfind (hown ▸ hfound) (by rw [hrow]; exact hpreparable)
    have heq : prepareKey row = prepareKey updated := by
      unfold prepareKey
      rw [hrow, hstate, show row.executionId = updated.executionId from find_key hfound]
    rw [heq] at hrowKey
    exact hrowKey.refuses hfresh
  have hself : find w'.contracts c.contractId = some c := by
    rw [hc]
    exact find_append_self hnew
  refine h.replace hfound he hs ?_ ?_ ?_ ?_
  · refine .of_some hlink hself (hbound.trans hexec.symm) ?_
    rw [hstate, hprepared]
    rcases hpreparable with hp | hp <;> rw [hp] <;> rfl
  · intro id c₁ hne
    rw [hc]
    rcases find_append_cases hnew id with ⟨_, hold, hput⟩ | ⟨_, hput⟩
    · rw [hold, hput]
      constructor
      · intro heq
        cases Option.some.inj heq
        exact absurd (hbound.trans hexec.symm) hne
      · intro heq
        cases heq
    · rw [hput]
  · intro id c₁ hfind hown _
    rw [hc] at hfind
    rcases find_append_cases hnew id with ⟨hcid, _, _⟩ | ⟨_, hput⟩
    · have hcid' : c.contractId = id := hcid
      rw [hlink, hcid']
    · rw [hput] at hfind
      exact absurd hown (hnone id c₁ hfind)
  · intro _ _ _ _ _
    exact ⟨_, outboxRow, by rw [ho]; exact find_append_self hid, hkey⟩

/-- A new execution has no contract yet. -/
theorem PairInv.authorize (h : PairInv w) (hnew : find w.executions x.executionId = none)
    (hlink : x.rollbackContractId = none) (hstate : x.state = .authorized ∨ x.state = .prepared)
    (he : w'.executions = w.executions ++ [x]) (hc : w'.contracts = w.contracts)
    (hs : Stable w w') : PairInv w' where
  distinct := by
    rw [he]
    exact nodup_keys_append h.distinct hnew
  pair := by
    intro e y hy
    rw [he] at hy
    rcases find_append_cases hnew e with ⟨_, _, hput⟩ | ⟨_, hput⟩
    · cases Option.some.inj (hy.symm.trans hput)
      refine .of_none hlink ?_
      rcases hstate with hx | hx <;> rw [hx] <;> rfl
    · rw [hput] at hy
      exact (h.pair hy).frame fun _ _ hfind _ => by rw [hc]; exact hfind
  owner := by
    intro id c hfind
    rw [hc] at hfind
    obtain ⟨y, hy⟩ := h.owner hfind
    exact ⟨y, by rw [he]; exact find_append_of_some hy⟩
  linked := by
    intro id c y hfind hy
    rw [hc] at hfind
    obtain ⟨z, hz⟩ := h.owner hfind
    rw [he, find_append_of_some hz] at hy
    cases Option.some.inj hy
    exact h.linked hfind hz
  keyed := by
    intro id c y hfind hy hpre
    rw [hc] at hfind
    obtain ⟨z, hz⟩ := h.owner hfind
    rw [he, find_append_of_some hz] at hy
    cases Option.some.inj hy
    exact (h.keyed hfind hz hpre).mono hs

end Writes

/-! ## One step -/

section Step

variable {served : Request} {t : Knowledge} {o : Op} {i : Input} {w w' : World}

/-- No operation changes what an outbox record is about. -/
theorem record_identity_step (ht : Trusted w t) (hmay : may served t o) {id : LifecycleOutboxId}
    {row : OutboxRow} (hrow : find w.outbox id = some row) :
    ∃ row', find (o.exec i w).2.outbox id = some row' ∧ SameRecord row.record row'.record := by
  have hread : ∀ old, Saw t (.getOutbox id) (.ok (some old)) → SameRecord row.record old := by
    intro old read
    obtain ⟨row₁, hrow₁, hsame⟩ := ht.record read
    cases Option.some.inj (hrow.symm.trans hrow₁)
    exact hsame.symm
  have hstep := outbox_step (i := i) (w := w) hmay id
  rw [hrow] at hstep
  generalize find (o.exec i w).2.outbox id = row' at hstep ⊢
  generalize (o.exec i w).1 = r at hstep
  cases hstep with
  | same => exact ⟨row, rfl, .refl _⟩
  | edited _ read change => exact ⟨_, rfl, (hread _ read).trans change.sameRecord⟩
  | claimedEdit _ _ _ read change => exact ⟨_, rfl, (hread _ read).trans change.sameRecord⟩
  | leased => exact ⟨_, rfl, .refl _⟩
  | renewed => exact ⟨_, rfl, .refl _⟩

/-- A transition writes a row that the process read, with what it was authorized for. -/
theorem Transition.sameExecution {name : TransitionName} {x' : ExecutionRecord}
    {c c' : Option RollbackContract} {kinds : List ProvenanceEventKind}
    (h : Transition t name x x' c c' kinds) : ∃ y, ReadExecution t y ∧ SameExecution x' y := by
  cases h with
  | prepare read => exact ⟨_, read, rfl, rfl, rfl, rfl⟩
  | execute claimed => exact ⟨_, claimed.checked.pair.execution, rfl, rfl, rfl, rfl⟩
  | executeRecovery claimed => exact ⟨_, claimed.checked.pair.execution, rfl, rfl, rfl, rfl⟩
  | verify pair => exact ⟨_, pair.execution, rfl, rfl, rfl, rfl⟩
  | verifyRecovery _ pair => exact ⟨_, pair.execution, rfl, rfl, rfl, rfl⟩
  | commit pair => exact ⟨_, pair.execution, rfl, rfl, rfl, rfl⟩
  | compensate pair => exact ⟨_, pair.execution, rfl, rfl, rfl, rfl⟩
  | cancel read => exact ⟨_, read, rfl, rfl, rfl, rfl⟩
  | haRecovery pair => exact ⟨_, pair.execution, rfl, rfl, rfl, rfl⟩

/-- No operation changes what an execution was authorized for. -/
theorem execution_identity_step (ht : Trusted w t) (hmay : may served t o) {e : ExecutionId}
    (hx : find w.executions e = some x) :
    ∃ x', find (o.exec i w).2.executions e = some x' ∧ SameExecution x' x := by
  have hstep := execution_step (i := i) (w := w) hmay e
  rw [hx] at hstep
  generalize find (o.exec i w).2.executions e = row' at hstep ⊢
  generalize (o.exec i w).1 = r at hstep
  cases hstep with
  | same => exact ⟨x, rfl, rfl, rfl, rfl, rfl⟩
  | claimed => exact ⟨_, rfl, rfl, rfl, rfl, rfl⟩
  | canceled => exact ⟨_, rfl, rfl, rfl, rfl, rfl⟩
  | @transition _ x' _ _ hid hwrite =>
    obtain ⟨_, _, _, _, _, -, htransition, -, -⟩ := hwrite
    obtain ⟨y, hread, hsame⟩ := htransition.sameExecution
    obtain ⟨w₁, _, hstable, hy⟩ := ht.execution hread
    obtain ⟨z, hz, hzy⟩ := hstable.executions hy
    rw [← hsame.1, hid, hx] at hz
    cases Option.some.inj hz
    exact ⟨x', rfl, hsame.trans hzy.symm⟩

/-- No operation changes the owner of a contract. -/
theorem contract_owner_step (ht : Trusted w t) (hmay : may served t o)
    (hc : find w.contracts id = some c) :
    ∃ c', find (o.exec i w).2.contracts id = some c' ∧ c'.executionId = c.executionId := by
  have hcontract := contract_step (i := i) (w := w) hmay id
  rw [hc] at hcontract
  generalize find (o.exec i w).2.contracts id = row' at hcontract ⊢
  generalize (o.exec i w).1 = r at hcontract
  cases hcontract with
  | same => exact ⟨c, rfl, rfl⟩
  | @updated _ _ c' _ hid hwrite hprevious =>
    obtain ⟨_, _, c₀, _, _, -, htransition, -, houtbox⟩ := hwrite
    cases htransition.shape with
    | prepare _ _ _ _ _ hnone =>
      rw [houtbox, hnone] at hprevious
      cases hprevious
    | pair hstep =>
      obtain ⟨c₂, hfind₂, hown₂, hown⟩ := ht.pair hstep.read
      rw [← hstep.contract, hid, hc] at hfind₂
      cases Option.some.inj hfind₂
      exact ⟨c', rfl, hstep.owner.trans (hown.trans hown₂.symm)⟩

/-- No operation moves the expiry of a capability or what it is for, or makes it `Active` again. -/
theorem capability_lasting_step (ht : Trusted w t) (hmay : may served t o) {id : CapabilityId}
    (hlease : find w.capabilities id = some lease) :
    ∃ lease', find (o.exec i w).2.capabilities id = some lease' ∧ LaterLease lease lease' := by
  have hstep := capability_step (i := i) (w := w) hmay id
  rw [hlease] at hstep
  generalize find (o.exec i w).2.capabilities id = row' at hstep ⊢
  generalize (o.exec i w).1 = r at hstep
  cases hstep with
  | same => exact ⟨lease, rfl, .refl _⟩
  | consumed => exact ⟨_, rfl, rfl, rfl, rfl, fun _ hs => by cases hs⟩
  | markedUsed => exact ⟨_, rfl, rfl, rfl, rfl, fun _ hs => by cases hs⟩
  | revoked => exact ⟨_, rfl, rfl, rfl, rfl, fun _ hs => by cases hs⟩
  | overwritten _ read =>
    obtain ⟨stored, hstored, hlater⟩ := ht.capability read
    cases Option.some.inj (hlease.symm.trans hstored)
    exact ⟨_, rfl, hlater.expiresAt.symm, hlater.intentId.symm, hlater.proposalId.symm,
      fun _ hs => by cases hs⟩

theorem stable_step (ht : Trusted w t) (hmay : may served t o) : Stable w (o.exec i w).2 where
  contracts := contract_owner_step ht hmay
  records := record_identity_step ht hmay
  executions := execution_identity_step ht hmay
  proposals := proposal_step
  capabilities := capability_lasting_step ht hmay
  events := event_step

/-- A new execution is `Authorized` or `Prepared`, and links to no contract. -/
theorem AuthorizationWrite.execution_new {now : Timestamp}
    (h : AuthorizationWrite served t (.recordAuthorization lease x outbox now)) :
    x.rollbackContractId = none ∧ (x.state = .authorized ∨ x.state = .prepared) := by
  obtain ⟨_, request, _, _, _, _, -, -, -, -, rfl, rfl⟩ := h.inv
  refine ⟨rfl, ?_⟩
  cases hdry : request.dryRun <;> simp [authorizedExecution, hdry]

/-- The two compare-and-sets. -/
theorem PairInv.compareAndSet (h : PairInv w) (ht : Trusted w t) {id : ExecutionId}
    {expected : List ExecutionState} {new : ExecutionState} {now : Timestamp}
    {row : ExecutionRecord} (hmay : StateWrite served t (.compareAndSetState id expected new now))
    (found : find w.executions id = some row) (mem : row.state ∈ expected)
    (he : w'.executions = put w.executions { row with
      state := new
      finishedAt := if executionStateIsTerminal new then some now else row.finishedAt })
    (hc : w'.contracts = w.contracts) (hs : Stable w w') : PairInv w' := by
  have hkey : row.executionId = id := find_key found
  subst hkey
  rcases hmay.cases with ⟨claim, checked, hclaim, rfl, rfl, rfl⟩ | ⟨y, _, _, _, hcan, rfl, rfl⟩
  · obtain ⟨c, hfind, hown, _⟩ := ht.pair checked.pair
    have hpre : row.state.preClaim = true := by
      simp only [List.mem_cons, List.not_mem_nil, or_false] at mem
      rcases mem with hs | hs | hs <;> rw [hs] <;> rfl
    exact h.claim found hpre hfind (hown.trans hclaim) he hc hs
  · have hstate : row.state = y.state := List.mem_singleton.mp mem
    refine h.cancel he found (hstate ▸ hcan) rfl ?_ hc hs
    intro id hlink
    obtain ⟨c, hfind, hown, _⟩ := (h.pair found).contract hlink
    exact ⟨c, hfind, hown⟩

/-- The transaction of a lifecycle transition. -/
theorem PairInv.transition (h : PairInv w) (ht : Trusted w t) {row : ExecutionRecord}
    {contract : Option RollbackContract} {contracts : List RollbackContract}
    (hmay : TransitionWrite served t x contract outbox)
    (previous : outbox.previousExecutionState = some row.state)
    (valid : isValidExecutionTransition row.state x.state = true)
    (found : find w.executions x.executionId = some row)
    (contractWrite : ContractWrite { w with executions := put w.executions x } outbox contract
      contracts) (newKey : ∀ r ∈ w.outbox, r.record.idempotencyKey ≠ outbox.idempotencyKey)
    (newId : find w.outbox outbox.outboxId = none) (he : w'.executions = put w.executions x)
    (hc : w'.contracts = contracts) (ho : w'.outbox = w.outbox ++ [.fresh outbox])
    (hs : Stable w w') : PairInv w' := by
  obtain ⟨name, x₀, c₀, kinds, now, -, htransition, -, houtbox⟩ := hmay
  have hrow : row.state = x₀.state := by
    rw [houtbox] at previous
    exact (Option.some.inj previous).symm
  have hprevious : outbox.previousRollbackState = c₀.map (·.state) := by
    rw [houtbox]
    rfl
  cases htransition.shape with
  | @prepare c hname hpreparable hbound hprepared hupdated hnone =>
    cases contractWrite with
    | update hprev _ _ =>
      rw [hprevious, hnone] at hprev
      cases hprev
    | insert _ hnew _ =>
      have hkey : outbox.idempotencyKey = prepareKey x := by
        rw [houtbox, hname]
        exact congrArg (IdempotencyKey.transition .prepare x.executionId x.state <| some ·) hprepared
      exact h.prepare hupdated found hrow hpreparable hbound hprepared hnew (hkey ▸ newKey) hkey
        newId he hc ho hs
  | cancel hread hcancelable hexecution hlink hcanceled =>
    cases contractWrite with
    | none =>
      refine h.cancel he found (hrow ▸ hcancelable) hcanceled ?_ hc hs
      intro id hid
      rw [hlink] at hid
      rw [hexecution]
      exact ht.linked hread hid
  | @pair x₁ c c' hstep =>
    cases contractWrite with
    | @update _ stored hprev hstored _ =>
      have hexpected : stored.state = c.state := by
        rw [hprevious, hstep.expected] at hprev
        exact (Option.some.inj hprev).symm
      exact h.pairStep ht hstep found hrow valid hstored hexpected he hc hs
    | insert hprev _ _ =>
      rw [hprevious, hstep.expected] at hprev
      cases hprev

/-- **What one step keeps.** -/
theorem pairInv_step (h : PairInv w) (ht : Trusted w t) (hmay : may served t o) :
    PairInv (o.exec i w).2 := by
  rcases exec_effect o i w with ⟨_, hw⟩ | ⟨_, hq⟩
  · have hs := stable_step (i := i) ht hmay
    generalize (o.exec i w).2 = w' at hw hs ⊢
    generalize (o.exec i w).1 = r at hw
    cases hw with
    | compareAndSetState found mem => exact h.compareAndSet ht hmay found mem rfl rfl hs
    | recordLifecycleTransition previous valid found contractWrite newKey newId =>
      exact h.transition ht hmay previous valid found contractWrite newKey newId rfl rfl rfl hs
    | recordAuthorization _ _ _ new _ _ =>
      obtain ⟨hlink, hstate⟩ := AuthorizationWrite.execution_new hmay
      exact h.authorize new hlink hstate rfl rfl hs
    | claimPendingReconciliation =>
      rw [World.claimPendingReconciliation_eq] at hs ⊢
      exact h.frame rfl rfl hs
    | _ => exact h.frame rfl rfl hs
  · rw [hq]
    exact h

end Step

/-- The invariant holds along every run, and what a process has read stays trusted. -/
theorem pairInv_of_conforms {requests : Nat → Request} {log : GatewayLog}
    (h : Conforms requests {} log w) : PairInv w ∧ ∀ p, Trusted w (own p log) := by
  have hhistory := Behaviour.history (fun _ => PairInv) Stable Stable.refl Stable.trans .empty
    (fun {log w} p o i _ hinv hseen hmay => by
      have htrusted : Trusted w (own p log) := fun x hx =>
        (hseen _ (mem_own.mp hx)).imp fun _ _ h => h.2
      exact ⟨pairInv_step hinv htrusted hmay, stable_step htrusted hmay⟩) h
  exact ⟨hhistory.1, fun p x hx => (hhistory.2.2 _ (mem_own.mp hx)).imp fun _ _ h => h.2⟩

/-- **The stored pair is always one of the list, and a terminal state never changes**: in every
run of the gateway from the empty store. -/
theorem pair_allowed_along_runs (state : AppState) (requests : Nat → Request) (s₁ s₂ : Schedule)
    (e : ExecutionId) :
    (∀ x, find (run state requests {} s₁).world.executions e = some x →
      PairOk (run state requests {} s₁).world x) ∧
    ∀ s, executionStateIsTerminal s = true →
      (run state requests {} s₁).world.executionState e = some s →
      (run state requests {} (s₁ ++ s₂)).world.executionState e = some s := by
  refine ⟨fun x hx => (pairInv_of_conforms (run_conforms state requests {} s₁)).1.pair hx, ?_⟩
  intro s hterminal hs
  exact run_preserves (P := fun _ w => w.executionState e = some s)
    (fun _ _ _ _ hmay h => terminal_step hmay hterminal h) s₁ s₂ hs

end FerrumGate
