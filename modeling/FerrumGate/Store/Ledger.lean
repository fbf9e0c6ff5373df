import Mathlib.Data.List.Chain
import FerrumGate.Store.World

/-!
# The ledger

`verify_chain` of `ferrum-store/src/sqlite/ledger.rs` goes through the entries in the order of their
ids and carries the content hash of the entry before. The loop takes an entry for the first one
whenever it carries none, and it carries none after an entry without a content hash too.

* `verifyFrom_ok` : what the loop accepts.
* **`chainLaw_iff`** : which of the accepted ledgers keep the law of the doc comment.
* `chain_without_hashes` : a ledger that is accepted and does not.
-/

namespace FerrumGate.Ledger

/-- The columns of `ledger_entries` that are selected. -/
structure LedgerRow where
  entryId : Int
  contentHash : Option String
  previousLedgerHash : Option String
  deriving DecidableEq

/-- The table, in the order of its primary key. -/
structure LedgerEntries where
  rows : List LedgerRow
  ascending : rows.Pairwise fun before after => before.entryId < after.entryId

/-- The checks on one entry. -/
def verifyRow (priorContentHash : Option String) (row : LedgerRow) : Except StoreError Unit :=
  match priorContentHash with
  | none =>
    if row.previousLedgerHash.isSome then
      .error (.invalidState
        s!"ledger entry {row.entryId} has previous_ledger_hash but is the genesis entry")
    else .ok ()
  | some prior =>
    match row.previousLedgerHash with
    | none => .error (.invalidState
        s!"ledger entry {row.entryId} is missing previous_ledger_hash")
    | some previous =>
      if previous ≠ prior then
        .error (.invalidState (s!"ledger entry {row.entryId} has broken chain: " ++
          s!"previous_ledger_hash '{previous}' != prior content_hash '{prior}'"))
      else .ok ()

/-- What is carried to the next entry. -/
def nextPrior (priorContentHash : Option String) (row : LedgerRow) : Option String :=
  match row.contentHash with
  | some hash => some hash
  | none => if priorContentHash.isSome then none else priorContentHash

/-- The loop. -/
def verifyFrom (priorContentHash : Option String) : List LedgerRow → Except StoreError Unit
  | [] => .ok ()
  | row :: rows =>
    match verifyRow priorContentHash row with
    | .error e => .error e
    | .ok () => verifyFrom (nextPrior priorContentHash row) rows

/-- **`verify_chain`**. -/
def verifyChain (ledger : LedgerEntries) : Except StoreError Unit := verifyFrom none ledger.rows

/-- The law of the doc comment: the first entry names no hash, and every other one has a content
hash and names that of the entry before it. -/
def ChainLaw (ledger : LedgerEntries) : Prop :=
  (∀ first ∈ ledger.rows.head?, first.previousLedgerHash = none) ∧
    ∀ rows before after rest, ledger.rows = rows ++ before :: after :: rest →
      after.contentHash.isSome ∧ after.previousLedgerHash.isSome ∧
        after.previousLedgerHash = before.contentHash

/-! ## What is accepted -/

variable {prior : Option String} {row : LedgerRow} {rows : List LedgerRow}

theorem nextPrior_eq : nextPrior prior row = row.contentHash := by
  unfold nextPrior
  cases row.contentHash <;> cases prior <;> rfl

theorem verifyRow_ok : verifyRow prior row = .ok () ↔ row.previousLedgerHash = prior := by
  unfold verifyRow
  cases prior <;> cases row.previousLedgerHash <;> simp

/-- An entry names what the loop carries: what the one before it has, even if that is none. -/
theorem verifyFrom_ok : verifyFrom prior rows = .ok () ↔
    (∀ first ∈ rows.head?, first.previousLedgerHash = prior) ∧
      rows.IsChain fun before after => after.previousLedgerHash = before.contentHash := by
  induction rows generalizing prior with
  | nil => simp [verifyFrom]
  | cons row rows ih =>
    have hstep : verifyFrom prior (row :: rows) = .ok () ↔
        verifyRow prior row = .ok () ∧ verifyFrom (nextPrior prior row) rows = .ok () := by
      rw [verifyFrom]
      cases verifyRow prior row <;> simp
    rw [hstep, verifyRow_ok, nextPrior_eq, ih, List.isChain_cons]
    simp

/-- **The accepted ledgers that keep the law**: those with at most one entry, and those with a
content hash in every entry. -/
theorem chainLaw_iff (ledger : LedgerEntries) (h : verifyChain ledger = .ok ()) :
    ChainLaw ledger ↔
      ledger.rows.length ≤ 1 ∨ ∀ row ∈ ledger.rows, row.contentHash.isSome := by
  obtain ⟨hfirst, hchain⟩ := verifyFrom_ok.mp h
  constructor
  · rintro ⟨-, hlaw⟩
    rw [or_iff_not_imp_left, Nat.not_le]
    intro hlength row hrow
    obtain ⟨front, back, hsplit⟩ := List.append_of_mem hrow
    -- an entry has one before it or, being the first of several, one after it
    rcases List.eq_nil_or_concat front with rfl | ⟨front, before, rfl⟩
    · cases back with
      | nil => simp [hsplit] at hlength
      | cons after rest =>
        obtain ⟨-, hnamed, heq⟩ := hlaw [] row after rest hsplit
        rwa [← heq]
    · exact (hlaw front before row back (by simpa using hsplit)).1
  · intro hhashes
    refine ⟨hfirst, fun front before after rest hsplit => ?_⟩
    have hnamed : after.previousLedgerHash = before.contentHash := by
      rw [hsplit] at hchain
      exact (List.isChain_append_cons_cons.mp hchain).2.1
    have hall : ∀ row ∈ ledger.rows, row.contentHash.isSome := by
      refine hhashes.resolve_left fun hlength => ?_
      simp only [hsplit, List.length_append, List.length_cons] at hlength
      omega
    refine ⟨hall after (by simp [hsplit]), ?_, hnamed⟩
    rw [hnamed]
    exact hall before (by simp [hsplit])

/-- Two entries. -/
def Sample.pair (first second : LedgerRow) (h : first.entryId < second.entryId) : LedgerEntries :=
  ⟨[first, second], by simpa using h⟩

/-- A ledger that keeps the law. -/
theorem chainLaw_of_hashes :
    ChainLaw (Sample.pair ⟨1, some "a", none⟩ ⟨2, some "b", some "a"⟩ (by decide)) :=
  (chainLaw_iff (Sample.pair ⟨1, some "a", none⟩ ⟨2, some "b", some "a"⟩ (by decide))
    (by decide)).mpr (.inr (by decide))

/-- **A chain of entries without hashes.** No entry says which one it follows, and the ledger is
accepted. -/
theorem chain_without_hashes :
    verifyChain (Sample.pair ⟨1, none, none⟩ ⟨2, none, none⟩ (by decide)) = .ok () ∧
      ¬ ChainLaw (Sample.pair ⟨1, none, none⟩ ⟨2, none, none⟩ (by decide)) := by
  refine ⟨by decide, fun h => ?_⟩
  have hsecond := (h.2 [] ⟨1, none, none⟩ ⟨2, none, none⟩ [] rfl).1
  cases hsecond

end FerrumGate.Ledger
