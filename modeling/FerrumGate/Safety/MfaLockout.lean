import FerrumGate.Store.Mfa

/-!
# Factors and lockouts as the store keeps them

* **`activate_all_or_nothing_iff`** : an activation that is refused leaves every row as it was
  exactly when there was no other active factor to revoke.
* **`lockout_automaton`** : when an agent is locked, and what `lockout_count` counts, over every
  history of failures and resets.
-/

namespace FerrumGate.Mfa

open Interleave

/-! ## Activation -/

/-- The rows of `mfa_credentials`, with their primary key. -/
structure FactorTable where
  rows : List MfaCredentialRecord
  keys : (rows.map (·.mfaFactorId)).Nodup

/-- All or nothing: refused, nothing has changed; granted, the factor is the agent's only active
one. -/
def AllOrNothing (id : MfaFactorId) (now : Timestamp) (rows : List MfaCredentialRecord) : Prop :=
  ((activate id now rows).1 = false → (activate id now rows).2 = rows) ∧
  ((activate id now rows).1 = true → ∃ factor ∈ (activate id now rows).2,
    factor.mfaFactorId = id ∧ factor.isActive ∧ ∀ other ∈ (activate id now rows).2,
      other.agentId = factor.agentId → other.isActive → other = factor)

/-- The other active factors of a factor's agent. -/
def Rival (factor other : MfaCredentialRecord) : Prop :=
  other.agentId = factor.agentId ∧ other.mfaFactorId ≠ factor.mfaFactorId ∧ other.isActive = true

instance (factor other : MfaCredentialRecord) : Decidable (Rival factor other) :=
  inferInstanceAs (Decidable (_ ∧ _))

/-- What the activation of `factor` does to a row. -/
def activated (factor : MfaCredentialRecord) (now : Timestamp) (r : MfaCredentialRecord) :
    MfaCredentialRecord :=
  if Rival factor r then { r with status := .inactive, revokedAt := some now }
  else if r.mfaFactorId = factor.mfaFactorId ∧ r.isPending then
    { r with status := .active, verifiedAt := some now }
  else r

theorem FactorTable.eq_of_key (table : FactorTable) {r r' : MfaCredentialRecord}
    (hr : r ∈ table.rows) (hr' : r' ∈ table.rows) (hkey : r.mfaFactorId = r'.mfaFactorId) :
    r = r' :=
  List.inj_on_of_nodup_map table.keys hr hr' hkey

theorem activate_eq {table : FactorTable} {factor : MfaCredentialRecord}
    (hfactor : factor ∈ table.rows) (now : Timestamp) :
    activate factor.mfaFactorId now table.rows =
      (factor.isPending, table.rows.map (activated factor now)) := by
  have hfind : Rows.find table.rows factor.mfaFactorId = some factor := by
    cases h : Rows.find table.rows factor.mfaFactorId with
    | none => exact absurd rfl (Rows.find_eq_none.mp h factor hfactor)
    | some r => rw [table.eq_of_key (Rows.mem_of_find h) hfactor (Rows.find_key h)]
  simp only [activate, update, hfind, Option.map_some, Option.some.injEq, List.map_map,
    List.any_map]
  refine Prod.ext (Bool.eq_iff_iff.mpr ?_) (List.map_congr_left fun r hr => ?_)
  · rw [List.any_eq_true]
    constructor
    · rintro ⟨r, hr, h⟩
      by_cases hid : r.mfaFactorId = factor.mfaFactorId
      · cases table.eq_of_key hr hfactor hid
        simpa using h
      · simp only [Function.comp_apply, decide_eq_true_eq] at h
        split_ifs at h <;> exact absurd h.1 hid
    · intro h
      exact ⟨factor, hfactor, by simpa using h⟩
  · by_cases hrival : Rival factor r
    · obtain ⟨hagent, hid, hactive⟩ := hrival
      simp [activated, Rival, hagent, hid, hactive]
    · have hsame : ¬ (r.agentId = factor.agentId ∧ r.mfaFactorId ≠ factor.mfaFactorId ∧
        r.isActive = true) := hrival
      simp only [activated, if_neg hrival, Function.comp_apply, decide_eq_true_eq, if_neg hsame]

/-- **When an activation is all or nothing**: the factor is not stored, is pending, or has no rival
that the first update would have revoked. -/
theorem activate_all_or_nothing_iff (table : FactorTable) (id : MfaFactorId) (now : Timestamp) :
    AllOrNothing id now table.rows ↔ ∀ factor ∈ table.rows, factor.mfaFactorId = id →
      factor.isPending = true ∨ ∀ other ∈ table.rows, ¬ Rival factor other := by
  by_cases hstored : ∃ factor ∈ table.rows, factor.mfaFactorId = id
  · obtain ⟨factor, hfactor, rfl⟩ := hstored
    have hiff : (∀ factor' ∈ table.rows, factor'.mfaFactorId = factor.mfaFactorId →
        factor'.isPending = true ∨ ∀ other ∈ table.rows, ¬ Rival factor' other) ↔
          (factor.isPending = true ∨ ∀ other ∈ table.rows, ¬ Rival factor other) := by
      constructor
      · exact fun h => h factor hfactor rfl
      · intro h factor' hfactor' hid
        rwa [table.eq_of_key hfactor' hfactor hid]
    rw [hiff, AllOrNothing, activate_eq hfactor]
    cases hpending : factor.isPending with
    | true =>
      refine iff_of_true ⟨by simp, fun _ => ?_⟩ (.inl rfl)
      have hself : activated factor now factor =
          { factor with status := .active, verifiedAt := some now } := by
        simp [activated, Rival, hpending]
      have hopen : factor.revokedAt = none := by
        simp only [MfaCredentialRecord.isPending, decide_eq_true_eq] at hpending
        exact hpending.2
      refine ⟨activated factor now factor, List.mem_map_of_mem hfactor, by rw [hself],
        by simp [hself, MfaCredentialRecord.isActive, hopen], fun other hother hagent hactive => ?_⟩
      obtain ⟨r, hr, rfl⟩ := List.mem_map.mp hother
      by_cases hid : r.mfaFactorId = factor.mfaFactorId
      · rw [table.eq_of_key hr hfactor hid]
      · by_cases hrival : Rival factor r
        · simp [activated, hrival, MfaCredentialRecord.isActive] at hactive
        · have hsame : activated factor now r = r := by simp [activated, hrival, hid]
          rw [hsame] at hagent hactive
          rw [hself] at hagent
          exact absurd ⟨hagent, hid, hactive⟩ hrival
    | false =>
      have hmap : table.rows.map (activated factor now) = table.rows ↔
          ∀ r ∈ table.rows, activated factor now r = r := by
        conv_lhs => rhs; rw [← List.map_id table.rows]
        exact List.map_inj_left
      simp only [true_imp_iff, Bool.false_eq_true, false_imp_iff, and_true, false_or, hmap]
      refine forall₂_congr fun r hr => ?_
      by_cases hrival : Rival factor r
      · refine iff_of_false (fun h => ?_) (not_not_intro hrival)
        have hinactive : (activated factor now r).isActive = false := by
          simp [activated, hrival, MfaCredentialRecord.isActive]
        rw [h, hrival.2.2] at hinactive
        cases hinactive
      · refine iff_of_true ?_ hrival
        by_cases hid : r.mfaFactorId = factor.mfaFactorId
        · rw [table.eq_of_key hr hfactor hid]
          simp [activated, Rival, hpending]
        · simp [activated, hrival, hid]
  · have hnone : ∀ r ∈ table.rows, r.mfaFactorId ≠ id := fun r hr h => hstored ⟨r, hr, h⟩
    have hactivate : activate id now table.rows = (false, table.rows) := by
      have hsame : ∀ r ∈ table.rows, (decide (r.mfaFactorId = id ∧ r.isPending = true)) = false :=
        fun r hr => by simp [hnone r hr]
      simp only [activate, update, Rows.find_eq_none.mpr hnone, Option.map_none, reduceCtorEq,
        false_and, decide_false, Bool.false_eq_true, if_false, List.map_id']
      refine Prod.ext ?_ ?_
      · rw [List.any_eq_false]
        exact fun r hr => by simp [hnone r hr]
      · conv_rhs => rw [← List.map_id table.rows]
        exact List.map_congr_left fun r hr => by simp [hnone r hr]
    refine iff_of_true ?_ fun factor hfactor hid => absurd hid (hnone factor hfactor)
    simp [AllOrNothing, hactivate]

namespace FactorSample

def factor (uuid : Nat) (status : MfaFactorStatus) : MfaCredentialRecord :=
  ⟨⟨uuid⟩, "agent", status, "", "", 0, none, none, none, 0, none, 0⟩

end FactorSample

open FactorSample in
/-- A factor that is no longer pending is not activated, and the active one is revoked all the same:
the agent is left without a factor. -/
theorem activate_revokes_the_other :
    activate ⟨1⟩ 7 [factor 1 .inactive, factor 2 .active] =
      (false, [factor 1 .inactive, { factor 2 .inactive with revokedAt := some 7 }]) := by
  decide

/-! ## The lockout automaton -/

inductive LockoutEvent where
  | failure (time : Timestamp)
  | reset (time : Timestamp)

def LockoutEvent.time : LockoutEvent → Timestamp
  | .failure time | .reset time => time

def LockoutEvent.isReset : LockoutEvent → Bool
  | .failure _ => false
  | .reset _ => true

section Automaton

variable (p : LockoutPolicy) (agentId : String)

/-- The row of the agent after a history, newest event first. -/
def rowAfter : List LockoutEvent → Option MfaAgentLockoutRecord
  | [] => none
  | .failure s :: older =>
    some (failedAttempt agentId p.maxAttempts p.durationSecs s (rowAfter older))
  | .reset _ :: older => (rowAfter older).map (·.cleared)

/-- The failures counted since the last reset or lock expiry: those since the last failure that left
the agent locked, for a failure that comes while it is not locked comes after that lock. -/
def tally : List LockoutEvent → Nat
  | [] => 0
  | .failure s :: older =>
    if lockedAt (rowAfter p agentId (.failure s :: older)) s then 0 else tally older + 1
  | .reset _ :: _ => 0

/-- The changes from unlocked to locked. -/
def lockChanges : List LockoutEvent → Nat
  | [] => 0
  | .failure s :: older =>
    if lockedAt (rowAfter p agentId older) s = false ∧
      lockedAt (rowAfter p agentId (.failure s :: older)) s then lockChanges older + 1
    else lockChanges older
  | .reset _ :: older => lockChanges older

/-- A failure at `s` after this history locks the agent: it is the last one that is allowed, or the
agent is locked. -/
def Locks (older : List LockoutEvent) (s : Timestamp) : Prop :=
  tally p agentId older + 1 = p.maxAttempts ∨ lockedAt (rowAfter p agentId older) s = true

instance (older : List LockoutEvent) (s : Timestamp) : Decidable (Locks p agentId older s) :=
  inferInstanceAs (Decidable (_ ∨ _))

/-- `lockout_count`; without a row there was no lock. -/
def lockoutCount (row : Option MfaAgentLockoutRecord) : Nat := row.elim 0 (·.lockoutCount)

/-- The failures a row counts; a lock that has expired starts the count again. -/
def counting (row : Option MfaAgentLockoutRecord) : Nat :=
  row.elim 0 fun r => if r.lockedUntil.isSome then 0 else r.failedAttempts

/-- The row counts what the history says, and never as many as lock the agent. -/
def Agrees (history : List LockoutEvent) : Prop :=
  counting (rowAfter p agentId history) = tally p agentId history ∧
    tally p agentId history < p.maxAttempts

variable {p agentId} {older : List LockoutEvent}

theorem failedAttempt_of_locked {row : Option MfaAgentLockoutRecord} {s : Timestamp}
    (h : lockedAt row s = true) (agentId : String) (maxAttempts durationSecs : Nat) :
    ∃ failed, failedAttempt agentId maxAttempts durationSecs s row =
      ⟨agentId, failed, some (lockEnd s durationSecs), lockoutCount row⟩ := by
  cases row with
  | none => cases h
  | some row =>
    refine ⟨row.failedAttempts + 1, ?_⟩
    rw [failedAttempt, if_pos h]
    rfl

theorem failedAttempt_of_unlocked {row : Option MfaAgentLockoutRecord} {s : Timestamp}
    (h : lockedAt row s = false) (maxAttempts durationSecs : Nat) :
    failedAttempt agentId maxAttempts durationSecs s row =
      counted agentId maxAttempts durationSecs s (counting row + 1) (lockoutCount row) := by
  cases row with
  | none => rfl
  | some row =>
    simp only [failedAttempt, h, Bool.false_eq_true, if_false, counting, lockoutCount,
      Option.elim_some]
    by_cases hexpired : row.lockedUntil.isSome = true
    · rw [if_pos hexpired, if_pos hexpired]
    · rw [if_neg hexpired, if_neg hexpired]

/-- One failure: the row that `failedAttempt` leaves, in terms of the history. -/
theorem Agrees.failure (h : Agrees p agentId older) (s : Timestamp) :
    ∃ failed, rowAfter p agentId (.failure s :: older) = some
      ⟨agentId, failed, if Locks p agentId older s then some (lockEnd s p.durationSecs) else none,
        if lockedAt (rowAfter p agentId older) s = false ∧
            tally p agentId older + 1 = p.maxAttempts then
          lockoutCount (rowAfter p agentId older) + 1
        else lockoutCount (rowAfter p agentId older)⟩ ∧
      (¬ Locks p agentId older s → failed = tally p agentId older + 1) := by
  obtain ⟨hcounting, hlt⟩ := h
  cases hlocked : lockedAt (rowAfter p agentId older) s with
  | true =>
    have hlocks : Locks p agentId older s := .inr hlocked
    obtain ⟨failed, hrow⟩ := failedAttempt_of_locked hlocked agentId p.maxAttempts p.durationSecs
    exact ⟨failed, by simp [rowAfter, hrow, hlocks], fun h => absurd hlocks h⟩
  | false =>
    have hlocks : Locks p agentId older s ↔ tally p agentId older + 1 = p.maxAttempts := by
      simp [Locks, hlocked]
    refine ⟨tally p agentId older + 1, ?_, fun _ => rfl⟩
    rw [rowAfter, failedAttempt_of_unlocked hlocked, hcounting, counted]
    by_cases hlast : p.maxAttempts ≤ tally p agentId older + 1
    · have heq : tally p agentId older + 1 = p.maxAttempts := by omega
      simp [hlocks, heq]
    · have hne : tally p agentId older + 1 ≠ p.maxAttempts := by omega
      simp [hlocks, hlast, hne]

theorem Agrees.lockedAt_failure (h : Agrees p agentId older) (s t : Timestamp) :
    lockedAt (rowAfter p agentId (.failure s :: older)) t = true ↔
      Locks p agentId older s ∧ t < lockEnd s p.durationSecs := by
  obtain ⟨failed, hrow, -⟩ := h.failure s
  rw [hrow, lockedAt_iff]
  by_cases hlocks : Locks p agentId older s
  · simp [hlocks]
  · simp [hlocks]

variable (p agentId)

theorem agrees (history : List LockoutEvent) : Agrees p agentId history := by
  induction history with
  | nil => exact ⟨rfl, p.attempts⟩
  | cons event older ih =>
    cases event with
    | reset time =>
      refine ⟨?_, p.attempts⟩
      cases h : rowAfter p agentId older <;>
        simp [rowAfter, tally, h, counting, MfaAgentLockoutRecord.cleared]
    | failure s =>
      have hlock := ih.lockedAt_failure s s
      obtain ⟨failed, hrow, hfailed⟩ := ih.failure s
      unfold Agrees
      by_cases hlocks : Locks p agentId older s
      · rw [tally, if_pos (hlock.mpr ⟨hlocks, lt_lockEnd s p.duration⟩), hrow]
        exact ⟨by simp [counting, hlocks], p.attempts⟩
      · have hlt : tally p agentId older + 1 < p.maxAttempts := by
          have hne : tally p agentId older + 1 ≠ p.maxAttempts := fun h => hlocks (.inl h)
          have := ih.2
          omega
        rw [tally, if_neg fun h => hlocks (hlock.mp h).1, hrow]
        exact ⟨by simp [counting, hlocks, hfailed hlocks], hlt⟩

theorem lockoutCount_eq (history : List LockoutEvent) :
    lockoutCount (rowAfter p agentId history) = lockChanges p agentId history := by
  induction history with
  | nil => rfl
  | cons event older ih =>
    cases event with
    | reset time =>
      rw [lockChanges, ← ih]
      cases h : rowAfter p agentId older <;>
        simp [rowAfter, h, lockoutCount, MfaAgentLockoutRecord.cleared]
    | failure s =>
      have hlock := (agrees p agentId older).lockedAt_failure s s
      obtain ⟨failed, hrow, -⟩ := (agrees p agentId older).failure s
      have hiff : (lockedAt (rowAfter p agentId older) s = false ∧
          lockedAt (rowAfter p agentId (.failure s :: older)) s = true) ↔
            (lockedAt (rowAfter p agentId older) s = false ∧
              tally p agentId older + 1 = p.maxAttempts) := by
        refine and_congr_right fun hopen => ?_
        rw [hlock]
        simp [Locks, hopen, lt_lockEnd s p.duration]
      simp only [lockChanges, hiff, ← ih]
      rw [hrow]
      rfl

/-- Some failure since the last reset locked the agent until after `t`. -/
def LockingFailure (history : List LockoutEvent) (t : Timestamp) : Prop :=
  ∃ newer s older, history = newer ++ .failure s :: older ∧ (∀ e ∈ newer, e.isReset = false) ∧
    Locks p agentId older s ∧ t < lockEnd s p.durationSecs

/-- **The lockout automaton**: over every history in the order of time, an agent is locked exactly
when a failure that no reset has followed locked it until then; `lockout_count` is the number of
changes from unlocked to locked, and no event lowers it. -/
theorem lockout_automaton (history : List LockoutEvent)
    (horder : (history.map LockoutEvent.time).Pairwise (· ≥ ·)) :
    (∀ t, (∀ e ∈ history, e.time ≤ t) →
      (lockedAt (rowAfter p agentId history) t = true ↔ LockingFailure p agentId history t)) ∧
    lockoutCount (rowAfter p agentId history) = lockChanges p agentId history ∧
    ∀ event, lockoutCount (rowAfter p agentId history) ≤
      lockoutCount (rowAfter p agentId (event :: history)) := by
  refine ⟨?_, lockoutCount_eq p agentId history, fun event => ?_⟩
  · induction history with
    | nil =>
      intro t _
      refine iff_of_false (by simp [rowAfter, lockedAt]) ?_
      rintro ⟨newer, s, older, h, -⟩
      simp at h
    | cons event older ih =>
      rw [List.map_cons, List.pairwise_cons] at horder
      intro t ht
      cases event with
      | reset time =>
        refine iff_of_false ?_ ?_
        · cases h : rowAfter p agentId older <;>
            simp [rowAfter, h, lockedAt, MfaAgentLockoutRecord.cleared]
        · rintro ⟨newer, s, older', h, hnewer, -⟩
          cases newer with
          | nil => cases h
          | cons e newer =>
            cases h
            exact absurd (hnewer _ List.mem_cons_self) (by simp [LockoutEvent.isReset])
      | failure s =>
        rw [(agrees p agentId older).lockedAt_failure]
        constructor
        · rintro ⟨hlocks, hlt⟩
          exact ⟨[], s, older, rfl, by simp, hlocks, hlt⟩
        · rintro ⟨newer, s', older', h, hnewer, hlocks, hlt⟩
          cases newer with
          | nil =>
            cases h
            exact ⟨hlocks, hlt⟩
          | cons e newer =>
            -- an older failure locked the agent past `t`, so this one came while it was locked
            cases h
            have hbefore : ∀ e ∈ newer ++ .failure s' :: older', e.time ≤ s := fun e he =>
              horder.1 _ (List.mem_map_of_mem he)
            have hs : s' ≤ s := hbefore (.failure s') (by simp)
            have hst : s ≤ t := ht _ List.mem_cons_self
            have hlocked := (ih horder.2 s hbefore).mpr ⟨newer, s', older', rfl,
              fun e he => hnewer e (List.mem_cons_of_mem _ he), hlocks, hst.trans_lt hlt⟩
            exact ⟨.inr hlocked, hlt.trans_le (lockEnd_le hs _)⟩
  · rw [lockoutCount_eq, lockoutCount_eq]
    cases event with
    | reset time => exact le_rfl
    | failure s =>
      rw [lockChanges]
      split_ifs <;> omega

end Automaton

def LockoutPolicy.single : LockoutPolicy := ⟨1, 1, le_rfl, Nat.one_pos⟩

/-- A lock that ends by itself, one that a reset ends, and one that is still active. -/
def threeLocks : List LockoutEvent :=
  [.failure (seconds 4), .reset (seconds 3), .failure (seconds 2 + 8), .failure (seconds 2),
    .failure 5]

theorem lockout_automaton_locks :
    LockingFailure .single "agent" threeLocks (seconds 4 + 7) ∧
      lockoutCount (rowAfter .single "agent" threeLocks) = 3 := by
  obtain ⟨hlocked, hcount, -⟩ := lockout_automaton .single "agent" threeLocks (by decide)
  exact ⟨(hlocked _ (by decide)).mp (by decide), hcount.trans (by decide)⟩

/-- A failure while locked, at a time less than the duration ago, and no lock: the reset after it
has cleared it. -/
theorem reset_lifts_the_lock :
    Locks .single "agent" [.failure 5] 6 ∧ 8 < lockEnd 6 LockoutPolicy.single.durationSecs ∧
      lockedAt (rowAfter .single "agent" [.reset 7, .failure 6, .failure 5]) 8 = false := by
  decide

end FerrumGate.Mfa
