import Mathlib.Data.List.MinMax
import Mathlib.Data.Prod.Lex
import Mathlib.Data.List.Nodup

/-!
# A bounded cache whose entries expire

A map from keys to the instant each was stored at. One operation, `checkAndInsert`, drops the
entries older than a time to live, then the oldest ones until there is room for one more, and
stores the key if it is not there.

* `mem_checkAndInsert`: an entry that is young enough survives a check that finds room.
* `checkAndInsert_seen`: such an entry makes a check of its own key fail.
-/

namespace Expiring

variable {K : Type} [DecidableEq K]

/-- A finite map from keys to instants: no key occurs twice. -/
structure Cache (K : Type) where
  entries : List (K × Nat)
  nodup : (entries.map Prod.fst).Nodup

namespace Cache

/-- The cache with nothing in it. -/
def empty : Cache K := ⟨[], List.nodup_nil⟩

def size (c : Cache K) : Nat := c.entries.length

/-- The entries that pass a test. -/
def retain (c : Cache K) (keep : K × Nat → Bool) : Cache K :=
  ⟨c.entries.filter keep, c.nodup.sublist (List.filter_sublist.map _)⟩

/-- Drop the entry of a key. -/
def remove (c : Cache K) (k : K) : Cache K := c.retain fun entry => entry.1 ≠ k

/-- Store a key, in place of any entry it has. -/
def insert (c : Cache K) (k : K) (now : Nat) : Cache K where
  entries := (k, now) :: (c.remove k).entries
  nodup := by
    rw [List.map_cons, List.nodup_cons]
    refine ⟨?_, (c.remove k).nodup⟩
    simp [remove, retain]

def contains (c : Cache K) (k : K) : Bool := c.entries.any fun entry => entry.1 = k

/-- The entries stored less than `ttl` ago; an instant in the future counts as now. -/
def live (c : Cache K) (now ttl : Nat) : Cache K := c.retain fun entry => now - entry.2 < ttl

/-- The entry that has been there longest. Which of several of one age the scan meets first is up
to the iteration order of the map, given as a rank. -/
def oldest (order : K → Nat) (c : Cache K) : Option (K × Nat) :=
  c.entries.argmin fun entry => (toLex (entry.2, order entry.1) : Nat ×ₗ Nat)

/-- Drop the oldest entry until at most `maxEntries` are left; no more rounds are needed than
there are entries. -/
def pruneOldest (order : K → Nat) (maxEntries : Nat) (c : Cache K) : Cache K :=
  loop c.size c
where
  loop : Nat → Cache K → Cache K
    | 0, c => c
    | rounds + 1, c =>
      if c.size ≤ maxEntries then c
      else
        match c.oldest order with
        | some entry => loop rounds (c.remove entry.1)
        | none => c

/-- Has this key not been seen? If so it is stored. -/
def checkAndInsert (order : K → Nat) (maxEntries ttl now : Nat) (k : K) (c : Cache K) :
    Bool × Cache K :=
  let c := (c.live now ttl).pruneOldest order (maxEntries - 1)
  if c.contains k then (false, c) else (true, c.insert k now)

/-! ## Membership -/

variable {c : Cache K} {k k' : K} {t now ttl maxEntries : Nat} {order : K → Nat}

omit [DecidableEq K] in
@[simp]
theorem mem_retain {keep : K × Nat → Bool} {entry : K × Nat} :
    entry ∈ (c.retain keep).entries ↔ entry ∈ c.entries ∧ keep entry = true :=
  List.mem_filter

@[simp]
theorem mem_remove {entry : K × Nat} :
    entry ∈ (c.remove k).entries ↔ entry ∈ c.entries ∧ entry.1 ≠ k := by
  simp [remove]

omit [DecidableEq K] in
@[simp]
theorem mem_live {entry : K × Nat} :
    entry ∈ (c.live now ttl).entries ↔ entry ∈ c.entries ∧ now - entry.2 < ttl := by
  simp [live]

@[simp]
theorem contains_iff : c.contains k = true ↔ ∃ t, (k, t) ∈ c.entries := by
  simp [contains]

theorem mem_insert {entry : K × Nat} :
    entry ∈ (c.insert k now).entries ↔
      entry = (k, now) ∨ entry ∈ c.entries ∧ entry.1 ≠ k := by
  simp [insert]

/-! ## Pruning -/

theorem pruneOldest_of_size_le (h : c.size ≤ maxEntries) : c.pruneOldest order maxEntries = c := by
  unfold pruneOldest
  cases c.size with
  | zero => rfl
  | succ rounds => rw [pruneOldest.loop, if_pos h]

/-! ## One check -/

/-- A key that passes is stored with the instant of the check. -/
theorem checkAndInsert_stored (h : (c.checkAndInsert order maxEntries ttl now k).1 = true) :
    (k, now) ∈ (c.checkAndInsert order maxEntries ttl now k).2.entries := by
  revert h
  unfold checkAndInsert
  dsimp only
  split_ifs
  · exact False.elim
  · exact fun _ => mem_insert.mpr (Or.inl rfl)

/-- **Survival**: an entry that is still live is there after a check that finds room. -/
theorem mem_checkAndInsert (order : K → Nat) (k : K) (hmem : (k', t) ∈ c.entries)
    (hlive : now - t < ttl) (hroom : (c.live now ttl).size ≤ maxEntries - 1) :
    (k', t) ∈ (c.checkAndInsert order maxEntries ttl now k).2.entries := by
  have hkept : (k', t) ∈ (c.live now ttl).entries := mem_live.mpr ⟨hmem, hlive⟩
  unfold checkAndInsert
  rw [pruneOldest_of_size_le hroom]
  dsimp only
  split_ifs with hseen
  · exact hkept
  · refine mem_insert.mpr (Or.inr ⟨hkept, ?_⟩)
    rintro rfl
    exact hseen (contains_iff.mpr ⟨t, hkept⟩)

/-- **Refusal**: a key whose entry is still live does not pass a check that finds room. -/
theorem checkAndInsert_seen (order : K → Nat) (hmem : (k, t) ∈ c.entries)
    (hlive : now - t < ttl) (hroom : (c.live now ttl).size ≤ maxEntries - 1) :
    (c.checkAndInsert order maxEntries ttl now k).1 = false := by
  have hseen : (c.live now ttl).contains k = true :=
    contains_iff.mpr ⟨t, mem_live.mpr ⟨hmem, hlive⟩⟩
  unfold checkAndInsert
  rw [pruneOldest_of_size_le hroom]
  dsimp only
  rw [if_pos hseen]

end Cache

end Expiring
