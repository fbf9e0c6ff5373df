import FerrumGate.Expiring.Cache

/-!
# A full cache against the log of what it let pass

The cache of `Expiring.Cache` makes room before it looks for the key. So once as many keys are live
as it may hold, it forgets the oldest of them, and a check of that very key passes.

The log is a cache without a bound: it gives each key the instant it last passed a check at. As long
as no more keys are live than there is room for, the bounded cache agrees with the log on the live
entries, or lacks one of the oldest (`Tracks`). Which of several of one age depends on the ranks; a
key that is `favoured` comes first.

* `Tracks.advance`: time passes.
* `Tracks.check`: a check is made.
* `Tracks.seen`, `Tracks.forgotten`: whether the key of a live entry is refused.
-/

namespace Expiring

variable {K : Type} [DecidableEq K]

namespace Cache

variable {c d log : Cache K} {k : K} {now later ttl capacity : Nat} {order : K → Nat}
  {favoured : K → Prop}

/-! ## Caches with the same entries -/

def Same (c d : Cache K) : Prop := ∀ entry, entry ∈ c.entries ↔ entry ∈ d.entries

omit [DecidableEq K] in
theorem Same.size (h : Same c d) : c.size = d.size :=
  ((List.perm_ext_iff_of_nodup c.nodup.of_map d.nodup.of_map).2 h).length_eq

omit [DecidableEq K] in
theorem eq_of_key {entry other : K × Nat} (h : entry ∈ c.entries) (hother : other ∈ c.entries)
    (hkey : entry.1 = other.1) : entry = other :=
  List.inj_on_of_nodup_map c.nodup h hother hkey

theorem size_insert (c : Cache K) (k : K) (now : Nat) :
    (c.insert k now).size = (c.remove k).size + 1 := rfl

theorem size_remove {entry : K × Nat} (h : entry ∈ c.entries) :
    (c.remove entry.1).size + 1 = c.size := by
  have hsame : Same (c.insert entry.1 entry.2) c := by
    intro other
    rw [mem_insert]
    constructor
    · rintro (rfl | hother)
      · exact h
      · exact hother.1
    · intro hother
      by_cases hkey : other.1 = entry.1
      · exact Or.inl (eq_of_key hother h hkey)
      · exact Or.inr ⟨hother, hkey⟩
  rw [← hsame.size, size_insert]

/-! ## The oldest entry -/

/-- An entry that no other is older than; of several such, one that is favoured. -/
structure Oldest (favoured : K → Prop) (c : Cache K) (entry : K × Nat) : Prop where
  mem : entry ∈ c.entries
  le : ∀ other ∈ c.entries, entry.2 ≤ other.2
  first : ∀ other ∈ c.entries, other.2 = entry.2 → favoured other.1 → other.1 = entry.1

omit [DecidableEq K] in
theorem Oldest.same {entry : K × Nat} (h : Oldest favoured c entry) (hsame : Same c d) :
    Oldest favoured d entry where
  mem := (hsame entry).1 h.mem
  le other hother := h.le other ((hsame other).2 hother)
  first other hother := h.first other ((hsame other).2 hother)

/-- The ranks put what is favoured in front. -/
def Favours (favoured : K → Prop) (order : K → Nat) : Prop :=
  ∀ k, favoured k → ∀ other, other ≠ k → order k < order other

omit [DecidableEq K] in
theorem oldest_spec {entry : K × Nat} (horder : Favours favoured order)
    (h : c.oldest order = some entry) : Oldest favoured c entry := by
  unfold oldest at h
  have hle : ∀ other ∈ c.entries, entry.2 < other.2 ∨
      entry.2 = other.2 ∧ order entry.1 ≤ order other.1 := fun other hother =>
    Prod.Lex.le_iff.1 (List.le_of_mem_argmin hother h)
  refine ⟨List.argmin_mem h, fun other hother => ?_, fun other hother hage hfav => ?_⟩
  · rcases hle other hother with hlt | heq
    · exact hlt.le
    · exact heq.1.le
  · by_contra hne
    have hrank := horder other.1 hfav entry.1 fun heq => hne heq.symm
    rcases hle other hother with hlt | heq
    · omega
    · omega

omit [DecidableEq K] in
theorem exists_oldest (order : K → Nat) (h : 0 < c.size) : ∃ entry, c.oldest order = some entry := by
  rw [← Option.ne_none_iff_exists']
  intro hnone
  rw [size, List.argmin_eq_none.1 hnone] at h
  exact absurd h (lt_irrefl 0)

theorem pruneOldest_of_size_eq {entry : K × Nat} (hsize : c.size = capacity + 1)
    (h : c.oldest order = some entry) : c.pruneOldest order capacity = c.remove entry.1 := by
  have hremove : (c.remove entry.1).size = capacity := by
    have := size_remove (List.argmin_mem h)
    omega
  unfold pruneOldest
  rw [hsize, pruneOldest.loop, if_neg (by omega), h]
  cases capacity with
  | zero => rfl
  | succ rounds => exact if_pos hremove.le

/-! ## The cache and the log -/

/-- All but one of the oldest entries. -/
def Drops (favoured : K → Prop) (c d : Cache K) : Prop :=
  ∃ entry, Oldest favoured d entry ∧ Same c (d.remove entry.1)

/-- The live entries of the cache are those of the log, but for one of the oldest when there are as
many as the cache may hold. -/
def Tracks (favoured : K → Prop) (capacity ttl now : Nat) (c log : Cache K) : Prop :=
  Same (c.live now ttl) (log.live now ttl) ∨
    (log.live now ttl).size = capacity ∧ Drops favoured (c.live now ttl) (log.live now ttl)

theorem Tracks.empty : Tracks favoured capacity ttl now (empty : Cache K) empty :=
  Or.inl fun _ => Iff.rfl

omit [DecidableEq K] in
theorem mem_live_later {entry : K × Nat} (hle : now ≤ later) :
    entry ∈ (c.live later ttl).entries ↔
      entry ∈ (c.live now ttl).entries ∧ later - entry.2 < ttl := by
  simp only [mem_live]
  constructor
  · intro h
    exact ⟨⟨h.1, by omega⟩, h.2⟩
  · exact fun h => ⟨h.1.1, h.2⟩

/-- What is forgotten is the first to expire, so with time the cache agrees with the log again. -/
theorem Tracks.advance (hle : now ≤ later) (h : Tracks favoured capacity ttl now c log) :
    Tracks favoured capacity ttl later c log := by
  rcases h with hsame | ⟨hsize, entry, hentry, hsame⟩
  · refine Or.inl fun other => ?_
    rw [mem_live_later hle, mem_live_later hle, hsame other]
  · by_cases hlive : later - entry.2 < ttl
    · -- then so are all the others, which are younger
      have hlog : Same (log.live now ttl) (log.live later ttl) := by
        intro other
        rw [mem_live_later hle]
        refine ⟨fun hother => ⟨hother, ?_⟩, And.left⟩
        have := hentry.le other hother
        omega
      refine Or.inr ⟨hlog.size ▸ hsize, entry, hentry.same hlog, fun other => ?_⟩
      rw [mem_live_later hle, hsame other, mem_remove, mem_remove, ← hlog other]
      constructor
      · exact And.left
      · intro hother
        refine ⟨hother, ?_⟩
        have := hentry.le other hother.1
        omega
    · refine Or.inl fun other => ?_
      rw [mem_live_later hle, mem_live_later hle, hsame other, mem_remove]
      constructor
      · exact fun hother => ⟨hother.1.1, hother.2⟩
      · intro hother
        refine ⟨⟨hother.1, fun hkey => hlive ?_⟩, hother.2⟩
        rw [← eq_of_key hother.1 hentry.mem hkey]
        exact hother.2

/-- What is left once room is made for one more. -/
theorem Tracks.pruned (horder : Favours favoured order)
    (h : Tracks favoured capacity ttl now c log) (hsize : (log.live now ttl).size ≤ capacity) :
    Same ((c.live now ttl).pruneOldest order (capacity - 1)) (log.live now ttl) ∧
        ((log.live now ttl).size < capacity ∨ (log.live now ttl).size = 0) ∨
      (log.live now ttl).size = capacity ∧
        Drops favoured ((c.live now ttl).pruneOldest order (capacity - 1)) (log.live now ttl) := by
  rcases h with hsame | ⟨hfull, entry, hentry, hsame⟩
  · by_cases hroom : (log.live now ttl).size ≤ capacity - 1
    · rw [pruneOldest_of_size_le (hsame.size ▸ hroom)]
      exact Or.inl ⟨hsame, by omega⟩
    · -- the cache itself is full, and drops its oldest entry now
      have hcsize : (c.live now ttl).size = capacity - 1 + 1 := by
        rw [hsame.size]
        omega
      obtain ⟨entry, hentry⟩ := exists_oldest order (show 0 < (c.live now ttl).size by omega)
      rw [pruneOldest_of_size_eq hcsize hentry]
      refine Or.inr ⟨by omega, entry, (oldest_spec horder hentry).same hsame, fun other => ?_⟩
      rw [mem_remove, mem_remove, hsame other]
  · have hone := size_remove hentry.mem
    rw [← hsame.size] at hone
    rw [pruneOldest_of_size_le (by omega)]
    exact Or.inr ⟨hfull, entry, hentry, hsame⟩

/-! ## One check -/

/-- The log after a check. -/
def logged (log : Cache K) (passed : Bool) (k : K) (now : Nat) : Cache K :=
  if passed then log.insert k now else log

theorem checkAndInsert_refused
    (h : ((c.live now ttl).pruneOldest order (capacity - 1)).contains k) :
    c.checkAndInsert order capacity ttl now k =
      (false, (c.live now ttl).pruneOldest order (capacity - 1)) := by
  unfold checkAndInsert
  exact if_pos h

theorem checkAndInsert_passed
    (h : ¬ ((c.live now ttl).pruneOldest order (capacity - 1)).contains k) :
    c.checkAndInsert order capacity ttl now k =
      (true, ((c.live now ttl).pruneOldest order (capacity - 1)).insert k now) := by
  unfold checkAndInsert
  exact if_neg h

/-- A key that is not in the log passes. -/
theorem Tracks.fresh (horder : Favours favoured order)
    (h : Tracks favoured capacity ttl now c log) (hsize : (log.live now ttl).size ≤ capacity)
    (hk : ¬ (log.live now ttl).contains k) :
    (c.checkAndInsert order capacity ttl now k).1 = true := by
  rw [contains_iff] at hk
  rw [checkAndInsert_passed]
  rw [contains_iff]
  rintro ⟨t, ht⟩
  rcases h.pruned horder hsize with ⟨hsame, _⟩ | ⟨_, entry, _, hsame⟩
  · exact hk ⟨t, (hsame _).1 ht⟩
  · exact hk ⟨t, (mem_remove.1 ((hsame _).1 ht)).1⟩

/-- A live key is refused if there is room, or an older key. -/
theorem Tracks.seen {t : Nat} (horder : Favours favoured order)
    (h : Tracks favoured capacity ttl now c log) (hsize : (log.live now ttl).size ≤ capacity)
    (hk : (k, t) ∈ (log.live now ttl).entries)
    (hroom : (log.live now ttl).size = capacity → ∃ entry ∈ (log.live now ttl).entries, entry.2 < t) :
    (c.checkAndInsert order capacity ttl now k).1 = false := by
  rw [checkAndInsert_refused]
  rw [contains_iff]
  rcases h.pruned horder hsize with ⟨hsame, _⟩ | ⟨hfull, entry, hentry, hsame⟩
  · exact ⟨t, (hsame _).2 hk⟩
  · refine ⟨t, (hsame _).2 (mem_remove.2 ⟨hk, fun hkey => ?_⟩)⟩
    obtain ⟨older, holder, hlt⟩ := hroom hfull
    have hle := hentry.le older holder
    rw [← eq_of_key hk hentry.mem hkey] at hle
    exact absurd hlt (not_lt.2 hle)

/-- In a full cache a favoured key that is as old as any passes again. -/
theorem Tracks.forgotten {t : Nat} (horder : Favours favoured order)
    (h : Tracks favoured capacity ttl now c log)
    (hk : (k, t) ∈ (log.live now ttl).entries) (hfull : (log.live now ttl).size = capacity)
    (hold : ∀ entry ∈ (log.live now ttl).entries, t ≤ entry.2) (hfav : favoured k) :
    (c.checkAndInsert order capacity ttl now k).1 = true := by
  have hpos : 0 < (log.live now ttl).size := List.length_pos_of_mem hk
  rw [checkAndInsert_passed]
  rw [contains_iff]
  rintro ⟨s, hs⟩
  rcases h.pruned horder hfull.le with ⟨_, hroom⟩ | ⟨_, entry, hentry, hsame⟩
  · omega
  · have hage : t = entry.2 := le_antisymm (hold entry hentry.mem) (hentry.le _ hk)
    exact (mem_remove.1 ((hsame _).1 hs)).2 (hentry.first (k, t) hk hage hfav)

theorem size_live_insert (httl : 0 < ttl) (hk : ¬ (log.live now ttl).contains k) :
    ((log.insert k now).live now ttl).size = (log.live now ttl).size + 1 := by
  have hinsert : Same ((log.insert k now).live now ttl) ((log.live now ttl).insert k now) := by
    intro entry
    rw [mem_live, mem_insert, mem_insert, mem_live]
    constructor
    · rintro ⟨heq | hmem, hyoung⟩
      · exact Or.inl heq
      · exact Or.inr ⟨⟨hmem.1, hyoung⟩, hmem.2⟩
    · rintro (rfl | hmem)
      · exact ⟨Or.inl rfl, by simpa using httl⟩
      · exact ⟨Or.inr ⟨hmem.1.1, hmem.2⟩, hmem.1.2⟩
  have hremove : Same ((log.live now ttl).remove k) (log.live now ttl) := by
    intro entry
    rw [mem_remove]
    refine ⟨And.left, fun hentry => ⟨hentry, ?_⟩⟩
    rintro rfl
    exact hk (contains_iff.2 ⟨entry.2, hentry⟩)
  rw [hinsert.size, size_insert, hremove.size]

/-- What a full cache dropped is the key that now passes, for there is no room for another. -/
theorem Drops.key_eq {left : Cache K} {entry : K × Nat}
    (hentry : entry ∈ (log.live now ttl).entries)
    (hsame : Same left ((log.live now ttl).remove entry.1)) (hpass : ¬ left.contains k)
    (hafter : ((log.insert k now).live now ttl).size ≤ (log.live now ttl).size) : entry.1 = k := by
  by_contra hne
  have hk : ¬ (log.live now ttl).contains k := by
    rw [contains_iff]
    rintro ⟨t, ht⟩
    exact hpass (contains_iff.2 ⟨t, (hsame _).2 (mem_remove.2 ⟨ht, fun heq => hne heq.symm⟩)⟩)
  have httl : 0 < ttl := Nat.zero_lt_of_lt (mem_live.1 hentry).2
  rw [size_live_insert httl hk] at hafter
  omega

/-- A check that leaves no more live keys than there is room for keeps the relation. -/
theorem Tracks.check (horder : Favours favoured order)
    (h : Tracks favoured capacity ttl now c log) (hsize : (log.live now ttl).size ≤ capacity)
    (hafter : ((log.logged (c.checkAndInsert order capacity ttl now k).1 k now).live now ttl).size ≤
      capacity) :
    Tracks favoured capacity ttl now (c.checkAndInsert order capacity ttl now k).2
      (log.logged (c.checkAndInsert order capacity ttl now k).1 k now) := by
  have hpruned := h.pruned horder hsize
  by_cases hseen : ((c.live now ttl).pruneOldest order (capacity - 1)).contains k
  · rw [checkAndInsert_refused hseen]
    generalize (c.live now ttl).pruneOldest order (capacity - 1) = left at hpruned
    -- all that is left is live
    have hlive : Same (left.live now ttl) left := by
      intro entry
      rw [mem_live]
      refine ⟨And.left, fun hentry => ⟨hentry, ?_⟩⟩
      rcases hpruned with ⟨hsame, _⟩ | ⟨_, _, _, hsame⟩
      · exact (mem_live.1 ((hsame entry).1 hentry)).2
      · exact (mem_live.1 (mem_remove.1 ((hsame entry).1 hentry)).1).2
    rcases hpruned with ⟨hsame, _⟩ | ⟨hfull, entry, hentry, hsame⟩
    · exact Or.inl fun other => (hlive other).trans (hsame other)
    · exact Or.inr ⟨hfull, entry, hentry, fun other => (hlive other).trans (hsame other)⟩
  · rw [checkAndInsert_passed hseen] at hafter ⊢
    generalize (c.live now ttl).pruneOldest order (capacity - 1) = left at hpruned hseen
    change ((log.insert k now).live now ttl).size ≤ capacity at hafter
    -- besides the key that passes, the cache and the log have the same live entries
    have hothers : ∀ other : K × Nat, other.1 ≠ k →
        (other ∈ left.entries ↔ other ∈ (log.live now ttl).entries) := by
      intro other hne
      rcases hpruned with ⟨hsame, _⟩ | ⟨hfull, entry, hentry, hsame⟩
      · exact hsame other
      · have hkey := Drops.key_eq hentry.mem hsame hseen (hfull ▸ hafter)
        rw [hsame other, mem_remove, hkey]
        exact and_iff_left hne
    refine Or.inl fun other => ?_
    change other ∈ ((left.insert k now).live now ttl).entries ↔
      other ∈ ((log.insert k now).live now ttl).entries
    rw [mem_live, mem_live, mem_insert, mem_insert]
    constructor
    · rintro ⟨heq | hmem, hyoung⟩
      · exact ⟨Or.inl heq, hyoung⟩
      · exact ⟨Or.inr ⟨(mem_live.1 ((hothers other hmem.2).1 hmem.1)).1, hmem.2⟩, hyoung⟩
    · rintro ⟨heq | hmem, hyoung⟩
      · exact ⟨Or.inl heq, hyoung⟩
      · exact ⟨Or.inr ⟨(hothers other hmem.2).2 (mem_live.2 ⟨hmem.1, hyoung⟩), hmem.2⟩, hyoung⟩

end Cache

end Expiring
