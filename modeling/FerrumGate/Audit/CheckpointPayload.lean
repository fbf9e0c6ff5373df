import FerrumGate.Wire.Decimal
import FerrumGate.Wire.Fields
import Mathlib.Algebra.Group.Nat.Defs

/-!
# The payload of a checkpoint's signature

`canonical_checkpoint_hash` of `ferrum-proto/src/audit_log.rs` writes a count, the root and two
times into one text and hashes it. The root is written as it is: quotes and whole pieces of the
template may stand in it.

The count stands in front of the root and has no comma, the times stand behind it and have no quote,
so the text is taken apart from both ends (`canonical_eq_iff`). A time is read off its text up to a
leap second that does not end a minute: `to_rfc3339` writes it like the second after it.

* **`checkpoint_hash_eq_iff`** : what two checkpoints with the same hash have in common.

`to_rfc3339` is that of `chrono`, which is not part of the repository: the model follows what it is
documented to write. A day need not exist in its month.
-/

namespace FerrumGate.CheckpointPayload

open Wire Serde

/-! ## Times -/

/-- `DateTime<Utc>`. A fraction of a second and more stands for a leap second; it may follow any
second. -/
structure DateTime where
  year : Int
  month : Nat
  day : Nat
  hour : Nat
  minute : Nat
  second : Nat
  nanosecond : Nat
  month_le : month ≤ 12
  day_le : day ≤ 31
  hour_lt : hour < 24
  minute_lt : minute < 60
  second_lt : second < 60
  nanosecond_lt : nanosecond < 2 * 10 ^ 9
  deriving DecidableEq

namespace DateTime

/-- The second and the fraction that are written. -/
def clock (t : DateTime) : Nat × Nat :=
  if 10 ^ 9 ≤ t.nanosecond then (t.second + 1, t.nanosecond - 10 ^ 9) else (t.second, t.nanosecond)

/-- What of a time is written. -/
def written (t : DateTime) : Int × Nat × Nat × Nat × Nat × Nat × Nat :=
  (t.year, t.month, t.day, t.hour, t.minute, t.clock)

/-- A leap second, if the time is one, ends a minute. -/
def LeapEndsMinute (t : DateTime) : Prop := 10 ^ 9 ≤ t.nanosecond → t.second = 59

theorem clock_fst_lt (t : DateTime) : t.clock.1 < 10 ^ 2 := by
  have := t.second_lt
  unfold clock
  split_ifs <;> simp only <;> omega

theorem clock_snd_lt (t : DateTime) : t.clock.2 < 10 ^ 9 := by
  have := t.nanosecond_lt
  unfold clock
  split_ifs <;> simp only <;> omega

/-- At the end of a minute only a leap second is written as second 60. -/
theorem eq_of_written_eq {t t' : DateTime} (ht : t.LeapEndsMinute) (ht' : t'.LeapEndsMinute)
    (h : t.written = t'.written) : t = t' := by
  obtain ⟨year, month, day, hour, minute, second, nanosecond, _, _, _, _, hsecond, _⟩ := t
  obtain ⟨year', month', day', hour', minute', second', nanosecond', _, _, _, _, hsecond', _⟩ := t'
  simp only [written, clock, LeapEndsMinute, Prod.mk.injEq] at h ht ht'
  obtain ⟨rfl, rfl, rfl, rfl, rfl, hclock⟩ := h
  have htime : second = second' ∧ nanosecond = nanosecond' := by
    split_ifs at hclock <;> simp only [Prod.mk.injEq] at hclock <;> omega
  obtain ⟨rfl, rfl⟩ := htime
  rfl

/-! ## The text of a time -/

/-- A year of four digits, any other with its sign. -/
def yearText (year : Int) : List Char :=
  if 0 ≤ year ∧ year ≤ 9999 then padded 4 year.natAbs
  else (if year < 0 then '-' else '+') :: padded 4 year.natAbs

/-- Everything between the year and the fraction. -/
def clockText (t : DateTime) : List Char :=
  '-' :: (padded 2 t.month ++ '-' :: (padded 2 t.day ++ 'T' :: (padded 2 t.hour ++
    ':' :: (padded 2 t.minute ++ ':' :: padded 2 t.clock.1))))

/-- The fraction, in as many groups of three digits as it needs. -/
def fractionText (nanos : Nat) : List Char :=
  if nanos = 0 then []
  else if nanos % 10 ^ 6 = 0 then '.' :: padded 3 (nanos / 10 ^ 6)
  else if nanos % 10 ^ 3 = 0 then '.' :: padded 6 (nanos / 10 ^ 3)
  else '.' :: padded 9 nanos

/-- `to_rfc3339` -/
def toRfc3339 (t : DateTime) : List Char :=
  yearText t.year ++ clockText t ++ fractionText t.clock.2 ++ ['+', '0', '0', ':', '0', '0']

theorem yearText_cases (year : Int) :
    (0 ≤ year ∧ yearText year = padded 4 year.natAbs) ∨
      (year < 0 ∧ yearText year = '-' :: padded 4 year.natAbs) ∨
      (0 ≤ year ∧ yearText year = '+' :: padded 4 year.natAbs) := by
  unfold yearText
  split_ifs with hfour hneg
  · exact .inl ⟨hfour.1, rfl⟩
  · exact .inr (.inl ⟨hneg, rfl⟩)
  · exact .inr (.inr ⟨not_lt.mp hneg, rfl⟩)

theorem yearText_injective {year year' : Int} (h : yearText year = yearText year') :
    year = year' := by
  have hunsigned {c : Char} (hc : c.isDigit = false) (n : Nat) (rest : List Char) :
      padded 4 n ≠ c :: rest := fun heq => not_mem_padded hc (heq ▸ List.mem_cons_self)
  rcases yearText_cases year with ⟨hyear, htext⟩ | ⟨hyear, htext⟩ | ⟨hyear, htext⟩ <;>
    rcases yearText_cases year' with ⟨hyear', htext'⟩ | ⟨hyear', htext'⟩ | ⟨hyear', htext'⟩ <;>
    rw [htext, htext'] at h
  · have := padded_injective h
    omega
  · exact absurd h (hunsigned (by decide) _ _)
  · exact absurd h (hunsigned (by decide) _ _)
  · exact absurd h.symm (hunsigned (by decide) _ _)
  · have := padded_injective (List.cons.inj h).2
    omega
  · exact absurd (List.cons.inj h).1 (by decide)
  · exact absurd h.symm (hunsigned (by decide) _ _)
  · exact absurd (List.cons.inj h).1 (by decide)
  · have := padded_injective (List.cons.inj h).2
    omega

theorem length_clockText (t : DateTime) : (clockText t).length = 15 := by
  have := t.month_le
  have := t.day_le
  have := t.hour_lt
  have := t.minute_lt
  simp only [clockText, List.length_cons, List.length_append]
  rw [length_padded (by decide) (by omega), length_padded (by decide) (by omega),
    length_padded (by decide) (by omega), length_padded (by decide) (by omega),
    length_padded (by decide) t.clock_fst_lt]

/-- Two digits and what follows them. -/
theorem padded_two_append_inj {n n' : Nat} {rest rest' : List Char} (hn : n < 10 ^ 2)
    (hn' : n' < 10 ^ 2) (h : padded 2 n ++ rest = padded 2 n' ++ rest') :
    n = n' ∧ rest = rest' := by
  obtain ⟨hnumber, hrest⟩ := List.append_inj h
    (by rw [length_padded (by decide) hn, length_padded (by decide) hn'])
  exact ⟨padded_injective hnumber, hrest⟩

theorem clockText_injective {t t' : DateTime} (h : clockText t = clockText t') :
    t.month = t'.month ∧ t.day = t'.day ∧ t.hour = t'.hour ∧ t.minute = t'.minute ∧
      t.clock.1 = t'.clock.1 := by
  have two {n bound : Nat} (hn : n ≤ bound) (hbound : bound < 10 ^ 2) : n < 10 ^ 2 :=
    Nat.lt_of_le_of_lt hn hbound
  obtain ⟨hmonth, h⟩ := padded_two_append_inj (two t.month_le (by decide))
    (two t'.month_le (by decide)) (List.cons.inj h).2
  obtain ⟨hday, h⟩ := padded_two_append_inj (two t.day_le (by decide))
    (two t'.day_le (by decide)) (List.cons.inj h).2
  obtain ⟨hhour, h⟩ := padded_two_append_inj (two t.hour_lt.le (by decide))
    (two t'.hour_lt.le (by decide)) (List.cons.inj h).2
  obtain ⟨hminute, h⟩ := padded_two_append_inj (two t.minute_lt.le (by decide))
    (two t'.minute_lt.le (by decide)) (List.cons.inj h).2
  exact ⟨hmonth, hday, hhour, hminute, padded_injective (List.cons.inj h).2⟩

/-- The digits of a fraction. -/
def fractionWidth (nanos : Nat) : Nat :=
  if nanos = 0 then 0 else if nanos % 10 ^ 6 = 0 then 3 else if nanos % 10 ^ 3 = 0 then 6 else 9

theorem length_fractionText {nanos : Nat} (hnanos : nanos < 10 ^ 9) :
    (fractionText nanos).length = if nanos = 0 then 0 else fractionWidth nanos + 1 := by
  unfold fractionText fractionWidth
  split_ifs
  · rfl
  · rw [List.length_cons, length_padded (by decide) (by omega)]
  · rw [List.length_cons, length_padded (by decide) (by omega)]
  · rw [List.length_cons, length_padded (by decide) hnanos]

/-- The length of a fraction says how it was written. -/
theorem fractionText_injective {nanos nanos' : Nat} (hnanos : nanos < 10 ^ 9)
    (hnanos' : nanos' < 10 ^ 9) (h : fractionText nanos = fractionText nanos') :
    nanos = nanos' := by
  have hlength := congrArg List.length h
  rw [length_fractionText hnanos, length_fractionText hnanos'] at hlength
  unfold fractionWidth at hlength
  unfold fractionText at h
  split_ifs at h hlength
  all_goals first
    | omega
    | have hvalue := padded_injective (List.cons.inj h).2
      omega

theorem fractionText_cases (nanos : Nat) :
    fractionText nanos = [] ∨ ∃ digits, fractionText nanos = '.' :: digits := by
  unfold fractionText
  split_ifs
  · exact .inl rfl
  all_goals exact .inr ⟨_, rfl⟩

/-- The characters of a time. -/
theorem not_mem_yearText_clockText {c : Char} (t : DateTime) (hc : c.isDigit = false)
    (hsigns : c ∉ ['+', '-', 'T', ':']) : c ∉ yearText t.year ++ clockText t := by
  simp only [List.mem_cons, List.not_mem_nil, or_false, not_or] at hsigns
  obtain ⟨hplus, hminus, hT, hcolon⟩ := hsigns
  have hdigits (width n : Nat) : c ∉ padded width n := not_mem_padded hc
  have hyear : c ∉ yearText t.year := by
    unfold yearText
    split_ifs <;> simp [hdigits, hplus, hminus]
  simp [hyear, clockText, hdigits, hminus, hT, hcolon]

theorem quote_not_mem_toRfc3339 (t : DateTime) : quote ∉ toRfc3339 t := by
  have hdigits (width n : Nat) : quote ∉ padded width n := not_mem_padded (by decide)
  have hfraction : quote ∉ fractionText t.clock.2 := by
    unfold fractionText
    split_ifs <;> simp [hdigits, show quote ≠ '.' by decide]
  have hfront := not_mem_yearText_clockText (c := quote) t (by decide) (by decide)
  simp only [toRfc3339, List.mem_append, not_or] at hfront ⊢
  exact ⟨⟨hfront, hfraction⟩, by decide⟩

end DateTime

/-- A part that is empty or starts with the separator is split off. -/
theorem append_optional_inj {sep : Char} {a a' b b' : List Char} (ha : sep ∉ a) (ha' : sep ∉ a')
    (hb : b = [] ∨ ∃ rest, b = sep :: rest) (hb' : b' = [] ∨ ∃ rest, b' = sep :: rest)
    (h : a ++ b = a' ++ b') : a = a' ∧ b = b' := by
  -- behind a further separator both parts start with one
  have hends {b : List Char} (hb : b = [] ∨ ∃ rest, b = sep :: rest) :
      ∃ rest, b ++ [sep] = sep :: rest := by
    rcases hb with rfl | ⟨rest, rfl⟩
    · exact ⟨[], rfl⟩
    · exact ⟨rest ++ [sep], rfl⟩
  obtain ⟨rest, hrest⟩ := hends hb
  obtain ⟨rest', hrest'⟩ := hends hb'
  have hboth : a ++ sep :: rest = a' ++ sep :: rest' := by
    rw [← hrest, ← hrest', ← List.append_assoc, h, List.append_assoc]
  obtain ⟨rfl, -⟩ := append_separator_inj_of_not_mem ha ha' hboth
  exact ⟨rfl, List.append_cancel_left h⟩

open DateTime in
/-- Two times have the same text exactly if the same is written of them. -/
theorem toRfc3339_eq_iff (t t' : DateTime) :
    t.toRfc3339 = t'.toRfc3339 ↔ t.written = t'.written := by
  constructor
  · intro h
    obtain ⟨hfront, hfraction⟩ := append_optional_inj
      (not_mem_yearText_clockText t (by decide) (by decide))
      (not_mem_yearText_clockText t' (by decide) (by decide))
      (fractionText_cases _) (fractionText_cases _) (List.append_cancel_right h)
    obtain ⟨hyear, hclock⟩ := List.append_inj' hfront
      (by rw [length_clockText, length_clockText])
    obtain ⟨hmonth, hday, hhour, hminute, hsecond⟩ := clockText_injective hclock
    have hnanos := fractionText_injective t.clock_snd_lt t'.clock_snd_lt hfraction
    simp only [written, Prod.mk.injEq]
    exact ⟨yearText_injective hyear, hmonth, hday, hhour, hminute, Prod.ext hsecond hnanos⟩
  · intro h
    simp only [written, Prod.mk.injEq] at h
    obtain ⟨hyear, hmonth, hday, hhour, hminute, hclock⟩ := h
    simp only [toRfc3339, clockText, hyear, hmonth, hday, hhour, hminute, hclock]

/-! ## The payload -/

/-! The pieces of the template. -/

def beforeCount : List Char := "\x7b\"entry_count\":".toList

def beforeRoot : List Char := ",\"merkle_root\":\"".toList

def beforeSignedAt : List Char := "\",\"signed_at\":\"".toList

def beforeWindowStart : List Char := "\",\"window_start\":\"".toList

def afterWindowStart : List Char := "\"\x7d".toList

/-- The text that is hashed: the keys in alphabetical order, the root without escapes. -/
def canonical (windowStart : DateTime) (merkleRoot : String) (entryCount : Int)
    (signedAt : DateTime) : String :=
  String.ofList (beforeCount ++ (writeInteger entryCount ++ (beforeRoot ++ (merkleRoot.toList ++
    (beforeSignedAt ++ (signedAt.toRfc3339 ++ (beforeWindowStart ++ (windowStart.toRfc3339 ++
      afterWindowStart))))))))

/-- `canonical_checkpoint_hash` -/
def canonicalCheckpointHash (sha256 : ByteArray → List UInt8) (windowStart : DateTime)
    (merkleRoot : String) (entryCount : Int) (signedAt : DateTime) : List UInt8 :=
  sha256 (canonical windowStart merkleRoot entryCount signedAt).toUTF8

/-- A last field without the separator, whatever stands in front of it. -/
theorem append_separator_inj_last {sep : Char} {a a' b b' : List Char} (hb : sep ∉ b)
    (hb' : sep ∉ b') (h : a ++ sep :: b = a' ++ sep :: b') : a = a' ∧ b = b' := by
  have hreverse := congrArg List.reverse h
  simp only [List.reverse_append, List.reverse_cons, List.append_assoc, List.singleton_append]
    at hreverse
  obtain ⟨hlast, hfront⟩ := append_separator_inj_of_not_mem
    (by rwa [List.mem_reverse]) (by rwa [List.mem_reverse]) hreverse
  exact ⟨List.reverse_injective hfront, List.reverse_injective hlast⟩

/-- A time, its key and the quote in front of it, split off behind any text. -/
theorem append_time_inj {key a a' : List Char} {t t' : DateTime}
    (h : a ++ (key ++ quote :: t.toRfc3339) = a' ++ (key ++ quote :: t'.toRfc3339)) :
    a = a' ∧ t.written = t'.written := by
  rw [← List.append_assoc, ← List.append_assoc] at h
  obtain ⟨hfront, htime⟩ := append_separator_inj_last t.quote_not_mem_toRfc3339
    t'.quote_not_mem_toRfc3339 h
  exact ⟨List.append_cancel_right hfront, (toRfc3339_eq_iff t t').mp htime⟩

/-- A text and two times behind it, with their keys. -/
theorem append_times_inj {key key' last a a' : List Char} {s s' w w' : DateTime}
    (h : a ++ (key ++ quote :: (s.toRfc3339 ++ (key' ++ quote :: (w.toRfc3339 ++ last)))) =
      a' ++ (key ++ quote :: (s'.toRfc3339 ++ (key' ++ quote :: (w'.toRfc3339 ++ last))))) :
    a = a' ∧ s.written = s'.written ∧ w.written = w'.written := by
  have hends : (a ++ (key ++ quote :: s.toRfc3339)) ++ (key' ++ quote :: w.toRfc3339) ++ last =
      (a' ++ (key ++ quote :: s'.toRfc3339)) ++ (key' ++ quote :: w'.toRfc3339) ++ last := by
    simpa only [List.append_assoc, List.cons_append] using h
  obtain ⟨hfront, hwindow⟩ := append_time_inj (List.append_cancel_right hends)
  obtain ⟨hroot, hsigned⟩ := append_time_inj hfront
  exact ⟨hroot, hsigned, hwindow⟩

/-- The text with the separators that it is split at. -/
theorem toList_canonical (windowStart : DateTime) (merkleRoot : String) (entryCount : Int)
    (signedAt : DateTime) :
    (canonical windowStart merkleRoot entryCount signedAt).toList =
      beforeCount ++ (writeInteger entryCount ++ ',' :: (beforeRoot.tail ++ (merkleRoot.toList ++
        (beforeSignedAt.dropLast ++ quote :: (signedAt.toRfc3339 ++ (beforeWindowStart.dropLast ++
          quote :: (windowStart.toRfc3339 ++ afterWindowStart))))))) := by
  have hroot : beforeRoot = ',' :: beforeRoot.tail := by decide +kernel
  have hsigned : beforeSignedAt = beforeSignedAt.dropLast ++ [quote] := by decide +kernel
  have hwindow : beforeWindowStart = beforeWindowStart.dropLast ++ [quote] := by decide +kernel
  rw [canonical, String.toList_ofList]
  nth_rewrite 1 [hroot, hsigned, hwindow]
  simp only [List.append_assoc, List.cons_append, List.nil_append]

/-- **The text is taken apart from both ends**, whatever stands in the root. -/
theorem canonical_eq_iff (windowStart windowStart' : DateTime) (merkleRoot merkleRoot' : String)
    (entryCount entryCount' : Int) (signedAt signedAt' : DateTime) :
    canonical windowStart merkleRoot entryCount signedAt =
        canonical windowStart' merkleRoot' entryCount' signedAt' ↔
      windowStart.written = windowStart'.written ∧ merkleRoot = merkleRoot' ∧
        entryCount = entryCount' ∧ signedAt.written = signedAt'.written := by
  constructor
  · intro h
    have hcomma (n : Int) : ',' ∉ writeInteger n := not_mem_writeInteger (by decide) (by decide)
    have htext := congrArg String.toList h
    rw [toList_canonical, toList_canonical] at htext
    -- the count ends at the first comma
    obtain ⟨hcount, hrest⟩ := append_separator_inj_of_not_mem (hcomma _) (hcomma _)
      (List.append_cancel_left htext)
    obtain ⟨hroot, hsigned, hwindow⟩ := append_times_inj (List.append_cancel_left hrest)
    exact ⟨hwindow, String.toList_injective hroot, writeInteger_injective hcount, hsigned⟩
  · rintro ⟨hwindow, rfl, rfl, hsigned⟩
    simp only [canonical, (toRfc3339_eq_iff _ _).mpr hwindow, (toRfc3339_eq_iff _ _).mpr hsigned]

/-- **Two checkpoints with the same hash** have the same root, the same count and the same written
times; and the same times, where a leap second ends a minute. The hash is free of collisions on the
two texts. -/
theorem checkpoint_hash_eq_iff (sha256 : ByteArray → List UInt8)
    (windowStart windowStart' : DateTime) (merkleRoot merkleRoot' : String)
    (entryCount entryCount' : Int) (signedAt signedAt' : DateTime)
    (hfree : Set.InjOn sha256 {(canonical windowStart merkleRoot entryCount signedAt).toUTF8,
      (canonical windowStart' merkleRoot' entryCount' signedAt').toUTF8}) :
    (canonicalCheckpointHash sha256 windowStart merkleRoot entryCount signedAt =
          canonicalCheckpointHash sha256 windowStart' merkleRoot' entryCount' signedAt' ↔
        windowStart.written = windowStart'.written ∧ merkleRoot = merkleRoot' ∧
          entryCount = entryCount' ∧ signedAt.written = signedAt'.written) ∧
      (windowStart.LeapEndsMinute → windowStart'.LeapEndsMinute → signedAt.LeapEndsMinute →
        signedAt'.LeapEndsMinute →
        canonicalCheckpointHash sha256 windowStart merkleRoot entryCount signedAt =
          canonicalCheckpointHash sha256 windowStart' merkleRoot' entryCount' signedAt' →
        windowStart = windowStart' ∧ merkleRoot = merkleRoot' ∧ entryCount = entryCount' ∧
          signedAt = signedAt') := by
  have hiff : canonicalCheckpointHash sha256 windowStart merkleRoot entryCount signedAt =
        canonicalCheckpointHash sha256 windowStart' merkleRoot' entryCount' signedAt' ↔
      windowStart.written = windowStart'.written ∧ merkleRoot = merkleRoot' ∧
        entryCount = entryCount' ∧ signedAt.written = signedAt'.written := by
    rw [← canonical_eq_iff]
    constructor
    · intro h
      exact String.toByteArray_inj.mp (hfree (by simp) (by simp) h)
    · intro h
      rw [canonicalCheckpointHash, canonicalCheckpointHash, h]
  refine ⟨hiff, fun hw hw' hs hs' h => ?_⟩
  obtain ⟨hwindow, hroot, hcount, hsigned⟩ := hiff.mp h
  exact ⟨DateTime.eq_of_written_eq hw hw' hwindow, hroot, hcount,
    DateTime.eq_of_written_eq hs hs' hsigned⟩

/-- A time in the first minute of a year. -/
def atSecond (second nanosecond : Nat) (hsecond : second < 60)
    (hnanosecond : nanosecond < 2 * 10 ^ 9) : DateTime :=
  ⟨2026, 1, 1, 0, 0, second, nanosecond, by decide, by decide, by decide, by decide, hsecond,
    hnanosecond⟩

/-- A leap second after second 30. -/
def leapInside : DateTime := atSecond 30 1500000000 (by decide) (by decide)

def secondAfter : DateTime := atSecond 31 500000000 (by decide) (by decide)

/-- A root that goes on like the template does. -/
def quotedRoot : String := "00\",\"signed_at\":\""

theorem toList_data_injective : Function.Injective fun bytes : ByteArray => bytes.data.toList :=
  fun _ _ h => ByteArray.ext (Array.toList_inj.mp h)

/-- Another root with other quotes in it has another hash. -/
theorem checkpoint_hash_of_quotes :
    Set.InjOn (fun bytes : ByteArray => bytes.data.toList)
        {(canonical secondAfter quotedRoot 1 secondAfter).toUTF8,
          (canonical secondAfter "00" 1 secondAfter).toUTF8} ∧
      canonicalCheckpointHash (·.data.toList) secondAfter quotedRoot 1 secondAfter ≠
        canonicalCheckpointHash (·.data.toList) secondAfter "00" 1 secondAfter := by
  refine ⟨toList_data_injective.injOn, fun h => ?_⟩
  have hfields := ((checkpoint_hash_eq_iff (·.data.toList) secondAfter secondAfter quotedRoot "00"
    1 1 secondAfter secondAfter toList_data_injective.injOn).1).mp h
  exact absurd hfields.2.1 (by decide)

/-- **A leap second inside a minute** is hashed like the second after it, whatever the hash. -/
theorem leap_second_inside_minute :
    leapInside ≠ secondAfter ∧
      ∀ sha256 : ByteArray → List UInt8,
        canonicalCheckpointHash sha256 leapInside "00" 1 secondAfter =
          canonicalCheckpointHash sha256 secondAfter "00" 1 secondAfter := by
  refine ⟨by decide, fun sha256 => ?_⟩
  have hwritten : leapInside.written = secondAfter.written := by decide
  rw [canonicalCheckpointHash, canonicalCheckpointHash,
    (canonical_eq_iff _ _ _ _ _ _ _ _).mpr ⟨hwritten, rfl, rfl, rfl⟩]

end FerrumGate.CheckpointPayload
