import Mathlib.Algebra.Group.Nat.Defs
import Mathlib.Data.Char
import Mathlib.Data.List.Lex
import Mathlib.Logic.Function.Iterate

/-!
# Dates and how they are written

The proleptic Gregorian calendar from the first day of year 0 on, one day after the other, and the
two usual texts of an instant in UTC: that of RFC 3339 with a `T` between date and time, and that of
SQL with a blank. An instant is a number of nanoseconds.

Texts are compared character by character. Fixed widths and leading zeros make the texts of dates
compare like the dates; which of two texts of the same day is greater, the character behind the date
decides.

* `text_lt_text`: dates.
* `sqlDateTime_lt_rfc3339_iff`: an instant in the one notation and an instant in the other.
-/

namespace Civil

/-! ## Digits -/

def digit (n : Nat) : Char := Char.ofNat ('0'.toNat + n % 10)

/-- The last `width` decimal digits of a number. -/
def digits : Nat → Nat → List Char
  | 0, _ => []
  | width + 1, n => digits width (n / 10) ++ [digit n]

theorem digits_four (n : Nat) :
    digits 4 n = [digit (n / 10 / 10 / 10), digit (n / 10 / 10), digit (n / 10), digit n] := rfl

@[simp]
theorem length_digits (width n : Nat) : (digits width n).length = width := by
  induction width generalizing n with
  | zero => rfl
  | succ width ih => simp [digits, ih]

theorem digit_lt_iff (n m : Nat) : digit n < digit m ↔ n % 10 < m % 10 := by
  have h : ∀ a b : Fin 10, Char.ofNat ('0'.toNat + a) < Char.ofNat ('0'.toNat + b) ↔ a < b := by
    decide
  exact h ⟨n % 10, Nat.mod_lt _ (by decide)⟩ ⟨m % 10, Nat.mod_lt _ (by decide)⟩

theorem plus_lt_digit (n : Nat) : '+' < digit n := by
  have h : ∀ a : Fin 10, '+' < Char.ofNat ('0'.toNat + a) := by decide
  exact h ⟨n % 10, Nat.mod_lt _ (by decide)⟩

/-- Lists with fronts of one length. -/
theorem append_lt_append_iff {a b x y : List Char} (h : a.length = b.length) :
    a ++ x < b ++ y ↔ a < b ∨ a = b ∧ x < y := by
  induction a generalizing b with
  | nil =>
    rw [List.length_eq_zero_iff.1 h.symm]
    simp
  | cons c a ih =>
    cases b with
    | nil => cases h
    | cons d b =>
      simp only [List.cons_append, List.cons_lt_cons_iff, ih (Nat.succ.inj h), List.cons.injEq]
      tauto

/-- Numbers that fit compare like their digits. -/
theorem digits_lt_digits {width n m : Nat} (hm : m < 10 ^ width) (h : n < m) :
    digits width n < digits width m := by
  induction width generalizing n m with
  | zero => simp at hm; omega
  | succ width ih =>
    rw [digits, digits, append_lt_append_iff (by simp)]
    rcases Nat.lt_or_ge (n / 10) (m / 10) with hlt | hge
    · exact Or.inl (ih (by rw [Nat.pow_succ] at hm; omega) hlt)
    · have heq : n / 10 = m / 10 := by omega
      refine Or.inr ⟨by rw [heq], List.cons_lt_cons_iff.2 (Or.inl ?_)⟩
      rw [digit_lt_iff]
      omega

/-! ## Dates -/

structure Date where
  year : Nat
  month : Nat
  day : Nat
  deriving DecidableEq

def isLeap (year : Nat) : Bool := year % 4 = 0 && (year % 100 ≠ 0 || year % 400 = 0)

def daysInMonth (year month : Nat) : Nat :=
  if month = 2 then if isLeap year then 29 else 28
  else if month = 4 ∨ month = 6 ∨ month = 9 ∨ month = 11 then 30
  else 31

def Date.next (date : Date) : Date :=
  if date.day < daysInMonth date.year date.month then { date with day := date.day + 1 }
  else if date.month < 12 then ⟨date.year, date.month + 1, 1⟩
  else ⟨date.year + 1, 1, 1⟩

/-- The date so many days after the first of January of year 0. -/
def dateOf (days : Nat) : Date := Date.next^[days] ⟨0, 1, 1⟩

example : dateOf 59 = ⟨0, 2, 29⟩ := by decide +kernel

def Date.Before (a b : Date) : Prop :=
  a.year < b.year ∨ a.year = b.year ∧
    (a.month < b.month ∨ a.month = b.month ∧ a.day < b.day)

theorem Date.Before.trans {a b c : Date} (h : a.Before b) (h' : b.Before c) : a.Before c := by
  unfold Date.Before at *
  omega

theorem Date.before_next (date : Date) : date.Before date.next := by
  unfold Date.Before Date.next
  split_ifs <;> simp

theorem dateOf_succ (days : Nat) : dateOf (days + 1) = (dateOf days).next :=
  Function.iterate_succ_apply' _ _ _

theorem dateOf_before {days days' : Nat} (h : days < days') :
    (dateOf days).Before (dateOf days') := by
  induction days' with
  | zero => omega
  | succ days' ih =>
    rw [dateOf_succ]
    rcases Nat.lt_succ_iff_lt_or_eq.1 h with hlt | rfl
    · exact (ih hlt).trans (Date.before_next _)
    · exact Date.before_next _

theorem year_mono {days days' : Nat} (h : days ≤ days') :
    (dateOf days).year ≤ (dateOf days').year := by
  rcases Nat.lt_or_eq_of_le h with hlt | rfl
  · have := dateOf_before hlt
    unfold Date.Before at this
    omega
  · exact Nat.le_refl _

theorem daysInMonth_le (year month : Nat) : daysInMonth year month ≤ 31 := by
  unfold daysInMonth
  split_ifs <;> decide

theorem dateOf_bounds (days : Nat) : (dateOf days).month ≤ 12 ∧ (dateOf days).day ≤ 31 := by
  induction days with
  | zero => decide
  | succ days ih =>
    rw [dateOf_succ, Date.next]
    have := daysInMonth_le (dateOf days).year (dateOf days).month
    split_ifs
    · exact ⟨ih.1, by dsimp only; omega⟩
    · exact ⟨by dsimp only; omega, by dsimp only; omega⟩
    · exact ⟨by dsimp only; omega, by dsimp only; omega⟩

/-- A year has four digits, and a sign if it needs more. -/
def yearText (year : Nat) : List Char :=
  if year ≤ 9999 then digits 4 year else '+' :: Nat.toDigits 10 year

def Date.text (date : Date) : List Char :=
  yearText date.year ++ '-' :: (digits 2 date.month ++ '-' :: digits 2 date.day)

theorem length_text {date : Date} (h : date.year ≤ 9999) : date.text.length = 10 := by
  simp [Date.text, yearText, h]

/-- Dates of years with four digits compare like their texts. -/
theorem text_lt_text {days days' : Nat} (hyear : (dateOf days').year ≤ 9999) (h : days < days') :
    (dateOf days).text < (dateOf days').text := by
  have hle := (year_mono h.le).trans hyear
  have hbefore := dateOf_before h
  have hbounds := dateOf_bounds days'
  unfold Date.text yearText
  rw [if_pos hle, if_pos hyear, append_lt_append_iff (by simp)]
  rcases hbefore with hlt | ⟨heq, hbefore⟩
  · exact Or.inl (digits_lt_digits (by omega) hlt)
  · refine Or.inr ⟨by rw [heq], List.cons_lt_cons_iff.2 (Or.inr ⟨rfl, ?_⟩)⟩
    rw [append_lt_append_iff (by simp)]
    rcases hbefore with hlt | ⟨heq, hlt⟩
    · exact Or.inl (digits_lt_digits (by omega) hlt)
    · refine Or.inr ⟨by rw [heq], List.cons_lt_cons_iff.2 (Or.inr ⟨rfl, ?_⟩)⟩
      exact digits_lt_digits (by omega) hlt

/-! ## Instants -/

def nanosPerDay : Nat := 86400 * 10 ^ 9

/-- The days before an instant. -/
def dayOf (t : Nat) : Nat := t / nanosPerDay

/-- The year of an instant. -/
def yearOf (t : Nat) : Nat := (dateOf (dayOf t)).year

/-- Hours, minutes and seconds. -/
def timeText (t : Nat) : List Char :=
  let seconds := t / 10 ^ 9 % 86400
  digits 2 (seconds / 3600) ++ ':' :: (digits 2 (seconds / 60 % 60) ++ ':' :: digits 2 (seconds % 60))

/-- The fraction of a second, in as many groups of three digits as it needs. -/
def fractionText (t : Nat) : List Char :=
  let nanos := t % 10 ^ 9
  if nanos = 0 then []
  else if nanos % 10 ^ 6 = 0 then '.' :: digits 3 (nanos / 10 ^ 6)
  else if nanos % 10 ^ 3 = 0 then '.' :: digits 6 (nanos / 10 ^ 3)
  else '.' :: digits 9 nanos

/-- RFC 3339, with the offset of UTC. -/
def rfc3339 (t : Nat) : List Char :=
  (dateOf (dayOf t)).text ++ 'T' :: (timeText t ++ fractionText t ++ "+00:00".toList)

/-- The `datetime` of SQL, which stops at the end of year 9999. -/
def sqlDateTime (t : Nat) : Option (List Char) :=
  if yearOf t ≤ 9999 then some ((dateOf (dayOf t)).text ++ ' ' :: timeText t) else none

example : rfc3339 3600000500000000 = "0000-02-11T16:00:00.500+00:00".toList := by decide +kernel

/-- In a text comparison an instant of the same day is greater in the notation with the `T`,
whatever the times of the day. -/
theorem sqlDateTime_lt_rfc3339_iff {t : Nat} {text : List Char} (h : sqlDateTime t = some text)
    (t' : Nat) : text < rfc3339 t' ↔ yearOf t' ≤ 9999 ∧ dayOf t ≤ dayOf t' := by
  unfold sqlDateTime at h
  split_ifs at h with hyear
  obtain rfl := Option.some.inj h
  by_cases hyear' : yearOf t' ≤ 9999
  · rw [rfc3339, append_lt_append_iff (by rw [length_text hyear, length_text hyear'])]
    simp only [hyear', true_and]
    rcases Nat.lt_trichotomy (dayOf t) (dayOf t') with hlt | heq | hgt
    · exact iff_of_true (Or.inl (text_lt_text hyear' hlt)) hlt.le
    · refine iff_of_true (Or.inr ⟨by rw [heq], ?_⟩) heq.le
      exact List.cons_lt_cons_iff.2 (Or.inl (by decide))
    · have hback := text_lt_text hyear hgt
      refine iff_of_false ?_ (not_le.2 hgt)
      rintro (hlt | heq)
      · exact lt_asymm hback hlt
      · exact absurd heq.1 hback.ne'
  · -- the sign of a longer year is less than any digit
    refine iff_of_false ?_ fun h => hyear' h.1
    unfold yearOf at hyear hyear'
    unfold rfc3339 Date.text yearText
    rw [if_pos hyear, if_neg hyear', digits_four]
    simp only [List.cons_append, List.cons_lt_cons_iff]
    have hplus := plus_lt_digit ((dateOf (dayOf t)).year / 10 / 10 / 10)
    rintro (hlt | heq)
    · exact lt_asymm hplus hlt
    · exact absurd heq.1 hplus.ne'

end Civil
