import FerrumGate.Civil.Calendar
import Mathlib.Data.Prod.Lex
import Mathlib.Order.Hom.Basic

/-!
# Instants of UTC and the order of their texts

An instant is a second, and nanoseconds into it; more than a whole second of them in a leap second,
which ends a minute and is written as its second 60. The years are those of four digits.

The text of RFC 3339 has a fixed width down to the seconds. A fraction has as many groups of three
digits as it needs, so two fractions may end at different places; the sign of the offset behind the
shorter one is then less than the point and less than every digit.

* `groups_lt`: fractions, one group after the other.
* `Instant.rfc3339_strictMono`, `Instant.rfc3339Embedding`: the texts are in the order of time.
-/

namespace Civil

/-! ## Blocks of digits -/

theorem digits_add (width width' n : Nat) :
    digits (width + width') n = digits width (n / 10 ^ width') ++ digits width' n := by
  induction width' generalizing n with
  | zero => simp [digits]
  | succ width' ih =>
    rw [← Nat.add_assoc, digits, ih, Nat.div_div_eq_div_mul, ← Nat.pow_succ', digits,
      List.append_assoc]

/-- Only the digits that are written count. -/
theorem digits_mod (width n : Nat) : digits width (n % 10 ^ width) = digits width n := by
  induction width generalizing n with
  | zero => rfl
  | succ width ih =>
    have hdiv : n % 10 ^ (width + 1) / 10 = n / 10 % 10 ^ width := by
      rw [Nat.pow_succ', Nat.mod_mul_right_div_self]
    have hdigit : digit (n % 10 ^ (width + 1)) = digit n := by
      rw [digit, Nat.mod_mod_of_dvd _ ⟨10 ^ width, Nat.pow_succ'⟩, digit]
    rw [digits, hdiv, ih, hdigit, digits]

/-- The first block of one width in which two texts differ decides. -/
theorem digits_append_lt {width n m : Nat} {x y : List Char} (hm : m < 10 ^ width)
    (h : n < m ∨ n = m ∧ x < y) : digits width n ++ x < digits width m ++ y := by
  rw [append_lt_append_iff (by simp)]
  rcases h with hlt | ⟨rfl, hrest⟩
  · exact Or.inl (digits_lt_digits hm hlt)
  · exact Or.inr ⟨rfl, hrest⟩

theorem cons_lt_cons_self {c : Char} {x y : List Char} (h : x < y) : c :: x < c :: y :=
  List.cons_lt_cons_iff.2 (Or.inr ⟨rfl, h⟩)

/-! ## Fractions -/

/-- A number of `count` groups of three digits, without the zeros behind the last group needed. -/
def groups : Nat → Nat → List Char
  | 0, _ => []
  | count + 1, n =>
    if n = 0 then [] else digits 3 (n / 1000 ^ count) ++ groups count (n % 1000 ^ count)

theorem plus_lt_digits (n : Nat) (x y : List Char) : '+' :: x < digits 3 n ++ y :=
  List.cons_lt_cons_iff.2 (Or.inl (plus_lt_digit _))

theorem groups_lt {count n m : Nat} (hm : m < 1000 ^ count) (h : n < m) (rest : List Char) :
    groups count n ++ '+' :: rest < groups count m ++ '+' :: rest := by
  induction count generalizing n m with
  | zero => simp at hm; omega
  | succ count ih =>
    rw [groups, groups, if_neg (Nat.ne_of_gt (Nat.zero_lt_of_lt h)), List.append_assoc]
    split_ifs with hn
    · exact plus_lt_digits _ _ _
    · have hpos : 0 < 1000 ^ count := Nat.pow_pos (by decide)
      have hfirst : m / 1000 ^ count < 10 ^ 3 := Nat.div_lt_of_lt_mul hm
      rw [List.append_assoc]
      refine digits_append_lt hfirst ?_
      rcases Nat.lt_or_eq_of_le (Nat.div_le_div_right h.le) with hlt | heq
      · exact Or.inl hlt
      · refine Or.inr ⟨heq, ih (Nat.mod_lt _ hpos) ?_⟩
        have hn := Nat.div_add_mod n (1000 ^ count)
        have hm := Nat.div_add_mod m (1000 ^ count)
        rw [heq] at hn
        omega

theorem fractionText_eq (t : Nat) :
    fractionText t = if t % 10 ^ 9 = 0 then [] else '.' :: groups 3 (t % 10 ^ 9) := by
  unfold fractionText
  generalize t % 10 ^ 9 = n
  have hsecond : digits 3 (n % 1000000 / 1000) = digits 3 (n / 1000) := by
    rw [← digits_mod 3 (n / 1000)]
    congr 1
    omega
  have hsix : digits 6 (n / 1000) = digits 3 (n / 1000000) ++ digits 3 (n % 1000000 / 1000) := by
    rw [digits_add 3 3, Nat.div_div_eq_div_mul, hsecond]
    rfl
  have hnine : digits 9 n = digits 6 (n / 1000) ++ digits 3 (n % 1000) := by
    rw [digits_add 6 3, ← digits_mod 3 n]
    rfl
  have hthird : n % 1000000 % 1000 = n % 1000 := by omega
  by_cases hzero : n = 0
  · simp only [hzero, if_true]
  · -- a group is left out when nothing but zeros follows
    simp only [hzero, if_false, groups, Nat.reducePow, Nat.div_one, hnine, hsix, hthird]
    split_ifs <;> simp

/-- Fractions of a second, with the sign of the offset behind them. -/
theorem fractionText_lt {t t' : Nat} (h : t % 10 ^ 9 < t' % 10 ^ 9) (rest : List Char) :
    fractionText t ++ '+' :: rest < fractionText t' ++ '+' :: rest := by
  rw [fractionText_eq, fractionText_eq, if_neg (Nat.ne_of_gt (Nat.zero_lt_of_lt h))]
  split_ifs with hzero
  · exact List.cons_lt_cons_iff.2 (Or.inl (by decide))
  · exact cons_lt_cons_self (groups_lt (Nat.mod_lt _ (by decide)) h rest)

/-! ## Instants -/

/-- A second since the first day of year 0, leap seconds not counted, and nanoseconds into it. -/
@[ext]
structure Instant where
  second : Nat
  nanosecond : Nat
  nanosecond_lt : nanosecond < 2 * 10 ^ 9
  leap_ends_minute : 10 ^ 9 ≤ nanosecond → second % 60 = 59
  year_le : (dateOf (second / 86400)).year ≤ 9999

namespace Instant

def key (t : Instant) : Nat ×ₗ Nat := toLex (t.second, t.nanosecond)

theorem key_injective : Function.Injective key := by
  intro a b h
  have hpair := Prod.ext_iff.1 (toLex.injective h)
  exact Instant.ext hpair.1 hpair.2

/-- Chronological order. -/
instance : LinearOrder Instant := LinearOrder.lift' key key_injective

theorem lt_iff {a b : Instant} :
    a < b ↔ a.second < b.second ∨ a.second = b.second ∧ a.nanosecond < b.nanosecond :=
  Prod.Lex.lt_iff

/-- The second of the minute, which is 60 in a leap second. -/
def clockSecond (t : Instant) : Nat := t.second % 60 + t.nanosecond / 10 ^ 9

/-- RFC 3339, with the offset of UTC. -/
def rfc3339 (t : Instant) : List Char :=
  (dateOf (t.second / 86400)).text ++ 'T' ::
    (digits 2 (t.second % 86400 / 3600) ++ ':' ::
      (digits 2 (t.second / 60 % 60) ++ ':' ::
        (digits 2 t.clockSecond ++ (fractionText t.nanosecond ++ "+00:00".toList))))

/-- The first field of the text in which the earlier of two instants is less. -/
theorem fields_of_lt {a b : Instant} (h : a < b) :
    a.second / 86400 < b.second / 86400 ∨ a.second / 86400 = b.second / 86400 ∧
    (a.second % 86400 / 3600 < b.second % 86400 / 3600 ∨
      a.second % 86400 / 3600 = b.second % 86400 / 3600 ∧
    (a.second / 60 % 60 < b.second / 60 % 60 ∨ a.second / 60 % 60 = b.second / 60 % 60 ∧
    (a.clockSecond < b.clockSecond ∨ a.clockSecond = b.clockSecond ∧
      a.nanosecond % 10 ^ 9 < b.nanosecond % 10 ^ 9))) := by
  have ha := a.leap_ends_minute
  have ha' := a.nanosecond_lt
  have hb := b.nanosecond_lt
  unfold clockSecond
  rcases lt_iff.1 h with hlt | ⟨heq, hlt⟩
  · omega
  · rw [heq]
    omega

theorem clockSecond_lt (t : Instant) : t.clockSecond < 10 ^ 2 := by
  have := t.nanosecond_lt
  unfold clockSecond
  omega

/-- Of two instants the earlier has the lesser text. -/
theorem rfc3339_strictMono : StrictMono rfc3339 := by
  intro a b h
  have hlength : (dateOf (a.second / 86400)).text.length = (dateOf (b.second / 86400)).text.length := by
    rw [length_text a.year_le, length_text b.year_le]
  unfold rfc3339
  rw [append_lt_append_iff hlength]
  rcases fields_of_lt h with hday | ⟨hday, h⟩
  · exact Or.inl (text_lt_text b.year_le hday)
  · refine Or.inr ⟨by rw [hday], cons_lt_cons_self (digits_append_lt (by omega) ?_)⟩
    refine h.imp_right (And.imp_right fun h => ?_)
    refine cons_lt_cons_self (digits_append_lt (by omega) ?_)
    refine h.imp_right (And.imp_right fun h => ?_)
    refine cons_lt_cons_self (digits_append_lt b.clockSecond_lt ?_)
    exact h.imp_right (And.imp_right fun h => fractionText_lt h _)

/-- The text of an instant, as an embedding of orders. -/
def rfc3339Embedding : Instant ↪o List Char :=
  OrderEmbedding.ofStrictMono rfc3339 rfc3339_strictMono

end Instant

end Civil
