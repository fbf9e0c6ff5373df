import FerrumGate.Serde.Text
import Mathlib.Algebra.Group.Nat.Defs

/-!
# Numbers in a text

Decimal numbers with leading zeros up to a width, and integers with a sign.

* `value_padded` : the value can be read off, whatever the width, so that different numbers have
  different texts (`padded_injective`).
* `writeInteger_injective` : the same with a sign.
-/

namespace Wire

/-- A number with leading zeros, if it has fewer digits than `width`. -/
def padded (width n : Nat) : List Char :=
  List.replicate (width - (Nat.toDigits 10 n).length) '0' ++ Nat.toDigits 10 n

theorem value_padded (width n : Nat) : Nat.ofDigitChars 10 (padded width n) 0 = n := by
  rw [padded, Nat.ofDigitChars_append, Nat.ofDigitChars_replicate_zero, Nat.mul_zero,
    Nat.ofDigitChars_ten_toDigits]

theorem padded_injective {width width' n n' : Nat} (h : padded width n = padded width' n') :
    n = n' := by
  rw [← value_padded width n, h, value_padded]

theorem length_padded {width n : Nat} (hwidth : 0 < width) (hn : n < 10 ^ width) :
    (padded width n).length = width := by
  have hlength := (Nat.length_toDigits_le_iff (b := 10) (by decide) hwidth).mpr hn
  rw [padded, List.length_append, List.length_replicate]
  omega

theorem isDigit_of_mem_padded {width n : Nat} {c : Char} (h : c ∈ padded width n) :
    c.isDigit = true := by
  rcases List.mem_append.mp h with hzero | hdigit
  · rw [(List.mem_replicate.mp hzero).2]
    rfl
  · exact Nat.isDigit_of_mem_toDigits (by decide) (by decide) hdigit

theorem not_mem_padded {width n : Nat} {c : Char} (hc : c.isDigit = false) : c ∉ padded width n :=
  fun h => by
    rw [isDigit_of_mem_padded h] at hc
    cases hc

open Serde in
theorem writeInteger_injective {n n' : Int} (h : writeInteger n = writeInteger n') : n = n' := by
  have hvalue (m : Nat) : Nat.ofDigitChars 10 (Nat.toDigits 10 m) 0 = m :=
    Nat.ofDigitChars_ten_toDigits
  have hminus (m : Nat) (rest : List Char) : Nat.toDigits 10 m ≠ '-' :: rest := fun heq => by
    have hdigit := Nat.isDigit_of_mem_toDigits (b := 10) (n := m) (c := '-') (by decide) (by decide)
      (heq ▸ List.mem_cons_self)
    cases hdigit
  unfold writeInteger at h
  split_ifs at h with hn hn' hn'
  · have := congrArg (Nat.ofDigitChars 10 · 0) (List.cons.inj h).2
    simp only [hvalue] at this
    omega
  · exact absurd h.symm (hminus _ _)
  · exact absurd h (hminus _ _)
  · have := congrArg (Nat.ofDigitChars 10 · 0) h
    simp only [hvalue] at this
    omega

open Serde in
theorem not_mem_writeInteger {n : Int} {c : Char} (hc : c.isDigit = false) (hminus : c ≠ '-') :
    c ∉ writeInteger n := by
  have hdigits : c ∉ Nat.toDigits 10 n.natAbs := fun h => by
    rw [Nat.isDigit_of_mem_toDigits (by decide) (by decide) h] at hc
    cases hc
  unfold writeInteger
  split_ifs
  · exact fun h => (List.mem_cons.mp h).elim hminus hdigits
  · exact hdigits

end Wire
