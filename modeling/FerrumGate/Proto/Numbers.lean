import Mathlib.Algebra.Group.Nat.Defs
import Mathlib.Data.List.Basic

/-!
# Numbers in texts

`from_str_radix` of the unsigned integers.
-/

namespace FerrumGate

inductive ParseIntError where
  | empty | invalidDigit | posOverflow
  deriving DecidableEq

/-- `char::to_digit`. -/
def toDigit (radix : Nat) (c : Char) : Option Nat :=
  let value :=
    if c.isDigit then c.toNat - '0'.toNat
    else if 'a' ≤ c ∧ c ≤ 'z' then c.toNat - 'a'.toNat + 10
    else if 'A' ≤ c ∧ c ≤ 'Z' then c.toNat - 'A'.toNat + 10
    else radix
  if value < radix then some value else none

/-- Read digits one after the other, on top of what was read; `limit` is the first number that does
not fit. -/
def readDigits (radix limit : Nat) : Nat → List Char → Except ParseIntError Nat
  | value, [] => .ok value
  | value, c :: rest =>
    match toDigit radix c with
    | none => .error .invalidDigit
    | some digit =>
      if radix * value + digit < limit then readDigits radix limit (radix * value + digit) rest
      else .error .posOverflow

/-- `from_str_radix` of an unsigned integer with so many bits. -/
def fromStrRadix (radix bits : Nat) (text : String) : Except ParseIntError Nat :=
  match text.toList with
  | [] => .error .empty
  | ['+'] => .error .invalidDigit
  | '+' :: digits => readDigits radix (2 ^ bits) 0 digits
  | digits => readDigits radix (2 ^ bits) 0 digits

theorem toDigit_ten {c : Char} {digit : Nat} (h : toDigit 10 c = some digit) :
    c.isDigit = true ∧ c.toNat - '0'.toNat = digit := by
  simp only [toDigit, Option.ite_none_right_eq_some, Option.some.injEq] at h
  obtain ⟨hlt, rfl⟩ := h
  by_cases hdigit : c.isDigit = true
  · exact ⟨hdigit, (if_pos hdigit).symm⟩
  · rw [if_neg hdigit] at hlt
    split_ifs at hlt <;> omega

/-- What a decimal number reads is the value of its digits. -/
theorem readDigits_ok {limit value n : Nat} {text : List Char}
    (h : readDigits 10 limit value text = .ok n) :
    text.all Char.isDigit = true ∧ Nat.ofDigitChars 10 text value = n := by
  induction text generalizing value with
  | nil => simpa [readDigits] using h
  | cons c rest ih =>
    unfold readDigits at h
    cases hdigit : toDigit 10 c with
    | none => simp [hdigit] at h
    | some digit =>
      simp only [hdigit] at h
      split_ifs at h
      obtain ⟨hc, rfl⟩ := toDigit_ten hdigit
      obtain ⟨hrest, hvalue⟩ := ih h
      exact ⟨by simp [hc, hrest], by rwa [Nat.ofDigitChars_cons]⟩

end FerrumGate
