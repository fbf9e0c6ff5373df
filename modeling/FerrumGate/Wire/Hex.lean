import FerrumGate.Serde.Scanning

/-!
# Hexadecimal texts

Bytes written as two lowercase digits each, and read from digits of either case.

* `decode_encode` : what is written is read back.
* **`encode_decode`** : a text in lowercase is what its bytes are written as, so that such texts
  stand for their bytes.
-/

namespace Hex

open Serde

def encode (bytes : List UInt8) : List Char :=
  bytes.flatMap fun b => [hexDigit (b.toNat / 16), hexDigit (b.toNat % 16)]

def decode : List Char → Option (List UInt8)
  | [] => some []
  | [_] => none
  | high :: low :: rest => do
    let high ← hexValue high
    let low ← hexValue low
    let bytes ← decode rest
    return UInt8.ofNat (high * 16 + low) :: bytes

/-- A lowercase digit. -/
def isLowerDigit (c : Char) : Bool := c.isDigit || (97 ≤ c.toNat && c.toNat ≤ 102)

theorem decode_encode (bytes : List UInt8) : decode (encode bytes) = some bytes := by
  induction bytes with
  | nil => rfl
  | cons b rest ih =>
    have hb := b.toNat_lt
    have hhigh := hexValue_hexDigit (n := b.toNat / 16) (by omega)
    have hlow := hexValue_hexDigit (n := b.toNat % 16) (by omega)
    have hbyte : UInt8.ofNat (b.toNat / 16 * 16 + b.toNat % 16) = b := by
      rw [Nat.div_add_mod', UInt8.ofNat_toNat]
    unfold encode at ih ⊢
    simp only [List.flatMap_cons, List.cons_append, List.nil_append, decode, hhigh, hlow, ih,
      hbyte, Option.bind_eq_bind, Option.bind_some, Option.pure_def]

theorem encode_injective {bytes bytes' : List UInt8} (h : encode bytes = encode bytes') :
    bytes = bytes' := by
  rw [← Option.some_inj, ← decode_encode, h, decode_encode]

theorem isDigit_iff {c : Char} : c.isDigit = true ↔ 48 ≤ c.toNat ∧ c.toNat ≤ 57 := by
  simp only [Char.isDigit, Bool.and_eq_true, decide_eq_true_eq, UInt32.le_iff_toNat_le]
  rfl

/-- A lowercase digit is the one its value is written as. -/
theorem hexDigit_of_lower {c : Char} {n : Nat} (hlower : isLowerDigit c = true)
    (h : hexValue c = some n) : n < 16 ∧ hexDigit n = c := by
  rw [isLowerDigit, Bool.or_eq_true, isDigit_iff, Bool.and_eq_true, decide_eq_true_eq,
    decide_eq_true_eq] at hlower
  have hvalue : c.toNat = if n < 10 then 48 + n else 87 + n := by
    unfold hexValue at h
    split_ifs at h with hdigit hletter hupper
    · have := isDigit_iff.mp hdigit
      cases h
      split_ifs <;> omega
    · cases h
      split_ifs <;> omega
    · rw [isDigit_iff] at hdigit
      omega
  have hn : n < 16 := by
    split_ifs at hvalue <;> omega
  refine ⟨hn, ?_⟩
  unfold hexDigit
  split_ifs at hvalue ⊢ <;> rw [← hvalue, Char.ofNat_toNat]

/-- A text in lowercase is what its bytes are written as. -/
theorem encode_decode : {text : List Char} → {bytes : List UInt8} →
    (∀ c ∈ text, isLowerDigit c = true) → decode text = some bytes → encode bytes = text
  | [], _, _, h => by
    cases h
    rfl
  | [_], _, _, h => by cases h
  | first :: second :: rest, bytes, hlower, h => by
    simp only [decode, Option.bind_eq_bind, Option.bind_eq_some_iff, Option.pure_def,
      Option.some_inj] at h
    obtain ⟨high, hhigh, low, hlow, tail, htail, rfl⟩ := h
    obtain ⟨hhigh, rfl⟩ := hexDigit_of_lower (hlower first (by simp)) hhigh
    obtain ⟨hlow, rfl⟩ := hexDigit_of_lower (hlower second (by simp)) hlow
    have hrest : encode tail = rest :=
      encode_decode (fun c hc => hlower c (by simp [hc])) htail
    have hbyte : (UInt8.ofNat (high * 16 + low)).toNat = high * 16 + low := by
      rw [UInt8.toNat_ofNat', Nat.mod_eq_of_lt (by omega)]
    have hdiv : (high * 16 + low) / 16 = high := by omega
    have hmod : (high * 16 + low) % 16 = low := by omega
    unfold encode at hrest ⊢
    rw [List.flatMap_cons, hrest, hbyte, hdiv, hmod]
    rfl

theorem hexValue_isSome {c : Char} (h : isLowerDigit c = true) : (hexValue c).isSome = true := by
  rw [isLowerDigit, Bool.or_eq_true, Bool.and_eq_true, decide_eq_true_eq, decide_eq_true_eq] at h
  unfold hexValue
  split_ifs with hdigit hletter
  · rfl
  · rfl
  · rfl
  · exact absurd h (not_or_intro hdigit hletter)

theorem decode_isSome : {text : List Char} → 2 ∣ text.length →
    (∀ c ∈ text, isLowerDigit c = true) → (decode text).isSome = true
  | [], _, _ => rfl
  | [_], heven, _ => absurd heven (show ¬ 2 ∣ 1 by decide)
  | first :: second :: rest, heven, hlower => by
    obtain ⟨high, hhigh⟩ :=
      Option.isSome_iff_exists.mp (hexValue_isSome (hlower first (by simp)))
    obtain ⟨low, hlow⟩ := Option.isSome_iff_exists.mp (hexValue_isSome (hlower second (by simp)))
    have hrest : 2 ∣ rest.length := by
      simp only [List.length_cons] at heven
      omega
    obtain ⟨bytes, hbytes⟩ := Option.isSome_iff_exists.mp
      (decode_isSome hrest fun c hc => hlower c (by simp [hc]))
    simp [decode, hhigh, hlow, hbytes]

/-- Texts in lowercase stand for their bytes. -/
theorem decode_injective {text text' : List Char} (hlower : ∀ c ∈ text, isLowerDigit c = true)
    (hlower' : ∀ c ∈ text', isLowerDigit c = true) {bytes : List UInt8}
    (h : decode text = some bytes) (h' : decode text' = some bytes) : text = text' := by
  rw [← encode_decode hlower h, encode_decode hlower' h']

end Hex
