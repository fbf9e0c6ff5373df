import Mathlib.Data.List.TakeWhile
import Mathlib.Tactic.IntervalCases
import FerrumGate.Serde.Text

/-!
# Strings and numbers are read back

* **`readString_write`** : the inside of a string, whatever follows its end.
* **`scanNumber_integer`** : an integer, when what follows does not go on with the number.
* `scanNumber_append` : a number that was all of a text is scanned alike in front of such a rest.
-/

namespace Serde

/-! ## Strings -/

theorem hexValue_hexDigit {n : Nat} (h : n < 16) : hexValue (hexDigit n) = some n := by
  interval_cases n <;> rfl

/-- An escaped character is read back. -/
theorem readString_escape (c : Char) (tail : List Char) :
    readString (escape c ++ tail) = consChar c (readString tail) := by
  unfold escape
  split_ifs with hquote hbackslash h8 h9 h10 h12 h13 h32
  · subst hquote
    rfl
  · subst hbackslash
    rfl
  · have hc : c = Char.ofNat 8 := by rw [← h8, Char.ofNat_toNat]
    subst hc
    rfl
  · have hc : c = Char.ofNat 9 := by rw [← h9, Char.ofNat_toNat]
    subst hc
    rfl
  · have hc : c = Char.ofNat 10 := by rw [← h10, Char.ofNat_toNat]
    subst hc
    rfl
  · have hc : c = Char.ofNat 12 := by rw [← h12, Char.ofNat_toNat]
    subst hc
    rfl
  · have hc : c = Char.ofNat 13 := by rw [← h13, Char.ofNat_toNat]
    subst hc
    rfl
  · have hunit : codeUnit '0' '0' (hexDigit (c.toNat / 16)) (hexDigit (c.toNat % 16)) =
        some c.toNat := by
      have hzero : hexValue '0' = some 0 := rfl
      have hdiv := hexValue_hexDigit (n := c.toNat / 16) (by omega)
      have hmod := hexValue_hexDigit (n := c.toNat % 16) (by omega)
      simp only [codeUnit, hzero, hdiv, hmod, Option.bind_eq_bind, Option.bind_some,
        Option.pure_def, Option.some.injEq]
      omega
    have hplain : ¬ (0xDC00 ≤ c.toNat ∧ c.toNat ≤ 0xDFFF) := by omega
    have hplain' : ¬ (0xD800 ≤ c.toNat ∧ c.toNat ≤ 0xDBFF) := by omega
    rw [List.cons_append, readString.eq_def]
    simp only [List.cons_append, List.nil_append, hunit, if_neg hplain, if_neg hplain',
      Char.ofNat_toNat, if_neg (show ¬ backslash = quote by decide), if_true]
  · rw [List.singleton_append, readString.eq_def]
    simp only [if_neg hquote, if_neg hbackslash, if_neg h32]

/-- **The inside of a string is read back.** -/
theorem readString_write (s rest : List Char) :
    readString (writeString s ++ rest) = some (s, rest) := by
  induction s with
  | nil =>
    rw [writeString, List.flatMap_nil, List.nil_append, List.singleton_append, readString.eq_def]
    simp only [if_true]
  | cons c s ih =>
    have hsplit : writeString (c :: s) ++ rest = escape c ++ (writeString s ++ rest) := by
      simp [writeString]
    rw [hsplit, readString_escape, ih]
    rfl

/-! ## Numbers -/

/-- What follows does not go on with a number. -/
def Stops (rest : List Char) : Prop :=
  ∀ c ∈ rest.head?, c.isDigit = false ∧ c ≠ '.' ∧ c ≠ 'e' ∧ c ≠ 'E'

theorem stops_nil : Stops [] := by simp [Stops]

theorem stops_cons {c : Char} {rest : List Char} (h : c = ',' ∨ c = ']' ∨ c = '}') :
    Stops (c :: rest) := by
  rintro d ⟨⟩
  rcases h with rfl | rfl | rfl <;> decide

variable {rest : List Char}

/-- The digits end where what follows is none. -/
theorem spanDigits_append {digits : List Char} (hdigits : ∀ c ∈ digits, c.isDigit = true)
    (hrest : ∀ c ∈ rest.head?, c.isDigit = false) :
    spanDigits (digits ++ rest) = (digits, rest) := by
  have htake : rest.takeWhile Char.isDigit = [] := by
    cases rest with
    | nil => rfl
    | cons c rest => simp [hrest c rfl]
  have hdrop : rest.dropWhile Char.isDigit = rest := by
    cases rest with
    | nil => rfl
    | cons c rest => simp [hrest c rfl]
  rw [spanDigits, List.takeWhile_append_of_pos hdigits, List.dropWhile_append_of_pos hdigits, htake,
    hdrop, List.append_nil]

variable {text found after : List Char}

theorem someDigits_append {before : List Char} (h : someDigits before text = some (found, after))
    (hrest : after = [] → ∀ c ∈ rest.head?, c.isDigit = false) :
    someDigits before (text ++ rest) = some (found, after ++ rest) := by
  have hsplit : text = text.takeWhile Char.isDigit ++ text.dropWhile Char.isDigit :=
    List.takeWhile_append_dropWhile.symm
  have hdigits : ∀ c ∈ text.takeWhile Char.isDigit, c.isDigit = true := fun c hc =>
    List.mem_takeWhile_imp hc
  have hstop : ∀ c ∈ (text.dropWhile Char.isDigit ++ rest).head?, c.isDigit = false := by
    intro c hc
    cases hdrop : text.dropWhile Char.isDigit with
    | nil =>
      rw [hdrop, List.nil_append] at hc
      refine hrest ?_ c hc
      rw [someDigits, spanDigits, hdrop] at h
      split at h
      · cases h
      · next heq =>
        cases h
        exact (Prod.mk.inj heq).2.symm
    | cons d tail =>
      rw [hdrop] at hc
      obtain rfl : d = c := Option.some.inj hc
      have hne : text.dropWhile Char.isDigit ≠ [] := by rw [hdrop]; exact List.cons_ne_nil _ _
      have hhead := List.head_dropWhile_not Char.isDigit hne
      simpa only [hdrop, List.head_cons] using hhead
  have hspan : spanDigits (text ++ rest) =
      (text.takeWhile Char.isDigit, text.dropWhile Char.isDigit ++ rest) := by
    conv_lhs => rw [hsplit, List.append_assoc]
    exact spanDigits_append hdigits hstop
  rw [someDigits, hspan]
  rw [someDigits, spanDigits] at h
  cases htake : text.takeWhile Char.isDigit with
  | nil => simp [htake] at h
  | cons d digits =>
    simp only [htake, Option.some.injEq, Prod.mk.injEq] at h ⊢
    exact ⟨h.1, by rw [h.2]⟩

theorem scanInteger_append (h : scanInteger text = some (found, after))
    (hrest : after = [] → ∀ c ∈ rest.head?, c.isDigit = false) :
    scanInteger (text ++ rest) = some (found, after ++ rest) := by
  unfold scanInteger at h
  split at h
  · next tail =>
    split_ifs at h with hdigit
    cases h
    rw [List.cons_append, scanInteger]
    cases hafter : after with
    | nil =>
      have hnone : ¬ (rest.head?.any Char.isDigit = true) := by
        rw [Option.any_eq_true]
        rintro ⟨c, hc, hd⟩
        rw [hrest hafter c hc] at hd
        cases hd
      rw [List.nil_append, if_neg hnone]
    | cons d tail =>
      rw [hafter, List.head?_cons] at hdigit
      rw [List.cons_append, List.head?_cons, if_neg hdigit]
  · next hzero =>
    cases text with
    | nil => cases h
    | cons c tail =>
      have hc : c ≠ '0' := fun hc => hzero tail (by rw [hc])
      rw [List.cons_append, scanInteger]
      · rw [← List.cons_append]
        exact someDigits_append h hrest
      · intro tail' heq
        exact hc (List.cons.inj heq).1

theorem scanFraction_append (h : scanFraction text = some (found, after)) (hrest : Stops rest) :
    scanFraction (text ++ rest) = some (found, after ++ rest) := by
  unfold scanFraction at h
  split at h
  · rw [List.cons_append, scanFraction]
    exact someDigits_append h fun _ c hc => (hrest c hc).1
  · next hpoint =>
    cases h
    rw [scanFraction]
    intro tail heq
    cases text with
    | nil =>
      rw [List.nil_append] at heq
      exact (hrest '.' (by rw [heq]; rfl)).2.1 rfl
    | cons c text =>
      rw [List.cons_append] at heq
      exact hpoint text (by rw [(List.cons.inj heq).1])

theorem scanExponent_stops (hrest : Stops rest) : scanExponent rest = some ([], rest) := by
  cases rest with
  | nil => rfl
  | cons c rest =>
    obtain ⟨-, -, he, hE⟩ := hrest c rfl
    have hstop : ¬ (c = 'e' ∨ c = 'E') := by
      rintro (hc | hc)
      · exact he hc
      · exact hE hc
    simp only [scanExponent.eq_def, if_neg hstop]

theorem scanExponent_append (h : scanExponent text = some (found, after)) (hrest : Stops rest) :
    scanExponent (text ++ rest) = some (found, after ++ rest) := by
  have hstop : after = [] → ∀ c ∈ rest.head?, c.isDigit = false := fun _ c hc => (hrest c hc).1
  cases text with
  | nil =>
    cases h
    exact scanExponent_stops hrest
  | cons e text =>
    rw [scanExponent.eq_def] at h
    rw [List.cons_append, scanExponent.eq_def]
    simp only at h ⊢
    split_ifs at h ⊢ with he
    · cases text with
      | nil => cases h
      | cons sign digits =>
        simp only [List.cons_append] at h ⊢
        split_ifs at h ⊢ with hsign
        · exact someDigits_append h hstop
        · exact someDigits_append h hstop
    · cases h
      rfl

theorem scanUnsigned_append {negative : Bool} {lexeme : Lexeme}
    (h : scanUnsigned negative text = some (lexeme, [])) (hrest : Stops rest) :
    scanUnsigned negative (text ++ rest) = some (lexeme, rest) := by
  simp only [scanUnsigned, Option.bind_eq_bind, Option.bind_eq_some_iff, Option.pure_def] at h
  obtain ⟨⟨integer, r₁⟩, h₁, ⟨fraction, r₂⟩, h₂, ⟨exponent, r₃⟩, h₃, heq⟩ := h
  cases heq
  have hdigit : r₁ = [] → ∀ c ∈ rest.head?, c.isDigit = false := fun _ c hc => (hrest c hc).1
  simp only [scanUnsigned, scanInteger_append h₁ hdigit, scanFraction_append h₂ hrest,
    scanExponent_append h₃ hrest, Option.bind_eq_bind, Option.bind_some, Option.pure_def,
    List.nil_append]

/-- A number is a digit or a minus sign, and what comes after. -/
def startsNumber (c : Char) : Bool := c.isDigit || c = '-'

theorem scanInteger_head {found : List Char × List Char} (h : scanInteger text = some found) :
    ∃ c tail, text = c :: tail ∧ c.isDigit = true := by
  cases text with
  | nil => cases h
  | cons c tail =>
    refine ⟨c, tail, rfl, ?_⟩
    by_contra hc
    rw [scanInteger] at h
    · simp [someDigits, spanDigits, hc] at h
    · rintro rest heq
      rw [(List.cons.inj heq).1] at hc
      exact hc rfl

theorem scanNumber_head {lexeme : Lexeme} (h : scanNumber text = some (lexeme, rest)) :
    ∃ c tail, text = c :: tail ∧ startsNumber c = true := by
  unfold scanNumber at h
  split at h
  · exact ⟨'-', _, rfl, rfl⟩
  · simp only [scanUnsigned, Option.bind_eq_bind, Option.bind_eq_some_iff] at h
    obtain ⟨found, hfound, -⟩ := h
    obtain ⟨c, tail, htext, hc⟩ := scanInteger_head hfound
    exact ⟨c, tail, htext, by simp [startsNumber, hc]⟩

/-- A number that was all of a text is scanned alike where something follows that stops it. -/
theorem scanNumber_append {lexeme : Lexeme} (h : scanNumber text = some (lexeme, []))
    (hrest : Stops rest) : scanNumber (text ++ rest) = some (lexeme, rest) := by
  obtain ⟨c, tail, rfl, -⟩ := scanNumber_head h
  by_cases hc : c = '-'
  · subst hc
    exact scanUnsigned_append h hrest
  · rw [scanNumber] at h
    · rw [List.cons_append, scanNumber]
      · rw [← List.cons_append]
        exact scanUnsigned_append h hrest
      · exact fun _ heq => hc (List.cons.inj heq).1
    · exact fun _ heq => hc (List.cons.inj heq).1

/-! ### Nothing of the text is lost -/

theorem someDigits_text {before : List Char} (h : someDigits before text = some (found, after)) :
    before ++ text = found ++ after := by
  rw [someDigits, spanDigits] at h
  split at h
  · cases h
  · next heq =>
    cases h
    obtain ⟨htake, hdrop⟩ := Prod.mk.inj heq
    rw [← htake, ← hdrop, List.append_assoc, List.takeWhile_append_dropWhile]

theorem scanInteger_text (h : scanInteger text = some (found, after)) : text = found ++ after := by
  unfold scanInteger at h
  split at h
  · split_ifs at h
    cases h
    rfl
  · exact someDigits_text h

theorem scanFraction_text (h : scanFraction text = some (found, after)) :
    text = found ++ after := by
  unfold scanFraction at h
  split at h
  · exact someDigits_text h
  · cases h
    rfl

theorem scanExponent_text (h : scanExponent text = some (found, after)) :
    text = found ++ after := by
  unfold scanExponent at h
  split at h
  · split_ifs at h
    · split at h
      · split_ifs at h
        · exact someDigits_text h
        · exact someDigits_text h
      · cases h
    · cases h
      rfl
  · cases h
    rfl

theorem scanNumber_text {lexeme : Lexeme} (h : scanNumber text = some (lexeme, rest)) :
    text = lexeme.text ++ rest := by
  have hunsigned : ∀ negative text, scanUnsigned negative text = some (lexeme, rest) →
      lexeme.negative = negative ∧ text = lexeme.integer ++ (lexeme.tail ++ rest) := by
    intro negative text h
    simp only [scanUnsigned, Option.bind_eq_bind, Option.bind_eq_some_iff, Option.pure_def] at h
    obtain ⟨⟨integer, r₁⟩, h₁, ⟨fraction, r₂⟩, h₂, ⟨exponent, r₃⟩, h₃, heq⟩ := h
    cases heq
    refine ⟨rfl, ?_⟩
    have hfraction : r₁ = fraction ++ r₂ := scanFraction_text h₂
    have hexponent : r₂ = exponent ++ r₃ := scanExponent_text h₃
    rw [scanInteger_text h₁, hfraction, hexponent, List.append_assoc]
  unfold scanNumber at h
  split at h
  · obtain ⟨hneg, htext⟩ := hunsigned _ _ h
    rw [Lexeme.text, hneg, htext]
    simp
  · obtain ⟨hneg, htext⟩ := hunsigned _ _ h
    rw [Lexeme.text, hneg, htext]
    simp

/-! ### Integers and floats -/

theorem toDigits_head {n : Nat} (h : n ≠ 0) : (Nat.toDigits 10 n).head? ≠ some '0' := by
  induction n using Nat.strongRecOn with
  | ind n ih =>
    by_cases hlt : n < 10
    · rw [Nat.toDigits_of_lt_base hlt]
      interval_cases n <;> simp_all [Nat.digitChar]
    · rw [Nat.toDigits_of_base_le (by decide) (by omega)]
      have hdiv := ih (n / 10) (by omega) (by omega)
      cases hd : Nat.toDigits 10 (n / 10) with
      | nil => exact absurd hd Nat.toDigits_ne_nil
      | cons c tail =>
        rw [hd] at hdiv
        exact hdiv

theorem scanInteger_toDigits (n : Nat) :
    scanInteger (Nat.toDigits 10 n) = some (Nat.toDigits 10 n, []) := by
  by_cases hn : n = 0
  · subst hn
    rfl
  · have hhead := toDigits_head hn
    have hspan : spanDigits (Nat.toDigits 10 n ++ []) = (Nat.toDigits 10 n, []) :=
      spanDigits_append (fun c hc => Nat.isDigit_of_mem_toDigits (by decide) (by decide) hc)
        (by simp)
    cases hd : Nat.toDigits 10 n with
    | nil => exact absurd hd Nat.toDigits_ne_nil
    | cons c tail =>
      rw [hd] at hhead hspan
      rw [List.append_nil] at hspan
      rw [scanInteger, someDigits, hspan]
      · rfl
      · intro rest heq
        rw [(List.cons.inj heq).1] at hhead
        exact hhead rfl

theorem scanUnsigned_toDigits (negative : Bool) (n : Nat) :
    scanUnsigned negative (Nat.toDigits 10 n) = some (⟨negative, Nat.toDigits 10 n, []⟩, []) := by
  rw [scanUnsigned, scanInteger_toDigits]
  rfl

/-- **An integer is scanned as what it was written from.** -/
theorem scanNumber_integer (n : Int) :
    scanNumber (writeInteger n) =
      some (⟨decide (n < 0), Nat.toDigits 10 n.natAbs, []⟩, []) := by
  unfold writeInteger
  split_ifs with hn
  · rw [scanNumber, scanUnsigned_toDigits, decide_eq_true hn]
  · rw [decide_eq_false hn]
    rw [scanNumber, scanUnsigned_toDigits]
    intro rest heq
    have hmem : '-' ∈ Nat.toDigits 10 n.natAbs := by rw [heq]; exact List.mem_cons_self
    have hdigit := Nat.isDigit_of_mem_toDigits (by decide) (by decide) hmem
    exact absurd hdigit (by decide)

/-- What a float's text is scanned as. -/
def Float64.lexeme (x : Float64) : Lexeme :=
  ((scanNumber x.text).map Prod.fst).getD ⟨false, [], []⟩

theorem scanNumber_float (x : Float64) :
    scanNumber x.text = some (x.lexeme, []) ∧ x.lexeme.tail ≠ [] := by
  have hwritten := x.written
  rw [isFloatText, Option.any_eq_true] at hwritten
  obtain ⟨⟨lexeme, rest⟩, hscan, hshape⟩ := hwritten
  rw [Bool.and_eq_true, List.isEmpty_iff] at hshape
  obtain ⟨hrest, htail⟩ := hshape
  subst hrest
  have hlexeme : x.lexeme = lexeme := by rw [Float64.lexeme, hscan]; rfl
  rw [hlexeme]
  exact ⟨hscan, by simpa using htail⟩

theorem lexeme_text (x : Float64) : x.lexeme.text = x.text := by
  have htext := scanNumber_text (scanNumber_float x).1
  rw [List.append_nil] at htext
  exact htext.symm

end Serde
