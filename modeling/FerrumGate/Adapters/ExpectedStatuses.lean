import FerrumGate.Adapters.Http
import FerrumGate.Serde.Record

/-!
# The statuses a replay expects

`parse_expected_statuses_array` of `Adapters/Http.lean`, over every JSON value: a number is an
integer of 64 bits or a float. A number is taken as `as_u64().unwrap_or(0) as u16` and tested
afterwards, so the test sees its last 16 bits; a text is parsed as `u16`, which does not wrap.

* `parseElements_ok_iff`: an array is accepted if each of its elements is.
* **`statuses_are_the_numbers_written_iff`**: of an accepted array the statuses are the numbers
  written in it exactly if every JSON number in it is below 65536.
* `wrapped_number_is_accepted`: `[65736]` is accepted as `[200]`.
-/

namespace FerrumGate.ExpectedStatuses

open Serde Http

/-! ## The parser -/

/-- `as_u64`, which neither a negative number nor a float is. -/
def asU64 : Value → Option Nat
  | .int n => if 0 ≤ n.val then some n.val.toNat else none
  | _ => none

def valueView : JsonView Value where
  number
    | .int n => some (asU64 (.int n))
    | .float x => some (asU64 (.float x))
    | _ => none
  asStr
    | .str s => some (String.ofList s)
    | _ => none
  asArray
    | .arr items => some items.toList
    | _ => none
  text value := String.ofList value.write

/-- The parser, over these values. -/
def parseExpectedStatusesArray : String → Value → Except AdapterError (List Nat) :=
  Http.parseExpectedStatusesArray valueView

/-! ## What is written -/

/-- The number a text is the numeral of, of any size; a plus sign may stand in front. -/
def numeral : List Char → Option Nat
  | '+' :: digits => unsigned digits
  | digits => unsigned digits
where
  unsigned (digits : List Char) : Option Nat :=
    if digits.isEmpty || !digits.all Char.isDigit then none
    else some (Nat.ofDigitChars 10 digits 0)

/-- The number written in an element; one with a fraction or an exponent is no status. -/
def numberWritten : Value → Option Int
  | .int n => some n.val
  | .str s => (numeral s).map fun n => (n : Int)
  | _ => none

/-- The numbers written in the array, in order, are the statuses, and all of them are statuses of
HTTP. -/
def AreTheNumbersWritten (statuses : List Nat) (items : List Value) : Prop :=
  statuses.map (fun status : Nat => some (status : Int)) = items.map numberWritten ∧
    ∀ status ∈ statuses, 100 ≤ status ∧ status ≤ 599

/-! ## One element -/

theorem unsigned_of_readDigits {limit n : Nat} {digits : List Char} (hne : digits ≠ [])
    (h : readDigits 10 limit 0 digits = .ok n) : numeral.unsigned digits = some n := by
  obtain ⟨hdigits, rfl⟩ := readDigits_ok h
  simp [numeral.unsigned, hne, hdigits]

theorem numeral_of_fromStrRadix {bits n : Nat} {s : List Char}
    (h : fromStrRadix 10 bits (String.ofList s) = .ok n) : numeral s = some n := by
  rw [fromStrRadix, String.toList_ofList] at h
  split at h
  · cases h
  · cases h
  · next digits hdigits => exact unsigned_of_readDigits (by rintro rfl; exact hdigits rfl) h
  · next hempty _ hplus =>
    rw [numeral]
    · exact unsigned_of_readDigits hempty h
    · exact hplus

/-- The element is accepted as this status. -/
def Accepted (item : Value) (status : Nat) : Prop :=
  elementStatus valueView item = some status ∧ isValidHttpStatus status = true

/-- An element is accepted as the number written in it, unless that is a JSON number of more than 16
bits. -/
theorem numberWritten_eq_iff {item : Value} {status : Nat} (haccepted : Accepted item status) :
    numberWritten item = some (status : Int) ↔ ∀ n, item = .int n → n.val < 65536 := by
  obtain ⟨h, hvalid⟩ := haccepted
  have hpos : status ≠ 0 := by
    rintro rfl
    cases hvalid
  cases item with
  | int n =>
    have hstatus := Option.some.inj h
    simp only [asU64] at hstatus
    -- a negative number is taken as 0 and refused
    split_ifs at hstatus with hn
    · simp only [numberWritten, Option.some.injEq, Value.int.injEq, forall_eq', Option.getD_some]
        at hstatus ⊢
      omega
    · exact absurd hstatus.symm hpos
  | float x => exact absurd (Option.some.inj h).symm hpos
  | str s =>
    refine iff_of_true ?_ fun n hn => by cases hn
    have hread : fromStrRadix 10 16 (String.ofList s) = .ok status := by
      have h : (fromStrRadix 10 16 (String.ofList s)).toOption = some status := h
      cases hs : fromStrRadix 10 16 (String.ofList s) with
      | error e => simp [hs, Except.toOption] at h
      | ok n => simpa [hs, Except.toOption] using h
    simp [numberWritten, numeral_of_fromStrRadix hread]
  | null | bool _ | arr _ | obj _ => cases h

/-! ## The array -/

/-- The loop accepts an array element by element. -/
theorem parseElements_ok_iff {phase : String} {i : Nat} {items : List Value}
    {statuses : List Nat} :
    parseElements valueView phase i items = .ok statuses ↔ List.Forall₂ Accepted items statuses := by
  rw [← toOption_eq_some]
  induction items generalizing i statuses with
  | nil =>
    rw [List.forall₂_nil_left_iff]
    exact ⟨fun h => (Option.some.inj h).symm, fun h => congrArg some h.symm⟩
  | cons item rest ih =>
    simp only [parseElements, toOption_bind, toOption_okOr, toOption_require, toOption_pure,
      Option.bind_eq_some_iff, ih, Option.some.injEq, Option.ite_none_right_eq_some,
      List.forall₂_cons_left_iff, and_true, exists_const]
    constructor
    · rintro ⟨status, hstatus, hvalid, tail, htail, rfl⟩
      exact ⟨status, tail, ⟨hstatus, hvalid⟩, htail, rfl⟩
    · rintro ⟨status, tail, ⟨hstatus, hvalid⟩, htail, rfl⟩
      exact ⟨status, hstatus, hvalid, tail, htail, rfl⟩

theorem parseExpectedStatusesArray_ok {phase : String} {items : Items} {statuses : List Nat}
    (h : parseExpectedStatusesArray phase (.arr items) = .ok statuses) :
    List.Forall₂ Accepted items.toList statuses := by
  obtain ⟨_, hitems, h⟩ := Interleave.bind_ok.1 h
  cases hitems
  obtain ⟨-, -, helements⟩ := Interleave.bind_ok.1 h
  exact parseElements_ok_iff.1 helements

theorem map_eq_map_numberWritten_iff {items : List Value} {statuses : List Nat}
    (h : List.Forall₂ Accepted items statuses) :
    statuses.map (fun status : Nat => some (status : Int)) = items.map numberWritten ↔
      ∀ n, .int n ∈ items → n.val < 65536 := by
  induction h with
  | nil => simp
  | cons hitem _ ih =>
    rw [List.map_cons, List.map_cons, List.cons.injEq, ih, eq_comm,
      numberWritten_eq_iff hitem]
    simp only [List.mem_cons, or_imp, forall_and, eq_comm]

theorem statuses_valid {items : List Value} {statuses : List Nat}
    (h : List.Forall₂ Accepted items statuses) :
    ∀ status ∈ statuses, 100 ≤ status ∧ status ≤ 599 := by
  induction h with
  | nil => simp
  | cons hitem _ ih =>
    have hvalid := hitem.2
    simp only [isValidHttpStatus, Bool.and_eq_true, decide_eq_true_eq] at hvalid
    exact List.forall_mem_cons.2 ⟨hvalid, ih⟩

/-- **The statuses of an accepted array are the numbers written in it exactly if no JSON number in
it has more than 16 bits.** -/
theorem statuses_are_the_numbers_written_iff {phase : String} {items : Items}
    {statuses : List Nat} (h : parseExpectedStatusesArray phase (.arr items) = .ok statuses) :
    AreTheNumbersWritten statuses items.toList ↔ ∀ n, .int n ∈ items.toList → n.val < 65536 := by
  have haccepted := parseExpectedStatusesArray_ok h
  rw [← map_eq_map_numberWritten_iff haccepted]
  exact and_iff_left (statuses_valid haccepted)

/-- A number and a text. -/
def numberAndText : Items :=
  .cons (.int ⟨204, by decide⟩) (.cons (.str ['2', '0', '0']) .nil)

theorem number_and_text_are_statuses :
    parseExpectedStatusesArray "execute" (.arr numberAndText) = .ok [204, 200] ∧
      AreTheNumbersWritten [204, 200] numberAndText.toList := by
  have hparse : parseExpectedStatusesArray "execute" (.arr numberAndText) = .ok [204, 200] := by
    rfl
  refine ⟨hparse, (statuses_are_the_numbers_written_iff hparse).2 ?_⟩
  intro n hn
  simp only [numberAndText, Items.toList, List.mem_cons, Value.int.injEq, reduceCtorEq,
    List.not_mem_nil, or_false] at hn
  rw [hn]
  decide

/-- One number, 65536 above a status. -/
def wrapping : Items := .cons (.int ⟨65736, by decide⟩) .nil

theorem wrapped_number_is_accepted :
    parseExpectedStatusesArray "execute" (.arr wrapping) = .ok [200] ∧
      ¬ AreTheNumbersWritten [200] wrapping.toList := by
  refine ⟨rfl, fun h => ?_⟩
  have heq := h.1
  simp [wrapping, Items.toList, numberWritten] at heq

end FerrumGate.ExpectedStatuses
