import FerrumGate.Serde.Document

/-!
# Records on a line

A record is an object with known keys. It is written with its keys in the order of its declaration;
its reader looks for the keys, so it does not mind the order or other keys, but a key must not come
twice.

* `values_ofPairs` : what is found under a key, `values_reread` after writing and reading.
* **`write_printable`** : no control character is written, so a value is on one line.
* `write_object` : an object starts and ends with its braces.
-/

namespace Serde

/-! ## Keys -/

/-- The object with these keys and values, in this order. -/
def Fields.ofPairs : List (String × Value) → Fields
  | [] => .nil
  | (key, value) :: pairs => .cons key.toList value (ofPairs pairs)

/-- The values under a key. -/
def Fields.values (key : String) : Fields → List Value
  | .nil => []
  | .cons k value tail =>
    if k = key.toList then value :: tail.values key else tail.values key

/-- The items of an array. -/
def Items.toList : Items → List Value
  | .nil => []
  | .cons head tail => head :: tail.toList

/-- A value that has to be there, once. -/
def exactlyOne {α : Type} (read : Value → Option α) : List Value → Option α
  | [value] => read value
  | _ => none

/-- A value that may be missing or `null`. -/
def atMostOne {α : Type} (read : Value → Option α) : List Value → Option (Option α)
  | [] => some none
  | [.null] => some none
  | [value] => (read value).map some
  | _ => none

def Fields.required {α : Type} (fields : Fields) (key : String) (read : Value → Option α) :
    Option α :=
  exactlyOne read (fields.values key)

def Fields.optional {α : Type} (fields : Fields) (key : String) (read : Value → Option α) :
    Option (Option α) :=
  atMostOne read (fields.values key)

theorem atMostOne_null {α : Type} (read : Value → Option α) :
    atMostOne read [.null] = some none := by
  rw [atMostOne]

theorem atMostOne_value {α : Type} {read : Value → Option α} {value : Value}
    (h : value ≠ .null) : atMostOne read [value] = (read value).map some := by
  rw [atMostOne]
  exact h

@[simp] theorem values_ofPairs (key : String) (pairs : List (String × Value)) :
    (Fields.ofPairs pairs).values key =
      (pairs.filter fun pair => pair.1 = key).map (·.2) := by
  induction pairs with
  | nil => rw [Fields.ofPairs, Fields.values, List.filter_nil, List.map_nil]
  | cons pair pairs ih =>
    obtain ⟨k, value⟩ := pair
    rw [Fields.ofPairs, Fields.values, ih]
    by_cases hkey : k = key <;> simp [hkey, String.toList_inj]

/-- The values under a key after the object was written and read. -/
theorem values_reread {r : Reader} {depth : Nat} (key : String) :
    (fields : Fields) → {fields' : Fields} → fields.reread r depth = some fields' →
      (fields.values key).mapM (Value.reread r depth) = some (fields'.values key)
  | .nil, _, h => by
    rw [Fields.reread] at h
    cases h
    rw [Fields.values, List.mapM_nil]
    rfl
  | .cons k value tail, _, h => by
    simp only [Fields.reread, Option.bind_eq_bind, Option.bind_eq_some_iff, Option.pure_def] at h
    obtain ⟨value', hvalue, tail', htail, heq⟩ := h
    cases heq
    have hrest := values_reread key tail htail
    rw [Fields.values, Fields.values]
    split_ifs
    · rw [List.mapM_cons, hvalue, hrest]
      rfl
    · exact hrest

/-- An object is read if all its values are. -/
theorem reread_ofPairs_isSome {r : Reader} {depth : Nat} {pairs : List (String × Value)} :
    ((Fields.ofPairs pairs).reread r depth).isSome = true ↔
      ∀ pair ∈ pairs, (pair.2.reread r depth).isSome = true := by
  induction pairs with
  | nil => simp [Fields.ofPairs, Fields.reread]
  | cons pair pairs ih =>
    rw [List.forall_mem_cons, ← ih, Fields.ofPairs, Fields.reread]
    cases pair.2.reread r depth <;> cases (Fields.ofPairs pairs).reread r depth <;> simp

theorem reread_str (r : Reader) (depth : Nat) (s : List Char) :
    (Value.str s).reread r depth = some (.str s) := by
  rw [Value.reread] <;> simp

/-! ## One line -/

/-- Without control characters. -/
def Printable (text : List Char) : Prop := ∀ c ∈ text, 32 ≤ c.toNat

instance (text : List Char) : Decidable (Printable text) :=
  List.decidableBAll (fun c : Char => 32 ≤ c.toNat) text

variable {text : List Char}

theorem Printable.append {text' : List Char} (h : Printable text) (h' : Printable text') :
    Printable (text ++ text') := List.forall_mem_append.2 ⟨h, h'⟩

theorem Printable.cons {c : Char} (hc : 32 ≤ c.toNat) (h : Printable text) :
    Printable (c :: text) := List.forall_mem_cons.2 ⟨hc, h⟩

theorem Printable.not_break (h : Printable text) : '\n' ∉ text := by
  intro hmem
  have := h _ hmem
  revert this
  decide

theorem Printable.not_return (h : Printable text) : '\r' ∉ text := by
  intro hmem
  have := h _ hmem
  revert this
  decide

theorem printable_digits (h : ∀ c ∈ text, c.isDigit = true) : Printable text := by
  intro c hc
  have hdigit := h c hc
  simp only [Char.isDigit, Bool.and_eq_true, decide_eq_true_eq, ge_iff_le] at hdigit
  have hle : (48 : Nat) ≤ c.toNat := hdigit.1
  omega

variable {found after : List Char}

theorem printable_someDigits {before : List Char} (hbefore : Printable before)
    (h : someDigits before text = some (found, after)) : Printable found := by
  rw [someDigits, spanDigits] at h
  split at h
  · cases h
  · next heq =>
    cases h
    refine hbefore.append (printable_digits ?_)
    intro c hc
    rw [← (Prod.mk.inj heq).1] at hc
    exact List.mem_takeWhile_imp hc

theorem printable_nil : Printable [] := fun _ h => absurd h List.not_mem_nil

theorem printable_scanInteger (h : scanInteger text = some (found, after)) : Printable found := by
  unfold scanInteger at h
  split at h
  · split_ifs at h
    cases h
    exact .cons (by decide) printable_nil
  · exact printable_someDigits printable_nil h

theorem printable_scanFraction (h : scanFraction text = some (found, after)) : Printable found := by
  unfold scanFraction at h
  split at h
  · exact printable_someDigits (.cons (by decide) printable_nil) h
  · cases h
    exact printable_nil

theorem printable_scanExponent (h : scanExponent text = some (found, after)) : Printable found := by
  unfold scanExponent at h
  split at h
  · next e rest =>
    split_ifs at h with he
    · have hletter : Printable [e] := by
        rcases he with rfl | rfl <;> decide
      split at h
      · split_ifs at h with hsign
        · refine printable_someDigits (hletter.append (.cons ?_ printable_nil)) h
          rcases hsign with rfl | rfl <;> decide
        · exact printable_someDigits hletter h
      · cases h
    · cases h
      exact printable_nil
  · cases h
    exact printable_nil

theorem printable_lexeme {lexeme : Lexeme} {rest : List Char}
    (h : scanNumber text = some (lexeme, rest)) : Printable lexeme.text := by
  have hunsigned : ∀ negative text, scanUnsigned negative text = some (lexeme, rest) →
      Printable lexeme.integer ∧ Printable lexeme.tail := by
    intro negative text h
    simp only [scanUnsigned, Option.bind_eq_bind, Option.bind_eq_some_iff, Option.pure_def] at h
    obtain ⟨⟨integer, r₁⟩, h₁, ⟨fraction, r₂⟩, h₂, ⟨exponent, r₃⟩, h₃, heq⟩ := h
    cases heq
    exact ⟨printable_scanInteger h₁, (printable_scanFraction h₂).append (printable_scanExponent h₃)⟩
  have hparts : Printable lexeme.integer ∧ Printable lexeme.tail := by
    unfold scanNumber at h
    split at h
    · exact hunsigned _ _ h
    · exact hunsigned _ _ h
  refine Printable.append (Printable.append ?_ hparts.1) hparts.2
  split_ifs
  · exact .cons (by decide) printable_nil
  · exact printable_nil

theorem printable_number {lexeme : Lexeme} (h : scanNumber text = some (lexeme, [])) :
    Printable text := by
  have htext := scanNumber_text h
  rw [List.append_nil] at htext
  rw [htext]
  exact printable_lexeme h

theorem printable_hexDigit {n : Nat} (h : n < 16) : 32 ≤ (hexDigit n).toNat := by
  revert n
  decide

theorem printable_escape (c : Char) : Printable (escape c) := by
  unfold escape
  split_ifs with hquote hslash h8 h9 h10 h12 h13 hlow
  · decide
  · decide
  · decide
  · decide
  · decide
  · decide
  · decide
  · intro d hd
    simp only [List.mem_cons, List.not_mem_nil, or_false] at hd
    rcases hd with rfl | rfl | rfl | rfl | rfl | rfl
    · decide
    · decide
    · decide
    · decide
    · exact printable_hexDigit (by omega)
    · exact printable_hexDigit (by omega)
  · exact .cons (by omega) printable_nil

theorem printable_string (s : List Char) : Printable (writeString s) := by
  refine Printable.append ?_ (.cons (by decide) printable_nil)
  intro c hc
  obtain ⟨d, -, hd⟩ := List.mem_flatMap.1 hc
  exact printable_escape d c hd

mutual

/-- **A value is written without control characters.** -/
theorem write_printable : (v : Value) → Printable v.write
  | .null | .bool true | .bool false => by
    rw [Value.write]
    decide
  | .int n => by
    rw [Value.write]
    exact printable_number (scanNumber_integer n.val)
  | .float x => by
    rw [Value.write]
    exact printable_number (scanNumber_float x).1
  | .str s => by
    rw [Value.write]
    exact .cons (by decide) (printable_string s)
  | .arr .nil => by
    rw [Value.write]
    decide
  | .arr (.cons head tail) => by
    rw [Value.write]
    exact .cons (by decide) ((write_printable head).append (write_items_printable tail))
  | .obj .nil => by
    rw [Value.write]
    decide
  | .obj (.cons key value tail) => by
    rw [Value.write]
    exact .cons (by decide) (.cons (by decide) ((printable_string key).append
      (.cons (by decide) ((write_printable value).append (write_fields_printable tail)))))

theorem write_items_printable : (items : Items) → Printable items.write
  | .nil => by
    rw [Items.write]
    decide
  | .cons head tail => by
    rw [Items.write]
    exact .cons (by decide) ((write_printable head).append (write_items_printable tail))

theorem write_fields_printable : (fields : Fields) → Printable fields.write
  | .nil => by
    rw [Fields.write]
    decide
  | .cons key value tail => by
    rw [Fields.write]
    exact .cons (by decide) (.cons (by decide) ((printable_string key).append
      (.cons (by decide) ((write_printable value).append (write_fields_printable tail)))))

end

theorem write_fields_end : (fields : Fields) → ∃ text, fields.write = text ++ ['}']
  | .nil => ⟨[], by rw [Fields.write, List.nil_append]⟩
  | .cons key value tail => by
    obtain ⟨text, htext⟩ := write_fields_end tail
    refine ⟨',' :: quote :: (writeString key ++ ':' :: (value.write ++ text)), ?_⟩
    rw [Fields.write, htext]
    simp

/-- An object is between its braces. -/
theorem write_object (fields : Fields) :
    ∃ text, (Value.obj fields).write = '{' :: (text ++ ['}']) := by
  cases fields with
  | nil => exact ⟨[], by rw [Value.write, List.nil_append]⟩
  | cons key value tail =>
    obtain ⟨text, htext⟩ := write_fields_end tail
    refine ⟨quote :: (writeString key ++ ':' :: (value.write ++ text)), ?_⟩
    rw [Value.write, htext]
    simp

end Serde
