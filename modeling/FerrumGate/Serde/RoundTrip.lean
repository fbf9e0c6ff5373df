import FerrumGate.Serde.Scanning

/-!
# What is written is read back

* **`readValue_write`** : what is read from the text of a value, whatever follows it: the value with
  its floats as the reader takes them, unless it is nested too deep.
* `reread_kept` : that is the value itself, if the reader takes its floats for what they are.
* `readAll_write` : the same for a text that is all of the value.
* **`write_injective`** : two values with one text are one value.
-/

namespace Serde

/-! ## How deep a value is, and what the reader has to keep -/

mutual

/-- Arrays and objects on the way to the innermost value. -/
def Value.depth : Value → Nat
  | .arr items => items.depth + 1
  | .obj fields => fields.depth + 1
  | _ => 0

def Items.depth : Items → Nat
  | .nil => 0
  | .cons head tail => max head.depth tail.depth

def Fields.depth : Fields → Nat
  | .nil => 0
  | .cons _ value tail => max value.depth tail.depth

end

mutual

/-- The reader takes the floats of a value for themselves. -/
def Value.Kept (r : Reader) : Value → Prop
  | .float x => r.toFloat x.lexeme = some x
  | .arr items => items.Kept r
  | .obj fields => fields.Kept r
  | _ => True

def Items.Kept (r : Reader) : Items → Prop
  | .nil => True
  | .cons head tail => head.Kept r ∧ tail.Kept r

def Fields.Kept (r : Reader) : Fields → Prop
  | .nil => True
  | .cons _ value tail => value.Kept r ∧ tail.Kept r

end

mutual

/-- What is read from the text of a value. -/
def Value.reread (r : Reader) : Nat → Value → Option Value
  | _, .float x => (r.toFloat x.lexeme).map .float
  | depth, .arr items => if depth ≤ 1 then none else (items.reread r (depth - 1)).map .arr
  | depth, .obj fields => if depth ≤ 1 then none else (fields.reread r (depth - 1)).map .obj
  | _, v => some v

def Items.reread (r : Reader) : Nat → Items → Option Items
  | _, .nil => some .nil
  | depth, .cons head tail => do
    let head ← head.reread r depth
    let tail ← tail.reread r depth
    return .cons head tail

def Fields.reread (r : Reader) : Nat → Fields → Option Fields
  | _, .nil => some .nil
  | depth, .cons key value tail => do
    let value ← value.reread r depth
    let tail ← tail.reread r depth
    return .cons key value tail

end

mutual

/-- A value that is kept, and not too deep, is read as itself. -/
theorem reread_kept {r : Reader} : (v : Value) → {depth : Nat} → v.Kept r → v.depth < depth →
    v.reread r depth = some v
  | .null, _, _, _ | .bool _, _, _, _ | .int _, _, _, _ | .str _, _, _, _ => by
    rw [Value.reread] <;> simp
  | .float x, _, hkept, _ => by
    rw [Value.Kept] at hkept
    rw [Value.reread, hkept, Option.map_some]
  | .arr items, depth, hkept, hdepth => by
    rw [Value.Kept] at hkept
    rw [Value.depth] at hdepth
    rw [Value.reread, if_neg (by omega), reread_items_kept items hkept (by omega), Option.map_some]
  | .obj fields, depth, hkept, hdepth => by
    rw [Value.Kept] at hkept
    rw [Value.depth] at hdepth
    rw [Value.reread, if_neg (by omega), reread_fields_kept fields hkept (by omega), Option.map_some]

theorem reread_items_kept {r : Reader} : (items : Items) → {depth : Nat} → items.Kept r →
    items.depth < depth → items.reread r depth = some items
  | .nil, _, _, _ => by rw [Items.reread]
  | .cons head tail, depth, hkept, hdepth => by
    rw [Items.Kept] at hkept
    rw [Items.depth] at hdepth
    rw [Items.reread, reread_kept head hkept.1 (by omega),
      reread_items_kept tail hkept.2 (by omega)]
    rfl

theorem reread_fields_kept {r : Reader} : (fields : Fields) → {depth : Nat} → fields.Kept r →
    fields.depth < depth → fields.reread r depth = some fields
  | .nil, _, _, _ => by rw [Fields.reread]
  | .cons key value tail, depth, hkept, hdepth => by
    rw [Fields.Kept] at hkept
    rw [Fields.depth] at hdepth
    rw [Fields.reread, reread_kept value hkept.1 (by omega),
      reread_fields_kept tail hkept.2 (by omega)]
    rfl

end

/-! ## The first character of a value -/

variable {rest : List Char}

theorem skipSpace_cons {c : Char} (h : isSpace c = false) : skipSpace (c :: rest) = c :: rest := by
  simp [skipSpace, h]

theorem startsNumber_plain {c : Char} (h : startsNumber c = true) :
    isSpace c = false ∧ c ≠ ']' ∧ c ≠ 'n' ∧ c ≠ 't' ∧ c ≠ 'f' ∧ c ≠ '[' ∧ c ≠ '{' ∧ c ≠ quote := by
  have hne : ∀ d : Char, startsNumber d = false → c ≠ d := by
    rintro d hd rfl
    rw [h] at hd
    cases hd
  refine ⟨?_, hne _ rfl, hne _ rfl, hne _ rfl, hne _ rfl, hne _ rfl, hne _ rfl, hne _ rfl⟩
  simp [isSpace, hne ' ' rfl, hne '\n' rfl, hne '\t' rfl, hne '\r' rfl]

/-- A value starts with a character that is no space and ends no array. -/
theorem write_head (v : Value) :
    ∃ c tail, v.write = c :: tail ∧ isSpace c = false ∧ c ≠ ']' := by
  have hnumber : ∀ text lexeme rest, scanNumber text = some (lexeme, rest) →
      ∃ c tail, text = c :: tail ∧ isSpace c = false ∧ c ≠ ']' := by
    intro text lexeme rest h
    obtain ⟨c, tail, htext, hc⟩ := scanNumber_head h
    exact ⟨c, tail, htext, (startsNumber_plain hc).1, (startsNumber_plain hc).2.1⟩
  match v with
  | .null => exact ⟨_, _, rfl, rfl, by decide⟩
  | .bool true => exact ⟨_, _, rfl, rfl, by decide⟩
  | .bool false => exact ⟨_, _, rfl, rfl, by decide⟩
  | .int n =>
    rw [Value.write]
    exact hnumber _ _ _ (scanNumber_integer n.val)
  | .float x =>
    rw [Value.write]
    exact hnumber _ _ _ (scanNumber_float x).1
  | .str s => exact ⟨quote, writeString s, by rw [Value.write], rfl, by decide⟩
  | .arr .nil => exact ⟨'[', [']'], by rw [Value.write], rfl, by decide⟩
  | .arr (.cons head tail) => exact ⟨'[', _, by rw [Value.write], rfl, by decide⟩
  | .obj .nil => exact ⟨'{', ['}'], by rw [Value.write], rfl, by decide⟩
  | .obj (.cons key value tail) => exact ⟨'{', _, by rw [Value.write], rfl, by decide⟩

/-! ## Values that are no containers -/

section Reading

variable (r : Reader)

variable {fuel depth : Nat} {text : List Char}

theorem readValue_number {lexeme : Lexeme} (h : scanNumber text = some (lexeme, rest)) :
    readValue r (fuel + 1) depth text = (r.number lexeme).map (·, rest) := by
  obtain ⟨c, tail, rfl, hc⟩ := scanNumber_head h
  obtain ⟨hspace, -, hn, ht, hf, harr, hobj, hquote⟩ := startsNumber_plain hc
  rw [readValue, skipSpace_cons hspace]
  split
  · next heq => exact absurd (List.cons.inj heq).1 hn
  · next heq => exact absurd (List.cons.inj heq).1 ht
  · next heq => exact absurd (List.cons.inj heq).1 hf
  · next heq => exact absurd (List.cons.inj heq).1 harr
  · next heq => exact absurd (List.cons.inj heq).1 hobj
  · next heq =>
    obtain ⟨rfl, rfl⟩ := List.cons.inj heq
    rw [if_neg hquote, h]
    simp only [Option.bind_eq_bind, Option.bind_some, Option.pure_def]
    cases r.number lexeme <;> rfl
  · next heq => cases heq

theorem number_integer (n : Integer) :
    r.number ⟨decide (n.val < 0), Nat.toDigits 10 n.val.natAbs, []⟩ = some (.int n) := by
  obtain ⟨n, hrange⟩ := n
  have hmagnitude : Nat.ofDigitChars 10 (Nat.toDigits 10 n.natAbs) 0 = n.natAbs :=
    Nat.ofDigitChars_toDigits (by decide) (by decide)
  unfold Reader.number
  simp only [hmagnitude]
  by_cases hn : n < 0
  · rw [dif_pos ⟨trivial, decide_eq_true hn, by omega, by omega⟩]
    congr 3
    omega
  · have hneg : ¬ (True ∧ decide (n < 0) = true ∧ 0 < n.natAbs ∧
        n.natAbs ≤ 9223372036854775808) := fun h => hn (of_decide_eq_true h.2.1)
    rw [dif_neg hneg, dif_pos ⟨trivial, decide_eq_false hn, by omega⟩]
    congr 3
    omega

theorem number_float (x : Float64) : r.number x.lexeme = (r.toFloat x.lexeme).map .float := by
  have htail := (scanNumber_float x).2
  unfold Reader.number
  rw [dif_neg (fun h => htail h.1), dif_neg (fun h => htail h.1)]

theorem readValue_string (s rest : List Char) :
    readValue r (fuel + 1) depth (quote :: (writeString s ++ rest)) = some (.str s, rest) := by
  have hread := readString_write s rest
  rw [readValue, skipSpace_cons rfl]
  change (readString (writeString s ++ rest)).map (fun read => (Value.str read.1, read.2)) = _
  rw [hread]
  rfl

/-! ## Containers -/

theorem readValue_array :
    readValue r (fuel + 1) depth ('[' :: text) =
      (readArray r fuel depth text).map fun (items, rest) => (.arr items, rest) := by
  rw [readValue, skipSpace_cons rfl]
  rfl

theorem readValue_object :
    readValue r (fuel + 1) depth ('{' :: text) =
      (readObject r fuel depth text).map fun (fields, rest) => (.obj fields, rest) := by
  rw [readValue, skipSpace_cons rfl]
  rfl

theorem readArray_nil (hdepth : 1 < depth) :
    readArray r (fuel + 1) depth (']' :: rest) = some (.nil, rest) := by
  rw [readArray, if_neg (by omega), skipSpace_cons rfl]
  rfl

/-- An array with items is its first one and those that follow. -/
theorem readArray_cons {head : Value} {head' : Option Value} {tail' : Option Items}
    (hdepth : 1 < depth)
    (hhead : readValue r fuel (depth - 1) (head.write ++ text) = head'.map (·, text))
    (htail : readItems r fuel (depth - 1) text = tail'.map (·, rest)) :
    readArray r (fuel + 1) depth (head.write ++ text) =
      (head'.bind fun head => tail'.bind fun tail => some (.cons head tail)).map (·, rest) := by
  obtain ⟨c, written, hwrite, hspace, hend⟩ := write_head head
  rw [hwrite, List.cons_append] at hhead ⊢
  rw [readArray, if_neg (by omega), skipSpace_cons hspace]
  split
  · next heq => exact absurd (List.cons.inj heq).1 hend
  · rw [hhead]
    cases head' with
    | none => rfl
    | some head =>
      simp only [Option.map_some, Option.bind_eq_bind, Option.bind_some, htail]
      cases tail' <;> rfl

theorem readItems_cons {head : Value} {head' : Option Value} {tail' : Option Items}
    (hhead : readValue r fuel depth (head.write ++ text) = head'.map (·, text))
    (htail : readItems r fuel depth text = tail'.map (·, rest)) :
    readItems r (fuel + 1) depth (',' :: (head.write ++ text)) =
      (head'.bind fun head => tail'.bind fun tail => some (.cons head tail)).map (·, rest) := by
  rw [readItems, skipSpace_cons rfl]
  simp only [hhead]
  cases head' with
  | none => rfl
  | some head =>
    simp only [Option.map_some, Option.bind_eq_bind, Option.bind_some, htail]
    cases tail' <;> rfl

theorem readEntry_cons (key : List Char) {value : Value} {value' : Option Value}
    {tail' : Option Fields}
    (hvalue : readValue r fuel depth (value.write ++ text) = value'.map (·, text))
    (htail : readFields r fuel depth text = tail'.map (·, rest)) :
    readEntry r (fuel + 1) depth (quote :: (writeString key ++ ':' :: (value.write ++ text))) =
      (value'.bind fun value => tail'.bind fun tail => some (.cons key value tail)).map (·, rest) := by
  have hquote : expect [quote] (skipSpace (quote :: (writeString key ++
      ':' :: (value.write ++ text)))) = some (writeString key ++ ':' :: (value.write ++ text)) := by
    rw [skipSpace_cons rfl]
    rfl
  have hcolon : expect [':'] (skipSpace (':' :: (value.write ++ text))) =
      some (value.write ++ text) := by
    rw [skipSpace_cons rfl]
    rfl
  rw [readEntry, hquote]
  simp only [readString_write, hcolon, hvalue, Option.bind_eq_bind, Option.bind_some]
  cases value' with
  | none => rfl
  | some value =>
    simp only [Option.map_some, Option.bind_some, htail]
    cases tail' <;> rfl

theorem readFields_cons :
    readFields r (fuel + 1) depth (',' :: text) = readEntry r fuel depth text := by
  rw [readFields, skipSpace_cons rfl]
  rfl

theorem readObject_cons (hdepth : 1 < depth) :
    readObject r (fuel + 1) depth (quote :: text) =
      readEntry r fuel (depth - 1) (quote :: text) := by
  rw [readObject, if_neg (by omega), skipSpace_cons rfl]
  rfl

/-! ## The round trip -/

theorem stops_items (items : Items) (rest : List Char) : Stops (items.write ++ rest) := by
  cases items with
  | nil => exact stops_cons (.inr (.inl rfl))
  | cons head tail =>
    rw [Items.write]
    exact stops_cons (.inl rfl)

theorem stops_fields (fields : Fields) (rest : List Char) : Stops (fields.write ++ rest) := by
  cases fields with
  | nil => exact stops_cons (.inr (.inr rfl))
  | cons key value tail =>
    rw [Fields.write]
    exact stops_cons (.inl rfl)

mutual

/-- **What is read from the text of a value.** The fuel is four for each character. -/
theorem readValue_write (v : Value) (fuel depth : Nat) (rest : List Char) (hrest : Stops rest)
    (hfuel : 4 * v.write.length ≤ fuel) :
    readValue r fuel depth (v.write ++ rest) = (v.reread r depth).map (·, rest) := by
  have hpos : fuel ≠ 0 := by
    obtain ⟨c, tail, hwrite, -⟩ := write_head v
    rw [hwrite, List.length_cons] at hfuel
    omega
  obtain ⟨fuel, rfl⟩ := Nat.exists_eq_succ_of_ne_zero hpos
  match v with
  | .null =>
    rw [Value.write, readValue, Value.reread]
    · rfl
    all_goals simp
  | .bool true =>
    rw [Value.write, readValue, Value.reread]
    · rfl
    all_goals simp
  | .bool false =>
    rw [Value.write, readValue, Value.reread]
    · rfl
    all_goals simp
  | .int n =>
    rw [Value.write, readValue_number r (scanNumber_append (scanNumber_integer n.val) hrest),
      number_integer r n, Value.reread] <;> simp
  | .float x =>
    rw [Value.write, readValue_number r (scanNumber_append (scanNumber_float x).1 hrest),
      number_float, Value.reread]
  | .str s =>
    rw [Value.write, List.cons_append, readValue_string r s rest, Value.reread] <;> simp
  | .arr .nil =>
    rw [Value.write, List.length_cons] at hfuel
    obtain ⟨fuel, rfl⟩ : ∃ n, fuel = n + 1 := ⟨fuel - 1, by omega⟩
    rw [Value.write, List.cons_append, List.singleton_append, readValue_array, Value.reread]
    split_ifs with hdepth
    · rw [readArray, if_pos hdepth]
      rfl
    · rw [readArray_nil r (by omega), Items.reread]
      rfl
  | .arr (.cons head tail) =>
    rw [Value.write, List.length_cons, List.length_append] at hfuel
    obtain ⟨fuel, rfl⟩ : ∃ n, fuel = n + 1 := ⟨fuel - 1, by omega⟩
    have hhead := readValue_write head fuel (depth - 1) (tail.write ++ rest) (stops_items tail rest)
      (by omega)
    have htail := readItems_write tail fuel (depth - 1) rest (by omega)
    rw [Value.write, List.cons_append, List.append_assoc, readValue_array, Value.reread]
    split_ifs with hdepth
    · rw [readArray, if_pos hdepth]
      rfl
    · rw [readArray_cons r (by omega) hhead htail, Items.reread, Option.map_map, Option.map_map]
      rfl
  | .obj .nil =>
    rw [Value.write, List.length_cons] at hfuel
    obtain ⟨fuel, rfl⟩ : ∃ n, fuel = n + 1 := ⟨fuel - 1, by omega⟩
    rw [Value.write, List.cons_append, List.singleton_append, readValue_object, Value.reread]
    split_ifs with hdepth
    · rw [readObject, if_pos hdepth]
      rfl
    · rw [readObject, if_neg hdepth, skipSpace_cons rfl, Fields.reread]
      rfl
  | .obj (.cons key value tail) =>
    rw [Value.write] at hfuel
    simp only [List.length_cons, List.length_append] at hfuel
    obtain ⟨fuel, rfl⟩ : ∃ n, fuel = n + 2 := ⟨fuel - 2, by omega⟩
    have hvalue := readValue_write value fuel (depth - 1) (tail.write ++ rest)
      (stops_fields tail rest) (by omega)
    have htail := readFields_write tail fuel (depth - 1) rest (by omega)
    have hread := readEntry_cons r key hvalue htail
    rw [Value.write, List.cons_append, readValue_object, Value.reread]
    simp only [List.cons_append, List.append_assoc]
    split_ifs with hdepth
    · rw [readObject, if_pos hdepth]
      rfl
    · rw [readObject_cons r (show 1 < depth by omega), hread, Fields.reread, Option.map_map,
        Option.map_map]
      rfl

theorem readItems_write (items : Items) (fuel depth : Nat) (rest : List Char)
    (hfuel : 4 * items.write.length ≤ fuel) :
    readItems r fuel depth (items.write ++ rest) = (items.reread r depth).map (·, rest) := by
  match items with
  | .nil =>
    rw [Items.write, List.length_singleton] at hfuel
    obtain ⟨fuel, rfl⟩ : ∃ n, fuel = n + 1 := ⟨fuel - 1, by omega⟩
    rw [Items.write, List.singleton_append, readItems, skipSpace_cons rfl, Items.reread]
    rfl
  | .cons head tail =>
    rw [Items.write, List.length_cons, List.length_append] at hfuel
    obtain ⟨fuel, rfl⟩ : ∃ n, fuel = n + 1 := ⟨fuel - 1, by omega⟩
    have hhead := readValue_write head fuel depth (tail.write ++ rest) (stops_items tail rest)
      (by omega)
    have htail := readItems_write tail fuel depth rest (by omega)
    rw [Items.write, List.cons_append, List.append_assoc, readItems_cons r hhead htail, Items.reread]
    rfl

theorem readFields_write (fields : Fields) (fuel depth : Nat) (rest : List Char)
    (hfuel : 4 * fields.write.length ≤ fuel) :
    readFields r fuel depth (fields.write ++ rest) = (fields.reread r depth).map (·, rest) := by
  match fields with
  | .nil =>
    rw [Fields.write, List.length_singleton] at hfuel
    obtain ⟨fuel, rfl⟩ : ∃ n, fuel = n + 1 := ⟨fuel - 1, by omega⟩
    rw [Fields.write, List.singleton_append, readFields, skipSpace_cons rfl, Fields.reread]
    rfl
  | .cons key value tail =>
    rw [Fields.write] at hfuel
    simp only [List.length_cons, List.length_append] at hfuel
    obtain ⟨fuel, rfl⟩ : ∃ n, fuel = n + 2 := ⟨fuel - 2, by omega⟩
    have hvalue := readValue_write value fuel depth (tail.write ++ rest)
      (stops_fields tail rest) (by omega)
    have htail := readFields_write tail fuel depth rest (by omega)
    have hread := readEntry_cons r key hvalue htail
    rw [Fields.write, List.cons_append, readFields_cons, Fields.reread]
    simp only [List.cons_append, List.append_assoc]
    exact hread

end

theorem readAll_reread (v : Value) (depth : Nat) : r.readAll depth v.write = v.reread r depth := by
  have hread := readValue_write r v (4 * v.write.length + 4) depth [] stops_nil (by omega)
  rw [List.append_nil] at hread
  rw [Reader.readAll, hread]
  cases v.reread r depth <;> rfl

/-- A text that is all of a value is read as it. -/
theorem readAll_write {v : Value} (hkept : v.Kept r) (hdepth : v.depth < depth) :
    r.readAll depth v.write = some v := by
  rw [readAll_reread, reread_kept v hkept hdepth]

end Reading

/-! ## Writing loses nothing -/

/-- A reader that takes every float for its own text. -/
def literal : Reader where
  toFloat lexeme :=
    if h : isFloatText lexeme.text = true then some ⟨lexeme.text, h⟩ else none

mutual

theorem kept_literal : (v : Value) → v.Kept literal
  | .null | .bool _ | .int _ | .str _ => by rw [Value.Kept] <;> simp
  | .float x => by
    have htext := lexeme_text x
    have hfloat : isFloatText x.lexeme.text = true := by
      rw [htext]
      exact x.written
    rw [Value.Kept, literal]
    simp only [hfloat, dif_pos, Option.some.injEq]
    cases x
    simp only [Float64.mk.injEq]
    exact htext
  | .arr items => by
    rw [Value.Kept]
    exact kept_items_literal items
  | .obj fields => by
    rw [Value.Kept]
    exact kept_fields_literal fields

theorem kept_items_literal : (items : Items) → items.Kept literal
  | .nil => by rw [Items.Kept]; trivial
  | .cons head tail => by
    rw [Items.Kept]
    exact ⟨kept_literal head, kept_items_literal tail⟩

theorem kept_fields_literal : (fields : Fields) → fields.Kept literal
  | .nil => by rw [Fields.Kept]; trivial
  | .cons _ value tail => by
    rw [Fields.Kept]
    exact ⟨kept_literal value, kept_fields_literal tail⟩

end

/-- **Two values with one text are one value.** -/
theorem write_injective : Function.Injective Value.write := by
  intro v w heq
  have hv : literal.readAll (max v.depth w.depth + 1) v.write = some v :=
    readAll_write literal (kept_literal v) (by omega)
  have hw : literal.readAll (max v.depth w.depth + 1) w.write = some w :=
    readAll_write literal (kept_literal w) (by omega)
  rw [heq, hw] at hv
  exact (Option.some.inj hv).symm

end Serde
