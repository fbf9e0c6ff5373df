import FerrumGate.Serde.RoundTrip

/-!
# Documents

A `serde_json` value keeps the fields of an object as a map, in the order of their keys. A document
is a value in which every object is such a map, so that a value out of order cannot be built; what
`from_str` reads is put in order, and of two fields with one key the later one stays.

* **`fromStr_toText`** : a document nested less deep than the limit is read back.
-/

namespace Serde

/-! ## Maps -/

/-- Put a field in its place, unless there is one with its key: what is there was written later. -/
def Fields.add (key : List Char) (value : Value) : Fields → Fields
  | .nil => .cons key value .nil
  | .cons k v tail =>
    if key < k then .cons key value (.cons k v tail)
    else if key = k then .cons k v tail
    else .cons k v (tail.add key value)

def Fields.keys : Fields → List (List Char)
  | .nil => []
  | .cons key _ tail => key :: tail.keys

/-- The keys ascend. -/
def Fields.Ascending (fields : Fields) : Prop := fields.keys.Pairwise (· < ·)

mutual

/-- Every object of a value is a map. -/
def Value.Ordered : Value → Prop
  | .arr items => items.Ordered
  | .obj fields => fields.Ascending ∧ fields.Ordered
  | _ => True

def Items.Ordered : Items → Prop
  | .nil => True
  | .cons head tail => head.Ordered ∧ tail.Ordered

/-- The values of the fields are ordered. -/
def Fields.Ordered : Fields → Prop
  | .nil => True
  | .cons _ value tail => value.Ordered ∧ tail.Ordered

end

mutual

/-- The value with its objects made maps. -/
def Value.sorted : Value → Value
  | .arr items => .arr items.sorted
  | .obj fields => .obj fields.sorted
  | v => v

def Items.sorted : Items → Items
  | .nil => .nil
  | .cons head tail => .cons head.sorted tail.sorted

def Fields.sorted : Fields → Fields
  | .nil => .nil
  | .cons key value tail => tail.sorted.add key value.sorted

end

/-! ## Putting in order -/

theorem mem_keys_add {key k : List Char} {value : Value} :
    (fields : Fields) → k ∈ (fields.add key value).keys → k = key ∨ k ∈ fields.keys
  | .nil, h => by
    rw [Fields.add, Fields.keys, List.mem_cons] at h
    exact h
  | .cons key' value' tail, h => by
    rw [Fields.add] at h
    split_ifs at h with hlt heq
    · rw [Fields.keys, List.mem_cons] at h
      exact h
    · exact .inr h
    · rw [Fields.keys, List.mem_cons] at h ⊢
      rcases h with h | h
      · exact .inr (.inl h)
      · exact (mem_keys_add tail h).imp_right .inr

theorem ascending_add {key : List Char} {value : Value} :
    (fields : Fields) → fields.Ascending → (fields.add key value).Ascending
  | .nil, _ => List.pairwise_singleton _ _
  | .cons key' value' tail, h => by
    obtain ⟨hhead, htail⟩ := List.pairwise_cons.1 h
    rw [Fields.add]
    split_ifs with hlt heq
    · refine List.pairwise_cons.2 ⟨?_, h⟩
      intro k hk
      rcases List.mem_cons.1 hk with rfl | hk
      · exact hlt
      · exact List.lt_trans hlt (hhead k hk)
    · exact h
    · refine List.pairwise_cons.2 ⟨?_, ascending_add tail htail⟩
      intro k hk
      rcases mem_keys_add tail hk with rfl | hk
      · exact (lt_or_gt_of_ne (Ne.symm heq)).resolve_right hlt
      · exact hhead k hk

theorem ordered_add {key : List Char} {value : Value} (hvalue : value.Ordered) :
    (fields : Fields) → fields.Ordered → (fields.add key value).Ordered
  | .nil, h => by
    rw [Fields.add, Fields.Ordered]
    exact ⟨hvalue, h⟩
  | .cons key' value' tail, h => by
    rw [Fields.add]
    split_ifs with hlt heq
    · rw [Fields.Ordered]
      exact ⟨hvalue, h⟩
    · exact h
    · rw [Fields.Ordered] at h ⊢
      exact ⟨h.1, ordered_add hvalue tail h.2⟩

/-- A field whose key is below all others goes to the front. -/
theorem add_below {key : List Char} {value : Value} {fields : Fields}
    (h : ∀ k ∈ fields.keys, key < k) : fields.add key value = .cons key value fields := by
  cases fields with
  | nil => rfl
  | cons key' value' tail => rw [Fields.add, if_pos (h key' List.mem_cons_self)]

mutual

theorem sorted_ordered : (v : Value) → v.sorted.Ordered
  | .null | .bool _ | .int _ | .float _ | .str _ => by
    rw [Value.sorted, Value.Ordered] <;> simp
  | .arr items => by
    rw [Value.sorted, Value.Ordered]
    exact sorted_items_ordered items
  | .obj fields => by
    rw [Value.sorted, Value.Ordered]
    exact sorted_fields_ordered fields

theorem sorted_items_ordered : (items : Items) → items.sorted.Ordered
  | .nil => by
    rw [Items.sorted, Items.Ordered]
    trivial
  | .cons head tail => by
    rw [Items.sorted, Items.Ordered]
    exact ⟨sorted_ordered head, sorted_items_ordered tail⟩

theorem sorted_fields_ordered : (fields : Fields) →
    fields.sorted.Ascending ∧ fields.sorted.Ordered
  | .nil => by
    rw [Fields.sorted, Fields.Ordered]
    exact ⟨List.Pairwise.nil, trivial⟩
  | .cons key value tail => by
    obtain ⟨hascending, hordered⟩ := sorted_fields_ordered tail
    rw [Fields.sorted]
    exact ⟨ascending_add _ hascending, ordered_add (sorted_ordered value) _ hordered⟩

end

mutual

/-- What is in order stays as it is. -/
theorem sorted_of_ordered : (v : Value) → v.Ordered → v.sorted = v
  | .null, _ | .bool _, _ | .int _, _ | .float _, _ | .str _, _ => by
    rw [Value.sorted] <;> simp
  | .arr items, h => by
    rw [Value.Ordered] at h
    rw [Value.sorted, sorted_items_of_ordered items h]
  | .obj fields, h => by
    rw [Value.Ordered] at h
    rw [Value.sorted, sorted_fields_of_ordered fields h.1 h.2]

theorem sorted_items_of_ordered : (items : Items) → items.Ordered → items.sorted = items
  | .nil, _ => by rw [Items.sorted]
  | .cons head tail, h => by
    rw [Items.Ordered] at h
    rw [Items.sorted, sorted_of_ordered head h.1, sorted_items_of_ordered tail h.2]

theorem sorted_fields_of_ordered : (fields : Fields) → fields.Ascending → fields.Ordered →
    fields.sorted = fields
  | .nil, _, _ => by rw [Fields.sorted]
  | .cons key value tail, hascending, h => by
    rw [Fields.Ordered] at h
    obtain ⟨hhead, htail⟩ := List.pairwise_cons.1 hascending
    rw [Fields.sorted, sorted_of_ordered value h.1, sorted_fields_of_ordered tail htail h.2,
      add_below hhead]

end

/-! ## Documents -/

/-- A value whose objects are maps. -/
structure Document where
  value : Value
  ordered : value.Ordered

theorem Document.ext_value {d e : Document} (h : d.value = e.value) : d = e := by
  cases d
  cases e
  simp only at h
  subst h
  rfl

mutual

/-- No number with a fraction or an exponent. -/
def Value.integral : Value → Bool
  | .float _ => false
  | .arr items => items.integral
  | .obj fields => fields.integral
  | _ => true

def Items.integral : Items → Bool
  | .nil => true
  | .cons head tail => head.integral && tail.integral

def Fields.integral : Fields → Bool
  | .nil => true
  | .cons _ value tail => value.integral && tail.integral

end

def Document.null : Document := ⟨.null, by rw [Value.Ordered] <;> simp⟩

/-- **`to_string`**. -/
def Document.toText (d : Document) : List Char := d.value.write

/-- How deep `from_str` lets values be nested: it counts down from here and refuses to reach zero. -/
def depthLimit : Nat := 128

/-- **`from_str`**. -/
def Reader.fromStr (r : Reader) (text : List Char) : Option Document :=
  (r.readAll depthLimit text).map fun v => ⟨v.sorted, sorted_ordered v⟩

/-- **A document below the limit is read back from its text.** -/
theorem fromStr_toText (r : Reader) {d : Document} (hkept : d.value.Kept r)
    (hdepth : d.value.depth < depthLimit) : r.fromStr d.toText = some d := by
  rw [Reader.fromStr, Document.toText, readAll_write r hkept hdepth]
  exact congrArg some (Document.ext_value (sorted_of_ordered d.value d.ordered))

end Serde
