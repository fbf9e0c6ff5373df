import FerrumGate.Serde.Document

/-!
# Values up to the order of keys

Two values are alike if they differ at most in the order of the keys of their objects, at any depth.
Putting the keys in order chooses one of the values that are alike.

* `alike_sorted` : alike values are the same in order.
* `alike_self_sorted` : a value is alike to itself in order.
* **`sorted_eq_iff`** : values without repeated keys are alike exactly if they are the same in
  order.
-/

namespace Serde

mutual

/-- No object of a value has a key twice. -/
def Value.Distinct : Value → Prop
  | .arr items => items.Distinct
  | .obj fields => fields.keys.Nodup ∧ fields.Distinct
  | _ => True

def Items.Distinct : Items → Prop
  | .nil => True
  | .cons head tail => head.Distinct ∧ tail.Distinct

/-- The values of the fields have no key twice. -/
def Fields.Distinct : Fields → Prop
  | .nil => True
  | .cons _ value tail => value.Distinct ∧ tail.Distinct

end

mutual

/-- The same value, but for the order of keys. -/
inductive Value.Alike : Value → Value → Prop
  | refl (v : Value) : v.Alike v
  | symm {v w : Value} : v.Alike w → w.Alike v
  | trans {u v w : Value} : u.Alike v → v.Alike w → u.Alike w
  | arr {items items' : Items} : items.Alike items' → (Value.arr items).Alike (.arr items')
  | obj {fields fields' : Fields} : fields.Alike fields' → (Value.obj fields).Alike (.obj fields')

inductive Items.Alike : Items → Items → Prop
  | nil : Items.nil.Alike .nil
  | cons {v w : Value} {items items' : Items} : v.Alike w → items.Alike items' →
      (Items.cons v items).Alike (.cons w items')

inductive Fields.Alike : Fields → Fields → Prop
  | nil : Fields.nil.Alike .nil
  | cons {key : List Char} {v w : Value} {fields fields' : Fields} : v.Alike w →
      fields.Alike fields' → (Fields.cons key v fields).Alike (.cons key w fields')
  | swap {k l : List Char} {v w : Value} {fields : Fields} :
      (Fields.cons k v (.cons l w fields)).Alike (.cons l w (.cons k v fields))
  | trans {f g h : Fields} : f.Alike g → g.Alike h → f.Alike h

end

/-! ## Alike values are the same in order -/

variable {key : List Char} {value : Value}

theorem add_comm_of_lt {l : List Char} {w : Value} (hlt : key < l) (fields : Fields) :
    (fields.add l w).add key value = (fields.add key value).add l w := by
  cases fields with
  | nil => simp [Fields.add, hlt, not_lt_of_gt hlt, hlt.ne']
  | cons k v tail =>
    have ih := add_comm_of_lt (w := w) hlt tail
    rcases lt_trichotomy key k with hk | rfl | hk
    · by_cases hl : l < k
      · simp [Fields.add, hk, hl, hlt, not_lt_of_gt hlt, hlt.ne']
      · by_cases heq : l = k
        · simp [Fields.add, hk, heq, not_lt_of_gt hk, hk.ne']
        · simp [Fields.add, hk, hl, heq, not_lt_of_gt hlt, hlt.ne']
    · simp [Fields.add, hlt.ne', not_lt_of_gt hlt]
    · have hl : k < l := hk.trans hlt
      simp [Fields.add, not_lt_of_gt hk, not_lt_of_gt hl, hk.ne', hl.ne', ih]

/-- Two fields with different keys can be put in place in either order. -/
theorem add_comm {l : List Char} {w : Value} (hne : key ≠ l) (fields : Fields) :
    (fields.add l w).add key value = (fields.add key value).add l w := by
  rcases lt_or_gt_of_ne hne with hlt | hlt
  · exact add_comm_of_lt hlt fields
  · exact (add_comm_of_lt hlt fields).symm

mutual

/-- Alike values have distinct keys together, and are then the same in order. -/
theorem alike_sorted : {v w : Value} → v.Alike w →
    (v.Distinct ↔ w.Distinct) ∧ (v.Distinct → v.sorted = w.sorted)
  | _, _, .refl _ => ⟨Iff.rfl, fun _ => rfl⟩
  | _, _, .symm h => by
    obtain ⟨hdistinct, hsorted⟩ := alike_sorted h
    exact ⟨hdistinct.symm, fun hw => (hsorted (hdistinct.mpr hw)).symm⟩
  | _, _, .trans h h' => by
    obtain ⟨hdistinct, hsorted⟩ := alike_sorted h
    obtain ⟨hdistinct', hsorted'⟩ := alike_sorted h'
    exact ⟨hdistinct.trans hdistinct',
      fun hv => (hsorted hv).trans (hsorted' (hdistinct.mp hv))⟩
  | _, _, .arr h => by
    obtain ⟨hdistinct, hsorted⟩ := alike_items_sorted h
    simp only [Value.Distinct, Value.sorted, Value.arr.injEq]
    exact ⟨hdistinct, hsorted⟩
  | _, _, .obj h => by
    obtain ⟨hkeys, hdistinct, hsorted⟩ := alike_fields_sorted h
    simp only [Value.Distinct, Value.sorted, Value.obj.injEq]
    exact ⟨and_congr hkeys.nodup_iff hdistinct, fun hv => hsorted hv.1 hv.2⟩

theorem alike_items_sorted : {items items' : Items} → items.Alike items' →
    (items.Distinct ↔ items'.Distinct) ∧ (items.Distinct → items.sorted = items'.sorted)
  | _, _, .nil => ⟨Iff.rfl, fun _ => rfl⟩
  | _, _, .cons hhead htail => by
    obtain ⟨hdistinct, hsorted⟩ := alike_sorted hhead
    obtain ⟨hdistinct', hsorted'⟩ := alike_items_sorted htail
    simp only [Items.Distinct, Items.sorted, Items.cons.injEq]
    exact ⟨and_congr hdistinct hdistinct', fun h => ⟨hsorted h.1, hsorted' h.2⟩⟩

theorem alike_fields_sorted : {fields fields' : Fields} → fields.Alike fields' →
    fields.keys.Perm fields'.keys ∧ (fields.Distinct ↔ fields'.Distinct) ∧
      (fields.keys.Nodup → fields.Distinct → fields.sorted = fields'.sorted)
  | _, _, .nil => ⟨.refl _, Iff.rfl, fun _ _ => rfl⟩
  | _, _, .cons hvalue htail => by
    obtain ⟨hdistinct, hsorted⟩ := alike_sorted hvalue
    obtain ⟨hkeys, hdistinct', hsorted'⟩ := alike_fields_sorted htail
    simp only [Fields.keys, Fields.Distinct, Fields.sorted]
    refine ⟨hkeys.cons _, and_congr hdistinct hdistinct', fun hnodup h => ?_⟩
    rw [hsorted h.1, hsorted' (List.nodup_cons.mp hnodup).2 h.2]
  | _, _, .swap => by
    simp only [Fields.keys, Fields.Distinct, Fields.sorted]
    refine ⟨.swap _ _ _, and_left_comm, fun hnodup _ => add_comm ?_ _⟩
    rintro rfl
    simp at hnodup
  | _, _, .trans h h' => by
    obtain ⟨hkeys, hdistinct, hsorted⟩ := alike_fields_sorted h
    obtain ⟨hkeys', hdistinct', hsorted'⟩ := alike_fields_sorted h'
    refine ⟨hkeys.trans hkeys', hdistinct.trans hdistinct', fun hnodup hf => ?_⟩
    rw [hsorted hnodup hf, hsorted' (hkeys.nodup_iff.mp hnodup) (hdistinct.mp hf)]

end

/-! ## A value and itself in order are alike -/

theorem mem_keys_sorted {k : List Char} :
    (fields : Fields) → k ∈ fields.sorted.keys → k ∈ fields.keys
  | .nil, h => by simpa [Fields.sorted] using h
  | .cons key value tail, h => by
    rw [Fields.sorted] at h
    rw [Fields.keys, List.mem_cons]
    exact (mem_keys_add _ h).imp_right (mem_keys_sorted tail)

/-- A field with a new key is moved to its place. -/
theorem cons_alike_add : (fields : Fields) → key ∉ fields.keys →
    (Fields.cons key value fields).Alike (fields.add key value)
  | .nil, _ => .cons (.refl value) .nil
  | .cons k v tail, hkey => by
    rw [Fields.keys, List.mem_cons, not_or] at hkey
    rw [Fields.add, if_neg hkey.1]
    split_ifs
    · exact alike_fields_refl _
    · exact .trans .swap (.cons (.refl v) (cons_alike_add tail hkey.2))
where
  alike_fields_refl : (fields : Fields) → fields.Alike fields
    | .nil => .nil
    | .cons _ v tail => .cons (.refl v) (alike_fields_refl tail)

mutual

theorem alike_self_sorted : (v : Value) → v.Distinct → v.Alike v.sorted
  | .null, _ | .bool _, _ | .int _, _ | .float _, _ | .str _, _ => by
    rw [Value.sorted] <;> first | exact .refl _ | simp
  | .arr items, h => by
    rw [Value.Distinct] at h
    rw [Value.sorted]
    exact .arr (alike_items_self_sorted items h)
  | .obj fields, h => by
    rw [Value.Distinct] at h
    rw [Value.sorted]
    exact .obj (alike_fields_self_sorted fields h.1 h.2)

theorem alike_items_self_sorted : (items : Items) → items.Distinct → items.Alike items.sorted
  | .nil, _ => by
    rw [Items.sorted]
    exact .nil
  | .cons head tail, h => by
    rw [Items.Distinct] at h
    rw [Items.sorted]
    exact .cons (alike_self_sorted head h.1) (alike_items_self_sorted tail h.2)

theorem alike_fields_self_sorted : (fields : Fields) → fields.keys.Nodup → fields.Distinct →
    fields.Alike fields.sorted
  | .nil, _, _ => by
    rw [Fields.sorted]
    exact .nil
  | .cons key value tail, hnodup, h => by
    rw [Fields.Distinct] at h
    rw [Fields.keys, List.nodup_cons] at hnodup
    rw [Fields.sorted]
    refine .trans (.cons (alike_self_sorted value h.1)
      (alike_fields_self_sorted tail hnodup.2 h.2)) ?_
    exact cons_alike_add _ fun hmem => hnodup.1 (mem_keys_sorted tail hmem)

end

/-- **Putting keys in order decides whether values are alike.** -/
theorem sorted_eq_iff {v w : Value} (hv : v.Distinct) (hw : w.Distinct) :
    v.sorted = w.sorted ↔ v.Alike w := by
  constructor
  · intro h
    have hw' := alike_self_sorted w hw
    rw [← h] at hw'
    exact (alike_self_sorted v hv).trans hw'.symm
  · exact fun h => (alike_sorted h).2 hv

end Serde
