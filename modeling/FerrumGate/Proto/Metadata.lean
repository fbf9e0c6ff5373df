import Mathlib.Data.List.Nodup
import FerrumGate.Proto.Types

/-!
# Reading metadata

The phases of a rollback adapter talk to each other through the metadata of the contract: each
adds its pairs to those that are there. What a later phase reads under a key is the newest value.
-/

namespace FerrumGate

def JsonItems.toList : JsonItems → List Json
  | .nil => []
  | .cons head tail => head :: tail.toList

/-- `as_array`. -/
def Json.asArray : Json → Option (List Json)
  | .arr items => some items.toList
  | _ => none

namespace JsonMap

variable {m other : JsonMap} {key key' : String} {value : Json}

/-- `get(key).and_then(|v| v.as_str())`. -/
def str (m : JsonMap) (key : String) : Option String := (m.lookup key).bind (·.asStr)

theorem lookup_of_forall_ne (h : ∀ kv ∈ m, kv.1 ≠ key) : m.lookup key = none :=
  List.lookup_eq_none_iff.mpr fun kv hkv => bne_iff_ne.mpr (h kv hkv).symm

theorem lookup_cons_ne {k : String} {v : Json} (h : key ≠ k) :
    List.lookup key ((k, v) :: m) = m.lookup key := by
  rw [List.lookup_cons, beq_false_of_ne h]

theorem lookup_cons_self {v : Json} : List.lookup key ((key, v) :: m) = some v := by
  rw [List.lookup_cons, beq_self_eq_true]

theorem lookup_replace_self (h : ∃ kv ∈ m, kv.1 = key) :
    List.lookup key (m.map fun kv => if kv.1 == key then (key, value) else kv) = some value := by
  induction m with
  | nil => simp at h
  | cons kv rest ih =>
    rw [List.map_cons]
    by_cases hk : kv.1 = key
    · rw [if_pos (beq_iff_eq.mpr hk), lookup_cons_self]
    · rw [if_neg (by rwa [beq_iff_eq]), lookup_cons_ne (Ne.symm hk)]
      obtain ⟨found, hmem, hfound⟩ := h
      refine ih ⟨found, ?_, hfound⟩
      rcases List.mem_cons.mp hmem with rfl | hrest
      · exact absurd hfound hk
      · exact hrest

theorem lookup_replace_ne (h : key ≠ key') :
    List.lookup key (m.map fun kv => if kv.1 == key' then (key', value) else kv) =
      m.lookup key := by
  induction m with
  | nil => rfl
  | cons kv rest ih =>
    obtain ⟨k, v⟩ := kv
    rw [List.map_cons]
    by_cases hk : k = key'
    · subst hk
      rw [if_pos (beq_self_eq_true k), lookup_cons_ne h, lookup_cons_ne h, ih]
    · rw [if_neg (by rwa [beq_iff_eq]), List.lookup_cons, List.lookup_cons, ih]

/-- What an inserted pair does to every lookup. -/
theorem lookup_insert :
    List.lookup key (JsonMap.insert m key' value) =
      if key = key' then some value else m.lookup key := by
  unfold JsonMap.insert
  by_cases hany : m.any (·.1 == key') = true
  · rw [if_pos hany]
    split_ifs with hkey
    · subst hkey
      obtain ⟨kv, hkv, hmatch⟩ := List.any_eq_true.mp hany
      exact lookup_replace_self ⟨kv, hkv, beq_iff_eq.mp hmatch⟩
    · exact lookup_replace_ne hkey
  · rw [if_neg hany, List.lookup_append]
    split_ifs with hkey
    · subst hkey
      have hnone : m.lookup key = none := by
        refine lookup_of_forall_ne fun kv hkv heq => hany (List.any_eq_true.mpr ⟨kv, hkv, ?_⟩)
        exact beq_iff_eq.mpr heq
      rw [hnone, lookup_cons_self]
      rfl
    · rw [lookup_cons_ne hkey]
      simp

/-- **The newest value counts**: what a lookup finds after the pairs of a phase have been added. -/
theorem lookup_extend (h : (other.map Prod.fst).Nodup) :
    List.lookup key (JsonMap.extend m other) = (other.lookup key).or (m.lookup key) := by
  induction other generalizing m with
  | nil => simp [JsonMap.extend]
  | cons kv rest ih =>
    obtain ⟨k, v⟩ := kv
    rw [List.map_cons, List.nodup_cons] at h
    have hstep : JsonMap.extend m ((k, v) :: rest) = JsonMap.extend (JsonMap.insert m k v) rest :=
      rfl
    rw [hstep, ih h.2, lookup_insert]
    by_cases hkey : key = k
    · subst hkey
      have hrest : rest.lookup key = none := by
        refine lookup_of_forall_ne fun kv hkv heq => h.1 ?_
        exact heq ▸ List.mem_map.mpr ⟨kv, hkv, rfl⟩
      rw [if_pos rfl, hrest, lookup_cons_self]
      rfl
    · rw [if_neg hkey, lookup_cons_ne hkey]

end JsonMap

end FerrumGate
