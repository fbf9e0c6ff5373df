import FerrumGate.Merkle.Root
import FerrumGate.Wire.Hex

/-!
# The Merkle root, byte by byte

`compute_merkle_root` of `ferrum-store/src/merkle.rs`: a leaf is the digest of a zero byte and the
bytes of a content hash, an inner node the digest of a one byte and two digests, and the last node
of an odd level is joined with itself.

* **`merkle_root_binds`** : lists of equally many lowercase content hashes with one root are equal,
  unless two of the texts hashed for them collide.

A hash of 32 bytes does collide somewhere; what is assumed is that it does not among the texts
that the two roots hash.
-/

namespace FerrumGate.MerkleRoot

abbrev Bytes := List UInt8

abbrev Digest := Vector UInt8 32

/-! ## The root -/

def leafInput (bytes : Bytes) : Bytes := 0x00 :: bytes

def nodeInput (left right : Digest) : Bytes := 0x01 :: (left.toList ++ right.toList)

section Root

variable (sha256 : Bytes → Digest)

/-- The leaf of a content hash, if that is hexadecimal. -/
def leaf (hash : String) : Option Digest :=
  (Hex.decode hash.toList).map fun bytes => sha256 (leafInput bytes)

def node (left right : Digest) : Digest := sha256 (nodeInput left right)

def hexText (digest : Digest) : String := String.ofList (Hex.encode digest.toList)

/-- **`compute_merkle_root`**; none is the panic on a hash that is not hexadecimal. -/
def computeMerkleRoot (hashes : List String) : Option String :=
  if hashes.isEmpty then some ""
  else do
    let level ← hashes.mapM (leaf sha256)
    let root ← Merkle.root (node sha256) level
    return hexText root

/-- What is hashed on the way to the root. -/
def hashedInputs (hashes : List String) : List Bytes :=
  hashes.filterMap (fun hash => (Hex.decode hash.toList).map leafInput) ++
    (Merkle.joined (node sha256) (hashes.filterMap (leaf sha256))).map
      fun pair => nodeInput pair.1 pair.2

end Root

/-- A content hash as it is written: pairs of lowercase digits. -/
def IsLowerHex (hash : String) : Prop :=
  2 ∣ hash.toList.length ∧ ∀ c ∈ hash.toList, Hex.isLowerDigit c = true

/-! ## What the root binds -/

theorem hexText_injective : Function.Injective hexText := fun _ _ h =>
  Vector.toList_inj.mp (Hex.encode_injective (String.ofList_injective h))

/-- Two digests side by side are two digests. -/
theorem nodeInput_injective {left right left' right' : Digest}
    (h : nodeInput left right = nodeInput left' right') : left = left' ∧ right = right' := by
  obtain ⟨hleft, hright⟩ := List.append_inj (List.cons.inj h).2
    (by rw [Vector.length_toList, Vector.length_toList])
  exact ⟨Vector.toList_inj.mp hleft, Vector.toList_inj.mp hright⟩

section Binds

variable {sha256 : Bytes → Digest} {hashes hashes' : List String}

theorem IsLowerHex.leaf (sha256 : Bytes → Digest) {hash : String} (h : IsLowerHex hash) :
    ∃ bytes, Hex.decode hash.toList = some bytes ∧
      leaf sha256 hash = some (sha256 (leafInput bytes)) := by
  obtain ⟨bytes, hbytes⟩ := Option.isSome_iff_exists.mp (Hex.decode_isSome h.1 h.2)
  exact ⟨bytes, hbytes, congrArg (Option.map _) hbytes⟩

theorem mapM_leaf (h : ∀ hash ∈ hashes, IsLowerHex hash) :
    hashes.mapM (leaf sha256) = some (hashes.filterMap (leaf sha256)) := by
  induction hashes with
  | nil => rfl
  | cons hash rest ih =>
    obtain ⟨bytes, -, hleaf⟩ := (h hash (by simp)).leaf sha256
    rw [List.mapM_cons, hleaf, ih fun hash hmem => h hash (by simp [hmem]),
      List.filterMap_cons_some hleaf]
    rfl

theorem length_leaves (h : ∀ hash ∈ hashes, IsLowerHex hash) :
    (hashes.filterMap (leaf sha256)).length = hashes.length := by
  induction hashes with
  | nil => rfl
  | cons hash rest ih =>
    obtain ⟨bytes, -, hleaf⟩ := (h hash (by simp)).leaf sha256
    rw [List.filterMap_cons_some hleaf, List.length_cons, List.length_cons,
      ih fun hash hmem => h hash (by simp [hmem])]

theorem computeMerkleRoot_hex (h : ∀ hash ∈ hashes, IsLowerHex hash) (hne : hashes ≠ []) :
    computeMerkleRoot sha256 hashes =
      (Merkle.root (node sha256) (hashes.filterMap (leaf sha256))).map hexText := by
  rw [computeMerkleRoot, if_neg (by simpa using hne), mapM_leaf h]
  simp only [Option.bind_eq_bind, Option.bind_some, Option.pure_def, Option.map_eq_bind]
  rfl

/-- No two of the hashed texts collide. -/
def CollisionFree (sha256 : Bytes → Digest) (hashes hashes' : List String) : Prop :=
  Set.InjOn sha256
    {input | input ∈ hashedInputs sha256 hashes ∨ input ∈ hashedInputs sha256 hashes'}

theorem CollisionFree.apart (h : CollisionFree sha256 hashes hashes') :
    Merkle.Apart (node sha256) (Merkle.joined (node sha256) (hashes.filterMap (leaf sha256)))
      (Merkle.joined (node sha256) (hashes'.filterMap (leaf sha256))) := by
  intro p hp p' hp' heq
  have hinput := h (.inl (List.mem_append_right _ (List.mem_map_of_mem hp)))
    (.inr (List.mem_append_right _ (List.mem_map_of_mem hp'))) heq
  obtain ⟨hleft, hright⟩ := nodeInput_injective hinput
  exact Prod.ext hleft hright

/-- Among hashed texts, a leaf stands for its content hash. -/
theorem CollisionFree.leaf (h : CollisionFree sha256 hashes hashes') {hash hash' : String}
    (hmem : hash ∈ hashes) (hmem' : hash' ∈ hashes') (hhex : IsLowerHex hash)
    (hhex' : IsLowerHex hash') (heq : leaf sha256 hash = leaf sha256 hash') : hash = hash' := by
  obtain ⟨bytes, hbytes, hleaf⟩ := hhex.leaf sha256
  obtain ⟨bytes', hbytes', hleaf'⟩ := hhex'.leaf sha256
  rw [hleaf, hleaf', Option.some_inj] at heq
  have hinput (hash : String) (bytes : Bytes) (hashes : List String) (hmem : hash ∈ hashes)
      (hbytes : Hex.decode hash.toList = some bytes) :
      leafInput bytes ∈ hashedInputs sha256 hashes :=
    List.mem_append_left _ (List.mem_filterMap.mpr ⟨hash, hmem, by rw [hbytes]; rfl⟩)
  have hsame : leafInput bytes = leafInput bytes' :=
    h (.inl (hinput hash bytes hashes hmem hbytes)) (.inr (hinput hash' bytes' hashes' hmem' hbytes'))
      heq
  rw [(List.cons.inj hsame).2] at hbytes
  exact String.ext (Hex.decode_injective hhex.2 hhex'.2 hbytes hbytes')

/-- Equal leaves are leaves of equal content hashes. -/
theorem eq_of_leaves : {hashes hashes' : List String} → (∀ hash ∈ hashes, IsLowerHex hash) →
    (∀ hash ∈ hashes', IsLowerHex hash) →
    (∀ hash ∈ hashes, ∀ hash' ∈ hashes', leaf sha256 hash = leaf sha256 hash' → hash = hash') →
    hashes.filterMap (leaf sha256) = hashes'.filterMap (leaf sha256) → hashes = hashes'
  | [], [], _, _, _, _ => rfl
  | [], hash' :: rest', hhex, hhex', _, h => by
    have := congrArg List.length h
    rw [length_leaves hhex, length_leaves hhex'] at this
    cases this
  | hash :: rest, [], hhex, hhex', _, h => by
    have := congrArg List.length h
    rw [length_leaves hhex, length_leaves hhex'] at this
    cases this
  | hash :: rest, hash' :: rest', hhex, hhex', hleaves, h => by
    obtain ⟨bytes, -, hleaf⟩ := (hhex hash (by simp)).leaf sha256
    obtain ⟨bytes', -, hleaf'⟩ := (hhex' hash' (by simp)).leaf sha256
    rw [List.filterMap_cons_some hleaf, List.filterMap_cons_some hleaf'] at h
    obtain ⟨hhead, htail⟩ := List.cons.inj h
    have hrest : rest = rest' :=
      eq_of_leaves (fun x hx => hhex x (by simp [hx])) (fun x hx => hhex' x (by simp [hx]))
        (fun x hx y hy => hleaves x (by simp [hx]) y (by simp [hy])) htail
    rw [hleaves hash (by simp) hash' (by simp) (by rw [hleaf, hleaf', hhead]), hrest]

end Binds

/-- **The root binds equally many content hashes.** -/
theorem merkle_root_binds (sha256 : Bytes → Digest) (hashes hashes' : List String)
    (hfree : CollisionFree sha256 hashes hashes') (hhex : ∀ hash ∈ hashes, IsLowerHex hash)
    (hhex' : ∀ hash ∈ hashes', IsLowerHex hash) (hlength : hashes.length = hashes'.length)
    (hroot : computeMerkleRoot sha256 hashes = computeMerkleRoot sha256 hashes') :
    hashes = hashes' := by
  by_cases hempty : hashes = []
  · subst hempty
    exact (List.length_eq_zero_iff.mp hlength.symm).symm
  · have hempty' : hashes' ≠ [] := by
      rintro rfl
      exact hempty (List.length_eq_zero_iff.mp hlength)
    rw [computeMerkleRoot_hex hhex hempty, computeMerkleRoot_hex hhex' hempty'] at hroot
    have hleaves := Merkle.root_injective_of_apart hfree.apart
      (by rw [length_leaves hhex, length_leaves hhex', hlength])
      (Option.map_injective hexText_injective hroot)
    exact eq_of_leaves hhex hhex'
      (fun hash hmem hash' hmem' =>
        hfree.leaf hmem hmem' (hhex hash hmem) (hhex' hash' hmem')) hleaves

namespace FirstBytes

def padded (bytes : Bytes) : Bytes := (bytes ++ List.replicate 32 0).take 32

/-- The first 32 bytes, filled up with zeros. -/
def firstBytes (bytes : Bytes) : Digest := ⟨(padded bytes).toArray, by simp [padded]⟩

instance (hashes hashes' : List String) : Decidable (CollisionFree firstBytes hashes hashes') :=
  decidable_of_iff (∀ x ∈ hashedInputs firstBytes hashes ++ hashedInputs firstBytes hashes',
      ∀ y ∈ hashedInputs firstBytes hashes ++ hashedInputs firstBytes hashes',
        padded x = padded y → x = y) <| by
    have hpadded (x y : Bytes) : firstBytes x = firstBytes y ↔ padded x = padded y := by
      simp [firstBytes]
    simp only [List.mem_append, ← hpadded]
    exact ⟨fun h x hx y hy => h x hx y hy, fun h x hx y hy => h hx hy⟩

instance (hash : String) : Decidable (IsLowerHex hash) :=
  letI : Decidable (∀ c ∈ hash.toList, Hex.isLowerDigit c = true) := List.decidableBAll _ _
  inferInstanceAs (Decidable (_ ∧ _))

end FirstBytes

open FirstBytes in
/-- Three content hashes, which differ in the first one. -/
theorem merkle_root_of_three :
    CollisionFree firstBytes ["00", "01", "02"] ["03", "01", "02"] ∧
    (∀ hash ∈ ["00", "01", "02"], IsLowerHex hash) ∧
    (∀ hash ∈ ["03", "01", "02"], IsLowerHex hash) ∧
    computeMerkleRoot firstBytes ["00", "01", "02"] ≠
      computeMerkleRoot firstBytes ["03", "01", "02"] := by
  have hfree : CollisionFree firstBytes ["00", "01", "02"] ["03", "01", "02"] := by
    decide +kernel
  have hhex : ∀ hash ∈ ["00", "01", "02"], IsLowerHex hash := by decide
  have hhex' : ∀ hash ∈ ["03", "01", "02"], IsLowerHex hash := by decide
  refine ⟨hfree, hhex, hhex', fun hroot => ?_⟩
  exact absurd (merkle_root_binds _ _ _ hfree hhex hhex' rfl hroot) (by decide)

end FerrumGate.MerkleRoot
