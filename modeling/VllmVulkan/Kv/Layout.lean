import VllmVulkan.Lang.Python
import Mathlib.Data.List.Sort
import Mathlib.Data.List.Range
import Mathlib.Algebra.BigOperators.Group.List.Lemmas
import Mathlib.Algebra.BigOperators.Ring.List
import Mathlib.Tactic.Ring

/-!
# The paged KV-cache layout

The byte layout shared by the host and the shaders (`kv_layout.py`).  Each layer owns a
contiguous region of the buffer; inside it, each physical block stores one K plane followed by
one V plane, and each plane is token-major:

    [layer][physical block][K tokens | V tokens][token][kv head][head element]

* `KVCacheLayerSpec`, `VulkanPagedKVLayout` : the two validated records.  What the constructors
  check is carried by the types, so that an inconsistent layout cannot be built;
* `KVCacheLayerSpec.new`, `VulkanPagedKVLayout.fromLayerSpecs` : the constructors, with their
  errors;
* `VulkanPagedKVLayout.tokenOffset`, `slotOffset` : the byte address of one scalar, as the source
  computes it, on arbitrary integers;
* `VulkanPagedKVLayout.tokenOffset_eq`, `slotOffset_cell` : the closed form of that address;
* `VulkanPagedKVLayout.region_le_total` : every layer's region lies inside the buffer.
-/

namespace VllmVulkan

/-! ### The specification of one layer -/

/-- Shape of one layer's paged KV-cache blocks. -/
structure KVCacheLayerSpec where
  /-- Position of the layer in the model. -/
  layerIndex : ℕ
  /-- Number of K/V heads. -/
  numKvHeads : ℕ
  /-- Elements per head. -/
  headSize : ℕ
  /-- Tokens per physical block. -/
  blockSize : ℕ
  /-- Bytes per element. -/
  dtypeSize : ℕ
  numKvHeads_pos : 0 < numKvHeads
  headSize_pos : 0 < headSize
  blockSize_pos : 0 < blockSize
  dtypeSize_pos : 0 < dtypeSize
  deriving DecidableEq

namespace KVCacheLayerSpec

theorem four_pos : 0 < 4 := Nat.succ_pos 3

variable (s : KVCacheLayerSpec)

/-- `elements_per_token`. -/
def elementsPerToken : ℕ := s.numKvHeads * s.headSize

/-- `bytes_per_token_per_plane`. -/
def bytesPerTokenPerPlane : ℕ := s.elementsPerToken * s.dtypeSize

/-- `plane_bytes_per_block`. -/
def planeBytesPerBlock : ℕ := s.blockSize * s.bytesPerTokenPerPlane

/-- `bytes_per_block`. -/
def bytesPerBlock : ℕ := 2 * s.planeBytesPerBlock

/-- `__post_init__`: the validated record, or the error of the first field that fails. -/
def new (layerIndex numKvHeads headSize blockSize dtypeSize : ℤ) : Py KVCacheLayerSpec :=
  if layerIndex < 0 then .error (.valueError "layer_index must be >= 0")
  else if hh : numKvHeads ≤ 0 then .error (.valueError "num_kv_heads must be > 0")
  else if hd : headSize ≤ 0 then .error (.valueError "head_size must be > 0")
  else if hb : blockSize ≤ 0 then .error (.valueError "block_size must be > 0")
  else if ht : dtypeSize ≤ 0 then .error (.valueError "dtype_size must be > 0")
  else .ok {
    layerIndex := layerIndex.toNat
    numKvHeads := numKvHeads.toNat
    headSize := headSize.toNat
    blockSize := blockSize.toNat
    dtypeSize := dtypeSize.toNat
    numKvHeads_pos := by omega
    headSize_pos := by omega
    blockSize_pos := by omega
    dtypeSize_pos := by omega }

theorem elementsPerToken_pos : 0 < s.elementsPerToken :=
  Nat.mul_pos s.numKvHeads_pos s.headSize_pos

/-- Elements in one plane of a block. -/
def planeElements : ℕ := s.blockSize * s.elementsPerToken

/-- Elements in one block. -/
def blockElements : ℕ := 2 * s.planeElements

theorem planeBytesPerBlock_eq : s.planeBytesPerBlock = s.planeElements * s.dtypeSize := by
  simp only [planeBytesPerBlock, bytesPerTokenPerPlane, planeElements, Nat.mul_assoc]

theorem bytesPerBlock_eq : s.bytesPerBlock = s.blockElements * s.dtypeSize := by
  simp only [bytesPerBlock, blockElements, planeBytesPerBlock_eq, Nat.mul_assoc]

theorem planeBytesPerBlock_div : s.planeBytesPerBlock / s.dtypeSize = s.planeElements := by
  rw [planeBytesPerBlock_eq, Nat.mul_div_cancel _ s.dtypeSize_pos]

theorem bytesPerBlock_div : s.bytesPerBlock / s.dtypeSize = s.blockElements := by
  rw [bytesPerBlock_eq, Nat.mul_div_cancel _ s.dtypeSize_pos]

end KVCacheLayerSpec

/-! ### The layout -/

/-- The two planes of a block. -/
inductive KVPlane where
  | k
  | v
  deriving DecidableEq, Repr

/-- The name a plane is passed by. -/
def KVPlane.name : KVPlane → String
  | .k => "k"
  | .v => "v"

/-- Byte-addressable paged KV-cache layout for the attention kernels. -/
structure VulkanPagedKVLayout where
  /-- The layers, in order. -/
  layerSpecs : List KVCacheLayerSpec
  /-- Physical blocks per layer. -/
  numBlocks : ℕ
  numBlocks_pos : 0 < numBlocks
  layerSpecs_ne : layerSpecs ≠ []
  /-- Layers are numbered contiguously from `0`. -/
  layerIndex_eq : layerSpecs.map (·.layerIndex) = List.range layerSpecs.length
  /-- All layers use the block size of the first. -/
  blockSize_eq : ∀ s ∈ layerSpecs, s.blockSize = (layerSpecs.head layerSpecs_ne).blockSize

namespace VulkanPagedKVLayout

/-- The loop checking that the sorted layers are numbered from `expected` on. -/
def checkContiguous : ℕ → List KVCacheLayerSpec → Py Unit
  | _, [] => .ok ()
  | expected, spec :: specs =>
    if spec.layerIndex ≠ expected then
      .error (.valueError
        (s!"layer specs must be contiguous and start at 0; expected layer {expected}, " ++
          s!"got {spec.layerIndex}"))
    else checkContiguous (expected + 1) specs

theorem checkContiguous_eq_ok {specs : List KVCacheLayerSpec} {k : ℕ} {u : Unit} :
    checkContiguous k specs = .ok u ↔ specs.map (·.layerIndex) = List.range' k specs.length := by
  induction specs generalizing k with
  | nil => simp [checkContiguous]
  | cons s specs ih =>
    by_cases h : s.layerIndex = k
    · simp [checkContiguous, h, ih, List.range'_succ]
    · simp [checkContiguous, h, List.range'_succ]

/-- `from_layer_specs` with `__post_init__`: the layers are sorted by index and checked. -/
def fromLayerSpecs (layerSpecs : List KVCacheLayerSpec) (numBlocks : ℤ) :
    Py VulkanPagedKVLayout :=
  if hn : numBlocks ≤ 0 then .error (.valueError "num_blocks must be > 0") else
  let ordered := layerSpecs.insertionSort (fun a b => a.layerIndex ≤ b.layerIndex)
  if he : ordered = [] then .error (.valueError "at least one layer spec is required") else
  match hc : checkContiguous 0 ordered with
  | .error e => .error e
  | .ok _ =>
    if hb : ∀ s ∈ ordered, s.blockSize = (ordered.head he).blockSize then
      .ok {
        layerSpecs := ordered
        numBlocks := numBlocks.toNat
        numBlocks_pos := by omega
        layerSpecs_ne := he
        layerIndex_eq := by rw [List.range_eq_range']; exact checkContiguous_eq_ok.1 hc
        blockSize_eq := hb }
    else .error (.valueError "all layer specs must use the same block_size")

/-- The cursor loop: the base offset of every layer, and the end of the last one. -/
def offsetsFrom (numBlocks : ℕ) : ℕ → List KVCacheLayerSpec → List ℕ × ℕ
  | cursor, [] => ([], cursor)
  | cursor, spec :: specs =>
    let r := offsetsFrom numBlocks (cursor + numBlocks * spec.bytesPerBlock) specs
    (cursor :: r.1, r.2)

variable (L : VulkanPagedKVLayout)

/-- The layout of `L` places layer `k` at the end of the layers before it. -/
def regionStart (k : ℕ) : ℕ :=
  ((L.layerSpecs.take k).map fun s => L.numBlocks * s.bytesPerBlock).sum

/-- `_layer_base_offsets`. -/
def layerBaseOffsets : List ℕ := (offsetsFrom L.numBlocks 0 L.layerSpecs).1

/-- `total_bytes`. -/
def totalBytes : ℕ := (offsetsFrom L.numBlocks 0 L.layerSpecs).2

/-- `block_size`. -/
def blockSize : ℕ := (L.layerSpecs.head L.layerSpecs_ne).blockSize

/-- `capacity_tokens_per_layer`. -/
def capacityTokensPerLayer : ℕ := L.numBlocks * L.blockSize

/-- `layer_spec`: a Python tuple lookup, so that a negative index counts from the end. -/
def layerSpec (layerIndex : ℤ) : Py KVCacheLayerSpec :=
  match pyIndex? L.layerSpecs layerIndex with
  | some s => .ok s
  | none => .error (.valueError s!"layer_index {layerIndex} out of range")

/-- `layer_base_offset`. -/
def layerBaseOffset (layerIndex : ℤ) : Py ℕ := do
  let _ ← L.layerSpec layerIndex
  match pyIndex? L.layerBaseOffsets layerIndex with
  | some b => .ok b
  | none => .error .indexError

/-- `block_base_offset`. -/
def blockBaseOffset (layerIndex physicalBlockId : ℤ) : Py ℕ := do
  let spec ← L.layerSpec layerIndex
  raiseIf (¬ (0 ≤ physicalBlockId ∧ physicalBlockId < L.numBlocks)) (.valueError
    s!"physical_block_id {physicalBlockId} out of range for {L.numBlocks} block(s)")
  let base ← L.layerBaseOffset layerIndex
  return base + physicalBlockId.toNat * spec.bytesPerBlock

/-- `plane_base_offset`. -/
def planeBaseOffset (layerIndex physicalBlockId : ℤ) (plane : String) : Py ℕ := do
  let spec ← L.layerSpec layerIndex
  let blockBase ← L.blockBaseOffset layerIndex physicalBlockId
  if plane = "k" then return blockBase
  else if plane = "v" then return blockBase + spec.planeBytesPerBlock
  else throw (.valueError s!"unknown KV plane {pyRepr plane}")

/-- `token_offset`: the byte offset of one scalar in the paged KV cache. -/
def tokenOffset (layerIndex physicalBlockId tokenOffsetInBlock kvHead headElement : ℤ)
    (plane : String) : Py ℕ := do
  let spec ← L.layerSpec layerIndex
  raiseIf (¬ (0 ≤ tokenOffsetInBlock ∧ tokenOffsetInBlock < spec.blockSize)) (.valueError
    (s!"token_offset_in_block {tokenOffsetInBlock} out of range " ++
      s!"for block_size {spec.blockSize}"))
  raiseIf (¬ (0 ≤ kvHead ∧ kvHead < spec.numKvHeads)) (.valueError
    s!"kv_head {kvHead} out of range for {spec.numKvHeads} head(s)")
  raiseIf (¬ (0 ≤ headElement ∧ headElement < spec.headSize)) (.valueError
    s!"head_element {headElement} out of range for head_size {spec.headSize}")
  let scalarIndex := (tokenOffsetInBlock.toNat * spec.numKvHeads + kvHead.toNat) * spec.headSize +
    headElement.toNat
  let base ← L.planeBaseOffset layerIndex physicalBlockId plane
  return base + scalarIndex * spec.dtypeSize

/-- `slot_offset`: the byte offset from vLLM's slot number. -/
def slotOffset (layerIndex slot kvHead headElement : ℤ) (plane : String) : Py ℕ := do
  raiseIf (slot < 0) (.valueError "slot must be >= 0")
  L.tokenOffset layerIndex (slot / L.blockSize) (slot % L.blockSize) kvHead headElement plane

/-! ### Layer regions -/

theorem offsetsFrom_fst_getElem? (nb : ℕ) (specs : List KVCacheLayerSpec) (c k : ℕ) :
    (offsetsFrom nb c specs).1[k]? = specs[k]?.map fun _ =>
      c + ((specs.take k).map fun s => nb * s.bytesPerBlock).sum := by
  induction specs generalizing c k with
  | nil => simp [offsetsFrom]
  | cons s specs ih =>
    cases k with
    | zero => simp [offsetsFrom]
    | succ k => simp [offsetsFrom, ih, Nat.add_assoc]

theorem offsetsFrom_snd (nb : ℕ) (specs : List KVCacheLayerSpec) (c : ℕ) :
    (offsetsFrom nb c specs).2 = c + (specs.map fun s => nb * s.bytesPerBlock).sum := by
  induction specs generalizing c with
  | nil => simp [offsetsFrom]
  | cons s specs ih => simp [offsetsFrom, ih, Nat.add_assoc]

theorem length_offsetsFrom (nb : ℕ) (specs : List KVCacheLayerSpec) (c : ℕ) :
    (offsetsFrom nb c specs).1.length = specs.length := by
  induction specs generalizing c with
  | nil => rfl
  | cons s specs ih => simp [offsetsFrom, ih]

variable {L}

theorem layerSpec_eq_ok {i : ℤ} {s : KVCacheLayerSpec} :
    L.layerSpec i = .ok s ↔
      ∃ k, pyPos L.layerSpecs.length i = some k ∧ L.layerSpecs[k]? = some s := by
  rw [← pyIndex?_eq_some]
  unfold layerSpec
  split <;> rename_i h <;> simp [h]

theorem mem_of_layerSpec {i : ℤ} {s : KVCacheLayerSpec} (h : L.layerSpec i = .ok s) :
    s ∈ L.layerSpecs := by
  obtain ⟨k, -, hk⟩ := layerSpec_eq_ok.1 h
  exact List.mem_of_getElem? hk

theorem layerBaseOffset_of_pyPos {i : ℤ} {k : ℕ} {s : KVCacheLayerSpec}
    (hi : pyPos L.layerSpecs.length i = some k) (hk : L.layerSpecs[k]? = some s) :
    L.layerBaseOffset i = .ok (L.regionStart k) := by
  have h : L.layerSpec i = .ok s := layerSpec_eq_ok.2 ⟨k, hi, hk⟩
  have hp : pyIndex? L.layerBaseOffsets i = some (L.regionStart k) := by
    rw [pyIndex?_eq_some]
    refine ⟨k, by rw [layerBaseOffsets, length_offsetsFrom, hi], ?_⟩
    rw [layerBaseOffsets, offsetsFrom_fst_getElem?, hk, Option.map_some, Nat.zero_add, regionStart]
  simp [layerBaseOffset, h, hp, bind, Except.bind]

theorem exists_layerBaseOffset {i : ℤ} {s : KVCacheLayerSpec} (h : L.layerSpec i = .ok s) :
    ∃ k, L.layerSpecs[k]? = some s ∧ L.layerBaseOffset i = .ok (L.regionStart k) := by
  obtain ⟨k, hi, hk⟩ := layerSpec_eq_ok.1 h
  exact ⟨k, hk, layerBaseOffset_of_pyPos hi hk⟩

theorem layerSpec_natCast {k : ℕ} {s : KVCacheLayerSpec} :
    L.layerSpec k = .ok s ↔ L.layerSpecs[k]? = some s := by
  rw [layerSpec_eq_ok]
  constructor
  · rintro ⟨j, hj, hs⟩
    have hlt : k < L.layerSpecs.length := by
      by_contra hk
      rw [pyPos, if_pos (by omega), if_neg (by omega)] at hj
      cases hj
    rw [pyPos_natCast hlt] at hj
    obtain rfl := Option.some.inj hj
    exact hs
  · intro hs
    exact ⟨k, pyPos_natCast (List.getElem?_eq_some_iff.1 hs).1, hs⟩

theorem layerBaseOffset_natCast {k : ℕ} {s : KVCacheLayerSpec} (h : L.layerSpecs[k]? = some s) :
    L.layerBaseOffset k = .ok (L.regionStart k) :=
  layerBaseOffset_of_pyPos (pyPos_natCast (List.getElem?_eq_some_iff.1 h).1) h

/-- **Every layer's region lies inside the buffer.** -/
theorem region_le_total {k : ℕ} {s : KVCacheLayerSpec} (hk : L.layerSpecs[k]? = some s) :
    L.regionStart k + L.numBlocks * s.bytesPerBlock ≤ L.totalBytes := by
  have hsplit : L.layerSpecs = L.layerSpecs.take k ++ s :: L.layerSpecs.drop (k + 1) := by
    obtain ⟨hlt, rfl⟩ := List.getElem?_eq_some_iff.1 hk
    rw [List.getElem_cons_drop, List.take_append_drop]
  have ht := congrArg (fun xs => (xs.map fun s => L.numBlocks * s.bytesPerBlock).sum) hsplit
  rw [List.map_append, List.map_cons, List.sum_append, List.sum_cons] at ht
  rw [totalBytes, offsetsFrom_snd, Nat.zero_add, ht, regionStart]
  omega

theorem blockSize_of_layerSpec {i : ℤ} {s : KVCacheLayerSpec} (h : L.layerSpec i = .ok s) :
    s.blockSize = L.blockSize :=
  L.blockSize_eq s (mem_of_layerSpec h)

/-- In a layout of one element size, every region starts at a whole element. -/
theorem dvd_regionStart {d : ℕ} (hd : ∀ s ∈ L.layerSpecs, s.dtypeSize = d) (k : ℕ) :
    d ∣ L.regionStart k := by
  refine List.dvd_sum ?_
  intro n hn
  obtain ⟨s, hs, rfl⟩ := List.mem_map.1 hn
  rw [s.bytesPerBlock_eq, hd s (List.mem_of_mem_take hs)]
  exact Dvd.intro_left _ (by rw [Nat.mul_assoc])

/-! ### Addresses -/

/-- The distance of a plane from the start of its block, in elements. -/
def planeShift (s : KVCacheLayerSpec) : KVPlane → ℕ
  | .k => 0
  | .v => s.planeElements

/-- The position of a scalar in its plane. -/
def scalarIndex (s : KVCacheLayerSpec) (t h e : ℕ) : ℕ := (t * s.numKvHeads + h) * s.headSize + e

/-- The cell of a scalar in a buffer of whole elements, for a layer whose region starts at element
`base`. -/
def cellIndex (s : KVCacheLayerSpec) (base b t h e : ℕ) (p : KVPlane) : ℕ :=
  base + b * s.blockElements + planeShift s p + scalarIndex s t h e

theorem scalarIndex_lt {s : KVCacheLayerSpec} {t h e : ℕ} (ht : t < s.blockSize)
    (hh : h < s.numKvHeads) (he : e < s.headSize) : scalarIndex s t h e < s.planeElements := by
  have hle : (h + 1) * s.headSize ≤ s.numKvHeads * s.headSize := Nat.mul_le_mul_right _ hh
  have hle' : (t + 1) * s.elementsPerToken ≤ s.blockSize * s.elementsPerToken :=
    Nat.mul_le_mul_right _ ht
  have heq : (t * s.numKvHeads + h) * s.headSize = t * s.elementsPerToken + h * s.headSize := by
    rw [KVCacheLayerSpec.elementsPerToken]; ring
  have hept : s.elementsPerToken = s.numKvHeads * s.headSize := rfl
  rw [Nat.add_mul, Nat.one_mul] at hle hle'
  rw [scalarIndex, heq, KVCacheLayerSpec.planeElements]
  omega

/-- **The cells of a layer lie inside the buffer.** -/
theorem cell_lt_total {k : ℕ} {s : KVCacheLayerSpec} (hk : L.layerSpecs[k]? = some s)
    (hd : s.dtypeSize ∣ L.regionStart k) {b r : ℕ} (hb : b < L.numBlocks)
    (hr : r < s.planeElements) (p : KVPlane) :
    s.dtypeSize * (L.regionStart k / s.dtypeSize + b * s.blockElements + planeShift s p + r) <
      L.totalBytes := by
  have hle : (b + 1) * s.blockElements ≤ L.numBlocks * s.blockElements := Nat.mul_le_mul_right _ hb
  rw [Nat.add_mul, Nat.one_mul] at hle
  have hcell : L.regionStart k / s.dtypeSize + b * s.blockElements + planeShift s p + r <
      L.regionStart k / s.dtypeSize + L.numBlocks * s.blockElements := by
    cases p <;> simp only [planeShift, KVCacheLayerSpec.blockElements] at * <;> omega
  calc s.dtypeSize * (L.regionStart k / s.dtypeSize + b * s.blockElements + planeShift s p + r)
      < s.dtypeSize * (L.regionStart k / s.dtypeSize + L.numBlocks * s.blockElements) :=
        Nat.mul_lt_mul_of_pos_left hcell s.dtypeSize_pos
    _ = L.regionStart k + L.numBlocks * s.bytesPerBlock := by
        rw [Nat.mul_add, Nat.mul_div_cancel' hd, s.bytesPerBlock_eq]; ring
    _ ≤ L.totalBytes := region_le_total hk

theorem blockBaseOffset_eq {l : ℤ} {s : KVCacheLayerSpec} {base b : ℕ}
    (hs : L.layerSpec l = .ok s) (hbase : L.layerBaseOffset l = .ok base) (hb : b < L.numBlocks) :
    L.blockBaseOffset l b = .ok (base + b * s.bytesPerBlock) := by
  simp [blockBaseOffset, hs, hbase, hb, raiseIf, bind, Except.bind, pure, Except.pure]

theorem planeBaseOffset_eq {l : ℤ} {s : KVCacheLayerSpec} {base b : ℕ}
    (hs : L.layerSpec l = .ok s) (hbase : L.layerBaseOffset l = .ok base) (hb : b < L.numBlocks)
    (p : KVPlane) : L.planeBaseOffset l b p.name =
      .ok (base + b * s.bytesPerBlock + planeShift s p * s.dtypeSize) := by
  cases p <;>
    simp [planeBaseOffset, blockBaseOffset_eq hs hbase hb, hs, KVPlane.name, planeShift,
      s.planeBytesPerBlock_eq, bind, Except.bind, pure, Except.pure]

/-- **The closed form of a token's byte address.** -/
theorem tokenOffset_eq {l : ℤ} {s : KVCacheLayerSpec} {base b t h e : ℕ}
    (hs : L.layerSpec l = .ok s) (hbase : L.layerBaseOffset l = .ok base) (hb : b < L.numBlocks)
    (ht : t < s.blockSize) (hh : h < s.numKvHeads) (he : e < s.headSize) (p : KVPlane) :
    L.tokenOffset l b t h e p.name = .ok (base + b * s.bytesPerBlock +
      planeShift s p * s.dtypeSize + scalarIndex s t h e * s.dtypeSize) := by
  simp [tokenOffset, planeBaseOffset_eq hs hbase hb, hs, ht, hh, he, scalarIndex, raiseIf, bind,
    Except.bind, pure, Except.pure]

theorem tokenOffset_cell {l : ℤ} {s : KVCacheLayerSpec} {base b t h e : ℕ}
    (hs : L.layerSpec l = .ok s) (hbase : L.layerBaseOffset l = .ok base)
    (hd : s.dtypeSize ∣ base) (hb : b < L.numBlocks) (ht : t < s.blockSize)
    (hh : h < s.numKvHeads) (he : e < s.headSize) (p : KVPlane) :
    L.tokenOffset l b t h e p.name =
      .ok (s.dtypeSize * cellIndex s (base / s.dtypeSize) b t h e p) := by
  obtain ⟨c, rfl⟩ := hd
  rw [tokenOffset_eq hs hbase hb ht hh he, Nat.mul_div_cancel_left _ s.dtypeSize_pos, cellIndex,
    s.bytesPerBlock_eq]
  congr 1
  ring

/-- **The closed form of a slot's byte address**: `slot` is token `slot % block_size` of block
`slot / block_size`. -/
theorem slotOffset_cell {l : ℤ} {s : KVCacheLayerSpec} {base slot h e : ℕ}
    (hs : L.layerSpec l = .ok s) (hbase : L.layerBaseOffset l = .ok base)
    (hd : s.dtypeSize ∣ base) (hslot : slot < L.capacityTokensPerLayer)
    (hh : h < s.numKvHeads) (he : e < s.headSize) (p : KVPlane) :
    L.slotOffset l slot h e p.name = .ok (s.dtypeSize * cellIndex s (base / s.dtypeSize)
      (slot / s.blockSize) (slot % s.blockSize) h e p) := by
  have hbs := blockSize_of_layerSpec hs
  have hb : slot / s.blockSize < L.numBlocks := by
    rw [Nat.div_lt_iff_lt_mul s.blockSize_pos, hbs]; exact hslot
  have hnn : ¬ (slot : ℤ) < 0 := by omega
  rw [← tokenOffset_cell hs hbase hd hb (Nat.mod_lt _ s.blockSize_pos) hh he p, hbs]
  simp [slotOffset, raiseIf, hnn, bind, Except.bind]

/-- Two layers of two blocks of two tokens, four bytes per element. -/
def smallLayout : VulkanPagedKVLayout where
  layerSpecs := [⟨0, 1, 2, 2, 4, by decide, by decide, by decide, by decide⟩,
    ⟨1, 2, 1, 2, 4, by decide, by decide, by decide, by decide⟩]
  numBlocks := 2
  numBlocks_pos := by decide
  layerSpecs_ne := by decide
  layerIndex_eq := by decide
  blockSize_eq := by decide

end VulkanPagedKVLayout

end VllmVulkan
