import VllmVulkan.Kv.Partition
import VllmVulkan.Kv.Write
import VllmVulkan.Kv.Decode
import Mathlib.Algebra.Ring.Parity

/-!
# One address, three formulas

The address of a scalar is computed three times: by `token_offset` and `slot_offset` in bytes, from
the byte strides of `plane_strides_for_attn_load`, and by the shaders, in elements, from push
constants the host obtains by floor division.

* `planeStridesForAttnLoad` : the strides;
* `writeParams`, `decodeParams` : the push constants of a layer, as the shaders read them;
* `writeAddress`, `readAddress` : the cell the write shader stores to, and the one the decode
  shaders load from;
* `OneAddress` : the formulas agree on a scalar;
* `oneAddress_iff` : **the exact condition**: the region of the layer starts at a whole element;
* `mixedLayout_writes_elsewhere` : a layout whose second layer does not.
-/

namespace VllmVulkan

/-- `KVAttentionPlaneStrides`: the byte strides of a plane of a block. -/
structure KVAttentionPlaneStrides where
  baseOffset : ℕ
  tokenStride : ℕ
  kvHeadStride : ℕ
  headElementStride : ℕ
  deriving DecidableEq, Repr

namespace VulkanPagedKVLayout

/-- `plane_strides_for_attn_load`. -/
def planeStridesForAttnLoad (L : VulkanPagedKVLayout) (layerIndex physicalBlockId : ℤ)
    (plane : String) : Py KVAttentionPlaneStrides := do
  let spec ← L.layerSpec layerIndex
  let baseOffset ← L.planeBaseOffset layerIndex physicalBlockId plane
  return {
    baseOffset := baseOffset
    tokenStride := spec.bytesPerTokenPerPlane
    kvHeadStride := spec.headSize * spec.dtypeSize
    headElementStride := spec.dtypeSize }

/-! ### The shaders -/

variable {α F : Type}

/-- The push constants of a write into a layer that starts at byte `base`. -/
def writeParams (s : KVCacheLayerSpec) (base numTokens : ℕ) : KvWrite.Params where
  numTokens := numTokens
  numKvHeads := s.numKvHeads
  headSize := s.headSize
  blockSize := s.blockSize
  layerBaseElements := base / s.dtypeSize
  planeElementsPerBlock := s.planeBytesPerBlock / s.dtypeSize
  blockElements := s.bytesPerBlock / s.dtypeSize

theorem ofPc_pagedKvWritePc {s : KVCacheLayerSpec} {base numTokens : ℕ} {pc : List (PcWord α)}
    (h : KvOps.pagedKvWritePc s base numTokens = .ok pc) :
    KvWrite.Params.ofPc pc = writeParams s base numTokens := by
  obtain ⟨-, rfl⟩ := KvOps.structPack_eq_ok.1 h
  rfl

/-- The push constants of a decode on a layer that starts at byte `base`. -/
def decodeParams (s : KVCacheLayerSpec) (base seqLen numQHeads : ℕ) (scale : F) :
    Decode.Params F where
  seqLen := seqLen
  numQHeads := numQHeads
  numKvHeads := s.numKvHeads
  headSize := s.headSize
  blockSize := s.blockSize
  layerBaseElements := base / s.dtypeSize
  planeElementsPerBlock := s.planeBytesPerBlock / s.dtypeSize
  blockElements := s.bytesPerBlock / s.dtypeSize
  scale := scale

theorem ofPc_pagedAttnDecodePc [Field F] [Inhabited F] {s : KVCacheLayerSpec}
    {base seqLen numQHeads : ℕ} {scale : F} {pc : List (PcWord F)}
    (h : KvOps.pagedAttnDecodePc s base seqLen numQHeads scale = .ok pc) :
    Decode.Params.ofPc pc = decodeParams s base seqLen numQHeads scale := by
  obtain ⟨-, rfl⟩ := KvOps.structPack_eq_ok.1 h
  rfl

/-- The cell the write shader stores element `tokenElement` of the token in `slot` to: `dst` for K,
and `dst + plane_elements_per_block` for V. -/
def writeAddress (p : KvWrite.Params) (slot tokenElement : ℕ) : KVPlane → ℕ
  | .k => p.layerBaseElements + slot / p.blockSize * p.blockElements +
      (slot - slot / p.blockSize * p.blockSize) * (p.numKvHeads * p.headSize) + tokenElement
  | .v => p.layerBaseElements + slot / p.blockSize * p.blockElements +
      (slot - slot / p.blockSize * p.blockSize) * (p.numKvHeads * p.headSize) + tokenElement +
        p.planeElementsPerBlock

theorem main_eq_writeAddress (p : KvWrite.Params) (dataK dataV : ℕ → α) (slots : ℕ → ℕ) {i te : ℕ}
    (hi : i < p.numTokens) (hte : te < p.numKvHeads * p.headSize) :
    KvWrite.main p dataK dataV slots (i * (p.numKvHeads * p.headSize) + te) =
      [(writeAddress p (slots i) te .k, dataK (i * (p.numKvHeads * p.headSize) + te)),
        (writeAddress p (slots i) te .v, dataV (i * (p.numKvHeads * p.headSize) + te))] := by
  have hle : (i + 1) * (p.numKvHeads * p.headSize) ≤ p.numTokens * (p.numKvHeads * p.headSize) :=
    Nat.mul_le_mul_right _ hi
  rw [Nat.add_mul, Nat.one_mul] at hle
  have hlt :
      ¬ i * (p.numKvHeads * p.headSize) + te ≥ p.numTokens * (p.numKvHeads * p.headSize) := by
    omega
  have hdiv : (i * (p.numKvHeads * p.headSize) + te) / (p.numKvHeads * p.headSize) = i := by
    rw [Nat.add_comm, Nat.add_mul_div_right _ _ (by omega), Nat.div_eq_of_lt hte, Nat.zero_add]
  simp only [KvWrite.main, if_neg hlt, hdiv, Nat.add_sub_cancel_left]
  rfl

/-- The cell the decode shaders load element `e` of the token at `tokenIdx` from. -/
def readAddress (p : Decode.Params F) (blocks : ℕ → ℕ) (tokenIdx kvHead e : ℕ) : KVPlane → ℕ
  | .k => Decode.kvBaseForToken p blocks tokenIdx kvHead + e
  | .v => Decode.kvBaseForToken p blocks tokenIdx kvHead + p.planeElementsPerBlock + e

theorem scan_eq_readAddress [Field F] [LinearOrder F] (E : ExpFn F) (p : Decode.Params F)
    (q : ℕ → F) (blocks : ℕ → ℕ) (cache : ℕ → F) (qh e : ℕ) :
    Decode.scan E p q blocks cache qh e =
      (Softmax.Online.run E Decode.negFltMax
        (fun t => (∑ i ∈ Finset.range p.headSize, q (qh * p.headSize + i) *
          cache (readAddress p blocks t (qh / (p.numQHeads / p.numKvHeads)) i .k)) * p.scale)
        (fun t => cache (readAddress p blocks t (qh / (p.numQHeads / p.numKvHeads)) e .v))
        p.seqLen).result :=
  rfl

/-! ### The formulas -/

/-- The formulas agree on a scalar of layer `s`, whose region starts at byte `base`. -/
structure OneAddress (F : Type) (L : VulkanPagedKVLayout) (s : KVCacheLayerSpec) (base : ℕ)
    (c : Coord) : Prop where
  /-- The write shader, for a token in the slot of the scalar. -/
  write : ∀ numTokens, L.tokenOffset c.layer c.block c.token c.head c.element c.plane.name =
    .ok (s.dtypeSize * writeAddress (writeParams s base numTokens)
      (c.block * s.blockSize + c.token) (c.head * s.headSize + c.element) c.plane)
  /-- The decode shaders, for a token whose block the table maps to the block of the scalar. -/
  read : ∀ (seqLen numQHeads : ℕ) (scale : F) (blocks : ℕ → ℕ) (tokenIdx : ℕ),
    blocks (tokenIdx / s.blockSize) = c.block → tokenIdx % s.blockSize = c.token →
      L.tokenOffset c.layer c.block c.token c.head c.element c.plane.name =
        .ok (s.dtypeSize * readAddress (decodeParams s base seqLen numQHeads scale) blocks tokenIdx
          c.head c.element c.plane)
  /-- `slot_offset`. -/
  slot : L.slotOffset c.layer ((c.block * s.blockSize + c.token : ℕ) : ℤ) c.head c.element
      c.plane.name =
    L.tokenOffset c.layer c.block c.token c.head c.element c.plane.name
  /-- The strides. -/
  strides : ∃ st, L.planeStridesForAttnLoad c.layer c.block c.plane.name = .ok st ∧
    L.tokenOffset c.layer c.block c.token c.head c.element c.plane.name =
      .ok (st.baseOffset + c.token * st.tokenStride + c.head * st.kvHeadStride +
        c.element * st.headElementStride)

variable {L : VulkanPagedKVLayout} {s : KVCacheLayerSpec} {k : ℕ}

theorem writeAddress_eq {base numTokens b t h e : ℕ} (ht : t < s.blockSize) (p : KVPlane) :
    writeAddress (writeParams s base numTokens) (b * s.blockSize + t) (h * s.headSize + e) p =
      cellIndex s (base / s.dtypeSize) b t h e p := by
  have hdiv : (b * s.blockSize + t) / s.blockSize = b := by
    rw [Nat.add_comm, Nat.add_mul_div_right _ _ s.blockSize_pos, Nat.div_eq_of_lt ht, Nat.zero_add]
  cases p <;>
    simp only [writeAddress, writeParams, hdiv, Nat.add_sub_cancel_left, cellIndex, planeShift,
      scalarIndex, s.planeBytesPerBlock_div, s.bytesPerBlock_div] <;>
    ring

theorem readAddress_eq {base seqLen numQHeads b t h e tokenIdx : ℕ} {scale : F} {blocks : ℕ → ℕ}
    (hb : blocks (tokenIdx / s.blockSize) = b) (ht : tokenIdx % s.blockSize = t) (p : KVPlane) :
    readAddress (decodeParams s base seqLen numQHeads scale) blocks tokenIdx h e p =
      cellIndex s (base / s.dtypeSize) b t h e p := by
  have hmod : tokenIdx - tokenIdx / s.blockSize * s.blockSize = t := by
    have := Nat.div_add_mod tokenIdx s.blockSize
    rw [Nat.mul_comm] at this
    omega
  cases p <;>
    simp only [readAddress, Decode.kvBaseForToken, decodeParams, hb, hmod, cellIndex, planeShift,
      scalarIndex, s.planeBytesPerBlock_div, s.bytesPerBlock_div] <;>
    ring

/-- `slot_offset` is `token_offset` of the token in the slot. -/
theorem slotOffset_eq_tokenOffset (hs : L.layerSpec k = .ok s) {b t h e : ℕ} (ht : t < s.blockSize)
    (plane : String) : L.slotOffset k ((b * s.blockSize + t : ℕ) : ℤ) h e plane =
      L.tokenOffset k b t h e plane := by
  have hbs := blockSize_of_layerSpec hs
  have hnn : ¬ ((b * s.blockSize + t : ℕ) : ℤ) < 0 := by omega
  have hdiv : (b * s.blockSize + t) / s.blockSize = b := by
    rw [Nat.add_comm, Nat.add_mul_div_right _ _ s.blockSize_pos, Nat.div_eq_of_lt ht, Nat.zero_add]
  have hmod : (b * s.blockSize + t) % s.blockSize = t := by
    rw [Nat.add_comm, Nat.add_mul_mod_self_right, Nat.mod_eq_of_lt ht]
  simp only [slotOffset, raiseIf, hnn, if_false, ← hbs, ← Int.natCast_ediv, ← Int.natCast_emod,
    hdiv, hmod, bind, Except.bind]

theorem planeStridesForAttnLoad_eq {base b : ℕ} (hs : L.layerSpec k = .ok s)
    (hbase : L.layerBaseOffset k = .ok base) (hb : b < L.numBlocks) (p : KVPlane) :
    L.planeStridesForAttnLoad k b p.name = .ok {
      baseOffset := base + b * s.bytesPerBlock + planeShift s p * s.dtypeSize
      tokenStride := s.bytesPerTokenPerPlane
      kvHeadStride := s.headSize * s.dtypeSize
      headElementStride := s.dtypeSize } := by
  simp [planeStridesForAttnLoad, hs, planeBaseOffset_eq hs hbase hb, bind, Except.bind, pure,
    Except.pure]

/-- When the region of a layer starts at a whole element, the formulas agree on all its scalars. -/
theorem oneAddress_of_dvd {c : Coord} (hc : c.Valid L) (hs : L.layerSpecs[c.layer]? = some s)
    (hd : s.dtypeSize ∣ L.regionStart c.layer) :
    OneAddress F L s (L.regionStart c.layer) c := by
  have hspec := layerSpec_natCast.2 hs
  have hbase := layerBaseOffset_natCast hs
  obtain ⟨s', hs', hb, ht, hh, he⟩ := hc
  obtain rfl := Except.ok.inj (hspec.symm.trans hs')
  have hcell := tokenOffset_cell hspec hbase hd hb ht hh he c.plane
  constructor
  · intro numTokens
    rw [hcell, writeAddress_eq ht]
  · intro seqLen numQHeads scale blocks tokenIdx hblock htoken
    rw [hcell, readAddress_eq hblock htoken]
  · exact slotOffset_eq_tokenOffset hspec ht _
  · refine ⟨_, planeStridesForAttnLoad_eq hspec hbase hb c.plane, ?_⟩
    rw [tokenOffset_eq hspec hbase hb ht hh he]
    simp only [scalarIndex, KVCacheLayerSpec.bytesPerTokenPerPlane,
      KVCacheLayerSpec.elementsPerToken]
    congr 1
    ring

/-- The first scalar of a layer. -/
def firstCoord (k : ℕ) : Coord := ⟨k, 0, 0, 0, 0, .k⟩

theorem firstCoord_valid (hs : L.layerSpecs[k]? = some s) : (firstCoord k).Valid L :=
  ⟨s, layerSpec_natCast.2 hs, L.numBlocks_pos, s.blockSize_pos, s.numKvHeads_pos, s.headSize_pos⟩

/-- If the shaders address the first scalar of a layer, its region starts at a whole element. -/
theorem dvd_of_oneAddress (hs : L.layerSpecs[k]? = some s)
    (h : OneAddress F L s (L.regionStart k) (firstCoord k)) : s.dtypeSize ∣ L.regionStart k := by
  have hoff := tokenOffset_eq (layerSpec_natCast.2 hs) (layerBaseOffset_natCast hs)
    L.numBlocks_pos s.blockSize_pos s.numKvHeads_pos s.headSize_pos .k
  have hwrite := Except.ok.inj (hoff.symm.trans (h.write 1))
  simp only [firstCoord] at hwrite
  rw [writeAddress_eq s.blockSize_pos] at hwrite
  simp only [cellIndex, planeShift, scalarIndex, Nat.zero_mul, Nat.add_zero] at hwrite
  exact Dvd.intro _ hwrite.symm

/-! ### The condition -/

/-- The layers before layer `k` whose K planes hold an odd number of bytes in total. -/
def oddLayersBefore (L : VulkanPagedKVLayout) (k : ℕ) : ℕ :=
  (L.layerSpecs.take k).countP fun s => L.numBlocks * s.planeBytesPerBlock % 2 = 1

theorem regionStart_eq (k : ℕ) : L.regionStart k =
    2 * ((L.layerSpecs.take k).map fun s => L.numBlocks * s.planeBytesPerBlock).sum := by
  rw [regionStart, ← List.sum_map_mul_left]
  congr 1
  refine List.map_congr_left ?_
  intro s _
  rw [KVCacheLayerSpec.bytesPerBlock]
  ring

theorem even_sum_iff (xs : List KVCacheLayerSpec) (f : KVCacheLayerSpec → ℕ) :
    Even (xs.map f).sum ↔ Even (xs.countP fun s => f s % 2 = 1) := by
  induction xs with
  | nil => simp
  | cons x xs ih =>
    rw [List.map_cons, List.sum_cons, Nat.even_add, ih, List.countP_cons, Nat.even_add]
    have hx : Even (f x) ↔ Even (if decide (f x % 2 = 1) = true then 1 else 0) := by
      rw [Nat.even_iff]
      split_ifs with h
      · rw [decide_eq_true_eq] at h
        simp [h]
      · rw [decide_eq_true_eq] at h
        have heven : f x % 2 = 0 := by omega
        simp [heven]
    rw [hx]
    exact ⟨Iff.symm, Iff.symm⟩

/-- A layer of two- or four-byte elements starts at a whole element exactly when its elements have
two bytes, or an even number of the layers before it have an odd plane. -/
theorem dvd_regionStart_iff (hd : s.dtypeSize = 2 ∨ s.dtypeSize = 4) :
    s.dtypeSize ∣ L.regionStart k ↔ s.dtypeSize = 2 ∨ Even (L.oddLayersBefore k) := by
  rw [oddLayersBefore, ← even_sum_iff, regionStart_eq]
  obtain hd | hd := hd
  · rw [hd]
    exact ⟨fun _ => .inl rfl, fun _ => Dvd.intro _ rfl⟩
  · rw [hd, even_iff_two_dvd]
    have hfour : (4 : ℕ) = 2 * 2 := rfl
    rw [hfour, Nat.mul_dvd_mul_iff_left (by decide)]
    omega

/-- **One address, three formulas.**  On a layer of two- or four-byte elements the formulas agree on
every scalar exactly when its elements have two bytes, or an even number of the layers before it
have an odd number of bytes in their K planes. -/
theorem oneAddress_iff (F : Type) (L : VulkanPagedKVLayout) (s : KVCacheLayerSpec) (k : ℕ)
    (hs : L.layerSpecs[k]? = some s) (hd : s.dtypeSize = 2 ∨ s.dtypeSize = 4) :
    (∀ c : Coord, c.Valid L → c.layer = k → OneAddress F L s (L.regionStart k) c) ↔
      s.dtypeSize = 2 ∨ Even (L.oddLayersBefore k) := by
  rw [← dvd_regionStart_iff hd]
  constructor
  · intro h
    exact dvd_of_oneAddress hs (h (firstCoord k) (firstCoord_valid hs) rfl)
  · rintro hdvd c hc rfl
    exact oneAddress_of_dvd hc hs hdvd

/-- The second layer of the small layout: the layer before it has a plane of 32 bytes. -/
theorem oneAddress_iff_smallLayout :
    (∀ c : Coord, c.Valid smallLayout → c.layer = 1 → OneAddress ℚ smallLayout
      (smallLayout.specAt 1) (smallLayout.regionStart 1) c) ∧
    Even (smallLayout.oddLayersBefore 1) := by
  have heven : Even (smallLayout.oddLayersBefore 1) := by decide
  exact ⟨(oneAddress_iff ℚ smallLayout (smallLayout.specAt 1) 1 rfl (.inr rfl)).2 (.inr heven),
    heven⟩

/-- A layer of one scalar per plane and one byte per scalar, before one of four bytes per scalar. -/
def mixedLayout : VulkanPagedKVLayout where
  layerSpecs := [⟨0, 1, 1, 1, 1, Nat.one_pos, Nat.one_pos, Nat.one_pos, Nat.one_pos⟩,
    ⟨1, 1, 1, 1, 4, Nat.one_pos, Nat.one_pos, Nat.one_pos, KVCacheLayerSpec.four_pos⟩]
  numBlocks := 1
  numBlocks_pos := Nat.one_pos
  layerSpecs_ne := by decide
  layerIndex_eq := by decide
  blockSize_eq := by decide

/-- The first scalar of the second layer is at byte 2, and the write shader stores it to cell 0. -/
theorem mixedLayout_writes_elsewhere :
    (firstCoord 1).Valid mixedLayout ∧ (mixedLayout.specAt 1).dtypeSize = 4 ∧
      mixedLayout.tokenOffset 1 0 0 0 0 "k" = .ok 2 ∧
      writeAddress (writeParams (mixedLayout.specAt 1) (mixedLayout.regionStart 1) 1) 0 0 .k = 0 ∧
      ¬ OneAddress ℚ mixedLayout (mixedLayout.specAt 1) (mixedLayout.regionStart 1)
        (firstCoord 1) := by
  refine ⟨firstCoord_valid rfl, rfl, rfl, rfl, fun h => ?_⟩
  have hdvd := dvd_of_oneAddress rfl h
  exact absurd hdvd (by decide)

end VulkanPagedKVLayout

end VllmVulkan
