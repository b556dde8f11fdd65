import VllmVulkan.Kv.Layout
import VllmVulkan.Lib.Tiling
import Mathlib.Data.Set.Lattice
import Mathlib.Data.Set.Pairwise.Basic
import Mathlib.Order.CompletePartialOrder

/-!
# The layout is a partition of the buffer

Every scalar of the cache has a byte range, `dtype_size` bytes from its `token_offset` on.  The
ranges of a layout tile its buffer: the layers tile the buffer, the blocks tile a layer, the planes
a block, the tokens a plane, the heads a token and the elements a head.

* `Coord`, `Coord.Valid` : the coordinates of a scalar;
* `byteRange` : the bytes of a scalar, by `token_offset`;
* `tiles_scalars` : the six levels composed;
* `layout_partition` : **the ranges are disjoint and their union is the buffer**.
-/

namespace VllmVulkan

namespace VulkanPagedKVLayout

open Tiling Set

/-- The coordinates of a scalar. -/
structure Coord where
  layer : ℕ
  block : ℕ
  token : ℕ
  head : ℕ
  element : ℕ
  plane : KVPlane
  deriving DecidableEq, Repr

variable (L : VulkanPagedKVLayout)

/-- The scalar exists. -/
def Coord.Valid (c : Coord) : Prop :=
  ∃ s, L.layerSpec c.layer = .ok s ∧ c.block < L.numBlocks ∧ c.token < s.blockSize ∧
    c.head < s.numKvHeads ∧ c.element < s.headSize

/-- The bytes of a scalar: `dtype_size` bytes from its `token_offset` on. -/
def byteRange (c : Coord) : Set ℕ :=
  {x | ∃ s offset, L.layerSpec c.layer = .ok s ∧
    L.tokenOffset c.layer c.block c.token c.head c.element c.plane.name = .ok offset ∧
      offset ≤ x ∧ x < offset + s.dtypeSize}

/-! ### The six levels -/

theorem tiles_planes (s : KVCacheLayerSpec) (lo : ℕ) :
    Tiles (fun _ : KVPlane => True) (fun p => lo + planeShift s p * s.dtypeSize)
      (fun _ => s.planeBytesPerBlock) lo s.bytesPerBlock := by
  have hbytes : s.bytesPerBlock = 2 * s.planeBytesPerBlock := rfl
  have hv : planeShift s .v * s.dtypeSize = s.planeBytesPerBlock := s.planeBytesPerBlock_eq.symm
  have hk : planeShift s .k * s.dtypeSize = 0 := Nat.zero_mul _
  constructor
  · intro x
    constructor
    · rintro ⟨p, -, hle, hlt⟩
      cases p
      · rw [hk] at hle hlt
        exact ⟨by omega, by omega⟩
      · rw [hv] at hle hlt
        exact ⟨by omega, by omega⟩
    · rintro ⟨hle, hlt⟩
      by_cases hx : x < lo + s.planeBytesPerBlock
      · exact ⟨.k, trivial, by rw [hk]; exact hle, by rw [hk]; exact hx⟩
      · exact ⟨.v, trivial, by rw [hv]; omega, by rw [hv]; omega⟩
  · rintro p p' x - - ⟨hle, hlt⟩ ⟨hle', hlt'⟩
    cases p <;> cases p'
    · rfl
    · rw [hk] at hlt
      rw [hv] at hle'
      omega
    · rw [hv] at hle
      rw [hk] at hlt'
      omega
    · rfl

theorem tiles_plane (s : KVCacheLayerSpec) (lo : ℕ) :
    Tiles (fun c : (ℕ × ℕ) × ℕ => (c.1.1 < s.blockSize ∧ c.1.2 < s.numKvHeads) ∧ c.2 < s.headSize)
      (fun c => lo + scalarIndex s c.1.1 c.1.2 c.2 * s.dtypeSize) (fun _ => s.dtypeSize) lo
      s.planeBytesPerBlock := by
  have htokens := tiles_stride s.blockSize s.bytesPerTokenPerPlane lo
  have hheads : ∀ t, t < s.blockSize → Tiles (fun h => h < s.numKvHeads)
      (fun h => lo + t * s.bytesPerTokenPerPlane + h * (s.headSize * s.dtypeSize))
      (fun _ => s.headSize * s.dtypeSize) (lo + t * s.bytesPerTokenPerPlane)
      s.bytesPerTokenPerPlane := by
    intro t _
    refine (tiles_stride s.numKvHeads (s.headSize * s.dtypeSize) _).congr (fun _ => Iff.rfl)
      (fun _ _ => rfl) (fun _ _ => rfl) ?_
    rw [KVCacheLayerSpec.bytesPerTokenPerPlane, KVCacheLayerSpec.elementsPerToken, Nat.mul_assoc]
  refine ((htokens.nest hheads).nest fun c _ => tiles_stride s.headSize s.dtypeSize _).congr
    (fun _ => Iff.rfl) (fun c _ => ?_) (fun _ _ => rfl) rfl
  simp only [scalarIndex, KVCacheLayerSpec.bytesPerTokenPerPlane, KVCacheLayerSpec.elementsPerToken]
  ring

theorem tiles_layer (s : KVCacheLayerSpec) (numBlocks lo : ℕ) :
    Tiles (fun c : (ℕ × KVPlane) × (ℕ × ℕ) × ℕ => (c.1.1 < numBlocks ∧ True) ∧
        (c.2.1.1 < s.blockSize ∧ c.2.1.2 < s.numKvHeads) ∧ c.2.2 < s.headSize)
      (fun c => lo + c.1.1 * s.bytesPerBlock + planeShift s c.1.2 * s.dtypeSize +
        scalarIndex s c.2.1.1 c.2.1.2 c.2.2 * s.dtypeSize) (fun _ => s.dtypeSize) lo
      (numBlocks * s.bytesPerBlock) :=
  ((tiles_stride numBlocks s.bytesPerBlock lo).nest fun _ _ => tiles_planes s _).nest
    fun _ _ => tiles_plane s _

/-- The layer of the given position, or the first one. -/
def specAt (k : ℕ) : KVCacheLayerSpec := L.layerSpecs.getD k (L.layerSpecs.head L.layerSpecs_ne)

variable {L}

theorem specAt_of_getElem? {k : ℕ} {s : KVCacheLayerSpec} (h : L.layerSpecs[k]? = some s) :
    L.specAt k = s := by
  rw [specAt, List.getD_eq_getElem?_getD, h, Option.getD_some]

theorem getElem?_specAt {k : ℕ} (h : k < L.layerSpecs.length) :
    L.layerSpecs[k]? = some (L.specAt k) := by
  rw [specAt, List.getD_eq_getElem?_getD, List.getElem?_eq_getElem h, Option.getD_some]

theorem tiles_layers : Tiles (fun k => k < L.layerSpecs.length) L.regionStart
    (fun k => L.numBlocks * (L.specAt k).bytesPerBlock) 0 L.totalBytes := by
  refine (tiles_sums (L.layerSpecs.map fun s => L.numBlocks * s.bytesPerBlock) 0).congr
    (fun k => by rw [List.length_map]) (fun k _ => ?_) (fun k hk => ?_) ?_
  · rw [Nat.zero_add, ← List.map_take, regionStart]
  · rw [List.length_map] at hk
    rw [List.getD_eq_getElem?_getD, List.getElem?_map, getElem?_specAt hk, Option.map_some,
      Option.getD_some]
  · rw [totalBytes, offsetsFrom_snd, Nat.zero_add]

/-! ### The scalars -/

/-- The coordinates, level by level. -/
def levels : Coord ≃ ℕ × (ℕ × KVPlane) × (ℕ × ℕ) × ℕ where
  toFun c := (c.layer, (c.block, c.plane), (c.token, c.head), c.element)
  invFun c := ⟨c.1, c.2.1.1, c.2.2.1.1, c.2.2.1.2, c.2.2.2, c.2.1.2⟩
  left_inv _ := rfl
  right_inv _ := rfl

variable (L)

/-- The first byte of a scalar. -/
def firstByte (c : Coord) : ℕ :=
  L.regionStart c.layer + c.block * (L.specAt c.layer).bytesPerBlock +
    planeShift (L.specAt c.layer) c.plane * (L.specAt c.layer).dtypeSize +
      scalarIndex (L.specAt c.layer) c.token c.head c.element * (L.specAt c.layer).dtypeSize

variable {L}

theorem valid_iff {c : Coord} : c.Valid L ↔ c.layer < L.layerSpecs.length ∧
    (c.block < L.numBlocks ∧ True) ∧ (c.token < (L.specAt c.layer).blockSize ∧
      c.head < (L.specAt c.layer).numKvHeads) ∧ c.element < (L.specAt c.layer).headSize := by
  constructor
  · rintro ⟨s, hs, hb, ht, hh, he⟩
    have hs := layerSpec_natCast.1 hs
    rw [specAt_of_getElem? hs]
    exact ⟨(List.getElem?_eq_some_iff.1 hs).1, ⟨hb, trivial⟩, ⟨ht, hh⟩, he⟩
  · rintro ⟨hk, ⟨hb, -⟩, ⟨ht, hh⟩, he⟩
    exact ⟨_, layerSpec_natCast.2 (getElem?_specAt hk), hb, ht, hh, he⟩

/-- **The six levels composed.** -/
theorem tiles_scalars : Tiles (Coord.Valid L) L.firstByte (fun c => (L.specAt c.layer).dtypeSize) 0
    L.totalBytes := by
  have hlayers : Tiles (fun k => k < L.layerSpecs.length) L.regionStart
    (fun k => L.numBlocks * (L.specAt k).bytesPerBlock) 0 L.totalBytes := tiles_layers
  exact ((hlayers.nest fun k _ => tiles_layer (L.specAt k) L.numBlocks (L.regionStart k)).reindex
    levels).congr (fun _ => valid_iff) (fun _ _ => rfl) (fun _ _ => rfl) rfl

/-- The bytes of a scalar that exists start at its `token_offset`. -/
theorem byteRange_eq {c : Coord} (h : c.Valid L) :
    L.byteRange c = Ico (L.firstByte c) (L.firstByte c + (L.specAt c.layer).dtypeSize) := by
  obtain ⟨s, hs, hb, ht, hh, he⟩ := h
  have hk := layerSpec_natCast.1 hs
  have hoff := tokenOffset_eq hs (layerBaseOffset_natCast hk) hb ht hh he c.plane
  ext x
  rw [firstByte, specAt_of_getElem? hk, mem_Ico]
  constructor
  · rintro ⟨s', offset, hs', hoff', hle, hlt⟩
    obtain rfl := Except.ok.inj (hs.symm.trans hs')
    obtain rfl := Except.ok.inj (hoff.symm.trans hoff')
    exact ⟨hle, hlt⟩
  · rintro ⟨hle, hlt⟩
    exact ⟨s, _, hs, hoff, hle, hlt⟩

/-- **The layout is a partition of the buffer.**  The byte ranges of different scalars are disjoint,
and together they are `[0, total_bytes)`. -/
theorem layout_partition (L : VulkanPagedKVLayout) :
    {c : Coord | c.Valid L}.PairwiseDisjoint L.byteRange ∧
      ⋃ c ∈ {c : Coord | c.Valid L}, L.byteRange c = Ico 0 L.totalBytes := by
  have ht : Tiles (Coord.Valid L) L.firstByte (fun c => (L.specAt c.layer).dtypeSize) 0
    L.totalBytes := tiles_scalars
  constructor
  · intro c hc c' hc' hne
    refine disjoint_left.2 fun x hx hx' => hne ?_
    rw [byteRange_eq hc] at hx
    rw [byteRange_eq hc'] at hx'
    exact ht.unique c c' x hc hc' hx hx'
  · ext x
    have hx := ht.cover x
    rw [Nat.zero_add] at hx
    rw [mem_iUnion₂, ← hx]
    constructor
    · rintro ⟨c, hc, hxc⟩
      exact ⟨c, hc, by rwa [byteRange_eq hc] at hxc⟩
    · rintro ⟨c, hc, hxc⟩
      exact ⟨c, hc, by rwa [byteRange_eq hc]⟩

end VulkanPagedKVLayout

end VllmVulkan
