import VllmVulkan.Lib.Dispatch
import VllmVulkan.Kv.Ops
import Mathlib.Data.List.ProdSigma

/-!
# The paged KV write

The shader `paged_kv_write_f32.comp` (and `_f16`, the same program on half-precision elements)
scatters the new tokens of a step into the paged cache: one invocation per element, two stores
each.  Index arithmetic is exact.

* `KvWrite.main` : one invocation, as the list of its stores;
* `KvWrite.stores` : all the stores of an op built by `buildPagedKvWriteOp`;
* `KvWrite.slotCell` : the cell of element `te` of the token in a slot, in a plane;
* `KvWrite.slotCell_inj` : slots, elements and planes never share a cell;
* `KvWrite.stores_eq` : the rounded-up dispatch stores exactly the elements of every token;
* `KvWrite.pagedKvWrite_correct` : **the write puts every element at its slot offset, touches
  nothing else, and may be split over the tokens in any way**.
-/

namespace VllmVulkan

namespace KvWrite

open Store VulkanPagedKVLayout

variable {α : Type}

/-! ### The shader -/

/-- The push-constant block. -/
structure Params where
  numTokens : ℕ
  numKvHeads : ℕ
  headSize : ℕ
  blockSize : ℕ
  layerBaseElements : ℕ
  planeElementsPerBlock : ℕ
  blockElements : ℕ

/-- The block as the shader reads it from the packed words. -/
def Params.ofPc (pc : List (PcWord α)) : Params where
  numTokens := PcWord.u32At pc 0
  numKvHeads := PcWord.u32At pc 1
  headSize := PcWord.u32At pc 2
  blockSize := PcWord.u32At pc 3
  layerBaseElements := PcWord.u32At pc 4
  planeElementsPerBlock := PcWord.u32At pc 5
  blockElements := PcWord.u32At pc 6

/-- `main`: the stores of the invocation `globalIdx` into the cache. -/
def main (p : Params) (dataK dataV : ℕ → α) (slots : ℕ → ℕ) (globalIdx : ℕ) : List (ℕ × α) :=
  let elementsPerToken := p.numKvHeads * p.headSize
  let totalElements := p.numTokens * elementsPerToken
  if globalIdx ≥ totalElements then [] else
  let tokenIdx := globalIdx / elementsPerToken
  let tokenElement := globalIdx - tokenIdx * elementsPerToken
  let slot := slots tokenIdx
  let physicalBlockId := slot / p.blockSize
  let tokenOffsetInBlock := slot - physicalBlockId * p.blockSize
  let blockBase := p.layerBaseElements + physicalBlockId * p.blockElements
  let dst := blockBase + tokenOffsetInBlock * elementsPerToken + tokenElement
  [(dst, dataK globalIdx), (dst + p.planeElementsPerBlock, dataV globalIdx)]

/-- The stores of a dispatched write op, in the order of its invocations. -/
def stores [Inhabited α] (op : Op α) : List (ℕ × α) :=
  match op.inputs with
  | [.elems k, .elems v, .words slots, .tensor _] =>
    (globalIds op.workgroups 256).flatMap
      (main (Params.ofPc op.pc) (view k) (view v) (view slots))
  | _ => []

/-! ### Cells -/

/-- The cell of element `te` of the token in `slot`, in plane `p`, for a layer whose region starts
at element `base`. -/
def slotCell (s : KVCacheLayerSpec) (base slot te : ℕ) (p : KVPlane) : ℕ :=
  base + slot / s.blockSize * s.blockElements + planeShift s p +
    (slot % s.blockSize * s.elementsPerToken + te)

theorem cellIndex_eq_slotCell (s : KVCacheLayerSpec) (base slot h e : ℕ) (p : KVPlane) :
    cellIndex s base (slot / s.blockSize) (slot % s.blockSize) h e p =
      slotCell s base slot (h * s.headSize + e) p := by
  simp only [cellIndex, slotCell, scalarIndex, KVCacheLayerSpec.elementsPerToken]
  ring

theorem slot_lt_plane (s : KVCacheLayerSpec) (slot : ℕ) {te : ℕ} (ht : te < s.elementsPerToken) :
    slot % s.blockSize * s.elementsPerToken + te < s.planeElements := by
  have hmod := Nat.mod_lt slot s.blockSize_pos
  have hle : (slot % s.blockSize + 1) * s.elementsPerToken ≤ s.planeElements :=
    Nat.mul_le_mul_right _ hmod
  rw [Nat.add_mul, Nat.one_mul] at hle
  omega

theorem slotOffset_slotCell {L : VulkanPagedKVLayout} {l : ℤ} {s : KVCacheLayerSpec}
    {base slot h e : ℕ} (hs : L.layerSpec l = .ok s) (hbase : L.layerBaseOffset l = .ok base)
    (hd : s.dtypeSize ∣ base) (hslot : slot < L.capacityTokensPerLayer)
    (hh : h < s.numKvHeads) (he : e < s.headSize) (p : KVPlane) :
    L.slotOffset l slot h e p.name = .ok (s.dtypeSize *
      slotCell s (base / s.dtypeSize) slot (h * s.headSize + e) p) := by
  rw [slotOffset_cell hs hbase hd hslot hh he, cellIndex_eq_slotCell]

/-- The elements of a token: head `h`, element `e`. -/
theorem headElement_lt {s : KVCacheLayerSpec} {h e : ℕ} (hh : h < s.numKvHeads)
    (he : e < s.headSize) : h * s.headSize + e < s.elementsPerToken := by
  have hle : (h + 1) * s.headSize ≤ s.numKvHeads * s.headSize := Nat.mul_le_mul_right _ hh
  rw [Nat.add_mul, Nat.one_mul] at hle
  unfold KVCacheLayerSpec.elementsPerToken
  omega

/-- An element of a `[T, H, D]` tensor, as the shader indexes it. -/
theorem get?_eq_view [Inhabited α] {s : KVCacheLayerSpec} {t : Tensor α} {T i h e : ℕ}
    (ht : t.shape = [T, s.numKvHeads, s.headSize]) (hi : i < T) (hh : h < s.numKvHeads)
    (he : e < s.headSize) : t.get? [i, h, e] =
      some (view t.data (i * s.elementsPerToken + (h * s.headSize + e))) := by
  have hflat : Tensor.flatIndex t.shape [i, h, e] =
      i * s.elementsPerToken + (h * s.headSize + e) := by
    simp only [ht, Tensor.flatIndex, KVCacheLayerSpec.elementsPerToken, List.zip_cons_cons,
      List.zip_nil_right, List.foldl_cons, List.foldl_nil]
    ring
  have hlen : t.data.length = T * s.elementsPerToken := by
    simp [t.length_data, ht, KVCacheLayerSpec.elementsPerToken]
  have hle : (i + 1) * s.elementsPerToken ≤ T * s.elementsPerToken := Nat.mul_le_mul_right _ hi
  have hlt := headElement_lt hh he
  rw [Nat.add_mul, Nat.one_mul] at hle
  rw [Tensor.get?, hflat]
  exact view_eq (by omega)

/-- **Slots, elements and planes never share a cell.** -/
theorem slotCell_inj {s : KVCacheLayerSpec} {base slot slot' te te' : ℕ} {p p' : KVPlane}
    (ht : te < s.elementsPerToken) (ht' : te' < s.elementsPerToken)
    (h : slotCell s base slot te p = slotCell s base slot' te' p') :
    slot = slot' ∧ te = te' ∧ p = p' := by
  have hb := slot_lt_plane s slot ht
  have hb' := slot_lt_plane s slot' ht'
  have hblock : slot / s.blockSize * s.blockElements + (planeShift s p +
      (slot % s.blockSize * s.elementsPerToken + te)) = slot' / s.blockSize * s.blockElements +
        (planeShift s p' + (slot' % s.blockSize * s.elementsPerToken + te')) := by
    unfold slotCell at h
    omega
  have hp :
      ∀ {q : KVPlane} {n : ℕ}, n < s.planeElements → planeShift s q + n < s.blockElements := by
    intro q n hn
    cases q <;> simp only [planeShift, KVCacheLayerSpec.blockElements] <;> omega
  obtain ⟨hdiv, hrest⟩ := mul_add_inj (hp hb) (hp hb') hblock
  have hplane : p = p' ∧ slot % s.blockSize * s.elementsPerToken + te =
      slot' % s.blockSize * s.elementsPerToken + te' := by
    cases p <;> cases p' <;> simp only [planeShift] at hrest <;> first
      | exact ⟨rfl, by omega⟩
      | omega
  obtain ⟨hmod, hte⟩ := mul_add_inj ht ht' hplane.2
  refine ⟨?_, hte, hplane.1⟩
  rw [← Nat.div_add_mod slot s.blockSize, ← Nat.div_add_mod slot' s.blockSize, hdiv, hmod]

/-- **The cells of a layer lie inside the buffer.** -/
theorem slotCell_lt_total {L : VulkanPagedKVLayout} {l : ℤ} {s : KVCacheLayerSpec} {k : ℕ}
    (hs : L.layerSpec l = .ok s) (hk : L.layerSpecs[k]? = some s)
    (hd : s.dtypeSize ∣ L.regionStart k) {slot te : ℕ} (hslot : slot < L.capacityTokensPerLayer)
    (ht : te < s.elementsPerToken) (p : KVPlane) :
    s.dtypeSize * slotCell s (L.regionStart k / s.dtypeSize) slot te p < L.totalBytes := by
  have hdiv : slot / s.blockSize < L.numBlocks := by
    rw [Nat.div_lt_iff_lt_mul s.blockSize_pos, blockSize_of_layerSpec hs]; exact hslot
  exact cell_lt_total hk hd hdiv (slot_lt_plane s slot ht) p

/-! ### The stores of an accepted op -/

/-- The elements of one token, in both planes. -/
def tokenElements (s : KVCacheLayerSpec) : List (ℕ × KVPlane) :=
  List.range s.elementsPerToken ×ˢ [KVPlane.k, KVPlane.v]

/-- The stores of the token in `slot`, whose elements are `x`. -/
def tokenStores (s : KVCacheLayerSpec) (base slot : ℕ) (x : ℕ → KVPlane → α) : List (ℕ × α) :=
  (tokenElements s).map fun ep => (slotCell s base slot ep.1 ep.2, x ep.1 ep.2)

/-- The tensor a plane is filled from. -/
def planeData (k v : Tensor α) : KVPlane → Tensor α
  | .k => k
  | .v => v

/-- An invocation inside the work stores element `te` of token `i` in both planes. -/
theorem main_eq {T : ℕ} {s : KVCacheLayerSpec} {base i te : ℕ} (hi : i < T)
    (ht : te < s.elementsPerToken) (dataK dataV : ℕ → α) (slots : ℕ → ℕ) :
    main ⟨T, s.numKvHeads, s.headSize, s.blockSize, base, s.planeElements, s.blockElements⟩
        dataK dataV slots (i * s.elementsPerToken + te) =
      [(slotCell s base (slots i) te .k, dataK (i * s.elementsPerToken + te)),
        (slotCell s base (slots i) te .v, dataV (i * s.elementsPerToken + te))] := by
  have hept : s.numKvHeads * s.headSize = s.elementsPerToken := rfl
  have hlt : ¬ i * s.elementsPerToken + te ≥ T * s.elementsPerToken := by
    have hle : (i + 1) * s.elementsPerToken ≤ T * s.elementsPerToken := Nat.mul_le_mul_right _ hi
    rw [Nat.add_mul, Nat.one_mul] at hle
    omega
  have hdiv : (i * s.elementsPerToken + te) / s.elementsPerToken = i := by
    rw [Nat.add_comm, Nat.add_mul_div_right _ _ s.elementsPerToken_pos, Nat.div_eq_of_lt ht,
      Nat.zero_add]
  have hmod : slots i - slots i / s.blockSize * s.blockSize = slots i % s.blockSize := by
    rw [Nat.mod_eq_sub_div_mul]
  simp only [main, hept, if_neg hlt, hdiv, hmod, Nat.add_sub_cancel_left, slotCell, planeShift,
    List.cons.injEq, Prod.mk.injEq, and_true]
  exact ⟨by omega, by omega⟩

/-- **The dispatch of an accepted write stores every element of every token, once each.** -/
theorem stores_eq [Inhabited α] {L : VulkanPagedKVLayout} {cache : GpuTensor}
    {s : KVCacheLayerSpec} {l : ℤ}
    {k v : Tensor α} {sm : Tensor ℤ} {name : String} {bar : Bool} {op : Op α} {base : ℕ}
    (hop : KvOps.buildPagedKvWriteOp L cache s l k v sm name bar = .ok op)
    (hbase : L.layerBaseOffset l = .ok base) :
    stores op = (List.range sm.data.length).flatMap fun i =>
      tokenStores s (base / s.dtypeSize) (view (sm.data.map Int.toNat) i)
        fun te p => view (planeData k v p).data (i * s.elementsPerToken + te) := by
  obtain ⟨T, base', hT, -, -, hsm, -, hbase', -, rfl⟩ := KvOps.buildPagedKvWriteOp_eq_ok.1 hop
  have hlen : sm.data.length = T := by rw [sm.length_data, hsm, List.prod_singleton]
  obtain rfl : base = base' := by rw [hbase] at hbase'; exact Except.ok.inj hbase'
  have hept : T * s.numKvHeads * s.headSize = T * s.elementsPerToken := by
    rw [Nat.mul_assoc]; rfl
  simp only [stores, globalIds_linear, hept, hlen]
  rw [flatMap_range_guard (le_ceilDiv_mul (by decide)), flatMap_range_mul]
  · refine List.flatMap_congr ?_
    intro i hi
    change _ = List.map _ ((List.range _).flatMap fun te => [(te, KVPlane.k), (te, KVPlane.v)])
    rw [List.map_flatMap]
    refine List.flatMap_congr ?_
    intro te ht
    exact main_eq (List.mem_range.1 hi) (List.mem_range.1 ht) _ _ _
  · intro i hi
    have : i ≥ T * (s.numKvHeads * s.headSize) := hi
    simp [main, Params.ofPc, PcWord.u32At, this]

theorem mem_tokenElements {s : KVCacheLayerSpec} {te : ℕ} {p : KVPlane} :
    (te, p) ∈ tokenElements s ↔ te < s.elementsPerToken := by
  cases p <;> simp [tokenElements]

theorem nodup_tokenStores (s : KVCacheLayerSpec) (base slot : ℕ) (x : ℕ → KVPlane → α) :
    ((tokenStores s base slot x).map Prod.fst).Nodup := by
  rw [tokenStores, List.map_map]
  refine List.Nodup.map_on ?_ (List.nodup_range.product (by decide))
  rintro ⟨te, p⟩ h ⟨te', p'⟩ h' heq
  obtain ⟨-, rfl, rfl⟩ := slotCell_inj (mem_tokenElements.1 h) (mem_tokenElements.1 h') heq
  rfl

/-- **Tokens in distinct slots store to distinct cells.** -/
theorem nodup_stores (s : KVCacheLayerSpec) (base : ℕ) (is : List ℕ) (slot : ℕ → ℕ)
    (x : ℕ → ℕ → KVPlane → α) (hn : (is.map slot).Nodup) :
    ((is.flatMap fun i => tokenStores s base (slot i) (x i)).map Prod.fst).Nodup := by
  induction is with
  | nil => simp
  | cons i is ih =>
    rw [List.map_cons, List.nodup_cons] at hn
    rw [List.flatMap_cons, List.map_append]
    refine (nodup_tokenStores s base _ _).append (ih hn.2) ?_
    intro c hc hc'
    simp only [tokenStores, List.map_map, List.mem_map, List.map_flatMap, List.mem_flatMap]
      at hc hc'
    obtain ⟨⟨te, p⟩, h, rfl⟩ := hc
    obtain ⟨j, hj, ⟨te', p'⟩, h', heq⟩ := hc'
    obtain ⟨hslot, -, -⟩ := slotCell_inj (mem_tokenElements.1 h') (mem_tokenElements.1 h) heq
    exact hn.1 (List.mem_map.2 ⟨j, hj, hslot⟩)

/-! ### Correctness -/

/-- The op writing the tokens `part` of a request. -/
def PartOp (L : VulkanPagedKVLayout) (cache : GpuTensor) (s : KVCacheLayerSpec) (l : ℤ)
    (k v : Tensor α) (sm : Tensor ℤ) (name : String) (bar : Bool) (part : List ℕ) (op : Op α) :
    Prop :=
  ∃ k' v' sm', k.indexSelect part = some k' ∧ v.indexSelect part = some v' ∧
    sm.indexSelect part = some sm' ∧
    KvOps.buildPagedKvWriteOp L cache s l k' v' sm' name bar = .ok op

section

variable [Inhabited α] {L : VulkanPagedKVLayout} {cache : GpuTensor} {s : KVCacheLayerSpec} {l : ℤ}
  {k v : Tensor α} {sm : Tensor ℤ} {name : String} {bar : Bool} {op : Op α} {base : ℕ}

/-- Part of an accepted write is accepted, and stores what the whole write stores for its
tokens. -/
theorem exists_partOp (hop : KvOps.buildPagedKvWriteOp L cache s l k v sm name bar = .ok op)
    (hbase : L.layerBaseOffset l = .ok base) {part : List ℕ} (hne : part ≠ [])
    (hn : part.Nodup) (hlt : ∀ i ∈ part, i < sm.data.length) :
    ∃ op', PartOp L cache s l k v sm name bar part op' ∧ stores op' = part.flatMap fun i =>
      tokenStores s (base / s.dtypeSize) (view (sm.data.map Int.toNat) i)
        fun te p => view (planeData k v p).data (i * s.elementsPerToken + te) := by
  obtain ⟨T, base', hT, hk, hv, hsm, hrange, hbase', hfits, rfl⟩ :=
    KvOps.buildPagedKvWriteOp_eq_ok.1 hop
  obtain rfl : base = base' := by rw [hbase] at hbase'; exact Except.ok.inj hbase'
  have hlen : sm.data.length = T := by rw [sm.length_data, hsm, List.prod_singleton]
  rw [hlen] at hlt
  obtain ⟨k', hk', hks, hkd⟩ := k.exists_indexSelect hk hlt
  obtain ⟨v', hv', hvs, hvd⟩ := v.exists_indexSelect (hv.trans hk) hlt
  obtain ⟨sm', hsm', hsms, hsmd⟩ := sm.exists_indexSelect hsm hlt
  simp only [List.prod_nil, Nat.mul_one, Nat.lt_one_iff, forall_eq, Nat.add_zero] at hsmd
  have hle : part.length ≤ T := by
    have hsub := List.subperm_of_subset hn fun i hi => List.mem_range.2 (hlt i hi)
    simpa using hsub.length_le
  have hslen : sm'.data.length = part.length := by rw [sm'.length_data, hsms, List.prod_singleton]
  -- a part is accepted: its slots are slots of the whole, and it is not longer
  have hslots : ∀ z ∈ sm'.data, z ∈ sm.data := by
    intro z hz
    obtain ⟨j, hj⟩ := List.mem_iff_getElem?.1 hz
    rw [hsmd] at hj
    obtain ⟨i, -, hi⟩ := Option.bind_eq_some_iff.1 hj
    exact List.mem_of_getElem? hi
  obtain ⟨op', hop'⟩ :
      ∃ op', KvOps.buildPagedKvWriteOp L cache s l k' v' sm' name bar = .ok op' := by
    refine ⟨_, KvOps.buildPagedKvWriteOp_eq_ok.2 ⟨part.length, base, List.length_pos_iff.2 hne, hks,
      hvs.trans hks.symm, hsms, fun z hz => hrange z (hslots z hz), hbase, fun w hw => ?_, rfl⟩⟩
    obtain rfl | hw := List.mem_cons.1 hw
    · have hT32 : T < 2 ^ 32 := hfits (.u32 T) (by simp)
      exact lt_of_le_of_lt hle hT32
    · exact hfits w (List.mem_cons_of_mem _ hw)
  refine ⟨op', ⟨k', v', sm', hk', hv', hsm', hop'⟩, ?_⟩
  rw [stores_eq hop' hbase, hslen]
  refine flatMap_range_length _ _ _ ?_
  intro j i hj
  have hslot : view (sm'.data.map Int.toNat) j = view (sm.data.map Int.toNat) i :=
    view_congr (by simp [hsmd, hj])
  have hprod : [s.numKvHeads, s.headSize].prod = s.elementsPerToken := by
    simp [KVCacheLayerSpec.elementsPerToken]
  rw [hslot]
  refine List.map_congr_left ?_
  rintro ⟨te, p⟩ hep
  have hte : te < [s.numKvHeads, s.headSize].prod := hprod ▸ mem_tokenElements.1 hep
  have hrow : view (planeData k' v' p).data (j * s.elementsPerToken + te) =
      view (planeData k v p).data (i * s.elementsPerToken + te) := by
    refine view_congr ?_
    rw [← hprod]
    cases p
    · exact (hkd j te hte).trans (by rw [hj, Option.bind_some]; rfl)
    · exact (hvd j te hte).trans (by rw [hj, Option.bind_some]; rfl)
  simp only [hrow]

/-- The parts of a partition of the tokens are all accepted, and together they store what the whole
write stores. -/
theorem exists_partOps (hop : KvOps.buildPagedKvWriteOp L cache s l k v sm name bar = .ok op)
    (hbase : L.layerBaseOffset l = .ok base) {parts : List (List ℕ)}
    (hparts : parts.flatten.Nodup) (hne : ∀ part ∈ parts, part ≠ [])
    (hlt : ∀ i ∈ parts.flatten, i < sm.data.length) :
    ∃ ops, List.Forall₂ (PartOp L cache s l k v sm name bar) parts ops ∧
      (ops.map stores).flatten = parts.flatten.flatMap fun i =>
        tokenStores s (base / s.dtypeSize) (view (sm.data.map Int.toNat) i)
          fun te p => view (planeData k v p).data (i * s.elementsPerToken + te) := by
  induction parts with
  | nil => exact ⟨[], List.Forall₂.nil, rfl⟩
  | cons part parts ih =>
    rw [List.flatten_cons, List.nodup_append] at hparts
    simp only [List.flatten_cons, List.mem_append] at hlt
    obtain ⟨op', hpart, hstores⟩ := exists_partOp hop hbase (hne part (by simp)) hparts.1
      fun i hi => hlt i (Or.inl hi)
    obtain ⟨ops, hops, hflat⟩ := ih hparts.2.1 (fun q hq => hne q (by simp [hq]))
      fun i hi => hlt i (Or.inr hi)
    exact ⟨op' :: ops, hops.cons hpart, by simp [hstores, hflat]⟩

/-- **Paged KV write.**  In a layout of one element size, an accepted write to distinct slots puts
element `e` of head `h` of every token's key and value at the slot offset of that token, inside
the buffer, and leaves every other cell of the buffer as it was.  Every partition of the tokens
into writes, in any order, is accepted and leads to the same cache. -/
theorem pagedKvWrite_correct {d : ℕ} (hd : ∀ s ∈ L.layerSpecs, s.dtypeSize = d)
    (hs : L.layerSpec l = .ok s)
    (hop : KvOps.buildPagedKvWriteOp L cache s l k v sm name bar = .ok op)
    (hdistinct : sm.data.Nodup) {m m' : ℕ → α} (hrun : Runs m (stores op) m') :
    (∀ (i : ℕ) (slot : ℤ), sm.data[i]? = some slot → ∀ h < s.numKvHeads, ∀ e < s.headSize,
      ∀ p : KVPlane, ∃ off, L.slotOffset l slot h e p.name = .ok off ∧ d ∣ off ∧
        off < L.totalBytes ∧ (planeData k v p).get? [i, h, e] = some (m' (off / d))) ∧
    (∀ c, (∀ slot ∈ sm.data, ∀ (h e : ℤ) (p : String) (off : ℕ),
      L.slotOffset l slot h e p = .ok off → c ≠ off / d) → m' c = m c) ∧
    (∀ parts : List (List ℕ), parts.flatten.Perm (List.range sm.data.length) →
      (∀ part ∈ parts, part ≠ []) →
      ∃ ops, List.Forall₂ (PartOp L cache s l k v sm name bar) parts ops ∧
        ∀ m'', RunsAll m (ops.map stores) m'' → m'' = m') := by
  obtain ⟨T, base, -, hk, hv, hsm, hrange, hbase, -, -⟩ := KvOps.buildPagedKvWriteOp_eq_ok.1 hop
  obtain rfl : s.dtypeSize = d := hd s (mem_of_layerSpec hs)
  obtain ⟨j, hj, hbase'⟩ := exists_layerBaseOffset hs
  obtain rfl : base = L.regionStart j := by rw [hbase] at hbase'; exact Except.ok.inj hbase'
  have hdvd : s.dtypeSize ∣ L.regionStart j := dvd_regionStart hd j
  -- an accepted slot mapping has no negative slot, so that the shader sees the slots themselves
  have hview : ∀ (i : ℕ) (z : ℤ), sm.data[i]? = some z → ∃ n : ℕ, z = n ∧
      n < L.capacityTokensPerLayer ∧ view (sm.data.map Int.toNat) i = n := by
    intro i z hi
    have := hrange z (List.mem_of_getElem? hi)
    refine ⟨z.toNat, by omega, by omega, ?_⟩
    simp [view, List.getD_eq_getElem?_getD, hi]
  have hslots : ((List.range sm.data.length).map (view (sm.data.map Int.toNat))).Nodup := by
    have hmap := map_view_range (sm.data.map Int.toNat)
    rw [List.length_map] at hmap
    rw [hmap]
    refine hdistinct.map_on ?_
    intro z hz z' hz' heq
    have := hrange z hz; have := hrange z' hz'
    omega
  have hstores := stores_eq hop hbase
  have hnodup : ((stores op).map Prod.fst).Nodup := by
    rw [hstores]
    exact nodup_stores s _ _ _ _ hslots
  refine ⟨fun i slot hi h hh e he p => ?_, fun c hc => hrun.of_notMem fun hmem => ?_,
    fun parts hperm hne => ?_⟩
  · -- the cell of a token is stored once, by the invocation of its element
    obtain ⟨n, rfl, hn, hview⟩ := hview i slot hi
    have hlt : i < sm.data.length := (List.getElem?_eq_some_iff.1 hi).1
    have hT : i < T := by rwa [sm.length_data, hsm, List.prod_singleton] at hlt
    have ht := headElement_lt hh he
    have hmem : (slotCell s (L.regionStart j / s.dtypeSize) n (h * s.headSize + e) p,
        view (planeData k v p).data (i * s.elementsPerToken + (h * s.headSize + e))) ∈
          stores op := by
      rw [hstores]
      refine List.mem_flatMap.2 ⟨i, List.mem_range.2 hlt, ?_⟩
      rw [hview]
      exact List.mem_map.2 ⟨(h * s.headSize + e, p), mem_tokenElements.2 ht, rfl⟩
    have hshape : (planeData k v p).shape = [T, s.numKvHeads, s.headSize] := by
      cases p
      · exact hk
      · exact hv.trans hk
    refine ⟨_, slotOffset_slotCell hs hbase hdvd hn hh he p, Dvd.intro _ rfl,
      slotCell_lt_total hs hj hdvd hn ht p, ?_⟩
    rw [Nat.mul_div_cancel_left _ s.dtypeSize_pos, hrun.of_mem hnodup hmem,
      get?_eq_view hshape hT hh he]
  · -- every store is at the cell of a coordinate
    rw [hstores] at hmem
    simp only [tokenStores, List.map_flatMap, List.map_map, List.mem_flatMap, List.mem_map,
      List.mem_range] at hmem
    obtain ⟨i, hi, ⟨te, p⟩, hep, rfl⟩ := hmem
    obtain ⟨n, hz, hn, hview⟩ := hview i _ (List.getElem?_eq_getElem hi)
    have ht : te < s.elementsPerToken := mem_tokenElements.1 hep
    have hh : te / s.headSize < s.numKvHeads :=
      (Nat.div_lt_iff_lt_mul s.headSize_pos).2 ht
    refine hc _ (List.getElem_mem hi) (te / s.headSize : ℕ) (te % s.headSize : ℕ) p.name _
      (hz ▸ slotOffset_slotCell hs hbase hdvd hn hh (Nat.mod_lt _ s.headSize_pos) p) ?_
    rw [Nat.mul_div_cancel_left _ s.dtypeSize_pos, Nat.div_add_mod', ← hview]
    rfl
  · -- the parts store the same cells in another order, each of them once
    have hn : parts.flatten.Nodup := hperm.nodup_iff.2 List.nodup_range
    obtain ⟨ops, hops, hflat⟩ := exists_partOps hop hbase hn hne
      fun i hi => List.mem_range.1 (hperm.subset hi)
    refine ⟨ops, hops, fun m'' h'' => ?_⟩
    have hp : ((ops.map stores).flatten).Perm (stores op) := by
      rw [hflat, hstores]; exact hperm.flatMap_right _
    rw [h''.unique ((hp.map Prod.fst).nodup_iff.2 hnodup), hrun.unique hnodup]
    exact applyStores_perm hp ((hp.map Prod.fst).nodup_iff.2 hnodup) m

end

/-- Two tokens written to slots `3` and `0` of the last layer, which is `layer_index` `-1`. -/
theorem pagedKvWrite_correct_smallLayout :
    ∃ op : Op ℤ, KvOps.buildPagedKvWriteOp smallLayout ⟨0, 128⟩
        (smallLayout.layerSpecs.getLast (by decide)) (-1) ⟨[2, 2, 1], [1, 2, 3, 4], rfl⟩
        ⟨[2, 2, 1], [5, 6, 7, 8], rfl⟩ ⟨[2], [3, 0], rfl⟩ "paged_kv_write_f32" false = .ok op ∧
      ∃ off, smallLayout.slotOffset (-1) 3 1 0 "v" = .ok off ∧ 4 ∣ off ∧ off < 128 ∧
        some 6 = some (applyStores (fun _ => 0) (stores op) (off / 4)) := by
  obtain ⟨op, hop⟩ : ∃ op : Op ℤ, KvOps.buildPagedKvWriteOp smallLayout ⟨0, 128⟩
      (smallLayout.layerSpecs.getLast (by decide)) (-1) ⟨[2, 2, 1], [1, 2, 3, 4], rfl⟩
      ⟨[2, 2, 1], [5, 6, 7, 8], rfl⟩ ⟨[2], [3, 0], rfl⟩ "paged_kv_write_f32" false = .ok op :=
    ⟨_, rfl⟩
  refine ⟨op, hop, ?_⟩
  have hd : ∀ s ∈ smallLayout.layerSpecs, s.dtypeSize = 4 := by decide
  have hs : smallLayout.layerSpec (-1) = .ok (smallLayout.layerSpecs.getLast (by decide)) := rfl
  have hdistinct : (⟨[2], [3, 0], rfl⟩ : Tensor ℤ).data.Nodup := by decide
  exact (pagedKvWrite_correct hd hs hop hdistinct (Runs.refl _ _)).1 0 3 rfl 1 (by decide) 0
    (by decide) .v

end KvWrite

end VllmVulkan
