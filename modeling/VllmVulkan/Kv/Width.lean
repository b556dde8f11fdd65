import VllmVulkan.Lib.Words
import VllmVulkan.Kv.Coordinates
import VllmVulkan.Kv.Write
import VllmVulkan.Kv.Coop

/-!
# The width of the shaders' indices

The paged shaders compute their indices in 32-bit words, and the builders hand them slots and block
ids converted by `astype(np.uint32)`.  `struct.pack` checks the push constants one by one; no
product or sum of them is checked.

* `KvWrite.values`, `Decode.values`, `Coop.values` : what an invocation computes for its indices, by
  the names of the shader;
* `KvWrite.NoWrap`, `Decode.NoWrap` : no index of a dispatch wraps;
* `KvWrite.mainWrapped`, `KvWrite.storesWrapped_eq` : the write shader on words, which stores what
  the exact one stores when nothing wraps;
* `RowFits` : the K and V rows of a token end within the first `2 ^ 32` elements of the buffer;
* `paged_noWrap_iff` : **nothing wraps exactly when the elements can be counted and the rows fit**;
* `rowFits_of_totalBytes_le` : the rows of a buffer of at most `2 ^ 32` elements fit;
* `hugeWrite_wraps` : an accepted write that overwrites the first block instead.
-/

namespace VllmVulkan

open Words Store VulkanPagedKVLayout

theorem invocation_lt {total globalIdx : ℕ} (htotal : total < 2 ^ 32)
    (h : globalIdx < ceilDiv total 256 * 256) : globalIdx < 2 ^ 32 := by
  have hceil : ceilDiv total 256 ≤ 2 ^ 24 := by
    unfold ceilDiv
    omega
  omega

/-! ### Rows -/

/-- The K and V rows of the token at `offset` in block `block` end within the first `2 ^ 32`
elements of the buffer, for a layer whose region starts at element `base`. -/
def RowFits (s : KVCacheLayerSpec) (base block offset : ℕ) : Prop :=
  base + block * s.blockElements + s.planeElements + (offset + 1) * s.elementsPerToken ≤ 2 ^ 32

instance (s : KVCacheLayerSpec) (base block offset : ℕ) : Decidable (RowFits s base block offset) :=
  inferInstanceAs (Decidable (_ ≤ _))

section

variable {s : KVCacheLayerSpec} {base block offset slot : ℕ}

theorem slot_lt_of_rowFits (h : RowFits s base (slot / s.blockSize) (slot % s.blockSize)) :
    slot < 2 ^ 32 := by
  have hept := s.elementsPerToken_pos
  have hblock : s.blockSize * (slot / s.blockSize) ≤ slot / s.blockSize * s.blockElements := by
    rw [Nat.mul_comm, KVCacheLayerSpec.blockElements, KVCacheLayerSpec.planeElements]
    exact Nat.mul_le_mul_left _ ((Nat.le_mul_of_pos_right _ hept).trans (by omega))
  have hoffset : slot % s.blockSize + 1 ≤ (slot % s.blockSize + 1) * s.elementsPerToken :=
    Nat.le_mul_of_pos_right _ hept
  have hslot := Nat.div_add_mod slot s.blockSize
  unfold RowFits at h
  omega

theorem block_lt_of_rowFits (h : RowFits s base block offset) : block < 2 ^ 32 := by
  have hplane : s.elementsPerToken ≤ s.planeElements := Nat.le_mul_of_pos_left _ s.blockSize_pos
  have hept := s.elementsPerToken_pos
  have hblock : block ≤ block * s.blockElements :=
    Nat.le_mul_of_pos_right _ (Nat.mul_pos two_pos (by omega))
  unfold RowFits at h
  omega

theorem two_headSize_le_of_rowFits (h : RowFits s base block offset) :
    2 * s.headSize ≤ 2 ^ 32 := by
  have hplane : s.elementsPerToken ≤ s.planeElements := Nat.le_mul_of_pos_left _ s.blockSize_pos
  have hhead : s.headSize ≤ s.elementsPerToken := Nat.le_mul_of_pos_left _ s.numKvHeads_pos
  have hoffset : s.elementsPerToken ≤ (offset + 1) * s.elementsPerToken :=
    Nat.le_mul_of_pos_left _ (Nat.succ_pos _)
  unfold RowFits at h
  omega

end

namespace KvWrite

variable {α : Type}

/-! ### The write shader -/

/-- Every push constant is a word. -/
structure Params.Fits (p : Params) : Prop where
  numTokens : p.numTokens < 2 ^ 32
  numKvHeads : p.numKvHeads < 2 ^ 32
  headSize : p.headSize < 2 ^ 32
  blockSize : p.blockSize < 2 ^ 32
  layerBaseElements : p.layerBaseElements < 2 ^ 32
  planeElementsPerBlock : p.planeElementsPerBlock < 2 ^ 32
  blockElements : p.blockElements < 2 ^ 32

section

variable (p : Params) (slots : ℕ → ℕ) (globalIdx : ℕ)

/-- `elements_per_token`. -/
def elementsPerToken : Expr := .word p.numKvHeads * .word p.headSize

/-- `total_elements`. -/
def totalElements : Expr := .word p.numTokens * elementsPerToken p

/-- `token_idx`. -/
def tokenIdx : Expr := .word globalIdx / elementsPerToken p

/-- `token_element`. -/
def tokenElement : Expr := .word globalIdx - tokenIdx p globalIdx * elementsPerToken p

/-- `slot`. -/
def slot : Expr := .load slots (tokenIdx p globalIdx)

/-- `physical_block_id`. -/
def physicalBlockId : Expr := slot p slots globalIdx / .word p.blockSize

/-- `token_offset_in_block`. -/
def tokenOffsetInBlock : Expr :=
  slot p slots globalIdx - physicalBlockId p slots globalIdx * .word p.blockSize

/-- `block_base`. -/
def blockBase : Expr :=
  .word p.layerBaseElements + physicalBlockId p slots globalIdx * .word p.blockElements

/-- `dst`. -/
def dst : Expr :=
  blockBase p slots globalIdx + tokenOffsetInBlock p slots globalIdx * elementsPerToken p +
    tokenElement p globalIdx

/-- What the invocation `globalIdx` computes for its indices. -/
def values : List Expr :=
  totalElements p :: if globalIdx ≥ (totalElements p).exact then [] else
    [tokenIdx p globalIdx, tokenElement p globalIdx, slot p slots globalIdx,
      physicalBlockId p slots globalIdx, tokenOffsetInBlock p slots globalIdx,
      blockBase p slots globalIdx, dst p slots globalIdx,
      dst p slots globalIdx + .word p.planeElementsPerBlock]

theorem main_eq_exact (dataK dataV : ℕ → α) : main p dataK dataV slots globalIdx =
    if globalIdx ≥ (totalElements p).exact then [] else
      [((dst p slots globalIdx).exact, dataK globalIdx),
        ((dst p slots globalIdx + .word p.planeElementsPerBlock).exact, dataV globalIdx)] :=
  rfl

/-- `main`, on words of 32 bits. -/
def mainWrapped (dataK dataV : ℕ → α) : List (ℕ × α) :=
  let globalIdx₃₂ := BitVec.ofNat 32 globalIdx
  if globalIdx₃₂ ≥ (totalElements p).wrapped 32 then [] else
    [(((dst p slots globalIdx).wrapped 32).toNat, dataK globalIdx₃₂.toNat),
      (((dst p slots globalIdx + .word p.planeElementsPerBlock).wrapped 32).toNat,
        dataV globalIdx₃₂.toNat)]

end

/-- No index of a dispatched write wraps, and no slot that is uploaded. -/
def NoWrap (op : Op α) : Prop :=
  match op.inputs with
  | [.elems _, .elems _, .words slots, .tensor _] =>
    (∀ slot ∈ slots, (Expr.word slot).Agrees 32) ∧
      ∀ globalIdx ∈ globalIds op.workgroups 256,
        (Expr.word globalIdx).Agrees 32 ∧
          ∀ e ∈ values (Params.ofPc op.pc) (view slots) globalIdx, e.Agrees 32
  | _ => False

/-- The stores of a dispatched write op on words of 32 bits. -/
def storesWrapped [Inhabited α] (op : Op α) : List (ℕ × α) :=
  match op.inputs with
  | [.elems k, .elems v, .words slots, .tensor _] =>
    (globalIds op.workgroups 256).flatMap fun globalIdx =>
      mainWrapped (Params.ofPc op.pc) (view slots) globalIdx (view k) (view v)
  | _ => []

/-- An invocation whose indices do not wrap stores what the exact one stores. -/
theorem mainWrapped_eq {p : Params} {slots : ℕ → ℕ} {globalIdx : ℕ}
    (hg : (Expr.word globalIdx).Agrees 32) (h : ∀ e ∈ values p slots globalIdx, e.Agrees 32)
    (dataK dataV : ℕ → α) :
    mainWrapped p slots globalIdx dataK dataV = main p dataK dataV slots globalIdx := by
  have hg' : (BitVec.ofNat 32 globalIdx).toNat = globalIdx := hg.toNat_eq
  have htotal := (h _ List.mem_cons_self).toNat_eq
  rw [mainWrapped, main_eq_exact]
  simp only [ge_iff_le, BitVec.le_def, htotal, hg']
  split_ifs with hge
  · rfl
  · rw [values, if_neg hge] at h
    have hdst : (dst p slots globalIdx).Agrees 32 := h _ (by simp)
    have hdst' : (dst p slots globalIdx + .word p.planeElementsPerBlock).Agrees 32 := h _ (by simp)
    rw [hdst.toNat_eq, hdst'.toNat_eq]

/-- **A write whose indices do not wrap stores what the exact one stores.** -/
theorem storesWrapped_eq [Inhabited α] {op : Op α} (h : NoWrap op) :
    storesWrapped op = stores op := by
  unfold NoWrap at h
  split at h
  · rename_i hinputs
    rw [storesWrapped, stores, hinputs]
    exact List.flatMap_congr fun g hg => mainWrapped_eq (h.2 g hg).1 (h.2 g hg).2 _ _
  · exact h.elim

/-! ### The condition of a write -/

section

variable {p : Params} {slots : ℕ → ℕ} {globalIdx i te : ℕ}

/-- The values of the invocation for element `te` of token `i`. -/
theorem exact_eq (hte : te < p.numKvHeads * p.headSize)
    (hg : globalIdx = i * (p.numKvHeads * p.headSize) + te) :
    (tokenIdx p globalIdx).exact = i ∧ (tokenElement p globalIdx).exact = te ∧
      (physicalBlockId p slots globalIdx).exact = slots i / p.blockSize ∧
      (tokenOffsetInBlock p slots globalIdx).exact = slots i % p.blockSize := by
  have htoken : (tokenIdx p globalIdx).exact = i := by
    change globalIdx / (p.numKvHeads * p.headSize) = i
    rw [hg, Nat.add_comm, Nat.add_mul_div_right _ _ (by omega), Nat.div_eq_of_lt hte, Nat.zero_add]
  have hslot : (slot p slots globalIdx).exact = slots i := congrArg slots htoken
  have hblock : (physicalBlockId p slots globalIdx).exact = slots i / p.blockSize :=
    congrArg (· / p.blockSize) hslot
  refine ⟨htoken, ?_, hblock, ?_⟩
  · change globalIdx - (tokenIdx p globalIdx).exact * (p.numKvHeads * p.headSize) = te
    rw [htoken, hg, Nat.add_sub_cancel_left]
  · change (slot p slots globalIdx).exact -
      (physicalBlockId p slots globalIdx).exact * p.blockSize = _
    rw [hslot, hblock, Nat.mod_eq_sub_div_mul]

theorem dst_exact (hte : te < p.numKvHeads * p.headSize)
    (hg : globalIdx = i * (p.numKvHeads * p.headSize) + te) :
    (dst p slots globalIdx).exact = p.layerBaseElements +
      slots i / p.blockSize * p.blockElements +
        slots i % p.blockSize * (p.numKvHeads * p.headSize) + te := by
  obtain ⟨-, helement, hblock, hoffset⟩ := @exact_eq p slots _ _ _ hte hg
  have hept : (elementsPerToken p).exact = p.numKvHeads * p.headSize := rfl
  simp only [dst, blockBase, Expr.exact_add, Expr.exact_mul, Expr.exact_word, hblock, hoffset,
    helement, hept]

theorem mem_values (h : globalIdx < (totalElements p).exact) :
    dst p slots globalIdx + .word p.planeElementsPerBlock ∈ values p slots globalIdx := by
  rw [values, if_neg (not_le.2 h)]
  simp

theorem elementsPerToken_agrees (hp : p.Fits) (hT : 0 < p.numTokens)
    (htotal : p.numTokens * (p.numKvHeads * p.headSize) < 2 ^ 32) :
    (elementsPerToken p).Agrees 32 :=
  .mul (.word hp.numKvHeads) (.word hp.headSize)
    (lt_of_le_of_lt (Nat.le_mul_of_pos_left _ hT) htotal)

/-- **An invocation whose token has fitting rows** computes no index that wraps. -/
theorem values_agree (hp : p.Fits)
    (htotal : p.numTokens * (p.numKvHeads * p.headSize) < 2 ^ 32) (hi : i < p.numTokens)
    (hte : te < p.numKvHeads * p.headSize)
    (hg : globalIdx = i * (p.numKvHeads * p.headSize) + te) (hslot : slots i < 2 ^ 32)
    (hrow : p.layerBaseElements + slots i / p.blockSize * p.blockElements +
      p.planeElementsPerBlock + (slots i % p.blockSize + 1) * (p.numKvHeads * p.headSize) ≤
        2 ^ 32) :
    ∀ e ∈ values p slots globalIdx, e.Agrees 32 := by
  have aept := elementsPerToken_agrees hp (by omega) htotal
  obtain ⟨hT, -, -, hbs, hbase, hPE, hBE⟩ := hp
  obtain ⟨htoken, helement, hblock, hoffset⟩ := @exact_eq p slots _ _ _ hte hg
  have hdst := @dst_exact p slots _ _ _ hte hg
  have hlast : (i + 1) * (p.numKvHeads * p.headSize) ≤
      p.numTokens * (p.numKvHeads * p.headSize) := Nat.mul_le_mul_right _ hi
  rw [Nat.add_mul, Nat.one_mul] at hlast hrow
  -- every operation of the shader, in its order
  have atotal : (totalElements p).Agrees 32 := .mul (.word hT) aept htotal
  have aglobal : (Expr.word globalIdx).Agrees 32 := .word (by omega)
  have atoken : (tokenIdx p globalIdx).Agrees 32 := aglobal.div aept
  have aelement : (tokenElement p globalIdx).Agrees 32 := aglobal.rem aept
  have aslot : (slot p slots globalIdx).Agrees 32 := atoken.load (by rw [htoken]; exact hslot)
  have ablock : (physicalBlockId p slots globalIdx).Agrees 32 := aslot.div (.word hbs)
  have aoffset : (tokenOffsetInBlock p slots globalIdx).Agrees 32 := aslot.rem (.word hbs)
  have abase : (blockBase p slots globalIdx).Agrees 32 := by
    refine .mulAdd (.word hbase) ablock (.word hBE) ?_
    rw [hblock, Expr.exact_word, Expr.exact_word]
    omega
  have adst : (dst p slots globalIdx).Agrees 32 := by
    have hlt : (dst p slots globalIdx).exact < 2 ^ 32 := by omega
    have hle := Nat.lt_of_le_of_lt (Nat.le_add_right _ _) hlt
    exact (abase.mulAdd aoffset aept hle).add aelement hlt
  have adst' : (dst p slots globalIdx + .word p.planeElementsPerBlock).Agrees 32 :=
    adst.add (.word hPE) (by rw [hdst, Expr.exact_word]; omega)
  intro e he
  rw [values, List.mem_cons] at he
  obtain rfl | he := he
  · exact atotal
  · split_ifs at he
    · cases he
    · simp only [List.mem_cons, List.not_mem_nil, or_false] at he
      obtain rfl | rfl | rfl | rfl | rfl | rfl | rfl | rfl := he <;> assumption

end

/-- The elements of a write can be counted, and the rows of its tokens fit. -/
def WriteFits (s : KVCacheLayerSpec) (base : ℕ) (slotMapping : List ℤ) : Prop :=
  slotMapping.length * s.elementsPerToken < 2 ^ 32 ∧ ∀ slot ∈ slotMapping,
    RowFits s (base / s.dtypeSize) (slot.toNat / s.blockSize) (slot.toNat % s.blockSize)

instance (s : KVCacheLayerSpec) (base : ℕ) (slotMapping : List ℤ) :
    Decidable (WriteFits s base slotMapping) :=
  inferInstanceAs (Decidable (_ ∧ _))

/-- The push constants of a write to a layer whose region starts at element `base`. -/
def Params.ofSpec (s : KVCacheLayerSpec) (base T : ℕ) : Params :=
  ⟨T, s.numKvHeads, s.headSize, s.blockSize, base, s.planeElements, s.blockElements⟩

section

variable {s : KVCacheLayerSpec} {base T i te : ℕ} {slots : ℕ → ℕ}

theorem rowFits_of_agrees (hi : i < T) (h : ∀ e ∈ values (.ofSpec s base T) slots
    (i * s.elementsPerToken + (s.elementsPerToken - 1)), e.Agrees 32) :
    RowFits s base (slots i / s.blockSize) (slots i % s.blockSize) := by
  have hpos := s.elementsPerToken_pos
  have hlast : (i + 1) * s.elementsPerToken ≤ T * s.elementsPerToken := Nat.mul_le_mul_right _ hi
  rw [Nat.add_mul, Nat.one_mul] at hlast
  have hmem : dst (.ofSpec s base T) slots (i * s.elementsPerToken + (s.elementsPerToken - 1)) +
      .word s.planeElements ∈ values (.ofSpec s base T) slots _ :=
    mem_values (by change _ < T * s.elementsPerToken; omega)
  have hdst : (dst (.ofSpec s base T) slots
      (i * s.elementsPerToken + (s.elementsPerToken - 1))).exact = base +
        slots i / s.blockSize * s.blockElements + slots i % s.blockSize * s.elementsPerToken +
          (s.elementsPerToken - 1) :=
    dst_exact (p := .ofSpec s base T) (Nat.sub_lt hpos Nat.one_pos) rfl
  have hlt := (h _ hmem).lt
  rw [Expr.exact_add, hdst, Expr.exact_word] at hlt
  rw [RowFits, Nat.add_mul, Nat.one_mul]
  omega

theorem agrees_of_rowFits (hp : (Params.ofSpec s base T).Fits) (hT : 0 < T)
    (htotal : T * s.elementsPerToken < 2 ^ 32) (globalIdx : ℕ)
    (hrows : ∀ i < T, RowFits s base (slots i / s.blockSize) (slots i % s.blockSize)) :
    ∀ e ∈ values (.ofSpec s base T) slots globalIdx, e.Agrees 32 := by
  obtain hlt | hge := Nat.lt_or_ge globalIdx (T * s.elementsPerToken)
  · have hi : globalIdx / s.elementsPerToken < T :=
      (Nat.div_lt_iff_lt_mul s.elementsPerToken_pos).2 hlt
    exact values_agree hp htotal hi (Nat.mod_lt _ s.elementsPerToken_pos)
      (Nat.div_add_mod' _ _).symm (slot_lt_of_rowFits (hrows _ hi)) (hrows _ hi)
  · have hge' : globalIdx ≥ (totalElements (.ofSpec s base T)).exact := hge
    intro e he
    rw [values, if_pos hge', List.mem_singleton] at he
    exact he ▸ .mul (.word hp.numTokens) (elementsPerToken_agrees hp hT htotal) htotal

end

/-- **No index of an accepted write wraps, exactly when its elements can be counted and its rows
fit.** -/
theorem noWrap_iff {L : VulkanPagedKVLayout} {cache : GpuTensor} {s : KVCacheLayerSpec} {l : ℤ}
    {k v : Tensor α} {sm : Tensor ℤ} {name : String} {bar : Bool} {op : Op α} {base : ℕ}
    (hop : KvOps.buildPagedKvWriteOp L cache s l k v sm name bar = .ok op)
    (hbase : L.layerBaseOffset l = .ok base) : NoWrap op ↔ WriteFits s base sm.data := by
  obtain ⟨T, base', hT, -, -, hsm, -, hbase', hfits, rfl⟩ := KvOps.buildPagedKvWriteOp_eq_ok.1 hop
  obtain rfl : base = base' := by rw [hbase] at hbase'; exact Except.ok.inj hbase'
  have hlen : sm.data.length = T := by rw [sm.length_data, hsm, List.prod_singleton]
  have hp : (Params.ofSpec s (base / s.dtypeSize) T).Fits := by
    simp only [List.forall_mem_cons, PcWord.Fits, List.not_mem_nil, false_imp_iff, implies_true,
      and_true] at hfits
    obtain ⟨hT, hH, hD, hbs, hbase, hPE, hBE⟩ := hfits
    exact ⟨hT, hH, hD, hbs, hbase, hPE, hBE⟩
  have hept : T * s.numKvHeads * s.headSize = T * s.elementsPerToken := Nat.mul_assoc _ _ _
  have hcount : 0 < T * s.elementsPerToken := Nat.mul_pos hT s.elementsPerToken_pos
  have hle : T * s.elementsPerToken ≤ ceilDiv (T * s.elementsPerToken) 256 * 256 :=
    le_ceilDiv_mul (by decide)
  have hrow_iff : (∀ slot ∈ sm.data, RowFits s (base / s.dtypeSize) (slot.toNat / s.blockSize)
      (slot.toNat % s.blockSize)) ↔ ∀ i < T, RowFits s (base / s.dtypeSize)
        (view (sm.data.map Int.toNat) i / s.blockSize)
        (view (sm.data.map Int.toNat) i % s.blockSize) := by
    have hview := @forall_mem_iff_view ℕ _ (sm.data.map Int.toNat) fun slot =>
      RowFits s (base / s.dtypeSize) (slot / s.blockSize) (slot % s.blockSize)
    rwa [List.forall_mem_map, List.length_map, hlen] at hview
  rw [WriteFits, hlen, hrow_iff]
  change (_ ∧ ∀ g ∈ globalIds (ceilDiv (T * s.numKvHeads * s.headSize) 256, 1, 1) 256, _ ∧ ∀ e ∈
    values (.ofSpec s (base / s.dtypeSize) T) (view (sm.data.map Int.toNat)) g, e.Agrees 32) ↔ _
  simp only [hept, globalIds_linear, List.mem_range]
  have hpos := s.elementsPerToken_pos
  constructor
  · rintro ⟨-, h⟩
    refine ⟨((h 0 (by omega)).2 _ List.mem_cons_self).lt, fun i hi => ?_⟩
    -- the invocation of the last element of the token forms the greatest index of its rows
    have hlast : (i + 1) * s.elementsPerToken ≤ T * s.elementsPerToken := Nat.mul_le_mul_right _ hi
    rw [Nat.add_mul, Nat.one_mul] at hlast
    exact rowFits_of_agrees hi (h _ (by omega)).2
  · rintro ⟨htotal, hrows⟩
    refine ⟨?_, fun g hg =>
      ⟨.word (invocation_lt htotal hg), agrees_of_rowFits hp hT htotal g hrows⟩⟩
    rw [forall_mem_iff_view, List.length_map, hlen]
    exact fun i hi => .word (slot_lt_of_rowFits (hrows i hi))

end KvWrite

namespace Decode

variable {F : Type}

/-! ### The decode shaders -/

/-- Every push constant is a word. -/
structure Params.Fits (p : Params F) : Prop where
  seqLen : p.seqLen < 2 ^ 32
  numQHeads : p.numQHeads < 2 ^ 32
  numKvHeads : p.numKvHeads < 2 ^ 32
  headSize : p.headSize < 2 ^ 32
  blockSize : p.blockSize < 2 ^ 32
  layerBaseElements : p.layerBaseElements < 2 ^ 32
  planeElementsPerBlock : p.planeElementsPerBlock < 2 ^ 32
  blockElements : p.blockElements < 2 ^ 32

section

variable (p : Params F) (blocks : ℕ → ℕ)

/-- `gqa_ratio`. -/
def gqaRatio : Expr := .word p.numQHeads / .word p.numKvHeads

/-- `kv_head`. -/
def kvHead (qHead : Expr) : Expr := qHead / gqaRatio p

/-- `q_base`. -/
def qBase (qHead : Expr) : Expr := qHead * .word p.headSize

/-- `kv_base`, as `kv_base_for_token` computes it. -/
def kvBase (qHead : Expr) (tokenIdx : ℕ) : Expr :=
  let logicalBlockId := .word tokenIdx / .word p.blockSize
  let tokenOffsetInBlock := .word tokenIdx - logicalBlockId * .word p.blockSize
  let physicalBlockId := .load blocks logicalBlockId
  let elementsPerToken := .word p.numKvHeads * .word p.headSize
  .word p.layerBaseElements + physicalBlockId * .word p.blockElements +
    tokenOffsetInBlock * elementsPerToken + kvHead p qHead * .word p.headSize

/-- What a token adds: the indices of the product, whose loop variable `d` takes the values `ds` in
steps of `stride`, the indices of the values at `elements`, and the next token. -/
def tokenValues (qHead : Expr) (ds : List ℕ) (stride : ℕ) (elements : List Expr) (tokenIdx : ℕ) :
    List Expr :=
  ds.flatMap (fun d => [qBase p qHead + .word d, kvBase p blocks qHead tokenIdx + .word d,
    .word d + .word stride]) ++
  elements.map (kvBase p blocks qHead tokenIdx + .word p.planeElementsPerBlock + ·) ++
  [.word tokenIdx + .word 1]

/-- `total_elements`. -/
def totalElements : Expr := .word p.numQHeads * .word p.headSize

/-- `q_head`. -/
def qHead (globalIdx : ℕ) : Expr := .word globalIdx / .word p.headSize

/-- `head_element`. -/
def headElement (globalIdx : ℕ) : Expr :=
  .word globalIdx - qHead p globalIdx * .word p.headSize

/-- What the invocation `globalIdx` of the plain shader computes for its indices. -/
def values (globalIdx : ℕ) : List Expr :=
  totalElements p :: if globalIdx ≥ (totalElements p).exact then [] else
    [headElement p globalIdx, kvHead p (qHead p globalIdx), qBase p (qHead p globalIdx)] ++
      (List.range p.seqLen).flatMap
        (tokenValues p blocks (qHead p globalIdx) (List.range p.headSize) 1
          [headElement p globalIdx])

end

section

variable {p : Params F} {blocks : ℕ → ℕ} {q : Expr} {tokenIdx stride : ℕ} {ds : List ℕ}
  {elements : List Expr}

theorem kvHead_agrees (hp : p.Fits) (aq : q.Agrees 32) : (kvHead p q).Agrees 32 :=
  aq.div (.div (.word hp.numQHeads) (.word hp.numKvHeads))

theorem qBase_agrees (hp : p.Fits) (hD : 0 < p.headSize) (aq : q.Agrees 32)
    (hq : q.exact * p.headSize + p.headSize ≤ 2 ^ 32) : (qBase p q).Agrees 32 :=
  .mul aq (.word hp.headSize) (by rw [Expr.exact_word]; omega)

theorem kvBase_eq : (kvBase p blocks q tokenIdx).exact = p.layerBaseElements +
    blocks (tokenIdx / p.blockSize) * p.blockElements +
      tokenIdx % p.blockSize * (p.numKvHeads * p.headSize) + (kvHead p q).exact * p.headSize := by
  rw [Nat.mod_eq_sub_div_mul]
  rfl

theorem mem_tokenValues {e : Expr} (he : e ∈ elements) :
    kvBase p blocks q tokenIdx + .word p.planeElementsPerBlock + e ∈
      tokenValues p blocks q ds stride elements tokenIdx :=
  List.mem_append_left _ (List.mem_append_right _ (List.mem_map.2 ⟨e, he, rfl⟩))

theorem mem_values {globalIdx : ℕ} (h : globalIdx < (totalElements p).exact)
    (ht : tokenIdx < p.seqLen) :
    kvBase p blocks (qHead p globalIdx) tokenIdx + .word p.planeElementsPerBlock +
      headElement p globalIdx ∈ values p blocks globalIdx := by
  rw [values, if_neg (not_le.2 h)]
  refine List.mem_cons_of_mem _ (List.mem_append_right _ ?_)
  exact List.mem_flatMap.2
    ⟨tokenIdx, List.mem_range.2 ht, mem_tokenValues (List.mem_singleton.2 rfl)⟩

/-- **A token whose rows fit** adds no index that wraps. -/
theorem tokenValues_agree (hp : p.Fits) (hD : 0 < p.headSize)
    (hplane : p.numKvHeads * p.headSize ≤ p.planeElementsPerBlock) (aq : q.Agrees 32)
    (hkv : (kvHead p q).exact < p.numKvHeads)
    (hq : q.exact * p.headSize + p.headSize ≤ 2 ^ 32) (ht : tokenIdx < p.seqLen)
    (hid : blocks (tokenIdx / p.blockSize) < 2 ^ 32)
    (hrow : p.layerBaseElements + blocks (tokenIdx / p.blockSize) * p.blockElements +
      p.planeElementsPerBlock + (tokenIdx % p.blockSize + 1) * (p.numKvHeads * p.headSize) ≤
        2 ^ 32)
    (hds : ∀ d ∈ ds, d < p.headSize ∧ d + stride < 2 ^ 32)
    (helements : ∀ e ∈ elements, e.Agrees 32 ∧ e.exact < p.headSize) :
    ∀ e ∈ tokenValues p blocks q ds stride elements tokenIdx, e.Agrees 32 := by
  have akv := kvHead_agrees hp aq
  have aqBase := qBase_agrees hp hD aq hq
  obtain ⟨hT, hQ, hH, hD', hbs, hbase, hPE, hBE⟩ := hp
  have hhead : ((kvHead p q).exact + 1) * p.headSize ≤ p.numKvHeads * p.headSize :=
    Nat.mul_le_mul_right _ hkv
  rw [Nat.add_mul, Nat.one_mul] at hhead hrow
  have hmod : tokenIdx - tokenIdx / p.blockSize * p.blockSize = tokenIdx % p.blockSize := by
    rw [Nat.mod_eq_sub_div_mul]
  -- `kv_base_for_token`
  have atoken : (Expr.word tokenIdx).Agrees 32 := .word (by omega)
  have alogical : (Expr.word tokenIdx / Expr.word p.blockSize).Agrees 32 := atoken.div (.word hbs)
  have aoffset := atoken.rem (b := .word p.blockSize) (.word hbs)
  have ablock : (Expr.load blocks (.word tokenIdx / .word p.blockSize)).Agrees 32 :=
    alogical.load hid
  have aept : (Expr.word p.numKvHeads * Expr.word p.headSize).Agrees 32 :=
    .mul (.word hH) (.word hD') (by simp only [Expr.exact_word]; omega)
  have hkvBase := @kvBase_eq F p blocks q tokenIdx
  have akvBase : (kvBase p blocks q tokenIdx).Agrees 32 := by
    refine .mulAdd (.mulAdd (.mulAdd (.word hbase) ablock (.word hBE) ?_) aoffset aept ?_) akv
      (.word hD') (lt_of_eq_of_lt hkvBase (by omega))
    · change p.layerBaseElements + blocks (tokenIdx / p.blockSize) * p.blockElements < _
      omega
    · change p.layerBaseElements + blocks (tokenIdx / p.blockSize) * p.blockElements +
        (tokenIdx - tokenIdx / p.blockSize * p.blockSize) * (p.numKvHeads * p.headSize) < _
      rw [hmod]
      omega
  have hqBase : (qBase p q).exact = q.exact * p.headSize := rfl
  intro e he
  simp only [tokenValues, List.mem_append, List.mem_flatMap, List.mem_map, List.mem_cons,
    List.not_mem_nil, or_false] at he
  obtain (⟨d, hd, rfl | rfl | rfl⟩ | ⟨e, he, rfl⟩) | rfl := he
  · obtain ⟨hlt, -⟩ := hds d hd
    exact aqBase.add (.word (by omega)) (by rw [hqBase, Expr.exact_word]; omega)
  · obtain ⟨hlt, -⟩ := hds d hd
    exact akvBase.add (.word (by omega)) (by rw [hkvBase, Expr.exact_word]; omega)
  · obtain ⟨hlt, hnext⟩ := hds d hd
    exact .add (.word (by omega)) (.word (by omega)) hnext
  · obtain ⟨ae, hlt⟩ := helements e he
    refine .add (akvBase.add (.word hPE) ?_) ae ?_
    · rw [hkvBase, Expr.exact_word]
      omega
    · rw [Expr.exact_add, hkvBase, Expr.exact_word]
      omega
  · exact atoken.add (.word (by decide)) (by simp only [Expr.exact_word]; omega)

end

/-- The push constants of a decode of a layer whose region starts at element `base`. -/
def Params.ofSpec (s : KVCacheLayerSpec) (base numQ n : ℕ) (scale : F) : Params F :=
  ⟨n, numQ, s.numKvHeads, s.headSize, s.blockSize, base, s.planeElements, s.blockElements, scale⟩

section

variable {s : KVCacheLayerSpec} {base numQ n : ℕ} {scale : F} {blocks : ℕ → ℕ} {q : Expr}
  {tokenIdx stride : ℕ} {ds : List ℕ} {elements : List Expr}

theorem kvHead_lt (hQ : 0 < numQ) (hdvd : s.numKvHeads ∣ numQ) (hq : q.exact < numQ) :
    (kvHead (.ofSpec s base numQ n scale) q).exact < s.numKvHeads := by
  change q.exact / (numQ / s.numKvHeads) < s.numKvHeads
  rw [Nat.div_lt_iff_lt_mul (Nat.div_pos (Nat.le_of_dvd hQ hdvd) s.numKvHeads_pos),
    Nat.mul_div_cancel' hdvd]
  exact hq

theorem head_le (hcount : numQ * s.headSize ≤ 2 ^ 32) (hq : q.exact < numQ) :
    q.exact * s.headSize + s.headSize ≤ 2 ^ 32 := by
  have hhead : (q.exact + 1) * s.headSize ≤ numQ * s.headSize := Nat.mul_le_mul_right _ hq
  rw [Nat.add_mul, Nat.one_mul] at hhead
  exact hhead.trans hcount

theorem kvHead_last (hQ : 0 < numQ) (hdvd : s.numKvHeads ∣ numQ) (hq : q.exact = numQ - 1) :
    (kvHead (.ofSpec s base numQ n scale) q).exact = s.numKvHeads - 1 := by
  obtain ⟨r, rfl⟩ := hdvd
  change q.exact / (s.numKvHeads * r / s.numKvHeads) = s.numKvHeads - 1
  have hlast := Nat.mul_sub_div 0 r s.numKvHeads (Nat.mul_comm _ _ ▸ hQ)
  rw [Nat.zero_div, Nat.zero_add] at hlast
  rw [hq, Nat.mul_div_cancel_left _ s.numKvHeads_pos, Nat.mul_comm]
  exact hlast

/-- **A token whose rows fit** adds no index that wraps. -/
theorem tokenValues_agree_of_rowFits (hp : (Params.ofSpec s base numQ n scale).Fits)
    (hQ : 0 < numQ) (hdvd : s.numKvHeads ∣ numQ) (hcount : numQ * s.headSize ≤ 2 ^ 32)
    (aq : q.Agrees 32) (hq : q.exact < numQ) (ht : tokenIdx < n)
    (hrow : RowFits s base (blocks (tokenIdx / s.blockSize)) (tokenIdx % s.blockSize))
    (hds : ∀ d ∈ ds, d < s.headSize ∧ d + stride < 2 ^ 32)
    (helements : ∀ e ∈ elements, e.Agrees 32 ∧ e.exact < s.headSize) :
    ∀ e ∈ tokenValues (.ofSpec s base numQ n scale) blocks q ds stride elements tokenIdx,
      e.Agrees 32 := by
  exact tokenValues_agree hp s.headSize_pos (Nat.le_mul_of_pos_left _ s.blockSize_pos) aq
    (kvHead_lt hQ hdvd hq) (head_le hcount hq) ht (block_lt_of_rowFits hrow) hrow hds helements

theorem rowFits_of_agrees (hQ : 0 < numQ) (hdvd : s.numKvHeads ∣ numQ) (hq : q.exact = numQ - 1)
    {e : Expr} (hlast : e.exact = s.headSize - 1)
    (h : (kvBase (.ofSpec s base numQ n scale) blocks q tokenIdx + .word s.planeElements + e).Agrees
      32) :
    RowFits s base (blocks (tokenIdx / s.blockSize)) (tokenIdx % s.blockSize) := by
  have hkv : (kvHead (.ofSpec s base numQ n scale) q).exact = s.numKvHeads - 1 :=
    kvHead_last hQ hdvd hq
  have hhead : (s.numKvHeads - 1) * s.headSize + s.headSize = s.elementsPerToken := by
    rw [← Nat.succ_mul, Nat.succ_eq_add_one, Nat.sub_add_cancel s.numKvHeads_pos]
    rfl
  have hlt := h.lt
  rw [Expr.exact_add, Expr.exact_add, kvBase_eq, hkv, hlast, Expr.exact_word] at hlt
  change base + blocks (tokenIdx / s.blockSize) * s.blockElements +
    tokenIdx % s.blockSize * s.elementsPerToken + (s.numKvHeads - 1) * s.headSize +
      s.planeElements + (s.headSize - 1) < 2 ^ 32 at hlt
  have hD := s.headSize_pos
  rw [RowFits, Nat.add_mul, Nat.one_mul]
  omega

/-- **An invocation of the plain shader** computes no index that wraps when the rows fit. -/
theorem values_agree (hp : (Params.ofSpec s base numQ n scale).Fits) (hQ : 0 < numQ)
    (hdvd : s.numKvHeads ∣ numQ) (hcount : numQ * s.headSize < 2 ^ 32)
    (hrows : ∀ t < n, RowFits s base (blocks (t / s.blockSize)) (t % s.blockSize))
    (globalIdx : ℕ) :
    ∀ e ∈ values (.ofSpec s base numQ n scale) blocks globalIdx, e.Agrees 32 := by
  have atotal : (totalElements (.ofSpec s base numQ n scale)).Agrees 32 :=
    .mul (.word hp.numQHeads) (.word hp.headSize) hcount
  intro e he
  rw [values, List.mem_cons] at he
  obtain rfl | he := he
  · exact atotal
  split_ifs at he with hge
  · cases he
  have hlt : globalIdx < numQ * s.headSize := not_le.1 hge
  have aglobal : (Expr.word globalIdx).Agrees 32 := .word (hlt.trans hcount)
  have aq : (qHead (.ofSpec s base numQ n scale) globalIdx).Agrees 32 :=
    aglobal.div (.word hp.headSize)
  have hq : (qHead (.ofSpec s base numQ n scale) globalIdx).exact < numQ :=
    (Nat.div_lt_iff_lt_mul s.headSize_pos).2 hlt
  have aelement : (headElement (.ofSpec s base numQ n scale) globalIdx).Agrees 32 :=
    aglobal.rem (.word hp.headSize)
  have helement : (headElement (.ofSpec s base numQ n scale) globalIdx).exact < s.headSize := by
    change globalIdx - globalIdx / s.headSize * s.headSize < s.headSize
    rw [← Nat.mod_eq_sub_div_mul]
    exact Nat.mod_lt _ s.headSize_pos
  obtain he | he := List.mem_append.1 he
  · simp only [List.mem_cons, List.not_mem_nil, or_false] at he
    obtain rfl | rfl | rfl := he
    · exact aelement
    · exact kvHead_agrees hp aq
    · exact qBase_agrees hp s.headSize_pos aq (head_le hcount.le hq)
  · obtain ⟨t, ht, he⟩ := List.mem_flatMap.1 he
    have hrow := hrows t (List.mem_range.1 ht)
    have htwo := two_headSize_le_of_rowFits hrow
    refine tokenValues_agree_of_rowFits hp hQ hdvd hcount.le aq hq (List.mem_range.1 ht) hrow ?_ ?_
      e he
    · intro d hd
      have hd : d < s.headSize := List.mem_range.1 hd
      omega
    · intro e he
      obtain rfl := List.mem_singleton.1 he
      exact ⟨aelement, helement⟩

end

end Decode

namespace Coop

open Decode

variable {F : Type}

section

variable (p : Params F) (B : ℕ) (blocks : ℕ → ℕ) (qHead outputTile tid : ℕ)

/-- `head_element`. -/
def headElementExpr : Expr := .word outputTile * .word B + .word tid

/-- The elements of the head the invocation writes. -/
def written : List Expr :=
  if (headElementExpr B outputTile tid).exact < p.headSize then [headElementExpr B outputTile tid]
  else []

/-- What an invocation of the cooperative shader computes for its indices. -/
def values : List Expr :=
  if qHead ≥ p.numQHeads then [] else
    [headElementExpr B outputTile tid, kvHead p (.word qHead), qBase p (.word qHead)] ++
      (List.range p.seqLen).flatMap (fun t =>
        tokenValues p blocks (.word qHead) (List.range' tid (ceilDiv (p.headSize - tid) B) B) B
          (written p B outputTile tid) t ++
        ((strides (B / 2)).filter (tid < ·)).map (.word tid + .word ·)) ++
      (written p B outputTile tid).map (qBase p (.word qHead) + ·)

end

section

variable {p : Params F} {B : ℕ} {blocks : ℕ → ℕ} {qHead outputTile tid : ℕ} {element : Expr}

theorem value_mem_values (hq : qHead < p.numQHeads) (he : element ∈ written p B outputTile tid)
    {t : ℕ} (ht : t < p.seqLen) :
    kvBase p blocks (.word qHead) t + .word p.planeElementsPerBlock + element ∈
      values p B blocks qHead outputTile tid := by
  rw [values, if_neg (not_le.2 hq)]
  refine List.mem_append_left _ (List.mem_append_right _ ?_)
  exact List.mem_flatMap.2 ⟨t, List.mem_range.2 ht, List.mem_append_left _ (mem_tokenValues he)⟩

theorem output_mem_values (hq : qHead < p.numQHeads) (he : element ∈ written p B outputTile tid) :
    qBase p (.word qHead) + element ∈ values p B blocks qHead outputTile tid := by
  rw [values, if_neg (not_le.2 hq)]
  exact List.mem_append_right _ (List.mem_map.2 ⟨element, he, rfl⟩)

end

theorem le_of_mem_strides {n stride : ℕ} (h : stride ∈ strides n) : stride ≤ n := by
  induction n using strides.induct with
  | case1 n hn ih =>
    rw [strides, if_pos hn, List.mem_cons] at h
    obtain rfl | h := h
    · exact le_rfl
    · exact (ih h).trans (Nat.div_le_self n 2)
  | case2 n hn =>
    rw [strides, if_neg hn] at h
    cases h

section

variable {s : KVCacheLayerSpec} {base numQ n B : ℕ} {scale : F} {blocks : ℕ → ℕ}

/-- **An invocation of the cooperative shader** computes no index that wraps when the rows fit. -/
theorem values_agree (hp : (Params.ofSpec s base numQ n scale).Fits) (hQ : 0 < numQ) (hn : 0 < n)
    (hdvd : s.numKvHeads ∣ numQ) (hcount : numQ * s.headSize ≤ 2 ^ 32)
    (hrows : ∀ t < n, RowFits s base (blocks (t / s.blockSize)) (t % s.blockSize))
    (hB : 0 < B) (hB' : B ≤ 512) (qHead : ℕ) {outputTile tid : ℕ}
    (htile : outputTile < ceilDiv s.headSize B) (htid : tid < B) :
    ∀ e ∈ values (.ofSpec s base numQ n scale) B blocks qHead outputTile tid, e.Agrees 32 := by
  intro e he
  rw [values] at he
  split_ifs at he with hge
  · cases he
  have hq : (Expr.word qHead).exact < numQ := not_le.1 hge
  have hQ' : numQ < 2 ^ 32 := hp.numQHeads
  have aq : (Expr.word qHead).Agrees 32 := .word (hq.trans hQ')
  have aqBase : (qBase (.ofSpec s base numQ n scale) (.word qHead)).Agrees 32 :=
    qBase_agrees hp s.headSize_pos aq (head_le hcount hq)
  -- the last tile may reach past the head, but by fewer than 512 elements
  have htwo := two_headSize_le_of_rowFits (hrows 0 hn)
  have htile' : outputTile * B < s.headSize := (lt_ceilDiv_iff hB).1 htile
  have aelement : (headElementExpr B outputTile tid).Agrees 32 := by
    have hle : outputTile ≤ outputTile * B := Nat.le_mul_of_pos_right _ hB
    refine .add (.mul (.word (by omega)) (.word (by omega)) ?_) (.word (by omega)) ?_
    · simp only [Expr.exact_word]
      omega
    · simp only [Expr.exact_mul, Expr.exact_word]
      omega
  have hwritten : ∀ e ∈ written (.ofSpec s base numQ n scale) B outputTile tid,
      e.Agrees 32 ∧ e.exact < s.headSize := by
    intro e he
    rw [written] at he
    split_ifs at he with hlt
    · obtain rfl := List.mem_singleton.1 he
      exact ⟨aelement, hlt⟩
    · cases he
  obtain he | he := List.mem_append.1 he
  · obtain he | he := List.mem_append.1 he
    · simp only [List.mem_cons, List.not_mem_nil, or_false] at he
      obtain rfl | rfl | rfl := he
      · exact aelement
      · exact kvHead_agrees hp aq
      · exact aqBase
    · obtain ⟨t, ht, he⟩ := List.mem_flatMap.1 he
      rw [List.mem_range] at ht
      obtain he | he := List.mem_append.1 he
      · refine tokenValues_agree_of_rowFits hp hQ hdvd hcount aq hq ht (hrows t ht) ?_ hwritten e he
        intro d hd
        obtain ⟨j, hj, rfl⟩ := List.mem_range'.1 hd
        have hj : j * B < s.headSize - tid := (lt_ceilDiv_iff hB).1 hj
        rw [Nat.mul_comm B j]
        omega
      · obtain ⟨stride, hstride, rfl⟩ := List.mem_map.1 he
        have hle := le_of_mem_strides (List.mem_filter.1 hstride).1
        refine .add (.word (by omega)) (.word (by omega)) ?_
        simp only [Expr.exact_word]
        omega
  · obtain ⟨element, helement, rfl⟩ := List.mem_map.1 he
    obtain ⟨ae, hlt⟩ := hwritten element helement
    have hhead := head_le hcount hq
    exact aqBase.add ae (lt_of_lt_of_le (Nat.add_lt_add_left hlt _) hhead)

theorem decodeShader_coop_le {name : String} (h : decodeShader name = some (.coop B)) :
    B ≤ 512 := by
  rw [decodeShader] at h
  split_ifs at h <;> cases h <;> decide

end

end Coop

namespace Decode

variable {F : Type}

/-- No index of a dispatched decode wraps, and no block id that is uploaded. -/
def NoWrap [Inhabited F] (op : Op F) : Prop :=
  match op.inputs with
  | [.elems _, .words blocks, .tensor _] =>
    (∀ b ∈ blocks, (Expr.word b).Agrees 32) ∧
      match Coop.decodeShader op.shader with
      | some .plain => ∀ globalIdx ∈ globalIds op.workgroups 256,
        (Expr.word globalIdx).Agrees 32 ∧
          ∀ e ∈ values (Params.ofPc op.pc) (view blocks) globalIdx, e.Agrees 32
      | some (.coop B) => ∀ x < op.workgroups.1, ∀ y < op.workgroups.2.1, ∀ tid < B,
        ∀ e ∈ Coop.values (Params.ofPc op.pc) B (view blocks) x y tid, e.Agrees 32
      | none => False
  | _ => False

/-- The outputs of a decode can be counted, or indexed for a cooperative shader, and the rows of its
tokens fit. -/
def DecodeFits (s : KVCacheLayerSpec) (base coopWorkgroupSize numQ : ℕ) (bt : Tensor ℤ) (n : ℕ) :
    Prop :=
  (if coopWorkgroupSize > 0 then numQ * s.headSize ≤ 2 ^ 32 else numQ * s.headSize < 2 ^ 32) ∧
    ∀ t < n, RowFits s (base / s.dtypeSize) (activeBlocks s bt n (t / s.blockSize))
      (t % s.blockSize)

instance (s : KVCacheLayerSpec) (base coopWorkgroupSize numQ : ℕ) (bt : Tensor ℤ) (n : ℕ) :
    Decidable (DecodeFits s base coopWorkgroupSize numQ bt n) :=
  inferInstanceAs (Decidable (_ ∧ _))

section

variable {s : KVCacheLayerSpec} {base numQ n B : ℕ} {scale : F} {blocks : ℕ → ℕ}

theorem plain_agrees_iff (hp : (Params.ofSpec s base numQ n scale).Fits) (hQ : 0 < numQ)
    (hdvd : s.numKvHeads ∣ numQ) :
    (∀ globalIdx < ceilDiv (numQ * s.headSize) 256 * 256, (Expr.word globalIdx).Agrees 32 ∧
      ∀ e ∈ values (.ofSpec s base numQ n scale) blocks globalIdx, e.Agrees 32) ↔
    numQ * s.headSize < 2 ^ 32 ∧
      ∀ t < n, RowFits s base (blocks (t / s.blockSize)) (t % s.blockSize) := by
  have hD := s.headSize_pos
  have hcount : 0 < numQ * s.headSize := Nat.mul_pos hQ hD
  have hle : numQ * s.headSize ≤ ceilDiv (numQ * s.headSize) 256 * 256 :=
    le_ceilDiv_mul (by decide)
  constructor
  · intro h
    refine ⟨((h 0 (by omega)).2 _ List.mem_cons_self).lt, fun t ht => ?_⟩
    -- the last element of the last head
    have hlast : (numQ - 1) * s.headSize + s.headSize = numQ * s.headSize := by
      rw [← Nat.succ_mul, Nat.succ_eq_add_one, Nat.sub_add_cancel hQ]
    obtain ⟨g, hg⟩ : ∃ g, g = (numQ - 1) * s.headSize + (s.headSize - 1) := ⟨_, rfl⟩
    have hlt : g < numQ * s.headSize := by omega
    have hq : (qHead (.ofSpec s base numQ n scale) g).exact = numQ - 1 := by
      change g / s.headSize = numQ - 1
      rw [hg, Nat.add_comm, Nat.add_mul_div_right _ _ hD, Nat.div_eq_of_lt (by omega), Nat.zero_add]
    have helement : (headElement (.ofSpec s base numQ n scale) g).exact = s.headSize - 1 := by
      change g - (qHead (.ofSpec s base numQ n scale) g).exact * s.headSize = s.headSize - 1
      rw [hq, hg, Nat.add_sub_cancel_left]
    exact rowFits_of_agrees hQ hdvd hq helement
      ((h g (by omega)).2 _ (mem_values (p := .ofSpec s base numQ n scale) hlt ht))
  · rintro ⟨htotal, hrows⟩ g hg
    exact ⟨.word (invocation_lt htotal hg), values_agree hp hQ hdvd htotal hrows g⟩

theorem coop_agrees_iff (hp : (Params.ofSpec s base numQ n scale).Fits) (hQ : 0 < numQ)
    (hn : 0 < n) (hdvd : s.numKvHeads ∣ numQ) (hB : 0 < B) (hB' : B ≤ 512) :
    (∀ x < numQ, ∀ y < ceilDiv s.headSize B, ∀ tid < B,
      ∀ e ∈ Coop.values (.ofSpec s base numQ n scale) B blocks x y tid, e.Agrees 32) ↔
    numQ * s.headSize ≤ 2 ^ 32 ∧
      ∀ t < n, RowFits s base (blocks (t / s.blockSize)) (t % s.blockSize) := by
  have hD := s.headSize_pos
  constructor
  · intro h
    have hlt : s.headSize - 1 < s.headSize := Nat.sub_lt hD Nat.one_pos
    have hagree := h (numQ - 1) (Nat.sub_lt hQ Nat.one_pos) ((s.headSize - 1) / B)
      (div_lt_ceilDiv hB hlt) ((s.headSize - 1) % B) (Nat.mod_lt _ hB)
    -- the last element of the head
    obtain ⟨element, helement⟩ : ∃ e, e = Coop.headElementExpr B ((s.headSize - 1) / B)
      ((s.headSize - 1) % B) := ⟨_, rfl⟩
    have hexact : element.exact = s.headSize - 1 := by
      rw [helement]
      exact Nat.div_add_mod' _ _
    have hwritten : element ∈ Coop.written (.ofSpec s base numQ n scale) B ((s.headSize - 1) / B)
        ((s.headSize - 1) % B) := by
      rw [Coop.written, ← helement, if_pos (hexact.symm ▸ hlt)]
      exact List.mem_singleton.2 rfl
    have hx : numQ - 1 < (Params.ofSpec s base numQ n scale).numQHeads := Nat.sub_lt hQ Nat.one_pos
    constructor
    · have hout := (hagree _ (Coop.output_mem_values hx hwritten)).lt
      rw [Expr.exact_add, hexact] at hout
      change (numQ - 1) * s.headSize + (s.headSize - 1) < 2 ^ 32 at hout
      have hlast : (numQ - 1) * s.headSize + s.headSize = numQ * s.headSize := by
        rw [← Nat.succ_mul, Nat.succ_eq_add_one, Nat.sub_add_cancel hQ]
      omega
    · intro t ht
      exact rowFits_of_agrees hQ hdvd rfl hexact (hagree _ (Coop.value_mem_values hx hwritten ht))
  · rintro ⟨hcount, hrows⟩ x - y hy tid htid
    exact Coop.values_agree hp hQ hn hdvd hcount hrows hB hB' x hy htid

end

/-- **No index of an accepted decode wraps, exactly when its outputs can be counted and its rows
fit.** -/
theorem noWrap_iff [Field F] [Inhabited F] {sqrt : F → F} {L : VulkanPagedKVLayout}
    {tensor : GpuTensor} {s : KVCacheLayerSpec} {base c : ℕ} {name : String} {q : Tensor F}
    {bt : Tensor ℤ} {seqLen : ℤ} {scale : Option F} {op : Op F} {numQ D : ℕ}
    {names : KvOps.DecodeNames} (hn : names ∈ [KvOps.decodeNamesF32, KvOps.decodeNamesF16])
    {avail : List String}
    (hsel : KvOps.selectDecodeShader avail names.plain names.coop names.coop512 s.headSize =
      .ok (name, c))
    (hop : KvOps.buildPagedAttnDecodeOp sqrt L tensor s base name c q bt seqLen scale =
      .ok (op, numQ, D)) : NoWrap op ↔ DecodeFits s base c numQ bt seqLen.toNat := by
  obtain ⟨numQ', n, hQ, hdvd, -, hpos, rfl, -, -, hlen, hrange, hfits, hr⟩ :=
    KvOps.buildPagedAttnDecodeOp_eq_ok.1 hop
  obtain ⟨rfl, rfl, -⟩ : op = _ ∧ numQ = numQ' ∧ D = s.headSize := by
    simpa only [Prod.mk.injEq] using hr
  have hp : (Params.ofSpec s (base / s.dtypeSize) numQ n
      (scale.getD (1 / sqrt s.headSize))).Fits := by
    simp only [List.forall_mem_cons, PcWord.Fits, List.not_mem_nil, false_imp_iff, implies_true,
      and_true] at hfits
    obtain ⟨hn, hQ, hH, hD, hbs, hbase, hPE, hBE⟩ := hfits
    exact ⟨hn, hQ, hH, hD, hbs, hbase, hPE, hBE⟩
  -- the block ids are converted before the dispatch, and each is that of a token
  have hids : (∀ t < n, RowFits s (base / s.dtypeSize) (activeBlocks s bt n (t / s.blockSize))
      (t % s.blockSize)) → ∀ b ∈ (bt.data.take (ceilDiv n s.blockSize)).map Int.toNat,
        (Expr.word b).Agrees 32 := by
    intro hrows
    rw [forall_mem_iff_view, List.length_map, List.length_take, Nat.min_eq_left hlen]
    intro j hj
    have hrow := hrows (j * s.blockSize) ((lt_ceilDiv_iff s.blockSize_pos).1 hj)
    rw [Nat.mul_div_cancel _ s.blockSize_pos] at hrow
    exact .word (block_lt_of_rowFits hrow)
  obtain ⟨hname, rfl⟩ | ⟨k, hk, hname⟩ := Coop.selectDecodeShader_eq_ok hn hsel
  · have hiff := @plain_agrees_iff F s _ numQ n _ (activeBlocks s bt n) hp hQ hdvd
    simp only [NoWrap, hname, DecodeFits, if_neg (lt_irrefl 0), gt_iff_lt, Int.toNat_natCast,
      globalIds_linear, List.mem_range]
    exact ⟨fun h => hiff.1 h.2, fun h => ⟨hids h.2, hiff.2 h⟩⟩
  · have hc : 0 < c := hk ▸ Nat.two_pow_pos k
    have hiff := @coop_agrees_iff F s _ numQ n c _ (activeBlocks s bt n) hp hQ hpos hdvd hc
      (Coop.decodeShader_coop_le hname)
    simp only [NoWrap, hname, DecodeFits, if_pos hc, gt_iff_lt, Int.toNat_natCast]
    exact ⟨fun h => hiff.1 h.2, fun h => ⟨hids h.2, hiff.2 h⟩⟩

end Decode

/-! ### Both builders -/

/-- In a layer that starts at a whole element of a buffer of at most `2 ^ 32` elements, all rows
fit. -/
theorem rowFits_of_totalBytes_le {L : VulkanPagedKVLayout} {s : KVCacheLayerSpec} {k : ℕ}
    (hk : L.layerSpecs[k]? = some s) (hd : s.dtypeSize ∣ L.regionStart k)
    (htotal : L.totalBytes ≤ s.dtypeSize * 2 ^ 32) {block offset : ℕ} (hblock : block < L.numBlocks)
    (hoffset : offset < s.blockSize) : RowFits s (L.regionStart k / s.dtypeSize) block offset := by
  have hept := s.elementsPerToken_pos
  have hle : (offset + 1) * s.elementsPerToken ≤ s.blockSize * s.elementsPerToken :=
    Nat.mul_le_mul_right _ hoffset
  have hlast : offset * s.elementsPerToken + (s.elementsPerToken - 1) < s.planeElements := by
    rw [Nat.add_mul, Nat.one_mul] at hle
    unfold KVCacheLayerSpec.planeElements
    omega
  have hcell := VulkanPagedKVLayout.cell_lt_total hk hd hblock hlast .v
  have hlt := Nat.lt_of_mul_lt_mul_left (hcell.trans_le htotal)
  change L.regionStart k / s.dtypeSize + block * s.blockElements + s.planeElements +
    (offset * s.elementsPerToken + (s.elementsPerToken - 1)) < 2 ^ 32 at hlt
  rw [RowFits, Nat.add_mul, Nat.one_mul]
  omega

section

variable {L : VulkanPagedKVLayout} {cache : GpuTensor} {s : KVCacheLayerSpec} {l : ℕ}

/-- A write into such a buffer does not wrap when its elements can be counted. -/
theorem KvWrite.noWrap_of_totalBytes_le {α : Type} (hs : L.layerSpec l = .ok s)
    (hd : s.dtypeSize ∣ L.regionStart l) (htotal : L.totalBytes ≤ s.dtypeSize * 2 ^ 32)
    {k v : Tensor α} {sm : Tensor ℤ} {name : String} {bar : Bool} {op : Op α}
    (hop : KvOps.buildPagedKvWriteOp L cache s l k v sm name bar = .ok op)
    (hcount : sm.data.length * s.elementsPerToken < 2 ^ 32) : NoWrap op := by
  obtain ⟨_, _, -, -, -, -, hrange, -⟩ := KvOps.buildPagedKvWriteOp_eq_ok.1 hop
  have hk := layerSpec_natCast.1 hs
  refine (noWrap_iff hop (layerBaseOffset_natCast hk)).2 ⟨hcount, fun slot hslot => ?_⟩
  obtain ⟨hpos, hcap⟩ := hrange slot hslot
  rw [capacityTokensPerLayer, ← blockSize_of_layerSpec hs] at hcap
  refine rowFits_of_totalBytes_le hk hd htotal ?_ (Nat.mod_lt _ s.blockSize_pos)
  rw [Nat.div_lt_iff_lt_mul s.blockSize_pos]
  omega

/-- A decode of such a buffer does not wrap when its outputs can be counted. -/
theorem Decode.noWrap_of_totalBytes_le {F : Type} [Field F] [Inhabited F] {sqrt : F → F}
    {names : KvOps.DecodeNames} (hn : names ∈ [KvOps.decodeNamesF32, KvOps.decodeNamesF16])
    {avail : List String} {name : String} {c : ℕ}
    (hsel : KvOps.selectDecodeShader avail names.plain names.coop names.coop512 s.headSize =
      .ok (name, c)) (hs : L.layerSpec l = .ok s) (hd : s.dtypeSize ∣ L.regionStart l)
    (htotal : L.totalBytes ≤ s.dtypeSize * 2 ^ 32) {q : Tensor F} {bt : Tensor ℤ} {seqLen : ℤ}
    {scale : Option F} {op : Op F} {numQ D : ℕ}
    (hop : KvOps.buildPagedAttnDecodeOp sqrt L cache s (L.regionStart l) name c q bt seqLen scale =
      .ok (op, numQ, D)) (hcount : numQ * s.headSize < 2 ^ 32) : NoWrap op := by
  obtain ⟨_, n, -, -, -, -, rfl, -, -, hlen, hrange, -, -⟩ :=
    KvOps.buildPagedAttnDecodeOp_eq_ok.1 hop
  refine (noWrap_iff hn hsel hop).2 ⟨?_, fun t ht => ?_⟩
  · split_ifs
    · exact hcount.le
    · exact hcount
  · rw [Int.toNat_natCast] at ht
    obtain ⟨b, -, hb, hview⟩ := Decode.exists_block hlen hrange ht
    refine rowFits_of_totalBytes_le (layerSpec_natCast.1 hs) hd htotal ?_
      (Nat.mod_lt _ s.blockSize_pos)
    rw [activeBlocks, Int.toNat_natCast, hview]
    exact hb

end

/-- **No index of an accepted write or decode wraps, exactly when its elements can be counted and
the rows of its tokens end within the first `2 ^ 32` elements of the buffer.** -/
theorem paged_noWrap_iff {α F : Type} [Field F] [Inhabited F] :
    (∀ (L : VulkanPagedKVLayout) (cache : GpuTensor) (s : KVCacheLayerSpec) (l : ℤ)
      (k v : Tensor α) (sm : Tensor ℤ) (name : String) (bar : Bool) (op : Op α) (base : ℕ),
      KvOps.buildPagedKvWriteOp L cache s l k v sm name bar = .ok op →
      L.layerBaseOffset l = .ok base →
        (KvWrite.NoWrap op ↔ KvWrite.WriteFits s base sm.data)) ∧
    (∀ names ∈ [KvOps.decodeNamesF32, KvOps.decodeNamesF16], ∀ (avail : List String)
      (name : String) (c : ℕ) (sqrt : F → F) (L : VulkanPagedKVLayout) (cache : GpuTensor)
      (s : KVCacheLayerSpec) (base : ℕ) (q : Tensor F) (bt : Tensor ℤ) (seqLen : ℤ)
      (scale : Option F) (op : Op F) (numQ D : ℕ),
      KvOps.selectDecodeShader avail names.plain names.coop names.coop512 s.headSize =
        .ok (name, c) →
      KvOps.buildPagedAttnDecodeOp sqrt L cache s base name c q bt seqLen scale =
        .ok (op, numQ, D) →
          (Decode.NoWrap op ↔ Decode.DecodeFits s base c numQ bt seqLen.toNat)) :=
  ⟨fun _ _ _ _ _ _ _ _ _ _ _ hop hbase => KvWrite.noWrap_iff hop hbase,
    fun _ hn _ _ _ _ _ _ _ _ _ _ _ _ _ _ _ hsel hop => Decode.noWrap_iff hn hsel hop⟩

/-- Two tokens written to slots `3` and `0`, and two heads decoded over three tokens by the
cooperative shader. -/
theorem paged_noWrap_iff_smallLayout :
    (∃ op : Op ℚ, KvOps.buildPagedKvWriteOp smallLayout ⟨0, 128⟩
        (smallLayout.layerSpecs.getLast (by decide)) (-1) ⟨[2, 2, 1], [1, 2, 3, 4], rfl⟩
        ⟨[2, 2, 1], [5, 6, 7, 8], rfl⟩ ⟨[2], [3, 0], rfl⟩ "paged_kv_write_f32" false = .ok op ∧
      KvWrite.NoWrap op) ∧
    (∃ op, KvOps.buildPagedAttnDecodeOp (id : ℚ → ℚ) smallLayout ⟨0, 128⟩
        (smallLayout.layerSpecs.getLast (by decide)) 64 "paged_attn_decode_f32_coop" 256
        ⟨[2, 1], [1, 2], rfl⟩ ⟨[2], [1, 0], rfl⟩ 3 (some 1) = .ok (op, 2, 1) ∧
      Decode.NoWrap op) := by
  obtain ⟨op, hop⟩ : ∃ op : Op ℚ, KvOps.buildPagedKvWriteOp smallLayout ⟨0, 128⟩
      (smallLayout.layerSpecs.getLast (by decide)) (-1) ⟨[2, 2, 1], [1, 2, 3, 4], rfl⟩
      ⟨[2, 2, 1], [5, 6, 7, 8], rfl⟩ ⟨[2], [3, 0], rfl⟩ "paged_kv_write_f32" false = .ok op :=
    ⟨_, rfl⟩
  obtain ⟨op', hop'⟩ : ∃ op, KvOps.buildPagedAttnDecodeOp (id : ℚ → ℚ) smallLayout ⟨0, 128⟩
      (smallLayout.layerSpecs.getLast (by decide)) 64 "paged_attn_decode_f32_coop" 256
      ⟨[2, 1], [1, 2], rfl⟩ ⟨[2], [1, 0], rfl⟩ 3 (some 1) = .ok (op, 2, 1) := ⟨_, rfl⟩
  obtain ⟨hwrite, hdecode⟩ := @paged_noWrap_iff ℚ ℚ _ _
  exact ⟨⟨op, hop, (hwrite _ _ _ _ _ _ _ _ _ _ 64 hop rfl).2 (by decide)⟩, op', hop',
    (hdecode KvOps.decodeNamesF32 List.mem_cons_self ["paged_attn_decode_f32_coop"] _ _ _ _ _ _ _
      _ _ _ _ _ _ _ rfl hop').2 (by decide)⟩

/-- A layer of one scalar of four bytes per plane of a block. -/
def scalarSpec : KVCacheLayerSpec :=
  ⟨0, 1, 1, 1, 4, Nat.one_pos, Nat.one_pos, Nat.one_pos, KVCacheLayerSpec.four_pos⟩

/-- This layer alone, in `2 ^ 31 + 1` blocks. -/
def hugeLayout : VulkanPagedKVLayout where
  layerSpecs := [scalarSpec]
  numBlocks := 2 ^ 31 + 1
  numBlocks_pos := Nat.succ_pos _
  layerSpecs_ne := by decide
  layerIndex_eq := by decide
  blockSize_eq := by decide

/-- A write of one token to its last slot. -/
def hugeWrite : WriteCall ℚ where
  cache := ⟨0, hugeLayout.totalBytes⟩
  layerIndex := 0
  k := ⟨[1, 1, 1], [1], rfl⟩
  v := ⟨[1, 1, 1], [2], rfl⟩
  slotMapping := ⟨[1], [2 ^ 31], rfl⟩
  shaderName := "paged_kv_write_f32"
  dtypeSize := 4

/-- The write is accepted, its key belongs in cell `2 ^ 32`, and the shader stores it to cell 0, in
the first block. -/
theorem hugeWrite_wraps :
    ∃ op, pagedKvWrite ["paged_kv_write_f32"] hugeLayout hugeWrite = .ok op ∧
      ¬ KvWrite.NoWrap op ∧
      (KvWrite.dst (.ofPc op.pc) (view [2 ^ 31]) 0).exact = 2 ^ 32 ∧
      (KvWrite.dst (.ofPc op.pc) (view [2 ^ 31]) 0).wrapped 32 = 0 := by
  obtain ⟨op, hop⟩ : ∃ op, pagedKvWrite ["paged_kv_write_f32"] hugeLayout hugeWrite = .ok op :=
    ⟨_, rfl⟩
  have hbuild : KvOps.buildPagedKvWriteOp hugeLayout hugeWrite.cache scalarSpec 0 hugeWrite.k
      hugeWrite.v hugeWrite.slotMapping hugeWrite.shaderName false = .ok op := hop
  have hwraps : ¬ KvWrite.WriteFits scalarSpec 0 hugeWrite.slotMapping.data := by decide
  refine ⟨op, hop, fun h => hwraps ((KvWrite.noWrap_iff hbuild rfl).1 h), ?_⟩
  cases hop
  exact ⟨rfl, rfl⟩

end VllmVulkan
