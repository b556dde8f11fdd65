import VllmVulkan.Lib.Dispatch
import VllmVulkan.Lib.Sums
import VllmVulkan.Lib.Softmax
import VllmVulkan.Kv.Ops

/-!
# Paged attention decode

The shader `paged_attn_decode_f32.comp` (and `_f16`, the same program on a half-precision cache):
one invocation per output element scans the whole sequence once, gathering keys and values through
the block table, with an online softmax.  Arithmetic is that of an ordered field with an abstract
exponential, index arithmetic is exact.

* `Decode.main` : one invocation, as the list of its stores;
* `Decode.stores` : all the stores of an op built by `buildPagedAttnDecodeOp` for this shader;
* `Decode.TokenCell` : the cell where the layout places a scalar of token `t` of a block table;
* `Decode.kvBaseForToken_cell` : the shader's gather and the layout's formula agree;
* `Decode.stores_eq` : the stores of an accepted op, one per output;
* `Decode.pagedAttnDecode_correct` : **paged decode is softmax attention over the sequence**.
-/

namespace VllmVulkan

namespace Decode

open Store VulkanPagedKVLayout Softmax Finset

variable {F : Type} [Field F] [LinearOrder F]

/-! ### The shader -/

/-- The push-constant block. -/
structure Params (F : Type) where
  seqLen : ℕ
  numQHeads : ℕ
  numKvHeads : ℕ
  headSize : ℕ
  blockSize : ℕ
  layerBaseElements : ℕ
  planeElementsPerBlock : ℕ
  blockElements : ℕ
  scale : F

/-- The block as the shader reads it from the packed words. -/
def Params.ofPc [Inhabited F] (pc : List (PcWord F)) : Params F where
  seqLen := PcWord.u32At pc 0
  numQHeads := PcWord.u32At pc 1
  numKvHeads := PcWord.u32At pc 2
  headSize := PcWord.u32At pc 3
  blockSize := PcWord.u32At pc 4
  layerBaseElements := PcWord.u32At pc 5
  planeElementsPerBlock := PcWord.u32At pc 6
  blockElements := PcWord.u32At pc 7
  scale := PcWord.f32At pc 8

/-- `kv_base_for_token`. -/
def kvBaseForToken (p : Params F) (blocks : ℕ → ℕ) (tokenIdx kvHead : ℕ) : ℕ :=
  let logicalBlockId := tokenIdx / p.blockSize
  let tokenOffsetInBlock := tokenIdx - logicalBlockId * p.blockSize
  let physicalBlockId := blocks logicalBlockId
  let elementsPerToken := p.numKvHeads * p.headSize
  p.layerBaseElements + physicalBlockId * p.blockElements +
    tokenOffsetInBlock * elementsPerToken + kvHead * p.headSize

/-- The initial running maximum, `-3.402823466e+38`. -/
def negFltMax : F := -(3402823466 * 10 ^ 29)

/-- `main`: the stores of the invocation `globalIdx` into the output. -/
def main (E : ExpFn F) (p : Params F) (q : ℕ → F) (blocks : ℕ → ℕ) (cache : ℕ → F)
    (globalIdx : ℕ) : List (ℕ × F) :=
  let totalElements := p.numQHeads * p.headSize
  if globalIdx ≥ totalElements then [] else
  let qHead := globalIdx / p.headSize
  let headElement := globalIdx - qHead * p.headSize
  let gqaRatio := p.numQHeads / p.numKvHeads
  let kvHead := qHead / gqaRatio
  let qBase := qHead * p.headSize
  let st := (List.range p.seqLen).foldl (fun st tokenIdx =>
    let kvBase := kvBaseForToken p blocks tokenIdx kvHead
    let dot := (List.range p.headSize).foldl
      (fun dot d => dot + q (qBase + d) * cache (kvBase + d)) 0
    Online.step E st (dot * p.scale) (cache (kvBase + p.planeElementsPerBlock + headElement)))
    ⟨negFltMax, 0, 0⟩
  [(globalIdx, st.result)]

/-- The stores of a dispatched decode op, in the order of its invocations. -/
def stores [Inhabited F] (E : ExpFn F) (op : Op F) (cache : ℕ → F) : List (ℕ × F) :=
  match op.inputs with
  | [.elems q, .words blocks, .tensor _] =>
    (globalIds op.workgroups 256).flatMap
      (main E (Params.ofPc op.pc) (view q) (view blocks) cache)
  | _ => []

/-- The logit of token `t` for query head `qh`, as the scan computes it. -/
def scanLogit (p : Params F) (q : ℕ → F) (blocks : ℕ → ℕ) (cache : ℕ → F) (qh t : ℕ) : F :=
  (∑ i ∈ range p.headSize, q (qh * p.headSize + i) *
    cache (kvBaseForToken p blocks t (qh / (p.numQHeads / p.numKvHeads)) + i)) * p.scale

/-- Element `e` of the value of token `t` for query head `qh`, as the scan reads it. -/
def scanValue (p : Params F) (blocks : ℕ → ℕ) (cache : ℕ → F) (qh e t : ℕ) : F :=
  cache (kvBaseForToken p blocks t (qh / (p.numQHeads / p.numKvHeads)) +
    p.planeElementsPerBlock + e)

/-- The result of the scan for element `e` of query head `qh`. -/
def scan (E : ExpFn F) (p : Params F) (q : ℕ → F) (blocks : ℕ → ℕ) (cache : ℕ → F)
    (qh e : ℕ) : F :=
  (Online.run E negFltMax (scanLogit p q blocks cache qh) (scanValue p blocks cache qh e)
    p.seqLen).result

theorem main_eq_scan (E : ExpFn F) {p : Params F} {qh e : ℕ} (hqh : qh < p.numQHeads)
    (he : e < p.headSize) (q : ℕ → F) (blocks : ℕ → ℕ) (cache : ℕ → F) :
    main E p q blocks cache (qh * p.headSize + e) =
      [(qh * p.headSize + e, scan E p q blocks cache qh e)] := by
  have hle : (qh + 1) * p.headSize ≤ p.numQHeads * p.headSize := Nat.mul_le_mul_right _ hqh
  rw [Nat.add_mul, Nat.one_mul] at hle
  have hlt : ¬ qh * p.headSize + e ≥ p.numQHeads * p.headSize := by omega
  have hdiv : (qh * p.headSize + e) / p.headSize = qh := by
    rw [Nat.add_comm, Nat.add_mul_div_right _ _ (by omega), Nat.div_eq_of_lt he, Nat.zero_add]
  simp only [main, if_neg hlt, hdiv, Nat.add_sub_cancel_left, foldl_range_add, zero_add]
  rfl

/-- **The dispatch of the plain shader stores every output once.** -/
theorem flatMap_main (E : ExpFn F) (p : Params F) (q : ℕ → F) (blocks : ℕ → ℕ) (cache : ℕ → F) :
    (globalIds (ceilDiv (p.numQHeads * p.headSize) 256, 1, 1) 256).flatMap
        (main E p q blocks cache) =
      (List.range p.numQHeads).flatMap fun qh => (List.range p.headSize).map fun e =>
        (qh * p.headSize + e, scan E p q blocks cache qh e) := by
  rw [globalIds_linear, flatMap_range_guard (le_ceilDiv_mul (by decide)), flatMap_range_mul]
  · refine List.flatMap_congr ?_
    intro qh hqh
    refine (List.flatMap_congr fun e he => ?_).trans List.map_eq_flatMap.symm
    exact main_eq_scan E (List.mem_range.1 hqh) (List.mem_range.1 he) _ _ _
  · intro i hi
    simp [main, hi]

theorem map_fst_main (E : ExpFn F) (p : Params F) (q : ℕ → F) (blocks : ℕ → ℕ) (cache : ℕ → F) :
    ((globalIds (ceilDiv (p.numQHeads * p.headSize) 256, 1, 1) 256).flatMap
      (main E p q blocks cache)).map Prod.fst = List.range (p.numQHeads * p.headSize) := by
  rw [flatMap_main, List.map_flatMap, ← range_mul]
  simp only [List.map_map]
  rfl

/-! ### The cells of a token -/

/-- The cell where the layout places element `e` of head `h` of token `t`, in plane `p`: the token
is in entry `t / block_size` of the block table, at offset `t % block_size`. -/
def TokenCell (L : VulkanPagedKVLayout) (l : ℤ) (d : ℕ) (bt : Tensor ℤ) (t h e : ℕ)
    (p : KVPlane) (c : ℕ) : Prop :=
  ∃ (b : ℤ) (off : ℕ), bt.data[t / L.blockSize]? = some b ∧
    L.tokenOffset l b (t % L.blockSize : ℕ) h e p.name = .ok off ∧ off < L.totalBytes ∧ off = d * c

section

variable {L : VulkanPagedKVLayout} {l : ℤ} {s : KVCacheLayerSpec} {base n : ℕ} {bt : Tensor ℤ}

/-- The block holding token `t`, as the shader reads it. -/
theorem exists_block (hlen : ceilDiv n s.blockSize ≤ bt.data.length)
    (hrange : ∀ b ∈ bt.data.take (ceilDiv n s.blockSize), 0 ≤ b ∧ b < L.numBlocks) {t : ℕ}
    (ht : t < n) : ∃ b : ℕ, bt.data[t / s.blockSize]? = some (b : ℤ) ∧ b < L.numBlocks ∧
      view ((bt.data.take (ceilDiv n s.blockSize)).map Int.toNat) (t / s.blockSize) = b := by
  have hlt := div_lt_ceilDiv s.blockSize_pos ht
  have hget := List.getElem?_eq_getElem (lt_of_lt_of_le hlt hlen)
  have hmem : bt.data[t / s.blockSize] ∈ bt.data.take (ceilDiv n s.blockSize) :=
    List.mem_take_iff_getElem.2 ⟨_, by simpa using ⟨hlt, lt_of_lt_of_le hlt hlen⟩, rfl⟩
  obtain ⟨h₀, hb⟩ := hrange _ hmem
  refine ⟨bt.data[t / s.blockSize].toNat, ?_, by omega, ?_⟩
  · rw [hget, Int.toNat_of_nonneg h₀]
  · simp [view, List.getD_eq_getElem?_getD, hlt, hget]

omit [Field F] [LinearOrder F] in
/-- **The shader's gather is the layout's formula.** -/
theorem kvBaseForToken_cell (s : KVCacheLayerSpec) (n numQ base : ℕ) (scale : F)
    (blocks : ℕ → ℕ) (t h e : ℕ) :
    let p : Params F := ⟨n, numQ, s.numKvHeads, s.headSize, s.blockSize, base, s.planeElements,
      s.blockElements, scale⟩
    kvBaseForToken p blocks t h + e =
        cellIndex s base (blocks (t / s.blockSize)) (t % s.blockSize) h e .k ∧
      kvBaseForToken p blocks t h + p.planeElementsPerBlock + e =
        cellIndex s base (blocks (t / s.blockSize)) (t % s.blockSize) h e .v := by
  have hmod : t - t / s.blockSize * s.blockSize = t % s.blockSize := by
    rw [Nat.mod_eq_sub_div_mul]
  simp only [kvBaseForToken, hmod, cellIndex, planeShift, scalarIndex]
  constructor <;> ring

theorem tokenCell_cellIndex (hs : L.layerSpec l = .ok s) {j : ℕ} (hj : L.layerSpecs[j]? = some s)
    (hbase : L.layerBaseOffset l = .ok (L.regionStart j)) (hd : s.dtypeSize ∣ L.regionStart j)
    {t b : ℕ} (hb : bt.data[t / s.blockSize]? = some (b : ℤ)) (hlt : b < L.numBlocks) {h e : ℕ}
    (hh : h < s.numKvHeads) (he : e < s.headSize) (p : KVPlane) :
    TokenCell L l s.dtypeSize bt t h e p
      (cellIndex s (L.regionStart j / s.dtypeSize) b (t % s.blockSize) h e p) := by
  refine ⟨b, _, by rw [← blockSize_of_layerSpec hs]; exact hb, ?_, ?_, rfl⟩
  · rw [← blockSize_of_layerSpec hs]
    exact tokenOffset_cell hs hbase hd hlt (Nat.mod_lt _ s.blockSize_pos) hh he p
  · exact cell_lt_total hj hd hlt (scalarIndex_lt (Nat.mod_lt _ s.blockSize_pos) hh he) p

end

/-! ### The stores of an accepted op -/

/-- The logit of token `t` for query head `qh`. -/
def logit (s : KVCacheLayerSpec) (base numQ : ℕ) (scale : F) (q : ℕ → F) (blocks : ℕ → ℕ)
    (cache : ℕ → F) (qh t : ℕ) : F :=
  (∑ i ∈ range s.headSize, q (qh * s.headSize + i) *
    cache (cellIndex s base (blocks (t / s.blockSize)) (t % s.blockSize)
      (qh / (numQ / s.numKvHeads)) i .k)) * scale

/-- Element `e` of the value of token `t` for query head `qh`. -/
def value (s : KVCacheLayerSpec) (base numQ : ℕ) (blocks : ℕ → ℕ) (cache : ℕ → F)
    (qh e t : ℕ) : F :=
  cache (cellIndex s base (blocks (t / s.blockSize)) (t % s.blockSize)
    (qh / (numQ / s.numKvHeads)) e .v)

/-- The output of the invocation for element `e` of query head `qh`. -/
def output (E : ExpFn F) (s : KVCacheLayerSpec) (n base numQ : ℕ) (scale : F) (q : ℕ → F)
    (blocks : ℕ → ℕ) (cache : ℕ → F) (qh e : ℕ) : F :=
  attend E n (logit s base numQ scale q blocks cache qh) (value s base numQ blocks cache qh e)

variable [IsStrictOrderedRing F]

/-- **The scan computes one attention output.** -/
theorem scan_eq (E : ExpFn F) (s : KVCacheLayerSpec) {n : ℕ} (hn : 0 < n) (numQ base : ℕ)
    (scale : F) (q : ℕ → F) (blocks : ℕ → ℕ) (cache : ℕ → F) (qh e : ℕ) :
    scan E ⟨n, numQ, s.numKvHeads, s.headSize, s.blockSize, base, s.planeElements,
        s.blockElements, scale⟩ q blocks cache qh e =
      output E s n base numQ scale q blocks cache qh e := by
  rw [scan, Online.result_run E hn, output]
  refine attend_congr E (fun t _ => ?_) fun t _ => ?_
  · simp only [scanLogit, logit, (kvBaseForToken_cell s n numQ base scale blocks t _ _).1]
  · simp only [scanValue, value]
    exact congrArg cache (kvBaseForToken_cell s n numQ base scale blocks t _ _).2

section

variable [Inhabited F] {E : ExpFn F} {sqrt : F → F} {L : VulkanPagedKVLayout} {tensor : GpuTensor}
  {s : KVCacheLayerSpec} {l : ℤ} {base : ℕ} {name : String} {q : Tensor F} {bt : Tensor ℤ}
  {seqLen : ℤ} {scale : Option F} {op : Op F} {numQ D : ℕ}

omit [Field F] [LinearOrder F] [IsStrictOrderedRing F] in
/-- An element of a `[num_q, D]` query, as the shader indexes it. -/
theorem get?_query (hq : q.shape = [numQ, D]) {qh e : ℕ} (hqh : qh < numQ) (he : e < D) :
    q.get? [qh, e] = some (view q.data (qh * D + e)) := by
  have hle : (qh + 1) * D ≤ numQ * D := Nat.mul_le_mul_right _ hqh
  have hlen : q.data.length = numQ * D := by simp [q.length_data, hq]
  rw [Nat.add_mul, Nat.one_mul] at hle
  simp only [Tensor.get?, Tensor.flatIndex, hq, List.zip_cons_cons, List.zip_nil_right,
    List.foldl_cons, List.foldl_nil, Nat.zero_mul, Nat.zero_add]
  exact view_eq (by omega)

/-- The block table, as the shader indexes it. -/
def activeBlocks (s : KVCacheLayerSpec) (bt : Tensor ℤ) (n : ℕ) : ℕ → ℕ :=
  view ((bt.data.take (ceilDiv n s.blockSize)).map Int.toNat)

/-- **The dispatch of an accepted decode stores every output once.** -/
theorem stores_eq (hop : KvOps.buildPagedAttnDecodeOp sqrt L tensor s base name 0 q bt seqLen
    scale = .ok (op, numQ, D)) (cache : ℕ → F) :
    stores E op cache = (List.range numQ).flatMap fun qh => (List.range s.headSize).map fun e =>
      (qh * s.headSize + e, output E s seqLen.toNat (base / s.dtypeSize) numQ
        (scale.getD (1 / sqrt s.headSize)) (view q.data) (activeBlocks s bt seqLen.toNat) cache
        qh e) := by
  obtain ⟨numQ', n, hQ, -, -, hn, rfl, -, -, -, -, -, hr⟩ :=
    KvOps.buildPagedAttnDecodeOp_eq_ok.1 hop
  obtain ⟨rfl, rfl, rfl⟩ : op = _ ∧ numQ = numQ' ∧ D = s.headSize := by
    simpa only [Prod.mk.injEq] using hr
  rw [stores, if_neg (lt_irrefl 0)]
  refine (flatMap_main E _ _ _ _).trans ?_
  refine List.flatMap_congr fun qh _ => List.map_congr_left fun e _ => ?_
  exact Prod.ext rfl (scan_eq E s hn numQ _ _ _ _ _ qh e)

omit [IsStrictOrderedRing F] in
theorem map_fst_stores (hop : KvOps.buildPagedAttnDecodeOp sqrt L tensor s base name 0 q bt seqLen
    scale = .ok (op, numQ, D)) (cache : ℕ → F) :
    (stores E op cache).map Prod.fst = List.range (numQ * s.headSize) := by
  obtain ⟨numQ', n, -, -, -, -, rfl, -, -, -, -, -, hr⟩ :=
    KvOps.buildPagedAttnDecodeOp_eq_ok.1 hop
  obtain ⟨rfl, rfl, rfl⟩ : op = _ ∧ numQ = numQ' ∧ D = s.headSize := by
    simpa only [Prod.mk.injEq] using hr
  rw [stores, if_neg (lt_irrefl 0)]
  exact map_fst_main E _ _ _ _

/-- **Paged decode is softmax attention.**  In a layout of one element size, an accepted decode
writes each of the `num_q * head_size` outputs once and nothing else; output `(qh, e)` is the
softmax of the scaled products of query head `qh` with the keys of tokens `0, …, seq_len - 1`,
applied to element `e` of their values, in one pass as in two, where every scalar of a token is
read at the cell the layout gives it, for K/V head `qh / (num_q / num_kv)`; and no other cell of
the cache has any influence. -/
theorem pagedAttnDecode_correct {d : ℕ} (hd : ∀ s ∈ L.layerSpecs, s.dtypeSize = d)
    (hs : L.layerSpec l = .ok s) (hbase : L.layerBaseOffset l = .ok base)
    (hop : KvOps.buildPagedAttnDecodeOp sqrt L tensor s base name 0 q bt seqLen scale =
      .ok (op, numQ, D)) :
    (∀ cache, (stores E op cache).map Prod.fst = List.range (numQ * s.headSize)) ∧
    (∀ qh < numQ, ∀ e < s.headSize, ∃ (Q : ℕ → F) (kc : ℕ → ℕ → ℕ) (vc : ℕ → ℕ),
      (∀ i < s.headSize, q.get? [qh, i] = some (Q i)) ∧
      (∀ t < seqLen.toNat, ∀ i < s.headSize,
        TokenCell L l d bt t (qh / (numQ / s.numKvHeads)) i .k (kc t i)) ∧
      (∀ t < seqLen.toNat, TokenCell L l d bt t (qh / (numQ / s.numKvHeads)) e .v (vc t)) ∧
      ∀ cache out out', Runs out (stores E op cache) out' →
        let x := fun t => scale.getD (1 / sqrt s.headSize) *
          ∑ i ∈ range s.headSize, Q i * cache (kc t i)
        let v := fun t => cache (vc t)
        out' (qh * s.headSize + e) = attend E seqLen.toNat x v ∧
          ∀ m, out' (qh * s.headSize + e) = twoPass E m seqLen.toNat x v) ∧
    (∀ cache cache', (∀ t < seqLen.toNat, ∀ h < s.numKvHeads, ∀ e < s.headSize, ∀ p c,
      TokenCell L l d bt t h e p c → cache c = cache' c) →
      stores E op cache = stores E op cache') := by
  obtain ⟨numQ', n, hQ, hdvd, hq, hn, rfl, -, -, hlen, hrange, -, hr⟩ :=
    KvOps.buildPagedAttnDecodeOp_eq_ok.1 hop
  obtain ⟨-, rfl, -⟩ : op = _ ∧ numQ = numQ' ∧ D = s.headSize := by
    simpa only [Prod.mk.injEq] using hr
  obtain rfl : s.dtypeSize = d := hd s (mem_of_layerSpec hs)
  obtain ⟨j, hj, hbase'⟩ := exists_layerBaseOffset hs
  obtain rfl : base = L.regionStart j := by rw [hbase] at hbase'; exact Except.ok.inj hbase'
  have hdvd' : s.dtypeSize ∣ L.regionStart j := dvd_regionStart hd j
  have hkv : ∀ {qh}, qh < numQ → qh / (numQ / s.numKvHeads) < s.numKvHeads := by
    intro qh hqh
    rw [Nat.div_lt_iff_lt_mul (Nat.div_pos (Nat.le_of_dvd hQ hdvd) s.numKvHeads_pos),
      Nat.mul_div_cancel' hdvd]
    exact hqh
  -- the cells the shader reads are the cells of the layout
  have hcell : ∀ t < n, ∀ h < s.numKvHeads, ∀ e < s.headSize, ∀ p,
      TokenCell L l s.dtypeSize bt t h e p (cellIndex s (L.regionStart j / s.dtypeSize)
        (activeBlocks s bt n (t / s.blockSize)) (t % s.blockSize) h e p) := by
    intro t ht h hh e he p
    obtain ⟨b, hb, hlt, hview⟩ := exists_block hlen hrange ht
    rw [activeBlocks, hview]
    exact tokenCell_cellIndex hs hj hbase hdvd' hb hlt hh he p
  have hstores := stores_eq (E := E) hop
  simp only [Int.toNat_natCast] at hstores
  refine ⟨map_fst_stores hop, fun qh hqh e he => ?_, fun cache cache' h => ?_⟩
  · refine ⟨fun i => view q.data (qh * s.headSize + i),
      fun t i => cellIndex s (L.regionStart j / s.dtypeSize)
        (activeBlocks s bt n (t / s.blockSize)) (t % s.blockSize)
        (qh / (numQ / s.numKvHeads)) i .k,
      fun t => cellIndex s (L.regionStart j / s.dtypeSize)
        (activeBlocks s bt n (t / s.blockSize)) (t % s.blockSize)
        (qh / (numQ / s.numKvHeads)) e .v, fun i hi => ?_, fun t ht i hi => ?_, fun t ht => ?_,
      fun cache out out' hrun => ?_⟩
    · exact get?_query hq hqh hi
    · exact hcell t ht _ (hkv hqh) i hi .k
    · exact hcell t ht _ (hkv hqh) e he .v
    · have hmem : (qh * s.headSize + e, output E s n (L.regionStart j / s.dtypeSize) numQ
          (scale.getD (1 / sqrt s.headSize)) (view q.data) (activeBlocks s bt n) cache qh e) ∈
          stores E op cache := by
        rw [hstores]
        exact List.mem_flatMap.2 ⟨qh, List.mem_range.2 hqh,
          List.mem_map.2 ⟨e, List.mem_range.2 he, rfl⟩⟩
      have hnodup : ((stores E op cache).map Prod.fst).Nodup := by
        rw [map_fst_stores hop]; exact List.nodup_range
      have hout := hrun.of_mem hnodup hmem
      have hx : ∀ t, logit s (L.regionStart j / s.dtypeSize) numQ
          (scale.getD (1 / sqrt s.headSize)) (view q.data) (activeBlocks s bt n) cache qh t =
          _ := fun t => mul_comm _ _
      simp only [twoPass_eq, hout, forall_const, and_self, output]
      exact attend_congr E (fun t _ => hx t) fun t _ => rfl
  · rw [hstores, hstores]
    refine List.flatMap_congr fun qh hqh => List.map_congr_left fun e he => ?_
    rw [List.mem_range] at hqh he
    have hc : ∀ t < n, ∀ i < s.headSize, ∀ p, cache (cellIndex s (L.regionStart j / s.dtypeSize)
        (activeBlocks s bt n (t / s.blockSize)) (t % s.blockSize)
        (qh / (numQ / s.numKvHeads)) i p) = cache' _ := fun t ht i hi p =>
      h t ht _ (hkv hqh) i hi p _ (hcell t ht _ (hkv hqh) i hi p)
    refine Prod.ext rfl (attend_congr E (fun t ht => ?_) fun t ht => hc t ht e he .v)
    exact congrArg (· * _) (sum_congr rfl fun i hi => by rw [hc t ht i (mem_range.1 hi)])

end

/-- Two query heads over a sequence of three tokens in blocks `1` and `0`: output `(1, 0)` attends
to the tokens of K/V head `1`. -/
theorem pagedAttnDecode_correct_smallLayout :
    ∃ op, KvOps.buildPagedAttnDecodeOp (id : ℝ → ℝ) smallLayout ⟨0, 128⟩
        (smallLayout.layerSpecs.getLast (by decide)) 64 "paged_attn_decode_f32" 0
        ⟨[2, 1], [1, 2], rfl⟩ ⟨[2], [1, 0], rfl⟩ 3 (some (1 / 2)) = .ok (op, 2, 1) ∧
      ∃ (Q : ℕ → ℝ) (kc : ℕ → ℕ → ℕ) (vc : ℕ → ℕ),
        (∀ i < 1, (⟨[2, 1], [1, 2], rfl⟩ : Tensor ℝ).get? [1, i] = some (Q i)) ∧
        (∀ t < 3, ∀ i < 1, TokenCell smallLayout (-1) 4 ⟨[2], [1, 0], rfl⟩ t 1 i .k (kc t i)) ∧
        (∀ t < 3, TokenCell smallLayout (-1) 4 ⟨[2], [1, 0], rfl⟩ t 1 0 .v (vc t)) ∧
        ∀ cache out, applyStores out (stores ExpFn.real op cache) 1 =
          attend ExpFn.real 3 (fun t => 1 / 2 * ∑ i ∈ range 1, Q i * cache (kc t i))
            fun t => cache (vc t) := by
  obtain ⟨op, hop⟩ : ∃ op, KvOps.buildPagedAttnDecodeOp (id : ℝ → ℝ) smallLayout ⟨0, 128⟩
      (smallLayout.layerSpecs.getLast (by decide)) 64 "paged_attn_decode_f32" 0
      ⟨[2, 1], [1, 2], rfl⟩ ⟨[2], [1, 0], rfl⟩ 3 (some (1 / 2)) = .ok (op, 2, 1) := ⟨_, rfl⟩
  have hd : ∀ s ∈ smallLayout.layerSpecs, s.dtypeSize = 4 := by decide
  have hs : smallLayout.layerSpec (-1) = .ok (smallLayout.layerSpecs.getLast (by decide)) := rfl
  have hbase : smallLayout.layerBaseOffset (-1) = .ok 64 := rfl
  obtain ⟨-, h, -⟩ := pagedAttnDecode_correct (E := ExpFn.real) hd hs hbase hop
  obtain ⟨Q, kc, vc, hQ, hk, hv, hout⟩ := h 1 (by decide) 0 (by decide)
  exact ⟨op, hop, Q, kc, vc, hQ, hk, hv, fun cache out => (hout cache out _ (Runs.refl _ _)).1⟩

end Decode

end VllmVulkan
