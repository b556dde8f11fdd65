import VllmVulkan.Kv.Batch

/-!
# The coordinates a layout accepts

Every coordinate of an offset is checked by another function of the chain `slot_offset`,
`token_offset`, `plane_base_offset`, `block_base_offset`, and the layer by a Python tuple lookup.
The writes and decodes look up their layer the same way.

* `Query`, `Query.answer` : the four offsets, on arbitrary integers;
* `Query.InRange` : the coordinates besides the layer are in their range;
* `pagedKvWrite`, `pagedAttnDecode` : the two calls, up to the batch they submit;
* `answer_ok_iff`, `answer_onlyValueErrors` : what is accepted, and what is raised otherwise;
* `Call.Meets` : a call is accepted exactly when its coordinates exist;
* `meets_iff` : **so is every call but those whose layer counts from the end**;
* `lastLayer_aliased` : one of these.
-/

namespace VllmVulkan

namespace VulkanPagedKVLayout

open KvOps

/-- `num_layers`. -/
def numLayers (L : VulkanPagedKVLayout) : ℕ := L.layerSpecs.length

/-! ### The offsets -/

/-- A question for an offset. -/
inductive Query where
  | tokenOffset (layerIndex physicalBlockId tokenOffsetInBlock kvHead headElement : ℤ)
    (plane : String)
  | slotOffset (layerIndex slot kvHead headElement : ℤ) (plane : String)
  | planeBaseOffset (layerIndex physicalBlockId : ℤ) (plane : String)
  | blockBaseOffset (layerIndex physicalBlockId : ℤ)
  deriving DecidableEq, Repr

namespace Query

/-- Its `layer_index`. -/
def layerIndex : Query → ℤ
  | .tokenOffset l .. | .slotOffset l .. | .planeBaseOffset l .. | .blockBaseOffset l _ => l

/-- What the layout answers. -/
def answer (L : VulkanPagedKVLayout) : Query → Py ℕ
  | .tokenOffset l b t h e plane => L.tokenOffset l b t h e plane
  | .slotOffset l slot h e plane => L.slotOffset l slot h e plane
  | .planeBaseOffset l b plane => L.planeBaseOffset l b plane
  | .blockBaseOffset l b => L.blockBaseOffset l b

/-- The coordinates besides the layer are in their range, for a layer of shape `s`. -/
def InRange (L : VulkanPagedKVLayout) (s : KVCacheLayerSpec) : Query → Prop
  | .tokenOffset _ b t h e plane => (0 ≤ b ∧ b < L.numBlocks) ∧ (0 ≤ t ∧ t < s.blockSize) ∧
      (0 ≤ h ∧ h < s.numKvHeads) ∧ (0 ≤ e ∧ e < s.headSize) ∧ (plane = "k" ∨ plane = "v")
  | .slotOffset _ slot h e plane => (0 ≤ slot ∧ slot < L.capacityTokensPerLayer) ∧
      (0 ≤ h ∧ h < s.numKvHeads) ∧ (0 ≤ e ∧ e < s.headSize) ∧ (plane = "k" ∨ plane = "v")
  | .planeBaseOffset _ b plane => (0 ≤ b ∧ b < L.numBlocks) ∧ (plane = "k" ∨ plane = "v")
  | .blockBaseOffset _ b => 0 ≤ b ∧ b < L.numBlocks

end Query

/-! ### The calls -/

variable {F : Type} [Field F]

/-- A call of `_paged_kv_write`. -/
structure WriteCall (F : Type) where
  cache : GpuTensor
  layerIndex : ℤ
  k : Tensor F
  v : Tensor F
  slotMapping : Tensor ℤ
  shaderName : String
  dtypeSize : ℕ

omit [Field F] in
/-- `_paged_kv_write`: the op it submits. -/
def pagedKvWrite (availableShaders : List String) (L : VulkanPagedKVLayout) (w : WriteCall F) :
    Py (Op F) := do
  let spec ← L.layerSpec w.layerIndex
  requireShader availableShaders w.shaderName
  validateCacheBuffer w.cache L
  validateLayoutDtype spec.dtypeSize w.dtypeSize w.shaderName
  buildPagedKvWriteOp L w.cache spec w.layerIndex w.k w.v w.slotMapping w.shaderName false

/-- A call of `_paged_attn_decode`. -/
structure DecodeCall (F : Type) where
  cache : GpuTensor
  layerIndex : ℤ
  q : Tensor F
  blockTable : Tensor ℤ
  seqLen : ℤ
  scale : Option F
  names : DecodeNames
  dtypeSize : ℕ

/-- `_paged_attn_decode`: the op it submits, with `num_q_heads` and `head_size`. -/
def pagedAttnDecode (sqrt : F → F) (availableShaders : List String) (L : VulkanPagedKVLayout)
    (d : DecodeCall F) : Py (Op F × ℕ × ℕ) := do
  let (dispatchShaderName, coopWorkgroupSize, spec, layerBaseOffset) ←
    resolvePagedAttnDecodeDispatch availableShaders L d.cache d.layerIndex d.names d.dtypeSize
  buildPagedAttnDecodeOp sqrt L d.cache spec layerBaseOffset dispatchShaderName coopWorkgroupSize
    d.q d.blockTable d.seqLen d.scale

/-- The push constants of a layer fit their fields. -/
def PcFits (L : VulkanPagedKVLayout) (j : ℕ) (s : KVCacheLayerSpec) : Prop :=
  s.numKvHeads < 2 ^ 32 ∧ s.headSize < 2 ^ 32 ∧ s.blockSize < 2 ^ 32 ∧
    L.regionStart j / s.dtypeSize < 2 ^ 32 ∧ s.planeElements < 2 ^ 32 ∧ s.blockElements < 2 ^ 32

/-- The arguments of a write besides the layer are accepted, for layer `j` of shape `s`. -/
structure WriteCall.OthersAccepted (availableShaders : List String) (L : VulkanPagedKVLayout)
    (w : WriteCall F) (j : ℕ) (s : KVCacheLayerSpec) : Prop where
  shader : w.shaderName ∈ availableShaders
  cache : L.totalBytes ≤ w.cache.nbytes
  dtype : s.dtypeSize = w.dtypeSize
  pc : L.PcFits j s
  tokens : ∃ T, 0 < T ∧ T < 2 ^ 32 ∧ w.k.shape = [T, s.numKvHeads, s.headSize] ∧
    w.v.shape = w.k.shape ∧ w.slotMapping.shape = [T] ∧
    ∀ slot ∈ w.slotMapping.data, 0 ≤ slot ∧ slot < L.capacityTokensPerLayer

/-- The arguments of a decode besides the layer are accepted, for layer `j` of shape `s`. -/
structure DecodeCall.OthersAccepted (availableShaders : List String) (L : VulkanPagedKVLayout)
    (d : DecodeCall F) (j : ℕ) (s : KVCacheLayerSpec) : Prop where
  shader : d.names.plain ∈ availableShaders ∨ d.names.coop ∈ availableShaders ∨
    d.names.coop512 ∈ availableShaders
  cache : L.totalBytes ≤ d.cache.nbytes
  dtype : s.dtypeSize = d.dtypeSize
  pc : L.PcFits j s
  heads : ∃ numQ, 0 < numQ ∧ numQ < 2 ^ 32 ∧ s.numKvHeads ∣ numQ ∧ d.q.shape = [numQ, s.headSize]
  tokens : ∃ n : ℕ, 0 < n ∧ n < 2 ^ 32 ∧ d.seqLen = n ∧ n ≤ L.capacityTokensPerLayer ∧
    d.blockTable.shape.length = 1 ∧ ceilDiv n s.blockSize ≤ d.blockTable.data.length ∧
    ∀ b ∈ d.blockTable.data.take (ceilDiv n s.blockSize), 0 ≤ b ∧ b < L.numBlocks

/-! ### What the offsets accept -/

variable {L : VulkanPagedKVLayout} {l b : ℤ} {s : KVCacheLayerSpec}

theorem blockBaseOffset_ok_iff : (∃ off, L.blockBaseOffset l b = .ok off) ↔
    ∃ s, L.layerSpec l = .ok s ∧ 0 ≤ b ∧ b < L.numBlocks := by
  simp only [blockBaseOffset, Py.bind_eq_ok, raiseIf_eq_ok, Py.pure_eq_ok, not_not]
  constructor
  · rintro ⟨_, s, hs, -, hb, -⟩
    exact ⟨s, hs, hb⟩
  · rintro ⟨s, hs, hb⟩
    obtain ⟨k, -, hbase⟩ := exists_layerBaseOffset hs
    exact ⟨_, s, hs, (), hb, _, hbase, rfl⟩

theorem planeBaseOffset_ok_iff {plane : String} : (∃ off, L.planeBaseOffset l b plane = .ok off) ↔
    ∃ s, L.layerSpec l = .ok s ∧ (0 ≤ b ∧ b < L.numBlocks) ∧ (plane = "k" ∨ plane = "v") := by
  simp only [planeBaseOffset, Py.bind_eq_ok]
  constructor
  · rintro ⟨off, s, hs, base, hbase, h⟩
    obtain ⟨-, -, hb⟩ := blockBaseOffset_ok_iff.1 ⟨base, hbase⟩
    split_ifs at h with hk hv
    · exact ⟨s, hs, hb, .inl hk⟩
    · exact ⟨s, hs, hb, .inr hv⟩
  · rintro ⟨s, hs, hb, hplane⟩
    obtain ⟨base, hbase⟩ := blockBaseOffset_ok_iff.2 ⟨s, hs, hb⟩
    rcases hplane with rfl | rfl
    · exact ⟨_, s, hs, base, hbase, rfl⟩
    · exact ⟨_, s, hs, base, hbase, rfl⟩

theorem tokenOffset_ok_iff {t h e : ℤ} {plane : String} :
    (∃ off, L.tokenOffset l b t h e plane = .ok off) ↔ ∃ s, L.layerSpec l = .ok s ∧
      Query.InRange L s (.tokenOffset l b t h e plane) := by
  simp only [tokenOffset, Py.bind_eq_ok, raiseIf_eq_ok, Py.pure_eq_ok, not_not, Query.InRange]
  constructor
  · rintro ⟨_, s, hs, -, ht, -, hh, -, he, base, hbase, -⟩
    obtain ⟨-, -, hb, hplane⟩ := planeBaseOffset_ok_iff.1 ⟨base, hbase⟩
    exact ⟨s, hs, hb, ht, hh, he, hplane⟩
  · rintro ⟨s, hs, hb, ht, hh, he, hplane⟩
    obtain ⟨base, hbase⟩ := planeBaseOffset_ok_iff.2 ⟨s, hs, hb, hplane⟩
    exact ⟨_, s, hs, (), ht, (), hh, (), he, base, hbase, rfl⟩

/-- A slot lies in a block of the layer exactly when it is below the capacity. -/
theorem slot_div_iff (slot : ℤ) : (0 ≤ slot / L.blockSize ∧ slot / L.blockSize < L.numBlocks) ↔
    0 ≤ slot ∧ slot < L.capacityTokensPerLayer := by
  have hpos : (0 : ℤ) < L.blockSize := by
    have := (L.layerSpecs.head L.layerSpecs_ne).blockSize_pos
    exact_mod_cast this
  rw [Int.ediv_nonneg_iff_of_pos hpos, Int.ediv_lt_iff_lt_mul hpos, capacityTokensPerLayer,
    Nat.cast_mul]

theorem slotOffset_ok_iff {slot h e : ℤ} {plane : String} :
    (∃ off, L.slotOffset l slot h e plane = .ok off) ↔ ∃ s, L.layerSpec l = .ok s ∧
      Query.InRange L s (.slotOffset l slot h e plane) := by
  have hpos : (0 : ℤ) < L.blockSize := by
    have := (L.layerSpecs.head L.layerSpecs_ne).blockSize_pos
    exact_mod_cast this
  simp only [slotOffset, Py.bind_eq_ok, raiseIf_eq_ok, not_lt]
  constructor
  · rintro ⟨off, -, -, hoff⟩
    obtain ⟨s, hs, hb, -, hh, he, hplane⟩ := tokenOffset_ok_iff.1 ⟨off, hoff⟩
    exact ⟨s, hs, (slot_div_iff slot).1 hb, hh, he, hplane⟩
  · rintro ⟨s, hs, hslot, hh, he, hplane⟩
    have ht : 0 ≤ slot % L.blockSize ∧ slot % L.blockSize < s.blockSize := by
      rw [blockSize_of_layerSpec hs]
      exact ⟨Int.emod_nonneg _ hpos.ne', Int.emod_lt_of_pos _ hpos⟩
    obtain ⟨off, hoff⟩ := tokenOffset_ok_iff.2 ⟨s, hs, (slot_div_iff slot).2 hslot, ht, hh, he,
      hplane⟩
    exact ⟨off, (), hslot.1, hoff⟩

/-- **What is accepted**: a layer that the lookup finds, and the other coordinates in its ranges. -/
theorem answer_ok_iff (q : Query) : (∃ off, q.answer L = .ok off) ↔
    ∃ s, L.layerSpec q.layerIndex = .ok s ∧ q.InRange L s := by
  cases q with
  | tokenOffset l b t h e plane => exact tokenOffset_ok_iff
  | slotOffset l slot h e plane => exact slotOffset_ok_iff
  | planeBaseOffset l b plane => exact planeBaseOffset_ok_iff
  | blockBaseOffset l b => exact blockBaseOffset_ok_iff

/-! ### What they raise -/

/-- A call that raises nothing but `ValueError`. -/
def OnlyValueErrors {α : Type} (x : Py α) : Prop := ∀ e, x = .error e → ∃ msg, e = .valueError msg

section

variable {α β : Type}

theorem onlyValueErrors_ok (a : α) : OnlyValueErrors (.ok a : Py α) := fun _ h => nomatch h

theorem onlyValueErrors_raiseIf (c : Prop) [Decidable c] (msg : String) :
    OnlyValueErrors (raiseIf c (.valueError msg)) := by
  intro e he
  unfold raiseIf at he
  split_ifs at he
  exact ⟨msg, (Except.error.inj he).symm⟩

theorem OnlyValueErrors.bind {x : Py α} {f : α → Py β} (hx : OnlyValueErrors x)
    (hf : ∀ a, x = .ok a → OnlyValueErrors (f a)) : OnlyValueErrors (x >>= f) := by
  cases x with
  | error e => exact fun e' he => hx e' (congrArg _ (Except.error.inj he))
  | ok a => exact hf a rfl

end

theorem layerSpec_onlyValueErrors (l : ℤ) : OnlyValueErrors (L.layerSpec l) := by
  intro e he
  unfold layerSpec at he
  cases hl : pyIndex? L.layerSpecs l with
  | some s => rw [hl] at he; cases he
  | none => rw [hl] at he; exact ⟨_, (Except.error.inj he).symm⟩

theorem layerBaseOffset_onlyValueErrors (hs : L.layerSpec l = .ok s) :
    OnlyValueErrors (L.layerBaseOffset l) := by
  obtain ⟨k, -, hbase⟩ := exists_layerBaseOffset hs
  rw [hbase]
  exact onlyValueErrors_ok _

theorem blockBaseOffset_onlyValueErrors (l b : ℤ) : OnlyValueErrors (L.blockBaseOffset l b) :=
  (layerSpec_onlyValueErrors l).bind fun _ hs =>
    (onlyValueErrors_raiseIf _ _).bind fun _ _ =>
      (layerBaseOffset_onlyValueErrors hs).bind fun _ _ => onlyValueErrors_ok _

theorem planeBaseOffset_onlyValueErrors (l b : ℤ) (plane : String) :
    OnlyValueErrors (L.planeBaseOffset l b plane) := by
  refine (layerSpec_onlyValueErrors l).bind fun _ _ =>
    (blockBaseOffset_onlyValueErrors l b).bind fun _ _ => ?_
  split_ifs
  · exact onlyValueErrors_ok _
  · exact onlyValueErrors_ok _
  · exact fun _ he => ⟨_, (Except.error.inj he).symm⟩

theorem tokenOffset_onlyValueErrors (l b t h e : ℤ) (plane : String) :
    OnlyValueErrors (L.tokenOffset l b t h e plane) :=
  (layerSpec_onlyValueErrors l).bind fun _ _ => (onlyValueErrors_raiseIf _ _).bind fun _ _ =>
    (onlyValueErrors_raiseIf _ _).bind fun _ _ => (onlyValueErrors_raiseIf _ _).bind fun _ _ =>
      (planeBaseOffset_onlyValueErrors l b plane).bind fun _ _ => onlyValueErrors_ok _

/-- **What is raised otherwise.** -/
theorem answer_onlyValueErrors (q : Query) : OnlyValueErrors (q.answer L) := by
  cases q with
  | tokenOffset l b t h e plane => exact tokenOffset_onlyValueErrors l b t h e plane
  | slotOffset l slot h e plane =>
    exact (onlyValueErrors_raiseIf _ _).bind fun _ _ => tokenOffset_onlyValueErrors _ _ _ _ _ _
  | planeBaseOffset l b plane => exact planeBaseOffset_onlyValueErrors l b plane
  | blockBaseOffset l b => exact blockBaseOffset_onlyValueErrors l b

/-! ### What the calls accept -/

variable {availableShaders : List String}

theorem selectDecodeShader_ok_iff {plain coop coop512 : String} {headSize : ℕ} :
    (∃ r, selectDecodeShader availableShaders plain coop coop512 headSize = .ok r) ↔
      plain ∈ availableShaders ∨ coop ∈ availableShaders ∨ coop512 ∈ availableShaders := by
  unfold selectDecodeShader
  dsimp only
  split_ifs with hlarge hcoop hcoop512 hplain
  · simp [hlarge.2]
  · simp [hcoop]
  · simp [hcoop512]
  · simp [hplain]
  · simp [hcoop, hcoop512, hplain]

omit [Field F] in
/-- **An accepted write.** -/
theorem pagedKvWrite_ok_iff (w : WriteCall F) :
    (∃ op, pagedKvWrite availableShaders L w = .ok op) ↔
      ∃ j s, pyPos L.numLayers w.layerIndex = some j ∧ L.layerSpecs[j]? = some s ∧
        w.OthersAccepted availableShaders L j s := by
  simp only [pagedKvWrite, requireShader, validateCacheBuffer, validateLayoutDtype, Py.bind_eq_ok,
    raiseIf_eq_ok, buildPagedKvWriteOp_eq_ok, not_not, not_lt]
  constructor
  · rintro ⟨op, s, hs, -, hshader, -, hcache, -, hdtype, T, base, hT, hk, hv, hsm, hslots, hbase,
      hfits, rfl⟩
    obtain ⟨j, hj, hget⟩ := layerSpec_eq_ok.1 hs
    obtain rfl := Except.ok.inj (hbase.symm.trans (layerBaseOffset_of_pyPos hj hget))
    simp only [List.forall_mem_cons, PcWord.Fits, List.not_mem_nil, false_imp_iff, implies_true,
      and_true] at hfits
    exact ⟨j, s, hj, hget, hshader, hcache, hdtype, hfits.2, T, hT, hfits.1, hk, hv, hsm, hslots⟩
  · rintro ⟨j, s, hj, hget, hshader, hcache, hdtype, hpc, T, hT, hT32, hk, hv, hsm, hslots⟩
    refine ⟨_, s, layerSpec_eq_ok.2 ⟨j, hj, hget⟩, (), hshader, (), hcache, (), hdtype, T,
      L.regionStart j, hT, hk, hv, hsm, hslots, layerBaseOffset_of_pyPos hj hget, ?_, rfl⟩
    simp only [List.forall_mem_cons, PcWord.Fits, List.not_mem_nil, false_imp_iff, implies_true,
      and_true]
    exact ⟨hT32, hpc⟩

/-- **An accepted decode.** -/
theorem pagedAttnDecode_ok_iff (sqrt : F → F) (d : DecodeCall F) :
    (∃ r, pagedAttnDecode sqrt availableShaders L d = .ok r) ↔
      ∃ j s, pyPos L.numLayers d.layerIndex = some j ∧ L.layerSpecs[j]? = some s ∧
        d.OthersAccepted availableShaders L j s := by
  simp only [pagedAttnDecode, resolvePagedAttnDecodeDispatch, validateCacheBuffer,
    validateLayoutDtype, Py.bind_eq_ok, raiseIf_eq_ok, Py.pure_eq_ok, buildPagedAttnDecodeOp_eq_ok,
    not_not, not_lt]
  constructor
  · rintro ⟨r, -, ⟨s, hs, sel, hsel, -, hcache, -, hdtype, base, hbase, rfl⟩, numQ, n, hQ, hdvd, hq,
      hn, hseq, hcap, hbt, hlen, hblocks, hfits, rfl⟩
    obtain ⟨j, hj, hget⟩ := layerSpec_eq_ok.1 hs
    obtain rfl := Except.ok.inj (hbase.symm.trans (layerBaseOffset_of_pyPos hj hget))
    simp only [List.forall_mem_cons, PcWord.Fits, List.not_mem_nil, false_imp_iff, implies_true,
      and_true] at hfits
    exact ⟨j, s, hj, hget, selectDecodeShader_ok_iff.1 ⟨sel, hsel⟩, hcache, hdtype, hfits.2.2,
      ⟨numQ, hQ, hfits.2.1, hdvd, hq⟩, n, hn, hfits.1, hseq, hcap, hbt, hlen, hblocks⟩
  · rintro ⟨j, s, hj, hget, hshader, hcache, hdtype, hpc, ⟨numQ, hQ, hQ32, hdvd, hq⟩, n, hn, hn32,
      hseq, hcap, hbt, hlen, hblocks⟩
    obtain ⟨sel, hsel⟩ := selectDecodeShader_ok_iff.2 hshader
    refine ⟨_, _, ⟨s, layerSpec_eq_ok.2 ⟨j, hj, hget⟩, sel, hsel, (), hcache, (), hdtype, _,
      layerBaseOffset_of_pyPos hj hget, rfl⟩, numQ, n, hQ, hdvd, hq, hn, hseq, hcap, hbt, hlen,
      hblocks, ?_, rfl⟩
    simp only [List.forall_mem_cons, PcWord.Fits, List.not_mem_nil, false_imp_iff, implies_true,
      and_true]
    exact ⟨hn32, hQ32, hpc⟩

/-! ### Coordinates that exist -/

/-- A call with coordinates. -/
inductive Call (F : Type) where
  | query (q : Query)
  | write (w : WriteCall F)
  | decode (d : DecodeCall F)

namespace Call

/-- Its `layer_index`. -/
def layerIndex : Call F → ℤ
  | .query q => q.layerIndex
  | .write w => w.layerIndex
  | .decode d => d.layerIndex

/-- The arguments besides the layer are accepted, for layer `j` of shape `s`. -/
def OthersAccepted (availableShaders : List String) (L : VulkanPagedKVLayout) (j : ℕ)
    (s : KVCacheLayerSpec) : Call F → Prop
  | .query q => q.InRange L s
  | .write w => w.OthersAccepted availableShaders L j s
  | .decode d => d.OthersAccepted availableShaders L j s

/-- The call returns, or submits its op. -/
def Accepted (sqrt : F → F) (availableShaders : List String) (L : VulkanPagedKVLayout) :
    Call F → Prop
  | .query q => ∃ off, q.answer L = .ok off
  | .write w => ∃ op, pagedKvWrite availableShaders L w = .ok op
  | .decode d => ∃ r, pagedAttnDecode sqrt availableShaders L d = .ok r

/-- The layer exists, and the other arguments are accepted for it. -/
def Valid (availableShaders : List String) (L : VulkanPagedKVLayout) (c : Call F) : Prop :=
  ∃ (j : ℕ) (s : KVCacheLayerSpec), L.layerSpecs[j]? = some s ∧ c.layerIndex = j ∧
    c.OthersAccepted availableShaders L j s

/-- The layer counts from the end, and the other arguments are accepted for the layer it denotes. -/
def CountsFromEnd (availableShaders : List String) (L : VulkanPagedKVLayout) (c : Call F) : Prop :=
  ∃ (j : ℕ) (s : KVCacheLayerSpec), L.layerSpecs[j]? = some s ∧ c.layerIndex = j - L.numLayers ∧
    c.OthersAccepted availableShaders L j s

/-- An offset is returned exactly when the coordinates exist, and otherwise `ValueError` is raised;
a write or a decode with a layer that does not exist raises before it submits. -/
def Meets (sqrt : F → F) (availableShaders : List String) (L : VulkanPagedKVLayout) :
    Call F → Prop
  | .query q => ((∃ off, q.answer L = .ok off) ↔
        ∃ (j : ℕ) (s : KVCacheLayerSpec), L.layerSpecs[j]? = some s ∧ q.layerIndex = j ∧
          q.InRange L s) ∧
      ∀ e, q.answer L = .error e → ∃ msg, e = .valueError msg
  | .write w => ¬ (0 ≤ w.layerIndex ∧ w.layerIndex < L.numLayers) →
      ∃ e, pagedKvWrite availableShaders L w = .error e
  | .decode d => ¬ (0 ≤ d.layerIndex ∧ d.layerIndex < L.numLayers) →
      ∃ e, pagedAttnDecode sqrt availableShaders L d = .error e

variable {c : Call F}

/-- **What is accepted.** -/
theorem accepted_iff (sqrt : F → F) : c.Accepted sqrt availableShaders L ↔
    c.Valid availableShaders L ∨ c.CountsFromEnd availableShaders L := by
  have hlookup : c.Accepted sqrt availableShaders L ↔ ∃ j s,
      pyPos L.numLayers c.layerIndex = some j ∧ L.layerSpecs[j]? = some s ∧
        c.OthersAccepted availableShaders L j s := by
    cases c with
    | query q =>
      refine (answer_ok_iff q).trans ?_
      simp only [layerSpec_eq_ok]
      constructor
      · rintro ⟨s, ⟨j, hj, hget⟩, hothers⟩
        exact ⟨j, s, hj, hget, hothers⟩
      · rintro ⟨j, s, hj, hget, hothers⟩
        exact ⟨s, ⟨j, hj, hget⟩, hothers⟩
    | write w => exact pagedKvWrite_ok_iff w
    | decode d => exact pagedAttnDecode_ok_iff sqrt d
  rw [hlookup]
  constructor
  · rintro ⟨j, s, hj, hget, hothers⟩
    rcases (pyPos_eq_some.1 hj).2 with hl | hl
    · exact .inl ⟨j, s, hget, hl, hothers⟩
    · exact .inr ⟨j, s, hget, hl, hothers⟩
  · rintro (⟨j, s, hget, hl, hothers⟩ | ⟨j, s, hget, hl, hothers⟩)
    · exact ⟨j, s, pyPos_eq_some.2 ⟨(List.getElem?_eq_some_iff.1 hget).1, .inl hl⟩, hget, hothers⟩
    · exact ⟨j, s, pyPos_eq_some.2 ⟨(List.getElem?_eq_some_iff.1 hget).1, .inr hl⟩, hget, hothers⟩

omit [Field F] in
theorem Valid.inRange (h : c.Valid availableShaders L) :
    0 ≤ c.layerIndex ∧ c.layerIndex < L.numLayers := by
  obtain ⟨j, s, hget, hl, -⟩ := h
  have hlt : j < L.numLayers := (List.getElem?_eq_some_iff.1 hget).1
  omega

omit [Field F] in
theorem CountsFromEnd.neg (h : c.CountsFromEnd availableShaders L) : c.layerIndex < 0 := by
  obtain ⟨j, s, hget, hl, -⟩ := h
  have hlt : j < L.numLayers := (List.getElem?_eq_some_iff.1 hget).1
  omega

/-- A call that submits is one whose layer exists, unless its layer counts from the end. -/
theorem raises_iff (sqrt : F → F) : (¬ (0 ≤ c.layerIndex ∧ c.layerIndex < L.numLayers) →
      ¬ c.Accepted sqrt availableShaders L) ↔ ¬ c.CountsFromEnd availableShaders L := by
  constructor
  · intro h hend
    exact h (fun hrange => absurd hend.neg (not_lt.2 hrange.1)) ((accepted_iff sqrt).2 (.inr hend))
  · intro hend hrange haccepted
    rcases (accepted_iff sqrt).1 haccepted with hvalid | h
    · exact hrange hvalid.inRange
    · exact hend h

/-- **The exact condition.**  A call is accepted exactly when its coordinates exist, unless its
layer counts from the end and its other arguments are accepted for the layer it denotes. -/
theorem meets_iff (sqrt : F → F) (availableShaders : List String) (L : VulkanPagedKVLayout)
    (c : Call F) : c.Meets sqrt availableShaders L ↔ ¬ c.CountsFromEnd availableShaders L := by
  cases c with
  | query q =>
    have haccepted : Accepted sqrt availableShaders L (.query q) ↔
        Valid availableShaders L (.query q : Call F) ∨
          CountsFromEnd availableShaders L (.query q : Call F) := accepted_iff sqrt
    constructor
    · rintro ⟨hvalid, -⟩ hend
      have hrange : Valid availableShaders L (.query q : Call F) :=
        hvalid.1 (haccepted.2 (.inr hend))
      exact absurd hend.neg (not_lt.2 hrange.inRange.1)
    · intro hend
      exact ⟨⟨fun h => (haccepted.1 h).resolve_right hend, fun h => haccepted.2 (.inl h)⟩,
        answer_onlyValueErrors q⟩
  | write w =>
    rw [← raises_iff sqrt]
    exact imp_congr_right fun _ => Py.exists_error_iff
  | decode d =>
    rw [← raises_iff sqrt]
    exact imp_congr_right fun _ => Py.exists_error_iff

end Call

/-- The layer before the first one is the last one. -/
theorem lastLayer_aliased : smallLayout.tokenOffset (-1) 0 0 0 0 "k" =
      smallLayout.tokenOffset 1 0 0 0 0 "k" ∧
    ¬ Call.Meets (F := ℚ) id [] smallLayout (.query (.tokenOffset (-1) 0 0 0 0 "k")) := by
  refine ⟨rfl, fun h => ?_⟩
  obtain ⟨j, s, -, hl, -⟩ := h.1.1 ⟨_, rfl⟩
  have hneg : (-1 : ℤ) = j := hl
  omega

end VulkanPagedKVLayout

end VllmVulkan
