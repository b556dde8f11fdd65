import VllmVulkan.Kv.Layout

/-!
# Building the KV-cache dispatches

`kv_ops.py` turns a request to write or to read the paged cache into one op-tuple of
`execute_batch`: the shader, its bindings, the sizes of its outputs, the push constants, the
workgroup counts and the barrier flag.  Everything that can be refused is refused here, before any
dispatch is submitted.

* `Op`, `Binding`, `PcWord` : an op-tuple, a binding, one 32-bit field of the push constants;
* `buildPagedKvWriteOp`, `buildPagedAttnDecodeOp` : the two builders, with their checks in the
  order of the source;
* `selectDecodeShader` : which variant of the decode shader is dispatched;
* `buildPagedKvWriteOp_eq_ok`, `buildPagedAttnDecodeOp_eq_ok` : what an accepted request satisfies
  and which op it becomes.

Tensors are in the element type of the cache, where the conversions of the source are the identity;
the scale is an element of an exact field.
-/

namespace VllmVulkan

/-- A persistent GPU buffer. -/
structure GpuTensor where
  /-- The handle. -/
  id : ℕ
  /-- Its size in bytes. -/
  nbytes : ℕ
  deriving DecidableEq, Repr

/-- One binding of a dispatch: uploaded elements, uploaded 32-bit words, or a persistent buffer. -/
inductive Binding (α : Type*) where
  | elems (xs : List α)
  | words (xs : List ℕ)
  | tensor (t : GpuTensor)

/-- One field of a push-constant block. -/
inductive PcWord (α : Type*) where
  | u32 (n : ℕ)
  | f32 (x : α)

/-- An op-tuple of `execute_batch`. -/
structure Op (α : Type*) where
  /-- The shader to dispatch. -/
  shader : String
  /-- Its input bindings. -/
  inputs : List (Binding α)
  /-- The sizes in bytes of its outputs. -/
  outputSizes : List ℕ
  /-- Its push constants. -/
  pc : List (PcWord α)
  /-- The workgroup counts. -/
  workgroups : ℕ × ℕ × ℕ
  /-- Whether a barrier follows. -/
  barrierAfter : Bool

namespace PcWord

variable {α : Type*}

/-- The field fits its format. -/
def Fits : PcWord α → Prop
  | u32 n => n < 2 ^ 32
  | f32 _ => True

instance (w : PcWord α) : Decidable w.Fits := by
  cases w <;> unfold Fits <;> infer_instance

/-- The unsigned field at position `i` of packed push constants. -/
def u32At (pc : List (PcWord α)) (i : ℕ) : ℕ :=
  match pc[i]? with
  | some (.u32 n) => n
  | _ => 0

/-- The float field at position `i` of packed push constants. -/
def f32At [Inhabited α] (pc : List (PcWord α)) (i : ℕ) : α :=
  match pc[i]? with
  | some (.f32 x) => x
  | _ => default

/-- The bytes of a field, given those of a float. -/
def bytes (floatBytes : α → List UInt8) : PcWord α → List UInt8
  | u32 n => u32Bytes n
  | f32 x => floatBytes x

end PcWord

namespace KvOps

/-- `struct.pack`: every unsigned field must fit in 32 bits. -/
def structPack {α : Type*} (ws : List (PcWord α)) : Py (List (PcWord α)) :=
  if ∀ w ∈ ws, w.Fits then .ok ws
  else .error (.structError "'I' format requires 0 <= number <= 4294967295")

/-- `_PAGED_KV_WRITE_WORKGROUP_SIZE`. -/
def pagedKvWriteWorkgroupSize : ℕ := 256

/-- `_PAGED_ATTN_DECODE_WORKGROUP_SIZE`. -/
def pagedAttnDecodeWorkgroupSize : ℕ := 256

/-- `_PAGED_ATTN_DECODE_WORKGROUP_SIZE_LARGE`. -/
def pagedAttnDecodeWorkgroupSizeLarge : ℕ := 512

/-- `_F32_NBYTES`. -/
def f32Nbytes : ℕ := 4

/-- The names under which the variants of the decode shader are requested for one cache dtype. -/
structure DecodeNames where
  /-- The plain shader. -/
  plain : String
  /-- The cooperative shader of 256 invocations. -/
  coop : String
  /-- The cooperative shader of 512 invocations. -/
  coop512 : String

/-- The names for a single-precision cache. -/
def decodeNamesF32 : DecodeNames :=
  ⟨"paged_attn_decode_f32", "paged_attn_decode_f32_coop", "paged_attn_decode_f32_coop_512"⟩

/-- The names for a half-precision cache. -/
def decodeNamesF16 : DecodeNames :=
  ⟨"paged_attn_decode_f16", "paged_attn_decode_f16_coop", "paged_attn_decode_f16_coop_512"⟩

/-- `_slot_mapping_to_u32`. -/
def slotMappingToU32 (slotMapping : Tensor ℤ) (numTokens capacityTokens : ℕ) : Py (List ℕ) := do
  raiseIf (slotMapping.shape ≠ [numTokens]) (.valueError
    (s!"slot_mapping shape {pyTuple slotMapping.shape} does not match " ++ s!"({numTokens},)"))
  raiseIf (∃ s ∈ slotMapping.data, s < 0) (.valueError
    "slot_mapping must not contain negative slots")
  raiseIf (∃ s ∈ slotMapping.data, s ≥ capacityTokens) (.valueError
    s!"slot_mapping contains a slot outside capacity {capacityTokens}")
  return slotMapping.data.map Int.toNat

/-- `_block_table_to_u32`: only the first `neededBlocks` entries are checked and kept. -/
def blockTableToU32 (blockTable : Tensor ℤ) (neededBlocks numBlocks : ℕ) : Py (List ℕ) := do
  raiseIf (blockTable.shape.length ≠ 1) (.valueError
    s!"block_table must be rank-1, got shape {pyTuple blockTable.shape}")
  raiseIf (blockTable.data.length < neededBlocks) (.valueError
    (s!"block_table has {blockTable.data.length} block(s), " ++
      s!"expected at least {neededBlocks}"))
  let activeBlocks := blockTable.data.take neededBlocks
  raiseIf (∃ b ∈ activeBlocks, b < 0) (.valueError
    "block_table must not contain negative block ids")
  raiseIf (∃ b ∈ activeBlocks, b ≥ numBlocks) (.valueError
    s!"block_table contains a block id outside {numBlocks} block(s)")
  return activeBlocks.map Int.toNat

section Write

variable {α : Type}

/-- `_paged_kv_write_pc`. -/
def pagedKvWritePc (spec : KVCacheLayerSpec) (layerBaseOffset numTokens : ℕ) :
    Py (List (PcWord α)) :=
  structPack [
    .u32 numTokens,
    .u32 spec.numKvHeads,
    .u32 spec.headSize,
    .u32 spec.blockSize,
    .u32 (layerBaseOffset / spec.dtypeSize),
    .u32 (spec.planeBytesPerBlock / spec.dtypeSize),
    .u32 (spec.bytesPerBlock / spec.dtypeSize)]

/-- `_build_paged_kv_write_op`. -/
def buildPagedKvWriteOp (layout : VulkanPagedKVLayout) (cache : GpuTensor)
    (spec : KVCacheLayerSpec) (layerIndex : ℤ) (k v : Tensor α) (slotMapping : Tensor ℤ)
    (shaderName : String) (barrierAfter : Bool) : Py (Op α) := do
  raiseIf (k.shape ≠ v.shape) (.valueError
    s!"K and V shapes must match, got {torchSize k.shape} and {torchSize v.shape}")
  raiseIf (k.shape.length ≠ 3) (.valueError s!"K/V must be rank-3, got rank {k.shape.length}")
  let numTokens := k.shape.headD 0
  raiseIf (numTokens ≤ 0) (.valueError "K/V must contain at least one token")
  let expectedShape := [numTokens, spec.numKvHeads, spec.headSize]
  raiseIf (k.shape ≠ expectedShape) (.valueError
    s!"K/V shape {pyTuple k.shape} does not match {pyTuple expectedShape}")
  let slots ← slotMappingToU32 slotMapping numTokens layout.capacityTokensPerLayer
  let layerBaseOffset ← layout.layerBaseOffset layerIndex
  let pc ← pagedKvWritePc spec layerBaseOffset numTokens
  let totalElements := numTokens * spec.numKvHeads * spec.headSize
  return {
    shader := shaderName
    inputs := [.elems k.data, .elems v.data, .words slots, .tensor cache]
    outputSizes := []
    pc := pc
    workgroups := (ceilDiv totalElements pagedKvWriteWorkgroupSize, 1, 1)
    barrierAfter := barrierAfter }

end Write

section Decode

variable {F : Type} [Field F]

/-- `_paged_attn_decode_pc`. -/
def pagedAttnDecodePc (spec : KVCacheLayerSpec) (layerBaseOffset seqLen numQHeads : ℕ)
    (scale : F) : Py (List (PcWord F)) :=
  structPack [
    .u32 seqLen,
    .u32 numQHeads,
    .u32 spec.numKvHeads,
    .u32 spec.headSize,
    .u32 spec.blockSize,
    .u32 (layerBaseOffset / spec.dtypeSize),
    .u32 (spec.planeBytesPerBlock / spec.dtypeSize),
    .u32 (spec.bytesPerBlock / spec.dtypeSize),
    .f32 scale]

/-- `_build_paged_attn_decode_op`; `sqrt` is `math.sqrt`, used when no scale is given. -/
def buildPagedAttnDecodeOp (sqrt : F → F) (layout : VulkanPagedKVLayout) (cache : GpuTensor)
    (spec : KVCacheLayerSpec) (layerBaseOffset : ℕ) (dispatchShaderName : String)
    (coopWorkgroupSize : ℕ) (q : Tensor F) (blockTable : Tensor ℤ) (seqLen : ℤ)
    (scale : Option F) : Py (Op F × ℕ × ℕ) := do
  raiseIf (seqLen ≤ 0) (.valueError "seq_len must be > 0")
  raiseIf (seqLen > layout.capacityTokensPerLayer) (.valueError
    s!"seq_len {seqLen} exceeds capacity {layout.capacityTokensPerLayer}")
  raiseIf (q.shape.length ≠ 2) (.valueError s!"Q must be rank-2, got rank {q.shape.length}")
  let numQHeads := q.shape.headD 0
  let qHeadSize := q.shape.tail.headD 0
  raiseIf (qHeadSize ≠ spec.headSize) (.valueError
    s!"Q head size {qHeadSize} does not match {spec.headSize}")
  raiseIf (numQHeads ≤ 0) (.valueError "Q must contain at least one query head")
  raiseIf (numQHeads % spec.numKvHeads ≠ 0) (.valueError
    (s!"num_q_heads {numQHeads} must be divisible by " ++ s!"num_kv_heads {spec.numKvHeads}"))
  let seqLen := seqLen.toNat
  let neededBlocks := ceilDiv seqLen spec.blockSize
  let blocks ← blockTableToU32 blockTable neededBlocks layout.numBlocks
  let pc ← pagedAttnDecodePc spec layerBaseOffset seqLen numQHeads
    (scale.getD (1 / sqrt spec.headSize))
  let totalElements := numQHeads * spec.headSize
  let workgroups :=
    if coopWorkgroupSize > 0 then (numQHeads, ceilDiv spec.headSize coopWorkgroupSize, 1)
    else (ceilDiv totalElements pagedAttnDecodeWorkgroupSize, 1, 1)
  return ({
    shader := dispatchShaderName
    inputs := [.elems q.data, .words blocks, .tensor cache]
    outputSizes := [totalElements * f32Nbytes]
    pc := pc
    workgroups := workgroups
    barrierAfter := false }, numQHeads, spec.headSize)

end Decode

/-- `_select_decode_shader`: the shader to dispatch, with the width of its workgroups when it is a
cooperative one and `0` when it is the plain one. -/
def selectDecodeShader (availableShaders : List String)
    (shaderName coopShaderName coop512ShaderName : String) (headSize : ℕ) : Py (String × ℕ) :=
  let prefer512 := headSize ≥ pagedAttnDecodeWorkgroupSizeLarge
  if prefer512 ∧ coop512ShaderName ∈ availableShaders then
    .ok (coop512ShaderName, pagedAttnDecodeWorkgroupSizeLarge)
  else if coopShaderName ∈ availableShaders then .ok (coopShaderName, pagedAttnDecodeWorkgroupSize)
  else if coop512ShaderName ∈ availableShaders then
    .ok (coop512ShaderName, pagedAttnDecodeWorkgroupSizeLarge)
  else if shaderName ∈ availableShaders then .ok (shaderName, 0)
  else .error (.runtimeError s!"{shaderName} shader is not available")

/-! ### What the builders accept -/

theorem structPack_eq_ok {α : Type} {ws ws' : List (PcWord α)} :
    structPack ws = .ok ws' ↔ (∀ w ∈ ws, w.Fits) ∧ ws' = ws := by
  unfold structPack
  split_ifs with h
  · exact ⟨fun h' => ⟨h, (Except.ok.inj h').symm⟩, fun h' => by rw [h'.2]⟩
  · simp [h]

theorem slotMappingToU32_eq_ok {sm : Tensor ℤ} {n cap : ℕ} {slots : List ℕ} :
    slotMappingToU32 sm n cap = .ok slots ↔ sm.shape = [n] ∧ (∀ s ∈ sm.data, 0 ≤ s ∧ s < cap) ∧
      slots = sm.data.map Int.toNat := by
  simp only [slotMappingToU32, Py.bind_eq_ok, raiseIf_eq_ok, Py.pure_eq_ok, not_not, not_exists,
    not_and, not_lt, ge_iff_le, not_le]
  constructor
  · rintro ⟨-, hshape, -, hneg, -, hcap, rfl⟩
    exact ⟨hshape, fun s hs => ⟨hneg s hs, hcap s hs⟩, rfl⟩
  · rintro ⟨hshape, hrange, rfl⟩
    exact ⟨(), hshape, (), fun s hs => (hrange s hs).1, (), fun s hs => (hrange s hs).2, rfl⟩

theorem blockTableToU32_eq_ok {bt : Tensor ℤ} {n nb : ℕ} {blocks : List ℕ} :
    blockTableToU32 bt n nb = .ok blocks ↔ bt.shape.length = 1 ∧ n ≤ bt.data.length ∧
      (∀ b ∈ bt.data.take n, 0 ≤ b ∧ b < nb) ∧ blocks = (bt.data.take n).map Int.toNat := by
  simp only [blockTableToU32, Py.bind_eq_ok, raiseIf_eq_ok, Py.pure_eq_ok, not_not, not_exists,
    not_and, not_lt, ge_iff_le, not_le]
  constructor
  · rintro ⟨-, hrank, -, hlen, -, hneg, -, hnb, rfl⟩
    exact ⟨hrank, hlen, fun b hb => ⟨hneg b hb, hnb b hb⟩, rfl⟩
  · rintro ⟨hrank, hlen, hrange, rfl⟩
    exact ⟨(), hrank, (), hlen, (), fun b hb => (hrange b hb).1, (),
      fun b hb => (hrange b hb).2, rfl⟩

/-- **An accepted write.**  K and V are `[T, H, D]`, there is one slot per token, every slot lies
in the layer, and the push constants are in the order of the shader's block. -/
theorem buildPagedKvWriteOp_eq_ok {α : Type} {L : VulkanPagedKVLayout} {cache : GpuTensor}
    {s : KVCacheLayerSpec} {l : ℤ} {k v : Tensor α} {sm : Tensor ℤ} {name : String} {bar : Bool}
    {op : Op α} : buildPagedKvWriteOp L cache s l k v sm name bar = .ok op ↔
    ∃ T base, 0 < T ∧ k.shape = [T, s.numKvHeads, s.headSize] ∧ v.shape = k.shape ∧
      sm.shape = [T] ∧ (∀ i ∈ sm.data, 0 ≤ i ∧ i < L.capacityTokensPerLayer) ∧
      L.layerBaseOffset l = .ok base ∧ (∀ w ∈ op.pc, w.Fits) ∧
      op = {
        shader := name
        inputs := [.elems k.data, .elems v.data, .words (sm.data.map Int.toNat), .tensor cache]
        outputSizes := []
        pc := [.u32 T, .u32 s.numKvHeads, .u32 s.headSize, .u32 s.blockSize,
          .u32 (base / s.dtypeSize), .u32 s.planeElements, .u32 s.blockElements]
        workgroups := (ceilDiv (T * s.numKvHeads * s.headSize) 256, 1, 1)
        barrierAfter := bar } := by
  simp only [buildPagedKvWriteOp, pagedKvWritePc, Py.bind_eq_ok, raiseIf_eq_ok, Py.pure_eq_ok,
    not_not, not_le, slotMappingToU32_eq_ok, structPack_eq_ok, s.planeBytesPerBlock_div,
    s.bytesPerBlock_div]
  constructor
  · rintro ⟨-, hkv, -, -, -, hT, -, hshape, slots, ⟨hlen, hrange, rfl⟩, base, hbase, pc,
      ⟨hfits, rfl⟩, rfl⟩
    exact ⟨_, base, hT, hshape, hkv.symm, hlen, hrange, hbase, hfits, rfl⟩
  · rintro ⟨T, base, hT, hshape, hkv, hlen, hrange, hbase, hfits, rfl⟩
    refine ⟨(), hkv.symm, (), by rw [hshape]; rfl, (), by rw [hshape]; exact hT, (), ?_, _,
      ⟨by rw [hlen, hshape]; rfl, hrange, rfl⟩, base, hbase, _, ⟨?_, rfl⟩, ?_⟩
    · rw [hshape]; rfl
    · rw [hshape]; exact hfits
    · rw [hshape]; rfl

/-- **An accepted decode.**  The query is `[num_q, D]` with `num_q` a positive multiple of the
number of K/V heads, the sequence fits its layer, and the block table names a block of the layer
for every block of the sequence. -/
theorem buildPagedAttnDecodeOp_eq_ok {F : Type} [Field F] {sqrt : F → F} {L : VulkanPagedKVLayout}
    {cache : GpuTensor} {s : KVCacheLayerSpec} {base : ℕ} {name : String} {coop : ℕ}
    {q : Tensor F} {bt : Tensor ℤ} {seqLen : ℤ} {scale : Option F} {r : Op F × ℕ × ℕ} :
    buildPagedAttnDecodeOp sqrt L cache s base name coop q bt seqLen scale = .ok r ↔
    ∃ numQ n : ℕ, 0 < numQ ∧ s.numKvHeads ∣ numQ ∧ q.shape = [numQ, s.headSize] ∧ 0 < n ∧
      seqLen = n ∧ n ≤ L.capacityTokensPerLayer ∧ bt.shape.length = 1 ∧
      ceilDiv n s.blockSize ≤ bt.data.length ∧
      (∀ b ∈ bt.data.take (ceilDiv n s.blockSize), 0 ≤ b ∧ b < L.numBlocks) ∧
      (∀ w ∈ r.1.pc, w.Fits) ∧
      r = ({
        shader := name
        inputs := [.elems q.data,
          .words ((bt.data.take (ceilDiv n s.blockSize)).map Int.toNat), .tensor cache]
        outputSizes := [numQ * s.headSize * 4]
        pc := [.u32 n, .u32 numQ, .u32 s.numKvHeads, .u32 s.headSize, .u32 s.blockSize,
          .u32 (base / s.dtypeSize), .u32 s.planeElements, .u32 s.blockElements,
          .f32 (scale.getD (1 / sqrt s.headSize))]
        workgroups := if coop > 0 then (numQ, ceilDiv s.headSize coop, 1)
          else (ceilDiv (numQ * s.headSize) 256, 1, 1)
        barrierAfter := false }, numQ, s.headSize) := by
  simp only [buildPagedAttnDecodeOp, pagedAttnDecodePc, Py.bind_eq_ok, raiseIf_eq_ok,
    Py.pure_eq_ok, not_not, not_le, gt_iff_lt, not_lt, structPack_eq_ok, blockTableToU32_eq_ok,
    s.planeBytesPerBlock_div, s.bytesPerBlock_div]
  constructor
  · rintro ⟨-, hpos, -, hcap, -, hrank, -, hD, -, hQ, -, hdvd, blocks, ⟨hbt, hlen, hrange, rfl⟩,
      pc, ⟨hfits, rfl⟩, rfl⟩
    obtain ⟨numQ, qD, hq⟩ := List.length_eq_two.1 hrank
    obtain ⟨n, rfl⟩ := Int.eq_ofNat_of_zero_le hpos.le
    simp only [hq, List.headD_cons, List.tail_cons] at hD hQ hdvd hfits
    subst hD
    refine ⟨numQ, n, hQ, Nat.dvd_of_mod_eq_zero hdvd, hq, by omega, rfl, by omega, hbt, hlen,
      hrange, ?_, ?_⟩
    · simpa [hq] using hfits
    · simp [hq, f32Nbytes, pagedAttnDecodeWorkgroupSize]
  · rintro ⟨numQ, n, hQ, hdvd, hq, hn, rfl, hcap, hbt, hlen, hrange, hfits, rfl⟩
    simp only [hq, List.headD_cons, List.tail_cons, List.length_cons, List.length_nil,
      Int.toNat_natCast, f32Nbytes, pagedAttnDecodeWorkgroupSize]
    exact ⟨(), by omega, (), by omega, (), trivial, (), trivial, (), hQ, (),
      Nat.mod_eq_zero_of_dvd hdvd, _, ⟨hbt, hlen, hrange, rfl⟩, _, ⟨hfits, rfl⟩, rfl⟩

end KvOps

end VllmVulkan
