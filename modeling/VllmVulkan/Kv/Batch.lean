import VllmVulkan.Kv.Ops

/-!
# One submission for a write and its decodes

`_paged_kv_write_and_decode_batch` submits the K/V write of a step and the decodes that read it as
one batch: the write first, with a barrier after it, then one decode for each query.

* `resolvePagedAttnDecodeDispatch` : what all the decodes share;
* `WriteAndDecode` : a batch, as the op of the write and the ops of the decodes;
* `pagedKvWriteAndDecodeBatch` : the batch for some queries, `none` when there are no queries;
* `pagedKvWriteAndDecodeBatchF32`, `pagedKvWriteAndDecodeBatchF16` : the two forms;
* `pagedKvWriteAndDecodeBatch_shape` : what the ops of a batch are bound to.
-/

namespace VllmVulkan

namespace KvOps

/-- `_require_shader`. -/
def requireShader (availableShaders : List String) (shaderName : String) : Py Unit :=
  raiseIf (shaderName ∉ availableShaders) (.runtimeError s!"{shaderName} shader is not available")

/-- `_validate_cache_buffer`. -/
def validateCacheBuffer (cache : GpuTensor) (layout : VulkanPagedKVLayout) : Py Unit :=
  raiseIf (cache.nbytes < layout.totalBytes) (.valueError
    (s!"cache buffer has {cache.nbytes} bytes, " ++ s!"expected at least {layout.totalBytes}"))

/-- `_validate_layout_dtype`. -/
def validateLayoutDtype (actualDtypeSize expectedDtypeSize : ℕ) (shaderName : String) : Py Unit :=
  raiseIf (actualDtypeSize ≠ expectedDtypeSize) (.valueError
    s!"{shaderName} requires a {expectedDtypeSize}-byte KV-cache layout")

/-- `_resolve_paged_attn_decode_dispatch`: the shader, the width of its workgroups, the spec of the
layer and where the layer begins. -/
def resolvePagedAttnDecodeDispatch (availableShaders : List String) (layout : VulkanPagedKVLayout)
    (cache : GpuTensor) (layerIndex : ℤ) (names : DecodeNames) (dtypeSize : ℕ) :
    Py (String × ℕ × KVCacheLayerSpec × ℕ) := do
  let spec ← layout.layerSpec layerIndex
  let (dispatchShaderName, coopWorkgroupSize) ←
    selectDecodeShader availableShaders names.plain names.coop names.coop512 spec.headSize
  validateCacheBuffer cache layout
  validateLayoutDtype spec.dtypeSize dtypeSize names.plain
  let layerBaseOffset ← layout.layerBaseOffset layerIndex
  return (dispatchShaderName, coopWorkgroupSize, spec, layerBaseOffset)

/-- A batch of a write and its decodes; a decode comes with `num_q_heads` and `head_size`, the shape
of its output. -/
structure WriteAndDecode (F : Type*) where
  writeOp : Op F
  decodes : List (Op F × ℕ × ℕ)

/-- What is asked of a batch. -/
structure BatchRequest (F : Type) where
  layout : VulkanPagedKVLayout
  cache : GpuTensor
  layerIndex : ℤ
  k : Tensor F
  v : Tensor F
  slotMapping : Tensor ℤ
  queries : List (Tensor F)
  blockTables : List (Tensor ℤ)
  seqLens : List ℤ
  scale : Option F

variable {F : Type} [Field F]

/-- `_paged_kv_write_and_decode_batch`: the batch it submits, `none` when it submits none. -/
def pagedKvWriteAndDecodeBatch (sqrt : F → F) (availableShaders : List String)
    (req : BatchRequest F) (writeShaderName : String) (names : DecodeNames) (dtypeSize : ℕ) :
    Py (Option (WriteAndDecode F)) := do
  raiseIf (¬ (req.queries.length = req.blockTables.length ∧
      req.blockTables.length = req.seqLens.length)) (.valueError
    ("queries, block_tables, and seq_lens must have the same length " ++
      s!"(got {req.queries.length}, {req.blockTables.length}, {req.seqLens.length})"))
  if req.queries.length = 0 then return none
  let (dispatchShaderName, coopWorkgroupSize, spec, layerBaseOffset) ←
    resolvePagedAttnDecodeDispatch availableShaders req.layout req.cache req.layerIndex names
      dtypeSize
  requireShader availableShaders writeShaderName
  let writeOp ← buildPagedKvWriteOp req.layout req.cache spec req.layerIndex req.k req.v
    req.slotMapping writeShaderName true
  let decodes ← ((req.queries.zip req.blockTables).zip req.seqLens).mapM fun x =>
    buildPagedAttnDecodeOp sqrt req.layout req.cache spec layerBaseOffset dispatchShaderName
      coopWorkgroupSize x.1.1 x.1.2 x.2 req.scale
  return some ⟨writeOp, decodes⟩

/-- `paged_kv_write_and_decode_batch_f32`. -/
def pagedKvWriteAndDecodeBatchF32 (sqrt : F → F) (availableShaders : List String)
    (req : BatchRequest F) : Py (Option (WriteAndDecode F)) :=
  pagedKvWriteAndDecodeBatch sqrt availableShaders req "paged_kv_write_f32" decodeNamesF32 4

/-- `paged_kv_write_and_decode_batch_f16`. -/
def pagedKvWriteAndDecodeBatchF16 (sqrt : F → F) (availableShaders : List String)
    (req : BatchRequest F) : Py (Option (WriteAndDecode F)) :=
  pagedKvWriteAndDecodeBatch sqrt availableShaders req "paged_kv_write_f16" decodeNamesF16 2

/-! ### The ops of a batch -/

/-- The shader is a variant of the decode shader. -/
def DecodeNames.Has (names : DecodeNames) (shader : String) : Prop :=
  shader = names.plain ∨ shader = names.coop ∨ shader = names.coop512

theorem selectDecodeShader_has {available : List String} {names : DecodeNames} {headSize : ℕ}
    {r : String × ℕ}
    (h : selectDecodeShader available names.plain names.coop names.coop512 headSize = .ok r) :
    names.Has r.1 := by
  unfold selectDecodeShader at h
  simp only at h
  split_ifs at h
  · exact .inr (.inr (by rw [← Except.ok.inj h]))
  · exact .inr (.inl (by rw [← Except.ok.inj h]))
  · exact .inr (.inr (by rw [← Except.ok.inj h]))
  · exact .inl (by rw [← Except.ok.inj h])

/-- The op of a write: three uploads and the cache, no outputs. -/
structure IsWrite (cache : GpuTensor) (shader : String) (op : Op F) : Prop where
  shader : op.shader = shader
  inputs : ∃ k v slots, op.inputs = [.elems k, .elems v, .words slots, .tensor cache]
  outputSizes : op.outputSizes = []
  barrierAfter : op.barrierAfter = true

/-- The op of a decode: two uploads and the cache, one output, no barrier. -/
structure IsDecode (cache : GpuTensor) (names : DecodeNames) (op : Op F) : Prop where
  shader : names.Has op.shader
  inputs : ∃ q blocks, op.inputs = [.elems q, .words blocks, .tensor cache]
  outputSizes : ∃ size, op.outputSizes = [size]
  barrierAfter : op.barrierAfter = false

/-- **The ops of a batch**: the write, behind it a barrier and the decodes. -/
theorem pagedKvWriteAndDecodeBatch_shape {sqrt : F → F} {available : List String}
    {req : BatchRequest F} {writeShader : String} {names : DecodeNames} {dtypeSize : ℕ}
    {batch : WriteAndDecode F}
    (h : pagedKvWriteAndDecodeBatch sqrt available req writeShader names dtypeSize =
      .ok (some batch)) :
    IsWrite req.cache writeShader batch.writeOp ∧
      ∀ r ∈ batch.decodes, IsDecode req.cache names r.1 := by
  unfold pagedKvWriteAndDecodeBatch at h
  rw [Py.bind_eq_ok] at h
  obtain ⟨-, -, h⟩ := h
  split_ifs at h with hempty
  · cases Py.pure_eq_ok.1 h
  simp only [Py.bind_eq_ok, Py.pure_eq_ok, Option.some.injEq] at h
  obtain ⟨r, hres, -, -, writeOp, hwrite, decodes, hdecodes, rfl⟩ := h
  refine ⟨?_, fun d hd => ?_⟩
  · obtain ⟨T, base, -, -, -, -, -, -, -, rfl⟩ := buildPagedKvWriteOp_eq_ok.1 hwrite
    exact ⟨rfl, ⟨_, _, _, rfl⟩, rfl, rfl⟩
  · simp only [resolvePagedAttnDecodeDispatch, Py.bind_eq_ok, Py.pure_eq_ok] at hres
    obtain ⟨spec, -, s, hsel, -, -, -, -, base, -, rfl⟩ := hres
    obtain ⟨x, -, hx⟩ := Py.exists_of_mem_mapM hdecodes hd
    obtain ⟨numQ, n, -, -, -, -, -, -, -, -, -, -, rfl⟩ := buildPagedAttnDecodeOp_eq_ok.1 hx
    exact ⟨selectDecodeShader_has hsel, ⟨_, _, rfl⟩, ⟨_, rfl⟩, rfl⟩

end KvOps

end VllmVulkan
