import VllmVulkan.Attention.Entry
import VllmVulkan.Lib.Machine

/-!
# The attention backend

`VulkanAttentionBackendImpl.forward` on the KV cache of one layer.  A call first updates the CPU
cache, which is the source of truth, then tries to mirror the new tokens and to decode on the GPU,
in one merged submission or in two separate ones, and falls back to CPU attention.  What the
environment decides (whether a context is available, whether a submission or a copy raises) is an
input of the call.

The K/V vectors of a token are one value, and an attention output is represented by what it was
computed from: the list, for every request, of the slots read and the vectors found there.

* `Impl`, `Metadata`, `Batch`, `Env` : the inputs of a call;
* `State` : the CPU cache and the mirror entry (an entry not created yet is a fresh one);
* `tryWriteTokens`, `tryWriteAndDecode`, `tryDecode` : the three attempts;
* `forwardWith` : the call, with or without the merged attempt; `forward` has it.
-/

namespace VllmVulkan

namespace Attention

/-- `AttentionType`. -/
inductive AttentionType where
  | decoder
  | encoder
  | encoderOnly
  | encoderDecoder
  deriving DecidableEq, Repr

/-- The dtype of the CPU cache, as far as the backend distinguishes it. -/
inductive CacheDtype where
  | float16
  | float32
  | other
  deriving DecidableEq, Repr

/-- What `forward` reads of the layer's `VulkanAttentionBackendImpl` and of its cache tensor. -/
structure Impl where
  /-- `attn_type`. -/
  attnType : AttentionType
  /-- `kv_sharing_target_layer_name`. -/
  kvSharingTargetLayerName : Option String
  /-- `alibi_slopes is not None`. -/
  alibiSlopes : Bool
  /-- `bool(logits_soft_cap)`. -/
  logitsSoftCap : Bool
  /-- `sinks is not None`. -/
  sinks : Bool
  /-- `sliding_window`. -/
  slidingWindow : ℤ × ℤ
  /-- `head_size`. -/
  headSize : ℕ
  /-- `kv_cache.dtype`. -/
  cacheDtype : CacheDtype
  deriving DecidableEq, Repr

/-- `CPUAttentionMetadata`. -/
structure Metadata where
  causal : Bool
  useSdpaPrefill : Bool
  numActualTokens : ℕ
  numDecodeTokens : ℕ
  queryStartLoc : List ℤ
  seqLens : List ℕ
  blockTable : List (List ℤ)
  slotMapping : List ℤ
  deriving DecidableEq, Repr

/-- The tensors of one call. -/
structure Batch (V : Type) where
  /-- `attn_metadata`. -/
  metadata : Option Metadata
  /-- The K/V vectors of the rows of `key` and `value`, unless one of them is `None`. -/
  kv : Option (List V)
  /-- The number of rows of `query`. -/
  numQueryRows : ℕ
  /-- `output.shape[-1]`. -/
  outputHeadSize : ℕ

/-- What the environment does to one attempt. -/
structure Faults where
  /-- A context is available. -/
  context : Bool
  /-- Resolving the entry or preparing the ops raises. -/
  prepare : Bool
  /-- `execute_batch` raises, and stores nothing. -/
  execute : Bool
  /-- Copying the outputs raises. -/
  copy : Bool
  deriving DecidableEq, Repr

/-- Nothing goes wrong. -/
def noFaults : Faults := ⟨true, false, false, false⟩

/-- The environment of one call. -/
structure Env where
  /-- `VLLM_VULKAN_DISABLE_ATTN`. -/
  disableAttn : Bool
  /-- The merged attempt. -/
  merged : Faults
  /-- The separate write. -/
  write : Faults
  /-- The separate decode. -/
  decode : Faults
  deriving DecidableEq, Repr

/-- The caches of one layer. -/
structure State (V : Type) where
  /-- The CPU cache, slot by slot. -/
  cpu : ℕ → V
  /-- The mirror entry. -/
  entry : Entry V

/-- A part of the output, with what it was computed from. -/
inductive Part (V : Type) where
  /-- `_run_sdpa_forward` on the tokens from `lo` to `hi`. -/
  | sdpa (lo hi : ℕ)
  /-- CPU attention on the first `numTokens` tokens, over this CPU cache. -/
  | cpu (cache : ℕ → V) (numTokens : ℕ)
  /-- Vulkan decode: the slots each request read, with the vectors found there. -/
  | vulkan (reads : List (List (ℕ × V)))

/-! ### Support -/

/-- `query_lens_all_ones`. -/
def queryLensAllOnes (md : Metadata) (numActualTokens : ℕ) : Bool :=
  let queryLens := List.zipWith (· - ·) md.queryStartLoc.tail md.queryStartLoc.dropLast
  queryLens.length == numActualTokens && (queryLens.take numActualTokens).all (· == 1)

/-- `_supports_vulkan_decode`. -/
def supportsVulkanDecode {V : Type} (impl : Impl) (b : Batch V) (md : Metadata)
    (numActualTokens : ℕ) : Bool :=
  if impl.attnType ≠ .decoder then false
  else if !md.causal then false
  else if impl.kvSharingTargetLayerName.isSome then false
  else if b.kv.isNone then false
  else if impl.alibiSlopes || impl.logitsSoftCap then false
  else if impl.sinks || impl.slidingWindow ≠ (-1, -1) then false
  else if b.outputHeadSize ≠ impl.headSize then false
  else if impl.cacheDtype = .other then false
  else queryLensAllOnes md numActualTokens

section

variable {V : Type}

/-! ### Ops, slot by slot -/

/-- The stores of a mirror write, refused like `_build_paged_kv_write_op` refuses it. -/
def mirrorStores (layout : VulkanPagedKVLayout) (slots : List ℤ) (kv : List V) :
    Py (List (ℕ × V)) := do
  raiseIf (kv.length ≤ 0) (.valueError "K/V must contain at least one token")
  let slots ← KvOps.slotMappingToU32 (.ofList slots) kv.length layout.capacityTokensPerLayer
  return slots.zip kv

/-- The slots a decode reads for one request, refused like `_build_paged_attn_decode_op` refuses
it. -/
def decodeSlots (layout : VulkanPagedKVLayout) (row : List ℤ) (seqLen : ℕ) : Py (List ℕ) := do
  raiseIf (seqLen ≤ 0) (.valueError "seq_len must be > 0")
  raiseIf (seqLen > layout.capacityTokensPerLayer) (.valueError
    s!"seq_len {seqLen} exceeds capacity {layout.capacityTokensPerLayer}")
  let blocks ← KvOps.blockTableToU32 (.ofList row) (ceilDiv seqLen layout.blockSize)
    layout.numBlocks
  return (List.range seqLen).map (slotAt layout.blockSize blocks)

/-- The slots a decode batch reads; an empty batch has no outputs to stack. -/
def decodeBatchSlots (layout : VulkanPagedKVLayout) (numQueries : ℕ) (blockTables : List (List ℤ))
    (seqLens : List ℕ) : Py (List (List ℕ)) := do
  raiseIf (¬ (numQueries = blockTables.length ∧ blockTables.length = seqLens.length)) (.valueError
    (s!"queries, block_tables, and seq_lens must have the same length " ++
      s!"(got {numQueries}, {blockTables.length}, {seqLens.length})"))
  raiseIf (numQueries = 0) (.runtimeError "stack expects a non-empty TensorList")
  (blockTables.zip seqLens).mapM fun rn => decodeSlots layout rn.1 rn.2

/-- The ops of a merged batch: the stores of the write and the slots the decodes read. -/
def mergedOps (layout : VulkanPagedKVLayout) (slots : List ℤ) (kv : List V) (numQueries : ℕ)
    (blockTables : List (List ℤ)) (seqLens : List ℕ) : Py (List (ℕ × V) × List (List ℕ)) := do
  let reads ← decodeBatchSlots layout numQueries blockTables seqLens
  let ss ← mirrorStores layout slots kv
  return (ss, reads)

/-- The vectors found in the slots. -/
def readSlots (mirror : ℕ → V) (slots : List (List ℕ)) : List (List (ℕ × V)) :=
  slots.map fun req => req.map fun s => (s, mirror s)

/-! ### The three attempts -/

/-- `_try_write_tokens_to_vulkan_cache`. -/
def tryWriteTokens (impl : Impl) (f : Faults) (st : State V) (kv : List V) (slotMapping : List ℤ)
    (numTokens : ℕ) : State V :=
  if numTokens ≤ 0 ∨ impl.cacheDtype = .other then st
  else if !f.context || f.prepare then st
  else
    match mirrorStores st.entry.layout (slotMapping.take numTokens) (kv.take numTokens) with
    | .error _ => st
    | .ok ss =>
      if f.execute then st
      else { st with entry := (st.entry.store ss).mark (slotMapping.take numTokens) }

/-- `_try_write_and_decode_vulkan`: what it read when it returns `True`, and the state after it. -/
def tryWriteAndDecode (impl : Impl) (env : Env) (st : State V) (b : Batch V) (md : Metadata)
    (kv : List V) (numActualTokens : ℕ) : Option (List (List (ℕ × V))) × State V :=
  if numActualTokens ≤ 0 then (none, st)
  else if !supportsVulkanDecode impl b md numActualTokens then (none, st)
  else if env.disableAttn then (none, st)
  else if !env.merged.context || env.merged.prepare then (none, st)
  else
    let blockTable := md.blockTable.take numActualTokens
    let seqLens := md.seqLens.take numActualTokens
    let slots := md.slotMapping.take numActualTokens
    let checked := Entry.hasSequences true st.entry blockTable seqLens
    let e := checked.2
    if checked.1 ≠ some true then (none, { st with entry := e })
    else
      match mergedOps e.layout slots (kv.take numActualTokens)
        (min numActualTokens b.numQueryRows) blockTable seqLens with
      | .error _ => (none, { st with entry := e })
      | .ok (ss, reads) =>
        if env.merged.execute then (none, { st with entry := e })
        else
          let e := e.store ss
          if env.merged.copy then (none, { st with entry := e })
          else
            let rechecked := Entry.hasSequences false (e.mark slots) blockTable seqLens
            if rechecked.1 = none then (none, { st with entry := rechecked.2 })
            else (some (readSlots e.mirror reads), { st with entry := rechecked.2 })

/-- `_try_vulkan_decode`: what it read when it returns `True`, and the state after it. -/
def tryDecode (impl : Impl) (env : Env) (st : State V) (b : Batch V) (md : Metadata)
    (numActualTokens : ℕ) : Option (List (List (ℕ × V))) × State V :=
  if env.disableAttn then (none, st)
  else if !supportsVulkanDecode impl b md numActualTokens then (none, st)
  else if !env.decode.context || env.decode.prepare then (none, st)
  else
    let blockTable := md.blockTable.take numActualTokens
    let seqLens := md.seqLens.take numActualTokens
    let checked := Entry.hasSequences false st.entry blockTable seqLens
    let st := { st with entry := checked.2 }
    if checked.1 ≠ some true then (none, st)
    else
      match decodeBatchSlots st.entry.layout (min numActualTokens b.numQueryRows) blockTable
        seqLens with
      | .error _ => (none, st)
      | .ok reads =>
        if env.decode.execute || env.decode.copy then (none, st)
        else (some (readSlots st.entry.mirror reads), st)

/-! ### The call -/

/-- The CPU write: every token is stored at its slot, negative slots are skipped. -/
def cpuStores (slotMapping : List ℤ) (kv : List V) : List (ℕ × V) :=
  ((slotMapping.zip kv).filter fun sv => 0 ≤ sv.1).map fun sv => (sv.1.toNat, sv.2)

/-- The part of `forward` after the writes. -/
def finish (impl : Impl) (env : Env) (st : State V) (b : Batch V) (md : Metadata) :
    State V × Option (List (Part V)) :=
  if md.useSdpaPrefill ∧ impl.sinks then (st, none)
  else
    let parts := if md.useSdpaPrefill then [.sdpa md.numDecodeTokens md.numActualTokens] else []
    let numActualTokens := if md.useSdpaPrefill then md.numDecodeTokens else md.numActualTokens
    if numActualTokens > 0 then
      if md.useSdpaPrefill then (st, some (parts ++ [.cpu st.cpu numActualTokens]))
      else
        let decoded := tryDecode impl env st b md numActualTokens
        match decoded.1 with
        | some reads => (decoded.2, some (parts ++ [.vulkan reads]))
        | none => (decoded.2, some (parts ++ [.cpu decoded.2.cpu numActualTokens]))
    else (st, some parts)

/-- `forward`, with the merged attempt when `tryMerged` is set; an output of `none` is a failed
assertion. -/
def forwardWith (tryMerged : Bool) (impl : Impl) (st : State V) (call : Batch V × Env) :
    State V × Option (List (Part V)) :=
  let b := call.1
  let env := call.2
  match b.metadata with
  | none => (st, some [])
  | some md =>
    if impl.attnType = .encoderOnly ∨ impl.attnType = .encoder then
      (st, some [.sdpa 0 md.numActualTokens])
    else
      match b.kv, impl.kvSharingTargetLayerName with
      | some kv, none =>
        let st := { st with cpu := Store.applyStores st.cpu (cpuStores md.slotMapping kv) }
        let merged :=
          if tryMerged && !md.useSdpaPrefill then
            tryWriteAndDecode impl env st b md kv md.numActualTokens
          else (none, st)
        match merged.1 with
        | some reads => (merged.2, some [.vulkan reads])
        | none =>
          let st := tryWriteTokens impl env.write merged.2 kv md.slotMapping md.numActualTokens
          finish impl env st b md
      | _, _ => finish impl env st b md

/-- `forward`. -/
def forward (impl : Impl) (st : State V) (call : Batch V × Env) :
    State V × Option (List (Part V)) :=
  forwardWith true impl st call

end

end Attention

end VllmVulkan
