import VllmVulkan.Gemma4.Dispatch

/-!
# The GPU forward pass

`VulkanModel` runs the matrix products, and where it can the whole post-attention half of a layer,
on the GPU; the attention runs on the CPU.  Each layer takes its branch by the weights that are
resident.

* `VulkanModel`, `GpuState` : the model, and its caches and activation buffers;
* `computeLayerGpuCaps`, `computeLayerCpuWeightRefs`, `computeLayerGpuWeightRefs`,
  `computeLayerAttnGpuWeightRefs` : what is precomputed at load time for a layer;
* `fusedPostAttention`, `forwardLayerGpuMatmuls`, `forwardGpu` : the forward pass.
-/

namespace VllmVulkan

namespace Gemma4

open Elementary Commands Panics

variable {K : Type}

/-- The temporary buffers of `gpu_matmul_or_cpu`. -/
inductive Temp where
  | inp
  | out
  deriving DecidableEq, Repr

/-- What the device leaves open. -/
structure Device (K : Type) where
  /-- The order of the dispatches between two barriers. -/
  order : Schedule Act (List K)
  orderTemp : Schedule Temp (List K)
  /-- The contents of the activation buffers when they are allocated. -/
  fresh : Act → ℕ → K
  /-- The contents of the temporary buffers that the products take from the pool, one product after
  the other: a buffer that was used before keeps what was left in it. -/
  freshTemp : ℕ → Temp → ℕ → K

/-- `VulkanModel`, less its caches and activation buffers. -/
structure VulkanModel (K : Type) where
  inner : Gemma4Model K
  /-- `engine.is_some()`. -/
  engine : Bool
  /-- The resident weights. -/
  gpuWeights : Weights K
  device : Device K

/-- The caches and the activation buffers; `none` until `act_bufs_ready`. -/
structure GpuState (K : Type) where
  kvCaches : Caches K
  actBufs : Option (Mem Act K)
  /-- Whether the next attempts to allocate the activation buffers succeed. -/
  allocs : ℕ → Bool
  /-- How many products have used temporary buffers. -/
  products : ℕ

/-! ### Precomputed at load time -/

/-- `LayerGpuCaps`. -/
structure LayerGpuCaps where
  hasGpuWeights : Bool
  hasFusedQkvWeights : Bool
  hasFusedPostAttnWeights : Bool
  deriving DecidableEq, Repr

/-- `compute_layer_gpu_caps`, for one layer. -/
def computeLayerGpuCaps (gpuWeights : Weights K) (layerIdx : ℕ) : LayerGpuCaps :=
  let containsKey := fun w => (gpuWeights (.layer layerIdx w)).isSome
  { hasGpuWeights := containsKey .qProj && containsKey .inputLayernorm
    hasFusedQkvWeights := containsKey .qkvProj
    hasFusedPostAttnWeights := containsKey .oProj
      && containsKey .postAttentionLayernorm
      && containsKey .preFeedforwardLayernorm
      && containsKey .gateProj
      && containsKey .upProj
      && containsKey .downProj
      && containsKey .postFeedforwardLayernorm
      && containsKey .perLayerInputGate
      && containsKey .perLayerProjection
      && containsKey .postPerLayerInputNorm
      && containsKey .layerScalar }

/-- `LayerCpuWeightRefs`. -/
structure LayerCpuWeightRefs (K : Type) where
  inputLayernorm : List K
  qNorm : List K
  /-- `none` for KV-shared layers. -/
  kNorm : Option (List K)
  postAttentionLayernorm : List K
  preFeedforwardLayernorm : List K
  postFeedforwardLayernorm : List K
  postPerLayerInputNorm : List K
  layerScalar : K

/-- `compute_layer_cpu_weight_refs`, for one layer. -/
def computeLayerCpuWeightRefs (cfg : Gemma4Config K) (weights : Weights K) (layerIdx : ℕ) :
    Option (LayerCpuWeightRefs K) := do
  let raw := fun w => weights (.layer layerIdx w)
  let inputLayernorm ← raw .inputLayernorm
  let qNorm ← raw .qNorm
  let kNorm ← if cfg.isKvShared layerIdx then some none else (raw .kNorm).map some
  let postAttentionLayernorm ← raw .postAttentionLayernorm
  let preFeedforwardLayernorm ← raw .preFeedforwardLayernorm
  let postFeedforwardLayernorm ← raw .postFeedforwardLayernorm
  let postPerLayerInputNorm ← raw .postPerLayerInputNorm
  let layerScalar ← (← raw .layerScalar)[0]?
  pure {
    inputLayernorm, qNorm, kNorm, postAttentionLayernorm, preFeedforwardLayernorm
    postFeedforwardLayernorm, postPerLayerInputNorm, layerScalar }

/-- `LayerGpuWeightRefs`. -/
structure LayerGpuWeightRefs (K : Type) where
  oProj : List K
  postAttentionLayernorm : List K
  preFeedforwardLayernorm : List K
  gateProj : List K
  upProj : List K
  downProj : List K
  postFeedforwardLayernorm : List K
  perLayerInputGate : List K
  perLayerProjection : List K
  postPerLayerInputNorm : List K
  layerScalar : List K

/-- `compute_layer_gpu_weight_refs`, for one layer: the references, or `none` without the caps. -/
def computeLayerGpuWeightRefs (gpuWeights : Weights K) (layerIdx : ℕ) :
    Option (Option (LayerGpuWeightRefs K)) := do
  if (computeLayerGpuCaps gpuWeights layerIdx).hasFusedPostAttnWeights then
    let buf := fun w => gpuWeights (.layer layerIdx w)
    let oProj ← buf .oProj
    let postAttentionLayernorm ← buf .postAttentionLayernorm
    let preFeedforwardLayernorm ← buf .preFeedforwardLayernorm
    let gateProj ← buf .gateProj
    let upProj ← buf .upProj
    let downProj ← buf .downProj
    let postFeedforwardLayernorm ← buf .postFeedforwardLayernorm
    let perLayerInputGate ← buf .perLayerInputGate
    let perLayerProjection ← buf .perLayerProjection
    let postPerLayerInputNorm ← buf .postPerLayerInputNorm
    let layerScalar ← buf .layerScalar
    pure (some {
      oProj, postAttentionLayernorm, preFeedforwardLayernorm, gateProj, upProj, downProj
      postFeedforwardLayernorm, perLayerInputGate, perLayerProjection, postPerLayerInputNorm
      layerScalar })
  else pure none

/-- `QkvGpuWeightRefs`. -/
inductive QkvGpuWeightRefs (K : Type) where
  | fused (qkv : List K)
  | separate (q k v : List K)

/-- `LayerAttnGpuWeightRefs`. -/
structure LayerAttnGpuWeightRefs (K : Type) where
  inputLayernorm : List K
  qkv : QkvGpuWeightRefs K

/-- `compute_layer_attn_gpu_weight_refs`, for one layer: the references, or `none` without the
caps. -/
def computeLayerAttnGpuWeightRefs (gpuWeights : Weights K) (layerIdx : ℕ) :
    Option (Option (LayerAttnGpuWeightRefs K)) := do
  let caps := computeLayerGpuCaps gpuWeights layerIdx
  if caps.hasGpuWeights then
    let buf := fun w => gpuWeights (.layer layerIdx w)
    let qkv ← if caps.hasFusedQkvWeights then (buf .qkvProj).map .fused else do
      let q ← buf .qProj
      let k ← buf .kProj
      let v ← buf .vProj
      pure (.separate q k v)
    let inputLayernorm ← buf .inputLayernorm
    pure (some { inputLayernorm, qkv })
  else pure none

/-! ### Activation buffers -/

variable [Field K] [Elementary K]

/-- The activation buffers as `init_act_bufs` allocates and fills them. -/
def freshActBufs (m : VulkanModel K) : Option (Mem Act K) := do
  let cap := m.inner.config.finalLogitSoftcapping
  let mem : Mem Act K := fun slot =>
    (List.range (actSize m.inner.config slot)).map (m.device.fresh slot)
  let mem ← writeBuf mem .invCap [1 / cap]
  writeBuf mem .cap [cap]

/-- `init_act_bufs`. -/
def initActBufs (m : VulkanModel K) : Panics (GpuState K) Bool := do
  let st ← Panics.get
  if st.actBufs.isSome then pure true
  else if m.engine then
    if st.allocs 0 then
      let mem ← lift (freshActBufs m)
      Panics.set { st with actBufs := some mem, allocs := fun n => st.allocs (n + 1) }
      pure true
    else
      Panics.set { st with allocs := fun n => st.allocs (n + 1) }
      pure false
  else pure false

/-- A computation on the activation buffers. -/
def onActs {α : Type} (f : Mem Act K → Option (α × Mem Act K)) : Panics (GpuState K) α := do
  let st ← Panics.get
  let mem ← lift st.actBufs
  let (a, mem) ← lift (f mem)
  Panics.set { st with actBufs := some mem }
  pure a

/-- `self.act_bufs[slot].write(data).unwrap()`. -/
def writeAct (slot : Act) (data : List K) : Panics (GpuState K) Unit :=
  onActs fun mem => (writeBuf mem slot data).map ((), ·)

/-- `submit_batch` of the dispatches recorded. -/
def submitActs (m : VulkanModel K) (rs : List (Record Act K)) : Panics (GpuState K) Unit :=
  onActs fun mem => (submitBatch m.device.order rs mem).map ((), ·)

/-- `read_f32_buf_at` of an activation buffer. -/
def readAct (slot : Act) (offset count : ℕ) : Panics (GpuState K) (List K) :=
  onActs fun mem => (readF32BufAt mem slot offset count).map (·, mem)

/-- `FBuf`. -/
inductive FBuf (K : Type) where
  | borrowed (slot : Act) (len : ℕ)
  | owned (data : List K)

/-- The elements of an `FBuf`, read where they are used. -/
def FBuf.deref : FBuf K → Panics (GpuState K) (List K)
  | .borrowed slot len => readAct slot 0 len
  | .owned data => pure data

/-! ### The forward pass -/

/-- `gpu_matmul_or_cpu` on the device, with temporary buffers of the contents `contents`. -/
def gpuMatmul (m : VulkanModel K) (contents : Temp → ℕ → K) (w x : List K) (t n : ℕ) (pc : MvPc) :
    Option (List K) := do
  let mem : Mem Temp K := fun
    | .inp => (List.range x.length).map (contents .inp)
    | .out => (List.range (t * n)).map (contents .out)
  let mem ← writeBuf mem .inp x
  let mem ← submitBatch m.device.orderTemp
    [.dispatch (.mulMatVec .f16 (.weight w) (.slot .inp) .out pc)] mem
  readF32Buf mem .out (t * n)

/-- `gpu_matmul_or_cpu`. -/
def gpuMatmulOrCpu (m : VulkanModel K) (weightName : WeightName) (x : List K) (t k n : ℕ)
    (pc : MvPc) : Panics (GpuState K) (List K) :=
  match m.engine, m.gpuWeights weightName with
  | true, some w => do
    let st ← Panics.get
    Panics.set { st with products := st.products + 1 }
    lift (gpuMatmul m (m.device.freshTemp st.products) w x t n pc)
  | _, _ => do
    let w ← lift (m.inner.weights weightName)
    pure (cpuMatmul x w t k n)

/-- The QKV submit of `forward_layer_gpu_matmuls`. -/
def qkvGpu (m : VulkanModel K) (layerIdx : ℕ) (hidden : List K) :
    Panics (GpuState K) (List K × List K × List K) := do
  let cfg := m.inner.config
  let h := cfg.hiddenSize
  let qDim := cfg.qDim layerIdx
  let kvDim := cfg.kvDim layerIdx
  writeAct .rawHidden hidden
  let refs ← lift (computeLayerAttnGpuWeightRefs m.gpuWeights layerIdx)
  let attnGpuW ← lift refs
  let norm : Record Act K := .dispatch (.rmsNormMul (.slot .rawHidden)
    (.weight attnGpuW.inputLayernorm) .qkvIn (rmsNormMulPc h cfg.rmsNormEps))
  match attnGpuW.qkv with
  | .fused qkvW =>
    let qkvDim := qDim + 2 * kvDim
    submitActs m [
      norm,
      .barrier,
      .dispatch (.mulMatVec .f16 (.weight qkvW) (.slot .qkvIn) .qkvOut (mvPc h qkvDim 1))]
    let q ← readAct .qkvOut 0 qDim
    let k ← readAct .qkvOut qDim kvDim
    let v ← readAct .qkvOut (qDim + kvDim) kvDim
    pure (q, k, v)
  | .separate qW kW vW =>
    submitActs m [
      norm,
      .barrier,
      .dispatch (.mulMatVec .f16 (.weight qW) (.slot .qkvIn) .qOut (mvPc h qDim 1)),
      .dispatch (.mulMatVec .f16 (.weight kW) (.slot .qkvIn) .kOut (mvPc h kvDim 1)),
      .dispatch (.mulMatVec .f16 (.weight vW) (.slot .qkvIn) .vOut (mvPc h kvDim 1))]
    let q ← readAct .qOut 0 qDim
    let k ← readAct .kOut 0 kvDim
    let v ← readAct .vOut 0 kvDim
    pure (q, k, v)

/-- The QKV projections of `forward_layer_gpu_matmuls` on the CPU. -/
def qkvCpu (m : VulkanModel K) (layerIdx : ℕ) (hidden inlnW : List K) :
    Option (List K × List K × List K) := do
  let cfg := m.inner.config
  let h := cfg.hiddenSize
  let x ← cpuRmsNorm hidden inlnW cfg.rmsNormEps
  let qW ← m.inner.weights (.layer layerIdx .qProj)
  let kW ← m.inner.weights (.layer layerIdx .kProj)
  let vW ← m.inner.weights (.layer layerIdx .vProj)
  pure (cpuMatmul x qW 1 h (cfg.qDim layerIdx), cpuMatmul x kW 1 h (cfg.kvDim layerIdx),
    cpuMatmul x vW 1 h (cfg.kvDim layerIdx))

/-- `fused_post_attention`. -/
def fusedPostAttention (m : VulkanModel K) (layerIdx : ℕ) (attnOut residual layerPle : List K) :
    Panics (GpuState K) (List K) := do
  let cfg := m.inner.config
  let h := cfg.hiddenSize
  let eps := cfg.rmsNormEps
  let qDim := cfg.qDim layerIdx
  let ffnInter := cfg.layerIntermediateSize layerIdx
  let pleDim := cfg.hiddenSizePerLayerInput
  writeAct .oIn attnOut
  writeAct .residual residual
  writeAct .pleLayer layerPle
  let refs ← lift (computeLayerGpuWeightRefs m.gpuWeights layerIdx)
  let gpuW ← lift refs
  submitActs m [
    -- o_proj
    .dispatch (.mulMatVec .f16 (.weight gpuW.oProj) (.slot .oIn) .oOut (mvPc qDim h 1)),
    .barrier,
    -- post_attn_norm and residual add
    .dispatch (.rmsNormMul (.slot .oOut) (.weight gpuW.postAttentionLayernorm) .paNormed
      (rmsNormMulPc h eps)),
    .barrier,
    .dispatch (.add (.slot .residual) (.slot .paNormed) .hidden2 (binaryElementwisePc h)),
    .barrier,
    -- pre_ffn_norm
    .dispatch (.rmsNormMul (.slot .hidden2) (.weight gpuW.preFeedforwardLayernorm) .ffin
      (rmsNormMulPc h eps)),
    .barrier,
    -- FFN: gate and up are independent
    .dispatch (.mulMatVec .f16 (.weight gpuW.gateProj) (.slot .ffin) .gate (mvPc h ffnInter 1)),
    .dispatch (.mulMatVec .f16 (.weight gpuW.upProj) (.slot .ffin) .up (mvPc h ffnInter 1)),
    .barrier,
    .dispatch (.gelu (.slot .gate) .gelu (unaryHeadPc ffnInter)),
    .barrier,
    .dispatch (.mul (.slot .gelu) (.slot .up) .mid (binaryElementwisePc ffnInter)),
    .barrier,
    .dispatch (.mulMatVec .f16 (.weight gpuW.downProj) (.slot .mid) .down (mvPc ffnInter h 1)),
    .barrier,
    -- post_ffn_norm and residual add
    .dispatch (.rmsNormMul (.slot .down) (.weight gpuW.postFeedforwardLayernorm) .ffNormed
      (rmsNormMulPc h eps)),
    .barrier,
    .dispatch (.add (.slot .hidden2) (.slot .ffNormed) .hidden3a (binaryElementwisePc h)),
    .barrier,
    -- PLE
    .dispatch (.mulMatVec .f16 (.weight gpuW.perLayerInputGate) (.slot .hidden3a) .pleG
      (mvPc h pleDim 1)),
    .barrier,
    .dispatch (.gelu (.slot .pleG) .pleGelu (unaryHeadPc pleDim)),
    .barrier,
    .dispatch (.mul (.slot .pleGelu) (.slot .pleLayer) .pleMid (binaryElementwisePc pleDim)),
    .barrier,
    .dispatch (.mulMatVec .f16 (.weight gpuW.perLayerProjection) (.slot .pleMid) .pleC
      (mvPc pleDim h 1)),
    .barrier,
    -- contrib norm and residual add
    .dispatch (.rmsNormMul (.slot .pleC) (.weight gpuW.postPerLayerInputNorm) .contribNormed
      (rmsNormMulPc h eps)),
    .barrier,
    .dispatch (.add (.slot .hidden3a) (.slot .contribNormed) .hidden3b (binaryElementwisePc h)),
    .barrier,
    -- layer scalar, broadcast
    .dispatch (.mul (.slot .hidden3b) (.weight gpuW.layerScalar) .hidden3Final
      (binaryBroadcastPc h))]
  readAct .hidden3Final 0 h

/-- The o_proj of `forward_layer_gpu_matmuls`, without the fused chain. -/
def oProjection (m : VulkanModel K) (layerIdx : ℕ) (useGpu : Bool) (attnOut : List K) :
    Panics (GpuState K) (FBuf K) := do
  let h := m.inner.config.hiddenSize
  let qDim := m.inner.config.qDim layerIdx
  match useGpu, m.gpuWeights (.layer layerIdx .oProj) with
  | true, some ow => do
    writeAct .oIn attnOut
    submitActs m [.dispatch (.mulMatVec .f16 (.weight ow) (.slot .oIn) .oOut (mvPc qDim h 1))]
    pure (.borrowed .oOut h)
  | _, _ => do
    let ow ← lift (m.inner.weights (.layer layerIdx .oProj))
    pure (.owned (cpuMatmul attnOut ow 1 qDim h))

/-- The FFN of `forward_layer_gpu_matmuls`, without the fused chain. -/
def ffn (m : VulkanModel K) (layerIdx : ℕ) (useGpu : Bool) (ffIn : List K) :
    Panics (GpuState K) (FBuf K) := do
  let h := m.inner.config.hiddenSize
  let ffnInter := m.inner.config.layerIntermediateSize layerIdx
  match useGpu, m.gpuWeights (.layer layerIdx .gateProj), m.gpuWeights (.layer layerIdx .downProj)
    with
  | true, some gw, some dw => do
    writeAct .ffin ffIn
    let uw ← lift (m.gpuWeights (.layer layerIdx .upProj))
    submitActs m [
      .dispatch (.mulMatVec .f16 (.weight gw) (.slot .ffin) .gate (mvPc h ffnInter 1)),
      .dispatch (.mulMatVec .f16 (.weight uw) (.slot .ffin) .up (mvPc h ffnInter 1)),
      .barrier,
      .dispatch (.gelu (.slot .gate) .gelu (unaryHeadPc ffnInter)),
      .barrier,
      .dispatch (.mul (.slot .gelu) (.slot .up) .mid (binaryElementwisePc ffnInter)),
      .barrier,
      .dispatch (.mulMatVec .f16 (.weight dw) (.slot .mid) .down (mvPc ffnInter h 1))]
    pure (.borrowed .down h)
  | _, _, _ => do
    let gateW ← lift (m.inner.weights (.layer layerIdx .gateProj))
    let upW ← lift (m.inner.weights (.layer layerIdx .upProj))
    let gate := cpuMatmul ffIn gateW 1 h ffnInter
    let up := cpuMatmul ffIn upW 1 h ffnInter
    let mid := List.zipWith (· * ·) (cpuGelu gate) up
    let ffOut ← gpuMatmulOrCpu m (.layer layerIdx .downProj) mid 1 ffnInter h (mvPc ffnInter h 1)
    pure (.owned ffOut)

/-- The PLE contribution of `forward_layer_gpu_matmuls`, without the fused chain. -/
def pleContribution (m : VulkanModel K) (layerIdx : ℕ) (useGpu : Bool)
    (hidden3 layerPle : List K) : Panics (GpuState K) (FBuf K) := do
  let h := m.inner.config.hiddenSize
  let pleDim := m.inner.config.hiddenSizePerLayerInput
  match useGpu, m.gpuWeights (.layer layerIdx .perLayerInputGate),
    m.gpuWeights (.layer layerIdx .perLayerProjection) with
  | true, some pgw, some ppw => do
    -- the FFN input slot is reused
    writeAct .ffin hidden3
    writeAct .pleLayer layerPle
    submitActs m [
      .dispatch (.mulMatVec .f16 (.weight pgw) (.slot .ffin) .pleG (mvPc h pleDim 1)),
      .barrier,
      .dispatch (.gelu (.slot .pleG) .pleGelu (unaryHeadPc pleDim)),
      .barrier,
      .dispatch (.mul (.slot .pleGelu) (.slot .pleLayer) .pleMid (binaryElementwisePc pleDim)),
      .barrier,
      .dispatch (.mulMatVec .f16 (.weight ppw) (.slot .pleMid) .pleC (mvPc pleDim h 1))]
    pure (.borrowed .pleC h)
  | _, _, _ => do
    let pgw ← lift (m.inner.weights (.layer layerIdx .perLayerInputGate))
    let gatePle := cpuMatmul hidden3 pgw 1 h pleDim
    let gated := List.zipWith (· * ·) (cpuGelu gatePle) layerPle
    let ppw ← lift (m.inner.weights (.layer layerIdx .perLayerProjection))
    pure (.owned (cpuMatmul gated ppw 1 pleDim h))

/-- The post-attention half of `forward_layer_gpu_matmuls`, without the fused chain. -/
def branchPostAttention (m : VulkanModel K) (layerIdx : ℕ) (useGpu : Bool)
    (cpuW : LayerCpuWeightRefs K) (attnOut residual layerPle : List K) :
    Panics (GpuState K) (List K) := do
  let eps := m.inner.config.rmsNormEps
  let oProj ← oProjection m layerIdx useGpu attnOut
  let oProj ← oProj.deref
  let paNormed ← lift (cpuRmsNorm oProj cpuW.postAttentionLayernorm eps)
  let hidden2 := List.zipWith (· + ·) residual paNormed
  let ffIn ← lift (cpuRmsNorm hidden2 cpuW.preFeedforwardLayernorm eps)
  let ffOut ← ffn m layerIdx useGpu ffIn
  let ffOut ← ffOut.deref
  let ffNormed ← lift (cpuRmsNorm ffOut cpuW.postFeedforwardLayernorm eps)
  let hidden3 := List.zipWith (· + ·) hidden2 ffNormed
  let contrib ← pleContribution m layerIdx useGpu hidden3 layerPle
  let contrib ← contrib.deref
  let contribNormed ← lift (cpuRmsNorm contrib cpuW.postPerLayerInputNorm eps)
  let hidden3 := List.zipWith (· + ·) hidden3 contribNormed
  pure (hidden3.map (· * cpuW.layerScalar))

variable [LinearOrder K]

/-- `forward_layer_gpu_matmuls`. -/
def forwardLayerGpuMatmuls (m : VulkanModel K) (layerIdx : ℕ) (hidden : List K) (pos : ℕ)
    (layerPle : List K) : Panics (GpuState K) (List K) := do
  let cfg := m.inner.config
  let cpuW ← lift (computeLayerCpuWeightRefs cfg m.inner.weights layerIdx)
  let caps := computeLayerGpuCaps m.gpuWeights layerIdx
  let useGpu ← (if m.engine && caps.hasGpuWeights then initActBufs m else pure false)
  let useFusedPostAttn := useGpu && caps.hasFusedPostAttnWeights
  let (q, k, v) ← (if useGpu then qkvGpu m layerIdx hidden
    else lift (qkvCpu m layerIdx hidden cpuW.inputLayernorm))
  let attnOut ← zoom GpuState.kvCaches (fun st caches => { st with kvCaches := caches })
    (attention cfg layerIdx q k v cpuW.qNorm cpuW.kNorm pos)
  if useFusedPostAttn then fusedPostAttention m layerIdx attnOut hidden layerPle
  else branchPostAttention m layerIdx useGpu cpuW attnOut hidden layerPle

/-- The final norm, the LM head and the softcap of `forward_gpu`, on the GPU. -/
def lmHeadGpu (m : VulkanModel K) (lmW normW hidden : List K) : Panics (GpuState K) (List K) := do
  let cfg := m.inner.config
  let h := cfg.hiddenSize
  let vocab := cfg.vocabSize
  writeAct .rawHidden hidden
  submitActs m [
    .dispatch (.rmsNormMul (.slot .rawHidden) (.weight normW) .qkvIn
      (rmsNormMulPc h cfg.rmsNormEps)),
    .barrier,
    .dispatch (.mulMatVec .f32 (.weight lmW) (.slot .qkvIn) .logitRaw (mvPc h vocab 1)),
    .barrier,
    .dispatch (.mul (.slot .logitRaw) (.slot .invCap) .logitScaled (binaryBroadcastPc vocab)),
    .barrier,
    .dispatch (.tanh (.slot .logitScaled) .logitTanh (unaryHeadPc vocab)),
    .barrier,
    .dispatch (.mul (.slot .logitTanh) (.slot .cap) .logitFinal (binaryBroadcastPc vocab))]
  readAct .logitFinal 0 vocab

/-- `VulkanModel::forward_gpu`. -/
def forwardGpu (m : VulkanModel K) (tokenId position : ℕ) : Panics (GpuState K) (List K) := do
  let cfg := m.inner.config
  let h := cfg.hiddenSize
  let pleDim := cfg.hiddenSizePerLayerInput
  let totalPle := cfg.totalPle
  let hidden ← lift (embed m.inner tokenId)
  let pleEmbedsFlat ← lift (pleEmbeds m.inner tokenId)
  let pc : MvPc := ⟨h, h, h, totalPle, h * totalPle, h, totalPle, 0, 0, 1, 1, 1, 1⟩
  let pleProj ← gpuMatmulOrCpu m .perLayerModelProjection hidden 1 h totalPle pc
  let pleInputs ← lift (pleInputs m.inner pleEmbedsFlat pleProj)
  let hidden ← (List.range cfg.numHiddenLayers).foldlM (fun hidden layerIdx => do
    let layerPle ← lift (slice pleInputs (layerIdx * pleDim) ((layerIdx + 1) * pleDim))
    forwardLayerGpuMatmuls m layerIdx hidden position layerPle) hidden
  match m.engine, m.gpuWeights .embedTokens, m.gpuWeights .norm with
  | true, some lmW, some normW => do
    let useGpuLmHead ← initActBufs m
    if useGpuLmHead then lmHeadGpu m lmW normW hidden else lift (lmHead m.inner hidden)
  | _, _, _ => lift (lmHead m.inner hidden)

end Gemma4

end VllmVulkan
