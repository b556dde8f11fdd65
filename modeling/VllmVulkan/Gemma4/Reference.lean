import VllmVulkan.Gemma4.Ops
import VllmVulkan.Lib.Panic
import Mathlib.Algebra.Field.Rat
import Mathlib.Algebra.Order.Ring.Rat

/-!
# The CPU reference of the Gemma4 forward pass

The state of the model is its KV caches, one for every layer.

* `Gemma4Config`, `Weights`, `KvCache` : the configuration, the weights and the cache of one layer;
* `attention` : the part of a layer that touches the caches;
* `forwardLayer`, `forward` : one layer, and one token.
-/

namespace VllmVulkan

namespace Gemma4

open Elementary Panics

/-- `Gemma4Config`. -/
structure Gemma4Config (K : Type) where
  hiddenSize : ℕ
  numHiddenLayers : ℕ
  numAttentionHeads : ℕ
  numKeyValueHeads : ℕ
  /-- The head size of the sliding layers. -/
  headDim : ℕ
  /-- The head size of the full-attention layers. -/
  globalHeadDim : ℕ
  intermediateSize : ℕ
  numKvSharedLayers : ℕ
  vocabSize : ℕ
  rmsNormEps : K
  slidingWindow : ℕ
  /-- The size of the per-layer embeddings (PLE). -/
  hiddenSizePerLayerInput : ℕ
  finalLogitSoftcapping : K
  embedScale : K
  pleScale : K
  perLayerProjectionScale : K
  perLayerInputScale : K

namespace Gemma4Config

/-- `Gemma4Config::e2b`. -/
def e2b {K : Type} [Field K] [Elementary K] : Gemma4Config K where
  hiddenSize := 1536
  numHiddenLayers := 35
  numAttentionHeads := 8
  numKeyValueHeads := 1
  headDim := 256
  globalHeadDim := 512
  intermediateSize := 6144
  numKvSharedLayers := 20
  vocabSize := 262144
  rmsNormEps := 1 / 1000000
  slidingWindow := 512
  hiddenSizePerLayerInput := 256
  finalLogitSoftcapping := 30
  embedScale := sqrt 1536
  pleScale := sqrt 256
  perLayerProjectionScale := powf 1536 (-1 / 2)
  perLayerInputScale := powf 2 (-1 / 2)

variable {K : Type} (cfg : Gemma4Config K)

/-- `first_kv_shared_layer`. -/
def firstKvSharedLayer : ℕ := usizeSub cfg.numHiddenLayers cfg.numKvSharedLayers

/-- `is_full_attention`; it depends on the layer only. -/
def isFullAttention (_cfg : Gemma4Config K) (idx : ℕ) : Bool := idx % 5 == 4

/-- `layer_head_dim`. -/
def layerHeadDim (idx : ℕ) : ℕ := if cfg.isFullAttention idx then cfg.globalHeadDim else cfg.headDim

/-- `layer_intermediate_size`. -/
def layerIntermediateSize (idx : ℕ) : ℕ :=
  if idx ≥ cfg.firstKvSharedLayer then cfg.intermediateSize * 2 else cfg.intermediateSize

/-- `is_kv_shared`. -/
def isKvShared (idx : ℕ) : Bool := idx ≥ cfg.firstKvSharedLayer

/-- The size of the queries of a layer. -/
def qDim (idx : ℕ) : ℕ := cfg.numAttentionHeads * cfg.layerHeadDim idx

/-- The size of the keys, and of the values, of a layer. -/
def kvDim (idx : ℕ) : ℕ := cfg.numKeyValueHeads * cfg.layerHeadDim idx

/-- The size of the per-layer embeddings of all layers. -/
def totalPle : ℕ := cfg.numHiddenLayers * cfg.hiddenSizePerLayerInput

/-- `kv_shared_target`: the last layer of the same kind before the shared ones. -/
def kvSharedTarget (layerIdx : ℕ) : Option ℕ :=
  let firstKv := cfg.firstKvSharedLayer
  if layerIdx ≥ firstKv then
    some (((List.range firstKv).reverse.find? fun i =>
      cfg.isFullAttention i == cfg.isFullAttention layerIdx).getD (usizeSub firstKv 1))
  else none

end Gemma4Config

/-- The weights of a layer, named `model.layers.{i}.…`. -/
inductive LayerWeight where
  /-- `input_layernorm.weight`. -/
  | inputLayernorm
  /-- `self_attn.q_proj.weight`. -/
  | qProj
  /-- `self_attn.k_proj.weight`. -/
  | kProj
  /-- `self_attn.v_proj.weight`. -/
  | vProj
  /-- `self_attn.qkv_proj.weight`, which is built at load time. -/
  | qkvProj
  /-- `self_attn.q_norm.weight`. -/
  | qNorm
  /-- `self_attn.k_norm.weight`. -/
  | kNorm
  /-- `self_attn.o_proj.weight`. -/
  | oProj
  /-- `post_attention_layernorm.weight`. -/
  | postAttentionLayernorm
  /-- `pre_feedforward_layernorm.weight`. -/
  | preFeedforwardLayernorm
  /-- `mlp.gate_proj.weight`. -/
  | gateProj
  /-- `mlp.up_proj.weight`. -/
  | upProj
  /-- `mlp.down_proj.weight`. -/
  | downProj
  /-- `post_feedforward_layernorm.weight`. -/
  | postFeedforwardLayernorm
  /-- `per_layer_input_gate.weight`. -/
  | perLayerInputGate
  /-- `per_layer_projection.weight`. -/
  | perLayerProjection
  /-- `post_per_layer_input_norm.weight`. -/
  | postPerLayerInputNorm
  /-- `layer_scalar`. -/
  | layerScalar
  deriving DecidableEq, Repr

/-- The names of the weights. -/
inductive WeightName where
  /-- `model.embed_tokens.weight`, which is also the LM head. -/
  | embedTokens
  /-- `model.embed_tokens_per_layer.weight`. -/
  | embedTokensPerLayer
  /-- `model.per_layer_model_projection.weight`. -/
  | perLayerModelProjection
  /-- `model.per_layer_projection_norm.weight`. -/
  | perLayerProjectionNorm
  /-- `model.norm.weight`. -/
  | norm
  /-- `model.layers.{layerIdx}.{w}`. -/
  | layer (layerIdx : ℕ) (w : LayerWeight)
  deriving DecidableEq, Repr

/-- The tensors by name; `f32_slice` of a name without one panics. -/
abbrev Weights (K : Type) := WeightName → Option (List K)

/-- `KvCache`. -/
structure KvCache (K : Type) where
  k : List K
  v : List K
  seqLen : ℕ
  maxSeqLen : ℕ
  numKvHeads : ℕ
  headDim : ℕ
  deriving DecidableEq, Repr

namespace KvCache

variable {K : Type}

/-- `KvCache::new`. -/
def new [Zero K] (maxSeqLen numKvHeads headDim : ℕ) : KvCache K where
  k := List.replicate (maxSeqLen * numKvHeads * headDim) 0
  v := List.replicate (maxSeqLen * numKvHeads * headDim) 0
  seqLen := 0
  maxSeqLen := maxSeqLen
  numKvHeads := numKvHeads
  headDim := headDim

/-- `append`. -/
def append (kToken vToken : List K) : Panics (KvCache K) Unit := do
  let cache ← Panics.get
  if cache.seqLen < cache.maxSeqLen then
    let stride := cache.numKvHeads * cache.headDim
    let pos := cache.seqLen * stride
    let k ← lift (copyFromSlice cache.k pos (pos + stride) kToken)
    Panics.set { cache with k := k }
    let v ← lift (copyFromSlice cache.v pos (pos + stride) vToken)
    Panics.set { cache with k := k, v := v, seqLen := cache.seqLen + 1 }
  else panic

/-- `k_up_to_now`. -/
def kUpToNow (cache : KvCache K) : Option (List K) :=
  slice cache.k 0 (cache.seqLen * cache.numKvHeads * cache.headDim)

/-- `v_up_to_now`. -/
def vUpToNow (cache : KvCache K) : Option (List K) :=
  slice cache.v 0 (cache.seqLen * cache.numKvHeads * cache.headDim)

end KvCache

/-- `kv_caches`. -/
abbrev Caches (K : Type) := List (KvCache K)

/-- `Gemma4Model`, less its caches. -/
structure Gemma4Model (K : Type) where
  config : Gemma4Config K
  weights : Weights K

/-- A computation on `kv_caches[idx]`. -/
def withCache {K α : Type} (idx : ℕ) (x : Panics (KvCache K) α) : Panics (Caches K) α :=
  fun caches => match caches[idx]? with
    | some cache => ((x cache).1, caches.set idx (x cache).2)
    | none => (none, caches)

variable {K : Type} [Field K] [LinearOrder K] [Elementary K]

/-- From the raw projections of a layer to its attention output: the norms of the heads, RoPE, the
update of the KV cache and the attention. -/
def attention (cfg : Gemma4Config K) (layerIdx : ℕ) (q k v qNorm : List K)
    (kNorm : Option (List K)) (pos : ℕ) : Panics (Caches K) (List K) := do
  let eps := cfg.rmsNormEps
  let headDim := cfg.layerHeadDim layerIdx
  let numQHeads := cfg.numAttentionHeads
  let numKvHeads := cfg.numKeyValueHeads
  let isFull := cfg.isFullAttention layerIdx
  let isKvShared := cfg.isKvShared layerIdx
  let q ← lift (rowsInPlace numQHeads headDim (fun s => cpuRmsNormInplace s qNorm eps) q)
  let (k, v) ← lift (if isKvShared then some (k, v) else do
    let kNorm ← kNorm
    let k ← rowsInPlace numKvHeads headDim (fun s => cpuRmsNormInplace s kNorm eps) k
    let v ← rowsInPlace numKvHeads headDim (fun s => cpuRmsNormNoWeightInplace s headDim eps) v
    pure (k, v))
  let theta : K := if isFull then 1000000 else 10000
  let rotaryDim := if isFull then headDim / 4 else headDim
  let (q, k) ← lift (cpuRope q k pos numQHeads numKvHeads headDim rotaryDim theta)
  let targetCacheIdx ← if isKvShared then lift (cfg.kvSharedTarget layerIdx) else do
    withCache layerIdx (KvCache.append k v)
    pure layerIdx
  let cache ← withCache targetCacheIdx Panics.get
  let window := if isFull then none else some cfg.slidingWindow
  lift do
    let ks ← cache.kUpToNow
    let vs ← cache.vUpToNow
    cpuSdpa q ks vs numQHeads numKvHeads headDim cache.seqLen 1 window

/-- `forward_layer`. -/
def forwardLayer (m : Gemma4Model K) (layerIdx : ℕ) (hidden : List K) (pos : ℕ)
    (layerPle : List K) : Panics (Caches K) (List K) := do
  let cfg := m.config
  let h := cfg.hiddenSize
  let eps := cfg.rmsNormEps
  let qDim := cfg.qDim layerIdx
  let kvDim := cfg.kvDim layerIdx
  let ffnInter := cfg.layerIntermediateSize layerIdx
  let pleDim := cfg.hiddenSizePerLayerInput
  let ln := fun w => lift (m.weights (.layer layerIdx w))
  -- input layernorm and QKV projections
  let inlnW ← ln .inputLayernorm
  let x ← lift (cpuRmsNorm hidden inlnW eps)
  let qW ← ln .qProj
  let kW ← ln .kProj
  let vW ← ln .vProj
  let q := cpuMatmul x qW 1 h qDim
  let kRaw := cpuMatmul x kW 1 h kvDim
  let vRaw := cpuMatmul x vW 1 h kvDim
  let qNormW ← ln .qNorm
  let kNormW ← ln .kNorm
  let attnOut ← attention cfg layerIdx q kRaw vRaw qNormW (some kNormW) pos
  -- O-projection, norm, residual
  let oW ← ln .oProj
  let attnProj := cpuMatmul attnOut oW 1 qDim h
  let postAttnW ← ln .postAttentionLayernorm
  let attnNormed ← lift (cpuRmsNorm attnProj postAttnW eps)
  let hidden2 := List.zipWith (· + ·) hidden attnNormed
  -- MLP, norm, residual
  let preFfW ← ln .preFeedforwardLayernorm
  let ffIn ← lift (cpuRmsNorm hidden2 preFfW eps)
  let gateW ← ln .gateProj
  let upW ← ln .upProj
  let gate := cpuMatmul ffIn gateW 1 h ffnInter
  let up := cpuMatmul ffIn upW 1 h ffnInter
  let mid := List.zipWith (· * ·) (cpuGelu gate) up
  let downW ← ln .downProj
  let ffOut := cpuMatmul mid downW 1 ffnInter h
  let postFfW ← ln .postFeedforwardLayernorm
  let ffNormed ← lift (cpuRmsNorm ffOut postFfW eps)
  let hidden3 := List.zipWith (· + ·) hidden2 ffNormed
  -- PLE block
  let pleGateW ← ln .perLayerInputGate
  let gateOut := cpuMatmul hidden3 pleGateW 1 h pleDim
  let gated := List.zipWith (· * ·) (cpuGelu gateOut) layerPle
  let pleProjW ← ln .perLayerProjection
  let contrib := cpuMatmul gated pleProjW 1 pleDim h
  let pleNormW ← ln .postPerLayerInputNorm
  let contribNormed ← lift (cpuRmsNorm contrib pleNormW eps)
  let hidden3 := List.zipWith (· + ·) hidden3 contribNormed
  -- layer scalar
  let scalarData ← ln .layerScalar
  let scalar ← lift scalarData[0]?
  pure (hidden3.map (· * scalar))

/-- The embedding of a token, scaled. -/
def embed (m : Gemma4Model K) (tokenId : ℕ) : Option (List K) := do
  let h := m.config.hiddenSize
  let embedW ← m.weights .embedTokens
  let row ← slice embedW (tokenId * h) ((tokenId + 1) * h)
  pure (row.map (· * m.config.embedScale))

/-- The per-layer embeddings of a token, scaled. -/
def pleEmbeds (m : Gemma4Model K) (tokenId : ℕ) : Option (List K) := do
  let totalPle := m.config.totalPle
  let pleEmbedW ← m.weights .embedTokensPerLayer
  let row ← slice pleEmbedW (tokenId * totalPle) ((tokenId + 1) * totalPle)
  pure (row.map (· * m.config.pleScale))

/-- `ple_inputs`, from the raw per-layer projection. -/
def pleInputs (m : Gemma4Model K) (pleEmbedsFlat pleProj : List K) : Option (List K) := do
  let cfg := m.config
  let pleProjFlat := pleProj.map (· * cfg.perLayerProjectionScale)
  let projNormW ← m.weights .perLayerProjectionNorm
  let pleProjNormed ← cpuRmsNorm pleProjFlat projNormW cfg.rmsNormEps
  pure (List.zipWith (fun p e => (p + e) * cfg.perLayerInputScale) pleProjNormed pleEmbedsFlat)

/-- The final norm, the LM head and the softcap, on the CPU. -/
def lmHead (m : Gemma4Model K) (hidden : List K) : Option (List K) := do
  let cfg := m.config
  let normW ← m.weights .norm
  let hidden ← cpuRmsNorm hidden normW cfg.rmsNormEps
  let lmW ← m.weights .embedTokens
  let logits := cpuMatmul hidden lmW 1 cfg.hiddenSize cfg.vocabSize
  let cap := cfg.finalLogitSoftcapping
  pure (logits.map fun l => tanh (l / cap) * cap)

/-- `Gemma4Model::forward`. -/
def forward (m : Gemma4Model K) (tokenId pos : ℕ) : Panics (Caches K) (List K) := do
  let cfg := m.config
  let pleDim := cfg.hiddenSizePerLayerInput
  let hidden ← lift (embed m tokenId)
  let pleEmbedsFlat ← lift (pleEmbeds m tokenId)
  let projW ← lift (m.weights .perLayerModelProjection)
  let pleProjFlat := cpuMatmul hidden projW 1 cfg.hiddenSize cfg.totalPle
  let pleInputs ← lift (pleInputs m pleEmbedsFlat pleProjFlat)
  let hidden ← (List.range cfg.numHiddenLayers).foldlM (fun hidden layerIdx => do
    let layerPle ← lift (slice pleInputs (layerIdx * pleDim) ((layerIdx + 1) * pleDim))
    forwardLayer m layerIdx hidden pos layerPle) hidden
  lift (lmHead m hidden)

/-- `reset_kv_cache`. -/
def resetKvCache (caches : Caches K) : Caches K :=
  caches.map fun cache => { cache with seqLen := 0 }

end Gemma4

end VllmVulkan
