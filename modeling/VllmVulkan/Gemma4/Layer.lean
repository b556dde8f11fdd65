import VllmVulkan.Gemma4.Submit

/-!
# One layer on the GPU

The dispatches of a layer compute their values from the tensors of the layer.

* `weightShape`, `IsLayer`, `OnDevice` : the tensors of a layer, with their sizes;
* `ffnValue`, `pleValue`, `postAttention` : the values;
* `qkvGpu_returns` : the QKV submit, fused or not;
* `fusedPostAttention_returns` : **the fused chain**.
-/

namespace VllmVulkan

namespace Gemma4

open Elementary Commands Panics

variable {K : Type}

/-- The number of elements of a weight. -/
def weightShape (cfg : Gemma4Config K) : WeightName → ℕ
  | .embedTokens => cfg.vocabSize * cfg.hiddenSize
  | .embedTokensPerLayer => cfg.vocabSize * cfg.totalPle
  | .perLayerModelProjection => cfg.totalPle * cfg.hiddenSize
  | .perLayerProjectionNorm => cfg.hiddenSizePerLayerInput
  | .norm => cfg.hiddenSize
  | .layer i .qProj => cfg.qDim i * cfg.hiddenSize
  | .layer i .kProj | .layer i .vProj => cfg.kvDim i * cfg.hiddenSize
  | .layer i .qkvProj => (cfg.qDim i + 2 * cfg.kvDim i) * cfg.hiddenSize
  | .layer i .qNorm | .layer i .kNorm => cfg.layerHeadDim i
  | .layer i .oProj => cfg.hiddenSize * cfg.qDim i
  | .layer i .gateProj | .layer i .upProj => cfg.layerIntermediateSize i * cfg.hiddenSize
  | .layer i .downProj => cfg.hiddenSize * cfg.layerIntermediateSize i
  | .layer _ .perLayerInputGate => cfg.hiddenSizePerLayerInput * cfg.hiddenSize
  | .layer _ .perLayerProjection => cfg.hiddenSize * cfg.hiddenSizePerLayerInput
  | .layer _ .inputLayernorm | .layer _ .postAttentionLayernorm
  | .layer _ .preFeedforwardLayernorm | .layer _ .postFeedforwardLayernorm
  | .layer _ .postPerLayerInputNorm => cfg.hiddenSize
  | .layer _ .layerScalar => 1

/-- `T` are the tensors of a layer. -/
structure IsLayer (cfg : Gemma4Config K) (weights : Weights K) (i : ℕ) (T : LayerWeight → List K) :
    Prop where
  loaded : ∀ w, w ≠ .qkvProj → weights (.layer i w) = some (T w)
  length : ∀ w, (T w).length = weightShape cfg (.layer i w)
  qkv : T .qkvProj = T .qProj ++ (T .kProj ++ T .vProj)

/-- The tensors of a layer, where they are resident also on the device, whose buffers are large
enough for its heads. -/
structure OnDevice (m : VulkanModel K) (i : ℕ) (T : LayerWeight → List K) : Prop where
  layer : IsLayer m.inner.config m.inner.weights i T
  weights : ∀ w b, m.gpuWeights (.layer i w) = some b → b = T w
  headDim : m.inner.config.layerHeadDim i ≤ m.inner.config.globalHeadDim

variable [Field K] [Elementary K]

/-- The FFN of a layer. -/
def ffnValue (cfg : Gemma4Config K) (i : ℕ) (T : LayerWeight → List K) (ffIn : List K) : List K :=
  let h := cfg.hiddenSize
  let ffnInter := cfg.layerIntermediateSize i
  matvec (T .downProj) (List.zipWith (· * ·) (cpuGelu (matvec (T .gateProj) ffIn h ffnInter))
    (matvec (T .upProj) ffIn h ffnInter)) ffnInter h

/-- The PLE contribution of a layer. -/
def pleValue (cfg : Gemma4Config K) (T : LayerWeight → List K) (hidden3 layerPle : List K) :
    List K :=
  let h := cfg.hiddenSize
  let pleDim := cfg.hiddenSizePerLayerInput
  matvec (T .perLayerProjection) (List.zipWith (· * ·)
    (cpuGelu (matvec (T .perLayerInputGate) hidden3 h pleDim)) layerPle) pleDim h

/-- The post-attention half of a layer. -/
def postAttention (cfg : Gemma4Config K) (i : ℕ) (T : LayerWeight → List K) (scalar : K)
    (attnOut residual layerPle : List K) : List K :=
  let eps := cfg.rmsNormEps
  let attnProj := matvec (T .oProj) attnOut (cfg.qDim i) cfg.hiddenSize
  let hidden2 := List.zipWith (· + ·) residual (rmsRow attnProj (T .postAttentionLayernorm) eps)
  let ffOut := ffnValue cfg i T (rmsRow hidden2 (T .preFeedforwardLayernorm) eps)
  let hidden3 := List.zipWith (· + ·) hidden2 (rmsRow ffOut (T .postFeedforwardLayernorm) eps)
  let contrib := pleValue cfg T hidden3 layerPle
  (List.zipWith (· + ·) hidden3 (rmsRow contrib (T .postPerLayerInputNorm) eps)).map (· * scalar)

variable {m : VulkanModel K} {i : ℕ} {T : LayerWeight → List K} {caches : Caches K} {scalar : K}
  {attnOut residual layerPle : List K}

omit [Field K] [Elementary K] in
theorem resident {gpuWeights : Weights K} (hG : ∀ w b, gpuWeights (.layer i w) = some b → b = T w)
    {w : LayerWeight} (h : (gpuWeights (.layer i w)).isSome = true) :
    gpuWeights (.layer i w) = some (T w) := by
  obtain ⟨b, hb⟩ := Option.isSome_iff_exists.1 h
  rw [hb, hG w b hb]

/-! ### Sizes -/

omit [Field K] [Elementary K] in
theorem layerIntermediateSize_le (cfg : Gemma4Config K) (i : ℕ) :
    cfg.layerIntermediateSize i ≤ cfg.intermediateSize * 2 := by
  unfold Gemma4Config.layerIntermediateSize
  split_ifs <;> omega

@[simp] theorem length_ffnValue (cfg : Gemma4Config K) (i : ℕ) (T : LayerWeight → List K)
    (ffIn : List K) : (ffnValue cfg i T ffIn).length = cfg.hiddenSize :=
  length_matvec _ _ _ _

@[simp] theorem length_pleValue (cfg : Gemma4Config K) (T : LayerWeight → List K)
    (hidden3 layerPle : List K) : (pleValue cfg T hidden3 layerPle).length = cfg.hiddenSize :=
  length_matvec _ _ _ _

theorem length_postAttention {cfg : Gemma4Config K}
    (hT : ∀ w, (T w).length = weightShape cfg (.layer i w))
    (hres : residual.length = cfg.hiddenSize) :
    (postAttention cfg i T scalar attnOut residual layerPle).length = cfg.hiddenSize := by
  simp [postAttention, hT, weightShape, hres]

/-! ### The QKV submit -/

omit [Field K] [Elementary K] in
theorem computeLayerAttnGpuWeightRefs_eq {gpuWeights : Weights K}
    (hG : ∀ w b, gpuWeights (.layer i w) = some b → b = T w)
    (hcaps : (computeLayerGpuCaps gpuWeights i).hasGpuWeights = true)
    (hkeys : (gpuWeights (.layer i .qkvProj)).isSome = false →
      (gpuWeights (.layer i .kProj)).isSome = true ∧
        (gpuWeights (.layer i .vProj)).isSome = true) :
    computeLayerAttnGpuWeightRefs gpuWeights i = some (some {
      inputLayernorm := T .inputLayernorm
      qkv := if (gpuWeights (.layer i .qkvProj)).isSome then .fused (T .qkvProj)
        else .separate (T .qProj) (T .kProj) (T .vProj) }) := by
  have hbasic := hcaps
  simp only [computeLayerGpuCaps, Bool.and_eq_true] at hbasic
  unfold computeLayerAttnGpuWeightRefs
  simp only [hcaps, if_true, resident hG hbasic.2]
  cases hqkv : (gpuWeights (.layer i .qkvProj)).isSome with
  | true =>
    simp only [computeLayerGpuCaps, if_true, resident hG hqkv]
    rfl
  | false =>
    obtain ⟨hk, hv⟩ := hkeys hqkv
    simp only [computeLayerGpuCaps, hqkv, Bool.false_eq_true, if_false, resident hG hbasic.1,
      resident hG hk, resident hG hv]
    rfl

omit [Elementary K] in
theorem readQkv_returns {q k v : List K} {x y z : Panics (GpuState K) (List K)}
    (hq : Returns (fun st => Acts m facts st caches) x q fun st => Acts m facts st caches)
    (hk : Returns (fun st => Acts m facts st caches) y k fun st => Acts m facts st caches)
    (hv : Returns (fun st => Acts m facts st caches) z v fun st => Acts m facts st caches) :
    Returns (fun st => Acts m facts st caches) (do
      let q ← x
      let k ← y
      let v ← z
      pure (q, k, v)) (q, k, v) fun st => Acts m [] st caches := by
  have hret : Returns (fun st => Acts m facts st caches) (pure (q, k, v)) (q, k, v)
      fun st => Acts m [] st caches :=
    Returns.pure.mono (fun _ h => h) fun st h => Acts.mono h (by simp)
  exact hq.bind (hk.bind (hv.bind hret))

/-- The QKV submit, fused or not, computes the three projections of the norm. -/
theorem qkvGpu_returns {hidden : List K} (hD : OnDevice m i T)
    (hcaps : (computeLayerGpuCaps m.gpuWeights i).hasGpuWeights = true)
    (hkeys : (m.gpuWeights (.layer i .qkvProj)).isSome = false →
      (m.gpuWeights (.layer i .kProj)).isSome = true ∧
        (m.gpuWeights (.layer i .vProj)).isSome = true)
    (hhidden : hidden.length = m.inner.config.hiddenSize) :
    Returns (fun st => Acts m [] st caches) (qkvGpu m i hidden)
      (let x := rmsRow hidden (T .inputLayernorm) m.inner.config.rmsNormEps
      (matvec (T .qProj) x m.inner.config.hiddenSize (m.inner.config.qDim i),
        matvec (T .kProj) x m.inner.config.hiddenSize (m.inner.config.kvDim i),
        matvec (T .vProj) x m.inner.config.hiddenSize (m.inner.config.kvDim i)))
      fun st => Acts m [] st caches := by
  have hT : ∀ w, (T w).length = weightShape m.inner.config (.layer i w) := hD.layer.length
  have hq : m.inner.config.qDim i ≤ actSize m.inner.config .qOut := Nat.mul_le_mul_left _ hD.headDim
  have hkv : m.inner.config.kvDim i ≤ actSize m.inner.config .kOut :=
    Nat.mul_le_mul_left _ hD.headDim
  have hraw : Returns (fun st => Acts m [] st caches) (writeAct .rawHidden hidden) ()
      fun st => Acts m [(.rawHidden, hidden)] st caches :=
    writeAct_returns hhidden.le (by simp [capFacts]) (by simp)
  unfold qkvGpu
  simp only [computeLayerAttnGpuWeightRefs_eq hD.weights hcaps hkeys, lift_some, pure_bind]
  refine hraw.bind ?_
  generalize hx : rmsRow hidden (T .inputLayernorm) m.inner.config.rmsNormEps = x
  have hxlen : x.length = m.inner.config.hiddenSize := by
    simp [← hx, hT, weightShape, hhidden]
  cases (m.gpuWeights (.layer i .qkvProj)).isSome with
  | true =>
    -- the merged weight: one product, read back in three parts of one buffer
    simp only [if_true]
    have hqkv : matvec (T .qkvProj) x m.inner.config.hiddenSize
        (m.inner.config.qDim i + 2 * m.inner.config.kvDim i) =
        matvec (T .qProj) x m.inner.config.hiddenSize (m.inner.config.qDim i) ++
          (matvec (T .kProj) x m.inner.config.hiddenSize (m.inner.config.kvDim i) ++
            matvec (T .vProj) x m.inner.config.hiddenSize (m.inner.config.kvDim i)) := by
      rw [hD.layer.qkv, Nat.two_mul, matvec_append x (hT .qProj), matvec_append x (hT .kProj)]
    have hout : m.inner.config.qDim i + 2 * m.inner.config.kvDim i ≤
        actSize m.inner.config .qkvOut := by
      change _ ≤ actSize m.inner.config .qOut + 2 * actSize m.inner.config .kOut
      omega
    have hread : ∀ q k v : List K, q.length = m.inner.config.qDim i →
        k.length = m.inner.config.kvDim i → v.length = m.inner.config.kvDim i →
        Returns (fun st => Acts m [(.qkvOut, q ++ (k ++ v))] st caches) (do
          let q ← readAct .qkvOut 0 (m.inner.config.qDim i)
          let k ← readAct .qkvOut (m.inner.config.qDim i) (m.inner.config.kvDim i)
          let v ← readAct .qkvOut (m.inner.config.qDim i + m.inner.config.kvDim i)
            (m.inner.config.kvDim i)
          pure (q, k, v)) (q, k, v) fun st => Acts m [] st caches := by
      intro q k v hq hk hv
      refine readQkv_returns (readAct_returns [] (k ++ v) rfl rfl rfl hq)
        (readAct_returns q v rfl rfl hq hk) ?_
      exact readAct_returns (q ++ k) [] rfl (by simp) (by simp [hq, hk]) hv
    refine (submitActs_returns ?_ ?_).bind
      (hread _ _ _ (length_matvec _ _ _ _) (length_matvec _ _ _ _) (length_matvec _ _ _ _))
    · simp [GroupsIndependent, groups]
    simp only [groups, List.flatten_cons, List.flatten_nil, List.append_nil, List.cons_append,
      List.nil_append, capFacts]
    refine .rmsNormMul rfl rfl hhidden (hT _) (Nat.le_refl _) rfl ?_
    refine .mulMatVec rfl rfl (hT _) (by rw [hx, hxlen]) hout rfl ?_
    exact .nil (by simp [← hqkv, hx])
  | false =>
    -- three products, each into a buffer of its own
    simp only [Bool.false_eq_true, if_false]
    have hread : ∀ q k v : List K, q.length = m.inner.config.qDim i →
        k.length = m.inner.config.kvDim i → v.length = m.inner.config.kvDim i →
        Returns (fun st => Acts m [(.qOut, q), (.kOut, k), (.vOut, v)] st caches) (do
          let q ← readAct .qOut 0 (m.inner.config.qDim i)
          let k ← readAct .kOut 0 (m.inner.config.kvDim i)
          let v ← readAct .vOut 0 (m.inner.config.kvDim i)
          pure (q, k, v)) (q, k, v) fun st => Acts m [] st caches := by
      intro q k v hq hk hv
      exact readQkv_returns (readAct_whole rfl hq) (readAct_whole rfl hk) (readAct_whole rfl hv)
    refine (submitActs_returns ?_ ?_).bind
      (hread _ _ _ (length_matvec _ _ _ _) (length_matvec _ _ _ _) (length_matvec _ _ _ _))
    · simp [GroupsIndependent, groups, Independent, Dispatch.toCommand, Dispatch.out,
        Dispatch.operands, Binding.slots]
    simp only [groups, List.flatten_cons, List.flatten_nil, List.append_nil, List.cons_append,
      List.nil_append, capFacts]
    refine .rmsNormMul rfl rfl hhidden (hT _) (Nat.le_refl _) rfl ?_
    refine .mulMatVec rfl rfl (hT _) (by rw [hx, hxlen]) hq rfl ?_
    refine .mulMatVec rfl rfl (hT _) (by rw [hx, hxlen]) hkv rfl ?_
    refine .mulMatVec rfl rfl (hT _) (by rw [hx, hxlen]) hkv rfl ?_
    exact .nil (by simp [hx])

/-! ### The fused chain -/

omit [Field K] [Elementary K] in
theorem computeLayerGpuWeightRefs_eq {gpuWeights : Weights K}
    (hG : ∀ w b, gpuWeights (.layer i w) = some b → b = T w)
    (hcaps : (computeLayerGpuCaps gpuWeights i).hasFusedPostAttnWeights = true) :
    computeLayerGpuWeightRefs gpuWeights i = some (some {
      oProj := T .oProj
      postAttentionLayernorm := T .postAttentionLayernorm
      preFeedforwardLayernorm := T .preFeedforwardLayernorm
      gateProj := T .gateProj
      upProj := T .upProj
      downProj := T .downProj
      postFeedforwardLayernorm := T .postFeedforwardLayernorm
      perLayerInputGate := T .perLayerInputGate
      perLayerProjection := T .perLayerProjection
      postPerLayerInputNorm := T .postPerLayerInputNorm
      layerScalar := T .layerScalar }) := by
  have hkeys := hcaps
  simp only [computeLayerGpuCaps, Bool.and_eq_true] at hkeys
  obtain ⟨⟨⟨⟨⟨⟨⟨⟨⟨⟨h₁, h₂⟩, h₃⟩, h₄⟩, h₅⟩, h₆⟩, h₇⟩, h₈⟩, h₉⟩, h₁₀⟩, h₁₁⟩ := hkeys
  simp only [computeLayerGpuWeightRefs, if_pos hcaps, resident hG h₁, resident hG h₂,
    resident hG h₃, resident hG h₄, resident hG h₅, resident hG h₆, resident hG h₇,
    resident hG h₈, resident hG h₉, resident hG h₁₀, resident hG h₁₁, Option.bind_eq_bind,
    Option.bind_some, Option.pure_def]

/-- **The fused chain** computes the post-attention half of the layer. -/
theorem fusedPostAttention_returns (hD : OnDevice m i T)
    (hcaps : (computeLayerGpuCaps m.gpuWeights i).hasFusedPostAttnWeights = true)
    (hscalar : T .layerScalar = [scalar])
    (hattn : attnOut.length = m.inner.config.qDim i)
    (hres : residual.length = m.inner.config.hiddenSize)
    (hple : layerPle.length = m.inner.config.hiddenSizePerLayerInput) :
    Returns (fun st => Acts m [] st caches)
      (fusedPostAttention m i attnOut residual layerPle)
      (postAttention m.inner.config i T scalar attnOut residual layerPle)
      fun st => Acts m [] st caches := by
  have hT : ∀ w, (T w).length = weightShape m.inner.config (.layer i w) := hD.layer.length
  have hdim : m.inner.config.qDim i ≤ actSize m.inner.config .oIn :=
    Nat.mul_le_mul_left _ hD.headDim
  have hffn : m.inner.config.layerIntermediateSize i ≤ m.inner.config.intermediateSize * 2 :=
    layerIntermediateSize_le m.inner.config i
  have hattnIn : Returns (fun st => Acts m [] st caches) (writeAct .oIn attnOut) ()
      fun st => Acts m [(.oIn, attnOut)] st caches :=
    writeAct_returns (hattn.le.trans hdim) (by simp [capFacts]) (by simp)
  have hresIn : Returns (fun st => Acts m [(.oIn, attnOut)] st caches)
      (writeAct .residual residual) ()
      fun st => Acts m [(.oIn, attnOut), (.residual, residual)] st caches :=
    writeAct_returns hres.le (by simp [capFacts]) (by simp)
  have hpleIn : Returns (fun st => Acts m [(.oIn, attnOut), (.residual, residual)] st caches)
      (writeAct .pleLayer layerPle) ()
      fun st => Acts m [(.oIn, attnOut), (.residual, residual), (.pleLayer, layerPle)] st caches :=
    writeAct_returns hple.le (by simp [capFacts]) (by simp)
  have hread : ∀ v : List K, v.length = m.inner.config.hiddenSize →
      Returns (fun st => Acts m [(.hidden3Final, v)] st caches)
        (readAct .hidden3Final 0 m.inner.config.hiddenSize) v fun st => Acts m [] st caches :=
    fun v hv => (readAct_whole rfl hv).mono (fun _ h => h) fun _ h => h.mono (by simp)
  unfold fusedPostAttention
  simp only [computeLayerGpuWeightRefs_eq hD.weights hcaps, lift_some, pure_bind]
  refine hattnIn.bind (hresIn.bind (hpleIn.bind
    ((submitActs_returns ?_ ?_).bind (hread _ (length_postAttention hT hres)))))
  · simp [GroupsIndependent, groups, Independent, Dispatch.toCommand, Dispatch.out,
      Dispatch.operands, Binding.slots]
  simp only [groups, List.flatten_cons, List.flatten_nil, List.append_nil, List.cons_append,
    List.nil_append, capFacts]
  -- o_proj, its norm and the residual
  refine .mulMatVec rfl rfl (hT _) hattn (Nat.le_refl _) rfl ?_
  refine .rmsNormMul rfl rfl (by simp) (hT _) (Nat.le_refl _) rfl ?_
  refine .add rfl rfl hres (by simp [hT, weightShape]) (Nat.le_refl _) rfl ?_
  -- the FFN, between its norms
  refine .rmsNormMul rfl rfl (by simp [hT, weightShape, hres]) (hT _) (Nat.le_refl _) rfl ?_
  refine .mulMatVec rfl rfl (hT _) (by simp [hT, weightShape, hres]) hffn rfl ?_
  refine .mulMatVec rfl rfl (hT _) (by simp [hT, weightShape, hres]) hffn rfl ?_
  refine .gelu rfl (by simp) hffn rfl ?_
  refine .mul rfl rfl (by simp) (by simp) hffn rfl ?_
  refine .mulMatVec rfl rfl (hT _) (by simp) (Nat.le_refl _) rfl ?_
  refine .rmsNormMul rfl rfl (by simp) (hT _) (Nat.le_refl _) rfl ?_
  refine .add rfl rfl (by simp [hT, weightShape, hres]) (by simp [hT, weightShape])
    (Nat.le_refl _) rfl ?_
  -- the PLE branch and its norm
  refine .mulMatVec rfl rfl (hT _) (by simp [hT, weightShape, hres]) (Nat.le_refl _) rfl ?_
  refine .gelu rfl (by simp) (Nat.le_refl _) rfl ?_
  refine .mul rfl rfl (by simp) hple (Nat.le_refl _) rfl ?_
  refine .mulMatVec rfl rfl (hT _) (by simp [hple]) (Nat.le_refl _) rfl ?_
  refine .rmsNormMul rfl rfl (by simp) (hT _) (Nat.le_refl _) rfl ?_
  refine .add rfl rfl (by simp [hT, weightShape, hres]) (by simp [hT, weightShape])
    (Nat.le_refl _) rfl ?_
  -- the layer scalar
  refine .mulBroadcast rfl hscalar (by simp [hT, weightShape, hres]) (Nat.le_refl _) rfl ?_
  exact .nil (by simp [postAttention, ffnValue, pleValue])

end Gemma4

end VllmVulkan
