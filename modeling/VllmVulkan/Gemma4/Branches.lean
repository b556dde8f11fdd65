import VllmVulkan.Gemma4.Layer
import VllmVulkan.Gemma4.Live

/-!
# The branches of a layer

Without the fused chain every part of the post-attention half runs on the GPU or on the CPU, by
itself, and hands its result on in an activation buffer or in memory.

* `gpuMatmulOrCpu_returns` : a product, wherever it runs;
* `Mirrors`, `Ready` : the states between two parts;
* `oProjection_returns`, `ffn_returns`, `pleContribution_returns` : the parts;
* `branchPostAttention_returns` : **the branches compute what the fused chain computes**;
* `NoMissing` : no key that a branch indexes is missing;
* `forwardLayer_eq` : the reference computes it too;
* `layerOn` : a layer, once it is decided whether it uses the GPU;
* `forwardLayerGpuMatmuls_refines` : **a layer on the GPU refines a layer of the reference**.
-/

namespace VllmVulkan

namespace Gemma4

open Elementary Commands Panics

variable {K : Type} [Field K] [Elementary K]

/-! ### A product, wherever it runs -/

theorem temps_spec (m : VulkanModel K) {mem : Mem Temp K} {w x : List K} {k n : ℕ}
    (hinp : (mem .inp).length = x.length) (hout : (mem .out).length = 1 * n)
    (hw : w.length = n * k) (hx : x.length = k) :
    ∃ mem₁ mem₂, writeBuf mem .inp x = some mem₁ ∧
      submitBatch m.device.orderTemp
        [.dispatch (.mulMatVec .f16 (.weight w) (.slot .inp) .out (mvPc k n 1))] mem₁ = some mem₂ ∧
      readF32Buf mem₂ .out (1 * n) = some (matvec w x k n) ∧
      ∀ s, (mem₂ s).length = (mem s).length := by
  obtain ⟨mem₁, hwrite, hsize, hholds, -⟩ := @writeBuf_spec _ _ _ mem .inp x hinp.ge
  have hyields : Yields (fun s => (mem s).length) [(.inp, x)]
      [.mulMatVec .f16 (.weight w) (.slot .inp) .out (mvPc k n 1)]
      [(.out, matvec w x k n)] :=
    .mulMatVec rfl rfl hw hx ((Nat.one_mul n).symm.trans hout.symm).le rfl (.nil (by simp))
  have hsat : Sat mem₁ [(.inp, x)] := by
    intro p hp
    obtain rfl := List.mem_singleton.1 hp
    exact hholds
  obtain ⟨hbounds, hsize₂, hyield⟩ := hyields mem₁ hsize hsat
  have hsubmit := @submitBatch_eq _ _ _ _ _ m.device.orderTemp
    [.dispatch (.mulMatVec .f16 (.weight w) (.slot .inp) .out (mvPc k n 1))] mem₁ hbounds
    (by simp [GroupsIndependent, groups])
  exact ⟨mem₁, _, hwrite, hsubmit,
    readF32BufAt_eq [] [] (hyield _ (List.mem_singleton_self _)) (by simp) rfl
      ((length_matvec w x k n).trans (Nat.one_mul n).symm), hsize₂⟩

theorem gpuMatmul_eq (m : VulkanModel K) (contents : Temp → ℕ → K) {w x : List K} {k n : ℕ}
    (hw : w.length = n * k) (hx : x.length = k) :
    gpuMatmul m contents w x 1 n (mvPc k n 1) = some (matvec w x k n) := by
  unfold gpuMatmul
  extract_lets mem
  have hinp : (mem .inp).length = x.length := by simp [mem]
  obtain ⟨mem₁, mem₂, hwrite, hsubmit, hread, -⟩ := temps_spec m hinp (by simp [mem]) hw hx
  calc _ = (writeBuf mem .inp x).bind fun mem =>
        (submitBatch m.device.orderTemp
          [.dispatch (.mulMatVec .f16 (.weight w) (.slot .inp) .out (mvPc k n 1))] mem).bind
        fun mem => readF32Buf mem .out (1 * n) := rfl
    _ = some (matvec w x k n) := by
      rw [hwrite, Option.bind_some, hsubmit, Option.bind_some]
      exact hread

theorem gpuMatmulOrCpu_returns {m : VulkanModel K} {name : WeightName} {w x : List K} {k n : ℕ}
    {P : GpuState K → Prop} (hP : ∀ st products, P st → P { st with products := products })
    (hcpu : m.inner.weights name = some w) (hgpu : ∀ b, m.gpuWeights name = some b → b = w)
    (hw : w.length = n * k) (hx : x.length = k) :
    Returns P (gpuMatmulOrCpu m name x 1 k n (mvPc k n 1)) (matvec w x k n) P := by
  unfold gpuMatmulOrCpu
  split
  · rename_i b _ hb
    obtain rfl := hgpu b hb
    intro st hst
    rw [bind_some (show Panics.get st = (some st, st) from rfl)]
    exact ⟨_, congrArg (·, _) (gpuMatmul_eq m _ hw hx), hP st _ hst⟩
  · rw [hcpu, lift_some, pure_bind, cpuMatmul_one]
    exact .pure

/-! ### The parts -/

variable {m : VulkanModel K} {i : ℕ} {T : LayerWeight → List K} {caches : Caches K} {scalar : K}
  {attnOut residual layerPle hidden : List K}

/-- The state has the caches `caches`, and its activation buffers are as `init_act_bufs` leaves
them. -/
def Mirrors (m : VulkanModel K) (st : GpuState K) (caches : Caches K) : Prop :=
  st.kvCaches = caches ∧ ∀ mem, st.actBufs = some mem → ActsSat m [] mem

/-- The states in which a layer may be that uses the GPU, or does not. -/
def Ready (m : VulkanModel K) (useGpu : Bool) (st : GpuState K) (caches : Caches K) : Prop :=
  if useGpu then Acts m [] st caches else Mirrors m st caches

omit [Elementary K] in
theorem Ready.setProducts {useGpu : Bool} {st : GpuState K} (h : Ready m useGpu st caches)
    (n : ℕ) : Ready m useGpu { st with products := n } caches := by
  cases useGpu <;> exact h

omit [Elementary K] in
/-- Reading a whole buffer, after which nothing about the buffers is needed any more. -/
theorem deref_returns {slot : Act} {count : ℕ} {v : List K} (hv : v.length = count) :
    Returns (fun st => Acts m [(slot, v)] st caches) (FBuf.deref (.borrowed slot count)) v
      fun st => Acts m [] st caches :=
  (readAct_whole (by simp) hv).mono (fun _ h => h) fun _ h => h.mono (by simp)

theorem oProjection_returns (hL : IsLayer m.inner.config m.inner.weights i T)
    (hG : ∀ w b, m.gpuWeights (.layer i w) = some b → b = T w) (useGpu : Bool)
    (hdim : useGpu = true → m.inner.config.layerHeadDim i ≤ m.inner.config.globalHeadDim)
    (hattn : attnOut.length = m.inner.config.qDim i) :
    Returns (Ready m useGpu · caches) (oProjection m i useGpu attnOut >>= FBuf.deref)
      (matvec (T .oProj) attnOut (m.inner.config.qDim i) m.inner.config.hiddenSize)
      (Ready m useGpu · caches) := by
  unfold oProjection
  dsimp only
  split
  · rename_i ow how
    obtain rfl := hG .oProj ow how
    have hin : Returns (fun st => Acts m [] st caches) (writeAct .oIn attnOut) ()
        fun st => Acts m [(.oIn, attnOut)] st caches :=
      writeAct_returns (hattn.le.trans (Nat.mul_le_mul_left _ (hdim rfl))) (by simp [capFacts])
        (by simp)
    simp only [bind_assoc, pure_bind]
    refine hin.bind ((submitActs_returns ?_ ?_).bind (deref_returns (length_matvec _ _ _ _)))
    · simp [GroupsIndependent, groups]
    refine .mulMatVec rfl rfl (hL.length .oProj) hattn (Nat.le_refl _) rfl ?_
    exact .nil (by simp [capFacts])
  · simp only [hL.loaded .oProj (by decide), lift_some, pure_bind, cpuMatmul_one]
    exact .pure

theorem ffn_returns {ffIn : List K} (hL : IsLayer m.inner.config m.inner.weights i T)
    (hG : ∀ w b, m.gpuWeights (.layer i w) = some b → b = T w) (useGpu : Bool)
    (hup : useGpu = true → (m.gpuWeights (.layer i .gateProj)).isSome = true →
      (m.gpuWeights (.layer i .downProj)).isSome = true →
      (m.gpuWeights (.layer i .upProj)).isSome = true)
    (hffIn : ffIn.length = m.inner.config.hiddenSize) :
    Returns (Ready m useGpu · caches) (ffn m i useGpu ffIn >>= FBuf.deref)
      (ffnValue m.inner.config i T ffIn) (Ready m useGpu · caches) := by
  have hT : ∀ w, (T w).length = weightShape m.inner.config (.layer i w) := hL.length
  have hffn : m.inner.config.layerIntermediateSize i ≤ m.inner.config.intermediateSize * 2 :=
    layerIntermediateSize_le m.inner.config i
  unfold ffn
  dsimp only
  split
  · rename_i gw dw hgw hdw
    obtain rfl := hG .gateProj gw hgw
    obtain rfl := hG .downProj dw hdw
    have huw : m.gpuWeights (.layer i .upProj) = some (T .upProj) :=
      resident hG (hup rfl (by simp [hgw]) (by simp [hdw]))
    have hin : Returns (fun st => Acts m [] st caches) (writeAct .ffin ffIn) ()
        fun st => Acts m [(.ffin, ffIn)] st caches :=
      writeAct_returns hffIn.le (by simp [capFacts]) (by simp)
    simp only [bind_assoc, pure_bind, huw, lift_some]
    refine hin.bind ((submitActs_returns ?_ ?_).bind (deref_returns (length_ffnValue _ _ _ _)))
    · simp [GroupsIndependent, groups, Independent, Dispatch.toCommand, Dispatch.out,
        Dispatch.operands, Binding.slots]
    refine .mulMatVec rfl rfl (hT _) hffIn hffn rfl ?_
    refine .mulMatVec rfl rfl (hT _) hffIn hffn rfl ?_
    refine .gelu rfl (by simp) hffn rfl ?_
    refine .mul rfl rfl (by simp) (by simp) hffn rfl ?_
    refine .mulMatVec rfl rfl (hT _) (by simp) (Nat.le_refl _) rfl ?_
    exact .nil (by simp [capFacts, ffnValue])
  · simp only [hL.loaded .gateProj (by decide), hL.loaded .upProj (by decide),
      lift_some, pure_bind, cpuMatmul_one, bind_assoc]
    refine (gpuMatmulOrCpu_returns (fun st n hst => hst.setProducts n)
      (hL.loaded .downProj (by decide)) (hG .downProj) (hT _) (by simp)).bind ?_
    exact .pure

theorem pleContribution_returns {hidden3 : List K}
    (hL : IsLayer m.inner.config m.inner.weights i T)
    (hG : ∀ w b, m.gpuWeights (.layer i w) = some b → b = T w) (useGpu : Bool)
    (hhidden3 : hidden3.length = m.inner.config.hiddenSize)
    (hple : layerPle.length = m.inner.config.hiddenSizePerLayerInput) :
    Returns (Ready m useGpu · caches) (pleContribution m i useGpu hidden3 layerPle >>= FBuf.deref)
      (pleValue m.inner.config T hidden3 layerPle) (Ready m useGpu · caches) := by
  have hT : ∀ w, (T w).length = weightShape m.inner.config (.layer i w) := hL.length
  unfold pleContribution
  dsimp only
  split
  · rename_i pgw ppw hpgw hppw
    obtain rfl := hG .perLayerInputGate pgw hpgw
    obtain rfl := hG .perLayerProjection ppw hppw
    have hin : Returns (fun st => Acts m [] st caches) (writeAct .ffin hidden3) ()
        fun st => Acts m [(.ffin, hidden3)] st caches :=
      writeAct_returns hhidden3.le (by simp [capFacts]) (by simp)
    have hpleIn : Returns (fun st => Acts m [(.ffin, hidden3)] st caches)
        (writeAct .pleLayer layerPle) ()
        fun st => Acts m [(.ffin, hidden3), (.pleLayer, layerPle)] st caches :=
      writeAct_returns hple.le (by simp [capFacts]) (by simp)
    simp only [bind_assoc, pure_bind]
    refine hin.bind (hpleIn.bind
      ((submitActs_returns ?_ ?_).bind (deref_returns (length_pleValue _ _ _ _))))
    · simp [GroupsIndependent, groups]
    refine .mulMatVec rfl rfl (hT _) hhidden3 (Nat.le_refl _) rfl ?_
    refine .gelu rfl (by simp) (Nat.le_refl _) rfl ?_
    refine .mul rfl rfl (by simp) hple (Nat.le_refl _) rfl ?_
    refine .mulMatVec rfl rfl (hT _) (by simp [hple]) (Nat.le_refl _) rfl ?_
    exact .nil (by simp [capFacts, pleValue])
  · simp only [hL.loaded .perLayerInputGate (by decide),
      hL.loaded .perLayerProjection (by decide), lift_some, pure_bind, cpuMatmul_one]
    exact .pure

/-! ### The branches together -/

/-- The CPU weights of a layer, from its tensors. -/
def cpuRefs (cfg : Gemma4Config K) (i : ℕ) (T : LayerWeight → List K) (scalar : K) :
    LayerCpuWeightRefs K where
  inputLayernorm := T .inputLayernorm
  qNorm := T .qNorm
  kNorm := if cfg.isKvShared i then none else some (T .kNorm)
  postAttentionLayernorm := T .postAttentionLayernorm
  preFeedforwardLayernorm := T .preFeedforwardLayernorm
  postFeedforwardLayernorm := T .postFeedforwardLayernorm
  postPerLayerInputNorm := T .postPerLayerInputNorm
  layerScalar := scalar

omit [Field K] [Elementary K] in
theorem computeLayerCpuWeightRefs_eq {cfg : Gemma4Config K} {weights : Weights K}
    (hL : IsLayer cfg weights i T) (hscalar : T .layerScalar = [scalar]) :
    computeLayerCpuWeightRefs cfg weights i = some (cpuRefs cfg i T scalar) := by
  unfold computeLayerCpuWeightRefs cpuRefs
  simp only [hL.loaded .inputLayernorm (by decide), hL.loaded .qNorm (by decide),
    hL.loaded .kNorm (by decide), hL.loaded .postAttentionLayernorm (by decide),
    hL.loaded .preFeedforwardLayernorm (by decide),
    hL.loaded .postFeedforwardLayernorm (by decide),
    hL.loaded .postPerLayerInputNorm (by decide), hL.loaded .layerScalar (by decide), hscalar]
  cases cfg.isKvShared i <;> rfl

theorem norm_eq {cfg : Gemma4Config K} {weights : Weights K} (hL : IsLayer cfg weights i T)
    (hpos : 0 < cfg.hiddenSize) (w : LayerWeight)
    (hw : weightShape cfg (.layer i w) = cfg.hiddenSize) {x : List K}
    (hx : x.length = cfg.hiddenSize) (eps : K) :
    cpuRmsNorm x (T w) eps = some (rmsRow x (T w) eps) :=
  cpuRmsNorm_row (hx.trans ((hL.length w).trans hw).symm) (hx ▸ hpos) eps

/-- **The branches compute what the fused chain computes.** -/
theorem branchPostAttention_returns (hL : IsLayer m.inner.config m.inner.weights i T)
    (hG : ∀ w b, m.gpuWeights (.layer i w) = some b → b = T w) (useGpu : Bool)
    (hdim : useGpu = true → m.inner.config.layerHeadDim i ≤ m.inner.config.globalHeadDim)
    (hpos : 0 < m.inner.config.hiddenSize)
    (hup : useGpu = true → (m.gpuWeights (.layer i .gateProj)).isSome = true →
      (m.gpuWeights (.layer i .downProj)).isSome = true →
      (m.gpuWeights (.layer i .upProj)).isSome = true)
    (hattn : attnOut.length = m.inner.config.qDim i)
    (hres : residual.length = m.inner.config.hiddenSize)
    (hple : layerPle.length = m.inner.config.hiddenSizePerLayerInput) :
    Returns (Ready m useGpu · caches)
      (branchPostAttention m i useGpu (cpuRefs m.inner.config i T scalar) attnOut residual layerPle)
      (postAttention m.inner.config i T scalar attnOut residual layerPle)
      (Ready m useGpu · caches) := by
  have hT : ∀ w, (T w).length = weightShape m.inner.config (.layer i w) := hL.length
  unfold branchPostAttention cpuRefs
  refine (oProjection_returns hL hG useGpu hdim hattn).bind_bind ?_
  simp only [norm_eq hL hpos .postAttentionLayernorm rfl (length_matvec _ _ _ _), lift_some,
    pure_bind]
  have hhidden2 : (List.zipWith (· + ·) residual (rmsRow (matvec (T .oProj) attnOut
      (m.inner.config.qDim i) m.inner.config.hiddenSize) (T .postAttentionLayernorm)
      m.inner.config.rmsNormEps)).length = m.inner.config.hiddenSize := by
    simp [hT, weightShape, hres]
  simp only [norm_eq hL hpos .preFeedforwardLayernorm rfl hhidden2, lift_some, pure_bind]
  refine (ffn_returns hL hG useGpu hup (by simp [hT, weightShape, hhidden2])).bind_bind ?_
  simp only [norm_eq hL hpos .postFeedforwardLayernorm rfl (length_ffnValue _ _ _ _),
    lift_some, pure_bind]
  refine (pleContribution_returns hL hG useGpu
    (by simp [hT, weightShape, hhidden2]) hple).bind_bind ?_
  simp only [norm_eq hL hpos .postPerLayerInputNorm rfl (length_pleValue _ _ _ _),
    lift_some, pure_bind]
  exact .pure

/-! ### A layer -/

/-- No key that the branches of a layer index is missing. -/
structure NoMissing (m : VulkanModel K) (i : ℕ) : Prop where
  /-- Without the fused QKV weight the submit indexes the separate ones. -/
  qkv : m.engine = true → (computeLayerGpuCaps m.gpuWeights i).hasGpuWeights = true →
    (m.gpuWeights (.layer i .qkvProj)).isSome = false →
    (m.gpuWeights (.layer i .kProj)).isSome = true ∧ (m.gpuWeights (.layer i .vProj)).isSome = true
  /-- Without the fused chain the FFN indexes `up_proj` next to the keys it checks. -/
  up : m.engine = true → (computeLayerGpuCaps m.gpuWeights i).hasGpuWeights = true →
    (computeLayerGpuCaps m.gpuWeights i).hasFusedPostAttnWeights = false →
    (m.gpuWeights (.layer i .gateProj)).isSome = true →
    (m.gpuWeights (.layer i .downProj)).isSome = true →
    (m.gpuWeights (.layer i .upProj)).isSome = true

omit [Elementary K] in
theorem Ready.mirrors {useGpu : Bool} {st : GpuState K} (h : Ready m useGpu st caches) :
    Mirrors m st caches := by
  cases useGpu with
  | false => exact h
  | true =>
    obtain ⟨hc, mem, hst, hmem⟩ := h
    exact ⟨hc, fun mem' hmem' => Option.some.inj (hst.symm.trans hmem') ▸ hmem⟩

omit [Elementary K] in
theorem Ready.setCaches {useGpu : Bool} {st : GpuState K} {caches' : Caches K}
    (h : Ready m useGpu st caches) : Ready m useGpu { st with kvCaches := caches' } caches' := by
  cases useGpu with
  | false => exact ⟨rfl, h.2⟩
  | true => exact ⟨rfl, h.2⟩

omit [Elementary K] in
theorem freshActBufs_spec (m : VulkanModel K) :
    ∃ mem, freshActBufs m = some mem ∧ ActsSat m [] mem := by
  let fresh : Mem Act K := fun slot =>
    (List.range (actSize m.inner.config slot)).map (m.device.fresh slot)
  have hfresh : Sized (actSize m.inner.config) fresh := fun slot => by simp [fresh]
  obtain ⟨mem, hinv, hsize, hholds, -⟩ := @writeBuf_spec _ _ _ fresh .invCap
    [1 / m.inner.config.finalLogitSoftcapping] (hfresh .invCap).ge
  obtain ⟨mem', hcap, hsize', hholds', hkeep⟩ := @writeBuf_spec _ _ _ mem .cap
    [m.inner.config.finalLogitSoftcapping] (((hsize .cap).trans (hfresh .cap)).ge)
  refine ⟨mem', ?_, fun slot => (hsize' slot).trans ((hsize slot).trans (hfresh slot)), ?_⟩
  · calc freshActBufs m = (writeBuf fresh .invCap [1 / m.inner.config.finalLogitSoftcapping]).bind
          fun mem => writeBuf mem .cap [m.inner.config.finalLogitSoftcapping] := rfl
      _ = some mem' := by rw [hinv, Option.bind_some, hcap]
  · intro p hp
    simp only [capFacts, List.append_nil, List.mem_cons, List.not_mem_nil, or_false] at hp
    obtain rfl | rfl := hp
    · exact hkeep .invCap _ (by decide) hholds
    · exact hholds'

omit [Elementary K] in
theorem initActBufs_spec {st : GpuState K} (h : Mirrors m st caches) :
    ∃ b st', initActBufs m st = (some b, st') ∧ Ready m b st' caches := by
  obtain ⟨kvCaches, actBufs, allocs, products⟩ := st
  obtain ⟨hc, hmem⟩ := h
  unfold initActBufs
  rw [bind_some (show Panics.get _ =
    (some (GpuState.mk kvCaches actBufs allocs products), _) from rfl)]
  cases actBufs with
  | some mem => exact ⟨true, _, rfl, hc, mem, rfl, hmem mem rfl⟩
  | none =>
    cases m.engine with
    | false => exact ⟨false, _, rfl, hc, hmem⟩
    | true =>
      cases halloc : allocs 0 with
      | false =>
        refine ⟨false, ⟨kvCaches, none, fun n => allocs (n + 1), products⟩, ?_, hc, hmem⟩
        simp only [halloc]
        rfl
      | true =>
        obtain ⟨mem, hfresh, hsat⟩ := freshActBufs_spec m
        refine ⟨true, ⟨kvCaches, some mem, fun n => allocs (n + 1), products⟩, ?_, hc, mem, rfl,
          hsat⟩
        simp only [halloc, hfresh]
        rfl

omit [Elementary K] in
/-- A layer uses the GPU when its weights are resident and the buffers could be allocated. -/
theorem useGpu_spec {st : GpuState K} {hasWeights : Bool} (h : Mirrors m st caches) :
    ∃ b st', (if m.engine && hasWeights then initActBufs m else pure false) st = (some b, st') ∧
      (b = true → m.engine = true ∧ hasWeights = true) ∧ Ready m b st' caches := by
  by_cases huse : (m.engine && hasWeights) = true
  · rw [if_pos huse]
    obtain ⟨b, st', hinit, hready⟩ := initActBufs_spec h
    exact ⟨b, st', hinit, fun _ => Bool.and_eq_true_iff.1 huse, hready⟩
  · rw [if_neg huse]
    exact ⟨false, st, rfl, fun hb => Bool.noConfusion hb, h⟩

variable [LinearOrder K]

theorem attention_kNorm (cfg : Gemma4Config K) (i : ℕ) (q k v qNorm kNorm : List K) (pos : ℕ) :
    attention cfg i q k v qNorm (if cfg.isKvShared i then none else some kNorm) pos =
      attention cfg i q k v qNorm (some kNorm) pos := by
  unfold attention
  cases cfg.isKvShared i <;> rfl

theorem forwardLayer_eq {m : Gemma4Model K} (hL : IsLayer m.config m.weights i T)
    (hscalar : T .layerScalar = [scalar]) (hpos : 0 < m.config.hiddenSize)
    (hhidden : hidden.length = m.config.hiddenSize) (pos : ℕ) :
    forwardLayer m i hidden pos layerPle =
      (let x := rmsRow hidden (T .inputLayernorm) m.config.rmsNormEps
      attention m.config i (matvec (T .qProj) x m.config.hiddenSize (m.config.qDim i))
        (matvec (T .kProj) x m.config.hiddenSize (m.config.kvDim i))
        (matvec (T .vProj) x m.config.hiddenSize (m.config.kvDim i)) (T .qNorm) (some (T .kNorm))
        pos) >>= fun attnOut =>
          pure (postAttention m.config i T scalar attnOut hidden layerPle) := by
  have hT : ∀ w, (T w).length = weightShape m.config (.layer i w) := hL.length
  unfold forwardLayer
  simp only [hL.loaded .inputLayernorm (by decide), hL.loaded .qProj (by decide),
    hL.loaded .kProj (by decide), hL.loaded .vProj (by decide), hL.loaded .qNorm (by decide),
    hL.loaded .kNorm (by decide), hL.loaded .oProj (by decide),
    hL.loaded .postAttentionLayernorm (by decide), hL.loaded .preFeedforwardLayernorm (by decide),
    hL.loaded .gateProj (by decide), hL.loaded .upProj (by decide),
    hL.loaded .downProj (by decide), hL.loaded .postFeedforwardLayernorm (by decide),
    hL.loaded .perLayerInputGate (by decide), hL.loaded .perLayerProjection (by decide),
    hL.loaded .postPerLayerInputNorm (by decide), hL.loaded .layerScalar (by decide), hscalar,
    norm_eq hL hpos .inputLayernorm rfl hhidden, lift_some, pure_bind, cpuMatmul_one]
  refine congrArg _ (funext fun attnOut => ?_)
  simp only [norm_eq hL hpos .postAttentionLayernorm rfl (length_matvec _ _ _ _), lift_some,
    pure_bind]
  have hhidden2 : (List.zipWith (· + ·) hidden (rmsRow (matvec (T .oProj) attnOut
      (m.config.qDim i) m.config.hiddenSize) (T .postAttentionLayernorm)
      m.config.rmsNormEps)).length = m.config.hiddenSize := by
    simp [hT, weightShape, hhidden]
  simp only [norm_eq hL hpos .preFeedforwardLayernorm rfl hhidden2,
    norm_eq hL hpos .postFeedforwardLayernorm rfl (length_matvec _ _ _ _),
    norm_eq hL hpos .postPerLayerInputNorm rfl (length_matvec _ _ _ _), lift_some, pure_bind]
  rfl

omit [LinearOrder K] in
theorem qkvCpu_eq (hL : IsLayer m.inner.config m.inner.weights i T)
    (hpos : 0 < m.inner.config.hiddenSize) (hhidden : hidden.length = m.inner.config.hiddenSize) :
    qkvCpu m i hidden (T .inputLayernorm) =
      (let x := rmsRow hidden (T .inputLayernorm) m.inner.config.rmsNormEps
      some (matvec (T .qProj) x m.inner.config.hiddenSize (m.inner.config.qDim i),
        matvec (T .kProj) x m.inner.config.hiddenSize (m.inner.config.kvDim i),
        matvec (T .vProj) x m.inner.config.hiddenSize (m.inner.config.kvDim i))) := by
  unfold qkvCpu
  simp only [norm_eq hL hpos .inputLayernorm rfl hhidden, hL.loaded .qProj (by decide),
    hL.loaded .kProj (by decide), hL.loaded .vProj (by decide), cpuMatmul_one]
  rfl

/-- A layer, once it is decided whether it uses the GPU. -/
def layerOn (m : VulkanModel K) (layerIdx : ℕ) (hidden : List K) (pos : ℕ) (layerPle : List K)
    (cpuW : LayerCpuWeightRefs K) (useGpu : Bool) : Panics (GpuState K) (List K) := do
  let cfg := m.inner.config
  let (q, k, v) ← (if useGpu then qkvGpu m layerIdx hidden
    else lift (qkvCpu m layerIdx hidden cpuW.inputLayernorm))
  let attnOut ← zoom GpuState.kvCaches (fun st caches => { st with kvCaches := caches })
    (attention cfg layerIdx q k v cpuW.qNorm cpuW.kNorm pos)
  if useGpu && (computeLayerGpuCaps m.gpuWeights layerIdx).hasFusedPostAttnWeights then
    fusedPostAttention m layerIdx attnOut hidden layerPle
  else branchPostAttention m layerIdx useGpu cpuW attnOut hidden layerPle

theorem forwardLayerGpuMatmuls_eq (hL : IsLayer m.inner.config m.inner.weights i T)
    (hscalar : T .layerScalar = [scalar]) (pos : ℕ) :
    forwardLayerGpuMatmuls m i hidden pos layerPle =
      (if m.engine && (computeLayerGpuCaps m.gpuWeights i).hasGpuWeights then initActBufs m
        else pure false) >>=
      layerOn m i hidden pos layerPle (cpuRefs m.inner.config i T scalar) := by
  unfold forwardLayerGpuMatmuls
  simp only [computeLayerCpuWeightRefs_eq hL hscalar, lift_some, pure_bind]
  rfl

omit [LinearOrder K] in
theorem qkv_returns (hL : IsLayer m.inner.config m.inner.weights i T)
    (hG : ∀ w b, m.gpuWeights (.layer i w) = some b → b = T w) (useGpu : Bool)
    (hdim : useGpu = true → m.inner.config.layerHeadDim i ≤ m.inner.config.globalHeadDim)
    (hcaps : useGpu = true → (computeLayerGpuCaps m.gpuWeights i).hasGpuWeights = true)
    (hkeys : useGpu = true → (m.gpuWeights (.layer i .qkvProj)).isSome = false →
      (m.gpuWeights (.layer i .kProj)).isSome = true ∧
        (m.gpuWeights (.layer i .vProj)).isSome = true)
    (hpos : 0 < m.inner.config.hiddenSize) (hhidden : hidden.length = m.inner.config.hiddenSize) :
    Returns (Ready m useGpu · caches)
      (if useGpu then qkvGpu m i hidden
        else lift (qkvCpu m i hidden (cpuRefs m.inner.config i T scalar).inputLayernorm))
      (let x := rmsRow hidden (T .inputLayernorm) m.inner.config.rmsNormEps
      (matvec (T .qProj) x m.inner.config.hiddenSize (m.inner.config.qDim i),
        matvec (T .kProj) x m.inner.config.hiddenSize (m.inner.config.kvDim i),
        matvec (T .vProj) x m.inner.config.hiddenSize (m.inner.config.kvDim i)))
      (Ready m useGpu · caches) := by
  cases useGpu with
  | true => exact qkvGpu_returns ⟨hL, hG, hdim rfl⟩ (hcaps rfl) (hkeys rfl) hhidden
  | false => exact .lift (qkvCpu_eq hL hpos hhidden)

theorem attention_refines (useGpu : Bool) (q k v qNorm kNorm : List K) (pos : ℕ) :
    Refines (Ready m useGpu) (fun out => out.length = m.inner.config.qDim i)
      (zoom GpuState.kvCaches (fun st caches => { st with kvCaches := caches })
        (attention m.inner.config i q k v qNorm
          (if m.inner.config.isKvShared i then none else some kNorm) pos))
      (attention m.inner.config i q k v qNorm (some kNorm) pos) := by
  rw [attention_kNorm]
  exact .zoom (fun st caches h => h.mirrors.1) (fun st caches caches' h => h.setCaches)
    fun caches => (attention_sameLive _ _ _ _ _ _ _ _ caches caches (.refl caches)).2.2

theorem layerOn_refines (hL : IsLayer m.inner.config m.inner.weights i T)
    (hG : ∀ w b, m.gpuWeights (.layer i w) = some b → b = T w) (useGpu : Bool)
    (hdim : useGpu = true → m.inner.config.layerHeadDim i ≤ m.inner.config.globalHeadDim)
    (huse : useGpu = true → m.engine = true ∧
      (computeLayerGpuCaps m.gpuWeights i).hasGpuWeights = true)
    (hkeys : useGpu = true → NoMissing m i)
    (hscalar : T .layerScalar = [scalar]) (hpos : 0 < m.inner.config.hiddenSize)
    (hhidden : hidden.length = m.inner.config.hiddenSize)
    (hple : layerPle.length = m.inner.config.hiddenSizePerLayerInput) (pos : ℕ) :
    Refines (Ready m useGpu) (fun out => out.length = m.inner.config.hiddenSize)
      (layerOn m i hidden pos layerPle (cpuRefs m.inner.config i T scalar) useGpu)
      (forwardLayer m.inner i hidden pos layerPle) := by
  rw [forwardLayer_eq hL hscalar hpos hhidden]
  have hpost : ∀ attnOut : List K, attnOut.length = m.inner.config.qDim i →
      Refines (Ready m useGpu) (fun out => out.length = m.inner.config.hiddenSize)
        (if useGpu && (computeLayerGpuCaps m.gpuWeights i).hasFusedPostAttnWeights then
          fusedPostAttention m i attnOut hidden layerPle
        else branchPostAttention m i useGpu (cpuRefs m.inner.config i T scalar) attnOut hidden
          layerPle)
        (pure (postAttention m.inner.config i T scalar attnOut hidden layerPle)) := by
    intro attnOut hattn
    refine .of_returns (fun caches => ?_) (length_postAttention hL.length hhidden)
    split
    · rename_i hfused
      obtain ⟨rfl, hfused⟩ := Bool.and_eq_true_iff.1 hfused
      exact fusedPostAttention_returns ⟨hL, hG, hdim rfl⟩ hfused hscalar hattn hhidden hple
    · rename_i hfused
      refine branchPostAttention_returns hL hG useGpu hdim hpos (fun hgpu => ?_) hattn hhidden hple
      obtain ⟨hengine, hcaps⟩ := huse hgpu
      exact (hkeys hgpu).up hengine hcaps (by simpa [hgpu] using hfused)
  refine .of_returns_bind (fun caches => qkv_returns hL hG useGpu hdim (fun hgpu => (huse hgpu).2)
    (fun hgpu => ?_) hpos hhidden) (.bind (attention_refines useGpu _ _ _ _ _ pos) hpost)
  exact (hkeys hgpu).qkv (huse hgpu).1 (huse hgpu).2

/-- **A layer on the GPU refines a layer of the reference.** -/
theorem forwardLayerGpuMatmuls_refines (hD : OnDevice m i T) (hkeys : NoMissing m i)
    (hscalar : T .layerScalar = [scalar]) (hpos : 0 < m.inner.config.hiddenSize)
    (hhidden : hidden.length = m.inner.config.hiddenSize)
    (hple : layerPle.length = m.inner.config.hiddenSizePerLayerInput) (pos : ℕ) :
    Refines (Mirrors m) (fun out => out.length = m.inner.config.hiddenSize)
      (forwardLayerGpuMatmuls m i hidden pos layerPle)
      (forwardLayer m.inner i hidden pos layerPle) := by
  rw [forwardLayerGpuMatmuls_eq hD.layer hscalar]
  exact .of_bind (G := Ready m) (fun st caches h => useGpu_spec h) (fun _ _ _ h => h.mirrors)
    fun useGpu huse => layerOn_refines hD.layer hD.weights useGpu (fun _ => hD.headDim) huse
      (fun _ => hkeys) hscalar hpos hhidden hple pos

end Gemma4

end VllmVulkan
