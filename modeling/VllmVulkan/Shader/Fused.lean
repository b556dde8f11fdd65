import VllmVulkan.Gemma4.Follow
import VllmVulkan.Gemma4.Rope
import VllmVulkan.Shader.Submission

/-!
# The fused chain, thread by thread

`fused_post_attention` records the post-attention half of a layer into one command buffer.

* `fusedInputs`, `fusedRecords`, `fusedPostAttention_eq` : what it writes, and what it records;
* `FitsIn32`, `built_fusedRecords`, `apart_fusedRecords`, `independent_fusedRecords` : its command
  buffer is one that `submission_refines` is about;
* `fusedPostAttention_threads` : **its threads compute what the CPU computes**.
-/

namespace VllmVulkan

namespace Shader

open Gemma4 Overlap Commands Panics

variable {K : Type} [Field K] [Elementary K]

/-- What `fused_post_attention` writes to the activation buffers. -/
def fusedInputs (attnOut residual layerPle : List K) : Panics (GpuState K) Unit := do
  writeAct .oIn attnOut
  writeAct .residual residual
  writeAct .pleLayer layerPle

/-- The command buffer of `fused_post_attention`. -/
def fusedRecords (cfg : Gemma4Config K) (layerIdx : ℕ) (gpuW : LayerGpuWeightRefs K) :
    List (Record Act K) :=
  let h := cfg.hiddenSize
  let eps := cfg.rmsNormEps
  let qDim := cfg.qDim layerIdx
  let ffnInter := cfg.layerIntermediateSize layerIdx
  let pleDim := cfg.hiddenSizePerLayerInput
  [.dispatch (.mulMatVec .f16 (.weight gpuW.oProj) (.slot .oIn) .oOut (mvPc qDim h 1)),
    .barrier,
    .dispatch (.rmsNormMul (.slot .oOut) (.weight gpuW.postAttentionLayernorm) .paNormed
      (rmsNormMulPc h eps)),
    .barrier,
    .dispatch (.add (.slot .residual) (.slot .paNormed) .hidden2 (binaryElementwisePc h)),
    .barrier,
    .dispatch (.rmsNormMul (.slot .hidden2) (.weight gpuW.preFeedforwardLayernorm) .ffin
      (rmsNormMulPc h eps)),
    .barrier,
    -- gate and up may overlap
    .dispatch (.mulMatVec .f16 (.weight gpuW.gateProj) (.slot .ffin) .gate (mvPc h ffnInter 1)),
    .dispatch (.mulMatVec .f16 (.weight gpuW.upProj) (.slot .ffin) .up (mvPc h ffnInter 1)),
    .barrier,
    .dispatch (.gelu (.slot .gate) .gelu (unaryHeadPc ffnInter)),
    .barrier,
    .dispatch (.mul (.slot .gelu) (.slot .up) .mid (binaryElementwisePc ffnInter)),
    .barrier,
    .dispatch (.mulMatVec .f16 (.weight gpuW.downProj) (.slot .mid) .down (mvPc ffnInter h 1)),
    .barrier,
    .dispatch (.rmsNormMul (.slot .down) (.weight gpuW.postFeedforwardLayernorm) .ffNormed
      (rmsNormMulPc h eps)),
    .barrier,
    .dispatch (.add (.slot .hidden2) (.slot .ffNormed) .hidden3a (binaryElementwisePc h)),
    .barrier,
    .dispatch (.mulMatVec .f16 (.weight gpuW.perLayerInputGate) (.slot .hidden3a) .pleG
      (mvPc h pleDim 1)),
    .barrier,
    .dispatch (.gelu (.slot .pleG) .pleGelu (unaryHeadPc pleDim)),
    .barrier,
    .dispatch (.mul (.slot .pleGelu) (.slot .pleLayer) .pleMid (binaryElementwisePc pleDim)),
    .barrier,
    .dispatch (.mulMatVec .f16 (.weight gpuW.perLayerProjection) (.slot .pleMid) .pleC
      (mvPc pleDim h 1)),
    .barrier,
    .dispatch (.rmsNormMul (.slot .pleC) (.weight gpuW.postPerLayerInputNorm) .contribNormed
      (rmsNormMulPc h eps)),
    .barrier,
    .dispatch (.add (.slot .hidden3a) (.slot .contribNormed) .hidden3b (binaryElementwisePc h)),
    .barrier,
    .dispatch (.mul (.slot .hidden3b) (.weight gpuW.layerScalar) .hidden3Final
      (binaryBroadcastPc h))]

theorem fusedPostAttention_eq (m : VulkanModel K) (layerIdx : ℕ)
    (attnOut residual layerPle : List K) :
    fusedPostAttention m layerIdx attnOut residual layerPle = (do
      fusedInputs attnOut residual layerPle
      let refs ← lift (computeLayerGpuWeightRefs m.gpuWeights layerIdx)
      let gpuW ← lift refs
      submitActs m (fusedRecords m.inner.config layerIdx gpuW)
      readAct .hidden3Final 0 m.inner.config.hiddenSize) := by
  simp only [fusedInputs, Panics.bind_assoc]
  rfl

/-- The sizes of the products of the chain fit in 32 bits, and the rows of its norms with room for a
block. -/
structure FitsIn32 (cfg : Gemma4Config K) (layerIdx : ℕ) : Prop where
  hidden : cfg.hiddenSize + 511 < 2 ^ 32
  q : cfg.qDim layerIdx < 2 ^ 32
  inter : cfg.layerIntermediateSize layerIdx < 2 ^ 32
  ple : cfg.hiddenSizePerLayerInput < 2 ^ 32
  qHidden : cfg.qDim layerIdx * cfg.hiddenSize < 2 ^ 32
  hiddenInter : cfg.hiddenSize * cfg.layerIntermediateSize layerIdx < 2 ^ 32
  hiddenPle : cfg.hiddenSize * cfg.hiddenSizePerLayerInput < 2 ^ 32

section

variable {cfg : Gemma4Config K} {layerIdx : ℕ} {gpuW : LayerGpuWeightRefs K}

omit [Elementary K] in
theorem built_fusedRecords (h : FitsIn32 cfg layerIdx) :
    ∀ d ∈ (groups (fusedRecords cfg layerIdx gpuW)).flatten, Built d := by
  have hh : cfg.hiddenSize < 2 ^ 32 := lt_of_le_of_lt (Nat.le_add_right _ _) h.hidden
  have hinter := Nat.mul_comm _ _ ▸ h.hiddenInter
  have hple := Nat.mul_comm _ _ ▸ h.hiddenPle
  simp only [fusedRecords, groups, List.flatten_cons, List.flatten_nil, List.append_nil,
    List.cons_append, List.nil_append, List.forall_mem_cons]
  refine ⟨.mulMatVec _ _ _ _ h.q hh h.qHidden, .rmsNormMul _ _ _ _ h.hidden,
    .add _ _ _ hh hh, .rmsNormMul _ _ _ _ h.hidden, .mulMatVec _ _ _ _ hh h.inter h.hiddenInter,
    .mulMatVec _ _ _ _ hh h.inter h.hiddenInter, .gelu _ _ h.inter, .mul _ _ _ h.inter h.inter,
    .mulMatVec _ _ _ _ h.inter hh hinter, .rmsNormMul _ _ _ _ h.hidden, .add _ _ _ hh hh,
    .mulMatVec _ _ _ _ hh h.ple h.hiddenPle, .gelu _ _ h.ple, .mul _ _ _ h.ple h.ple,
    .mulMatVec _ _ _ _ h.ple hh hple, .rmsNormMul _ _ _ _ h.hidden, .add _ _ _ hh hh,
    .mul _ _ _ hh (by decide), fun d hd => absurd hd List.not_mem_nil⟩

omit [Elementary K] in
theorem apart_fusedRecords :
    ∀ d ∈ (groups (fusedRecords cfg layerIdx gpuW)).flatten, Apart d := by
  simp only [fusedRecords, groups, List.flatten_cons, List.flatten_nil, List.append_nil,
    List.cons_append, List.nil_append, List.forall_mem_cons, Apart, Dispatch.out,
    Dispatch.operands, List.flatMap_cons, List.flatMap_nil, Binding.slots]
  simp

theorem independent_fusedRecords : GroupsIndependent (fusedRecords cfg layerIdx gpuW) := by
  simp [fusedRecords, GroupsIndependent, groups, Independent, Dispatch.toCommand, Dispatch.out,
    Dispatch.operands, Binding.slots]

end

variable [Glsl K]

/-- **The threads of the fused chain compute what the CPU computes.**  On activation buffers that
are ready, the inputs are written, and the command buffer runs to the end; every execution of its
threads leaves the post-attention half of the layer in the output buffer. -/
theorem fusedPostAttention_threads (hlaw : Glsl.Lawful K) (u : ℕ → Uninit K) (m : VulkanModel K)
    (i : ℕ) (T : LayerWeight → List K) (hD : OnDevice m i T)
    (hcaps : (computeLayerGpuCaps m.gpuWeights i).hasFusedPostAttnWeights = true) (scalar : K)
    (hscalar : T .layerScalar = [scalar]) (hfits : FitsIn32 m.inner.config i)
    (attnOut residual layerPle : List K) (hattn : attnOut.length = m.inner.config.qDim i)
    (hres : residual.length = m.inner.config.hiddenSize)
    (hple : layerPle.length = m.inner.config.hiddenSizePerLayerInput) (st : GpuState K)
    (mem₀ : Mem Act K) (hst : st.actBufs = some mem₀) (hready : ActsSat m [] mem₀) :
    ∃ mem gpuW st₁, fusedInputs attnOut residual layerPle st = (some (), st₁) ∧
      st₁.actBufs = some mem ∧ computeLayerGpuWeightRefs m.gpuWeights i = some (some gpuW) ∧
      (∃ m', Exec (started (commands u (fusedRecords m.inner.config i gpuW))) (flat mem) m') ∧
      ∀ m', Exec (started (commands u (fusedRecords m.inner.config i gpuW))) (flat mem) m' →
        ∀ j < m.inner.config.hiddenSize, m' (.hidden3Final, j) =
          (postAttention m.inner.config i T scalar attnOut residual layerPle).getD j 0 := by
  obtain ⟨st', hrun, -⟩ := fusedPostAttention_returns hD hcaps hscalar hattn hres hple st
    ⟨rfl, mem₀, hst, hready⟩
  rw [fusedPostAttention_eq] at hrun
  obtain ⟨_, st₁, hinputs, hrun⟩ := bind_eq_some.1 hrun
  obtain ⟨refs, st₂, hrefs, hrun⟩ := bind_eq_some.1 hrun
  obtain ⟨gpuW, st₃, hgpuW, hrun⟩ := bind_eq_some.1 hrun
  obtain ⟨_, st₄, hsubmit, hread⟩ := bind_eq_some.1 hrun
  obtain ⟨hrefs', rfl⟩ := lift_eq_some.1 hrefs
  obtain ⟨rfl, rfl⟩ := lift_eq_some.1 hgpuW
  obtain ⟨mem, mem', hmem, hmap, rfl⟩ := onActs_eq_some hsubmit
  obtain ⟨mem₁, _, hmem₁, hmap', -⟩ := onActs_eq_some hread
  obtain rfl : mem' = mem₁ := Option.some.inj hmem₁
  obtain ⟨mem₂, hbatch, heq⟩ := Option.map_eq_some_iff.1 hmap
  obtain rfl : mem₂ = mem' := (Prod.mk.inj heq).2
  obtain ⟨row, hslice, heq⟩ := Option.map_eq_some_iff.1 hmap'
  obtain rfl : row = _ := (Prod.mk.inj heq).1
  obtain ⟨hexists, hend⟩ := exec_of_submitBatch hlaw m.device.order u (built_fusedRecords hfits)
    apart_fusedRecords independent_fusedRecords hbatch
  refine ⟨mem, gpuW, _, hinputs, hmem, hrefs', hexists, fun m' hrun j hj => ?_⟩
  obtain ⟨-, hrow⟩ := slice_eq_some.1 hslice
  rw [Nat.zero_add, List.drop_zero] at hrow
  rw [hend m' hrun, ← hrow, flat, List.getD_eq_getElem?_getD, List.getD_eq_getElem?_getD,
    List.getElem?_take_of_lt hj]

/-- The functions of the real numbers. -/
@[reducible] noncomputable def realGlsl : Glsl ℝ where
  inversesqrt x := 1 / Real.sqrt x
  sqrt2OverPi := (7978845608 / 10000000000 : ℚ)

attribute [local instance] realElementary realGlsl

theorem lawful_realGlsl : Glsl.Lawful ℝ where
  inversesqrt _ := rfl
  tanh x := by
    have hpos := Real.exp_pos x
    have hneg : Real.exp (-x) = 1 / Real.exp x := by rw [Real.exp_neg, one_div]
    have htwo : Real.exp (2 * x) = Real.exp x * Real.exp x := by rw [two_mul, Real.exp_add]
    change Real.tanh x = 1 - 2 / (Real.exp (2 * x) + 1)
    rw [Real.tanh_eq_sinh_div_cosh, Real.sinh_eq, Real.cosh_eq, hneg, htwo]
    field_simp
    ring
  sqrt2OverPi := by
    change ((7978845608 / 10000000000 : ℚ) : ℝ) = _
    norm_num

/-- The first layer of the small model. -/
theorem fusedPostAttention_threads_filledModel :
    ∃ st mem gpuW st₁, st.actBufs = freshActBufs (filledModel ℝ) ∧
      fusedInputs [1, 2, 3, 4] [4, 3, 2, 1] [1, 2] st = (some (), st₁) ∧ st₁.actBufs = some mem ∧
      computeLayerGpuWeightRefs (filledModel ℝ).gpuWeights 0 = some (some gpuW) ∧
      (∃ m', Exec (started (commands (fun _ => ⟨fun _ _ => 0, fun _ _ => 0⟩)
        (fusedRecords (filledModel ℝ).inner.config 0 gpuW))) (flat mem) m') ∧
      ∀ m', Exec (started (commands (fun _ => ⟨fun _ _ => 0, fun _ _ => 0⟩)
        (fusedRecords (filledModel ℝ).inner.config 0 gpuW))) (flat mem) m' →
        ∀ j < 4, m' (.hidden3Final, j) = (postAttention (filledModel ℝ).inner.config 0
          (tensors (filledModel ℝ).inner 0) 1 [1, 2, 3, 4] [4, 3, 2, 1] [1, 2]).getD j 0 := by
  obtain ⟨mem₀, hfresh, hready⟩ := freshActBufs_spec (filledModel ℝ)
  have hD := (uploaded_filledModel ℝ).onDevice (wellShaped_filledModel ℝ) (by decide)
    (show 0 < 6 by decide)
  have hscalar : tensors (filledModel ℝ).inner 0 .layerScalar = [1] :=
    congrArg (fun x : ℝ => [x]) Nat.cast_one
  obtain ⟨mem, gpuW, st₁, hrun⟩ := fusedPostAttention_threads lawful_realGlsl
    (fun _ => ⟨fun _ _ => 0, fun _ _ => 0⟩) (filledModel ℝ) 0 (tensors (filledModel ℝ).inner 0) hD
    rfl 1 hscalar (by constructor <;> decide) [1, 2, 3, 4] [4, 3, 2, 1] [1, 2] rfl rfl rfl
    ⟨[], some mem₀, fun _ => true, 0⟩ mem₀ rfl hready
  exact ⟨_, mem, gpuW, st₁, hfresh.symm, hrun⟩

end Shader

end VllmVulkan
