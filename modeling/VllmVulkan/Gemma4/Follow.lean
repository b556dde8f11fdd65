import VllmVulkan.Gemma4.Forward
import VllmVulkan.Gemma4.Passes

/-!
# What the GPU forward pass needs

A layer that returns on the GPU has found every key it indexes, and its heads fit the activation
buffers.  So a pass that returns on the GPU returns what it returns on the CPU, whatever is
resident.

* `submitActs_inBounds` : a submission that returns stays inside its buffers;
* `layerOn_needs` : **what a layer needs to return on the GPU**;
* `forwardLayerGpuMatmuls_follows` : a layer that returns;
* `gpuPass_follows`, `forwardGpu_follows` : **a pass that returns**.
-/

namespace VllmVulkan

namespace Gemma4

open Elementary Commands Panics

variable {K : Type} [Field K] [Elementary K]

variable {m : VulkanModel K} {i : ℕ} {caches : Caches K} {facts : List (Act × List K)}
  {st st' : GpuState K}

omit [Field K] [Elementary K] in
theorem onActs_eq_some {α : Type} {f : Mem Act K → Option (α × Mem Act K)} {a : α}
    (h : onActs f st = (some a, st')) : ∃ mem mem', st.actBufs = some mem ∧
      f mem = some (a, mem') ∧ st' = { st with actBufs := some mem' } := by
  rcases hrun : st.actBufs.bind f with _ | ⟨b, mem'⟩
  · rw [onActs_none hrun] at h
    cases h
  · obtain ⟨mem, hst, hmem'⟩ := Option.bind_eq_some_iff.1 hrun
    rw [onActs_some hrun] at h
    cases h
    exact ⟨mem, mem', hst, hmem', rfl⟩

theorem submitActs_inBounds {rs : List (Record Act K)} (hacts : Acts m facts st caches)
    (h : submitActs m rs st = (some (), st')) :
    ∀ d ∈ (groups rs).flatten, d.outLen ≤ actSize m.inner.config d.out := by
  obtain ⟨-, mem, hmem, hsat⟩ := hacts
  obtain ⟨mem₁, _, hmem₁, hsubmit, -⟩ := onActs_eq_some h
  obtain rfl : mem = mem₁ := Option.some.inj (hmem.symm.trans hmem₁)
  intro d hd
  obtain ⟨g, hg, hdg⟩ := List.mem_flatten.1 hd
  have hall : (groups rs).all (fun g => g.all (Dispatch.inBounds mem)) = true := by
    by_contra hne
    rw [submitBatch, if_neg hne] at hsubmit
    cases hsubmit
  have hbounds := List.all_eq_true.1 (List.all_eq_true.1 hall g hg) d hdg
  unfold Dispatch.inBounds at hbounds
  rw [← hsat.size d.out]
  exact of_decide_eq_true (Bool.and_eq_true_iff.1 hbounds).2

/-! ### The keys that are indexed -/

omit [Field K] [Elementary K] in
/-- `compute_layer_attn_gpu_weight_refs` finds the keys it indexes. -/
theorem computeLayerAttnGpuWeightRefs_isSome (gpuWeights : Weights K) (i : ℕ) :
    (computeLayerAttnGpuWeightRefs gpuWeights i).isSome = true ↔
      ((computeLayerGpuCaps gpuWeights i).hasGpuWeights = true →
        (gpuWeights (.layer i .qkvProj)).isSome = false →
        (gpuWeights (.layer i .kProj)).isSome = true ∧
          (gpuWeights (.layer i .vProj)).isSome = true) := by
  unfold computeLayerAttnGpuWeightRefs computeLayerGpuCaps
  dsimp only
  rcases gpuWeights (.layer i .qProj) with _ | q
  · simp
  rcases gpuWeights (.layer i .inputLayernorm) with _ | w
  · simp
  rcases gpuWeights (.layer i .qkvProj) with _ | qkv
  · rcases gpuWeights (.layer i .kProj) with _ | k
    · simp
    rcases gpuWeights (.layer i .vProj) with _ | v <;> simp
  · simp

omit [Field K] [Elementary K] in
/-- `compute_layer_gpu_weight_refs` indexes the keys that its flag checks. -/
theorem computeLayerGpuWeightRefs_isSome (gpuWeights : Weights K) (i : ℕ) :
    (computeLayerGpuWeightRefs gpuWeights i).isSome = true := by
  unfold computeLayerGpuWeightRefs
  split
  · rename_i hcaps
    simp only [computeLayerGpuCaps, Bool.and_eq_true, Option.isSome_iff_exists] at hcaps
    obtain ⟨⟨⟨⟨⟨⟨⟨⟨⟨⟨⟨_, h₁⟩, _, h₂⟩, _, h₃⟩, _, h₄⟩, _, h₅⟩, _, h₆⟩, _, h₇⟩, _, h₈⟩, _, h₉⟩,
      _, h₁₀⟩, _, h₁₁⟩ := hcaps
    simp [h₁, h₂, h₃, h₄, h₅, h₆, h₇, h₈, h₉, h₁₀, h₁₁]
  · rfl

theorem qkvGpu_needs {hidden : List K} {r : List K × List K × List K}
    (hcaps : (computeLayerGpuCaps m.gpuWeights i).hasGpuWeights = true)
    (hacts : Acts m [] st caches) (hhidden : hidden.length = m.inner.config.hiddenSize)
    (h : qkvGpu m i hidden st = (some r, st')) :
    ((m.gpuWeights (.layer i .qkvProj)).isSome = false →
      (m.gpuWeights (.layer i .kProj)).isSome = true ∧
        (m.gpuWeights (.layer i .vProj)).isSome = true) ∧
    (0 < m.inner.config.numKeyValueHeads →
      m.inner.config.layerHeadDim i ≤ m.inner.config.globalHeadDim) := by
  unfold qkvGpu at h
  obtain ⟨_, st₁, hwrite, h₁⟩ := bind_eq_some.1 h
  have hraw : Returns (fun st => Acts m [] st caches) (writeAct .rawHidden hidden) ()
      fun st => Acts m [] st caches :=
    writeAct_returns hhidden.le (by simp [capFacts]) (by simp)
  obtain ⟨st₁', hwrite', hacts₁⟩ := hraw st hacts
  rw [hwrite] at hwrite'
  cases hwrite'
  obtain ⟨refs, _, hlift, h₂⟩ := bind_eq_some.1 h₁
  obtain ⟨hrefs, rfl⟩ := lift_eq_some.1 hlift
  obtain ⟨attnGpuW, _, hlift', h₃⟩ := bind_eq_some.1 h₂
  obtain ⟨hattn, rfl⟩ := lift_eq_some.1 hlift'
  refine ⟨(computeLayerAttnGpuWeightRefs_isSome m.gpuWeights i).1 (by rw [hrefs]; rfl) hcaps,
    fun hheads => ?_⟩
  by_contra hlt
  rw [not_le] at hlt
  have hkv : m.inner.config.numKeyValueHeads * m.inner.config.globalHeadDim <
      m.inner.config.numKeyValueHeads * m.inner.config.layerHeadDim i :=
    Nat.mul_lt_mul_of_pos_left hlt hheads
  have hq : m.inner.config.numAttentionHeads * m.inner.config.globalHeadDim ≤
      m.inner.config.numAttentionHeads * m.inner.config.layerHeadDim i :=
    Nat.mul_le_mul_left _ hlt.le
  -- the last output does not fit
  obtain ⟨inln, qkvW | ⟨qW, kW, vW⟩⟩ := attnGpuW
  · obtain ⟨_, _, hsubmit, -⟩ := bind_eq_some.1 h₃
    have hbounds := submitActs_inBounds hacts₁ hsubmit
    simp only [groups, List.flatten_cons, List.flatten_nil, List.append_nil, List.cons_append,
      List.nil_append, List.forall_mem_cons] at hbounds
    have hout := hbounds.2.1
    simp only [Dispatch.outLen, Dispatch.out, mvPc, actSize, Gemma4Config.qDim,
      Gemma4Config.kvDim] at hout
    omega
  · obtain ⟨_, _, hsubmit, -⟩ := bind_eq_some.1 h₃
    have hbounds := submitActs_inBounds hacts₁ hsubmit
    simp only [groups, List.flatten_cons, List.flatten_nil, List.append_nil, List.cons_append,
      List.nil_append, List.forall_mem_cons] at hbounds
    have hout := hbounds.2.2.1
    simp only [Dispatch.outLen, Dispatch.out, mvPc, actSize, Gemma4Config.kvDim] at hout
    omega

/-- The FFN finds `up_proj` where it has found the other two. -/
theorem ffn_needs {ffIn : List K} {r : FBuf K} (h : ffn m i true ffIn st = (some r, st'))
    (hgate : (m.gpuWeights (.layer i .gateProj)).isSome = true)
    (hdown : (m.gpuWeights (.layer i .downProj)).isSome = true) :
    (m.gpuWeights (.layer i .upProj)).isSome = true := by
  obtain ⟨gw, hgw⟩ := Option.isSome_iff_exists.1 hgate
  obtain ⟨dw, hdw⟩ := Option.isSome_iff_exists.1 hdown
  unfold ffn at h
  simp only [hgw, hdw] at h
  obtain ⟨_, _, -, h₁⟩ := bind_eq_some.1 h
  obtain ⟨uw, _, hlift, -⟩ := bind_eq_some.1 h₁
  obtain ⟨huw, -⟩ := lift_eq_some.1 hlift
  rw [huw]
  rfl

theorem branchPostAttention_needs {cpuW : LayerCpuWeightRefs K}
    {attnOut residual layerPle out : List K}
    (h : branchPostAttention m i true cpuW attnOut residual layerPle st = (some out, st'))
    (hgate : (m.gpuWeights (.layer i .gateProj)).isSome = true)
    (hdown : (m.gpuWeights (.layer i .downProj)).isSome = true) :
    (m.gpuWeights (.layer i .upProj)).isSome = true := by
  unfold branchPostAttention at h
  obtain ⟨_, _, -, h₁⟩ := bind_eq_some.1 h
  obtain ⟨_, _, -, h₂⟩ := bind_eq_some.1 h₁
  obtain ⟨_, _, -, h₃⟩ := bind_eq_some.1 h₂
  obtain ⟨_, _, -, h₄⟩ := bind_eq_some.1 h₃
  obtain ⟨_, _, hffn, -⟩ := bind_eq_some.1 h₄
  exact ffn_needs hffn hgate hdown

variable [LinearOrder K]

theorem attention_needs {cfg : Gemma4Config K} {caches' : Caches K} {q k v qNorm out : List K}
    {kNorm : Option (List K)} {pos : ℕ}
    (h : attention cfg i q k v qNorm kNorm pos caches = (some out, caches')) :
    0 < cfg.numKeyValueHeads := by
  rw [attention_eq] at h
  obtain ⟨_, _, -, h₁⟩ := bind_eq_some.1 h
  obtain ⟨_, _, -, h₂⟩ := bind_eq_some.1 h₁
  obtain ⟨_, _, -, h₃⟩ := bind_eq_some.1 h₂
  obtain ⟨hsdpa, -⟩ := lift_eq_some.1 h₃
  simp only [cpuSdpa, Option.bind_eq_bind, Option.bind_eq_some_iff] at hsdpa
  obtain ⟨_, -, _, -, ratio, hratio, -⟩ := hsdpa
  unfold usizeDiv at hratio
  split_ifs at hratio with hzero
  exact Nat.pos_of_ne_zero hzero

/-- **What a layer needs to return on the GPU**: no key that it indexes is missing, and its heads
fit the activation buffers. -/
theorem layerOn_needs {cpuW : LayerCpuWeightRefs K} {hidden layerPle out : List K} {pos : ℕ}
    (hcaps : (computeLayerGpuCaps m.gpuWeights i).hasGpuWeights = true)
    (hacts : Acts m [] st caches) (hhidden : hidden.length = m.inner.config.hiddenSize)
    (h : layerOn m i hidden pos layerPle cpuW true st = (some out, st')) :
    NoMissing m i ∧ m.inner.config.layerHeadDim i ≤ m.inner.config.globalHeadDim := by
  unfold layerOn at h
  obtain ⟨_, st₁, hqkv, h₁⟩ := bind_eq_some.1 h
  rw [if_pos rfl] at hqkv
  obtain ⟨hkeys, hfits⟩ := qkvGpu_needs hcaps hacts hhidden hqkv
  obtain ⟨_, st₂, hzoom, h₂⟩ := bind_eq_some.1 h₁
  obtain ⟨_, hattention, -⟩ := zoom_eq_some.1 hzoom
  refine ⟨⟨fun _ _ => hkeys, fun _ _ hfused hgate hdown => ?_⟩, hfits (attention_needs hattention)⟩
  rw [hfused, Bool.and_false, if_neg Bool.false_ne_true] at h₂
  exact branchPostAttention_needs h₂ hgate hdown

/-- **A layer that returns** returns what the reference returns. -/
theorem forwardLayerGpuMatmuls_follows {T : LayerWeight → List K} {scalar : K}
    {hidden layerPle : List K} (hL : IsLayer m.inner.config m.inner.weights i T)
    (hG : ∀ w b, m.gpuWeights (.layer i w) = some b → b = T w)
    (hscalar : T .layerScalar = [scalar]) (hpos : 0 < m.inner.config.hiddenSize)
    (hhidden : hidden.length = m.inner.config.hiddenSize)
    (hple : layerPle.length = m.inner.config.hiddenSizePerLayerInput) (pos : ℕ) :
    Follows (Mirrors m) (fun out => out.length = m.inner.config.hiddenSize)
      (forwardLayerGpuMatmuls m i hidden pos layerPle)
      (forwardLayer m.inner i hidden pos layerPle) := by
  rw [forwardLayerGpuMatmuls_eq hL hscalar]
  refine .of_bind (G := Ready m) (fun st caches h => useGpu_spec h) (fun _ _ _ h => h.mirrors)
    fun useGpu huse => ?_
  intro st caches out st' hready hout
  have hneeds : useGpu = true →
      NoMissing m i ∧ m.inner.config.layerHeadDim i ≤ m.inner.config.globalHeadDim := by
    rintro rfl
    exact layerOn_needs (huse rfl).2 hready hhidden hout
  exact Follows.of_refines (layerOn_refines hL hG useGpu (fun h => (hneeds h).2) huse
    (fun h => (hneeds h).1) hscalar hpos hhidden hple pos) st caches out st' hready hout

/-! ### Passes -/

theorem gpuPass_follows (hW : WellShaped m.inner) (hU : Uploaded m) (tokenId pos nLayers : ℕ) :
    Follows (Mirrors m) (fun hidden => hidden.length = m.inner.config.hiddenSize)
      (gpuPass m tokenId pos nLayers) (forwardNLayers m.inner tokenId pos nLayers) := by
  unfold gpuPass forwardNLayers passLayers
  refine (Follows.of_refines (gpuPassInputs_refines hW hU tokenId)).bind fun p hhidden =>
    .foldlM (fun hidden i hi hhidden => ?_) hhidden
  refine .bind (.lift fun layerPle h => length_layerPle h) ?_
  intro layerPle hple
  have hlt : i < m.inner.config.numHiddenLayers :=
    (List.mem_range.1 hi).trans_le (Nat.min_le_right _ _)
  obtain ⟨scalar, hscalar⟩ := hW.layerScalar hlt
  exact forwardLayerGpuMatmuls_follows (hW.isLayer hlt) (hU.layer hW hlt) hscalar hW.hiddenSize
    hhidden hple pos

theorem forwardGpu_follows (hW : WellShaped m.inner) (hU : Uploaded m) (tokenId pos : ℕ) :
    Follows (Mirrors m) (fun _ => True) (forwardGpu m tokenId pos)
      (forward m.inner tokenId pos) := by
  rw [forwardGpu_eq_pass, forward_eq_pass]
  exact (gpuPass_follows hW hU tokenId pos _).bind fun _ hhidden =>
    .of_refines (lmHeadOn_refines hW hU hhidden)

end Gemma4

end VllmVulkan
