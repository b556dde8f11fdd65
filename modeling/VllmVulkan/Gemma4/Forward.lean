import VllmVulkan.Gemma4.Branches
import VllmVulkan.Gemma4.Passes
import VllmVulkan.Lib.Machine

/-!
# The forward pass on the GPU

From any caches, every sequence of `forward` and `reset_kv_cache` calls has the same outcomes on the
GPU as on the CPU, and leaves the same caches.

* `WellShaped`, `Uploaded` : the weights of a model, and its resident weights;
* `gpuPass`, `lmHeadOn` : the layers and the LM head of the forward pass;
* `lmHeadGpu_returns` : the LM head and the softcap;
* `forwardGpu_refines` : **one token**;
* `forwardGpu_run_eq` : **every sequence of calls**;
* `forwardGpu_run_ne` : why the heads of the sliding layers must fit the activation buffers, and why
  there must be hidden elements.
-/

namespace VllmVulkan

namespace Gemma4

open Elementary Commands Panics Machine

variable {K : Type}

/-- The names of the tensors a model has. -/
def InModel (cfg : Gemma4Config K) : WeightName → Prop
  | .layer i w => i < cfg.numHiddenLayers ∧ w ≠ .qkvProj
  | _ => True

/-- The tensors of a model are loaded, in the shapes its configuration gives. -/
structure WellShaped (m : Gemma4Model K) : Prop where
  hiddenSize : 0 < m.config.hiddenSize
  loaded : ∀ name, InModel m.config name →
    ∃ w, m.weights name = some w ∧ w.length = weightShape m.config name

/-- What is resident was uploaded from the tensors; the QKV weight is stacked from three of them. -/
structure Uploaded (m : VulkanModel K) : Prop where
  weights : ∀ name b, InModel m.inner.config name → m.gpuWeights name = some b →
    m.inner.weights name = some b
  qkv : ∀ i b, m.gpuWeights (.layer i .qkvProj) = some b →
    ∃ q k v, m.inner.weights (.layer i .qProj) = some q ∧
      m.inner.weights (.layer i .kProj) = some k ∧
      m.inner.weights (.layer i .vProj) = some v ∧ b = q ++ (k ++ v)

/-! ### The tensors of the layers -/

/-- The tensors of a layer. -/
def tensors (m : Gemma4Model K) (i : ℕ) (w : LayerWeight) : List K :=
  let raw := fun w => (m.weights (.layer i w)).getD []
  if w = .qkvProj then raw .qProj ++ (raw .kProj ++ raw .vProj) else raw w

theorem WellShaped.isLayer {m : Gemma4Model K} (hW : WellShaped m) {i : ℕ}
    (hi : i < m.config.numHiddenLayers) : IsLayer m.config m.weights i (tensors m i) := by
  have hraw : ∀ w, w ≠ .qkvProj → m.weights (.layer i w) = some (tensors m i w) ∧
      (tensors m i w).length = weightShape m.config (.layer i w) := by
    intro w hw
    obtain ⟨t, ht, hlen⟩ := hW.loaded (.layer i w) ⟨hi, hw⟩
    have hval : tensors m i w = t := by
      simp only [tensors, if_neg hw, ht, Option.getD_some]
    exact ⟨hval ▸ ht, hval ▸ hlen⟩
  have hqkv : tensors m i .qkvProj =
      tensors m i .qProj ++ (tensors m i .kProj ++ tensors m i .vProj) := rfl
  refine ⟨fun w hw => (hraw w hw).1, fun w => ?_, hqkv⟩
  by_cases hw : w = .qkvProj
  · subst hw
    rw [hqkv, List.length_append, List.length_append, (hraw .qProj (by decide)).2,
      (hraw .kProj (by decide)).2, (hraw .vProj (by decide)).2]
    simp only [weightShape]
    ring
  · exact (hraw w hw).2

theorem WellShaped.layerScalar {m : Gemma4Model K} (hW : WellShaped m) {i : ℕ}
    (hi : i < m.config.numHiddenLayers) : ∃ scalar, tensors m i .layerScalar = [scalar] :=
  List.length_eq_one_iff.1 ((hW.isLayer hi).length .layerScalar)

theorem layerHeadDim_le {cfg : Gemma4Config K} (h : cfg.headDim ≤ cfg.globalHeadDim) (i : ℕ) :
    cfg.layerHeadDim i ≤ cfg.globalHeadDim := by
  unfold Gemma4Config.layerHeadDim
  split
  · exact Nat.le_refl _
  · exact h

theorem Uploaded.layer {m : VulkanModel K} (hW : WellShaped m.inner) (hU : Uploaded m) {i : ℕ}
    (hi : i < m.inner.config.numHiddenLayers) (w : LayerWeight) (b : List K)
    (hb : m.gpuWeights (.layer i w) = some b) : b = tensors m.inner i w := by
  have hL := hW.isLayer hi
  by_cases hw : w = .qkvProj
  · subst hw
    obtain ⟨q, k, v, hq, hk, hv, rfl⟩ := hU.qkv i b hb
    rw [hL.qkv, Option.some.inj (hq.symm.trans (hL.loaded .qProj (by decide))),
      Option.some.inj (hk.symm.trans (hL.loaded .kProj (by decide))),
      Option.some.inj (hv.symm.trans (hL.loaded .vProj (by decide)))]
  · exact Option.some.inj ((hU.weights (.layer i w) b ⟨hi, hw⟩ hb).symm.trans (hL.loaded w hw))

theorem Uploaded.onDevice {m : VulkanModel K} (hW : WellShaped m.inner) (hU : Uploaded m)
    (hdim : m.inner.config.headDim ≤ m.inner.config.globalHeadDim) {i : ℕ}
    (hi : i < m.inner.config.numHiddenLayers) : OnDevice m i (tensors m.inner i) :=
  ⟨hW.isLayer hi, hU.layer hW hi, layerHeadDim_le hdim i⟩

/-! ### The LM head -/

variable [Field K] [Elementary K] {m : VulkanModel K} {caches : Caches K} {hidden : List K}

/-- The logits. -/
def logits (cfg : Gemma4Config K) (lmW normW hidden : List K) : List K :=
  (matvec lmW (rmsRow hidden normW cfg.rmsNormEps) cfg.hiddenSize cfg.vocabSize).map fun l =>
    tanh (l / cfg.finalLogitSoftcapping) * cfg.finalLogitSoftcapping

/-- **The LM head and the softcap on the GPU.** -/
theorem lmHeadGpu_returns {lmW normW : List K}
    (hlm : lmW.length = m.inner.config.vocabSize * m.inner.config.hiddenSize)
    (hnorm : normW.length = m.inner.config.hiddenSize)
    (hhidden : hidden.length = m.inner.config.hiddenSize) :
    Returns (fun st => Acts m [] st caches) (lmHeadGpu m lmW normW hidden)
      (logits m.inner.config lmW normW hidden) fun st => Acts m [] st caches := by
  have hraw : Returns (fun st => Acts m [] st caches) (writeAct .rawHidden hidden) ()
      fun st => Acts m [(.rawHidden, hidden)] st caches :=
    writeAct_returns hhidden.le (by simp [capFacts]) (by simp)
  unfold lmHeadGpu
  refine hraw.bind ((submitActs_returns ?_ ?_).bind
    (deref_returns (by simp [logits] : (logits m.inner.config lmW normW hidden).length = _)))
  · simp [GroupsIndependent, groups]
  refine .rmsNormMul rfl rfl hhidden hnorm (Nat.le_refl _) rfl ?_
  refine .mulMatVec rfl rfl hlm (by simp [hhidden, hnorm]) (Nat.le_refl _) rfl ?_
  -- the scalars that `init_act_bufs` wrote
  refine .mulBroadcast rfl rfl (length_matvec _ _ _ _) (Nat.le_refl _) rfl ?_
  refine .tanh rfl (by simp) (Nat.le_refl _) rfl ?_
  refine .mulBroadcast rfl rfl (by simp) (Nat.le_refl _) rfl ?_
  exact .nil (by simp [capFacts, logits, div_eq_mul_inv, Function.comp_def])

theorem lmHead_eq {m : Gemma4Model K} (hpos : 0 < m.config.hiddenSize)
    (hhidden : hidden.length = m.config.hiddenSize) {lmW normW : List K}
    (hlm : m.weights .embedTokens = some lmW) (hnorm : m.weights .norm = some normW)
    (hlen : normW.length = m.config.hiddenSize) :
    lmHead m hidden = some (logits m.config lmW normW hidden) := by
  unfold lmHead
  simp only [hlm, hnorm, cpuRmsNorm_row (hhidden.trans hlen.symm) (hhidden ▸ hpos),
    cpuMatmul_one, Option.bind_eq_bind, Option.bind_some, Option.pure_def]
  rfl

/-! ### One token -/

omit [Elementary K] in
theorem length_embed {m : Gemma4Model K} {tokenId : ℕ} (h : embed m tokenId = some hidden) :
    hidden.length = m.config.hiddenSize := by
  simp only [embed, Option.bind_eq_bind, Option.bind_eq_some_iff, Option.pure_def,
    Option.some.injEq] at h
  obtain ⟨w, -, row, hrow, rfl⟩ := h
  rw [List.length_map, length_slice hrow, ← Nat.sub_mul, Nat.add_sub_cancel_left, Nat.one_mul]

variable [LinearOrder K]

/-- The hidden state before the first layer and the per-layer embeddings, as `forwardGpu` computes
them. -/
def gpuPassInputs (m : VulkanModel K) (tokenId : ℕ) : Panics (GpuState K) (List K × List K) := do
  let h := m.inner.config.hiddenSize
  let totalPle := m.inner.config.totalPle
  let hidden ← lift (embed m.inner tokenId)
  let pleEmbedsFlat ← lift (pleEmbeds m.inner tokenId)
  let pleProj ← gpuMatmulOrCpu m .perLayerModelProjection hidden 1 h totalPle
    ⟨h, h, h, totalPle, h * totalPle, h, totalPle, 0, 0, 1, 1, 1, 1⟩
  let pleInputs ← lift (pleInputs m.inner pleEmbedsFlat pleProj)
  pure (hidden, pleInputs)

/-- `forwardGpu` through the first layers. -/
def gpuPass (m : VulkanModel K) (tokenId pos nLayers : ℕ) : Panics (GpuState K) (List K) := do
  let (hidden, pleInputs) ← gpuPassInputs m tokenId
  (List.range (min nLayers m.inner.config.numHiddenLayers)).foldlM (fun hidden layerIdx => do
    let layerPle ← lift (slice pleInputs (layerIdx * m.inner.config.hiddenSizePerLayerInput)
      ((layerIdx + 1) * m.inner.config.hiddenSizePerLayerInput))
    forwardLayerGpuMatmuls m layerIdx hidden pos layerPle) hidden

omit [LinearOrder K] in
/-- The LM head of `forwardGpu`. -/
def lmHeadOn (m : VulkanModel K) (hidden : List K) : Panics (GpuState K) (List K) :=
  match m.engine, m.gpuWeights .embedTokens, m.gpuWeights .norm with
  | true, some lmW, some normW => do
    let useGpuLmHead ← initActBufs m
    if useGpuLmHead then lmHeadGpu m lmW normW hidden else lift (lmHead m.inner hidden)
  | _, _, _ => lift (lmHead m.inner hidden)

/-- `forwardGpu` is a pass through all layers and the LM head. -/
theorem forwardGpu_eq_pass (m : VulkanModel K) (tokenId pos : ℕ) :
    forwardGpu m tokenId pos =
      gpuPass m tokenId pos m.inner.config.numHiddenLayers >>= lmHeadOn m := by
  unfold forwardGpu gpuPass gpuPassInputs
  simp only [bind_assoc, pure_bind, Nat.min_self]
  rfl

omit [Field K] [Elementary K] [LinearOrder K] in
theorem Mirrors.setProducts [Field K] {st : GpuState K} (h : Mirrors m st caches) (n : ℕ) :
    Mirrors m { st with products := n } caches := h

omit [LinearOrder K] in
theorem length_passInputs {m : Gemma4Model K} {tokenId : ℕ} {p : List K × List K}
    (h : passInputs m tokenId = some p) : p.1.length = m.config.hiddenSize := by
  simp only [passInputs, Option.bind_eq_bind, Option.bind_eq_some_iff, Option.pure_def,
    Option.some.injEq] at h
  obtain ⟨hidden, hembed, -, -, -, -, -, -, rfl⟩ := h
  exact length_embed hembed

omit [LinearOrder K] in
theorem gpuPassInputs_refines (hW : WellShaped m.inner) (hU : Uploaded m) (tokenId : ℕ) :
    Refines (Mirrors m) (fun p => p.1.length = m.inner.config.hiddenSize) (gpuPassInputs m tokenId)
      (lift (passInputs m.inner tokenId)) := by
  obtain ⟨projW, hprojW, hprojLen⟩ := hW.loaded .perLayerModelProjection trivial
  have hpc : (⟨m.inner.config.hiddenSize, m.inner.config.hiddenSize, m.inner.config.hiddenSize,
      m.inner.config.totalPle, m.inner.config.hiddenSize * m.inner.config.totalPle,
      m.inner.config.hiddenSize, m.inner.config.totalPle, 0, 0, 1, 1, 1, 1⟩ : MvPc) =
      mvPc m.inner.config.hiddenSize m.inner.config.totalPle 1 := rfl
  unfold gpuPassInputs passInputs
  simp only [lift_bind, hpc]
  refine .bind (P := fun hidden => hidden.length = m.inner.config.hiddenSize)
    (.lift fun _ h => length_embed h) fun hidden hlen => ?_
  refine .bind (P := fun _ => True) (.lift fun _ _ => trivial) ?_
  intro ple _
  rw [hprojW, lift_some, pure_bind, cpuMatmul_one]
  refine .of_returns_bind (fun caches => gpuMatmulOrCpu_returns (fun st n hst => hst.setProducts n)
    hprojW (fun b hb =>
      Option.some.inj ((hU.weights .perLayerModelProjection b trivial hb).symm.trans hprojW))
    hprojLen hlen) ?_
  exact .bind (P := fun _ => True) (.lift fun _ _ => trivial) fun _ _ => .pure hlen

omit [LinearOrder K] in
theorem lmHeadOn_refines (hW : WellShaped m.inner) (hU : Uploaded m)
    (hhidden : hidden.length = m.inner.config.hiddenSize) :
    Refines (Mirrors m) (fun _ => True) (lmHeadOn m hidden) (lift (lmHead m.inner hidden)) := by
  obtain ⟨lmW, hlmW, hlmLen⟩ := hW.loaded .embedTokens trivial
  obtain ⟨normW, hnormW, hnormLen⟩ := hW.loaded .norm trivial
  have hhead : lmHead m.inner hidden = some (logits m.inner.config lmW normW hidden) :=
    lmHead_eq hW.hiddenSize hhidden hlmW hnormW hnormLen
  unfold lmHeadOn
  split
  · rename_i lmB normB _ hlmB hnormB
    obtain rfl : lmB = lmW :=
      Option.some.inj ((hU.weights .embedTokens lmB trivial hlmB).symm.trans hlmW)
    obtain rfl : normB = normW :=
      Option.some.inj ((hU.weights .norm normB trivial hnormB).symm.trans hnormW)
    refine .of_bind (G := Ready m) (P := fun _ => True) (fun st caches h => ?_)
      (fun _ _ _ h => h.mirrors) fun useGpu _ => ?_
    · obtain ⟨b, st', hinit, hready⟩ := initActBufs_spec h
      exact ⟨b, st', hinit, trivial, hready⟩
    · rw [hhead, lift_some]
      refine .of_returns (fun caches => ?_) trivial
      cases useGpu with
      | true => exact lmHeadGpu_returns hlmLen hnormLen hhidden
      | false => exact .pure
  · exact .lift fun _ _ => trivial

omit [Field K] [Elementary K] [LinearOrder K] in
theorem length_layerPle {cfg : Gemma4Config K} {pleInputs layerPle : List K} {i : ℕ}
    (h : slice pleInputs (i * cfg.hiddenSizePerLayerInput) ((i + 1) * cfg.hiddenSizePerLayerInput) =
      some layerPle) : layerPle.length = cfg.hiddenSizePerLayerInput := by
  rw [length_slice h, ← Nat.sub_mul, Nat.add_sub_cancel_left, Nat.one_mul]

theorem gpuPass_refines (hW : WellShaped m.inner) (hU : Uploaded m)
    (hdim : m.inner.config.headDim ≤ m.inner.config.globalHeadDim)
    (hkeys : ∀ i < m.inner.config.numHiddenLayers, NoMissing m i) (tokenId pos nLayers : ℕ) :
    Refines (Mirrors m) (fun hidden => hidden.length = m.inner.config.hiddenSize)
      (gpuPass m tokenId pos nLayers) (forwardNLayers m.inner tokenId pos nLayers) := by
  unfold gpuPass forwardNLayers passLayers
  refine (gpuPassInputs_refines hW hU tokenId).bind fun p hhidden =>
    .foldlM (fun hidden i hi hhidden => ?_) hhidden
  refine .bind (.lift fun layerPle h => length_layerPle h) ?_
  intro layerPle hple
  have hlt : i < m.inner.config.numHiddenLayers :=
    (List.mem_range.1 hi).trans_le (Nat.min_le_right _ _)
  obtain ⟨scalar, hscalar⟩ := hW.layerScalar hlt
  exact forwardLayerGpuMatmuls_refines (hU.onDevice hW hdim hlt) (hkeys i hlt) hscalar
    hW.hiddenSize hhidden hple pos

theorem gpuPass_succ {tokenId pos n : ℕ} {st st' : GpuState K} {out : List K}
    (hn : n < m.inner.config.numHiddenLayers)
    (h : gpuPass m tokenId pos (n + 1) st = (some out, st')) :
    ∃ hidden st₁ layerPle, gpuPass m tokenId pos n st = (some hidden, st₁) ∧
      forwardLayerGpuMatmuls m n hidden pos layerPle st₁ = (some out, st') := by
  unfold gpuPass at h ⊢
  obtain ⟨⟨hidden₀, pleInputs⟩, _, hinputs, hlayers⟩ := bind_eq_some.1 h
  dsimp only at hlayers
  rw [Nat.min_eq_left hn, List.range_succ, List.foldlM_append] at hlayers
  obtain ⟨hidden, st₁, hfold, hlast⟩ := bind_eq_some.1 hlayers
  simp only [List.foldlM_cons, List.foldlM_nil, bind_pure] at hlast
  obtain ⟨layerPle, _, hlift, hlayer⟩ := bind_eq_some.1 hlast
  obtain ⟨-, rfl⟩ := lift_eq_some.1 hlift
  refine ⟨hidden, st₁, layerPle, bind_eq_some.2 ⟨(hidden₀, pleInputs), _, hinputs, ?_⟩, hlayer⟩
  dsimp only
  rw [Nat.min_eq_left hn.le]
  exact hfold

/-- **One token.** -/
theorem forwardGpu_refines (hW : WellShaped m.inner) (hU : Uploaded m)
    (hdim : m.inner.config.headDim ≤ m.inner.config.globalHeadDim)
    (hkeys : ∀ i < m.inner.config.numHiddenLayers, NoMissing m i) (tokenId pos : ℕ) :
    Refines (Mirrors m) (fun _ => True) (forwardGpu m tokenId pos)
      (forward m.inner tokenId pos) := by
  rw [forwardGpu_eq_pass, forward_eq_pass]
  exact (gpuPass_refines hW hU hdim hkeys tokenId pos _).bind fun _ hhidden =>
    lmHeadOn_refines hW hU hhidden

/-! ### Sequences of calls -/

/-- A call of the model. -/
inductive Call where
  /-- `forward(token_id, position)`. -/
  | forward (tokenId position : ℕ)
  /-- `reset_kv_cache()`. -/
  | resetKvCache
  deriving DecidableEq, Repr

/-- A call on the CPU reference; `forward` returns the logits. -/
def call (m : Gemma4Model K) : Call → Panics (Caches K) (Option (List K))
  | .forward tokenId position => some <$> Gemma4.forward m tokenId position
  | .resetKvCache => fun caches => (some none, resetKvCache caches)

/-- A call on the GPU. -/
def callGpu (m : VulkanModel K) : Call → Panics (GpuState K) (Option (List K))
  | .forward tokenId position => some <$> forwardGpu m tokenId position
  | .resetKvCache => fun st => (some none, { st with kvCaches := resetKvCache st.kvCaches })

/-- The same outcome, and the same caches afterwards. -/
def SameCall (gpu : Transition (GpuState K) Call (Option (Option (List K))))
    (cpu : Transition (Caches K) Call (Option (Option (List K)))) : Prop :=
  gpu.output = cpu.output ∧ gpu.post.kvCaches = cpu.post

theorem callGpu_refines (hW : WellShaped m.inner) (hU : Uploaded m)
    (hdim : m.inner.config.headDim ≤ m.inner.config.globalHeadDim)
    (hkeys : ∀ i < m.inner.config.numHiddenLayers, NoMissing m i) (c : Call) :
    Refines (Mirrors m) (fun _ => True) (callGpu m c) (call m.inner c) := by
  cases c with
  | forward tokenId position =>
    exact (forwardGpu_refines hW hU hdim hkeys tokenId position).bind fun _ _ => .pure trivial
  | resetKvCache =>
    rintro st caches ⟨rfl, hacts⟩
    exact ⟨rfl, ⟨rfl, hacts⟩, fun _ _ => trivial⟩

/-- **Every sequence of calls** has the same outcomes on the GPU as on the CPU, and leaves the same
caches after each of them. -/
theorem forwardGpu_run_eq (hW : WellShaped m.inner) (hU : Uploaded m)
    (hdim : m.inner.config.headDim ≤ m.inner.config.globalHeadDim)
    (hkeys : ∀ i < m.inner.config.numHiddenLayers, NoMissing m i) (caches : Caches K)
    (allocs : ℕ → Bool) (products : ℕ) (calls : List Call) :
    List.Forall₂ SameCall
      (transitions (fun st c => (callGpu m c st).swap) ⟨caches, none, allocs, products⟩ calls)
      (transitions (fun caches c => (call m.inner c caches).swap) caches calls) := by
  have hcall := callGpu_refines hW hU hdim hkeys
  have hstep : ∀ (st : GpuState K) (cs : Caches K) (c : Call), Mirrors m st cs → True →
      Mirrors m (callGpu m c st).swap.1 (call m.inner c cs).swap.1 :=
    fun st cs c h _ => (hcall c st cs h).2.1
  have hstart : Mirrors m ⟨caches, none, allocs, products⟩ caches := ⟨rfl, fun mem h => nomatch h⟩
  refine forall₂_transitions hstep (fun st cs c h _ => ?_) hstart fun _ _ => trivial
  obtain ⟨hout, hpost, -⟩ := hcall c st cs h
  exact ⟨hout, hpost.1⟩

/-! ### A small model -/

/-- The first terms of the elementary functions. -/
abbrev elementaryTaylor : Elementary ℚ where
  sqrt x := (x + 1) / 2
  tanh x := x
  exp x := 1 + x + x ^ 2 / 2
  sin x := x
  cos x := 1 - x ^ 2 / 2
  powf a b := 1 + (a - 1) * b

section

variable (K : Type) [Field K]

/-- Six layers with two query heads and one K/V head, the last of them KV-shared. -/
def smallConfig : Gemma4Config K where
  hiddenSize := 4
  numHiddenLayers := 6
  numAttentionHeads := 2
  numKeyValueHeads := 1
  headDim := 2
  globalHeadDim := 4
  intermediateSize := 3
  numKvSharedLayers := 1
  vocabSize := 3
  rmsNormEps := 1
  slidingWindow := 2
  hiddenSizePerLayerInput := 2
  finalLogitSoftcapping := 3
  embedScale := 2
  pleScale := 1
  perLayerProjectionScale := 1
  perLayerInputScale := 1

/-- A tensor of positive elements. -/
def filledTensor (n : ℕ) : List K := (List.range n).map fun i => ((i % 3 + 1 : ℕ) : K)

/-- The tensors of the small model. -/
def filledWeights : Weights K
  | .layer _ .qkvProj => none
  | name => some (filledTensor K (weightShape (smallConfig K) name))

/-- The small model with all its weights resident, the stacked QKV weights among them. -/
def filledModel : VulkanModel K where
  inner := ⟨smallConfig K, filledWeights K⟩
  engine := true
  gpuWeights
    | .layer i .qkvProj =>
      let qkv := fun w => filledTensor K (weightShape (smallConfig K) (.layer i w))
      some (qkv .qProj ++ (qkv .kProj ++ qkv .vProj))
    | name => some (filledTensor K (weightShape (smallConfig K) name))
  device := ⟨⟨id, .refl⟩, ⟨id, .refl⟩, fun _ _ => 0, fun _ _ _ => 0⟩

theorem length_filledTensor (n : ℕ) : (filledTensor K n).length = n := by
  rw [filledTensor, List.length_map, List.length_range]

theorem wellShaped_filledModel : WellShaped (filledModel K).inner := by
  refine ⟨Nat.succ_pos 3, fun name h => ?_⟩
  rcases name with _ | _ | _ | _ | _ | ⟨i, w⟩
  case layer =>
    cases w
    case qkvProj => exact absurd rfl h.2
    all_goals exact ⟨_, rfl, length_filledTensor K _⟩
  all_goals exact ⟨_, rfl, length_filledTensor K _⟩

theorem uploaded_filledModel : Uploaded (filledModel K) := by
  refine ⟨fun name b h hb => ?_, fun i b hb => ⟨_, _, _, rfl, rfl, rfl, (Option.some.inj hb).symm⟩⟩
  rcases name with _ | _ | _ | _ | _ | ⟨i, w⟩
  case layer =>
    cases w
    case qkvProj => exact absurd rfl h.2
    all_goals exact hb
  all_goals exact hb

theorem noMissing_filledModel (i : ℕ) : NoMissing (filledModel K) i :=
  ⟨fun _ _ _ => ⟨rfl, rfl⟩, fun _ _ _ _ _ => rfl⟩

end

section

attribute [local instance] elementaryTaylor

/-- Empty caches with room for three tokens. -/
def smallCaches : Caches ℚ :=
  (List.range 6).map fun i => KvCache.new 3 1 ((smallConfig ℚ).layerHeadDim i)

/-- Two tokens, a reset and a third token. -/
theorem forwardGpu_run_eq_filledModel :
    List.Forall₂ SameCall
      (transitions (fun st c => (callGpu (filledModel ℚ) c st).swap)
        ⟨smallCaches, none, fun _ => true, 0⟩
        [.forward 2 0, .forward 1 1, .resetKvCache, .forward 0 0])
      (transitions (fun caches c => (call (filledModel ℚ).inner c caches).swap)
        smallCaches [.forward 2 0, .forward 1 1, .resetKvCache, .forward 0 0]) :=
  forwardGpu_run_eq (wellShaped_filledModel ℚ) (uploaded_filledModel ℚ) (by decide)
    (fun i _ => noMissing_filledModel ℚ i) _ _ _ _

end

/-! ### Layers of zeros -/

/-- The elementary functions where the examples use them: `√1`, `tanh 0`, `exp 0`, `sin 0`, `cos 0`
and `θ⁰`. -/
abbrev elementaryAtZero : Elementary ℚ where
  sqrt _ := 1
  tanh _ := 0
  exp _ := 1
  sin _ := 0
  cos _ := 1
  powf _ _ := 1

attribute [local instance] elementaryAtZero

/-- One sliding layer with heads of `headDim` elements, in a model whose full-attention layers
would have heads of one element. -/
def oneLayer (headDim : ℕ) : Gemma4Config ℚ where
  hiddenSize := 1
  numHiddenLayers := 1
  numAttentionHeads := 1
  numKeyValueHeads := 1
  headDim := headDim
  globalHeadDim := 1
  intermediateSize := 1
  numKvSharedLayers := 0
  vocabSize := 1
  rmsNormEps := 1
  slidingWindow := 1
  hiddenSizePerLayerInput := 1
  finalLogitSoftcapping := 1
  embedScale := 1
  pleScale := 1
  perLayerProjectionScale := 1
  perLayerInputScale := 1

/-- Its weights, all zero. -/
def zeroWeights (cfg : Gemma4Config ℚ) : Weights ℚ
  | .layer _ .qkvProj => none
  | name => some (List.replicate (weightShape cfg name) 0)

/-- The model with all its weights resident, the stacked QKV weight among them. -/
def zeroModel (headDim : ℕ) : VulkanModel ℚ where
  inner := ⟨oneLayer headDim, zeroWeights (oneLayer headDim)⟩
  engine := true
  gpuWeights name := some (List.replicate (weightShape (oneLayer headDim) name) 0)
  device := ⟨⟨id, .refl⟩, ⟨id, .refl⟩, fun _ _ => 0, fun _ _ _ => 0⟩

theorem wellShaped_zeroWeights (cfg : Gemma4Config ℚ) (hpos : 0 < cfg.hiddenSize) :
    WellShaped ⟨cfg, zeroWeights cfg⟩ := by
  refine ⟨hpos, fun name h => ?_⟩
  rcases name with _ | _ | _ | _ | _ | ⟨i, w⟩
  case layer =>
    cases w
    case qkvProj => exact absurd rfl h.2
    all_goals exact ⟨_, rfl, List.length_replicate⟩
  all_goals exact ⟨_, rfl, List.length_replicate⟩

theorem wellShaped_zeroModel (headDim : ℕ) : WellShaped (zeroModel headDim).inner :=
  wellShaped_zeroWeights (oneLayer headDim) Nat.one_pos

/-- A model with all its weights zero and resident. -/
def zeroResident (cfg : Gemma4Config ℚ) : VulkanModel ℚ where
  inner := ⟨cfg, zeroWeights cfg⟩
  engine := true
  gpuWeights name := some (List.replicate (weightShape cfg name) 0)
  device := ⟨⟨id, .refl⟩, ⟨id, .refl⟩, fun _ _ => 0, fun _ _ _ => 0⟩

theorem uploaded_zeroResident (cfg : Gemma4Config ℚ) : Uploaded (zeroResident cfg) := by
  refine ⟨fun name b h hb => ?_, fun i b hb => ?_⟩
  · rcases name with _ | _ | _ | _ | _ | ⟨i, w⟩
    case layer =>
      cases w
      case qkvProj => exact absurd rfl h.2
      all_goals exact hb
    all_goals exact hb
  · obtain rfl := Option.some.inj hb
    refine ⟨_, _, _, rfl, rfl, rfl, ?_⟩
    rw [List.replicate_append_replicate, List.replicate_append_replicate]
    congr 1
    simp only [weightShape]
    ring

theorem uploaded_zeroModel (headDim : ℕ) : Uploaded (zeroModel headDim) :=
  uploaded_zeroResident (oneLayer headDim)

theorem noMissing_zeroModel (headDim i : ℕ) : NoMissing (zeroModel headDim) i :=
  ⟨fun _ _ _ => ⟨rfl, rfl⟩, fun _ _ _ _ _ => rfl⟩

theorem run_ne_of_outcome_ne {m : VulkanModel ℚ} {st : GpuState ℚ} {caches : Caches ℚ} {c : Call}
    (h : (callGpu m c st).1 ≠ (call m.inner c caches).1) :
    ¬ List.Forall₂ SameCall (transitions (fun st c => (callGpu m c st).swap) st [c])
      (transitions (fun caches c => (call m.inner c caches).swap) caches [c]) := by
  intro hrun
  rw [transitions_cons, transitions_cons] at hrun
  exact h (List.forall₂_cons.1 hrun).1.1

/-- The layer without hidden elements. -/
def noHidden : Gemma4Config ℚ := { oneLayer 1 with hiddenSize := 0 }

/-- With heads of two elements on the sliding layer the activation buffers, which are sized for the
heads of the full-attention layers, are too small: the reference returns a logit, the GPU pass does
not get through the layer.  Without hidden elements the reference refuses to normalise, which the
GPU pass does not. -/
theorem forwardGpu_run_ne :
    (WellShaped (zeroModel 2).inner ∧ Uploaded (zeroModel 2) ∧
      (∀ i < (zeroModel 2).inner.config.numHiddenLayers, NoMissing (zeroModel 2) i) ∧
      ¬ List.Forall₂ SameCall
        (transitions (fun st c => (callGpu (zeroModel 2) c st).swap)
          ⟨[KvCache.new 1 1 2], none, fun _ => true, 0⟩ [.forward 0 0])
        (transitions (fun caches c => (call (zeroModel 2).inner c caches).swap)
          [KvCache.new 1 1 2] [.forward 0 0])) ∧
    ¬ List.Forall₂ SameCall
      (transitions (fun st c => (callGpu (zeroResident noHidden) c st).swap)
        ⟨[KvCache.new 1 1 1], none, fun _ => true, 0⟩ [.forward 0 0])
      (transitions (fun caches c => (call (zeroResident noHidden).inner c caches).swap)
        [KvCache.new 1 1 1] [.forward 0 0]) := by
  refine ⟨⟨wellShaped_zeroModel 2, uploaded_zeroModel 2, fun i _ => noMissing_zeroModel 2 i,
    run_ne_of_outcome_ne ?_⟩, run_ne_of_outcome_ne ?_⟩
  · decide +kernel
  · decide +kernel

end Gemma4

end VllmVulkan
