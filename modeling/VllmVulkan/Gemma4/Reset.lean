import VllmVulkan.Gemma4.Upload

/-!
# Reset leaves no trace

After `reset_kv_cache` nothing tells a model from one that was just loaded: not the keys and values
behind the live part of the caches, not the contents of the activation buffers, not what earlier
products left in the buffers of the pool.

* `layerTarget` : what a layer does to the caches, a key missing or not;
* `Twins` : two models with the same live tokens, on devices that may differ in all they leave open;
* `layer_twins`, `forward_twins` : **twins have the same outcomes, and stay twins**;
* `DebugCall`, `VulkanModel.exec` : the calls of the model, `forward_n_layers` among them;
* `reset_leaves_no_trace` : **after a reset every sequence of calls has the outcomes it has on a
  model that was just loaded**.
-/

namespace VllmVulkan

namespace Gemma4

open Panics Machine Sessions

variable {K : Type} [Field K] [Elementary K]

variable {m : VulkanModel K} {i : ℕ} {T : LayerWeight → List K} {scalar : K}
  {attnOut residual layerPle hidden : List K}

/-! ### A layer that misses a key -/

/-- The FFN of a layer indexes `up_proj`, which is not resident. -/
def missesUp (gpuWeights : Weights K) (layerIdx : ℕ) : Bool :=
  !(computeLayerGpuCaps gpuWeights layerIdx).hasFusedPostAttnWeights &&
    (gpuWeights (.layer layerIdx .gateProj)).isSome &&
    (gpuWeights (.layer layerIdx .downProj)).isSome &&
    !(gpuWeights (.layer layerIdx .upProj)).isSome

omit [Field K] [Elementary K] in
theorem missesUp_iff {gpuWeights : Weights K} : missesUp gpuWeights i = true ↔
    (computeLayerGpuCaps gpuWeights i).hasFusedPostAttnWeights = false ∧
      (gpuWeights (.layer i .gateProj)).isSome = true ∧
      (gpuWeights (.layer i .downProj)).isSome = true ∧
      (gpuWeights (.layer i .upProj)).isSome = false := by
  simp only [missesUp, Bool.and_eq_true, Bool.not_eq_true', and_assoc]

theorem ffn_panics {ffIn : List K} {P : FBuf K → Prop} (hmiss : missesUp m.gpuWeights i = true)
    (hffIn : ffIn.length = m.inner.config.hiddenSize) :
    Refines (Ready m true) P (ffn m i true ffIn) panic := by
  obtain ⟨-, hgate, hdown, hup⟩ := missesUp_iff.1 hmiss
  obtain ⟨gw, hgw⟩ := Option.isSome_iff_exists.1 hgate
  obtain ⟨dw, hdw⟩ := Option.isSome_iff_exists.1 hdown
  have huw : m.gpuWeights (.layer i .upProj) = none :=
    Option.isNone_iff_eq_none.1 (Option.isSome_eq_false_iff.1 hup)
  unfold ffn
  simp only [hgw, hdw, huw, lift_none]
  refine .of_returns_bind (a := ()) (fun caches => ?_) fun _ _ h => ⟨rfl, h, fun _ h => nomatch h⟩
  exact writeAct_returns hffIn.le (by simp [capFacts]) (by simp)

theorem branchPostAttention_panics (hL : IsLayer m.inner.config m.inner.weights i T)
    (hG : ∀ w b, m.gpuWeights (.layer i w) = some b → b = T w)
    (hdim : m.inner.config.layerHeadDim i ≤ m.inner.config.globalHeadDim)
    (hpos : 0 < m.inner.config.hiddenSize) (hmiss : missesUp m.gpuWeights i = true)
    (hattn : attnOut.length = m.inner.config.qDim i)
    (hres : residual.length = m.inner.config.hiddenSize) {P : List K → Prop} :
    Refines (Ready m true) P
      (branchPostAttention m i true (cpuRefs m.inner.config i T scalar) attnOut residual layerPle)
      panic := by
  have hT : ∀ w, (T w).length = weightShape m.inner.config (.layer i w) := hL.length
  unfold branchPostAttention cpuRefs
  rw [← bind_assoc]
  refine .of_returns_bind (fun caches => oProjection_returns hL hG true (fun _ => hdim) hattn) ?_
  simp only [norm_eq hL hpos .postAttentionLayernorm rfl (length_matvec _ _ _ _), lift_some,
    pure_bind]
  have hhidden2 : (List.zipWith (· + ·) residual (rmsRow (matvec (T .oProj) attnOut
      (m.inner.config.qDim i) m.inner.config.hiddenSize) (T .postAttentionLayernorm)
      m.inner.config.rmsNormEps)).length = m.inner.config.hiddenSize := by
    simp [hT, weightShape, hres]
  simp only [norm_eq hL hpos .preFeedforwardLayernorm rfl hhidden2, lift_some, pure_bind]
  refine .panic_bind (ffn_panics hmiss ?_)
  simp [hT, weightShape, hhidden2]

variable [LinearOrder K]

/-- What a layer does to the caches: a layer of the reference, unless it uses the GPU and misses a
key, when it panics behind its attention. -/
def layerTarget (m : VulkanModel K) (layerIdx : ℕ) (useGpu : Bool) (hidden : List K) (pos : ℕ)
    (layerPle : List K) : Panics (Caches K) (List K) :=
  if useGpu && missesUp m.gpuWeights layerIdx then
    (let T := tensors m.inner layerIdx
    let x := rmsRow hidden (T .inputLayernorm) m.inner.config.rmsNormEps
    attention m.inner.config layerIdx
      (matvec (T .qProj) x m.inner.config.hiddenSize (m.inner.config.qDim layerIdx))
      (matvec (T .kProj) x m.inner.config.hiddenSize (m.inner.config.kvDim layerIdx))
      (matvec (T .vProj) x m.inner.config.hiddenSize (m.inner.config.kvDim layerIdx))
      (T .qNorm) (some (T .kNorm)) pos) >>= fun _ => panic
  else forwardLayer m.inner layerIdx hidden pos layerPle

theorem layerTarget_sameLive (m : VulkanModel K) (i : ℕ) (useGpu : Bool) (hidden : List K)
    (pos : ℕ) (layerPle : List K) {ds : List KvDims} :
    Refines (SameLive ds) (fun _ => True) (layerTarget m i useGpu hidden pos layerPle)
      (layerTarget m i useGpu hidden pos layerPle) := by
  unfold layerTarget
  split
  · exact (attention_sameLive _ _ _ _ _ _ _ _).bind fun _ _ => .panic
  · exact forwardLayer_sameLive m.inner i hidden pos layerPle

/-- **A layer on the GPU**, whatever its branches miss, as long as the submit of the projections
misses nothing. -/
theorem layerOn_refines_target (hW : WellShaped m.inner) (hU : Uploaded m)
    (hdim : m.inner.config.headDim ≤ m.inner.config.globalHeadDim)
    (hi : i < m.inner.config.numHiddenLayers)
    (hattnRefs : (computeLayerAttnGpuWeightRefs m.gpuWeights i).isSome = true) {useGpu : Bool}
    (huse : useGpu = true → m.engine = true ∧
      (computeLayerGpuCaps m.gpuWeights i).hasGpuWeights = true)
    (hscalar : tensors m.inner i .layerScalar = [scalar])
    (hhidden : hidden.length = m.inner.config.hiddenSize)
    (hple : layerPle.length = m.inner.config.hiddenSizePerLayerInput) (pos : ℕ) :
    Refines (Ready m useGpu) (fun out => out.length = m.inner.config.hiddenSize)
      (layerOn m i hidden pos layerPle (cpuRefs m.inner.config i (tensors m.inner i) scalar) useGpu)
      (layerTarget m i useGpu hidden pos layerPle) := by
  have hL := hW.isLayer hi
  have hG := hU.layer hW hi
  have hkeys := (computeLayerAttnGpuWeightRefs_isSome m.gpuWeights i).1 hattnRefs
  have hlayerDim := layerHeadDim_le hdim i
  unfold layerTarget
  split
  · rename_i hmiss
    obtain ⟨rfl, hmiss⟩ := Bool.and_eq_true_iff.1 hmiss
    obtain ⟨hengine, hcaps⟩ := huse rfl
    unfold layerOn
    refine .of_returns_bind (fun caches => qkv_returns hL hG true (fun _ => hlayerDim)
      (fun _ => hcaps) (fun _ => hkeys hcaps) hW.hiddenSize hhidden) ?_
    refine .bind (attention_refines true _ _ _ _ _ pos) ?_
    intro attnOut hattn
    rw [(missesUp_iff.1 hmiss).1, Bool.and_false, if_neg Bool.false_ne_true]
    exact branchPostAttention_panics hL hG hlayerDim hW.hiddenSize hmiss hattn hhidden
  · rename_i hmiss
    refine layerOn_refines hL hG useGpu (fun _ => hlayerDim) huse (fun hgpu => ?_) hscalar
      hW.hiddenSize hhidden hple pos
    refine ⟨fun _ => hkeys, fun _ _ hfused hgate hdown => ?_⟩
    by_contra hup
    exact hmiss (Bool.and_eq_true_iff.2 ⟨hgpu, missesUp_iff.2 ⟨hfused, hgate, hdown,
      Bool.eq_false_of_not_eq_true hup⟩⟩)

/-! ### Twins -/

/-- The model on another device. -/
def VulkanModel.onDevice (m : VulkanModel K) (device : Device K) : VulkanModel K :=
  { m with device := device }

/-- The next attempts to have the activation buffers come out alike. -/
def SameAttempts (st st' : GpuState K) : Prop := ∀ n, st.attempt n = st'.attempt n

/-- Two states of a model on two devices whose caches agree in their live parts.  Either no layer
misses a key, or the attempts to have the activation buffers come out alike. -/
structure Twins (m : VulkanModel K) (device : Device K) (ds : List KvDims) (st st' : GpuState K) :
    Prop where
  caches : ∃ caches caches', Mirrors m st caches ∧ SameLive ds caches caches' ∧
    Mirrors (m.onDevice device) st' caches'
  attempts : (∀ i < m.inner.config.numHiddenLayers, NoMissing m i) ∨ SameAttempts st st'

/-- The model is loaded, and what is resident was uploaded. -/
structure LoadedOn (m : VulkanModel K) : Prop where
  wellShaped : WellShaped m.inner
  uploaded : Uploaded m
  headDim : m.inner.config.headDim ≤ m.inner.config.globalHeadDim
  attnRefs : ∀ i < m.inner.config.numHiddenLayers,
    (computeLayerAttnGpuWeightRefs m.gpuWeights i).isSome = true

variable {device : Device K} {ds : List KvDims} {st st' : GpuState K}

theorem layerTarget_of_noMissing {useGpu : Bool} (h : NoMissing m i)
    (huse : useGpu = true → m.engine = true ∧
      (computeLayerGpuCaps m.gpuWeights i).hasGpuWeights = true) (pos : ℕ) :
    layerTarget m i useGpu hidden pos layerPle = forwardLayer m.inner i hidden pos layerPle := by
  unfold layerTarget
  refine if_neg ?_
  intro hmiss
  obtain ⟨hgpu, hmiss⟩ := Bool.and_eq_true_iff.1 hmiss
  obtain ⟨hfused, hgate, hdown, hup⟩ := missesUp_iff.1 hmiss
  obtain ⟨hengine, hcaps⟩ := huse hgpu
  rw [h.up hengine hcaps hfused hgate hdown] at hup
  cases hup

omit [Elementary K] [LinearOrder K] in
theorem useGpu_twins {caches caches' : Caches K} (hasWeights : Bool) (hst : Mirrors m st caches)
    (hst' : Mirrors (m.onDevice device) st' caches') : ∃ b b' st₁ st₁',
      (if m.engine && hasWeights then initActBufs m else pure false) st = (some b, st₁) ∧
      (if m.engine && hasWeights then initActBufs (m.onDevice device) else pure false) st' =
        (some b', st₁') ∧
      (b = true → m.engine = true ∧ hasWeights = true) ∧
      (b' = true → m.engine = true ∧ hasWeights = true) ∧
      Ready m b st₁ caches ∧ Ready (m.onDevice device) b' st₁' caches' ∧
      (SameAttempts st st' → b = b' ∧ SameAttempts st₁ st₁') := by
  obtain ⟨b, st₁, huse, hb, hready⟩ : ∃ b st₁,
      (if m.engine && hasWeights then initActBufs m else pure false) st = (some b, st₁) ∧
      (b = true → m.engine = true ∧ hasWeights = true) ∧ Ready m b st₁ caches := useGpu_spec hst
  obtain ⟨b', st₁', huse', hb', hready'⟩ : ∃ b st₁,
      (if m.engine && hasWeights then initActBufs (m.onDevice device) else pure false) st' =
        (some b, st₁) ∧
      (b = true → m.engine = true ∧ hasWeights = true) ∧
      Ready (m.onDevice device) b st₁ caches' := useGpu_spec (m := m.onDevice device) hst'
  refine ⟨b, b', st₁, st₁', huse, huse', hb, hb', hready, hready', fun hsame => ?_⟩
  cases hcond : m.engine && hasWeights with
  | true =>
    have hengine := (Bool.and_eq_true_iff.1 hcond).1
    rw [hcond, if_pos rfl] at huse
    rw [hcond, if_pos rfl] at huse'
    obtain ⟨rfl, hleft⟩ := initActBufs_attempt hengine huse
    obtain ⟨rfl, hleft'⟩ := initActBufs_attempt (m := m.onDevice device) hengine huse'
    exact ⟨hsame 0, fun n => by rw [hleft, hleft', hsame 0, hsame (n + 1)]⟩
  | false =>
    rw [hcond, if_neg Bool.false_ne_true] at huse
    rw [hcond, if_neg Bool.false_ne_true] at huse'
    obtain ⟨rfl, rfl⟩ := pure_eq_some.1 huse
    obtain ⟨rfl, rfl⟩ := pure_eq_some.1 huse'
    exact ⟨rfl, hsame⟩

/-- **Twins go through a layer** with the same outcome, and stay twins. -/
theorem layer_twins (hm : LoadedOn m) (hi : i < m.inner.config.numHiddenLayers)
    (hhidden : hidden.length = m.inner.config.hiddenSize)
    (hple : layerPle.length = m.inner.config.hiddenSizePerLayerInput) (pos : ℕ) :
    Refines (Twins m device ds) (fun out => out.length = m.inner.config.hiddenSize)
      (forwardLayerGpuMatmuls m i hidden pos layerPle)
      (forwardLayerGpuMatmuls (m.onDevice device) i hidden pos layerPle) := by
  obtain ⟨hW, hU, hdim, hattnRefs⟩ := hm
  have hU' : Uploaded (m.onDevice device) := ⟨hU.weights, hU.qkv⟩
  obtain ⟨scalar, hscalar⟩ := hW.layerScalar hi
  rintro st st' ⟨⟨caches, caches', hst, hlive, hst'⟩, hattempts⟩
  obtain ⟨b, b', st₁, st₁', huse, huse', hb, hb', hready, hready', hsame⟩ :=
    useGpu_twins (computeLayerGpuCaps m.gpuWeights i).hasGpuWeights hst hst'
  have hrun : forwardLayerGpuMatmuls m i hidden pos layerPle st = layerOn m i hidden pos layerPle
      (cpuRefs m.inner.config i (tensors m.inner i) scalar) b st₁ := by
    rw [forwardLayerGpuMatmuls_eq (hW.isLayer hi) hscalar]
    exact bind_some huse
  have hrun' : forwardLayerGpuMatmuls (m.onDevice device) i hidden pos layerPle st' =
      layerOn (m.onDevice device) i hidden pos layerPle
        (cpuRefs m.inner.config i (tensors m.inner i) scalar) b' st₁' := by
    rw [forwardLayerGpuMatmuls_eq (m := m.onDevice device) (hW.isLayer hi) hscalar]
    exact bind_some huse'
  -- both do the same to the caches
  have htarget : layerTarget (m.onDevice device) i b' hidden pos layerPle =
      layerTarget m i b hidden pos layerPle := by
    rcases hattempts with hkeys | hattempts
    · exact (layerTarget_of_noMissing (m := m.onDevice device) ⟨(hkeys i hi).qkv, (hkeys i hi).up⟩
        hb' pos).trans (layerTarget_of_noMissing (hkeys i hi) hb pos).symm
    · rw [(hsame hattempts).1]
      rfl
  have hleft := layerOn_refines_target hW hU hdim hi (hattnRefs i hi) hb hscalar hhidden hple pos
  have hright := layerOn_refines_target (m := m.onDevice device) hW hU' hdim hi (hattnRefs i hi)
    hb' hscalar hhidden hple pos
  rw [htarget] at hright
  obtain ⟨hout, ⟨c, c', hst₂, hlive₂, hst₂'⟩, hlen⟩ :=
    hleft.span (layerTarget_sameLive m i b hidden pos layerPle) hright st₁ st₁'
      ⟨caches, caches', hready, hlive, hready'⟩
  rw [hrun, hrun']
  refine ⟨hout, ⟨⟨c, c', hst₂.mirrors, hlive₂, hst₂'.mirrors⟩, hattempts.imp_right fun h => ?_⟩,
    hlen⟩
  obtain ⟨-, hsame₁⟩ := hsame h
  exact fun n => (attempt_of_keeps (fun _ => layerOn_keeps m i _ _ _ _ b) st₁ n).trans
    ((hsame₁ n).trans
      (attempt_of_keeps (fun _ => layerOn_keeps (m.onDevice device) i _ _ _ _ b') st₁' n).symm)

omit [LinearOrder K] in
theorem gpuPassInputs_twins (hm : LoadedOn m) (tokenId : ℕ) :
    Refines (Twins m device ds) (fun p => p.1.length = m.inner.config.hiddenSize)
      (gpuPassInputs m tokenId) (gpuPassInputs (m.onDevice device) tokenId) := by
  obtain ⟨hW, hU, -, -⟩ := hm
  have hleft := gpuPassInputs_refines hW hU tokenId
  have hright := gpuPassInputs_refines (m := m.onDevice device) hW ⟨hU.weights, hU.qkv⟩ tokenId
  have hsame : Refines (SameLive (K := K) ds) (fun _ => True) (lift (passInputs m.inner tokenId))
      (lift (passInputs m.inner tokenId)) := .lift fun _ _ => trivial
  rintro st st' ⟨hcaches, hattempts⟩
  obtain ⟨hout, hcaches', hlen⟩ := hleft.span hsame hright st st' hcaches
  refine ⟨hout, ⟨hcaches', hattempts.imp_right fun h n => ?_⟩, hlen⟩
  have hst := attempt_of_keeps (fun _ => (attempts_kept m).gpuPassInputs tokenId) st n
  have hst' := attempt_of_keeps
    (fun _ => (attempts_kept (m.onDevice device)).gpuPassInputs tokenId) st' n
  exact hst.trans ((h n).trans hst'.symm)

theorem gpuPass_twins (hm : LoadedOn m) (tokenId pos nLayers : ℕ) :
    Refines (Twins m device ds) (fun hidden => hidden.length = m.inner.config.hiddenSize)
      (gpuPass m tokenId pos nLayers) (gpuPass (m.onDevice device) tokenId pos nLayers) := by
  unfold gpuPass
  refine (gpuPassInputs_twins hm tokenId).bind fun p hhidden =>
    .foldlM (fun hidden i hi hhidden => ?_) hhidden
  refine .bind (.lift fun layerPle h => length_layerPle h) ?_
  intro layerPle hple
  exact layer_twins hm ((List.mem_range.1 hi).trans_le (Nat.min_le_right _ _)) hhidden hple pos

omit [LinearOrder K] in
theorem lmHeadOn_twins (hm : LoadedOn m) (hengine : m.engine = true)
    (hhidden : hidden.length = m.inner.config.hiddenSize) :
    Refines (Twins m device ds) (fun _ => True) (lmHeadOn m hidden)
      (lmHeadOn (m.onDevice device) hidden) := by
  obtain ⟨hW, hU, -, -⟩ := hm
  have hleft := lmHeadOn_refines hW hU hhidden
  have hright := lmHeadOn_refines (m := m.onDevice device) hW ⟨hU.weights, hU.qkv⟩ hhidden
  have hsame : Refines (SameLive (K := K) ds) (fun _ => True) (lift (lmHead m.inner hidden))
      (lift (lmHead m.inner hidden)) := .lift fun _ _ => trivial
  rintro st st' ⟨⟨caches, caches', hst, hlive, hst'⟩, hattempts⟩
  obtain ⟨hout, hcaches', -⟩ :=
    hleft.span hsame hright st st' ⟨caches, caches', hst, hlive, hst'⟩
  refine ⟨hout, ⟨hcaches', hattempts.imp_right fun h => ?_⟩, fun _ _ => trivial⟩
  have hsame : st.attempt = st'.attempt := funext h
  have hattempt := lmHeadOn_attempt hengine hst hidden
  have hattempt' := lmHeadOn_attempt (m := m.onDevice device) hengine hst' hidden
  rw [← hsame] at hattempt'
  exact fun n => congrFun (hattempt.trans hattempt'.symm) n

omit [Elementary K] [LinearOrder K] in
theorem zoom_twins {α : Type} {P : α → Prop} {x : Panics (Caches K) α}
    (hx : Refines (SameLive ds) P x x) : Refines (Twins m device ds) P
      (zoom GpuState.kvCaches (fun st caches => { st with kvCaches := caches }) x)
      (zoom GpuState.kvCaches (fun st caches => { st with kvCaches := caches }) x) := by
  rintro st st' ⟨⟨caches, caches', hst, hlive, hst'⟩, hattempts⟩
  obtain rfl := hst.1
  obtain rfl := hst'.1
  obtain ⟨hout, hlive', hP⟩ := hx _ _ hlive
  exact ⟨hout, ⟨⟨_, _, ⟨rfl, hst.2⟩, hlive', ⟨rfl, hst'.2⟩⟩, hattempts⟩, hP⟩

/-- **Twins give a token** the same logits, and stay twins. -/
theorem forward_twins (hm : m.engine = true → LoadedOn m) (tokenId pos : ℕ) :
    Refines (Twins m device ds) (fun _ => True) (m.forward tokenId pos)
      ((m.onDevice device).forward tokenId pos) := by
  unfold VulkanModel.forward
  cases hengine : m.engine with
  | true =>
    have hengine' : (m.onDevice device).engine = true := hengine
    rw [hengine', if_pos rfl, if_pos rfl, forwardGpu_eq_pass, forwardGpu_eq_pass]
    exact (gpuPass_twins (hm hengine) tokenId pos _).bind fun _ hhidden =>
      lmHeadOn_twins (hm hengine) hengine hhidden
  | false =>
    have hengine' : (m.onDevice device).engine = false := hengine
    rw [hengine', if_neg Bool.false_ne_true, if_neg Bool.false_ne_true]
    exact zoom_twins (forward_sameLive m.inner tokenId pos)

/-! ### Calls -/

/-- The calls of the model, the one for debugging among them. -/
inductive DebugCall (K : Type) : Type → Type where
  | resetKvCache : DebugCall K Unit
  | forward (tokenId position : ℕ) : DebugCall K (List K)
  | forwardAndSample (tokenId position : ℕ) (temperature topP : K) (topK : ℤ)
    (uniformRandom : K) : DebugCall K ℕ
  /-- `forward_n_layers`, which runs on the CPU. -/
  | forwardNLayers (tokenId position nLayers : ℕ) : DebugCall K (List K)

/-- What a call does. -/
def VulkanModel.exec (m : VulkanModel K) (sort : UnstableSort K) {β : Type} :
    DebugCall K β → Panics (GpuState K) β
  | .resetKvCache => VulkanModel.resetKvCache
  | .forward tokenId position => m.forward tokenId position
  | .forwardAndSample tokenId position temperature topP topK uniformRandom =>
    m.forwardAndSample sort tokenId position temperature topP topK uniformRandom
  | .forwardNLayers tokenId position nLayers =>
    zoom GpuState.kvCaches (fun st caches => { st with kvCaches := caches })
      (Gemma4.forwardNLayers m.inner tokenId position nLayers)

/-- One call, and what it returns; `none` for a panic. -/
def VulkanModel.callStep (m : VulkanModel K) (sort : UnstableSort K) (st : GpuState K)
    (c : Σ β, DebugCall K β) : GpuState K × Σ β, Option β :=
  let (value, st) := m.exec sort c.2 st
  (st, ⟨c.1, value⟩)

/-- **Twins make a call** with the same outcome, and stay twins. -/
theorem exec_twins (hm : m.engine = true → LoadedOn m) (sort : UnstableSort K) {β : Type}
    (c : DebugCall K β) : Refines (Twins m device ds) (fun _ => True) (m.exec sort c)
      ((m.onDevice device).exec sort c) := by
  cases c with
  | resetKvCache =>
    rintro st st' ⟨⟨caches, caches', hst, hlive, hst'⟩, hattempts⟩
    obtain rfl := hst.1
    obtain rfl := hst'.1
    have hreset := resetKvCache_sameLive hlive.left hlive.right
    exact ⟨rfl, ⟨⟨_, _, ⟨rfl, hst.2⟩, hreset, ⟨rfl, hst'.2⟩⟩, hattempts⟩, fun _ _ => trivial⟩
  | forward tokenId position => exact forward_twins hm tokenId position
  | forwardAndSample tokenId position temperature topP topK uniformRandom =>
    exact (forward_twins hm tokenId position).bind fun _ _ => .lift fun _ _ => trivial
  | forwardNLayers tokenId position nLayers =>
    exact zoom_twins (forwardNLayers_sameLive m.inner tokenId position nLayers)

/-! ### Sequences of calls -/

/-- **Twins make a sequence of calls** with the same outcomes. -/
theorem callStep_twins (hm : m.engine = true → LoadedOn m) (sort : UnstableSort K)
    (h : Twins m device ds st st') (calls : List (Σ β, DebugCall K β)) :
    (transitions (m.callStep sort) st calls).map (·.output) =
      (transitions ((m.onDevice device).callStep sort) st' calls).map (·.output) := by
  induction calls generalizing st st' with
  | nil => rfl
  | cons c calls ih =>
    obtain ⟨hout, htwins, -⟩ := exec_twins hm sort c.2 st st' h
    rw [transitions_cons, transitions_cons, List.map_cons, List.map_cons]
    exact congrArg₂ List.cons (congrArg (Sigma.mk c.1) hout) (ih htwins)

theorem finalState_twins (hm : m.engine = true → LoadedOn m) (sort : UnstableSort K)
    (h : Twins m m.device ds st st) (calls : List (Σ β, DebugCall K β)) :
    Twins m m.device ds (finalState (m.callStep sort) st calls)
      (finalState (m.callStep sort) st calls) := by
  induction calls generalizing st with
  | nil => exact h
  | cons c calls ih => exact ih (exec_twins hm sort c.2 st st h).2.1

omit [LinearOrder K] [Elementary K] in
theorem resetKvCache_twins {maxSeqLen : ℕ} {allocs allocs' : ℕ → Bool}
    (h : Twins m m.device ((m.fresh maxSeqLen allocs).kvCaches.map KvCache.dims) st st)
    (hattempts : (∀ i < m.inner.config.numHiddenLayers, NoMissing m i) ∨
      SameAttempts st (m.fresh maxSeqLen allocs')) (device : Device K) :
    Twins m device ((m.fresh maxSeqLen allocs).kvCaches.map KvCache.dims)
      (VulkanModel.resetKvCache st).2 ((m.onDevice device).fresh maxSeqLen allocs') := by
  obtain ⟨⟨caches, caches', hst, hlive, hst'⟩, -⟩ := h
  obtain rfl := hst.1
  have hclean := (m.fresh_clean maxSeqLen allocs allocs).2
  refine ⟨⟨_, _, ⟨rfl, hst.2⟩, ?_, ⟨rfl, fun mem h => nomatch h⟩⟩, hattempts⟩
  have hfresh := SameLive.refl (m.fresh maxSeqLen allocs).kvCaches
  have hreset := resetKvCache_sameLive hlive.left hfresh
  rw [hclean] at hreset
  exact hreset

/-- **Reset leaves no trace.**  After any calls and a reset, every sequence of calls has the
outcomes it has on a model that was just loaded, on a device that may differ in all that devices
leave open.  If a layer misses a key, then the attempts to allocate the activation buffers have to
come out alike. -/
theorem reset_leaves_no_trace (m : VulkanModel K) (sort : UnstableSort K) (device : Device K)
    (maxSeqLen : ℕ) (allocs allocs' : ℕ → Bool) {st₀ st₀' : GpuState K}
    (hm : m.engine = true → WellShaped m.inner ∧ Uploaded m ∧
      m.inner.config.headDim ≤ m.inner.config.globalHeadDim)
    (hnew : m.new maxSeqLen allocs = some st₀)
    (hnew' : (m.onDevice device).new maxSeqLen allocs' = some st₀')
    (history later : List (Σ β, DebugCall K β))
    (hattempts : (∀ i < m.inner.config.numHiddenLayers, NoMissing m i) ∨
      SameAttempts (finalState (m.callStep sort) st₀ history) st₀') :
    (transitions (m.callStep sort)
        (VulkanModel.resetKvCache (finalState (m.callStep sort) st₀ history)).2 later).map
      (·.output) =
    (transitions ((m.onDevice device).callStep sort) st₀' later).map (·.output) := by
  obtain ⟨rfl, hattn⟩ := VulkanModel.of_new hnew
  obtain ⟨rfl, -⟩ := VulkanModel.of_new hnew'
  have hloaded : m.engine = true → LoadedOn m := by
    intro hengine
    obtain ⟨hW, hU, hdim⟩ := hm hengine
    exact ⟨hW, hU, hdim, hattn⟩
  have hstart : Twins m m.device ((m.fresh maxSeqLen allocs).kvCaches.map KvCache.dims)
      (m.fresh maxSeqLen allocs) (m.fresh maxSeqLen allocs) :=
    ⟨⟨_, _, ⟨rfl, fun mem h => nomatch h⟩, .refl _, ⟨rfl, fun mem h => nomatch h⟩⟩,
      .inr fun _ => rfl⟩
  exact callStep_twins hloaded sort
    (resetKvCache_twins (finalState_twins hloaded sort hstart history) hattempts device) later

attribute [local instance] elementaryTaylor

/-- A device whose buffers do not start with zeros. -/
def dirtyDevice : Device ℚ :=
  { (filledModel ℚ).device with fresh := fun _ n => n, freshTemp := fun n _ i => n + i }

/-- A token, three layers of a second one, a reset, and two tokens on six layers on the GPU. -/
theorem reset_leaves_no_trace_filledModel :
    (transitions ((filledModel ℚ).callStep stableSort)
      (VulkanModel.resetKvCache (finalState ((filledModel ℚ).callStep stableSort)
        ((filledModel ℚ).fresh 3 fun _ => true)
        [⟨_, .forward 2 0⟩, ⟨_, .forwardNLayers 1 1 3⟩])).2
      [⟨_, .forward 0 0⟩, ⟨_, .forwardAndSample 1 1 1 1 0 0⟩]).map (·.output) =
    (transitions (((filledModel ℚ).onDevice dirtyDevice).callStep stableSort)
      (((filledModel ℚ).onDevice dirtyDevice).fresh 3 fun n => n != 0)
      [⟨_, .forward 0 0⟩, ⟨_, .forwardAndSample 1 1 1 1 0 0⟩]).map (·.output) := by
  have hW := wellShaped_filledModel ℚ
  exact reset_leaves_no_trace (filledModel ℚ) stableSort dirtyDevice 3 (fun _ => true)
    (fun n => n != 0) (fun _ => ⟨hW, uploaded_filledModel ℚ, by decide⟩)
    ((VulkanModel.new_eq_some hW).2 ⟨rfl, fun _ _ => rfl⟩)
    ((VulkanModel.new_eq_some hW).2 ⟨rfl, fun _ _ => rfl⟩) _ _
    (.inl fun i _ => noMissing_filledModel ℚ i)

end Gemma4

end VllmVulkan
