import VllmVulkan.Gemma4.Allocate
import VllmVulkan.Gemma4.Bookkeeping
import VllmVulkan.Gemma4.Total

/-!
# Partial uploads

Every upload of a weight may fail by itself.  What is not resident is taken from the CPU copy, but
not everywhere: two of the lookups are not guarded by a test of their own key.

* `VulkanModel.new` : what is precomputed when the model is loaded;
* `SurvivesUpload` : the model is loaded, and every call panics only where the reference does;
* `KeysComplete` : the keys of the two unguarded lookups;
* `WellFormed` : a model whose sizes fit and whose tensors are loaded;
* `survivesUpload_iff` : **when a partial upload is survived**;
* `survivesUpload_harmless`, `partial_upload_panics` : uploads that are, and two that are not.
-/

namespace VllmVulkan

namespace Gemma4

open Panics Machine

variable {K : Type} [Field K] [LinearOrder K] [Elementary K]

omit [LinearOrder K] [Elementary K] in
/-- `VulkanModel::new`, from the weights that were loaded and uploaded on: the state of the model,
or `none` for a panic. -/
def VulkanModel.new (m : VulkanModel K) (maxSeqLen : ℕ) (allocs : ℕ → Bool) :
    Option (GpuState K) := do
  let layers := List.range m.inner.config.numHiddenLayers
  let _ ← layers.mapM (computeLayerCpuWeightRefs m.inner.config m.inner.weights)
  let _ ← layers.mapM (computeLayerGpuWeightRefs m.gpuWeights)
  let _ ← layers.mapM (computeLayerAttnGpuWeightRefs m.gpuWeights)
  pure (m.fresh maxSeqLen allocs)

/-- The model is loaded, and in every sequence of calls every call has the outcome it has with all
weights taken from their CPU copies, and leaves the same caches. -/
def SurvivesUpload (m : VulkanModel K) (maxSeqLen : ℕ) : Prop :=
  ∀ allocs, ∃ st, m.new maxSeqLen allocs = some st ∧ ∀ calls : List Call,
    List.Forall₂ SameCall (transitions (fun st c => (callGpu m c st).swap) st calls)
      (transitions (fun caches c => (call m.inner c caches).swap) st.kvCaches calls)

/-- The keys that the code indexes without a test of their own. -/
structure KeysComplete (gpuWeights : Weights K) (i : ℕ) : Prop where
  /-- Without the stacked QKV weight: the separate ones, next to `q_proj`. -/
  qkv : (computeLayerGpuCaps gpuWeights i).hasGpuWeights = true →
    (gpuWeights (.layer i .qkvProj)).isSome = false →
    (gpuWeights (.layer i .kProj)).isSome = true ∧ (gpuWeights (.layer i .vProj)).isSome = true
  /-- `up_proj`, next to `gate_proj` and `down_proj`. -/
  up : (computeLayerGpuCaps gpuWeights i).hasGpuWeights = true →
    (gpuWeights (.layer i .gateProj)).isSome = true →
    (gpuWeights (.layer i .downProj)).isSome = true →
    (gpuWeights (.layer i .upProj)).isSome = true

/-- A model whose sizes fit each other, with its tensors loaded and some of them uploaded; without
an engine nothing is uploaded. -/
structure WellFormed (m : VulkanModel K) : Prop where
  sizes : Sizes m.inner.config
  headDim : m.inner.config.headDim ≤ m.inner.config.globalHeadDim
  vocabSize : 0 < m.inner.config.vocabSize
  wellShaped : WellShaped m.inner
  uploaded : Uploaded m
  engine : m.engine = false → ∀ name, m.gpuWeights name = none

variable {m : VulkanModel K} {i maxSeqLen : ℕ} {allocs : ℕ → Bool} {st st' : GpuState K}

/-! ### Loading -/

omit [Field K] [LinearOrder K] [Elementary K] in
theorem mapM_isSome {α β : Type} {f : α → Option β} {xs : List α} :
    (xs.mapM f).isSome = true ↔ ∀ x ∈ xs, (f x).isSome = true := by
  simp only [Option.isSome_iff_exists]
  refine ⟨fun ⟨ys, hys⟩ x hx => ?_, mapM_returns⟩
  obtain ⟨j, hj, rfl⟩ := List.getElem_of_mem hx
  have hall := mapM_eq_some.1 hys
  exact ⟨_, hall.get hj (hall.length_eq ▸ hj)⟩

omit [LinearOrder K] [Elementary K] in
theorem VulkanModel.of_new (h : m.new maxSeqLen allocs = some st) :
    st = m.fresh maxSeqLen allocs ∧ ∀ i < m.inner.config.numHiddenLayers,
      (computeLayerAttnGpuWeightRefs m.gpuWeights i).isSome = true := by
  simp only [VulkanModel.new, Option.bind_eq_bind, Option.bind_eq_some_iff, Option.pure_def,
    Option.some.injEq] at h
  obtain ⟨-, -, -, -, refs, hrefs, rfl⟩ := h
  exact ⟨rfl, fun i hi => mapM_isSome.1 (by rw [hrefs]; rfl) i (List.mem_range.2 hi)⟩

omit [LinearOrder K] [Elementary K] in
theorem VulkanModel.new_eq_some (hW : WellShaped m.inner) :
    m.new maxSeqLen allocs = some st ↔ st = m.fresh maxSeqLen allocs ∧
      ∀ i < m.inner.config.numHiddenLayers,
        (computeLayerAttnGpuWeightRefs m.gpuWeights i).isSome = true := by
  have hcpu : ((List.range m.inner.config.numHiddenLayers).mapM
      (computeLayerCpuWeightRefs m.inner.config m.inner.weights)).isSome = true := by
    rw [mapM_isSome]
    intro i hi
    obtain ⟨scalar, hscalar⟩ := hW.layerScalar (List.mem_range.1 hi)
    rw [computeLayerCpuWeightRefs_eq (hW.isLayer (List.mem_range.1 hi)) hscalar]
    rfl
  have hgpu : ((List.range m.inner.config.numHiddenLayers).mapM
      (computeLayerGpuWeightRefs m.gpuWeights)).isSome = true :=
    mapM_isSome.2 fun i _ => computeLayerGpuWeightRefs_isSome m.gpuWeights i
  refine ⟨VulkanModel.of_new, fun ⟨hst, hattn⟩ => ?_⟩
  have hattn : ((List.range m.inner.config.numHiddenLayers).mapM
      (computeLayerAttnGpuWeightRefs m.gpuWeights)).isSome = true :=
    mapM_isSome.2 fun i hi => hattn i (List.mem_range.1 hi)
  obtain ⟨cpuRefs, hcpu⟩ := Option.isSome_iff_exists.1 hcpu
  obtain ⟨gpuRefs, hgpu⟩ := Option.isSome_iff_exists.1 hgpu
  obtain ⟨attnRefs, hattn⟩ := Option.isSome_iff_exists.1 hattn
  simp only [VulkanModel.new, hcpu, hgpu, hattn, hst, Option.bind_eq_bind, Option.bind_some,
    Option.pure_def]

/-! ### The activation buffers can be allocated -/

/-- Every attempt to allocate the activation buffers will succeed. -/
def AllocsSucceed (st : GpuState K) : Prop := st.Attempts fun _ allocs => ∀ n, allocs n = true

omit [LinearOrder K] [Elementary K] in
theorem initActBufs_keeps (m : VulkanModel K) : Keeps AllocsSucceed (initActBufs m) := by
  unfold initActBufs
  refine .get_bind ?_
  intro st hst
  have hnext : ∀ acts : Option (Mem Act K), AllocsSucceed
      { st with actBufs := acts, allocs := fun n => st.allocs (n + 1) } :=
    fun _ n => hst (n + 1)
  split
  · exact .pure
  split
  · split
    · exact .bind .lift fun mem => .bind (.set (hnext (some mem))) fun _ => .pure
    · exact .bind (.set (hnext st.actBufs)) fun _ => .pure
  · exact .pure

omit [LinearOrder K] [Elementary K] in
theorem initActBufs_true (hst : AllocsSucceed st) (hengine : m.engine = true) {b : Bool}
    (h : initActBufs m st = (some b, st')) : b = true := by
  obtain ⟨kvCaches, actBufs, allocs, products⟩ := st
  have hallocs : allocs 0 = true := hst 0
  unfold initActBufs at h
  rw [bind_some (show Panics.get _ = (some (GpuState.mk kvCaches actBufs allocs products), _)
    from rfl)] at h
  cases actBufs with
  | some mem => exact (pure_eq_some.1 h).1.symm
  | none =>
    simp only [Option.isSome_none, Bool.false_eq_true, if_false, hengine, if_true, hallocs] at h
    obtain ⟨mem, _, -, hrest⟩ := bind_eq_some.1 h
    obtain ⟨_, _, -, hpure⟩ := bind_eq_some.1 hrest
    exact (pure_eq_some.1 hpure).1.symm

theorem gpuPass_keeps (m : VulkanModel K) (tokenId pos n : ℕ) :
    Keeps AllocsSucceed (gpuPass m tokenId pos n) := by
  unfold gpuPass
  refine .bind ((attempts_kept m).gpuPassInputs tokenId) fun p => .foldlM fun hidden i =>
    .bind .lift fun layerPle => ?_
  unfold forwardLayerGpuMatmuls
  refine .bind .lift fun cpuW => .bind ?_ fun useGpu =>
    layerOn_keeps m i hidden pos layerPle cpuW useGpu
  split
  · exact initActBufs_keeps m
  · exact .pure

/-! ### Surviving -/

omit [Field K] [LinearOrder K] [Elementary K] in
theorem KvCache.new_fits [Field K] (cfg : Gemma4Config K) (maxSeqLen i : ℕ) :
    (KvCache.new maxSeqLen cfg.numKeyValueHeads (cfg.layerHeadDim i) : KvCache K).Fits cfg i :=
  ⟨rfl, by simp [KvCache.new, KvCache.stride, Nat.mul_assoc],
    by simp [KvCache.new, KvCache.stride, Nat.mul_assoc], Nat.zero_le _⟩

omit [LinearOrder K] [Elementary K] in
theorem VulkanModel.fresh_fits (m : VulkanModel K) (maxSeqLen : ℕ) (allocs : ℕ → Bool) :
    CachesFit m.inner.config (m.fresh maxSeqLen allocs).kvCaches ∧
      ∀ (i : ℕ) (c : KvCache K), (m.fresh maxSeqLen allocs).kvCaches[i]? = some c →
        c.seqLen = 0 ∧ c.maxSeqLen = maxSeqLen := by
  have hcache : ∀ (i : ℕ) (c : KvCache K), (m.fresh maxSeqLen allocs).kvCaches[i]? = some c →
      c = KvCache.new maxSeqLen m.inner.config.numKeyValueHeads
        (m.inner.config.layerHeadDim i) := by
    intro i c hc
    simp only [VulkanModel.fresh, List.getElem?_map, Option.map_eq_some_iff] at hc
    obtain ⟨j, hj, rfl⟩ := hc
    obtain ⟨hlt, rfl⟩ := List.getElem?_eq_some_iff.1 hj
    rw [List.getElem_range]
  refine ⟨⟨by simp [VulkanModel.fresh], fun i c hc => ?_⟩, fun i c hc => ?_⟩
  · rw [hcache i c hc]
    exact KvCache.new_fits _ _ _
  · rw [hcache i c hc]
    exact ⟨rfl, rfl⟩

omit [Field K] [LinearOrder K] [Elementary K] in
theorem KeysComplete.noMissing (h : KeysComplete m.gpuWeights i) : NoMissing m i :=
  ⟨fun _ => h.qkv, fun _ hcaps _ => h.up hcaps⟩

/-- The first token on the GPU, once the activation buffers can be allocated: a layer that it gets
through has found `up_proj`. -/
theorem upProj_of_forwardGpu (h : WellFormed m) {logits : List K} {tokenId pos : ℕ}
    {caches : Caches K} (hst : Mirrors m st caches) (hallocs : AllocsSucceed st)
    (hforward : forwardGpu m tokenId pos st = (some logits, st'))
    (hi : i < m.inner.config.numHiddenLayers)
    (hcaps : (computeLayerGpuCaps m.gpuWeights i).hasGpuWeights = true)
    (hgate : (m.gpuWeights (.layer i .gateProj)).isSome = true)
    (hdown : (m.gpuWeights (.layer i .downProj)).isSome = true) :
    (m.gpuWeights (.layer i .upProj)).isSome = true := by
  have hengine : m.engine = true := by
    by_contra hoff
    rw [h.engine (Bool.not_eq_true _ ▸ hoff)] at hgate
    cases hgate
  have hpass : m.forward tokenId pos st = (some logits, st') := by
    rw [VulkanModel.forward, if_pos hengine, hforward]
  -- the state in which the pass reaches the layer
  obtain ⟨hidden', st₂, hpass⟩ := VulkanModel.pass_of_forward hpass
  obtain ⟨hidden', st₂, hpass⟩ := VulkanModel.pass_prefix hi (Nat.le_refl _) hpass
  rw [VulkanModel.pass, if_pos hengine] at hpass
  obtain ⟨hidden, st₁, layerPle, hprev, hlayer⟩ := gpuPass_succ hi hpass
  obtain ⟨caches₁, -, hst₁, hhidden⟩ :=
    gpuPass_follows h.wellShaped h.uploaded tokenId pos i st caches hidden st₁ hst hprev
  have hallocs₁ : AllocsSucceed st₁ := by
    have hkeeps := gpuPass_keeps m tokenId pos i st hallocs
    rwa [hprev] at hkeeps
  obtain ⟨scalar, hscalar⟩ := h.wellShaped.layerScalar hi
  rw [forwardLayerGpuMatmuls_eq (h.wellShaped.isLayer hi) hscalar] at hlayer
  obtain ⟨useGpu, st₃, huse, hlayerOn⟩ := bind_eq_some.1 hlayer
  rw [hengine, hcaps, Bool.and_true, if_pos rfl] at huse
  obtain ⟨b, st₄, hinit, hready⟩ := initActBufs_spec hst₁
  rw [huse] at hinit
  cases hinit
  obtain rfl := initActBufs_true hallocs₁ hengine huse
  obtain ⟨hkeys, -⟩ := layerOn_needs hcaps hready hhidden hlayerOn
  cases hup : (m.gpuWeights (.layer i .upProj)).isSome with
  | true => rfl
  | false =>
    have hfused : (computeLayerGpuCaps m.gpuWeights i).hasFusedPostAttnWeights = false := by
      simp [computeLayerGpuCaps, hup]
    exact hup.symm.trans (hkeys.up hengine hcaps hfused hgate hdown)

/-- **When a partial upload is survived**: exactly when `k_proj` and `v_proj` are resident next to
`q_proj` without the stacked weight, and `up_proj` next to `gate_proj` and `down_proj`, in every
layer that uses the GPU. -/
theorem survivesUpload_iff (h : WellFormed m) (hmax : 0 < maxSeqLen) :
    SurvivesUpload m maxSeqLen ↔
      ∀ i < m.inner.config.numHiddenLayers, KeysComplete m.gpuWeights i := by
  constructor
  · intro hsurvives i hi
    obtain ⟨st, hnew, hcalls⟩ := hsurvives fun _ => true
    obtain ⟨rfl, hattn⟩ := (VulkanModel.new_eq_some h.wellShaped).1 hnew
    refine ⟨(computeLayerAttnGpuWeightRefs_isSome _ i).1 (hattn i hi), fun hcaps hgate hdown => ?_⟩
    -- the reference returns the logits of the first token, so the GPU does
    obtain ⟨hfit, hempty⟩ := m.fresh_fits maxSeqLen fun _ => true
    obtain ⟨logits, caches', hcpu⟩ := forward_returns 0 h.wellShaped h.sizes h.vocabSize hfit
      fun i _ c hc => by
        obtain ⟨hzero, hlen⟩ := hempty i c hc
        omega
    have hcall := hcalls [.forward 0 0]
    rw [transitions_cons, transitions_cons] at hcall
    obtain ⟨hout, -⟩ := (List.forall₂_cons.1 hcall).1
    have hcpuCall : (call m.inner (.forward 0 0) (m.fresh maxSeqLen fun _ => true).kvCaches).1 =
        some (some logits) := by
      rw [call, Panics.map_eq_some.2 ⟨logits, hcpu, rfl⟩]
    rw [Prod.snd_swap, Prod.snd_swap, hcpuCall] at hout
    obtain ⟨logits', hgpu, -⟩ := Panics.map_eq_some.1 (Prod.ext hout rfl)
    have hmirrors : Mirrors m (m.fresh maxSeqLen fun _ => true)
        (m.fresh maxSeqLen fun _ => true).kvCaches := ⟨rfl, fun mem h => nomatch h⟩
    exact upProj_of_forwardGpu h hmirrors (fun _ => rfl) hgpu hi hcaps hgate hdown
  · intro hkeys allocs
    refine ⟨_, (VulkanModel.new_eq_some h.wellShaped).2 ⟨rfl, fun i hi =>
      (computeLayerAttnGpuWeightRefs_isSome _ i).2 (hkeys i hi).qkv⟩, fun calls => ?_⟩
    exact forwardGpu_run_eq h.wellShaped h.uploaded h.headDim (fun i hi => (hkeys i hi).noMissing)
      _ allocs 0 calls

theorem not_survivesUpload (hW : WellShaped m.inner) {c : Call} (allocs : ℕ → Bool)
    (hcpu : (call m.inner c (m.fresh maxSeqLen allocs).kvCaches).1.isSome = true)
    (hgpu : (callGpu m c (m.fresh maxSeqLen allocs)).1.isSome = false) :
    ¬ SurvivesUpload m maxSeqLen := by
  intro h
  obtain ⟨st, hnew, hcalls⟩ := h allocs
  obtain ⟨rfl, -⟩ := (VulkanModel.new_eq_some hW).1 hnew
  have hcall := hcalls [c]
  rw [transitions_cons, transitions_cons] at hcall
  obtain ⟨hout, -⟩ := (List.forall₂_cons.1 hcall).1
  have hsame : (callGpu m c (m.fresh maxSeqLen allocs)).1 =
      (call m.inner c (m.fresh maxSeqLen allocs).kvCaches).1 := hout
  rw [hsame, hcpu] at hgpu
  cases hgpu

/-! ### Uploads of zeros -/

/-- The model when only some of its uploads succeeded. -/
def VulkanModel.onlyResident (m : VulkanModel K) (resident : WeightName → Bool) :
    VulkanModel K :=
  { m with gpuWeights := fun name => if resident name then m.gpuWeights name else none }

attribute [local instance] elementaryAtZero

theorem isSome_onlyResident (cfg : Gemma4Config ℚ) (resident : WeightName → Bool)
    (name : WeightName) :
    (((zeroResident cfg).onlyResident resident).gpuWeights name).isSome = resident name := by
  unfold VulkanModel.onlyResident zeroResident
  dsimp only
  cases resident name <;> rfl

theorem wellFormed_sixLayers (resident : WeightName → Bool) :
    WellFormed ((zeroResident sixLayers).onlyResident resident) where
  sizes := by
    change Sizes sixLayers
    exact ⟨by decide, by decide, by decide, by decide, by decide, by decide⟩
  headDim := Nat.le_refl 1
  vocabSize := Nat.one_pos
  wellShaped := wellShaped_zeroWeights sixLayers Nat.one_pos
  uploaded := by
    obtain ⟨hweights, hqkv⟩ := uploaded_zeroResident sixLayers
    refine ⟨fun name b hname hb => ?_, fun i b hb => ?_⟩ <;>
      simp only [VulkanModel.onlyResident, Option.ite_none_right_eq_some] at hb
    · exact hweights name b hname hb.2
    · exact hqkv i b hb.2
  engine h := nomatch h

/-- Uploads that fail without harm: the stacked QKV weight of layer 0, `gate_proj` and `up_proj` of
layer 1, `q_proj` and `k_proj` of layer 2. -/
def harmless : List WeightName :=
  [.layer 0 .qkvProj, .layer 1 .gateProj, .layer 1 .upProj, .layer 2 .qProj, .layer 2 .kProj]

theorem survivesUpload_harmless :
    SurvivesUpload ((zeroResident sixLayers).onlyResident (· ∉ harmless)) 2 := by
  refine (survivesUpload_iff (wellFormed_sixLayers (· ∉ harmless)) Nat.two_pos).2 ?_
  intro i hi
  have hqkv : ∀ i < 6, decide (WeightName.layer i .qkvProj ∉ harmless) = false →
      decide (WeightName.layer i .kProj ∉ harmless) = true ∧
        decide (WeightName.layer i .vProj ∉ harmless) = true := by decide
  have hup : ∀ i < 6, decide (WeightName.layer i .gateProj ∉ harmless) = true →
      decide (WeightName.layer i .upProj ∉ harmless) = true := by decide
  refine ⟨fun _ h => ?_, fun _ h _ => ?_⟩ <;> simp only [isSome_onlyResident] at h ⊢
  · exact hqkv i hi h
  · exact hup i hi h

/-- Without `k_proj` and the stacked QKV weight of layer 0 the model is not loaded.  Without its
`up_proj` the model is loaded, and the first token panics, which the reference returns. -/
theorem partial_upload_panics :
    (∀ resident, WellFormed ((zeroResident sixLayers).onlyResident resident)) ∧
    (¬ SurvivesUpload ((zeroResident sixLayers).onlyResident
      (· ∉ [.layer 0 .kProj, .layer 0 .qkvProj])) 2) ∧
    ¬ SurvivesUpload ((zeroResident sixLayers).onlyResident (· ≠ .layer 0 .upProj)) 2 := by
  refine ⟨wellFormed_sixLayers, fun h => ?_, ?_⟩
  · obtain ⟨st, hnew, -⟩ := h fun _ => true
    have hpanic : (((zeroResident sixLayers).onlyResident
        (· ∉ [.layer 0 .kProj, .layer 0 .qkvProj])).new 2 fun _ => true).isSome = false := by
      decide +kernel
    rw [hnew] at hpanic
    cases hpanic
  · refine not_survivesUpload (c := .forward 0 0)
      (wellFormed_sixLayers (· ≠ .layer 0 .upProj)).wellShaped (fun _ => true) ?_ ?_
    · decide +kernel
    · decide +kernel

end Gemma4

end VllmVulkan
