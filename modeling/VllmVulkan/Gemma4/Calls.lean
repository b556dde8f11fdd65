import VllmVulkan.Gemma4.Forward
import VllmVulkan.Gemma4.Sampling
import VllmVulkan.Lib.Sessions

/-!
# The calls of the model

Every call of `VulkanModel` is one step on its state.

* `VulkanModel.fresh`, `ModelCall`, `object` : the model that was just loaded, and its calls;
* `SameModel`, `CleanModel` : states that no call tells apart, and states without tokens;
* `VulkanModel.forward_sameModel` : `forward` depends on the live part of the caches only;
* `object_resets` : **after `reset_kv_cache` the model is as good as new**.
-/

namespace VllmVulkan

namespace Gemma4

open Panics Sessions

variable {K : Type} [Field K] [LinearOrder K] [Elementary K]

namespace VulkanModel

omit [LinearOrder K] [Elementary K] in
/-- The state of a model that was just loaded. -/
def fresh (m : VulkanModel K) (maxSeqLen : ℕ) (allocs : ℕ → Bool) : GpuState K where
  kvCaches := (List.range m.inner.config.numHiddenLayers).map fun i =>
    KvCache.new maxSeqLen m.inner.config.numKeyValueHeads (m.inner.config.layerHeadDim i)
  actBufs := none
  allocs := allocs
  products := 0

/-- `VulkanModel::forward`. -/
def forward (m : VulkanModel K) (tokenId position : ℕ) : Panics (GpuState K) (List K) :=
  if m.engine then forwardGpu m tokenId position
  else zoom GpuState.kvCaches (fun st caches => { st with kvCaches := caches })
    (Gemma4.forward m.inner tokenId position)

/-- `VulkanModel::forward_and_sample`. -/
def forwardAndSample (m : VulkanModel K) (sort : UnstableSort K) (tokenId position : ℕ)
    (temperature topP : K) (topK : ℤ) (uniformRandom : K) : Panics (GpuState K) ℕ := do
  let logits ← m.forward tokenId position
  lift (sampleWithTemperature sort logits temperature topP topK uniformRandom)

/-- `VulkanModel::reset_kv_cache`. -/
def resetKvCache : Panics (GpuState K) Unit := fun st =>
  (some (), { st with kvCaches := Gemma4.resetKvCache st.kvCaches })

end VulkanModel

/-- The calls, with the type of what they return. -/
inductive ModelCall (K : Type) : Type → Type where
  | resetKvCache : ModelCall K Unit
  | forward (tokenId position : ℕ) : ModelCall K (List K)
  | forwardAndSample (tokenId position : ℕ) (temperature topP : K) (topK : ℤ)
    (uniformRandom : K) : ModelCall K ℕ

/-- The model as an object that is called. -/
def object (m : VulkanModel K) (sort : UnstableSort K) : Object (GpuState K) (ModelCall K) where
  exec
    | .resetKvCache => VulkanModel.resetKvCache
    | .forward tokenId position => m.forward tokenId position
    | .forwardAndSample tokenId position temperature topP topK uniformRandom =>
      m.forwardAndSample sort tokenId position temperature topP topK uniformRandom
  isReset
    | .resetKvCache => true
    | _ => false

/-- The model has its weights, on the device too, where no key that a branch indexes is missing. -/
structure Loaded (m : VulkanModel K) : Prop where
  wellShaped : WellShaped m.inner
  uploaded : Uploaded m
  headDim : m.inner.config.headDim ≤ m.inner.config.globalHeadDim
  keys : ∀ i < m.inner.config.numHiddenLayers, NoMissing m i

/-- States of a model whose caches agree in their live parts. -/
def SameModel (m : VulkanModel K) (ds : List KvDims) (st st' : GpuState K) : Prop :=
  Mirrors m st st.kvCaches ∧ Mirrors m st' st'.kvCaches ∧ SameLive ds st.kvCaches st'.kvCaches

/-- A state whose caches hold no tokens. -/
def CleanModel (m : VulkanModel K) (ds : List KvDims) (st : GpuState K) : Prop :=
  SameModel m ds st st ∧ resetKvCache st.kvCaches = st.kvCaches

variable {m : VulkanModel K} {ds : List KvDims}

theorem VulkanModel.forward_sameModel (hm : m.engine = true → Loaded m) (tokenId position : ℕ) :
    Refines (SameModel m ds) (fun _ => True) (m.forward tokenId position)
      (m.forward tokenId position) := by
  rintro st st' ⟨hst, hst', hlive⟩
  obtain ⟨hout, hlive', -⟩ := forward_sameLive m.inner tokenId position _ _ hlive
  unfold VulkanModel.forward
  cases hengine : m.engine with
  | false =>
    exact ⟨hout, ⟨⟨rfl, hst.2⟩, ⟨rfl, hst'.2⟩, hlive'⟩, fun _ _ => trivial⟩
  | true =>
    obtain ⟨hW, hU, hdim, hkeys⟩ := hm hengine
    have hgpu := forwardGpu_refines hW hU hdim hkeys tokenId position
    obtain ⟨hout₁, hpost₁, -⟩ := hgpu st st.kvCaches hst
    obtain ⟨hout₂, hpost₂, -⟩ := hgpu st' st'.kvCaches hst'
    have hcaches : (forwardGpu m tokenId position st).2.kvCaches = _ := hpost₁.1
    have hcaches' : (forwardGpu m tokenId position st').2.kvCaches = _ := hpost₂.1
    refine ⟨hout₁.trans (hout.trans hout₂.symm), ⟨⟨rfl, hpost₁.2⟩, ⟨rfl, hpost₂.2⟩, ?_⟩,
      fun _ _ => trivial⟩
    rw [if_pos rfl, hcaches, hcaches']
    exact hlive'

omit [LinearOrder K] [Elementary K] in
theorem VulkanModel.resetKvCache_clean {st : GpuState K} (h : SameModel m ds st st) :
    CleanModel m ds (VulkanModel.resetKvCache st).2 := by
  refine ⟨⟨⟨rfl, h.1.2⟩, ⟨rfl, h.1.2⟩, resetKvCache_sameLive h.2.2 h.2.2⟩, ?_⟩
  simp [VulkanModel.resetKvCache, Gemma4.resetKvCache]

omit [LinearOrder K] [Elementary K] in
theorem VulkanModel.fresh_clean (m : VulkanModel K) (maxSeqLen : ℕ) (allocs allocs' : ℕ → Bool) :
    CleanModel m ((m.fresh maxSeqLen allocs).kvCaches.map KvCache.dims)
      (m.fresh maxSeqLen allocs') := by
  have hmirrors : Mirrors m (m.fresh maxSeqLen allocs') (m.fresh maxSeqLen allocs').kvCaches :=
    ⟨rfl, fun mem h => nomatch h⟩
  refine ⟨⟨hmirrors, hmirrors, .refl _⟩, ?_⟩
  simp [VulkanModel.fresh, Gemma4.resetKvCache, KvCache.new]

/-- **After `reset_kv_cache` the model is as good as new.** -/
theorem object_resets (hm : m.engine = true → Loaded m) (sort : UnstableSort K) :
    (object m sort).Resets (SameModel m ds) (CleanModel m ds) where
  left h := ⟨h.1, h.1, h.2.2.left⟩
  right h := ⟨h.2.1, h.2.1, h.2.2.right⟩
  clean {s t} hs ht := by
    refine ⟨hs.1.1, ht.1.1, ?_⟩
    rw [← hs.2, ← ht.2]
    exact resetKvCache_sameLive hs.1.2.2 ht.1.2.2
  call c := by
    cases c with
    | resetKvCache =>
      rintro st st' ⟨hst, hst', hlive⟩
      exact ⟨rfl, ⟨⟨rfl, hst.2⟩, ⟨rfl, hst'.2⟩, resetKvCache_sameLive hlive.left hlive.right⟩,
        fun _ _ => trivial⟩
    | forward tokenId position => exact VulkanModel.forward_sameModel hm tokenId position
    | forwardAndSample tokenId position temperature topP topK uniformRandom =>
      exact (VulkanModel.forward_sameModel hm tokenId position).bind fun _ _ =>
        .lift fun _ _ => trivial
  reset {β c s t} hreset hs ht := by
    cases c with
    | resetKvCache =>
      exact ⟨rfl, VulkanModel.resetKvCache_clean hs, VulkanModel.resetKvCache_clean ht⟩
    | forward tokenId position => cases hreset
    | forwardAndSample tokenId position temperature topP topK uniformRandom => cases hreset

end Gemma4

end VllmVulkan
