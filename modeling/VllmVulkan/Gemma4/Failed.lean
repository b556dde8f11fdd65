import VllmVulkan.Gemma4.Faults
import VllmVulkan.Gemma4.Allocate
import VllmVulkan.Gemma4.Bookkeeping
import VllmVulkan.Gemma4.Reset

/-!
# What a failed call leaves behind

* `AtLayer` : the caches in the middle of a call, when its first layers have appended their token;
* `execWithFaults_ends` : **a call that returns has appended one token in every layer, one that
  panics in the first layers**;
* `Early` : the failures before anything is appended;
* `early_ends` : **they leave the caches as they were**;
* `CachesInv` : the caches of a state that was reached;
* `failed_forward` : **the failed calls of any sequence of calls**;
* `half_appended` : a failure behind the attention.
-/

namespace VllmVulkan

namespace Gemma4

open Panics Machine Sessions

variable {K : Type} [Field K] [LinearOrder K] [Elementary K]

variable {m : VulkanModel K} {base : Caches K} {i pos : ℕ} {st : GpuState K}

/-! ### A call -/

/-- The first `i` layers of a call that began with the caches `base` have appended their token. -/
def AtLayer (m : VulkanModel K) (base : Caches K) (i : ℕ) (st : GpuState K) : Prop :=
  Mirrors m st st.kvCaches ∧ Extended m.inner.config i base st.kvCaches

omit [LinearOrder K] [Elementary K] in
theorem Mirrors.atLayer (h : Mirrors m st base) : AtLayer m base 0 st := by
  obtain ⟨rfl, hacts⟩ := h
  exact ⟨⟨rfl, hacts⟩, .refl _⟩

omit [LinearOrder K] [Elementary K] in
theorem atLayer_keeps {α : Type} {x : Panics (GpuState K) α}
    (h : ∀ caches, Keeps (Mirrors m · caches) x) : Keeps (AtLayer m base i) x := by
  rintro st ⟨hmirrors, hext⟩
  have hpost := h st.kvCaches st hmirrors
  refine ⟨⟨rfl, hpost.2⟩, ?_⟩
  rwa [hpost.1]

/-- Where a call may panic. -/
def StoppedBy (m : VulkanModel K) (base : Caches K) (n : ℕ) (st : GpuState K) : Prop :=
  ∃ i ≤ n, AtLayer m base i st

omit [LinearOrder K] [Elementary K] in
theorem AtLayer.stopped {n : ℕ} (hi : i ≤ n) (h : AtLayer m base i st) :
    StoppedBy m base n st := ⟨i, hi, h⟩

omit [LinearOrder K] [Elementary K] in
theorem atLayer_lift {α : Type} {o : Option α} {n : ℕ} (hi : i ≤ n) :
    Ends (AtLayer m base i) (lift o) (fun _ => AtLayer m base i) (StoppedBy m base n) :=
  .lift (fun _ _ _ h => h) fun _ _ h => h.stopped hi

/-- **One layer.** -/
theorem forwardLayerWithFaults_ends (faults : Faults K) (hidden : List K) (pos : ℕ)
    (layerPle : List K) {n : ℕ} (hi : i < n) :
    Ends (AtLayer m base i) (forwardLayerWithFaults m faults i hidden pos layerPle)
      (fun _ => AtLayer m base (i + 1)) (StoppedBy m base n) := by
  have hkeeps : ∀ {α : Type} {x : Panics (GpuState K) α} {j : ℕ}, j ≤ n →
      (∀ caches, Keeps (Mirrors m · caches) x) →
      Ends (AtLayer m base j) x (fun _ => AtLayer m base j) (StoppedBy m base n) :=
    fun hj h => (Ends.of_keeps (atLayer_keeps h)).mono (fun _ h => h) (fun _ _ h => h)
      fun _ h => h.stopped hj
  unfold forwardLayerWithFaults
  refine .bind (atLayer_lift hi.le) ?_
  intro cpuW
  refine .bind (B := fun _ => AtLayer m base i) ?_ fun useGpu => ?_
  · split
    · exact hkeeps hi.le fun _ => initActBufs_mirrors
    · exact .pure fun _ h => h
  refine .bind (B := fun _ => AtLayer m base i) ?_ fun qkv => ?_
  · split
    · exact hkeeps hi.le fun _ => attempt_mirrors (mirrors_kept.qkvGpu i hidden) _
    · exact atLayer_lift hi.le
  refine .bind (B := fun _ => AtLayer m base (i + 1)) ?_ fun attnOut => ?_
  · -- the attention is all that touches the caches
    refine .zoom (attention_ends m.inner.config i _ _ _ _ _ pos base) (fun _ h => h.2)
      (fun _ _ _ h ht => ⟨⟨rfl, h.1.2⟩, ht⟩) fun s t h ht => ?_
    rcases ht with ht | ht
    · exact AtLayer.stopped hi.le ⟨⟨rfl, h.1.2⟩, ht⟩
    · exact AtLayer.stopped (Nat.succ_le_of_lt hi) ⟨⟨rfl, h.1.2⟩, ht⟩
  · refine hkeeps (Nat.succ_le_of_lt hi) fun _ => attempt_mirrors ?_ _
    split
    · exact mirrors_kept.fusedPostAttention i _ _ _
    · exact mirrors_kept.branchPostAttention i _ _ _ _ _

theorem forwardGpuWithFaults_ends (faults : Faults K) (tokenId pos : ℕ) :
    Ends (AtLayer m base 0) (forwardGpuWithFaults m faults tokenId pos)
      (fun _ => AtLayer m base m.inner.config.numHiddenLayers)
      (StoppedBy m base m.inner.config.numHiddenLayers) := by
  have hzero := Nat.zero_le m.inner.config.numHiddenLayers
  unfold forwardGpuWithFaults
  refine .bind (atLayer_lift hzero) fun hidden => .bind (atLayer_lift hzero) fun ple => ?_
  refine .bind (B := fun _ => AtLayer m base 0) ?_ fun pleProj => ?_
  · refine (Ends.of_keeps (atLayer_keeps fun caches => attempt_mirrors
      (mirrors_kept.gpuMatmulOrCpu _ _ _ _ _ _) _)).mono (fun _ h => h) (fun _ _ h => h)
      fun _ h => h.stopped hzero
  refine .bind (atLayer_lift hzero) ?_
  intro pleInputs
  refine .bind (B := fun _ => AtLayer m base m.inner.config.numHiddenLayers) ?_ fun hidden => ?_
  · refine .foldlM ?_
    intro i hi hidden
    exact .bind (atLayer_lift hi.le) fun layerPle =>
      forwardLayerWithFaults_ends faults hidden pos layerPle hi
  · have hhead : ∀ {x : Panics (GpuState K) (List K)}, (∀ caches, Keeps (Mirrors m · caches) x) →
        Ends (AtLayer m base m.inner.config.numHiddenLayers) x
          (fun _ => AtLayer m base m.inner.config.numHiddenLayers)
          (StoppedBy m base m.inner.config.numHiddenLayers) :=
      fun h => (Ends.of_keeps (atLayer_keeps h)).mono (fun _ h => h) (fun _ _ h => h)
        fun _ h => h.stopped (Nat.le_refl _)
    split
    · refine hhead fun caches => .bind initActBufs_mirrors fun useGpu => ?_
      split
      · exact attempt_mirrors (mirrors_kept.lmHeadGpu _ _ _) _
      · exact .lift
    · exact hhead fun caches => .lift

theorem forward_ends (m : Gemma4Model K) (tokenId pos : ℕ) (base : Caches K) :
    Ends (Extended m.config 0 base) (Gemma4.forward m tokenId pos)
      (fun _ => Extended m.config m.config.numHiddenLayers base)
      (fun caches => ∃ i ≤ m.config.numHiddenLayers, Extended m.config i base caches) := by
  have hlift : ∀ {α : Type} {o : Option α} {i n : ℕ}, i ≤ n →
      Ends (Extended m.config i base) (lift o) (fun _ => Extended m.config i base)
        (fun caches => ∃ i ≤ n, Extended m.config i base caches) :=
    fun hi => .lift (fun _ _ _ h => h) fun _ _ h => ⟨_, hi, h⟩
  have hlayer : ∀ i < m.config.numHiddenLayers, ∀ hidden layerPle,
      Ends (Extended m.config i base) (forwardLayer m i hidden pos layerPle)
        (fun _ => Extended m.config (i + 1) base)
        (fun caches => ∃ i ≤ m.config.numHiddenLayers, Extended m.config i base caches) := by
    intro i hi hidden layerPle
    unfold forwardLayer
    iterate 7 refine .bind (hlift hi.le) fun _ => ?_
    refine .bind ((attention_ends m.config i _ _ _ _ _ pos base).mono (fun _ h => h)
      (fun _ _ h => h) fun caches h => ?_) fun attnOut => ?_
    · rcases h with h | h
      · exact ⟨i, hi.le, h⟩
      · exact ⟨i + 1, hi, h⟩
    iterate 16 refine .bind (hlift (Nat.succ_le_of_lt hi)) fun _ => ?_
    exact .pure fun _ h => h
  have hzero := Nat.zero_le m.config.numHiddenLayers
  unfold Gemma4.forward
  iterate 4 refine .bind (hlift hzero) fun _ => ?_
  refine .bind (B := fun _ => Extended m.config m.config.numHiddenLayers base) ?_ fun hidden =>
    hlift (Nat.le_refl _)
  exact .foldlM fun i hi hidden => .bind (hlift hi.le) fun layerPle => hlayer i hi hidden layerPle

theorem forwardWithFaults_ends (m : VulkanModel K) (faults : Faults K) (tokenId pos : ℕ)
    (base : Caches K) :
    Ends (AtLayer m base 0) (m.forwardWithFaults faults tokenId pos)
      (fun _ => AtLayer m base m.inner.config.numHiddenLayers)
      (StoppedBy m base m.inner.config.numHiddenLayers) := by
  unfold VulkanModel.forwardWithFaults
  split
  · exact forwardGpuWithFaults_ends faults tokenId pos
  · refine .zoom (forward_ends m.inner tokenId pos base) (fun _ h => h.2)
      (fun _ _ _ h ht => ⟨⟨rfl, h.1.2⟩, ht⟩) ?_
    rintro s t h ⟨i, hi, ht⟩
    exact ⟨i, hi, ⟨rfl, h.1.2⟩, ht⟩

/-- **A call with a token** that returns has appended it in every layer, one that panics in the
first layers. -/
theorem execWithFaults_ends (m : VulkanModel K) (sort : UnstableSort K) (faults : Faults K)
    {β : Type} {c : ModelCall K β} {tokenId pos : ℕ} (htoken : c.token = some (tokenId, pos))
    (base : Caches K) :
    Ends (AtLayer m base 0) (m.execWithFaults sort faults c)
      (fun _ => AtLayer m base m.inner.config.numHiddenLayers)
      (StoppedBy m base m.inner.config.numHiddenLayers) := by
  cases c with
  | resetKvCache => cases htoken
  | forward t p => exact forwardWithFaults_ends m faults t p base
  | forwardAndSample t p temperature topP topK u =>
    exact (forwardWithFaults_ends m faults t p base).bind fun logits => atLayer_lift (Nat.le_refl _)

/-! ### Failures before anything is appended -/

/-- The call fails before the first layer has appended its token. -/
inductive Early (m : VulkanModel K) (faults : Faults K) (st : GpuState K) (tokenId : ℕ) : Prop where
  /-- The embeddings have no such token. -/
  | tokenId (h : embed m.inner tokenId = none ∨ pleEmbeds m.inner tokenId = none)
  /-- The cache of some layer is full. -/
  | overflow {i : ℕ} {c : KvCache K} (hi : i < m.inner.config.numHiddenLayers)
      (hown : m.inner.config.isKvShared i = false) (hc : st.kvCaches[i]? = some c)
      (hfull : c.maxSeqLen ≤ c.seqLen)
  /-- The device fails in the product before the layers. -/
  | pleProjection (hengine : m.engine = true)
      (hresident : (m.gpuWeights .perLayerModelProjection).isSome = true)
      (hfault : (faults .pleProjection).isSome = true)
  /-- The device fails in the projections of the first layer. -/
  | qkv (hengine : m.engine = true) (hlayers : 0 < m.inner.config.numHiddenLayers)
      (hcaps : (computeLayerGpuCaps m.gpuWeights 0).hasGpuWeights = true)
      (hready : st.attempt 0 = true) (hfault : (faults (.qkv 0)).isSome = true)

theorem attention_full {cfg : Gemma4Config K} {c : KvCache K} (hown : cfg.isKvShared i = false)
    (hc : base[i]? = some c) (hfull : c.maxSeqLen ≤ c.seqLen) (q k v qNorm : List K)
    (kNorm : Option (List K)) (pos : ℕ) :
    Ends (fun caches => caches = base) (attention cfg i q k v qNorm kNorm pos)
      (fun _ _ => False) (fun caches => caches = base) := by
  have hlift : ∀ {α : Type} {o : Option α}, Ends (fun caches => caches = base) (lift o)
      (fun _ caches => caches = base) (fun caches => caches = base) :=
    .lift (fun _ _ _ h => h) fun _ _ h => h
  unfold attention
  refine .bind hlift fun _ => .bind hlift fun _ => .bind hlift fun _ => ?_
  dsimp only
  rw [if_neg (by rw [hown]; exact Bool.false_ne_true)]
  refine .never_bind ?_
  rintro caches rfl
  refine .inr ⟨caches, ?_, rfl⟩
  obtain ⟨hi, rfl⟩ := List.getElem?_eq_some_iff.1 hc
  simp only [withCache, hc, KvCache.append_full _ _ hfull, List.set_getElem_self]

omit [Field K] [LinearOrder K] [Elementary K] in
theorem attempt_attempts {α : Type} {x : Panics (GpuState K) α} {A : Bool → (ℕ → Bool) → Prop}
    (h : Keeps (GpuState.Attempts A) x) (fault : Option (Fault K)) :
    Keeps (GpuState.Attempts A) (attempt fault x) := by
  cases fault with
  | none => exact h
  | some f =>
    intro st hst
    simpa only [GpuState.Attempts, attempt, Option.isSome_map] using hst

omit [LinearOrder K] [Elementary K] in
theorem attempt_fails {α : Type} (x : Panics (GpuState K) α) (fault : Fault K) :
    Ends (Mirrors m · base) (attempt (some fault) x) (fun _ _ => False) (Mirrors m · base) :=
  fun s hs => .inr ⟨_, rfl, attempt_mirrors (x := (panic : Panics (GpuState K) α))
    (fun _ h => h) (some fault) s hs⟩

theorem forwardGpuWithFaults_stopped {faults : Faults K} {tokenId pos : ℕ} {A : GpuState K → Prop}
    (hlayers : 0 < m.inner.config.numHiddenLayers) (hA : ∀ st, A st → Mirrors m st base)
    (hprojection : ∀ fault x t k n pc, Keeps A
      (attempt fault (gpuMatmulOrCpu m .perLayerModelProjection x t k n pc)))
    (hlayer : ∀ hidden layerPle, Ends A (forwardLayerWithFaults m faults 0 hidden pos layerPle)
      (fun _ _ => False) (Mirrors m · base)) :
    Ends A (forwardGpuWithFaults m faults tokenId pos) (fun _ _ => False) (Mirrors m · base) := by
  have hlift : ∀ {α : Type} {o : Option α}, Ends A (lift o) (fun _ => A) (Mirrors m · base) :=
    .lift (fun _ _ _ h => h) fun _ => hA
  unfold forwardGpuWithFaults
  refine .bind hlift fun hidden => .bind hlift fun ple => .bind (B := fun _ => A) ?_ fun proj => ?_
  · exact (Ends.of_keeps (hprojection _ _ _ _ _ _)).mono (fun _ h => h) (fun _ _ h => h) hA
  refine .bind hlift fun inputs => .never_bind (.foldlM_never hlayers ?_)
  exact .bind hlift fun layerPle => hlayer hidden layerPle

omit [LinearOrder K] [Elementary K] in
/-- With the attempts that are left, the first layer has its activation buffers. -/
theorem initActBufs_ready (hengine : m.engine = true) :
    Ends (fun st => Mirrors m st base ∧ st.attempt 0 = true) (initActBufs m)
      (fun b st => b = true ∧ Mirrors m st base) (Mirrors m · base) := by
  rintro st ⟨hst, hready⟩
  obtain ⟨b, st', hinit, hready'⟩ := initActBufs_spec hst
  exact .inl ⟨b, st', hinit, (initActBufs_attempt hengine hinit).1.trans hready, hready'.mirrors⟩

theorem forward_cpu (hst : Mirrors m st st.kvCaches) {tokenId pos : ℕ}
    (h : Ends (fun caches => caches = st.kvCaches) (Gemma4.forward m.inner tokenId pos)
      (fun _ _ => False) (fun caches => caches = st.kvCaches)) :
    Ends (fun s => s = st) (zoom GpuState.kvCaches
      (fun st caches => { st with kvCaches := caches }) (Gemma4.forward m.inner tokenId pos))
      (fun _ _ => False) (Mirrors m · st.kvCaches) := by
  refine h.zoom (fun s hs => by rw [hs]) (fun _ _ _ _ h => h.elim) ?_
  rintro s _ rfl rfl
  exact hst

theorem forward_unknown (hst : Mirrors m st st.kvCaches) {tokenId : ℕ}
    (h : embed m.inner tokenId = none ∨ pleEmbeds m.inner tokenId = none) (faults : Faults K) :
    Ends (fun s => s = st) (m.forwardWithFaults faults tokenId pos) (fun _ _ => False)
      (Mirrors m · st.kvCaches) := by
  unfold VulkanModel.forwardWithFaults
  split
  · have hnone : ∀ {o : Option (List K)}, o = none → Ends (fun s => s = st) (lift o)
        (fun _ _ => False) (Mirrors m · st.kvCaches) := by
      rintro _ rfl
      exact .lift (fun _ h => nomatch h) fun _ s hs => by rwa [hs]
    unfold forwardGpuWithFaults
    rcases h with h | h
    · exact (hnone h).never_bind
    · exact .bind (.lift (fun _ _ _ h => h) fun _ s hs => by rwa [hs]) fun _ =>
        (hnone h).never_bind
  · refine forward_cpu hst ?_
    have hnone : ∀ {o : Option (List K)}, o = none → Ends (fun caches => caches = st.kvCaches)
        (lift o) (fun _ _ => False) (fun caches => caches = st.kvCaches) := by
      rintro _ rfl
      exact .lift (fun _ h => nomatch h) fun _ _ h => h
    unfold Gemma4.forward
    rcases h with h | h
    · exact (hnone h).never_bind
    · exact .bind (.lift (fun _ _ _ h => h) fun _ _ h => h) fun _ => (hnone h).never_bind

theorem forward_full (hst : Mirrors m st st.kvCaches) (hlayers : 0 < m.inner.config.numHiddenLayers)
    (hown : m.inner.config.isKvShared 0 = false) {c : KvCache K} (hc : st.kvCaches[0]? = some c)
    (hfull : c.maxSeqLen ≤ c.seqLen) (faults : Faults K) (tokenId : ℕ) :
    Ends (fun s => s = st) (m.forwardWithFaults faults tokenId pos) (fun _ _ => False)
      (Mirrors m · st.kvCaches) := by
  have hattn := fun q k v qNorm kNorm => attention_full hown hc hfull q k v qNorm kNorm pos
  unfold VulkanModel.forwardWithFaults
  split
  · refine (forwardGpuWithFaults_stopped (A := (Mirrors m · st.kvCaches)) hlayers
      (fun _ h => h) (fun fault x t k n pc => attempt_mirrors
        (mirrors_kept.gpuMatmulOrCpu _ _ _ _ _ _) fault) fun hidden layerPle => ?_).mono
      (fun s hs => by rwa [hs]) (fun _ _ h => h) fun _ h => h
    have hkeeps : ∀ {α : Type} {x : Panics (GpuState K) α}, Keeps (Mirrors m · st.kvCaches) x →
        Ends (Mirrors m · st.kvCaches) x (fun _ => (Mirrors m · st.kvCaches))
          (Mirrors m · st.kvCaches) := Ends.of_keeps
    unfold forwardLayerWithFaults
    refine .bind (hkeeps .lift) fun cpuW => .bind (hkeeps ?_) fun useGpu =>
      .bind (hkeeps ?_) fun qkv => .never_bind ?_
    · split
      · exact initActBufs_mirrors
      · exact .pure
    · split
      · exact attempt_mirrors (mirrors_kept.qkvGpu 0 hidden) _
      · exact .lift
    · exact (hattn _ _ _ _ _).zoom (fun _ h => h.1) (fun _ _ _ _ h => h.elim)
        fun s t h ht => ⟨ht, h.2⟩
  · refine forward_cpu hst ?_
    have hlift : ∀ {α : Type} {o : Option α}, Ends (fun caches => caches = st.kvCaches)
        (lift o) (fun _ caches => caches = st.kvCaches) (fun caches => caches = st.kvCaches) :=
      .lift (fun _ _ _ h => h) fun _ _ h => h
    unfold Gemma4.forward
    iterate 4 refine .bind hlift fun _ => ?_
    refine .never_bind (.foldlM_never hlayers ?_)
    refine .bind hlift ?_
    intro layerPle
    unfold forwardLayer
    iterate 7 refine .bind hlift fun _ => ?_
    exact (hattn _ _ _ _ _).never_bind

theorem forward_pleProjection (hst : Mirrors m st st.kvCaches) (hengine : m.engine = true)
    (hresident : (m.gpuWeights .perLayerModelProjection).isSome = true) {faults : Faults K}
    {fault : Fault K} (hfault : faults .pleProjection = some fault) (tokenId : ℕ) :
    Ends (fun s => s = st) (m.forwardWithFaults faults tokenId pos) (fun _ _ => False)
      (Mirrors m · st.kvCaches) := by
  have hlift : ∀ {α : Type} {o : Option α},
      Ends (fun s => s = st) (lift o) (fun _ s => s = st) (Mirrors m · st.kvCaches) :=
    .lift (fun _ _ _ h => h) fun _ s hs => by rwa [hs]
  unfold VulkanModel.forwardWithFaults forwardGpuWithFaults
  rw [if_pos hengine]
  refine .bind hlift fun hidden => .bind hlift fun ple => .never_bind ?_
  rw [hengine, hresident, Bool.and_self, Faults.ifOn, if_pos rfl, hfault]
  exact (attempt_fails _ fault).mono (fun s hs => by rwa [hs]) (fun _ _ h => h) fun _ h => h

theorem forward_qkv (hst : Mirrors m st st.kvCaches) (hengine : m.engine = true)
    (hlayers : 0 < m.inner.config.numHiddenLayers)
    (hcaps : (computeLayerGpuCaps m.gpuWeights 0).hasGpuWeights = true)
    (hready : st.attempt 0 = true) {faults : Faults K} {fault : Fault K}
    (hfault : faults (.qkv 0) = some fault) (tokenId : ℕ) :
    Ends (fun s => s = st) (m.forwardWithFaults faults tokenId pos) (fun _ _ => False)
      (Mirrors m · st.kvCaches) := by
  unfold VulkanModel.forwardWithFaults
  rw [if_pos hengine]
  refine (forwardGpuWithFaults_stopped
    (A := fun s => Mirrors m s st.kvCaches ∧ s.attempt 0 = true) hlayers (fun _ h => h.1)
    (fun fault x t k n pc => ?_) fun hidden layerPle => ?_).mono (fun s hs => ?_)
    (fun _ _ h => h) fun _ h => h
  · exact (attempt_mirrors (mirrors_kept.gpuMatmulOrCpu _ _ _ _ _ _) fault).and
      (attempt_attempts (A := fun ready allocs => (ready || allocs 0) = true)
        ((attempts_kept m).gpuMatmulOrCpu _ _ _ _ _ _) fault)
  · unfold forwardLayerWithFaults
    simp only [hengine, hcaps, hfault, Bool.and_self, if_true]
    refine .bind (B := fun _ s => Mirrors m s st.kvCaches ∧ s.attempt 0 = true)
      (.lift (fun _ _ _ h => h) fun _ _ h => h.1) fun cpuW => ?_
    refine .bind (initActBufs_ready hengine) fun useGpu => .never_bind ?_
    rintro s ⟨rfl, hs⟩
    rw [if_pos rfl]
    exact attempt_fails _ fault s hs
  · subst hs
    exact ⟨hst, hready⟩

/-- **Failures before anything is appended leave the caches as they were.** -/
theorem early_ends (hst : Mirrors m st st.kvCaches) {faults : Faults K} {tokenId pos : ℕ}
    (hfirst : ∀ i < m.inner.config.numHiddenLayers, m.inner.config.isKvShared i = false →
      ∀ c, st.kvCaches[i]? = some c → c.maxSeqLen ≤ c.seqLen →
      ∃ c₀, st.kvCaches[0]? = some c₀ ∧ c₀.maxSeqLen ≤ c₀.seqLen)
    (h : Early m faults st tokenId) :
    Ends (fun s => s = st) (m.forwardWithFaults faults tokenId pos) (fun _ _ => False)
      (Mirrors m · st.kvCaches) := by
  cases h with
  | tokenId h => exact forward_unknown hst h faults
  | @overflow i c hi hown hc hfull =>
    -- the first cache is at least as full
    obtain ⟨c₀, hc₀, hfull₀⟩ := hfirst i hi hown c hc hfull
    have hown₀ : m.inner.config.isKvShared 0 = false := by
      simp only [Gemma4Config.isKvShared, decide_eq_false_iff_not, ge_iff_le, not_le] at hown ⊢
      omega
    exact forward_full hst (by omega) hown₀ hc₀ hfull₀ faults tokenId
  | pleProjection hengine hresident hfault =>
    obtain ⟨fault, hfault⟩ := Option.isSome_iff_exists.1 hfault
    exact forward_pleProjection hst hengine hresident hfault tokenId
  | qkv hengine hlayers hcaps hready hfault =>
    obtain ⟨fault, hfault⟩ := Option.isSome_iff_exists.1 hfault
    exact forward_qkv hst hengine hlayers hcaps hready hfault tokenId

/-! ### Sequences of calls -/

/-- The caches of a state that was reached: an earlier layer never has fewer tokens. -/
structure CachesInv (m : VulkanModel K) (maxSeqLen : ℕ) (st : GpuState K) : Prop where
  mirrors : Mirrors m st st.kvCaches
  dims : st.kvCaches.map KvCache.dims =
    (m.fresh maxSeqLen st.allocs).kvCaches.map KvCache.dims
  descending : ∀ (i j : ℕ) (c c' : KvCache K), i ≤ j → m.inner.config.isKvShared j = false →
    st.kvCaches[i]? = some c → st.kvCaches[j]? = some c' → c'.seqLen ≤ c.seqLen

/-- The caches of the layers that have one hold equally many tokens. -/
def EqualLengths (m : VulkanModel K) (st : GpuState K) : Prop :=
  ∃ n, ∀ (i : ℕ) (c : KvCache K), m.inner.config.isKvShared i = false →
    st.kvCaches[i]? = some c → c.seqLen = n

section Reached

variable {maxSeqLen : ℕ} {st' : GpuState K}

omit [LinearOrder K] [Elementary K] in
theorem CachesInv.fresh (m : VulkanModel K) (maxSeqLen : ℕ) (allocs : ℕ → Bool) :
    CachesInv m maxSeqLen (m.fresh maxSeqLen allocs) ∧
      EqualLengths m (m.fresh maxSeqLen allocs) := by
  have hzero : ∀ (i : ℕ) (c : KvCache K), (m.fresh maxSeqLen allocs).kvCaches[i]? = some c →
      c.seqLen = 0 := by
    intro i c hc
    obtain ⟨j, -, rfl⟩ := List.mem_map.1 (List.mem_of_getElem? hc)
    rfl
  refine ⟨⟨⟨rfl, fun mem h => nomatch h⟩, rfl, fun i j c c' _ _ hc hc' => ?_⟩,
    0, fun i c _ hc => hzero i c hc⟩
  rw [hzero i c hc, hzero j c' hc']

omit [LinearOrder K] [Elementary K] in
theorem CachesInv.reset (h : CachesInv m maxSeqLen st) :
    CachesInv m maxSeqLen (VulkanModel.resetKvCache st).2 ∧
      EqualLengths m (VulkanModel.resetKvCache st).2 := by
  have hzero : ∀ (i : ℕ) (c : KvCache K),
      (VulkanModel.resetKvCache st).2.kvCaches[i]? = some c → c.seqLen = 0 := by
    intro i c hc
    obtain ⟨c₀, -, rfl⟩ := List.mem_map.1 (List.mem_of_getElem? hc)
    rfl
  refine ⟨⟨⟨rfl, h.mirrors.2⟩, ?_, fun i j c c' _ _ hc hc' => ?_⟩, 0, fun i c _ hc => hzero i c hc⟩
  · refine Eq.trans ?_ h.dims
    simp only [VulkanModel.resetKvCache, Gemma4.resetKvCache, List.map_map]
    rfl
  · rw [hzero i c hc, hzero j c' hc']

omit [Field K] [LinearOrder K] [Elementary K] in
theorem Extended.dims {cfg : Gemma4Config K} {n : ℕ} {caches : Caches K}
    (h : Extended cfg n base caches) : caches.map KvCache.dims = base.map KvCache.dims := by
  refine List.ext_getElem (by simp [h.length]) ?_
  intro i h₁ h₂
  rw [List.length_map] at h₁ h₂
  rw [List.getElem_map, List.getElem_map]
  exact (h.cache i _ _ (List.getElem?_eq_getElem h₂) (List.getElem?_eq_getElem h₁)).dims

omit [Field K] [LinearOrder K] [Elementary K] in
theorem Extended.before {cfg : Gemma4Config K} {n : ℕ} {caches : Caches K} {c' : KvCache K}
    (h : Extended cfg n base caches) (hc' : caches[i]? = some c') :
    ∃ c, base[i]? = some c ∧ c'.seqLen = c.seqLen + appended cfg n i := by
  have hi : i < base.length := h.length ▸ (List.getElem?_eq_some_iff.1 hc').1
  exact ⟨base[i], List.getElem?_eq_getElem hi,
    (h.cache i _ c' (List.getElem?_eq_getElem hi) hc').seqLen⟩

omit [LinearOrder K] [Elementary K] in
/-- **The first layers append a token.** -/
theorem CachesInv.atLayer {n : ℕ} (h : CachesInv m maxSeqLen st)
    (hat : AtLayer m st.kvCaches n st') : CachesInv m maxSeqLen st' := by
  refine ⟨hat.1, hat.2.dims.trans h.dims, fun i j c c' hij hown hc hc' => ?_⟩
  obtain ⟨c₀, hc₀, hlen⟩ := hat.2.before hc
  obtain ⟨c₀', hc₀', hlen'⟩ := hat.2.before hc'
  have hle := h.descending i j c₀ c₀' hij hown hc₀ hc₀'
  have happ : appended m.inner.config n j ≤ appended m.inner.config n i := by
    have hown' : m.inner.config.isKvShared i = false := by
      simp only [Gemma4Config.isKvShared, decide_eq_false_iff_not, ge_iff_le, not_le] at hown ⊢
      omega
    simp only [appended, hown, hown', and_true]
    split_ifs <;> omega
  omega

omit [LinearOrder K] [Elementary K] in
theorem CachesInv.maxSeqLen_eq (h : CachesInv m maxSeqLen st) {c : KvCache K}
    (hc : st.kvCaches[i]? = some c) : c.maxSeqLen = maxSeqLen := by
  have hdims : c.dims ∈ st.kvCaches.map KvCache.dims :=
    List.mem_map_of_mem (List.mem_of_getElem? hc)
  rw [h.dims] at hdims
  obtain ⟨c₀, hc₀, heq⟩ := List.mem_map.1 hdims
  obtain ⟨j, -, rfl⟩ := List.mem_map.1 hc₀
  exact (congrArg KvDims.maxSeqLen heq).symm

omit [LinearOrder K] [Elementary K] in
theorem CachesInv.lt_numHiddenLayers (h : CachesInv m maxSeqLen st) {c : KvCache K}
    (hc : st.kvCaches[i]? = some c) : i < m.inner.config.numHiddenLayers := by
  have hlt := (List.getElem?_eq_some_iff.1 hc).1
  have hdims := congrArg List.length h.dims
  simp only [VulkanModel.fresh, List.length_map, List.length_range] at hdims
  omega

omit [LinearOrder K] [Elementary K] in
theorem CachesInv.first_full (h : CachesInv m maxSeqLen st)
    (hown : m.inner.config.isKvShared i = false) {c : KvCache K} (hc : st.kvCaches[i]? = some c)
    (hfull : c.maxSeqLen ≤ c.seqLen) :
    ∃ c₀, st.kvCaches[0]? = some c₀ ∧ c₀.maxSeqLen ≤ c₀.seqLen := by
  have hlt : 0 < st.kvCaches.length :=
    Nat.lt_of_le_of_lt (Nat.zero_le i) (List.getElem?_eq_some_iff.1 hc).1
  refine ⟨st.kvCaches[0], List.getElem?_eq_getElem hlt, ?_⟩
  have hle := h.descending 0 i _ c (Nat.zero_le i) hown (List.getElem?_eq_getElem hlt) hc
  rw [h.maxSeqLen_eq hc] at hfull
  rw [h.maxSeqLen_eq (List.getElem?_eq_getElem hlt)]
  omega

/-- **A call with a token** that returns has gone through all layers, one that panics has stopped
in one of them. -/
theorem faultyStep_token (hst : Mirrors m st st.kvCaches) (sort : UnstableSort K)
    {c : FaultyCall K} {tokenId position : ℕ} (htoken : c.call.token = some (tokenId, position)) :
    (faultyStep m sort st c).2 = true ∧
        AtLayer m st.kvCaches m.inner.config.numHiddenLayers (faultyStep m sort st c).1 ∨
      (faultyStep m sort st c).2 = false ∧
        StoppedBy m st.kvCaches m.inner.config.numHiddenLayers (faultyStep m sort st c).1 := by
  rcases execWithFaults_ends m sort c.faults htoken st.kvCaches st hst.atLayer with
    ⟨value, st', hcall, hpost⟩ | ⟨st', hcall, hpost⟩
  · left
    simp only [faultyStep, hcall, Option.isSome_some]
    exact ⟨trivial, hpost⟩
  · right
    simp only [faultyStep, hcall, Option.isSome_none]
    exact ⟨trivial, hpost⟩

theorem faultyStep_reset (sort : UnstableSort K) {c : FaultyCall K} (htoken : c.call.token = none) :
    faultyStep m sort st c = ((VulkanModel.resetKvCache st).2, true) := by
  obtain ⟨call, faults⟩ := c
  cases call with
  | resetKvCache => rfl
  | forward t p => cases htoken
  | forwardAndSample t p temperature topP topK u => cases htoken

/-- **A call**, whether it returns or not. -/
theorem CachesInv.call (h : CachesInv m maxSeqLen st) (sort : UnstableSort K) (c : FaultyCall K) :
    CachesInv m maxSeqLen (faultyStep m sort st c).1 := by
  rcases htoken : c.call.token with _ | ⟨tokenId, position⟩
  · rw [faultyStep_reset sort htoken]
    exact h.reset.1
  · rcases faultyStep_token h.mirrors sort htoken with ⟨-, hpost⟩ | ⟨-, i, -, hpost⟩
    · exact h.atLayer hpost
    · exact h.atLayer hpost

/-- **The caches of every state that is reached.** -/
theorem CachesInv.finalState (h : CachesInv m maxSeqLen st) (sort : UnstableSort K)
    (calls : List (FaultyCall K)) :
    CachesInv m maxSeqLen (Machine.finalState (faultyStep m sort) st calls) := by
  have hstep : ∀ st c, CachesInv m maxSeqLen st → True →
      CachesInv m maxSeqLen (faultyStep m sort st c).1 := fun st c h _ => h.call sort c
  exact finalState_inv hstep h fun _ _ => trivial

theorem faultyStep_early (h : CachesInv m maxSeqLen st) (sort : UnstableSort K) {c : FaultyCall K}
    {tokenId position : ℕ} (htoken : c.call.token = some (tokenId, position))
    (hearly : Early m c.faults st tokenId) :
    (faultyStep m sort st c).2 = false ∧
      Mirrors m (faultyStep m sort st c).1 st.kvCaches := by
  have hends : ∀ pos, Ends (fun s => s = st) (m.forwardWithFaults c.faults tokenId pos)
      (fun _ _ => False) (Mirrors m · st.kvCaches) := fun pos =>
    early_ends h.mirrors (fun i _ hown c hc hfull => h.first_full hown hc hfull) hearly
  obtain ⟨call, faults⟩ := c
  have hcall : Ends (fun s => s = st) (m.execWithFaults sort faults call)
      (fun _ _ => False) (Mirrors m · st.kvCaches) := by
    cases call with
    | resetKvCache => cases htoken
    | forward t p =>
      obtain ⟨rfl, rfl⟩ := Prod.ext_iff.1 (Option.some.inj htoken)
      exact hends p
    | forwardAndSample t p temperature topP topK u =>
      obtain ⟨rfl, rfl⟩ := Prod.ext_iff.1 (Option.some.inj htoken)
      exact (hends p).never_bind
  rcases hcall st rfl with ⟨-, -, -, hfalse⟩ | ⟨st', hpanic, hpost⟩
  · exact hfalse.elim
  · simp only [faultyStep, hpanic, Option.isSome_none]
    exact ⟨trivial, hpost⟩

/-- Lengths stay equal when every layer appends a token, and when none does. -/
theorem EqualLengths.call (h : CachesInv m maxSeqLen st) (heq : EqualLengths m st)
    (sort : UnstableSort K) {c : FaultyCall K} (hearly : ∀ tokenId position,
      c.call.token = some (tokenId, position) → (faultyStep m sort st c).2 = false →
      Early m c.faults st tokenId) :
    EqualLengths m (faultyStep m sort st c).1 := by
  rcases htoken : c.call.token with _ | ⟨tokenId, position⟩
  · rw [faultyStep_reset sort htoken]
    exact h.reset.2
  obtain ⟨n, hn⟩ := heq
  rcases faultyStep_token h.mirrors sort htoken with ⟨-, hpost⟩ | ⟨hfailed, -⟩
  · refine ⟨n + 1, fun i c' hown hc' => ?_⟩
    obtain ⟨c₀, hc₀, hlen⟩ := hpost.2.before hc'
    rw [hlen, hn i c₀ hown hc₀, appended, if_pos ⟨h.lt_numHiddenLayers hc₀, hown⟩]
  · obtain ⟨-, hcaches, -⟩ := faultyStep_early h sort htoken (hearly _ _ htoken hfailed)
    refine ⟨n, fun i c' hown hc' => hn i c' hown ?_⟩
    rwa [hcaches] at hc'

end Reached

/-! ### Failed calls -/

/-- What a failed call leaves behind. -/
structure LeftBehind (m : VulkanModel K) (sort : UnstableSort K) (c : FaultyCall K) (tokenId : ℕ)
    (pre post : GpuState K) : Prop where
  /-- The caches of some first layers hold one more token; all that was cached before is there. -/
  extended : ∃ n ≤ m.inner.config.numHiddenLayers,
    Extended m.inner.config n pre.kvCaches post.kvCaches
  /-- A call that fails early leaves the caches as they were. -/
  unchanged : Early m c.faults pre tokenId → post.kvCaches = pre.kvCaches
  /-- Repeated without the fault it gives what it would have given.  If a layer misses a key, then
  the attempts to allocate the activation buffers have to come out alike. -/
  repeated : Early m c.faults pre tokenId →
    (∀ i < m.inner.config.numHiddenLayers, NoMissing m i) ∨ SameAttempts pre post →
    (m.execWithFaults sort (fun _ => none) c.call post).1 =
      (m.execWithFaults sort (fun _ => none) c.call pre).1

theorem repeated_call (hm : m.engine = true → LoadedOn m) (sort : UnstableSort K) {β : Type}
    (c : ModelCall K β) {st' : GpuState K} (hst : Mirrors m st st.kvCaches)
    (hst' : Mirrors m st' st.kvCaches)
    (hattempts : (∀ i < m.inner.config.numHiddenLayers, NoMissing m i) ∨ SameAttempts st st') :
    (m.execWithFaults sort (fun _ => none) c st').1 =
      (m.execWithFaults sort (fun _ => none) c st).1 := by
  have htwins : Twins m m.device (st.kvCaches.map KvCache.dims) st st' :=
    ⟨⟨_, _, hst, .refl _, hst'⟩, hattempts⟩
  have hforward : ∀ tokenId pos, Refines (Twins m m.device (st.kvCaches.map KvCache.dims))
      (fun _ => True) (m.forwardWithFaults (fun _ => none) tokenId pos)
      (m.forwardWithFaults (fun _ => none) tokenId pos) := by
    intro tokenId pos
    rw [m.forwardWithFaults_none]
    exact forward_twins hm tokenId pos
  cases c with
  | resetKvCache => rfl
  | forward t p => exact (hforward t p st st' htwins).1.symm
  | forwardAndSample t p temperature topP topK u =>
    have hcall : Refines (Twins m m.device (st.kvCaches.map KvCache.dims)) (fun _ => True)
        (m.execWithFaults sort (fun _ => none) (.forwardAndSample t p temperature topP topK u))
        (m.execWithFaults sort (fun _ => none) (.forwardAndSample t p temperature topP topK u)) :=
      (hforward t p).bind fun _ _ => .lift fun _ _ => trivial
    exact (hcall st st' htwins).1.symm

/-- **Failed calls.**  In every sequence of calls on a device that may fail anywhere, a call that
fails keeps all that was cached and adds its token to the caches of some first layers; one that
fails early adds it to none, and can be repeated.  If all failed calls failed early, then the caches
hold equally many tokens. -/
theorem failed_forward (m : VulkanModel K) (sort : UnstableSort K) (maxSeqLen : ℕ)
    (allocs : ℕ → Bool) {st₀ : GpuState K}
    (hm : m.engine = true → WellShaped m.inner ∧ Uploaded m ∧
      m.inner.config.headDim ≤ m.inner.config.globalHeadDim)
    (hnew : m.new maxSeqLen allocs = some st₀) (calls : List (FaultyCall K)) :
    (∀ τ ∈ transitions (faultyStep m sort) st₀ calls, ∀ tokenId position,
      τ.input.call.token = some (tokenId, position) → τ.output = false →
      LeftBehind m sort τ.input tokenId τ.pre τ.post) ∧
    ((∀ τ ∈ transitions (faultyStep m sort) st₀ calls, ∀ tokenId position,
        τ.input.call.token = some (tokenId, position) → τ.output = false →
        Early m τ.input.faults τ.pre tokenId) →
      EqualLengths m (finalState (faultyStep m sort) st₀ calls)) := by
  obtain ⟨rfl, hattn⟩ := VulkanModel.of_new hnew
  obtain ⟨hstart, hlengths⟩ := CachesInv.fresh m maxSeqLen allocs
  have hloaded : m.engine = true → LoadedOn m := by
    intro hengine
    obtain ⟨hW, hU, hdim⟩ := hm hengine
    exact ⟨hW, hU, hdim, hattn⟩
  constructor
  · have hstep : ∀ st c, CachesInv m maxSeqLen st → True →
        CachesInv m maxSeqLen (faultyStep m sort st c).1 := fun st c h _ => h.call sort c
    refine forall_transitions hstep (fun st c h _ tokenId position htoken hfailed => ?_) hstart
      fun _ _ => trivial
    constructor
    · rcases faultyStep_token h.mirrors sort htoken with ⟨hreturned, -⟩ | ⟨-, n, hn, hpost⟩
      · exact absurd (hreturned.symm.trans hfailed) (by decide)
      · exact ⟨n, hn, hpost.2⟩
    · intro hearly
      exact (faultyStep_early h sort htoken hearly).2.1
    · intro hearly hattempts
      exact repeated_call hloaded sort c.call h.mirrors
        (faultyStep_early h sort htoken hearly).2 hattempts
  · intro hearly
    have hstep : ∀ st c, CachesInv m maxSeqLen st ∧ EqualLengths m st →
        (∀ tokenId position, c.call.token = some (tokenId, position) →
          (faultyStep m sort st c).2 = false → Early m c.faults st tokenId) →
        CachesInv m maxSeqLen (faultyStep m sort st c).1 ∧
          EqualLengths m (faultyStep m sort st c).1 :=
      fun st c h hok => ⟨h.1.call sort c, h.2.call h.1 sort hok⟩
    have hend := finalState_inv hstep ⟨hstart, hlengths⟩
      fun τ hτ tokenId position htoken hfailed =>
        hearly τ hτ tokenId position htoken ((congrArg Prod.snd (step_eq hτ)).symm.trans hfailed)
    exact hend.2

attribute [local instance] elementaryTaylor

/-- A failure that leaves everything in place. -/
def harmlessFault : Fault ℚ := ⟨id, id, fun _ _ => rfl, fun _ => rfl, fun _ => rfl⟩

/-- A token whose first submit behind the attention of the first layer fails. -/
def halfCall : FaultyCall ℚ :=
  ⟨.forward 2 0, fun part => if part = .postAttention 0 then some harmlessFault else none⟩

theorem failed_forward_halfCall :
    LeftBehind (filledModel ℚ) stableSort halfCall 2 ((filledModel ℚ).fresh 3 fun _ => true)
      (faultyStep (filledModel ℚ) stableSort ((filledModel ℚ).fresh 3 fun _ => true)
        halfCall).1 := by
  have hW := wellShaped_filledModel ℚ
  exact (failed_forward (filledModel ℚ) stableSort 3 (fun _ => true)
    (fun _ => ⟨hW, uploaded_filledModel ℚ, by decide⟩)
    ((VulkanModel.new_eq_some hW).2 ⟨rfl, fun _ _ => rfl⟩) [halfCall]).1 _ List.mem_cons_self 2 0
    rfl (by decide +kernel)

/-- **A failure behind the attention** leaves the first layer one token ahead of the others. -/
theorem half_appended :
    (filledModel ℚ).new 3 (fun _ => true) = some ((filledModel ℚ).fresh 3 fun _ => true) ∧
      ¬ ∀ τ ∈ transitions (faultyStep (filledModel ℚ) stableSort)
          ((filledModel ℚ).fresh 3 fun _ => true) [halfCall], τ.output = false →
        τ.post.kvCaches.map KvCache.seqLen = τ.pre.kvCaches.map KvCache.seqLen :=
  ⟨(VulkanModel.new_eq_some (wellShaped_filledModel ℚ)).2 ⟨rfl, fun _ _ => rfl⟩, by
    decide +kernel⟩

end Gemma4

end VllmVulkan
