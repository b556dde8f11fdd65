import VllmVulkan.Gemma4.Calls
import VllmVulkan.Gemma4.Parts

/-!
# Failed calls

A call panics when the device fails it, and a panic does not undo what was done before it.

* `Part`, `Fault` : the parts of a call in which the device may fail, and what a failure leaves;
* `forwardWithFaults` : the forward pass on a device that may fail;
* `faultyStep` : a call of the model on such a device;
* `Extended` : **caches to which the first layers have appended a token**;
* `attention_ends` : the attention appends a token, or panics before or behind that;
* `mirrors_kept` : **the rest of a layer leaves the caches alone**, whether it returns or not.
-/

namespace VllmVulkan

namespace Gemma4

open Commands Panics Machine Sessions

variable {K : Type}

/-! ### Faults -/

/-- The parts of a call in which the device may fail: a buffer is not allocated, a dispatch not
recorded, or a batch not submitted. -/
inductive Part where
  /-- The product of `per_layer_model_projection`. -/
  | pleProjection
  /-- The submit of the projections of a layer. -/
  | qkv (layerIdx : ℕ)
  /-- The submits of a layer behind its attention. -/
  | postAttention (layerIdx : ℕ)
  | lmHead
  deriving DecidableEq, Repr

/-- What a failure leaves in the activation buffers and in the pool: anything, but in the buffers of
the two scalars, which no dispatch writes. -/
structure Fault (K : Type) where
  acts : Mem Act K → Mem Act K
  products : ℕ → ℕ
  length_acts : ∀ mem slot, (acts mem slot).length = (mem slot).length
  acts_invCap : ∀ mem, acts mem .invCap = mem .invCap
  acts_cap : ∀ mem, acts mem .cap = mem .cap

/-- Where the device fails. -/
abbrev Faults (K : Type) := Part → Option (Fault K)

/-- A part of a call: the `unwrap` of a failure panics. -/
def attempt {α : Type} (fault : Option (Fault K)) (x : Panics (GpuState K) α) :
    Panics (GpuState K) α :=
  match fault with
  | none => x
  | some f => fun st =>
    (none, { st with actBufs := st.actBufs.map f.acts, products := f.products st.products })

@[simp] theorem attempt_none {α : Type} (x : Panics (GpuState K) α) : attempt none x = x := rfl

/-- The failure of a part that may run on the CPU. -/
def Faults.ifOn (faults : Faults K) (onDevice : Bool) (part : Part) : Option (Fault K) :=
  if onDevice then faults part else none

section Calls

variable [Field K] [Elementary K] [LinearOrder K]

/-- `forward_layer_gpu_matmuls`. -/
def forwardLayerWithFaults (m : VulkanModel K) (faults : Faults K) (layerIdx : ℕ) (hidden : List K)
    (pos : ℕ) (layerPle : List K) : Panics (GpuState K) (List K) := do
  let cfg := m.inner.config
  let cpuW ← lift (computeLayerCpuWeightRefs cfg m.inner.weights layerIdx)
  let caps := computeLayerGpuCaps m.gpuWeights layerIdx
  let useGpu ← (if m.engine && caps.hasGpuWeights then initActBufs m else pure false)
  let useFusedPostAttn := useGpu && caps.hasFusedPostAttnWeights
  let (q, k, v) ← (if useGpu then attempt (faults (.qkv layerIdx)) (qkvGpu m layerIdx hidden)
    else lift (qkvCpu m layerIdx hidden cpuW.inputLayernorm))
  let attnOut ← zoom GpuState.kvCaches (fun st caches => { st with kvCaches := caches })
    (attention cfg layerIdx q k v cpuW.qNorm cpuW.kNorm pos)
  -- without the fused chain `down_proj` may run on the device although the layer does not
  let onDevice := useGpu || m.engine && (m.gpuWeights (.layer layerIdx .downProj)).isSome
  attempt (faults.ifOn onDevice (.postAttention layerIdx))
    (if useFusedPostAttn then fusedPostAttention m layerIdx attnOut hidden layerPle
    else branchPostAttention m layerIdx useGpu cpuW attnOut hidden layerPle)

/-- `VulkanModel::forward_gpu`. -/
def forwardGpuWithFaults (m : VulkanModel K) (faults : Faults K) (tokenId position : ℕ) :
    Panics (GpuState K) (List K) := do
  let cfg := m.inner.config
  let h := cfg.hiddenSize
  let pleDim := cfg.hiddenSizePerLayerInput
  let totalPle := cfg.totalPle
  let hidden ← lift (embed m.inner tokenId)
  let pleEmbedsFlat ← lift (pleEmbeds m.inner tokenId)
  let pc : MvPc := ⟨h, h, h, totalPle, h * totalPle, h, totalPle, 0, 0, 1, 1, 1, 1⟩
  let onDevice := m.engine && (m.gpuWeights .perLayerModelProjection).isSome
  let pleProj ← attempt (faults.ifOn onDevice .pleProjection)
    (gpuMatmulOrCpu m .perLayerModelProjection hidden 1 h totalPle pc)
  let pleInputs ← lift (pleInputs m.inner pleEmbedsFlat pleProj)
  let hidden ← (List.range cfg.numHiddenLayers).foldlM (fun hidden layerIdx => do
    let layerPle ← lift (slice pleInputs (layerIdx * pleDim) ((layerIdx + 1) * pleDim))
    forwardLayerWithFaults m faults layerIdx hidden position layerPle) hidden
  match m.engine, m.gpuWeights .embedTokens, m.gpuWeights .norm with
  | true, some lmW, some normW => do
    let useGpuLmHead ← initActBufs m
    if useGpuLmHead then attempt (faults .lmHead) (lmHeadGpu m lmW normW hidden)
    else lift (lmHead m.inner hidden)
  | _, _, _ => lift (lmHead m.inner hidden)

namespace VulkanModel

/-- `VulkanModel::forward`. -/
def forwardWithFaults (m : VulkanModel K) (faults : Faults K) (tokenId position : ℕ) :
    Panics (GpuState K) (List K) :=
  if m.engine then forwardGpuWithFaults m faults tokenId position
  else zoom GpuState.kvCaches (fun st caches => { st with kvCaches := caches })
    (Gemma4.forward m.inner tokenId position)

/-- **Without failures it is the forward pass.** -/
theorem forwardWithFaults_none (m : VulkanModel K) (tokenId position : ℕ) :
    m.forwardWithFaults (fun _ => none) tokenId position = m.forward tokenId position := by
  have hon : ∀ (onDevice : Bool) (part : Part),
      Faults.ifOn (K := K) (fun _ => none) onDevice part = none := fun onDevice part => by
    cases onDevice <;> rfl
  unfold forwardWithFaults forward forwardGpuWithFaults forwardGpu forwardLayerWithFaults
    forwardLayerGpuMatmuls
  cases m.engine <;> cases m.gpuWeights .embedTokens <;> cases m.gpuWeights .norm <;>
    simp only [hon, attempt_none]

/-- The calls of the model on a device that may fail. -/
def execWithFaults (m : VulkanModel K) (sort : UnstableSort K) (faults : Faults K) {β : Type} :
    ModelCall K β → Panics (GpuState K) β
  | .resetKvCache => resetKvCache
  | .forward tokenId position => m.forwardWithFaults faults tokenId position
  | .forwardAndSample tokenId position temperature topP topK uniformRandom => do
    let logits ← m.forwardWithFaults faults tokenId position
    lift (sampleWithTemperature sort logits temperature topP topK uniformRandom)

end VulkanModel

/-- A call, and where the device fails it. -/
structure FaultyCall (K : Type) where
  {β : Type}
  call : ModelCall K β
  faults : Faults K

/-- One call; the output says whether it returned. -/
def faultyStep (m : VulkanModel K) (sort : UnstableSort K) (st : GpuState K) (c : FaultyCall K) :
    GpuState K × Bool :=
  let (value, st) := m.execWithFaults sort c.faults c.call st
  (st, value.isSome)

end Calls

/-! ### Caches with one more token -/

/-- `c'` is `c` with `t` more tokens. -/
structure KvCache.Extends (t : ℕ) (c c' : KvCache K) : Prop where
  dims : c'.dims = c.dims
  seqLen : c'.seqLen = c.seqLen + t
  liveK : c'.k.take (c.seqLen * (c.numKvHeads * c.headDim)) =
    c.k.take (c.seqLen * (c.numKvHeads * c.headDim))
  liveV : c'.v.take (c.seqLen * (c.numKvHeads * c.headDim)) =
    c.v.take (c.seqLen * (c.numKvHeads * c.headDim))

namespace KvCache

variable {c c₁ c₂ : KvCache K}

theorem Extends.refl (c : KvCache K) : c.Extends 0 c := ⟨rfl, rfl, rfl, rfl⟩

theorem take_of_take {x y : List K} {n n' : ℕ} (h : x.take n' = y.take n') (hn : n ≤ n') :
    x.take n = y.take n := by
  rw [← Nat.min_eq_left hn, ← List.take_take, h, List.take_take]

theorem Extends.trans {t t' : ℕ} (h : c.Extends t c₁) (h' : c₁.Extends t' c₂) :
    c.Extends (t + t') c₂ := by
  have hdims := h.dims
  simp only [KvCache.dims, KvDims.mk.injEq] at hdims
  obtain ⟨-, hheads, hdim, -, -⟩ := hdims
  have hle : c.seqLen * (c.numKvHeads * c.headDim) ≤
      c₁.seqLen * (c₁.numKvHeads * c₁.headDim) := by
    rw [hheads, hdim, h.seqLen]
    exact Nat.mul_le_mul_right _ (Nat.le_add_right _ _)
  refine ⟨h'.dims.trans h.dims, by rw [h'.seqLen, h.seqLen, Nat.add_assoc], ?_, ?_⟩
  · exact (take_of_take h'.liveK hle).trans h.liveK
  · exact (take_of_take h'.liveV hle).trans h.liveV

theorem copyFromSlice_before {x y src : List K} {pos stride : ℕ}
    (h : copyFromSlice x pos (pos + stride) src = some y) :
    y.length = x.length ∧ y.take pos = x.take pos := by
  rcases copyFromSlice_live src (rfl : x.length = x.length) (rfl : x.take pos = x.take pos) with
    ⟨hnone, -⟩ | ⟨y₁, -, hy, -, hlen, -, hbefore, -⟩
  · rw [hnone] at h
    cases h
  · rw [hy] at h
    cases h
    exact ⟨hlen, hbefore⟩

/-- **`append` adds a token, or panics and adds none.** -/
theorem append_ends (k v : List K) : Ends (fun c₁ => c₁ = c) (append k v)
    (fun _ c₁ => c.Extends 1 c₁) (fun c₁ => c.Extends 0 c₁) := by
  rintro _ rfl
  rw [append_apply]
  split
  · dsimp only
    split
    · exact .inr ⟨_, rfl, .refl _⟩
    · rename_i k' hk
      obtain ⟨hlenK, hbeforeK⟩ := copyFromSlice_before hk
      split
      · exact .inr ⟨_, rfl, by simp [dims, hlenK], rfl, hbeforeK, rfl⟩
      · rename_i v' hv
        obtain ⟨hlenV, hbeforeV⟩ := copyFromSlice_before hv
        exact .inl ⟨_, _, rfl, by simp [dims, hlenK, hlenV], rfl, hbeforeK, hbeforeV⟩
  · exact .inr ⟨_, rfl, .refl _⟩

theorem append_full (k v : List K) (hfull : c.maxSeqLen ≤ c.seqLen) :
    append k v c = (none, c) := by
  rw [append_apply, if_neg (not_lt.2 hfull)]

end KvCache

/-- What the first `n` layers append to the cache of layer `i`. -/
def appended (cfg : Gemma4Config K) (n i : ℕ) : ℕ :=
  if i < n ∧ cfg.isKvShared i = false then 1 else 0

/-- **The first `n` layers have appended a token to their caches, and nothing else has changed.** -/
structure Extended (cfg : Gemma4Config K) (n : ℕ) (caches caches' : Caches K) : Prop where
  length : caches'.length = caches.length
  cache : ∀ (i : ℕ) (c c' : KvCache K), caches[i]? = some c → caches'[i]? = some c' →
    c.Extends (appended cfg n i) c'

section Extended

variable {cfg : Gemma4Config K} {n i : ℕ} {base caches caches' : Caches K}

@[simp] theorem appended_zero (i : ℕ) : appended cfg 0 i = 0 := by simp [appended]

theorem appended_succ_of_ne {j : ℕ} (h : j ≠ i) : appended cfg (i + 1) j = appended cfg i j := by
  have hlt : j < i + 1 ↔ j < i := by omega
  simp only [appended, hlt]

theorem appended_succ_of_shared (h : cfg.isKvShared i = true) :
    appended cfg (i + 1) = appended cfg i := by
  funext j
  by_cases hj : j = i
  · subst hj
    simp [appended, h]
  · exact appended_succ_of_ne hj

theorem appended_self : appended cfg i i = 0 := by simp [appended]

theorem appended_succ_self (h : cfg.isKvShared i = false) : appended cfg (i + 1) i = 1 := by
  simp [appended, h]

theorem Extended.refl (caches : Caches K) : Extended cfg 0 caches caches := by
  refine ⟨rfl, fun i c c' hc hc' => ?_⟩
  rw [hc] at hc'
  cases hc'
  rw [appended_zero]
  exact .refl c

theorem Extended.congr {n' : ℕ} (h : Extended cfg n base caches)
    (hn : appended cfg n' = appended cfg n) : Extended cfg n' base caches :=
  ⟨h.length, fun i c c' hc hc' => by
    rw [hn]
    exact h.cache i c c' hc hc'⟩

theorem Extended.set {t n' : ℕ} {c₁ c₂ : KvCache K} (h : Extended cfg n base caches)
    (hc₁ : caches[i]? = some c₁) (hc₂ : c₁.Extends t c₂)
    (hi : appended cfg n i + t = appended cfg n' i)
    (hother : ∀ j, j ≠ i → appended cfg n j = appended cfg n' j) :
    Extended cfg n' base (caches.set i c₂) := by
  refine ⟨by rw [List.length_set, h.length], fun j c c' hc hc' => ?_⟩
  by_cases hj : j = i
  · subst hj
    rw [List.getElem?_set_self (List.getElem?_eq_some_iff.1 hc₁).1] at hc'
    cases hc'
    rw [← hi]
    exact (h.cache j c c₁ hc hc₁).trans hc₂
  · rw [List.getElem?_set_ne (Ne.symm hj)] at hc'
    rw [← hother j hj]
    exact h.cache j c c' hc hc'

theorem withCache_get_keeps (P : Caches K → Prop) (idx : ℕ) :
    Keeps P (withCache idx Panics.get) := by
  intro caches hP
  unfold withCache
  rcases hc : caches[idx]? with _ | c
  · exact hP
  · obtain ⟨hi, rfl⟩ := List.getElem?_eq_some_iff.1 hc
    change P (caches.set idx caches[idx])
    rwa [List.set_getElem_self]

theorem withCache_append_ends (k v : List K) (hown : cfg.isKvShared i = false) :
    Ends (Extended cfg i base) (withCache i (KvCache.append k v))
      (fun _ => Extended cfg (i + 1) base) (Extended cfg i base) := by
  intro caches hcaches
  unfold withCache
  rcases hc : caches[i]? with _ | c
  · exact .inr ⟨caches, rfl, hcaches⟩
  · have hother : ∀ j, j ≠ i → appended cfg i j = appended cfg (i + 1) j :=
      fun j hj => (appended_succ_of_ne hj).symm
    rcases KvCache.append_ends k v c rfl with ⟨a, c₁, hx, hext⟩ | ⟨c₁, hx, hext⟩
    · refine .inl ⟨a, caches.set i c₁, by simp only [hx], hcaches.set hc hext ?_ hother⟩
      rw [appended_self, appended_succ_self hown]
    · refine .inr ⟨caches.set i c₁, by simp only [hx], hcaches.set hc hext ?_ fun _ _ => rfl⟩
      rfl

variable [Field K] [LinearOrder K] [Elementary K]

/-- **The attention of a layer** appends a token, unless the layer is KV-shared. -/
theorem attention_ends (cfg : Gemma4Config K) (i : ℕ) (q k v qNorm : List K)
    (kNorm : Option (List K)) (pos : ℕ) (base : Caches K) :
    Ends (Extended cfg i base) (attention cfg i q k v qNorm kNorm pos)
      (fun _ => Extended cfg (i + 1) base)
      (fun caches => Extended cfg i base caches ∨ Extended cfg (i + 1) base caches) := by
  unfold attention
  refine .bind (B := fun _ => Extended cfg i base)
    (.lift (fun _ _ _ h => h) fun _ _ h => .inl h) fun q => ?_
  refine .bind (B := fun _ => Extended cfg i base)
    (.lift (fun _ _ _ h => h) fun _ _ h => .inl h) fun kv => ?_
  refine .bind (B := fun _ => Extended cfg i base)
    (.lift (fun _ _ _ h => h) fun _ _ h => .inl h) fun qk => ?_
  dsimp only
  have hrest : ∀ (target : ℕ) (f : KvCache K → Option (List K)),
      Ends (Extended cfg (i + 1) base)
        (withCache target Panics.get >>= fun cache => lift (f cache))
        (fun _ => Extended cfg (i + 1) base)
        (fun caches => Extended cfg i base caches ∨ Extended cfg (i + 1) base caches) := by
    intro target f
    refine .mono (.of_keeps (.bind (withCache_get_keeps (Extended cfg (i + 1) base) target)
      fun _ => .lift)) (fun _ h => h) (fun _ _ h => h) fun _ h => .inr h
  split
  · rename_i hshared
    refine .bind (B := fun _ => Extended cfg (i + 1) base) ?_ fun target => hrest target _
    refine .lift (fun _ _ s h => h.congr (appended_succ_of_shared hshared)) fun _ _ h => .inl h
  · rename_i hown
    have hown' : cfg.isKvShared i = false := Bool.eq_false_of_not_eq_true hown
    refine .bind (B := fun _ => Extended cfg (i + 1) base) ?_ fun _ => ?_
    · exact (withCache_append_ends _ _ hown').mono (fun _ h => h) (fun _ _ h => h) fun _ => .inl
    · exact .bind (B := fun _ => Extended cfg (i + 1) base) (.pure fun _ h => h)
        fun target => hrest target _

end Extended

/-! ### The device and the caches -/

section Keeps

variable [Field K] [Elementary K] {m : VulkanModel K} {caches : Caches K}

omit [Elementary K] in
theorem Writable.ne {slot : Act} (h : Writable slot) : ∀ p ∈ capFacts m ++ [], p.1 ≠ slot := by
  intro p hp
  simp only [capFacts, List.append_nil, List.mem_cons, List.not_mem_nil, or_false] at hp
  rcases hp with rfl | rfl
  · exact h.1.symm
  · exact h.2.symm

omit [Elementary K] in
/-- A computation on the activation buffers that keeps their sizes and the two scalars. -/
theorem onActs_mirrors {α : Type} {f : Mem Act K → Option (α × Mem Act K)}
    (hf : ∀ mem a mem', ActsSat m [] mem → f mem = some (a, mem') → ActsSat m [] mem') :
    Keeps (Mirrors m · caches) (onActs f) := by
  rintro st ⟨hc, hacts⟩
  rcases hrun : st.actBufs.bind f with _ | ⟨a, mem'⟩
  · rw [onActs_none hrun]
    exact ⟨hc, hacts⟩
  · obtain ⟨mem, hst, hmem'⟩ := Option.bind_eq_some_iff.1 hrun
    rw [onActs_some hrun]
    refine ⟨hc, fun mem₁ hmem₁ => ?_⟩
    cases hmem₁
    exact hf mem a mem' (hacts mem hst) hmem'

omit [Elementary K] in
theorem writeAct_mirrors {slot : Act} (hslot : Writable slot) (data : List K) :
    Keeps (Mirrors m · caches) (writeAct slot data) := by
  refine onActs_mirrors ?_
  intro mem a mem' hmem hw
  by_cases hfit : data.length ≤ (mem slot).length
  · obtain ⟨mem₁, hw₁, hsize, -, hkeep⟩ := writeBuf_spec hfit
    rw [hw₁] at hw
    cases hw
    refine ⟨fun s => (hsize s).trans (hmem.size s), fun p hp => ?_⟩
    exact hkeep p.1 p.2 (hslot.ne p hp) (hmem.sat p hp)
  · rw [writeBuf, if_neg hfit] at hw
    cases hw

omit [Elementary K] in
theorem readAct_mirrors (slot : Act) (offset count : ℕ) :
    Keeps (Mirrors m · caches) (readAct slot offset count) := by
  refine onActs_mirrors ?_
  intro mem a mem' hmem hr
  obtain ⟨_, -, heq⟩ := Option.map_eq_some_iff.1 hr
  cases heq
  exact hmem

theorem runAll_actsSat {cs : List (Command Act (List K))} (ds : List (Dispatch Act K))
    (hcs : cs.Perm (ds.map Dispatch.toCommand)) {mem : Mem Act K} (hmem : ActsSat m [] mem)
    (hfit : ∀ d ∈ ds, d.outLen ≤ actSize m.inner.config d.out) (hout : ∀ d ∈ ds, Writable d.out) :
    ActsSat m [] (runAll cs mem) := by
  induction cs generalizing ds mem with
  | nil => exact hmem
  | cons c cs ih =>
    obtain ⟨d, hd, rfl⟩ := List.mem_map.1 (hcs.subset List.mem_cons_self)
    obtain ⟨ds₁, ds₂, rfl⟩ := List.append_of_mem hd
    have hrest : cs.Perm ((ds₁ ++ ds₂).map Dispatch.toCommand) := by
      rw [List.map_append, List.map_cons] at hcs
      rw [List.map_append]
      exact List.Perm.cons_inv (hcs.trans List.perm_middle)
    have hsub : ∀ d' ∈ ds₁ ++ ds₂, d' ∈ ds₁ ++ d :: ds₂ := fun d' hd' => by
      simp only [List.mem_append, List.mem_cons] at hd' ⊢
      tauto
    rw [runAll_cons]
    refine ih (ds₁ ++ ds₂) hrest ?_ (fun d' hd' => hfit d' (hsub d' hd'))
      fun d' hd' => hout d' (hsub d' hd')
    have hlen : d.outLen ≤ (mem d.out).length := by
      rw [hmem.size]
      exact hfit d hd
    refine ⟨fun s => (Dispatch.length_run hlen s).trans (hmem.size s), fun p hp => ?_⟩
    exact Dispatch.holds_of_ne (hmem.sat p hp) ((hout d hd).ne p hp)

theorem submitActs_mirrors {rs : List (Record Act K)}
    (hout : ∀ d ∈ (groups rs).flatten, Writable d.out) :
    Keeps (Mirrors m · caches) (submitActs m rs) := by
  refine onActs_mirrors ?_
  intro mem a mem' hmem hsubmit
  obtain ⟨mem₁, hrun, heq⟩ := Option.map_eq_some_iff.1 hsubmit
  cases heq
  rw [submitBatch] at hrun
  split at hrun
  · rename_i hall
    cases hrun
    have hbounds : ∀ g ∈ groups rs, ∀ d ∈ g, d.outLen ≤ actSize m.inner.config d.out := by
      intro g hg d hd
      have hin := List.all_eq_true.1 (List.all_eq_true.1 hall g hg) d hd
      unfold Dispatch.inBounds at hin
      rw [← hmem.size d.out]
      exact of_decide_eq_true (Bool.and_eq_true_iff.1 hin).2
    have hgroups : ∀ gs : List (List (Dispatch Act K)), (∀ g ∈ gs, g ∈ groups rs) →
        ∀ mem, ActsSat m [] mem →
        ActsSat m [] (submit m.device.order (gs.map fun g => g.map Dispatch.toCommand) mem) := by
      intro gs
      induction gs with
      | nil => exact fun _ mem hmem => hmem
      | cons g gs ih =>
        intro hgs mem hmem
        have hg := hgs g List.mem_cons_self
        refine ih (fun g' hg' => hgs g' (List.mem_cons_of_mem _ hg')) _ ?_
        exact runAll_actsSat g (m.device.order.perm _) hmem (hbounds g hg)
          fun d hd => hout d (List.mem_flatten.2 ⟨g, hg, hd⟩)
    exact hgroups (groups rs) (fun _ h => h) mem hmem
  · cases hrun

/-- **The elementary steps leave the caches alone**, and the sizes of the buffers. -/
theorem mirrors_kept : GpuState.Kept m (Mirrors m · caches) where
  write hslot data := writeAct_mirrors hslot data
  read := readAct_mirrors
  submit := submitActs_mirrors
  products hst _ := hst.setProducts _

omit [Elementary K] in
theorem initActBufs_mirrors : Keeps (Mirrors m · caches) (initActBufs m) := by
  intro st hst
  obtain ⟨b, st', hinit, hready⟩ := initActBufs_spec hst
  rw [hinit]
  exact hready.mirrors

omit [Elementary K] in
theorem attempt_mirrors {α : Type} {x : Panics (GpuState K) α}
    (h : Keeps (Mirrors m · caches) x) (fault : Option (Fault K)) :
    Keeps (Mirrors m · caches) (attempt fault x) := by
  cases fault with
  | none => exact h
  | some f =>
    rintro st ⟨hc, hacts⟩
    refine ⟨hc, fun mem hmem => ?_⟩
    obtain ⟨mem₀, hmem₀, rfl⟩ := Option.map_eq_some_iff.1 hmem
    obtain ⟨hsize, hsat⟩ := hacts mem₀ hmem₀
    refine ⟨fun s => (f.length_acts mem₀ s).trans (hsize s), fun p hp => ?_⟩
    have hp' := hsat p hp
    simp only [capFacts, List.append_nil, List.mem_cons, List.not_mem_nil, or_false] at hp
    rcases hp with rfl | rfl
    · rwa [Gemma4.Holds, f.acts_invCap]
    · rwa [Gemma4.Holds, f.acts_cap]

end Keeps

end Gemma4

end VllmVulkan
