import VllmVulkan.Gemma4.Tokens

/-!
# A pass over the layers

A pass takes one token through the layers in order.  From the hidden state that reaches a layer the
layer computes the key and the value of the token.

* `forwardNLayers` : the pass through the first layers;
* `projectToken`, `finishLayer` : a layer before and after its attention;
* `passRow` : the key and value that a pass computes at a layer;
* `kvSharedTarget_spec` : **the target of a KV-shared layer**;
* `forwardNLayers_holds` : **a pass appends one token at every layer with a cache of its own**;
* `layer_attends` : **what a layer of a pass attends over**.
-/

namespace VllmVulkan

namespace Gemma4

open Panics

variable {K : Type} [Field K] [LinearOrder K] [Elementary K]

/-- The hidden state before the first layer and the per-layer embeddings, on the CPU. -/
def passInputs (m : Gemma4Model K) (tokenId : ℕ) : Option (List K × List K) := do
  let cfg := m.config
  let hidden ← embed m tokenId
  let pleEmbedsFlat ← pleEmbeds m tokenId
  let projW ← m.weights .perLayerModelProjection
  let pleProjFlat := cpuMatmul hidden projW 1 cfg.hiddenSize cfg.totalPle
  let pleInputs ← pleInputs m pleEmbedsFlat pleProjFlat
  pure (hidden, pleInputs)

/-- The layers of a pass. -/
def passLayers (m : Gemma4Model K) (pos : ℕ) (pleInputs hidden : List K) (n : ℕ) :
    Panics (Caches K) (List K) :=
  (List.range n).foldlM (fun hidden layerIdx => do
    let layerPle ← lift (slice pleInputs (layerIdx * m.config.hiddenSizePerLayerInput)
      ((layerIdx + 1) * m.config.hiddenSizePerLayerInput))
    forwardLayer m layerIdx hidden pos layerPle) hidden

/-- `forward_n_layers`. -/
def forwardNLayers (m : Gemma4Model K) (tokenId pos nLayers : ℕ) : Panics (Caches K) (List K) := do
  let (hidden, pleInputs) ← lift (passInputs m tokenId)
  passLayers m pos pleInputs hidden (min nLayers m.config.numHiddenLayers)

/-- `forward` is a pass through all layers and the LM head. -/
theorem forward_eq_pass (m : Gemma4Model K) (tokenId pos : ℕ) :
    forward m tokenId pos =
      forwardNLayers m tokenId pos m.config.numHiddenLayers >>= fun hidden =>
        lift (lmHead m hidden) := by
  unfold forward forwardNLayers passInputs passLayers
  simp only [lift_bind, bind_assoc, Option.pure_def, lift_some, pure_bind, Nat.min_self]

theorem forwardNLayers_sameLive (m : Gemma4Model K) (tokenId pos nLayers : ℕ) {ds : List KvDims} :
    Refines (SameLive ds) (fun _ => True) (forwardNLayers m tokenId pos nLayers)
      (forwardNLayers m tokenId pos nLayers) := by
  unfold forwardNLayers passLayers
  refine .bind (P := fun _ => True) (.lift fun _ _ => trivial) fun p _ =>
    .foldlM (fun hidden i _ _ => ?_) trivial
  exact .bind (.lift fun _ _ => trivial) fun _ _ => forwardLayer_sameLive m i hidden pos _

/-- The raw projections of a layer, and the norms of its heads. -/
def rawProjections (m : Gemma4Model K) (layerIdx : ℕ) (hidden : List K) :
    Option (List K × List K × List K × List K × List K) := do
  let cfg := m.config
  let h := cfg.hiddenSize
  let ln := fun w => m.weights (.layer layerIdx w)
  let inlnW ← ln .inputLayernorm
  let x ← cpuRmsNorm hidden inlnW cfg.rmsNormEps
  let qW ← ln .qProj
  let kW ← ln .kProj
  let vW ← ln .vProj
  let qNormW ← ln .qNorm
  let kNormW ← ln .kNorm
  pure (cpuMatmul x qW 1 h (cfg.qDim layerIdx), cpuMatmul x kW 1 h (cfg.kvDim layerIdx),
    cpuMatmul x vW 1 h (cfg.kvDim layerIdx), qNormW, kNormW)

/-- The queries of a token at a layer, and its key and value: projected from the hidden state,
normalised, the queries and the key rotated to the position. -/
def projectToken (m : Gemma4Model K) (layerIdx : ℕ) (hidden : List K) (pos : ℕ) :
    Option (List K × KvRow K) := do
  let (q, k, v, qNormW, kNormW) ← rawProjections m layerIdx hidden
  rotatedHeads m.config layerIdx q k v qNormW (some kNormW) pos

/-- A layer after its attention. -/
def finishLayer (m : Gemma4Model K) (layerIdx : ℕ) (hidden attnOut layerPle : List K) :
    Option (List K) := do
  let cfg := m.config
  let h := cfg.hiddenSize
  let eps := cfg.rmsNormEps
  let ffnInter := cfg.layerIntermediateSize layerIdx
  let pleDim := cfg.hiddenSizePerLayerInput
  let ln := fun w => m.weights (.layer layerIdx w)
  let oW ← ln .oProj
  let attnProj := cpuMatmul attnOut oW 1 (cfg.qDim layerIdx) h
  let postAttnW ← ln .postAttentionLayernorm
  let attnNormed ← cpuRmsNorm attnProj postAttnW eps
  let hidden2 := List.zipWith (· + ·) hidden attnNormed
  let preFfW ← ln .preFeedforwardLayernorm
  let ffIn ← cpuRmsNorm hidden2 preFfW eps
  let gateW ← ln .gateProj
  let upW ← ln .upProj
  let gate := cpuMatmul ffIn gateW 1 h ffnInter
  let up := cpuMatmul ffIn upW 1 h ffnInter
  let mid := List.zipWith (· * ·) (cpuGelu gate) up
  let downW ← ln .downProj
  let ffOut := cpuMatmul mid downW 1 ffnInter h
  let postFfW ← ln .postFeedforwardLayernorm
  let ffNormed ← cpuRmsNorm ffOut postFfW eps
  let hidden3 := List.zipWith (· + ·) hidden2 ffNormed
  let pleGateW ← ln .perLayerInputGate
  let gateOut := cpuMatmul hidden3 pleGateW 1 h pleDim
  let gated := List.zipWith (· * ·) (cpuGelu gateOut) layerPle
  let pleProjW ← ln .perLayerProjection
  let contrib := cpuMatmul gated pleProjW 1 pleDim h
  let pleNormW ← ln .postPerLayerInputNorm
  let contribNormed ← cpuRmsNorm contrib pleNormW eps
  let hidden3 := List.zipWith (· + ·) hidden3 contribNormed
  let scalarData ← ln .layerScalar
  let scalar ← scalarData[0]?
  pure (hidden3.map (· * scalar))

theorem forwardLayer_split (m : Gemma4Model K) (i : ℕ) (hidden : List K) (pos : ℕ)
    (layerPle : List K) :
    forwardLayer m i hidden pos layerPle = (do
      let (q, k, v, qNormW, kNormW) ← lift (rawProjections m i hidden)
      let attnOut ← attention m.config i q k v qNormW (some kNormW) pos
      lift (finishLayer m i hidden attnOut layerPle)) := by
  unfold forwardLayer rawProjections finishLayer
  simp only [lift_bind, bind_assoc, Option.pure_def, lift_some, pure_bind]

/-! ### The targets of the KV-shared layers -/

variable {cfg : Gemma4Config K}

omit [Field K] [LinearOrder K] [Elementary K] in
/-- **The target of a KV-shared layer** is the last layer of its kind before the shared ones. -/
theorem kvSharedTarget_spec (hfirst : 5 ≤ cfg.firstKvSharedLayer) {i : ℕ}
    (hi : cfg.isKvShared i = true) : ∃ t, cfg.kvSharedTarget i = some t ∧
      cfg.isKvShared t = false ∧ cfg.isFullAttention t = cfg.isFullAttention i ∧
      ∀ j, t < j → cfg.isKvShared j = false → cfg.isFullAttention j ≠ cfg.isFullAttention i := by
  simp only [Gemma4Config.isKvShared, decide_eq_true_eq, decide_eq_false_iff_not, ge_iff_le,
    not_le] at hi ⊢
  unfold Gemma4Config.kvSharedTarget
  rw [if_pos hi]
  -- among the first five layers there is one of each kind
  have hexists : ∃ j < cfg.firstKvSharedLayer,
      cfg.isFullAttention j = cfg.isFullAttention i := by
    cases hfull : cfg.isFullAttention i with
    | true => exact ⟨4, by omega, rfl⟩
    | false => exact ⟨0, by omega, rfl⟩
  have hfind : ∀ n, (∃ j < n, cfg.isFullAttention j = cfg.isFullAttention i) →
      ∃ t, (List.range n).reverse.find? (fun j =>
          cfg.isFullAttention j == cfg.isFullAttention i) = some t ∧ t < n ∧
        cfg.isFullAttention t = cfg.isFullAttention i ∧
        ∀ j, t < j → j < n → cfg.isFullAttention j ≠ cfg.isFullAttention i := by
    intro n
    induction n with
    | zero => exact fun ⟨_, hj, _⟩ => absurd hj (Nat.not_lt_zero _)
    | succ n ih =>
      rintro ⟨j, hj, hkind⟩
      rw [List.range_succ, List.reverse_append, List.reverse_singleton, List.singleton_append,
        List.find?_cons]
      by_cases hn : cfg.isFullAttention n = cfg.isFullAttention i
      · rw [hn, beq_self_eq_true]
        exact ⟨n, rfl, Nat.lt_succ_self n, hn, fun j hj hj' => by omega⟩
      · have hlt : j < n := by
          refine lt_of_le_of_ne (Nat.lt_succ_iff.1 hj) fun h => hn ?_
          rw [← h, hkind]
        obtain ⟨t, ht, htn, htkind, hlast⟩ := ih ⟨j, hlt, hkind⟩
        rw [beq_eq_false_iff_ne.2 hn]
        refine ⟨t, ht, by omega, htkind, fun j hj hj' => ?_⟩
        rcases Nat.lt_succ_iff_lt_or_eq.1 hj' with hj' | rfl
        · exact hlast j hj hj'
        · exact hn
  obtain ⟨t, ht, hlt, hkind, hlast⟩ := hfind _ hexists
  refine ⟨t, ?_, hlt, hkind, hlast⟩
  rw [ht, Option.getD_some]

omit [Field K] [LinearOrder K] [Elementary K] in
/-- A layer attends over the cache of a layer that has one of its own, of the same kind. -/
theorem cacheOf_spec (hfirst : 5 ≤ cfg.firstKvSharedLayer) (i : ℕ) :
    ∃ t, cacheOf cfg i = some t ∧ cfg.isKvShared t = false ∧
      cfg.isFullAttention t = cfg.isFullAttention i ∧ cfg.layerHeadDim t = cfg.layerHeadDim i := by
  unfold cacheOf
  cases hi : cfg.isKvShared i with
  | true =>
    obtain ⟨t, ht, hown, hkind, -⟩ := kvSharedTarget_spec hfirst hi
    refine ⟨t, ht, hown, hkind, ?_⟩
    unfold Gemma4Config.layerHeadDim
    rw [hkind]
  | false => exact ⟨i, rfl, hi, rfl, rfl⟩

/-! ### One layer of a pass -/

variable {m : Gemma4Model K} {i : ℕ} {caches caches' : Caches K} {H : ℕ → List (KvRow K)}
  {tokenId pos n : ℕ} {hidden out layerPle : List K}

theorem forwardLayer_holds (hfirst : 5 ≤ m.config.firstKvSharedLayer)
    (h : CachesHold m.config caches H)
    (hout : forwardLayer m i hidden pos layerPle caches = (some out, caches')) :
    ∃ q row t attnOut, projectToken m i hidden pos = some (q, row) ∧
      cacheOf m.config i = some t ∧ CachesHold m.config caches' (addToken m.config i row H) ∧
      (∀ j, j ≠ i ∨ m.config.isKvShared i = true → caches'[j]? = caches[j]?) ∧
      attendTokens m.config i q (lastTokens m.config i (addToken m.config i row H t)) =
        some attnOut ∧
      finishLayer m i hidden attnOut layerPle = some out := by
  rw [forwardLayer_split] at hout
  obtain ⟨⟨q, k, v, qNorm, kNorm⟩, _, hlift, hrest⟩ := bind_eq_some.1 hout
  obtain ⟨hraw, rfl⟩ := lift_eq_some.1 hlift
  obtain ⟨attnOut, caches₁, hattention, hlift'⟩ := bind_eq_some.1 hrest
  obtain ⟨hfinish, rfl⟩ := lift_eq_some.1 hlift'
  have hdim : ∀ t, cacheOf m.config i = some t →
      m.config.layerHeadDim t = m.config.layerHeadDim i := by
    intro t ht
    obtain ⟨t', ht', -, -, hdim⟩ := cacheOf_spec hfirst i
    rw [ht] at ht'
    obtain rfl := Option.some.inj ht'
    exact hdim
  obtain ⟨q', row, t, hrow, ht, -, hhold, hother, hattend⟩ := attention_holds h hdim hattention
  refine ⟨q', row, t, attnOut, ?_, ht, hhold, hother, hattend, hfinish⟩
  simp only [projectToken, hraw, Option.bind_eq_bind, Option.bind_some]
  exact hrow

/-- The per-layer embedding of a token at a layer. -/
def layerPleOf (m : Gemma4Model K) (tokenId i : ℕ) : Option (List K) := do
  let (_, pleInputs) ← passInputs m tokenId
  slice pleInputs (i * m.config.hiddenSizePerLayerInput)
    ((i + 1) * m.config.hiddenSizePerLayerInput)

theorem forwardNLayers_succ (hn : n < m.config.numHiddenLayers) :
    forwardNLayers m tokenId pos (n + 1) caches = (some out, caches') ↔
      ∃ hidden caches₁ layerPle,
        forwardNLayers m tokenId pos n caches = (some hidden, caches₁) ∧
        layerPleOf m tokenId n = some layerPle ∧
        forwardLayer m n hidden pos layerPle caches₁ = (some out, caches') := by
  unfold forwardNLayers layerPleOf passLayers
  rcases passInputs m tokenId with _ | ⟨hidden₀, pleInputs⟩
  · simp [Panics.panic, bind_none]
  · simp only [lift_some, pure_bind, Nat.min_eq_left hn, Nat.min_eq_left hn.le, List.range_succ,
      List.foldlM_append, List.foldlM_cons, List.foldlM_nil, bind_pure, Option.bind_eq_bind,
      Option.bind_some]
    rw [bind_eq_some]
    refine exists_congr fun hidden => exists_congr fun caches₁ => ?_
    rw [exists_and_left]
    refine and_congr_right ?_
    intro _
    rw [bind_eq_some]
    constructor
    · rintro ⟨layerPle, _, hlift, hlayer⟩
      obtain ⟨hslice, rfl⟩ := lift_eq_some.1 hlift
      exact ⟨layerPle, hslice, hlayer⟩
    · rintro ⟨layerPle, hslice, hlayer⟩
      exact ⟨layerPle, caches₁, lift_eq_some.2 ⟨hslice, rfl⟩, hlayer⟩

/-- The key and value that a pass computes at a layer. -/
def passRow (m : Gemma4Model K) (tokenId pos i : ℕ) (caches : Caches K) : Option (KvRow K) := do
  let hidden ← (forwardNLayers m tokenId pos i caches).1
  let (_, row) ← projectToken m i hidden pos
  pure row

/-- The tokens in the caches after `n` layers of a pass. -/
def passTokens (m : Gemma4Model K) (tokenId pos : ℕ) (caches : Caches K) (n : ℕ)
    (H : ℕ → List (KvRow K)) : ℕ → List (KvRow K) := fun i =>
  if i < n ∧ m.config.isKvShared i = false then H i ++ (passRow m tokenId pos i caches).toList
  else H i

theorem passTokens_succ {row : KvRow K} (hrow : passRow m tokenId pos n caches = some row) :
    passTokens m tokenId pos caches (n + 1) H =
      addToken m.config n row (passTokens m tokenId pos caches n H) := by
  funext i
  unfold passTokens addToken
  by_cases hi : i = n
  · subst hi
    cases hshared : m.config.isKvShared i with
    | true => simp
    | false => simp [hrow]
  · have hlt : i < n + 1 ↔ i < n := by omega
    cases m.config.isKvShared n with
    | true => simp [hlt]
    | false => simp [hlt, Function.update_of_ne hi]

/-- **A pass appends one token at every layer with a cache of its own**, and touches no other
cache. -/
theorem forwardNLayers_holds (hfirst : 5 ≤ m.config.firstKvSharedLayer)
    (h : CachesHold m.config caches H) (hn : n ≤ m.config.numHiddenLayers)
    (hout : forwardNLayers m tokenId pos n caches = (some out, caches')) :
    CachesHold m.config caches' (passTokens m tokenId pos caches n H) ∧
      (∀ i < n, ∃ row, passRow m tokenId pos i caches = some row) ∧
      ∀ j, n ≤ j ∨ m.config.isKvShared j = true → caches'[j]? = caches[j]? := by
  induction n generalizing out caches' with
  | zero =>
    have hzero : caches = caches' := by
      unfold forwardNLayers passLayers at hout
      obtain ⟨_, _, hinputs, hpure⟩ := bind_eq_some.1 hout
      obtain ⟨-, rfl⟩ := lift_eq_some.1 hinputs
      rw [Nat.zero_min] at hpure
      exact (pure_eq_some.1 hpure).2
    subst hzero
    refine ⟨?_, fun i hi => absurd hi (Nat.not_lt_zero i), fun _ _ => rfl⟩
    have htokens : passTokens m tokenId pos caches 0 H = H := by
      funext i
      simp [passTokens]
    rwa [htokens]
  | succ n ih =>
    obtain ⟨hidden, caches₁, layerPle, hpass, -, hlayer⟩ := (forwardNLayers_succ hn).1 hout
    obtain ⟨hhold, hrows, hsame⟩ := ih (Nat.le_of_succ_le hn) hpass
    obtain ⟨q, row, t, attnOut, hproject, -, hhold', hother, -, -⟩ :=
      forwardLayer_holds hfirst hhold hlayer
    have hrow : passRow m tokenId pos n caches = some row := by
      simp [passRow, hpass, hproject]
    refine ⟨passTokens_succ hrow ▸ hhold', fun i hi => ?_, fun j hj => ?_⟩
    · rcases Nat.lt_succ_iff_lt_or_eq.1 hi with hi | rfl
      · exact hrows i hi
      · exact ⟨row, hrow⟩
    · -- only layer `n` changes its cache, and only when it is its own
      by_cases hjn : j = n
      · subst hjn
        have hshared : m.config.isKvShared j = true := by
          rcases hj with hj | hj
          · omega
          · exact hj
        rw [hother j (.inr hshared), hsame j (.inr hshared)]
      · rw [hother j (.inl hjn), hsame j (hj.imp_left fun h => by omega)]

/-- **What a layer of a pass attends over**: the tokens of its target's cache, the token of the pass
among them. -/
theorem layer_attends (hfirst : 5 ≤ m.config.firstKvSharedLayer)
    (h : CachesHold m.config caches H) (hi : i < m.config.numHiddenLayers)
    (hout : forwardNLayers m tokenId pos (i + 1) caches = (some out, caches')) :
    ∃ hidden caches₁ layerPle q row t token attnOut,
      forwardNLayers m tokenId pos i caches = (some hidden, caches₁) ∧
      layerPleOf m tokenId i = some layerPle ∧
      projectToken m i hidden pos = some (q, row) ∧
      cacheOf m.config i = some t ∧ m.config.isKvShared t = false ∧
      m.config.isFullAttention t = m.config.isFullAttention i ∧
      m.config.layerHeadDim t = m.config.layerHeadDim i ∧
      passRow m tokenId pos t caches = some token ∧
      (∃ c, caches'[t]? = some c ∧ c.Holds (H t ++ [token])) ∧
      (m.config.isKvShared i = true → caches' = caches₁) ∧
      attendTokens m.config i q (lastTokens m.config i (H t ++ [token])) = some attnOut ∧
      finishLayer m i hidden attnOut layerPle = some out := by
  obtain ⟨hidden, caches₁, layerPle, hpass, hple, hlayer⟩ := (forwardNLayers_succ hi).1 hout
  obtain ⟨hhold, -, -⟩ := forwardNLayers_holds hfirst h (Nat.le_of_lt hi) hpass
  obtain ⟨hhold', hrows, -⟩ := forwardNLayers_holds hfirst h hi hout
  obtain ⟨q, row, t, attnOut, hproject, ht, -, hother, hattend, hfinish⟩ :=
    forwardLayer_holds hfirst hhold hlayer
  have hrow : passRow m tokenId pos i caches = some row := by
    simp [passRow, hpass, hproject]
  obtain ⟨t', ht', hown, hkind, hdim⟩ := cacheOf_spec hfirst i
  obtain rfl : t = t' := Option.some.inj (ht.symm.trans ht')
  -- the target comes no later than the layer itself
  have hle : t ≤ i := by
    unfold cacheOf at ht
    cases hshared : m.config.isKvShared i with
    | true =>
      simp only [Gemma4Config.isKvShared, decide_eq_true_eq, decide_eq_false_iff_not]
        at hown hshared
      omega
    | false =>
      rw [hshared, if_neg Bool.false_ne_true] at ht
      exact (Option.some.inj ht).ge
  obtain ⟨token, htoken⟩ := hrows t (Nat.lt_succ_of_le hle)
  have hlist : passTokens m tokenId pos caches (i + 1) H t = H t ++ [token] := by
    simp [passTokens, Nat.lt_succ_of_le hle, hown, htoken]
  rw [← passTokens_succ hrow, hlist] at hattend
  have hcache : t < caches'.length := by
    rw [hhold'.length]
    omega
  refine ⟨hidden, caches₁, layerPle, q, row, t, token, attnOut, hpass, hple, hproject, ht, hown,
    hkind, hdim, htoken, ⟨_, List.getElem?_eq_getElem hcache, ?_⟩, fun hshared => ?_, hattend,
    hfinish⟩
  · rw [← hlist]
    exact (hhold'.holds t _ (List.getElem?_eq_getElem hcache)).1
  · exact List.ext_getElem? fun j => hother j (.inr hshared)

end Gemma4

end VllmVulkan
