import VllmVulkan.Gemma4.Calls
import VllmVulkan.Gemma4.Follow

/-!
# The bookkeeping of the KV caches

A session is the model together with the tokens it was given since the last reset.  The tokens are
not part of the program: they record what the caches should hold.

* `VulkanModel.pass` : the layers of a call, on the GPU or on the CPU;
* `Session`, `callSession`, `InOrder` : sessions, and the calls that continue a sequence;
* `tokenRow` : the key and value of a token at a layer;
* `Books` : **every cache holds exactly the tokens since the last reset**, or none if its layer is
  KV-shared;
* `LayerAttends` : **a layer attends over exactly these tokens**, or the last of them;
* `bookkeeping` : both hold throughout every sequence of calls.
-/

namespace VllmVulkan

namespace Gemma4

open Panics Machine Sessions

variable {K : Type} [Field K] [LinearOrder K] [Elementary K]

/-! ### The layers of a call -/

/-- The first layers of `VulkanModel::forward`. -/
def VulkanModel.pass (m : VulkanModel K) (tokenId pos n : ℕ) : Panics (GpuState K) (List K) :=
  if m.engine then gpuPass m tokenId pos n
  else zoom GpuState.kvCaches (fun st caches => { st with kvCaches := caches })
    (forwardNLayers m.inner tokenId pos n)

variable {m : VulkanModel K} {st st' : GpuState K} {caches caches' : Caches K}
  {tokenId pos n i : ℕ} {out : List K}

omit [Field K] [LinearOrder K] [Elementary K] in
theorem zoom_kvCaches_follows [Field K] {α : Type} {P : α → Prop} (x : Panics (Caches K) α)
    (h : ∀ s a s', x s = (some a, s') → P a) :
    Follows (Mirrors m) P
      (zoom GpuState.kvCaches (fun st caches => { st with kvCaches := caches }) x) x :=
  .of_refines (.zoom (fun _ _ h => h.1) (fun _ _ _ h => ⟨rfl, h.2⟩)
    fun s a hs => h s a _ (Prod.ext hs rfl))

theorem VulkanModel.pass_follows (hm : m.engine = true → WellShaped m.inner ∧ Uploaded m) :
    Follows (Mirrors m) (fun _ => True) (m.pass tokenId pos n)
      (forwardNLayers m.inner tokenId pos n) := by
  unfold VulkanModel.pass
  cases hengine : m.engine with
  | true =>
    obtain ⟨hW, hU⟩ := hm hengine
    exact (gpuPass_follows hW hU tokenId pos n).mono fun _ _ => trivial
  | false => exact zoom_kvCaches_follows _ fun _ _ _ _ => trivial

theorem VulkanModel.forward_follows (hm : m.engine = true → WellShaped m.inner ∧ Uploaded m) :
    Follows (Mirrors m) (fun _ => True) (m.forward tokenId pos)
      (Gemma4.forward m.inner tokenId pos) := by
  unfold VulkanModel.forward
  cases hengine : m.engine with
  | true =>
    obtain ⟨hW, hU⟩ := hm hengine
    exact forwardGpu_follows hW hU tokenId pos
  | false => exact zoom_kvCaches_follows _ fun _ _ _ _ => trivial

theorem VulkanModel.pass_of_forward (h : m.forward tokenId pos st = (some out, st')) :
    ∃ hidden st₁, m.pass tokenId pos m.inner.config.numHiddenLayers st = (some hidden, st₁) := by
  unfold VulkanModel.forward at h
  unfold VulkanModel.pass
  split at h
  · rename_i hengine
    rw [if_pos hengine]
    rw [forwardGpu_eq_pass] at h
    obtain ⟨hidden, st₁, hpass, -⟩ := bind_eq_some.1 h
    exact ⟨hidden, st₁, hpass⟩
  · rename_i hengine
    rw [if_neg hengine]
    obtain ⟨caches, hforward, -⟩ := zoom_eq_some.1 h
    rw [forward_eq_pass] at hforward
    obtain ⟨hidden, caches₁, hpass, -⟩ := bind_eq_some.1 hforward
    exact ⟨hidden, _, zoom_eq_some.2 ⟨caches₁, hpass, rfl⟩⟩

theorem VulkanModel.pass_prefix (hi : i ≤ n) (hn : n ≤ m.inner.config.numHiddenLayers)
    (h : m.pass tokenId pos n st = (some out, st')) :
    ∃ hidden st₁, m.pass tokenId pos i st = (some hidden, st₁) := by
  induction n, hi using Nat.le_induction generalizing out st' with
  | base => exact ⟨out, st', h⟩
  | succ n _ ih =>
    have hprev : ∃ hidden st₁, m.pass tokenId pos n st = (some hidden, st₁) := by
      unfold VulkanModel.pass at h ⊢
      split at h
      · rename_i hengine
        rw [if_pos hengine]
        obtain ⟨hidden, st₁, -, hprev, -⟩ := gpuPass_succ hn h
        exact ⟨hidden, st₁, hprev⟩
      · rename_i hengine
        rw [if_neg hengine]
        obtain ⟨caches, hpass, -⟩ := zoom_eq_some.1 h
        obtain ⟨hidden, caches₁, -, hprev, -, -⟩ := (forwardNLayers_succ hn).1 hpass
        exact ⟨hidden, _, zoom_eq_some.2 ⟨caches₁, hprev, rfl⟩⟩
    obtain ⟨hidden, st₁, hprev⟩ := hprev
    exact ih (Nat.le_of_succ_le hn) hprev

/-! ### Sessions -/

/-- A token that the model was given: the state before the call, and its arguments. -/
structure TokenCall (K : Type) where
  state : GpuState K
  tokenId : ℕ
  position : ℕ

/-- The model, with the tokens since the last reset. -/
structure Session (K : Type) where
  state : GpuState K
  tokens : List (TokenCall K)

omit [Field K] [LinearOrder K] [Elementary K] in
/-- The token of a call, and its position. -/
def ModelCall.token {β : Type} : ModelCall K β → Option (ℕ × ℕ)
  | .resetKvCache => none
  | .forward tokenId position => some (tokenId, position)
  | .forwardAndSample tokenId position _ _ _ _ => some (tokenId, position)

/-- One call; the output says whether it returned. -/
def callSession (m : VulkanModel K) (sort : UnstableSort K) (s : Session K)
    (c : Σ β, ModelCall K β) : Session K × Bool :=
  let (value, state) := (object m sort).exec c.2 s.state
  let tokens := match c.2.token with
    | some (tokenId, position) => s.tokens ++ [⟨s.state, tokenId, position⟩]
    | none => []
  (⟨state, tokens⟩, value.isSome)

/-- The call returns, and a token comes at the position behind the tokens so far. -/
structure InOrder (m : VulkanModel K) (sort : UnstableSort K) (s : Session K)
    (c : Σ β, ModelCall K β) : Prop where
  returns : (callSession m sort s c).2 = true
  position : ∀ tokenId position, c.2.token = some (tokenId, position) → position = s.tokens.length

instance (m : VulkanModel K) (sort : UnstableSort K) (s : Session K) (c : Σ β, ModelCall K β) :
    Decidable (InOrder m sort s c) :=
  decidable_of_iff ((callSession m sort s c).2 = true ∧
      ∀ p ∈ c.2.token, p.2 = s.tokens.length)
    ⟨fun h => ⟨h.1, fun tokenId position ht => h.2 (tokenId, position) ht⟩,
      fun h => ⟨h.returns, fun p hp => h.position p.1 p.2 hp⟩⟩

/-! ### The books -/

/-- The key and value of a token at a layer, from the hidden state that reaches the layer. -/
def tokenRow (m : VulkanModel K) (i : ℕ) (t : TokenCall K) : Option (KvRow K) := do
  let hidden ← (m.pass t.tokenId t.position i t.state).1
  let (_, row) ← projectToken m.inner i hidden t.position
  pure row

/-- A cache of layer `i` holds exactly these tokens: row `j` the key and value of token `j`. -/
structure HoldsTokens (m : VulkanModel K) (i : ℕ) (tokens : List (TokenCall K)) (c : KvCache K) :
    Prop where
  seqLen : c.seqLen = tokens.length
  row : ∀ (j : ℕ) (t : TokenCall K), tokens[j]? = some t → ∃ row, tokenRow m i t = some row ∧
    slice c.k (j * m.inner.config.kvDim i) ((j + 1) * m.inner.config.kvDim i) = some row.k ∧
    slice c.v (j * m.inner.config.kvDim i) ((j + 1) * m.inner.config.kvDim i) = some row.v

/-- **The books of a session**: what its caches hold. -/
structure Books (m : VulkanModel K) (fresh : Caches K) (s : Session K) : Prop where
  /-- Token `j` was given at position `j`. -/
  position : ∀ (j : ℕ) (t : TokenCall K), s.tokens[j]? = some t → t.position = j
  /-- A layer with a cache of its own. -/
  own : ∀ i < m.inner.config.numHiddenLayers, m.inner.config.isKvShared i = false →
    ∃ c, s.state.kvCaches[i]? = some c ∧ HoldsTokens m i s.tokens c
  /-- The cache of a KV-shared layer is the one the model was loaded with. -/
  shared : ∀ i, m.inner.config.isKvShared i = true → s.state.kvCaches[i]? = fresh[i]?

/-- **What layer `i` attends over** in the call for the token `t`, behind the tokens `tokens`: its
target has a cache of its own and is of the same kind; that cache has been extended by `t`; and the
attention is over exactly its tokens, or those of them in the window of the layer. -/
def LayerAttends (m : VulkanModel K) (tokens : List (TokenCall K)) (t : TokenCall K) (i : ℕ) :
    Prop :=
  ∃ hidden st hidden' st' layerPle q row target c rows attnOut,
    m.pass t.tokenId t.position i t.state = (some hidden, st) ∧
    m.pass t.tokenId t.position (i + 1) t.state = (some hidden', st') ∧
    projectToken m.inner i hidden t.position = some (q, row) ∧
    cacheOf m.inner.config i = some target ∧
    m.inner.config.isKvShared target = false ∧
    m.inner.config.isFullAttention target = m.inner.config.isFullAttention i ∧
    m.inner.config.layerHeadDim target = m.inner.config.layerHeadDim i ∧
    st'.kvCaches[target]? = some c ∧ HoldsTokens m target (tokens ++ [t]) c ∧
    (m.inner.config.isKvShared i = true → st'.kvCaches = st.kvCaches) ∧
    List.Forall₂ (fun t row => tokenRow m target t = some row) (tokens ++ [t]) rows ∧
    attendTokens m.inner.config i q (lastTokens m.inner.config i rows) = some attnOut ∧
    layerPleOf m.inner t.tokenId i = some layerPle ∧
    finishLayer m.inner i hidden attnOut layerPle = some hidden'

variable {fresh : Caches K} {s : Session K} {tokens : List (TokenCall K)} {rows : List (KvRow K)}
  {c : KvCache K}

theorem holdsTokens_of_holds (h : c.Holds rows) (hstride : c.stride = m.inner.config.kvDim i)
    (hrows : List.Forall₂ (fun t row => tokenRow m i t = some row) tokens rows) :
    HoldsTokens m i tokens c := by
  refine ⟨h.seqLen.trans hrows.length_eq.symm, fun j t ht => ?_⟩
  obtain ⟨hj, rfl⟩ := List.getElem?_eq_some_iff.1 ht
  have hj' : j < rows.length := hrows.length_eq ▸ hj
  rw [← hstride]
  exact ⟨rows[j], hrows.get hj hj', h.row (List.getElem?_eq_getElem hj')⟩

/-- What carries the books through a session. -/
structure BooksInv (m : VulkanModel K) (fresh : Caches K) (s : Session K)
    (H : ℕ → List (KvRow K)) : Prop where
  mirrors : Mirrors m s.state s.state.kvCaches
  position : ∀ (j : ℕ) (t : TokenCall K), s.tokens[j]? = some t → t.position = j
  holds : CachesHold m.inner.config s.state.kvCaches H
  rows : ∀ i < m.inner.config.numHiddenLayers, m.inner.config.isKvShared i = false →
    List.Forall₂ (fun t row => tokenRow m i t = some row) s.tokens (H i)
  shared : ∀ i, m.inner.config.isKvShared i = true → s.state.kvCaches[i]? = fresh[i]?

theorem BooksInv.books {H : ℕ → List (KvRow K)} (h : BooksInv m fresh s H) : Books m fresh s := by
  refine ⟨h.position, fun i hi hown => ?_, h.shared⟩
  have hlt : i < s.state.kvCaches.length := h.holds.length ▸ hi
  have hc : s.state.kvCaches[i]? = some s.state.kvCaches[i] := List.getElem?_eq_getElem hlt
  exact ⟨_, hc, holdsTokens_of_holds (h.holds.holds i _ hc).1 (h.holds.stride_eq hc)
    (h.rows i hi hown)⟩

/-! ### One call -/

/-- A call with a token that returns is a `forward` that returns. -/
theorem callSession_token {sort : UnstableSort K} {call : Σ β, ModelCall K β}
    (htoken : call.2.token = some (tokenId, pos))
    (hreturns : (callSession m sort s call).2 = true) :
    ∃ logits st', m.forward tokenId pos s.state = (some logits, st') ∧
      (callSession m sort s call).1 = ⟨st', s.tokens ++ [⟨s.state, tokenId, pos⟩]⟩ := by
  obtain ⟨_, c⟩ := call
  cases c with
  | resetKvCache => cases htoken
  | forward t p =>
    cases htoken
    obtain ⟨logits, hlogits⟩ := Option.isSome_iff_exists.1 hreturns
    exact ⟨logits, _, Prod.ext hlogits rfl, rfl⟩
  | forwardAndSample t p temperature topP topK u =>
    cases htoken
    obtain ⟨token, htoken⟩ := Option.isSome_iff_exists.1 hreturns
    have hexec : m.forwardAndSample sort tokenId pos temperature topP topK u s.state =
      (some token, (m.forwardAndSample sort tokenId pos temperature topP topK u s.state).2) :=
      Prod.ext htoken rfl
    obtain ⟨logits, st', hforward, hsample⟩ := bind_eq_some.1 hexec
    obtain ⟨-, hst⟩ := lift_eq_some.1 hsample
    refine ⟨logits, st', hforward, ?_⟩
    rw [hst]
    rfl

theorem callSession_reset {sort : UnstableSort K} {call : Σ β, ModelCall K β}
    (htoken : call.2.token = none) : (callSession m sort s call).1 =
      ⟨{ s.state with kvCaches := Gemma4.resetKvCache s.state.kvCaches }, []⟩ := by
  obtain ⟨_, c⟩ := call
  cases c with
  | resetKvCache => rfl
  | forward t p => cases htoken
  | forwardAndSample t p temperature topP topK u => cases htoken

theorem tokenRow_eq {t : TokenCall K} {st' : GpuState K} {hidden : List K}
    (hm : m.engine = true → WellShaped m.inner ∧ Uploaded m)
    (hst : Mirrors m t.state t.state.kvCaches)
    (hpass : m.pass t.tokenId t.position i t.state = (some hidden, st')) :
    tokenRow m i t = passRow m.inner t.tokenId t.position i t.state.kvCaches := by
  obtain ⟨caches', hcpu, -, -⟩ := VulkanModel.pass_follows hm t.state _ hidden st' hst hpass
  simp only [tokenRow, passRow, hpass, hcpu]

theorem BooksInv.token {t : TokenCall K} {H : ℕ → List (KvRow K)} {logits : List K}
    (h : BooksInv m fresh ⟨t.state, tokens⟩ H) (hfirst : 5 ≤ m.inner.config.firstKvSharedLayer)
    (hm : m.engine = true → WellShaped m.inner ∧ Uploaded m)
    (hforward : m.forward t.tokenId t.position t.state = (some logits, st'))
    (hpos : t.position = tokens.length) :
    (∃ H', BooksInv m fresh ⟨st', tokens ++ [t]⟩ H') ∧
      ∀ i < m.inner.config.numHiddenLayers, LayerAttends m tokens t i := by
  obtain ⟨_, hcpu, hmirrors', -⟩ :=
    VulkanModel.forward_follows hm t.state t.state.kvCaches logits st' h.mirrors hforward
  obtain rfl := hmirrors'.1
  rw [forward_eq_pass] at hcpu
  obtain ⟨hidden, _, hall, hhead⟩ := bind_eq_some.1 hcpu
  obtain ⟨-, rfl⟩ := lift_eq_some.1 hhead
  obtain ⟨hhold, hrows, hsame⟩ := forwardNLayers_holds hfirst h.holds (Nat.le_refl _) hall
  obtain ⟨hiddenL, stL, hpassL⟩ := VulkanModel.pass_of_forward hforward
  -- every layer of the pass was reached, and its row is the one the reference computes
  have hreach : ∀ i ≤ m.inner.config.numHiddenLayers, ∃ hidden st,
      m.pass t.tokenId t.position i t.state = (some hidden, st) :=
    fun i hi => VulkanModel.pass_prefix hi (Nat.le_refl _) hpassL
  have hrow : ∀ i < m.inner.config.numHiddenLayers, ∀ row,
      passRow m.inner t.tokenId t.position i t.state.kvCaches = some row →
      tokenRow m i t = some row := by
    intro i hi row hpassRow
    obtain ⟨hiddenI, stI, hpassI⟩ := hreach i hi.le
    exact (tokenRow_eq hm h.mirrors hpassI).trans hpassRow
  refine ⟨⟨_, hmirrors', fun j t' ht' => ?_, hhold, fun i hi hown => ?_, fun i hshared => ?_⟩,
    fun i hi => ?_⟩
  · rcases Nat.lt_trichotomy j tokens.length with hj | rfl | hj
    · rw [List.getElem?_append_left hj] at ht'
      exact h.position j t' ht'
    · rw [List.getElem?_concat_length] at ht'
      obtain rfl := Option.some.inj ht'
      exact hpos
    · rw [List.getElem?_eq_none (by simp; omega)] at ht'
      cases ht'
  · obtain ⟨row, hpassRow⟩ := hrows i hi
    have hlist : passTokens m.inner t.tokenId t.position t.state.kvCaches
        m.inner.config.numHiddenLayers H i = H i ++ [row] := by
      simp [passTokens, hi, hown, hpassRow]
    rw [hlist]
    exact List.rel_append (h.rows i hi hown) (.cons (hrow i hi row hpassRow) .nil)
  · rw [hsame i (.inr hshared)]
    exact h.shared i hshared
  · obtain ⟨hidden', st₁, hpass'⟩ := hreach (i + 1) hi
    obtain ⟨_, hcpu', hmir, -⟩ := VulkanModel.pass_follows hm t.state _ hidden' st₁ h.mirrors hpass'
    obtain rfl := hmir.1
    obtain ⟨hiddenI, caches₁, layerPle, q, row, target, token, attnOut, hcpuI, hple, hproject,
      htarget, hown, hkind, hdim, htoken, ⟨c, hc, hholds⟩, hunchanged, hattend, hfinish⟩ :=
      layer_attends hfirst h.holds hi hcpu'
    obtain ⟨hiddenI', stI, hpassI⟩ := hreach i hi.le
    obtain ⟨_, hcpuI', hmirI, -⟩ :=
      VulkanModel.pass_follows hm t.state _ hiddenI' stI h.mirrors hpassI
    rw [hcpuI] at hcpuI'
    cases hcpuI'
    obtain ⟨hhold', -, -⟩ := forwardNLayers_holds hfirst h.holds hi hcpu'
    have hlt : target < m.inner.config.numHiddenLayers :=
      hhold'.length ▸ (List.getElem?_eq_some_iff.1 hc).1
    have hrowsT : List.Forall₂ (fun t row => tokenRow m target t = some row) (tokens ++ [t])
        (H target ++ [token]) :=
      List.rel_append (h.rows target hlt hown) (.cons (hrow target hlt token htoken) .nil)
    exact ⟨hiddenI, stI, hidden', st₁, layerPle, q, row, target, c, _, attnOut, hpassI, hpass',
      hproject, htarget, hown, hkind, hdim, hc,
      holdsTokens_of_holds hholds (hhold'.stride_eq hc) hrowsT,
      fun hshared => (hunchanged hshared).trans hmirI.1.symm, hrowsT, hattend, hple, hfinish⟩

theorem BooksInv.reset {H : ℕ → List (KvRow K)} (h : BooksInv m fresh s H)
    (hfresh : ∀ c ∈ fresh, c.seqLen = 0) :
    BooksInv m fresh ⟨{ s.state with kvCaches := Gemma4.resetKvCache s.state.kvCaches }, []⟩
      fun _ => [] := by
  refine ⟨⟨rfl, h.mirrors.2⟩, fun j t ht => (nomatch ht), ⟨?_, fun i c hc => ?_⟩, fun _ _ _ => .nil,
    fun i hshared => ?_⟩
  · rw [Gemma4.resetKvCache, List.length_map, h.holds.length]
  · simp only [Gemma4.resetKvCache, List.getElem?_map, Option.map_eq_some_iff] at hc
    obtain ⟨c, hc, rfl⟩ := hc
    obtain ⟨hholds, hheads, hdim⟩ := h.holds.holds i c hc
    exact ⟨hholds.reset, hheads, hdim⟩
  · simp only [Gemma4.resetKvCache, List.getElem?_map, h.shared i hshared]
    rcases hc : fresh[i]? with _ | c
    · rfl
    · have hzero := hfresh c (List.mem_of_getElem? hc)
      rw [Option.map_some, ← hzero]

/-! ### Sequences of calls -/

theorem BooksInv.start (maxSeqLen : ℕ) (allocs : ℕ → Bool) :
    BooksInv m (m.fresh maxSeqLen allocs).kvCaches ⟨m.fresh maxSeqLen allocs, []⟩ fun _ => [] := by
  refine ⟨⟨rfl, fun mem h => nomatch h⟩, fun j t ht => (nomatch ht), ⟨?_, fun i c hc => ?_⟩,
    fun _ _ _ => .nil, fun _ _ => rfl⟩
  · simp [VulkanModel.fresh]
  · simp only [VulkanModel.fresh, List.getElem?_map, Option.map_eq_some_iff] at hc
    obtain ⟨j, hj, rfl⟩ := hc
    obtain ⟨hlt, rfl⟩ := List.getElem?_eq_some_iff.1 hj
    rw [List.getElem_range]
    exact ⟨KvCache.new_holds _ _ _, rfl, rfl⟩

/-- **The bookkeeping of the KV caches**: in every sequence of calls that return, each token at the
position behind the tokens since the last reset, the books are right after each call, and every
layer of each call attends over exactly the tokens since the last reset, or those in its window. -/
theorem bookkeeping (m : VulkanModel K) (sort : UnstableSort K) (maxSeqLen : ℕ) (allocs : ℕ → Bool)
    (hfirst : 5 ≤ m.inner.config.firstKvSharedLayer)
    (hm : m.engine = true → WellShaped m.inner ∧ Uploaded m) (calls : List (Σ β, ModelCall K β))
    (hcalls : ∀ τ ∈ transitions (callSession m sort) ⟨m.fresh maxSeqLen allocs, []⟩ calls,
      InOrder m sort τ.pre τ.input) :
    ∀ τ ∈ transitions (callSession m sort) ⟨m.fresh maxSeqLen allocs, []⟩ calls,
      Books m (m.fresh maxSeqLen allocs).kvCaches τ.post ∧
      ∀ tokenId position, τ.input.2.token = some (tokenId, position) →
        ∀ i < m.inner.config.numHiddenLayers,
          LayerAttends m τ.pre.tokens ⟨τ.pre.state, tokenId, position⟩ i := by
  have hfresh : ∀ c ∈ (m.fresh maxSeqLen allocs).kvCaches, c.seqLen = 0 := by
    intro c hc
    obtain ⟨i, -, rfl⟩ := List.mem_map.1 hc
    rfl
  have hcall : ∀ (s : Session K) (c : Σ β, ModelCall K β),
      (∃ H, BooksInv m (m.fresh maxSeqLen allocs).kvCaches s H) → InOrder m sort s c →
      (∃ H, BooksInv m (m.fresh maxSeqLen allocs).kvCaches (callSession m sort s c).1 H) ∧
      ∀ tokenId position, c.2.token = some (tokenId, position) →
        ∀ i < m.inner.config.numHiddenLayers,
          LayerAttends m s.tokens ⟨s.state, tokenId, position⟩ i := by
    rintro s c ⟨H, hinv⟩ hok
    rcases htoken : c.2.token with _ | ⟨tokenId, position⟩
    · rw [callSession_reset htoken]
      exact ⟨⟨_, hinv.reset hfresh⟩, fun _ _ h => nomatch h⟩
    · obtain ⟨logits, st', hforward, hpost⟩ := callSession_token htoken hok.returns
      rw [hpost]
      obtain ⟨hinv', hattends⟩ := BooksInv.token (t := ⟨s.state, tokenId, position⟩) hinv hfirst hm
        hforward (hok.position tokenId position htoken)
      refine ⟨hinv', fun t p h i hi => ?_⟩
      cases h
      exact hattends i hi
  have hstep : ∀ (s : Session K) (c : Σ β, ModelCall K β),
      (∃ H, BooksInv m (m.fresh maxSeqLen allocs).kvCaches s H) → InOrder m sort s c →
      ∃ H, BooksInv m (m.fresh maxSeqLen allocs).kvCaches (callSession m sort s c).1 H :=
    fun s c hinv hok => (hcall s c hinv hok).1
  refine forall_transitions hstep (fun s c hinv hok => ?_) ⟨_, .start _ _⟩ hcalls
  obtain ⟨⟨H, hbooks⟩, hattends⟩ := hcall s c hinv hok
  exact ⟨hbooks.books, hattends⟩

/-- Six layers of one element, the last of them KV-shared. -/
def sixLayers : Gemma4Config ℚ := { oneLayer 1 with numHiddenLayers := 6, numKvSharedLayers := 1 }

attribute [local instance] elementaryTaylor

/-- Two tokens, a third one that is sampled, a reset and another token. -/
def fiveCalls : List (Σ β, ModelCall ℚ β) :=
  [⟨_, .forward 2 0⟩, ⟨_, .forward 1 1⟩, ⟨_, .forwardAndSample 0 2 0 1 2 0⟩, ⟨_, .resetKvCache⟩,
    ⟨_, .forward 1 0⟩]

/-- The books of six layers, on the GPU. -/
theorem bookkeeping_filledModel :
    (transitions (callSession (filledModel ℚ) stableSort)
      ⟨(filledModel ℚ).fresh 3 fun _ => true, []⟩ fiveCalls).Forall fun τ =>
        Books (filledModel ℚ) ((filledModel ℚ).fresh 3 fun _ => true).kvCaches τ.post ∧
        ∀ tokenId position, τ.input.2.token = some (tokenId, position) →
          ∀ i < 6, LayerAttends (filledModel ℚ) τ.pre.tokens
            ⟨τ.pre.state, tokenId, position⟩ i := by
  refine List.forall_iff_forall_mem.2 (bookkeeping (filledModel ℚ) stableSort 3 (fun _ => true)
    (by decide) (fun _ => ⟨wellShaped_filledModel ℚ, uploaded_filledModel ℚ⟩) fiveCalls ?_)
  decide +kernel

end Gemma4

end VllmVulkan
