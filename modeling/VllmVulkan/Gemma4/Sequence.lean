import VllmVulkan.Gemma4.Bookkeeping
import VllmVulkan.Gemma4.Total

/-!
# The forward pass over a whole sequence

Without KV caches a sequence goes through the layers as a whole: every layer projects all tokens
again, and every token attends over the keys and values of the tokens up to its own position.  The
model instead takes one token a call and attends over what its caches hold.

* `SeqState`, `seqEmbed`, `seqLayer`, `seqForward` : the pass over a whole sequence;
* `CallRuns` : what the call for one token computes, layer by layer;
* `seqLayers_tokens` : **layer by layer the pass over a sequence computes what the calls for its
  tokens computed**;
* `seqForward_tokens` : so it computes the logits that those calls returned;
* `calls_eq_sequence` : **throughout every sequence of calls the caches replace the recomputation of
  the sequence**.
-/

namespace VllmVulkan

namespace Gemma4

open Panics Machine Sessions

variable {K : Type} [Field K] [LinearOrder K] [Elementary K]

/-! ### The pass over a sequence -/

/-- What the tokens of a sequence carry from layer to layer. -/
structure SeqState (K : Type) where
  /-- The hidden state of every token. -/
  hidden : List (List K)
  /-- The keys and values of every token, at the layers so far that have a cache of their own. -/
  rows : ℕ → List (KvRow K)

/-- The embeddings of a sequence. -/
def seqEmbed (m : Gemma4Model K) (ids : List ℕ) : Option (SeqState K) := do
  let hidden ← ids.mapM fun id => (passInputs m id).map Prod.fst
  pure ⟨hidden, fun _ => []⟩

/-- The queries of the token at `pos` at a layer, and its key and value. -/
def seqHeads (m : Gemma4Model K) (i : ℕ) (s : SeqState K) (pos : ℕ) :
    Option (List K × KvRow K) := do
  let hidden ← s.hidden[pos]?
  projectToken m i hidden pos

/-- The token at `pos` after a layer; it attends over the tokens up to `pos`. -/
def seqToken (m : Gemma4Model K) (ids : List ℕ) (i : ℕ) (s : SeqState K)
    (rows : List (KvRow K)) (pos : ℕ) : Option (List K) := do
  let id ← ids[pos]?
  let hidden ← s.hidden[pos]?
  let (q, _) ← seqHeads m i s pos
  let attnOut ← attendTokens m.config i q (lastTokens m.config i (rows.take (pos + 1)))
  let layerPle ← layerPleOf m id i
  finishLayer m i hidden attnOut layerPle

/-- One layer. -/
def seqLayer (m : Gemma4Model K) (ids : List ℕ) (i : ℕ) (s : SeqState K) :
    Option (SeqState K) := do
  let heads ← (List.range ids.length).mapM (seqHeads m i s)
  let rows := if m.config.isKvShared i then s.rows
    else Function.update s.rows i (heads.map Prod.snd)
  let target ← cacheOf m.config i
  let hidden ← (List.range ids.length).mapM (seqToken m ids i s (rows target))
  pure ⟨hidden, rows⟩

/-- The first layers. -/
def seqLayers (m : Gemma4Model K) (ids : List ℕ) (n : ℕ) : Option (SeqState K) := do
  let s ← seqEmbed m ids
  (List.range n).foldlM (fun s i => seqLayer m ids i s) s

/-- The logits of every token of a sequence. -/
def seqForward (m : Gemma4Model K) (ids : List ℕ) : Option (List (List K)) := do
  let s ← seqLayers m ids m.config.numHiddenLayers
  s.hidden.mapM (lmHead m)

theorem seqLayers_succ (m : Gemma4Model K) (ids : List ℕ) (n : ℕ) :
    seqLayers m ids (n + 1) = (seqLayers m ids n).bind (seqLayer m ids n) := by
  unfold seqLayers
  cases seqEmbed m ids with
  | none => rfl
  | some s =>
    simp only [Option.bind_eq_bind, Option.bind_some, List.range_succ, List.foldlM_append,
      List.foldlM_cons, List.foldlM_nil, bind_pure]

/-! ### The calls for its tokens -/

/-- What the call for the token `t` computes, layer by layer, behind the tokens `tokens`. -/
structure CallRuns (m : VulkanModel K) (tokens : List (TokenCall K)) (t : TokenCall K) :
    Prop where
  position : t.position = tokens.length
  embedded : ∃ hidden st, m.pass t.tokenId t.position 0 t.state = (some hidden, st) ∧
    (passInputs m.inner t.tokenId).map Prod.fst = some hidden
  layers : ∀ i < m.inner.config.numHiddenLayers, LayerAttends m tokens t i
  returned : ∃ hidden st logits,
    m.pass t.tokenId t.position m.inner.config.numHiddenLayers t.state = (some hidden, st) ∧
    lmHead m.inner hidden = some logits ∧
    (m.forward t.tokenId t.position t.state).1 = some logits

/-- Every token of a sequence had its call, behind the tokens in front of it. -/
def CallsRun (m : VulkanModel K) (tokens : List (TokenCall K)) : Prop :=
  ∀ (j : ℕ) (t : TokenCall K), tokens[j]? = some t → CallRuns m (tokens.take j) t

/-- Before layer `n` a sequence carries what the calls for its tokens computed. -/
structure SeqState.Agrees (m : VulkanModel K) (tokens : List (TokenCall K)) (n : ℕ)
    (s : SeqState K) : Prop where
  length : s.hidden.length = tokens.length
  hidden : ∀ (j : ℕ) (t : TokenCall K), tokens[j]? = some t → ∃ hidden st,
    m.pass t.tokenId t.position n t.state = (some hidden, st) ∧ s.hidden[j]? = some hidden
  rows : ∀ i < n, m.inner.config.isKvShared i = false →
    List.Forall₂ (fun t row => tokenRow m i t = some row) tokens (s.rows i)

theorem mapM_range_eq_some {β : Type} {f : ℕ → Option β} {n : ℕ} {ys : List β} :
    (List.range n).mapM f = some ys ↔ ys.length = n ∧ ∀ i < n, f i = ys[i]? := by
  rw [mapM_eq_some, List.forall₂_iff_get]
  simp only [List.length_range, List.get_eq_getElem, List.getElem_range]
  constructor
  · rintro ⟨hlen, hget⟩
    refine ⟨hlen.symm, fun i hi => ?_⟩
    rw [hget i hi (hlen ▸ hi), List.getElem?_eq_getElem]
  · rintro ⟨hlen, hget⟩
    refine ⟨hlen.symm, fun i hi hi' => ?_⟩
    rw [hget i hi, List.getElem?_eq_getElem]

theorem forall₂_eq_some_unique {α β : Type} {f : α → Option β} {xs : List α} {ys zs : List β}
    (hy : List.Forall₂ (fun x y => f x = some y) xs ys)
    (hz : List.Forall₂ (fun x y => f x = some y) xs zs) : ys = zs :=
  Option.some.inj ((mapM_eq_some.2 hy).symm.trans (mapM_eq_some.2 hz))

variable {m : VulkanModel K} {tokens : List (TokenCall K)} {n i : ℕ} {s : SeqState K}

theorem seqEmbed_tokens (h : CallsRun m tokens) :
    ∃ s, seqEmbed m.inner (tokens.map TokenCall.tokenId) = some s ∧ s.Agrees m tokens 0 := by
  have hembed : ∀ t ∈ tokens, ∃ hidden,
      (passInputs m.inner t.tokenId).map Prod.fst = some hidden := by
    intro t ht
    obtain ⟨j, hj⟩ := List.mem_iff_getElem?.1 ht
    obtain ⟨hidden, -, -, hinputs⟩ := (h j t hj).embedded
    exact ⟨hidden, hinputs⟩
  obtain ⟨hiddens, hmap⟩ := mapM_returns hembed
  have hrel := mapM_eq_some.1 hmap
  refine ⟨⟨hiddens, fun _ => []⟩, ?_, ⟨hrel.length_eq.symm, fun j t ht => ?_,
    fun i hi => absurd hi (Nat.not_lt_zero i)⟩⟩
  · have hmap' : tokens.mapM ((fun id => (passInputs m.inner id).map Prod.fst) ∘
        TokenCall.tokenId) = some hiddens := hmap
    rw [seqEmbed, List.mapM_map, hmap']
    rfl
  · obtain ⟨hj, rfl⟩ := List.getElem?_eq_some_iff.1 ht
    obtain ⟨hidden, st, hpass, hinputs⟩ := (h j _ ht).embedded
    have hj' : j < hiddens.length := hrel.length_eq ▸ hj
    refine ⟨hidden, st, hpass, ?_⟩
    rw [List.getElem?_eq_getElem hj', ← hinputs]
    exact (hrel.get hj hj').symm

omit [Field K] [LinearOrder K] [Elementary K] in
theorem cacheOf_le {cfg : Gemma4Config K} {t : ℕ} (ht : cacheOf cfg i = some t)
    (hown : cfg.isKvShared t = false) : t ≤ i := by
  unfold cacheOf at ht
  cases hshared : cfg.isKvShared i with
  | true =>
    simp only [Gemma4Config.isKvShared, decide_eq_true_eq, decide_eq_false_iff_not]
      at hown hshared
    omega
  | false =>
    rw [hshared, if_neg Bool.false_ne_true] at ht
    exact (Option.some.inj ht).ge

/-- What the call for a token computes at a layer, with the heads of the sequence. -/
theorem CallsRun.layer {j : ℕ} {t : TokenCall K} (h : CallsRun m tokens)
    (hn : n < m.inner.config.numHiddenLayers) (hs : s.Agrees m tokens n)
    (ht : tokens[j]? = some t) : ∃ hidden q row target rows attnOut layerPle hidden' st',
      s.hidden[j]? = some hidden ∧ seqHeads m.inner n s j = some (q, row) ∧
      tokenRow m n t = some row ∧ cacheOf m.inner.config n = some target ∧
      m.inner.config.isKvShared target = false ∧
      List.Forall₂ (fun t row => tokenRow m target t = some row) (tokens.take (j + 1)) rows ∧
      attendTokens m.inner.config n q (lastTokens m.inner.config n rows) = some attnOut ∧
      layerPleOf m.inner t.tokenId n = some layerPle ∧
      finishLayer m.inner n hidden attnOut layerPle = some hidden' ∧
      m.pass t.tokenId t.position (n + 1) t.state = (some hidden', st') := by
  have hcall := h j t ht
  obtain ⟨hidden, st, hpass, hget⟩ := hs.hidden j t ht
  obtain ⟨hidden₁, st₁, hidden', st', layerPle, q, row, target, -, rows, attnOut, hpass₁, hpass',
    hproject, htarget, hown, -, -, -, -, -, hrows, hattend, hple, hfinish⟩ := hcall.layers n hn
  obtain ⟨hsome, -⟩ := Prod.mk.inj (hpass.symm.trans hpass₁)
  obtain rfl := Option.some.inj hsome
  have hpos : t.position = j := by
    obtain ⟨hj, -⟩ := List.getElem?_eq_some_iff.1 ht
    rw [hcall.position, List.length_take, Nat.min_eq_left hj.le]
  rw [hpos] at hproject
  refine ⟨hidden, q, row, target, rows, attnOut, layerPle, hidden', st', hget, ?_, ?_, htarget,
    hown, ?_, hattend, hple, hfinish, hpass'⟩
  · rw [seqHeads, hget]
    exact hproject
  · rw [← hpos] at hproject
    simp only [tokenRow, hpass, hproject, Option.bind_eq_bind, Option.bind_some, Option.pure_def]
  · rw [List.take_add_one, ht]
    exact hrows

/-- **One layer** of a sequence computes what that layer of the calls for its tokens computed. -/
theorem seqLayer_tokens (hfirst : 5 ≤ m.inner.config.firstKvSharedLayer)
    (h : CallsRun m tokens) (hn : n < m.inner.config.numHiddenLayers)
    (hs : s.Agrees m tokens n) :
    ∃ s', seqLayer m.inner (tokens.map TokenCall.tokenId) n s = some s' ∧
      s'.Agrees m tokens (n + 1) := by
  have hget : ∀ j < tokens.length, ∃ t, tokens[j]? = some t :=
    fun j hj => ⟨tokens[j], List.getElem?_eq_getElem hj⟩
  obtain ⟨heads, hheads⟩ :
      ∃ heads, (List.range tokens.length).mapM (seqHeads m.inner n s) = some heads := by
    refine mapM_returns fun j hj => ?_
    obtain ⟨t, ht⟩ := hget j (List.mem_range.1 hj)
    obtain ⟨-, q, row, -, -, -, -, -, -, -, hhead, -⟩ := h.layer hn hs ht
    exact ⟨(q, row), hhead⟩
  obtain ⟨hlen, hhead⟩ := mapM_range_eq_some.1 hheads
  -- the keys and values of layer `n`, when it has a cache of its own
  have hnew : List.Forall₂ (fun t row => tokenRow m n t = some row) tokens
      (heads.map Prod.snd) := by
    refine List.forall₂_iff_get.2 ⟨by rw [List.length_map, hlen], fun j hj hj' => ?_⟩
    obtain ⟨-, q, row, -, -, -, -, -, -, -, hq, hrow, -⟩ :=
      h.layer hn hs (List.getElem?_eq_getElem hj)
    rw [hhead j hj] at hq
    obtain ⟨hj₁, hval⟩ := List.getElem?_eq_some_iff.1 hq
    simp only [List.get_eq_getElem, List.getElem_map, hval]
    exact hrow
  set rows := if m.inner.config.isKvShared n then s.rows
    else Function.update s.rows n (heads.map Prod.snd) with hrowsdef
  have hrows : ∀ i < n + 1, m.inner.config.isKvShared i = false →
      List.Forall₂ (fun t row => tokenRow m i t = some row) tokens (rows i) := by
    intro i hi hown
    by_cases hin : i = n
    · subst hin
      rw [hrowsdef, hown, if_neg Bool.false_ne_true, Function.update_self]
      exact hnew
    · have hlt : i < n := by omega
      have hrow : rows i = s.rows i := by
        rw [hrowsdef]
        split_ifs
        · rfl
        · exact Function.update_of_ne hin _ _
      rw [hrow]
      exact hs.rows i hlt hown
  obtain ⟨target, htarget, hown, -, -⟩ := cacheOf_spec hfirst n
  have hle : target < n + 1 := Nat.lt_succ_of_le (cacheOf_le htarget hown)
  have hids : ∀ (j : ℕ) (t : TokenCall K), tokens[j]? = some t →
      (tokens.map TokenCall.tokenId)[j]? = some t.tokenId := by
    intro j t ht
    rw [List.getElem?_map, ht, Option.map_some]
  -- every token attends over the rows up to its own
  have htoken : ∀ (j : ℕ) (t : TokenCall K), tokens[j]? = some t → ∃ hidden' st',
      m.pass t.tokenId t.position (n + 1) t.state = (some hidden', st') ∧
      seqToken m.inner (tokens.map TokenCall.tokenId) n s (rows target) j = some hidden' := by
    intro j t ht
    obtain ⟨hidden, q, row, target', rows', attnOut, layerPle, hidden', st', hhidden, hq, -,
      htarget', -, hrows', hattend, hple, hfinish, hpass⟩ := h.layer hn hs ht
    obtain rfl : target = target' := Option.some.inj (htarget.symm.trans htarget')
    obtain rfl : rows' = (rows target).take (j + 1) :=
      forall₂_eq_some_unique hrows' (List.forall₂_take (j + 1) (hrows target hle hown))
    refine ⟨hidden', st', hpass, ?_⟩
    simp only [seqToken, hids j t ht, hhidden, hq, hattend, hple, Option.bind_eq_bind,
      Option.bind_some]
    exact hfinish
  obtain ⟨hiddens, hmap⟩ : ∃ hiddens, (List.range tokens.length).mapM
      (seqToken m.inner (tokens.map TokenCall.tokenId) n s (rows target)) = some hiddens := by
    refine mapM_returns fun j hj => ?_
    obtain ⟨t, ht⟩ := hget j (List.mem_range.1 hj)
    obtain ⟨hidden', -, -, hval⟩ := htoken j t ht
    exact ⟨hidden', hval⟩
  obtain ⟨hlen', hval⟩ := mapM_range_eq_some.1 hmap
  refine ⟨⟨hiddens, rows⟩, ?_, hlen', fun j t ht => ?_, hrows⟩
  · unfold seqLayer
    rw [List.length_map, hheads, Option.bind_eq_bind, Option.bind_some, htarget]
    simp only [Option.bind_eq_bind, Option.bind_some]
    rw [← hrowsdef, hmap]
    rfl
  · obtain ⟨hidden', st', hpass, hres⟩ := htoken j t ht
    refine ⟨hidden', st', hpass, ?_⟩
    rw [← hval j (List.getElem?_eq_some_iff.1 ht).1]
    exact hres

/-- **Layer by layer** the pass over a sequence computes what the calls for its tokens computed. -/
theorem seqLayers_tokens (hfirst : 5 ≤ m.inner.config.firstKvSharedLayer)
    (h : CallsRun m tokens) (hn : n ≤ m.inner.config.numHiddenLayers) :
    ∃ s, seqLayers m.inner (tokens.map TokenCall.tokenId) n = some s ∧ s.Agrees m tokens n := by
  induction n with
  | zero =>
    obtain ⟨s, hs, hagrees⟩ := seqEmbed_tokens h
    refine ⟨s, ?_, hagrees⟩
    rw [seqLayers, hs]
    rfl
  | succ n ih =>
    obtain ⟨s, hs, hagrees⟩ := ih (Nat.le_of_succ_le hn)
    obtain ⟨s', hs', hagrees'⟩ := seqLayer_tokens hfirst h hn hagrees
    exact ⟨s', by rw [seqLayers_succ, hs, Option.bind_some, hs'], hagrees'⟩

/-- **The pass over a sequence** computes the logits that the calls for its tokens returned. -/
theorem seqForward_tokens (hfirst : 5 ≤ m.inner.config.firstKvSharedLayer)
    (h : CallsRun m tokens) :
    ∃ all, seqForward m.inner (tokens.map TokenCall.tokenId) = some all ∧
      List.Forall₂ (fun t logits => (m.forward t.tokenId t.position t.state).1 = some logits)
        tokens all := by
  obtain ⟨s, hs, hagrees⟩ := seqLayers_tokens hfirst h (Nat.le_refl _)
  have hlogits : ∀ (j : ℕ) (t : TokenCall K), tokens[j]? = some t → ∃ hidden logits,
      s.hidden[j]? = some hidden ∧ lmHead m.inner hidden = some logits ∧
      (m.forward t.tokenId t.position t.state).1 = some logits := by
    intro j t ht
    obtain ⟨hidden, st, hpass, hget⟩ := hagrees.hidden j t ht
    obtain ⟨hidden', st', logits, hpass', hhead, hforward⟩ := (h j t ht).returned
    obtain ⟨hsome, -⟩ := Prod.mk.inj (hpass.symm.trans hpass')
    obtain rfl := Option.some.inj hsome
    exact ⟨hidden, logits, hget, hhead, hforward⟩
  obtain ⟨all, hall⟩ : ∃ all, s.hidden.mapM (lmHead m.inner) = some all := by
    refine mapM_returns fun hidden hmem => ?_
    obtain ⟨j, hj⟩ := List.mem_iff_getElem?.1 hmem
    have hlt : j < tokens.length := hagrees.length ▸ (List.getElem?_eq_some_iff.1 hj).1
    obtain ⟨hidden', logits, hget, hhead, -⟩ := hlogits j _ (List.getElem?_eq_getElem hlt)
    obtain rfl := Option.some.inj (hj.symm.trans hget)
    exact ⟨logits, hhead⟩
  have hrel := mapM_eq_some.1 hall
  refine ⟨all, by rw [seqForward, hs]; exact hall, List.forall₂_iff_get.2
    ⟨hagrees.length.symm.trans hrel.length_eq, fun j hj hj' => ?_⟩⟩
  obtain ⟨hidden, logits, hget, hhead, hforward⟩ := hlogits j _ (List.getElem?_eq_getElem hj)
  obtain ⟨hj₁, hval⟩ := List.getElem?_eq_some_iff.1 hget
  have hhead' := hrel.get hj₁ hj'
  simp only [List.get_eq_getElem, hval, hhead] at hhead'
  rw [List.get_eq_getElem, List.get_eq_getElem, ← Option.some.inj hhead']
  exact hforward

/-! ### Sequences of calls -/

/-- The model of a session was given the tokens of the session since the last reset, each at its
position, and each call returned. -/
def Session.Fed (m : VulkanModel K) (s : Session K) : Prop :=
  (∃ fresh H, BooksInv m fresh s H) ∧ CallsRun m s.tokens

variable {st st' : GpuState K} {logits : List K} {id : ℕ}

omit [Field K] [LinearOrder K] [Elementary K] in
theorem CachesHold.reset {cfg : Gemma4Config K} {caches : Caches K} {H : ℕ → List (KvRow K)}
    (h : CachesHold cfg caches H) : CachesHold cfg (Gemma4.resetKvCache caches) fun _ => [] := by
  refine ⟨by rw [Gemma4.resetKvCache, List.length_map, h.length], fun i c hc => ?_⟩
  simp only [Gemma4.resetKvCache, List.getElem?_map, Option.map_eq_some_iff] at hc
  obtain ⟨c, hc, rfl⟩ := hc
  obtain ⟨hholds, hheads, hdim⟩ := h.holds i c hc
  exact ⟨hholds.reset, hheads, hdim⟩

theorem Session.Fed.nil (hst : Mirrors m st st.kvCaches)
    (hhold : CachesHold m.inner.config st.kvCaches fun _ => []) : Session.Fed m ⟨st, []⟩ := by
  refine ⟨⟨st.kvCaches, fun _ => [], hst, ?_, hhold, fun _ _ _ => .nil, fun _ _ => rfl⟩, ?_⟩
  · intro j t ht
    cases ht
  · intro j t ht
    cases ht

theorem Session.Fed.reset {s : Session K} (h : s.Fed m) : Session.Fed m
    ⟨{ s.state with kvCaches := Gemma4.resetKvCache s.state.kvCaches }, []⟩ := by
  obtain ⟨⟨fresh, H, hbooks⟩, -⟩ := h
  exact .nil ⟨rfl, hbooks.mirrors.2⟩ hbooks.holds.reset

theorem BooksInv.callRuns {fresh : Caches K} {H : ℕ → List (KvRow K)} {t : TokenCall K}
    (h : BooksInv m fresh ⟨t.state, tokens⟩ H) (hfirst : 5 ≤ m.inner.config.firstKvSharedLayer)
    (hm : m.engine = true → WellShaped m.inner ∧ Uploaded m)
    (hforward : m.forward t.tokenId t.position t.state = (some logits, st'))
    (hpos : t.position = tokens.length) : CallRuns m tokens t := by
  obtain ⟨hidden, stL, hpassL⟩ := VulkanModel.pass_of_forward hforward
  refine ⟨hpos, ?_, (BooksInv.token h hfirst hm hforward hpos).2, ?_⟩
  · -- no layer yet: the embedding
    obtain ⟨hidden₀, st₀, hpass₀⟩ := VulkanModel.pass_prefix (Nat.zero_le _) (Nat.le_refl _) hpassL
    refine ⟨hidden₀, st₀, hpass₀, ?_⟩
    obtain ⟨caches, hcpu, -, -⟩ :=
      VulkanModel.pass_follows hm t.state _ hidden₀ st₀ h.mirrors hpass₀
    obtain ⟨inputs, _, hlift, hrest⟩ := bind_eq_some.1 hcpu
    obtain ⟨hinputs, rfl⟩ := lift_eq_some.1 hlift
    rw [hinputs, Option.map_some]
    exact congrArg some (pure_eq_some.1 hrest).1
  · -- the LM head of the last hidden state
    obtain ⟨caches, hcpu, -, -⟩ := VulkanModel.pass_follows hm t.state _ hidden stL h.mirrors hpassL
    obtain ⟨_, hcpu', -, -⟩ :=
      VulkanModel.forward_follows hm t.state _ logits st' h.mirrors hforward
    rw [forward_eq_pass] at hcpu'
    obtain ⟨hidden', _, hall, hhead⟩ := bind_eq_some.1 hcpu'
    rw [hcpu] at hall
    cases hall
    exact ⟨hidden, stL, logits, hpassL, (lift_eq_some.1 hhead).1, by rw [hforward]⟩

theorem CallsRun.append {t : TokenCall K} (h : CallsRun m tokens) (ht : CallRuns m tokens t) :
    CallsRun m (tokens ++ [t]) := by
  intro j t' hj
  rcases Nat.lt_trichotomy j tokens.length with hlt | rfl | hgt
  · rw [List.getElem?_append_left hlt] at hj
    rw [List.take_append_of_le_length hlt.le]
    exact h j t' hj
  · rw [List.getElem?_concat_length] at hj
    obtain rfl := Option.some.inj hj
    rwa [List.take_left]
  · rw [List.getElem?_eq_none (by simp; omega)] at hj
    cases hj

/-- **One token** at the position behind those of the session. -/
theorem Session.Fed.token {s : Session K} (h : s.Fed m)
    (hfirst : 5 ≤ m.inner.config.firstKvSharedLayer)
    (hm : m.engine = true → WellShaped m.inner ∧ Uploaded m)
    (hforward : m.forward id s.tokens.length s.state = (some logits, st')) :
    Session.Fed m ⟨st', s.tokens ++ [⟨s.state, id, s.tokens.length⟩]⟩ := by
  obtain ⟨⟨fresh, H, hbooks⟩, hcalls⟩ := h
  refine ⟨⟨fresh, ?_⟩, hcalls.append ?_⟩
  · exact (BooksInv.token (t := ⟨s.state, id, s.tokens.length⟩) hbooks hfirst hm hforward rfl).1
  · exact BooksInv.callRuns (t := ⟨s.state, id, s.tokens.length⟩) hbooks hfirst hm hforward rfl

/-- What a call returns, from the logits of its token. -/
def ModelCall.answer (sort : UnstableSort K) {β : Type} : ModelCall K β → List K → Option β
  | .resetKvCache, _ => some ()
  | .forward _ _, logits => some logits
  | .forwardAndSample _ _ temperature topP topK uniformRandom, logits =>
    sampleWithTemperature sort logits temperature topP topK uniformRandom

theorem exec_eq_answer (sort : UnstableSort K) {β : Type} {c : ModelCall K β} {pos : ℕ}
    (htoken : c.token = some (id, pos)) (hforward : m.forward id pos st = (some logits, st')) :
    (object m sort).exec c st = (c.answer sort logits, st') := by
  cases c with
  | resetKvCache => cases htoken
  | forward t p =>
    cases htoken
    exact hforward
  | forwardAndSample t p temperature topP topK u =>
    cases htoken
    exact bind_some hforward

theorem getLast?_logits {t : TokenCall K} {all : List (List K)}
    (h : List.Forall₂ (fun t logits => (m.forward t.tokenId t.position t.state).1 = some logits)
      (tokens ++ [t]) all) (hforward : (m.forward t.tokenId t.position t.state).1 = some logits) :
    all.getLast? = some logits := by
  have hlen : all.length = tokens.length + 1 := by
    rw [← h.length_eq, List.length_append, List.length_singleton]
  have hlast := h.get (i := tokens.length) (by simp) (by omega)
  rw [List.get_eq_getElem, List.getElem_concat_length rfl, hforward] at hlast
  rw [List.getLast?_eq_getElem?, hlen, Nat.add_sub_cancel, List.getElem?_eq_getElem (by omega)]
  exact hlast.symm

/-- **The KV caches replace the recomputation of the sequence.**  In every sequence of calls that
return, each token at the position behind the tokens since the last reset, one pass over the whole
sequence, without caches, computes the logits of all the calls since the last reset at once, and
what the last call returned comes from the last of them. -/
theorem calls_eq_sequence (m : VulkanModel K) (sort : UnstableSort K) (maxSeqLen : ℕ)
    (allocs : ℕ → Bool) (hfirst : 5 ≤ m.inner.config.firstKvSharedLayer)
    (hm : m.engine = true → WellShaped m.inner ∧ Uploaded m) (calls : List (Σ β, ModelCall K β))
    (hcalls : ∀ τ ∈ transitions (callSession m sort) ⟨m.fresh maxSeqLen allocs, []⟩ calls,
      InOrder m sort τ.pre τ.input) :
    ∀ τ ∈ transitions (callSession m sort) ⟨m.fresh maxSeqLen allocs, []⟩ calls,
      ∀ tokenId position, τ.input.2.token = some (tokenId, position) → ∃ all logits,
        seqForward m.inner (τ.pre.tokens.map TokenCall.tokenId ++ [tokenId]) = some all ∧
        List.Forall₂ (fun t logits => (m.forward t.tokenId t.position t.state).1 = some logits)
          (τ.pre.tokens ++ [⟨τ.pre.state, tokenId, position⟩]) all ∧
        all.getLast? = some logits ∧
        ((object m sort).exec τ.input.2 τ.pre.state).1 = τ.input.2.answer sort logits := by
  have hstep : ∀ (s : Session K) (c : Σ β, ModelCall K β), s.Fed m → InOrder m sort s c →
      (callSession m sort s c).1.Fed m := by
    intro s c h hok
    rcases htoken : c.2.token with _ | ⟨id, pos⟩
    · rw [callSession_reset htoken]
      exact h.reset
    · obtain ⟨logits, st', hforward, hpost⟩ := callSession_token htoken hok.returns
      obtain rfl := hok.position id pos htoken
      rw [hpost]
      exact h.token hfirst hm hforward
  have hstart : Session.Fed m ⟨m.fresh maxSeqLen allocs, []⟩ :=
    ⟨⟨_, _, BooksInv.start maxSeqLen allocs⟩, fun j t ht => nomatch ht⟩
  refine forall_transitions hstep (fun s c h hok => ?_) hstart hcalls
  intro id pos htoken
  obtain ⟨logits, st', hforward, -⟩ := callSession_token htoken hok.returns
  obtain rfl := hok.position id pos htoken
  obtain ⟨all, hall, hlogits⟩ := seqForward_tokens hfirst (h.token hfirst hm hforward).2
  rw [List.map_append] at hall
  refine ⟨all, logits, hall, hlogits, getLast?_logits hlogits (by rw [hforward]), ?_⟩
  rw [exec_eq_answer sort htoken hforward]

attribute [local instance] elementaryTaylor

/-- Six layers, the last of them KV-shared, on the GPU. -/
theorem calls_eq_sequence_filledModel :
    (transitions (callSession (filledModel ℚ) stableSort)
      ⟨(filledModel ℚ).fresh 3 fun _ => true, []⟩ fiveCalls).Forall fun τ =>
        ∀ tokenId position, τ.input.2.token = some (tokenId, position) → ∃ all logits,
          seqForward (filledModel ℚ).inner
            (τ.pre.tokens.map TokenCall.tokenId ++ [tokenId]) = some all ∧
          List.Forall₂ (fun t logits =>
            ((filledModel ℚ).forward t.tokenId t.position t.state).1 = some logits)
            (τ.pre.tokens ++ [⟨τ.pre.state, tokenId, position⟩]) all ∧
          all.getLast? = some logits ∧
          ((object (filledModel ℚ) stableSort).exec τ.input.2 τ.pre.state).1 =
            τ.input.2.answer stableSort logits := by
  refine List.forall_iff_forall_mem.2 (calls_eq_sequence (filledModel ℚ) stableSort 3
    (fun _ => true) (by decide) (fun _ => ⟨wellShaped_filledModel ℚ, uploaded_filledModel ℚ⟩)
    fiveCalls ?_)
  decide +kernel

end Gemma4

end VllmVulkan
