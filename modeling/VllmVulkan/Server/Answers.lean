import VllmVulkan.Gemma4.Draws
import VllmVulkan.Gemma4.Rope
import VllmVulkan.Gemma4.Upload
import VllmVulkan.Server.Autoregress
import VllmVulkan.Server.Capacity

/-!
# Requests that are answered

With the whole model loaded, a request whose prompt and answer fit into the KV caches never meets a
panic.

* `sampleWithTemperature_returns` : a token is always sampled, and it is one of the vocabulary;
* `Ready` : the model can take the token at a position;
* `Ready.exec` : so it can take the next one;
* `prefill_returns`, `decode_returns`, `generate_returns` : the calls of a request;
* `served_result` : the result is the one it gets alone;
* `generate_autoregressive` : **every request that nobody disturbs gets the answer without caches**;
* `generate_completes` : **a request that fits and that nobody disturbs is answered**.
-/

namespace VllmVulkan

namespace Server

open Gemma4 Machine Panics Sessions

variable {K : Type} [Field K] [LinearOrder K] [Elementary K]

/-! ### Sampling -/

omit [Elementary K] in
theorem nucleus_ne_nil (mass : ℕ → K) (topP : K) {order : List ℕ} (hne : order ≠ [])
    (cumsum : K) : nucleus mass topP order cumsum ≠ [] := by
  cases order with
  | nil => exact absurd rfl hne
  | cons idx order =>
    rw [nucleus]
    split_ifs
    · exact List.cons_ne_nil _ _
    · exact List.cons_ne_nil _ _

omit [Elementary K] in
theorem select_returns (prob : ℕ → K) (topP u : K) {order : List ℕ} (hne : order ≠ []) :
    ∃ idx ∈ order, select prob topP u order = some idx := by
  unfold select
  dsimp only
  generalize hmass : (fun idx => prob idx / (order.map prob).sum) = mass
  generalize hnucleus : nucleus mass topP order 0 = candidates
  have hsub : candidates ⊆ order := hnucleus ▸ nucleus_subset mass topP order 0
  have hcand : candidates ≠ [] := hnucleus ▸ nucleus_ne_nil mass topP hne 0
  rcases hpick : pick (fun idx => prob idx / (candidates.map prob).sum) u candidates 0 with _ | idx
  · -- rounding left the draw above all masses: the last candidate
    refine ⟨candidates.getLast hcand, hsub (List.getLast_mem hcand), ?_⟩
    rw [Option.none_or, List.getLast?_eq_some_getLast hcand]
  · obtain ⟨i, hi, -⟩ := pick_eq_some.1 hpick
    exact ⟨idx, hsub (List.mem_of_getElem? hi), rfl⟩

/-- **A token is always sampled**, and it is one of the vocabulary. -/
theorem sampleWithTemperature_returns (sort : UnstableSort K) {logits : List K}
    (hne : logits ≠ []) (temperature topP : K) (topK : ℤ) (u : K) :
    ∃ token < logits.length,
      sampleWithTemperature sort logits temperature topP topK u = some token := by
  by_cases ht : temperature < 1 / 100
  · exact ⟨argmax logits, (argmax_spec hne).lt_length, by rw [sampleWithTemperature, if_pos ht]⟩
  · have hpos : 0 < logits.length := List.length_pos_iff.2 hne
    have hcount : 0 < topKCount topK logits.length := topKCount_pos hpos
    have hlen : (sort.order (probabilities logits temperature)).length = logits.length := by
      rw [sort.length_order, length_probabilities]
    have hcandidates : (sort.order (probabilities logits temperature)).take
        (topKCount topK logits.length) ≠ [] := by
      rw [← List.length_pos_iff, List.length_take]
      omega
    obtain ⟨token, hmem, hselect⟩ := select_returns
      (fun idx => (probabilities logits temperature).getD idx 0) topP u hcandidates
    refine ⟨token, ?_, by rw [sampleWithTemperature_eq_select sort logits topK ht, hselect]⟩
    have hlt := sort.mem_order.1 (List.mem_of_mem_take hmem)
    rwa [length_probabilities] at hlt

/-! ### The calls of a request -/

variable {m : VulkanModel K} (sort : UnstableSort K) {maxSeqLen pos id : ℕ} {st st' : GpuState K}

theorem forward_refines (hm : m.engine = true → Loaded m) (tokenId position : ℕ) :
    Refines (Mirrors m) (fun _ => True) (m.forward tokenId position)
      (Gemma4.forward m.inner tokenId position) := by
  unfold VulkanModel.forward
  split_ifs with hengine
  · obtain ⟨hW, hU, hdim, hkeys⟩ := hm hengine
    exact forwardGpu_refines hW hU hdim hkeys tokenId position
  · exact .zoom (fun _ _ h => h.1)
      (fun _ _ _ h => ⟨rfl, h.2⟩) fun _ _ _ => trivial

/-- A model with all its weights, of sizes that go together. -/
structure Complete (m : VulkanModel K) : Prop where
  wellShaped : WellShaped m.inner
  sizes : Sizes m.inner.config
  loaded : m.engine = true → Loaded m

/-- The model can take the token at `pos`. -/
structure Ready (m : VulkanModel K) (maxSeqLen pos : ℕ) (st : GpuState K) : Prop where
  atToken : AtToken m maxSeqLen pos st
  fit : CachesFit m.inner.config st.kvCaches

/-- **A token for which there is room** gets its logits. -/
theorem Ready.forward (h : Ready m maxSeqLen pos st) (hm : Complete m)
    (hid : id < m.inner.config.vocabSize) (hpos : pos < maxSeqLen) :
    ∃ logits st', m.forward id pos st = (some logits, st') ∧
      logits.length = m.inner.config.vocabSize ∧ CachesFit m.inner.config st'.kvCaches := by
  have hW := hm.wellShaped
  have hroom : ∀ i, m.inner.config.isKvShared i = false → HasRoom st.kvCaches i := by
    intro i hown c hc
    rw [h.atToken.inv.maxSeqLen_eq hc, h.atToken.cached i c hown hc]
    exact hpos
  obtain ⟨hidden, caches, hpass, hlen, hfit, -⟩ :=
    forwardNLayers_returns pos hW hm.sizes hid h.fit hroom (Nat.le_refl _)
  obtain ⟨lmW, hlmW, -⟩ := hW.loaded .embedTokens trivial
  obtain ⟨normW, hnormW, hnormLen⟩ := hW.loaded .norm trivial
  have hhead := lmHead_eq hW.hiddenSize hlen hlmW hnormW hnormLen
  have hcpu : Gemma4.forward m.inner id pos st.kvCaches =
      (some (logits m.inner.config lmW normW hidden), caches) := by
    rw [forward_eq_pass]
    exact bind_eq_some.2 ⟨hidden, caches, hpass, lift_eq_some.2 ⟨hhead, rfl⟩⟩
  obtain ⟨hout, hpost, -⟩ := forward_refines hm.loaded id pos st st.kvCaches h.atToken.inv.mirrors
  rw [hcpu] at hout hpost
  refine ⟨_, _, Prod.ext hout rfl, by simp [logits], ?_⟩
  rw [hpost.1]
  exact hfit

theorem Ready.exec (h : Ready m maxSeqLen pos st) (hm : Complete m)
    (hid : id < m.inner.config.vocabSize) (hpos : pos < maxSeqLen) {β : Type} {c : ModelCall K β}
    (htoken : c.token = some (id, pos)) {P : β → Prop}
    (hanswer : ∀ logits : List K, logits.length = m.inner.config.vocabSize →
      ∃ b, c.answer sort logits = some b ∧ P b) :
    ∃ b st', (object m sort).exec c st = (some b, st') ∧ P b ∧ Ready m maxSeqLen (pos + 1) st' := by
  obtain ⟨logits, st', hforward, hlen, hfit⟩ := h.forward hm hid hpos
  obtain ⟨b, hb, hP⟩ := hanswer logits hlen
  have hexec : (object m sort).exec c st = (some b, st') := by
    rw [exec_eq_answer sort htoken hforward, hb]
  exact ⟨b, st', hexec, hP, h.atToken.call sort htoken hexec, hfit⟩

variable (req : Request K) {α : Type}

theorem sampleNext_exec (h : Ready m maxSeqLen pos st) (hm : Complete m)
    (hid : id < m.inner.config.vocabSize) (hpos : pos < maxSeqLen) (n : ℕ) :
    ∃ next st', (object m sort).exec (.forwardAndSample id pos req.temperature req.topP req.topK
        (req.draws n)) st = (some next, st') ∧ next < m.inner.config.vocabSize ∧
      Ready m maxSeqLen (pos + 1) st' := by
  refine h.exec sort hm hid hpos rfl fun logits hlen => ?_
  have hne : logits ≠ [] := by
    rw [← List.length_pos_iff, hlen]
    exact Nat.zero_lt_of_lt hid
  obtain ⟨token, hlt, hsample⟩ := sampleWithTemperature_returns sort hne req.temperature req.topP
    req.topK (req.draws n)
  exact ⟨token, hsample, hlen ▸ hlt⟩

theorem prefill_returns {tokens : List ℕ} (h : Ready m maxSeqLen pos st) (hm : Complete m)
    (htokens : ∀ id ∈ tokens, id < m.inner.config.vocabSize)
    (hfit : pos + tokens.length ≤ maxSeqLen) {f : Unit → Prog (ModelCall K) α} {P : α → Prop}
    (hf : ∀ st', Ready m maxSeqLen (pos + tokens.length) st' →
      ∃ a, ((f ()).run (object m sort) st').1 = some a ∧ P a) :
    ∃ a, ((prefill (tokens.zipIdx pos) >>= f).run (object m sort) st).1 = some a ∧ P a := by
  induction tokens generalizing pos st with
  | nil => exact hf st h
  | cons id tokens ih =>
    rw [List.length_cons, Nat.add_left_comm, Nat.add_comm] at hf hfit
    rw [List.forall_mem_cons] at htokens
    obtain ⟨logits, st', hcall, -, h'⟩ := h.exec sort (c := .forward id pos)
      (P := fun _ => True) hm htokens.1 (by omega) rfl fun logits _ => ⟨logits, rfl, trivial⟩
    rw [List.zipIdx_cons]
    have hrun := Prog.run_perform_bind (object m sort) hcall
      fun _ => prefill (tokens.zipIdx (pos + 1)) >>= f
    obtain ⟨a, ha, hP⟩ := ih h' htokens.2 (by omega) hf
    exact ⟨a, (congrArg Prod.fst hrun).trans ha, hP⟩

theorem decode_returns {n next : ℕ} {generatedIds : List ℕ} (h : Ready m maxSeqLen pos st)
    (hm : Complete m) (hnext : next < m.inner.config.vocabSize) (hfit : pos + n ≤ maxSeqLen)
    (hids : ∀ id ∈ generatedIds, id < m.inner.config.vocabSize) :
    ∃ out, ((decode req n generatedIds next pos).run (object m sort) st).1 = some out ∧
      (∀ id ∈ out, id < m.inner.config.vocabSize) ∧ out.length ≤ generatedIds.length + n := by
  induction n generalizing generatedIds next pos st with
  | zero => exact ⟨generatedIds, rfl, hids, Nat.le_refl _⟩
  | succ n ih =>
    have hids' : ∀ id ∈ generatedIds ++ [next], id < m.inner.config.vocabSize := by
      intro id hid
      rcases List.mem_append.1 hid with hid | hid
      · exact hids id hid
      · rwa [List.mem_singleton.1 hid]
    unfold decode
    cases hstop : req.isStop next with
    | true =>
      refine ⟨generatedIds ++ [next], rfl, hids', ?_⟩
      rw [List.length_append, List.length_singleton]
      omega
    | false =>
      obtain ⟨token, st', hcall, htoken, h'⟩ := sampleNext_exec sort req h hm
        hnext (by omega) (generatedIds ++ [next]).length
      have hrun := Prog.run_perform_bind (object m sort) hcall
        fun token => decode req n (generatedIds ++ [next]) token (pos + 1)
      obtain ⟨out, hout, hvocab, hlen⟩ := ih h' htoken (by omega) hids'
      refine ⟨out, (congrArg Prod.fst hrun).trans hout, hvocab, ?_⟩
      rw [List.length_append, List.length_singleton] at hlen
      omega

omit [LinearOrder K] [Elementary K] in
theorem ready_reset (h : CachesInv m maxSeqLen st) (hfit : CachesFit m.inner.config st.kvCaches) :
    Ready m maxSeqLen 0 (VulkanModel.resetKvCache st).2 := by
  refine ⟨⟨h.reset.1, fun i c _ hc => ?_⟩, ?_, fun i c hc => ?_⟩
  · obtain ⟨c₀, -, rfl⟩ := List.mem_map.1 (List.mem_of_getElem? hc)
    rfl
  · simp [VulkanModel.resetKvCache, Gemma4.resetKvCache, hfit.length]
  · simp only [VulkanModel.resetKvCache, Gemma4.resetKvCache, List.getElem?_map,
      Option.map_eq_some_iff] at hc
    obtain ⟨c₀, hc₀, rfl⟩ := hc
    obtain ⟨hstride, hk, hv, -⟩ := hfit.fits i c₀ hc₀
    exact ⟨hstride, hk, hv, Nat.zero_le _⟩

/-- A request that fits. -/
structure Request.Fits (m : VulkanModel K) (maxSeqLen : ℕ) (req : Request K) : Prop where
  prompt : req.inputIds ≠ []
  vocabulary : ∀ id ∈ req.inputIds, id < m.inner.config.vocabSize
  room : req.inputIds.length + req.maxNewTokens.toNat ≤ maxSeqLen

theorem generate_returns (h : CachesInv m maxSeqLen st)
    (hfit : CachesFit m.inner.config st.kvCaches) (hm : Complete m) (hreq : req.Fits m maxSeqLen) :
    ∃ out, ((generate req).run (object m sort) st).1 = some out ∧
      (∀ id ∈ out, id < m.inner.config.vocabSize) ∧ out.length ≤ req.maxNewTokens.toNat := by
  have hlast : req.inputIds.getLast? = some (req.inputIds.getLast hreq.prompt) :=
    List.getLast?_eq_some_getLast hreq.prompt
  have hlen : req.inputIds.dropLast.length + 1 = req.inputIds.length := by
    rw [List.length_dropLast]
    exact Nat.sub_add_cancel (List.length_pos_iff.2 hreq.prompt)
  have hroom := hreq.room
  have hvocab : ∀ id ∈ req.inputIds.dropLast, id < m.inner.config.vocabSize :=
    fun id hid => hreq.vocabulary id ((List.dropLast_sublist _).subset hid)
  refine prefill_returns sort (ready_reset h hfit) hm hvocab (by omega) fun st₁ h₁ => ?_
  rw [Nat.zero_add] at h₁
  rw [hlast]
  dsimp only
  rw [← List.length_dropLast]
  obtain ⟨next, st₂, hcall, hnext, h₂⟩ := sampleNext_exec sort req h₁ hm
    (hreq.vocabulary _ (List.getLast_mem hreq.prompt)) (by omega) 0
  rw [hlen] at h₂
  obtain ⟨out, hout, hout', hbound⟩ := decode_returns sort req h₂ hm hnext hroom
    fun id hid => absurd hid List.not_mem_nil
  have hrun := Prog.run_perform_bind (object m sort) hcall fun next =>
    decode req req.maxNewTokens.toNat [] next req.inputIds.length >>=
      fun generatedIds => pure (generatedIds.rdropWhile req.isStop)
  rw [Prog.run_bind_pure, hout] at hrun
  refine ⟨out.rdropWhile req.isStop, congrArg Prod.fst hrun, fun id hid => ?_, ?_⟩
  · exact hout' id ((List.rdropWhile_prefix _ _).subset hid)
  · rw [List.length_nil, Nat.zero_add] at hbound
    exact (List.rdropWhile_prefix _ _).length_le.trans hbound

/-- A request that fits and gets a new model is answered as without caches. -/
theorem generate_fresh (hm : Complete m) (hreq : req.Fits m maxSeqLen) (allocs : ℕ → Bool) :
    ∃ out, ((generate req).run (object m sort) (m.fresh maxSeqLen allocs)).1 = some out ∧
      response m.inner sort req = some out ∧ (∀ id ∈ out, id < m.inner.config.vocabSize) ∧
      out.length ≤ req.maxNewTokens.toNat := by
  obtain ⟨out, hrun, hvocab, hlen⟩ := generate_returns sort req
    (CachesInv.fresh m maxSeqLen allocs).1 (m.fresh_fits maxSeqLen allocs).1 hm hreq
  have hstart : Session.Fed m ⟨m.fresh maxSeqLen allocs, []⟩ :=
    ⟨⟨_, _, BooksInv.start maxSeqLen allocs⟩, fun j t ht => nomatch ht⟩
  have hresponse := generate_run sort hm.sizes.firstKv
    (fun h => ⟨(hm.loaded h).wellShaped, (hm.loaded h).uploaded⟩) hstart hrun
  exact ⟨out, hrun, hresponse, hvocab, hlen⟩

/-- A request that nobody disturbs and that got its turns has the result it gets alone. -/
theorem served_result {ι : Type} [DecidableEq ι] (hm : m.engine = true → Loaded m)
    (allocs : ℕ → Bool) {reqs : ι → Request K} {schedule : List ι} {i : ι}
    (hok : ∀ τ ∈ transitions (machine (object m sort)) (served m maxSeqLen allocs reqs) schedule,
      τ.input = i → τ.pre.Undisturbed (object m sort) i)
    (hturns : turns (reqs i) ≤ schedule.count i) :
    ((finalState (machine (object m sort)) (served m maxSeqLen allocs reqs)
        schedule).progs i).result =
      some ((generate (reqs i)).run (object m sort) (m.fresh maxSeqLen allocs)).1 := by
  obtain ⟨r, hr⟩ := exists_result (O := object m sort) (P := served m maxSeqLen allocs reqs)
    (generate_within (reqs i)) hturns
  have halone := run_eq_alone (object_resets hm sort)
    (VulkanModel.fresh_clean m maxSeqLen allocs allocs)
    (VulkanModel.fresh_clean m maxSeqLen allocs allocs) hok hr
  exact hr.trans (congrArg some halone.symm)

/-- **Every request that nobody disturbs** gets the answer without caches, whatever the other
requests do and whatever the caches were used for before. -/
theorem generate_autoregressive {ι : Type} [DecidableEq ι] {m : VulkanModel K}
    {sort : UnstableSort K} (hfirst : 5 ≤ m.inner.config.firstKvSharedLayer)
    (hm : m.engine = true → Loaded m) (maxSeqLen : ℕ) (allocs : ℕ → Bool) (reqs : ι → Request K)
    (schedule : List ι) (i : ι)
    (hok : ∀ τ ∈ transitions (machine (object m sort)) (served m maxSeqLen allocs reqs) schedule,
      τ.input = i → τ.pre.Undisturbed (object m sort) i) {out : List ℕ}
    (hout : ((finalState (machine (object m sort)) (served m maxSeqLen allocs reqs)
      schedule).progs i).result = some (some out)) :
    response m.inner sort (reqs i) = some out := by
  have halone := run_eq_alone (object_resets hm sort)
    (VulkanModel.fresh_clean m maxSeqLen allocs allocs)
    (VulkanModel.fresh_clean m maxSeqLen allocs allocs) hok hout
  have hstart : Session.Fed m ⟨m.fresh maxSeqLen allocs, []⟩ :=
    ⟨⟨_, _, BooksInv.start maxSeqLen allocs⟩, fun j t ht => nomatch ht⟩
  exact generate_run sort hfirst (fun h => ⟨(hm h).wellShaped, (hm h).uploaded⟩) hstart halone

section

attribute [local instance] realElementary

theorem complete_filledModel : Complete (filledModel ℝ) where
  wellShaped := wellShaped_filledModel ℝ
  sizes := by
    change Sizes (smallConfig ℝ)
    constructor <;> decide
  loaded _ := ⟨wellShaped_filledModel ℝ, uploaded_filledModel ℝ, by decide,
    fun i _ => noMissing_filledModel ℝ i⟩

/-- Two tokens behind a prompt of two. -/
noncomputable def twoMore : Request ℝ where
  inputIds := [2, 1]
  maxNewTokens := 2
  temperature := 1
  topP := (9 / 10 : ℚ)
  topK := 2
  eosTokenId := some 1
  draws _ := 1 / 2

/-- This request and a greedy one. -/
noncomputable def twoRequests : Bool → Request ℝ
  | true => twoMore
  | false => { twoMore with inputIds := [0, 2], temperature := 0 }

/-- The greedy one is answered first. -/
def oneByOne : List Bool := List.replicate 6 false ++ List.replicate 6 true

theorem undisturbed_oneByOne (sort : UnstableSort ℝ) :
    ∀ τ ∈ transitions (machine (object (filledModel ℝ) sort))
      (served (filledModel ℝ) 4 (fun _ => true) twoRequests) oneByOne,
        τ.input = true → τ.pre.Undisturbed (object (filledModel ℝ) sort) true :=
  undisturbed_of_last rfl rfl (by decide) 6

theorem twoMore_fits : (twoRequests true).Fits (filledModel ℝ) 4 :=
  ⟨by decide, by decide, by decide⟩

theorem generate_autoregressive_twoRequests : ∃ out,
    ((finalState (machine (object (filledModel ℝ) (preferring ℝ 0)))
      (served (filledModel ℝ) 4 (fun _ => true) twoRequests) oneByOne).progs true).result =
        some (some out) ∧ response (filledModel ℝ).inner (preferring ℝ 0) twoMore = some out := by
  obtain ⟨out, hrun, -⟩ := generate_fresh (preferring ℝ 0) (twoRequests true)
    complete_filledModel twoMore_fits fun _ => true
  have hresult := served_result (preferring ℝ 0) complete_filledModel.loaded (fun _ => true)
    (undisturbed_oneByOne _) (by decide)
  rw [hrun] at hresult
  exact ⟨out, hresult, generate_autoregressive (by decide) complete_filledModel.loaded 4 _
    twoRequests oneByOne true (undisturbed_oneByOne _) hresult⟩

end

/-- **A request that fits and that nobody disturbs is answered**: once it had its turns, the answer
without caches is there, tokens of the vocabulary and no more of them than it asked for. -/
theorem generate_completes {ι : Type} [DecidableEq ι] {m : VulkanModel K} {sort : UnstableSort K}
    (hm : Complete m) (maxSeqLen : ℕ) (allocs : ℕ → Bool) (reqs : ι → Request K)
    (schedule : List ι) (i : ι) (hreq : (reqs i).Fits m maxSeqLen)
    (hok : ∀ τ ∈ transitions (machine (object m sort)) (served m maxSeqLen allocs reqs) schedule,
      τ.input = i → τ.pre.Undisturbed (object m sort) i)
    (hturns : turns (reqs i) ≤ schedule.count i) :
    ∃ out, ((finalState (machine (object m sort)) (served m maxSeqLen allocs reqs)
        schedule).progs i).result = some (some out) ∧
      response m.inner sort (reqs i) = some out ∧
      (∀ id ∈ out, id < m.inner.config.vocabSize) ∧
      out.length ≤ (reqs i).maxNewTokens.toNat := by
  obtain ⟨out, hrun, hanswer⟩ := generate_fresh sort (reqs i) hm hreq allocs
  exact ⟨out, by rw [served_result sort hm.loaded allocs hok hturns, hrun], hanswer⟩

section

attribute [local instance] realElementary

theorem generate_completes_twoRequests :
    ∃ out, ((finalState (machine (object (filledModel ℝ) (preferring ℝ 0)))
        (served (filledModel ℝ) 4 (fun _ => true) twoRequests) oneByOne).progs true).result =
          some (some out) ∧
      response (filledModel ℝ).inner (preferring ℝ 0) twoMore = some out ∧
      (∀ id ∈ out, id < 3) ∧ out.length ≤ 2 :=
  generate_completes complete_filledModel 4 _ twoRequests oneByOne true twoMore_fits
    (undisturbed_oneByOne _) (by decide)

end

end Server

end VllmVulkan
