import VllmVulkan.Gemma4.Failed
import VllmVulkan.Server.Generate

/-!
# The KV cache of a request

`generate` feeds the prompt and the sampled tokens to the model without asking how many tokens its
caches hold.

* `InCapacity` : a call at the position behind the cached tokens, for which there is room;
* `decodeCalls` : how many sampled tokens a request feeds back;
* `Fed` : **calls on consecutive positions, up to the first that fails**;
* `generate_fed` : what a request feeds;
* `generate_inCapacity` : **when a request stays within the caches**;
* `twoTokens_overflow` : a request that does not.
-/

namespace VllmVulkan

namespace Server

open Gemma4 Machine Panics Sessions

variable {K : Type} [Field K] [LinearOrder K] [Elementary K]

/-- The calls of a request. -/
abbrev Calls (K : Type) : Type 1 := List (Made (GpuState K) (ModelCall K))

/-- A call with a token is made at the position behind the cached tokens, and there is room. -/
def InCapacity (m : VulkanModel K) (maxSeqLen : ℕ) (e : Made (GpuState K) (ModelCall K)) : Prop :=
  ∀ p ∈ e.call.token, p.2 < maxSeqLen ∧ ∀ i < m.inner.config.numHiddenLayers,
    m.inner.config.isKvShared i = false → ∀ c ∈ e.pre.kvCaches[i]?,
      c.seqLen = p.2 ∧ c.seqLen < c.maxSeqLen

/-- The token that a call sampled. -/
def sample : Made (GpuState K) (ModelCall K) → Option ℕ
  | { call := .forwardAndSample .., value := value, .. } => value
  | _ => none

/-- From the `a`-th one on, `answers` are the tokens that the calls sampled. -/
def Answers (answers : ℕ → ℕ) (a : ℕ) (calls : Calls K) : Prop :=
  ∀ j t, (calls.filterMap sample)[j]? = some t → answers (a + j) = t

/-- How many sampled tokens a request feeds back, of `n` tokens from the `a`-th one on. -/
def fedBack (req : Request K) (answers : ℕ → ℕ) (a n : ℕ) : ℕ :=
  ((List.range' a n).takeWhile fun j => !req.isStop (answers j)).length

/-- How many sampled tokens a request feeds back: those before the first stop token, of the first
`max_new_tokens` ones. -/
def decodeCalls (req : Request K) (answers : ℕ → ℕ) : ℕ :=
  fedBack req answers 0 req.maxNewTokens.toNat

/-- A call that fails although there is room. -/
def FailsWithRoom (maxSeqLen : ℕ) (e : Made (GpuState K) (ModelCall K)) : Prop :=
  e.value.isNone = true ∧ ∀ p ∈ e.call.token, p.2 < maxSeqLen

/-! ### Calls on consecutive positions -/

/-- The caches hold `pos` tokens. -/
structure AtToken (m : VulkanModel K) (maxSeqLen pos : ℕ) (st : GpuState K) : Prop where
  inv : CachesInv m maxSeqLen st
  cached : ∀ (i : ℕ) (c : KvCache K), m.inner.config.isKvShared i = false →
    st.kvCaches[i]? = some c → c.seqLen = pos

/-- A call with the token behind those that are cached. -/
structure Feeds (m : VulkanModel K) (maxSeqLen pos : ℕ) (e : Made (GpuState K) (ModelCall K)) :
    Prop where
  token : ∃ tokenId, e.call.token = some (tokenId, pos)
  pre : AtToken m maxSeqLen pos e.pre

/-- Calls on `n` positions from `pos` on, up to the first that fails. -/
inductive Fed (m : VulkanModel K) (maxSeqLen : ℕ) : ℕ → ℕ → Calls K → Prop where
  | done (pos : ℕ) : Fed m maxSeqLen pos 0 []
  | fails {pos : ℕ} (n : ℕ) {e : Made (GpuState K) (ModelCall K)} (he : Feeds m maxSeqLen pos e)
      (hvalue : e.value.isNone = true) : Fed m maxSeqLen pos (n + 1) [e]
  | next {pos n : ℕ} {e : Made (GpuState K) (ModelCall K)} {calls : Calls K}
      (he : Feeds m maxSeqLen pos e) (hvalue : e.value.isNone = false)
      (h : Fed m maxSeqLen (pos + 1) n calls) : Fed m maxSeqLen pos (n + 1) (e :: calls)

variable {m : VulkanModel K} {maxSeqLen pos : ℕ}

omit [LinearOrder K] [Elementary K] in
theorem Feeds.inCapacity_iff {e : Made (GpuState K) (ModelCall K)} (h : Feeds m maxSeqLen pos e) :
    InCapacity m maxSeqLen e ↔ pos < maxSeqLen := by
  obtain ⟨⟨tokenId, htoken⟩, hinv, hcached⟩ := h
  simp only [InCapacity, htoken, Option.mem_some_iff, forall_eq']
  refine ⟨fun h => h.1, fun hpos => ⟨hpos, fun i _ hown c hc => ?_⟩⟩
  rw [hinv.maxSeqLen_eq hc, hcached i c hown hc]
  exact ⟨rfl, hpos⟩

omit [LinearOrder K] [Elementary K] in
theorem Feeds.failsWithRoom_iff {e : Made (GpuState K) (ModelCall K)}
    (h : Feeds m maxSeqLen pos e) :
    FailsWithRoom maxSeqLen e ↔ e.value.isNone = true ∧ pos < maxSeqLen := by
  obtain ⟨tokenId, htoken⟩ := h.token
  simp only [FailsWithRoom, htoken, Option.mem_some_iff, forall_eq']

omit [LinearOrder K] [Elementary K] in
theorem Fed.not_failsWithRoom {n : ℕ} {calls : Calls K} (h : Fed m maxSeqLen pos n calls)
    (hpos : maxSeqLen ≤ pos) : ∀ e ∈ calls, ¬ FailsWithRoom maxSeqLen e := by
  induction h with
  | done pos => simp
  | fails n he hvalue =>
    intro e hmem
    rw [List.mem_singleton.1 hmem, he.failsWithRoom_iff]
    omega
  | next he hvalue h ih =>
    refine List.forall_mem_cons.2 ⟨?_, ih (Nat.le_succ_of_le hpos)⟩
    rw [he.failsWithRoom_iff]
    omega

omit [LinearOrder K] [Elementary K] in
/-- **All calls stay within the caches** when there is room for all of them, or when one fails
before the end. -/
theorem Fed.inCapacity_iff {n : ℕ} {calls : Calls K} (h : Fed m maxSeqLen pos n calls)
    (hpos : pos ≤ maxSeqLen) :
    (∀ e ∈ calls, InCapacity m maxSeqLen e) ↔
      pos + n ≤ maxSeqLen ∨ ∃ e ∈ calls, FailsWithRoom maxSeqLen e := by
  induction h with
  | done pos => simpa using hpos
  | @fails pos n e he hvalue =>
    simp only [List.mem_singleton, forall_eq, exists_eq_left, he.inCapacity_iff,
      he.failsWithRoom_iff, hvalue, true_and]
    omega
  | @next pos n e calls he hvalue h ih =>
    rw [List.forall_mem_cons, he.inCapacity_iff, List.exists_mem_cons_iff, he.failsWithRoom_iff,
      hvalue]
    rcases Nat.lt_or_ge pos maxSeqLen with hroom | hfull
    · rw [ih hroom]
      simp only [hroom, true_and, Bool.false_eq_true, false_and, false_or, Nat.add_assoc,
        Nat.add_comm 1 n]
    · -- the call at the end is out of room, and no later one has room
      have hlater := h.not_failsWithRoom (Nat.le_succ_of_le hfull)
      refine iff_of_false (fun h => by omega) ?_
      rintro (hle | hfails | ⟨e', he', hfails⟩)
      · omega
      · exact absurd hfails.1 Bool.false_ne_true
      · exact hlater e' he' hfails

/-! ### What a request feeds -/

theorem exec_eq_execWithFaults (sort : UnstableSort K) {β : Type} (c : ModelCall K β) :
    (object m sort).exec c = m.execWithFaults sort (fun _ => none) c := by
  cases c with
  | resetKvCache => rfl
  | forward t p => exact (m.forwardWithFaults_none t p).symm
  | forwardAndSample t p temperature topP topK u =>
    simp only [object, VulkanModel.forwardAndSample, VulkanModel.execWithFaults,
      m.forwardWithFaults_none]

/-- **A call with a token** that returns adds it to the caches. -/
theorem AtToken.call {st st' : GpuState K} (h : AtToken m maxSeqLen pos st) (sort : UnstableSort K)
    {β : Type} {c : ModelCall K β} {tokenId : ℕ} (htoken : c.token = some (tokenId, pos)) {b : β}
    (hcall : (object m sort).exec c st = (some b, st')) : AtToken m maxSeqLen (pos + 1) st' := by
  rw [exec_eq_execWithFaults] at hcall
  rcases execWithFaults_ends m sort (fun _ => none) htoken st.kvCaches st h.inv.mirrors.atLayer with
    ⟨_, _, hreturns, hpost⟩ | ⟨_, hpanics, -⟩
  · rw [hcall] at hreturns
    cases hreturns
    refine ⟨h.inv.atLayer hpost, fun i c' hown hc' => ?_⟩
    obtain ⟨c₀, hc₀, hlen⟩ := hpost.2.before hc'
    rw [hlen, h.cached i c₀ hown hc₀, appended, if_pos ⟨h.inv.lt_numHiddenLayers hc₀, hown⟩]
  · rw [hcall] at hpanics
    cases hpanics

variable {sort : UnstableSort K} {α : Type} {req : Request K} {answers : ℕ → ℕ}

theorem fed_call {β : Type} {c : ModelCall K β} {tokenId n : ℕ} {st : GpuState K}
    (h : AtToken m maxSeqLen pos st) (htoken : c.token = some (tokenId, pos))
    {k : β → Prog (ModelCall K) α}
    (hk : ∀ b st', (object m sort).exec c st = (some b, st') →
      AtToken m maxSeqLen (pos + 1) st' → Fed m maxSeqLen (pos + 1) n
        ((k b).calls (object m sort) st')) :
    Fed m maxSeqLen pos (n + 1) ((Prog.call c k).calls (object m sort) st) := by
  rcases hcall : (object m sort).exec c st with ⟨_ | b, st'⟩
  · rw [Prog.calls_of_none _ hcall]
    exact .fails n ⟨⟨tokenId, htoken⟩, h⟩ rfl
  · rw [Prog.calls_of_some _ hcall]
    exact .next ⟨⟨tokenId, htoken⟩, h⟩ rfl (hk b st' hcall (h.call sort htoken hcall))

theorem prefill_fed {tokens : List ℕ} {n : ℕ} {st : GpuState K} (h : AtToken m maxSeqLen pos st)
    {f : Unit → Prog (ModelCall K) α}
    (hanswers : Answers answers 0 ((prefill (tokens.zipIdx pos) >>= f).calls (object m sort) st))
    (hf : ∀ st', AtToken m maxSeqLen (pos + tokens.length) st' →
      Answers answers 0 ((f ()).calls (object m sort) st') →
      Fed m maxSeqLen (pos + tokens.length) n ((f ()).calls (object m sort) st')) :
    Fed m maxSeqLen pos (tokens.length + n)
      ((prefill (tokens.zipIdx pos) >>= f).calls (object m sort) st) := by
  induction tokens generalizing pos st with
  | nil =>
    rw [List.length_nil, Nat.zero_add]
    exact hf st h hanswers
  | cons tokenId tokens ih =>
    rw [List.length_cons, Nat.add_right_comm]
    rw [List.length_cons, ← Nat.add_assoc, Nat.add_right_comm] at hf
    rw [List.zipIdx_cons] at hanswers ⊢
    refine fed_call (c := .forward tokenId pos) h rfl fun logits st' hcall h' => ih h' ?_ hf
    have hcalls := Prog.calls_of_some (object m sort) hcall
      fun _ => prefill (tokens.zipIdx (pos + 1)) >>= f
    exact (congrArg (Answers answers 0) hcalls).mp hanswers

omit [Field K] [LinearOrder K] [Elementary K] in
theorem fedBack_succ (req : Request K) (answers : ℕ → ℕ) (a n : ℕ) :
    fedBack req answers a (n + 1) =
      if req.isStop (answers a) then 0 else fedBack req answers (a + 1) n + 1 := by
  unfold fedBack
  rw [List.range'_succ, List.takeWhile_cons]
  cases req.isStop (answers a) <;> rfl

theorem decode_fed {n a next : ℕ} {generatedIds : List ℕ} {st : GpuState K}
    (h : AtToken m maxSeqLen pos st) (hnext : answers a = next)
    {f : List ℕ → Prog (ModelCall K) α} (hf : ∀ ids st', (f ids).calls (object m sort) st' = [])
    (hanswers : Answers answers (a + 1)
      ((decode req n generatedIds next pos >>= f).calls (object m sort) st)) :
    Fed m maxSeqLen pos (fedBack req answers a n)
      ((decode req n generatedIds next pos >>= f).calls (object m sort) st) := by
  induction n generalizing pos a next generatedIds st with
  | zero =>
    have hcalls : (decode req 0 generatedIds next pos >>= f).calls (object m sort) st = [] :=
      hf generatedIds st
    rw [hcalls]
    exact .done pos
  | succ n ih =>
    rw [fedBack_succ, hnext]
    cases hstop : req.isStop next with
    | true =>
      have hcalls : (decode req (n + 1) generatedIds next pos >>= f).calls (object m sort) st =
          [] := by
        simp only [decode, hstop, if_true]
        exact hf _ st
      rw [hcalls, if_pos rfl]
      exact .done pos
    | false =>
      simp only [decode, hstop, Bool.false_eq_true, if_false] at hanswers ⊢
      refine fed_call h rfl ?_
      intro token st' hcall h'
      have hanswers' := (congrArg (Answers answers (a + 1)) (Prog.calls_of_some (object m sort)
        hcall fun token => decode req n (generatedIds ++ [next]) token (pos + 1) >>= f)).mp hanswers
      have hsample : ∀ j t, (token :: (((decode req n (generatedIds ++ [next]) token (pos + 1) >>=
          f).calls (object m sort) st').filterMap sample))[j]? = some t →
          answers (a + 1 + j) = t := hanswers'
      refine ih h' (hsample 0 token rfl) ?_
      intro j t hj
      have hlater := hsample (j + 1) t hj
      rwa [← Nat.add_assoc, Nat.add_right_comm (a + 1)] at hlater

theorem sampleNext_fed {lastId : ℕ} {st : GpuState K} (h : AtToken m maxSeqLen pos st)
    {f : List ℕ → Prog (ModelCall K) α} (hf : ∀ ids st', (f ids).calls (object m sort) st' = [])
    (hanswers : Answers answers 0 ((sampleNext req 0 lastId pos >>= fun next =>
      decode req req.maxNewTokens.toNat [] next (pos + 1) >>= f).calls (object m sort) st)) :
    Fed m maxSeqLen pos (decodeCalls req answers + 1) ((sampleNext req 0 lastId pos >>= fun next =>
      decode req req.maxNewTokens.toNat [] next (pos + 1) >>= f).calls (object m sort) st) := by
  refine fed_call h rfl ?_
  intro token st' hcall h'
  have hanswers' := (congrArg (Answers answers 0) (Prog.calls_of_some (object m sort) hcall
    fun next => decode req req.maxNewTokens.toNat [] next (pos + 1) >>= f)).mp hanswers
  have hsample : ∀ j t, (token :: (((decode req req.maxNewTokens.toNat [] token (pos + 1) >>=
      f).calls (object m sort) st').filterMap sample))[j]? = some t →
      answers (0 + j) = t := hanswers'
  refine decode_fed h' (hsample 0 token rfl) hf ?_
  intro j t hj
  rw [Nat.add_right_comm]
  exact hsample (j + 1) t hj

/-- **What a request feeds**: the prompt, and behind it the tokens that it feeds back. -/
theorem generate_fed {st : GpuState K} (h : CachesInv m maxSeqLen st) (hprompt : req.inputIds ≠ [])
    (hanswers : Answers answers 0 ((generate req).calls (object m sort) st)) :
    ∃ calls, (generate req).calls (object m sort) st =
        ⟨ModelCall.resetKvCache, st, some ()⟩ :: calls ∧
      Fed m maxSeqLen 0 (req.inputIds.length + decodeCalls req answers) calls := by
  have hreset : AtToken m maxSeqLen 0 (VulkanModel.resetKvCache st).2 := by
    refine ⟨h.reset.1, fun i c _ hc => ?_⟩
    obtain ⟨c₀, -, rfl⟩ := List.mem_map.1 (List.mem_of_getElem? hc)
    rfl
  refine ⟨_, rfl, ?_⟩
  have hlen : req.inputIds.dropLast.length + 1 = req.inputIds.length := by
    rw [List.length_dropLast]
    exact Nat.sub_add_cancel (List.length_pos_iff.2 hprompt)
  have hlast : req.inputIds.getLast? = some (req.inputIds.getLast hprompt) :=
    List.getLast?_eq_some_getLast hprompt
  have hcount : req.inputIds.length + decodeCalls req answers =
      req.inputIds.dropLast.length + (decodeCalls req answers + 1) := by omega
  rw [hcount]
  refine prefill_fed hreset hanswers ?_
  intro st' h' hrest
  rw [Nat.zero_add] at h' ⊢
  rw [hlast] at hrest ⊢
  dsimp only at hrest ⊢
  rw [← hlen, Nat.add_sub_cancel] at hrest ⊢
  exact sampleNext_fed h' (fun _ _ => rfl) hrest

/-- **When a request stays within the caches.**  On a model that was called and failed in any way,
every call of a request is made at the position behind the cached tokens, with room for one more,
exactly when the prompt and the tokens fed back fit, or a call fails before the caches are full. -/
theorem generate_inCapacity (m : VulkanModel K) (sort : UnstableSort K) (maxSeqLen : ℕ)
    (allocs : ℕ → Bool) (history : List (FaultyCall K)) (req : Request K)
    (hprompt : req.inputIds ≠ []) {st : GpuState K}
    (hst : st = finalState (faultyStep m sort) (m.fresh maxSeqLen allocs) history)
    (answers : ℕ → ℕ) (hanswers : Answers answers 0 ((generate req).calls (object m sort) st)) :
    (∀ e ∈ (generate req).calls (object m sort) st, InCapacity m maxSeqLen e) ↔
      req.inputIds.length + decodeCalls req answers ≤ maxSeqLen ∨
        ∃ e ∈ (generate req).calls (object m sort) st, FailsWithRoom maxSeqLen e := by
  have hinv : CachesInv m maxSeqLen st := by
    rw [hst]
    exact CachesInv.finalState (CachesInv.fresh m maxSeqLen allocs).1 sort history
  obtain ⟨calls, hcalls, hfed⟩ := generate_fed hinv hprompt hanswers
  have hreset : InCapacity m maxSeqLen ⟨ModelCall.resetKvCache, st, some ()⟩ :=
    fun p hp => nomatch hp
  have hreturns : ¬ FailsWithRoom maxSeqLen (K := K) ⟨ModelCall.resetKvCache, st, some ()⟩ :=
    fun h => Bool.false_ne_true h.1
  rw [hcalls, List.forall_mem_cons, List.exists_mem_cons_iff, hfed.inCapacity_iff (Nat.zero_le _),
    Nat.zero_add]
  simp only [hreset, hreturns, true_and, false_or]

/-! ### A request that does not fit -/

attribute [local instance] elementaryAtZero

instance (m : VulkanModel K) (maxSeqLen : ℕ) (e : Made (GpuState K) (ModelCall K)) :
    Decidable (InCapacity m maxSeqLen e) := by
  unfold InCapacity
  infer_instance

theorem generate_inCapacity_oneToken :
    (∀ e ∈ (generate oneToken).calls (object (zeroModel 1) stableSort)
      ((zeroModel 1).fresh 2 fun _ => true), InCapacity (zeroModel 1) 2 e) ↔
      1 + decodeCalls oneToken (fun _ => 0) ≤ 2 ∨
        ∃ e ∈ (generate oneToken).calls (object (zeroModel 1) stableSort)
          ((zeroModel 1).fresh 2 fun _ => true), FailsWithRoom 2 e := by
  have hst : (zeroModel 1).fresh 2 (fun _ => true) =
      finalState (faultyStep (zeroModel 1) stableSort)
        ((zeroModel 1).fresh 2 fun _ => true) [] := rfl
  refine generate_inCapacity (zeroModel 1) stableSort 2 (fun _ => true) [] oneToken (by decide) hst
    (fun _ => 0) ?_
  have hsamples : ((generate oneToken).calls (object (zeroModel 1) stableSort)
      ((zeroModel 1).fresh 2 fun _ => true)).filterMap sample = [0, 0] := by
    decide +kernel
  intro j t ht
  rw [hsamples] at ht
  have hmem := List.mem_of_getElem? ht
  rw [List.mem_cons, List.mem_singleton, or_self] at hmem
  exact hmem.symm

/-- A request for two tokens, of which the second one is fed back too. -/
def twoTokens : Request ℚ := { oneToken with maxNewTokens := 2 }

/-- On a model with room for two tokens it makes a call for a third one. -/
theorem twoTokens_overflow :
    ¬ ∀ e ∈ (generate twoTokens).calls (object (zeroModel 1) stableSort)
      ((zeroModel 1).fresh 2 fun _ => true), InCapacity (zeroModel 1) 2 e := by
  decide +kernel

end Server

end VllmVulkan
