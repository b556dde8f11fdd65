import VllmVulkan.Gemma4.Rope
import VllmVulkan.Lib.UnitDraws
import VllmVulkan.Server.Answers

/-!
# The distribution of an answer

A request draws one number from `[0, 1)` for every token it samples.  With independent draws its
answer is distributed as the model prescribes: token after token, with the softmax of the scaled
logits over the tokens that may be sampled.  Elements are real numbers.

* `candidates`, `tokenProbability` : the tokens that may be sampled, and their softmax;
* `uniform_sample` : **the sampler draws from it**;
* `response_eq_some` : an answer, draw by draw;
* `answerProbability` : the product of the conditional probabilities;
* `draws_response` : so the answer without caches is distributed;
* `generate_distribution` : **and so is the answer of a request that nobody disturbs**.
-/

namespace VllmVulkan

namespace Server

open Gemma4 Machine Panics Sessions UnitDraws MeasureTheory Set

/-! ### One token -/

section Candidates

variable {K : Type} [Field K] [LinearOrder K] [Elementary K]

theorem hundred_atLeastTwo : Nat.AtLeastTwo 100 := ⟨by decide⟩

attribute [local instance] hundred_atLeastTwo

/-- The tokens that may be sampled: the nucleus of the `topK` most probable ones. -/
def candidates (sort : UnstableSort K) (logits : List K) (temperature topP : K) (topK : ℤ) :
    List ℕ :=
  if temperature < 1 / 100 then [argmax logits]
  else
    let prob := fun idx => (probabilities logits temperature).getD idx 0
    let top := (sort.order (probabilities logits temperature)).take
      (topKCount topK logits.length)
    nucleus (fun idx => prob idx / (top.map prob).sum) topP top 0

variable (sort : UnstableSort K) (logits : List K) (temperature topP : K) (topK : ℤ)

theorem nodup_candidates : (candidates sort logits temperature topP topK).Nodup := by
  unfold candidates
  split_ifs
  · exact List.nodup_singleton _
  · dsimp only
    generalize htop : (sort.order (probabilities logits temperature)).take
      (topKCount topK logits.length) = top
    have hnodup : top.Nodup := by
      rw [← htop]
      exact ((sort.perm _).nodup_iff.2 List.nodup_range).take
    by_cases hne : top = []
    · subst hne
      exact List.nodup_nil
    · obtain ⟨m, -, -, heq, -⟩ := nucleus_eq_take (fun idx =>
        (probabilities logits temperature).getD idx 0 /
          (top.map fun idx => (probabilities logits temperature).getD idx 0).sum) topP hne 0
      rw [heq]
      exact hnodup.take

theorem lt_length_of_mem_candidates (ht : ¬ temperature < 1 / 100) {token : ℕ}
    (h : token ∈ candidates sort logits temperature topP topK) : token < logits.length := by
  rw [candidates, if_neg ht] at h
  have hmem := sort.mem_order.1 (List.mem_of_mem_take (nucleus_subset _ _ _ _ h))
  rwa [length_probabilities] at hmem

end Candidates

attribute [local instance] realElementary

theorem monoExp_real : MonoExp ℝ := ⟨Real.exp_pos, Real.exp_strictMono⟩

/-- The probability of a token: the softmax of the scaled logits over the candidates. -/
noncomputable def tokenProbability (sort : UnstableSort ℝ) (logits : List ℝ)
    (temperature topP : ℝ) (topK : ℤ) (token : ℕ) : ℝ :=
  let candidates := candidates sort logits temperature topP topK
  let weight := fun token => Real.exp (logits.getD token 0 / temperature)
  if token ∈ candidates then weight token / (candidates.map weight).sum else 0

theorem pick_eq_reach (mass : ℕ → ℝ) (u : ℝ) (order : List ℕ) (c : ℝ) :
    pick mass u order c = reach mass u order c := by
  induction order generalizing c with
  | nil => rfl
  | cons idx order ih => simp only [pick, reach, ih]

theorem probabilities_div_sum {logits : List ℝ} {temperature : ℝ} {tokens : List ℕ}
    (htokens : ∀ i ∈ tokens, i < logits.length) {token : ℕ} (htoken : token ∈ tokens) :
    (probabilities logits temperature).getD token 0 /
        (tokens.map fun i => (probabilities logits temperature).getD i 0).sum =
      Real.exp (logits.getD token 0 / temperature) /
        (tokens.map fun i => Real.exp (logits.getD i 0 / temperature)).sum := by
  -- the largest logit and the total cancel
  obtain ⟨c, hc, hprob⟩ : ∃ c : ℝ, c ≠ 0 ∧ ∀ i < logits.length,
      (probabilities logits temperature).getD i 0 =
        Real.exp (logits.getD i 0 / temperature) * c := by
    have hne : logits.map (· * (1 / temperature)) ≠ [] := by
      intro hnil
      have hlt := htokens token htoken
      rw [List.map_eq_nil_iff.1 hnil] at hlt
      exact absurd hlt (Nat.not_lt_zero _)
    refine ⟨(Real.exp ((logits.map (· * (1 / temperature))).max?.getD 0))⁻¹ *
      (softmaxTotal (logits.map (· * (1 / temperature))))⁻¹, ?_, fun i hi => ?_⟩
    · exact mul_ne_zero (inv_ne_zero (Real.exp_ne_zero _))
        (inv_ne_zero (softmaxTotal_pos monoExp_real hne).ne')
    · have hi' : i < (logits.map (· * (1 / temperature))).length := by rwa [List.length_map]
      have hscaled : (logits.map (· * (1 / temperature))).getD i 0 =
          logits.getD i 0 / temperature := by
        rw [List.getD_eq_getElem _ _ hi', List.getElem_map, List.getD_eq_getElem _ _ hi,
          mul_one_div]
      rw [probabilities, softmaxScores_getD hi', hscaled]
      show Real.exp _ / _ = _
      rw [Real.exp_sub, div_div, div_eq_mul_inv, mul_inv]
  have hsum : (tokens.map fun i => (probabilities logits temperature).getD i 0).sum =
      (tokens.map fun i => Real.exp (logits.getD i 0 / temperature)).sum * c := by
    rw [← List.sum_map_mul_right]
    exact congrArg List.sum (List.map_congr_left fun i hi => hprob i (htokens i hi))
  rw [hprob token (htokens token htoken), hsum, mul_div_mul_right _ _ hc]

/-- Behind the greedy threshold the sampler picks a candidate by its share. -/
theorem sample_eq_reach (sort : UnstableSort ℝ) (logits : List ℝ) {temperature : ℝ}
    (ht : ¬ temperature < 1 / 100) (topP u : ℝ) (topK : ℤ) :
    let candidates := candidates sort logits temperature topP topK
    let prob := fun i => (probabilities logits temperature).getD i 0
    sampleWithTemperature sort logits temperature topP topK u =
      (reach (fun i => prob i / (candidates.map prob).sum) u candidates 0).or
        candidates.getLast? := by
  dsimp only
  rw [sampleWithTemperature_eq_select sort logits topK ht, candidates, if_neg ht, select]
  simp only [pick_eq_reach]

theorem measurableSet_sample (sort : UnstableSort ℝ) (logits : List ℝ) (temperature topP : ℝ)
    (topK : ℤ) (token : Option ℕ) : MeasurableSet
      {u | sampleWithTemperature sort logits temperature topP topK u = token} := by
  by_cases ht : temperature < 1 / 100
  · simp only [sampleWithTemperature, if_pos ht]
    exact MeasurableSet.const _
  · simp only [sample_eq_reach sort logits ht]
    exact measurableSet_reach_or _ _ _ _ _

/-- **The sampler draws every token with its probability.** -/
theorem uniform_sample (sort : UnstableSort ℝ) (logits : List ℝ) (temperature topP : ℝ)
    (topK : ℤ) (token : ℕ) :
    uniform.real {u | sampleWithTemperature sort logits temperature topP topK u = some token} =
      tokenProbability sort logits temperature topP topK token := by
  by_cases ht : temperature < 1 / 100
  · -- the greedy choice
    simp only [sampleWithTemperature, tokenProbability, candidates, if_pos ht, List.mem_singleton,
      List.map_singleton, List.sum_singleton, Option.some.injEq]
    by_cases heq : argmax logits = token
    · subst heq
      simp [Real.exp_ne_zero]
    · simp [heq, Ne.symm heq]
  · have hlt : ∀ i ∈ candidates sort logits temperature topP topK, i < logits.length :=
      fun i hi => lt_length_of_mem_candidates sort logits temperature topP topK ht hi
    have hnodup := nodup_candidates sort logits temperature topP topK
    simp only [sample_eq_reach sort logits ht, tokenProbability]
    generalize candidates sort logits temperature topP topK = cs at hlt hnodup ⊢
    by_cases hnil : cs = []
    · subst hnil
      simp [reach]
    · have hpos : ∀ p ∈ cs.map fun i => (probabilities logits temperature).getD i 0, 0 < p := by
        intro p hp
        obtain ⟨i, hi, rfl⟩ := List.mem_map.1 hp
        exact probabilities_pos monoExp_real (hlt i hi)
      have hsum : 0 < (cs.map fun i => (probabilities logits temperature).getD i 0).sum :=
        List.sum_pos _ hpos (by simpa using hnil)
      rw [uniform_reach_or (fun i hi => div_nonneg (hpos _ (List.mem_map_of_mem hi)).le hsum.le)
        hnodup]
      · split_ifs with hmem
        · exact probabilities_div_sum hlt hmem
        · rfl
      · simp only [div_eq_mul_inv, List.sum_map_mul_right]
        exact mul_inv_cancel₀ hsum.ne'

/-! ### An answer -/

section Response

variable {K : Type} [Field K] [LinearOrder K] [Elementary K] {m : Gemma4Model K}
  {sort : UnstableSort K} {req : Request K}

/-- The request with other draws. -/
def Request.withDraws (req : Request K) (d : ℕ → K) : Request K := { req with draws := d }

/-- The stop tokens of a request. -/
def Request.stopTokens (req : Request K) : Finset ℕ := insert 106 req.eosTokenId.toFinset

omit [Field K] [LinearOrder K] [Elementary K] in
theorem mem_stopTokens {token : ℕ} : token ∈ req.stopTokens ↔ req.isStop token = true := by
  simp [Request.stopTokens, Request.isStop, or_comm]

/-- What is answered when the tokens `ids` have been generated and `n` more are wanted. -/
def answerFrom (m : Gemma4Model K) (sort : UnstableSort K) (req : Request K) (n : ℕ)
    (ids : List ℕ) : Option (List ℕ) :=
  (respond m sort req n ids).map (·.rdropWhile req.isStop)

theorem rdropWhile_of_not {p : ℕ → Bool} {ids : List ℕ} (h : ∀ id ∈ ids, p id = false) :
    ids.rdropWhile p = ids := by
  rw [List.rdropWhile_eq_self_iff]
  intro hne
  rw [h _ (List.getLast_mem hne)]
  exact Bool.false_ne_true

theorem answerFrom_zero {ids : List ℕ} (hids : ∀ id ∈ ids, req.isStop id = false) :
    answerFrom m sort req 0 ids = some ids := by
  simp only [answerFrom, respond, Option.map_some, rdropWhile_of_not hids]

theorem answerFrom_succ (n : ℕ) {ids out : List ℕ} (hids : ∀ id ∈ ids, req.isStop id = false) :
    answerFrom m sort req (n + 1) ids = some out ↔
      ∃ token, sampled m sort req ids.length (req.inputIds ++ ids) = some token ∧
        if req.isStop token then ids = out
        else answerFrom m sort req n (ids ++ [token]) = some out := by
  simp only [answerFrom, respond, Option.bind_eq_bind, Option.map_bind, Option.bind_eq_some_iff,
    Function.comp_apply]
  refine exists_congr fun token => and_congr_right fun _ => ?_
  split_ifs with hstop
  · rw [Option.pure_def, Option.map_some, Option.some.injEq,
      List.rdropWhile_concat_pos _ _ _ hstop, rdropWhile_of_not hids]
  · rfl

omit [Field K] [LinearOrder K] [Elementary K] in
theorem noStop_concat {ids : List ℕ} (hids : ∀ id ∈ ids, req.isStop id = false) {token : ℕ}
    (htoken : ¬ req.isStop token = true) : ∀ id ∈ ids ++ [token], req.isStop id = false := by
  intro id hid
  rcases List.mem_append.1 hid with hid | hid
  · exact hids id hid
  · rw [List.mem_singleton.1 hid]
    exact Bool.eq_false_iff.2 htoken

/-- An answer goes on from the tokens in front of it, without stop tokens, and is not too long. -/
theorem answerFrom_spec {n : ℕ} {ids out : List ℕ} (hids : ∀ id ∈ ids, req.isStop id = false)
    (h : answerFrom m sort req n ids = some out) : ids <+: out ∧
      (∀ id ∈ out, req.isStop id = false) ∧ out.length ≤ ids.length + n := by
  induction n generalizing ids with
  | zero =>
    obtain rfl := Option.some.inj ((answerFrom_zero hids).symm.trans h)
    exact ⟨List.prefix_rfl, hids, Nat.le_refl _⟩
  | succ n ih =>
    obtain ⟨token, -, hrest⟩ := (answerFrom_succ n hids).1 h
    split_ifs at hrest with hstop
    · subst hrest
      exact ⟨List.prefix_rfl, hids, Nat.le_add_right _ _⟩
    · obtain ⟨hpre, hout, hlen⟩ := ih (noStop_concat hids hstop) hrest
      refine ⟨(List.prefix_append _ _).trans hpre, hout, ?_⟩
      rw [List.length_append, List.length_singleton] at hlen
      omega

/-- **An answer, draw by draw**: behind the tokens of `ids` every token of the answer is sampled,
and a stop token behind the last one unless no more tokens are wanted. -/
theorem answerFrom_iff {n : ℕ} {ids out : List ℕ} (hout : ∀ id ∈ out, req.isStop id = false)
    (hpre : ids <+: out) (hlen : out.length ≤ ids.length + n) :
    answerFrom m sort req n ids = some out ↔
      (∀ j, ids.length ≤ j → j < out.length →
        sampled m sort req j (req.inputIds ++ out.take j) = some (out.getD j 0)) ∧
      (out.length < ids.length + n → ∃ token, req.isStop token = true ∧
        sampled m sort req out.length (req.inputIds ++ out) = some token) := by
  have hids : ∀ id ∈ ids, req.isStop id = false := fun id hid => hout id (hpre.subset hid)
  induction n generalizing ids with
  | zero =>
    obtain rfl := hpre.eq_of_length_le hlen
    rw [answerFrom_zero hids]
    exact iff_of_true rfl ⟨fun j hle hlt => absurd hlt (not_lt.2 hle),
      fun hlt => absurd hlt (lt_irrefl _)⟩
  | succ n ih =>
    rw [answerFrom_succ n hids]
    rcases hpre.length_le.eq_or_lt with heq | hlt
    · -- the answer is complete: the next token is a stop token
      obtain rfl := hpre.eq_of_length heq
      constructor
      · rintro ⟨token, htoken, hrest⟩
        split_ifs at hrest with hstop
        · exact ⟨fun j hle hlt => absurd hlt (not_lt.2 hle), fun _ => ⟨token, hstop, htoken⟩⟩
        · have hle := (answerFrom_spec (noStop_concat hids hstop) hrest).1.length_le
          rw [List.length_append, List.length_singleton] at hle
          omega
      · rintro ⟨-, hstop⟩
        obtain ⟨token, hstop, htoken⟩ := hstop (Nat.lt_add_of_pos_right (Nat.succ_pos n))
        exact ⟨token, htoken, by rw [if_pos hstop]⟩
    · -- the next token is the next of the answer
      have htake : out.take ids.length = ids := (List.prefix_iff_eq_take.1 hpre).symm
      have hget : out.getD ids.length 0 = out[ids.length] := List.getD_eq_getElem _ _ hlt
      have hnext : ids ++ [out[ids.length]] <+: out := by
        rw [List.prefix_iff_eq_take, List.length_append, List.length_singleton,
          List.take_add_one, htake, List.getElem?_eq_getElem hlt]
        rfl
      have hnot : req.isStop out[ids.length] = false := hout _ (List.getElem_mem hlt)
      have hids' : ∀ id ∈ ids ++ [out[ids.length]], req.isStop id = false :=
        fun id hid => hout id (hnext.subset hid)
      have hiff := ih hnext (by rw [List.length_append, List.length_singleton]; omega) hids'
      rw [List.length_append, List.length_singleton, Nat.add_assoc, Nat.add_comm 1 n] at hiff
      constructor
      · rintro ⟨token, htoken, hrest⟩
        split_ifs at hrest with hstop
        · exact absurd (congrArg List.length hrest) hlt.ne
        · have htoken' : token = out[ids.length] := by
            have hfirst := (answerFrom_spec (noStop_concat hids hstop) hrest).1
            simpa using hfirst.getElem (i := ids.length) (by simp)
          subst htoken'
          obtain ⟨htail, hend⟩ := hiff.1 hrest
          refine ⟨fun j hle hj => ?_, hend⟩
          rcases hle.eq_or_lt with rfl | hlt'
          · rw [htake, hget]
            exact htoken
          · exact htail j hlt' hj
      · rintro ⟨htail, hend⟩
        refine ⟨out[ids.length], ?_, ?_⟩
        · rw [← hget, ← htail _ (Nat.le_refl _) hlt, htake]
        · rw [if_neg (by simp [hnot])]
          exact hiff.2 ⟨fun j hle hj => htail j (Nat.le_of_succ_le hle) hj, hend⟩

/-- **An answer, draw by draw.** -/
theorem response_eq_some {out : List ℕ} : response m sort req = some out ↔
    (∀ id ∈ out, req.isStop id = false) ∧ out.length ≤ req.maxNewTokens.toNat ∧
      (∀ j < out.length,
        sampled m sort req j (req.inputIds ++ out.take j) = some (out.getD j 0)) ∧
      (out.length < req.maxNewTokens.toNat → ∃ token, req.isStop token = true ∧
        sampled m sort req out.length (req.inputIds ++ out) = some token) := by
  have hnil : ∀ id ∈ ([] : List ℕ), req.isStop id = false := fun id hid => by cases hid
  have hiff : ∀ hout hlen, answerFrom m sort req req.maxNewTokens.toNat [] = some out ↔ _ :=
    fun hout hlen => answerFrom_iff hout List.nil_prefix hlen
  simp only [List.length_nil, Nat.zero_add, Nat.zero_le, forall_const] at hiff
  constructor
  · intro h
    obtain ⟨-, hout, hlen⟩ := answerFrom_spec hnil h
    rw [List.length_nil, Nat.zero_add] at hlen
    exact ⟨hout, hlen, (hiff hout hlen).1 h⟩
  · rintro ⟨hout, hlen, h⟩
    exact (hiff hout hlen).2 h

end Response

/-! ### Its distribution -/

/-- The probability of the token behind `context`. -/
noncomputable def nextProbability (m : Gemma4Model ℝ) (sort : UnstableSort ℝ) (req : Request ℝ)
    (context : List ℕ) (token : ℕ) : ℝ :=
  match seqForward m context >>= List.getLast? with
  | some logits => tokenProbability sort logits req.temperature req.topP req.topK token
  | none => 0

/-- The probability of an answer: that of its tokens, one behind the other, and of a stop token
behind them unless no more tokens are wanted. -/
noncomputable def answerProbability (m : Gemma4Model ℝ) (sort : UnstableSort ℝ) (req : Request ℝ)
    (out : List ℕ) : ℝ :=
  if (∀ id ∈ out, req.isStop id = false) ∧ out.length ≤ req.maxNewTokens.toNat then
    (∏ j ∈ Finset.range out.length,
      nextProbability m sort req (req.inputIds ++ out.take j) (out.getD j 0)) *
      if out.length < req.maxNewTokens.toNat then
        ∑ token ∈ req.stopTokens, nextProbability m sort req (req.inputIds ++ out) token
      else 1
  else 0

section Distribution

variable (m : Gemma4Model ℝ) (sort : UnstableSort ℝ) (req : Request ℝ)

/-- The draws that give `token` behind `context`. -/
def drawsOf (context : List ℕ) (token : ℕ) : Set ℝ :=
  {u | sampled m sort (req.withDraws fun _ => u) 0 context = some token}

theorem sampled_withDraws {d : ℕ → ℝ} {j token : ℕ} {context : List ℕ} :
    sampled m sort (req.withDraws d) j context = some token ↔
      d j ∈ drawsOf m sort req context token := Iff.rfl

theorem drawsOf_eq (context : List ℕ) (token : ℕ) : drawsOf m sort req context token =
    {u | (seqForward m context >>= List.getLast?).bind (fun logits => sampleWithTemperature sort
      logits req.temperature req.topP req.topK u) = some token} := by
  simp only [drawsOf, sampled, Option.bind_eq_bind, Option.bind_assoc]
  rfl

theorem measurableSet_drawsOf (context : List ℕ) (token : ℕ) :
    MeasurableSet (drawsOf m sort req context token) := by
  rw [drawsOf_eq]
  cases seqForward m context >>= List.getLast? with
  | none => exact MeasurableSet.const (none = some token)
  | some logits => exact measurableSet_sample sort logits _ _ _ _

theorem uniform_drawsOf (context : List ℕ) (token : ℕ) :
    uniform.real (drawsOf m sort req context token) =
      nextProbability m sort req context token := by
  rw [drawsOf_eq, nextProbability]
  cases seqForward m context >>= List.getLast? with
  | none => simp
  | some logits => exact uniform_sample sort logits _ _ _ _

/-- The probability of a stop token behind `context`. -/
theorem uniform_stop (context : List ℕ) :
    uniform.real (⋃ token ∈ req.stopTokens, drawsOf m sort req context token) =
      ∑ token ∈ req.stopTokens, nextProbability m sort req context token := by
  rw [measureReal_biUnion_finset]
  · exact Finset.sum_congr rfl fun token _ => uniform_drawsOf m sort req context token
  · -- a draw gives one token
    intro token _ token' _ hne
    refine disjoint_left.2 fun u hu hu' => hne ?_
    exact Option.some.inj (Eq.trans (Eq.symm hu) hu')
  · exact fun token _ => measurableSet_drawsOf m sort req context token

/-- The draws for token `j` of an answer, or for the stop token behind it. -/
def answerDraws (out : List ℕ) (j : ℕ) : Set ℝ :=
  if j < out.length then drawsOf m sort req (req.inputIds ++ out.take j) (out.getD j 0)
  else ⋃ token ∈ req.stopTokens, drawsOf m sort req (req.inputIds ++ out) token

theorem measurableSet_answerDraws (out : List ℕ) (j : ℕ) :
    MeasurableSet (answerDraws m sort req out j) := by
  unfold answerDraws
  split_ifs
  · exact measurableSet_drawsOf m sort req _ _
  · exact Finset.measurableSet_biUnion _ fun token _ => measurableSet_drawsOf m sort req _ token

theorem response_withDraws {out : List ℕ} (hout : ∀ id ∈ out, req.isStop id = false)
    (hlen : out.length ≤ req.maxNewTokens.toNat) (d : ℕ → ℝ) :
    response m sort (req.withDraws d) = some out ↔
      ∀ j < min (out.length + 1) req.maxNewTokens.toNat, d j ∈ answerDraws m sort req out j := by
  have hstop : (∃ token, req.isStop token = true ∧
      sampled m sort (req.withDraws d) out.length (req.inputIds ++ out) = some token) ↔
        d out.length ∈ answerDraws m sort req out out.length := by
    simp only [answerDraws, lt_irrefl, if_false, mem_iUnion, mem_stopTokens, exists_prop,
      sampled_withDraws]
  have htoken : ∀ j < out.length, (sampled m sort (req.withDraws d) j
      (req.inputIds ++ out.take j) = some (out.getD j 0) ↔
        d j ∈ answerDraws m sort req out j) := by
    intro j hj
    rw [answerDraws, if_pos hj, sampled_withDraws]
  have hiff : response m sort (req.withDraws d) = some out ↔ _ := response_eq_some
  rw [hiff]
  constructor
  · rintro ⟨-, -, htokens, hend⟩ j hj
    rcases (Nat.lt_succ_iff.1 (lt_min_iff.1 hj).1).lt_or_eq with hlt | rfl
    · exact (htoken j hlt).1 (htokens j hlt)
    · exact hstop.1 (hend (lt_min_iff.1 hj).2)
  · intro h
    refine ⟨hout, hlen, fun j hj => (htoken j hj).2 (h j ?_), fun hlt => hstop.2 (h _ ?_)⟩
    · exact lt_min (hj.trans (Nat.lt_succ_self _)) (hj.trans_le hlen)
    · exact lt_min (Nat.lt_succ_self _) hlt

/-- **The answer without caches has the distribution of the model.** -/
theorem draws_response (out : List ℕ) :
    draws.real {d | response m sort (req.withDraws d) = some out} =
      answerProbability m sort req out := by
  rw [answerProbability]
  split_ifs with hout hlt
  · -- a stop token follows the answer
    simp only [response_withDraws m sort req hout.1 hout.2, min_eq_left (Nat.succ_le_of_lt hlt)]
    rw [draws_forall_lt _ (measurableSet_answerDraws m sort req out), Finset.prod_range_succ]
    refine congrArg₂ (· * ·) (Finset.prod_congr rfl fun j hj => ?_) ?_
    · rw [answerDraws, if_pos (Finset.mem_range.1 hj), uniform_drawsOf]
    · rw [answerDraws, if_neg (lt_irrefl _), uniform_stop]
  · -- no more tokens are wanted
    have hn : req.maxNewTokens.toNat = out.length := le_antisymm (not_lt.1 hlt) hout.2
    simp only [response_withDraws m sort req hout.1 hout.2, hn, min_eq_right (Nat.le_succ _)]
    rw [draws_forall_lt _ (measurableSet_answerDraws m sort req out), mul_one]
    refine Finset.prod_congr rfl fun j hj => ?_
    rw [answerDraws, if_pos (Finset.mem_range.1 hj), uniform_drawsOf]
  · have hempty : {d | response m sort (req.withDraws d) = some out} = ∅ := by
      refine eq_empty_of_forall_notMem fun d hd => hout ?_
      have h := response_eq_some.1 hd
      exact ⟨h.1, h.2.1⟩
    rw [hempty, measureReal_empty]

end Distribution

/-- **The answer of a request that nobody disturbs has the distribution of the model**, whatever
the other requests do: the GPU, the caches and the requests before it leave no trace in it. -/
theorem generate_distribution {ι : Type} [DecidableEq ι] {m : VulkanModel ℝ}
    {sort : UnstableSort ℝ} (hm : Complete m) (maxSeqLen : ℕ) (allocs : ℕ → Bool)
    (reqs : ι → Request ℝ) (schedule : List ι) (i : ι) (hreq : (reqs i).Fits m maxSeqLen)
    (hok : ∀ d, ∀ τ ∈ transitions (machine (object m sort)) (served m maxSeqLen allocs
      (Function.update reqs i ((reqs i).withDraws d))) schedule,
        τ.input = i → τ.pre.Undisturbed (object m sort) i)
    (hturns : turns (reqs i) ≤ schedule.count i) (out : List ℕ) :
    draws.real {d | ((finalState (machine (object m sort)) (served m maxSeqLen allocs
      (Function.update reqs i ((reqs i).withDraws d))) schedule).progs i).result =
        some (some out)} = answerProbability m.inner sort (reqs i) out := by
  rw [← draws_response]
  refine congrArg draws.real (Set.ext fun d => ?_)
  have hupdate : Function.update reqs i ((reqs i).withDraws d) i = (reqs i).withDraws d :=
    Function.update_self ..
  have hresult := served_result sort hm.loaded allocs (hok d) (by rw [hupdate]; exact hturns)
  rw [hupdate] at hresult
  obtain ⟨out', hrun, hresponse, -⟩ :=
    generate_fresh sort ((reqs i).withDraws d) hm ⟨hreq.1, hreq.2, hreq.3⟩ allocs
  rw [mem_ofPred_eq, mem_ofPred_eq, hresult, hrun, hresponse, Option.some.injEq]

/-- The second of two requests, with independent draws. -/
theorem generate_distribution_twoRequests :
    draws.real {d | ((finalState (machine (object (filledModel ℝ) (preferring ℝ 0)))
      (served (filledModel ℝ) 4 (fun _ => true)
        (Function.update twoRequests true (twoMore.withDraws d))) oneByOne).progs true).result =
          some (some [0, 2])} =
      answerProbability (filledModel ℝ).inner (preferring ℝ 0) twoMore [0, 2] :=
  generate_distribution complete_filledModel 4 _ twoRequests oneByOne true twoMore_fits
    (fun _ => undisturbed_of_last rfl rfl (by decide) 6) (by decide) [0, 2]

end Server

end VllmVulkan
