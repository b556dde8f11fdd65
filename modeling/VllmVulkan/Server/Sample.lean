import VllmVulkan.Gemma4.Draws
import Mathlib.Data.List.MinMax
import Mathlib.Data.List.Nodup

/-!
# The reference sampler of the server

`server.py` keeps the sampler that `sample_with_temperature` was written after.  `none` is an
exception.

* `greedySample`, `temperatureSample` : the reference;
* `IsTop` : the most probable tokens;
* `drawFrom_eq_select` : the reference's lists of indices into lists of indices, resolved;
* `sample_eq_temperatureSample` : **the two samplers return the same token**.
-/

namespace VllmVulkan

namespace Server

open Gemma4 Elementary

variable {K : Type} [Field K] [LinearOrder K]

/-! ### The reference -/

/-- `greedy_sample`; `max` returns the first of the largest. -/
def greedySample (logits : List K) : Option ℕ :=
  (List.range logits.length).argmax fun i => logits.getD i 0

/-- The last loop of `temperature_sample`, over `zip(nucleus, nucleus_probs)`. -/
def firstReaching (r : K) : List (ℕ × K) → K → Option ℕ
  | [], _ => none
  | (i, p) :: rest, cumsum =>
    let cumsum := cumsum + p
    if r ≤ cumsum then some i else firstReaching r rest cumsum

/-- `temperature_sample` from its nucleus step on. -/
def drawFrom (topKIndices : List ℕ) (topKProbs : List K) (topP r : K) : Option ℕ :=
  let sortedIndices := descending topKProbs (List.range topKProbs.length)
  let nucleus := nucleus (fun idx => topKProbs.getD idx 0) topP sortedIndices 0
  let nucleusProbs := nucleus.map fun i => topKProbs.getD i 0
  let totalN := nucleusProbs.sum
  let nucleusProbs := nucleusProbs.map (· / totalN)
  ((firstReaching r (nucleus.zip nucleusProbs) 0).or nucleus.getLast?).bind (topKIndices[·]?)

variable [Elementary K]

/-- `temperature_sample`, with the value `r` of `random.random()`. -/
def temperatureSample (logits : List K) (temperature topP : K) (topK : ℤ) (r : K) : Option ℕ :=
  if temperature = 0 then greedySample logits
  else do
    let scaled := logits.map (· / temperature)
    let maxL ← scaled.max?
    let expL := scaled.map fun x => exp (x - maxL)
    let total := expL.sum
    let probs := expL.map (· / total)
    if 0 < topK then
      let topK := min topK.toNat probs.length
      let topKIndices := (descending probs (List.range probs.length)).take topK
      let topKProbs := topKIndices.map fun i => probs.getD i 0
      let totalK := topKProbs.sum
      drawFrom topKIndices (topKProbs.map (· / totalK)) topP r
    else drawFrom (List.range probs.length) probs topP r

/-! ### The nucleus step -/

omit [Elementary K]

theorem firstReaching_zip (mass : ℕ → K) (r : K) (order : List ℕ) (cumsum : K) :
    firstReaching r (order.zip (order.map mass)) cumsum = pick mass r order cumsum := by
  induction order generalizing cumsum with
  | nil => rfl
  | cons idx order ih => simp only [List.map_cons, List.zip_cons_cons, firstReaching, pick, ih]

/-- **The nucleus step over positions draws what it draws over the tokens at these positions.** -/
theorem drawFrom_eq_select {prob : ℕ → K} {topKIndices : List ℕ} {topKProbs : List K}
    {top : List ℕ} {total : K} (htotal : total = (top.map prob).sum) (hne : total ≠ 0)
    (hlen : topKProbs.length ≤ topKIndices.length)
    (htop : (descending topKProbs (List.range topKProbs.length)).map
      (fun i => topKIndices.getD i 0) = top)
    (hprob : ∀ i < topKProbs.length, topKProbs.getD i 0 = prob (topKIndices.getD i 0) / total)
    (topP r : K) : drawFrom topKIndices topKProbs topP r = select prob topP r top := by
  set sortedIndices := descending topKProbs (List.range topKProbs.length) with hsorted
  have hmem : ∀ i ∈ sortedIndices, i < topKProbs.length := fun i hi =>
    List.mem_range.1 ((descending_perm topKProbs _).mem_iff.1 hi)
  set positions := nucleus (fun idx => topKProbs.getD idx 0) topP sortedIndices 0 with hpositions
  have hsub : ∀ i ∈ positions, i < topKProbs.length := fun i hi =>
    hmem i (nucleus_subset _ _ _ _ hi)
  -- the positions of the nucleus are those of the tokens in it
  have hnucleus : positions.map (fun i => topKIndices.getD i 0) =
      nucleus (fun idx => prob idx / total) topP top 0 := by
    rw [← htop, nucleus_map, hpositions]
    exact congrArg _ (nucleus_congr (fun i hi => hprob i (hmem i hi)) 0)
  have hmasses : positions.map (fun i => topKProbs.getD i 0) =
      (positions.map fun i => topKIndices.getD i 0).map fun idx => prob idx / total := by
    rw [List.map_map]
    exact List.map_congr_left fun i hi => hprob i (hsub i hi)
  have htotalN : (positions.map fun i => topKProbs.getD i 0).sum =
      ((nucleus (fun idx => prob idx / total) topP top 0).map prob).sum / total := by
    rw [hmasses, hnucleus]
    simp only [div_eq_mul_inv, List.sum_map_mul_right]
  have hpick : (pick (fun i => topKProbs.getD i 0 / (positions.map fun i =>
      topKProbs.getD i 0).sum) r positions 0).map (fun i => topKIndices.getD i 0) =
      pick (fun idx => prob idx / ((nucleus (fun idx => prob idx / total) topP top 0).map
        prob).sum) r (nucleus (fun idx => prob idx / total) topP top 0) 0 := by
    rw [htotalN, ← hnucleus, pick_map]
    refine congrArg _ (pick_congr (fun i hi => ?_) 0)
    rw [hprob i (hsub i hi), div_div_div_cancel_right₀ hne]
  have hbind : ∀ found : Option ℕ, (∀ i, found = some i → i < topKProbs.length) →
      found.bind (topKIndices[·]?) = found.map fun i => topKIndices.getD i 0 := by
    intro found hfound
    cases found with
    | none => rfl
    | some i =>
      have hi : i < topKIndices.length := (hfound i rfl).trans_le hlen
      simp [List.getD_eq_getElem?_getD, List.getElem?_eq_getElem hi]
  rw [drawFrom, select, ← htotal]
  simp only [← hsorted, ← hpositions, List.map_map, Function.comp_def]
  rw [firstReaching_zip, hbind _ ?_, Option.map_or, hpick, ← hnucleus, List.getLast?_map]
  intro i hi
  rcases Option.or_eq_some_iff.1 hi with hpicked | ⟨-, hlast⟩
  · obtain ⟨j, hj, -⟩ := pick_eq_some.1 hpicked
    exact hsub i (List.mem_of_getElem? hj)
  · exact hsub i (List.mem_of_getLast? hlast)

/-! ### The most probable tokens -/

/-- `top` are the `k` most probable of `n` tokens, the most probable first. -/
structure IsTop (prob : ℕ → K) (n k : ℕ) (top : List ℕ) : Prop where
  length : top.length = k
  lt : ∀ i ∈ top, i < n
  decreasing : top.Pairwise fun a b => prob b < prob a
  most : ∀ i ∈ top, ∀ j < n, j ∉ top → prob j < prob i

/-- No two of the first `n` tokens are equally probable. -/
def Distinct (prob : ℕ → K) (n : ℕ) : Prop := ∀ i < n, ∀ j < n, prob i = prob j → i = j

/-- **There is one order of distinct probabilities.** -/
theorem order_eq_descending (sort : UnstableSort K) {probs : List K}
    (h : Distinct (fun i => probs.getD i 0) probs.length) :
    sort.order probs = descending probs (List.range probs.length) := by
  have hperm : (sort.order probs).Perm (descending probs (List.range probs.length)) :=
    (sort.perm probs).trans (descending_perm probs _).symm
  refine hperm.eq_of_pairwise (fun a b ha hb hab hba => ?_) (sort.sorted probs)
    (descending_sorted probs _)
  exact h a (sort.mem_order.1 ha) b (sort.mem_order.1 (hperm.mem_iff.2 hb)) (le_antisymm hba hab)

theorem descending_decreasing {probs : List K}
    (h : Distinct (fun i => probs.getD i 0) probs.length) :
    (descending probs (List.range probs.length)).Pairwise fun a b =>
      probs.getD b 0 < probs.getD a 0 := by
  have hperm := descending_perm probs (List.range probs.length)
  have hnodup : (descending probs (List.range probs.length)).Nodup :=
    hperm.nodup_iff.2 List.nodup_range
  refine ((descending_sorted probs _).and hnodup).imp_of_mem fun {a b} ha hb hab => ?_
  refine lt_of_le_of_ne hab.1 fun heq => hab.2 ?_
  exact h a (List.mem_range.1 (hperm.mem_iff.1 ha)) b (List.mem_range.1 (hperm.mem_iff.1 hb))
    heq.symm

theorem isTop_take {probs : List K} (h : Distinct (fun i => probs.getD i 0) probs.length) {k : ℕ}
    (hk : k ≤ probs.length) : IsTop (fun i => probs.getD i 0) probs.length k
      ((descending probs (List.range probs.length)).take k) := by
  have hperm := descending_perm probs (List.range probs.length)
  have hmem : ∀ i, i ∈ descending probs (List.range probs.length) ↔ i < probs.length := fun i => by
    rw [hperm.mem_iff, List.mem_range]
  have hdec := descending_decreasing h
  refine ⟨?_, fun i hi => (hmem i).1 (List.mem_of_mem_take hi),
    hdec.sublist (List.take_sublist _ _), fun i hi j hj hout => ?_⟩
  · rw [List.length_take, hperm.length_eq, List.length_range, min_eq_left hk]
  · -- what is not in the prefix stands behind it
    rw [← List.take_append_drop k (descending probs _), List.pairwise_append] at hdec
    have hdrop := (hmem j).2 hj
    rw [← List.take_append_drop k (descending probs _), List.mem_append] at hdrop
    exact hdec.2.2 i hi j (hdrop.resolve_left hout)

theorem descending_of_decreasing (probs : List K)
    (h : ∀ i j, i < j → j < probs.length → probs.getD j 0 < probs.getD i 0) :
    descending probs (List.range probs.length) = List.range probs.length := by
  refine (descending_perm probs _).eq_of_pairwise (fun a b ha hb hab hba => ?_)
    (descending_sorted probs _) ?_
  · have hla := List.mem_range.1 ((descending_perm probs _).mem_iff.1 ha)
    have hlb := List.mem_range.1 hb
    rcases lt_trichotomy a b with hlt | heq | hgt
    · exact absurd (h a b hlt hlb) (not_lt.2 hba)
    · exact heq
    · exact absurd (h b a hgt hla) (not_lt.2 hab)
  · refine List.pairwise_lt_range.imp_of_mem fun {a b} _ hb hlt => ?_
    exact (h a b hlt (List.mem_range.1 hb)).le

/-! ### The two samplers -/

theorem map_getD_range {α : Type} (d : α) (top : List α) :
    (List.range top.length).map (fun i => top.getD i d) = top := by
  refine List.ext_getElem (by simp) ?_
  intro i h₁ h₂
  simp [List.getD_eq_getElem?_getD, List.getElem?_eq_getElem h₂]

variable [IsStrictOrderedRing K]

theorem drawFrom_take {prob : ℕ → K} {top : List ℕ} (hne : top ≠ [])
    (hpos : ∀ i ∈ top, 0 < prob i) (hdec : top.Pairwise fun a b => prob b < prob a) (topP r : K) :
    drawFrom top ((top.map prob).map (· / (top.map prob).sum)) topP r =
      select prob topP r top := by
  have htotal : 0 < (top.map prob).sum := by
    refine List.sum_pos _ (fun x hx => ?_) (by simpa using hne)
    obtain ⟨i, hi, rfl⟩ := List.mem_map.1 hx
    exact hpos i hi
  have hlength : ((top.map prob).map (· / (top.map prob).sum)).length = top.length := by simp
  have hget : ∀ i < top.length, ((top.map prob).map (· / (top.map prob).sum)).getD i 0 =
      prob (top.getD i 0) / (top.map prob).sum := by
    intro i hi
    simp [List.getD_eq_getElem?_getD, List.getElem?_eq_getElem hi]
  have hsorted := descending_of_decreasing ((top.map prob).map (· / (top.map prob).sum))
    fun i j hij hj => by
      rw [hlength] at hj
      rw [hget i (by omega), hget j hj, div_lt_div_iff_of_pos_right htotal]
      have hget' : ∀ n (hn : n < top.length), top.getD n 0 = top[n] := fun n hn => by
        simp [List.getD_eq_getElem?_getD, List.getElem?_eq_getElem hn]
      rw [hget' i (by omega), hget' j hj]
      exact List.pairwise_iff_getElem.1 hdec i j (by omega) hj hij
  refine drawFrom_eq_select rfl htotal.ne' hlength.le ?_ (fun i hi => ?_) topP r
  · rw [hsorted, hlength, map_getD_range]
  · exact hget i (by rwa [hlength] at hi)

theorem drawFrom_range {probs : List K} (hsum : probs.sum = 1) (topP r : K) :
    drawFrom (List.range probs.length) probs topP r =
      select (fun i => probs.getD i 0) topP r
        (descending probs (List.range probs.length)) := by
  have hperm := descending_perm probs (List.range probs.length)
  have hget : ∀ i < probs.length, (List.range probs.length).getD i 0 = i := by
    intro i hi
    simp [List.getD_eq_getElem?_getD, hi]
  have htotal : (1 : K) =
      ((descending probs (List.range probs.length)).map fun i => probs.getD i 0).sum := by
    rw [(hperm.map _).sum_eq, map_getD_range, hsum]
  refine drawFrom_eq_select htotal one_ne_zero (by simp) ?_ (fun i hi => ?_) topP r
  · conv_rhs => rw [← List.map_id (descending probs _)]
    refine List.map_congr_left fun i hi => hget i ?_
    exact List.mem_range.1 (hperm.mem_iff.1 hi)
  · rw [hget i hi, div_one]

variable [Elementary K]

omit [IsStrictOrderedRing K] in
theorem temperatureSample_eq {logits : List K} (hne : logits ≠ []) {temperature : K}
    (ht : temperature ≠ 0) (topP : K) (topK : ℤ) (r : K) :
    temperatureSample logits temperature topP topK r =
      let probs := probabilities logits temperature
      if 0 < topK then
        let top := (descending probs (List.range probs.length)).take (min topK.toNat probs.length)
        drawFrom top ((top.map fun i => probs.getD i 0).map
          (· / (top.map fun i => probs.getD i 0).sum)) topP r
      else drawFrom (List.range probs.length) probs topP r := by
  have hscaled : logits.map (· / temperature) = logits.map (· * (1 / temperature)) :=
    List.map_congr_left fun v _ => div_eq_mul_one_div v temperature
  obtain ⟨maxL, hmax⟩ : ∃ maxL, (logits.map (· * (1 / temperature))).max? = some maxL := by
    cases logits with
    | nil => exact absurd rfl hne
    | cons v logits => exact ⟨_, rfl⟩
  have hprobs : ((logits.map (· * (1 / temperature))).map fun x => exp (x - maxL)).map
      (· / ((logits.map (· * (1 / temperature))).map fun x => exp (x - maxL)).sum) =
      probabilities logits temperature := by
    simp only [probabilities, softmaxScores, hmax, Option.getD_some]
  rw [temperatureSample, if_neg ht, hscaled]
  simp only [hmax, hprobs, Option.bind_eq_bind, Option.bind_some]

theorem probabilities_sum (he : MonoExp K) {logits : List K} (hne : logits ≠ []) (temperature : K) :
    (probabilities logits temperature).sum = 1 :=
  softmaxScores_sum he (by simpa using hne)

theorem distinct_probabilities (he : MonoExp K) {logits : List K} (hdistinct : logits.Nodup)
    {temperature : K} (ht : 0 < temperature) :
    Distinct (fun i => (probabilities logits temperature).getD i 0)
      (probabilities logits temperature).length := by
  intro i hi j hj heq
  rw [length_probabilities] at hi hj
  have hlogits : logits.getD i 0 = logits.getD j 0 := by
    refine le_antisymm ?_ ?_
    · rw [← not_lt, ← probabilities_lt_iff he ht hj hi]
      exact not_lt.2 heq.le
    · rw [← not_lt, ← probabilities_lt_iff he ht hi hj]
      exact not_lt.2 heq.ge
  rw [List.getD_eq_getElem _ _ hi, List.getD_eq_getElem _ _ hj] at hlogits
  exact (List.Nodup.getElem_inj_iff hdistinct).1 hlogits

/-- **The sampler returns the token that the reference returns for the same draw**: of the `topK`
most probable tokens, cut to the shortest prefix that reaches `topP`, the first whose renormalised
cumulative mass reaches the draw. -/
theorem sample_eq_temperatureSample (he : MonoExp K) (sort : UnstableSort K) {logits : List K}
    (hne : logits ≠ []) (hdistinct : logits.Nodup) {temperature : K} (ht : 1 / 100 ≤ temperature)
    (topP : K) (topK : ℤ) {u : K} (hu : 0 ≤ u ∧ u < 1) : ∃ top idx,
    IsTop (fun i => (probabilities logits temperature).getD i 0) logits.length
      (topKCount topK logits.length) top ∧
    Drawn (fun i => (probabilities logits temperature).getD i 0) topP u top idx ∧
    sampleWithTemperature sort logits temperature topP topK u = some idx ∧
    temperatureSample logits temperature topP topK u = some idx := by
  have htpos : 0 < temperature := lt_of_lt_of_le (by norm_num) ht
  have hdist := distinct_probabilities he hdistinct htpos
  have hn : 0 < logits.length := List.length_pos_iff.2 hne
  have hcount : topKCount topK logits.length ≤ (probabilities logits temperature).length := by
    rw [length_probabilities, topKCount]
    split_ifs <;> omega
  set probs := probabilities logits temperature with hprobs
  set top := (descending probs (List.range probs.length)).take (topKCount topK logits.length)
    with htop
  -- without ties the order is determined, so that both samplers cut the same list
  have hisTop : IsTop (fun i => probs.getD i 0) logits.length (topKCount topK logits.length)
      top := by
    have htake := isTop_take hdist hcount
    rwa [← htop, hprobs, length_probabilities, ← hprobs] at htake
  have htopne : top ≠ [] := by
    refine List.ne_nil_of_length_pos ?_
    rw [hisTop.length]
    exact topKCount_pos hn
  have hpos : ∀ i ∈ top, 0 < probs.getD i 0 := fun i hi => probabilities_pos he (hisTop.lt i hi)
  obtain ⟨idx, hselect, hdrawn⟩ := select_spec topP htopne hpos hu.2.le
  refine ⟨top, idx, hisTop, hdrawn, ?_, ?_⟩
  · rw [sampleWithTemperature_eq_select sort logits topK (not_lt.2 ht), ← hprobs,
      order_eq_descending sort hdist, ← htop, hselect]
  · rw [temperatureSample_eq hne htpos.ne', ← hselect]
    dsimp only
    split_ifs with hk
    · have hmin : min topK.toNat probs.length = topKCount topK logits.length := by
        rw [topKCount, if_neg (not_le.2 hk), length_probabilities]
      rw [← hprobs, hmin, ← htop]
      exact drawFrom_take htopne hpos hisTop.decreasing topP u
    · -- `top_k <= 0` keeps every token
      have hall : top = descending probs (List.range probs.length) := by
        rw [htop, topKCount, if_pos (not_lt.1 hk)]
        refine List.take_of_length_le (le_of_eq ?_)
        rw [(descending_perm _ _).length_eq, List.length_range, hprobs, length_probabilities]
      rw [hall]
      exact drawFrom_range (probabilities_sum he hne temperature) topP u

attribute [local instance] elementaryMono

theorem sample_eq_temperatureSample_two : ∃ top idx,
    IsTop (fun i => (probabilities ([0, 1] : List ℚ) 1).getD i 0) 2 (topKCount 0 2) top ∧
    Drawn (fun i => (probabilities ([0, 1] : List ℚ) 1).getD i 0) (9 / 10) (1 / 2) top idx ∧
    sampleWithTemperature stableSort [0, 1] 1 (9 / 10) 0 (1 / 2) = some idx ∧
    temperatureSample ([0, 1] : List ℚ) 1 (9 / 10) 0 (1 / 2) = some idx :=
  sample_eq_temperatureSample monoExp_elementaryMono stableSort (by decide) (by decide)
    (by norm_num) (9 / 10) 0 ⟨by norm_num, by norm_num⟩

end Server

end VllmVulkan
