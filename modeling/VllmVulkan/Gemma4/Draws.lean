import VllmVulkan.Gemma4.Sampling
import Mathlib.Algebra.Order.Field.Basic
import Mathlib.Algebra.Order.BigOperators.Group.List
import Mathlib.Algebra.BigOperators.Ring.List
import Mathlib.Data.List.Induction
import Mathlib.Algebra.Order.Ring.Rat
import Mathlib.Tactic.Linarith
import Mathlib.Tactic.NormNum

/-!
# What a draw selects

* `nucleus_eq_take`, `pick_eq_some` : the two loops, as a shortest prefix and a first position;
* `probabilities` : what softmax makes of logits: positive numbers in the order of the logits;
* `argmax_spec` : the first of the largest logits;
* `sample_eq_head` : one candidate, or a draw of zero, gives the head of the order;
* `ties_iff` : **when that is the greedy choice for every order of equal keys**;
* `tie_not_first` : equal logits of which the first is not returned.
-/

namespace VllmVulkan

namespace Gemma4

open Elementary

/-- The mass of the first `m` elements. -/
def prefixMass {K : Type} [Field K] (mass : ℕ → K) (order : List ℕ) (m : ℕ) : K :=
  ((order.take m).map mass).sum

section Loops

variable {K : Type} [Field K] {mass : ℕ → K}

@[simp] theorem prefixMass_zero (order : List ℕ) : prefixMass mass order 0 = 0 := rfl

@[simp] theorem prefixMass_cons (idx : ℕ) (order : List ℕ) (m : ℕ) :
    prefixMass mass (idx :: order) (m + 1) = mass idx + prefixMass mass order m := by
  simp [prefixMass]

theorem prefixMass_div (prob : ℕ → K) (total : K) (top : List ℕ) (m : ℕ) :
    prefixMass (fun idx => prob idx / total) top m = prefixMass prob top m / total := by
  simp only [prefixMass, div_eq_mul_inv, List.sum_map_mul_right]

theorem prefixMass_length (prob : ℕ → K) (top : List ℕ) :
    prefixMass prob top top.length = (top.map prob).sum := by
  rw [prefixMass, List.take_length]

theorem prefixMass_take (prob : ℕ → K) (top : List ℕ) {i m : ℕ} (hi : i ≤ m) :
    prefixMass prob (top.take m) i = prefixMass prob top i := by
  rw [prefixMass, List.take_take, min_eq_left hi, prefixMass]

variable [LinearOrder K]

/-- The nucleus is the shortest prefix that reaches `topP`, or the whole list. -/
theorem nucleus_eq_take (mass : ℕ → K) (topP : K) {order : List ℕ} (hne : order ≠ [])
    (cumsum : K) : ∃ m, 1 ≤ m ∧ m ≤ order.length ∧ nucleus mass topP order cumsum = order.take m ∧
      (m = order.length ∨ topP ≤ cumsum + prefixMass mass order m) ∧
      ∀ i, 1 ≤ i → i < m → cumsum + prefixMass mass order i < topP := by
  induction order generalizing cumsum with
  | nil => exact absurd rfl hne
  | cons idx order ih =>
    by_cases hreach : topP ≤ cumsum + mass idx
    · refine ⟨1, le_rfl, by simp, by simp [nucleus, hreach], .inr ?_, fun i h₁ h₂ => by omega⟩
      simpa [prefixMass] using hreach
    · cases order with
      | nil =>
        exact ⟨1, le_rfl, le_rfl, by simp [nucleus, hreach], .inl rfl, fun i h₁ h₂ => by omega⟩
      | cons idx' order =>
        obtain ⟨m, hm, hlen, heq, hend, hmin⟩ := ih (by simp) (cumsum + mass idx)
        refine ⟨m + 1, by omega, by simpa using hlen, ?_, ?_, fun i h₁ h₂ => ?_⟩
        · rw [nucleus]
          simp only [hreach, if_false, heq, List.take_succ_cons]
        · rw [prefixMass_cons, ← add_assoc]
          exact hend.imp (fun h => by rw [h]; rfl) id
        · obtain ⟨i, rfl⟩ : ∃ i', i = i' + 1 := ⟨i - 1, by omega⟩
          rw [prefixMass_cons, ← add_assoc]
          cases i with
          | zero => simpa using hreach
          | succ i => exact hmin (i + 1) (by omega) (by omega)

theorem pick_eq_some {u : K} {order : List ℕ} {cumsum : K} {idx : ℕ} :
    pick mass u order cumsum = some idx ↔ ∃ j, order[j]? = some idx ∧
      u ≤ cumsum + prefixMass mass order (j + 1) ∧
      ∀ i < j, cumsum + prefixMass mass order (i + 1) < u := by
  induction order generalizing cumsum with
  | nil => simp [pick]
  | cons head order ih =>
    rw [pick]
    by_cases hreach : u ≤ cumsum + mass head
    · simp only [hreach, if_true, Option.some.injEq]
      constructor
      · -- the head reaches `u`, and nothing lies before it
        rintro rfl
        exact ⟨0, rfl, by simpa using hreach, fun i hi => by omega⟩
      · rintro ⟨j, hj, -, hmin⟩
        cases j with
        | zero => exact Option.some.inj hj
        | succ j =>
          have hlt := hmin 0 (Nat.succ_pos j)
          rw [prefixMass_cons, prefixMass_zero, add_zero] at hlt
          exact absurd hreach (not_le.2 hlt)
    · simp only [hreach, if_false, ih]
      constructor
      · rintro ⟨j, hj, hu, hmin⟩
        refine ⟨j + 1, hj, by rwa [prefixMass_cons, ← add_assoc], fun i hi => ?_⟩
        rw [prefixMass_cons, ← add_assoc]
        cases i with
        | zero => simpa using hreach
        | succ i => exact hmin i (by omega)
      · rintro ⟨j, hj, hu, hmin⟩
        cases j with
        | zero =>
          rw [prefixMass_cons, prefixMass_zero, add_zero] at hu
          exact absurd hu hreach
        | succ j =>
          rw [prefixMass_cons, ← add_assoc] at hu
          refine ⟨j, hj, hu, fun i hi => ?_⟩
          have hlt := hmin (i + 1) (by omega)
          rwa [prefixMass_cons, ← add_assoc] at hlt

theorem exists_pick {u : K} {order : List ℕ} {cumsum : K} (hne : order ≠ [])
    (h : u ≤ cumsum + prefixMass mass order order.length) :
    ∃ idx, pick mass u order cumsum = some idx := by
  induction order generalizing cumsum with
  | nil => exact absurd rfl hne
  | cons head order ih =>
    rw [pick]
    by_cases hreach : u ≤ cumsum + mass head
    · exact ⟨head, by simp [hreach]⟩
    · simp only [hreach, if_false]
      refine ih (fun hnil => ?_) (by rwa [List.length_cons, prefixMass_cons, ← add_assoc] at h)
      subst hnil
      exact hreach (by simpa using h)

theorem nucleus_congr {mass' : ℕ → K} {topP : K} {order : List ℕ}
    (h : ∀ i ∈ order, mass i = mass' i) (cumsum : K) :
    nucleus mass topP order cumsum = nucleus mass' topP order cumsum := by
  induction order generalizing cumsum with
  | nil => rfl
  | cons idx order ih =>
    simp only [nucleus, h idx List.mem_cons_self,
      ih fun i hi => h i (List.mem_cons_of_mem _ hi)]

theorem nucleus_subset (mass : ℕ → K) (topP : K) (order : List ℕ) (cumsum : K) :
    nucleus mass topP order cumsum ⊆ order := by
  induction order generalizing cumsum with
  | nil => exact fun i hi => hi
  | cons idx order ih =>
    simp only [nucleus]
    split_ifs
    · simp
    · exact List.cons_subset_cons idx (ih _)

theorem pick_congr {mass' : ℕ → K} {u : K} {order : List ℕ}
    (h : ∀ i ∈ order, mass i = mass' i) (cumsum : K) :
    pick mass u order cumsum = pick mass' u order cumsum := by
  induction order generalizing cumsum with
  | nil => rfl
  | cons idx order ih =>
    simp only [pick, h idx List.mem_cons_self, ih fun i hi => h i (List.mem_cons_of_mem _ hi)]

theorem nucleus_map (f : ℕ → ℕ) (topP : K) (order : List ℕ) (cumsum : K) :
    nucleus mass topP (order.map f) cumsum =
      (nucleus (fun i => mass (f i)) topP order cumsum).map f := by
  induction order generalizing cumsum with
  | nil => rfl
  | cons idx order ih =>
    simp only [List.map_cons, nucleus, ih]
    split_ifs <;> rfl

theorem pick_map (f : ℕ → ℕ) (u : K) (order : List ℕ) (cumsum : K) :
    pick mass u (order.map f) cumsum = (pick (fun i => mass (f i)) u order cumsum).map f := by
  induction order generalizing cumsum with
  | nil => rfl
  | cons idx order ih =>
    simp only [List.map_cons, pick, ih]
    split_ifs <;> rfl

end Loops

/-! ### Probabilities -/

/-- An exponential that is positive and strictly monotone. -/
structure MonoExp (K : Type) [Field K] [LinearOrder K] [Elementary K] : Prop where
  pos : ∀ x : K, 0 < exp x
  mono : StrictMono (exp : K → K)

section Probabilities

variable {K : Type} [Field K] [LinearOrder K] [Elementary K]

theorem length_softmaxScores (scores : List K) : (softmaxScores scores).length = scores.length := by
  simp [softmaxScores]

/-- The denominator of a softmax. -/
def softmaxTotal (scores : List K) : K :=
  (scores.map fun s => exp (s - scores.max?.getD 0)).sum

theorem softmaxScores_getD {scores : List K} {i : ℕ} (hi : i < scores.length) :
    (softmaxScores scores).getD i 0 =
      exp (scores.getD i 0 - scores.max?.getD 0) / softmaxTotal scores := by
  simp [softmaxScores, softmaxTotal, List.getD_eq_getElem?_getD, List.getElem?_eq_getElem hi]

variable [IsStrictOrderedRing K]

theorem softmaxTotal_pos (he : MonoExp K) {scores : List K} (hne : scores ≠ []) :
    0 < softmaxTotal scores := by
  refine List.sum_pos _ (fun x hx => ?_) (by simpa using hne)
  obtain ⟨s, -, rfl⟩ := List.mem_map.1 hx
  exact he.pos _

theorem softmaxScores_pos (he : MonoExp K) {scores : List K} {i : ℕ} (hi : i < scores.length) :
    0 < (softmaxScores scores).getD i 0 := by
  rw [softmaxScores_getD hi]
  exact div_pos (he.pos _) (softmaxTotal_pos he (List.ne_nil_of_length_pos (by omega)))

theorem softmaxScores_lt_iff (he : MonoExp K) {scores : List K} {i j : ℕ} (hi : i < scores.length)
    (hj : j < scores.length) : (softmaxScores scores).getD i 0 < (softmaxScores scores).getD j 0 ↔
      scores.getD i 0 < scores.getD j 0 := by
  rw [softmaxScores_getD hi, softmaxScores_getD hj,
    div_lt_div_iff_of_pos_right (softmaxTotal_pos he (List.ne_nil_of_length_pos (by omega))),
    he.mono.lt_iff_lt, sub_lt_sub_iff_right]

theorem softmaxScores_sum (he : MonoExp K) {scores : List K} (hne : scores ≠ []) :
    (softmaxScores scores).sum = 1 := by
  have hdiv : (softmaxScores scores).sum = softmaxTotal scores / softmaxTotal scores := by
    simp only [softmaxScores, softmaxTotal, div_eq_mul_inv, List.sum_map_mul_right]
    rw [List.map_id']
  rw [hdiv, div_self (softmaxTotal_pos he hne).ne']

end Probabilities

/-! ### The greedy choice -/

section Greedy

variable {K : Type} [Field K] [LinearOrder K]

/-- The first of the largest elements. -/
structure IsArgmax (logits : List K) (best : ℕ) : Prop where
  lt_length : best < logits.length
  le : ∀ i < logits.length, logits.getD i 0 ≤ logits.getD best 0
  first : ∀ i < best, logits.getD i 0 < logits.getD best 0

/-- **`argmax` returns the first of the largest elements.** -/
theorem argmax_spec {logits : List K} (hne : logits ≠ []) : IsArgmax logits (argmax logits) := by
  have hfold : ∀ xs : List K, xs ≠ [] → ∃ best, IsArgmax xs best ∧
      xs.zipIdx.foldl (fun best p =>
        if best.2.all fun bestVal => bestVal < p.1 then (p.2, some p.1) else best)
        ((0, none) : ℕ × Option K) = (best, some (xs.getD best 0)) := by
    -- from the left: the state after `xs` is the first greatest of `xs`
    intro xs
    induction xs using List.reverseRecOn with
    | nil => exact fun h => absurd rfl h
    | append_singleton xs v ih =>
      intro _
      rw [List.zipIdx_append, List.foldl_append]
      have hlast : (xs ++ [v]).getD xs.length 0 = v := by simp [List.getD_eq_getElem?_getD]
      have hinit : ∀ i < xs.length, (xs ++ [v]).getD i 0 = xs.getD i 0 := fun i hi => by
        rw [List.getD_append _ _ _ _ hi]
      by_cases hnil : xs = []
      · subst hnil
        exact ⟨0, ⟨Nat.one_pos, fun i hi => by
          obtain rfl : i = 0 := Nat.lt_one_iff.1 hi
          exact le_rfl, fun i hi => absurd hi (Nat.not_lt_zero i)⟩, rfl⟩
      · obtain ⟨best, hb, hstate⟩ := ih hnil
        rw [hstate]
        simp only [Nat.zero_add, List.zipIdx_singleton, List.foldl_cons, List.foldl_nil,
          Option.all_some, decide_eq_true_eq]
        split_ifs with hlt
        · -- a strictly greater value at the end replaces it
          refine ⟨xs.length, ⟨by simp, fun i hi => ?_, fun i hi => ?_⟩, by rw [hlast]⟩
          · rw [hlast]
            rw [List.length_append, List.length_singleton] at hi
            by_cases hix : i < xs.length
            · rw [hinit i hix]
              exact (hb.le i hix).trans hlt.le
            · obtain rfl : i = xs.length := by omega
              exact hlast.le
          · rw [hlast, hinit i hi]
            exact (hb.le i hi).trans_lt hlt
        · -- an equal one does not
          refine ⟨best, ⟨by simpa using hb.lt_length.trans (Nat.lt_succ_self _), fun i hi => ?_,
            fun i hi => ?_⟩, by rw [hinit best hb.lt_length]⟩
          · rw [hinit best hb.lt_length]
            rw [List.length_append, List.length_singleton] at hi
            by_cases hix : i < xs.length
            · rw [hinit i hix]
              exact hb.le i hix
            · obtain rfl : i = xs.length := by omega
              rw [hlast]
              exact not_lt.1 hlt
          · rw [hinit best hb.lt_length, hinit i (hi.trans hb.lt_length)]
            exact hb.first i hi
  obtain ⟨best, hb, hstate⟩ := hfold logits hne
  rw [argmax, hstate]
  exact hb

end Greedy

/-! ### The draw -/

section Select

variable {K : Type} [Field K] [LinearOrder K]

/-- The sampler after its sort: the nucleus of the candidates, and the draw from it. -/
def select (prob : ℕ → K) (topP uniformRandom : K) (topKOrder : List ℕ) : Option ℕ :=
  let topKSum := (topKOrder.map prob).sum
  let nucleus := nucleus (fun idx => prob idx / topKSum) topP topKOrder 0
  let nucleusSum := (nucleus.map prob).sum
  (pick (fun idx => prob idx / nucleusSum) uniformRandom nucleus 0).or nucleus.getLast?

/-- `idx` is the draw from `top`: the first element whose renormalised cumulative mass reaches `u`
in the shortest prefix whose renormalised mass reaches `topP`. -/
def Drawn (prob : ℕ → K) (topP u : K) (top : List ℕ) (idx : ℕ) : Prop :=
  ∃ m, 1 ≤ m ∧ m ≤ top.length ∧
    (m = top.length ∨ topP ≤ prefixMass prob top m / prefixMass prob top top.length) ∧
    (∀ i, 1 ≤ i → i < m → prefixMass prob top i / prefixMass prob top top.length < topP) ∧
    ∃ j < m, top[j]? = some idx ∧ u ≤ prefixMass prob top (j + 1) / prefixMass prob top m ∧
      ∀ i < j, prefixMass prob top (i + 1) / prefixMass prob top m < u

variable [IsStrictOrderedRing K]

theorem prefixMass_pos {prob : ℕ → K} {top : List ℕ} (hprob : ∀ i ∈ top, 0 < prob i) {m : ℕ}
    (hm : 1 ≤ m) (hne : top ≠ []) : 0 < prefixMass prob top m := by
  refine List.sum_pos _ (fun x hx => ?_) ?_
  · obtain ⟨i, hi, rfl⟩ := List.mem_map.1 hx
    exact hprob i (List.mem_of_mem_take hi)
  · simp only [ne_eq, List.map_eq_nil_iff, List.take_eq_nil_iff, hne, or_false]
    omega

/-- **The sampler draws from the nucleus.** -/
theorem select_spec {prob : ℕ → K} (topP : K) {u : K} {top : List ℕ} (hne : top ≠ [])
    (hprob : ∀ i ∈ top, 0 < prob i) (hu : u ≤ 1) :
    ∃ idx, select prob topP u top = some idx ∧ Drawn prob topP u top idx := by
  obtain ⟨m, hm, hlen, heq, hend, hmin⟩ :=
    nucleus_eq_take (fun idx => prob idx / (top.map prob).sum) topP hne 0
  simp only [prefixMass_div, ← prefixMass_length, zero_add] at hend hmin
  have htake : top.take m ≠ [] := by
    simp only [ne_eq, List.take_eq_nil_iff, hne, or_false]
    omega
  have hmass : ((top.take m).map prob).sum = prefixMass prob top m := rfl
  -- the nucleus has all of its own mass, so the pick does not fall through
  have hwhole : u ≤ 0 + prefixMass (fun idx => prob idx / prefixMass prob top m) (top.take m)
      (top.take m).length := by
    rw [prefixMass_div, prefixMass_length, hmass, div_self (prefixMass_pos hprob hm hne).ne',
      zero_add]
    exact hu
  obtain ⟨idx, hpick⟩ := exists_pick htake hwhole
  obtain ⟨j, hj, hreach, hfirst⟩ := pick_eq_some.1 hpick
  have hjm : j < m := by
    have hlt := (List.getElem?_eq_some_iff.1 hj).1
    exact lt_of_lt_of_le hlt (List.length_take_le m top)
  simp only [prefixMass_div, zero_add] at hreach hfirst
  refine ⟨idx, ?_, m, hm, hlen, hend, hmin, j, hjm, ?_, ?_, fun i hi => ?_⟩
  · rw [select]
    simp only [heq, hmass, hpick, Option.some_or]
  · rwa [List.getElem?_take_of_lt hjm] at hj
  · rwa [prefixMass_take prob top hjm] at hreach
  · have hlt := hfirst i hi
    rwa [prefixMass_take prob top (by omega)] at hlt

theorem Drawn.eq_head {prob : ℕ → K} {topP u : K} {first idx : ℕ} {rest : List ℕ}
    (hprob : ∀ i ∈ first :: rest, 0 < prob i) (h : Drawn prob topP u (first :: rest) idx)
    (hcase : rest = [] ∨ u = 0) : idx = first := by
  obtain ⟨m, hm, hlen, -, -, j, hj, hget, -, hfirst⟩ := h
  have hzero : j = 0 := by
    rcases hcase with rfl | rfl
    · simp only [List.length_cons, List.length_nil] at hlen
      omega
    · by_contra hne
      have hneg := hfirst 0 (Nat.pos_of_ne_zero hne)
      have hpos := div_pos (prefixMass_pos hprob (le_refl 1) (List.cons_ne_nil first rest))
        (prefixMass_pos hprob hm (List.cons_ne_nil first rest))
      exact absurd hpos (not_lt.2 hneg.le)
  rw [hzero] at hget
  exact (Option.some.inj hget).symm

end Select

/-! ### Ties -/

section Ties

variable {K : Type} [Field K] [LinearOrder K]

theorem UnstableSort.mem_order (sort : UnstableSort K) {probs : List K} {i : ℕ} :
    i ∈ sort.order probs ↔ i < probs.length := by
  rw [(sort.perm probs).mem_iff, List.mem_range]

theorem UnstableSort.length_order (sort : UnstableSort K) (probs : List K) :
    (sort.order probs).length = probs.length := by
  rw [(sort.perm probs).length_eq, List.length_range]

/-- The indices by decreasing probability, those of equal probability in the order of `xs`. -/
def descending (probs : List K) (xs : List ℕ) : List ℕ :=
  xs.mergeSort fun a b => probs.getD b 0 ≤ probs.getD a 0

theorem descending_perm (probs : List K) (xs : List ℕ) : (descending probs xs).Perm xs :=
  List.mergeSort_perm _ _

theorem descending_sorted (probs : List K) (xs : List ℕ) :
    (descending probs xs).Pairwise fun a b => probs.getD b 0 ≤ probs.getD a 0 := by
  have hsorted := @List.pairwise_mergeSort ℕ (fun a b => decide (probs.getD b 0 ≤ probs.getD a 0))
    (fun a b c hab hbc => by
      simp only [decide_eq_true_eq] at hab hbc ⊢
      exact hbc.trans hab)
    (fun a b => by
      simp only [Bool.or_eq_true, decide_eq_true_eq]
      exact (le_total _ _).symm) xs
  exact hsorted.imp fun h => of_decide_eq_true h

/-- `i` is an index of a largest element. -/
def IsLargest (probs : List K) (i : ℕ) : Prop :=
  i < probs.length ∧ ∀ j < probs.length, probs.getD j 0 ≤ probs.getD i 0

instance (probs : List K) (i : ℕ) : Decidable (IsLargest probs i) :=
  inferInstanceAs (Decidable (_ ∧ _))

/-- A sort that puts `i` first wherever that is a largest element. -/
def preferring (K : Type) [Field K] [LinearOrder K] (i : ℕ) : UnstableSort K where
  order probs :=
    if IsLargest probs i then i :: descending probs ((List.range probs.length).erase i)
    else descending probs (List.range probs.length)
  perm probs := by
    split_ifs with h
    · exact ((descending_perm probs _).cons i).trans
        (List.perm_cons_erase (List.mem_range.2 h.1)).symm
    · exact descending_perm probs _
  sorted probs := by
    split_ifs with h
    · refine List.pairwise_cons.2 ⟨fun j hj => ?_, descending_sorted probs _⟩
      have hmem := List.mem_of_mem_erase ((descending_perm probs _).mem_iff.1 hj)
      exact h.2 j (List.mem_range.1 hmem)
    · exact descending_sorted probs _

variable [Elementary K]

/-- The probabilities of logits at a temperature. -/
def probabilities (logits : List K) (temperature : K) : List K :=
  softmaxScores (logits.map (· * (1 / temperature)))

@[simp] theorem length_probabilities (logits : List K) (temperature : K) :
    (probabilities logits temperature).length = logits.length := by
  rw [probabilities, length_softmaxScores, List.length_map]

/-- The number of candidates `topK` asks for. -/
def topKCount (topK : ℤ) (n : ℕ) : ℕ := if topK ≤ 0 then n else min topK.toNat n

theorem sampleWithTemperature_eq_select (sort : UnstableSort K) (logits : List K)
    {temperature topP u : K} (topK : ℤ) (ht : ¬ temperature < 1 / 100) :
    sampleWithTemperature sort logits temperature topP topK u =
      select (fun idx => (probabilities logits temperature).getD idx 0) topP u
        ((sort.order (probabilities logits temperature)).take (topKCount topK logits.length)) := by
  rw [sampleWithTemperature, if_neg ht]
  rfl

theorem topKCount_pos {topK : ℤ} {n : ℕ} (hn : 0 < n) : 0 < topKCount topK n := by
  unfold topKCount
  split_ifs <;> omega

variable [IsStrictOrderedRing K]

theorem probabilities_pos (he : MonoExp K) {logits : List K} {temperature : K} {i : ℕ}
    (hi : i < logits.length) : 0 < (probabilities logits temperature).getD i 0 :=
  softmaxScores_pos he (by rwa [List.length_map])

theorem probabilities_lt_iff (he : MonoExp K) {logits : List K} {temperature : K}
    (ht : 0 < temperature) {i j : ℕ} (hi : i < logits.length) (hj : j < logits.length) :
    (probabilities logits temperature).getD i 0 < (probabilities logits temperature).getD j 0 ↔
      logits.getD i 0 < logits.getD j 0 := by
  have hscaled : ∀ n < logits.length,
      (logits.map (· * (1 / temperature))).getD n 0 = logits.getD n 0 * (1 / temperature) := by
    intro n hn
    simp [List.getD_eq_getElem?_getD, List.getElem?_eq_getElem hn]
  rw [probabilities, softmaxScores_lt_iff he (by rwa [List.length_map]) (by rwa [List.length_map]),
    hscaled i hi, hscaled j hj, mul_lt_mul_iff_of_pos_right (one_div_pos.2 ht)]

/-- **With one candidate, or a draw of zero, the sampler returns the head of the order.** -/
theorem sample_eq_head (he : MonoExp K) (sort : UnstableSort K) {logits : List K}
    (hne : logits ≠ []) {temperature topP u : K} {topK : ℤ} (ht : ¬ temperature < 1 / 100)
    (hu : u ≤ 1) (hk : topK = 1 ∨ u = 0) :
    sampleWithTemperature sort logits temperature topP topK u =
      (sort.order (probabilities logits temperature)).head? := by
  have hlen := sort.length_order (probabilities logits temperature)
  rw [length_probabilities] at hlen
  have hn : 0 < logits.length := List.length_pos_iff.2 hne
  obtain ⟨first, rest, horder⟩ : ∃ first rest,
      sort.order (probabilities logits temperature) = first :: rest :=
    List.exists_cons_of_length_pos (by omega)
  have hprob : ∀ i ∈ sort.order (probabilities logits temperature),
      0 < (probabilities logits temperature).getD i 0 := by
    intro i hi
    rw [sort.mem_order, length_probabilities] at hi
    exact probabilities_pos he hi
  obtain ⟨k, hcount⟩ : ∃ k, topKCount topK logits.length = k + 1 :=
    Nat.exists_eq_add_one.2 (topKCount_pos hn)
  rw [sampleWithTemperature_eq_select sort logits topK ht, horder, hcount, List.take_succ_cons,
    List.head?_cons]
  rw [horder] at hprob
  have htop : ∀ i ∈ first :: rest.take k, 0 < (probabilities logits temperature).getD i 0 :=
    fun i hi => hprob i (List.cons_subset_cons first (List.take_subset k rest) hi)
  obtain ⟨idx, hsel, hdrawn⟩ := select_spec topP (List.cons_ne_nil _ _) htop hu
  rw [hsel, hdrawn.eq_head htop]
  refine hk.imp_left ?_
  intro hone
  -- a count of one leaves the head alone
  obtain rfl : k = 0 := by
    rw [hone, topKCount, if_neg (by decide)] at hcount
    have : (1 : ℤ).toNat = 1 := rfl
    omega
  rfl

theorem head_order_largest (he : MonoExp K) (sort : UnstableSort K) {logits : List K}
    {temperature : K} (ht : 0 < temperature) {first : ℕ}
    (h : (sort.order (probabilities logits temperature)).head? = some first) :
    IsLargest logits first := by
  obtain ⟨rest, horder⟩ := List.head?_eq_some_iff.1 h
  have hlt : ∀ i ∈ sort.order (probabilities logits temperature), i < logits.length := by
    intro i hi
    rwa [sort.mem_order, length_probabilities] at hi
  have hfirst : first < logits.length := hlt first (by simp [horder])
  refine ⟨hfirst, fun j hj => ?_⟩
  have hmem : j ∈ sort.order (probabilities logits temperature) := by
    rwa [sort.mem_order, length_probabilities]
  have hsorted := sort.sorted (probabilities logits temperature)
  rw [horder] at hmem hsorted
  rcases List.mem_cons.1 hmem with rfl | hrest
  · exact le_rfl
  · have hle := (List.pairwise_cons.1 hsorted).1 j hrest
    rw [← not_lt, probabilities_lt_iff he ht hfirst hj, not_lt] at hle
    exact hle

/-- **One candidate, or a draw of zero, gives the first of the largest logits whatever the sort
makes of equal keys, exactly when the draw is greedy or the largest logit is attained once.** -/
theorem ties_iff (he : MonoExp K) {logits : List K} (hne : logits ≠ []) (temperature topP : K)
    {topK : ℤ} {u : K} (hu : 0 ≤ u ∧ u < 1) (hk : topK = 1 ∨ u = 0) :
    (∀ sort : UnstableSort K,
      sampleWithTemperature sort logits temperature topP topK u = some (argmax logits)) ↔
    temperature < 1 / 100 ∨ ∀ i < logits.length, i ≠ argmax logits →
      logits.getD i 0 < logits.getD (argmax logits) 0 := by
  have hbest := argmax_spec hne
  constructor
  · intro hall
    by_contra hcon
    simp only [not_or, not_forall, not_lt] at hcon
    obtain ⟨hlow, i, hi, hia, hle⟩ := hcon
    have ht : ¬ temperature < 1 / 100 := not_lt.2 hlow
    have htpos : 0 < temperature := lt_of_lt_of_le (by norm_num) hlow
    -- a sort may put the other largest element first
    have hlargest : IsLargest (probabilities logits temperature) i := by
      refine ⟨by rwa [length_probabilities], fun j hj => ?_⟩
      rw [length_probabilities] at hj
      rw [← not_lt, probabilities_lt_iff he htpos hi hj, not_lt]
      exact (hbest.le j hj).trans hle
    have hsample := hall (preferring K i)
    rw [sample_eq_head he _ hne ht hu.2.le hk] at hsample
    simp only [preferring, if_pos hlargest, List.head?_cons, Option.some.injEq] at hsample
    exact hia hsample
  · rintro (hgreedy | hunique) sort
    · rw [sampleWithTemperature, if_pos hgreedy]
    · by_cases ht : temperature < 1 / 100
      · rw [sampleWithTemperature, if_pos ht]
      · have htpos : 0 < temperature := lt_of_lt_of_le (by norm_num) (not_lt.1 ht)
        rw [sample_eq_head he sort hne ht hu.2.le hk]
        have hpos : 0 < (sort.order (probabilities logits temperature)).length := by
          rw [sort.length_order, length_probabilities]
          exact List.length_pos_iff.2 hne
        obtain ⟨first, rest, horder⟩ := List.exists_cons_of_length_pos hpos
        have hhead : (sort.order (probabilities logits temperature)).head? = some first := by
          rw [horder, List.head?_cons]
        obtain ⟨hfirst, hmax⟩ := head_order_largest he sort htpos hhead
        rw [hhead]
        congr 1
        by_contra hia
        exact absurd (hmax _ hbest.lt_length) (not_le.2 (hunique first hfirst hia))

/-! ### Equal logits -/

/-- Elementary functions whose exponential is strictly monotone: `1 / (1 - x)` below zero and
`1 + x` from it on. -/
abbrev elementaryMono : Elementary ℚ where
  sqrt _ := 1
  tanh _ := 0
  exp x := if x < 0 then 1 / (1 - x) else 1 + x
  sin _ := 0
  cos _ := 1
  powf _ _ := 1

attribute [local instance] elementaryMono

theorem monoExp_elementaryMono : MonoExp ℚ where
  pos x := by
    change (0 : ℚ) < if x < 0 then 1 / (1 - x) else 1 + x
    split_ifs with h
    · exact one_div_pos.2 (by linarith)
    · linarith
  mono x y hxy := by
    change (if x < 0 then 1 / (1 - x) else 1 + x) < if y < 0 then 1 / (1 - y) else 1 + y
    split_ifs with hx hy hy
    · exact one_div_lt_one_div_of_lt (by linarith) (by linarith)
    · have hlt : 1 / (1 - x) < 1 := by
        rw [div_lt_one (by linarith)]
        linarith
      linarith
    · linarith
    · linarith

theorem ties_iff_two :
    sampleWithTemperature (preferring ℚ 0) [0, 1] 1 1 1 (1 / 2) = some (argmax ([0, 1] : List ℚ)) :=
  (ties_iff monoExp_elementaryMono (by decide) 1 1 ⟨by norm_num, by norm_num⟩ (.inl rfl)).2
    (.inr (by decide +kernel)) _

/-- Twenty-five logits, of which the fourth is one of the largest but not the first of them. -/
def tiedLogits : List ℚ := (List.replicate 5 [0, 1, 1, 1, 0]).flatten

/-- The sampler may return the fourth. -/
theorem tie_not_first : ¬ ∀ sort : UnstableSort ℚ,
    sampleWithTemperature sort tiedLogits 1 1 1 0 = some (argmax tiedLogits) := by
  intro hall
  have hsample := hall (preferring ℚ 3)
  rw [sample_eq_head monoExp_elementaryMono _ (by decide) (by norm_num) (by norm_num) (.inl rfl)]
    at hsample
  revert hsample
  decide +kernel

end Ties

end Gemma4

end VllmVulkan
