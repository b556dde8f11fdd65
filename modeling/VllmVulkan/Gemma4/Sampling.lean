import VllmVulkan.Gemma4.Ops

/-!
# Sampling the next token

`none` is a panic.

* `argmax` : the greedy choice;
* `UnstableSort` : `sort_unstable_by`, which leaves the order of equal elements open;
* `nucleus`, `pick` : the loops over the sorted probabilities;
* `sampleWithTemperature` : the sampler.
-/

namespace VllmVulkan

namespace Gemma4

variable {K : Type} [Field K] [LinearOrder K]

/-- `argmax`: the first of the largest elements. -/
def argmax (logits : List K) : ℕ :=
  (logits.zipIdx.foldl (fun best p =>
    if best.2.all fun bestVal => bestVal < p.1 then (p.2, some p.1) else best)
    ((0, none) : ℕ × Option K)).1

/-- `order.sort_unstable_by(…)`: the indices by decreasing probability, those of equal probability
in any order. -/
structure UnstableSort (K : Type) [Field K] [LinearOrder K] where
  order : List K → List ℕ
  perm : ∀ probs, (order probs).Perm (List.range probs.length)
  sorted : ∀ probs, (order probs).Pairwise fun a b => probs.getD b 0 ≤ probs.getD a 0

/-- A sort that keeps the order of equal elements. -/
def stableSort : UnstableSort ℚ where
  order probs := (List.range probs.length).mergeSort fun a b => probs.getD b 0 ≤ probs.getD a 0
  perm probs := List.mergeSort_perm _ _
  sorted probs := by
    have hsorted := @List.pairwise_mergeSort ℕ
      (fun a b => decide (probs.getD b 0 ≤ probs.getD a 0))
      (fun a b c hab hbc => by
        simp only [decide_eq_true_eq] at hab hbc ⊢
        exact le_trans hbc hab)
      (fun a b => by
        simp only [Bool.or_eq_true, decide_eq_true_eq]
        exact (le_total _ _).symm)
      (List.range probs.length)
    exact hsorted.imp fun h => of_decide_eq_true h

/-- The shortest prefix whose mass reaches `topP`, or all of them. -/
def nucleus (mass : ℕ → K) (topP : K) : List ℕ → K → List ℕ
  | [], _ => []
  | idx :: order, cumsum =>
    let cumsum := cumsum + mass idx
    if topP ≤ cumsum then [idx] else idx :: nucleus mass topP order cumsum

/-- The first index at which the mass reaches `uniformRandom`. -/
def pick (mass : ℕ → K) (uniformRandom : K) : List ℕ → K → Option ℕ
  | [], _ => none
  | idx :: order, cumsum =>
    let cumsum := cumsum + mass idx
    if uniformRandom ≤ cumsum then some idx else pick mass uniformRandom order cumsum

variable [Elementary K]

/-- `sample_with_temperature`. -/
def sampleWithTemperature (sort : UnstableSort K) (logits : List K) (temperature topP : K)
    (topK : ℤ) (uniformRandom : K) : Option ℕ :=
  if temperature < 1 / 100 then some (argmax logits)
  else
    let n := logits.length
    let invTemp := 1 / temperature
    let probs := softmaxScores (logits.map (· * invTemp))
    let prob := fun idx => probs.getD idx 0
    let k := if topK ≤ 0 then n else min topK.toNat n
    let topKOrder := (sort.order probs).take k
    let topKSum := (topKOrder.map prob).sum
    let nucleus := nucleus (fun idx => prob idx / topKSum) topP topKOrder 0
    let nucleusSum := (nucleus.map prob).sum
    (pick (fun idx => prob idx / nucleusSum) uniformRandom nucleus 0).or nucleus.getLast?

end Gemma4

end VllmVulkan
