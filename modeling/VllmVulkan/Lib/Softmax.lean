import Mathlib.Algebra.BigOperators.Field
import Mathlib.Algebra.Order.BigOperators.Group.Finset
import Mathlib.Algebra.Order.Field.Basic
import Mathlib.Algebra.BigOperators.Ring.Finset
import Mathlib.Analysis.SpecialFunctions.Exp
import Mathlib.Tactic.Ring

/-!
# Softmax, in one pass and in two

Softmax over an ordered field with an abstract exponential: all that is used of `exp` is that it is
positive and turns sums into products.

* `ExpFn` : an exponential;
* `softmax`, `attend` : the weights of a list of logits and the weighted sum of values;
* `softmax_shift` : subtracting any number from all logits leaves the weights as they are, so the
  two-pass form, which subtracts the maximum, is the same function;
* `Online`, `Online.step`, `Online.run` : the one-pass form, with its rescaled running maximum;
* `Online.run_inv` : **the invariant of the pass**: denominator and accumulator are the plain sums
  scaled by `exp (-max)`;
* `Online.result_run` : **one pass computes `attend`**, whatever number the maximum starts from.
-/

namespace VllmVulkan

/-- A positive function that turns sums into products. -/
structure ExpFn (F : Type*) [Field F] [LinearOrder F] where
  /-- The function. -/
  exp : F → F
  exp_add : ∀ a b, exp (a + b) = exp a * exp b
  exp_pos : ∀ a, 0 < exp a

/-- The real exponential. -/
noncomputable def ExpFn.real : ExpFn ℝ := ⟨Real.exp, Real.exp_add, Real.exp_pos⟩

namespace Softmax

open Finset

variable {F : Type*} [Field F] [LinearOrder F] (E : ExpFn F)

/-- The weight of position `t` among the logits `x 0, …, x (n - 1)`. -/
def softmax (n : ℕ) (x : ℕ → F) (t : ℕ) : F := E.exp (x t) / ∑ u ∈ range n, E.exp (x u)

/-- The weighted sum of the values `v`. -/
def attend (n : ℕ) (x v : ℕ → F) : F := ∑ t ∈ range n, softmax E n x t * v t

/-- The weighted sum in two passes: the first finds `m`, the second subtracts it. -/
def twoPass (m : F) (n : ℕ) (x v : ℕ → F) : F :=
  ∑ t ∈ range n, E.exp (x t - m) / (∑ u ∈ range n, E.exp (x u - m)) * v t

theorem exp_sub (a b : F) : E.exp (a - b) = E.exp (-b) * E.exp a := by
  rw [sub_eq_add_neg, add_comm, E.exp_add]

theorem softmax_shift (m : F) (n : ℕ) (x : ℕ → F) (t : ℕ) :
    E.exp (x t - m) / (∑ u ∈ range n, E.exp (x u - m)) = softmax E n x t := by
  simp only [exp_sub E _ m, ← mul_sum, softmax]
  exact mul_div_mul_left _ _ (E.exp_pos _).ne'

/-- **Two passes compute the weighted sum**, whatever number is subtracted. -/
theorem twoPass_eq (m : F) (n : ℕ) (x v : ℕ → F) : twoPass E m n x v = attend E n x v := by
  simp only [twoPass, softmax_shift, attend]

theorem attend_eq_div (n : ℕ) (x v : ℕ → F) :
    attend E n x v = (∑ t ∈ range n, E.exp (x t) * v t) / ∑ t ∈ range n, E.exp (x t) := by
  simp only [attend, softmax, sum_div, div_mul_eq_mul_div]

theorem attend_congr {n : ℕ} {x x' v v' : ℕ → F} (hx : ∀ t < n, x t = x' t)
    (hv : ∀ t < n, v t = v' t) : attend E n x v = attend E n x' v' := by
  rw [attend_eq_div, attend_eq_div]
  congr 1
  · exact sum_congr rfl fun t ht => by rw [hx t (mem_range.1 ht), hv t (mem_range.1 ht)]
  · exact sum_congr rfl fun t ht => by rw [hx t (mem_range.1 ht)]

/-! ### One pass -/

/-- The state of the one-pass form. -/
structure Online (F : Type*) where
  /-- The largest logit so far. -/
  runningMax : F
  /-- The sum of the weights so far, relative to the running maximum. -/
  denom : F
  /-- The weighted sum of the values so far, relative to the running maximum. -/
  acc : F

namespace Online

/-- One token: rescale what is there to the new maximum, then add the token. -/
def step (st : Online F) (logit v : F) : Online F :=
  let newMax := max st.runningMax logit
  let oldScale := E.exp (st.runningMax - newMax)
  let weight := E.exp (logit - newMax)
  ⟨newMax, st.denom * oldScale + weight, st.acc * oldScale + weight * v⟩

/-- The pass over the first `n` tokens, with the maximum starting from `m₀`. -/
def run (m₀ : F) (x v : ℕ → F) (n : ℕ) : Online F :=
  (List.range n).foldl (fun st t => step E st (x t) (v t)) ⟨m₀, 0, 0⟩

/-- The value read off at the end of the pass. -/
def result (st : Online F) : F := if st.denom > 0 then st.acc / st.denom else 0

theorem run_succ (m₀ : F) (x v : ℕ → F) (n : ℕ) :
    run E m₀ x v (n + 1) = step E (run E m₀ x v n) (x n) (v n) := by
  simp only [run, List.range_succ, List.foldl_append, List.foldl_cons, List.foldl_nil]

/-- **The invariant of the pass.** -/
theorem run_inv (m₀ : F) (x v : ℕ → F) (n : ℕ) :
    (run E m₀ x v n).denom =
        E.exp (-(run E m₀ x v n).runningMax) * ∑ t ∈ range n, E.exp (x t) ∧
      (run E m₀ x v n).acc =
        E.exp (-(run E m₀ x v n).runningMax) * ∑ t ∈ range n, E.exp (x t) * v t := by
  induction n with
  | zero => simp [run]
  | succ n ih =>
    obtain ⟨hd, ha⟩ := ih
    have hscale : ∀ m m' : F, E.exp (-m) * E.exp (m - m') = E.exp (-m') := fun m m' => by
      rw [← E.exp_add]; congr 1; ring
    rw [run_succ, sum_range_succ, sum_range_succ]
    simp only [step, hd, ha]
    constructor
    · rw [mul_right_comm, hscale, exp_sub, mul_add]
    · rw [mul_right_comm, hscale, exp_sub, mul_add, mul_assoc]

variable [IsStrictOrderedRing F]

theorem sum_exp_pos {n : ℕ} (hn : 0 < n) (x : ℕ → F) : 0 < ∑ t ∈ range n, E.exp (x t) :=
  sum_pos (fun t _ => E.exp_pos (x t)) ⟨0, mem_range.2 hn⟩

/-- **One pass computes the weighted sum**, whatever number the maximum starts from. -/
theorem result_run {n : ℕ} (hn : 0 < n) (m₀ : F) (x v : ℕ → F) :
    (run E m₀ x v n).result = attend E n x v := by
  obtain ⟨hd, ha⟩ := run_inv E m₀ x v n
  have hpos : 0 < (run E m₀ x v n).denom := by
    rw [hd]; exact mul_pos (E.exp_pos _) (sum_exp_pos E hn x)
  rw [result, if_pos hpos, hd, ha, mul_div_mul_left _ _ (E.exp_pos _).ne', attend_eq_div]

end Online

end Softmax

end VllmVulkan
