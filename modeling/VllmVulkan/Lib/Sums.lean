import VllmVulkan.Lang.Python
import Mathlib.Algebra.BigOperators.Group.Finset.Basic
import Mathlib.Algebra.BigOperators.Intervals
import Mathlib.Algebra.Order.BigOperators.Group.Finset

/-!
# Loops that sum

* `foldl_range_add` : a summation loop is a sum;
* `foldl_stride_add` : so is a loop that advances by a stride;
* `sum_range_mul` : a sum cut into rows of equal length;
* `sum_stride` : **`B` strided loops together visit every index once**, also when the length is not
  a multiple of the stride or smaller than it.
-/

namespace VllmVulkan

open Finset

variable {M : Type*} [AddCommMonoid M]

theorem foldl_range_add (f : ℕ → M) (a : M) (n : ℕ) :
    (List.range n).foldl (fun acc i => acc + f i) a = a + ∑ i ∈ range n, f i := by
  induction n with
  | zero => simp
  | succ n ih =>
    rw [List.range_succ, List.foldl_append, ih, sum_range_succ, List.foldl_cons, List.foldl_nil,
      add_assoc]

/-- The loop `for (d = start; …; d += step)`, run `n` times. -/
theorem foldl_stride_add (f : ℕ → M) (a : M) (start n step : ℕ) :
    (List.range' start n step).foldl (fun acc i => acc + f i) a =
      a + ∑ j ∈ range n, f (start + step * j) := by
  induction n generalizing a start with
  | zero => simp
  | succ n ih =>
    rw [List.range'_succ, List.foldl_cons, ih, sum_range_succ', add_assoc]
    congr 1
    rw [add_comm, Nat.mul_zero, Nat.add_zero]
    congr 1
    refine sum_congr rfl ?_
    intro j _
    rw [Nat.mul_add, Nat.mul_one, Nat.add_assoc, Nat.add_comm step]

theorem sum_map_range' (f : ℕ → M) (start n : ℕ) :
    ((List.range' start n).map f).sum = ∑ i ∈ range n, f (start + i) := by
  rw [List.range'_eq_map_range, List.map_map]
  rfl

theorem sum_range_mul (f : ℕ → M) (m n : ℕ) :
    ∑ i ∈ range (m * n), f i = ∑ x ∈ range m, ∑ i ∈ range n, f (x * n + i) := by
  induction m with
  | zero => simp
  | succ m ih => rw [sum_range_succ, ← ih, Nat.add_mul, Nat.one_mul, sum_range_add]

/-- **Strided loops partition the indices.** -/
theorem sum_stride (f : ℕ → M) {B : ℕ} (hB : 0 < B) (D : ℕ) :
    ∑ t ∈ range B, ∑ j ∈ range (ceilDiv (D - t) B), f (t + B * j) = ∑ i ∈ range D, f i := by
  have hle : D ≤ ceilDiv D B * B := le_ceilDiv_mul hB
  have hrow : ∀ t, ∑ j ∈ range (ceilDiv (D - t) B), f (t + B * j) =
      ∑ j ∈ range (ceilDiv D B), if j * B + t < D then f (j * B + t) else 0 := by
    intro t
    rw [← sum_filter]
    refine sum_congr ?_ fun j _ => by rw [Nat.mul_comm, Nat.add_comm]
    ext j
    simp only [mem_range, mem_filter, lt_ceilDiv_iff hB]
    omega
  simp only [hrow]
  rw [sum_comm, ← sum_range_mul fun i => if i < D then f i else 0, ← sum_filter]
  refine sum_congr ?_ fun _ _ => rfl
  ext i
  simp only [mem_filter, mem_range]
  omega

end VllmVulkan
