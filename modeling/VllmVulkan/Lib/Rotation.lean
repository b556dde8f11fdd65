import Mathlib.Algebra.BigOperators.Intervals
import Mathlib.Tactic.LinearCombination
import Mathlib.Tactic.Ring

/-!
# Rotations of pairs of coordinates

A vector whose first `half + half` coordinates are taken in pairs `(i, i + half)`, each pair turned
in its plane by an angle of its own; the remaining coordinates stay.

* `Turn`, `Turn.act` : an angle, by its sine and cosine, and what it does to a plane;
* `rotate`, `pair`, `inner` : the rotation of a vector, a pair of it and the inner product;
* `rotate_mul` : **rotations compose by adding their angles**;
* `inner_rotate` : **a rotation keeps inner products**;
* `inner_rotate_mul` : **only the difference of two rotations shows in an inner product**.
-/

namespace VllmVulkan

namespace Rotation

variable {R : Type*} [CommRing R]

/-- An angle, by its sine and its cosine. -/
@[ext] structure Turn (R : Type*) [CommRing R] where
  /-- The sine. -/
  sin : R
  /-- The cosine. -/
  cos : R
  unit : sin * sin + cos * cos = 1

/-- The inner product of a plane. -/
def dot (p q : R × R) : R := p.1 * q.1 + p.2 * q.2

namespace Turn

/-- The plane, turned. -/
def act (t : Turn R) (p : R × R) : R × R :=
  (p.1 * t.cos - p.2 * t.sin, p.1 * t.sin + p.2 * t.cos)

/-- No turn. -/
instance : One (Turn R) := ⟨⟨0, 1, by ring⟩⟩

theorem act_one (p : R × R) : (1 : Turn R).act p = p := by
  refine Prod.ext ?_ ?_
  · change p.1 * 1 - p.2 * 0 = p.1
    ring
  · change p.1 * 0 + p.2 * 1 = p.2
    ring

/-- The sum of two angles. -/
instance : Mul (Turn R) where
  mul a b := ⟨a.sin * b.cos + a.cos * b.sin, a.cos * b.cos - a.sin * b.sin, by
    linear_combination b.unit + (b.sin * b.sin + b.cos * b.cos) * a.unit⟩

@[simp] theorem mul_sin (a b : Turn R) : (a * b).sin = a.sin * b.cos + a.cos * b.sin := rfl

@[simp] theorem mul_cos (a b : Turn R) : (a * b).cos = a.cos * b.cos - a.sin * b.sin := rfl

theorem act_mul (a b : Turn R) (p : R × R) : (a * b).act p = b.act (a.act p) := by
  refine Prod.ext ?_ ?_
  · simp only [act, mul_sin, mul_cos]
    ring
  · simp only [act, mul_sin, mul_cos]
    ring

theorem dot_act (t : Turn R) (p q : R × R) : dot (t.act p) (t.act q) = dot p q := by
  simp only [dot, act]
  linear_combination (p.1 * q.1 + p.2 * q.2) * t.unit

end Turn

/-- The coordinates `i` and `i + half`. -/
def pair (half : ℕ) (x : ℕ → R) (i : ℕ) : R × R := (x i, x (i + half))

/-- The vector with each pair `i < half` turned by `t i`. -/
def rotate (half : ℕ) (t : ℕ → Turn R) (x : ℕ → R) (j : ℕ) : R :=
  if j < half then ((t j).act (pair half x j)).1
  else if j < half + half then ((t (j - half)).act (pair half x (j - half))).2
  else x j

/-- The inner product of the first `d` coordinates. -/
def inner (d : ℕ) (x y : ℕ → R) : R := ∑ j ∈ Finset.range d, x j * y j

variable {half : ℕ}

theorem pair_rotate {i : ℕ} (hi : i < half) (t : ℕ → Turn R) (x : ℕ → R) :
    pair half (rotate half t x) i = (t i).act (pair half x i) := by
  unfold pair rotate
  rw [if_pos hi, if_neg (by omega), if_pos (by omega), Nat.add_sub_cancel]
  rfl

theorem rotate_of_le {j : ℕ} (hj : half + half ≤ j) (t : ℕ → Turn R) (x : ℕ → R) :
    rotate half t x j = x j := by
  unfold rotate
  rw [if_neg (by omega), if_neg (by omega)]

omit [CommRing R] in
theorem ext_pair (half : ℕ) {x y : ℕ → R} (hpair : ∀ i < half, pair half x i = pair half y i)
    (hrest : ∀ j, half + half ≤ j → x j = y j) : x = y := by
  funext j
  obtain hj | hj := Nat.lt_or_ge j half
  · exact congrArg Prod.fst (hpair j hj)
  obtain hj' | hj' := Nat.lt_or_ge j (half + half)
  · have h := congrArg Prod.snd (hpair (j - half) (by omega))
    simpa only [pair, Nat.sub_add_cancel hj] using h
  · exact hrest j hj'

/-- **Rotations compose by adding their angles.** -/
theorem rotate_mul (t u : ℕ → Turn R) (x : ℕ → R) :
    rotate half (t * u) x = rotate half u (rotate half t x) := by
  refine ext_pair half (fun i hi => ?_) fun j hj => ?_
  · rw [pair_rotate hi, pair_rotate hi, pair_rotate hi, Pi.mul_apply, Turn.act_mul]
  · rw [rotate_of_le hj, rotate_of_le hj, rotate_of_le hj]

theorem inner_eq_pairs {d : ℕ} (hd : half + half ≤ d) (x y : ℕ → R) :
    inner d x y = ∑ i ∈ Finset.range half, dot (pair half x i) (pair half y i) +
      ∑ j ∈ Finset.Ico (half + half) d, x j * y j := by
  have hpairs : ∑ j ∈ Finset.range (half + half), x j * y j =
      ∑ i ∈ Finset.range half, dot (pair half x i) (pair half y i) := by
    rw [Finset.sum_range_add, ← Finset.sum_add_distrib]
    simp only [dot, pair, Nat.add_comm half]
  unfold inner
  rw [← Finset.sum_range_add_sum_Ico _ hd, hpairs]

/-- **A rotation keeps inner products.** -/
theorem inner_rotate {d : ℕ} (hd : half + half ≤ d) (t : ℕ → Turn R) (x y : ℕ → R) :
    inner d (rotate half t x) (rotate half t y) = inner d x y := by
  rw [inner_eq_pairs hd, inner_eq_pairs hd]
  congr 1
  · refine Finset.sum_congr rfl ?_
    intro i hi
    have hi := Finset.mem_range.1 hi
    rw [pair_rotate hi, pair_rotate hi, Turn.dot_act]
  · refine Finset.sum_congr rfl ?_
    intro j hj
    have hj := (Finset.mem_Ico.1 hj).1
    rw [rotate_of_le hj, rotate_of_le hj]

/-- **Only the difference of two rotations shows in an inner product.** -/
theorem inner_rotate_mul {d : ℕ} (hd : half + half ≤ d) (t u : ℕ → Turn R) (x y : ℕ → R) :
    inner d (rotate half (t * u) x) (rotate half u y) = inner d (rotate half t x) y := by
  rw [rotate_mul, inner_rotate hd]

end Rotation

end VllmVulkan
