import Mathlib.Order.Interval.Set.Basic
import Mathlib.Algebra.BigOperators.Group.List.Basic
import Mathlib.Logic.Equiv.Defs
import Mathlib.Tactic.Common
import Mathlib.Tactic.Ring

/-!
# Tilings of an interval

A family of half-open intervals of natural numbers tiles `[lo, lo + len)` if every number of it lies
in exactly one of them, and no number outside lies in any.

* `Tiles` : the intervals `[start i, start i + width i)`, for the `i` that satisfy `P`, are a
  tiling;
* `Tiles.nest` : **tilings compose**: if every interval of a tiling is tiled in turn, the small
  intervals tile the whole;
* `tiles_stride`, `tiles_sums` : equal steps, and steps of the lengths of a list;
* `Tiles.reindex`, `Tiles.congr` : the same tiling under other names.
-/

namespace VllmVulkan

namespace Tiling

open Set

/-- The intervals `[start i, start i + width i)`, for the `i` that satisfy `P`, tile
`[lo, lo + len)`. -/
structure Tiles {ι : Type*} (P : ι → Prop) (start width : ι → ℕ) (lo len : ℕ) : Prop where
  /-- Their union is the whole. -/
  cover : ∀ x, (∃ i, P i ∧ x ∈ Ico (start i) (start i + width i)) ↔ x ∈ Ico lo (lo + len)
  /-- No number lies in two of them. -/
  unique : ∀ i j x, P i → P j → x ∈ Ico (start i) (start i + width i) →
    x ∈ Ico (start j) (start j + width j) → i = j

variable {ι κ : Type*}

/-- **Tilings compose.** -/
theorem Tiles.nest {P : ι → Prop} {start width : ι → ℕ} {lo len : ℕ} {Q : ι → κ → Prop}
    {start' width' : ι → κ → ℕ} (h : Tiles P start width lo len)
    (h' : ∀ i, P i → Tiles (Q i) (start' i) (width' i) (start i) (width i)) :
    Tiles (fun c : ι × κ => P c.1 ∧ Q c.1 c.2) (fun c => start' c.1 c.2)
      (fun c => width' c.1 c.2) lo len := by
  constructor
  · intro x
    rw [← h.cover x]
    constructor
    · rintro ⟨⟨i, k⟩, ⟨hi, hk⟩, hx⟩
      exact ⟨i, hi, ((h' i hi).cover x).1 ⟨k, hk, hx⟩⟩
    · rintro ⟨i, hi, hx⟩
      obtain ⟨k, hk, hx'⟩ := ((h' i hi).cover x).2 hx
      exact ⟨(i, k), ⟨hi, hk⟩, hx'⟩
  · rintro ⟨i, k⟩ ⟨j, l⟩ x ⟨hi, hk⟩ ⟨hj, hl⟩ hx hx'
    -- the outer intervals agree, and then the inner ones do
    obtain rfl : i = j := h.unique i j x hi hj (((h' i hi).cover x).1 ⟨k, hk, hx⟩)
      (((h' j hj).cover x).1 ⟨l, hl, hx'⟩)
    obtain rfl : k = l := (h' i hi).unique k l x hk hl hx hx'
    rfl

theorem Tiles.reindex {P : ι → Prop} {start width : ι → ℕ} {lo len : ℕ}
    (h : Tiles P start width lo len) (e : κ ≃ ι) :
    Tiles (fun k => P (e k)) (fun k => start (e k)) (fun k => width (e k)) lo len := by
  constructor
  · intro x
    rw [← h.cover x]
    constructor
    · rintro ⟨k, hk, hx⟩
      exact ⟨e k, hk, hx⟩
    · rintro ⟨i, hi, hx⟩
      exact ⟨e.symm i, by rwa [e.apply_symm_apply], by rwa [e.apply_symm_apply]⟩
  · intro k l x hk hl hx hx'
    exact e.injective (h.unique _ _ x hk hl hx hx')

theorem Tiles.congr {P P' : ι → Prop} {start start' width width' : ι → ℕ} {lo len len' : ℕ}
    (h : Tiles P start width lo len) (hP : ∀ i, P' i ↔ P i) (hs : ∀ i, P i → start' i = start i)
    (hw : ∀ i, P i → width' i = width i) (hl : len' = len) :
    Tiles P' start' width' lo len' := by
  subst hl
  constructor
  · intro x
    rw [← h.cover x]
    refine exists_congr ?_
    intro i
    rw [hP]
    refine and_congr_right ?_
    intro hi
    rw [hs i hi, hw i hi]
  · intro i j x hi hj hx hx'
    have hi := (hP i).1 hi
    have hj := (hP j).1 hj
    rw [hs i hi, hw i hi] at hx
    rw [hs j hj, hw j hj] at hx'
    exact h.unique i j x hi hj hx hx'

theorem tiles_stride (n w lo : ℕ) :
    Tiles (fun i => i < n) (fun i => lo + i * w) (fun _ => w) lo (n * w) := by
  have hpos : ∀ i x, x ∈ Ico (lo + i * w) (lo + i * w + w) → (x - lo) / w = i := by
    rintro i x ⟨hle, hlt⟩
    have heq : x - lo = x - (lo + i * w) + i * w := by omega
    rw [heq, Nat.add_mul_div_right _ _ (by omega), Nat.div_eq_of_lt (by omega), Nat.zero_add]
  constructor
  · intro x
    constructor
    · rintro ⟨i, hi, hle, hlt⟩
      have hmul : (i + 1) * w ≤ n * w := Nat.mul_le_mul_right _ hi
      rw [Nat.add_mul, Nat.one_mul] at hmul
      exact ⟨by omega, by omega⟩
    · rintro ⟨hle, hlt⟩
      have hw : 0 < w := Nat.pos_of_ne_zero fun h => by subst h; omega
      have hdiv := Nat.div_add_mod (x - lo) w
      have hmod := Nat.mod_lt (x - lo) hw
      rw [Nat.mul_comm] at hdiv
      refine ⟨(x - lo) / w, Nat.div_lt_of_lt_mul ?_, ?_, ?_⟩
      · rw [Nat.mul_comm]
        omega
      · show lo + (x - lo) / w * w ≤ x
        omega
      · show x < lo + (x - lo) / w * w + w
        omega
  · intro i j x _ _ hx hx'
    rw [← hpos i x hx, ← hpos j x hx']

theorem tiles_sums (ws : List ℕ) (lo : ℕ) :
    Tiles (fun k => k < ws.length) (fun k => lo + (ws.take k).sum) (fun k => ws.getD k 0) lo
      ws.sum := by
  induction ws generalizing lo with
  | nil =>
    refine ⟨fun x => ?_, fun i j x hi => absurd hi (Nat.not_lt_zero _)⟩
    constructor
    · rintro ⟨i, hi, -⟩
      exact absurd hi (Nat.not_lt_zero _)
    · rintro ⟨hle, hlt⟩
      rw [List.sum_nil] at hlt
      omega
  | cons w ws ih =>
    -- the first step, or one of the others
    have hsucc : ∀ k x, x ∈ Ico (lo + ((w :: ws).take (k + 1)).sum)
        (lo + ((w :: ws).take (k + 1)).sum + (w :: ws).getD (k + 1) 0) ↔
          x ∈ Ico (lo + w + (ws.take k).sum) (lo + w + (ws.take k).sum + ws.getD k 0) := by
      intro k x
      rw [List.take_succ_cons, List.sum_cons, List.getD_cons_succ, ← Nat.add_assoc]
    have hlow : ∀ k x, k < ws.length →
        x ∈ Ico (lo + w + (ws.take k).sum) (lo + w + (ws.take k).sum + ws.getD k 0) → lo + w ≤ x :=
      fun k x _ hx => le_trans (Nat.le_add_right _ _) hx.1
    constructor
    · intro x
      rw [List.sum_cons]
      constructor
      · rintro ⟨k, hk, hx⟩
        cases k with
        | zero =>
          simp only [List.take_zero, List.sum_nil, List.getD_cons_zero, mem_Ico] at hx ⊢
          omega
        | succ k =>
          rw [hsucc] at hx
          obtain ⟨hle, hlt⟩ := ((ih (lo + w)).cover x).1 ⟨k, Nat.lt_of_succ_lt_succ hk, hx⟩
          exact ⟨by omega, by omega⟩
      · rintro ⟨hle, hlt⟩
        by_cases hx : x < lo + w
        · refine ⟨0, Nat.succ_pos _, ?_⟩
          simp only [List.take_zero, List.sum_nil, List.getD_cons_zero, mem_Ico]
          omega
        · obtain ⟨k, hk, hxk⟩ := ((ih (lo + w)).cover x).2 ⟨by omega, by omega⟩
          exact ⟨k + 1, Nat.succ_lt_succ hk, (hsucc k x).2 hxk⟩
    · intro i j x hi hj hx hx'
      cases i with
      | zero =>
        cases j with
        | zero => rfl
        | succ j =>
          rw [hsucc] at hx'
          have := hlow j x (Nat.lt_of_succ_lt_succ hj) hx'
          simp only [List.take_zero, List.sum_nil, List.getD_cons_zero, mem_Ico] at hx
          omega
      | succ i =>
        rw [hsucc] at hx
        cases j with
        | zero =>
          have := hlow i x (Nat.lt_of_succ_lt_succ hi) hx
          simp only [List.take_zero, List.sum_nil, List.getD_cons_zero, mem_Ico] at hx'
          omega
        | succ j =>
          rw [hsucc] at hx'
          rw [(ih (lo + w)).unique i j x (Nat.lt_of_succ_lt_succ hi) (Nat.lt_of_succ_lt_succ hj)
            hx hx']

end Tiling

end VllmVulkan
