import Mathlib.MeasureTheory.Measure.Lebesgue.Basic
import Mathlib.Probability.ProductMeasure

/-!
# Draws

A draw is uniform on `[0, 1)`; the draws of a sequence are independent.  An entry of a list is
drawn by cumulating masses until the draw is reached.

* `uniform`, `draws` : the measures of one draw and of a sequence of draws;
* `draws_forall_lt` : conditions on different draws are independent;
* `reach` : the first entry at which the cumulated mass reaches the draw;
* `volume_reach`, `uniform_reach_or` : **an entry is reached with probability its mass**.
-/

namespace VllmVulkan

namespace UnitDraws

open MeasureTheory Set

/-- A draw from `[0, 1)`. -/
noncomputable def uniform : Measure ℝ := volume.restrict (Ico 0 1)

theorem uniform_eq : uniform = volume.restrict (Ioc 0 1) :=
  Measure.restrict_congr_set Ico_ae_eq_Ioc

instance : IsProbabilityMeasure uniform := ⟨by simp [uniform]⟩

/-- Independent draws. -/
noncomputable def draws : Measure (ℕ → ℝ) := Measure.infinitePi fun _ => uniform

/-- **Conditions on different draws are independent.** -/
theorem draws_forall_lt (n : ℕ) {s : ℕ → Set ℝ} (hs : ∀ j, MeasurableSet (s j)) :
    draws.real {d | ∀ j < n, d j ∈ s j} = ∏ j ∈ Finset.range n, uniform.real (s j) := by
  have hpi : {d : ℕ → ℝ | ∀ j < n, d j ∈ s j} = Set.pi (Finset.range n) s := by
    ext d
    simp [Set.pi]
  rw [hpi, Measure.real, draws, Measure.infinitePi_pi _ fun j _ => hs j, ENNReal.toReal_prod]
  rfl

section Reach

variable {α : Type*} {mass : α → ℝ}

/-- The first entry at which the mass reaches `u`; `c` is the mass in front of the list. -/
noncomputable def reach (mass : α → ℝ) (u : ℝ) : List α → ℝ → Option α
  | [], _ => none
  | a :: xs, c => if u ≤ c + mass a then some a else reach mass u xs (c + mass a)

theorem mem_of_reach {u c : ℝ} {xs : List α} {a : α} (h : reach mass u xs c = some a) :
    a ∈ xs := by
  induction xs generalizing c with
  | nil => cases h
  | cons b xs ih =>
    rw [reach] at h
    split_ifs at h
    · cases h
      exact List.mem_cons_self
    · exact List.mem_cons_of_mem _ (ih h)

theorem exists_reach {u c : ℝ} {xs : List α} (hne : xs ≠ [])
    (h : u ≤ c + (xs.map mass).sum) : ∃ a, reach mass u xs c = some a := by
  induction xs generalizing c with
  | nil => exact absurd rfl hne
  | cons b xs ih =>
    rw [List.map_cons, List.sum_cons, ← add_assoc] at h
    rw [reach]
    split_ifs with hb
    · exact ⟨b, rfl⟩
    · refine ih ?_ h
      rintro rfl
      exact hb (by simpa using h)

theorem measurableSet_reach_or (mass : α → ℝ) (xs : List α) (c : ℝ) (d o : Option α) :
    MeasurableSet {u | (reach mass u xs c).or d = o} := by
  induction xs generalizing c with
  | nil => exact MeasurableSet.const (d = o)
  | cons b xs ih =>
    have hite : {u | (reach mass u (b :: xs) c).or d = o} =
        (Iic (c + mass b)).ite {_u | some b = o} {u | (reach mass u xs (c + mass b)).or d = o} := by
      ext u
      by_cases hu : u ≤ c + mass b <;> simp [reach, Set.ite, hu]
    rw [hite]
    exact measurableSet_Iic.ite (MeasurableSet.const _) (ih _)

/-- **An entry is reached by draws of measure its mass.** -/
theorem volume_reach {xs : List α} (hmass : ∀ a ∈ xs, 0 ≤ mass a) (hn : xs.Nodup) (c : ℝ) {a : α}
    (ha : a ∈ xs) :
    volume ({u | reach mass u xs c = some a} ∩ Ioc c (c + (xs.map mass).sum)) =
      ENNReal.ofReal (mass a) := by
  induction xs generalizing c with
  | nil => cases ha
  | cons b xs ih =>
    rw [List.nodup_cons] at hn
    rw [List.forall_mem_cons] at hmass
    have hsum : 0 ≤ (xs.map mass).sum := List.sum_nonneg (by simpa using hmass.2)
    rw [List.map_cons, List.sum_cons, ← add_assoc]
    rcases List.mem_cons.1 ha with rfl | ha
    · -- the head is reached up to its own mass, and not behind it
      have hset : {u | reach mass u (a :: xs) c = some a} ∩
          Ioc c (c + mass a + (xs.map mass).sum) = Ioc c (c + mass a) := by
        ext u
        simp only [mem_inter_iff, mem_ofPred_eq, mem_Ioc, reach]
        constructor
        · rintro ⟨hu, hc, -⟩
          split_ifs at hu with hle
          · exact ⟨hc, hle⟩
          · exact absurd (mem_of_reach hu) hn.1
        · rintro ⟨hc, hle⟩
          rw [if_pos hle]
          exact ⟨rfl, hc, hle.trans (le_add_of_nonneg_right hsum)⟩
      rw [hset, Real.volume_Ioc, add_sub_cancel_left]
    · have hne : b ≠ a := fun heq => hn.1 (heq ▸ ha)
      have hset : {u | reach mass u (b :: xs) c = some a} ∩
          Ioc c (c + mass b + (xs.map mass).sum) = {u | reach mass u xs (c + mass b) = some a} ∩
            Ioc (c + mass b) (c + mass b + (xs.map mass).sum) := by
        ext u
        simp only [mem_inter_iff, mem_ofPred_eq, mem_Ioc, reach]
        constructor
        · rintro ⟨hu, -, hle⟩
          split_ifs at hu with hb
          · exact absurd (Option.some.inj hu) hne
          · exact ⟨hu, not_le.1 hb, hle⟩
        · rintro ⟨hu, hc, hle⟩
          rw [if_neg (not_le.2 hc)]
          exact ⟨hu, (le_add_of_nonneg_right hmass.1).trans_lt hc, hle⟩
      rw [hset, ih hmass.2 hn.2 _ ha]

/-- **An entry is reached with probability its mass**, whatever `d` is taken when none is. -/
theorem uniform_reach_or {xs : List α} (hmass : ∀ a ∈ xs, 0 ≤ mass a) (hn : xs.Nodup)
    (hsum : (xs.map mass).sum = 1) (d : Option α) (a : α) [Decidable (a ∈ xs)] :
    uniform.real {u | (reach mass u xs 0).or d = some a} = if a ∈ xs then mass a else 0 := by
  have hne : xs ≠ [] := by
    rintro rfl
    exact zero_ne_one hsum
  -- some entry is reached
  have hset : {u | (reach mass u xs 0).or d = some a} ∩ Ioc 0 1 =
      {u | reach mass u xs 0 = some a} ∩ Ioc 0 (0 + (xs.map mass).sum) := by
    rw [hsum, zero_add]
    ext u
    refine and_congr_left fun hu => ?_
    obtain ⟨b, hb⟩ := exists_reach (u := u) (c := 0) hne
      (by rw [hsum, zero_add]; exact hu.2)
    simp only [mem_ofPred_eq, hb, Option.some_or]
  rw [Measure.real, uniform_eq, Measure.restrict_apply' measurableSet_Ioc, hset]
  split_ifs with ha
  · rw [volume_reach hmass hn 0 ha, ENNReal.toReal_ofReal (hmass a ha)]
  · have hempty : {u | reach mass u xs 0 = some a} = ∅ :=
      eq_empty_of_forall_notMem fun u hu => ha (mem_of_reach hu)
    rw [hempty, empty_inter, measure_empty, ENNReal.toReal_zero]

end Reach

end UnitDraws

end VllmVulkan
