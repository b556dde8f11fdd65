import VllmVulkan.Lang.Python

/-!
# Counting loops

The loop `for (; i < limit; i += step) body` of the shaders.  It ends unless the step is zero.

* `forLoop` : the counter and the state after the loop, `none` when it never ends;
* `forLoop_eq` : **the loop as a fold** over the counters it visits;
* `forLoop_zero` : a loop that never ends;
* `forLoop_unroll` : unrolling the body of a loop does not change what it computes;
* `counters` : the counters a loop visits.
-/

namespace VllmVulkan

variable {S : Type*}

/-- `for (; i < limit; i += step) body`; `none` is a loop that never ends. -/
def forLoop (limit step : ℕ) (body : ℕ → S → S) (i : ℕ) (s : S) : Option (ℕ × S) :=
  if i < limit then
    if step = 0 then none else forLoop limit step body (i + step) (body i s)
  else some (i, s)
termination_by limit - i

theorem ceilDiv_sub {d step : ℕ} (hd : 0 < d) (hs : 0 < step) :
    ceilDiv d step = ceilDiv (d - step) step + 1 := by
  unfold ceilDiv
  obtain h | h := Nat.lt_or_ge d step
  · rw [Nat.sub_eq_zero_of_le h.le, Nat.zero_add, Nat.div_eq_of_lt (Nat.sub_lt hs Nat.one_pos)]
    exact Nat.div_eq_of_lt_le (by omega) (by omega)
  · rw [show d + step - 1 = d - step + step - 1 + step by omega, Nat.add_div_right _ hs]

/-- **The loop as a fold** over the counters it visits. -/
theorem forLoop_eq {step : ℕ} (hs : 0 < step) (limit : ℕ) (body : ℕ → S → S) (i : ℕ) (s : S) :
    forLoop limit step body i s = some (i + ceilDiv (limit - i) step * step,
      (List.range' i (ceilDiv (limit - i) step) step).foldl (fun s i => body i s) s) := by
  fun_induction forLoop limit step body i s with
  | case1 i s hi hstep => exact absurd hstep hs.ne'
  | case2 i s hi hstep ih =>
    rw [ih, ceilDiv_sub (d := limit - i) (by omega) hs, Nat.sub_sub, List.range'_succ,
      List.foldl_cons, Nat.add_mul, Nat.one_mul, Nat.add_assoc, Nat.add_comm step]
  | case3 i s hi =>
    have hzero : ceilDiv (limit - i) step = 0 := by
      rw [Nat.sub_eq_zero_of_le (by omega), ceilDiv, Nat.zero_add]
      exact Nat.div_eq_of_lt (Nat.sub_lt hs Nat.one_pos)
    rw [hzero, Nat.zero_mul]
    rfl

theorem forLoop_zero {limit i : ℕ} (hi : i < limit) (body : ℕ → S → S) (s : S) :
    forLoop limit 0 body i s = none := by
  rw [forLoop, if_pos hi, if_pos rfl]

theorem ceilDiv_mul {n step : ℕ} (hs : 0 < step) : ceilDiv (n * step) step = n := by
  refine Nat.le_antisymm (Nat.le_of_not_lt fun h => ?_) (Nat.le_of_not_lt fun h => ?_)
  · exact lt_irrefl _ ((lt_ceilDiv_iff hs).1 h)
  · have hlt : ¬ ceilDiv (n * step) step * step < n * step :=
      fun h' => lt_irrefl _ ((lt_ceilDiv_iff hs).2 h')
    exact hlt (Nat.mul_lt_mul_of_pos_right h hs)

/-- **An unrolled loop**: `count` turns at a time, as often as they fit. -/
theorem forLoop_unroll {count : ℕ} (hc : 0 < count) (n : ℕ) (f : ℕ → S → S) (i : ℕ) (s : S) :
    forLoop (i + n * count) count
      (fun i s => (List.range' i count).foldl (fun s i => f i s) s) i s =
      some (i + n * count, (List.range' i (n * count)).foldl (fun s i => f i s) s) := by
  have hfold : ∀ i s, (List.range' i n count).foldl
      (fun s i => (List.range' i count).foldl (fun s i => f i s) s) s =
        (List.range' i (n * count)).foldl (fun s i => f i s) s := by
    induction n with
    | zero => simp
    | succ n ih =>
      intro i s
      rw [List.range'_succ, List.foldl_cons, ih, Nat.add_mul, Nat.one_mul, Nat.add_comm (n * count),
        ← List.range'_append_1, List.foldl_append]
  rw [forLoop_eq hc, Nat.add_sub_cancel_left, ceilDiv_mul hc, hfold]

/-- The counters the loop `for (; i < limit; i += step)` visits; `none` is a loop that never ends.
-/
def counters (limit step i : ℕ) : Option (List ℕ) :=
  (forLoop limit step (fun i is => is ++ [i]) i []).map Prod.snd

theorem counters_eq {step : ℕ} (hs : 0 < step) (limit i : ℕ) :
    counters limit step i = some (List.range' i (ceilDiv (limit - i) step) step) := by
  have hfold : ∀ (xs ys : List ℕ), xs.foldl (fun is i => is ++ [i]) ys = ys ++ xs := by
    intro xs
    induction xs with
    | nil => simp
    | cons x xs ih => simp [ih]
  rw [counters, forLoop_eq hs, hfold, List.nil_append]
  rfl

theorem counters_zero {limit i : ℕ} (hi : i < limit) : counters limit 0 i = none := by
  rw [counters, forLoop_zero hi]
  rfl

end VllmVulkan
