import VllmVulkan.Lib.Store
import Mathlib.Data.List.Range
import Mathlib.Data.List.Perm.Lattice
import Mathlib.Tactic.Ring

/-!
# Dispatches of independent invocations

A dispatch launches a grid of workgroups of a fixed size.  When no invocation reads what another
one writes, a dispatch is the collection of the stores of its invocations, and the device may
perform them in any order.

* `globalIds` : the first coordinate of the global id of every invocation of a grid;
* `Runs` : a memory reached from another by performing a collection of stores in some order;
* `Runs.unique`, `Runs.of_mem`, `Runs.of_notMem` : **stores to distinct addresses determine the
  result**, whatever the order;
* `RunsAll` : several dispatches in sequence;
* `flatMap_range_guard`, `flatMap_range_mul` : the two ways the stores of a linear dispatch are
  regrouped: dropping the rounded-up tail of the last workgroup, and splitting an index into a row
  and a column.
-/

namespace VllmVulkan

namespace Store

variable {ι α β : Type*}

/-! ### The grid -/

/-- The first coordinate of the global id of every invocation of a dispatch of `wg` workgroups of
`localSize` invocations in a row. -/
def globalIds (wg : ℕ × ℕ × ℕ) (localSize : ℕ) : List ℕ :=
  (List.range wg.2.2).flatMap fun _ => (List.range wg.2.1).flatMap fun _ =>
    (List.range wg.1).flatMap fun x => (List.range localSize).map fun i => x * localSize + i

/-- Rows of `n` consecutive numbers, one after the other. -/
theorem range_mul (m n : ℕ) :
    (List.range m).flatMap (fun x => (List.range n).map fun i => x * n + i) =
      List.range (m * n) := by
  induction m with
  | zero => simp
  | succ m ih =>
    rw [List.range_succ, List.flatMap_append, ih, Nat.add_mul, Nat.one_mul, List.range_add]
    simp

theorem globalIds_linear (n localSize : ℕ) :
    globalIds (n, 1, 1) localSize = List.range (n * localSize) := by
  simp [globalIds, range_mul]

theorem flatMap_range_guard {m n : ℕ} (h : n ≤ m) (f : ℕ → List β)
    (hf : ∀ i, n ≤ i → f i = []) : (List.range m).flatMap f = (List.range n).flatMap f := by
  obtain ⟨k, rfl⟩ := Nat.exists_eq_add_of_le h
  rw [List.range_add, List.flatMap_append, List.flatMap_map]
  simp [hf]

theorem flatMap_range_mul (m n : ℕ) (f : ℕ → List β) :
    (List.range (m * n)).flatMap f =
      (List.range m).flatMap fun x => (List.range n).flatMap fun i => f (x * n + i) := by
  rw [← range_mul, List.flatMap_assoc]
  simp only [List.flatMap_map]

theorem flatMap_range_length {γ : Type*} (xs : List γ) (f : ℕ → List β) (g : γ → List β)
    (h : ∀ j x, xs[j]? = some x → f j = g x) :
    (List.range xs.length).flatMap f = xs.flatMap g := by
  induction xs generalizing f with
  | nil => rfl
  | cons x xs ih =>
    rw [List.length_cons, List.range_succ_eq_map, List.flatMap_cons, List.flatMap_cons,
      List.flatMap_map, h 0 x rfl, ih (fun j => f j.succ) fun j y hy => h (j + 1) y hy]

theorem flatMap_swap_perm {γ δ : Type*} (xs : List γ) (ys : List δ) (f : γ → δ → List β) :
    (xs.flatMap fun x => ys.flatMap fun y => f x y).Perm
      (ys.flatMap fun y => xs.flatMap fun x => f x y) := by
  induction xs with
  | nil => simp
  | cons x xs ih =>
    simp only [List.flatMap_cons]
    exact (ih.append_left _).trans (List.flatMap_append_perm ys (f x) _)

theorem mul_add_inj {n a b c d : ℕ} (hb : b < n) (hd : d < n) (h : a * n + b = c * n + d) :
    a = c ∧ b = d := by
  have hn : 0 < n := by omega
  have hq := congrArg (· / n) h
  have hr := congrArg (· % n) h
  simp only [Nat.mul_add_mod', Nat.mod_eq_of_lt hb, Nat.mod_eq_of_lt hd] at hr
  simp only [Nat.add_comm (_ * n), Nat.add_mul_div_right _ _ hn, Nat.div_eq_of_lt hb,
    Nat.div_eq_of_lt hd, Nat.zero_add] at hq
  exact ⟨hq, hr⟩

/-- The contents of a bound buffer, as the shader indexes it. -/
def view [Inhabited α] (xs : List α) (i : ℕ) : α := xs.getD i default

theorem view_eq [Inhabited α] {xs : List α} {i : ℕ} (h : i < xs.length) :
    xs[i]? = some (view xs i) := by
  simp [view, List.getD_eq_getElem?_getD, h]

theorem map_view_range [Inhabited α] (xs : List α) :
    (List.range xs.length).map (view xs) = xs := by
  refine List.ext_getElem? ?_
  intro i
  by_cases h : i < xs.length
  · simp [h, view]
  · simp [h]

/-- What holds of the elements of a buffer holds of what the shader indexes, and conversely. -/
theorem forall_mem_iff_view [Inhabited α] {xs : List α} {P : α → Prop} :
    (∀ x ∈ xs, P x) ↔ ∀ i < xs.length, P (view xs i) := by
  conv_lhs => rw [← map_view_range xs]
  simp

theorem view_congr [Inhabited α] {xs ys : List α} {i j : ℕ} (h : xs[i]? = ys[j]?) :
    view xs i = view ys j := by
  simp only [view, List.getD_eq_getElem?_getD, h]

/-! ### Stores in any order -/

variable [DecidableEq ι]

/-- `m'` is reached from `m` by performing the stores of `ss` in some order. -/
def Runs (m : ι → α) (ss : List (ι × α)) (m' : ι → α) : Prop :=
  ∃ ts, ts.Perm ss ∧ m' = applyStores m ts

theorem Runs.refl (m : ι → α) (ss : List (ι × α)) : Runs m ss (applyStores m ss) :=
  ⟨ss, List.Perm.refl _, rfl⟩

variable {m m' : ι → α} {ss : List (ι × α)}

/-- **Stores to distinct addresses have one result.** -/
theorem Runs.unique (h : Runs m ss m') (hn : (ss.map Prod.fst).Nodup) :
    m' = applyStores m ss := by
  obtain ⟨ts, hp, rfl⟩ := h
  exact applyStores_perm hp ((hp.map Prod.fst).nodup_iff.2 hn) m

theorem Runs.of_mem (h : Runs m ss m') (hn : (ss.map Prod.fst).Nodup) {s : ι × α} (hs : s ∈ ss) :
    m' s.1 = s.2 := by
  rw [h.unique hn]; exact applyStores_of_mem hn hs m

theorem Runs.of_notMem (h : Runs m ss m') {i : ι} (hi : i ∉ ss.map Prod.fst) : m' i = m i := by
  obtain ⟨ts, hp, rfl⟩ := h
  exact applyStores_of_notMem (fun hi' => hi ((hp.map Prod.fst).subset hi')) m

/-- `m'` is reached from `m` by the dispatches of `sss`, one after the other. -/
def RunsAll : (ι → α) → List (List (ι × α)) → (ι → α) → Prop
  | m, [], m' => m' = m
  | m, ss :: sss, m' => ∃ m₁, Runs m ss m₁ ∧ RunsAll m₁ sss m'

theorem RunsAll.unique {sss : List (List (ι × α))} (h : RunsAll m sss m')
    (hn : (sss.flatten.map Prod.fst).Nodup) : m' = applyStores m sss.flatten := by
  induction sss generalizing m with
  | nil => exact h
  | cons ss sss ih =>
    obtain ⟨m₁, h₁, h₂⟩ := h
    rw [List.flatten_cons, List.map_append, List.nodup_append] at hn
    rw [List.flatten_cons, applyStores_append, ← h₁.unique hn.1]
    exact ih h₂ hn.2.1

end Store

end VllmVulkan
