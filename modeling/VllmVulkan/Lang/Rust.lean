import Mathlib.Algebra.Group.Nat.Defs
import Mathlib.Data.List.Forall2
import Mathlib.Tactic.Common

/-!
# The Rust fragment the model code is written in

`none` is a panic.

* `slice` : `&x[lo..hi]`;
* `copyFromSlice` : `x[lo..hi].copy_from_slice(src)`;
* `rowsInPlace` : a loop over consecutive rows that rewrites each of them;
* `usizeDiv`, `usizeSub` : division and subtraction of machine words; in a release build the
  subtraction wraps.
-/

namespace VllmVulkan

variable {α : Type}

/-- `&x[lo..hi]`. -/
def slice (x : List α) (lo hi : ℕ) : Option (List α) :=
  if lo ≤ hi ∧ hi ≤ x.length then some ((x.take hi).drop lo) else none

/-- `x[lo..hi].copy_from_slice(src)`. -/
def copyFromSlice (x : List α) (lo hi : ℕ) (src : List α) : Option (List α) := do
  let dst ← slice x lo hi
  if dst.length = src.length then some (x.take lo ++ src ++ x.drop hi) else none

/-- `for h in 0..n { f(&mut x[h * d..(h + 1) * d]) }`. -/
def rowsInPlace (n d : ℕ) (f : List α → Option (List α)) (x : List α) : Option (List α) :=
  (List.range n).foldlM (fun x h => do
    let row ← slice x (h * d) ((h + 1) * d)
    let row ← f row
    copyFromSlice x (h * d) ((h + 1) * d) row) x

/-- `a / b`. -/
def usizeDiv (a b : ℕ) : Option ℕ := if b = 0 then none else some (a / b)

/-- `a - b` on `usize`. -/
def usizeSub (a b : ℕ) : ℕ := if b ≤ a then a - b else 2 ^ 64 + a - b

theorem mapM_eq_some {α β : Type} {f : α → Option β} {xs : List α} {ys : List β} :
    xs.mapM f = some ys ↔ List.Forall₂ (fun x y => f x = some y) xs ys := by
  induction xs generalizing ys with
  | nil =>
    rw [List.mapM_nil, List.forall₂_nil_left_iff]
    exact ⟨fun h => (Option.some.inj h).symm, fun h => congrArg some h.symm⟩
  | cons x xs ih =>
    simp only [List.mapM_cons, Option.bind_eq_bind, Option.bind_eq_some_iff, ih, Option.pure_def,
      Option.some.injEq]
    constructor
    · rintro ⟨y, hy, ys, hys, rfl⟩
      exact .cons hy hys
    · intro h
      cases h with
      | cons hy hys => exact ⟨_, hy, _, hys, rfl⟩

theorem foldlM_inv {β : Type} {f : α → β → Option α} {P : α → Prop}
    (hf : ∀ x b y, P x → f x b = some y → P y) {bs : List β} {x y : α} (hx : P x)
    (h : bs.foldlM f x = some y) : P y := by
  induction bs generalizing x with
  | nil => exact Option.some.inj h ▸ hx
  | cons b bs ih =>
    simp only [List.foldlM_cons, Option.bind_eq_bind, Option.bind_eq_some_iff] at h
    obtain ⟨x', hx', h⟩ := h
    exact ih (hf _ _ _ hx hx') h

theorem slice_eq_some {x y : List α} {lo hi : ℕ} :
    slice x lo hi = some y ↔ (lo ≤ hi ∧ hi ≤ x.length) ∧ (x.take hi).drop lo = y := by
  unfold slice
  split_ifs with h <;> simp [h]

theorem length_slice {x y : List α} {lo hi : ℕ} (h : slice x lo hi = some y) :
    y.length = hi - lo := by
  obtain ⟨⟨-, hhi⟩, rfl⟩ := slice_eq_some.1 h
  rw [List.length_drop, List.length_take, Nat.min_eq_left hhi]

theorem length_copyFromSlice {x y src : List α} {lo hi : ℕ}
    (h : copyFromSlice x lo hi src = some y) : y.length = x.length := by
  simp only [copyFromSlice, Option.bind_eq_bind, Option.bind_eq_some_iff] at h
  obtain ⟨dst, hdst, h⟩ := h
  have hlen := length_slice hdst
  obtain ⟨⟨hlo, hhi⟩, -⟩ := slice_eq_some.1 hdst
  split_ifs at h with hsrc
  obtain rfl := Option.some.inj h
  simp only [List.length_append, List.length_take, List.length_drop]
  omega

theorem rowsInPlace_one {f : List α → Option (List α)} {x y : List α} (h : f x = some y)
    (hlen : y.length = x.length) : rowsInPlace 1 x.length f x = some y := by
  have hslice : slice x 0 x.length = some x :=
    slice_eq_some.2 ⟨⟨Nat.zero_le _, Nat.le_refl _⟩, by simp⟩
  simp only [rowsInPlace, List.range_one, List.foldlM_cons, List.foldlM_nil, Nat.zero_mul,
    Nat.zero_add, Nat.one_mul, hslice, Option.bind_eq_bind, Option.bind_some, h, copyFromSlice,
    hlen, if_true, List.take_zero, List.nil_append, List.drop_length, List.append_nil]
  rfl

/-! ### Rows -/

/-- Row `h` of rows of `d` elements. -/
def nthRow (d : ℕ) (x : List α) (h : ℕ) : List α := (x.drop (h * d)).take d

/-- The first `n` rows rewritten by `g`. -/
def rewriteRows (n d : ℕ) (g : List α → List α) (x : List α) : List α :=
  ((List.range n).flatMap fun h => g (nthRow d x h)) ++ x.drop (n * d)

theorem slice_append (a b c : List α) {lo hi : ℕ} (hlo : lo = a.length)
    (hhi : hi = a.length + b.length) : slice (a ++ b ++ c) lo hi = some b := by
  subst hlo hhi
  rw [slice_eq_some, ← List.length_append, List.take_left, List.drop_left]
  exact ⟨⟨by simp, by simp⟩, rfl⟩

theorem copyFromSlice_append (a b b' c : List α) {lo hi : ℕ} (hlo : lo = a.length)
    (hhi : hi = a.length + b.length) (hlen : b'.length = b.length) :
    copyFromSlice (a ++ b ++ c) lo hi b' = some (a ++ b' ++ c) := by
  simp only [copyFromSlice, slice_append a b c hlo hhi, Option.bind_eq_bind, Option.bind_some]
  subst hlo hhi
  rw [if_pos hlen.symm, ← List.length_append, List.drop_left, List.append_assoc a b c,
    List.take_left]

theorem length_nthRow {n d h : ℕ} {x : List α} (hx : n * d ≤ x.length) (hh : h < n) :
    (nthRow d x h).length = d := by
  have hle : (h + 1) * d ≤ n * d := Nat.mul_le_mul_right d hh
  rw [Nat.succ_mul] at hle
  rw [nthRow, List.length_take, List.length_drop]
  omega

/-- The rows after the first `n` are row `n` and the rows after it. -/
theorem drop_eq_nthRow_append (d : ℕ) (x : List α) (n : ℕ) :
    x.drop (n * d) = nthRow d x n ++ x.drop ((n + 1) * d) := by
  rw [nthRow, Nat.succ_mul, ← List.drop_drop, List.take_append_drop]

theorem rowsInPlace_succ (n d : ℕ) (f : List α → Option (List α)) (x : List α) :
    rowsInPlace (n + 1) d f x = (rowsInPlace n d f x).bind fun z =>
      (slice z (n * d) ((n + 1) * d)).bind fun row => (f row).bind fun row =>
        copyFromSlice z (n * d) ((n + 1) * d) row := by
  simp only [rowsInPlace, List.range_succ, List.foldlM_append, List.foldlM_cons, List.foldlM_nil,
    Option.bind_eq_bind, Option.pure_def, Option.bind_fun_some]

section RewriteRows

variable {d : ℕ} {g : List α → List α} (hg : ∀ row, row.length = d → (g row).length = d)
include hg

theorem length_flatMap_nthRow {n : ℕ} {x : List α} (hx : n * d ≤ x.length) :
    ((List.range n).flatMap fun h => g (nthRow d x h)).length = n * d := by
  induction n with
  | zero => simp
  | succ n ih =>
    have hrow : (g (nthRow d x n)).length = d := hg _ (length_nthRow hx (Nat.lt_succ_self n))
    have hn := ih (Nat.le_trans (Nat.mul_le_mul_right d (Nat.le_succ n)) hx)
    rw [List.range_succ, List.flatMap_append, List.length_append, hn, List.flatMap_singleton, hrow,
      Nat.succ_mul]

theorem length_rewriteRows {n : ℕ} {x : List α} (hx : n * d ≤ x.length) :
    (rewriteRows n d g x).length = x.length := by
  rw [rewriteRows, List.length_append, length_flatMap_nthRow hg hx, List.length_drop,
    Nat.add_sub_cancel' hx]

theorem rowsInPlace_eq {f : List α → Option (List α)} {n : ℕ} {x : List α}
    (hf : ∀ row, row.length = d → f row = some (g row)) (hx : n * d ≤ x.length) :
    rowsInPlace n d f x = some (rewriteRows n d g x) := by
  induction n with
  | zero => simp [rowsInPlace, rewriteRows]
  | succ n ih =>
    have hx' : n * d ≤ x.length := Nat.le_trans (Nat.mul_le_mul_right d (Nat.le_succ n)) hx
    have hrow : (nthRow d x n).length = d := length_nthRow hx (Nat.lt_succ_self n)
    have hlen := length_flatMap_nthRow hg hx'
    -- the turn of row `n` finds the rows before it rewritten and the others as they were
    have hcut : rewriteRows n d g x = (List.range n).flatMap (fun h => g (nthRow d x h)) ++
        nthRow d x n ++ x.drop ((n + 1) * d) := by
      rw [rewriteRows, drop_eq_nthRow_append, List.append_assoc]
    have hhi : (n + 1) * d = ((List.range n).flatMap fun h => g (nthRow d x h)).length +
        (nthRow d x n).length := by rw [hlen, hrow, Nat.succ_mul]
    rw [rowsInPlace_succ, ih hx', hcut]
    simp only [Option.bind_some, slice_append _ _ _ hlen.symm hhi, hf _ hrow]
    rw [copyFromSlice_append _ _ _ _ hlen.symm hhi ((hg _ hrow).trans hrow.symm), rewriteRows,
      List.range_succ, List.flatMap_append, List.flatMap_singleton]

theorem nthRow_rewriteRows {n h : ℕ} {x : List α} (hx : n * d ≤ x.length) (hh : h < n) :
    nthRow d (rewriteRows n d g x) h = g (nthRow d x h) := by
  obtain ⟨m, rfl⟩ : ∃ m, n = h + (m + 1) := ⟨n - h - 1, by omega⟩
  have hlen := length_flatMap_nthRow hg (n := h)
    (Nat.le_trans (Nat.mul_le_mul_right d (Nat.le_add_right h (m + 1))) hx)
  have hrow : (g (nthRow d x h)).length = d := hg _ (length_nthRow hx hh)
  rw [rewriteRows, List.range_add, List.flatMap_append, List.append_assoc, nthRow,
    List.drop_left' hlen, List.range_succ_eq_map, List.map_cons, List.flatMap_cons,
    List.append_assoc, Nat.add_zero, List.take_left' hrow]

theorem rewriteRows_rewriteRows {n : ℕ} {x : List α} (g' : List α → List α)
    (hx : n * d ≤ x.length) :
    rewriteRows n d g' (rewriteRows n d g x) = rewriteRows n d (fun row => g' (g row)) x := by
  have hrows : ((List.range n).flatMap fun h => g' (nthRow d (rewriteRows n d g x) h)) =
      (List.range n).flatMap fun h => g' (g (nthRow d x h)) :=
    List.flatMap_congr fun h hh => by rw [nthRow_rewriteRows hg hx (List.mem_range.1 hh)]
  rw [rewriteRows, hrows, rewriteRows, rewriteRows, List.drop_left' (length_flatMap_nthRow hg hx)]

end RewriteRows

end VllmVulkan
