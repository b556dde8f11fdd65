import Mathlib.Data.List.Basic
import Mathlib.Order.Monotone.Basic
import Mathlib.Tactic.Common

/-!
# Lists cut into consecutive segments

Offsets that start at zero and never decrease cut a list into segments, some of them possibly empty.

* `Offsets`, `segment` : the offsets, and the part of a list between two of them;
* `Offsets.owners` : every segment's number, once for each of its positions;
* `zipWith_owners` : **a list paired with its owners**, segment by segment;
* `getElem?_flatMap_segment` : position `i` of rewritten segments;
* `Offsets.exists_owner`, `Offsets.owner_unique` : **every position has exactly one owner**.
-/

namespace VllmVulkan

/-- Offsets that start at zero and never decrease. -/
structure Offsets where
  /-- Where each segment starts. -/
  start : ℕ → ℕ
  start_zero : start 0 = 0
  mono : Monotone start

variable {α β γ : Type}

/-- Segment `r` of a list. -/
def segment (o : Offsets) (xs : List α) (r : ℕ) : List α :=
  (xs.take (o.start (r + 1))).drop (o.start r)

namespace Offsets

variable (o : Offsets)

/-- The position `i` lies in segment `r`. -/
def Owns (r i : ℕ) : Prop := o.start r ≤ i ∧ i < o.start (r + 1)

/-- The numbers of the first `n` segments, each as often as its segment is long. -/
def owners (n : ℕ) : List ℕ :=
  (List.range n).flatMap fun r => List.replicate (o.start (r + 1) - o.start r) r

theorem start_le (r : ℕ) : o.start r ≤ o.start (r + 1) := o.mono (Nat.le_succ r)

/-- Every position before the end of segment `n - 1` has an owner. -/
theorem exists_owner {n i : ℕ} (h : i < o.start n) : ∃ r < n, o.Owns r i := by
  induction n with
  | zero => exact absurd h (by rw [o.start_zero]; exact Nat.not_lt_zero i)
  | succ n ih =>
    obtain hlt | hge := Nat.lt_or_ge i (o.start n)
    · obtain ⟨r, hr, hown⟩ := ih hlt
      exact ⟨r, Nat.lt_succ_of_lt hr, hown⟩
    · exact ⟨n, Nat.lt_succ_self n, hge, h⟩

variable {o}

theorem owner_unique {r r' i : ℕ} (h : o.Owns r i) (h' : o.Owns r' i) : r = r' := by
  have hle : ∀ {s s' : ℕ}, o.Owns s i → o.Owns s' i → s ≤ s' := fun {s s'} hs hs' => by
    refine Nat.le_of_not_lt ?_
    intro hlt
    have hmono : o.start (s' + 1) ≤ o.start s := o.mono hlt
    exact absurd (Nat.lt_of_lt_of_le hs'.2 (hmono.trans hs.1)) (Nat.lt_irrefl i)
  exact Nat.le_antisymm (hle h h') (hle h' h)

end Offsets

variable {o : Offsets}

theorem take_append_segment (xs : List α) (r : ℕ) :
    xs.take (o.start r) ++ segment o xs r = xs.take (o.start (r + 1)) := by
  have htake : xs.take (o.start r) = (xs.take (o.start (r + 1))).take (o.start r) := by
    rw [List.take_take, Nat.min_eq_left (o.start_le r)]
  rw [htake, segment, List.take_append_drop]

theorem length_segment {xs : List α} {r : ℕ} (h : o.start (r + 1) ≤ xs.length) :
    (segment o xs r).length = o.start (r + 1) - o.start r := by
  rw [segment, List.length_drop, List.length_take, Nat.min_eq_left h]

theorem length_flatMap_segment (f : ℕ → α → β) {xs : List α} {n : ℕ}
    (h : o.start n ≤ xs.length) :
    ((List.range n).flatMap fun r => (segment o xs r).map (f r)).length = o.start n := by
  induction n with
  | zero => rw [o.start_zero, List.range_zero, List.flatMap_nil, List.length_nil]
  | succ n ih =>
    rw [List.range_succ, List.flatMap_append, List.length_append,
      ih ((o.start_le n).trans h), List.flatMap_singleton, List.length_map, length_segment h,
      Nat.add_sub_cancel' (o.start_le n)]

theorem length_owners (n : ℕ) : (o.owners n).length = o.start n := by
  induction n with
  | zero => rw [o.start_zero]; rfl
  | succ n ih =>
    have hlen : (o.owners (n + 1)).length =
        (o.owners n).length + (o.start (n + 1) - o.start n) := by
      simp [Offsets.owners, List.range_succ]
    rw [hlen, ih, Nat.add_sub_cancel' (o.start_le n)]

theorem zipWith_replicate_length (f : γ → α → β) (c : γ) (xs : List α) :
    List.zipWith f (List.replicate xs.length c) xs = xs.map (f c) := by
  induction xs with
  | nil => rfl
  | cons x xs ih => rw [List.length_cons, List.replicate_succ, List.zipWith_cons_cons, ih,
      List.map_cons]

/-- **A list paired with its owners**, segment by segment. -/
theorem zipWith_owners (f : ℕ → α → β) {xs : List α} {n : ℕ} (h : o.start n ≤ xs.length) :
    List.zipWith f (o.owners n) (xs.take (o.start n)) =
      (List.range n).flatMap fun r => (segment o xs r).map (f r) := by
  induction n with
  | zero => simp [Offsets.owners]
  | succ n ih =>
    have hn : o.start n ≤ xs.length := (o.start_le n).trans h
    have howners : o.owners (n + 1) =
        o.owners n ++ List.replicate (o.start (n + 1) - o.start n) n := by
      simp [Offsets.owners, List.range_succ]
    have hlen : (o.owners n).length = (xs.take (o.start n)).length := by
      rw [length_owners, List.length_take, Nat.min_eq_left hn]
    rw [howners, ← take_append_segment, List.zipWith_append hlen, ih hn, List.range_succ,
      List.flatMap_append, List.flatMap_singleton]
    rw [← length_segment h, zipWith_replicate_length]

theorem getElem?_flatMap_segment (f : ℕ → α → β) {xs : List α} {n r i : ℕ}
    (h : o.start n ≤ xs.length) (hr : r < n) (hi : o.Owns r i) :
    ((List.range n).flatMap fun r => (segment o xs r).map (f r))[i]? = xs[i]?.map (f r) := by
  induction n with
  | zero => exact absurd hr (Nat.not_lt_zero r)
  | succ n ih =>
    have hn : o.start n ≤ xs.length := (o.start_le n).trans h
    have hlen := length_flatMap_segment f hn
    rw [List.range_succ, List.flatMap_append, List.flatMap_singleton]
    obtain hlt | rfl := Nat.lt_succ_iff_lt_or_eq.1 hr
    · have hi' : i < o.start n := Nat.lt_of_lt_of_le hi.2 (o.mono hlt)
      rw [List.getElem?_append_left (hlen.symm ▸ hi'), ih hn hlt]
    · rw [List.getElem?_append_right (hlen.symm ▸ hi.1), hlen, List.getElem?_map, segment,
        List.getElem?_drop, Nat.add_sub_cancel' hi.1, List.getElem?_take_of_lt hi.2]

end VllmVulkan
