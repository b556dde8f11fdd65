import VllmVulkan.Parallel.Hooks
import Mathlib.Algebra.BigOperators.Fin
import Mathlib.Algebra.BigOperators.Ring.List
import Mathlib.Data.List.OfFn

/-!
# Products of shards

The weight of a layer is cut over the ranks, along its input features (and the input with it) or
along its output features.

* `concat`, `stackColumns` : the tensor, and the weight, that the shards are cut from;
* `linear_eq` : an output of a linear layer, feature by feature;
* `allReduce_linear` : **the sum of the products of the column shards is the whole product**, and
  the sum of what the ranks add to it;
* `allGather_linear` : **the products of the row shards, one after the other, are the whole
  product**;
* `siluAndMul_concat` : the gated activation of shards.
-/

namespace VllmVulkan

namespace Parallel

open Finset

variable {T R : Type} [CommRing R] {n : ℕ}

/-- The tensor the shards are cut from. -/
def concat (x : Fin n → Rows T R) : Rows T R := fun t => (List.ofFn fun r => x r t).flatten

/-- The weight with `outFeatures` rows whose columns the shards hold. -/
def stackColumns (outFeatures : ℕ) (w : Fin n → List (List R)) : List (List R) :=
  (List.range outFeatures).map fun o => (List.ofFn fun r => (w r).getD o []).flatten

/-- What a bias adds to output feature `o`. -/
def biasAt : Option (List R) → ℕ → R
  | none, _ => 0
  | some b, o => b.getD o 0

/-- The bias has one entry for every output feature. -/
def BiasFits (m : ℕ) (bias : Option (List R)) : Prop := ∀ b, bias = some b → b.length = m

theorem addRow_map_range {m : ℕ} (f : ℕ → R) {bias : Option (List R)} (h : BiasFits m bias) :
    addRow ((List.range m).map f) bias = (List.range m).map fun o => f o + biasAt bias o := by
  cases bias with
  | none => simp [addRow, biasAt]
  | some b =>
    have hlen := h b rfl
    refine List.ext_getElem (by simp [addRow, hlen]) ?_
    intro i hi hi'
    have hb : i < b.length := by
      rw [List.length_map, List.length_range] at hi'
      omega
    simp [addRow, biasAt, hb]

/-- **An output of a linear layer**, feature by feature. -/
theorem linear_eq (x : Rows T R) (w : List (List R)) {bias : Option (List R)}
    (h : BiasFits w.length bias) (t : T) : linear x w bias t =
      (List.range w.length).map fun o => dot (x t) (w.getD o []) + biasAt bias o := by
  have hmap : w.map (dot (x t)) = (List.range w.length).map fun o => dot (x t) (w.getD o []) := by
    refine List.ext_getElem (by simp) ?_
    intro i hi hi'
    have hw : i < w.length := by simpa using hi
    simp [hw]
  rw [linear, hmap, addRow_map_range _ h]

theorem sumRows_map_range {m : ℕ} (g : Fin (n + 1) → ℕ → R) :
    sumRows (List.ofFn fun r => (List.range m).map (g r)) =
      (List.range m).map fun o => ∑ r, g r o := by
  induction n with
  | zero => simp [sumRows]
  | succ n ih =>
    have hne : (List.ofFn fun r : Fin (n + 1) => (List.range m).map (g r.succ)) ≠ [] := by
      rw [Ne, List.ofFn_eq_nil_iff]
      exact Nat.succ_ne_zero n
    have hsum : sumRows (List.ofFn fun r => (List.range m).map (g r)) =
        List.zipWith (· + ·) ((List.range m).map (g 0))
          (sumRows (List.ofFn fun r : Fin (n + 1) => (List.range m).map (g r.succ))) := by
      rw [List.ofFn_succ, sumRows]
      exact hne
    rw [hsum, ih fun r => g r.succ, List.zipWith_map, List.zipWith_self]
    exact List.map_congr_left fun o _ => (Fin.sum_univ_succ fun r => g r o).symm

theorem dot_append {xs ws : List R} (h : xs.length = ws.length) (xs' ws' : List R) :
    dot (xs ++ xs') (ws ++ ws') = dot xs ws + dot xs' ws' := by
  rw [dot, List.zipWith_append h, List.sum_append, dot, dot]

/-- The dot product of concatenations is the sum of the dot products of their parts. -/
theorem dot_flatten (xs ws : Fin n → List R) (h : ∀ r, (xs r).length = (ws r).length) :
    dot (List.ofFn xs).flatten (List.ofFn ws).flatten = ∑ r, dot (xs r) (ws r) := by
  induction n with
  | zero => simp [dot]
  | succ n ih =>
    rw [List.ofFn_succ, List.ofFn_succ, List.flatten_cons, List.flatten_cons, dot_append (h 0),
      ih _ _ fun r => h r.succ, Fin.sum_univ_succ]

/-- Column shards: the columns of rank `r` are as many as its input features. -/
structure ColumnShards (x : Fin n → Rows T R) (w : Fin n → List (List R)) (outFeatures : ℕ) :
    Prop where
  length : ∀ r, (w r).length = outFeatures
  row : ∀ r t, ∀ row ∈ w r, (x r t).length = row.length

/-- **The whole product, feature by feature.** -/
theorem linear_concat {x : Fin n → Rows T R} {w : Fin n → List (List R)} {m : ℕ}
    (h : ColumnShards x w m) {bias : Option (List R)} (hb : BiasFits m bias) (t : T) :
    linear (concat x) (stackColumns m w) bias t =
      (List.range m).map fun o => ∑ r, dot (x r t) ((w r).getD o []) + biasAt bias o := by
  have hlen : (stackColumns m w).length = m := by simp [stackColumns]
  rw [linear_eq _ _ (by rwa [hlen]), hlen]
  refine List.map_congr_left ?_
  intro o ho
  have ho := List.mem_range.1 ho
  have hget : (stackColumns m w).getD o [] = (List.ofFn fun r => (w r).getD o []).flatten := by
    simp [stackColumns, ho]
  rw [hget, concat, dot_flatten]
  intro r
  have hr : o < (w r).length := by rw [h.length]; exact ho
  refine h.row r t _ ?_
  rw [List.getD_eq_getElem?_getD, List.getElem?_eq_getElem hr, Option.getD_some]
  exact List.getElem_mem hr

/-- **The sum of the products of the column shards** is the whole product, and the sum of what the
ranks add. -/
theorem allReduce_linear {x : Fin (n + 1) → Rows T R} {w : Fin (n + 1) → List (List R)} {m : ℕ}
    (h : ColumnShards x w m) {bias : Fin (n + 1) → Option (List R)} (hb : ∀ r, BiasFits m (bias r))
    (t : T) : exchange .allReduce (fun r => linear (x r) (w r) (bias r)) t =
      (List.range m).map fun o => ∑ r, dot (x r t) ((w r).getD o []) + ∑ r, biasAt (bias r) o := by
  have hshare : (fun r => linear (x r) (w r) (bias r) t) = fun r =>
      (List.range m).map fun o => dot (x r t) ((w r).getD o []) + biasAt (bias r) o := by
    funext r
    rw [linear_eq _ _ (by rw [h.length]; exact hb r), h.length]
  show sumRows (List.ofFn fun r => linear (x r) (w r) (bias r) t) = _
  rw [hshare, sumRows_map_range]
  exact List.map_congr_left fun o _ => sum_add_distrib

/-- **The products of the row shards**, one after the other, are the whole product. -/
theorem allGather_linear (x : Rows T R) (w : Fin n → List (List R)) (t : T) :
    exchange .allGather (fun r => linear x (w r) none) t =
      linear x (List.ofFn w).flatten none t := by
  simp only [exchange, linear, addRow, List.map_flatten, List.map_ofFn]
  rfl

theorem zipWith_flatten_ofFn {α β γ : Type} (f : α → β → γ) (xs : Fin n → List α)
    (ys : Fin n → List β) (h : ∀ r, (xs r).length = (ys r).length) :
    List.zipWith f (List.ofFn xs).flatten (List.ofFn ys).flatten =
      (List.ofFn fun r => List.zipWith f (xs r) (ys r)).flatten := by
  induction n with
  | zero => simp
  | succ n ih =>
    rw [List.ofFn_succ, List.ofFn_succ, List.ofFn_succ, List.flatten_cons, List.flatten_cons,
      List.flatten_cons, List.zipWith_append (h 0), ih _ _ fun r => h r.succ]

theorem allGather_linear_bias (x : Rows T R) (w : Fin n → List (List R)) (b : Fin n → List R)
    (h : ∀ r, (b r).length = (w r).length) (t : T) :
    exchange .allGather (fun r => linear x (w r) (some (b r))) t =
      linear x (List.ofFn w).flatten (some (List.ofFn b).flatten) t := by
  simp only [exchange, linear, addRow, List.map_flatten, List.map_ofFn]
  rw [zipWith_flatten_ofFn]
  · rfl
  · intro r
    simp [h r]

/-- **The gated activation of shards.**  Every rank holds a shard of the gate and the shard of the
same features of the other half. -/
theorem siluAndMul_concat (silu : R → R) (x : Rows T R) (gate up : Fin n → List (List R))
    (h : ∀ r, (gate r).length = (up r).length) (t : T) :
    siluAndMul silu (linear x ((List.ofFn gate).flatten ++ (List.ofFn up).flatten) none t) =
      concat (fun r t => siluAndMul silu (linear x (gate r ++ up r) none t)) t := by
  have hhalf : ∀ g u : List (List R), g.length = u.length →
      siluAndMul silu (linear x (g ++ u) none t) =
        List.zipWith (fun a b => silu a * b) (g.map (dot (x t))) (u.map (dot (x t))) := by
    intro g u hgu
    have hlen : ((g ++ u).map (dot (x t))).length / 2 = (g.map (dot (x t))).length := by
      simp only [List.length_map, List.length_append]
      omega
    rw [siluAndMul, linear, addRow, hlen, List.map_append, List.take_left, List.drop_left]
  have hflat : (List.ofFn gate).flatten.length = (List.ofFn up).flatten.length := by
    simp [List.length_flatten, List.map_ofFn, Function.comp_def, h]
  have hshards : (fun r => siluAndMul silu (linear x (gate r ++ up r) none t)) = fun r =>
      List.zipWith (fun a b => silu a * b) ((gate r).map (dot (x t))) ((up r).map (dot (x t))) :=
    funext fun r => hhalf _ _ (h r)
  rw [hhalf _ _ hflat, concat, hshards, List.map_flatten, List.map_flatten, List.map_ofFn,
    List.map_ofFn, ← zipWith_flatten_ofFn]
  · rfl
  · intro r
    simp [h r]

end Parallel

end VllmVulkan
