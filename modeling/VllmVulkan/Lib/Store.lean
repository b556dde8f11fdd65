import Mathlib.Data.List.Perm.Basic
import Mathlib.Data.List.Nodup
import Mathlib.Logic.Function.Basic
import Mathlib.Tactic.Common

/-!
# Memories and lists of stores

A memory is a function from addresses to values.  A program that only stores is the list of its
stores, each an address with the value written there; `applyStores` performs them in order, so a
later store to an address wins.

* `applyStores_of_notMem` : an address no store names keeps its value (the frame rule);
* `applyStores_of_mem` : when every address is stored to once, it holds that store's value;
* `applyStores_perm` : **stores to distinct addresses may be performed in any order**;
* `applyStores_congr` : two memories that agree outside the stored addresses agree afterwards.
-/

namespace VllmVulkan

namespace Store

variable {ι α : Type*} [DecidableEq ι]

/-- The memory after the stores of `ss`, in order. -/
def applyStores (m : ι → α) (ss : List (ι × α)) : ι → α :=
  ss.foldl (fun m s => Function.update m s.1 s.2) m

@[simp] theorem applyStores_nil (m : ι → α) : applyStores m [] = m := rfl

@[simp] theorem applyStores_cons (m : ι → α) (s : ι × α) (ss : List (ι × α)) :
    applyStores m (s :: ss) = applyStores (Function.update m s.1 s.2) ss := rfl

theorem applyStores_append (m : ι → α) (ss ss' : List (ι × α)) :
    applyStores m (ss ++ ss') = applyStores (applyStores m ss) ss' := by
  simp [applyStores, List.foldl_append]

theorem applyStores_of_notMem {ss : List (ι × α)} {i : ι} (h : i ∉ ss.map Prod.fst)
    (m : ι → α) : applyStores m ss i = m i := by
  induction ss generalizing m with
  | nil => rfl
  | cons s ss ih =>
    simp only [List.map_cons, List.mem_cons, not_or] at h
    rw [applyStores_cons, ih h.2, Function.update_of_ne h.1]

theorem applyStores_of_mem {ss : List (ι × α)} {s : ι × α} (hn : (ss.map Prod.fst).Nodup)
    (h : s ∈ ss) (m : ι → α) : applyStores m ss s.1 = s.2 := by
  induction ss generalizing m with
  | nil => cases h
  | cons t ss ih =>
    simp only [List.map_cons, List.nodup_cons] at hn
    rw [applyStores_cons]
    obtain rfl | h := List.mem_cons.1 h
    · rw [applyStores_of_notMem hn.1, Function.update_self]
    · exact ih hn.2 h _

/-- **Stores to pairwise distinct addresses may be performed in any order.** -/
theorem applyStores_perm {ss ss' : List (ι × α)} (hp : ss.Perm ss')
    (hn : (ss.map Prod.fst).Nodup) (m : ι → α) : applyStores m ss = applyStores m ss' := by
  have hn' : (ss'.map Prod.fst).Nodup := (hp.map Prod.fst).nodup_iff.1 hn
  funext i
  by_cases hi : i ∈ ss.map Prod.fst
  · obtain ⟨s, hs, rfl⟩ := List.mem_map.1 hi
    rw [applyStores_of_mem hn hs, applyStores_of_mem hn' (hp.subset hs)]
  · have hi' : i ∉ ss'.map Prod.fst := fun h => hi ((hp.map Prod.fst).symm.subset h)
    rw [applyStores_of_notMem hi, applyStores_of_notMem hi']

/-- Stores hide what was below them: only the addresses they miss depend on the old memory. -/
theorem applyStores_congr {ss : List (ι × α)} {m m' : ι → α} {i : ι}
    (h : i ∉ ss.map Prod.fst → m i = m' i) : applyStores m ss i = applyStores m' ss i := by
  induction ss generalizing m m' with
  | nil => exact h (by simp)
  | cons s ss ih =>
    rw [applyStores_cons, applyStores_cons]
    refine ih ?_
    intro hi
    by_cases hs : i = s.1
    · subst hs; rw [Function.update_self, Function.update_self]
    · rw [Function.update_of_ne hs, Function.update_of_ne hs]
      exact h (by simp only [List.map_cons, List.mem_cons, not_or]; exact ⟨hs, hi⟩)

end Store

end VllmVulkan
