import Mathlib.Data.Fintype.BigOperators
import Mathlib.Data.Set.Basic
import Mathlib.Logic.Function.Basic

/-!
# Threads sharing a memory between barriers

A group of threads shares a memory.  Between two barriers each thread performs a list of atomic
actions on its own local state and the memory; the threads' actions interleave in any order, and a
barrier is passed when all threads have arrived.

* `Action`, `Action.exec` : a local computation, a load, a store;
* `Interleave` : the executions of one phase, from barrier to barrier;
* `RunPhases` : the executions of a sequence of phases;
* `Within` : the actions of a thread load from `R` and store to `W`;
* `Interleave.eq_alone` : **in a phase where no thread stores what another one may touch, every
  thread ends as if it had run alone**, and the memory no thread stores to is unchanged;
* `Interleave.exists_run`, `RunPhases.exists_run` : a finite group of threads always gets through.
-/

namespace VllmVulkan

variable {T L A V : Type*} [DecidableEq A]

/-- An atomic action of a thread with local state `L` on a memory from `A` to `V`. -/
inductive Action (L A V : Type*) where
  | compute (f : L → L)
  | load (x : A) (f : L → V → L)
  | store (x : A) (f : L → V)

namespace Action

/-- The effect of an action on the local state and the memory. -/
def exec : Action L A V → L × (A → V) → L × (A → V)
  | compute f, s => (f s.1, s.2)
  | load x f, s => (f s.1 (s.2 x), s.2)
  | store x f, s => (s.1, Function.update s.2 x (f s.1))

/-- A thread running alone. -/
def alone (as : List (Action L A V)) (s : L × (A → V)) : L × (A → V) :=
  as.foldl (fun s a => a.exec s) s

/-- The action loads from `R` and stores to `W`. -/
def Within (R W : Set A) : Action L A V → Prop
  | compute _ => True
  | load x _ => x ∈ R
  | store x _ => x ∈ W

@[simp] theorem alone_nil (s : L × (A → V)) : alone [] s = s := rfl

@[simp] theorem alone_cons (a : Action L A V) (as : List (Action L A V)) (s : L × (A → V)) :
    alone (a :: as) s = alone as (a.exec s) := rfl

theorem exec_frame {R W : Set A} {a : Action L A V} (h : a.Within R W) (s : L × (A → V)) {x : A}
    (hx : x ∉ W) : (a.exec s).2 x = s.2 x := by
  cases a with
  | compute f => rfl
  | load y f => rfl
  | store y f => exact Function.update_of_ne (fun e => hx (by rw [e]; exact h)) _ _

theorem exec_congr {R W : Set A} {a : Action L A V} (h : a.Within R W) (ℓ : L) {m m' : A → V}
    (hm : ∀ x ∈ R ∪ W, m x = m' x) : (a.exec (ℓ, m)).1 = (a.exec (ℓ, m')).1 ∧
      ∀ x ∈ R ∪ W, (a.exec (ℓ, m)).2 x = (a.exec (ℓ, m')).2 x := by
  cases a with
  | compute f => exact ⟨rfl, hm⟩
  | load y f => exact ⟨by simp only [exec, hm y (Or.inl h)], hm⟩
  | store y f =>
    refine ⟨rfl, fun x hx => ?_⟩
    simp only [exec, Function.update_apply, hm x hx]

theorem alone_frame {R W : Set A} {as : List (Action L A V)} (h : ∀ a ∈ as, a.Within R W)
    (s : L × (A → V)) {x : A} (hx : x ∉ W) : (alone as s).2 x = s.2 x := by
  induction as generalizing s with
  | nil => rfl
  | cons a as ih =>
    rw [alone_cons, ih (fun b hb => h b (by simp [hb])), exec_frame (h a (by simp)) s hx]

theorem alone_congr {R W : Set A} {as : List (Action L A V)} (h : ∀ a ∈ as, a.Within R W)
    (ℓ : L) {m m' : A → V} (hm : ∀ x ∈ R ∪ W, m x = m' x) :
    (alone as (ℓ, m)).1 = (alone as (ℓ, m')).1 ∧
      ∀ x ∈ R ∪ W, (alone as (ℓ, m)).2 x = (alone as (ℓ, m')).2 x := by
  induction as generalizing ℓ m m' with
  | nil => exact ⟨rfl, hm⟩
  | cons a as ih =>
    obtain ⟨h₁, h₂⟩ := exec_congr (h a (by simp)) ℓ hm
    have ih' := ih (fun b hb => h b (by simp [hb])) (a.exec (ℓ, m)).1 h₂
    rw [alone_cons, alone_cons]
    exact ⟨by rw [ih'.1, h₁], fun x hx => by rw [ih'.2 x hx, h₁]⟩

/-! ### Lists of updates -/

theorem foldl_update_of_notMem {ι : Type*} (key : ι → A) (g : ι → V → V) {xs : List ι} {a : A}
    (ha : a ∉ xs.map key) (m : A → V) :
    xs.foldl (fun m x => Function.update m (key x) (g x (m (key x)))) m a = m a := by
  induction xs generalizing m with
  | nil => rfl
  | cons x xs ih =>
    rw [List.map_cons, List.mem_cons, not_or] at ha
    rw [List.foldl_cons, ih ha.2, Function.update_of_ne ha.1]

theorem foldl_update {ι : Type*} (key : ι → A) (g : ι → V → V) {xs : List ι}
    (hn : (xs.map key).Nodup) (m : A → V) {x : ι} (hx : x ∈ xs) :
    xs.foldl (fun m x => Function.update m (key x) (g x (m (key x)))) m (key x) =
      g x (m (key x)) := by
  induction xs generalizing m with
  | nil => cases hx
  | cons y ys ih =>
    obtain ⟨hy, hn⟩ := List.nodup_cons.1 hn
    rw [List.foldl_cons]
    obtain rfl | hx := List.mem_cons.1 hx
    · rw [foldl_update_of_notMem key g hy, Function.update_self]
    · have hne : key x ≠ key y := fun h => hy (h ▸ List.mem_map_of_mem hx)
      rw [ih hn _ hx, Function.update_of_ne hne]

theorem alone_append (as bs : List (Action L A V)) (s : L × (A → V)) :
    alone (as ++ bs) s = alone bs (alone as s) := List.foldl_append

theorem alone_map_store {ι : Type*} (addr : ι → A) (val : ι → L → V) (xs : List ι)
    (s : L × (A → V)) : alone (xs.map fun x => .store (addr x) (val x)) s =
      (s.1, xs.foldl (fun m x => Function.update m (addr x) (val x s.1)) s.2) := by
  induction xs generalizing s with
  | nil => rfl
  | cons x xs ih => exact ih _

theorem alone_store_of_notMem {ι : Type*} {addr : ι → A} (val : ι → L → V) {xs : List ι}
    (s : L × (A → V)) {a : A} (ha : a ∉ xs.map addr) :
    (alone (xs.map fun x => .store (addr x) (val x)) s).2 a = s.2 a := by
  rw [alone_map_store]
  exact foldl_update_of_notMem addr (fun x _ => val x s.1) ha s.2

theorem alone_store_of_mem {ι : Type*} {addr : ι → A} (val : ι → L → V) {xs : List ι}
    (s : L × (A → V)) (hn : (xs.map addr).Nodup) {x : ι} (hx : x ∈ xs) :
    (alone (xs.map fun x => .store (addr x) (val x)) s).2 (addr x) = val x s.1 := by
  rw [alone_map_store]
  exact foldl_update addr (fun x _ => val x s.1) hn s.2 hx

end Action

open VllmVulkan.Action

variable [DecidableEq T]

/-- The executions of one phase: any thread with actions left performs its next one. -/
inductive Interleave :
    (T → List (Action L A V)) → (T → L) → (A → V) → (T → L) → (A → V) → Prop
  | done {ph ℓ m} (h : ∀ t, ph t = []) : Interleave ph ℓ m ℓ m
  | step {ph ℓ m ℓ' m'} (t : T) (a : Action L A V) (as : List (Action L A V))
      (h : ph t = a :: as)
      (next : Interleave (Function.update ph t as) (Function.update ℓ t (a.exec (ℓ t, m)).1)
        (a.exec (ℓ t, m)).2 ℓ' m') : Interleave ph ℓ m ℓ' m'

/-- No thread stores what another one may touch. -/
structure RaceFree (ph : T → List (Action L A V)) (R W : T → Set A) : Prop where
  within : ∀ t, ∀ a ∈ ph t, a.Within (R t) (W t)
  disjoint : ∀ t t', t ≠ t' → ∀ x ∈ W t, x ∉ R t' ∪ W t'

omit [DecidableEq A] in
theorem RaceFree.update {ph : T → List (Action L A V)} {R W : T → Set A} (h : RaceFree ph R W)
    {t : T} {a : Action L A V} {as : List (Action L A V)} (ht : ph t = a :: as) :
    RaceFree (Function.update ph t as) R W := by
  refine ⟨fun t' b hb => ?_, h.disjoint⟩
  by_cases e : t' = t
  · subst e
    rw [Function.update_self] at hb
    exact h.within t' b (by rw [ht]; simp [hb])
  · rw [Function.update_of_ne e] at hb
    exact h.within t' b hb

/-- **A race-free phase has one outcome**: every thread ends as if it had run alone from the start
of the phase, so does the memory it may touch, and the memory no thread stores to is unchanged. -/
theorem Interleave.eq_alone {ph : T → List (Action L A V)} {ℓ ℓ' : T → L} {m m' : A → V}
    {R W : T → Set A} (h : Interleave ph ℓ m ℓ' m') (hr : RaceFree ph R W) :
    (∀ t, ℓ' t = (alone (ph t) (ℓ t, m)).1) ∧
      (∀ t, ∀ x ∈ R t ∪ W t, m' x = (alone (ph t) (ℓ t, m)).2 x) ∧
      ∀ x, (∀ t, x ∉ W t) → m' x = m x := by
  induction h with
  | done h => exact ⟨fun t => by rw [h t]; rfl, fun t x _ => by rw [h t]; rfl, fun _ _ => rfl⟩
  | @step ph ℓ m ℓ' m' t a as ht next ih =>
    obtain ⟨h₁, h₂, h₃⟩ := ih (hr.update ht)
    have ha : a.Within (R t) (W t) := hr.within t a (by rw [ht]; simp)
    -- the step of `t` is invisible to the other threads
    have hother : ∀ t', t' ≠ t → ∀ x ∈ R t' ∪ W t', (a.exec (ℓ t, m)).2 x = m x :=
      fun t' hne x hx =>
      exec_frame ha _ fun hW => hr.disjoint t t' hne.symm x hW hx
    have hrest : ∀ t', t' ≠ t → alone ((Function.update ph t as) t')
        ((Function.update ℓ t (a.exec (ℓ t, m)).1) t', (a.exec (ℓ t, m)).2) =
          alone (ph t') (ℓ t', (a.exec (ℓ t, m)).2) := fun t' hne => by
      rw [Function.update_of_ne hne, Function.update_of_ne hne]
    refine ⟨fun t' => ?_, fun t' x hx => ?_, fun x hx => ?_⟩
    · by_cases e : t' = t
      · subst e; rw [h₁, Function.update_self, Function.update_self, ht]; rfl
      · rw [h₁, hrest t' e]
        exact (alone_congr (hr.within t') _ (hother t' e)).1
    · by_cases e : t' = t
      · subst e; rw [h₂ t' x hx, Function.update_self, Function.update_self, ht]; rfl
      · rw [h₂ t' x hx, hrest t' e]
        exact (alone_congr (hr.within t') _ (hother t' e)).2 x hx
    · rw [h₃ x hx, exec_frame ha _ (hx t)]

/-- The executions of a sequence of phases, with a barrier after each. -/
def RunPhases : List (T → List (Action L A V)) → (T → L) → (A → V) → (T → L) → (A → V) → Prop
  | [], ℓ, m, ℓ', m' => ℓ' = ℓ ∧ m' = m
  | ph :: phs, ℓ, m, ℓ', m' =>
    ∃ ℓ₁ m₁, Interleave ph ℓ m ℓ₁ m₁ ∧ RunPhases phs ℓ₁ m₁ ℓ' m'

theorem runPhases_append {phs phs' : List (T → List (Action L A V))} {ℓ ℓ' : T → L}
    {m m' : A → V} : RunPhases (phs ++ phs') ℓ m ℓ' m' ↔
      ∃ ℓ₁ m₁, RunPhases phs ℓ m ℓ₁ m₁ ∧ RunPhases phs' ℓ₁ m₁ ℓ' m' := by
  induction phs generalizing ℓ m with
  | nil => simp [RunPhases]
  | cons ph phs ih =>
    simp only [List.cons_append, RunPhases, ih]
    constructor
    · rintro ⟨ℓ₁, m₁, h, ℓ₂, m₂, h₁, h₂⟩
      exact ⟨ℓ₂, m₂, ⟨ℓ₁, m₁, h, h₁⟩, h₂⟩
    · rintro ⟨ℓ₂, m₂, ⟨ℓ₁, m₁, h, h₁⟩, h₂⟩
      exact ⟨ℓ₁, m₁, h, ℓ₂, m₂, h₁, h₂⟩

/-! ### Progress -/

variable [Fintype T]

theorem Interleave.exists_run (ph : T → List (Action L A V)) (ℓ : T → L) (m : A → V) :
    ∃ ℓ' m', Interleave ph ℓ m ℓ' m' := by
  generalize hn : ∑ t, (ph t).length = n
  induction n generalizing ph ℓ m with
  | zero =>
    refine ⟨ℓ, m, .done fun t => List.length_eq_zero_iff.1 ?_⟩
    exact Finset.sum_eq_zero_iff.1 hn t (Finset.mem_univ t)
  | succ n ih =>
    obtain ⟨t, -, ht⟩ := Finset.exists_ne_zero_of_sum_ne_zero (hn.trans_ne n.succ_ne_zero)
    obtain ⟨a, as, has⟩ := List.exists_cons_of_length_pos (Nat.pos_of_ne_zero ht)
    have hsum : ∑ t', (Function.update ph t as t').length = n := by
      rw [← Finset.add_sum_erase _ _ (Finset.mem_univ t)] at hn ⊢
      have hsame : ∑ t' ∈ Finset.univ.erase t, (Function.update ph t as t').length =
          ∑ t' ∈ Finset.univ.erase t, (ph t').length :=
        Finset.sum_congr rfl fun t' ht' => by
          rw [Function.update_of_ne (Finset.ne_of_mem_erase ht')]
      rw [hsame, Function.update_self]
      rw [has, List.length_cons] at hn
      omega
    obtain ⟨ℓ', m', h⟩ := ih (Function.update ph t as)
      (Function.update ℓ t (a.exec (ℓ t, m)).1) (a.exec (ℓ t, m)).2 hsum
    exact ⟨ℓ', m', .step t a as has h⟩

theorem RunPhases.exists_run (phs : List (T → List (Action L A V))) (ℓ : T → L) (m : A → V) :
    ∃ ℓ' m', RunPhases phs ℓ m ℓ' m' := by
  induction phs generalizing ℓ m with
  | nil => exact ⟨ℓ, m, rfl, rfl⟩
  | cons ph phs ih =>
    obtain ⟨ℓ₁, m₁, h₁⟩ := Interleave.exists_run ph ℓ m
    obtain ⟨ℓ', m', h'⟩ := ih ℓ₁ m₁
    exact ⟨ℓ', m', ℓ₁, m₁, h₁, h'⟩

end VllmVulkan
