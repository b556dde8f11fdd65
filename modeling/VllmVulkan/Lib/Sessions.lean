import VllmVulkan.Lib.Machine
import VllmVulkan.Lib.Panic
import Mathlib.Logic.Function.Basic

/-!
# Programs that share an object

A program calls an object and goes on with what the call returns; a call that panics ends it.
Several programs share one object and make their calls in any order.  Some of the calls reset the
object.

* `Prog` : programs, with `Prog.run`, the run of a program that has the object for itself;
* `Pool` : programs that share an object, with a log of the calls made;
* `Exclusive` : what was called since the last reset is what one program called since its own;
* `Object.Resets` : after a reset an object is as good as new;
* `run_eq_alone` : **a program whose calls are exclusive returns what it returns alone**;
* `undisturbed_of_last` : a program that comes after the others has its calls to itself;
* `exists_result` : a program that was given its turns has returned;
* `Prog.Yields`, `Prog.Ensures` : what a program returns when its calls answer well.
-/

namespace VllmVulkan

namespace Sessions

open Machine Panics

/-- An object with its calls. -/
structure Object (σ : Type) (C : Type → Type) where
  /-- What a call does. -/
  exec : ∀ {β : Type}, C β → Panics σ β
  isReset : ∀ {β : Type}, C β → Bool

/-- A program that returns an `α`, or raises. -/
inductive Prog (C : Type → Type) (α : Type) : Type 1 where
  | ret (a : α)
  | raise
  | call {β : Type} (c : C β) (k : β → Prog C α)

variable {ι σ : Type} {C : Type → Type} {α γ : Type}

namespace Prog

protected def bind : Prog C α → (α → Prog C γ) → Prog C γ
  | .ret a, f => f a
  | .raise, _ => .raise
  | .call c k, f => .call c fun b => (k b).bind f

instance : Monad (Prog C) where
  pure := .ret
  bind := Prog.bind

/-- A call by itself. -/
def perform (c : C α) : Prog C α := .call c .ret

/-- The run of a program that has the object for itself. -/
def run (O : Object σ C) : Prog C α → Panics σ α
  | .ret a => pure a
  | .raise => panic
  | .call c k => O.exec c >>= fun b => (k b).run O

/-- How a program goes on after a call. -/
def resume {β : Type} (k : β → Prog C α) : Option β → Prog C α
  | some b => k b
  | none => .raise

/-- One call, if there is one left. -/
def step (O : Object σ C) : Prog C α → σ → Prog C α × σ
  | .ret a, s => (.ret a, s)
  | .raise, s => (.raise, s)
  | .call c k, s => (resume k (O.exec c s).1, (O.exec c s).2)

/-- What the program returned, or `none` for a panic, once it has finished. -/
def result : Prog C α → Option (Option α)
  | .ret a => some (some a)
  | .raise => some none
  | .call _ _ => none

/-- The next call is one that depends on the state. -/
def usesState (O : Object σ C) : Prog C α → Bool
  | .call c _ => !O.isReset c
  | _ => false

theorem run_step (O : Object σ C) (p : Prog C α) (s : σ) :
    (p.step O s).1.run O (p.step O s).2 = p.run O s := by
  cases p with
  | ret a => rfl
  | raise => rfl
  | call c k =>
    rcases h : O.exec c s with ⟨o, s'⟩
    simp only [step, h]
    cases o with
    | none => exact (bind_none h).symm
    | some b => exact (bind_some (f := fun b => (k b).run O) h).symm

theorem run_result (O : Object σ C) {p : Prog C α} {r : Option α} (h : p.result = some r) (s : σ) :
    (p.run O s).1 = r := by
  cases p with
  | call c k => cases h
  | ret a => exact Option.some.inj h
  | raise => exact Option.some.inj h

end Prog

/-! ### Interleaving -/

/-- Programs that share an object. -/
structure Pool (ι σ : Type) (C : Type → Type) (α : Type) where
  state : σ
  /-- What is left of the programs. -/
  progs : ι → Prog C α
  /-- The calls made, the last one first: who made it, and whether it was a reset. -/
  calls : List (ι × Bool)

/-- The calls since the last reset. -/
def sinceReset (calls : List (ι × Bool)) : List (ι × Bool) := calls.takeWhile fun c => !c.2

variable [DecidableEq ι]

/-- Since the last reset, by whomever, exactly those calls were made that `i` made since its own
last reset. -/
def Exclusive (i : ι) (calls : List (ι × Bool)) : Prop :=
  sinceReset calls = sinceReset (calls.filter fun c => c.1 = i)

instance (i : ι) (calls : List (ι × Bool)) : Decidable (Exclusive i calls) :=
  inferInstanceAs (Decidable (sinceReset calls = sinceReset (calls.filter fun c => c.1 = i)))

namespace Pool

/-- What a step of `i` adds to the log. -/
def logged (O : Object σ C) (i : ι) : Prog C α → List (ι × Bool)
  | .call c _ => [(i, O.isReset c)]
  | _ => []

/-- The next call of `i`. -/
def step (O : Object σ C) (P : Pool ι σ C α) (i : ι) : Pool ι σ C α where
  state := ((P.progs i).step O P.state).2
  progs := Function.update P.progs i ((P.progs i).step O P.state).1
  calls := logged O i (P.progs i) ++ P.calls

theorem step_progs_self (O : Object σ C) (P : Pool ι σ C α) (i : ι) :
    (P.step O i).progs i = ((P.progs i).step O P.state).1 :=
  Function.update_self ..

theorem step_progs_of_ne (O : Object σ C) (P : Pool ι σ C α) {i j : ι} (h : j ≠ i) :
    (P.step O j).progs i = P.progs i :=
  Function.update_of_ne h.symm ..

theorem step_of_result (O : Object σ C) {P : Pool ι σ C α} {i : ι} {r : Option α}
    (h : (P.progs i).result = some r) : P.step O i = P := by
  obtain ⟨state, progs, calls⟩ := P
  cases hp : progs i with
  | call c k =>
    simp only [hp] at h
    cases h
  | ret a =>
    simp only [step, hp, Prog.step, logged, List.nil_append]
    rw [← hp, Function.update_eq_self]
  | raise =>
    simp only [step, hp, Prog.step, logged, List.nil_append]
    rw [← hp, Function.update_eq_self]

theorem step_call (O : Object σ C) {P : Pool ι σ C α} {i : ι} {β : Type} {c : C β}
    {k : β → Prog C α} (h : P.progs i = .call c k) :
    (P.step O i).state = (O.exec c P.state).2 ∧
      (P.step O i).calls = (i, O.isReset c) :: P.calls := by
  simp only [step, h, Prog.step, logged, List.cons_append, List.nil_append, and_self]

/-- If the next call of `i` depends on the state, it is exclusive. -/
def Undisturbed (O : Object σ C) (P : Pool ι σ C α) (i : ι) : Prop :=
  (P.progs i).usesState O = true → Exclusive i P.calls

instance (O : Object σ C) (P : Pool ι σ C α) (i : ι) : Decidable (P.Undisturbed O i) :=
  inferInstanceAs (Decidable ((P.progs i).usesState O = true → Exclusive i P.calls))

end Pool

/-- A pool as a machine whose inputs say who takes the next step. -/
def machine (O : Object σ C) (P : Pool ι σ C α) (i : ι) : Pool ι σ C α × Unit := (P.step O i, ())

/-! ### Isolation -/

/-- After a reset an object is as good as new: calls that start from states which are the `Same`
have the same outcome and leave states which are the `Same`, and so are any two `Clean` states,
among them those after a reset. -/
structure Object.Resets (O : Object σ C) (Same : σ → σ → Prop) (Clean : σ → Prop) : Prop where
  left : ∀ {s t}, Same s t → Same s s
  right : ∀ {s t}, Same s t → Same t t
  clean : ∀ {s t}, Clean s → Clean t → Same s t
  call : ∀ {β : Type} (c : C β), Refines Same (fun _ => True) (O.exec c) (O.exec c)
  reset : ∀ {β : Type} {c : C β} {s t}, O.isReset c = true → Same s s → Same t t →
    (O.exec c s).1 = (O.exec c t).1 ∧ Clean (O.exec c s).2 ∧ Clean (O.exec c t).2

variable {O : Object σ C} {Same : σ → σ → Prop} {Clean : σ → Prop}

/-- What the pool has in common with the run of `i` alone, which has come to the state `t`. -/
structure Follows (O : Object σ C) (Same : σ → σ → Prop) (Clean : σ → Prop) (i : ι)
    (r : Option α) (P : Pool ι σ C α) (t : σ) : Prop where
  run : ((P.progs i).run O t).1 = r
  shared : Same P.state P.state
  alone : Same t t
  clean : sinceReset (P.calls.filter fun c => c.1 = i) = [] → Clean t
  same : Exclusive i P.calls → Same P.state t

omit [DecidableEq ι] in
theorem sinceReset_true (i : ι) (calls : List (ι × Bool)) :
    sinceReset ((i, true) :: calls) = [] := rfl

omit [DecidableEq ι] in
theorem sinceReset_false (i : ι) (calls : List (ι × Bool)) :
    sinceReset ((i, false) :: calls) = (i, false) :: sinceReset calls := rfl

theorem not_exclusive_cons {i j : ι} (h : j ≠ i) (calls : List (ι × Bool)) :
    ¬ Exclusive i ((j, false) :: calls) := by
  intro hex
  have hmem : (j, false) ∈ sinceReset (((j, false) :: calls).filter fun c => c.1 = i) := by
    rw [← hex, sinceReset_false]
    exact List.mem_cons_self
  have hfilter := (List.takeWhile_sublist _).mem hmem
  exact h (of_decide_eq_true (List.mem_filter.1 hfilter).2)

theorem Follows.step_self (hO : O.Resets Same Clean) {i : ι} {r : Option α} {P : Pool ι σ C α}
    {t : σ} (h : Follows O Same Clean i r P t) (hok : P.Undisturbed O i) :
    ∃ t', Follows O Same Clean i r (P.step O i) t' := by
  rcases hp : P.progs i with a | _ | ⟨c, k⟩
  case call =>
    obtain ⟨hstate, hcalls⟩ := Pool.step_call O hp
    have hown : (P.step O i).calls.filter (fun c => c.1 = i) =
        (i, O.isReset c) :: P.calls.filter fun c => c.1 = i := by
      rw [hcalls]
      exact List.filter_cons_of_pos (by simp)
    -- both go on with the same program once the call had the same outcome
    have hrun : (O.exec c P.state).1 = (O.exec c t).1 →
        (((P.step O i).progs i).run O (O.exec c t).2).1 = r := by
      intro hout
      have hprog : (P.step O i).progs i = ((P.progs i).step O t).1 := by
        rw [Pool.step_progs_self, hp, Prog.step, Prog.step, hout]
      have hnext : (O.exec c t).2 = ((P.progs i).step O t).2 := by rw [hp, Prog.step]
      rw [hprog, hnext, Prog.run_step]
      exact h.run
    refine ⟨(O.exec c t).2, ?_⟩
    cases hreset : O.isReset c with
    | true =>
      obtain ⟨hout, hs, ht⟩ := hO.reset hreset h.shared h.alone
      exact ⟨hrun hout, hstate ▸ hO.clean hs hs, hO.clean ht ht, fun _ => ht,
        fun _ => hstate ▸ hO.clean hs ht⟩
    | false =>
      have hex : Exclusive i P.calls := hok (by simp [Prog.usesState, hp, hreset])
      obtain ⟨hout, hsame, -⟩ := hO.call c _ _ (h.same hex)
      refine ⟨hrun hout, hstate ▸ hO.left hsame, hO.right hsame, fun hnil => ?_,
        fun _ => hstate ▸ hsame⟩
      rw [hown, hreset, sinceReset_false] at hnil
      cases hnil
  case ret =>
    rw [Pool.step_of_result O (by rw [hp]; rfl)]
    exact ⟨t, h⟩
  case raise =>
    rw [Pool.step_of_result O (by rw [hp]; rfl)]
    exact ⟨t, h⟩

theorem Follows.step_other (hO : O.Resets Same Clean) {i j : ι} (hij : j ≠ i) {r : Option α}
    {P : Pool ι σ C α} {t : σ} (h : Follows O Same Clean i r P t) :
    Follows O Same Clean i r (P.step O j) t := by
  rcases hp : P.progs j with a | _ | ⟨c, k⟩
  case call =>
    obtain ⟨hstate, hcalls⟩ := Pool.step_call O hp
    have hown : (P.step O j).calls.filter (fun c => c.1 = i) =
        P.calls.filter fun c => c.1 = i := by
      rw [hcalls]
      exact List.filter_cons_of_neg (by simp [hij])
    have hrun : (((P.step O j).progs i).run O t).1 = r := by
      rw [Pool.step_progs_of_ne O P hij]
      exact h.run
    cases hreset : O.isReset c with
    | true =>
      -- the object is as good as new, and `i` has made no calls that it could miss
      obtain ⟨-, hs, -⟩ := hO.reset hreset h.shared h.shared
      refine ⟨hrun, hstate ▸ hO.clean hs hs, h.alone, hown ▸ h.clean, fun hex => ?_⟩
      rw [Exclusive, hown, hcalls, hreset, sinceReset_true] at hex
      exact hstate ▸ hO.clean hs (h.clean hex.symm)
    | false =>
      refine ⟨hrun, hstate ▸ (hO.call c _ _ h.shared).2.1, h.alone, hown ▸ h.clean, ?_⟩
      rw [hcalls, hreset]
      exact fun hex => absurd hex (not_exclusive_cons hij _)
  case ret =>
    rw [Pool.step_of_result O (by rw [hp]; rfl)]
    exact h
  case raise =>
    rw [Pool.step_of_result O (by rw [hp]; rfl)]
    exact h

/-- **A program whose calls are exclusive returns what it returns alone**, whatever the other
programs do. -/
theorem run_eq_alone (hO : O.Resets Same Clean) {progs : ι → Prog C α} {s t : σ} (hs : Clean s)
    (ht : Clean t) {schedule : List ι} {i : ι}
    (hok : ∀ τ ∈ transitions (machine O) ⟨s, progs, []⟩ schedule,
      τ.input = i → τ.pre.Undisturbed O i) {r : Option α}
    (hr : ((finalState (machine O) ⟨s, progs, []⟩ schedule).progs i).result = some r) :
    ((progs i).run O t).1 = r := by
  have hstart : ∃ t', Follows O Same Clean i ((progs i).run O t).1 ⟨s, progs, []⟩ t' :=
    ⟨t, rfl, hO.clean hs hs, hO.clean ht ht, fun _ => ht, fun _ => hO.clean hs ht⟩
  have hstep : ∀ (P : Pool ι σ C α) (j : ι),
      (∃ t', Follows O Same Clean i ((progs i).run O t).1 P t') →
      (j = i → P.Undisturbed O i) →
      ∃ t', Follows O Same Clean i ((progs i).run O t).1 (machine O P j).1 t' := by
    rintro P j ⟨t', h⟩ hj
    by_cases hij : j = i
    · subst hij
      exact h.step_self hO (hj rfl)
    · exact ⟨t', h.step_other hO hij⟩
  obtain ⟨t', h⟩ := @finalState_inv _ _ _ (machine O)
    (fun P => ∃ t', Follows O Same Clean i ((progs i).run O t).1 P t')
    (fun P j => j = i → P.Undisturbed O i) hstep _ _ hstart hok
  exact h.run.symm.trans (Prog.run_result O hr t')

/-! ### One after the other -/

theorem exclusive_reset (i : ι) (calls : List (ι × Bool)) : Exclusive i ((i, true) :: calls) := by
  rw [Exclusive, List.filter_cons_of_pos (by simp), sinceReset_true, sinceReset_true]

theorem Exclusive.cons_self {i : ι} {calls : List (ι × Bool)} (h : Exclusive i calls) (b : Bool) :
    Exclusive i ((i, b) :: calls) := by
  cases b with
  | true => exact exclusive_reset i calls
  | false =>
    rw [Exclusive, List.filter_cons_of_pos (by simp), sinceReset_false, sinceReset_false, h]

/-- **A program that comes after the others** and starts with a reset is undisturbed. -/
theorem undisturbed_of_last {P : Pool ι σ C α} {i : ι} {β : Type} {c : C β} {k : β → Prog C α}
    (hprog : P.progs i = .call c k) (hreset : O.isReset c = true) {before : List ι}
    (hbefore : i ∉ before) (n : ℕ) :
    ∀ τ ∈ transitions (machine O) P (before ++ List.replicate n i),
      τ.input = i → τ.pre.Undisturbed O i := by
  induction before generalizing P with
  | nil =>
    have hstep : ∀ (P : Pool ι σ C α) (j : ι), (P.progs i = .call c k ∨ Exclusive i P.calls) →
        j = i → ((machine O P j).1.progs i = .call c k ∨ Exclusive i (machine O P j).1.calls) := by
      rintro P j h rfl
      right
      rcases h with hp | hex
      · rw [machine, (Pool.step_call O hp).2, hreset]
        exact exclusive_reset _ _
      · rcases hp : P.progs j with a | _ | ⟨c', k'⟩
        case call =>
          rw [machine, (Pool.step_call O hp).2]
          exact hex.cons_self _
        case ret =>
          rw [machine, Pool.step_of_result O (by rw [hp]; rfl)]
          exact hex
        case raise =>
          rw [machine, Pool.step_of_result O (by rw [hp]; rfl)]
          exact hex
    refine forall_transitions hstep (fun P j h _ _ => ?_) (.inl hprog)
      fun τ hτ => List.eq_of_mem_replicate (input_mem hτ)
    rcases h with hp | hex
    · intro huses
      rw [hp, Prog.usesState, hreset] at huses
      cases huses
    · exact fun _ => hex
  | cons j before ih =>
    have hne : j ≠ i := fun h => hbefore (h ▸ List.mem_cons_self)
    intro τ hτ
    rw [List.cons_append, transitions_cons] at hτ
    obtain rfl | hτ := List.mem_cons.1 hτ
    · exact fun h => absurd h hne
    · exact @ih (P.step O j) ((Pool.step_progs_of_ne O P hne).trans hprog)
        (fun h => hbefore (List.mem_cons_of_mem _ h)) τ hτ

/-! ### Progress -/

/-- The program finishes within `n` calls. -/
inductive Prog.Within : ℕ → Prog C α → Prop where
  | ret {n : ℕ} (a : α) : Within n (.ret a)
  | raise {n : ℕ} : Within n .raise
  | call {n : ℕ} {β : Type} (c : C β) {k : β → Prog C α} (h : ∀ b, Within n (k b)) :
      Within (n + 1) (.call c k)

theorem Prog.Within.mono {n n' : ℕ} {p : Prog C α} (h : Within n p) (hn : n ≤ n') :
    Within n' p := by
  induction h generalizing n' with
  | ret a => exact .ret a
  | raise => exact .raise
  | call c h ih =>
    cases n' with
    | zero => cases hn
    | succ n' => exact .call c fun b => ih b (Nat.le_of_succ_le_succ hn)

theorem Prog.Within.bind {n n' : ℕ} {p : Prog C γ} {f : γ → Prog C α} (h : Within n p)
    (hf : ∀ a, Within n' (f a)) : Within (n + n') (p >>= f) := by
  induction h with
  | ret a => exact (hf a).mono (Nat.le_add_left _ _)
  | raise => exact .raise
  | call c h ih =>
    rw [Nat.add_right_comm]
    exact .call c ih

theorem Prog.perform_within {β : Type} (c : C β) : (Prog.perform c).Within 1 :=
  .call c fun b => .ret b

theorem Prog.Within.step (O : Object σ C) {n : ℕ} {p : Prog C α} (h : Within (n + 1) p) (s : σ) :
    Within n (p.step O s).1 := by
  cases h with
  | ret a => exact .ret a
  | raise => exact .raise
  | @call _ _ c k h =>
    simp only [Prog.step]
    cases (O.exec c s).1 with
    | none => exact .raise
    | some b => exact h b

theorem Prog.Within.result {p : Prog C α} (h : Within 0 p) : ∃ r, p.result = some r := by
  cases h with
  | ret a => exact ⟨_, rfl⟩
  | raise => exact ⟨_, rfl⟩

theorem exists_result {P : Pool ι σ C α} {schedule : List ι} {i : ι} {n : ℕ}
    (hn : (P.progs i).Within n) (hturns : n ≤ schedule.count i) :
    ∃ r, ((finalState (machine O) P schedule).progs i).result = some r := by
  induction schedule generalizing P n with
  | nil =>
    obtain rfl := Nat.le_zero.1 hturns
    exact hn.result
  | cons j schedule ih =>
    by_cases hij : j = i
    · subst hij
      rw [List.count_cons_self] at hturns
      refine @ih (P.step O j) (n - 1) ?_ (Nat.sub_le_of_le_add hturns)
      rw [Pool.step_progs_self]
      exact (hn.mono (by omega)).step O _
    · rw [List.count_cons_of_ne hij] at hturns
      refine @ih (P.step O j) n ?_ hturns
      rw [Pool.step_progs_of_ne O P hij]
      exact hn

/-! ### The calls of a run -/

/-- A call that was made: in which state, and what it returned. -/
structure Made (σ : Type) (C : Type → Type) where
  {β : Type}
  call : C β
  pre : σ
  /-- `none` for a panic. -/
  value : Option β

namespace Prog

/-- The calls that a program makes when it has the object for itself. -/
def calls (O : Object σ C) : Prog C α → σ → List (Made σ C)
  | .ret _, _ => []
  | .raise, _ => []
  | .call c k, s => ⟨c, s, (O.exec c s).1⟩ ::
    match O.exec c s with
    | (none, _) => []
    | (some b, s') => (k b).calls O s'

variable (O : Object σ C) {s s' : σ}

theorem calls_of_some {β : Type} {c : C β} {b : β} (h : O.exec c s = (some b, s'))
    (k : β → Prog C α) :
    (Prog.call c k).calls O s = ⟨c, s, some b⟩ :: (k b).calls O s' := by
  simp only [calls, h]

theorem calls_of_none {β : Type} {c : C β} (h : O.exec c s = (none, s')) (k : β → Prog C α) :
    (Prog.call c k).calls O s = [⟨c, s, none⟩] := by
  simp only [calls, h]

theorem forall_calls_call {β : Type} {c : C β} {k : β → Prog C α} {P : Made σ C → Prop} :
    (∀ e ∈ (Prog.call c k).calls O s, P e) ↔ P ⟨c, s, (O.exec c s).1⟩ ∧
      ∀ b s', O.exec c s = (some b, s') → ∀ e ∈ (k b).calls O s', P e := by
  rcases h : O.exec c s with ⟨_ | b, s'⟩
  · rw [calls_of_none O h, List.forall_mem_singleton]
    exact ⟨fun hP => ⟨hP, fun _ _ h => nomatch h⟩, fun hP => hP.1⟩
  · rw [calls_of_some O h, List.forall_mem_cons]
    refine and_congr_right fun _ => ⟨fun hP b' s'' heq => ?_, fun hP => hP b s' rfl⟩
    cases heq
    exact hP

theorem run_perform_bind {β : Type} {c : C β} {b : β} (h : O.exec c s = (some b, s'))
    (f : β → Prog C α) : (perform c >>= f).run O s = (f b).run O s' :=
  bind_some h

theorem calls_perform_bind {β : Type} {c : C β} {b : β} (h : O.exec c s = (some b, s'))
    (f : β → Prog C α) :
    (perform c >>= f).calls O s = ⟨c, s, some b⟩ :: (f b).calls O s' :=
  calls_of_some O h f

theorem forall_calls_perform_bind {β : Type} {c : C β} {b : β} (h : O.exec c s = (some b, s'))
    {f : β → Prog C α} {P : Made σ C → Prop} :
    (∀ e ∈ (perform c >>= f).calls O s, P e) ↔
      P ⟨c, s, some b⟩ ∧ ∀ e ∈ (f b).calls O s', P e := by
  rw [calls_perform_bind O h, List.forall_mem_cons]

theorem run_bind_pure (p : Prog C γ) (g : γ → α) :
    (p >>= fun a => pure (g a)).run O s = (((p.run O s).1.map g), (p.run O s).2) := by
  induction p generalizing s with
  | ret a => rfl
  | raise => rfl
  | call c k ih =>
    change Prog.run O (.call c fun b => k b >>= fun a => pure (g a)) s = _
    rcases h : O.exec c s with ⟨_ | b, s'⟩
    · rw [run, run, bind_none h, bind_none h]
      rfl
    · rw [run, run, bind_some h, bind_some h]
      exact ih b

theorem calls_bind_pure (p : Prog C γ) (g : γ → α) :
    (p >>= fun a => pure (g a)).calls O s = p.calls O s := by
  induction p generalizing s with
  | ret a => rfl
  | raise => rfl
  | call c k ih =>
    change Prog.calls O (.call c fun b => k b >>= fun a => pure (g a)) s = _
    rcases h : O.exec c s with ⟨_ | b, s'⟩
    · rw [calls_of_none O h, calls_of_none O h]
    · rw [calls_of_some O h, calls_of_some O h]
      exact congrArg _ (ih b)

/-- **The invariant of a run**, when every call meets a condition. -/
theorem run_inv {Inv : σ → Prop} {Ok P : Made σ C → Prop}
    (hcall : ∀ {β : Type} (c : C β) (s : σ), Inv s → Ok ⟨c, s, (O.exec c s).1⟩ →
      Inv (O.exec c s).2 ∧ P ⟨c, s, (O.exec c s).1⟩) (p : Prog C α) (hs : Inv s)
    (hok : ∀ e ∈ p.calls O s, Ok e) : Inv (p.run O s).2 ∧ ∀ e ∈ p.calls O s, P e := by
  induction p generalizing s with
  | ret a => exact ⟨hs, fun e he => nomatch he⟩
  | raise => exact ⟨hs, fun e he => nomatch he⟩
  | call c k ih =>
    rw [forall_calls_call] at hok ⊢
    obtain ⟨hinv, hP⟩ := hcall c s hs hok.1
    rcases h : O.exec c s with ⟨_ | b, s'⟩
    · rw [h] at hinv hP
      exact ⟨by rw [run, bind_none h]; exact hinv, hP, fun _ _ h => nomatch h⟩
    · rw [h] at hinv hP
      obtain ⟨hinv', hP'⟩ := ih b hinv (hok.2 b s' h)
      refine ⟨by rw [run, bind_some h]; exact hinv', hP, fun b' s'' heq => ?_⟩
      cases heq
      exact hP'

/-- If every call answers as `Good` says, the program returns a value with `Q`. -/
def Yields (Good : ∀ {β : Type}, C β → β → Prop) (Q : α → Prop) : Prog C α → Prop
  | .ret a => Q a
  | .raise => True
  | .call c k => ∀ b, Good c b → (k b).Yields Good Q

variable {O}

/-- **What a program returns** when its calls answer well. -/
theorem Yields.run {Good : ∀ {β : Type}, C β → β → Prop} {Q : α → Prop} {p : Prog C α}
    (h : p.Yields Good Q) (hgood : ∀ e ∈ p.calls O s, ∀ b, e.value = some b → Good e.call b) {a : α}
    (ha : (p.run O s).1 = some a) : Q a := by
  induction p generalizing s with
  | ret a' =>
    cases ha
    exact h
  | raise => cases ha
  | call c k ih =>
    obtain ⟨hhead, htail⟩ := (forall_calls_call O).1 hgood
    rcases hc : O.exec c s with ⟨_ | b, s'⟩
    · rw [Prog.run, bind_none hc] at ha
      cases ha
    · rw [Prog.run, bind_some hc] at ha
      exact ih b (h b (hhead b (congrArg Prod.fst hc))) (htail b s' hc) ha

theorem Yields.perform_bind {Good : ∀ {β : Type}, C β → β → Prop} {Q : α → Prop} {β : Type}
    {c : C β} {f : β → Prog C α} (h : ∀ b, Good c b → (f b).Yields Good Q) :
    (perform c >>= f).Yields Good Q := h

theorem Yields.bind {Good : ∀ {β : Type}, C β → β → Prop} {P : γ → Prop} {Q : α → Prop}
    {p : Prog C γ} {f : γ → Prog C α} (h : p.Yields Good P) (hf : ∀ a, P a → (f a).Yields Good Q) :
    (p >>= f).Yields Good Q := by
  induction p with
  | ret a => exact hf a h
  | raise => trivial
  | call c k ih => exact fun b hb => ih b (h b hb)

/-- The program makes only calls with `Ok`, does not raise by itself, and returns a value with `Q`
if every call answers as `Good` says. -/
def Ensures (Ok : ∀ {β : Type}, C β → Prop) (Good : ∀ {β : Type}, C β → β → Prop) (Q : α → Prop) :
    Prog C α → Prop
  | .ret a => Q a
  | .raise => False
  | .call c k => Ok c ∧ ∀ b, Good c b → (k b).Ensures Ok Good Q

/-- **A program that always returns**: when the calls with `Ok` answer well and keep an invariant,
so does the program. -/
theorem Ensures.run {Inv : σ → Prop} {Ok : ∀ {β : Type}, C β → Prop}
    {Good : ∀ {β : Type}, C β → β → Prop} {Q : α → Prop}
    (hcall : ∀ {β : Type} (c : C β) (s : σ), Inv s → Ok c →
      ∃ b s', O.exec c s = (some b, s') ∧ Good c b ∧ Inv s') {p : Prog C α}
    (h : p.Ensures Ok Good Q) (hs : Inv s) :
    ∃ a s', p.run O s = (some a, s') ∧ Q a ∧ Inv s' := by
  induction p generalizing s with
  | ret a => exact ⟨a, s, rfl, h, hs⟩
  | raise => exact h.elim
  | call c k ih =>
    obtain ⟨b, s', hexec, hgood, hinv⟩ := hcall c s hs h.1
    obtain ⟨a, s'', hrun, hQ, hinv'⟩ := ih b (h.2 b hgood) hinv
    exact ⟨a, s'', (bind_some hexec).trans hrun, hQ, hinv'⟩

theorem Ensures.perform_bind {Ok : ∀ {β : Type}, C β → Prop} {Good : ∀ {β : Type}, C β → β → Prop}
    {Q : α → Prop} {β : Type} {c : C β} {f : β → Prog C α} (hok : Ok c)
    (h : ∀ b, Good c b → (f b).Ensures Ok Good Q) : (perform c >>= f).Ensures Ok Good Q := ⟨hok, h⟩

theorem Ensures.bind {Ok : ∀ {β : Type}, C β → Prop} {Good : ∀ {β : Type}, C β → β → Prop}
    {P : γ → Prop} {Q : α → Prop} {p : Prog C γ} {f : γ → Prog C α} (h : p.Ensures Ok Good P)
    (hf : ∀ a, P a → (f a).Ensures Ok Good Q) : (p >>= f).Ensures Ok Good Q := by
  induction p with
  | ret a => exact hf a h
  | raise => exact h.elim
  | call c k ih => exact ⟨h.1, fun b hb => ih b (h.2 b hb)⟩

end Prog

end Sessions

end VllmVulkan
