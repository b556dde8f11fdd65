import Mathlib.Data.List.Basic
import Mathlib.Tactic.Common

/-!
# Runs of a deterministic machine

A machine is a step function `S → I → S × O`: a state and an input give a state and an output.  Its
run on a list of inputs is the list of its transitions.

* `Transition` : one step that was taken: the states before and after it, its input and output;
* `transitions`, `finalState` : the run from a state;
* `forall_transitions` : **the invariant rule**: an invariant preserved by every step that meets a
  condition holds throughout every run whose steps meet it, and so does every property of a step
  that follows from the two;
* `finalState_inv` : the same at the end of the run;
* `forall_past` : **the history rule**: an invariant that relates the state to the steps taken so
  far, and what it says about the next one;
* `finalState_iff` : **the exactness rule**: a property of states that a step keeps exactly when it
  meets a condition holds at the end of a run exactly when every step met it;
* `forall₂_transitions` : **the simulation rule**: two machines whose states stay related by steps
  that meet a condition make related steps throughout their runs on the same inputs.
-/

namespace VllmVulkan

namespace Machine

variable {S I O : Type*}

/-- A step that was taken. -/
structure Transition (S I O : Type*) where
  /-- The state before the step. -/
  pre : S
  /-- The input. -/
  input : I
  /-- The state after the step. -/
  post : S
  /-- The output. -/
  output : O

variable (step : S → I → S × O)

/-- The transitions of the run from `s` on the inputs `is`. -/
def transitions : S → List I → List (Transition S I O)
  | _, [] => []
  | s, i :: is => ⟨s, i, (step s i).1, (step s i).2⟩ :: transitions (step s i).1 is

/-- The state at the end of a run. -/
def finalState : S → List I → S
  | s, [] => s
  | s, i :: is => finalState (step s i).1 is

@[simp] theorem transitions_nil (s : S) : transitions step s [] = [] := rfl

@[simp] theorem transitions_cons (s : S) (i : I) (is : List I) : transitions step s (i :: is) =
    ⟨s, i, (step s i).1, (step s i).2⟩ :: transitions step (step s i).1 is := rfl

variable {step}

theorem input_mem {s : S} {is : List I} {τ : Transition S I O} (h : τ ∈ transitions step s is) :
    τ.input ∈ is := by
  induction is generalizing s with
  | nil => cases h
  | cons i is ih =>
    obtain rfl | h := List.mem_cons.1 h
    · exact List.mem_cons_self
    · exact List.mem_cons_of_mem _ (ih h)

theorem step_eq {s : S} {is : List I} {τ : Transition S I O} (h : τ ∈ transitions step s is) :
    step τ.pre τ.input = (τ.post, τ.output) := by
  induction is generalizing s with
  | nil => cases h
  | cons i is ih =>
    obtain rfl | h := List.mem_cons.1 h
    · rfl
    · exact ih h

/-- **The invariant rule.** -/
theorem forall_transitions {Inv : S → Prop} {Ok : S → I → Prop} {P : Transition S I O → Prop}
    (hstep : ∀ s i, Inv s → Ok s i → Inv (step s i).1)
    (hP : ∀ s i, Inv s → Ok s i → P ⟨s, i, (step s i).1, (step s i).2⟩) {s : S} {is : List I}
    (h₀ : Inv s) (hok : ∀ τ ∈ transitions step s is, Ok τ.pre τ.input) :
    ∀ τ ∈ transitions step s is, P τ := by
  induction is generalizing s with
  | nil => simp
  | cons i is ih =>
    rw [transitions_cons] at hok ⊢
    have hi : Ok s i := hok _ (List.mem_cons_self)
    intro τ hτ
    obtain rfl | hτ := List.mem_cons.1 hτ
    · exact hP s i h₀ hi
    · exact ih (hstep s i h₀ hi) (fun σ hσ => hok σ (List.mem_cons_of_mem _ hσ)) τ hτ

theorem finalState_inv {Inv : S → Prop} {Ok : S → I → Prop}
    (hstep : ∀ s i, Inv s → Ok s i → Inv (step s i).1) {s : S} {is : List I} (h₀ : Inv s)
    (hok : ∀ τ ∈ transitions step s is, Ok τ.pre τ.input) : Inv (finalState step s is) := by
  induction is generalizing s with
  | nil => exact h₀
  | cons i is ih =>
    rw [transitions_cons] at hok
    exact ih (hstep s i h₀ (hok _ List.mem_cons_self))
      fun τ hτ => hok τ (List.mem_cons_of_mem _ hτ)

/-- **The history rule.** -/
theorem forall_past {Inv : List (Transition S I O) → S → Prop}
    {P : List (Transition S I O) → Transition S I O → Prop}
    (hstep : ∀ past s i, Inv past s →
      Inv (past ++ [⟨s, i, (step s i).1, (step s i).2⟩]) (step s i).1)
    (hP : ∀ past s i, Inv past s → P past ⟨s, i, (step s i).1, (step s i).2⟩) {s : S} {is : List I}
    (h₀ : Inv [] s) :
    ∀ past τ post, transitions step s is = past ++ τ :: post → P past τ := by
  suffices h : ∀ taken, Inv taken s → ∀ past τ post,
      transitions step s is = past ++ τ :: post → P (taken ++ past) τ from h [] h₀
  clear h₀
  induction is generalizing s with
  | nil =>
    intro taken _ past τ post heq
    cases past <;> cases heq
  | cons i is ih =>
    intro taken hinv past τ post heq
    rw [transitions_cons] at heq
    cases past with
    | nil =>
      obtain ⟨rfl, -⟩ := List.cons.inj heq
      rw [List.append_nil]
      exact hP taken s i hinv
    | cons σ past =>
      obtain ⟨rfl, hrest⟩ := List.cons.inj heq
      have h := ih _ (hstep taken s i hinv) past τ post hrest
      rwa [List.append_assoc] at h

/-- What holds at the start and after every step of a run holds at its end. -/
theorem forall_finalState {P : S → Prop} {s : S} {is : List I} (h₀ : P s)
    (h : ∀ τ ∈ transitions step s is, P τ.post) : P (finalState step s is) := by
  induction is generalizing s with
  | nil => exact h₀
  | cons i is ih =>
    rw [transitions_cons, List.forall_mem_cons] at h
    exact ih h.1 h.2

/-- **The exactness rule.** -/
theorem finalState_iff {Inv P : S → Prop} {Ok : S → I → Prop}
    (hstep : ∀ s i, Inv s → Inv (step s i).1)
    (hP : ∀ s i, Inv s → (P (step s i).1 ↔ P s ∧ Ok s i)) {s : S} {is : List I} (h₀ : Inv s) :
    P (finalState step s is) ↔ P s ∧ ∀ τ ∈ transitions step s is, Ok τ.pre τ.input := by
  induction is generalizing s with
  | nil => simp [finalState]
  | cons i is ih =>
    rw [finalState, ih (hstep s i h₀), hP s i h₀, transitions_cons, List.forall_mem_cons, and_assoc]

/-- **The simulation rule.** -/
theorem forall₂_transitions {S' O' : Type*} {step' : S' → I → S' × O'} {R : S → S' → Prop}
    {Ok : S' → I → Prop} {Q : Transition S I O → Transition S' I O' → Prop}
    (hstep : ∀ s s' i, R s s' → Ok s' i → R (step s i).1 (step' s' i).1)
    (hQ : ∀ s s' i, R s s' → Ok s' i →
      Q ⟨s, i, (step s i).1, (step s i).2⟩ ⟨s', i, (step' s' i).1, (step' s' i).2⟩)
    {s : S} {s' : S'} {is : List I} (h₀ : R s s')
    (hok : ∀ τ ∈ transitions step' s' is, Ok τ.pre τ.input) :
    List.Forall₂ Q (transitions step s is) (transitions step' s' is) := by
  induction is generalizing s s' with
  | nil => exact .nil
  | cons i is ih =>
    rw [transitions_cons] at hok
    have hi : Ok s' i := hok _ (List.mem_cons_self)
    rw [transitions_cons, transitions_cons]
    exact .cons (hQ s s' i h₀ hi) (ih (hstep s s' i h₀ hi)
      fun τ hτ => hok τ (List.mem_cons_of_mem _ hτ))

end Machine

end VllmVulkan
