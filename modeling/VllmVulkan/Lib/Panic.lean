import Mathlib.Tactic.Common

/-!
# Computations that may panic

A computation over a state `σ` returns a value or panics, and in both cases leaves a state: a panic
does not undo what was done before it.  Two computations over different states are compared by a
relation on their states.

* `Panics` : the computations, with `panic`, `lift`, `get` and `set`;
* `Returns` : from every state with a property, a given value is returned in a state with another;
* `Refines` : the same outcome, in related states, with a property of the value returned;
* `Returns.bind`, `Refines.bind` : **the composition rules**;
* `Refines.of_bind`, `Refines.zoom` : a computation that returns, before one that refines; one on a
  part of the state;
* `Follows` : what the first computation returns the second returns too, in related states;
* `Keeps` : a property of the state that holds on, also through a panic;
* `Ends` : what holds when a computation returns, and what holds when it panics;
* `Ends.bind`, `Ends.foldlM` : **its composition rules**.
-/

namespace VllmVulkan

/-- The computations over `σ` that return an `α`, or panic, and leave a state. -/
def Panics (σ α : Type) := σ → Option α × σ

namespace Panics

variable {σ τ α β : Type}

instance : Monad (Panics σ) where
  pure a s := (some a, s)
  bind x f s := match x s with
    | (some a, s') => f a s'
    | (none, s') => (none, s')

/-- A panic. -/
def panic : Panics σ α := fun s => (none, s)

/-- A computation that does not touch the state; `none` is a panic. -/
def lift (x : Option α) : Panics σ α := fun s => (x, s)

/-- The state. -/
def get : Panics σ σ := fun s => (some s, s)

/-- The state becomes `s`. -/
def set (s : σ) : Panics σ Unit := fun _ => (some (), s)

/-- A computation on a part of the state. -/
def zoom (read : σ → τ) (write : σ → τ → σ) (x : Panics τ α) : Panics σ α :=
  fun s => ((x (read s)).1, write s (x (read s)).2)

theorem pure_apply (a : α) (s : σ) : (pure a : Panics σ α) s = (some a, s) := rfl

theorem bind_some {x : Panics σ α} {f : α → Panics σ β} {s s' : σ} {a : α}
    (h : x s = (some a, s')) : (x >>= f) s = f a s' := by
  change (match x s with | (some a, s') => f a s' | (none, s') => (none, s')) = _
  rw [h]

theorem bind_none {x : Panics σ α} {f : α → Panics σ β} {s s' : σ} (h : x s = (none, s')) :
    (x >>= f) s = (none, s') := by
  change (match x s with | (some a, s') => f a s' | (none, s') => (none, s')) = _
  rw [h]

theorem bind_assoc {γ : Type} (x : Panics σ α) (f : α → Panics σ β) (g : β → Panics σ γ) :
    x >>= f >>= g = x >>= fun a => f a >>= g := by
  funext s
  rcases h : x s with ⟨o, s'⟩
  cases o with
  | none => rw [bind_none h, bind_none (bind_none h)]
  | some a =>
    rw [bind_some h]
    rcases h' : f a s' with ⟨o', s''⟩
    cases o' with
    | none => rw [bind_none h', bind_none ((bind_some h).trans h')]
    | some b => rw [bind_some h', bind_some ((bind_some h).trans h')]

theorem id_map (x : Panics σ α) : id <$> x = x := by
  funext s
  rcases h : x s with ⟨o, s'⟩
  cases o with
  | none => exact bind_none h
  | some a => exact bind_some h

instance : LawfulMonad (Panics σ) := LawfulMonad.mk' _ id_map (fun _ _ => rfl) bind_assoc

@[simp] theorem lift_some (a : α) : (lift (some a) : Panics σ α) = pure a := rfl

@[simp] theorem lift_none : (lift none : Panics σ α) = panic := rfl

theorem bind_eq_some {x : Panics σ α} {f : α → Panics σ β} {s s'' : σ} {b : β} :
    (x >>= f) s = (some b, s'') ↔ ∃ a s', x s = (some a, s') ∧ f a s' = (some b, s'') := by
  rcases h : x s with ⟨_ | a, s'⟩
  · rw [bind_none h]
    simp
  · rw [bind_some h]
    simp

theorem lift_eq_some {o : Option α} {s s' : σ} {a : α} :
    (lift o : Panics σ α) s = (some a, s') ↔ o = some a ∧ s = s' := Prod.mk.injEq _ _ _ _ |>.to_iff

theorem pure_eq_some {a b : α} {s s' : σ} :
    (pure a : Panics σ α) s = (some b, s') ↔ a = b ∧ s = s' := by
  rw [pure_apply, Prod.mk.injEq, Option.some.injEq]

theorem map_eq_some {x : Panics σ α} {f : α → β} {s s' : σ} {b : β} :
    (f <$> x) s = (some b, s') ↔ ∃ a, x s = (some a, s') ∧ f a = b := by
  rw [map_eq_pure_bind, bind_eq_some]
  constructor
  · rintro ⟨a, _, hx, hpure⟩
    obtain ⟨rfl, rfl⟩ := pure_eq_some.1 hpure
    exact ⟨a, hx, rfl⟩
  · rintro ⟨a, hx, rfl⟩
    exact ⟨a, s', hx, rfl⟩

theorem zoom_eq_some {read : σ → τ} {write : σ → τ → σ} {x : Panics τ α} {s s' : σ} {a : α} :
    zoom read write x s = (some a, s') ↔ ∃ t, x (read s) = (some a, t) ∧ s' = write s t := by
  unfold zoom
  rcases x (read s) with ⟨o, t⟩
  simp only [Prod.mk.injEq]
  constructor
  · rintro ⟨rfl, rfl⟩
    exact ⟨t, ⟨rfl, rfl⟩, rfl⟩
  · rintro ⟨t', ⟨rfl, rfl⟩, rfl⟩
    exact ⟨rfl, rfl⟩

theorem lift_bind (o : Option α) (f : α → Option β) :
    (lift (o >>= f) : Panics σ β) = lift o >>= fun a => lift (f a) := by
  cases o <;> rfl

end Panics

open Panics

variable {σ τ α β : Type}

/-! ### Returning a value -/

/-- From every state with `P`, the computation returns `a` and leaves a state with `Q`. -/
def Returns (P : σ → Prop) (x : Panics σ α) (a : α) (Q : σ → Prop) : Prop :=
  ∀ s, P s → ∃ s', x s = (some a, s') ∧ Q s'

namespace Returns

variable {P P' Q Q' : σ → Prop} {x : Panics σ α} {a : α}

protected theorem pure : Returns P (pure a : Panics σ α) a P := fun s hP => ⟨s, rfl, hP⟩

protected theorem lift {o : Option α} (h : o = some a) : Returns P (lift o : Panics σ α) a P := by
  subst h
  exact .pure

theorem mono (h : Returns P x a Q) (hP : ∀ s, P' s → P s) (hQ : ∀ s, Q s → Q' s) :
    Returns P' x a Q' := by
  intro s hs
  obtain ⟨s', hx, hs'⟩ := h s (hP s hs)
  exact ⟨s', hx, hQ s' hs'⟩

protected theorem bind {R : σ → Prop} {f : α → Panics σ β} {b : β} (h : Returns P x a Q)
    (hf : Returns Q (f a) b R) : Returns P (x >>= f) b R := by
  intro s hs
  obtain ⟨s', hx, hs'⟩ := h s hs
  obtain ⟨s'', hfx, hs''⟩ := hf s' hs'
  exact ⟨s'', (bind_some hx).trans hfx, hs''⟩

theorem bind_bind {γ : Type} {R : σ → Prop} {y : α → Panics σ β} {f : β → Panics σ γ} {b : β}
    {c : γ} (h : Returns P (x >>= y) b Q) (hf : Returns Q (f b) c R) :
    Returns P (x >>= fun a => y a >>= f) c R := by
  rw [← Panics.bind_assoc]
  exact h.bind hf

end Returns

/-! ### Refinement -/

/-- From states related by `R` the two computations have the same outcome and leave related states,
and a value they return has the property `P`. -/
def Refines (R : σ → τ → Prop) (P : α → Prop) (x : Panics σ α) (y : Panics τ α) : Prop :=
  ∀ s t, R s t → (x s).1 = (y t).1 ∧ R (x s).2 (y t).2 ∧ ∀ a, (x s).1 = some a → P a

namespace Refines

variable {R : σ → τ → Prop} {P Q : α → Prop} {x : Panics σ α} {y : Panics τ α}

protected theorem pure {a : α} (h : P a) :
    Refines R P (pure a : Panics σ α) (pure a : Panics τ α) := by
  intro s t hR
  exact ⟨rfl, hR, fun b hb => Option.some.inj hb ▸ h⟩

protected theorem lift {o : Option α} (h : ∀ a, o = some a → P a) :
    Refines R P (lift o : Panics σ α) (lift o : Panics τ α) :=
  fun _ _ hR => ⟨rfl, hR, h⟩

protected theorem panic : Refines R P (panic : Panics σ α) (panic : Panics τ α) :=
  fun _ _ hR => ⟨rfl, hR, fun _ h => nomatch h⟩

/-- **The composition rule.** -/
protected theorem bind {Q : β → Prop} {f : α → Panics σ β} {g : α → Panics τ β}
    (h : Refines R P x y) (hfg : ∀ a, P a → Refines R Q (f a) (g a)) :
    Refines R Q (x >>= f) (y >>= g) := by
  intro s t hR
  obtain ⟨heq, hR', hP⟩ := h s t hR
  rcases hx : x s with ⟨o, s'⟩
  rcases hy : y t with ⟨o', t'⟩
  rw [hx, hy] at heq hR'
  rw [hx] at hP
  obtain rfl : o = o' := heq
  cases o with
  | none =>
    rw [bind_none hx, bind_none hy]
    exact ⟨rfl, hR', fun _ h => nomatch h⟩
  | some a =>
    rw [bind_some hx, bind_some hy]
    exact hfg a (hP a rfl) s' t' hR'

theorem foldlM {ι : Type} {f : α → ι → Panics σ α} {g : α → ι → Panics τ α} {is : List ι} {a : α}
    (h : ∀ a, ∀ i ∈ is, P a → Refines R P (f a i) (g a i)) (ha : P a) :
    Refines R P (is.foldlM f a) (is.foldlM g a) := by
  induction is generalizing a with
  | nil => exact .pure ha
  | cons i is ih =>
    rw [List.foldlM_cons, List.foldlM_cons]
    exact (h a i List.mem_cons_self ha).bind fun b hb =>
      ih (fun c j hj => h c j (List.mem_cons_of_mem _ hj)) hb

/-- A computation that returns, before one that refines; what it returns may depend on the state,
and decides which relation holds between the two. -/
theorem of_bind {G : α → σ → τ → Prop} {Q : β → Prop} {f : α → Panics σ β} {z : Panics τ β}
    (h : ∀ s t, R s t → ∃ a s', x s = (some a, s') ∧ P a ∧ G a s' t)
    (hR : ∀ a s t, G a s t → R s t) (hf : ∀ a, P a → Refines (G a) Q (f a) z) :
    Refines R Q (x >>= f) z := by
  intro s t hs
  obtain ⟨a, s', hx, ha, hs'⟩ := h s t hs
  obtain ⟨h₁, h₂, h₃⟩ := hf a ha s' t hs'
  rw [bind_some hx]
  exact ⟨h₁, hR _ _ _ h₂, h₃⟩

theorem of_returns_bind {Q : β → Prop} {f : α → Panics σ β} {z : Panics τ β} {a : α}
    (h : ∀ t, Returns (fun s => R s t) x a fun s => R s t) (hf : Refines R Q (f a) z) :
    Refines R Q (x >>= f) z := by
  refine @of_bind _ _ _ _ R (· = a) x (fun _ => R) Q f z (fun s t hs => ?_) (fun _ _ _ h => h) ?_
  · obtain ⟨s', hx, hs'⟩ := h t s hs
    exact ⟨a, s', hx, rfl, hs'⟩
  · rintro _ rfl
    exact hf

theorem of_returns {a : α} (h : ∀ t, Returns (fun s => R s t) x a fun s => R s t) (hP : P a) :
    Refines R P x (pure a : Panics τ α) := by
  intro s t hs
  obtain ⟨s', hx, hs'⟩ := h t s hs
  rw [hx]
  exact ⟨rfl, hs', fun b hb => Option.some.inj hb ▸ hP⟩

protected theorem zoom {read : σ → τ} {write : σ → τ → σ} {x : Panics τ α}
    (hread : ∀ s t, R s t → read s = t) (hwrite : ∀ s t t', R s t → R (write s t') t')
    (h : ∀ t a, (x t).1 = some a → P a) : Refines R P (zoom read write x) x := by
  intro s t hs
  obtain rfl := hread s t hs
  exact ⟨rfl, hwrite s _ _ hs, h _⟩

theorem panic_bind {f : α → Panics σ β} {Q : β → Prop}
    (h : Refines R (fun _ => False) x (panic : Panics τ α)) :
    Refines R Q (x >>= f) (panic : Panics τ β) := by
  change Refines R Q (x >>= f) (panic >>= fun _ : α => panic)
  exact h.bind fun _ h => h.elim

/-- Two computations that refine the same one refine each other, if what that one does depends on
its state only up to `S`. -/
theorem span {ρ : Type} {S : τ → τ → Prop} {R' : ρ → τ → Prop} {P' : α → Prop} {x' : Panics ρ α}
    (hx : Refines R P x y) (hy : Refines S Q y y) (hx' : Refines R' P' x' y) :
    Refines (fun s r => ∃ t t', R s t ∧ S t t' ∧ R' r t') P x x' := by
  rintro s r ⟨t, t', hR, hS, hR'⟩
  obtain ⟨h₁, h₂, h₃⟩ := hx s t hR
  obtain ⟨h₄, h₅, -⟩ := hy t t' hS
  obtain ⟨h₆, h₇, -⟩ := hx' r t' hR'
  exact ⟨h₁.trans (h₄.trans h₆.symm), ⟨_, _, h₂, h₅, h₇⟩, h₃⟩

end Refines

/-! ### Following -/

/-- From states related by `R`, what the first computation returns the second returns too; it leaves
a related state, and the value has the property `P`. -/
def Follows (R : σ → τ → Prop) (P : α → Prop) (x : Panics σ α) (y : Panics τ α) : Prop :=
  ∀ s t a s', R s t → x s = (some a, s') → ∃ t', y t = (some a, t') ∧ R s' t' ∧ P a

namespace Follows

variable {R : σ → τ → Prop} {P : α → Prop} {x : Panics σ α} {y : Panics τ α}

theorem of_refines (h : Refines R P x y) : Follows R P x y := by
  intro s t a s' hR hx
  obtain ⟨heq, hR', hP⟩ := h s t hR
  rw [hx] at heq hR' hP
  exact ⟨(y t).2, Prod.ext heq.symm rfl, hR', hP a rfl⟩

protected theorem pure {a : α} (h : P a) :
    Follows R P (pure a : Panics σ α) (pure a : Panics τ α) :=
  of_refines (.pure h)

protected theorem lift {o : Option α} (h : ∀ a, o = some a → P a) :
    Follows R P (lift o : Panics σ α) (lift o : Panics τ α) :=
  of_refines (.lift h)

theorem mono {Q : α → Prop} (h : Follows R P x y) (hPQ : ∀ a, P a → Q a) : Follows R Q x y := by
  intro s t a s' hR hx
  obtain ⟨t', hy, hR', hP⟩ := h s t a s' hR hx
  exact ⟨t', hy, hR', hPQ a hP⟩

protected theorem bind {Q : β → Prop} {f : α → Panics σ β} {g : α → Panics τ β}
    (h : Follows R P x y) (hfg : ∀ a, P a → Follows R Q (f a) (g a)) :
    Follows R Q (x >>= f) (y >>= g) := by
  intro s t b s'' hR hx
  obtain ⟨a, s', hx, hf⟩ := bind_eq_some.1 hx
  obtain ⟨t', hy, hR', hP⟩ := h s t a s' hR hx
  obtain ⟨t'', hg, hR'', hQ⟩ := hfg a hP s' t' b s'' hR' hf
  exact ⟨t'', bind_eq_some.2 ⟨a, t', hy, hg⟩, hR'', hQ⟩

theorem foldlM {ι : Type} {f : α → ι → Panics σ α} {g : α → ι → Panics τ α} {is : List ι} {a : α}
    (h : ∀ a, ∀ i ∈ is, P a → Follows R P (f a i) (g a i)) (ha : P a) :
    Follows R P (is.foldlM f a) (is.foldlM g a) := by
  induction is generalizing a with
  | nil => exact .pure ha
  | cons i is ih =>
    rw [List.foldlM_cons, List.foldlM_cons]
    exact (h a i List.mem_cons_self ha).bind fun b hb =>
      ih (fun c j hj => h c j (List.mem_cons_of_mem _ hj)) hb

/-- A computation that returns, before one that follows; what it returns decides which relation
holds between the states. -/
theorem of_bind {G : α → σ → τ → Prop} {Q : β → Prop} {f : α → Panics σ β} {z : Panics τ β}
    (h : ∀ s t, R s t → ∃ a s', x s = (some a, s') ∧ P a ∧ G a s' t)
    (hR : ∀ a s t, G a s t → R s t) (hf : ∀ a, P a → Follows (G a) Q (f a) z) :
    Follows R Q (x >>= f) z := by
  intro s t b s'' hs hxf
  obtain ⟨a, s', hx, ha, hs'⟩ := h s t hs
  rw [bind_some hx] at hxf
  obtain ⟨t', hz, hG, hQ⟩ := hf a ha s' t b s'' hs' hxf
  exact ⟨t', hz, hR _ _ _ hG, hQ⟩

end Follows

/-! ### Properties of the state that hold on -/

/-- A property that holds on, whether the computation returns or panics. -/
def Keeps (A : σ → Prop) (x : Panics σ α) : Prop := ∀ s, A s → A (x s).2

namespace Keeps

variable {A : σ → Prop} {x : Panics σ α}

protected theorem pure {a : α} : Keeps A (pure a : Panics σ α) := fun _ h => h

protected theorem lift {o : Option α} : Keeps A (lift o : Panics σ α) := fun _ h => h

protected theorem set {s : σ} (h : A s) : Keeps A (Panics.set s) := fun _ _ => h

protected theorem and {B : σ → Prop} (h : Keeps A x) (h' : Keeps B x) :
    Keeps (fun s => A s ∧ B s) x := fun s hs => ⟨h s hs.1, h' s hs.2⟩

theorem get_bind {f : σ → Panics σ α} (h : ∀ s, A s → Keeps A (f s)) :
    Keeps A (Panics.get >>= f) := by
  intro s hs
  rw [bind_some (show Panics.get s = (some s, s) from rfl)]
  exact h s hs s hs

protected theorem zoom {read : σ → τ} {write : σ → τ → σ} {x : Panics τ α}
    (h : ∀ s t, A s → A (write s t)) : Keeps A (zoom read write x) := fun s hs => h s _ hs

protected theorem bind {f : α → Panics σ β} (h : Keeps A x) (hf : ∀ a, Keeps A (f a)) :
    Keeps A (x >>= f) := by
  intro s hs
  rcases hx : x s with ⟨_ | a, s'⟩
  · rw [bind_none hx]
    have hs' := h s hs
    rwa [hx] at hs'
  · rw [bind_some hx]
    have hs' := h s hs
    rw [hx] at hs'
    exact hf a s' hs'

theorem foldlM {ι : Type} {f : α → ι → Panics σ α} {is : List ι} {a : α}
    (h : ∀ a i, Keeps A (f a i)) : Keeps A (is.foldlM f a) := by
  induction is generalizing a with
  | nil => exact .pure
  | cons i is ih =>
    rw [List.foldlM_cons]
    exact (h a i).bind fun b => ih

end Keeps

/-! ### Ends -/

/-- From every state with `A` the computation returns in a state with `B`, or panics in one with
`C`. -/
def Ends (A : σ → Prop) (x : Panics σ α) (B : α → σ → Prop) (C : σ → Prop) : Prop :=
  ∀ s, A s → (∃ a s', x s = (some a, s') ∧ B a s') ∨ ∃ s', x s = (none, s') ∧ C s'

namespace Ends

variable {A A' C C' : σ → Prop} {B B' : α → σ → Prop} {x : Panics σ α}

protected theorem pure {a : α} (h : ∀ s, A s → B a s) : Ends A (pure a : Panics σ α) B C :=
  fun s hs => .inl ⟨a, s, rfl, h s hs⟩

protected theorem lift {o : Option α} (h : ∀ a, o = some a → ∀ s, A s → B a s)
    (hpanic : o = none → ∀ s, A s → C s) : Ends A (lift o : Panics σ α) B C := by
  intro s hs
  cases o with
  | none => exact .inr ⟨s, rfl, hpanic rfl s hs⟩
  | some a => exact .inl ⟨a, s, rfl, h a rfl s hs⟩

theorem mono (h : Ends A x B C) (hA : ∀ s, A' s → A s) (hB : ∀ a s, B a s → B' a s)
    (hC : ∀ s, C s → C' s) : Ends A' x B' C' := by
  intro s hs
  rcases h s (hA s hs) with ⟨a, s', hx, hs'⟩ | ⟨s', hx, hs'⟩
  · exact .inl ⟨a, s', hx, hB a s' hs'⟩
  · exact .inr ⟨s', hx, hC s' hs'⟩

protected theorem bind {D : β → σ → Prop} {f : α → Panics σ β} (h : Ends A x B C)
    (hf : ∀ a, Ends (B a) (f a) D C) : Ends A (x >>= f) D C := by
  intro s hs
  rcases h s hs with ⟨a, s', hx, hs'⟩ | ⟨s', hx, hs'⟩
  · rw [bind_some hx]
    exact hf a s' hs'
  · exact .inr ⟨s', bind_none hx, hs'⟩

theorem of_keeps (h : Keeps A x) : Ends A x (fun _ => A) A := by
  intro s hs
  rcases hx : x s with ⟨_ | a, s'⟩
  · exact .inr ⟨s', rfl, by simpa only [hx] using h s hs⟩
  · exact .inl ⟨a, s', rfl, by simpa only [hx] using h s hs⟩

/-- A loop whose property `A i` depends on the number of turns taken. -/
theorem foldlM {A : ℕ → σ → Prop} {f : α → ℕ → Panics σ α} {n : ℕ} {a : α}
    (h : ∀ i < n, ∀ a, Ends (A i) (f a i) (fun _ => A (i + 1)) C) :
    Ends (A 0) ((List.range n).foldlM f a) (fun _ => A n) C := by
  have hloop : ∀ len start a, start + len = n →
      Ends (A start) ((List.range' start len).foldlM f a) (fun _ => A n) C := by
    intro len
    induction len with
    | zero =>
      rintro start a rfl
      exact .pure fun s hs => hs
    | succ len ih =>
      intro start a hn
      rw [List.range'_succ, List.foldlM_cons]
      exact (h start (by omega) a).bind fun b => ih (start + 1) b (by omega)
  rw [List.range_eq_range']
  exact hloop n 0 a (Nat.zero_add n)

theorem never_bind {D : β → σ → Prop} {f : α → Panics σ β} (h : Ends A x (fun _ _ => False) C) :
    Ends A (x >>= f) D C :=
  h.bind fun _ _ hs => hs.elim

theorem foldlM_never {f : α → ℕ → Panics σ α} {n : ℕ} {a : α} (hn : 0 < n)
    (h : Ends A (f a 0) (fun _ _ => False) C) : Ends A ((List.range n).foldlM f a) B C := by
  obtain ⟨n, rfl⟩ := Nat.exists_eq_add_one.2 hn
  rw [List.range_succ_eq_map, List.foldlM_cons]
  exact h.never_bind

protected theorem zoom {read : σ → τ} {write : σ → τ → σ} {x : Panics τ α} {A₁ C₁ : τ → Prop}
    {B₁ : α → τ → Prop} (h : Ends A₁ x B₁ C₁) (hA : ∀ s, A s → A₁ (read s))
    (hB : ∀ s t a, A s → B₁ a t → B a (write s t)) (hC : ∀ s t, A s → C₁ t → C (write s t)) :
    Ends A (zoom read write x) B C := by
  intro s hs
  have hzoom : zoom read write x s = ((x (read s)).1, write s (x (read s)).2) := rfl
  rcases h (read s) (hA s hs) with ⟨a, t, hx, ht⟩ | ⟨t, hx, ht⟩
  · exact .inl ⟨a, write s t, by rw [hzoom, hx], hB s t a hs ht⟩
  · exact .inr ⟨write s t, by rw [hzoom, hx], hC s t hs ht⟩

end Ends

end VllmVulkan
