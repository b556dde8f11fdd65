import Mathlib.Tactic.Common

/-!
# Programs that meet in collectives

The ranks of a group run one program each.  A program returns a value, or takes part in a collective
of some kind: it hands in its share and goes on with what the collective gives to everyone.  A round
takes place when all ranks stand at a collective of the same kind; ranks that stand at different
ones, or of which only some have returned, wait for ever.

* `Prog` : programs, with `Prog.bind`;
* `Runs` : the group comes to an end, after the collectives of the given kinds;
* `Runs.unique` : **a group runs in one way only**;
* `Lockstep` : every rank takes part in exactly the given collectives, whatever happens.
-/

namespace VllmVulkan

namespace Collectives

variable {ι κ X A B : Type}

/-- The program of a rank: `κ` are the kinds of collectives, `X` the shares. -/
inductive Prog (κ X A : Type) where
  | ret (a : A)
  | collective (kind : κ) (share : X) (next : X → Prog κ X A)

/-- Sequencing. -/
def Prog.bind : Prog κ X A → (A → Prog κ X B) → Prog κ X B
  | .ret a, f => f a
  | .collective kind share next, f => .collective kind share fun y => (next y).bind f

@[simp] theorem Prog.ret_bind (a : A) (f : A → Prog κ X B) : (Prog.ret a).bind f = f a := rfl

@[simp] theorem Prog.collective_bind (kind : κ) (share : X) (next : X → Prog κ X A)
    (f : A → Prog κ X B) : (Prog.collective kind share next).bind f =
      .collective kind share fun y => (next y).bind f :=
  rfl

/-- The group comes to an end: the kinds of its collectives, and what the ranks return. -/
inductive Runs (exchange : κ → (ι → X) → X) : (ι → Prog κ X A) → List κ → (ι → A) → Prop
  | done {ps : ι → Prog κ X A} {outs : ι → A} (h : ∀ r, ps r = .ret (outs r)) :
    Runs exchange ps [] outs
  | round {ps : ι → Prog κ X A} {kind : κ} {share : ι → X} {next : ι → X → Prog κ X A}
    {kinds : List κ} {outs : ι → A} (h : ∀ r, ps r = .collective kind (share r) (next r))
    (rest : Runs exchange (fun r => next r (exchange kind share)) kinds outs) :
    Runs exchange ps (kind :: kinds) outs

variable {exchange : κ → (ι → X) → X}

/-- **A group runs in one way only.** -/
theorem Runs.unique [Nonempty ι] {ps : ι → Prog κ X A} {kinds kinds' : List κ}
    {outs outs' : ι → A} (h : Runs exchange ps kinds outs) (h' : Runs exchange ps kinds' outs') :
    kinds = kinds' ∧ outs = outs' := by
  obtain ⟨r₀⟩ := ‹Nonempty ι›
  induction h generalizing kinds' with
  | @done ps outs h =>
    cases h' with
    | done h' =>
      refine ⟨rfl, funext fun r => ?_⟩
      have heq := (h r).symm.trans (h' r)
      injection heq
    | round h' rest =>
      have heq := (h r₀).symm.trans (h' r₀)
      cases heq
  | @round ps kind share next kinds outs h rest ih =>
    cases h' with
    | done h' =>
      have heq := (h r₀).symm.trans (h' r₀)
      cases heq
    | @round _ kind' share' next' kinds' _ h' rest' =>
      have heq : ∀ r, kind = kind' ∧ share r = share' r ∧ next r = next' r := by
        intro r
        have hr := (h r).symm.trans (h' r)
        injection hr with hk hs hn
        exact ⟨hk, hs, hn⟩
      obtain rfl := (heq r₀).1
      obtain rfl : share = share' := funext fun r => (heq r).2.1
      obtain rfl : next = next' := funext fun r => (heq r).2.2
      obtain ⟨hkinds, houts⟩ := ih rest'
      exact ⟨by rw [hkinds], houts⟩

/-- Every rank takes part in exactly the given collectives, and what they return satisfies `P`,
however the group runs; and it does come to an end. -/
structure Lockstep (exchange : κ → (ι → X) → X) (ps : ι → Prog κ X A) (kinds : List κ)
    (P : (ι → A) → Prop) : Prop where
  ends : ∃ kinds' outs, Runs exchange ps kinds' outs
  kinds : ∀ kinds' outs, Runs exchange ps kinds' outs → kinds' = kinds ∧ P outs

theorem lockstep_iff [Nonempty ι] {ps : ι → Prog κ X A} {kinds : List κ} {outs : ι → A}
    (h : Runs exchange ps kinds outs) (P : (ι → A) → Prop) :
    Lockstep exchange ps kinds P ↔ P outs := by
  constructor
  · intro hl
    exact (hl.kinds _ _ h).2
  · intro hP
    refine ⟨⟨_, _, h⟩, fun kinds' outs' h' => ?_⟩
    obtain ⟨rfl, rfl⟩ := h.unique h'
    exact ⟨rfl, hP⟩

theorem runs_one {ps : ι → Prog κ X A} {kind : κ} {share : ι → X} {out : ι → X → A}
    (h : ∀ r, ps r = .collective kind (share r) fun y => .ret (out r y)) :
    Runs exchange ps [kind] fun r => out r (exchange kind share) :=
  .round h (.done fun _ => rfl)

end Collectives

end VllmVulkan
