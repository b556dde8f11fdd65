import Mathlib.Data.List.Perm.Basic
import Mathlib.Data.List.Nodup
import Mathlib.Data.List.Pairwise
import Mathlib.Logic.Function.Basic
import Mathlib.Tactic.Common

/-!
# Command buffers

A memory is a function from buffers to contents.  A command replaces the contents of one buffer by a
value computed from the buffers it reads.  A command buffer is a list of groups separated by
barriers: the groups run in order, the commands of a group in any order.

* `Command` : a command, with the buffers its value depends on;
* `Schedule` : an order for each group;
* `submit` : the memory after a command buffer;
* `submit_eq` : **the order inside a group does not matter**, when no command of a group writes a
  buffer another one reads or writes.
-/

namespace VllmVulkan

namespace Commands

variable {B V : Type*} [DecidableEq B]

/-- A command. -/
structure Command (B V : Type*) where
  /-- The buffers it may read. -/
  reads : List B
  /-- The buffer it writes. -/
  out : B
  /-- The value it writes. -/
  value : (B → V) → V
  /-- The value depends on the buffers it reads only. -/
  value_congr : ∀ {m m' : B → V}, (∀ b ∈ reads, m b = m' b) → value m = value m'

/-- The memory after a command. -/
def Command.run (c : Command B V) (m : B → V) : B → V := Function.update m c.out (c.value m)

/-- Neither of two commands writes a buffer the other one reads or writes. -/
def Independent (c d : Command B V) : Prop :=
  c.out ≠ d.out ∧ c.out ∉ d.reads ∧ d.out ∉ c.reads

/-- An order for each group. -/
structure Schedule (B V : Type*) where
  order : List (Command B V) → List (Command B V)
  perm : ∀ cs, (order cs).Perm cs

/-- The memory after commands in the order of the list. -/
def runAll (cs : List (Command B V)) (m : B → V) : B → V := cs.foldl (fun m c => c.run m) m

/-- The memory after a command buffer. -/
def submit (σ : Schedule B V) (groups : List (List (Command B V))) (m : B → V) : B → V :=
  groups.foldl (fun m g => runAll (σ.order g) m) m

@[simp] theorem runAll_nil (m : B → V) : runAll [] m = m := rfl

@[simp] theorem runAll_cons (c : Command B V) (cs : List (Command B V)) (m : B → V) :
    runAll (c :: cs) m = runAll cs (c.run m) := rfl

omit [DecidableEq B] in
theorem Independent.symm {c d : Command B V} (h : Independent c d) : Independent d c :=
  ⟨h.1.symm, h.2.2, h.2.1⟩

instance : Std.Symm (Independent (B := B) (V := V)) := ⟨fun _ _ h => h.symm⟩

theorem Command.run_out (c : Command B V) (m : B → V) : c.run m c.out = c.value m :=
  Function.update_self ..

theorem Command.run_of_ne {c : Command B V} {b : B} (h : b ≠ c.out) (m : B → V) :
    c.run m b = m b :=
  Function.update_of_ne h ..

theorem Independent.run_comm {c d : Command B V} (h : Independent c d) (m : B → V) :
    d.run (c.run m) = c.run (d.run m) := by
  have hc : c.value (d.run m) = c.value m :=
    c.value_congr fun b hb => Command.run_of_ne (fun heq => h.2.2 (heq ▸ hb)) m
  have hd : d.value (c.run m) = d.value m :=
    d.value_congr fun b hb => Command.run_of_ne (fun heq => h.2.1 (heq ▸ hb)) m
  funext b
  by_cases hbc : b = c.out
  · subst hbc
    rw [Command.run_of_ne h.1, Command.run_out, Command.run_out, hc]
  · rw [Command.run_of_ne hbc]
    by_cases hbd : b = d.out
    · subst hbd
      rw [Command.run_out, Command.run_out, hd]
    · rw [Command.run_of_ne hbd, Command.run_of_ne hbd, Command.run_of_ne hbc]

/-- A group of pairwise independent commands runs to the same memory in every order. -/
theorem runAll_perm {cs cs' : List (Command B V)} (hp : cs.Perm cs')
    (hi : cs'.Pairwise Independent) (m : B → V) : runAll cs m = runAll cs' m := by
  refine (hp.symm.foldl_eq' (fun c hc d hd m => ?_) m).symm
  by_cases heq : c = d
  · subst heq
    rfl
  · exact (hi.forall hc hd heq).run_comm m

/-- **The order inside a group does not matter.** -/
theorem submit_eq (σ : Schedule B V) {groups : List (List (Command B V))}
    (hi : ∀ g ∈ groups, g.Pairwise Independent) (m : B → V) :
    submit σ groups m = runAll groups.flatten m := by
  induction groups generalizing m with
  | nil => rfl
  | cons g gs ih =>
    have hg : runAll (σ.order g) m = runAll g m :=
      runAll_perm (σ.perm g) (hi g List.mem_cons_self) m
    calc submit σ (g :: gs) m = submit σ gs (runAll (σ.order g) m) := rfl
      _ = runAll gs.flatten (runAll g m) := by
        rw [hg, ih fun g' hg' => hi g' (List.mem_cons_of_mem _ hg')]
      _ = runAll (g :: gs).flatten m := by
        rw [List.flatten_cons, runAll, runAll, runAll, List.foldl_append]

end Commands

end VllmVulkan
