import Mathlib.Algebra.Group.Nat.Defs
import Mathlib.Data.List.Basic
import Mathlib.Tactic.Common

/-!
# Unsigned arithmetic that wraps

Index computations of a shader are expressions over machine words: constants, loads from tables of
words, sums, differences, products and quotients.  An expression has two values: the exact one, in
the natural numbers, and the one the device computes, in words of `w` bits.

* `Expr` : the expressions;
* `Expr.exact`, `Expr.wrapped` : the two values;
* `Expr.Agrees` : no value that is computed on the way has wrapped;
* `Agrees.lt` : values that agree fit a word;
* `Agrees.word`, `Agrees.load`, `Agrees.add`, `Agrees.mul` : **fitting values agree**;
* `Agrees.sub`, `Agrees.div`, `Agrees.rem` : differences, quotients and remainders add nothing that
  could wrap;
* `Agrees.mulAdd` : an index into rows needs only its own bound.
-/

namespace VllmVulkan

namespace Words

/-- An expression over words. -/
inductive Expr where
  /-- A value that enters the computation. -/
  | word (n : ℕ)
  /-- The entry of a table of words. -/
  | load (table : ℕ → ℕ) (i : Expr)
  | add (a b : Expr)
  | sub (a b : Expr)
  | mul (a b : Expr)
  | div (a b : Expr)

namespace Expr

instance : Add Expr := ⟨add⟩
instance : Sub Expr := ⟨sub⟩
instance : Mul Expr := ⟨mul⟩
instance : Div Expr := ⟨div⟩

/-- The value in the natural numbers. -/
def exact : Expr → ℕ
  | word n => n
  | load table i => table i.exact
  | add a b => a.exact + b.exact
  | sub a b => a.exact - b.exact
  | mul a b => a.exact * b.exact
  | div a b => a.exact / b.exact

/-- The value in words of `w` bits: the tables hold words as well. -/
def wrapped (w : ℕ) : Expr → BitVec w
  | word n => BitVec.ofNat w n
  | load table i => BitVec.ofNat w (table (i.wrapped w).toNat)
  | add a b => a.wrapped w + b.wrapped w
  | sub a b => a.wrapped w - b.wrapped w
  | mul a b => a.wrapped w * b.wrapped w
  | div a b => a.wrapped w / b.wrapped w

/-- What is computed on the way to the value, and the value. -/
def subterms : Expr → List Expr
  | word n => [word n]
  | load table i => load table i :: i.subterms
  | add a b => add a b :: (a.subterms ++ b.subterms)
  | sub a b => sub a b :: (a.subterms ++ b.subterms)
  | mul a b => mul a b :: (a.subterms ++ b.subterms)
  | div a b => div a b :: (a.subterms ++ b.subterms)

/-- Every value that is computed is the exact one. -/
def Agrees (w : ℕ) (e : Expr) : Prop :=
  ∀ t ∈ e.subterms, (t.wrapped w).toNat = t.exact

@[simp] theorem exact_word (n : ℕ) : (word n).exact = n := rfl
@[simp] theorem exact_load (table : ℕ → ℕ) (i : Expr) : (load table i).exact = table i.exact := rfl
@[simp] theorem exact_add (a b : Expr) : (a + b).exact = a.exact + b.exact := rfl
@[simp] theorem exact_sub (a b : Expr) : (a - b).exact = a.exact - b.exact := rfl
@[simp] theorem exact_mul (a b : Expr) : (a * b).exact = a.exact * b.exact := rfl
@[simp] theorem exact_div (a b : Expr) : (a / b).exact = a.exact / b.exact := rfl

theorem mem_subterms (e : Expr) : e ∈ e.subterms := by
  cases e <;> exact List.mem_cons_self

variable {w : ℕ} {a b e : Expr}

theorem Agrees.toNat_eq (h : e.Agrees w) : (e.wrapped w).toNat = e.exact :=
  h e e.mem_subterms

theorem Agrees.lt (h : e.Agrees w) : e.exact < 2 ^ w :=
  h.toNat_eq ▸ (e.wrapped w).isLt

theorem Agrees.word {n : ℕ} (h : n < 2 ^ w) : (word n).Agrees w := by
  intro t ht
  obtain rfl := List.mem_singleton.1 ht
  exact (BitVec.toNat_ofNat n w).trans (Nat.mod_eq_of_lt h)

theorem Agrees.load {table : ℕ → ℕ} (ha : a.Agrees w) (h : table a.exact < 2 ^ w) :
    (load table a).Agrees w := by
  intro t ht
  obtain rfl | ht := List.mem_cons.1 ht
  · change (BitVec.ofNat w (table (a.wrapped w).toNat)).toNat = table a.exact
    rw [ha.toNat_eq, BitVec.toNat_ofNat, Nat.mod_eq_of_lt h]
  · exact ha t ht

theorem agrees_of_toNat_eq {op : Expr} (hop : op.subterms = op :: (a.subterms ++ b.subterms))
    (ha : a.Agrees w) (hb : b.Agrees w) (h : (op.wrapped w).toNat = op.exact) : op.Agrees w := by
  intro t ht
  rw [hop] at ht
  obtain rfl | ht := List.mem_cons.1 ht
  · exact h
  · obtain ht | ht := List.mem_append.1 ht
    · exact ha t ht
    · exact hb t ht

theorem Agrees.add (ha : a.Agrees w) (hb : b.Agrees w) (h : a.exact + b.exact < 2 ^ w) :
    (a + b).Agrees w := by
  refine agrees_of_toNat_eq rfl ha hb ?_
  change (a.wrapped w + b.wrapped w).toNat = a.exact + b.exact
  rw [BitVec.toNat_add, ha.toNat_eq, hb.toNat_eq, Nat.mod_eq_of_lt h]

theorem Agrees.mul (ha : a.Agrees w) (hb : b.Agrees w) (h : a.exact * b.exact < 2 ^ w) :
    (a * b).Agrees w := by
  refine agrees_of_toNat_eq rfl ha hb ?_
  change (a.wrapped w * b.wrapped w).toNat = a.exact * b.exact
  rw [BitVec.toNat_mul, ha.toNat_eq, hb.toNat_eq, Nat.mod_eq_of_lt h]

theorem Agrees.sub (ha : a.Agrees w) (hb : b.Agrees w) (h : b.exact ≤ a.exact) :
    (a - b).Agrees w := by
  refine agrees_of_toNat_eq rfl ha hb ?_
  change (a.wrapped w - b.wrapped w).toNat = a.exact - b.exact
  rw [BitVec.toNat_sub_of_le, ha.toNat_eq, hb.toNat_eq]
  rw [BitVec.le_def, ha.toNat_eq, hb.toNat_eq]
  exact h

theorem Agrees.div (ha : a.Agrees w) (hb : b.Agrees w) : (a / b).Agrees w := by
  refine agrees_of_toNat_eq rfl ha hb ?_
  change (a.wrapped w / b.wrapped w).toNat = a.exact / b.exact
  rw [BitVec.toNat_udiv, ha.toNat_eq, hb.toNat_eq]

/-- `a + b * c`: the product fits when the sum does. -/
theorem Agrees.mulAdd {c : Expr} (ha : a.Agrees w) (hb : b.Agrees w) (hc : c.Agrees w)
    (h : a.exact + b.exact * c.exact < 2 ^ w) : (a + b * c).Agrees w :=
  ha.add (hb.mul hc (Nat.lt_of_le_of_lt (Nat.le_add_left _ _) h)) h

/-- `a - a / b * b`, the remainder as shaders write it. -/
theorem Agrees.rem (ha : a.Agrees w) (hb : b.Agrees w) : (a - a / b * b).Agrees w := by
  have hle : a.exact / b.exact * b.exact ≤ a.exact := Nat.div_mul_le_self _ _
  exact ha.sub ((ha.div hb).mul hb (Nat.lt_of_le_of_lt hle ha.lt)) hle

end Expr

end Words

end VllmVulkan
