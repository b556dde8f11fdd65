import Mathlib.Data.List.Basic
import Mathlib.Data.List.Forall2
import Mathlib.Algebra.BigOperators.Group.List.Basic
import Mathlib.Tactic.Ring

/-!
# The Python fragment the backend is written in

The backend is Python over a small Rust core.  What its modules share is modelled here once:

* `PyError` : the exceptions the modelled functions raise, with their messages;
* `Py` : a call that returns or raises;
* `raiseIf` : the guard `if c: raise e`;
* `pyPos`, `pyIndex?` : tuple and list indexing, where a negative index counts from the end;
* `pyRepr` : `repr` of a plain string;
* `ceilDiv` : `math.ceil(a / b)` on positive integers;
* `u32Bytes` : `struct.pack` of an unsigned word;
* `Tensor` : a contiguous tensor, a shape together with its row-major elements.
-/

namespace VllmVulkan

/-- The exceptions raised by the modelled Python functions, with their messages. -/
inductive PyError where
  | valueError (msg : String)
  | indexError
  | runtimeError (msg : String)
  | structError (msg : String)
  | typeError (msg : String)
  | overflowError (msg : String)
  | keyError (key : String)
  | attributeError (msg : String)
  | fusedMlpUnavailable (msg : String)
  | eofError
  deriving DecidableEq, Repr

/-- `str` of an exception. -/
def PyError.str : PyError → String
  | valueError msg | runtimeError msg | structError msg | typeError msg | overflowError msg
  | attributeError msg | fusedMlpUnavailable msg => msg
  | indexError => "tuple index out of range"
  | keyError key => key
  | eofError => ""

/-- A Python call: it returns a value or raises. -/
abbrev Py (α : Type*) := Except PyError α

/-- `if c: raise e`. -/
def raiseIf (c : Prop) [Decidable c] (e : PyError) : Py Unit :=
  if c then .error e else .ok ()

/-- `math.ceil(a / b)`. -/
def ceilDiv (a b : ℕ) : ℕ := (a + b - 1) / b

/-- The position that Python index `i` denotes in a sequence of length `n`: a negative index counts
from the end. -/
def pyPos (n : ℕ) (i : ℤ) : Option ℕ :=
  if 0 ≤ i then if i < n then some i.toNat else none
  else if -(n : ℤ) ≤ i then some (n + i).toNat else none

/-- Python indexing `xs[i]`; `none` is an `IndexError`. -/
def pyIndex? {α : Type*} (xs : List α) (i : ℤ) : Option α :=
  (pyPos xs.length i).bind fun k => xs[k]?

/-- The bytes of a 32-bit word, lowest first. -/
def u32Bytes (n : ℕ) : List UInt8 :=
  [.ofNat n, .ofNat (n / 2 ^ 8), .ofNat (n / 2 ^ 16), .ofNat (n / 2 ^ 24)]

/-- `repr` of a string that needs no escapes. -/
def pyRepr (s : String) : String := "'" ++ s ++ "'"

/-- A contiguous tensor: its shape and its elements in row-major order. -/
structure Tensor (α : Type*) where
  /-- The extent of every dimension. -/
  shape : List ℕ
  /-- The elements, last dimension fastest. -/
  data : List α
  /-- There are as many elements as the shape says. -/
  length_data : data.length = shape.prod

/-- The repr of a tuple of sizes. -/
def pyTuple : List ℕ → String
  | [n] => s!"({n},)"
  | ns => "(" ++ ", ".intercalate (ns.map toString) ++ ")"

/-- The repr of a `torch.Size`. -/
def torchSize (ns : List ℕ) : String := "torch.Size([" ++ ", ".intercalate (ns.map toString) ++ "])"

namespace Tensor

variable {α : Type*} (t : Tensor α)

/-- A one-dimensional tensor. -/
def ofList (xs : List α) : Tensor α := ⟨[xs.length], xs, by simp⟩

/-- The row-major position of an index in a tensor of the given shape. -/
def flatIndex (shape idx : List ℕ) : ℕ :=
  (shape.zip idx).foldl (fun acc ni => acc * ni.1 + ni.2) 0

/-- The element at an index. -/
def get? (idx : List ℕ) : Option α := t.data[flatIndex t.shape idx]?

/-- The row `i` of a tensor, flattened. -/
def row (i : ℕ) : List α :=
  (t.data.drop (i * t.shape.tail.prod)).take t.shape.tail.prod

theorem length_row {n : ℕ} {ns : List ℕ} (h : t.shape = n :: ns) {i : ℕ} (hi : i < n) :
    (t.row i).length = ns.prod := by
  have hlen : t.data.length = n * ns.prod := by rw [t.length_data, h, List.prod_cons]
  have hle : (i + 1) * ns.prod ≤ n * ns.prod := Nat.mul_le_mul_right _ hi
  rw [Nat.add_mul, Nat.one_mul] at hle
  simp only [row, h, List.tail_cons, List.length_take, List.length_drop, hlen]
  omega

/-- `torch.index_select(t, 0, rows)`: the listed rows, in that order; `none` when one of them does
not exist. -/
def indexSelect (rows : List ℕ) : Option (Tensor α) :=
  if h : (rows.flatMap t.row).length = (rows.length :: t.shape.tail).prod then
    some ⟨rows.length :: t.shape.tail, rows.flatMap t.row, h⟩
  else none

theorem getElem?_row {n : ℕ} {ns : List ℕ} (h : t.shape = n :: ns) {i e : ℕ} (he : e < ns.prod) :
    (t.row i)[e]? = t.data[i * ns.prod + e]? := by
  simp [row, h, he]

/-- Position `e` of part `j` in a concatenation of parts of one length. -/
theorem getElem?_flatMap {β : Type*} {w : ℕ} (f : β → List α) (xs : List β)
    (hf : ∀ x ∈ xs, (f x).length = w) {j e : ℕ} (he : e < w) :
    (xs.flatMap f)[j * w + e]? = xs[j]?.bind fun x => (f x)[e]? := by
  induction xs generalizing j with
  | nil => simp
  | cons x xs ih =>
    have hx : (f x).length = w := hf x (by simp)
    rw [List.flatMap_cons]
    cases j with
    | zero => rw [List.getElem?_append_left (by omega)]; simp
    | succ j =>
      rw [Nat.add_mul, Nat.one_mul, List.getElem?_append_right (by omega), List.getElem?_cons_succ,
        ← ih fun y hy => hf y (by simp [hy])]
      congr 1
      omega

theorem length_flatMap_of_length {β : Type*} {w : ℕ} (f : β → List α) (xs : List β)
    (hf : ∀ x ∈ xs, (f x).length = w) : (xs.flatMap f).length = xs.length * w := by
  induction xs with
  | nil => simp
  | cons x xs ih =>
    rw [List.flatMap_cons, List.length_append, hf x (by simp), ih fun y hy => hf y (by simp [hy]),
      List.length_cons]
    ring

/-- Rows that exist can be selected, and element `e` of row `j` of the selection is element `e` of
row `rows[j]`. -/
theorem exists_indexSelect {n : ℕ} {ns : List ℕ} (h : t.shape = n :: ns) {rows : List ℕ}
    (hr : ∀ i ∈ rows, i < n) : ∃ t', t.indexSelect rows = some t' ∧
      t'.shape = rows.length :: ns ∧ ∀ j, ∀ e < ns.prod,
        t'.data[j * ns.prod + e]? = rows[j]?.bind fun i => t.data[i * ns.prod + e]? := by
  have hlen : ∀ i ∈ rows, (t.row i).length = ns.prod := fun i hi => t.length_row h (hr i hi)
  have hsize : (rows.flatMap t.row).length = (rows.length :: t.shape.tail).prod := by
    rw [length_flatMap_of_length _ _ hlen, h, List.tail_cons, List.prod_cons]
  refine ⟨_, by rw [indexSelect, dif_pos hsize], by simp [h], fun j e he => ?_⟩
  change (rows.flatMap t.row)[j * ns.prod + e]? = _
  rw [getElem?_flatMap _ _ hlen he]
  congr 1
  funext i
  exact t.getElem?_row h he

end Tensor

universe u

variable {α β : Type u}

@[simp] theorem raiseIf_eq_ok {c : Prop} [Decidable c] {e : PyError} {u : Unit} :
    raiseIf c e = .ok u ↔ ¬ c := by
  unfold raiseIf; split_ifs with h <;> simp [h]

theorem Py.bind_eq_ok {x : Py α} {f : α → Py β} {b : β} :
    (x >>= f) = .ok b ↔ ∃ a, x = .ok a ∧ f a = .ok b := by
  cases x with
  | error e => simp [bind, Except.bind]
  | ok a => simp [bind, Except.bind]

@[simp] theorem Py.pure_eq_ok {a b : α} : (pure a : Py α) = .ok b ↔ a = b := by
  simp [pure, Except.pure]

theorem Py.exists_error_iff {x : Py α} : (∃ e, x = .error e) ↔ ¬ ∃ a, x = .ok a := by
  cases x with
  | error e => simp
  | ok a => simp

theorem Py.mapM_eq_ok {α β : Type} {f : α → Py β} {xs : List α} {ys : List β} :
    xs.mapM f = .ok ys ↔ List.Forall₂ (fun x y => f x = .ok y) xs ys := by
  induction xs generalizing ys with
  | nil => rw [List.mapM_nil, Py.pure_eq_ok, List.forall₂_nil_left_iff, eq_comm]
  | cons x xs ih =>
    simp only [List.mapM_cons, Py.bind_eq_ok, Py.pure_eq_ok, ih]
    constructor
    · rintro ⟨y, hy, ys, hys, rfl⟩
      exact .cons hy hys
    · intro h
      cases h with
      | cons hy hys => exact ⟨_, hy, _, hys, rfl⟩

theorem Py.exists_of_mem_mapM {α β : Type} {f : α → Py β} {xs : List α} {ys : List β}
    (h : xs.mapM f = .ok ys) {y : β} (hy : y ∈ ys) : ∃ x ∈ xs, f x = .ok y := by
  have hall := Py.mapM_eq_ok.1 h
  obtain ⟨i, hi, rfl⟩ := List.getElem_of_mem hy
  exact ⟨_, List.get_mem _ _, hall.get (by rw [hall.length_eq]; exact hi) hi⟩

/-! ### Ceiling division -/

theorem le_ceilDiv_mul {a b : ℕ} (hb : 0 < b) : a ≤ ceilDiv a b * b := by
  have h := Nat.lt_div_mul_add (a := a + b - 1) hb
  unfold ceilDiv
  omega

theorem lt_ceilDiv_iff {j a b : ℕ} (hb : 0 < b) : j < ceilDiv a b ↔ j * b < a := by
  rw [ceilDiv, ← Nat.succ_le_iff, Nat.le_div_iff_mul_le hb, Nat.succ_mul]
  omega

theorem div_lt_ceilDiv {t a b : ℕ} (hb : 0 < b) (h : t < a) : t / b < ceilDiv a b := by
  rw [Nat.div_lt_iff_lt_mul hb]
  exact Nat.lt_of_lt_of_le h (le_ceilDiv_mul hb)

/-! ### Indexing -/

theorem pyPos_natCast {n k : ℕ} (h : k < n) : pyPos n k = some k := by
  simp [pyPos, h]

theorem pyPos_eq_some {n k : ℕ} {i : ℤ} : pyPos n i = some k ↔ k < n ∧ (i = k ∨ i = k - n) := by
  unfold pyPos
  split_ifs with h₀ hn hneg
  · rw [Option.some.injEq]
    omega
  · refine iff_of_false nofun ?_
    omega
  · rw [Option.some.injEq]
    omega
  · refine iff_of_false nofun ?_
    omega

theorem pyIndex?_eq_some {xs : List α} {i : ℤ} {a : α} :
    pyIndex? xs i = some a ↔ ∃ k, pyPos xs.length i = some k ∧ xs[k]? = some a := by
  simp [pyIndex?, Option.bind_eq_some_iff]

end VllmVulkan
