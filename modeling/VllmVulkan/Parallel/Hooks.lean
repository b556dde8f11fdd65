import VllmVulkan.Lib.Collectives
import Mathlib.Algebra.BigOperators.Group.List.Basic
import Mathlib.Algebra.Ring.Defs

/-!
# The dispatch hooks of `model_runner.py`

`_wrap_linear` and `_wrap_swiglu_mlp` replace the `forward` of a module by one that computes on the
GPU and falls back to the original `forward`.  Under tensor parallelism a module holds a shard of
the weight, and its ranks meet in a collective.

A tensor is given by its last dimension at every position of the leading ones; arithmetic is exact,
where the conversions between element types are the identity.  Whether a Vulkan call raises is an
input of the call.

* `linear`, `fusedSwigluMlp` : what the Vulkan calls return when they do not raise;
* `Collective`, `exchange` : the two collectives;
* `vkForward` : the hook of a linear module;
* `vkMlpForward` : the hook of an MLP block;
* `vkForward_eq`, `vkMlpForward_eq` : which of the two ways a call takes.
-/

namespace VllmVulkan

namespace Parallel

open Collectives

/-- A tensor, by its last dimension. -/
abbrev Rows (T R : Type) := T → List R

variable {T R : Type} [CommRing R]

/-- The dot product of two rows. -/
def dot (xs ws : List R) : R := (List.zipWith (· * ·) xs ws).sum

/-- `y + bias`, if there is a bias. -/
def addRow (y : List R) : Option (List R) → List R
  | none => y
  | some b => List.zipWith (· + ·) y b

/-- `vulkan_ops.linear`: `x W^T`, and the bias. -/
def linear (x : Rows T R) (weight : List (List R)) (bias : Option (List R)) : Rows T R :=
  fun t => addRow (weight.map (dot (x t))) bias

/-- `SiluAndMul`: the first half of a row gates the second one. -/
def siluAndMul (silu : R → R) (y : List R) : List R :=
  List.zipWith (fun g u => silu g * u) (y.take (y.length / 2)) (y.drop (y.length / 2))

/-- `vulkan_ops.fused_swiglu_mlp`. -/
def fusedSwigluMlp (silu : R → R) (x : Rows T R) (gateUpWeight downWeight : List (List R)) :
    Rows T R :=
  linear (fun t => siluAndMul silu (linear x gateUpWeight none t)) downWeight none

/-! ### Collectives -/

/-- The collectives of the hooks. -/
inductive Collective where
  /-- `tensor_model_parallel_all_reduce`. -/
  | allReduce
  /-- `tensor_model_parallel_all_gather`. -/
  | allGather
  deriving DecidableEq, Repr

/-- The sum of rows. -/
def sumRows : List (List R) → List R
  | [] => []
  | [y] => y
  | y :: ys => List.zipWith (· + ·) y (sumRows ys)

/-- What a collective gives to every rank: the sum of the shares, or their concatenation. -/
def exchange {n : ℕ} : Collective → (Fin n → Rows T R) → Rows T R
  | .allReduce, share => fun t => sumRows (List.ofFn fun r => share r t)
  | .allGather, share => fun t => (List.ofFn fun r => share r t).flatten

/-- The program of a rank. -/
abbrev Rank (T R A : Type) := Prog Collective (Rows T R) A

/-! ### Linear modules -/

/-- A linear module of one rank. -/
structure LinearModule (R : Type) where
  weight : List (List R)
  bias : Option (List R)
  skipBiasAdd : Bool
  returnBias : Bool
  tpSize : ℕ
  reduceResults : Bool
  gatherOutput : Bool
  /-- The dtype of the weight is one of those the hook handles. -/
  weightDtypeOk : Bool

/-- What a linear module returns: a tensor, or a tensor and a bias to be added later. -/
inductive Output (T R : Type) where
  | tensor (result : Rows T R)
  | tuple (result : Rows T R) (outputBias : Option (List R))

/-- The tensor. -/
def Output.result : Output T R → Rows T R
  | .tensor result => result
  | .tuple result _ => result

/-- What the hook returns for a result. -/
def LinearModule.output (m : LinearModule R) (result : Rows T R) : Output T R :=
  if m.returnBias || m.skipBiasAdd then
    .tuple result (if m.skipBiasAdd then m.bias else none)
  else .tensor result

omit [CommRing R] in
@[simp] theorem LinearModule.output_result (m : LinearModule R) (y : Rows T R) :
    (m.output y).result = y := by
  unfold output
  split_ifs <;> rfl

/-- What decides, on one rank, the way of a call of a linear module. -/
structure LinearEnv where
  /-- `vulkan_ops.is_ready()`. -/
  isReady : Bool
  /-- The call has further arguments. -/
  hasArgs : Bool
  /-- `disable_linear`. -/
  disableLinear : Bool
  /-- `vulkan_ops.linear` raises. -/
  linearRaises : Bool
  deriving DecidableEq, Repr

/-- `row_reduce`. -/
def LinearModule.rowReduce (m : LinearModule R) : Bool := m.reduceResults && decide (m.tpSize > 1)

/-- `gather_output`. -/
def LinearModule.gathers (m : LinearModule R) : Bool := m.gatherOutput && decide (m.tpSize > 1)

/-- `vk_forward` of `_wrap_linear`. -/
def vkForward (m : LinearModule R) (env : LinearEnv) (orig : Rows T R → Rank T R (Output T R))
    (x : Rows T R) : Rank T R (Output T R) :=
  if !env.isReady || env.hasArgs then orig x
  else if env.disableLinear then orig x
  else if !m.weightDtypeOk then orig x
  else if m.weight.flatten.isEmpty then orig x
  else if env.linearRaises then orig x
  else
    let matmulBias := if m.rowReduce || m.skipBiasAdd then none else m.bias
    let result := linear x m.weight matmulBias
    if m.rowReduce then
      .collective .allReduce result fun result =>
        .ret (m.output fun t => addRow (result t) (if m.skipBiasAdd then none else m.bias))
    else if m.gathers then
      .collective .allGather result fun result => .ret (m.output result)
    else .ret (m.output result)

/-- The call computes on the GPU: nothing sends it to the original `forward`. -/
def hooked (m : LinearModule R) (env : LinearEnv) : Bool :=
  env.isReady && !env.hasArgs && !env.disableLinear && m.weightDtypeOk &&
    !m.weight.flatten.isEmpty && !env.linearRaises

/-- **The two ways of a call.** -/
theorem vkForward_eq (m : LinearModule R) (env : LinearEnv)
    (orig : Rows T R → Rank T R (Output T R)) (x : Rows T R) :
    vkForward m env orig x =
      if hooked m env then
        if m.rowReduce then
          .collective .allReduce (linear x m.weight none) fun y =>
            .ret (m.output fun t => addRow (y t) (if m.skipBiasAdd then none else m.bias))
        else if m.gathers then
          .collective .allGather (linear x m.weight (if m.skipBiasAdd then none else m.bias))
            fun y => .ret (m.output y)
        else .ret (m.output (linear x m.weight (if m.skipBiasAdd then none else m.bias)))
      else orig x := by
  by_cases h : hooked m env = true
  · rw [if_pos h]
    simp only [hooked, Bool.and_eq_true, Bool.not_eq_true'] at h
    obtain ⟨⟨⟨⟨⟨hready, hargs⟩, hdisabled⟩, hdtype⟩, hweight⟩, hraises⟩ := h
    simp only [vkForward, hready, hargs, hdisabled, hdtype, hweight, hraises]
    cases m.rowReduce <;> rfl
  · rw [if_neg h]
    unfold vkForward
    -- had none of the tests sent it to the original, it would be hooked
    split_ifs with hready hdisabled hdtype hweight hraises <;> try rfl
    all_goals
      refine absurd ?_ h
      simp only [hooked, Bool.or_eq_true, Bool.not_eq_true', not_or, Bool.not_eq_true] at *
      simp [hready, hdisabled, hdtype, hweight, hraises]

/-! ### MLP blocks -/

/-- What decides, on one rank, the way of a call of an MLP block. -/
structure MlpEnv where
  /-- `vulkan_ops.is_ready()`. -/
  isReady : Bool
  /-- The call has further arguments. -/
  hasArgs : Bool
  /-- `vulkan_ops.fused_swiglu_mlp` raises, `FusedMlpUnavailableError` or anything else. -/
  fusedRaises : Bool
  deriving DecidableEq, Repr

/-- `_wrap_swiglu_mlp` hooks a block with these two modules. -/
def wrapsSwigluMlp (gateUpProj downProj : LinearModule R) : Bool :=
  gateUpProj.bias.isNone && downProj.bias.isNone && !gateUpProj.gathers

/-- `vk_mlp_forward` of `_wrap_swiglu_mlp`. -/
def vkMlpForward (silu : R → R) (gateUpProj downProj : LinearModule R) (env : MlpEnv)
    (orig : Rows T R → Rank T R (Rows T R)) (x : Rows T R) : Rank T R (Rows T R) :=
  if !env.isReady || env.hasArgs then orig x
  else if gateUpProj.weight.flatten.isEmpty || downProj.weight.flatten.isEmpty then orig x
  else if env.fusedRaises then orig x
  else
    let result := fusedSwigluMlp silu x gateUpProj.weight downProj.weight
    if downProj.rowReduce then .collective .allReduce result fun result => .ret result
    else .ret result

/-- **The two ways of a call.** -/
theorem vkMlpForward_eq (silu : R → R) (gateUpProj downProj : LinearModule R) (env : MlpEnv)
    (orig : Rows T R → Rank T R (Rows T R)) (x : Rows T R) (hr : downProj.rowReduce = true) :
    vkMlpForward silu gateUpProj downProj env orig x =
        .collective .allReduce (fusedSwigluMlp silu x gateUpProj.weight downProj.weight) .ret ∨
      vkMlpForward silu gateUpProj downProj env orig x = orig x := by
  unfold vkMlpForward
  split_ifs
  · exact .inr rfl
  · exact .inr rfl
  · exact .inr rfl
  · exact .inl rfl

end Parallel

end VllmVulkan
