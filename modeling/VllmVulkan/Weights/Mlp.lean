import VllmVulkan.Context.ExecuteBatch
import VllmVulkan.Kv.Ops
import VllmVulkan.Weights.Cache

/-!
# The batch of a fused MLP

`fused_swiglu_mlp` submits the two linear layers of an MLP block and the activation between them as
one batch of three ops; the second and the third read the output of the op before by a chain ref.

* `matvecPc`, `matmulPc`, `swigluPc` : the push constants of the three kinds of shaders;
* `MlpWeight` : a weight with what the caches say about it;
* `fusedSwigluMlpOps` : the batch;
* `fusedSwigluMlpOps_shape` : its three ops.
-/

namespace VllmVulkan

namespace Weights

open KvOps (structPack)

variable {F : Type} [Field F]

/-- `_matvec_pc`. -/
def matvecPc (t k n : ℕ) : Py (List (PcWord F)) :=
  structPack ([k, k, k, n, k * n, k, n, 0, 0, 1, t, t, 1].map .u32)

/-- `_matmul_pc`. -/
def matmulPc (m t k : ℕ) : Py (List (PcWord F)) :=
  structPack ([m, t, k, k, k, m, m * k, k * t, m * t, 0, 1, k, 1, 1, 1, 1].map .u32)

/-- `_matmul_workgroups`. -/
def matmulWorkgroups (m t : ℕ) : ℕ × ℕ × ℕ := ((m + 64 - 1) / 64, (t + 64 - 1) / 64, 1)

/-- `_swiglu_pc`. -/
def swigluPc (t ne00 ne20 : ℕ) : Py (List (PcWord F)) :=
  structPack ([.u32 (t * ne20), .u32 ne00, .u32 ne20, .u32 0, .f32 0, .f32 0] ++
    [ne00, ne00 * t, ne00 * t, t, 1, ne20, ne20 * t, ne20 * t, t, 1].map .u32)

/-- `_wg512`. -/
def wg512 (n : ℕ) : ℕ := (n + 511) / 512

/-- A weight, with what the caches say about it. -/
structure MlpWeight where
  weight : Weight
  /-- `_weight_uses_f16`. -/
  useF16 : Bool
  /-- `_get_or_upload_weight`. -/
  gpu : Option GpuTensor
  /-- `_to_bytes(weight.half())`. -/
  halfBytes : List UInt8
  /-- `_to_bytes(weight.float())`. -/
  floatBytes : List UInt8

/-- What is bound for a weight: its buffer, or its bytes when it has none. -/
def MlpWeight.binding (w : MlpWeight) : Context.Binding :=
  match w.gpu with
  | some t => .gpuTensor t.id
  | none => .bytes (if w.useF16 then w.halfBytes else w.floatBytes)

/-- The rows of `x.reshape(-1, hidden)`. -/
def reshapeRows (x : List F) (hidden : ℕ) : Py ℕ := do
  raiseIf (hidden = 0 ∧ x.length = 0) (.runtimeError
    ("cannot reshape tensor of 0 elements into shape [-1, 0] because the unspecified dimension " ++
      "size -1 can be any value and is ambiguous"))
  raiseIf (¬ hidden ∣ x.length) (.runtimeError
    s!"shape '[-1, {hidden}]' is invalid for input of size {x.length}")
  return x.length / hidden

/-- A linear layer of the block on `t` rows: its shader, push constants and workgroups. -/
def mlpLinear (t : ℕ) (useF16 : Bool) (inFeatures outFeatures : ℕ) :
    Py (String × List (PcWord F) × (ℕ × ℕ × ℕ)) := do
  if t < matvecThreshold then
    let pc ← matvecPc t inFeatures outFeatures
    return (mlpShader t useF16, pc, (outFeatures, t, 1))
  else
    let pc ← matmulPc outFeatures t inFeatures
    return (mlpShader t useF16, pc, matmulWorkgroups outFeatures t)

/-- `fused_swiglu_mlp`: the batch it submits; `f32` gives the bytes of a float. -/
def fusedSwigluMlpOps (f32 : F → List UInt8) (availableShaders : List String) (x : List F)
    (gateUp down : MlpWeight) : Py (List Context.Op) := do
  let hidden := gateUp.weight.inFeat
  let t ← reshapeRows x hidden
  let twoIntermediate := gateUp.weight.outFeat
  let intermediate := twoIntermediate / 2
  let outFeatures := down.weight.outFeat
  raiseIf (hidden * twoIntermediate < matvecMinWeightElements ∨
      intermediate * outFeatures < matvecMinWeightElements)
    (.fusedMlpUnavailable "weight(s) too small to be GPU-eligible")
  raiseIf ("swiglu_f32" ∉ availableShaders) (.fusedMlpUnavailable "swiglu_f32 not compiled")
  let (shaderGateUp, pcGateUp, wgGateUp) ← mlpLinear t gateUp.useF16 hidden twoIntermediate
  let (shaderDown, pcDown, wgDown) ← mlpLinear t down.useF16 intermediate outFeatures
  raiseIf (shaderGateUp ∉ availableShaders ∨ shaderDown ∉ availableShaders)
    (.fusedMlpUnavailable ("required matmul/matvec shader(s) not compiled: " ++
      s!"{shaderGateUp}, {shaderDown}"))
  let pcSwiglu ← swigluPc t twoIntermediate intermediate
  return [
    { shaderName := shaderGateUp
      bindings := [gateUp.binding, .bytes (x.flatMap f32)]
      outputSizes := [t * twoIntermediate * 4]
      pushConstants := pcGateUp.flatMap (PcWord.bytes f32)
      workgroups := wgGateUp
      barrierAfter := true },
    { shaderName := "swiglu_f32"
      bindings := [.tuple [0, 0], .tuple [0, 0]]
      outputSizes := [t * intermediate * 4]
      pushConstants := pcSwiglu.flatMap (PcWord.bytes f32)
      workgroups := (wg512 (t * intermediate), 1, 1)
      barrierAfter := true },
    { shaderName := shaderDown
      bindings := [down.binding, .tuple [1, 0]]
      outputSizes := [t * outFeatures * 4]
      pushConstants := pcDown.flatMap (PcWord.bytes f32)
      workgroups := wgDown
      barrierAfter := false }]

/-- **The three ops of a fused MLP**: the bindings, one output each, a barrier after the first and
the second. -/
theorem fusedSwigluMlpOps_shape {f32 : F → List UInt8} {available : List String} {x : List F}
    {gateUp down : MlpWeight} {ops : List Context.Op}
    (h : fusedSwigluMlpOps f32 available x gateUp down = .ok ops) : ∃ o₀ o₁ o₂,
      ops = [o₀, o₁, o₂] ∧
        o₀.bindings = [gateUp.binding, .bytes (x.flatMap f32)] ∧ o₀.outputSizes.length = 1 ∧
        o₀.barrierAfter = true ∧
        o₁.bindings = [.tuple [0, 0], .tuple [0, 0]] ∧ o₁.outputSizes.length = 1 ∧
        o₁.barrierAfter = true ∧
        o₂.bindings = [down.binding, .tuple [1, 0]] ∧ o₂.outputSizes.length = 1 := by
  simp only [fusedSwigluMlpOps, Py.bind_eq_ok, Py.pure_eq_ok] at h
  obtain ⟨t, -, -, -, -, -, r, -, s, -, -, -, pc, -, rfl⟩ := h
  exact ⟨_, _, _, rfl, rfl, rfl, rfl, rfl, rfl, rfl, rfl, rfl⟩

omit [Field F] in
theorem mlpLinear_shader {t inFeatures outFeatures : ℕ} {useF16 : Bool}
    {r : String × List (PcWord F) × (ℕ × ℕ × ℕ)}
    (h : mlpLinear t useF16 inFeatures outFeatures = .ok r) : r.1 = mlpShader t useF16 := by
  unfold mlpLinear at h
  split_ifs at h
  all_goals
    simp only [Py.bind_eq_ok, Py.pure_eq_ok] at h
    obtain ⟨pc, -, rfl⟩ := h
    rfl

end Weights

end VllmVulkan
