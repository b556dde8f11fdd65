import VllmVulkan.Linear.Kernels
import VllmVulkan.Weights.Erasure

/-!
# The layers of `vulkan_ops`

`linear` and `fused_swiglu_mlp` from the tensors they are given to the tensor they return: what they
ask the caches, the batch they submit, and the bias and the shape at the end.  A result depends on
the order in which the invocations of a dispatch store.

* `Op`, `BatchRuns` : a batch with the elements of its buffers, and what it can leave;
* `linear`, `fusedSwigluMlp` : the two calls, up to their batch;
* `Work.Returns` : what a call can return;
* `Asks`, `Answers`, `exec_spec` : one weight for every storage, and how the caches answer then;
* `linear_ensures`, `fusedSwigluMlp_ensures` : **what a call does does not depend on the calls
  before it**, nor on the uploads that fail.
-/

namespace VllmVulkan

namespace Contents

namespace Layer

open Machine Panics Sessions Weights Store

variable {F : Type}

/-! ### Batches -/

/-- What is bound to an op. -/
inductive Binding (F : Type) where
  | weight (buffer : Buffer F)
  | activation (x : List F)
  /-- The output of an earlier op. -/
  | output (opIndex : ℕ)

/-- An op; it has one output. -/
structure Op (F : Type) where
  shaderName : String
  bindings : List (Binding F)
  outputSize : ℕ
  pushConstants : List (PcWord F)
  workgroups : ℕ × ℕ × ℕ
  barrierAfter : Bool

/-- What is left to do when the caches have answered. -/
inductive Product (F : Type) where
  /-- `ctx.execute_batch`; the result is the output of the last op. -/
  | executeBatch (ops : List (Op F))
  /-- `torch.nn.functional.linear`, with rows of `k` elements. -/
  | functionalLinear (k : ℕ) (x weight : List F)

/-- A product `[t, outFeat]`, the bias, and the shape of `x`. -/
structure Work (F : Type) where
  product : Product F
  t : ℕ
  outFeat : ℕ
  bias : Option (List F)
  origShape : List ℕ

/-! ### The calls -/

/-- A step that may raise, before the rest of a call. -/
def orRaise {C : Type → Type} {α β : Type} (r : Py α) (next : α → Prog C (Py β)) : Prog C (Py β) :=
  match r with
  | .error e => pure (.error e)
  | .ok a => next a

section Calls

variable [Field F] [Half F]

/-- `_vulkan_matvec`, up to the batch; `x` has `t` rows of `k` elements. -/
def vulkanMatvec (x : List F) (t k : ℕ) (w : Tensor F) (uploadFails : Bool) :
    Prog (Ask F) (Py (Product F)) := do
  let useF16 ← .perform (.usesF16 w)
  let wGpu ← .perform (.upload w true uploadFails)
  let n := w.outFeat
  orRaise (matvecPc t k n) fun pc => do
    let wBinding := wGpu.getD (w.toBytes (elemOf useF16))
    let shader := if useF16 then "mul_mat_vec_f16_f32_f32" else "mul_mat_vec_f32_f32_f32"
    pure (.ok (.executeBatch [{
      shaderName := shader
      bindings := [.weight wBinding, .activation x]
      outputSize := t * n * 4
      pushConstants := pc
      workgroups := (n, t, 1)
      barrierAfter := false }]))

/-- `_vulkan_matmul`, up to the batch; `x` has `t` rows of `k` elements. -/
def vulkanMatmul (x : List F) (t k : ℕ) (w : Tensor F) (uploadFails : Bool) :
    Prog (Ask F) (Py (Product F)) := do
  let useF16 ← .perform (.usesF16 w)
  let wGpu ← .perform (.upload w true uploadFails)
  let m := w.outFeat
  orRaise (matmulPc m t k) fun pc => do
    let wBinding := wGpu.getD (w.toBytes (elemOf useF16))
    let shader := if useF16 then "matmul_f16_f32_fp32" else "matmul_f32_f32"
    pure (.ok (.executeBatch [{
      shaderName := shader
      bindings := [.weight wBinding, .activation x]
      outputSize := t * m * 4
      pushConstants := pc
      workgroups := matmulWorkgroups m t
      barrierAfter := false }]))

/-- The three ways of `linear`. -/
def product (available : List String) (x : List F) (t : ℕ) (w : Tensor F) (uploadFails : Bool) :
    Prog (Ask F) (Py (Product F)) :=
  let weightElements := w.inFeat * w.outFeat
  if weightElements ≥ matvecMinWeightElements ∧ t < matvecThreshold ∧
      "mul_mat_vec_f32_f32_f32" ∈ available then
    vulkanMatvec x t w.inFeat w uploadFails
  else if weightElements ≥ matvecMinWeightElements ∧ t ≥ matvecThreshold ∧
      "matmul_f32_f32" ∈ available then
    vulkanMatmul x t w.inFeat w uploadFails
  else do
    let copy ← .perform (.float32Cpu w)
    pure (.ok (.functionalLinear w.inFeat x copy))

/-- `linear`, up to the product. -/
def linear (x : VllmVulkan.Tensor F) (w : Tensor F) (bias : Option (List F)) (uploadFails : Bool) :
    Prog (Ask F) (Py (Work F)) := do
  .perform .getContext
  orRaise (reshapeRows x.data w.inFeat) fun t => do
    let available ← .perform .availableShaders
    let result ← product available x.data t w uploadFails
    orRaise result fun result => pure (.ok ⟨result, t, w.outFeat, bias, x.shape⟩)

/-- `fused_swiglu_mlp`, up to the batch. -/
def fusedSwigluMlp (x : VllmVulkan.Tensor F) (gateUp down : Tensor F)
    (gateUpFails downFails : Bool) : Prog (Ask F) (Py (Work F)) := do
  .perform .getContext
  let hidden := gateUp.inFeat
  orRaise (reshapeRows x.data hidden) fun t => do
    let twoIntermediate := gateUp.outFeat
    let intermediate := twoIntermediate / 2
    let outFeatures := down.outFeat
    orRaise (raiseIf (hidden * twoIntermediate < matvecMinWeightElements ∨
        intermediate * outFeatures < matvecMinWeightElements)
      (.fusedMlpUnavailable "weight(s) too small to be GPU-eligible")) fun _ => do
    let available ← .perform .availableShaders
    orRaise (raiseIf ("swiglu_f32" ∉ available)
      (.fusedMlpUnavailable "swiglu_f32 not compiled")) fun _ => do
    let useF16GateUp ← .perform (.usesF16 gateUp)
    let useF16Down ← .perform (.usesF16 down)
    orRaise (mlpLinear t useF16GateUp hidden twoIntermediate)
      fun (shaderGateUp, pcGateUp, wgGateUp) => do
    orRaise (mlpLinear t useF16Down intermediate outFeatures)
      fun (shaderDown, pcDown, wgDown) => do
    orRaise (raiseIf (shaderGateUp ∉ available ∨ shaderDown ∉ available)
      (.fusedMlpUnavailable ("required matmul/matvec shader(s) not compiled: " ++
        s!"{shaderGateUp}, {shaderDown}"))) fun _ => do
    let wGateUpGpu ← .perform (.upload gateUp true gateUpFails)
    let wDownGpu ← .perform (.upload down true downFails)
    orRaise (swigluPc t twoIntermediate intermediate) fun swigluPc => do
    let ops := [
      { shaderName := shaderGateUp
        bindings := [.weight (wGateUpGpu.getD (gateUp.toBytes (elemOf useF16GateUp))),
          .activation x.data]
        outputSize := t * twoIntermediate * 4
        pushConstants := pcGateUp
        workgroups := wgGateUp
        barrierAfter := true },
      { shaderName := "swiglu_f32"
        bindings := [.output 0, .output 0]
        outputSize := t * intermediate * 4
        pushConstants := swigluPc
        workgroups := (wg512 (t * intermediate), 1, 1)
        barrierAfter := true },
      { shaderName := shaderDown
        bindings := [.weight (wDownGpu.getD (down.toBytes (elemOf useF16Down))), .output 1]
        outputSize := t * outFeatures * 4
        pushConstants := pcDown
        workgroups := wgDown
        barrierAfter := false }]
    pure (.ok ⟨.executeBatch ops, t, outFeatures, none, x.shape⟩)

end Calls

/-! ### What a batch leaves -/

/-- The output of an op that was recorded. -/
structure Output (F : Type) where
  data : ℕ → F
  /-- There was a barrier after the op. -/
  visible : Bool

section Runs

variable [Field F]

/-- An op that is bound to an input can read `v`; an output that no barrier made visible reads as
anything. -/
def Binding.Reads (outs : List (Output F)) : Binding F → (ℕ → F) → Prop
  | .weight buffer, v => v = fun i => buffer.values.getD i 0
  | .activation x, v => v = fun i => x.getD i 0
  | .output i, v => ∀ o, outs[i]? = some o → o.visible = true → v = o.data

/-- An op that reads `vs` can leave `out` in its output, which held `old` before. -/
def Op.Leaves (silu : F → F) (op : Op F) (vs : List (ℕ → F)) (old out : ℕ → F) : Prop :=
  if op.shaderName = "swiglu_f32" then
    Runs old ((Swiglu.dispatch (.ofPc op.pushConstants) op.workgroups).map
      (Swiglu.Access.store silu (vs.getD 0 0) (vs.getD 1 0))) out
  else
    LinearLeaves (op.shaderName, op.pushConstants, op.workgroups) (vs.getD 0 0) (vs.getD 1 0) old
      out

/-- The outputs after an op, with its barrier if it has one. -/
def recorded (outs : List (Output F)) (out : ℕ → F) (barrierAfter : Bool) : List (Output F) :=
  (outs ++ [Output.mk out false]).map fun o => { o with visible := o.visible || barrierAfter }

/-- The outputs a batch can leave, whatever they held before. -/
def BatchRuns (silu : F → F) : List (Op F) → List (Output F) → List (Output F) → Prop
  | [], outs, outs' => outs' = outs
  | op :: ops, outs, outs' => ∃ vs old out, List.Forall₂ (Binding.Reads outs) op.bindings vs ∧
      op.Leaves silu vs old out ∧ BatchRuns silu ops (recorded outs out op.barrierAfter) outs'

/-- The rows of a weight. -/
def matrix (n k : ℕ) (values : List F) : List (List F) :=
  (List.range n).map (rowAt (fun i => values.getD i 0) k)

/-- The rows of a product: `x W^T`, and the bias. -/
def linearRows (t n k : ℕ) (x values : List F) (bias : Option (List F)) : List (List F) :=
  (List.range t).map
    (Parallel.linear (rowAt (fun i => x.getD i 0) k) (matrix n k values) bias)

/-- The rows a product can leave. -/
def Product.Leaves (silu : F → F) (t n : ℕ) : Product F → List (List F) → Prop
  | .executeBatch ops, rows => ∃ outs last, BatchRuns silu ops [] outs ∧
      outs.getLast? = some last ∧ rows = (List.range t).map (rowAt last.data n)
  | .functionalLinear k x weight, rows => rows = linearRows t n k x weight none

/-- The end of a call: the bias, and the shape of `x`. -/
def Work.finish (work : Work F) (rows : List (List F)) : Py (VllmVulkan.Tensor F) :=
  let result := (rows.map fun row => Parallel.addRow row work.bias).flatten
  let shape := work.origShape.dropLast ++ [work.outFeat]
  if h : result.length = shape.prod then .ok ⟨shape, result, h⟩
  else .error (.runtimeError s!"shape '{shape}' is invalid for input of size {result.length}")

/-- The call can return `r`. -/
def Work.Returns (silu : F → F) (work : Work F) (r : Py (VllmVulkan.Tensor F)) : Prop :=
  ∃ rows, work.product.Leaves silu work.t work.outFeat rows ∧ r = work.finish rows

end Runs

/-! ### What the caches answer -/

section Answers

variable [Half F] {ctx : Ctx} {weights : ℕ → Tensor F} {st : State F}

/-- Every storage holds one weight; a buffer is asked for as the decision says. -/
def Asks (weights : ℕ → Tensor F) : ∀ {β : Type}, Ask F β → Prop
  | _, .getContext => True
  | _, .availableShaders => True
  | _, .usesF16 w => weights w.storage = w
  | _, .upload w preferF16 _ => weights w.storage = w ∧ preferF16 = true
  | _, .float32Cpu w => weights w.storage = w

/-- The buffer of a weight. -/
def gpuBuffer (ctx : Ctx) (w : Tensor F) : Buffer F :=
  w.toBytes (elemOf (f16Decision ctx.shaders w))

/-- An answer that only the weight and the shaders decide. -/
def Answers (ctx : Ctx) : ∀ {β : Type}, Ask F β → β → Prop
  | _, .getContext, _ => True
  | _, .availableShaders, available => available = ctx.shaders
  | _, .usesF16 w, useF16 => useF16 = f16Decision ctx.shaders w
  | _, .upload w _ _, gpu => ∀ buffer, gpu = some buffer → buffer = gpuBuffer ctx w
  | _, .float32Cpu w, copy => copy = w.elements

/-- What the storages are taken to hold. -/
def heldOf (ctx : Ctx) (weights : ℕ → Tensor F) : Held F where
  buffer s := gpuBuffer ctx (weights s)
  copy s := (weights s).elements
  decision s := f16Decision ctx.shaders (weights s)

theorem gpuBuffer_elem (ctx : Ctx) (w : Tensor F) :
    (gpuBuffer ctx w).elem = elemOf (f16Decision ctx.shaders w) := by
  unfold gpuBuffer Tensor.toBytes
  split <;> simp_all

theorem agrees_of_asks {β : Type} {c : Ask F β} (h : Asks weights c) (st : State F)
    (r : Option β) : Agrees ctx (heldOf ctx weights) ⟨c, st, r⟩ := by
  cases c with
  | getContext => trivial
  | availableShaders => trivial
  | usesF16 w => exact congrArg (f16Decision ctx.shaders) (Eq.symm h)
  | float32Cpu w => exact fun _ => congrArg Tensor.elements (Eq.symm h)
  | upload w preferF16 fails =>
    obtain ⟨hw, rfl⟩ := h
    have hbuffer : (heldOf ctx weights).buffer w.storage = gpuBuffer ctx w :=
      congrArg (gpuBuffer ctx) hw
    have hdecision : f16Decision ctx.shaders w = (heldOf ctx weights).decision w.storage :=
      congrArg (f16Decision ctx.shaders) hw.symm
    refine ⟨fun _ => ?_, fun _ => ⟨fun _ => hdecision, fun _ => ?_⟩⟩
    · rw [hbuffer, gpuBuffer_elem]
      rfl
    · rw [hbuffer, gpuBuffer_elem, Bool.true_and]

theorem getOrUploadWeight_cached {w : Tensor F} {preferF16 fails : Bool} {buffer : Buffer F}
    (h : (getOrUploadWeight st ctx w preferF16 fails).2 = some buffer) :
    (getOrUploadWeight st ctx w preferF16 fails).1.weightCache w.storage = some buffer := by
  unfold getOrUploadWeight at h ⊢
  cases hc : st.weightCache w.storage with
  | some cached =>
    simp only [hc] at h ⊢
    exact h
  | none =>
    simp only [hc] at h ⊢
    cases fails with
    | true => cases h
    | false => simpa using h

/-- **An answer**, in a state that holds the weights. -/
theorem exec_spec {β : Type} (c : Ask F β) (h : Holds ctx (heldOf ctx weights) st)
    (hasks : Asks weights c) : ∃ b st', caches.exec c st = (some b, st') ∧ Answers ctx c b ∧
      Holds ctx (heldOf ctx weights) st' := by
  obtain ⟨hholds, -⟩ := h.exec c (agrees_of_asks hasks st _)
  cases c with
  | getContext =>
    exact ⟨_, _, exec_getContext h.installed, trivial, h⟩
  | availableShaders =>
    rw [exec_availableShaders h.installed] at hholds ⊢
    exact ⟨_, _, rfl, h.cachedAvailableShaders.2, hholds⟩
  | usesF16 w =>
    rw [exec_usesF16 h.installed] at hholds ⊢
    exact ⟨_, _, rfl, (h.weightUsesF16 (agrees_of_asks hasks st none)).2, hholds⟩
  | upload w preferF16 fails =>
    rw [exec_upload h.installed] at hholds ⊢
    refine ⟨_, _, rfl, fun buffer hbuffer => ?_, hholds⟩
    -- what is returned was put in the cache, which holds the weights
    rw [hholds.buffer _ _ (getOrUploadWeight_cached hbuffer)]
    exact congrArg (gpuBuffer ctx) hasks.1
  | float32Cpu w =>
    rw [exec_float32Cpu w h.installed] at hholds ⊢
    exact ⟨_, _, rfl, (h.getOrConvertToFloat32Cpu (agrees_of_asks hasks st none)).2, hholds⟩

end Answers

/-! ### What a call does -/

section Ensures

variable [Half F] {ctx : Ctx} {weights : ℕ → Tensor F}

/-- The op of a linear layer. -/
def linearOp (ctx : Ctx) (x : List F) (t : ℕ) (w : Tensor F)
    (r : String × List (PcWord F) × (ℕ × ℕ × ℕ)) : Op F where
  shaderName := r.1
  bindings := [.weight (gpuBuffer ctx w), .activation x]
  outputSize := t * w.outFeat * 4
  pushConstants := r.2.1
  workgroups := r.2.2
  barrierAfter := false

/-- `linear` dispatches. -/
def Dispatches (ctx : Ctx) (t : ℕ) (w : Tensor F) : Prop :=
  w.inFeat * w.outFeat ≥ matvecMinWeightElements ∧
    if t < matvecThreshold then "mul_mat_vec_f32_f32_f32" ∈ ctx.shaders
    else "matmul_f32_f32" ∈ ctx.shaders

instance (ctx : Ctx) (t : ℕ) (w : Tensor F) : Decidable (Dispatches ctx t w) := by
  unfold Dispatches
  infer_instance

/-- The product of `linear`, without the caches. -/
def linearProduct (ctx : Ctx) (x : List F) (t : ℕ) (w : Tensor F) : Py (Product F) :=
  if Dispatches ctx t w then do
    let r ← mlpLinear t (f16Decision ctx.shaders w) w.inFeat w.outFeat
    return .executeBatch [linearOp ctx x t w r]
  else return .functionalLinear w.inFeat x w.elements

/-- `linear` without the caches. -/
def linearWork (ctx : Ctx) (x : VllmVulkan.Tensor F) (w : Tensor F) (bias : Option (List F)) :
    Py (Work F) := do
  let t ← reshapeRows x.data w.inFeat
  let product ← linearProduct ctx x.data t w
  return ⟨product, t, w.outFeat, bias, x.shape⟩

theorem orRaise_ensures {α β : Type} {r : Py α} {next : α → Prog (Ask F) (Py β)} {next' : α → Py β}
    (h : ∀ a, r = .ok a → (next a).Ensures (Asks weights) (Answers ctx) (· = next' a)) :
    (orRaise r next).Ensures (Asks weights) (Answers ctx) (· = r >>= next') := by
  cases r with
  | error e => exact rfl
  | ok a => exact h a rfl

theorem gpu_getD {w : Tensor F} {gpu : Option (Buffer F)}
    (hgpu : ∀ buffer, gpu = some buffer → buffer = gpuBuffer ctx w) :
    gpu.getD (w.toBytes (elemOf (f16Decision ctx.shaders w))) = gpuBuffer ctx w := by
  cases gpu with
  | some buffer => exact hgpu buffer rfl
  | none => rfl

theorem vulkanMatvec_ensures {x : List F} {t : ℕ} {w : Tensor F} {fails : Bool}
    (hw : weights w.storage = w) (ht : t < matvecThreshold) :
    (vulkanMatvec x t w.inFeat w fails).Ensures (Asks weights) (Answers ctx) (· = do
      let r ← mlpLinear t (f16Decision ctx.shaders w) w.inFeat w.outFeat
      return .executeBatch [linearOp ctx x t w r]) := by
  refine .perform_bind hw fun useF16 huse => .perform_bind ⟨hw, rfl⟩ fun gpu hgpu => ?_
  obtain rfl : useF16 = f16Decision ctx.shaders w := huse
  rw [gpu_getD hgpu, mlpLinear, if_pos ht]
  simp only [mlpShader, if_pos ht]
  cases matvecPc t w.inFeat w.outFeat with
  | error e => exact rfl
  | ok pc => exact rfl

theorem vulkanMatmul_ensures {x : List F} {t : ℕ} {w : Tensor F} {fails : Bool}
    (hw : weights w.storage = w) (ht : ¬ t < matvecThreshold) :
    (vulkanMatmul x t w.inFeat w fails).Ensures (Asks weights) (Answers ctx) (· = do
      let r ← mlpLinear t (f16Decision ctx.shaders w) w.inFeat w.outFeat
      return .executeBatch [linearOp ctx x t w r]) := by
  refine .perform_bind hw fun useF16 huse => .perform_bind ⟨hw, rfl⟩ fun gpu hgpu => ?_
  obtain rfl : useF16 = f16Decision ctx.shaders w := huse
  rw [gpu_getD hgpu, mlpLinear, if_neg ht]
  simp only [mlpShader, if_neg ht]
  cases matmulPc w.outFeat t w.inFeat with
  | error e => exact rfl
  | ok pc => exact rfl

theorem product_ensures {x : List F} {t : ℕ} {w : Tensor F} {fails : Bool}
    (hw : weights w.storage = w) :
    (product ctx.shaders x t w fails).Ensures (Asks weights) (Answers ctx)
      (· = linearProduct ctx x t w) := by
  unfold product linearProduct Dispatches
  by_cases ht : t < matvecThreshold
  · simp only [ht, if_true, true_and, ge_iff_le, Nat.not_le.2 ht, false_and, and_false, if_false]
    split_ifs
    · exact vulkanMatvec_ensures hw ht
    · exact .perform_bind hw fun copy hcopy => congrArg (fun c => Except.ok
        (Product.functionalLinear w.inFeat x c)) hcopy
  · simp only [ht, if_false, false_and, and_false, ge_iff_le, Nat.not_lt.1 ht, true_and]
    split_ifs
    · exact vulkanMatmul_ensures hw ht
    · exact .perform_bind hw fun copy hcopy => congrArg (fun c => Except.ok
        (Product.functionalLinear w.inFeat x c)) hcopy

/-- **`linear`** does what it does without the caches. -/
theorem linear_ensures {x : VllmVulkan.Tensor F} {w : Tensor F} {bias : Option (List F)}
    {fails : Bool} (hw : weights w.storage = w) :
    (linear x w bias fails).Ensures (Asks weights) (Answers ctx) (· = linearWork ctx x w bias) := by
  refine .perform_bind trivial fun _ _ => orRaise_ensures fun t _ => .perform_bind trivial ?_
  rintro _ rfl
  refine (product_ensures hw).bind ?_
  rintro _ rfl
  exact orRaise_ensures fun _ _ => rfl

variable [Field F]

/-- The ops of a fused MLP. -/
def mlpOps (ctx : Ctx) (x : List F) (t : ℕ) (gateUp down : Tensor F)
    (r s : String × List (PcWord F) × (ℕ × ℕ × ℕ)) (swigluPc : List (PcWord F)) : List (Op F) := [
  { linearOp ctx x t gateUp r with barrierAfter := true },
  { shaderName := "swiglu_f32"
    bindings := [.output 0, .output 0]
    outputSize := t * (gateUp.outFeat / 2) * 4
    pushConstants := swigluPc
    workgroups := (wg512 (t * (gateUp.outFeat / 2)), 1, 1)
    barrierAfter := true },
  { linearOp ctx x t down s with bindings := [.weight (gpuBuffer ctx down), .output 1] }]

/-- `fused_swiglu_mlp` without the caches. -/
def fusedWork (ctx : Ctx) (x : VllmVulkan.Tensor F) (gateUp down : Tensor F) : Py (Work F) := do
  let t ← reshapeRows x.data gateUp.inFeat
  raiseIf (gateUp.inFeat * gateUp.outFeat < matvecMinWeightElements ∨
      gateUp.outFeat / 2 * down.outFeat < matvecMinWeightElements)
    (.fusedMlpUnavailable "weight(s) too small to be GPU-eligible")
  raiseIf ("swiglu_f32" ∉ ctx.shaders) (.fusedMlpUnavailable "swiglu_f32 not compiled")
  let r ← mlpLinear t (f16Decision ctx.shaders gateUp) gateUp.inFeat gateUp.outFeat
  let s ← mlpLinear t (f16Decision ctx.shaders down) (gateUp.outFeat / 2) down.outFeat
  raiseIf (r.1 ∉ ctx.shaders ∨ s.1 ∉ ctx.shaders)
    (.fusedMlpUnavailable ("required matmul/matvec shader(s) not compiled: " ++
      s!"{r.1}, {s.1}"))
  let pc ← swigluPc t gateUp.outFeat (gateUp.outFeat / 2)
  return ⟨.executeBatch (mlpOps ctx x.data t gateUp down r s pc), t, down.outFeat, none, x.shape⟩

/-- **`fused_swiglu_mlp`** does what it does without the caches. -/
theorem fusedSwigluMlp_ensures {x : VllmVulkan.Tensor F} {gateUp down : Tensor F}
    {gateUpFails downFails : Bool} (hgateUp : weights gateUp.storage = gateUp)
    (hdown : weights down.storage = down) :
    (fusedSwigluMlp x gateUp down gateUpFails downFails).Ensures (Asks weights) (Answers ctx)
      (· = fusedWork ctx x gateUp down) := by
  refine .perform_bind trivial fun _ _ => orRaise_ensures fun t _ =>
    orRaise_ensures fun _ _ => .perform_bind trivial ?_
  rintro _ rfl
  refine orRaise_ensures fun _ _ => .perform_bind hgateUp fun useF16GateUp huse =>
    .perform_bind hdown fun useF16Down huse' => ?_
  obtain rfl : useF16GateUp = f16Decision ctx.shaders gateUp := huse
  obtain rfl : useF16Down = f16Decision ctx.shaders down := huse'
  refine orRaise_ensures ?_
  rintro ⟨shaderGateUp, pcGateUp, wgGateUp⟩ -
  refine orRaise_ensures ?_
  rintro ⟨shaderDown, pcDown, wgDown⟩ -
  refine orRaise_ensures fun _ _ => .perform_bind ⟨hgateUp, rfl⟩ fun gpu hgpu =>
    .perform_bind ⟨hdown, rfl⟩ fun gpu' hgpu' => orRaise_ensures fun pc _ => ?_
  rw [gpu_getD hgpu, gpu_getD hgpu']
  exact rfl

end Ensures

end Layer

end Contents

end VllmVulkan
