import VllmVulkan.Lib.Sessions
import VllmVulkan.Weights.Cache
import Mathlib.Algebra.Group.Nat.Defs
import Mathlib.Algebra.Ring.Int.Defs

/-!
# What the weight caches hold

The calls of `vulkan_ops` on weights, with the elements of the weights.  A weight is a view of a
storage, and every cache is keyed on the storage.  A call is a program that asks the caches.

* `Tensor`, `Buffer` : weights, and the bytes they are converted to;
* `Ask`, `caches` : what a call asks, and how the caches answer it;
* `linear`, `rmsNormThenLinear`, `fusedSwigluMlp` : the calls, with the operands they use;
* `Settled` : the first tensor that fills an entry has the contents of all that it is answered for;
* `caches_answer_own` : **then every weight is used with its own elements**;
* `view_answered_with_other` : two views of one storage.
-/

namespace VllmVulkan

namespace Contents

open Machine Panics Sessions Weights

variable {K : Type}

/-! ### Weights -/

/-- The float16 format. -/
class Half (K : Type) where
  /-- The value of `half()`, where it is finite. -/
  round : K → K
  /-- `isfinite` of `half()`. -/
  isFinite : K → Bool

inductive Dtype where
  | float32
  | float16
  | bfloat16
  deriving DecidableEq, Repr

/-- A weight: a view of a storage. -/
structure Tensor (K : Type) where
  /-- `id(w.untyped_storage())`. -/
  storage : ℕ
  dtype : Dtype
  shape : List ℕ
  /-- The elements of the view, row by row. -/
  elements : List K
  length_elements : elements.length = shape.prod
  deriving DecidableEq, Repr

/-- `shape[0]`. -/
def Tensor.outFeat (w : Tensor K) : ℕ := w.shape.getD 0 0

/-- `shape[1]`. -/
def Tensor.inFeat (w : Tensor K) : ℕ := w.shape.getD 1 0

/-- Bytes: elements in one of the two formats. -/
structure Buffer (K : Type) where
  elem : Elem
  values : List K
  deriving DecidableEq, Repr

section Half

variable [Half K]

/-- `_weight_safe_for_f16`. -/
def weightSafeForF16 (w : Tensor K) : Bool := w.elements.all Half.isFinite

/-- `_to_bytes(w.half())` or `_to_bytes(w.float())`. -/
def Tensor.toBytes (w : Tensor K) : Elem → Buffer K
  | .f16 => ⟨.f16, w.elements.map Half.round⟩
  | .f32 => ⟨.f32, w.elements⟩

/-! ### The caches -/

/-- The globals of `vulkan_ops`. -/
structure State (K : Type) where
  /-- `_ctx`. -/
  ctx : Option Ctx
  /-- `_available_shaders_cache`. -/
  availableShadersCache : Option (List String)
  /-- `_weight_cache`. -/
  weightCache : ℕ → Option (Buffer K)
  /-- `_cpu_float32_cache`. -/
  cpuFloat32Cache : ℕ → Option (List K)
  /-- `_weight_f16_decision_cache`. -/
  weightF16DecisionCache : ℕ → Option Bool

/-- The globals when `ctx` was just installed. -/
def State.init (ctx : Ctx) : State K :=
  ⟨some ctx, none, fun _ => none, fun _ => none, fun _ => none⟩

/-- `_cached_available_shaders`. -/
def cachedAvailableShaders (st : State K) (ctx : Ctx) : State K × List String :=
  match st.availableShadersCache with
  | some shaders => (st, shaders)
  | none => ({ st with availableShadersCache := some ctx.shaders }, ctx.shaders)

/-- The decision for a weight, with the shaders that are available. -/
def f16Decision (availableShaders : List String) (w : Tensor K) : Bool :=
  decide ("mul_mat_vec_f16_f32_f32" ∈ availableShaders) &&
    decide ("matmul_f16_f32_fp32" ∈ availableShaders) && weightSafeForF16 w

/-- `_weight_uses_f16`. -/
def weightUsesF16 (st : State K) (ctx : Ctx) (w : Tensor K) : State K × Bool :=
  match st.weightF16DecisionCache w.storage with
  | some cached => (st, cached)
  | none =>
    let available := cachedAvailableShaders st ctx
    let decision := f16Decision available.2 w
    let st := available.1
    ({ st with
        weightF16DecisionCache :=
          Function.update st.weightF16DecisionCache w.storage (some decision) }, decision)

/-- `_get_or_upload_weight`. -/
def getOrUploadWeight (st : State K) (ctx : Ctx) (w : Tensor K) (preferF16 uploadFails : Bool) :
    State K × Option (Buffer K) :=
  match st.weightCache w.storage with
  | some cached => (st, some cached)
  | none =>
    let decided := if preferF16 then weightUsesF16 st ctx w else (st, false)
    let st := decided.1
    if uploadFails then (st, none)
    else
      let gpu := w.toBytes (elemOf decided.2)
      ({ st with weightCache := Function.update st.weightCache w.storage (some gpu) }, some gpu)

/-- `_get_or_convert_to_float32_cpu`. -/
def getOrConvertToFloat32Cpu (st : State K) (w : Tensor K) : State K × List K :=
  if w.dtype = .float32 then (st, w.elements)
  else
    match st.cpuFloat32Cache w.storage with
    | some cached => (st, cached)
    | none =>
      ({ st with
          cpuFloat32Cache := Function.update st.cpuFloat32Cache w.storage (some w.elements) },
        w.elements)

/-- What a call asks, of the installed context. -/
inductive Ask (K : Type) : Type → Type where
  | getContext : Ask K Unit
  | availableShaders : Ask K (List String)
  | usesF16 (w : Tensor K) : Ask K Bool
  | upload (w : Tensor K) (preferF16 uploadFails : Bool) : Ask K (Option (Buffer K))
  | float32Cpu (w : Tensor K) : Ask K (List K)

/-- With the installed context; `get_context` raises when there is none. -/
def withContext {β : Type} (f : State K → Ctx → State K × β) : Panics (State K) β := fun st =>
  match st.ctx with
  | none => (none, st)
  | some ctx => (some (f st ctx).2, (f st ctx).1)

/-- The caches, which answer. -/
def caches : Object (State K) (Ask K) where
  exec
    | .getContext => withContext fun st _ => (st, ())
    | .availableShaders => withContext cachedAvailableShaders
    | .usesF16 w => withContext fun st ctx => weightUsesF16 st ctx w
    | .upload w preferF16 uploadFails =>
      withContext fun st ctx => getOrUploadWeight st ctx w preferF16 uploadFails
    | .float32Cpu w => withContext fun st _ => getOrConvertToFloat32Cpu st w
  isReset _ := false

/-! ### The calls -/

/-- A weight as an operand. -/
inductive Operand (K : Type) where
  /-- The bytes bound to a dispatch. -/
  | gpu (shader : String) (w : Tensor K) (bound : Buffer K)
  /-- The float32 copy in a product on the CPU. -/
  | cpu (w : Tensor K) (copy : List K)

/-- `_vulkan_matvec` and `_vulkan_matmul`, which differ in their shaders. -/
def vulkanLinear (f16Shader f32Shader : String) (w : Tensor K) (uploadFails : Bool) :
    Prog (Ask K) (List (Operand K)) := do
  let useF16 ← .perform (.usesF16 w)
  let gpu ← .perform (.upload w true uploadFails)
  let shader := if useF16 then f16Shader else f32Shader
  pure [.gpu shader w (gpu.getD (w.toBytes (elemOf useF16)))]

/-- `_vulkan_matvec`. -/
def vulkanMatvec : Tensor K → Bool → Prog (Ask K) (List (Operand K)) :=
  vulkanLinear "mul_mat_vec_f16_f32_f32" "mul_mat_vec_f32_f32_f32"

/-- `_vulkan_matmul`. -/
def vulkanMatmul : Tensor K → Bool → Prog (Ask K) (List (Operand K)) :=
  vulkanLinear "matmul_f16_f32_fp32" "matmul_f32_f32"

/-- `linear`, on `t` rows. -/
def linear (t : ℕ) (w : Tensor K) (uploadFails : Bool) : Prog (Ask K) (List (Operand K)) := do
  .perform .getContext
  let weightElements := w.inFeat * w.outFeat
  let available ← .perform .availableShaders
  if weightElements ≥ matvecMinWeightElements ∧ t < matvecThreshold ∧
      "mul_mat_vec_f32_f32_f32" ∈ available then
    vulkanMatvec w uploadFails
  else if weightElements ≥ matvecMinWeightElements ∧ t ≥ matvecThreshold ∧
      "matmul_f32_f32" ∈ available then
    vulkanMatmul w uploadFails
  else
    let copy ← .perform (.float32Cpu w)
    pure [.cpu w copy]

/-- `rms_norm_then_linear`, on `t` rows of `ncols` elements. -/
def rmsNormThenLinear [Zero K] (t ncols : ℕ) (normWeight linearWeight : Tensor K)
    (normFails linearFails : Bool) : Prog (Ask K) (List (Operand K)) := do
  .perform .getContext
  let available ← .perform .availableShaders
  if t ≥ matvecThreshold ∨ "rms_norm_f32_mul" ∉ available ∨
      "mul_mat_vec_f32_f32_f32" ∉ available then
    let operands ← linear t linearWeight linearFails
    pure (.cpu normWeight normWeight.elements :: operands)
  else
    let normGpu ← .perform (.upload normWeight false normFails)
    let linGpu ← .perform (.upload linearWeight false linearFails)
    -- the fallback for the norm is `bytes(ncols * 4)`
    pure [.gpu "rms_norm_f32_mul" normWeight (normGpu.getD ⟨.f32, List.replicate ncols 0⟩),
      .gpu "mul_mat_vec_f32_f32_f32" linearWeight (linGpu.getD (linearWeight.toBytes .f32))]

/-- `fused_swiglu_mlp`, on `t` rows. -/
def fusedSwigluMlp (t : ℕ) (gateUpWeight downWeight : Tensor K) (gateUpFails downFails : Bool) :
    Prog (Ask K) (Except Raised (List (Operand K))) := do
  .perform .getContext
  let hidden := gateUpWeight.inFeat
  let twoIntermediate := gateUpWeight.outFeat
  let intermediate := twoIntermediate / 2
  if hidden * twoIntermediate < matvecMinWeightElements ∨
      intermediate * downWeight.outFeat < matvecMinWeightElements then
    pure (.error (.fusedMlpUnavailable "weight(s) too small to be GPU-eligible"))
  else
    let available ← .perform .availableShaders
    if "swiglu_f32" ∉ available then
      pure (.error (.fusedMlpUnavailable "swiglu_f32 not compiled"))
    else
      let useF16GateUp ← .perform (.usesF16 gateUpWeight)
      let useF16Down ← .perform (.usesF16 downWeight)
      let shaderGateUp := mlpShader t useF16GateUp
      let shaderDown := mlpShader t useF16Down
      if shaderGateUp ∉ available ∨ shaderDown ∉ available then
        pure (.error (.fusedMlpUnavailable
          ("required matmul/matvec shader(s) not compiled: " ++ s!"{shaderGateUp}, {shaderDown}")))
      else
        let gateUpGpu ← .perform (.upload gateUpWeight true gateUpFails)
        let downGpu ← .perform (.upload downWeight true downFails)
        pure (.ok [
          .gpu shaderGateUp gateUpWeight
            (gateUpGpu.getD (gateUpWeight.toBytes (elemOf useF16GateUp))),
          .gpu shaderDown downWeight (downGpu.getD (downWeight.toBytes (elemOf useF16Down)))])

/-- The calls. -/
inductive Call (K : Type) where
  | linear (t : ℕ) (w : Tensor K) (uploadFails : Bool)
  | rmsNormThenLinear (t ncols : ℕ) (normWeight linearWeight : Tensor K)
    (normFails linearFails : Bool)
  | fusedSwigluMlp (t : ℕ) (gateUpWeight downWeight : Tensor K) (gateUpFails downFails : Bool)
  | weightUsesF16 (w : Tensor K)
  deriving DecidableEq, Repr

/-- What a call does: the operands it uses, or what it raises. -/
def Call.prog [Zero K] : Call K → Prog (Ask K) (Except Raised (List (Operand K)))
  | .linear t w fails => do
    let operands ← Contents.linear t w fails
    pure (.ok operands)
  | .rmsNormThenLinear t ncols norm lin normFails linFails => do
    let operands ← Contents.rmsNormThenLinear t ncols norm lin normFails linFails
    pure (.ok operands)
  | .fusedSwigluMlp t gateUp down gateUpFails downFails =>
    Contents.fusedSwigluMlp t gateUp down gateUpFails downFails
  | .weightUsesF16 w => do
    let _ ← .perform (.usesF16 w)
    pure (.ok [])

/-- One call; without a context it raises. -/
def step [Zero K] (st : State K) (call : Call K) :
    State K × Option (Except Raised (List (Operand K))) :=
  ((call.prog.run caches st).2, (call.prog.run caches st).1)

/-! ### Own elements -/

/-- An operand is made from the elements of its weight. -/
def Operand.Own : Operand K → Prop
  | .gpu _ w bound => bound = w.toBytes bound.elem
  | .cpu w copy => copy = w.elements

/-- The answer about a weight is computed from its own elements. -/
def AnswersOwn (ctx : Ctx) : ∀ {β : Type}, Ask K β → β → Prop
  | _, .usesF16 w, useF16 => useF16 = f16Decision ctx.shaders w
  | _, .upload w _ _, gpu => ∀ buffer, gpu = some buffer → buffer = w.toBytes buffer.elem
  | _, .float32Cpu w, copy => copy = w.elements
  | _, .getContext, _ => True
  | _, .availableShaders, _ => True

/-- What a storage is taken to hold. -/
structure Held (K : Type) where
  buffer : ℕ → Buffer K
  copy : ℕ → List K
  decision : ℕ → Bool

/-- What a call asks about a weight, in the state before, is what its storage is taken to hold: its
decision; its copy, unless it is float32 itself; its buffer, where there is one or the upload
succeeds. -/
def Agrees (ctx : Ctx) (held : Held K) : Made (State K) (Ask K) → Prop
  | { call := .usesF16 w, .. } => f16Decision ctx.shaders w = held.decision w.storage
  | { call := .float32Cpu w, .. } => w.dtype ≠ .float32 → w.elements = held.copy w.storage
  | { call := .upload w preferF16 uploadFails, pre := st, .. } =>
    (st.weightCache w.storage ≠ none ∨ uploadFails = false →
      w.toBytes (held.buffer w.storage).elem = held.buffer w.storage) ∧
    (st.weightCache w.storage = none →
      (preferF16 = true → f16Decision ctx.shaders w = held.decision w.storage) ∧
      (uploadFails = false →
        (held.buffer w.storage).elem = elemOf (preferF16 && f16Decision ctx.shaders w)))
  | _ => True

/-- In `rms_norm_then_linear` the norm gets its fallback: the chain is taken, and the upload of the
norm, which has no buffer, fails. -/
def NormFallback (st : State K) (ctx : Ctx) (t : ℕ) (normWeight : Tensor K) (normFails : Bool) :
    Prop :=
  t < matvecThreshold ∧ "rms_norm_f32_mul" ∈ (cachedAvailableShaders st ctx).2 ∧
    "mul_mat_vec_f32_f32_f32" ∈ (cachedAvailableShaders st ctx).2 ∧ normFails = true ∧
    st.weightCache normWeight.storage = none

/-- All that a call asks agrees with what the storages are taken to hold, and where the norm gets
its fallback it is zero. -/
def Settled [Zero K] (ctx : Ctx) (held : Held K) (st : State K) (call : Call K) : Prop :=
  (∀ e ∈ call.prog.calls caches st, Agrees ctx held e) ∧
    ∀ t ncols norm lin normFails linFails,
      call = .rmsNormThenLinear t ncols norm lin normFails linFails →
      NormFallback st ctx t norm normFails → norm.elements = List.replicate ncols 0

/-- The caches hold what the storages are taken to hold. -/
structure Holds (ctx : Ctx) (held : Held K) (st : State K) : Prop where
  installed : st.ctx = some ctx
  shaders : ∀ available, st.availableShadersCache = some available → available = ctx.shaders
  buffer : ∀ s b, st.weightCache s = some b → b = held.buffer s
  copy : ∀ s c, st.cpuFloat32Cache s = some c → c = held.copy s
  decision : ∀ s d, st.weightF16DecisionCache s = some d → d = held.decision s

variable {ctx : Ctx} {held : Held K} {st : State K} {w : Tensor K}

omit [Half K] in
theorem Holds.init (ctx : Ctx) (held : Held K) : Holds ctx held (.init ctx) :=
  ⟨rfl, by simp [State.init], by simp [State.init], by simp [State.init], by simp [State.init]⟩

omit [Half K] in
theorem Holds.cachedAvailableShaders (h : Holds ctx held st) :
    Holds ctx held (cachedAvailableShaders st ctx).1 ∧
      (cachedAvailableShaders st ctx).2 = ctx.shaders := by
  unfold Contents.cachedAvailableShaders
  cases hs : st.availableShadersCache with
  | some available => exact ⟨h, h.shaders _ hs⟩
  | none =>
    exact ⟨⟨h.installed, fun _ heq => (Option.some.inj heq).symm, h.buffer, h.copy, h.decision⟩,
      rfl⟩

omit [Half K] in
theorem holds_update {α : Type} {cache : ℕ → Option α} {value : ℕ → α} {k : ℕ}
    (h : ∀ s a, cache s = some a → a = value s) :
    ∀ s a, Function.update cache k (some (value k)) s = some a → a = value s := by
  intro s a hs
  by_cases hk : s = k
  · rw [hk, Function.update_self] at hs
    rw [hk, Option.some.inj hs]
  · rw [Function.update_of_ne hk] at hs
    exact h s a hs

/-- **A decision.** -/
theorem Holds.weightUsesF16 (h : Holds ctx held st)
    (hagrees : f16Decision ctx.shaders w = held.decision w.storage) :
    Holds ctx held (weightUsesF16 st ctx w).1 ∧
      (weightUsesF16 st ctx w).2 = f16Decision ctx.shaders w := by
  unfold Contents.weightUsesF16
  cases hd : st.weightF16DecisionCache w.storage with
  | some cached => exact ⟨h, (h.decision _ _ hd).trans hagrees.symm⟩
  | none =>
    obtain ⟨h', hshaders⟩ := h.cachedAvailableShaders
    dsimp only
    rw [hshaders, hagrees]
    exact ⟨⟨h'.installed, h'.shaders, h'.buffer, h'.copy, holds_update h'.decision⟩, rfl⟩

@[simp] theorem weightUsesF16_weightCache :
    (weightUsesF16 st ctx w).1.weightCache = st.weightCache := by
  unfold Contents.weightUsesF16 Contents.cachedAvailableShaders
  split
  · rfl
  · split <;> rfl

/-- **A buffer.** -/
theorem Holds.getOrUploadWeight {preferF16 fails : Bool} (h : Holds ctx held st)
    (hagrees : Agrees ctx held ⟨.upload w preferF16 fails, st, none⟩) :
    Holds ctx held (getOrUploadWeight st ctx w preferF16 fails).1 ∧
      ∀ buffer, (getOrUploadWeight st ctx w preferF16 fails).2 = some buffer →
        buffer = w.toBytes buffer.elem := by
  obtain ⟨hserved, hfilled⟩ := hagrees
  unfold Contents.getOrUploadWeight
  cases hc : st.weightCache w.storage with
  | some cached =>
    have hcached := h.buffer _ _ hc
    refine ⟨h, fun buffer heq => ?_⟩
    rw [← Option.some.inj heq, hcached]
    exact (hserved (.inl (by rw [hc]; exact Option.some_ne_none _))).symm
  | none =>
    obtain ⟨hdecision, helem⟩ := hfilled hc
    obtain ⟨hdecided, hvalue⟩ : Holds ctx held
        (if preferF16 then Contents.weightUsesF16 st ctx w else (st, false)).1 ∧
        (if preferF16 then Contents.weightUsesF16 st ctx w else (st, false)).2 =
          (preferF16 && f16Decision ctx.shaders w) := by
      cases preferF16 with
      | true => simpa using h.weightUsesF16 (hdecision rfl)
      | false => exact ⟨h, rfl⟩
    dsimp only
    split
    · exact ⟨hdecided, fun _ heq => nomatch heq⟩
    · rename_i hfails
      have hgpu := hserved (.inr (Bool.eq_false_iff.2 hfails))
      rw [hvalue, ← helem (Bool.eq_false_iff.2 hfails)]
      refine ⟨⟨hdecided.installed, hdecided.shaders, ?_, hdecided.copy, hdecided.decision⟩,
        fun buffer heq => ?_⟩
      · rw [hgpu]
        exact holds_update hdecided.buffer
      · rw [← Option.some.inj heq, hgpu]
        exact hgpu.symm

omit [Half K] in
theorem Holds.getOrConvertToFloat32Cpu (h : Holds ctx held st)
    (hagrees : w.dtype ≠ .float32 → w.elements = held.copy w.storage) :
    Holds ctx held (getOrConvertToFloat32Cpu st w).1 ∧
      (getOrConvertToFloat32Cpu st w).2 = w.elements := by
  unfold Contents.getOrConvertToFloat32Cpu
  split
  · exact ⟨h, rfl⟩
  · rename_i hdtype
    cases hc : st.cpuFloat32Cache w.storage with
    | some cached => exact ⟨h, (h.copy _ _ hc).trans (hagrees hdtype).symm⟩
    | none =>
      dsimp only
      rw [hagrees hdtype]
      exact ⟨⟨h.installed, h.shaders, h.buffer, holds_update h.copy, h.decision⟩, rfl⟩

/-- **An answer.** -/
theorem Holds.exec {β : Type} (c : Ask K β) (h : Holds ctx held st)
    (hagrees : Agrees ctx held ⟨c, st, (caches.exec c st).1⟩) :
    Holds ctx held (caches.exec c st).2 ∧
      ∀ b, (caches.exec c st).1 = some b → AnswersOwn ctx c b := by
  cases c with
  | getContext =>
    simp only [caches, withContext, h.installed]
    exact ⟨h, fun _ _ => trivial⟩
  | availableShaders =>
    simp only [caches, withContext, h.installed]
    exact ⟨h.cachedAvailableShaders.1, fun _ _ => trivial⟩
  | usesF16 w =>
    obtain ⟨h', hvalue⟩ := h.weightUsesF16 hagrees
    simp only [caches, withContext, h.installed]
    refine ⟨h', fun b hb => ?_⟩
    rw [← Option.some.inj hb]
    exact hvalue
  | upload w preferF16 fails =>
    have hask : Agrees ctx held ⟨.upload w preferF16 fails, st, none⟩ := hagrees
    obtain ⟨h', hvalue⟩ := h.getOrUploadWeight hask
    simp only [caches, withContext, h.installed]
    refine ⟨h', fun b hb => ?_⟩
    rw [← Option.some.inj hb]
    exact hvalue
  | float32Cpu w =>
    obtain ⟨h', hvalue⟩ := h.getOrConvertToFloat32Cpu hagrees
    simp only [caches, withContext, h.installed]
    refine ⟨h', fun b hb => ?_⟩
    rw [← Option.some.inj hb]
    exact hvalue

/-! ### The operands of a call -/

/-- The operands a call uses are made from the elements of their weights. -/
def OperandsOwn (operands : List (Operand K)) : Prop := ∀ o ∈ operands, o.Own

theorem own_getD {shader : String} {gpu : Option (Buffer K)} {e : Elem}
    (h : ∀ buffer, gpu = some buffer → buffer = w.toBytes buffer.elem) :
    (Operand.gpu shader w (gpu.getD (w.toBytes e))).Own := by
  cases gpu with
  | some buffer => exact h buffer rfl
  | none => cases e <;> rfl

theorem vulkanLinear_own (f16Shader f32Shader : String) (w : Tensor K) (fails : Bool) :
    (vulkanLinear f16Shader f32Shader w fails).Yields (AnswersOwn ctx) OperandsOwn := by
  intro useF16 _ gpu hgpu o ho
  obtain rfl := List.mem_singleton.1 ho
  exact own_getD hgpu

theorem linear_own (t : ℕ) (w : Tensor K) (fails : Bool) :
    (linear t w fails).Yields (AnswersOwn ctx) OperandsOwn := by
  refine .perform_bind fun _ _ => .perform_bind fun available _ => ?_
  split_ifs
  · exact vulkanLinear_own _ _ w fails
  · exact vulkanLinear_own _ _ w fails
  · intro copy hcopy o ho
    obtain rfl := List.mem_singleton.1 ho
    exact hcopy

theorem fusedSwigluMlp_own (t : ℕ) (gateUp down : Tensor K) (gateUpFails downFails : Bool) :
    (fusedSwigluMlp t gateUp down gateUpFails downFails).Yields (AnswersOwn ctx)
      fun result => ∀ operands, result = .ok operands → OperandsOwn operands := by
  have herror : ∀ e, (pure (.error e) : Prog (Ask K) (Except Raised (List (Operand K)))).Yields
      (AnswersOwn ctx) fun result => ∀ operands, result = .ok operands → OperandsOwn operands :=
    fun _ _ h => nomatch h
  refine .perform_bind ?_
  intro _ _
  dsimp only
  split_ifs
  · exact herror _
  refine .perform_bind ?_
  intro available _
  split_ifs
  swap
  · exact herror _
  refine .perform_bind fun useF16GateUp _ => .perform_bind fun useF16Down _ => ?_
  split_ifs
  · exact herror _
  intro gateUpGpu hgateUp downGpu hdown operands h o ho
  cases h
  simp only [List.mem_cons, List.not_mem_nil, or_false] at ho
  rcases ho with rfl | rfl
  · exact own_getD hgateUp
  · exact own_getD hdown

/-! ### Where the norm gets its fallback -/

section Exec

variable (hctx : st.ctx = some ctx)
include hctx

theorem exec_getContext : caches.exec .getContext st = (some (), st) := by
  simp only [caches, withContext, hctx]

theorem exec_availableShaders : caches.exec .availableShaders st =
    (some (cachedAvailableShaders st ctx).2, (cachedAvailableShaders st ctx).1) := by
  simp only [caches, withContext, hctx]

theorem exec_usesF16 (w : Tensor K) : caches.exec (.usesF16 w) st =
    (some (weightUsesF16 st ctx w).2, (weightUsesF16 st ctx w).1) := by
  simp only [caches, withContext, hctx]

theorem exec_upload (w : Tensor K) (preferF16 fails : Bool) :
    caches.exec (.upload w preferF16 fails) st =
      (some (getOrUploadWeight st ctx w preferF16 fails).2,
        (getOrUploadWeight st ctx w preferF16 fails).1) := by
  simp only [caches, withContext, hctx]

end Exec

omit [Half K] in
@[simp] theorem cachedAvailableShaders_ctx : (cachedAvailableShaders st ctx).1.ctx = st.ctx := by
  unfold cachedAvailableShaders
  split <;> rfl

omit [Half K] in
@[simp] theorem cachedAvailableShaders_weightCache :
    (cachedAvailableShaders st ctx).1.weightCache = st.weightCache := by
  unfold cachedAvailableShaders
  split <;> rfl

@[simp] theorem weightUsesF16_ctx : (weightUsesF16 st ctx w).1.ctx = st.ctx := by
  unfold weightUsesF16
  split
  · rfl
  · exact cachedAvailableShaders_ctx

@[simp] theorem getOrUploadWeight_ctx {preferF16 fails : Bool} :
    (getOrUploadWeight st ctx w preferF16 fails).1.ctx = st.ctx := by
  unfold getOrUploadWeight
  cases st.weightCache w.storage with
  | some cached => rfl
  | none => cases preferF16 <;> cases fails <;> simp

theorem getOrUploadWeight_none {preferF16 fails : Bool}
    (h : (getOrUploadWeight st ctx w preferF16 fails).2 = none) :
    fails = true ∧ st.weightCache w.storage = none := by
  unfold getOrUploadWeight at h
  cases hc : st.weightCache w.storage with
  | some cached =>
    rw [hc] at h
    cases h
  | none =>
    rw [hc] at h
    cases fails with
    | true => exact ⟨rfl, rfl⟩
    | false => simp at h

variable [Zero K]

theorem rmsNormThenLinear_own {t ncols : ℕ} {norm lin : Tensor K} {normFails linFails : Bool}
    (hctx : st.ctx = some ctx)
    (hzero : NormFallback st ctx t norm normFails → norm.elements = List.replicate ncols 0)
    (hown : ∀ e ∈ (rmsNormThenLinear t ncols norm lin normFails linFails).calls caches st,
      ∀ b, e.value = some b → AnswersOwn ctx e.call b) {operands : List (Operand K)}
    (hrun : ((rmsNormThenLinear t ncols norm lin normFails linFails).run caches st).1 =
      some operands) : OperandsOwn operands := by
  have hctx₁ : (cachedAvailableShaders st ctx).1.ctx = some ctx := by
    rw [cachedAvailableShaders_ctx, hctx]
  unfold rmsNormThenLinear at hown hrun
  rw [Prog.run_perform_bind caches (exec_getContext hctx),
    Prog.run_perform_bind caches (exec_availableShaders hctx)] at hrun
  rw [Prog.forall_calls_perform_bind caches (exec_getContext hctx),
    Prog.forall_calls_perform_bind caches (exec_availableShaders hctx)] at hown
  obtain ⟨-, -, hown⟩ := hown
  split_ifs at hown hrun with hfallback
  · have hyields : (linear t lin linFails >>= fun operands =>
        pure (.cpu norm norm.elements :: operands) : Prog (Ask K) (List (Operand K))).Yields
        (AnswersOwn ctx) OperandsOwn :=
      (linear_own t lin linFails).bind fun operands h => List.forall_mem_cons.2 ⟨rfl, h⟩
    exact hyields.run hown hrun
  · simp only [not_or, not_not, ge_iff_le, Nat.not_le] at hfallback
    rw [Prog.run_perform_bind caches (exec_upload hctx₁ norm false normFails),
      Prog.run_perform_bind caches (exec_upload (getOrUploadWeight_ctx.trans hctx₁) lin false
        linFails)] at hrun
    rw [Prog.forall_calls_perform_bind caches (exec_upload hctx₁ norm false normFails),
      Prog.forall_calls_perform_bind caches (exec_upload (getOrUploadWeight_ctx.trans hctx₁) lin
        false linFails)] at hown
    obtain ⟨hnorm, hlin, -⟩ := hown
    cases hrun
    refine List.forall_mem_cons.2 ⟨?_, List.forall_mem_singleton.2 (own_getD (hlin _ rfl))⟩
    rcases hgpu : (getOrUploadWeight (cachedAvailableShaders st ctx).1 ctx norm false
      normFails).2 with _ | buffer
    · -- no buffer for the norm: zeros are bound, which then are its elements
      obtain ⟨hfails, hnone⟩ := getOrUploadWeight_none hgpu
      rw [cachedAvailableShaders_weightCache] at hnone
      have hzeros := hzero ⟨hfallback.1, hfallback.2.1, hfallback.2.2, hfails, hnone⟩
      simp only [Operand.Own, Option.getD_none, Tensor.toBytes, hzeros]
    · exact hnorm _ rfl buffer hgpu

/-! ### Runs -/

/-- Every weight is used with its own elements: the answers about it, and the operand made from
it. -/
def UsesOwn (ctx : Ctx) (τ : Transition (State K) (Call K)
    (Option (Except Raised (List (Operand K))))) : Prop :=
  (∀ e ∈ τ.input.prog.calls caches τ.pre, ∀ b, e.value = some b → AnswersOwn ctx e.call b) ∧
    ∀ operands, τ.output = some (.ok operands) → OperandsOwn operands

/-- **One call** that agrees with what the storages are taken to hold. -/
theorem Holds.step {call : Call K} (h : Holds ctx held st) (hsettled : Settled ctx held st call) :
    Holds ctx held (step st call).1 ∧
      UsesOwn ctx ⟨st, call, (step st call).1, (step st call).2⟩ := by
  have hcall : ∀ {β : Type} (c : Ask K β) (st : State K), Holds ctx held st →
      Agrees ctx held ⟨c, st, (caches.exec c st).1⟩ → Holds ctx held (caches.exec c st).2 ∧
      ∀ b, (caches.exec c st).1 = some b → AnswersOwn ctx c b :=
    fun c st h hagrees => h.exec c hagrees
  obtain ⟨hpost, hown⟩ := Prog.run_inv caches
    (P := fun e => ∀ b, e.value = some b → AnswersOwn ctx e.call b) hcall call.prog h hsettled.1
  refine ⟨hpost, hown, fun operands houtput => ?_⟩
  cases call with
  | linear t w fails =>
    have hyields : (linear t w fails).Yields (AnswersOwn ctx) OperandsOwn := linear_own t w fails
    rw [Call.prog, Prog.calls_bind_pure] at hown
    simp only [Contents.step, Call.prog, Prog.run_bind_pure] at houtput
    obtain ⟨operands', hrun, heq⟩ := Option.map_eq_some_iff.1 houtput
    cases heq
    exact hyields.run hown hrun
  | rmsNormThenLinear t ncols norm lin normFails linFails =>
    rw [Call.prog, Prog.calls_bind_pure] at hown
    simp only [Contents.step, Call.prog, Prog.run_bind_pure] at houtput
    obtain ⟨operands', hrun, heq⟩ := Option.map_eq_some_iff.1 houtput
    cases heq
    exact rmsNormThenLinear_own h.installed (hsettled.2 t ncols norm lin normFails linFails rfl)
      hown hrun
  | fusedSwigluMlp t gateUp down gateUpFails downFails =>
    exact (fusedSwigluMlp_own t gateUp down gateUpFails downFails).run hown houtput operands rfl
  | weightUsesF16 w =>
    have hyields : (Call.prog (.weightUsesF16 w)).Yields (AnswersOwn ctx)
        fun result => ∀ operands, result = .ok operands → OperandsOwn operands := by
      intro useF16 _ operands heq o ho
      cases heq
      cases ho
    exact hyields.run hown houtput operands rfl

/-- **Every weight is used with its own elements** in every run in which all that is asked about a
storage agrees. -/
theorem caches_answer_own (ctx : Ctx) (held : Held K) (calls : List (Call K))
    (hsettled : ∀ τ ∈ transitions step (.init ctx) calls, Settled ctx held τ.pre τ.input) :
    ∀ τ ∈ transitions step (.init ctx) calls, UsesOwn ctx τ := by
  have hstep : ∀ st call, Holds ctx held st → Settled ctx held st call →
      Holds ctx held (Contents.step st call).1 := fun st call h hs => (h.step hs).1
  exact forall_transitions hstep (fun st call h hs => (h.step hs).2) (.init ctx held) hsettled

end Half

/-! ### Two views -/

/-- A format that rounds nothing. -/
instance exactHalf : Half ℤ := ⟨id, fun _ => true⟩

/-- A bfloat16 weight of one element. -/
def oneElement (storage : ℕ) (a : ℤ) : Tensor ℤ := ⟨storage, .bfloat16, [1, 1], [a], rfl⟩

/-- Weights with storages of their own. -/
theorem caches_answer_own_oneElement : List.Forall (UsesOwn ⟨[]⟩)
    (transitions step (.init ⟨[]⟩)
      [.linear 1 (oneElement 0 3) false, .linear 1 (oneElement 1 4) false,
        .linear 8 (oneElement 0 3) false, .weightUsesF16 (oneElement 0 3)]) := by
  refine List.forall_iff_forall_mem.2 (caches_answer_own ⟨[]⟩
    ⟨fun s => ⟨.f32, [(s : ℤ) + 3]⟩, fun s => [(s : ℤ) + 3], fun _ => false⟩ _ ?_)
  simp only [transitions_cons, transitions_nil, List.forall_mem_cons]
  have hnorm : ∀ {st : State ℤ} {call : Call ℤ}, (∀ t ncols norm lin f f',
      call ≠ .rmsNormThenLinear t ncols norm lin f f') → ∀ t ncols norm lin f f',
      call = .rmsNormThenLinear t ncols norm lin f f' → NormFallback st ⟨[]⟩ t norm f →
      norm.elements = List.replicate ncols 0 :=
    fun h t ncols norm lin f f' heq => absurd heq (h t ncols norm lin f f')
  refine ⟨⟨?_, hnorm ?_⟩, ⟨?_, hnorm ?_⟩, ⟨?_, hnorm ?_⟩, ⟨?_, hnorm ?_⟩, fun _ h => nomatch h⟩
  · exact List.forall_mem_cons.2 ⟨trivial, List.forall_mem_cons.2 ⟨trivial,
      List.forall_mem_singleton.2 fun _ => rfl⟩⟩
  · exact fun _ _ _ _ _ _ h => nomatch h
  · exact List.forall_mem_cons.2 ⟨trivial, List.forall_mem_cons.2 ⟨trivial,
      List.forall_mem_singleton.2 fun _ => rfl⟩⟩
  · exact fun _ _ _ _ _ _ h => nomatch h
  · exact List.forall_mem_cons.2 ⟨trivial, List.forall_mem_cons.2 ⟨trivial,
      List.forall_mem_singleton.2 fun _ => rfl⟩⟩
  · exact fun _ _ _ _ _ _ h => nomatch h
  · exact List.forall_mem_singleton.2 rfl
  · exact fun _ _ _ _ _ _ h => nomatch h

/-- **Two views of one storage.**  The second one is multiplied with the elements of the first. -/
theorem view_answered_with_other : ¬ ∀ τ ∈ transitions step (.init ⟨[]⟩)
    [.linear 1 (oneElement 0 3) false, .linear 1 (oneElement 0 4) false], UsesOwn ⟨[]⟩ τ := by
  intro h
  have hown := (h _ (.tail _ (.head _))).2 _ rfl (.cpu (oneElement 0 4) [3]) (.head _)
  exact absurd (show ([3] : List ℤ) = [4] from hown) (by decide)

end Contents

end VllmVulkan
