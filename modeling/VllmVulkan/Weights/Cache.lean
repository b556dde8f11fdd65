import VllmVulkan.Lib.Machine
import Mathlib.Logic.Function.Basic
import Mathlib.Tactic.SplitIfs

/-!
# The weight caches of `vulkan_ops`

A weight is uploaded once, as f16 or as f32, and every dispatch on it picks an f16-weight or an
f32-weight shader.  The two are decided apart: the buffer by the call that uploads it, the shader by
a decision cached per weight and dropped with the context.  Both caches are keyed on the storage of
the weight.

* `weightUsesF16`, `getOrUploadWeight` : the decision and the upload;
* `linear`, `rmsNormThenLinear`, `fusedSwigluMlp`, `preUpload`, `setContext` : the calls;
* `uses` : the weights a call asks for, with the element type it asks for;
* `dispatches_match` : **the element type always matches the shader** in a run that asks for every
  weight with one element type;
* `f32_shader_on_f16_weight` : a run that does not.
-/

namespace VllmVulkan

namespace Weights

open Machine

/-- The element type of a weight buffer. -/
inductive Elem where
  | f16
  | f32
  deriving DecidableEq, Repr

/-- A weight, as far as the caches and the dispatches see it. -/
structure Weight where
  /-- `id(w.untyped_storage())`. -/
  storage : ℕ
  /-- `shape[0]`. -/
  outFeat : ℕ
  /-- `shape[1]`. -/
  inFeat : ℕ
  /-- `_weight_safe_for_f16`. -/
  safeForF16 : Bool
  deriving DecidableEq, Repr

/-- A context, by the shaders it compiled. -/
structure Ctx where
  shaders : List String
  deriving DecidableEq, Repr

/-- The globals of `vulkan_ops`. -/
structure State where
  /-- `_ctx`. -/
  ctx : Option Ctx
  /-- `_available_shaders_cache`. -/
  availableShadersCache : Option (List String)
  /-- `_weight_cache`: the element type the buffer of a storage was uploaded with. -/
  weightCache : ℕ → Option Elem
  /-- `_weight_f16_decision_cache`. -/
  weightF16DecisionCache : ℕ → Option Bool

/-- The globals after import. -/
def State.init : State := ⟨none, none, fun _ => none, fun _ => none⟩

/-- A dispatch on a weight: the shader, and the element type of the buffer bound to it. -/
structure Dispatch where
  shader : String
  storage : ℕ
  bound : Elem
  deriving DecidableEq, Repr

/-- The element type of the weights a shader reads. -/
def shaderElem (shader : String) : Elem :=
  if shader = "mul_mat_vec_f16_f32_f32" ∨ shader = "matmul_f16_f32_fp32" then .f16 else .f32

/-- The exceptions of the calls. -/
inductive Raised where
  | runtimeError (msg : String)
  | fusedMlpUnavailable (msg : String)
  deriving DecidableEq, Repr

/-- `_MATVEC_THRESHOLD`. -/
def matvecThreshold : ℕ := 4

/-- `_MATVEC_MIN_WEIGHT_ELEMENTS`. -/
def matvecMinWeightElements : ℕ := 1000000

/-! ### The caches -/

/-- `_cached_available_shaders`. -/
def cachedAvailableShaders (st : State) (ctx : Ctx) : State × List String :=
  match st.availableShadersCache with
  | some shaders => (st, shaders)
  | none => ({ st with availableShadersCache := some ctx.shaders }, ctx.shaders)

/-- `_weight_uses_f16`. -/
def weightUsesF16 (st : State) (ctx : Ctx) (w : Weight) : State × Bool :=
  match st.weightF16DecisionCache w.storage with
  | some cached => (st, cached)
  | none =>
    let available := cachedAvailableShaders st ctx
    let decision := decide ("mul_mat_vec_f16_f32_f32" ∈ available.2) &&
      decide ("matmul_f16_f32_fp32" ∈ available.2) && w.safeForF16
    let st := available.1
    ({ st with
        weightF16DecisionCache :=
          Function.update st.weightF16DecisionCache w.storage (some decision) }, decision)

/-- The element type of a decision. -/
def elemOf (useF16 : Bool) : Elem := if useF16 then .f16 else .f32

/-- `_get_or_upload_weight`: the element type of the buffer it returns, or `none` when the upload
fails. -/
def getOrUploadWeight (st : State) (ctx : Ctx) (w : Weight) (preferF16 uploadFails : Bool) :
    State × Option Elem :=
  match st.weightCache w.storage with
  | some cached => (st, some cached)
  | none =>
    let decided := if preferF16 then weightUsesF16 st ctx w else (st, false)
    let st := decided.1
    if uploadFails then (st, none)
    else
      ({ st with
          weightCache := Function.update st.weightCache w.storage (some (elemOf decided.2)) },
        some (elemOf decided.2))

/-! ### The calls -/

/-- `_vulkan_matvec` and `_vulkan_matmul`, which differ in their shaders: the weight falls back to
its bytes, converted as the decision says. -/
def vulkanLinear (f16Shader f32Shader : String) (st : State) (ctx : Ctx) (w : Weight)
    (uploadFails : Bool) : State × List Dispatch :=
  let decided := weightUsesF16 st ctx w
  let uploaded := getOrUploadWeight decided.1 ctx w true uploadFails
  (uploaded.1, [{
    shader := if decided.2 then f16Shader else f32Shader
    storage := w.storage
    bound := uploaded.2.getD (elemOf decided.2) }])

/-- `_vulkan_matvec`. -/
def vulkanMatvec : State → Ctx → Weight → Bool → State × List Dispatch :=
  vulkanLinear "mul_mat_vec_f16_f32_f32" "mul_mat_vec_f32_f32_f32"

/-- `_vulkan_matmul`. -/
def vulkanMatmul : State → Ctx → Weight → Bool → State × List Dispatch :=
  vulkanLinear "matmul_f16_f32_fp32" "matmul_f32_f32"

/-- `linear`, on `t` rows: the GPU dispatches it makes. -/
def linear (st : State) (t : ℕ) (w : Weight) (uploadFails : Bool) :
    State × Except Raised (List Dispatch) :=
  match st.ctx with
  | none => (st, .error (.runtimeError "VulkanContext not initialised."))
  | some ctx =>
    let weightElements := w.inFeat * w.outFeat
    let available := cachedAvailableShaders st ctx
    if weightElements ≥ matvecMinWeightElements ∧ t < matvecThreshold ∧
        "mul_mat_vec_f32_f32_f32" ∈ available.2 then
      let r := vulkanMatvec available.1 ctx w uploadFails
      (r.1, .ok r.2)
    else if weightElements ≥ matvecMinWeightElements ∧ t ≥ matvecThreshold ∧
        "matmul_f32_f32" ∈ available.2 then
      let r := vulkanMatmul available.1 ctx w uploadFails
      (r.1, .ok r.2)
    else (available.1, .ok [])

/-- `rms_norm_then_linear`, on `t` rows. -/
def rmsNormThenLinear (st : State) (t : ℕ) (normWeight linearWeight : Weight)
    (normFails linearFails : Bool) : State × Except Raised (List Dispatch) :=
  match st.ctx with
  | none => (st, .error (.runtimeError "VulkanContext not initialised."))
  | some ctx =>
    let available := cachedAvailableShaders st ctx
    if t ≥ matvecThreshold ∨ "rms_norm_f32_mul" ∉ available.2 ∨
        "mul_mat_vec_f32_f32_f32" ∉ available.2 then
      linear available.1 t linearWeight linearFails
    else
      let norm := getOrUploadWeight available.1 ctx normWeight false normFails
      let lin := getOrUploadWeight norm.1 ctx linearWeight false linearFails
      (lin.1, .ok [
        { shader := "rms_norm_f32_mul"
          storage := normWeight.storage
          bound := norm.2.getD .f32 },
        { shader := "mul_mat_vec_f32_f32_f32"
          storage := linearWeight.storage
          bound := lin.2.getD .f32 }])

/-- The shader of a linear in `fused_swiglu_mlp`, on `t` rows. -/
def mlpShader (t : ℕ) (useF16 : Bool) : String :=
  if t < matvecThreshold then
    if useF16 then "mul_mat_vec_f16_f32_f32" else "mul_mat_vec_f32_f32_f32"
  else if useF16 then "matmul_f16_f32_fp32" else "matmul_f32_f32"

/-- `fused_swiglu_mlp`, on `t` rows. -/
def fusedSwigluMlp (st : State) (t : ℕ) (gateUpWeight downWeight : Weight)
    (gateUpFails downFails : Bool) : State × Except Raised (List Dispatch) :=
  match st.ctx with
  | none => (st, .error (.runtimeError "VulkanContext not initialised."))
  | some ctx =>
    let hidden := gateUpWeight.inFeat
    let twoIntermediate := gateUpWeight.outFeat
    let intermediate := twoIntermediate / 2
    if hidden * twoIntermediate < matvecMinWeightElements ∨
        intermediate * downWeight.outFeat < matvecMinWeightElements then
      (st, .error (.fusedMlpUnavailable "weight(s) too small to be GPU-eligible"))
    else
      let available := cachedAvailableShaders st ctx
      if "swiglu_f32" ∉ available.2 then
        (available.1, .error (.fusedMlpUnavailable "swiglu_f32 not compiled"))
      else
        let gateUpF16 := weightUsesF16 available.1 ctx gateUpWeight
        let downF16 := weightUsesF16 gateUpF16.1 ctx downWeight
        let shaderGateUp := mlpShader t gateUpF16.2
        let shaderDown := mlpShader t downF16.2
        if shaderGateUp ∉ available.2 ∨ shaderDown ∉ available.2 then
          (downF16.1, .error (.fusedMlpUnavailable
            ("required matmul/matvec shader(s) not compiled: " ++
              s!"{shaderGateUp}, {shaderDown}")))
        else
          let gateUp := getOrUploadWeight downF16.1 ctx gateUpWeight true gateUpFails
          let down := getOrUploadWeight gateUp.1 ctx downWeight true downFails
          (down.1, .ok [
            { shader := shaderGateUp
              storage := gateUpWeight.storage
              bound := gateUp.2.getD (elemOf gateUpF16.2) },
            { shader := shaderDown
              storage := downWeight.storage
              bound := down.2.getD (elemOf downF16.2) }])

/-- The pre-upload of one parameter in `_apply_module_hooks`. -/
def preUpload (st : State) (w : Weight) (uploadFails : Bool) :
    State × Except Raised (List Dispatch) :=
  match st.ctx with
  | none => (st, .error (.runtimeError "VulkanContext not initialised."))
  | some ctx =>
    if w.inFeat * w.outFeat > 0 then ((getOrUploadWeight st ctx w true uploadFails).1, .ok [])
    else (st, .ok [])

/-- `set_context`; on a software renderer the context is dropped again. -/
def setContext (st : State) (ctx : Ctx) (software : Bool) : State where
  ctx := if software then none else some ctx
  availableShadersCache := none
  weightCache := st.weightCache
  weightF16DecisionCache := fun _ => none

/-- A call, with what the environment does to it. -/
inductive Call where
  | setContext (ctx : Ctx) (software : Bool)
  | preUpload (w : Weight) (uploadFails : Bool)
  | linear (t : ℕ) (w : Weight) (uploadFails : Bool)
  | rmsNormThenLinear (t : ℕ) (normWeight linearWeight : Weight) (normFails linearFails : Bool)
  | fusedSwigluMlp (t : ℕ) (gateUpWeight downWeight : Weight) (gateUpFails downFails : Bool)
  deriving DecidableEq, Repr

/-- One call. -/
def step (st : State) : Call → State × Except Raised (List Dispatch)
  | .setContext ctx software => (setContext st ctx software, .ok [])
  | .preUpload w fails => preUpload st w fails
  | .linear t w fails => linear st t w fails
  | .rmsNormThenLinear t norm lin normFails linFails =>
    rmsNormThenLinear st t norm lin normFails linFails
  | .fusedSwigluMlp t gateUp down gateUpFails downFails =>
    fusedSwigluMlp st t gateUp down gateUpFails downFails

/-! ### What a call asks for -/

/-- The element type a call asks for, in the state before it: f16 where it prefers f16 and the
decision for the weight is f16. -/
def want (st : State) (ctx : Ctx) (w : Weight) (preferF16 : Bool) : Elem :=
  elemOf (preferF16 && (weightUsesF16 st ctx w).2)

/-- `linear` dispatches on the GPU. -/
def LinearDispatches (st : State) (ctx : Ctx) (t : ℕ) (w : Weight) : Prop :=
  w.inFeat * w.outFeat ≥ matvecMinWeightElements ∧
    if t < matvecThreshold then "mul_mat_vec_f32_f32_f32" ∈ (cachedAvailableShaders st ctx).2
    else "matmul_f32_f32" ∈ (cachedAvailableShaders st ctx).2

instance (st : State) (ctx : Ctx) (t : ℕ) (w : Weight) :
    Decidable (LinearDispatches st ctx t w) := by
  unfold LinearDispatches
  infer_instance

/-- A request for a buffer that gets one, with the element type it asks for. -/
def asked (st : State) (ctx : Ctx) (w : Weight) (preferF16 uploadFails : Bool) : List (ℕ × Elem) :=
  if (st.weightCache w.storage).isSome ∨ uploadFails = false then
    [(w.storage, want st ctx w preferF16)]
  else []

/-- The buffers `linear` asks for. -/
def linearUses (st : State) (ctx : Ctx) (t : ℕ) (w : Weight) (uploadFails : Bool) :
    List (ℕ × Elem) :=
  if LinearDispatches st ctx t w then asked st ctx w true uploadFails else []

/-- The fused path of `rms_norm_then_linear` is taken. -/
def NormFused (st : State) (ctx : Ctx) (t : ℕ) : Prop :=
  t < matvecThreshold ∧ "rms_norm_f32_mul" ∈ (cachedAvailableShaders st ctx).2 ∧
    "mul_mat_vec_f32_f32_f32" ∈ (cachedAvailableShaders st ctx).2

instance (st : State) (ctx : Ctx) (t : ℕ) : Decidable (NormFused st ctx t) := by
  unfold NormFused
  infer_instance

/-- `fused_swiglu_mlp` dispatches on the GPU. -/
def MlpFused (st : State) (ctx : Ctx) (t : ℕ) (gateUpWeight downWeight : Weight) : Prop :=
  let gateUpF16 := weightUsesF16 st ctx gateUpWeight
  ¬(gateUpWeight.inFeat * gateUpWeight.outFeat < matvecMinWeightElements ∨
    gateUpWeight.outFeat / 2 * downWeight.outFeat < matvecMinWeightElements) ∧
  "swiglu_f32" ∈ (cachedAvailableShaders st ctx).2 ∧
  mlpShader t gateUpF16.2 ∈ (cachedAvailableShaders st ctx).2 ∧
  mlpShader t (weightUsesF16 gateUpF16.1 ctx downWeight).2 ∈ (cachedAvailableShaders st ctx).2

instance (st : State) (ctx : Ctx) (t : ℕ) (w w' : Weight) : Decidable (MlpFused st ctx t w w') := by
  unfold MlpFused
  infer_instance

/-- The buffers a call dispatches on or uploads, with the element type it asks for, in the state
before it. -/
def uses (st : State) (call : Call) : List (ℕ × Elem) :=
  match st.ctx with
  | none => []
  | some ctx =>
    let shaders := (cachedAvailableShaders st ctx).1
    match call with
    | .setContext _ _ => []
    | .preUpload w fails =>
      if st.weightCache w.storage = none ∧ w.inFeat * w.outFeat > 0 then asked st ctx w true fails
      else []
    | .linear t w fails => linearUses shaders ctx t w fails
    | .rmsNormThenLinear t norm lin normFails linFails =>
      if NormFused shaders ctx t then
        asked shaders ctx norm false normFails ++
          asked (getOrUploadWeight shaders ctx norm false normFails).1 ctx lin false linFails
      else linearUses shaders ctx t lin linFails
    | .fusedSwigluMlp t gateUp down gateUpFails downFails =>
      if MlpFused shaders ctx t gateUp down then
        let decided := (weightUsesF16 (weightUsesF16 shaders ctx gateUp).1 ctx down).1
        asked decided ctx gateUp true gateUpFails ++
          asked (getOrUploadWeight decided ctx gateUp true gateUpFails).1 ctx down true downFails
      else []

/-- The buffers of a call are asked for with the element types `kind` gives them. -/
def UsesKind (kind : ℕ → Elem) (st : State) (call : Call) : Prop :=
  ∀ u ∈ uses st call, u.2 = kind u.1

/-- Every dispatch is bound to a buffer of the element type its shader reads. -/
def DispatchesMatch (output : Except Raised (List Dispatch)) : Prop :=
  ∀ ds, output = .ok ds → ∀ d ∈ ds, d.bound = shaderElem d.shader

/-! ### Decisions -/

variable {st : State} {ctx : Ctx} {w w' : Weight} {d : Bool}

/-- The decision for a weight is cached. -/
def Decided (st : State) (w : Weight) (d : Bool) : Prop :=
  st.weightF16DecisionCache w.storage = some d

theorem Decided.weightUsesF16 (h : Decided st w d) : weightUsesF16 st ctx w = (st, d) := by
  simp only [Weights.weightUsesF16, show st.weightF16DecisionCache w.storage = some d from h]

@[simp] theorem cachedAvailableShaders_weightCache :
    (cachedAvailableShaders st ctx).1.weightCache = st.weightCache := by
  unfold cachedAvailableShaders
  split <;> rfl

@[simp] theorem cachedAvailableShaders_decisions :
    (cachedAvailableShaders st ctx).1.weightF16DecisionCache = st.weightF16DecisionCache := by
  unfold cachedAvailableShaders
  split <;> rfl

@[simp] theorem cachedAvailableShaders_ctx : (cachedAvailableShaders st ctx).1.ctx = st.ctx := by
  unfold cachedAvailableShaders
  split <;> rfl

theorem cachedAvailableShaders_again :
    cachedAvailableShaders (cachedAvailableShaders st ctx).1 ctx =
      cachedAvailableShaders st ctx := by
  cases h : st.availableShadersCache <;> simp only [cachedAvailableShaders, h]

@[simp] theorem weightUsesF16_weightCache :
    (weightUsesF16 st ctx w).1.weightCache = st.weightCache := by
  unfold weightUsesF16
  split
  · rfl
  · exact cachedAvailableShaders_weightCache

@[simp] theorem weightUsesF16_ctx : (weightUsesF16 st ctx w).1.ctx = st.ctx := by
  unfold weightUsesF16
  split
  · rfl
  · exact cachedAvailableShaders_ctx

@[simp] theorem getOrUploadWeight_ctx {preferF16 fails : Bool} :
    (getOrUploadWeight st ctx w preferF16 fails).1.ctx = st.ctx := by
  unfold getOrUploadWeight
  cases st.weightCache w.storage with
  | some cached => rfl
  | none => cases preferF16 <;> cases fails <;> simp

theorem decided_weightUsesF16 :
    Decided (weightUsesF16 st ctx w).1 w (weightUsesF16 st ctx w).2 := by
  unfold weightUsesF16 Decided
  cases h : st.weightF16DecisionCache w.storage with
  | some cached => exact h
  | none => simp only [Function.update_self]

theorem Decided.mono (h : Decided st w d) : Decided (Weights.weightUsesF16 st ctx w').1 w d := by
  unfold Weights.weightUsesF16
  cases h' : st.weightF16DecisionCache w'.storage with
  | some cached => exact h
  | none =>
    have hne : w.storage ≠ w'.storage := by
      intro heq
      rw [Decided, heq, h'] at h
      cases h
    simp only [Decided, Function.update_of_ne hne, cachedAvailableShaders_decisions]
    exact h

/-! ### Uploads -/

/-- Every buffer has the element type `kind` gives its weight. -/
def Kinds (kind : ℕ → Elem) (st : State) : Prop :=
  ∀ s e, st.weightCache s = some e → e = kind s

theorem Kinds.congr {kind : ℕ → Elem} {st' : State} (h : Kinds kind st)
    (hc : st'.weightCache = st.weightCache) : Kinds kind st' := by
  intro s e he
  rw [hc] at he
  exact h s e he

/-- **One upload.**  Where a weight is asked for with its own element type, the buffer has the type
asked for. -/
theorem getOrUploadWeight_spec {kind : ℕ → Elem} {preferF16 fails : Bool} (h : Kinds kind st)
    (hw : ∀ u ∈ asked st ctx w preferF16 fails, u.2 = kind u.1) :
    Kinds kind (getOrUploadWeight st ctx w preferF16 fails).1 ∧
      (∀ e, (getOrUploadWeight st ctx w preferF16 fails).2 = some e → e = want st ctx w preferF16) ∧
      ∀ w' d, Decided st w' d → Decided (getOrUploadWeight st ctx w preferF16 fails).1 w' d := by
  unfold getOrUploadWeight
  cases hc : st.weightCache w.storage with
  | some cached =>
    -- the cached buffer is of the kind that the storage always asks for
    have hkind : want st ctx w preferF16 = kind w.storage :=
      hw (w.storage, want st ctx w preferF16) (by simp [asked, hc])
    refine ⟨h, fun e he => ?_, fun w' d hd => hd⟩
    rw [← Option.some.inj he, hkind]
    exact h _ _ hc
  | none =>
    -- the decision is made, and remembered, even where the upload then fails
    set decided := if preferF16 = true then weightUsesF16 st ctx w else (st, false) with hdecided
    have hcache : decided.1.weightCache = st.weightCache := by
      rw [hdecided]
      split_ifs
      · exact weightUsesF16_weightCache
      · rfl
    have helem : elemOf decided.2 = want st ctx w preferF16 := by
      rw [hdecided, want]
      cases preferF16 with
      | true => simp only [if_true, Bool.true_and]
      | false => simp only [Bool.false_eq_true, if_false, Bool.false_and]
    have hmono : ∀ w' d, Decided st w' d → Decided decided.1 w' d := by
      intro w' d hd
      rw [hdecided]
      split_ifs
      · exact hd.mono
      · exact hd
    by_cases hfails : fails = true
    · simp only [if_pos hfails]
      exact ⟨h.congr hcache, by simp, hmono⟩
    · simp only [if_neg hfails]
      refine ⟨fun s e he => ?_, fun e he => by rw [← Option.some.inj he, helem], hmono⟩
      change Function.update decided.1.weightCache w.storage (some (elemOf decided.2)) s = some e
        at he
      by_cases hs : s = w.storage
      · rw [hs, Function.update_self] at he
        rw [← Option.some.inj he, helem, hs]
        exact hw (w.storage, want st ctx w preferF16) (by simp [asked, hfails])
      · rw [Function.update_of_ne hs, hcache] at he
        exact h s e he

theorem shaderElem_if {f16Shader f32Shader : String} (h₁ : shaderElem f16Shader = .f16)
    (h₂ : shaderElem f32Shader = .f32) (useF16 : Bool) :
    shaderElem (if useF16 then f16Shader else f32Shader) = elemOf useF16 := by
  cases useF16 with
  | true => exact h₁
  | false => exact h₂

/-- A dispatch whose shader follows the decision and whose buffer was asked for. -/
theorem bound_eq {uploaded : Option Elem} {useF16 : Bool}
    (hu : ∀ e, uploaded = some e → e = elemOf useF16) :
    uploaded.getD (elemOf useF16) = elemOf useF16 := by
  cases uploaded with
  | none => rfl
  | some e => exact hu e rfl

theorem dispatchesMatch_nil : DispatchesMatch (.ok []) := by
  intro ds hds dsp hdsp
  obtain rfl := Except.ok.inj hds
  cases hdsp

theorem dispatchesMatch_error (e : Raised) : DispatchesMatch (.error e) := by
  intro ds hds
  cases hds

/-! ### The calls -/

theorem Decided.want (h : Decided st w d) : want st ctx w true = elemOf d := by
  rw [Weights.want, h.weightUsesF16, Bool.true_and]

theorem vulkanLinear_spec {kind : ℕ → Elem} {f16Shader f32Shader : String} {fails : Bool}
    (h₁ : shaderElem f16Shader = .f16) (h₂ : shaderElem f32Shader = .f32) (h : Kinds kind st)
    (hw : ∀ u ∈ asked st ctx w true fails, u.2 = kind u.1) :
    Kinds kind (vulkanLinear f16Shader f32Shader st ctx w fails).1 ∧
      DispatchesMatch (.ok (vulkanLinear f16Shader f32Shader st ctx w fails).2) := by
  have hd : Decided (weightUsesF16 st ctx w).1 w (weightUsesF16 st ctx w).2 :=
    decided_weightUsesF16
  have hw' : ∀ u ∈ asked (weightUsesF16 st ctx w).1 ctx w true fails, u.2 = kind u.1 := by
    intro u hu
    rw [asked, weightUsesF16_weightCache, hd.want] at hu
    rw [asked, want, Bool.true_and] at hw
    exact hw u hu
  obtain ⟨hkinds, hbound, -⟩ := getOrUploadWeight_spec (h.congr weightUsesF16_weightCache) hw'
  rw [hd.want] at hbound
  refine ⟨hkinds, fun ds hds dsp hdsp => ?_⟩
  obtain rfl := Except.ok.inj hds
  obtain rfl := List.mem_singleton.1 hdsp
  simp only [shaderElem_if h₁ h₂]
  exact bound_eq hbound

theorem linear_spec {kind : ℕ → Elem} {t : ℕ} {fails : Bool} (h : Kinds kind st)
    (hc : st.ctx = some ctx)
    (hu : ∀ u ∈ linearUses (cachedAvailableShaders st ctx).1 ctx t w fails, u.2 = kind u.1) :
    Kinds kind (linear st t w fails).1 ∧ DispatchesMatch (linear st t w fails).2 := by
  have hk : Kinds kind (cachedAvailableShaders st ctx).1 :=
    h.congr cachedAvailableShaders_weightCache
  have hw : LinearDispatches (cachedAvailableShaders st ctx).1 ctx t w →
      ∀ u ∈ asked (cachedAvailableShaders st ctx).1 ctx w true fails, u.2 = kind u.1 := by
    intro hdisp u hmem
    exact hu u (by rwa [linearUses, if_pos hdisp])
  simp only [LinearDispatches, cachedAvailableShaders_again] at hw
  unfold linear
  simp only [hc]
  split_ifs with hvec hmul
  · exact vulkanLinear_spec rfl rfl hk
      (hw ⟨hvec.1, by rw [if_pos hvec.2.1]; exact hvec.2.2⟩)
  · exact vulkanLinear_spec rfl rfl hk
      (hw ⟨hmul.1, by rw [if_neg (by omega)]; exact hmul.2.2⟩)
  · exact ⟨hk, dispatchesMatch_nil⟩

theorem rmsNormThenLinear_spec {kind : ℕ → Elem} {t : ℕ} {normFails linFails : Bool}
    (h : Kinds kind st) (hc : st.ctx = some ctx)
    (hu : UsesKind kind st (.rmsNormThenLinear t w w' normFails linFails)) :
    Kinds kind (rmsNormThenLinear st t w w' normFails linFails).1 ∧
      DispatchesMatch (rmsNormThenLinear st t w w' normFails linFails).2 := by
  have hk : Kinds kind (cachedAvailableShaders st ctx).1 :=
    h.congr cachedAvailableShaders_weightCache
  simp only [UsesKind, uses, hc, NormFused, cachedAvailableShaders_again] at hu
  unfold rmsNormThenLinear
  simp only [hc]
  by_cases hfused : t < matvecThreshold ∧
      "rms_norm_f32_mul" ∈ (cachedAvailableShaders st ctx).2 ∧
      "mul_mat_vec_f32_f32_f32" ∈ (cachedAvailableShaders st ctx).2
  · obtain ⟨ht, hnorm, hvec⟩ := hfused
    rw [if_pos ⟨ht, hnorm, hvec⟩] at hu
    rw [if_neg (by simp [hnorm, hvec, ht])]
    obtain ⟨hnormUse, hlinUse⟩ := List.forall_mem_append.1 hu
    obtain ⟨hk₁, hb₁, -⟩ := getOrUploadWeight_spec hk hnormUse
    obtain ⟨hk₂, hb₂, -⟩ := getOrUploadWeight_spec hk₁ hlinUse
    refine ⟨hk₂, fun ds hds dsp hdsp => ?_⟩
    obtain rfl := Except.ok.inj hds
    simp only [List.mem_cons, List.not_mem_nil, or_false] at hdsp
    rcases hdsp with rfl | rfl
    · exact @bound_eq _ false hb₁
    · exact @bound_eq _ false hb₂
  · rw [if_neg hfused] at hu
    have hfallback : t ≥ matvecThreshold ∨ "rms_norm_f32_mul" ∉ (cachedAvailableShaders st ctx).2 ∨
        "mul_mat_vec_f32_f32_f32" ∉ (cachedAvailableShaders st ctx).2 := by
      by_contra hnot
      simp only [not_or, not_not, ge_iff_le] at hnot
      exact hfused ⟨Nat.lt_of_not_le hnot.1, hnot.2⟩
    rw [if_pos hfallback]
    have hc' : (cachedAvailableShaders st ctx).1.ctx = some ctx := by
      rw [cachedAvailableShaders_ctx, hc]
    exact linear_spec hk hc' (by rwa [cachedAvailableShaders_again])

theorem fusedSwigluMlp_spec {kind : ℕ → Elem} {t : ℕ} {gateUpFails downFails : Bool}
    (h : Kinds kind st) (hc : st.ctx = some ctx)
    (hu : UsesKind kind st (.fusedSwigluMlp t w w' gateUpFails downFails)) :
    Kinds kind (fusedSwigluMlp st t w w' gateUpFails downFails).1 ∧
      DispatchesMatch (fusedSwigluMlp st t w w' gateUpFails downFails).2 := by
  have hk : Kinds kind (cachedAvailableShaders st ctx).1 :=
    h.congr cachedAvailableShaders_weightCache
  simp only [UsesKind, uses, hc, MlpFused, cachedAvailableShaders_again] at hu
  unfold fusedSwigluMlp
  simp only [hc]
  set s₀ := (cachedAvailableShaders st ctx).1
  set gateUp := weightUsesF16 s₀ ctx w with hgateUp
  set down := weightUsesF16 gateUp.1 ctx w' with hdown
  have hkdown : Kinds kind down.1 :=
    (hk.congr weightUsesF16_weightCache).congr weightUsesF16_weightCache
  by_cases hsize : w.inFeat * w.outFeat < matvecMinWeightElements ∨
      w.outFeat / 2 * w'.outFeat < matvecMinWeightElements
  · rw [if_pos hsize]
    exact ⟨h, dispatchesMatch_error _⟩
  rw [if_neg hsize]
  by_cases hswiglu : "swiglu_f32" ∈ (cachedAvailableShaders st ctx).2
  swap
  · rw [if_pos hswiglu]
    exact ⟨hk, dispatchesMatch_error _⟩
  rw [if_neg (not_not.2 hswiglu)]
  by_cases hshaders : mlpShader t gateUp.2 ∉ (cachedAvailableShaders st ctx).2 ∨
      mlpShader t down.2 ∉ (cachedAvailableShaders st ctx).2
  · rw [if_pos hshaders]
    exact ⟨hkdown, dispatchesMatch_error _⟩
  rw [if_neg hshaders]
  simp only [not_or, not_not] at hshaders
  rw [if_pos ⟨hsize, hswiglu, hshaders⟩] at hu
  obtain ⟨hgateUse, hdownUse⟩ := List.forall_mem_append.1 hu
  -- both decisions are cached before the first upload
  have hd₁ : Decided down.1 w gateUp.2 := decided_weightUsesF16.mono
  have hd₂ : Decided down.1 w' down.2 := decided_weightUsesF16
  obtain ⟨hk₁, hb₁, hmono⟩ := getOrUploadWeight_spec hkdown hgateUse
  obtain ⟨hk₂, hb₂, -⟩ := getOrUploadWeight_spec hk₁ hdownUse
  rw [hd₁.want] at hb₁
  rw [(hmono w' down.2 hd₂).want] at hb₂
  have hshader : ∀ b, shaderElem (mlpShader t b) = elemOf b := by
    intro b
    unfold mlpShader
    split
    · exact shaderElem_if rfl rfl b
    · exact shaderElem_if rfl rfl b
  refine ⟨hk₂, fun ds hds dsp hdsp => ?_⟩
  obtain rfl := Except.ok.inj hds
  simp only [List.mem_cons, List.not_mem_nil, or_false] at hdsp
  rcases hdsp with rfl | rfl
  · exact (bound_eq hb₁).trans (hshader _).symm
  · exact (bound_eq hb₂).trans (hshader _).symm

/-- **One upload ahead.** -/
theorem preUpload_spec {kind : ℕ → Elem} {fails : Bool} (h : Kinds kind st)
    (hc : st.ctx = some ctx) (hu : UsesKind kind st (.preUpload w fails)) :
    Kinds kind (preUpload st w fails).1 ∧ DispatchesMatch (preUpload st w fails).2 := by
  simp only [UsesKind, uses, hc] at hu
  unfold preUpload
  simp only [hc]
  by_cases hsize : w.inFeat * w.outFeat > 0
  · rw [if_pos hsize]
    refine ⟨?_, dispatchesMatch_nil⟩
    cases hw : st.weightCache w.storage with
    | some cached =>
      simp only [getOrUploadWeight, hw]
      exact h
    | none =>
      rw [if_pos ⟨hw, hsize⟩] at hu
      exact (getOrUploadWeight_spec h hu).1
  · rw [if_neg hsize]
    exact ⟨h, dispatchesMatch_nil⟩

/-- **One call.**  A call that asks for every weight with its own element type keeps the buffers
that way, and its dispatches match. -/
theorem step_spec {kind : ℕ → Elem} {call : Call} (h : Kinds kind st) (hu : UsesKind kind st call) :
    Kinds kind (step st call).1 ∧ DispatchesMatch (step st call).2 := by
  cases hc : st.ctx with
  | none =>
    cases call with
    | setContext ctx software => exact ⟨h, dispatchesMatch_nil⟩
    | preUpload w fails =>
      simp only [step, preUpload, hc]
      exact ⟨h, dispatchesMatch_error _⟩
    | linear t w fails =>
      simp only [step, linear, hc]
      exact ⟨h, dispatchesMatch_error _⟩
    | rmsNormThenLinear t norm lin f f' =>
      simp only [step, rmsNormThenLinear, hc]
      exact ⟨h, dispatchesMatch_error _⟩
    | fusedSwigluMlp t gateUp down f f' =>
      simp only [step, fusedSwigluMlp, hc]
      exact ⟨h, dispatchesMatch_error _⟩
  | some ctx =>
    cases call with
    | setContext ctx software => exact ⟨h, dispatchesMatch_nil⟩
    | preUpload w fails => exact preUpload_spec h hc hu
    | linear t w fails =>
      simp only [UsesKind, uses, hc] at hu
      exact linear_spec h hc hu
    | rmsNormThenLinear t norm lin f f' => exact rmsNormThenLinear_spec h hc hu
    | fusedSwigluMlp t gateUp down f f' => exact fusedSwigluMlp_spec h hc hu

/-! ### Runs -/

/-- **The element type always matches the shader** in a run that asks for every weight with one
element type. -/
theorem dispatches_match (kind : ℕ → Elem) (calls : List Call)
    (hu : ∀ τ ∈ transitions step .init calls, UsesKind kind τ.pre τ.input) :
    ∀ τ ∈ transitions step .init calls, DispatchesMatch τ.output := by
  have hstep : ∀ st call, Kinds kind st → UsesKind kind st call → Kinds kind (step st call).1 :=
    fun st call h hu => (step_spec h hu).1
  have hinit : Kinds kind .init := by
    intro s e he
    cases he
  exact forall_transitions hstep (fun st call h hu => (step_spec h hu).2) hinit hu

/-- A context with every shader of the linears. -/
def fullCtx : Ctx where
  shaders := ["mul_mat_vec_f32_f32_f32", "mul_mat_vec_f16_f32_f32", "matmul_f32_f32",
    "matmul_f16_f32_fp32", "rms_norm_f32_mul"]

/-- A weight that is safe for f16. -/
def safeWeight (storage : ℕ) : Weight := ⟨storage, 1024, 1024, true⟩

theorem dispatches_match_preUpload : List.Forall (fun τ => DispatchesMatch τ.output)
    (transitions step .init
      [.setContext fullCtx false, .preUpload (safeWeight 0) false, .linear 1 (safeWeight 0) false,
        .linear 8 (safeWeight 0) false]) :=
  List.forall_iff_forall_mem.2 (dispatches_match (fun _ => .f16) _ (by
    simp only [transitions_cons, transitions_nil, List.mem_cons, List.not_mem_nil, or_false]
    rintro τ (rfl | rfl | rfl | rfl) <;> unfold UsesKind <;> decide))

/-- **An f32 shader on an f16 weight.**  The pre-upload stores the weight as f16; the fused norm and
linear asks for f32, gets the f16 buffer, and dispatches the f32 shader on it. -/
theorem f32_shader_on_f16_weight : ¬ ∀ τ ∈ transitions step .init
    [.setContext fullCtx false, .preUpload (safeWeight 0) false,
      .rmsNormThenLinear 1 (safeWeight 1) (safeWeight 0) false false],
    DispatchesMatch τ.output := by
  intro h
  have hmatch := h _ (.tail _ (.tail _ (.head _))) _ rfl
    ⟨"mul_mat_vec_f32_f32_f32", 0, .f16⟩ (.tail _ (.head _))
  exact absurd hmatch (by decide)

end Weights

end VllmVulkan
