import VllmVulkan.Weights.Contents
import VllmVulkan.Context.Chained

/-!
# Uploads that fail

When a weight cannot be uploaded, the call binds bytes instead.  `linear` and `fused_swiglu_mlp`
submit through `execute_batch`, which makes a buffer for them; `rms_norm_then_linear` submits
through `execute_chained`, where the address kept for them names no buffer when it is read.

* `Operand.read`, `Call.read` : what the dispatches of a call read of its weights;
* `Transparent` : a call reads the same weights as when every upload succeeds;
* `Harmless` : the failures that change nothing;
* `transparent_iff` : **these and no others do**;
* `chain_fallbacks` : a failed upload of the norm, and one of the linear weight.
-/

namespace VllmVulkan

namespace Contents

open Panics Sessions Weights

variable {K : Type}

/-! ### What a dispatch reads -/

/-- A weight as a shader reads it. -/
inductive Reading (K : Type) where
  | values (xs : List K)
  /-- The bytes of the other format. -/
  | otherFormat (b : Buffer K)
  /-- Whatever is found at an address that names no buffer. -/
  | undefined
  deriving DecidableEq, Repr

/-- Bytes read in a format. -/
def Buffer.read (b : Buffer K) (e : Elem) : Reading K :=
  if b.elem = e then .values b.values else .otherFormat b

/-- The shader of an operand, and the weights it reads. -/
def Operand.read : Operand K → Option String × Reading K
  | .gpu shader _ bound => (some shader, bound.read (shaderElem shader))
  | .cpu _ copy => (none, .values copy)

/-- The call when every upload succeeds. -/
def Call.succeeding : Call K → Call K
  | .linear t w _ => .linear t w false
  | .rmsNormThenLinear t ncols norm lin _ _ => .rmsNormThenLinear t ncols norm lin false false
  | .fusedSwigluMlp t gateUp down _ _ => .fusedSwigluMlp t gateUp down false false
  | .weightUsesF16 w => .weightUsesF16 w

/-- What `rms_norm_then_linear` passes to `execute_chained` besides its weights. -/
structure ChainArgs (K : Type) where
  xBytes : Context.Bytes
  normPc : Context.Bytes
  matvecPc : Context.Bytes
  /-- `_to_bytes`, of a weight or of the fallback of one. -/
  encode : Buffer K → Context.Bytes

/-- A weight as a binding: the handle `_get_or_upload_weight` returned, or the bytes in its place.
-/
def weightBinding (args : ChainArgs K) (w : Tensor K) (bound : Buffer K) :
    Option (Buffer K) → Context.Binding
  | some _ => .gpuTensor w.storage
  | none => .bytes (args.encode bound)

/-- The call of `execute_chained` in `rms_norm_then_linear`. -/
def chainRequest (args : ChainArgs K) (t ncols outFeat : ℕ)
    (normBinding linBinding : Context.Binding) : Context.Request where
  shader0 := "rms_norm_f32_mul"
  bindings0 := [.bytes args.xBytes, normBinding]
  outputSize0 := t * ncols * 4
  pc0 := args.normPc
  wg0 := (t, 1, 1)
  shader1 := "mul_mat_vec_f32_f32_f32"
  bindings1 := [linBinding]
  outputSize1 := t * outFeat * 4
  pc1 := args.matvecPc
  wg1 := (outFeat, t, 1)

/-- A weight at an address: what it names, if it names a buffer. -/
def readAt (shader : String) (bound : Buffer K) : Option Context.Buf → Reading K
  | some _ => bound.read (shaderElem shader)
  | none => .undefined

/-- The shaders of a call and the weights they read, from the buffers that `_get_or_upload_weight`
returned for the weights and the operands: through `execute_chained` where the chain of
`rms_norm_then_linear` is taken. -/
def Call.read (args : ChainArgs K) : Call K → List (Option (Buffer K)) → List (Operand K) →
    List (Option String × Reading K)
  | .rmsNormThenLinear t ncols _ _ _ _, [normGpu, linGpu],
      [.gpu shader0 norm bound0, .gpu shader1 lin bound1] =>
    match Context.namedBuffers .calm (chainRequest args t ncols lin.outFeat
        (weightBinding args norm bound0 normGpu) (weightBinding args lin bound1 linGpu)) with
    | .error _ => []
    | .ok (named0, named1) =>
      -- binding 0 of the norm is the row, which is bytes whatever becomes of the uploads
      [(some shader0, readAt shader0 bound0 named0[1]?.join),
        (some shader1, readAt shader1 bound1 named1[0]?.join)]
  | _, _, operands => operands.map Operand.read

variable [Half K]

/-- What `_get_or_upload_weight` returned for the weights of a call, in order. -/
def uploads [Zero K] (st : State K) (call : Call K) : List (Option (Buffer K)) :=
  (call.prog.calls caches st).filterMap fun e =>
    match e with
    | { call := .upload _ _ _, value := gpu, .. } => gpu
    | _ => none

/-- What a call reads of its weights, or what it raises. -/
def readings [Zero K] (args : ChainArgs K) (st : State K) (call : Call K) :
    Option (Except Raised (List (Option String × Reading K))) :=
  (step st call).2.map (Except.map (call.read args (uploads st call)))

/-- A call reads what it reads when every upload succeeds. -/
def Transparent [Zero K] (args : ChainArgs K) (st : State K) (call : Call K) : Prop :=
  readings args st call = readings args st call.succeeding

/-- `fused_swiglu_mlp` gets to its uploads. -/
def MlpUploads (st : State K) (ctx : Ctx) (t : ℕ) (gateUp down : Tensor K) : Prop :=
  let available := cachedAvailableShaders st ctx
  let useF16GateUp := weightUsesF16 available.1 ctx gateUp
  let useF16Down := weightUsesF16 useF16GateUp.1 ctx down
  ¬(gateUp.inFeat * gateUp.outFeat < matvecMinWeightElements ∨
    gateUp.outFeat / 2 * down.outFeat < matvecMinWeightElements) ∧
  "swiglu_f32" ∈ available.2 ∧
  ¬(mlpShader t useF16GateUp.2 ∉ available.2 ∨ mlpShader t useF16Down.2 ∉ available.2)

/-- In `rms_norm_then_linear` the linear weight is bound as bytes: the chain is taken, it has no
buffer, its upload fails, and the norm has not uploaded their storage. -/
def LinearFallback (st : State K) (ctx : Ctx) (t : ℕ) (normWeight linearWeight : Tensor K)
    (normFails linearFails : Bool) : Prop :=
  t < matvecThreshold ∧ "rms_norm_f32_mul" ∈ (cachedAvailableShaders st ctx).2 ∧
    "mul_mat_vec_f32_f32_f32" ∈ (cachedAvailableShaders st ctx).2 ∧ linearFails = true ∧
    st.weightCache linearWeight.storage = none ∧
    ¬(linearWeight.storage = normWeight.storage ∧ normFails = false)

/-- The failures that change nothing.  No weight of the chain is bound as bytes, and a weight that
shares the storage of one whose upload fails has the same elements. -/
def Harmless (st : State K) : Call K → Prop
  | .linear _ _ _ => True
  | .rmsNormThenLinear t _ norm lin normFails linFails => ∀ ctx, st.ctx = some ctx →
    ¬ NormFallback st ctx t norm normFails ∧ ¬ LinearFallback st ctx t norm lin normFails linFails
  | .fusedSwigluMlp t gateUp down gateUpFails _ => ∀ ctx, st.ctx = some ctx →
    MlpUploads st ctx t gateUp down → gateUpFails = true →
      st.weightCache gateUp.storage = none → down.storage = gateUp.storage →
        let e := elemOf (weightUsesF16 (cachedAvailableShaders st ctx).1 ctx gateUp).2
        down.toBytes e = gateUp.toBytes e
  | .weightUsesF16 _ => True

variable {st : State K} {ctx : Ctx} {w w' : Tensor K} {d : Bool}

/-! ### One upload -/

/-- The decision for a weight is cached. -/
def Decided (st : State K) (w : Tensor K) (d : Bool) : Prop :=
  st.weightF16DecisionCache w.storage = some d

theorem decided_weightUsesF16 (st : State K) (ctx : Ctx) (w : Tensor K) :
    Decided (weightUsesF16 st ctx w).1 w (weightUsesF16 st ctx w).2 := by
  unfold weightUsesF16 Decided
  cases h : st.weightF16DecisionCache w.storage with
  | some cached => exact h
  | none => simp only [Function.update_self]

theorem Decided.mono (h : Decided st w d) (ctx : Ctx) (w' : Tensor K) :
    Decided (weightUsesF16 st ctx w').1 w d := by
  unfold weightUsesF16
  cases h' : st.weightF16DecisionCache w'.storage with
  | some cached => exact h
  | none =>
    have hne : w.storage ≠ w'.storage := by
      intro heq
      rw [Decided, heq, h'] at h
      cases h
    have hsame : (cachedAvailableShaders st ctx).1.weightF16DecisionCache =
        st.weightF16DecisionCache := by
      unfold cachedAvailableShaders
      split <;> rfl
    simp only [Decided, Function.update_of_ne hne, hsame]
    exact h

/-- **One upload**: the buffer that a weight has, or its own bytes. -/
theorem getOrUploadWeight_eq (ctx : Ctx) {preferF16 : Bool} (fails : Bool) {e : Elem}
    (he : preferF16 = true ∧ Decided st w d ∧ e = elemOf d ∨ preferF16 = false ∧ e = .f32) :
    (getOrUploadWeight st ctx w preferF16 fails).2 =
        (st.weightCache w.storage).or (if fails then none else some (w.toBytes e)) ∧
      (getOrUploadWeight st ctx w preferF16 fails).1 =
        { st with
          weightCache :=
            if st.weightCache w.storage = none ∧ fails = false then
              Function.update st.weightCache w.storage (some (w.toBytes e))
            else st.weightCache } := by
  have hdecided : (if preferF16 then weightUsesF16 st ctx w else (st, false)) =
      (st, preferF16 && d) ∧ e = elemOf (preferF16 && d) := by
    rcases he with ⟨rfl, hd, rfl⟩ | ⟨rfl, rfl⟩
    · refine ⟨?_, rfl⟩
      simp only [if_true, weightUsesF16, show st.weightF16DecisionCache w.storage = some d from hd,
        Bool.true_and]
    · exact ⟨rfl, rfl⟩
  unfold getOrUploadWeight
  rw [hdecided.1, hdecided.2]
  cases hc : st.weightCache w.storage with
  | some cached => simp
  | none => cases fails <;> simp

/-! ### The calls -/

/-- `linear` and its two dispatches fall back to what they would have uploaded. -/
theorem vulkanLinear_run (hctx : st.ctx = some ctx) (f16Shader f32Shader : String) (fails : Bool) :
    ((vulkanLinear f16Shader f32Shader w fails).run caches st).1 =
      some [.gpu (if (weightUsesF16 st ctx w).2 then f16Shader else f32Shader) w
        ((st.weightCache w.storage).getD (w.toBytes (elemOf (weightUsesF16 st ctx w).2)))] := by
  have hupload := (getOrUploadWeight_eq ctx fails
    (.inl ⟨rfl, decided_weightUsesF16 st ctx w, rfl⟩)).1
  rw [weightUsesF16_weightCache] at hupload
  unfold vulkanLinear
  rw [Prog.run_perform_bind caches (exec_usesF16 hctx w),
    Prog.run_perform_bind caches (exec_upload (weightUsesF16_ctx.trans hctx) w true fails), hupload]
  cases st.weightCache w.storage <;> cases fails <;> rfl

theorem linear_run (t : ℕ) (w : Tensor K) (fails : Bool) (st : State K) :
    ((linear t w fails).run caches st).1 = ((linear t w false).run caches st).1 := by
  cases hctx : st.ctx with
  | none =>
    have hnone : ∀ fails, ((linear t w fails).run caches st).1 = none := by
      intro fails
      have hraises : caches.exec .getContext st = (none, st) := by
        simp only [caches, withContext, hctx]
      exact congrArg Prod.fst (bind_none hraises)
    rw [hnone, hnone]
  | some ctx =>
    have hctx₁ : (cachedAvailableShaders st ctx).1.ctx = some ctx := by
      rw [cachedAvailableShaders_ctx, hctx]
    have hrun : ∀ fails, (linear t w fails).run caches st = _ := fun fails => by
      unfold linear
      rw [Prog.run_perform_bind caches (exec_getContext hctx),
        Prog.run_perform_bind caches (exec_availableShaders hctx)]
    rw [hrun, hrun]
    split_ifs
    · exact (vulkanLinear_run hctx₁ _ _ fails).trans (vulkanLinear_run hctx₁ _ _ false).symm
    · exact (vulkanLinear_run hctx₁ _ _ fails).trans (vulkanLinear_run hctx₁ _ _ false).symm
    · rfl

/-- The buffers behind an upload. -/
def uploaded (cache : ℕ → Option (Buffer K)) (w : Tensor K) (e : Elem) (fails : Bool) :
    ℕ → Option (Buffer K) :=
  if cache w.storage = none ∧ fails = false then
    Function.update cache w.storage (some (w.toBytes e)) else cache

theorem chain_uploads (norm lin : Tensor K) (normFails linFails : Bool) :
    let first := getOrUploadWeight (cachedAvailableShaders st ctx).1 ctx norm false normFails
    first.2 =
        (st.weightCache norm.storage).or (if normFails then none else some (norm.toBytes .f32)) ∧
      first.1.weightCache = uploaded st.weightCache norm .f32 normFails ∧
      (getOrUploadWeight first.1 ctx lin false linFails).2 =
        (uploaded st.weightCache norm .f32 normFails lin.storage).or
          (if linFails then none else some (lin.toBytes .f32)) := by
  have hunpreferred : ∀ (st : State K) (w : Tensor K), false = true ∧ Decided st w false ∧
      Elem.f32 = elemOf false ∨ false = false ∧ Elem.f32 = .f32 := fun _ _ => .inr ⟨rfl, rfl⟩
  obtain ⟨hnorm, hpost⟩ := getOrUploadWeight_eq ctx normFails
    (hunpreferred (cachedAvailableShaders st ctx).1 norm)
  obtain ⟨hlin, -⟩ := getOrUploadWeight_eq ctx linFails (hunpreferred
    (getOrUploadWeight (cachedAvailableShaders st ctx).1 ctx norm false normFails).1 lin)
  have hcache : (getOrUploadWeight (cachedAvailableShaders st ctx).1 ctx norm false
      normFails).1.weightCache = uploaded st.weightCache norm .f32 normFails := by
    rw [hpost, cachedAvailableShaders_weightCache]
    rfl
  rw [cachedAvailableShaders_weightCache] at hnorm
  rw [hcache] at hlin
  exact ⟨hnorm, hcache, hlin⟩

theorem rmsNormThenLinear_run [Zero K] {t ncols : ℕ} {norm lin : Tensor K}
    {normFails linFails : Bool} (hctx : st.ctx = some ctx)
    (hchain : ¬(t ≥ matvecThreshold ∨ "rms_norm_f32_mul" ∉ (cachedAvailableShaders st ctx).2 ∨
      "mul_mat_vec_f32_f32_f32" ∉ (cachedAvailableShaders st ctx).2)) :
    ((rmsNormThenLinear t ncols norm lin normFails linFails).run caches st).1 = some [
      .gpu "rms_norm_f32_mul" norm (((st.weightCache norm.storage).or
        (if normFails then none else some (norm.toBytes .f32))).getD
          ⟨.f32, List.replicate ncols 0⟩),
      .gpu "mul_mat_vec_f32_f32_f32" lin
        ((uploaded st.weightCache norm .f32 normFails lin.storage).getD (lin.toBytes .f32))] := by
  have hctx₁ : (cachedAvailableShaders st ctx).1.ctx = some ctx := by
    rw [cachedAvailableShaders_ctx, hctx]
  obtain ⟨hnorm, -, hlin⟩ := @chain_uploads _ _ st ctx norm lin normFails linFails
  unfold rmsNormThenLinear
  rw [Prog.run_perform_bind caches (exec_getContext hctx),
    Prog.run_perform_bind caches (exec_availableShaders hctx), if_neg hchain,
    Prog.run_perform_bind caches (exec_upload hctx₁ norm false normFails),
    Prog.run_perform_bind caches (exec_upload (getOrUploadWeight_ctx.trans hctx₁) lin false
      linFails), hnorm, hlin]
  cases uploaded st.weightCache norm .f32 normFails lin.storage <;> cases linFails <;> rfl

/-- The decisions of `fused_swiglu_mlp`, and the state in which it uploads. -/
def mlpDecisions (st : State K) (ctx : Ctx) (gateUp down : Tensor K) : Bool × Bool × State K :=
  let useF16GateUp := weightUsesF16 (cachedAvailableShaders st ctx).1 ctx gateUp
  let useF16Down := weightUsesF16 useF16GateUp.1 ctx down
  (useF16GateUp.2, useF16Down.2, useF16Down.1)

theorem fusedSwigluMlp_run {t : ℕ} {gateUp down : Tensor K} {gateUpFails downFails : Bool}
    (hctx : st.ctx = some ctx) (huploads : MlpUploads st ctx t gateUp down) {d d' : Bool}
    {st' : State K} (hdecisions : mlpDecisions st ctx gateUp down = (d, d', st')) :
    ((fusedSwigluMlp t gateUp down gateUpFails downFails).run caches st).1 = some (.ok [
      .gpu (mlpShader t d) gateUp
        ((st.weightCache gateUp.storage).getD (gateUp.toBytes (elemOf d))),
      .gpu (mlpShader t d') down
        ((uploaded st.weightCache gateUp (elemOf d) gateUpFails down.storage).getD
          (down.toBytes (elemOf d')))]) := by
  have hctx₁ : (cachedAvailableShaders st ctx).1.ctx = some ctx := by
    rw [cachedAvailableShaders_ctx, hctx]
  have hctx₂ : (weightUsesF16 (cachedAvailableShaders st ctx).1 ctx gateUp).1.ctx = some ctx := by
    rw [weightUsesF16_ctx, hctx₁]
  have hctx₃ : (weightUsesF16 (weightUsesF16 (cachedAvailableShaders st ctx).1 ctx gateUp).1 ctx
      down).1.ctx = some ctx := by
    rw [weightUsesF16_ctx, hctx₂]
  obtain ⟨hsize, hswiglu, hshaders⟩ := huploads
  cases hdecisions
  -- both decisions are cached when the first weight is uploaded
  obtain ⟨hgate, hpost⟩ := getOrUploadWeight_eq ctx gateUpFails (.inl ⟨rfl,
    (decided_weightUsesF16 (cachedAvailableShaders st ctx).1 ctx gateUp).mono ctx down, rfl⟩)
  have hdown : Decided (getOrUploadWeight (weightUsesF16 (weightUsesF16
      (cachedAvailableShaders st ctx).1 ctx gateUp).1 ctx down).1 ctx gateUp true gateUpFails).1
      down (weightUsesF16 (weightUsesF16 (cachedAvailableShaders st ctx).1 ctx gateUp).1 ctx
        down).2 := by
    rw [hpost]
    exact decided_weightUsesF16 _ ctx down
  have hdown' := (getOrUploadWeight_eq ctx downFails (.inl ⟨rfl, hdown, rfl⟩)).1
  have hcache : (getOrUploadWeight (weightUsesF16 (weightUsesF16
      (cachedAvailableShaders st ctx).1 ctx gateUp).1 ctx down).1 ctx gateUp true
      gateUpFails).1.weightCache = uploaded st.weightCache gateUp
        (elemOf (weightUsesF16 (cachedAvailableShaders st ctx).1 ctx gateUp).2) gateUpFails := by
    rw [hpost, weightUsesF16_weightCache, weightUsesF16_weightCache,
      cachedAvailableShaders_weightCache]
    rfl
  rw [weightUsesF16_weightCache, weightUsesF16_weightCache,
    cachedAvailableShaders_weightCache] at hgate
  rw [hcache] at hdown'
  unfold fusedSwigluMlp
  rw [Prog.run_perform_bind caches (exec_getContext hctx)]
  dsimp only
  rw [if_neg hsize, Prog.run_perform_bind caches (exec_availableShaders hctx),
    if_neg (not_not.2 hswiglu), Prog.run_perform_bind caches (exec_usesF16 hctx₁ gateUp),
    Prog.run_perform_bind caches (exec_usesF16 hctx₂ down), if_neg hshaders,
    Prog.run_perform_bind caches (exec_upload hctx₃ gateUp true gateUpFails),
    Prog.run_perform_bind caches (exec_upload (getOrUploadWeight_ctx.trans hctx₃) down true
      downFails), hgate, hdown']
  generalize uploaded st.weightCache gateUp
    (elemOf (weightUsesF16 (cachedAvailableShaders st ctx).1 ctx gateUp).2) gateUpFails
    down.storage = cached
  cases cached <;> cases st.weightCache gateUp.storage <;> cases gateUpFails <;>
    cases downFails <;> rfl

theorem fusedSwigluMlp_run_of_not {t : ℕ} {gateUp down : Tensor K} {gateUpFails downFails : Bool}
    (hctx : st.ctx = some ctx) (huploads : ¬ MlpUploads st ctx t gateUp down) :
    ((fusedSwigluMlp t gateUp down gateUpFails downFails).run caches st).1 =
      ((fusedSwigluMlp t gateUp down false false).run caches st).1 := by
  have hctx₁ : (cachedAvailableShaders st ctx).1.ctx = some ctx := by
    rw [cachedAvailableShaders_ctx, hctx]
  have hctx₂ : (weightUsesF16 (cachedAvailableShaders st ctx).1 ctx gateUp).1.ctx = some ctx := by
    rw [weightUsesF16_ctx, hctx₁]
  have hrun : ∀ fails fails', (fusedSwigluMlp t gateUp down fails fails').run caches st = _ :=
    fun fails fails' => by
      unfold fusedSwigluMlp
      rw [Prog.run_perform_bind caches (exec_getContext hctx)]
  rw [hrun, hrun]
  dsimp only
  split_ifs with hsize
  · rfl
  rw [Prog.run_perform_bind caches (exec_availableShaders hctx),
    Prog.run_perform_bind caches (exec_availableShaders hctx)]
  split_ifs with hswiglu
  swap
  · rfl
  rw [Prog.run_perform_bind caches (exec_usesF16 hctx₁ gateUp),
    Prog.run_perform_bind caches (exec_usesF16 hctx₂ down),
    Prog.run_perform_bind caches (exec_usesF16 hctx₁ gateUp),
    Prog.run_perform_bind caches (exec_usesF16 hctx₂ down)]
  have hshaders : mlpShader t (weightUsesF16 (cachedAvailableShaders st ctx).1 ctx gateUp).2 ∉
      (cachedAvailableShaders st ctx).2 ∨ mlpShader t (weightUsesF16 (weightUsesF16
        (cachedAvailableShaders st ctx).1 ctx gateUp).1 ctx down).2 ∉
      (cachedAvailableShaders st ctx).2 := by
    by_contra hshaders
    exact huploads ⟨hsize, hswiglu, hshaders⟩
  rw [if_pos hshaders, if_pos hshaders]

/-! ### Transparency -/

theorem toBytes_read (w : Tensor K) (e : Elem) :
    (w.toBytes e).read e = .values (w.toBytes e).values := by
  cases e <;> rfl

theorem toBytes_read_inj {e : Elem} :
    (w.toBytes e).read e = (w'.toBytes e).read e ↔ w.toBytes e = w'.toBytes e := by
  rw [toBytes_read, toBytes_read]
  cases e <;> simp [Tensor.toBytes]

theorem uploaded_of_served {cache : ℕ → Option (Buffer K)} {e : Elem} {fails : Bool}
    (h : cache w.storage ≠ none ∨ fails = false) :
    uploaded cache w e fails = uploaded cache w e false := by
  unfold uploaded
  rcases h with h | rfl
  · rw [if_neg fun hnone => h hnone.1, if_neg fun hnone => h hnone.1]
  · rfl

/-- **What is bound to another weight** when an upload fails: the same, unless the two share their
storage. -/
theorem uploaded_read_iff {cache : ℕ → Option (Buffer K)} {e e' : Elem}
    (hnone : cache w.storage = none) (he : w'.storage = w.storage → e' = e) :
    ((uploaded cache w e true w'.storage).getD (w'.toBytes e')).read e' =
        ((uploaded cache w e false w'.storage).getD (w'.toBytes e')).read e' ↔
      (w'.storage = w.storage → w'.toBytes e = w.toBytes e) := by
  unfold uploaded
  rw [if_neg fun h => Bool.noConfusion h.2, if_pos ⟨hnone, rfl⟩]
  by_cases hstorage : w'.storage = w.storage
  · rw [he hstorage, hstorage, Function.update_self, hnone, Option.getD_none, Option.getD_some,
      toBytes_read_inj]
    exact ⟨fun h _ => h, fun h => h rfl⟩
  · rw [Function.update_of_ne hstorage]
    exact ⟨fun _ h => absurd h hstorage, fun _ => rfl⟩

theorem uploaded_eq_none {cache : ℕ → Option (Buffer K)} {e : Elem} {fails : Bool} {s : ℕ} :
    uploaded cache w e fails s = none ↔ cache s = none ∧ ¬(s = w.storage ∧ fails = false) := by
  unfold uploaded
  by_cases hfills : cache w.storage = none ∧ fails = false
  · rw [if_pos hfills]
    by_cases hs : s = w.storage
    · simp [hs, hfills.2]
    · rw [Function.update_of_ne hs]
      exact ⟨fun h => ⟨h, fun h' => hs h'.1⟩, fun h => h.1⟩
  · rw [if_neg hfills]
    refine ⟨fun h => ⟨h, ?_⟩, fun h => h.1⟩
    rintro ⟨rfl, hfails⟩
    exact hfills ⟨h, hfails⟩

/-! ### The chain -/

omit [Half K] in
theorem Buffer.read_ne_undefined (b : Buffer K) (e : Elem) : b.read e ≠ .undefined := by
  unfold Buffer.read
  split_ifs <;> simp

/-- A weight of the chain: as its buffer, if it has one. -/
def readGpu (shader : String) (bound : Buffer K) (gpu : Option (Buffer K)) : Reading K :=
  if gpu.isSome then bound.read (shaderElem shader) else .undefined

omit [Half K] in
/-- **What `execute_chained` reads of the weights**: the handles name their buffers, and nothing
else does. -/
theorem read_chain (args : ChainArgs K) {t ncols : ℕ} {norm lin : Tensor K}
    {normFails linFails : Bool} (normGpu linGpu : Option (Buffer K)) (shader0 shader1 : String)
    (bound0 bound1 : Buffer K) :
    (Call.rmsNormThenLinear t ncols norm lin normFails linFails).read args [normGpu, linGpu]
        [.gpu shader0 norm bound0, .gpu shader1 lin bound1] =
      [(some shader0, readGpu shader0 bound0 normGpu),
        (some shader1, readGpu shader1 bound1 linGpu)] := by
  cases normGpu <;> cases linGpu <;> rfl

omit [Half K] in
theorem read_cpu (args : ChainArgs K) (call : Call K) (gpus : List (Option (Buffer K)))
    (w : Tensor K) (copy : List K) (operands : List (Operand K)) :
    call.read args gpus (.cpu w copy :: operands) =
      (Operand.cpu w copy :: operands).map Operand.read := by
  unfold Call.read
  split
  · rename_i heq
    cases heq
  · rfl

theorem uploads_chain [Zero K] {t ncols : ℕ} {norm lin : Tensor K} {normFails linFails : Bool}
    (hctx : st.ctx = some ctx)
    (hchain : ¬(t ≥ matvecThreshold ∨ "rms_norm_f32_mul" ∉ (cachedAvailableShaders st ctx).2 ∨
      "mul_mat_vec_f32_f32_f32" ∉ (cachedAvailableShaders st ctx).2)) :
    uploads st (.rmsNormThenLinear t ncols norm lin normFails linFails) = [
      (st.weightCache norm.storage).or (if normFails then none else some (norm.toBytes .f32)),
      (uploaded st.weightCache norm .f32 normFails lin.storage).or
        (if linFails then none else some (lin.toBytes .f32))] := by
  have hctx₁ : (cachedAvailableShaders st ctx).1.ctx = some ctx := by
    rw [cachedAvailableShaders_ctx, hctx]
  obtain ⟨hnorm, hcache, hlin⟩ := @chain_uploads _ _ st ctx norm lin normFails linFails
  unfold uploads
  rw [Call.prog, Prog.calls_bind_pure]
  unfold rmsNormThenLinear
  rw [Prog.calls_perform_bind caches (exec_getContext hctx),
    Prog.calls_perform_bind caches (exec_availableShaders hctx), if_neg hchain,
    Prog.calls_perform_bind caches (exec_upload hctx₁ norm false normFails),
    Prog.calls_perform_bind caches (exec_upload (getOrUploadWeight_ctx.trans hctx₁) lin false
      linFails), hnorm, hlin]
  rfl

omit [Half K] in
/-- **A weight that is bound as bytes** is not read as the buffer it would have had. -/
theorem readGpu_eq_iff {shader : String} {cached : Option (Buffer K)} {b : Buffer K} {fails : Bool}
    (bound : Option (Buffer K) → Buffer K) :
    readGpu shader (bound (cached.or (if fails then none else some b)))
        (cached.or (if fails then none else some b)) =
      readGpu shader (bound (cached.or (some b))) (cached.or (some b)) ↔
    cached ≠ none ∨ fails = false := by
  cases cached with
  | some c => simp
  | none =>
    cases fails with
    | false => simp
    | true =>
      refine iff_of_false (fun h => ?_) (by simp)
      exact Buffer.read_ne_undefined (bound (some b)) (shaderElem shader) h.symm

/-- The shaders of the chain are there, and the input has few rows. -/
def Chained (st : State K) (ctx : Ctx) (t : ℕ) : Prop :=
  t < matvecThreshold ∧ "rms_norm_f32_mul" ∈ (cachedAvailableShaders st ctx).2 ∧
    "mul_mat_vec_f32_f32_f32" ∈ (cachedAvailableShaders st ctx).2

omit [Half K] in
theorem not_chained_iff {t : ℕ} : ¬ Chained st ctx t ↔ t ≥ matvecThreshold ∨
    "rms_norm_f32_mul" ∉ (cachedAvailableShaders st ctx).2 ∨
    "mul_mat_vec_f32_f32_f32" ∉ (cachedAvailableShaders st ctx).2 := by
  rw [Chained, not_and_or, not_and_or, Nat.not_lt]

omit [Half K] in
theorem not_normFallback_iff {t : ℕ} {norm : Tensor K} {normFails : Bool}
    (hchain : Chained st ctx t) : ¬ NormFallback st ctx t norm normFails ↔
      st.weightCache norm.storage ≠ none ∨ normFails = false := by
  obtain ⟨ht, hnorm, hmatvec⟩ := hchain
  simp only [NormFallback, ht, hnorm, hmatvec, true_and, not_and_or, Bool.not_eq_true]
  exact or_comm

theorem not_linearFallback_iff {t : ℕ} {norm lin : Tensor K} {normFails linFails : Bool}
    (hchain : Chained st ctx t) : ¬ LinearFallback st ctx t norm lin normFails linFails ↔
      uploaded st.weightCache norm .f32 normFails lin.storage ≠ none ∨ linFails = false := by
  obtain ⟨ht, hnorm, hmatvec⟩ := hchain
  rw [Ne, uploaded_eq_none]
  simp only [LinearFallback, ht, hnorm, hmatvec, true_and]
  rw [not_and_or, Bool.not_eq_true, or_comm]

theorem readings_chain [Zero K] (args : ChainArgs K) {t ncols : ℕ} {norm lin : Tensor K}
    (hctx : st.ctx = some ctx) (hchain : Chained st ctx t) (normFails linFails : Bool) :
    readings args st (.rmsNormThenLinear t ncols norm lin normFails linFails) = some (.ok [
      (some "rms_norm_f32_mul", readGpu "rms_norm_f32_mul"
        (((st.weightCache norm.storage).or
          (if normFails then none else some (norm.toBytes .f32))).getD
            ⟨.f32, List.replicate ncols 0⟩)
        ((st.weightCache norm.storage).or
          (if normFails then none else some (norm.toBytes .f32)))),
      (some "mul_mat_vec_f32_f32_f32", readGpu "mul_mat_vec_f32_f32_f32"
        ((uploaded st.weightCache norm .f32 normFails lin.storage).getD (lin.toBytes .f32))
        ((uploaded st.weightCache norm .f32 normFails lin.storage).or
          (if linFails then none else some (lin.toBytes .f32))))]) := by
  have hchain' := mt not_chained_iff.2 (not_not.2 hchain)
  simp only [readings, step, Call.prog, Prog.run_bind_pure]
  rw [rmsNormThenLinear_run hctx hchain', uploads_chain hctx hchain']
  exact congrArg (some ∘ Except.ok) (read_chain args _ _ _ _ _ _)

/-- Without the chain, `linear` serves the call from the weight itself. -/
theorem readings_of_not_chained [Zero K] (args : ChainArgs K) {t ncols : ℕ} {norm lin : Tensor K}
    (hctx : st.ctx = some ctx) (hchain : ¬ Chained st ctx t) (normFails linFails : Bool) :
    readings args st (.rmsNormThenLinear t ncols norm lin normFails linFails) =
      ((linear t lin linFails).run caches (cachedAvailableShaders st ctx).1).1.map
        fun operands => .ok ((Operand.cpu norm norm.elements :: operands).map Operand.read) := by
  simp only [readings, step, Call.prog, Prog.run_bind_pure]
  unfold rmsNormThenLinear
  rw [Prog.run_perform_bind caches (exec_getContext hctx),
    Prog.run_perform_bind caches (exec_availableShaders hctx), if_pos (not_chained_iff.1 hchain),
    Prog.run_bind_pure, Option.map_map, Option.map_map]
  refine congrArg (Option.map · _) (funext fun operands => ?_)
  exact congrArg Except.ok (read_cpu args _ _ norm norm.elements operands)

theorem rmsNormThenLinear_transparent_iff [Zero K] (args : ChainArgs K) {t ncols : ℕ}
    {norm lin : Tensor K} {normFails linFails : Bool} (hctx : st.ctx = some ctx) :
    Transparent args st (.rmsNormThenLinear t ncols norm lin normFails linFails) ↔
      ¬ NormFallback st ctx t norm normFails ∧
        ¬ LinearFallback st ctx t norm lin normFails linFails := by
  rw [Transparent, Call.succeeding]
  by_cases hchain : Chained st ctx t
  · rw [readings_chain args hctx hchain, readings_chain args hctx hchain,
      not_normFallback_iff hchain, not_linearFallback_iff hchain]
    simp only [Option.some.injEq, Except.ok.injEq, List.cons.injEq, Prod.mk.injEq, true_and,
      and_true, Bool.false_eq_true, if_false]
    refine (and_congr_left' (readGpu_eq_iff fun gpu => gpu.getD _)).trans ?_
    refine and_congr_right fun hnorm => ?_
    rw [uploaded_of_served hnorm]
    exact readGpu_eq_iff fun _ => _
  · rw [readings_of_not_chained args hctx hchain, readings_of_not_chained args hctx hchain,
      linear_run t lin linFails]
    exact iff_of_true rfl ⟨fun h => hchain ⟨h.1, h.2.1, h.2.2.1⟩,
      fun h => hchain ⟨h.1, h.2.1, h.2.2.1⟩⟩

theorem shaderElem_mlpShader (t : ℕ) (d : Bool) : shaderElem (mlpShader t d) = elemOf d := by
  unfold mlpShader
  split
  · exact shaderElem_if rfl rfl d
  · exact shaderElem_if rfl rfl d

theorem fusedSwigluMlp_transparent_iff {t : ℕ} {gateUp down : Tensor K}
    {gateUpFails downFails : Bool} (hctx : st.ctx = some ctx) :
    ((fusedSwigluMlp t gateUp down gateUpFails downFails).run caches st).1.map
        (Except.map (List.map Operand.read)) =
      ((fusedSwigluMlp t gateUp down false false).run caches st).1.map
        (Except.map (List.map Operand.read)) ↔
    (MlpUploads st ctx t gateUp down → gateUpFails = true →
      st.weightCache gateUp.storage = none → down.storage = gateUp.storage →
        down.toBytes (elemOf (weightUsesF16 (cachedAvailableShaders st ctx).1 ctx gateUp).2) =
          gateUp.toBytes
            (elemOf (weightUsesF16 (cachedAvailableShaders st ctx).1 ctx gateUp).2)) := by
  by_cases huploads : MlpUploads st ctx t gateUp down
  swap
  · rw [fusedSwigluMlp_run_of_not hctx huploads]
    exact iff_of_true rfl fun h => absurd h huploads
  rw [fusedSwigluMlp_run hctx huploads rfl, fusedSwigluMlp_run hctx huploads rfl]
  set d := (weightUsesF16 (cachedAvailableShaders st ctx).1 ctx gateUp).2 with hd
  set d' := (weightUsesF16 (weightUsesF16 (cachedAvailableShaders st ctx).1 ctx gateUp).1 ctx
    down).2 with hd'
  have hsame : down.storage = gateUp.storage → elemOf d' = elemOf d := by
    intro hstorage
    have hgate : Decided (weightUsesF16 (weightUsesF16 (cachedAvailableShaders st ctx).1 ctx
        gateUp).1 ctx down).1 gateUp d := (decided_weightUsesF16 _ ctx gateUp).mono ctx down
    have hdown : Decided (weightUsesF16 (weightUsesF16 (cachedAvailableShaders st ctx).1 ctx
        gateUp).1 ctx down).1 down d' := decided_weightUsesF16 _ ctx down
    rw [Decided, hstorage] at hdown
    rw [Option.some.inj (hdown.symm.trans hgate)]
  simp only [Option.map_some, Except.map, List.map_cons, List.map_nil, Operand.read,
    Option.some.injEq, Except.ok.injEq, List.cons.injEq, Prod.mk.injEq, true_and, and_true,
    shaderElem_mlpShader]
  by_cases hserved : st.weightCache gateUp.storage ≠ none ∨ gateUpFails = false
  · rw [uploaded_of_served hserved]
    refine iff_of_true rfl ?_
    intro _ hfails hnone
    rcases hserved with h | h
    · exact absurd hnone h
    · exact absurd (hfails.symm.trans h) Bool.noConfusion
  · simp only [not_or, not_not, Bool.not_eq_false] at hserved
    obtain ⟨hnone, rfl⟩ := hserved
    rw [uploaded_read_iff hnone hsame]
    exact ⟨fun h _ _ _ => h, fun h => h huploads rfl hnone⟩

/-- **Failed uploads change nothing** exactly when the chain binds no weight as bytes, and no weight
shares the storage of one whose upload fails without sharing its elements. -/
theorem transparent_iff [Zero K] (args : ChainArgs K) (st : State K) (call : Call K) :
    Transparent args st call ↔ Harmless st call := by
  have hraises : st.ctx = none → caches.exec .getContext st = (none, st) := by
    intro hctx
    simp only [caches, withContext, hctx]
  cases call with
  | linear t w fails =>
    refine iff_of_true ?_ trivial
    have hread : ∀ fails, readings args st (.linear t w fails) =
        (((linear t w fails).run caches st).1.map Except.ok).map
          (Except.map (List.map Operand.read)) := by
      intro fails
      simp only [readings, step, Call.prog, Prog.run_bind_pure]
      rfl
    rw [Transparent, Call.succeeding, hread, hread, linear_run t w fails]
  | weightUsesF16 w => exact iff_of_true rfl trivial
  | rmsNormThenLinear t ncols norm lin normFails linFails =>
    cases hctx : st.ctx with
    | none =>
      have hnone : ∀ fails fails',
          readings args st (.rmsNormThenLinear t ncols norm lin fails fails') = none := by
        intro fails fails'
        simp only [readings, step, Call.prog, Prog.run_bind_pure]
        have hrun : ((rmsNormThenLinear t ncols norm lin fails fails').run caches st).1 = none :=
          congrArg Prod.fst (bind_none (hraises hctx))
        rw [hrun]
        rfl
      refine iff_of_true ((hnone _ _).trans (hnone _ _).symm) fun ctx h => ?_
      exact absurd (h.symm.trans hctx) (Option.some_ne_none ctx)
    | some ctx =>
      rw [rmsNormThenLinear_transparent_iff args hctx]
      refine ⟨fun h ctx' hctx' => ?_, fun h => h ctx hctx⟩
      rwa [← Option.some.inj (hctx.symm.trans hctx')]
  | fusedSwigluMlp t gateUp down gateUpFails downFails =>
    have hread : ∀ fails fails', readings args st (.fusedSwigluMlp t gateUp down fails fails') =
        ((fusedSwigluMlp t gateUp down fails fails').run caches st).1.map
          (Except.map (List.map Operand.read)) := fun _ _ => rfl
    rw [Transparent, Call.succeeding, hread, hread]
    cases hctx : st.ctx with
    | none =>
      have hnone : ∀ fails fails',
          ((fusedSwigluMlp t gateUp down fails fails').run caches st).1 = none :=
        fun _ _ => congrArg Prod.fst (bind_none (hraises hctx))
      rw [hnone, hnone]
      exact iff_of_true rfl fun ctx h => absurd (h.symm.trans hctx) (Option.some_ne_none ctx)
    | some ctx =>
      rw [fusedSwigluMlp_transparent_iff hctx]
      refine ⟨fun h ctx' hctx' => ?_, fun h => h ctx hctx⟩
      rwa [← Option.some.inj (hctx.symm.trans hctx')]

/-- A context with the shaders of the chain. -/
def chainCtx : Ctx := ⟨["rms_norm_f32_mul", "mul_mat_vec_f32_f32_f32"]⟩

/-- The weight of a norm. -/
def oneNorm : Tensor ℤ := ⟨0, .bfloat16, [1], [1], rfl⟩

/-- A chain on one row of one element. -/
def oneChain : ChainArgs ℤ := ⟨[0, 0, 0, 0], [], [], fun _ => [0, 0, 0, 0]⟩

/-- **The fallbacks of the chain.**  The norm, `[1]`, falls back to zeros; and what is bound for it,
or for the linear weight, is not found again. -/
theorem chain_fallbacks :
    (¬ Transparent oneChain (.init chainCtx)
        (.rmsNormThenLinear 1 1 oneNorm (oneElement 1 5) true false) ∧
      ¬ Transparent oneChain (.init chainCtx)
        (.rmsNormThenLinear 1 1 oneNorm (oneElement 1 5) false true)) ∧
      ((rmsNormThenLinear 1 1 oneNorm (oneElement 1 5) true false).run caches
        (.init chainCtx)).1 = some [.gpu "rms_norm_f32_mul" oneNorm ⟨.f32, [0]⟩,
          .gpu "mul_mat_vec_f32_f32_f32" (oneElement 1 5) ⟨.f32, [5]⟩] := by
  refine ⟨⟨?_, ?_⟩, rfl⟩
  · unfold Transparent
    decide
  · unfold Transparent
    decide

end Contents

end VllmVulkan
