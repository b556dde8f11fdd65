import VllmVulkan.Weights.Contents

/-!
# The caches without the elements

`VllmVulkan.Weights.Contents` has the elements of the weights; `VllmVulkan.Weights.Cache` has only
what decides which buffer and which shader a call takes.  The second is the first with the elements
erased.

* `Tensor.erase`, `State.erase`, `dispatches` : what is left of weights, of the caches and of the
  operands of a call;
* `step_erase` : **a call, erased, is the call on the erased weights**;
* `Operand.Reads` : what an operand hands to its shader are the elements of its weight, in the
  format that the shader reads;
* `operands_read` : **so does every operand** of a run in which all that is asked about a storage
  agrees, the element type included.
-/

namespace VllmVulkan

namespace Contents

open Machine Panics Sessions Weights

variable {K : Type} [Half K]

/-! ### Erasure -/

/-- What the choice of a buffer and of a shader depends on. -/
def Tensor.erase (w : Tensor K) : Weight where
  storage := w.storage
  outFeat := w.outFeat
  inFeat := w.inFeat
  safeForF16 := weightSafeForF16 w

omit [Half K] in
/-- The caches, with the element types of the buffers. -/
def State.erase (st : State K) : Weights.State where
  ctx := st.ctx
  availableShadersCache := st.availableShadersCache
  weightCache s := (st.weightCache s).map Buffer.elem
  weightF16DecisionCache := st.weightF16DecisionCache

/-- The dispatch an operand is for, if it is on the GPU. -/
def Operand.dispatch : Operand K → Option Dispatch
  | .gpu shader w bound => some { shader := shader, storage := w.storage, bound := bound.elem }
  | .cpu _ _ => none

/-- The dispatches of a call. -/
def dispatches (operands : List (Operand K)) : List Dispatch := operands.filterMap Operand.dispatch

/-- A run, erased; it stopped where there is no context. -/
def erased {α : Type} (out : α → Except Raised (List Dispatch)) (r : Option α × State K) :
    Weights.State × Except Raised (List Dispatch) :=
  (r.2.erase, (r.1.map out).getD (.error (.runtimeError "VulkanContext not initialised.")))

/-- The call on erased weights.  A decision alone is not one of those calls. -/
def Call.erase : Call K → Option Weights.Call
  | .linear t w fails => some (.linear t w.erase fails)
  | .rmsNormThenLinear t _ norm lin normFails linFails =>
    some (.rmsNormThenLinear t norm.erase lin.erase normFails linFails)
  | .fusedSwigluMlp t gateUp down gateUpFails downFails =>
    some (.fusedSwigluMlp t gateUp.erase down.erase gateUpFails downFails)
  | .weightUsesF16 _ => none

/-! ### The caches -/

variable {st : State K} {ctx : Ctx} {w : Tensor K}

@[simp] theorem erase_storage (w : Tensor K) : w.erase.storage = w.storage := rfl

@[simp] theorem erase_outFeat (w : Tensor K) : w.erase.outFeat = w.outFeat := rfl

@[simp] theorem erase_inFeat (w : Tensor K) : w.erase.inFeat = w.inFeat := rfl

@[simp] theorem toBytes_elem (w : Tensor K) (e : Elem) : (w.toBytes e).elem = e := by
  cases e <;> rfl

omit [Half K] in
theorem cachedAvailableShaders_erase : Weights.cachedAvailableShaders st.erase ctx =
    ((cachedAvailableShaders st ctx).1.erase, (cachedAvailableShaders st ctx).2) := by
  unfold Weights.cachedAvailableShaders Contents.cachedAvailableShaders
  cases h : st.availableShadersCache with
  | some shaders => simp only [State.erase, h]
  | none => simp only [State.erase, h]

theorem weightUsesF16_erase : Weights.weightUsesF16 st.erase ctx w.erase =
    ((weightUsesF16 st ctx w).1.erase, (weightUsesF16 st ctx w).2) := by
  unfold Weights.weightUsesF16 Contents.weightUsesF16
  rw [cachedAvailableShaders_erase]
  cases h : st.weightF16DecisionCache w.storage with
  | some cached => simp only [State.erase, Tensor.erase, h]
  | none => simp only [State.erase, Tensor.erase, h, f16Decision]

omit [Half K] in
theorem map_update (cache : ℕ → Option (Buffer K)) (k : ℕ) (b : Buffer K) :
    (fun s => (Function.update cache k (some b) s).map Buffer.elem) =
      Function.update (fun s => (cache s).map Buffer.elem) k (some b.elem) :=
  Function.comp_update (Option.map Buffer.elem) cache k (some b)

theorem getOrUploadWeight_erase (preferF16 fails : Bool) :
    Weights.getOrUploadWeight st.erase ctx w.erase preferF16 fails =
      ((getOrUploadWeight st ctx w preferF16 fails).1.erase,
        (getOrUploadWeight st ctx w preferF16 fails).2.map Buffer.elem) := by
  unfold Weights.getOrUploadWeight Contents.getOrUploadWeight
  rw [weightUsesF16_erase]
  cases h : st.weightCache w.storage with
  | some cached => simp only [State.erase, Tensor.erase, h, Option.map_some]
  | none =>
    simp only [show st.erase.weightCache w.erase.storage = none by
      simp only [State.erase, Tensor.erase, h, Option.map_none]]
    cases preferF16 <;> cases fails <;>
      simp only [State.erase, Tensor.erase, map_update, toBytes_elem, if_true, if_false,
        Bool.false_eq_true, Option.map_some, Option.map_none]

omit [Half K] in
theorem getOrConvertToFloat32Cpu_erase (st : State K) (w : Tensor K) :
    (getOrConvertToFloat32Cpu st w).1.erase = st.erase := by
  unfold Contents.getOrConvertToFloat32Cpu
  split_ifs
  · rfl
  · cases st.cpuFloat32Cache w.storage with
    | some cached => rfl
    | none => rfl

/-! ### The calls -/

theorem exec_float32Cpu (w : Tensor K) (hctx : st.ctx = some ctx) :
    caches.exec (.float32Cpu w) st =
      (some (getOrConvertToFloat32Cpu st w).2, (getOrConvertToFloat32Cpu st w).1) := by
  simp only [caches, withContext, hctx]

omit [Half K] in
theorem erased_map {α β : Type} {out : β → Except Raised (List Dispatch)} {g : α → β}
    (r : Option α × State K) : erased out (r.1.map g, r.2) = erased (fun a => out (g a)) r := by
  simp only [erased, Option.map_map, Function.comp_def]

omit [Half K] in
theorem dispatches_cons_gpu (shader : String) (w : Tensor K) (gpu : Option (Buffer K))
    (bytes : Buffer K) (operands : List (Operand K)) :
    dispatches (.gpu shader w (gpu.getD bytes) :: operands) =
      ⟨shader, w.storage, (gpu.map Buffer.elem).getD bytes.elem⟩ :: dispatches operands := by
  rw [Option.getD_map]
  rfl

theorem erased_getContext_none {α : Type} {out : α → Except Raised (List Dispatch)}
    {f : Unit → Prog (Ask K) α} (hctx : st.ctx = none) :
    erased out ((Prog.perform .getContext >>= f).run caches st) =
      (st.erase, .error (.runtimeError "VulkanContext not initialised.")) := by
  have hexec : caches.exec .getContext st = (none, st) := by
    simp only [caches, withContext, hctx]
  have hrun : (Prog.perform .getContext >>= f).run caches st = (none, st) := bind_none hexec
  rw [hrun]
  rfl

theorem vulkanLinear_erase (f16Shader f32Shader : String) (fails : Bool)
    (hctx : st.ctx = some ctx) :
    erased (fun operands => .ok (dispatches operands))
        ((vulkanLinear f16Shader f32Shader w fails).run caches st) =
      ((Weights.vulkanLinear f16Shader f32Shader st.erase ctx w.erase fails).1,
        .ok (Weights.vulkanLinear f16Shader f32Shader st.erase ctx w.erase fails).2) := by
  have hctx' : (weightUsesF16 st ctx w).1.ctx = some ctx := weightUsesF16_ctx.trans hctx
  unfold Contents.vulkanLinear Weights.vulkanLinear
  rw [Prog.run_perform_bind caches (exec_usesF16 hctx w),
    Prog.run_perform_bind caches (exec_upload hctx' w true fails), weightUsesF16_erase]
  simp only [getOrUploadWeight_erase]
  change (_, Except.ok (dispatches _)) = _
  rw [dispatches_cons_gpu, toBytes_elem]
  rfl

theorem linear_erase (t : ℕ) (fails : Bool) :
    erased (fun operands => .ok (dispatches operands)) ((linear t w fails).run caches st) =
      Weights.linear st.erase t w.erase fails := by
  unfold Contents.linear Weights.linear
  cases hctx : st.ctx with
  | none =>
    simp only [show st.erase.ctx = none from hctx]
    exact erased_getContext_none hctx
  | some ctx =>
    have hctx' : (cachedAvailableShaders st ctx).1.ctx = some ctx :=
      cachedAvailableShaders_ctx.trans hctx
    simp only [show st.erase.ctx = some ctx from hctx, erase_inFeat, erase_outFeat,
      cachedAvailableShaders_erase]
    rw [Prog.run_perform_bind caches (exec_getContext hctx),
      Prog.run_perform_bind caches (exec_availableShaders hctx)]
    split_ifs
    · exact vulkanLinear_erase _ _ fails hctx'
    · exact vulkanLinear_erase _ _ fails hctx'
    · rw [Prog.run_perform_bind caches (exec_float32Cpu w hctx'),
        ← getOrConvertToFloat32Cpu_erase _ w]
      rfl

variable [Zero K]

theorem rmsNormThenLinear_erase (t ncols : ℕ) (norm lin : Tensor K) (normFails linFails : Bool) :
    erased (fun operands => .ok (dispatches operands))
        ((rmsNormThenLinear t ncols norm lin normFails linFails).run caches st) =
      Weights.rmsNormThenLinear st.erase t norm.erase lin.erase normFails linFails := by
  unfold Contents.rmsNormThenLinear Weights.rmsNormThenLinear
  cases hctx : st.ctx with
  | none =>
    simp only [show st.erase.ctx = none from hctx]
    exact erased_getContext_none hctx
  | some ctx =>
    have hctx' : (cachedAvailableShaders st ctx).1.ctx = some ctx :=
      cachedAvailableShaders_ctx.trans hctx
    simp only [show st.erase.ctx = some ctx from hctx, cachedAvailableShaders_erase]
    rw [Prog.run_perform_bind caches (exec_getContext hctx),
      Prog.run_perform_bind caches (exec_availableShaders hctx)]
    split_ifs
    · -- the norm is an operand on the CPU, and no dispatch
      rw [← linear_erase, Prog.run_bind_pure, erased_map]
      rfl
    · rw [Prog.run_perform_bind caches (exec_upload hctx' norm false normFails),
        Prog.run_perform_bind caches (exec_upload (getOrUploadWeight_ctx.trans hctx') lin false
          linFails)]
      simp only [getOrUploadWeight_erase]
      change (_, Except.ok (dispatches _)) = _
      rw [dispatches_cons_gpu, dispatches_cons_gpu, toBytes_elem]
      rfl

omit [Zero K] in
theorem fusedSwigluMlp_erase (t : ℕ) (gateUp down : Tensor K) (gateUpFails downFails : Bool) :
    erased (Except.map dispatches)
        ((fusedSwigluMlp t gateUp down gateUpFails downFails).run caches st) =
      Weights.fusedSwigluMlp st.erase t gateUp.erase down.erase gateUpFails downFails := by
  unfold Contents.fusedSwigluMlp Weights.fusedSwigluMlp
  cases hctx : st.ctx with
  | none =>
    simp only [show st.erase.ctx = none from hctx]
    exact erased_getContext_none hctx
  | some ctx =>
    have hctx₁ : (cachedAvailableShaders st ctx).1.ctx = some ctx :=
      cachedAvailableShaders_ctx.trans hctx
    simp only [show st.erase.ctx = some ctx from hctx, cachedAvailableShaders_erase, erase_inFeat,
      erase_outFeat]
    rw [Prog.run_perform_bind caches (exec_getContext hctx)]
    by_cases hsize : gateUp.inFeat * gateUp.outFeat < matvecMinWeightElements ∨
        gateUp.outFeat / 2 * down.outFeat < matvecMinWeightElements
    · rw [if_pos hsize, if_pos hsize]
      rfl
    rw [if_neg hsize, if_neg hsize, Prog.run_perform_bind caches (exec_availableShaders hctx)]
    by_cases hswiglu : "swiglu_f32" ∉ (cachedAvailableShaders st ctx).2
    · rw [if_pos hswiglu, if_pos hswiglu]
      rfl
    rw [if_neg hswiglu, if_neg hswiglu, Prog.run_perform_bind caches (exec_usesF16 hctx₁ gateUp)]
    have hctx₂ : (weightUsesF16 (cachedAvailableShaders st ctx).1 ctx gateUp).1.ctx = some ctx :=
      weightUsesF16_ctx.trans hctx₁
    rw [Prog.run_perform_bind caches (exec_usesF16 hctx₂ down)]
    simp only [weightUsesF16_erase]
    split_ifs
    · rfl
    have hctx₃ : (weightUsesF16 (weightUsesF16 (cachedAvailableShaders st ctx).1 ctx gateUp).1 ctx
        down).1.ctx = some ctx := weightUsesF16_ctx.trans hctx₂
    rw [Prog.run_perform_bind caches (exec_upload hctx₃ gateUp true gateUpFails),
      Prog.run_perform_bind caches (exec_upload (getOrUploadWeight_ctx.trans hctx₃) down true
        downFails)]
    simp only [getOrUploadWeight_erase]
    change (_, Except.ok (dispatches _)) = _
    rw [dispatches_cons_gpu, dispatches_cons_gpu, toBytes_elem, toBytes_elem]
    rfl

/-- **A call, erased, is the call on the erased weights.** -/
theorem step_erase {call : Call K} {call' : Weights.Call} (h : call.erase = some call') :
    erased (Except.map dispatches) (step st call).swap = Weights.step st.erase call' := by
  cases call with
  | linear t w fails =>
    cases h
    simp only [Contents.step, Call.prog, Prod.swap_prod_mk, Prog.run_bind_pure, erased_map]
    exact linear_erase t fails
  | rmsNormThenLinear t ncols norm lin normFails linFails =>
    cases h
    simp only [Contents.step, Call.prog, Prod.swap_prod_mk, Prog.run_bind_pure, erased_map]
    exact rmsNormThenLinear_erase t ncols norm lin normFails linFails
  | fusedSwigluMlp t gateUp down gateUpFails downFails =>
    cases h
    exact fusedSwigluMlp_erase t gateUp down gateUpFails downFails
  | weightUsesF16 w => cases h

/-! ### Runs -/

/-- What an operand hands to its shader are the elements of its weight, in the format the shader
reads. -/
def Operand.Reads : Operand K → Prop
  | .gpu shader w bound => bound = w.toBytes (shaderElem shader)
  | .cpu w copy => copy = w.elements

/-- All that a call asks agrees with what the storages are taken to hold, and the element types it
asks for are those of the buffers. -/
def Typed (ctx : Ctx) (held : Held K) (st : State K) (call : Call K) : Prop :=
  Settled ctx held st call ∧ ∀ call', call.erase = some call' →
    UsesKind (fun s => (held.buffer s).elem) st.erase call'

omit [Half K] [Zero K] in
/-- The buffers that are what the storages are taken to hold have its element types. -/
theorem Holds.kinds {held : Held K} (h : Holds ctx held st) :
    Kinds (fun s => (held.buffer s).elem) st.erase := by
  intro s e he
  obtain ⟨buffer, hbuffer, rfl⟩ := Option.map_eq_some_iff.1 he
  rw [h.buffer s buffer hbuffer]

theorem Holds.reads {held : Held K} {call : Call K} (h : Holds ctx held st)
    (htyped : Typed ctx held st call) {operands : List (Operand K)}
    (hrun : (Contents.step st call).2 = some (.ok operands)) : ∀ o ∈ operands, o.Reads := by
  have hown : OperandsOwn operands := (h.step htyped.1).2.2 operands hrun
  intro o ho
  cases hcall : call.erase with
  | none =>
    -- a decision alone has no operands
    cases call with
    | weightUsesF16 w =>
      simp only [Contents.step, Call.prog] at hrun
      rw [Prog.run_perform_bind caches (exec_usesF16 h.installed w)] at hrun
      cases hrun
      cases ho
    | linear => cases hcall
    | rmsNormThenLinear => cases hcall
    | fusedSwigluMlp => cases hcall
  | some call' =>
    have hmatch := (step_spec h.kinds (htyped.2 call' hcall)).2
    rw [← step_erase hcall] at hmatch
    have hdispatches : (erased (Except.map dispatches) (Contents.step st call).swap).2 =
        .ok (dispatches operands) := by
      simp only [erased, Prod.fst_swap, hrun]
      rfl
    cases o with
    | cpu w copy => exact hown _ ho
    | gpu shader w bound =>
      have helem : bound.elem = shaderElem shader :=
        hmatch _ hdispatches _ (List.mem_filterMap.2 ⟨_, ho, rfl⟩)
      rw [Operand.Reads, ← helem]
      exact hown _ ho

/-- **Every operand reads the elements of its weight** in the format of its shader, in every run in
which all that is asked about a storage agrees, the element type included. -/
theorem operands_read (ctx : Ctx) (held : Held K) (calls : List (Call K))
    (htyped : ∀ τ ∈ transitions step (.init ctx) calls, Typed ctx held τ.pre τ.input) :
    ∀ τ ∈ transitions step (.init ctx) calls, ∀ operands, τ.output = some (.ok operands) →
      ∀ o ∈ operands, o.Reads := by
  have hstep : ∀ st call, Holds ctx held st → Typed ctx held st call →
      Holds ctx held (Contents.step st call).1 := fun st call h htyped => (h.step htyped.1).1
  exact forall_transitions hstep (fun st call h htyped operands hrun => h.reads htyped hrun)
    (.init ctx held) htyped

end Contents

end VllmVulkan
