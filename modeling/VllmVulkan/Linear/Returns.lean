import VllmVulkan.Linear.Layer

/-!
# What the layers return

Runs of `linear` and `fused_swiglu_mlp` on one context, with one weight for every storage.  A weight
that is multiplied on the GPU is rounded to half precision where the decision for it says so.

* `Call`, `step`, `Call.work` : the calls, and what each of them does without the caches;
* `transitions_transparent` : **the caches are transparent** in every run;
* `weightElements` : the elements a weight is multiplied with;
* `linear_returns` : **every `linear` returns `x W^T + b`**, on the GPU or on the CPU, in whatever
  order the invocations store;
* `fused_eq_plain` : **every `fused_swiglu_mlp` that is not refused returns the fused MLP**, which
  is what the two linear layers and the activation between them return where these have their
  shaders.
-/

namespace VllmVulkan

namespace Contents

namespace Layer

open Machine Panics Sessions Weights Store

variable {F : Type} [Field F] [Half F]

/-! ### Runs -/

/-- The calls, with the uploads that fail. -/
inductive Call (F : Type) where
  | linear (x : VllmVulkan.Tensor F) (w : Tensor F) (bias : Option (List F)) (uploadFails : Bool)
  | fusedSwigluMlp (x : VllmVulkan.Tensor F) (gateUp down : Tensor F)
    (gateUpFails downFails : Bool)

/-- What a call asks and does. -/
def Call.prog : Call F → Prog (Ask F) (Py (Work F))
  | .linear x w bias fails => Layer.linear x w bias fails
  | .fusedSwigluMlp x gateUp down gateUpFails downFails =>
    Layer.fusedSwigluMlp x gateUp down gateUpFails downFails

/-- One call; without a context it raises. -/
def step (st : State F) (call : Call F) : State F × Option (Py (Work F)) :=
  ((call.prog.run caches st).2, (call.prog.run caches st).1)

/-- The weights of a call. -/
def Call.weights : Call F → List (Tensor F)
  | .linear _ w _ _ => [w]
  | .fusedSwigluMlp _ gateUp down _ _ => [gateUp, down]

/-- What a call does without the caches. -/
def Call.work (ctx : Ctx) : Call F → Py (Work F)
  | .linear x w bias _ => linearWork ctx x w bias
  | .fusedSwigluMlp x gateUp down _ _ => fusedWork ctx x gateUp down

/-- Every storage holds one weight. -/
def Call.Over (weights : ℕ → Tensor F) (call : Call F) : Prop :=
  ∀ w ∈ call.weights, weights w.storage = w

variable {ctx : Ctx} {weights : ℕ → Tensor F}

theorem Call.ensures {call : Call F} (h : call.Over weights) :
    call.prog.Ensures (Asks weights) (Answers ctx) (· = call.work ctx) := by
  cases call with
  | linear x w bias fails => exact linear_ensures (h w List.mem_cons_self)
  | fusedSwigluMlp x gateUp down gateUpFails downFails =>
    exact fusedSwigluMlp_ensures (h gateUp List.mem_cons_self)
      (h down (List.mem_cons_of_mem _ List.mem_cons_self))

/-- **The caches are transparent**: in every run a call does what it does without them. -/
theorem transitions_transparent {calls : List (Call F)}
    (hcalls : ∀ call ∈ calls, call.Over weights) :
    ∀ τ ∈ transitions step (.init ctx) calls, τ.output = some (τ.input.work ctx) := by
  have hstep : ∀ st call, Holds ctx (heldOf ctx weights) st → call.Over weights →
      Holds ctx (heldOf ctx weights) (step st call).1 ∧
        (step st call).2 = some (call.work ctx) := by
    intro st call hst hover
    obtain ⟨r, st', hrun, rfl, hst'⟩ :=
      (Call.ensures hover).run (fun c _ h hasks => exec_spec c h hasks) hst
    simp only [step, hrun]
    exact ⟨hst', trivial⟩
  refine forall_transitions (fun st call h hover => (hstep st call h hover).1)
    (fun st call h hover => (hstep st call h hover).2) (.init ctx _) ?_
  intro τ hτ
  exact hcalls _ (input_mem hτ)

/-! ### A product -/

omit [Half F] in
theorem linearLeaves_row {t n k : ℕ} {useF16 : Bool} {r : String × List (PcWord F) × (ℕ × ℕ × ℕ)}
    (hr : mlpLinear t useF16 k n = .ok r) {w x old out : ℕ → F} (h : LinearLeaves r w x old out)
    {i : ℕ} (hi : i < t) : rowAt out n i =
      Parallel.linear (rowAt x k) ((List.range n).map (rowAt w k)) none i := by
  rw [Parallel.linear, Parallel.addRow, List.map_map]
  refine List.map_congr_left ?_
  intro j hj
  rw [linearLeaves_product hr h hi (List.mem_range.1 hj)]
  exact (dot_rowAt x w k i j).symm

omit [Half F] in
theorem leaves_linear {silu : F → F} {op : Op F} (h : op.shaderName ≠ "swiglu_f32")
    {w x old out : ℕ → F} : op.Leaves silu [w, x] old out ↔
      LinearLeaves (op.shaderName, op.pushConstants, op.workgroups) w x old out :=
  Iff.of_eq (if_neg h)

/-- The elements that `linear` multiplies `t` rows with. -/
def weightElements (ctx : Ctx) (t : ℕ) (w : Tensor F) : List F :=
  if Dispatches ctx t w then (gpuBuffer ctx w).values else w.elements

omit [Half F] in
theorem batchRuns_one {silu : F → F} {op : Op F} {b : Buffer F} {x : List F}
    {outs : List (Output F)} (hbindings : op.bindings = [.weight b, .activation x])
    (h : BatchRuns silu [op] [] outs) :
    ∃ old out, outs = recorded [] out op.barrierAfter ∧
      op.Leaves silu [fun i => b.values.getD i 0, fun i => x.getD i 0] old out := by
  obtain ⟨vs, old, out, hvs, hleaves, rfl⟩ := h
  rw [hbindings] at hvs
  obtain _ | ⟨rfl, hvs⟩ := hvs
  obtain _ | ⟨rfl, hvs⟩ := hvs
  cases hvs
  exact ⟨old, out, rfl, hleaves⟩

/-- **The product of `linear`** is `x W^T`, on any of the three ways. -/
theorem linearProduct_leaves (silu : F → F) {x : List F} {t : ℕ} {w : Tensor F} {p : Product F}
    (h : linearProduct ctx x t w = .ok p) :
    (∃ rows, p.Leaves silu t w.outFeat rows) ∧ ∀ rows, p.Leaves silu t w.outFeat rows →
      rows = linearRows t w.outFeat w.inFeat x (weightElements ctx t w) none := by
  unfold linearProduct at h
  unfold weightElements
  split_ifs at h ⊢ with hdispatches
  · obtain ⟨r, hr, hp⟩ := Py.bind_eq_ok.1 h
    obtain rfl := Py.pure_eq_ok.1 hp
    have hshader : r.1 ≠ "swiglu_f32" := mlpLinear_ne_swiglu hr
    constructor
    · obtain ⟨out, hout⟩ := exists_linearLeaves hr (fun i => (gpuBuffer ctx w).values.getD i 0)
        (fun i => x.getD i 0) 0
      refine ⟨_, _, _, ⟨[_, _], 0, out, .cons rfl (.cons rfl .nil), ?_, rfl⟩, rfl, rfl⟩
      exact (leaves_linear hshader).2 hout
    · rintro rows ⟨outs, last, hruns, hlast, rfl⟩
      obtain ⟨old, out, rfl, hleaves⟩ := batchRuns_one rfl hruns
      obtain rfl := Option.some.inj hlast
      refine List.map_congr_left fun i hi => ?_
      exact linearLeaves_row hr ((leaves_linear hshader).1 hleaves) (List.mem_range.1 hi)
  · obtain rfl := Except.ok.inj h
    exact ⟨⟨_, rfl⟩, fun rows hrows => hrows⟩

/-! ### The end of a call -/

omit [Half F] in
theorem length_addRow {row : List F} {bias : Option (List F)} {n : ℕ} (hrow : row.length = n)
    (hbias : ∀ b ∈ bias, b.length = n) : (Parallel.addRow row bias).length = n := by
  cases bias with
  | none => exact hrow
  | some b => rw [Parallel.addRow, List.length_zipWith, hrow, hbias b rfl, Nat.min_self]

omit [Field F] [Half F] in
theorem reshapeRows_eq {x : VllmVulkan.Tensor F} {lead : List ℕ} {k : ℕ} (hk : 0 < k)
    (hx : x.shape = lead ++ [k]) : reshapeRows x.data k = .ok lead.prod := by
  have hlen : x.data.length = lead.prod * k := by
    rw [x.length_data, hx, List.prod_append, List.prod_singleton]
  have hambiguous : ¬ (k = 0 ∧ x.data.length = 0) := fun h => hk.ne' h.1
  have hdvd : ¬ ¬ k ∣ x.data.length := not_not.2 (hlen ▸ Nat.dvd_mul_left k _)
  rw [reshapeRows, raiseIf, if_neg hambiguous, raiseIf, if_neg hdvd, hlen, Nat.mul_div_cancel _ hk]
  rfl

/-- A tensor with the leading dimensions of `x`, and these rows. -/
def HasRows (lead : List ℕ) (n : ℕ) (rows : List (List F)) (r : Py (VllmVulkan.Tensor F)) : Prop :=
  ∃ y, r = .ok y ∧ y.shape = lead ++ [n] ∧ y.data = rows.flatten

omit [Half F] in
/-- **The end of a call** on as many rows as there are leading positions. -/
theorem finish_hasRows {work : Work F} {lead : List ℕ} {k : ℕ} {rows : List (List F)}
    (hshape : work.origShape = lead ++ [k]) (hlen : rows.length = lead.prod)
    (hrows : ∀ row ∈ rows, (Parallel.addRow row work.bias).length = work.outFeat) :
    HasRows lead work.outFeat (rows.map fun row => Parallel.addRow row work.bias)
      (work.finish rows) := by
  have hdrop : work.origShape.dropLast = lead := by rw [hshape, List.dropLast_concat]
  have hsize : (rows.map fun row => Parallel.addRow row work.bias).flatten.length =
      (work.origShape.dropLast ++ [work.outFeat]).prod := by
    rw [← List.flatMap_def, VllmVulkan.Tensor.length_flatMap_of_length _ _ hrows, hlen, hdrop,
      List.prod_append, List.prod_singleton]
  exact ⟨⟨_, _, hsize⟩, dif_pos hsize, congrArg (· ++ [work.outFeat]) hdrop, rfl⟩

omit [Half F] in
theorem finish_none {work : Work F} {lead : List ℕ} {k : ℕ} {rows : List (List F)}
    (hshape : work.origShape = lead ++ [k]) (hbias : work.bias = none)
    (hlen : rows.length = lead.prod) (hrows : ∀ row ∈ rows, row.length = work.outFeat) :
    HasRows lead work.outFeat rows (work.finish rows) := by
  have hend := finish_hasRows hshape hlen (by rw [hbias]; exact hrows)
  rwa [hbias, show (fun row : List F => Parallel.addRow row none) = id from rfl, List.map_id]
    at hend

/-! ### `linear` -/

omit [Half F] in
theorem linearRows_bias (t n k : ℕ) (x values : List F) (bias : Option (List F)) :
    (linearRows t n k x values none).map (fun row => Parallel.addRow row bias) =
      linearRows t n k x values bias := by
  rw [linearRows, List.map_map]
  rfl

omit [Half F] in
theorem length_of_mem_linearRows {t n k : ℕ} {x values : List F} {row : List F}
    (h : row ∈ linearRows t n k x values none) : row.length = n := by
  obtain ⟨i, -, rfl⟩ := List.mem_map.1 h
  simp [Parallel.linear, Parallel.addRow, matrix]

/-- The push constants of a linear layer fit. -/
def Fits (t n k : ℕ) : Prop := n * k < 2 ^ 32 ∧ t * k < 2 ^ 32 ∧ t * n < 2 ^ 32

omit [Field F] [Half F] in
theorem exists_mlpLinear {t n k : ℕ} (ht : 0 < t) (hn : 0 < n) (hk : 0 < k) (h : Fits t n k)
    (useF16 : Bool) : ∃ r : String × List (PcWord F) × (ℕ × ℕ × ℕ),
      mlpLinear t useF16 k n = .ok r := by
  obtain ⟨hnk, htk, htn⟩ := h
  have hk' : k < 2 ^ 32 := (Nat.le_mul_of_pos_left k hn).trans_lt hnk
  have hn' : n < 2 ^ 32 := (Nat.le_mul_of_pos_right n hk).trans_lt hnk
  have ht' : t < 2 ^ 32 := (Nat.le_mul_of_pos_right t hk).trans_lt htk
  have hpack : ∀ {vs : List ℕ}, (∀ v ∈ vs, v < 2 ^ 32) →
      KvOps.structPack (vs.map (PcWord.u32 (α := F))) = .ok (vs.map .u32) := by
    intro vs hvs
    refine KvOps.structPack_eq_ok.2 ⟨?_, rfl⟩
    intro w hw
    obtain ⟨v, hv, rfl⟩ := List.mem_map.1 hw
    exact hvs v hv
  unfold mlpLinear
  split_ifs
  · rw [matvecPc, hpack (by simp [Nat.mul_comm k]; omega)]
    exact ⟨_, rfl⟩
  · rw [matmulPc, hpack (by simp [Nat.mul_comm k, Nat.mul_comm n t]; omega)]
    exact ⟨_, rfl⟩

omit [Field F] in
/-- A weight of `n` rows of `k` elements, as `linear` reads its shape. -/
theorem linearWork_eq {x : VllmVulkan.Tensor F} {w : Tensor F} (bias : Option (List F))
    {lead : List ℕ} {n k : ℕ} (hk : 0 < k) (hw : w.shape = [n, k]) (hx : x.shape = lead ++ [k]) :
    linearWork ctx x w bias = (do
      let product ← linearProduct ctx x.data lead.prod w
      return ⟨product, lead.prod, n, bias, x.shape⟩) := by
  have hin : w.inFeat = k := by rw [Tensor.inFeat, hw]; rfl
  have hout : w.outFeat = n := by rw [Tensor.outFeat, hw]; rfl
  rw [linearWork, hin, hout, reshapeRows_eq hk hx]
  rfl

/-- **What `linear` returns** without the caches. -/
theorem linearWork_returns (silu : F → F) {x : VllmVulkan.Tensor F} {w : Tensor F}
    {bias : Option (List F)} {lead : List ℕ} {n k : ℕ} {work : Work F} (hk : 0 < k)
    (hw : w.shape = [n, k]) (hx : x.shape = lead ++ [k]) (hbias : ∀ b ∈ bias, b.length = n)
    (h : linearWork ctx x w bias = .ok work) :
    (∃ r, work.Returns silu r) ∧ ∀ r, work.Returns silu r → HasRows lead n
      (linearRows lead.prod n k x.data (weightElements ctx lead.prod w) bias) r := by
  have hin : w.inFeat = k := by rw [Tensor.inFeat, hw]; rfl
  have hout : w.outFeat = n := by rw [Tensor.outFeat, hw]; rfl
  rw [linearWork_eq bias hk hw hx] at h
  obtain ⟨p, hp, hpure⟩ := Py.bind_eq_ok.1 h
  obtain rfl := Py.pure_eq_ok.1 hpure
  obtain ⟨⟨rows, hrows⟩, hall⟩ := linearProduct_leaves silu hp
  rw [hout] at hrows
  rw [hout, hin] at hall
  refine ⟨⟨_, rows, hrows, rfl⟩, ?_⟩
  rintro r ⟨rows, hleaves, rfl⟩
  obtain rfl := hall rows hleaves
  rw [← linearRows_bias]
  refine finish_hasRows hx (by simp [linearRows]) fun row hrow => ?_
  exact length_addRow (length_of_mem_linearRows hrow) hbias

/-- **Every `linear` returns `x W^T + b`**: in every run over one weight for every storage, whatever
uploads fail and in whatever order the invocations of a dispatch store.  What is dispatched fits, so
that the indices of the shaders, which are words, do not wrap. -/
theorem linear_returns (ctx : Ctx) (silu : F → F) {calls : List (Call F)}
    (hcalls : ∀ call ∈ calls, call.Over weights) :
    ∀ τ ∈ transitions step (.init ctx) calls, ∀ x w bias fails, τ.input = .linear x w bias fails →
      ∀ lead n k, 0 < n → 0 < k → w.shape = [n, k] → x.shape = lead ++ [k] → 0 < lead.prod →
        (∀ b ∈ bias, b.length = n) → (Dispatches ctx lead.prod w → Fits lead.prod n k) →
      ∃ work, τ.output = some (.ok work) ∧ (∃ r, work.Returns silu r) ∧
        ∀ r, work.Returns silu r → HasRows lead n
          (linearRows lead.prod n k x.data (weightElements ctx lead.prod w) bias) r := by
  intro τ hτ x w bias fails hinput lead n k hn hk hw hx ht hbias hfits
  have hwork : τ.output = some (linearWork ctx x w bias) := by
    rw [transitions_transparent hcalls τ hτ, hinput]
    rfl
  obtain ⟨p, hp⟩ : ∃ p, linearProduct ctx x.data lead.prod w = .ok p := by
    unfold linearProduct
    split_ifs with hdispatch
    · obtain ⟨r, hr⟩ := exists_mlpLinear ht hn hk (hfits hdispatch) (f16Decision ctx.shaders w)
      have hin : w.inFeat = k := by rw [Tensor.inFeat, hw]; rfl
      have hout : w.outFeat = n := by rw [Tensor.outFeat, hw]; rfl
      rw [hin, hout, hr]
      exact ⟨_, rfl⟩
    · exact ⟨_, rfl⟩
  have heq : linearWork ctx x w bias = .ok ⟨p, lead.prod, n, bias, x.shape⟩ := by
    rw [linearWork_eq bias hk hw hx, hp]
    rfl
  rw [hwork, heq]
  exact ⟨_, rfl, linearWork_returns silu hk hw hx hbias heq⟩

/-! ### A run -/

/-- A format of whole numbers. -/
instance wholeHalf : Half ℚ := ⟨fun q => ⌊q⌋, fun _ => true⟩

theorem length_filled (outFeat inFeat : ℕ) (a : ℚ) :
    (List.replicate (outFeat * inFeat) a).length = [outFeat, inFeat].prod := by
  rw [List.length_replicate, List.prod_cons, List.prod_singleton]

/-- A float32 weight with equal elements. -/
def filled (storage outFeat inFeat : ℕ) (a : ℚ) : Tensor ℚ where
  storage := storage
  dtype := .float32
  shape := [outFeat, inFeat]
  elements := List.replicate (outFeat * inFeat) a
  length_elements := length_filled outFeat inFeat a

/-- Rows with equal elements. -/
def rowsOf (t k : ℕ) (a : ℚ) : VllmVulkan.Tensor ℚ :=
  ⟨[t, k], List.replicate (t * k) a, length_filled t k a⟩

/-- A context with every shader of the layers. -/
def layerCtx : Ctx := ⟨["mul_mat_vec_f32_f32_f32", "mul_mat_vec_f16_f32_f32", "matmul_f32_f32",
  "matmul_f16_f32_fp32", "swiglu_f32"]⟩

theorem f16Decision_filled (storage outFeat inFeat : ℕ) (a : ℚ) :
    f16Decision layerCtx.shaders (filled storage outFeat inFeat a) = true := by
  have hsafe : weightSafeForF16 (filled storage outFeat inFeat a) = true :=
    List.all_eq_true.2 fun _ _ => rfl
  rw [f16Decision, hsafe]
  decide

theorem gpuBuffer_filled (storage outFeat inFeat : ℕ) (a : ℚ) :
    (gpuBuffer layerCtx (filled storage outFeat inFeat a)).values =
      List.replicate (outFeat * inFeat) (⌊a⌋ : ℚ) := by
  rw [gpuBuffer, f16Decision_filled]
  exact List.map_replicate

/-- A large weight under one row and under five, and a small one on the CPU. -/
def filledCalls : List (Call ℚ) :=
  [.linear (rowsOf 1 1000000 2) (filled 0 1 1000000 (3 / 2)) none true,
    .linear (rowsOf 5 1000000 2) (filled 0 1 1000000 (3 / 2)) none false,
    .linear (rowsOf 1 3 1) (filled 1 2 3 (3 / 2)) (some [10, 20]) false]

theorem linear_returns_filled : List.Forall
    (fun τ => ∃ work, τ.output = some (.ok work) ∧ (∃ r, work.Returns id r) ∧
      ∀ r, work.Returns id r →
        HasRows [1] 1 (linearRows 1 1 1000000 (List.replicate 1000000 2)
          (List.replicate 1000000 ((⌊(3 / 2 : ℚ)⌋ : ℤ) : ℚ)) none) r ∨
        HasRows [5] 1 (linearRows 5 1 1000000 (List.replicate 5000000 2)
          (List.replicate 1000000 ((⌊(3 / 2 : ℚ)⌋ : ℤ) : ℚ)) none) r ∨
        HasRows [1] 2 [[29 / 2, 49 / 2]] r)
    (transitions step (.init layerCtx) filledCalls) := by
  refine List.forall_iff_forall_mem.2 ?_
  intro τ hτ
  have hover : ∀ call ∈ filledCalls, call.Over fun s => if s = 0 then filled 0 1 1000000 (3 / 2)
      else filled 1 2 3 (3 / 2) :=
    List.forall_mem_cons.2 ⟨List.forall_mem_singleton.2 rfl,
      List.forall_mem_cons.2 ⟨List.forall_mem_singleton.2 rfl,
        List.forall_mem_singleton.2 (List.forall_mem_singleton.2 rfl)⟩⟩
  have hreturns := linear_returns layerCtx id hover τ hτ
  have hinput : τ.input ∈ filledCalls := input_mem hτ
  have hlarge : ∀ t : ℕ, weightElements layerCtx t (filled 0 1 1000000 (3 / 2)) =
      List.replicate 1000000 ((⌊(3 / 2 : ℚ)⌋ : ℤ) : ℚ) := by
    intro t
    rw [weightElements, if_pos, gpuBuffer_filled]
    refine ⟨by decide, ?_⟩
    split_ifs <;> decide
  simp only [filledCalls, List.mem_cons, List.not_mem_nil, or_false] at hinput
  obtain hinput | hinput | hinput := hinput
  · obtain ⟨work, hout, hr, hrows⟩ := hreturns _ _ _ _ hinput [1] 1 1000000 (by decide)
      (by decide) rfl rfl (by decide) (by simp) fun _ => by unfold Fits; decide
    refine ⟨work, hout, hr, fun r h => .inl ?_⟩
    have hrows := hrows r h
    rwa [hlarge] at hrows
  · obtain ⟨work, hout, hr, hrows⟩ := hreturns _ _ _ _ hinput [5] 1 1000000 (by decide)
      (by decide) rfl rfl (by decide) (by simp) fun _ => by unfold Fits; decide
    refine ⟨work, hout, hr, fun r h => .inr (.inl ?_)⟩
    have hrows := hrows r h
    rwa [hlarge] at hrows
  · obtain ⟨work, hout, hr, hrows⟩ := hreturns _ _ _ _ hinput [1] 2 3 (by decide) (by decide)
      rfl rfl (by decide) (by simp) fun _ => by unfold Fits; decide
    refine ⟨work, hout, hr, fun r h => .inr (.inr ?_)⟩
    have hvalues : weightElements layerCtx [1].prod (filled 1 2 3 (3 / 2)) =
        List.replicate 6 (3 / 2) := if_neg (by decide)
    have hproduct : linearRows [1].prod 2 3 (rowsOf 1 3 1).data (List.replicate 6 (3 / 2))
        (some [10, 20]) = [[29 / 2, 49 / 2]] := by decide +kernel
    have hrows := hrows r h
    rwa [hvalues, hproduct] at hrows

/-! ### `fused_swiglu_mlp` -/

/-- The rows of a fused MLP. -/
def mlpRows (silu : F → F) (t n m k : ℕ) (x gateUp down : List F) : List (List F) :=
  (List.range t).map (Parallel.fusedSwigluMlp silu (rowAt (fun i => x.getD i 0) k)
    (matrix (2 * m) k gateUp) (matrix n m down))

theorem mlpOps_runs {silu : F → F} {x : List F} {t : ℕ} {gateUp down : Tensor F}
    {r s : String × List (PcWord F) × (ℕ × ℕ × ℕ)} {pc : List (PcWord F)} {outs : List (Output F)}
    (h : BatchRuns silu (mlpOps ctx x t gateUp down r s pc) [] outs) :
    ∃ old₀ old₁ old₂ y₀ y₁ y₂ last, outs.getLast? = some last ∧ last.data = y₂ ∧
      (linearOp ctx x t gateUp r).Leaves silu
        [fun i => (gpuBuffer ctx gateUp).values.getD i 0, fun i => x.getD i 0] old₀ y₀ ∧
      Runs old₁ ((Swiglu.dispatch (.ofPc pc) (wg512 (t * (gateUp.outFeat / 2)), 1, 1)).map
        (Swiglu.Access.store silu y₀ y₀)) y₁ ∧
      (linearOp ctx x t down s).Leaves silu
        [fun i => (gpuBuffer ctx down).values.getD i 0, y₁] old₂ y₂ := by
  obtain ⟨vs₀, old₀, y₀, hvs₀, h₀, vs₁, old₁, y₁, hvs₁, h₁, vs₂, old₂, y₂, hvs₂, h₂, rfl⟩ := h
  obtain _ | ⟨rfl, hvs₀⟩ := hvs₀
  obtain _ | ⟨rfl, hvs₀⟩ := hvs₀
  cases hvs₀
  obtain _ | ⟨ha, hvs₁⟩ := hvs₁
  obtain _ | ⟨hb, hvs₁⟩ := hvs₁
  cases hvs₁
  obtain _ | ⟨rfl, hvs₂⟩ := hvs₂
  obtain _ | ⟨hc, hvs₂⟩ := hvs₂
  cases hvs₂
  -- the barriers made the outputs visible
  obtain rfl := (ha ⟨y₀, true⟩ rfl rfl).symm
  obtain rfl := (hb ⟨y₀, true⟩ rfl rfl).symm
  obtain rfl := (hc ⟨y₁, true⟩ rfl rfl).symm
  exact ⟨old₀, old₁, old₂, y₀, y₁, y₂, _, rfl, rfl, h₀, h₁, h₂⟩

/-- **The rows that the batch leaves.** -/
theorem mlpOps_rows {silu : F → F} {x : List F} {t n m k : ℕ} {gateUp down : Tensor F}
    {r s : String × List (PcWord F) × (ℕ × ℕ × ℕ)} {pc : List (PcWord F)} {outs : List (Output F)}
    {last : Output F} (hgateUp : gateUp.outFeat = 2 * m)
    (hr : mlpLinear t (f16Decision ctx.shaders gateUp) k (2 * m) = .ok r)
    (hs : mlpLinear t (f16Decision ctx.shaders down) m n = .ok s)
    (hpc : swigluPc t (2 * m) m = .ok pc)
    (h : BatchRuns silu (mlpOps ctx x t gateUp down r s pc) [] outs)
    (hlast : outs.getLast? = some last) : (List.range t).map (rowAt last.data n) =
      mlpRows silu t n m k x (gpuBuffer ctx gateUp).values (gpuBuffer ctx down).values := by
  obtain ⟨old₀, old₁, old₂, y₀, y₁, y₂, last', hlast', rfl, h₀, h₁, h₂⟩ := mlpOps_runs h
  obtain rfl := Option.some.inj (hlast.symm.trans hlast')
  replace h₀ := (leaves_linear (mlpLinear_ne_swiglu hr)).1 h₀
  replace h₂ := (leaves_linear (mlpLinear_ne_swiglu hs)).1 h₂
  rw [hgateUp, Nat.mul_div_cancel_left m Nat.two_pos] at h₁
  have hcovers := Swiglu.dispatch_covers (Swiglu.packed_of_swigluPc hpc)
  refine List.map_congr_left ?_
  intro i hi
  rw [List.mem_range] at hi
  have hact : rowAt y₁ m i = Parallel.siluAndMul silu (Parallel.linear
      (rowAt (fun i => x.getD i 0) k) (matrix (2 * m) k (gpuBuffer ctx gateUp).values) none i) := by
    have hlen : (rowAt y₀ (2 * m) i).length / 2 = m := by simp [rowAt]
    rw [hcovers.row h₁ hi, matrix, ← linearLeaves_row hr h₀ hi, Parallel.siluAndMul, hlen]
  rw [linearLeaves_row hs h₂ hi, Parallel.linear, hact]
  rfl

theorem exists_mlpOps_runs (silu : F → F) (x : List F) {t n m k : ℕ} {gateUp down : Tensor F}
    {r s : String × List (PcWord F) × (ℕ × ℕ × ℕ)} (pc : List (PcWord F))
    (hr : mlpLinear t (f16Decision ctx.shaders gateUp) k (2 * m) = .ok r)
    (hs : mlpLinear t (f16Decision ctx.shaders down) m n = .ok s) :
    ∃ outs, BatchRuns silu (mlpOps ctx x t gateUp down r s pc) [] outs := by
  obtain ⟨y₀, h₀⟩ := exists_linearLeaves hr (fun i => (gpuBuffer ctx gateUp).values.getD i 0)
    (fun i => x.getD i 0) 0
  obtain ⟨y₁, h₁⟩ : ∃ y₁, Runs 0 ((Swiglu.dispatch (.ofPc pc)
      (wg512 (t * (gateUp.outFeat / 2)), 1, 1)).map (Swiglu.Access.store silu y₀ y₀)) y₁ :=
    ⟨_, Runs.refl _ _⟩
  obtain ⟨y₂, h₂⟩ := exists_linearLeaves hs (fun i => (gpuBuffer ctx down).values.getD i 0) y₁ 0
  have hvisible : ∀ {y : ℕ → F} {o : Output F}, some ⟨y, true⟩ = some o → o.visible = true →
      y = o.data := fun h _ => congrArg Output.data (Option.some.inj h)
  refine ⟨_, [_, _], 0, y₀, .cons rfl (.cons rfl .nil), ?_, [y₀, y₀], 0, y₁,
    .cons (fun o => hvisible) (.cons (fun o => hvisible) .nil), ?_, [_, y₁], 0, y₂,
    .cons rfl (.cons (fun o => hvisible) .nil), ?_, rfl⟩
  · exact (leaves_linear (mlpLinear_ne_swiglu hr)).2 h₀
  · exact (if_pos rfl).mpr h₁
  · exact (leaves_linear (mlpLinear_ne_swiglu hs)).2 h₂

/-- A fused MLP that is not refused has large weights, and as many rows as `x`. -/
theorem fusedWork_eq_ok {x : VllmVulkan.Tensor F} {gateUp down : Tensor F} {lead : List ℕ}
    {n m k : ℕ} {work : Work F} (hgateUp : gateUp.shape = [2 * m, k]) (hdown : down.shape = [n, m])
    (hx : x.shape = lead ++ [k]) (h : fusedWork ctx x gateUp down = .ok work) :
    k * (2 * m) ≥ matvecMinWeightElements ∧ m * n ≥ matvecMinWeightElements ∧ ∃ r s pc,
      mlpLinear lead.prod (f16Decision ctx.shaders gateUp) k (2 * m) = .ok r ∧
      mlpLinear lead.prod (f16Decision ctx.shaders down) m n = .ok s ∧
      swigluPc lead.prod (2 * m) m = .ok pc ∧
      work = ⟨.executeBatch (mlpOps ctx x.data lead.prod gateUp down r s pc), lead.prod, n, none,
        x.shape⟩ := by
  have hk : gateUp.inFeat = k := by rw [Tensor.inFeat, hgateUp]; rfl
  have hm : gateUp.outFeat = 2 * m := by rw [Tensor.outFeat, hgateUp]; rfl
  have hn : down.outFeat = n := by rw [Tensor.outFeat, hdown]; rfl
  simp only [fusedWork, Py.bind_eq_ok, Py.pure_eq_ok, raiseIf_eq_ok, not_or, not_lt, hk, hm, hn,
    Nat.mul_div_cancel_left m Nat.two_pos] at h
  obtain ⟨t, ht, -, ⟨hsize, hsize'⟩, -, -, r, hr, s, hs, -, -, pc, hpc, rfl⟩ := h
  have hpos : 0 < k := Nat.pos_of_mul_pos_right
    ((show 0 < matvecMinWeightElements by decide).trans_le hsize)
  obtain rfl : t = lead.prod := Except.ok.inj (ht.symm.trans (reshapeRows_eq hpos hx))
  exact ⟨hsize, hsize', r, s, pc, hr, hs, hpc, rfl⟩

omit [Half F] in
theorem length_of_mem_mlpRows {silu : F → F} {t n m k : ℕ} {x gateUp down : List F} {row : List F}
    (h : row ∈ mlpRows silu t n m k x gateUp down) : row.length = n := by
  obtain ⟨i, -, rfl⟩ := List.mem_map.1 h
  simp [Parallel.fusedSwigluMlp, Parallel.linear, Parallel.addRow, matrix]

/-- **What `fused_swiglu_mlp` returns** without the caches. -/
theorem fusedWork_returns (silu : F → F) {x : VllmVulkan.Tensor F} {gateUp down : Tensor F}
    {lead : List ℕ} {n m k : ℕ} {work : Work F} (hgateUp : gateUp.shape = [2 * m, k])
    (hdown : down.shape = [n, m]) (hx : x.shape = lead ++ [k])
    (h : fusedWork ctx x gateUp down = .ok work) :
    (∃ r, work.Returns silu r) ∧ ∀ r, work.Returns silu r → HasRows lead n
      (mlpRows silu lead.prod n m k x.data (gpuBuffer ctx gateUp).values
        (gpuBuffer ctx down).values) r := by
  obtain ⟨-, -, r, s, pc, hr, hs, hpc, rfl⟩ := fusedWork_eq_ok hgateUp hdown hx h
  have hm : gateUp.outFeat = 2 * m := by rw [Tensor.outFeat, hgateUp]; rfl
  constructor
  · obtain ⟨outs, hruns⟩ := exists_mlpOps_runs silu x.data pc hr hs
    obtain ⟨-, -, -, -, -, -, last, hlast, -⟩ := mlpOps_runs hruns
    exact ⟨_, _, ⟨outs, last, hruns, hlast, rfl⟩, rfl⟩
  · rintro r' ⟨rows, ⟨outs, last, hruns, hlast, rfl⟩, rfl⟩
    rw [mlpOps_rows hm hr hs hpc hruns hlast]
    exact finish_none hx rfl (by simp [mlpRows]) fun row hrow => length_of_mem_mlpRows hrow

/-! ### The plain way -/

omit [Half F] in
theorem rowAt_flatten {t n : ℕ} {rows : ℕ → List F} (hrows : ∀ i < t, (rows i).length = n) {i : ℕ}
    (hi : i < t) : rowAt (fun l => ((List.range t).map rows).flatten.getD l 0) n i = rows i := by
  have hlen : ∀ j ∈ List.range t, (rows j).length = n := fun j hj => hrows j (List.mem_range.1 hj)
  refine List.ext_getElem (by simp [rowAt, hrows i hi]) ?_
  intro j hj hj'
  have hjn : j < n := by simpa [rowAt] using hj
  simp only [rowAt, List.getElem_map, List.getElem_range]
  rw [List.getD_eq_getElem?_getD, ← List.flatMap_def,
    VllmVulkan.Tensor.getElem?_flatMap rows _ hlen hjn, List.getElem?_range hi, Option.bind_some,
    List.getElem?_eq_getElem hj', Option.getD_some]

omit [Field F] [Half F] in
theorem HasRows.unique {lead : List ℕ} {n : ℕ} {rows : List (List F)}
    {r r' : Py (VllmVulkan.Tensor F)} (h : HasRows lead n rows r) (h' : HasRows lead n rows r') :
    r = r' := by
  obtain ⟨⟨shape, data, hlen⟩, rfl, rfl, rfl⟩ := h
  obtain ⟨⟨shape, data, hlen⟩, rfl, rfl, rfl⟩ := h'
  rfl

/-- `SiluAndMul`, on the last dimension. -/
def IsSiluAndMul (silu : F → F) (y a : VllmVulkan.Tensor F) : Prop :=
  ∃ lead d, y.shape = lead ++ [2 * d] ∧ HasRows lead d ((List.range lead.prod).map fun i =>
    Parallel.siluAndMul silu (rowAt (fun l => y.data.getD l 0) (2 * d) i)) (.ok a)

/-- `down_proj(SiluAndMul(gate_up_proj(x)))` returns `r`, with calls of the run. -/
def PlainReturns (silu : F → F) (τs : List (Transition (State F) (Call F) (Option (Py (Work F)))))
    (x : VllmVulkan.Tensor F) (gateUp down : Tensor F) (r : Py (VllmVulkan.Tensor F)) : Prop :=
  ∃ τ₁ ∈ τs, ∃ τ₂ ∈ τs, ∃ fails₁ fails₂ work₁ work₂ y a,
    τ₁.input = .linear x gateUp none fails₁ ∧ τ₁.output = some (.ok work₁) ∧
    work₁.Returns silu (.ok y) ∧ IsSiluAndMul silu y a ∧
    τ₂.input = .linear a down none fails₂ ∧ τ₂.output = some (.ok work₂) ∧ work₂.Returns silu r

omit [Half F] in
theorem linearRows_siluAndMul {silu : F → F} {t n m k : ℕ} {x gateUp down data : List F}
    (hdata : data = ((List.range t).map fun i => Parallel.siluAndMul silu (rowAt
      (fun l => (linearRows t (2 * m) k x gateUp none).flatten.getD l 0) (2 * m) i)).flatten) :
    linearRows t n m data down none = mlpRows silu t n m k x gateUp down := by
  have hlinear : ∀ i < t, (Parallel.linear (rowAt (fun l => x.getD l 0) k)
      (matrix (2 * m) k gateUp) none i).length = 2 * m := by
    intro i _
    simp [Parallel.linear, Parallel.addRow, matrix]
  refine List.map_congr_left ?_
  intro i hi
  have hrow : rowAt (fun l => data.getD l 0) m i = Parallel.siluAndMul silu
      (Parallel.linear (rowAt (fun l => x.getD l 0) k) (matrix (2 * m) k gateUp) none i) := by
    rw [hdata, rowAt_flatten _ (List.mem_range.1 hi), linearRows,
      rowAt_flatten hlinear (List.mem_range.1 hi)]
    intro j hj
    rw [linearRows, rowAt_flatten hlinear hj, Parallel.siluAndMul, List.length_zipWith,
      List.length_take, List.length_drop, hlinear j hj]
    omega
  rw [Parallel.fusedSwigluMlp, Parallel.linear, hrow]
  rfl

/-- **The fused way is the plain way**: in every run over one weight for every storage,
`fused_swiglu_mlp` returns the fused MLP on the weights as they are bound, and this is what the two
linear layers and the activation between them return, where these have their shaders.  The sizes
fit, so that the indices of the shaders do not wrap. -/
theorem fused_eq_plain (ctx : Ctx) (silu : F → F) {calls : List (Call F)}
    (hcalls : ∀ call ∈ calls, call.Over weights) :
    ∀ τ ∈ transitions step (.init ctx) calls, ∀ x gateUp down gateUpFails downFails,
      τ.input = .fusedSwigluMlp x gateUp down gateUpFails downFails →
      ∀ lead n m k, gateUp.shape = [2 * m, k] → down.shape = [n, m] → x.shape = lead ++ [k] →
        Fits lead.prod (2 * m) k → Fits lead.prod n m →
      ∀ work, τ.output = some (.ok work) → (∃ r, work.Returns silu r) ∧
        ∀ r, work.Returns silu r → HasRows lead n (mlpRows silu lead.prod n m k x.data
            (gpuBuffer ctx gateUp).values (gpuBuffer ctx down).values) r ∧
          ((if lead.prod < matvecThreshold then "mul_mat_vec_f32_f32_f32" ∈ ctx.shaders
            else "matmul_f32_f32" ∈ ctx.shaders) →
          ∀ r', PlainReturns silu (transitions step (.init ctx) calls) x gateUp down r' →
            r' = r) := by
  intro τ hτ x gateUp down gateUpFails downFails hinput lead n m k hgateUp hdown hx _ _ work
    houtput
  have hwork : fusedWork ctx x gateUp down = .ok work := by
    have h := transitions_transparent hcalls τ hτ
    rw [houtput, hinput] at h
    exact (Option.some.inj h).symm
  obtain ⟨hsize, hsize', -⟩ := fusedWork_eq_ok hgateUp hdown hx hwork
  have hpos : 0 < matvecMinWeightElements := by decide
  have hk : 0 < k := Nat.pos_of_mul_pos_right (hpos.trans_le hsize)
  have hm : 0 < m := Nat.pos_of_mul_pos_right (hpos.trans_le hsize')
  have hlinear : ∀ τ' ∈ transitions step (.init ctx) calls, ∀ {x w fails work},
      τ'.input = .linear x w none fails → τ'.output = some (.ok work) →
      linearWork ctx x w none = .ok work := by
    intro τ' hτ' x w fails work hinput houtput
    have h := transitions_transparent hcalls τ' hτ'
    rw [houtput, hinput] at h
    exact (Option.some.inj h).symm
  obtain ⟨hreturns, hall⟩ := fusedWork_returns silu hgateUp hdown hx hwork
  refine ⟨hreturns, fun r hr => ⟨hall r hr, fun hshader => ?_⟩⟩
  -- the plain layers dispatch too
  have hgateUp' : weightElements ctx lead.prod gateUp = (gpuBuffer ctx gateUp).values := by
    refine if_pos ⟨?_, hshader⟩
    rwa [Tensor.inFeat, Tensor.outFeat, hgateUp]
  have hdown' : weightElements ctx lead.prod down = (gpuBuffer ctx down).values := by
    refine if_pos ⟨?_, hshader⟩
    rwa [Tensor.inFeat, Tensor.outFeat, hdown]
  rintro r' ⟨τ₁, hτ₁, τ₂, hτ₂, fails₁, fails₂, work₁, work₂, y, a, hin₁, hout₁, hy, hact, hin₂,
    hout₂, hr'⟩
  obtain ⟨-, hall₁⟩ := linearWork_returns silu hk hgateUp hx (by simp)
    (hlinear τ₁ hτ₁ hin₁ hout₁)
  obtain ⟨y, hyok, hyshape, hydata⟩ := hall₁ _ hy
  obtain rfl := Except.ok.inj hyok
  obtain ⟨lead', d, hshape, a, haok, hashape, hadata⟩ := hact
  obtain rfl := Except.ok.inj haok
  obtain ⟨rfl, hd⟩ := List.append_inj' (hyshape.symm.trans hshape) rfl
  obtain rfl : m = d := by
    have := List.head_eq_of_cons_eq hd
    omega
  obtain ⟨-, hall₂⟩ := linearWork_returns silu hm hdown hashape (by simp)
    (hlinear τ₂ hτ₂ hin₂ hout₂)
  have hrows := hall₂ r' hr'
  rw [hgateUp'] at hydata
  rw [hdown', linearRows_siluAndMul (by rw [hadata, hydata])] at hrows
  exact hrows.unique (hall r hr)

/-- A fused MLP on five rows with its weights rounded, and the plain way after it. -/
def mlpCalls : List (Call ℚ) :=
  [.fusedSwigluMlp (rowsOf 5 1000000 2) (filled 0 2 1000000 (3 / 2)) (filled 1 1000000 1 (5 / 2))
      false true,
    .linear (rowsOf 5 1000000 2) (filled 0 2 1000000 (3 / 2)) none false,
    .linear (rowsOf 5 1 4000000000000) (filled 1 1000000 1 (5 / 2)) none true]

theorem fused_eq_plain_filled :
    ∃ τ ∈ transitions step (.init layerCtx) mlpCalls,
      ∃ work, τ.output = some (.ok work) ∧ (∃ r, work.Returns id r) ∧ ∀ r, work.Returns id r →
        HasRows [5] 1000000 (mlpRows id 5 1000000 1 1000000 (List.replicate 5000000 2)
          (List.replicate 2000000 ((⌊(3 / 2 : ℚ)⌋ : ℤ) : ℚ))
          (List.replicate 1000000 ((⌊(5 / 2 : ℚ)⌋ : ℤ) : ℚ))) r ∧
        ∀ r', PlainReturns id (transitions step (.init layerCtx) mlpCalls) (rowsOf 5 1000000 2)
          (filled 0 2 1000000 (3 / 2)) (filled 1 1000000 1 (5 / 2)) r' → r' = r := by
  have hover : ∀ call ∈ mlpCalls, call.Over fun s => if s = 0 then filled 0 2 1000000 (3 / 2)
      else filled 1 1000000 1 (5 / 2) :=
    List.forall_mem_cons.2 ⟨List.forall_mem_cons.2 ⟨rfl, List.forall_mem_singleton.2 rfl⟩,
      List.forall_mem_cons.2 ⟨List.forall_mem_singleton.2 rfl,
        List.forall_mem_singleton.2 (List.forall_mem_singleton.2 rfl)⟩⟩
  obtain ⟨work, hwork⟩ : ∃ work, fusedWork layerCtx (rowsOf 5 1000000 2)
      (filled 0 2 1000000 (3 / 2)) (filled 1 1000000 1 (5 / 2)) = .ok work := by
    have hin : (filled 0 2 1000000 (3 / 2)).inFeat = 1000000 := rfl
    simp only [fusedWork, Py.bind_eq_ok, Py.pure_eq_ok, raiseIf_eq_ok, hin, f16Decision_filled,
      reshapeRows_eq (show 0 < 1000000 by decide)
        (show (rowsOf 5 1000000 2).shape = [5] ++ [1000000] from rfl)]
    exact ⟨_, 5, rfl, (), by decide, (), by decide, _, rfl, _, rfl, (), by decide, _, rfl, rfl⟩
  have hmem : (⟨_, .fusedSwigluMlp (rowsOf 5 1000000 2) (filled 0 2 1000000 (3 / 2))
      (filled 1 1000000 1 (5 / 2)) false true, _, _⟩ :
        Transition (State ℚ) (Call ℚ) (Option (Py (Work ℚ)))) ∈
      transitions step (.init layerCtx) mlpCalls := List.mem_cons_self
  have houtput := (transitions_transparent hover _ hmem).trans (congrArg some hwork)
  obtain ⟨hreturns, hall⟩ := fused_eq_plain layerCtx id hover _ hmem _ _ _ _ _ rfl [5] 1000000 1
    1000000 rfl rfl rfl (by unfold Fits; decide) (by unfold Fits; decide) work houtput
  refine ⟨_, hmem, work, houtput, hreturns, fun r hr => ?_⟩
  obtain ⟨hrows, hplain⟩ := hall r hr
  rw [gpuBuffer_filled, gpuBuffer_filled] at hrows
  exact ⟨hrows, hplain (by decide)⟩

end Layer

end Contents

end VllmVulkan
