import VllmVulkan.Weights.Mlp
import VllmVulkan.Lib.Dispatch
import VllmVulkan.Lib.Sums
import VllmVulkan.Parallel.Hooks
import Mathlib.Algebra.Field.Rat

/-!
# The fused MLP and the unfused one

The batch of `fused_swiglu_mlp` with the elements of its buffers.  The activation shader is modelled
as the source has it, in 32-bit arithmetic; what the dispatches of the linear layers compute is a
parameter.  Arithmetic on elements is exact.

* `Swiglu.main`, `Swiglu.dispatch` : the shader, and the accesses of a dispatch;
* `Swiglu.dispatch_eq` : the accesses of the dispatch of a fused MLP;
* `fusedSwigluMlpBatch`, `fusedSwigluMlpOps_eq` : the batch with its elements, and the batch that is
  submitted;
* `LinearKernel`, `BatchRuns` : the runs of a batch, op after op;
* `unfusedMlp` : three linear layers and the activation between them;
* `fused_eq_unfused` : **the fused block computes the unfused one**.
-/

namespace VllmVulkan

namespace Weights

open Store

variable {F : Type} [Field F]

/-! ### The activation shader -/

namespace Swiglu

/-- The push constants of `glu_head.glsl`, without `alpha` and `limit`. -/
structure Params where
  n : UInt32
  ne00 : UInt32
  ne20 : UInt32
  mode : UInt32
  nb01 : UInt32
  nb02 : UInt32
  nb03 : UInt32
  ne01 : UInt32
  ne02 : UInt32
  nb11 : UInt32
  nb12 : UInt32
  nb13 : UInt32
  ne11 : UInt32
  ne12 : UInt32
  deriving DecidableEq, Repr

/-- The push constants, by their positions; `alpha` and `limit` are at 4 and 5. -/
def Params.ofPc (pc : List (PcWord F)) : Params :=
  let field i := UInt32.ofNat (PcWord.u32At pc i)
  { n := field 0
    ne00 := field 1
    ne20 := field 2
    mode := field 3
    nb01 := field 6
    nb02 := field 7
    nb03 := field 8
    ne01 := field 9
    ne02 := field 10
    nb11 := field 11
    nb12 := field 12
    nb13 := field 13
    ne11 := field 14
    ne12 := field 15 }

/-- The input buffers. -/
inductive Source where
  | a
  | b
  deriving DecidableEq, Repr

/-- What an invocation does: it loads two elements and stores `op` of them. -/
structure Access where
  lhs : Source × UInt32
  rhs : Source × UInt32
  dst : UInt32
  deriving DecidableEq, Repr

/-- `main` of `glu_main.glsl`, for the invocation `i`. -/
def main (p : Params) (i : UInt32) : Option Access :=
  if i ≥ p.n then none
  else
    let row := i / p.ne20
    let col := i - row * p.ne20
    let i3 := row / (p.ne01 * p.ne02)
    let i2 := (row % (p.ne01 * p.ne02)) / p.ne01
    let i1 := row % p.ne01
    let srcIdx := i3 * p.nb03 + i2 * p.nb02 + i1 * p.nb01 + col
    let dstI3 := row / (p.ne11 * p.ne12)
    let dstI2 := (row % (p.ne11 * p.ne12)) / p.ne11
    let dstI1 := row % p.ne11
    let dstIdx := dstI3 * p.nb13 + dstI2 * p.nb12 + dstI1 * p.nb11 + col
    if p.mode = 0 then
      -- default
      let offset := p.ne00 / 2
      some ⟨(.a, srcIdx), (.a, srcIdx + offset), dstIdx⟩
    else if p.mode = 1 then
      -- swapped
      let offset := p.ne00 / 2
      some ⟨(.a, srcIdx + offset), (.a, srcIdx), dstIdx⟩
    else
      -- split
      some ⟨(.a, srcIdx), (.b, srcIdx), dstIdx⟩

/-- `i`, for every invocation of a dispatch. -/
def invocations (wg : ℕ × ℕ × ℕ) : List UInt32 :=
  (List.range wg.2.2).flatMap fun z => (List.range wg.2.1).flatMap fun y =>
    (List.range wg.1).flatMap fun x => (List.range 512).map fun l =>
      UInt32.ofNat z * 262144 + UInt32.ofNat y * 512 + UInt32.ofNat (x * 512 + l)

/-- The accesses of a dispatch. -/
def dispatch (p : Params) (wg : ℕ × ℕ × ℕ) : List Access := (invocations wg).filterMap (main p)

/-- `op` of `swiglu.comp`; `silu a` is `a / (1 + exp(-a))`. -/
def op (silu : F → F) (a b : F) : F := silu a * b

/-- The element at an address. -/
def load (dataA dataB : ℕ → F) : Source × UInt32 → F
  | (.a, i) => dataA i.toNat
  | (.b, i) => dataB i.toNat

/-- The store of an invocation. -/
def Access.store (silu : F → F) (dataA dataB : ℕ → F) (acc : Access) : ℕ × F :=
  (acc.dst.toNat, op silu (load dataA dataB acc.lhs) (load dataA dataB acc.rhs))

/-! ### The dispatch of a fused MLP -/

/-- The access to cell `i` of the activations, `k` of them in a row. -/
def cellAccess (k i : ℕ) : Access where
  lhs := (.a, .ofNat (i / k * (2 * k) + i % k))
  rhs := (.a, .ofNat (i / k * (2 * k) + i % k + k))
  dst := .ofNat i

theorem invocations_linear (n : ℕ) :
    invocations (n, 1, 1) = (List.range (n * 512)).map UInt32.ofNat := by
  rw [← range_mul, List.map_flatMap]
  simp only [invocations, List.range_one, List.flatMap_singleton, List.map_map]
  refine List.flatMap_congr fun x _ => List.map_congr_left fun l _ => ?_
  show UInt32.ofNat 0 * 262144 + UInt32.ofNat 0 * 512 + UInt32.ofNat (x * 512 + l) = _
  rw [show UInt32.ofNat 0 = 0 from rfl, UInt32.zero_mul, UInt32.zero_mul, UInt32.zero_add,
    UInt32.zero_add]
  rfl

/-- The push constants of a fused MLP: rows of `2 * k` and of `k` elements, one after the other. -/
structure Packed (t k : ℕ) (p : Params) : Prop where
  n : p.n = .ofNat (t * k)
  ne00 : p.ne00 = .ofNat (2 * k)
  ne20 : p.ne20 = .ofNat k
  mode : p.mode = 0
  nb01 : p.nb01 = .ofNat (2 * k)
  ne01 : p.ne01 = .ofNat t
  ne02 : p.ne02 = 1
  nb11 : p.nb11 = .ofNat k
  ne11 : p.ne11 = .ofNat t
  ne12 : p.ne12 = 1
  /-- The addresses of the source fit in 32 bits. -/
  fits : 2 * k * t < 2 ^ 32

theorem packed_of_swigluPc {t k : ℕ} {pc : List (PcWord F)}
    (h : swigluPc t (2 * k) k = .ok pc) : Packed t k (.ofPc pc) := by
  obtain ⟨hfits, rfl⟩ := KvOps.structPack_eq_ok.1 h
  have hnb02 : PcWord.Fits (.u32 (2 * k * t) : PcWord F) := hfits _ (by simp)
  constructor
  case fits => exact hnb02
  all_goals rfl

/-- The address of a column of row `row`: there is one batch, of `t` rows. -/
theorem address_eq {t row : ℕ} (hrow : row < t) (ht : t < 2 ^ 32) (nb1 nb2 nb3 col : UInt32) :
    UInt32.ofNat row / (.ofNat t * 1) * nb3 + (.ofNat row % (.ofNat t * 1)) / .ofNat t * nb2 +
      .ofNat row % .ofNat t * nb1 + col = .ofNat row * nb1 + col := by
  have hlt : row < 2 ^ 32 := hrow.trans ht
  have hdiv : UInt32.ofNat row / .ofNat t = 0 := by
    rw [← UInt32.ofNat_div hlt ht, Nat.div_eq_of_lt hrow]
    rfl
  have hmod : UInt32.ofNat row % .ofNat t = .ofNat row := by
    rw [← UInt32.ofNat_mod hlt ht, Nat.mod_eq_of_lt hrow]
  rw [UInt32.mul_one, hmod, hdiv, UInt32.zero_mul, UInt32.zero_mul, UInt32.zero_add,
    UInt32.zero_add]

/-- **One invocation**: it loads the two halves of its own row, and stores to the row of the
activations. -/
theorem main_eq {t k i : ℕ} {p : Params} (hp : Packed t k p) (hi : i < t * k) :
    main p (.ofNat i) = some (cellAccess k i) := by
  have hk : 0 < k := Nat.pos_of_mul_pos_left (Nat.zero_lt_of_lt hi)
  have hrow : i / k < t := (Nat.div_lt_iff_lt_mul hk).2 hi
  have hsize : 2 * (t * k) < 2 ^ 32 := by
    have hfits := hp.fits
    rwa [Nat.mul_assoc, Nat.mul_comm k] at hfits
  have ht : t ≤ t * k := Nat.le_mul_of_pos_right t hk
  have hk' : k ≤ t * k := Nat.le_mul_of_pos_left k (Nat.zero_lt_of_lt hrow)
  have hi' : i < 2 ^ 32 := by omega
  have hk2 : 2 * k < 2 ^ 32 := by omega
  have hn : ¬ UInt32.ofNat i ≥ p.n := by
    rw [hp.n, ge_iff_le, UInt32.ofNat_le_iff_le (by show t * k < 2 ^ 32; omega) hi']
    omega
  have hdiv : UInt32.ofNat i / .ofNat k = .ofNat (i / k) :=
    (UInt32.ofNat_div hi' (by omega)).symm
  have hcol : UInt32.ofNat i - .ofNat (i / k) * .ofNat k = .ofNat (i % k) := by
    rw [← UInt32.ofNat_mul, ← UInt32.ofNat_sub (Nat.div_mul_le_self i k), Nat.mod_eq_sub_div_mul]
  have hhalf : UInt32.ofNat (2 * k) / 2 = .ofNat k := by
    have h := UInt32.ofNat_div hk2 (show 2 < 2 ^ 32 by decide)
    rw [Nat.mul_div_cancel_left k Nat.two_pos] at h
    exact h.symm
  rw [main, if_neg hn]
  simp only [hp.ne20, hp.ne01, hp.ne02, hp.ne11, hp.ne12, hdiv, hcol,
    address_eq hrow (show t < 2 ^ 32 by omega), hp.mode, hp.nb01, hp.nb11, hp.ne00, hhalf, if_true]
  simp only [← UInt32.ofNat_mul, ← UInt32.ofNat_add, Nat.div_add_mod']
  rfl

/-- **The dispatch of a fused MLP**: one access to every cell of the activations, in their order. -/
theorem dispatch_eq {t k : ℕ} {p : Params} (hp : Packed t k p) :
    dispatch p (wg512 (t * k), 1, 1) = (List.range (t * k)).map (cellAccess k) := by
  have hsize : t * k < 2 ^ 32 := by
    have hfits := hp.fits
    rw [Nat.mul_assoc, Nat.mul_comm k] at hfits
    omega
  -- the last workgroup ends at or below `2 ^ 32`, so no invocation wraps around
  obtain ⟨r, hr⟩ : ∃ r, wg512 (t * k) * 512 = t * k + r :=
    Nat.exists_eq_add_of_le (by rw [wg512]; omega)
  have hend : t * k + r ≤ 2 ^ 32 := by rw [← hr, wg512]; omega
  have hinside : (List.range (t * k)).filterMap (main p ∘ UInt32.ofNat) =
      (List.range (t * k)).filterMap (some ∘ cellAccess k) :=
    List.filterMap_congr fun i hi => main_eq hp (List.mem_range.1 hi)
  have houtside : ((List.range r).map (t * k + ·)).filterMap (main p ∘ UInt32.ofNat) = [] := by
    refine List.filterMap_eq_nil_iff.2 ?_
    intro i hi
    obtain ⟨j, hj, rfl⟩ := List.mem_map.1 hi
    rw [List.mem_range] at hj
    refine if_pos ?_
    rw [hp.n, ge_iff_le, UInt32.ofNat_le_iff_le (by show t * k < 2 ^ 32; omega)
      (by show t * k + j < 2 ^ 32; omega)]
    omega
  rw [dispatch, invocations_linear, List.filterMap_map, hr, List.range_add, List.filterMap_append,
    hinside, houtside, List.append_nil, List.filterMap_eq_map]

/-- The access stores to a cell of the activations, and loads the gate and the up element of that
cell from its own row. -/
def Access.OwnRow (t k : ℕ) (acc : Access) : Prop :=
  ∃ r < t, ∃ c < k, acc.dst.toNat = r * k + c ∧
    (acc.lhs.1 = .a ∧ acc.lhs.2.toNat = r * (2 * k) + c) ∧
    (acc.rhs.1 = .a ∧ acc.rhs.2.toNat = r * (2 * k) + (k + c))

theorem cellAccess_ownRow {t k i : ℕ} (hfits : 2 * k * t < 2 ^ 32) (hi : i < t * k) :
    (cellAccess k i).dst.toNat = i ∧ (cellAccess k i).OwnRow t k := by
  have hk : 0 < k := Nat.pos_of_mul_pos_left (Nat.zero_lt_of_lt hi)
  have hrow : i / k < t := (Nat.div_lt_iff_lt_mul hk).2 hi
  have hcol : i % k < k := Nat.mod_lt i hk
  have hend : (i / k + 1) * (2 * k) ≤ t * (2 * k) := Nat.mul_le_mul_right _ hrow
  rw [Nat.add_mul, Nat.one_mul, Nat.mul_comm t] at hend
  have hdst : (cellAccess k i).dst.toNat = i := by
    refine UInt32.toNat_ofNat_of_lt' ?_
    have hhalf : i < 2 * k * t := by rw [Nat.mul_assoc, Nat.mul_comm k]; omega
    exact hhalf.trans hfits
  refine ⟨hdst, i / k, hrow, i % k, hcol, ?_, ⟨rfl, ?_⟩, rfl, ?_⟩
  · rw [hdst, Nat.div_add_mod']
  · exact UInt32.toNat_ofNat_of_lt' (by show _ < 2 ^ 32; omega)
  · rw [← Nat.add_comm (i % k), ← Nat.add_assoc]
    exact UInt32.toNat_ofNat_of_lt' (by show _ < 2 ^ 32; omega)

/-- The accesses cover the activations: one to every cell, from its own row. -/
structure Covers (t k : ℕ) (accs : List Access) : Prop where
  once : accs.map (fun acc => acc.dst.toNat) = List.range (t * k)
  ownRow : ∀ acc ∈ accs, acc.OwnRow t k

theorem dispatch_covers {t k : ℕ} {p : Params} (hp : Packed t k p) :
    Covers t k (dispatch p (wg512 (t * k), 1, 1)) := by
  rw [dispatch_eq hp]
  constructor
  · rw [List.map_map]
    refine (List.map_congr_left fun i hi => ?_).trans (List.map_id _)
    exact (cellAccess_ownRow hp.fits (List.mem_range.1 hi)).1
  · intro acc hacc
    obtain ⟨i, hi, rfl⟩ := List.mem_map.1 hacc
    exact (cellAccess_ownRow hp.fits (List.mem_range.1 hi)).2

/-- **What a covering dispatch leaves**: the activations, row after row. -/
theorem Covers.runs {t k : ℕ} {accs : List Access} (h : Covers t k accs) {silu : F → F}
    {dataA dataB old out : ℕ → F} (hruns : Runs old (accs.map (Access.store silu dataA dataB)) out)
    {r c : ℕ} (hr : r < t) (hc : c < k) :
    out (r * k + c) = silu (dataA (r * (2 * k) + c)) * dataA (r * (2 * k) + (k + c)) := by
  have hfst : (accs.map (Access.store silu dataA dataB)).map Prod.fst = List.range (t * k) := by
    rw [List.map_map]
    exact h.once
  have hcell : r * k + c < t * k := by
    have hend : (r + 1) * k ≤ t * k := Nat.mul_le_mul_right _ hr
    rw [Nat.add_mul, Nat.one_mul] at hend
    omega
  have hmem : r * k + c ∈ accs.map fun acc => acc.dst.toNat := by
    rw [h.once]
    exact List.mem_range.2 hcell
  obtain ⟨acc, hacc, hdst⟩ := List.mem_map.1 hmem
  obtain ⟨r', -, c', hc', hdst', ⟨hla, hl⟩, hra, hr'⟩ := h.ownRow acc hacc
  obtain ⟨rfl, rfl⟩ := mul_add_inj hc' hc (hdst'.symm.trans hdst)
  have hval := hruns.of_mem (hfst ▸ List.nodup_range) (List.mem_map_of_mem hacc)
  have hload : ∀ {s : Source × UInt32}, s.1 = .a → load dataA dataB s = dataA s.2.toNat := by
    rintro ⟨_, i⟩ rfl
    rfl
  rw [← hdst]
  refine hval.trans ?_
  show silu (load dataA dataB acc.lhs) * load dataA dataB acc.rhs = _
  rw [hload hla, hload hra, hl, hr']

end Swiglu

/-! ### The batch with its elements -/

/-- A weight with its elements. -/
structure MlpTensor (F : Type) extends MlpWeight where
  elements : Tensor F
  shape_eq : elements.shape = [weight.outFeat, weight.inFeat]

/-- The rows of a weight. -/
def MlpTensor.rows (w : MlpTensor F) : List (List F) :=
  (List.range w.weight.outFeat).map w.elements.row

/-- What is bound to an op. -/
inductive Input (F : Type) where
  | weight (w : MlpTensor F)
  | activation (x : List F)
  /-- The output of an earlier op. -/
  | output (opIndex : ℕ)

/-- An op of the batch; it has one output. -/
structure MlpOp (F : Type) where
  shaderName : String
  bindings : List (Input F)
  outputSize : ℕ
  pushConstants : List (PcWord F)
  workgroups : ℕ × ℕ × ℕ
  barrierAfter : Bool

/-- The binding of an input. -/
def Input.encode (f32 : F → List UInt8) : Input F → Context.Binding
  | .weight w => w.binding
  | .activation x => .bytes (x.flatMap f32)
  | .output i => .tuple [i, 0]

/-- The op as it is submitted. -/
def MlpOp.encode (f32 : F → List UInt8) (op : MlpOp F) : Context.Op where
  shaderName := op.shaderName
  bindings := op.bindings.map (Input.encode f32)
  outputSizes := [op.outputSize]
  pushConstants := op.pushConstants.flatMap (PcWord.bytes f32)
  workgroups := op.workgroups
  barrierAfter := op.barrierAfter

/-- `fused_swiglu_mlp`: the batch, with the elements of its buffers. -/
def fusedSwigluMlpBatch (availableShaders : List String) (x : List F)
    (gateUp down : MlpTensor F) : Py (List (MlpOp F)) := do
  let hidden := gateUp.weight.inFeat
  let t ← reshapeRows x hidden
  let twoIntermediate := gateUp.weight.outFeat
  let intermediate := twoIntermediate / 2
  let outFeatures := down.weight.outFeat
  raiseIf (hidden * twoIntermediate < matvecMinWeightElements ∨
      intermediate * outFeatures < matvecMinWeightElements)
    (.fusedMlpUnavailable "weight(s) too small to be GPU-eligible")
  raiseIf ("swiglu_f32" ∉ availableShaders) (.fusedMlpUnavailable "swiglu_f32 not compiled")
  let (shaderGateUp, pcGateUp, wgGateUp) ← mlpLinear t gateUp.useF16 hidden twoIntermediate
  let (shaderDown, pcDown, wgDown) ← mlpLinear t down.useF16 intermediate outFeatures
  raiseIf (shaderGateUp ∉ availableShaders ∨ shaderDown ∉ availableShaders)
    (.fusedMlpUnavailable ("required matmul/matvec shader(s) not compiled: " ++
      s!"{shaderGateUp}, {shaderDown}"))
  let pcSwiglu ← swigluPc t twoIntermediate intermediate
  return [
    { shaderName := shaderGateUp
      bindings := [.weight gateUp, .activation x]
      outputSize := t * twoIntermediate * 4
      pushConstants := pcGateUp
      workgroups := wgGateUp
      barrierAfter := true },
    { shaderName := "swiglu_f32"
      bindings := [.output 0, .output 0]
      outputSize := t * intermediate * 4
      pushConstants := pcSwiglu
      workgroups := (wg512 (t * intermediate), 1, 1)
      barrierAfter := true },
    { shaderName := shaderDown
      bindings := [.weight down, .output 1]
      outputSize := t * outFeatures * 4
      pushConstants := pcDown
      workgroups := wgDown
      barrierAfter := false }]

/-- **The batch that is submitted** is the one with the elements, encoded. -/
theorem fusedSwigluMlpOps_eq (f32 : F → List UInt8) (availableShaders : List String) (x : List F)
    (gateUp down : MlpTensor F) :
    fusedSwigluMlpOps f32 availableShaders x gateUp.toMlpWeight down.toMlpWeight =
      List.map (MlpOp.encode f32) <$> fusedSwigluMlpBatch availableShaders x gateUp down := by
  simp only [fusedSwigluMlpOps, fusedSwigluMlpBatch, map_bind, map_pure]
  rfl

/-! ### Runs of the batch -/

/-- What a matvec or a matmul dispatch leaves in its output, from its shader, push constants and
workgroups, the elements of the weight and of the activations, and what the output held before. -/
abbrev LinearKernel (F : Type) :=
  String → List (PcWord F) → ℕ × ℕ × ℕ → (ℕ → F) → (ℕ → F) → (ℕ → F) → ℕ → F

/-- The dispatches of the linear layers compute `x * W^T`. -/
def ComputesLinear (kernel : LinearKernel F) : Prop :=
  ∀ {t k n : ℕ} {useF16 : Bool} {r : String × List (PcWord F) × (ℕ × ℕ × ℕ)},
    0 < t → 0 < k → 0 < n → mlpLinear t useF16 k n = .ok r → ∀ w x old : ℕ → F,
      ∀ i < t, ∀ j < n, kernel r.1 r.2.1 r.2.2 w x old (i * n + j) =
        ∑ l ∈ Finset.range k, w (j * k + l) * x (i * k + l)

/-- The elements of an input, when the ops before left `outs`. -/
def Input.read (outs : List (ℕ → F)) : Input F → ℕ → F
  | .weight w => fun i => w.elements.data.getD i 0
  | .activation x => fun i => x.getD i 0
  | .output i => outs.getD i 0

/-- The elements bound at binding `k`. -/
def MlpOp.bound (op : MlpOp F) (outs : List (ℕ → F)) (k : ℕ) : ℕ → F :=
  (op.bindings[k]?.map (Input.read outs)).getD 0

/-- The op can leave `out` in its output, which held `old` before. -/
def MlpOp.Leaves (silu : F → F) (kernel : LinearKernel F) (outs : List (ℕ → F)) (op : MlpOp F)
    (old out : ℕ → F) : Prop :=
  if op.shaderName = "swiglu_f32" then
    Runs old ((Swiglu.dispatch (.ofPc op.pushConstants) op.workgroups).map
      (Swiglu.Access.store silu (op.bound outs 0) (op.bound outs 1))) out
  else
    out = kernel op.shaderName op.pushConstants op.workgroups (op.bound outs 0) (op.bound outs 1)
      old

/-- The outputs a batch can leave when its ops run in order, whatever the outputs held before; the
ops before it left `outs`. -/
def BatchRuns (silu : F → F) (kernel : LinearKernel F) :
    List (MlpOp F) → List (ℕ → F) → List (ℕ → F) → Prop
  | [], outs, outs' => outs' = outs
  | op :: ops, outs, outs' => ∃ old out, op.Leaves silu kernel outs old out ∧
      BatchRuns silu kernel ops (outs ++ [out]) outs'

theorem exists_batchRuns (silu : F → F) (kernel : LinearKernel F) (ops : List (MlpOp F))
    (outs : List (ℕ → F)) : ∃ outs', BatchRuns silu kernel ops outs outs' := by
  induction ops generalizing outs with
  | nil => exact ⟨outs, rfl⟩
  | cons op ops ih =>
    obtain ⟨out, hout⟩ : ∃ out, op.Leaves silu kernel outs 0 out := by
      unfold MlpOp.Leaves
      split_ifs
      · exact ⟨_, Runs.refl _ _⟩
      · exact ⟨_, rfl⟩
    obtain ⟨outs', h⟩ := ih (outs ++ [out])
    exact ⟨outs', 0, out, hout, h⟩

/-! ### The unfused block -/

/-- `down(silu(gate(x)) * up(x))`. -/
def unfusedMlp (silu : F → F) (gate up down : List (List F)) (x : Parallel.Rows ℕ F) :
    Parallel.Rows ℕ F :=
  Parallel.linear (fun t => List.zipWith (fun g u => silu g * u) (Parallel.linear x gate none t)
    (Parallel.linear x up none t)) down none

/-- Row `i` of a buffer with rows of `k` elements. -/
def rowAt (data : ℕ → F) (k i : ℕ) : List F := (List.range k).map fun l => data (i * k + l)

omit [Field F] in
theorem take_drop_eq [Zero F] {xs : List F} {k i : ℕ} (h : (i + 1) * k ≤ xs.length) :
    (xs.drop (i * k)).take k = rowAt (fun l => xs.getD l 0) k i := by
  rw [Nat.add_mul, Nat.one_mul] at h
  refine List.ext_getElem (by simp [rowAt]; omega) ?_
  intro l hl hl'
  have hlk : l < k := by simpa [rowAt] using hl'
  simp only [rowAt, List.getElem_take, List.getElem_drop, List.getElem_map, List.getElem_range]
  rw [List.getD_eq_getElem?_getD, List.getElem?_eq_getElem (by omega), Option.getD_some]

theorem dot_rowAt (x w : ℕ → F) (k i j : ℕ) : Parallel.dot (rowAt x k i) (rowAt w k j) =
    ∑ l ∈ Finset.range k, w (j * k + l) * x (i * k + l) := by
  rw [Parallel.dot, rowAt, rowAt, List.zipWith_map, List.zipWith_self]
  simp only [mul_comm (x _)]
  rfl

theorem MlpTensor.rows_eq (w : MlpTensor F) : w.rows = (List.range w.weight.outFeat).map
    (rowAt (fun l => w.elements.data.getD l 0) w.weight.inFeat) := by
  refine List.map_congr_left ?_
  intro j hj
  have hlen : w.elements.data.length = w.weight.outFeat * w.weight.inFeat := by
    rw [w.elements.length_data, w.shape_eq]
    simp
  have hrow : (j + 1) * w.weight.inFeat ≤ w.elements.data.length := by
    rw [hlen]
    exact Nat.mul_le_mul_right _ (List.mem_range.1 hj)
  have hinner : w.elements.shape.tail.prod = w.weight.inFeat := by
    rw [w.shape_eq]
    simp
  rw [Tensor.row, hinner, take_drop_eq hrow]

theorem batchRuns_three {silu : F → F} {kernel : LinearKernel F} {o₀ o₁ o₂ : MlpOp F}
    {outs : List (ℕ → F)} (h : BatchRuns silu kernel [o₀, o₁, o₂] [] outs) :
    ∃ old₀ old₁ old₂ y₀ y₁ y₂, outs = [y₀, y₁, y₂] ∧ o₀.Leaves silu kernel [] old₀ y₀ ∧
      o₁.Leaves silu kernel [y₀] old₁ y₁ ∧ o₂.Leaves silu kernel [y₀, y₁] old₂ y₂ := by
  obtain ⟨old₀, y₀, h₀, old₁, y₁, h₁, old₂, y₂, h₂, rfl⟩ := h
  exact ⟨old₀, old₁, old₂, y₀, y₁, y₂, rfl, h₀, h₁, h₂⟩

omit [Field F] in
theorem mlpLinear_ne_swiglu {t k n : ℕ} {useF16 : Bool} {r : String × List (PcWord F) × (ℕ × ℕ × ℕ)}
    (h : mlpLinear t useF16 k n = .ok r) : r.1 ≠ "swiglu_f32" := by
  rw [mlpLinear_shader h]
  unfold mlpShader
  split_ifs <;> decide

/-- **What a linear layer leaves**: `x * W^T`, row after row. -/
theorem ComputesLinear.row {kernel : LinearKernel F} (hkernel : ComputesLinear kernel)
    {t k n : ℕ} {useF16 : Bool} {r : String × List (PcWord F) × (ℕ × ℕ × ℕ)} (ht : 0 < t)
    (hk : 0 < k) (hn : 0 < n) (h : mlpLinear t useF16 k n = .ok r) (w x old : ℕ → F) {i : ℕ}
    (hi : i < t) : rowAt (kernel r.1 r.2.1 r.2.2 w x old) n i =
      Parallel.linear (rowAt x k) ((List.range n).map (rowAt w k)) none i := by
  rw [Parallel.linear, Parallel.addRow, List.map_map]
  refine List.map_congr_left ?_
  intro j hj
  rw [hkernel ht hk hn h w x old i hi j (List.mem_range.1 hj)]
  exact (dot_rowAt x w k i j).symm

/-- **What the activation leaves**: the two halves of each row, multiplied. -/
theorem Swiglu.Covers.row {t k : ℕ} {accs : List Access} (h : Covers t k accs) {silu : F → F}
    {dataA dataB old out : ℕ → F} (hruns : Runs old (accs.map (Access.store silu dataA dataB)) out)
    {i : ℕ} (hi : i < t) : rowAt out k i = List.zipWith (fun g u => silu g * u)
      ((rowAt dataA (2 * k) i).take k) ((rowAt dataA (2 * k) i).drop k) := by
  have hsplit : rowAt dataA (2 * k) i = (List.range k).map (fun c => dataA (i * (2 * k) + c)) ++
      (List.range k).map fun c => dataA (i * (2 * k) + (k + c)) := by
    rw [rowAt, Nat.two_mul, List.range_add, List.map_append, List.map_map]
    rfl
  have hlen : ((List.range k).map fun c => dataA (i * (2 * k) + c)).length = k := by simp
  rw [hsplit, List.take_left' hlen, List.drop_left' hlen, List.zipWith_map, List.zipWith_self]
  exact List.map_congr_left fun c hc => h.runs hruns hi (List.mem_range.1 hc)

/-- The swiglu dispatch of a batch. -/
def swigluDispatch (ops : List (MlpOp F)) : List Swiglu.Access :=
  (ops.filter (·.shaderName = "swiglu_f32")).flatMap fun op =>
    Swiglu.dispatch (.ofPc op.pushConstants) op.workgroups

/-- Row `i` of the result. -/
def resultRow (outFeatures : ℕ) (outs : List (ℕ → F)) (i : ℕ) : List F :=
  rowAt (outs.getD 2 0) outFeatures i

/-- **The fused MLP is the unfused one.**  For every `x` of `t` rows and weights that are not
refused, the batch is submitted with its elements encoded and runs to the end; its activation stores
each cell once, from the row of the cell, and leaves contiguous rows; and row `i` of the result is
that of `down(silu(gate(x)) * up(x))`. -/
theorem fused_eq_unfused (silu : F → F) {kernel : LinearKernel F} (hkernel : ComputesLinear kernel)
    {available : List String} {x : List F} {gateUp down : MlpTensor F} {ops : List (MlpOp F)}
    {t intermediate : ℕ} (heven : gateUp.weight.outFeat = 2 * intermediate)
    (hdown : down.weight.inFeat = intermediate) (ht : reshapeRows x gateUp.weight.inFeat = .ok t)
    (hpos : 0 < t) (hops : fusedSwigluMlpBatch available x gateUp down = .ok ops) :
    (∀ f32, fusedSwigluMlpOps f32 available x gateUp.toMlpWeight down.toMlpWeight =
      .ok (ops.map (MlpOp.encode f32))) ∧
    (∃ outs, BatchRuns silu kernel ops [] outs) ∧
    Swiglu.Covers t intermediate (swigluDispatch ops) ∧
    ∀ outs, BatchRuns silu kernel ops [] outs →
      (∀ i < t, rowAt (outs.getD 1 0) intermediate i =
        List.zipWith (fun g u => silu g * u)
          (rowAt (outs.getD 0 0) (2 * intermediate) i |>.take intermediate)
          (rowAt (outs.getD 0 0) (2 * intermediate) i |>.drop intermediate)) ∧
      ∀ i < t, resultRow down.weight.outFeat outs i =
        unfusedMlp silu (gateUp.rows.take intermediate) (gateUp.rows.drop intermediate) down.rows
          (fun r => (x.drop (r * gateUp.weight.inFeat)).take gateUp.weight.inFeat) i := by
  refine ⟨fun f32 => by rw [fusedSwigluMlpOps_eq, hops]; rfl, ?_⟩
  simp only [fusedSwigluMlpBatch, Py.bind_eq_ok, Py.pure_eq_ok, raiseIf_eq_ok, not_or, not_lt,
    heven, Nat.mul_div_cancel_left intermediate Nat.two_pos] at hops
  obtain ⟨t', ht', -, ⟨hsize, hsize'⟩, -, -, r, hr, s, hs, -, -, pc, hpc, rfl⟩ := hops
  obtain rfl : t = t' := Except.ok.inj (ht.symm.trans ht')
  simp only [reshapeRows, Py.bind_eq_ok, Py.pure_eq_ok, raiseIf_eq_ok, not_not] at ht
  obtain ⟨-, -, -, hdvd, rfl⟩ := ht
  have hmin : 0 < matvecMinWeightElements := by decide
  have hhidden : 0 < gateUp.weight.inFeat := Nat.pos_of_mul_pos_right (hmin.trans_le hsize)
  have htwo : 0 < 2 * intermediate := Nat.pos_of_mul_pos_left (hmin.trans_le hsize)
  have hinter : 0 < intermediate := Nat.pos_of_mul_pos_right (hmin.trans_le hsize')
  have hout : 0 < down.weight.outFeat := Nat.pos_of_mul_pos_left (hmin.trans_le hsize')
  have hcovers := Swiglu.dispatch_covers (Swiglu.packed_of_swigluPc hpc)
  refine ⟨exists_batchRuns _ _ _ _, ?_, fun outs hrun => ?_⟩
  · have h₀ := mlpLinear_ne_swiglu hr
    have h₂ := mlpLinear_ne_swiglu hs
    simpa [swigluDispatch, h₀, h₂] using hcovers
  obtain ⟨old₀, old₁, old₂, y₀, y₁, y₂, rfl, h₀, h₁, h₂⟩ := batchRuns_three hrun
  rw [MlpOp.Leaves, if_neg (mlpLinear_ne_swiglu hr)] at h₀
  rw [MlpOp.Leaves, if_pos rfl] at h₁
  rw [MlpOp.Leaves, if_neg (mlpLinear_ne_swiglu hs)] at h₂
  -- what each op is bound to
  have hy₀ : y₀ = kernel r.1 r.2.1 r.2.2 (fun l => gateUp.elements.data.getD l 0)
    (fun l => x.getD l 0) old₀ := h₀
  have hy₁ : Runs old₁ ((Swiglu.dispatch (.ofPc pc)
    (wg512 (x.length / gateUp.weight.inFeat * intermediate), 1, 1)).map
      (Swiglu.Access.store silu y₀ y₀)) y₁ := h₁
  have hy₂ : y₂ = kernel s.1 s.2.1 s.2.2 (fun l => down.elements.data.getD l 0) y₁ old₂ := h₂
  have hx : ∀ i < x.length / gateUp.weight.inFeat,
      (x.drop (i * gateUp.weight.inFeat)).take gateUp.weight.inFeat =
        rowAt (fun l => x.getD l 0) gateUp.weight.inFeat i := by
    intro i hi
    refine take_drop_eq ((Nat.mul_le_mul_right _ hi).trans_eq ?_)
    exact Nat.div_mul_cancel hdvd
  have hact := fun i hi => hcovers.row hy₁ (i := i) hi
  refine ⟨hact, fun i hi => ?_⟩
  have hgateUp : rowAt y₀ (2 * intermediate) i = gateUp.rows.map (Parallel.dot
      ((x.drop (i * gateUp.weight.inFeat)).take gateUp.weight.inFeat)) := by
    rw [hy₀, hkernel.row hpos hhidden htwo hr _ _ _ hi, ← heven, gateUp.rows_eq, hx i hi]
    rfl
  have hlast : rowAt y₂ down.weight.outFeat i =
      down.rows.map (Parallel.dot (rowAt y₁ intermediate i)) := by
    rw [hy₂, hkernel.row hpos hinter hout hs _ _ _ hi, ← hdown, down.rows_eq]
    rfl
  rw [resultRow, List.getD_cons_succ, List.getD_cons_succ, List.getD_cons_zero, hlast, hact i hi,
    hgateUp, ← List.map_take, ← List.map_drop]
  rfl

/-! ### An exact kernel -/

/-- The output and the input size of a linear dispatch, from its push constants. -/
def linearSizes (shader : String) (pc : List (PcWord F)) : ℕ × ℕ :=
  if shader = "mul_mat_vec_f32_f32_f32" ∨ shader = "mul_mat_vec_f16_f32_f32" then
    (PcWord.u32At pc 3, PcWord.u32At pc 0)
  else (PcWord.u32At pc 0, PcWord.u32At pc 2)

omit [Field F] in
theorem linearSizes_eq {t k n : ℕ} {useF16 : Bool} {r : String × List (PcWord F) × (ℕ × ℕ × ℕ)}
    (h : mlpLinear t useF16 k n = .ok r) : linearSizes r.1 r.2.1 = (n, k) := by
  simp only [mlpLinear, mlpShader] at h
  split_ifs at h
  all_goals
    obtain ⟨pc, hpc, hr⟩ := Py.bind_eq_ok.1 h
    obtain rfl := Except.ok.inj hr
    obtain ⟨-, rfl⟩ := KvOps.structPack_eq_ok.1 hpc
    rfl

/-- The linear dispatches over exact elements. -/
def exactKernel : LinearKernel F := fun shader pc _ w x _ i =>
  let (n, k) := linearSizes shader pc
  ∑ l ∈ Finset.range k, w (i % n * k + l) * x (i / n * k + l)

theorem exactKernel_computesLinear : ComputesLinear (exactKernel (F := F)) := by
  intro t k n useF16 r _ _ hn hr w x old i _ j hj
  have hdiv : (i * n + j) / n = i := by
    rw [Nat.mul_comm, Nat.mul_add_div hn, Nat.div_eq_of_lt hj, Nat.add_zero]
  have hmod : (i * n + j) % n = j := by rw [Nat.mul_add_mod', Nat.mod_eq_of_lt hj]
  simp only [exactKernel, linearSizes_eq hr, hdiv, hmod]

/-- `n` elements that are not all the same. -/
def ramp (n : ℕ) : List ℚ := (List.range n).map fun i => ((i % 7 : ℕ) : ℚ)

/-- A weight of them in single precision, without a buffer. -/
def rampWeight (outFeat inFeat : ℕ) : MlpTensor ℚ where
  weight := ⟨0, outFeat, inFeat, false⟩
  useF16 := false
  gpu := none
  halfBytes := []
  floatBytes := []
  elements := ⟨[outFeat, inFeat], ramp (outFeat * inFeat), by simp [ramp]⟩
  shape_eq := rfl

/-- Four rows of a thousand elements, and five hundred intermediate columns. -/
theorem fused_eq_unfused_ramp : ∃ ops, fusedSwigluMlpBatch ["swiglu_f32", "matmul_f32_f32"]
      (ramp 4000) (rampWeight 1000 1000) (rampWeight 2000 500) = .ok ops ∧
    Swiglu.Covers 4 500 (swigluDispatch ops) ∧
    ∀ outs, BatchRuns id exactKernel ops [] outs → ∀ i < 4, resultRow 2000 outs i =
      unfusedMlp id ((rampWeight 1000 1000).rows.take 500) ((rampWeight 1000 1000).rows.drop 500)
        (rampWeight 2000 500).rows (fun r => ((ramp 4000).drop (r * 1000)).take 1000) i := by
  have hrows : reshapeRows (ramp 4000) 1000 = .ok 4 := by
    have hlen : (ramp 4000).length = 4000 := by simp [ramp]
    rw [reshapeRows, hlen]
    rfl
  obtain ⟨ops, hops⟩ : ∃ ops, fusedSwigluMlpBatch ["swiglu_f32", "matmul_f32_f32"] (ramp 4000)
      (rampWeight 1000 1000) (rampWeight 2000 500) = .ok ops := by
    simp only [fusedSwigluMlpBatch, Py.bind_eq_ok, Py.pure_eq_ok, raiseIf_eq_ok]
    refine ⟨_, 4, hrows, (), by decide, (), by decide, _, rfl, _, rfl, (), by decide, _, rfl, rfl⟩
  have hgate : (rampWeight 1000 1000).weight.outFeat = 2 * 500 := rfl
  have hdown : (rampWeight 2000 500).weight.inFeat = 500 := rfl
  have hin : (rampWeight 1000 1000).weight.inFeat = 1000 := rfl
  rw [← hin] at hrows
  obtain ⟨-, -, hcovers, hrun⟩ := fused_eq_unfused id exactKernel_computesLinear hgate hdown hrows
    (Nat.succ_pos 3) hops
  exact ⟨ops, hops, hcovers, fun outs h => (hrun outs h).2⟩

end Weights

end VllmVulkan
