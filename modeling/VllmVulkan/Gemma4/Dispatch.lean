import VllmVulkan.Gemma4.Reference
import VllmVulkan.Lib.Commands

/-!
# The dispatches of the GPU forward pass

The GPU computes on persistent activation buffers, one for every `ACT_*` constant, and on the
resident weights.  A recorded dispatch computes its named operation from the buffers bound to it,
with the sizes its push constants give.

* `Act`, `actSize` : the activation buffers and their sizes, in elements;
* `binaryHeadPc`, `unaryHeadPc`, `mvPc` : the push constants;
* `Dispatch`, `Dispatch.value`, `Dispatch.inBounds` : the dispatches;
* `groups` : the dispatches of a command buffer between its barriers;
* `Holds` : a buffer starts with given elements;
* `Holds.run` : **what a dispatch does**: its output buffer holds its value, the others keep theirs.
-/

namespace VllmVulkan

namespace Gemma4

open Elementary Commands

/-- The slots of the persistent activation buffers. -/
inductive Act where
  | qkvIn | qOut | kOut | vOut | oIn | oOut | ffin | gate | up | mid | down | gelu
  | pleG | pleC | pleLayer | pleGelu | pleMid
  | residual | paNormed | hidden2 | ffNormed | hidden3a | contribNormed | hidden3b | hidden3Final
  | rawHidden | qkvOut
  | logitRaw | logitScaled | logitTanh | logitFinal | invCap | cap
  deriving DecidableEq, Repr

variable {K : Type}

/-- The sizes of `init_act_bufs`, in elements. -/
def actSize (cfg : Gemma4Config K) (slot : Act) : ℕ :=
  let h := cfg.hiddenSize
  let qDim := cfg.numAttentionHeads * cfg.globalHeadDim
  let kvDim := cfg.numKeyValueHeads * cfg.globalHeadDim
  let ffnInter := cfg.intermediateSize * 2
  let pleDim := cfg.hiddenSizePerLayerInput
  let vocab := cfg.vocabSize
  match slot with
  | .qkvIn => h
  | .qOut => qDim
  | .kOut => kvDim
  | .vOut => kvDim
  | .oIn => qDim
  | .oOut => h
  | .ffin => h
  | .gate => ffnInter
  | .up => ffnInter
  | .mid => ffnInter
  | .down => h
  | .gelu => ffnInter
  | .pleG => pleDim
  | .pleC => h
  | .pleLayer => pleDim
  | .pleGelu => pleDim
  | .pleMid => pleDim
  | .residual => h
  | .paNormed => h
  | .hidden2 => h
  | .ffNormed => h
  | .hidden3a => h
  | .contribNormed => h
  | .hidden3b => h
  | .hidden3Final => h
  | .rawHidden => h
  | .qkvOut => qDim + 2 * kvDim
  | .logitRaw => vocab
  | .logitScaled => vocab
  | .logitTanh => vocab
  | .logitFinal => vocab
  | .invCap => 1
  | .cap => 1

/-! ### Push constants -/

/-- The push constants of the binary shaders. -/
structure BinaryHeadPc (K : Type) where
  ne : ℕ
  ne00 : ℕ
  ne01 : ℕ
  ne02 : ℕ
  ne03 : ℕ
  nb00 : ℕ
  nb01 : ℕ
  nb02 : ℕ
  nb03 : ℕ
  ne10 : ℕ
  ne11 : ℕ
  ne12 : ℕ
  ne13 : ℕ
  nb10 : ℕ
  nb11 : ℕ
  nb12 : ℕ
  nb13 : ℕ
  ne20 : ℕ
  ne21 : ℕ
  ne22 : ℕ
  ne23 : ℕ
  nb20 : ℕ
  nb21 : ℕ
  nb22 : ℕ
  nb23 : ℕ
  misalign : ℕ
  param1 : K
  param2 : K
  param3 : ℕ

/-- `binary_head_pc`. -/
def binaryHeadPc [Zero K] (n bLen : ℕ) (param1 : K) : BinaryHeadPc K :=
  ⟨n, n, 1, 1, 1, 1, n, n, n,
    bLen, 1, 1, 1, 1, bLen, bLen, bLen,
    n, 1, 1, 1, 1, n, n, n,
    0, param1, 0, 0⟩

/-- `rms_norm_mul_pc`. -/
def rmsNormMulPc [Zero K] (n : ℕ) (eps : K) : BinaryHeadPc K := binaryHeadPc n n eps

/-- `binary_elementwise_pc`. -/
def binaryElementwisePc [Zero K] (n : ℕ) : BinaryHeadPc K := binaryHeadPc n n 0

/-- `binary_broadcast_pc`. -/
def binaryBroadcastPc [Zero K] (n : ℕ) : BinaryHeadPc K := binaryHeadPc n 1 0

/-- The push constants of the unary shaders. -/
structure UnaryHeadPc where
  kx : ℕ
  ky : ℕ
  param1 : ℕ
  param2 : ℕ
  param3 : ℕ
  param4 : ℕ

/-- `unary_head_pc`. -/
def unaryHeadPc (n : ℕ) : UnaryHeadPc := ⟨n, 1, 0, 0, 0, 0⟩

/-- The push constants of the matvec shaders. -/
structure MvPc where
  ncols : ℕ
  strideA : ℕ
  strideB : ℕ
  strideD : ℕ
  batchStrideA : ℕ
  batchStrideB : ℕ
  batchStrideD : ℕ
  fusionFlags : ℕ
  baseWorkGroupY : ℕ
  ne02 : ℕ
  ne12 : ℕ
  broadcast2 : ℕ
  broadcast3 : ℕ

/-- `mv_pc`. -/
def mvPc (k n t : ℕ) : MvPc := ⟨k, k, k, n, k * n, k, n, 0, 0, 1, t, t, 1⟩

/-! ### Dispatches -/

variable {S : Type}

/-- The contents of the buffers. -/
abbrev Mem (S K : Type) := S → List K

/-- A buffer bound to a dispatch for reading. -/
inductive Binding (S K : Type) where
  /-- A buffer of the memory. -/
  | slot (s : S)
  /-- A resident weight. -/
  | weight (data : List K)

/-- What a bound buffer contains. -/
def Binding.read (mem : Mem S K) : Binding S K → List K
  | .slot s => mem s
  | .weight data => data

/-- The memory behind a binding. -/
def Binding.slots : Binding S K → List S
  | .slot s => [s]
  | .weight _ => []

/-- The matvec shaders, by the type of their weights. -/
inductive MatVecShader where
  /-- `mul_mat_vec_f16_f32_f32_r4`. -/
  | f16
  /-- `mul_mat_vec_f32_f32_f32_r4`. -/
  | f32
  deriving DecidableEq, Repr

/-- A dispatch; `out` is the last of its bindings. -/
inductive Dispatch (S K : Type) where
  /-- `rms_norm_f32_mul`. -/
  | rmsNormMul (x w : Binding S K) (out : S) (pc : BinaryHeadPc K)
  /-- `mul_mat_vec_{f16,f32}_f32_f32_r4`. -/
  | mulMatVec (shader : MatVecShader) (w x : Binding S K) (out : S) (pc : MvPc)
  /-- `gelu_f32`. -/
  | gelu (x : Binding S K) (out : S) (pc : UnaryHeadPc)
  /-- `tanh_f32`. -/
  | tanh (x : Binding S K) (out : S) (pc : UnaryHeadPc)
  /-- `add_f32_f32_f32`. -/
  | add (a b : Binding S K) (out : S) (pc : BinaryHeadPc K)
  /-- `mul_f32_f32_f32`. -/
  | mul (a b : Binding S K) (out : S) (pc : BinaryHeadPc K)

/-- What is recorded into a command buffer: `record_to` and `record_barrier_to`. -/
inductive Record (S K : Type) where
  | dispatch (d : Dispatch S K)
  | barrier

/-- The dispatches between the barriers. -/
def groups : List (Record S K) → List (List (Dispatch S K))
  | [] => [[]]
  | .barrier :: rs => [] :: groups rs
  | .dispatch d :: rs => match groups rs with
    | [] => [[d]]
    | g :: gs => (d :: g) :: gs

namespace Dispatch

/-- The output buffer. -/
def out : Dispatch S K → S
  | .rmsNormMul _ _ out _ | .mulMatVec _ _ _ out _ | .gelu _ out _ | .tanh _ out _
  | .add _ _ out _ | .mul _ _ out _ => out

/-- The buffers bound for reading, each with the number of elements the shader reads. -/
def operands : Dispatch S K → List (Binding S K × ℕ)
  | .rmsNormMul x w _ pc => [(x, pc.ne00), (w, pc.ne10)]
  | .mulMatVec _ w x _ pc => [(w, pc.strideD * pc.strideA), (x, pc.ncols)]
  | .gelu x _ pc | .tanh x _ pc => [(x, pc.kx)]
  | .add a b _ pc | .mul a b _ pc => [(a, pc.ne00), (b, pc.ne10)]

/-- The number of elements written. -/
def outLen : Dispatch S K → ℕ
  | .rmsNormMul _ _ _ pc | .add _ _ _ pc | .mul _ _ _ pc => pc.ne00
  | .mulMatVec _ _ _ _ pc => pc.strideD
  | .gelu _ _ pc | .tanh _ _ pc => pc.kx

/-- The dispatch stays inside the buffers bound to it. -/
def inBounds (mem : Mem S K) (d : Dispatch S K) : Bool :=
  d.operands.all (fun p => p.2 ≤ (p.1.read mem).length) && d.outLen ≤ (mem d.out).length

variable [Field K] [Elementary K]

/-- An elementwise operation; the second operand repeats every `n` elements. -/
def broadcast (f : K → K → K) (a b : List K) (n : ℕ) : List K :=
  a.zipIdx.map fun p => f p.1 (b.getD (p.2 % n) 0)

/-- The elements written: the named operation, on the elements read. -/
def value (mem : Mem S K) : Dispatch S K → List K
  | .rmsNormMul x w _ pc =>
    rmsRow ((x.read mem).take pc.ne00) ((w.read mem).take pc.ne10) pc.param1
  | .mulMatVec _ w x _ pc => matvec (w.read mem) (x.read mem) pc.ncols pc.strideD
  | .gelu x _ pc => cpuGelu ((x.read mem).take pc.kx)
  | .tanh x _ pc => ((x.read mem).take pc.kx).map Elementary.tanh
  | .add a b _ pc => broadcast (· + ·) ((a.read mem).take pc.ne00) (b.read mem) pc.ne10
  | .mul a b _ pc => broadcast (· * ·) ((a.read mem).take pc.ne00) (b.read mem) pc.ne10

theorem value_congr {mem mem' : Mem S K} {d : Dispatch S K}
    (h : ∀ p ∈ d.operands, p.1.read mem = p.1.read mem') : d.value mem = d.value mem' := by
  cases d <;> simp_all [operands, value]

/-- The dispatch as a command: it overwrites the beginning of its output buffer. -/
def toCommand (d : Dispatch S K) : Command S (List K) where
  reads := d.out :: d.operands.flatMap fun p => p.1.slots
  out := d.out
  value mem := d.value mem ++ (mem d.out).drop (d.value mem).length
  value_congr := by
    intro mem mem' h
    have hv : d.value mem = d.value mem' := by
      refine value_congr ?_
      intro p hp
      rcases hb : p.1 with s | data
      · refine h s (List.mem_cons_of_mem _ (List.mem_flatMap.2 ⟨p, hp, ?_⟩))
        rw [hb]
        exact List.mem_singleton_self s
      · rfl
    rw [hv, h d.out List.mem_cons_self]

end Dispatch

variable [Field K] [Elementary K] [DecidableEq S]

/-- `submit_batch` and its wait: the memory afterwards, or `none` when a dispatch reaches outside
the buffers bound to it. -/
def submitBatch (σ : Schedule S (List K)) (rs : List (Record S K)) (mem : Mem S K) :
    Option (Mem S K) :=
  let gs := groups rs
  if gs.all (fun g => g.all (Dispatch.inBounds mem)) then
    some (submit σ (gs.map fun g => g.map Dispatch.toCommand) mem)
  else none

/-- `Buffer::write` through the mapped pointer. -/
def writeBuf (mem : Mem S K) (s : S) (data : List K) : Option (Mem S K) :=
  if data.length ≤ (mem s).length then
    some (Function.update mem s (data ++ (mem s).drop data.length))
  else none

/-- `read_f32_buf_at`. -/
def readF32BufAt (mem : Mem S K) (s : S) (offset count : ℕ) : Option (List K) :=
  slice (mem s) offset (offset + count)

/-- `read_f32_buf`. -/
def readF32Buf (mem : Mem S K) (s : S) (count : ℕ) : Option (List K) := readF32BufAt mem s 0 count

end Gemma4

end VllmVulkan
