import VllmVulkan.Context.Barriers

/-!
# `VulkanContext::execute_chained`

Two ops in one submission, the second reading the output of the first.  `execute_batch` resolves a
binding to an index into a vector; `execute_chained` keeps the address of the buffer.  A buffer made
for a `bytes` binding is a local variable of a closure, and it is moved out of that variable, into
`temp_bufs`, before the closure returns.

* `Location`, `Frame` : the addresses kept, and what each of them names;
* `executeChained` : the call; reading an address that names no buffer is undefined;
* `Request.batchOps` : the same two ops as a batch;
* `namedBuffers`, `executeChained_named` : what the addresses name when the ops are recorded;
* `Agrees` : what `execute_chained` owes to `execute_batch`;
* `executeChained_agrees_iff` : **the two agree exactly when no `bytes` binding is reached**.
-/

namespace VllmVulkan

namespace Context

/-- An address of a `Buffer`. -/
inductive Location where
  /-- The field of a `GpuTensor`. -/
  | tensor (tensor : ℕ)
  /-- `buf`, in the call of the closure that made temporary buffer `idx`. -/
  | closureBuf (idx : ℕ)
  /-- `inter_buf`. -/
  | interBuf
  /-- `out1_buf`. -/
  | out1Buf
  deriving DecidableEq, Repr

/-- The local variables that hold temporary buffers. -/
structure Frame where
  /-- `temp_bufs`, with what was written. -/
  tempBufs : List Bytes
  /-- The buffer named by `buf` of each call of the closure. -/
  closureBufs : List (Option Buf)
  deriving DecidableEq, Repr

namespace Frame

/-- `let buf = …`, with the address of `buf`. -/
def letBuf (frame : Frame) : Location × Frame :=
  (.closureBuf frame.closureBufs.length,
    { frame with closureBufs := frame.closureBufs ++ [some (.temp frame.tempBufs.length)] })

/-- `temp_bufs.push(buf)`: the variable `buf` names nothing afterwards. -/
def pushBuf (frame : Frame) (data : Bytes) : Frame where
  tempBufs := frame.tempBufs ++ [data]
  closureBufs := frame.closureBufs.set (frame.closureBufs.length - 1) none

/-- The buffer at an address. -/
def deref (frame : Frame) : Location → Option Buf
  | .tensor t => some (.tensor t)
  | .closureBuf idx => (frame.closureBufs[idx]?).join
  | .interBuf => some (.out 0)
  | .out1Buf => some (.out 1)

end Frame

/-- The closure that resolves binding `k` of op `opIndex`. -/
def resolveBinding (env : Env) (opIndex k : ℕ) (frame : Frame) : Binding → Py (Location × Frame)
  | .gpuTensor t => .ok (.tensor t, frame)
  | .bytes data => do
    env.attempt (.tempAlloc opIndex k)
    env.attempt (.tempWrite opIndex k)
    let (ref, frame) := frame.letBuf
    return (ref, frame.pushBuf data)
  | .tuple _ | .other _ => .error (.runtimeError "binding must be GpuTensor or bytes")

/-- The loop over the bindings of an op, from binding `k` on. -/
def resolveBindings (env : Env) (opIndex : ℕ) :
    ℕ → Frame → List Binding → Py (List Location × Frame)
  | _, frame, [] => .ok ([], frame)
  | k, frame, binding :: bindings => do
    let (ref, frame) ← resolveBinding env opIndex k frame binding
    let (refs, frame) ← resolveBindings env opIndex (k + 1) frame bindings
    return (ref :: refs, frame)

/-- The arguments of `execute_chained`. -/
structure Request where
  shader0 : String
  bindings0 : List Binding
  outputSize0 : ℕ
  pc0 : Bytes
  wg0 : ℕ × ℕ × ℕ
  shader1 : String
  bindings1 : List Binding
  outputSize1 : ℕ
  pc1 : Bytes
  wg1 : ℕ × ℕ × ℕ
  deriving DecidableEq, Repr

namespace Request

variable (r : Request)

/-- The first op; a barrier is recorded after it. -/
def op0 : Op where
  shaderName := r.shader0
  bindings := r.bindings0
  outputSizes := [r.outputSize0]
  pushConstants := r.pc0
  workgroups := r.wg0
  barrierAfter := true

/-- The second op. -/
def op1 : Op where
  shaderName := r.shader1
  bindings := r.bindings1
  outputSizes := [r.outputSize1]
  pushConstants := r.pc1
  workgroups := r.wg1
  barrierAfter := false

/-- The second op of the batch: its last input is a chain ref to the output of the first. -/
def chainedOp : Op := { r.op1 with bindings := r.bindings1 ++ [.tuple [0, 0]] }

/-- The same two ops as a batch. -/
def batchOps : List Op := [r.op0, r.chainedOp]

end Request

/-- How a call of `execute_chained` ends. -/
inductive ChainedOutcome where
  | returns (output0 output1 : Bytes)
  | raises (e : PyError)
  /-- An address that names no buffer was read, for op `op`. -/
  | undefined (op : ℕ)
  deriving DecidableEq, Repr

/-- A call of `execute_chained`. -/
structure ChainedRun where
  /-- The dispatches recorded. -/
  recorded : List Dispatch
  /-- How the call ended. -/
  outcome : ChainedOutcome
  /-- The context at the end. -/
  ctx : VulkanContext

/-- What is allocated before recording: `refs0`, `refs1` and the local variables. -/
def allocChained (env : Env) (r : Request) : Py (List Location × List Location × Frame) := do
  let (refs0, frame) ← resolveBindings env 0 0 ⟨[], []⟩ r.bindings0
  env.attempt (.outAlloc 0 0)
  env.attempt (.outAlloc 1 0)
  let (refs1, frame) ← resolveBindings env 1 0 frame r.bindings1
  return (refs0 ++ [.interBuf], refs1 ++ [.interBuf, .out1Buf], frame)

/-- What the addresses kept for the bindings of the two ops name, when the ops are recorded. -/
def namedBuffers (env : Env) (r : Request) : Py (List (Option Buf) × List (Option Buf)) := do
  let (refs0, refs1, frame) ← allocChained env r
  return (refs0.map frame.deref, refs1.map frame.deref)

/-- The outputs, read back once the device has left `mem`. -/
def readChained (env : Env) (mem : Memory) : Py (Bytes × Bytes) := do
  env.attempt (.read 0 0)
  let data0 := mem (.out 0)
  env.attempt (.read 1 0)
  let data1 := mem (.out 1)
  return (data0, data1)

/-- The submission of what was recorded. -/
def submitChained (gpu : List Dispatch → Memory → Memory) (ctx : VulkanContext) (env : Env)
    (recorded : List Dispatch) (mem : Memory) : ChainedRun :=
  match env.attempt .submit with
  | .error e => ⟨recorded, .raises e, ctx⟩
  | .ok () =>
    let mem := gpu recorded mem
    let ctx := { ctx with tensors := (List.range ctx.tensors.length).map (mem ∘ .tensor) }
    match readChained env mem with
    | .error e => ⟨recorded, .raises e, ctx⟩
    | .ok (data0, data1) => ⟨recorded, .returns data0 data1, ctx⟩

/-- Both dispatches are recorded, then submitted. -/
def recordChained (gpu : List Dispatch → Memory → Memory) (ctx : VulkanContext) (env : Env)
    (r : Request) (refs0 refs1 : List Location) (frame : Frame) : ChainedRun :=
  match refs0.mapM frame.deref with
  | none => ⟨[], .undefined 0, ctx⟩
  | some buffers0 =>
    match recordTo ctx.shaders env 0 r.op0 buffers0 with
    | .error e => ⟨[], .raises e, ctx⟩
    | .ok d0 =>
      match refs1.mapM frame.deref with
      | none => ⟨[d0], .undefined 1, ctx⟩
      | some buffers1 =>
        match recordTo ctx.shaders env 1 r.op1 buffers1 with
        | .error e => ⟨[d0], .raises e, ctx⟩
        | .ok d1 => submitChained gpu ctx env [d0, d1]
            (initialMemory ctx env ⟨[], frame.tempBufs, [r.outputSize0, r.outputSize1]⟩)

/-- `execute_chained`, on a GPU that executes a command buffer by `gpu`. -/
def executeChained (gpu : List Dispatch → Memory → Memory) (ctx : VulkanContext) (env : Env)
    (r : Request) : ChainedRun :=
  match allocChained env r with
  | .error e => ⟨[], .raises e, ctx⟩
  | .ok (refs0, refs1, frame) =>
    match env.attempt .beginBatch with
    | .error e => ⟨[], .raises e, ctx⟩
    | .ok () => recordChained gpu ctx env r refs0 refs1 frame

/-- A binding that `execute_chained` takes. -/
inductive Owned : Binding → Prop
  | gpuTensor {t : ℕ} : Owned (.gpuTensor t)
  | bytes {data : Bytes} : Owned (.bytes data)

/-- A request with `GpuTensor` and `bytes` bindings. -/
structure Request.Mixed (r : Request) : Prop where
  bindings0 : ∀ b ∈ r.bindings0, Owned b
  bindings1 : ∀ b ∈ r.bindings1, Owned b

/-- What `execute_chained` owes to the batch of the same ops. -/
structure Agrees (r : Request) (run : ChainedRun) (batch : Run) : Prop where
  /-- Every address read names a buffer. -/
  defined : ∀ op, run.outcome ≠ .undefined op
  /-- The ops are recorded with the same buffers, op 0 before a barrier. -/
  recorded : run.recorded = batch.recorded
  /-- Op 0 is bound to its own bindings in order, then the intermediate buffer. -/
  bound0 : ∀ d, run.recorded[0]? = some d → ∃ own, d.buffers = own ++ [.out 0] ∧
    List.Forall₂ (BindsTo r.batchOps) r.bindings0 own
  /-- Op 1 is bound to its own bindings in order, then the intermediate buffer, then its output. -/
  bound1 : ∀ d, run.recorded[1]? = some d → ∃ own, d.buffers = own ++ [.out 0, .out 1] ∧
    List.Forall₂ (BindsTo r.batchOps) r.bindings1 own
  /-- The outputs returned are the ones of the batch. -/
  returns : ∀ data0 data1, run.outcome = .returns data0 data1 ↔
    batch.outcome = .returns [[data0], [data1]]
  /-- One raises when the other does. -/
  raises : (∃ e, run.outcome = .raises e) ↔ ∃ e, batch.outcome = .raises e

/-! ### Temporary buffers -/

/-- What a binding has written to a temporary buffer. -/
def Binding.data? : Binding → Option Bytes
  | .bytes data => some data
  | .gpuTensor _ | .tuple _ | .other _ => none

theorem allocBindings_tempBufs {env : Env} {n k : ℕ} {bufs bufs' : Buffers} {bs : List Binding}
    {kinds : List BindingKind} (h : allocBindings env n k bufs bs = .ok (kinds, bufs')) :
    bufs'.tempBufs = bufs.tempBufs ++ bs.filterMap Binding.data? := by
  induction bs generalizing k bufs kinds with
  | nil =>
    obtain ⟨-, rfl⟩ := Prod.mk.inj (Except.ok.inj h)
    exact (List.append_nil _).symm
  | cons b bs ih =>
    simp only [allocBindings, Py.bind_eq_ok, Py.pure_eq_ok, Prod.exists] at h
    obtain ⟨kind, bufs₁, h₁, kinds', bufs₂, h₂, h⟩ := h
    obtain ⟨-, rfl⟩ := Prod.mk.inj h
    rw [ih h₂]
    cases b with
    | gpuTensor t =>
      obtain ⟨-, rfl⟩ := Prod.mk.inj (Except.ok.inj h₁)
      rfl
    | bytes data =>
      simp only [allocBinding, Py.bind_eq_ok, Py.pure_eq_ok] at h₁
      obtain ⟨-, -, -, -, h₁⟩ := h₁
      obtain ⟨-, rfl⟩ := Prod.mk.inj h₁
      exact List.append_assoc _ _ _
    | tuple items =>
      simp only [allocBinding, Py.bind_eq_ok, Py.pure_eq_ok] at h₁
      obtain ⟨x, -, i, -, y, -, j, -, u, -, h₁⟩ := h₁
      obtain ⟨-, rfl⟩ := Prod.mk.inj h₁
      rfl
    | other typeName => cases h₁

theorem allocOutputs_tempBufs {env : Env} {n j : ℕ} {bufs bufs' : Buffers} {sizes : List ℕ}
    (h : allocOutputs env n j bufs sizes = .ok bufs') : bufs'.tempBufs = bufs.tempBufs := by
  induction sizes generalizing j bufs with
  | nil => rw [Except.ok.inj h]
  | cons size sizes ih =>
    simp only [allocOutputs, Py.bind_eq_ok] at h
    obtain ⟨-, -, h⟩ := h
    exact (ih h).trans rfl

/-- The temporary buffers of a batch are those of its `bytes` bindings, in order. -/
theorem allocOps_tempBufs {env : Env} {n : ℕ} {bufs bufs' : Buffers} {ops : List Op}
    {opMeta : List OpBuffers} (h : allocOps env n bufs ops = .ok (opMeta, bufs')) :
    bufs'.tempBufs =
      bufs.tempBufs ++ ops.flatMap fun op => op.bindings.filterMap Binding.data? := by
  induction ops generalizing n bufs opMeta with
  | nil =>
    obtain ⟨-, rfl⟩ := Prod.mk.inj (Except.ok.inj h)
    exact (List.append_nil _).symm
  | cons op ops ih =>
    simp only [allocOps, Py.bind_eq_ok, Py.pure_eq_ok, Prod.exists] at h
    obtain ⟨kinds, bufs₁, h₁, bufs₂, h₂, opMeta', bufs₃, h₃, h⟩ := h
    obtain ⟨-, rfl⟩ := Prod.mk.inj h
    rw [ih h₃, allocOutputs_tempBufs h₂, allocBindings_tempBufs h₁, List.flatMap_cons,
      List.append_assoc]

/-! ### Addresses -/

/-- Every `buf` has been moved away. -/
def Frame.Moved (frame : Frame) : Prop := ∀ b ∈ frame.closureBufs, b = none

/-- The address kept for a binding. -/
inductive KeptAs : Binding → Location → Prop
  | gpuTensor {t : ℕ} : KeptAs (.gpuTensor t) (.tensor t)
  | bytes {data : Bytes} {idx : ℕ} : KeptAs (.bytes data) (.closureBuf idx)

theorem Frame.Moved.pushBuf {frame : Frame} (h : frame.Moved) (data : Bytes) :
    (frame.letBuf.2.pushBuf data).Moved := by
  have hset : (frame.letBuf.2.pushBuf data).closureBufs = frame.closureBufs ++ [none] := by
    simp [Frame.letBuf, Frame.pushBuf]
  intro b hb
  rw [hset, List.mem_append, List.mem_singleton] at hb
  exact hb.elim (h b) id

theorem Frame.Moved.deref_closureBuf {frame : Frame} (h : frame.Moved) (idx : ℕ) :
    frame.deref (.closureBuf idx) = none := by
  change (frame.closureBufs[idx]?).join = none
  cases hget : frame.closureBufs[idx]? with
  | none => rfl
  | some b => rw [h b (List.mem_of_getElem? hget), Option.join_some]

/-- One binding: when it is accepted, the address kept and what becomes of the local variables. -/
theorem resolveBinding_spec (env : Env) (n k : ℕ) (frame : Frame) {b : Binding} (hb : Owned b) :
    (BindingAccepted env n k b ↔ ∃ r, resolveBinding env n k frame b = .ok r) ∧
    ∀ ref frame', resolveBinding env n k frame b = .ok (ref, frame') →
      KeptAs b ref ∧ (frame.Moved → frame'.Moved) ∧
        frame'.tempBufs = frame.tempBufs ++ b.data?.toList := by
  cases hb with
  | gpuTensor =>
    refine ⟨⟨fun _ => ⟨_, rfl⟩, fun _ => trivial⟩, fun ref frame' h => ?_⟩
    obtain ⟨rfl, rfl⟩ := Prod.mk.inj (Except.ok.inj h)
    exact ⟨.gpuTensor, id, (List.append_nil _).symm⟩
  | bytes =>
    simp only [BindingAccepted, resolveBinding, Py.bind_eq_ok, Env.attempt_eq_ok, Py.pure_eq_ok]
    refine ⟨⟨fun h => ⟨_, (), h.1, (), h.2, rfl⟩, ?_⟩, ?_⟩
    · rintro ⟨-, -, h₁, -, h₂, -⟩
      exact ⟨h₁, h₂⟩
    rintro ref frame' ⟨-, -, -, -, h⟩
    obtain ⟨rfl, rfl⟩ := Prod.mk.inj h
    exact ⟨.bytes, fun hm => hm.pushBuf _, rfl⟩

theorem resolveBindings_spec (env : Env) (n k : ℕ) (frame : Frame) {bs : List Binding}
    (hbs : ∀ b ∈ bs, Owned b) :
    ((∀ (i : ℕ) b, bs[i]? = some b → BindingAccepted env n (k + i) b) ↔
      ∃ r, resolveBindings env n k frame bs = .ok r) ∧
    ∀ refs frame', resolveBindings env n k frame bs = .ok (refs, frame') →
      List.Forall₂ KeptAs bs refs ∧ (frame.Moved → frame'.Moved) ∧
        frame'.tempBufs = frame.tempBufs ++ bs.filterMap Binding.data? := by
  induction bs generalizing k frame with
  | nil =>
    refine ⟨⟨fun _ => ⟨_, rfl⟩, fun _ i b h => by simp at h⟩, fun refs frame' h => ?_⟩
    obtain ⟨rfl, rfl⟩ := Prod.mk.inj (Except.ok.inj h)
    exact ⟨.nil, id, (List.append_nil _).symm⟩
  | cons b bs ih =>
    rw [List.forall_mem_cons] at hbs
    obtain ⟨hacc, hspec⟩ := resolveBinding_spec env n k frame hbs.1
    simp only [resolveBindings, Py.bind_eq_ok, Py.pure_eq_ok, Prod.exists]
    constructor
    · constructor
      · intro h
        obtain ⟨⟨ref, frame₁⟩, h₁⟩ := hacc.1 (h 0 b rfl)
        obtain ⟨⟨refs, frame₂⟩, h₂⟩ := (ih (k + 1) frame₁ hbs.2).1.1 fun i c hc => by
          have := h (i + 1) c hc
          rwa [Nat.add_comm i 1, ← Nat.add_assoc] at this
        exact ⟨_, _, ref, frame₁, h₁, refs, frame₂, h₂, rfl⟩
      · rintro ⟨_, _, ref, frame₁, h₁, refs, frame₂, h₂, -⟩ i c hc
        cases i with
        | zero =>
          obtain rfl : b = c := by simpa using hc
          exact hacc.2 ⟨_, h₁⟩
        | succ i =>
          have := (ih (k + 1) frame₁ hbs.2).1.2 ⟨_, h₂⟩ i c (by simpa using hc)
          rwa [Nat.add_assoc, Nat.add_comm 1 i] at this
    · rintro refs' frame' ⟨ref, frame₁, h₁, refs, frame₂, h₂, h⟩
      obtain ⟨rfl, rfl⟩ := Prod.mk.inj h
      obtain ⟨hkept, hmoved, htemp⟩ := hspec _ _ h₁
      obtain ⟨hkept', hmoved', htemp'⟩ := (ih (k + 1) frame₁ hbs.2).2 _ _ h₂
      refine ⟨.cons hkept hkept', hmoved' ∘ hmoved, ?_⟩
      rw [htemp', htemp, List.append_assoc, List.filterMap_cons]
      cases b.data? <;> rfl

/-- No binding is `bytes`. -/
def TensorsOnly (bs : List Binding) : Prop := ∀ b ∈ bs, b.data? = none

instance (bs : List Binding) : Decidable (TensorsOnly bs) :=
  inferInstanceAs (Decidable (∀ b ∈ bs, b.data? = none))

section

variable {bs : List Binding} {refs : List Location} {frame : Frame}

theorem mapM_deref_tensors (frame : Frame) (ops : List Op) (h : List.Forall₂ KeptAs bs refs)
    (hbs : TensorsOnly bs) :
    ∃ own, refs.mapM frame.deref = some own ∧ List.Forall₂ (BindsTo ops) bs own := by
  induction h with
  | nil => exact ⟨[], rfl, .nil⟩
  | @cons b ref bs refs hkept _ ih =>
    obtain ⟨hb, hbs⟩ := List.forall_mem_cons.1 hbs
    obtain ⟨own, hown, hbinds⟩ := ih hbs
    rw [mapM_eq_some] at hown
    cases hkept with
    | @gpuTensor t =>
      exact ⟨.tensor t :: own, mapM_eq_some.2 (.cons rfl hown), .cons .tensor hbinds⟩
    | bytes => cases hb

theorem mapM_deref_bytes (h : List.Forall₂ KeptAs bs refs) (hmoved : frame.Moved)
    (hbs : ¬ TensorsOnly bs) (last : List Location) : (refs ++ last).mapM frame.deref = none := by
  by_contra hsome
  obtain ⟨bufs, hbufs⟩ := Option.ne_none_iff_exists'.1 hsome
  rw [mapM_eq_some] at hbufs
  refine hbs ?_
  intro b hb
  obtain ⟨i, hi, rfl⟩ := List.getElem_of_mem hb
  have hi' : i < refs.length := h.length_eq ▸ hi
  have hi'' : i < (refs ++ last).length := by rw [List.length_append]; omega
  have hkept := h.get hi hi'
  have hderef := hbufs.get hi'' (hbufs.length_eq ▸ hi'')
  simp only [List.get_eq_getElem, List.getElem_append_left hi'] at hkept hderef
  generalize refs[i] = ref at hkept hderef
  generalize bs[i] = b at hkept
  cases hkept with
  | gpuTensor => rfl
  | bytes => rw [hmoved.deref_closureBuf] at hderef; cases hderef

/-- A binding that is not `bytes` stands for one buffer. -/
theorem BindsTo.unique {ops : List Op} {b : Binding} {x y : Buf} (hb : b.data? = none)
    (hx : BindsTo ops b x) (hy : BindsTo ops b y) : x = y := by
  cases hx with
  | tensor => cases hy; rfl
  | temp => cases hb
  | output => cases hy; rfl

theorem forall₂_bindsTo_unique {ops : List Op} {xs ys : List Buf} (hbs : TensorsOnly bs)
    (hx : List.Forall₂ (BindsTo ops) bs xs) (hy : List.Forall₂ (BindsTo ops) bs ys) : xs = ys := by
  refine List.ext_getElem (hx.length_eq.symm.trans hy.length_eq) ?_
  intro i h₁ h₂
  have hi : i < bs.length := hx.length_eq ▸ h₁
  exact (hx.get hi h₁).unique (hbs _ (List.getElem_mem hi)) (hy.get hi h₂)

end

/-! ### The two requests -/

namespace Request

variable {r : Request} {env : Env}

theorem batchOps_cases {n : ℕ} {op : Op} (h : r.batchOps[n]? = some op) :
    (n = 0 ∧ op = r.op0) ∨ (n = 1 ∧ op = r.chainedOp) := by
  match n with
  | 0 => exact .inl ⟨rfl, (Option.some.inj h).symm⟩
  | 1 => exact .inr ⟨rfl, (Option.some.inj h).symm⟩
  | n + 2 => cases h

/-- The batch of the request. -/
def batch (r : Request) : Batch := ⟨r.batchOps, show 2 < 2 ^ 64 by decide⟩

theorem chainRefsInRange (hr : r.Mixed) : ChainRefsInRange r.batch.ops := by
  rintro n k i j ⟨op, hop, rest, hk⟩
  obtain ⟨rfl, rfl⟩ | ⟨rfl, rfl⟩ := batchOps_cases hop
  · cases hr.bindings0 _ (List.mem_of_getElem? hk)
  · obtain hmem | hmem := List.mem_append.1 (List.mem_of_getElem? hk)
    · cases hr.bindings1 _ hmem
    · cases List.mem_singleton.1 hmem
      exact ⟨le_rfl, Int.one_pos, le_rfl, r.op0, rfl, Int.one_pos⟩

end Request

section

variable {r : Request} {env : Env}

theorem batchOps_accepted :
    (∀ (n : ℕ) op, r.batchOps[n]? = some op → OpAccepted env n op) ↔
      ((∀ (i : ℕ) b, r.bindings0[i]? = some b → BindingAccepted env 0 (0 + i) b) ∧
        env.fails (.outAlloc 0 0) = none ∧ env.fails (.outAlloc 1 0) = none ∧
        ∀ (i : ℕ) b, r.bindings1[i]? = some b → BindingAccepted env 1 (0 + i) b) := by
  simp only [Nat.zero_add]
  constructor
  · intro h
    have h₀ := h 0 r.op0 rfl
    have h₁ := h 1 r.chainedOp rfl
    refine ⟨h₀.bindings, h₀.outputs 0 Nat.one_pos, h₁.outputs 0 Nat.one_pos, fun i b hb => ?_⟩
    exact h₁.bindings i b (getElem?_extend ⟨_, rfl⟩ hb)
  · rintro ⟨h₀, hout₀, hout₁, h₁⟩ n op hop
    obtain ⟨rfl, rfl⟩ | ⟨rfl, rfl⟩ := Request.batchOps_cases hop
    · refine ⟨h₀, fun j hj => ?_⟩
      obtain rfl : j = 0 := Nat.lt_one_iff.1 hj
      exact hout₀
    · refine ⟨fun k b hb => ?_, fun j hj => ?_⟩
      · by_cases hk : k < r.bindings1.length
        · exact h₁ k b ((List.getElem?_append_left hk).symm.trans hb)
        · have hmem := (List.getElem?_append_right (not_lt.1 hk)).symm.trans hb
          obtain rfl := List.mem_singleton.1 (List.mem_of_getElem? hmem)
          exact ⟨0, 0, [], rfl, by decide, by decide, Nat.one_pos⟩
      · obtain rfl : j = 0 := Nat.lt_one_iff.1 hj
        exact hout₁

theorem allocChained_spec (env : Env) (hr : r.Mixed) :
    ((∃ x, allocChained env r = .ok x) ↔
      ∀ (n : ℕ) op, r.batchOps[n]? = some op → OpAccepted env n op) ∧
    ∀ refs0 refs1 frame, allocChained env r = .ok (refs0, refs1, frame) →
      ∃ kept0 kept1, refs0 = kept0 ++ [.interBuf] ∧ refs1 = kept1 ++ [.interBuf, .out1Buf] ∧
        List.Forall₂ KeptAs r.bindings0 kept0 ∧ List.Forall₂ KeptAs r.bindings1 kept1 ∧
        frame.Moved ∧ frame.tempBufs =
          r.batchOps.flatMap fun op => op.bindings.filterMap Binding.data? := by
  have hspec0 := resolveBindings_spec env 0 0 ⟨[], []⟩ hr.bindings0
  have hspec1 := fun frame => resolveBindings_spec env 1 0 frame hr.bindings1
  rw [batchOps_accepted]
  simp only [allocChained, Py.bind_eq_ok, Py.pure_eq_ok, Env.attempt_eq_ok, Prod.exists]
  constructor
  · constructor
    · rintro ⟨_, _, _, refs0, frame0, h₀, -, hout₀, -, hout₁, refs1, frame1, h₁, -⟩
      exact ⟨hspec0.1.2 ⟨_, h₀⟩, hout₀, hout₁, (hspec1 frame0).1.2 ⟨_, h₁⟩⟩
    · rintro ⟨hacc₀, hout₀, hout₁, hacc₁⟩
      obtain ⟨⟨refs0, frame0⟩, h₀⟩ := hspec0.1.1 hacc₀
      obtain ⟨⟨refs1, frame1⟩, h₁⟩ := (hspec1 frame0).1.1 hacc₁
      exact ⟨_, _, _, refs0, frame0, h₀, (), hout₀, (), hout₁, refs1, frame1, h₁, rfl⟩
  · rintro _ _ _ ⟨refs0, frame0, h₀, -, -, -, -, refs1, frame1, h₁, h⟩
    simp only [Prod.mk.injEq] at h
    obtain ⟨rfl, rfl, rfl⟩ := h
    obtain ⟨hkept₀, hmoved₀, htemp₀⟩ := hspec0.2 _ _ h₀
    obtain ⟨hkept₁, hmoved₁, htemp₁⟩ := (hspec1 frame0).2 _ _ h₁
    refine ⟨refs0, refs1, rfl, rfl, hkept₀, hkept₁, hmoved₁ (hmoved₀ (by simp [Frame.Moved])), ?_⟩
    rw [htemp₁, htemp₀]
    simp [Request.batchOps, Request.op0, Request.chainedOp, Binding.data?]

end

/-! ### The call -/

/-- No `bytes` binding is reached: the call is refused before it opens the command buffer, or op 0
has none, and op 1 has none or is not reached. -/
def BytesUnreached (ctx : VulkanContext) (env : Env) (r : Request) : Prop :=
  ¬ ((∀ (n : ℕ) op, r.batchOps[n]? = some op → OpAccepted env n op) ∧
    env.fails .beginBatch = none) ∨
  TensorsOnly r.bindings0 ∧ (TensorsOnly r.bindings1 ∨ ¬ RecordAccepted ctx env 0 r.op0)

/-- A chained outcome as that of a batch. -/
def ChainedOutcome.toBatch : ChainedOutcome → Outcome (List (List Bytes))
  | .returns data0 data1 => .returns [[data0], [data1]]
  | .raises e => .raises e
  | .undefined _ => .panics

theorem ChainedOutcome.toBatch_returns {o : ChainedOutcome} {data0 data1 : Bytes} :
    o.toBatch = .returns [[data0], [data1]] ↔ o = .returns data0 data1 := by
  cases o <;> simp [toBatch]

theorem ChainedOutcome.toBatch_raises {o : ChainedOutcome} {e : PyError} :
    o.toBatch = .raises e ↔ o = .raises e := by
  cases o <;> simp [toBatch]

theorem agrees_of_raises {r : Request} {run : ChainedRun} {batch : Run}
    (hrun : (∃ e, run.outcome = .raises e) ∧ run.recorded = [])
    (hbatch : (∃ e, batch.outcome = .raises e) ∧ batch.recorded = []) : Agrees r run batch := by
  obtain ⟨⟨e, he⟩, hnil⟩ := hrun
  obtain ⟨⟨e', he'⟩, hnil'⟩ := hbatch
  exact {
    defined := fun op => by simp [he]
    recorded := hnil.trans hnil'.symm
    bound0 := fun d hd => by simp [hnil] at hd
    bound1 := fun d hd => by simp [hnil] at hd
    returns := fun data0 data1 => by simp [he, he']
    raises := iff_of_true ⟨e, he⟩ ⟨e', he'⟩ }

theorem recordTo_buffers {shaders : List String} {env : Env} {n : ℕ} {op : Op} {buffers : List Buf}
    {d : Dispatch} (h : recordTo shaders env n op buffers = .ok d) : d.buffers = buffers := by
  simp only [recordTo, Py.bind_eq_ok, Py.pure_eq_ok] at h
  obtain ⟨-, -, -, -, -, -, rfl⟩ := h
  rfl

theorem map_deref_of_mapM {frame : Frame} {refs : List Location} {buffers : List Buf}
    (h : refs.mapM frame.deref = some buffers) : buffers.map some = refs.map frame.deref := by
  have hall := mapM_eq_some.1 h
  clear h
  induction hall with
  | nil => rfl
  | cons hd _ ih => rw [List.map_cons, List.map_cons, ih, hd]

/-- **The buffers that the ops are bound to** are the ones their addresses name. -/
theorem executeChained_named (gpu : List Dispatch → Memory → Memory) (ctx : VulkanContext)
    {env : Env} {r : Request} {named0 named1 : List (Option Buf)}
    (h : namedBuffers env r = .ok (named0, named1)) :
    (∀ d, (executeChained gpu ctx env r).recorded[0]? = some d → d.buffers.map some = named0) ∧
      ∀ d, (executeChained gpu ctx env r).recorded[1]? = some d → d.buffers.map some = named1 := by
  obtain ⟨⟨refs0, refs1, frame⟩, halloc, hnamed⟩ := Py.bind_eq_ok.1 h
  obtain ⟨rfl, rfl⟩ := Prod.mk.inj (Py.pure_eq_ok.1 hnamed)
  have hsubmit : ∀ env ds mem, (submitChained gpu ctx env ds mem).recorded = ds := by
    intro env ds mem
    unfold submitChained
    split
    · rfl
    · dsimp only
      split <;> rfl
  unfold executeChained
  simp only [halloc]
  split
  · exact ⟨nofun, nofun⟩
  unfold recordChained
  cases h0 : refs0.mapM frame.deref with
  | none => exact ⟨nofun, nofun⟩
  | some buffers0 =>
    dsimp only
    cases hd0 : recordTo ctx.shaders env 0 r.op0 buffers0 with
    | error e => exact ⟨nofun, nofun⟩
    | ok d0 =>
      have hbound0 : d0.buffers.map some = refs0.map frame.deref := by
        rw [recordTo_buffers hd0, map_deref_of_mapM h0]
      dsimp only
      cases h1 : refs1.mapM frame.deref with
      | none => exact ⟨fun d hd => Option.some.inj hd ▸ hbound0, nofun⟩
      | some buffers1 =>
        dsimp only
        cases hd1 : recordTo ctx.shaders env 1 r.op1 buffers1 with
        | error e => exact ⟨fun d hd => Option.some.inj hd ▸ hbound0, nofun⟩
        | ok d1 =>
          dsimp only
          rw [hsubmit]
          refine ⟨fun d hd => Option.some.inj hd ▸ hbound0, fun d hd => ?_⟩
          rw [← Option.some.inj hd, recordTo_buffers hd1, map_deref_of_mapM h1]

theorem initialMemory_congr (ctx : VulkanContext) (env : Env) {bufs bufs' : Buffers}
    (h : bufs.tempBufs = bufs'.tempBufs) :
    initialMemory ctx env bufs = initialMemory ctx env bufs' := by
  funext b
  cases b with
  | tensor t => rfl
  | temp idx => simp only [initialMemory, h]
  | out idx => rfl

section

variable (gpu : List Dispatch → Memory → Memory) (ctx : VulkanContext) {env : Env} {r : Request}

theorem executeChained_refused (hr : r.Mixed)
    (h : ¬ ((∀ (n : ℕ) op, r.batchOps[n]? = some op → OpAccepted env n op) ∧
      env.fails .beginBatch = none)) :
    (∃ e, (executeChained gpu ctx env r).outcome = .raises e) ∧
      (executeChained gpu ctx env r).recorded = [] := by
  unfold executeChained
  cases halloc : allocChained env r with
  | error e => exact ⟨⟨e, rfl⟩, rfl⟩
  | ok x =>
    have hacc := (allocChained_spec env hr).1.1 ⟨x, halloc⟩
    cases hbegin : env.attempt .beginBatch with
    | error e => exact ⟨⟨e, rfl⟩, rfl⟩
    | ok u => exact absurd ⟨hacc, Env.attempt_eq_ok.1 hbegin⟩ h

theorem executeChained_opened (hr : r.Mixed)
    (hacc : ∀ (n : ℕ) op, r.batchOps[n]? = some op → OpAccepted env n op)
    (hbegin : env.fails .beginBatch = none) : ∃ kept0 kept1 frame,
      List.Forall₂ KeptAs r.bindings0 kept0 ∧ List.Forall₂ KeptAs r.bindings1 kept1 ∧
      frame.Moved ∧ frame.tempBufs =
        (r.batchOps.flatMap fun op => op.bindings.filterMap Binding.data?) ∧
      executeChained gpu ctx env r = recordChained gpu ctx env r (kept0 ++ [.interBuf])
        (kept1 ++ [.interBuf, .out1Buf]) frame := by
  obtain ⟨hiff, hspec⟩ := allocChained_spec env hr
  obtain ⟨⟨refs0, refs1, frame⟩, halloc⟩ := hiff.2 hacc
  obtain ⟨kept0, kept1, rfl, rfl, hkept0, hkept1, hmoved, htemp⟩ := hspec _ _ _ halloc
  refine ⟨kept0, kept1, frame, hkept0, hkept1, hmoved, htemp, ?_⟩
  have hattempt : env.attempt .beginBatch = .ok () := Env.attempt_eq_ok.2 hbegin
  rw [executeChained, halloc]
  simp only [hattempt]

/-- The submission of a batch. -/
def submitRecorded (env : Env) (opMeta : List OpBuffers) (ds : List Dispatch) (mem : Memory) :
    Run :=
  match env.attempt .submit with
  | .error e => ⟨ds, .raises e, mem, ctx⟩
  | .ok () => readBack ctx env opMeta ds (gpu ds mem)

theorem executeBatch_second {ops : List Op} {opMeta : List OpBuffers} {bufs : Buffers}
    {op0 op1 : Op} {m0 m1 : OpBuffers} {buffers0 buffers1 : List Buf} {d0 : Dispatch}
    (hops : allocOps env 0 ⟨[], [], []⟩ ops = .ok (opMeta, bufs))
    (hbegin : env.fails .beginBatch = none) (hzip : ops.zip opMeta = [(op0, m0), (op1, m1)])
    (hbuf0 : boundBuffers bufs opMeta m0 = some buffers0)
    (hbuf1 : boundBuffers bufs opMeta m1 = some buffers1)
    (hd0 : recordTo ctx.shaders env 0 op0 buffers0 = .ok d0) :
    executeBatch gpu ctx env ops =
      match recordTo ctx.shaders env 1 op1 buffers1 with
      | .error e => ⟨[d0], .raises e, initialMemory ctx env bufs, ctx⟩
      | .ok d1 => submitRecorded gpu ctx env opMeta [d0, d1] (initialMemory ctx env bufs) := by
  have hattempt : env.attempt .beginBatch = .ok () := Env.attempt_eq_ok.2 hbegin
  rw [executeBatch, hops]
  simp only [hattempt, hzip, recordOps, hbuf0, hbuf1, hd0, Nat.zero_add]
  cases recordTo ctx.shaders env 1 op1 buffers1 with
  | error e => rfl
  | ok d1 =>
    unfold submitRecorded
    cases env.attempt .submit with
    | error e => rfl
    | ok u => rfl

theorem readOutputs_pair (env : Env) (mem : Memory) {m0 m1 : OpBuffers} (hs0 : m0.outStart = 0)
    (hs1 : m1.outStart = 1) (hc0 : m0.outCount = 1) (hc1 : m1.outCount = 1) :
    readOutputs env mem 0 [m0, m1] =
      match readChained env mem with
      | .error e => .error e
      | .ok (data0, data1) => .ok [[data0], [data1]] := by
  simp only [readOutputs, readOp, readChained, hc0, hc1, hs0, hs1, Nat.zero_add]
  cases env.attempt (.read 0 0) with
  | error e => rfl
  | ok u =>
    cases env.attempt (.read 1 0) with
    | error e => rfl
    | ok u => rfl

theorem submitChained_agrees (env : Env) {m0 m1 : OpBuffers} (hs0 : m0.outStart = 0)
    (hs1 : m1.outStart = 1) (hc0 : m0.outCount = 1) (hc1 : m1.outCount = 1) (ds : List Dispatch)
    (mem : Memory) :
    (∀ op, (submitChained gpu ctx env ds mem).outcome ≠ .undefined op) ∧
      (submitChained gpu ctx env ds mem).recorded = ds ∧
      (submitRecorded gpu ctx env [m0, m1] ds mem).recorded = ds ∧
      (submitRecorded gpu ctx env [m0, m1] ds mem).outcome =
        (submitChained gpu ctx env ds mem).outcome.toBatch := by
  unfold submitChained submitRecorded
  cases env.attempt .submit with
  | error e => exact ⟨nofun, rfl, rfl, rfl⟩
  | ok u =>
    simp only [readBack, readOutputs_pair env _ hs0 hs1 hc0 hc1]
    cases readChained env (gpu ds mem) with
    | error e => exact ⟨nofun, rfl, rfl, rfl⟩
    | ok x => exact ⟨nofun, rfl, rfl, rfl⟩

theorem batch_bound (hr : r.Mixed)
    (hacc : ∀ (n : ℕ) op, r.batchOps[n]? = some op → OpAccepted env n op)
    (h0 : TensorsOnly r.bindings0) (h1 : TensorsOnly r.bindings1) {own0 own1 : List Buf}
    (hbinds0 : List.Forall₂ (BindsTo r.batchOps) r.bindings0 own0)
    (hbinds1 : List.Forall₂ (BindsTo r.batchOps) r.bindings1 own1) : ∃ opMeta bufs m0 m1,
      allocOps env 0 ⟨[], [], []⟩ r.batchOps = .ok (opMeta, bufs) ∧ opMeta = [m0, m1] ∧
      Described bufs 0 0 r.op0 m0 ∧ Described bufs 1 1 r.chainedOp m1 ∧
      boundBuffers bufs opMeta m0 = some (own0 ++ [.out 0]) ∧
      boundBuffers bufs opMeta m1 = some (own1 ++ [.out 0, .out 1]) := by
  have hok := (allocOps_spec env 0 ⟨[], [], []⟩ r.batchOps).1
  simp only [Nat.zero_add] at hok
  obtain ⟨⟨opMeta, bufs⟩, hops⟩ := hok.1 hacc
  have ha : Allocated r.batch.ops opMeta bufs := allocated_of_allocOps hops
  obtain ⟨m0, m1, rfl⟩ := List.length_eq_two.1 ha.length
  have hrange := Request.chainRefsInRange hr
  have hbound (n : ℕ) (op : Op) {m : OpBuffers} {own : List Buf} (hop : r.batchOps[n]? = some op)
      (hm : [m0, m1][n]? = some m) (ht : TensorsOnly op.bindings)
      (hbinds : List.Forall₂ (BindsTo r.batchOps) op.bindings own) :
      boundBuffers bufs [m0, m1] m = some (own ++ outputBuffers r.batchOps n op) := by
    obtain ⟨inputs, hbuf, -⟩ := boundBuffers_eq ha hop hm (hrange n)
    obtain ⟨inputs', hbinds', heq⟩ := bindsTo_of_boundBuffers ha hop hm (hrange n) hbuf
    rw [hbuf, heq, forall₂_bindsTo_unique ht hbinds' hbinds]
    rfl
  refine ⟨_, bufs, m0, m1, hops, rfl, ha.described 0 r.op0 m0 rfl rfl,
    ha.described 1 r.chainedOp m1 rfl rfl, hbound 0 r.op0 rfl rfl h0 hbinds0, ?_⟩
  have hbinds : List.Forall₂ (BindsTo r.batchOps) r.chainedOp.bindings (own1 ++ [.out 0]) :=
    List.rel_append hbinds1 (.cons .output .nil)
  have ht : TensorsOnly r.chainedOp.bindings := by
    intro b hb
    obtain hb | hb := List.mem_append.1 hb
    · exact h1 b hb
    · rw [List.mem_singleton.1 hb]
      rfl
  rw [hbound 1 r.chainedOp rfl rfl ht hbinds, List.append_assoc]
  rfl

/-- **Two ops on tensors**: when both bindings are tensors only and the first op is recorded, the
calls agree. -/
theorem agrees_of_tensorsOnly (hr : r.Mixed)
    (hacc : ∀ (n : ℕ) op, r.batchOps[n]? = some op → OpAccepted env n op)
    (hbegin : env.fails .beginBatch = none) (h0 : TensorsOnly r.bindings0)
    (h1 : TensorsOnly r.bindings1) (hrec : RecordAccepted ctx env 0 r.op0) :
    Agrees r (executeChained gpu ctx env r) (executeBatch gpu ctx env r.batchOps) := by
  obtain ⟨kept0, kept1, frame, hkept0, hkept1, hmoved, htemp, hchained⟩ :=
    executeChained_opened gpu ctx hr hacc hbegin
  obtain ⟨own0, hown0, hbinds0⟩ := mapM_deref_tensors frame r.batchOps hkept0 h0
  obtain ⟨own1, hown1, hbinds1⟩ := mapM_deref_tensors frame r.batchOps hkept1 h1
  -- the addresses name these buffers
  have hrefs0 : (kept0 ++ [Location.interBuf]).mapM frame.deref = some (own0 ++ [.out 0]) :=
    mapM_eq_some.2 (List.rel_append (mapM_eq_some.1 hown0) (.cons rfl .nil))
  have hrefs1 : (kept1 ++ [Location.interBuf, .out1Buf]).mapM frame.deref =
      some (own1 ++ [.out 0, .out 1]) :=
    mapM_eq_some.2 (List.rel_append (mapM_eq_some.1 hown1) (.cons rfl (.cons rfl .nil)))
  -- the batch binds the same ones
  obtain ⟨opMeta, bufs, m0, m1, hops, rfl, hdesc0, hdesc1, hbuf0, hbuf1⟩ :=
    batch_bound hr hacc h0 h1 hbinds0 hbinds1
  obtain ⟨d0, hd0⟩ : ∃ d0, recordTo ctx.shaders env 0 r.op0 (own0 ++ [.out 0]) = .ok d0 := by
    rw [recordTo_accepted, List.length_append, ← hbinds0.length_eq]
    exact ⟨hrec.shader, hrec.descriptorSet, hrec.count⟩
  have hbatch := executeBatch_second gpu ctx hops hbegin rfl hbuf0 hbuf1 hd0
  have hmem : initialMemory ctx env bufs =
      initialMemory ctx env ⟨[], frame.tempBufs, [r.outputSize0, r.outputSize1]⟩ :=
    initialMemory_congr ctx env ((allocOps_tempBufs hops).trans htemp.symm)
  have hd0buf := recordTo_buffers hd0
  rw [hchained, hbatch, hmem, recordChained, hrefs0]
  simp only [hd0, hrefs1]
  have hsame : recordTo ctx.shaders env 1 r.chainedOp (own1 ++ [.out 0, .out 1]) =
    recordTo ctx.shaders env 1 r.op1 (own1 ++ [.out 0, .out 1]) := rfl
  rw [hsame]
  cases hd1 : recordTo ctx.shaders env 1 r.op1 (own1 ++ [.out 0, .out 1]) with
  | error e =>
    exact {
      defined := nofun
      recorded := rfl
      bound0 := fun d hd => ⟨own0, by rw [← Option.some.inj hd, hd0buf], hbinds0⟩
      bound1 := nofun
      returns := fun data0 data1 => iff_of_false nofun nofun
      raises := iff_of_true ⟨e, rfl⟩ ⟨e, rfl⟩ }
  | ok d1 =>
    have hd1buf := recordTo_buffers hd1
    obtain ⟨hdef, hrecC, hrecB, hout⟩ := submitChained_agrees gpu ctx env hdesc0.outStart
      hdesc1.outStart hdesc0.outCount hdesc1.outCount [d0, d1]
      (initialMemory ctx env ⟨[], frame.tempBufs, [r.outputSize0, r.outputSize1]⟩)
    exact {
      defined := hdef
      recorded := hrecC.trans hrecB.symm
      bound0 := fun d hd => by
        rw [hrecC] at hd
        exact ⟨own0, by rw [← Option.some.inj hd, hd0buf], hbinds0⟩
      bound1 := fun d hd => by
        rw [hrecC] at hd
        exact ⟨own1, by rw [← Option.some.inj hd, hd1buf], hbinds1⟩
      returns := fun data0 data1 => by
        rw [hout]
        exact ChainedOutcome.toBatch_returns.symm
      raises := by
        rw [hout]
        exact exists_congr fun e => ChainedOutcome.toBatch_raises.symm }

/-- **`execute_chained` equals the chained batch exactly when no `bytes` binding is reached.** -/
theorem executeChained_agrees_iff (env : Env) (hr : r.Mixed) :
    Agrees r (executeChained gpu ctx env r) (executeBatch gpu ctx env r.batchOps) ↔
      BytesUnreached ctx env r := by
  by_cases hopen : (∀ (n : ℕ) op, r.batchOps[n]? = some op → OpAccepted env n op) ∧
      env.fails .beginBatch = none
  swap
  · exact iff_of_true (agrees_of_raises (executeChained_refused gpu ctx hr hopen)
      (executeBatch_refused gpu ctx hopen)) (.inl hopen)
  obtain ⟨kept0, kept1, frame, hkept0, hkept1, hmoved, htemp, hchained⟩ :=
    executeChained_opened gpu ctx hr hopen.1 hopen.2
  by_cases h0 : TensorsOnly r.bindings0
  swap
  · -- the addresses of op 0 are read first
    have hnone := mapM_deref_bytes hkept0 hmoved h0 [.interBuf]
    refine iff_of_false (fun h => h.defined 0 ?_) (by unfold BytesUnreached; tauto)
    rw [hchained, recordChained, hnone]
  obtain ⟨own0, hown0, hbinds0⟩ := mapM_deref_tensors frame r.batchOps hkept0 h0
  have hrefs0 : (kept0 ++ [Location.interBuf]).mapM frame.deref = some (own0 ++ [.out 0]) :=
    mapM_eq_some.2 (List.rel_append (mapM_eq_some.1 hown0) (.cons rfl .nil))
  have hiff : (∃ d, recordTo ctx.shaders env 0 r.op0 (own0 ++ [.out 0]) = .ok d) ↔
      RecordAccepted ctx env 0 r.op0 := by
    rw [recordTo_accepted, List.length_append, ← hbinds0.length_eq]
    exact ⟨fun h => ⟨h.1, h.2.1, h.2.2⟩, fun h => ⟨h.shader, h.descriptorSet, h.count⟩⟩
  by_cases hrec : RecordAccepted ctx env 0 r.op0
  swap
  · -- op 0 is not recorded
    refine iff_of_true (agrees_of_raises ?_ ?_) (.inr ⟨h0, .inr hrec⟩)
    · rw [hchained, recordChained, hrefs0]
      cases hd : recordTo ctx.shaders env 0 r.op0 (own0 ++ [.out 0]) with
      | error e => simp [hd]
      | ok d => exact absurd (hiff.1 ⟨d, hd⟩) hrec
    · exact executeBatch_refusedBeforeRecording gpu ctx (b := r.batch)
        fun h => hrec (h.2.2 r.op0 rfl)
  by_cases h1 : TensorsOnly r.bindings1
  · exact iff_of_true (agrees_of_tensorsOnly gpu ctx hr hopen.1 hopen.2 h0 h1 hrec)
      (.inr ⟨h0, .inl h1⟩)
  · -- the addresses of op 1 are read after op 0 is recorded
    obtain ⟨d0, hd0⟩ := hiff.2 hrec
    have hnone := mapM_deref_bytes hkept1 hmoved h1 [.interBuf, .out1Buf]
    refine iff_of_false (fun h => h.defined 1 ?_) (by unfold BytesUnreached; tauto)
    rw [hchained, recordChained, hrefs0]
    simp only [hd0, hnone]

end

/-- The call of `rms_norm_then_linear`, with its input as the first binding. -/
def normThenLinear (x : Binding) : Request where
  shader0 := "rms_norm_f32_mul"
  bindings0 := [x, .gpuTensor 0]
  outputSize0 := 4
  pc0 := []
  wg0 := (1, 1, 1)
  shader1 := "mul_mat_vec_f32_f32_f32"
  bindings1 := [.gpuTensor 1]
  outputSize1 := 4
  pc1 := []
  wg1 := (1, 1, 1)

theorem normThenLinear_mixed {x : Binding} (hx : Owned x) : (normThenLinear x).Mixed where
  bindings0 := List.forall_mem_cons.2 ⟨hx, List.forall_mem_singleton.2 .gpuTensor⟩
  bindings1 := List.forall_mem_singleton.2 .gpuTensor

/-- A context with the two shaders. -/
def normLinearCtx : VulkanContext := ⟨["rms_norm_f32_mul", "mul_mat_vec_f32_f32_f32"], []⟩

theorem executeChained_agrees_iff_tensor :
    (normThenLinear (.gpuTensor 2)).Mixed ∧
      Agrees (normThenLinear (.gpuTensor 2))
        (executeChained (fun _ mem => mem) normLinearCtx .calm (normThenLinear (.gpuTensor 2)))
        (executeBatch (fun _ mem => mem) normLinearCtx .calm
          (normThenLinear (.gpuTensor 2)).batchOps) :=
  ⟨normThenLinear_mixed .gpuTensor, (executeChained_agrees_iff _ _ _
    (normThenLinear_mixed .gpuTensor)).2 (.inr ⟨by decide, .inl (by decide)⟩)⟩

/-- The same call with `bytes` throughout, as when neither weight has a buffer. -/
def normThenLinearBytes : Request where
  shader0 := "rms_norm_f32_mul"
  bindings0 := [.bytes [1, 0, 0, 0], .bytes [2, 0, 0, 0]]
  outputSize0 := 4
  pc0 := []
  wg0 := (1, 1, 1)
  shader1 := "mul_mat_vec_f32_f32_f32"
  bindings1 := [.bytes [3, 0, 0, 0]]
  outputSize1 := 4
  pc1 := []
  wg1 := (1, 1, 1)

/-- With its input as `bytes`, as `rms_norm_then_linear` passes it, the address of the input names
nothing when it is read; with `bytes` throughout, nor do those of the weights. -/
theorem normThenLinear_undefined :
    ((normThenLinear (.bytes [0, 0, 0, 0])).Mixed ∧
      ¬ Agrees (normThenLinear (.bytes [0, 0, 0, 0]))
        (executeChained (fun _ mem => mem) normLinearCtx .calm
          (normThenLinear (.bytes [0, 0, 0, 0])))
        (executeBatch (fun _ mem => mem) normLinearCtx .calm
          (normThenLinear (.bytes [0, 0, 0, 0])).batchOps)) ∧
    (normThenLinearBytes.Mixed ∧
      ¬ Agrees normThenLinearBytes
        (executeChained (fun _ mem => mem) normLinearCtx .calm normThenLinearBytes)
        (executeBatch (fun _ mem => mem) normLinearCtx .calm normThenLinearBytes.batchOps)) ∧
    namedBuffers .calm normThenLinearBytes =
      .ok ([none, none, some (.out 0)], [none, some (.out 0), some (.out 1)]) :=
  ⟨⟨normThenLinear_mixed .bytes, fun h => h.defined 0 rfl⟩,
    ⟨⟨by simp [normThenLinearBytes, Owned.bytes], by simp [normThenLinearBytes, Owned.bytes]⟩,
      fun h => h.defined 0 rfl⟩, rfl⟩

end Context

end VllmVulkan
