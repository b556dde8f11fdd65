import VllmVulkan.Lang.Python

/-!
# `VulkanContext::execute_batch`

One submission for a list of ops.  Phase 1 allocates every buffer and resolves every binding to an
index into the vectors it fills, phase 2 records the dispatches, phase 3 submits them and phase 4
reads the outputs.  A fallible primitive (an allocation, a copy, the submission) fails where the
environment says so; a failed submission executes nothing.

* `Binding`, `Op` : the ops as Python hands them over; a chain ref is a tuple of integers;
* `allocOps`, `recordOps`, `readOutputs` : the phases;
* `executeBatch` : the call, with the dispatches it recorded, how it ended and the memory it left;
* `allocOps_spec` : when phase 1 goes through, and what it produces.
-/

namespace VllmVulkan

namespace Context

/-- The contents of a buffer. -/
abbrev Bytes := List UInt8

/-- The number of values of a `usize`. -/
def usizeSize : ℕ := 2 ^ 64

/-- `MAX_BINDINGS`. -/
def maxBindings : ℕ := 12

/-- A binding of an op. -/
inductive Binding where
  /-- A `GpuTensor`, by its number in the context. -/
  | gpuTensor (tensor : ℕ)
  /-- `bytes`. -/
  | bytes (data : Bytes)
  /-- A tuple of integers. -/
  | tuple (items : List ℤ)
  /-- Any other object, by the name of its type; `bytes` does not convert it. -/
  | other (typeName : String)
  deriving DecidableEq, Repr

/-- One element of `ops`. -/
structure Op where
  shaderName : String
  bindings : List Binding
  outputSizes : List ℕ
  pushConstants : Bytes
  workgroups : ℕ × ℕ × ℕ
  barrierAfter : Bool
  deriving DecidableEq, Repr

/-- The places where a primitive can fail: an op, and a binding or an output of it. -/
inductive Site where
  | tempAlloc (op binding : ℕ)
  | tempWrite (op binding : ℕ)
  | outAlloc (op out : ℕ)
  | beginBatch
  | descriptorSet (op : ℕ)
  | submit
  | read (op out : ℕ)
  | tensorAlloc
  | tensorUpload
  deriving DecidableEq, Repr

/-- The environment of one call. -/
structure Env where
  /-- The message of the primitive that fails at a place. -/
  fails : Site → Option String
  /-- What a fresh or pooled output buffer holds. -/
  stale : ℕ → Bytes

/-- The environment in which nothing fails. -/
def Env.calm : Env := ⟨fun _ => none, fun _ => []⟩

/-- A primitive: it fails where the environment says so. -/
def Env.attempt (env : Env) (site : Site) : Py Unit :=
  match env.fails site with
  | some msg => .error (.runtimeError msg)
  | none => .ok ()

/-- A buffer of a batch. -/
inductive Buf where
  /-- The buffer of a `GpuTensor`. -/
  | tensor (tensor : ℕ)
  /-- A temporary one. -/
  | temp (idx : ℕ)
  /-- An output. -/
  | out (idx : ℕ)
  deriving DecidableEq, Repr

/-- A recorded dispatch, with the barrier after it. -/
structure Dispatch where
  shaderName : String
  buffers : List Buf
  pushConstants : Bytes
  workgroups : ℕ × ℕ × ℕ
  barrierAfter : Bool
  deriving DecidableEq, Repr

/-- The contents of every buffer. -/
abbrev Memory := Buf → Bytes

/-! ### Phase 1 -/

/-- `BindingKind`. -/
inductive BindingKind where
  | persistent (idx : ℕ)
  | temp (idx : ℕ)
  | chain (op out : ℕ)
  deriving DecidableEq, Repr

/-- `OpBuffers`. -/
structure OpBuffers where
  bindingKinds : List BindingKind
  outStart : ℕ
  outCount : ℕ
  barrierAfter : Bool
  deriving DecidableEq, Repr

/-- The vectors phase 1 fills. -/
structure Buffers where
  /-- `persistent_bufs`. -/
  persistentBufs : List ℕ
  /-- `temp_bufs`, with what was written. -/
  tempBufs : List Bytes
  /-- `out_bufs`, by their sizes. -/
  outBufs : List ℕ
  deriving DecidableEq, Repr

/-- `extract::<usize>()`. -/
def extractUsize (z : ℤ) : Py ℕ :=
  if z < 0 then .error (.overflowError "can't convert negative int to unsigned")
  else if z.toNat ≥ usizeSize then .error (.overflowError "int too big to convert")
  else .ok z.toNat

/-- `PyTuple::get_item`. -/
def getItem (items : List ℤ) (i : ℕ) : Py ℤ :=
  match items[i]? with
  | some z => .ok z
  | none => .error .indexError

/-- Binding `k` of op `opIndex`. -/
def allocBinding (env : Env) (opIndex k : ℕ) (bufs : Buffers) :
    Binding → Py (BindingKind × Buffers)
  | .gpuTensor t =>
    .ok (.persistent bufs.persistentBufs.length,
      { bufs with persistentBufs := bufs.persistentBufs ++ [t] })
  | .bytes data => do
    env.attempt (.tempAlloc opIndex k)
    env.attempt (.tempWrite opIndex k)
    return (.temp bufs.tempBufs.length, { bufs with tempBufs := bufs.tempBufs ++ [data] })
  | .tuple items => do
    let refOpIdx ← extractUsize (← getItem items 0)
    let refOutIdx ← extractUsize (← getItem items 1)
    raiseIf (refOpIdx ≥ opIndex) (.runtimeError
      (s!"execute_batch: chain ref (op {refOpIdx}, out {refOutIdx}) " ++
        s!"at op {opIndex} must reference an EARLIER op (its buffer " ++
        "wouldn't exist yet otherwise)"))
    return (.chain refOpIdx refOutIdx, bufs)
  | .other _ => .error (.runtimeError
      ("execute_batch: each binding must be GpuTensor, bytes, or an " ++
        "(op_index, output_index) chain-ref tuple"))

/-- The bindings of an op, from binding `k` on. -/
def allocBindings (env : Env) (opIndex : ℕ) :
    ℕ → Buffers → List Binding → Py (List BindingKind × Buffers)
  | _, bufs, [] => .ok ([], bufs)
  | k, bufs, binding :: bindings => do
    let (kind, bufs) ← allocBinding env opIndex k bufs binding
    let (kinds, bufs) ← allocBindings env opIndex (k + 1) bufs bindings
    return (kind :: kinds, bufs)

/-- The outputs of an op, from output `j` on. -/
def allocOutputs (env : Env) (opIndex : ℕ) : ℕ → Buffers → List ℕ → Py Buffers
  | _, bufs, [] => .ok bufs
  | j, bufs, size :: sizes => do
    env.attempt (.outAlloc opIndex j)
    allocOutputs env opIndex (j + 1) { bufs with outBufs := bufs.outBufs ++ [size] } sizes

/-- Phase 1, from op `opIndex` on. -/
def allocOps (env : Env) : ℕ → Buffers → List Op → Py (List OpBuffers × Buffers)
  | _, bufs, [] => .ok ([], bufs)
  | opIndex, bufs, op :: ops => do
    let (kinds, bufs) ← allocBindings env opIndex 0 bufs op.bindings
    let outStart := bufs.outBufs.length
    let bufs ← allocOutputs env opIndex 0 bufs op.outputSizes
    let (opMeta, bufs) ← allocOps env (opIndex + 1) bufs ops
    return ({ bindingKinds := kinds
              outStart := outStart
              outCount := op.outputSizes.length
              barrierAfter := op.barrierAfter } :: opMeta, bufs)

/-! ### Phase 2 -/

/-- The buffer a binding resolves to; `none` is an index out of bounds, a panic.  The sum of a chain
ref wraps around. -/
def resolveKind (bufs : Buffers) (opMeta : List OpBuffers) : BindingKind → Option Buf
  | .persistent idx => bufs.persistentBufs[idx]?.map .tensor
  | .temp idx => if idx < bufs.tempBufs.length then some (.temp idx) else none
  | .chain refOpIdx refOutIdx => do
    let ref ← opMeta[refOpIdx]?
    let idx := (ref.outStart + refOutIdx) % usizeSize
    if idx < bufs.outBufs.length then some (.out idx) else none

/-- `all_refs`: the bindings of an op, then its outputs. -/
def boundBuffers (bufs : Buffers) (opMeta : List OpBuffers) (m : OpBuffers) :
    Option (List Buf) := do
  let inputs ← m.bindingKinds.mapM (resolveKind bufs opMeta)
  let outputs ← (List.range m.outCount).mapM fun i =>
    if m.outStart + i < bufs.outBufs.length then some (Buf.out (m.outStart + i)) else none
  return inputs ++ outputs

/-- `record_to`, for op `opIndex`. -/
def recordTo (shaders : List String) (env : Env) (opIndex : ℕ) (op : Op) (buffers : List Buf) :
    Py Dispatch := do
  raiseIf (op.shaderName ∉ shaders) (.runtimeError s!"Shader '{op.shaderName}' not found")
  env.attempt (.descriptorSet opIndex)
  raiseIf (buffers.length > maxBindings) (.runtimeError
    s!"record_to: {buffers.length} buffers exceeds MAX_BINDINGS ({maxBindings})")
  return {
    shaderName := op.shaderName
    buffers := buffers
    pushConstants := op.pushConstants
    workgroups := op.workgroups
    barrierAfter := op.barrierAfter }

/-- How a call ends. -/
inductive Outcome (α : Type) where
  | returns (a : α)
  | raises (e : PyError)
  | panics
  deriving DecidableEq, Repr

/-- Phase 2, from op `opIndex` on: the dispatches recorded, and how recording ends. -/
def recordOps (shaders : List String) (env : Env) (bufs : Buffers) (opMeta : List OpBuffers) :
    ℕ → List (Op × OpBuffers) → List Dispatch × Outcome Unit
  | _, [] => ([], .returns ())
  | opIndex, (op, m) :: rest =>
    match boundBuffers bufs opMeta m with
    | none => ([], .panics)
    | some buffers =>
      match recordTo shaders env opIndex op buffers with
      | .error e => ([], .raises e)
      | .ok d =>
        let r := recordOps shaders env bufs opMeta (opIndex + 1) rest
        (d :: r.1, r.2)

/-! ### Phases 3 and 4 -/

/-- The outputs of an op, from output `i` on. -/
def readOp (env : Env) (mem : Memory) (opIndex : ℕ) (m : OpBuffers) : ℕ → ℕ → Py (List Bytes)
  | _, 0 => .ok []
  | i, count + 1 => do
    env.attempt (.read opIndex i)
    let rest ← readOp env mem opIndex m (i + 1) count
    return mem (.out (m.outStart + i)) :: rest

/-- Phase 4, from op `opIndex` on. -/
def readOutputs (env : Env) (mem : Memory) : ℕ → List OpBuffers → Py (List (List Bytes))
  | _, [] => .ok []
  | opIndex, m :: opMeta => do
    let opOut ← readOp env mem opIndex m 0 m.outCount
    let rest ← readOutputs env mem (opIndex + 1) opMeta
    return opOut :: rest

/-- `VulkanContext`: its pipelines, and what its tensors hold. -/
structure VulkanContext where
  shaders : List String
  tensors : List Bytes
  deriving DecidableEq, Repr

/-- A call of `execute_batch`. -/
structure Run where
  /-- The dispatches recorded. -/
  recorded : List Dispatch
  /-- How the call ended. -/
  outcome : Outcome (List (List Bytes))
  /-- The memory at the end. -/
  memory : Memory
  /-- The context at the end. -/
  ctx : VulkanContext

/-- The memory before a submission. -/
def initialMemory (ctx : VulkanContext) (env : Env) (bufs : Buffers) : Memory
  | .tensor t => ctx.tensors.getD t []
  | .temp idx => bufs.tempBufs.getD idx []
  | .out idx => env.stale idx

/-- `execute_batch`, on a GPU that executes a command buffer by `gpu`. -/
def executeBatch (gpu : List Dispatch → Memory → Memory) (ctx : VulkanContext) (env : Env)
    (ops : List Op) : Run :=
  match allocOps env 0 ⟨[], [], []⟩ ops with
  | .error e => ⟨[], .raises e, initialMemory ctx env ⟨[], [], []⟩, ctx⟩
  | .ok (opMeta, bufs) =>
    let mem := initialMemory ctx env bufs
    match env.attempt .beginBatch with
    | .error e => ⟨[], .raises e, mem, ctx⟩
    | .ok () =>
      let recording := recordOps ctx.shaders env bufs opMeta 0 (ops.zip opMeta)
      match recording.2 with
      | .panics => ⟨recording.1, .panics, mem, ctx⟩
      | .raises e => ⟨recording.1, .raises e, mem, ctx⟩
      | .returns () =>
        match env.attempt .submit with
        | .error e => ⟨recording.1, .raises e, mem, ctx⟩
        | .ok () =>
          let mem := gpu recording.1 mem
          let ctx := { ctx with tensors := (List.range ctx.tensors.length).map (mem ∘ .tensor) }
          match readOutputs env mem 0 opMeta with
          | .error e => ⟨recording.1, .raises e, mem, ctx⟩
          | .ok results => ⟨recording.1, .returns results, mem, ctx⟩

/-! ### What phase 1 accepts -/

@[simp] theorem Env.attempt_eq_ok {env : Env} {site : Site} {u : Unit} :
    env.attempt site = .ok u ↔ env.fails site = none := by
  unfold Env.attempt
  cases env.fails site <;> simp

/-- Phase 1 accepts binding `k` of op `n`. -/
def BindingAccepted (env : Env) (n k : ℕ) : Binding → Prop
  | .gpuTensor _ => True
  | .bytes _ => env.fails (.tempAlloc n k) = none ∧ env.fails (.tempWrite n k) = none
  | .tuple items => ∃ i j : ℕ, ∃ rest : List ℤ, items = (i : ℤ) :: (j : ℤ) :: rest ∧
      i < usizeSize ∧ j < usizeSize ∧ i < n
  | .other _ => False

/-- Phase 1 accepts op `n`. -/
structure OpAccepted (env : Env) (n : ℕ) (op : Op) : Prop where
  bindings : ∀ (k : ℕ) b, op.bindings[k]? = some b → BindingAccepted env n k b
  outputs : ∀ j < op.outputSizes.length, env.fails (.outAlloc n j) = none

/-- The kind phase 1 gives to a binding of op `n`. -/
inductive Resolves (bufs : Buffers) (n : ℕ) : Binding → BindingKind → Prop
  | persistent {t idx : ℕ} (h : bufs.persistentBufs[idx]? = some t) :
    Resolves bufs n (.gpuTensor t) (.persistent idx)
  | temp {data : Bytes} {idx : ℕ} (h : bufs.tempBufs[idx]? = some data) :
    Resolves bufs n (.bytes data) (.temp idx)
  | chain {i j : ℕ} {rest : List ℤ} (h : i < n) :
    Resolves bufs n (.tuple ((i : ℤ) :: (j : ℤ) :: rest)) (.chain i j)

/-- The vectors only grow. -/
structure Extends (bufs bufs' : Buffers) : Prop where
  persistentBufs : bufs.persistentBufs <+: bufs'.persistentBufs
  tempBufs : bufs.tempBufs <+: bufs'.tempBufs

theorem Extends.refl (bufs : Buffers) : Extends bufs bufs :=
  ⟨List.prefix_refl _, List.prefix_refl _⟩

theorem Extends.trans {bufs bufs' bufs'' : Buffers} (h : Extends bufs bufs')
    (h' : Extends bufs' bufs'') : Extends bufs bufs'' :=
  ⟨h.persistentBufs.trans h'.persistentBufs, h.tempBufs.trans h'.tempBufs⟩

theorem getElem?_extend {α : Type} {xs ys : List α} (h : xs <+: ys) {i : ℕ} {a : α}
    (ha : xs[i]? = some a) : ys[i]? = some a := by
  obtain ⟨zs, rfl⟩ := h
  rw [List.getElem?_append_left (List.getElem?_eq_some_iff.1 ha).1, ha]

theorem Resolves.mono {bufs bufs' : Buffers} {n : ℕ} {b : Binding} {kind : BindingKind}
    (h : Resolves bufs n b kind) (he : Extends bufs bufs') : Resolves bufs' n b kind := by
  cases h with
  | persistent h => exact .persistent (getElem?_extend he.persistentBufs h)
  | temp h => exact .temp (getElem?_extend he.tempBufs h)
  | chain h => exact .chain h

theorem extractUsize_eq_ok {z : ℤ} {n : ℕ} : extractUsize z = .ok n ↔ z = n ∧ n < usizeSize := by
  unfold extractUsize
  split_ifs with hneg hbig
  · simp; omega
  · simp; omega
  · simp; omega

theorem getItem_eq_ok {items : List ℤ} {i : ℕ} {z : ℤ} :
    getItem items i = .ok z ↔ items[i]? = some z := by
  unfold getItem
  cases items[i]? <;> simp

theorem exists_pair {items : List ℤ} {x y : ℤ} (h₀ : items[0]? = some x) (h₁ : items[1]? = some y) :
    ∃ rest, items = x :: y :: rest := by
  match items with
  | [] => cases h₀
  | [_] => cases h₁
  | a :: b :: rest =>
    obtain rfl : a = x := by simpa using h₀
    obtain rfl : b = y := by simpa using h₁
    exact ⟨rest, rfl⟩

theorem allocBinding_spec (env : Env) (n k : ℕ) (bufs : Buffers) (b : Binding) :
    (BindingAccepted env n k b ↔ ∃ r, allocBinding env n k bufs b = .ok r) ∧
    ∀ kind bufs', allocBinding env n k bufs b = .ok (kind, bufs') →
      Resolves bufs' n b kind ∧ Extends bufs bufs' ∧ bufs'.outBufs = bufs.outBufs := by
  cases b with
  | gpuTensor t =>
    refine ⟨⟨fun _ => ⟨_, rfl⟩, fun _ => trivial⟩, fun kind bufs' h => ?_⟩
    obtain ⟨rfl, rfl⟩ := Prod.mk.inj (Except.ok.inj h)
    exact ⟨.persistent (by simp), ⟨⟨_, rfl⟩, List.prefix_refl _⟩, rfl⟩
  | bytes data =>
    simp only [BindingAccepted, allocBinding, Py.bind_eq_ok, Env.attempt_eq_ok, Py.pure_eq_ok]
    refine ⟨⟨fun h => ⟨_, (), h.1, (), h.2, rfl⟩, ?_⟩, ?_⟩
    · rintro ⟨-, -, h₁, -, h₂, -⟩
      exact ⟨h₁, h₂⟩
    rintro kind bufs' ⟨-, -, -, -, h⟩
    obtain ⟨rfl, rfl⟩ := Prod.mk.inj h
    exact ⟨.temp (by simp), ⟨List.prefix_refl _, ⟨_, rfl⟩⟩, rfl⟩
  | tuple items =>
    simp only [BindingAccepted, allocBinding, Py.bind_eq_ok, raiseIf_eq_ok, Py.pure_eq_ok,
      getItem_eq_ok, extractUsize_eq_ok, ge_iff_le, not_le]
    constructor
    · constructor
      · rintro ⟨i, j, rest, rfl, hi, hj, hlt⟩
        exact ⟨_, i, rfl, i, ⟨rfl, hi⟩, j, rfl, j, ⟨rfl, hj⟩, (), hlt, rfl⟩
      · rintro ⟨_, _, h₀, i, ⟨rfl, hi⟩, _, h₁, j, ⟨rfl, hj⟩, -, hlt, rfl⟩
        obtain ⟨rest, rfl⟩ := exists_pair h₀ h₁
        exact ⟨i, j, rest, rfl, hi, hj, hlt⟩
    · rintro kind bufs' ⟨_, h₀, i, ⟨rfl, hi⟩, _, h₁, j, ⟨rfl, hj⟩, -, hlt, h⟩
      obtain ⟨rfl, rfl⟩ := Prod.mk.inj h
      obtain ⟨rest, rfl⟩ := exists_pair h₀ h₁
      exact ⟨.chain hlt, Extends.refl _, rfl⟩
  | other typeName => simp [BindingAccepted, allocBinding]

theorem allocBindings_spec (env : Env) (n k : ℕ) (bufs : Buffers) (bs : List Binding) :
    ((∀ (i : ℕ) b, bs[i]? = some b → BindingAccepted env n (k + i) b) ↔
      ∃ r, allocBindings env n k bufs bs = .ok r) ∧
    ∀ kinds bufs', allocBindings env n k bufs bs = .ok (kinds, bufs') →
      List.Forall₂ (Resolves bufs' n) bs kinds ∧ Extends bufs bufs' ∧
        bufs'.outBufs = bufs.outBufs := by
  induction bs generalizing k bufs with
  | nil =>
    refine ⟨⟨fun _ => ⟨_, rfl⟩, fun _ i b h => by simp at h⟩, fun kinds bufs' h => ?_⟩
    obtain ⟨rfl, rfl⟩ := Prod.mk.inj (Except.ok.inj h)
    exact ⟨.nil, Extends.refl _, rfl⟩
  | cons b bs ih =>
    obtain ⟨hacc, hspec⟩ := allocBinding_spec env n k bufs b
    simp only [allocBindings, Py.bind_eq_ok, Py.pure_eq_ok, Prod.exists]
    constructor
    · constructor
      · intro h
        obtain ⟨⟨kind, bufs₁⟩, h₁⟩ := hacc.1 (h 0 b rfl)
        obtain ⟨⟨kinds, bufs₂⟩, h₂⟩ := (ih (k + 1) bufs₁).1.1 fun i c hc => by
          have := h (i + 1) c hc
          rwa [Nat.add_comm i 1, ← Nat.add_assoc] at this
        exact ⟨_, _, kind, bufs₁, h₁, kinds, bufs₂, h₂, rfl⟩
      · rintro ⟨_, _, kind, bufs₁, h₁, kinds, bufs₂, h₂, -⟩ i c hc
        cases i with
        | zero =>
          obtain rfl : b = c := by simpa using hc
          exact hacc.2 ⟨_, h₁⟩
        | succ i =>
          have := (ih (k + 1) bufs₁).1.2 ⟨_, h₂⟩ i c (by simpa using hc)
          rwa [Nat.add_assoc, Nat.add_comm 1 i] at this
    · rintro kinds' bufs' ⟨kind, bufs₁, h₁, kinds, bufs₂, h₂, h⟩
      obtain ⟨rfl, rfl⟩ := Prod.mk.inj h
      obtain ⟨hres, hext, hout⟩ := hspec _ _ h₁
      obtain ⟨hres', hext', hout'⟩ := (ih (k + 1) bufs₁).2 _ _ h₂
      exact ⟨.cons (hres.mono hext') hres', hext.trans hext', hout'.trans hout⟩

theorem allocOutputs_spec (env : Env) (n j : ℕ) (bufs : Buffers) (sizes : List ℕ) :
    ((∀ i < sizes.length, env.fails (.outAlloc n (j + i)) = none) ↔
      ∃ r, allocOutputs env n j bufs sizes = .ok r) ∧
    ∀ bufs', allocOutputs env n j bufs sizes = .ok bufs' →
      Extends bufs bufs' ∧ bufs'.outBufs = bufs.outBufs ++ sizes := by
  induction sizes generalizing j bufs with
  | nil =>
    refine ⟨⟨fun _ => ⟨_, rfl⟩, fun _ i h => by simp at h⟩, fun bufs' h => ?_⟩
    obtain rfl := Except.ok.inj h
    exact ⟨Extends.refl _, by simp⟩
  | cons size sizes ih =>
    simp only [allocOutputs, Py.bind_eq_ok, Env.attempt_eq_ok]
    set bufs₁ : Buffers := { bufs with outBufs := bufs.outBufs ++ [size] } with hbufs₁
    constructor
    · constructor
      · intro h
        obtain ⟨r, hr⟩ := (ih (j + 1) bufs₁).1.1 fun i hi => by
          have := h (i + 1) (by simpa using hi)
          rwa [Nat.add_comm i 1, ← Nat.add_assoc] at this
        exact ⟨r, (), h 0 (by simp), hr⟩
      · rintro ⟨r, -, h₀, hr⟩ i hi
        cases i with
        | zero => exact h₀
        | succ i =>
          have := (ih (j + 1) bufs₁).1.2 ⟨r, hr⟩ i (by simpa using hi)
          rwa [Nat.add_assoc, Nat.add_comm 1 i] at this
    · rintro bufs' ⟨-, -, h⟩
      obtain ⟨hext, hout⟩ := (ih (j + 1) bufs₁).2 _ h
      refine ⟨⟨hext.persistentBufs, hext.tempBufs⟩, ?_⟩
      rw [hout, hbufs₁, List.append_assoc]
      rfl

/-- The number of outputs of the first `i` ops. -/
def outputsBefore (ops : List Op) (i : ℕ) : ℕ :=
  ((ops.take i).map fun op => op.outputSizes.length).sum

theorem outputsBefore_succ_cons (op : Op) (ops : List Op) (i : ℕ) :
    outputsBefore (op :: ops) (i + 1) = op.outputSizes.length + outputsBefore ops i := by
  simp [outputsBefore]

/-- What phase 1 says about an op: `start` outputs come before it. -/
structure Described (bufs : Buffers) (n start : ℕ) (op : Op) (m : OpBuffers) : Prop where
  kinds : List.Forall₂ (Resolves bufs n) op.bindings m.bindingKinds
  outStart : m.outStart = start
  outCount : m.outCount = op.outputSizes.length

/-- **Phase 1.**  It goes through exactly when it accepts every op, and describes them in order. -/
theorem allocOps_spec (env : Env) (n : ℕ) (bufs : Buffers) (ops : List Op) :
    ((∀ (i : ℕ) op, ops[i]? = some op → OpAccepted env (n + i) op) ↔
      ∃ r, allocOps env n bufs ops = .ok r) ∧
    ∀ opMeta bufs', allocOps env n bufs ops = .ok (opMeta, bufs') →
      Extends bufs bufs' ∧ bufs'.outBufs = bufs.outBufs ++ ops.flatMap Op.outputSizes ∧
        opMeta.length = ops.length ∧
        ∀ (i : ℕ) op m, ops[i]? = some op → opMeta[i]? = some m →
          Described bufs' (n + i) (bufs.outBufs.length + outputsBefore ops i) op m := by
  induction ops generalizing n bufs with
  | nil =>
    refine ⟨⟨fun _ => ⟨_, rfl⟩, fun _ i op h => by simp at h⟩, fun opMeta bufs' h => ?_⟩
    obtain ⟨rfl, rfl⟩ := Prod.mk.inj (Except.ok.inj h)
    exact ⟨Extends.refl _, by simp, rfl, fun i op m h => by simp at h⟩
  | cons op ops ih =>
    obtain ⟨haccB, hspecB⟩ := allocBindings_spec env n 0 bufs op.bindings
    simp only [Nat.zero_add] at haccB
    simp only [allocOps, Py.bind_eq_ok, Py.pure_eq_ok, Prod.exists]
    constructor
    · constructor
      · -- every allocation succeeds, in the order in which the loop makes them
        intro h
        have hop := h 0 op rfl
        obtain ⟨⟨kinds, bufs₁⟩, h₁⟩ := haccB.1 hop.bindings
        obtain ⟨bufs₂, h₂⟩ := (allocOutputs_spec env n 0 bufs₁ op.outputSizes).1.1 fun i hi => by
          rw [Nat.zero_add]
          exact hop.outputs i hi
        obtain ⟨⟨opMeta, bufs₃⟩, h₃⟩ := (ih (n + 1) bufs₂).1.1 fun i op' hop' => by
          have := h (i + 1) op' hop'
          rwa [Nat.add_comm i 1, ← Nat.add_assoc] at this
        exact ⟨_, _, kinds, bufs₁, h₁, bufs₂, h₂, opMeta, bufs₃, h₃, rfl⟩
      · rintro ⟨_, _, kinds, bufs₁, h₁, bufs₂, h₂, opMeta, bufs₃, h₃, -⟩ i op' hop'
        cases i with
        | zero =>
          obtain rfl : op = op' := by simpa using hop'
          refine ⟨haccB.2 ⟨_, h₁⟩, fun j hj => ?_⟩
          have := (allocOutputs_spec env n 0 bufs₁ op.outputSizes).1.2 ⟨_, h₂⟩ j hj
          rwa [Nat.zero_add] at this
        | succ i =>
          have := (ih (n + 1) bufs₂).1.2 ⟨_, h₃⟩ i op' (by simpa using hop')
          rwa [Nat.add_assoc, Nat.add_comm 1 i] at this
    · rintro opMeta' bufs' ⟨kinds, bufs₁, h₁, bufs₂, h₂, opMeta, bufs₃, h₃, h⟩
      obtain ⟨rfl, rfl⟩ := Prod.mk.inj h
      -- what a later op allocates only extends the buffers, so that the indices keep their meaning
      obtain ⟨hres₁, hext₁, hout₁⟩ := hspecB _ _ h₁
      obtain ⟨hext₂, hout₂⟩ := (allocOutputs_spec env n 0 bufs₁ op.outputSizes).2 _ h₂
      obtain ⟨hext₃, hout₃, hlen, hall⟩ := (ih (n + 1) bufs₂).2 _ _ h₃
      refine ⟨hext₁.trans (hext₂.trans hext₃), ?_, by simp [hlen], fun i op' m hop' hm => ?_⟩
      · rw [hout₃, hout₂, hout₁, List.flatMap_cons, List.append_assoc]
      · cases i with
        | zero =>
          obtain rfl : op = op' := by simpa using hop'
          obtain rfl := Option.some.inj hm
          refine ⟨hres₁.imp fun b kind hb => hb.mono (hext₂.trans hext₃), ?_, rfl⟩
          simp [hout₁, outputsBefore]
        | succ i =>
          have hd := hall i op' m (by simpa using hop') (by simpa using hm)
          rw [hout₂, hout₁, List.length_append, Nat.add_assoc n 1 i, Nat.add_comm 1 i,
            Nat.add_assoc bufs.outBufs.length] at hd
          rw [outputsBefore_succ_cons]
          exact hd

/-! ### How far a call gets -/

/-- What a call ends with once the device has left `mem`. -/
def readBack (ctx : VulkanContext) (env : Env) (opMeta : List OpBuffers) (recorded : List Dispatch)
    (mem : Memory) : Run :=
  let ctx := { ctx with tensors := (List.range ctx.tensors.length).map (mem ∘ .tensor) }
  match readOutputs env mem 0 opMeta with
  | .error e => ⟨recorded, .raises e, mem, ctx⟩
  | .ok results => ⟨recorded, .returns results, mem, ctx⟩

section

variable {ctx : VulkanContext} {env : Env} {opMeta : List OpBuffers} {recorded : List Dispatch}
  {mem : Memory}

@[simp] theorem readBack_recorded :
    (readBack ctx env opMeta recorded mem).recorded = recorded := by
  unfold readBack
  cases readOutputs env mem 0 opMeta <;> rfl

@[simp] theorem readBack_memory : (readBack ctx env opMeta recorded mem).memory = mem := by
  unfold readBack
  cases readOutputs env mem 0 opMeta <;> rfl

@[simp] theorem readBack_length :
    (readBack ctx env opMeta recorded mem).ctx.tensors.length = ctx.tensors.length := by
  unfold readBack
  cases readOutputs env mem 0 opMeta <;> simp

theorem readBack_ne_panics : (readBack ctx env opMeta recorded mem).outcome ≠ .panics := by
  unfold readBack
  cases readOutputs env mem 0 opMeta <;> simp

theorem readBack_returns {results : List (List Bytes)}
    (h : (readBack ctx env opMeta recorded mem).outcome = .returns results) :
    readOutputs env mem 0 opMeta = .ok results := by
  unfold readBack at h
  cases hread : readOutputs env mem 0 opMeta with
  | error e => simp [hread] at h
  | ok results' =>
    rw [hread] at h
    rw [Outcome.returns.inj h]

end

/-- **How far a call gets**, whatever the device: it is refused before anything is recorded, it
fails while recording or submitting, or the device runs and the outputs are read back. -/
theorem executeBatch_cases (ctx : VulkanContext) (env : Env) (ops : List Op) :
    ((∃ e mem, ∀ gpu, executeBatch gpu ctx env ops = ⟨[], .raises e, mem, ctx⟩) ∧
      ¬ ((∃ r, allocOps env 0 ⟨[], [], []⟩ ops = .ok r) ∧ env.fails .beginBatch = none)) ∨
    ∃ opMeta bufs recording, allocOps env 0 ⟨[], [], []⟩ ops = .ok (opMeta, bufs) ∧
      env.fails .beginBatch = none ∧
      recordOps ctx.shaders env bufs opMeta 0 (ops.zip opMeta) = recording ∧
      ((∃ o, (∀ gpu, executeBatch gpu ctx env ops =
            ⟨recording.1, o, initialMemory ctx env bufs, ctx⟩) ∧
          (o = .panics ∧ recording.2 = .panics ∨ (∃ e, o = .raises e) ∧ recording.2 ≠ .panics)) ∨
        recording.2 = .returns () ∧ ∀ gpu, executeBatch gpu ctx env ops =
          readBack ctx env opMeta recording.1 (gpu recording.1 (initialMemory ctx env bufs))) := by
  unfold executeBatch
  cases hops : allocOps env 0 ⟨[], [], []⟩ ops with
  | error e => exact .inl ⟨⟨e, _, fun _ => rfl⟩, fun ⟨⟨r, hr⟩, _⟩ => nomatch hr⟩
  | ok r =>
    obtain ⟨opMeta, bufs⟩ := r
    cases hb : env.attempt .beginBatch with
    | error e =>
      refine .inl ⟨⟨e, _, fun _ => rfl⟩, fun ⟨_, hbegin⟩ => ?_⟩
      rw [show env.attempt .beginBatch = .ok () from Env.attempt_eq_ok.2 hbegin] at hb
      cases hb
    | ok u =>
      refine .inr ⟨opMeta, bufs, _, rfl, Env.attempt_eq_ok.1 hb, rfl, ?_⟩
      cases hrec : (recordOps ctx.shaders env bufs opMeta 0 (ops.zip opMeta)).2 with
      | panics => exact .inl ⟨_, fun _ => by simp only [hrec], .inl ⟨rfl, rfl⟩⟩
      | raises e => exact .inl ⟨_, fun _ => by simp only [hrec], .inr ⟨⟨e, rfl⟩, nofun⟩⟩
      | returns u =>
        cases hsub : env.attempt .submit with
        | error e => exact .inl ⟨_, fun _ => by simp only [hrec], .inr ⟨⟨e, rfl⟩, nofun⟩⟩
        | ok u => exact .inr ⟨rfl, fun _ => by simp only [hrec]; rfl⟩

end Context

end VllmVulkan
