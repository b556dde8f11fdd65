import VllmVulkan.Context.ChainRefs
import VllmVulkan.Lib.Machine

/-!
# The subprocess bridge

`RemoteVulkanContext` sends every call over a pipe to a child process that owns a `VulkanContext`,
and waits for the reply.  The pipe is two queues; the child keeps the tensors it uploaded in a dict
and the parent only sees their ids.  It is compared with the same calls made on a `VulkanContext`
directly, in the same environment.

* `Call`, `directCall` : the calls, made on a `VulkanContext`;
* `Request`, `Reply`, `Child`, `serve` : the messages and the loop of `_subprocess_main`;
* `RemoteVulkanContext.call` : the calls, made over the pipe;
* `Simulates` : the child's context is the direct one, and the pipe is empty between calls;
* `remote_eq_direct` : **the bridge is a drop-in** on calls without chain refs;
* `remote_chain_ref` : a chain ref reaches the child as two bytes.
-/

namespace VllmVulkan

namespace Context

/-! ### The calls on a context -/

/-- `upload_tensor`: the number of the new tensor. -/
def VulkanContext.uploadTensor (ctx : VulkanContext) (env : Env) (data : Bytes) :
    Py (ℕ × VulkanContext) := do
  env.attempt .tensorAlloc
  env.attempt .tensorUpload
  return (ctx.tensors.length, { ctx with tensors := ctx.tensors ++ [data] })

/-- A call on a context. -/
inductive Call where
  | uploadTensor (data : Bytes)
  | availableShaders
  | executeBatch (ops : Batch)

/-- What a call returns. -/
inductive Value where
  /-- A handle. -/
  | tensor (id : ℕ)
  | shaders (names : List String)
  | results (outs : List (List Bytes))
  deriving DecidableEq, Repr

/-- What a call does: how it ends, and the dispatches it recorded. -/
structure Observed where
  result : Outcome Value
  recorded : List Dispatch

/-- How `execute_batch` ends, as a call. -/
def batchResult : Outcome (List (List Bytes)) → Outcome Value
  | .returns outs => .returns (.results outs)
  | .raises e => .raises e
  | .panics => .panics

/-- A call made directly on a context. -/
def directCall (gpu : List Dispatch → Memory → Memory) (ctx : VulkanContext) (call : Call × Env) :
    VulkanContext × Observed :=
  match call.1 with
  | .uploadTensor data =>
    match ctx.uploadTensor call.2 data with
    | .error e => (ctx, ⟨.raises e, []⟩)
    | .ok (t, ctx) => (ctx, ⟨.returns (.tensor t), []⟩)
  | .availableShaders => (ctx, ⟨.returns (.shaders ctx.shaders), []⟩)
  | .executeBatch ops =>
    let run := executeBatch gpu ctx call.2 ops.ops
    (run.ctx, ⟨batchResult run.outcome, run.recorded⟩)

end Context

namespace Bridge

open Context Machine

/-! ### Messages -/

/-- A binding on the wire: `("tensor", id)` or `("bytes", data)`. -/
inductive WireBinding where
  | tensor (id : ℕ)
  | bytes (data : Bytes)
  deriving DecidableEq, Repr

/-- An op on the wire. -/
structure WireOp where
  shader : String
  bindings : List WireBinding
  outSizes : List ℕ
  pc : Bytes
  workgroups : ℕ × ℕ × ℕ
  barrier : Bool
  deriving DecidableEq, Repr

/-- A request: `_CMD_UPLOAD_TENSOR`, `_CMD_AVAILABLE_SHADERS`, `_CMD_EXECUTE_BATCH` or
`_CMD_SHUTDOWN`, with its payload. -/
inductive Request where
  | uploadTensor (data : Bytes)
  | availableShaders
  | executeBatch (ops : List WireOp)
  | shutdown
  deriving DecidableEq, Repr

/-- A reply: `("ok", value)` or `("error", message)`. -/
inductive Reply where
  | ok (value : Value)
  | error (message : String)
  deriving DecidableEq, Repr

/-! ### The child -/

/-- The state of `_subprocess_main`. -/
structure Child where
  ctx : VulkanContext
  /-- `tensors`: the tensor of the context behind every id. -/
  tensors : List (ℕ × ℕ)
  /-- `next_id`. -/
  nextId : ℕ
  /-- The loop has not been left. -/
  alive : Bool
  deriving DecidableEq, Repr

/-- A binding as the child resolves it. -/
def resolveBinding (tensors : List (ℕ × ℕ)) : WireBinding → Py Context.Binding
  | .tensor id =>
    match tensors.lookup id with
    | some t => .ok (.gpuTensor t)
    | none => .error (.keyError (toString id))
  | .bytes data => .ok (.bytes data)

/-- An op as the child resolves it. -/
def resolveOp (tensors : List (ℕ × ℕ)) (op : WireOp) : Py Context.Op := do
  let bindings ← op.bindings.mapM (resolveBinding tensors)
  return {
    shaderName := op.shader
    bindings := bindings
    outputSizes := op.outSizes
    pushConstants := op.pc
    workgroups := op.workgroups
    barrierAfter := op.barrier }

/-- One turn of the loop: the child after it, its reply unless it leaves the loop, and what it
recorded.  A panic of the context is no `Exception` and ends the process. -/
def handle (gpu : List Dispatch → Memory → Memory) (env : Env) (child : Child) :
    Request → Child × Option Reply × List Dispatch
  | .shutdown => ({ child with alive := false }, none, [])
  | .uploadTensor data =>
    match child.ctx.uploadTensor env data with
    | .error e => (child, some (.error e.str), [])
    | .ok (t, ctx) =>
      ({ child with
          ctx := ctx
          tensors := (child.nextId, t) :: child.tensors
          nextId := child.nextId + 1 },
        some (.ok (.tensor child.nextId)), [])
  | .availableShaders => (child, some (.ok (.shaders child.ctx.shaders)), [])
  | .executeBatch ops =>
    match ops.mapM (resolveOp child.tensors) with
    | .error e => (child, some (.error e.str), [])
    | .ok ops =>
      let run := executeBatch gpu child.ctx env ops
      let child := { child with ctx := run.ctx }
      match run.outcome with
      | .returns outs => (child, some (.ok (.results outs)), run.recorded)
      | .raises e => (child, some (.error e.str), run.recorded)
      | .panics => ({ child with alive := false }, none, run.recorded)

/-- The loop, on the requests in the pipe: the child after it, its replies in order, and what it
recorded. -/
def serve (gpu : List Dispatch → Memory → Memory) (env : Env) :
    Child → List Request → Child × List Reply × List Dispatch
  | child, [] => (child, [], [])
  | child, request :: requests =>
    if child.alive then
      let r := handle gpu env child request
      let rest := serve gpu env r.1 requests
      (rest.1, r.2.1.toList ++ rest.2.1, r.2.2 ++ rest.2.2)
    else (child, [], [])

/-! ### The parent -/

/-- `bytes(binding)`. -/
def pyBytes : Context.Binding → Py Bytes
  | .bytes data => .ok data
  | .tuple items =>
    if ∀ z ∈ items, 0 ≤ z ∧ z < 256 then .ok (items.map fun z => UInt8.ofNat z.toNat)
    else .error (.valueError "bytes must be in range(0, 256)")
  | .gpuTensor _ => .error (.typeError "cannot convert '_RemoteGpuTensor' object to bytes")
  | .other typeName => .error (.typeError s!"cannot convert '{typeName}' object to bytes")

/-- A binding as the parent sends it. -/
def wireBinding : Context.Binding → Py WireBinding
  | .gpuTensor id => .ok (.tensor id)
  | binding => do return .bytes (← pyBytes binding)

/-- An op as the parent sends it. -/
def wireOp (op : Context.Op) : Py WireOp := do
  let bindings ← op.bindings.mapM wireBinding
  return {
    shader := op.shaderName
    bindings := bindings
    outSizes := op.outputSizes
    pc := op.pushConstants
    workgroups := op.workgroups
    barrier := op.barrierAfter }

/-- The request for a call. -/
def request : Call → Py Request
  | .uploadTensor data => .ok (.uploadTensor data)
  | .availableShaders => .ok .availableShaders
  | .executeBatch ops => do return .executeBatch (← ops.ops.mapM wireOp)

/-- The two processes and the pipe between them. -/
structure RemoteVulkanContext where
  child : Child
  /-- Requests sent and not received. -/
  toChild : List Request
  /-- Replies sent and not received. -/
  toParent : List Reply

/-- What `_call` makes of a reply. -/
def replyResult : Reply → Outcome Value
  | .ok value => .returns value
  | .error msg => .raises (.runtimeError s!"Vulkan bridge request failed: {msg}")

/-- A call made on the bridge: the request is sent, the child empties the pipe, and the first reply
is received. -/
def RemoteVulkanContext.call (gpu : List Dispatch → Memory → Memory) (r : RemoteVulkanContext)
    (call : Call × Env) : RemoteVulkanContext × Observed :=
  match request call.1 with
  | .error e => (r, ⟨.raises e, []⟩)
  | .ok req =>
    let served := serve gpu call.2 r.child (r.toChild ++ [req])
    match r.toParent ++ served.2.1 with
    | [] => (⟨served.1, [], []⟩, ⟨.raises .eofError, served.2.2⟩)
    | reply :: replies => (⟨served.1, [], replies⟩, ⟨replyResult reply, served.2.2⟩)

/-- The bridge when its child has started. -/
def RemoteVulkanContext.start (shaders : List String) : RemoteVulkanContext :=
  ⟨⟨⟨shaders, []⟩, [], 0, true⟩, [], []⟩

/-! ### Encoding and decoding -/

theorem mapM_roundTrip {α β : Type} {f : α → Py β} {g : β → Py α} {xs : List α}
    (h : ∀ x ∈ xs, ∃ y, f x = .ok y ∧ g y = .ok x) :
    ∃ ys, xs.mapM f = .ok ys ∧ ys.mapM g = .ok xs := by
  induction xs with
  | nil => exact ⟨[], rfl, rfl⟩
  | cons x xs ih =>
    obtain ⟨y, hf, hg⟩ := h x List.mem_cons_self
    obtain ⟨ys, hfs, hgs⟩ := ih fun x' hx' => h x' (List.mem_cons_of_mem _ hx')
    refine ⟨y :: ys, ?_, ?_⟩
    · simp only [List.mapM_cons, Py.bind_eq_ok, Py.pure_eq_ok]
      exact ⟨y, hf, ys, hfs, rfl⟩
    · simp only [List.mapM_cons, Py.bind_eq_ok, Py.pure_eq_ok]
      exact ⟨x, hg, xs, hgs, rfl⟩

/-- A binding the wire carries: a handle of an upload, or bytes. -/
def Carried (nextId : ℕ) (binding : Context.Binding) : Prop :=
  (∃ t < nextId, binding = .gpuTensor t) ∨ ∃ data, binding = .bytes data

/-- The condition on a call: its batch binds handles of earlier uploads and bytes, no chain refs. -/
def CallCarried (r : RemoteVulkanContext) (call : Call × Env) : Prop :=
  ∀ b, call.1 = .executeBatch b →
    ∀ op ∈ b.ops, ∀ binding ∈ op.bindings, Carried r.child.nextId binding

/-- The child's context is the direct one, its ids are the direct handles, and nothing is left in
the pipe. -/
structure Simulates (ctx : VulkanContext) (r : RemoteVulkanContext) : Prop where
  sameCtx : r.child.ctx = ctx
  alive : r.child.alive = true
  nextId : r.child.nextId = ctx.tensors.length
  tensors : ∀ t < r.child.nextId, r.child.tensors.lookup t = some t
  toChild : r.toChild = []
  toParent : r.toParent = []

theorem simulates_start (shaders : List String) :
    Simulates ⟨shaders, []⟩ (.start shaders) :=
  ⟨rfl, rfl, rfl, fun t ht => absurd ht (Nat.not_lt_zero t), rfl, rfl⟩

theorem wireOp_roundTrip {tensors : List (ℕ × ℕ)} {nextId : ℕ}
    (ht : ∀ t < nextId, tensors.lookup t = some t) {op : Context.Op}
    (h : ∀ binding ∈ op.bindings, Carried nextId binding) :
    ∃ w, wireOp op = .ok w ∧ resolveOp tensors w = .ok op := by
  have hbinding : ∀ binding ∈ op.bindings,
      ∃ w, wireBinding binding = .ok w ∧ resolveBinding tensors w = .ok binding := by
    intro binding hb
    rcases h binding hb with ⟨t, hlt, rfl⟩ | ⟨data, rfl⟩
    · exact ⟨.tensor t, rfl, by simp only [resolveBinding, ht t hlt]⟩
    · exact ⟨.bytes data, rfl, rfl⟩
  obtain ⟨ws, hw, hr⟩ := mapM_roundTrip hbinding
  refine ⟨⟨op.shaderName, ws, op.outputSizes, op.pushConstants, op.workgroups, op.barrierAfter⟩,
    ?_, ?_⟩
  · simp only [wireOp, Py.bind_eq_ok, Py.pure_eq_ok]
    exact ⟨ws, hw, rfl⟩
  · simp only [resolveOp, Py.bind_eq_ok, Py.pure_eq_ok]
    exact ⟨op.bindings, hr, rfl⟩

/-! ### One call -/

/-- The bridge ends a call as the context does; an exception is raised again with its text. -/
inductive SameResult : Outcome Value → Outcome Value → Prop
  | returns (v : Value) : SameResult (.returns v) (.returns v)
  | raises (e : PyError) : SameResult (.raises e)
    (.raises (.runtimeError s!"Vulkan bridge request failed: {e.str}"))

/-- A call over the pipe, when the pipe is empty, the request is built and the child replies. -/
theorem call_eq {gpu : List Dispatch → Memory → Memory} {r : RemoteVulkanContext}
    {call : Call × Env}
    {req : Request} {child : Child} (reply : Reply) {recorded : List Dispatch}
    (hc : r.toChild = []) (hp : r.toParent = []) (ha : r.child.alive = true)
    (hreq : request call.1 = .ok req)
    (hh : handle gpu call.2 r.child req = (child, some reply, recorded)) :
    r.call gpu call = (⟨child, [], []⟩, ⟨replyResult reply, recorded⟩) := by
  unfold RemoteVulkanContext.call
  simp only [hreq, hc, hp, List.nil_append, serve, ha, if_true, hh, Option.toList_some,
    List.append_nil]

theorem not_chainRef_of_carried {b : Batch} {nextId : ℕ}
    (h : ∀ op ∈ b.ops, ∀ binding ∈ op.bindings, Carried nextId binding) :
    ChainRefsInRange b.ops := by
  rintro n k i j ⟨op, hop, rest, hk⟩
  rcases h op (List.mem_of_getElem? hop) _ (List.mem_of_getElem? hk) with ⟨t, -, ht⟩ | ⟨data, hd⟩
  · cases ht
  · cases hd

theorem executeBatch_ctx_length (gpu : List Dispatch → Memory → Memory) (ctx : VulkanContext)
    (env : Env) (ops : List Context.Op) :
    (executeBatch gpu ctx env ops).ctx.tensors.length = ctx.tensors.length := by
  obtain ⟨⟨e, mem, hrun⟩, -⟩ | ⟨opMeta, bufs, rec, -, -, -, ⟨o, hrun, -⟩ | ⟨-, hrun⟩⟩ :=
    executeBatch_cases ctx env ops
  · rw [hrun]
  · rw [hrun]
  · rw [hrun, readBack_length]

/-- **One call.**  From a simulated state, a call without chain refs ends the same way over the pipe
and directly, records the same dispatches and leaves a simulated state. -/
theorem simulates_call (gpu : List Dispatch → Memory → Memory) {ctx : VulkanContext}
    {r : RemoteVulkanContext} {call : Call × Env} (h : Simulates ctx r) (hc : CallCarried r call) :
    Simulates (directCall gpu ctx call).1 (r.call gpu call).1 ∧
      SameResult (directCall gpu ctx call).2.result (r.call gpu call).2.result ∧
      (r.call gpu call).2.recorded = (directCall gpu ctx call).2.recorded := by
  obtain ⟨⟨ctx', tensors, nextId, alive⟩, toChild, toParent⟩ := r
  obtain ⟨hctx, halive, hnext, htensors, hchild, hparent⟩ := h
  simp only at hctx halive hnext htensors hchild hparent
  subst hctx halive hchild hparent
  obtain ⟨call, env⟩ := call
  cases call with
  | uploadTensor data =>
    cases hup : ctx'.uploadTensor env data with
    | error e =>
      -- the child answers with the text of the error, which the parent raises
      have hd : directCall gpu ctx' (.uploadTensor data, env) = (ctx', ⟨.raises e, []⟩) := by
        simp only [directCall, hup]
      rw [hd, call_eq (.error e.str) rfl rfl rfl rfl (by simp only [handle, hup]; rfl)]
      exact ⟨⟨rfl, rfl, hnext, htensors, rfl, rfl⟩, .raises e, rfl⟩
    | ok p =>
      obtain ⟨t, ctx''⟩ := p
      have hup' := hup
      simp only [VulkanContext.uploadTensor, Py.bind_eq_ok, Py.pure_eq_ok, Prod.mk.injEq] at hup'
      obtain ⟨-, -, -, -, rfl, rfl⟩ := hup'
      have hd : directCall gpu ctx' (.uploadTensor data, env) =
          (⟨ctx'.shaders, ctx'.tensors ++ [data]⟩,
            ⟨.returns (.tensor ctx'.tensors.length), []⟩) := by simp only [directCall, hup]
      rw [hd, call_eq (.ok (.tensor nextId)) rfl rfl rfl rfl
        (by simp only [handle, hup]; rfl)]
      refine ⟨⟨rfl, rfl, by simp [hnext], fun t ht => ?_, rfl, rfl⟩, ?_, rfl⟩
      · -- the new id is the next one, and the ids before it keep their tensors
        simp only [List.lookup_cons]
        by_cases heq : t = nextId
        · simp [heq, hnext]
        · have : (t == nextId) = false := by simpa using heq
          rw [this]
          exact htensors t (by simp only at ht; omega)
      · simp only [replyResult, hnext]
        exact .returns _
  | availableShaders =>
    rw [call_eq (.ok (.shaders ctx'.shaders)) rfl rfl rfl rfl rfl]
    exact ⟨⟨rfl, rfl, hnext, htensors, rfl, rfl⟩, .returns _, rfl⟩
  | executeBatch b =>
    have hcarried := hc b rfl
    obtain ⟨ws, hw, hr⟩ := mapM_roundTrip fun op hop => wireOp_roundTrip htensors (hcarried op hop)
    have hreq : request (.executeBatch b) = .ok (.executeBatch ws) := by
      simp only [request, Py.bind_eq_ok, Py.pure_eq_ok]
      exact ⟨ws, hw, rfl⟩
    -- no chain ref is carried, so that the batch cannot panic in the child
    have hpanic : (executeBatch gpu ctx' env b.ops).outcome ≠ .panics :=
      (chainRefsResolve_of_inRange gpu ctx' (not_chainRef_of_carried hcarried)).noPanic
    have hlen := executeBatch_ctx_length gpu ctx' env b.ops
    have hd : directCall gpu ctx' (.executeBatch b, env) =
        ((executeBatch gpu ctx' env b.ops).ctx,
          ⟨batchResult (executeBatch gpu ctx' env b.ops).outcome,
            (executeBatch gpu ctx' env b.ops).recorded⟩) := rfl
    rw [hd]
    cases hout : (executeBatch gpu ctx' env b.ops).outcome with
    | returns outs =>
      rw [call_eq (.ok (.results outs)) rfl rfl rfl hreq
        (by simp only [handle, hr, hout]; rfl)]
      exact ⟨⟨rfl, rfl, hnext.trans hlen.symm, htensors, rfl, rfl⟩, .returns _, rfl⟩
    | raises e =>
      rw [call_eq (.error e.str) rfl rfl rfl hreq (by simp only [handle, hr, hout]; rfl)]
      exact ⟨⟨rfl, rfl, hnext.trans hlen.symm, htensors, rfl, rfl⟩, .raises e, rfl⟩
    | panics => exact absurd hout hpanic

/-! ### Runs -/

/-- Two steps on the same call: they end the same way and record the same dispatches, and the
child's context is the direct one after them. -/
structure SameStep (τ : Transition VulkanContext (Call × Env) Observed)
    (τ' : Transition RemoteVulkanContext (Call × Env) Observed) : Prop where
  input : τ'.input = τ.input
  result : SameResult τ.output.result τ'.output.result
  recorded : τ'.output.recorded = τ.output.recorded
  ctx : τ'.post.child.ctx = τ.post

/-- **The bridge is a drop-in on calls without chain refs.**  Call by call, it ends as a
`VulkanContext` does and its child records the same dispatches. -/
theorem remote_eq_direct (gpu : List Dispatch → Memory → Memory) (shaders : List String)
    (calls : List (Call × Env))
    (hc : ∀ τ ∈ transitions (RemoteVulkanContext.call gpu) (.start shaders) calls,
      CallCarried τ.pre τ.input) :
    List.Forall₂ SameStep (transitions (directCall gpu) ⟨shaders, []⟩ calls)
      (transitions (RemoteVulkanContext.call gpu) (.start shaders) calls) := by
  have hstep : ∀ ctx r call, Simulates ctx r → CallCarried r call →
      Simulates (directCall gpu ctx call).1 (r.call gpu call).1 :=
    fun ctx r call h hc => (simulates_call gpu h hc).1
  refine forall₂_transitions hstep (fun ctx r call h hc => ?_) (simulates_start shaders) hc
  obtain ⟨hsim, hresult, hrecorded⟩ := simulates_call gpu h hc
  exact ⟨rfl, hresult, hrecorded, hsim.sameCtx⟩

/-- A batch of one op that binds the uploaded tensor 0. -/
def tensorBatch : Batch := ⟨[exampleOp [.gpuTensor 0]], by decide⟩

theorem remote_eq_direct_upload : List.Forall₂ SameStep
    (transitions (directCall fun _ mem => mem) ⟨["add_f32"], []⟩
      [(.uploadTensor [1, 2], .calm), (.executeBatch tensorBatch, .calm)])
    (transitions (RemoteVulkanContext.call fun _ mem => mem) (.start ["add_f32"])
      [(.uploadTensor [1, 2], .calm), (.executeBatch tensorBatch, .calm)]) := by
  refine remote_eq_direct _ _ _ fun τ hτ => ?_
  simp only [transitions_cons, transitions_nil, List.mem_cons, List.not_mem_nil, or_false] at hτ
  rcases hτ with rfl | rfl
  · intro b hb
    cases hb
  · intro b hb op hop binding hbinding
    obtain rfl := Call.executeBatch.inj hb
    obtain rfl := List.mem_singleton.1 hop
    obtain rfl := List.mem_singleton.1 hbinding
    exact .inl ⟨0, by decide, rfl⟩

/-- A batch in which op 1 reads the output of op 0. -/
def chainBatch : Batch := ⟨[exampleOp [.bytes [1]], exampleOp [.tuple [0, 0]]], by decide⟩

/-- **A chain ref over the pipe.**  Directly, op 1 is bound to the output of op 0; in the child it
is bound to a temporary buffer. -/
theorem remote_chain_ref : ¬ List.Forall₂ SameStep
    (transitions (directCall fun _ mem => mem) ⟨["add_f32"], []⟩
      [(.executeBatch chainBatch, .calm)])
    (transitions (RemoteVulkanContext.call fun _ mem => mem) (.start ["add_f32"])
      [(.executeBatch chainBatch, .calm)]) := by
  intro h
  cases h with
  | cons hstep _ =>
    have hrecorded := hstep.recorded
    revert hrecorded
    decide +kernel

end Bridge

end VllmVulkan
