import VllmVulkan.Context.ChainRefs
import VllmVulkan.Lib.Overlap

/-!
# Barriers of a batch

The dispatches of a submission may overlap, except across a barrier; `execute_batch` records one
after every op that asks for it.

* `Kernels` : what the shaders do, each dispatch within the buffers bound to it and the qualifiers
  of its bindings;
* `Kernels.Overlapped`, `Kernels.OneByOne` : how the memory can end after the recorded dispatches;
* `runsOn` : the calls of `execute_batch` on such a device;
* `Synchronised` : the chain refs of a batch stand behind barriers, and so do conflicting accesses
  to a tensor or to an output;
* `recorded_dispatch`, `temp_owner` : which buffers the dispatches of a batch are bound to;
* `Synchronised.fenced` : **a synchronised batch has no races**;
* `runsOn_overlapped_eq` : its runs are those of a device that executes one dispatch at a time;
* `copies`, `strayRef`, `inPlace` : two batches that are not synchronised.
-/

namespace VllmVulkan

namespace Context

open Overlap

/-- The bindings a shader declares `readonly`; the other shaders are not known to declare any. -/
def readonlyBindings : String → List ℕ
  | "paged_kv_write_f32" | "paged_kv_write_f16" => [0, 1, 2]
  | "paged_attn_decode_f32" | "paged_attn_decode_f32_coop" | "paged_attn_decode_f32_coop_512" =>
    [0, 1, 2]
  | "paged_attn_decode_f16" | "paged_attn_decode_f16_coop" | "paged_attn_decode_f16_coop_512" =>
    [0, 1, 2]
  | "mul_mat_vec_f32_f32_f32" | "mul_mat_vec_f16_f32_f32" => [0, 1, 3, 4]
  | "matmul_f32_f32" | "matmul_f16_f32_fp32" => [0, 1]
  | "swiglu_f32" => [0, 1]
  | _ => []

/-- What the shaders do: a dispatch reads the buffers bound to it, and writes those at a binding
that is not declared `readonly`. -/
structure Kernels (L : Type) where
  proc : Dispatch → Proc L Buf Bytes
  reads : ∀ d b, b ∈ (proc d).reads → b ∈ d.buffers
  writes : ∀ d b, b ∈ (proc d).writes →
    ∃ k, d.buffers[k]? = some b ∧ k ∉ readonlyBindings d.shaderName

namespace Kernels

variable {L : Type} (K : Kernels L)

/-- A recorded dispatch, with the barrier after it. -/
def cmd (d : Dispatch) : Cmd L Buf Bytes := ⟨K.proc d, d.barrierAfter⟩

/-- How the memory can end when the dispatches may overlap between barriers. -/
def Overlapped (ds : List Dispatch) (m m' : Memory) : Prop := Exec (started (ds.map K.cmd)) m m'

/-- How the memory can end when the dispatches run one by one. -/
def OneByOne (ds : List Dispatch) (m m' : Memory) : Prop := InOrder (ds.map K.cmd) m m'

variable {K}

theorem mem_buffers {d : Dispatch} {b : Buf} (h : b ∈ (K.proc d).reads ∪ (K.proc d).writes) :
    b ∈ d.buffers := by
  rcases h with h | h
  · exact K.reads d b h
  · obtain ⟨k, hk, -⟩ := K.writes d b h
    exact List.mem_of_getElem? hk

theorem mem_of_conflict {d e : Dispatch} {b : Buf} (h : Conflict (K.proc d) (K.proc e) b) :
    b ∈ d.buffers ∧ b ∈ e.buffers := by
  rcases h with ⟨hw, ht⟩ | ⟨hw, ht⟩
  · exact ⟨mem_buffers (.inr hw), mem_buffers ht⟩
  · exact ⟨mem_buffers ht, mem_buffers (.inr hw)⟩

end Kernels

/-- The call of `execute_batch` up to the submission: what it recorded and the memory then. -/
def recording (ctx : VulkanContext) (env : Env) (ops : List Op) : Run :=
  executeBatch (fun _ mem => mem) ctx env ops

/-- The calls of `execute_batch` on a device that leaves the memory as `exec` allows. -/
def runsOn (exec : List Dispatch → Memory → Memory → Prop) (ctx : VulkanContext) (env : Env)
    (ops : List Op) : Set Run :=
  {run | ∃ mem, exec (recording ctx env ops).recorded (recording ctx env ops).memory mem ∧
    run = executeBatch (fun _ _ => mem) ctx env ops}

/-! ### Synchronised batches -/

/-- No barrier is recorded behind op `m` and in front of op `n`. -/
def NoBarrier (ops : List Op) (m n : ℕ) : Prop :=
  ∀ (l : ℕ) op, m ≤ l → l < n → ops[l]? = some op → op.barrierAfter = false

/-- The producing op of every chain ref has `barrier_after=True`. -/
def ProducersBarred (ops : List Op) : Prop :=
  ∀ n k i j, IsChainRef ops n k i j → ∀ op, ops[i.toNat]? = some op → op.barrierAfter = true

variable {L : Type}

/-- Two ops without a barrier between them do not access the same tensor, or neither writes it. -/
def TensorsGuarded (K : Kernels L) (ops : List Op) (recorded : List Dispatch) : Prop :=
  ∀ (m n : ℕ) d e, m < n → recorded[m]? = some d → recorded[n]? = some e → NoBarrier ops m n →
    ∀ t, ¬ Conflict (K.proc d) (K.proc e) (.tensor t)

/-- Two ops without a barrier between them do not access the same output through chain refs, or
neither writes it. -/
def OutputsGuarded (K : Kernels L) (ops : List Op) (recorded : List Dispatch) : Prop :=
  ∀ (m n : ℕ) d e, m < n → recorded[m]? = some d → recorded[n]? = some e → NoBarrier ops m n →
    ∀ k k' i j, IsChainRef ops m k i j → IsChainRef ops n k' i j →
      ¬ Conflict (K.proc d) (K.proc e) (outputBuffer ops i.toNat j.toNat)

/-- A batch whose barriers are enough. -/
structure Synchronised (K : Kernels L) (ops : List Op) (recorded : List Dispatch) : Prop where
  /-- Every chain ref names an output of an earlier op. -/
  inRange : ChainRefsInRange ops
  producers : ProducersBarred ops
  tensors : TensorsGuarded K ops recorded
  outputs : OutputsGuarded K ops recorded

/-! ### The buffers of a dispatch -/

/-- The buffer a binding stands for. -/
inductive BindsTo (ops : List Op) : Binding → Buf → Prop
  | tensor {t : ℕ} : BindsTo ops (.gpuTensor t) (.tensor t)
  | temp {data : Bytes} {idx : ℕ} : BindsTo ops (.bytes data) (.temp idx)
  | output {i j : ℤ} {rest : List ℤ} :
    BindsTo ops (.tuple (i :: j :: rest)) (outputBuffer ops i.toNat j.toNat)

theorem allocBinding_temp {env : Env} {n k : ℕ} {bufs bufs' : Buffers} {b : Binding} {idx : ℕ}
    (h : allocBinding env n k bufs b = .ok (.temp idx, bufs')) : bufs.tempBufs.length ≤ idx := by
  cases b with
  | gpuTensor t => cases (Prod.mk.inj (Except.ok.inj h)).1
  | bytes data =>
    simp only [allocBinding, Py.bind_eq_ok, Py.pure_eq_ok] at h
    obtain ⟨-, -, -, -, h⟩ := h
    cases (Prod.mk.inj h).1
    exact le_rfl
  | tuple items =>
    simp only [allocBinding, Py.bind_eq_ok, Py.pure_eq_ok] at h
    obtain ⟨x, -, i, -, y, -, j, -, u, -, heq⟩ := h
    cases (Prod.mk.inj heq).1
  | other typeName => cases h

theorem allocBindings_temp {env : Env} {n k : ℕ} {bufs bufs' : Buffers} {bs : List Binding}
    {kinds : List BindingKind} (h : allocBindings env n k bufs bs = .ok (kinds, bufs')) :
    ∀ idx, .temp idx ∈ kinds → bufs.tempBufs.length ≤ idx ∧ idx < bufs'.tempBufs.length := by
  intro idx hidx
  constructor
  · induction bs generalizing k bufs kinds with
    | nil =>
      obtain ⟨rfl, -⟩ := Prod.mk.inj (Except.ok.inj h)
      cases hidx
    | cons b bs ih =>
      simp only [allocBindings, Py.bind_eq_ok, Py.pure_eq_ok, Prod.exists] at h
      obtain ⟨kind, bufs₁, h₁, kinds', bufs₂, h₂, h⟩ := h
      obtain ⟨rfl, rfl⟩ := Prod.mk.inj h
      rcases List.mem_cons.1 hidx with rfl | hidx
      · exact allocBinding_temp h₁
      · have hext := ((allocBinding_spec env n k bufs b).2 _ _ h₁).2.1
        exact hext.tempBufs.length_le.trans (ih h₂ hidx)
  · obtain ⟨hres, -, -⟩ := (allocBindings_spec env n k bufs bs).2 _ _ h
    obtain ⟨i, hi, hget⟩ := List.getElem_of_mem hidx
    obtain ⟨b, hb⟩ : ∃ b, Resolves bufs' n b kinds[i] :=
      ⟨_, hres.get (by rw [hres.length_eq]; exact hi) hi⟩
    rw [hget] at hb
    cases hb with
    | temp hget => exact (List.getElem?_eq_some_iff.1 hget).1

/-- **Temporary buffers have one owner**: those of an op come before those of a later one. -/
theorem allocOps_temp {env : Env} {n : ℕ} {bufs bufs' : Buffers} {ops : List Op}
    {opMeta : List OpBuffers} (h : allocOps env n bufs ops = .ok (opMeta, bufs')) :
    (∀ m ∈ opMeta, ∀ idx, .temp idx ∈ m.bindingKinds → bufs.tempBufs.length ≤ idx) ∧
      opMeta.Pairwise fun m m' => ∀ idx idx', .temp idx ∈ m.bindingKinds →
        .temp idx' ∈ m'.bindingKinds → idx < idx' := by
  induction ops generalizing n bufs opMeta with
  | nil =>
    obtain ⟨rfl, -⟩ := Prod.mk.inj (Except.ok.inj h)
    exact ⟨fun m hm => absurd hm List.not_mem_nil, List.Pairwise.nil⟩
  | cons op ops ih =>
    simp only [allocOps, Py.bind_eq_ok, Py.pure_eq_ok, Prod.exists] at h
    obtain ⟨kinds, bufs₁, h₁, bufs₂, h₂, opMeta', bufs₃, h₃, h⟩ := h
    obtain ⟨rfl, rfl⟩ := Prod.mk.inj h
    obtain ⟨hge, hpair⟩ := ih h₃
    have hext₁ := ((allocBindings_spec env n 0 bufs op.bindings).2 _ _ h₁).2.1
    have hext₂ := ((allocOutputs_spec env n 0 bufs₁ op.outputSizes).2 _ h₂).1
    refine ⟨List.forall_mem_cons.2 ⟨fun idx hidx => (allocBindings_temp h₁ idx hidx).1,
      fun m hm idx hidx => ?_⟩, List.pairwise_cons.2 ⟨fun m hm idx idx' hidx hidx' => ?_, hpair⟩⟩
    · exact (hext₁.trans hext₂).tempBufs.length_le.trans (hge m hm idx hidx)
    · have hlt := (allocBindings_temp h₁ idx hidx).2
      exact (hlt.trans_le hext₂.tempBufs.length_le).trans_le (hge m hm idx' hidx')

theorem resolveKind_temp {bufs : Buffers} {opMeta : List OpBuffers} {kind : BindingKind} {idx : ℕ}
    (h : resolveKind bufs opMeta kind = some (.temp idx)) : kind = .temp idx := by
  cases kind with
  | persistent i => simp [resolveKind] at h
  | temp i =>
    simp only [resolveKind, Option.ite_none_right_eq_some, Option.some.injEq, Buf.temp.injEq] at h
    rw [h.2]
  | chain i j =>
    simp only [resolveKind, Option.bind_eq_bind, Option.bind_eq_some_iff,
      Option.ite_none_right_eq_some, Option.some.injEq, reduceCtorEq, and_false, exists_false] at h

/-- The buffers bound to an op: those its bindings resolve to, then its outputs. -/
theorem boundBuffers_eq_some {bufs : Buffers} {opMeta : List OpBuffers} {m : OpBuffers}
    {bs : List Buf} (h : boundBuffers bufs opMeta m = some bs) : ∃ inputs,
    List.Forall₂ (fun kind buf => resolveKind bufs opMeta kind = some buf) m.bindingKinds inputs ∧
      bs = inputs ++ (List.range m.outCount).map fun i => .out (m.outStart + i) := by
  simp only [boundBuffers, Option.bind_eq_bind, Option.bind_eq_some_iff, Option.pure_def,
    Option.some.injEq, mapM_eq_some] at h
  obtain ⟨inputs, hin, outputs, hout, rfl⟩ := h
  have heq : List.Forall₂ (· = ·)
      ((List.range m.outCount).map fun i => Buf.out (m.outStart + i)) outputs := by
    rw [List.forall₂_map_left_iff]
    exact hout.imp fun i buf hi => Option.some.inj (Option.ite_none_right_eq_some.1 hi).2
  rw [List.forall₂_eq_eq_eq] at heq
  exact ⟨inputs, hin, by rw [heq]⟩

section

variable {b : Batch} {opMeta : List OpBuffers} {bufs : Buffers}

theorem bindsTo_of_resolveKind (ha : Allocated b.ops opMeta bufs) {n : ℕ} {bd : Binding}
    {kind : BindingKind} {buf : Buf} (h : Resolves bufs n bd kind)
    (hbuf : resolveKind bufs opMeta kind = some buf)
    (hr : ∀ i j rest, bd = .tuple (i :: j :: rest) → InRange b.ops n i j) :
    BindsTo b.ops bd buf := by
  obtain ⟨buf', hbuf', hchain⟩ := resolveKind_eq ha h hr
  obtain rfl := Option.some.inj (hbuf.symm.trans hbuf')
  cases h with
  | persistent hget =>
    simp only [resolveKind, hget, Option.map_some, Option.some.injEq] at hbuf
    subst hbuf
    exact .tensor
  | temp hget =>
    simp only [resolveKind, Option.ite_none_right_eq_some, Option.some.injEq] at hbuf
    obtain ⟨-, rfl⟩ := hbuf
    exact .temp
  | chain _ =>
    rw [hchain _ _ _ rfl]
    exact .output

/-- The buffers bound to an op whose chain refs are in range are what its bindings stand for, then
its outputs. -/
theorem bindsTo_of_boundBuffers (ha : Allocated b.ops opMeta bufs) {n : ℕ} {op : Op}
    {m : OpBuffers} {bs : List Buf} (hop : b.ops[n]? = some op) (hm : opMeta[n]? = some m)
    (hr : ∀ k i j, IsChainRef b.ops n k i j → InRange b.ops n i j)
    (hbuf : boundBuffers bufs opMeta m = some bs) :
    ∃ inputs, List.Forall₂ (BindsTo b.ops) op.bindings inputs ∧
      bs = inputs ++ outputBuffers b.ops n op := by
  have hdesc := ha.described n op m hop hm
  obtain ⟨inputs, hin, hbuffers⟩ := boundBuffers_eq_some hbuf
  have hchain : ∀ bd ∈ op.bindings, ∀ i j rest, bd = .tuple (i :: j :: rest) →
      InRange b.ops n i j := by
    intro bd hbd i j rest heq
    obtain ⟨k, hk⟩ := List.mem_iff_getElem?.1 hbd
    exact hr k i j ⟨op, hop, rest, by rw [hk, heq]⟩
  have hbinds : List.Forall₂ (BindsTo b.ops) op.bindings inputs := by
    refine List.forall₂_iff_get.2 ⟨hdesc.kinds.length_eq.trans hin.length_eq, fun i h₁ h₂ => ?_⟩
    have h₃ : i < m.bindingKinds.length := by rw [← hdesc.kinds.length_eq]; exact h₁
    exact bindsTo_of_resolveKind ha (hdesc.kinds.get h₁ h₃) (hin.get h₃ h₂)
      (hchain _ (List.get_mem _ _))
  refine ⟨inputs, hbinds, ?_⟩
  rw [hbuffers, hdesc.outStart, hdesc.outCount]
  rfl

end

section

variable {ctx : VulkanContext} {env : Env} {gpu : List Dispatch → Memory → Memory}

theorem recorded_of_getElem? {ops : List Op} {n : ℕ} {d : Dispatch}
    (h : (executeBatch gpu ctx env ops).recorded[n]? = some d) : ∃ opMeta bufs,
    allocOps env 0 ⟨[], [], []⟩ ops = .ok (opMeta, bufs) ∧
      (recordOps ctx.shaders env bufs opMeta 0 (ops.zip opMeta)).1[n]? = some d := by
  obtain ⟨⟨e, mem, hrun⟩, -⟩ | ⟨opMeta, bufs, recording, hops, -, rfl, ⟨o, hrun, -⟩ | ⟨-, hrun⟩⟩ :=
    executeBatch_cases ctx env ops
  · simp [hrun] at h
  · exact ⟨opMeta, bufs, hops, by simpa only [hrun] using h⟩
  · exact ⟨opMeta, bufs, hops, by simpa only [hrun, readBack_recorded] using h⟩

/-- **The dispatch recorded for an op**: its buffers are what its bindings stand for, then its
outputs. -/
theorem recorded_dispatch {b : Batch} (hr : ChainRefsInRange b.ops) {n : ℕ} {d : Dispatch}
    (h : (executeBatch gpu ctx env b.ops).recorded[n]? = some d) : ∃ op inputs,
    b.ops[n]? = some op ∧ List.Forall₂ (BindsTo b.ops) op.bindings inputs ∧
      d = op.dispatch (inputs ++ outputBuffers b.ops n op) := by
  obtain ⟨opMeta, bufs, hops, hd⟩ := recorded_of_getElem? h
  have ha := allocated_of_allocOps hops
  obtain ⟨op, m, hzip, hbuf, hdisp⟩ := recordOps_getElem? hd
  obtain ⟨hop, hm⟩ := List.getElem?_zip_eq_some.1 hzip
  obtain ⟨inputs, hbinds, hbuffers⟩ := bindsTo_of_boundBuffers ha hop hm (hr n) hbuf
  exact ⟨op, inputs, hop, hbinds, by rw [hdisp, hbuffers]⟩

theorem temp_owner {ops : List Op} {m n : ℕ} {d e : Dispatch} (hmn : m < n)
    (hd : (executeBatch gpu ctx env ops).recorded[m]? = some d)
    (he : (executeBatch gpu ctx env ops).recorded[n]? = some e) {idx : ℕ}
    (hidx : .temp idx ∈ d.buffers) : .temp idx ∉ e.buffers := by
  obtain ⟨opMeta, bufs, hops, hd⟩ := recorded_of_getElem? hd
  obtain ⟨opMeta', bufs', hops', he⟩ := recorded_of_getElem? he
  obtain ⟨rfl, rfl⟩ := Prod.mk.inj (Except.ok.inj (hops'.symm.trans hops))
  have hkind : ∀ {k : ℕ} {f : Dispatch}, .temp idx ∈ f.buffers →
      (recordOps ctx.shaders env bufs' opMeta' 0 (ops.zip opMeta')).1[k]? = some f →
      ∃ l, opMeta'[k]? = some l ∧ .temp idx ∈ l.bindingKinds := by
    intro k f hf hk
    obtain ⟨op, l, hzip, hbuf, -⟩ := recordOps_getElem? hk
    obtain ⟨inputs, hin, hbuffers⟩ := boundBuffers_eq_some hbuf
    rw [hbuffers, List.mem_append] at hf
    have hmem : Buf.temp idx ∈ inputs := hf.resolve_right (by simp)
    obtain ⟨i, hi, hget⟩ := List.getElem_of_mem hmem
    have hlt : i < l.bindingKinds.length := by rw [hin.length_eq]; exact hi
    have hres := hin.get hlt hi
    simp only [List.get_eq_getElem, hget] at hres
    exact ⟨l, (List.getElem?_zip_eq_some.1 hzip).2,
      resolveKind_temp hres ▸ List.getElem_mem hlt⟩
  intro hidx'
  obtain ⟨l, hl, hmem⟩ := hkind hidx hd
  obtain ⟨l', hl', hmem'⟩ := hkind hidx' he
  obtain ⟨hm, rfl⟩ := List.getElem?_eq_some_iff.1 hl
  obtain ⟨hn, rfl⟩ := List.getElem?_eq_some_iff.1 hl'
  exact absurd (List.pairwise_iff_getElem.1 (allocOps_temp hops).2 m n hm hn hmn idx idx hmem hmem')
    (lt_irrefl idx)

end

theorem mem_dispatch {ops : List Op} {n : ℕ} {op : Op} {inputs : List Buf} {b : Buf}
    (hop : ops[n]? = some op) (hbinds : List.Forall₂ (BindsTo ops) op.bindings inputs)
    (hb : b ∈ inputs ++ outputBuffers ops n op) :
    (∃ t, b = .tensor t) ∨ (∃ idx, b = .temp idx) ∨
      (∃ k i j, IsChainRef ops n k i j ∧ b = outputBuffer ops i.toNat j.toNat) ∨
      ∃ j < op.outputSizes.length, b = outputBuffer ops n j := by
  rcases List.mem_append.1 hb with hb | hb
  · obtain ⟨k, hk, hget⟩ := List.getElem_of_mem hb
    have hlt : k < op.bindings.length := by rw [hbinds.length_eq]; exact hk
    have hbt := hbinds.get hlt hk
    simp only [List.get_eq_getElem, hget] at hbt
    generalize hbd : op.bindings[k] = bd at hbt
    cases hbt with
    | tensor => exact .inl ⟨_, rfl⟩
    | temp => exact .inr (.inl ⟨_, rfl⟩)
    | output =>
      have hchain := (List.getElem?_eq_getElem hlt).trans (congrArg some hbd)
      exact .inr (.inr (.inl ⟨k, _, _, ⟨op, hop, _, hchain⟩, rfl⟩))
  · obtain ⟨j, hj, rfl⟩ := List.mem_map.1 hb
    exact .inr (.inr (.inr ⟨j, List.mem_range.1 hj, rfl⟩))

/-! ### No races -/

section

variable {L : Type} {K : Kernels L} {b : Batch} {ctx : VulkanContext} {env : Env}
  {gpu : List Dispatch → Memory → Memory}

/-- **A synchronised batch has no races**: what two dispatches without a barrier between them are
both bound to, they only read. -/
theorem Synchronised.fenced
    (hs : Synchronised K b.ops (executeBatch gpu ctx env b.ops).recorded) :
    Fenced ((executeBatch gpu ctx env b.ops).recorded.map K.cmd) := by
  intro m n c c' hmn hc hc' hbar buf hconf
  rw [List.getElem?_map, Option.map_eq_some_iff] at hc hc'
  obtain ⟨d, hd, rfl⟩ := hc
  obtain ⟨e, he, rfl⟩ := hc'
  -- a barrier of an op is one of its dispatch, and ops are recorded in order
  have hno : NoBarrier b.ops m n := by
    intro l op hml hln hop
    obtain ⟨f, hf⟩ : ∃ f, (executeBatch gpu ctx env b.ops).recorded[l]? = some f :=
      ⟨_, List.getElem?_eq_getElem (hln.trans (List.getElem?_eq_some_iff.1 he).1)⟩
    obtain ⟨op', inputs, hop', -, rfl⟩ := recorded_dispatch hs.inRange hf
    obtain rfl := Option.some.inj (hop.symm.trans hop')
    exact hbar l _ hml hln (by rw [List.getElem?_map, hf]; rfl)
  obtain ⟨op, inputs, hop, hbinds, hdd⟩ := recorded_dispatch hs.inRange hd
  obtain ⟨op', inputs', hop', hbinds', hee⟩ := recorded_dispatch hs.inRange he
  obtain ⟨hmem, hmem'⟩ := Kernels.mem_of_conflict hconf
  have hmemd : buf ∈ inputs ++ outputBuffers b.ops m op := by rw [hdd] at hmem; exact hmem
  have hmeme : buf ∈ inputs' ++ outputBuffers b.ops n op' := by rw [hee] at hmem'; exact hmem'
  rcases mem_dispatch hop hbinds hmemd with
    ⟨t, rfl⟩ | ⟨idx, rfl⟩ | ⟨k, i, j, href, rfl⟩ | ⟨j, hj, rfl⟩
  · exact hs.tensors m n d e hmn hd he hno t hconf
  · exact temp_owner hmn hd he hmem hmem'
  · -- an output of op `i`, in front of op `m`
    obtain ⟨hi, him, hj, o, ho, hjo⟩ := hs.inRange m k i j href
    rcases mem_dispatch hop' hbinds' hmeme with ⟨t, ht⟩ | ⟨idx, ht⟩ |
      ⟨k', i', j', href', heq⟩ | ⟨j', hj', heq⟩
    · cases ht
    · cases ht
    · obtain ⟨hi', -, hj', o', ho', hjo'⟩ := hs.inRange n k' i' j' href'
      obtain ⟨hii, hjj⟩ := outputBuffer_inj ho (by omega) ho' (by omega) heq
      obtain rfl : i = i' := by omega
      obtain rfl : j = j' := by omega
      exact hs.outputs m n d e hmn hd he hno k k' i j href href' hconf
    · obtain ⟨hin, -⟩ := outputBuffer_inj ho (by omega) hop' hj' heq
      omega
  · -- an output of op `m`, which op `n` can only know by a chain ref
    rcases mem_dispatch hop' hbinds' hmeme with ⟨t, ht⟩ | ⟨idx, ht⟩ |
      ⟨k', i', j', href', heq⟩ | ⟨j', hj', heq⟩
    · cases ht
    · cases ht
    · obtain ⟨hi', -, hj', o', ho', hjo'⟩ := hs.inRange n k' i' j' href'
      obtain ⟨hmi, -⟩ := outputBuffer_inj hop hj ho' (by omega) heq
      have hbarred := hs.producers n k' i' j' href' op (by rw [← hmi]; exact hop)
      rw [hno m op le_rfl hmn hop] at hbarred
      cases hbarred
    · obtain ⟨rfl, -⟩ := outputBuffer_inj hop hj hop' hj' heq
      exact absurd hmn (lt_irrefl m)

theorem Synchronised.overlapped_iff
    (hs : Synchronised K b.ops (executeBatch gpu ctx env b.ops).recorded) {m m' : Memory} :
    K.Overlapped (executeBatch gpu ctx env b.ops).recorded m m' ↔
      K.OneByOne (executeBatch gpu ctx env b.ops).recorded m m' :=
  exec_iff_inOrder hs.fenced

/-- **A synchronised batch runs as on a device that executes one dispatch at a time.** -/
theorem runsOn_overlapped_eq (hs : Synchronised K b.ops (recording ctx env b.ops).recorded) :
    runsOn K.Overlapped ctx env b.ops = runsOn K.OneByOne ctx env b.ops := by
  ext run
  simp only [runsOn, Set.mem_ofPred_eq]
  exact exists_congr fun mem => and_congr_left fun _ => hs.overlapped_iff

end

theorem recordOps_length {shaders : List String} {env : Env} {bufs : Buffers}
    {opMeta : List OpBuffers} {n : ℕ} {l : List (Op × OpBuffers)} {u : Unit}
    (h : (recordOps shaders env bufs opMeta n l).2 = .returns u) :
    (recordOps shaders env bufs opMeta n l).1.length = l.length := by
  induction l generalizing n with
  | nil => rfl
  | cons om l ih =>
    obtain ⟨op, m⟩ := om
    unfold recordOps at h ⊢
    cases hb : boundBuffers bufs opMeta m with
    | none => simp [hb] at h
    | some buffers =>
      simp only [hb] at h ⊢
      cases hrec : recordTo shaders env n op buffers with
      | error e => simp [hrec] at h
      | ok d =>
        simp only [hrec] at h ⊢
        rw [List.length_cons, ih h, List.length_cons]

/-- A call that returns has recorded every op and left what the device left. -/
theorem executeBatch_returned {gpu : List Dispatch → Memory → Memory} {ctx : VulkanContext}
    {env : Env} {ops : List Op} {results : List (List Bytes)}
    (h : (executeBatch gpu ctx env ops).outcome = .returns results) :
    (recording ctx env ops).recorded.length = ops.length ∧
      (executeBatch gpu ctx env ops).memory =
        gpu (recording ctx env ops).recorded (recording ctx env ops).memory := by
  obtain ⟨⟨e, mem, hrun⟩, -⟩ | ⟨opMeta, bufs, rec, hops, -, hrec, ⟨o, hrun, ho⟩ | ⟨hret, hrun⟩⟩ :=
    executeBatch_cases ctx env ops
  · rw [hrun] at h
    cases h
  · rw [hrun] at h
    obtain rfl : o = .returns results := h
    rcases ho with ⟨ho, -⟩ | ⟨⟨e, ho⟩, -⟩ <;> cases ho
  · have hlen : (ops.zip opMeta).length = ops.length := by
      rw [List.length_zip, (allocated_of_allocOps hops).length, Nat.min_self]
    subst hrec
    rw [recording, hrun, hrun, readBack_recorded, readBack_memory, readBack_memory]
    exact ⟨(recordOps_length hret).trans hlen, rfl⟩

/-! ### Batches with races -/

/-- The last buffer of a dispatch, when it is not declared `readonly`. -/
def copyTarget (d : Dispatch) : Option Buf :=
  if d.buffers.length - 1 ∈ readonlyBindings d.shaderName then none else d.buffers.getLast?

/-- The first buffer copied to the last one. -/
def copyMem (d : Dispatch) (m : Memory) : Memory :=
  match d.buffers.head?, copyTarget d with
  | some s, some t => Function.update m t (m s)
  | _, _ => m

theorem copyMem_frame {d : Dispatch} {m : Memory} {b : Buf} (h : copyTarget d ≠ some b) :
    copyMem d m b = m b := by
  unfold copyMem
  cases d.buffers.head? with
  | none => rfl
  | some s =>
    cases ht : copyTarget d with
    | none => rfl
    | some t => exact Function.update_of_ne (fun heq => h (by rw [ht, heq])) _ _

/-- Every shader copies its first buffer to its last one, in one step. -/
def copies : Kernels Bool where
  proc d := {
    start := false
    Done := fun l => l = true
    Step := fun s s' => s.1 = false ∧ s'.1 = true ∧ s'.2 = copyMem d s.2
    reads := {b | d.buffers.head? = some b}
    writes := {b | copyTarget d = some b}
    frame := fun {l l' m m'} h a ha => by
      obtain rfl : m' = copyMem d m := h.2.2
      exact copyMem_frame ha
    footprint := fun {l l' m m' n} h hn => by
      refine ⟨copyMem d n, ⟨h.1, h.2.1, rfl⟩, fun a ha => ?_⟩
      obtain rfl : m' = copyMem d m := h.2.2
      have ht : copyTarget d = some a := ha
      unfold copyMem
      cases hs : d.buffers.head? with
      | none => simpa [ht] using hn a (.inr ha)
      | some s => simpa [ht] using hn s (.inl hs)
    final := fun {l m s} hl h => by
      rw [hl] at h
      cases h.1 }
  reads d b h := List.mem_of_mem_head? h
  writes d b h := by
    have ht : copyTarget d = some b := h
    unfold copyTarget at ht
    rw [Option.ite_none_left_eq_some] at ht
    exact ⟨_, by rw [← List.getLast?_eq_getElem?]; exact ht.2, ht.1⟩

theorem copies_runs {d : Dispatch} {m m' : Memory} :
    (copies.proc d).Runs m m' ↔ m' = copyMem d m := by
  constructor
  · rintro ⟨l, hl, hsteps⟩
    obtain rfl : l = true := hl
    rcases Relation.ReflTransGen.cases_head hsteps with heq | ⟨s, hs, hrest⟩
    · cases (Prod.mk.inj heq).1
    · have heq := Proc.eq_of_done (p := copies.proc d) (l := s.1) (m := s.2) hs.2.1 hrest
      rw [(Prod.mk.inj heq).2]
      exact hs.2.2
  · rintro rfl
    exact ⟨true, rfl, .single ⟨rfl, rfl, rfl⟩⟩

theorem copies_oneByOne {d₀ d₁ d₂ : Dispatch} {m m' : Memory} :
    copies.OneByOne [d₀, d₁, d₂] m m' ↔ m' = copyMem d₂ (copyMem d₁ (copyMem d₀ m)) := by
  simp only [Kernels.OneByOne, List.map_cons, List.map_nil, InOrder, Kernels.cmd, copies_runs,
    exists_eq_left]

/-- Without a barrier after the second dispatch, the third can come before it. -/
theorem copies_overlapped {d₀ d₁ d₂ : Dispatch} (h : d₁.barrierAfter = false) (m : Memory) :
    copies.Overlapped [d₀, d₁, d₂] m (copyMem d₁ (copyMem d₂ (copyMem d₀ m))) := by
  refine .step [] (c := copies.cmd d₀) trivial ⟨rfl, rfl, rfl⟩ ?_
  refine .step [(copies.cmd d₀, true), (copies.cmd d₁, false)] (c := copies.cmd d₂)
    ⟨fun _ => rfl, ?_, trivial⟩ ⟨rfl, rfl, rfl⟩ ?_
  · rintro ⟨f, hf, hbar⟩
    obtain rfl := List.mem_singleton.1 hf
    rw [Kernels.cmd, h] at hbar
    cases hbar
  · refine .step [(copies.cmd d₀, true)] (c := copies.cmd d₁) ⟨fun _ => rfl, trivial⟩
      ⟨rfl, rfl, rfl⟩ (.done fun e he => ?_)
    have hall : e ∈ [(copies.cmd d₀, true), (copies.cmd d₁, true), (copies.cmd d₂, true)] := he
    simp only [List.mem_cons, List.not_mem_nil, or_false] at hall
    rcases hall with rfl | rfl | rfl <;> rfl

/-- A context with the two shaders of the batches below. -/
def exampleCtx : VulkanContext := ⟨["add_f32", "paged_kv_write_f32"], []⟩

/-- Op 1 asks for output 2 of op 0, and is bound to the output of op 2. -/
def strayRef : List Op := [
  exampleOp [.bytes [7]],
  { exampleOp [.tuple [0, 2]] with barrierAfter := false },
  exampleOp [.tuple [0, 0]]]

/-- Op 1 writes the output of op 0 in place, and op 2 reads it. -/
def inPlace : List Op := [
  exampleOp [.bytes [7]],
  { shaderName := "paged_kv_write_f32"
    bindings := [.bytes [9], .bytes [], .bytes [], .tuple [0, 0]]
    outputSizes := []
    pushConstants := []
    workgroups := (1, 1, 1)
    barrierAfter := false },
  exampleOp [.tuple [0, 0]]]

theorem strayRef_buffers : (recording exampleCtx .calm strayRef).recorded.map Dispatch.buffers =
    [[.temp 0, .out 0], [.out 2, .out 1], [.out 0, .out 2]] := by decide +kernel

theorem inPlace_buffers : (recording exampleCtx .calm inPlace).recorded.map Dispatch.buffers =
    [[.temp 0, .out 0], [.temp 1, .temp 2, .temp 3, .out 0], [.out 0, .out 1]] := by
  decide +kernel

theorem tensorsGuarded_of_noTensor {L : Type} {K : Kernels L} {ops : List Op}
    {recorded : List Dispatch} (h : ∀ bs ∈ recorded.map Dispatch.buffers, ∀ t, .tensor t ∉ bs) :
    TensorsGuarded K ops recorded := by
  intro m n d e _ hd _ _ t hconf
  exact h _ (List.mem_map_of_mem (List.mem_of_getElem? hd)) t (Kernels.mem_of_conflict hconf).1

theorem strayRef_refs {n k : ℕ} {i j : ℤ} (h : IsChainRef strayRef n k i j) : i = 0 := by
  obtain ⟨op, hop, rest, hk⟩ := h
  rcases n with _ | _ | _ | n
  · obtain rfl := Option.some.inj hop
    rcases k with _ | k <;> simp [exampleOp] at hk
  · obtain rfl := Option.some.inj hop
    rcases k with _ | k <;> simp [exampleOp] at hk
    exact hk.1.symm
  · obtain rfl := Option.some.inj hop
    rcases k with _ | k <;> simp [exampleOp] at hk
    exact hk.1.symm
  · simp [strayRef] at hop

/-- The chain refs of `inPlace` name the output of op 0. -/
theorem inPlace_refs {n k : ℕ} {i j : ℤ} (h : IsChainRef inPlace n k i j) :
    0 < n ∧ i = 0 ∧ j = 0 := by
  obtain ⟨op, hop, rest, hk⟩ := h
  rcases n with _ | _ | _ | n
  · obtain rfl := Option.some.inj hop
    rcases k with _ | k <;> simp [exampleOp] at hk
  · obtain rfl := Option.some.inj hop
    rcases k with _ | _ | _ | _ | k <;> simp at hk
    exact ⟨Nat.succ_pos _, hk.1.symm, hk.2.1.symm⟩
  · obtain rfl := Option.some.inj hop
    rcases k with _ | k <;> simp [exampleOp] at hk
    exact ⟨Nat.succ_pos _, hk.1.symm, hk.2.1.symm⟩
  · simp [inPlace] at hop

/-- **Two batches with races.**  Their producing ops have barriers and they have no tensors, but
when the last two dispatches overlap, op 1 of the first batch reads what op 2 writes, and op 2 of
the second misses what op 1 writes. -/
theorem overlapped_results :
    ((ProducersBarred strayRef ∧
        TensorsGuarded copies strayRef (recording exampleCtx .calm strayRef).recorded) ∧
      (∃ run ∈ runsOn copies.Overlapped exampleCtx .calm strayRef,
        run.outcome = .returns [[[7]], [[7]], [[7]]]) ∧
      ∀ run ∈ runsOn copies.OneByOne exampleCtx .calm strayRef,
        run.outcome = .returns [[[7]], [[]], [[7]]]) ∧
    (ChainRefsInRange inPlace ∧ ProducersBarred inPlace ∧
        TensorsGuarded copies inPlace (recording exampleCtx .calm inPlace).recorded) ∧
      (∃ run ∈ runsOn copies.Overlapped exampleCtx .calm inPlace,
        run.outcome = .returns [[[9]], [], [[7]]]) ∧
      ∀ run ∈ runsOn copies.OneByOne exampleCtx .calm inPlace,
        run.outcome = .returns [[[9]], [], [[9]]] := by
  refine ⟨⟨⟨?_, tensorsGuarded_of_noTensor ?_⟩, ?_, ?_⟩, ⟨?_, ?_, tensorsGuarded_of_noTensor ?_⟩,
    ?_, ?_⟩
  · intro n k i j href op hop
    obtain rfl := strayRef_refs href
    obtain rfl := Option.some.inj hop
    rfl
  · rw [strayRef_buffers]
    simp
  · exact ⟨_, ⟨_, copies_overlapped rfl _, rfl⟩, by decide +kernel⟩
  · rintro run ⟨mem, hmem, rfl⟩
    obtain rfl := copies_oneByOne.1 hmem
    decide +kernel
  · intro n k i j href
    obtain ⟨hn, rfl, rfl⟩ := inPlace_refs href
    exact ⟨le_rfl, by exact_mod_cast hn, le_rfl, _, rfl, by decide⟩
  · intro n k i j href op hop
    obtain ⟨-, rfl, -⟩ := inPlace_refs href
    obtain rfl := Option.some.inj hop
    rfl
  · rw [inPlace_buffers]
    simp
  · exact ⟨_, ⟨_, copies_overlapped rfl _, rfl⟩, by decide +kernel⟩
  · rintro run ⟨mem, hmem, rfl⟩
    obtain rfl := copies_oneByOne.1 hmem
    decide +kernel

end Context

end VllmVulkan
