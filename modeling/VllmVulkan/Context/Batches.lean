import VllmVulkan.Context.Barriers
import VllmVulkan.Kv.Batch
import VllmVulkan.Weights.Mlp

/-!
# The batches the backend submits

The K/V write of a step with its decodes, and a fused MLP, as `execute_batch` receives them.

* `Encoding`, `submitted`, `writeAndDecodeOps` : an op with its uploads as bytes;
* `writeAndDecode_synchronised`, `fusedSwigluMlp_synchronised` : **their barriers are enough**;
* `decodes_see_write` : every decode returns what it computes alone right after the write;
* `batches_run_in_order` : the three together.
-/

namespace VllmVulkan

namespace Context

open Overlap KvOps Weights

variable {F : Type}

/-- The bytes of an element of the cache and of a float. -/
structure Encoding (F : Type) where
  cache : F → Bytes
  f32 : F → Bytes

/-- The op-tuple `execute_batch` receives; `elem` gives the bytes of an uploaded element. -/
def submitted (elem f32 : F → Bytes) (op : VllmVulkan.Op F) : Op where
  shaderName := op.shader
  bindings := op.inputs.map fun
    | .elems xs => .bytes (xs.flatMap elem)
    | .words ws => .bytes (ws.flatMap u32Bytes)
    | .tensor t => .gpuTensor t.id
  outputSizes := op.outputSizes
  pushConstants := op.pc.flatMap (PcWord.bytes f32)
  workgroups := op.workgroups
  barrierAfter := op.barrierAfter

/-- The ops of a write and its decodes: K and V are uploaded in the element type of the cache, the
queries as floats. -/
def writeAndDecodeOps (enc : Encoding F) (batch : WriteAndDecode F) : List Op :=
  submitted enc.cache enc.f32 batch.writeOp ::
    batch.decodes.map fun r => submitted enc.f32 enc.f32 r.1

section

variable {L : Type} {K : Kernels L} {b : Batch} {ctx : VulkanContext} {env : Env}
  {gpu : List Dispatch → Memory → Memory}

/-- A shader that declares the bindings of all tensors `readonly` writes none. -/
theorem tensor_notMem_writes (hr : ChainRefsInRange b.ops) {n : ℕ} {op : Op} {d : Dispatch}
    (hop : b.ops[n]? = some op)
    (hd : (executeBatch gpu ctx env b.ops).recorded[n]? = some d)
    (hro : ∀ (k : ℕ) t, op.bindings[k]? = some (.gpuTensor t) → k ∈ readonlyBindings op.shaderName)
    (t : ℕ) : .tensor t ∉ (K.proc d).writes := by
  intro hw
  obtain ⟨op', inputs, hop', hbinds, rfl⟩ := recorded_dispatch hr hd
  obtain rfl := Option.some.inj (hop.symm.trans hop')
  obtain ⟨k, hk, hnot⟩ := K.writes _ _ hw
  have hk : (inputs ++ outputBuffers b.ops n op)[k]? = some (.tensor t) := hk
  by_cases hlt : k < inputs.length
  · rw [List.getElem?_append_left hlt, List.getElem?_eq_getElem hlt, Option.some.injEq] at hk
    have hlt' : k < op.bindings.length := by rw [hbinds.length_eq]; exact hlt
    have hbt := hbinds.get hlt' hlt
    simp only [List.get_eq_getElem, hk] at hbt
    generalize hbd : op.bindings[k] = bd at hbt
    cases hbt
    exact hnot (hro k t (by rw [List.getElem?_eq_getElem hlt', hbd]))
  · rw [List.getElem?_append_right (by omega)] at hk
    obtain ⟨j, -, hj⟩ := List.mem_map.1 (List.mem_of_getElem? hk)
    cases hj

/-! ### A write and its decodes -/

theorem writeAndDecodeOps_cases {enc : Encoding F} {batch : WriteAndDecode F} {n : ℕ} {op : Op}
    (h : (writeAndDecodeOps enc batch)[n]? = some op) :
    (n = 0 ∧ op = submitted enc.cache enc.f32 batch.writeOp) ∨
      ∃ i r, n = i + 1 ∧ r ∈ batch.decodes ∧ op = submitted enc.f32 enc.f32 r.1 := by
  cases n with
  | zero => exact .inl ⟨rfl, (Option.some.inj h).symm⟩
  | succ i =>
    rw [writeAndDecodeOps, List.getElem?_cons_succ, List.getElem?_map, Option.map_eq_some_iff] at h
    obtain ⟨r, hr, rfl⟩ := h
    exact .inr ⟨i, r, rfl, List.mem_of_getElem? hr, rfl⟩

variable {enc : Encoding F} {batch : WriteAndDecode F} {cache : GpuTensor} {writeShader : String}
  {names : DecodeNames}

theorem writeAndDecode_noRefs (hw : IsWrite cache writeShader batch.writeOp)
    (hds : ∀ r ∈ batch.decodes, IsDecode cache names r.1) (n k : ℕ) (i j : ℤ) :
    ¬ IsChainRef (writeAndDecodeOps enc batch) n k i j := by
  rintro ⟨op, hop, rest, hk⟩
  rcases writeAndDecodeOps_cases hop with ⟨-, rfl⟩ | ⟨l, r, -, hr, rfl⟩
  · obtain ⟨xs, ys, slots, hin⟩ := hw.inputs
    have hmem := List.mem_of_getElem? hk
    simp [submitted, hin] at hmem
  · obtain ⟨q, blocks, hin⟩ := (hds r hr).inputs
    have hmem := List.mem_of_getElem? hk
    simp [submitted, hin] at hmem

/-- **The barrier behind the write is enough**: the decodes only read the cache. -/
theorem writeAndDecode_synchronised (hb : b.ops = writeAndDecodeOps enc batch)
    (hw : IsWrite cache writeShader batch.writeOp)
    (hds : ∀ r ∈ batch.decodes, IsDecode cache names r.1)
    (hro : ∀ s, names.Has s → readonlyBindings s = [0, 1, 2]) :
    Synchronised K b.ops (executeBatch gpu ctx env b.ops).recorded := by
  have hno : ∀ n k i j, ¬ IsChainRef b.ops n k i j := by
    rw [hb]
    exact writeAndDecode_noRefs hw hds
  have hrange : ChainRefsInRange b.ops := fun n k i j h => absurd h (hno n k i j)
  -- a decode writes no tensor
  have hread : ∀ (n : ℕ) d, (executeBatch gpu ctx env b.ops).recorded[n + 1]? = some d →
      ∀ t, .tensor t ∉ (K.proc d).writes := by
    intro n d hd
    obtain ⟨op, -, hop, -, -⟩ := recorded_dispatch hrange hd
    refine tensor_notMem_writes hrange hop hd ?_
    intro k t hk
    rw [hb] at hop
    rcases writeAndDecodeOps_cases hop with ⟨h, -⟩ | ⟨i, r, -, hr, rfl⟩
    · cases h
    · obtain ⟨q, blocks, hin⟩ := (hds r hr).inputs
      have hsh : readonlyBindings (submitted enc.f32 enc.f32 r.1).shaderName = [0, 1, 2] :=
        hro _ (hds r hr).shader
      have hlt := (List.getElem?_eq_some_iff.1 hk).1
      simp only [submitted, hin, List.map_cons, List.map_nil, List.length_cons,
        List.length_nil] at hlt
      rw [hsh]
      simp only [List.mem_cons, List.not_mem_nil, or_false]
      omega
  refine ⟨hrange, fun n k i j h => absurd h (hno n k i j), fun m n d e hmn hd he hbar t hconf => ?_,
    fun m n d e _ _ _ _ k k' i j h => absurd h (hno m k i j)⟩
  cases m with
  | zero =>
    -- the barrier behind the write
    have hop : b.ops[0]? = some (submitted enc.cache enc.f32 batch.writeOp) := by rw [hb]; rfl
    have hfalse : batch.writeOp.barrierAfter = false := hbar 0 _ le_rfl hmn hop
    rw [hw.barrierAfter] at hfalse
    cases hfalse
  | succ m =>
    obtain ⟨n, rfl⟩ : ∃ n', n = n' + 1 := ⟨n - 1, by omega⟩
    rcases hconf with ⟨h, -⟩ | ⟨h, -⟩
    · exact hread m d hd t h
    · exact hread n e he t h

theorem writeAndDecode_own (hb : b.ops = writeAndDecodeOps enc batch)
    (hw : IsWrite cache writeShader batch.writeOp)
    (hds : ∀ r ∈ batch.decodes, IsDecode cache names r.1) {i j k : ℕ} {d : Dispatch} {op : Op}
    (hd : (executeBatch gpu ctx env b.ops).recorded[i]? = some d) (hop : b.ops[j]? = some op)
    (hk : k < op.outputSizes.length) (hmem : outputBuffer b.ops j k ∈ d.buffers) : j = i := by
  have hno : ∀ n k i j, ¬ IsChainRef b.ops n k i j := by
    rw [hb]
    exact writeAndDecode_noRefs hw hds
  obtain ⟨op', inputs, hop', hbinds, rfl⟩ :=
    recorded_dispatch (fun n k i j h => absurd h (hno n k i j)) hd
  rcases mem_dispatch hop' hbinds hmem with ⟨t, ht⟩ | ⟨idx, ht⟩ | ⟨l, x, y, href, -⟩ | ⟨l, hl, heq⟩
  · cases ht
  · cases ht
  · exact absurd href (hno i l x y)
  · exact (outputBuffer_inj hop hk hop' hl heq).1

/-- What a batch of a write and decodes owes to the decodes: each returns what it computes alone
right after the write. -/
def DecodesSeeWrite (K : Kernels L) (ctx : VulkanContext) (env : Env) (ops : List Op) (decodes : ℕ)
    (results : List (List Bytes)) : Prop :=
  ∃ w m₁, (recording ctx env ops).recorded[0]? = some w ∧
    (K.proc w).Runs (recording ctx env ops).memory m₁ ∧
    ∀ i < decodes, ∃ d m₂, (recording ctx env ops).recorded[i + 1]? = some d ∧
      (K.proc d).Runs m₁ m₂ ∧ results[i + 1]? = some [m₂ (outputBuffer ops (i + 1) 0)]

/-- **The decodes see the write**, however the dispatches overlap. -/
theorem decodes_see_write (hb : b.ops = writeAndDecodeOps enc batch)
    (hw : IsWrite cache writeShader batch.writeOp)
    (hds : ∀ r ∈ batch.decodes, IsDecode cache names r.1)
    (hro : ∀ s, names.Has s → readonlyBindings s = [0, 1, 2]) {run : Run}
    (hrun : run ∈ runsOn K.Overlapped ctx env b.ops) {results : List (List Bytes)}
    (hret : run.outcome = .returns results) :
    DecodesSeeWrite K ctx env b.ops batch.decodes.length results := by
  obtain ⟨mem, hexec, rfl⟩ := hrun
  obtain ⟨hlen, hmem⟩ := executeBatch_returned hret
  have hsync : Synchronised K b.ops (recording ctx env b.ops).recorded :=
    writeAndDecode_synchronised hb hw hds hro
  have hfree : Fenced ((recording ctx env b.ops).recorded.map K.cmd) := hsync.fenced
  have horder :
      K.OneByOne (recording ctx env b.ops).recorded (recording ctx env b.ops).memory mem :=
    hsync.overlapped_iff.1 hexec
  obtain ⟨-, hres⟩ := (@chainRefsResolve_of_inRange (fun _ _ => mem) ctx env b
    hsync.inRange).returned results hret
  have hop : ∀ (i : ℕ) d, (recording ctx env b.ops).recorded[i + 1]? = some d →
      ∃ op size, b.ops[i + 1]? = some op ∧ d.barrierAfter = false ∧ op.outputSizes = [size] := by
    intro i d hd
    obtain ⟨op, inputs, hop, -, rfl⟩ := recorded_dispatch hsync.inRange hd
    rw [hb] at hop ⊢
    rcases writeAndDecodeOps_cases hop with ⟨h, -⟩ | ⟨j, r, -, hr, rfl⟩
    · cases h
    · obtain ⟨size, hsize⟩ := (hds r hr).outputSizes
      exact ⟨_, size, hop, (hds r hr).barrierAfter, hsize⟩
  have hown := @writeAndDecode_own F b ctx env (fun _ mem => mem) enc batch cache writeShader
    names hb hw hds
  have hops : b.ops.length = batch.decodes.length + 1 := by
    rw [hb, writeAndDecodeOps, List.length_cons, List.length_map]
  obtain ⟨w, ds, hrec⟩ : ∃ w ds, (recording ctx env b.ops).recorded = w :: ds :=
    List.exists_cons_of_length_pos (by omega)
  rw [recording] at hrec
  rw [recording, hrec] at horder hfree hop hlen
  rw [hrec] at hown
  obtain ⟨m₁, hw₁, hrest⟩ := horder
  -- no barrier between two decodes, so they do not conflict
  have hpair : (ds.map K.cmd).Pairwise fun c c' => ∀ a, ¬ Conflict c.proc c'.proc a := by
    rw [List.pairwise_iff_getElem]
    intro k l hk hl hkl
    refine hfree (k + 1) (l + 1) _ _ (by omega) (List.getElem?_eq_getElem hk)
      (List.getElem?_eq_getElem hl) fun x c hx _ hc => ?_
    obtain ⟨x, rfl⟩ : ∃ x', x = x' + 1 := ⟨x - 1, by omega⟩
    rw [List.map_cons, List.getElem?_cons_succ, List.getElem?_map, Option.map_eq_some_iff] at hc
    obtain ⟨d, hd, rfl⟩ := hc
    obtain ⟨-, -, -, hbar, -⟩ := hop x d hd
    exact hbar
  refine ⟨w, m₁, by rw [recording, hrec]; rfl, hw₁, fun i hi => ?_⟩
  have hi' : i < ds.length := by
    rw [List.length_cons] at hlen
    omega
  have hd : (w :: ds)[i + 1]? = some ds[i] := List.getElem?_eq_getElem hi'
  obtain ⟨op, size, hopi, -, hsize⟩ := hop i ds[i] hd
  obtain ⟨m₂, hm₂, heq⟩ := hrest.of_mem hpair (List.mem_map_of_mem (List.getElem_mem hi'))
  refine ⟨ds[i], m₂, by rw [recording, hrec]; exact hd, hm₂, ?_⟩
  have hout : mem (outputBuffer b.ops (i + 1) 0) = m₂ (outputBuffer b.ops (i + 1) 0) := by
    by_cases htouch : outputBuffer b.ops (i + 1) 0 ∈ (K.proc ds[i]).reads ∪ (K.proc ds[i]).writes
    · exact heq _ htouch
    · -- a decode that leaves its output alone: no other decode knows it
      rw [hm₂.frame _ fun h => htouch (.inr h)]
      refine hrest.frame ?_
      intro c hc hwr
      obtain ⟨e, he, rfl⟩ := List.mem_map.1 hc
      obtain ⟨j, hj, rfl⟩ := List.getElem_of_mem he
      have hji := hown (i := j + 1) (List.getElem?_eq_getElem hj) hopi
        (by rw [hsize]; exact Nat.one_pos) (Kernels.mem_buffers (.inr hwr))
      obtain rfl : i = j := by omega
      exact htouch (.inr hwr)
  rw [hres (i + 1) op hopi, outputBuffers, hsize, ← hout, hmem]
  rfl

/-! ### A fused MLP -/

/-- **The two barriers of a fused MLP are enough.** -/
theorem fusedSwigluMlp_synchronised [Field F] {f32 : F → Bytes} {available : List String}
    {x : List F} {gateUp down : MlpWeight}
    (h : fusedSwigluMlpOps f32 available x gateUp down = .ok b.ops) :
    Synchronised K b.ops (executeBatch gpu ctx env b.ops).recorded := by
  obtain ⟨o₀, o₁, o₂, hops, hb₀, hs₀, hbar₀, hb₁, hs₁, hbar₁, hb₂, hs₂⟩ :=
    fusedSwigluMlpOps_shape h
  have hweight : ∀ (w : MlpWeight) i j rest, w.binding ≠ .tuple (i :: j :: rest) := by
    intro w i j rest heq
    unfold MlpWeight.binding at heq
    split at heq <;> cases heq
  -- op 1 refers to op 0, and op 2 to op 1
  have hrefs : ∀ n k i j, IsChainRef b.ops n k i j →
      j = 0 ∧ ((n = 1 ∧ i = 0) ∨ (n = 2 ∧ i = 1)) := by
    rintro n k i j ⟨op, hop, rest, hk⟩
    rw [hops] at hop
    rcases n with _ | _ | _ | n
    · obtain rfl := Option.some.inj hop
      rw [hb₀] at hk
      rcases k with _ | _ | k
      · exact absurd (Option.some.inj hk) (hweight _ i j rest)
      · cases Option.some.inj hk
      · cases hk
    · obtain rfl := Option.some.inj hop
      rw [hb₁] at hk
      rcases k with _ | _ | k
      · cases Option.some.inj hk
        exact ⟨rfl, .inl ⟨rfl, rfl⟩⟩
      · cases Option.some.inj hk
        exact ⟨rfl, .inl ⟨rfl, rfl⟩⟩
      · cases hk
    · obtain rfl := Option.some.inj hop
      rw [hb₂] at hk
      rcases k with _ | _ | k
      · exact absurd (Option.some.inj hk) (hweight _ i j rest)
      · cases Option.some.inj hk
        exact ⟨rfl, .inr ⟨rfl, rfl⟩⟩
      · cases hk
    · cases hop
  have hrange : ChainRefsInRange b.ops := by
    intro n k i j href
    rw [hops]
    obtain ⟨rfl, ⟨rfl, rfl⟩ | ⟨rfl, rfl⟩⟩ := hrefs n k i j href
    · exact ⟨le_rfl, by decide, le_rfl, o₀, rfl, by rw [hs₀]; decide⟩
    · exact ⟨by decide, by decide, le_rfl, o₁, rfl, by rw [hs₁]; decide⟩
  -- every pair of ops has a barrier between them
  have hbarred : ∀ (m n : ℕ) d, m < n →
      (executeBatch gpu ctx env b.ops).recorded[n]? = some d → ¬ NoBarrier b.ops m n := by
    intro m n d hmn hd hno
    obtain ⟨op, -, hop, -, -⟩ := recorded_dispatch hrange hd
    have hn : n < 3 := by
      have hlt := (List.getElem?_eq_some_iff.1 hop).1
      rw [hops] at hlt
      exact hlt
    rw [hops] at hno
    obtain rfl | rfl : m = 0 ∨ m = 1 := by omega
    · rw [hno 0 o₀ le_rfl hmn rfl] at hbar₀
      cases hbar₀
    · rw [hno 1 o₁ le_rfl hmn rfl] at hbar₁
      cases hbar₁
  refine ⟨hrange, fun n k i j href op hop => ?_,
    fun m n d e hmn _ he hno => absurd hno (hbarred m n e hmn he),
    fun m n d e hmn _ he hno => absurd hno (hbarred m n e hmn he)⟩
  rw [hops] at hop
  obtain ⟨-, ⟨-, rfl⟩ | ⟨-, rfl⟩⟩ := hrefs n k i j href
  · obtain rfl := Option.some.inj hop
    exact hbar₀
  · obtain rfl := Option.some.inj hop
    exact hbar₁

end

theorem readonlyBindings_decode {shader : String}
    (h : decodeNamesF32.Has shader ∨ decodeNamesF16.Has shader) :
    readonlyBindings shader = [0, 1, 2] := by
  rcases h with (rfl | rfl | rfl) | (rfl | rfl | rfl) <;> rfl

/-- **The recorded barriers are enough.**  On a device that overlaps dispatches between barriers a
synchronised batch runs as on one that executes them one by one; a write with its decodes and a
fused MLP are synchronised, and the decodes see the write. -/
theorem batches_run_in_order [Field F] {L : Type} (K : Kernels L) (enc : Encoding F) (sqrt : F → F)
    (ctx : VulkanContext) (env : Env) (b : Batch) :
    (Synchronised K b.ops (recording ctx env b.ops).recorded →
      runsOn K.Overlapped ctx env b.ops = runsOn K.OneByOne ctx env b.ops) ∧
    (∀ available req batch,
      pagedKvWriteAndDecodeBatchF32 sqrt available req = .ok (some batch) ∨
        pagedKvWriteAndDecodeBatchF16 sqrt available req = .ok (some batch) →
      b.ops = writeAndDecodeOps enc batch →
      Synchronised K b.ops (recording ctx env b.ops).recorded ∧
        ∀ run ∈ runsOn K.Overlapped ctx env b.ops, ∀ results, run.outcome = .returns results →
          DecodesSeeWrite K ctx env b.ops batch.decodes.length results) ∧
    (∀ available x gateUp down,
      fusedSwigluMlpOps enc.f32 available x gateUp down = .ok b.ops →
      Synchronised K b.ops (recording ctx env b.ops).recorded) := by
  refine ⟨runsOn_overlapped_eq, fun available req batch h hb => ?_,
    fun available x gateUp down h => fusedSwigluMlp_synchronised h⟩
  rcases h with h | h
  · obtain ⟨hw, hds⟩ := pagedKvWriteAndDecodeBatch_shape h
    have hro : ∀ s, decodeNamesF32.Has s → readonlyBindings s = [0, 1, 2] :=
      fun s hs => readonlyBindings_decode (.inl hs)
    exact ⟨writeAndDecode_synchronised hb hw hds hro,
      fun run hrun results hret => decodes_see_write hb hw hds hro hrun hret⟩
  · obtain ⟨hw, hds⟩ := pagedKvWriteAndDecodeBatch_shape h
    have hro : ∀ s, decodeNamesF16.Has s → readonlyBindings s = [0, 1, 2] :=
      fun s hs => readonlyBindings_decode (.inr hs)
    exact ⟨writeAndDecode_synchronised hb hw hds hro,
      fun run hrun results hret => decodes_see_write hb hw hds hro hrun hret⟩

/-- One token written to slot 0 of a small cache, and one query that reads it. -/
def exampleRequest : BatchRequest ℚ where
  layout := VulkanPagedKVLayout.smallLayout
  cache := ⟨0, 1024⟩
  layerIndex := 0
  k := ⟨[1, 1, 2], [1, 2], rfl⟩
  v := ⟨[1, 1, 2], [3, 4], rfl⟩
  slotMapping := .ofList [0]
  queries := [⟨[1, 2], [1, 1], rfl⟩]
  blockTables := [.ofList [0]]
  seqLens := [1]
  scale := some 1

/-- The batch of `exampleRequest` on copying kernels. -/
theorem exampleRequest_runs : ∃ b : Batch, b.ops.length = 2 ∧
    runsOn copies.Overlapped ⟨["paged_kv_write_f32", "paged_attn_decode_f32"], [[]]⟩ .calm b.ops =
      runsOn copies.OneByOne ⟨["paged_kv_write_f32", "paged_attn_decode_f32"], [[]]⟩ .calm
        b.ops := by
  let enc : Encoding ℚ := ⟨fun _ => [0], fun _ => [0]⟩
  obtain ⟨batch, hbatch, hlen, hfits⟩ : ∃ batch, pagedKvWriteAndDecodeBatchF32 id
      ["paged_kv_write_f32", "paged_attn_decode_f32"] exampleRequest = .ok (some batch) ∧
      (writeAndDecodeOps enc batch).length = 2 ∧
      outputsBefore (writeAndDecodeOps enc batch) (writeAndDecodeOps enc batch).length <
        usizeSize :=
    ⟨_, rfl, rfl, by decide⟩
  obtain ⟨hrun, hkv, -⟩ := batches_run_in_order copies enc id
    ⟨["paged_kv_write_f32", "paged_attn_decode_f32"], [[]]⟩ .calm ⟨_, hfits⟩
  exact ⟨⟨_, hfits⟩, hlen, hrun (hkv _ _ _ (.inl hbatch) rfl).1⟩

end Context

end VllmVulkan
