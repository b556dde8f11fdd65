import VllmVulkan.Context.ExecuteBatch
import VllmVulkan.Lang.Rust

/-!
# Chain refs of a batch

A chain ref `(i, j)` of an op names output `j` of op `i`.  `execute_batch` resolves it to position
`out_start + j` of one vector that holds the outputs of all ops, having checked that `i` is an
earlier op, and not that op `i` has an output `j`.

* `outputBuffer` : output `j` of op `i`;
* `ChainRefsResolve` : every chain ref is bound to the output it names, or the batch is refused
  before anything is recorded, the call does not panic and returns the outputs of every op;
* `boundBuffers_eq` : the buffers bound to an op whose chain refs are in range;
* `chainRefsResolve_iff` : **the exact condition**;
* `ref_to_own_output` : a batch in which an op reads its own output.
-/

namespace VllmVulkan

namespace Context

/-- A batch: the number of its outputs fits in a `usize`, as the length of a `Vec` does. -/
structure Batch where
  /-- The ops. -/
  ops : List Op
  fits : outputsBefore ops ops.length < usizeSize

/-- Output `j` of op `i`. -/
def outputBuffer (ops : List Op) (i j : ℕ) : Buf := .out (outputsBefore ops i + j)

/-- The outputs of op `i`. -/
def outputBuffers (ops : List Op) (i : ℕ) (op : Op) : List Buf :=
  (List.range op.outputSizes.length).map (outputBuffer ops i)

/-- Binding `k` of op `n` is the chain ref `(i, j)`. -/
def IsChainRef (ops : List Op) (n k : ℕ) (i j : ℤ) : Prop :=
  ∃ op, ops[n]? = some op ∧ ∃ rest, op.bindings[k]? = some (.tuple (i :: j :: rest))

/-- The chain ref `(i, j)` at op `n` names an output of an earlier op. -/
def InRange (ops : List Op) (n : ℕ) (i j : ℤ) : Prop :=
  0 ≤ i ∧ i < n ∧ 0 ≤ j ∧ ∃ op, ops[i.toNat]? = some op ∧ j < op.outputSizes.length

/-- Every chain ref names an output of an earlier op. -/
def ChainRefsInRange (ops : List Op) : Prop :=
  ∀ n k i j, IsChainRef ops n k i j → InRange ops n i j

/-- What a batch owes to its chain refs. -/
structure ChainRefsResolve (ops : List Op) (run : Run) : Prop where
  noPanic : run.outcome ≠ .panics
  /-- It is refused before any dispatch is recorded, or the chain refs are in range and bound to the
  outputs they name. -/
  resolved : ((∃ e, run.outcome = .raises e) ∧ run.recorded = []) ∨
    ∀ n k i j, IsChainRef ops n k i j → InRange ops n i j ∧
      ∀ d, run.recorded[n]? = some d → d.buffers[k]? = some (outputBuffer ops i.toNat j.toNat)
  /-- The outputs of an op are bound after its bindings. -/
  outputs : ∀ (n : ℕ) op d, ops[n]? = some op → run.recorded[n]? = some d →
    d.buffers.drop op.bindings.length = outputBuffers ops n op
  /-- What is returned is what the outputs of each op hold. -/
  returned : ∀ results, run.outcome = .returns results → results.length = ops.length ∧
    ∀ (n : ℕ) op, ops[n]? = some op →
      results[n]? = some ((outputBuffers ops n op).map run.memory)

/-! ### Positions of outputs -/

theorem outputsBefore_add_lt {ops : List Op} {i j : ℕ} {op : Op} (hop : ops[i]? = some op)
    (hj : j < op.outputSizes.length) : outputsBefore ops i + j < outputsBefore ops ops.length := by
  induction ops generalizing i with
  | nil => simp at hop
  | cons o ops ih =>
    rw [List.length_cons, outputsBefore_succ_cons]
    cases i with
    | zero =>
      obtain rfl : o = op := by simpa using hop
      simp only [outputsBefore, List.take_zero, List.map_nil, List.sum_nil]
      omega
    | succ i =>
      rw [outputsBefore_succ_cons]
      have := ih (by simpa using hop)
      omega

theorem length_outputs (ops : List Op) :
    (ops.flatMap Op.outputSizes).length = outputsBefore ops ops.length := by
  rw [outputsBefore, List.take_length, List.length_flatMap]

theorem outputBuffer_inj {ops : List Op} {i j i' j' : ℕ} {op op' : Op} (hop : ops[i]? = some op)
    (hj : j < op.outputSizes.length) (hop' : ops[i']? = some op')
    (hj' : j' < op'.outputSizes.length) (h : outputBuffer ops i j = outputBuffer ops i' j') :
    i = i' ∧ j = j' := by
  have hmono : ∀ {a b : ℕ} {o : Op}, ops[a]? = some o → a < b → b ≤ ops.length →
      outputsBefore ops a + o.outputSizes.length ≤ outputsBefore ops b := by
    intro a b o ho hab hb
    have hsplit : ops.take b = ops.take (a + 1) ++ (ops.drop (a + 1)).take (b - (a + 1)) := by
      rw [← List.take_add]
      congr 1
      omega
    have hlast : ops.take (a + 1) = ops.take a ++ [o] := by
      rw [List.take_add_one, ho]
      rfl
    simp only [outputsBefore, hsplit, hlast, List.map_append, List.sum_append, List.map_cons,
      List.map_nil, List.sum_cons, List.sum_nil]
    omega
  have heq : outputsBefore ops i + j = outputsBefore ops i' + j' := Buf.out.inj h
  have hi := (List.getElem?_eq_some_iff.1 hop).1
  have hi' := (List.getElem?_eq_some_iff.1 hop').1
  rcases Nat.lt_trichotomy i i' with hlt | rfl | hgt
  · have := hmono hop hlt hi'.le
    omega
  · exact ⟨rfl, by omega⟩
  · have := hmono hop' hgt hi.le
    omega

/-! ### Recording -/

/-- What phase 1 leaves. -/
structure Allocated (ops : List Op) (opMeta : List OpBuffers) (bufs : Buffers) : Prop where
  outBufs : bufs.outBufs.length = outputsBefore ops ops.length
  length : opMeta.length = ops.length
  described : ∀ (n : ℕ) op m, ops[n]? = some op → opMeta[n]? = some m →
    Described bufs n (outputsBefore ops n) op m

theorem allocated_of_allocOps {env : Env} {ops : List Op} {opMeta : List OpBuffers} {bufs : Buffers}
    (h : allocOps env 0 ⟨[], [], []⟩ ops = .ok (opMeta, bufs)) : Allocated ops opMeta bufs := by
  obtain ⟨-, hout, hlen, hdesc⟩ := (allocOps_spec env 0 ⟨[], [], []⟩ ops).2 _ _ h
  refine ⟨by rw [hout, List.nil_append, length_outputs], hlen, fun n op m hop hm => ?_⟩
  have := hdesc n op m hop hm
  rwa [Nat.zero_add, List.length_nil, Nat.zero_add] at this

section

variable {b : Batch} {opMeta : List OpBuffers} {bufs : Buffers}

/-- The buffer of a binding: for a chain ref in range, the output it names. -/
theorem resolveKind_eq (ha : Allocated b.ops opMeta bufs) {n : ℕ} {bd : Binding}
    {kind : BindingKind} (h : Resolves bufs n bd kind)
    (hr : ∀ i j rest, bd = .tuple (i :: j :: rest) → InRange b.ops n i j) :
    ∃ buf, resolveKind bufs opMeta kind = some buf ∧
      ∀ i j rest, bd = .tuple (i :: j :: rest) → buf = outputBuffer b.ops i.toNat j.toNat := by
  cases h with
  | @persistent t idx h =>
    exact ⟨.tensor t, by simp only [resolveKind, h, Option.map_some],
      fun i j rest hb => by cases hb⟩
  | @temp data idx h =>
    have hlt := (List.getElem?_eq_some_iff.1 h).1
    exact ⟨.temp idx, by simp only [resolveKind, if_pos hlt], fun i j rest hb => by cases hb⟩
  | @chain i j rest h =>
    obtain ⟨-, -, -, op, hop, hj⟩ := hr i j rest rfl
    rw [Int.toNat_natCast] at hop
    have hj : j < op.outputSizes.length := by exact_mod_cast hj
    have hi : i < opMeta.length := by rw [ha.length]; exact (List.getElem?_eq_some_iff.1 hop).1
    have hm : opMeta[i]? = some opMeta[i] := List.getElem?_eq_getElem hi
    have hd := ha.described i op _ hop hm
    have hlt := outputsBefore_add_lt hop hj
    -- the sum does not wrap around
    have hmod : (outputsBefore b.ops i + j) % usizeSize = outputsBefore b.ops i + j :=
      Nat.mod_eq_of_lt (hlt.trans b.fits)
    refine ⟨outputBuffer b.ops i j, ?_, ?_⟩
    · simp only [resolveKind, hm, Option.bind_eq_bind, Option.bind_some, hd.outStart, hmod,
        ha.outBufs, if_pos hlt, outputBuffer]
    · rintro i' j' rest' hb
      simp only [Binding.tuple.injEq, List.cons.injEq] at hb
      obtain ⟨rfl, rfl, -⟩ := hb
      simp only [Int.toNat_natCast]

/-- **The buffers bound to an op whose chain refs are in range.** -/
theorem boundBuffers_eq (ha : Allocated b.ops opMeta bufs) {n : ℕ} {op : Op} {m : OpBuffers}
    (hop : b.ops[n]? = some op) (hm : opMeta[n]? = some m)
    (hr : ∀ k i j, IsChainRef b.ops n k i j → InRange b.ops n i j) :
    ∃ inputs, boundBuffers bufs opMeta m = some (inputs ++ outputBuffers b.ops n op) ∧
      inputs.length = op.bindings.length ∧
      ∀ k i j, IsChainRef b.ops n k i j →
        inputs[k]? = some (outputBuffer b.ops i.toNat j.toNat) := by
  have hd := ha.described n op m hop hm
  have hkey : ∀ bds kinds, List.Forall₂ (Resolves bufs n) bds kinds →
      (∀ bd ∈ bds, ∀ i j rest, bd = .tuple (i :: j :: rest) → InRange b.ops n i j) →
      ∃ inputs, kinds.mapM (resolveKind bufs opMeta) = some inputs ∧
        inputs.length = bds.length ∧ ∀ (k : ℕ) i j rest, bds[k]? = some (.tuple (i :: j :: rest)) →
          inputs[k]? = some (outputBuffer b.ops i.toNat j.toNat) := by
    intro bds kinds hall hrange
    induction hall with
    | nil => exact ⟨[], rfl, rfl, fun k i j rest h => by simp at h⟩
    | @cons bd kind bds kinds hres hall ih =>
      -- a chain ref in range resolves to the buffer that its op has allocated
      obtain ⟨buf, hbuf, hchain⟩ := resolveKind_eq ha hres (hrange bd List.mem_cons_self)
      obtain ⟨inputs, hin, hlen, hget⟩ := ih fun bd' hbd' =>
        hrange bd' (List.mem_cons_of_mem _ hbd')
      refine ⟨buf :: inputs, ?_, by simp [hlen], fun k i j rest hk => ?_⟩
      · rw [mapM_eq_some] at hin ⊢
        exact .cons hbuf hin
      · cases k with
        | zero => rw [List.getElem?_cons_zero, hchain i j rest (Option.some.inj hk)]
        | succ k => exact hget k i j rest hk
  obtain ⟨inputs, hin, hlen, hget⟩ := hkey op.bindings m.bindingKinds hd.kinds
    fun bd hbd i j rest hb => by
      obtain ⟨k, hk⟩ := List.mem_iff_getElem?.1 hbd
      exact hr k i j ⟨op, hop, rest, by rw [hk, hb]⟩
  have hout : (List.range m.outCount).mapM (fun i =>
      if m.outStart + i < bufs.outBufs.length then some (Buf.out (m.outStart + i)) else none) =
      some (outputBuffers b.ops n op) := by
    rw [mapM_eq_some, outputBuffers, hd.outCount, List.forall₂_map_right_iff, List.forall₂_same]
    intro i hi
    rw [hd.outStart, ha.outBufs, if_pos (outputsBefore_add_lt hop (List.mem_range.1 hi))]
    rfl
  refine ⟨inputs, ?_, hlen, ?_⟩
  · simp only [boundBuffers, hin, hout, Option.bind_eq_bind, Option.bind_some, Option.pure_def]
  · rintro k i j ⟨op', hop', rest, hk⟩
    obtain rfl := Option.some.inj (hop.symm.trans hop')
    exact hget k i j rest hk

end

/-- The dispatch recorded for an op. -/
def Op.dispatch (op : Op) (buffers : List Buf) : Dispatch where
  shaderName := op.shaderName
  buffers := buffers
  pushConstants := op.pushConstants
  workgroups := op.workgroups
  barrierAfter := op.barrierAfter

/-- A recorded dispatch belongs to its op, and has the buffers bound to it. -/
theorem recordOps_getElem? {shaders : List String} {env : Env} {bufs : Buffers}
    {opMeta : List OpBuffers} {n i : ℕ} {l : List (Op × OpBuffers)} {d : Dispatch}
    (h : (recordOps shaders env bufs opMeta n l).1[i]? = some d) :
    ∃ op m, l[i]? = some (op, m) ∧ boundBuffers bufs opMeta m = some d.buffers ∧
      d = op.dispatch d.buffers := by
  induction l generalizing n i with
  | nil => simp [recordOps] at h
  | cons om l ih =>
    obtain ⟨op, m⟩ := om
    unfold recordOps at h
    cases hb : boundBuffers bufs opMeta m with
    | none => simp [hb] at h
    | some buffers =>
      simp only [hb] at h
      cases hrec : recordTo shaders env n op buffers with
      | error e => simp [hrec] at h
      | ok d' =>
        simp only [hrec] at h
        cases i with
        | zero =>
          obtain rfl : d' = d := by simpa using h
          simp only [recordTo, Py.bind_eq_ok, Py.pure_eq_ok] at hrec
          obtain ⟨-, -, -, -, -, -, rfl⟩ := hrec
          exact ⟨op, m, rfl, hb, rfl⟩
        | succ i =>
          rw [List.getElem?_cons_succ] at h
          exact ih h

theorem recordOps_ne_panics {shaders : List String} {env : Env} {bufs : Buffers}
    {opMeta : List OpBuffers} {n : ℕ} {l : List (Op × OpBuffers)}
    (h : ∀ om ∈ l, boundBuffers bufs opMeta om.2 ≠ none) :
    (recordOps shaders env bufs opMeta n l).2 ≠ .panics := by
  induction l generalizing n with
  | nil => simp [recordOps]
  | cons om l ih =>
    obtain ⟨op, m⟩ := om
    obtain ⟨buffers, hb⟩ := Option.ne_none_iff_exists'.1 (h (op, m) List.mem_cons_self)
    unfold recordOps
    simp only [hb]
    cases recordTo shaders env n op buffers with
    | error e => simp
    | ok d => exact ih fun om hom => h om (List.mem_cons_of_mem _ hom)

/-! ### Reading -/

theorem readOp_eq {env : Env} {mem : Memory} {n : ℕ} {m : OpBuffers} {i count : ℕ}
    {r : List Bytes} (h : readOp env mem n m i count = .ok r) :
    r = (List.range count).map fun j => mem (.out (m.outStart + (i + j))) := by
  induction count generalizing i r with
  | zero => exact (Except.ok.inj h).symm
  | succ count ih =>
    simp only [readOp, Py.bind_eq_ok, Py.pure_eq_ok] at h
    obtain ⟨-, -, rest, hrest, rfl⟩ := h
    rw [ih hrest, List.range_succ_eq_map, List.map_cons, List.map_map, Nat.add_zero]
    congr 2
    funext j
    simp only [Function.comp, Nat.succ_eq_add_one, Nat.add_assoc, Nat.add_comm 1 j]

theorem readOutputs_spec {env : Env} {mem : Memory} {n : ℕ} {opMeta : List OpBuffers}
    {results : List (List Bytes)} (h : readOutputs env mem n opMeta = .ok results) :
    results = opMeta.map fun m =>
      (List.range m.outCount).map fun j => mem (.out (m.outStart + j)) := by
  induction opMeta generalizing n results with
  | nil => exact (Except.ok.inj h).symm
  | cons m opMeta ih =>
    simp only [readOutputs, Py.bind_eq_ok, Py.pure_eq_ok] at h
    obtain ⟨opOut, hop, rest, hrest, rfl⟩ := h
    rw [ih hrest, readOp_eq hop, List.map_cons]
    simp only [Nat.zero_add]

/-! ### The call -/

/-- `record_to` accepts op `n`. -/
structure RecordAccepted (ctx : VulkanContext) (env : Env) (n : ℕ) (op : Op) : Prop where
  shader : op.shaderName ∈ ctx.shaders
  descriptorSet : env.fails (.descriptorSet n) = none
  count : op.bindings.length + op.outputSizes.length ≤ maxBindings

instance (ctx : VulkanContext) (env : Env) (n : ℕ) (op : Op) :
    Decidable (RecordAccepted ctx env n op) :=
  decidable_of_iff (op.shaderName ∈ ctx.shaders ∧ env.fails (.descriptorSet n) = none ∧
    op.bindings.length + op.outputSizes.length ≤ maxBindings)
    ⟨fun h => ⟨h.1, h.2.1, h.2.2⟩, fun h => ⟨h.shader, h.descriptorSet, h.count⟩⟩

/-- The batch is refused before any dispatch is recorded: a binding or an output is not accepted,
the command buffer is not opened, or the first op is not recorded. -/
def RefusedBeforeRecording (ctx : VulkanContext) (env : Env) (ops : List Op) : Prop :=
  ¬ ((∀ (n : ℕ) op, ops[n]? = some op → OpAccepted env n op) ∧ env.fails .beginBatch = none ∧
    ∀ op, ops[0]? = some op → RecordAccepted ctx env 0 op)

section

variable (gpu : List Dispatch → Memory → Memory) (ctx : VulkanContext) {env : Env}

theorem recordTo_accepted {shaders : List String} {n : ℕ} {op : Op} {buffers : List Buf} :
    (∃ d, recordTo shaders env n op buffers = .ok d) ↔ op.shaderName ∈ shaders ∧
      env.fails (.descriptorSet n) = none ∧ buffers.length ≤ maxBindings := by
  simp only [recordTo, Py.bind_eq_ok, raiseIf_eq_ok, Env.attempt_eq_ok, Py.pure_eq_ok, not_not,
    not_lt, gt_iff_lt]
  constructor
  · rintro ⟨d, -, hs, -, hd, -, hc, -⟩
    exact ⟨hs, hd, hc⟩
  · rintro ⟨hs, hd, hc⟩
    exact ⟨_, (), hs, (), hd, (), hc, rfl⟩

/-- A batch that is refused in phase 1, or whose command buffer is not opened. -/
theorem executeBatch_refused {ops : List Op}
    (h : ¬ ((∀ (n : ℕ) op, ops[n]? = some op → OpAccepted env n op) ∧
      env.fails .beginBatch = none)) :
    (∃ e, (executeBatch gpu ctx env ops).outcome = .raises e) ∧
      (executeBatch gpu ctx env ops).recorded = [] := by
  have hacc := (allocOps_spec env 0 ⟨[], [], []⟩ ops).1
  simp only [Nat.zero_add] at hacc
  obtain ⟨⟨e, mem, hrun⟩, -⟩ | ⟨opMeta, bufs, rec, hops, hbegin, -⟩ :=
    executeBatch_cases ctx env ops
  · rw [hrun]
    exact ⟨⟨e, rfl⟩, rfl⟩
  · exact absurd ⟨hacc.2 ⟨_, hops⟩, hbegin⟩ h

/-- A batch whose command buffer is opened: what it records, how recording ends, and what it
returns. -/
theorem executeBatch_opened {ops : List Op}
    (hacc : ∀ (n : ℕ) op, ops[n]? = some op → OpAccepted env n op)
    (hbegin : env.fails .beginBatch = none) :
    ∃ opMeta bufs, Allocated ops opMeta bufs ∧
      (executeBatch gpu ctx env ops).recorded =
        (recordOps ctx.shaders env bufs opMeta 0 (ops.zip opMeta)).1 ∧
      ((executeBatch gpu ctx env ops).outcome = .panics ↔
        (recordOps ctx.shaders env bufs opMeta 0 (ops.zip opMeta)).2 = .panics) ∧
      ((∃ e, (recordOps ctx.shaders env bufs opMeta 0 (ops.zip opMeta)).2 = .raises e) →
        ∃ e, (executeBatch gpu ctx env ops).outcome = .raises e) ∧
      ∀ results, (executeBatch gpu ctx env ops).outcome = .returns results →
        results = opMeta.map fun m => (List.range m.outCount).map fun j =>
          (executeBatch gpu ctx env ops).memory (.out (m.outStart + j)) := by
  have hok := (allocOps_spec env 0 ⟨[], [], []⟩ ops).1
  simp only [Nat.zero_add] at hok
  obtain ⟨-, hnot⟩ | ⟨opMeta, bufs, rec, hops, -, rfl, hrun⟩ := executeBatch_cases ctx env ops
  · exact absurd ⟨hok.1 hacc, hbegin⟩ hnot
  refine ⟨opMeta, bufs, allocated_of_allocOps hops, ?_⟩
  obtain ⟨o, hrun, ⟨rfl, hrec⟩ | ⟨⟨e, rfl⟩, hrec⟩⟩ | ⟨hrec, hrun⟩ := hrun
  · rw [hrun, hrec]
    exact ⟨rfl, by simp, by simp, fun results h => by cases h⟩
  · rw [hrun]
    exact ⟨rfl, by simpa using hrec, fun _ => ⟨e, rfl⟩, fun results h => by cases h⟩
  · rw [hrun, hrec, readBack_recorded, readBack_memory]
    refine ⟨rfl, by simp [readBack_ne_panics], by simp, fun results h => ?_⟩
    exact readOutputs_spec (readBack_returns h)

theorem executeBatch_results {ops : List Op} {results : List (List Bytes)}
    (h : (executeBatch gpu ctx env ops).outcome = .returns results) :
    results = ops.mapIdx fun n op =>
      (outputBuffers ops n op).map (executeBatch gpu ctx env ops).memory := by
  by_cases hopen : (∀ (n : ℕ) op, ops[n]? = some op → OpAccepted env n op) ∧
      env.fails .beginBatch = none
  · obtain ⟨opMeta, bufs, ha, -, -, -, hreturned⟩ := executeBatch_opened gpu ctx hopen.1 hopen.2
    refine (hreturned results h).trans (List.ext_getElem (by simp [ha.length]) fun n hm hop => ?_)
    rw [List.length_map] at hm
    rw [List.length_mapIdx] at hop
    have hd := ha.described n _ _ (List.getElem?_eq_getElem hop) (List.getElem?_eq_getElem hm)
    rw [List.getElem_map, List.getElem_mapIdx, hd.outStart, hd.outCount, outputBuffers,
      List.map_map]
    rfl
  · obtain ⟨⟨e, he⟩, -⟩ := executeBatch_refused gpu ctx hopen
    rw [he] at h
    cases h

theorem chainRefsResolve_of_refused {ops : List Op} {run : Run} (he : ∃ e, run.outcome = .raises e)
    (hnil : run.recorded = []) : ChainRefsResolve ops run := by
  obtain ⟨e, he⟩ := he
  refine ⟨by rw [he]; simp, .inl ⟨⟨e, he⟩, hnil⟩, fun n op d _ hd => ?_, fun results h => ?_⟩
  · rw [hnil] at hd
    simp at hd
  · rw [he] at h
    cases h

/-- **A batch whose chain refs are in range meets what it owes to them.** -/
theorem chainRefsResolve_of_inRange {b : Batch} (hr : ChainRefsInRange b.ops) :
    ChainRefsResolve b.ops (executeBatch gpu ctx env b.ops) := by
  by_cases hopen : (∀ (n : ℕ) op, b.ops[n]? = some op → OpAccepted env n op) ∧
      env.fails .beginBatch = none
  · obtain ⟨opMeta, bufs, ha, hrecorded, hpanics, -, -⟩ :=
      executeBatch_opened gpu ctx hopen.1 hopen.2
    -- what is recorded for an op are its bindings and then its outputs
    have hbound : ∀ (n : ℕ) op d, b.ops[n]? = some op →
        (executeBatch gpu ctx env b.ops).recorded[n]? = some d →
        ∃ inputs, d.buffers = inputs ++ outputBuffers b.ops n op ∧
          inputs.length = op.bindings.length ∧ ∀ k i j, IsChainRef b.ops n k i j →
            inputs[k]? = some (outputBuffer b.ops i.toNat j.toNat) := by
      intro n op d hop hd
      rw [hrecorded] at hd
      obtain ⟨op', m, hzip, hbuf, -⟩ := recordOps_getElem? hd
      obtain ⟨hop', hm⟩ := List.getElem?_zip_eq_some.1 hzip
      obtain rfl := Option.some.inj (hop.symm.trans hop')
      obtain ⟨inputs, hin, hlen, hget⟩ := boundBuffers_eq ha hop hm (hr n)
      exact ⟨inputs, Option.some.inj (hbuf.symm.trans hin), hlen, hget⟩
    refine ⟨?_, .inr fun n k i j hc => ⟨hr n k i j hc, fun d hd => ?_⟩, fun n op d hop hd => ?_,
      fun results hres => ?_⟩
    · rw [Ne, hpanics]
      refine recordOps_ne_panics ?_
      intro om hom
      obtain ⟨n, hn⟩ := List.mem_iff_getElem?.1 hom
      obtain ⟨hop, hm⟩ := List.getElem?_zip_eq_some.1 hn
      obtain ⟨inputs, hin, -⟩ := boundBuffers_eq ha hop hm (hr n)
      rw [hin]
      exact Option.some_ne_none _
    · obtain ⟨op, hop, rest, hk⟩ := hc
      obtain ⟨inputs, hbuf, hlen, hget⟩ := hbound n op d hop hd
      have hlt : k < inputs.length := by
        rw [hlen]
        exact (List.getElem?_eq_some_iff.1 hk).1
      rw [hbuf, List.getElem?_append_left hlt]
      exact hget k i j ⟨op, hop, rest, hk⟩
    · obtain ⟨inputs, hbuf, hlen, -⟩ := hbound n op d hop hd
      rw [hbuf, ← hlen, List.drop_left]
    · rw [executeBatch_results gpu ctx hres]
      exact ⟨List.length_mapIdx, fun n op hop => by rw [List.getElem?_mapIdx, hop]; rfl⟩
  · obtain ⟨he, hnil⟩ := executeBatch_refused gpu ctx hopen
    exact chainRefsResolve_of_refused he hnil

/-- What phase 2 does with the first op of a batch that is accepted: it cannot have chain refs. -/
theorem recordOps_first {b : Batch} {opMeta : List OpBuffers} {bufs : Buffers}
    (ha : Allocated b.ops opMeta bufs) {op : Op} (hop : b.ops[0]? = some op)
    (hacc : OpAccepted env 0 op) :
    if RecordAccepted ctx env 0 op then
      (recordOps ctx.shaders env bufs opMeta 0 (b.ops.zip opMeta)).1 ≠ []
    else (recordOps ctx.shaders env bufs opMeta 0 (b.ops.zip opMeta)).1 = [] ∧
      ∃ e, (recordOps ctx.shaders env bufs opMeta 0 (b.ops.zip opMeta)).2 = .raises e := by
  -- op 0 has no op in front of it, hence no chain ref
  have hnone : ∀ k i j, IsChainRef b.ops 0 k i j → InRange b.ops 0 i j := by
    rintro k i j ⟨op', hop', rest, hk⟩
    obtain rfl := Option.some.inj (hop.symm.trans hop')
    obtain ⟨i', j', rest', -, -, -, hlt⟩ := hacc.bindings k _ hk
    exact absurd hlt (Nat.not_lt_zero i')
  have hlen : 0 < opMeta.length := by
    rw [ha.length]
    exact (List.getElem?_eq_some_iff.1 hop).1
  have hm : opMeta[0]? = some opMeta[0] := List.getElem?_eq_getElem hlen
  obtain ⟨inputs, hbuf, hin, -⟩ := boundBuffers_eq ha hop hm hnone
  have hzip : ∃ rest, b.ops.zip opMeta = (op, opMeta[0]) :: rest := by
    have hget : (b.ops.zip opMeta)[0]? = some (op, opMeta[0]) :=
      List.getElem?_zip_eq_some.2 ⟨hop, hm⟩
    cases hz : b.ops.zip opMeta with
    | nil => rw [hz] at hget; cases hget
    | cons x rest => rw [hz] at hget; exact ⟨rest, by rw [Option.some.inj hget]⟩
  obtain ⟨rest, hzip⟩ := hzip
  have hiff : RecordAccepted ctx env 0 op ↔
      ∃ d, recordTo ctx.shaders env 0 op (inputs ++ outputBuffers b.ops 0 op) = .ok d := by
    rw [recordTo_accepted, List.length_append, hin, outputBuffers, List.length_map,
      List.length_range]
    exact ⟨fun h => ⟨h.shader, h.descriptorSet, h.count⟩, fun h => ⟨h.1, h.2.1, h.2.2⟩⟩
  rw [hzip]
  unfold recordOps
  simp only [hbuf]
  split_ifs with hacc'
  · obtain ⟨d, hd⟩ := hiff.1 hacc'
    simp only [hd]
    exact List.cons_ne_nil _ _
  · cases hd : recordTo ctx.shaders env 0 op (inputs ++ outputBuffers b.ops 0 op) with
    | error e => exact ⟨rfl, e, rfl⟩
    | ok d => exact absurd (hiff.2 ⟨d, hd⟩) hacc'

theorem executeBatch_refusedBeforeRecording {b : Batch}
    (h : RefusedBeforeRecording ctx env b.ops) :
    (∃ e, (executeBatch gpu ctx env b.ops).outcome = .raises e) ∧
      (executeBatch gpu ctx env b.ops).recorded = [] := by
  by_cases hopen : (∀ (n : ℕ) op, b.ops[n]? = some op → OpAccepted env n op) ∧
      env.fails .beginBatch = none
  · obtain ⟨opMeta, bufs, ha, hrecorded, -, hraises, -⟩ :=
      executeBatch_opened gpu ctx hopen.1 hopen.2
    obtain ⟨op, hop, hnot⟩ : ∃ op, b.ops[0]? = some op ∧ ¬ RecordAccepted ctx env 0 op := by
      by_contra hall
      refine h ⟨hopen.1, hopen.2, fun op hop => ?_⟩
      by_contra hnot
      exact hall ⟨op, hop, hnot⟩
    have hrec := recordOps_first ctx ha hop (hopen.1 0 op hop)
    rw [if_neg hnot] at hrec
    exact ⟨hraises hrec.2, hrecorded.trans hrec.1⟩
  · exact executeBatch_refused gpu ctx hopen

end

/-- **The exact condition.**  A batch meets what it owes to its chain refs exactly when it is
refused before anything is recorded or all its chain refs are in range. -/
theorem chainRefsResolve_iff (gpu : List Dispatch → Memory → Memory) (ctx : VulkanContext)
    (env : Env) (b : Batch) : ChainRefsResolve b.ops (executeBatch gpu ctx env b.ops) ↔
      RefusedBeforeRecording ctx env b.ops ∨ ChainRefsInRange b.ops := by
  constructor
  · intro h
    by_cases hrefused : RefusedBeforeRecording ctx env b.ops
    · exact .inl hrefused
    right
    obtain ⟨hacc, hbegin, hfirst⟩ := not_not.1 hrefused
    obtain ⟨opMeta, bufs, ha, hrecorded, -, -, -⟩ := executeBatch_opened gpu ctx hacc hbegin
    intro n k i j hc
    rcases h.resolved with ⟨-, hnil⟩ | hres
    · -- the batch has an op, so its first op was recorded
      obtain ⟨op, hop, -⟩ := hc
      obtain ⟨op₀, hop₀⟩ : ∃ op₀, b.ops[0]? = some op₀ := by
        have hlt := (List.getElem?_eq_some_iff.1 hop).1
        exact ⟨_, List.getElem?_eq_getElem (Nat.zero_lt_of_lt hlt)⟩
      have hrec := recordOps_first ctx ha hop₀ (hacc 0 op₀ hop₀)
      rw [if_pos (hfirst op₀ hop₀), ← hrecorded] at hrec
      exact absurd hnil hrec
    · exact (hres n k i j hc).1
  · rintro (hrefused | hr)
    · obtain ⟨he, hnil⟩ := executeBatch_refusedBeforeRecording gpu ctx hrefused
      exact chainRefsResolve_of_refused he hnil
    · exact chainRefsResolve_of_inRange gpu ctx hr

/-- An op with these bindings and one output. -/
def exampleOp (bindings : List Binding) : Op where
  shaderName := "add_f32"
  bindings := bindings
  outputSizes := [4]
  pushConstants := []
  workgroups := (1, 1, 1)
  barrierAfter := true

/-- **An op that reads its own output.**  Op 0 has one output; op 1 asks for output 1 of op 0 and is
bound to its own. -/
theorem ref_to_own_output :
    (executeBatch (fun _ mem => mem) ⟨["add_f32"], []⟩ .calm
        [exampleOp [.bytes [0]], exampleOp [.tuple [0, 1]]]).recorded[1]?.map Dispatch.buffers =
      some [.out 1, .out 1] ∧
    ¬ ChainRefsResolve [exampleOp [.bytes [0]], exampleOp [.tuple [0, 1]]]
      (executeBatch (fun _ mem => mem) ⟨["add_f32"], []⟩ .calm
        [exampleOp [.bytes [0]], exampleOp [.tuple [0, 1]]]) := by
  refine ⟨by decide +kernel, fun h => ?_⟩
  rcases h.resolved with ⟨⟨e, he⟩, -⟩ | h
  · have hret : ∃ results, (executeBatch (fun _ mem => mem) ⟨["add_f32"], []⟩ .calm
        [exampleOp [.bytes [0]], exampleOp [.tuple [0, 1]]]).outcome = .returns results := ⟨_, rfl⟩
    obtain ⟨results, hret⟩ := hret
    rw [hret] at he
    cases he
  · obtain ⟨-, -, -, op, hop, hj⟩ := (h 1 0 0 1 ⟨_, rfl, [], rfl⟩).1
    obtain rfl := Option.some.inj hop
    exact absurd hj (by decide)

end Context

end VllmVulkan
