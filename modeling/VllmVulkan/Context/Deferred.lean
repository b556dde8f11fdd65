import Mathlib.Data.List.Nodup
import VllmVulkan.Context.ChainRefs
import VllmVulkan.Lib.Machine

/-!
# The deferred batch context

`BatchContext` collects ops and hands them to `execute_batch` in one list, when it is asked to flush
or when 128 ops are pending.  The outputs of an op are reached through futures, which a flush fills.

* `BatchContext` : the pending ops with their futures, and what every future holds;
* `flush`, `addOp`, `get` : the calls;
* `Tracked`, `step` : the context with the executions recorded, and the op and output that each
  future stands for;
* `WellFormed` : the invariant of runs in which no flush fails once the device has its batch;
* `run_delivers_iff` : **what deferred batches owe is met in such a run exactly when no future is
  read while its op is pending**;
* `late_failure_repeats` : a flush that fails after the device has run is executed again.
-/

namespace VllmVulkan

namespace Deferred

open Context Machine

/-- `MAX_PENDING`. -/
def maxPending : ℕ := 128

/-- The environment of one call: that of `execute_batch`, and the error of the wait for the device,
which has executed the batch then. -/
structure Attempt where
  env : Env
  waitFails : Option String

/-- An attempt in which nothing fails. -/
def Attempt.calm : Attempt := ⟨.calm, none⟩

/-- The submission goes through: the device executes the batch. -/
def reachesDevice (ctx : VulkanContext) (env : Env) (ops : List Context.Op) : Bool :=
  match allocOps env 0 ⟨[], [], []⟩ ops with
  | .error _ => false
  | .ok (opMeta, bufs) =>
    (env.fails .beginBatch).isNone &&
      decide ((recordOps ctx.shaders env bufs opMeta 0 (ops.zip opMeta)).2 = .returns ()) &&
      (env.fails .submit).isNone

/-- `execute_batch`, on a device for which the wait may fail. -/
def runBatch (gpu : List Dispatch → Memory → Memory) (ctx : VulkanContext) (a : Attempt)
    (ops : List Context.Op) : Run :=
  let run := executeBatch gpu ctx a.env ops
  match a.waitFails with
  | none => run
  | some msg =>
    if reachesDevice ctx a.env ops then { run with outcome := .raises (.runtimeError msg) } else run

/-- `BatchContext`. -/
structure BatchContext where
  /-- `_ctx`. -/
  ctx : VulkanContext
  /-- `_ops`. -/
  ops : List Context.Op
  /-- `_futures`: the futures of each pending op, by number. -/
  futures : List (List ℕ)
  /-- `_data` of every future made. -/
  data : List (Option Bytes)
  deriving DecidableEq, Repr

namespace BatchContext

variable (gpu : List Dispatch → Memory → Memory) (c : BatchContext)

/-- The loops of `flush` that deliver the results. -/
def deliver (data : List (Option Bytes)) (results : List (List Bytes)) (futures : List (List ℕ)) :
    List (Option Bytes) :=
  (results.zip futures).foldl (fun data (opResults, opFutures) =>
    (opResults.zip opFutures).foldl (fun data (dataBytes, future) =>
      data.set future (some dataBytes)) data) data

/-- `flush`. -/
def flush (a : Attempt) : Outcome Unit × BatchContext :=
  if c.ops.isEmpty then (.returns (), c)
  else
    let run := runBatch gpu c.ctx a c.ops
    match run.outcome with
    | .returns results =>
      (.returns (), ⟨run.ctx, [], [], deliver c.data results c.futures⟩)
    | .raises e => (.raises e, { c with ctx := run.ctx })
    | .panics => (.panics, { c with ctx := run.ctx })

/-- The futures that `add_op` makes. -/
def newFutures (op : Context.Op) : List ℕ := List.range' c.data.length op.outputSizes.length

/-- The appends of `add_op`. -/
def enqueue (op : Context.Op) : BatchContext where
  ctx := c.ctx
  ops := c.ops ++ [op]
  futures := c.futures ++ [c.newFutures op]
  data := c.data ++ List.replicate op.outputSizes.length none

/-- `add_op`. -/
def addOp (op : Context.Op) (a : Attempt) : Outcome (List ℕ) × BatchContext :=
  if (c.enqueue op).ops.length ≥ maxPending then
    match (c.enqueue op).flush gpu a with
    | (.returns (), c') => (.returns (c.newFutures op), c')
    | (.raises e, c') => (.raises e, c')
    | (.panics, c') => (.panics, c')
  else (.returns (c.newFutures op), c.enqueue op)

/-- `_OutputFuture.get`. -/
def get (future : ℕ) : Option Bytes := (c.data[future]?).join

end BatchContext

/-! ### Runs -/

/-- A call, with its environment. -/
inductive Call where
  | addOp (op : Context.Op) (a : Attempt)
  | flush (a : Attempt)
  | get (future : ℕ)

/-- What a call answers. -/
inductive Reply where
  | futures (futures : Outcome (List ℕ))
  | flushed (outcome : Outcome Unit)
  | data (data : Option Bytes)
  deriving DecidableEq, Repr

/-- The context with its history. -/
structure Tracked where
  context : BatchContext
  /-- The number of ops added. -/
  added : ℕ
  /-- The executions: the op, and what its outputs held. -/
  executed : List (ℕ × List Bytes)
  /-- The op of each future, and which of its outputs. -/
  owner : List (ℕ × ℕ)
  deriving DecidableEq, Repr

namespace Tracked

variable (gpu : List Dispatch → Memory → Memory) (s : Tracked)

/-- The first pending op. -/
def firstPending : ℕ := s.added - s.context.ops.length

/-- The executions of a flush. -/
def executions (a : Attempt) : List (ℕ × List Bytes) :=
  if s.context.ops ≠ [] ∧ reachesDevice s.context.ctx a.env s.context.ops then
    s.context.ops.mapIdx fun k op => (s.firstPending + k,
      (outputBuffers s.context.ops k op).map (runBatch gpu s.context.ctx a s.context.ops).memory)
  else []

def flush (a : Attempt) : Tracked :=
  { s with
    context := (s.context.flush gpu a).2
    executed := s.executed ++ s.executions gpu a }

def enqueue (op : Context.Op) : Tracked where
  context := s.context.enqueue op
  added := s.added + 1
  executed := s.executed
  owner := s.owner ++ (List.range op.outputSizes.length).map fun j => (s.added, j)

end Tracked

/-- One call. -/
def step (gpu : List Dispatch → Memory → Memory) (s : Tracked) : Call → Tracked × Reply
  | .addOp op a =>
    (if (s.enqueue op).context.ops.length ≥ maxPending then (s.enqueue op).flush gpu a
      else s.enqueue op,
      .futures (s.context.addOp gpu op a).1)
  | .flush a => (s.flush gpu a, .flushed (s.context.flush gpu a).1)
  | .get future => (s, .data (s.context.get future))

/-- A new context. -/
def start (ctx : VulkanContext) : Tracked := ⟨⟨ctx, [], [], []⟩, 0, [], []⟩

/-! ### How far a flush gets -/

/-- If the batch reaches the device, then nothing fails from there on: not the wait, and not the
reading of an output. -/
def FailsEarly (ctx : VulkanContext) (ops : List Context.Op) (a : Attempt) : Prop :=
  reachesDevice ctx a.env ops = true → a.waitFails = none ∧
    ∀ (n : ℕ) op, ops[n]? = some op → ∀ j < op.outputSizes.length, a.env.fails (.read n j) = none

section

variable (gpu : List Dispatch → Memory → Memory) (ctx : VulkanContext)

theorem reachesDevice_cases (env : Env) (ops : List Context.Op) :
    (reachesDevice ctx env ops = false ∧
      ∀ results, (executeBatch gpu ctx env ops).outcome ≠ .returns results) ∨
    (reachesDevice ctx env ops = true ∧
      ∃ opMeta bufs recorded mem, allocOps env 0 ⟨[], [], []⟩ ops = .ok (opMeta, bufs) ∧
        executeBatch gpu ctx env ops = readBack ctx env opMeta recorded (gpu recorded mem)) := by
  unfold reachesDevice executeBatch
  cases hops : allocOps env 0 ⟨[], [], []⟩ ops with
  | error e => exact .inl ⟨rfl, nofun⟩
  | ok r =>
    obtain ⟨opMeta, bufs⟩ := r
    cases hbegin : env.fails .beginBatch with
    | some msg => simp [Env.attempt, hbegin]
    | none =>
      cases hrec : (recordOps ctx.shaders env bufs opMeta 0 (ops.zip opMeta)).2 with
      | panics => simp [Env.attempt, hbegin, hrec]
      | raises e => simp [Env.attempt, hbegin, hrec]
      | returns u =>
        cases hsub : env.fails .submit with
        | some msg => simp [Env.attempt, hbegin, hrec, hsub]
        | none =>
          refine .inr ⟨by simp [hrec], opMeta, bufs,
            (recordOps ctx.shaders env bufs opMeta 0 (ops.zip opMeta)).1,
            initialMemory ctx env bufs, rfl, ?_⟩
          simp only [Env.attempt, hbegin, hrec, hsub]
          rfl

end

theorem readOp_ok {env : Env} {mem : Memory} {n : ℕ} {m : OpBuffers} {i count : ℕ}
    (h : ∀ j < i + count, env.fails (.read n j) = none) :
    ∃ r, readOp env mem n m i count = .ok r := by
  induction count generalizing i with
  | zero => exact ⟨_, rfl⟩
  | succ count ih =>
    obtain ⟨rest, hrest⟩ := @ih (i + 1) fun j hj => h j (by omega)
    exact ⟨_, by simp only [readOp, Env.attempt, h i (by omega), hrest]; rfl⟩

theorem readOutputs_ok {env : Env} {mem : Memory} {n : ℕ} {opMeta : List OpBuffers}
    (h : ∀ (k : ℕ) m, opMeta[k]? = some m → ∀ j < m.outCount,
      env.fails (.read (n + k) j) = none) : ∃ r, readOutputs env mem n opMeta = .ok r := by
  induction opMeta generalizing n with
  | nil => exact ⟨_, rfl⟩
  | cons m opMeta ih =>
    obtain ⟨opOut, hop⟩ := @readOp_ok env mem n m 0 m.outCount fun j hj =>
      h 0 m rfl j (by omega)
    obtain ⟨rest, hrest⟩ := @ih (n + 1) fun k m' hm j hj => by
      rw [Nat.add_assoc, Nat.add_comm 1]
      exact h (k + 1) m' hm j hj
    exact ⟨_, by simp only [readOutputs, hop, hrest]; rfl⟩

/-- Where nothing fails late, a batch is executed exactly when the call returns. -/
theorem runBatch_of_failsEarly (gpu : List Dispatch → Memory → Memory) {ctx : VulkanContext}
    {a : Attempt} {ops : List Context.Op} (h : FailsEarly ctx ops a) :
    (reachesDevice ctx a.env ops = false ∧
      ∀ results, (runBatch gpu ctx a ops).outcome ≠ .returns results) ∨
    (reachesDevice ctx a.env ops = true ∧
      (runBatch gpu ctx a ops).outcome = .returns (ops.mapIdx fun n op =>
        (outputBuffers ops n op).map (runBatch gpu ctx a ops).memory)) := by
  obtain ⟨hno, hout⟩ | ⟨hyes, opMeta, bufs, recorded, mem, hops, heq⟩ :=
    reachesDevice_cases gpu ctx a.env ops
  · have hrun : runBatch gpu ctx a ops = executeBatch gpu ctx a.env ops := by
      unfold runBatch
      cases a.waitFails with
      | none => rfl
      | some msg => simp [hno]
    rw [hrun]
    exact .inl ⟨hno, hout⟩
  · obtain ⟨hwait, hreads⟩ := h hyes
    have hrun : runBatch gpu ctx a ops = executeBatch gpu ctx a.env ops := by
      simp only [runBatch, hwait]
    have hmeta := allocated_of_allocOps hops
    -- the outputs that are read back are those of the ops
    have hback : ∀ (k : ℕ) m, opMeta[k]? = some m → ∀ j < m.outCount,
        a.env.fails (.read (0 + k) j) = none := by
      intro k m hm j hj
      have hk : k < ops.length := hmeta.length ▸ (List.getElem?_eq_some_iff.1 hm).1
      have hop := List.getElem?_eq_getElem hk
      rw [(hmeta.described k _ m hop hm).outCount] at hj
      rw [Nat.zero_add]
      exact hreads k _ hop j hj
    obtain ⟨results, hread⟩ := @readOutputs_ok a.env (gpu recorded mem) 0 opMeta hback
    have hout : (executeBatch gpu ctx a.env ops).outcome = .returns results := by
      rw [heq, readBack, hread]
    refine .inr ⟨hyes, ?_⟩
    rw [hrun, hout, ← executeBatch_results gpu ctx hout]

/-! ### Delivery -/

/-- The futures that a delivery fills, with their contents. -/
def deliveries (results : List (List Bytes)) (futures : List (List ℕ)) : List (Bytes × ℕ) :=
  (results.zip futures).flatMap fun p => p.1.zip p.2

/-- Filling futures one by one. -/
def fill (data : List (Option Bytes)) (ps : List (Bytes × ℕ)) : List (Option Bytes) :=
  ps.foldl (fun data p => data.set p.2 (some p.1)) data

theorem deliver_eq (data : List (Option Bytes)) (results : List (List Bytes))
    (futures : List (List ℕ)) :
    BatchContext.deliver data results futures = fill data (deliveries results futures) :=
  List.foldl_flatMap.symm

theorem length_fill (data : List (Option Bytes)) (ps : List (Bytes × ℕ)) :
    (fill data ps).length = data.length := by
  induction ps generalizing data with
  | nil => rfl
  | cons p ps ih => exact (ih _).trans List.length_set

theorem fill_cons (data : List (Option Bytes)) (p : Bytes × ℕ) (ps : List (Bytes × ℕ)) :
    fill data (p :: ps) = fill (data.set p.2 (some p.1)) ps := rfl

theorem fill_some {data : List (Option Bytes)} {ps : List (Bytes × ℕ)} {f : ℕ} {b : Bytes}
    (h : (fill data ps)[f]? = some (some b)) : data[f]? = some (some b) ∨ (b, f) ∈ ps := by
  induction ps generalizing data with
  | nil => exact .inl h
  | cons p ps ih =>
    obtain h | h := ih h
    · rw [List.getElem?_set] at h
      split_ifs at h with heq hlt
      · obtain ⟨b', f'⟩ := p
        obtain rfl : b' = b := by simpa using h
        obtain rfl : f' = f := heq
        exact .inr List.mem_cons_self
      · exact .inl h
    · exact .inr (List.mem_cons_of_mem _ h)

theorem fill_none {data : List (Option Bytes)} {ps : List (Bytes × ℕ)} {f : ℕ} :
    (fill data ps)[f]? = some none ↔ data[f]? = some none ∧ f ∉ ps.map Prod.snd := by
  induction ps generalizing data with
  | nil => simp [fill]
  | cons p ps ih =>
    rw [fill_cons, ih, List.getElem?_set, List.map_cons, List.mem_cons]
    split_ifs with heq hlt
    · simp [heq]
    · simp [heq]
    · simp [Ne.symm heq]

theorem mem_deliveries {results : List (List Bytes)} {futures : List (List ℕ)} {b : Bytes} {f : ℕ}
    (h : (b, f) ∈ deliveries results futures) :
    ∃ (k j : ℕ) (bs : List Bytes) (fs : List ℕ), results[k]? = some bs ∧ futures[k]? = some fs ∧
      bs[j]? = some b ∧ fs[j]? = some f := by
  obtain ⟨⟨bs, fs⟩, hp, hmem⟩ := List.mem_flatMap.1 h
  obtain ⟨k, hk⟩ := List.mem_iff_getElem?.1 hp
  obtain ⟨j, hj⟩ := List.mem_iff_getElem?.1 hmem
  obtain ⟨hbs, hfs⟩ := List.getElem?_zip_eq_some.1 hk
  obtain ⟨hb, hf⟩ := List.getElem?_zip_eq_some.1 hj
  exact ⟨k, j, bs, fs, hbs, hfs, hb, hf⟩

theorem map_snd_deliveries {results : List (List Bytes)} {futures : List (List ℕ)}
    (h : List.Forall₂ (fun bs fs => bs.length = fs.length) results futures) :
    (deliveries results futures).map Prod.snd = futures.flatten := by
  induction h with
  | nil => rfl
  | @cons bs fs results futures hlen _ ih =>
    rw [deliveries, List.zip_cons_cons, List.flatMap_cons, List.map_append,
      List.map_snd_zip hlen.ge, List.flatten_cons]
    exact congrArg (fs ++ ·) ih

/-! ### The invariant -/

/-- Future `f` stands for an output of an op that was executed, and `b` is what that output held. -/
def Produced (s : Tracked) (f : ℕ) (b : Bytes) : Prop :=
  ∃ (n j : ℕ) (bs : List Bytes), s.owner[f]? = some (n, j) ∧ (n, bs) ∈ s.executed ∧ bs[j]? = some b

/-- The pending ops are the last ones added and not executed, their futures are the ones without
contents, and every other future holds the output it stands for. -/
structure WellFormed (s : Tracked) : Prop where
  ops_le : s.context.ops.length ≤ s.added
  futures_length : s.context.futures.length = s.context.ops.length
  owner_length : s.owner.length = s.context.data.length
  pending : ∀ (k : ℕ) op fs, s.context.ops[k]? = some op → s.context.futures[k]? = some fs →
    fs.length = op.outputSizes.length ∧
      ∀ (j : ℕ) f, fs[j]? = some f → s.owner[f]? = some (s.firstPending + k, j)
  unfilled : ∀ f, s.context.data[f]? = some none ↔ f ∈ s.context.futures.flatten
  executed_pairwise : (s.executed.map Prod.fst).Pairwise (· < ·)
  executed_lt : ∀ n ∈ s.executed.map Prod.fst, n < s.firstPending
  own : ∀ f b, s.context.data[f]? = some (some b) → Produced s f b

theorem Produced.mono {s s' : Tracked} {f : ℕ} {b : Bytes} (h : Produced s f b)
    (ho : s.owner <+: s'.owner) (he : s.executed ⊆ s'.executed) : Produced s' f b := by
  obtain ⟨n, j, bs, hn, hbs, hb⟩ := h
  exact ⟨n, j, bs, getElem?_extend ho hn, he hbs, hb⟩

theorem WellFormed.start (ctx : VulkanContext) : WellFormed (start ctx) where
  ops_le := le_rfl
  futures_length := rfl
  owner_length := rfl
  pending k op fs hop := by simp [Deferred.start] at hop
  unfilled f := by simp [Deferred.start]
  executed_pairwise := .nil
  executed_lt n hn := by cases hn
  own f b h := by simp [Deferred.start] at h

theorem firstPending_enqueue (s : Tracked) (op : Context.Op) :
    (s.enqueue op).firstPending = s.firstPending := by
  simp [Tracked.firstPending, Tracked.enqueue, BatchContext.enqueue]

theorem WellFormed.enqueue {s : Tracked} (h : WellFormed s) (op : Context.Op) :
    WellFormed (s.enqueue op) where
  ops_le := by simpa [Tracked.enqueue, BatchContext.enqueue] using h.ops_le
  futures_length := by simpa [Tracked.enqueue, BatchContext.enqueue] using h.futures_length
  owner_length := by simpa [Tracked.enqueue, BatchContext.enqueue] using h.owner_length
  pending k op' fs hop hfs := by
    rw [firstPending_enqueue]
    simp only [Tracked.enqueue, BatchContext.enqueue] at hop hfs ⊢
    by_cases hk : k < s.context.ops.length
    · rw [List.getElem?_append_left hk] at hop
      rw [List.getElem?_append_left (h.futures_length ▸ hk)] at hfs
      obtain ⟨hlen, howner⟩ := h.pending k op' fs hop hfs
      exact ⟨hlen, fun j f hf => getElem?_extend ⟨_, rfl⟩ (howner j f hf)⟩
    · -- the op just added
      have hkeq : k = s.context.ops.length := by
        have := (List.getElem?_eq_some_iff.1 hop).1
        simp only [List.length_append, List.length_singleton] at this
        omega
      subst hkeq
      obtain rfl : op = op' := by simpa using hop
      obtain rfl : s.context.newFutures op = fs := by simpa [h.futures_length] using hfs
      refine ⟨List.length_range', fun j f hf => ?_⟩
      obtain ⟨hj, hf⟩ := List.getElem?_eq_some_iff.1 hf
      rw [BatchContext.newFutures, List.length_range'] at hj
      -- its futures are numbered from the first free one on
      have hfeq : f = s.owner.length + j := by
        rw [← hf, h.owner_length]
        simp [BatchContext.newFutures]
      have hadded : s.firstPending + s.context.ops.length = s.added :=
        Nat.sub_add_cancel h.ops_le
      rw [hfeq, hadded, List.getElem?_append_right (Nat.le_add_right ..), Nat.add_sub_cancel_left,
        List.getElem?_map, List.getElem?_range hj]
      rfl
  unfilled f := by
    simp only [Tracked.enqueue, BatchContext.enqueue, List.flatten_append, List.mem_append,
      List.flatten_singleton, BatchContext.newFutures, List.mem_range'_1, ← h.unfilled]
    by_cases hf : f < s.context.data.length
    · rw [List.getElem?_append_left hf]
      exact ⟨.inl, fun h => h.resolve_right fun h => absurd h.1 (not_le.2 hf)⟩
    · rw [List.getElem?_append_right (not_lt.1 hf), List.getElem?_replicate,
        List.getElem?_eq_none (not_lt.1 hf)]
      simp
      omega
  executed_pairwise := h.executed_pairwise
  executed_lt := by
    rw [firstPending_enqueue]
    exact h.executed_lt
  own f b hb := by
    refine (h.own f b ?_).mono ⟨_, rfl⟩ (List.Subset.refl _)
    simp only [Tracked.enqueue, BatchContext.enqueue] at hb
    by_cases hf : f < s.context.data.length
    · rwa [List.getElem?_append_left hf] at hb
    · rw [List.getElem?_append_right (not_lt.1 hf), List.getElem?_replicate] at hb
      split_ifs at hb
      cases Option.some.inj hb

/-- What the outputs of the pending ops hold after a run. -/
def outputsHeld (ops : List Context.Op) (mem : Memory) : List (List Bytes) :=
  ops.mapIdx fun k op => (outputBuffers ops k op).map mem

/-- The contents, with the number of the op each belongs to. -/
def numbered (first : ℕ) (held : List (List Bytes)) : List (ℕ × List Bytes) :=
  held.mapIdx fun k bs => (first + k, bs)

theorem map_fst_numbered (first : ℕ) (held : List (List Bytes)) :
    (numbered first held).map Prod.fst = List.range' first held.length := by
  refine List.ext_getElem (by simp [numbered]) ?_
  intro k _ _
  simp [numbered]

theorem mem_numbered {first k : ℕ} {held : List (List Bytes)} {bs : List Bytes}
    (h : held[k]? = some bs) : (first + k, bs) ∈ numbered first held :=
  List.mem_iff_getElem?.2 ⟨k, by rw [numbered, List.getElem?_mapIdx, h]; rfl⟩

theorem executions_of_reached {gpu : List Dispatch → Memory → Memory} {s : Tracked} {a : Attempt}
    (hops : s.context.ops ≠ []) (h : reachesDevice s.context.ctx a.env s.context.ops = true) :
    s.executions gpu a = numbered s.firstPending
      (outputsHeld s.context.ops (runBatch gpu s.context.ctx a s.context.ops).memory) := by
  rw [Tracked.executions, if_pos ⟨hops, h⟩]
  refine List.ext_getElem (by simp [numbered, outputsHeld]) ?_
  intro k _ _
  simp [numbered, outputsHeld]

/-- **What a flush does** where nothing fails late: it leaves the batch pending and unexecuted, or
it executes it and fills its futures. -/
theorem flush_cases (gpu : List Dispatch → Memory → Memory) (s : Tracked) {a : Attempt}
    (ha : s.context.ops ≠ [] → FailsEarly s.context.ctx s.context.ops a) :
    (∃ ctx, s.flush gpu a = { s with context := { s.context with ctx := ctx } }) ∨
    ∃ ctx held, held = outputsHeld s.context.ops
        (runBatch gpu s.context.ctx a s.context.ops).memory ∧
      s.flush gpu a = { s with
        context := ⟨ctx, [], [], fill s.context.data (deliveries held s.context.futures)⟩
        executed := s.executed ++ numbered s.firstPending held } := by
  unfold Tracked.flush
  by_cases hops : s.context.ops = []
  · have hex : s.executions gpu a = [] := if_neg fun h => h.1 hops
    rw [hex, List.append_nil, BatchContext.flush, if_pos (by simp [hops])]
    exact .inl ⟨s.context.ctx, rfl⟩
  have hne : s.context.ops.isEmpty = false := by simpa using hops
  obtain ⟨hno, hout⟩ | ⟨hyes, hout⟩ := runBatch_of_failsEarly gpu (ha hops)
  · refine .inl ⟨(runBatch gpu s.context.ctx a s.context.ops).ctx, ?_⟩
    have hex : s.executions gpu a = [] := if_neg (by simp [hno])
    rw [hex, List.append_nil, BatchContext.flush, if_neg (by simp [hne])]
    dsimp only
    generalize runBatch gpu s.context.ctx a s.context.ops = run at hout
    obtain ⟨recorded, results | e | -, memory, ctx⟩ := run
    · exact absurd rfl (hout results)
    · rfl
    · rfl
  · refine .inr ⟨(runBatch gpu s.context.ctx a s.context.ops).ctx, _, rfl, ?_⟩
    rw [executions_of_reached hops hyes, BatchContext.flush, if_neg (by simp [hne])]
    simp only [hout, deliver_eq]
    rfl

theorem WellFormed.flush {s : Tracked} (h : WellFormed s) (gpu : List Dispatch → Memory → Memory)
    {a : Attempt} (ha : s.context.ops ≠ [] → FailsEarly s.context.ctx s.context.ops a) :
    WellFormed (s.flush gpu a) := by
  obtain ⟨ctx, heq⟩ | ⟨ctx, held, hheld, heq⟩ := flush_cases gpu s ha <;> rw [heq]
  · exact { h with }
  have hlength : held.length = s.context.ops.length := by
    rw [hheld, outputsHeld, List.length_mapIdx]
  have hadded : s.firstPending + held.length = s.added := by
    rw [hlength]
    exact Nat.sub_add_cancel h.ops_le
  have hheldlen {k : ℕ} {bs : List Bytes} {fs : List ℕ} (hbs : held[k]? = some bs)
      (hfs : s.context.futures[k]? = some fs) : bs.length = fs.length := by
    rw [hheld, outputsHeld, List.getElem?_mapIdx] at hbs
    obtain ⟨op, hop, rfl⟩ := Option.map_eq_some_iff.1 hbs
    rw [(h.pending k op fs hop hfs).1]
    simp [outputBuffers]
  -- one output for each future of an op, so that none is left over
  have hsame : List.Forall₂ (fun bs fs => bs.length = fs.length) held s.context.futures :=
    List.forall₂_iff_get.2 ⟨hlength.trans h.futures_length.symm, fun k hk hk' =>
      hheldlen (List.getElem?_eq_getElem hk) (List.getElem?_eq_getElem hk')⟩
  refine ⟨Nat.zero_le _, rfl, ?_, fun k op fs hop => ?_, fun f => ?_, ?_, fun n hn => ?_,
    fun f b hb => ?_⟩
  · rw [length_fill]
    exact h.owner_length
  · simp at hop
  · rw [fill_none, map_snd_deliveries hsame, h.unfilled]
    simp
  · rw [List.map_append, map_fst_numbered]
    refine List.pairwise_append.2 ⟨h.executed_pairwise, List.pairwise_lt_range', ?_⟩
    intro m hm n hn
    exact (h.executed_lt m hm).trans_le (List.mem_range'_1.1 hn).1
  · change n < s.added
    rw [List.map_append, map_fst_numbered] at hn
    obtain hn | hn := List.mem_append.1 hn
    · exact (h.executed_lt n hn).trans_le (Nat.sub_le _ _)
    · rw [← hadded]
      exact (List.mem_range'_1.1 hn).2
  · obtain hold | hnew := fill_some hb
    · exact (h.own f b hold).mono (List.prefix_refl _) (List.subset_append_left _ _)
    · -- the future was pending, and is filled with the output of its own op
      obtain ⟨k, j, bs, fs, hbs, hfs, hb, hf⟩ := mem_deliveries hnew
      have hk : k < s.context.ops.length := hlength ▸ (List.getElem?_eq_some_iff.1 hbs).1
      have howner := (h.pending k _ fs (List.getElem?_eq_getElem hk) hfs).2 j f hf
      exact ⟨_, j, bs, howner, List.mem_append_right _ (mem_numbered hbs), hb⟩

/-! ### Runs -/

/-- If a call flushes a batch, then nothing fails once the device has it. -/
def CallFailsEarly (s : Tracked) : Call → Prop
  | .addOp op a => maxPending ≤ (s.enqueue op).context.ops.length →
    FailsEarly s.context.ctx (s.enqueue op).context.ops a
  | .flush a => s.context.ops ≠ [] → FailsEarly s.context.ctx s.context.ops a
  | .get _ => True

theorem WellFormed.step {s : Tracked} (h : WellFormed s) (gpu : List Dispatch → Memory → Memory)
    {call : Call} (hcall : CallFailsEarly s call) : WellFormed (step gpu s call).1 := by
  cases call with
  | addOp op a =>
    rw [Deferred.step]
    split_ifs with hfull
    · exact (h.enqueue op).flush gpu fun _ => hcall hfull
    · exact h.enqueue op
  | flush a => exact h.flush gpu hcall
  | get future => exact h

/-- What a call owes: each op is executed at most once and in the order added, no future holds
anything but the output it stands for, and a `get` answers that output. -/
structure Delivers (τ : Transition Tracked Call Reply) : Prop where
  inOrder : (τ.post.executed.map Prod.fst).Pairwise (· < ·)
  own : ∀ f b, τ.post.context.data[f]? = some (some b) → Produced τ.post f b
  get : ∀ f, τ.input = .get f → f < τ.pre.context.data.length →
    ∃ b, τ.output = .data (some b) ∧ Produced τ.post f b

/-- A `get` is not made while the op of its future is pending. -/
def ReadsFilled (s : Tracked) : Call → Prop
  | .get f => f ∉ s.context.futures.flatten
  | .addOp .. | .flush _ => True

instance (s : Tracked) : DecidablePred (ReadsFilled s)
  | .get f => inferInstanceAs (Decidable (f ∉ s.context.futures.flatten))
  | .addOp .. | .flush _ => .isTrue trivial

theorem delivers_iff {s : Tracked} (h : WellFormed s) (gpu : List Dispatch → Memory → Memory)
    {call : Call} (hcall : CallFailsEarly s call) :
    Delivers ⟨s, call, (step gpu s call).1, (step gpu s call).2⟩ ↔ ReadsFilled s call := by
  have hpost := h.step gpu hcall
  cases call with
  | addOp op a => exact ⟨fun _ => trivial, fun _ => ⟨hpost.executed_pairwise, hpost.own, nofun⟩⟩
  | flush a => exact ⟨fun _ => trivial, fun _ => ⟨hpost.executed_pairwise, hpost.own, nofun⟩⟩
  | get f =>
    constructor
    · intro hd hpending
      have hdata := (h.unfilled f).2 hpending
      obtain ⟨b, hb, -⟩ := hd.get f rfl (List.getElem?_eq_some_iff.1 hdata).1
      rw [Deferred.step, BatchContext.get, hdata] at hb
      cases hb
    · intro hfilled
      refine ⟨h.executed_pairwise, h.own, fun f' hf' hlt => ?_⟩
      obtain rfl := Call.get.inj hf'
      have hdata : s.context.data[f]? = some s.context.data[f] := List.getElem?_eq_getElem hlt
      cases hval : s.context.data[f] with
      | none => exact absurd ((h.unfilled f).1 (hdata.trans (congrArg some hval))) hfilled
      | some b =>
        rw [hval] at hdata
        refine ⟨b, ?_, h.own f b hdata⟩
        rw [Deferred.step, BatchContext.get, hdata]
        rfl

/-- **Runs in which nothing fails once the device has a batch**: what deferred batches owe is met
exactly when no future is read while its op is pending. -/
theorem run_delivers_iff (gpu : List Dispatch → Memory → Memory) (ctx : VulkanContext)
    (calls : List Call)
    (hcalls : ∀ τ ∈ transitions (step gpu) (start ctx) calls, CallFailsEarly τ.pre τ.input) :
    (∀ τ ∈ transitions (step gpu) (start ctx) calls, Delivers τ) ↔
      ∀ τ ∈ transitions (step gpu) (start ctx) calls, ReadsFilled τ.pre τ.input := by
  have hstep (s : Tracked) (call : Call) (h : WellFormed s) (hcall : CallFailsEarly s call) :
      WellFormed (step gpu s call).1 := h.step gpu hcall
  have heach : ∀ τ ∈ transitions (step gpu) (start ctx) calls,
      (Delivers τ ↔ ReadsFilled τ.pre τ.input) :=
    forall_transitions hstep (fun s call h hcall => delivers_iff h gpu hcall) (.start ctx)
      hcalls
  exact forall₂_congr heach

/-- The outputs of an op that is executed once are one list, so a future has one value. -/
theorem Produced.unique {s : Tracked} (hs : (s.executed.map Prod.fst).Pairwise (· < ·)) {f : ℕ}
    {b b' : Bytes} (h : Produced s f b) (h' : Produced s f b') : b = b' := by
  obtain ⟨n, j, bs, hn, hbs, hb⟩ := h
  obtain ⟨n', j', bs', hn', hbs', hb'⟩ := h'
  obtain ⟨rfl, rfl⟩ := Prod.mk.inj (Option.some.inj (hn.symm.trans hn'))
  obtain rfl : bs = bs' := by
    have hnodup : (s.executed.map Prod.fst).Nodup := hs.imp fun h => h.ne
    exact (Prod.mk.inj (List.inj_on_of_nodup_map hnodup hbs hbs' rfl)).2
  exact Option.some.inj (hb.symm.trans hb')

/-! ### Late failures -/

section

variable {gpu : List Dispatch → Memory → Memory} {s : Tracked} {a : Attempt}

theorem firstPending_executed (hops : s.context.ops ≠ [])
    (hyes : reachesDevice s.context.ctx a.env s.context.ops = true) :
    s.firstPending ∈ (s.executions gpu a).map Prod.fst := by
  rw [executions_of_reached hops hyes, map_fst_numbered, List.mem_range'_1, outputsHeld,
    List.length_mapIdx]
  have := List.length_pos_iff.2 hops
  omega

theorem ops_of_raises {e : PyError} (hops : s.context.ops ≠ [])
    (hfails : (runBatch gpu s.context.ctx a s.context.ops).outcome = .raises e) :
    (s.flush gpu a).context.ops = s.context.ops := by
  rw [Tracked.flush, BatchContext.flush, if_neg (by simpa using hops)]
  simp only [hfails]

/-- **A flush that fails after the device has run leaves its ops pending**, and the next one
executes them again. -/
theorem late_failure_repeats {a' : Attempt} {e : PyError} (hops : s.context.ops ≠ [])
    (hyes : reachesDevice s.context.ctx a.env s.context.ops = true)
    (hfails : (runBatch gpu s.context.ctx a s.context.ops).outcome = .raises e)
    (hyes' : reachesDevice (s.flush gpu a).context.ctx a'.env s.context.ops = true) :
    ¬ (((s.flush gpu a).flush gpu a').executed.map Prod.fst).Nodup := by
  have hkeep := ops_of_raises hops hfails
  have hfirst : (s.flush gpu a).firstPending = s.firstPending := by
    unfold Tracked.firstPending
    rw [hkeep]
    rfl
  have hmem : s.firstPending ∈ (s.flush gpu a).executed.map Prod.fst := by
    rw [Tracked.flush, List.map_append]
    exact List.mem_append_right _ (firstPending_executed hops hyes)
  have hmem' : s.firstPending ∈ ((s.flush gpu a).executions gpu a').map Prod.fst := by
    rw [← hfirst]
    rw [← hkeep] at hops hyes'
    exact firstPending_executed hops hyes'
  intro hnodup
  rw [Tracked.flush, List.map_append] at hnodup
  exact (List.nodup_append.1 hnodup).2.2 _ hmem _ hmem' rfl

end

/-! ### Short runs -/

/-- An op with one output. -/
def exampleOp : Context.Op where
  shaderName := "silu_f32"
  bindings := [.bytes [1]]
  outputSizes := [4]
  pushConstants := []
  workgroups := (1, 1, 1)
  barrierAfter := false

/-- A context that has the shader. -/
def exampleCtx : VulkanContext := ⟨["silu_f32"], []⟩

/-- An attempt in which the wait for the device fails. -/
def waitLost : Attempt := ⟨.calm, some "wait_for_fences: ERROR_DEVICE_LOST"⟩

/-- Attempts that are not used, or that do not reach the device, may fail in any way. -/
theorem run_delivers_iff_flushed :
    (∀ τ ∈ transitions (step fun _ mem => mem) (start exampleCtx)
      [.flush waitLost, .addOp exampleOp waitLost, .flush .calm, .get 0],
        ReadsFilled τ.pre τ.input) ∧
    ∀ τ ∈ transitions (step fun _ mem => mem) (start exampleCtx)
      [.flush waitLost, .addOp exampleOp waitLost, .flush .calm, .get 0], Delivers τ := by
  have hread : ∀ τ ∈ transitions (step fun _ mem => mem) (start exampleCtx)
      [.flush waitLost, .addOp exampleOp waitLost, .flush .calm, .get 0],
        ReadsFilled τ.pre τ.input := by decide
  refine ⟨hread, (run_delivers_iff (fun _ mem => mem) exampleCtx _ ?_).2 hread⟩
  rintro _ (_ | ⟨_, _ | ⟨_, _ | ⟨_, _ | ⟨_, ⟨⟩⟩⟩⟩⟩)
  · exact fun hops => absurd rfl hops
  · exact fun hfull => absurd hfull (by decide)
  · exact fun _ _ => ⟨rfl, fun _ _ _ _ _ => rfl⟩
  · trivial

/-- A future that is read while its op is pending has no contents, and a flush that is retried after
the device has run executes the op again. -/
theorem pending_and_retried :
    (¬ ∀ τ ∈ transitions (step fun _ mem => mem) (start exampleCtx)
      [.addOp exampleOp .calm, .get 0], Delivers τ) ∧
    ¬ ∀ τ ∈ transitions (step fun _ mem => mem) (start exampleCtx)
      [.addOp exampleOp .calm, .flush waitLost, .flush .calm], Delivers τ := by
  constructor
  · intro h
    obtain ⟨b, hb, -⟩ := (h _ (List.mem_cons_of_mem _ List.mem_cons_self)).get 0 rfl (by decide)
    cases hb
  · intro h
    have hlast := (h _ (List.mem_cons_of_mem _ (List.mem_cons_of_mem _ List.mem_cons_self))).inOrder
    revert hlast
    decide

end Deferred

end VllmVulkan
