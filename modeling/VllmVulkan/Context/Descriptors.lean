import VllmVulkan.Context.ExecuteBatch
import VllmVulkan.Lib.Machine

/-!
# Descriptor sets

Every recorded dispatch binds a descriptor set of its own.  The engine allocates sets by pools of
256 and hands them out by a cursor, which only a successful submission puts back to the start.

* `ComputeEngine` : the sets, the cursor and the one command buffer;
* `beginBatch`, `recordTo`, `submitBatch`, `dispatch` : the calls, each in an environment that says
  which of its primitives fail;
* `Counted`, `step` : the engine with the number of `record_to` calls of a batch counted;
* `WellFormed` : the invariant of the engine under all calls;
* `InBudget` : the invariant of the number of sets, as long as batches start with the cursor at 0;
* `run_distinct_bounded` : **distinct sets always, and a bounded pool in runs of that kind**;
* `length_abandoned` : **abandoned batches let the pool grow**.
-/

namespace VllmVulkan

namespace Descriptors

open Machine

/-- `POOL_SETS`. -/
def poolSets : ℕ := 256

/-- `ComputeEngine`, as far as the descriptor sets go. -/
structure ComputeEngine where
  /-- The names in `pipeline_cache`. -/
  shaders : List String
  /-- `descriptor_pools`, by their number. -/
  descriptorPools : ℕ
  /-- `descriptor_sets`. -/
  descriptorSets : List ℕ
  /-- `ds_cursor`. -/
  dsCursor : ℕ
  /-- The handle that the driver gives out next. -/
  nextHandle : ℕ
  /-- The command buffer is recording. -/
  recording : Bool
  /-- The sets bound by the dispatches in the command buffer. -/
  bound : List ℕ
  deriving DecidableEq, Repr

/-- How a call fails. -/
inductive Failure where
  | err (msg : String)
  | panics
  deriving DecidableEq, Repr

/-- What the driver answers during one call: the error of each primitive that fails. -/
structure Driver where
  resetCommandBuffer : Option String
  beginCommandBuffer : Option String
  createDescriptorPool : Option String
  allocateDescriptorSets : Option String
  endCommandBuffer : Option String
  queueSubmit : Option String
  waitForFences : Option String
  resetFences : Option String
  deriving DecidableEq, Repr

/-- A driver that does what it is asked. -/
def Driver.calm : Driver := ⟨none, none, none, none, none, none, none, none⟩

/-- The engine after a call, and how the call ended. -/
abbrev Result := Except Failure Unit × ComputeEngine

/-- The `?` operator. -/
def Result.andThen (r : Result) (next : ComputeEngine → Result) : Result :=
  match r with
  | (.error f, e) => (.error f, e)
  | (.ok (), e) => next e

theorem Result.andThen_rule {r : Result} {next : ComputeEngine → Result}
    {P Q : ComputeEngine → Prop} (hr : P r.2) (herr : ∀ e, P e → Q e)
    (hnext : ∀ e, P e → Q (next e).2) : Q (r.andThen next).2 := by
  obtain ⟨f | ⟨⟩, e⟩ := r
  · exact herr e hr
  · exact hnext e hr

theorem Result.andThen_ne_panics {r : Result} {next : ComputeEngine → Result}
    {P : ComputeEngine → Prop} (hr : P r.2) (hne : r.1 ≠ .error .panics)
    (hnext : ∀ e, P e → (next e).1 ≠ .error .panics) : (r.andThen next).1 ≠ .error .panics := by
  obtain ⟨f | ⟨⟩, e⟩ := r
  · exact hne
  · exact hnext e hr

namespace ComputeEngine

variable (e : ComputeEngine) (driver : Driver)

/-- The engine with one more pool. -/
def grown : ComputeEngine :=
  { e with
    descriptorPools := e.descriptorPools + 1
    descriptorSets := e.descriptorSets ++ List.range' e.nextHandle poolSets
    nextHandle := e.nextHandle + poolSets }

/-- The engine with one more set handed out. -/
def taken : ComputeEngine := { e with dsCursor := e.dsCursor + 1 }

/-- The engine with a dispatch recorded that binds `ds`: a command reaches the command buffer only
while that is recording. -/
def recorded (ds : ℕ) : ComputeEngine :=
  if e.recording then { e with bound := e.bound ++ [ds] } else e

/-- `grow_descriptor_pool`. -/
def growDescriptorPool : Result :=
  match driver.createDescriptorPool, driver.allocateDescriptorSets with
  | some msg, _ => (.error (.err s!"create_descriptor_pool: {msg}"), e)
  | none, some msg => (.error (.err s!"allocate_descriptor_sets: {msg}"), e)
  | none, none => (.ok (), e.grown)

/-- The growth inside `next_descriptor_set`. -/
def ensureDescriptorSet : Result :=
  if e.dsCursor ≥ e.descriptorSets.length then e.growDescriptorPool driver else (.ok (), e)

/-- `next_descriptor_set`. -/
def nextDescriptorSet : Except Failure ℕ × ComputeEngine :=
  match e.ensureDescriptorSet driver with
  | (.error f, e) => (.error f, e)
  | (.ok (), e) =>
    match e.descriptorSets[e.dsCursor]? with
    | none => (.error .panics, e)
    | some ds => (.ok ds, e.taken)

/-- `begin_one_shot`. -/
def beginOneShot : Result :=
  match driver.resetCommandBuffer, driver.beginCommandBuffer with
  | some msg, _ => (.error (.err s!"reset_command_buffer: {msg}"), e)
  | none, some msg =>
    (.error (.err s!"begin_command_buffer: {msg}"), { e with recording := false, bound := [] })
  | none, none => (.ok (), { e with recording := true, bound := [] })

/-- `end_and_submit`. -/
def endAndSubmit : Result :=
  let e := { e with recording := false }
  match driver.endCommandBuffer, driver.queueSubmit, driver.waitForFences, driver.resetFences with
  | some msg, _, _, _ => (.error (.err s!"end_command_buffer: {msg}"), e)
  | none, some msg, _, _ => (.error (.err s!"queue_submit: {msg}"), e)
  | none, none, some msg, _ => (.error (.err s!"wait_for_fences: {msg}"), e)
  | none, none, none, some msg => (.error (.err s!"reset_fences: {msg}"), e)
  | none, none, none, none => (.ok (), e)

/-- `record_to`.  The set is taken before the number of buffers is checked. -/
def recordTo (shaderName : String) (numBuffers : ℕ) : Result :=
  if shaderName ∉ e.shaders then (.error (.err s!"Shader '{shaderName}' not found"), e)
  else
    match e.nextDescriptorSet driver with
    | (.error f, e) => (.error f, e)
    | (.ok ds, e) =>
      if numBuffers > Context.maxBindings then
        (.error (.err
          s!"record_to: {numBuffers} buffers exceeds MAX_BINDINGS ({Context.maxBindings})"), e)
      else (.ok (), e.recorded ds)

/-- `submit_batch`. -/
def submitBatch : Result :=
  (e.endAndSubmit driver).andThen fun e => (.ok (), { e with dsCursor := 0 })

/-- `dispatch`. -/
def dispatch (shaderName : String) (numBuffers : ℕ) : Result :=
  (e.beginOneShot driver).andThen fun e =>
    (e.recordTo driver shaderName numBuffers).andThen fun e => e.submitBatch driver

end ComputeEngine

/-- `ComputeEngine::new`, which allocates the first pool. -/
def new (shaders : List String) : ComputeEngine where
  shaders := shaders
  descriptorPools := 1
  descriptorSets := List.range' 0 poolSets
  dsCursor := 0
  nextHandle := poolSets
  recording := false
  bound := []

/-! ### Runs -/

/-- A call. -/
inductive Call where
  | beginBatch
  | recordTo (shaderName : String) (numBuffers : ℕ)
  | submitBatch
  | dispatch (shaderName : String) (numBuffers : ℕ)
  deriving DecidableEq, Repr

/-- The engine, with the number of `record_to` calls of the batch counted. -/
structure Counted where
  engine : ComputeEngine
  /-- The calls since the batch began. -/
  batch : ℕ
  /-- The most calls made in one batch. -/
  largest : ℕ
  deriving DecidableEq, Repr

/-- The effect of a call on the engine. -/
def call (e : ComputeEngine) (driver : Driver) : Call → Result
  | .beginBatch => e.beginOneShot driver
  | .recordTo shaderName numBuffers => e.recordTo driver shaderName numBuffers
  | .submitBatch => e.submitBatch driver
  | .dispatch shaderName numBuffers => e.dispatch driver shaderName numBuffers

/-- The number of `record_to` calls of the batch, after a call. -/
def batchAfter (batch : ℕ) : Call → ℕ
  | .beginBatch => 0
  | .recordTo .. => batch + 1
  | .submitBatch => batch
  | .dispatch .. => 1

/-- One call. -/
def step (s : Counted) (i : Call × Driver) : Counted × Except Failure Unit :=
  (⟨(call s.engine i.2 i.1).2, batchAfter s.batch i.1, max s.largest (batchAfter s.batch i.1)⟩,
    (call s.engine i.2 i.1).1)

/-- A new engine. -/
def start (shaders : List String) : Counted := ⟨new shaders, 0, 0⟩

/-- The sets for batches of at most `m` calls: whole pools, and at least one. -/
def poolBound (m : ℕ) : ℕ := poolSets * max 1 (ceilDiv m poolSets)

namespace ComputeEngine

variable {e g : ComputeEngine} {driver : Driver} {shaderName : String} {numBuffers ds b m : ℕ}

/-! ### What a call does -/

/-- The engine `g` is `e`, with one more pool if `e` has no set left. -/
def Ready (e g : ComputeEngine) : Prop :=
  (e.dsCursor < e.descriptorSets.length ∧ g = e) ∨
    (e.descriptorSets.length ≤ e.dsCursor ∧ g = e.grown)

theorem growDescriptorPool_cases (e : ComputeEngine) (driver : Driver) :
    (driver ≠ .calm ∧ ∃ msg, e.growDescriptorPool driver = (.error (.err msg), e)) ∨
      e.growDescriptorPool driver = (.ok (), e.grown) := by
  unfold growDescriptorPool
  split
  case h_1 h => exact .inl ⟨fun hcalm => by simp [hcalm, Driver.calm] at h, _, rfl⟩
  case h_2 h => exact .inl ⟨fun hcalm => by simp [hcalm, Driver.calm] at h, _, rfl⟩
  case h_3 => exact .inr rfl

theorem ensureDescriptorSet_cases (e : ComputeEngine) (driver : Driver) :
    (driver ≠ .calm ∧ ∃ msg, e.ensureDescriptorSet driver = (.error (.err msg), e)) ∨
      ∃ g, Ready e g ∧ e.ensureDescriptorSet driver = (.ok (), g) := by
  unfold ensureDescriptorSet
  split_ifs with h
  · obtain herr | hok := growDescriptorPool_cases e driver
    · exact .inl herr
    · exact .inr ⟨_, .inr ⟨h, rfl⟩, hok⟩
  · exact .inr ⟨e, .inl ⟨by omega, rfl⟩, rfl⟩

theorem Ready.taken_cursor (h : Ready e g) : g.taken.dsCursor = e.dsCursor + 1 := by
  obtain ⟨-, rfl⟩ | ⟨-, rfl⟩ := h <;> rfl

/-- Where the cursor is not past the end, `next_descriptor_set` finds a set at it. -/
theorem Ready.exists_set (h : Ready e g) (hc : e.dsCursor ≤ e.descriptorSets.length) :
    ∃ ds, g.descriptorSets[g.dsCursor]? = some ds := by
  suffices hlt : g.dsCursor < g.descriptorSets.length from ⟨_, List.getElem?_eq_getElem hlt⟩
  obtain ⟨hlt, rfl⟩ | ⟨-, rfl⟩ := h
  · exact hlt
  · simp only [grown, List.length_append, List.length_range', poolSets]
    omega

theorem nextDescriptorSet_cases (driver : Driver) (hc : e.dsCursor ≤ e.descriptorSets.length) :
    (driver ≠ .calm ∧ ∃ msg, e.nextDescriptorSet driver = (.error (.err msg), e)) ∨
      ∃ g ds, Ready e g ∧ g.descriptorSets[g.dsCursor]? = some ds ∧
        e.nextDescriptorSet driver = (.ok ds, g.taken) := by
  unfold nextDescriptorSet
  obtain ⟨hdriver, msg, h⟩ | ⟨g, hg, h⟩ := ensureDescriptorSet_cases e driver
  · exact .inl ⟨hdriver, msg, by rw [h]⟩
  · obtain ⟨ds, hds⟩ := hg.exists_set hc
    exact .inr ⟨g, ds, hg, hds, by rw [h]; simp only [hds]⟩

/-- `record_to` fails before it takes a set, or after it, or records the dispatch. -/
theorem recordTo_cases (driver : Driver) (shaderName : String) (numBuffers : ℕ)
    (hc : e.dsCursor ≤ e.descriptorSets.length) :
    ((shaderName ∉ e.shaders ∨ driver ≠ .calm) ∧
        ∃ msg, e.recordTo driver shaderName numBuffers = (.error (.err msg), e)) ∨
      ∃ g ds, Ready e g ∧ g.descriptorSets[g.dsCursor]? = some ds ∧
        ((∃ msg, e.recordTo driver shaderName numBuffers = (.error (.err msg), g.taken)) ∨
          (numBuffers ≤ Context.maxBindings ∧
            e.recordTo driver shaderName numBuffers = (.ok (), g.taken.recorded ds))) := by
  unfold recordTo
  by_cases hshader : shaderName ∉ e.shaders
  · exact .inl ⟨.inl hshader, _, if_pos hshader⟩
  rw [if_neg hshader]
  obtain ⟨hdriver, msg, h⟩ | ⟨g, ds, hg, hds, h⟩ := nextDescriptorSet_cases driver hc
  · exact .inl ⟨.inr hdriver, msg, by rw [h]⟩
  · refine .inr ⟨g, ds, hg, hds, ?_⟩
    rw [h]
    by_cases hn : numBuffers > Context.maxBindings
    · exact .inl ⟨_, if_pos hn⟩
    · exact .inr ⟨not_lt.1 hn, if_neg hn⟩

/-- `begin_one_shot` leaves the sets alone, and it ends with a command buffer with no dispatch in it
or with the one there was. -/
theorem beginOneShot_cases (e : ComputeEngine) (driver : Driver) :
    (∃ msg, e.beginOneShot driver = (.error (.err msg), e)) ∨
      (∃ msg, e.beginOneShot driver =
        (.error (.err msg), { e with recording := false, bound := [] })) ∨
      e.beginOneShot driver = (.ok (), { e with recording := true, bound := [] }) := by
  unfold beginOneShot
  split
  · exact .inl ⟨_, rfl⟩
  · exact .inr (.inl ⟨_, rfl⟩)
  · exact .inr (.inr rfl)

theorem endAndSubmit_cases (e : ComputeEngine) (driver : Driver) :
    (∃ msg, e.endAndSubmit driver = (.error (.err msg), { e with recording := false })) ∨
      e.endAndSubmit driver = (.ok (), { e with recording := false }) := by
  unfold endAndSubmit
  split
  · exact .inl ⟨_, rfl⟩
  · exact .inl ⟨_, rfl⟩
  · exact .inl ⟨_, rfl⟩
  · exact .inl ⟨_, rfl⟩
  · exact .inr rfl

theorem submitBatch_cases (e : ComputeEngine) (driver : Driver) :
    (∃ msg, e.submitBatch driver = (.error (.err msg), { e with recording := false })) ∨
      e.submitBatch driver = (.ok (), { e with recording := false, dsCursor := 0 }) := by
  unfold submitBatch
  obtain ⟨msg, h⟩ | h := endAndSubmit_cases e driver
  · exact .inl ⟨msg, by rw [h, Result.andThen]⟩
  · exact .inr (by rw [h, Result.andThen])

/-! ### Distinct sets -/

/-- The invariant of the engine: the sets below the cursor are the ones in use. -/
structure WellFormed (e : ComputeEngine) : Prop where
  length_eq : e.descriptorSets.length = poolSets * e.descriptorPools
  nodup : e.descriptorSets.Nodup
  lt_nextHandle : ∀ ds ∈ e.descriptorSets, ds < e.nextHandle
  cursor_le : e.dsCursor ≤ e.descriptorSets.length
  bound_nodup : e.bound.Nodup
  bound_taken : e.recording → ∀ ds ∈ e.bound, ds ∈ e.descriptorSets.take e.dsCursor

namespace WellFormed

theorem new (shaders : List String) : (Descriptors.new shaders).WellFormed where
  length_eq := by simp [Descriptors.new]
  nodup := List.nodup_range'
  lt_nextHandle ds h := by
    obtain ⟨-, h⟩ := List.mem_range'_1.1 h
    simpa [Descriptors.new] using h
  cursor_le := Nat.zero_le _
  bound_nodup := List.nodup_nil
  bound_taken h := by cases h

theorem grown (h : e.WellFormed) : e.grown.WellFormed where
  length_eq := by
    simp only [ComputeEngine.grown, List.length_append, List.length_range', h.length_eq]
    ring
  nodup := by
    refine List.nodup_append.2 ⟨h.nodup, List.nodup_range', fun a ha b hb => ?_⟩
    have hlt := h.lt_nextHandle a ha
    obtain ⟨hle, -⟩ := List.mem_range'_1.1 hb
    omega
  lt_nextHandle ds hds := by
    simp only [ComputeEngine.grown]
    obtain hds | hds := List.mem_append.1 hds
    · exact (h.lt_nextHandle ds hds).trans_le (Nat.le_add_right ..)
    · exact (List.mem_range'_1.1 hds).2
  cursor_le := by
    simp only [ComputeEngine.grown, List.length_append]
    exact h.cursor_le.trans (Nat.le_add_right ..)
  bound_nodup := h.bound_nodup
  bound_taken hrec ds hds := by
    simp only [ComputeEngine.grown, List.take_append_of_le_length h.cursor_le]
    exact h.bound_taken hrec ds hds

theorem ready (h : e.WellFormed) (hg : Ready e g) : g.WellFormed := by
  obtain ⟨-, rfl⟩ | ⟨-, rfl⟩ := hg
  · exact h
  · exact h.grown

theorem taken (h : e.WellFormed) (hds : e.descriptorSets[e.dsCursor]? = some ds) :
    e.taken.WellFormed where
  length_eq := h.length_eq
  nodup := h.nodup
  lt_nextHandle := h.lt_nextHandle
  cursor_le := (List.getElem?_eq_some_iff.1 hds).1
  bound_nodup := h.bound_nodup
  bound_taken hrec ds' hds' :=
    (List.take_subset_take_left _ (Nat.le_succ _)) (h.bound_taken hrec ds' hds')

/-- The set at the cursor is not among the ones in use, so the dispatches keep distinct sets. -/
theorem recorded (h : e.WellFormed) (hds : e.descriptorSets[e.dsCursor]? = some ds) :
    (e.taken.recorded ds).WellFormed := by
  have ht := h.taken hds
  unfold ComputeEngine.recorded
  split_ifs with hrec
  · have htake : e.taken.descriptorSets.take e.taken.dsCursor =
        e.descriptorSets.take e.dsCursor ++ [ds] := by
      simp only [ComputeEngine.taken, List.take_add_one, hds, Option.toList_some]
    have hfresh : ds ∉ e.bound := fun hmem => by
      have hnodup := htake ▸ ht.nodup.sublist (List.take_sublist _ _)
      exact (List.nodup_append.1 hnodup).2.2 ds (h.bound_taken hrec ds hmem) ds (by simp) rfl
    exact { ht with
      bound_nodup := List.nodup_append.2
        ⟨h.bound_nodup, by simp, fun a ha b hb => by
          obtain rfl := List.mem_singleton.1 hb
          rintro rfl
          exact hfresh ha⟩
      bound_taken := fun _ ds' hds' => by
        simp only [htake]
        obtain hds' | hds' := List.mem_append.1 hds'
        · exact List.mem_append_left _ (h.bound_taken hrec ds' hds')
        · exact List.mem_append_right _ hds' }
  · exact ht

theorem beginOneShot (h : e.WellFormed) (driver : Driver) :
    (e.beginOneShot driver).2.WellFormed := by
  obtain ⟨msg, heq⟩ | ⟨msg, heq⟩ | heq := beginOneShot_cases e driver <;> rw [heq]
  · exact h
  · exact { h with bound_nodup := List.nodup_nil, bound_taken := fun hrec => by cases hrec }
  · exact { h with bound_nodup := List.nodup_nil, bound_taken := fun _ ds hds => by cases hds }

theorem recordTo (h : e.WellFormed) (driver : Driver) (shaderName : String) (numBuffers : ℕ) :
    (e.recordTo driver shaderName numBuffers).2.WellFormed := by
  obtain ⟨-, msg, heq⟩ | ⟨g, ds, hg, hds, ⟨msg, heq⟩ | ⟨-, heq⟩⟩ :=
    recordTo_cases driver shaderName numBuffers h.cursor_le <;> rw [heq]
  · exact h
  · exact (h.ready hg).taken hds
  · exact (h.ready hg).recorded hds

theorem submitBatch (h : e.WellFormed) (driver : Driver) :
    (e.submitBatch driver).2.WellFormed := by
  obtain ⟨msg, heq⟩ | heq := submitBatch_cases e driver <;> rw [heq]
  · exact { h with bound_taken := fun hrec => by cases hrec }
  · exact { h with cursor_le := Nat.zero_le _, bound_taken := fun hrec => by cases hrec }

theorem dispatch (h : e.WellFormed) (driver : Driver) (shaderName : String) (numBuffers : ℕ) :
    (e.dispatch driver shaderName numBuffers).2.WellFormed := by
  refine Result.andThen_rule (h.beginOneShot driver) (fun _ h => h) ?_
  intro e h
  refine Result.andThen_rule (h.recordTo driver shaderName numBuffers) (fun _ h => h) ?_
  intro e h
  exact h.submitBatch driver

end WellFormed

theorem WellFormed.call (h : e.WellFormed) (driver : Driver) (c : Call) :
    (call e driver c).2.WellFormed := by
  cases c with
  | beginBatch => exact h.beginOneShot driver
  | recordTo shaderName numBuffers => exact h.recordTo driver shaderName numBuffers
  | submitBatch => exact h.submitBatch driver
  | dispatch shaderName numBuffers => exact h.dispatch driver shaderName numBuffers

/-- Every failure is an `Err`: the index of `next_descriptor_set` is in range. -/
theorem WellFormed.call_ne_panics (h : e.WellFormed) (driver : Driver) (c : Call) :
    (Descriptors.call e driver c).1 ≠ .error .panics := by
  have hbegin (e : ComputeEngine) : (e.beginOneShot driver).1 ≠ .error .panics := by
    obtain ⟨msg, heq⟩ | ⟨msg, heq⟩ | heq := beginOneShot_cases e driver <;> simp [heq]
  have hrecord {e : ComputeEngine} (h : e.WellFormed) (shaderName : String) (numBuffers : ℕ) :
      (e.recordTo driver shaderName numBuffers).1 ≠ .error .panics := by
    obtain ⟨-, msg, heq⟩ | ⟨g, ds, hg, hds, ⟨msg, heq⟩ | ⟨-, heq⟩⟩ :=
      recordTo_cases driver shaderName numBuffers h.cursor_le <;> simp [heq]
  have hsubmit (e : ComputeEngine) : (e.submitBatch driver).1 ≠ .error .panics := by
    obtain ⟨msg, heq⟩ | heq := submitBatch_cases e driver <;> simp [heq]
  cases c with
  | beginBatch => exact hbegin e
  | recordTo shaderName numBuffers => exact hrecord h shaderName numBuffers
  | submitBatch => exact hsubmit e
  | dispatch shaderName numBuffers =>
    refine Result.andThen_ne_panics (h.beginOneShot driver) (hbegin e) ?_
    intro e h
    refine Result.andThen_ne_panics (h.recordTo driver shaderName numBuffers)
      (hrecord h shaderName numBuffers) fun e _ => ?_
    exact hsubmit e

/-! ### The number of sets -/

/-- The sets that `b` calls of one batch need, in an engine whose largest batch has `m` of them. -/
structure Within (e : ComputeEngine) (b m : ℕ) : Prop where
  cursor_le : e.dsCursor ≤ b
  length_le : e.descriptorSets.length ≤ poolBound m

end ComputeEngine

theorem poolBound_mono {m m' : ℕ} (h : m ≤ m') : poolBound m ≤ poolBound m' := by
  have : ceilDiv m poolSets ≤ ceilDiv m' poolSets :=
    Nat.div_le_div_right (by omega)
  unfold poolBound
  gcongr

theorem poolBound_succ_of_lt {c : ℕ} (h : c < poolBound c) : poolBound (c + 1) = poolBound c := by
  unfold poolBound ceilDiv poolSets at *
  omega

theorem poolBound_succ_of_le {c : ℕ} (h : poolBound c ≤ c) :
    poolBound (c + 1) = poolBound c + poolSets := by
  unfold poolBound ceilDiv poolSets at *
  omega

/-- A batch that takes the first set of pool `p + 1` has room for that pool. -/
theorem pools_le_poolBound {p m : ℕ} (h : poolSets * p < m) : poolSets * (p + 1) ≤ poolBound m := by
  have : p + 1 ≤ ceilDiv m poolSets := by
    unfold ceilDiv poolSets at *
    omega
  unfold poolBound
  gcongr
  omega


namespace ComputeEngine

variable {e g : ComputeEngine} {b m : ℕ}

theorem Within.ready (h : e.Within b m) (hwf : e.WellFormed) (hb : b + 1 ≤ m)
    (hg : Ready e g) : g.Within b m := by
  obtain ⟨-, rfl⟩ | ⟨hle, rfl⟩ := hg
  · exact h
  · refine ⟨h.cursor_le, ?_⟩
    rw [hwf.grown.length_eq]
    apply pools_le_poolBound
    have := hwf.length_eq
    have := h.cursor_le
    omega

theorem Within.taken (h : e.Within b m) : e.taken.Within (b + 1) m :=
  ⟨Nat.succ_le_succ h.cursor_le, h.length_le⟩

theorem Within.recorded (h : e.Within b m) (ds : ℕ) : (e.recorded ds).Within b m := by
  unfold ComputeEngine.recorded
  split_ifs
  · exact ⟨h.cursor_le, h.length_le⟩
  · exact h

theorem Within.recordTo (h : e.Within b m) (hwf : e.WellFormed) (hb : b + 1 ≤ m)
    (driver : Driver) (shaderName : String) (numBuffers : ℕ) :
    (e.recordTo driver shaderName numBuffers).2.Within (b + 1) m := by
  obtain ⟨-, msg, heq⟩ | ⟨g, ds, hg, hds, ⟨msg, heq⟩ | ⟨-, heq⟩⟩ :=
    recordTo_cases driver shaderName numBuffers hwf.cursor_le <;> rw [heq]
  · exact ⟨h.cursor_le.trans (Nat.le_succ b), h.length_le⟩
  · exact (h.ready hwf hb hg).taken
  · exact (h.ready hwf hb hg).taken.recorded ds

theorem Within.beginOneShot (h : e.Within b m) (driver : Driver) :
    (e.beginOneShot driver).2.Within b m := by
  obtain ⟨msg, heq⟩ | ⟨msg, heq⟩ | heq := beginOneShot_cases e driver <;> rw [heq] <;>
    exact ⟨h.cursor_le, h.length_le⟩

theorem Within.submitBatch (h : e.Within b m) (driver : Driver) :
    (e.submitBatch driver).2.Within b m := by
  obtain ⟨msg, heq⟩ | heq := submitBatch_cases e driver <;> rw [heq]
  · exact ⟨h.cursor_le, h.length_le⟩
  · exact ⟨Nat.zero_le b, h.length_le⟩

/-- A `dispatch` that starts with the cursor at 0 is a batch of one call. -/
theorem Within.dispatch (h : e.Within 0 m) (hwf : e.WellFormed) (hm : 1 ≤ m) (driver : Driver)
    (shaderName : String) (numBuffers : ℕ) :
    (e.dispatch driver shaderName numBuffers).2.Within 1 m := by
  refine Result.andThen_rule (P := fun e => e.Within 0 m ∧ e.WellFormed)
    (Q := fun e => e.Within 1 m) ⟨h.beginOneShot driver, hwf.beginOneShot driver⟩
    (fun e h => ⟨h.1.cursor_le.trans zero_le_one, h.1.length_le⟩) fun e h => ?_
  refine Result.andThen_rule (P := fun e => e.Within 1 m)
    (h.1.recordTo h.2 hm driver shaderName numBuffers) (fun _ h => h) fun e h => ?_
  exact h.submitBatch driver

end ComputeEngine

/-- A batch starts with the cursor at 0: no batch that took a set was abandoned before it. -/
def StartsFresh (s : Counted) (i : Call × Driver) : Prop :=
  match i.1 with
  | .beginBatch | .dispatch .. => s.engine.dsCursor = 0
  | .recordTo .. | .submitBatch => True

instance (s : Counted) : DecidablePred (StartsFresh s) := fun ⟨c, _⟩ =>
  match c with
  | .beginBatch | .dispatch .. => inferInstanceAs (Decidable (s.engine.dsCursor = 0))
  | .recordTo .. | .submitBatch => .isTrue trivial

/-- The sets handed out to the batch are at most its calls, and the pools are within the bound of
the largest batch. -/
structure InBudget (s : Counted) : Prop where
  within : s.engine.Within s.batch s.largest
  batch_le : s.batch ≤ s.largest

theorem InBudget.step {s : Counted} (h : InBudget s) (hwf : s.engine.WellFormed)
    {i : Call × Driver} (hi : StartsFresh s i) : InBudget (step s i).1 := by
  obtain ⟨c, driver⟩ := i
  refine ⟨?_, le_max_right _ _⟩
  have hlarger : s.engine.Within s.batch (max s.largest (batchAfter s.batch c)) :=
    ⟨h.within.cursor_le, h.within.length_le.trans (poolBound_mono (le_max_left _ _))⟩
  have hfresh (h0 : s.engine.dsCursor = 0) :
      s.engine.Within 0 (max s.largest (batchAfter s.batch c)) := ⟨h0.le, hlarger.length_le⟩
  cases c with
  | beginBatch => exact (hfresh hi).beginOneShot driver
  | recordTo shaderName numBuffers =>
    exact hlarger.recordTo hwf (le_max_right _ _) driver shaderName numBuffers
  | submitBatch => exact hlarger.submitBatch driver
  | dispatch shaderName numBuffers =>
    exact (hfresh hi).dispatch hwf (le_max_right _ _) driver shaderName numBuffers

theorem new_length (shaders : List String) : (new shaders).descriptorSets.length = poolBound 0 :=
  List.length_range'

theorem InBudget.start (shaders : List String) : InBudget (start shaders) where
  within := ⟨Nat.zero_le _, (new_length shaders).le⟩
  batch_le := le_rfl

/-- **Distinct sets always, and a bounded pool in runs whose batches start with the cursor at
0.** -/
theorem run_distinct_bounded (shaders : List String) (calls : List (Call × Driver)) :
    (∀ τ ∈ transitions step (start shaders) calls, τ.post.engine.bound.Nodup) ∧
      ((∀ τ ∈ transitions step (start shaders) calls, StartsFresh τ.pre τ.input) →
        ∀ τ ∈ transitions step (start shaders) calls,
          τ.post.engine.descriptorSets.length ≤ poolBound τ.post.largest) := by
  have hkeep (s : Counted) (i : Call × Driver) (h : s.engine.WellFormed) :
      (step s i).1.engine.WellFormed := h.call i.2 i.1
  constructor
  · have hstep (s : Counted) (i : Call × Driver) (h : s.engine.WellFormed) (_ : True) :
        (step s i).1.engine.WellFormed := hkeep s i h
    exact forall_transitions hstep (fun s i h _ => (hkeep s i h).bound_nodup) (.new shaders)
      fun _ _ => trivial
  · have hstep (s : Counted) (i : Call × Driver) (h : s.engine.WellFormed ∧ InBudget s)
        (hi : StartsFresh s i) : (step s i).1.engine.WellFormed ∧ InBudget (step s i).1 :=
      ⟨hkeep s i h.1, h.2.step h.1 hi⟩
    intro hfresh
    exact forall_transitions hstep (fun s i h hi => (h.2.step h.1 hi).within.length_le)
      ⟨.new shaders, .start shaders⟩ hfresh

theorem run_distinct_bounded_batch :
    (∀ τ ∈ transitions step (start ["silu_f32"]) [(.beginBatch, .calm),
        (.recordTo "silu_f32" 2, .calm), (.recordTo "silu_f32" 13, .calm), (.submitBatch, .calm),
        (.dispatch "silu_f32" 2, .calm)], StartsFresh τ.pre τ.input) ∧
      ∀ τ ∈ transitions step (start ["silu_f32"]) [(.beginBatch, .calm),
        (.recordTo "silu_f32" 2, .calm), (.recordTo "silu_f32" 13, .calm), (.submitBatch, .calm),
        (.dispatch "silu_f32" 2, .calm)],
        τ.post.engine.descriptorSets.length ≤ poolBound τ.post.largest :=
  ⟨by decide, (run_distinct_bounded ["silu_f32"] _).2 (by decide)⟩

/-! ### Abandoned batches -/

/-- The calls of `k` batches, each abandoned after a `record_to` with more buffers than a descriptor
set has bindings. -/
def abandonedBatches (shaderName : String) : ℕ → List (Call × Driver)
  | 0 => []
  | k + 1 => (.beginBatch, .calm) :: (.recordTo shaderName (Context.maxBindings + 1), .calm) ::
      abandonedBatches shaderName k

/-- The state after `c` abandoned batches. -/
structure Abandoned (shaderName : String) (c : ℕ) (s : Counted) : Prop where
  wellFormed : s.engine.WellFormed
  shader_mem : shaderName ∈ s.engine.shaders
  cursor_eq : s.engine.dsCursor = c
  length_eq : s.engine.descriptorSets.length = poolBound c
  largest_le : s.largest ≤ 1

/-- A set is lost with every abandoned batch, and a pool is added when there is none left. -/
theorem Abandoned.step {shaderName : String} {c : ℕ} {s : Counted} (h : Abandoned shaderName c s) :
    Abandoned shaderName (c + 1) (step (step s (.beginBatch, .calm)).1
      (.recordTo shaderName (Context.maxBindings + 1), .calm)).1 := by
  set e : ComputeEngine := { s.engine with recording := true, bound := [] } with he
  have hbegin : s.engine.beginOneShot .calm = (.ok (), e) := rfl
  have hwf : e.WellFormed := by
    simpa only [hbegin] using h.wellFormed.beginOneShot .calm
  obtain ⟨hno | hno, -⟩ | ⟨g, ds, hg, hds, ⟨msg, heq⟩ | ⟨hn, -⟩⟩ := ComputeEngine.recordTo_cases
    .calm shaderName (Context.maxBindings + 1) hwf.cursor_le
  · exact absurd h.shader_mem hno
  · exact absurd rfl hno
  · have hstep : (Descriptors.step (Descriptors.step s (.beginBatch, .calm)).1
        (.recordTo shaderName (Context.maxBindings + 1), .calm)).1 =
        ⟨g.taken, 1, max (max s.largest 0) 1⟩ := by
      simp only [Descriptors.step, call, hbegin, heq, batchAfter, zero_add]
    rw [hstep]
    have hlargest : max (max s.largest 0) 1 ≤ 1 := by simp [h.largest_le]
    have hcursor : g.taken.dsCursor = c + 1 := by rw [← h.cursor_eq, hg.taken_cursor]
    refine ⟨(hwf.ready hg).taken hds, ?_, hcursor, ?_, hlargest⟩
    · obtain ⟨-, rfl⟩ | ⟨-, rfl⟩ := hg <;> exact h.shader_mem
    · obtain ⟨hlt, rfl⟩ | ⟨hle, rfl⟩ := hg
      · rw [he, h.cursor_eq, h.length_eq] at hlt
        exact h.length_eq.trans (poolBound_succ_of_lt hlt).symm
      · rw [he, h.cursor_eq, h.length_eq] at hle
        rw [poolBound_succ_of_le hle, ← h.length_eq]
        exact List.length_append.trans (congrArg _ List.length_range')
  · omega

theorem Abandoned.run {shaderName : String} {c : ℕ} {s : Counted} (h : Abandoned shaderName c s)
    (k : ℕ) : Abandoned shaderName (c + k)
      (finalState Descriptors.step s (abandonedBatches shaderName k)) := by
  induction k generalizing c s with
  | zero => exact h
  | succ k ih => exact Nat.add_right_comm c 1 k ▸ ih h.step

/-- **Abandoned batches let the pool grow**: by a pool for every 256 of them. -/
theorem length_abandoned {shaderName : String} {shaders : List String} (h : shaderName ∈ shaders)
    (k : ℕ) :
    (finalState step (start shaders) (abandonedBatches shaderName k)).largest ≤ 1 ∧
      (finalState step (start shaders)
        (abandonedBatches shaderName k)).engine.descriptorSets.length = poolBound k := by
  have hstart : Abandoned shaderName 0 (start shaders) :=
    ⟨.new shaders, h, rfl, new_length shaders, Nat.zero_le 1⟩
  have hrun := hstart.run k
  rw [Nat.zero_add] at hrun
  exact ⟨hrun.largest_le, hrun.length_eq⟩

/-- With 257 abandoned batches of one call, 512 sets are allocated. -/
theorem abandoned_exceeds :
    ¬ ∀ τ ∈ transitions step (start ["silu_f32"]) (abandonedBatches "silu_f32" 257),
      τ.post.engine.descriptorSets.length ≤ poolBound τ.post.largest := by
  intro h
  have hfinal := forall_finalState
    (P := fun s : Counted => s.engine.descriptorSets.length ≤ poolBound s.largest)
    (InBudget.start _).within.length_le h
  obtain ⟨hlargest, hlength⟩ := length_abandoned (List.mem_singleton.2 rfl : "silu_f32" ∈ _) 257
  rw [hlength] at hfinal
  have := hfinal.trans (poolBound_mono hlargest)
  revert this
  decide

end Descriptors

end VllmVulkan
