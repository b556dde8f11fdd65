import VllmVulkan.Context.Handles
import Mathlib.Data.Finset.Card

/-!
# The contexts that made the buffers

The calls made so far say on which context each buffer was made: the buffer of a weight on the
context installed at the first upload that succeeded since its storage was allocated, the mirror of
a KV entry on the one installed when the entry was created.  No lookup compares that context with
the one installed now.

* `asks`, `Submits` : the weights a call asks for, and whether it submits, in the state before it;
* `History`, `history` : the contexts the buffers were made on, from the calls made so far;
* `OnMakers` : the condition on a call: what it binds was made on the context installed now, or
  `execute_batch` refuses a handle;
* `own_iff` : **GPU buffers stay with their context exactly when every call meets it**;
* `own_of_one_context` : a single context;
* `stale_handles` : a weight, a weight of a child process and a KV mirror used after a switch.
-/

namespace VllmVulkan

namespace Handles

open Machine Attention

/-! ### What a call asks for -/

/-- The weights a call asks for, in order, with what becomes of their uploads, in the state
before it. -/
def asks (st : Weights.State) (ctx : Weights.Ctx) (call : Weights.Call) : List (ℕ × Bool) :=
  let shaders := (Weights.cachedAvailableShaders st ctx).1
  match call with
  | .setContext _ _ => []
  | .preUpload w fails => if w.inFeat * w.outFeat > 0 then [(w.storage, fails)] else []
  | .linear t w fails =>
    if Weights.LinearDispatches shaders ctx t w then [(w.storage, fails)] else []
  | .rmsNormThenLinear t norm lin normFails linFails =>
    if Weights.NormFused shaders ctx t then [(norm.storage, normFails), (lin.storage, linFails)]
    else if Weights.LinearDispatches shaders ctx t lin then [(lin.storage, linFails)] else []
  | .fusedSwigluMlp t gateUp down gateUpFails downFails =>
    if Weights.MlpFused shaders ctx t gateUp down then
      [(gateUp.storage, gateUpFails), (down.storage, downFails)]
    else []

/-- A call gets as far as submitting ops.  A `RemoteVulkanContext` has no `execute_chained`. -/
def Submits (remote : Bool) (st : Weights.State) (ctx : Weights.Ctx) (call : Weights.Call) : Prop :=
  match call with
  | .setContext _ _ => False
  | .preUpload _ _ => False
  | .rmsNormThenLinear t _ _ _ _ =>
    (Weights.NormFused (Weights.cachedAvailableShaders st ctx).1 ctx t → remote = false) ∧
      asks st ctx call ≠ []
  | .linear _ _ _ => asks st ctx call ≠ []
  | .fusedSwigluMlp _ _ _ _ _ => asks st ctx call ≠ []

variable {st : Weights.State} {wctx : Weights.Ctx}

theorem linear_out (hc : st.ctx = some wctx) (t : ℕ) (w : Weights.Weight) (fails : Bool) :
    (Weights.LinearDispatches (Weights.cachedAvailableShaders st wctx).1 wctx t w ∧
      ∃ d, (Weights.linear st t w fails).2 = .ok [d]) ∨
    (¬ Weights.LinearDispatches (Weights.cachedAvailableShaders st wctx).1 wctx t w ∧
      (Weights.linear st t w fails).2 = .ok []) := by
  unfold Weights.linear Weights.LinearDispatches
  rw [Weights.cachedAvailableShaders_again]
  simp only [hc]
  by_cases ht : t < Weights.matvecThreshold
  · simp only [ht, if_true, true_and]
    split_ifs with hvec hmul
    · exact .inl ⟨hvec, _, rfl⟩
    · exact absurd ht (Nat.not_lt.2 hmul.2.1)
    · exact .inr ⟨hvec, rfl⟩
  · simp only [ht, if_false, false_and, and_false, if_false]
    split_ifs with hmul
    · exact .inl ⟨⟨hmul.1, hmul.2.2⟩, _, rfl⟩
    · exact .inr ⟨fun h => hmul ⟨h.1, Nat.le_of_not_lt ht, h.2⟩, rfl⟩

theorem requests_rmsNormThenLinear (hc : st.ctx = some wctx) (remote : Bool) (t : ℕ)
    (norm lin : Weights.Weight) (normFails linFails : Bool) :
    let call := Weights.Call.rmsNormThenLinear t norm lin normFails linFails
    requests call (Weights.step st call).2 = asks st wctx call ∧
      (submits remote call (Weights.step st call).2 = true ↔ Submits remote st wctx call) := by
  have hc' : (Weights.cachedAvailableShaders st wctx).1.ctx = some wctx := by
    rw [Weights.cachedAvailableShaders_ctx, hc]
  simp only [Weights.step, Submits, asks]
  unfold Weights.rmsNormThenLinear
  simp only [hc]
  by_cases hfused : Weights.NormFused (Weights.cachedAvailableShaders st wctx).1 wctx t
  · have hchain := hfused
    rw [Weights.NormFused, Weights.cachedAvailableShaders_again] at hchain
    rw [if_neg (by simp [hchain.1, hchain.2.1, hchain.2.2]), if_pos hfused]
    refine ⟨rfl, fun h => ⟨fun _ => ?_, List.cons_ne_nil _ _⟩, fun h => ?_⟩
    · simpa [submits] using h
    · simpa [submits] using h.1 hfused
  · have hchain := hfused
    rw [Weights.NormFused, Weights.cachedAvailableShaders_again] at hchain
    have hfallback : t ≥ Weights.matvecThreshold ∨
        "rms_norm_f32_mul" ∉ (Weights.cachedAvailableShaders st wctx).2 ∨
        "mul_mat_vec_f32_f32_f32" ∉ (Weights.cachedAvailableShaders st wctx).2 := by
      by_contra h
      simp only [not_or, not_not, ge_iff_le, Nat.not_le] at h
      exact hchain h
    rw [if_pos hfallback, if_neg hfused]
    have hagain := linear_out hc' t lin linFails
    rw [Weights.cachedAvailableShaders_again] at hagain
    obtain ⟨hdisp, d, hout⟩ | ⟨hdisp, hout⟩ := hagain
    · rw [hout, if_pos hdisp]
      exact ⟨rfl, fun _ => ⟨fun h => absurd h hfused, List.cons_ne_nil _ _⟩, fun _ => rfl⟩
    · rw [hout, if_neg hdisp]
      exact ⟨rfl, Bool.false_ne_true.elim, fun h => absurd rfl h.2⟩

theorem requests_fusedSwigluMlp (hc : st.ctx = some wctx) (remote : Bool) (t : ℕ)
    (gateUp down : Weights.Weight) (gateUpFails downFails : Bool) :
    let call := Weights.Call.fusedSwigluMlp t gateUp down gateUpFails downFails
    requests call (Weights.step st call).2 = asks st wctx call ∧
      (submits remote call (Weights.step st call).2 = true ↔ Submits remote st wctx call) := by
  simp only [Weights.step, Submits, asks]
  unfold Weights.fusedSwigluMlp
  simp only [hc]
  by_cases hfused : Weights.MlpFused (Weights.cachedAvailableShaders st wctx).1 wctx t gateUp down
  · have hsteps := hfused
    rw [Weights.MlpFused, Weights.cachedAvailableShaders_again] at hsteps
    obtain ⟨hsize, hswiglu, hgate, hdown⟩ := hsteps
    rw [if_neg hsize, if_neg (not_not.2 hswiglu), if_neg (by simp [hgate, hdown]), if_pos hfused]
    exact ⟨rfl, fun _ => List.cons_ne_nil _ _, fun _ => rfl⟩
  · have hsteps := hfused
    rw [Weights.MlpFused, Weights.cachedAvailableShaders_again] at hsteps
    rw [if_neg hfused]
    have hnone : ∀ e : Weights.Raised, requests
        (.fusedSwigluMlp t gateUp down gateUpFails downFails) (.error e) = [] ∧
        (submits remote (.fusedSwigluMlp t gateUp down gateUpFails downFails) (.error e) = true ↔
          ([] : List (ℕ × Bool)) ≠ []) :=
      fun e => ⟨rfl, Bool.false_ne_true.elim, fun h => absurd rfl h⟩
    by_cases hsize : gateUp.inFeat * gateUp.outFeat < Weights.matvecMinWeightElements ∨
        gateUp.outFeat / 2 * down.outFeat < Weights.matvecMinWeightElements
    · rw [if_pos hsize]
      exact hnone _
    rw [if_neg hsize]
    by_cases hswiglu : "swiglu_f32" ∈ (Weights.cachedAvailableShaders st wctx).2
    swap
    · rw [if_pos hswiglu]
      exact hnone _
    rw [if_neg (not_not.2 hswiglu), if_pos]
    · exact hnone _
    · by_contra hshaders
      simp only [not_or, not_not] at hshaders
      exact hsteps ⟨hsize, hswiglu, hshaders⟩

/-- **What a call asks for and whether it submits**, from the state before it. -/
theorem requests_eq (hc : st.ctx = some wctx) (remote : Bool) (call : Weights.Call) :
    requests call (Weights.step st call).2 = asks st wctx call ∧
      (submits remote call (Weights.step st call).2 = true ↔ Submits remote st wctx call) := by
  cases call with
  | setContext ctx software => exact ⟨rfl, Bool.false_ne_true.elim, False.elim⟩
  | preUpload w fails =>
    simp only [Weights.step, Weights.preUpload, hc, asks]
    split_ifs with hsize
    · exact ⟨by rw [requests, if_pos hsize], Bool.false_ne_true.elim, False.elim⟩
    · exact ⟨by rw [requests, if_neg hsize], Bool.false_ne_true.elim, False.elim⟩
  | linear t w fails =>
    simp only [Weights.step, Submits, asks]
    obtain ⟨hdisp, d, hout⟩ | ⟨hdisp, hout⟩ := linear_out hc t w fails
    · rw [hout, if_pos hdisp]
      exact ⟨rfl, fun _ => List.cons_ne_nil _ _, fun _ => rfl⟩
    · rw [hout, if_neg hdisp]
      exact ⟨rfl, Bool.false_ne_true.elim, fun h => absurd rfl h⟩
  | rmsNormThenLinear t norm lin normFails linFails =>
    exact requests_rmsNormThenLinear hc remote t norm lin normFails linFails
  | fusedSwigluMlp t gateUp down gateUpFails downFails =>
    exact requests_fusedSwigluMlp hc remote t gateUp down gateUpFails downFails

/-! ### The history of the buffers -/

variable {V : Type}

/-- Where the buffers were made, as the calls made so far say. -/
structure History where
  /-- The context installed at the first upload of a storage that succeeded since the storage was
  allocated. -/
  uploadedOn : ℕ → Option ℕ
  /-- The context installed when a KV entry was created, oldest entry first. -/
  createdOn : List ℕ

section

variable (contexts : ℕ → Context) (zero : V)

/-- What a call on a context finds of its weights, in order. -/
def World.asks (w : World V) (ctx : ℕ) (call : Weights.Call) : List (ℕ × Bool) :=
  Handles.asks w.weights ⟨(contexts ctx).shaders⟩ call

/-- A lookup of the layer creates an entry. -/
def World.Creates (w : World V) (ctx layer : ℕ) (allocFails : Option PyError)
    (uses : List (Use V)) : Prop :=
  (w.kv.lookup zero layer (w.allocActivation contexts ctx allocFails) uses).1.caches.entries.length
    ≠ w.kv.caches.entries.length

instance (w : World V) (ctx layer : ℕ) (allocFails : Option PyError) (uses : List (Use V)) :
    Decidable (w.Creates contexts zero ctx layer allocFails uses) := by
  unfold World.Creates
  infer_instance

/-- The history after one more call. -/
def History.add (h : History) (w : World V) : Call V → History
  | .weights call =>
    match w.installed with
    | none => h
    | some ctx =>
      { h with
        uploadedOn := fun s => (h.uploadedOn s).or
          (if (s, false) ∈ w.asks contexts ctx call then some ctx else none) }
  | .collect storage => { h with uploadedOn := Function.update h.uploadedOn storage none }
  | .attend fresh layer allocFails uses _ =>
    let w := w.getVulkanContext contexts fresh
    match w.installed with
    | none => h
    | some ctx =>
      if w.Creates contexts zero ctx layer allocFails uses then
        { h with createdOn := h.createdOn ++ [ctx] }
      else h
  | .setContext _ _ => h
  | .bind _ => h

/-- The history of the calls made so far. -/
def history (past : List (Transition (World V) (Call V) (Option Bound))) : History :=
  past.foldl (fun h τ => h.add contexts zero τ.pre τ.input) ⟨fun _ => none, []⟩

/-- The storages among those asked for that a call uploads. -/
def World.newUploads (w : World V) (rs : List (ℕ × Bool)) : Finset ℕ :=
  ((rs.filter fun r => w.weightHandles r.1 = none ∧ r.2 = false).map Prod.fst).toFinset

/-- **The condition on a call.**  Unless `execute_batch` refuses one of the handles it finds, every
storage and KV entry it binds has its buffer from the context that is installed now. -/
def OnMakers (past : List (Transition (World V) (Call V) (Option Bound))) (w : World V) :
    Call V → Prop
  | .weights call => ∀ ctx, w.installed = some ctx →
    Submits (contexts ctx).remote w.weights ⟨(contexts ctx).shaders⟩ call →
    (∀ h ∈ w.cachedWeights (w.asks contexts ctx call), Takes contexts ctx
      (w.created ctx + (w.newUploads (w.asks contexts ctx call)).card) h) →
    ∀ r ∈ w.asks contexts ctx call, ∀ maker ∈ (history contexts zero past).uploadedOn r.1,
      maker = ctx
  | .attend fresh layer _ _ submits => ∀ ctx,
    (w.getVulkanContext contexts fresh).installed = some ctx → submits = true →
    (∀ h ∈ w.cachedMirror layer, Takes contexts ctx (w.created ctx) h) →
    ∀ id ∈ w.kv.hit layer, ∀ maker ∈ (history contexts zero past).createdOn[id]?, maker = ctx
  | _ => True

end

variable {contexts : ℕ → Context} {zero : V} {w : World V} {ctx : ℕ}

namespace World

theorem uploadAll_owner (w : World V) (ctx : ℕ) (rs : List (ℕ × Bool)) (s : ℕ) :
    ((w.uploadAll ctx rs).1.weightHandles s).map Handle.owner =
      ((w.weightHandles s).map Handle.owner).or (if (s, false) ∈ rs then some ctx else none) := by
  induction rs generalizing w with
  | nil => simp [uploadAll]
  | cons r rs ih =>
    obtain ⟨storage, fails⟩ := r
    rw [uploadAll, ih]
    unfold getOrUploadWeight
    cases hs : w.weightHandles storage with
    | some h =>
      by_cases heq : s = storage
      · simp [heq, hs]
      · simp [heq]
    | none =>
      cases fails with
      | true => simp
      | false =>
        by_cases heq : s = storage
        · simp [heq, hs]
        · simp [heq]

theorem uploadAll_frame (w : World V) (ctx : ℕ) (rs : List (ℕ × Bool)) :
    (w.uploadAll ctx rs).1.activations = w.activations ∧
      (w.uploadAll ctx rs).1.kv = w.kv := by
  induction rs generalizing w with
  | nil => exact ⟨rfl, rfl⟩
  | cons r rs ih =>
    obtain ⟨storage, fails⟩ := r
    rw [uploadAll, (ih _).1, (ih _).2]
    unfold getOrUploadWeight
    cases w.weightHandles storage with
    | some h => exact ⟨rfl, rfl⟩
    | none => cases fails <;> exact ⟨rfl, rfl⟩

theorem mem_newUploads {rs : List (ℕ × Bool)} {s : ℕ} :
    s ∈ w.newUploads rs ↔ (s, false) ∈ rs ∧ w.weightHandles s = none := by
  simp only [newUploads, List.mem_toFinset, List.mem_map, List.mem_filter, decide_eq_true_eq,
    Prod.exists]
  constructor
  · rintro ⟨_, fails, ⟨hr, hs, rfl⟩, rfl⟩
    exact ⟨hr, hs⟩
  · rintro ⟨hr, hs⟩
    exact ⟨s, false, ⟨hr, hs, rfl⟩, rfl⟩

/-- The uploads of a call create one tensor for each storage that has none and succeeds. -/
theorem uploadAll_created (w : World V) (ctx : ℕ) (rs : List (ℕ × Bool)) :
    (w.uploadAll ctx rs).1.created ctx = w.created ctx + (w.newUploads rs).card := by
  induction rs generalizing w with
  | nil => rfl
  | cons r rs ih =>
    obtain ⟨storage, fails⟩ := r
    rw [uploadAll, ih]
    unfold getOrUploadWeight
    cases hs : w.weightHandles storage with
    | some h =>
      have hnew : w.newUploads ((storage, fails) :: rs) = w.newUploads rs := by
        ext s
        rw [mem_newUploads, mem_newUploads, List.mem_cons]
        refine ⟨fun hm => ⟨hm.1.resolve_left ?_, hm.2⟩, fun hm => ⟨.inr hm.1, hm.2⟩⟩
        rintro ⟨rfl, rfl⟩
        rw [hs] at hm
        cases hm.2
      rw [hnew]
    | none =>
      cases fails with
      | true =>
        have hnew : w.newUploads ((storage, true) :: rs) = w.newUploads rs := by
          ext s
          simp [mem_newUploads]
        rw [hnew]
        rfl
      | false =>
        -- a second request for the storage finds the handle
        have hnew : w.newUploads ((storage, false) :: rs) =
            insert storage ((w.newUploads rs).erase storage) := by
          ext s
          rw [Finset.mem_insert, Finset.mem_erase, mem_newUploads, mem_newUploads, List.mem_cons]
          by_cases hss : s = storage
          · simp [hss, hs]
          · simp [hss]
        have hrest : World.newUploads
            { w with
              weightHandles := Function.update w.weightHandles storage (some ⟨ctx, w.created ctx⟩)
              created := Function.update w.created ctx (w.created ctx + 1) } rs =
            (w.newUploads rs).erase storage := by
          ext s
          rw [Finset.mem_erase, mem_newUploads, mem_newUploads]
          by_cases hss : s = storage
          · simp [hss]
          · simp [hss]
        simp only [Bool.false_eq_true, if_false, hrest, Function.update_self]
        rw [hnew, Finset.card_insert_of_notMem (Finset.notMem_erase _ _)]
        omega

theorem attendOn_fst (w : World V) (layer : ℕ) (allocFails : Option PyError) (uses : List (Use V))
    (submits : Bool) :
    (w.attendOn contexts zero ctx layer allocFails uses submits).1 =
      let kv := (w.kv.lookup zero layer (w.allocActivation contexts ctx allocFails) uses).1
      if w.Creates contexts zero ctx layer allocFails uses then
        { w with
          kv := kv
          activations := w.activations ++ [⟨ctx, w.created ctx⟩]
          created := Function.update w.created ctx (w.created ctx + 1) }
      else { w with kv := kv } := by
  unfold attendOn Creates
  dsimp only
  rw [ite_not]
  split <;> rfl

/-- A lookup creates an entry on the activation that was allocated for it, or leaves the entries as
they are. -/
theorem creates_cases (w : World V) (contexts : ℕ → Context) (zero : V) (ctx layer : ℕ)
    (allocFails : Option PyError) (uses : List (Use V)) :
    let kv := (w.kv.lookup zero layer (w.allocActivation contexts ctx allocFails) uses).1
    (w.Creates contexts zero ctx layer allocFails uses ∧
        kv.activations = w.kv.activations ++ [w.activations.length]) ∨
      (¬ w.Creates contexts zero ctx layer allocFails uses ∧
        kv.activations = w.kv.activations) := by
  intro kv
  have hlen : w.Creates contexts zero ctx layer allocFails uses ↔
      kv.activations.length ≠ w.kv.activations.length := by
    rw [Creates, length_activations, length_activations]
  rw [hlen]
  obtain ⟨id, -, -, hact⟩ | ⟨cache, -, halloc, -, hact⟩ | ⟨-, hact⟩ :=
    w.kv.lookup_cases zero layer (w.allocActivation contexts ctx allocFails) uses
  · exact .inr ⟨not_not.2 (congrArg List.length hact), hact⟩
  · have hnew : cache = w.activations.length := by
      unfold allocActivation at halloc
      split_ifs at halloc
      cases allocFails with
      | none => exact (Except.ok.inj halloc).symm
      | some err => cases halloc
    rw [← hnew]
    refine .inl ⟨?_, hact⟩
    have hone : kv.activations.length = w.kv.activations.length + 1 :=
      (congrArg List.length hact).trans List.length_append
    omega
  · exact .inr ⟨not_not.2 (congrArg List.length hact), hact⟩

theorem kv_step_activations (w : Attention.World V) {ev : CacheEvent V}
    (h : ∀ layer alloc uses, ev ≠ .lookup layer alloc uses) :
    (w.step zero ev).1.activations = w.activations := by
  cases ev with
  | lookup layer alloc uses => exact absurd rfl (h layer alloc uses)
  | allocate dataPtr =>
    simp only [Attention.World.step]
    split_ifs <;> rfl
  | view lifetime offset shape strides dtype =>
    simp only [Attention.World.step]
    split <;> rfl
  | bind layer obj =>
    simp only [Attention.World.step]
    split_ifs <;> rfl
  | release lifetime =>
    simp only [Attention.World.step]
    split_ifs <;> rfl

end World

/-- The caches hold what the history says. -/
structure Recorded (contexts : ℕ → Context) (h : History) (w : World V) : Prop where
  weights : ∀ s, (w.weightHandles s).map Handle.owner = h.uploadedOn s
  mirrors : w.activations.map Handle.owner = h.createdOn
  /-- The entries have their activations in order. -/
  entries : w.kv.activations = List.range w.activations.length
  synced : w.Synced contexts

namespace Recorded

variable {h : History}

theorem init (contexts : ℕ → Context) (numLayers : ℕ) :
    Recorded contexts ⟨fun _ => none, []⟩ (World.init numLayers : World V) where
  weights := fun _ => rfl
  mirrors := rfl
  entries := rfl
  synced := ⟨fun _ => Iff.rfl, rfl⟩

theorem ctx_eq (hw : Recorded contexts h w) (hc : w.installed = some ctx) :
    w.weights.ctx = some ⟨(contexts ctx).shaders⟩ := by
  rw [hw.synced.ctx, hc, Option.map_some]

theorem callWeights (hw : Recorded contexts h w) {call : Weights.Call}
    (hcall : ∀ ctx software, call ≠ .setContext ctx software) :
    Recorded contexts (h.add contexts zero w (.weights call)) (w.callWeights contexts call).1 := by
  have hsynced := hw.synced.callWeights hcall
  unfold World.callWeights at hsynced ⊢
  unfold History.add
  cases hc : w.installed with
  | none =>
    simp only [hc] at hsynced ⊢
    exact ⟨hw.weights, hw.mirrors, hw.entries, hsynced⟩
  | some ctx =>
    simp only [hc] at hsynced ⊢
    obtain ⟨hactivations, hkv⟩ := w.uploadAll_frame ctx
      (requests call (Weights.step w.weights call).2)
    refine ⟨fun s => ?_, ?_, ?_, hsynced⟩
    · dsimp only
      rw [World.uploadAll_owner, hw.weights s, (requests_eq (hw.ctx_eq hc) false call).1]
      rfl
    · dsimp only
      rw [hactivations, hw.mirrors]
    · dsimp only
      rw [hactivations, hkv, hw.entries]

theorem getVulkanContext (hw : Recorded contexts h w) (fresh : Option (ℕ × Bool)) :
    Recorded contexts h (w.getVulkanContext contexts fresh) := by
  unfold World.getVulkanContext
  split
  · exact ⟨hw.weights, hw.mirrors, hw.entries, hw.synced.setContext⟩
  · exact hw

theorem attend (hw : Recorded contexts h w) (fresh : Option (ℕ × Bool)) (layer : ℕ)
    (allocFails : Option PyError) (uses : List (Use V)) (submits : Bool) :
    Recorded contexts (h.add contexts zero w (.attend fresh layer allocFails uses submits))
      (w.attend contexts zero fresh layer allocFails uses submits).1 := by
  have hfresh := hw.getVulkanContext fresh
  unfold World.attend History.add
  dsimp only
  cases hc : (w.getVulkanContext contexts fresh).installed with
  | none => exact hfresh
  | some ctx =>
    set w₁ := w.getVulkanContext contexts fresh
    have hsynced :=
      @World.Synced.attendOn V contexts w₁ zero ctx hfresh.synced layer allocFails uses
      submits
    dsimp only
    rw [World.attendOn_fst] at hsynced ⊢
    dsimp only at hsynced ⊢
    obtain ⟨hcreates, hact⟩ | ⟨hcreates, hact⟩ :=
      w₁.creates_cases contexts zero ctx layer allocFails uses
    · rw [if_pos hcreates] at hsynced ⊢
      rw [if_pos hcreates]
      refine ⟨hfresh.weights, ?_, ?_, hsynced⟩
      · dsimp only
        rw [List.map_append, hfresh.mirrors]
        rfl
      · dsimp only
        rw [hact, hfresh.entries, List.length_append, List.length_singleton, List.range_succ]
    · rw [if_neg hcreates] at hsynced ⊢
      rw [if_neg hcreates]
      refine ⟨hfresh.weights, hfresh.mirrors, ?_, hsynced⟩
      dsimp only
      rw [hact, hfresh.entries]

/-- **One call** keeps the caches as the history says. -/
theorem step (hw : Recorded contexts h w) (call : Call V) :
    Recorded contexts (h.add contexts zero w call) (Handles.step contexts zero w call).1 := by
  cases call with
  | setContext ctx software => exact ⟨hw.weights, hw.mirrors, hw.entries, hw.synced.setContext⟩
  | weights call =>
    cases call with
    | setContext ctx software =>
      have hadd : h.add contexts zero w (.weights (.setContext ctx software)) = h := by
        unfold History.add World.asks Handles.asks
        cases w.installed with
        | none => rfl
        | some c => simp
      rw [hadd]
      exact hw
    | _ => exact hw.callWeights (by simp)
  | collect storage =>
    refine ⟨fun s => ?_, hw.mirrors, hw.entries, hw.synced.step (.collect storage)⟩
    dsimp only [Handles.step, History.add]
    by_cases hs : s = storage
    · rw [hs, Function.update_self, Function.update_self, Option.map_none]
    · rw [Function.update_of_ne hs, Function.update_of_ne hs, hw.weights s]
  | bind ev =>
    have hsynced := @World.Synced.step V contexts w zero hw.synced (.bind ev)
    cases ev with
    | lookup layer alloc uses => exact hw
    | _ =>
      refine ⟨hw.weights, hw.mirrors, ?_, hsynced⟩
      dsimp only [Handles.step]
      rw [World.kv_step_activations w.kv (by simp), hw.entries]
  | attend fresh layer allocFails uses submits =>
    exact hw.attend fresh layer allocFails uses submits

theorem cachedWeights_owner (hw : Recorded contexts h w) {rs : List (ℕ × Bool)} :
    (∀ hd ∈ w.cachedWeights rs, hd.owner = ctx) ↔
      ∀ r ∈ rs, ∀ maker ∈ h.uploadedOn r.1, maker = ctx := by
  constructor
  · intro hown r hr maker hmaker
    rw [← hw.weights, Option.mem_def, Option.map_eq_some_iff] at hmaker
    obtain ⟨hd, hcached, rfl⟩ := hmaker
    exact hown hd (List.mem_filterMap.2 ⟨r, hr, hcached⟩)
  · intro hown hd hmem
    obtain ⟨r, hr, hcached⟩ := List.mem_filterMap.1 hmem
    refine hown r hr hd.owner ?_
    rw [← hw.weights, hcached]
    rfl

theorem cachedMirror_owner (hw : Recorded contexts h w) {layer : ℕ} :
    (∀ hd ∈ w.cachedMirror layer, hd.owner = ctx) ↔
      ∀ id ∈ w.kv.hit layer, ∀ maker ∈ h.createdOn[id]?, maker = ctx := by
  unfold World.cachedMirror
  cases w.kv.hit layer with
  | none => simp
  | some id =>
    have hentry : (w.kv.activations[id]?.bind fun i => w.activations[i]?) = w.activations[id]? := by
      rw [hw.entries]
      by_cases hid : id < w.activations.length
      · rw [List.getElem?_range hid, Option.bind_some]
      · have hnone : w.activations[id]? = none := List.getElem?_eq_none (Nat.le_of_not_lt hid)
        rw [hnone, List.getElem?_eq_none (by simpa using hid), Option.bind_none]
    rw [Option.bind_some, World.bind_activations, hentry, ← hw.mirrors]
    simp

/-- **One call** meets the condition exactly when the cached handles that it binds are its
context's. -/
theorem onMakers_iff {past : List (Transition (World V) (Call V) (Option Bound))}
    (hw : Recorded contexts (history contexts zero past) w) (call : Call V) :
    OnMakers contexts zero past w call ↔ CachedOwn contexts w call := by
  cases call with
  | weights call =>
    refine forall₂_congr fun ctx hc => ?_
    obtain ⟨hasks, hsubmits⟩ := requests_eq (hw.ctx_eq hc) (contexts ctx).remote call
    dsimp only
    rw [hsubmits, hasks, World.uploadAll_created]
    refine forall_congr' fun _ => forall_congr' fun _ => ?_
    exact hw.cachedWeights_owner.symm
  | attend fresh layer allocFails uses submits =>
    refine forall₂_congr fun ctx _ => forall₂_congr fun _ _ => ?_
    exact hw.cachedMirror_owner.symm
  | _ => exact Iff.rfl

end Recorded

theorem history_concat (past : List (Transition (World V) (Call V) (Option Bound)))
    (τ : Transition (World V) (Call V) (Option Bound)) :
    history contexts zero (past ++ [τ]) =
      (history contexts zero past).add contexts zero τ.pre τ.input := by
  rw [history, List.foldl_append]
  rfl

/-- **GPU buffers stay with their context exactly when every call meets the condition.** -/
theorem own_iff (contexts : ℕ → Context) (zero : V) (numLayers : ℕ) (calls : List (Call V)) :
    (∀ τ ∈ transitions (step contexts zero) (World.init numLayers) calls, Own τ.output) ↔
      ∀ past τ post,
        transitions (step contexts zero) (World.init numLayers) calls = past ++ τ :: post →
        OnMakers contexts zero past τ.pre τ.input := by
  have hcall := @forall_past _ _ _ (step contexts zero)
    (fun past w => Recorded contexts (history contexts zero past) w)
    (fun past τ => Own τ.output ↔ OnMakers contexts zero past τ.pre τ.input)
    (fun past w call hw => by
      rw [history_concat]
      exact hw.step call)
    (fun past w call hw => (World.own_step call).trans (hw.onMakers_iff call).symm)
    (World.init numLayers) calls (Recorded.init contexts numLayers)
  constructor
  · intro hown past τ post heq
    exact (hcall past τ post heq).1 (hown τ (heq ▸ by simp))
  · intro hok τ hτ
    obtain ⟨past, post, heq⟩ := List.append_of_mem hτ
    exact (hcall past τ post heq).2 (hok past τ post heq)

/-! ### One context -/

/-- No other context than `c` is installed by the call. -/
def OnlyInstalls (c : ℕ) : Call V → Prop
  | .setContext ctx _ => ctx = c
  | .attend fresh _ _ _ _ => ∀ f ∈ fresh, f.1 = c
  | _ => True

/-- Every context in the world is `c`. -/
structure OwnedBy (c : ℕ) (w : World V) : Prop where
  installed : ∀ ctx, w.installed = some ctx → ctx = c
  weights : ∀ s h, w.weightHandles s = some h → h.owner = c
  activations : ∀ h ∈ w.activations, h.owner = c

namespace OwnedBy

variable {c : ℕ}

theorem uploadAll (hw : OwnedBy c w) (rs : List (ℕ × Bool)) :
    OwnedBy c (w.uploadAll c rs).1 := by
  induction rs generalizing w with
  | nil => exact hw
  | cons r rs ih =>
    obtain ⟨storage, fails⟩ := r
    obtain ⟨-, -, hmade, -⟩ := w.getOrUploadWeight_spec c storage fails
    obtain ⟨hinstalled, hactivations⟩ := w.getOrUploadWeight_frame c storage fails
    refine ih ⟨?_, fun s h hs => ?_, ?_⟩
    · rw [hinstalled]
      exact hw.installed
    · obtain hs | hs := hmade s h hs
      · exact hw.weights s h hs
      · exact hs.1
    · rw [hactivations]
      exact hw.activations

theorem setContext (hw : OwnedBy c w) {software : Bool} :
    OwnedBy c (w.setContext contexts c software) where
  installed := fun ctx h => by
    cases software with
    | true => cases h
    | false => exact (Option.some.inj h).symm
  weights := hw.weights
  activations := hw.activations

theorem getVulkanContext (hw : OwnedBy c w) {fresh : Option (ℕ × Bool)}
    (hfresh : ∀ f ∈ fresh, f.1 = c) : OwnedBy c (w.getVulkanContext contexts fresh) := by
  unfold World.getVulkanContext
  split
  · rename_i ctx software _
    obtain rfl : ctx = c := hfresh (ctx, software) rfl
    exact hw.setContext
  · exact hw

theorem attendOn (hw : OwnedBy c w) {layer : ℕ} {allocFails : Option PyError} {uses : List (Use V)}
    {submits : Bool} :
    OwnedBy c (w.attendOn contexts zero c layer allocFails uses submits).1 := by
  have hnew : ∀ h ∈ w.activations ++ [(⟨c, w.created c⟩ : Handle)], h.owner = c := by
    intro h hh
    obtain hh | hh := List.mem_append.1 hh
    · exact hw.activations h hh
    · rw [List.mem_singleton.1 hh]
  unfold World.attendOn
  dsimp only
  split
  · dsimp only
    split_ifs
    · exact ⟨hw.installed, hw.weights, hw.activations⟩
    · exact ⟨hw.installed, hw.weights, hnew⟩
  · dsimp only
    split_ifs
    · exact ⟨hw.installed, hw.weights, hw.activations⟩
    · exact ⟨hw.installed, hw.weights, hnew⟩

theorem callWeights (hw : OwnedBy c w) {call : Weights.Call} :
    OwnedBy c (w.callWeights contexts call).1 := by
  unfold World.callWeights
  cases hc : w.installed with
  | none => exact ⟨(fun ctx h => nomatch h), hw.weights, hw.activations⟩
  | some ctx =>
    obtain rfl := hw.installed ctx hc
    have hup := hw.uploadAll (requests call (Weights.step w.weights call).2)
    exact ⟨hup.installed, hup.weights, hup.activations⟩

/-- **One call** on the only context keeps every handle its own. -/
theorem step (hw : OwnedBy c w) {call : Call V} (hcall : OnlyInstalls c call) :
    OwnedBy c (Handles.step contexts zero w call).1 := by
  cases call with
  | setContext ctx software =>
    obtain rfl : ctx = c := hcall
    exact hw.setContext
  | weights call =>
    cases call with
    | setContext ctx software => exact hw
    | _ => exact hw.callWeights
  | collect storage =>
    refine ⟨hw.installed, fun s h hs => ?_, hw.activations⟩
    by_cases heq : s = storage
    · subst heq
      simp [Handles.step] at hs
    · refine hw.weights s h ?_
      simpa [Handles.step, Function.update_of_ne heq] using hs
  | bind ev =>
    cases ev with
    | _ => exact ⟨hw.installed, hw.weights, hw.activations⟩
  | attend fresh layer allocFails uses submits =>
    have hfresh : OwnedBy c (w.getVulkanContext contexts fresh) := hw.getVulkanContext hcall
    simp only [Handles.step]
    unfold World.attend
    cases hc : (w.getVulkanContext contexts fresh).installed with
    | none =>
      simp only [hc]
      exact hfresh
    | some ctx =>
      obtain rfl := hfresh.installed ctx hc
      simp only [hc]
      exact hfresh.attendOn

theorem cachedOwn (hw : OwnedBy c w) {call : Call V} (hcall : OnlyInstalls c call) :
    CachedOwn contexts w call := by
  cases call with
  | weights call =>
    intro ctx hctx out rs _ _ h hh
    obtain ⟨r, -, hr⟩ := List.mem_filterMap.1 hh
    rw [hw.weights _ h hr, hw.installed ctx hctx]
  | attend fresh layer allocFails uses submits =>
    intro ctx hctx _ _ h hh
    have hfresh : OwnedBy c (w.getVulkanContext contexts fresh) := hw.getVulkanContext hcall
    obtain ⟨id, -, hid⟩ := Option.bind_eq_some_iff.1 (Option.mem_toList.1 hh)
    obtain ⟨e, -, he⟩ := Option.bind_eq_some_iff.1 hid
    rw [hw.activations h (List.mem_of_getElem? he), hfresh.installed ctx hctx]
  | _ => trivial

end OwnedBy

/-- **With one context, GPU buffers stay with it**, whatever the calls. -/
theorem own_of_one_context (contexts : ℕ → Context) (zero : V) (numLayers c : ℕ)
    {calls : List (Call V)} (hcalls : ∀ call ∈ calls, OnlyInstalls c call) :
    ∀ τ ∈ transitions (step contexts zero) (World.init numLayers) calls, Own τ.output :=
  @forall_transitions _ _ _ (step contexts zero) (OwnedBy c) (fun _ call => OnlyInstalls c call)
    (fun τ => Own τ.output) (fun _ _ hw hcall => hw.step hcall)
    (fun _ call hw hcall => (World.own_step call).2 (hw.cachedOwn hcall)) (World.init numLayers)
    calls ⟨(fun _ h => nomatch h), (fun _ _ h => nomatch h), (fun _ h => nomatch h)⟩
    (fun _ hτ => hcalls _ (input_mem hτ))

/-! ### Stale handles -/

/-- Two contexts of this process, and two with child processes of their own. -/
def fourContexts : ℕ → Context
  | 0 => ⟨false, ["mul_mat_vec_f32_f32_f32"]⟩
  | 1 => ⟨false, ["mul_mat_vec_f32_f32_f32"]⟩
  | _ => ⟨true, ["mul_mat_vec_f32_f32_f32"]⟩

/-- A weight large enough for the GPU. -/
def largeWeight (storage : ℕ) : Weights.Weight := ⟨storage, 1000, 1000, false⟩

/-- A weight is used on a context, and again after another one was installed. -/
def staleWeight : List (Call Unit) := [
  .setContext 0 false,
  .weights (.linear 1 (largeWeight 7) false),
  .setContext 1 false,
  .weights (.linear 1 (largeWeight 7) false)]

/-- The same with child processes: the second child has given the id to another weight. -/
def staleRemoteWeight : List (Call Unit) := [
  .setContext 2 false,
  .weights (.linear 1 (largeWeight 7) false),
  .setContext 3 false,
  .weights (.linear 1 (largeWeight 8) false),
  .weights (.linear 1 (largeWeight 7) false)]

/-- The mirror of a KV cache is written on a context, and read after another one was installed. -/
def staleMirror : List (Call Unit) := [
  .bind (.allocate 4096),
  .bind (.view 0 0 [2, 1, 1, 1, 1] [1, 1, 1, 1, 1] .float32),
  .bind (.bind 0 (some 0)),
  .setContext 0 false,
  .attend none 0 none [.mark [0]] true,
  .setContext 1 false,
  .attend none 0 none [] true]

/-- The dispatches of a run. -/
def dispatches (calls : List (Call Unit)) : List Bound :=
  (transitions (step fourContexts ()) (World.init 1) calls).filterMap fun τ => τ.output

theorem own_dispatches {calls : List (Call Unit)}
    (h : ∀ τ ∈ transitions (step fourContexts ()) (World.init 1) calls, Own τ.output) :
    ∀ b ∈ dispatches calls, ∀ h ∈ b.2, h.owner = b.1 := by
  intro b hb
  obtain ⟨τ, hτ, hout⟩ := List.mem_filterMap.1 hb
  exact h τ hτ b hout

/-- **Stale handles are bound**: the handle of a weight, the id of a weight in another child
process, which names another weight there, and the handle of a KV mirror. -/
theorem stale_handles :
    (¬ ∀ τ ∈ transitions (step fourContexts ()) (World.init 1) staleWeight, Own τ.output) ∧
      (¬ ∀ τ ∈ transitions (step fourContexts ()) (World.init 1) staleRemoteWeight,
        Own τ.output) ∧
      ¬ ∀ τ ∈ transitions (step fourContexts ()) (World.init 1) staleMirror, Own τ.output := by
  refine ⟨fun h => ?_, fun h => ?_, fun h => ?_⟩
  · exact absurd (own_dispatches h) (by decide)
  · exact absurd (own_dispatches h) (by decide)
  · exact absurd (own_dispatches h) (by decide)

end Handles

end VllmVulkan
