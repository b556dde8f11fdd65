import VllmVulkan.Weights.Cache
import VllmVulkan.Attention.Caches

/-!
# The handles of GPU buffers

A buffer on the GPU belongs to the context that created it.  Handles of weights and of KV mirrors
are kept in module-level caches that outlive the context they were made on: `set_context` drops the
decisions about shaders and element types, and keeps the handles.

* `Context`, `Handle` : the contexts, and the handles they create;
* `World`, `step` : the caches of `vulkan_ops` and of `attention`, and the calls on them, with the
  handles bound in the dispatch of a call;
* `Own` : every handle bound in a dispatch on a context was created by it;
* `CachedOwn` : what that comes to for one call, by the handles it finds in the caches (`own_step`);
* `weightHandles_isSome` : a handle is cached exactly for the weights that have a buffer.
-/

namespace VllmVulkan

namespace Handles

open Machine Attention

/-- A context that was created. -/
structure Context where
  /-- It is a `RemoteVulkanContext`, with a child process of its own. -/
  remote : Bool
  shaders : List String
  deriving DecidableEq, Repr

/-- The handle of a tensor. -/
structure Handle where
  /-- The context that created it. -/
  owner : ℕ
  /-- Its number among the tensors of the context: the `tensor_id` of a `_RemoteGpuTensor`. -/
  tensorId : ℕ
  deriving DecidableEq, Repr

/-- The globals of `vulkan_ops` and `attention`, with the handles. -/
structure World (V : Type) where
  /-- The globals of `vulkan_ops`, as far as they do not concern handles. -/
  weights : Weights.State
  kv : Attention.World V
  /-- `_ctx`. -/
  installed : Option ℕ
  /-- `_weight_cache`. -/
  weightHandles : ℕ → Option Handle
  /-- The activations of the KV mirrors. -/
  activations : List Handle
  /-- The number of tensors each context created. -/
  created : ℕ → ℕ

variable {V : Type}

/-- The globals after import, with the layers of a model. -/
def World.init (numLayers : ℕ) : World V where
  weights := Weights.State.init
  kv := Attention.World.init numLayers
  installed := none
  weightHandles := fun _ => none
  activations := []
  created := fun _ => 0

/-- What a call does with the GPU. -/
inductive Call (V : Type) where
  /-- `set_context`. -/
  | setContext (ctx : ℕ) (software : Bool)
  /-- A call on weights. -/
  | weights (call : Weights.Call)
  /-- The storage of a weight is collected. -/
  | collect (storage : ℕ)
  /-- KV cache tensors are made, bound and released. -/
  | bind (ev : CacheEvent V)
  /-- An attempt to write the mirror or to decode: `fresh` is the context `_get_vulkan_context`
  creates, `submits` is whether the attempt gets as far as `execute_batch`. -/
  | attend (fresh : Option (ℕ × Bool)) (layer : ℕ) (allocFails : Option PyError)
      (uses : List (Use V)) (submits : Bool)

/-- A dispatch: the context, and the handles bound in it. -/
abbrev Bound : Type := ℕ × List Handle

section

variable (contexts : ℕ → Context)

/-- `execute_batch` of a context resolves a handle, with `n` tensors created: a `VulkanContext`
takes any `GpuTensor`, and a child process any id it has given out. -/
def Takes (ctx n : ℕ) (h : Handle) : Prop :=
  (contexts h.owner).remote = (contexts ctx).remote ∧
    ((contexts ctx).remote = true → h.tensorId < n)

instance (ctx n : ℕ) (h : Handle) : Decidable (Takes contexts ctx n h) := by
  unfold Takes
  infer_instance

/-- `execute_batch` raises before it dispatches when it does not resolve a handle. -/
def dispatch (ctx n : ℕ) (hs : List Handle) : Option Bound :=
  if ∀ h ∈ hs, Takes contexts ctx n h then some (ctx, hs) else none

/-! ### Weights -/

namespace World

variable (w : World V)

/-- `_get_or_upload_weight`: the handle it returns. -/
def getOrUploadWeight (ctx storage : ℕ) (uploadFails : Bool) : World V × Option Handle :=
  match w.weightHandles storage with
  | some h => (w, some h)
  | none =>
    if uploadFails then (w, none)
    else
      let h : Handle := ⟨ctx, w.created ctx⟩
      ({ w with
          weightHandles := Function.update w.weightHandles storage (some h)
          created := Function.update w.created ctx (w.created ctx + 1) }, some h)

/-- The weights of a call, one after the other: the handles of those that have one. -/
def uploadAll (ctx : ℕ) : World V → List (ℕ × Bool) → World V × List Handle
  | w, [] => (w, [])
  | w, (storage, uploadFails) :: rs =>
    let first := w.getOrUploadWeight ctx storage uploadFails
    let rest := uploadAll ctx first.1 rs
    (rest.1, first.2.toList ++ rest.2)

end World

/-- The weights a call asks for, in order, with what becomes of their uploads. -/
def requests (call : Weights.Call) (out : Except Weights.Raised (List Weights.Dispatch)) :
    List (ℕ × Bool) :=
  match call, out with
  | .preUpload w fails, .ok _ => if w.inFeat * w.outFeat > 0 then [(w.storage, fails)] else []
  | .linear _ w fails, .ok [_] => [(w.storage, fails)]
  | .rmsNormThenLinear _ norm lin normFails linFails, .ok [_, _] =>
    [(norm.storage, normFails), (lin.storage, linFails)]
  | .rmsNormThenLinear _ _ lin _ linFails, .ok [_] => [(lin.storage, linFails)]
  | .fusedSwigluMlp _ gateUp down gateUpFails downFails, .ok [_, _] =>
    [(gateUp.storage, gateUpFails), (down.storage, downFails)]
  | _, _ => []

/-- The call submits its ops.  The fused norm uses `execute_chained`, which a `RemoteVulkanContext`
does not have. -/
def submits (remote : Bool) (call : Weights.Call)
    (out : Except Weights.Raised (List Weights.Dispatch)) : Bool :=
  match call, out with
  | .linear _ _ _, .ok [_] => true
  | .rmsNormThenLinear _ _ _ _ _, .ok [_, _] => !remote
  | .rmsNormThenLinear _ _ _ _ _, .ok [_] => true
  | .fusedSwigluMlp _ _ _ _ _, .ok [_, _] => true
  | _, _ => false

namespace World

variable (w : World V)

/-- A call on weights. -/
def callWeights (call : Weights.Call) : World V × Option Bound :=
  let r := Weights.step w.weights call
  match w.installed with
  | none => ({ w with weights := r.1 }, none)
  | some ctx =>
    let up := w.uploadAll ctx (requests call r.2)
    ({ up.1 with weights := r.1 }, if submits (contexts ctx).remote call r.2
      then dispatch contexts ctx (up.1.created ctx) up.2 else none)

/-- `set_context`; on a software renderer the context is dropped again. -/
def setContext (ctx : ℕ) (software : Bool) : World V :=
  { w with
    weights := Weights.setContext w.weights ⟨(contexts ctx).shaders⟩ software
    installed := if software then none else some ctx }

/-! ### KV mirrors -/

/-- `alloc_activation`, then `update_activation`: the position of the new handle. -/
def allocActivation (ctx : ℕ) (allocFails : Option PyError) : Py ℕ :=
  if (contexts ctx).remote then
    .error (.attributeError "'RemoteVulkanContext' object has no attribute 'alloc_activation'")
  else
    match allocFails with
    | some err => .error err
    | none => .ok w.activations.length

/-- `_get_vulkan_context`: a context is created when none is installed. -/
def getVulkanContext (fresh : Option (ℕ × Bool)) : World V :=
  match w.installed, fresh with
  | none, some (ctx, software) => w.setContext contexts ctx software
  | _, _ => w

/-- An attempt on a context: the entry is found or created, and its activation is bound. -/
def attendOn (zero : V) (ctx layer : ℕ) (allocFails : Option PyError) (uses : List (Use V))
    (submits : Bool) : World V × Option Bound :=
  let r := w.kv.lookup zero layer (w.allocActivation contexts ctx allocFails) uses
  let w' : World V :=
    if r.1.caches.entries.length = w.kv.caches.entries.length then { w with kv := r.1 }
    else
      { w with
        kv := r.1
        activations := w.activations ++ [⟨ctx, w.created ctx⟩]
        created := Function.update w.created ctx (w.created ctx + 1) }
  match r.2 with
  | some (.ok id) =>
    let bound := r.1.caches.entries[id]?.bind fun e => w'.activations[e.cache]?
    (w', if submits then dispatch contexts ctx (w'.created ctx) bound.toList else none)
  | _ => (w', none)

/-- An attempt. -/
def attend (zero : V) (fresh : Option (ℕ × Bool)) (layer : ℕ) (allocFails : Option PyError)
    (uses : List (Use V)) (submits : Bool) : World V × Option Bound :=
  let w := w.getVulkanContext contexts fresh
  match w.installed with
  | none => (w, none)
  | some ctx => w.attendOn contexts zero ctx layer allocFails uses submits

end World

/-- One call, with the dispatch it makes. -/
def step (zero : V) (w : World V) : Call V → World V × Option Bound
  | .setContext ctx software => (w.setContext contexts ctx software, none)
  | .weights (.setContext _ _) => (w, none)
  | .weights call => w.callWeights contexts call
  | .collect storage =>
    ({ w with
        weights := { w.weights with
          weightCache := Function.update w.weights.weightCache storage none
          weightF16DecisionCache := Function.update w.weights.weightF16DecisionCache storage none }
        weightHandles := Function.update w.weightHandles storage none }, none)
  | .bind (.lookup _ _ _) => (w, none)
  | .bind ev => ({ w with kv := (w.kv.step zero ev).1 }, none)
  | .attend fresh layer allocFails uses submits =>
    w.attend contexts zero fresh layer allocFails uses submits

/-- Every handle bound in a dispatch on a context was created by it. -/
def Own (out : Option Bound) : Prop := ∀ b ∈ out, ∀ h ∈ b.2, h.owner = b.1

/-! ### What a call finds in the caches -/

/-- The handles cached for the weights that a call asks for. -/
def World.cachedWeights (w : World V) (rs : List (ℕ × Bool)) : List Handle :=
  rs.filterMap fun r => w.weightHandles r.1

/-- The handle of the mirror that a lookup of the layer finds. -/
def World.cachedMirror (w : World V) (layer : ℕ) : List Handle :=
  ((w.kv.hit layer).bind fun id =>
    w.kv.caches.entries[id]?.bind fun e => w.activations[e.cache]?).toList

/-- Where a context with `n` tensors takes all of the handles, it created them. -/
def OwnWhereTaken (ctx n : ℕ) (hs : List Handle) : Prop :=
  (∀ h ∈ hs, Takes contexts ctx n h) → ∀ h ∈ hs, h.owner = ctx

/-- What a dispatch comes to, by the cached handles that the call binds: where the context takes all
of them, it created them. -/
def CachedOwn (w : World V) : Call V → Prop
  | .weights call => ∀ ctx, w.installed = some ctx →
    let out := (Weights.step w.weights call).2
    let rs := requests call out
    submits (contexts ctx).remote call out = true →
      OwnWhereTaken contexts ctx ((w.uploadAll ctx rs).1.created ctx) (w.cachedWeights rs)
  | .attend fresh layer _ _ submits => ∀ ctx,
    (w.getVulkanContext contexts fresh).installed = some ctx → submits = true →
      OwnWhereTaken contexts ctx (w.created ctx) (w.cachedMirror layer)
  | _ => True

end

/-! ### The handles bound -/

variable {contexts : ℕ → Context} {w : World V} {zero : V} {ctx : ℕ}

theorem own_none : Own none := by
  intro b hb
  cases hb

theorem own_dispatch {n : ℕ} {hs : List Handle} :
    Own (dispatch contexts ctx n hs) ↔ OwnWhereTaken contexts ctx n hs := by
  unfold dispatch OwnWhereTaken Own
  by_cases h : ∀ h ∈ hs, Takes contexts ctx n h
  · rw [if_pos h]
    exact ⟨fun hown _ => hown _ rfl, fun hown b hb => by cases hb; exact hown h⟩
  · rw [if_neg h]
    exact ⟨fun _ ht => absurd ht h, fun _ => own_none⟩

namespace World

/-- A handle that the context created, as one of its first `n`. -/
def Made (ctx n : ℕ) (h : Handle) : Prop := h.owner = ctx ∧ h.tensorId < n

theorem Made.takes {n : ℕ} {h : Handle} (hm : Made ctx n h) : Takes contexts ctx n h := by
  obtain ⟨rfl, hlt⟩ := hm
  exact ⟨rfl, fun _ => hlt⟩

/-- **One upload** leaves the cached handles alone, and any other handle is made by it. -/
theorem getOrUploadWeight_spec (w : World V) (ctx storage : ℕ) (fails : Bool) :
    let r := w.getOrUploadWeight ctx storage fails
    r.2 = r.1.weightHandles storage ∧
      (∀ s h, w.weightHandles s = some h → r.1.weightHandles s = some h) ∧
      (∀ s h, r.1.weightHandles s = some h →
        w.weightHandles s = some h ∨ Made ctx (r.1.created ctx) h) ∧
      w.created ctx ≤ r.1.created ctx := by
  unfold getOrUploadWeight
  cases hs : w.weightHandles storage with
  | some h => exact ⟨hs.symm, fun _ _ h => h, fun _ _ h => .inl h, le_rfl⟩
  | none =>
    cases fails with
    | true => exact ⟨hs.symm, fun _ _ h => h, fun _ _ h => .inl h, le_rfl⟩
    | false =>
      simp only [Bool.false_eq_true, if_false, Function.update_self]
      refine ⟨trivial, fun s h hh => ?_, fun s h hh => ?_, Nat.le_succ _⟩
      · have hne : s ≠ storage := by
          rintro rfl
          rw [hs] at hh
          cases hh
        rw [Function.update_of_ne hne, hh]
      · by_cases heq : s = storage
        · rw [heq, Function.update_self] at hh
          obtain rfl := Option.some.inj hh
          exact .inr ⟨rfl, Nat.lt_succ_self _⟩
        · rw [Function.update_of_ne heq] at hh
          exact .inl hh

/-- **The uploads of a call** return the cached handles of its weights, and handles made by it. -/
theorem uploadAll_spec (w : World V) (ctx : ℕ) (rs : List (ℕ × Bool)) :
    let r := w.uploadAll ctx rs
    (∀ h ∈ w.cachedWeights rs, h ∈ r.2) ∧
      (∀ h ∈ r.2, h ∈ w.cachedWeights rs ∨ Made ctx (r.1.created ctx) h) ∧
      w.created ctx ≤ r.1.created ctx := by
  induction rs generalizing w with
  | nil => exact ⟨(fun _ h => nomatch h), (fun _ h => nomatch h), le_rfl⟩
  | cons r rs ih =>
    obtain ⟨storage, fails⟩ := r
    obtain ⟨hret, hkeep, hmade, hle⟩ := w.getOrUploadWeight_spec ctx storage fails
    obtain ⟨hcached, hbound, hle'⟩ := ih (w.getOrUploadWeight ctx storage fails).1
    have hmono : ∀ {n m : ℕ} {h : Handle}, n ≤ m → Made ctx n h → Made ctx m h :=
      fun hnm hm => ⟨hm.1, hm.2.trans_le hnm⟩
    refine ⟨fun h hh => ?_, fun h hh => ?_, hle.trans hle'⟩
    · obtain ⟨⟨s, f⟩, hr, hs⟩ := List.mem_filterMap.1 hh
      rw [uploadAll, List.mem_append, Option.mem_toList]
      obtain heq | hr := List.mem_cons.1 hr
      · cases heq
        exact .inl (hret.trans (hkeep _ h hs))
      · exact .inr (hcached h (List.mem_filterMap.2 ⟨⟨s, f⟩, hr, hkeep s h hs⟩))
    · rw [uploadAll, List.mem_append, Option.mem_toList] at hh
      obtain hh | hh := hh
      · obtain hs | hm := hmade storage h (hret.symm.trans hh)
        · exact .inl (List.mem_filterMap.2 ⟨(storage, fails), by simp, hs⟩)
        · exact .inr (hmono hle' hm)
      · obtain hh | hm := hbound h hh
        · obtain ⟨⟨s, f⟩, hr, hs⟩ := List.mem_filterMap.1 hh
          obtain hs | hm := hmade s h hs
          · exact .inl (List.mem_filterMap.2 ⟨(s, f), List.mem_cons_of_mem _ hr, hs⟩)
          · exact .inr (hmono hle' hm)
        · exact .inr hm

theorem ownWhereTaken_iff {n : ℕ} {hs cached : List Handle} (h₁ : ∀ h ∈ cached, h ∈ hs)
    (h₂ : ∀ h ∈ hs, h ∈ cached ∨ Made ctx n h) :
    OwnWhereTaken contexts ctx n hs ↔ OwnWhereTaken contexts ctx n cached := by
  constructor
  · intro hown htakes h hh
    refine hown (fun h' hh' => ?_) h (h₁ h hh)
    obtain hc | hm := h₂ h' hh'
    · exact htakes h' hc
    · exact hm.takes
  · intro hown htakes h hh
    obtain hc | hm := h₂ h hh
    · exact hown (fun h' hh' => htakes h' (h₁ h' hh')) h hc
    · exact hm.1

/-- **A call on weights.** -/
theorem own_callWeights {call : Weights.Call} :
    Own (w.callWeights contexts call).2 ↔ CachedOwn contexts w (.weights call) := by
  unfold callWeights CachedOwn
  cases hc : w.installed with
  | none =>
    refine iff_of_true own_none ?_
    intro ctx h
    cases h
  | some ctx =>
    obtain ⟨hcached, hbound, -⟩ :=
      w.uploadAll_spec ctx (requests call (Weights.step w.weights call).2)
    have hown := @ownWhereTaken_iff contexts ctx _ _ _ hcached hbound
    have hsome : ∀ P : ℕ → Prop, (∀ c, some ctx = some c → P c) ↔ P ctx := by simp
    simp only [hsome]
    split_ifs with hsubmits
    · rw [own_dispatch, hown, forall_prop_of_true hsubmits]
    · exact iff_of_true own_none fun h => absurd h hsubmits

theorem bind_activations {kv : Attention.World V} {id : ℕ} {f : ℕ → Option Handle} :
    (kv.caches.entries[id]?.bind fun e => f e.cache) = kv.activations[id]?.bind f := by
  rw [Attention.World.activations, List.getElem?_map, Option.bind_map]
  rfl

theorem length_activations (kv : Attention.World V) :
    kv.caches.entries.length = kv.activations.length := List.length_map _ |>.symm

theorem own_submit {submits : Bool} {n : ℕ} {hs : List Handle} :
    Own (if submits = true then dispatch contexts ctx n hs else none) ↔
      (submits = true → OwnWhereTaken contexts ctx n hs) := by
  cases submits with
  | true => simp only [if_true, own_dispatch, forall_const]
  | false => exact iff_of_true own_none fun h => absurd h Bool.false_ne_true

theorem ownWhereTaken_nil {n : ℕ} : OwnWhereTaken contexts ctx n [] :=
  fun _ _ hh => absurd hh List.not_mem_nil

/-- **An attempt.** -/
theorem own_attendOn {layer : ℕ} {allocFails : Option PyError} {uses : List (Use V)}
    {submits : Bool} :
    Own (w.attendOn contexts zero ctx layer allocFails uses submits).2 ↔ (submits = true →
      OwnWhereTaken contexts ctx (w.created ctx) (w.cachedMirror layer)) := by
  unfold attendOn cachedMirror
  obtain ⟨id, hhit, hres, hact⟩ | ⟨cache, hhit, halloc, hres, hact⟩ | ⟨⟨hhit, hres⟩, hact⟩ :=
    w.kv.lookup_cases zero layer (w.allocActivation contexts ctx allocFails) uses
  · -- the entry was there, with the activation it had
    simp only [hres, hhit, length_activations, hact, if_true, bind_activations, Option.bind_some]
    exact own_submit
  · -- the entry was created, on an activation of this context
    have hnew : cache = w.activations.length := by
      unfold allocActivation at halloc
      split_ifs at halloc
      cases allocFails with
      | none => exact (Except.ok.inj halloc).symm
      | some err => cases halloc
    subst hnew
    have hlen : ¬ (w.kv.lookup zero layer (w.allocActivation contexts ctx allocFails)
        uses).1.caches.entries.length = w.kv.caches.entries.length := by
      rw [length_activations, length_activations, hact, List.length_append]
      simp
    simp only [hres, hhit, if_neg hlen]
    rw [bind_activations, hact, length_activations, List.getElem?_concat_length, Option.bind_some,
      List.getElem?_concat_length]
    refine own_submit.trans (forall_congr' fun _ => ⟨fun _ => ownWhereTaken_nil, fun _ _ => ?_⟩)
    exact List.forall_mem_singleton.2 rfl
  · simp only [hhit, Option.bind_none, Option.toList_none]
    exact iff_of_true own_none fun _ => ownWhereTaken_nil

theorem getVulkanContext_handles (w : World V) (fresh : Option (ℕ × Bool)) (ctx layer : ℕ) :
    (w.getVulkanContext contexts fresh).created ctx = w.created ctx ∧
      (w.getVulkanContext contexts fresh).cachedMirror layer = w.cachedMirror layer := by
  unfold getVulkanContext
  split <;> exact ⟨rfl, rfl⟩

/-- **One call** binds handles of its own context exactly when the cached ones are. -/
theorem own_step (call : Call V) :
    Own (step contexts zero w call).2 ↔ CachedOwn contexts w call := by
  have hnone : ∀ {P : Prop}, P → (Own none ↔ P) := iff_of_true own_none
  cases call with
  | setContext ctx software => exact hnone trivial
  | weights call =>
    cases call with
    | setContext ctx software =>
      refine hnone fun _ _ hsubmits => ?_
      cases hsubmits
    | _ => exact own_callWeights
  | collect storage => exact hnone trivial
  | bind ev =>
    cases ev with
    | _ => exact hnone trivial
  | attend fresh layer allocFails uses submits =>
    unfold step attend CachedOwn
    cases hc : (w.getVulkanContext contexts fresh).installed with
    | none =>
      simp only [hc]
      refine hnone ?_
      intro ctx h
      cases h
    | some ctx =>
      obtain ⟨hcreated, hmirror⟩ := @getVulkanContext_handles V contexts w fresh ctx layer
      simp only [hc]
      rw [own_attendOn, hcreated, hmirror]
      exact ⟨fun h c hc => by cases hc; exact h, fun h => h ctx rfl⟩

end World

/-! ### Handles and buffers -/

/-- A call on weights adds buffers for the weights that were requested and uploaded. -/
def Uploads (st st' : Weights.State) (rs : List (ℕ × Bool)) : Prop :=
  ∀ s, (st'.weightCache s).isSome ↔ (st.weightCache s).isSome ∨ (s, false) ∈ rs

theorem Uploads.refl (st : Weights.State) : Uploads st st [] := fun s => by simp

theorem Uploads.congr {st st₁ st' : Weights.State} {rs : List (ℕ × Bool)} (h : Uploads st₁ st' rs)
    (hst : st₁.weightCache = st.weightCache) : Uploads st st' rs := fun s => by
  rw [h s, hst]

theorem Uploads.trans {st st₁ st₂ : Weights.State} {rs rs' : List (ℕ × Bool)}
    (h : Uploads st st₁ rs) (h' : Uploads st₁ st₂ rs') : Uploads st st₂ (rs ++ rs') := fun s => by
  rw [h' s, h s, List.mem_append, or_assoc]

section

variable {st : Weights.State} {wctx : Weights.Ctx} {wt : Weights.Weight}

theorem uploads_getOrUploadWeight {preferF16 fails : Bool} :
    Uploads st (Weights.getOrUploadWeight st wctx wt preferF16 fails).1 [(wt.storage, fails)] := by
  intro s
  unfold Weights.getOrUploadWeight
  rw [List.mem_singleton, Prod.mk.injEq]
  cases hc : st.weightCache wt.storage with
  | some cached =>
    refine ⟨.inl, ?_⟩
    rintro (h | ⟨rfl, -⟩)
    · exact h
    · rw [hc]
      rfl
  | none =>
    set decided := if preferF16 = true then Weights.weightUsesF16 st wctx wt else (st, false)
    have hcache : decided.1.weightCache = st.weightCache := by
      dsimp only [decided]
      split_ifs
      · exact Weights.weightUsesF16_weightCache
      · rfl
    cases fails with
    | true => simp [hcache]
    | false =>
      simp only [Bool.false_eq_true, if_false, hcache, and_true]
      by_cases hs : s = wt.storage
      · simp [hs]
      · simp [hs]

theorem uploads_vulkanLinear {f16Shader f32Shader : String} {fails : Bool} :
    Uploads st (Weights.vulkanLinear f16Shader f32Shader st wctx wt fails).1
      [(wt.storage, fails)] :=
  uploads_getOrUploadWeight.congr Weights.weightUsesF16_weightCache

theorem uploads_vulkanMatvec {fails : Bool} :
    Uploads st (Weights.vulkanMatvec st wctx wt fails).1 [(wt.storage, fails)] :=
  uploads_vulkanLinear

theorem uploads_vulkanMatmul {fails : Bool} :
    Uploads st (Weights.vulkanMatmul st wctx wt fails).1 [(wt.storage, fails)] :=
  uploads_vulkanLinear

theorem uploads_linear {t : ℕ} {fails : Bool} :
    Uploads st (Weights.linear st t wt fails).1
      (requests (.linear t wt fails) (Weights.linear st t wt fails).2) := by
  unfold Weights.linear
  cases st.ctx with
  | none => exact Uploads.refl st
  | some ctx =>
    dsimp only
    split_ifs
    · exact uploads_vulkanMatvec.congr Weights.cachedAvailableShaders_weightCache
    · exact uploads_vulkanMatmul.congr Weights.cachedAvailableShaders_weightCache
    · exact (Uploads.refl _).congr Weights.cachedAvailableShaders_weightCache

/-- Where the fused norm is not used, the call asks for what `linear` asks for. -/
theorem requests_fallback {t : ℕ} {norm : Weights.Weight} {normFails fails : Bool} :
    requests (.rmsNormThenLinear t norm wt normFails fails) (Weights.linear st t wt fails).2 =
      requests (.linear t wt fails) (Weights.linear st t wt fails).2 := by
  unfold Weights.linear
  cases st.ctx with
  | none => rfl
  | some ctx =>
    dsimp only
    split_ifs <;> rfl

/-- **Every call** adds buffers for the weights it requested. -/
theorem uploads_step (st : Weights.State) (call : Weights.Call) :
    Uploads st (Weights.step st call).1 (requests call (Weights.step st call).2) := by
  cases call with
  | setContext ctx software => exact (Uploads.refl _).congr rfl
  | preUpload w fails =>
    simp only [Weights.step]
    unfold Weights.preUpload
    cases st.ctx with
    | none => exact Uploads.refl st
    | some ctx =>
      dsimp only
      by_cases hsize : w.inFeat * w.outFeat > 0
      · rw [if_pos hsize, requests, if_pos hsize]
        exact uploads_getOrUploadWeight
      · rw [if_neg hsize, requests, if_neg hsize]
        exact Uploads.refl st
  | linear t w fails => exact uploads_linear
  | rmsNormThenLinear t norm lin normFails linFails =>
    simp only [Weights.step]
    unfold Weights.rmsNormThenLinear
    cases st.ctx with
    | none => exact Uploads.refl st
    | some ctx =>
      dsimp only
      split_ifs
      · -- the fallback is the linear layer alone: the norm is not uploaded
        rw [requests_fallback]
        exact uploads_linear.congr Weights.cachedAvailableShaders_weightCache
      · exact (uploads_getOrUploadWeight.trans uploads_getOrUploadWeight).congr
          Weights.cachedAvailableShaders_weightCache
  | fusedSwigluMlp t gateUp down gateUpFails downFails =>
    simp only [Weights.step]
    unfold Weights.fusedSwigluMlp
    cases st.ctx with
    | none => exact Uploads.refl st
    | some ctx =>
      have hdecided : (Weights.weightUsesF16 (Weights.weightUsesF16
          (Weights.cachedAvailableShaders st ctx).1 ctx gateUp).1 ctx down).1.weightCache =
            st.weightCache := by
        rw [Weights.weightUsesF16_weightCache, Weights.weightUsesF16_weightCache,
          Weights.cachedAvailableShaders_weightCache]
      dsimp only
      split_ifs
      · exact Uploads.refl st
      · exact (Uploads.refl _).congr hdecided
      · exact (uploads_getOrUploadWeight.trans uploads_getOrUploadWeight).congr hdecided
      · exact (Uploads.refl _).congr Weights.cachedAvailableShaders_weightCache

end

theorem linear_ctx (st : Weights.State) (t : ℕ) (w : Weights.Weight) (fails : Bool) :
    (Weights.linear st t w fails).1.ctx = st.ctx := by
  unfold Weights.linear
  cases hc : st.ctx with
  | none => exact hc
  | some ctx =>
    dsimp only
    split_ifs <;> simp [Weights.vulkanMatvec, Weights.vulkanMatmul, Weights.vulkanLinear, hc]

theorem step_ctx (st : Weights.State) (call : Weights.Call)
    (h : ∀ ctx software, call ≠ .setContext ctx software) :
    (Weights.step st call).1.ctx = st.ctx := by
  cases call with
  | setContext ctx software => exact absurd rfl (h ctx software)
  | preUpload w fails =>
    simp only [Weights.step]
    unfold Weights.preUpload
    cases hc : st.ctx with
    | none => exact hc
    | some ctx =>
      dsimp only
      split_ifs <;> simp [hc]
  | linear t w fails => exact linear_ctx st t w fails
  | rmsNormThenLinear t norm lin normFails linFails =>
    simp only [Weights.step]
    unfold Weights.rmsNormThenLinear
    cases hc : st.ctx with
    | none => exact hc
    | some ctx =>
      dsimp only
      split_ifs <;> simp [linear_ctx, hc]
  | fusedSwigluMlp t gateUp down gateUpFails downFails =>
    simp only [Weights.step]
    unfold Weights.fusedSwigluMlp
    cases hc : st.ctx with
    | none => exact hc
    | some ctx =>
      dsimp only
      split_ifs <;> simp [hc]

namespace World

/-- Handles and buffers are cached for the same weights, and the two models of `vulkan_ops` have the
same context. -/
structure Synced (contexts : ℕ → Context) (w : World V) : Prop where
  handles : ∀ s, (w.weightHandles s).isSome ↔ (w.weights.weightCache s).isSome
  ctx : w.weights.ctx = w.installed.map fun i => ⟨(contexts i).shaders⟩

theorem uploadAll_isSome (w : World V) (ctx : ℕ) (rs : List (ℕ × Bool)) (s : ℕ) :
    ((w.uploadAll ctx rs).1.weightHandles s).isSome ↔
      (w.weightHandles s).isSome ∨ (s, false) ∈ rs := by
  induction rs generalizing w with
  | nil => simp [uploadAll]
  | cons r rs ih =>
    obtain ⟨storage, fails⟩ := r
    rw [uploadAll, ih, List.mem_cons, ← or_assoc, Prod.mk.injEq]
    refine or_congr_left ?_
    unfold getOrUploadWeight
    cases hs : w.weightHandles storage with
    | some h =>
      refine ⟨.inl, ?_⟩
      rintro (hh | ⟨rfl, -⟩)
      · exact hh
      · rw [hs]
        rfl
    | none =>
      cases fails with
      | true => simp
      | false =>
        simp only [Bool.false_eq_true, if_false, and_true]
        by_cases heq : s = storage
        · simp [heq]
        · simp [heq]

theorem getOrUploadWeight_frame (w : World V) (ctx storage : ℕ) (fails : Bool) :
    (w.getOrUploadWeight ctx storage fails).1.installed = w.installed ∧
      (w.getOrUploadWeight ctx storage fails).1.activations = w.activations := by
  unfold getOrUploadWeight
  cases w.weightHandles storage with
  | some h => exact ⟨rfl, rfl⟩
  | none => cases fails <;> exact ⟨rfl, rfl⟩

theorem uploadAll_installed (w : World V) (ctx : ℕ) (rs : List (ℕ × Bool)) :
    (w.uploadAll ctx rs).1.installed = w.installed := by
  induction rs generalizing w with
  | nil => rfl
  | cons r rs ih =>
    obtain ⟨storage, fails⟩ := r
    rw [uploadAll, ih, (w.getOrUploadWeight_frame ctx storage fails).1]

theorem requests_of_none {st : Weights.State} (h : st.ctx = none) (call : Weights.Call) :
    requests call (Weights.step st call).2 = [] := by
  cases call with
  | setContext ctx software => rfl
  | preUpload w fails => simp only [Weights.step, Weights.preUpload, h, requests]
  | linear t w fails => simp only [Weights.step, Weights.linear, h, requests]
  | rmsNormThenLinear t norm lin normFails linFails =>
    simp only [Weights.step, Weights.rmsNormThenLinear, h, requests]
  | fusedSwigluMlp t gateUp down gateUpFails downFails =>
    simp only [Weights.step, Weights.fusedSwigluMlp, h, requests]

theorem Synced.callWeights (hw : Synced contexts w) {call : Weights.Call}
    (hcall : ∀ ctx software, call ≠ .setContext ctx software) :
    Synced contexts (w.callWeights contexts call).1 := by
  have huploads := uploads_step w.weights call
  have hctx := step_ctx w.weights call hcall
  unfold World.callWeights
  cases hc : w.installed with
  | none =>
    have hnone : w.weights.ctx = none := by rw [hw.ctx, hc, Option.map_none]
    refine ⟨fun s => ?_, ?_⟩
    · dsimp only
      rw [huploads s, requests_of_none hnone, hw.handles s]
      simp
    · dsimp only
      rw [hctx, hw.ctx, hc]
  | some ctx =>
    dsimp only
    refine ⟨fun s => ?_, ?_⟩
    · dsimp only
      rw [uploadAll_isSome, huploads s, hw.handles s]
    · dsimp only
      rw [hctx, hw.ctx, uploadAll_installed]

theorem Synced.setContext (hw : Synced contexts w) {software : Bool} :
    Synced contexts (w.setContext contexts ctx software) where
  handles := hw.handles
  ctx := by cases software <;> rfl

theorem Synced.attendOn (hw : Synced contexts w) {layer : ℕ} {allocFails : Option PyError}
    {uses : List (Use V)} {submits : Bool} :
    Synced contexts (w.attendOn contexts zero ctx layer allocFails uses submits).1 := by
  unfold World.attendOn
  dsimp only
  split
  · dsimp only
    split_ifs <;> exact ⟨hw.handles, hw.ctx⟩
  · dsimp only
    split_ifs <;> exact ⟨hw.handles, hw.ctx⟩

theorem Synced.attend (hw : Synced contexts w) {fresh : Option (ℕ × Bool)} {layer : ℕ}
    {allocFails : Option PyError} {uses : List (Use V)} {submits : Bool} :
    Synced contexts (w.attend contexts zero fresh layer allocFails uses submits).1 := by
  have hfresh : Synced contexts (w.getVulkanContext contexts fresh) := by
    unfold getVulkanContext
    split
    · exact hw.setContext
    · exact hw
  unfold World.attend
  dsimp only
  split
  · exact hfresh
  · exact hfresh.attendOn

theorem Synced.step (hw : Synced contexts w) (call : Call V) :
    Synced contexts (Handles.step contexts zero w call).1 := by
  cases call with
  | setContext ctx software => exact hw.setContext
  | weights call =>
    cases call with
    | setContext ctx software => exact hw
    | _ => exact hw.callWeights (by simp)
  | collect storage =>
    refine ⟨fun s => ?_, hw.ctx⟩
    unfold Handles.step
    dsimp only
    by_cases hs : s = storage
    · rw [hs, Function.update_self, Function.update_self]
      simp
    · rw [Function.update_of_ne hs, Function.update_of_ne hs]
      exact hw.handles s
  | bind ev =>
    cases ev with
    | _ => exact ⟨hw.handles, hw.ctx⟩
  | attend fresh layer allocFails uses submits => exact hw.attend

end World

/-- **A handle is cached exactly for the weights that have a buffer**, throughout a run. -/
theorem weightHandles_isSome (contexts : ℕ → Context) (zero : V) (numLayers : ℕ)
    (calls : List (Call V)) :
    World.Synced contexts (finalState (step contexts zero) (World.init numLayers) calls) :=
  @finalState_inv _ _ _ (step contexts zero) (World.Synced contexts) (fun _ _ => True)
    (fun _ call hw _ => hw.step call) (World.init numLayers) calls
    ⟨fun _ => Iff.rfl, rfl⟩ (fun _ _ => trivial)

end Handles

end VllmVulkan
