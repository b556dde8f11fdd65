import VllmVulkan.Gemma4.Forward

/-!
# What the parts of a call keep

The parts of a layer that run on the GPU are made of a few elementary steps: a write to an
activation buffer, a submission, a read, and a product that leaves its temporary buffers behind.  A
property of the state that these keep is kept by the parts, whether they return or not.

* `GpuState.Kept` : a property that the elementary steps keep;
* `Kept.qkvGpu`, … : **so do the parts of a layer**, the LM head and the inputs of a pass.
-/

namespace VllmVulkan

namespace Gemma4

open Panics

variable {K : Type}

/-- The buffers that calls write: all but those of the two scalars. -/
def Writable (slot : Act) : Prop := slot ≠ .invCap ∧ slot ≠ .cap

instance (slot : Act) : Decidable (Writable slot) := inferInstanceAs (Decidable (_ ∧ _))

variable [Field K] [Elementary K]

/-- A property of the state that the elementary steps keep. -/
structure GpuState.Kept (m : VulkanModel K) (P : GpuState K → Prop) : Prop where
  write : ∀ {slot}, Writable slot → ∀ data, Keeps P (writeAct slot data)
  read : ∀ slot offset count, Keeps P (readAct slot offset count)
  submit : ∀ {rs}, (∀ d ∈ (groups rs).flatten, Writable d.out) → Keeps P (submitActs m rs)
  products : ∀ {st}, P st → ∀ products, P { st with products := products }

namespace GpuState.Kept

variable {m : VulkanModel K} {P : GpuState K → Prop}

theorem deref (h : Kept m P) (b : FBuf K) : Keeps P b.deref := by
  cases b with
  | borrowed slot len => exact h.read slot 0 len
  | owned data => exact .pure

theorem gpuMatmulOrCpu (h : Kept m P) (name : WeightName) (x : List K) (t k n : ℕ) (pc : MvPc) :
    Keeps P (gpuMatmulOrCpu m name x t k n pc) := by
  unfold Gemma4.gpuMatmulOrCpu
  split
  · exact .get_bind fun st hst => .bind (.set (h.products hst _)) fun _ => .lift
  · exact .bind .lift fun _ => .pure

theorem qkvGpu (h : Kept m P) (i : ℕ) (hidden : List K) : Keeps P (qkvGpu m i hidden) := by
  unfold Gemma4.qkvGpu
  refine .bind (h.write (by decide) _) fun _ => .bind .lift fun _ => .bind .lift fun w => ?_
  -- with the key and value weights of the layer, and without
  split
  · refine .bind (h.submit ?_) fun _ => .bind (h.read _ _ _) fun _ =>
      .bind (h.read _ _ _) fun _ => .bind (h.read _ _ _) fun _ => .pure
    simp [groups, Dispatch.out, Writable]
  · refine .bind (h.submit ?_) fun _ => .bind (h.read _ _ _) fun _ =>
      .bind (h.read _ _ _) fun _ => .bind (h.read _ _ _) fun _ => .pure
    simp [groups, Dispatch.out, Writable]

theorem fusedPostAttention (h : Kept m P) (i : ℕ) (attnOut residual layerPle : List K) :
    Keeps P (fusedPostAttention m i attnOut residual layerPle) := by
  unfold Gemma4.fusedPostAttention
  refine .bind (h.write (by decide) _) fun _ => .bind (h.write (by decide) _) fun _ =>
    .bind (h.write (by decide) _) fun _ => .bind .lift fun _ => .bind .lift fun w =>
    .bind (h.submit ?_) fun _ => h.read _ _ _
  simp [groups, Dispatch.out, Writable]

theorem oProjection (h : Kept m P) (i : ℕ) (useGpu : Bool) (attnOut : List K) :
    Keeps P (oProjection m i useGpu attnOut) := by
  unfold Gemma4.oProjection
  dsimp only
  split
  · refine .bind (h.write (by decide) _) fun _ => .bind (h.submit ?_) fun _ => .pure
    simp [groups, Dispatch.out, Writable]
  · exact .bind .lift fun _ => .pure

theorem ffn (h : Kept m P) (i : ℕ) (useGpu : Bool) (ffIn : List K) :
    Keeps P (ffn m i useGpu ffIn) := by
  unfold Gemma4.ffn
  dsimp only
  split
  · refine .bind (h.write (by decide) _) fun _ => .bind .lift fun _ =>
      .bind (h.submit ?_) fun _ => .pure
    simp [groups, Dispatch.out, Writable]
  · exact .bind .lift fun _ => .bind .lift fun _ =>
      .bind (h.gpuMatmulOrCpu _ _ _ _ _ _) fun _ => .pure

theorem pleContribution (h : Kept m P) (i : ℕ) (useGpu : Bool) (hidden3 layerPle : List K) :
    Keeps P (pleContribution m i useGpu hidden3 layerPle) := by
  unfold Gemma4.pleContribution
  dsimp only
  split
  · refine .bind (h.write (by decide) _) fun _ => .bind (h.write (by decide) _) fun _ =>
      .bind (h.submit ?_) fun _ => .pure
    simp [groups, Dispatch.out, Writable]
  · exact .bind .lift fun _ => .bind .lift fun _ => .pure

theorem branchPostAttention (h : Kept m P) (i : ℕ) (useGpu : Bool) (cpuW : LayerCpuWeightRefs K)
    (attnOut residual layerPle : List K) :
    Keeps P (branchPostAttention m i useGpu cpuW attnOut residual layerPle) := by
  unfold Gemma4.branchPostAttention
  exact .bind (h.oProjection i useGpu attnOut) fun _ => .bind (h.deref _) fun _ =>
    .bind .lift fun _ => .bind .lift fun _ => .bind (h.ffn i useGpu _) fun _ =>
    .bind (h.deref _) fun _ => .bind .lift fun _ =>
    .bind (h.pleContribution i useGpu _ layerPle) fun _ => .bind (h.deref _) fun _ =>
    .bind .lift fun _ => .pure

theorem lmHeadGpu (h : Kept m P) (lmW normW hidden : List K) :
    Keeps P (lmHeadGpu m lmW normW hidden) := by
  unfold Gemma4.lmHeadGpu
  refine .bind (h.write (by decide) _) fun _ => .bind (h.submit ?_) fun _ => h.read _ _ _
  simp [groups, Dispatch.out, Writable]

theorem gpuPassInputs (h : Kept m P) (tokenId : ℕ) : Keeps P (gpuPassInputs m tokenId) := by
  unfold Gemma4.gpuPassInputs
  exact .bind .lift fun _ => .bind .lift fun _ => .bind (h.gpuMatmulOrCpu _ _ _ _ _ _) fun _ =>
    .bind .lift fun _ => .pure

end GpuState.Kept

end Gemma4

end VllmVulkan
