import VllmVulkan.Gemma4.Parts

/-!
# Attempts to allocate the activation buffers

Whether the next attempts succeed is asked in one place only.

* `GpuState.Attempts` : a property of the attempts that are left;
* `initActBufs_attempt` : what an attempt does;
* `attempts_kept`, `layerOn_keeps` : **nothing else makes an attempt**;
* `lmHeadOn_attempt` : the LM head makes at most one.
-/

namespace VllmVulkan

namespace Gemma4

open Panics

variable {K : Type}

/-- Whether the activation buffers are there, and whether the next attempts to allocate them
succeed. -/
def GpuState.Attempts (A : Bool → (ℕ → Bool) → Prop) (st : GpuState K) : Prop :=
  A st.actBufs.isSome st.allocs

/-- Whether the activation buffers are there, or come with the attempt after `n` further ones. -/
def GpuState.attempt (st : GpuState K) (n : ℕ) : Bool := st.actBufs.isSome || st.allocs n

variable {A : Bool → (ℕ → Bool) → Prop}

theorem attempt_of_keeps {α : Type} {x : Panics (GpuState K) α}
    (h : ∀ A, Keeps (GpuState.Attempts A) x) (st : GpuState K) (n : ℕ) :
    (x st).2.attempt n = st.attempt n :=
  h (fun ready allocs => ∀ n, (ready || allocs n) = st.attempt n) st (fun _ => rfl) n

theorem onActs_keeps {α : Type} (f : Mem Act K → Option (α × Mem Act K)) :
    Keeps (GpuState.Attempts A) (onActs f) := by
  refine .get_bind ?_
  intro st hst
  rcases hacts : st.actBufs with _ | mem
  · exact fun st' hst' => hst'
  · have hset : ∀ mem' : Mem Act K, GpuState.Attempts A { st with actBufs := some mem' } := by
      intro mem'
      unfold GpuState.Attempts at hst
      rwa [hacts] at hst
    exact .bind .lift fun _ => .bind .lift fun p => .bind (.set (hset p.2)) fun _ => .pure

variable [Field K] [Elementary K]

omit [Elementary K] in
theorem initActBufs_attempt {m : VulkanModel K} {st st' : GpuState K} {b : Bool}
    (hengine : m.engine = true) (h : initActBufs m st = (some b, st')) :
    b = st.attempt 0 ∧ ∀ n, st'.attempt n = (st.attempt 0 || st.attempt (n + 1)) := by
  obtain ⟨kvCaches, actBufs, allocs, products⟩ := st
  unfold initActBufs at h
  rw [bind_some (show Panics.get _ = (some (GpuState.mk kvCaches actBufs allocs products), _)
    from rfl)] at h
  cases actBufs with
  | some mem =>
    obtain ⟨rfl, rfl⟩ := pure_eq_some.1 h
    exact ⟨rfl, fun n => rfl⟩
  | none =>
    cases halloc : allocs 0 with
    | true =>
      simp only [Option.isSome_none, Bool.false_eq_true, if_false, hengine, if_true, halloc] at h
      obtain ⟨mem, _, -, hrest⟩ := bind_eq_some.1 h
      obtain ⟨_, _, hset, hpure⟩ := bind_eq_some.1 hrest
      obtain ⟨rfl, rfl⟩ := pure_eq_some.1 hpure
      cases hset
      exact ⟨halloc.symm, fun n => by simp [GpuState.attempt, halloc]⟩
    | false =>
      simp only [Option.isSome_none, Bool.false_eq_true, if_false, hengine, if_true, halloc] at h
      obtain ⟨_, _, hset, hpure⟩ := bind_eq_some.1 h
      obtain ⟨rfl, rfl⟩ := pure_eq_some.1 hpure
      cases hset
      exact ⟨halloc.symm, fun n => by simp [GpuState.attempt, halloc]⟩

/-- **No elementary step makes an attempt.** -/
theorem attempts_kept (m : VulkanModel K) : GpuState.Kept m (GpuState.Attempts A) where
  write _ _ := onActs_keeps _
  read _ _ _ := onActs_keeps _
  submit _ := onActs_keeps _
  products hst _ := hst

theorem lmHeadOn_attempt {m : VulkanModel K} {st : GpuState K} {caches : Caches K}
    (hengine : m.engine = true) (hst : Mirrors m st caches) (hidden : List K) :
    (lmHeadOn m hidden st).2.attempt =
      if (m.gpuWeights .embedTokens).isSome && (m.gpuWeights .norm).isSome then
        fun n => st.attempt 0 || st.attempt (n + 1)
      else st.attempt := by
  unfold lmHeadOn
  rw [hengine]
  rcases m.gpuWeights .embedTokens with _ | lmW
  · rfl
  rcases m.gpuWeights .norm with _ | normW
  · rfl
  obtain ⟨b, st₁, hinit, -⟩ := initActBufs_spec hst
  obtain ⟨-, hattempt⟩ := initActBufs_attempt hengine hinit
  have hkeeps : Keeps (GpuState.Attempts fun ready allocs => ∀ n, (ready || allocs n) =
      (st.attempt 0 || st.attempt (n + 1)))
      (if b then lmHeadGpu m lmW normW hidden else lift (lmHead m.inner hidden)) := by
    split
    · exact (attempts_kept m).lmHeadGpu lmW normW hidden
    · exact .lift
  funext n
  dsimp only
  rw [bind_some hinit]
  exact hkeeps st₁ hattempt n

variable [LinearOrder K]

theorem layerOn_keeps (m : VulkanModel K) (i : ℕ) (hidden : List K) (pos : ℕ) (layerPle : List K)
    (cpuW : LayerCpuWeightRefs K) (useGpu : Bool) :
    Keeps (GpuState.Attempts A) (layerOn m i hidden pos layerPle cpuW useGpu) := by
  unfold layerOn
  refine .bind ?_ fun qkv => .bind (.zoom fun _ _ h => h) fun attnOut => ?_
  · split
    · exact (attempts_kept m).qkvGpu i hidden
    · exact .lift
  · split
    · exact (attempts_kept m).fusedPostAttention i attnOut hidden layerPle
    · exact (attempts_kept m).branchPostAttention i useGpu cpuW attnOut hidden layerPle

end Gemma4

end VllmVulkan
