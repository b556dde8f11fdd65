import VllmVulkan.Linear.Product
import VllmVulkan.Weights.Swiglu

/-!
# The linear dispatches of the fused MLP

`fused_swiglu_mlp` asks of its linear dispatches that they compute a product.  They are dispatches
of the two linear shaders, below the threshold the matvec shader and from there on the tiled one,
and what these leave is the product.

* `LinearLeaves` : what a linear dispatch can leave in its output;
* `linearLeaves_product` : **it is the product**, on either side of the threshold;
* `computesLinear_of_leaves`, `exists_leavesLinear` : so a batch of the shaders computes the linear
  layers, and there is always one.
-/

namespace VllmVulkan

namespace Weights

open Store Finset

variable {F : Type} [Field F]

/-- A linear dispatch can leave `out` in its output, which held `old` before; the matvec shader has
two more buffers bound, which it does not read. -/
def LinearLeaves (r : String × List (PcWord F) × (ℕ × ℕ × ℕ)) (w x old out : ℕ → F) : Prop :=
  if r.1 ∈ Matvec.matvecShaders then
    ∃ fuse0 fuse1 ss, Matvec.Form.Stores ⟨Matvec.pipelineSpec r.1 r.1,
      .ofFields (PcWord.u32At r.2.1), r.2.2⟩ w x fuse0 fuse1 ss ∧ Runs old ss out
  else
    ∃ ss, Matmul.Form.Stores ⟨.ofConstants Matmul.compileMatmul, .ofFields (PcWord.u32At r.2.1),
      r.2.2⟩ w x ss ∧ Runs old ss out

omit [Field F] in
theorem mlpLinear_cases {t k n : ℕ} {useF16 : Bool} {r : String × List (PcWord F) × (ℕ × ℕ × ℕ)}
    (h : mlpLinear t useF16 k n = .ok r) :
    (r.1 ∈ Matvec.matvecShaders ∧ k < 2 ^ 32 ∧ r.2.2 = (n, t, 1) ∧
      r.2.1 = [k, k, k, n, k * n, k, n, 0, 0, 1, t, t, 1].map .u32) ∨
    (r.1 ∉ Matvec.matvecShaders ∧ r.2.2 = matmulWorkgroups n t ∧
      r.2.1 = [n, t, k, k, k, n, n * k, k * t, n * t, 0, 1, k, 1, 1, 1, 1].map .u32) := by
  simp only [mlpLinear, mlpShader] at h
  split_ifs at h
  all_goals
    obtain ⟨pc, hpc, hr⟩ := Py.bind_eq_ok.1 h
    obtain rfl := Except.ok.inj hr
    obtain ⟨hfits, rfl⟩ := KvOps.structPack_eq_ok.1 hpc
  · exact Or.inl ⟨by simp [Matvec.matvecShaders], hfits _ List.mem_cons_self, rfl, rfl⟩
  · exact Or.inl ⟨by simp [Matvec.matvecShaders], hfits _ List.mem_cons_self, rfl, rfl⟩
  · exact Or.inr ⟨by simp [Matvec.matvecShaders], rfl, rfl⟩
  · exact Or.inr ⟨by simp [Matvec.matvecShaders], rfl, rfl⟩

/-- **What a linear dispatch leaves** is `x W^T`. -/
theorem linearLeaves_product {t k n : ℕ} {useF16 : Bool}
    {r : String × List (PcWord F) × (ℕ × ℕ × ℕ)} (h : mlpLinear t useF16 k n = .ok r)
    {w x old out : ℕ → F} (hout : LinearLeaves r w x old out) {i j : ℕ} (hi : i < t) (hj : j < n) :
    out (i * n + j) = ∑ l ∈ range k, w (j * k + l) * x (i * k + l) := by
  obtain ⟨name, pc, wg⟩ := r
  obtain ⟨hname, hk, rfl, rfl⟩ | ⟨hname, rfl, rfl⟩ := mlpLinear_cases h
  · rw [LinearLeaves, if_pos hname] at hout
    obtain ⟨fuse0, fuse1, ss, hss, hruns⟩ := hout
    have hproduct := (Matvec.plainForm_computes hname hk w x fuse0 fuse1).product ss hss
    exact hruns.of_mem (hproduct.once ▸ List.nodup_range) (hproduct.value i hi j hj)
  · rw [LinearLeaves, if_neg hname] at hout
    obtain ⟨ss, hss, hruns⟩ := hout
    exact ((Matmul.tiledForm_computes t k n w x).output ss hss old out hruns).1 i hi j hj

theorem exists_linearLeaves {t k n : ℕ} {useF16 : Bool}
    {r : String × List (PcWord F) × (ℕ × ℕ × ℕ)} (h : mlpLinear t useF16 k n = .ok r)
    (w x old : ℕ → F) : ∃ out, LinearLeaves r w x old out := by
  obtain ⟨name, pc, wg⟩ := r
  obtain ⟨hname, hk, rfl, rfl⟩ | ⟨hname, rfl, rfl⟩ := mlpLinear_cases h
  · obtain ⟨ss, hss⟩ := (Matvec.plainForm_computes (α := F) (t := t) (n := n) hname hk w x 0 0).runs
    refine ⟨applyStores old ss, ?_⟩
    rw [LinearLeaves, if_pos hname]
    exact ⟨0, 0, ss, hss, Runs.refl old ss⟩
  · obtain ⟨ss, hss⟩ := (Matmul.tiledForm_computes (α := F) t k n w x).runs
    refine ⟨applyStores old ss, ?_⟩
    rw [LinearLeaves, if_neg hname]
    exact ⟨ss, hss, Runs.refl old ss⟩

/-- The kernel leaves what the shaders can leave. -/
def LeavesLinear (kernel : LinearKernel F) : Prop :=
  ∀ {t k n : ℕ} {useF16 : Bool} {r : String × List (PcWord F) × (ℕ × ℕ × ℕ)},
    mlpLinear t useF16 k n = .ok r → ∀ w x old : ℕ → F,
      LinearLeaves r w x old (kernel r.1 r.2.1 r.2.2 w x old)

/-- **The shaders compute the linear layers** of the fused MLP. -/
theorem computesLinear_of_leaves {kernel : LinearKernel F} (hkernel : LeavesLinear kernel) :
    ComputesLinear kernel :=
  fun _ _ _ hr w x old _ hi _ hj => linearLeaves_product hr (hkernel hr w x old) hi hj

theorem exists_leavesLinear : ∃ kernel : LinearKernel F, LeavesLinear kernel := by
  classical
  refine ⟨fun name pc wg w x old =>
    if h : ∃ out, LinearLeaves (name, pc, wg) w x old out then h.choose else old, ?_⟩
  intro t k n useF16 r hr w x old
  have hout := exists_linearLeaves hr w x old
  show LinearLeaves r w x old (if h : ∃ out, LinearLeaves r w x old out then h.choose else old)
  rw [dif_pos hout]
  exact hout.choose_spec

end Weights

end VllmVulkan
