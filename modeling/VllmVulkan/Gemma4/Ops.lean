import VllmVulkan.Lang.Rust
import Mathlib.Algebra.BigOperators.Group.List.Basic
import Mathlib.Algebra.Field.Defs
import Mathlib.Data.List.GetD
import Mathlib.Order.Defs.LinearOrder
import Mathlib.Tactic.Ring

/-!
# The CPU operations of the Gemma4 model

`f32` is an ordered field with the elementary functions the code calls; `none` is a panic.

* `cpuRmsNorm`, `cpuMatmul`, `cpuGelu`, `cpuRope`, `cpuSdpa` : the operations;
* `rmsRow`, `matvec` : the norm of one row and the product with one vector;
* `cpuRmsNorm_row`, `cpuMatmul_one` : the operations on one row;
* `matvec_append` : **stacked weights multiply to stacked outputs**;
* `length_cpuSdpa` : the size of an attention output.
-/

namespace VllmVulkan

namespace Gemma4

/-- The functions of `f32` beyond its field operations. -/
class Elementary (K : Type) where
  /-- `f32::sqrt`. -/
  sqrt : K → K
  /-- `f32::tanh`. -/
  tanh : K → K
  /-- `f32::exp`. -/
  exp : K → K
  /-- The sine of `f32::sin_cos`. -/
  sin : K → K
  /-- The cosine of `f32::sin_cos`. -/
  cos : K → K
  /-- `f32::powf`. -/
  powf : K → K → K

open Elementary

variable {K : Type} [Field K] [Elementary K]

/-- `1.0 / rms` of a row of `n` elements. -/
def rmsScale (row : List K) (n : ℕ) (eps : K) : K :=
  1 / sqrt ((row.map fun v => v * v).sum / n + eps)

/-- One row, normalised and weighted. -/
def rmsRow (row weight : List K) (eps : K) : List K :=
  List.zipWith (fun v w => v * rmsScale row weight.length eps * w) row weight

/-- `cpu_rms_norm_inplace`. -/
def cpuRmsNormInplace (x weight : List K) (eps : K) : Option (List K) :=
  let n := weight.length
  if n = 0 then none
  else if x.length % n ≠ 0 then none
  else rowsInPlace (x.length / n) n (fun row => some (rmsRow row weight eps)) x

/-- `cpu_rms_norm_no_weight_inplace`. -/
def cpuRmsNormNoWeightInplace (x : List K) (n : ℕ) (eps : K) : Option (List K) :=
  if n = 0 then none
  else if x.length % n ≠ 0 then none
  else rowsInPlace (x.length / n) n (fun row => some (row.map fun v => v * rmsScale row n eps)) x

/-- `cpu_rms_norm`. -/
def cpuRmsNorm (x weight : List K) (eps : K) : Option (List K) := cpuRmsNormInplace x weight eps

/-- `Σ_{l < k} a[i * k + l] * b[j * k + l]`. -/
def dotRows (a b : List K) (k i j : ℕ) : K :=
  ((List.range k).map fun l => a.getD (i * k + l) 0 * b.getD (j * k + l) 0).sum

/-- `cpu_matmul`: `C[T,N] = A[T,K] × B[N,K]ᵀ`.  The product is handed to `sgemm` as pointers, whose
reads outside an operand are undefined; here they give 0, so that only of operands of these shapes
does a theorem speak about the code. -/
def cpuMatmul (a b : List K) (t k n : ℕ) : List K :=
  (List.range t).flatMap fun i => (List.range n).map fun j => dotRows a b k i j

-- The numerals of `K` that several modules write carry these instances.
scoped instance two_atLeastTwo : Nat.AtLeastTwo 2 := ⟨le_rfl⟩

scoped instance tenThousand_atLeastTwo : Nat.AtLeastTwo 10000 := ⟨Nat.le_add_left 2 9998⟩

scoped instance million_atLeastTwo : Nat.AtLeastTwo 1000000 := ⟨Nat.le_add_left 2 999998⟩

/-- GELU, by its tanh approximation. -/
def gelu (v : K) : K :=
  let c := 44715 / 1000000
  let sqrtTwoOverPi := 7978845608 / 10000000000
  let inner := sqrtTwoOverPi * (v + c * v * v * v)
  1 / 2 * v * (1 + tanh inner)

/-- `cpu_gelu`. -/
def cpuGelu (x : List K) : List K := x.map gelu

/-- The `(sin, cos)` table of `cpu_rope`. -/
def sinCosTable (pos rotaryDim : ℕ) (theta : K) : List (K × K) :=
  (List.range (rotaryDim / 2)).map fun i =>
    let freq : K := 1 / powf theta (i * 2 / rotaryDim)
    let angle := pos * freq
    (sin angle, cos angle)

/-- `rotate_head` of `cpu_rope`. -/
def rotateHead (half : ℕ) (sinCos : List (K × K)) (x : List K) : Option (List K) :=
  sinCos.zipIdx.foldlM (fun x p => do
    let x0 ← x[p.2]?
    let x1 ← x[p.2 + half]?
    let (s, c) := p.1
    pure ((x.set p.2 (x0 * c - x1 * s)).set (p.2 + half) (x0 * s + x1 * c))) x

/-- `cpu_rope`. -/
def cpuRope (q k : List K) (pos numQHeads numKvHeads headDim rotaryDim : ℕ) (theta : K) :
    Option (List K × List K) := do
  let half := rotaryDim / 2
  let sinCos := sinCosTable pos rotaryDim theta
  let q ← rowsInPlace numQHeads headDim (rotateHead half sinCos) q
  let k ← rowsInPlace numKvHeads headDim (rotateHead half sinCos) k
  pure (q, k)

/-- `dot4`: four lanes and a tail. -/
def dot4 (a b : List K) : Option K :=
  if a.length ≠ b.length then none
  else
    let n := a.length
    let chunks := n / 4
    let lane := fun j =>
      ((List.range chunks).map fun c => a.getD (c * 4 + j) 0 * b.getD (c * 4 + j) 0).sum
    let tail :=
      ((List.range' (chunks * 4) (n - chunks * 4)).map fun i => a.getD i 0 * b.getD i 0).sum
    some (lane 0 + lane 1 + lane 2 + lane 3 + tail)

/-- The product of a matrix with `n` rows of `k` elements and a vector. -/
def matvec (w x : List K) (k n : ℕ) : List K :=
  (List.range n).map fun r => ((List.range k).map fun j => w.getD (r * k + j) 0 * x.getD j 0).sum

/-! ### One row -/

omit [Elementary K] in
@[simp] theorem length_matvec (w x : List K) (k n : ℕ) : (matvec w x k n).length = n := by
  simp [matvec]

@[simp] theorem length_cpuGelu (x : List K) : (cpuGelu x).length = x.length := List.length_map ..

@[simp] theorem length_rmsRow (row weight : List K) (eps : K) :
    (rmsRow row weight eps).length = min row.length weight.length :=
  List.length_zipWith ..

theorem cpuRmsNorm_row {x weight : List K} (h : x.length = weight.length) (hpos : 0 < x.length)
    (eps : K) : cpuRmsNorm x weight eps = some (rmsRow x weight eps) := by
  unfold cpuRmsNorm cpuRmsNormInplace
  simp only [← h, Nat.mod_self, Nat.div_self hpos]
  rw [if_neg hpos.ne', if_neg (by simp)]
  exact rowsInPlace_one rfl (by rw [length_rmsRow, ← h, Nat.min_self])

omit [Elementary K] in
theorem cpuMatmul_one (x w : List K) (k n : ℕ) : cpuMatmul x w 1 k n = matvec w x k n := by
  simp only [cpuMatmul, matvec, List.range_one, List.flatMap_cons, List.flatMap_nil,
    List.append_nil, dotRows, Nat.zero_mul, Nat.zero_add]
  refine List.map_congr_left ?_
  intro r _
  congr 1
  exact List.map_congr_left fun j _ => mul_comm _ _

omit [Elementary K] in
/-- **Stacked weights multiply to stacked outputs.** -/
theorem matvec_append {w w' : List K} (x : List K) {k n : ℕ} (h : w.length = n * k) (m : ℕ) :
    matvec (w ++ w') x k (n + m) = matvec w x k n ++ matvec w' x k m := by
  unfold matvec
  rw [List.range_add, List.map_append, List.map_map]
  congr 1
  · refine List.map_congr_left ?_
    intro r hr
    congr 1
    refine List.map_congr_left ?_
    intro j hj
    have hlt : r * k + j < w.length := by
      rw [h]
      calc r * k + j < (r + 1) * k := by
            rw [Nat.add_mul, Nat.one_mul]
            exact Nat.add_lt_add_left (List.mem_range.1 hj) _
        _ ≤ n * k := Nat.mul_le_mul_right k (List.mem_range.1 hr)
    rw [List.getD_append _ _ _ _ hlt]
  · refine List.map_congr_left ?_
    intro r _
    simp only [Function.comp_apply]
    congr 1
    refine List.map_congr_left ?_
    intro j _
    have hidx : (n + r) * k + j = w.length + (r * k + j) := by
      rw [h, Nat.add_mul, Nat.add_assoc]
    rw [hidx, List.getD_append_right _ _ _ _ (Nat.le_add_right _ _), Nat.add_sub_cancel_left]

/-! ### Attention -/

variable [LinearOrder K]

/-- The softmax of a row of scores, as `cpu_sdpa` computes it. -/
def softmaxScores (scores : List K) : List K :=
  let maxScore := scores.max?.getD 0
  let expScores := scores.map fun s => exp (s - maxScore)
  let sum := expScores.sum
  expScores.map fun e => e / sum

/-- The output row of query head `qh` in `cpu_sdpa`, over the positions it attends to. -/
def sdpaRow (q k v : List K) (positions : List ℕ) (numKvHeads headDim gqaRatio : ℕ) (scale : K)
    (qh : ℕ) : Option (List K) := do
  let kvh ← usizeDiv qh gqaRatio
  let qRow ← slice q (qh * headDim) ((qh + 1) * headDim)
  let scores ← positions.mapM fun kvPos => do
    let kRow ← slice k ((kvPos * numKvHeads + kvh) * headDim)
      ((kvPos * numKvHeads + kvh + 1) * headDim)
    let d ← dot4 qRow kRow
    pure (d * scale)
  ((softmaxScores scores).zip positions).foldlM (fun out p => do
    let vRow ← slice v ((p.2 * numKvHeads + kvh) * headDim)
      ((p.2 * numKvHeads + kvh + 1) * headDim)
    pure (List.zipWith (fun o vv => o + p.1 * vv) out vRow)) (List.replicate headDim 0)

/-- `cpu_sdpa`. -/
def cpuSdpa (q k v : List K) (numQHeads numKvHeads headDim seqLen : ℕ) (scale : K)
    (slidingWindow : Option ℕ) : Option (List K) := do
  let gqaRatio ← usizeDiv numQHeads numKvHeads
  let kvStart := match slidingWindow with
    | some window => seqLen - window
    | none => 0
  let positions := List.range' kvStart (seqLen - kvStart)
  let rows ← (List.range numQHeads).mapM
    (sdpaRow q k v positions numKvHeads headDim gqaRatio scale)
  pure rows.flatten

theorem length_sdpaRow {q k v out : List K} {positions : List ℕ} {nkv d ratio : ℕ} {scale : K}
    {qh : ℕ} (h : sdpaRow q k v positions nkv d ratio scale qh = some out) : out.length = d := by
  simp only [sdpaRow, Option.bind_eq_bind, Option.bind_eq_some_iff, Option.pure_def] at h
  obtain ⟨kvh, -, qRow, -, scores, -, hfold⟩ := h
  refine foldlM_inv (P := fun o => o.length = d) (fun o p o' ho ho' => ?_) List.length_replicate
    hfold
  simp only [Option.bind_eq_some_iff, Option.some.injEq] at ho'
  obtain ⟨vRow, hrow, rfl⟩ := ho'
  rw [List.length_zipWith, ho, length_slice hrow, ← Nat.sub_mul, Nat.add_sub_cancel_left,
    Nat.one_mul, Nat.min_self]

theorem length_cpuSdpa {q k v out : List K} {nq nkv d seqLen : ℕ} {scale : K} {window : Option ℕ}
    (h : cpuSdpa q k v nq nkv d seqLen scale window = some out) : out.length = nq * d := by
  simp only [cpuSdpa, Option.bind_eq_bind, Option.bind_eq_some_iff, Option.pure_def,
    Option.some.injEq] at h
  obtain ⟨ratio, -, rows, hrows, rfl⟩ := h
  rw [mapM_eq_some] at hrows
  have hd : ∀ n ∈ rows.map List.length, n = d := by
    intro n hn
    obtain ⟨row, hmem, rfl⟩ := List.mem_map.1 hn
    obtain ⟨i, hi, rfl⟩ := List.getElem_of_mem hmem
    exact length_sdpaRow (hrows.get (hrows.length_eq ▸ hi) hi)
  rw [List.length_flatten, List.eq_replicate_of_mem hd, List.sum_replicate_nat, List.length_map,
    ← hrows.length_eq, List.length_range]

end Gemma4

end VllmVulkan
