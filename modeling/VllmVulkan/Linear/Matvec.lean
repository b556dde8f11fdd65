import VllmVulkan.Lib.Loops
import VllmVulkan.Kv.Coop
import VllmVulkan.Weights.Mlp

/-!
# The matvec shader

`mul_mat_vec.comp`, as it is compiled for float weights.  A workgroup computes some rows of the
output for one row of the input: every invocation sums a strided part of the products, two columns
at a time, and a tree reduction in shared memory adds the parts up.  Elements and indices are exact.

* `Spec`, `Params`, `compileMatvec`, `mvPc`, `wgR4` : the specialization constants and the push
  constants of the two forms that are dispatched;
* `iter`, `accumulate` : the loops of an invocation;
* `OutputStores`, `DispatchStores` : the stores of a workgroup and of a dispatch, for any
  interleaving;
* `accumulate_eq`, `sum_numIters` : every column is visited once, whatever the parity of the row;
* `reduce_sum` : after the reduction, the first cell of a row holds the sum of its parts;
* `dispatchStores_eq` : the stores of a dispatch;
* `forms_compute` : **the dispatches of Python and of Rust compute the same product**.
-/

namespace VllmVulkan

namespace Matvec

open Store Finset

/-! ### Constants -/

/-- The specialization constants of a matvec pipeline. -/
structure Spec where
  /-- `BLOCK_SIZE`, the local size too. -/
  blockSize : ℕ
  /-- `NUM_ROWS`. -/
  numRows : ℕ
  /-- `NUM_COLS`. -/
  numCols : ℕ
  deriving DecidableEq, Repr

/-- The constants given by their ids, the others at their defaults. -/
def Spec.ofConstants (constants : List (ℕ × ℕ)) : Spec where
  blockSize := (constants.lookup 0).getD 32
  numRows := (constants.lookup 1).getD 1
  numCols := (constants.lookup 2).getD 1

/-- `PipelineCache::compile_matvec`: the pipelines it registers, with their constants. -/
def compileMatvec (name : String) : List (String × List (ℕ × ℕ)) :=
  [(name, [(0, 128), (1, 1), (2, 1)]), (name ++ "_r4", [(0, 32), (1, 4), (2, 1)])]

/-- The push constants; `stride_a` and `stride_b` are at 1 and 2, and no shader reads them. -/
structure Params where
  ncols : ℕ
  strideD : ℕ
  batchStrideA : ℕ
  batchStrideB : ℕ
  batchStrideD : ℕ
  fusionFlags : ℕ
  baseWorkGroupY : ℕ
  ne02 : ℕ
  ne12 : ℕ
  broadcast2 : ℕ
  broadcast3 : ℕ
  deriving DecidableEq, Repr

/-- The push constants, by their positions. -/
def Params.ofFields (field : ℕ → ℕ) : Params where
  ncols := field 0
  strideD := field 3
  batchStrideA := field 4
  batchStrideB := field 5
  batchStrideD := field 6
  fusionFlags := field 7
  baseWorkGroupY := field 8
  ne02 := field 9
  ne12 := field 10
  broadcast2 := field 11
  broadcast3 := field 12

/-- `as u32`. -/
def asU32 (n : ℕ) : ℕ := n % 2 ^ 32

/-- `mv_pc`. -/
def mvPc (k n t : ℕ) : List ℕ :=
  [asU32 k, asU32 k, asU32 k, asU32 n, asU32 (k * n), asU32 k, asU32 n, 0, 0, 1, asU32 t, asU32 t,
    1]

/-- `wg_r4`. -/
def wgR4 (n : ℕ) : ℕ := asU32 (ceilDiv n 4)

/-! ### One invocation -/

/-- `K_PER_ITER`. -/
def kPerIter : ℕ := 2

/-- `QUANT_K`. -/
def quantK : ℕ := 1

/-- `QUANT_R`. -/
def quantR : ℕ := 1

/-- `y_offset`. -/
def yOffset : ℕ := if quantR = 1 then 1 else quantK / 2

/-- `a_offset`, `b_offset` and `d_offset`. -/
structure Offsets where
  a : ℕ
  b : ℕ
  d : ℕ
  deriving DecidableEq, Repr

/-- `get_offsets`. -/
def getOffsets (p : Params) (workGroupY : ℕ) : Offsets :=
  let batchIdx := workGroupY + p.baseWorkGroupY
  let batchIdxA :=
    if batchIdx ≠ 0 then
      let i13 := batchIdx / p.ne12
      let i12 := batchIdx % p.ne12
      let i03 := i13 / p.broadcast3
      let i02 := i12 / p.broadcast2
      i03 * p.ne02 + i02
    else 0
  { a := batchIdxA * (p.batchStrideA / quantK)
    b := batchIdx * p.batchStrideB
    d := batchIdx * p.batchStrideD }

section

variable {F : Type} [Field F]

/-- `dequantize`, for float weights. -/
def dequantize (dataA : ℕ → F) (ib aOffset : ℕ) : F × F :=
  (dataA (aOffset + ib), dataA (aOffset + ib + 1))

variable (s : Spec) (p : Params) (dataA dataB dataFuse0 dataFuse1 : ℕ → F) (o : Offsets)
  (firstRow numRows : ℕ)

/-- `iter`; `temp` is indexed by the column and the row. -/
def iter (tid i : ℕ) (lastiter : Bool) (temp : ℕ → ℕ → F) : ℕ → ℕ → F := fun j n =>
  if j < s.numCols ∧ n < numRows then
    let col := i * s.blockSize + kPerIter * tid
    let iqs := (col % quantK) / quantR
    let iybs := col - col % quantK
    let oob := lastiter && decide (iybs + iqs + yOffset ≥ p.ncols)
    let b0 := dataB (j * p.batchStrideB + o.b + iybs + iqs)
    let b1 := if !oob then dataB (j * p.batchStrideB + o.b + iybs + iqs + yOffset) else 0
    let ibi := firstRow * p.ncols + n * p.ncols
    let ib := (ibi + col) / quantK
    let v := dequantize dataA ib o.a
    let acc := v.1 * b0 + temp j n
    if !oob then v.2 * b1 + acc else acc
  else temp j n

/-- `num_iters`. -/
def numIters (tid : ℕ) : ℕ :=
  let n := p.ncols / (kPerIter * s.blockSize)
  if n * kPerIter * s.blockSize + kPerIter * tid < p.ncols then n + 1 else n

/-- `unrolled_iters`. -/
def unrolledIters (ncols numIters unrollCount : ℕ) : ℕ :=
  -- `num_iters & ~(unroll_count - 1)` in 32 bits
  let unrolled := numIters &&& (2 ^ 32 - unrollCount)
  if ncols &&& 1 ≠ 0 ∧ unrolled = numIters ∧ unrolled > 0 then unrolled - unrollCount else unrolled

/-- The three loops of `compute_outputs`; `none` is one that never ends. -/
def accumulate (tid : ℕ) : Option (ℕ → ℕ → F) := do
  let step (lastiter : Bool) (i : ℕ) (temp : ℕ → ℕ → F) : ℕ → ℕ → F :=
    iter s p dataA dataB o firstRow numRows tid (i * kPerIter) lastiter temp
  let unrolled (count i : ℕ) (temp : ℕ → ℕ → F) : ℕ → ℕ → F :=
    (List.range' i count).foldl (fun temp i => step false i temp) temp
  let n := numIters s p tid
  let (i, temp) ← forLoop (unrolledIters p.ncols n 4) 4 (unrolled 4) 0 fun _ _ => 0
  let (i, temp) ← forLoop (unrolledIters p.ncols n 2) 2 (unrolled 2) i temp
  let (_, temp) ← forLoop n 1 (step true) i temp
  return temp

/-! ### A workgroup -/

/-- The variables of an invocation. -/
structure Local (F : Type) where
  temp : ℕ → ℕ → F
  /-- The register an operand is loaded into. -/
  lhs : F
  /-- The register the other operand of a sum is loaded into. -/
  rhs : F
  /-- The stores to `data_d`, so far. -/
  stores : List (ℕ × F)

/-- The rows of `tmpsh`: a column and a row. -/
def cells : List (ℕ × ℕ) :=
  (List.range s.numCols).flatMap fun j => (List.range numRows).map fun n => (j, n)

/-- The partial sums go to shared memory. -/
def partialPhase (temp : ℕ → ℕ → F) (tid : Fin s.blockSize) :
    List (Action (Local F) ((ℕ × ℕ) × ℕ) F) :=
  .compute (fun ℓ => { ℓ with temp := temp }) ::
    (cells s numRows).map fun c => .store (c, tid) fun ℓ => ℓ.temp c.1 c.2

/-- `if (tid < s) tmpsh[j][n][tid] += tmpsh[j][n][tid + s]`, for every `j` and `n`. -/
def reducePhase (stride : ℕ) (tid : Fin s.blockSize) :
    List (Action (Local F) ((ℕ × ℕ) × ℕ) F) :=
  if tid.val < stride then
    (cells s numRows).flatMap fun c =>
      [.load (c, tid) fun ℓ x => { ℓ with lhs := x },
        .load (c, tid + stride) fun ℓ x => { ℓ with rhs := x },
        .store (c, tid) fun ℓ => ℓ.lhs + ℓ.rhs]
  else []

/-- `MAT_VEC_FUSION_FLAGS_BIAS0`. -/
def fusionFlagBias0 : ℕ := 1

/-- `MAT_VEC_FUSION_FLAGS_BIAS1`. -/
def fusionFlagBias1 : ℕ := 2

/-- The first invocation adds the biases and stores the results. -/
def writePhase (tid : Fin s.blockSize) : List (Action (Local F) ((ℕ × ℕ) × ℕ) F) :=
  if tid.val = 0 then
    (cells s numRows).flatMap fun c =>
      let dst := c.1 * p.batchStrideD + o.d + firstRow + c.2
      (if p.fusionFlags &&& fusionFlagBias0 ≠ 0 then
        [.load (c, 0) fun ℓ x => { ℓ with lhs := x },
          .store (c, 0) fun ℓ => ℓ.lhs + dataFuse0 dst]
      else []) ++
      (if p.fusionFlags &&& fusionFlagBias1 ≠ 0 then
        [.load (c, 0) fun ℓ x => { ℓ with lhs := x },
          .store (c, 0) fun ℓ => ℓ.lhs + dataFuse1 dst]
      else []) ++
      [.load (c, 0) fun ℓ x => { ℓ with lhs := x },
        .compute fun ℓ => { ℓ with stores := ℓ.stores ++ [(dst, ℓ.lhs)] }]
  else []

/-- `compute_outputs`, cut at its barriers, when the loops leave `temps`. -/
def outputPhases (temps : Fin s.blockSize → ℕ → ℕ → F) :
    List (Fin s.blockSize → List (Action (Local F) ((ℕ × ℕ) × ℕ) F)) :=
  (fun tid => partialPhase s numRows (temps tid) tid) ::
    (Coop.strides (s.blockSize / 2)).map (reducePhase s numRows) ++
      [writePhase s p dataFuse0 dataFuse1 o firstRow numRows]

/-- `ss` are the stores of `compute_outputs` in some execution, whatever the shared memory holds at
the start. -/
def OutputStores (ss : List (ℕ × F)) : Prop :=
  ∃ temps : Fin s.blockSize → ℕ → ℕ → F,
    (∀ tid : Fin s.blockSize,
      accumulate s p dataA dataB o firstRow numRows tid = some (temps tid)) ∧
    ∃ m ℓ' m', RunPhases (outputPhases s p dataFuse0 dataFuse1 o firstRow numRows temps)
        (fun _ => ⟨fun _ _ => 0, 0, 0, []⟩) m ℓ' m' ∧
      ss = (List.finRange s.blockSize).flatMap fun tid => (ℓ' tid).stores

/-- `main`: the stores of the workgroup `(x, y, z)` in some execution. -/
def WorkgroupStores (numWorkGroupsX x y z : ℕ) (ss : List (ℕ × F)) : Prop :=
  let firstRow := s.numRows * (x + numWorkGroupsX * z)
  let o := getOffsets p y
  if firstRow + s.numRows ≤ p.strideD then
    OutputStores s p dataA dataB dataFuse0 dataFuse1 o firstRow s.numRows ss
  else if firstRow ≥ p.strideD then ss = []
  else OutputStores s p dataA dataB dataFuse0 dataFuse1 o firstRow (p.strideD - firstRow) ss

/-- `ss` are the stores of a dispatch in some execution of its workgroups. -/
def DispatchStores (wg : ℕ × ℕ × ℕ) (ss : List (ℕ × F)) : Prop :=
  ∃ f : ℕ → ℕ → ℕ → List (ℕ × F),
    (∀ x < wg.1, ∀ y < wg.2.1, ∀ z < wg.2.2,
      WorkgroupStores s p dataA dataB dataFuse0 dataFuse1 wg.1 x y z (f x y z)) ∧
    ss = (List.range wg.2.2).flatMap fun z => (List.range wg.2.1).flatMap fun y =>
      (List.range wg.1).flatMap fun x => f x y z

end

/-! ### The loops of an invocation -/

theorem land_clear {n : ℕ} (k : ℕ) (hk : k ≤ 32) (hn : n < 2 ^ 32) :
    n &&& (2 ^ 32 - 2 ^ k) = n / 2 ^ k * 2 ^ k := by
  have hmask : 2 ^ 32 - 2 ^ k = (2 ^ (32 - k) - 1) * 2 ^ k := by
    rw [Nat.sub_mul, ← pow_add, Nat.sub_add_cancel hk, Nat.one_mul]
  refine Nat.eq_of_testBit_eq ?_
  intro i
  rw [hmask, Nat.testBit_and, Nat.testBit_mul_two_pow, Nat.testBit_mul_two_pow,
    Nat.testBit_two_pow_sub_one, Nat.testBit_div_two_pow]
  by_cases hi : k ≤ i
  · rw [Nat.sub_add_cancel hi]
    by_cases hlt : i < 32
    · simp [hi, show i - k < 32 - k by omega]
    · have hzero : n.testBit i = false :=
        Nat.testBit_lt_two_pow (hn.trans_le (Nat.pow_le_pow_right (by decide) (by omega)))
      simp [hzero]
  · simp [hi]

theorem unrolledIters_spec (ncols : ℕ) {n : ℕ} (hn : n < 2 ^ 32) :
    ∃ n₁ n₂, unrolledIters ncols n 4 = n₁ * 4 ∧ unrolledIters ncols n 2 = n₁ * 4 + n₂ * 2 ∧
      n₁ * 4 + n₂ * 2 ≤ n ∧ (ncols % 2 = 1 → 0 < n → n₁ * 4 + n₂ * 2 < n) := by
  have h4 : n &&& (2 ^ 32 - 4) = n / 4 * 4 := land_clear 2 (by decide) hn
  have h2 : n &&& (2 ^ 32 - 2) = n / 2 * 2 := land_clear 1 (by decide) hn
  have hodd : ncols &&& 1 = ncols % 2 := Nat.and_one_is_mod ncols
  have hu4 : unrolledIters ncols n 4 =
      if ncols % 2 ≠ 0 ∧ n / 4 * 4 = n ∧ n / 4 * 4 > 0 then n / 4 * 4 - 4 else n / 4 * 4 := by
    simp only [unrolledIters, h4, hodd]
  have hu2 : unrolledIters ncols n 2 =
      if ncols % 2 ≠ 0 ∧ n / 2 * 2 = n ∧ n / 2 * 2 > 0 then n / 2 * 2 - 2 else n / 2 * 2 := by
    simp only [unrolledIters, h2, hodd]
  refine ⟨unrolledIters ncols n 4 / 4, (unrolledIters ncols n 2 - unrolledIters ncols n 4) / 2, ?_⟩
  split_ifs at hu4 hu2 <;> omega

/-- Two neighbouring terms, the second one if there is one. -/
def pairSum {M : Type} [AddCommMonoid M] (f : ℕ → M) (k c : ℕ) : M :=
  f c + if c + 1 < k then f (c + 1) else 0

section

variable {F : Type} [Field F] {s : Spec} {p : Params} {dataA dataB dataFuse0 dataFuse1 : ℕ → F}
  {o : Offsets} {firstRow numRows : ℕ}

/-- The products of a row. -/
def term (p : Params) (dataA dataB : ℕ → F) (o : Offsets) (row c : ℕ) : F :=
  dataA (o.a + (row * p.ncols + c)) * dataB (o.b + c)

/-- **One turn** adds two products, the second one if it is not out of bounds. -/
theorem iter_apply (hcols : s.numCols = 1) {tid i : ℕ} {lastiter : Bool} (temp : ℕ → ℕ → F) {n : ℕ}
    (hn : n < numRows)
    (hlast : lastiter = false → i * kPerIter * s.blockSize + kPerIter * tid + 1 < p.ncols) :
    iter s p dataA dataB o firstRow numRows tid (i * kPerIter) lastiter temp 0 n = temp 0 n +
      pairSum (term p dataA dataB o (firstRow + n)) p.ncols
        (i * kPerIter * s.blockSize + kPerIter * tid) := by
  obtain ⟨col, hcol⟩ : ∃ col, i * kPerIter * s.blockSize + kPerIter * tid = col := ⟨_, rfl⟩
  rw [hcol] at hlast
  have hb : ∀ c, 0 * p.batchStrideB + o.b + c = o.b + c := fun c => by
    rw [Nat.zero_mul, Nat.zero_add]
  have ha : ∀ c, o.a + (firstRow * p.ncols + n * p.ncols + c) =
      o.a + ((firstRow + n) * p.ncols + c) := fun c => by rw [Nat.add_mul]
  have hcond : (0 < s.numCols ∧ n < numRows) := ⟨hcols ▸ Nat.one_pos, hn⟩
  have hoob : (lastiter && decide (col + 1 ≥ p.ncols)) = !decide (col + 1 < p.ncols) := by
    cases lastiter with
    | false => rw [Bool.false_and, decide_eq_true (hlast rfl)]; rfl
    | true => rw [Bool.true_and, ← decide_not, decide_eq_decide, ge_iff_le, not_lt]
  simp only [iter, if_pos hcond, hcol, quantK, quantR, yOffset, Nat.mod_one, Nat.div_one,
    Nat.sub_zero, Nat.add_zero, if_true, hb, dequantize, ha, hoob, Bool.not_not, decide_eq_true_eq,
    pairSum, term]
  split_ifs with hin
  · simp only [← Nat.add_assoc]
    ring
  · ring

/-- **Some turns** add the products of their columns. -/
theorem foldl_iter (hcols : s.numCols = 1) {tid : ℕ} {lastiter : Bool} {n : ℕ} (hn : n < numRows)
    (start count : ℕ) (temp : ℕ → ℕ → F) (hlast : lastiter = false → ∀ i < start + count,
      i * kPerIter * s.blockSize + kPerIter * tid + 1 < p.ncols) :
    (List.range' start count).foldl (fun temp i =>
      iter s p dataA dataB o firstRow numRows tid (i * kPerIter) lastiter temp) temp 0 n =
        temp 0 n + ∑ i ∈ Ico start (start + count),
          pairSum (term p dataA dataB o (firstRow + n)) p.ncols
            (i * kPerIter * s.blockSize + kPerIter * tid) := by
  induction count with
  | zero => simp
  | succ count ih =>
    rw [← Nat.add_assoc, sum_Ico_succ_top (Nat.le_add_right _ _), ← add_assoc,
      ← ih fun h i hi => hlast h i (by omega), List.range'_concat, List.foldl_append,
      List.foldl_cons, List.foldl_nil, Nat.one_mul]
    exact iter_apply hcols _ hn fun h => hlast h _ (by omega)

theorem lt_numIters_iff {tid i : ℕ} (htid : tid < s.blockSize) :
    i < numIters s p tid ↔ i * kPerIter * s.blockSize + kPerIter * tid < p.ncols := by
  obtain ⟨w, hw⟩ : ∃ w, kPerIter * s.blockSize = w := ⟨_, rfl⟩
  have ht : kPerIter * tid < w := hw ▸ Nat.mul_lt_mul_of_pos_left htid (by decide)
  have hdiv : p.ncols / w * w ≤ p.ncols := Nat.div_mul_le_self _ _
  have hle : ∀ {j}, j ≤ p.ncols / w ↔ j * w ≤ p.ncols := Nat.le_div_iff_mul_le (by omega)
  simp only [numIters, Nat.mul_assoc, hw]
  constructor
  · intro hi
    obtain h | rfl := Nat.lt_or_ge i (p.ncols / w) |>.imp_right fun h => show i = p.ncols / w by
      split_ifs at hi <;> omega
    · have hsucc := hle.1 (Nat.succ_le_of_lt h)
      rw [Nat.succ_mul] at hsucc
      omega
    · split_ifs at hi with hlast
      · exact hlast
      · exact absurd hi (lt_irrefl _)
  · intro hi
    have hi' : i ≤ p.ncols / w := hle.2 (by omega)
    obtain h | rfl := hi'.lt_or_eq
    · split_ifs <;> omega
    · rw [if_pos hi]
      omega

theorem accumulate_loops {tid n₁ n₂ : ℕ}
    (h4 : unrolledIters p.ncols (numIters s p tid) 4 = n₁ * 4)
    (h2 : unrolledIters p.ncols (numIters s p tid) 2 = n₁ * 4 + n₂ * 2) :
    let turn lastiter temp i :=
      iter s p dataA dataB o firstRow numRows tid (i * kPerIter) lastiter temp
    accumulate s p dataA dataB o firstRow numRows tid =
      some ((List.range' (n₁ * 4 + n₂ * 2) (numIters s p tid - (n₁ * 4 + n₂ * 2))).foldl (turn true)
        ((List.range' 0 (n₁ * 4 + n₂ * 2)).foldl (turn false) fun _ _ => 0)) := by
  have hfirst := fun f s => forLoop_unroll (S := ℕ → ℕ → F) (show 0 < 4 by decide) n₁ f 0 s
  have hsecond := fun f s => forLoop_unroll (S := ℕ → ℕ → F) (show 0 < 2 by decide) n₂ f (n₁ * 4) s
  have hone : ∀ d, ceilDiv d 1 = d := fun d => by rw [ceilDiv, Nat.add_sub_cancel, Nat.div_one]
  simp only [Nat.zero_add] at hfirst
  simp only [accumulate, h4, h2, hfirst, hsecond, Option.bind_eq_bind, Option.bind_some,
    forLoop_eq Nat.one_pos, hone]
  have hsplit : List.range' 0 (n₁ * 4 + n₂ * 2) =
      List.range' 0 (n₁ * 4) ++ List.range' (n₁ * 4) (n₂ * 2) := by
    rw [← List.range'_append_1, Nat.zero_add]
  rw [hsplit, List.foldl_append]
  rfl

/-- **What the loops of an invocation leave**: the products of its columns, whatever the parity of
the row. -/
theorem accumulate_eq (dataA dataB : ℕ → F) (o : Offsets) (firstRow numRows : ℕ)
    (hcols : s.numCols = 1) {tid : ℕ} (htid : tid < s.blockSize) (hncols : p.ncols < 2 ^ 32) :
    ∃ temp, accumulate s p dataA dataB o firstRow numRows tid = some temp ∧
      ∀ n < numRows, temp 0 n = ∑ i ∈ range (numIters s p tid),
        pairSum (term p dataA dataB o (firstRow + n)) p.ncols
          (i * kPerIter * s.blockSize + kPerIter * tid) := by
  have hnum : numIters s p tid < 2 ^ 32 := by
    refine (Nat.le_of_not_lt fun hbig => ?_).trans_lt hncols
    have hlt := (lt_numIters_iff htid).1 hbig
    have hle : p.ncols ≤ p.ncols * kPerIter * s.blockSize := by
      rw [Nat.mul_assoc]
      exact Nat.le_mul_of_pos_right _ (Nat.mul_pos (by decide) (Nat.zero_lt_of_lt htid))
    omega
  obtain ⟨n₁, n₂, h4, h2, hle, hodd⟩ := unrolledIters_spec p.ncols hnum
  refine ⟨_, accumulate_loops h4 h2, fun n hn => ?_⟩
  -- the turns that do not check the bounds are inside
  have hinside : ∀ i < 0 + (n₁ * 4 + n₂ * 2),
      i * kPerIter * s.blockSize + kPerIter * tid + 1 < p.ncols := by
    intro i hi
    rw [Nat.zero_add] at hi
    have hcol := (lt_numIters_iff htid).1 (hi.trans_le hle)
    have heven : i * kPerIter * s.blockSize + kPerIter * tid = 2 * (i * s.blockSize + tid) := by
      rw [kPerIter]
      ring
    obtain hpar | hpar := Nat.mod_two_eq_zero_or_one p.ncols
    · omega
    · have hnext := (lt_numIters_iff htid).1
        ((Nat.succ_le_of_lt hi).trans_lt (hodd hpar (Nat.zero_lt_of_lt (hi.trans_le hle))))
      have hstep : (i + 1) * kPerIter * s.blockSize =
          i * kPerIter * s.blockSize + kPerIter * s.blockSize := by ring
      have hpos : 0 < kPerIter * s.blockSize := Nat.mul_pos (by decide) (Nat.zero_lt_of_lt htid)
      rw [Nat.succ_eq_add_one, hstep] at hnext
      omega
  rw [foldl_iter hcols hn _ _ _ fun h => absurd h (by decide),
    foldl_iter hcols hn _ _ _ fun _ => hinside, Nat.zero_add, zero_add, Nat.add_sub_cancel' hle,
    ← range_eq_Ico, sum_range_add_sum_Ico _ hle]

theorem sum_pairSum {M : Type} [AddCommMonoid M] (f : ℕ → M) (k : ℕ) :
    ∑ i ∈ range (ceilDiv k 2), pairSum f k (2 * i) = ∑ c ∈ range k, f c := by
  have hle : k ≤ ceilDiv k 2 * 2 := le_ceilDiv_mul Nat.two_pos
  have hpair : ∀ i ∈ range (ceilDiv k 2), pairSum f k (2 * i) =
      ∑ j ∈ range 2, if i * 2 + j < k then f (i * 2 + j) else 0 := by
    intro i hi
    have hlt := (lt_ceilDiv_iff Nat.two_pos).1 (mem_range.1 hi)
    rw [sum_range_succ, sum_range_one, Nat.add_zero, if_pos hlt, pairSum, Nat.mul_comm]
  rw [sum_congr rfl hpair, ← sum_range_mul fun c => if c < k then f c else 0, ← sum_filter]
  refine sum_congr ?_ fun _ _ => rfl
  ext c
  simp only [mem_filter, mem_range]
  omega

theorem numIters_eq {tid : ℕ} (htid : tid < s.blockSize) :
    numIters s p tid = ceilDiv (ceilDiv p.ncols 2 - tid) s.blockSize := by
  refine eq_of_forall_lt_iff ?_
  intro i
  rw [lt_numIters_iff htid, lt_ceilDiv_iff (Nat.zero_lt_of_lt htid), Nat.lt_sub_iff_add_lt,
    lt_ceilDiv_iff Nat.two_pos, kPerIter]
  have hcol : i * 2 * s.blockSize + 2 * tid = (i * s.blockSize + tid) * 2 := by ring
  rw [hcol]

/-- **The invocations of a workgroup visit every column once.** -/
theorem sum_numIters (hB : 0 < s.blockSize) (f : ℕ → F) :
    ∑ tid ∈ range s.blockSize, ∑ i ∈ range (numIters s p tid),
      pairSum f p.ncols (i * kPerIter * s.blockSize + kPerIter * tid) =
        ∑ c ∈ range p.ncols, f c := by
  have hcol : ∀ tid i, i * kPerIter * s.blockSize + kPerIter * tid =
      2 * (tid + s.blockSize * i) := by
    intro tid i
    rw [kPerIter]
    ring
  simp only [hcol]
  rw [← sum_pairSum f, ← sum_stride (fun i => pairSum f p.ncols (2 * i)) hB]
  exact sum_congr rfl fun tid htid => by rw [numIters_eq (mem_range.1 htid)]

/-! ### The phases of a workgroup -/

omit [Field F] in
theorem alone_stores (tid : ℕ) (cs : List (ℕ × ℕ)) (ℓ : Local F) (m : (ℕ × ℕ) × ℕ → F) :
    Action.alone (cs.map fun c => .store (c, tid) fun ℓ => ℓ.temp c.1 c.2) (ℓ, m) =
      (ℓ, fun x => if x.1 ∈ cs ∧ x.2 = tid then ℓ.temp x.1.1 x.1.2 else m x) := by
  induction cs generalizing m with
  | nil => simp
  | cons c cs ih =>
    rw [List.map_cons, Action.alone_cons, Action.exec, ih]
    congr 1
    funext x
    obtain ⟨c', i⟩ := x
    by_cases hmem : c' ∈ cs ∧ i = tid
    · rw [if_pos hmem, if_pos ⟨List.mem_cons_of_mem _ hmem.1, hmem.2⟩]
    · rw [if_neg hmem, Function.update_apply]
      by_cases heq : c' = c ∧ i = tid
      · obtain ⟨rfl, rfl⟩ := heq
        simp
      · have hne : ¬ ((c', i) = (c, tid)) := fun h => heq (Prod.mk.inj h)
        have hnot : ¬ (c' ∈ c :: cs ∧ i = tid) := by
          rw [List.mem_cons]
          tauto
        rw [if_neg hne, if_neg hnot]

theorem alone_reduce (stride tid : ℕ) {cs : List (ℕ × ℕ)} (hcs : cs.Nodup)
    (ℓ : Local F) (m : (ℕ × ℕ) × ℕ → F) :
    let r := Action.alone (cs.flatMap fun c =>
      [.load (c, tid) fun ℓ x => { ℓ with lhs := x },
        .load (c, tid + stride) fun ℓ x => { ℓ with rhs := x },
        .store (c, tid) fun ℓ => ℓ.lhs + ℓ.rhs]) (ℓ, m)
    r.1.stores = ℓ.stores ∧ ∀ c ∈ cs, r.2 (c, tid) = m (c, tid) + m (c, tid + stride) := by
  induction cs generalizing ℓ m with
  | nil => simp
  | cons c cs ih =>
    obtain ⟨hc, hcs⟩ := List.nodup_cons.1 hcs
    -- the rest does not touch row `c`, and the first three actions nothing else
    have hrest : ∀ a ∈ cs.flatMap fun c => ([.load (c, tid) fun ℓ x => { ℓ with lhs := x },
        .load (c, tid + stride) fun ℓ x => { ℓ with rhs := x },
        .store (c, tid) fun ℓ => ℓ.lhs + ℓ.rhs] : List (Action (Local F) ((ℕ × ℕ) × ℕ) F)),
        a.Within {x | x.1 ∈ cs} {x | x.1 ∈ cs} := by
      intro a ha
      obtain ⟨c', hc', ha⟩ := List.mem_flatMap.1 ha
      simp only [List.mem_cons, List.not_mem_nil, or_false] at ha
      obtain rfl | rfl | rfl := ha <;> exact hc'
    have hstep := ih hcs { ℓ with lhs := m (c, tid), rhs := m (c, tid + stride) }
      (Function.update m (c, tid) (m (c, tid) + m (c, tid + stride)))
    simp only [List.flatMap_cons, List.cons_append, List.nil_append, Action.alone_cons, Action.exec]
    refine ⟨hstep.1, fun c' hc' => ?_⟩
    obtain rfl | hmem := List.mem_cons.1 hc'
    · exact (Action.alone_frame hrest _ hc).trans (Function.update_self ..)
    · have hne : ∀ i, (c', i) ≠ (c, tid) := fun i h => hc ((Prod.mk.inj h).1 ▸ hmem)
      rw [hstep.2 c' hmem, Function.update_of_ne (hne _), Function.update_of_ne (hne _)]

omit [Field F] in
theorem alone_write (dst : ℕ × ℕ → ℕ) (cs : List (ℕ × ℕ)) (ℓ : Local F) (m : (ℕ × ℕ) × ℕ → F) :
    (Action.alone (cs.flatMap fun c => [.load (c, 0) fun ℓ x => { ℓ with lhs := x },
      .compute fun ℓ => { ℓ with stores := ℓ.stores ++ [(dst c, ℓ.lhs)] }]) (ℓ, m)).1.stores =
        ℓ.stores ++ cs.map fun c => (dst c, m (c, 0)) := by
  induction cs generalizing ℓ with
  | nil => simp
  | cons c cs ih =>
    rw [List.flatMap_cons, List.cons_append, List.cons_append, List.nil_append, Action.alone_cons,
      Action.alone_cons, Action.exec, Action.exec, ih, List.map_cons, List.append_assoc]
    rfl

omit [Field F] in
theorem nodup_cells (s : Spec) (numRows : ℕ) : (cells s numRows).Nodup :=
  List.nodup_range.product List.nodup_range

omit [Field F] in
theorem partial_step {temps : Fin s.blockSize → ℕ → ℕ → F} {ℓ ℓ' : Fin s.blockSize → Local F}
    {m m' : (ℕ × ℕ) × ℕ → F}
    (h : Interleave (fun tid => partialPhase s numRows (temps tid) tid) ℓ m ℓ' m') :
    (∀ tid, (ℓ' tid).stores = (ℓ tid).stores) ∧
      ∀ c ∈ cells s numRows, ∀ tid : Fin s.blockSize, m' (c, tid) = temps tid c.1 c.2 := by
  have hr : RaceFree (fun tid => partialPhase s numRows (temps tid) tid) (fun _ => ∅)
      (fun tid => {x : (ℕ × ℕ) × ℕ | x.2 = tid.val}) := by
    constructor
    · intro tid a ha
      obtain rfl | ha := List.mem_cons.1 ha
      · trivial
      · obtain ⟨c, -, rfl⟩ := List.mem_map.1 ha
        exact rfl
    · intro t t' hne x hx
      rw [Set.empty_union]
      exact fun hx' => hne (Fin.ext (hx.symm.trans hx'))
  obtain ⟨h₁, h₂, -⟩ := h.eq_alone hr
  have halone : ∀ tid, Action.alone (partialPhase s numRows (temps tid) tid) (ℓ tid, m) =
      ({ ℓ tid with temp := temps tid }, fun x =>
        if x.1 ∈ cells s numRows ∧ x.2 = tid.val then temps tid x.1.1 x.1.2 else m x) := by
    intro tid
    rw [partialPhase, Action.alone_cons]
    exact alone_stores tid _ _ m
  refine ⟨fun tid => by rw [h₁, halone], fun c hc tid => ?_⟩
  rw [h₂ tid (c, tid.val) (Or.inr rfl), halone]
  exact if_pos ⟨hc, rfl⟩

/-- One round of the reduction adds the upper half of the active cells to the lower half. -/
theorem reduce_round {stride : ℕ} (hs : 2 * stride ≤ s.blockSize) {ℓ ℓ' : Fin s.blockSize → Local F}
    {m m' : (ℕ × ℕ) × ℕ → F} (h : Interleave (reducePhase s numRows stride) ℓ m ℓ' m') :
    (∀ tid, (ℓ' tid).stores = (ℓ tid).stores) ∧
      ∀ c ∈ cells s numRows, ∀ i < stride, m' (c, i) = m (c, i) + m (c, i + stride) := by
  -- the invocations below `stride` write below it, and read above it what nobody writes
  have hr : RaceFree (reducePhase (F := F) s numRows stride)
      (fun tid => if tid.val < stride then {x | x.2 = tid.val ∨ x.2 = tid.val + stride} else ∅)
      (fun tid => if tid.val < stride then {x | x.2 = tid.val} else ∅) := by
    constructor
    · intro tid a ha
      unfold reducePhase at ha
      split_ifs at ha with htid
      · obtain ⟨c, -, ha⟩ := List.mem_flatMap.1 ha
        simp only [List.mem_cons, List.not_mem_nil, or_false] at ha
        obtain rfl | rfl | rfl := ha <;> simp [Action.Within, htid]
      · cases ha
    · intro t t' hne x hx
      have hne' : t.val ≠ t'.val := fun e => hne (Fin.ext e)
      split_ifs at hx with ht
      · have hx : x.2 = t.val := hx
        split_ifs with ht'
        · rintro (h | h)
          · obtain h | h : x.2 = t'.val ∨ x.2 = t'.val + stride := h <;> omega
          · have h : x.2 = t'.val := h
            omega
        · simp
      · cases hx
  obtain ⟨h₁, h₂, -⟩ := h.eq_alone hr
  constructor
  · intro tid
    rw [h₁, reducePhase]
    split_ifs
    · exact (alone_reduce stride tid (nodup_cells s numRows) _ _).1
    · rfl
  · intro c hc i hi
    have hcell := h₂ ⟨i, by omega⟩ (c, i) (by simp [hi])
    rw [hcell, reducePhase, if_pos hi]
    exact (alone_reduce stride i (nodup_cells s numRows) _ _).2 c hc

/-- **After the reduction the first cell of a row holds the sum of the row.** -/
theorem reduce_sum (k : ℕ) (hk : 2 ^ k ≤ s.blockSize) {ℓ ℓ' : Fin s.blockSize → Local F}
    {m m' : (ℕ × ℕ) × ℕ → F}
    (h : RunPhases ((Coop.strides (2 ^ k / 2)).map (reducePhase s numRows)) ℓ m ℓ' m') :
    (∀ tid, (ℓ' tid).stores = (ℓ tid).stores) ∧
      ∀ c ∈ cells s numRows, m' (c, 0) = ∑ i ∈ range (2 ^ k), m (c, i) :=
  Coop.halving_sum Local.stores (cells s numRows) Prod.mk reduce_round k hk h

/-- Without biases the first invocation stores the first cell of every row. -/
theorem write_step (hflags : p.fusionFlags = 0) {ℓ ℓ' : Fin s.blockSize → Local F}
    {m m' : (ℕ × ℕ) × ℕ → F}
    (h : Interleave (writePhase s p dataFuse0 dataFuse1 o firstRow numRows) ℓ m ℓ' m')
    (tid : Fin s.blockSize) : (ℓ' tid).stores = (ℓ tid).stores ++
      if tid.val = 0 then (cells s numRows).map fun c =>
        (c.1 * p.batchStrideD + o.d + firstRow + c.2, m (c, 0))
      else [] := by
  have hphase : ∀ tid, writePhase s p dataFuse0 dataFuse1 o firstRow numRows tid =
      if tid.val = 0 then (cells s numRows).flatMap fun c =>
        [.load (c, 0) fun ℓ x => { ℓ with lhs := x },
          .compute fun ℓ => { ℓ with
            stores := ℓ.stores ++ [(c.1 * p.batchStrideD + o.d + firstRow + c.2, ℓ.lhs)] }]
      else [] := by
    intro tid
    simp [writePhase, hflags]
  have hr : RaceFree (writePhase s p dataFuse0 dataFuse1 o firstRow numRows)
      (fun tid => if tid.val = 0 then {x : (ℕ × ℕ) × ℕ | x.2 = 0} else ∅) (fun _ => ∅) := by
    constructor
    · intro tid a ha
      rw [hphase] at ha
      split_ifs at ha with htid
      · obtain ⟨c, -, ha⟩ := List.mem_flatMap.1 ha
        simp only [List.mem_cons, List.not_mem_nil, or_false] at ha
        obtain rfl | rfl := ha <;> simp [Action.Within, htid]
      · cases ha
    · intro t t' _ x hx
      cases hx
  rw [(h.eq_alone hr).1 tid, hphase]
  split_ifs
  · exact alone_write _ _ _ _
  · exact (List.append_nil _).symm

/-! ### A dispatch -/

theorem flatMap_first {β : Type} {n : ℕ} (hn : 0 < n) (xs : List β) :
    ((List.finRange n).flatMap fun i => if i.val = 0 then xs else []) = xs := by
  obtain ⟨n, rfl⟩ := Nat.exists_eq_succ_of_ne_zero hn.ne'
  rw [List.finRange_succ, List.flatMap_cons, List.flatMap_map]
  have hrest : (List.finRange n).flatMap (fun i => if i.succ.val = 0 then xs else []) = [] :=
    List.flatMap_eq_nil_iff.2 fun i _ => if_neg (Nat.succ_ne_zero _)
  rw [hrest, List.append_nil]
  rfl

/-- **The stores of `compute_outputs`**: the sum of every row, whatever the interleaving. -/
theorem outputStores_eq {k : ℕ} (hB : s.blockSize = 2 ^ k) (hcols : s.numCols = 1)
    (hflags : p.fusionFlags = 0) (hncols : p.ncols < 2 ^ 32) {ss : List (ℕ × F)}
    (h : OutputStores s p dataA dataB dataFuse0 dataFuse1 o firstRow numRows ss) :
    ss = (List.range numRows).map fun n =>
      (o.d + (firstRow + n), ∑ c ∈ range p.ncols, term p dataA dataB o (firstRow + n) c) := by
  have hpos : 0 < s.blockSize := hB ▸ Nat.two_pow_pos k
  obtain ⟨temps, htemps, m, ℓ', m', ⟨ℓ₁, m₁, hpart, hrest⟩, rfl⟩ := h
  obtain ⟨ℓ₂, m₂, hred, ℓ₃, m₃, hwrite, rfl, rfl⟩ := runPhases_append.1 hrest
  obtain ⟨ho₁, hm₁⟩ := partial_step hpart
  have hred' : RunPhases ((Coop.strides (2 ^ k / 2)).map (reducePhase s numRows)) ℓ₁ m₁ ℓ₂ m₂ :=
    hB ▸ hred
  obtain ⟨ho₂, hm₂⟩ := reduce_sum k hB.ge hred'
  have hstores : ∀ tid : Fin s.blockSize, (ℓ' tid).stores =
      if tid.val = 0 then (cells s numRows).map fun c =>
        (c.1 * p.batchStrideD + o.d + firstRow + c.2, m₂ (c, 0))
      else [] := fun tid => by
    rw [write_step hflags hwrite tid, ho₂, ho₁, List.nil_append]
  have hcells : cells s numRows = (List.range numRows).map fun n => (0, n) := by
    rw [cells, hcols, List.range_one, List.flatMap_singleton]
  rw [List.flatMap_congr fun tid _ => hstores tid, flatMap_first hpos, hcells, List.map_map]
  refine List.map_congr_left fun n hn => Prod.ext ?_ ?_
  · show 0 * p.batchStrideD + o.d + firstRow + n = _
    rw [Nat.zero_mul, Nat.zero_add, Nat.add_assoc]
  · have hmem : (0, n) ∈ cells s numRows := by
      rw [hcells]
      exact List.mem_map_of_mem hn
    have hsum : ∀ i ∈ range s.blockSize, m₁ ((0, n), i) = ∑ j ∈ range (numIters s p i),
        pairSum (term p dataA dataB o (firstRow + n)) p.ncols
          (j * kPerIter * s.blockSize + kPerIter * i) := by
      intro i hi
      have hi := mem_range.1 hi
      obtain ⟨temp, htemp, hval⟩ := accumulate_eq dataA dataB o firstRow numRows hcols hi hncols
      obtain rfl : temp = temps ⟨i, hi⟩ := Option.some.inj (htemp.symm.trans (htemps ⟨i, hi⟩))
      exact (hm₁ _ hmem ⟨i, hi⟩).trans (hval n (List.mem_range.1 hn))
    show m₂ ((0, n), 0) = _
    rw [hm₂ _ hmem, ← hB, sum_congr rfl hsum, sum_numIters hpos]

theorem exists_outputStores (s : Spec) (p : Params) (dataA dataB dataFuse0 dataFuse1 : ℕ → F)
    (o : Offsets) (firstRow numRows : ℕ) (hcols : s.numCols = 1) (hncols : p.ncols < 2 ^ 32) :
    ∃ ss, OutputStores s p dataA dataB dataFuse0 dataFuse1 o firstRow numRows ss := by
  have hacc : ∀ tid : Fin s.blockSize, ∃ temp,
      accumulate s p dataA dataB o firstRow numRows tid = some temp := fun tid =>
    (accumulate_eq dataA dataB o firstRow numRows hcols tid.isLt hncols).imp fun _ h => h.1
  choose temps htemps using hacc
  obtain ⟨ℓ', m', h⟩ := RunPhases.exists_run
    (outputPhases s p dataFuse0 dataFuse1 o firstRow numRows temps)
    (fun _ => ⟨fun _ _ => 0, 0, 0, []⟩) fun _ => 0
  exact ⟨_, temps, htemps, _, ℓ', m', h, rfl⟩

theorem exists_dispatchStores (s : Spec) (p : Params) (dataA dataB dataFuse0 dataFuse1 : ℕ → F)
    (wg : ℕ × ℕ × ℕ) (hcols : s.numCols = 1) (hncols : p.ncols < 2 ^ 32) :
    ∃ ss, DispatchStores s p dataA dataB dataFuse0 dataFuse1 wg ss := by
  have hwg : ∀ x y z, ∃ ss,
      WorkgroupStores s p dataA dataB dataFuse0 dataFuse1 wg.1 x y z ss := by
    intro x y z
    simp only [WorkgroupStores]
    split_ifs
    · exact exists_outputStores s p dataA dataB dataFuse0 dataFuse1 _ _ _ hcols hncols
    · exact ⟨[], rfl⟩
    · exact exists_outputStores s p dataA dataB dataFuse0 dataFuse1 _ _ _ hcols hncols
  choose f hf using hwg
  exact ⟨_, f, fun x _ y _ z _ => hf x y z, rfl⟩

/-- The constants of a dispatch that computes `t` rows of `n` outputs from rows of `k` inputs. -/
structure Fits (t k n : ℕ) (p : Params) : Prop where
  ncols : p.ncols = k
  strideD : p.strideD = n
  batchStrideB : p.batchStrideB = k
  batchStrideD : p.batchStrideD = n
  fusionFlags : p.fusionFlags = 0
  baseWorkGroupY : p.baseWorkGroupY = 0
  ne02 : p.ne02 = 1
  ne12 : p.ne12 = t
  broadcast2 : p.broadcast2 = t
  broadcast3 : p.broadcast3 = 1

/-- **Every batch index reads its own row of the input, and the same weight.** -/
theorem getOffsets_eq {t k n y : ℕ} (hp : Fits t k n p) (hy : y < t) :
    getOffsets p y = ⟨0, y * k, y * n⟩ := by
  have ha : (if y ≠ 0 then y / t / 1 * 1 + y % t / t else 0) = 0 := by
    rw [Nat.mod_eq_of_lt hy, Nat.div_eq_of_lt hy]
    simp
  simp only [getOffsets, hp.baseWorkGroupY, hp.ne12, hp.broadcast3, hp.broadcast2, hp.ne02,
    hp.batchStrideB, hp.batchStrideD, Nat.add_zero, ha, Nat.zero_mul]

/-- The output `x W^T`, cell by cell. -/
def linearStores (t k n : ℕ) (w x : ℕ → F) : List (ℕ × F) :=
  (List.range t).flatMap fun i => (List.range n).map fun j =>
    (i * n + j, ∑ c ∈ range k, w (j * k + c) * x (i * k + c))

/-- The first `m` of `n` items are those that pass a guard. -/
theorem map_range_guard {β : Type} {m n : ℕ} (hmn : m ≤ n) (f : ℕ → β) {q : ℕ → Prop}
    [DecidablePred q] (hq : ∀ i < n, (q i ↔ i < m)) :
    (List.range m).map f = (List.range n).flatMap fun i => if q i then [f i] else [] := by
  obtain ⟨d, rfl⟩ := Nat.exists_eq_add_of_le hmn
  have hfirst : (List.range m).flatMap (fun i => if q i then [f i] else []) =
      (List.range m).map f := by
    rw [List.map_eq_flatMap]
    refine List.flatMap_congr fun i hi => if_pos ?_
    have hlt := List.mem_range.1 hi
    exact (hq i (by omega)).2 hlt
  have hrest : (List.range d).flatMap (fun i => if q (m + i) then [f (m + i)] else []) = [] := by
    refine List.flatMap_eq_nil_iff.2 fun i hi => if_neg fun h => ?_
    have hlt := (hq (m + i) (by have := List.mem_range.1 hi; omega)).1 h
    omega
  rw [List.range_add, List.flatMap_append, List.flatMap_map, hfirst, hrest, List.append_nil]

/-- The stores of a workgroup: the sums of the rows it has, whatever the interleaving. -/
theorem workgroupStores_eq {k' : ℕ} (hB : s.blockSize = 2 ^ k') (hcols : s.numCols = 1)
    {t k n : ℕ} (hp : Fits t k n p) (hk : k < 2 ^ 32) {wgX x y : ℕ} (hy : y < t)
    {ss : List (ℕ × F)}
    (h : WorkgroupStores s p dataA dataB dataFuse0 dataFuse1 wgX x y 0 ss) :
    ss = (List.range s.numRows).flatMap fun r => if x * s.numRows + r < n then
      [(y * n + (x * s.numRows + r),
        ∑ c ∈ range k, dataA ((x * s.numRows + r) * k + c) * dataB (y * k + c))] else [] := by
  have hfirst : s.numRows * (x + wgX * 0) = x * s.numRows := by
    rw [Nat.mul_zero, Nat.add_zero, Nat.mul_comm]
  have hrows : ∀ m ≤ s.numRows, (∀ r < s.numRows, (x * s.numRows + r < n ↔ r < m)) →
      OutputStores s p dataA dataB dataFuse0 dataFuse1 ⟨0, y * k, y * n⟩ (x * s.numRows) m ss →
      ss = (List.range s.numRows).flatMap fun r => if x * s.numRows + r < n then
        [(y * n + (x * s.numRows + r),
          ∑ c ∈ range k, dataA ((x * s.numRows + r) * k + c) * dataB (y * k + c))] else [] := by
    intro m hm hlt hss
    rw [outputStores_eq hB hcols hp.fusionFlags (hp.ncols ▸ hk) hss, ← map_range_guard hm _ hlt]
    simp only [term, hp.ncols, Nat.zero_add]
  simp only [WorkgroupStores, hfirst, getOffsets_eq hp hy, hp.strideD] at h
  split_ifs at h with hfull hnone
  · exact hrows _ le_rfl (fun r hr => by omega) h
  · rw [h]
    refine (List.flatMap_eq_nil_iff.2 fun r _ => if_neg ?_).symm
    omega
  · exact hrows _ (by omega) (fun r _ => by omega) h

/-- **The stores of a dispatch**: the output, whatever the interleaving. -/
theorem dispatchStores_eq {k' : ℕ} (hB : s.blockSize = 2 ^ k') (hcols : s.numCols = 1)
    (hrows : 0 < s.numRows) {t k n : ℕ} (hp : Fits t k n p) (hk : k < 2 ^ 32) {ss : List (ℕ × F)}
    (h : DispatchStores s p dataA dataB dataFuse0 dataFuse1 (ceilDiv n s.numRows, t, 1) ss) :
    ss = linearStores t k n dataA dataB := by
  obtain ⟨f, hf, rfl⟩ := h
  rw [List.range_one, List.flatMap_singleton]
  refine List.flatMap_congr ?_
  intro y hy
  have hwg := fun x hx => workgroupStores_eq hB hcols hp hk (List.mem_range.1 hy)
    (hf x (List.mem_range.1 hx) y (List.mem_range.1 hy) 0 Nat.one_pos)
  -- the rows of the workgroups, one after the other
  rw [List.flatMap_congr hwg, ← flatMap_range_mul _ s.numRows fun r => if r < n then
    [(y * n + r, ∑ c ∈ range k, dataA (r * k + c) * dataB (y * k + c))] else []]
  exact (map_range_guard (le_ceilDiv_mul hrows) _ fun _ _ => Iff.rfl).symm

/-! ### The two forms -/

/-- `MATVEC_SHADERS`. -/
def matvecShaders : List String := ["mul_mat_vec_f32_f32_f32", "mul_mat_vec_f16_f32_f32"]

/-- The constants of a pipeline that `compile_matvec` registers for a shader. -/
def pipelineSpec (shader name : String) : Spec :=
  Spec.ofConstants (((compileMatvec shader).lookup name).getD [])

/-- A dispatch: its pipeline, push constants and workgroups. -/
structure Form where
  spec : Spec
  params : Params
  workgroups : ℕ × ℕ × ℕ

/-- The stores of a dispatch on the weight `w`, the input `x` and two bias buffers. -/
def Form.Stores (f : Form) (w x fuse0 fuse1 : ℕ → F) (ss : List (ℕ × F)) : Prop :=
  DispatchStores f.spec f.params w x fuse0 fuse1 f.workgroups ss

/-- The dispatch of `_vulkan_matvec`. -/
def pythonForm (shader : String) (t k n : ℕ) : Py Form := do
  let pc ← Weights.matvecPc (F := ℕ) t k n
  return ⟨pipelineSpec shader shader, .ofFields (PcWord.u32At pc), (n, t, 1)⟩

/-- The dispatch of the Rust engine. -/
def rustForm (shader : String) (t k n : ℕ) : Form :=
  ⟨pipelineSpec shader (shader ++ "_r4"), .ofFields fun i => (mvPc k n t).getD i 0,
    (wgR4 n, asU32 t, 1)⟩

/-- The stores are those of `x W^T`: each cell once, with its product. -/
structure StoresProduct (t k n : ℕ) (w x : ℕ → F) (ss : List (ℕ × F)) : Prop where
  once : ss.map Prod.fst = List.range (t * n)
  value : ∀ i < t, ∀ j < n, (i * n + j, ∑ c ∈ range k, w (j * k + c) * x (i * k + c)) ∈ ss

theorem linearStores_product (t k n : ℕ) (w x : ℕ → F) :
    StoresProduct t k n w x (linearStores t k n w x) where
  once := by
    rw [linearStores, List.map_flatMap, ← range_mul]
    simp only [List.map_map]
    rfl
  value i hi j hj := List.mem_flatMap.2 ⟨i, List.mem_range.2 hi,
    List.mem_map.2 ⟨j, List.mem_range.2 hj, rfl⟩⟩

/-- A dispatch that computes `x W^T`, and from every row of `x` with the same weight. -/
structure Form.Computes (f : Form) (t k n : ℕ) (w x fuse0 fuse1 : ℕ → F) : Prop where
  runs : ∃ ss, f.Stores w x fuse0 fuse1 ss
  product : ∀ ss, f.Stores w x fuse0 fuse1 ss → StoresProduct t k n w x ss
  offsets : ∀ i < t, getOffsets f.params i = ⟨0, i * k, i * n⟩

theorem Form.computes {f : Form} {k' t k n : ℕ} (hB : f.spec.blockSize = 2 ^ k')
    (hcols : f.spec.numCols = 1) (hrows : 0 < f.spec.numRows) (hp : Fits t k n f.params)
    (hk : k < 2 ^ 32) (hwg : f.workgroups = (ceilDiv n f.spec.numRows, t, 1))
    (w x fuse0 fuse1 : ℕ → F) : f.Computes t k n w x fuse0 fuse1 where
  runs := exists_dispatchStores f.spec f.params w x fuse0 fuse1 f.workgroups hcols (hp.ncols ▸ hk)
  product ss h := by
    rw [Form.Stores, hwg] at h
    rw [dispatchStores_eq hB hcols hrows hp hk h]
    exact linearStores_product t k n w x
  offsets _ hi := getOffsets_eq hp hi

theorem StoresProduct.unique {t k n : ℕ} {w x : ℕ → F} {ss ss' : List (ℕ × F)}
    (h : StoresProduct t k n w x ss) (h' : StoresProduct t k n w x ss') {out o o' : ℕ → F}
    (hrun : Runs out ss o) (hrun' : Runs out ss' o') : o = o' := by
  have hnodup : (ss.map Prod.fst).Nodup := h.once ▸ List.nodup_range
  have hnodup' : (ss'.map Prod.fst).Nodup := h'.once ▸ List.nodup_range
  funext a
  by_cases ha : a ∈ List.range (t * n)
  · have hlt := List.mem_range.1 ha
    have hn : 0 < n := Nat.pos_of_mul_pos_left (Nat.zero_lt_of_lt hlt)
    have hrow : a / n < t := (Nat.div_lt_iff_lt_mul hn).2 hlt
    have hval := h.value (a / n) hrow (a % n) (Nat.mod_lt a hn)
    have hval' := h'.value (a / n) hrow (a % n) (Nat.mod_lt a hn)
    have hcell : a / n * n + a % n = a := Nat.div_add_mod' a n
    rw [hcell] at hval hval'
    exact (hrun.of_mem hnodup hval).trans (hrun'.of_mem hnodup' hval').symm
  · rw [hrun.of_notMem (h.once ▸ ha), hrun'.of_notMem (h'.once ▸ ha)]

theorem asU32_of_lt {n : ℕ} (h : n < 2 ^ 32) : asU32 n = n := Nat.mod_eq_of_lt h

theorem pipelineSpec_eq {shader : String} (hshader : shader ∈ matvecShaders) :
    pipelineSpec shader shader = ⟨128, 1, 1⟩ ∧
      pipelineSpec shader (shader ++ "_r4") = ⟨32, 4, 1⟩ := by
  obtain rfl | rfl : shader = "mul_mat_vec_f32_f32_f32" ∨ shader = "mul_mat_vec_f16_f32_f32" := by
    simpa [matvecShaders] using hshader
  · decide
  · decide

theorem plainForm_computes {α : Type} {shader : String} (hshader : shader ∈ matvecShaders)
    {t k n : ℕ} (hk : k < 2 ^ 32) (w x fuse0 fuse1 : ℕ → F) :
    Form.Computes ⟨pipelineSpec shader shader,
      .ofFields (PcWord.u32At ([k, k, k, n, k * n, k, n, 0, 0, 1, t, t, 1].map PcWord.u32 :
        List (PcWord α))), (n, t, 1)⟩ t k n w x fuse0 fuse1 := by
  rw [(pipelineSpec_eq hshader).1]
  refine Form.computes (show 128 = 2 ^ 7 from rfl) rfl Nat.one_pos ?_ hk ?_ w x fuse0 fuse1
  · constructor <;> rfl
  · rw [ceilDiv, Nat.add_sub_cancel, Nat.div_one]

/-- **Both forms compute `x W^T`.**  For every `t`, `k` and `n` whose sizes fit in 32 bits, every
interleaving of the invocations of a workgroup between its barriers and both shaders: the dispatch
of one row per workgroup and the one of four rows per workgroup run to the end, store every cell
once and the product in it, read row `i` of `x` and the whole weight at batch index `i`, and leave
the same output. -/
theorem forms_compute {shader : String} (hshader : shader ∈ matvecShaders) {t k n : ℕ} (hk : 0 < k)
    (hn : 0 < n) (hsize : k * n < 2 ^ 32) (hrows : t < 2 ^ 32) (w x fuse0 fuse1 : ℕ → F) :
    ∃ python, pythonForm shader t k n = .ok python ∧
      python.Computes t k n w x fuse0 fuse1 ∧
      (rustForm shader t k n).Computes t k n w x fuse0 fuse1 ∧
      ∀ ss ss' out o o', python.Stores w x fuse0 fuse1 ss →
        (rustForm shader t k n).Stores w x fuse0 fuse1 ss' → Runs out ss o → Runs out ss' o' →
          o = o' := by
  have hk32 : k < 2 ^ 32 := (Nat.le_mul_of_pos_right k hn).trans_lt hsize
  have hn32 : n < 2 ^ 32 := (Nat.le_mul_of_pos_left n hk).trans_lt hsize
  have hpack : Weights.matvecPc (F := ℕ) t k n =
      .ok ([k, k, k, n, k * n, k, n, 0, 0, 1, t, t, 1].map .u32) := by
    refine KvOps.structPack_eq_ok.2 ⟨?_, rfl⟩
    simpa [PcWord.Fits] using (show k < 2 ^ 32 ∧ n < 2 ^ 32 ∧ k * n < 2 ^ 32 ∧ k < 2 ^ 32 ∧
      n < 2 ^ 32 ∧ t < 2 ^ 32 from ⟨hk32, hn32, hsize, hk32, hn32, hrows⟩)
  have hspec := pipelineSpec_eq hshader
  have hpython := plainForm_computes (α := ℕ) hshader (t := t) (n := n) hk32 w x fuse0 fuse1
  have hrust : (rustForm shader t k n).Computes t k n w x fuse0 fuse1 := by
    have hwg : wgR4 n = ceilDiv n 4 := asU32_of_lt (by rw [ceilDiv]; omega)
    have hform : rustForm shader t k n = ⟨⟨32, 4, 1⟩, .ofFields fun i =>
        [k, k, k, n, k * n, k, n, 0, 0, 1, t, t, 1].getD i 0, (ceilDiv n 4, t, 1)⟩ := by
      simp only [rustForm, hspec.2, mvPc, asU32_of_lt hk32, asU32_of_lt hn32, asU32_of_lt hsize,
        asU32_of_lt hrows, hwg]
    rw [hform]
    refine Form.computes (show 32 = 2 ^ 5 from rfl) rfl (show 0 < 4 by decide) ?_ hk32 rfl w x fuse0
      fuse1
    constructor <;> rfl
  refine ⟨_, ?_, hpython, hrust, fun ss ss' out o o' h h' => ?_⟩
  · rw [pythonForm, hpack]
    rfl
  · exact (hpython.product ss h).unique (hrust.product ss' h')

/-- An odd row, and a row more than four. -/
theorem forms_compute_small : ∃ python, pythonForm "mul_mat_vec_f32_f32_f32" 2 3 5 = .ok python ∧
    python.Computes 2 3 5 (fun i => (i : ℚ)) (fun i => i) 0 0 ∧
    (rustForm "mul_mat_vec_f32_f32_f32" 2 3 5).Computes 2 3 5 (fun i => (i : ℚ)) (fun i => i) 0 0 :=
  have hshader : "mul_mat_vec_f32_f32_f32" ∈ matvecShaders := by decide
  have ⟨python, hok, hpython, hrust, _⟩ := forms_compute hshader (t := 2) (k := 3) (n := 5)
    (by decide) (by decide) (by decide) (by decide) (fun i => (i : ℚ)) (fun i => i) 0 0
  ⟨python, hok, hpython, hrust⟩

end

end Matvec

end VllmVulkan
