import VllmVulkan.Linear.Tiling

/-!
# The product of the tiled matmul

What a dispatch of `mul_mm.comp` stores with the push constants of `_matmul_pc`, the workgroups of
`_matmul_workgroups` and the constants of `compile_matmul`.

* `padded`, `partialSum` : the operands of a tile, zero outside, and their dot products;
* `AtBlock`, `block_step`, `blocks_run` : **the sums after every block**, for any interleaving;
* `workgroupStores_perm`, `dispatchStores_perm` : the stores of a workgroup and of a dispatch;
* `matmul_computes` : **the dispatch computes `x W^T`**.
-/

namespace VllmVulkan

namespace Matmul

open Store Finset

/-! ### The loop over the blocks -/

section

variable {F : Type} [Field F]

/-- An element of an operand, as the loads see it: zero outside. -/
def padded (data : ℕ → F) (limit endK stride pos col idxMn block k : ℕ) : F :=
  if idxMn < limit ∧ block + k < endK then data (pos + col * stride + k) else 0

theorem loadPair_eq (data : ℕ → F) (limit endK stride pos row col idxMn block : ℕ) :
    loadPair data limit endK stride pos row col idxMn block =
      (padded data limit endK stride pos col idxMn block (2 * row),
        padded data limit endK stride pos col idxMn block (2 * row + 1)) := by
  simp only [loadPair, padded, Nat.mul_comm row 2, Nat.add_assoc]
  split_ifs <;> first | rfl | omega

theorem padded_add (data : ℕ → F) (limit endK stride pos col idxMn block n k : ℕ) :
    padded data limit endK stride (pos + n) col idxMn (block + n) k =
      padded data limit endK stride pos col idxMn block (n + k) := by
  have hidx : pos + n + col * stride + k = pos + col * stride + (n + k) := by ring
  have hblock : block + n + k = block + (n + k) := Nat.add_assoc _ _ _
  simp only [padded, hidx, hblock]

theorem elem_eq {m : Shared → F × F} {buf : ℕ → Shared} {data : ℕ → F}
    {limit endK stride pos col idxMn block : ℕ}
    (h : ∀ row < 16, m (buf (col * shmemStride + row)) =
      loadPair data limit endK stride pos row col idxMn block) {k : ℕ} (hk : k < bk) :
    elem m buf col k = padded data limit endK stride pos col idxMn block k := by
  have hrow : k / 2 < 16 := (Nat.div_lt_iff_lt_mul Nat.two_pos).2 hk
  rw [elem, h _ hrow, loadPair_eq]
  split_ifs with heven
  · rw [show 2 * (k / 2) = k by omega]
  · rw [show 2 * (k / 2) + 1 = k by omega]

variable (s : Spec) (p : Params) (dataA dataB : ℕ → F) (t : Tile)

/-- The products of a row and a column of the tile, up to `n`. -/
def partialSum (row col n : ℕ) : F :=
  ∑ k ∈ range n,
    padded dataA p.m t.endK p.strideA t.posA row (t.ir * s.bm + row) t.startK k *
      padded dataB p.n t.endK p.strideB t.posB col (t.ic * s.bn + col) t.startK k

/-- The two sums of a pair of rows. -/
def partialSums (tid : ℕ) (q : (ℕ × ℕ) × ℕ × ℕ) (n : ℕ) : F × F :=
  (partialSum s p dataA dataB t (tileRow s tid q.2.1 (2 * q.2.2)) (tileCol s tid q.1.1 q.1.2) n,
    partialSum s p dataA dataB t (tileRow s tid q.2.1 (2 * q.2.2 + 1))
      (tileCol s tid q.1.1 q.1.2) n)

/-- The invocations before the block at `n`. -/
structure AtBlock (n : ℕ) (ℓ : Fin s.blockSize → Local F) : Prop where
  posA : ∀ tid, (ℓ tid).posA = t.posA + n
  posB : ∀ tid, (ℓ tid).posB = t.posB + n
  sums : ∀ tid : Fin s.blockSize, ∀ q ∈ quads s,
    (ℓ tid).sums (quadIdx s q) = partialSums s p dataA dataB t tid q n

variable {s p dataA dataB t}

/-- **One block**: the loads and the products. -/
theorem block_step (hs : Loads s) (ht : Tiling s) {lsA lsB : List ℕ} (hA : Strided s s.bm lsA)
    (hB : Strided s s.bn lsB) {n : ℕ} {ℓ ℓ' : Fin s.blockSize → Local F} {m m' : Shared → F × F}
    (hrun : RunPhases [loadPhase s p dataA dataB t lsA lsB (t.startK + n), computePhase s]
      ℓ m ℓ' m')
    (h : AtBlock s p dataA dataB t n ℓ) : AtBlock s p dataA dataB t (n + bk) ℓ' := by
  obtain ⟨ℓ₁, m₁, hload, ℓ₂, m₂, hcompute, rfl, rfl⟩ := hrun
  obtain ⟨hfst, hbufA, hbufB⟩ := load_step hs hA hB hload h.posA h.posB
  obtain ⟨-, hstep⟩ := compute_step hcompute
  have hdot : ∀ row < s.bm, ∀ col < s.bn, partialSum s p dataA dataB t row col n +
      dot m₁ row col bk = partialSum s p dataA dataB t row col (n + bk) := by
    intro row hrow col hcol
    rw [partialSum, partialSum, sum_range_add, dot]
    congr 1
    refine sum_congr rfl ?_
    intro k hk
    rw [elem_eq (hbufA row hrow) (mem_range.1 hk), elem_eq (hbufB col hcol) (mem_range.1 hk),
      padded_add, padded_add]
  refine ⟨fun tid => ?_, fun tid => ?_, fun tid q hq => ?_⟩
  · rw [(hstep tid).1, hfst, h.posA, Nat.add_assoc]
  · rw [(hstep tid).2.1, hfst, h.posB, Nat.add_assoc]
  · obtain ⟨⟨hwsic, hcc⟩, hwsir, hcr⟩ := mem_quads.1 hq
    have htm := ht.tm
    have hcol := tileCol_lt ht tid.isLt hwsic hcc
    rw [(hstep tid).2.2 q hq, hfst, h.sums tid q hq]
    refine Prod.ext ?_ ?_
    · exact hdot _ (tileRow_lt ht tid.isLt hwsir (by omega)) _ hcol
    · exact hdot _ (tileRow_lt ht tid.isLt hwsir (by omega)) _ hcol

/-- **All blocks**, by induction on their number. -/
theorem blocks_run (hs : Loads s) (ht : Tiling s) {lsA lsB : List ℕ} (hA : Strided s s.bm lsA)
    (hB : Strided s s.bn lsB) {n : ℕ} {ℓ ℓ' : Fin s.blockSize → Local F} {m m' : Shared → F × F}
    (hrun : RunPhases (blockPhases s p dataA dataB t lsA lsB (List.range' t.startK n bk)) ℓ m ℓ' m')
    (h : AtBlock s p dataA dataB t 0 ℓ) : AtBlock s p dataA dataB t (bk * n) ℓ' := by
  induction n generalizing ℓ' m' with
  | zero =>
    obtain ⟨rfl, -⟩ := hrun
    exact h
  | succ n ih =>
    rw [blockPhases, List.range'_concat, List.flatMap_append, List.flatMap_singleton,
      runPhases_append] at hrun
    obtain ⟨ℓ₁, m₁, hinit, hlast⟩ := hrun
    exact block_step hs ht hA hB hlast (ih hinit)

theorem partialSum_eq {row col n : ℕ} (hrow : t.ir * s.bm + row < p.m)
    (hcol : t.ic * s.bn + col < p.n) (hn : t.endK - t.startK ≤ n) :
    partialSum s p dataA dataB t row col n = ∑ k ∈ range (t.endK - t.startK),
      dataA (t.posA + row * p.strideA + k) * dataB (t.posB + col * p.strideB + k) := by
  obtain ⟨d, rfl⟩ := Nat.exists_eq_add_of_le hn
  have hrest : ∑ k ∈ range d,
      padded dataA p.m t.endK p.strideA t.posA row (t.ir * s.bm + row) t.startK
          (t.endK - t.startK + k) *
        padded dataB p.n t.endK p.strideB t.posB col (t.ic * s.bn + col) t.startK
          (t.endK - t.startK + k) = 0 := by
    refine sum_eq_zero ?_
    intro k _
    rw [padded, if_neg (by omega), zero_mul]
  rw [partialSum, sum_range_add, hrest, add_zero]
  refine sum_congr rfl ?_
  intro k hk
  have hlt := mem_range.1 hk
  rw [padded, padded, if_pos ⟨hrow, by omega⟩, if_pos ⟨hcol, by omega⟩]

/-! ### The stores of a workgroup -/

/-- A component of a pair of sums. -/
def component (e : ℕ) (v : F × F) : F := if e = 0 then v.1 else v.2

omit [Field F] in
theorem writeOutput_eq (tid : ℕ) (sums : ℕ → F × F) : writeOutput s p t tid sums =
    (slots s).flatMap fun d =>
      let row := t.ir * s.bm + (cell s tid d).1
      let col := t.ic * s.bn + (cell s tid d).2
      if row < p.m ∧ col < p.n then [(t.offsets + col * p.strideD + row,
        component d.2.2.2.2 (sums (quadIdx s ((d.1, d.2.2.1), d.2.1, d.2.2.2.1))))] else [] := by
  have hpair : List.range 2 = [0, 1] := rfl
  simp only [slots, SProd.sprod, List.product, List.flatMap_assoc, List.flatMap_map, hpair,
    List.flatMap_cons, List.flatMap_nil, List.append_nil]
  rfl

/-- What a workgroup stores for a cell of its tile. -/
def cellStore (s : Spec) (p : Params) (dataA dataB : ℕ → F) (t : Tile) (c : ℕ × ℕ) : List (ℕ × F) :=
  let row := t.ir * s.bm + c.1
  let col := t.ic * s.bn + c.2
  if row < p.m ∧ col < p.n then [(t.offsets + col * p.strideD + row,
    ∑ k ∈ range (t.endK - t.startK),
      dataA (t.posA + c.1 * p.strideA + k) * dataB (t.posB + c.2 * p.strideB + k))] else []

theorem component_partialSums {tid n : ℕ} {d : ℕ × ℕ × ℕ × ℕ × ℕ} (hd : d ∈ slots s) :
    component d.2.2.2.2 (partialSums s p dataA dataB t tid ((d.1, d.2.2.1), d.2.1, d.2.2.2.1) n) =
      partialSum s p dataA dataB t (cell s tid d).1 (cell s tid d).2 n := by
  obtain ⟨-, -, -, -, he⟩ := mem_slots.1 hd
  obtain ⟨wsic, wsir, cc, cr, e⟩ := d
  obtain rfl | rfl : e = 0 ∨ e = 1 := by dsimp only at he; omega
  · rfl
  · rfl

theorem AtBlock.writeOutput {n : ℕ} {ℓ : Fin s.blockSize → Local F}
    (h : AtBlock s p dataA dataB t n ℓ) (hn : t.endK - t.startK ≤ n) (tid : Fin s.blockSize) :
    Matmul.writeOutput s p t tid (ℓ tid).sums =
      (slots s).flatMap fun d => cellStore s p dataA dataB t (cell s tid d) := by
  rw [writeOutput_eq]
  refine List.flatMap_congr ?_
  intro d hd
  obtain ⟨hwsic, hwsir, hcc, hcr, -⟩ := mem_slots.1 hd
  rw [h.sums tid _ (mem_quads.2 ⟨⟨hwsic, hcc⟩, hwsir, hcr⟩), component_partialSums hd]
  simp only [cellStore]
  split_ifs with hin
  · rw [partialSum_eq hin.1 hin.2 hn]
  · rfl

/-- **The stores of a workgroup**, whatever the interleaving: every cell of its tile once. -/
theorem workgroupStores_perm (hs : Loads s) (ht : Tiling s) {x y z : ℕ} {ss : List (ℕ × F)}
    (h : WorkgroupStores s p dataA dataB x y z ss) :
    ss.Perm ((List.range s.bm ×ˢ List.range s.bn).flatMap
      (cellStore s p dataA dataB (tileOf s p x y z))) := by
  simp only [WorkgroupStores] at h
  obtain ⟨lsA, lsB, blocks, hlsA, hlsB, hblocks, cacheA, cacheB, m, ℓ', m', hrun, rfl⟩ := h
  generalize tileOf s p x y z = t at hblocks hrun ⊢
  rw [counters_eq (show 0 < bk by decide), Option.some.injEq] at hblocks
  subst hblocks
  have hend := blocks_run hs ht (strided_of_counters hs hlsA) (strided_of_counters hs hlsB) hrun
    ⟨fun _ => rfl, fun _ => rfl, fun _ _ _ => rfl⟩
  have hn : t.endK - t.startK ≤ bk * ceilDiv (t.endK - t.startK) bk := by
    rw [Nat.mul_comm]
    exact le_ceilDiv_mul (by decide)
  have hslots : ((List.finRange s.blockSize).flatMap fun tid : Fin s.blockSize =>
      writeOutput s p t tid (ℓ' tid).sums) =
        ((List.range s.blockSize ×ˢ slots s).map fun i => cell s i.1 i.2).flatMap
          (cellStore s p dataA dataB t) := by
    rw [List.flatMap_congr fun tid _ => hend.writeOutput hn tid, ← List.map_coe_finRange_eq_range]
    simp only [SProd.sprod, List.product, List.flatMap_map, List.flatMap_assoc, List.map_flatMap,
      List.map_map]
    rfl
  rw [hslots]
  exact (cells_perm ht).flatMap_right _

/-! ### The stores of a dispatch -/

/-- The push constants of `t` rows of `m` outputs from rows of `k` inputs, in one batch. -/
structure Fits (t k m : ℕ) (p : Params) : Prop where
  rows : p.m = m
  cols : p.n = t
  inner : p.k = k
  strideA : p.strideA = k
  strideB : p.strideB = k
  strideD : p.strideD = m
  baseWorkGroupZ : p.baseWorkGroupZ = 0
  kSplit : p.kSplit = k

/-- **The tile of a workgroup**: the whole rows, without a split of the shared dimension. -/
theorem tileOf_eq {t k m : ℕ} (hp : Fits t k m p) {x : ℕ} (hx : x < ceilDiv m s.bm) (y : ℕ) :
    tileOf s p x y 0 = ⟨x, y, 0, k, x * s.bm * k, y * s.bn * k, 0⟩ := by
  have hir : x % ((m + s.bm - 1) / s.bm) = x := Nat.mod_eq_of_lt hx
  have hik : x / ((m + s.bm - 1) / s.bm) = 0 := Nat.div_eq_of_lt hx
  simp only [tileOf, hp.baseWorkGroupZ, hp.rows, hp.inner, hp.strideA, hp.strideB, hp.kSplit, hir,
    hik, loadVec, Nat.add_zero, Nat.zero_add, Nat.zero_mul, Nat.zero_div, Nat.zero_mod, Nat.div_one,
    Nat.one_mul, Nat.min_self]

/-- What is stored for a row of the weight and a row of the input. -/
def outputStore (t k m : ℕ) (w x : ℕ → F) (row col : ℕ) : List (ℕ × F) :=
  if row < m ∧ col < t then
    [(col * m + row, ∑ c ∈ range k, w (row * k + c) * x (col * k + c))] else []

theorem cellStore_eq {t k m : ℕ} (hp : Fits t k m p) {x : ℕ} (hx : x < ceilDiv m s.bm) (y : ℕ)
    (c : ℕ × ℕ) : cellStore s p dataA dataB (tileOf s p x y 0) c =
      outputStore t k m dataA dataB (x * s.bm + c.1) (y * s.bn + c.2) := by
  simp only [cellStore, outputStore, tileOf_eq hp hx, hp.rows, hp.cols, hp.strideA, hp.strideB,
    hp.strideD, Nat.zero_add, Nat.sub_zero, Nat.add_mul]

theorem tiles_perm (hbm : 0 < s.bm) (hbn : 0 < s.bn) (t k m : ℕ) (w x : ℕ → F) :
    ((List.range (ceilDiv t s.bn)).flatMap fun i => (List.range (ceilDiv m s.bm)).flatMap fun j =>
      (List.range s.bm ×ˢ List.range s.bn).flatMap fun c =>
        outputStore t k m w x (j * s.bm + c.1) (i * s.bn + c.2)).Perm
      (Matvec.linearStores t k m w x) := by
  -- a row of tiles, by the columns of the output
  have htiles : ∀ i, ((List.range (ceilDiv m s.bm)).flatMap fun j =>
      (List.range s.bm ×ˢ List.range s.bn).flatMap fun c =>
        outputStore t k m w x (j * s.bm + c.1) (i * s.bn + c.2)).Perm
      ((List.range s.bn).flatMap fun col => (List.range (ceilDiv m s.bm * s.bm)).flatMap fun row =>
        outputStore t k m w x row (i * s.bn + col)) := by
    intro i
    refine .trans (.of_eq ?_) (flatMap_swap_perm _ _ _)
    simp only [flatMap_range_mul, SProd.sprod, List.product, List.flatMap_assoc, List.flatMap_map]
  have hcol : ∀ col < t, ((List.range (ceilDiv m s.bm * s.bm)).flatMap fun row =>
      outputStore t k m w x row col) = (List.range m).map fun row =>
        (col * m + row, ∑ c ∈ range k, w (row * k + c) * x (col * k + c)) := by
    intro col hcol
    refine (Matvec.map_range_guard (le_ceilDiv_mul hbm) _ fun row _ => ?_).symm
    exact and_iff_left hcol
  refine (List.Perm.flatMap_left _ fun i _ => htiles i).trans (.of_eq ?_)
  rw [← flatMap_range_mul _ s.bn fun col =>
      (List.range (ceilDiv m s.bm * s.bm)).flatMap fun row => outputStore t k m w x row col,
    flatMap_range_guard (le_ceilDiv_mul hbn), Matvec.linearStores]
  · exact List.flatMap_congr fun col hc => hcol col (List.mem_range.1 hc)
  · intro col hc
    refine List.flatMap_eq_nil_iff.2 fun row _ => if_neg ?_
    omega

/-- **The stores of a dispatch**, whatever the interleaving: those of the product. -/
theorem dispatchStores_perm (hs : Loads s) (hts : Tiling s) (hbm : 0 < s.bm) (hbn : 0 < s.bn)
    {t k m : ℕ} (hp : Fits t k m p) {ss : List (ℕ × F)}
    (h : DispatchStores s p dataA dataB (ceilDiv m s.bm, ceilDiv t s.bn, 1) ss) :
    ss.Perm (Matvec.linearStores t k m dataA dataB) := by
  obtain ⟨f, hf, rfl⟩ := h
  rw [List.range_one, List.flatMap_singleton]
  refine .trans ?_ (tiles_perm hbm hbn t k m dataA dataB)
  refine List.Perm.flatMap_left _ fun y hy => List.Perm.flatMap_left _ fun x hx => ?_
  have hx := List.mem_range.1 hx
  refine (workgroupStores_perm hs hts (hf x hx y (List.mem_range.1 hy) 0 Nat.one_pos)).trans
    (.of_eq ?_)
  exact List.flatMap_congr fun c _ => cellStore_eq hp hx y c

variable (s p dataA dataB) in
/-- **Every dispatch ends** when its loads advance. -/
theorem exists_dispatchStores (hs : 0 < s.loadStride) (wg : ℕ × ℕ × ℕ) :
    ∃ ss, DispatchStores s p dataA dataB wg ss := by
  have hwg : ∀ x y z, ∃ ss, WorkgroupStores s p dataA dataB x y z ss := by
    intro x y z
    obtain ⟨ℓ', m', hrun⟩ := RunPhases.exists_run (blockPhases s p dataA dataB (tileOf s p x y z)
        (List.range' 0 (ceilDiv (s.bm - 0) s.loadStride) s.loadStride)
        (List.range' 0 (ceilDiv (s.bn - 0) s.loadStride) s.loadStride)
        (List.range' (tileOf s p x y z).startK
          (ceilDiv ((tileOf s p x y z).endK - (tileOf s p x y z).startK) bk) bk))
      (fun _ => ⟨(tileOf s p x y z).posA, (tileOf s p x y z).posB, fun _ => (0, 0),
        fun _ => ⟨0, 0, 0, 0⟩, ⟨0, 0, 0, 0⟩⟩) fun _ => (0, 0)
    exact ⟨_, _, _, _, counters_eq hs _ _, counters_eq hs _ _, counters_eq (by decide) _ _,
      fun _ _ => ⟨0, 0, 0, 0⟩, fun _ => ⟨0, 0, 0, 0⟩, _, _, _, hrun, rfl⟩
  choose f hf using hwg
  exact ⟨_, f, fun x _ y _ z _ => hf x y z, rfl⟩

theorem not_workgroupStores (hs : s.loadStride = 0) (hbm : 0 < s.bm) (x y z : ℕ)
    (ss : List (ℕ × F)) : ¬ WorkgroupStores s p dataA dataB x y z ss := by
  rintro ⟨lsA, -, -, hlsA, -⟩
  rw [hs, counters_zero hbm] at hlsA
  cases hlsA

/-! ### The product -/

/-- A dispatch: its pipeline, push constants and workgroups. -/
structure Form where
  spec : Spec
  params : Params
  workgroups : ℕ × ℕ × ℕ

/-- The dispatch of `matmul_f32_f32` on `t` rows. -/
def tiledForm (t k m : ℕ) : Py Form := do
  let pc ← Weights.matmulPc (F := ℕ) m t k
  return ⟨Spec.ofConstants compileMatmul, .ofFields (PcWord.u32At pc), Weights.matmulWorkgroups m t⟩

/-- The stores of a dispatch on the weight `w` and the input `x`. -/
def Form.Stores (f : Form) (w x : ℕ → F) (ss : List (ℕ × F)) : Prop :=
  DispatchStores f.spec f.params w x f.workgroups ss

/-- A dispatch that ends and leaves `x W^T`, in any order of its invocations and of its stores. -/
structure Form.Computes (f : Form) (t k m : ℕ) (w x : ℕ → F) : Prop where
  runs : ∃ ss, f.Stores w x ss
  once : ∀ ss, f.Stores w x ss → (ss.map Prod.fst).Perm (List.range (t * m))
  value : ∀ ss, f.Stores w x ss → ∀ i < t, ∀ j < m,
    (i * m + j, ∑ c ∈ range k, w (j * k + c) * x (i * k + c)) ∈ ss
  output : ∀ ss, f.Stores w x ss → ∀ out o, Runs out ss o →
    (∀ i < t, ∀ j < m, o (i * m + j) = ∑ c ∈ range k, w (j * k + c) * x (i * k + c)) ∧
      ∀ a, t * m ≤ a → o a = out a

theorem Form.computes {f : Form} {t k m : ℕ} (hs : Loads f.spec) (hts : Tiling f.spec)
    (hbm : 0 < f.spec.bm) (hbn : 0 < f.spec.bn) (hp : Fits t k m f.params)
    (hwg : f.workgroups = (ceilDiv m f.spec.bm, ceilDiv t f.spec.bn, 1)) (w x : ℕ → F) :
    f.Computes t k m w x := by
  have hproduct := Matvec.linearStores_product t k m w x
  have hperm : ∀ ss, f.Stores w x ss → ss.Perm (Matvec.linearStores t k m w x) := by
    intro ss h
    rw [Form.Stores, hwg] at h
    exact dispatchStores_perm hs hts hbm hbn hp h
  have honce : ∀ ss, f.Stores w x ss → (ss.map Prod.fst).Perm (List.range (t * m)) :=
    fun ss h => ((hperm ss h).map Prod.fst).trans (.of_eq hproduct.once)
  have hvalue : ∀ ss, f.Stores w x ss → ∀ i < t, ∀ j < m,
      (i * m + j, ∑ c ∈ range k, w (j * k + c) * x (i * k + c)) ∈ ss :=
    fun ss h i hi j hj => (hperm ss h).mem_iff.2 (hproduct.value i hi j hj)
  refine ⟨exists_dispatchStores _ _ w x hs.pos _, honce, hvalue, fun ss h out o hrun => ?_⟩
  have hnodup : (ss.map Prod.fst).Nodup := (honce ss h).nodup_iff.2 List.nodup_range
  refine ⟨fun i hi j hj => hrun.of_mem hnodup (hvalue ss h i hi j hj), fun a ha => ?_⟩
  refine hrun.of_notMem ?_
  intro hmem
  have hlt := List.mem_range.1 ((honce ss h).subset hmem)
  omega

theorem loads_compileMatmul : Loads (Spec.ofConstants compileMatmul) := ⟨by decide, by decide⟩

/-- **The constants of `compile_matmul` fit together.** -/
theorem tiling_compileMatmul : Tiling (Spec.ofConstants compileMatmul) := by
  constructor <;> decide

theorem tiledForm_computes {α : Type} (t k m : ℕ) (w x : ℕ → F) :
    Form.Computes ⟨Spec.ofConstants compileMatmul,
      .ofFields (PcWord.u32At ([m, t, k, k, k, m, m * k, k * t, m * t, 0, 1, k, 1, 1, 1, 1].map
        PcWord.u32 : List (PcWord α))), Weights.matmulWorkgroups m t⟩ t k m w x := by
  have hbm : 0 < (Spec.ofConstants compileMatmul).bm := by decide
  have hbn : 0 < (Spec.ofConstants compileMatmul).bn := by decide
  refine Form.computes loads_compileMatmul tiling_compileMatmul hbm hbn ?_ rfl w x
  constructor <;> rfl

/-- **The tiled matmul computes `x W^T`.**  For every `t`, `k` and `m` whose sizes fit in 32 bits,
multiples of the tile or not: the dispatch ends, it stores every cell of the output once and nothing
else, and the cell `i`, `j` is left with the product of row `i` of `x` and row `j` of `W`, whatever
the order of the invocations between two barriers. -/
theorem matmul_computes {t k m : ℕ} (ht : 0 < t) (hk : 0 < k) (hm : 0 < m) (hA : m * k < 2 ^ 32)
    (hB : k * t < 2 ^ 32) (hD : m * t < 2 ^ 32) (w x : ℕ → F) :
    ∃ f, tiledForm t k m = .ok f ∧ f.Computes t k m w x := by
  have hm32 : m < 2 ^ 32 := (Nat.le_mul_of_pos_right m hk).trans_lt hA
  have hk32 : k < 2 ^ 32 := (Nat.le_mul_of_pos_right k ht).trans_lt hB
  have ht32 : t < 2 ^ 32 := (Nat.le_mul_of_pos_left t hm).trans_lt hD
  have hpack : Weights.matmulPc (F := ℕ) m t k =
      .ok ([m, t, k, k, k, m, m * k, k * t, m * t, 0, 1, k, 1, 1, 1, 1].map .u32) := by
    refine KvOps.structPack_eq_ok.2 ⟨?_, rfl⟩
    simpa [PcWord.Fits] using (show m < 2 ^ 32 ∧ t < 2 ^ 32 ∧ k < 2 ^ 32 ∧ m < 2 ^ 32 ∧
      m * k < 2 ^ 32 ∧ k * t < 2 ^ 32 ∧ m * t < 2 ^ 32 ∧ k < 2 ^ 32 from
      ⟨hm32, ht32, hk32, hm32, hA, hB, hD, hk32⟩)
  refine ⟨_, ?_, tiledForm_computes (α := ℕ) t k m w x⟩
  rw [tiledForm, hpack]
  rfl

/-- Ragged in every dimension, and of an odd length. -/
theorem matmul_computes_ragged : ∃ f, tiledForm 65 33 70 = .ok f ∧
    f.Computes 65 33 70 (fun i => (i : ℚ)) (fun i => i) :=
  matmul_computes (by decide) (by decide) (by decide) (by decide) (by decide) (by decide) _ _

end

end Matmul

end VllmVulkan
