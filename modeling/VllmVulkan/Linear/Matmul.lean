import VllmVulkan.Lib.Interleave
import VllmVulkan.Lib.Loops
import VllmVulkan.Lib.Sums
import VllmVulkan.Linear.Matvec

/-!
# The tiled matmul shader

`mul_mm.comp`, as it is compiled for float weights.  A workgroup computes a tile of the output.  It
walks along the shared dimension in blocks: its invocations copy a block of both operands to shared
memory, two elements at a time and zero-padded at the edges, and after a barrier every invocation
adds the products of the block to the sums it keeps.  Elements and indices are exact.

* `Spec`, `Params`, `compileMatmul` : the specialization and the push constants;
* `loadPhase`, `computePhase` : the two halves of a block;
* `WorkgroupStores`, `DispatchStores` : the stores of a workgroup and of a dispatch, for any
  interleaving;
-/

namespace VllmVulkan

namespace Matmul

open Store Finset

/-! ### Constants -/

/-- The specialization constants, without `TK`. -/
structure Spec where
  /-- `BLOCK_SIZE`, the local size too. -/
  blockSize : ℕ
  /-- `BM`. -/
  bm : ℕ
  /-- `BN`. -/
  bn : ℕ
  /-- `WM`. -/
  wm : ℕ
  /-- `WN`. -/
  wn : ℕ
  /-- `WMITER`. -/
  wmIter : ℕ
  /-- `TM`. -/
  tm : ℕ
  /-- `TN`. -/
  tn : ℕ
  /-- `WARP`. -/
  warp : ℕ
  deriving DecidableEq, Repr

/-- The constants given by their ids, the others at their defaults. -/
def Spec.ofConstants (constants : List (ℕ × ℕ)) : Spec where
  blockSize := (constants.lookup 0).getD 64
  bm := (constants.lookup 1).getD 64
  bn := (constants.lookup 2).getD 64
  wm := (constants.lookup 4).getD 32
  wn := (constants.lookup 5).getD 32
  wmIter := (constants.lookup 6).getD 2
  tm := (constants.lookup 7).getD 4
  tn := (constants.lookup 8).getD 2
  warp := (constants.lookup 10).getD 32

/-- `PipelineCache::compile_matmul`: the constants it gives. -/
def compileMatmul : List (ℕ × ℕ) :=
  [(0, 128), (1, 64), (2, 64), (4, 32), (5, 32), (6, 2), (7, 4), (8, 2), (9, 1), (10, 32)]

/-- `BK`. -/
def bk : ℕ := 32

/-- `BK_STEP`. -/
def bkStep : ℕ := 4

/-- `SHMEM_STRIDE`. -/
def shmemStride : ℕ := bk / 2 + 1

/-- `LOAD_VEC_A` and `LOAD_VEC_B`. -/
def loadVec : ℕ := 1

/-- `LOAD_VEC_BATCH_A` and `LOAD_VEC_BATCH_B`. -/
def loadVecBatch : ℕ := 2

/-- `WNITER`. -/
def Spec.wnIter (s : Spec) : ℕ := (s.wm * s.wn) / (s.warp * s.tm * s.tn * s.wmIter)

/-- `WSUBM`. -/
def Spec.wsubm (s : Spec) : ℕ := s.wm / s.wmIter

/-- `WSUBN`. -/
def Spec.wsubn (s : Spec) : ℕ := s.wn / s.wnIter

/-- `loadstride_a` and `loadstride_b`. -/
def Spec.loadStride (s : Spec) : ℕ := s.blockSize * loadVec * loadVecBatch / bk

/-- The push constants. -/
structure Params where
  m : ℕ
  n : ℕ
  k : ℕ
  strideA : ℕ
  strideB : ℕ
  strideD : ℕ
  batchStrideA : ℕ
  batchStrideB : ℕ
  batchStrideD : ℕ
  baseWorkGroupZ : ℕ
  numBatches : ℕ
  kSplit : ℕ
  ne02 : ℕ
  ne12 : ℕ
  broadcast2 : ℕ
  broadcast3 : ℕ
  deriving DecidableEq, Repr

/-- The push constants, by their positions. -/
def Params.ofFields (field : ℕ → ℕ) : Params where
  m := field 0
  n := field 1
  k := field 2
  strideA := field 3
  strideB := field 4
  strideD := field 5
  batchStrideA := field 6
  batchStrideB := field 7
  batchStrideD := field 8
  baseWorkGroupZ := field 9
  numBatches := field 10
  kSplit := field 11
  ne02 := field 12
  ne12 := field 13
  broadcast2 := field 14
  broadcast3 := field 15

/-! ### The position of an invocation -/

/-- What the workgroup `(x, y, z)` computes. -/
structure Tile where
  ir : ℕ
  ic : ℕ
  startK : ℕ
  endK : ℕ
  /-- `pos_a` before the loop. -/
  posA : ℕ
  /-- `pos_b` before the loop. -/
  posB : ℕ
  /-- `offsets`. -/
  offsets : ℕ
  deriving DecidableEq, Repr

/-- The variables of `main` that depend on the workgroup. -/
def tileOf (s : Spec) (p : Params) (x y z : ℕ) : Tile :=
  let ic := y
  let batchIdx := z + p.baseWorkGroupZ
  let i13 := batchIdx / p.ne12
  let i12 := batchIdx % p.ne12
  let i03 := i13 / p.broadcast3
  let i02 := i12 / p.broadcast2
  let batchIdxA := i03 * p.ne02 + i02
  let blocksM := (p.m + s.bm - 1) / s.bm
  let ir := x % blocksM
  let ik := x / blocksM
  let startK := ik * p.kSplit
  let endK := min p.k ((ik + 1) * p.kSplit)
  { ir := ir
    ic := ic
    startK := startK
    endK := endK
    posA := batchIdxA * (p.batchStrideA / loadVec) + (ir * s.bm * p.strideA + startK) / loadVec
    posB := (batchIdx * p.batchStrideB + ic * s.bn * p.strideB + startK) / loadVec
    offsets := batchIdx * p.batchStrideD + ik * p.batchStrideD * p.numBatches }

section

variable (s : Spec) (tid : ℕ)

/-- `warp_r`. -/
def warpR : ℕ := tid / s.warp % (s.bm / s.wm)

/-- `warp_c`. -/
def warpC : ℕ := tid / s.warp / (s.bm / s.wm)

/-- `tiwr`. -/
def tiwr : ℕ := tid % s.warp % (s.wsubm / s.tm)

/-- `tiwc`. -/
def tiwc : ℕ := tid % s.warp / (s.wsubm / s.tm)

/-- `loadr_a` and `loadr_b`. -/
def loadR : ℕ := tid % (bk / loadVec / loadVecBatch)

/-- `loadc_a` and `loadc_b`. -/
def loadC : ℕ := tid / (bk / loadVec / loadVecBatch)

/-- The row of the tile with the sums `wsir`, `r` of an invocation. -/
def tileRow (wsir r : ℕ) : ℕ := warpR s tid * s.wm + wsir * s.wsubm + tiwr s tid * s.tm + r

/-- The column of the tile with the sums `wsic`, `cc` of an invocation. -/
def tileCol (wsic cc : ℕ) : ℕ := warpC s tid * s.wn + wsic * s.wsubn + tiwc s tid * s.tn + cc

end

/-- `sums_idx`. -/
def sumsIdx (s : Spec) (wsic cc wsir cr : ℕ) : ℕ :=
  (wsic * s.tn + cc) * s.wmIter * (s.tm / 2) + wsir * (s.tm / 2) + cr

/-! ### The phases of a block -/

/-- `FLOAT_TYPEV4`. -/
structure Vec4 (F : Type) where
  x : F
  y : F
  z : F
  w : F

/-- The addresses of the shared memory; a cell holds two elements. -/
inductive Shared where
  | bufA (i : ℕ)
  | bufB (i : ℕ)
  deriving DecidableEq, Repr

/-- The variables of an invocation. -/
structure Local (F : Type) where
  posA : ℕ
  posB : ℕ
  sums : ℕ → F × F
  cacheA : ℕ → Vec4 F
  cacheB : Vec4 F

/-- An action of an invocation. -/
abbrev Act (F : Type) := Action (Local F) Shared (F × F)

section

variable {F : Type} [Field F]

/-- What `load_a_to_shmem` and `load_b_to_shmem` store: two neighbouring elements, where they are
inside. -/
def loadPair (data : ℕ → F) (limit endK stride pos row col idxMn block : ℕ) : F × F :=
  let idx := pos + col * stride + row * 2
  if idxMn < limit ∧ block + row * 2 + 1 < endK then (data idx, data (idx + 1))
  else if idxMn < limit ∧ block + row * 2 < endK then (data idx, 0)
  else (0, 0)

variable (s : Spec) (p : Params) (dataA dataB : ℕ → F) (t : Tile)

/-- The copy of a block to shared memory; the two loops visit `lsA` and `lsB`. -/
def loadPhase (lsA lsB : List ℕ) (block : ℕ) (tid : Fin s.blockSize) : List (Act F) :=
  lsA.map (fun l => .store (.bufA ((loadC tid + l) * shmemStride + loadR tid)) fun ℓ =>
    loadPair dataA p.m t.endK p.strideA ℓ.posA (loadR tid) (loadC tid + l)
      (t.ir * s.bm + loadC tid + l) block) ++
  lsB.map fun l => .store (.bufB ((loadC tid + l) * shmemStride + loadR tid)) fun ℓ =>
    loadPair dataB p.n t.endK p.strideB ℓ.posB (loadR tid) (loadC tid + l)
      (t.ic * s.bn + loadC tid + l) block

/-- Four products on top of a sum. -/
def fma4 (a b : Vec4 F) (acc : F) : F := a.x * b.x + (a.y * b.y + (a.z * b.z + (a.w * b.w + acc)))

/-- The update of two sums. -/
def mulAdd (wsic cc wsir cr : ℕ) (ℓ : Local F) : Local F :=
  let sumsIdx := sumsIdx s wsic cc wsir cr
  let sum := ℓ.sums sumsIdx
  let x := fma4 (ℓ.cacheA (wsir * s.tm + 2 * cr)) ℓ.cacheB sum.1
  let y := fma4 (ℓ.cacheA (wsir * s.tm + 2 * cr + 1)) ℓ.cacheB sum.2
  { ℓ with sums := Function.update ℓ.sums sumsIdx (x, y) }

/-- The loads of `cache_a` in step `i`. -/
def loadCacheA (i : ℕ) (tid : ℕ) : List (Act F) :=
  (List.range s.wmIter ×ˢ List.range s.tm).flatMap fun q =>
    let addr := tileRow s tid q.1 q.2 * shmemStride + 2 * i
    [.load (.bufA addr) fun ℓ v => { ℓ with
        cacheA := Function.update ℓ.cacheA (q.1 * s.tm + q.2)
          { ℓ.cacheA (q.1 * s.tm + q.2) with x := v.1, y := v.2 } },
      .load (.bufA (addr + 1)) fun ℓ v => { ℓ with
        cacheA := Function.update ℓ.cacheA (q.1 * s.tm + q.2)
          { ℓ.cacheA (q.1 * s.tm + q.2) with z := v.1, w := v.2 } }]

/-- The loads of `cache_b` in step `i`, for the column `wsic`, `cc` of an invocation. -/
def loadCacheB (i tid wsic cc : ℕ) : List (Act F) :=
  let addr := tileCol s tid wsic cc * shmemStride + 2 * i
  [.load (.bufB addr) fun ℓ v => { ℓ with cacheB := { ℓ.cacheB with x := v.1, y := v.2 } },
    .load (.bufB (addr + 1)) fun ℓ v => { ℓ with cacheB := { ℓ.cacheB with z := v.1, w := v.2 } }]

/-- Step `i` of a block. -/
def stepActions (tid i : ℕ) : List (Act F) :=
  loadCacheA s i tid ++
    (List.range s.wnIter ×ˢ List.range s.tn).flatMap fun q =>
      loadCacheB s i tid q.1 q.2 ++
        (List.range s.wmIter ×ˢ List.range (s.tm / 2)).map fun r =>
          .compute (mulAdd s q.1 q.2 r.1 r.2)

/-- The products of a block. -/
def computePhase (tid : Fin s.blockSize) : List (Act F) :=
  .compute (fun ℓ => { ℓ with posA := ℓ.posA + bk / loadVec, posB := ℓ.posB + bk / loadVec }) ::
    (List.range (bk / bkStep)).flatMap (stepActions s tid)

/-- The loop over the blocks, cut at its barriers. -/
def blockPhases (lsA lsB blocks : List ℕ) : List (Fin s.blockSize → List (Act F)) :=
  blocks.flatMap fun block => [loadPhase s p dataA dataB t lsA lsB block, computePhase s]

/-- The stores after the loop. -/
def writeOutput (tid : ℕ) (sums : ℕ → F × F) : List (ℕ × F) :=
  (List.range s.wnIter).flatMap fun wsic => (List.range s.wmIter).flatMap fun wsir =>
    (List.range s.tn).flatMap fun cc => (List.range (s.tm / 2)).flatMap fun cr =>
      let row := t.ir * s.bm + tileRow s tid wsir (2 * cr)
      let col := t.ic * s.bn + tileCol s tid wsic cc
      let sum := sums (sumsIdx s wsic cc wsir cr)
      (if row < p.m ∧ col < p.n then [(t.offsets + col * p.strideD + row, sum.1)] else []) ++
      (if row + 1 < p.m ∧ col < p.n then [(t.offsets + col * p.strideD + row + 1, sum.2)] else [])

/-- `main`: `ss` are the stores of the workgroup `(x, y, z)` in some execution, whatever the shared
memory and the caches hold at the start. -/
def WorkgroupStores (x y z : ℕ) (ss : List (ℕ × F)) : Prop :=
  let t := tileOf s p x y z
  ∃ lsA lsB blocks, counters s.bm s.loadStride 0 = some lsA ∧
    counters s.bn s.loadStride 0 = some lsB ∧ counters t.endK bk t.startK = some blocks ∧
    ∃ (cacheA : Fin s.blockSize → ℕ → Vec4 F) (cacheB : Fin s.blockSize → Vec4 F), ∃ m ℓ' m',
      RunPhases (blockPhases s p dataA dataB t lsA lsB blocks)
        (fun tid => ⟨t.posA, t.posB, fun _ => (0, 0), cacheA tid, cacheB tid⟩) m ℓ' m' ∧
      ss = (List.finRange s.blockSize).flatMap fun tid : Fin s.blockSize =>
        writeOutput s p t tid (ℓ' tid).sums

/-- `ss` are the stores of a dispatch in some execution of its workgroups. -/
def DispatchStores (wg : ℕ × ℕ × ℕ) (ss : List (ℕ × F)) : Prop :=
  ∃ f : ℕ → ℕ → ℕ → List (ℕ × F),
    (∀ x < wg.1, ∀ y < wg.2.1, ∀ z < wg.2.2, WorkgroupStores s p dataA dataB x y z (f x y z)) ∧
    ss = (List.range wg.2.2).flatMap fun z => (List.range wg.2.1).flatMap fun y =>
      (List.range wg.1).flatMap fun x => f x y z

end

/-! ### Loading a block -/

/-- The invocations of a workgroup cover the rows of a load, `loadStride` columns at a time. -/
structure Loads (s : Spec) : Prop where
  pos : 0 < s.loadStride
  blockSize : s.blockSize = s.loadStride * 16

/-- The counters of a load: the multiples of `loadStride` up to the extent of the tile. -/
structure Strided (s : Spec) (extent : ℕ) (ls : List ℕ) : Prop where
  nodup : ls.Nodup
  dvd : ∀ l ∈ ls, s.loadStride ∣ l
  mem : ∀ col < extent, col / s.loadStride * s.loadStride ∈ ls

theorem strided_of_counters {s : Spec} (hs : Loads s) {extent : ℕ} {ls : List ℕ}
    (h : counters extent s.loadStride 0 = some ls) : Strided s extent ls := by
  rw [counters_eq hs.pos, Option.some.injEq] at h
  subst h
  refine ⟨List.nodup_range' _ hs.pos, fun l hl => ?_, fun col hcol => ?_⟩
  · obtain ⟨i, -, rfl⟩ := List.mem_range'.1 hl
    exact ⟨i, by rw [Nat.zero_add]⟩
  · refine List.mem_range'.2 ⟨col / s.loadStride, div_lt_ceilDiv hs.pos hcol, ?_⟩
    rw [Nat.zero_add, Nat.mul_comm]

theorem loadC_lt {s : Spec} (hs : Loads s) (tid : Fin s.blockSize) :
    loadC tid.val < s.loadStride := by
  refine (Nat.div_lt_iff_lt_mul (show 0 < bk / loadVec / loadVecBatch by decide)).2 ?_
  exact tid.isLt.trans_eq hs.blockSize

theorem loadR_lt (tid : ℕ) : loadR tid < 16 := Nat.mod_lt _ (by decide)

/-- The invocation that loads row `row` of a column. -/
theorem exists_loader {s : Spec} (hs : Loads s) (col : ℕ) {row : ℕ} (hrow : row < 16) :
    ∃ tid : Fin s.blockSize, loadR tid.val = row ∧
      loadC tid.val + col / s.loadStride * s.loadStride = col := by
  have hmod : col % s.loadStride < s.loadStride := Nat.mod_lt _ hs.pos
  refine ⟨⟨col % s.loadStride * 16 + row, ?_⟩, ?_, ?_⟩
  · have hend : (col % s.loadStride + 1) * 16 ≤ s.loadStride * 16 := Nat.mul_le_mul_right _ hmod
    rw [hs.blockSize]
    omega
  · show (col % s.loadStride * 16 + row) % 16 = row
    omega
  · show (col % s.loadStride * 16 + row) / 16 + col / s.loadStride * s.loadStride = col
    rw [show (col % s.loadStride * 16 + row) / 16 = col % s.loadStride by omega, Nat.mod_add_div']

/-- The cells an invocation stores to. -/
def loadCells (s : Spec) (tid : ℕ) : Set Shared :=
  {x | ∃ i, (x = .bufA i ∨ x = .bufB i) ∧ i % shmemStride = loadR tid ∧
    i / shmemStride % s.loadStride = loadC tid}

theorem mem_loadCells {s : Spec} (hs : Loads s) (tid : Fin s.blockSize) {l : ℕ}
    (hl : s.loadStride ∣ l) {x : Shared}
    (hx : x = .bufA ((loadC tid + l) * shmemStride + loadR tid) ∨
      x = .bufB ((loadC tid + l) * shmemStride + loadR tid)) : x ∈ loadCells s tid := by
  have hr : loadR tid < shmemStride := (loadR_lt tid).trans (by decide)
  obtain ⟨j, rfl⟩ := hl
  refine ⟨_, hx, ?_, ?_⟩
  · rw [Nat.mul_add_mod', Nat.mod_eq_of_lt hr]
  · rw [Nat.mul_comm, Nat.mul_add_div (by decide), Nat.div_eq_of_lt hr, Nat.add_zero,
      Nat.add_mul_mod_self_left, Nat.mod_eq_of_lt (loadC_lt hs tid)]

section

variable {F : Type} [Field F] {s : Spec} {p : Params} {dataA dataB : ℕ → F} {t : Tile}

theorem loadPhase_raceFree (hs : Loads s) {lsA lsB : List ℕ} (hA : Strided s s.bm lsA)
    (hB : Strided s s.bn lsB) (block : ℕ) :
    RaceFree (loadPhase s p dataA dataB t lsA lsB block) (fun _ => ∅)
      (fun tid => loadCells s tid) := by
  constructor
  · intro tid a ha
    obtain ha | ha := List.mem_append.1 ha
    · obtain ⟨l, hl, rfl⟩ := List.mem_map.1 ha
      exact mem_loadCells hs tid (hA.dvd l hl) (Or.inl rfl)
    · obtain ⟨l, hl, rfl⟩ := List.mem_map.1 ha
      exact mem_loadCells hs tid (hB.dvd l hl) (Or.inr rfl)
  · rintro tid tid' hne x ⟨i, hx, hr, hc⟩ (hx' | ⟨i', hx', hr', hc'⟩)
    · cases hx'
    · obtain rfl : i = i' := by
        obtain rfl | rfl := hx <;> obtain h | h := hx' <;> cases h <;> rfl
      refine hne (Fin.ext ?_)
      have hmod : loadR tid.val = loadR tid'.val := hr.symm.trans hr'
      have hdiv : loadC tid.val = loadC tid'.val := hc.symm.trans hc'
      have h16 : bk / loadVec / loadVecBatch = 16 := rfl
      rw [loadR, loadR, h16] at hmod
      rw [loadC, loadC, h16] at hdiv
      omega

/-- **After the loads** the shared memory holds the block of both operands. -/
theorem load_step (hs : Loads s) {lsA lsB : List ℕ} (hA : Strided s s.bm lsA)
    (hB : Strided s s.bn lsB) {block : ℕ} {ℓ ℓ' : Fin s.blockSize → Local F} {m m' : Shared → F × F}
    (h : Interleave (loadPhase s p dataA dataB t lsA lsB block) ℓ m ℓ' m') {posA posB : ℕ}
    (hposA : ∀ tid, (ℓ tid).posA = posA) (hposB : ∀ tid, (ℓ tid).posB = posB) :
    (∀ tid, ℓ' tid = ℓ tid) ∧
      (∀ col < s.bm, ∀ row < 16, m' (.bufA (col * shmemStride + row)) =
        loadPair dataA p.m t.endK p.strideA posA row col (t.ir * s.bm + col) block) ∧
      ∀ col < s.bn, ∀ row < 16, m' (.bufB (col * shmemStride + row)) =
        loadPair dataB p.n t.endK p.strideB posB row col (t.ic * s.bn + col) block := by
  obtain ⟨h₁, h₂, -⟩ := h.eq_alone (loadPhase_raceFree hs hA hB block)
  -- the addresses of one loop of an invocation are distinct
  have hkey : ∀ (tid : Fin s.blockSize) {ls : List ℕ} (f : ℕ → Shared), ls.Nodup →
      Function.Injective f →
      (ls.map fun l => f ((loadC tid.val + l) * shmemStride + loadR tid.val)).Nodup := by
    intro tid ls f hn hf
    refine hn.map ?_
    intro l l' hll
    have hrow := Nat.add_right_cancel (hf hll)
    have hcol := Nat.mul_right_cancel (show 0 < shmemStride by decide) hrow
    exact Nat.add_left_cancel hcol
  have hfst : ∀ tid, ℓ' tid = ℓ tid := fun tid => by
    rw [h₁, loadPhase, Action.alone_append, Action.alone_map_store, Action.alone_map_store]
  refine ⟨hfst, fun col hcol row hrow => ?_, fun col hcol row hrow => ?_⟩
  · obtain ⟨tid, rfl, hc⟩ := exists_loader hs col hrow
    have hl := hA.mem col hcol
    have hmem := mem_loadCells hs tid (hA.dvd _ hl) (Or.inl rfl)
    have hval := Action.alone_store_of_mem (fun l (ℓ : Local F) => loadPair dataA p.m t.endK
      p.strideA ℓ.posA (loadR tid) (loadC tid + l) (t.ir * s.bm + loadC tid + l) block) (ℓ tid, m)
      (hkey tid .bufA hA.nodup fun _ _ => Shared.bufA.inj) hl
    have hother : Shared.bufA (col * shmemStride + loadR tid) ∉
        lsB.map fun l => Shared.bufB ((loadC tid.val + l) * shmemStride + loadR tid.val) := by
      simp
    rw [hc] at hmem hval
    rw [h₂ tid _ (Or.inr hmem), loadPhase, Action.alone_append,
      Action.alone_store_of_notMem _ _ hother]
    refine hval.trans ?_
    rw [hposA, Nat.add_assoc, hc]
  · obtain ⟨tid, rfl, hc⟩ := exists_loader hs col hrow
    have hl := hB.mem col hcol
    have hmem := mem_loadCells hs tid (hB.dvd _ hl) (Or.inr rfl)
    have hval := fun mA => Action.alone_store_of_mem (fun l (ℓ : Local F) => loadPair dataB p.n
      t.endK p.strideB ℓ.posB (loadR tid) (loadC tid + l) (t.ic * s.bn + loadC tid + l) block)
      (ℓ tid, mA) (hkey tid .bufB hB.nodup fun _ _ => Shared.bufB.inj) hl
    rw [hc] at hmem hval
    rw [h₂ tid _ (Or.inr hmem), loadPhase, Action.alone_append,
      Action.alone_map_store (L := Local F) _ _ lsA]
    refine (hval _).trans ?_
    rw [hposB, Nat.add_assoc, hc]

/-! ### Multiplying a block -/

/-- The four elements of step `i` in a row of shared memory. -/
def vec (m : Shared → F × F) (buf : ℕ → Shared) (row i : ℕ) : Vec4 F :=
  let u := m (buf (row * shmemStride + 2 * i))
  let v := m (buf (row * shmemStride + 2 * i + 1))
  ⟨u.1, u.2, v.1, v.2⟩

theorem map_index (a b : ℕ) : (List.range a ×ˢ List.range b).map (fun q => q.1 * b + q.2) =
    List.range (a * b) := by
  rw [← range_mul]
  simp only [SProd.sprod, List.product, List.map_flatMap, List.map_map]
  rfl

omit [Field F] in
theorem alone_loadCacheA (i tid : ℕ) (ℓ : Local F) (m : Shared → F × F) :
    ∃ ca, Action.alone (loadCacheA s i tid) (ℓ, m) = ({ ℓ with cacheA := ca }, m) ∧
      ∀ wsir < s.wmIter, ∀ r < s.tm,
        ca (wsir * s.tm + r) = vec m .bufA (tileRow s tid wsir r) i := by
  have hfold : ∀ (qs : List (ℕ × ℕ)) (ℓ : Local F), Action.alone (qs.flatMap fun q =>
      let addr := tileRow s tid q.1 q.2 * shmemStride + 2 * i
      [.load (.bufA addr) fun ℓ v => { ℓ with
          cacheA := Function.update ℓ.cacheA (q.1 * s.tm + q.2)
            { ℓ.cacheA (q.1 * s.tm + q.2) with x := v.1, y := v.2 } },
        .load (.bufA (addr + 1)) fun ℓ v => { ℓ with
          cacheA := Function.update ℓ.cacheA (q.1 * s.tm + q.2)
            { ℓ.cacheA (q.1 * s.tm + q.2) with z := v.1, w := v.2 } }]) (ℓ, m) =
      ({ ℓ with cacheA := qs.foldl (fun c q => Function.update c (q.1 * s.tm + q.2)
        (vec m .bufA (tileRow s tid q.1 q.2) i)) ℓ.cacheA }, m) := by
    intro qs
    induction qs with
    | nil => exact fun _ => rfl
    | cons q qs ih =>
      intro ℓ
      rw [List.flatMap_cons, List.cons_append, List.cons_append, List.nil_append,
        Action.alone_cons, Action.alone_cons, List.foldl_cons]
      refine (ih _).trans ?_
      simp only [Action.exec, Function.update_self, Function.update_idem]
      rfl
  refine ⟨_, hfold _ ℓ, fun wsir hwsir r hr => ?_⟩
  have hmem : (wsir, r) ∈ List.range s.wmIter ×ˢ List.range s.tm :=
    List.mem_product.2 ⟨List.mem_range.2 hwsir, List.mem_range.2 hr⟩
  exact Action.foldl_update (fun q => q.1 * s.tm + q.2)
    (fun q _ => vec m .bufA (tileRow s tid q.1 q.2) i) ((map_index _ _).symm ▸ List.nodup_range)
    ℓ.cacheA hmem

omit [Field F] in
theorem alone_loadCacheB (i tid wsic cc : ℕ) (ℓ : Local F) (m : Shared → F × F) :
    Action.alone (loadCacheB s i tid wsic cc) (ℓ, m) =
      ({ ℓ with cacheB := vec m .bufB (tileCol s tid wsic cc) i }, m) := rfl

/-- The sums of an invocation, by `wsic`, `cc`, `wsir` and `cr`. -/
def quads (s : Spec) : List ((ℕ × ℕ) × ℕ × ℕ) :=
  (List.range s.wnIter ×ˢ List.range s.tn) ×ˢ (List.range s.wmIter ×ˢ List.range (s.tm / 2))

/-- The index of a sum. -/
def quadIdx (s : Spec) (q : (ℕ × ℕ) × ℕ × ℕ) : ℕ := sumsIdx s q.1.1 q.1.2 q.2.1 q.2.2

theorem mem_quads {q : (ℕ × ℕ) × ℕ × ℕ} : q ∈ quads s ↔
    (q.1.1 < s.wnIter ∧ q.1.2 < s.tn) ∧ q.2.1 < s.wmIter ∧ q.2.2 < s.tm / 2 := by
  obtain ⟨⟨a, b⟩, c, d⟩ := q
  simp [quads, SProd.sprod]

theorem nodup_quadIdx (s : Spec) : ((quads s).map (quadIdx s)).Nodup := by
  have hn : (quads s).Nodup := (List.nodup_range.product List.nodup_range).product
    (List.nodup_range.product List.nodup_range)
  refine hn.map_on ?_
  intro q hq q' hq' h
  obtain ⟨⟨wsic, cc⟩, wsir, cr⟩ := q
  obtain ⟨⟨wsic', cc'⟩, wsir', cr'⟩ := q'
  obtain ⟨⟨-, hcc⟩, hwsir, hcr⟩ := mem_quads.1 hq
  obtain ⟨⟨-, hcc'⟩, hwsir', hcr'⟩ := mem_quads.1 hq'
  have hidx : ((wsic * s.tn + cc) * s.wmIter + wsir) * (s.tm / 2) + cr =
      ((wsic' * s.tn + cc') * s.wmIter + wsir') * (s.tm / 2) + cr' := by
    simpa only [quadIdx, sumsIdx, Nat.add_mul] using h
  obtain ⟨h₁, rfl⟩ := mul_add_inj hcr hcr' hidx
  obtain ⟨h₂, rfl⟩ := mul_add_inj hwsir hwsir' h₁
  obtain ⟨rfl, rfl⟩ := mul_add_inj hcc hcc' h₂
  rfl

/-- What step `i` makes of a sum. -/
def stepSum (s : Spec) (tid i : ℕ) (m : Shared → F × F) (q : (ℕ × ℕ) × ℕ × ℕ) (v : F × F) : F × F :=
  (fma4 (vec m .bufA (tileRow s tid q.2.1 (2 * q.2.2)) i)
      (vec m .bufB (tileCol s tid q.1.1 q.1.2) i) v.1,
    fma4 (vec m .bufA (tileRow s tid q.2.1 (2 * q.2.2 + 1)) i)
      (vec m .bufB (tileCol s tid q.1.1 q.1.2) i) v.2)

/-- The update of one sum. -/
def updateSum (s : Spec) (tid i : ℕ) (m : Shared → F × F) (sums : ℕ → F × F)
    (q : (ℕ × ℕ) × ℕ × ℕ) : ℕ → F × F :=
  Function.update sums (quadIdx s q) (stepSum s tid i m q (sums (quadIdx s q)))

/-- The products of one column, by one invocation whose caches are loaded. -/
theorem alone_mulAdd {i tid wsic cc : ℕ} {m : Shared → F × F} {rs : List (ℕ × ℕ)}
    (hrs : ∀ r ∈ rs, r.1 < s.wmIter ∧ r.2 < s.tm / 2) {ℓ : Local F}
    (hcacheA : ∀ wsir < s.wmIter, ∀ r < s.tm,
      ℓ.cacheA (wsir * s.tm + r) = vec m .bufA (tileRow s tid wsir r) i)
    (hcacheB : ℓ.cacheB = vec m .bufB (tileCol s tid wsic cc) i) :
    Action.alone (rs.map fun r => .compute (mulAdd s wsic cc r.1 r.2)) (ℓ, m) =
      ({ ℓ with sums := rs.foldl (fun sums r => updateSum s tid i m sums ((wsic, cc), r)) ℓ.sums },
        m) := by
  induction rs generalizing ℓ with
  | nil => rfl
  | cons r rs ih =>
    obtain ⟨hwsir, hcr⟩ := hrs r List.mem_cons_self
    have hx := hcacheA r.1 hwsir (2 * r.2) (by omega)
    have hy := hcacheA r.1 hwsir (2 * r.2 + 1) (by omega)
    have hstep : mulAdd s wsic cc r.1 r.2 ℓ =
        { ℓ with sums := updateSum s tid i m ℓ.sums ((wsic, cc), r) } := by
      simp only [mulAdd, updateSum, stepSum, quadIdx, Nat.add_assoc, hx, hy, hcacheB]
    rw [List.map_cons, Action.alone_cons, Action.exec, hstep, List.foldl_cons]
    exact ih (fun r hr => hrs r (List.mem_cons_of_mem _ hr)) hcacheA hcacheB

/-- The products of some columns, by one invocation whose `cacheA` is loaded. -/
theorem alone_columns {i tid : ℕ} {m : Shared → F × F} (qs : List (ℕ × ℕ)) {ℓ : Local F}
    (hcacheA : ∀ wsir < s.wmIter, ∀ r < s.tm,
      ℓ.cacheA (wsir * s.tm + r) = vec m .bufA (tileRow s tid wsir r) i) :
    ∃ cb, Action.alone (qs.flatMap fun q => loadCacheB s i tid q.1 q.2 ++
        (List.range s.wmIter ×ˢ List.range (s.tm / 2)).map fun r =>
          .compute (mulAdd s q.1 q.2 r.1 r.2)) (ℓ, m) =
      ({ ℓ with
          cacheB := cb
          sums := (qs ×ˢ (List.range s.wmIter ×ˢ List.range (s.tm / 2))).foldl
            (updateSum s tid i m) ℓ.sums }, m) := by
  have hrs : ∀ r ∈ List.range s.wmIter ×ˢ List.range (s.tm / 2), r.1 < s.wmIter ∧ r.2 < s.tm / 2 :=
    fun r hr => (List.mem_product.1 hr).imp List.mem_range.1 List.mem_range.1
  induction qs generalizing ℓ with
  | nil => exact ⟨ℓ.cacheB, rfl⟩
  | cons q qs ih =>
    rw [List.flatMap_cons, Action.alone_append, Action.alone_append, alone_loadCacheB,
      alone_mulAdd hrs (by exact hcacheA) rfl]
    obtain ⟨cb, hcb⟩ := ih (ℓ := { ℓ with
      cacheB := vec m .bufB (tileCol s tid q.1 q.2) i
      sums := (List.range s.wmIter ×ˢ List.range (s.tm / 2)).foldl
        (fun sums r => updateSum s tid i m sums (q, r)) ℓ.sums }) hcacheA
    refine ⟨cb, hcb.trans ?_⟩
    simp only [SProd.sprod, List.product, List.flatMap_cons, List.foldl_append, List.foldl_map]

/-- **One step of a block**, by one invocation. -/
theorem alone_stepActions (i tid : ℕ) (ℓ : Local F) (m : Shared → F × F) :
    ∃ ca cb sums, Action.alone (stepActions s tid i) (ℓ, m) =
        ({ ℓ with cacheA := ca, cacheB := cb, sums := sums }, m) ∧
      ∀ q ∈ quads s, sums (quadIdx s q) = stepSum s tid i m q (ℓ.sums (quadIdx s q)) := by
  obtain ⟨ca, hca, hvec⟩ := alone_loadCacheA (s := s) i tid ℓ m
  obtain ⟨cb, hcb⟩ := alone_columns (s := s) (List.range s.wnIter ×ˢ List.range s.tn)
    (ℓ := { ℓ with cacheA := ca }) hvec
  refine ⟨ca, cb, (quads s).foldl (updateSum s tid i m) ℓ.sums, ?_, fun q hq => ?_⟩
  · rw [stepActions, Action.alone_append, hca, hcb]
    rfl
  · exact Action.foldl_update (quadIdx s) (stepSum s tid i m) (nodup_quadIdx s) ℓ.sums hq

/-- The element `k` of a row of shared memory. -/
def elem (m : Shared → F × F) (buf : ℕ → Shared) (row k : ℕ) : F :=
  if k % 2 = 0 then (m (buf (row * shmemStride + k / 2))).1
  else (m (buf (row * shmemStride + k / 2))).2

/-- The dot product of two rows of shared memory. -/
def dot (m : Shared → F × F) (rowA rowB n : ℕ) : F :=
  ∑ k ∈ range n, elem m .bufA rowA k * elem m .bufB rowB k

omit [Field F] in
theorem vec_eq (m : Shared → F × F) (buf : ℕ → Shared) (row i : ℕ) :
    vec m buf row i = ⟨elem m buf row (i * 4), elem m buf row (i * 4 + 1),
      elem m buf row (i * 4 + 2), elem m buf row (i * 4 + 3)⟩ := by
  have h₀ : i * 4 % 2 = 0 ∧ i * 4 / 2 = 2 * i := by omega
  have h₁ : (i * 4 + 1) % 2 ≠ 0 ∧ (i * 4 + 1) / 2 = 2 * i := by omega
  have h₂ : (i * 4 + 2) % 2 = 0 ∧ (i * 4 + 2) / 2 = 2 * i + 1 := by omega
  have h₃ : (i * 4 + 3) % 2 ≠ 0 ∧ (i * 4 + 3) / 2 = 2 * i + 1 := by omega
  simp only [elem, if_pos h₀.1, if_neg h₁.1, if_pos h₂.1, if_neg h₃.1, h₀.2, h₁.2, h₂.2, h₃.2]
  rfl

theorem fma4_vec (m : Shared → F × F) (rowA rowB i : ℕ) (acc : F) :
    fma4 (vec m .bufA rowA i) (vec m .bufB rowB i) (acc + dot m rowA rowB (i * 4)) =
      acc + dot m rowA rowB ((i + 1) * 4) := by
  rw [vec_eq, vec_eq, fma4, dot, dot, Nat.add_mul, sum_range_add]
  simp only [sum_range_succ, range_zero, sum_empty, Nat.one_mul, Nat.add_zero]
  ring

/-- The products of a block that belong to a sum. -/
def quadDot (s : Spec) (tid : ℕ) (m : Shared → F × F) (q : (ℕ × ℕ) × ℕ × ℕ) (n : ℕ) : F × F :=
  (dot m (tileRow s tid q.2.1 (2 * q.2.2)) (tileCol s tid q.1.1 q.1.2) n,
    dot m (tileRow s tid q.2.1 (2 * q.2.2 + 1)) (tileCol s tid q.1.1 q.1.2) n)

theorem stepSum_add (tid i : ℕ) (m : Shared → F × F) (q : (ℕ × ℕ) × ℕ × ℕ) (v : F × F) :
    stepSum s tid i m q (v + quadDot s tid m q (i * 4)) = v + quadDot s tid m q ((i + 1) * 4) := by
  refine Prod.ext ?_ ?_
  · exact fma4_vec m _ _ i v.1
  · exact fma4_vec m _ _ i v.2

theorem alone_steps (n tid : ℕ) (ℓ : Local F) (m : Shared → F × F) :
    ∃ ca cb sums, Action.alone ((List.range n).flatMap (stepActions s tid)) (ℓ, m) =
        ({ ℓ with cacheA := ca, cacheB := cb, sums := sums }, m) ∧
      ∀ q ∈ quads s, sums (quadIdx s q) = ℓ.sums (quadIdx s q) + quadDot s tid m q (n * 4) := by
  induction n with
  | zero => exact ⟨ℓ.cacheA, ℓ.cacheB, ℓ.sums, rfl, fun q _ => (add_zero _).symm⟩
  | succ n ih =>
    obtain ⟨ca, cb, sums, hrun, hsums⟩ := ih
    obtain ⟨ca', cb', sums', hrun', hsums'⟩ := alone_stepActions (s := s) n tid
      { ℓ with cacheA := ca, cacheB := cb, sums := sums } m
    refine ⟨ca', cb', sums', ?_, fun q hq => ?_⟩
    · rw [List.range_succ, List.flatMap_append, Action.alone_append, hrun,
        List.flatMap_singleton, hrun']
    · rw [hsums' q hq, ← stepSum_add, ← hsums q hq]

/-- **The products of a block**: the memory stays, and every sum grows by its dot product. -/
theorem compute_step {ℓ ℓ' : Fin s.blockSize → Local F} {m m' : Shared → F × F}
    (h : Interleave (computePhase s) ℓ m ℓ' m') :
    m' = m ∧ ∀ tid, (ℓ' tid).posA = (ℓ tid).posA + bk ∧ (ℓ' tid).posB = (ℓ tid).posB + bk ∧
      ∀ q ∈ quads s, (ℓ' tid).sums (quadIdx s q) =
        (ℓ tid).sums (quadIdx s q) + quadDot s tid m q bk := by
  have hfree : RaceFree (computePhase (F := F) s) (fun _ => Set.univ) (fun _ => ∅) := by
    refine ⟨fun tid a ha => ?_, fun _ _ _ _ hx => absurd hx (Set.notMem_empty _)⟩
    simp only [computePhase, stepActions, loadCacheA, loadCacheB, List.mem_cons, List.mem_flatMap,
      List.mem_append, List.mem_map, List.not_mem_nil, or_false] at ha
    obtain rfl | ⟨i, -, ⟨q, -, rfl | rfl⟩ | ⟨q, -, (rfl | rfl) | ⟨r, -, rfl⟩⟩⟩ := ha <;>
      trivial
  obtain ⟨h₁, -, h₃⟩ := h.eq_alone hfree
  refine ⟨funext fun x => h₃ x fun _ => Set.notMem_empty x, fun tid => ?_⟩
  obtain ⟨ca, cb, sums, hrun, hsums⟩ := alone_steps (s := s) (bk / bkStep) tid
    { ℓ tid with posA := (ℓ tid).posA + bk / loadVec, posB := (ℓ tid).posB + bk / loadVec } m
  have hlocal : ℓ' tid = { ℓ tid with
      posA := (ℓ tid).posA + bk / loadVec
      posB := (ℓ tid).posB + bk / loadVec
      cacheA := ca
      cacheB := cb
      sums := sums } := by
    rw [h₁, computePhase, Action.alone_cons, Action.exec, hrun]
  rw [hlocal]
  exact ⟨rfl, rfl, hsums⟩

end

end Matmul

end VllmVulkan
