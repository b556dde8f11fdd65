import VllmVulkan.Kv.Coop
import VllmVulkan.Shader.Elementwise

/-!
# The norm shader

`rms_norm.comp`, as `rms_norm_f32_mul` compiles it.  One workgroup normalises a row: every
invocation adds up the squares of a strided part, a tree reduction in shared memory adds the parts,
and every invocation scales its own elements.

* `columns`, `numIters` : the columns of an invocation;
* `sumPhase`, `reducePhase`, `writePhase` : the phases of a workgroup;
* `columns_eq`, `sum_columns` : **every column is visited once**;
* `sum_step`, `reduce_run`, `write_step` : what the phases leave;
* `rmsNorm_computes` : **the workgroup computes the weighted norm of its row**.
-/

namespace VllmVulkan

namespace Shader

open Gemma4 Overlap VllmVulkan.Action Finset

variable {S K : Type}

/-- `BLOCK_SIZE`. -/
def blockSize : ℕ := 512

/-- The variables of an invocation. -/
structure NormLocal (K : Type) where
  sum : K
  /-- The register an element is loaded into. -/
  xi : K
  /-- The register a weight is loaded into. -/
  b : K
  scale : K

/-- The columns of the loops `for (col = tid, idx = 0; idx < num_iters; col += BLOCK_SIZE, ++idx)`.
-/
def columns (numIters tid : ℕ) : List UInt32 :=
  (List.range numIters).map fun idx => tid.toUInt32 + idx.toUInt32 * blockSize.toUInt32

/-- The number of turns that `main` picks for a row; there are none for an empty one. -/
def numIters (ne00 : UInt32) : Option ℕ :=
  let numBlocks := (ne00 + 512 - 1) / 512
  if numBlocks > 32 then some numBlocks.toNat
  else if numBlocks > 16 then some 32
  else if numBlocks > 12 then some 16
  else if numBlocks > 10 then some 12
  else if numBlocks > 8 then some 10
  else if numBlocks > 4 then some 8
  else if numBlocks = 4 then some 4
  else if numBlocks = 3 then some 3
  else if numBlocks = 2 then some 2
  else if numBlocks = 1 then some 1
  else none

section

variable [Field K] [Glsl K] (pc : BinaryHeadPc K) (a b : Gemma4.Binding S K) (out : S)
  (row channel samp : UInt32)

/-- `a_offset`. -/
def normAoffset : UInt32 :=
  samp * pc.nb03.toUInt32 + channel * pc.nb02.toUInt32 + row * pc.nb01.toUInt32 + getAoffset pc

/-- `b_offset`. -/
def normBoffset : UInt32 := src1Idx pc ⟨0, row, channel, samp⟩ + getBoffset pc

/-- `d_offset`, in a grid of `nrows` and `nchannels`. -/
def normDoffset (nrows nchannels : UInt32) : UInt32 :=
  ((samp * nchannels + channel) * nrows + row) * pc.ne00.toUInt32 + getDoffset pc

/-- The partial sum of an invocation. -/
def sumPhase (turns : ℕ) (tid : Fin blockSize) : List (Action (NormLocal K) (Addr S ⊕ ℕ) K) :=
  .compute (fun ℓ => { ℓ with sum := 0 }) ::
    ((columns turns tid).flatMap fun col =>
      [if col < pc.ne00.toUInt32 then
          load a (normAoffset pc row channel samp + col).toNat fun ℓ v => { ℓ with xi := v }
        else .compute fun ℓ => { ℓ with xi := 0 },
        .compute fun ℓ => { ℓ with sum := ℓ.sum + ℓ.xi * ℓ.xi }]) ++
    [.store (.inr tid) fun ℓ => ℓ.sum]

/-- `if (tid < s) { sum += sumsh[tid + s]; sumsh[tid] = sum; }`. -/
def reducePhase (s : ℕ) (tid : Fin blockSize) : List (Action (NormLocal K) (Addr S ⊕ ℕ) K) :=
  if tid.val < s then
    [.load (.inr (tid + s)) fun ℓ v => { ℓ with sum := ℓ.sum + v },
      .store (.inr tid) fun ℓ => ℓ.sum]
  else []

/-- The elements of an invocation, scaled and weighted. -/
def writePhase (turns : ℕ) (nrows nchannels : UInt32) (tid : Fin blockSize) :
    List (Action (NormLocal K) (Addr S ⊕ ℕ) K) :=
  let ncols := pc.ne00.toUInt32
  .load (.inr 0) (fun ℓ v => { ℓ with sum := v }) ::
    .compute (fun ℓ =>
      { ℓ with scale := Glsl.inversesqrt (ℓ.sum / (ncols.toNat : K) + pc.param1) }) ::
    (columns turns tid).flatMap fun col =>
      if col ≥ ncols then []
      else
        let weight := if ncols > pc.ne10.toUInt32 then fastmod col pc.ne10.toUInt32 else col
        [load a (normAoffset pc row channel samp + col).toNat fun ℓ v => { ℓ with xi := v },
          load b (normBoffset pc row channel samp + weight).toNat fun ℓ v => { ℓ with b := v },
          .store (.inl (out, (normDoffset pc row channel samp nrows nchannels + col).toNat))
            fun ℓ => ℓ.scale * ℓ.xi * ℓ.b]

/-- `rms_norm`, with `do_multiply`. -/
def normPhases (turns : ℕ) (nrows nchannels : UInt32) :
    List (Fin blockSize → List (Action (NormLocal K) (Addr S ⊕ ℕ) K)) :=
  sumPhase pc a row channel samp turns ::
    (Coop.strides (blockSize / 2)).map reducePhase ++
      [writePhase pc a b out row channel samp turns nrows nchannels]

/-- The only workgroup of a dispatch of one row; its shared memory holds `shared` at the start. -/
def normWorkgroup (shared : ℕ → K) : Workgroup (Fin blockSize) (NormLocal K) (Addr S) ℕ K where
  locals _ := ⟨0, 0, 0, 0⟩
  shared := shared
  phases := match numIters pc.ne00.toUInt32 with
    | some turns => normPhases pc a b out 0 0 0 turns 1 1
    | none => []

end

/-! ### The columns -/

/-- The columns of an invocation, as numbers. -/
def columnIds (turns tid : ℕ) : List ℕ := (List.range turns).map fun idx => tid + idx * blockSize

theorem columns_eq {turns tid : ℕ} (htid : tid < blockSize) (hturns : turns * blockSize ≤ 2 ^ 32) :
    columns turns tid = (columnIds turns tid).map Nat.toUInt32 ∧
      ∀ c ∈ columnIds turns tid, c < 2 ^ 32 := by
  have hlt : ∀ idx < turns, tid + idx * blockSize < 2 ^ 32 := by
    intro idx hidx
    have hrow : (idx + 1) * blockSize ≤ turns * blockSize := Nat.mul_le_mul_right _ hidx
    rw [Nat.succ_mul] at hrow
    omega
  constructor
  · rw [columns, columnIds, List.map_map]
    refine List.map_congr_left fun idx _ => ?_
    rw [Function.comp_apply, ← UInt32.toNat_inj, UInt32.toNat_add, UInt32.toNat_mul]
    simp
  · intro c hc
    obtain ⟨idx, hidx, rfl⟩ := List.mem_map.1 hc
    exact hlt idx (List.mem_range.1 hidx)

theorem nodup_columnIds (turns tid : ℕ) : (columnIds turns tid).Nodup := by
  refine List.nodup_range.map fun i j hij => ?_
  have hcancel := Nat.add_left_cancel hij
  exact Nat.eq_of_mul_eq_mul_right (by decide) hcancel

theorem mod_columnIds {turns tid c : ℕ} (htid : tid < blockSize) (hc : c ∈ columnIds turns tid) :
    c % blockSize = tid := by
  obtain ⟨idx, -, rfl⟩ := List.mem_map.1 hc
  rw [Nat.add_mul_mod_self_right, Nat.mod_eq_of_lt htid]

theorem mem_columnIds {turns c : ℕ} (hc : c < turns * blockSize) :
    c ∈ columnIds turns (c % blockSize) := by
  refine List.mem_map.2 ⟨c / blockSize, List.mem_range.2 ?_, Nat.mod_add_div' c blockSize⟩
  exact (Nat.div_lt_iff_lt_mul (by decide)).2 hc

theorem numIters_spec {n : ℕ} (hpos : 0 < n) (hn : n + 511 < 2 ^ 32) :
    ∃ turns, numIters n.toUInt32 = some turns ∧ n ≤ turns * blockSize ∧
      turns * blockSize ≤ 2 ^ 32 := by
  have hblocks : ((n.toUInt32 + 512 - 1) / 512).toNat = (n + 511) / 512 := by
    have hadd : n.toUInt32 + 512 - 1 = (n + 511).toUInt32 := by
      rw [← UInt32.toNat_inj, toNat_toUInt32 hn]
      have h := toNat_toUInt32 (n := n) (by omega)
      rw [UInt32.sub_eq_add_neg, UInt32.add_assoc, UInt32.toNat_add, h]
      have hconst : ((512 : UInt32) + -1).toNat = 511 := rfl
      rw [hconst, Nat.mod_eq_of_lt hn]
    rw [hadd, UInt32.toNat_div, toNat_toUInt32 hn]
    rfl
  have hgt : ∀ k : UInt32, (n.toUInt32 + 512 - 1) / 512 > k ↔ (n + 511) / 512 > k.toNat := by
    intro k
    rw [gt_iff_lt, UInt32.lt_iff_toNat_lt, hblocks]
  have heq : ∀ k : UInt32, (n.toUInt32 + 512 - 1) / 512 = k ↔ (n + 511) / 512 = k.toNat := by
    intro k
    rw [← UInt32.toNat_inj, hblocks]
  simp only [numIters, blockSize, hgt, heq, hblocks, UInt32.reduceToNat]
  split_ifs <;> first | exact ⟨_, rfl, by omega, by omega⟩ | omega

/-! ### The phases -/

section

variable [Field K] [DecidableEq S] {a b : Gemma4.Binding S K} {out : S} {n turns : ℕ}
  {eps : K}

/-- The square of an element, none behind the end of the row. -/
def square (n : ℕ) (x : ℕ → K) (c : ℕ) : K := if c < n then x c * x c else 0

theorem normAoffset_eq {c : ℕ} (hc : c < 2 ^ 32) :
    (normAoffset (rmsNormMulPc n eps) 0 0 0 + c.toUInt32).toNat = c := by
  simp [normAoffset, getAoffset, rmsNormMulPc, binaryHeadPc, toNat_toUInt32 hc]

variable (a eps) in
theorem alone_squares (hn : n < 2 ^ 32) {cols : List ℕ} (hcols : ∀ c ∈ cols, c < 2 ^ 32)
    (ℓ : NormLocal K) (m : Addr S ⊕ ℕ → K) :
    let r := alone ((cols.map Nat.toUInt32).flatMap fun col =>
      [if col < n.toUInt32 then
          load a (normAoffset (rmsNormMulPc n eps) 0 0 0 + col).toNat fun ℓ v =>
            { ℓ with xi := v }
        else .compute fun ℓ => { ℓ with xi := 0 },
        .compute fun ℓ => { ℓ with sum := ℓ.sum + ℓ.xi * ℓ.xi }]) (ℓ, m)
    r.1.sum = ℓ.sum + (cols.map (square n (view a (m ∘ Sum.inl)))).sum ∧ r.2 = m := by
  induction cols generalizing ℓ with
  | nil => exact ⟨(add_zero _).symm, rfl⟩
  | cons c cols ih =>
    have hc := hcols c List.mem_cons_self
    have hlt : c.toUInt32 < n.toUInt32 ↔ c < n := by
      rw [UInt32.lt_iff_toNat_lt, toNat_toUInt32 hc, toNat_toUInt32 hn]
    have htail := ih fun c' hc' => hcols c' (List.mem_cons_of_mem _ hc')
    simp only [List.map_cons, List.flatMap_cons, List.cons_append, List.nil_append, alone_cons, hlt,
      List.sum_cons, ← add_assoc]
    rw [square]
    split_ifs with hin
    · rw [exec_load, normAoffset_eq hc]
      exact htail _
    · have hzero : ℓ.sum + 0 = ℓ.sum + 0 * 0 := by rw [mul_zero]
      rw [hzero]
      exact htail { ℓ with xi := 0, sum := ℓ.sum + 0 * 0 }

variable (a eps) in
theorem alone_sumPhase (hn : n < 2 ^ 32) (hturns : turns * blockSize ≤ 2 ^ 32)
    (tid : Fin blockSize) (ℓ : NormLocal K) (m : Addr S ⊕ ℕ → K) :
    let total := ((columnIds turns tid).map (square n (view a (m ∘ Sum.inl)))).sum
    (alone (sumPhase (rmsNormMulPc n eps) a 0 0 0 turns tid) (ℓ, m)).1.sum = total ∧
      (alone (sumPhase (rmsNormMulPc n eps) a 0 0 0 turns tid) (ℓ, m)).2 =
        Function.update m (.inr tid.val) total := by
  obtain ⟨hcols, hlt⟩ := columns_eq tid.isLt hturns
  obtain ⟨hsum, hmem⟩ := alone_squares a eps hn hlt
    { ℓ with sum := 0 } m
  rw [zero_add] at hsum
  dsimp only
  rw [← hsum, sumPhase, hcols, List.cons_append, alone_cons, alone_append]
  refine ⟨rfl, ?_⟩
  change Function.update (alone _ _).2 (Sum.inr tid.val) _ = _
  exact congrArg₂ (fun m v => Function.update m (Sum.inr tid.val) v) hmem rfl

omit [DecidableEq S] in
theorem within_sumPhase {tid : Fin blockSize} {act : Action (NormLocal K) (Addr S ⊕ ℕ) K}
    (hact : act ∈ sumPhase (rmsNormMulPc n eps) a 0 0 0 turns tid) :
    (∀ x ∈ act.reads, ∃ s ∈ a.slots, ∃ i, x = .inl (s, i)) ∧
      ∀ x ∈ act.writes, x = .inr tid.val := by
  rw [sumPhase, List.cons_append, List.mem_cons, List.mem_append, List.mem_singleton] at hact
  obtain rfl | hact | rfl := hact
  · simp [reads, writes]
  · obtain ⟨col, -, hact⟩ := List.mem_flatMap.1 hact
    simp only [List.mem_cons, List.not_mem_nil, or_false] at hact
    obtain rfl | rfl := hact
    · split_ifs
      · refine ⟨fun x hx => ?_, by simp⟩
        obtain ⟨s, hs, rfl⟩ := mem_reads_load hx
        exact ⟨s, hs, _, rfl⟩
      · simp [reads, writes]
    · simp [reads, writes]
  · exact ⟨by simp [reads], fun x hx => hx⟩

/-- **The first phase** leaves the sum of its squares with every invocation and in its cell. -/
theorem sum_step (hn : n < 2 ^ 32) (hturns : turns * blockSize ≤ 2 ^ 32)
    {ℓ ℓ' : Fin blockSize → NormLocal K} {m m' : Addr S ⊕ ℕ → K}
    (h : Interleave (sumPhase (rmsNormMulPc n eps) a 0 0 0 turns) ℓ m ℓ' m') :
    m' ∘ Sum.inl = m ∘ Sum.inl ∧ ∀ tid : Fin blockSize, (ℓ' tid).sum = m' (.inr tid) ∧
      m' (.inr tid) =
        ((columnIds turns tid).map (square n (view a (m ∘ Sum.inl)))).sum := by
  have hrace : RaceFree (sumPhase (rmsNormMulPc n eps) a 0 0 0 turns)
      (fun _ => {x | ∃ s ∈ a.slots, ∃ i, x = .inl (s, i)})
      (fun tid => {x : Addr S ⊕ ℕ | x = .inr tid.val}) := by
    constructor
    · intro tid act hact
      obtain ⟨hreads, hwrites⟩ := within_sumPhase hact
      exact within_of_subset hreads hwrites
    · rintro tid tid' hne x rfl (⟨s, -, i, heq⟩ | heq)
      · cases heq
      · exact hne (Fin.ext (Sum.inr.inj heq))
  obtain ⟨hℓ, hm, hframe⟩ := h.eq_alone hrace
  refine ⟨funext fun x => hframe _ (by simp), fun tid => ?_⟩
  obtain ⟨hsum, hmem⟩ := alone_sumPhase a eps hn hturns tid (ℓ tid) m
  have hcell := hm tid (.inr tid.val) (.inr rfl)
  rw [hmem, Function.update_self] at hcell
  exact ⟨(congrArg NormLocal.sum (hℓ tid)).trans (hsum.trans hcell.symm), hcell⟩

/-- One round of the reduction adds the upper half of the active cells to the lower half. -/
theorem reduce_round {stride : ℕ}
    {ℓ ℓ' : Fin blockSize → NormLocal K} {m m' : Addr S ⊕ ℕ → K}
    (hsum : ∀ tid : Fin blockSize, tid.val < stride → (ℓ tid).sum = m (.inr tid.val))
    (h : Interleave (reducePhase stride) ℓ m ℓ' m') :
    m' ∘ Sum.inl = m ∘ Sum.inl ∧ ∀ tid : Fin blockSize, tid.val < stride →
      (ℓ' tid).sum = m' (.inr tid.val) ∧
        m' (.inr tid.val) = m (.inr tid.val) + m (.inr (tid.val + stride)) := by
  -- the invocations below `stride` write below it, and read above it what nobody writes
  have hrace : RaceFree (reducePhase (S := S) (K := K) stride)
      (fun tid => if tid.val < stride then {.inr (tid.val + stride)} else ∅)
      (fun tid => if tid.val < stride then {.inr tid.val} else ∅) := by
    constructor
    · intro tid act hact
      unfold reducePhase at hact
      split_ifs at hact ⊢ with htid
      · simp only [List.mem_cons, List.not_mem_nil, or_false] at hact
        obtain rfl | rfl := hact
        · exact rfl
        · exact rfl
      · cases hact
    · intro tid tid' hne x hx
      split_ifs at hx with htid
      · obtain rfl := Set.mem_singleton_iff.1 hx
        split_ifs with htid'
        · rintro (heq | heq)
          · have heq := Sum.inr.inj heq
            omega
          · exact hne (Fin.ext (Sum.inr.inj heq))
        · simp
      · cases hx
  obtain ⟨hℓ, hm, hframe⟩ := h.eq_alone hrace
  refine ⟨funext fun x => hframe _ fun tid hx => ?_, fun tid htid => ?_⟩
  · split_ifs at hx
    · cases hx
    · cases hx
  · have halone : alone (reducePhase (S := S) stride tid) (ℓ tid, m) =
        ({ ℓ tid with sum := m (.inr tid.val) + m (.inr (tid.val + stride)) },
          Function.update m (.inr tid.val) (m (.inr tid.val) + m (.inr (tid.val + stride)))) := by
      rw [reducePhase, if_pos htid, ← hsum tid htid]
      rfl
    have hcell := hm tid (.inr tid.val) (.inr (by rw [if_pos htid]; rfl))
    rw [halone] at hcell
    have hcell := hcell.trans (Function.update_self ..)
    rw [hℓ tid, halone]
    exact ⟨hcell.symm, hcell⟩

/-- **After the reduction the first cell holds the sum.** -/
theorem reduce_run (k : ℕ) (hk : 2 ^ k ≤ blockSize) {ℓ ℓ' : Fin blockSize → NormLocal K}
    {m m' : Addr S ⊕ ℕ → K}
    (hsum : ∀ tid : Fin blockSize, tid.val < 2 ^ k → (ℓ tid).sum = m (.inr tid.val))
    (h : RunPhases ((Coop.strides (2 ^ k / 2)).map reducePhase) ℓ m ℓ' m') :
    m' ∘ Sum.inl = m ∘ Sum.inl ∧ m' (.inr 0) = ∑ i ∈ range (2 ^ k), m (.inr i) := by
  induction k generalizing ℓ m with
  | zero =>
    have h0 : Coop.strides (2 ^ 0 / 2) = [] := Coop.strides_zero
    rw [h0] at h
    obtain ⟨rfl, rfl⟩ := h
    simp
  | succ k ih =>
    have hhalf : 2 ^ (k + 1) / 2 = 2 ^ k := by rw [pow_succ, Nat.mul_div_cancel _ (by decide)]
    rw [pow_succ] at hk hsum
    rw [hhalf, Coop.strides_two_pow] at h
    obtain ⟨ℓ₁, m₁, hfirst, hrest⟩ := h
    obtain ⟨hkeep, hround⟩ := reduce_round
      (fun tid htid => hsum tid (by omega)) hfirst
    obtain ⟨hkeep', htotal⟩ := ih (by omega) (fun tid htid => (hround tid htid).1) hrest
    refine ⟨hkeep'.trans hkeep, ?_⟩
    have hcells : ∀ i ∈ range (2 ^ k), m₁ (.inr i) = m (.inr i) + m (.inr (i + 2 ^ k)) := by
      intro i hi
      have hi := mem_range.1 hi
      exact (hround ⟨i, by omega⟩ hi).2
    rw [htotal, sum_congr rfl hcells, sum_add_distrib, pow_succ, Nat.mul_two, sum_range_add]
    simp only [Nat.add_comm]

variable [Glsl K]

variable (n eps) in
omit [DecidableEq S] [Glsl K] in
theorem normOffsets_eq {c : ℕ} (hc : c < 2 ^ 32) :
    (normBoffset (rmsNormMulPc n eps) 0 0 0 + c.toUInt32).toNat = c ∧
      (normDoffset (rmsNormMulPc n eps) 0 0 0 1 1 + c.toUInt32).toNat = c := by
  have hone : (1 : ℕ).toUInt32 = 1 := rfl
  have hzero : fastmod 0 1 = 0 := rfl
  have hmod : fastmod 0 n.toUInt32 = 0 := by
    rw [← UInt32.toNat_inj, fastmod_toNat]
    exact Nat.zero_mod _
  simp [normBoffset, normDoffset, src1Idx, getBoffset, getDoffset, rmsNormMulPc, binaryHeadPc, hone,
    hzero, hmod, toNat_toUInt32 hc]

/-- What an invocation does with a column. -/
def scaleColumn (a b : Gemma4.Binding S K) (out : S) (n c : ℕ) :
    List (Action (NormLocal K) (Addr S ⊕ ℕ) K) :=
  if c < n then
    [load a c fun ℓ v => { ℓ with xi := v }, load b c fun ℓ v => { ℓ with b := v },
      .store (.inl (out, c)) fun ℓ => ℓ.scale * ℓ.xi * ℓ.b]
  else []

omit [DecidableEq S] in
theorem writePhase_eq (hn : n < 2 ^ 32) (hturns : turns * blockSize ≤ 2 ^ 32)
    (tid : Fin blockSize) : writePhase (rmsNormMulPc n eps) a b out 0 0 0 turns 1 1 tid =
      .load (.inr 0) (fun ℓ v => { ℓ with sum := v }) ::
        .compute (fun ℓ => { ℓ with scale := Glsl.inversesqrt (ℓ.sum / n + eps) }) ::
        (columnIds turns tid).flatMap (scaleColumn a b out n) := by
  obtain ⟨hcols, hlt⟩ := columns_eq tid.isLt hturns
  have hne : (rmsNormMulPc n eps).ne00 = n := rfl
  have hne' : (rmsNormMulPc n eps).ne10 = n := rfl
  have hparam : (rmsNormMulPc n eps).param1 = eps := rfl
  have hirrefl : ¬ n.toUInt32 > n.toUInt32 := UInt32.lt_irrefl _
  simp only [writePhase, hne, hne', hparam, if_neg hirrefl, toNat_toUInt32 hn, hcols,
    List.flatMap_map]
  congr 2
  refine List.flatMap_congr fun c hc => ?_
  have hge : c.toUInt32 ≥ n.toUInt32 ↔ ¬ c < n := by
    rw [ge_iff_le, UInt32.le_iff_toNat_le, toNat_toUInt32 (hlt c hc), toNat_toUInt32 hn, Nat.not_lt]
  obtain ⟨hb, hd⟩ := normOffsets_eq n eps (hlt c hc)
  simp only [hge, ite_not, normAoffset_eq (hlt c hc), hb, hd, scaleColumn]

omit [DecidableEq S] [Glsl K] in
theorem within_scaleColumn {c : ℕ} {act : Action (NormLocal K) (Addr S ⊕ ℕ) K}
    (hact : act ∈ scaleColumn a b out n c) :
    (∀ x ∈ act.reads, ∃ s ∈ a.slots ++ b.slots, x = .inl (s, c)) ∧
      ∀ x ∈ act.writes, x = .inl (out, c) ∧ c < n := by
  unfold scaleColumn at hact
  split_ifs at hact with hc
  · simp only [List.mem_cons, List.not_mem_nil, or_false] at hact
    obtain rfl | rfl | rfl := hact
    · refine ⟨fun x hx => ?_, by simp⟩
      obtain ⟨s, hs, rfl⟩ := mem_reads_load hx
      exact ⟨s, List.mem_append_left _ hs, rfl⟩
    · refine ⟨fun x hx => ?_, by simp⟩
      obtain ⟨s, hs, rfl⟩ := mem_reads_load hx
      exact ⟨s, List.mem_append_right _ hs, rfl⟩
    · exact ⟨fun x hx => absurd hx (Set.notMem_empty x), fun x hx => ⟨hx, hc⟩⟩
  · cases hact

omit [Glsl K] in
theorem alone_scaleColumns (hout : out ∉ a.slots ++ b.slots) {cols : List ℕ} (hcols : cols.Nodup)
    (ℓ : NormLocal K) (m : Addr S ⊕ ℕ → K) {c : ℕ} (hc : c ∈ cols) (hn : c < n) :
    (alone (cols.flatMap (scaleColumn a b out n)) (ℓ, m)).2 (.inl (out, c)) =
      ℓ.scale * view a (m ∘ Sum.inl) c * view b (m ∘ Sum.inl) c := by
  induction cols generalizing ℓ m with
  | nil => cases hc
  | cons c' cols ih =>
    obtain ⟨hc', hcols⟩ := List.nodup_cons.1 hcols
    rw [List.flatMap_cons, alone_append]
    by_cases hlt : c' < n
    · obtain ⟨v, hv⟩ : ∃ v, alone (scaleColumn a b out n c') (ℓ, m) =
          ({ ℓ with xi := view a (m ∘ Sum.inl) c', b := v }, Function.update m (.inl (out, c'))
            (ℓ.scale * view a (m ∘ Sum.inl) c' * v)) ∧ v = view b (m ∘ Sum.inl) c' :=
        ⟨_, by simp only [scaleColumn, if_pos hlt, alone_cons, alone_nil, exec_load]; rfl, rfl⟩
      obtain ⟨hstep, rfl⟩ := hv
      rw [hstep]
      obtain rfl | hmem := List.mem_cons.1 hc
      · -- its own column: the others store elsewhere
        have hwithin : ∀ act ∈ cols.flatMap (scaleColumn a b out n),
            act.Within Set.univ {x : Addr S ⊕ ℕ | ∃ c' ∈ cols, x = .inl (out, c')} := by
          intro act hact
          obtain ⟨c', hc', hact⟩ := List.mem_flatMap.1 hact
          refine within_of_subset (Set.subset_univ _) fun x hx => ?_
          exact ⟨c', hc', ((within_scaleColumn hact).2 x hx).1⟩
        have hfree : Sum.inl (out, c) ∉ {x : Addr S ⊕ ℕ | ∃ c' ∈ cols, x = .inl (out, c')} := by
          rintro ⟨c', hmem, heq⟩
          obtain rfl := (Prod.mk.inj (Sum.inl.inj heq)).2
          exact hc' hmem
        exact (alone_frame hwithin _ hfree).trans (Function.update_self ..)
      · rw [ih hcols _ _ hmem]
        have hsame : ∀ s ∈ a.slots ++ b.slots, ∀ v,
            (Function.update m (.inl (out, c')) v ∘ Sum.inl) (s, c) = (m ∘ Sum.inl) (s, c) := by
          intro s hs v
          refine Function.update_of_ne (fun heq => ?_) ..
          exact hout ((Prod.mk.inj (Sum.inl.inj heq)).1 ▸ hs)
        rw [view_congr fun s hs => hsame s (List.mem_append_left _ hs) _,
          view_congr fun s hs => hsame s (List.mem_append_right _ hs) _]
    · have hskip : scaleColumn a b out n c' = [] := if_neg hlt
      have hne : c ≠ c' := fun h => hlt (h ▸ hn)
      rw [hskip, alone_nil]
      exact ih hcols _ _ ((List.mem_cons.1 hc).resolve_left hne)

omit [DecidableEq S] in
theorem within_writePhase (hn : n < 2 ^ 32) (hturns : turns * blockSize ≤ 2 ^ 32)
    {tid : Fin blockSize} {act : Action (NormLocal K) (Addr S ⊕ ℕ) K}
    (hact : act ∈ writePhase (rmsNormMulPc n eps) a b out 0 0 0 turns 1 1 tid) :
    (∀ x ∈ act.reads, x = .inr 0 ∨ ∃ s ∈ a.slots ++ b.slots, ∃ i, x = .inl (s, i)) ∧
      ∀ x ∈ act.writes, ∃ c < n, c % blockSize = tid ∧ x = .inl (out, c) := by
  rw [writePhase_eq hn hturns, List.mem_cons, List.mem_cons] at hact
  obtain rfl | rfl | hact := hact
  · exact ⟨fun x hx => .inl hx, by simp [writes]⟩
  · exact ⟨by simp [reads], by simp [writes]⟩
  · obtain ⟨c, hc, hact⟩ := List.mem_flatMap.1 hact
    obtain ⟨hreads, hwrites⟩ := within_scaleColumn hact
    refine ⟨fun x hx => .inr ?_, fun x hx => ?_⟩
    · obtain ⟨s, hs, rfl⟩ := hreads x hx
      exact ⟨s, hs, c, rfl⟩
    · obtain ⟨rfl, hlt⟩ := hwrites x hx
      exact ⟨c, hlt, mod_columnIds tid.isLt hc, rfl⟩

/-- **The last phase** stores the elements, scaled by the sum in the first cell. -/
theorem write_step (hn : n < 2 ^ 32) (hturns : turns * blockSize ≤ 2 ^ 32)
    (hcover : n ≤ turns * blockSize) (hout : out ∉ a.slots ++ b.slots)
    {ℓ ℓ' : Fin blockSize → NormLocal K} {m m' : Addr S ⊕ ℕ → K}
    (h : Interleave (writePhase (rmsNormMulPc n eps) a b out 0 0 0 turns 1 1) ℓ m ℓ' m')
    {c : ℕ} (hc : c < n) : m' (.inl (out, c)) = Glsl.inversesqrt (m (.inr 0) / n + eps) *
      view a (m ∘ Sum.inl) c * view b (m ∘ Sum.inl) c := by
  have hrace : RaceFree (writePhase (rmsNormMulPc n eps) a b out 0 0 0 turns 1 1)
      (fun _ => {x | x = .inr 0 ∨ ∃ s ∈ a.slots ++ b.slots, ∃ i, x = .inl (s, i)})
      (fun tid => {x : Addr S ⊕ ℕ | ∃ c < n, c % blockSize = tid ∧ x = .inl (out, c)}) := by
    constructor
    · intro tid act hact
      obtain ⟨hreads, hwrites⟩ := within_writePhase hn hturns hact
      exact within_of_subset hreads hwrites
    · rintro tid tid' hne x ⟨c, -, hmod, rfl⟩ ((heq | ⟨s, hs, i, heq⟩) | ⟨c', -, hmod', heq⟩)
      · cases heq
      · exact hout ((Prod.mk.inj (Sum.inl.inj heq)).1 ▸ hs)
      · obtain rfl := (Prod.mk.inj (Sum.inl.inj heq)).2
        exact hne (Fin.ext (hmod.symm.trans hmod'))
  have htid : c % blockSize < blockSize := Nat.mod_lt c (by decide)
  obtain ⟨-, hm, -⟩ := h.eq_alone hrace
  have hcell := hm ⟨c % blockSize, htid⟩ (.inl (out, c)) (.inr ⟨c, hc, rfl, rfl⟩)
  rw [hcell, writePhase_eq hn hturns, alone_cons, alone_cons]
  exact alone_scaleColumns hout (nodup_columnIds turns _) _ _
    (mem_columnIds (hc.trans_le hcover)) hc

omit [DecidableEq S] [Glsl K] in
/-- **Every column is visited once.** -/
theorem sum_columns (hcover : n ≤ turns * blockSize) (x : ℕ → K) :
    ∑ tid ∈ range blockSize, ((columnIds turns tid).map (square n x)).sum =
      ((List.range n).map fun c => x c * x c).sum := by
  have hthread : ∀ tid, ((columnIds turns tid).map (square n x)).sum =
      ∑ idx ∈ range turns, square n x (idx * blockSize + tid) := by
    intro tid
    rw [columnIds, List.map_map]
    change ∑ idx ∈ range turns, square n x (tid + idx * blockSize) = _
    exact sum_congr rfl fun idx _ => congrArg (square n x) (Nat.add_comm _ _)
  calc ∑ tid ∈ range blockSize, ((columnIds turns tid).map (square n x)).sum
      = ∑ idx ∈ range turns, ∑ tid ∈ range blockSize, square n x (idx * blockSize + tid) := by
        rw [sum_congr rfl fun tid _ => hthread tid, sum_comm]
    _ = ∑ c ∈ range (turns * blockSize), square n x c := (sum_range_mul _ _ _).symm
    _ = ∑ c ∈ range n, square n x c := by
        refine (sum_subset (range_subset_range.2 hcover) fun c _ hc => ?_).symm
        exact if_neg fun h => hc (mem_range.2 h)
    _ = ((List.range n).map fun c => x c * x c).sum :=
        sum_congr rfl fun c hc => if_pos (mem_range.1 hc)

/-- What the workgroup leaves in an element. -/
def normValue (a b : Gemma4.Binding S K) (n : ℕ) (eps : K) (m : Addr S → K) (c : ℕ) : K :=
  Glsl.inversesqrt (((List.range n).map fun c => view a m c * view a m c).sum / n + eps) *
    view a m c * view b m c

omit [DecidableEq S] in
theorem within_normPhases (hn : n + 511 < 2 ^ 32) {shared : ℕ → K}
    {ph : Fin blockSize → List (Action (NormLocal K) (Addr S ⊕ ℕ) K)}
    (hph : ph ∈ (normWorkgroup (rmsNormMulPc n eps) a b out shared).phases) {tid : Fin blockSize}
    {act : Action (NormLocal K) (Addr S ⊕ ℕ) K} (hact : act ∈ ph tid) :
    (∀ x : Addr S, .inl x ∈ act.reads → ∃ s ∈ a.slots ++ b.slots, ∃ i, x = (s, i)) ∧
      ∀ x : Addr S, .inl x ∈ act.writes → ∃ c < n, x = (out, c) := by
  obtain rfl | hpos := Nat.eq_zero_or_pos n
  · have hnone : numIters (rmsNormMulPc 0 eps).ne00.toUInt32 = none := by
      have hne : (rmsNormMulPc 0 eps).ne00 = 0 := rfl
      rw [hne]
      decide
    rw [normWorkgroup, hnone] at hph
    cases hph
  · obtain ⟨turns, hturns, -, hwrap⟩ := numIters_spec hpos hn
    have hlist : (normWorkgroup (rmsNormMulPc n eps) a b out shared).phases =
        normPhases (rmsNormMulPc n eps) a b out 0 0 0 turns 1 1 := by
      have hne : (rmsNormMulPc n eps).ne00 = n := rfl
      rw [normWorkgroup, hne, hturns]
    rw [hlist, normPhases, List.cons_append, List.mem_cons, List.mem_append, List.mem_map,
      List.mem_singleton] at hph
    obtain rfl | ⟨stride, -, rfl⟩ | rfl := hph
    · obtain ⟨hreads, hwrites⟩ := within_sumPhase hact
      refine ⟨fun x hx => ?_, fun x hx => ?_⟩
      · obtain ⟨s, hs, i, heq⟩ := hreads _ hx
        exact ⟨s, List.mem_append_left _ hs, i, Sum.inl.inj heq⟩
      · cases hwrites _ hx
    · unfold reducePhase at hact
      split_ifs at hact
      · simp only [List.mem_cons, List.not_mem_nil, or_false] at hact
        obtain rfl | rfl := hact
        · simp [reads, writes]
        · simp [reads, writes]
      · cases hact
    · obtain ⟨hreads, hwrites⟩ := within_writePhase (by omega) hwrap hact
      refine ⟨fun x hx => ?_, fun x hx => ?_⟩
      · obtain heq | ⟨s, hs, i, heq⟩ := hreads _ hx
        · cases heq
        · exact ⟨s, hs, i, Sum.inl.inj heq⟩
      · obtain ⟨c, hc, -, heq⟩ := hwrites _ hx
        exact ⟨c, hc, Sum.inl.inj heq⟩

/-- **The workgroup computes the weighted norm of its row.** -/
theorem rmsNorm_computes {L : Type} (hn : n + 511 < 2 ^ 32) (hout : out ∉ a.slots ++ b.slots)
    (shared : ℕ → ℕ → K) {f : Workgroup (Fin blockSize) (NormLocal K) (Addr S) ℕ K → L}
    (hf : Function.Injective f) :
    Computes 1
      (fun x => ⟨(normWorkgroup (rmsNormMulPc n eps) a b out (shared x)).proc.via f hf, false⟩)
      (a.slots ++ b.slots) out n (fun _ => 0) (normValue a b n eps) where
  barrier _ := rfl
  loads := by
    rintro x - a' ⟨ph, hph, tid, act, hact, ha⟩
    obtain ⟨s, hs, i, heq⟩ := (within_normPhases hn hph hact).1 a' ha
    rw [heq]
    exact hs
  stores := by
    rintro x hx a' ⟨ph, hph, tid, act, hact, ha⟩
    obtain ⟨c, hc, rfl⟩ := (within_normPhases hn hph hact).2 a' ha
    exact ⟨rfl, hc, (Nat.lt_one_iff.1 hx).symm⟩
  owner_lt _ _ := Nat.one_pos
  exists_runs x m := by
    obtain ⟨m', hm'⟩ := (normWorkgroup (rmsNormMulPc n eps) a b out (shared x)).exists_runs m
    exact ⟨m', (Proc.runs_via hf).2 hm'⟩
  runs := by
    intro i hi m m' hrun
    obtain ⟨ℓ', sh', hphases⟩ := Workgroup.runs_iff.1 ((Proc.runs_via hf).1 hrun)
    obtain ⟨turns, hturns, hcover, hwrap⟩ := numIters_spec (Nat.zero_lt_of_lt hi) hn
    have hlist : (normWorkgroup (rmsNormMulPc n eps) a b out (shared 0)).phases =
        normPhases (rmsNormMulPc n eps) a b out 0 0 0 turns 1 1 := by
      have hne : (rmsNormMulPc n eps).ne00 = n := rfl
      rw [normWorkgroup, hne, hturns]
    rw [hlist, normPhases] at hphases
    obtain ⟨ℓ₁, m₁, hsum, hrest⟩ := hphases
    obtain ⟨ℓ₂, m₂, hreduce, ℓ₃, m₃, hwrite, rfl, rfl⟩ := runPhases_append.1 hrest
    have hn32 : n < 2 ^ 32 := by omega
    obtain ⟨hkeep₁, hcells⟩ := sum_step hn32 hwrap hsum
    obtain ⟨hkeep₂, htotal⟩ := reduce_run 9 le_rfl (fun tid _ => (hcells tid).1) hreduce
    have hkeep : m₂ ∘ Sum.inl = m := (hkeep₂.trans hkeep₁).trans (Sum.elim_comp_inl m _)
    have hstore := write_step hn32 hwrap hcover hout hwrite hi
    have hrow : m₂ (.inr 0) = ((List.range n).map fun c => view a m c * view a m c).sum := by
      rw [htotal, ← sum_columns hcover]
      refine sum_congr rfl fun tid htid => ?_
      rw [(hcells ⟨tid, mem_range.1 htid⟩).2, Sum.elim_comp_inl]
    rw [hkeep, hrow] at hstore
    exact hstore

end

end Shader

end VllmVulkan
