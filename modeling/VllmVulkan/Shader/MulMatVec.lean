import VllmVulkan.Linear.Matvec
import VllmVulkan.Shader.Launch

/-!
# The matvec shader on the device's memory

The loads and stores of `mul_mat_vec.comp`, one by one: an invocation loads the operands of every
turn from the buffers bound to it, the partial sums go through the shared memory, and the first
invocation stores the rows of its workgroup.

* `iterActions`, `accumulateActions` : the actions of the loops;
* `outputPhases`, `matvecWorkgroup` : a workgroup;
* `forLoop_rel`, `accumulateActions_spec` : **the actions accumulate what the loops accumulate**;
* `mulMatVec_computes` : **the workgroups compute the product**.
-/

namespace VllmVulkan

namespace Shader

open Gemma4 Overlap VllmVulkan.Action Finset
open Matvec (Spec Params kPerIter quantK quantR yOffset unrolledIters getOffsets cells)

variable {S K : Type}

/-- The operands of a turn. -/
structure Operands (K : Type) where
  b0 : K
  b1 : K
  v0 : K
  v1 : K

/-- The variables of an invocation. -/
abbrev MatvecLocal (K : Type) := Matvec.Local K × Operands K

/-- A cell of `tmpsh`: a column, a row and an invocation. -/
abbrev Cell := (ℕ × ℕ) × ℕ

section

variable [Field K] (s : Spec) (p : Params) (w x : Gemma4.Binding S K) (out : S) (o : Matvec.Offsets)
  (firstRow numRows : ℕ)

/-- `b0`, and `b1` unless it is out of bounds. -/
def loadOperands (bi : ℕ) (oob : Bool) : List (Action (MatvecLocal K) (Addr S ⊕ Cell) K) :=
  [load x bi fun ℓ v => (ℓ.1, { ℓ.2 with b0 := v }),
    if !oob then load x (bi + yOffset) fun ℓ v => (ℓ.1, { ℓ.2 with b1 := v })
    else .compute fun ℓ => (ℓ.1, { ℓ.2 with b1 := 0 })]

/-- `temp[j][n] = fma(v.x, b0, temp[j][n]); if (!OOB) temp[j][n] = fma(v.y, b1, temp[j][n]);` -/
def addProducts (oob : Bool) (j n : ℕ) (ℓ : MatvecLocal K) : MatvecLocal K :=
  let acc := ℓ.2.v0 * ℓ.2.b0 + ℓ.1.temp j n
  let sum := if !oob then ℓ.2.v1 * ℓ.2.b1 + acc else acc
  let temp := Function.update ℓ.1.temp j (Function.update (ℓ.1.temp j) n sum)
  ({ ℓ.1 with temp := temp }, ℓ.2)

/-- One row of a turn. -/
def rowActions (col : ℕ) (oob : Bool) (j n : ℕ) :
    List (Action (MatvecLocal K) (Addr S ⊕ Cell) K) :=
  let ibi := firstRow * p.ncols + n * p.ncols
  let ib := (ibi + col) / quantK
  -- `dequantize`
  [load w (o.a + ib) fun ℓ v => (ℓ.1, { ℓ.2 with v0 := v }),
    load w (o.a + ib + 1) fun ℓ v => (ℓ.1, { ℓ.2 with v1 := v }),
    .compute (addProducts oob j n)]

/-- `iter`. -/
def iterActions (tid i : ℕ) (lastiter : Bool) :
    List (Action (MatvecLocal K) (Addr S ⊕ Cell) K) :=
  (List.range s.numCols).flatMap fun j =>
    let col := i * s.blockSize + kPerIter * tid
    let iqs := (col % quantK) / quantR
    let iybs := col - col % quantK
    let oob := lastiter && decide (iybs + iqs + yOffset ≥ p.ncols)
    loadOperands x (j * p.batchStrideB + o.b + iybs + iqs) oob ++
      (List.range numRows).flatMap (rowActions p w o firstRow col oob j)

/-- The three loops of `compute_outputs`. -/
def accumulateActions (tid : ℕ) : Option (List (Action (MatvecLocal K) (Addr S ⊕ Cell) K)) := do
  let step (lastiter : Bool) (i : ℕ) (as : List (Action (MatvecLocal K) (Addr S ⊕ Cell) K)) :=
    as ++ iterActions s p w x o firstRow numRows tid (i * kPerIter) lastiter
  let unrolled (count i : ℕ) (as : List (Action (MatvecLocal K) (Addr S ⊕ Cell) K)) :=
    (List.range' i count).foldl (fun as i => step false i as) as
  let n := Matvec.numIters s p tid
  let (i, as) ← forLoop (unrolledIters p.ncols n 4) 4 (unrolled 4) 0
    [.compute fun ℓ => ({ ℓ.1 with temp := fun _ _ => 0 }, ℓ.2)]
  let (i, as) ← forLoop (unrolledIters p.ncols n 2) 2 (unrolled 2) i as
  let (_, as) ← forLoop n 1 (step true) i as
  return as

theorem exists_accumulateActions (tid : ℕ) :
    (accumulateActions s p w x o firstRow numRows tid).isSome := by
  simp only [accumulateActions, forLoop_eq (show 0 < 4 by decide),
    forLoop_eq (show 0 < 2 by decide), forLoop_eq Nat.one_pos, Option.bind_eq_bind,
    Option.bind_some]
  rfl

/-- The loops of an invocation, and its partial sums on the way to the shared memory. -/
def partialActions (tid : Fin s.blockSize) : List (Action (MatvecLocal K) (Addr S ⊕ Cell) K) :=
  (accumulateActions s p w x o firstRow numRows tid).get
      (exists_accumulateActions s p w x o firstRow numRows tid) ++
    ((cells s numRows).map fun c => .store (c, tid.val) fun ℓ => ℓ.temp c.1 c.2).map
      Action.onShared

/-- The first invocation stores the results; the engine passes no biases. -/
def storeActions (tid : Fin s.blockSize) : List (Action (MatvecLocal K) (Addr S ⊕ Cell) K) :=
  if tid.val = 0 then
    (cells s numRows).flatMap fun c =>
      [.load (.inr (c, 0)) fun ℓ v => ({ ℓ.1 with lhs := v }, ℓ.2),
        .store (.inl (out, c.1 * p.batchStrideD + o.d + firstRow + c.2)) fun ℓ => ℓ.1.lhs]
  else []

/-- `compute_outputs`, cut at its barriers. -/
def outputPhases : List (Fin s.blockSize → List (Action (MatvecLocal K) (Addr S ⊕ Cell) K)) :=
  partialActions s p w x o firstRow numRows ::
    ((Coop.strides (s.blockSize / 2)).map (Matvec.reducePhase s numRows)).map
      (fun ph tid => (ph tid).map Action.onShared) ++
      [storeActions s p out o firstRow numRows]

/-- The workgroup `(x, y, z)` of `main`; its shared memory holds `shared` at the start. -/
def matvecWorkgroup (numWorkGroupsX gx gy gz : ℕ) (shared : Cell → K) :
    Workgroup (Fin s.blockSize) (MatvecLocal K) (Addr S) Cell K where
  locals _ := (⟨fun _ _ => 0, 0, 0, []⟩, ⟨0, 0, 0, 0⟩)
  shared := shared
  phases :=
    let firstRow := s.numRows * (gx + numWorkGroupsX * gz)
    let o := getOffsets p gy
    if firstRow + s.numRows ≤ p.strideD then outputPhases s p w x out o firstRow s.numRows
    else if firstRow ≥ p.strideD then []
    else outputPhases s p w x out o firstRow (p.strideD - firstRow)

end

/-! ### The loops -/

theorem forLoop_rel {α β : Type} {R : α → β → Prop} {body : ℕ → α → α} {body' : ℕ → β → β}
    (hbody : ∀ i s t, R s t → R (body i s) (body' i t)) {step : ℕ} (hstep : 0 < step)
    (limit i : ℕ) {s : α} {t : β} (h : R s t) :
    ∃ j s' t', forLoop limit step body i s = some (j, s') ∧
      forLoop limit step body' i t = some (j, t') ∧ R s' t' := by
  have hfold : ∀ (is : List ℕ) (s : α) (t : β), R s t →
      R (is.foldl (fun s i => body i s) s) (is.foldl (fun t i => body' i t) t) := by
    intro is
    induction is with
    | nil => exact fun s t h => h
    | cons i is ih => exact fun s t h => ih _ _ (hbody i s t h)
  exact ⟨_, _, _, forLoop_eq hstep limit body i s, forLoop_eq hstep limit body' i t, hfold _ _ _ h⟩

section

variable [Field K] [DecidableEq S] {s : Spec} {p : Params} {w x : Gemma4.Binding S K} {out : S}
  {o : Matvec.Offsets} {firstRow numRows : ℕ}

/-- The actions load from the buffers bound, and leave `temp`. -/
structure Accumulates (w x : Gemma4.Binding S K) (ℓ : MatvecLocal K) (m : Addr S ⊕ Cell → K)
    (as : List (Action (MatvecLocal K) (Addr S ⊕ Cell) K)) (temp : ℕ → ℕ → K) : Prop where
  reads : ∀ act ∈ as, ∀ y ∈ act.reads, ∃ b ∈ w.slots ++ x.slots, ∃ i, y = .inl (b, i)
  writes : ∀ act ∈ as, act.writes = ∅
  memory : (alone as (ℓ, m)).2 = m
  temp : (alone as (ℓ, m)).1.1.temp = temp

theorem alone_rowActions (col : ℕ) (oob : Bool) (j n : ℕ) (ℓ : MatvecLocal K)
    (m : Addr S ⊕ Cell → K) :
    let v := Matvec.dequantize (view w (m ∘ Sum.inl))
      ((firstRow * p.ncols + n * p.ncols + col) / quantK) o.a
    alone (rowActions p w o firstRow col oob j n) (ℓ, m) =
      (addProducts oob j n (ℓ.1, { ℓ.2 with v0 := v.1, v1 := v.2 }), m) := by
  simp only [rowActions, alone_cons, alone_nil, exec_load]
  rfl

variable (p w o firstRow) in
theorem alone_rows (col : ℕ) (oob : Bool) (j : ℕ) {rows : List ℕ} (hrows : rows.Nodup)
    (ℓ : MatvecLocal K) (m : Addr S ⊕ Cell → K) :
    let r := alone (rows.flatMap (rowActions p w o firstRow col oob j)) (ℓ, m)
    r.2 = m ∧ ∀ j' n, r.1.1.temp j' n = if j' = j ∧ n ∈ rows then
      let v := Matvec.dequantize (view w (m ∘ Sum.inl))
        ((firstRow * p.ncols + n * p.ncols + col) / quantK) o.a
      let acc := v.1 * ℓ.2.b0 + ℓ.1.temp j n
      if !oob then v.2 * ℓ.2.b1 + acc else acc
    else ℓ.1.temp j' n := by
  induction rows generalizing ℓ with
  | nil => simp
  | cons n₀ rows ih =>
    obtain ⟨hn₀, hrows⟩ := List.nodup_cons.1 hrows
    rw [List.flatMap_cons, alone_append, alone_rowActions]
    obtain ⟨hmem, htemp⟩ := ih hrows _
    refine ⟨hmem, fun j' n => (htemp j' n).trans ?_⟩
    by_cases hj : j' = j
    · subst hj
      by_cases hn : n = n₀
      · subst hn
        simp [hn₀, addProducts]
      · simp [hn, addProducts]
    · simp [hj, addProducts]

theorem alone_loadOperands (bi : ℕ) (oob : Bool) (ℓ : MatvecLocal K) (m : Addr S ⊕ Cell → K) :
    alone (loadOperands x bi oob) (ℓ, m) =
      ((ℓ.1, { ℓ.2 with
        b0 := view x (m ∘ Sum.inl) bi
        b1 := if !oob then view x (m ∘ Sum.inl) (bi + yOffset) else 0 }), m) := by
  cases oob with
  | false => simp [loadOperands]
  | true =>
    rw [loadOperands, alone_cons, exec_load]
    rfl

variable (p w x o firstRow numRows) in
/-- **A turn** adds what `iter` adds. -/
theorem alone_iterActions (hcols : s.numCols = 1) (tid i : ℕ) (lastiter : Bool)
    (ℓ : MatvecLocal K) (m : Addr S ⊕ Cell → K) :
    let r := alone (iterActions s p w x o firstRow numRows tid i lastiter) (ℓ, m)
    r.2 = m ∧ r.1.1.temp = Matvec.iter s p (view w (m ∘ Sum.inl)) (view x (m ∘ Sum.inl)) o firstRow
      numRows tid i lastiter ℓ.1.temp := by
  dsimp only
  rw [iterActions, hcols, List.range_one, List.flatMap_singleton]
  dsimp only
  rw [alone_append, alone_loadOperands]
  obtain ⟨hmem, htemp⟩ := alone_rows p w o firstRow
    (i * s.blockSize + kPerIter * tid) (lastiter && decide ((i * s.blockSize + kPerIter * tid -
      (i * s.blockSize + kPerIter * tid) % quantK) + ((i * s.blockSize + kPerIter * tid) % quantK) /
        quantR + yOffset ≥ p.ncols)) 0 (List.nodup_range (n := numRows)) _ m
  refine ⟨hmem, ?_⟩
  funext j n
  refine (htemp j n).trans ?_
  have hzero : j < s.numCols ∧ n < numRows ↔ j = 0 ∧ n ∈ List.range numRows := by
    rw [hcols, Nat.lt_one_iff, List.mem_range]
  simp only [Matvec.iter, hzero]
  by_cases hin : j = 0 ∧ n ∈ List.range numRows
  · rw [if_pos hin, if_pos hin]
    obtain ⟨rfl, -⟩ := hin
    rfl
  · rw [if_neg hin, if_neg hin]

omit [DecidableEq S] in
theorem within_iterActions {tid i : ℕ} {lastiter : Bool}
    {act : Action (MatvecLocal K) (Addr S ⊕ Cell) K}
    (hact : act ∈ iterActions s p w x o firstRow numRows tid i lastiter) :
    (∀ y ∈ act.reads, ∃ b ∈ w.slots ++ x.slots, ∃ i, y = .inl (b, i)) ∧ act.writes = ∅ := by
  obtain ⟨j, -, hact⟩ := List.mem_flatMap.1 hact
  dsimp only at hact
  obtain hact | hact := List.mem_append.1 hact
  · simp only [loadOperands, List.mem_cons, List.not_mem_nil, or_false] at hact
    obtain rfl | rfl := hact
    · refine ⟨fun y hy => ?_, writes_load _ _ _⟩
      obtain ⟨b, hb, rfl⟩ := mem_reads_load hy
      exact ⟨b, List.mem_append_right _ hb, _, rfl⟩
    · split_ifs
      · refine ⟨fun y hy => ?_, writes_load _ _ _⟩
        obtain ⟨b, hb, rfl⟩ := mem_reads_load hy
        exact ⟨b, List.mem_append_right _ hb, _, rfl⟩
      · exact ⟨fun y hy => absurd hy (Set.notMem_empty y), rfl⟩
  · obtain ⟨n, -, hact⟩ := List.mem_flatMap.1 hact
    simp only [rowActions, List.mem_cons, List.not_mem_nil, or_false] at hact
    obtain rfl | rfl | rfl := hact
    · refine ⟨fun y hy => ?_, writes_load _ _ _⟩
      obtain ⟨b, hb, rfl⟩ := mem_reads_load hy
      exact ⟨b, List.mem_append_left _ hb, _, rfl⟩
    · refine ⟨fun y hy => ?_, writes_load _ _ _⟩
      obtain ⟨b, hb, rfl⟩ := mem_reads_load hy
      exact ⟨b, List.mem_append_left _ hb, _, rfl⟩
    · exact ⟨fun y hy => absurd hy (Set.notMem_empty y), rfl⟩

theorem Accumulates.iter (hcols : s.numCols = 1) (tid i : ℕ) (lastiter : Bool) {ℓ : MatvecLocal K}
    {m : Addr S ⊕ Cell → K} {as : List (Action (MatvecLocal K) (Addr S ⊕ Cell) K)}
    {temp : ℕ → ℕ → K} (h : Accumulates w x ℓ m as temp) :
    Accumulates w x ℓ m (as ++ iterActions s p w x o firstRow numRows tid i lastiter)
      (Matvec.iter s p (view w (m ∘ Sum.inl)) (view x (m ∘ Sum.inl)) o firstRow numRows tid i
        lastiter temp) := by
  have hstep := alone_iterActions p w x o firstRow numRows hcols tid i lastiter
    (alone as (ℓ, m)).1 m
  have hsplit : alone (as ++ iterActions s p w x o firstRow numRows tid i lastiter) (ℓ, m) =
      alone (iterActions s p w x o firstRow numRows tid i lastiter) ((alone as (ℓ, m)).1, m) := by
    rw [alone_append]
    exact congrArg _ (Prod.ext rfl h.memory)
  refine ⟨fun act hact => ?_, fun act hact => ?_, ?_, ?_⟩
  · obtain hact | hact := List.mem_append.1 hact
    · exact h.reads act hact
    · exact (within_iterActions hact).1
  · obtain hact | hact := List.mem_append.1 hact
    · exact h.writes act hact
    · exact (within_iterActions hact).2
  · rw [hsplit]
    exact hstep.1
  · rw [hsplit, ← h.temp]
    exact hstep.2

variable (p w x o firstRow numRows) in
/-- **The actions of the loops accumulate what the loops accumulate.** -/
theorem accumulateActions_spec (hcols : s.numCols = 1) (tid : ℕ) (ℓ : MatvecLocal K)
    (m : Addr S ⊕ Cell → K) :
    ∃ as temp, accumulateActions s p w x o firstRow numRows tid = some as ∧
      Matvec.accumulate s p (view w (m ∘ Sum.inl)) (view x (m ∘ Sum.inl)) o firstRow numRows tid =
        some temp ∧ Accumulates w x ℓ m as temp := by
  have hstart : Accumulates w x ℓ m [.compute fun ℓ => ({ ℓ.1 with temp := fun _ _ => 0 }, ℓ.2)]
      fun _ _ => 0 := by
    refine ⟨fun act hact y hy => ?_, fun act hact => ?_, rfl, rfl⟩
    · obtain rfl := List.mem_singleton.1 hact
      cases hy
    · obtain rfl := List.mem_singleton.1 hact
      rfl
  have hturn : ∀ (lastiter : Bool) (i : ℕ) as temp, Accumulates w x ℓ m as temp →
      Accumulates w x ℓ m
        (as ++ iterActions s p w x o firstRow numRows tid (i * kPerIter) lastiter)
        (Matvec.iter s p (view w (m ∘ Sum.inl)) (view x (m ∘ Sum.inl)) o firstRow numRows tid
          (i * kPerIter) lastiter temp) :=
    fun lastiter i as temp h => h.iter hcols tid (i * kPerIter) lastiter
  have hunrolled : ∀ count i as temp, Accumulates w x ℓ m as temp →
      Accumulates w x ℓ m
        ((List.range' i count).foldl (fun as i =>
          as ++ iterActions s p w x o firstRow numRows tid (i * kPerIter) false) as)
        ((List.range' i count).foldl (fun temp i =>
          Matvec.iter s p (view w (m ∘ Sum.inl)) (view x (m ∘ Sum.inl)) o firstRow numRows tid
            (i * kPerIter) false temp) temp) := by
    intro count i
    generalize List.range' i count = is
    induction is with
    | nil => exact fun as temp h => h
    | cons i is ih => exact fun as temp h => ih _ _ (hturn false i as temp h)
  obtain ⟨i₁, as₁, temp₁, has₁, htemp₁, h₁⟩ := forLoop_rel (hunrolled 4) (show 0 < 4 by decide)
    (unrolledIters p.ncols (Matvec.numIters s p tid) 4) 0 hstart
  obtain ⟨i₂, as₂, temp₂, has₂, htemp₂, h₂⟩ := forLoop_rel (hunrolled 2) (show 0 < 2 by decide)
    (unrolledIters p.ncols (Matvec.numIters s p tid) 2) i₁ h₁
  obtain ⟨i₃, as₃, temp₃, has₃, htemp₃, h₃⟩ := forLoop_rel (hturn true) Nat.one_pos
    (Matvec.numIters s p tid) i₂ h₂
  refine ⟨as₃, temp₃, ?_, ?_, h₃⟩
  · simp only [accumulateActions, has₁, has₂, has₃, Option.bind_eq_bind, Option.bind_some]
    rfl
  · simp only [Matvec.accumulate, htemp₁, htemp₂, htemp₃, Option.bind_eq_bind, Option.bind_some]
    rfl

/-! ### The phases -/

theorem within_partialActions (hcols : s.numCols = 1) {tid : Fin s.blockSize}
    {act : Action (MatvecLocal K) (Addr S ⊕ Cell) K}
    (hact : act ∈ partialActions s p w x o firstRow numRows tid) :
    (∀ y ∈ act.reads, ∃ b ∈ w.slots ++ x.slots, ∃ i, y = .inl (b, i)) ∧
      ∀ y ∈ act.writes, ∃ c, y = .inr (c, tid.val) := by
  obtain ⟨as, temp, has, -, hacc⟩ := accumulateActions_spec p w x o firstRow numRows
    hcols tid (⟨fun _ _ => 0, 0, 0, []⟩, ⟨0, 0, 0, 0⟩)
    fun _ => 0
  simp only [partialActions, has, Option.get_some, List.map_map, List.mem_append,
    List.mem_map, Function.comp_apply] at hact
  obtain hact | ⟨c, -, rfl⟩ := hact
  · refine ⟨hacc.reads act hact, fun y hy => ?_⟩
    rw [hacc.writes act hact] at hy
    cases hy
  · exact ⟨fun y hy => absurd hy (Set.notMem_empty y), fun y hy => ⟨c, hy⟩⟩

/-- **The first phase** leaves the partial sums in the cells. -/
theorem partial_step (hcols : s.numCols = 1) {ℓ ℓ' : Fin s.blockSize → MatvecLocal K}
    {m m' : Addr S ⊕ Cell → K}
    (h : Interleave (partialActions s p w x o firstRow numRows) ℓ m ℓ' m') :
    m' ∘ Sum.inl = m ∘ Sum.inl ∧ ∀ (tid : Fin s.blockSize) (temp : ℕ → ℕ → K),
      Matvec.accumulate s p (view w (m ∘ Sum.inl)) (view x (m ∘ Sum.inl)) o firstRow numRows tid =
        some temp → ∀ c ∈ cells s numRows, m' (.inr (c, tid)) = temp c.1 c.2 := by
  have hrace : RaceFree (partialActions s p w x o firstRow numRows)
      (fun _ => {y | ∃ b ∈ w.slots ++ x.slots, ∃ i, y = .inl (b, i)})
      (fun tid => {y : Addr S ⊕ Cell | ∃ c, y = .inr (c, tid.val)}) := by
    constructor
    · intro tid act hact
      obtain ⟨hreads, hwrites⟩ := within_partialActions hcols hact
      exact within_of_subset hreads hwrites
    · rintro tid tid' hne y ⟨c, rfl⟩ (⟨b, -, i, heq⟩ | ⟨c', heq⟩)
      · cases heq
      · exact hne (Fin.ext (Prod.mk.inj (Sum.inr.inj heq)).2)
  obtain ⟨-, hm, hframe⟩ := h.eq_alone hrace
  refine ⟨funext fun y => hframe _ (by simp), fun tid temp htemp c hc => ?_⟩
  rw [hm tid (.inr (c, tid)) (.inr ⟨c, rfl⟩)]
  obtain ⟨as, temp', has, htemp', hacc⟩ := accumulateActions_spec p w x o firstRow
    numRows hcols tid (ℓ tid) m
  obtain rfl := Option.some.inj (htemp.symm.trans htemp')
  have hget : partialActions s p w x o firstRow numRows tid = as ++
      ((cells s numRows).map fun c => .store (c, tid.val) fun ℓ => ℓ.temp c.1 c.2).map
        Action.onShared := by
    simp only [partialActions, has, Option.get_some]
  have hloops : alone as (ℓ tid, m) = ((alone as (ℓ tid, m)).1, m) := Prod.ext rfl hacc.memory
  rw [hget, alone_append, hloops]
  have hshared := (alone_onShared ((cells s numRows).map fun c =>
    .store (c, tid.val) fun ℓ => ℓ.temp c.1 c.2) (alone as (ℓ tid, m)).1 m).2.1
  rw [Matvec.alone_stores] at hshared
  have hcell := congrFun hshared (c, tid.val)
  refine hcell.trans ?_
  rw [hacc.temp]
  exact if_pos ⟨hc, rfl⟩

omit [Field K] [DecidableEq S] in
theorem within_storeActions {tid : Fin s.blockSize} {act : Action (MatvecLocal K) (Addr S ⊕ Cell) K}
    (hact : act ∈ storeActions s p out o firstRow numRows tid) :
    tid.val = 0 ∧ (∀ y ∈ act.reads, ∃ c, y = .inr c) ∧ ∀ y ∈ act.writes, ∃ c ∈ cells s numRows,
      y = .inl (out, c.1 * p.batchStrideD + o.d + firstRow + c.2) := by
  unfold storeActions at hact
  split_ifs at hact with htid
  · obtain ⟨c, hc, hact⟩ := List.mem_flatMap.1 hact
    simp only [List.mem_cons, List.not_mem_nil, or_false] at hact
    obtain rfl | rfl := hact
    · exact ⟨htid, fun y hy => ⟨_, hy⟩, fun y hy => absurd hy (Set.notMem_empty y)⟩
    · exact ⟨htid, fun y hy => absurd hy (Set.notMem_empty y), fun y hy => ⟨c, hc, hy⟩⟩
  · cases hact

omit [Field K] in
theorem alone_results (out : S) (dst : ℕ × ℕ → ℕ) {cs : List (ℕ × ℕ)} (hdst : (cs.map dst).Nodup)
    (ℓ : MatvecLocal K) (m : Addr S ⊕ Cell → K) {c : ℕ × ℕ} (hc : c ∈ cs) :
    (alone (cs.flatMap fun c =>
      [.load (.inr (c, 0)) fun ℓ v => ({ ℓ.1 with lhs := v }, ℓ.2),
        .store (.inl (out, dst c)) fun ℓ => ℓ.1.lhs]) (ℓ, m)).2 (.inl (out, dst c)) =
      m (.inr (c, 0)) := by
  induction cs generalizing ℓ m with
  | nil => cases hc
  | cons c' cs ih =>
    rw [List.map_cons, List.nodup_cons] at hdst
    rw [List.flatMap_cons, alone_append]
    obtain rfl | hmem := List.mem_cons.1 hc
    · -- the others store elsewhere
      have hwithin : ∀ act ∈ cs.flatMap fun c =>
          ([.load (.inr (c, 0)) fun ℓ v => ({ ℓ.1 with lhs := v }, ℓ.2),
            .store (.inl (out, dst c)) fun ℓ => ℓ.1.lhs] :
              List (Action (MatvecLocal K) (Addr S ⊕ Cell) K)),
          act.Within Set.univ {y | ∃ c ∈ cs, y = .inl (out, dst c)} := by
        intro act hact
        obtain ⟨c', hc', hact⟩ := List.mem_flatMap.1 hact
        simp only [List.mem_cons, List.not_mem_nil, or_false] at hact
        obtain rfl | rfl := hact
        · trivial
        · exact ⟨c', hc', rfl⟩
      refine (alone_frame hwithin _ ?_).trans (Function.update_self ..)
      rintro ⟨c', hc', heq⟩
      exact hdst.1 (List.mem_map.2 ⟨c', hc', (Prod.mk.inj (Sum.inl.inj heq)).2.symm⟩)
    · exact ih hdst.2 _ _ hmem

omit [Field K] in
/-- **The last phase** stores the first cells. -/
theorem store_step (hcols : s.numCols = 1) {ℓ ℓ' : Fin s.blockSize → MatvecLocal K}
    {m m' : Addr S ⊕ Cell → K} (h : Interleave (storeActions s p out o firstRow numRows) ℓ m ℓ' m')
    (hpos : 0 < s.blockSize) {n : ℕ} (hn : n < numRows) :
    m' (.inl (out, o.d + firstRow + n)) = m (.inr ((0, n), 0)) := by
  have hrace : RaceFree (storeActions (K := K) s p out o firstRow numRows)
      (fun _ => {y : Addr S ⊕ Cell | ∃ c, y = .inr c})
      (fun tid => {y | tid.val = 0 ∧ ∃ i, y = .inl (out, i)}) := by
    constructor
    · intro tid act hact
      obtain ⟨htid, hreads, hwrites⟩ := within_storeActions hact
      refine within_of_subset hreads fun y hy => ?_
      obtain ⟨c, -, rfl⟩ := hwrites y hy
      exact ⟨htid, _, rfl⟩
    · rintro tid tid' hne y ⟨htid, i, rfl⟩ (⟨c, heq⟩ | ⟨htid', -⟩)
      · cases heq
      · exact hne (Fin.ext (htid.trans htid'.symm))
  have hcells : cells s numRows = (List.range numRows).map fun n => (0, n) := by
    rw [cells, hcols, List.range_one, List.flatMap_singleton]
  have hmem : (0, n) ∈ cells s numRows := by
    rw [hcells]
    exact List.mem_map_of_mem (List.mem_range.2 hn)
  have hdst : ((cells s numRows).map fun c =>
      c.1 * p.batchStrideD + o.d + firstRow + c.2).Nodup := by
    rw [hcells, List.map_map]
    refine List.nodup_range.map fun i j hij => ?_
    exact Nat.add_left_cancel hij
  have hidx : o.d + firstRow + n = 0 * p.batchStrideD + o.d + firstRow + n := by
    rw [Nat.zero_mul, Nat.zero_add]
  obtain ⟨-, hm, -⟩ := h.eq_alone hrace
  rw [hm ⟨0, hpos⟩ _ (.inr ⟨rfl, _, rfl⟩), storeActions, if_pos rfl, hidx]
  exact alone_results out (fun c => c.1 * p.batchStrideD + o.d + firstRow + c.2) hdst _ m hmem

/-- **The rows of a workgroup.** -/
theorem outputPhases_run {k : ℕ} (hB : s.blockSize = 2 ^ k) (hcols : s.numCols = 1)
    (hncols : p.ncols < 2 ^ 32) {ℓ ℓ' : Fin s.blockSize → MatvecLocal K}
    {m m' : Addr S ⊕ Cell → K}
    (h : RunPhases (outputPhases s p w x out o firstRow numRows) ℓ m ℓ' m') {n : ℕ}
    (hn : n < numRows) : m' (.inl (out, o.d + firstRow + n)) =
      ∑ c ∈ range p.ncols, Matvec.term p (view w (m ∘ Sum.inl)) (view x (m ∘ Sum.inl)) o
        (firstRow + n) c := by
  have hpos : 0 < s.blockSize := hB ▸ Nat.two_pow_pos k
  obtain ⟨ℓ₁, m₁, hpartial, hrest⟩ := h
  obtain ⟨ℓ₂, m₂, hreduce, ℓ₃, m₃, hstore, rfl, rfl⟩ := runPhases_append.1 hrest
  obtain ⟨-, hparts⟩ := partial_step hcols hpartial
  have hcells : (0, n) ∈ cells s numRows := by
    rw [cells, hcols, List.range_one, List.flatMap_singleton]
    exact List.mem_map_of_mem (List.mem_range.2 hn)
  have hreduce' : RunPhases ((Coop.strides (2 ^ k / 2)).map (Matvec.reducePhase s numRows))
      (fun tid => (ℓ₁ tid).1) (m₁ ∘ Sum.inr) (fun tid => (ℓ₂ tid).1) (m₂ ∘ Sum.inr) :=
    hB ▸ hreduce.shared.1
  have hsum := (Matvec.reduce_sum k hB.ge hreduce').2 (0, n) hcells
  have hpart : ∀ tid ∈ range s.blockSize, m₁ (.inr ((0, n), tid)) =
      ∑ i ∈ range (Matvec.numIters s p tid), Matvec.pairSum
        (Matvec.term p (view w (m ∘ Sum.inl)) (view x (m ∘ Sum.inl)) o (firstRow + n)) p.ncols
          (i * kPerIter * s.blockSize + kPerIter * tid) := by
    intro tid htid
    have htid := mem_range.1 htid
    obtain ⟨temp, htemp, hval⟩ := Matvec.accumulate_eq (view w (m ∘ Sum.inl))
      (view x (m ∘ Sum.inl)) o firstRow numRows hcols htid hncols
    exact (hparts ⟨tid, htid⟩ temp htemp (0, n) hcells).trans (hval n hn)
  rw [store_step hcols hstore hpos hn, ← Matvec.sum_numIters hpos]
  refine Eq.trans hsum ?_
  rw [← hB]
  exact sum_congr rfl hpart

/-! ### A dispatch -/

omit [DecidableEq S] in
variable (w x out) in
theorem matvecWorkgroup_phases {k n gx : ℕ} (hp : Matvec.Fits 1 k n p)
    (hgx : gx < ceilDiv n s.numRows) (hrows : 0 < s.numRows) (numWorkGroupsX : ℕ)
    (shared : Cell → K) : ∃ r, (∀ j < s.numRows, gx * s.numRows + j < n ↔ j < r) ∧
      r ≤ s.numRows ∧ (matvecWorkgroup s p w x out numWorkGroupsX gx 0 0 shared).phases =
        outputPhases s p w x out ⟨0, 0, 0⟩ (gx * s.numRows) r := by
  have hfirst : s.numRows * (gx + numWorkGroupsX * 0) = gx * s.numRows := by
    rw [Nat.mul_zero, Nat.add_zero, Nat.mul_comm]
  have hoffsets : getOffsets p 0 = ⟨0, 0, 0⟩ := by
    rw [Matvec.getOffsets_eq hp Nat.one_pos, Nat.zero_mul, Nat.zero_mul]
  have hlt := (lt_ceilDiv_iff hrows).1 hgx
  simp only [matvecWorkgroup, hfirst, hoffsets, hp.strideD]
  split_ifs with hfull hnone
  · exact ⟨s.numRows, fun j hj => by omega, le_rfl, rfl⟩
  · omega
  · exact ⟨n - gx * s.numRows, fun j hj => by omega, by omega, rfl⟩

theorem within_outputPhases (hcols : s.numCols = 1)
    {ph : Fin s.blockSize → List (Action (MatvecLocal K) (Addr S ⊕ Cell) K)}
    (hph : ph ∈ outputPhases s p w x out o firstRow numRows) {tid : Fin s.blockSize}
    {act : Action (MatvecLocal K) (Addr S ⊕ Cell) K} (hact : act ∈ ph tid) :
    (∀ y : Addr S, .inl y ∈ act.reads → y.1 ∈ w.slots ++ x.slots) ∧
      ∀ y : Addr S, .inl y ∈ act.writes → ∃ n < numRows, y = (out, o.d + firstRow + n) := by
  rw [outputPhases, List.cons_append, List.mem_cons, List.mem_append, List.mem_map,
    List.mem_singleton] at hph
  obtain rfl | ⟨ph, -, rfl⟩ | rfl := hph
  · obtain ⟨hreads, hwrites⟩ := within_partialActions hcols hact
    refine ⟨fun y hy => ?_, fun y hy => ?_⟩
    · obtain ⟨b, hb, i, heq⟩ := hreads _ hy
      obtain rfl := Sum.inl.inj heq
      exact hb
    · obtain ⟨c, heq⟩ := hwrites _ hy
      cases heq
  · obtain ⟨act, -, rfl⟩ := List.mem_map.1 hact
    exact ⟨fun y hy => absurd hy (reads_onShared act y),
      fun y hy => absurd hy (writes_onShared act y)⟩
  · obtain ⟨-, hreads, hwrites⟩ := within_storeActions hact
    refine ⟨fun y hy => ?_, fun y hy => ?_⟩
    · obtain ⟨c, heq⟩ := hreads _ hy
      cases heq
    · obtain ⟨⟨j, n⟩, hc, heq⟩ := hwrites _ hy
      obtain ⟨hj, hn⟩ := List.pair_mem_product.1 hc
      rw [hcols, List.mem_range, Nat.lt_one_iff] at hj
      obtain rfl := hj
      refine ⟨n, List.mem_range.1 hn, ?_⟩
      rw [Sum.inl.inj heq, Nat.zero_mul, Nat.zero_add]

/-- What the workgroups leave in an element. -/
def productValue (w x : Gemma4.Binding S K) (k : ℕ) (m : Addr S → K) (i : ℕ) : K :=
  ∑ c ∈ range k, view w m (i * k + c) * view x m c

/-- **The workgroups compute the product.** -/
theorem mulMatVec_computes {L : Type} {k' k n : ℕ} (hB : s.blockSize = 2 ^ k')
    (hcols : s.numCols = 1) (hrows : 0 < s.numRows) (hp : Matvec.Fits 1 k n p) (hk : k < 2 ^ 32)
    (shared : ℕ → Cell → K)
    {f : Workgroup (Fin s.blockSize) (MatvecLocal K) (Addr S) Cell K → L}
    (hf : Function.Injective f) :
    Computes (ceilDiv n s.numRows)
      (fun gx => ⟨(matvecWorkgroup s p w x out (ceilDiv n s.numRows) gx 0 0
        (shared gx)).proc.via f hf, false⟩)
      (w.slots ++ x.slots) out n (fun i => i / s.numRows) (productValue w x k) where
  barrier _ := rfl
  loads := by
    rintro gx hgx a ⟨ph, hph, tid, act, hact, ha⟩
    obtain ⟨r, -, -, hphases⟩ := matvecWorkgroup_phases w x out hp hgx hrows (ceilDiv n s.numRows)
      (shared gx)
    exact (within_outputPhases hcols (hphases ▸ hph) hact).1 a ha
  stores := by
    rintro gx hgx a ⟨ph, hph, tid, act, hact, ha⟩
    obtain ⟨r, hr, hle, hphases⟩ := matvecWorkgroup_phases w x out hp hgx hrows
      (ceilDiv n s.numRows) (shared gx)
    obtain ⟨j, hj, rfl⟩ := (within_outputPhases hcols (hphases ▸ hph) hact).2 a ha
    rw [Nat.zero_add]
    have hlt : j < s.numRows := hj.trans_le hle
    refine ⟨rfl, (hr j hlt).2 hj, ?_⟩
    rw [Nat.mul_comm, Nat.mul_add_div hrows, Nat.div_eq_of_lt hlt, Nat.add_zero]
  owner_lt i hi := by
    rw [lt_ceilDiv_iff hrows]
    exact (Nat.div_mul_le_self i s.numRows).trans_lt hi
  exists_runs gx m := by
    obtain ⟨m', hm'⟩ := (matvecWorkgroup s p w x out (ceilDiv n s.numRows) gx 0 0
      (shared gx)).exists_runs m
    exact ⟨m', (Proc.runs_via hf).2 hm'⟩
  runs := by
    intro i hi m m' hrun
    have hgx : i / s.numRows < ceilDiv n s.numRows := by
      rw [lt_ceilDiv_iff hrows]
      exact (Nat.div_mul_le_self i s.numRows).trans_lt hi
    obtain ⟨r, hr, -, hphases⟩ := matvecWorkgroup_phases w x out hp hgx hrows (ceilDiv n s.numRows)
      (shared (i / s.numRows))
    obtain ⟨ℓ', sh', hruns⟩ := Workgroup.runs_iff.1 ((Proc.runs_via hf).1 hrun)
    rw [hphases] at hruns
    have hrow : i / s.numRows * s.numRows + i % s.numRows = i := Nat.div_add_mod' i s.numRows
    have hlt := Nat.mod_lt i hrows
    have hcell := outputPhases_run hB hcols (hp.ncols ▸ hk) hruns
      ((hr _ hlt).1 (hrow.symm ▸ hi))
    rw [Nat.zero_add, hrow, Sum.elim_inl, Sum.elim_comp_inl, hp.ncols] at hcell
    rw [hcell, productValue]
    refine sum_congr rfl fun c _ => ?_
    rw [Matvec.term, hp.ncols, Nat.zero_add, Nat.zero_add]

end

end Shader

end VllmVulkan
