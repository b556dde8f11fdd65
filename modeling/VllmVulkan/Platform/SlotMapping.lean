import VllmVulkan.Lang.Python
import VllmVulkan.Lib.Segments
import Mathlib.Data.Int.Init
import Mathlib.Data.List.GetD

/-!
# Slots for the tokens of a batch

A token at position `p` of a request is stored in the block that the block table of the request
holds for `p // block_size`.  The mapping is computed for the whole batch at once; the loop over
requests that it replaced is kept by the tests.

* `computeSlotMapping` : `_pure_python_compute_slot_mapping`;
* `referenceComputeSlotMappingLoop` : the loop;
* `Batch` : a batch as the runner builds it;
* `computeSlotMapping_eq`, `referenceLoop_eq` : both write the slots segment by segment;
* `computeSlotMapping_spec` : **the vectorised mapping is the loop**.
-/

namespace VllmVulkan

namespace SlotMapping

/-- What the tensor operations raise. -/
inductive TorchError where
  | assertionError (msg : String)
  | indexError
  | runtimeError (msg : String)
  deriving DecidableEq, Repr

/-- A two-dimensional tensor of integers. -/
structure IntTable where
  rows : List (List ℤ)
  width : ℕ
  length_row : ∀ row ∈ rows, row.length = width

/-- Where a bound of a Python slice of `n` elements lies. -/
def sliceBound (n : ℕ) (i : ℤ) : ℕ := if 0 ≤ i then min i.toNat n else (n + i).toNat

/-- `xs[lo:hi]`. -/
def pySlice (xs : List ℤ) (lo hi : ℤ) : List ℤ :=
  (xs.take (sliceBound xs.length hi)).drop (sliceBound xs.length lo)

/-- An elementwise operation on two vectors, one of which may have a single element. -/
def broadcast {α β γ : Type} (e : TorchError) (f : α → β → γ) (xs : List α) (ys : List β) :
    Except TorchError (List γ) :=
  if xs.length = ys.length then .ok (List.zipWith f xs ys)
  else match xs, ys with
    | [x], ys => .ok (ys.map (f x))
    | xs, [y] => .ok (xs.map fun x => f x y)
    | _, _ => .error e

/-- `xs[lo:hi] = ys`, where a single element fills the slice. -/
def setSlice (xs : List ℤ) (lo hi : ℤ) (ys : List ℤ) : Except TorchError (List ℤ) :=
  let lo := sliceBound xs.length lo
  let hi := max lo (sliceBound xs.length hi)
  if ys.length = hi - lo then .ok (xs.take lo ++ ys ++ xs.drop hi)
  else match ys with
    | [y] => .ok (xs.take lo ++ List.replicate (hi - lo) y ++ xs.drop hi)
    | _ => .error (.runtimeError "shape mismatch")

/-- `torch.repeat_interleave(xs, repeats)`. -/
def repeatInterleave (xs repeats : List ℤ) : Except TorchError (List ℤ) :=
  if xs.length ≠ repeats.length then
    .error (.runtimeError "repeats must have the same size as input along dim")
  else if ∃ n ∈ repeats, n < 0 then .error (.runtimeError "repeats can not be negative")
  else .ok ((xs.zip repeats).flatMap fun p => List.replicate p.2.toNat p.1)

/-- `xs[i]`. -/
def indexAt {α : Type} (xs : List α) (i : ℤ) : Except TorchError α :=
  match pyIndex? xs i with
  | some x => .ok x
  | none => .error .indexError

/-- `positions // block_size`. -/
def blockIndices (positions : List ℤ) (blockSize : ℤ) : Except TorchError (List ℤ) :=
  if blockSize = 0 then .error (.runtimeError "ZeroDivisionError")
  else .ok (positions.map (·.fdiv blockSize))

/-- `positions % block_size`. -/
def blockOffsets (positions : List ℤ) (blockSize : ℤ) : Except TorchError (List ℤ) :=
  if blockSize = 0 then .error (.runtimeError "ZeroDivisionError")
  else .ok (positions.map (·.fmod blockSize))

/-- `block_ids * block_size + offsets`. -/
def slotsOf (blockIds offsets : List ℤ) (blockSize : ℤ) : Except TorchError (List ℤ) :=
  broadcast (.runtimeError "shape mismatch") (fun b o => b * blockSize + o) blockIds offsets

/-- `_pure_python_compute_slot_mapping`. -/
def computeSlotMapping (numTokens : ℤ) (queryStartLoc positions : List ℤ) (blockTable : IntTable)
    (blockSize : ℤ) (slotMapping : List ℤ) (totalCpWorldSize : ℤ) :
    Except TorchError (List ℤ) := do
  if totalCpWorldSize ≠ 1 then
    .error (.assertionError "Context Parallelism is not supported on CPU.")
  else
    let numReqs : ℤ := queryStartLoc.length - 1
    if numReqs ≤ 0 ∨ numTokens ≤ 0 then pure slotMapping
    else
      let positions := pySlice positions 0 numTokens
      let reqLens := List.zipWith (fun a b => max (b - a) 0) queryStartLoc.dropLast
        queryStartLoc.tail
      let reqIdsPerToken ← repeatInterleave ((List.range numReqs.toNat).map Nat.cast) reqLens
      let blockIndices ← blockIndices positions blockSize
      let pairs ← broadcast .indexError Prod.mk reqIdsPerToken blockIndices
      let blockIds ← pairs.mapM fun p => do
        let row ← indexAt blockTable.rows p.1
        indexAt row p.2
      let offsets ← blockOffsets positions blockSize
      let slots ← slotsOf blockIds offsets blockSize
      setSlice slotMapping 0 numTokens slots

/-- The body of the loop over the requests. -/
def referenceStep (queryStartLoc positions : List ℤ) (blockTable : IntTable) (blockSize : ℤ)
    (slotMapping : List ℤ) (reqIdx : ℕ) : Except TorchError (List ℤ) := do
  let start ← indexAt queryStartLoc reqIdx
  let stop ← indexAt queryStartLoc (reqIdx + 1)
  if start ≥ stop then pure slotMapping
  else
    let posSlice := pySlice positions start stop
    let blockIndices ← blockIndices posSlice blockSize
    let row ← indexAt blockTable.rows reqIdx
    let blockIds ← blockIndices.mapM fun i => indexAt row i
    let offsets ← blockOffsets posSlice blockSize
    let slots ← slotsOf blockIds offsets blockSize
    setSlice slotMapping start stop slots

/-- `_reference_compute_slot_mapping_loop`. -/
def referenceComputeSlotMappingLoop (queryStartLoc positions : List ℤ) (blockTable : IntTable)
    (blockSize : ℤ) (slotMapping : List ℤ) : Except TorchError (List ℤ) :=
  (List.range (queryStartLoc.length - 1)).foldlM
    (referenceStep queryStartLoc positions blockTable blockSize) slotMapping

/-- A batch as the runner builds it. -/
structure Batch (numTokens : ℕ) (queryStartLoc positions : List ℤ) (blockTable : IntTable)
    (blockSize : ℤ) (slotMapping : List ℤ) : Prop where
  first : queryStartLoc.head? = some 0
  sorted : queryStartLoc.Pairwise (· ≤ ·)
  last : queryStartLoc.getLast? = some (numTokens : ℤ)
  tokens : numTokens ≤ positions.length
  nonneg : ∀ p ∈ positions, 0 ≤ p
  blockSize_pos : 0 < blockSize
  requests : queryStartLoc.length ≤ blockTable.rows.length + 1
  columns : ∀ p ∈ positions, p / blockSize < blockTable.width
  room : numTokens ≤ slotMapping.length

namespace Batch

variable {numTokens : ℕ} {queryStartLoc positions : List ℤ} {blockTable : IntTable} {blockSize : ℤ}
  {slotMapping : List ℤ}
  (h : Batch numTokens queryStartLoc positions blockTable blockSize slotMapping)
include h

theorem length_pos : 0 < queryStartLoc.length := by
  refine List.length_pos_of_ne_nil ?_
  intro hnil
  have hfirst := h.first
  rw [hnil] at hfirst
  cases hfirst

theorem startLoc_le {i j : ℕ} (hij : i ≤ j) (hj : j < queryStartLoc.length) :
    queryStartLoc[i] ≤ queryStartLoc[j] := by
  obtain rfl | hlt := Nat.eq_or_lt_of_le hij
  · exact le_refl _
  · exact List.pairwise_iff_getElem.1 h.sorted i j (hlt.trans hj) hj hlt

theorem startLoc_zero (hpos : 0 < queryStartLoc.length) : queryStartLoc[0] = 0 := by
  have hfirst := h.first
  rw [List.head?_eq_getElem?, List.getElem?_eq_getElem hpos] at hfirst
  exact Option.some.inj hfirst

theorem startLoc_last (hlt : queryStartLoc.length - 1 < queryStartLoc.length) :
    queryStartLoc[queryStartLoc.length - 1] = numTokens := by
  have hlast := h.last
  rw [List.getLast?_eq_getElem?, List.getElem?_eq_getElem hlt] at hlast
  exact Option.some.inj hlast

/-- Where the tokens of each request start. -/
def offsets : Offsets where
  start r := (queryStartLoc.getD r numTokens).toNat
  start_zero := by
    rw [List.getD_eq_getElem _ _ h.length_pos, h.startLoc_zero, Int.toNat_zero]
  mono := by
    refine monotone_nat_of_le_succ fun r => Int.toNat_le_toNat ?_
    obtain hr | hr := Nat.lt_or_ge (r + 1) queryStartLoc.length
    · rw [List.getD_eq_getElem _ _ hr, List.getD_eq_getElem _ _ (Nat.lt_of_succ_lt hr)]
      exact h.startLoc_le (Nat.le_succ r) hr
    · rw [List.getD_eq_default _ _ hr]
      obtain hr' | hr' := Nat.lt_or_ge r queryStartLoc.length
      · rw [List.getD_eq_getElem _ _ hr', ← h.startLoc_last (by omega)]
        exact h.startLoc_le (by omega) _
      · rw [List.getD_eq_default _ _ hr']

theorem startLoc_eq {r : ℕ} (hr : r < queryStartLoc.length) :
    queryStartLoc[r] = h.offsets.start r := by
  have hnonneg : 0 ≤ queryStartLoc[r] := by
    rw [← h.startLoc_zero h.length_pos]
    exact h.startLoc_le (Nat.zero_le r) hr
  change _ = (((queryStartLoc.getD r numTokens).toNat : ℕ) : ℤ)
  rw [List.getD_eq_getElem _ _ hr, Int.toNat_of_nonneg hnonneg]

theorem start_last : h.offsets.start (queryStartLoc.length - 1) = numTokens := by
  have hlast := h.startLoc_last (Nat.sub_lt h.length_pos Nat.one_pos)
  rw [h.startLoc_eq] at hlast
  exact Int.ofNat.inj hlast

end Batch

/-! ### The tensor operations -/

theorem ok_bind {α β : Type} (a : α) (f : α → Except TorchError β) :
    (Except.ok a >>= f) = f a :=
  rfl

theorem mapM_ok {α β : Type} {f : α → Except TorchError β} {g : α → β} {xs : List α}
    (h : ∀ x ∈ xs, f x = .ok (g x)) : xs.mapM f = .ok (xs.map g) := by
  induction xs with
  | nil => rfl
  | cons x xs ih =>
    rw [List.mapM_cons, h x List.mem_cons_self, ok_bind,
      ih fun y hy => h y (List.mem_cons_of_mem _ hy), ok_bind]
    rfl

theorem sliceBound_natCast {n k : ℕ} (h : k ≤ n) : sliceBound n k = k := by
  rw [sliceBound, if_pos (Int.natCast_nonneg k), Int.toNat_natCast, Nat.min_eq_left h]

theorem pySlice_natCast {xs : List ℤ} {lo hi : ℕ} (hlo : lo ≤ xs.length) (hhi : hi ≤ xs.length) :
    pySlice xs lo hi = (xs.take hi).drop lo := by
  rw [pySlice, sliceBound_natCast hlo, sliceBound_natCast hhi]

theorem setSlice_natCast {xs ys : List ℤ} {lo hi : ℕ} (hle : lo ≤ hi) (hhi : hi ≤ xs.length)
    (hys : ys.length = hi - lo) :
    setSlice xs lo hi ys = .ok (xs.take lo ++ ys ++ xs.drop hi) := by
  simp only [setSlice, sliceBound_natCast hhi, sliceBound_natCast (hle.trans hhi),
    Nat.max_eq_right hle]
  rw [if_pos hys]

theorem broadcast_of_length {α β γ : Type} {e : TorchError} {f : α → β → γ} {xs : List α}
    {ys : List β} (h : xs.length = ys.length) :
    broadcast e f xs ys = .ok (List.zipWith f xs ys) :=
  if_pos h

theorem indexAt_ok {α : Type} {xs : List α} {i : ℤ} (hi : 0 ≤ i) (hlt : i < xs.length) (d : α) :
    indexAt xs i = .ok (xs.getD i.toNat d) := by
  have hk : i.toNat < xs.length := by omega
  have hpos : pyPos xs.length i = some i.toNat := by rw [pyPos, if_pos hi, if_pos hlt]
  rw [indexAt, pyIndex?, hpos, Option.bind_some, List.getElem?_eq_getElem hk,
    List.getD_eq_getElem _ _ hk]

/-- `block_table[r, c]`. -/
def entry (blockTable : IntTable) (r : ℕ) (c : ℤ) : ℤ :=
  (blockTable.rows.getD r []).getD c.toNat 0

/-- The slot of position `p` of request `r`. -/
def slot (blockTable : IntTable) (blockSize : ℤ) (r : ℕ) (p : ℤ) : ℤ :=
  entry blockTable r (p / blockSize) * blockSize + p % blockSize

theorem indexAt_row {blockTable : IntTable} {r : ℕ} (hr : r < blockTable.rows.length) {c : ℤ}
    (hc : 0 ≤ c) (hlt : c < blockTable.width) :
    indexAt (blockTable.rows.getD r []) c = .ok (entry blockTable r c) := by
  have hrow : (blockTable.rows.getD r []).length = blockTable.width := by
    rw [List.getD_eq_getElem _ _ hr]
    exact blockTable.length_row _ (List.getElem_mem hr)
  exact indexAt_ok hc (hrow.symm ▸ hlt) 0

section Positions

variable {blockSize : ℤ} (hpos : 0 < blockSize)
include hpos

theorem blockIndices_ok (xs : List ℤ) :
    blockIndices xs blockSize = .ok (xs.map (· / blockSize)) := by
  rw [blockIndices, if_neg hpos.ne']
  congr 1
  exact List.map_congr_left fun x _ => Int.fdiv_eq_ediv_of_nonneg x hpos.le

theorem blockOffsets_ok (xs : List ℤ) :
    blockOffsets xs blockSize = .ok (xs.map (· % blockSize)) := by
  rw [blockOffsets, if_neg hpos.ne']
  congr 1
  exact List.map_congr_left fun x _ => Int.fmod_eq_emod_of_nonneg x hpos.le

end Positions

/-! ### The loop over requests -/

namespace Batch

variable {numTokens : ℕ} {queryStartLoc positions : List ℤ} {blockTable : IntTable} {blockSize : ℤ}
  {slotMapping : List ℤ}
  (h : Batch numTokens queryStartLoc positions blockTable blockSize slotMapping)

/-- The slots of the first `n` requests, then what was there. -/
def written (n : ℕ) : List ℤ :=
  ((List.range n).flatMap fun r =>
    (segment h.offsets positions r).map (slot blockTable blockSize r))
    ++ slotMapping.drop (h.offsets.start n)

include h

theorem start_le_tokens {r : ℕ} (hr : r ≤ queryStartLoc.length - 1) :
    h.offsets.start r ≤ numTokens :=
  (h.offsets.mono hr).trans h.start_last.le

theorem indexAt_startLoc {r : ℕ} (hr : r < queryStartLoc.length) :
    indexAt queryStartLoc r = .ok (h.offsets.start r : ℤ) := by
  rw [indexAt_ok (Int.natCast_nonneg r) (by exact_mod_cast hr) 0, Int.toNat_natCast,
    List.getD_eq_getElem _ _ hr, h.startLoc_eq hr]

theorem length_slots {n : ℕ} (hn : n ≤ queryStartLoc.length - 1) :
    ((List.range n).flatMap fun r =>
      (segment h.offsets positions r).map (slot blockTable blockSize r)).length =
        h.offsets.start n :=
  length_flatMap_segment _ ((h.start_le_tokens hn).trans h.tokens)

theorem length_written {n : ℕ} (hn : n ≤ queryStartLoc.length - 1) :
    (h.written n).length = slotMapping.length := by
  rw [written, List.length_append, h.length_slots hn, List.length_drop,
    Nat.add_sub_cancel' ((h.start_le_tokens hn).trans h.room)]

theorem column {p : ℤ} (hp : p ∈ positions) :
    0 ≤ p / blockSize ∧ p / blockSize < blockTable.width :=
  ⟨Int.ediv_nonneg (h.nonneg p hp) h.blockSize_pos.le, h.columns p hp⟩

theorem mem_of_mem_segment {r : ℕ} {p : ℤ} (hp : p ∈ segment h.offsets positions r) :
    p ∈ positions :=
  List.mem_of_mem_take (List.mem_of_mem_drop hp)

theorem slotsOf_segment (r : ℕ) :
    slotsOf (((segment h.offsets positions r).map (· / blockSize)).map (entry blockTable r))
      ((segment h.offsets positions r).map (· % blockSize)) blockSize =
        .ok ((segment h.offsets positions r).map (slot blockTable blockSize r)) := by
  rw [slotsOf, broadcast_of_length (by simp), List.map_map, List.zipWith_map, List.zipWith_self]
  rfl

/-- **The turn of one request.** -/
theorem referenceStep_written {n : ℕ} (hn : n < queryStartLoc.length - 1) :
    referenceStep queryStartLoc positions blockTable blockSize (h.written n) n =
      .ok (h.written (n + 1)) := by
  have hstart := h.indexAt_startLoc (r := n) (by omega)
  have hstop := h.indexAt_startLoc (r := n + 1) (by omega)
  rw [Nat.cast_succ] at hstop
  have hslots := h.length_slots hn.le
  -- request `n` adds its slots behind those of the requests before it
  have hnext : h.written (n + 1) = (List.range n).flatMap (fun r =>
      (segment h.offsets positions r).map (slot blockTable blockSize r)) ++
        (segment h.offsets positions n).map (slot blockTable blockSize n) ++
          slotMapping.drop (h.offsets.start (n + 1)) := by
    rw [written, List.range_succ, List.flatMap_append, List.flatMap_singleton]
  unfold referenceStep
  rw [hstart, ok_bind, hstop, ok_bind]
  have hle := h.offsets.start_le n
  have htokens := h.start_le_tokens (r := n + 1) (by omega)
  have hseg : (segment h.offsets positions n).length =
      h.offsets.start (n + 1) - h.offsets.start n := length_segment (htokens.trans h.tokens)
  split_ifs with hempty
  · -- a request without tokens is skipped
    have heq : h.offsets.start (n + 1) = h.offsets.start n := by omega
    have hnil : segment h.offsets positions n = [] :=
      List.length_eq_zero_iff.1 (by rw [hseg, heq, Nat.sub_self])
    rw [hnext, hnil, List.map_nil, List.append_nil, heq]
    rfl
  · have hslice : pySlice positions (h.offsets.start n) (h.offsets.start (n + 1)) =
        segment h.offsets positions n :=
      pySlice_natCast ((hle.trans htokens).trans h.tokens) (htokens.trans h.tokens)
    have hrow : n < blockTable.rows.length := by have := h.requests; omega
    simp only [hslice]
    rw [blockIndices_ok h.blockSize_pos, ok_bind,
      indexAt_ok (Int.natCast_nonneg n) (by exact_mod_cast hrow) [], ok_bind, Int.toNat_natCast,
      mapM_ok (g := entry blockTable n) (fun c hc => ?_), ok_bind, blockOffsets_ok h.blockSize_pos,
      ok_bind, h.slotsOf_segment, ok_bind, setSlice_natCast hle
        (by rw [h.length_written hn.le]; exact htokens.trans h.room) (by simp [hseg])]
    · rw [hnext, written, List.take_left' hslots, List.drop_append, hslots, List.drop_drop,
        Nat.add_sub_cancel' hle, List.drop_eq_nil_of_le (hslots.le.trans hle), List.nil_append]
    · obtain ⟨p, hp, rfl⟩ := List.mem_map.1 hc
      have hcol := h.column (h.mem_of_mem_segment hp)
      exact indexAt_row hrow hcol.1 hcol.2

theorem foldlM_referenceStep {n : ℕ} (hn : n ≤ queryStartLoc.length - 1) :
    (List.range n).foldlM (referenceStep queryStartLoc positions blockTable blockSize) slotMapping =
      .ok (h.written n) := by
  induction n with
  | zero =>
    rw [written, h.offsets.start_zero]
    rfl
  | succ n ih =>
    rw [List.range_succ, List.foldlM_append, ih (by omega), ok_bind, List.foldlM_cons,
      h.referenceStep_written hn, ok_bind]
    rfl

/-- **The loop** writes the slots of all requests. -/
theorem referenceLoop_eq :
    referenceComputeSlotMappingLoop queryStartLoc positions blockTable blockSize slotMapping =
      .ok (h.written (queryStartLoc.length - 1)) :=
  h.foldlM_referenceStep (Nat.le_refl _)

end Batch

/-! ### The whole batch at once -/

namespace Batch

variable {numTokens : ℕ} {queryStartLoc positions : List ℤ} {blockTable : IntTable} {blockSize : ℤ}
  {slotMapping : List ℤ}
  (h : Batch numTokens queryStartLoc positions blockTable blockSize slotMapping)
include h

theorem reqLens_eq :
    List.zipWith (fun a b : ℤ => max (b - a) 0) queryStartLoc.dropLast queryStartLoc.tail =
      (List.range (queryStartLoc.length - 1)).map fun r =>
        ((h.offsets.start (r + 1) - h.offsets.start r : ℕ) : ℤ) := by
  refine List.ext_getElem (by simp) ?_
  intro r hr hr'
  have hlt : r + 1 < queryStartLoc.length := by
    simp only [List.length_map, List.length_range] at hr'
    omega
  have hle := h.offsets.start_le r
  rw [List.getElem_zipWith, List.getElem_dropLast, List.getElem_tail, List.getElem_map,
    List.getElem_range, h.startLoc_eq hlt, h.startLoc_eq (Nat.lt_of_succ_lt hlt)]
  omega

/-- `req_ids_per_token`: every request as often as it has tokens. -/
theorem repeatInterleave_eq {n : ℕ} :
    repeatInterleave ((List.range n).map Nat.cast)
      ((List.range n).map fun r => ((h.offsets.start (r + 1) - h.offsets.start r : ℕ) : ℤ)) =
        .ok ((h.offsets.owners n).map Nat.cast) := by
  rw [repeatInterleave, if_neg (by simp), if_neg (by simp)]
  congr 1
  rw [List.zip_map', List.flatMap_map, Offsets.owners, List.map_flatMap]
  refine List.flatMap_congr ?_
  intro r _
  rw [Int.toNat_natCast, List.map_replicate]

omit h in
/-- The slots of a list of positions with their requests, as the tensors compute them. -/
theorem zipWith_slots (blockTable : IntTable) (blockSize : ℤ) (rs : List ℕ) (ps : List ℤ) :
    List.zipWith (fun b o => b * blockSize + o)
      (((rs.map (Nat.cast (R := ℤ))).zip (ps.map (· / blockSize))).map fun p =>
        entry blockTable p.1.toNat p.2) (ps.map (· % blockSize)) =
      List.zipWith (slot blockTable blockSize) rs ps := by
  induction rs generalizing ps with
  | nil => rfl
  | cons r rs ih =>
    cases ps with
    | nil => rfl
    | cons p ps =>
      simp only [List.map_cons, List.zip_cons_cons, List.zipWith_cons_cons, ih, slot,
        Int.toNat_natCast]

omit h in
theorem lt_of_mem_owners {o : Offsets} {n r : ℕ} (hr : r ∈ o.owners n) : r < n := by
  obtain ⟨s, hs, hmem⟩ := List.mem_flatMap.1 hr
  rw [List.eq_of_mem_replicate hmem]
  exact List.mem_range.1 hs

/-- **The vectorised mapping** writes the slots of all requests. -/
theorem computeSlotMapping_eq :
    computeSlotMapping numTokens queryStartLoc positions blockTable blockSize slotMapping 1 =
      .ok (h.written (queryStartLoc.length - 1)) := by
  set n := queryStartLoc.length - 1 with hn
  have hlast : h.offsets.start n = numTokens := h.start_last
  have hlen : (queryStartLoc.length : ℤ) - 1 = n := by have := h.length_pos; omega
  unfold computeSlotMapping
  rw [if_neg (not_not.2 rfl), hlen]
  dsimp only
  split_ifs with hnone
  · -- nothing to write: no request, or no token
    have hzero : h.offsets.start n = 0 := by
      obtain hn0 | ht0 := hnone
      · rw [show n = 0 by omega, h.offsets.start_zero]
      · rw [hlast]
        omega
    have hnil := h.length_slots (n := n) (Nat.le_refl n)
    rw [hzero, List.length_eq_zero_iff] at hnil
    rw [written, hnil, hzero]
    rfl
  · have htake : h.offsets.start n ≤ positions.length := hlast.le.trans h.tokens
    have hslice : pySlice positions 0 numTokens = positions.take (h.offsets.start n) := by
      rw [hlast, ← Nat.cast_zero, pySlice_natCast (Nat.zero_le _) h.tokens, List.drop_zero]
    have hlens : (h.offsets.owners n).length = (positions.take (h.offsets.start n)).length := by
      rw [length_owners, List.length_take, Nat.min_eq_left htake]
    -- a token is paired with its owner, so that the requests can be mapped one by one
    have hslots : slotsOf ((((h.offsets.owners n).map (Nat.cast (R := ℤ))).zip
        ((positions.take (h.offsets.start n)).map (· / blockSize))).map fun p =>
          entry blockTable p.1.toNat p.2)
        ((positions.take (h.offsets.start n)).map (· % blockSize)) blockSize =
          .ok ((List.range n).flatMap fun r =>
            (segment h.offsets positions r).map (slot blockTable blockSize r)) := by
      rw [slotsOf, broadcast_of_length (by simp [hlens]), zipWith_slots, zipWith_owners _ htake]
    rw [hslice, h.reqLens_eq, ← hn, Int.toNat_natCast, h.repeatInterleave_eq, ok_bind,
      blockIndices_ok h.blockSize_pos, ok_bind, broadcast_of_length (by simpa using hlens), ok_bind,
      mapM_ok (g := fun p => entry blockTable p.1.toNat p.2) (fun p hp => ?_), ok_bind,
      blockOffsets_ok h.blockSize_pos, ok_bind]
    · rw [← List.zip, hslots, ok_bind, ← Nat.cast_zero,
        setSlice_natCast (Nat.zero_le _) h.room
          (by rw [h.length_slots (Nat.le_refl n), hlast]; rfl),
        List.take_zero, List.nil_append, written, hlast]
    · -- the indices are in range: a row for the owner, and a column for the block
      obtain ⟨hr, hc⟩ := List.of_mem_zip hp
      obtain ⟨r, hr, hrp⟩ := List.mem_map.1 hr
      obtain ⟨x, hx, hxp⟩ := List.mem_map.1 hc
      have hcol := h.column (List.mem_of_mem_take hx)
      have hrow : r < blockTable.rows.length := by
        have hlt := lt_of_mem_owners hr
        have hrequests := h.requests
        omega
      rw [← hrp, ← hxp, Int.toNat_natCast,
        indexAt_ok (Int.natCast_nonneg r) (by exact_mod_cast hrow) [], ok_bind, Int.toNat_natCast]
      exact indexAt_row hrow hcol.1 hcol.2

end Batch

/-! ### What is written -/

/-- Request `r` owns token `i`. -/
def Owner (queryStartLoc : List ℤ) (i r : ℕ) : Prop :=
  ∃ start stop, queryStartLoc[r]? = some start ∧ queryStartLoc[r + 1]? = some stop ∧
    start ≤ i ∧ i < stop

/-- Token `i` of request `r` is stored in column `c` of its blocks. -/
def Uses (numTokens : ℕ) (queryStartLoc positions : List ℤ) (blockSize : ℤ) (r : ℕ) (c : ℤ) :
    Prop :=
  ∃ i < numTokens, ∃ p, Owner queryStartLoc i r ∧ positions[i]? = some p ∧ c = p / blockSize

/-- No two of the blocks in use are the same. -/
def DistinctBlocks (numTokens : ℕ) (queryStartLoc positions : List ℤ) (blockTable : IntTable)
    (blockSize : ℤ) : Prop :=
  ∀ r c r' c', Uses numTokens queryStartLoc positions blockSize r c →
    Uses numTokens queryStartLoc positions blockSize r' c' →
    entry blockTable r c = entry blockTable r' c' → r = r' ∧ c = c'

/-- No two tokens of a request have the same position. -/
def DistinctPositions (numTokens : ℕ) (queryStartLoc positions : List ℤ) : Prop :=
  ∀ i < numTokens, ∀ j < numTokens, ∀ r, Owner queryStartLoc i r → Owner queryStartLoc j r →
    positions[i]? = positions[j]? → i = j

namespace Batch

variable {numTokens : ℕ} {queryStartLoc positions : List ℤ} {blockTable : IntTable} {blockSize : ℤ}
  {slotMapping : List ℤ}
  (h : Batch numTokens queryStartLoc positions blockTable blockSize slotMapping)
include h

theorem owner_iff {i r : ℕ} :
    Owner queryStartLoc i r ↔ r < queryStartLoc.length - 1 ∧ h.offsets.Owns r i := by
  constructor
  · rintro ⟨start, stop, hstart, hstop, hle, hlt⟩
    obtain ⟨hr, rfl⟩ := List.getElem?_eq_some_iff.1 hstart
    obtain ⟨hr', rfl⟩ := List.getElem?_eq_some_iff.1 hstop
    rw [h.startLoc_eq] at hle hlt
    exact ⟨by omega, by exact_mod_cast hle, by exact_mod_cast hlt⟩
  · rintro ⟨hr, hle, hlt⟩
    have hr' : r + 1 < queryStartLoc.length := by omega
    refine ⟨_, _, List.getElem?_eq_getElem (Nat.lt_of_succ_lt hr'), List.getElem?_eq_getElem hr',
      ?_, ?_⟩
    · rw [h.startLoc_eq]
      exact_mod_cast hle
    · rw [h.startLoc_eq]
      exact_mod_cast hlt

theorem existsUnique_owner {i : ℕ} (hi : i < numTokens) : ∃! r, Owner queryStartLoc i r := by
  obtain ⟨r, hr, hown⟩ := h.offsets.exists_owner (n := queryStartLoc.length - 1)
    (hi.trans_le h.start_last.ge)
  exact ⟨r, h.owner_iff.2 ⟨hr, hown⟩, fun r' hr' =>
    Offsets.owner_unique (h.owner_iff.1 hr').2 hown⟩

theorem written_token {i r : ℕ} {p : ℤ} (hr : Owner queryStartLoc i r)
    (hp : positions[i]? = some p) :
    (h.written (queryStartLoc.length - 1))[i]? = some (slot blockTable blockSize r p) := by
  obtain ⟨hlt, hown⟩ := h.owner_iff.1 hr
  have hi : i < h.offsets.start (queryStartLoc.length - 1) :=
    hown.2.trans_le (h.offsets.mono hlt)
  have hle : h.offsets.start (queryStartLoc.length - 1) ≤ positions.length :=
    h.start_last.le.trans h.tokens
  rw [written, List.getElem?_append_left (by rw [h.length_slots (Nat.le_refl _)]; exact hi),
    getElem?_flatMap_segment _ hle hlt hown, hp, Option.map_some]

theorem written_rest {i : ℕ} (hi : numTokens ≤ i) :
    (h.written (queryStartLoc.length - 1))[i]? = slotMapping[i]? := by
  have hlen := h.length_slots (Nat.le_refl (queryStartLoc.length - 1))
  rw [h.start_last] at hlen
  rw [written, List.getElem?_append_right (hlen.le.trans hi), hlen, List.getElem?_drop,
    h.start_last, Nat.add_sub_cancel' hi]

omit h in
theorem block_of_slot {b b' p q : ℤ} (hpos : 0 < blockSize)
    (heq : b * blockSize + p % blockSize = b' * blockSize + q % blockSize) :
    b = b' ∧ p % blockSize = q % blockSize := by
  have hmod := congrArg (· % blockSize) heq
  simp only [Int.mul_add_emod_self_right, Int.emod_emod] at hmod
  rw [hmod, Int.add_left_inj] at heq
  exact ⟨Int.eq_of_mul_eq_mul_right hpos.ne' heq, hmod⟩

/-- **Distinct blocks and positions give distinct slots.** -/
theorem slots_nodup
    (hblocks : DistinctBlocks numTokens queryStartLoc positions blockTable blockSize)
    (hpositions : DistinctPositions numTokens queryStartLoc positions) {i j : ℕ}
    (hi : i < numTokens) (hj : j < numTokens)
    (hij : (h.written (queryStartLoc.length - 1))[i]? =
      (h.written (queryStartLoc.length - 1))[j]?) : i = j := by
  obtain ⟨r, hr, -⟩ := h.existsUnique_owner hi
  obtain ⟨s, hs, -⟩ := h.existsUnique_owner hj
  obtain ⟨p, hp⟩ : ∃ p, positions[i]? = some p :=
    ⟨_, List.getElem?_eq_getElem (hi.trans_le h.tokens)⟩
  obtain ⟨q, hq⟩ : ∃ q, positions[j]? = some q :=
    ⟨_, List.getElem?_eq_getElem (hj.trans_le h.tokens)⟩
  rw [h.written_token hr hp, h.written_token hs hq, Option.some.injEq] at hij
  obtain ⟨hentry, hmod⟩ := block_of_slot h.blockSize_pos hij
  obtain ⟨rfl, hdiv⟩ := hblocks r _ s _ ⟨i, hi, _, hr, hp, rfl⟩ ⟨j, hj, _, hs, hq, rfl⟩ hentry
  refine hpositions i hi j hj r hr hs ?_
  rw [hp, hq, ← Int.ediv_mul_add_emod p blockSize, hdiv, hmod, Int.ediv_mul_add_emod]

end Batch

/-- **The vectorised mapping is the loop**: both give every token the slot of its position in the
blocks of its owner and leave the other entries as they are. -/
theorem computeSlotMapping_spec {numTokens : ℕ} {queryStartLoc positions : List ℤ}
    {blockTable : IntTable} {blockSize : ℤ} {slotMapping : List ℤ}
    (h : Batch numTokens queryStartLoc positions blockTable blockSize slotMapping) :
    ∃ slots,
      computeSlotMapping numTokens queryStartLoc positions blockTable blockSize slotMapping 1 =
        .ok slots ∧
      referenceComputeSlotMappingLoop queryStartLoc positions blockTable blockSize slotMapping =
        .ok slots ∧
      slots.length = slotMapping.length ∧
      (∀ i < numTokens, ∃! r, Owner queryStartLoc i r) ∧
      (∀ i r p, Owner queryStartLoc i r → positions[i]? = some p →
        slots[i]? = some (entry blockTable r (p / blockSize) * blockSize + p % blockSize)) ∧
      (∀ i, numTokens ≤ i → slots[i]? = slotMapping[i]?) ∧
      (DistinctBlocks numTokens queryStartLoc positions blockTable blockSize →
        DistinctPositions numTokens queryStartLoc positions →
        ∀ i < numTokens, ∀ j < numTokens, slots[i]? = slots[j]? → i = j) :=
  ⟨h.written (queryStartLoc.length - 1), h.computeSlotMapping_eq, h.referenceLoop_eq,
    h.length_written (Nat.le_refl _), fun _ hi => h.existsUnique_owner hi,
    fun _ _ _ hr hp => h.written_token hr hp, fun _ hi => h.written_rest hi,
    fun hblocks hpositions _ hi _ hj => h.slots_nodup hblocks hpositions hi hj⟩

/-- Three requests, the second of them without tokens. -/
def smallTable : IntTable := ⟨[[7, 3], [0, 0], [5, 9]], 2, by decide⟩

theorem computeSlotMapping_spec_small :
    Batch 3 [0, 2, 2, 3] [3, 4, 1] smallTable 4 [-1, -1, -1, -1] ∧
    ∃ slots, computeSlotMapping 3 [0, 2, 2, 3] [3, 4, 1] smallTable 4 [-1, -1, -1, -1] 1 =
        .ok slots ∧
      referenceComputeSlotMappingLoop [0, 2, 2, 3] [3, 4, 1] smallTable 4 [-1, -1, -1, -1] =
        .ok slots := by
  have h : Batch 3 [0, 2, 2, 3] [3, 4, 1] smallTable 4 [-1, -1, -1, -1] :=
    ⟨rfl, by decide, rfl, by decide, by decide, by decide, by decide, by decide, by decide⟩
  obtain ⟨slots, hslots, hloop, -⟩ := computeSlotMapping_spec h
  exact ⟨h, slots, hslots, hloop⟩

end SlotMapping

end VllmVulkan
