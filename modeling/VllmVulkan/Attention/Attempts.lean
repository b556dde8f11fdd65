import VllmVulkan.Attention.Backend

/-!
# What each attempt does

One statement for each of the three attempts of a call: the condition on its inputs under which it
gets through `execute_batch`, and the state it leaves in either case.  The proofs about whole calls
use these and never look into the attempts again.

* `mirrorStores_eq_ok`, `decodeBatchSlots_eq_ok` : the accepted writes and decodes;
* `MergedRuns`, `WriteRuns`, `DecodeRuns` : an attempt gets through `execute_batch`;
* `tryWriteAndDecode_runs`, `tryWriteTokens_runs`, `tryDecode_eq_some` : what it does then.
-/

namespace VllmVulkan

namespace Attention

variable {V : Type}

/-! ### Accepted ops -/

theorem mirrorStores_eq_ok {L : VulkanPagedKVLayout} {slots : List ℤ} {kv : List V}
    {ss : List (ℕ × V)} : mirrorStores L slots kv = .ok ss ↔
      0 < kv.length ∧ slots.length = kv.length ∧
        (∀ s ∈ slots, 0 ≤ s ∧ s < L.capacityTokensPerLayer) ∧
        ss = (slots.map Int.toNat).zip kv := by
  simp only [mirrorStores, Py.bind_eq_ok, raiseIf_eq_ok, Py.pure_eq_ok, not_le,
    KvOps.slotMappingToU32_eq_ok, Tensor.ofList]
  constructor
  · rintro ⟨-, hpos, ids, ⟨hlen, hrange, rfl⟩, rfl⟩
    exact ⟨hpos, by simpa using hlen, hrange, rfl⟩
  · rintro ⟨hpos, hlen, hrange, rfl⟩
    exact ⟨(), hpos, _, ⟨by rw [hlen], hrange, rfl⟩, rfl⟩

/-- The blocks of a sequence of `n` tokens. -/
def blocksOf (bs : ℕ) (row : List ℤ) (n : ℕ) : List ℕ := (row.take (ceilDiv n bs)).map Int.toNat

/-- An accepted decode of `n` tokens reads their slots in the blocks of the row. -/
theorem decodeSlots_eq_ok {L : VulkanPagedKVLayout} {row : List ℤ} {n : ℕ} {slots : List ℕ} :
    decodeSlots L row n = .ok slots ↔
      0 < n ∧ n ≤ L.capacityTokensPerLayer ∧
        Entry.activeBlockIds row (ceilDiv n L.blockSize) L.numBlocks =
          some (blocksOf L.blockSize row n) ∧
        slots = (List.range n).map (slotAt L.blockSize (blocksOf L.blockSize row n)) := by
  have hblocks : (ceilDiv n L.blockSize ≤ row.length ∧
      ∀ b ∈ row.take (ceilDiv n L.blockSize), 0 ≤ b ∧ b < L.numBlocks) ↔
      Entry.activeBlockIds row (ceilDiv n L.blockSize) L.numBlocks =
        some (blocksOf L.blockSize row n) := by
    unfold Entry.activeBlockIds
    split_ifs with h₁ h₂
    · simp [h₁]
    · obtain ⟨b, hb, hbad⟩ := h₂
      refine ⟨fun h => ?_, by simp⟩
      have := h.2 b hb
      omega
    · refine ⟨fun _ => rfl, fun _ => ⟨not_lt.1 h₁, fun b hb => ?_⟩⟩
      by_contra hbad
      exact h₂ ⟨b, hb, by omega⟩
  rw [← hblocks]
  simp only [decodeSlots, Py.bind_eq_ok, raiseIf_eq_ok, Py.pure_eq_ok, not_le, gt_iff_lt, not_lt,
    KvOps.blockTableToU32_eq_ok, Tensor.ofList]
  constructor
  · rintro ⟨-, hpos, -, hcap, blocks, ⟨-, hlen, hrange, rfl⟩, rfl⟩
    exact ⟨hpos, hcap, ⟨hlen, hrange⟩, rfl⟩
  · rintro ⟨hpos, hcap, ⟨hlen, hrange⟩, rfl⟩
    exact ⟨(), hpos, (), hcap, _, ⟨rfl, hlen, hrange, rfl⟩, rfl⟩

/-- The slot of token `pos` of the sequence of a row of the block table. -/
def tableSlot (bs : ℕ) (row : List ℤ) (pos : ℕ) : Option ℤ :=
  row[pos / bs]?.map fun b => b * bs + (pos % bs : ℕ)

/-- In blocks that exist, the slot the block table gives to a token is the slot read for it. -/
theorem tableSlot_eq {bs n nb pos : ℕ} {row : List ℤ} (hbs : 0 < bs)
    (h : Entry.activeBlockIds row (ceilDiv n bs) nb = some (blocksOf bs row n)) (hpos : pos < n) :
    tableSlot bs row pos = some (slotAt bs (blocksOf bs row n) pos : ℤ) := by
  have hj : pos / bs < ceilDiv n bs := div_lt_ceilDiv hbs hpos
  unfold Entry.activeBlockIds at h
  split_ifs at h with h₁ h₂
  have hlen : pos / bs < row.length := lt_of_lt_of_le hj (not_lt.1 h₁)
  have hget : row[pos / bs]? = some row[pos / bs] := List.getElem?_eq_getElem hlen
  have hmem : row[pos / bs] ∈ row.take (ceilDiv n bs) :=
    List.mem_iff_getElem?.2 ⟨pos / bs, by rw [List.getElem?_take_of_lt hj, hget]⟩
  have hnonneg : 0 ≤ row[pos / bs] := by
    by_contra hneg
    exact h₂ ⟨_, hmem, .inl (by omega)⟩
  have hblock : (blocksOf bs row n).getD (pos / bs) 0 = row[pos / bs].toNat := by
    simp only [blocksOf, List.getD_eq_getElem?_getD, List.getElem?_map,
      List.getElem?_take_of_lt hj, hget, Option.map_some, Option.getD_some]
  rw [tableSlot, hget, Option.map_some, slotAt, hblock]
  rw [Nat.cast_add, Nat.cast_mul, Int.toNat_of_nonneg hnonneg]

/-- The slot of a token does not depend on how many tokens the blocks are taken for. -/
theorem slotAt_blocksOf {bs m n nb nb' pos : ℕ} {row : List ℤ} {blocks : List ℕ} (hbs : 0 < bs)
    (hm : Entry.activeBlockIds row (ceilDiv m bs) nb = some blocks)
    (hn : Entry.activeBlockIds row (ceilDiv n bs) nb' = some (blocksOf bs row n)) (hposm : pos < m)
    (hposn : pos < n) : slotAt bs blocks pos = slotAt bs (blocksOf bs row n) pos := by
  have hb : blocks = blocksOf bs row m := by
    unfold Entry.activeBlockIds at hm
    split_ifs at hm
    exact (Option.some.inj hm).symm
  rw [hb] at hm ⊢
  have hslot := (tableSlot_eq hbs hm hposm).symm.trans (tableSlot_eq hbs hn hposn)
  exact Int.ofNat.inj (Option.some.inj hslot)

theorem decodeBatchSlots_eq_ok {L : VulkanPagedKVLayout} {n : ℕ} {rows : List (List ℤ)}
    {ns : List ℕ} {reads : List (List ℕ)} : decodeBatchSlots L n rows ns = .ok reads ↔
      n = rows.length ∧ rows.length = ns.length ∧ 0 < n ∧
        List.Forall₂ (fun rn slots => decodeSlots L rn.1 rn.2 = .ok slots) (rows.zip ns) reads := by
  simp only [decodeBatchSlots, Py.bind_eq_ok, raiseIf_eq_ok, not_not, Py.mapM_eq_ok, and_assoc,
    exists_const, Nat.pos_iff_ne_zero]

theorem exists_decodeSlots {L : VulkanPagedKVLayout} {k : ℕ} {rows : List (List ℤ)}
    {ns : List ℕ} {reads : List (List ℕ)} (h : decodeBatchSlots L k rows ns = .ok reads) {i n : ℕ}
    (hi : ns[i]? = some n) : ∃ row, rows[i]? = some row ∧ ∃ req, decodeSlots L row n = .ok req := by
  obtain ⟨-, hlen, -, hall⟩ := decodeBatchSlots_eq_ok.1 h
  obtain ⟨hin, rfl⟩ := List.getElem?_eq_some_iff.1 hi
  have hir : i < rows.length := by omega
  have hiz : i < (rows.zip ns).length := by rw [List.length_zip]; omega
  have hir' : i < reads.length := hall.length_eq ▸ hiz
  exact ⟨rows[i], List.getElem?_eq_getElem hir, reads[i], by simpa using hall.get hiz hir'⟩

theorem exists_of_mem_decodeBatchSlots {L : VulkanPagedKVLayout} {k : ℕ} {rows : List (List ℤ)}
    {ns : List ℕ} {reads : List (List ℕ)} (h : decodeBatchSlots L k rows ns = .ok reads)
    {req : List ℕ} (hreq : req ∈ reads) :
    ∃ (i : ℕ) (row : List ℤ) (n : ℕ), rows[i]? = some row ∧ ns[i]? = some n ∧
      decodeSlots L row n = .ok req := by
  obtain ⟨-, -, -, hall⟩ := decodeBatchSlots_eq_ok.1 h
  obtain ⟨i, hi, rfl⟩ := List.mem_iff_getElem.1 hreq
  have hlen := hall.length_eq
  have hget := hall.get (hlen ▸ hi) hi
  rw [List.length_zip] at hlen
  have hr : i < rows.length := by omega
  have hn : i < ns.length := by omega
  exact ⟨i, rows[i], ns[i], List.getElem?_eq_getElem hr, List.getElem?_eq_getElem hn,
    by simpa using hget⟩

theorem mergedOps_eq_ok {L : VulkanPagedKVLayout} {slots : List ℤ} {kv : List V} {n : ℕ}
    {rows : List (List ℤ)} {ns : List ℕ} {ss : List (ℕ × V)} {reads : List (List ℕ)} :
    mergedOps L slots kv n rows ns = .ok (ss, reads) ↔
      decodeBatchSlots L n rows ns = .ok reads ∧ mirrorStores L slots kv = .ok ss := by
  simp only [mergedOps, Py.bind_eq_ok, Py.pure_eq_ok, Prod.mk.injEq]
  constructor
  · rintro ⟨_, hreads, _, hss, rfl, rfl⟩
    exact ⟨hreads, hss⟩
  · rintro ⟨hreads, hss⟩
    exact ⟨_, hreads, _, hss, rfl, rfl⟩

/-! ### The separate write -/

/-- The separate write gets through `execute_batch`, storing `ss`. -/
structure WriteRuns (impl : Impl) (f : Faults) (L : VulkanPagedKVLayout) (kv : List V)
    (slotMapping : List ℤ) (n : ℕ) (ss : List (ℕ × V)) : Prop where
  pos : 0 < n
  dtype : impl.cacheDtype ≠ .other
  context : f.context = true
  prepare : f.prepare = false
  ops : mirrorStores L (slotMapping.take n) (kv.take n) = .ok ss
  execute : f.execute = false

section

variable {impl : Impl} {f : Faults} (st : State V) {kv : List V} {slotMapping : List ℤ} {n : ℕ}

theorem tryWriteTokens_runs {ss : List (ℕ × V)}
    (h : WriteRuns impl f st.entry.layout kv slotMapping n ss) :
    tryWriteTokens impl f st kv slotMapping n =
      { st with entry := (st.entry.store ss).mark (slotMapping.take n) } := by
  unfold tryWriteTokens
  rw [if_neg (by simpa [h.dtype] using h.pos.ne'), if_neg (by simp [h.context, h.prepare]), h.ops]
  simp [h.execute]

theorem tryWriteTokens_of_not (h : ∀ ss, ¬ WriteRuns impl f st.entry.layout kv slotMapping n ss) :
    tryWriteTokens impl f st kv slotMapping n = st := by
  unfold tryWriteTokens
  by_cases h₁ : n ≤ 0 ∨ impl.cacheDtype = .other
  · rw [if_pos h₁]
  by_cases h₂ : (!f.context || f.prepare) = true
  · rw [if_neg h₁, if_pos h₂]
  rw [if_neg h₁, if_neg h₂]
  cases hops : mirrorStores st.entry.layout (slotMapping.take n) (kv.take n) with
  | error e => rfl
  | ok ss =>
    have hexec : f.execute = true := by
      by_contra hexec
      simp only [not_or, not_le] at h₁
      simp only [Bool.or_eq_true, Bool.not_eq_true', not_or, Bool.not_eq_false,
        Bool.not_eq_true] at h₂ hexec
      exact h ss ⟨h₁.1, h₁.2, h₂.1, h₂.2, hops, hexec⟩
    simp only [hexec, if_true]

end

/-! ### The merged attempt -/

/-- The merged attempt gets through `execute_batch`, storing `ss` and reading `reads`. -/
structure MergedRuns (impl : Impl) (env : Env) (e : Entry V) (b : Batch V) (md : Metadata)
    (kv : List V) (n : ℕ) (ss : List (ℕ × V)) (reads : List (List ℕ)) : Prop where
  pos : 0 < n
  supports : supportsVulkanDecode impl b md n = true
  enabled : env.disableAttn = false
  context : env.merged.context = true
  prepare : env.merged.prepare = false
  history : e.SequencesWritten true (md.blockTable.take n) (md.seqLens.take n)
  ops : mergedOps e.layout (md.slotMapping.take n) (kv.take n) (min n b.numQueryRows)
    (md.blockTable.take n) (md.seqLens.take n) = .ok (ss, reads)
  execute : env.merged.execute = false

theorem hasSequences_ne_none {x : Bool} {e : Entry V} {rows : List (List ℤ)} {ns : List ℕ}
    (h : ns.length ≤ rows.length) : (Entry.hasSequences x e rows ns).1 ≠ none := by
  induction ns generalizing e rows with
  | nil => simp [Entry.hasSequences]
  | cons n ns ih =>
    obtain ⟨row, rows, rfl⟩ : ∃ row rows', rows = row :: rows' := by
      cases rows with
      | nil => simp at h
      | cons row rows => exact ⟨row, rows, rfl⟩
    have hlen : ns.length ≤ rows.length := by simpa using h
    unfold Entry.hasSequences
    by_cases hskip : x = true ∧ (if x = true then n - 1 else n) = 0
    · rw [if_pos hskip]
      exact ih hlen
    · rw [if_neg hskip]
      simp only
      split
      · simp
      · split
        · simp
        · exact ih hlen

section

variable {impl : Impl} {env : Env} (st : State V) {b : Batch V} {md : Metadata} {kv : List V}
  {n : ℕ}

/-- **The merged attempt, when it gets through.**  The mirror has the new tokens; unless copying
the outputs raises they are marked, and the decode read the mirror after the write. -/
theorem tryWriteAndDecode_runs {ss : List (ℕ × V)} {reads : List (List ℕ)}
    (h : MergedRuns impl env st.entry b md kv n ss reads) :
    (tryWriteAndDecode impl env st b md kv n).2.cpu = st.cpu ∧
    if env.merged.copy then
      (tryWriteAndDecode impl env st b md kv n).1 = none ∧
        Entry.SameSlots (st.entry.store ss) (tryWriteAndDecode impl env st b md kv n).2.entry
    else
      (tryWriteAndDecode impl env st b md kv n).1 =
          some (readSlots (Store.applyStores st.entry.mirror ss) reads) ∧
        Entry.SameSlots ((st.entry.store ss).mark (md.slotMapping.take n))
          (tryWriteAndDecode impl env st b md kv n).2.entry := by
  obtain ⟨hiff, hsame⟩ := Entry.hasSequences_iff true st.entry (md.blockTable.take n)
    (md.seqLens.take n)
  have hops := h.ops
  rw [← hsame.layout] at hops
  have hlen := (decodeBatchSlots_eq_ok.1 (mergedOps_eq_ok.1 h.ops).1).2.1
  have hstore : ∀ e', Entry.SameSlots st.entry e' → Entry.SameSlots (st.entry.store ss)
      (e'.store ss) := fun e' he => ⟨he.layout, by simp [he.mirror], he.writtenSlots⟩
  have hmark : ∀ e', Entry.SameSlots st.entry e' →
      Entry.SameSlots ((st.entry.store ss).mark (md.slotMapping.take n))
        ((e'.store ss).mark (md.slotMapping.take n)) := fun e' he =>
    ⟨he.layout, by simp [he.mirror], by simp only [Entry.mark, Entry.store, he.writtenSlots]⟩
  unfold tryWriteAndDecode
  rw [if_neg (by have := h.pos; omega), if_neg (by simp [h.supports]),
    if_neg (by simp [h.enabled]), if_neg (by simp [h.context, h.prepare])]
  simp only
  rw [if_neg (by simp [hiff.2 h.history]), hops]
  simp only [h.execute]
  cases hcopy : env.merged.copy with
  | true => exact ⟨rfl, rfl, hstore _ hsame⟩
  | false =>
    simp only [Bool.false_eq_true, if_false]
    rw [if_neg (hasSequences_ne_none hlen.ge)]
    have hre := (Entry.hasSequences_iff false
      (((Entry.hasSequences true st.entry (md.blockTable.take n) (md.seqLens.take n)).2.store
        ss).mark (md.slotMapping.take n)) (md.blockTable.take n) (md.seqLens.take n)).2
    refine ⟨rfl, ?_, (hmark _ hsame).trans hre⟩
    simp [hsame.mirror]

/-- The merged attempt, when it does not get through: only the memo may change. -/
theorem tryWriteAndDecode_of_not
    (h : ∀ ss reads, ¬ MergedRuns impl env st.entry b md kv n ss reads) :
    (tryWriteAndDecode impl env st b md kv n).1 = none ∧
      (tryWriteAndDecode impl env st b md kv n).2.cpu = st.cpu ∧
        Entry.SameSlots st.entry (tryWriteAndDecode impl env st b md kv n).2.entry := by
  obtain ⟨hiff, hsame⟩ := Entry.hasSequences_iff true st.entry (md.blockTable.take n)
    (md.seqLens.take n)
  unfold tryWriteAndDecode
  by_cases h₁ : n ≤ 0
  · rw [if_pos h₁]
    exact ⟨rfl, rfl, Entry.SameSlots.refl _⟩
  by_cases h₂ : (!supportsVulkanDecode impl b md n) = true
  · rw [if_neg h₁, if_pos h₂]
    exact ⟨rfl, rfl, Entry.SameSlots.refl _⟩
  by_cases h₃ : env.disableAttn = true
  · rw [if_neg h₁, if_neg h₂, if_pos h₃]
    exact ⟨rfl, rfl, Entry.SameSlots.refl _⟩
  by_cases h₄ : (!env.merged.context || env.merged.prepare) = true
  · rw [if_neg h₁, if_neg h₂, if_neg h₃, if_pos h₄]
    exact ⟨rfl, rfl, Entry.SameSlots.refl _⟩
  rw [if_neg h₁, if_neg h₂, if_neg h₃, if_neg h₄]
  by_cases h₅ : (Entry.hasSequences true st.entry (md.blockTable.take n)
      (md.seqLens.take n)).1 ≠ some true
  · simp only [if_pos h₅]
    exact ⟨trivial, trivial, hsame⟩
  simp only [if_neg h₅]
  split
  · exact ⟨rfl, rfl, hsame⟩
  · rename_i ss reads hops
    have hexec : env.merged.execute = true := by
      by_contra hexec
      simp only [Bool.or_eq_true, Bool.not_eq_true', not_or, Bool.not_eq_false,
        Bool.not_eq_true] at h₂ h₃ h₄ hexec
      rw [hsame.layout] at hops
      exact h ss reads ⟨not_le.1 h₁, h₂, h₃, h₄.1, h₄.2, hiff.1 (not_not.1 h₅), hops, hexec⟩
    rw [if_pos hexec]
    exact ⟨rfl, rfl, hsame⟩

/-! ### The separate decode -/

/-- The separate decode goes through, reading `reads`. -/
structure DecodeRuns (impl : Impl) (env : Env) (e : Entry V) (b : Batch V) (md : Metadata) (n : ℕ)
    (reads : List (List ℕ)) : Prop where
  enabled : env.disableAttn = false
  supports : supportsVulkanDecode impl b md n = true
  context : env.decode.context = true
  prepare : env.decode.prepare = false
  history : e.SequencesWritten false (md.blockTable.take n) (md.seqLens.take n)
  ops : decodeBatchSlots e.layout (min n b.numQueryRows) (md.blockTable.take n)
    (md.seqLens.take n) = .ok reads
  execute : env.decode.execute = false
  copy : env.decode.copy = false

variable {st}

theorem tryDecode_frame : (tryDecode impl env st b md n).2.cpu = st.cpu ∧
    Entry.SameSlots st.entry (tryDecode impl env st b md n).2.entry := by
  have hsame := (Entry.hasSequences_iff false st.entry (md.blockTable.take n)
    (md.seqLens.take n)).2
  unfold tryDecode
  iterate 3
    split
    · exact ⟨rfl, Entry.SameSlots.refl _⟩
  simp only
  split
  · exact ⟨rfl, hsame⟩
  · split
    · exact ⟨rfl, hsame⟩
    · split <;> exact ⟨rfl, hsame⟩

/-- **The separate decode, when it goes through**, reads the mirror. -/
theorem tryDecode_eq_some {vs : List (List (ℕ × V))} :
    (tryDecode impl env st b md n).1 = some vs ↔
      ∃ reads, DecodeRuns impl env st.entry b md n reads ∧
        vs = readSlots st.entry.mirror reads := by
  obtain ⟨hiff, hsame⟩ := Entry.hasSequences_iff false st.entry (md.blockTable.take n)
    (md.seqLens.take n)
  unfold tryDecode
  constructor
  · intro h
    -- the checks, in the order in which the attempt makes them
    by_cases h₁ : env.disableAttn = true
    · rw [if_pos h₁] at h
      cases h
    by_cases h₂ : (!supportsVulkanDecode impl b md n) = true
    · rw [if_neg h₁, if_pos h₂] at h
      cases h
    by_cases h₃ : (!env.decode.context || env.decode.prepare) = true
    · rw [if_neg h₁, if_neg h₂, if_pos h₃] at h
      cases h
    rw [if_neg h₁, if_neg h₂, if_neg h₃] at h
    by_cases h₄ : (Entry.hasSequences false st.entry (md.blockTable.take n)
        (md.seqLens.take n)).1 ≠ some true
    · simp only [if_pos h₄] at h
      cases h
    simp only [if_neg h₄] at h
    split at h
    · cases h
    · rename_i reads hops
      by_cases h₅ : (env.decode.execute || env.decode.copy) = true
      · rw [if_pos h₅] at h
        cases h
      rw [if_neg h₅] at h
      simp only [Bool.or_eq_true, Bool.not_eq_true', not_or, Bool.not_eq_false,
        Bool.not_eq_true] at h₁ h₂ h₃ h₅
      rw [hsame.layout] at hops
      refine ⟨reads, ⟨h₁, h₂, h₃.1, h₃.2, hiff.1 (not_not.1 h₄), hops, h₅.1, h₅.2⟩, ?_⟩
      rw [← Option.some.inj h, hsame.mirror]
  · rintro ⟨reads, h, rfl⟩
    have hops := h.ops
    rw [← hsame.layout] at hops
    rw [if_neg (by simp [h.enabled]), if_neg (by simp [h.supports]),
      if_neg (by simp [h.context, h.prepare])]
    simp only
    rw [if_neg (by simp [hiff.2 h.history]), hops]
    simp [h.execute, h.copy, hsame.mirror]

end

end Attention

end VllmVulkan
