import VllmVulkan.Attention.Mirror

/-!
# The merged write and decode

`forward` with the merged attempt against `forward` without it, from the same state and on the same
call.  The two agree whenever the attempt is refused, and whenever it goes through; what
distinguishes them is an attempt that has stored its tokens and is then refused, since copying the
outputs raised.

* `SameCaches` : two states with the same CPU cache, mirror and marks;
* `finish_congr`, `tryWriteTokens_congr` : the rest of a call only depends on these;
* `MergedInvisible` : the merged attempt is invisible, and a refused one changes nothing;
* `mergedInvisible_iff` : **the exact condition**.
-/

namespace VllmVulkan

namespace Attention

variable {V : Type}

/-! ### States that differ at most in the memo -/

namespace Entry

variable {e e' : Entry V}

theorem SameSlots.symm (h : SameSlots e e') : SameSlots e' e :=
  ⟨h.layout.symm, h.mirror.symm, h.writtenSlots.symm⟩

theorem SameSlots.store (h : SameSlots e e') (ss : List (ℕ × V)) :
    SameSlots (e.store ss) (e'.store ss) :=
  ⟨h.layout, by rw [store_mirror, store_mirror, h.mirror], h.writtenSlots⟩

theorem SameSlots.mark (h : SameSlots e e') (slots : List ℤ) :
    SameSlots (e.mark slots) (e'.mark slots) :=
  ⟨h.layout, h.mirror, congrArg (markSlots · slots) h.writtenSlots⟩

end Entry

/-- The CPU cache, the mirror and the marks are the same. -/
structure SameCaches (st st' : State V) : Prop where
  cpu : st'.cpu = st.cpu
  entry : Entry.SameSlots st.entry st'.entry

theorem SameCaches.refl (st : State V) : SameCaches st st := ⟨rfl, Entry.SameSlots.refl _⟩

theorem SameCaches.symm {st st' : State V} (h : SameCaches st st') : SameCaches st' st :=
  ⟨h.cpu.symm, h.entry.symm⟩

theorem SameCaches.trans {st st' st'' : State V} (h : SameCaches st st')
    (h' : SameCaches st' st'') : SameCaches st st'' :=
  ⟨h'.cpu.trans h.cpu, h.entry.trans h'.entry⟩

section

variable {impl : Impl} {env : Env} {f : Faults} {st st' : State V} {b : Batch V} {md : Metadata}
  {kv : List V} {slotMapping : List ℤ} {n : ℕ}

theorem tryWriteTokens_congr (h : SameCaches st st') :
    SameCaches (tryWriteTokens impl f st kv slotMapping n)
      (tryWriteTokens impl f st' kv slotMapping n) := by
  by_cases hruns : ∃ ss, WriteRuns impl f st.entry.layout kv slotMapping n ss
  · obtain ⟨ss, hruns⟩ := hruns
    have hruns' : WriteRuns impl f st'.entry.layout kv slotMapping n ss := by
      rw [h.entry.layout]
      exact hruns
    rw [tryWriteTokens_runs st hruns, tryWriteTokens_runs st' hruns']
    exact ⟨h.cpu, (h.entry.store ss).mark _⟩
  · have hruns' : ∀ ss, ¬ WriteRuns impl f st'.entry.layout kv slotMapping n ss := by
      intro ss h'
      rw [h.entry.layout] at h'
      exact hruns ⟨ss, h'⟩
    rw [tryWriteTokens_of_not st fun ss h' => hruns ⟨ss, h'⟩, tryWriteTokens_of_not st' hruns']
    exact h

theorem decodeRuns_congr {e e' : Entry V} (h : Entry.SameSlots e e') {reads : List (List ℕ)} :
    DecodeRuns impl env e' b md n reads ↔ DecodeRuns impl env e b md n reads := by
  constructor
  · rintro ⟨h₁, h₂, h₃, h₄, h₅, h₆, h₇, h₈⟩
    exact ⟨h₁, h₂, h₃, h₄, h.sequencesWritten.1 h₅, by rwa [← h.layout], h₇, h₈⟩
  · rintro ⟨h₁, h₂, h₃, h₄, h₅, h₆, h₇, h₈⟩
    exact ⟨h₁, h₂, h₃, h₄, h.sequencesWritten.2 h₅, by rwa [h.layout], h₇, h₈⟩

theorem tryDecode_congr (h : SameCaches st st') :
    (tryDecode impl env st' b md n).1 = (tryDecode impl env st b md n).1 := by
  apply Option.ext
  intro vs
  rw [tryDecode_eq_some, tryDecode_eq_some]
  simp only [decodeRuns_congr h.entry, h.entry.mirror]

/-- The part of a call after the writes only depends on the CPU cache, the mirror and the marks. -/
theorem finish_congr (h : SameCaches st st') :
    SameCaches (finish impl env st b md).1 (finish impl env st' b md).1 ∧
      (finish impl env st' b md).2 = (finish impl env st b md).2 := by
  have hdec : ∀ n,
      SameCaches (tryDecode impl env st b md n).2 (tryDecode impl env st' b md n).2 := by
    intro n
    have h₁ : SameCaches st (tryDecode impl env st b md n).2 :=
      ⟨tryDecode_frame.1, tryDecode_frame.2⟩
    have h₂ : SameCaches st' (tryDecode impl env st' b md n).2 :=
      ⟨tryDecode_frame.1, tryDecode_frame.2⟩
    exact h₁.symm.trans (h.trans h₂)
  unfold finish
  by_cases hassert : md.useSdpaPrefill = true ∧ impl.sinks = true
  · rw [if_pos hassert, if_pos hassert]
    exact ⟨h, rfl⟩
  rw [if_neg hassert, if_neg hassert]
  cases hsdpa : md.useSdpaPrefill with
  | true =>
    simp only [if_true]
    split_ifs
    · exact ⟨h, by rw [h.cpu]⟩
    · exact ⟨h, rfl⟩
  | false =>
    simp only [Bool.false_eq_true, if_false]
    split_ifs
    · rw [tryDecode_congr h]
      cases (tryDecode impl env st b md md.numActualTokens).1 with
      | none => exact ⟨hdec _, by simp only [(hdec md.numActualTokens).cpu]⟩
      | some reads => exact ⟨hdec _, rfl⟩
    · exact ⟨h, rfl⟩

end

/-! ### The condition -/

/-- The slots of the batch are pairwise distinct, and each is the block-table slot of the last
token of its request. -/
structure DecodeSlots (bs : ℕ) (md : Metadata) : Prop where
  nodup : (md.slotMapping.take md.numActualTokens).Nodup
  last : ∀ (i : ℕ) (row : List ℤ) (n : ℕ), i < md.numActualTokens → md.blockTable[i]? = some row →
    md.seqLens[i]? = some n → ∃ s, md.slotMapping[i]? = some s ∧
      tableSlot bs row (n - 1) = some s

/-- The attempt as `forward` makes it, after the CPU write. -/
def attempt (impl : Impl) (st : State V) (b : Batch V) (env : Env) (md : Metadata) (kv : List V) :
    Option (List (List (ℕ × V))) × State V :=
  tryWriteAndDecode impl env
    { st with cpu := Store.applyStores st.cpu (cpuStores md.slotMapping kv) } b md kv
    md.numActualTokens

/-- Only the merged attempt fails on its own: where the environment spares it, it spares the
separate write and decode. -/
def FaultsShared (env : Env) : Prop :=
  env.merged = noFaults → env.write = noFaults ∧ env.decode = noFaults

/-- The merged attempt is invisible on a call. -/
structure MergedInvisible (impl : Impl) (st : State V) (b : Batch V) (env : Env) : Prop where
  /-- With slots as a decode batch has them, the call does the same without the attempt. -/
  same : (∀ md, b.metadata = some md → DecodeSlots st.entry.layout.blockSize md) →
    FaultsShared env →
    SameCaches (forward impl st (b, env)).1 (forwardWith false impl st (b, env)).1 ∧
      (forwardWith false impl st (b, env)).2 = (forward impl st (b, env)).2
  /-- An attempt that is refused leaves the mirror and the marks as they were. -/
  untouched : ∀ md kv, WritesCaches impl b md kv → md.useSdpaPrefill = false →
    (attempt impl st b env md kv).1 = none →
      (attempt impl st b env md kv).2.entry.mirror = st.entry.mirror ∧
        (attempt impl st b env md kv).2.entry.writtenSlots = st.entry.writtenSlots

/-- The attempt stores its tokens, changing the mirror, and then copying the outputs raises. -/
def StoresThenRaises (impl : Impl) (st : State V) (b : Batch V) (env : Env) : Prop :=
  ∃ md kv ss reads, WritesCaches impl b md kv ∧ md.useSdpaPrefill = false ∧
    MergedRuns impl env st.entry b md kv md.numActualTokens ss reads ∧ env.merged.copy = true ∧
    Store.applyStores st.entry.mirror ss ≠ st.entry.mirror

/-! ### An attempt that is refused, and one that goes through -/

section

variable {impl : Impl} {env : Env} {st : State V} {b : Batch V} {md : Metadata} {kv : List V}

/-- A refused attempt leaves the caches as the CPU write left them, unless it stored before. -/
theorem attempt_refused (hw : WritesCaches impl b md kv) (hsdpa : md.useSdpaPrefill = false)
    (hnot : ¬ StoresThenRaises impl st b env) (hnone : (attempt impl st b env md kv).1 = none) :
    SameCaches { st with cpu := Store.applyStores st.cpu (cpuStores md.slotMapping kv) }
      (attempt impl st b env md kv).2 := by
  unfold attempt at hnone ⊢
  set st₀ : State V := { st with cpu := Store.applyStores st.cpu (cpuStores md.slotMapping kv) }
  by_cases hruns : ∃ ss reads, MergedRuns impl env st.entry b md kv md.numActualTokens ss reads
  · obtain ⟨ss, reads, hruns⟩ := hruns
    obtain ⟨hcpu, hres⟩ := tryWriteAndDecode_runs st₀ hruns
    cases hcopy : env.merged.copy with
    | true =>
      rw [if_pos hcopy] at hres
      have hsame : Store.applyStores st.entry.mirror ss = st.entry.mirror := by
        by_contra hne
        exact hnot ⟨md, kv, ss, reads, hw, hsdpa, hruns, hcopy, hne⟩
      exact ⟨hcpu, hres.2.layout, hres.2.mirror.trans hsame, hres.2.writtenSlots⟩
    | false =>
      rw [if_neg (by simp [hcopy]), hnone] at hres
      cases hres.1
  · obtain ⟨-, hcpu, hsame⟩ := tryWriteAndDecode_of_not st₀
      fun ss reads h => hruns ⟨ss, reads, h⟩
    exact ⟨hcpu, hsame⟩

theorem attempt_some {vs : List (List (ℕ × V))} (h : (attempt impl st b env md kv).1 = some vs) :
    ∃ ss reads, MergedRuns impl env st.entry b md kv md.numActualTokens ss reads ∧
      env.merged.copy = false ∧ vs = readSlots (Store.applyStores st.entry.mirror ss) reads ∧
      SameCaches ⟨Store.applyStores st.cpu (cpuStores md.slotMapping kv),
        (st.entry.store ss).mark (md.slotMapping.take md.numActualTokens)⟩
        (attempt impl st b env md kv).2 := by
  unfold attempt at h ⊢
  set st₀ : State V := { st with cpu := Store.applyStores st.cpu (cpuStores md.slotMapping kv) }
  by_cases hruns : ∃ ss reads, MergedRuns impl env st.entry b md kv md.numActualTokens ss reads
  · obtain ⟨ss, reads, hruns⟩ := hruns
    obtain ⟨hcpu, hres⟩ := tryWriteAndDecode_runs st₀ hruns
    cases hcopy : env.merged.copy with
    | true =>
      rw [if_pos hcopy, h] at hres
      cases hres.1
    | false =>
      rw [if_neg (by simp [hcopy]), h] at hres
      exact ⟨ss, reads, hruns, rfl, Option.some.inj hres.1, hcpu, hres.2⟩
  · have hnone := (tryWriteAndDecode_of_not st₀ fun ss reads h => hruns ⟨ss, reads, h⟩).1
    rw [h] at hnone
    cases hnone

/-- After the write of an attempt that goes through, the whole sequences are marked. -/
theorem MergedRuns.history_after {n : ℕ} {ss : List (ℕ × V)} {reads : List (List ℕ)} {e : Entry V}
    (h : MergedRuns impl env e b md kv n ss reads) (hn : n = md.numActualTokens)
    (hslots : DecodeSlots e.layout.blockSize md) :
    ((e.store ss).mark (md.slotMapping.take n)).SequencesWritten false (md.blockTable.take n)
      (md.seqLens.take n) := by
  intro i len hi _
  obtain ⟨hdec, hss⟩ := mergedOps_eq_ok.1 h.ops
  obtain ⟨row, hrow, req, hreq⟩ := exists_decodeSlots hdec hi
  obtain ⟨-, -, hblocks, -⟩ := decodeSlots_eq_ok.1 hreq
  have hlt : i < n := by
    by_contra hlt
    rw [List.getElem?_take, if_neg hlt] at hi
    cases hi
  simp only [Bool.false_eq_true, if_false]
  refine ⟨row, hrow, _, hblocks, fun pos hpos => ?_⟩
  rw [Entry.mark_marked]
  by_cases hlast : pos = len - 1
  · -- the token of this step: its slot is among the slots written
    rw [List.getElem?_take_of_lt hlt] at hi hrow
    obtain ⟨s, hs, htable⟩ := hslots.last i row len (hn ▸ hlt) hrow hi
    have hslot := tableSlot_eq e.blockSize_pos hblocks hpos
    rw [hlast, htable] at hslot
    have hmem : s ∈ md.slotMapping.take n :=
      List.mem_iff_getElem?.2 ⟨i, by rw [List.getElem?_take_of_lt hlt, hs]⟩
    obtain ⟨-, -, hrange, -⟩ := mirrorStores_eq_ok.1 hss
    have hcap := (hrange s hmem).2
    rw [Option.some.inj hslot] at hmem hcap
    rw [hlast]
    exact .inr ⟨Int.ofNat_lt.1 hcap, hmem⟩
  · left
    obtain ⟨row', hrow', blocks, hblocks', hmark⟩ := h.history i len hi fun _ => by omega
    obtain rfl := Option.some.inj (hrow.symm.trans hrow')
    simp only [if_true] at hblocks' hmark
    show e.Marked (slotAt e.layout.blockSize (blocksOf e.layout.blockSize row len) pos)
    rw [← slotAt_blocksOf e.blockSize_pos hblocks' hblocks (show pos < len - 1 by omega) hpos]
    exact hmark pos (by omega)

end

/-! ### Whole calls -/

section

variable {impl : Impl} {env : Env} {st : State V} {b : Batch V} {md : Metadata} {kv : List V}

theorem forwardWith_of_not_writes (h : ¬ ∃ md kv, WritesCaches impl b md kv) (t : Bool) :
    forwardWith t impl st (b, env) = forward impl st (b, env) := by
  unfold forward
  cases hmd : b.metadata with
  | none => simp only [forwardWith, hmd]
  | some md =>
    by_cases hattn : impl.attnType = .encoderOnly ∨ impl.attnType = .encoder
    · simp only [forwardWith, hmd, if_pos hattn]
    simp only [forwardWith, hmd, if_neg hattn]
    split
    · rename_i kv hkv hshare
      exact absurd ⟨md, kv, hmd, hattn, hkv, hshare⟩ h
    · rfl

theorem forwardWith_false (hw : WritesCaches impl b md kv) : forwardWith false impl st (b, env) =
    finish impl env (tryWriteTokens impl env.write
      { st with cpu := Store.applyStores st.cpu (cpuStores md.slotMapping kv) } kv md.slotMapping
      md.numActualTokens) b md := by
  unfold forwardWith
  simp only [hw.metadata, hw.decoder, hw.kv, hw.unshared, if_false, Bool.false_and,
    Bool.false_eq_true]

theorem forward_eq (hw : WritesCaches impl b md kv) : forward impl st (b, env) =
    if md.useSdpaPrefill then forwardWith false impl st (b, env)
    else
      match (attempt impl st b env md kv).1 with
      | some reads => ((attempt impl st b env md kv).2, some [.vulkan reads])
      | none => finish impl env (tryWriteTokens impl env.write (attempt impl st b env md kv).2 kv
          md.slotMapping md.numActualTokens) b md := by
  rw [forwardWith_false hw]
  unfold forward forwardWith attempt
  simp only [hw.metadata, hw.decoder, hw.kv, hw.unshared, if_false, Bool.true_and]
  cases md.useSdpaPrefill with
  | true => simp only [Bool.not_true, Bool.false_eq_true, if_false, if_true]
  | false => rfl

/-- Where the attempt goes through and the environment spares the separate write and decode, they
do the same. -/
theorem forwardWith_false_of_merged (hw : WritesCaches impl b md kv)
    (hsdpa : md.useSdpaPrefill = false) (hslots : DecodeSlots st.entry.layout.blockSize md)
    (hshared : FaultsShared env) {ss : List (ℕ × V)} {ids : List (List ℕ)}
    (hruns : MergedRuns impl env st.entry b md kv md.numActualTokens ss ids)
    (hcopy : env.merged.copy = false) :
    SameCaches ⟨Store.applyStores st.cpu (cpuStores md.slotMapping kv),
        (st.entry.store ss).mark (md.slotMapping.take md.numActualTokens)⟩
        (forwardWith false impl st (b, env)).1 ∧
      (forwardWith false impl st (b, env)).2 =
        some [.vulkan (readSlots (Store.applyStores st.entry.mirror ss) ids)] := by
  have hmerged : env.merged = noFaults := by
    rcases hm : env.merged with ⟨c, p, e, o⟩
    obtain rfl : c = true := by simpa [hm] using hruns.context
    obtain rfl : p = false := by simpa [hm] using hruns.prepare
    obtain rfl : e = false := by simpa [hm] using hruns.execute
    obtain rfl : o = false := by simpa [hm] using hcopy
    rfl
  obtain ⟨hwrite, hdecode⟩ := hshared hmerged
  obtain ⟨hops, hss⟩ := mergedOps_eq_ok.1 hruns.ops
  have hdtype : impl.cacheDtype ≠ .other := by
    intro h
    have hsup := hruns.supports
    simp [supportsVulkanDecode, h] at hsup
  have hwruns : WriteRuns impl env.write st.entry.layout kv md.slotMapping md.numActualTokens ss :=
    ⟨hruns.pos, hdtype, by rw [hwrite]; rfl, by rw [hwrite]; rfl, hss, by rw [hwrite]; rfl⟩
  -- the state after the separate write, which the separate decode then finds
  set st₁ : State V := ⟨Store.applyStores st.cpu (cpuStores md.slotMapping kv),
    (st.entry.store ss).mark (md.slotMapping.take md.numActualTokens)⟩ with hst₁
  have hdruns : DecodeRuns impl env st₁.entry b md md.numActualTokens ids :=
    ⟨hruns.enabled, hruns.supports, by rw [hdecode]; rfl, by rw [hdecode]; rfl,
      hruns.history_after rfl hslots, hops, by rw [hdecode]; rfl, by rw [hdecode]; rfl⟩
  have hdec : (tryDecode impl env st₁ b md md.numActualTokens).1 =
      some (readSlots (Store.applyStores st.entry.mirror ss) ids) :=
    tryDecode_eq_some.2 ⟨ids, hdruns, rfl⟩
  have hfinish : finish impl env st₁ b md = ((tryDecode impl env st₁ b md md.numActualTokens).2,
      some [.vulkan (readSlots (Store.applyStores st.entry.mirror ss) ids)]) := by
    unfold finish
    simp only [hsdpa, Bool.false_eq_true, if_false, false_and, hruns.pos, if_true, hdec,
      List.nil_append]
  have hwrite' := tryWriteTokens_runs
    { st with cpu := Store.applyStores st.cpu (cpuStores md.slotMapping kv) } hwruns
  rw [forwardWith_false hw, hwrite', ← hst₁, hfinish]
  exact ⟨⟨tryDecode_frame.1, tryDecode_frame.2⟩, rfl⟩

/-- **The merged path is invisible exactly when it never stores and is refused after.** -/
theorem mergedInvisible_iff (impl : Impl) (st : State V) (b : Batch V) (env : Env) :
    MergedInvisible impl st b env ↔ ¬ StoresThenRaises impl st b env := by
  constructor
  · rintro h ⟨md, kv, ss, reads, hw, hsdpa, hruns, hcopy, hne⟩
    obtain ⟨-, hres⟩ := tryWriteAndDecode_runs
      { st with cpu := Store.applyStores st.cpu (cpuStores md.slotMapping kv) } hruns
    rw [if_pos hcopy] at hres
    have hmirror := (h.untouched md kv hw hsdpa hres.1).1
    exact hne (hres.2.mirror.symm.trans hmirror)
  · intro hnot
    constructor
    · intro hslots hshared
      by_cases hw : ∃ md kv, WritesCaches impl b md kv
      · obtain ⟨md, kv, hw⟩ := hw
        rw [forward_eq hw]
        cases hsdpa : md.useSdpaPrefill with
        | true => exact ⟨SameCaches.refl _, rfl⟩
        | false =>
          simp only [Bool.false_eq_true, if_false]
          cases hatt : (attempt impl st b env md kv).1 with
          | none =>
            have hsame := attempt_refused hw hsdpa hnot hatt
            rw [forwardWith_false hw]
            exact finish_congr (tryWriteTokens_congr hsame).symm
          | some reads =>
            obtain ⟨ss, ids, hruns, hcopy, rfl, hsame⟩ := attempt_some hatt
            obtain ⟨hcaches, hout⟩ := forwardWith_false_of_merged hw hsdpa (hslots md hw.metadata)
              hshared hruns hcopy
            exact ⟨hsame.symm.trans hcaches, hout⟩
      · rw [forwardWith_of_not_writes hw]
        exact ⟨SameCaches.refl _, rfl⟩
    · intro md kv hw hsdpa hnone
      have hsame := attempt_refused hw hsdpa hnot hnone
      exact ⟨hsame.entry.mirror, hsame.entry.writtenSlots⟩

end

/-- **An attempt that stores and then raises.**  Copying the outputs raises, the attempt returns
`False`, and the mirror has changed. -/
theorem stored_before_false : ¬ MergedInvisible plainImpl (State.fresh oneLayerLayout 0 fun _ => 0)
    (decodeCall 0 1 noFaultsEnv).1
    { noFaultsEnv with merged := { noFaults with copy := true } } := by
  intro h
  have hmirror := (h.untouched _ _ ⟨rfl, by decide, rfl, rfl⟩ rfl rfl).1
  exact absurd (congrFun hmirror 0) (by decide)

end Attention

end VllmVulkan
