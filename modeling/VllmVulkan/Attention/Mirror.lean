import VllmVulkan.Attention.Attempts

/-!
# Coherence of the mirror

Over a run of `forward` calls on one layer, what a Vulkan decode reads should be what the CPU cache
holds.  The bitmap of written slots is only ever set, so this fails once a slot that the mirror
holds is written again on the CPU without being mirrored.

* `Coherent` : every marked slot of the mirror holds what the CPU cache holds;
* `KeepsMirror` : the condition on a call, in the state before it: no token that stays out of the
  mirror goes to a slot the mirror holds, and a merged decode writes the last token of each request;
* `coherent_forward` : **the invariant**: such a call keeps the mirror coherent;
* `decode_reads_cpu` : **coherence over runs**;
* `stale_decode` : a run in which a token is not mirrored and a later decode reads the stale slot.
-/

namespace VllmVulkan

namespace Attention

open Machine

variable {V : Type}

/-- Every marked slot of the mirror holds what the CPU cache holds. -/
def Coherent (st : State V) : Prop := ∀ i, st.entry.Marked i → st.entry.mirror i = st.cpu i

/-- The new tokens of a call reach the mirror, in the merged submission or in the separate one. -/
def MirrorsTokens (impl : Impl) (st : State V) (b : Batch V) (env : Env) (md : Metadata)
    (kv : List V) : Prop :=
  (md.useSdpaPrefill = false ∧
    ∃ ss reads, MergedRuns impl env st.entry b md kv md.numActualTokens ss reads) ∨
  ∃ ss, WriteRuns impl env.write st.entry.layout kv md.slotMapping md.numActualTokens ss

/-- The call writes the caches. -/
structure WritesCaches (impl : Impl) (b : Batch V) (md : Metadata) (kv : List V) : Prop where
  metadata : b.metadata = some md
  decoder : ¬ (impl.attnType = .encoderOnly ∨ impl.attnType = .encoder)
  kv : b.kv = some kv
  unshared : impl.kvSharingTargetLayerName = none

/-- The condition on a call, in the state before it. -/
structure KeepsMirror (impl : Impl) (st : State V) (call : Batch V × Env) : Prop where
  /-- A token that stays out of the mirror goes to a slot that is neither marked nor mirrored by
  this call. -/
  overwritten : ∀ md kv, WritesCaches impl call.1 md kv → ∀ (i : ℕ) (s : ℤ),
    md.slotMapping[i]? = some s → i < kv.length → 0 ≤ s →
    ¬ (MirrorsTokens impl st call.1 call.2 md kv ∧ i < md.numActualTokens) →
      ¬ st.entry.Marked s.toNat ∧
        ¬ (MirrorsTokens impl st call.1 call.2 md kv ∧ s ∈ md.slotMapping.take md.numActualTokens)
  /-- The last token of a request of a merged decode is marked or written by this call. -/
  current : ∀ md kv, WritesCaches impl call.1 md kv → md.useSdpaPrefill = false → ∀ ss reads,
    MergedRuns impl call.2 st.entry call.1 md kv md.numActualTokens ss reads →
    ∀ (i : ℕ) (row : List ℤ) (n : ℕ) (s : ℤ), i < md.numActualTokens →
      md.blockTable[i]? = some row →
      md.seqLens[i]? = some n → tableSlot st.entry.layout.blockSize row (n - 1) = some s →
      st.entry.Marked s.toNat ∨ s ∈ md.slotMapping.take md.numActualTokens

/-! ### The CPU write -/

theorem mem_cpuStores {slots : List ℤ} {kv : List V} {i : ℕ}
    (h : i ∈ (cpuStores slots kv).map Prod.fst) :
    ∃ (j : ℕ) (s : ℤ), slots[j]? = some s ∧ j < kv.length ∧ 0 ≤ s ∧ i = s.toNat := by
  obtain ⟨_, hp, rfl⟩ := List.mem_map.1 h
  obtain ⟨⟨s, v⟩, hsv, rfl⟩ := List.mem_map.1 hp
  obtain ⟨hmem, hs⟩ := List.mem_filter.1 hsv
  obtain ⟨j, hj, hget⟩ := List.mem_iff_getElem.1 hmem
  rw [List.length_zip] at hj
  rw [List.getElem_zip, Prod.mk.injEq] at hget
  refine ⟨j, s, ?_, by omega, by simpa using hs, rfl⟩
  rw [List.getElem?_eq_getElem (by omega), hget.1]

/-- The CPU write of tokens with valid slots stores what the mirror write stores, then the rest. -/
theorem cpuStores_eq {slots : List ℤ} {kv : List V} (n : ℕ)
    (hlen : (slots.take n).length = (kv.take n).length) (hs : ∀ s ∈ slots.take n, 0 ≤ s) :
    cpuStores slots kv =
      ((slots.take n).map Int.toNat).zip (kv.take n) ++ cpuStores (slots.drop n) (kv.drop n) := by
  have hzip : slots.zip kv = (slots.take n).zip (kv.take n) ++ (slots.drop n).zip (kv.drop n) := by
    rw [← List.zip_append hlen, List.take_append_drop, List.take_append_drop]
  have hall : ((slots.take n).zip (kv.take n)).filter (fun sv => decide (0 ≤ sv.1)) =
      (slots.take n).zip (kv.take n) :=
    List.filter_eq_self.2 fun sv hsv => by simpa using hs sv.1 (List.of_mem_zip hsv).1
  unfold cpuStores
  rw [hzip, List.filter_append, List.map_append, hall]
  congr 1
  rw [List.zip_map_left]
  rfl

theorem mem_zip_toNat {slots : List ℤ} {kv : List V} {i : ℕ} (hlen : slots.length = kv.length)
    (hs : ∀ s ∈ slots, 0 ≤ s) :
    i ∈ ((slots.map Int.toNat).zip kv).map Prod.fst ↔ (i : ℤ) ∈ slots := by
  rw [List.map_fst_zip (by rw [List.length_map, hlen]), List.mem_map]
  constructor
  · rintro ⟨s, hmem, rfl⟩
    rwa [Int.toNat_of_nonneg (hs s hmem)]
  · intro h
    exact ⟨i, h, rfl⟩

/-! ### What is read -/

theorem marked_of_decode {e : Entry V} {k : ℕ} {rows : List (List ℤ)} {ns : List ℕ}
    {reads : List (List ℕ)} (hops : decodeBatchSlots e.layout k rows ns = .ok reads)
    (hhist : e.SequencesWritten false rows ns) : ∀ req ∈ reads, ∀ s ∈ req, e.Marked s := by
  intro req hreq s hs
  obtain ⟨i, row, n, hrow, hn, hdec⟩ := exists_of_mem_decodeBatchSlots hops hreq
  obtain ⟨-, -, hblocks, rfl⟩ := decodeSlots_eq_ok.1 hdec
  obtain ⟨row', hrow', blocks, hblocks', hw⟩ := hhist i n hn (by simp)
  obtain rfl := Option.some.inj (hrow.symm.trans hrow')
  simp only [Bool.false_eq_true, if_false] at hblocks' hw
  obtain rfl := Option.some.inj (hblocks.symm.trans hblocks')
  obtain ⟨pos, hpos, rfl⟩ := List.mem_map.1 hs
  exact hw pos (List.mem_range.1 hpos)

/-- A merged decode whose check passed reads slots that are marked, and the slot of the last token
of each request. -/
theorem marked_of_merged {e : Entry V} {k : ℕ} {rows : List (List ℤ)} {ns : List ℕ}
    {reads : List (List ℕ)} (hops : decodeBatchSlots e.layout k rows ns = .ok reads)
    (hhist : e.SequencesWritten true rows ns) : ∀ req ∈ reads, ∀ s ∈ req, e.Marked s ∨
      ∃ (i : ℕ) (row : List ℤ) (n : ℕ), rows[i]? = some row ∧ ns[i]? = some n ∧
        tableSlot e.layout.blockSize row (n - 1) = some (s : ℤ) := by
  intro req hreq s hs
  obtain ⟨i, row, n, hrow, hn, hdec⟩ := exists_of_mem_decodeBatchSlots hops hreq
  obtain ⟨hpos, -, hblocks, rfl⟩ := decodeSlots_eq_ok.1 hdec
  obtain ⟨pos, hmem, rfl⟩ := List.mem_map.1 hs
  have hlt := List.mem_range.1 hmem
  have hslot := tableSlot_eq e.blockSize_pos hblocks hlt
  by_cases hlast : pos = n - 1
  · exact .inr ⟨i, row, n, hrow, hn, by rw [← hlast]; exact hslot⟩
  · -- the check covered this token, in the blocks of one token less
    obtain ⟨row', hrow', blocks, hblocks', hw⟩ := hhist i n hn fun _ => by omega
    obtain rfl := Option.some.inj (hrow.symm.trans hrow')
    simp only [if_true] at hblocks' hw
    rw [← slotAt_blocksOf e.blockSize_pos hblocks' hblocks (show pos < n - 1 by omega) hlt]
    refine .inl ?_
    exact hw pos (by omega)

/-! ### One call -/

/-- An entry after the tokens of a call reached the mirror: `e` is the entry before. -/
structure Synced (e : Entry V) (slots : List ℤ) (cpu : ℕ → V) (e' : Entry V) : Prop where
  layout : e'.layout = e.layout
  marked : ∀ i, e'.Marked i → e.Marked i ∨ (i : ℤ) ∈ slots
  mirror : ∀ i, e.Marked i ∨ (i : ℤ) ∈ slots → e'.mirror i = cpu i

theorem Synced.coherent {e e' : Entry V} {slots : List ℤ} {cpu : ℕ → V}
    (h : Synced e slots cpu e') : Coherent ⟨cpu, e'⟩ :=
  fun i hi => h.mirror i (h.marked i hi)

theorem Synced.congr {e e' e'' : Entry V} {slots : List ℤ} {cpu : ℕ → V}
    (h : Synced e slots cpu e') (hs : Entry.SameSlots e' e'') : Synced e slots cpu e'' where
  layout := hs.layout.trans h.layout
  marked := fun i hi => h.marked i (by rwa [Entry.Marked, hs.writtenSlots] at hi)
  mirror := fun i hi => by rw [hs.mirror]; exact h.mirror i hi

theorem Synced.mark {e e' : Entry V} {slots : List ℤ} {cpu : ℕ → V} (h : Synced e slots cpu e') :
    Synced e slots cpu (e'.mark slots) where
  layout := h.layout
  marked := fun i hi => by
    rcases (e'.mark_marked slots i).1 hi with hi | ⟨-, hi⟩
    · exact h.marked i hi
    · exact .inr hi
  mirror := h.mirror

/-- A mirror write of the tokens makes the mirror agree with the CPU cache, wherever it agreed
before off the slots of the tokens. -/
theorem Synced.store {e e' : Entry V} {slots : List ℤ} {cpu : ℕ → V} {ss rest : List (ℕ × V)}
    (hkeys : ∀ i, i ∈ ss.map Prod.fst ↔ (i : ℤ) ∈ slots)
    (hrest : ∀ i ∈ rest.map Prod.fst, ¬ e.Marked i ∧ (i : ℤ) ∉ slots)
    (hlayout : e'.layout = e.layout) (hmarked : ∀ i, e'.Marked i → e.Marked i ∨ (i : ℤ) ∈ slots)
    (hmirror : ∀ i, e.Marked i → (i : ℤ) ∉ slots → e'.mirror i = cpu i) :
    Synced e slots (Store.applyStores cpu (ss ++ rest)) (e'.store ss) where
  layout := hlayout
  marked := hmarked
  mirror := fun i hi => by
    have hr : i ∉ rest.map Prod.fst := fun h => by
      rcases hi with hi | hi
      · exact (hrest i h).1 hi
      · exact (hrest i h).2 hi
    rw [Store.applyStores_append, Store.applyStores_of_notMem hr, Entry.store_mirror]
    refine Store.applyStores_congr ?_
    intro h
    rw [hkeys] at h
    rcases hi with hi | hi
    · exact hmirror i hi h
    · exact absurd hi h

/-- Every slot a decode read holds in the CPU cache what was read. -/
def ReadsCpu (cpu : ℕ → V) (output : Option (List (Part V))) : Prop :=
  ∀ parts, output = some parts → ∀ reads, Part.vulkan reads ∈ parts →
    ∀ req ∈ reads, ∀ sv ∈ req, sv.2 = cpu sv.1

theorem mem_readSlots {mirror : ℕ → V} {slots : List (List ℕ)} {req : List (ℕ × V)}
    (h : req ∈ readSlots mirror slots) {sv : ℕ × V} (hsv : sv ∈ req) :
    ∃ ids ∈ slots, sv.1 ∈ ids ∧ sv.2 = mirror sv.1 := by
  obtain ⟨ids, hids, rfl⟩ := List.mem_map.1 h
  obtain ⟨s, hs, rfl⟩ := List.mem_map.1 hsv
  exact ⟨ids, hids, hs, rfl⟩

section

variable {impl : Impl} {env : Env} {st : State V} {b : Batch V} {md : Metadata}

/-- The part of a call after the writes keeps coherence, and reads the mirror. -/
theorem finish_coherent (h : Coherent st) : Coherent (finish impl env st b md).1 ∧
    ReadsCpu (finish impl env st b md).1.cpu (finish impl env st b md).2 := by
  have hread : ∀ {n reads}, (tryDecode impl env st b md n).1 = some reads →
      ∀ req ∈ reads, ∀ sv ∈ req, sv.2 = st.cpu sv.1 := by
    intro n reads hdec req hreq sv hsv
    obtain ⟨slots, hruns, rfl⟩ := tryDecode_eq_some.1 hdec
    obtain ⟨ids, hids, hs, hv⟩ := mem_readSlots hreq hsv
    rw [hv]
    exact h _ (marked_of_decode hruns.ops hruns.history ids hids _ hs)
  have hframe : ∀ n, Coherent (tryDecode impl env st b md n).2 := by
    intro n i hi
    obtain ⟨hcpu, hsame⟩ := @tryDecode_frame V impl env st b md n
    rw [Entry.Marked, hsame.writtenSlots] at hi
    rw [hcpu, hsame.mirror]
    exact h i hi
  have hnone : ∀ parts : List (Part V), (∀ reads, Part.vulkan reads ∉ parts) → ∀ cpu,
      ReadsCpu cpu (some parts) := by
    intro parts hparts cpu ps hps reads hmem
    obtain rfl := Option.some.inj hps
    exact absurd hmem (hparts reads)
  unfold finish
  -- `assert` on attention sinks
  by_cases hassert : md.useSdpaPrefill = true ∧ impl.sinks = true
  · rw [if_pos hassert]
    exact ⟨h, fun parts hparts => by cases hparts⟩
  rw [if_neg hassert]
  cases hsdpa : md.useSdpaPrefill with
  | true =>
    simp only [if_true]
    split_ifs
    · exact ⟨h, hnone _ (by simp) _⟩
    · exact ⟨h, hnone _ (by simp) _⟩
  | false =>
    simp only [Bool.false_eq_true, if_false]
    split_ifs
    · cases hdec : (tryDecode impl env st b md md.numActualTokens).1 with
      | none => exact ⟨hframe _, hnone _ (by simp) _⟩
      | some reads =>
        refine ⟨hframe _, fun parts hparts reads' hmem => ?_⟩
        obtain rfl := Option.some.inj hparts
        simp only [List.nil_append, List.mem_singleton, Part.vulkan.injEq] at hmem
        rw [hmem, tryDecode_frame.1]
        exact hread hdec
    · exact ⟨h, hnone _ (by simp) _⟩

end

section

variable {impl : Impl} {env : Env} {st : State V} {b : Batch V} {md : Metadata} {kv : List V}

/-- The accepted stores of a call, and what its CPU write stores besides them. -/
theorem exists_rest {n : ℕ} {ss : List (ℕ × V)}
    (h : mirrorStores st.entry.layout (md.slotMapping.take n) (kv.take n) = .ok ss) :
    (∀ i, i ∈ ss.map Prod.fst ↔ (i : ℤ) ∈ md.slotMapping.take n) ∧
      cpuStores md.slotMapping kv = ss ++ cpuStores (md.slotMapping.drop n) (kv.drop n) := by
  obtain ⟨-, hlen, hrange, rfl⟩ := mirrorStores_eq_ok.1 h
  exact ⟨fun i => mem_zip_toNat hlen fun s hs => (hrange s hs).1,
    cpuStores_eq n hlen fun s hs => (hrange s hs).1⟩

theorem KeepsMirror.rest (hk : KeepsMirror impl st (b, env)) (hw : WritesCaches impl b md kv)
    (hm : MirrorsTokens impl st b env md kv) {i : ℕ}
    (hi : i ∈ (cpuStores (md.slotMapping.drop md.numActualTokens)
      (kv.drop md.numActualTokens)).map Prod.fst) :
    ¬ st.entry.Marked i ∧ (i : ℤ) ∉ md.slotMapping.take md.numActualTokens := by
  obtain ⟨j, s, hs, hj, hpos, rfl⟩ := mem_cpuStores hi
  rw [List.getElem?_drop] at hs
  rw [List.length_drop] at hj
  obtain ⟨hmark, hslot⟩ := hk.overwritten md kv hw _ s hs (by omega) hpos fun h => by omega
  refine ⟨hmark, fun hmem => hslot ⟨hm, ?_⟩⟩
  rwa [Int.toNat_of_nonneg hpos] at hmem

/-- A mirror write of the tokens of a call, into an entry that agrees with the CPU cache before the
call off their slots. -/
theorem KeepsMirror.synced (hk : KeepsMirror impl st (b, env)) (hw : WritesCaches impl b md kv)
    (hm : MirrorsTokens impl st b env md kv) {ss : List (ℕ × V)}
    (hss : mirrorStores st.entry.layout (md.slotMapping.take md.numActualTokens)
      (kv.take md.numActualTokens) = .ok ss) {e' : Entry V}
    (hlayout : e'.layout = st.entry.layout)
    (hmarked : ∀ i, e'.Marked i →
      st.entry.Marked i ∨ (i : ℤ) ∈ md.slotMapping.take md.numActualTokens)
    (hmirror : ∀ i, st.entry.Marked i → (i : ℤ) ∉ md.slotMapping.take md.numActualTokens →
      e'.mirror i = st.cpu i) :
    Synced st.entry (md.slotMapping.take md.numActualTokens)
      (Store.applyStores st.cpu (cpuStores md.slotMapping kv)) (e'.store ss) := by
  obtain ⟨hkeys, hsplit⟩ := exists_rest hss
  rw [hsplit]
  exact Synced.store hkeys (fun i hi => hk.rest hw hm hi) hlayout hmarked hmirror

/-- The separate write, tried on an entry that is synced already or is the one before the call. -/
theorem KeepsMirror.tryWriteTokens_coherent (h : Coherent st)
    (hk : KeepsMirror impl st (b, env)) (hw : WritesCaches impl b md kv)
    (hm : MirrorsTokens impl st b env md kv) {e' : Entry V}
    (he : Synced st.entry (md.slotMapping.take md.numActualTokens)
        (Store.applyStores st.cpu (cpuStores md.slotMapping kv)) e' ∨
      Entry.SameSlots st.entry e' ∧ ∃ ss, WriteRuns impl env.write st.entry.layout kv
        md.slotMapping md.numActualTokens ss) :
    Coherent (tryWriteTokens impl env.write
      ⟨Store.applyStores st.cpu (cpuStores md.slotMapping kv), e'⟩ kv md.slotMapping
      md.numActualTokens) := by
  by_cases hruns : ∃ ss, WriteRuns impl env.write e'.layout kv md.slotMapping md.numActualTokens ss
  · obtain ⟨ss, hruns⟩ := hruns
    rw [tryWriteTokens_runs ⟨_, e'⟩ hruns]
    have hlayout : e'.layout = st.entry.layout := by
      rcases he with he | ⟨he, -⟩
      · exact he.layout
      · exact he.layout
    have hss := hruns.ops
    rw [hlayout] at hss
    refine (Synced.mark (hk.synced hw hm hss hlayout (fun i hi => ?_) fun i hi hnot => ?_)).coherent
    · rcases he with he | ⟨he, -⟩
      · exact he.marked i hi
      · rw [Entry.Marked, he.writtenSlots] at hi
        exact .inl hi
    · rcases he with he | ⟨he, -⟩
      · -- a slot off the tokens was not written on the CPU
        have hfirst := (hk.synced hw hm hss rfl (fun i hi => .inl hi) fun i hi _ => h i hi).mirror i
          (.inl hi)
        rw [Entry.store_mirror,
          Store.applyStores_of_notMem (by rwa [(exists_rest hss).1])] at hfirst
        rw [he.mirror i (.inl hi), ← hfirst]
        exact h i hi
      · rw [he.mirror]
        exact h i hi
  · rw [tryWriteTokens_of_not ⟨_, e'⟩ fun ss hruns' => hruns ⟨ss, hruns'⟩]
    rcases he with he | ⟨he, hruns'⟩
    · exact he.coherent
    · rw [← he.layout] at hruns'
      exact absurd hruns' hruns

theorem KeepsMirror.tryWriteTokens_coherent_of_not (h : Coherent st)
    (hk : KeepsMirror impl st (b, env)) (hw : WritesCaches impl b md kv)
    (hm : ¬ MirrorsTokens impl st b env md kv) {e' : Entry V} (he : Entry.SameSlots st.entry e') :
    Coherent (tryWriteTokens impl env.write
      ⟨Store.applyStores st.cpu (cpuStores md.slotMapping kv), e'⟩ kv md.slotMapping
      md.numActualTokens) := by
  rw [tryWriteTokens_of_not ⟨_, e'⟩ fun ss hruns => hm (.inr ⟨ss, by rwa [← he.layout]⟩)]
  intro i hi
  rw [Entry.Marked, he.writtenSlots] at hi
  rw [he.mirror]
  show st.entry.mirror i = Store.applyStores st.cpu (cpuStores md.slotMapping kv) i
  rw [Store.applyStores_of_notMem]
  · exact h i hi
  · intro hmem
    obtain ⟨j, s, hs, hj, hpos, rfl⟩ := mem_cpuStores hmem
    exact (hk.overwritten md kv hw j s hs hj hpos fun h => hm h.1).1 hi

/-- A merged decode that went through: the caches are coherent and it read what the CPU holds. -/
theorem KeepsMirror.merged_coherent (h : Coherent st) (hk : KeepsMirror impl st (b, env))
    (hw : WritesCaches impl b md kv) (hsdpa : md.useSdpaPrefill = false) {ss : List (ℕ × V)}
    {ids : List (List ℕ)} (hruns : MergedRuns impl env st.entry b md kv md.numActualTokens ss ids)
    {e' : Entry V} (he : Entry.SameSlots
      ((st.entry.store ss).mark (md.slotMapping.take md.numActualTokens)) e') :
    Coherent ⟨Store.applyStores st.cpu (cpuStores md.slotMapping kv), e'⟩ ∧
      ∀ req ∈ readSlots (Store.applyStores st.entry.mirror ss) ids, ∀ sv ∈ req,
        sv.2 = Store.applyStores st.cpu (cpuStores md.slotMapping kv) sv.1 := by
  have hm : MirrorsTokens impl st b env md kv := .inl ⟨hsdpa, ss, ids, hruns⟩
  obtain ⟨hops, hss⟩ := mergedOps_eq_ok.1 hruns.ops
  have hsync := hk.synced hw hm hss rfl (fun i hi => .inl hi) fun i hi _ => h i hi
  refine ⟨(hsync.mark.congr he).coherent, fun req hreq sv hsv => ?_⟩
  obtain ⟨slots, hslots, hs, hv⟩ := mem_readSlots hreq hsv
  rw [hv]
  refine hsync.mirror sv.1 ?_
  rcases marked_of_merged hops hruns.history slots hslots sv.1 hs with hmark | hlast
  · exact .inl hmark
  · obtain ⟨i, row, n, hrow, hn, hslot⟩ := hlast
    have hi : i < md.numActualTokens := by
      by_contra hi
      rw [List.getElem?_take, if_neg hi] at hn
      cases hn
    rw [List.getElem?_take_of_lt hi] at hrow hn
    exact hk.current md kv hw hsdpa ss ids hruns i row n _ hi hrow hn hslot

theorem forward_coherent_of_writes (h : Coherent st) (hk : KeepsMirror impl st (b, env))
    (hw : WritesCaches impl b md kv) : Coherent (forward impl st (b, env)).1 ∧
      ReadsCpu (forward impl st (b, env)).1.cpu (forward impl st (b, env)).2 := by
  unfold forward forwardWith
  simp only [hw.metadata, hw.decoder, hw.kv, hw.unshared, if_false, Bool.true_and]
  set cpu := Store.applyStores st.cpu (cpuStores md.slotMapping kv) with hcpu
  cases hsdpa : md.useSdpaPrefill with
  | true =>
    -- SDPA reads the CPU cache, so that only the writes matter
    refine finish_coherent ?_
    by_cases hm : MirrorsTokens impl st b env md kv
    · refine hk.tryWriteTokens_coherent h hw hm (.inr ⟨Entry.SameSlots.refl _, ?_⟩)
      rcases hm with ⟨hf, -⟩ | hruns
      · rw [hsdpa] at hf
        cases hf
      · exact hruns
    · exact hk.tryWriteTokens_coherent_of_not h hw hm (Entry.SameSlots.refl _)
  | false =>
    simp only [Bool.not_false, if_true]
    by_cases hruns : ∃ ss ids, MergedRuns impl env st.entry b md kv md.numActualTokens ss ids
    · obtain ⟨ss, ids, hruns⟩ := hruns
      have hm : MirrorsTokens impl st b env md kv := .inl ⟨hsdpa, ss, ids, hruns⟩
      obtain ⟨hcpu', hres⟩ := tryWriteAndDecode_runs ⟨cpu, st.entry⟩ hruns
      obtain ⟨reads, st', hst'⟩ : ∃ reads st', tryWriteAndDecode impl env ⟨cpu, st.entry⟩ b md kv
          md.numActualTokens = (reads, st') := ⟨_, _, rfl⟩
      rw [hst'] at hcpu' hres ⊢
      obtain ⟨cpu', e'⟩ := st'
      obtain rfl : cpu' = cpu := hcpu'
      cases hcopy : env.merged.copy with
      | true =>
        rw [hcopy, if_pos rfl] at hres
        obtain ⟨rfl, hsame⟩ := hres
        -- the outputs could not be copied back: the tokens are written again
        have hsync := hk.synced hw hm (mergedOps_eq_ok.1 hruns.ops).2 rfl (fun i hi => .inl hi)
          fun i hi _ => h i hi
        exact finish_coherent (hk.tryWriteTokens_coherent h hw hm (.inl (hsync.congr hsame)))
      | false =>
        rw [hcopy, if_neg (by simp)] at hres
        obtain ⟨rfl, hsame⟩ := hres
        -- the merged attempt got through: the outputs are what its decode read
        obtain ⟨hcoh, hread⟩ := hk.merged_coherent h hw hsdpa hruns hsame
        refine ⟨hcoh, fun parts hparts reads' hmem => ?_⟩
        obtain rfl := Option.some.inj hparts
        rw [List.mem_singleton, Part.vulkan.injEq] at hmem
        rw [hmem]
        exact hread
    · obtain ⟨hnone, hcpu', hsame⟩ := tryWriteAndDecode_of_not ⟨cpu, st.entry⟩
        fun ss ids h' => hruns ⟨ss, ids, h'⟩
      obtain ⟨reads, st', hst'⟩ : ∃ reads st', tryWriteAndDecode impl env ⟨cpu, st.entry⟩ b md kv
          md.numActualTokens = (reads, st') := ⟨_, _, rfl⟩
      rw [hst'] at hnone hcpu' hsame ⊢
      obtain ⟨cpu', e'⟩ := st'
      obtain rfl : cpu' = cpu := hcpu'
      obtain rfl : reads = none := hnone
      refine finish_coherent ?_
      by_cases hm : MirrorsTokens impl st b env md kv
      · refine hk.tryWriteTokens_coherent h hw hm (.inr ⟨hsame, ?_⟩)
        rcases hm with ⟨-, hruns'⟩ | hruns'
        · exact absurd hruns' hruns
        · exact hruns'
      · exact hk.tryWriteTokens_coherent_of_not h hw hm hsame

/-- **One call.**  A call that meets the condition keeps the mirror coherent, and what its decode
read is what the CPU cache holds. -/
theorem coherent_forward (h : Coherent st) (hk : KeepsMirror impl st (b, env)) :
    Coherent (forward impl st (b, env)).1 ∧
      ReadsCpu (forward impl st (b, env)).1.cpu (forward impl st (b, env)).2 := by
  by_cases hw : ∃ md kv, WritesCaches impl b md kv
  · obtain ⟨md, kv, hw⟩ := hw
    exact forward_coherent_of_writes h hk hw
  have hnone : ∀ parts : List (Part V), (∀ reads, Part.vulkan reads ∉ parts) → ∀ cpu,
      ReadsCpu cpu (some parts) := by
    intro parts hparts cpu ps hps reads hmem
    obtain rfl := Option.some.inj hps
    exact absurd hmem (hparts reads)
  cases hmd : b.metadata with
  | none =>
    simp only [forward, forwardWith, hmd]
    exact ⟨h, hnone [] (by simp) _⟩
  | some md =>
    by_cases hattn : impl.attnType = .encoderOnly ∨ impl.attnType = .encoder
    · simp only [forward, forwardWith, hmd, if_pos hattn]
      exact ⟨h, hnone _ (by simp) _⟩
    simp only [forward, forwardWith, hmd, if_neg hattn]
    split
    · rename_i kv hkv hshare
      exact absurd ⟨md, kv, hmd, hattn, hkv, hshare⟩ hw
    · exact finish_coherent h

end

/-! ### Runs -/

/-- The caches before the first call. -/
def State.fresh (layout : VulkanPagedKVLayout) (zero : V) (cpu : ℕ → V) : State V :=
  ⟨cpu, .fresh layout zero⟩

theorem coherent_fresh (layout : VulkanPagedKVLayout) (zero : V) (cpu : ℕ → V) :
    Coherent (State.fresh layout zero cpu) := by
  intro i hi
  exact absurd hi (Entry.fresh_not_marked layout zero i)

/-- **Mirror coherence over runs.**  In a run whose calls all meet the condition, every K/V vector
a Vulkan decode reads is the one the CPU cache holds for the same slot when the call returns. -/
theorem decode_reads_cpu (impl : Impl) (layout : VulkanPagedKVLayout) (zero : V) (cpu : ℕ → V)
    (calls : List (Batch V × Env))
    (hk : ∀ τ ∈ transitions (forward impl) (State.fresh layout zero cpu) calls,
      KeepsMirror impl τ.pre τ.input) :
    ∀ τ ∈ transitions (forward impl) (State.fresh layout zero cpu) calls,
      ReadsCpu τ.post.cpu τ.output := by
  have hstep : ∀ (st : State V) (call : Batch V × Env), Coherent st → KeepsMirror impl st call →
      Coherent (forward impl st call).1 := fun st call h hk => (coherent_forward h hk).1
  refine forall_transitions hstep (fun st call h hk => ?_) (coherent_fresh layout zero cpu) hk
  exact (coherent_forward h hk).2

/-- One layer of two blocks of two tokens. -/
def oneLayerLayout : VulkanPagedKVLayout where
  layerSpecs := [⟨0, 1, 2, 2, 4, Nat.one_pos, Nat.two_pos, Nat.two_pos, KVCacheLayerSpec.four_pos⟩]
  numBlocks := 2
  numBlocks_pos := Nat.two_pos
  layerSpecs_ne := by decide
  layerIndex_eq := by decide
  blockSize_eq := by decide

/-- A decoder layer without any of the features that exclude the Vulkan path. -/
def plainImpl : Impl where
  attnType := .decoder
  kvSharingTargetLayerName := none
  alibiSlopes := false
  logitsSoftCap := false
  sinks := false
  slidingWindow := (-1, -1)
  headSize := 2
  cacheDtype := .float32

/-- The call that decodes token `pos` of a sequence in block 0, with K/V vectors `v`. -/
def decodeCall (pos : ℕ) (v : ℕ) (env : Env) : Batch ℕ × Env :=
  ({ metadata := some {
      causal := true
      useSdpaPrefill := false
      numActualTokens := 1
      numDecodeTokens := 1
      queryStartLoc := [0, 1]
      seqLens := [pos + 1]
      blockTable := [[0]]
      slotMapping := [pos] }
     kv := some [v]
     numQueryRows := 1
     outputHeadSize := 2 }, env)

/-- Nothing goes wrong in a call. -/
def noFaultsEnv : Env := ⟨false, noFaults, noFaults, noFaults⟩

/-- Every submission of a call raises. -/
def failingEnv : Env :=
  ⟨false, { noFaults with execute := true }, { noFaults with execute := true },
    { noFaults with execute := true }⟩

theorem decode_reads_cpu_twoCalls :
    List.Forall (fun τ => ReadsCpu τ.post.cpu τ.output)
      (transitions (forward plainImpl) (State.fresh oneLayerLayout 0 fun _ => 0)
        [decodeCall 0 1 noFaultsEnv, decodeCall 1 2 noFaultsEnv]) := by
  refine List.forall_iff_forall_mem.2
    (decode_reads_cpu plainImpl oneLayerLayout 0 (fun _ => 0) _ fun τ hτ => ?_)
  have hkeeps : ∀ (st : State ℕ) (pos v : ℕ), ¬ st.entry.Marked pos →
      st.entry.layout = oneLayerLayout → pos < 2 →
      KeepsMirror plainImpl st (decodeCall pos v noFaultsEnv) := by
    intro st pos v hpos hl hlt
    constructor
    · intro md kv hw i s hs hi h₀ hnot
      obtain rfl := Option.some.inj hw.metadata
      obtain rfl := Option.some.inj hw.kv
      obtain rfl : i = 0 := by simpa using hi
      obtain rfl : (pos : ℤ) = s := by simpa using hs
      exact ⟨by simpa using hpos, fun h => hnot ⟨h.1, Nat.one_pos⟩⟩
    · intro md kv hw _ ss reads _ i row n s hi hrow hn hslot
      obtain rfl := Option.some.inj hw.metadata
      obtain rfl : i = 0 := by simpa using hi
      obtain rfl : [0] = row := by simpa using hrow
      obtain rfl : pos + 1 = n := by simpa using hn
      right
      have hs : s = pos := by
        have h2 : pos / 2 = 0 := by omega
        have h2' : pos % 2 = pos := by omega
        have hb : st.entry.layout.blockSize = 2 := by rw [hl]; rfl
        simpa [tableSlot, hb, h2, h2', eq_comm] using hslot
      simp [hs]
  simp only [transitions_cons, transitions_nil, List.mem_cons, List.not_mem_nil, or_false] at hτ
  rcases hτ with rfl | rfl
  · exact hkeeps _ 0 1 (by decide) rfl (by decide)
  · exact hkeeps _ 1 2 (by decide) rfl (by decide)

/-- **A stale decode.**  A token reuses slot 0 while every submission raises; the next decode finds
the slot marked and reads what the mirror held before. -/
theorem stale_decode : ¬ ∀ τ ∈ transitions (forward plainImpl)
    (State.fresh oneLayerLayout 0 fun _ => 0)
    [decodeCall 0 1 noFaultsEnv, decodeCall 0 2 failingEnv, decodeCall 1 3 noFaultsEnv],
      ReadsCpu τ.post.cpu τ.output := by
  intro h
  have hread := h _ (.tail _ (.tail _ (.head _))) _ rfl [[(0, 1), (1, 3)]] (.head _)
    [(0, 1), (1, 3)] (.head _) (0, 1) (.head _)
  exact absurd hread (by decide)

end Attention

end VllmVulkan
