import VllmVulkan.Lib.Store
import VllmVulkan.Kv.Ops

/-!
# The Vulkan mirror of one KV cache

`attention.py` keeps, next to the CPU cache of a layer, a paged mirror of it on the GPU, a bitmap
of the slots that were written there, and a memo of the prefixes of sequences that were found
complete.  The mirror is seen slot by slot: a slot holds the K/V vectors of one token.

* `Entry` : the mirror entry, whose memo only names prefixes that are marked;
* `Entry.mark` : `_mark_vulkan_cache_slots_written`, in both of its branches;
* `Entry.hasSequences` : `_vulkan_cache_has_sequences`, with its memo;
* `Entry.hasSequences_iff` : **the memo never changes the answer**: the check succeeds exactly when
  every slot of every sequence is marked.
-/

namespace VllmVulkan

namespace Attention

/-- `_MAX_VERIFIED_SEQUENCE_KEYS`. -/
def maxVerifiedSequenceKeys : ℕ := 4096

/-- `_MARK_SLOTS_VECTORIZE_THRESHOLD`. -/
def markSlotsVectorizeThreshold : ℕ := 64

/-- The slot of token `pos` of a sequence stored in `blocks`. -/
def slotAt (blockSize : ℕ) (blocks : List ℕ) (pos : ℕ) : ℕ :=
  blocks.getD (pos / blockSize) 0 * blockSize + pos % blockSize

/-- The first `n` tokens of the sequence stored in `blocks` are marked. -/
def PrefixWritten (blockSize : ℕ) (written : List Bool) (blocks : List ℕ) (n : ℕ) : Prop :=
  n ≤ blocks.length * blockSize ∧ ∀ pos < n, written.getD (slotAt blockSize blocks pos) false = true

/-- `_VulkanKVCacheEntry`. -/
structure Entry (V : Type) where
  /-- The layout of the mirror: one layer. -/
  layout : VulkanPagedKVLayout
  /-- The K/V vectors each slot of the mirror holds. -/
  mirror : ℕ → V
  /-- The bitmap of the slots written so far. -/
  writtenSlots : List Bool
  /-- The memo: block ids to the length of the verified prefix, oldest first. -/
  verifiedPrefixByBlocks : List (List ℕ × ℕ)
  length_writtenSlots : writtenSlots.length = layout.capacityTokensPerLayer
  verified : ∀ e ∈ verifiedPrefixByBlocks, PrefixWritten layout.blockSize writtenSlots e.1 e.2

/-! ### Marking -/

/-- `_mark_vulkan_cache_slots_written` on the bitmap: a loop for few slots, one vectorised
assignment for many; slots outside the bitmap are ignored. -/
def markSlots (written : List Bool) (slots : List ℤ) : List Bool :=
  if slots.length < markSlotsVectorizeThreshold then
    slots.foldl (fun (w : List Bool) (slot : ℤ) =>
      if 0 ≤ slot ∧ slot < written.length then w.set slot.toNat true else w) written
  else
    let valid := (slots.filter fun slot : ℤ => 0 ≤ slot ∧ slot < written.length).map Int.toNat
    (List.range written.length).map fun i => if i ∈ valid then true else written.getD i false

theorem length_foldl_mark (n : ℕ) (slots : List ℤ) (w : List Bool) :
    (slots.foldl (fun (w : List Bool) (slot : ℤ) =>
      if 0 ≤ slot ∧ slot < n then w.set slot.toNat true else w) w).length = w.length := by
  induction slots generalizing w with
  | nil => rfl
  | cons slot slots ih =>
    rw [List.foldl_cons, ih]
    split_ifs
    · exact List.length_set
    · rfl

theorem length_markSlots (written : List Bool) (slots : List ℤ) :
    (markSlots written slots).length = written.length := by
  unfold markSlots
  split_ifs
  · exact length_foldl_mark _ _ _
  · simp

theorem getD_set_true (w : List Bool) (k i : ℕ) (hk : k < w.length) :
    (w.set k true).getD i false = true ↔ w.getD i false = true ∨ i = k := by
  simp only [List.getD_eq_getElem?_getD, List.getElem?_set]
  split_ifs with h
  · simp [h]
  · simp [Ne.symm h]

theorem getD_foldl_mark (n : ℕ) (slots : List ℤ) (i : ℕ) (w : List Bool) (hw : w.length = n) :
    (slots.foldl (fun (w : List Bool) (slot : ℤ) =>
      if 0 ≤ slot ∧ slot < n then w.set slot.toNat true else w) w).getD i false = true ↔
        w.getD i false = true ∨ i < n ∧ (i : ℤ) ∈ slots := by
  induction slots generalizing w with
  | nil => simp
  | cons slot slots ih =>
    rw [List.foldl_cons]
    by_cases hs : 0 ≤ slot ∧ slot < n
    · rw [if_pos hs, ih _ (by rw [List.length_set, hw]), getD_set_true _ _ _ (by omega),
        List.mem_cons]
      constructor
      · rintro ((h | h) | h)
        · exact .inl h
        · exact .inr ⟨by omega, .inl (by omega)⟩
        · exact .inr ⟨h.1, .inr h.2⟩
      · rintro (h | ⟨h, h' | h'⟩)
        · exact .inl (.inl h)
        · exact .inl (.inr (by omega))
        · exact .inr ⟨h, h'⟩
    · rw [if_neg hs, ih _ hw, List.mem_cons]
      constructor
      · rintro (h | h)
        · exact .inl h
        · exact .inr ⟨h.1, .inr h.2⟩
      · rintro (h | ⟨h, h' | h'⟩)
        · exact .inl h
        · exact absurd h' (by omega)
        · exact .inr ⟨h, h'⟩

/-- **Both branches mark the same slots**: those that are listed and lie in the bitmap. -/
theorem getD_markSlots (written : List Bool) (slots : List ℤ) (i : ℕ) :
    (markSlots written slots).getD i false = true ↔
      written.getD i false = true ∨ i < written.length ∧ (i : ℤ) ∈ slots := by
  unfold markSlots
  split_ifs
  · exact getD_foldl_mark written.length slots i written rfl
  · by_cases hi : i < written.length
    · have hmem :
          i ∈ (slots.filter fun slot : ℤ => 0 ≤ slot ∧ slot < written.length).map Int.toNat ↔
          (i : ℤ) ∈ slots := by
        simp only [List.mem_map, List.mem_filter, decide_eq_true_eq]
        constructor
        · rintro ⟨z, ⟨hz, h₀, -⟩, rfl⟩
          rwa [Int.toNat_of_nonneg h₀]
        · intro h
          exact ⟨i, ⟨h, by omega, by omega⟩, by simp⟩
      simp only [List.getD_eq_getElem?_getD, List.getElem?_map, List.getElem?_range hi,
        Option.map_some, Option.getD_some, hmem, hi, true_and]
      split_ifs with h <;> simp [h]
    · simp [List.getD_eq_getElem?_getD, hi]

theorem PrefixWritten.mono {bs : ℕ} {w w' : List Bool} {blocks : List ℕ} {n : ℕ}
    (h : PrefixWritten bs w blocks n) (hw : ∀ i, w.getD i false = true → w'.getD i false = true) :
    PrefixWritten bs w' blocks n :=
  ⟨h.1, fun pos hpos => hw _ (h.2 pos hpos)⟩

/-- An entry just created: a mirror of one value, nothing marked. -/
def Entry.fresh {V : Type} (layout : VulkanPagedKVLayout) (zero : V) : Entry V where
  layout := layout
  mirror := fun _ => zero
  writtenSlots := List.replicate layout.capacityTokensPerLayer false
  verifiedPrefixByBlocks := []
  length_writtenSlots := List.length_replicate
  verified := fun p hp => by cases hp

namespace Entry

variable {V : Type} (e : Entry V)

/-- Slot `i` is marked as written. -/
def Marked (i : ℕ) : Prop := e.writtenSlots.getD i false = true

instance (i : ℕ) : Decidable (e.Marked i) := by unfold Marked; infer_instance

theorem fresh_not_marked (layout : VulkanPagedKVLayout) (zero : V) (i : ℕ) :
    ¬ (fresh layout zero).Marked i := by
  simp only [Marked, fresh, List.getD_eq_getElem?_getD, List.getElem?_replicate]
  split_ifs <;> simp

/-- The capacity of the bitmap. -/
def capacity : ℕ := e.layout.capacityTokensPerLayer

/-- `_mark_vulkan_cache_slots_written`. -/
def mark (slots : List ℤ) : Entry V where
  layout := e.layout
  mirror := e.mirror
  writtenSlots := markSlots e.writtenSlots slots
  verifiedPrefixByBlocks := e.verifiedPrefixByBlocks
  length_writtenSlots := by rw [length_markSlots, e.length_writtenSlots]
  verified := fun p hp => (e.verified p hp).mono fun i h => (getD_markSlots _ _ _).2 (.inl h)

/-- The stores of a mirror write. -/
def store (ss : List (ℕ × V)) : Entry V where
  layout := e.layout
  mirror := Store.applyStores e.mirror ss
  writtenSlots := e.writtenSlots
  verifiedPrefixByBlocks := e.verifiedPrefixByBlocks
  length_writtenSlots := e.length_writtenSlots
  verified := e.verified

@[simp] theorem mark_layout (slots : List ℤ) : (e.mark slots).layout = e.layout := rfl

@[simp] theorem mark_mirror (slots : List ℤ) : (e.mark slots).mirror = e.mirror := rfl

@[simp] theorem store_layout (ss : List (ℕ × V)) : (e.store ss).layout = e.layout := rfl

@[simp] theorem store_mirror (ss : List (ℕ × V)) :
    (e.store ss).mirror = Store.applyStores e.mirror ss := rfl

@[simp] theorem store_marked (ss : List (ℕ × V)) (i : ℕ) : (e.store ss).Marked i ↔ e.Marked i :=
  Iff.rfl

theorem mark_marked (slots : List ℤ) (i : ℕ) :
    (e.mark slots).Marked i ↔ e.Marked i ∨ i < e.capacity ∧ (i : ℤ) ∈ slots := by
  rw [Marked, capacity, ← e.length_writtenSlots]
  exact getD_markSlots _ _ _

/-! ### The check -/

/-- `_active_block_ids`: the blocks holding the first tokens of a row, if the row has them and they
exist. -/
def activeBlockIds (row : List ℤ) (neededBlocks numBlocks : ℕ) : Option (List ℕ) :=
  if row.length < neededBlocks then none
  else if ∃ b ∈ row.take neededBlocks, b < 0 ∨ b ≥ numBlocks then none
  else some ((row.take neededBlocks).map Int.toNat)

/-- `OrderedDict.get`. -/
def lookup (d : List (List ℕ × ℕ)) (blocks : List ℕ) : Option ℕ :=
  (d.find? fun p => p.1 = blocks).map Prod.snd

/-- `_verified_prefix_len`: the memo of these blocks, or of all but the last. -/
def verifiedPrefixLen (activeBlocks : List ℕ) : ℕ :=
  match lookup e.verifiedPrefixByBlocks activeBlocks with
  | some verified => verified
  | none =>
    if activeBlocks.length > 1 then (lookup e.verifiedPrefixByBlocks activeBlocks.dropLast).getD 0
    else 0

/-- `_remember_verified_prefix` on the memo: the key becomes the newest, the oldest keys over the
limit are evicted. -/
def rememberPrefix (d : List (List ℕ × ℕ)) (activeBlocks : List ℕ) (seqLen : ℕ) :
    List (List ℕ × ℕ) :=
  let d' := d.filter (fun p => p.1 ≠ activeBlocks) ++ [(activeBlocks, seqLen)]
  d'.drop (d'.length - maxVerifiedSequenceKeys)

/-- `_remember_verified_prefix`, for a prefix that is marked. -/
def remember (activeBlocks : List ℕ) (seqLen : ℕ)
    (h : PrefixWritten e.layout.blockSize e.writtenSlots activeBlocks seqLen) : Entry V where
  layout := e.layout
  mirror := e.mirror
  writtenSlots := e.writtenSlots
  verifiedPrefixByBlocks := rememberPrefix e.verifiedPrefixByBlocks activeBlocks seqLen
  length_writtenSlots := e.length_writtenSlots
  verified := fun p hp => by
    obtain hp | hp := List.mem_append.1 (List.mem_of_mem_drop hp)
    · exact e.verified p (List.mem_filter.1 hp).1
    · rw [List.mem_singleton.1 hp]; exact h

theorem lookup_eq_some {d : List (List ℕ × ℕ)} {blocks : List ℕ} {n : ℕ}
    (h : lookup d blocks = some n) : (blocks, n) ∈ d := by
  obtain ⟨p, hp, rfl⟩ := Option.map_eq_some_iff.1 h
  have hk : p.1 = blocks := by simpa using List.find?_some hp
  rw [← hk]
  exact List.mem_of_find?_eq_some hp

theorem slotAt_dropLast {bs pos : ℕ} {blocks : List ℕ} (h : pos / bs < blocks.length - 1) :
    slotAt bs blocks.dropLast pos = slotAt bs blocks pos := by
  simp only [slotAt, List.getD_eq_getElem?_getD, List.getElem?_dropLast, if_pos h]

/-- **What the memo answers is marked.** -/
theorem prefixWritten_verifiedPrefixLen (activeBlocks : List ℕ) :
    PrefixWritten e.layout.blockSize e.writtenSlots activeBlocks
      (e.verifiedPrefixLen activeBlocks) := by
  have hzero : PrefixWritten e.layout.blockSize e.writtenSlots activeBlocks 0 :=
    ⟨Nat.zero_le _, fun pos h => absurd h (Nat.not_lt_zero _)⟩
  unfold verifiedPrefixLen
  split
  · rename_i n h
    exact e.verified _ (lookup_eq_some h)
  · split_ifs with hlen
    · cases h : lookup e.verifiedPrefixByBlocks activeBlocks.dropLast with
      | none => exact hzero
      | some n =>
        -- the slots of a prefix of one block fewer are the same slots
        obtain ⟨hn, hw⟩ := e.verified _ (lookup_eq_some h)
        rw [List.length_dropLast] at hn
        refine ⟨hn.trans (Nat.mul_le_mul_right _ (Nat.sub_le _ _)), fun pos hpos => ?_⟩
        have hlt : pos / e.layout.blockSize < activeBlocks.length - 1 :=
          Nat.div_lt_of_lt_mul (by rw [Nat.mul_comm]; exact lt_of_lt_of_le hpos hn)
        rw [← slotAt_dropLast hlt]
        exact hw pos hpos
    · exact hzero

/-- One request of the check: scan what the memo does not cover, and remember the result. -/
def checkRequest (activeBlocks : List ℕ) (seqLen : ℕ)
    (hlen : seqLen ≤ activeBlocks.length * e.layout.blockSize) : Option (Entry V) :=
  let startPos := min (e.verifiedPrefixLen activeBlocks) seqLen
  if h : ∀ pos ∈ List.range' startPos (seqLen - startPos),
      e.Marked (slotAt e.layout.blockSize activeBlocks pos) then
    some (e.remember activeBlocks seqLen ⟨hlen, fun pos hpos => by
      by_cases hs : pos < startPos
      · exact (e.prefixWritten_verifiedPrefixLen activeBlocks).2 pos
          (lt_of_lt_of_le hs (min_le_left _ _))
      · exact h pos (List.mem_range'_1.2 (by omega))⟩)
  else none

theorem le_of_activeBlockIds {row : List ℤ} {n nb bs : ℕ} {blocks : List ℕ} (hbs : 0 < bs)
    (h : activeBlockIds row (ceilDiv n bs) nb = some blocks) : n ≤ blocks.length * bs := by
  unfold activeBlockIds at h
  split_ifs at h with h₁ h₂
  obtain rfl := Option.some.inj h
  rw [List.length_map, List.length_take, Nat.min_eq_left (not_lt.1 h₁)]
  exact le_ceilDiv_mul hbs

theorem blockSize_pos : 0 < e.layout.blockSize := KVCacheLayerSpec.blockSize_pos _

/-- `_vulkan_cache_has_sequences`, with the entry after its updates of the memo; `none` is the
`IndexError` of a missing row. -/
def hasSequences (excludeCurrentToken : Bool) :
    Entry V → List (List ℤ) → List ℕ → Option Bool × Entry V
  | e, _, [] => (some true, e)
  | e, blockTable, fullSeqLen :: seqLens =>
    let seqLen := if excludeCurrentToken then fullSeqLen - 1 else fullSeqLen
    if excludeCurrentToken ∧ seqLen = 0 then
      hasSequences excludeCurrentToken e blockTable.tail seqLens
    else
      match blockTable with
      | [] => (none, e)
      | row :: blockTable =>
        match h : activeBlockIds row (ceilDiv seqLen e.layout.blockSize) e.layout.numBlocks with
        | none => (some false, e)
        | some activeBlocks =>
          match e.checkRequest activeBlocks seqLen (le_of_activeBlockIds e.blockSize_pos h) with
          | none => (some false, e)
          | some e' => hasSequences excludeCurrentToken e' blockTable seqLens

/-- The first `n` tokens of the sequence of `row` lie in existing blocks and are all marked. -/
def RequestWritten (row : List ℤ) (n : ℕ) : Prop :=
  ∃ blocks, activeBlockIds row (ceilDiv n e.layout.blockSize) e.layout.numBlocks = some blocks ∧
    ∀ pos < n, e.Marked (slotAt e.layout.blockSize blocks pos)

/-- Every request has its tokens marked, its last one excepted when `excludeCurrentToken`; a
request without tokens to check is skipped in that case. -/
def SequencesWritten (excludeCurrentToken : Bool) (blockTable : List (List ℤ))
    (seqLens : List ℕ) : Prop :=
  ∀ (i n : ℕ), seqLens[i]? = some n → (excludeCurrentToken → n - 1 ≠ 0) →
    ∃ row, blockTable[i]? = some row ∧
      e.RequestWritten row (if excludeCurrentToken then n - 1 else n)

/-- Two entries that differ at most in their memos. -/
structure SameSlots (e e' : Entry V) : Prop where
  layout : e'.layout = e.layout
  mirror : e'.mirror = e.mirror
  writtenSlots : e'.writtenSlots = e.writtenSlots

@[refl] theorem SameSlots.refl (e : Entry V) : SameSlots e e := ⟨rfl, rfl, rfl⟩

theorem SameSlots.trans {e e' e'' : Entry V} (h : SameSlots e e') (h' : SameSlots e' e'') :
    SameSlots e e'' :=
  ⟨h'.layout.trans h.layout, h'.mirror.trans h.mirror, h'.writtenSlots.trans h.writtenSlots⟩

variable {e}

theorem remember_sameSlots {blocks : List ℕ} {n : ℕ}
    (h : PrefixWritten e.layout.blockSize e.writtenSlots blocks n) :
    SameSlots e (e.remember blocks n h) := by
  cases e
  exact ⟨rfl, rfl, rfl⟩

theorem SameSlots.requestWritten {e' : Entry V} (h : SameSlots e e') {row : List ℤ} {n : ℕ} :
    e'.RequestWritten row n ↔ e.RequestWritten row n := by
  simp only [RequestWritten, Marked, h.layout, h.writtenSlots]

theorem SameSlots.sequencesWritten {e' : Entry V} (h : SameSlots e e') {x : Bool}
    {rows : List (List ℤ)} {ns : List ℕ} :
    e'.SequencesWritten x rows ns ↔ e.SequencesWritten x rows ns := by
  simp only [SequencesWritten, h.requestWritten]

/-- One request is accepted exactly when its tokens are marked, and only the memo changes. -/
theorem checkRequest_eq {activeBlocks : List ℕ} {n : ℕ}
    {hlen : n ≤ activeBlocks.length * e.layout.blockSize} :
    ((e.checkRequest activeBlocks n hlen).isSome ↔
      ∀ pos < n, e.Marked (slotAt e.layout.blockSize activeBlocks pos)) ∧
    ∀ e', e.checkRequest activeBlocks n hlen = some e' → SameSlots e e' := by
  unfold checkRequest
  simp only
  split_ifs with h
  · refine ⟨⟨fun _ pos hpos => ?_, fun _ => Option.isSome_some⟩, fun e' he' => ?_⟩
    · by_cases hs : pos < min (e.verifiedPrefixLen activeBlocks) n
      · exact (e.prefixWritten_verifiedPrefixLen activeBlocks).2 pos
          (lt_of_lt_of_le hs (min_le_left _ _))
      · exact h pos (List.mem_range'_1.2 (by omega))
    · rw [← Option.some.inj he']
      exact remember_sameSlots _
  · refine ⟨⟨fun h' => absurd h' (by simp), fun h' => ?_⟩, by simp⟩
    exact absurd (fun pos hpos => h' pos (by have := List.mem_range'_1.1 hpos; omega)) h

theorem sequencesWritten_skip {rows : List (List ℤ)} {n : ℕ} {ns : List ℕ} (hn : n - 1 = 0) :
    e.SequencesWritten true rows (n :: ns) ↔ e.SequencesWritten true rows.tail ns := by
  constructor
  · intro h i m hi hm
    obtain ⟨row, hrow, hw⟩ := h (i + 1) m hi hm
    exact ⟨row, by rw [List.getElem?_tail]; exact hrow, hw⟩
  · intro h i m hi hm
    cases i with
    | zero =>
      rw [List.getElem?_cons_zero] at hi
      obtain rfl := Option.some.inj hi
      exact absurd hn (hm rfl)
    | succ i =>
      obtain ⟨row, hrow, hw⟩ := h i m hi hm
      exact ⟨row, by rw [← List.getElem?_tail]; exact hrow, hw⟩

theorem sequencesWritten_cons {x : Bool} {row : List ℤ} {rows : List (List ℤ)} {n : ℕ}
    {ns : List ℕ} (hn : x → n - 1 ≠ 0) : e.SequencesWritten x (row :: rows) (n :: ns) ↔
      e.RequestWritten row (if x then n - 1 else n) ∧ e.SequencesWritten x rows ns := by
  constructor
  · intro h
    obtain ⟨row', hrow, hw⟩ := h 0 n rfl hn
    obtain rfl := Option.some.inj hrow
    exact ⟨hw, fun i m hi hm => h (i + 1) m hi hm⟩
  · rintro ⟨h₀, h⟩ i m hi hm
    cases i with
    | zero =>
      rw [List.getElem?_cons_zero] at hi
      obtain rfl := Option.some.inj hi
      exact ⟨row, rfl, h₀⟩
    | succ i => exact h i m hi hm

theorem not_sequencesWritten_nil {x : Bool} {n : ℕ} {ns : List ℕ} (hn : x → n - 1 ≠ 0) :
    ¬ e.SequencesWritten x [] (n :: ns) := by
  intro h
  obtain ⟨row, hrow, -⟩ := h 0 n rfl hn
  simp at hrow

/-- **The memo never changes the answer.**  The check succeeds exactly when every slot it asks for
is marked, and changes nothing but the memo. -/
theorem hasSequences_iff (x : Bool) (e : Entry V) (rows : List (List ℤ)) (ns : List ℕ) :
    ((hasSequences x e rows ns).1 = some true ↔ e.SequencesWritten x rows ns) ∧
      SameSlots e (hasSequences x e rows ns).2 := by
  induction ns generalizing e rows with
  | nil => exact ⟨⟨fun _ i n h => by simp at h, fun _ => rfl⟩, SameSlots.refl e⟩
  | cons n ns ih =>
    unfold hasSequences
    by_cases hskip : x = true ∧ (if x = true then n - 1 else n) = 0
    · obtain ⟨rfl, hn⟩ := hskip
      rw [if_pos ⟨rfl, hn⟩, sequencesWritten_skip hn]
      exact ih e rows.tail
    · have hn : x = true → n - 1 ≠ 0 := fun hx h => hskip ⟨hx, by rw [if_pos hx, h]⟩
      rw [if_neg hskip]
      cases rows with
      | nil => exact ⟨⟨by simp, fun h => absurd h (not_sequencesWritten_nil hn)⟩, SameSlots.refl e⟩
      | cons row rows =>
        rw [sequencesWritten_cons hn]
        simp only
        split
        · rename_i h
          refine ⟨⟨by simp, ?_⟩, SameSlots.refl e⟩
          rintro ⟨⟨blocks, hblocks, -⟩, -⟩
          rw [h] at hblocks
          cases hblocks
        · rename_i blocks h
          have hlen := le_of_activeBlockIds e.blockSize_pos h
          -- the memo of a request changes, and the slots it stands for do not
          obtain ⟨hsome, hsame⟩ := @checkRequest_eq V e blocks _ hlen
          have hreq : e.RequestWritten row (if x = true then n - 1 else n) ↔
              (e.checkRequest blocks _ hlen).isSome := by
            rw [hsome]
            constructor
            · rintro ⟨blocks', hblocks', hw⟩
              obtain rfl := Option.some.inj (h.symm.trans hblocks')
              exact hw
            · exact fun hw => ⟨blocks, h, hw⟩
          rw [hreq]
          cases hc : e.checkRequest blocks _ hlen with
          | none => exact ⟨⟨by simp, by simp⟩, SameSlots.refl e⟩
          | some e' =>
            obtain ⟨hiff, hsame'⟩ := ih e' rows
            simp only [hiff, (hsame e' hc).sequencesWritten, Option.isSome_some, true_and]
            exact (hsame e' hc).trans hsame'

end Entry

end Attention

end VllmVulkan
