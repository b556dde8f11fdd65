import VllmVulkan.Kv.Partition
import VllmVulkan.Kv.Width
import VllmVulkan.Platform.SlotMapping
import Mathlib.Tactic.IntervalCases

/-!
# Sequences in the paged cache

The scheduler gives every request blocks of the cache, and the runner maps the new tokens of a step
to slots and writes them.  A sequence grows step by step while others start, grow and finish; one
that starts with the prefix of another one shares its blocks.

* `Sequence` : the tokens of a request, and the blocks they are stored in;
* `Step`, `Step.after` : what the runner hands over for a step, and the sequences after it;
* `Promised` : what the scheduler promises about a step;
* `Serves` : a sequence starts or finishes, or a layer is written, by the shader on words of 32
  bits;
* `Stored` : **the cache holds the tokens of every sequence**;
* `Stored.write`, `Stored.other`, `Stored.run` : a step keeps this, whichever layer is written, and
  so does a run over a cache of at most `2 ^ 32` elements;
* `decode_attends` : **a decode attends to the tokens of its own request**.
-/

namespace VllmVulkan

namespace PagedRun

open Store Relation VulkanPagedKVLayout Softmax Finset SlotMapping KvWrite

variable {F Q : Type}

/-- The elements of a token, in both planes. -/
abbrev Row (F : Type) := KVPlane → ℕ → F

/-- A sequence: its tokens, and the physical block of each column. -/
structure Sequence (F : Type) where
  tokens : List (Row F)
  blocks : ℕ → ℤ

/-- Element `te` of token `t`. -/
def Sequence.element [Inhabited F] (seq : Sequence F) (t : ℕ) (p : KVPlane) (te : ℕ) : F :=
  seq.tokens.getD t (fun _ _ => default) p te

/-- The slot of token `t`. -/
def Sequence.slot (blockSize : ℕ) (seq : Sequence F) (t : ℕ) : ℤ :=
  seq.blocks (t / blockSize) * blockSize + (t % blockSize : ℕ)

/-- The sequences whose blocks are in use, of requests that are running or whose tokens are kept for
others. -/
abbrev Live (Q F : Type) := Q → Option (Sequence F)

/-- What the runner hands over for a step: row `r` of the batch belongs to `reqs[r]`. -/
structure Step (Q F : Type) where
  reqs : List Q
  numTokens : ℕ
  queryStartLoc : List ℤ
  positions : List ℤ
  blockTable : IntTable
  /-- The buffer that the slots are written to. -/
  slotMapping : List ℤ
  k : Tensor F
  v : Tensor F

namespace Step

variable [Inhabited F] (s : KVCacheLayerSpec) (st : Step Q F)

/-- The elements of token `i`. -/
def row (i : ℕ) : Row F := fun p te =>
  view (planeData st.k st.v p).data (i * s.elementsPerToken + te)

/-- Where the tokens of row `r` start. -/
def start (r : ℕ) : ℕ := (st.queryStartLoc.getD r st.numTokens).toNat

/-- The tokens of row `r`. -/
def tokens (r : ℕ) : List (Row F) :=
  (List.range (st.start (r + 1) - st.start r)).map fun j => st.row s (st.start r + j)

/-- The sequence of row `r` after the step. -/
def extend (r : ℕ) (seq : Sequence F) : Sequence F :=
  ⟨seq.tokens ++ st.tokens s r, fun c => entry st.blockTable r c⟩

variable [DecidableEq Q]

/-- The sequences after the step. -/
def after (live : Live Q F) : Live Q F := fun q =>
  if q ∈ st.reqs then (live q).map (st.extend s (st.reqs.idxOf q)) else live q

end Step

/-- The block of token `t` of a request is in use for no other column. -/
def Unshared (blockSize : ℕ) (live : Live Q F) (q : Q) (t : ℕ) : Prop :=
  ∀ seq, live q = some seq → ∀ q' seq', live q' = some seq' → ∀ t' < seq'.tokens.length,
    seq.blocks (t / blockSize) = seq'.blocks (t' / blockSize) →
      q = q' ∧ t / blockSize = t' / blockSize

/-- A sequence that starts has no tokens, or the first ones of a sequence whose blocks it shares. -/
def StartsWith (blockSize : ℕ) (live : Live Q F) (seq : Sequence F) : Prop :=
  seq.tokens = [] ∨ ∃ q' seq', live q' = some seq' ∧ seq.tokens <+: seq'.tokens ∧
    ∀ t < seq.tokens.length, seq.blocks (t / blockSize) = seq'.blocks (t / blockSize)

/-- What the scheduler promises about a step: the rows belong to sequences that have started, each
one goes on where it ended and keeps its blocks, and no block that is written is in use twice. -/
structure Promised [Inhabited F] [DecidableEq Q] (s : KVCacheLayerSpec) (live : Live Q F)
    (st : Step Q F) : Prop where
  batch : Batch st.numTokens st.queryStartLoc st.positions st.blockTable s.blockSize st.slotMapping
  rows : st.queryStartLoc.length = st.reqs.length + 1
  nodup : st.reqs.Nodup
  next : ∀ (r : ℕ) (q : Q) (seq : Sequence F), st.reqs[r]? = some q → live q = some seq →
    ∀ i, st.start r ≤ i → i < st.start (r + 1) →
      st.positions[i]? = some ((seq.tokens.length + (i - st.start r) : ℕ) : ℤ)
  kept : ∀ (r : ℕ) (q : Q) (seq : Sequence F), st.reqs[r]? = some q → live q = some seq →
    ∀ t < seq.tokens.length,
      entry st.blockTable r (t / s.blockSize : ℕ) = seq.blocks (t / s.blockSize)
  started : ∀ q ∈ st.reqs, (live q).isSome
  exclusive : ∀ (r : ℕ) (q : Q) (seq : Sequence F), st.reqs[r]? = some q → live q = some seq →
    ∀ i, st.start r ≤ i → i < st.start (r + 1) →
      Unshared s.blockSize (st.after s live) q (seq.tokens.length + (i - st.start r))

/-- A sequence starts or finishes, the tokens of a step are written into layer `l` of the cache, or
something is written into another layer. -/
inductive Serves [Inhabited F] [DecidableEq Q] (L : VulkanPagedKVLayout) (cache : GpuTensor)
    (s : KVCacheLayerSpec) (l : ℕ) : Live Q F × (ℕ → F) → Live Q F × (ℕ → F) → Prop
  | start {live : Live Q F} {m : ℕ → F} (q : Q) (seq : Sequence F) (h : live q = none)
    (hshared : StartsWith s.blockSize live seq) :
    Serves L cache s l (live, m) (Function.update live q (some seq), m)
  | finish {live : Live Q F} {m : ℕ → F} (q : Q) :
    Serves L cache s l (live, m) (Function.update live q none, m)
  | write {live : Live Q F} {m m' : ℕ → F} (st : Step Q F) {slots : List ℤ} {sm : Tensor ℤ}
    {name : String} {bar : Bool} {op : Op F} (hst : Promised s live st)
    (hcount : st.numTokens * s.elementsPerToken < 2 ^ 32)
    (hslots : computeSlotMapping st.numTokens st.queryStartLoc st.positions st.blockTable
      s.blockSize st.slotMapping 1 = .ok slots)
    (hsm : sm.data = slots.take st.numTokens)
    (hop : KvOps.buildPagedKvWriteOp L cache s l st.k st.v sm name bar = .ok op)
    (hrun : Runs m (storesWrapped op) m') :
    Serves L cache s l (live, m) (st.after s live, m')
  | other {live : Live Q F} {m m' : ℕ → F} {l' : ℕ} {s' : KVCacheLayerSpec} {k v : Tensor F}
    {sm : Tensor ℤ} {name : String} {bar : Bool} {op : Op F} (hne : l' ≠ l)
    (hs' : L.layerSpec l' = .ok s') (hcount : sm.data.length * s'.elementsPerToken < 2 ^ 32)
    (hop : KvOps.buildPagedKvWriteOp L cache s' l' k v sm name bar = .ok op)
    (hrun : Runs m (storesWrapped op) m') : Serves L cache s l (live, m) (live, m')

/-- **The cache holds the tokens of every sequence**, each in its slot. -/
def Stored (L : VulkanPagedKVLayout) (s : KVCacheLayerSpec) (l : ℕ)
    (x : Live Q F × (ℕ → F)) : Prop :=
  ∀ q seq, x.1 q = some seq → ∀ (t : ℕ) (row : Row F), seq.tokens[t]? = some row →
    ∃ n : ℕ, seq.slot s.blockSize t = n ∧ n < L.capacityTokensPerLayer ∧
      ∀ te < s.elementsPerToken, ∀ p,
        x.2 (slotCell s (L.regionStart l / s.dtypeSize) n te p) = row p te

/-! ### Slots -/

theorem slot_inj {blockSize : ℕ} (hpos : 0 < blockSize) {seq seq' : Sequence F} {t t' : ℕ}
    (heq : seq.slot blockSize t = seq'.slot blockSize t') :
    seq.blocks (t / blockSize) = seq'.blocks (t' / blockSize) ∧ t % blockSize = t' % blockSize := by
  have hpos' : (0 : ℤ) < blockSize := by exact_mod_cast hpos
  have hslots : seq.blocks (t / blockSize) * blockSize + (t : ℤ) % blockSize =
      seq'.blocks (t' / blockSize) * blockSize + (t' : ℤ) % blockSize := by
    exact_mod_cast heq
  obtain ⟨hblock, hmod⟩ := Batch.block_of_slot hpos' hslots
  exact ⟨hblock, by exact_mod_cast hmod⟩

/-- **A slot in an unshared block is in use for one token.** -/
theorem Unshared.eq_of_slot {blockSize : ℕ} {live : Live Q F} {q : Q} {t : ℕ}
    (h : Unshared blockSize live q t) (hpos : 0 < blockSize) {q' : Q} {seq seq' : Sequence F}
    (hq : live q = some seq) (hq' : live q' = some seq') {t' : ℕ} (ht' : t' < seq'.tokens.length)
    (heq : seq.slot blockSize t = seq'.slot blockSize t') : q = q' ∧ t = t' := by
  obtain ⟨hblock, hmod⟩ := slot_inj hpos heq
  obtain ⟨rfl, hdiv⟩ := h seq hq q' seq' hq' t' ht' hblock
  refine ⟨rfl, ?_⟩
  rw [← Nat.div_add_mod t blockSize, hdiv, hmod, Nat.div_add_mod]

section

variable [Inhabited F] [DecidableEq Q] {L : VulkanPagedKVLayout} {cache : GpuTensor}
  {s : KVCacheLayerSpec} {l : ℕ} {live : Live Q F} {st : Step Q F}

namespace Promised

variable (h : Promised s live st)
include h

theorem after_row {r : ℕ} {q : Q} {seq : Sequence F} (hr : st.reqs[r]? = some q)
    (hq : live q = some seq) : st.after s live q = some (st.extend s r seq) := by
  obtain ⟨hlt, rfl⟩ := List.getElem?_eq_some_iff.1 hr
  rw [Step.after, if_pos (List.getElem_mem hlt), hq, Option.map_some, h.nodup.idxOf_getElem]

theorem exists_row {i : ℕ} (hi : i < st.numTokens) : ∃ r q seq, st.reqs[r]? = some q ∧
    live q = some seq ∧ Owner st.queryStartLoc i r ∧ st.start r ≤ i ∧ i < st.start (r + 1) := by
  obtain ⟨r, hown, -⟩ := h.batch.existsUnique_owner hi
  obtain ⟨hr, hle, hlt⟩ := h.batch.owner_iff.1 hown
  have hlen := h.rows
  have hr' : r < st.reqs.length := by omega
  obtain ⟨seq, hseq⟩ := Option.isSome_iff_exists.1 (h.started _ (List.getElem_mem hr'))
  exact ⟨r, st.reqs[r], seq, List.getElem?_eq_getElem hr', hseq, hown, hle, hlt⟩

/-- **The slot of a new token** is the one its sequence has for it. -/
theorem slot_eq {slots : List ℤ} (hslots : computeSlotMapping st.numTokens st.queryStartLoc
      st.positions st.blockTable s.blockSize st.slotMapping 1 = .ok slots) {i r : ℕ} {q : Q}
    {seq : Sequence F} (hr : st.reqs[r]? = some q) (hq : live q = some seq)
    (hown : Owner st.queryStartLoc i r) (hle : st.start r ≤ i) (hlt : i < st.start (r + 1)) :
    slots[i]? = some ((st.extend s r seq).slot s.blockSize
      (seq.tokens.length + (i - st.start r))) := by
  rw [h.batch.computeSlotMapping_eq] at hslots
  rw [← Except.ok.inj hslots, h.batch.written_token hown (h.next r q seq hr hq i hle hlt),
    SlotMapping.slot, Sequence.slot, Step.extend]
  push_cast
  rfl

omit [DecidableEq Q] h in
theorem extend_getElem? {r t : ℕ} {seq : Sequence F} {row : Row F}
    (ht : (st.extend s r seq).tokens[t]? = some row) : (seq.tokens[t]? = some row) ∨
      ∃ i, st.start r ≤ i ∧ i < st.start (r + 1) ∧ t = seq.tokens.length + (i - st.start r) ∧
        row = st.row s i := by
  rw [Step.extend, List.getElem?_append] at ht
  split_ifs at ht with hlt
  · exact .inl ht
  · simp only [Step.tokens, List.getElem?_map, Option.map_eq_some_iff] at ht
    obtain ⟨j, hj, rfl⟩ := ht
    obtain ⟨hjlt, rfl⟩ := List.getElem?_eq_some_iff.1 hj
    rw [List.length_range] at hjlt
    refine .inr ⟨st.start r + (t - seq.tokens.length), by omega, by omega, by omega, ?_⟩
    rw [List.getElem_range]

omit [DecidableEq Q] h in
theorem lt_length_extend {r i : ℕ} {seq : Sequence F} (hle : st.start r ≤ i)
    (hlt : i < st.start (r + 1)) :
    seq.tokens.length + (i - st.start r) < (st.extend s r seq).tokens.length := by
  rw [Step.extend, List.length_append, Step.tokens, List.length_map, List.length_range]
  omega

theorem owner_of_row {i r : ℕ} {q : Q} (hr : st.reqs[r]? = some q) (hle : st.start r ≤ i)
    (hlt : i < st.start (r + 1)) : i < st.numTokens ∧ Owner st.queryStartLoc i r := by
  have hlen := h.rows
  have hr' := (List.getElem?_eq_some_iff.1 hr).1
  have hstop : st.start (r + 1) ≤ st.numTokens := h.batch.start_le_tokens (by omega)
  exact ⟨hlt.trans_le hstop, h.batch.owner_iff.2 ⟨by omega, hle, hlt⟩⟩

theorem exists_slot {slots : List ℤ} (hslots : computeSlotMapping st.numTokens st.queryStartLoc
      st.positions st.blockTable s.blockSize st.slotMapping 1 = .ok slots) {sm : Tensor ℤ}
    (hsm : sm.data = slots.take st.numTokens)
    (hrange : ∀ z ∈ sm.data, 0 ≤ z ∧ z < L.capacityTokensPerLayer) {i r : ℕ} {q : Q}
    {seq : Sequence F} (hi : i < st.numTokens) (hr : st.reqs[r]? = some q)
    (hq : live q = some seq) (hown : Owner st.queryStartLoc i r) (hle : st.start r ≤ i)
    (hlt : i < st.start (r + 1)) :
    ∃ n : ℕ, (st.extend s r seq).slot s.blockSize (seq.tokens.length + (i - st.start r)) = n ∧
      n < L.capacityTokensPerLayer ∧ view (sm.data.map Int.toNat) i = n := by
  have hslot := h.slot_eq hslots hr hq hown hle hlt
  have hget : sm.data[i]? = some ((st.extend s r seq).slot s.blockSize
      (seq.tokens.length + (i - st.start r))) := by
    rw [hsm, List.getElem?_take_of_lt hi, hslot]
  obtain ⟨hpos, hcap⟩ := hrange _ (List.mem_of_getElem? hget)
  obtain ⟨n, hn⟩ := Int.eq_ofNat_of_zero_le hpos
  rw [hn] at hget hcap
  refine ⟨n, hn, by exact_mod_cast hcap, ?_⟩
  simp [view, List.getD_eq_getElem?_getD, hget]

theorem length_slots {slots : List ℤ} (hslots : computeSlotMapping st.numTokens st.queryStartLoc
      st.positions st.blockTable s.blockSize st.slotMapping 1 = .ok slots) {sm : Tensor ℤ}
    (hsm : sm.data = slots.take st.numTokens) : sm.data.length = st.numTokens := by
  rw [h.batch.computeSlotMapping_eq] at hslots
  rw [hsm, List.length_take, ← Except.ok.inj hslots, h.batch.length_written (Nat.le_refl _)]
  exact Nat.min_eq_left h.batch.room

theorem row_unique {i r r' : ℕ} {q : Q} (hr : st.reqs[r]? = some q)
    (hr' : st.reqs[r']? = some q) {len t : ℕ} (ht : t = len + (i - st.start r))
    (hle : st.start r ≤ i) {i' : ℕ} (ht' : t = len + (i' - st.start r'))
    (hle' : st.start r' ≤ i') : i = i' := by
  obtain ⟨hlt, rfl⟩ := List.getElem?_eq_some_iff.1 hr
  obtain ⟨hlt', heq⟩ := List.getElem?_eq_some_iff.1 hr'
  obtain rfl := (h.nodup.getElem_inj_iff).1 heq
  omega

theorem slots_nodup {slots : List ℤ} (hslots : computeSlotMapping st.numTokens st.queryStartLoc
      st.positions st.blockTable s.blockSize st.slotMapping 1 = .ok slots) {sm : Tensor ℤ}
    (hsm : sm.data = slots.take st.numTokens)
    (hrange : ∀ z ∈ sm.data, 0 ≤ z ∧ z < L.capacityTokensPerLayer) :
    ((List.range st.numTokens).map (view (sm.data.map Int.toNat))).Nodup := by
  refine List.nodup_range.map_on ?_
  intro i hi i' hi' heq
  rw [List.mem_range] at hi hi'
  obtain ⟨r, q, seq, hr, hq, hown, hle, hlt⟩ := h.exists_row hi
  obtain ⟨r', q', seq', hr', hq', hown', hle', hlt'⟩ := h.exists_row hi'
  obtain ⟨n, hn, -, hview⟩ := h.exists_slot hslots hsm hrange hi hr hq hown hle hlt
  obtain ⟨n', hn', -, hview'⟩ := h.exists_slot hslots hsm hrange hi' hr' hq' hown' hle' hlt'
  obtain rfl : n = n' := hview.symm.trans (heq.trans hview')
  obtain ⟨rfl, ht⟩ := (h.exclusive r q seq hr hq i hle hlt).eq_of_slot s.blockSize_pos
    (h.after_row hr hq) (h.after_row hr' hq') (lt_length_extend hle' hlt') (hn.trans hn'.symm)
  obtain rfl : seq = seq' := Option.some.inj (hq.symm.trans hq')
  exact h.row_unique hr hr' rfl hle ht hle'

end Promised

/-! ### A step -/

/-- **A step keeps the tokens of every sequence**, and adds its own. -/
theorem Stored.write {m m' : ℕ → F} (hs : L.layerSpec l = .ok s)
    (hst : Promised s live st) {slots : List ℤ}
    (hslots : computeSlotMapping st.numTokens st.queryStartLoc st.positions st.blockTable
      s.blockSize st.slotMapping 1 = .ok slots) {sm : Tensor ℤ}
    (hsm : sm.data = slots.take st.numTokens) {name : String} {bar : Bool} {op : Op F}
    (hop : KvOps.buildPagedKvWriteOp L cache s l st.k st.v sm name bar = .ok op)
    (hrun : Runs m (KvWrite.stores op) m') (h : Stored L s l (live, m)) :
    Stored L s l (st.after s live, m') := by
  obtain ⟨_, _, -, -, -, -, hrange, -⟩ := KvOps.buildPagedKvWriteOp_eq_ok.1 hop
  have hlen := hst.length_slots hslots hsm
  have hstores := KvWrite.stores_eq hop (layerBaseOffset_natCast (layerSpec_natCast.1 hs))
  rw [hlen] at hstores
  have hnodup : ((KvWrite.stores op).map Prod.fst).Nodup := by
    rw [hstores]
    exact nodup_stores s _ _ _ _ (hst.slots_nodup hslots hsm hrange)
  -- a token of the batch is stored in its slot
  have hnew : ∀ {r q seq i}, st.reqs[r]? = some q → live q = some seq → st.start r ≤ i →
      i < st.start (r + 1) → ∃ n : ℕ, (st.extend s r seq).slot s.blockSize
        (seq.tokens.length + (i - st.start r)) = n ∧ n < L.capacityTokensPerLayer ∧
          ∀ te < s.elementsPerToken, ∀ p,
            m' (slotCell s (L.regionStart l / s.dtypeSize) n te p) = st.row s i p te := by
    intro r q seq i hr hq hle hlt
    obtain ⟨hi, hown⟩ := hst.owner_of_row hr hle hlt
    obtain ⟨n, hn, hcap, hview⟩ := hst.exists_slot hslots hsm hrange hi hr hq hown hle hlt
    refine ⟨n, hn, hcap, fun te hte p => ?_⟩
    have hmem : (slotCell s (L.regionStart l / s.dtypeSize) n te p, st.row s i p te) ∈
        KvWrite.stores op := by
      rw [hstores, ← hview]
      exact List.mem_flatMap.2 ⟨i, List.mem_range.2 hi,
        List.mem_map.2 ⟨(te, p), mem_tokenElements.2 hte, rfl⟩⟩
    exact hrun.of_mem hnodup hmem
  -- an old token is not overwritten
  have hold : ∀ {q seq seq' t} {n : ℕ}, live q = some seq → st.after s live q = some seq' →
      t < seq.tokens.length → t < seq'.tokens.length → seq'.slot s.blockSize t = n →
      ∀ te < s.elementsPerToken, ∀ p, m' (slotCell s (L.regionStart l / s.dtypeSize) n te p) =
        m (slotCell s (L.regionStart l / s.dtypeSize) n te p) := by
    intro q seq seq' t n hq hq' ht ht' hn te hte p
    refine hrun.of_notMem fun hmem => ?_
    rw [hstores, List.map_flatMap, List.mem_flatMap] at hmem
    obtain ⟨i, hi, hcell⟩ := hmem
    rw [tokenStores, List.map_map, List.mem_map] at hcell
    obtain ⟨⟨te', p'⟩, hep, hcell⟩ := hcell
    obtain ⟨hslot, -, -⟩ := slotCell_inj (mem_tokenElements.1 hep) hte hcell
    obtain ⟨r, q₁, seq₁, hr, hq₁, hown, hle, hlt⟩ := hst.exists_row (List.mem_range.1 hi)
    obtain ⟨n₁, hn₁, -, hview⟩ :=
      hst.exists_slot hslots hsm hrange (List.mem_range.1 hi) hr hq₁ hown hle hlt
    rw [hview] at hslot
    subst hslot
    obtain ⟨rfl, rfl⟩ := (hst.exclusive r q₁ seq₁ hr hq₁ i hle hlt).eq_of_slot s.blockSize_pos
      (hst.after_row hr hq₁) hq' ht' (hn₁.trans hn.symm)
    obtain rfl : seq₁ = seq := Option.some.inj (hq₁.symm.trans hq)
    omega
  intro q seq' hq' t row ht
  by_cases hmem : q ∈ st.reqs
  · -- the sequence is extended
    obtain ⟨r, hlt, rfl⟩ := List.mem_iff_getElem.1 hmem
    obtain ⟨seq, hq⟩ := Option.isSome_iff_exists.1 (hst.started _ hmem)
    have hr := List.getElem?_eq_getElem hlt
    obtain rfl : st.extend s r seq = seq' :=
      Option.some.inj ((hst.after_row hr hq).symm.trans hq')
    rcases Promised.extend_getElem? ht with hold' | ⟨i, hle, hlt', rfl, rfl⟩
    · obtain ⟨n, hn, hcap, hcells⟩ := h _ seq hq t row hold'
      have hlen' : t < seq.tokens.length := (List.getElem?_eq_some_iff.1 hold').1
      have hn' : (st.extend s r seq).slot s.blockSize t = n := by
        rw [← hn, Sequence.slot, Sequence.slot, ← hst.kept r _ seq hr hq t hlen']
        rfl
      refine ⟨n, hn', hcap, fun te hte p => ?_⟩
      exact (hold hq hq' hlen' (List.getElem?_eq_some_iff.1 ht).1 hn' te hte p).trans
        (hcells te hte p)
    · exact hnew hr hq hle hlt'
  · -- the sequence has no tokens in the batch
    have hq : live q = some seq' := (if_neg hmem).symm.trans hq'
    obtain ⟨n, hn, hcap, hcells⟩ := h q seq' hq t row ht
    have hlen' : t < seq'.tokens.length := (List.getElem?_eq_some_iff.1 ht).1
    refine ⟨n, hn, hcap, fun te hte p => ?_⟩
    exact (hold hq hq' hlen' hlen' hn te hte p).trans (hcells te hte p)

/-! ### Other layers -/

/-- The coordinates of element `te` of the token in a slot of layer `j`. -/
def slotCoord (s : KVCacheLayerSpec) (j slot te : ℕ) (p : KVPlane) : Coord :=
  ⟨j, slot / s.blockSize, slot % s.blockSize, te / s.headSize, te % s.headSize, p⟩

section

variable {j slot te : ℕ} {p : KVPlane}

omit [Inhabited F] [DecidableEq Q] in
theorem slotCoord_valid (hs : L.layerSpec j = .ok s) (hslot : slot < L.capacityTokensPerLayer)
    (hte : te < s.elementsPerToken) : (slotCoord s j slot te p).Valid L := by
  refine ⟨s, hs, ?_, Nat.mod_lt _ s.blockSize_pos,
    (Nat.div_lt_iff_lt_mul s.headSize_pos).2 hte, Nat.mod_lt _ s.headSize_pos⟩
  rw [slotCoord, Nat.div_lt_iff_lt_mul s.blockSize_pos, blockSize_of_layerSpec hs]
  exact hslot

theorem firstByte_slotCoord (slot te : ℕ) (p : KVPlane) (hs : L.layerSpec j = .ok s)
    (hd : s.dtypeSize ∣ L.regionStart j) : L.firstByte (slotCoord s j slot te p) =
      s.dtypeSize * slotCell s (L.regionStart j / s.dtypeSize) slot te p := by
  have hscalar : scalarIndex s (slot % s.blockSize) (te / s.headSize) (te % s.headSize) =
      slot % s.blockSize * s.elementsPerToken + te := by
    rw [scalarIndex, Nat.add_mul, Nat.add_assoc, Nat.div_add_mod', Nat.mul_assoc]
    rfl
  rw [firstByte, slotCoord, specAt_of_getElem? (layerSpec_natCast.1 hs), hscalar, slotCell,
    s.bytesPerBlock_eq]
  nth_rewrite 1 [← Nat.mul_div_cancel' hd]
  ring

/-- **Layers never share a cell.** -/
theorem layer_of_slotCell {j' slot' te' : ℕ} {s' : KVCacheLayerSpec} {p' : KVPlane}
    (hd : ∀ s ∈ L.layerSpecs, s.dtypeSize = s'.dtypeSize) (hs : L.layerSpec j = .ok s)
    (hs' : L.layerSpec j' = .ok s') (hslot : slot < L.capacityTokensPerLayer)
    (hslot' : slot' < L.capacityTokensPerLayer) (hte : te < s.elementsPerToken)
    (hte' : te' < s'.elementsPerToken)
    (h : slotCell s (L.regionStart j / s.dtypeSize) slot te p =
      slotCell s' (L.regionStart j' / s'.dtypeSize) slot' te' p') : j = j' := by
  have hds : s.dtypeSize = s'.dtypeSize := hd s (mem_of_layerSpec hs)
  have hbyte := firstByte_slotCoord slot te p hs (hds ▸ dvd_regionStart hd j)
  have hbyte' := firstByte_slotCoord slot' te' p' hs' (dvd_regionStart hd j')
  have hwidth : ∀ {k slot te : ℕ} {p} {s : KVCacheLayerSpec}, L.layerSpec k = .ok s →
      (L.specAt (slotCoord s k slot te p).layer).dtypeSize = s.dtypeSize := by
    intro k slot te p s hs
    rw [slotCoord, specAt_of_getElem? (layerSpec_natCast.1 hs)]
  have hcoord := tiles_scalars.unique (slotCoord s j slot te p) (slotCoord s' j' slot' te' p')
    (s.dtypeSize * slotCell s (L.regionStart j / s.dtypeSize) slot te p)
    (slotCoord_valid hs hslot hte) (slotCoord_valid hs' hslot' hte')
    ⟨hbyte.le, by rw [hbyte, hwidth hs]; exact Nat.lt_add_of_pos_right s.dtypeSize_pos⟩
    ⟨by rw [hbyte', h, hds], by
      rw [hbyte', h, hds, hwidth hs']; exact Nat.lt_add_of_pos_right s'.dtypeSize_pos⟩
  exact congrArg Coord.layer hcoord

end

omit [DecidableEq Q] in
/-- **A write to another layer keeps the tokens of every sequence.** -/
theorem Stored.other {m m' : ℕ → F} {l' : ℕ} {s' : KVCacheLayerSpec}
    (hd : ∀ t ∈ L.layerSpecs, t.dtypeSize = s.dtypeSize) (hs : L.layerSpec l = .ok s)
    (hne : l' ≠ l) (hs' : L.layerSpec l' = .ok s') {k v : Tensor F} {sm : Tensor ℤ}
    {name : String} {bar : Bool} {op : Op F}
    (hop : KvOps.buildPagedKvWriteOp L cache s' l' k v sm name bar = .ok op)
    (hrun : Runs m (KvWrite.stores op) m') (h : Stored L s l (live, m)) :
    Stored L s l (live, m') := by
  obtain ⟨_, _, -, -, -, -, hrange, -⟩ := KvOps.buildPagedKvWriteOp_eq_ok.1 hop
  have hstores := KvWrite.stores_eq hop (layerBaseOffset_natCast (layerSpec_natCast.1 hs'))
  intro q seq hq t row ht
  obtain ⟨n, hn, hcap, hcells⟩ := h q seq hq t row ht
  refine ⟨n, hn, hcap, fun te hte p => (hrun.of_notMem fun hmem => ?_).trans (hcells te hte p)⟩
  rw [hstores, List.map_flatMap, List.mem_flatMap] at hmem
  obtain ⟨i, hi, hcell⟩ := hmem
  rw [tokenStores, List.map_map, List.mem_map] at hcell
  obtain ⟨⟨te', p'⟩, hep, hcell⟩ := hcell
  have hlt := List.mem_range.1 hi
  obtain ⟨hpos, hcap'⟩ := hrange _ (List.getElem_mem hlt)
  have hview : view (sm.data.map Int.toNat) i = sm.data[i].toNat := by
    simp [view, List.getD_eq_getElem?_getD, hlt]
  refine hne (layer_of_slotCell hd hs' hs ?_ hcap (mem_tokenElements.1 hep) hte hcell)
  rw [hview]
  omega

/-! ### A run -/

omit [Inhabited F] in
/-- **A sequence that starts** has the tokens that it shares. -/
theorem Stored.start {m : ℕ → F} {q : Q} {seq : Sequence F}
    (hshared : StartsWith s.blockSize live seq) (h : Stored L s l (live, m)) :
    Stored L s l (Function.update live q (some seq), m) := by
  intro q₁ seq₁ hq₁ t row ht
  by_cases heq : q₁ = q
  · subst heq
    obtain rfl : seq = seq₁ := Option.some.inj ((Function.update_self q₁ _ _).symm.trans hq₁)
    have hlt := (List.getElem?_eq_some_iff.1 ht).1
    rcases hshared with hnil | ⟨q', seq', hq', hpre, hblocks⟩
    · rw [hnil] at hlt
      cases hlt
    · obtain ⟨n, hn, hstored⟩ := h q' seq' hq' t row ((List.prefix_iff_getElem?.1 hpre t hlt).trans
        ((List.getElem?_eq_getElem hlt).symm.trans ht))
      refine ⟨n, ?_, hstored⟩
      rw [← hn, Sequence.slot, Sequence.slot, hblocks t hlt]
  · exact h q₁ seq₁ ((Function.update_of_ne heq _ _).symm.trans hq₁) t row ht

omit [Inhabited F] in
/-- **A sequence that finishes** leaves the others alone. -/
theorem Stored.finish {m : ℕ → F} {q : Q} (h : Stored L s l (live, m)) :
    Stored L s l (Function.update live q none, m) := by
  intro q₁ seq₁ hq₁ t row ht
  by_cases heq : q₁ = q
  · subst heq
    have hnone : (none : Option (Sequence F)) = some seq₁ :=
      (Function.update_self q₁ _ _).symm.trans hq₁
    cases hnone
  · exact h q₁ seq₁ ((Function.update_of_ne heq _ _).symm.trans hq₁) t row ht

/-- **A run keeps the tokens of every sequence**, in a buffer of at most `2 ^ 32` elements. -/
theorem Stored.run (hd : ∀ t ∈ L.layerSpecs, t.dtypeSize = s.dtypeSize)
    (htotal : L.totalBytes ≤ s.dtypeSize * 2 ^ 32) (hs : L.layerSpec l = .ok s)
    {x y : Live Q F × (ℕ → F)} (hrun : ReflTransGen (Serves L cache s l) x y)
    (h : Stored L s l x) : Stored L s l y := by
  have hdvd := dvd_regionStart hd
  induction hrun with
  | refl => exact h
  | tail _ hstep ih =>
    cases hstep with
    | start q seq _ hshared => exact ih.start hshared
    | finish q => exact ih.finish
    | write st hst hcount hslots hsm hop hwrite =>
      have hlen := hst.length_slots hslots hsm
      rw [storesWrapped_eq (noWrap_of_totalBytes_le hs (hdvd l) htotal hop (by rwa [hlen]))]
        at hwrite
      exact Stored.write hs hst hslots hsm hop hwrite ih
    | other hne hs' hcount hop hwrite =>
      have hd' := hd _ (mem_of_layerSpec hs')
      rw [storesWrapped_eq (noWrap_of_totalBytes_le hs' (by rw [hd']; exact hdvd _)
        (by rwa [hd']) hop hcount)] at hwrite
      exact Stored.other hd hs hne hs' hop hwrite ih

end

/-! ### Decode -/

section

variable [Inhabited F] {L : VulkanPagedKVLayout} {s : KVCacheLayerSpec} {l : ℕ} {live : Live Q F}
  {m : ℕ → F} {req : Q} {seq : Sequence F} {bt : Tensor ℤ}

theorem Stored.gather (h : Stored L s l (live, m)) (hreq : live req = some seq)
    (hlen : ceilDiv seq.tokens.length s.blockSize ≤ bt.data.length)
    (hrange : ∀ b ∈ bt.data.take (ceilDiv seq.tokens.length s.blockSize), 0 ≤ b ∧ b < L.numBlocks)
    {t : ℕ} (ht : t < seq.tokens.length)
    (hbt : bt.data[t / s.blockSize]? = some (seq.blocks (t / s.blockSize))) {kvHead e : ℕ}
    (hh : kvHead < s.numKvHeads) (he : e < s.headSize) (p : KVPlane) :
    m (cellIndex s (L.regionStart l / s.dtypeSize)
        (Decode.activeBlocks s bt seq.tokens.length (t / s.blockSize)) (t % s.blockSize) kvHead e
        p) = seq.element t p (kvHead * s.headSize + e) := by
  obtain ⟨b, hb, -, hview⟩ := Decode.exists_block hlen hrange ht
  obtain ⟨n, hn, -, hcells⟩ := h req seq hreq t _ (List.getElem?_eq_getElem ht)
  have hmod := Nat.mod_lt t s.blockSize_pos
  -- the slot of the token is its place in the block
  have hslot : n = s.blockSize * b + t % s.blockSize := by
    rw [Sequence.slot, ← Option.some.inj (hb.symm.trans hbt)] at hn
    have hn' : n = b * s.blockSize + t % s.blockSize := by exact_mod_cast hn.symm
    rw [hn', Nat.mul_comm]
  have hdiv : n / s.blockSize = b := by
    rw [hslot, Nat.mul_add_div s.blockSize_pos, Nat.div_eq_of_lt hmod, Nat.add_zero]
  have hoff : n % s.blockSize = t % s.blockSize := by
    rw [hslot, Nat.mul_add_mod, Nat.mod_mod]
  rw [Decode.activeBlocks, hview, ← hdiv, ← hoff, cellIndex_eq_slotCell, Sequence.element,
    List.getD_eq_getElem _ _ ht]
  exact hcells _ (headElement_lt hh he) p

variable [Field F] [LinearOrder F] [IsStrictOrderedRing F] [DecidableEq Q] {E : ExpFn F}
  {sqrt : F → F} {cache tensor : GpuTensor}

/-- **A decode attends to the tokens of its own request.**  From an empty engine, sequences start,
grow, share a prefix and finish in any order, and every layer is written along the way, in words of
32 bits.  The layers have one dtype size, the cache at most `2 ^ 32` elements, and the outputs of
the decode can be counted in 32 bits.  Then the cache holds the tokens of every sequence, no index
of the decode wraps, and in whichever variant of the shader, every output of every query head is the
softmax attention over the keys and values that the request has stored for its K/V head. -/
theorem decode_attends (hd : ∀ t ∈ L.layerSpecs, t.dtypeSize = s.dtypeSize)
    (htotal : L.totalBytes ≤ s.dtypeSize * 2 ^ 32) (hs : L.layerSpec l = .ok s)
    {base : ℕ} (hbase : L.layerBaseOffset l = .ok base)
    {m₀ : ℕ → F} (hrun : ReflTransGen (Serves L cache s l) (fun _ => none, m₀) (live, m))
    (hreq : live req = some seq)
    (hbt : ∀ t < seq.tokens.length,
      bt.data[t / s.blockSize]? = some (seq.blocks (t / s.blockSize)))
    {names : KvOps.DecodeNames} (hn : names ∈ [KvOps.decodeNamesF32, KvOps.decodeNamesF16])
    {avail : List String} {name : String} {c : ℕ}
    (hsel : KvOps.selectDecodeShader avail names.plain names.coop names.coop512 s.headSize =
      .ok (name, c)) {q : Tensor F} {scale : Option F} {op : Op F} {numQ D : ℕ}
    (hop : KvOps.buildPagedAttnDecodeOp sqrt L tensor s base name c q bt seq.tokens.length scale =
      .ok (op, numQ, D)) (hcount : numQ * s.headSize < 2 ^ 32) :
    Stored L s l (live, m) ∧ Decode.NoWrap op ∧ (∃ ss, Coop.OpStores E op m ss) ∧
      ∀ ss out out', Coop.OpStores E op m ss → Runs out ss out' →
        ∀ qh < numQ, ∀ e < s.headSize, ∃ query : ℕ → F,
          (∀ i < s.headSize, q.get? [qh, i] = some (query i)) ∧
          let kvHead := qh / (numQ / s.numKvHeads)
          out' (qh * s.headSize + e) = attend E seq.tokens.length
            (fun t => scale.getD (1 / sqrt s.headSize) * ∑ i ∈ range s.headSize,
              query i * seq.element t .k (kvHead * s.headSize + i))
            fun t => seq.element t .v (kvHead * s.headSize + e) := by
  have hstored : Stored L s l (live, m) := by
    refine Stored.run hd htotal hs hrun ?_
    intro q seq hq
    cases hq
  obtain rfl : L.regionStart l = base :=
    Except.ok.inj ((layerBaseOffset_natCast (layerSpec_natCast.1 hs)).symm.trans hbase)
  have hnowrap := Decode.noWrap_of_totalBytes_le hn hsel hs (dvd_regionStart hd l) htotal hop hcount
  refine ⟨hstored, hnowrap, Coop.exists_opStores hn hsel hop E m, ?_⟩
  intro ss out out' hss hwrite qh hqh e he
  have hperm := Coop.opStores_perm hn hsel hop hss
  obtain ⟨numQ', n, hQ, hdvd, hq, hpos, hseq, -, -, hlen, hrange, -, hr⟩ :=
    KvOps.buildPagedAttnDecodeOp_eq_ok.1 hop
  obtain ⟨-, rfl, -⟩ : op = _ ∧ numQ = numQ' ∧ D = s.headSize := by
    simpa only [Prod.mk.injEq] using hr
  obtain rfl : seq.tokens.length = n := by exact_mod_cast hseq
  have hkv : qh / (numQ / s.numKvHeads) < s.numKvHeads := by
    rw [Nat.div_lt_iff_lt_mul (Nat.div_pos (Nat.le_of_dvd hQ hdvd) s.numKvHeads_pos),
      Nat.mul_div_cancel' hdvd]
    exact hqh
  have hgather := fun {t : ℕ} (ht : t < seq.tokens.length) {i : ℕ} (hi : i < s.headSize)
    (p : KVPlane) => hstored.gather hreq hlen hrange ht (hbt t ht) hkv hi p
  refine ⟨fun i => view q.data (qh * s.headSize + i), fun i hi => Decode.get?_query hq hqh hi, ?_⟩
  -- the output is stored once, and is one scan of the sequence
  rw [Int.toNat_natCast] at hperm
  have hnodup : (ss.map Prod.fst).Nodup := by
    refine (hperm.map Prod.fst).nodup_iff.2 ?_
    rw [Decode.map_fst_main E ⟨seq.tokens.length, numQ, _, _, _, _, _, _, _⟩]
    exact List.nodup_range
  have hmem : (qh * s.headSize + e, Decode.output E s seq.tokens.length
      (L.regionStart l / s.dtypeSize) numQ (scale.getD (1 / sqrt s.headSize)) (view q.data)
      (Decode.activeBlocks s bt seq.tokens.length) m qh e) ∈ ss := by
    rw [hperm.mem_iff, Decode.flatMap_main E ⟨seq.tokens.length, numQ, _, _, _, _, _, _, _⟩]
    refine List.mem_flatMap.2 ⟨qh, List.mem_range.2 hqh, ?_⟩
    refine List.mem_map.2 ⟨e, List.mem_range.2 he, ?_⟩
    exact Prod.ext rfl (Decode.scan_eq E s hpos numQ _ _ _ _ _ qh e)
  refine (hwrite.of_mem hnodup hmem).trans ?_
  rw [Decode.output]
  refine attend_congr E (fun t ht => ?_) fun t ht => hgather ht he .v
  rw [Decode.logit, mul_comm]
  exact congrArg _ (sum_congr rfl fun i hi => by rw [hgather ht (mem_range.1 hi) .k])

end

/-- The last layer of the small layout. -/
def smallSpec : KVCacheLayerSpec := smallLayout.layerSpecs.getLast (by decide)

/-- The first three tokens of one request, in blocks `1` and `0`. -/
def smallStep : Step Bool ℝ where
  reqs := [false]
  numTokens := 3
  queryStartLoc := [0, 3]
  positions := [0, 1, 2]
  blockTable := ⟨[[1, 0]], 2, by decide⟩
  slotMapping := [-1, -1, -1]
  k := ⟨[3, 2, 1], [1, 2, 0, 1, 2, 2], rfl⟩
  v := ⟨[3, 2, 1], [2, 0, 1, 1, 0, 2], rfl⟩

/-- The request before its first step. -/
def smallStart : Live Bool ℝ := Function.update (fun _ => none) false (some ⟨[], fun _ => 0⟩)

/-- Another request, which starts with the first two of these tokens. -/
noncomputable def smallSharing : Sequence ℝ :=
  ⟨[smallStep.row smallSpec 0, smallStep.row smallSpec 1], fun _ => 1⟩

theorem smallStep_promised : Promised smallSpec smallStart smallStep := by
  have hstart : smallStart false = some ⟨[], fun _ => 0⟩ := rfl
  have hblock : ∀ c < 2, ∀ c' < 2, entry smallStep.blockTable 0 (c : ℕ) =
      entry smallStep.blockTable 0 (c' : ℕ) → c = c' := by decide
  have hrow : ∀ {r : ℕ} {q : Bool}, smallStep.reqs[r]? = some q → r = 0 ∧ q = false := by
    intro r q hr
    obtain rfl : r = 0 := Nat.lt_one_iff.1 (List.getElem?_eq_some_iff.1 hr).1
    exact ⟨rfl, (Option.some.inj hr).symm⟩
  have hafter : smallStep.after smallSpec smallStart true = none := rfl
  refine ⟨⟨rfl, by decide, rfl, by decide, by decide, by decide, by decide, by decide, by decide⟩,
    rfl, by decide, ?_, ?_, by decide, ?_⟩
  · intro r q seq hr hq i hle hlt
    obtain ⟨rfl, rfl⟩ := hrow hr
    obtain rfl := Option.some.inj (hstart.symm.trans hq)
    have hi : i < 3 := hlt
    interval_cases i <;> rfl
  · intro r q seq hr hq t ht
    obtain ⟨-, rfl⟩ := hrow hr
    obtain rfl := Option.some.inj (hstart.symm.trans hq)
    cases ht
  · intro r q seq hr hq i hle hlt seq₁ hq₁ q' seq' hq' t' ht' hblocks
    obtain ⟨rfl, rfl⟩ := hrow hr
    obtain rfl := Option.some.inj (hstart.symm.trans hq)
    cases q' with
    | true => cases hafter.symm.trans hq'
    | false =>
      obtain rfl := Option.some.inj hq₁
      obtain rfl := Option.some.inj hq'
      have hi : i < 3 := hlt
      have ht3 : t' < 3 := ht'
      have hlen : ([] : List (Row ℝ)).length + (i - smallStep.start 0) = i := Nat.zero_add i
      rw [hlen] at hblocks ⊢
      exact ⟨rfl, hblock (i / 2) (by omega) (t' / 2) (by omega) hblocks⟩

/-- A request writes three tokens, another one starts with the first two of them, and the first one
finishes: a decode of two query heads for the other one, by the cooperative shader. -/
theorem decode_attends_smallLayout :
    ∃ (w op : Op ℝ), KvOps.buildPagedKvWriteOp smallLayout ⟨0, 128⟩ smallSpec 1 smallStep.k
        smallStep.v ⟨[3], [2, 3, 0], rfl⟩ "paged_kv_write_f32" false = .ok w ∧
      KvOps.buildPagedAttnDecodeOp (id : ℝ → ℝ) smallLayout ⟨0, 128⟩ smallSpec 64
        "paged_attn_decode_f32_coop" 256 ⟨[2, 1], [1, 2], rfl⟩ ⟨[1], [1], rfl⟩ 2
        (some (1 / 2)) = .ok (op, 2, 1) ∧
      ∀ m ss out out', Runs (fun _ => 0) (storesWrapped w) m →
        Coop.OpStores ExpFn.real op m ss → Runs out ss out' →
        ∃ query : ℕ → ℝ, (∀ i < 1,
          (⟨[2, 1], [1, 2], rfl⟩ : Tensor ℝ).get? [1, i] = some (query i)) ∧
          out' 1 = attend ExpFn.real 2 (fun t => 1 / 2 * ∑ i ∈ range 1,
            query i * smallStep.row smallSpec t .k (1 + i))
            fun t => smallStep.row smallSpec t .v 1 := by
  obtain ⟨w, hw⟩ : ∃ w : Op ℝ, KvOps.buildPagedKvWriteOp smallLayout ⟨0, 128⟩ smallSpec 1
      smallStep.k smallStep.v ⟨[3], [2, 3, 0], rfl⟩ "paged_kv_write_f32" false = .ok w := ⟨_, rfl⟩
  obtain ⟨op, hop⟩ : ∃ op : Op ℝ, KvOps.buildPagedAttnDecodeOp (id : ℝ → ℝ) smallLayout ⟨0, 128⟩
      smallSpec 64 "paged_attn_decode_f32_coop" 256 ⟨[2, 1], [1, 2], rfl⟩ ⟨[1], [1], rfl⟩ 2
      (some (1 / 2)) = .ok (op, 2, 1) := ⟨_, rfl⟩
  refine ⟨w, op, hw, hop, ?_⟩
  intro m ss out out' hm hss hout
  have hslots : computeSlotMapping smallStep.numTokens smallStep.queryStartLoc smallStep.positions
      smallStep.blockTable smallSpec.blockSize smallStep.slotMapping 1 = .ok [2, 3, 0] := rfl
  have hwritten : smallStep.after smallSpec smallStart false =
      some (smallStep.extend smallSpec 0 ⟨[], fun _ => 0⟩) :=
    smallStep_promised.after_row (r := 0) rfl rfl
  have hshared : StartsWith smallSpec.blockSize (smallStep.after smallSpec smallStart)
      smallSharing := by
    refine .inr ⟨false, _, hwritten, ⟨[smallStep.row smallSpec 2], rfl⟩, ?_⟩
    intro t ht
    have ht2 : t < 2 := ht
    interval_cases t <;> rfl
  let live : Live Bool ℝ := Function.update (Function.update (smallStep.after smallSpec smallStart)
    true (some smallSharing)) false none
  have hreq : live true = some smallSharing := rfl
  have hrun : ReflTransGen (Serves smallLayout ⟨0, 128⟩ smallSpec 1) (fun _ => none, fun _ => 0)
      (live, m) :=
    (((ReflTransGen.single (.start false ⟨[], fun _ => 0⟩ rfl (.inl rfl))).tail
      (.write smallStep smallStep_promised (by decide) hslots rfl hw hm)).tail
      (.start true smallSharing rfl hshared)).tail (.finish false)
  have hd : ∀ t ∈ smallLayout.layerSpecs, t.dtypeSize = smallSpec.dtypeSize := by decide
  have hbt : ∀ t < 2, (⟨[1], [1], rfl⟩ : Tensor ℤ).data[t / smallSpec.blockSize]? = some 1 := by
    decide
  have hsel : KvOps.selectDecodeShader ["paged_attn_decode_f32_coop"] "paged_attn_decode_f32"
      "paged_attn_decode_f32_coop" "paged_attn_decode_f32_coop_512" smallSpec.headSize =
      .ok ("paged_attn_decode_f32_coop", 256) := by decide
  obtain ⟨-, -, -, h⟩ := decode_attends (E := ExpFn.real) hd (by decide) rfl rfl hrun hreq hbt
    List.mem_cons_self hsel hop (by decide)
  obtain ⟨query, hquery, hval⟩ := h ss out out' hss hout 1 (by decide) 0 (by decide)
  refine ⟨query, hquery, hval.trans (attend_congr _ (fun t ht => ?_) fun t ht => ?_)⟩
  · have ht2 : t < 2 := ht
    interval_cases t <;> rfl
  · have ht2 : t < 2 := ht
    interval_cases t <;> rfl

end PagedRun

end VllmVulkan
