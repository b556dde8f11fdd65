import VllmVulkan.Attention.Entry
import VllmVulkan.Lib.Machine

/-!
# The verified prefix over a whole run

An entry starts with an empty bitmap and an empty memo, and lives through any sequence of calls that
mark slots and calls that check sequences.

* `Call`, `call` : the two kinds of calls, as a machine;
* `marked_finalState` : **what is marked** after a run: the slots of the bitmap that a call listed;
* `FullScan` : what a check without a memo looks for;
* `hasSequences_eq_fullScan` : **the memo never changes the answer**, after any run.
-/

namespace VllmVulkan

namespace Attention

namespace Entry

variable {V : Type}

/-- A call on an entry. -/
inductive Call where
  /-- `_mark_vulkan_cache_slots_written`. -/
  | mark (slots : List ℤ)
  /-- `_vulkan_cache_has_sequences`. -/
  | check (excludeCurrentToken : Bool) (blockTable : List (List ℤ)) (seqLens : List ℕ)
  deriving DecidableEq, Repr

/-- One call, with what it returned: nothing for a mark, and for a check that raised. -/
def call (e : Entry V) : Call → Entry V × Option Bool
  | .mark slots => (e.mark slots, none)
  | .check excludeCurrentToken blockTable seqLens =>
    ((hasSequences excludeCurrentToken e blockTable seqLens).2,
      (hasSequences excludeCurrentToken e blockTable seqLens).1)

/-! ### What a run marks -/

theorem call_layout (e : Entry V) (c : Call) : (call e c).1.layout = e.layout := by
  cases c with
  | mark slots => rfl
  | check x rows ns => exact (hasSequences_iff x e rows ns).2.layout

theorem call_marked (e : Entry V) (c : Call) (i : ℕ) : (call e c).1.Marked i ↔
    e.Marked i ∨ i < e.capacity ∧ ∃ slots, c = .mark slots ∧ (i : ℤ) ∈ slots := by
  cases c with
  | mark slots =>
    refine (e.mark_marked slots i).trans (or_congr_right (and_congr_right fun _ => ?_))
    constructor
    · exact fun h => ⟨slots, rfl, h⟩
    · rintro ⟨slots', heq, h⟩
      cases heq
      exact h
  | check x rows ns =>
    have hsame := (hasSequences_iff x e rows ns).2.writtenSlots
    rw [Marked, call, hsame]
    constructor
    · exact .inl
    · rintro (h | ⟨-, slots, heq, -⟩)
      · exact h
      · cases heq

/-- **What is marked after a run**: the slots of the bitmap that a call listed. -/
theorem marked_finalState (e : Entry V) (calls : List Call) (i : ℕ) :
    (Machine.finalState call e calls).Marked i ↔
      e.Marked i ∨ i < e.capacity ∧ ∃ slots, .mark slots ∈ calls ∧ (i : ℤ) ∈ slots := by
  induction calls generalizing e with
  | nil =>
    rw [Machine.finalState]
    constructor
    · exact .inl
    · rintro (h | ⟨-, slots, hmem, -⟩)
      · exact h
      · exact absurd hmem List.not_mem_nil
  | cons c calls ih =>
    have hcap : (call e c).1.capacity = e.capacity := by rw [capacity, capacity, call_layout]
    rw [Machine.finalState, ih, call_marked, hcap]
    constructor
    · rintro ((h | ⟨hi, slots, rfl, h⟩) | ⟨hi, slots, hmem, h⟩)
      · exact .inl h
      · exact .inr ⟨hi, slots, List.mem_cons_self, h⟩
      · exact .inr ⟨hi, slots, List.mem_cons_of_mem _ hmem, h⟩
    · rintro (h | ⟨hi, slots, hmem, h⟩)
      · exact .inl (.inl h)
      · obtain rfl | hmem := List.mem_cons.1 hmem
        · exact .inl (.inr ⟨hi, slots, rfl, h⟩)
        · exact .inr ⟨hi, slots, hmem, h⟩

/-! ### The scan without a memo -/

/-- The tokens a check looks at in a sequence of `n` tokens. -/
def tokensToCheck (excludeCurrentToken : Bool) (n : ℕ) : ℕ :=
  if excludeCurrentToken then n - 1 else n

/-- The first `n` tokens of the sequence of `row`, scanned one by one. -/
structure RowWritten (e : Entry V) (row : List ℤ) (n : ℕ) : Prop where
  /-- The row has a block for each of them. -/
  enough : ceilDiv n e.layout.blockSize ≤ row.length
  /-- These blocks exist. -/
  inRange : ∀ b ∈ row.take (ceilDiv n e.layout.blockSize), 0 ≤ b ∧ b < e.layout.numBlocks
  /-- Their slots are marked. -/
  written : ∀ pos < n, e.Marked
    ((row.getD (pos / e.layout.blockSize) 0).toNat * e.layout.blockSize +
      pos % e.layout.blockSize)

/-- A check without a memo: every token of every sequence is looked at. -/
def FullScan (e : Entry V) (excludeCurrentToken : Bool) (blockTable : List (List ℤ))
    (seqLens : List ℕ) : Prop :=
  ∀ (i n : ℕ) (row : List ℤ), seqLens[i]? = some n → blockTable[i]? = some row →
    0 < tokensToCheck excludeCurrentToken n →
      e.RowWritten row (tokensToCheck excludeCurrentToken n)

theorem activeBlockIds_eq_some {row : List ℤ} {needed numBlocks : ℕ} {blocks : List ℕ} :
    activeBlockIds row needed numBlocks = some blocks ↔ needed ≤ row.length ∧
      (∀ b ∈ row.take needed, 0 ≤ b ∧ b < numBlocks) ∧
        blocks = (row.take needed).map Int.toNat := by
  unfold activeBlockIds
  split_ifs with hlen hrange
  · simp only [false_iff, not_and]
    exact fun h => absurd h (not_le.2 hlen)
  · simp only [false_iff, not_and]
    intro _ h
    obtain ⟨b, hb, hneg | hbig⟩ := hrange
    · exact absurd (h b hb).1 (not_le.2 hneg)
    · exact absurd (h b hb).2 (not_lt.2 hbig)
  · simp only [not_exists, not_and, not_or, not_lt, ge_iff_le, not_le] at hlen hrange
    rw [Option.some_inj, eq_comm]
    exact ⟨fun h => ⟨hlen, hrange, h⟩, fun h => h.2.2⟩

/-- The slot of a token whose block is one of the first `needed` ones. -/
theorem slotAt_take {bs pos needed : ℕ} {row : List ℤ} (h : pos / bs < needed) :
    slotAt bs ((row.take needed).map Int.toNat) pos =
      (row.getD (pos / bs) 0).toNat * bs + pos % bs := by
  rw [slotAt, List.getD_eq_getElem?_getD, List.getD_eq_getElem?_getD, List.getElem?_map,
    List.getElem?_take_of_lt h]
  cases row[pos / bs]? <;> rfl

theorem requestWritten_iff (e : Entry V) (row : List ℤ) (n : ℕ) :
    e.RequestWritten row n ↔ e.RowWritten row n := by
  have hslot : ∀ pos < n, slotAt e.layout.blockSize
      ((row.take (ceilDiv n e.layout.blockSize)).map Int.toNat) pos =
        (row.getD (pos / e.layout.blockSize) 0).toNat * e.layout.blockSize +
          pos % e.layout.blockSize :=
    fun pos hpos => slotAt_take (div_lt_ceilDiv e.blockSize_pos hpos)
  constructor
  · rintro ⟨blocks, hblocks, hw⟩
    obtain ⟨hlen, hrange, rfl⟩ := activeBlockIds_eq_some.1 hblocks
    refine ⟨hlen, hrange, fun pos hpos => ?_⟩
    rw [← hslot pos hpos]
    exact hw pos hpos
  · rintro ⟨hlen, hrange, hw⟩
    refine ⟨_, activeBlockIds_eq_some.2 ⟨hlen, hrange, rfl⟩, fun pos hpos => ?_⟩
    rw [hslot pos hpos]
    exact hw pos hpos

theorem rowWritten_zero (e : Entry V) (row : List ℤ) : e.RowWritten row 0 := by
  have hz : ceilDiv 0 e.layout.blockSize = 0 := by
    have hbs := e.blockSize_pos
    exact Nat.div_eq_of_lt (by omega)
  refine ⟨by rw [hz]; exact Nat.zero_le _, fun b hb => ?_,
    fun pos h => absurd h (Nat.not_lt_zero _)⟩
  rw [hz, List.take_zero] at hb
  exact absurd hb List.not_mem_nil

theorem sequencesWritten_iff_fullScan (e : Entry V) (x : Bool) {rows : List (List ℤ)} {ns : List ℕ}
    (hrows : ns.length ≤ rows.length) : e.SequencesWritten x rows ns ↔ e.FullScan x rows ns := by
  constructor
  · intro h i n row hn hrow hpos
    have hx : x = true → n - 1 ≠ 0 := by
      intro hx
      rw [tokensToCheck, if_pos hx] at hpos
      omega
    obtain ⟨row', hrow', hw⟩ := h i n hn hx
    obtain rfl := Option.some.inj (hrow.symm.trans hrow')
    exact (requestWritten_iff e row _).1 hw
  · intro h i n hn _
    have hi : i < rows.length := lt_of_lt_of_le (List.getElem?_eq_some_iff.1 hn).1 hrows
    refine ⟨rows[i], List.getElem?_eq_getElem hi, (requestWritten_iff e _ _).2 ?_⟩
    by_cases hpos : 0 < tokensToCheck x n
    · exact h i n _ hn (List.getElem?_eq_getElem hi) hpos
    · rw [tokensToCheck, not_lt, Nat.le_zero] at hpos
      rw [hpos]
      exact rowWritten_zero e _

/-- **The memo never changes the answer.**  After any run from a fresh entry, a check of sequences
that have their rows succeeds exactly when the scan without a memo does, and the slots that the scan
looks for are those of the bitmap that a call listed. -/
theorem hasSequences_eq_fullScan (layout : VulkanPagedKVLayout) (zero : V)
    (calls : List Call) (excludeCurrentToken : Bool) (blockTable : List (List ℤ))
    (seqLens : List ℕ) (hrows : seqLens.length ≤ blockTable.length) :
    ((call (Machine.finalState call (fresh layout zero) calls)
      (.check excludeCurrentToken blockTable seqLens)).2 = some true ↔
    (Machine.finalState call (fresh layout zero) calls).FullScan excludeCurrentToken
      blockTable seqLens) ∧
    ∀ i, (Machine.finalState call (fresh layout zero) calls).Marked i ↔
      i < (fresh layout zero).capacity ∧ ∃ slots, .mark slots ∈ calls ∧ (i : ℤ) ∈ slots := by
  constructor
  · rw [← sequencesWritten_iff_fullScan _ _ hrows]
    exact (hasSequences_iff _ _ _ _).1
  · intro i
    rw [marked_finalState, or_iff_right (fresh_not_marked layout zero i)]

/-- Three of four slots are written, a sequence of three tokens is verified, and then one token more
of the same blocks is asked for, the current one excepted. -/
theorem hasSequences_eq_fullScan_smallLayout :
    (Machine.finalState call (fresh VulkanPagedKVLayout.smallLayout ())
      [.mark [0, -1, 2, 3], .check false [[1, 0]] [3]]).FullScan true [[1, 0]] [4] :=
  (hasSequences_eq_fullScan VulkanPagedKVLayout.smallLayout ()
    [.mark [0, -1, 2, 3], .check false [[1, 0]] [3]] true [[1, 0]] [4] (by decide)).1.1 (by decide)

end Entry

end Attention

end VllmVulkan
