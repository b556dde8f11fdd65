import VllmVulkan.Gemma4.Rope
import VllmVulkan.Gemma4.Total
import VllmVulkan.Lib.Softmax
import VllmVulkan.Lib.Sums
import Mathlib.Order.WithBot

/-!
# CPU attention, loop by loop

`cpuSdpa` of the model is what the loops of the source compute.  Here they are with their scratch
vectors, which all heads share, and with the lanes of the dot product.

* `dot4Loops`, `sdpaHead`, `cpuSdpaLoops` : the loops;
* `dot4Loops_eq` : **the dot product**, whatever the remainder of its length;
* `fill_eq` : a loop that writes every element leaves nothing of what was there;
* `sdpaHead_eq` : the turn of one head, from any scratch vectors;
* `cpuSdpaLoops_eq` : the loops compute `cpuSdpa`;
* `cpuSdpaLoops_softmax` : **CPU attention is windowed softmax attention**.
-/

namespace VllmVulkan

namespace Gemma4

open Elementary

variable {K : Type} [Field K]

/-! ### The dot product -/

/-- `acc` of `dot4`. -/
structure Lanes (K : Type) where
  acc0 : K
  acc1 : K
  acc2 : K
  acc3 : K

/-- One turn of the loop over the chunks. -/
def Lanes.add (a b : List K) (acc : Lanes K) (c : ℕ) : Option (Lanes K) := do
  let i := c * 4
  let acc0 := acc.acc0 + (← a[i]?) * (← b[i]?)
  let acc1 := acc.acc1 + (← a[i + 1]?) * (← b[i + 1]?)
  let acc2 := acc.acc2 + (← a[i + 2]?) * (← b[i + 2]?)
  let acc3 := acc.acc3 + (← a[i + 3]?) * (← b[i + 3]?)
  pure ⟨acc0, acc1, acc2, acc3⟩

/-- One turn of the loop over the remainder. -/
def tailAdd (a b : List K) (tail : K) (i : ℕ) : Option K := do
  pure (tail + (← a[i]?) * (← b[i]?))

/-- `dot4`, loop by loop. -/
def dot4Loops (a b : List K) : Option K :=
  if a.length ≠ b.length then none else do
    let n := a.length
    let chunks := n / 4
    let acc ← (List.range chunks).foldlM (Lanes.add a b) ⟨0, 0, 0, 0⟩
    let tail ← (List.range' (chunks * 4) (n - chunks * 4)).foldlM (tailAdd a b) 0
    pure (acc.acc0 + acc.acc1 + acc.acc2 + acc.acc3 + tail)

/-- The sum of the products of the first `n` elements. -/
def dotUpTo (a b : List K) (n : ℕ) : K := ∑ i ∈ Finset.range n, a.getD i 0 * b.getD i 0

theorem dotUpTo_succ (a b : List K) (n : ℕ) :
    dotUpTo a b (n + 1) = dotUpTo a b n + a.getD n 0 * b.getD n 0 :=
  Finset.sum_range_succ _ _

theorem foldlM_lanes {a b : List K} (h : a.length = b.length) {c : ℕ} (hc : c * 4 ≤ a.length) :
    ∃ acc, (List.range c).foldlM (Lanes.add a b) ⟨0, 0, 0, 0⟩ = some acc ∧
      acc.acc0 + acc.acc1 + acc.acc2 + acc.acc3 = dotUpTo a b (c * 4) := by
  induction c with
  | zero => exact ⟨⟨0, 0, 0, 0⟩, rfl, by simp [dotUpTo]⟩
  | succ c ih =>
    obtain ⟨acc, hacc, hsum⟩ := ih (by omega)
    have hget : ∀ j < 4, a[c * 4 + j]? = some (a.getD (c * 4 + j) 0) ∧
        b[c * 4 + j]? = some (b.getD (c * 4 + j) 0) := fun j hj => by
      have ha : c * 4 + j < a.length := by omega
      have hb : c * 4 + j < b.length := by omega
      rw [List.getD_eq_getElem _ _ ha, List.getD_eq_getElem _ _ hb]
      exact ⟨List.getElem?_eq_getElem ha, List.getElem?_eq_getElem hb⟩
    obtain ⟨ha0, hb0⟩ := hget 0 (by decide)
    obtain ⟨ha1, hb1⟩ := hget 1 (by decide)
    obtain ⟨ha2, hb2⟩ := hget 2 (by decide)
    obtain ⟨ha3, hb3⟩ := hget 3 (by decide)
    rw [Nat.add_zero] at ha0 hb0
    refine ⟨_, by
      rw [List.range_succ, List.foldlM_append, hacc]
      simp only [Option.bind_eq_bind, Option.bind_some, List.foldlM_cons, List.foldlM_nil,
        Lanes.add, ha0, hb0, ha1, hb1, ha2, hb2, ha3, hb3, Option.pure_def]
      rfl, ?_⟩
    rw [show (c + 1) * 4 = c * 4 + 1 + 1 + 1 + 1 by omega, dotUpTo_succ, dotUpTo_succ,
      dotUpTo_succ, dotUpTo_succ, ← hsum]
    ring

theorem foldlM_tail {a b : List K} (h : a.length = b.length) {lo n : ℕ} (hn : lo + n ≤ a.length) :
    ∃ tail, (List.range' lo n).foldlM (tailAdd a b) 0 = some tail ∧
      dotUpTo a b lo + tail = dotUpTo a b (lo + n) := by
  induction n with
  | zero => exact ⟨0, rfl, by simp⟩
  | succ n ih =>
    obtain ⟨tail, htail, hsum⟩ := ih (by omega)
    have ha : lo + n < a.length := by omega
    have hb : lo + n < b.length := by omega
    refine ⟨_, by
      rw [List.range'_1_concat, List.foldlM_append, htail]
      simp only [Option.bind_eq_bind, Option.bind_some, List.foldlM_cons, List.foldlM_nil,
        tailAdd, List.getElem?_eq_getElem ha, List.getElem?_eq_getElem hb, Option.pure_def]
      rfl, ?_⟩
    rw [← Nat.add_assoc, dotUpTo_succ, ← hsum, List.getD_eq_getElem _ _ ha,
      List.getD_eq_getElem _ _ hb, add_assoc]

/-- **The dot product.** -/
theorem dot4Loops_eq {a b : List K} (h : a.length = b.length) :
    dot4Loops a b = some (dotUpTo a b a.length) := by
  have hchunks : a.length / 4 * 4 ≤ a.length := Nat.div_mul_le_self a.length 4
  obtain ⟨acc, hacc, hlanes⟩ := foldlM_lanes h hchunks
  obtain ⟨tail, htail, hsum⟩ := foldlM_tail h (Nat.add_sub_cancel' hchunks).le
  rw [Nat.add_sub_cancel' hchunks] at hsum
  rw [dot4Loops, if_neg (not_not.2 h)]
  simp only [hacc, htail, Option.bind_eq_bind, Option.bind_some, Option.pure_def, hlanes, hsum]

theorem dot4_eq {a b : List K} (h : a.length = b.length) :
    dot4 a b = some (dotUpTo a b a.length) := by
  have hchunks : a.length / 4 * 4 ≤ a.length := Nat.div_mul_le_self a.length 4
  have hlanes : dotUpTo a b (a.length / 4 * 4) = ∑ c ∈ Finset.range (a.length / 4),
      ∑ j ∈ Finset.range 4, a.getD (c * 4 + j) 0 * b.getD (c * 4 + j) 0 :=
    sum_range_mul _ _ _
  have hsplit : dotUpTo a b a.length = dotUpTo a b (a.length / 4 * 4) +
      ((List.range' (a.length / 4 * 4) (a.length - a.length / 4 * 4)).map fun i =>
        a.getD i 0 * b.getD i 0).sum := by
    rw [sum_map_range', dotUpTo, dotUpTo, ← Finset.sum_range_add, Nat.add_sub_cancel' hchunks]
  rw [dot4, if_neg (not_not.2 h), hsplit, hlanes]
  simp only [Finset.sum_range_succ, Finset.sum_range_zero, zero_add, Finset.sum_add_distrib]
  rfl

theorem dot4Loops_eq_dot4 (a b : List K) : dot4Loops a b = dot4 a b := by
  by_cases h : a.length = b.length
  · rw [dot4Loops_eq h, dot4_eq h]
  · rw [dot4Loops, dot4, if_pos h, if_pos h]

/-! ### Loops over scratch vectors -/

section Scratch

variable {α β γ : Type}

/-- `xs[i] = x`. -/
def setAt (xs : List α) (i : ℕ) (x : α) : Option (List α) :=
  if i < xs.length then some (xs.set i x) else none

/-- `for (x, y) in xs.iter_mut().zip(ys) { *x = f(*x, y) }`. -/
def zipInPlace (f : α → β → α) (xs : List α) (ys : List β) : List α :=
  List.zipWith f xs ys ++ xs.drop ys.length

theorem zipInPlace_eq (f : α → β → α) {xs : List α} {ys : List β} (h : xs.length = ys.length) :
    zipInPlace f xs ys = List.zipWith f xs ys := by
  rw [zipInPlace, List.drop_eq_nil_of_le h.le, List.append_nil]

theorem fill_append (f : β → Option α) (done old : List α) (ps : List β)
    (h : old.length = ps.length) :
    (ps.zipIdx done.length).foldlM (fun xs p => do setAt xs p.2 (← f p.1)) (done ++ old) =
      (ps.mapM f).map fun ys => done ++ ys := by
  induction ps generalizing done old with
  | nil => simp [List.length_eq_zero_iff.1 h]
  | cons p ps ih =>
    cases old with
    | nil => simp at h
    | cons x old =>
      rw [List.zipIdx_cons, List.foldlM_cons, List.mapM_cons]
      cases hp : f p with
      | none => simp
      | some y =>
        have hset : setAt (done ++ x :: old) done.length y = some (done ++ [y] ++ old) := by
          rw [setAt, if_pos (by simp), List.set_append_right _ _ (Nat.le_refl _), Nat.sub_self,
            List.set_cons_zero, List.append_assoc, List.singleton_append]
        have hrest := ih (done ++ [y]) old (by simpa using h)
        simp only [List.length_append, List.length_singleton, Option.bind_eq_bind] at hrest
        simp only [Option.bind_eq_bind, Option.bind_some, hset, hrest, Option.pure_def]
        cases ps.mapM f with
        | none => rfl
        | some ys => simp

/-- **A loop that writes every element** leaves nothing of what was there. -/
theorem fill_eq (f : β → Option α) (old : List α) (ps : List β) (h : old.length = ps.length) :
    ps.zipIdx.foldlM (fun xs p => do setAt xs p.2 (← f p.1)) old = ps.mapM f := by
  have hfill := fill_append f [] old ps h
  simpa using hfill

theorem foldlM_lookup_append {body : γ → β × ℕ → Option γ} {g : γ → α → β → Option γ}
    (seen ws : List α) (ps : List β) (x : γ) (h : ws.length = ps.length)
    (hbody : ∀ x p i w, (seen ++ ws)[i]? = some w → body x (p, i) = g x w p) :
    (ps.zipIdx seen.length).foldlM body x = (ws.zip ps).foldlM (fun x p => g x p.1 p.2) x := by
  induction ps generalizing seen ws x with
  | nil => simp
  | cons p ps ih =>
    cases ws with
    | nil => simp at h
    | cons w ws =>
      have hrest : ∀ y, (ps.zipIdx (seen.length + 1)).foldlM body y =
          (ws.zip ps).foldlM (fun x p => g x p.1 p.2) y := fun y => by
        have hseen := ih (seen ++ [w]) ws y (by simpa using h) (by simpa using hbody)
        simpa using hseen
      rw [List.zipIdx_cons, List.foldlM_cons, List.zip_cons_cons, List.foldlM_cons,
        hbody x p seen.length w (by simp)]
      simp only [hrest]

/-- A loop that looks up the partner of each element is one over the pairs. -/
theorem foldlM_lookup {body : γ → β × ℕ → Option γ} {g : γ → α → β → Option γ} {ws : List α}
    {ps : List β} (x : γ) (h : ws.length = ps.length)
    (hbody : ∀ x p i w, ws[i]? = some w → body x (p, i) = g x w p) :
    ps.zipIdx.foldlM body x = (ws.zip ps).foldlM (fun x p => g x p.1 p.2) x :=
  foldlM_lookup_append [] ws ps x h hbody

theorem foldlM_congr_inv {f g : γ → β → Option γ} {P : γ → Prop}
    (hfg : ∀ x b, P x → f x b = g x b) (hg : ∀ x b y, P x → g x b = some y → P y) {bs : List β}
    {x : γ} (hx : P x) : bs.foldlM f x = bs.foldlM g x := by
  induction bs generalizing x with
  | nil => rfl
  | cons b bs ih =>
    rw [List.foldlM_cons, List.foldlM_cons, hfg x b hx]
    cases hy : g x b with
    | none => rfl
    | some y => exact ih (hg x b y hx hy)

theorem zipWith_ignore_left (f : α → β) {xs : List γ} {ys : List α} (h : xs.length = ys.length) :
    List.zipWith (fun _ y => f y) xs ys = ys.map f := by
  refine List.ext_getElem (by simp [h]) ?_
  intro i hi hi'
  rw [List.getElem_zipWith, List.getElem_map]

end Scratch

/-! ### The heads -/

variable [Elementary K] [LinearOrder K]

/-- The vectors that the heads of `cpu_sdpa` share. -/
structure SdpaState (K : Type) where
  out : List K
  scores : List K
  expScores : List K

/-- `scores.iter().cloned().fold(f32::NEG_INFINITY, f32::max)`; `⊥` is the negative infinity. -/
def maxScore (scores : List K) : WithBot K :=
  scores.foldl (fun m (s : K) => max m (s : WithBot K)) ⊥

/-- The body of the loop over the query heads in `cpu_sdpa`. -/
def sdpaHead (q k v : List K) (numKvHeads headDim gqaRatio kvStart seqLen : ℕ) (scale : K)
    (st : SdpaState K) (qh : ℕ) : Option (SdpaState K) := do
  let kvh ← usizeDiv qh gqaRatio
  let qRow ← slice q (qh * headDim) ((qh + 1) * headDim)
  let positions := List.range' kvStart (seqLen - kvStart)
  let scores ← positions.zipIdx.foldlM (fun scores p => do
    let kRow ← slice k ((p.1 * numKvHeads + kvh) * headDim)
      ((p.1 * numKvHeads + kvh + 1) * headDim)
    let d ← dot4Loops qRow kRow
    setAt scores p.2 (d * scale)) st.scores
  -- only empty `scores` have the maximum `⊥`, and then no element subtracts it
  let max := (maxScore scores).unbotD 0
  let expScores := zipInPlace (fun _ s => exp (s - max)) st.expScores scores
  let sum := expScores.sum
  let expScores := expScores.map (· / sum)
  let outRow ← slice st.out (qh * headDim) ((qh + 1) * headDim)
  let outRow ← positions.zipIdx.foldlM (fun outRow p => do
    let vRow ← slice v ((p.1 * numKvHeads + kvh) * headDim)
      ((p.1 * numKvHeads + kvh + 1) * headDim)
    let w ← expScores[p.2]?
    pure (zipInPlace (fun o vv => o + w * vv) outRow vRow)) outRow
  let out ← copyFromSlice st.out (qh * headDim) ((qh + 1) * headDim) outRow
  pure ⟨out, scores, expScores⟩

/-- `cpu_sdpa`, loop by loop. -/
def cpuSdpaLoops (q k v : List K) (numQHeads numKvHeads headDim seqLen : ℕ) (scale : K)
    (slidingWindow : Option ℕ) : Option (List K) := do
  let gqaRatio ← usizeDiv numQHeads numKvHeads
  let kvStart := match slidingWindow with
    | some window => seqLen - window
    | none => 0
  let validLen := seqLen - kvStart
  let st ← (List.range numQHeads).foldlM
    (sdpaHead q k v numKvHeads headDim gqaRatio kvStart seqLen scale)
    ⟨List.replicate (numQHeads * headDim) 0, List.replicate validLen 0, List.replicate validLen 0⟩
  pure st.out

omit [Field K] [Elementary K] in
theorem foldl_max_coe (x : K) (xs : List K) :
    xs.foldl (fun m (s : K) => max m (s : WithBot K)) (x : WithBot K) =
      ((xs.foldl max x : K) : WithBot K) := by
  induction xs generalizing x with
  | nil => rfl
  | cons y xs ih => rw [List.foldl_cons, List.foldl_cons, ← WithBot.coe_max, ih]

omit [Elementary K] in
theorem maxScore_unbotD (scores : List K) : (maxScore scores).unbotD 0 = scores.max?.getD 0 := by
  cases scores with
  | nil => rfl
  | cons x xs =>
    rw [maxScore, List.foldl_cons, bot_sup_eq, foldl_max_coe]
    rfl

omit [Elementary K] [LinearOrder K] in
/-- The loop over `V`, with its weights looked up and its row rewritten in place. -/
theorem weightedRows_eq {v out weights : List K} {positions : List ℕ} {nkv d kvh : ℕ}
    (hout : out.length = d) (hw : weights.length = positions.length) :
    positions.zipIdx.foldlM (fun outRow p =>
      (slice v ((p.1 * nkv + kvh) * d) ((p.1 * nkv + kvh + 1) * d)).bind fun vRow =>
        weights[p.2]?.bind fun w => some (zipInPlace (fun o vv => o + w * vv) outRow vRow)) out =
      (weights.zip positions).foldlM (fun out p =>
        (slice v ((p.2 * nkv + kvh) * d) ((p.2 * nkv + kvh + 1) * d)).bind fun vRow =>
          some (List.zipWith (fun o vv => o + p.1 * vv) out vRow)) out := by
  rw [foldlM_lookup (g := fun outRow w kvPos =>
    (slice v ((kvPos * nkv + kvh) * d) ((kvPos * nkv + kvh + 1) * d)).bind fun vRow =>
      some (zipInPlace (fun o vv => o + w * vv) outRow vRow)) out hw
    (fun outRow p i w hi => by simp only [hi, Option.bind_some])]
  have hwidth : ∀ r : ℕ, (r + 1) * d - r * d = d :=
    fun r => by rw [Nat.succ_mul, Nat.add_sub_cancel_left]
  refine foldlM_congr_inv (P := fun outRow => outRow.length = d) (fun outRow p hrow => ?_)
    (fun outRow p y hrow hy => ?_) hout
  · cases hslice : slice v ((p.2 * nkv + kvh) * d) ((p.2 * nkv + kvh + 1) * d) with
    | none => rfl
    | some vRow =>
      have hlen := (length_slice hslice).trans (hwidth _)
      simp only [Option.bind_some, zipInPlace_eq _ (hrow.trans hlen.symm)]
  · obtain ⟨vRow, hslice, hy⟩ := Option.bind_eq_some_iff.1 hy
    have hlen := (length_slice hslice).trans (hwidth _)
    rw [← Option.some.inj hy, List.length_zipWith, hrow, hlen, Nat.min_self]

omit [Elementary K] [LinearOrder K] in
theorem scores_eq (k qRow : List K) (nkv d kvh : ℕ) (scale : K) {old : List K}
    {positions : List ℕ} (h : old.length = positions.length) :
    positions.zipIdx.foldlM (fun scores p =>
      (slice k ((p.1 * nkv + kvh) * d) ((p.1 * nkv + kvh + 1) * d)).bind fun kRow =>
        (dot4Loops qRow kRow).bind fun x => setAt scores p.2 (x * scale)) old =
      positions.mapM fun kvPos =>
        (slice k ((kvPos * nkv + kvh) * d) ((kvPos * nkv + kvh + 1) * d)).bind fun kRow =>
          (dot4 qRow kRow).bind fun x => some (x * scale) := by
  rw [← fill_eq _ old positions h]
  simp only [Option.bind_eq_bind, Option.bind_assoc, Option.bind_some, dot4Loops_eq_dot4]

/-- **The turn of a head**, from any scratch vectors. -/
theorem sdpaHead_eq {q k v row : List K} {nkv d ratio kvStart seqLen qh : ℕ} {scale : K}
    (hrow : sdpaRow q k v (List.range' kvStart (seqLen - kvStart)) nkv d ratio scale qh =
      some row) :
    ∃ scores : List K, scores.length = seqLen - kvStart ∧
      ∀ (st : SdpaState K) (before rest : List K), st.scores.length = seqLen - kvStart →
        st.expScores.length = seqLen - kvStart → before.length = qh * d →
        st.out = before ++ List.replicate d 0 ++ rest →
        sdpaHead q k v nkv d ratio kvStart seqLen scale st qh =
          some ⟨before ++ row ++ rest, scores, softmaxScores scores⟩ := by
  have hlen := length_sdpaRow hrow
  simp only [sdpaRow, Option.bind_eq_bind, Option.bind_eq_some_iff] at hrow
  obtain ⟨kvh, hkvh, qRow, hqRow, scores, hscores, hfold⟩ := hrow
  have hscoresLen : scores.length = seqLen - kvStart := by
    rw [← (mapM_eq_some.1 hscores).length_eq, List.length_range']
  refine ⟨scores, hscoresLen, fun st before rest hs he hbefore hout => ?_⟩
  have hmax : zipInPlace (fun _ s => exp (s - (maxScore scores).unbotD 0)) st.expScores scores =
      scores.map fun s => exp (s - scores.max?.getD 0) := by
    rw [zipInPlace_eq _ (he.trans hscoresLen.symm), maxScore_unbotD,
      zipWith_ignore_left _ (he.trans hscoresLen.symm)]
  have hslice : slice st.out (qh * d) ((qh + 1) * d) = some (List.replicate d 0) := by
    rw [hout]
    exact slice_append _ _ _ hbefore.symm (by rw [hbefore, List.length_replicate, Nat.succ_mul])
  unfold sdpaHead
  simp only [Option.pure_def] at hscores
  simp only [hkvh, hqRow, Option.bind_eq_bind, Option.bind_some, Option.pure_def]
  rw [scores_eq k qRow nkv d kvh scale (by rw [hs, List.length_range']), hscores]
  simp only [Option.bind_some, hmax, hslice]
  rw [weightedRows_eq List.length_replicate (by simp [hscoresLen])]
  simp only [Option.pure_def, softmaxScores] at hfold
  rw [hfold, Option.bind_some, hout, copyFromSlice_append _ _ _ _ hbefore.symm
    (by rw [hbefore, List.length_replicate, Nat.succ_mul]) (by rw [hlen, List.length_replicate])]
  rfl

/-- **A head takes nothing from the scratch vectors** it finds, only their length. -/
theorem sdpaHead_scratch (q k v : List K) (nkv d ratio kvStart seqLen qh : ℕ) (scale : K)
    {st st' : SdpaState K} (hout : st.out = st'.out) (hs : st.scores.length = seqLen - kvStart)
    (he : st.expScores.length = seqLen - kvStart) (hs' : st'.scores.length = seqLen - kvStart)
    (he' : st'.expScores.length = seqLen - kvStart) :
    sdpaHead q k v nkv d ratio kvStart seqLen scale st qh =
      sdpaHead q k v nkv d ratio kvStart seqLen scale st' qh := by
  unfold sdpaHead
  simp only [Option.bind_eq_bind]
  refine Option.bind_congr fun kvh _ => Option.bind_congr fun qRow _ => ?_
  rw [scores_eq k qRow nkv d kvh scale (by rw [hs, List.length_range']),
    scores_eq k qRow nkv d kvh scale (by rw [hs', List.length_range'])]
  refine Option.bind_congr ?_
  intro scores hscores
  have hlen : scores.length = seqLen - kvStart := by
    rw [← (mapM_eq_some.1 hscores).length_eq, List.length_range']
  rw [hout, zipInPlace_eq _ (he.trans hlen.symm), zipInPlace_eq _ (he'.trans hlen.symm),
    zipWith_ignore_left _ (he.trans hlen.symm), zipWith_ignore_left _ (he'.trans hlen.symm)]

/-- What the heads before `n` leave: their rows, zeros and scratch vectors. -/
structure HeadsDone (nq d validLen n : ℕ) (rows : List (List K)) (st : SdpaState K) : Prop where
  out : st.out = rows.flatten ++ List.replicate ((nq - n) * d) 0
  rows : rows.flatten.length = n * d
  scores : st.scores.length = validLen
  expScores : st.expScores.length = validLen

theorem foldlM_sdpaHead {q k v : List K} {nq nkv d ratio kvStart seqLen n : ℕ} {scale : K}
    {rows : List (List K)} (hn : n ≤ nq)
    (hrows : (List.range n).mapM
      (sdpaRow q k v (List.range' kvStart (seqLen - kvStart)) nkv d ratio scale) = some rows)
    {st₀ : SdpaState K} (h₀ : HeadsDone nq d (seqLen - kvStart) 0 [] st₀) :
    ∃ st, (List.range n).foldlM (sdpaHead q k v nkv d ratio kvStart seqLen scale) st₀ = some st ∧
      HeadsDone nq d (seqLen - kvStart) n rows st := by
  induction n generalizing rows with
  | zero =>
    obtain rfl : rows = [] := by simpa using hrows.symm
    exact ⟨st₀, rfl, h₀⟩
  | succ n ih =>
    rw [List.range_succ, List.mapM_append] at hrows
    simp only [Option.bind_eq_bind, Option.bind_eq_some_iff, Option.pure_def, Option.some.injEq,
      List.mapM_cons, List.mapM_nil] at hrows
    obtain ⟨init, hinit, last, ⟨row, hrow, -, rfl, rfl⟩, rfl⟩ := hrows
    obtain ⟨st, hst, hdone⟩ := ih (by omega) hinit
    obtain ⟨scores, hlen, hhead⟩ := sdpaHead_eq hrow
    have hzeros : List.replicate ((nq - n) * d) (0 : K) =
        List.replicate d 0 ++ List.replicate ((nq - (n + 1)) * d) 0 := by
      rw [← List.replicate_add, show nq - n = nq - (n + 1) + 1 by omega, Nat.succ_mul, Nat.add_comm]
    have hstep := hhead st init.flatten (List.replicate ((nq - (n + 1)) * d) 0) hdone.scores
      hdone.expScores hdone.rows (by rw [hdone.out, hzeros, List.append_assoc])
    refine ⟨_, by
      rw [List.range_succ, List.foldlM_append, hst]
      simp only [Option.bind_eq_bind, Option.bind_some, List.foldlM_cons, List.foldlM_nil, hstep]
      rfl, ?_⟩
    refine ⟨by simp, ?_, hlen, by simp [softmaxScores, hlen]⟩
    rw [List.flatten_append, List.length_append, hdone.rows, List.flatten_singleton,
      length_sdpaRow hrow, Nat.succ_mul]

/-- The heads, from fresh vectors, over the positions from `kvStart` on. -/
theorem heads_eq {q k v out : List K} {nq nkv d kvStart seqLen : ℕ} {scale : K}
    (h : ((usizeDiv nq nkv).bind fun ratio => ((List.range nq).mapM
      (sdpaRow q k v (List.range' kvStart (seqLen - kvStart)) nkv d ratio scale)).bind
        fun rows => some rows.flatten) = some out) :
    ((usizeDiv nq nkv).bind fun ratio => ((List.range nq).foldlM
      (sdpaHead q k v nkv d ratio kvStart seqLen scale)
      ⟨List.replicate (nq * d) 0, List.replicate (seqLen - kvStart) 0,
        List.replicate (seqLen - kvStart) 0⟩).bind fun st => some st.out) = some out := by
  simp only [Option.bind_eq_some_iff, Option.some.injEq] at h
  obtain ⟨ratio, hratio, rows, hrows, rfl⟩ := h
  have h₀ : HeadsDone nq d (seqLen - kvStart) 0 [] ⟨List.replicate (nq * d) (0 : K),
      List.replicate (seqLen - kvStart) 0, List.replicate (seqLen - kvStart) 0⟩ :=
    ⟨(List.nil_append _).symm, by simp, List.length_replicate, List.length_replicate⟩
  obtain ⟨st, hst, hdone⟩ := foldlM_sdpaHead (Nat.le_refl nq) hrows h₀
  rw [hratio, Option.bind_some, hst, Option.bind_some, hdone.out, Nat.sub_self, Nat.zero_mul,
    List.replicate_zero, List.append_nil]

/-- **The loops compute `cpuSdpa`.** -/
theorem cpuSdpaLoops_eq {q k v out : List K} {nq nkv d seqLen : ℕ} {scale : K}
    {window : Option ℕ} (h : cpuSdpa q k v nq nkv d seqLen scale window = some out) :
    cpuSdpaLoops q k v nq nkv d seqLen scale window = some out := by
  cases window with
  | none => exact heads_eq h
  | some window => exact heads_eq h

/-! ### Windowed softmax attention -/

/-- `scale * <q[qh], k[t, kvh]>`. -/
def logit (q k : List K) (nkv d kvh qh : ℕ) (scale : K) (t : ℕ) : K :=
  scale * ∑ i ∈ Finset.range d, q.getD (qh * d + i) 0 * k.getD ((t * nkv + kvh) * d + i) 0

/-- The weight of position `t` among those in `s`. -/
def softmaxOver (s : Finset ℕ) (x : ℕ → K) (t : ℕ) : K := exp (x t) / ∑ u ∈ s, exp (x u)

/-- The positions that a query attends to: all of them, or the last `window`. -/
def window (seqLen : ℕ) : Option ℕ → Finset ℕ
  | none => Finset.Ico 0 seqLen
  | some w => Finset.Ico (seqLen - w) seqLen

/-- Element `e` of the softmax attention of query head `qh` over positions `s`. -/
def softmaxAttention (q k v : List K) (nkv d kvh : ℕ) (scale : K) (s : Finset ℕ) (qh e : ℕ) : K :=
  ∑ t ∈ s, softmaxOver s (logit q k nkv d kvh qh scale) t * v.getD ((t * nkv + kvh) * d + e) 0

omit [Elementary K] [LinearOrder K] in
theorem getD_slice {x y : List K} {lo hi i : ℕ} (h : slice x lo hi = some y) (hi' : i < hi - lo) :
    y.getD i 0 = x.getD (lo + i) 0 := by
  obtain ⟨⟨-, hhi⟩, rfl⟩ := slice_eq_some.1 h
  simp only [List.getD_eq_getElem?_getD, List.getElem?_drop]
  rw [List.getElem?_take_of_lt (by omega)]

omit [Elementary K] [LinearOrder K] in
theorem getD_row {x y : List K} {r d i : ℕ} (h : slice x (r * d) ((r + 1) * d) = some y)
    (hi : i < d) : y.getD i 0 = x.getD (r * d + i) 0 :=
  getD_slice h (by rwa [Nat.succ_mul, Nat.add_sub_cancel_left])

theorem eq_map_of_mapM {α β : Type} {f : α → Option β} {g : α → β} {xs : List α} {ys : List β}
    (h : ∀ x y, f x = some y → y = g x) (hm : xs.mapM f = some ys) : ys = xs.map g := by
  have hall := mapM_eq_some.1 hm
  clear hm
  induction hall with
  | nil => rfl
  | cons hxy _ ih => rw [List.map_cons, ih, h _ _ hxy]

omit [Elementary K] [LinearOrder K] in
theorem getD_weightedRows {v : List K} {nkv d kvh e : ℕ} (he : e < d) {ps : List (K × ℕ)}
    {out row : List K} (hout : out.length = d)
    (h : ps.foldlM (fun out p =>
      (slice v ((p.2 * nkv + kvh) * d) ((p.2 * nkv + kvh + 1) * d)).bind fun vRow =>
        some (List.zipWith (fun o vv => o + p.1 * vv) out vRow)) out = some row) :
    row.getD e 0 =
      out.getD e 0 + (ps.map fun p => p.1 * v.getD ((p.2 * nkv + kvh) * d + e) 0).sum := by
  induction ps generalizing out with
  | nil =>
    obtain rfl := Option.some.inj h
    simp
  | cons p ps ih =>
    simp only [List.foldlM_cons, Option.bind_eq_bind, Option.bind_eq_some_iff,
      Option.some.injEq] at h
    obtain ⟨_, ⟨vRow, hv, rfl⟩, h⟩ := h
    have hlen : vRow.length = d := by
      rw [length_slice hv, Nat.succ_mul, Nat.add_sub_cancel_left]
    have helem : (List.zipWith (fun o vv => o + p.1 * vv) out vRow).getD e 0 =
        out.getD e 0 + p.1 * v.getD ((p.2 * nkv + kvh) * d + e) 0 := by
      rw [← getD_row hv he, List.getD_eq_getElem _ _ (by simp [hout, hlen, he]),
        List.getD_eq_getElem _ _ (hout.symm ▸ he), List.getD_eq_getElem _ _ (hlen.symm ▸ he),
        List.getElem_zipWith]
    have hrest := ih (by rw [List.length_zipWith, hout, hlen, Nat.min_self]) h
    rw [hrest, helem, List.map_cons, List.sum_cons, add_assoc]

theorem zip_softmaxScores (x : ℕ → K) (ps : List ℕ) :
    ∃ m, (softmaxScores (ps.map x)).zip ps = ps.map fun t =>
      (exp (x t - m) / (ps.map fun u => exp (x u - m)).sum, t) := by
  refine ⟨(ps.map x).max?.getD 0, ?_⟩
  rw [List.map_prod_right_eq_zip]
  simp only [softmaxScores, List.map_map, Function.comp_def]

/-- **The row of a head** is its softmax attention over the positions. -/
theorem getD_sdpaRow (hadd : ∀ a b : K, exp (a + b) = exp a * exp b) (hpos : ∀ a : K, 0 < exp a)
    {q k v row : List K} {nkv d ratio start n qh e : ℕ} {scale : K} (he : e < d)
    (hrow : sdpaRow q k v (List.range' start n) nkv d ratio scale qh = some row) :
    row.getD e 0 =
      softmaxAttention q k v nkv d (qh / ratio) scale (Finset.Ico start (start + n)) qh e := by
  simp only [sdpaRow, Option.bind_eq_bind, Option.bind_eq_some_iff, Option.pure_def] at hrow
  obtain ⟨kvh, hkvh, qRow, hqRow, scores, hscores, hfold⟩ := hrow
  obtain rfl : qh / ratio = kvh := by
    unfold usizeDiv at hkvh
    split_ifs at hkvh
    exact Option.some.inj hkvh
  obtain rfl : scores = (List.range' start n).map (logit q k nkv d (qh / ratio) qh scale) := by
    refine eq_map_of_mapM (fun t x hx => ?_) hscores
    obtain ⟨kRow, hkRow, y, hy, hxy⟩ := by
      simpa only [Option.bind_eq_some_iff, Option.some.injEq] using hx
    have hlenq : qRow.length = d := by
      rw [length_slice hqRow, Nat.succ_mul, Nat.add_sub_cancel_left]
    have hlenk : kRow.length = d := by
      rw [length_slice hkRow, Nat.succ_mul, Nat.add_sub_cancel_left]
    rw [dot4_eq (hlenq.trans hlenk.symm), hlenq] at hy
    rw [← hxy, ← Option.some.inj hy, mul_comm, logit, dotUpTo]
    congr 1
    refine Finset.sum_congr rfl ?_
    intro i hi
    rw [getD_row hqRow (Finset.mem_range.1 hi), getD_row hkRow (Finset.mem_range.1 hi)]
  -- the sum over the pairs is the two-pass form of softmax attention
  obtain ⟨m, hzip⟩ := zip_softmaxScores (logit q k nkv d (qh / ratio) qh scale)
    (List.range' start n)
  have htwo := Softmax.twoPass_eq ⟨exp, hadd, hpos⟩ m n
    (fun i => logit q k nkv d (qh / ratio) qh scale (start + i))
    (fun i => v.getD (((start + i) * nkv + qh / ratio) * d + e) 0)
  rw [getD_weightedRows he List.length_replicate hfold, hzip, List.map_map,
    List.getD_replicate _ he, zero_add, sum_map_range', sum_map_range']
  refine htwo.trans ?_
  simp only [softmaxAttention, softmaxOver, Finset.sum_Ico_eq_sum_range, Nat.add_sub_cancel_left]
  rfl

/-- **CPU attention without loops** is windowed softmax attention. -/
theorem getD_cpuSdpa (hadd : ∀ a b : K, exp (a + b) = exp a * exp b) (hpos : ∀ a : K, 0 < exp a)
    {q k v out : List K} {nq nkv d seqLen qh e : ℕ} {scale : K} {w : Option ℕ}
    (h : cpuSdpa q k v nq nkv d seqLen scale w = some out) (hqh : qh < nq) (he : e < d) :
    out.getD (qh * d + e) 0 = softmaxAttention q k v nkv d (qh / (nq / nkv)) scale
      (window seqLen w) qh e := by
  simp only [cpuSdpa, Option.bind_eq_bind, Option.bind_eq_some_iff, Option.pure_def,
    Option.some.injEq] at h
  obtain ⟨ratio, hratio, rows, hrows, rfl⟩ := h
  obtain rfl : nq / nkv = ratio := by
    unfold usizeDiv at hratio
    split_ifs at hratio
    exact Option.some.inj hratio
  rw [mapM_eq_some] at hrows
  have hlen : rows.length = nq := by rw [← hrows.length_eq, List.length_range]
  have hlens : ∀ row ∈ rows, row.length = d := fun row hrow => by
    obtain ⟨i, hi, rfl⟩ := List.getElem_of_mem hrow
    exact length_sdpaRow (hrows.get (hrows.length_eq ▸ hi) hi)
  have hqh' : qh < rows.length := hlen.symm ▸ hqh
  have hrow := hrows.get (i := qh) (by simpa using hqh) hqh'
  rw [List.get_eq_getElem, List.getElem_range, List.get_eq_getElem] at hrow
  have helem : rows.flatten.getD (qh * d + e) 0 = rows[qh].getD e 0 := by
    rw [← List.flatMap_id, List.getD_eq_getElem?_getD, Tensor.getElem?_flatMap id rows hlens he,
      List.getElem?_eq_getElem hqh', Option.bind_some, List.getD_eq_getElem?_getD]
    rfl
  rw [helem]
  cases w with
  | none =>
    rw [getD_sdpaRow hadd hpos he hrow, window, Nat.sub_zero, Nat.zero_add]
  | some w =>
    rw [getD_sdpaRow hadd hpos he hrow, window, Nat.add_sub_cancel' (Nat.sub_le seqLen w)]

/-- **CPU attention is windowed softmax attention.** -/
theorem cpuSdpaLoops_softmax (hadd : ∀ a b : K, exp (a + b) = exp a * exp b)
    (hpos : ∀ a : K, 0 < exp a) :
    (∀ a b : List K, a.length = b.length →
      dot4Loops a b = some (∑ i ∈ Finset.range a.length, a.getD i 0 * b.getD i 0)) ∧
    ∀ (q k v : List K) (nq nkv d seqLen : ℕ) (scale : K) (w : Option ℕ), 0 < nkv → nkv ∣ nq →
      q.length = nq * d → k.length = seqLen * (nkv * d) → v.length = seqLen * (nkv * d) →
      (∃ out, cpuSdpaLoops q k v nq nkv d seqLen scale w = some out ∧ out.length = nq * d ∧
        ∀ qh < nq, ∀ e < d, out.getD (qh * d + e) 0 =
          softmaxAttention q k v nkv d (qh / (nq / nkv)) scale (window seqLen w) qh e) ∧
      ∀ (kvStart qh : ℕ) (st st' : SdpaState K), st.out = st'.out →
        st.scores.length = seqLen - kvStart → st.expScores.length = seqLen - kvStart →
        st'.scores.length = seqLen - kvStart → st'.expScores.length = seqLen - kvStart →
        sdpaHead q k v nkv d (nq / nkv) kvStart seqLen scale st qh =
          sdpaHead q k v nkv d (nq / nkv) kvStart seqLen scale st' qh := by
  refine ⟨fun a b h => dot4Loops_eq h, fun q k v nq nkv d seqLen scale w hnkv hdvd hq hk hv =>
    ⟨?_, fun kvStart qh st st' hout hs he hs' he' =>
      sdpaHead_scratch q k v nkv d _ kvStart seqLen qh scale hout hs he hs' he'⟩⟩
  obtain ⟨out, hout⟩ := cpuSdpa_returns scale w hq hk hv hnkv hdvd
  exact ⟨out, cpuSdpaLoops_eq hout, length_cpuSdpa hout,
    fun qh hqh e he => getD_cpuSdpa hadd hpos hout hqh he⟩

/-- Two query heads over one key head and two tokens, of which the window leaves the last. -/
theorem cpuSdpaLoops_softmax_real : ∃ out : List ℝ,
    @cpuSdpaLoops ℝ _ realElementary _ [1, 2] [1, 3] [5, 7] 2 1 1 2 1 (some 1) = some out ∧
      out.length = 2 * 1 ∧ ∀ qh < 2, ∀ e < 1, out.getD (qh * 1 + e) 0 =
        @softmaxAttention ℝ _ realElementary [1, 2] [1, 3] [5, 7] 1 1 (qh / (2 / 1)) 1
          (window 2 (some 1)) qh e :=
  ((@cpuSdpaLoops_softmax ℝ _ realElementary _ Real.exp_add Real.exp_pos).2 [1, 2] [1, 3] [5, 7]
    2 1 1 2 1 (some 1) (by decide) (by decide) rfl rfl rfl).1

end Gemma4

end VllmVulkan
