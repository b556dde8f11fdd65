import VllmVulkan.Gemma4.Forward

/-!
# When the forward pass returns

With all tensors loaded in their shapes nothing in a pass panics, as long as the token is in the
vocabulary and the caches have room.

* `rowsInPlace_returns`, `cpuRope_returns`, `cpuSdpa_returns`, … : the operations;
* `Sizes` : the sizes that a configuration needs;
* `HasRoom` : caches with room for a token;
* `attention_returns`, `forwardNLayers_returns` : the layers;
* `forward_returns` : **a token for which there is room**.
-/

namespace VllmVulkan

namespace Gemma4

open Elementary Panics

/-! ### Loops -/

theorem foldlM_returns {α β : Type} {f : α → β → Option α} {P : α → Prop} {bs : List β} {x : α}
    (hf : ∀ x, ∀ b ∈ bs, P x → ∃ y, f x b = some y ∧ P y) (hx : P x) :
    ∃ y, bs.foldlM f x = some y ∧ P y := by
  induction bs generalizing x with
  | nil => exact ⟨x, rfl, hx⟩
  | cons b bs ih =>
    obtain ⟨y, hy, hP⟩ := hf x b List.mem_cons_self hx
    obtain ⟨z, hz, hPz⟩ := ih (fun x c hc => hf x c (List.mem_cons_of_mem _ hc)) hP
    exact ⟨z, by rw [List.foldlM_cons, hy]; exact hz, hPz⟩

theorem mapM_returns {α β : Type} {f : α → Option β} {xs : List α}
    (h : ∀ x ∈ xs, ∃ y, f x = some y) : ∃ ys, xs.mapM f = some ys := by
  induction xs with
  | nil => exact ⟨[], rfl⟩
  | cons x xs ih =>
    obtain ⟨y, hy⟩ := h x List.mem_cons_self
    obtain ⟨ys, hys⟩ := ih fun z hz => h z (List.mem_cons_of_mem _ hz)
    exact ⟨y :: ys, by simp [List.mapM_cons, hy, hys]⟩

theorem slice_returns {α : Type} {x : List α} {lo hi : ℕ} (hlo : lo ≤ hi) (hhi : hi ≤ x.length) :
    ∃ y, slice x lo hi = some y ∧ y.length = hi - lo := by
  obtain ⟨y, hy⟩ : ∃ y, slice x lo hi = some y := ⟨_, if_pos ⟨hlo, hhi⟩⟩
  exact ⟨y, hy, length_slice hy⟩

theorem copyFromSlice_returns {α : Type} {x src : List α} {lo hi : ℕ} (hlo : lo ≤ hi)
    (hhi : hi ≤ x.length) (hsrc : src.length = hi - lo) :
    ∃ y, copyFromSlice x lo hi src = some y ∧ y.length = x.length := by
  obtain ⟨dst, hdst, hlen⟩ := slice_returns hlo hhi
  have hcopy : copyFromSlice x lo hi src = some (x.take lo ++ src ++ x.drop hi) := by
    simp only [copyFromSlice, hdst, Option.bind_eq_bind, Option.bind_some]
    rw [if_pos (hlen.trans hsrc.symm)]
  exact ⟨_, hcopy, length_copyFromSlice hcopy⟩

theorem row_le {n d h : ℕ} (hh : h < n) : (h + 1) * d ≤ n * d := Nat.mul_le_mul_right d hh

theorem rowsInPlace_returns {α : Type} {n d : ℕ} {f : List α → Option (List α)} {x : List α}
    (hx : x.length = n * d)
    (hf : ∀ row, row.length = d → ∃ y, f row = some y ∧ y.length = d) :
    ∃ y, rowsInPlace n d f x = some y ∧ y.length = n * d := by
  refine foldlM_returns (fun z h hh hz => ?_) hx
  have hle : (h + 1) * d ≤ z.length := hz ▸ row_le (List.mem_range.1 hh)
  have hlo : h * d ≤ (h + 1) * d := Nat.mul_le_mul_right d (Nat.le_succ h)
  have hwidth : (h + 1) * d - h * d = d := by rw [Nat.succ_mul, Nat.add_sub_cancel_left]
  obtain ⟨row, hrow, hlen⟩ := slice_returns hlo hle
  obtain ⟨row', hrow', hlen'⟩ := hf row (hlen.trans hwidth)
  obtain ⟨y, hy, hylen⟩ := copyFromSlice_returns hlo hle (hlen'.trans hwidth.symm)
  exact ⟨y, by simp only [hrow, hrow', hy, Option.bind_eq_bind, Option.bind_some], hylen.trans hz⟩

/-! ### The operations -/

variable {K : Type} [Field K] [Elementary K]

theorem cpuRmsNormInplace_returns {x weight : List K} {n : ℕ} (hpos : 0 < weight.length)
    (hx : x.length = n * weight.length) (eps : K) :
    ∃ y, cpuRmsNormInplace x weight eps = some y ∧ y.length = x.length := by
  have hdiv : x.length / weight.length = n := by rw [hx, Nat.mul_div_cancel _ hpos]
  obtain ⟨y, hy, hlen⟩ := rowsInPlace_returns (f := fun row => some (rmsRow row weight eps)) hx
    fun row hrow => ⟨_, rfl, by rw [length_rmsRow, hrow, Nat.min_self]⟩
  refine ⟨y, ?_, hlen.trans hx.symm⟩
  unfold cpuRmsNormInplace
  rw [if_neg hpos.ne', if_neg (by rw [hx, Nat.mul_mod_left]; simp), hdiv]
  exact hy

theorem cpuRmsNormNoWeightInplace_returns {x : List K} {n : ℕ} (hpos : 0 < n) (hx : x.length = n)
    (eps : K) : ∃ y, cpuRmsNormNoWeightInplace x n eps = some y ∧ y.length = n := by
  subst hx
  refine ⟨x.map fun v => v * rmsScale x x.length eps, ?_, List.length_map _⟩
  unfold cpuRmsNormNoWeightInplace
  rw [if_neg hpos.ne', if_neg (by simp), Nat.div_self hpos]
  exact rowsInPlace_one rfl (List.length_map _)

theorem rotateHead_returns {pos rotaryDim : ℕ} {theta : K} {x : List K}
    (hx : rotaryDim ≤ x.length) :
    ∃ y, rotateHead (rotaryDim / 2) (sinCosTable pos rotaryDim theta) x = some y ∧
      y.length = x.length := by
  refine foldlM_returns (P := fun y : List K => y.length = x.length) (fun y p hp hy => ?_) rfl
  have hidx : p.2 < rotaryDim / 2 := by
    obtain ⟨-, hlt, -⟩ := List.mem_zipIdx hp
    simpa [sinCosTable] using hlt
  have h0 : p.2 < y.length := by omega
  have h1 : p.2 + rotaryDim / 2 < y.length := by omega
  refine ⟨_, by simp only [List.getElem?_eq_getElem h0, List.getElem?_eq_getElem h1,
    Option.bind_eq_bind, Option.bind_some, Option.pure_def]; rfl, ?_⟩
  rw [List.length_set, List.length_set, hy]

theorem cpuRope_returns {q k : List K} {pos nq nkv d rotaryDim : ℕ} {theta : K}
    (hq : q.length = nq * d) (hk : k.length = nkv * d) (hrot : rotaryDim ≤ d) :
    ∃ q' k', cpuRope q k pos nq nkv d rotaryDim theta = some (q', k') ∧ q'.length = nq * d ∧
      k'.length = nkv * d := by
  have hrow : ∀ row : List K, row.length = d → ∃ y,
      rotateHead (rotaryDim / 2) (sinCosTable pos rotaryDim theta) row = some y ∧ y.length = d := by
    intro row hrow
    obtain ⟨y, hy, hlen⟩ := rotateHead_returns (hrot.trans hrow.ge)
    exact ⟨y, hy, hlen.trans hrow⟩
  obtain ⟨q', hq', hlenq⟩ := rowsInPlace_returns hq hrow
  obtain ⟨k', hk', hlenk⟩ := rowsInPlace_returns hk hrow
  exact ⟨q', k', by simp only [cpuRope, hq', hk', Option.bind_eq_bind, Option.bind_some]; rfl,
    hlenq, hlenk⟩

omit [Elementary K] in
theorem dot4_returns {a b : List K} (h : a.length = b.length) : ∃ d, dot4 a b = some d := by
  unfold dot4
  rw [if_neg (by simp [h])]
  exact ⟨_, rfl⟩

variable [LinearOrder K]

theorem sdpaRow_returns {q k v : List K} {positions : List ℕ} {nq nkv d ratio qh n : ℕ} {scale : K}
    (hq : q.length = nq * d) (hk : k.length = n * (nkv * d)) (hv : v.length = n * (nkv * d))
    (hpos : ∀ p ∈ positions, p < n) (hratio : 0 < ratio) (hqh : qh < nq) (hkvh : qh / ratio < nkv) :
    ∃ out, sdpaRow q k v positions nkv d ratio scale qh = some out := by
  have hwidth : ∀ r : ℕ, (r + 1) * d - r * d = d :=
    fun r => by rw [Nat.succ_mul, Nat.add_sub_cancel_left]
  -- the rows of the positions lie inside the keys and the values
  have hrow : ∀ x : List K, x.length = n * (nkv * d) → ∀ p ∈ positions, ∃ row,
      slice x ((p * nkv + qh / ratio) * d) ((p * nkv + qh / ratio + 1) * d) = some row ∧
        row.length = d := by
    intro x hx p hp
    have hle : (p * nkv + qh / ratio + 1) * d ≤ x.length := by
      rw [hx, ← Nat.mul_assoc]
      refine Nat.mul_le_mul_right d ?_
      calc p * nkv + qh / ratio + 1 ≤ p * nkv + nkv := by omega
        _ = (p + 1) * nkv := by ring
        _ ≤ n * nkv := Nat.mul_le_mul_right _ (hpos p hp)
    obtain ⟨row, hrow, hlen⟩ := slice_returns (Nat.mul_le_mul_right d (Nat.le_succ _)) hle
    exact ⟨row, hrow, hlen.trans (hwidth _)⟩
  obtain ⟨qRow, hqRow, hqlen⟩ := slice_returns (Nat.mul_le_mul_right d (Nat.le_succ qh))
    (hq ▸ row_le hqh)
  obtain ⟨scores, hscores⟩ : ∃ scores, (positions.mapM fun kvPos => do
      let kRow ← slice k ((kvPos * nkv + qh / ratio) * d) ((kvPos * nkv + qh / ratio + 1) * d)
      let dot ← dot4 qRow kRow
      pure (dot * scale)) = some scores := by
    refine mapM_returns ?_
    intro p hp
    obtain ⟨kRow, hkRow, hlen⟩ := hrow k hk p hp
    obtain ⟨dot, hdot⟩ := dot4_returns (hqlen.trans ((hwidth qh).trans hlen.symm))
    exact ⟨dot * scale, by simp only [hkRow, hdot, Option.bind_eq_bind, Option.bind_some]; rfl⟩
  obtain ⟨out, hout, -⟩ : ∃ out, (((softmaxScores scores).zip positions).foldlM (fun out p => do
      let vRow ← slice v ((p.2 * nkv + qh / ratio) * d) ((p.2 * nkv + qh / ratio + 1) * d)
      pure (List.zipWith (fun o vv => o + p.1 * vv) out vRow)) (List.replicate d 0)) = some out ∧
        True := by
    refine foldlM_returns (fun out p hp _ => ?_) trivial
    obtain ⟨vRow, hvRow, -⟩ := hrow v hv p.2 (List.of_mem_zip hp).2
    exact ⟨_, by simp only [hvRow, Option.bind_eq_bind, Option.bind_some]; rfl, trivial⟩
  refine ⟨out, ?_⟩
  simp only [Option.bind_eq_bind] at hscores hout
  unfold sdpaRow usizeDiv
  simp only [if_neg hratio.ne', hqRow, hscores, Option.bind_eq_bind, Option.bind_some]
  exact hout

theorem cpuSdpa_returns {q k v : List K} {nq nkv d n : ℕ} (scale : K) (window : Option ℕ)
    (hq : q.length = nq * d) (hk : k.length = n * (nkv * d)) (hv : v.length = n * (nkv * d))
    (hnkv : 0 < nkv) (hdvd : nkv ∣ nq) :
    ∃ out, cpuSdpa q k v nq nkv d n scale window = some out := by
  obtain ⟨ratio, rfl⟩ := hdvd
  have hratio : nkv * ratio / nkv = ratio := Nat.mul_div_cancel_left ratio hnkv
  unfold cpuSdpa usizeDiv
  simp only [if_neg hnkv.ne', hratio, Option.bind_eq_bind, Option.bind_some]
  have hrows : ∀ start, ∃ rows, (List.range (nkv * ratio)).mapM
      (sdpaRow q k v (List.range' start (n - start)) nkv d ratio scale) = some rows := by
    refine fun start => mapM_returns ?_
    intro qh hqh
    rw [List.mem_range] at hqh
    have hpos : 0 < ratio := Nat.pos_of_mul_pos_left (Nat.zero_lt_of_lt hqh)
    refine sdpaRow_returns hq hk hv (fun p hp => ?_) hpos hqh
      (Nat.div_lt_of_lt_mul (Nat.mul_comm nkv ratio ▸ hqh))
    obtain ⟨hle, hlt⟩ := List.mem_range'_1.1 hp
    omega
  cases window with
  | none =>
    obtain ⟨rows, hrows⟩ := hrows 0
    exact ⟨rows.flatten, by dsimp only; rw [hrows]; rfl⟩
  | some window =>
    obtain ⟨rows, hrows⟩ := hrows (n - window)
    exact ⟨rows.flatten, by dsimp only; rw [hrows]; rfl⟩

/-! ### The caches -/

/-- A cache of layer `i`, with buffers of its full size. -/
structure KvCache.Fits (cfg : Gemma4Config K) (i : ℕ) (c : KvCache K) : Prop where
  stride : c.stride = cfg.kvDim i
  k : c.k.length = c.maxSeqLen * c.stride
  v : c.v.length = c.maxSeqLen * c.stride
  seqLen : c.seqLen ≤ c.maxSeqLen

/-- The caches of all layers. -/
structure CachesFit (cfg : Gemma4Config K) (caches : Caches K) : Prop where
  length : caches.length = cfg.numHiddenLayers
  fits : ∀ (i : ℕ) (c : KvCache K), caches[i]? = some c → c.Fits cfg i

/-- A cache with room for a token. -/
def HasRoom (caches : Caches K) (i : ℕ) : Prop :=
  ∀ c, caches[i]? = some c → c.seqLen < c.maxSeqLen

variable {cfg : Gemma4Config K} {i : ℕ} {caches : Caches K}

omit [Field K] [Elementary K] [LinearOrder K] in
theorem KvCache.Fits.append {c : KvCache K} {k v : List K} (h : c.Fits cfg i)
    (hroom : c.seqLen < c.maxSeqLen) (hk : k.length = cfg.kvDim i) (hv : v.length = cfg.kvDim i) :
    ∃ c', KvCache.append k v c = (some (), c') ∧ c'.Fits cfg i := by
  have hle : c.seqLen * c.stride + c.stride ≤ c.maxSeqLen * c.stride := by
    rw [← Nat.succ_mul]
    exact Nat.mul_le_mul_right _ hroom
  obtain ⟨k', hk', hlenk⟩ := copyFromSlice_returns (Nat.le_add_right _ c.stride) (h.k ▸ hle)
    ((hk.trans h.stride.symm).trans (Nat.add_sub_cancel_left _ _).symm)
  obtain ⟨v', hv', hlenv⟩ := copyFromSlice_returns (Nat.le_add_right _ c.stride) (h.v ▸ hle)
    ((hv.trans h.stride.symm).trans (Nat.add_sub_cancel_left _ _).symm)
  refine ⟨{ c with k := k', v := v', seqLen := c.seqLen + 1 }, ?_, h.stride, hlenk.trans h.k,
    hlenv.trans h.v, hroom⟩
  rw [append_apply, if_pos hroom]
  simp only [KvCache.stride] at hk' hv'
  simp only [hk', hv']

omit [Field K] [Elementary K] [LinearOrder K] in
theorem KvCache.Fits.upToNow {c : KvCache K} (h : c.Fits cfg i) :
    ∃ ks vs, c.kUpToNow = some ks ∧ c.vUpToNow = some vs ∧
      ks.length = c.seqLen * (cfg.numKeyValueHeads * cfg.layerHeadDim i) ∧
      vs.length = c.seqLen * (cfg.numKeyValueHeads * cfg.layerHeadDim i) := by
  have hle : c.seqLen * c.numKvHeads * c.headDim ≤ c.maxSeqLen * c.stride := by
    rw [Nat.mul_assoc]
    exact Nat.mul_le_mul_right _ h.seqLen
  have hlen : c.seqLen * c.numKvHeads * c.headDim - 0 =
      c.seqLen * (cfg.numKeyValueHeads * cfg.layerHeadDim i) := by
    rw [Nat.sub_zero, Nat.mul_assoc]
    exact congrArg _ h.stride
  obtain ⟨ks, hks, hlenk⟩ := slice_returns (Nat.zero_le _) (h.k ▸ hle)
  obtain ⟨vs, hvs, hlenv⟩ := slice_returns (Nat.zero_le _) (h.v ▸ hle)
  exact ⟨ks, vs, hks, hvs, hlenk.trans hlen, hlenv.trans hlen⟩

/-! ### The attention -/

/-- The sizes that a configuration needs. -/
structure Sizes (cfg : Gemma4Config K) : Prop where
  headDim : 0 < cfg.headDim
  globalHeadDim : 0 < cfg.globalHeadDim
  numKeyValueHeads : 0 < cfg.numKeyValueHeads
  dvd : cfg.numKeyValueHeads ∣ cfg.numAttentionHeads
  pleDim : 0 < cfg.hiddenSizePerLayerInput
  firstKv : 5 ≤ cfg.firstKvSharedLayer

omit [Field K] [Elementary K] [LinearOrder K] in
theorem Sizes.layerHeadDim (h : Sizes cfg) (i : ℕ) : 0 < cfg.layerHeadDim i := by
  unfold Gemma4Config.layerHeadDim
  split
  · exact h.globalHeadDim
  · exact h.headDim

omit [LinearOrder K] in
theorem rotatedHeads_returns {q k v qNorm kNorm : List K} (pos : ℕ) (hsizes : Sizes cfg)
    (hq : q.length = cfg.qDim i) (hk : k.length = cfg.kvDim i) (hv : v.length = cfg.kvDim i)
    (hqn : qNorm.length = cfg.layerHeadDim i) (hkn : kNorm.length = cfg.layerHeadDim i) :
    ∃ q' row, rotatedHeads cfg i q k v qNorm (some kNorm) pos = some (q', row) ∧
      q'.length = cfg.qDim i ∧ row.k.length = cfg.kvDim i ∧ row.v.length = cfg.kvDim i := by
  have hd := hsizes.layerHeadDim i
  have hnorm : ∀ w : List K, w.length = cfg.layerHeadDim i → ∀ row : List K,
      row.length = cfg.layerHeadDim i →
      ∃ y, cpuRmsNormInplace row w cfg.rmsNormEps = some y ∧ y.length = cfg.layerHeadDim i := by
    intro w hw row hrow
    obtain ⟨y, hy, hlen⟩ := cpuRmsNormInplace_returns (x := row) (n := 1) (hw ▸ hd)
      (by rw [hrow, hw, Nat.one_mul]) cfg.rmsNormEps
    exact ⟨y, hy, hlen.trans hrow⟩
  obtain ⟨q₁, hq₁, hlenq₁⟩ := rowsInPlace_returns hq (hnorm qNorm hqn)
  obtain ⟨k₁, hk₁, hlenk₁⟩ := rowsInPlace_returns hk (hnorm kNorm hkn)
  obtain ⟨v₁, hv₁, hlenv₁⟩ := rowsInPlace_returns hv fun row hrow =>
    cpuRmsNormNoWeightInplace_returns hd hrow cfg.rmsNormEps
  have hrot : (if cfg.isFullAttention i then cfg.layerHeadDim i / 4 else cfg.layerHeadDim i) ≤
      cfg.layerHeadDim i := by
    split
    · exact Nat.div_le_self _ _
    · exact Nat.le_refl _
  unfold rotatedHeads
  cases cfg.isKvShared i with
  | true =>
    obtain ⟨q', k', hrope, hlenq, hlenk⟩ := @cpuRope_returns _ _ _ q₁ k pos _ _ _ _
      (if cfg.isFullAttention i then 1000000 else 10000) hlenq₁ hk hrot
    exact ⟨q', ⟨k', v⟩, by simp [hq₁, hrope], hlenq, hlenk, hv⟩
  | false =>
    obtain ⟨q', k', hrope, hlenq, hlenk⟩ := @cpuRope_returns _ _ _ q₁ k₁ pos _ _ _ _
      (if cfg.isFullAttention i then 1000000 else 10000) hlenq₁ hlenk₁ hrot
    exact ⟨q', ⟨k', v₁⟩, by simp [hq₁, hk₁, hv₁, hrope], hlenq, hlenk, hlenv₁⟩

theorem attention_returns {q k v qNorm kNorm : List K} (pos : ℕ) (hsizes : Sizes cfg)
    (hfit : CachesFit cfg caches) (hi : i < cfg.numHiddenLayers)
    (hroom : cfg.isKvShared i = false → HasRoom caches i)
    (hq : q.length = cfg.qDim i) (hk : k.length = cfg.kvDim i) (hv : v.length = cfg.kvDim i)
    (hqn : qNorm.length = cfg.layerHeadDim i) (hkn : kNorm.length = cfg.layerHeadDim i) :
    ∃ out caches', attention cfg i q k v qNorm (some kNorm) pos caches = (some out, caches') ∧
      CachesFit cfg caches' ∧ ∀ j, j ≠ i → caches'[j]? = caches[j]? := by
  obtain ⟨q', row, hheads, hlenq, hlenk, hlenv⟩ := rotatedHeads_returns pos hsizes hq hk hv
    hqn hkn
  obtain ⟨t, ht, hown, hkind, hdim⟩ := cacheOf_spec hsizes.firstKv i
  -- the caches the attention reads
  have hstep : ∃ caches₁, (if cfg.isKvShared i then lift (cfg.kvSharedTarget i) else do
      withCache i (KvCache.append row.k row.v)
      pure i) caches = (some t, caches₁) ∧ CachesFit cfg caches₁ ∧
        (∀ j, j ≠ i → caches₁[j]? = caches[j]?) ∧ t < cfg.numHiddenLayers := by
    unfold cacheOf at ht
    cases hshared : cfg.isKvShared i with
    | true =>
      rw [hshared, if_pos rfl] at ht
      refine ⟨caches, by rw [if_pos rfl, ht]; rfl, hfit, fun _ _ => rfl, ?_⟩
      simp only [Gemma4Config.isKvShared, decide_eq_true_eq, decide_eq_false_iff_not]
        at hown hshared
      omega
    | false =>
      rw [hshared, if_neg Bool.false_ne_true] at ht
      obtain rfl := Option.some.inj ht
      have hlt : i < caches.length := hfit.length ▸ hi
      have hc : caches[i]? = some caches[i] := List.getElem?_eq_getElem hlt
      obtain ⟨c', happend, hfits⟩ :=
        (hfit.fits i _ hc).append (hroom hshared _ hc) hlenk hlenv
      have hother : ∀ j, j ≠ i → (caches.set i c')[j]? = caches[j]? :=
        fun j hj => List.getElem?_set_ne (Ne.symm hj)
      refine ⟨caches.set i c', ?_, ⟨by rw [List.length_set, hfit.length], fun j c hj => ?_⟩,
        hother, hi⟩
      · rw [if_neg Bool.false_ne_true]
        exact bind_eq_some.2 ⟨(), _, withCache_eq_some.2 ⟨_, c', hc, happend, rfl⟩, rfl⟩
      · by_cases hji : j = i
        · subst hji
          rw [List.getElem?_set_self hlt] at hj
          exact Option.some.inj hj ▸ hfits
        · rw [hother j hji] at hj
          exact hfit.fits j c hj
  obtain ⟨caches₁, htarget, hfit₁, hother, hlt⟩ := hstep
  obtain ⟨c, hc⟩ : ∃ c, caches₁[t]? = some c :=
    ⟨_, List.getElem?_eq_getElem (hfit₁.length ▸ hlt)⟩
  obtain ⟨ks, vs, hks, hvs, hlenks, hlenvs⟩ := (hfit₁.fits t _ hc).upToNow
  rw [hdim] at hlenks hlenvs
  obtain ⟨out, hout⟩ := cpuSdpa_returns 1
    (if cfg.isFullAttention i then none else some cfg.slidingWindow) hlenq hlenks hlenvs
    hsizes.numKeyValueHeads hsizes.dvd
  refine ⟨out, caches₁, ?_, hfit₁, hother⟩
  rw [attention_eq]
  refine bind_eq_some.2 ⟨_, _, lift_eq_some.2 ⟨hheads, rfl⟩, bind_eq_some.2 ⟨t, caches₁, htarget,
    bind_eq_some.2 ⟨_, _, withCache_get_eq_some.2 ⟨hc, rfl⟩, lift_eq_some.2 ⟨?_, rfl⟩⟩⟩⟩
  simp only [hks, hvs, Option.bind_eq_bind, Option.bind_some]
  exact hout

/-! ### The layers -/

variable {m : Gemma4Model K} {tokenId : ℕ}

omit [LinearOrder K] in
theorem passInputs_returns (hW : WellShaped m) (hpleDim : 0 < m.config.hiddenSizePerLayerInput)
    (htoken : tokenId < m.config.vocabSize) :
    ∃ hidden pleInputs, passInputs m tokenId = some (hidden, pleInputs) ∧
      pleInputs.length = m.config.totalPle := by
  obtain ⟨embedW, hembedW, hembedLen⟩ := hW.loaded .embedTokens trivial
  obtain ⟨pleW, hpleW, hpleLen⟩ := hW.loaded .embedTokensPerLayer trivial
  obtain ⟨projW, hprojW, -⟩ := hW.loaded .perLayerModelProjection trivial
  obtain ⟨normW, hnormW, hnormLen⟩ := hW.loaded .perLayerProjectionNorm trivial
  simp only [weightShape] at hembedLen hpleLen hnormLen
  have hwidth : ∀ d : ℕ, (tokenId + 1) * d - tokenId * d = d :=
    fun d => by rw [Nat.succ_mul, Nat.add_sub_cancel_left]
  obtain ⟨row, hrow, hrowLen⟩ := slice_returns
    (Nat.mul_le_mul_right m.config.hiddenSize (Nat.le_succ tokenId)) (hembedLen ▸ row_le htoken)
  obtain ⟨pleRow, hpleRow, hpleRowLen⟩ := slice_returns
    (Nat.mul_le_mul_right m.config.totalPle (Nat.le_succ tokenId)) (hpleLen ▸ row_le htoken)
  have hproj : ∀ hidden : List K, ∃ y, cpuRmsNorm ((matvec projW hidden m.config.hiddenSize
      m.config.totalPle).map (· * m.config.perLayerProjectionScale)) normW m.config.rmsNormEps =
        some y ∧ y.length = m.config.totalPle := by
    intro hidden
    obtain ⟨y, hy, hlen⟩ := cpuRmsNormInplace_returns (n := m.config.numHiddenLayers)
      (x := (matvec projW hidden m.config.hiddenSize m.config.totalPle).map
        (· * m.config.perLayerProjectionScale)) (hnormLen ▸ hpleDim)
      (by rw [List.length_map, length_matvec, hnormLen]; rfl) m.config.rmsNormEps
    exact ⟨y, hy, by rw [hlen, List.length_map, length_matvec]⟩
  obtain ⟨y, hy, hylen⟩ := hproj (row.map (· * m.config.embedScale))
  refine ⟨row.map (· * m.config.embedScale),
    List.zipWith (fun p e => (p + e) * m.config.perLayerInputScale) y
      (pleRow.map (· * m.config.pleScale)), ?_, ?_⟩
  · simp only [passInputs, embed, pleEmbeds, pleInputs, hembedW, hpleW, hprojW, hnormW, hrow,
      hpleRow, cpuMatmul_one, hy, Option.bind_eq_bind, Option.bind_some, Option.pure_def]
  · rw [List.length_zipWith, List.length_map, hylen, hpleRowLen, hwidth, Nat.min_self]

omit [LinearOrder K] in
theorem layerPleOf_returns (hW : WellShaped m) (hpleDim : 0 < m.config.hiddenSizePerLayerInput)
    (htoken : tokenId < m.config.vocabSize) (hi : i < m.config.numHiddenLayers) :
    ∃ layerPle, layerPleOf m tokenId i = some layerPle := by
  obtain ⟨hidden, pleInputs, hinputs, hlen⟩ := passInputs_returns hW hpleDim htoken
  have hle : (i + 1) * m.config.hiddenSizePerLayerInput ≤ pleInputs.length := hlen ▸ row_le hi
  obtain ⟨layerPle, hslice, -⟩ := slice_returns
    (Nat.mul_le_mul_right m.config.hiddenSizePerLayerInput (Nat.le_succ i)) hle
  refine ⟨layerPle, ?_⟩
  simp only [layerPleOf, hinputs, Option.bind_eq_bind, Option.bind_some, hslice]

theorem forwardNLayers_returns {n : ℕ} (pos : ℕ) (hW : WellShaped m) (hsizes : Sizes m.config)
    (htoken : tokenId < m.config.vocabSize) (hfit : CachesFit m.config caches)
    (hroom : ∀ i, m.config.isKvShared i = false → HasRoom caches i)
    (hn : n ≤ m.config.numHiddenLayers) :
    ∃ hidden caches', forwardNLayers m tokenId pos n caches = (some hidden, caches') ∧
      hidden.length = m.config.hiddenSize ∧ CachesFit m.config caches' ∧
      ∀ j, n ≤ j → caches'[j]? = caches[j]? := by
  induction n with
  | zero =>
    obtain ⟨hidden, pleInputs, hinputs, -⟩ := passInputs_returns hW hsizes.pleDim htoken
    refine ⟨hidden, caches, ?_, length_passInputs hinputs, hfit, fun _ _ => rfl⟩
    exact bind_eq_some.2 ⟨_, _, lift_eq_some.2 ⟨hinputs, rfl⟩, by
      dsimp only
      rw [Nat.zero_min]
      rfl⟩
  | succ n ih =>
    obtain ⟨hidden, caches₁, hpass, hlen, hfit₁, hsame⟩ := ih (Nat.le_of_succ_le hn)
    obtain ⟨layerPle, hple⟩ := layerPleOf_returns (i := n) hW hsizes.pleDim htoken hn
    obtain ⟨scalar, hscalar⟩ := hW.layerScalar hn
    have hL := hW.isLayer hn
    have hlenT : ∀ w, (tensors m n w).length = weightShape m.config (.layer n w) := hL.length
    -- layer `n` finds its own cache as the pass found it, with room for the token
    obtain ⟨attnOut, caches₂, hattention, hfit₂, hother⟩ := attention_returns (i := n)
      (q := matvec (tensors m n .qProj)
        (rmsRow hidden (tensors m n .inputLayernorm) m.config.rmsNormEps) m.config.hiddenSize
        (m.config.qDim n))
      (k := matvec (tensors m n .kProj)
        (rmsRow hidden (tensors m n .inputLayernorm) m.config.rmsNormEps) m.config.hiddenSize
        (m.config.kvDim n))
      (v := matvec (tensors m n .vProj)
        (rmsRow hidden (tensors m n .inputLayernorm) m.config.rmsNormEps) m.config.hiddenSize
        (m.config.kvDim n))
      pos hsizes hfit₁ hn (fun hown c hc => hroom n hown c (hsame n (Nat.le_refl n) ▸ hc))
      (length_matvec _ _ _ _) (length_matvec _ _ _ _) (length_matvec _ _ _ _) (hlenT .qNorm)
      (hlenT .kNorm)
    refine ⟨postAttention m.config n (tensors m n) scalar attnOut hidden layerPle, caches₂,
      (forwardNLayers_succ hn).2 ⟨hidden, caches₁, layerPle, hpass, hple, ?_⟩,
      length_postAttention hlenT hlen, hfit₂, fun j hj => ?_⟩
    · rw [forwardLayer_eq hL hscalar hW.hiddenSize hlen]
      exact bind_eq_some.2 ⟨attnOut, caches₂, hattention, rfl⟩
    · rw [hother j (by omega), hsame j (by omega)]

/-- **A token for which there is room** gets its logits. -/
theorem forward_returns (pos : ℕ) (hW : WellShaped m) (hsizes : Sizes m.config)
    (htoken : tokenId < m.config.vocabSize) (hfit : CachesFit m.config caches)
    (hroom : ∀ i, m.config.isKvShared i = false → HasRoom caches i) :
    ∃ logits caches', forward m tokenId pos caches = (some logits, caches') := by
  obtain ⟨hidden, caches', hpass, hlen, -, -⟩ :=
    forwardNLayers_returns pos hW hsizes htoken hfit hroom (Nat.le_refl _)
  obtain ⟨lmW, hlmW, -⟩ := hW.loaded .embedTokens trivial
  obtain ⟨normW, hnormW, hnormLen⟩ := hW.loaded .norm trivial
  have hhead := lmHead_eq hW.hiddenSize hlen hlmW hnormW hnormLen
  refine ⟨logits m.config lmW normW hidden, caches', ?_⟩
  rw [forward_eq_pass]
  exact bind_eq_some.2 ⟨hidden, caches', hpass, lift_eq_some.2 ⟨hhead, rfl⟩⟩

end Gemma4

end VllmVulkan
