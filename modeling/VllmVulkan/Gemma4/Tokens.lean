import VllmVulkan.Gemma4.Live

/-!
# The tokens in the KV caches

A cache holds the keys and values of a list of tokens, one row after the other; what lies behind
them is left over.  The attention of a layer is a function of the tokens its cache holds.

* `KvRow`, `KvCache.Holds` : the key and value of one token, and the cache of a list of tokens;
* `rotatedHeads` : the norms of the heads and RoPE;
* `lastTokens`, `attendTokens` : the tokens in the window of a layer, and the attention over tokens;
* `append_holds` : appending a token;
* `cpuSdpa_lastTokens` : **the window cuts off the first tokens**;
* `attention_holds` : **a layer puts one token into its own cache, or none, and attends over the
  tokens of its target**.
-/

namespace VllmVulkan

namespace Gemma4

open Panics

variable {K : Type}

/-- The key and the value of one token at one layer. -/
structure KvRow (K : Type) where
  k : List K
  v : List K

/-- The elements of a key, and of a value. -/
def KvCache.stride (c : KvCache K) : ℕ := c.numKvHeads * c.headDim

/-- The cache holds exactly these tokens, in this order. -/
structure KvCache.Holds (c : KvCache K) (rows : List (KvRow K)) : Prop where
  seqLen : c.seqLen = rows.length
  stride : ∀ row ∈ rows, row.k.length = c.stride ∧ row.v.length = c.stride
  k : ∃ rest, c.k = rows.flatMap KvRow.k ++ rest
  v : ∃ rest, c.v = rows.flatMap KvRow.v ++ rest

/-! ### Rows one after the other -/

theorem length_flatMap_rows {rows : List (KvRow K)} {f : KvRow K → List K} {d : ℕ}
    (h : ∀ row ∈ rows, (f row).length = d) : (rows.flatMap f).length = rows.length * d := by
  rw [List.length_flatMap, List.map_congr_left h, List.map_const', List.sum_replicate_nat]

theorem slice_append_left {x y z : List K} {lo hi : ℕ} (hlo : x.length = lo)
    (hhi : x.length + y.length = hi) : slice (x ++ (y ++ z)) lo hi = some y := by
  subst hlo hhi
  refine slice_eq_some.2 ⟨⟨Nat.le_add_right _ _, by simp⟩, ?_⟩
  rw [← List.append_assoc, List.take_left' (by simp), List.drop_left]

theorem slice_drop {x : List K} {n : ℕ} (lo hi : ℕ) (h : n ≤ x.length) :
    slice (x.drop n) lo hi = slice x (n + lo) (n + hi) := by
  unfold slice
  have hiff : (lo ≤ hi ∧ hi ≤ (x.drop n).length) ↔ (n + lo ≤ n + hi ∧ n + hi ≤ x.length) := by
    rw [List.length_drop]
    omega
  rw [if_congr hiff rfl rfl, List.take_drop, List.drop_drop]

theorem flatMap_drop_rows {rows : List (KvRow K)} {f : KvRow K → List K} {d : ℕ}
    (h : ∀ row ∈ rows, (f row).length = d) (n : ℕ) :
    (rows.drop n).flatMap f = (rows.flatMap f).drop (n * d) := by
  induction n generalizing rows with
  | zero => simp
  | succ n ih =>
    cases rows with
    | nil => simp
    | cons row rows =>
      rw [List.drop_succ_cons, ih fun r hr => h r (List.mem_cons_of_mem _ hr), List.flatMap_cons,
        Nat.succ_mul, Nat.add_comm, ← List.drop_drop, List.drop_left' (h row List.mem_cons_self)]

theorem copyFromSlice_next {x rest src y : List K} {pos stride : ℕ} (hx : x.length = pos)
    (h : copyFromSlice (x ++ rest) pos (pos + stride) src = some y) :
    src.length = stride ∧ ∃ rest', y = x ++ src ++ rest' := by
  simp only [copyFromSlice, Option.bind_eq_bind, Option.bind_eq_some_iff] at h
  obtain ⟨dst, hdst, h⟩ := h
  have hlen := length_slice hdst
  split_ifs at h with hsrc
  obtain rfl := Option.some.inj h
  refine ⟨by omega, (x ++ rest).drop (pos + stride), ?_⟩
  rw [List.take_left' hx]

/-! ### One cache -/

namespace KvCache

variable {c c' : KvCache K} {rows : List (KvRow K)}

theorem new_holds [Zero K] (maxSeqLen numKvHeads headDim : ℕ) :
    (KvCache.new maxSeqLen numKvHeads headDim : KvCache K).Holds [] :=
  ⟨rfl, by simp, ⟨_, rfl⟩, ⟨_, rfl⟩⟩

theorem Holds.reset (_ : c.Holds rows) : ({ c with seqLen := 0 } : KvCache K).Holds [] :=
  ⟨rfl, by simp, ⟨_, rfl⟩, ⟨_, rfl⟩⟩

theorem Holds.length_k (h : c.Holds rows) :
    (rows.flatMap KvRow.k).length = c.seqLen * c.stride := by
  rw [h.seqLen, length_flatMap_rows fun row hrow => (h.stride row hrow).1]

theorem Holds.length_v (h : c.Holds rows) :
    (rows.flatMap KvRow.v).length = c.seqLen * c.stride := by
  rw [h.seqLen, length_flatMap_rows fun row hrow => (h.stride row hrow).2]

theorem Holds.kUpToNow (h : c.Holds rows) : c.kUpToNow = some (rows.flatMap KvRow.k) := by
  obtain ⟨rest, hk⟩ := h.k
  unfold KvCache.kUpToNow
  rw [Nat.mul_assoc, hk]
  exact slice_append_left (x := []) rfl (by rw [h.length_k]; simp [KvCache.stride])

theorem Holds.vUpToNow (h : c.Holds rows) : c.vUpToNow = some (rows.flatMap KvRow.v) := by
  obtain ⟨rest, hv⟩ := h.v
  unfold KvCache.vUpToNow
  rw [Nat.mul_assoc, hv]
  exact slice_append_left (x := []) rfl (by rw [h.length_v]; simp [KvCache.stride])

/-- **Appending a token.** -/
theorem append_holds {k v : List K} (h : c.Holds rows)
    (happend : KvCache.append k v c = (some (), c')) :
    c'.Holds (rows ++ [⟨k, v⟩]) ∧ c'.numKvHeads = c.numKvHeads ∧ c'.headDim = c.headDim := by
  rw [append_apply] at happend
  split_ifs at happend with hroom
  · obtain ⟨rest, hk⟩ := h.k
    obtain ⟨rest', hv⟩ := h.v
    dsimp only at happend
    split at happend
    · cases happend
    rename_i k' hk'
    split at happend
    · cases happend
    rename_i v' hv'
    cases happend
    rw [hk] at hk'
    rw [hv] at hv'
    obtain ⟨hklen, restk, rfl⟩ := copyFromSlice_next h.length_k hk'
    obtain ⟨hvlen, restv, rfl⟩ := copyFromSlice_next h.length_v hv'
    refine ⟨⟨?_, ?_, ⟨restk, ?_⟩, ⟨restv, ?_⟩⟩, rfl, rfl⟩
    · simp [h.seqLen]
    · intro row hrow
      rcases List.mem_append.1 hrow with hrow | hrow
      · exact h.stride row hrow
      · obtain rfl := List.mem_singleton.1 hrow
        exact ⟨hklen, hvlen⟩
    · simp
    · simp
  · cases happend

theorem Holds.row (h : c.Holds rows) {i : ℕ} {row : KvRow K} (hrow : rows[i]? = some row) :
    slice c.k (i * c.stride) ((i + 1) * c.stride) = some row.k ∧
      slice c.v (i * c.stride) ((i + 1) * c.stride) = some row.v := by
  obtain ⟨hi, hget⟩ := List.getElem?_eq_some_iff.1 hrow
  have hsplit : rows = rows.take i ++ row :: rows.drop (i + 1) := by
    rw [← hget, List.cons_getElem_drop_succ, List.take_append_drop]
  have hmem : ∀ r ∈ rows.take i, r.k.length = c.stride ∧ r.v.length = c.stride :=
    fun r hr => h.stride r (List.mem_of_mem_take hr)
  have hlen : (rows.take i).length = i := by rw [List.length_take]; omega
  obtain ⟨hrowk, hrowv⟩ := h.stride row (List.mem_of_getElem? hrow)
  obtain ⟨rest, hk⟩ := h.k
  obtain ⟨rest', hv⟩ := h.v
  rw [hk, hv, hsplit]
  simp only [List.flatMap_append, List.flatMap_cons, List.append_assoc]
  constructor
  · refine slice_append_left ?_ ?_ <;>
      rw [length_flatMap_rows fun r hr => (hmem r hr).1, hlen]
    rw [hrowk, Nat.add_mul, Nat.one_mul]
  · refine slice_append_left ?_ ?_ <;>
      rw [length_flatMap_rows fun r hr => (hmem r hr).2, hlen]
    rw [hrowv, Nat.add_mul, Nat.one_mul]

end KvCache

/-! ### The attention over tokens -/

variable [Field K] [LinearOrder K] [Elementary K]

/-- The norms of the heads and RoPE of `attention`: the queries of a token, and its key and value.
-/
def rotatedHeads (cfg : Gemma4Config K) (layerIdx : ℕ) (q k v qNorm : List K)
    (kNorm : Option (List K)) (pos : ℕ) : Option (List K × KvRow K) := do
  let eps := cfg.rmsNormEps
  let headDim := cfg.layerHeadDim layerIdx
  let numQHeads := cfg.numAttentionHeads
  let numKvHeads := cfg.numKeyValueHeads
  let isFull := cfg.isFullAttention layerIdx
  let q ← rowsInPlace numQHeads headDim (fun s => cpuRmsNormInplace s qNorm eps) q
  let (k, v) ← (if cfg.isKvShared layerIdx then some (k, v) else do
    let kNorm ← kNorm
    let k ← rowsInPlace numKvHeads headDim (fun s => cpuRmsNormInplace s kNorm eps) k
    let v ← rowsInPlace numKvHeads headDim (fun s => cpuRmsNormNoWeightInplace s headDim eps) v
    pure (k, v))
  let theta : K := if isFull then 1000000 else 10000
  let rotaryDim := if isFull then headDim / 4 else headDim
  let (q, k) ← cpuRope q k pos numQHeads numKvHeads headDim rotaryDim theta
  pure (q, ⟨k, v⟩)

/-- The tokens a layer attends to: all of them, or those in its window. -/
def lastTokens {α : Type} (cfg : Gemma4Config K) (layerIdx : ℕ) (rows : List α) : List α :=
  if cfg.isFullAttention layerIdx then rows else rows.drop (rows.length - cfg.slidingWindow)

/-- The attention of a layer over exactly these tokens. -/
def attendTokens (cfg : Gemma4Config K) (layerIdx : ℕ) (q : List K) (rows : List (KvRow K)) :
    Option (List K) :=
  cpuSdpa q (rows.flatMap KvRow.k) (rows.flatMap KvRow.v) cfg.numAttentionHeads
    cfg.numKeyValueHeads (cfg.layerHeadDim layerIdx) rows.length 1 none

theorem sdpaRow_drop {q k v : List K} {nkv d : ℕ} {start : ℕ} (hk : start * (nkv * d) ≤ k.length)
    (hv : start * (nkv * d) ≤ v.length) (positions : List ℕ) (ratio : ℕ) (scale : K) :
    sdpaRow q (k.drop (start * (nkv * d))) (v.drop (start * (nkv * d))) positions nkv d ratio scale
      = sdpaRow q k v (positions.map (start + ·)) nkv d ratio scale := by
  funext qh
  have hoff : ∀ p kvh : ℕ,
      ((start + p) * nkv + kvh) * d = start * (nkv * d) + (p * nkv + kvh) * d :=
    fun p kvh => by ring
  have hoff' : ∀ p kvh : ℕ,
      ((start + p) * nkv + kvh + 1) * d = start * (nkv * d) + (p * nkv + kvh + 1) * d :=
    fun p kvh => by ring
  unfold sdpaRow
  simp only [slice_drop _ _ hk, slice_drop _ _ hv, List.zip_map_right, List.foldlM_map,
    List.mapM_map, Prod.map_snd, Prod.map_fst, id_eq, hoff, hoff', Function.comp_def]

/-- **The window cuts off the first tokens.** -/
theorem cpuSdpa_lastTokens (cfg : Gemma4Config K) (layerIdx : ℕ) (q : List K)
    {rows : List (KvRow K)}
    (hrows : ∀ row ∈ rows, row.k.length = cfg.kvDim layerIdx ∧ row.v.length = cfg.kvDim layerIdx) :
    cpuSdpa q (rows.flatMap KvRow.k) (rows.flatMap KvRow.v) cfg.numAttentionHeads
        cfg.numKeyValueHeads (cfg.layerHeadDim layerIdx) rows.length 1
        (if cfg.isFullAttention layerIdx then none else some cfg.slidingWindow) =
      attendTokens cfg layerIdx q (lastTokens cfg layerIdx rows) := by
  unfold attendTokens lastTokens
  cases cfg.isFullAttention layerIdx with
  | true => rfl
  | false =>
    simp only [Bool.false_eq_true, if_false]
    set start := rows.length - cfg.slidingWindow with hstart
    have hle : start ≤ rows.length := Nat.sub_le _ _
    have hk : start * (cfg.numKeyValueHeads * cfg.layerHeadDim layerIdx) ≤
        (rows.flatMap KvRow.k).length := by
      rw [length_flatMap_rows fun row hrow => (hrows row hrow).1]
      exact Nat.mul_le_mul_right _ hle
    have hv : start * (cfg.numKeyValueHeads * cfg.layerHeadDim layerIdx) ≤
        (rows.flatMap KvRow.v).length := by
      rw [length_flatMap_rows fun row hrow => (hrows row hrow).2]
      exact Nat.mul_le_mul_right _ hle
    have hpos : List.range' start (rows.length - start) =
        (List.range' 0 (rows.length - start)).map (start + ·) := by
      rw [List.map_add_range', Nat.add_zero]
    rw [flatMap_drop_rows (fun row hrow => (hrows row hrow).1) start,
      flatMap_drop_rows (fun row hrow => (hrows row hrow).2) start, List.length_drop]
    unfold cpuSdpa
    simp only [← hstart, hpos, Nat.sub_zero, Gemma4Config.kvDim, sdpaRow_drop hk hv]

/-! ### The attention of a layer -/

/-- The layer whose cache a layer attends over. -/
def cacheOf (cfg : Gemma4Config K) (i : ℕ) : Option ℕ :=
  if cfg.isKvShared i then cfg.kvSharedTarget i else some i

/-- One more token at a layer, unless the layer is KV-shared. -/
def addToken (cfg : Gemma4Config K) (i : ℕ) (row : KvRow K) (H : ℕ → List (KvRow K)) :
    ℕ → List (KvRow K) :=
  if cfg.isKvShared i then H else Function.update H i (H i ++ [row])

/-- The caches of all layers hold the tokens `H`. -/
structure CachesHold (cfg : Gemma4Config K) (caches : Caches K) (H : ℕ → List (KvRow K)) :
    Prop where
  length : caches.length = cfg.numHiddenLayers
  holds : ∀ i c, caches[i]? = some c →
    c.Holds (H i) ∧ c.numKvHeads = cfg.numKeyValueHeads ∧ c.headDim = cfg.layerHeadDim i

variable {cfg : Gemma4Config K} {i : ℕ} {caches caches' : Caches K} {H : ℕ → List (KvRow K)}

omit [Field K] [LinearOrder K] [Elementary K] in
theorem CachesHold.stride_eq (h : CachesHold cfg caches H) {c : KvCache K}
    (hc : caches[i]? = some c) : c.stride = cfg.kvDim i := by
  obtain ⟨-, hheads, hdim⟩ := h.holds i c hc
  rw [KvCache.stride, hheads, hdim, Gemma4Config.kvDim]

omit [Field K] [LinearOrder K] [Elementary K] in
theorem CachesHold.stride (h : CachesHold cfg caches H) {c : KvCache K} (hc : caches[i]? = some c) :
    ∀ row ∈ H i, row.k.length = cfg.kvDim i ∧ row.v.length = cfg.kvDim i :=
  fun row hrow => h.stride_eq hc ▸ (h.holds i c hc).1.stride row hrow

/-- `attention`, from the queries, key and value of the token. -/
theorem attention_eq (q k v qNorm : List K) (kNorm : Option (List K)) (pos : ℕ) :
    attention cfg i q k v qNorm kNorm pos = (do
      let p ← lift (rotatedHeads cfg i q k v qNorm kNorm pos)
      let target ← (if cfg.isKvShared i then lift (cfg.kvSharedTarget i) else do
        withCache i (KvCache.append p.2.k p.2.v)
        pure i)
      let cache ← withCache target Panics.get
      lift do
        let ks ← cache.kUpToNow
        let vs ← cache.vUpToNow
        cpuSdpa p.1 ks vs cfg.numAttentionHeads cfg.numKeyValueHeads (cfg.layerHeadDim i)
          cache.seqLen 1 (if cfg.isFullAttention i then none else some cfg.slidingWindow)) := by
  unfold attention rotatedHeads
  cases cfg.isKvShared i <;>
    simp only [lift_bind, bind_assoc, Option.pure_def, lift_some, pure_bind, Bool.false_eq_true,
      if_true, if_false]

omit [Field K] [LinearOrder K] [Elementary K] in
theorem withCache_eq_some {α : Type} {x : Panics (KvCache K) α} {a : α} :
    withCache i x caches = (some a, caches') ↔
      ∃ c c', caches[i]? = some c ∧ x c = (some a, c') ∧ caches' = caches.set i c' := by
  unfold withCache
  rcases caches[i]? with _ | c
  · simp
  · rcases hx : x c with ⟨o, c'⟩
    simp only [hx, Prod.mk.injEq, Option.some.injEq]
    constructor
    · rintro ⟨rfl, rfl⟩
      exact ⟨c, c', rfl, hx, rfl⟩
    · rintro ⟨_, c'', rfl, hx', rfl⟩
      rw [hx] at hx'
      cases hx'
      exact ⟨rfl, rfl⟩

omit [Field K] [LinearOrder K] [Elementary K] in
theorem withCache_get_eq_some {c : KvCache K} :
    withCache i Panics.get caches = (some c, caches') ↔
      caches[i]? = some c ∧ caches = caches' := by
  rw [withCache_eq_some]
  constructor
  · rintro ⟨c₁, c₂, hc, hget, rfl⟩
    cases hget
    obtain ⟨hi, hval⟩ := List.getElem?_eq_some_iff.1 hc
    exact ⟨hc, by rw [← hval, List.set_getElem_self]⟩
  · rintro ⟨hc, rfl⟩
    obtain ⟨hi, hval⟩ := List.getElem?_eq_some_iff.1 hc
    exact ⟨c, c, hc, rfl, by rw [← hval, List.set_getElem_self]⟩

omit [Field K] [LinearOrder K] [Elementary K] in
theorem append_cachesHold {row : KvRow K} (h : CachesHold cfg caches H)
    (happend : withCache i (KvCache.append row.k row.v) caches = (some (), caches')) :
    CachesHold cfg caches' (Function.update H i (H i ++ [row])) ∧
      ∀ j, j ≠ i → caches'[j]? = caches[j]? := by
  obtain ⟨c, c', hc, hc', rfl⟩ := withCache_eq_some.1 happend
  obtain ⟨hholds, hheads, hdim⟩ := h.holds i c hc
  obtain ⟨hholds', hheads', hdim'⟩ := KvCache.append_holds hholds hc'
  have hother : ∀ j, j ≠ i → (caches.set i c')[j]? = caches[j]? :=
    fun j hj => List.getElem?_set_ne (Ne.symm hj)
  refine ⟨⟨by rw [List.length_set, h.length], fun j d hd => ?_⟩, hother⟩
  by_cases hj : j = i
  · subst hj
    rw [List.getElem?_set_self (List.getElem?_eq_some_iff.1 hc).1] at hd
    obtain rfl := Option.some.inj hd
    rw [Function.update_self]
    exact ⟨hholds', hheads'.trans hheads, hdim'.trans hdim⟩
  · rw [hother j hj] at hd
    rw [Function.update_of_ne hj]
    exact h.holds j d hd

/-- **A layer puts one token into its own cache, or none, and attends over the tokens of its
target.** -/
theorem attention_holds {q k v qNorm out : List K} {kNorm : Option (List K)} {pos : ℕ}
    (h : CachesHold cfg caches H)
    (hdim : ∀ t, cacheOf cfg i = some t → cfg.layerHeadDim t = cfg.layerHeadDim i)
    (hout : attention cfg i q k v qNorm kNorm pos caches = (some out, caches')) :
    ∃ q' row t, rotatedHeads cfg i q k v qNorm kNorm pos = some (q', row) ∧
      cacheOf cfg i = some t ∧ t < cfg.numHiddenLayers ∧
      CachesHold cfg caches' (addToken cfg i row H) ∧
      (∀ j, j ≠ i ∨ cfg.isKvShared i = true → caches'[j]? = caches[j]?) ∧
      attendTokens cfg i q' (lastTokens cfg i (addToken cfg i row H t)) = some out := by
  rw [attention_eq] at hout
  obtain ⟨⟨q', row⟩, _, hlift, hrest⟩ := bind_eq_some.1 hout
  obtain ⟨hheads, rfl⟩ := lift_eq_some.1 hlift
  obtain ⟨t, caches₁, htarget, hread⟩ := bind_eq_some.1 hrest
  obtain ⟨c, caches₂, hget, hattend⟩ := bind_eq_some.1 hread
  obtain ⟨hc, rfl⟩ := withCache_get_eq_some.1 hget
  obtain ⟨hsdpa, rfl⟩ := lift_eq_some.1 hattend
  -- a KV-shared layer adds no token, and reads the cache of another layer
  have hstep : cacheOf cfg i = some t ∧ CachesHold cfg caches₁ (addToken cfg i row H) ∧
      ∀ j, j ≠ i ∨ cfg.isKvShared i = true → caches₁[j]? = caches[j]? := by
    unfold cacheOf addToken
    cases hshared : cfg.isKvShared i with
    | true =>
      rw [hshared, if_pos rfl] at htarget
      obtain ⟨hshare, rfl⟩ := lift_eq_some.1 htarget
      exact ⟨hshare, h, fun _ _ => rfl⟩
    | false =>
      rw [hshared, if_neg Bool.false_ne_true] at htarget
      obtain ⟨_, _, happend, hpure⟩ := bind_eq_some.1 htarget
      obtain ⟨rfl, rfl⟩ := pure_eq_some.1 hpure
      obtain ⟨hhold, hother⟩ := append_cachesHold h happend
      exact ⟨rfl, hhold, fun j hj => hother j (hj.resolve_right Bool.false_ne_true)⟩
  obtain ⟨ht, hhold, hother⟩ := hstep
  obtain ⟨hholds, -, -⟩ := hhold.holds t c hc
  have hlt : t < cfg.numHiddenLayers := hhold.length ▸ (List.getElem?_eq_some_iff.1 hc).1
  refine ⟨q', row, t, hheads, ht, hlt, hhold, hother, ?_⟩
  -- the layer whose cache is read has heads of the same size
  have hrows := hhold.stride hc
  rw [Gemma4Config.kvDim, hdim t ht] at hrows
  rw [hholds.kUpToNow, hholds.vUpToNow, hholds.seqLen] at hsdpa
  rw [← cpuSdpa_lastTokens cfg i q' hrows]
  exact hsdpa

end Gemma4

end VllmVulkan
