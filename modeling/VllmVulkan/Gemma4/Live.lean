import VllmVulkan.Gemma4.Reference

/-!
# The live part of the KV caches

Only the first `seq_len` tokens of a cache are ever read: what lies behind them, left over from
before a reset, makes no difference.

* `KvCache.SameLive`, `SameLive` : caches of given dimensions that agree in their live part;
* `resetKvCache_sameLive` : **after a reset the caches are as good as new**;
* `append_sameLive`, `attention_sameLive` : appending a token, and the attention;
* `forward_sameLive` : **the forward pass depends on the live part only**.
-/

namespace VllmVulkan

namespace Gemma4

open Panics

variable {K : Type}

/-- What never changes about a cache. -/
structure KvDims where
  maxSeqLen : ℕ
  numKvHeads : ℕ
  headDim : ℕ
  lengthK : ℕ
  lengthV : ℕ

/-- The dimensions of a cache. -/
def KvCache.dims (c : KvCache K) : KvDims :=
  ⟨c.maxSeqLen, c.numKvHeads, c.headDim, c.k.length, c.v.length⟩

/-- The caches have the dimensions `d` and agree in their live part. -/
structure KvCache.SameLive (d : KvDims) (c c' : KvCache K) : Prop where
  dims : c.dims = d
  dims' : c'.dims = d
  seqLen : c.seqLen = c'.seqLen
  liveK : c.k.take (c.seqLen * (d.numKvHeads * d.headDim)) =
    c'.k.take (c.seqLen * (d.numKvHeads * d.headDim))
  liveV : c.v.take (c.seqLen * (d.numKvHeads * d.headDim)) =
    c'.v.take (c.seqLen * (d.numKvHeads * d.headDim))

/-- The caches of all layers have the dimensions `ds` and agree in their live parts. -/
inductive SameLive : List KvDims → Caches K → Caches K → Prop where
  | nil : SameLive [] [] []
  | cons {d : KvDims} {c c' : KvCache K} {ds : List KvDims} {caches caches' : Caches K} :
      c.SameLive d c' → SameLive ds caches caches' →
        SameLive (d :: ds) (c :: caches) (c' :: caches')

theorem SameLive.refl (caches : Caches K) :
    SameLive (caches.map KvCache.dims) caches caches := by
  induction caches with
  | nil => exact .nil
  | cons c caches ih => exact .cons ⟨rfl, rfl, rfl, rfl, rfl⟩ ih

theorem SameLive.left {ds : List KvDims} {caches caches' : Caches K}
    (h : SameLive ds caches caches') : SameLive ds caches caches := by
  induction h with
  | nil => exact .nil
  | cons hc _ ih => exact .cons ⟨hc.dims, hc.dims, rfl, rfl, rfl⟩ ih

theorem SameLive.right {ds : List KvDims} {caches caches' : Caches K}
    (h : SameLive ds caches caches') : SameLive ds caches' caches' := by
  induction h with
  | nil => exact .nil
  | cons hc _ ih => exact .cons ⟨hc.dims', hc.dims', rfl, rfl, rfl⟩ ih

theorem SameLive.set {ds : List KvDims} {caches caches' : Caches K} {idx : ℕ} {d : KvDims}
    {c c' : KvCache K} (h : SameLive ds caches caches') (hd : ds[idx]? = some d)
    (hc : c.SameLive d c') : SameLive ds (caches.set idx c) (caches'.set idx c') := by
  induction h generalizing idx with
  | nil => exact .nil
  | cons hhead htail ih =>
    cases idx with
    | zero =>
      obtain rfl := Option.some.inj hd
      exact .cons hc htail
    | succ idx => exact .cons hhead (ih hd)

theorem SameLive.getElem? {ds : List KvDims} {caches caches' : Caches K}
    (h : SameLive ds caches caches') (idx : ℕ) :
    (caches[idx]? = none ∧ caches'[idx]? = none) ∨
    ∃ d c c', ds[idx]? = some d ∧ caches[idx]? = some c ∧ caches'[idx]? = some c' ∧
      c.SameLive d c' := by
  induction h generalizing idx with
  | nil => exact .inl ⟨rfl, rfl⟩
  | cons hhead htail ih =>
    cases idx with
    | zero => exact .inr ⟨_, _, _, rfl, rfl, rfl, hhead⟩
    | succ idx => exact ih idx

/-- **After a reset the caches are as good as new.** -/
theorem resetKvCache_sameLive {ds : List KvDims} {a a' b b' : Caches K} (ha : SameLive ds a a')
    (hb : SameLive ds b b') : SameLive ds (resetKvCache a) (resetKvCache b) := by
  induction ha generalizing b b' with
  | nil =>
    cases hb
    exact .nil
  | cons hc _ ih =>
    cases hb with
    | cons hc' htail =>
      exact .cons ⟨hc.dims, hc'.dims, rfl, by simp, by simp⟩ (ih htail)

/-! ### One cache -/

theorem copyFromSlice_live {x x' : List K} {pos stride : ℕ} (src : List K)
    (hlen : x.length = x'.length) (h : x.take pos = x'.take pos) :
    (copyFromSlice x pos (pos + stride) src = none ∧
      copyFromSlice x' pos (pos + stride) src = none) ∨
    ∃ y y', copyFromSlice x pos (pos + stride) src = some y ∧
      copyFromSlice x' pos (pos + stride) src = some y' ∧ y.length = x.length ∧
      y'.length = x'.length ∧ y.take pos = x.take pos ∧ y'.take pos = x'.take pos ∧
      y.take (pos + stride) = y'.take (pos + stride) := by
  unfold copyFromSlice slice
  by_cases hfit : pos + stride ≤ x.length
  · have hfit' : pos + stride ≤ x'.length := hlen ▸ hfit
    rw [if_pos ⟨Nat.le_add_right _ _, hfit⟩, if_pos ⟨Nat.le_add_right _ _, hfit'⟩]
    simp only [Option.bind_eq_bind, Option.bind_some, List.length_drop, List.length_take,
      Nat.min_eq_left hfit, Nat.min_eq_left hfit', Nat.add_sub_cancel_left]
    by_cases hsrc : stride = src.length
    · rw [if_pos hsrc, if_pos hsrc]
      have htake : ∀ z : List K, pos + stride ≤ z.length →
          (z.take pos ++ src ++ z.drop (pos + stride)).take pos = z.take pos := by
        intro z hz
        rw [List.append_assoc, List.take_append_of_le_length (by simp; omega), List.take_take,
          Nat.min_self]
      have htake' : ∀ z : List K, pos + stride ≤ z.length →
          (z.take pos ++ src ++ z.drop (pos + stride)).take (pos + stride) = z.take pos ++ src := by
        intro z hz
        exact List.take_left' (by simp; omega)
      refine .inr ⟨_, _, rfl, rfl, by simp; omega, by simp; omega, htake x hfit, htake x' hfit', ?_⟩
      rw [htake' x hfit, htake' x' hfit', h]
    · rw [if_neg hsrc, if_neg hsrc]
      exact .inl ⟨rfl, rfl⟩
  · rw [if_neg fun hs => hfit hs.2, if_neg fun hs => hfit (hlen ▸ hs.2)]
    exact .inl ⟨rfl, rfl⟩

theorem append_apply (kToken vToken : List K) (c : KvCache K) :
    KvCache.append kToken vToken c =
      if c.seqLen < c.maxSeqLen then
        let pos := c.seqLen * (c.numKvHeads * c.headDim)
        let stride := c.numKvHeads * c.headDim
        match copyFromSlice c.k pos (pos + stride) kToken with
        | none => (none, c)
        | some k => match copyFromSlice c.v pos (pos + stride) vToken with
          | none => (none, { c with k := k })
          | some v => (some (), { c with k := k, v := v, seqLen := c.seqLen + 1 })
      else (none, c) := by
  unfold KvCache.append
  rw [bind_some (show Panics.get c = (some c, c) from rfl)]
  by_cases hroom : c.seqLen < c.maxSeqLen
  · rw [if_pos hroom, if_pos hroom]
    rcases hk : copyFromSlice c.k (c.seqLen * (c.numKvHeads * c.headDim))
      (c.seqLen * (c.numKvHeads * c.headDim) + c.numKvHeads * c.headDim) kToken with _ | k
    · simp only [hk, lift_none]
      rfl
    · rcases hv : copyFromSlice c.v (c.seqLen * (c.numKvHeads * c.headDim))
        (c.seqLen * (c.numKvHeads * c.headDim) + c.numKvHeads * c.headDim) vToken with _ | v
      · simp only [hk, hv, lift_some, lift_none]
        rfl
      · simp only [hk, hv, lift_some]
        rfl
  · rw [if_neg hroom, if_neg hroom]
    rfl

theorem append_sameLive (d : KvDims) (kToken vToken : List K) :
    Refines (KvCache.SameLive d) (fun _ => True) (KvCache.append kToken vToken)
      (KvCache.append kToken vToken) := by
  rintro ⟨k, v, n, maxLen, nkv, hd⟩ ⟨k', v', _, maxLen', nkv', hd'⟩ h
  obtain ⟨rfl, hdims, rfl, hk, hv⟩ := h
  simp only [KvCache.dims, KvDims.mk.injEq] at hdims hk hv
  obtain ⟨rfl, rfl, rfl, hlenK, hlenV⟩ := hdims
  rw [append_apply, append_apply]
  by_cases hroom : n < maxLen'
  · simp only [if_pos hroom]
    obtain ⟨hn, hn'⟩ | ⟨y, y', hy, hy', hlen, hlen', hpre, hpre', hlive⟩ :=
      copyFromSlice_live kToken hlenK.symm hk
    · rw [hn, hn']
      exact ⟨rfl, ⟨rfl, by simp [KvCache.dims, hlenK, hlenV], rfl, hk, hv⟩, fun _ _ => trivial⟩
    obtain ⟨hn, hn'⟩ | ⟨z, z', hz, hz', hlenz, hlenz', -, -, hlivez⟩ :=
      copyFromSlice_live vToken hlenV.symm hv
    · -- the keys are written, the values are not
      rw [hy, hy']
      dsimp only
      rw [hn, hn']
      exact ⟨rfl, ⟨by simp [KvCache.dims, hlen], by simp [KvCache.dims, hlen', hlenK, hlenV], rfl,
        hpre.trans (hk.trans hpre'.symm), hv⟩, fun _ _ => trivial⟩
    · rw [hy, hy']
      dsimp only
      rw [hz, hz']
      refine ⟨rfl, ⟨by simp [KvCache.dims, hlen, hlenz],
        by simp [KvCache.dims, hlen', hlenz', hlenK, hlenV], rfl, ?_, ?_⟩, fun _ _ => trivial⟩
      · simpa only [KvCache.dims, Nat.add_mul, Nat.one_mul] using hlive
      · simpa only [KvCache.dims, Nat.add_mul, Nat.one_mul] using hlivez
  · rw [if_neg hroom, if_neg hroom]
    exact ⟨rfl, ⟨rfl, by simp [KvCache.dims, hlenK, hlenV], rfl, hk, hv⟩, fun _ _ => trivial⟩

theorem KvCache.SameLive.upToNow {d : KvDims} {c c' : KvCache K} (h : c.SameLive d c') :
    c.kUpToNow = c'.kUpToNow ∧ c.vUpToNow = c'.vUpToNow := by
  obtain ⟨rfl, hdims, hseq, hk, hv⟩ := h
  simp only [KvCache.dims, KvDims.mk.injEq] at hdims hk hv
  obtain ⟨-, hnkv, hd, hlenK, hlenV⟩ := hdims
  unfold KvCache.kUpToNow KvCache.vUpToNow slice
  rw [← hseq, hnkv, hd, hlenK, hlenV, Nat.mul_assoc, hk, hv]
  exact ⟨rfl, rfl⟩

/-! ### The caches of all layers -/

variable {ds : List KvDims}

theorem withCache_sameLive {α : Type} {idx : ℕ} {P : α → Prop} {x y : Panics (KvCache K) α}
    (h : ∀ d, Refines (KvCache.SameLive d) P x y) :
    Refines (SameLive ds) P (withCache idx x) (withCache idx y) := by
  intro caches caches' hlive
  unfold withCache
  obtain ⟨hn, hn'⟩ | ⟨d, c, c', hd, hc, hc', hsame⟩ := hlive.getElem? idx
  · rw [hn, hn']
    exact ⟨rfl, hlive, fun _ h => nomatch h⟩
  · rw [hc, hc']
    obtain ⟨hout, hstate, hP⟩ := h d c c' hsame
    exact ⟨hout, hlive.set hd hstate, hP⟩

theorem withCache_get_sameLive {α : Type} {idx : ℕ} {P : α → Prop} {f : KvCache K → Option α}
    (hf : ∀ d c c', c.SameLive d c' → f c = f c') (hP : ∀ c a, f c = some a → P a) :
    Refines (SameLive ds) P (withCache idx Panics.get >>= fun c => lift (f c))
      (withCache idx Panics.get >>= fun c => lift (f c)) := by
  have hread : (withCache idx Panics.get >>= fun c => lift (f c)) =
      withCache idx (Panics.get >>= fun c => lift (f c)) := by
    funext caches
    rcases hidx : caches[idx]? with _ | c
    · have hget : withCache idx Panics.get caches = (none, caches) := by
        simp only [withCache, hidx]
      rw [bind_none hget]
      simp only [withCache, hidx]
    · have hget : withCache idx Panics.get caches = (some c, caches.set idx c) := by
        simp only [withCache, hidx, Panics.get]
      rw [bind_some hget]
      simp only [withCache, hidx]
      rfl
  rw [hread]
  exact withCache_sameLive fun d c c' h => ⟨hf d c c' h, h, hP c⟩

variable [Field K] [LinearOrder K] [Elementary K]

theorem cpuSdpa_sameLive (target : ℕ) (q : List K) (nq nkv d : ℕ) (window : Option ℕ) :
    Refines (SameLive ds) (fun out => out.length = nq * d)
      (withCache target Panics.get >>= fun cache => lift do
        let ks ← cache.kUpToNow
        let vs ← cache.vUpToNow
        cpuSdpa q ks vs nq nkv d cache.seqLen 1 window)
      (withCache target Panics.get >>= fun cache => lift do
        let ks ← cache.kUpToNow
        let vs ← cache.vUpToNow
        cpuSdpa q ks vs nq nkv d cache.seqLen 1 window) := by
  refine withCache_get_sameLive (fun _ c c' h => ?_) fun c out hout => ?_
  · rw [h.upToNow.1, h.upToNow.2, h.seqLen]
  · simp only [Option.bind_eq_bind, Option.bind_eq_some_iff] at hout
    obtain ⟨ks, -, vs, -, hsdpa⟩ := hout
    exact length_cpuSdpa hsdpa

theorem attention_sameLive (cfg : Gemma4Config K) (i : ℕ) (q k v qNorm : List K)
    (kNorm : Option (List K)) (pos : ℕ) :
    Refines (SameLive ds) (fun out => out.length = cfg.qDim i)
      (attention cfg i q k v qNorm kNorm pos) (attention cfg i q k v qNorm kNorm pos) := by
  unfold attention
  refine .bind (.lift fun _ _ => trivial) ?_
  intro q _
  refine .bind (.lift fun _ _ => trivial) ?_
  intro kv _
  refine .bind (.lift fun _ _ => trivial) ?_
  intro qk _
  dsimp only
  split
  · exact .bind (.lift fun _ _ => trivial) fun target _ => cpuSdpa_sameLive target _ _ _ _ _
  · refine .bind (withCache_sameLive fun d => append_sameLive d _ _) ?_
    intro _ _
    exact .bind (P := fun _ => True) (.pure trivial) fun target _ =>
      cpuSdpa_sameLive target _ _ _ _ _

theorem forwardLayer_sameLive (m : Gemma4Model K) (i : ℕ) (hidden : List K) (pos : ℕ)
    (layerPle : List K) : Refines (SameLive ds) (fun _ => True)
      (forwardLayer m i hidden pos layerPle) (forwardLayer m i hidden pos layerPle) := by
  unfold forwardLayer
  iterate 7 refine .bind (.lift fun _ _ => trivial) fun _ _ => ?_
  refine .bind (attention_sameLive _ _ _ _ _ _ _ _) ?_
  intro _ _
  iterate 16 refine .bind (.lift fun _ _ => trivial) fun _ _ => ?_
  exact .pure trivial

/-- **The forward pass depends on the live part only.** -/
theorem forward_sameLive (m : Gemma4Model K) (tokenId pos : ℕ) :
    Refines (SameLive ds) (fun _ => True) (forward m tokenId pos) (forward m tokenId pos) := by
  unfold forward
  iterate 4 refine .bind (.lift fun _ _ => trivial) fun _ _ => ?_
  refine .bind (P := fun _ => True) (.foldlM (fun hidden i _ _ => ?_) trivial) fun _ _ => ?_
  · exact .bind (.lift fun _ _ => trivial) fun _ _ => forwardLayer_sameLive m i hidden pos _
  · exact .lift fun _ _ => trivial

end Gemma4

end VllmVulkan
