import VllmVulkan.Lib.Interleave
import VllmVulkan.Kv.Decode

/-!
# The cooperative decode shader

`paged_attn_decode_f32_coop.comp` computes the logit of a token once per workgroup: every
invocation of the workgroup sums a strided part of the product into shared memory, a tree reduction
adds the parts up, and every invocation then updates its own element.  The invocations of a
workgroup run in any order between barriers.

* `Coop.strides` : the strides of the tree reduction;
* `Coop.tokenPhases` : what an invocation does for one token, from barrier to barrier;
* `Coop.WorkgroupStores`, `Coop.DispatchStores` : the stores of a workgroup and of a dispatch, for
  any interleaving;
* `Coop.halving_sum` : rounds that halve the active cells of a row add the row up;
* `Coop.reduce_sum` : after the reduction, the first cell holds the sum of all parts;
* `Coop.token_step` : one token advances every writing invocation by one step of the plain scan;
* `Coop.coop_eq_plain` : **the cooperative shader stores what the plain one stores**, for every
  power-of-two workgroup size and every interleaving, and so the choice of `selectDecodeShader`
  does not matter.
-/

namespace VllmVulkan

namespace Coop

open Store Softmax Finset Decode

variable {F : Type} [Field F] [LinearOrder F]

/-! ### The shader -/

/-- The variables of an invocation. -/
structure Local (F : Type) where
  /-- `partial_dot`. -/
  partialDot : F
  /-- The register an operand of the reduction, or its result, is loaded into. -/
  lhs : F
  /-- The register the other operand is loaded into. -/
  rhs : F
  /-- `running_max`, `denom` and `acc`. -/
  online : Online F

/-- The strides of the loop `for (stride = …; stride > 0; stride >>= 1)`. -/
def strides (stride : ℕ) : List ℕ :=
  if stride > 0 then stride :: strides (stride / 2) else []

section

variable (E : ExpFn F) (p : Params F) (B : ℕ) (q : ℕ → F) (blocks : ℕ → ℕ) (cache : ℕ → F)
  (qHead outputTile : ℕ)

/-- `head_element`. -/
def headElement (tid : ℕ) : ℕ := outputTile * B + tid

/-- The strided sum of one invocation. -/
def partialDot (tokenIdx tid : ℕ) : F :=
  let gqaRatio := p.numQHeads / p.numKvHeads
  let kvHead := qHead / gqaRatio
  let qBase := qHead * p.headSize
  let kvBase := kvBaseForToken p blocks tokenIdx kvHead
  (List.range' tid (ceilDiv (p.headSize - tid) B) B).foldl
    (fun dot d => dot + q (qBase + d) * cache (kvBase + d)) 0

/-- The part of the token loop after the reduction, with `dot_sums[0]` in `lhs`. -/
def updateOnline (tokenIdx tid : ℕ) (ℓ : Local F) : Local F :=
  let kvHead := qHead / (p.numQHeads / p.numKvHeads)
  let kvBase := kvBaseForToken p blocks tokenIdx kvHead
  let st := ℓ.online
  let logit := ℓ.lhs * p.scale
  let newMax := max st.runningMax logit
  let oldScale := E.exp (st.runningMax - newMax)
  let weight := E.exp (logit - newMax)
  let denom := st.denom * oldScale
  let acc := st.acc * oldScale
  let acc' :=
    if headElement B outputTile tid < p.headSize then
      acc + weight * cache (kvBase + p.planeElementsPerBlock + headElement B outputTile tid)
    else acc
  { ℓ with online := ⟨newMax, denom + weight, acc'⟩ }

/-- `dot_sums[tid] = partial_dot`. -/
def partialPhase (tokenIdx : ℕ) (tid : Fin B) : List (Action (Local F) ℕ F) :=
  [.compute fun ℓ => { ℓ with partialDot := partialDot p B q blocks cache qHead tokenIdx tid },
    .store tid Local.partialDot]

/-- `if (tid < stride) dot_sums[tid] += dot_sums[tid + stride]`. -/
def reducePhase (stride : ℕ) (tid : Fin B) : List (Action (Local F) ℕ F) :=
  if tid.val < stride then
    [.load tid fun ℓ x => { ℓ with lhs := x },
      .load (tid + stride) fun ℓ x => { ℓ with rhs := x },
      .store tid fun ℓ => ℓ.lhs + ℓ.rhs]
  else []

/-- The read of `dot_sums[0]` and the update of the running state. -/
def updatePhase (tokenIdx : ℕ) (tid : Fin B) : List (Action (Local F) ℕ F) :=
  [.load 0 fun ℓ x => { ℓ with lhs := x },
    .compute (updateOnline E p B blocks cache qHead outputTile tokenIdx tid)]

/-- The body of the token loop, cut at its barriers. -/
def tokenPhases (tokenIdx : ℕ) : List (Fin B → List (Action (Local F) ℕ F)) :=
  partialPhase p B q blocks cache qHead tokenIdx ::
    (strides (B / 2)).map (reducePhase B) ++
      [updatePhase E p B blocks cache qHead outputTile tokenIdx]

/-- The store after the token loop. -/
def writeOutput (tid : ℕ) (ℓ : Local F) : List (ℕ × F) :=
  if headElement B outputTile tid < p.headSize then
    [(qHead * p.headSize + headElement B outputTile tid, ℓ.online.result)]
  else []

/-- `ss` are the stores of the workgroup `(qHead, outputTile)` in some execution, whatever the
shared memory holds at the start. -/
def WorkgroupStores (ss : List (ℕ × F)) : Prop :=
  if qHead ≥ p.numQHeads then ss = [] else
  ∃ m ℓ' m', RunPhases
      ((List.range p.seqLen).flatMap (tokenPhases E p B q blocks cache qHead outputTile))
      (fun _ => ⟨0, 0, 0, ⟨negFltMax, 0, 0⟩⟩) m ℓ' m' ∧
    ss = (List.finRange B).flatMap fun tid : Fin B => writeOutput p B qHead outputTile tid (ℓ' tid)

/-- `ss` are the stores of a dispatch in some execution of its workgroups. -/
def DispatchStores (wg : ℕ × ℕ × ℕ) (ss : List (ℕ × F)) : Prop :=
  ∃ f : ℕ → ℕ → ℕ → List (ℕ × F),
    (∀ x < wg.1, ∀ y < wg.2.1, ∀ z < wg.2.2, WorkgroupStores E p B q blocks cache x y (f x y z)) ∧
    ss = (List.range wg.2.2).flatMap fun z => (List.range wg.2.1).flatMap fun y =>
      (List.range wg.1).flatMap fun x => f x y z

end

/-! ### The reduction -/

variable {B : ℕ}

theorem strides_zero : strides 0 = [] := by rw [strides, if_neg (lt_irrefl 0)]

theorem strides_two_pow (k : ℕ) : strides (2 ^ k) = 2 ^ k :: strides (2 ^ k / 2) := by
  rw [strides, if_pos (Nat.two_pow_pos k)]

/-- **Halving rounds add up.**  When every round adds the upper half of the active cells of each row
to the lower half, the first cell of a row ends with the sum of the row, and what `obs` sees of the
invocations stays. -/
theorem halving_sum {L A M O ι : Type} [DecidableEq A] [AddCommMonoid M]
    {phase : ℕ → Fin B → List (Action L A M)} (obs : L → O) (rows : List ι) (cell : ι → ℕ → A)
    (hround : ∀ {stride : ℕ}, 2 * stride ≤ B → ∀ {ℓ ℓ' : Fin B → L} {m m' : A → M},
      Interleave (phase stride) ℓ m ℓ' m' → (∀ tid, obs (ℓ' tid) = obs (ℓ tid)) ∧
        ∀ c ∈ rows, ∀ i < stride, m' (cell c i) = m (cell c i) + m (cell c (i + stride)))
    (k : ℕ) (hk : 2 ^ k ≤ B) {ℓ ℓ' : Fin B → L} {m m' : A → M}
    (h : RunPhases ((strides (2 ^ k / 2)).map phase) ℓ m ℓ' m') :
    (∀ tid, obs (ℓ' tid) = obs (ℓ tid)) ∧
      ∀ c ∈ rows, m' (cell c 0) = ∑ i ∈ range (2 ^ k), m (cell c i) := by
  induction k generalizing ℓ m with
  | zero =>
    have h0 : strides (2 ^ 0 / 2) = [] := strides_zero
    rw [h0] at h
    obtain ⟨rfl, rfl⟩ := h
    simp
  | succ k ih =>
    have hhalf : 2 ^ (k + 1) / 2 = 2 ^ k := by rw [pow_succ, Nat.mul_div_cancel _ (by decide)]
    rw [pow_succ] at hk
    rw [hhalf, strides_two_pow] at h
    obtain ⟨ℓ₁, m₁, hfirst, hrest⟩ := h
    obtain ⟨ho, hm⟩ := hround (by omega) hfirst
    obtain ⟨ho', hm'⟩ := ih (by omega) hrest
    refine ⟨fun tid => by rw [ho', ho], fun c hc => ?_⟩
    have hsum : ∑ i ∈ range (2 ^ k), m₁ (cell c i) =
        ∑ i ∈ range (2 ^ k), (m (cell c i) + m (cell c (i + 2 ^ k))) :=
      sum_congr rfl fun i hi => hm c hc i (mem_range.1 hi)
    rw [hm' c hc, hsum, sum_add_distrib, pow_succ, Nat.mul_two, sum_range_add]
    simp only [Nat.add_comm]

omit [LinearOrder F] in
/-- One round of the reduction adds the upper half of the active cells to the lower half. -/
theorem reduce_round {stride : ℕ} (hs : 2 * stride ≤ B) {ℓ ℓ' : Fin B → Local F} {m m' : ℕ → F}
    (h : Interleave (reducePhase B stride) ℓ m ℓ' m') :
    (∀ tid, (ℓ' tid).online = (ℓ tid).online) ∧ ∀ i < stride, m' i = m i + m (i + stride) := by
  have hr : RaceFree (reducePhase (F := F) B stride)
      (fun tid => if tid.val < stride then {tid.val, tid.val + stride} else ∅)
      (fun tid => if tid.val < stride then {tid.val} else ∅) := by
    constructor
    · intro tid a ha
      unfold reducePhase at ha
      split_ifs at ha with htid
      · simp only [List.mem_cons, List.not_mem_nil, or_false] at ha
        obtain rfl | rfl | rfl := ha <;> simp [Action.Within, htid]
      · cases ha
    · intro t t' hne x hx
      have hne' : t.val ≠ t'.val := fun e => hne (Fin.ext e)
      split_ifs at hx with ht
      · simp only [Set.mem_singleton_iff] at hx
        subst hx
        split_ifs with ht'
        · simp only [Set.union_singleton, Set.mem_insert_iff, Set.mem_singleton_iff]
          omega
        · simp
      · cases hx
  obtain ⟨h₁, h₂, -⟩ := h.eq_alone hr
  constructor
  · intro tid
    rw [h₁, reducePhase]
    split_ifs <;> rfl
  · intro i hi
    have hm := h₂ ⟨i, by omega⟩ i (by simp [hi])
    rw [hm, reducePhase, if_pos hi]
    simp [Action.alone, Action.exec]

omit [LinearOrder F] in
/-- **After the reduction the first cell holds the sum of all cells.** -/
theorem reduce_sum (k : ℕ) (hk : 2 ^ k ≤ B) {ℓ ℓ' : Fin B → Local F} {m m' : ℕ → F}
    (h : RunPhases ((strides (2 ^ k / 2)).map (reducePhase B)) ℓ m ℓ' m') :
    (∀ tid, (ℓ' tid).online = (ℓ tid).online) ∧ m' 0 = ∑ i ∈ range (2 ^ k), m i := by
  -- one row, the whole memory
  obtain ⟨ho, hm⟩ := halving_sum Local.online [()] (fun _ i => i) (fun hs _ _ _ _ hround =>
    (reduce_round hs hround).imp_right fun hm _ _ => hm) k hk h
  exact ⟨ho, hm () List.mem_cons_self⟩

/-! ### One token -/

section

variable {E : ExpFn F} {p : Params F} {q : ℕ → F} {blocks : ℕ → ℕ} {cache : ℕ → F}
  {qHead outputTile : ℕ}

omit [LinearOrder F] in
theorem partial_step {t : ℕ} {ℓ ℓ' : Fin B → Local F} {m m' : ℕ → F}
    (h : Interleave (partialPhase p B q blocks cache qHead t) ℓ m ℓ' m') :
    (∀ tid, (ℓ' tid).online = (ℓ tid).online) ∧
      ∀ i < B, m' i = partialDot p B q blocks cache qHead t i := by
  have hr : RaceFree (partialPhase p B q blocks cache qHead t) (fun _ => ∅)
      (fun tid => {tid.val}) := by
    constructor
    · intro tid a ha
      simp only [partialPhase, List.mem_cons, List.not_mem_nil, or_false] at ha
      obtain rfl | rfl := ha <;> simp [Action.Within]
    · intro t t' hne x hx
      simp only [Set.mem_singleton_iff] at hx
      subst hx
      simpa using fun e => hne (Fin.ext e)
  obtain ⟨h₁, h₂, -⟩ := h.eq_alone hr
  refine ⟨fun tid => by rw [h₁]; rfl, fun i hi => ?_⟩
  rw [h₂ ⟨i, hi⟩ i (by simp)]
  simp [partialPhase, Action.alone, Action.exec]

omit [LinearOrder F] in
theorem sum_partialDot (hB : 0 < B) (t : ℕ) :
    (∑ i ∈ range B, partialDot p B q blocks cache qHead t i) * p.scale =
      scanLogit p q blocks cache qHead t := by
  simp only [partialDot, foldl_stride_add, zero_add, scanLogit]
  rw [sum_stride (fun d => q (qHead * p.headSize + d) *
    cache (kvBaseForToken p blocks t (qHead / (p.numQHeads / p.numKvHeads)) + d)) hB]

/-- **One token advances every writing invocation by one step of the plain scan.** -/
theorem token_step {k : ℕ} (hB : B = 2 ^ k) {t : ℕ} {ℓ ℓ' : Fin B → Local F} {m m' : ℕ → F}
    (h : RunPhases (tokenPhases E p B q blocks cache qHead outputTile t) ℓ m ℓ' m')
    (tid : Fin B) (htid : headElement B outputTile tid < p.headSize) :
    (ℓ' tid).online = Online.step E (ℓ tid).online (scanLogit p q blocks cache qHead t)
      (scanValue p blocks cache qHead (headElement B outputTile tid) t) := by
  have hpos : 0 < B := hB ▸ Nat.two_pow_pos k
  obtain ⟨ℓ₁, m₁, hpart, hrest⟩ := h
  obtain ⟨ℓ₂, m₂, hred, ℓ₃, m₃, hupd, rfl, rfl⟩ := runPhases_append.1 hrest
  obtain ⟨ho₁, hm₁⟩ := partial_step hpart
  have hred' : RunPhases ((strides (2 ^ k / 2)).map (reducePhase B)) ℓ₁ m₁ ℓ₂ m₂ := hB ▸ hred
  obtain ⟨ho₂, hm₂⟩ := reduce_sum k hB.ge hred'
  have hr : RaceFree (updatePhase E p B blocks cache qHead outputTile t) (fun _ => {0})
      (fun _ => ∅) := by
    constructor
    · intro tid a ha
      simp only [updatePhase, List.mem_cons, List.not_mem_nil, or_false] at ha
      obtain rfl | rfl := ha <;> simp [Action.Within]
    · intro t t' _ x hx
      cases hx
  have hsum : m₂ 0 * p.scale = scanLogit p q blocks cache qHead t := by
    rw [hm₂, ← hB, ← sum_partialDot hpos]
    exact congrArg (· * p.scale) (sum_congr rfl fun i hi => hm₁ i (mem_range.1 hi))
  rw [(hupd.eq_alone hr).1 tid]
  simp only [updatePhase, Action.alone_cons, Action.alone_nil, Action.exec, updateOnline,
    if_pos htid, hsum, ho₂, ho₁]
  rfl

/-- **A workgroup scans the sequence like the plain shader**, whatever the interleaving. -/
theorem workgroup_scan {k : ℕ} (hB : B = 2 ^ k) (n : ℕ) {ℓ ℓ' : Fin B → Local F} {m m' : ℕ → F}
    (hℓ : ∀ tid, (ℓ tid).online = ⟨negFltMax, 0, 0⟩)
    (h : RunPhases ((List.range n).flatMap (tokenPhases E p B q blocks cache qHead outputTile))
      ℓ m ℓ' m') (tid : Fin B) (htid : headElement B outputTile tid < p.headSize) :
    (ℓ' tid).online = Online.run E negFltMax (scanLogit p q blocks cache qHead)
      (scanValue p blocks cache qHead (headElement B outputTile tid)) n := by
  induction n generalizing ℓ' m' with
  | zero =>
    obtain ⟨rfl, rfl⟩ := h
    exact hℓ tid
  | succ n ih =>
    rw [List.range_succ, List.flatMap_append, runPhases_append] at h
    obtain ⟨ℓ₁, m₁, h₁, h₂⟩ := h
    rw [List.flatMap_singleton] at h₂
    rw [token_step hB h₂ tid htid, ih h₁, Online.run_succ]

theorem workgroupStores_eq {k : ℕ} (hB : B = 2 ^ k) (hq : qHead < p.numQHeads)
    {ss : List (ℕ × F)} (h : WorkgroupStores E p B q blocks cache qHead outputTile ss) :
    ss = (List.range B).flatMap fun tid =>
      if outputTile * B + tid < p.headSize then
        [(qHead * p.headSize + (outputTile * B + tid),
          scan E p q blocks cache qHead (outputTile * B + tid))]
      else [] := by
  rw [WorkgroupStores, if_neg (not_le.2 hq)] at h
  obtain ⟨m, ℓ', m', hrun, rfl⟩ := h
  rw [← List.map_coe_finRange_eq_range, List.flatMap_map]
  refine List.flatMap_congr ?_
  intro tid _
  by_cases htid : headElement B outputTile tid < p.headSize
  · have hscan := workgroup_scan hB p.seqLen (fun _ => rfl) hrun tid htid
    rw [writeOutput, if_pos htid, hscan]
    exact (if_pos htid).symm
  · rw [writeOutput, if_neg htid]
    exact (if_neg htid).symm

/-- **The cooperative shader stores what the plain one stores**, up to order. -/
theorem dispatchStores_perm {k : ℕ} (hB : B = 2 ^ k) {ss : List (ℕ × F)}
    (h : DispatchStores E p B q blocks cache (p.numQHeads, ceilDiv p.headSize B, 1) ss) :
    ss.Perm ((globalIds (ceilDiv (p.numQHeads * p.headSize) 256, 1, 1) 256).flatMap
      (main E p q blocks cache)) := by
  obtain ⟨f, hf, rfl⟩ := h
  have hpos : 0 < B := hB ▸ Nat.two_pow_pos k
  rw [flatMap_main, List.range_one, List.flatMap_singleton]
  refine (flatMap_swap_perm _ _ fun y x => f x y 0).trans (List.Perm.of_eq ?_)
  refine List.flatMap_congr ?_
  intro qh hqh
  rw [List.mem_range] at hqh
  have htile : ∀ y ∈ List.range (ceilDiv p.headSize B), f qh y 0 = (List.range B).flatMap fun tid =>
      if y * B + tid < p.headSize then
        [(qh * p.headSize + (y * B + tid), scan E p q blocks cache qh (y * B + tid))]
      else [] := fun y hy =>
    workgroupStores_eq hB hqh (hf qh hqh y (List.mem_range.1 hy) 0 Nat.one_pos)
  -- the tiles of a head, one after the other, are the elements of the head
  rw [List.flatMap_congr htile, ← flatMap_range_mul _ B fun e => if e < p.headSize then
    [(qh * p.headSize + e, scan E p q blocks cache qh e)] else []]
  rw [flatMap_range_guard (le_ceilDiv_mul hpos) _ fun e he => if_neg (not_lt.2 he),
    List.map_eq_flatMap]
  exact List.flatMap_congr fun e he => if_pos (List.mem_range.1 he)

theorem exists_dispatchStores (E : ExpFn F) (p : Params F) (B : ℕ) (q : ℕ → F) (blocks : ℕ → ℕ)
    (cache : ℕ → F) (wg : ℕ × ℕ × ℕ) : ∃ ss, DispatchStores E p B q blocks cache wg ss := by
  have hwg : ∀ x y, ∃ ss, WorkgroupStores E p B q blocks cache x y ss := by
    intro x y
    unfold WorkgroupStores
    split_ifs
    · exact ⟨[], rfl⟩
    · obtain ⟨ℓ', m', h⟩ := RunPhases.exists_run
        ((List.range p.seqLen).flatMap (tokenPhases E p B q blocks cache x y))
        (fun _ => ⟨0, 0, 0, ⟨negFltMax, 0, 0⟩⟩) fun _ => 0
      exact ⟨_, _, ℓ', m', h, rfl⟩
  choose f hf using hwg
  exact ⟨_, fun x y _ => f x y, fun x _ y _ _ _ => hf x y, rfl⟩

end

/-! ### The choice of the variant -/

/-- The program a shader name is compiled from. -/
inductive DecodeShader where
  | plain
  | coop (blockSize : ℕ)
  deriving DecidableEq

/-- The programs behind the names, with the `BLOCK_SIZE` each is compiled with. -/
def decodeShader (name : String) : Option DecodeShader :=
  if name ∈ ["paged_attn_decode_f32", "paged_attn_decode_f16"] then some .plain
  else if name ∈ ["paged_attn_decode_f32_coop", "paged_attn_decode_f16_coop"] then
    some (.coop 256)
  else if name ∈ ["paged_attn_decode_f32_coop_512", "paged_attn_decode_f16_coop_512"] then
    some (.coop 512)
  else none

/-- `ss` are the stores of a decode op in some execution of the shader it names. -/
def OpStores [Inhabited F] (E : ExpFn F) (op : Op F) (cache : ℕ → F) (ss : List (ℕ × F)) : Prop :=
  match op.inputs with
  | [.elems q, .words blocks, .tensor _] =>
    match decodeShader op.shader with
    | some .plain => ss = (globalIds op.workgroups 256).flatMap
        (main E (Params.ofPc op.pc) (view q) (view blocks) cache)
    | some (.coop B) =>
      DispatchStores E (Params.ofPc op.pc) B (view q) (view blocks) cache op.workgroups ss
    | none => False
  | _ => False

/-- What `selectDecodeShader` picks is the plain program, or a cooperative one with its own
workgroup size. -/
theorem selectDecodeShader_eq_ok {names : KvOps.DecodeNames}
    (hn : names ∈ [KvOps.decodeNamesF32, KvOps.decodeNamesF16]) {avail : List String}
    {D c : ℕ} {name : String}
    (h : KvOps.selectDecodeShader avail names.plain names.coop names.coop512 D = .ok (name, c)) :
    (decodeShader name = some .plain ∧ c = 0) ∨
      ∃ k, c = 2 ^ k ∧ decodeShader name = some (.coop c) := by
  simp only [List.mem_cons, List.not_mem_nil, or_false] at hn
  rw [KvOps.selectDecodeShader] at h
  split at h
  · cases h
    exact .inr ⟨9, rfl, by obtain rfl | rfl := hn <;> rfl⟩
  split at h
  · cases h
    exact .inr ⟨8, rfl, by obtain rfl | rfl := hn <;> rfl⟩
  split at h
  · cases h
    exact .inr ⟨9, rfl, by obtain rfl | rfl := hn <;> rfl⟩
  split at h
  · cases h
    exact .inl ⟨by obtain rfl | rfl := hn <;> rfl, rfl⟩
  · cases h

section

variable [Inhabited F] {E : ExpFn F} {sqrt : F → F} {L : VulkanPagedKVLayout} {tensor : GpuTensor}
  {s : KVCacheLayerSpec} {base c : ℕ} {name : String} {q : Tensor F} {bt : Tensor ℤ}
  {seqLen : ℤ} {scale : Option F} {op : Op F} {numQ D : ℕ}

/-- An accepted op stores what the plain op for the same request stores, whichever variant was
selected for it. -/
theorem opStores_perm {names : KvOps.DecodeNames}
    (hn : names ∈ [KvOps.decodeNamesF32, KvOps.decodeNamesF16]) {avail : List String}
    (hsel : KvOps.selectDecodeShader avail names.plain names.coop names.coop512 s.headSize =
      .ok (name, c))
    (hop : KvOps.buildPagedAttnDecodeOp sqrt L tensor s base name c q bt seqLen scale =
      .ok (op, numQ, D)) {cache : ℕ → F} {ss : List (ℕ × F)} (h : OpStores E op cache ss) :
    ss.Perm ((globalIds (ceilDiv (numQ * s.headSize) 256, 1, 1) 256).flatMap
      (main E ⟨seqLen.toNat, numQ, s.numKvHeads, s.headSize, s.blockSize, base / s.dtypeSize,
        s.planeElements, s.blockElements, scale.getD (1 / sqrt s.headSize)⟩ (view q.data)
        (activeBlocks s bt seqLen.toNat) cache)) := by
  obtain ⟨numQ', n, -, -, -, -, rfl, -, -, -, -, -, hr⟩ :=
    KvOps.buildPagedAttnDecodeOp_eq_ok.1 hop
  obtain ⟨rfl, rfl, -⟩ : op = _ ∧ numQ = numQ' ∧ D = s.headSize := by
    simpa only [Prod.mk.injEq] using hr
  obtain ⟨hname, rfl⟩ | ⟨k, hk, hname⟩ := selectDecodeShader_eq_ok hn hsel
  · simp only [OpStores, hname, if_neg (lt_irrefl 0), gt_iff_lt] at h
    rw [h]
    exact List.Perm.refl _
  · have hc : c > 0 := hk ▸ Nat.two_pow_pos k
    simp only [OpStores, hname, if_pos hc] at h
    exact dispatchStores_perm hk h

theorem exists_opStores {names : KvOps.DecodeNames}
    (hn : names ∈ [KvOps.decodeNamesF32, KvOps.decodeNamesF16]) {avail : List String}
    (hsel : KvOps.selectDecodeShader avail names.plain names.coop names.coop512 s.headSize =
      .ok (name, c))
    (hop : KvOps.buildPagedAttnDecodeOp sqrt L tensor s base name c q bt seqLen scale =
      .ok (op, numQ, D)) (E : ExpFn F) (cache : ℕ → F) : ∃ ss, OpStores E op cache ss := by
  obtain ⟨numQ', n, -, -, -, -, rfl, -, -, -, -, -, hr⟩ :=
    KvOps.buildPagedAttnDecodeOp_eq_ok.1 hop
  obtain ⟨rfl, rfl, -⟩ : op = _ ∧ numQ = numQ' ∧ D = s.headSize := by
    simpa only [Prod.mk.injEq] using hr
  obtain ⟨hname, rfl⟩ | ⟨k, hk, hname⟩ := selectDecodeShader_eq_ok hn hsel
  · simp only [OpStores, hname]
    exact ⟨_, rfl⟩
  · simp only [OpStores, hname]
    exact exists_dispatchStores E _ c _ _ _ _

/-- **The cooperative shader is the plain one.**  For every power-of-two workgroup size, every
push-constant block, query, block table and cache, and every interleaving of the invocations of a
workgroup between its barriers, the dispatch with one workgroup per query head and tile runs to
the end, stores each output once, and stores there what the plain shader stores.  Hence the
outputs of a request do not depend on the shaders that are available. -/
theorem coop_eq_plain (E : ExpFn F) :
    (∀ (k : ℕ) (p : Params F) (q : ℕ → F) (blocks : ℕ → ℕ) (cache : ℕ → F),
      (∃ ss, DispatchStores E p (2 ^ k) q blocks cache
        (p.numQHeads, ceilDiv p.headSize (2 ^ k), 1) ss) ∧
      ∀ ss, DispatchStores E p (2 ^ k) q blocks cache
          (p.numQHeads, ceilDiv p.headSize (2 ^ k), 1) ss →
        (ss.map Prod.fst).Perm (List.range (p.numQHeads * p.headSize)) ∧
        ss.Perm ((globalIds (ceilDiv (p.numQHeads * p.headSize) 256, 1, 1) 256).flatMap
          (main E p q blocks cache))) ∧
    (∀ names ∈ [KvOps.decodeNamesF32, KvOps.decodeNamesF16],
      ∀ (avail avail' : List String) (name name' : String) (c c' : ℕ) (sqrt : F → F)
        (L : VulkanPagedKVLayout) (tensor : GpuTensor) (s : KVCacheLayerSpec) (base : ℕ)
        (q : Tensor F) (bt : Tensor ℤ) (seqLen : ℤ) (scale : Option F) (op : Op F) (numQ D : ℕ),
      KvOps.selectDecodeShader avail names.plain names.coop names.coop512 s.headSize =
        .ok (name, c) →
      KvOps.selectDecodeShader avail' names.plain names.coop names.coop512 s.headSize =
        .ok (name', c') →
      KvOps.buildPagedAttnDecodeOp sqrt L tensor s base name c q bt seqLen scale =
        .ok (op, numQ, D) →
      ∃ op', KvOps.buildPagedAttnDecodeOp sqrt L tensor s base name' c' q bt seqLen scale =
          .ok (op', numQ, D) ∧
        ∀ cache ss ss' out o o', OpStores E op cache ss → OpStores E op' cache ss' →
          Runs out ss o → Runs out ss' o' → o = o') := by
  refine ⟨fun k p q blocks cache => ⟨exists_dispatchStores E p _ q blocks cache _, fun ss h => ?_⟩,
    fun names hn avail avail' name name' c c' sqrt L tensor s base q bt seqLen scale op numQ D
      hsel hsel' hop => ?_⟩
  · have hperm := dispatchStores_perm rfl h
    refine ⟨(hperm.map Prod.fst).trans (List.Perm.of_eq ?_), hperm⟩
    exact map_fst_main E p q blocks cache
  · obtain ⟨numQ', n, hQ, hdvd, hq, hpos, rfl, hcap, hbt, hlen, hrange, hfits, hr⟩ :=
      KvOps.buildPagedAttnDecodeOp_eq_ok.1 hop
    obtain ⟨hop', rfl, rfl⟩ : op = _ ∧ numQ = numQ' ∧ D = s.headSize := by
      simpa only [Prod.mk.injEq] using hr
    rw [hop'] at hfits
    obtain ⟨op', hbuild⟩ : ∃ op', KvOps.buildPagedAttnDecodeOp sqrt L tensor s base name' c' q bt n
        scale = .ok (op', numQ, s.headSize) := by
      refine ⟨_, KvOps.buildPagedAttnDecodeOp_eq_ok.2 ⟨numQ, n, hQ, hdvd, hq, hpos, rfl, hcap, hbt,
        hlen, hrange, ?_, rfl⟩⟩
      exact hfits
    refine ⟨op', hbuild, fun cache ss ss' out o o' h h' hrun hrun' => ?_⟩
    -- both store what the plain shader stores, in some order
    have hp := opStores_perm hn hsel hop h
    have hp' := opStores_perm hn hsel' hbuild h'
    have hnodup : ∀ {ts : List (ℕ × F)}, ts.Perm _ → (ts.map Prod.fst).Nodup := fun hts =>
      (hts.map Prod.fst).nodup_iff.2 ((map_fst_main E ⟨n, numQ, s.numKvHeads, s.headSize,
        s.blockSize, base / s.dtypeSize, s.planeElements, s.blockElements,
        scale.getD (1 / sqrt s.headSize)⟩ (view q.data) (activeBlocks s bt n) cache).symm ▸
          List.nodup_range)
    rw [hrun.unique (hnodup hp), hrun'.unique (hnodup hp')]
    exact applyStores_perm (hp.trans hp'.symm) (hnodup hp) out

end

end Coop

end VllmVulkan
