import VllmVulkan.Gemma4.Gpu

/-!
# What a submission computes

A buffer *holds* elements when it starts with them; what follows is left over from earlier use.  A
list of facts `(slot, elements)` describes the activation buffers, and every dispatch adds one.

* `Sat` : the buffers hold what a list of facts says;
* `Yields` : from facts to facts, through dispatches in order, with a rule for each shader;
* `submitBatch_eq` : **a submission runs its dispatches in order**, whatever the device does between
  the barriers;
* `Acts`, `writeAct_returns`, `submitActs_returns`, `readAct_returns` : the same for the activation
  buffers of the model.
-/

namespace VllmVulkan

namespace Gemma4

open Elementary Commands Panics

variable {S K : Type}

/-- A buffer starts with `xs`. -/
def Holds (mem : Mem S K) (s : S) (xs : List K) : Prop := (mem s).take xs.length = xs

/-- The buffers hold what the facts say. -/
def Sat (mem : Mem S K) (facts : List (S × List K)) : Prop := ∀ p ∈ facts, Holds mem p.1 p.2

theorem Holds.length_le {mem : Mem S K} {s : S} {xs : List K} (h : Holds mem s xs) :
    xs.length ≤ (mem s).length := by
  rw [← h, List.length_take]
  exact Nat.min_le_right _ _

theorem Holds.getD [Zero K] {mem : Mem S K} {s : S} {xs : List K} (h : Holds mem s xs) {j : ℕ}
    (hj : j < xs.length) : (mem s).getD j 0 = xs.getD j 0 := by
  rw [← h, List.getD_eq_getElem?_getD, List.getD_eq_getElem?_getD, List.getElem?_take_of_lt hj]

namespace Dispatch

variable [Field K] [Elementary K]

theorem length_value_le (mem : Mem S K) (d : Dispatch S K) : (d.value mem).length ≤ d.outLen := by
  cases d with
  | mulMatVec sh w x out pc => exact (length_matvec _ _ _ _).le
  | _ => simp [value, outLen, rmsRow, broadcast, cpuGelu]

variable [DecidableEq S]

theorem length_run {mem : Mem S K} {d : Dispatch S K} (h : d.outLen ≤ (mem d.out).length) (s : S) :
    (d.toCommand.run mem s).length = (mem s).length := by
  by_cases hs : s = d.out
  · subst hs
    have hv := length_value_le mem d
    rw [show d.out = d.toCommand.out from rfl, Command.run_out]
    change (d.value mem ++ (mem d.out).drop (d.value mem).length).length = (mem d.out).length
    rw [List.length_append, List.length_drop]
    omega
  · rw [Command.run_of_ne hs]

theorem holds_out (mem : Mem S K) (d : Dispatch S K) :
    Holds (d.toCommand.run mem) d.out (d.value mem) := by
  have hrun : d.toCommand.run mem d.out =
      d.value mem ++ (mem d.out).drop (d.value mem).length := d.toCommand.run_out mem
  rw [Holds, hrun, List.take_left]

theorem holds_of_ne {mem : Mem S K} {d : Dispatch S K} {s : S} {xs : List K} (h : Holds mem s xs)
    (hs : s ≠ d.out) : Holds (d.toCommand.run mem) s xs := by
  rw [Holds, Command.run_of_ne hs]
  exact h

theorem sat_run {mem : Mem S K} {d : Dispatch S K} {facts : List (S × List K)} (h : Sat mem facts)
    (hout : ∀ p ∈ facts, p.1 ≠ d.out) :
    Sat (d.toCommand.run mem) ((d.out, d.value mem) :: facts) := by
  intro p hp
  obtain rfl | hp := List.mem_cons.1 hp
  · exact holds_out mem d
  · exact holds_of_ne (h p hp) (hout p hp)

end Dispatch

/-! ### Dispatches in order -/

variable [Field K] [Elementary K]

variable [DecidableEq S]

/-- A binding from which `xs` is read. -/
def Reads (facts : List (S × List K)) : Binding S K → List K → Prop
  | .slot s, xs => facts.lookup s = some xs
  | .weight data, xs => data = xs

omit [Field K] [Elementary K] in
theorem Sat.lookup {mem : Mem S K} {facts : List (S × List K)} (hs : Sat mem facts) {s : S}
    {xs : List K} (h : facts.lookup s = some xs) : Holds mem s xs := by
  obtain ⟨l₁, l₂, rfl, -⟩ := List.lookup_eq_some_iff.1 h
  exact hs (s, xs) (by simp)

omit [Field K] [Elementary K] in
theorem Reads.take {facts : List (S × List K)} {b : Binding S K} {xs : List K}
    (h : Reads facts b xs) {mem : Mem S K} (hs : Sat mem facts) :
    (b.read mem).take xs.length = xs := by
  cases b with
  | slot s => exact hs.lookup h
  | weight data =>
    obtain rfl := h
    exact List.take_length

omit [Elementary K] in
theorem Reads.getD {facts : List (S × List K)} {b : Binding S K} {xs : List K}
    (h : Reads facts b xs) {mem : Mem S K} (hs : Sat mem facts) {j : ℕ} (hj : j < xs.length) :
    (b.read mem).getD j 0 = xs.getD j 0 := by
  cases b with
  | slot s => exact (hs.lookup h).getD hj
  | weight data =>
    obtain rfl := h
    rfl

omit [Field K] [Elementary K] in
theorem Reads.length_le {facts : List (S × List K)} {b : Binding S K} {xs : List K}
    (h : Reads facts b xs) {mem : Mem S K} (hs : Sat mem facts) :
    xs.length ≤ (b.read mem).length := by
  rw [← h.take hs, List.length_take]
  exact Nat.min_le_right _ _

/-- The buffers have the sizes `size`. -/
def Sized (size : S → ℕ) (mem : Mem S K) : Prop := ∀ s, (mem s).length = size s

/-- From the facts before them, the dispatches in order lead to the facts after them, and stay
inside their buffers. -/
def Yields (size : S → ℕ) (facts : List (S × List K)) (ds : List (Dispatch S K))
    (facts' : List (S × List K)) : Prop :=
  ∀ mem, Sized size mem → Sat mem facts → (∀ d ∈ ds, d.inBounds mem = true) ∧
    Sized size (runAll (ds.map Dispatch.toCommand) mem) ∧
    Sat (runAll (ds.map Dispatch.toCommand) mem) facts'

namespace Yields

variable {size : S → ℕ} {facts facts' : List (S × List K)} {ds : List (Dispatch S K)}

protected theorem nil (h : ∀ p ∈ facts', p ∈ facts) : Yields size facts [] facts' :=
  fun _ hsize hs => ⟨fun _ hd => absurd hd List.not_mem_nil, hsize, fun p hp => hs p (h p hp)⟩

omit [Field K] [Elementary K] [DecidableEq S] in
theorem inBounds_congr {mem mem' : Mem S K} (h : Sized size mem) (h' : Sized size mem')
    (d : Dispatch S K) : d.inBounds mem = d.inBounds mem' := by
  have hread : ∀ b : Binding S K, (b.read mem).length = (b.read mem').length := by
    intro b
    cases b with
    | slot s => exact (h s).trans (h' s).symm
    | weight data => rfl
  simp only [Dispatch.inBounds, hread, h d.out, h' d.out]

/-- As many elements as a shader reads are known of a buffer bound to it. -/
def Known (facts : List (S × List K)) (p : Binding S K × ℕ) : Prop :=
  ∃ xs, Reads facts p.1 xs ∧ p.2 ≤ xs.length

omit [Field K] [Elementary K] in
theorem known_one {a : Binding S K} {n : ℕ} {as : List K} (ha : Reads facts a as)
    (hn : n ≤ as.length) : ∀ p ∈ [(a, n)], Known facts p := by
  intro p hp
  obtain rfl := List.mem_singleton.1 hp
  exact ⟨as, ha, hn⟩

omit [Field K] [Elementary K] in
theorem known_two {a b : Binding S K} {n n' : ℕ} {as bs : List K} (ha : Reads facts a as)
    (hn : n ≤ as.length) (hb : Reads facts b bs) (hn' : n' ≤ bs.length) :
    ∀ p ∈ [(a, n), (b, n')], Known facts p := by
  intro p hp
  obtain rfl | hp := List.mem_cons.1 hp
  · exact ⟨as, ha, hn⟩
  · exact known_one hb hn' p hp

protected theorem cons {d : Dispatch S K} {v : List K}
    (hops : ∀ p ∈ d.operands, Known facts p)
    (hlen : d.outLen ≤ size d.out) (hv : ∀ mem, Sat mem facts → d.value mem = v)
    (hout : facts.lookup d.out = none) (h : Yields size ((d.out, v) :: facts) ds facts') :
    Yields size facts (d :: ds) facts' := by
  intro mem hsize hs
  have hbounds : d.inBounds mem = true := by
    rw [Dispatch.inBounds, Bool.and_eq_true, List.all_eq_true, decide_eq_true_eq, hsize]
    refine ⟨fun p hp => ?_, hlen⟩
    obtain ⟨xs, hx, hn⟩ := hops p hp
    rw [decide_eq_true_eq]
    exact hn.trans (hx.length_le hs)
  have hsize' : Sized size (d.toCommand.run mem) := fun s =>
    (Dispatch.length_run (hsize d.out ▸ hlen) s).trans (hsize s)
  have hs' : Sat (d.toCommand.run mem) ((d.out, v) :: facts) := by
    refine hv mem hs ▸ Dispatch.sat_run hs ?_
    intro p hp heq
    have hne := List.lookup_eq_none_iff.1 hout p hp
    rw [heq, bne_self_eq_false] at hne
    cases hne
  obtain ⟨hbounds', hrest⟩ := h _ hsize' hs'
  refine ⟨fun d' hd' => ?_, hrest⟩
  obtain rfl | hd' := List.mem_cons.1 hd'
  · exact hbounds
  · rw [inBounds_congr hsize hsize']
    exact hbounds' d' hd'

theorem rmsNormMul {x w : Binding S K} {out : S} {n : ℕ} {eps : K} {xs ws : List K}
    (hx : Reads facts x xs) (hw : Reads facts w ws) (hxs : xs.length = n) (hws : ws.length = n)
    (hn : n ≤ size out) (hout : facts.lookup out = none)
    (h : Yields size ((out, rmsRow xs ws eps) :: facts) ds facts') :
    Yields size facts (.rmsNormMul x w out (rmsNormMulPc n eps) :: ds) facts' := by
  refine .cons (known_two hx hxs.ge hw hws.ge) hn (fun mem hs => ?_) hout h
  simp only [Dispatch.value, rmsNormMulPc, binaryHeadPc]
  rw [← hxs, hx.take hs, hxs, ← hws, hw.take hs]

theorem mulMatVec {sh : MatVecShader} {w x : Binding S K} {out : S} {k n : ℕ} {ws xs : List K}
    (hw : Reads facts w ws) (hx : Reads facts x xs) (hws : ws.length = n * k)
    (hxs : xs.length = k) (hn : n ≤ size out) (hout : facts.lookup out = none)
    (h : Yields size ((out, matvec ws xs k n) :: facts) ds facts') :
    Yields size facts (.mulMatVec sh w x out (mvPc k n 1) :: ds) facts' := by
  refine .cons (known_two hw hws.ge hx hxs.ge) hn (fun mem hs => ?_) hout h
  simp only [Dispatch.value, mvPc, matvec]
  refine List.map_congr_left ?_
  intro r hr
  congr 1
  refine List.map_congr_left ?_
  intro j hj
  have hlt : r * k + j < ws.length := by
    rw [hws]
    calc r * k + j < (r + 1) * k := by
          rw [Nat.add_mul, Nat.one_mul]
          exact Nat.add_lt_add_left (List.mem_range.1 hj) _
      _ ≤ n * k := Nat.mul_le_mul_right k (List.mem_range.1 hr)
  rw [hw.getD hs hlt, hx.getD hs (hxs ▸ List.mem_range.1 hj)]

theorem gelu {x : Binding S K} {out : S} {n : ℕ} {xs : List K} (hx : Reads facts x xs)
    (hxs : xs.length = n) (hn : n ≤ size out) (hout : facts.lookup out = none)
    (h : Yields size ((out, cpuGelu xs) :: facts) ds facts') :
    Yields size facts (.gelu x out (unaryHeadPc n) :: ds) facts' := by
  refine .cons (known_one hx hxs.ge) hn (fun mem hs => ?_) hout h
  simp only [Dispatch.value, unaryHeadPc]
  rw [← hxs, hx.take hs]

theorem tanh {x : Binding S K} {out : S} {n : ℕ} {xs : List K} (hx : Reads facts x xs)
    (hxs : xs.length = n) (hn : n ≤ size out) (hout : facts.lookup out = none)
    (h : Yields size ((out, xs.map Elementary.tanh) :: facts) ds facts') :
    Yields size facts (.tanh x out (unaryHeadPc n) :: ds) facts' := by
  refine .cons (known_one hx hxs.ge) hn (fun mem hs => ?_) hout h
  simp only [Dispatch.value, unaryHeadPc]
  rw [← hxs, hx.take hs]

omit [Field K] [Elementary K] [DecidableEq S] in
theorem broadcast_eq_zipWith [Zero K] {f : K → K → K} {as bs bs' : List K}
    (hb : ∀ j < bs.length, bs'.getD j 0 = bs.getD j 0) (hlen : as.length = bs.length) :
    (as.zipIdx.map fun p => f p.1 (bs'.getD (p.2 % bs.length) 0)) = List.zipWith f as bs := by
  refine List.ext_getElem (by simp [hlen]) ?_
  intro i hi hi'
  simp only [List.length_map, List.length_zipIdx] at hi
  have hlt : i < bs.length := hlen ▸ hi
  simp only [List.getElem_map, List.getElem_zipIdx, List.getElem_zipWith, Nat.zero_add,
    Nat.mod_eq_of_lt hlt]
  rw [hb i hlt, List.getD_eq_getElem _ _ hlt]

theorem add {a b : Binding S K} {out : S} {n : ℕ} {as bs : List K} (ha : Reads facts a as)
    (hb : Reads facts b bs) (has : as.length = n) (hbs : bs.length = n)
    (hn : n ≤ size out) (hout : facts.lookup out = none)
    (h : Yields size ((out, List.zipWith (· + ·) as bs) :: facts) ds facts') :
    Yields size facts (.add a b out (binaryElementwisePc n) :: ds) facts' := by
  refine .cons (known_two ha has.ge hb hbs.ge) hn (fun mem hs => ?_) hout h
  simp only [Dispatch.value, Dispatch.broadcast, binaryElementwisePc, binaryHeadPc]
  rw [← has, ha.take hs, has, ← hbs]
  exact broadcast_eq_zipWith (fun j hj => hb.getD hs hj) (has.trans hbs.symm)

theorem mul {a b : Binding S K} {out : S} {n : ℕ} {as bs : List K} (ha : Reads facts a as)
    (hb : Reads facts b bs) (has : as.length = n) (hbs : bs.length = n)
    (hn : n ≤ size out) (hout : facts.lookup out = none)
    (h : Yields size ((out, List.zipWith (· * ·) as bs) :: facts) ds facts') :
    Yields size facts (.mul a b out (binaryElementwisePc n) :: ds) facts' := by
  refine .cons (known_two ha has.ge hb hbs.ge) hn (fun mem hs => ?_) hout h
  simp only [Dispatch.value, Dispatch.broadcast, binaryElementwisePc, binaryHeadPc]
  rw [← has, ha.take hs, has, ← hbs]
  exact broadcast_eq_zipWith (fun j hj => hb.getD hs hj) (has.trans hbs.symm)

/-- `mul_f32_f32_f32`, with one element broadcast. -/
theorem mulBroadcast {a b : Binding S K} {out : S} {n : ℕ} {as : List K} {c : K}
    (ha : Reads facts a as) (hb : Reads facts b [c]) (has : as.length = n)
    (hn : n ≤ size out) (hout : facts.lookup out = none)
    (h : Yields size ((out, as.map (· * c)) :: facts) ds facts') :
    Yields size facts (.mul a b out (binaryBroadcastPc n) :: ds) facts' := by
  refine .cons (known_two ha has.ge hb (Nat.le_refl 1)) hn (fun mem hs => ?_) hout h
  simp only [Dispatch.value, Dispatch.broadcast, binaryBroadcastPc, binaryHeadPc, Nat.mod_one]
  rw [← has, ha.take hs, hb.getD hs Nat.one_pos]
  refine List.ext_getElem (by simp) ?_
  intro i hi hi'
  simp

end Yields

/-! ### Submissions -/

/-- The dispatches between two barriers do not touch each other's outputs. -/
def GroupsIndependent (rs : List (Record S K)) : Prop :=
  ∀ g ∈ groups rs, (g.map Dispatch.toCommand).Pairwise Independent

/-- **A submission runs its dispatches in order.** -/
theorem submitBatch_eq (σ : Schedule S (List K)) {rs : List (Record S K)} {mem : Mem S K}
    (hb : ∀ d ∈ (groups rs).flatten, d.inBounds mem = true) (hi : GroupsIndependent rs) :
    submitBatch σ rs mem = some (runAll ((groups rs).flatten.map Dispatch.toCommand) mem) := by
  unfold submitBatch
  rw [if_pos, submit_eq σ, ← List.map_flatten]
  · intro g hg
    obtain ⟨g', hg', rfl⟩ := List.mem_map.1 hg
    exact hi g' hg'
  · rw [List.all_eq_true]
    intro g hg
    rw [List.all_eq_true]
    exact fun d hd => hb d (List.mem_flatten.2 ⟨g, hg, hd⟩)

omit [Field K] [Elementary K] in
theorem writeBuf_spec {mem : Mem S K} {s : S} {data : List K}
    (h : data.length ≤ (mem s).length) : ∃ mem', writeBuf mem s data = some mem' ∧
      (∀ s', (mem' s').length = (mem s').length) ∧ Holds mem' s data ∧
      ∀ s' xs, s' ≠ s → Holds mem s' xs → Holds mem' s' xs := by
  refine ⟨_, if_pos h, fun s' => ?_, ?_, fun s' xs hs hx => ?_⟩
  · by_cases hs : s' = s
    · subst hs
      rw [Function.update_self, List.length_append, List.length_drop]
      omega
    · rw [Function.update_of_ne hs]
  · rw [Holds, Function.update_self, List.take_left]
  · rw [Holds, Function.update_of_ne hs]
    exact hx

omit [Field K] [Elementary K] [DecidableEq S] in
theorem readF32BufAt_eq {mem : Mem S K} {s : S} {offset count : ℕ} {xs ys : List K}
    (before after : List K) (h : Holds mem s xs) (hxs : xs = before ++ (ys ++ after))
    (hoffset : before.length = offset) (hcount : ys.length = count) :
    readF32BufAt mem s offset count = some ys := by
  have hlen : offset + count ≤ xs.length := by
    rw [hxs, List.length_append, List.length_append]
    omega
  refine slice_eq_some.2 ⟨⟨Nat.le_add_right _ _, hlen.trans h.length_le⟩, ?_⟩
  calc ((mem s).take (offset + count)).drop offset
      = ((xs.take (offset + count)).drop offset) := by
        rw [← h, List.take_take, Nat.min_eq_left hlen]
    _ = ys := by rw [hxs, ← hoffset, ← hcount, List.take_length_add_append, List.take_left,
        List.drop_left]

/-! ### The activation buffers -/

variable {m : VulkanModel K} {caches : Caches K} {facts facts' : List (Act × List K)}

/-- The scalars that `init_act_bufs` writes. -/
def capFacts (m : VulkanModel K) : List (Act × List K) :=
  [(.invCap, [1 / m.inner.config.finalLogitSoftcapping]),
    (.cap, [m.inner.config.finalLogitSoftcapping])]

/-- The activation buffers have their sizes, and hold the scalars and the facts. -/
structure ActsSat (m : VulkanModel K) (facts : List (Act × List K)) (mem : Mem Act K) : Prop where
  size : Sized (actSize m.inner.config) mem
  sat : Sat mem (capFacts m ++ facts)

/-- The activation buffers are ready. -/
def Acts (m : VulkanModel K) (facts : List (Act × List K)) (st : GpuState K)
    (caches : Caches K) : Prop :=
  st.kvCaches = caches ∧ ∃ mem, st.actBufs = some mem ∧ ActsSat m facts mem

omit [Elementary K] in
theorem ActsSat.mono {mem : Mem Act K} (h : ActsSat m facts mem)
    (hsub : ∀ p ∈ facts', p ∈ facts) : ActsSat m facts' mem := by
  refine ⟨h.size, fun p hp => h.sat p ?_⟩
  obtain hp | hp := List.mem_append.1 hp
  · exact List.mem_append_left _ hp
  · exact List.mem_append_right _ (hsub p hp)

omit [Elementary K] in
theorem Acts.mono {st : GpuState K} (h : Acts m facts st caches)
    (hsub : ∀ p ∈ facts', p ∈ facts) : Acts m facts' st caches := by
  obtain ⟨hc, mem, hst, hmem⟩ := h
  exact ⟨hc, mem, hst, hmem.mono hsub⟩

omit [Field K] [Elementary K] in
/-- Without the buffers, and where `f` panics, the state stays. -/
theorem onActs_none {α : Type} {f : Mem Act K → Option (α × Mem Act K)} {st : GpuState K}
    (h : st.actBufs.bind f = none) : onActs f st = (none, st) := by
  change (lift st.actBufs >>= fun mem => lift (f mem) >>= fun r => do
    Panics.set { st with actBufs := some r.2 }
    pure r.1) st = _
  rcases hst : st.actBufs with _ | mem
  · rfl
  · rw [hst, Option.bind_some] at h
    rw [lift_some, pure_bind, h]
    rfl

omit [Field K] [Elementary K] in
/-- The buffers are taken, and those that `f` leaves are put back. -/
theorem onActs_some {α : Type} {f : Mem Act K → Option (α × Mem Act K)} {st : GpuState K} {a : α}
    {mem : Mem Act K} (h : st.actBufs.bind f = some (a, mem)) :
    onActs f st = (some a, { st with actBufs := some mem }) := by
  obtain ⟨mem₀, hst, hf⟩ := Option.bind_eq_some_iff.1 h
  calc onActs f st
      = (lift st.actBufs >>= fun mem => lift (f mem) >>= fun r => do
          Panics.set { st with actBufs := some r.2 }
          pure r.1) st := rfl
    _ = (some a, { st with actBufs := some mem }) := by
        rw [hst, lift_some, pure_bind, hf, lift_some, pure_bind]
        rfl

omit [Elementary K] in
theorem onActs_returns {α : Type} {f : Mem Act K → Option (α × Mem Act K)} {a : α}
    (h : ∀ mem, ActsSat m facts mem → ∃ mem', f mem = some (a, mem') ∧ ActsSat m facts' mem') :
    Returns (fun st => Acts m facts st caches) (onActs f) a fun st => Acts m facts' st caches := by
  rintro st ⟨hc, mem, hst, hmem⟩
  obtain ⟨mem', hf, hmem'⟩ := h mem hmem
  have hbind : st.actBufs.bind f = some (a, mem') := by rw [hst, Option.bind_some, hf]
  exact ⟨{ st with actBufs := some mem' }, onActs_some hbind, hc, mem', rfl, hmem'⟩

omit [Elementary K] in
theorem writeAct_returns {slot : Act} {data : List K}
    (h : data.length ≤ actSize m.inner.config slot)
    (hcap : ∀ p ∈ capFacts m, p.1 ≠ slot)
    (hsub : ∀ p ∈ facts', p = (slot, data) ∨ p ∈ facts ∧ p.1 ≠ slot) :
    Returns (fun st => Acts m facts st caches) (writeAct slot data) ()
      fun st => Acts m facts' st caches := by
  refine onActs_returns ?_
  intro mem hmem
  obtain ⟨mem', hw, hsize, hout, hkeep⟩ := @writeBuf_spec _ _ _ mem slot data (hmem.size slot ▸ h)
  refine ⟨mem', by rw [hw]; rfl, fun s => (hsize s).trans (hmem.size s), fun p hp => ?_⟩
  obtain hp | hp := List.mem_append.1 hp
  · exact hkeep p.1 p.2 (hcap p hp) (hmem.sat p (List.mem_append_left _ hp))
  · obtain rfl | ⟨hp, hne⟩ := hsub p hp
    · exact hout
    · exact hkeep p.1 p.2 hne (hmem.sat p (List.mem_append_right _ hp))

theorem submitActs_returns {rs : List (Record Act K)} (hi : GroupsIndependent rs)
    (h : Yields (actSize m.inner.config) (capFacts m ++ facts) (groups rs).flatten
      (capFacts m ++ facts')) :
    Returns (fun st => Acts m facts st caches) (submitActs m rs) ()
      fun st => Acts m facts' st caches := by
  refine onActs_returns ?_
  intro mem hmem
  obtain ⟨hbounds, hsize, hsat⟩ := h mem hmem.size hmem.sat
  exact ⟨_, by rw [submitBatch_eq _ hbounds hi]; rfl, hsize, hsat⟩

omit [Elementary K] in
theorem readAct_returns {slot : Act} {offset count : ℕ} {xs ys : List K} (before after : List K)
    (h : facts.lookup slot = some xs) (hxs : xs = before ++ (ys ++ after))
    (hoffset : before.length = offset) (hcount : ys.length = count) :
    Returns (fun st => Acts m facts st caches) (readAct slot offset count) ys
      fun st => Acts m facts st caches := by
  refine onActs_returns fun mem hmem => ⟨mem, ?_, hmem⟩
  have hfacts : Sat mem facts := fun p hp => hmem.sat p (List.mem_append_right _ hp)
  rw [readF32BufAt_eq before after (hfacts.lookup h) hxs hoffset hcount]
  rfl

omit [Elementary K] in
theorem readAct_whole {slot : Act} {count : ℕ} {xs : List K} (h : facts.lookup slot = some xs)
    (hcount : xs.length = count) : Returns (fun st => Acts m facts st caches)
      (readAct slot 0 count) xs fun st => Acts m facts st caches :=
  readAct_returns [] [] h (by simp) rfl hcount

end Gemma4

end VllmVulkan
