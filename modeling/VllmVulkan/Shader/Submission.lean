import VllmVulkan.Gemma4.Forward
import VllmVulkan.Shader.MulMatVec
import VllmVulkan.Shader.RmsNorm

/-!
# A submission, thread by thread

A command buffer launches the workgroups of its dispatches.  Everything overlaps: the threads of a
workgroup between its barriers, the workgroups of a dispatch, and the dispatches that no
`vkCmdPipelineBarrier` separates.

* `Launched`, `Dispatch.launch`, `commands` : what a command buffer launches;
* `Built` : the push constants that the engine builds, from sizes that fit in 32 bits;
* `Computed`, `Built.computed` : **the workgroups of a dispatch compute its value**;
* `launch_inOrder`, `fenced_commands` : one dispatch, and where the barriers stand;
* `submission_refines` : **whatever overlaps, the buffers end as `submit_batch` says**.
-/

namespace VllmVulkan

namespace Shader

open Gemma4 Overlap Commands Finset

variable {S K : Type}

/-- The workgroups of the pipelines. -/
inductive Launched (S K : Type) where
  | none
  | elementwise (localSize : ℕ) (w : Workgroup (Fin localSize) (Regs K) (Addr S) Empty K)
  | norm (w : Workgroup (Fin blockSize) (NormLocal K) (Addr S) ℕ K)
  | matvec (s : Matvec.Spec) (w : Workgroup (Fin s.blockSize) (MatvecLocal K) (Addr S) Cell K)

theorem Launched.elementwise_injective (localSize : ℕ) :
    Function.Injective (Launched.elementwise (S := S) (K := K) localSize) := by
  intro w w' h
  exact eq_of_heq (Launched.elementwise.inj h).2

theorem Launched.norm_injective : Function.Injective (Launched.norm (S := S) (K := K)) := by
  intro w w' h
  exact Launched.norm.inj h

theorem Launched.matvec_injective (s : Matvec.Spec) :
    Function.Injective (Launched.matvec (S := S) (K := K) s) := by
  intro w w' h
  exact eq_of_heq (Launched.matvec.inj h).2

/-- The push constants of the matvec shaders, as they are passed. -/
def matvecParams (pc : MvPc) : Matvec.Params where
  ncols := Matvec.asU32 pc.ncols
  strideD := Matvec.asU32 pc.strideD
  batchStrideA := Matvec.asU32 pc.batchStrideA
  batchStrideB := Matvec.asU32 pc.batchStrideB
  batchStrideD := Matvec.asU32 pc.batchStrideD
  fusionFlags := Matvec.asU32 pc.fusionFlags
  baseWorkGroupY := Matvec.asU32 pc.baseWorkGroupY
  ne02 := Matvec.asU32 pc.ne02
  ne12 := Matvec.asU32 pc.ne12
  broadcast2 := Matvec.asU32 pc.broadcast2
  broadcast3 := Matvec.asU32 pc.broadcast3

/-- The name of a shader. -/
def shaderName : MatVecShader → String
  | .f16 => "mul_mat_vec_f16_f32_f32"
  | .f32 => "mul_mat_vec_f32_f32_f32"

/-- The pipeline of a dispatch. -/
def matvecSpec (shader : MatVecShader) : Matvec.Spec :=
  Matvec.pipelineSpec (shaderName shader) (shaderName shader ++ "_r4")

theorem matvecSpec_eq (shader : MatVecShader) : matvecSpec shader = ⟨32, 4, 1⟩ := by
  cases shader <;> decide

/-- `wg256`. -/
def wg256 (n : ℕ) : ℕ := Matvec.asU32 (ceilDiv n 256)

/-- `wg128`. -/
def wg128 (n : ℕ) : ℕ := Matvec.asU32 (ceilDiv n 128)

/-- The contents of the shared memory at the start of a dispatch. -/
structure Uninit (K : Type) where
  norm : ℕ → ℕ → K
  matvec : ℕ → Cell → K

section

variable [Field K] [Elementary K] [Glsl K] [DecidableEq S]

/-- The workgroups of an elementwise shader. -/
def launchElementwise (localSize workgroups : ℕ)
    (main : UInt32 → List (Action (Regs K) (Addr S ⊕ Empty) K)) :
    List (Cmd (Launched S K) (Addr S) K) :=
  (List.range workgroups).map fun x =>
    ⟨(elementwise localSize main x).proc.via (.elementwise localSize)
      (Launched.elementwise_injective localSize), false⟩

/-- `record_to`: the workgroups of a dispatch. -/
def launch (u : Uninit K) : Dispatch S K → List (Cmd (Launched S K) (Addr S) K)
  | .rmsNormMul x w out pc => (List.range 1).map fun g =>
    ⟨(normWorkgroup pc x w out (u.norm g)).proc.via .norm Launched.norm_injective, false⟩
  | .mulMatVec shader w x out pc => (List.range (Matvec.wgR4 pc.strideD)).map fun gx =>
    ⟨(matvecWorkgroup (matvecSpec shader) (matvecParams pc) w x out (Matvec.wgR4 pc.strideD) gx 0 0
      (u.matvec gx)).proc.via (.matvec (matvecSpec shader))
      (Launched.matvec_injective (matvecSpec shader)), false⟩
  | .gelu x out pc => launchElementwise 128 (wg128 pc.kx) (unaryMain geluValue pc x out)
  | .tanh x out pc => launchElementwise 128 (wg128 pc.kx) (unaryMain tanhValue pc x out)
  | .add a b out pc => launchElementwise 256 (wg256 pc.ne) (binaryMain (· + ·) pc a b out)
  | .mul a b out pc => launchElementwise 256 (wg256 pc.ne) (binaryMain (· * ·) pc a b out)

/-- `record_barrier_to`. -/
def fence : Cmd (Launched S K) (Addr S) K where
  proc :=
    { start := .none
      Done := fun _ => True
      Step := fun _ _ => False
      reads := ∅
      writes := ∅
      frame := fun h => h.elim
      footprint := fun h => h.elim
      final := fun _ h => h }
  barrier := true

/-- What a command buffer launches. -/
def commands (u : ℕ → Uninit K) : List (Record S K) → List (Cmd (Launched S K) (Addr S) K)
  | [] => []
  | .dispatch d :: rs => launch (u rs.length) d ++ commands u rs
  | .barrier :: rs => fence :: commands u rs

end

/-! ### The dispatches of the engine -/

/-- The push constants that the engine builds, from sizes that fit in 32 bits. -/
inductive Built [Zero K] : Dispatch S K → Prop
  | rmsNormMul (x w : Gemma4.Binding S K) (out : S) {n : ℕ} (eps : K) (hn : n + 511 < 2 ^ 32) :
    Built (.rmsNormMul x w out (rmsNormMulPc n eps))
  | mulMatVec (shader : MatVecShader) (w x : Gemma4.Binding S K) (out : S) {k n : ℕ}
    (hk : k < 2 ^ 32) (hn : n < 2 ^ 32) (hkn : k * n < 2 ^ 32) :
    Built (.mulMatVec shader w x out (mvPc k n 1))
  | gelu (x : Gemma4.Binding S K) (out : S) {n : ℕ} (hn : n < 2 ^ 32) :
    Built (.gelu x out (unaryHeadPc n))
  | tanh (x : Gemma4.Binding S K) (out : S) {n : ℕ} (hn : n < 2 ^ 32) :
    Built (.tanh x out (unaryHeadPc n))
  | add (a b : Gemma4.Binding S K) (out : S) {n bLen : ℕ} (hn : n < 2 ^ 32) (hb : bLen < 2 ^ 32) :
    Built (.add a b out (binaryHeadPc n bLen 0))
  | mul (a b : Gemma4.Binding S K) (out : S) {n bLen : ℕ} (hn : n < 2 ^ 32) (hb : bLen < 2 ^ 32) :
    Built (.mul a b out (binaryHeadPc n bLen 0))

/-- A dispatch does not read the buffer it writes. -/
def Apart (d : Dispatch S K) : Prop := d.out ∉ d.operands.flatMap fun p => p.1.slots

section

variable [Field K] [Elementary K] [DecidableEq S]

/-- Commands that are the workgroups of a dispatch and compute its value. -/
structure Computed (d : Dispatch S K) {L : Type} (cs : List (Cmd L (Addr S) K)) : Prop where
  pairwise : cs.Pairwise fun c d => ∀ a, ¬ Conflict c.proc d.proc a
  barrier : ∀ c ∈ cs, c.barrier = false
  loads : ∀ c ∈ cs, ∀ a ∈ c.proc.reads, a.1 ∈ d.operands.flatMap fun p => p.1.slots
  stores : ∀ c ∈ cs, ∀ a ∈ c.proc.writes, a.1 = d.out
  exists_runs : ∀ c ∈ cs, ∀ m, ∃ m', c.proc.Runs m m'
  value : ∀ mem m', d.inBounds mem = true → InOrder cs (flat mem) m' →
    (∀ i < d.outLen, m' (d.out, i) = (d.value mem).getD i 0) ∧
      ∀ a : Addr S, (a.1 = d.out → d.outLen ≤ a.2) → m' a = flat mem a

omit [DecidableEq S] in
theorem Computes.computed {L : Type} {d : Dispatch S K} (hd : Apart d) {n len : ℕ}
    {c : ℕ → Cmd L (Addr S) K} {slots : List S} {owner : ℕ → ℕ} {value : (Addr S → K) → ℕ → K}
    (h : Computes n c slots d.out len owner value)
    (hslots : slots = d.operands.flatMap fun p => p.1.slots) (hlen : len = d.outLen)
    (hvalue : ∀ mem, d.inBounds mem = true → ∀ i < d.outLen,
      value (flat mem) i = (d.value mem).getD i 0) :
    Computed d ((List.range n).map c) := by
  subst hslots
  subst hlen
  refine ⟨h.pairwise hd, ?_, ?_, ?_, ?_, ?_⟩
  · intro e he
    obtain ⟨x, -, rfl⟩ := List.mem_map.1 he
    exact h.barrier x
  · intro e he a ha
    obtain ⟨x, hx, rfl⟩ := List.mem_map.1 he
    exact h.loads x (List.mem_range.1 hx) a ha
  · intro e he a ha
    obtain ⟨x, hx, rfl⟩ := List.mem_map.1 he
    exact (h.stores x (List.mem_range.1 hx) a ha).1
  · intro e he m
    obtain ⟨x, -, rfl⟩ := List.mem_map.1 he
    exact h.exists_runs x m
  · intro mem m' hb hrun
    obtain ⟨hval, hkeep⟩ := h.inOrder hd hrun
    exact ⟨fun i hi => (hval i hi).trans (hvalue mem hb i hi), hkeep⟩

/-! ### The values -/

omit [Field K] [Elementary K] [DecidableEq S] in
theorem operand_le {d : Dispatch S K} {mem : Mem S K} (hb : d.inBounds mem = true)
    {p : Gemma4.Binding S K × ℕ} (hp : p ∈ d.operands) : p.2 ≤ (p.1.read mem).length := by
  rw [Dispatch.inBounds, Bool.and_eq_true, List.all_eq_true] at hb
  exact of_decide_eq_true (hb.1 p hp)

omit [Field K] [Elementary K] [DecidableEq S] in
theorem getD_map_take [Zero K] {f : K → K} {xs : List K} {n i : ℕ}
    (hn : n ≤ xs.length) (hi : i < n) : ((xs.take n).map f).getD i 0 = f (xs.getD i 0) := by
  have hlt : i < xs.length := hi.trans_le hn
  rw [List.getD_eq_getElem _ _ (by simpa using ⟨hi, hlt⟩), List.getD_eq_getElem _ _ hlt,
    List.getElem_map, List.getElem_take]

omit [Elementary K] [DecidableEq S] in
theorem sum_take {xs : List K} {n : ℕ} (hn : n ≤ xs.length) (f : K → K) :
    ((List.range n).map fun c => f (xs.getD c 0)).sum = ((xs.take n).map f).sum := by
  congr 1
  refine List.ext_getElem (by simp [hn]) ?_
  intro i hi hi'
  have hlt : i < n := by simpa using hi
  rw [List.getElem_map, List.getElem_map, List.getElem_range, List.getElem_take,
    List.getD_eq_getElem _ _ (hlt.trans_le hn)]

omit [Elementary K] [DecidableEq S] in
theorem getD_broadcast {f : K → K → K} {xs ys : List K} {n bLen i : ℕ} (hn : n ≤ xs.length)
    (hi : i < n) :
    (Dispatch.broadcast f (xs.take n) ys bLen).getD i 0 =
      f (xs.getD i 0) (ys.getD (i % bLen) 0) := by
  have hlt : i < xs.length := hi.trans_le hn
  rw [Dispatch.broadcast, List.getD_eq_getElem _ _ (by simpa using ⟨hi, hlt⟩),
    List.getD_eq_getElem _ _ hlt, List.getElem_map, List.getElem_zipIdx, List.getElem_take,
    Nat.zero_add]

variable [Glsl K]

omit [DecidableEq S] in
theorem normValue_eq (hlaw : Glsl.Lawful K) {x w : Gemma4.Binding S K} {n : ℕ} {eps : K}
    {mem : Mem S K} (hx : n ≤ (x.read mem).length) (hw : n ≤ (w.read mem).length) {i : ℕ}
    (hi : i < n) : normValue x w n eps (flat mem) i =
      (rmsRow ((x.read mem).take n) ((w.read mem).take n) eps).getD i 0 := by
  have hlen : ((w.read mem).take n).length = n := List.length_take_of_le hw
  have hlen' : ((x.read mem).take n).length = n := List.length_take_of_le hx
  have hsum : ((List.range n).map fun c => view x (flat mem) c * view x (flat mem) c).sum =
      (((x.read mem).take n).map fun v => v * v).sum := by
    simp only [view_flat]
    exact sum_take hx fun v => v * v
  have hscale : rmsScale ((x.read mem).take n) ((w.read mem).take n).length eps =
      1 / Elementary.sqrt ((((x.read mem).take n).map fun v => v * v).sum / n + eps) := by
    rw [rmsScale, hlen]
  rw [normValue, hsum, hlaw.inversesqrt, ← hscale, rmsRow,
    List.getD_eq_getElem _ _ (by rw [List.length_zipWith, hlen, hlen', Nat.min_self]; exact hi),
    List.getElem_zipWith, List.getElem_take, List.getElem_take, view_flat, view_flat,
    List.getD_eq_getElem _ _ (hi.trans_le hx), List.getD_eq_getElem _ _ (hi.trans_le hw)]
  ring

omit [Elementary K] [Glsl K] [DecidableEq S] in
theorem productValue_eq (w x : Gemma4.Binding S K) {k n : ℕ} (mem : Mem S K) {i : ℕ}
    (hi : i < n) : productValue w x k (flat mem) i =
      (matvec (w.read mem) (x.read mem) k n).getD i 0 := by
  have hlt : i < (matvec (w.read mem) (x.read mem) k n).length := by rwa [length_matvec]
  rw [List.getD_eq_getElem _ _ hlt]
  simp only [matvec, List.getElem_map, List.getElem_range, productValue, view_flat]
  rfl

/-! ### The workgroups of a dispatch -/

theorem asU32_ceilDiv {n b : ℕ} (hb : 0 < b) (hn : n < 2 ^ 32) :
    Matvec.asU32 (ceilDiv n b) = ceilDiv n b := by
  refine Nat.mod_eq_of_lt (lt_of_le_of_lt ?_ hn)
  by_contra! h
  have hlt := (lt_ceilDiv_iff hb).1 h
  exact absurd (Nat.le_mul_of_pos_right n hb) (Nat.not_le.2 hlt)

theorem grid_le {n b : ℕ} (hdvd : b ∣ 2 ^ 32) (hb : 0 < b) (hn : n < 2 ^ 32) :
    ceilDiv n b * b ≤ 2 ^ 32 := by
  obtain ⟨q, hq⟩ := hdvd
  have hle : ceilDiv n b ≤ q := by
    by_contra! h
    have hlt := (lt_ceilDiv_iff hb).1 h
    rw [hq, Nat.mul_comm] at hn
    exact absurd hlt (Nat.not_lt.2 hn.le)
  rw [hq, Nat.mul_comm b q]
  exact Nat.mul_le_mul_right b hle

omit [Glsl K] in
theorem computed_binary {d : Dispatch S K} (hd : Apart d) {op : K → K → K} {n bLen : ℕ}
    {a b : Gemma4.Binding S K} {out : S} (hn : n < 2 ^ 32) (hb : bLen < 2 ^ 32)
    (hops : d.operands = [(a, n), (b, bLen)]) (hout : d.out = out) (hlen : d.outLen = n)
    (hvalue : ∀ mem : Mem S K, d.value mem =
      Dispatch.broadcast op ((a.read mem).take n) (b.read mem) bLen) :
    Computed d (launchElementwise 256 (wg256 n)
      (binaryMain op (binaryHeadPc n bLen 0) a b out)) := by
  subst hout
  rw [wg256, asU32_ceilDiv (by decide) hn]
  have hslots : a.slots ++ b.slots = d.operands.flatMap fun p => p.1.slots := by
    rw [hops]
    simp
  refine ((binary_invocations op 0 a b d.out hn hb).computes (hslots ▸ hd) (by decide)
    (grid_le (by decide) (by decide) hn)
    (Launched.elementwise_injective 256)).computed hd hslots hlen.symm ?_
  intro mem hin i hi
  have hle : n ≤ (a.read mem).length := operand_le hin (hops ▸ List.mem_cons_self)
  rw [hvalue, getD_broadcast hle (hlen ▸ hi), view_flat, view_flat]

omit [Glsl K] in
theorem computed_unary {d : Dispatch S K} (hd : Apart d) {f : K → K} {n : ℕ}
    {x : Gemma4.Binding S K} {out : S} (hn : n < 2 ^ 32)
    (hops : d.operands = [(x, n)]) (hout : d.out = out) (hlen : d.outLen = n)
    (hvalue : ∀ mem : Mem S K, d.value mem = ((x.read mem).take n).map f) :
    Computed d (launchElementwise 128 (wg128 n) (unaryMain f (unaryHeadPc n) x out)) := by
  subst hout
  rw [wg128, asU32_ceilDiv (by decide) hn]
  have hslots : x.slots = d.operands.flatMap fun p => p.1.slots := by
    rw [hops]
    simp
  refine ((unary_invocations f x d.out hn).computes (hslots ▸ hd) (by decide)
    (grid_le (by decide) (by decide) hn)
    (Launched.elementwise_injective 128)).computed hd hslots hlen.symm ?_
  intro mem hin i hi
  have hle : n ≤ (x.read mem).length := operand_le hin (hops ▸ List.mem_cons_self)
  rw [hvalue, getD_map_take hle (hlen ▸ hi), view_flat]

omit [Elementary K] [Glsl K] [DecidableEq S] [Field K] in
theorem fits_matvecParams {k n : ℕ} (hk : k < 2 ^ 32) (hn : n < 2 ^ 32) :
    Matvec.Fits 1 k n (matvecParams (mvPc k n 1)) := by
  have hk' : Matvec.asU32 k = k := Nat.mod_eq_of_lt hk
  have hn' : Matvec.asU32 n = n := Nat.mod_eq_of_lt hn
  exact ⟨hk', hn', hk', hn', rfl, rfl, rfl, rfl, rfl, rfl⟩

/-- **The workgroups of a dispatch compute its value.** -/
theorem Built.computed (hlaw : Glsl.Lawful K) {d : Dispatch S K} (hb : Built d) (hd : Apart d)
    (u : Uninit K) : Computed d (launch u d) := by
  cases hb with
  | @rmsNormMul x w out n eps hn =>
    have hslots : x.slots ++ w.slots =
        (Dispatch.rmsNormMul x w out (rmsNormMulPc n eps)).operands.flatMap fun p => p.1.slots := by
      simp [Dispatch.operands]
    refine (rmsNorm_computes hn (hslots ▸ hd) u.norm Launched.norm_injective).computed hd hslots
      rfl ?_
    intro mem hin i hi
    have hx := operand_le hin List.mem_cons_self
    have hw := operand_le hin (List.mem_cons_of_mem _ List.mem_cons_self)
    exact normValue_eq hlaw hx hw hi
  | @mulMatVec shader w x out k n hk hn hkn =>
    have hspec := matvecSpec_eq shader
    have hwg : Matvec.wgR4 n = ceilDiv n (matvecSpec shader).numRows := by
      rw [hspec]
      exact asU32_ceilDiv (by decide) hn
    have hslots : w.slots ++ x.slots =
        (Dispatch.mulMatVec shader w x out (mvPc k n 1)).operands.flatMap fun p => p.1.slots := by
      simp [Dispatch.operands]
    have hrows : 0 < (matvecSpec shader).numRows := by
      rw [hspec]
      decide
    have hB : (matvecSpec shader).blockSize = 2 ^ 5 := by
      rw [hspec]
      rfl
    have hcols : (matvecSpec shader).numCols = 1 := by rw [hspec]
    have hstride : (mvPc k n 1).strideD = n := rfl
    rw [launch, hstride, hwg]
    refine (mulMatVec_computes hB hcols hrows (fits_matvecParams hk hn) hk u.matvec
      (Launched.matvec_injective (matvecSpec shader))).computed hd hslots rfl ?_
    intro mem hin i hi
    exact productValue_eq w x mem hi
  | gelu x out hn =>
    refine computed_unary hd hn rfl rfl rfl fun mem => ?_
    exact congrArg (List.map · _) (funext fun xi => (geluValue_eq hlaw xi).symm)
  | tanh x out hn =>
    refine computed_unary hd hn rfl rfl rfl fun mem => ?_
    exact congrArg (List.map · _) (funext fun xi => hlaw.tanh xi)
  | add a b out hn hb => exact computed_binary hd hn hb rfl rfl rfl fun mem => rfl
  | mul a b out hn hb => exact computed_binary hd hn hb rfl rfl rfl fun mem => rfl

/-! ### A command buffer -/

omit [Glsl K] [DecidableEq S] in
theorem length_value {d : Dispatch S K} {mem : Mem S K} (hb : Built d)
    (hin : d.inBounds mem = true) : (d.value mem).length = d.outLen := by
  cases hb with
  | rmsNormMul x w out eps hn =>
    have hx := operand_le hin List.mem_cons_self
    have hw := operand_le hin (List.mem_cons_of_mem _ List.mem_cons_self)
    rw [Dispatch.value, rmsRow, List.length_zipWith, List.length_take_of_le hx,
      List.length_take_of_le hw]
    exact Nat.min_self _
  | mulMatVec shader w x out hk hn hkn => exact length_matvec _ _ _ _
  | gelu x out hn =>
    rw [Dispatch.value, cpuGelu, List.length_map]
    exact List.length_take_of_le (operand_le hin List.mem_cons_self)
  | tanh x out hn =>
    rw [Dispatch.value, List.length_map]
    exact List.length_take_of_le (operand_le hin List.mem_cons_self)
  | add a b out hn hb =>
    rw [Dispatch.value, Dispatch.broadcast, List.length_map, List.length_zipIdx]
    exact List.length_take_of_le (operand_le hin List.mem_cons_self)
  | mul a b out hn hb =>
    rw [Dispatch.value, Dispatch.broadcast, List.length_map, List.length_zipIdx]
    exact List.length_take_of_le (operand_le hin List.mem_cons_self)

/-- **A dispatch**, one workgroup after the other: its command. -/
theorem launch_inOrder (hlaw : Glsl.Lawful K) {d : Dispatch S K} (hb : Built d) (hd : Apart d)
    {u : Uninit K} {mem : Mem S K} (hin : d.inBounds mem = true) {m' : Addr S → K}
    (hrun : InOrder (launch u d) (flat mem) m') : m' = flat (d.toCommand.run mem) := by
  obtain ⟨hval, hkeep⟩ := (hb.computed hlaw hd u).value mem m' hin hrun
  have hlen := length_value hb hin
  funext ⟨s, i⟩
  by_cases hs : s = d.out
  · subst hs
    have hrunOut : d.toCommand.run mem d.out =
        d.value mem ++ (mem d.out).drop (d.value mem).length := d.toCommand.run_out mem
    rw [flat, hrunOut, hlen]
    by_cases hi : i < d.outLen
    · rw [hval i hi, List.getD_append _ _ _ _ (hlen ▸ hi)]
    · rw [hkeep (d.out, i) fun _ => Nat.not_lt.1 hi,
        List.getD_append_right _ _ _ _ (hlen ▸ Nat.not_lt.1 hi), hlen, flat,
        List.getD_eq_getElem?_getD, List.getD_eq_getElem?_getD, List.getElem?_drop,
        Nat.add_sub_cancel' (Nat.not_lt.1 hi)]
  · rw [hkeep (s, i) fun h => absurd h hs, flat, flat, Command.run_of_ne hs]

omit [Field K] [Elementary K] [DecidableEq S] [Glsl K] in
theorem groups_ne_nil (rs : List (Record S K)) : ∃ g gs, groups rs = g :: gs := by
  cases rs with
  | nil => exact ⟨[], [], rfl⟩
  | cons r rs =>
    cases r with
    | barrier => exact ⟨[], groups rs, rfl⟩
    | dispatch d =>
      cases hgs : groups rs with
      | nil => exact ⟨[d], [], by rw [groups, hgs]⟩
      | cons g gs => exact ⟨d :: g, gs, by rw [groups, hgs]⟩

omit [Field K] [Elementary K] [DecidableEq S] [Glsl K] in
theorem groups_dispatch (d : Dispatch S K) {rs : List (Record S K)} {g : List (Dispatch S K)}
    {gs : List (List (Dispatch S K))} (h : groups rs = g :: gs) :
    groups (.dispatch d :: rs) = (d :: g) :: gs := by rw [groups, h]

omit [Field K] [Elementary K] [DecidableEq S] [Glsl K] in
theorem flatten_groups_dispatch (d : Dispatch S K) (rs : List (Record S K)) :
    (groups (.dispatch d :: rs)).flatten = d :: (groups rs).flatten := by
  obtain ⟨g, gs, h⟩ := groups_ne_nil rs
  rw [groups_dispatch d h, h]
  rfl

omit [DecidableEq S] [Glsl K] in
theorem not_conflict {d d' : Dispatch S K} {L : Type} {cs cs' : List (Cmd L (Addr S) K)}
    (h : Computed d cs) (h' : Computed d' cs') (hi : Independent d.toCommand d'.toCommand)
    {c c' : Cmd L (Addr S) K} (hc : c ∈ cs) (hc' : c' ∈ cs') (a : Addr S) :
    ¬ Conflict c.proc c'.proc a := by
  obtain ⟨hne, hread', hread⟩ := hi
  rintro (⟨hw, hr | hw'⟩ | ⟨hw', hr | hw⟩)
  · have hmem := h'.loads c' hc' a hr
    rw [h.stores c hc a hw] at hmem
    exact hread' (List.mem_cons_of_mem _ hmem)
  · exact hne ((h.stores c hc a hw).symm.trans (h'.stores c' hc' a hw'))
  · have hmem := h.loads c hc a hr
    rw [h'.stores c' hc' a hw'] at hmem
    exact hread (List.mem_cons_of_mem _ hmem)
  · exact hne ((h.stores c hc a hw).symm.trans (h'.stores c' hc' a hw'))

theorem clear_commands (hlaw : Glsl.Lawful K) (u : ℕ → Uninit K) {d : Dispatch S K}
    {cs : List (Cmd (Launched S K) (Addr S) K)} (h : Computed d cs) {rs : List (Record S K)}
    (hb : ∀ d' ∈ (groups rs).flatten, Built d') (ha : ∀ d' ∈ (groups rs).flatten, Apart d')
    {g : List (Dispatch S K)} {gs : List (List (Dispatch S K))} (hg : groups rs = g :: gs)
    (hi : ∀ d' ∈ g, Independent d.toCommand d'.toCommand) {c : Cmd (Launched S K) (Addr S) K}
    (hc : c ∈ cs) : Clear c (commands u rs) := by
  induction rs generalizing g gs with
  | nil =>
    rintro pre e post heq
    simp [commands] at heq
  | cons r rs ih =>
    cases r with
    | barrier =>
      rintro pre e post heq - hpre a hconflict
      cases pre with
      | nil =>
        obtain ⟨rfl, -⟩ := List.cons.inj heq
        rcases hconflict with ⟨-, h | h⟩ | ⟨h, -⟩ <;> exact h.elim
      | cons f pre =>
        obtain ⟨rfl, -⟩ := List.cons.inj heq
        cases hpre _ List.mem_cons_self
    | dispatch d' =>
      obtain ⟨g', gs', hg'⟩ := groups_ne_nil rs
      rw [groups_dispatch d' hg'] at hg
      obtain ⟨rfl, rfl⟩ := List.cons.inj hg
      rw [flatten_groups_dispatch] at hb ha
      have hd' := (hb d' List.mem_cons_self).computed hlaw (ha d' List.mem_cons_self) (u rs.length)
      have hrest := ih (fun e he => hb e (List.mem_cons_of_mem _ he))
        (fun e he => ha e (List.mem_cons_of_mem _ he)) hg' fun e he =>
          hi e (List.mem_cons_of_mem _ he)
      intro pre e post heq hbar hpre
      rcases List.append_eq_append_iff.1 heq with ⟨l, rfl, hds⟩ | ⟨l, hl, hds⟩
      · exact hrest l e post hds hbar fun f hf => hpre f (List.mem_append_right _ hf)
      · cases l with
        | nil => exact hrest [] e post hds.symm hbar fun f hf => absurd hf List.not_mem_nil
        | cons f l =>
          obtain ⟨rfl, -⟩ := List.cons.inj hds
          exact not_conflict h hd' (hi d' List.mem_cons_self) hc (hl ▸ by simp)

/-- **Only workgroups with a barrier between them conflict.** -/
theorem fenced_commands (hlaw : Glsl.Lawful K) (u : ℕ → Uninit K) {rs : List (Record S K)}
    (hb : ∀ d ∈ (groups rs).flatten, Built d) (ha : ∀ d ∈ (groups rs).flatten, Apart d)
    (hi : GroupsIndependent rs) : Fenced (commands u rs) := by
  induction rs with
  | nil =>
    intro i j c d _ hc
    simp [commands] at hc
  | cons r rs ih =>
    cases r with
    | barrier =>
      refine .cons (fun pre e post _ hbar => ?_) (ih hb ha fun g hg => ?_)
      · cases hbar
      · exact hi g (List.mem_cons_of_mem _ hg)
    | dispatch d =>
      obtain ⟨g, gs, hg⟩ := groups_ne_nil rs
      rw [flatten_groups_dispatch] at hb ha
      rw [GroupsIndependent, groups_dispatch d hg] at hi
      have hfirst := hi _ List.mem_cons_self
      rw [List.map_cons, List.pairwise_cons] at hfirst
      have hd := (hb d List.mem_cons_self).computed hlaw (ha d List.mem_cons_self) (u rs.length)
      have hb' := fun e he => hb e (List.mem_cons_of_mem _ he)
      have ha' := fun e he => ha e (List.mem_cons_of_mem _ he)
      refine .append hd.pairwise (fun c hc => ?_) (ih hb' ha' ?_)
      · exact clear_commands hlaw u hd hb' ha' hg
          (fun e he => hfirst.1 _ (List.mem_map_of_mem he)) hc
      · rw [GroupsIndependent, hg]
        intro g' hg'
        rcases List.mem_cons.1 hg' with rfl | hg'
        · exact hfirst.2
        · exact hi g' (List.mem_cons_of_mem _ hg')

omit [Glsl K] in
theorem inBounds_run {d d' : Dispatch S K} {mem : Mem S K} (hin : d.inBounds mem = true)
    (hin' : d'.inBounds mem = true) : d'.inBounds (d.toCommand.run mem) = true := by
  have hout : d.outLen ≤ (mem d.out).length := by
    rw [Dispatch.inBounds, Bool.and_eq_true] at hin
    exact of_decide_eq_true hin.2
  have hlen := Dispatch.length_run hout
  have hsize : Sized (fun s => (mem s).length) mem := fun s => rfl
  rwa [Yields.inBounds_congr hlen hsize]

theorem inOrder_commands (hlaw : Glsl.Lawful K) (u : ℕ → Uninit K) {rs : List (Record S K)}
    (hb : ∀ d ∈ (groups rs).flatten, Built d) (ha : ∀ d ∈ (groups rs).flatten, Apart d)
    {mem : Mem S K} (hin : ∀ d ∈ (groups rs).flatten, d.inBounds mem = true) {m' : Addr S → K} :
    InOrder (commands u rs) (flat mem) m' ↔
      m' = flat (runAll ((groups rs).flatten.map Dispatch.toCommand) mem) := by
  induction rs generalizing mem with
  | nil => exact Iff.rfl
  | cons r rs ih =>
    cases r with
    | barrier =>
      constructor
      · rintro ⟨m₁, ⟨l, -, hsteps⟩, hrest⟩
        have hstay := Proc.eq_of_done (p := (fence (S := S) (K := K)).proc) trivial hsteps
        obtain ⟨-, rfl⟩ := Prod.mk.inj hstay
        exact (ih hb ha hin).1 hrest
      · intro h
        exact ⟨flat mem, ⟨.none, trivial, .refl⟩, (ih hb ha hin).2 h⟩
    | dispatch d =>
      rw [flatten_groups_dispatch] at hb ha hin ⊢
      have hd := hb d List.mem_cons_self
      have hd' := ha d List.mem_cons_self
      have hd'' := hin d List.mem_cons_self
      have hrest := @ih (fun e he => hb e (List.mem_cons_of_mem _ he))
        (fun e he => ha e (List.mem_cons_of_mem _ he)) (d.toCommand.run mem)
        fun e he => inBounds_run hd'' (hin e (List.mem_cons_of_mem _ he))
      rw [commands, inOrder_append, List.map_cons, runAll_cons]
      constructor
      · rintro ⟨m₁, hfirst, hrun⟩
        rw [launch_inOrder hlaw hd hd' hd'' hfirst] at hrun
        exact hrest.1 hrun
      · intro h
        obtain ⟨m₁, hfirst⟩ :=
          exists_inOrder (hd.computed hlaw hd' (u rs.length)).exists_runs (flat mem)
        refine ⟨m₁, hfirst, ?_⟩
        rw [launch_inOrder hlaw hd hd' hd'' hfirst]
        exact hrest.2 h

/-- **Threads compute what the dispatches compute in order.** -/
theorem exec_commands (hlaw : Glsl.Lawful K) (u : ℕ → Uninit K) {rs : List (Record S K)}
    (hb : ∀ d ∈ (groups rs).flatten, Built d) (ha : ∀ d ∈ (groups rs).flatten, Apart d)
    (hi : GroupsIndependent rs) {mem : Mem S K}
    (hin : ∀ d ∈ (groups rs).flatten, d.inBounds mem = true) {m' : Addr S → K} :
    Exec (started (commands u rs)) (flat mem) m' ↔
      m' = flat (runAll ((groups rs).flatten.map Dispatch.toCommand) mem) :=
  (exec_iff_inOrder (fenced_commands hlaw u hb ha hi)).trans (inOrder_commands hlaw u hb ha hin)

/-- The executions of a command buffer that `submit_batch` accepts. -/
theorem exec_of_submitBatch (hlaw : Glsl.Lawful K) (σ : Schedule S (List K)) (u : ℕ → Uninit K)
    {rs : List (Record S K)} (hb : ∀ d ∈ (groups rs).flatten, Built d)
    (ha : ∀ d ∈ (groups rs).flatten, Apart d) (hi : GroupsIndependent rs) {mem mem' : Mem S K}
    (h : submitBatch σ rs mem = some mem') :
    (∃ m', Exec (started (commands u rs)) (flat mem) m') ∧
      ∀ m', Exec (started (commands u rs)) (flat mem) m' → m' = flat mem' := by
  have hin : ∀ d ∈ (groups rs).flatten, d.inBounds mem = true := by
    intro d hd
    obtain ⟨g, hg, hdg⟩ := List.mem_flatten.1 hd
    simp only [submitBatch] at h
    split_ifs at h with hall
    exact List.all_eq_true.1 (List.all_eq_true.1 hall g hg) d hdg
  rw [submitBatch_eq σ hin hi] at h
  obtain rfl := Option.some.inj h
  exact ⟨⟨_, (exec_commands hlaw u hb ha hi hin).2 rfl⟩,
    fun m' hrun => (exec_commands hlaw u hb ha hi hin).1 hrun⟩

/-- **Whatever overlaps, the buffers end as `submit_batch` says.**  A command buffer of dispatches
with the engine's push constants, whose sizes fit in 32 bits; none reads the buffer it writes, and
those between two barriers are independent.  The threads run to the end, with any contents of the
shared memory at the start, and every execution ends with the buffers of the model. -/
theorem submission_refines (hlaw : Glsl.Lawful K) (σ : Schedule S (List K)) (u : ℕ → Uninit K)
    (rs : List (Record S K)) (hb : ∀ d ∈ (groups rs).flatten, Built d)
    (ha : ∀ d ∈ (groups rs).flatten, Apart d) (hi : GroupsIndependent rs) (mem mem' : Mem S K)
    (h : submitBatch σ rs mem = some mem') :
    (∃ m', Exec (started (commands u rs)) (flat mem) m') ∧
      ∀ m', Exec (started (commands u rs)) (flat mem) m' → m' = flat mem' :=
  exec_of_submitBatch hlaw σ u hb ha hi h

end

/-! ### Two dispatches and a barrier -/

attribute [local instance] elementaryAtZero

/-- The functions of the shaders where the examples use them. -/
abbrev glslAtZero : Glsl ℚ where
  inversesqrt _ := 1
  sqrt2OverPi := 7978845608 / 10000000000

attribute [local instance] glslAtZero

theorem lawful_glslAtZero : Glsl.Lawful ℚ where
  inversesqrt _ := (div_one (1 : ℚ)).symm
  tanh _ := by
    change (0 : ℚ) = 1 - 2 / (1 + 1)
    norm_num
  sqrt2OverPi := rfl

/-- A sum, and its product with a resident weight behind the barrier. -/
def sumThenScale : List (Record (Fin 3) ℚ) :=
  [.dispatch (.add (.slot 0) (.slot 1) 2 (binaryElementwisePc 2)), .barrier,
    .dispatch (.mul (.slot 2) (.weight [3]) 0 (binaryBroadcastPc 2))]

theorem submission_refines_sumThenScale :
    ∃ mem', submitBatch ⟨id, .refl⟩ sumThenScale (fun s => [s.val, 10, 20]) = some mem' ∧
      mem' 0 = [3, 60, 20] ∧
      (∃ m', Exec (started (commands (fun _ => ⟨fun _ _ => 0, fun _ _ => 0⟩) sumThenScale))
        (flat fun s => [s.val, 10, 20]) m') ∧
      ∀ m', Exec (started (commands (fun _ => ⟨fun _ _ => 0, fun _ _ => 0⟩) sumThenScale))
        (flat fun s => [s.val, 10, 20]) m' → m' = flat mem' := by
  have hbuilt : ∀ d ∈ (groups sumThenScale).flatten, Built d := by
    rintro d (_ | ⟨_, _ | ⟨_, h⟩⟩)
    · exact .add _ _ _ (by decide) (by decide)
    · exact .mul _ _ _ (by decide) (by decide)
    · cases h
  have hapart : ∀ d ∈ (groups sumThenScale).flatten, Apart d := by
    rintro d (_ | ⟨_, _ | ⟨_, h⟩⟩)
    · simp [Apart, Dispatch.out, Dispatch.operands, Binding.slots]
    · simp [Apart, Dispatch.out, Dispatch.operands, Binding.slots]
    · cases h
  refine ⟨_, rfl, ?_, submission_refines lawful_glslAtZero ⟨id, .refl⟩
    (fun _ => ⟨fun _ _ => 0, fun _ _ => 0⟩) sumThenScale hbuilt hapart ?_ _ _ rfl⟩
  · decide +kernel
  · simp [sumThenScale, GroupsIndependent, groups]

end Shader

end VllmVulkan
