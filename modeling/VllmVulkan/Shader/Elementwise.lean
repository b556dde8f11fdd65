import VllmVulkan.Lib.Loops
import VllmVulkan.Shader.Launch

/-!
# The elementwise shaders

`add.comp`, `mul.comp`, `gelu.comp` and `tanh.comp`: one element for each invocation.  Indices are
32-bit words.

* `fastmod`, `fastdiv`, `getIndices`, `src0Idx`, `src1Idx`, `dstIdx` : the headers of the binary
  shaders;
* `binaryMain`, `unaryMain` : `main`, for an operation;
* `Glsl`, `geluValue`, `tanhValue` : the functions and literals of the shading language, and what
  the two unary shaders make of them;
* `fastmod_toNat` : `fastmod` is the remainder;
* `Invocations.computes` : **the workgroups of an elementwise shader compute its buffer**;
* `binary_invocations`, `unary_invocations` : the invocations of the four shaders.
-/

namespace VllmVulkan

namespace Shader

open Gemma4 Overlap VllmVulkan.Action Elementary

variable {S K : Type}

/-! ### The header of the binary shaders -/

/-- `fastmod`. -/
def fastmod (a b : UInt32) : UInt32 := if b &&& (b - 1) = 0 then a &&& (b - 1) else a % b

/-- `fastdiv`. -/
def fastdiv (a b : UInt32) : UInt32 := if a < b then 0 else a / b

/-- The coordinates of an element. -/
structure Indices where
  i00 : UInt32
  i01 : UInt32
  i02 : UInt32
  i03 : UInt32
  deriving DecidableEq

/-- `get_indices`; `ne03` is not read. -/
def getIndices (idx ne00 ne01 ne02 : UInt32) : Indices :=
  let i03 := fastdiv idx (ne02 * ne01 * ne00)
  let i03Offset := i03 * ne02 * ne01 * ne00
  let i02 := fastdiv (idx - i03Offset) (ne01 * ne00)
  let i02Offset := i02 * ne01 * ne00
  let i01 := (idx - i03Offset - i02Offset) / ne00
  let i00 := idx - i03Offset - i02Offset - i01 * ne00
  ⟨i00, i01, i02, i03⟩

/-- `get_idx`, of `gl_GlobalInvocationID`. -/
def getIdx (x y z : UInt32) : UInt32 := z * 262144 + y * 512 + x

section

variable (pc : BinaryHeadPc K)

/-- `get_aoffset`. -/
def getAoffset : UInt32 := pc.misalign.toUInt32 >>> 16

/-- `get_boffset`. -/
def getBoffset : UInt32 := (pc.misalign.toUInt32 >>> 8) &&& 0xFF

/-- `get_doffset`. -/
def getDoffset : UInt32 := pc.misalign.toUInt32 &&& 0xFF

/-- `src0_idx`. -/
def src0Idx (i : Indices) : UInt32 :=
  i.i03 * pc.nb03.toUInt32 + i.i02 * pc.nb02.toUInt32 + i.i01 * pc.nb01.toUInt32 +
    i.i00 * pc.nb00.toUInt32

/-- `src1_idx`; `norepeat` is false in every pipeline. -/
def src1Idx (i : Indices) : UInt32 :=
  fastmod i.i03 pc.ne13.toUInt32 * pc.nb13.toUInt32 +
    fastmod i.i02 pc.ne12.toUInt32 * pc.nb12.toUInt32 +
    fastmod i.i01 pc.ne11.toUInt32 * pc.nb11.toUInt32 +
    fastmod i.i00 pc.ne10.toUInt32 * pc.nb10.toUInt32

/-- `dst_idx`. -/
def dstIdx (i : Indices) : UInt32 :=
  i.i03 * pc.nb23.toUInt32 + i.i02 * pc.nb22.toUInt32 + i.i01 * pc.nb21.toUInt32 +
    i.i00 * pc.nb20.toUInt32

end

/-! ### The invocations -/

/-- The operands of an invocation. -/
structure Regs (K : Type) where
  a : K
  b : K

section

variable [Zero K]

/-- `main` of `add.comp` and `mul.comp`, by `gl_GlobalInvocationID.x`; the other coordinates are
zero in every dispatch. -/
def binaryMain (op : K → K → K) (pc : BinaryHeadPc K) (a b : Gemma4.Binding S K) (out : S)
    (x : UInt32) : List (Action (Regs K) (Addr S ⊕ Empty) K) :=
  let idx := getIdx x 0 0
  if idx < pc.ne.toUInt32 then
    let i := getIndices idx pc.ne00.toUInt32 pc.ne01.toUInt32 pc.ne02.toUInt32
    [load a (getAoffset pc + src0Idx pc i).toNat fun ℓ v => { ℓ with a := v },
      load b (getBoffset pc + src1Idx pc i).toNat fun ℓ v => { ℓ with b := v },
      .store (.inl (out, (getDoffset pc + dstIdx pc i).toNat)) fun ℓ => op ℓ.a ℓ.b]
  else []

/-- `main` of `gelu.comp` and `tanh.comp`. -/
def unaryMain (f : K → K) (pc : UnaryHeadPc) (data : Gemma4.Binding S K) (out : S) (x : UInt32) :
    List (Action (Regs K) (Addr S ⊕ Empty) K) :=
  let i : UInt32 := 0 * 65536 + 0 * 128 + x
  if i ≥ pc.kx.toUInt32 then []
  else
    [load data i.toNat fun ℓ v => { ℓ with a := v }, .store (.inl (out, i.toNat)) fun ℓ => f ℓ.a]

/-- A workgroup of an elementwise shader. -/
def elementwise (localSize : ℕ) (main : UInt32 → List (Action (Regs K) (Addr S ⊕ Empty) K))
    (x : ℕ) : Workgroup (Fin localSize) (Regs K) (Addr S) Empty K where
  locals _ := ⟨0, 0⟩
  shared e := e.elim
  phases := [fun tid => main (x * localSize + tid).toUInt32]

end

/-- What the shaders use beyond the functions of `f32`. -/
class Glsl (K : Type) where
  /-- `inversesqrt`. -/
  inversesqrt : K → K
  /-- `0.79788456080286535587989211986876f`. -/
  sqrt2OverPi : K

section

variable [Field K] [Elementary K] [Glsl K]

scoped instance geluCoefA_atLeastTwo : Nat.AtLeastTwo 44715 := ⟨Nat.le_add_left 2 44713⟩

/-- The value of `gelu.comp`. -/
def geluValue (xi : K) : K :=
  let geluCoefA := 44715 / 1000000
  let val := Glsl.sqrt2OverPi * xi * (1 + geluCoefA * xi * xi)
  1 / 2 * xi * (2 - 2 / (exp (2 * val) + 1))

/-- The value of `tanh.comp`. -/
def tanhValue (xi : K) : K := 1 - 2 / (exp (2 * xi) + 1)

/-- The shaders compute the functions that the CPU calls: `inversesqrt` is the inverse of the square
root, `tanh` is written with `exp`, and both literals of `√(2/π)` are the same `f32`. -/
structure Glsl.Lawful (K : Type) [Field K] [Elementary K] [Glsl K] : Prop where
  inversesqrt : ∀ x : K, Glsl.inversesqrt x = 1 / sqrt x
  tanh : ∀ x : K, Elementary.tanh x = 1 - 2 / (exp (2 * x) + 1)
  sqrt2OverPi : (Glsl.sqrt2OverPi : K) = 7978845608 / 10000000000

end

/-! ### Words -/

theorem toNat_toUInt32 {n : ℕ} (h : n < 2 ^ 32) : n.toUInt32.toNat = n :=
  (UInt32.toNat_ofNat).trans (Nat.mod_eq_of_lt h)

/-- **`fastmod` is the remainder.** -/
theorem fastmod_toNat (a b : UInt32) : (fastmod a b).toNat = a.toNat % b.toNat := by
  unfold fastmod
  by_cases hb : b = 0
  · -- the mask is all ones
    subst hb
    have hmask : (0 : UInt32) - 1 = 4294967295 := rfl
    rw [hmask, if_pos (UInt32.zero_and), UInt32.toNat_and]
    have hzero : a.toNat % (0 : UInt32).toNat = a.toNat := Nat.mod_zero _
    rw [hzero]
    exact (Nat.and_two_pow_sub_one_eq_mod a.toNat 32).trans (Nat.mod_eq_of_lt a.toNat_lt)
  · have hpos : b.toNat ≠ 0 := fun h => hb (UInt32.toNat_inj.1 h)
    have hsub : (b - 1).toNat = b.toNat - 1 := by
      refine UInt32.toNat_sub_of_le _ _ ?_
      rw [UInt32.le_iff_toNat_le]
      exact Nat.one_le_iff_ne_zero.2 hpos
    split_ifs with hmask
    · have hmask' : b.toNat &&& (b.toNat - 1) = 0 := by
        rw [← hsub, ← UInt32.toNat_and, hmask]
        rfl
      obtain ⟨k, hk⟩ := (Nat.and_sub_one_eq_zero_iff_isPowerOfTwo hpos).1 hmask'
      rw [UInt32.toNat_and, hsub, hk, Nat.and_two_pow_sub_one_eq_mod]
    · exact UInt32.toNat_mod a b

theorem getIndices_eq {idx ne00 : UInt32} (h : idx < ne00) :
    getIndices idx ne00 1 1 = ⟨idx, 0, 0, 0⟩ := by
  have hdiv : idx / ne00 = 0 := by
    rw [← UInt32.toNat_inj, UInt32.toNat_div]
    exact Nat.div_eq_of_lt (UInt32.lt_iff_toNat_lt.1 h)
  simp [getIndices, fastdiv, h, hdiv]

/-! ### Pointwise invocations -/

/-- The invocations behind the last element do nothing, and the others compute their element of
`out` from the buffers `slots`. -/
structure Invocations [DecidableEq S]
    (main : UInt32 → List (Action (Regs K) (Addr S ⊕ Empty) K)) (n : ℕ) (slots : List S) (out : S)
    (value : (Addr S → K) → ℕ → K) : Prop where
  tail : ∀ i < 2 ^ 32, n ≤ i → main i.toUInt32 = []
  reads : ∀ i < n, ∀ act ∈ main i.toUInt32, ∀ x ∈ act.reads, ∃ a, x = .inl a ∧ a.1 ∈ slots
  writes : ∀ i < n, ∀ act ∈ main i.toUInt32, ∀ x ∈ act.writes, x = .inl (out, i)
  value : ∀ i < n, ∀ ℓ m, (alone (main i.toUInt32) (ℓ, m)).2 (.inl (out, i)) =
    value (m ∘ Sum.inl) i

section

variable [Zero K] [DecidableEq S] {main : UInt32 → List (Action (Regs K) (Addr S ⊕ Empty) K)}
  {n : ℕ} {slots : List S} {out : S} {value : (Addr S → K) → ℕ → K}

theorem invocation_lt_of_grid {localSize x : ℕ} (hgrid : ceilDiv n localSize * localSize ≤ 2 ^ 32)
    (hx : x < ceilDiv n localSize) (tid : Fin localSize) : x * localSize + tid < 2 ^ 32 := by
  have hrow : (x + 1) * localSize ≤ ceilDiv n localSize * localSize := Nat.mul_le_mul_right _ hx
  rw [Nat.succ_mul] at hrow
  have htid := tid.isLt
  omega

/-- **The workgroups of an elementwise shader compute its buffer.** -/
theorem Invocations.computes {L : Type} {localSize : ℕ} (h : Invocations main n slots out value)
    (hout : out ∉ slots) (hlocal : 0 < localSize)
    (hgrid : ceilDiv n localSize * localSize ≤ 2 ^ 32)
    {f : Workgroup (Fin localSize) (Regs K) (Addr S) Empty K → L} (hf : Function.Injective f) :
    Computes (ceilDiv n localSize)
      (fun x => ⟨(elementwise localSize main x).proc.via f hf, false⟩) slots out n
      (fun i => i / localSize) value where
  barrier _ := rfl
  loads := by
    rintro x hx a ⟨ph, hph, tid, act, hact, ha⟩
    obtain rfl := List.mem_singleton.1 hph
    by_cases hi : x * localSize + tid < n
    · obtain ⟨a', heq, hslot⟩ := h.reads _ hi act hact _ ha
      obtain rfl := Sum.inl.inj heq
      exact hslot
    · dsimp only at hact
      rw [h.tail _ (invocation_lt_of_grid hgrid hx tid) (Nat.le_of_not_lt hi)] at hact
      cases hact
  stores := by
    rintro x hx a ⟨ph, hph, tid, act, hact, ha⟩
    obtain rfl := List.mem_singleton.1 hph
    by_cases hi : x * localSize + tid < n
    · obtain rfl := Sum.inl.inj (h.writes _ hi act hact _ ha)
      refine ⟨rfl, hi, ?_⟩
      rw [Nat.mul_comm, Nat.mul_add_div hlocal, Nat.div_eq_of_lt tid.isLt, Nat.add_zero]
    · dsimp only at hact
      rw [h.tail _ (invocation_lt_of_grid hgrid hx tid) (Nat.le_of_not_lt hi)] at hact
      cases hact
  owner_lt i hi := by
    rw [lt_ceilDiv_iff hlocal]
    exact (Nat.div_mul_le_self i localSize).trans_lt hi
  exists_runs x m := by
    obtain ⟨m', hm'⟩ := (elementwise localSize main x).exists_runs m
    exact ⟨m', (Proc.runs_via hf).2 hm'⟩
  runs := by
    intro i hi m m' hrun
    obtain ⟨ℓ', sh', ℓ₁, m₁, hphase, rfl, rfl⟩ :=
      Workgroup.runs_iff.1 ((Proc.runs_via hf).1 hrun)
    have hx : i / localSize < ceilDiv n localSize := by
      rw [lt_ceilDiv_iff hlocal]
      exact (Nat.div_mul_le_self i localSize).trans_lt hi
    -- every invocation stores its own element, and nobody reads the output
    have hrace : RaceFree
        (fun tid : Fin localSize => main (i / localSize * localSize + tid).toUInt32)
        (fun _ => {x | ∃ a, x = .inl a ∧ a.1 ∈ slots})
        (fun tid => {x | x = .inl (out, i / localSize * localSize + tid)}) := by
      constructor
      · intro tid act hact
        by_cases hlt : i / localSize * localSize + tid < n
        · exact within_of_subset (h.reads _ hlt act hact) (h.writes _ hlt act hact)
        · rw [h.tail _ (invocation_lt_of_grid hgrid hx tid) (Nat.le_of_not_lt hlt)] at hact
          cases hact
      · rintro tid tid' hne x rfl (⟨a, heq, hslot⟩ | heq)
        · obtain rfl := Sum.inl.inj heq
          exact hout hslot
        · have hidx := (Prod.mk.inj (Sum.inl.inj heq)).2
          exact hne (Fin.ext (Nat.add_left_cancel hidx))
    obtain ⟨-, hmem, -⟩ := hphase.eq_alone hrace
    have hi' : i / localSize * localSize + i % localSize = i := Nat.div_add_mod' i localSize
    have hcell := hmem ⟨i % localSize, Nat.mod_lt i hlocal⟩ (.inl (out, i))
      (.inr (congrArg (fun j => Sum.inl (out, j)) hi'.symm))
    rw [Sum.elim_inl] at hcell
    rw [hcell]
    dsimp only
    rw [hi', h.value i hi]
    rfl

end

/-! ### The four shaders -/

section

variable [Field K] [DecidableEq S]

omit [DecidableEq S] in
/-- An invocation of a binary shader with the constants the engine passes. -/
theorem binaryMain_eq (op : K → K → K) {n bLen : ℕ} (param1 : K) (a b : Gemma4.Binding S K)
    (out : S) (hn : n < 2 ^ 32) (hb : bLen < 2 ^ 32) {i : ℕ} (hi : i < 2 ^ 32) :
    binaryMain op (binaryHeadPc n bLen param1) a b out i.toUInt32 = if i < n then
      [load a i fun ℓ v => { ℓ with a := v }, load b (i % bLen) fun ℓ v => { ℓ with b := v },
        .store (.inl (out, i)) fun ℓ => op ℓ.a ℓ.b] else [] := by
  have hidx : getIdx i.toUInt32 0 0 = i.toUInt32 := by simp [getIdx]
  have hlt : i.toUInt32 < n.toUInt32 ↔ i < n := by
    rw [UInt32.lt_iff_toNat_lt, toNat_toUInt32 hi, toNat_toUInt32 hn]
  simp only [binaryMain, hidx, binaryHeadPc, hlt]
  split_ifs with hin
  · have hind := getIndices_eq (hlt.2 hin)
    have hone : (1 : ℕ).toUInt32 = 1 := rfl
    have hzero : fastmod 0 1 = 0 := rfl
    have hmod : (fastmod i.toUInt32 bLen.toUInt32).toNat = i % bLen := by
      rw [fastmod_toNat, toNat_toUInt32 hi, toNat_toUInt32 hb]
    have ha : (getAoffset (binaryHeadPc n bLen param1) +
        src0Idx (binaryHeadPc n bLen param1) ⟨i.toUInt32, 0, 0, 0⟩).toNat = i := by
      simp [getAoffset, src0Idx, binaryHeadPc, hone, toNat_toUInt32 hi]
    have hb' : (getBoffset (binaryHeadPc n bLen param1) +
        src1Idx (binaryHeadPc n bLen param1) ⟨i.toUInt32, 0, 0, 0⟩).toNat = i % bLen := by
      simp [getBoffset, src1Idx, binaryHeadPc, hone, hzero, hmod]
    have hd : (getDoffset (binaryHeadPc n bLen param1) +
        dstIdx (binaryHeadPc n bLen param1) ⟨i.toUInt32, 0, 0, 0⟩).toNat = i := by
      simp [getDoffset, dstIdx, binaryHeadPc, hone, toNat_toUInt32 hi]
    rw [hone, hind]
    rw [binaryHeadPc] at ha hb' hd
    rw [ha, hb', hd]
  · rfl

theorem binary_invocations (op : K → K → K) {n bLen : ℕ} (param1 : K) (a b : Gemma4.Binding S K)
    (out : S) (hn : n < 2 ^ 32) (hb : bLen < 2 ^ 32) :
    Invocations (binaryMain op (binaryHeadPc n bLen param1) a b out) n (a.slots ++ b.slots) out
      fun m i => op (view a m i) (view b m (i % bLen)) where
  tail i hi hni := by
    rw [binaryMain_eq op param1 a b out hn hb hi, if_neg (Nat.not_lt.2 hni)]
  reads i hi act hact x hx := by
    rw [binaryMain_eq op param1 a b out hn hb (hi.trans hn), if_pos hi] at hact
    simp only [List.mem_cons, List.not_mem_nil, or_false] at hact
    obtain rfl | rfl | rfl := hact
    · obtain ⟨s, hs, rfl⟩ := mem_reads_load hx
      exact ⟨_, rfl, List.mem_append_left _ hs⟩
    · obtain ⟨s, hs, rfl⟩ := mem_reads_load hx
      exact ⟨_, rfl, List.mem_append_right _ hs⟩
    · cases hx
  writes i hi act hact x hx := by
    rw [binaryMain_eq op param1 a b out hn hb (hi.trans hn), if_pos hi] at hact
    simp only [List.mem_cons, List.not_mem_nil, or_false] at hact
    obtain rfl | rfl | rfl := hact
    · simp at hx
    · simp at hx
    · exact hx
  value i hi ℓ m := by
    rw [binaryMain_eq op param1 a b out hn hb (hi.trans hn), if_pos hi]
    simp only [alone_cons, alone_nil, exec_load]
    exact Function.update_self ..

omit [DecidableEq S] in
theorem unaryMain_eq (f : K → K) {n : ℕ} (data : Gemma4.Binding S K) (out : S) (hn : n < 2 ^ 32)
    {i : ℕ} (hi : i < 2 ^ 32) : unaryMain f (unaryHeadPc n) data out i.toUInt32 = if i < n then
      [load data i fun ℓ v => { ℓ with a := v }, .store (.inl (out, i)) fun ℓ => f ℓ.a]
    else [] := by
  have hidx : (0 : UInt32) * 65536 + 0 * 128 + i.toUInt32 = i.toUInt32 := by simp
  have hge : i.toUInt32 ≥ n.toUInt32 ↔ ¬ i < n := by
    rw [ge_iff_le, UInt32.le_iff_toNat_le, toNat_toUInt32 hi, toNat_toUInt32 hn, Nat.not_lt]
  simp only [unaryMain, unaryHeadPc, hidx, hge, toNat_toUInt32 hi, ite_not]

theorem unary_invocations (f : K → K) {n : ℕ} (data : Gemma4.Binding S K) (out : S)
    (hn : n < 2 ^ 32) : Invocations (unaryMain f (unaryHeadPc n) data out) n data.slots out
      fun m i => f (view data m i) where
  tail i hi hni := by rw [unaryMain_eq f data out hn hi, if_neg (Nat.not_lt.2 hni)]
  reads i hi act hact x hx := by
    rw [unaryMain_eq f data out hn (hi.trans hn), if_pos hi] at hact
    simp only [List.mem_cons, List.not_mem_nil, or_false] at hact
    obtain rfl | rfl := hact
    · obtain ⟨s, hs, rfl⟩ := mem_reads_load hx
      exact ⟨_, rfl, hs⟩
    · cases hx
  writes i hi act hact x hx := by
    rw [unaryMain_eq f data out hn (hi.trans hn), if_pos hi] at hact
    simp only [List.mem_cons, List.not_mem_nil, or_false] at hact
    obtain rfl | rfl := hact
    · simp at hx
    · exact hx
  value i hi ℓ m := by
    rw [unaryMain_eq f data out hn (hi.trans hn), if_pos hi]
    simp only [alone_cons, alone_nil, exec_load]
    exact Function.update_self ..

variable [Elementary K] [Glsl K]

omit [DecidableEq S] in
/-- `gelu.comp` computes the approximation that `cpu_gelu` computes. -/
theorem geluValue_eq (h : Glsl.Lawful K) (xi : K) : geluValue xi = gelu xi := by
  have hinner : (2 : K) * (Glsl.sqrt2OverPi * xi * (1 + 44715 / 1000000 * xi * xi)) =
      2 * (7978845608 / 10000000000 * (xi + 44715 / 1000000 * xi * xi * xi)) := by
    rw [h.sqrt2OverPi]
    ring
  simp only [geluValue, gelu, h.tanh, hinner]
  ring

end

end Shader

end VllmVulkan
