import VllmVulkan.Parallel.Shards

/-!
# Ranks in lockstep

One call of a hooked module on all the ranks of a group.  Every rank computes on the GPU or falls
back to the original `forward`, and they need not go the same way.

* `RowCall`, `ColumnCall`, `MlpCall` : a call of a row-parallel layer, of a column-parallel one that
  gathers its output, and of an MLP block, with what is assumed of the original `forward`;
* `RowCall.agrees_iff` : **when the ranks of a row-parallel layer agree**;
* `ColumnCall.agrees`, `MlpCall.agrees` : the others always do;
* `calls_agree_iff` : the three together;
* `mixed_ranks_disagree` : two ranks that go different ways, and a bias.
-/

namespace VllmVulkan

namespace Parallel

open Collectives Finset

variable {T R : Type} [CommRing R] {n : ℕ}

/-- The ranks take part in one collective, of the given kind, and each returns the given tensor. -/
def Agrees {A : Type} (result : A → Rows T R) (ps : Fin n → Rank T R A) (kind : Collective)
    (full : Rows T R) : Prop :=
  Lockstep exchange ps [kind] fun outs => ∀ r, result (outs r) = full

/-! ### Row-parallel layers -/

/-- A call of a row-parallel layer, on all ranks. -/
structure RowCall (n : ℕ) (T R : Type) [CommRing R] where
  module : Fin (n + 2) → LinearModule R
  env : Fin (n + 2) → LinearEnv
  input : Fin (n + 2) → Rows T R
  orig : Fin (n + 2) → Rows T R → Rank T R (Output T R)
  outFeatures : ℕ
  bias : Option (List R)
  skipBiasAdd : Bool
  reduceResults : ∀ r, (module r).reduceResults = true
  tpSize : ∀ r, (module r).tpSize = n + 2
  bias_eq : ∀ r, (module r).bias = bias
  skipBiasAdd_eq : ∀ r, (module r).skipBiasAdd = skipBiasAdd
  shards : ColumnShards input (fun r => (module r).weight) outFeatures
  bias_fits : BiasFits outFeatures bias
  /-- The original `forward`: the bias is added to the partial product of rank 0, before the one
  all-reduce. -/
  origForward : ∀ r, ∃ out : Rows T R → Output T R, (∀ y, (out y).result = y) ∧
    orig r (input r) = .collective .allReduce
      (linear (input r) (module r).weight (if r = 0 ∧ ¬ skipBiasAdd then bias else none))
      fun y => .ret (out y)

namespace RowCall

variable (c : RowCall n T R)

/-- The programs of the ranks. -/
def programs (r : Fin (n + 2)) : Rank T R (Output T R) :=
  vkForward (c.module r) (c.env r) (c.orig r) (c.input r)

/-- Rank `r` computes on the GPU. -/
def isHooked (r : Fin (n + 2)) : Bool := hooked (c.module r) (c.env r)

/-- The bias that is to be added. -/
def addedBias : Option (List R) := if c.skipBiasAdd then none else c.bias

/-- `x W^T` of the whole input and the whole weight, and the bias if it is not skipped. -/
def full : Rows T R :=
  linear (concat c.input) (stackColumns c.outFeatures fun r => (c.module r).weight) c.addedBias

/-- Every rank goes the same way, or the bias adds nothing, or there is no token. -/
def Uniform : Prop :=
  (∀ r, c.isHooked r = c.isHooked 0) ∨ (∀ b, c.addedBias = some b → ∀ v ∈ b, v = 0) ∨ IsEmpty T

theorem addedBias_fits : BiasFits c.outFeatures c.addedBias := by
  intro b hb
  unfold addedBias at hb
  split_ifs at hb
  exact c.bias_fits b hb

theorem rowReduce (r : Fin (n + 2)) : (c.module r).rowReduce = true := by
  have hlt : n + 2 > 1 := by omega
  simp [LinearModule.rowReduce, c.reduceResults r, c.tpSize r, hlt]

/-- What rank `r` adds to its partial product. -/
def shareBias (r : Fin (n + 2)) : Option (List R) :=
  if c.isHooked r = false ∧ r = 0 then c.addedBias else none

/-- What rank `r` adds to the sum. -/
def lateBias (r : Fin (n + 2)) : Option (List R) := if c.isHooked r then c.addedBias else none

/-- **The program of a rank**: one all-reduce, with a bias before it, after it, or never. -/
theorem exists_program (r : Fin (n + 2)) : ∃ out : Rows T R → Output T R,
    (∀ y t, (out y).result t = addRow (y t) (c.lateBias r)) ∧ c.programs r =
      .collective .allReduce (linear (c.input r) (c.module r).weight (c.shareBias r))
        fun y => .ret (out y) := by
  have hskip := c.skipBiasAdd_eq r
  have hbias := c.bias_eq r
  by_cases h : hooked (c.module r) (c.env r) = true
  · have hadd : (if (c.module r).skipBiasAdd then none else (c.module r).bias) = c.addedBias := by
      rw [hskip, hbias]
      rfl
    refine ⟨fun y => (c.module r).output fun t => addRow (y t) c.addedBias, fun y t => ?_, ?_⟩
    · have hlate : c.lateBias r = c.addedBias := if_pos h
      rw [LinearModule.output_result, hlate]
    · have hshare : c.shareBias r = none := by simp [shareBias, isHooked, h]
      rw [programs, vkForward_eq, if_pos h, if_pos (c.rowReduce r), hadd, hshare]
  · obtain ⟨out, hout, horig⟩ := c.origForward r
    refine ⟨out, fun y t => ?_, ?_⟩
    · have hlate : c.lateBias r = none := if_neg h
      rw [hout, hlate, addRow]
    · have hshare : c.shareBias r = if r = 0 ∧ ¬ c.skipBiasAdd then c.bias else none := by
        rw [Bool.not_eq_true] at h
        simp only [shareBias, isHooked, h, true_and, addedBias]
        by_cases hr : r = 0 <;> cases c.skipBiasAdd <;> simp [hr]
      rw [programs, vkForward_eq, if_neg h, horig, hshare]

theorem sum_shareBias (o : ℕ) : ∑ r, biasAt (c.shareBias r) o =
    if c.isHooked 0 then 0 else biasAt c.addedBias o := by
  rw [Finset.sum_eq_single_of_mem (0 : Fin (n + 2)) (mem_univ _)]
  · cases h : c.isHooked 0 <;> simp [shareBias, h, biasAt]
  · intro r _ hr
    simp [shareBias, hr, biasAt]

/-- What rank `r` returns. -/
def returned (r : Fin (n + 2)) (t : T) : List R :=
  (List.range c.outFeatures).map fun o =>
    ∑ r, dot (c.input r t) ((c.module r).weight.getD o []) +
      ((if c.isHooked 0 then 0 else biasAt c.addedBias o) +
        if c.isHooked r then biasAt c.addedBias o else 0)

theorem full_eq (t : T) : c.full t = (List.range c.outFeatures).map fun o =>
    ∑ r, dot (c.input r t) ((c.module r).weight.getD o []) + biasAt c.addedBias o :=
  linear_concat c.shards c.addedBias_fits t

theorem exists_runs : ∃ outs, Runs exchange c.programs [.allReduce] outs ∧
    ∀ r, (outs r).result = c.returned r := by
  choose out hout hprog using c.exists_program
  refine ⟨_, runs_one hprog, fun r => funext fun t => ?_⟩
  have hfits : ∀ r, BiasFits c.outFeatures (c.shareBias r) := by
    intro r b hb
    unfold shareBias at hb
    split_ifs at hb
    exact c.addedBias_fits b hb
  have hlate : BiasFits c.outFeatures (c.lateBias r) := by
    intro b hb
    unfold lateBias at hb
    split_ifs at hb
    exact c.addedBias_fits b hb
  rw [hout, allReduce_linear c.shards hfits, addRow_map_range _ hlate, returned]
  refine List.map_congr_left ?_
  intro o _
  rw [c.sum_shareBias, add_assoc]
  cases h : c.isHooked r <;> simp [lateBias, h, biasAt]

/-- What a rank returns is the whole product exactly when it goes the way of rank 0 or the bias adds
nothing. -/
theorem returned_eq_full_iff (r : Fin (n + 2)) (t : T) : c.returned r t = c.full t ↔
    c.isHooked r = c.isHooked 0 ∨ ∀ o < c.outFeatures, biasAt c.addedBias o = 0 := by
  rw [full_eq, returned, List.map_inj_left]
  constructor
  · intro h
    by_cases heq : c.isHooked r = c.isHooked 0
    · exact .inl heq
    · refine .inr ?_
      intro o ho
      have ho' := h o (List.mem_range.2 ho)
      rw [add_right_inj] at ho'
      cases h₀ : c.isHooked 0 <;> cases hr : c.isHooked r <;> simp_all
  · rintro (heq | hzero) o ho
    · rw [heq]
      cases c.isHooked 0 <;> simp
    · rw [hzero o (List.mem_range.1 ho)]
      simp

theorem biasAt_zero_iff : (∀ o < c.outFeatures, biasAt c.addedBias o = 0) ↔
    ∀ b, c.addedBias = some b → ∀ v ∈ b, v = 0 := by
  constructor
  · intro h b hb v hv
    obtain ⟨o, ho, rfl⟩ := List.getElem_of_mem hv
    have hz := h o (by rw [← c.addedBias_fits b hb]; exact ho)
    rw [hb, biasAt, List.getD_eq_getElem?_getD, List.getElem?_eq_getElem ho] at hz
    exact hz
  · intro h o ho
    cases hb : c.addedBias with
    | none => rfl
    | some b =>
      have hlt : o < b.length := by rw [c.addedBias_fits b hb]; exact ho
      rw [biasAt, List.getD_eq_getElem?_getD, List.getElem?_eq_getElem hlt]
      exact h b hb _ (List.getElem_mem hlt)

/-- **When the ranks of a row-parallel layer agree.** -/
theorem agrees_iff : Agrees Output.result c.programs .allReduce c.full ↔ c.Uniform := by
  obtain ⟨outs, hruns, hres⟩ := c.exists_runs
  rw [Agrees, lockstep_iff hruns, Uniform, ← c.biasAt_zero_iff]
  simp only [hres]
  constructor
  · intro h
    by_cases hT : IsEmpty T
    · exact .inr (.inr hT)
    · obtain ⟨t⟩ := not_isEmpty_iff.1 hT
      by_cases hz : ∀ o < c.outFeatures, biasAt c.addedBias o = 0
      · exact .inr (.inl hz)
      · refine .inl ?_
        intro r
        exact ((c.returned_eq_full_iff r t).1 (congrFun (h r) t)).resolve_right hz
  · rintro (h | hz | hT) r
    · exact funext fun t => (c.returned_eq_full_iff r t).2 (.inl (h r))
    · exact funext fun t => (c.returned_eq_full_iff r t).2 (.inr hz)
    · exact funext fun t => (hT.false t).elim

end RowCall

/-! ### Column-parallel layers -/

/-- A call of a column-parallel layer that gathers its output, on all ranks. -/
structure ColumnCall (n : ℕ) (T R : Type) [CommRing R] where
  module : Fin (n + 2) → LinearModule R
  env : Fin (n + 2) → LinearEnv
  input : Rows T R
  orig : Fin (n + 2) → Rows T R → Rank T R (Output T R)
  /-- The shards of the bias, if there is one. -/
  bias : Option (Fin (n + 2) → List R)
  skipBiasAdd : Bool
  reduceResults : ∀ r, (module r).reduceResults = false
  gatherOutput : ∀ r, (module r).gatherOutput = true
  tpSize : ∀ r, (module r).tpSize = n + 2
  bias_eq : ∀ r, (module r).bias = bias.map (· r)
  skipBiasAdd_eq : ∀ r, (module r).skipBiasAdd = skipBiasAdd
  bias_fits : ∀ r, BiasFits (module r).weight.length (module r).bias
  /-- The original `forward`: every rank adds its shard of the bias, before the one all-gather. -/
  origForward : ∀ r, ∃ out : Rows T R → Output T R, (∀ y, (out y).result = y) ∧
    orig r input = .collective .allGather
      (linear input (module r).weight (if skipBiasAdd then none else (module r).bias))
      fun y => .ret (out y)

namespace ColumnCall

variable (c : ColumnCall n T R)

/-- The programs of the ranks. -/
def programs (r : Fin (n + 2)) : Rank T R (Output T R) :=
  vkForward (c.module r) (c.env r) (c.orig r) c.input

/-- `x W^T` of the whole weight, and the bias if it is not skipped. -/
def full : Rows T R :=
  linear c.input (List.ofFn fun r => (c.module r).weight).flatten
    (if c.skipBiasAdd then none else c.bias.map fun b => (List.ofFn b).flatten)

/-- **The program of a rank** is the same on both ways. -/
theorem exists_program (r : Fin (n + 2)) : ∃ out : Rows T R → Output T R,
    (∀ y, (out y).result = y) ∧ c.programs r = .collective .allGather
      (linear c.input (c.module r).weight (if c.skipBiasAdd then none else (c.module r).bias))
      fun y => .ret (out y) := by
  have hgather : (c.module r).gathers = true := by
    have hlt : n + 2 > 1 := by omega
    simp [LinearModule.gathers, c.gatherOutput r, c.tpSize r, hlt]
  have hreduce : ¬ (c.module r).rowReduce = true := by
    simp [LinearModule.rowReduce, c.reduceResults r]
  by_cases h : hooked (c.module r) (c.env r) = true
  · refine ⟨(c.module r).output, LinearModule.output_result _, ?_⟩
    rw [programs, vkForward_eq, if_pos h, if_neg hreduce, if_pos hgather, c.skipBiasAdd_eq]
  · obtain ⟨out, hout, horig⟩ := c.origForward r
    exact ⟨out, hout, by rw [programs, vkForward_eq, if_neg h, horig]⟩

/-- **The ranks of a column-parallel layer agree.** -/
theorem agrees : Agrees Output.result c.programs .allGather c.full := by
  choose out hout hprog using c.exists_program
  rw [Agrees, lockstep_iff (runs_one hprog)]
  intro r
  rw [hout]
  funext t
  unfold full
  cases hskip : c.skipBiasAdd with
  | true => exact allGather_linear c.input _ t
  | false =>
    cases hbias : c.bias with
    | none =>
      have hnone : ∀ r, (c.module r).bias = none := fun r => by rw [c.bias_eq, hbias]; rfl
      simp only [hnone]
      exact allGather_linear c.input _ t
    | some b =>
      have hsome : ∀ r, (c.module r).bias = some (b r) := fun r => by rw [c.bias_eq, hbias]; rfl
      simp only [hsome]
      exact allGather_linear_bias c.input _ b (fun r => c.bias_fits r _ (hsome r)) t

end ColumnCall

/-! ### MLP blocks -/

/-- A call of an MLP block, on all ranks. -/
structure MlpCall (n : ℕ) (T R : Type) [CommRing R] where
  silu : R → R
  gateUpProj : Fin (n + 2) → LinearModule R
  downProj : Fin (n + 2) → LinearModule R
  env : Fin (n + 2) → MlpEnv
  gateUpEnv : Fin (n + 2) → LinearEnv
  downEnv : Fin (n + 2) → LinearEnv
  input : Rows T R
  orig : Fin (n + 2) → Rows T R → Rank T R (Rows T R)
  gateUpOrig : Fin (n + 2) → Rows T R → Rank T R (Output T R)
  downOrig : Fin (n + 2) → Rows T R → Rank T R (Output T R)
  /-- The shards of the two halves of the merged weight. -/
  gate : Fin (n + 2) → List (List R)
  up : Fin (n + 2) → List (List R)
  outFeatures : ℕ
  wraps : ∀ r, wrapsSwigluMlp (gateUpProj r) (downProj r) = true
  gateUpReduce : ∀ r, (gateUpProj r).reduceResults = false
  downReduce : ∀ r, (downProj r).reduceResults = true
  downTpSize : ∀ r, (downProj r).tpSize = n + 2
  gateUpWeight : ∀ r, (gateUpProj r).weight = gate r ++ up r
  halves : ∀ r, (gate r).length = (up r).length
  down_length : ∀ r, (downProj r).weight.length = outFeatures
  down_row : ∀ r, ∀ row ∈ (downProj r).weight, row.length = (gate r).length
  /-- The original `forward` of the block calls the `forward` of the two modules, which are hooked
  themselves, with the activation in between. -/
  origForward : ∀ r, orig r input =
    (vkForward (gateUpProj r) (gateUpEnv r) (gateUpOrig r) input).bind fun y =>
      (vkForward (downProj r) (downEnv r) (downOrig r)
        fun t => siluAndMul silu (y.result t)).bind fun z => .ret z.result
  /-- The original `forward` of `gate_up_proj`, which does not gather. -/
  gateUpForward : ∀ r x, ∃ out : Rows T R → Output T R, (∀ y, (out y).result = y) ∧
    gateUpOrig r x = .ret (out (linear x (gateUpProj r).weight none))
  /-- The original `forward` of `down_proj`, which has no bias. -/
  downForward : ∀ r x, ∃ out : Rows T R → Output T R, (∀ y, (out y).result = y) ∧
    downOrig r x = .collective .allReduce (linear x (downProj r).weight none)
      fun y => .ret (out y)

namespace MlpCall

variable (c : MlpCall n T R)

/-- The programs of the ranks. -/
def programs (r : Fin (n + 2)) : Rank T R (Rows T R) :=
  vkMlpForward c.silu (c.gateUpProj r) (c.downProj r) (c.env r) (c.orig r) c.input

/-- The MLP of the whole weights. -/
def full : Rows T R :=
  fusedSwigluMlp c.silu c.input ((List.ofFn c.gate).flatten ++ (List.ofFn c.up).flatten)
    (stackColumns c.outFeatures fun r => (c.downProj r).weight)

/-- The activation of rank `r`. -/
def activation (r : Fin (n + 2)) : Rows T R :=
  fun t => siluAndMul c.silu (linear c.input (c.gateUpProj r).weight none t)

theorem gateUp_bias (r : Fin (n + 2)) : (c.gateUpProj r).bias = none := by
  have h := c.wraps r
  simp only [wrapsSwigluMlp, Bool.and_eq_true, Option.isNone_iff_eq_none] at h
  exact h.1.1

theorem down_bias (r : Fin (n + 2)) : (c.downProj r).bias = none := by
  have h := c.wraps r
  simp only [wrapsSwigluMlp, Bool.and_eq_true, Option.isNone_iff_eq_none] at h
  exact h.1.2

theorem rowReduce (r : Fin (n + 2)) : (c.downProj r).rowReduce = true := by
  have hlt : n + 2 > 1 := by omega
  simp [LinearModule.rowReduce, c.downReduce r, c.downTpSize r, hlt]

/-- `gate_up_proj` returns without a collective, on both ways. -/
theorem exists_gateUp (r : Fin (n + 2)) : ∃ out : Output T R,
    out.result = linear c.input (c.gateUpProj r).weight none ∧
      vkForward (c.gateUpProj r) (c.gateUpEnv r) (c.gateUpOrig r) c.input = .ret out := by
  have hreduce : ¬ (c.gateUpProj r).rowReduce = true := by
    simp [LinearModule.rowReduce, c.gateUpReduce r]
  have hgather : ¬ (c.gateUpProj r).gathers = true := by
    have h := c.wraps r
    simp only [wrapsSwigluMlp, Bool.and_eq_true, Bool.not_eq_true'] at h
    simp [h.2]
  by_cases h : hooked (c.gateUpProj r) (c.gateUpEnv r) = true
  · refine ⟨(c.gateUpProj r).output (linear c.input (c.gateUpProj r).weight none),
      LinearModule.output_result _ _, ?_⟩
    rw [vkForward_eq, if_pos h, if_neg hreduce, if_neg hgather, c.gateUp_bias, ite_self]
  · obtain ⟨out, hout, horig⟩ := c.gateUpForward r c.input
    exact ⟨_, hout _, by rw [vkForward_eq, if_neg h, horig]⟩

/-- `down_proj` takes part in one all-reduce, on both ways. -/
theorem exists_down (r : Fin (n + 2)) (x : Rows T R) : ∃ out : Rows T R → Output T R,
    (∀ y, (out y).result = y) ∧ vkForward (c.downProj r) (c.downEnv r) (c.downOrig r) x =
      .collective .allReduce (linear x (c.downProj r).weight none) fun y => .ret (out y) := by
  by_cases h : hooked (c.downProj r) (c.downEnv r) = true
  · refine ⟨fun y => (c.downProj r).output fun t => y t, LinearModule.output_result _, ?_⟩
    rw [vkForward_eq, if_pos h, if_pos (c.rowReduce r), c.down_bias, ite_self]
    rfl
  · obtain ⟨out, hout, horig⟩ := c.downForward r x
    exact ⟨out, hout, by rw [vkForward_eq, if_neg h, horig]⟩

/-- **The program of a rank** is the same on all its ways. -/
theorem programs_eq (r : Fin (n + 2)) : c.programs r =
    .collective .allReduce (linear (c.activation r) (c.downProj r).weight none) .ret := by
  obtain hfused | horig := vkMlpForward_eq c.silu (c.gateUpProj r) (c.downProj r) (c.env r)
    (c.orig r) c.input (c.rowReduce r)
  · exact hfused
  · obtain ⟨out, hout, hgateUp⟩ := c.exists_gateUp r
    have hact : (fun t => siluAndMul c.silu (out.result t)) = c.activation r := by
      rw [hout]
      rfl
    obtain ⟨down, hdown, hforward⟩ := c.exists_down r (c.activation r)
    rw [programs, horig, c.origForward, hgateUp, Prog.ret_bind, hact, hforward,
      Prog.collective_bind]
    simp only [Prog.ret_bind, hdown]

theorem shards : ColumnShards c.activation (fun r => (c.downProj r).weight) c.outFeatures := by
  refine ⟨c.down_length, fun r t row hrow => ?_⟩
  have hhalves := c.halves r
  rw [c.down_row r row hrow, activation, siluAndMul, linear, addRow, c.gateUpWeight]
  simp only [List.length_zipWith, List.length_take, List.length_drop, List.length_map,
    List.length_append]
  omega

/-- **The ranks of an MLP block agree.** -/
theorem agrees : Agrees id c.programs .allReduce c.full := by
  rw [Agrees, lockstep_iff (runs_one c.programs_eq)]
  intro r
  funext t
  have hact : (fun t => siluAndMul c.silu (linear c.input
      ((List.ofFn c.gate).flatten ++ (List.ofFn c.up).flatten) none t)) = concat c.activation := by
    funext t
    rw [siluAndMul_concat c.silu c.input c.gate c.up c.halves t, concat, concat]
    simp only [activation, c.gateUpWeight]
  have hnone : BiasFits c.outFeatures (none : Option (List R)) := fun b hb => by cases hb
  rw [full, fusedSwigluMlp, hact, linear_concat c.shards hnone]
  refine (allReduce_linear c.shards (fun _ => hnone) t).trans (List.map_congr_left fun o _ => ?_)
  simp [biasAt]

end MlpCall

/-- **Ranks in lockstep.**  The ranks of a row-parallel layer meet in one all-reduce and all return
the whole product exactly when they go the same way or the bias adds nothing.  The ranks of a
column-parallel layer meet in one all-gather, those of an MLP block in one all-reduce, and all
return the whole product. -/
theorem calls_agree_iff (n : ℕ) (T R : Type) [CommRing R] :
    (∀ c : RowCall n T R, Agrees Output.result c.programs .allReduce c.full ↔ c.Uniform) ∧
    (∀ c : ColumnCall n T R, Agrees Output.result c.programs .allGather c.full) ∧
    ∀ c : MlpCall n T R, Agrees id c.programs .allReduce c.full :=
  ⟨fun c => c.agrees_iff, fun c => c.agrees, fun c => c.agrees⟩

/-! ### Two ranks that go different ways -/

/-- Nothing raises. -/
def onGpu : LinearEnv := ⟨true, false, false, false⟩

/-- `vulkan_ops.linear` raises. -/
def raising : LinearEnv := ⟨true, false, false, true⟩

/-- Rank 0 computes on the GPU and rank 1 does not. -/
def mixedEnv (r : Fin 2) : LinearEnv := if r = 0 then onGpu else raising

/-- A shard of one weight, equal to one. -/
def unitModule (bias : Option (List ℤ)) (reduceResults gatherOutput : Bool) : LinearModule ℤ where
  weight := [[1]]
  bias := bias
  skipBiasAdd := false
  returnBias := false
  tpSize := 2
  reduceResults := reduceResults
  gatherOutput := gatherOutput
  weightDtypeOk := true

/-- A row-parallel layer with a bias, on two ranks that go different ways. -/
def mixedRow : RowCall 0 Unit ℤ where
  module _ := unitModule (some [1]) true false
  env := mixedEnv
  input _ _ := [1]
  orig r x := .collective .allReduce (linear x [[1]] (if r = 0 then some [1] else none))
    fun y => .ret (.tensor y)
  outFeatures := 1
  bias := some [1]
  skipBiasAdd := false
  reduceResults _ := rfl
  tpSize _ := rfl
  bias_eq _ := rfl
  skipBiasAdd_eq _ := rfl
  shards := ⟨fun _ => rfl, fun _ _ row hrow => by rw [List.mem_singleton.1 hrow]⟩
  bias_fits b hb := by cases hb; rfl
  origForward r := ⟨.tensor, fun _ => rfl, by simp [unitModule]⟩

/-- **Two ranks that go different ways disagree.**  The product is 2 and the bias 1; rank 0 returns
3 and rank 1, which left the bias to rank 0, returns 2. -/
theorem mixed_ranks_disagree :
    mixedRow.full () = [3] ∧ mixedRow.returned 0 () = [3] ∧ mixedRow.returned 1 () = [2] ∧
      ¬ Agrees Output.result mixedRow.programs .allReduce mixedRow.full := by
  refine ⟨rfl, rfl, rfl, fun h => ?_⟩
  obtain hway | hzero | hempty := mixedRow.agrees_iff.1 h
  · exact absurd (hway 1) (by decide)
  · exact absurd (hzero [1] rfl 1 List.mem_cons_self) (by decide)
  · exact hempty.false ()

/-- A column-parallel layer with a bias, on two ranks that go different ways. -/
def mixedColumn : ColumnCall 0 Unit ℤ where
  module _ := unitModule (some [1]) false true
  env := mixedEnv
  input _ := [1]
  orig _ x := .collective .allGather (linear x [[1]] (some [1])) fun y => .ret (.tensor y)
  bias := some fun _ => [1]
  skipBiasAdd := false
  reduceResults _ := rfl
  gatherOutput _ := rfl
  tpSize _ := rfl
  bias_eq _ := rfl
  skipBiasAdd_eq _ := rfl
  bias_fits _ b hb := by cases hb; rfl
  origForward _ := ⟨.tensor, fun _ => rfl, rfl⟩

/-- An MLP block, on two ranks of which the first is fused and the second one is not. -/
def mixedMlp : MlpCall 0 Unit ℤ where
  silu := id
  gateUpProj _ := { unitModule none false false with weight := [[1], [1]] }
  downProj _ := unitModule none true false
  env r := ⟨true, false, r ≠ 0⟩
  gateUpEnv := mixedEnv
  downEnv := mixedEnv
  input _ := [1]
  orig r x := (vkForward { unitModule none false false with weight := [[1], [1]] } (mixedEnv r)
      (fun x => .ret (.tensor (linear x [[1], [1]] none))) x).bind fun y =>
    (vkForward (unitModule none true false) (mixedEnv r)
      (fun x => .collective .allReduce (linear x [[1]] none) fun y => .ret (.tensor y))
      fun t => siluAndMul id (y.result t)).bind fun z => .ret z.result
  gateUpOrig _ x := .ret (.tensor (linear x [[1], [1]] none))
  downOrig _ x := .collective .allReduce (linear x [[1]] none) fun y => .ret (.tensor y)
  gate _ := [[1]]
  up _ := [[1]]
  outFeatures := 1
  wraps _ := rfl
  gateUpReduce _ := rfl
  downReduce _ := rfl
  downTpSize _ := rfl
  gateUpWeight _ := rfl
  halves _ := rfl
  down_length _ := rfl
  down_row _ row hrow := by rw [List.mem_singleton.1 hrow]; rfl
  origForward _ := rfl
  gateUpForward _ _ := ⟨.tensor, fun _ => rfl, rfl⟩
  downForward _ _ := ⟨.tensor, fun _ => rfl, rfl⟩

/-- Different ways of the two ranks do no harm in the other two layers. -/
theorem calls_agree_iff_mixed :
    Agrees Output.result mixedColumn.programs .allGather mixedColumn.full ∧
      Agrees id mixedMlp.programs .allReduce mixedMlp.full :=
  ⟨(calls_agree_iff 0 Unit ℤ).2.1 mixedColumn, (calls_agree_iff 0 Unit ℤ).2.2 mixedMlp⟩

end Parallel

end VllmVulkan
