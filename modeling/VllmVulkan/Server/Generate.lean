import VllmVulkan.Gemma4.Calls
import Mathlib.Data.List.DropRight

/-!
# Requests of the standalone server

`chat_completions` runs every `generate` in a thread of its own on the one model.  A call of the
model is one step, and nothing keeps the calls of two requests apart.

* `Request`, `generate` : what a request asks for, and does;
* `generate_within` : a request makes a bounded number of calls;
* `generate_isolated` : **a request that nobody disturbs gets the tokens it would get alone**;
* `interleaved_overflow` : two requests that disturb each other.
-/

namespace VllmVulkan

namespace Server

open Gemma4 Machine Panics Sessions

variable {K : Type}

/-! ### A request -/

/-- A request, as `generate` sees it. -/
structure Request (K : Type) where
  /-- The encoded prompt. -/
  inputIds : List ℕ
  maxNewTokens : ℤ
  temperature : K
  topP : K
  topK : ℤ
  eosTokenId : Option ℕ
  /-- The values that `random.random()` returns to it, in order. -/
  draws : ℕ → K

/-- `token in stop_tokens`; 106 is `<end_of_turn>`. -/
def Request.isStop (req : Request K) (token : ℕ) : Bool :=
  req.eosTokenId == some token || token == 106

/-- One `forward_and_sample`, with the `n`-th draw. -/
def sampleNext (req : Request K) (n tokenId position : ℕ) : Prog (ModelCall K) ℕ :=
  .perform (.forwardAndSample tokenId position req.temperature req.topP req.topK (req.draws n))

/-- The prefill loop. -/
def prefill : List (ℕ × ℕ) → Prog (ModelCall K) Unit
  | [] => pure ()
  | (tokenId, pos) :: rest => do
    let _ ← .perform (.forward tokenId pos)
    prefill rest

/-- The decode loop, with the number of tokens still wanted. -/
def decode (req : Request K) : ℕ → List ℕ → ℕ → ℕ → Prog (ModelCall K) (List ℕ)
  | 0, generatedIds, _, _ => pure generatedIds
  | n + 1, generatedIds, nextToken, pos => do
    let generatedIds := generatedIds ++ [nextToken]
    if req.isStop nextToken then pure generatedIds
    else
      let nextToken ← sampleNext req generatedIds.length nextToken pos
      decode req n generatedIds nextToken (pos + 1)

/-- `generate`, which returns the generated tokens. -/
def generate (req : Request K) : Prog (ModelCall K) (List ℕ) := do
  .perform .resetKvCache
  prefill req.inputIds.dropLast.zipIdx
  match req.inputIds.getLast? with
  | none => .raise
  | some lastId =>
    let nextToken ← sampleNext req 0 lastId (req.inputIds.length - 1)
    let generatedIds ← decode req req.maxNewTokens.toNat [] nextToken req.inputIds.length
    -- the trailing stop tokens are removed
    pure (generatedIds.rdropWhile req.isStop)

/-- The number of calls a request makes at most. -/
def turns (req : Request K) : ℕ := req.inputIds.length + req.maxNewTokens.toNat + 2

/-! ### Isolation -/

theorem prefill_within (tokens : List (ℕ × ℕ)) :
    (prefill tokens : Prog (ModelCall K) Unit).Within tokens.length := by
  induction tokens with
  | nil => exact .ret ()
  | cons p tokens ih => exact .call _ fun _ => ih

theorem decode_within (req : Request K) (n : ℕ) (generatedIds : List ℕ) (nextToken pos : ℕ) :
    (decode req n generatedIds nextToken pos).Within n := by
  induction n generalizing generatedIds nextToken pos with
  | zero => exact .ret _
  | succ n ih =>
    unfold decode
    dsimp only
    split
    · exact .ret _
    · exact .call _ fun _ => ih _ _ _

theorem generate_within (req : Request K) : (generate req).Within (turns req) := by
  have hlen : req.inputIds.dropLast.zipIdx.length ≤ req.inputIds.length := by
    rw [List.length_zipIdx, List.length_dropLast]
    exact Nat.sub_le _ _
  have hbound : 1 + (req.inputIds.dropLast.zipIdx.length + (1 + (req.maxNewTokens.toNat + 0))) ≤
      turns req := by
    unfold turns
    omega
  refine Prog.Within.mono ((Prog.perform_within _).bind fun _ =>
    (prefill_within _).bind fun _ => ?_) hbound
  cases req.inputIds.getLast? with
  | none => exact .raise
  | some lastId =>
    exact (Prog.perform_within _).bind fun _ => (decode_within _ _ _ _ _).bind fun _ => .ret _

variable [Field K] [LinearOrder K] [Elementary K]

/-- The requests `reqs` on a model that was just loaded. -/
def served {ι : Type} (m : VulkanModel K) (maxSeqLen : ℕ) (allocs : ℕ → Bool)
    (reqs : ι → Request K) : Pool ι (GpuState K) (ModelCall K) (List ℕ) :=
  ⟨m.fresh maxSeqLen allocs, fun i => generate (reqs i), []⟩

/-- **A request that nobody disturbs gets the tokens it would get alone** on a fresh model. -/
theorem generate_isolated {ι : Type} [DecidableEq ι] {m : VulkanModel K} {sort : UnstableSort K}
    (hm : m.engine = true → Loaded m) (maxSeqLen : ℕ) (allocs allocs' : ℕ → Bool)
    (reqs : ι → Request K) (schedule : List ι) (i : ι)
    (hok : ∀ τ ∈ transitions (machine (object m sort)) (served m maxSeqLen allocs reqs) schedule,
      τ.input = i → τ.pre.Undisturbed (object m sort) i) :
    (∀ r, ((finalState (machine (object m sort)) (served m maxSeqLen allocs reqs)
        schedule).progs i).result = some r →
      ((generate (reqs i)).run (object m sort) (m.fresh maxSeqLen allocs')).1 = r) ∧
    (turns (reqs i) ≤ schedule.count i →
      ∃ r, ((finalState (machine (object m sort)) (served m maxSeqLen allocs reqs)
        schedule).progs i).result = some r) := by
  refine ⟨fun r hr => ?_, fun hturns => exists_result (generate_within (reqs i)) hturns⟩
  exact run_eq_alone (object_resets hm sort) (VulkanModel.fresh_clean m maxSeqLen allocs allocs)
    (VulkanModel.fresh_clean m maxSeqLen allocs allocs') hok hr

/-! ### Two requests -/

attribute [local instance] elementaryAtZero

/-- A request for one token. -/
def oneToken : Request ℚ where
  inputIds := [0]
  maxNewTokens := 1
  temperature := 0
  topP := 1
  topK := 64
  eosTokenId := some 1
  draws _ := 0

/-- One after the other, the second request gets what it would get alone. -/
theorem generate_isolated_oneToken :
    ((generate oneToken).run (object (zeroModel 1) stableSort)
      ((zeroModel 1).fresh 2 fun _ => false)).1 = some [0] := by
  have hok : ∀ τ ∈ transitions (machine (object (zeroModel 1) stableSort))
      (served (zeroModel 1) 2 (fun _ => true) fun _ : Bool => oneToken)
      [false, false, false, true, true, true], τ.input = true →
      τ.pre.Undisturbed (object (zeroModel 1) stableSort) true := by
    decide +kernel
  refine (generate_isolated (fun _ => ⟨wellShaped_zeroModel 1, uploaded_zeroModel 1,
    Nat.le_refl 1, fun i _ => noMissing_zeroModel 1 i⟩) 2 (fun _ => true) (fun _ => false)
    (fun _ : Bool => oneToken) [false, false, false, true, true, true] true hok).1 _ ?_
  decide +kernel

/-- Two requests on a model with room for two tokens, each of which needs both: when they take turns
the first one runs into the end of the KV cache, alone it gets its token. -/
theorem interleaved_overflow :
    ((finalState (machine (object (zeroModel 1) stableSort))
      (served (zeroModel 1) 2 (fun _ => true) fun _ : Bool => oneToken)
      [false, true, false, true, false]).progs false).result = some none ∧
    ((generate oneToken).run (object (zeroModel 1) stableSort)
      ((zeroModel 1).fresh 2 fun _ => true)).1 = some [0] := by
  constructor
  · decide +kernel
  · decide +kernel

end Server

end VllmVulkan
