import VllmVulkan.Gemma4.Sequence
import VllmVulkan.Server.Generate

/-!
# What a request answers

Without a KV cache a request is answered by one forward pass for every new token, over the prompt
and all tokens in front of it.  `generate` instead feeds every token once to the model that it
shares with the other requests.

* `sampled`, `respond`, `response` : the answer without caches;
* `FedWith` : the model was given exactly these tokens since the last reset;
* `FedWith.exec`, `prefill_run`, `decode_run` : the calls of a request, one loop after the other;
* `generate_run` : **a request that has the model for itself gets the answer without caches**.
-/

namespace VllmVulkan

namespace Server

open Gemma4 Machine Panics Sessions

variable {K : Type} [Field K] [LinearOrder K] [Elementary K]

/-! ### The answer without caches -/

/-- The token sampled behind `context`, with the `n`-th draw. -/
def sampled (m : Gemma4Model K) (sort : UnstableSort K) (req : Request K) (n : ℕ)
    (context : List ℕ) : Option ℕ := do
  let all ← seqForward m context
  let logits ← all.getLast?
  sampleWithTemperature sort logits req.temperature req.topP req.topK (req.draws n)

/-- At most `n` more tokens, up to a stop token; each is sampled behind the prompt and all tokens in
front of it. -/
def respond (m : Gemma4Model K) (sort : UnstableSort K) (req : Request K) :
    ℕ → List ℕ → Option (List ℕ)
  | 0, generatedIds => some generatedIds
  | n + 1, generatedIds => do
    let token ← sampled m sort req generatedIds.length (req.inputIds ++ generatedIds)
    if req.isStop token then pure (generatedIds ++ [token])
    else respond m sort req n (generatedIds ++ [token])

/-- The answer to a request, less the trailing stop tokens. -/
def response (m : Gemma4Model K) (sort : UnstableSort K) (req : Request K) : Option (List ℕ) :=
  (respond m sort req req.maxNewTokens.toNat []).map (·.rdropWhile req.isStop)

/-! ### The calls of a request -/

/-- The model was given exactly the tokens `ids` since the last reset. -/
def FedWith (m : VulkanModel K) (ids : List ℕ) (st : GpuState K) : Prop :=
  ∃ tokens, Session.Fed m ⟨st, tokens⟩ ∧ tokens.map TokenCall.tokenId = ids

variable {m : VulkanModel K} (sort : UnstableSort K) {req : Request K} {α : Type}
  {ids : List ℕ} {st st' : GpuState K} {id n : ℕ} {a : α}

/-- **The next token** gets the last logits of the whole sequence. -/
theorem FedWith.exec (hfirst : 5 ≤ m.inner.config.firstKvSharedLayer)
    (hm : m.engine = true → WellShaped m.inner ∧ Uploaded m) (h : FedWith m ids st) {β : Type}
    {c : ModelCall K β} {b : β} (htoken : c.token = some (id, ids.length))
    (hcall : (object m sort).exec c st = (some b, st')) : FedWith m (ids ++ [id]) st' ∧
      ∃ all logits, seqForward m.inner (ids ++ [id]) = some all ∧ all.getLast? = some logits ∧
        c.answer sort logits = some b := by
  obtain ⟨tokens, hfed, rfl⟩ := h
  rw [List.length_map] at htoken
  have hreturns : (callSession m sort ⟨st, tokens⟩ ⟨β, c⟩).2 = true := by
    rw [callSession, hcall]
    rfl
  obtain ⟨logits, st₁, hforward, -⟩ := @callSession_token _ _ _ _ _ _ _ _ _ ⟨β, c⟩ htoken hreturns
  have hanswer := exec_eq_answer sort htoken hforward
  rw [hcall] at hanswer
  obtain ⟨hvalue, rfl⟩ := Prod.mk.inj hanswer
  have hnext := hfed.token hfirst hm hforward
  obtain ⟨all, hall, hlogits⟩ := seqForward_tokens hfirst hnext.2
  rw [List.map_append] at hall
  exact ⟨⟨_, hnext, List.map_append⟩, all, logits, hall,
    getLast?_logits hlogits (by rw [hforward]), hvalue.symm⟩

theorem zipIdx_cons_length (tokens : List ℕ) (id : ℕ) (ids : List ℕ) :
    (id :: tokens).zipIdx ids.length = (id, ids.length) :: tokens.zipIdx (ids ++ [id]).length := by
  rw [List.zipIdx_cons, List.length_append, List.length_singleton]

theorem prefill_run (hfirst : 5 ≤ m.inner.config.firstKvSharedLayer)
    (hm : m.engine = true → WellShaped m.inner ∧ Uploaded m) {tokens : List ℕ}
    (h : FedWith m ids st) {f : Unit → Prog (ModelCall K) α}
    (hrun : ((prefill (tokens.zipIdx ids.length) >>= f).run (object m sort) st).1 = some a) :
    ∃ st₁, FedWith m (ids ++ tokens) st₁ ∧ ((f ()).run (object m sort) st₁).1 = some a := by
  induction tokens generalizing ids st with
  | nil => exact ⟨st, by rwa [List.append_nil], hrun⟩
  | cons id tokens ih =>
    rw [zipIdx_cons_length] at hrun
    obtain ⟨logits, st₁, hcall, hrest⟩ := bind_eq_some.1 (Prod.ext hrun rfl)
    obtain ⟨hfed, -⟩ := h.exec sort (c := .forward id ids.length) hfirst hm rfl hcall
    obtain ⟨st₂, hfed', hf⟩ := ih hfed (congrArg Prod.fst hrest)
    rw [List.append_assoc] at hfed'
    exact ⟨st₂, hfed', hf⟩

theorem sampleNext_run (hfirst : 5 ≤ m.inner.config.firstKvSharedLayer)
    (hm : m.engine = true → WellShaped m.inner ∧ Uploaded m) (h : FedWith m ids st)
    {f : ℕ → Prog (ModelCall K) α}
    (hrun : ((sampleNext req n id ids.length >>= f).run (object m sort) st).1 = some a) :
    ∃ next st₁, FedWith m (ids ++ [id]) st₁ ∧
      sampled m.inner sort req n (ids ++ [id]) = some next ∧
      ((f next).run (object m sort) st₁).1 = some a := by
  obtain ⟨next, st₁, hcall, hrest⟩ := bind_eq_some.1 (Prod.ext hrun rfl)
  obtain ⟨hfed, all, logits, hall, hlast, hanswer⟩ := h.exec sort hfirst hm rfl hcall
  refine ⟨next, st₁, hfed, ?_, congrArg Prod.fst hrest⟩
  simp only [sampled, hall, hlast, Option.bind_eq_bind, Option.bind_some]
  exact hanswer

theorem decode_run (hfirst : 5 ≤ m.inner.config.firstKvSharedLayer)
    (hm : m.engine = true → WellShaped m.inner ∧ Uploaded m) {generatedIds : List ℕ} {next : ℕ}
    (h : FedWith m (req.inputIds ++ generatedIds) st)
    (hnext : sampled m.inner sort req generatedIds.length (req.inputIds ++ generatedIds) =
      some next) {f : List ℕ → Prog (ModelCall K) α}
    (hrun : ((decode req n generatedIds next (req.inputIds ++ generatedIds).length >>= f).run
      (object m sort) st).1 = some a) :
    ∃ out st₁, respond m.inner sort req n generatedIds = some out ∧
      ((f out).run (object m sort) st₁).1 = some a := by
  induction n generalizing generatedIds next st with
  | zero => exact ⟨generatedIds, st, rfl, hrun⟩
  | succ n ih =>
    simp only [respond, hnext, Option.bind_eq_bind, Option.bind_some]
    cases hstop : req.isStop next with
    | true =>
      simp only [decode, hstop, if_true] at hrun ⊢
      exact ⟨_, st, rfl, hrun⟩
    | false =>
      simp only [decode, hstop, Bool.false_eq_true, if_false] at hrun ⊢
      obtain ⟨token, st₁, hfed, htoken, hrest⟩ := sampleNext_run sort hfirst hm h
        (f := fun token => decode req n (generatedIds ++ [next]) token
          ((req.inputIds ++ generatedIds).length + 1) >>= f) hrun
      have hlen : (req.inputIds ++ generatedIds).length + 1 =
          (req.inputIds ++ (generatedIds ++ [next])).length := by
        simp only [List.length_append, List.length_singleton, Nat.add_assoc]
      rw [List.append_assoc] at hfed htoken
      rw [hlen] at hrest
      exact ih hfed htoken hrest

/-- **A request that has the model for itself** gets the answer without caches. -/
theorem generate_run (hfirst : 5 ≤ m.inner.config.firstKvSharedLayer)
    (hm : m.engine = true → WellShaped m.inner ∧ Uploaded m) {tokens : List (TokenCall K)}
    (h : Session.Fed m ⟨st, tokens⟩) {out : List ℕ}
    (hrun : ((generate req).run (object m sort) st).1 = some out) :
    response m.inner sort req = some out := by
  have hreset : FedWith m [] (VulkanModel.resetKvCache st).2 := ⟨[], h.reset, rfl⟩
  have hprefill := prefill_run (a := out) sort hfirst hm hreset hrun
  obtain ⟨st₁, hfed, hrest⟩ := hprefill
  rw [List.nil_append] at hfed
  rcases hlast : req.inputIds.getLast? with _ | lastId
  · rw [hlast] at hrest
    cases hrest
  · rw [hlast] at hrest
    have hprompt : req.inputIds.dropLast ++ [lastId] = req.inputIds := by
      rw [List.getLast?_eq_some_iff] at hlast
      obtain ⟨front, hfront⟩ := hlast
      rw [hfront, List.dropLast_concat]
    dsimp only at hrest
    rw [← List.length_dropLast] at hrest
    obtain ⟨next, st₂, hfed', hnext, hrest'⟩ := sampleNext_run sort hfirst hm hfed
      (f := fun next => decode req req.maxNewTokens.toNat [] next req.inputIds.length >>=
        fun generatedIds => pure (generatedIds.rdropWhile req.isStop)) hrest
    rw [hprompt] at hfed' hnext
    rw [← List.append_nil req.inputIds] at hfed' hnext
    obtain ⟨generatedIds, st₃, hrespond, hpure⟩ := decode_run sort (n := req.maxNewTokens.toNat)
      hfirst hm hfed' hnext (f := fun generatedIds => pure (generatedIds.rdropWhile req.isStop))
      (by rw [List.append_nil]; exact hrest')
    rw [response, hrespond, ← hpure]
    rfl

end Server

end VllmVulkan
