import VllmVulkan.Gemma4.Submit
import VllmVulkan.Lib.Workgroups

/-!
# Dispatches as workgroups

A dispatch launches its workgroups, and they overlap as they like.  The memory of the device is
addressed by the elements of its buffers; resident weights are read only and stay constants.

* `Addr`, `flat` : the elements of the buffers;
* `load`, `view` : a load from a bound buffer;
* `Computes` : workgroups that compute disjoint parts of a buffer from other buffers;
* `Computes.inOrder` : **together they compute the whole buffer** and change nothing else.
-/

namespace VllmVulkan

namespace Shader

open Gemma4 Overlap VllmVulkan.Action

variable {S K L Sh : Type}

/-- An element of a buffer. -/
abbrev Addr (S : Type) := S × ℕ

section

variable [Zero K]

/-- The contents of the buffers, by element. -/
def flat (mem : Mem S K) (a : Addr S) : K := (mem a.1).getD a.2 0

/-- The load of element `i` of a bound buffer. -/
def load (b : Gemma4.Binding S K) (i : ℕ) (f : L → K → L) : Action L (Addr S ⊕ Sh) K :=
  match b with
  | .slot s => .load (.inl (s, i)) f
  | .weight data => .compute fun ℓ => f ℓ (data.getD i 0)

/-- What the load of element `i` of a bound buffer finds. -/
def view (b : Gemma4.Binding S K) (m : Addr S → K) (i : ℕ) : K :=
  match b with
  | .slot s => m (s, i)
  | .weight data => data.getD i 0

theorem view_flat (b : Gemma4.Binding S K) (mem : Mem S K) (i : ℕ) :
    view b (flat mem) i = (b.read mem).getD i 0 := by
  cases b <;> rfl

theorem view_congr {b : Gemma4.Binding S K} {m m' : Addr S → K} {i : ℕ}
    (h : ∀ s ∈ b.slots, m (s, i) = m' (s, i)) : view b m i = view b m' i := by
  cases b with
  | slot s => exact h s (List.mem_singleton_self s)
  | weight data => rfl

theorem mem_reads_load {b : Gemma4.Binding S K} {i : ℕ} {f : L → K → L} {x : Addr S ⊕ Sh}
    (hx : x ∈ (load b i f).reads) : ∃ s ∈ b.slots, x = .inl (s, i) := by
  cases b with
  | slot s => exact ⟨s, List.mem_singleton_self s, hx⟩
  | weight data => cases hx

@[simp] theorem writes_load (b : Gemma4.Binding S K) (i : ℕ) (f : L → K → L) :
    (load b i f : Action L (Addr S ⊕ Sh) K).writes = ∅ := by
  cases b <;> rfl

variable [DecidableEq S] [DecidableEq Sh]

@[simp] theorem exec_load (b : Gemma4.Binding S K) (i : ℕ) (f : L → K → L) (ℓ : L)
    (m : Addr S ⊕ Sh → K) : (load b i f).exec (ℓ, m) = (f ℓ (view b (m ∘ Sum.inl) i), m) := by
  cases b <;> rfl

end

/-! ### Workgroups that compute a buffer -/

/-- The workgroups `c x`, `x < n`, compute the first `len` elements of `out` from the buffers
`slots`; element `i` is the work of `c (owner i)`. -/
structure Computes (n : ℕ) (c : ℕ → Cmd L (Addr S) K) (slots : List S) (out : S) (len : ℕ)
    (owner : ℕ → ℕ) (value : (Addr S → K) → ℕ → K) : Prop where
  barrier : ∀ x, (c x).barrier = false
  loads : ∀ x < n, ∀ a ∈ (c x).proc.reads, a.1 ∈ slots
  stores : ∀ x < n, ∀ a ∈ (c x).proc.writes, a.1 = out ∧ a.2 < len ∧ owner a.2 = x
  owner_lt : ∀ i < len, owner i < n
  exists_runs : ∀ x m, ∃ m', (c x).proc.Runs m m'
  runs : ∀ i < len, ∀ m m', (c (owner i)).proc.Runs m m' → m' (out, i) = value m i

namespace Computes

variable {n len : ℕ} {c : ℕ → Cmd L (Addr S) K} {slots : List S} {out : S} {owner : ℕ → ℕ}
  {value : (Addr S → K) → ℕ → K}

theorem pairwise (h : Computes n c slots out len owner value) (hout : out ∉ slots) :
    ((List.range n).map c).Pairwise fun c d => ∀ a, ¬ Conflict c.proc d.proc a := by
  rw [List.pairwise_map]
  refine List.nodup_range.imp_of_mem ?_
  intro x y hx hy hne
  rw [List.mem_range] at hx hy
  rintro a (⟨hw, hr | hw'⟩ | ⟨hw, hr | hw'⟩)
  · exact hout ((h.stores x hx a hw).1 ▸ h.loads y hy a hr)
  · exact hne ((h.stores x hx a hw).2.2.symm.trans (h.stores y hy a hw').2.2)
  · exact hout ((h.stores y hy a hw).1 ▸ h.loads x hx a hr)
  · exact hne ((h.stores x hx a hw').2.2.symm.trans (h.stores y hy a hw).2.2)

/-- **Together they compute the whole buffer** and change nothing else. -/
theorem inOrder (h : Computes n c slots out len owner value) (hout : out ∉ slots)
    {m m' : Addr S → K} (hrun : InOrder ((List.range n).map c) m m') :
    (∀ i < len, m' (out, i) = value m i) ∧
      ∀ a : Addr S, (a.1 = out → len ≤ a.2) → m' a = m a := by
  constructor
  · intro i hi
    have hmem : c (owner i) ∈ (List.range n).map c :=
      List.mem_map_of_mem (List.mem_range.2 (h.owner_lt i hi))
    obtain ⟨m₁, hm₁, heq⟩ := hrun.alone (h.pairwise hout) hmem
    rw [heq (out, i), h.runs i hi m m₁ hm₁]
    intro d hd hw
    obtain ⟨y, hy, rfl⟩ := List.mem_map.1 hd
    rwa [(h.stores y (List.mem_range.1 hy) _ hw).2.2]
  · intro a ha
    refine hrun.frame fun d hd hw => ?_
    obtain ⟨y, hy, rfl⟩ := List.mem_map.1 hd
    obtain ⟨hs, hlt, -⟩ := h.stores y (List.mem_range.1 hy) a hw
    exact absurd hlt (Nat.not_lt.2 (ha hs))

end Computes

end Shader

end VllmVulkan
