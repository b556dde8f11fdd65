import VllmVulkan.Lib.Interleave
import VllmVulkan.Lib.Overlap

/-!
# Workgroups

A workgroup of threads runs a list of phases, with a barrier after each.  Its threads load from and
store to a memory that the whole device shares, and one of their own that only they see.

* `Workgroup`, `Workgroup.Step` : what is left of a workgroup, and its steps: an action of any of
  its threads, or the barrier when all have arrived;
* `Workgroup.loads`, `Workgroup.stores` : the addresses of the device that its actions name;
* `Workgroup.proc` : **a workgroup as a command** that overlaps with others;
* `Workgroup.runs_iff` : **its runs alone are the executions of its phases**;
* `Workgroup.exists_runs` : it always gets through;
* `RunPhases.shared` : phases that stay in the shared memory;
* `Proc.via` : a command whose local states are embedded into others;
* `InOrder.alone`, `Fenced.append` : lists of commands that do not conflict.
-/

namespace VllmVulkan

open Relation Overlap

variable {T L R A S V : Type*}

/-! ### Actions on two memories -/

namespace Action

/-- The addresses an action loads from. -/
def reads : Action L A V → Set A
  | compute _ => ∅
  | load x _ => {x}
  | store _ _ => ∅

/-- The addresses an action stores to. -/
def writes : Action L A V → Set A
  | compute _ => ∅
  | load _ _ => ∅
  | store x _ => {x}

theorem within_of_subset {R W : Set A} {a : Action L A V} (hR : a.reads ⊆ R) (hW : a.writes ⊆ W) :
    a.Within R W := by
  cases a with
  | compute f => trivial
  | load x f => exact hR rfl
  | store x f => exact hW rfl

/-- The addresses of the device in `R`, and all of the shared memory. -/
def withShared (R : Set A) : Set (A ⊕ S) := fun x => x.elim (fun a => a ∈ R) fun _ => True

/-- An action on the shared memory, by a thread that has more variables. -/
def onShared : Action L S V → Action (L × R) (A ⊕ S) V
  | compute f => compute fun ℓ => (f ℓ.1, ℓ.2)
  | load x f => load (.inr x) fun ℓ v => (f ℓ.1 v, ℓ.2)
  | store x f => store (.inr x) fun ℓ => f ℓ.1

theorem reads_onShared (a : Action L S V) (x : A) :
    .inl x ∉ (a.onShared (R := R) (A := A)).reads := by
  cases a <;> simp [onShared, reads]

theorem writes_onShared (a : Action L S V) (x : A) :
    .inl x ∉ (a.onShared (R := R) (A := A)).writes := by
  cases a <;> simp [onShared, writes]

variable [DecidableEq A] [DecidableEq S]

theorem exec_onShared (a : Action L S V) (ℓ : L × R) (m : A ⊕ S → V) :
    (a.onShared.exec (ℓ, m)).1 = ((a.exec (ℓ.1, m ∘ Sum.inr)).1, ℓ.2) ∧
      (a.onShared.exec (ℓ, m)).2 ∘ Sum.inr = (a.exec (ℓ.1, m ∘ Sum.inr)).2 ∧
      (a.onShared.exec (ℓ, m)).2 ∘ Sum.inl = m ∘ Sum.inl := by
  cases a with
  | compute f => exact ⟨rfl, rfl, rfl⟩
  | load x f => exact ⟨rfl, rfl, rfl⟩
  | store x f =>
    refine ⟨rfl, ?_, ?_⟩
    · exact Function.update_comp_eq_of_injective m Sum.inr_injective x _
    · exact Function.update_comp_eq_of_notMem_range m _ (by simp)

theorem alone_onShared (as : List (Action L S V)) (ℓ : L × R) (m : A ⊕ S → V) :
    (alone (as.map onShared) (ℓ, m)).1 = ((alone as (ℓ.1, m ∘ Sum.inr)).1, ℓ.2) ∧
      (alone (as.map onShared) (ℓ, m)).2 ∘ Sum.inr = (alone as (ℓ.1, m ∘ Sum.inr)).2 ∧
      (alone (as.map onShared) (ℓ, m)).2 ∘ Sum.inl = m ∘ Sum.inl := by
  induction as generalizing ℓ m with
  | nil => exact ⟨rfl, rfl, rfl⟩
  | cons a as ih =>
    obtain ⟨hℓ, hr, hl⟩ := exec_onShared a ℓ m
    obtain ⟨hℓ', hr', hl'⟩ := ih (a.onShared.exec (ℓ, m)).1 (a.onShared.exec (ℓ, m)).2
    rw [List.map_cons, alone_cons, alone_cons]
    refine ⟨hℓ'.trans ?_, hr'.trans ?_, hl'.trans hl⟩
    · rw [hℓ, hr]
    · rw [hℓ, hr]

end Action

open VllmVulkan.Action

section Phases

variable [DecidableEq T] [DecidableEq A] [DecidableEq S]

theorem Interleave.shared {ph : T → List (Action L S V)} {ℓ ℓ' : T → L × R} {m m' : A ⊕ S → V}
    (h : Interleave (fun t => (ph t).map Action.onShared) ℓ m ℓ' m') :
    Interleave ph (fun t => (ℓ t).1) (m ∘ Sum.inr) (fun t => (ℓ' t).1) (m' ∘ Sum.inr) ∧
      m' ∘ Sum.inl = m ∘ Sum.inl := by
  generalize hph : (fun t => (ph t).map (Action.onShared (R := R) (A := A))) = ph' at h
  induction h generalizing ph with
  | done h =>
    refine ⟨.done fun t => ?_, rfl⟩
    have ht := h t
    rw [← hph] at ht
    exact List.map_eq_nil_iff.1 ht
  | @step ph' ℓ m ℓ' m' t a as ht next ih =>
    rw [← hph] at ht
    obtain ⟨a, as, hcons, rfl, rfl⟩ := List.map_eq_cons_iff.1 ht
    have hupdate : (fun t' => (Function.update ph t as t').map
        (Action.onShared (R := R) (A := A))) =
          Function.update ph' t (as.map Action.onShared) := by
      funext t'
      rw [← hph]
      by_cases heq : t' = t
      · subst heq
        rw [Function.update_self, Function.update_self]
      · rw [Function.update_of_ne heq, Function.update_of_ne heq]
    obtain ⟨hrest, hframe⟩ := ih hupdate
    obtain ⟨hℓ, hm, hkeep⟩ := exec_onShared a (ℓ t) m
    have hlocals : (fun t' => (Function.update ℓ t (a.onShared.exec (ℓ t, m)).1 t').1) =
        Function.update (fun t' => (ℓ t').1) t (a.exec ((ℓ t).1, m ∘ Sum.inr)).1 := by
      funext t'
      by_cases heq : t' = t
      · subst heq
        rw [Function.update_self, Function.update_self, hℓ]
      · rw [Function.update_of_ne heq, Function.update_of_ne heq]
    rw [hlocals, hm] at hrest
    exact ⟨.step t a as hcons hrest, hframe.trans hkeep⟩

theorem RunPhases.shared {phs : List (T → List (Action L S V))} {ℓ ℓ' : T → L × R}
    {m m' : A ⊕ S → V}
    (h : RunPhases (phs.map fun ph t => (ph t).map Action.onShared) ℓ m ℓ' m') :
    RunPhases phs (fun t => (ℓ t).1) (m ∘ Sum.inr) (fun t => (ℓ' t).1) (m' ∘ Sum.inr) ∧
      m' ∘ Sum.inl = m ∘ Sum.inl := by
  induction phs generalizing ℓ m with
  | nil =>
    obtain ⟨rfl, rfl⟩ := h
    exact ⟨⟨rfl, rfl⟩, rfl⟩
  | cons ph phs ih =>
    obtain ⟨ℓ₁, m₁, h₁, h₂⟩ := h
    obtain ⟨hfirst, hkeep⟩ := h₁.shared
    obtain ⟨hrest, hkeep'⟩ := ih h₂
    exact ⟨⟨_, _, hfirst, hrest⟩, hkeep'.trans hkeep⟩

end Phases

/-! ### Workgroups -/

/-- What is left of a workgroup. -/
structure Workgroup (T L A S V : Type*) where
  /-- The variables of its threads. -/
  locals : T → L
  /-- Its shared memory. -/
  shared : S → V
  /-- Its phases, cut at the barriers. -/
  phases : List (T → List (Action L (A ⊕ S) V))

namespace Workgroup

/-- The addresses of the device that it may load from. -/
def loads (w : Workgroup T L A S V) : Set A :=
  {a | ∃ ph ∈ w.phases, ∃ t, ∃ act ∈ ph t, .inl a ∈ act.reads}

/-- The addresses of the device that it may store to. -/
def stores (w : Workgroup T L A S V) : Set A :=
  {a | ∃ ph ∈ w.phases, ∃ t, ∃ act ∈ ph t, .inl a ∈ act.writes}

theorem within (w : Workgroup T L A S V) {ph : T → List (Action L (A ⊕ S) V)}
    (hph : ph ∈ w.phases) (t : T) {act : Action L (A ⊕ S) V} (hact : act ∈ ph t) :
    act.Within (withShared w.loads) (withShared w.stores) := by
  refine within_of_subset ?_ ?_
  · rintro (a | s) hx
    · exact ⟨ph, hph, t, act, hact, hx⟩
    · trivial
  · rintro (a | s) hx
    · exact ⟨ph, hph, t, act, hact, hx⟩
    · trivial

variable [DecidableEq T] [DecidableEq A] [DecidableEq S]

/-- One step of a workgroup whose actions stay within `R` and `W`. -/
inductive Step (R W : Set A) :
    Workgroup T L A S V × (A → V) → Workgroup T L A S V × (A → V) → Prop
  /-- A thread performs its next action. -/
  | act {ℓ : T → L} {sh : S → V} {ph : T → List (Action L (A ⊕ S) V)}
      {phs : List (T → List (Action L (A ⊕ S) V))} {m : A → V} (t : T) (a : Action L (A ⊕ S) V)
      (as : List (Action L (A ⊕ S) V)) (h : ph t = a :: as)
      (ha : a.Within (withShared R) (withShared W)) :
      Step R W (⟨ℓ, sh, ph :: phs⟩, m)
        (⟨Function.update ℓ t (a.exec (ℓ t, Sum.elim m sh)).1,
          (a.exec (ℓ t, Sum.elim m sh)).2 ∘ Sum.inr, Function.update ph t as :: phs⟩,
          (a.exec (ℓ t, Sum.elim m sh)).2 ∘ Sum.inl)
  /-- All threads have arrived at the barrier. -/
  | barrier {ℓ : T → L} {sh : S → V} {ph : T → List (Action L (A ⊕ S) V)}
      {phs : List (T → List (Action L (A ⊕ S) V))} {m : A → V} (h : ∀ t, ph t = []) :
      Step R W (⟨ℓ, sh, ph :: phs⟩, m) (⟨ℓ, sh, phs⟩, m)

variable {R W : Set A} {w w' : Workgroup T L A S V} {m m' : A → V}

theorem Step.frame (h : Step R W (w, m) (w', m')) : ∀ a ∉ W, m' a = m a := by
  generalize hs : (w, m) = s at h
  generalize hs' : (w', m') = s' at h
  cases h with
  | @act ℓ sh ph phs n t act as ht hact =>
    obtain ⟨rfl, rfl⟩ := Prod.mk.inj hs
    obtain ⟨rfl, rfl⟩ := Prod.mk.inj hs'
    exact fun a ha => exec_frame (x := Sum.inl a) hact (ℓ t, Sum.elim m sh) ha
  | barrier ht =>
    obtain ⟨rfl, rfl⟩ := Prod.mk.inj hs
    obtain ⟨rfl, rfl⟩ := Prod.mk.inj hs'
    exact fun _ _ => rfl

theorem Step.footprint (h : Step R W (w, m) (w', m')) {n : A → V} (hn : ∀ a ∈ R ∪ W, n a = m a) :
    ∃ n', Step R W (w, n) (w', n') ∧ ∀ a ∈ W, n' a = m' a := by
  generalize hs : (w, m) = s at h
  generalize hs' : (w', m') = s' at h
  cases h with
  | @act ℓ sh ph phs m₀ t act as ht hact =>
    obtain ⟨rfl, rfl⟩ := Prod.mk.inj hs
    obtain ⟨rfl, rfl⟩ := Prod.mk.inj hs'
    have hsame : ∀ x ∈ (withShared R ∪ withShared W : Set (A ⊕ S)),
        Sum.elim n sh x = Sum.elim m sh x := by
      rintro (a | x) hx
      · exact hn a hx
      · rfl
    obtain ⟨hℓ, hm⟩ := exec_congr hact (ℓ t) hsame
    have hshared : (act.exec (ℓ t, Sum.elim n sh)).2 ∘ Sum.inr =
        (act.exec (ℓ t, Sum.elim m sh)).2 ∘ Sum.inr := by
      funext x
      exact hm (.inr x) (.inl trivial)
    refine ⟨(act.exec (ℓ t, Sum.elim n sh)).2 ∘ Sum.inl, ?_, fun a ha => hm (.inl a) (.inr ha)⟩
    rw [← hℓ, ← hshared]
    exact .act t act as ht hact
  | barrier ht =>
    obtain ⟨rfl, rfl⟩ := Prod.mk.inj hs
    obtain ⟨rfl, rfl⟩ := Prod.mk.inj hs'
    exact ⟨n, .barrier ht, fun a ha => hn a (.inr ha)⟩

/-- **A workgroup as a command.** -/
def proc (w : Workgroup T L A S V) : Proc (Workgroup T L A S V) A V where
  start := w
  Done w' := w'.phases = []
  Step := Step w.loads w.stores
  reads := w.loads
  writes := w.stores
  frame h := h.frame
  footprint h hn := h.footprint hn
  final := by
    intro w' m s hdone hstep
    generalize hs : (w', m) = s₀ at hstep
    cases hstep with
    | act t a as ht ha =>
      obtain ⟨rfl, rfl⟩ := Prod.mk.inj hs
      cases hdone
    | barrier ht =>
      obtain ⟨rfl, rfl⟩ := Prod.mk.inj hs
      cases hdone

theorem runPhases_of_steps {s s' : Workgroup T L A S V × (A → V)}
    (h : ReflTransGen (Step R W) s s') (hdone : s'.1.phases = []) :
    RunPhases s.1.phases s.1.locals (Sum.elim s.2 s.1.shared) s'.1.locals
      (Sum.elim s'.2 s'.1.shared) := by
  induction h using ReflTransGen.head_induction_on with
  | refl =>
    rw [hdone]
    exact ⟨rfl, rfl⟩
  | head hstep _ ih =>
    cases hstep with
    | act t a as ht _ =>
      obtain ⟨ℓ₁, m₁, hfirst, hrest⟩ := ih
      dsimp only at hfirst
      rw [Sum.elim_comp_inl_inr] at hfirst
      exact ⟨ℓ₁, m₁, .step t a as ht hfirst, hrest⟩
    | barrier ht => exact ⟨_, _, .done ht, ih⟩

theorem steps_of_interleave {ph : T → List (Action L (A ⊕ S) V)}
    {phs : List (T → List (Action L (A ⊕ S) V))} {ℓ ℓ' : T → L} {x x' : A ⊕ S → V}
    (h : Interleave ph ℓ x ℓ' x')
    (hw : ∀ t, ∀ a ∈ ph t, a.Within (withShared R) (withShared W)) :
    ReflTransGen (Step R W) (⟨ℓ, x ∘ Sum.inr, ph :: phs⟩, x ∘ Sum.inl)
      (⟨ℓ', x' ∘ Sum.inr, phs⟩, x' ∘ Sum.inl) := by
  induction h with
  | done h => exact .single (.barrier h)
  | @step ph ℓ x ℓ' x' t a as ht next ih =>
    have hstep : Step R W (⟨ℓ, x ∘ Sum.inr, ph :: phs⟩, x ∘ Sum.inl) _ :=
      .act t a as ht (hw t a (ht ▸ List.mem_cons_self))
    rw [Sum.elim_comp_inl_inr] at hstep
    refine .head hstep (ih fun t' b hb => ?_)
    by_cases heq : t' = t
    · subst heq
      rw [Function.update_self] at hb
      exact hw t' b (ht ▸ List.mem_cons_of_mem _ hb)
    · rw [Function.update_of_ne heq] at hb
      exact hw t' b hb

theorem steps_of_runPhases {phs : List (T → List (Action L (A ⊕ S) V))} {ℓ ℓ' : T → L}
    {x x' : A ⊕ S → V} (h : RunPhases phs ℓ x ℓ' x')
    (hw : ∀ ph ∈ phs, ∀ t, ∀ a ∈ ph t, a.Within (withShared R) (withShared W)) :
    ReflTransGen (Step R W) (⟨ℓ, x ∘ Sum.inr, phs⟩, x ∘ Sum.inl)
      (⟨ℓ', x' ∘ Sum.inr, []⟩, x' ∘ Sum.inl) := by
  induction phs generalizing ℓ x with
  | nil =>
    obtain ⟨rfl, rfl⟩ := h
    exact .refl
  | cons ph phs ih =>
    obtain ⟨ℓ₁, x₁, hfirst, hrest⟩ := h
    have hsteps := ih hrest fun ph' hph' => hw ph' (List.mem_cons_of_mem _ hph')
    exact (steps_of_interleave hfirst (hw ph List.mem_cons_self)).trans hsteps

/-- **The runs of a workgroup alone are the executions of its phases.** -/
theorem runs_iff : w.proc.Runs m m' ↔ ∃ ℓ' sh', RunPhases w.phases w.locals
    (Sum.elim m w.shared) ℓ' (Sum.elim m' sh') := by
  constructor
  · rintro ⟨w', hdone, hsteps⟩
    exact ⟨_, _, runPhases_of_steps hsteps hdone⟩
  · rintro ⟨ℓ', sh', h⟩
    exact ⟨⟨ℓ', sh', []⟩, rfl, steps_of_runPhases h fun ph hph t a ha => w.within hph t ha⟩

theorem exists_runs [Fintype T] (w : Workgroup T L A S V) (m : A → V) :
    ∃ m', w.proc.Runs m m' := by
  obtain ⟨ℓ', x', h⟩ := RunPhases.exists_run w.phases w.locals (Sum.elim m w.shared)
  refine ⟨x' ∘ Sum.inl, runs_iff.2 ⟨ℓ', x' ∘ Sum.inr, ?_⟩⟩
  rwa [Sum.elim_comp_inl_inr]

end Workgroup

namespace Overlap

/-! ### Commands of different kinds -/

variable {L' : Type*}

/-- A command whose local states are embedded into others. -/
def Proc.via (f : L → L') (hf : Function.Injective f) (p : Proc L A V) : Proc L' A V where
  start := f p.start
  Done l' := ∃ l, f l = l' ∧ p.Done l
  Step s s' := ∃ l k, f l = s.1 ∧ f k = s'.1 ∧ p.Step (l, s.2) (k, s'.2)
  reads := p.reads
  writes := p.writes
  frame := by
    rintro l l' m m' ⟨_, _, _, _, h⟩
    exact p.frame h
  footprint := by
    rintro l l' m m' n ⟨k, k', hk, hk', h⟩ hn
    obtain ⟨n', hstep, heq⟩ := p.footprint h hn
    exact ⟨n', ⟨k, k', hk, hk', hstep⟩, heq⟩
  final := by
    rintro l m s ⟨k, hk, hdone⟩ ⟨k', _, hk', -, hstep⟩
    obtain rfl := hf (hk.trans hk'.symm)
    exact p.final hdone hstep

variable {p : Proc L A V} {f : L → L'} {m m' : A → V}

theorem Proc.steps_of_via (hf : Function.Injective f) {s : L' × (A → V)}
    (h : ReflTransGen (p.via f hf).Step (f p.start, m) s) :
    ∃ l, f l = s.1 ∧ ReflTransGen p.Step (p.start, m) (l, s.2) := by
  induction h with
  | refl => exact ⟨p.start, rfl, .refl⟩
  | tail _ hstep ih =>
    obtain ⟨l, hl, hsteps⟩ := ih
    obtain ⟨k, k', hk, hk', hstep⟩ := hstep
    obtain rfl := hf (hl.trans hk.symm)
    exact ⟨k', hk', hsteps.tail hstep⟩

theorem Proc.steps_via (hf : Function.Injective f) {s : L × (A → V)}
    (h : ReflTransGen p.Step (p.start, m) s) :
    ReflTransGen (p.via f hf).Step (f p.start, m) (f s.1, s.2) := by
  induction h with
  | refl => exact .refl
  | tail _ hstep ih => exact ih.tail ⟨_, _, rfl, rfl, hstep⟩

theorem Proc.runs_via (hf : Function.Injective f) : (p.via f hf).Runs m m' ↔ p.Runs m m' := by
  constructor
  · rintro ⟨_, ⟨l, rfl, hdone⟩, hsteps⟩
    obtain ⟨l', hl, hsteps'⟩ := steps_of_via hf hsteps
    obtain rfl := hf hl
    exact ⟨l', hdone, hsteps'⟩
  · rintro ⟨l, hdone, hsteps⟩
    exact ⟨f l, ⟨l, rfl, hdone⟩, steps_via hf hsteps⟩

/-! ### Lists of commands -/

variable {c : Cmd L A V} {cs ds : List (Cmd L A V)}

theorem inOrder_append : InOrder (cs ++ ds) m m' ↔ ∃ m₁, InOrder cs m m₁ ∧ InOrder ds m₁ m' := by
  induction cs generalizing m with
  | nil => exact ⟨fun h => ⟨m, rfl, h⟩, fun ⟨_, hm, h⟩ => (show _ = m from hm) ▸ h⟩
  | cons c cs ih =>
    simp only [List.cons_append, InOrder, ih]
    constructor
    · rintro ⟨m₁, h, m₂, h₁, h₂⟩
      exact ⟨m₂, ⟨m₁, h, h₁⟩, h₂⟩
    · rintro ⟨m₂, ⟨m₁, h, h₁⟩, h₂⟩
      exact ⟨m₁, h, m₂, h₁, h₂⟩

theorem exists_inOrder (h : ∀ c ∈ cs, ∀ m, ∃ m', c.proc.Runs m m') (m : A → V) :
    ∃ m', InOrder cs m m' := by
  induction cs generalizing m with
  | nil => exact ⟨m, rfl⟩
  | cons c cs ih =>
    obtain ⟨m₁, h₁⟩ := h c List.mem_cons_self m
    obtain ⟨m', h'⟩ := ih (fun d hd => h d (List.mem_cons_of_mem _ hd)) m₁
    exact ⟨m', m₁, h₁, h'⟩

/-- Among commands that do not conflict, each one decides alone about what only it may write. -/
theorem InOrder.alone (h : InOrder cs m m')
    (hc : cs.Pairwise fun c d => ∀ a, ¬ Conflict c.proc d.proc a) (hmem : c ∈ cs) :
    ∃ n, c.proc.Runs m n ∧
      ∀ a, (∀ d ∈ cs, a ∈ d.proc.writes → a ∈ c.proc.writes) → m' a = n a := by
  obtain ⟨n, hn, heq⟩ := h.of_mem hc hmem
  refine ⟨n, hn, fun a ha => ?_⟩
  by_cases hw : a ∈ c.proc.writes
  · exact heq a (.inr hw)
  · rw [hn.frame a hw]
    exact h.frame fun d hd hda => hw (ha d hd hda)

theorem Fenced.cons (hc : Clear c cs) (h : Fenced cs) : Fenced (c :: cs) := by
  intro i j d e hij hd he hbar
  obtain ⟨j, rfl⟩ : ∃ j', j = j' + 1 := ⟨j - 1, by omega⟩
  rw [List.getElem?_cons_succ] at he
  cases i with
  | zero =>
    obtain rfl := Option.some.inj hd
    obtain ⟨hj, rfl⟩ := List.getElem?_eq_some_iff.1 he
    refine hc (cs.take j) cs[j] (cs.drop (j + 1)) ?_ (hbar 0 c le_rfl hij rfl) ?_
    · rw [← List.drop_eq_getElem_cons, List.take_append_drop]
    · intro e he
      obtain ⟨k, hk⟩ := List.mem_iff_getElem?.1 he
      rw [List.getElem?_take] at hk
      split_ifs at hk with hlt
      · exact hbar (k + 1) e (Nat.zero_le _) (Nat.succ_lt_succ hlt) hk
  | succ i =>
    rw [List.getElem?_cons_succ] at hd
    exact h i j d e (Nat.lt_of_succ_lt_succ hij) hd he fun k f hik hkj hf =>
      hbar (k + 1) f (Nat.succ_le_succ hik) (Nat.succ_lt_succ hkj) hf

theorem Fenced.append (hcs : cs.Pairwise fun c d => ∀ a, ¬ Conflict c.proc d.proc a)
    (hclear : ∀ c ∈ cs, Clear c ds) (h : Fenced ds) : Fenced (cs ++ ds) := by
  induction cs with
  | nil => exact h
  | cons c cs ih =>
    obtain ⟨hhead, htail⟩ := List.pairwise_cons.1 hcs
    refine .cons ?_ (ih htail fun d hd => hclear d (List.mem_cons_of_mem _ hd))
    intro pre d post heq hc hpre
    rcases List.append_eq_append_iff.1 heq with ⟨l, rfl, hds⟩ | ⟨l, rfl, hl⟩
    · exact hclear c List.mem_cons_self l d post hds hc fun e he =>
        hpre e (List.mem_append_right _ he)
    · cases l with
      | nil =>
        rw [List.nil_append] at hl
        exact hclear c List.mem_cons_self [] d post hl.symm hc fun e he => nomatch he
      | cons e l =>
        obtain ⟨rfl, -⟩ := List.cons.inj hl
        exact hhead d (by simp)

end Overlap

end VllmVulkan
