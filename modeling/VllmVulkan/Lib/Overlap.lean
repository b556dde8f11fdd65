import Mathlib.Data.Set.Basic
import Mathlib.Logic.Relation
import Mathlib.Tactic.Set

/-!
# Commands that overlap between barriers

A device runs a list of commands on one memory.  Their steps interleave as they like, except that
no command takes a step before every command in front of an earlier barrier has finished.

* `Proc`, `Proc.Runs` : a command, by the steps it can take, and its runs alone;
* `Conflict` : two commands touch the same address and one of them writes it;
* `Ready`, `Exec` : the executions of a list of commands with barriers;
* `InOrder` : the commands run one by one;
* `Proc.swap` : **steps of commands that do not conflict commute**;
* `exec_iff_inOrder` : **when only commands with a barrier between them conflict, the overlapped
  executions are the executions in order**;
* `InOrder.of_mem` : among commands that do not conflict each one does what it would do alone.
-/

namespace VllmVulkan

namespace Overlap

open Relation

variable {L A V : Type*}

/-- A command: the steps of its local state and the memory, and the addresses it may touch. -/
structure Proc (L A V : Type*) where
  /-- The local state before its first step. -/
  start : L
  /-- It has finished. -/
  Done : L → Prop
  /-- One step. -/
  Step : L × (A → V) → L × (A → V) → Prop
  reads : Set A
  writes : Set A
  /-- A step changes only what the command writes. -/
  frame : ∀ {l l' m m'}, Step (l, m) (l', m') → ∀ a ∉ writes, m' a = m a
  /-- A step depends only on what the command touches. -/
  footprint : ∀ {l l' m m' n}, Step (l, m) (l', m') → (∀ a ∈ reads ∪ writes, n a = m a) →
    ∃ n', Step (l, n) (l', n') ∧ ∀ a ∈ writes, n' a = m' a
  /-- Nothing happens after the end. -/
  final : ∀ {l m s}, Done l → ¬ Step (l, m) s

/-- Both commands touch `a`, and one of them writes it. -/
def Conflict (p q : Proc L A V) (a : A) : Prop :=
  (a ∈ p.writes ∧ a ∈ q.reads ∪ q.writes) ∨ (a ∈ q.writes ∧ a ∈ p.reads ∪ p.writes)

/-- A command of a list, with the barrier after it. -/
structure Cmd (L A V : Type*) where
  proc : Proc L A V
  barrier : Bool

/-- A command and where it is. -/
abbrev Running (L A V : Type*) := Cmd L A V × L

/-- The command has finished. -/
def Running.Done (e : Running L A V) : Prop := e.1.proc.Done e.2

/-- A command that may take a step behind these: what is in front of a barrier has finished. -/
def Ready : List (Running L A V) → Prop
  | [] => True
  | e :: pre => ((∃ f ∈ e :: pre, f.1.barrier = true) → e.Done) ∧ Ready pre

/-- The executions of commands, until all have finished. -/
inductive Exec : List (Running L A V) → (A → V) → (A → V) → Prop
  | done {pool : List (Running L A V)} {m : A → V} (h : ∀ e ∈ pool, e.Done) : Exec pool m m
  | step (pre : List (Running L A V)) {post : List (Running L A V)} {c : Cmd L A V} {l l' : L}
    {m m' m'' : A → V}
    (hready : Ready pre) (hstep : c.proc.Step (l, m) (l', m'))
    (hrest : Exec (pre ++ (c, l') :: post) m' m'') : Exec (pre ++ (c, l) :: post) m m''

/-- A list of commands, none of which has taken a step. -/
def started (cs : List (Cmd L A V)) : List (Running L A V) := cs.map fun c => (c, c.proc.start)

namespace Proc

/-- The runs of a command alone. -/
def Runs (p : Proc L A V) (m m' : A → V) : Prop :=
  ∃ l, p.Done l ∧ ReflTransGen p.Step (p.start, m) (l, m')

end Proc

/-- The commands run one by one, in the order of the list. -/
def InOrder : List (Cmd L A V) → (A → V) → (A → V) → Prop
  | [], m, m' => m' = m
  | c :: cs, m, m' => ∃ m₁, c.proc.Runs m m₁ ∧ InOrder cs m₁ m'

/-- Only commands with a barrier between them conflict. -/
def Fenced (cs : List (Cmd L A V)) : Prop :=
  ∀ (i j : ℕ) (c d : Cmd L A V), i < j → cs[i]? = some c → cs[j]? = some d →
    (∀ (k : ℕ) (e : Cmd L A V), i ≤ k → k < j → cs[k]? = some e → e.barrier = false) →
    ∀ a, ¬ Conflict c.proc d.proc a

/-! ### Steps that commute -/

namespace Proc

variable {p q : Proc L A V}

/-- **Steps of commands that do not conflict commute.** -/
theorem swap (hc : ∀ a, ¬ Conflict p q a) {l l' k k' : L} {m m₁ m₂ : A → V}
    (hp : p.Step (l, m) (l', m₁)) (hq : q.Step (k, m₁) (k', m₂)) :
    ∃ n, q.Step (k, m) (k', n) ∧ p.Step (l, n) (l', m₂) := by
  have hqp : ∀ a ∈ q.reads ∪ q.writes, a ∉ p.writes := fun a ha hw => hc a (.inl ⟨hw, ha⟩)
  have hpq : ∀ a ∈ p.reads ∪ p.writes, a ∉ q.writes := fun a ha hw => hc a (.inr ⟨hw, ha⟩)
  obtain ⟨n, hn, hnw⟩ := q.footprint hq fun a ha => (p.frame hp a (hqp a ha)).symm
  have hnf := q.frame hn
  obtain ⟨n', hn', hnw'⟩ := p.footprint hp fun a ha => hnf a (hpq a ha)
  have hnf' := p.frame hn'
  have heq : n' = m₂ := by
    funext a
    by_cases hap : a ∈ p.writes
    · rw [hnw' a hap, q.frame hq a (hpq a (.inr hap))]
    · rw [hnf' a hap]
      by_cases haq : a ∈ q.writes
      · exact hnw a haq
      · rw [hnf a haq, q.frame hq a haq, p.frame hp a hap]
  subst heq
  exact ⟨n, hn, hn'⟩

theorem swap_steps (hc : ∀ a, ¬ Conflict p q a) {l l' : L} {m m₁ : A → V}
    (hp : p.Step (l, m) (l', m₁)) {s s' : L × (A → V)} (hq : ReflTransGen q.Step s s')
    (hs : s.2 = m₁) : ∃ n, ReflTransGen q.Step (s.1, m) (s'.1, n) ∧ p.Step (l, n) (l', s'.2) := by
  induction hq with
  | refl => exact ⟨m, .refl, by rw [hs]; exact hp⟩
  | @tail t u _ htu ih =>
    obtain ⟨n, hn, hp'⟩ := ih
    obtain ⟨n', hn', hp''⟩ := swap hc hp' htu
    exact ⟨n', hn.tail hn', hp''⟩

theorem eq_of_done {l : L} {m : A → V} {s : L × (A → V)} (hd : p.Done l)
    (h : ReflTransGen p.Step (l, m) s) : s = (l, m) := by
  rcases ReflTransGen.cases_head h with h | ⟨t, ht, -⟩
  · exact h.symm
  · exact absurd ht (p.final hd)

theorem frame_steps {s s' : L × (A → V)} (h : ReflTransGen p.Step s s') :
    ∀ a ∉ p.writes, s'.2 a = s.2 a := by
  induction h with
  | refl => exact fun _ _ => rfl
  | tail _ ht ih => exact fun a ha => (p.frame ht a ha).trans (ih a ha)

theorem footprint_steps {s s' : L × (A → V)} (h : ReflTransGen p.Step s s') {n : A → V}
    (hn : ∀ a ∈ p.reads ∪ p.writes, n a = s.2 a) :
    ∃ n', ReflTransGen p.Step (s.1, n) (s'.1, n') ∧
      ∀ a ∈ p.reads ∪ p.writes, n' a = s'.2 a := by
  induction h with
  | refl => exact ⟨n, .refl, hn⟩
  | @tail t u _ htu ih =>
    obtain ⟨n', hn', heq⟩ := ih
    obtain ⟨n'', hstep, hw⟩ := p.footprint htu heq
    refine ⟨n'', hn'.tail hstep, fun a ha => ?_⟩
    by_cases haw : a ∈ p.writes
    · exact hw a haw
    · rw [p.frame hstep a haw, heq a ha, p.frame htu a haw]

theorem Runs.frame {m m' : A → V} (h : p.Runs m m') : ∀ a ∉ p.writes, m' a = m a := by
  obtain ⟨l, -, h⟩ := h
  exact frame_steps h

theorem Runs.footprint {m m' n : A → V} (h : p.Runs m m')
    (hn : ∀ a ∈ p.reads ∪ p.writes, n a = m a) :
    ∃ n', p.Runs n n' ∧ ∀ a ∈ p.reads ∪ p.writes, n' a = m' a := by
  obtain ⟨l, hl, h⟩ := h
  obtain ⟨n', hn', heq⟩ := footprint_steps h hn
  exact ⟨n', ⟨l, hl, hn'⟩, heq⟩

end Proc

/-! ### Executions in order -/

theorem Exec.cons_done {e : Running L A V} (he : e.Done) {pool : List (Running L A V)}
    {m m' : A → V} (h : Exec pool m m') : Exec (e :: pool) m m' := by
  induction h with
  | done hall => exact .done (List.forall_mem_cons.2 ⟨he, hall⟩)
  | @step pre post c l l' m m' m'' hready hstep _ ih =>
    exact .step (e :: pre) ⟨fun _ => he, hready⟩ hstep ih

theorem Exec.cons_steps {c : Cmd L A V} {pool : List (Running L A V)} {s s' : L × (A → V)}
    {m' : A → V} (hs : ReflTransGen c.proc.Step s s') (h : Exec ((c, s'.1) :: pool) s'.2 m') :
    Exec ((c, s.1) :: pool) s.2 m' := by
  induction hs using ReflTransGen.head_induction_on with
  | refl => exact h
  | head ht _ ih => exact .step [] trivial ht ih

theorem exec_of_inOrder {cs : List (Cmd L A V)} {m m' : A → V} (h : InOrder cs m m') :
    Exec (started cs) m m' := by
  induction cs generalizing m with
  | nil =>
    obtain rfl : m' = m := h
    exact .done (by simp [started])
  | cons c cs ih =>
    obtain ⟨m₁, ⟨l, hl, hsteps⟩, hrest⟩ := h
    exact Exec.cons_steps hsteps (Exec.cons_done (e := (c, l)) hl (ih hrest))

/-- The commands that conflict with `c`, which stands in front, stand behind a barrier. -/
def Clear (c : Cmd L A V) (cs : List (Cmd L A V)) : Prop :=
  ∀ pre d post, cs = pre ++ d :: post → c.barrier = false → (∀ e ∈ pre, e.barrier = false) →
    ∀ a, ¬ Conflict c.proc d.proc a

/-- **The first command can always be run first**, when what it conflicts with stands behind a
barrier. -/
theorem Exec.head_first {e : Running L A V} {rest : List (Running L A V)} {m m'' : A → V}
    (h : Exec (e :: rest) m m'') (hclear : Clear e.1 (rest.map Prod.fst)) :
    ∃ l m₁, e.1.proc.Done l ∧ ReflTransGen e.1.proc.Step (e.2, m) (l, m₁) ∧
      Exec rest m₁ m'' := by
  generalize hpool : e :: rest = pool at h
  induction h generalizing e rest with
  | done hall =>
    subst hpool
    exact ⟨e.2, _, hall e List.mem_cons_self, .refl,
      .done fun f hf => hall f (List.mem_cons_of_mem _ hf)⟩
  | @step pre post d k k' m m₁ m'' hready hstep _ ih =>
    cases pre with
    | nil =>
      -- a step of the first command itself
      obtain ⟨rfl, rfl⟩ := List.cons.inj hpool
      obtain ⟨l, m₂, hl, hsteps, hexec⟩ := @ih (d, k') rest hclear rfl
      exact ⟨l, m₂, hl, .head hstep hsteps, hexec⟩
    | cons e' pre =>
      obtain ⟨rfl, rfl⟩ := List.cons.inj hpool
      have hclear' : Clear e.1 ((pre ++ (d, k') :: post).map Prod.fst) := by
        have hcmds : (pre.append ((d, k) :: post)).map Prod.fst =
            (pre ++ (d, k') :: post).map Prod.fst := by
          rw [List.append_eq, List.map_append, List.map_append, List.map_cons, List.map_cons]
        rwa [hcmds] at hclear
      obtain ⟨l, m₂, hl, hsteps, hexec⟩ := ih hclear' rfl
      by_cases hbar : ∃ f ∈ e :: pre, f.1.barrier = true
      · -- behind a barrier: the first command had finished
        have hd := hready.1 hbar
        obtain ⟨rfl, rfl⟩ := Prod.mk.inj (Proc.eq_of_done hd hsteps)
        exact ⟨e.2, m, hd, .refl, .step pre hready.2 hstep hexec⟩
      · -- no barrier: the two do not conflict
        simp only [not_exists, not_and, Bool.not_eq_true] at hbar
        have hfree : ∀ a, ¬ Conflict d.proc e.1.proc a := fun a hca =>
          hclear (pre.map Prod.fst) d (post.map Prod.fst) (by simp) (hbar e List.mem_cons_self)
            (List.forall_mem_map.2 fun f hf => hbar f (List.mem_cons_of_mem _ hf)) a hca.symm
        obtain ⟨n, hn, hstep'⟩ := Proc.swap_steps hfree hstep hsteps rfl
        exact ⟨l, n, hl, hn, .step pre hready.2 hstep' hexec⟩

theorem Fenced.tail {c : Cmd L A V} {cs : List (Cmd L A V)} (h : Fenced (c :: cs)) :
    Fenced cs := by
  intro i j d e hij hd he hbar
  refine h (i + 1) (j + 1) d e (by omega) hd he ?_
  intro k f hik hkj hf
  obtain ⟨k, rfl⟩ : ∃ k', k = k' + 1 := ⟨k - 1, by omega⟩
  exact hbar k f (by omega) (by omega) hf

theorem Fenced.clear {c : Cmd L A V} {cs : List (Cmd L A V)} (h : Fenced (c :: cs)) :
    Clear c cs := by
  rintro pre d post rfl hc hpre
  refine h 0 (pre.length + 1) c d (Nat.succ_pos _) rfl (by simp) ?_
  intro k e _ hk he
  cases k with
  | zero =>
    obtain rfl := Option.some.inj he
    exact hc
  | succ k =>
    rw [List.getElem?_cons_succ, List.getElem?_append_left (by omega)] at he
    exact hpre e (List.mem_of_getElem? he)

@[simp] theorem started_map_fst (cs : List (Cmd L A V)) : (started cs).map Prod.fst = cs := by
  rw [started, List.map_map]
  exact List.map_id cs

/-- **When only commands with a barrier between them conflict, the overlapped executions are the
executions in order.** -/
theorem exec_iff_inOrder {cs : List (Cmd L A V)} (h : Fenced cs) {m m' : A → V} :
    Exec (started cs) m m' ↔ InOrder cs m m' := by
  refine ⟨fun hexec => ?_, exec_of_inOrder⟩
  induction cs generalizing m with
  | nil =>
    generalize hpool : started ([] : List (Cmd L A V)) = pool at hexec
    cases hexec with
    | done => rfl
    | step => simp [started] at hpool
  | cons c cs ih =>
    obtain ⟨l, m₁, hl, hsteps, hrest⟩ :=
      @Exec.head_first L A V (c, c.proc.start) (started cs) m m' hexec
        (by rw [started_map_fst]; exact h.clear)
    exact ⟨m₁, ⟨l, hl, hsteps⟩, ih h.tail hrest⟩

theorem InOrder.frame {cs : List (Cmd L A V)} {m m' : A → V} (h : InOrder cs m m') {a : A}
    (ha : ∀ c ∈ cs, a ∉ c.proc.writes) : m' a = m a := by
  induction cs generalizing m with
  | nil => exact congrFun h a
  | cons c cs ih =>
    obtain ⟨m₁, hc, hrest⟩ := h
    rw [ih hrest fun d hd => ha d (List.mem_cons_of_mem _ hd), hc.frame a (ha c List.mem_cons_self)]

/-- Among commands that do not conflict each one does what it would do alone. -/
theorem InOrder.of_mem {cs : List (Cmd L A V)} {m m' : A → V} (h : InOrder cs m m')
    (hc : cs.Pairwise fun c d => ∀ a, ¬ Conflict c.proc d.proc a) {c : Cmd L A V} (hmem : c ∈ cs) :
    ∃ n, c.proc.Runs m n ∧ ∀ a ∈ c.proc.reads ∪ c.proc.writes, m' a = n a := by
  induction cs generalizing m with
  | nil => cases hmem
  | cons d cs ih =>
    obtain ⟨m₁, hd, hrest⟩ := h
    obtain ⟨hhead, htail⟩ := List.pairwise_cons.1 hc
    rcases List.mem_cons.1 hmem with rfl | hmem
    · refine ⟨m₁, hd, fun a ha => ?_⟩
      exact hrest.frame fun e he haw => hhead e he a (.inr ⟨haw, ha⟩)
    · obtain ⟨n, hn, heq⟩ := ih hrest htail hmem
      have hsame : ∀ a ∈ c.proc.reads ∪ c.proc.writes, m a = m₁ a := fun a ha =>
        (hd.frame a fun haw => hhead c hmem a (.inl ⟨haw, ha⟩)).symm
      obtain ⟨n', hn', heq'⟩ := hn.footprint hsame
      exact ⟨n', hn', fun a ha => (heq a ha).trans (heq' a ha).symm⟩

end Overlap

end VllmVulkan
