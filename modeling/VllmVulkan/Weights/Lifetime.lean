import Mathlib.Data.List.AList
import Mathlib.Data.List.Nodup

/-!
# The lifetime of a weight cache

A `_WeightCache` is a dict keyed by the ids of storages.  An entry holds the weakref whose callback
removes it.  An id is given out again once its storage has died.

* `State` : the dict, the storages that live and the weakrefs that live;
* `Event`, `Runs` : what can happen, and the states it leads to;
* `lastPut` : what a cache of storages, not of ids, would return;
* `Inv` : an entry has the last value put for a live storage, and a live weakref to it;
* `weightCache_lifetime` : **the cache is that of the live storages**.
-/

namespace VllmVulkan

namespace Lifetime

/-- A weakref object that `put` made. -/
structure WeakRef where
  /-- Its identity. -/
  name : ℕ
  /-- The storage it refers to. -/
  referent : ℕ
  /-- The `key` that its callback closes over. -/
  key : ℕ
  deriving DecidableEq, Repr

/-- A cache, and the objects it is about.  Storages are numbered in the order they are made. -/
structure State (V : Type) where
  /-- `_data`. -/
  data : AList fun _ : ℕ => WeakRef × V
  /-- The storages that live, with their ids. -/
  live : AList fun _ : ℕ => ℕ
  /-- The weakrefs that live. -/
  weakrefs : List WeakRef
  /-- How many storages were made. -/
  made : ℕ
  /-- How many weakrefs were made. -/
  refs : ℕ

variable {V : Type}

namespace State

/-- An empty cache. -/
def init : State V := ⟨∅, ∅, [], 0, 0⟩

variable (s : State V)

/-- The weakrefs that live when the entry of `key` is let go: only the entry held its weakref. -/
def released (key : ℕ) : List WeakRef :=
  s.weakrefs.filter fun r => (s.data.lookup key).map Prod.fst ≠ some r

/-- `get`, for a weight with storage `w`. -/
def get (w : ℕ) : Option V :=
  (s.live.lookup w).bind fun key => (s.data.lookup key).map Prod.snd

/-- `put`, for a weight with storage `w`. -/
def put (w : ℕ) (value : V) : State V :=
  match s.live.lookup w with
  | none => s
  | some key =>
    -- the old entry, and its weakref with it, goes when the new one is there
    let ref : WeakRef := ⟨s.refs, w, key⟩
    { s with
      data := s.data.insert key (ref, value)
      weakrefs := ref :: s.released key
      refs := s.refs + 1 }

/-- `_data.pop(key, None)`. -/
def pop (key : ℕ) : State V :=
  { s with data := s.data.erase key, weakrefs := s.released key }

/-- A storage dies: the callbacks of its weakrefs run. -/
def die (w : ℕ) : State V :=
  (s.weakrefs.filter (·.referent = w)).foldl (fun s r => s.pop r.key)
    { s with live := s.live.erase w }

/-- A storage is made, at an id that no live storage has. -/
def make (id : ℕ) : State V :=
  { s with live := s.live.insert s.made id, made := s.made + 1 }

end State

/-- What can happen to a cache. -/
inductive Event (V : Type) where
  | make (id : ℕ)
  | put (w : ℕ) (value : V)
  | get (w : ℕ)
  | die (w : ℕ)

/-- The events a state allows: ids of live storages are distinct, and a tensor's storage lives. -/
def Event.Ok (s : State V) : Event V → Prop
  | .make id => ∀ w ∈ s.live.keys, s.live.lookup w ≠ some id
  | .put w _ | .get w | .die w => w ∈ s.live.keys

instance (s : State V) : ∀ e : Event V, Decidable (e.Ok s)
  | .make id => inferInstanceAs (Decidable (∀ w ∈ s.live.keys, s.live.lookup w ≠ some id))
  | .put w _ | .get w | .die w => inferInstanceAs (Decidable (w ∈ s.live.keys))

/-- The state after an event. -/
def step (s : State V) : Event V → State V
  | .make id => s.make id
  | .put w value => s.put w value
  | .get _ => s
  | .die w => s.die w

/-- The histories that lead to a state, the newest event first. -/
inductive Runs : List (Event V) → State V → Prop
  | nil : Runs [] .init
  | cons {history : List (Event V)} {s : State V} {e : Event V} (h : Runs history s)
      (hok : e.Ok s) : Runs (e :: history) (step s e)

/-- The last value put for storage `w`. -/
def lastPut (w : ℕ) : List (Event V) → Option V
  | [] => none
  | .put w' value :: history => if w' = w then some value else lastPut w history
  | _ :: history => lastPut w history

/-! ### The invariant -/

/-- **The dict, the weakrefs and the storages fit together.** -/
structure Inv (s : State V) (history : List (Event V)) : Prop where
  /-- Live storages have distinct ids. -/
  ids : ∀ w w' id, s.live.lookup w = some id → s.live.lookup w' = some id → w = w'
  made : ∀ w ∈ s.live, w < s.made
  /-- Nothing was put for a storage not yet made. -/
  unmade : ∀ w, s.made ≤ w → lastPut w history = none
  /-- An entry has a live weakref, to the live storage with its key, and the last value put. -/
  entry : ∀ key r v, s.data.lookup key = some (r, v) → r ∈ s.weakrefs ∧ r.key = key ∧
    s.live.lookup r.referent = some key ∧ lastPut r.referent history = some v
  /-- A live weakref is held by its entry. -/
  held : ∀ r ∈ s.weakrefs, ∃ v, s.data.lookup r.key = some (r, v)
  /-- A live storage that was put has an entry. -/
  cached : ∀ w id, s.live.lookup w = some id → lastPut w history ≠ none → id ∈ s.data
  refs : ∀ r ∈ s.weakrefs, r.name < s.refs

theorem inv_init : Inv (.init : State V) [] where
  ids _ _ _ h := by simp [State.init] at h
  made _ h := absurd h (AList.notMem_empty _)
  unmade _ _ := rfl
  entry _ _ _ h := by simp [State.init] at h
  held _ h := by simp [State.init] at h
  cached _ _ h := by simp [State.init] at h
  refs _ h := by simp [State.init] at h

namespace Inv

variable {s : State V} {history : List (Event V)}

theorem referent_eq (h : Inv s history) {w key : ℕ} {r : WeakRef} {v : V}
    (hw : s.live.lookup w = some key) (hr : s.data.lookup key = some (r, v)) : r.referent = w :=
  h.ids _ _ key (h.entry key r v hr).2.2.1 hw

/-- **The cache returns what was put last.** -/
theorem get_eq (h : Inv s history) {w : ℕ} (hw : w ∈ s.live) : s.get w = lastPut w history := by
  obtain ⟨key, hkey⟩ := Option.isSome_iff_exists.1 (AList.lookup_isSome.2 hw)
  rw [State.get, hkey, Option.bind_some]
  cases hentry : s.data.lookup key with
  | none =>
    by_contra hne
    exact AList.lookup_eq_none.1 hentry (h.cached w key hkey (Ne.symm hne))
  | some entry =>
    obtain ⟨r, v⟩ := entry
    rw [← h.referent_eq hkey hentry, (h.entry key r v hentry).2.2.2]
    rfl

theorem mem_released (h : Inv s history) {r : WeakRef} (hr : r ∈ s.weakrefs) {key : ℕ} :
    r ∈ s.released key ↔ r.key ≠ key := by
  rw [State.released, List.mem_filter]
  simp only [hr, true_and, decide_eq_true_eq]
  obtain ⟨v, hv⟩ := h.held r hr
  constructor
  · rintro hne rfl
    exact hne (by rw [hv]; rfl)
  · intro hne heq
    obtain ⟨⟨r', v'⟩, hlookup, rfl⟩ := Option.map_eq_some_iff.1 heq
    exact hne (h.entry key r' v' hlookup).2.1

theorem of_released {r : WeakRef} {key : ℕ} (hr : r ∈ s.released key) : r ∈ s.weakrefs :=
  List.mem_of_mem_filter hr

/-- **`put` keeps the invariant.** -/
theorem put (h : Inv s history) {w : ℕ} (hw : w ∈ s.live) (value : V) :
    Inv (s.put w value) (.put w value :: history) := by
  obtain ⟨key, hkey⟩ := Option.isSome_iff_exists.1 (AList.lookup_isSome.2 hw)
  have hlast : ∀ w', lastPut w' (.put w value :: history) =
      if w = w' then some value else lastPut w' history := fun _ => rfl
  simp only [State.put, hkey]
  refine ⟨h.ids, h.made, fun w' hw' => ?_, fun k r v hentry => ?_, fun r hr => ?_,
    fun w' id hlive hput => ?_, fun r hr => ?_⟩
  · have := h.made w hw
    rw [hlast, if_neg (by dsimp only at hw'; omega)]
    exact h.unmade w' hw'
  · by_cases hk : k = key
    · subst hk
      rw [AList.lookup_insert] at hentry
      obtain ⟨rfl, rfl⟩ := Prod.mk.inj (Option.some.inj hentry)
      exact ⟨List.mem_cons_self, rfl, hkey, by rw [hlast, if_pos rfl]⟩
    · rw [AList.lookup_insert_ne hk] at hentry
      obtain ⟨hmem, hrk, hlive, hput⟩ := h.entry k r v hentry
      refine ⟨List.mem_cons_of_mem _ ((h.mem_released hmem).2 (by rwa [hrk])), hrk, hlive, ?_⟩
      rw [hlast, if_neg, hput]
      -- another key is the id of another storage
      rintro rfl
      exact hk (Option.some.inj (hlive.symm.trans hkey))
  · rcases List.mem_cons.1 hr with rfl | hr
    · exact ⟨value, AList.lookup_insert _⟩
    · have hne := (h.mem_released (of_released hr)).1 hr
      rw [AList.lookup_insert_ne hne]
      exact h.held r (of_released hr)
  · rw [AList.mem_insert]
    by_cases hww : w = w'
    · subst hww
      exact .inl (Option.some.inj (hlive.symm.trans hkey))
    · rw [hlast, if_neg hww] at hput
      exact .inr (h.cached w' id hlive hput)
  · rcases List.mem_cons.1 hr with rfl | hr
    · exact Nat.lt_succ_self _
    · exact Nat.lt_succ_of_lt (h.refs r (of_released hr))

/-- **A new storage keeps the invariant**: nothing is left under its id. -/
theorem make (h : Inv s history) {id : ℕ} (hid : ∀ w ∈ s.live, s.live.lookup w ≠ some id) :
    Inv (s.make id) (.make id :: history) := by
  have hnew : s.made ∉ s.live := fun hmem => lt_irrefl _ (h.made _ hmem)
  have hother : ∀ w id', (s.live.insert s.made id).lookup w = some id' →
      w = s.made ∧ id' = id ∨ w ≠ s.made ∧ s.live.lookup w = some id' := by
    intro w id' hw
    by_cases hws : w = s.made
    · subst hws
      rw [AList.lookup_insert] at hw
      exact .inl ⟨rfl, (Option.some.inj hw).symm⟩
    · rw [AList.lookup_insert_ne hws] at hw
      exact .inr ⟨hws, hw⟩
  have hfree : ∀ w, s.live.lookup w ≠ some id := fun w hw =>
    hid w (AList.lookup_isSome.1 (by rw [hw]; rfl)) hw
  refine ⟨fun w w' id' hw hw' => ?_, fun w hw => ?_, fun w hw => h.unmade w (Nat.le_of_succ_le hw),
    fun key r v hentry => ?_, h.held, fun w id' hw hput => ?_, h.refs⟩
  · rcases hother w id' hw with ⟨rfl, rfl⟩ | ⟨-, hold⟩ <;>
      rcases hother w' id' hw' with ⟨rfl, hid'⟩ | ⟨-, hold'⟩
    · rfl
    · exact absurd hold' (hfree w')
    · exact absurd (hid' ▸ hold) (hfree w)
    · exact h.ids w w' id' hold hold'
  · rcases (AList.mem_insert _).1 hw with rfl | hw
    · exact Nat.lt_succ_self _
    · exact Nat.lt_succ_of_lt (h.made w hw)
  · obtain ⟨hmem, hrk, hlive, hput⟩ := h.entry key r v hentry
    refine ⟨hmem, hrk, ?_, hput⟩
    have hne : r.referent ≠ s.made := by
      intro heq
      rw [heq, AList.lookup_eq_none.2 hnew] at hlive
      exact absurd hlive (by simp)
    change (s.live.insert s.made id).lookup r.referent = some key
    rw [AList.lookup_insert_ne hne, hlive]
  · rcases hother w id' hw with ⟨rfl, -⟩ | ⟨-, hold⟩
    · exact absurd (h.unmade s.made le_rfl) hput
    · exact h.cached w id' hold hput

end Inv

/-! ### Deaths -/

theorem State.pop_pop (s : State V) (key : ℕ) : (s.pop key).pop key = s.pop key := by
  have hnone : (s.pop key).data.lookup key = none := AList.lookup_erase ..
  have hdata : (s.pop key).data.erase key = (s.pop key).data := by
    refine AList.ext ?_
    exact List.kerase_of_notMem_keys (AList.lookup_eq_none.1 hnone)
  have hrefs : (s.pop key).released key = (s.pop key).weakrefs := by
    rw [State.released, hnone]
    simp
  rw [State.pop, hdata, hrefs]

theorem State.foldl_pop (key : ℕ) : ∀ (rs : List WeakRef) (s : State V), (∀ r ∈ rs, r.key = key) →
    rs ≠ [] → rs.foldl (fun s r => s.pop r.key) s = s.pop key
  | [], _, _, hne => absurd rfl hne
  | [r], s, hkeys, _ => by rw [List.foldl_cons, hkeys r List.mem_cons_self, List.foldl_nil]
  | r :: r' :: rs, s, hkeys, _ => by
    rw [List.foldl_cons, hkeys r List.mem_cons_self,
      foldl_pop key (r' :: rs) _ (fun q hq => hkeys q (List.mem_cons_of_mem _ hq)) (by simp),
      State.pop_pop]

/-- **A death removes the entry at the id of the storage, and nothing else.** -/
theorem Inv.die_eq {s : State V} {history : List (Event V)} (h : Inv s history) {w key : ℕ}
    (hw : s.live.lookup w = some key) :
    s.die w = { s.pop key with live := s.live.erase w } := by
  have hkeys : ∀ r ∈ s.weakrefs.filter (·.referent = w), r.key = key := by
    intro r hr
    obtain ⟨hmem, href⟩ := List.mem_filter.1 hr
    obtain ⟨v, hv⟩ := h.held r hmem
    have hlive := (h.entry _ r v hv).2.2.1
    rw [of_decide_eq_true href, hw] at hlive
    exact (Option.some.inj hlive).symm
  by_cases hnil : s.weakrefs.filter (·.referent = w) = []
  · -- no weakref to the storage lives, so it has no entry
    have hnone : s.data.lookup key = none := by
      by_contra hne
      obtain ⟨⟨r, v⟩, hr⟩ := Option.ne_none_iff_exists'.1 hne
      have hmem : r ∈ s.weakrefs.filter (·.referent = w) :=
        List.mem_filter.2 ⟨(h.entry key r v hr).1, decide_eq_true (h.referent_eq hw hr)⟩
      rw [hnil] at hmem
      exact absurd hmem List.not_mem_nil
    have hdata : s.data.erase key = s.data :=
      AList.ext (List.kerase_of_notMem_keys (AList.lookup_eq_none.1 hnone))
    have hrefs : s.released key = s.weakrefs := by
      rw [State.released, hnone]
      simp
    rw [State.die, hnil, List.foldl_nil, State.pop, hdata, hrefs]
  · rw [State.die, State.foldl_pop key _ _ hkeys hnil]
    rfl

/-- **A death keeps the invariant.** -/
theorem Inv.die {s : State V} {history : List (Event V)} (h : Inv s history) {w : ℕ}
    (hw : w ∈ s.live) : Inv (s.die w) (.die w :: history) := by
  obtain ⟨key, hkey⟩ := Option.isSome_iff_exists.1 (AList.lookup_isSome.2 hw)
  rw [h.die_eq hkey]
  have hlive : ∀ w' id, (s.live.erase w).lookup w' = some id →
      w' ≠ w ∧ s.live.lookup w' = some id := by
    intro w' id hw'
    by_cases hww : w' = w
    · subst hww
      rw [AList.lookup_erase] at hw'
      exact absurd hw' (by simp)
    · exact ⟨hww, by rwa [AList.lookup_erase_ne hww] at hw'⟩
  have hne : ∀ w' id, w' ≠ w → s.live.lookup w' = some id → id ≠ key := by
    rintro w' id hww hw' rfl
    exact hww (h.ids w' w id hw' hkey)
  refine ⟨fun w₁ w₂ id h₁ h₂ => h.ids w₁ w₂ id (hlive w₁ id h₁).2 (hlive w₂ id h₂).2,
    fun w' hw' => h.made w' (AList.mem_erase.1 hw').2, h.unmade, fun k r v hentry => ?_,
    fun r hr => ?_, fun w' id hw' hput => ?_, fun r hr => h.refs r (Inv.of_released hr)⟩
  · have hk : k ≠ key := by
      rintro rfl
      rw [State.pop, AList.lookup_erase] at hentry
      exact absurd hentry (by simp)
    rw [State.pop, AList.lookup_erase_ne hk] at hentry
    obtain ⟨hmem, hrk, hr, hput⟩ := h.entry k r v hentry
    refine ⟨(h.mem_released hmem).2 (by rwa [hrk]), hrk, ?_, hput⟩
    have href : r.referent ≠ w := by
      intro heq
      rw [heq, hkey] at hr
      exact hk (Option.some.inj hr).symm
    change (s.live.erase w).lookup r.referent = some k
    rw [AList.lookup_erase_ne href, hr]
  · have hk := (h.mem_released (Inv.of_released hr)).1 hr
    rw [State.pop, AList.lookup_erase_ne hk]
    exact h.held r (Inv.of_released hr)
  · obtain ⟨hww, hold⟩ := hlive w' id hw'
    exact AList.mem_erase.2 ⟨hne w' id hww hold, h.cached w' id hold hput⟩

/-- **Every reachable state has the invariant.** -/
theorem Runs.inv {history : List (Event V)} {s : State V} (h : Runs history s) :
    Inv s history := by
  induction h with
  | nil => exact inv_init
  | @cons history s e _ hok ih =>
    cases e with
    | make id => exact ih.make hok
    | put w value => exact ih.put hok value
    | get w => exact ⟨ih.ids, ih.made, ih.unmade, ih.entry, ih.held, ih.cached, ih.refs⟩
    | die w => exact ih.die hok

/-! ### The entries -/

/-- **The keys of the dict are the ids of the live storages that were put.** -/
theorem Inv.length_data {s : State V} {history : List (Event V)} (h : Inv s history) :
    s.data.entries.length =
      (s.live.keys.filter fun w => (lastPut w history).isSome).length := by
  set cached := s.live.keys.filter fun w => (lastPut w history).isSome with hcached
  have hmem : ∀ w, w ∈ cached ↔ w ∈ s.live ∧ (lastPut w history).isSome := fun w => by
    rw [hcached, List.mem_filter, AList.mem_keys]
  have hperm : s.data.keys.Perm (cached.map fun w => (s.live.lookup w).getD 0) := by
    refine (List.perm_ext_iff_of_nodup s.data.keys_nodup ?_).2 fun key => ?_
    · refine (s.live.keys_nodup.filter _).map_on ?_
      intro w hw w' hw' heq
      obtain ⟨id, hid⟩ := Option.isSome_iff_exists.1 (AList.lookup_isSome.2 ((hmem w).1 hw).1)
      obtain ⟨id', hid'⟩ := Option.isSome_iff_exists.1 (AList.lookup_isSome.2 ((hmem w').1 hw').1)
      rw [hid, hid', Option.getD_some, Option.getD_some] at heq
      subst heq
      exact h.ids w w' id hid hid'
    · rw [← AList.mem_keys, List.mem_map]
      constructor
      · intro hkey
        obtain ⟨⟨r, v⟩, hr⟩ := Option.isSome_iff_exists.1 (AList.lookup_isSome.2 hkey)
        obtain ⟨-, -, hlive, hput⟩ := h.entry key r v hr
        refine ⟨r.referent, (hmem _).2 ⟨AList.lookup_isSome.1 (by rw [hlive]; rfl), ?_⟩, ?_⟩
        · rw [hput]
          rfl
        · rw [hlive, Option.getD_some]
      · rintro ⟨w, hw, rfl⟩
        obtain ⟨hlive, hput⟩ := (hmem w).1 hw
        obtain ⟨id, hid⟩ := Option.isSome_iff_exists.1 (AList.lookup_isSome.2 hlive)
        rw [hid, Option.getD_some]
        refine h.cached w id hid ?_
        intro hnone
        rw [hnone] at hput
        exact absurd hput (by simp)
  have hlen := hperm.length_eq
  rw [List.length_map] at hlen
  rw [← hlen, AList.keys, List.keys, List.length_map]

/-- **A weight cache is a cache of the live storages.**  It returns what was put last for a live
storage, the death of a storage leaves what it returns for the others, and it has an entry for each
live storage that was put. -/
theorem weightCache_lifetime {history : List (Event V)} {s : State V} (h : Runs history s) :
    (∀ w ∈ s.live, s.get w = lastPut w history) ∧
    (∀ w ∈ s.live, ∀ w' ∈ s.live, w' ≠ w → ∀ id, s.live.lookup w' = some id →
      (s.die w).data.lookup id = s.data.lookup id ∧ (s.die w).get w' = s.get w') ∧
    s.data.entries.length =
      (s.live.keys.filter fun w => (lastPut w history).isSome).length := by
  have hinv := h.inv
  refine ⟨fun w hw => hinv.get_eq hw, fun w hw w' hw' hne id hid => ?_, hinv.length_data⟩
  obtain ⟨key, hkey⟩ := Option.isSome_iff_exists.1 (AList.lookup_isSome.2 hw)
  have hid' : id ≠ key := by
    rintro rfl
    exact hne (hinv.ids w' w id hid hkey)
  have hlive : w' ∈ (s.die w).live := by
    rw [hinv.die_eq hkey]
    exact AList.mem_erase.2 ⟨hne, hw'⟩
  refine ⟨?_, ?_⟩
  · rw [hinv.die_eq hkey]
    exact AList.lookup_erase_ne hid'
  · rw [(hinv.die hw).get_eq hlive, hinv.get_eq hw']
    rfl

/-- A storage is put twice and dies, and the next one gets its id. -/
theorem weightCache_lifetime_reused :
    (step (step (step (step (step (.init : State ℕ) (.make 7)) (.put 0 1)) (.put 0 2)) (.die 0))
      (.make 7)).get 1 = lastPut 1 [.make 7, .die 0, .put 0 2, .put 0 1, .make 7] :=
  (weightCache_lifetime (((((Runs.nil.cons (by decide)).cons (by decide)).cons (by decide)).cons
    (by decide)).cons (by decide))).1 1 (by decide)

end Lifetime

end VllmVulkan
