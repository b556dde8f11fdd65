import VllmVulkan.Attention.Entry
import VllmVulkan.Lib.Machine
import Mathlib.Logic.Function.Basic

/-!
# The mirrors of many KV caches

A mirror entry is found through two caches: a slot of the layer, which compares tensor objects, and
the module's dict, which is keyed on the address of the whole storage and compares shapes and
dtypes. Tensors come and go: they are views of storages, storages are released, and their addresses
are given out again.

* `KvTensor` : a KV cache tensor, with the memory it denotes;
* `getOrCreateVulkanKvCache`, `getKvCacheEntry` : the two lookups;
* `World`, `World.step` : the tensors and the caches, and what happens to them;
* `OwnMirrors` : tensors that were given one entry denote one memory, and the first entry given to a
  memory is clean;
* `World.StepOk` : the condition on a lookup: the tensor last resolved at its address, if it has the
  same shape and dtype, denotes the same memory;
* `World.ownMirrors_iff` : **each KV cache has its own mirror exactly when every lookup meets it**;
* `shared_mirror` : two views of one storage, and a storage at the address of a released one.
-/

namespace VllmVulkan

namespace Attention

open Machine

/-! ### Tensors -/

/-- A `torch.dtype`, as far as `_kv_cache_dtype_size` distinguishes it. -/
inductive KvDtype where
  | float16
  | float32
  | other (name : String)
  deriving DecidableEq, Repr

/-- A storage that was allocated. -/
structure Storage where
  /-- Its lifetime: no other allocation has it. -/
  lifetime : ℕ
  /-- `data_ptr()`. -/
  dataPtr : ℕ
  deriving DecidableEq, Repr

/-- A tensor bound as a `kv_cache`. -/
structure KvTensor where
  /-- `untyped_storage()`. -/
  storage : Storage
  /-- `storage_offset()`. -/
  offset : ℕ
  shape : List ℕ
  /-- `stride()`. -/
  strides : List ℕ
  dtype : KvDtype
  deriving DecidableEq, Repr

/-- The memory a tensor denotes. -/
structure Memory where
  lifetime : ℕ
  offset : ℕ
  shape : List ℕ
  strides : List ℕ
  deriving DecidableEq, Repr

/-- The memory of a tensor. -/
def KvTensor.memory (t : KvTensor) : Memory := ⟨t.storage.lifetime, t.offset, t.shape, t.strides⟩

/-- `_kv_cache_storage_key`. -/
def kvCacheStorageKey (t : KvTensor) : ℕ := t.storage.dataPtr

/-- `_kv_cache_dtype_size`. -/
def kvCacheDtypeSize : KvDtype → Py ℕ
  | .float16 => .ok 2
  | .float32 => .ok 4
  | .other name => .error (.valueError s!"unsupported Vulkan KV cache dtype: {name}")

/-- The layout of the mirror of a tensor of this shape and dtype. -/
def kvCacheLayout (shape : List ℕ) (dtype : KvDtype) : Py VulkanPagedKVLayout :=
  match shape with
  | [2, numBlocks, numKvHeads, blockSize, headSize] => do
    let dtypeSize ← kvCacheDtypeSize dtype
    let spec ← KVCacheLayerSpec.new 0 numKvHeads headSize blockSize dtypeSize
    VulkanPagedKVLayout.fromLayerSpecs [spec] numBlocks
  | _ => .error (.valueError
      s!"expected KV cache shape [2, blocks, heads, block, dim], got {pyTuple shape}")

/-! ### The two lookups -/

/-- `_VulkanKVCacheEntry`. -/
structure KvEntry (V : Type) where
  storageKey : ℕ
  shape : List ℕ
  dtype : KvDtype
  /-- The `id` of the activation `alloc_activation` returned. -/
  cache : ℕ
  /-- The layout, what the activation holds, the bitmap and the memo. -/
  data : Entry V

/-- What a call does with the data of an entry. -/
inductive Use (V : Type) where
  | mark (slots : List ℤ)
  | store (ss : List (ℕ × V))
  | check (excludeCurrentToken : Bool) (blockTable : List (List ℤ)) (seqLens : List ℕ)

variable {V : Type}

/-- The data of an entry after a use. -/
def Use.apply (e : Entry V) : Use V → Entry V
  | mark slots => e.mark slots
  | store ss => e.store ss
  | check x blockTable seqLens => (e.hasSequences x blockTable seqLens).2

/-- An entry after its uses by a call. -/
def KvEntry.use (uses : List (Use V)) (e : KvEntry V) : KvEntry V :=
  { e with data := uses.foldl Use.apply e.data }

/-- The entries, and the dict in front of them. -/
structure Caches (V : Type) where
  /-- The entries that were created, oldest first; an entry is known by its position. -/
  entries : List (KvEntry V)
  /-- `_VULKAN_KV_CACHES`. -/
  vulkanKvCaches : ℕ → Option ℕ
  /-- The dict holds entries under their own keys. -/
  resident : ∀ key id, vulkanKvCaches key = some id →
    ∃ e, entries[id]? = some e ∧ e.storageKey = key

namespace Caches

/-- The caches after import. -/
def init : Caches V := ⟨[], fun _ => none, fun _ _ h => nomatch h⟩

variable (c : Caches V)

/-- The entry under a key of the dict, with its position. -/
def get (key : ℕ) : Option (ℕ × KvEntry V) :=
  (c.vulkanKvCaches key).bind fun id => c.entries[id]?.map fun e => (id, e)

/-- `_VULKAN_KV_CACHES.pop(key, None)`. -/
def pop (key : ℕ) : Caches V where
  entries := c.entries
  vulkanKvCaches := Function.update c.vulkanKvCaches key none
  resident := fun k id h => by
    by_cases hk : k = key
    · rw [hk, Function.update_self] at h
      cases h
    · rw [Function.update_of_ne hk] at h
      exact c.resident k id h

/-- A new entry, under its key. -/
def insert (e : KvEntry V) : Caches V where
  entries := c.entries ++ [e]
  vulkanKvCaches := Function.update c.vulkanKvCaches e.storageKey (some c.entries.length)
  resident := fun k id h => by
    by_cases hk : k = e.storageKey
    · rw [hk, Function.update_self] at h
      obtain rfl := Option.some.inj h
      exact ⟨e, by simp, hk.symm⟩
    · rw [Function.update_of_ne hk] at h
      obtain ⟨e', he', hkey⟩ := c.resident k id h
      exact ⟨e', by rw [List.getElem?_append_left (List.getElem?_eq_some_iff.1 he').1, he'], hkey⟩

/-- The caches after a call used the entry `id`. -/
def use (id : ℕ) (uses : List (Use V)) : Caches V where
  entries := c.entries.modify id (KvEntry.use uses)
  vulkanKvCaches := c.vulkanKvCaches
  resident := fun k i h => by
    obtain ⟨e, he, hkey⟩ := c.resident k i h
    rw [List.getElem?_modify, he]
    exact ⟨_, rfl, by split_ifs <;> exact hkey⟩

/-- The entry is for a tensor of this key, shape and dtype. -/
def Fits (e : KvEntry V) (t : KvTensor) : Prop :=
  e.storageKey = kvCacheStorageKey t ∧ e.shape = t.shape ∧ e.dtype = t.dtype

instance (e : KvEntry V) (t : KvTensor) : Decidable (Fits e t) := by unfold Fits; infer_instance

/-- The entry made for a tensor, with the activation the context allocated. -/
def newEntry (zero : V) (t : KvTensor) (layout : VulkanPagedKVLayout) (cache : ℕ) : KvEntry V where
  storageKey := kvCacheStorageKey t
  shape := t.shape
  dtype := t.dtype
  cache := cache
  data := Entry.fresh layout zero

/-- The second half of `_get_or_create_vulkan_kv_cache`: a new entry.  `alloc` is what
`alloc_activation` and `update_activation` do. -/
def createEntry (zero : V) (t : KvTensor) (alloc : Py ℕ) : Caches V × Py ℕ :=
  match kvCacheLayout t.shape t.dtype with
  | .error err => (c, .error err)
  | .ok layout =>
    match alloc with
    | .error err => (c, .error err)
    | .ok cache => (c.insert (newEntry zero t layout cache), .ok c.entries.length)

/-- `_get_or_create_vulkan_kv_cache`, which returns the position of the entry. -/
def getOrCreateVulkanKvCache (zero : V) (t : KvTensor) (alloc : Py ℕ) : Caches V × Py ℕ :=
  match c.get (kvCacheStorageKey t) with
  | some (id, e) =>
    if Fits e t then (c, .ok id)
    else (c.pop (kvCacheStorageKey t)).createEntry zero t alloc
  | none => c.createEntry zero t alloc

/-- `_get_kv_cache_entry`, for the tensor object `obj`: `slot` is the pair of
`_cached_kv_cache_tensor` and `_cached_kv_cache_entry`. -/
def getKvCacheEntry (zero : V) (slot : Option (ℕ × ℕ)) (obj : ℕ) (t : KvTensor) (alloc : Py ℕ) :
    Caches V × Option (ℕ × ℕ) × Py ℕ :=
  match slot with
  | some (cachedObj, id) =>
    if cachedObj = obj then (c, slot, .ok id) else resolve
  | none => resolve
where
  resolve : Caches V × Option (ℕ × ℕ) × Py ℕ :=
    match c.getOrCreateVulkanKvCache zero t alloc with
    | (c, .ok id) => (c, some (obj, id), .ok id)
    | (c, .error err) => (c, slot, .error err)

end Caches

/-! ### The world of the caches -/

/-- An attention layer. -/
structure Layer where
  /-- The tensor object bound as its `kv_cache`. -/
  bound : Option ℕ
  /-- `_cached_kv_cache_tensor` and `_cached_kv_cache_entry`. -/
  cached : Option (ℕ × ℕ)
  deriving DecidableEq, Repr

/-- The tensor objects a layer refers to. -/
def Layer.refs (l : Layer) : List ℕ := l.bound.toList ++ (l.cached.map Prod.fst).toList

/-- A lookup that returned an entry. -/
structure Lookup (V : Type) where
  tensor : KvTensor
  /-- The entry. -/
  id : ℕ
  /-- What the entry held. -/
  found : Entry V

/-- The tensors, the layers and the caches. -/
structure World (V : Type) where
  caches : Caches V
  layers : List Layer
  /-- The tensors that were made; a tensor object is known by its position. -/
  objects : List KvTensor
  /-- The storages that are live. -/
  storages : List Storage
  /-- The lifetime of the next storage. -/
  nextLifetime : ℕ
  /-- The tensor last resolved through the dict at an address, as long as the dict has its entry. -/
  resolved : ℕ → Option KvTensor
  /-- The lookups that returned an entry, oldest first. -/
  lookups : List (Lookup V)

namespace World

/-- The world after the model was built, with `numLayers` layers. -/
def init (numLayers : ℕ) : World V where
  caches := Caches.init
  layers := List.replicate numLayers ⟨none, none⟩
  objects := []
  storages := []
  nextLifetime := 0
  resolved := fun _ => none
  lookups := []

variable (w : World V)

/-- A tensor object of the storage is bound to a layer or held in a slot. -/
def InUse (lifetime : ℕ) : Prop :=
  ∃ l ∈ w.layers, ∃ obj ∈ l.refs, ∃ t ∈ w.objects[obj]?, t.storage.lifetime = lifetime

instance (lifetime : ℕ) : Decidable (w.InUse lifetime) := by unfold InUse; infer_instance

/-- The layer at a position, with the tensor object bound to it. -/
def boundTensor (layer : ℕ) : Option (Layer × ℕ × KvTensor) :=
  w.layers[layer]?.bind fun l => l.bound.bind fun obj => w.objects[obj]?.map fun t => (l, obj, t)

/-- A forward call of a layer finds the entry of its KV cache and uses it. -/
def lookup (zero : V) (layer : ℕ) (alloc : Py ℕ) (uses : List (Use V)) :
    World V × Option (Py ℕ) :=
  match w.boundTensor layer with
  | none => (w, none)
  | some (l, obj, t) =>
    let r := w.caches.getKvCacheEntry zero l.cached obj t alloc
    let resolved (found : Option KvTensor) :=
      if l.cached.map Prod.fst = some obj then w.resolved
      else Function.update w.resolved (kvCacheStorageKey t) found
    match r.2.2 with
    | .error err => ({ w with caches := r.1, resolved := resolved none }, some (.error err))
    | .ok id =>
      ({ w with
          caches := r.1.use id uses
          layers := w.layers.set layer { l with cached := r.2.1 }
          resolved := resolved (some t)
          lookups := w.lookups ++ (r.1.entries[id]?.map fun e => ⟨t, id, e.data⟩).toList },
        some (.ok id))

end World

/-- What happens to the tensors and the caches. -/
inductive CacheEvent (V : Type) where
  /-- A storage is allocated at a free address. -/
  | allocate (dataPtr : ℕ)
  /-- A view of a live storage is made. -/
  | view (lifetime offset : ℕ) (shape strides : List ℕ) (dtype : KvDtype)
  /-- A tensor object of a live storage, or nothing, is bound to a layer. -/
  | bind (layer : ℕ) (obj : Option ℕ)
  /-- A storage that nothing refers to is released. -/
  | release (lifetime : ℕ)
  /-- A forward call of a layer. -/
  | lookup (layer : ℕ) (alloc : Py ℕ) (uses : List (Use V))

/-- One event, with the result of a lookup; an event that cannot happen changes nothing. -/
def World.step (zero : V) (w : World V) : CacheEvent V → World V × Option (Py ℕ)
  | .allocate dataPtr =>
    if dataPtr ∈ w.storages.map Storage.dataPtr then (w, none)
    else
      ({ w with
          storages := ⟨w.nextLifetime, dataPtr⟩ :: w.storages
          nextLifetime := w.nextLifetime + 1 }, none)
  | .view lifetime offset shape strides dtype =>
    match w.storages.find? fun s => s.lifetime = lifetime with
    | none => (w, none)
    | some storage =>
      ({ w with objects := w.objects ++ [⟨storage, offset, shape, strides, dtype⟩] }, none)
  | .bind layer obj =>
    if ∀ o ∈ obj, ∃ t ∈ w.objects[o]?, t.storage ∈ w.storages then
      ({ w with layers := w.layers.modify layer fun l => { l with bound := obj } }, none)
    else (w, none)
  | .release lifetime =>
    if w.InUse lifetime then (w, none)
    else ({ w with storages := w.storages.filter fun s => s.lifetime ≠ lifetime }, none)
  | .lookup layer alloc uses => w.lookup zero layer alloc uses

/-- Nothing is marked, and nothing is remembered. -/
def Entry.Clean (e : Entry V) : Prop := (∀ i, ¬ e.Marked i) ∧ e.verifiedPrefixByBlocks = []

/-- Each memory has its own mirror. -/
structure OwnMirrors (ls : List (Lookup V)) : Prop where
  /-- Tensors that were given one entry denote one memory. -/
  own : ∀ l ∈ ls, ∀ l' ∈ ls, l.id = l'.id → l.tensor.memory = l'.tensor.memory
  /-- The first entry given to a memory is clean. -/
  clean : ∀ pre l post, ls = pre ++ l :: post →
    (∀ l' ∈ pre, l'.tensor.memory ≠ l.tensor.memory) → l.found.Clean

/-- The condition on an event: where a lookup goes past the slot of its layer, the tensor last
resolved at the address, if it has the same shape and dtype, denotes the same memory. -/
def World.StepOk (w : World V) : CacheEvent V → Prop
  | .lookup layer _ _ => ∀ l obj t, w.boundTensor layer = some (l, obj, t) →
    l.cached.map Prod.fst ≠ some obj → ∀ t₀, w.resolved (kvCacheStorageKey t) = some t₀ →
      t₀.shape = t.shape → t₀.dtype = t.dtype → t₀.memory = t.memory
  | _ => True

/-! ### What a lookup does -/

namespace Caches

variable {c : Caches V} {zero : V} {t : KvTensor} {alloc : Py ℕ}

theorem get_eq_some {key id : ℕ} {e : KvEntry V} : c.get key = some (id, e) ↔
    c.vulkanKvCaches key = some id ∧ c.entries[id]? = some e := by
  simp only [get, Option.bind_eq_some_iff, Option.map_eq_some_iff, Prod.mk.injEq]
  constructor
  · rintro ⟨id', h, e', he, rfl, rfl⟩
    exact ⟨h, he⟩
  · rintro ⟨h, he⟩
    exact ⟨id, h, e, he, rfl, rfl⟩

theorem get_eq_none {key : ℕ} (h : c.get key = none) : c.vulkanKvCaches key = none := by
  cases hk : c.vulkanKvCaches key with
  | none => rfl
  | some id =>
    obtain ⟨e, he, -⟩ := c.resident key id hk
    rw [get_eq_some.2 ⟨hk, he⟩] at h
    cases h

/-- What a lookup does: the slot has the tensor object, or the dict has a fitting entry, or an entry
is created, or the call raises. -/
inductive Found (c : Caches V) (zero : V) (slot : Option (ℕ × ℕ)) (obj : ℕ) (t : KvTensor)
    (alloc : Py ℕ) : Caches V × Option (ℕ × ℕ) × Py ℕ → Prop where
  | slot (id : ℕ) (hslot : slot = some (obj, id)) : Found c zero slot obj t alloc (c, slot, .ok id)
  | dict (id : ℕ) (e : KvEntry V) (hslot : slot.map Prod.fst ≠ some obj)
      (hget : c.get (kvCacheStorageKey t) = some (id, e)) (hfits : Fits e t) :
      Found c zero slot obj t alloc (c, some (obj, id), .ok id)
  | created (layout : VulkanPagedKVLayout) (cache : ℕ) (c' : Caches V)
      (halloc : alloc = .ok cache) (hslot : slot.map Prod.fst ≠ some obj)
      (hget : ∀ id e, c.get (kvCacheStorageKey t) = some (id, e) → ¬ Fits e t)
      (hentries : c'.entries = c.entries ++ [newEntry zero t layout cache])
      (hdict : c'.vulkanKvCaches =
        Function.update c.vulkanKvCaches (kvCacheStorageKey t) (some c.entries.length)) :
      Found c zero slot obj t alloc (c', some (obj, c.entries.length), .ok c.entries.length)
  | raised (err : PyError) (c' : Caches V) (hslot : slot.map Prod.fst ≠ some obj)
      (hget : ∀ id e, c.get (kvCacheStorageKey t) = some (id, e) → ¬ Fits e t)
      (hentries : c'.entries = c.entries)
      (hdict : c'.vulkanKvCaches =
        Function.update c.vulkanKvCaches (kvCacheStorageKey t) none) :
      Found c zero slot obj t alloc (c', slot, .error err)

/-- A new entry is appended and put under the key of the tensor, or nothing changes. -/
theorem createEntry_cases (c : Caches V) (zero : V) (t : KvTensor) (alloc : Py ℕ) :
    (∃ layout cache, alloc = .ok cache ∧ c.createEntry zero t alloc =
      (c.insert (newEntry zero t layout cache), .ok c.entries.length)) ∨
    ∃ err, c.createEntry zero t alloc = (c, .error err) := by
  unfold createEntry
  cases kvCacheLayout t.shape t.dtype with
  | error err => exact .inr ⟨err, rfl⟩
  | ok layout =>
    cases alloc with
    | error err => exact .inr ⟨err, rfl⟩
    | ok cache => exact .inl ⟨layout, cache, rfl, rfl⟩

theorem resolve_found {slot : Option (ℕ × ℕ)} {obj : ℕ} (hslot : slot.map Prod.fst ≠ some obj) :
    Found c zero slot obj t alloc (getKvCacheEntry.resolve c zero slot obj t alloc) := by
  unfold getKvCacheEntry.resolve getOrCreateVulkanKvCache
  cases hget : c.get (kvCacheStorageKey t) with
  | none =>
    have hmiss : ∀ id e, c.get (kvCacheStorageKey t) = some (id, e) → ¬ Fits e t := by
      simp [hget]
    obtain ⟨layout, cache, halloc, h⟩ | ⟨err, h⟩ := c.createEntry_cases zero t alloc
    · simp only [h]
      exact .created layout cache _ halloc hslot hmiss rfl rfl
    · simp only [h]
      refine .raised err c hslot hmiss rfl ?_
      rw [← get_eq_none hget, Function.update_eq_self]
  | some ide =>
    obtain ⟨id, e⟩ := ide
    by_cases hfits : Fits e t
    · simp only [if_pos hfits]
      exact .dict id e hslot hget hfits
    · have hmiss : ∀ id e, c.get (kvCacheStorageKey t) = some (id, e) → ¬ Fits e t := by
        intro id' e' h
        rw [hget] at h
        cases h
        exact hfits
      simp only [if_neg hfits]
      obtain ⟨layout, cache, halloc, h⟩ | ⟨err, h⟩ :=
        (c.pop (kvCacheStorageKey t)).createEntry_cases zero t alloc
      · simp only [h]
        exact .created layout cache _ halloc hslot hmiss rfl (Function.update_idem _ _ _)
      · simp only [h]
        exact .raised err _ hslot hmiss rfl rfl

theorem getKvCacheEntry_found (c : Caches V) (zero : V) (slot : Option (ℕ × ℕ)) (obj : ℕ)
    (t : KvTensor) (alloc : Py ℕ) :
    Found c zero slot obj t alloc (c.getKvCacheEntry zero slot obj t alloc) := by
  unfold getKvCacheEntry
  match slot with
  | none => exact resolve_found (by simp)
  | some (cachedObj, id) =>
    by_cases h : cachedObj = obj
    · subst h
      simp only [if_pos]
      exact .slot id rfl
    · simp only [if_neg h]
      exact resolve_found (by simpa using h)

end Caches

/-! ### The log of lookups -/

/-- The tensor was given the entry. -/
def Given (ls : List (Lookup V)) (id : ℕ) (t : KvTensor) : Prop :=
  ∃ l ∈ ls, l.id = id ∧ l.tensor = t

theorem Given.append {ls : List (Lookup V)} {id : ℕ} {t : KvTensor} (h : Given ls id t)
    (ls' : List (Lookup V)) : Given (ls ++ ls') id t := by
  obtain ⟨l, hl, h⟩ := h
  exact ⟨l, List.mem_append_left _ hl, h⟩

theorem OwnMirrors.nil : OwnMirrors ([] : List (Lookup V)) where
  own := by simp
  clean := by simp

theorem ownMirrors_concat {ls : List (Lookup V)} {l : Lookup V} :
    OwnMirrors (ls ++ [l]) ↔ OwnMirrors ls ∧
      (∀ l' ∈ ls, l'.id = l.id → l'.tensor.memory = l.tensor.memory) ∧
      ((∀ l' ∈ ls, l'.tensor.memory ≠ l.tensor.memory) → l.found.Clean) := by
  constructor
  · intro h
    refine ⟨⟨?_, ?_⟩, ?_, ?_⟩
    · intro a ha b hb
      exact h.own a (List.mem_append_left _ ha) b (List.mem_append_left _ hb)
    · intro pre a post heq
      exact h.clean pre a (post ++ [l]) (by rw [heq]; simp)
    · intro a ha
      exact h.own a (List.mem_append_left _ ha) l (by simp)
    · exact h.clean ls l [] rfl
  · rintro ⟨h, hown, hclean⟩
    refine ⟨?_, ?_⟩
    · intro a ha b hb hid
      rw [List.mem_append, List.mem_singleton] at ha hb
      obtain ha | rfl := ha <;> obtain hb | rfl := hb
      · exact h.own a ha b hb hid
      · exact hown a ha hid
      · exact (hown b hb hid.symm).symm
      · rfl
    · intro pre a post heq hne
      obtain ⟨rest, hpre, hrest⟩ | ⟨rest, hls, hrest⟩ := List.append_eq_append_iff.1 heq
      · obtain ⟨rfl, hr⟩ | ⟨-, hr⟩ := List.append_eq_singleton_iff.1 hrest.symm
        · obtain ⟨rfl, -⟩ := List.cons.inj hr
          exact hclean fun l' hl' => hne l' (by simpa [hpre] using hl')
        · cases hr
      · obtain ⟨rfl, hr⟩ | ⟨rest', rfl, -⟩ := List.cons_eq_append_iff.1 hrest
        · obtain ⟨rfl, -⟩ := List.cons.inj hr
          exact hclean fun l' hl' => hne l' (by simpa [hls] using hl')
        · exact h.clean pre a rest' hls hne

/-- A lookup that finds an entry given before adds that the two memories are one. -/
theorem ownMirrors_given {ls : List (Lookup V)} {id : ℕ} {t₀ t : KvTensor} {f : Entry V}
    (h : Given ls id t₀) :
    OwnMirrors (ls ++ [⟨t, id, f⟩]) ↔ OwnMirrors ls ∧ t₀.memory = t.memory := by
  obtain ⟨l, hl, rfl, rfl⟩ := h
  rw [ownMirrors_concat]
  refine and_congr_right fun hown => ⟨fun h => h.1 l hl rfl, fun hmem => ⟨?_, ?_⟩⟩
  · intro l' hl' hid
    exact (hown.own l' hl' l hl hid).trans hmem
  · intro hne
    exact absurd hmem (hne l hl)

theorem ownMirrors_created {ls : List (Lookup V)} {id : ℕ} {t : KvTensor} {f : Entry V}
    (hid : ∀ l ∈ ls, l.id < id) (hf : f.Clean) :
    OwnMirrors (ls ++ [⟨t, id, f⟩]) ↔ OwnMirrors ls := by
  rw [ownMirrors_concat, and_iff_left]
  exact ⟨fun l hl h => absurd h (hid l hl).ne, fun _ => hf⟩

theorem Entry.fresh_clean (layout : VulkanPagedKVLayout) (zero : V) :
    (Entry.fresh layout zero).Clean :=
  ⟨Entry.fresh_not_marked layout zero, rfl⟩

/-! ### The invariant -/

namespace Caches

variable {c c' : Caches V}

/-- The dict holds, under the key of the tensor, the entry `id`, which is for the tensor. -/
def Holds (c : Caches V) (t : KvTensor) (id : ℕ) : Prop :=
  ∃ e, c.get (kvCacheStorageKey t) = some (id, e) ∧ Fits e t

/-- The entries of `c` are still there, for the same tensors. -/
def Keeps (c c' : Caches V) : Prop :=
  ∀ (id : ℕ) (e : KvEntry V), c.entries[id]? = some e →
    ∃ e', c'.entries[id]? = some e' ∧ ∀ t, Fits e t → Fits e' t

@[refl] theorem Keeps.refl (c : Caches V) : Keeps c c := fun _ e he => ⟨e, he, fun _ ht => ht⟩

theorem Keeps.use (h : Keeps c c') (id : ℕ) (uses : List (Use V)) : Keeps c (c'.use id uses) := by
  intro i e he
  obtain ⟨e', he', hfits⟩ := h i e he
  refine ⟨_, by rw [Caches.use, List.getElem?_modify, he']; rfl, fun t ht => ?_⟩
  dsimp only
  split_ifs
  · exact hfits t ht
  · exact hfits t ht

theorem keeps_of_append (es : List (KvEntry V)) (h : c'.entries = c.entries ++ es) :
    Keeps c c' := by
  intro id e he
  exact ⟨e, by rw [h, List.getElem?_append_left (List.getElem?_eq_some_iff.1 he).1, he],
    fun _ ht => ht⟩

theorem Holds.mono {t : KvTensor} {id : ℕ} (h : Holds c t id) (hkeeps : Keeps c c')
    (hdict : c'.vulkanKvCaches (kvCacheStorageKey t) = c.vulkanKvCaches (kvCacheStorageKey t)) :
    Holds c' t id := by
  obtain ⟨e, hget, hfits⟩ := h
  obtain ⟨hkey, he⟩ := get_eq_some.1 hget
  obtain ⟨e', he', hfits'⟩ := hkeeps id e he
  exact ⟨e', get_eq_some.2 ⟨hdict.trans hkey, he'⟩, hfits' t hfits⟩

end Caches

namespace World

/-- What holds of the caches, the tensors and the log throughout a run. -/
structure Inv (w : World V) : Prop where
  /-- Without a tensor resolved at an address, the dict has nothing there. -/
  resolved_none : ∀ a, w.resolved a = none → w.caches.vulkanKvCaches a = none
  /-- The dict has an entry for the tensor resolved at an address, which it was given. -/
  resolved_some : ∀ a t, w.resolved a = some t →
    kvCacheStorageKey t = a ∧ ∃ id, w.caches.Holds t id ∧ Given w.lookups id t
  /-- The tensor in a slot was given the entry in it. -/
  slots : ∀ l ∈ w.layers, ∀ obj id, l.cached = some (obj, id) →
    ∃ t, w.objects[obj]? = some t ∧ Given w.lookups id t
  /-- The entries that were given exist. -/
  ids : ∀ l ∈ w.lookups, l.id < w.caches.entries.length

theorem inv_init (numLayers : ℕ) : Inv (init numLayers : World V) where
  resolved_none := fun _ _ => rfl
  resolved_some := fun _ _ h => nomatch h
  slots := fun l hl obj id h => by
    obtain rfl := List.eq_of_mem_replicate hl
    cases h
  ids := fun _ h => nomatch h

variable {w : World V} {zero : V} {layer obj id : ℕ} {l : Layer} {t : KvTensor} {alloc : Py ℕ}
  {uses : List (Use V)}

theorem boundTensor_eq_some : w.boundTensor layer = some (l, obj, t) ↔
    w.layers[layer]? = some l ∧ l.bound = some obj ∧ w.objects[obj]? = some t := by
  simp only [boundTensor, Option.bind_eq_some_iff, Option.map_eq_some_iff, Prod.mk.injEq]
  constructor
  · rintro ⟨l', hl, obj', hobj, t', ht, rfl, rfl, rfl⟩
    exact ⟨hl, hobj, ht⟩
  · rintro ⟨hl, hobj, ht⟩
    exact ⟨l, hl, obj, hobj, t, ht, rfl, rfl, rfl⟩

/-- The caches and the log after a tensor was given an entry: the dict holds the entry for the
tensor, or it is as it was. -/
theorem Inv.given (hw : w.Inv) {c : Caches V} {resolved : ℕ → Option KvTensor} {f : Entry V}
    (ht : w.objects[obj]? = some t) (hkeeps : w.caches.Keeps c) (hid : id < c.entries.length)
    (hres : resolved = w.resolved ∧ c.vulkanKvCaches = w.caches.vulkanKvCaches ∨
      resolved = Function.update w.resolved (kvCacheStorageKey t) (some t) ∧ c.Holds t id ∧
        ∀ a, a ≠ kvCacheStorageKey t → c.vulkanKvCaches a = w.caches.vulkanKvCaches a) :
    Inv { w with
      caches := c
      layers := w.layers.set layer { l with cached := some (obj, id) }
      resolved := resolved
      lookups := w.lookups ++ [⟨t, id, f⟩] } where
  resolved_none := fun a ha => by
    dsimp only at ha ⊢
    obtain ⟨rfl, hdict⟩ | ⟨rfl, -, hdict⟩ := hres
    · exact (congrFun hdict a).trans (hw.resolved_none a ha)
    · by_cases hk : a = kvCacheStorageKey t
      · rw [hk, Function.update_self] at ha
        cases ha
      · rw [Function.update_of_ne hk] at ha
        exact (hdict a hk).trans (hw.resolved_none a ha)
  resolved_some := fun a t₀ ha => by
    dsimp only at ha ⊢
    -- at the other addresses nothing has changed
    have hold : w.resolved a = some t₀ → c.vulkanKvCaches a = w.caches.vulkanKvCaches a →
        kvCacheStorageKey t₀ = a ∧
          ∃ id', c.Holds t₀ id' ∧ Given (w.lookups ++ [⟨t, id, f⟩]) id' t₀ := by
      intro h hdict
      obtain ⟨rfl, id', hholds, hgiven⟩ := hw.resolved_some a t₀ h
      exact ⟨rfl, id', hholds.mono hkeeps hdict, hgiven.append _⟩
    obtain ⟨rfl, hdict⟩ | ⟨rfl, hholds, hdict⟩ := hres
    · exact hold ha (congrFun hdict a)
    · by_cases hk : a = kvCacheStorageKey t
      · rw [hk, Function.update_self] at ha
        obtain rfl := Option.some.inj ha
        exact ⟨hk.symm, id, hholds, ⟨⟨t, id, f⟩, by simp, rfl, rfl⟩⟩
      · rw [Function.update_of_ne hk] at ha
        exact hold ha (hdict a hk)
  slots := fun l' hl' obj' id' hcached => by
    obtain hl' | rfl := List.mem_or_eq_of_mem_set hl'
    · obtain ⟨t', ht', hgiven⟩ := hw.slots l' hl' obj' id' hcached
      exact ⟨t', ht', hgiven.append _⟩
    · cases hcached
      exact ⟨t, ht, ⟨⟨t, id, f⟩, by simp, rfl, rfl⟩⟩
  ids := fun l' hl' => by
    obtain hl' | hl' := List.mem_append.1 hl'
    · obtain ⟨e, he⟩ : ∃ e, w.caches.entries[l'.id]? = some e :=
        ⟨_, List.getElem?_eq_getElem (hw.ids l' hl')⟩
      obtain ⟨e', he', -⟩ := hkeeps _ _ he
      exact (List.getElem?_eq_some_iff.1 he').1
    · rw [List.mem_singleton.1 hl']
      exact hid

theorem Inv.raised (hw : w.Inv) {c : Caches V} (hentries : c.entries = w.caches.entries)
    (hdict : c.vulkanKvCaches =
      Function.update w.caches.vulkanKvCaches (kvCacheStorageKey t) none) :
    Inv { w with
      caches := c
      resolved := Function.update w.resolved (kvCacheStorageKey t) none } where
  resolved_none := fun a ha => by
    dsimp only at ha ⊢
    by_cases hk : a = kvCacheStorageKey t
    · rw [hdict, hk, Function.update_self]
    · rw [Function.update_of_ne hk] at ha
      rw [hdict, Function.update_of_ne hk, hw.resolved_none a ha]
  resolved_some := fun a t₀ ha => by
    dsimp only at ha
    by_cases hk : a = kvCacheStorageKey t
    · rw [hk, Function.update_self] at ha
      cases ha
    · rw [Function.update_of_ne hk] at ha
      obtain ⟨rfl, id', hholds, hgiven⟩ := hw.resolved_some a t₀ ha
      have hkeeps : w.caches.Keeps c :=
        Caches.keeps_of_append [] (by rw [hentries, List.append_nil])
      refine ⟨rfl, id', hholds.mono hkeeps ?_, hgiven⟩
      rw [hdict, Function.update_of_ne hk]
  slots := hw.slots
  ids := by rw [hentries]; exact hw.ids

theorem stepOk_lookup (hb : w.boundTensor layer = some (l, obj, t)) :
    w.StepOk (.lookup layer alloc uses) ↔ (l.cached.map Prod.fst ≠ some obj →
      ∀ t₀, w.resolved (kvCacheStorageKey t) = some t₀ → t₀.shape = t.shape → t₀.dtype = t.dtype →
        t₀.memory = t.memory) := by
  constructor
  · exact fun h => h l obj t hb
  · intro h l' obj' t' hb'
    cases hb.symm.trans hb'
    exact h

/-- A tensor resolved at the address of `t`, of its shape and dtype, has an entry that fits `t`. -/
theorem Inv.fits (hw : w.Inv) {t₀ : KvTensor} (h : w.resolved (kvCacheStorageKey t) = some t₀)
    (hshape : t₀.shape = t.shape) (hdtype : t₀.dtype = t.dtype) :
    ∃ id e, w.caches.get (kvCacheStorageKey t) = some (id, e) ∧ Caches.Fits e t := by
  obtain ⟨hkey, id, ⟨e, hget, hfits⟩, -⟩ := hw.resolved_some _ t₀ h
  rw [hkey] at hget
  exact ⟨id, e, hget, hfits.1.trans hkey, hfits.2.1.trans hshape, hfits.2.2.trans hdtype⟩

/-- A fitting entry was given to the tensor resolved at the address, which has the shape and dtype
of `t`. -/
theorem Inv.resolved_of_fits (hw : w.Inv) {e : KvEntry V}
    (hget : w.caches.get (kvCacheStorageKey t) = some (id, e)) (hfits : Caches.Fits e t) :
    ∃ t₀, w.resolved (kvCacheStorageKey t) = some t₀ ∧ t₀.shape = t.shape ∧ t₀.dtype = t.dtype ∧
      Given w.lookups id t₀ := by
  cases h : w.resolved (kvCacheStorageKey t) with
  | none =>
    have hnone := hw.resolved_none _ h
    rw [(Caches.get_eq_some.1 hget).1] at hnone
    cases hnone
  | some t₀ =>
    obtain ⟨hkey, id', ⟨e', hget', hfits'⟩, hgiven⟩ := hw.resolved_some _ t₀ h
    rw [hkey, hget] at hget'
    cases hget'
    exact ⟨t₀, rfl, hfits'.2.1.symm.trans hfits.2.1, hfits'.2.2.symm.trans hfits.2.2, hgiven⟩

theorem lookup_of_ok {c : Caches V} {slot : Option (ℕ × ℕ)} {e : KvEntry V}
    (hb : w.boundTensor layer = some (l, obj, t))
    (hr : w.caches.getKvCacheEntry zero l.cached obj t alloc = (c, slot, .ok id))
    (he : c.entries[id]? = some e) : w.lookup zero layer alloc uses = ({ w with
      caches := c.use id uses
      layers := w.layers.set layer { l with cached := slot }
      resolved := if l.cached.map Prod.fst = some obj then w.resolved
        else Function.update w.resolved (kvCacheStorageKey t) (some t)
      lookups := w.lookups ++ [⟨t, id, e.data⟩] }, some (.ok id)) := by
  rw [lookup, hb]
  simp only [hr, he]
  rfl

theorem lookup_of_error {c : Caches V} {slot : Option (ℕ × ℕ)} {err : PyError}
    (hb : w.boundTensor layer = some (l, obj, t))
    (hr : w.caches.getKvCacheEntry zero l.cached obj t alloc = (c, slot, .error err)) :
    w.lookup zero layer alloc uses = ({ w with
      caches := c
      resolved := if l.cached.map Prod.fst = some obj then w.resolved
        else Function.update w.resolved (kvCacheStorageKey t) none }, some (.error err)) := by
  rw [lookup, hb]
  simp only [hr]

/-- **A lookup** keeps the invariant, and each memory keeps its own mirror exactly when the
condition holds. -/
theorem lookup_spec (hw : w.Inv) (hb : w.boundTensor layer = some (l, obj, t)) :
    (w.lookup zero layer alloc uses).1.Inv ∧
      (OwnMirrors (w.lookup zero layer alloc uses).1.lookups ↔
        OwnMirrors w.lookups ∧ w.StepOk (.lookup layer alloc uses)) := by
  obtain ⟨hl, -, ht⟩ := boundTensor_eq_some.1 hb
  rw [stepOk_lookup hb]
  have hF := w.caches.getKvCacheEntry_found zero l.cached obj t alloc
  generalize hr : w.caches.getKvCacheEntry zero l.cached obj t alloc = r at hF
  cases hF with
  | slot id hslot =>
    -- the slot of the layer holds the tensor that is bound to it
    obtain ⟨t', ht', hgiven⟩ := hw.slots l (List.mem_of_getElem? hl) obj id hslot
    obtain rfl := Option.some.inj (ht.symm.trans ht')
    have hid : id < w.caches.entries.length := by
      obtain ⟨l', hl', rfl, -⟩ := hgiven
      exact hw.ids l' hl'
    have hhit : l.cached.map Prod.fst = some obj := by rw [hslot]; rfl
    rw [lookup_of_ok hb hr (List.getElem?_eq_getElem hid), if_pos hhit]
    refine ⟨?_, ?_⟩
    · rw [hslot]
      exact hw.given ht ((Caches.Keeps.refl _).use id uses)
        (by simpa [Caches.use] using hid) (.inl ⟨rfl, rfl⟩)
    · rw [ownMirrors_given hgiven]
      simp [hhit]
  | dict id e hslot hget hfits =>
    -- an entry that fits was given to the tensor last resolved at its address
    obtain ⟨t₀, hres, hshape, hdtype, hgiven⟩ := hw.resolved_of_fits hget hfits
    obtain ⟨-, he⟩ := Caches.get_eq_some.1 hget
    rw [lookup_of_ok hb hr he, if_neg hslot]
    have hkeeps := (Caches.Keeps.refl w.caches).use id uses
    refine ⟨hw.given ht hkeeps ?_ (.inr ⟨rfl, ?_, fun _ _ => rfl⟩), ?_⟩
    · simpa [Caches.use] using (List.getElem?_eq_some_iff.1 he).1
    · exact Caches.Holds.mono ⟨e, hget, hfits⟩ hkeeps rfl
    · rw [ownMirrors_given hgiven]
      refine and_congr_right fun _ => ⟨fun hmem _ t₁ h₁ _ _ => ?_, fun h => ?_⟩
      · rw [hres] at h₁
        rw [← Option.some.inj h₁, hmem]
      · exact h hslot t₀ hres hshape hdtype
  | created layout cache c halloc hslot hmiss hentries hdict =>
    -- the entry is new: no tensor was given it before
    have he : c.entries[w.caches.entries.length]? =
        some (Caches.newEntry zero t layout cache) := by
      rw [hentries, List.getElem?_concat_length]
    have hkey : c.vulkanKvCaches (kvCacheStorageKey t) = some w.caches.entries.length := by
      rw [hdict, Function.update_self]
    rw [lookup_of_ok hb hr he, if_neg hslot]
    refine ⟨hw.given ht ((Caches.keeps_of_append _ hentries).use _ uses) ?_
      (.inr ⟨rfl, ?_, fun a ha => ?_⟩), ?_⟩
    · simp [Caches.use, hentries]
    · refine Caches.Holds.mono (c := c) ⟨_, Caches.get_eq_some.2 ⟨hkey, he⟩, rfl, rfl, rfl⟩
        ((Caches.Keeps.refl c).use _ uses) rfl
    · exact (congrFun hdict a).trans (Function.update_of_ne ha _ _)
    · have hclean : (Caches.newEntry zero t layout cache).data.Clean :=
        Entry.fresh_clean layout zero
      rw [ownMirrors_created hw.ids hclean]
      refine (and_iff_left fun _ t₀ h₀ hshape hdtype => ?_).symm
      obtain ⟨id, e, hget, hfits⟩ := hw.fits h₀ hshape hdtype
      exact absurd hfits (hmiss id e hget)
  | raised err c hslot hmiss hentries hdict =>
    rw [lookup_of_error hb hr, if_neg hslot]
    refine ⟨hw.raised hentries hdict, (and_iff_left fun _ t₀ h₀ hshape hdtype => ?_).symm⟩
    obtain ⟨id, e, hget, hfits⟩ := hw.fits h₀ hshape hdtype
    exact absurd hfits (hmiss id e hget)

/-- The entry a lookup of a layer finds in the slot or in the dict. -/
def hit (w : World V) (layer : ℕ) : Option ℕ :=
  match w.boundTensor layer with
  | none => none
  | some (l, obj, t) =>
    match l.cached.bind fun cached => if cached.1 = obj then some cached.2 else none with
    | some id => some id
    | none => (w.caches.get (kvCacheStorageKey t)).bind fun ide =>
        if Caches.Fits ide.2 t then some ide.1 else none

theorem slot_eq_none {slot : Option (ℕ × ℕ)} (h : slot.map Prod.fst ≠ some obj) :
    (slot.bind fun cached => if cached.1 = obj then some cached.2 else none) = none := by
  cases slot with
  | none => rfl
  | some cached =>
    have hne : cached.1 ≠ obj := fun heq => h (by rw [Option.map_some, heq])
    rw [Option.bind_some, if_neg hne]

/-- Where the slot and the dict have nothing for the tensor, a lookup finds nothing. -/
theorem hit_eq_none (hb : w.boundTensor layer = some (l, obj, t))
    (hslot : l.cached.map Prod.fst ≠ some obj)
    (hmiss : ∀ id e, w.caches.get (kvCacheStorageKey t) = some (id, e) → ¬ Caches.Fits e t) :
    w.hit layer = none := by
  simp only [hit, hb, slot_eq_none hslot]
  cases hget : w.caches.get (kvCacheStorageKey t) with
  | none => rfl
  | some ide => rw [Option.bind_some, if_neg (hmiss ide.1 ide.2 hget)]

/-- The activations of the entries. -/
def activations (w : World V) : List ℕ := w.caches.entries.map KvEntry.cache

theorem map_cache_use (c : Caches V) (id : ℕ) (uses : List (Use V)) :
    (c.use id uses).entries.map KvEntry.cache = c.entries.map KvEntry.cache := by
  refine List.ext_getElem? ?_
  intro i
  rw [List.getElem?_map, List.getElem?_map, Caches.use, List.getElem?_modify]
  cases c.entries[i]? with
  | none => rfl
  | some e =>
    change some (KvEntry.cache (if id = i then e.use uses else e)) = some e.cache
    split_ifs <;> rfl

/-- A lookup finds an entry, or creates one on the activation it is given, or raises. -/
theorem lookup_cases (w : World V) (zero : V) (layer : ℕ) (alloc : Py ℕ) (uses : List (Use V)) :
    (∃ id, w.hit layer = some id ∧ (w.lookup zero layer alloc uses).2 = some (.ok id) ∧
      (w.lookup zero layer alloc uses).1.activations = w.activations) ∨
    (∃ cache, w.hit layer = none ∧ alloc = .ok cache ∧
      (w.lookup zero layer alloc uses).2 = some (.ok w.caches.entries.length) ∧
      (w.lookup zero layer alloc uses).1.activations = w.activations ++ [cache]) ∨
    ((w.hit layer = none ∧ ∀ id, (w.lookup zero layer alloc uses).2 ≠ some (.ok id)) ∧
      (w.lookup zero layer alloc uses).1.activations = w.activations) := by
  cases hb : w.boundTensor layer with
  | none =>
    refine .inr (.inr ⟨⟨by rw [hit, hb], ?_⟩, ?_⟩)
    · simp [lookup, hb]
    · simp only [lookup, hb]
  | some lot =>
    obtain ⟨l, obj, t⟩ := lot
    have hF := w.caches.getKvCacheEntry_found zero l.cached obj t alloc
    generalize hr : w.caches.getKvCacheEntry zero l.cached obj t alloc = r at hF
    cases hF with
    | slot id hslot =>
      refine .inl ⟨id, ?_, ?_, ?_⟩
      · simp only [hit, hb, hslot, Option.bind_some, if_true]
      · simp only [lookup, hb, hr]
      · simp only [lookup, hb, hr, activations, map_cache_use]
    | dict id e hslot hget hfits =>
      refine .inl ⟨id, ?_, ?_, ?_⟩
      · simp only [hit, hb, slot_eq_none hslot, hget, Option.bind_some, if_pos hfits]
      · simp only [lookup, hb, hr]
      · simp only [lookup, hb, hr, activations, map_cache_use]
    | created layout cache c halloc hslot hmiss hentries hdict =>
      refine .inr (.inl ⟨cache, hit_eq_none hb hslot hmiss, halloc, ?_, ?_⟩)
      · simp only [lookup, hb, hr]
      · simp only [lookup, hb, hr, activations, map_cache_use, hentries, List.map_append]
        rfl
    | raised err c hslot hmiss hentries hdict =>
      refine .inr (.inr ⟨⟨hit_eq_none hb hslot hmiss, ?_⟩, ?_⟩)
      · simp [lookup, hb, hr]
      · simp only [lookup, hb, hr, activations, hentries]

/-- What an event other than a lookup does: tensors are made, bound and unbound, and storages come
and go. -/
structure Rebinds (w w' : World V) : Prop where
  caches : w'.caches = w.caches
  resolved : w'.resolved = w.resolved
  lookups : w'.lookups = w.lookups
  objects : ∃ made, w'.objects = w.objects ++ made
  layers : ∀ l ∈ w'.layers, ∃ l' ∈ w.layers, l'.cached = l.cached

theorem Inv.rebinds (hw : w.Inv) {w' : World V} (h : Rebinds w w') : w'.Inv where
  resolved_none := by rw [h.resolved, h.caches]; exact hw.resolved_none
  resolved_some := by rw [h.resolved, h.caches, h.lookups]; exact hw.resolved_some
  slots := fun l hl obj id hcached => by
    obtain ⟨l', hl', heq⟩ := h.layers l hl
    obtain ⟨made, hmade⟩ := h.objects
    obtain ⟨t, ht, hgiven⟩ := hw.slots l' hl' obj id (heq.trans hcached)
    refine ⟨t, ?_, by rw [h.lookups]; exact hgiven⟩
    rw [hmade, List.getElem?_append_left (List.getElem?_eq_some_iff.1 ht).1, ht]
  ids := by rw [h.caches, h.lookups]; exact hw.ids

theorem exists_of_mem_modify {ls : List Layer} {i : ℕ} {bound : Option ℕ} {l : Layer}
    (h : l ∈ ls.modify i fun l => { l with bound := bound }) : ∃ l' ∈ ls, l'.cached = l.cached := by
  obtain ⟨j, hj⟩ := List.mem_iff_getElem?.1 h
  rw [List.getElem?_modify] at hj
  obtain ⟨l', hl', rfl⟩ := Option.map_eq_some_iff.1 hj
  exact ⟨l', List.mem_of_getElem? hl', by split_ifs <;> rfl⟩

/-- An event is a lookup of a tensor bound to a layer, or it leaves the caches and the log alone. -/
theorem step_cases (zero : V) (w : World V) (ev : CacheEvent V) :
    (∃ layer alloc uses lot, ev = .lookup layer alloc uses ∧ w.boundTensor layer = some lot) ∨
      Rebinds w (w.step zero ev).1 ∧ w.StepOk ev := by
  have hself : Rebinds w w := ⟨rfl, rfl, rfl, ⟨[], by simp⟩, fun l hl => ⟨l, hl, rfl⟩⟩
  cases ev with
  | allocate dataPtr =>
    right
    unfold step
    by_cases h : dataPtr ∈ w.storages.map Storage.dataPtr
    · simp only [if_pos h]
      exact ⟨hself, trivial⟩
    · simp only [if_neg h]
      exact ⟨{ hself with }, trivial⟩
  | view lifetime offset shape strides dtype =>
    right
    unfold step
    cases hfind : w.storages.find? fun s => decide (s.lifetime = lifetime) with
    | none =>
      simp only [hfind]
      exact ⟨hself, trivial⟩
    | some storage =>
      simp only [hfind]
      exact ⟨{ hself with objects := ⟨_, rfl⟩ }, trivial⟩
  | bind layer obj =>
    right
    unfold step
    by_cases h : ∀ o ∈ obj, ∃ t ∈ w.objects[o]?, t.storage ∈ w.storages
    · simp only [if_pos h]
      exact ⟨{ hself with layers := fun l hl => exists_of_mem_modify hl }, trivial⟩
    · simp only [if_neg h]
      exact ⟨hself, trivial⟩
  | release lifetime =>
    right
    unfold step
    by_cases h : w.InUse lifetime
    · simp only [if_pos h]
      exact ⟨hself, trivial⟩
    · simp only [if_neg h]
      exact ⟨{ hself with }, trivial⟩
  | lookup layer alloc uses =>
    cases hb : w.boundTensor layer with
    | none =>
      refine .inr ⟨?_, fun l obj t h => ?_⟩
      · simpa only [step, lookup, hb] using hself
      · rw [hb] at h
        cases h
    | some lot => exact .inl ⟨layer, alloc, uses, lot, rfl, hb⟩

/-- **One event** keeps the invariant, and each memory keeps its own mirror exactly when the event
meets the condition. -/
theorem step_spec (hw : w.Inv) (ev : CacheEvent V) : (w.step zero ev).1.Inv ∧
    (OwnMirrors (w.step zero ev).1.lookups ↔ OwnMirrors w.lookups ∧ w.StepOk ev) := by
  obtain ⟨layer, alloc, uses, ⟨l, obj, t⟩, rfl, hb⟩ | ⟨h, hok⟩ := step_cases zero w ev
  · exact lookup_spec hw hb
  · exact ⟨hw.rebinds h, by rw [h.lookups, and_iff_left hok]⟩

/-- **Each KV cache has its own mirror exactly when every lookup meets the condition.** -/
theorem ownMirrors_iff (zero : V) (numLayers : ℕ) (events : List (CacheEvent V)) :
    OwnMirrors (finalState (step zero) (init numLayers) events).lookups ↔
      ∀ τ ∈ transitions (step zero) (init numLayers) events, τ.pre.StepOk τ.input := by
  calc OwnMirrors (finalState (step zero) (init numLayers) events).lookups
      ↔ OwnMirrors (init numLayers : World V).lookups ∧
          ∀ τ ∈ transitions (step zero) (init numLayers) events, τ.pre.StepOk τ.input :=
        finalState_iff (P := fun w : World V => OwnMirrors w.lookups)
          (fun w ev hw => (step_spec hw ev).1) (fun w ev hw => (step_spec hw ev).2)
          (inv_init numLayers)
    _ ↔ ∀ τ ∈ transitions (step zero) (init numLayers) events, τ.pre.StepOk τ.input :=
        and_iff_right OwnMirrors.nil

end World

/-! ### Two ways to share a mirror -/

/-- Two layers are bound to two halves of one storage. -/
def twoViews : List (CacheEvent Unit) := [
  .allocate 4096,
  .view 0 0 [2, 1, 1, 1, 1] [1, 1, 1, 1, 1] .float32,
  .view 0 2 [2, 1, 1, 1, 1] [1, 1, 1, 1, 1] .float32,
  .bind 0 (some 0),
  .bind 1 (some 1),
  .lookup 0 (.ok 0) [.mark [0]],
  .lookup 1 (.ok 1) []]

/-- A profiling run with one cache, whose storage is released once the layer has looked up another
one; the real cache is then allocated at the address of the first. -/
def reusedAddress : List (CacheEvent Unit) := [
  .allocate 4096,
  .view 0 0 [2, 1, 1, 1, 1] [1, 1, 1, 1, 1] .float32,
  .bind 0 (some 0),
  .lookup 0 (.ok 0) [.mark [0]],
  .allocate 8192,
  .view 1 0 [2, 1, 1, 1, 1] [1, 1, 1, 1, 1] .float32,
  .bind 0 (some 1),
  .lookup 0 (.ok 1) [],
  .release 0,
  .allocate 4096,
  .view 2 0 [2, 1, 1, 1, 1] [1, 1, 1, 1, 1] .float32,
  .bind 0 (some 2),
  .lookup 0 (.ok 2) []]

/-- What the lookups of a run gave: the entry, the memory, and whether slot `0` was marked. -/
def given (numLayers : ℕ) (events : List (CacheEvent Unit)) : List (ℕ × Memory × Bool) :=
  (finalState (World.step ()) (World.init numLayers) events).lookups.map fun l =>
    (l.id, l.tensor.memory, decide (l.found.Marked 0))

theorem given_twoViews : given 2 twoViews =
    [(0, ⟨0, 0, [2, 1, 1, 1, 1], [1, 1, 1, 1, 1]⟩, false),
      (0, ⟨0, 2, [2, 1, 1, 1, 1], [1, 1, 1, 1, 1]⟩, true)] := by
  decide

theorem given_reusedAddress : given 1 reusedAddress =
    [(0, ⟨0, 0, [2, 1, 1, 1, 1], [1, 1, 1, 1, 1]⟩, false),
      (1, ⟨1, 0, [2, 1, 1, 1, 1], [1, 1, 1, 1, 1]⟩, false),
      (0, ⟨2, 0, [2, 1, 1, 1, 1], [1, 1, 1, 1, 1]⟩, true)] := by
  decide

theorem OwnMirrors.given {numLayers : ℕ} {events : List (CacheEvent Unit)}
    (h : OwnMirrors (finalState (World.step ()) (World.init numLayers) events).lookups) :
    ∀ a ∈ given numLayers events, ∀ b ∈ given numLayers events, a.1 = b.1 → a.2.1 = b.2.1 := by
  intro a ha b hb hid
  obtain ⟨l, hl, rfl⟩ := List.mem_map.1 ha
  obtain ⟨l', hl', rfl⟩ := List.mem_map.1 hb
  exact h.own l hl l' hl' hid

/-- **Two memories share a mirror**: the halves of one storage, and a cache with the one that had
its address before. -/
theorem shared_mirror :
    ¬ OwnMirrors (finalState (World.step ()) (World.init 2) twoViews).lookups ∧
      ¬ OwnMirrors (finalState (World.step ()) (World.init 1) reusedAddress).lookups := by
  refine ⟨fun h => ?_, fun h => ?_⟩
  · have hsame := h.given
    rw [given_twoViews] at hsame
    revert hsame
    decide
  · have hsame := h.given
    rw [given_reusedAddress] at hsame
    revert hsame
    decide

end Attention

end VllmVulkan
