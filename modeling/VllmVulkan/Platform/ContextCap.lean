import VllmVulkan.Kv.Layout
import Mathlib.Data.Rat.Floor
import Mathlib.Tactic.Linarith

/-!
# The cap on the context length

When the KV cache of a full-length sequence does not fit the memory budget, the platform lowers
`max_model_len`.  Configurations are Python objects; of these only what the code asks of them is
modelled.

* `inferKvLayerSpecs` : the layers of a model, from its configuration;
* `checkAndUpdateConfig` : the update, as far as it touches the block size, the budget and the
  length;
* `Fits` : a full-length sequence fits the budget, in whole blocks;
* `updatedLen_eq` : the length after the update;
* `checkAndUpdateConfig_fits_iff` : **exactly when the updated length fits**;
* `lastBlock_overflows` : a length that fits token by token only, which is left as it is.
-/

namespace VllmVulkan

/-- `bytes_per_token`. -/
def KVCacheLayerSpec.bytesPerToken (s : KVCacheLayerSpec) : ℕ := 2 * s.bytesPerTokenPerPlane

namespace ContextCap

/-- What the functions below raise. -/
inductive ConfigError where
  | raised (e : PyError)
  | zeroDivisionError (msg : String)
  deriving DecidableEq, Repr

/-- What the code asks of the objects in a configuration. -/
structure PyObjects (Obj : Type) where
  /-- `obj[name]` of a dictionary, `obj.name` of another object; nothing when it is missing. -/
  attr : Obj → String → Option Obj
  /-- `obj is None`. -/
  isNone : Obj → Bool
  /-- `bool(obj)`. -/
  truthy : Obj → Bool
  /-- `int(obj)`. -/
  int : Obj → Py ℤ
  /-- `str(obj).lower()`. -/
  lower : Obj → String
  /-- `len(obj)`. -/
  len : Obj → Py ℕ
  /-- `obj[i]`. -/
  item : Obj → ℕ → Py Obj

/-- The `dtype` of a model. -/
inductive CacheDtype where
  /-- An integer. -/
  | width (n : ℤ)
  /-- Another object, by `str(dtype).lower()`, its `itemsize` and `repr(dtype)`. -/
  | named (name : String) (itemsize : Option ℤ) (repr : String)
  deriving DecidableEq, Repr

/-- `_DTYPE_SIZE_BYTES`. -/
def dtypeSizes : List (String × ℤ) :=
  [("float16", 2), ("half", 2), ("bfloat16", 2), ("bf16", 2), ("float32", 4), ("float", 4),
    ("fp32", 4), ("float64", 8), ("double", 8), ("fp8", 1), ("float8", 1), ("float8_e4m3fn", 1),
    ("float8_e5m2", 1)]

/-- `name.removeprefix("torch.")`. -/
def removeTorch (name : String) : String :=
  if "torch.".toList.isPrefixOf name.toList then String.ofList (name.toList.drop 6) else name

/-- `dtype_size_bytes`. -/
def dtypeSizeBytes : CacheDtype → Py ℤ
  | .width n => if n ≤ 0 then .error (.valueError "dtype byte width must be positive") else .ok n
  | .named name itemsize repr =>
    match dtypeSizes.lookup (removeTorch name), itemsize with
    | some n, _ => .ok n
    | none, some n =>
      if n > 0 then .ok n else .error (.valueError s!"Unsupported KV cache dtype {repr}")
    | none, none => .error (.valueError s!"Unsupported KV cache dtype {repr}")

section Infer

variable {Obj : Type} (P : PyObjects Obj)

/-- `_cfg_get(obj, name)`; nothing stands for `None`. -/
def cfgGet (obj : Obj) (name : String) : Option Obj :=
  (P.attr obj name).filter fun o => !P.isNone o

/-- `int(_cfg_get(obj, name, default))`. -/
def cfgGetInt (obj : Obj) (name : String) (default : ℤ) : Except ConfigError ℤ :=
  match P.attr obj name with
  | none => .ok default
  | some o => (P.int o).mapError .raised

/-- `a // b`. -/
def floorDiv (a b : ℤ) : Except ConfigError ℤ :=
  if b = 0 then .error (.zeroDivisionError "integer division or modulo by zero")
  else .ok (a.fdiv b)

/-- `str(layer_types[layer_index]).lower()`, empty beyond the list. -/
def layerTypeAt (layerTypes : Option Obj) (layerIndex : ℕ) : Except ConfigError String :=
  match layerTypes with
  | none => .ok ""
  | some types => do
    let len ← (P.len types).mapError .raised
    if layerIndex < len then
      let item ← (P.item types layerIndex).mapError .raised
      pure (P.lower item)
    else pure ""

/-- `infer_kv_layer_specs`. -/
def inferKvLayerSpecs (hfConfig : Obj) (blockSize : ℤ) (dtype : CacheDtype) :
    Except ConfigError (List KVCacheLayerSpec) := do
  let textCfg := ((cfgGet P hfConfig "text_config").filter P.truthy).getD hfConfig
  let numLayers ← cfgGetInt P textCfg "num_hidden_layers" 1
  let numAttentionHeads ← cfgGetInt P textCfg "num_attention_heads" 1
  let numKvHeads ← cfgGetInt P textCfg "num_key_value_heads" numAttentionHeads
  let headSize ← match cfgGet P textCfg "head_dim", cfgGet P textCfg "hidden_size" with
    | some headSize, _ => (P.int headSize).mapError .raised
    | none, some hiddenSize => do
      let hiddenSize ← (P.int hiddenSize).mapError .raised
      floorDiv hiddenSize numAttentionHeads
    | none, none =>
      .error (.raised (.valueError "cannot infer KV head size from model config"))
  let globalHeadSize := cfgGet P textCfg "global_head_dim"
  let globalNumKvHeads := cfgGet P textCfg "num_global_key_value_heads"
  let layerTypes := cfgGet P textCfg "layer_types"
  let dtypeSize ← (dtypeSizeBytes dtype).mapError .raised
  (List.range numLayers.toNat).mapM fun layerIndex => do
    let layerType ← layerTypeAt P layerTypes layerIndex
    let (kvHeads, head) ← match globalNumKvHeads, globalHeadSize with
      | some n, some d => do
        if "full".toList <:+: layerType.toList then
          let n ← (P.int n).mapError .raised
          let d ← (P.int d).mapError .raised
          pure (n, d)
        else pure (numKvHeads, headSize)
      | _, _ => pure (numKvHeads, headSize)
    (KVCacheLayerSpec.new layerIndex kvHeads head blockSize dtypeSize).mapError .raised

end Infer

/-! ### The update -/

/-- `VulkanConfig`, whose block size is checked to be positive. -/
structure VulkanConfig where
  blockSize : ℕ
  blockSize_pos : 0 < blockSize

/-- `cache_config`. -/
structure CacheConfig where
  blockSize : Option ℤ
  kvCacheMemoryBytes : Option ℤ

/-- `model_config`. -/
structure ModelConfig (Obj : Type) where
  hfConfig : Obj
  dtype : CacheDtype
  maxModelLen : Option ℤ

/-- `vllm_config`. -/
structure VllmConfig (Obj : Type) where
  cacheConfig : CacheConfig
  modelConfig : Option (ModelConfig Obj)

/-- `int(x)`: truncation. -/
def truncate (x : ℚ) : ℤ := if 0 ≤ x then ⌊x⌋ else ⌈x⌉

/-- `a / b`. -/
def trueDiv (a b : ℤ) : Except ConfigError ℚ :=
  if b = 0 then .error (.zeroDivisionError "division by zero") else .ok (a / b)

section Update

variable {Obj : Type} (P : PyObjects Obj) (config : VulkanConfig)

/-- `cache_config.block_size`, at least the size of the plugin's configuration. -/
def updatedBlockSize (cache : CacheConfig) : ℤ :=
  match cache.blockSize with
  | none => config.blockSize
  | some b => if b < config.blockSize then config.blockSize else b

/-- The body of the `try`: the new length, if there is one. -/
def cappedLen (blockSize kvCacheMemoryBytes maxModelLen : ℤ) (m : ModelConfig Obj) :
    Except ConfigError (Option ℤ) := do
  let bs := if blockSize = 0 then (config.blockSize : ℤ) else blockSize
  let specs ← inferKvLayerSpecs P m.hfConfig bs m.dtype
  let bytesPerToken := (specs.map KVCacheLayerSpec.bytesPerToken).sum
  let maxTokensInKv := truncate (← trueDiv kvCacheMemoryBytes bytesPerToken)
  if maxTokensInKv < maxModelLen then
    let safeMax := truncate (maxTokensInKv * (9 / 10))
    let safeMax := safeMax.fdiv bs * bs
    pure (if safeMax > 0 ∧ safeMax < maxModelLen then some safeMax else none)
  else pure none

/-- The length after the update; any exception leaves it as it is. -/
def updatedLen (blockSize kvCacheMemoryBytes : ℤ) (m : ModelConfig Obj) : Option ℤ :=
  match m.maxModelLen with
  | none => none
  | some maxModelLen =>
    match cappedLen P config blockSize kvCacheMemoryBytes maxModelLen m with
    | .ok (some safeMax) => some safeMax
    | _ => some maxModelLen

/-- `VulkanPlatform.check_and_update_config`; `kvSpaceBytes` is the budget taken from the
environment or from the memory of the machine when none is configured. -/
def checkAndUpdateConfig (kvSpaceBytes : ℤ) (c : VllmConfig Obj) : VllmConfig Obj :=
  let blockSize := updatedBlockSize config c.cacheConfig
  let kvCacheMemoryBytes := c.cacheConfig.kvCacheMemoryBytes.getD kvSpaceBytes
  { cacheConfig := ⟨some blockSize, some kvCacheMemoryBytes⟩
    modelConfig := c.modelConfig.map fun m =>
      { m with maxModelLen := updatedLen P config blockSize kvCacheMemoryBytes m } }

end Update

/-! ### The budget -/

/-- The bytes that a token takes in all layers. -/
def bytesPerToken (specs : List KVCacheLayerSpec) : ℤ :=
  ((specs.map KVCacheLayerSpec.bytesPerToken).sum : ℕ)

/-- A sequence of `len` tokens fits the budget, in whole blocks. -/
def Fits (specs : List KVCacheLayerSpec) (blockSize budget len : ℤ) : Prop :=
  ⌈(len : ℚ) / blockSize⌉ * blockSize * bytesPerToken specs ≤ budget

theorem bytesPerToken_nonneg (specs : List KVCacheLayerSpec) : 0 ≤ bytesPerToken specs :=
  Int.natCast_nonneg _

theorem truncate_of_nonneg {x : ℚ} (hx : 0 ≤ x) : truncate x = ⌊x⌋ := if_pos hx

theorem floor_div {a b : ℤ} (hb : 0 < b) : ⌊(a : ℚ) / b⌋ = a / b := by
  obtain ⟨n, rfl⟩ := Int.eq_ofNat_of_zero_le hb.le
  exact_mod_cast Rat.floor_intCast_div_natCast a n

theorem truncate_div {a b : ℤ} (ha : 0 ≤ a) (hb : 0 < b) : truncate ((a : ℚ) / b) = a / b := by
  rw [truncate_of_nonneg (div_nonneg (by exact_mod_cast ha) (by exact_mod_cast hb.le)),
    floor_div hb]

theorem truncate_headroom {a : ℤ} (ha : 0 ≤ a) : truncate ((a : ℚ) * (9 / 10)) = 9 * a / 10 := by
  have h : (a : ℚ) * (9 / 10) = ((9 * a : ℤ) : ℚ) / (10 : ℤ) := by
    push_cast
    ring
  rw [h, truncate_div (by omega) (by decide)]

theorem ceil_blocks {bs : ℤ} (hbs : 0 < bs) (k : ℤ) : ⌈((k * bs : ℤ) : ℚ) / bs⌉ = k := by
  have hne : (bs : ℚ) ≠ 0 := by exact_mod_cast hbs.ne'
  rw [Int.cast_mul, mul_div_assoc, div_self hne, mul_one, Int.ceil_intCast]

section Update

variable {Obj : Type} (P : PyObjects Obj) (config : VulkanConfig)

theorem updatedBlockSize_pos (cache : CacheConfig) : 0 < updatedBlockSize config cache := by
  have hpos : (0 : ℤ) < config.blockSize := by exact_mod_cast config.blockSize_pos
  unfold updatedBlockSize
  cases cache.blockSize with
  | none => exact hpos
  | some b =>
    dsimp only
    split_ifs with hb
    · exact hpos
    · exact hpos.trans_le (not_lt.1 hb)

/-- The length the cap computes from the tokens that the budget holds. -/
def safeMax (blockSize tokens : ℤ) : ℤ := 9 * tokens / 10 / blockSize * blockSize

variable {P}
variable {m : ModelConfig Obj} {specs : List KVCacheLayerSpec} {bs budget len : ℤ}

/-- The cap, for a budget of `budget / bytesPerToken` tokens. -/
theorem cappedLen_eq (hspecs : inferKvLayerSpecs P m.hfConfig bs m.dtype = .ok specs)
    (hbs : 0 < bs) (hbudget : 0 < budget) (hbytes : 0 < bytesPerToken specs) :
    cappedLen P config bs budget len m =
      .ok (if budget / bytesPerToken specs < len then
        if safeMax bs (budget / bytesPerToken specs) > 0 ∧
            safeMax bs (budget / bytesPerToken specs) < len then
          some (safeMax bs (budget / bytesPerToken specs))
        else none
      else none) := by
  have htokens : 0 ≤ budget / bytesPerToken specs := Int.ediv_nonneg hbudget.le hbytes.le
  have hdiv : trueDiv budget ((specs.map KVCacheLayerSpec.bytesPerToken).sum : ℕ) =
      .ok ((budget : ℚ) / (bytesPerToken specs : ℤ)) := by
    change trueDiv budget (bytesPerToken specs) = _
    rw [trueDiv, if_neg hbytes.ne']
  unfold cappedLen
  rw [if_neg hbs.ne']
  dsimp only
  rw [hspecs]
  simp only [bind, Except.bind, hdiv, truncate_div hbudget.le hbytes, truncate_headroom htokens,
    Int.fdiv_eq_ediv_of_nonneg _ hbs.le, pure, Except.pure, safeMax]
  by_cases hover : budget / bytesPerToken specs < len
  · rw [if_pos hover, if_pos hover]
    congr
  · rw [if_neg hover, if_neg hover]

theorem cappedLen_zero (hspecs : inferKvLayerSpecs P m.hfConfig bs m.dtype = .ok specs)
    (hbs : 0 < bs) (hbytes : bytesPerToken specs = 0) :
    ∃ e, cappedLen P config bs budget len m = .error e := by
  have hdiv : trueDiv budget ((specs.map KVCacheLayerSpec.bytesPerToken).sum : ℕ) =
      .error (.zeroDivisionError "division by zero") := if_pos hbytes
  refine ⟨.zeroDivisionError "division by zero", ?_⟩
  unfold cappedLen
  rw [if_neg hbs.ne']
  dsimp only
  rw [hspecs]
  simp only [bind, Except.bind, hdiv]

theorem safeMax_le {tokens : ℤ} (hbs : 0 < bs) (htokens : 0 ≤ tokens) :
    safeMax bs tokens ≤ tokens := by
  have h : safeMax bs tokens ≤ 9 * tokens / 10 := Int.ediv_mul_le _ hbs.ne'
  omega

theorem safeMax_pos_iff {tokens : ℤ} (hbs : 0 < bs) :
    0 < safeMax bs tokens ↔ 10 * bs ≤ 9 * tokens := by
  have hmul : 0 < safeMax bs tokens ↔ 0 < 9 * tokens / 10 / bs := by
    unfold safeMax
    exact mul_pos_iff_of_pos_right hbs
  have hdiv : 0 < 9 * tokens / 10 / bs ↔ bs ≤ 9 * tokens / 10 := by
    rw [← Int.add_one_le_iff, Int.zero_add, Int.le_ediv_iff_mul_le hbs, Int.one_mul]
  rw [hmul, hdiv]
  omega

/-- **The length after the update**, with tokens to count. -/
theorem updatedLen_eq (hspecs : inferKvLayerSpecs P m.hfConfig bs m.dtype = .ok specs)
    (hbs : 0 < bs) (hbudget : 0 < budget) (hbytes : 0 < bytesPerToken specs)
    (hlen : m.maxModelLen = some len) :
    updatedLen P config bs budget m =
      some (if budget < len * bytesPerToken specs ∧
          10 * bs ≤ 9 * (budget / bytesPerToken specs) then
        safeMax bs (budget / bytesPerToken specs) else len) := by
  have htokens : 0 ≤ budget / bytesPerToken specs := Int.ediv_nonneg hbudget.le hbytes.le
  have hlt : budget / bytesPerToken specs < len ↔ budget < len * bytesPerToken specs :=
    Int.ediv_lt_iff_lt_mul hbytes
  have hle := safeMax_le hbs htokens
  unfold updatedLen
  rw [hlen]
  dsimp only
  rw [cappedLen_eq config hspecs hbs hbudget hbytes]
  by_cases hover : budget < len * bytesPerToken specs
  · have hsafe : safeMax bs (budget / bytesPerToken specs) < len := hle.trans_lt (hlt.2 hover)
    rw [if_pos (hlt.2 hover)]
    by_cases hroom : 10 * bs ≤ 9 * (budget / bytesPerToken specs)
    · rw [if_pos ⟨(safeMax_pos_iff hbs).2 hroom, hsafe⟩, if_pos ⟨hover, hroom⟩]
    · rw [if_neg (fun h => hroom ((safeMax_pos_iff hbs).1 h.1)), if_neg (fun h => hroom h.2)]
  · rw [if_neg (fun h => hover (hlt.1 h)), if_neg (fun h => hover h.1)]

theorem fits_safeMax (hbs : 0 < bs) (hbudget : 0 < budget) (hbytes : 0 < bytesPerToken specs) :
    Fits specs bs budget (safeMax bs (budget / bytesPerToken specs)) := by
  have htokens : 0 ≤ budget / bytesPerToken specs := Int.ediv_nonneg hbudget.le hbytes.le
  unfold Fits
  rw [safeMax, ceil_blocks hbs]
  calc safeMax bs (budget / bytesPerToken specs) * bytesPerToken specs
      ≤ budget / bytesPerToken specs * bytesPerToken specs :=
        mul_le_mul_of_nonneg_right (safeMax_le hbs htokens) hbytes.le
    _ ≤ budget := Int.ediv_mul_le _ hbytes.ne'

/-- The updated length is not above the configured one, and it fits in exactly these cases. -/
theorem updatedLen_fits_iff (hspecs : inferKvLayerSpecs P m.hfConfig bs m.dtype = .ok specs)
    (hbs : 0 < bs) (hbudget : 0 < budget) (hlen : m.maxModelLen = some len) :
    ∃ len', updatedLen P config bs budget m = some len' ∧ len' ≤ len ∧
      (Fits specs bs budget len' ↔ Fits specs bs budget len ∨
        (budget < len * bytesPerToken specs ∧ 10 * bs ≤ 9 * (budget / bytesPerToken specs))) := by
  obtain hbytes | hbytes := (bytesPerToken_nonneg specs).eq_or_lt
  · -- no layers: the division fails and the length stays
    obtain ⟨e, he⟩ : ∃ e, cappedLen P config bs budget len m = .error e :=
      cappedLen_zero config hspecs hbs hbytes.symm
    have hfits : Fits specs bs budget len := by
      unfold Fits
      rw [← hbytes, mul_zero]
      exact hbudget.le
    refine ⟨len, ?_, le_refl len, iff_of_true hfits (.inl hfits)⟩
    simp only [updatedLen, hlen, he]
  refine ⟨_, updatedLen_eq config hspecs hbs hbudget hbytes hlen, ?_⟩
  split_ifs with hcap
  · have htokens : 0 ≤ budget / bytesPerToken specs := Int.ediv_nonneg hbudget.le hbytes.le
    have hlt := (Int.ediv_lt_iff_lt_mul hbytes).2 hcap.1
    exact ⟨(safeMax_le hbs htokens).trans hlt.le,
      iff_of_true (fits_safeMax hbs hbudget hbytes) (.inr hcap)⟩
  · exact ⟨le_refl len, (or_iff_left hcap).symm⟩

end Update

/-- **Exactly when the updated length fits**; it is never raised. -/
theorem checkAndUpdateConfig_fits_iff {Obj : Type} (P : PyObjects Obj) (config : VulkanConfig)
    (kvSpaceBytes : ℤ) {c : VllmConfig Obj} {m : ModelConfig Obj}
    {specs : List KVCacheLayerSpec} {budget len : ℤ} (hm : c.modelConfig = some m)
    (hbudget : c.cacheConfig.kvCacheMemoryBytes = some budget) (hpos : 0 < budget)
    (hlen : m.maxModelLen = some len)
    (hspecs : inferKvLayerSpecs P m.hfConfig (updatedBlockSize config c.cacheConfig) m.dtype =
      .ok specs) :
    ∃ m' len' bs, (checkAndUpdateConfig P config kvSpaceBytes c).modelConfig = some m' ∧
      m'.maxModelLen = some len' ∧
      (checkAndUpdateConfig P config kvSpaceBytes c).cacheConfig = ⟨some bs, some budget⟩ ∧
      len' ≤ len ∧
      (Fits specs bs budget len' ↔ Fits specs bs budget len ∨
        (budget < len * bytesPerToken specs ∧ 10 * bs ≤ 9 * (budget / bytesPerToken specs))) := by
  obtain ⟨len', hlen', hle, hiff⟩ := updatedLen_fits_iff config hspecs
    (updatedBlockSize_pos config c.cacheConfig) hpos hlen
  refine ⟨{ m with maxModelLen := some len' }, len', updatedBlockSize config c.cacheConfig, ?_, rfl,
    ?_, hle, hiff⟩
  · simp only [checkAndUpdateConfig, hm, hbudget, Option.map_some, Option.getD_some, hlen']
  · simp only [checkAndUpdateConfig, hbudget, Option.getD_some]

/-! ### A partial block -/

/-- Objects that are integers; a configuration has one layer, one head and one element. -/
def integerObjects : PyObjects ℤ where
  attr _ name := if name = "head_dim" then some 1 else none
  isNone _ := false
  truthy n := n ≠ 0
  int n := .ok n
  lower n := toString n
  len _ := .error (.typeError "object of type 'int' has no len()")
  item _ _ := .error (.typeError "'int' object is not subscriptable")

/-- Its layer, in blocks of 16 tokens. -/
def oneLayer : KVCacheLayerSpec :=
  ⟨0, 1, 1, 16, 4, Nat.one_pos, Nat.one_pos, Nat.succ_pos _, KVCacheLayerSpec.four_pos⟩

/-- A model of 17 tokens. -/
def oneLayerModel : ModelConfig ℤ := ⟨0, .width 4, some 17⟩

theorem inferKvLayerSpecs_oneLayer :
    inferKvLayerSpecs integerObjects 0 16 (.width 4) = .ok [oneLayer] :=
  rfl

/-- Seventeen tokens of eight bytes in a budget of 136: they need two blocks, and the length stays.
-/
theorem lastBlock_overflows :
    (checkAndUpdateConfig integerObjects ⟨16, by decide⟩ 0
      ⟨⟨some 16, some 136⟩, some oneLayerModel⟩).modelConfig = some oneLayerModel ∧
    ¬ Fits [oneLayer] 16 136 17 := by
  constructor
  · have h := updatedLen_eq ⟨16, by decide⟩ (m := oneLayerModel) inferKvLayerSpecs_oneLayer
      (by decide) (show (0 : ℤ) < 136 by decide) (by decide) rfl
    exact congrArg some (congrArg (ModelConfig.mk 0 (.width 4)) h)
  · have hceil : ⌈(17 : ℚ) / 16⌉ = 2 := by norm_num
    unfold Fits
    push_cast
    rw [hceil]
    decide

/-- A budget of two blocks, for a hundred tokens. -/
theorem checkAndUpdateConfig_fits_iff_small : ∃ m' len' bs,
    (checkAndUpdateConfig integerObjects ⟨16, by decide⟩ 0
      ⟨⟨some 16, some 288⟩, some ⟨0, .width 4, some 100⟩⟩).modelConfig = some m' ∧
    m'.maxModelLen = some len' ∧
    (checkAndUpdateConfig integerObjects ⟨16, by decide⟩ 0
      ⟨⟨some 16, some 288⟩, some ⟨0, .width 4, some 100⟩⟩).cacheConfig = ⟨some bs, some 288⟩ ∧
    len' ≤ 100 ∧
    (Fits [oneLayer] bs 288 len' ↔ Fits [oneLayer] bs 288 100 ∨
      ((288 : ℤ) < 100 * bytesPerToken [oneLayer] ∧
        10 * bs ≤ 9 * (288 / bytesPerToken [oneLayer]))) :=
  checkAndUpdateConfig_fits_iff integerObjects ⟨16, by decide⟩ 0 rfl rfl (by decide) rfl
    inferKvLayerSpecs_oneLayer

end ContextCap

end VllmVulkan
