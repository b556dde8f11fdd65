import VllmVulkan.Linear.Matmul
import Mathlib.Data.List.ProdSigma
import Mathlib.Data.List.Perm.Subperm

/-!
# The tiling of the matmul shader

The sums of the invocations of a workgroup tile its block of the output: a block is cut into warps,
a warp into iterations, an iteration into invocations, and every invocation has a few rows and
columns.  The specialization constants have to fit together for this.

* `Tiling` : the equations between the constants;
* `slots`, `cell` : the sums of an invocation, and where they belong;
* `cells_perm` : **every cell of the block belongs to one sum of one invocation**.
-/

namespace VllmVulkan

namespace Matmul

open Store Finset

/-- The constants cut a block into equal parts, and the invocations are as many as there are. -/
structure Tiling (s : Spec) : Prop where
  bm : s.bm / s.wm * s.wm = s.bm
  wm : s.wmIter * s.wsubm = s.wm
  wsubm : s.wsubm / s.tm * s.tm = s.wsubm
  tm : s.tm / 2 * 2 = s.tm
  bn : s.bn / s.wn * s.wn = s.bn
  wn : s.wnIter * s.wsubn = s.wn
  wsubn : s.wsubn / s.tn * s.tn = s.wsubn
  warp : s.wsubn / s.tn * (s.wsubm / s.tm) = s.warp
  blockSize : s.bn / s.wn * (s.bm / s.wm) * s.warp = s.blockSize

/-- The sums of an invocation: `wsic`, `wsir`, `cc`, `cr` and the component. -/
def slots (s : Spec) : List (ℕ × ℕ × ℕ × ℕ × ℕ) :=
  List.range s.wnIter ×ˢ List.range s.wmIter ×ˢ List.range s.tn ×ˢ List.range (s.tm / 2) ×ˢ
    List.range 2

/-- The row and the column of a sum of an invocation. -/
def cell (s : Spec) (tid : ℕ) (d : ℕ × ℕ × ℕ × ℕ × ℕ) : ℕ × ℕ :=
  (tileRow s tid d.2.1 (2 * d.2.2.2.1 + d.2.2.2.2), tileCol s tid d.1 d.2.2.1)

variable {s : Spec}

theorem mem_slots {d : ℕ × ℕ × ℕ × ℕ × ℕ} : d ∈ slots s ↔ d.1 < s.wnIter ∧ d.2.1 < s.wmIter ∧
    d.2.2.1 < s.tn ∧ d.2.2.2.1 < s.tm / 2 ∧ d.2.2.2.2 < 2 := by
  obtain ⟨wsic, wsir, cc, cr, e⟩ := d
  simp [slots, SProd.sprod]

theorem nodup_slots (s : Spec) : (slots s).Nodup :=
  List.nodup_range.product (List.nodup_range.product (List.nodup_range.product
    (List.nodup_range.product List.nodup_range)))

/-! ### The position of an invocation -/

theorem mul_add_lt {a b m n : ℕ} (ha : a < m) (hb : b < n) : a * n + b < m * n := by
  rw [Nat.mul_comm a]
  exact Nat.mul_add_lt_mul_of_lt_of_lt ha hb

theorem digits_lt (ht : Tiling s) {tid : ℕ} (htid : tid < s.blockSize) :
    warpR s tid < s.bm / s.wm ∧ warpC s tid < s.bn / s.wn ∧
      tiwr s tid < s.wsubm / s.tm ∧ tiwc s tid < s.wsubn / s.tn := by
  have hpos : 0 < s.bn / s.wn * (s.bm / s.wm) * s.warp := ht.blockSize ▸ Nat.zero_lt_of_lt htid
  have hwarp : 0 < s.warp := Nat.pos_of_mul_pos_left hpos
  have hrows : 0 < s.bm / s.wm := Nat.pos_of_mul_pos_left (Nat.pos_of_mul_pos_right hpos)
  have hinner : 0 < s.wsubm / s.tm := Nat.pos_of_mul_pos_left (ht.warp ▸ hwarp)
  refine ⟨Nat.mod_lt _ hrows, ?_, Nat.mod_lt _ hinner, ?_⟩
  · rw [warpC, Nat.div_lt_iff_lt_mul hrows, Nat.div_lt_iff_lt_mul hwarp, ht.blockSize]
    exact htid
  · rw [tiwc, Nat.div_lt_iff_lt_mul hinner, ht.warp]
    exact Nat.mod_lt _ hwarp

theorem tid_ext {tid tid' : ℕ} (hwr : warpR s tid = warpR s tid') (hwc : warpC s tid = warpC s tid')
    (hr : tiwr s tid = tiwr s tid') (hc : tiwc s tid = tiwc s tid') : tid = tid' := by
  have hdiv : tid / s.warp = tid' / s.warp := by
    rw [← Nat.div_add_mod (tid / s.warp) (s.bm / s.wm), ← Nat.div_add_mod (tid' / s.warp)]
    exact congrArg₂ (fun c r => s.bm / s.wm * c + r) hwc hwr
  have hmod : tid % s.warp = tid' % s.warp := by
    rw [← Nat.div_add_mod (tid % s.warp) (s.wsubm / s.tm), ← Nat.div_add_mod (tid' % s.warp)]
    exact congrArg₂ (fun c r => s.wsubm / s.tm * c + r) hc hr
  rw [← Nat.div_add_mod tid s.warp, hdiv, hmod, Nat.div_add_mod]

/-! ### Rows and columns -/

theorem tileRow_eq (ht : Tiling s) (tid wsir r : ℕ) : tileRow s tid wsir r =
    ((warpR s tid * s.wmIter + wsir) * (s.wsubm / s.tm) + tiwr s tid) * s.tm + r := by
  rw [tileRow, ← ht.wm]
  nth_rewrite 1 2 [← ht.wsubm]
  ring

theorem tileCol_eq (ht : Tiling s) (tid wsic cc : ℕ) : tileCol s tid wsic cc =
    ((warpC s tid * s.wnIter + wsic) * (s.wsubn / s.tn) + tiwc s tid) * s.tn + cc := by
  rw [tileCol, ← ht.wn]
  nth_rewrite 1 2 [← ht.wsubn]
  ring

theorem bm_eq (ht : Tiling s) : s.bm / s.wm * s.wmIter * (s.wsubm / s.tm) * s.tm = s.bm := by
  rw [Nat.mul_assoc _ _ s.tm, ht.wsubm, Nat.mul_assoc, ht.wm, ht.bm]

theorem bn_eq (ht : Tiling s) : s.bn / s.wn * s.wnIter * (s.wsubn / s.tn) * s.tn = s.bn := by
  rw [Nat.mul_assoc _ _ s.tn, ht.wsubn, Nat.mul_assoc, ht.wn, ht.bn]

theorem tileRow_lt (ht : Tiling s) {tid wsir r : ℕ} (htid : tid < s.blockSize)
    (hwsir : wsir < s.wmIter) (hr : r < s.tm) : tileRow s tid wsir r < s.bm := by
  obtain ⟨hwr, -, htr, -⟩ := digits_lt ht htid
  rw [tileRow_eq ht, ← bm_eq ht]
  exact mul_add_lt (mul_add_lt (mul_add_lt hwr hwsir) htr) hr

theorem tileCol_lt (ht : Tiling s) {tid wsic cc : ℕ} (htid : tid < s.blockSize)
    (hwsic : wsic < s.wnIter) (hcc : cc < s.tn) : tileCol s tid wsic cc < s.bn := by
  obtain ⟨-, hwc, -, htc⟩ := digits_lt ht htid
  rw [tileCol_eq ht, ← bn_eq ht]
  exact mul_add_lt (mul_add_lt (mul_add_lt hwc hwsic) htc) hcc

theorem slot_row_lt (ht : Tiling s) {d : ℕ × ℕ × ℕ × ℕ × ℕ} (hd : d ∈ slots s) :
    2 * d.2.2.2.1 + d.2.2.2.2 < s.tm := by
  obtain ⟨-, -, -, hcr, he⟩ := mem_slots.1 hd
  have htm := ht.tm
  omega

/-- **No two sums share a cell.** -/
theorem cell_inj (ht : Tiling s) {tid tid' : ℕ} (htid : tid < s.blockSize)
    (htid' : tid' < s.blockSize) {d d' : ℕ × ℕ × ℕ × ℕ × ℕ} (hd : d ∈ slots s) (hd' : d' ∈ slots s)
    (h : cell s tid d = cell s tid' d') : tid = tid' ∧ d = d' := by
  have hr := slot_row_lt ht hd
  have hr' := slot_row_lt ht hd'
  obtain ⟨hwsic, hwsir, hcc, hcr, he⟩ := mem_slots.1 hd
  obtain ⟨hwsic', hwsir', hcc', hcr', he'⟩ := mem_slots.1 hd'
  obtain ⟨-, -, htr, htc⟩ := digits_lt ht htid
  obtain ⟨-, -, htr', htc'⟩ := digits_lt ht htid'
  obtain ⟨wsic, wsir, cc, cr, e⟩ := d
  obtain ⟨wsic', wsir', cc', cr', e'⟩ := d'
  obtain ⟨hrow, hcol⟩ := Prod.mk.inj h
  rw [tileRow_eq ht, tileRow_eq ht] at hrow
  rw [tileCol_eq ht, tileCol_eq ht] at hcol
  -- the digits of the row, then those of the column
  obtain ⟨h₁, hrr⟩ := mul_add_inj hr hr' hrow
  obtain ⟨h₂, htr⟩ := mul_add_inj htr htr' h₁
  obtain ⟨hwr, rfl⟩ := mul_add_inj hwsir hwsir' h₂
  obtain ⟨h₃, rfl⟩ := mul_add_inj hcc hcc' hcol
  obtain ⟨h₄, htc⟩ := mul_add_inj htc htc' h₃
  obtain ⟨hwc, rfl⟩ := mul_add_inj hwsic hwsic' h₄
  dsimp only at hrr hcr he hcr' he'
  obtain rfl : cr = cr' := by omega
  obtain rfl : e = e' := by omega
  exact ⟨tid_ext hwr hwc htr htc, rfl⟩

/-- **Every cell of the block** belongs to one sum of one invocation. -/
theorem cells_perm (ht : Tiling s) :
    ((List.range s.blockSize ×ˢ slots s).map fun i => cell s i.1 i.2).Perm
      (List.range s.bm ×ˢ List.range s.bn) := by
  refine List.Subperm.perm_of_length_le (List.Nodup.subperm ?_ ?_) (le_of_eq ?_)
  · refine (List.nodup_range.product (nodup_slots s)).map_on ?_
    intro i hi i' hi' h
    obtain ⟨htid, hd⟩ := List.mem_product.1 hi
    obtain ⟨htid', hd'⟩ := List.mem_product.1 hi'
    obtain ⟨h₁, h₂⟩ := cell_inj ht (List.mem_range.1 htid) (List.mem_range.1 htid') hd hd' h
    exact Prod.ext h₁ h₂
  · intro c hc
    obtain ⟨i, hi, rfl⟩ := List.mem_map.1 hc
    obtain ⟨htid, hd⟩ := List.mem_product.1 hi
    obtain ⟨hwsic, hwsir, hcc, -, -⟩ := mem_slots.1 hd
    refine List.mem_product.2 ⟨List.mem_range.2 ?_, List.mem_range.2 ?_⟩
    · exact tileRow_lt ht (List.mem_range.1 htid) hwsir (slot_row_lt ht hd)
    · exact tileCol_lt ht (List.mem_range.1 htid) hwsic hcc
  · -- as many cells as sums
    simp only [slots, List.length_map, List.length_product, List.length_range, ht.tm]
    rw [← bm_eq ht, ← bn_eq ht, ← ht.blockSize, ← ht.warp]
    ring

end Matmul

end VllmVulkan
