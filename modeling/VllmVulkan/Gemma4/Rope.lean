import VllmVulkan.Gemma4.Ops
import VllmVulkan.Lib.Rotation
import Mathlib.Analysis.SpecialFunctions.Pow.Real
import Mathlib.Analysis.SpecialFunctions.Trigonometric.Basic

/-!
# RoPE encodes relative position

`cpuRope` turns the pairs `(i, i + rotaryDim / 2)` of each head in place, all heads by one table.

* `SinCosLaws` : what is used of the sine and the cosine;
* `rotateHead_eq` : the loop over the table is the rotation `rotated` of the head; no turn of it
  reads an element that an earlier one has written;
* `cpuRope_eq` : the rotation of every head;
* `RelativePosition` : what rotated heads satisfy;
* `cpuRope_relativePosition` : **`cpuRope` encodes relative position**.
-/

namespace VllmVulkan

namespace Gemma4

open Elementary Rotation

/-- The laws of the sine and the cosine. -/
structure SinCosLaws (K : Type) [Field K] [Elementary K] : Prop where
  sin_add : ∀ a b : K, sin (a + b) = sin a * cos b + cos a * sin b
  cos_add : ∀ a b : K, cos (a + b) = cos a * cos b - sin a * sin b
  unit : ∀ a : K, sin a * sin a + cos a * cos a = 1

variable {K : Type} [Field K]

/-- A list as a vector. -/
def coords (x : List K) (j : ℕ) : K := x.getD j 0

/-- The inner product of two heads. -/
def headDot (d : ℕ) (x y : List K) : K := inner d (coords x) (coords y)

/-! ### One head -/

/-- The head with its pairs `i < half` turned by `t i`. -/
def rotated (half : ℕ) (t : ℕ → Turn K) (x : List K) : List K :=
  (List.range x.length).map (rotate half t (coords x))

@[simp] theorem length_rotated (half : ℕ) (t : ℕ → Turn K) (x : List K) :
    (rotated half t x).length = x.length := by
  rw [rotated, List.length_map, List.length_range]

/-- The first `n` turns. -/
def firstTurns (n : ℕ) (t : ℕ → Turn K) (i : ℕ) : Turn K := if i < n then t i else 1

theorem coords_of_le {x : List K} {j : ℕ} (hj : x.length ≤ j) : coords x j = 0 := by
  rw [coords, List.getD_eq_default _ _ hj]

theorem eq_of_coords {x y : List K} (hlen : x.length = y.length) (h : coords x = coords y) :
    x = y := by
  refine List.ext_getElem hlen ?_
  intro j hx hy
  have hj := congrFun h j
  rwa [coords, coords, List.getD_eq_getElem _ _ hx, List.getD_eq_getElem _ _ hy] at hj

theorem coords_rotated {half : ℕ} (t : ℕ → Turn K) {x : List K} (hx : half + half ≤ x.length) :
    coords (rotated half t x) = rotate half t (coords x) := by
  funext j
  obtain hj | hj := Nat.lt_or_ge j x.length
  · rw [coords, List.getD_eq_getElem _ _ (by simpa using hj)]
    simp [rotated]
  · rw [coords_of_le (by simpa using hj), rotate_of_le (hx.trans hj), coords_of_le hj]

/-- What one turn of the loop writes. -/
def turnPair (half i : ℕ) (t : Turn K) (x : List K) : List K :=
  (x.set i (t.act (pair half (coords x) i)).1).set (i + half) (t.act (pair half (coords x) i)).2

theorem coords_set {x : List K} {i : ℕ} (hi : i < x.length) (v : K) :
    coords (x.set i v) = Function.update (coords x) i v := by
  funext j
  simp only [coords, List.getD_eq_getElem?_getD, List.getElem?_set, Function.update_apply]
  by_cases hj : i = j
  · simp [hj, hj ▸ hi]
  · rw [if_neg hj, if_neg (Ne.symm hj)]

theorem coords_turnPair {half i : ℕ} (t : Turn K) {x : List K} (hi : i < half)
    (hx : half + half ≤ x.length) : coords (turnPair half i t x) =
      Function.update (Function.update (coords x) i (t.act (pair half (coords x) i)).1) (i + half)
        (t.act (pair half (coords x) i)).2 := by
  rw [turnPair, coords_set (by rw [List.length_set]; omega), coords_set (by omega)]

theorem pair_turnPair_self {half i : ℕ} (t : Turn K) {x : List K} (hi : i < half)
    (hx : half + half ≤ x.length) :
    pair half (coords (turnPair half i t x)) i = t.act (pair half (coords x) i) := by
  rw [coords_turnPair t hi hx, pair, Function.update_self,
    Function.update_of_ne (show i ≠ i + half by omega), Function.update_self]

theorem pair_turnPair_of_ne {half i j : ℕ} (t : Turn K) {x : List K} (hi : i < half)
    (hx : half + half ≤ x.length) (hj : j < half) (hne : j ≠ i) :
    pair half (coords (turnPair half i t x)) j = pair half (coords x) j := by
  rw [coords_turnPair t hi hx, pair, Function.update_of_ne (show j ≠ i + half by omega),
    Function.update_of_ne hne, Function.update_of_ne (show j + half ≠ i + half by omega),
    Function.update_of_ne (show j + half ≠ i by omega)]
  rfl

theorem coords_turnPair_of_le {half i j : ℕ} (t : Turn K) {x : List K} (hi : i < half)
    (hx : half + half ≤ x.length) (hj : half + half ≤ j) :
    coords (turnPair half i t x) j = coords x j := by
  rw [coords_turnPair t hi hx, Function.update_of_ne (show j ≠ i + half by omega),
    Function.update_of_ne (show j ≠ i by omega)]

/-- **One turn of the loop**: the pair it turns is still as it was before the loop. -/
theorem coords_turnPair_firstTurns {half n : ℕ} (t : ℕ → Turn K) {x z : List K} (hn : n < half)
    (hlen : half + half ≤ z.length) (hz : coords z = rotate half (firstTurns n t) (coords x)) :
    coords (turnPair half n (t n) z) = rotate half (firstTurns (n + 1) t) (coords x) := by
  refine ext_pair half (fun i hi => ?_) fun j hj => ?_
  · rw [pair_rotate hi]
    obtain rfl | hne := eq_or_ne i n
    · have hfresh : pair half (coords z) i = pair half (coords x) i := by
        rw [hz, pair_rotate hi, firstTurns, if_neg (Nat.lt_irrefl i), Turn.act_one]
      rw [pair_turnPair_self (t i) hi hlen, hfresh, firstTurns, if_pos (Nat.lt_succ_self i)]
    · have hiff : i < n ↔ i < n + 1 := by omega
      rw [pair_turnPair_of_ne (t n) hn hlen hi hne, hz, pair_rotate hi]
      simp only [firstTurns, hiff]
  · rw [coords_turnPair_of_le (t n) hn hlen hj, hz, rotate_of_le hj, rotate_of_le hj]

/-- The table of the turns `t`. -/
def turnTable (half : ℕ) (t : ℕ → Turn K) : List (K × K) :=
  (List.range half).map fun i => ((t i).sin, (t i).cos)

theorem rotateHead_succ (half n : ℕ) (t : ℕ → Turn K) (x : List K) :
    rotateHead half (turnTable (n + 1) t) x = (rotateHead half (turnTable n t) x).bind fun z =>
      z[n]?.bind fun x0 => z[n + half]?.bind fun x1 =>
        some ((z.set n (x0 * (t n).cos - x1 * (t n).sin)).set (n + half)
          (x0 * (t n).sin + x1 * (t n).cos)) := by
  simp [rotateHead, turnTable, List.range_succ, List.zipIdx_append]

/-- The loop over the first `n` entries of the table. -/
theorem rotateHead_firstTurns {half n : ℕ} (t : ℕ → Turn K) {x : List K} (hn : n ≤ half)
    (hx : half + half ≤ x.length) : ∃ y, rotateHead half (turnTable n t) x = some y ∧
      y.length = x.length ∧ coords y = rotate half (firstTurns n t) (coords x) := by
  induction n with
  | zero =>
    refine ⟨x, rfl, rfl, ?_⟩
    refine ext_pair half (fun i hi => ?_) fun j hj => (rotate_of_le hj _ _).symm
    rw [pair_rotate hi, firstTurns, if_neg (Nat.not_lt_zero i), Turn.act_one]
  | succ n ih =>
    obtain ⟨z, hz, hlen, hcoords⟩ := ih (by omega)
    have hz' : half + half ≤ z.length := hlen ▸ hx
    refine ⟨turnPair half n (t n) z, ?_, ?_, coords_turnPair_firstTurns t hn hz' hcoords⟩
    · have h0 : n < z.length := by omega
      have h1 : n + half < z.length := by omega
      rw [rotateHead_succ, hz]
      simp only [Option.bind_some, List.getElem?_eq_getElem h0,
        List.getElem?_eq_getElem h1, turnPair, Turn.act, pair, coords, List.getD_eq_getElem _ _ h0,
        List.getD_eq_getElem _ _ h1]
    · rw [turnPair, List.length_set, List.length_set, hlen]

/-- **The loop is the rotation.** -/
theorem rotateHead_eq {half : ℕ} (t : ℕ → Turn K) {x : List K} (hx : half + half ≤ x.length) :
    rotateHead half (turnTable half t) x = some (rotated half t x) := by
  obtain ⟨y, hy, hlen, hcoords⟩ := rotateHead_firstTurns t (Nat.le_refl half) hx
  have hall : rotate half (firstTurns half t) (coords x) = rotate half t (coords x) := by
    refine ext_pair half (fun i hi => ?_) fun j hj => ?_
    · rw [pair_rotate hi, pair_rotate hi, firstTurns, if_pos hi]
    · rw [rotate_of_le hj, rotate_of_le hj]
  rw [hy, eq_of_coords (hlen.trans (length_rotated half t x).symm)
    (by rw [hcoords, hall, coords_rotated t hx])]

/-! ### The table -/

variable [Elementary K]

section Table

variable (laws : SinCosLaws K) (rotaryDim : ℕ) (theta : K)

/-- The turn of pair `i` at a position. -/
def ropeTurn (pos i : ℕ) : Turn K :=
  let angle : K := pos * (1 / powf theta (i * 2 / rotaryDim))
  ⟨sin angle, cos angle, laws.unit angle⟩

theorem sinCosTable_eq (pos : ℕ) : sinCosTable pos rotaryDim theta =
    turnTable (rotaryDim / 2) (ropeTurn laws rotaryDim theta pos) := by
  have hcast : (List.range (rotaryDim / 2)).flatMap (fun i : ℕ => [(i : K)]) =
      (List.range (rotaryDim / 2)).map Nat.cast := List.map_eq_flatMap.symm
  simp [sinCosTable, turnTable, ropeTurn, hcast]

theorem ropeTurn_add (a b : ℕ) : ropeTurn laws rotaryDim theta (a + b) =
    ropeTurn laws rotaryDim theta a * ropeTurn laws rotaryDim theta b := by
  funext i
  refine Turn.ext ?_ ?_
  · simp only [ropeTurn, Pi.mul_apply, Turn.mul_sin, Nat.cast_add, add_mul, laws.sin_add]
  · simp only [ropeTurn, Pi.mul_apply, Turn.mul_cos, Nat.cast_add, add_mul, laws.cos_add]

/-- The head at a position. -/
def ropeHead (pos : ℕ) : List K → List K :=
  rotated (rotaryDim / 2) (ropeTurn laws rotaryDim theta pos)

/-- The `n` heads at a position. -/
def ropeHeads (n d pos : ℕ) : List K → List K :=
  rewriteRows n d (ropeHead laws rotaryDim theta pos)

end Table

section Heads

variable {laws : SinCosLaws K} {d rotaryDim : ℕ} {theta : K} (hrot : rotaryDim ≤ d)

theorem length_ropeHead (pos : ℕ) (x : List K) :
    (ropeHead laws rotaryDim theta pos x).length = x.length :=
  length_rotated ..

theorem length_ropeHead_of {pos : ℕ} (row : List K) (h : row.length = d) :
    (ropeHead laws rotaryDim theta pos row).length = d :=
  (length_ropeHead pos row).trans h

theorem length_ropeHeads {n : ℕ} {x : List K} (pos : ℕ) (hx : n * d ≤ x.length) :
    (ropeHeads laws rotaryDim theta n d pos x).length = x.length :=
  length_rewriteRows length_ropeHead_of hx

theorem nthRow_ropeHeads {n i : ℕ} {x : List K} (pos : ℕ) (hx : n * d ≤ x.length) (hi : i < n) :
    nthRow d (ropeHeads laws rotaryDim theta n d pos x) i =
      ropeHead laws rotaryDim theta pos (nthRow d x i) :=
  nthRow_rewriteRows length_ropeHead_of hx hi

include hrot

theorem half_add_half_le : rotaryDim / 2 + rotaryDim / 2 ≤ d := by omega

theorem coords_ropeHead (pos : ℕ) {x : List K} (hx : x.length = d) :
    coords (ropeHead laws rotaryDim theta pos x) =
      rotate (rotaryDim / 2) (ropeTurn laws rotaryDim theta pos) (coords x) :=
  coords_rotated _ (hx ▸ half_add_half_le hrot)

theorem ropeHead_ropeHead (a b : ℕ) {x : List K} (hx : x.length = d) :
    ropeHead laws rotaryDim theta b (ropeHead laws rotaryDim theta a x) =
      ropeHead laws rotaryDim theta (a + b) x := by
  refine eq_of_coords (by simp only [length_ropeHead]) ?_
  rw [coords_ropeHead hrot b (length_ropeHead_of x hx), coords_ropeHead hrot a hx,
    coords_ropeHead hrot (a + b) hx, ropeTurn_add, rotate_mul]

/-- The inner product of a head at `p` with a head at `t`. -/
theorem headDot_ropeHead {p t : ℕ} (hpt : t ≤ p) {x y : List K} (hx : x.length = d)
    (hy : y.length = d) :
    headDot d (ropeHead laws rotaryDim theta p x) (ropeHead laws rotaryDim theta t y) =
      headDot d (ropeHead laws rotaryDim theta (p - t) x) y := by
  have hp : ropeTurn laws rotaryDim theta p =
      ropeTurn laws rotaryDim theta (p - t) * ropeTurn laws rotaryDim theta t := by
    rw [← ropeTurn_add, Nat.sub_add_cancel hpt]
  rw [headDot, coords_ropeHead hrot p hx, coords_ropeHead hrot t hy, hp,
    inner_rotate_mul (half_add_half_le hrot), headDot, coords_ropeHead hrot (p - t) hx]

theorem headDot_ropeHead_self (pos : ℕ) {x : List K} (hx : x.length = d) :
    headDot d (ropeHead laws rotaryDim theta pos x) (ropeHead laws rotaryDim theta pos x) =
      headDot d x x := by
  rw [headDot, coords_ropeHead hrot pos hx, inner_rotate (half_add_half_le hrot), headDot]

theorem getElem?_ropeHead (pos : ℕ) {x : List K} (hx : x.length = d) {e : ℕ}
    (he : rotaryDim ≤ e) : (ropeHead laws rotaryDim theta pos x)[e]? = x[e]? := by
  have hlen : (ropeHead laws rotaryDim theta pos x).length = d := length_ropeHead_of x hx
  obtain hlt | hge := Nat.lt_or_ge e d
  · have hcoord : coords (ropeHead laws rotaryDim theta pos x) e = coords x e := by
      rw [coords_ropeHead hrot pos hx, rotate_of_le (by omega)]
    rw [coords, coords, List.getD_eq_getElem _ _ (hlen ▸ hlt),
      List.getD_eq_getElem _ _ (hx ▸ hlt)] at hcoord
    rw [List.getElem?_eq_getElem (hlen ▸ hlt), List.getElem?_eq_getElem (hx ▸ hlt), hcoord]
  · rw [List.getElem?_eq_none (hlen ▸ hge), List.getElem?_eq_none (hx ▸ hge)]

variable (laws) in
/-- **Every head is rotated.** -/
theorem cpuRope_eq {nq nkv : ℕ} {q k : List K} (pos : ℕ) (hq : nq * d ≤ q.length)
    (hk : nkv * d ≤ k.length) : cpuRope q k pos nq nkv d rotaryDim theta =
      some (ropeHeads laws rotaryDim theta nq d pos q,
        ropeHeads laws rotaryDim theta nkv d pos k) := by
  have hf : ∀ row : List K, row.length = d →
      rotateHead (rotaryDim / 2) (sinCosTable pos rotaryDim theta) row =
        some (ropeHead laws rotaryDim theta pos row) := fun row hrow => by
    rw [sinCosTable_eq laws]
    exact rotateHead_eq _ (hrow ▸ half_add_half_le hrot)
  simp only [cpuRope, rowsInPlace_eq length_ropeHead_of hf hq,
    rowsInPlace_eq length_ropeHead_of hf hk, Option.bind_eq_bind, Option.bind_some, Option.pure_def]
  rfl

end Heads

/-! ### Relative position -/

/-- What holds of `n` heads of which `rope pos` rotates the first `rotaryDim` elements. -/
structure KeepsHeads (n d rotaryDim : ℕ) (rope : ℕ → List K → List K) : Prop where
  /-- The norm of each head, here its square, is unchanged. -/
  norm : ∀ pos x i, n * d ≤ x.length → i < n →
    headDot d (nthRow d (rope pos x) i) (nthRow d (rope pos x) i) =
      headDot d (nthRow d x i) (nthRow d x i)
  /-- So are the elements at or beyond `rotaryDim`. -/
  rest : ∀ pos x i e, n * d ≤ x.length → i < n → rotaryDim ≤ e →
    (nthRow d (rope pos x) i)[e]? = (nthRow d x i)[e]?

/-- What `cpu_rope` does to queries and to keys, when it encodes relative position. -/
structure RelativePosition (nq nkv d rotaryDim : ℕ) (theta : K)
    (ropeQ ropeK : ℕ → List K → List K) : Prop where
  returns : ∀ pos q k, nq * d ≤ q.length → nkv * d ≤ k.length →
    cpuRope q k pos nq nkv d rotaryDim theta = some (ropeQ pos q, ropeK pos k)
  /-- A query at `p` sees a key at `t` as the query at `p - t` sees the key itself. -/
  relative : ∀ p t q k i j, t ≤ p → nq * d ≤ q.length → nkv * d ≤ k.length → i < nq → j < nkv →
    headDot d (nthRow d (ropeQ p q) i) (nthRow d (ropeK t k) j) =
      headDot d (nthRow d (ropeQ (p - t) q) i) (nthRow d k j)
  keepsQ : KeepsHeads nq d rotaryDim ropeQ
  keepsK : KeepsHeads nkv d rotaryDim ropeK
  /-- Two calls in a row. -/
  compose : ∀ a b q k, nq * d ≤ q.length → nkv * d ≤ k.length →
    ((cpuRope q k a nq nkv d rotaryDim theta).bind fun r =>
      cpuRope r.1 r.2 b nq nkv d rotaryDim theta) = cpuRope q k (a + b) nq nkv d rotaryDim theta
  /-- A query head by itself, with a table of its own. -/
  aloneQ : ∀ pos q i, nq * d ≤ q.length → i < nq →
    cpuRope (nthRow d q i) [] pos 1 0 d rotaryDim theta = some (nthRow d (ropeQ pos q) i, [])
  /-- A key head by itself. -/
  aloneK : ∀ pos k j, nkv * d ≤ k.length → j < nkv →
    cpuRope [] (nthRow d k j) pos 0 1 d rotaryDim theta = some ([], nthRow d (ropeK pos k) j)

section Heads

variable {laws : SinCosLaws K} {d rotaryDim : ℕ} {theta : K} (hrot : rotaryDim ≤ d)
include hrot

theorem keepsHeads_ropeHeads (n : ℕ) :
    KeepsHeads n d rotaryDim (ropeHeads laws rotaryDim theta n d) where
  norm pos x i hx hi := by
    rw [nthRow_ropeHeads pos hx hi, headDot_ropeHead_self hrot pos (length_nthRow hx hi)]
  rest pos x i e hx hi he := by
    rw [nthRow_ropeHeads pos hx hi, getElem?_ropeHead hrot pos (length_nthRow hx hi) he]

theorem ropeHeads_ropeHeads {n : ℕ} (a b : ℕ) {x : List K} (hx : n * d ≤ x.length) :
    ropeHeads laws rotaryDim theta n d b (ropeHeads laws rotaryDim theta n d a x) =
      ropeHeads laws rotaryDim theta n d (a + b) x := by
  unfold ropeHeads
  rw [rewriteRows_rewriteRows length_ropeHead_of _ hx, rewriteRows, rewriteRows]
  congr 1
  refine List.flatMap_congr ?_
  intro h hh
  rw [ropeHead_ropeHead hrot a b (length_nthRow hx (List.mem_range.1 hh))]

omit hrot in
theorem ropeHeads_one {x : List K} (hx : x.length = d) (pos : ℕ) :
    ropeHeads laws rotaryDim theta 1 d pos x = ropeHead laws rotaryDim theta pos x := by
  simp [ropeHeads, rewriteRows, nthRow, ← hx]

end Heads

/-- **`cpu_rope` encodes relative position**: it turns every pair of every head by the angle of the
pair at the position. -/
theorem cpuRope_relativePosition (laws : SinCosLaws K) {d rotaryDim : ℕ} (hrot : rotaryDim ≤ d)
    (nq nkv : ℕ) (theta : K) : RelativePosition nq nkv d rotaryDim theta
      (ropeHeads laws rotaryDim theta nq d) (ropeHeads laws rotaryDim theta nkv d) := by
  refine ⟨fun pos q k hq hk => cpuRope_eq laws hrot pos hq hk, ?_, keepsHeads_ropeHeads hrot nq,
    keepsHeads_ropeHeads hrot nkv, ?_, ?_, ?_⟩
  · intro p t q k i j hpt hq hk hi hj
    rw [nthRow_ropeHeads p hq hi, nthRow_ropeHeads t hk hj, nthRow_ropeHeads (p - t) hq hi,
      headDot_ropeHead hrot hpt (length_nthRow hq hi) (length_nthRow hk hj)]
  · intro a b q k hq hk
    rw [cpuRope_eq laws hrot a hq hk, Option.bind_some,
      cpuRope_eq laws hrot b (hq.trans (length_ropeHeads a hq).ge)
        (hk.trans (length_ropeHeads a hk).ge),
      cpuRope_eq laws hrot (a + b) hq hk, ropeHeads_ropeHeads hrot a b hq,
      ropeHeads_ropeHeads hrot a b hk]
  · intro pos q i hq hi
    have hrow := length_nthRow hq hi
    rw [cpuRope_eq laws hrot pos (by rw [hrow, Nat.one_mul]) (by simp),
      ropeHeads_one hrow, nthRow_ropeHeads pos hq hi]
    simp [ropeHeads, rewriteRows]
  · intro pos k j hk hj
    have hrow := length_nthRow hk hj
    rw [cpuRope_eq laws hrot pos (by simp) (by rw [hrow, Nat.one_mul]),
      ropeHeads_one hrow, nthRow_ropeHeads pos hk hj]
    simp [ropeHeads, rewriteRows]

/-- The functions of the real numbers. -/
@[reducible] noncomputable def realElementary : Elementary ℝ where
  sqrt := Real.sqrt
  tanh := Real.tanh
  exp := Real.exp
  sin := Real.sin
  cos := Real.cos
  powf := fun a b => a ^ b

theorem sinCosLaws_real : @SinCosLaws ℝ _ realElementary :=
  @SinCosLaws.mk ℝ _ realElementary Real.sin_add Real.cos_add fun a => by
    have h := Real.sin_sq_add_cos_sq a
    rwa [sq, sq] at h

/-- Two query heads and one key head of six elements, four of them rotated. -/
theorem cpuRope_relativePosition_real :
    @RelativePosition ℝ _ realElementary 2 1 6 4 10000
      (@ropeHeads ℝ _ realElementary sinCosLaws_real 4 10000 2 6)
      (@ropeHeads ℝ _ realElementary sinCosLaws_real 4 10000 1 6) :=
  @cpuRope_relativePosition ℝ _ realElementary sinCosLaws_real 6 4 (by decide) 2 1 10000

end Gemma4

end VllmVulkan
