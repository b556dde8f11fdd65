import VllmVulkan.Gemma4.Branches
import VllmVulkan.Lib.Machine

/-!
# The buffer pool

The products take their temporary buffers from a pool, where a buffer keeps what an earlier product
left in it.

* `BufferPool`, with `get` and `put` : the pool;
* `BufferPool.Sorted` : every buffer lies in the bucket of its size;
* `gpuMatmulPooled`, `productStep` : a product with buffers from the pool;
* `productStep_spec` : it is the product with buffers of any contents;
* `gpuMatmulPooled_run` : **no product sees what earlier ones left behind**.
-/

namespace VllmVulkan

namespace Gemma4

open Machine

variable {K : Type}

/-- `POOL_MAX`. -/
def poolMax : ℕ := 256

/-- `BufferPool`: the idle buffers of each size, counted in elements. -/
structure BufferPool (K : Type) where
  buckets : ℕ → List (List K)

namespace BufferPool

/-- `BufferPool::new`. -/
def new : BufferPool K := ⟨fun _ => []⟩

/-- `BufferPool::get`; a new buffer contains `alloc`. -/
def get (pool : BufferPool K) (size : ℕ) (alloc : ℕ → K) : List K × BufferPool K :=
  match pool.buckets size with
  | buf :: bucket => (buf, ⟨Function.update pool.buckets size bucket⟩)
  | [] => ((List.range size).map alloc, pool)

/-- `BufferPool::put`; what does not fit is dropped. -/
def put (pool : BufferPool K) (buf : List K) : BufferPool K :=
  let bucket := pool.buckets buf.length
  if bucket.length < poolMax then ⟨Function.update pool.buckets buf.length (buf :: bucket)⟩
  else pool

/-- Every buffer lies in the bucket of its size. -/
def Sorted (pool : BufferPool K) : Prop := ∀ size, ∀ buf ∈ pool.buckets size, buf.length = size

theorem new_sorted : (new : BufferPool K).Sorted := fun _ _ h => nomatch h

variable {pool : BufferPool K} {size : ℕ}

theorem update_sorted (h : pool.Sorted) {bucket : List (List K)}
    (hbucket : ∀ buf ∈ bucket, buf.length = size) :
    Sorted ⟨Function.update pool.buckets size bucket⟩ := by
  intro size' buf hbuf
  dsimp only at hbuf
  by_cases hsize : size' = size
  · subst hsize
    rw [Function.update_self] at hbuf
    exact hbucket buf hbuf
  · rw [Function.update_of_ne hsize] at hbuf
    exact h size' buf hbuf

theorem get_sorted (h : pool.Sorted) (size : ℕ) (alloc : ℕ → K) :
    (pool.get size alloc).1.length = size ∧ (pool.get size alloc).2.Sorted := by
  unfold get
  split
  · rename_i buf bucket hbucket
    have hbufs : ∀ b ∈ buf :: bucket, b.length = size := fun b hb => h size b (hbucket ▸ hb)
    exact ⟨hbufs buf List.mem_cons_self,
      update_sorted h fun b hb => hbufs b (List.mem_cons_of_mem _ hb)⟩
  · exact ⟨by simp, h⟩

theorem put_sorted (h : pool.Sorted) (buf : List K) : (pool.put buf).Sorted := by
  unfold put
  dsimp only
  split
  · refine update_sorted h ?_
    intro b hb
    rcases List.mem_cons.1 hb with rfl | hb
    · rfl
    · exact h _ b hb
  · exact h

end BufferPool

open BufferPool

variable [Field K] [Elementary K]

/-- `gpu_matmul_or_cpu` on the device, with temporary buffers from the pool. -/
def gpuMatmulPooled (m : VulkanModel K) (alloc : Temp → ℕ → K) (w x : List K) (t n : ℕ) (pc : MvPc)
    (pool : BufferPool K) : Option (List K × BufferPool K) := do
  let (inp, pool) := pool.get x.length (alloc .inp)
  let (out, pool) := pool.get (t * n) (alloc .out)
  let mem : Mem Temp K := fun
    | .inp => inp
    | .out => out
  let mem ← writeBuf mem .inp x
  let mem ← submitBatch m.device.orderTemp
    [.dispatch (.mulMatVec .f16 (.weight w) (.slot .inp) .out pc)] mem
  let result ← readF32Buf mem .out (t * n)
  pure (result, (pool.put (mem .inp)).put (mem .out))

/-- A product whose weight and input have its sizes, and what new buffers contain while it runs. -/
structure Product (K : Type) where
  w : List K
  x : List K
  k : ℕ
  n : ℕ
  alloc : Temp → ℕ → K
  lengthW : w.length = n * k
  lengthX : x.length = k

/-- One product on the pool. -/
def productStep (m : VulkanModel K) (pool : BufferPool K) (p : Product K) :
    BufferPool K × Option (List K) :=
  match gpuMatmulPooled m p.alloc p.w p.x 1 p.n (mvPc p.k p.n 1) pool with
  | some (result, pool) => (pool, some result)
  | none => (pool, none)

/-- A product with buffers from the pool is the product with buffers of any contents. -/
theorem productStep_spec {m : VulkanModel K} {pool : BufferPool K} {p : Product K}
    (hpool : pool.Sorted) :
    (productStep m pool p).1.Sorted ∧ ∀ contents,
      (productStep m pool p).2 = gpuMatmul m contents p.w p.x 1 p.n (mvPc p.k p.n 1) := by
  obtain ⟨hinp, hpool₁⟩ := get_sorted hpool p.x.length (p.alloc .inp)
  obtain ⟨hout, hpool₂⟩ := get_sorted hpool₁ (1 * p.n) (p.alloc .out)
  let mem : Mem Temp K := fun
    | .inp => (pool.get p.x.length (p.alloc .inp)).1
    | .out => ((pool.get p.x.length (p.alloc .inp)).2.get (1 * p.n) (p.alloc .out)).1
  obtain ⟨mem₁, mem₂, hwrite, hsubmit, hread, -⟩ :=
    @temps_spec _ _ _ m mem _ _ _ _ hinp hout p.lengthW p.lengthX
  have hrun : gpuMatmulPooled m p.alloc p.w p.x 1 p.n (mvPc p.k p.n 1) pool =
      some (matvec p.w p.x p.k p.n, ((((pool.get p.x.length (p.alloc .inp)).2.get (1 * p.n)
        (p.alloc .out)).2.put (mem₂ .inp)).put (mem₂ .out))) := by
    calc _ = (writeBuf mem .inp p.x).bind fun mem => (submitBatch m.device.orderTemp
          [.dispatch (.mulMatVec .f16 (.weight p.w) (.slot .inp) .out (mvPc p.k p.n 1))] mem).bind
          fun mem => (readF32Buf mem .out (1 * p.n)).bind fun result => some (result,
            (((pool.get p.x.length (p.alloc .inp)).2.get (1 * p.n) (p.alloc .out)).2.put
              (mem .inp)).put (mem .out)) := rfl
      _ = _ := by rw [hwrite, Option.bind_some, hsubmit, Option.bind_some, hread, Option.bind_some]
  unfold productStep
  rw [hrun]
  exact ⟨put_sorted (put_sorted hpool₂ _) _,
    fun contents => (gpuMatmul_eq m contents p.lengthW p.lengthX).symm⟩

/-- **No product sees what earlier ones left behind**: whatever products have run on the pool, the
next one is the product with buffers of any contents. -/
theorem gpuMatmulPooled_run (m : VulkanModel K) (products : List (Product K)) :
    ∀ τ ∈ transitions (productStep m) BufferPool.new products, ∀ contents, τ.output =
      gpuMatmul m contents τ.input.w τ.input.x 1 τ.input.n (mvPc τ.input.k τ.input.n 1) := by
  have hstep : ∀ (pool : BufferPool K) (p : Product K), pool.Sorted → True →
      (productStep m pool p).1.Sorted := fun pool p hpool _ => (productStep_spec hpool).1
  exact forall_transitions hstep
    (fun pool p hpool _ contents => (productStep_spec hpool).2 contents) new_sorted
    fun _ _ => trivial

end Gemma4

end VllmVulkan
