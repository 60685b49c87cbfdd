import Mathlib
import HighSpeed.Lib.Run

/-!
`ThreadSafeMemoryPool` and `GlobalPoolManager` of `alloc/MemoryPool.hpp`, as one thread sees
them.
-/

namespace HighSpeed

section
/-- `alignof(std::max_align_t)` on x86-64. -/
@[local simp]
def maxAlign : Nat := 16
end

structure ThreadSafeMemoryPool where
  blockSize : Nat
  blocksPerChunk : Nat
  localCacheLimit : Nat
  globalFreeList : List Nat
  chunks : List Nat

/-- What a pool call reads besides the pool: the calling thread's `localCache()` vector and the
next address `::operator new` hands out. -/
structure PoolContext where
  localCache : List Nat
  heapTop : Nat

namespace ThreadSafeMemoryPool

section
@[local simp]
def alignBlockSize (s : Nat) : Nat := (s + maxAlign - 1) / maxAlign * maxAlign

@[local simp]
def create (blockSize : Nat) (blocksPerChunk : Nat := 1024) (localCacheLimit : Nat := 64) :
    ThreadSafeMemoryPool :=
  ⟨alignBlockSize blockSize, blocksPerChunk, localCacheLimit, [], []⟩

/-- One chunk from `::operator new`, recorded in `chunks_`, and its blocks pushed on the local
vector in address order. -/
@[local simp]
def allocateChunkToLocal (pool : ThreadSafeMemoryPool) (context : PoolContext) :
    ThreadSafeMemoryPool × PoolContext :=
  let chunkBytes := pool.blockSize * pool.blocksPerChunk
  let chunk := context.heapTop
  ({ pool with chunks := chunk :: pool.chunks },
    { localCache := (List.range pool.blocksPerChunk).foldl
        (fun cache i => (chunk + i * pool.blockSize) :: cache) context.localCache
      heapTop := context.heapTop + chunkBytes })
end

def moveBack : Nat → List Nat → List Nat → List Nat × List Nat
  | 0, source, target => (source, target)
  | count + 1, block :: source, target => moveBack count source (block :: target)
  | _ + 1, [], target => ([], target)

section
@[local simp]
def refillLocalFromGlobal (pool : ThreadSafeMemoryPool) (cache : List Nat) :
    ThreadSafeMemoryPool × List Nat :=
  let toMove := min pool.localCacheLimit pool.globalFreeList.length
  let moved := moveBack toMove pool.globalFreeList cache
  ({ pool with globalFreeList := moved.1 }, moved.2)
end

def flushLoop (keep : Nat) : List Nat → List Nat → List Nat × List Nat
  | [], global => ([], global)
  | block :: cache, global =>
      if cache.length + 1 > keep then flushLoop keep cache (block :: global)
      else (block :: cache, global)

def flushLocalToGlobal (pool : ThreadSafeMemoryPool) (cache : List Nat) :
    ThreadSafeMemoryPool × List Nat :=
  let flushed := flushLoop pool.localCacheLimit cache pool.globalFreeList
  ({ pool with globalFreeList := flushed.2 }, flushed.1)

section
@[local simp]
def popBack : List Nat → Option (Nat × List Nat)
  | [] => none
  | block :: cache => some (block, cache)

@[local simp]
def allocate (pool : ThreadSafeMemoryPool) (context : PoolContext) :
    Option (Nat × ThreadSafeMemoryPool × PoolContext) :=
  match popBack context.localCache with
  | some (block, cache) => some (block, pool, { context with localCache := cache })
  | none =>
      let refilled := pool.refillLocalFromGlobal context.localCache
      match popBack refilled.2 with
      | some (block, cache) => some (block, refilled.1, { context with localCache := cache })
      | none =>
          let carved := refilled.1.allocateChunkToLocal { context with localCache := refilled.2 }
          (popBack carved.2.localCache).map fun (block, cache) =>
            (block, carved.1, { carved.2 with localCache := cache })

@[local simp]
def deallocate (pool : ThreadSafeMemoryPool) (context : PoolContext) (p : Nat) :
    ThreadSafeMemoryPool × PoolContext :=
  if p = 0 then (pool, context)
  else
    let cache := p :: context.localCache
    if cache.length > pool.localCacheLimit * 2 then
      let flushed := pool.flushLocalToGlobal cache
      (flushed.1, { context with localCache := flushed.2 })
    else (pool, { context with localCache := cache })
end

theorem foldl_pushBlocks (chunk blockSize count : Nat) (cache : List Nat) :
    (List.range count).foldl (fun cache i => (chunk + i * blockSize) :: cache) cache =
      ((List.range count).map fun i => chunk + i * blockSize).reverse ++ cache := by
  induction count with
  | zero => rfl
  | succ count ih =>
      rw [List.range_succ, List.foldl_append, ih, List.map_append, List.reverse_append]
      rfl

theorem allocate_cached (pool : ThreadSafeMemoryPool) (context : PoolContext) {block : Nat}
    {rest : List Nat} (cached : context.localCache = block :: rest) :
    pool.allocate context = some (block, pool, { context with localCache := rest }) := by
  simp only [allocate, cached, popBack]

theorem allocate_fresh (pool : ThreadSafeMemoryPool) (context : PoolContext) {count : Nat}
    (noFree : pool.globalFreeList = []) (emptyCache : context.localCache = [])
    (blocks : pool.blocksPerChunk = count + 1) :
    pool.allocate context = some (context.heapTop + count * pool.blockSize,
      { pool with chunks := context.heapTop :: pool.chunks },
      ⟨((List.range count).map fun i => context.heapTop + i * pool.blockSize).reverse,
        context.heapTop + pool.blockSize * pool.blocksPerChunk⟩) := by
  have moved : moveBack (min pool.localCacheLimit pool.globalFreeList.length) pool.globalFreeList [] =
      (pool.globalFreeList, []) := by
    rw [noFree, List.length_nil, Nat.min_zero]
    rfl
  have refilled : pool.refillLocalFromGlobal [] = (pool, []) := by
    simp only [refillLocalFromGlobal, moved]
  simp only [allocate, emptyCache, popBack, refilled, allocateChunkToLocal, foldl_pushBlocks,
    List.append_nil]
  rw [blocks, List.range_succ, List.map_append, List.reverse_append]
  rfl

end ThreadSafeMemoryPool

/-! ## The size classes of `gMemoryPool` -/

section
@[local simp]
def align : Nat := 8

@[local simp]
def maxPoolSize : Nat := 4096
end

def numClasses : Nat := maxPoolSize / align

def alignUp (n : Nat) : Nat := (n + align - 1) % 2 ^ 64 / align * align

section
@[local simp]
def sizeToClass (n : Nat) : Int :=
  let n := alignUp n
  if n > maxPoolSize then -1 else ((n / align : Nat) : Int) - 1
end

theorem sizeToClass_eq {n : Nat} (fits : n < 2 ^ 64) :
    sizeToClass n =
      if n = 0 ∨ maxPoolSize < n then -1 else (((n + align - 1) / align - 1 : Nat) : Int) := by
  have rounded : alignUp n = if n + 7 < 2 ^ 64 then (n + 7) / 8 * 8 else 0 := by
    unfold alignUp align
    split <;> omega
  unfold sizeToClass
  dsimp only
  rw [rounded]
  split
  · -- no wrap: the class of the rounded size
    split <;> split <;> simp only [maxPoolSize, align] at * <;> omega
  · -- the sum wraps to at most 6, which rounds down to 0
    have large : n = 0 ∨ maxPoolSize < n := by unfold maxPoolSize; omega
    rw [if_pos large]
    decide

structure GlobalPoolManager where
  pools : Nat → ThreadSafeMemoryPool

namespace GlobalPoolManager

section
@[local simp]
def create : GlobalPoolManager :=
  ⟨fun i => ThreadSafeMemoryPool.create ((i + 1) * align) 1024 64⟩

@[local simp]
def allocate (manager : GlobalPoolManager) (context : PoolContext) (size : Nat) :
    Option (Nat × GlobalPoolManager × PoolContext) :=
  let cls := sizeToClass size
  if cls < 0 then
    some (context.heapTop, manager, { context with heapTop := context.heapTop + size })
  else
    ((manager.pools cls.toNat).allocate context).map fun (p, pool, context) =>
      (p, ⟨Function.update manager.pools cls.toNat pool⟩, context)

@[local simp]
def deallocate (manager : GlobalPoolManager) (context : PoolContext) (p size : Nat) :
    GlobalPoolManager × PoolContext :=
  let cls := sizeToClass size
  if cls < 0 then (manager, context)
  else
    let released := (manager.pools cls.toNat).deallocate context p
    (⟨Function.update manager.pools cls.toNat released.1⟩, released.2)
end

end GlobalPoolManager

theorem sizeToClass_in_bounds (n : Nat) (fits : n < 2 ^ 64) :
    (sizeToClass n = -1 ↔ n = 0 ∨ maxPoolSize < n) ∧
      (sizeToClass n ≠ -1 →
        0 ≤ sizeToClass n ∧ sizeToClass n < numClasses ∧
          n ≤ (sizeToClass n + 1) * align ∧ (sizeToClass n + 1) * align < n + align ∧
          n ≤ (GlobalPoolManager.create.pools (sizeToClass n).toNat).blockSize) := by
  rw [sizeToClass_eq fits]
  by_cases outside : n = 0 ∨ maxPoolSize < n
  · rw [if_pos outside]
    simp [outside]
  · -- a pool of class `c` has blocks of `(c + 1) * ALIGN` bytes rounded up to `max_align_t`
    have blocks : ∀ c, (c + 1) * align ≤ (GlobalPoolManager.create.pools c).blockSize := by
      intro c
      simp only [GlobalPoolManager.create, ThreadSafeMemoryPool.create,
        ThreadSafeMemoryPool.alignBlockSize, maxAlign]
      omega
    have served := blocks ((n + align - 1) / align - 1)
    rw [if_neg outside, Int.toNat_natCast]
    simp only [maxPoolSize, align, numClasses, not_or] at outside served ⊢
    refine ⟨by simp [outside], fun _ => ⟨by omega, by omega, by omega, by omega, by omega⟩⟩

/-- `SIZE_MAX`, whose `align_up` wraps to 0, goes to `malloc`. -/
theorem sizeToClass_in_bounds_sizeMax :
    2 ^ 64 - 1 < 2 ^ 64 ∧
      (sizeToClass (2 ^ 64 - 1) = -1 ↔ 2 ^ 64 - 1 = 0 ∨ maxPoolSize < 2 ^ 64 - 1) ∧
      (sizeToClass (2 ^ 64 - 1) ≠ -1 →
        0 ≤ sizeToClass (2 ^ 64 - 1) ∧ sizeToClass (2 ^ 64 - 1) < numClasses ∧
          2 ^ 64 - 1 ≤ (sizeToClass (2 ^ 64 - 1) + 1) * align ∧
          (sizeToClass (2 ^ 64 - 1) + 1) * align < 2 ^ 64 - 1 + align ∧
          2 ^ 64 - 1 ≤
            (GlobalPoolManager.create.pools (sizeToClass (2 ^ 64 - 1)).toNat).blockSize) :=
  ⟨by decide, sizeToClass_in_bounds (2 ^ 64 - 1) (by decide)⟩

/-! ## One thread calling `gMemoryPool` -/

inductive PoolCall where
  | allocate (size : Nat)
  | deallocate (p size : Nat)

structure PoolClient where
  manager : GlobalPoolManager
  context : PoolContext
  outstanding : List (Nat × Nat)

def gMemoryPool (heapStart : Nat) : PoolClient := ⟨GlobalPoolManager.create, ⟨[], heapStart⟩, []⟩

section
@[local simp]
def PoolClient.step (state : PoolClient) : PoolCall → Option PoolClient
  | .allocate size =>
      (state.manager.allocate state.context size).map fun (p, manager, context) =>
        ⟨manager, context, (p, size) :: state.outstanding⟩
  | .deallocate p size =>
      if (p, size) ∈ state.outstanding then
        let released := state.manager.deallocate state.context p size
        some ⟨released.1, released.2, state.outstanding.erase (p, size)⟩
      else none
end

def RangesDisjoint (ranges : List (Nat × Nat)) : Prop :=
  ranges.Pairwise fun first second =>
    first.1 + first.2 ≤ second.1 ∨ second.1 + second.2 ≤ first.1

instance (ranges : List (Nat × Nat)) : Decidable (RangesDisjoint ranges) :=
  inferInstanceAs (Decidable (List.Pairwise _ ranges))

namespace GlobalPoolManager

theorem allocate_cached (manager : GlobalPoolManager) (context : PoolContext) {size block : Nat}
    {rest : List Nat} (pooled : 0 ≤ sizeToClass size) (cached : context.localCache = block :: rest) :
    manager.allocate context size = some (block, manager, { context with localCache := rest }) := by
  have notMalloc : ¬ sizeToClass size < 0 := by omega
  simp only [allocate, notMalloc, if_false, ThreadSafeMemoryPool.allocate_cached _ _ cached,
    Option.map_some, Function.update_eq_self]

end GlobalPoolManager

/-- `allocate(8)` carves a chunk of class 0 (blocks of 16 bytes) and leaves 1023 of its blocks on
the thread's cache; `allocate(32)`, of class 3, then takes the next one, so the 32 bytes it
returns cover the 8 returned first, and no chunk of class 3 exists. -/
theorem gMemoryPool_allocations_overlap (heapStart : Nat) :
    ∃ final, Run.exec PoolClient.step (gMemoryPool heapStart) [.allocate 8, .allocate 32] =
        some final ∧
      final.outstanding = [(heapStart + 1022 * 16, 32), (heapStart + 1023 * 16, 8)] ∧
      (final.manager.pools 3).chunks = [] ∧ ¬ RangesDisjoint final.outstanding := by
  let cache := ((List.range 1022).map fun i => heapStart + i * 16).reverse
  let afterFirst : PoolClient :=
    ⟨⟨Function.update GlobalPoolManager.create.pools 0
        { GlobalPoolManager.create.pools 0 with chunks := [heapStart] }⟩,
      ⟨(heapStart + 1022 * 16) :: cache, heapStart + 16 * 1024⟩, [(heapStart + 1023 * 16, 8)]⟩
  let afterSecond : PoolClient := { afterFirst with
    context := ⟨cache, heapStart + 16 * 1024⟩
    outstanding := [(heapStart + 1022 * 16, 32), (heapStart + 1023 * 16, 8)] }
  have firstCall : PoolClient.step (gMemoryPool heapStart) (.allocate 8) = some afterFirst := by
    have carved := ThreadSafeMemoryPool.allocate_fresh (GlobalPoolManager.create.pools 0)
      ⟨[], heapStart⟩ rfl rfl (show _ = 1023 + 1 from rfl)
    have classEight : sizeToClass 8 = 0 := by decide
    have notMalloc : ¬ (0 : Int) < 0 := by decide
    have sixteen : (GlobalPoolManager.create.pools 0).blockSize = 16 := rfl
    have perChunk : (GlobalPoolManager.create.pools 0).blocksPerChunk = 1024 := rfl
    have cached : ((List.range 1023).map fun i => heapStart + i * 16).reverse =
        (heapStart + 1022 * 16) :: cache := by
      rw [show 1023 = 1022 + 1 from rfl, List.range_succ, List.map_append, List.reverse_append]
      simp only [List.map_cons, List.map_nil, List.reverse_cons, List.reverse_nil,
        List.nil_append, List.cons_append, cache]
    simp only [PoolClient.step, gMemoryPool, GlobalPoolManager.allocate, classEight, notMalloc,
      if_false, Int.toNat_zero, carved, Option.map_some, sixteen, perChunk, cached]
    rfl
  have secondCall : PoolClient.step afterFirst (.allocate 32) = some afterSecond := by
    simp only [PoolClient.step, GlobalPoolManager.allocate_cached _ _
      (show 0 ≤ sizeToClass 32 by decide) (show afterFirst.context.localCache = _ from rfl),
      Option.map_some]
    rfl
  refine ⟨afterSecond, ?_, rfl, rfl, ?_⟩
  · rw [Run.exec_cons, firstCall, Option.bind_some, Run.exec_cons, secondCall, Option.bind_some,
      Run.exec_nil]
  · simp only [afterSecond, RangesDisjoint, List.pairwise_cons, List.mem_singleton, forall_eq,
      List.not_mem_nil, false_imp_iff, implies_true, List.Pairwise.nil, and_true]
    omega

end HighSpeed
