import HighSpeed.Alloc.MemoryPool

/-!
One `ThreadSafeMemoryPool` of `alloc/MemoryPool.hpp` while it is the only pool that uses the
thread's `localCache()` vector. The blocks the thread can reach through it, on the vector, on the
free list or in the caller's hands, are distinct blocks of its chunks, and `allocate` and
`deallocate` keep that (`Sound`). A client of `gMemoryPool` whose sizes all fall in one class
then holds disjoint allocations: the overlap of `gMemoryPool_allocations_overlap` needs a
second class.
-/

namespace HighSpeed

namespace ThreadSafeMemoryPool

def IsBlock (pool : ThreadSafeMemoryPool) (block : Nat) : Prop :=
  ∃ chunk ∈ pool.chunks, ∃ i < pool.blocksPerChunk, block = chunk + i * pool.blockSize

section
@[local simp]
def held (pool : ThreadSafeMemoryPool) (context : PoolContext) (given : List Nat) : List Nat :=
  context.localCache ++ pool.globalFreeList ++ given
end

structure Sound (pool : ThreadSafeMemoryPool) (context : PoolContext) (given : List Nat) :
    Prop where
  distinct : (held pool context given).Nodup
  carved : ∀ block ∈ held pool context given, pool.IsBlock block
  below : ∀ chunk ∈ pool.chunks,
    chunk + pool.blockSize * pool.blocksPerChunk ≤ context.heapTop
  apart : ∀ first ∈ pool.chunks, ∀ second ∈ pool.chunks, first ≠ second →
    first + pool.blockSize * pool.blocksPerChunk ≤ second ∨
      second + pool.blockSize * pool.blocksPerChunk ≤ first

theorem moveBack_perm : ∀ (count : Nat) (source target : List Nat),
    ((moveBack count source target).1 ++ (moveBack count source target).2).Perm
      (source ++ target)
  | 0, source, target => List.Perm.refl _
  | _ + 1, [], target => List.Perm.refl _
  | count + 1, block :: source, target => by
      rw [moveBack]
      exact (moveBack_perm count source (block :: target)).trans List.perm_middle

theorem flushLoop_perm (keep : Nat) : ∀ (cache global : List Nat),
    ((flushLoop keep cache global).1 ++ (flushLoop keep cache global).2).Perm (cache ++ global)
  | [], global => List.Perm.refl _
  | block :: cache, global => by
      rw [flushLoop]
      split
      · exact (flushLoop_perm keep cache (block :: global)).trans List.perm_middle
      · exact List.Perm.refl _

theorem Sound.of_subperm {pool pool' : ThreadSafeMemoryPool} {context context' : PoolContext}
    {given given' : List Nat} (sound : Sound pool context given)
    (within : (held pool' context' given').Subperm (held pool context given))
    (chunks : pool'.chunks = pool.chunks) (blockSize : pool'.blockSize = pool.blockSize)
    (perChunk : pool'.blocksPerChunk = pool.blocksPerChunk)
    (heapTop : context'.heapTop = context.heapTop) : Sound pool' context' given' where
  distinct := by
    obtain ⟨kept, reordered, sublist⟩ := within
    exact reordered.nodup_iff.mp (sublist.nodup sound.distinct)
  carved block member := by
    unfold IsBlock
    rw [chunks, blockSize, perChunk]
    exact sound.carved block (within.subset member)
  below := by
    rw [chunks, blockSize, perChunk, heapTop]
    exact sound.below
  apart := by
    rw [chunks, blockSize, perChunk]
    exact sound.apart

section Operations

variable {pool : ThreadSafeMemoryPool} {context : PoolContext} {given : List Nat}

theorem Sound.pop {block : Nat} {cache : List Nat} (sound : Sound pool context given)
    (top : context.localCache = block :: cache) :
    Sound pool { context with localCache := cache } (block :: given) := by
  refine sound.of_subperm (List.Perm.subperm ?_) rfl rfl rfl rfl
  simp only [held, top, List.cons_append]
  exact List.perm_middle

theorem Sound.refill (sound : Sound pool context given) :
    Sound (pool.refillLocalFromGlobal context.localCache).1
      { context with localCache := (pool.refillLocalFromGlobal context.localCache).2 } given := by
  refine sound.of_subperm (List.Perm.subperm ?_) rfl rfl rfl rfl
  have moved := moveBack_perm (min pool.localCacheLimit pool.globalFreeList.length)
    pool.globalFreeList context.localCache
  simp only [held, refillLocalFromGlobal]
  exact List.Perm.append_right given (List.perm_append_comm.trans (moved.trans List.perm_append_comm))

theorem offset_add_le (blockSize : Nat) {i j : Nat} (before : i < j) :
    i * blockSize + blockSize ≤ j * blockSize := by
  rw [← Nat.succ_mul]
  exact Nat.mul_le_mul_right blockSize before

theorem chunk_end (blockSize : Nat) {i count : Nat} (inside : i < count) :
    i * blockSize + blockSize ≤ blockSize * count := by
  rw [Nat.mul_comm blockSize]
  exact offset_add_le blockSize inside

theorem Sound.block_end (sound : Sound pool context given) {block : Nat}
    (carved : pool.IsBlock block) : block + pool.blockSize ≤ context.heapTop := by
  obtain ⟨chunk, member, i, inside, rfl⟩ := carved
  have ends := chunk_end pool.blockSize inside
  have below := sound.below chunk member
  omega

section
@[local simp]
def chunkBlocks (pool : ThreadSafeMemoryPool) (chunk : Nat) : List Nat :=
  (List.range pool.blocksPerChunk).map fun i => chunk + i * pool.blockSize
end

theorem mem_chunkBlocks {chunk block : Nat} :
    block ∈ pool.chunkBlocks chunk ↔
      ∃ i < pool.blocksPerChunk, block = chunk + i * pool.blockSize := by
  simp only [chunkBlocks, List.mem_map, List.mem_range]
  constructor
  · rintro ⟨i, inside, rfl⟩
    exact ⟨i, inside, rfl⟩
  · rintro ⟨i, inside, rfl⟩
    exact ⟨i, inside, rfl⟩

theorem chunkBlocks_nodup (chunk : Nat) (positive : 0 < pool.blockSize) :
    (pool.chunkBlocks chunk).Nodup :=
  List.nodup_range.map fun i j (same : chunk + i * pool.blockSize = chunk + j * pool.blockSize) =>
    Nat.eq_of_mul_eq_mul_right positive (by omega)

@[simp] theorem allocateChunkToLocal_chunks :
    (pool.allocateChunkToLocal context).1.chunks = context.heapTop :: pool.chunks := rfl

@[simp] theorem allocateChunkToLocal_blockSize :
    (pool.allocateChunkToLocal context).1.blockSize = pool.blockSize := rfl

@[simp] theorem allocateChunkToLocal_blocksPerChunk :
    (pool.allocateChunkToLocal context).1.blocksPerChunk = pool.blocksPerChunk := rfl

@[simp] theorem allocateChunkToLocal_heapTop :
    (pool.allocateChunkToLocal context).2.heapTop =
      context.heapTop + pool.blockSize * pool.blocksPerChunk := rfl

theorem allocateChunkToLocal_held :
    held (pool.allocateChunkToLocal context).1 (pool.allocateChunkToLocal context).2 given =
      (pool.chunkBlocks context.heapTop).reverse ++ held pool context given := by
  simp only [held, allocateChunkToLocal, foldl_pushBlocks, chunkBlocks, List.append_assoc]

theorem Sound.carve (sound : Sound pool context given) (positive : 0 < pool.blockSize) :
    Sound (pool.allocateChunkToLocal context).1 (pool.allocateChunkToLocal context).2 given := by
  have fresh : ∀ block ∈ pool.chunkBlocks context.heapTop, context.heapTop ≤ block := by
    intro block member
    obtain ⟨i, _, rfl⟩ := mem_chunkBlocks.mp member
    omega
  constructor
  · rw [allocateChunkToLocal_held, List.nodup_append]
    refine ⟨List.nodup_reverse.mpr (chunkBlocks_nodup context.heapTop positive), sound.distinct, ?_⟩
    intro new newMember old oldMember
    have above := fresh new (List.mem_reverse.mp newMember)
    have below := sound.block_end (sound.carved old oldMember)
    omega
  · intro block member
    rw [allocateChunkToLocal_held, List.mem_append, List.mem_reverse] at member
    rcases member with new | old
    · obtain ⟨i, inside, rfl⟩ := mem_chunkBlocks.mp new
      exact ⟨context.heapTop, List.mem_cons_self, i, inside, rfl⟩
    · obtain ⟨chunk, member, i, inside, rfl⟩ := sound.carved block old
      exact ⟨chunk, List.mem_cons_of_mem _ member, i, inside, rfl⟩
  · intro chunk member
    simp only [allocateChunkToLocal_chunks, allocateChunkToLocal_blockSize,
      allocateChunkToLocal_blocksPerChunk, allocateChunkToLocal_heapTop] at member ⊢
    rcases List.mem_cons.mp member with top | old
    · omega
    · have below := sound.below chunk old
      omega
  · intro first firstMember second secondMember different
    simp only [allocateChunkToLocal_chunks, allocateChunkToLocal_blockSize,
      allocateChunkToLocal_blocksPerChunk] at firstMember secondMember ⊢
    rcases List.mem_cons.mp firstMember with firstTop | firstOld <;>
      rcases List.mem_cons.mp secondMember with secondTop | secondOld
    · exact absurd (firstTop.trans secondTop.symm) different
    · have below := sound.below second secondOld
      omega
    · have below := sound.below first firstOld
      omega
    · exact sound.apart first firstOld second secondOld different

theorem popBack_eq_some {cache rest : List Nat} {block : Nat}
    (popped : popBack cache = some (block, rest)) : cache = block :: rest := by
  cases cache with
  | nil => cases popped
  | cons top below =>
      simp only [popBack, Option.some.injEq, Prod.mk.injEq] at popped
      rw [popped.1, popped.2]

theorem Sound.allocate (sound : Sound pool context given) (positive : 0 < pool.blockSize)
    {block : Nat} {pool' : ThreadSafeMemoryPool} {context' : PoolContext}
    (allocated : pool.allocate context = some (block, pool', context')) :
    Sound pool' context' (block :: given) ∧ pool'.blockSize = pool.blockSize := by
  unfold ThreadSafeMemoryPool.allocate at allocated
  split at allocated
  · -- the cache had a block
    rename_i top cache popped
    cases allocated
    exact ⟨sound.pop (popBack_eq_some popped), rfl⟩
  · dsimp only at allocated
    split at allocated
    · -- the free list refilled the cache
      rename_i top cache popped
      cases allocated
      exact ⟨sound.refill.pop (popBack_eq_some popped), rfl⟩
    · -- a new chunk filled the cache
      rename_i noneRefilled
      obtain ⟨⟨top, cache⟩, popped, handed⟩ := Option.map_eq_some_iff.mp allocated
      cases handed
      exact ⟨(sound.refill.carve positive).pop (popBack_eq_some popped), rfl⟩

theorem Sound.push {block : Nat} (sound : Sound pool context (block :: given)) :
    Sound pool { context with localCache := block :: context.localCache } given := by
  refine sound.of_subperm (List.Perm.subperm ?_) rfl rfl rfl rfl
  simp only [held, List.cons_append]
  exact List.perm_middle.symm

theorem Sound.flush (sound : Sound pool context given) :
    Sound (pool.flushLocalToGlobal context.localCache).1
      { context with localCache := (pool.flushLocalToGlobal context.localCache).2 } given := by
  refine sound.of_subperm (List.Perm.subperm ?_) rfl rfl rfl rfl
  simp only [held, flushLocalToGlobal]
  exact List.Perm.append_right given
    (flushLoop_perm pool.localCacheLimit context.localCache pool.globalFreeList)

theorem Sound.forget {block : Nat} (sound : Sound pool context (block :: given)) :
    Sound pool context given :=
  sound.of_subperm ((List.sublist_cons_self block given).append_left _).subperm rfl rfl rfl rfl

theorem Sound.deallocate {block : Nat} (sound : Sound pool context (block :: given)) :
    Sound (pool.deallocate context block).1 (pool.deallocate context block).2 given ∧
      (pool.deallocate context block).1.blockSize = pool.blockSize := by
  unfold ThreadSafeMemoryPool.deallocate
  split
  · exact ⟨sound.forget, rfl⟩
  · dsimp only
    split
    · -- the cache overflowed: the blocks above the limit go to the free list
      exact ⟨sound.push.flush, rfl⟩
    · exact ⟨sound.push, rfl⟩

theorem Sound.blocks_apart (sound : Sound pool context given) {first second : Nat}
    (firstBlock : pool.IsBlock first) (secondBlock : pool.IsBlock second)
    (different : first ≠ second) :
    first + pool.blockSize ≤ second ∨ second + pool.blockSize ≤ first := by
  obtain ⟨chunk, member, i, inside, rfl⟩ := firstBlock
  obtain ⟨chunk', member', j, inside', rfl⟩ := secondBlock
  by_cases sameChunk : chunk = chunk'
  · subst sameChunk
    have offsets : i ≠ j := fun same => different (by rw [same])
    rcases Nat.lt_or_gt_of_ne offsets with before | after
    · have ends := offset_add_le pool.blockSize before
      omega
    · have ends := offset_add_le pool.blockSize after
      omega
  · have ends := chunk_end pool.blockSize inside
    have ends' := chunk_end pool.blockSize inside'
    have chunksApart := sound.apart chunk member chunk' member' sameChunk
    omega

theorem Sound.of_perm {given' : List Nat} (sound : Sound pool context given)
    (reordered : given'.Perm given) : Sound pool context given' :=
  sound.of_subperm (reordered.append_left _).subperm rfl rfl rfl rfl

theorem Sound.given_nodup (sound : Sound pool context given) : given.Nodup :=
  sound.distinct.of_append_right

theorem Sound.given_isBlock (sound : Sound pool context given) {block : Nat}
    (member : block ∈ given) : pool.IsBlock block :=
  sound.carved block (List.mem_append_right _ member)

end Operations

end ThreadSafeMemoryPool

/-! ## A client that uses one size class -/

section
@[local simp]
def PoolCall.size : PoolCall → Nat
  | .allocate size => size
  | .deallocate _ size => size
end

namespace GlobalPoolManager

variable {c : Nat} {size : Nat}

theorem allocate_of_class (manager : GlobalPoolManager) (context : PoolContext)
    (cls : sizeToClass size = c) :
    manager.allocate context size = ((manager.pools c).allocate context).map
      fun (p, pool, context) => (p, ⟨Function.update manager.pools c pool⟩, context) := by
  have notMalloc : ¬ (c : Int) < 0 := by omega
  simp only [allocate, cls, notMalloc, if_false, Int.toNat_natCast]

theorem deallocate_of_class (manager : GlobalPoolManager) (context : PoolContext) (p : Nat)
    (cls : sizeToClass size = c) :
    manager.deallocate context p size =
      (⟨Function.update manager.pools c ((manager.pools c).deallocate context p).1⟩,
        ((manager.pools c).deallocate context p).2) := by
  have notMalloc : ¬ (c : Int) < 0 := by omega
  simp only [deallocate, cls, notMalloc, if_false, Int.toNat_natCast]

theorem size_le_blockSize (fits : size < 2 ^ 64) (cls : sizeToClass size = c) :
    size ≤ (create.pools c).blockSize := by
  rw [sizeToClass_eq fits] at cls
  split at cls
  · omega
  · rename_i inside
    simp only [create, ThreadSafeMemoryPool.create, ThreadSafeMemoryPool.alignBlockSize, maxAlign,
      align, maxPoolSize, not_or] at cls inside ⊢
    omega

theorem blockSize_pos (c : Nat) : 0 < (create.pools c).blockSize := by
  simp only [create, ThreadSafeMemoryPool.create, ThreadSafeMemoryPool.alignBlockSize, maxAlign,
    align]
  omega

end GlobalPoolManager

namespace PoolClient

structure OneClassSound (c : Nat) (state : PoolClient) : Prop where
  sound : (state.manager.pools c).Sound state.context (state.outstanding.map Prod.fst)
  blockSize : (state.manager.pools c).blockSize = (GlobalPoolManager.create.pools c).blockSize
  fits : ∀ entry ∈ state.outstanding, entry.2 ≤ (state.manager.pools c).blockSize

theorem oneClassSound_gMemoryPool (c heapStart : Nat) :
    OneClassSound c (gMemoryPool heapStart) where
  sound :=
    { distinct := List.nodup_nil
      carved := fun _ absent => absurd absent List.not_mem_nil
      below := fun _ absent => absurd absent List.not_mem_nil
      apart := fun _ absent => absurd absent List.not_mem_nil }
  blockSize := rfl
  fits _ absent := absurd absent List.not_mem_nil

section Step

variable {c : Nat} {state next : PoolClient}

theorem OneClassSound.allocate {size : Nat} (holds : OneClassSound c state)
    (fits : size < 2 ^ 64) (cls : sizeToClass size = c)
    (stepped : state.step (.allocate size) = some next) : OneClassSound c next := by
  simp only [PoolClient.step, GlobalPoolManager.allocate_of_class _ _ cls, Option.map_map]
    at stepped
  obtain ⟨⟨p, pool, context⟩, allocated, rfl⟩ := Option.map_eq_some_iff.mp stepped
  have positive : 0 < (state.manager.pools c).blockSize :=
    holds.blockSize ▸ GlobalPoolManager.blockSize_pos c
  obtain ⟨sound, sameSize⟩ := holds.sound.allocate positive allocated
  refine ⟨?_, ?_, ?_⟩
  · simpa only [Function.comp, Function.update_self, List.map_cons] using sound
  · simpa only [Function.comp, Function.update_self, sameSize] using holds.blockSize
  · -- the new allocation fits by its class, the others as before
    simp only [Function.comp, Function.update_self, List.mem_cons, sameSize]
    rintro entry (rfl | old)
    · exact holds.blockSize ▸ GlobalPoolManager.size_le_blockSize fits cls
    · exact holds.fits entry old

theorem OneClassSound.deallocate {p size : Nat} (holds : OneClassSound c state)
    (cls : sizeToClass size = c) (stepped : state.step (.deallocate p size) = some next) :
    OneClassSound c next := by
  simp only [PoolClient.step] at stepped
  split at stepped
  · rename_i member
    cases stepped
    rw [GlobalPoolManager.deallocate_of_class _ _ _ cls]
    have regiven : (state.outstanding.map Prod.fst).Perm
        (p :: (state.outstanding.erase (p, size)).map Prod.fst) :=
      (List.perm_cons_erase member).map Prod.fst
    obtain ⟨sound, sameSize⟩ := (holds.sound.of_perm regiven.symm).deallocate
    refine ⟨?_, ?_, ?_⟩
    · simpa only [Function.update_self] using sound
    · simpa only [Function.update_self, sameSize] using holds.blockSize
    · simp only [Function.update_self, sameSize]
      exact fun entry kept => holds.fits entry (List.mem_of_mem_erase kept)
  · cases stepped

theorem OneClassSound.step {call : PoolCall} (holds : OneClassSound c state)
    (oneClass : call.size < 2 ^ 64 ∧ sizeToClass call.size = c)
    (stepped : state.step call = some next) : OneClassSound c next := by
  cases call with
  | allocate size => exact holds.allocate oneClass.1 oneClass.2 stepped
  | deallocate p size => exact holds.deallocate oneClass.2 stepped

theorem OneClassSound.disjoint (holds : OneClassSound c state) :
    RangesDisjoint state.outstanding := by
  have distinct : state.outstanding.Pairwise fun first second => first.1 ≠ second.1 :=
    List.pairwise_map.mp holds.sound.given_nodup
  refine distinct.imp_of_mem fun {first second} firstMember secondMember different => ?_
  have apart := holds.sound.blocks_apart
    (holds.sound.given_isBlock (List.mem_map_of_mem firstMember))
    (holds.sound.given_isBlock (List.mem_map_of_mem secondMember)) different
  have firstFits := holds.fits first firstMember
  have secondFits := holds.fits second secondMember
  omega

end Step

end PoolClient

/-- A thread that calls `gMemoryPool` with sizes of one class `c` only holds disjoint
allocations, each a block of pool `c` that its size fits in. -/
theorem gMemoryPool_oneClass_disjoint (c heapStart : Nat) (calls : List PoolCall)
    (final : PoolClient)
    (oneClass : ∀ call ∈ calls, call.size < 2 ^ 64 ∧ sizeToClass call.size = c)
    (ran : Run.exec PoolClient.step (gMemoryPool heapStart) calls = some final) :
    RangesDisjoint final.outstanding ∧ ∀ entry ∈ final.outstanding,
      (final.manager.pools c).IsBlock entry.1 ∧ entry.2 ≤ (final.manager.pools c).blockSize := by
  have holds : PoolClient.OneClassSound c final :=
    Run.exec_preserves PoolClient.step (PoolClient.OneClassSound c)
      (fun call => call.size < 2 ^ 64 ∧ sizeToClass call.size = c)
      (fun _ _ _ allowed holds stepped => holds.step allowed stepped)
      calls (gMemoryPool heapStart) final oneClass
      (PoolClient.oneClassSound_gMemoryPool c heapStart) ran
  refine ⟨holds.disjoint, fun entry member => ⟨?_, holds.fits entry member⟩⟩
  exact holds.sound.given_isBlock (List.mem_map_of_mem member)

set_option maxRecDepth 8000 in
/-- Two allocations of class 0, one given back and taken again. -/
theorem gMemoryPool_oneClass_disjoint_reuse :
    ∃ final, Run.exec PoolClient.step (gMemoryPool 4096)
        [.allocate 8, .allocate 5, .deallocate (4096 + 1023 * 16) 8, .allocate 1] = some final ∧
      RangesDisjoint final.outstanding ∧ ∀ entry ∈ final.outstanding,
        (final.manager.pools 0).IsBlock entry.1 ∧ entry.2 ≤ (final.manager.pools 0).blockSize := by
  obtain ⟨final, ran⟩ : ∃ final, Run.exec PoolClient.step (gMemoryPool 4096)
      [.allocate 8, .allocate 5, .deallocate (4096 + 1023 * 16) 8, .allocate 1] = some final :=
    ⟨_, rfl⟩
  exact ⟨final, ran, gMemoryPool_oneClass_disjoint 0 4096 _ final (by decide) ran⟩

end HighSpeed
