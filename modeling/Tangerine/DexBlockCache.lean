import Tangerine.DexCache

/-!
# The block cache of `dex.cache`

`blockCache` maps hashes to blocks and `finalizedBlockCache` positions to finalized
blocks. An insertion into a full map first deletes one entry, the one Go's randomised map
iteration yields first; the model leaves that choice to the caller (`deleteOne`'s `pick`).

Whatever those choices, every sequence of `addBlock`, `addFinalizedBlock` and `addBlocks`
calls from `newCache(size, db)` keeps the block cache's representation (`BlockInv`):
neither map holds more than `max(size, 1)` entries, every block sits under its own hash,
and every finalized block under its own position. So `blocks(hashes, includeDB)` hands
out, in the order asked, one block per hash it finds, with that hash, when the database
also keeps each block under its own hash, as `MemBackedDB` does after any run of its
calls (`block_cache_invariant`).
-/

namespace Dex

/-! ## Deleting and inserting -/

section Maps

variable {α β : Type} [DecidableEq α]

theorem length_kerase_of_mem {a : α} {l : List (Sigma fun _ : α => β)} (h : a ∈ l.keys) :
    (l.kerase a).length = l.length - 1 := by
  obtain ⟨b, l₁, l₂, -, rfl, hke⟩ := List.exists_of_kerase h
  rw [hke]
  simp

theorem length_deleteOne (m : AList fun _ : α => β) (pick : ℕ) :
    (Cache.deleteOne m pick).entries.length = m.entries.length - 1 := by
  unfold Cache.deleteOne
  split
  · rename_i k hk
    exact length_kerase_of_mem (List.getElem?_mem hk)
  · rename_i hk
    have hlen : m.keys.length = m.entries.length := List.length_map _ _
    have : m.keys.length = 0 := by
      by_contra h0
      rw [List.getElem?_eq_getElem (Nat.mod_lt _ (Nat.pos_of_ne_zero h0))] at hk
      cases hk
    omega

theorem lookup_deleteOne {m : AList fun _ : α => β} {pick : ℕ} {k : α} {b : β}
    (h : (Cache.deleteOne m pick).lookup k = some b) : m.lookup k = some b := by
  unfold Cache.deleteOne at h
  split at h
  · rename_i k' _
    by_cases hk : k = k'
    · subst hk; simp at h
    · rwa [AList.lookup_erase_ne hk] at h
  · exact h

/-- **An insertion into a bounded map keeps its bound**, and adds exactly the one entry:
a full map (`size ≤` its length) first loses one, whichever `pick` names. -/
theorem evict_insert (size : ℤ) (m : AList fun _ : α => β) (pick : ℕ) (k : α) (v : β)
    (hm : (m.entries.length : ℤ) ≤ max size 1) :
    let m' := (if size ≤ m.entries.length then Cache.deleteOne m pick else m).insert k v
    (m'.entries.length : ℤ) ≤ max size 1 ∧ m'.lookup k = some v ∧
      ∀ k' b, m'.lookup k' = some b → (k' = k ∧ b = v) ∨ m.lookup k' = some b := by
  have hlen (m' : AList fun _ : α => β) :
      (m'.insert k v).entries.length ≤ m'.entries.length + 1 := by
    rw [AList.insert_entries, List.length_cons]
    exact Nat.succ_le_succ (List.kerase_sublist _ _).length_le
  refine ⟨?_, AList.lookup_insert _, fun k' b h => ?_⟩
  · split_ifs with hs
    · have := hlen (Cache.deleteOne m pick)
      rw [length_deleteOne] at this
      omega
    · have := hlen m
      omega
  · by_cases hk : k' = k
    · subst hk
      rw [AList.lookup_insert, Option.some.injEq] at h
      exact .inl ⟨rfl, h.symm⟩
    · rw [AList.lookup_insert_ne hk] at h
      split_ifs at h
      · exact .inr (lookup_deleteOne h)
      · exact .inr h

end Maps

/-! ## The representation of the block cache -/

/-- A call on the block cache, with the choices of its size-limit loops. -/
inductive BlockCall
  /-- `addBlock(block)`. -/
  | addBlock (block : Block) (pick : ℕ)
  /-- `addFinalizedBlock(block)`. -/
  | addFinalizedBlock (block : Block) (pick pickFinalized : ℕ)
  /-- `addBlocks(blocks)`. -/
  | addBlocks (blocks : List (Block × ℕ × ℕ))

/-- One call on the block cache. -/
def Cache.blockStep (c : Cache) : BlockCall → Cache
  | .addBlock block pick => c.addBlock block pick
  | .addFinalizedBlock block pick pickFinalized => c.addFinalizedBlock block pick pickFinalized
  | .addBlocks blocks => c.addBlocks blocks

/-- A sequence of block calls from `newCache(size, db)`. -/
def runBlocks (size : ℤ) (calls : List BlockCall) : Cache :=
  calls.foldl Cache.blockStep (newCache size)

/-- **The representation of the block cache.** -/
structure BlockInv (c : Cache) : Prop where
  /-- `blockCache` holds at most `max(size, 1)` blocks. -/
  blockCache_le : (c.blockCache.entries.length : ℤ) ≤ max c.size 1
  /-- `finalizedBlockCache` holds at most `max(size, 1)` blocks. -/
  finalizedBlockCache_le : (c.finalizedBlockCache.entries.length : ℤ) ≤ max c.size 1
  /-- Every block sits under its own hash. -/
  hash_eq : ∀ h b, c.blockCache.lookup h = some b → b.hash = h
  /-- Every finalized block sits under its own position. -/
  position_eq : ∀ p b, c.finalizedBlockCache.lookup p = some b → b.position = p

namespace BlockInv

variable {c : Cache}

theorem addBlockNoLock (hi : BlockInv c) (block : Block) (pick : ℕ) :
    BlockInv (c.addBlockNoLock block pick) := by
  by_cases hp : block.position ∈ c.finalizedBlockCache
  · rwa [Cache.addBlockNoLock, if_pos hp]
  rw [Cache.addBlockNoLock, if_neg hp]
  obtain ⟨hle, -, hnew⟩ := evict_insert c.size c.blockCache pick block.hash block hi.blockCache_le
  refine ⟨hle, hi.finalizedBlockCache_le, fun h b hb => ?_, hi.position_eq⟩
  rcases hnew h b hb with ⟨rfl, rfl⟩ | hb
  · rfl
  · exact hi.hash_eq h b hb

theorem addFinalizedBlockNoLock (hi : BlockInv c) (block : Block) (pick pickFinalized : ℕ) :
    BlockInv (c.addFinalizedBlockNoLock block pick pickFinalized) := by
  obtain ⟨hle, -, hnew⟩ := evict_insert c.size c.blockCache pick block.hash block hi.blockCache_le
  obtain ⟨hle', -, hnew'⟩ := evict_insert c.size c.finalizedBlockCache pickFinalized
    block.position block hi.finalizedBlockCache_le
  refine ⟨hle, hle', fun h b hb => ?_, fun p b hb => ?_⟩
  · rcases hnew h b hb with ⟨rfl, rfl⟩ | hb
    · rfl
    · exact hi.hash_eq h b hb
  · rcases hnew' p b hb with ⟨rfl, rfl⟩ | hb
    · rfl
    · exact hi.position_eq p b hb

theorem addBlocks (hi : BlockInv c) (blocks : List (Block × ℕ × ℕ)) :
    BlockInv (c.addBlocks blocks) := by
  induction blocks generalizing c with
  | nil => exact hi
  | cons b bs ih =>
    refine ih ?_
    dsimp only
    split_ifs
    · exact hi.addFinalizedBlockNoLock _ _ _
    · exact hi.addBlockNoLock _ _

theorem blockStep (hi : BlockInv c) : ∀ call, BlockInv (c.blockStep call)
  | .addBlock _ _ => hi.addBlockNoLock _ _
  | .addFinalizedBlock _ _ _ => hi.addFinalizedBlockNoLock _ _ _
  | .addBlocks _ => hi.addBlocks _

@[simp] theorem size_blockStep (c : Cache) : ∀ call, (c.blockStep call).size = c.size
  | .addBlock _ _ => by
    simp only [Cache.blockStep, Cache.addBlock, Cache.addBlockNoLock]
    split_ifs <;> rfl
  | .addFinalizedBlock _ _ _ => rfl
  | .addBlocks blocks => by
    simp only [Cache.blockStep, Cache.addBlocks]
    induction blocks generalizing c with
    | nil => rfl
    | cons b bs ih =>
      rw [List.foldl_cons, ih]
      simp only [Cache.addFinalizedBlockNoLock, Cache.addBlockNoLock]
      split_ifs <;> rfl

/-- **What `blocks` hands out**: in the order asked, one block per hash found in the
cache or, with `includeDB`, in a database that keeps each block under its own hash; and
each block has the hash it was asked for. -/
theorem blocks_hash (hi : BlockInv c) (getBlock : Hash → Except DBError Block)
    (hdb : ∀ h b, getBlock h = .ok b → b.hash = h) (hashes : List Hash) (includeDB : Bool) :
    (c.blocks getBlock hashes includeDB).map Block.hash =
      hashes.filter fun h =>
        (c.blockCache.lookup h).isSome || (includeDB && (getBlock h).isOk) := by
  induction hashes with
  | nil => rfl
  | cons h hs ih =>
    simp only [Cache.blocks] at ih ⊢
    rw [List.filterMap_cons, List.filter_cons]
    cases hl : c.blockCache.lookup h with
    | some b => simp [hi.hash_eq h b hl, ih]
    | none =>
      cases includeDB with
      | false => simpa using ih
      | true =>
        cases hg : getBlock h with
        | ok b => simpa [hdb h b hg, Except.isOk, Except.toBool] using ih
        | error e => simpa [Except.isOk, Except.toBool] using ih

end BlockInv

theorem blockInv_newCache (size : ℤ) : BlockInv (newCache size) :=
  ⟨by simp [newCache], by simp [newCache], fun _ _ h => by simp [newCache] at h,
    fun _ _ h => by simp [newCache] at h⟩

theorem blockInv_foldl (calls : List BlockCall) {c : Cache} (hi : BlockInv c) :
    BlockInv (calls.foldl Cache.blockStep c) ∧ (calls.foldl Cache.blockStep c).size = c.size := by
  induction calls generalizing c with
  | nil => exact ⟨hi, rfl⟩
  | cons call calls ih =>
    obtain ⟨h₁, h₂⟩ := ih (hi.blockStep call)
    exact ⟨h₁, h₂.trans (BlockInv.size_blockStep c call)⟩

/-- **The block cache keeps its representation.** For every `size` and every sequence of
`addBlock`, `addFinalizedBlock` and `addBlocks` calls from `newCache(size, db)`, whatever
entries the size-limit loops delete: neither map holds more than `max(size, 1)` blocks,
every block of `blockCache` sits under its own hash, and `finalizedBlock(pos)` is a block
at `pos` or `nil`. And with the blocks of a `MemBackedDB` after any run of its calls,
`blocks(hashes, includeDB)` returns, in the order of `hashes`, one block for each hash
found in the cache or, with `includeDB`, in the database, each with that hash. -/
theorem block_cache_invariant (size : ℤ) (calls : List BlockCall) :
    ((runBlocks size calls).blockCache.entries.length : ℤ) ≤ max size 1 ∧
    ((runBlocks size calls).finalizedBlockCache.entries.length : ℤ) ≤ max size 1 ∧
    (∀ hash b, (runBlocks size calls).blockCache.lookup hash = some b → b.hash = hash) ∧
    (∀ pos b, (runBlocks size calls).finalizedBlock pos = some b → b.position = pos) ∧
    ∀ (dbCalls : List MemBackedDB.Call) (sched : List ℕ) (s : MemBackedDB.RunState),
      MemBackedDB.run dbCalls sched = some s → ∀ (hashes : List Hash) (includeDB : Bool),
      ((runBlocks size calls).blocks s.db.internalGetBlock hashes includeDB).map Block.hash =
        hashes.filter fun h => ((runBlocks size calls).blockCache.lookup h).isSome ||
          (includeDB && (s.db.internalGetBlock h).isOk) := by
  obtain ⟨hi, hs⟩ := blockInv_foldl calls (blockInv_newCache size)
  have h₁ := hi.blockCache_le
  have h₂ := hi.finalizedBlockCache_le
  rw [hs] at h₁ h₂
  exact ⟨h₁, h₂, hi.hash_eq, hi.position_eq, fun dbCalls sched s hrun hashes includeDB =>
    hi.blocks_hash _ (MemBackedDB.internalGetBlock_run hrun) hashes includeDB⟩

/-- A database holding a block that `PutBlock` stored, and a cache holding another: with
`includeDB`, `blocks` finds both, in the order asked, and skips a hash stored in neither. -/
theorem block_cache_invariant_putBlock :
    ∃ s, MemBackedDB.run [.putBlock (blockWith Hash.skip ⟨0, 1⟩ [])] [0, 0] = some s ∧
      ((runBlocks 2 [.addBlock (blockWith Hash.zero ⟨0, 2⟩ []) 0]).blocks s.db.internalGetBlock
          [Hash.skip, ⟨List.replicate 32 1, List.length_replicate _ _⟩, Hash.zero] true).map
        Block.hash = [Hash.skip, Hash.zero] :=
  ⟨_, rfl, ((block_cache_invariant 2 [.addBlock (blockWith Hash.zero ⟨0, 2⟩ []) 0]).2.2.2.2
    [.putBlock (blockWith Hash.skip ⟨0, 1⟩ [])] [0, 0] _ rfl _ true).trans (by decide)⟩

end Dex
