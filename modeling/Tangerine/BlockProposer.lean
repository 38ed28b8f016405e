import Tangerine.Types
import Tangerine.Bytes

/-!
# Catching up with the compaction chain

Before its consensus core may run, a node feeds the core's syncer every block of the
compaction chain the core has not seen. `syncConsensus` starts from the height of the core's
compaction-chain tip and, pass after pass, asks `blocksToSync` for the blocks above it up to
the local chain's current head, at most 2048 at a time, each decoded from the `DexconMeta` of
the chain's header at its height; it hands each batch to `SyncBlocks` and moves the core's
height to the last block of the batch.

Three things end the loop: a pass that finds no block (the core has caught up), a batch the
syncer rejects, and the node stopping. The head may move between passes, so each pass reads
it afresh. `SyncEnv` is everything the loop reads: the decoded blocks, the head at each pass,
the syncer's answers and the stop channel.

Once caught up, `syncConsensus` feeds the watch cat the position of the local chain's block
`cb` it read on entry, decoding `cb`'s `DexconMeta` and panicking if that fails
(`feedCurrentBlock`). It then listens (`ListenLoop`): each new chain head runs the same loop
with the head's height fixed, until the syncer reports the core synced; the subscription
ending, the node stopping and the watch cat end the listening too, and a timeout only starts
a forced sync on the side (`listenLoop`, `syncConsensusFeed`).

## What is proved

When the chain's blocks above the starting height up to some `H` decode to blocks of their own
heights and the head never passes `H`, then however the loop ends, the batches it handed to
the syncer are exactly the chain's blocks above the starting height, in order and with none
skipped or repeated, each batch non-empty and at most 2048 long; when the syncer accepts every
batch and the node is not stopping, `H - core + 1` passes suffice for the loop to end caught
up (`syncLoop_feeds_chain`). The listening keeps feeding the chain on from where the loop
stopped, so over the whole of `syncConsensus` the syncer gets the chain in order; and
`syncConsensus` panics exactly when the sync loop catches up and `cb`, not the genesis block,
does not decode (`syncConsensus_feeds_chain`).
-/

namespace BlockProposer

/-! ## The model -/

/-- **The `blocksToSync` closure**, its loop from the core height `coreHeight` with `blocks`
collected so far and `room` more blocks allowed. `dexconMeta n` is the block decoded from the
`DexconMeta` of the chain's block at height `n`, `none` where that panics (no block at that
height, or bytes that do not decode). -/
def blocksToSyncLoop (dexconMeta : UInt64 → Option Block) (height : UInt64) :
    ℕ → UInt64 → List Block → Option (List Block)
  | 0, _, blocks => some blocks
  | room + 1, coreHeight, blocks =>
    if coreHeight < height then
      (dexconMeta (coreHeight + 1)).bind fun block =>
        blocksToSyncLoop dexconMeta height room (coreHeight + 1) (blocks ++ [block])
    else some blocks

/-- **`blocksToSync(coreHeight, height)`**: the loop runs while fewer than 2048 blocks are
collected. -/
def blocksToSync (dexconMeta : UInt64 → Option Block) (coreHeight height : UInt64) :
    Option (List Block) :=
  blocksToSyncLoop dexconMeta height 2048 coreHeight []

/-- **What the sync loop reads.** Each is indexed by the pass, counted from `0`. -/
structure SyncEnv where
  /-- The block decoded from the `DexconMeta` of the local chain's block at a height. -/
  dexconMeta : UInt64 → Option Block
  /-- `CurrentBlock().NumberU64()` as a pass reads it. -/
  currentHeight : ℕ → UInt64
  /-- Whether `consensusSync.SyncBlocks(blocks, false)` returns an error. -/
  syncBlocksFails : ℕ → List Block → Bool
  /-- Whether `stopCh` is closed when a pass reaches its `select`. -/
  stopped : ℕ → Bool

/-- **How the sync loop ends.** -/
inductive LoopEnd
  /-- No block to sync: `break Loop`, on to the watch cat and the chain-head events. -/
  | caughtUp
  /-- `SyncBlocks` failed; `syncConsensus` returns its error. -/
  | syncError
  /-- `stopCh` was closed; `syncConsensus` returns `"early stop"`. -/
  | earlyStop
deriving DecidableEq, Repr

/-- **The `Loop:` of `syncConsensus`**, from pass `pass` and core height `coreHeight`, for at
most `fuel` passes. It returns the batches handed to `SyncBlocks`, how the loop ended (`none`
when the fuel ran out) and the height of the last block handed over; `none` is a panic of
`blocksToSync`. -/
def syncLoop (env : SyncEnv) :
    ℕ → ℕ → UInt64 → Option (List (List Block) × Option LoopEnd × UInt64)
  | 0, _, coreHeight => some ([], none, coreHeight)
  | fuel + 1, pass, coreHeight =>
    (blocksToSync env.dexconMeta coreHeight (env.currentHeight pass)).bind fun blocks =>
      if blocks.isEmpty then some ([], some .caughtUp, coreHeight) else
      let coreHeight' := (blocks.getLast?.map (·.position.height)).getD coreHeight
      if env.syncBlocksFails pass blocks then some ([blocks], some .syncError, coreHeight')
      else if env.stopped pass then some ([blocks], some .earlyStop, coreHeight')
      else (syncLoop env fuel (pass + 1) coreHeight').map fun r => (blocks :: r.1, r.2)

/-- **What `ListenLoop`'s `select` receives.** -/
inductive ListenEvent
  /-- `ev := <-ch`: a new chain head, at `height`. -/
  | chainHead (height : UInt64)
  /-- `<-sub.Err()`: the subscription ended. -/
  | subErr
  /-- `<-b.stopCh`. -/
  | stop
  /-- `<-time.After(forceSyncTimeout)`: a forced sync with the best peer starts in a
  goroutine of its own, and the loop goes on. -/
  | forceSyncTimeout
  /-- `<-b.watchCat.Meow()`. -/
  | meow
deriving DecidableEq

/-- **How `ListenLoop` ends.** -/
inductive ListenEnd
  /-- `SyncBlocks` reported the core synced: `break ListenLoop`. -/
  | synced
  /-- The watch cat meowed: `ForceSync`, then `break ListenLoop`. -/
  | meow
  /-- `SyncBlocks` failed; `syncConsensus` returns its error. -/
  | syncError
  /-- `"system stop"`. -/
  | systemStop
  /-- `"early stop"`. -/
  | earlyStop
deriving DecidableEq, Repr

/-- **The syncer's answers in `ListenLoop`**, at the `i`-th event and the `p`-th pass of its
inner loop. -/
structure ListenEnv where
  /-- Whether `consensusSync.SyncBlocks(blocks, true)` returns an error. -/
  syncBlocksFails : ℕ → ℕ → List Block → Bool
  /-- Whether it returns `synced`. -/
  synced : ℕ → ℕ → Bool

/-- The inner loop of the `i`-th event, a chain head at `height`, is the sync loop with that
height as the head of every pass and the syncer's `synced` in the place of the stop channel:
it ends the loop the same way, after the same batch. (On `synced`, Go leaves `coreHeight` as it
was, but `ListenLoop` ends there and never reads it again.) -/
def ListenEnv.headEnv (listen : ListenEnv) (dexconMeta : UInt64 → Option Block) (i : ℕ)
    (height : UInt64) : SyncEnv :=
  ⟨dexconMeta, fun _ => height, listen.syncBlocksFails i, listen.synced i⟩

/-- **`ListenLoop`**, over the events it receives from the `i`-th on, from core height
`coreHeight`: the batches handed to `SyncBlocks`, how it ended (`none` when the events run out
and the loop still listens) and the height of the last block handed over. The inner loop of a
chain head at `height` gets `height - coreHeight + 1` passes, which always suffice
(`syncLoop_ends_of_fuel`), so its `none` branch is never taken. -/
def listenLoop (listen : ListenEnv) (dexconMeta : UInt64 → Option Block) :
    List ListenEvent → ℕ → UInt64 → Option (List (List Block) × Option ListenEnd × UInt64)
  | [], _, coreHeight => some ([], none, coreHeight)
  | .chainHead height :: events, i, coreHeight =>
    (syncLoop (listen.headEnv dexconMeta i height) (height.toNat - coreHeight.toNat + 1) 0
        coreHeight).bind fun r =>
      match r.2.1 with
      | some .caughtUp =>
        (listenLoop listen dexconMeta events (i + 1) r.2.2).map fun r' => (r.1 ++ r'.1, r'.2)
      | some .syncError => some (r.1, some .syncError, r.2.2)
      | some .earlyStop => some (r.1, some .synced, r.2.2)
      | none => none
  | .subErr :: _, _, coreHeight => some ([], some .systemStop, coreHeight)
  | .stop :: _, _, coreHeight => some ([], some .earlyStop, coreHeight)
  | .forceSyncTimeout :: events, i, coreHeight =>
    listenLoop listen dexconMeta events (i + 1) coreHeight
  | .meow :: _, _, coreHeight => some ([], some .meow, coreHeight)

/-- **Feeding the watch cat the local chain's block `cb`**, at height `cb`, read on entry to
`syncConsensus`: for `cb.NumberU64() > 0`, the position of the block decoded from `cb`'s
`DexconMeta`, which `watchCat.Feed` gets, and a panic (`none`) where it does not decode;
nothing for the genesis block. `cb` is the chain's block at its height, so its `DexconMeta`
decodes to `dexconMeta cb`. -/
def feedCurrentBlock (dexconMeta : UInt64 → Option Block) (cb : UInt64) :
    Option (Option Position) :=
  if 0 < cb then (dexconMeta cb).map fun block => some block.position else some none

/-- **What `syncConsensus` hands to the syncer**, with `cb` the height of the local chain's
head on entry: the sync loop from the core's tip height for at most `fuel` passes, then, once
it has caught up, the feeding of `cb` to the watch cat, and `ListenLoop` from the height the
loop reached. The sync loop's other ends return from `syncConsensus`. -/
def syncConsensusFeed (env : SyncEnv) (listen : ListenEnv) (events : List ListenEvent)
    (fuel : ℕ) (cb coreHeight : UInt64) :
    Option (List (List Block) × Option ListenEnd × UInt64) :=
  (syncLoop env fuel 0 coreHeight).bind fun r =>
    match r.2.1 with
    | some .caughtUp =>
      (feedCurrentBlock env.dexconMeta cb).bind fun _ =>
        (listenLoop listen env.dexconMeta events 0 r.2.2).map fun r' => (r.1 ++ r'.1, r'.2)
    | some .syncError => some (r.1, some .syncError, r.2.2)
    | some .earlyStop => some (r.1, some .earlyStop, r.2.2)
    | none => some (r.1, none, r.2.2)

/-! ## The batches of one pass -/

/-- **The chain decodes** between `lo` (excluded) and `hi`: the block there decodes to
`chain n`, a block of height `n`. -/
def Decodes (dexconMeta : UInt64 → Option Block) (chain : ℕ → Block) (lo hi : UInt64) :
    Prop :=
  ∀ n : UInt64, lo < n → n ≤ hi →
    dexconMeta n = some (chain n.toNat) ∧ (chain n.toNat).position.height = n

/-- **The chain's blocks** at the `k` heights above `c`, in order. -/
def segment (chain : ℕ → Block) (c k : ℕ) : List Block :=
  (List.range k).map fun i => chain (c + 1 + i)

@[simp] theorem length_segment (chain : ℕ → Block) (c k : ℕ) :
    (segment chain c k).length = k := by
  simp [segment]

theorem segment_succ (chain : ℕ → Block) (c k : ℕ) :
    segment chain c (k + 1) = chain (c + 1) :: segment chain (c + 1) k := by
  simp only [segment, List.range_succ_eq_map, List.map_cons, List.map_map, Nat.add_zero]
  congr 1
  refine List.map_congr_left fun i _ => ?_
  simp only [Function.comp_apply]; congr 1; omega

theorem segment_add (chain : ℕ → Block) (c k l : ℕ) :
    segment chain c (k + l) = segment chain c k ++ segment chain (c + k) l := by
  simp only [segment, List.range_add, List.map_append, List.map_map]
  congr 2
  funext i; simp only [Function.comp_apply]; congr 1; omega

theorem getLast?_segment (chain : ℕ → Block) (c k : ℕ) :
    (segment chain c (k + 1)).getLast? = some (chain (c + k + 1)) := by
  rw [segment_add, List.getLast?_append]
  simp [segment, List.range_succ]

theorem uint64_le_iff {a b : UInt64} : a ≤ b ↔ a.toNat ≤ b.toNat := Iff.rfl

section Chain

variable {dexconMeta : UInt64 → Option Block} {chain : ℕ → Block} {lo hi : UInt64}

theorem Decodes.mono (hd : Decodes dexconMeta chain lo hi) {hi' : UInt64} (h : hi' ≤ hi) :
    Decodes dexconMeta chain lo hi' :=
  fun n hn hn' => hd n hn (uint64_le_iff.2 (Nat.le_trans (uint64_le_iff.1 hn') (uint64_le_iff.1 h)))

/-- **`blocksToSync`, pass by pass.** Between heights the chain decodes, the loop appends the
chain's next `min room (height - coreHeight)` blocks. -/
theorem blocksToSyncLoop_eq (hd : Decodes dexconMeta chain lo hi) (height : UInt64)
    (hh : height ≤ hi) (room : ℕ) :
    ∀ (c : UInt64) (acc : List Block), lo ≤ c →
      blocksToSyncLoop dexconMeta height room c acc =
        some (acc ++ segment chain c.toNat (min room (height.toNat - c.toNat))) := by
  induction room with
  | zero => intro c acc _; simp [blocksToSyncLoop, segment]
  | succ room ih =>
    intro c acc hc
    by_cases hlt : c < height
    · have hlt' : c.toNat < height.toNat := hlt
      have hsucc : (c + 1).toNat = c.toNat + 1 := UInt64.toNat_add_of_lt
        (show c.toNat + 1 < 2 ^ 64 by have : height.toNat < 2 ^ 64 := height.toNat_lt_size; omega)
      have hlo : lo < c + 1 := show lo.toNat < (c + 1).toNat by
        have : lo.toNat ≤ c.toNat := hc; omega
      have hle : lo ≤ c + 1 := show lo.toNat ≤ (c + 1).toNat from Nat.le_of_lt hlo
      have hhi : c + 1 ≤ hi := show (c + 1).toNat ≤ hi.toNat by
        have : height.toNat ≤ hi.toNat := hh; omega
      obtain ⟨hm, -⟩ := hd (c + 1) hlo hhi
      have hmin : min (room + 1) (height.toNat - c.toNat) =
          min room (height.toNat - (c + 1).toNat) + 1 := by omega
      rw [blocksToSyncLoop, if_pos hlt, hm, Option.some_bind, ih _ _ hle, hmin,
        segment_succ, hsucc]
      simp
    · have hge : height.toNat ≤ c.toNat := by
        have : ¬ c.toNat < height.toNat := hlt; omega
      rw [blocksToSyncLoop, if_neg hlt, Nat.sub_eq_zero_of_le hge]
      simp [segment]

/-- **One call of `blocksToSync`** returns the chain's next `min 2048 (height - coreHeight)`
blocks. -/
theorem blocksToSync_eq (hd : Decodes dexconMeta chain lo hi) {c height : UInt64}
    (hc : lo ≤ c) (hh : height ≤ hi) :
    blocksToSync dexconMeta c height =
      some (segment chain c.toNat (min 2048 (height.toNat - c.toNat))) := by
  simpa using blocksToSyncLoop_eq hd height hh 2048 c [] hc

/-! ## One pass -/

variable {env : SyncEnv} {H : UInt64}

/-- **One pass of the sync loop.** Either no block is due and the loop ends caught up, or the
pass takes the chain's next `k` blocks, `0 < k ≤ 2048`, reaches the height `c'` of the last
one, and goes on as `syncConsensus` does with that batch. -/
theorem syncLoop_pass (hd : Decodes env.dexconMeta chain lo H) (fuel : ℕ) {pass : ℕ}
    {c : UInt64} (hh : env.currentHeight pass ≤ H) (hc : lo ≤ c) :
    (env.currentHeight pass ≤ c ∧ syncLoop env (fuel + 1) pass c = some ([], some .caughtUp, c)) ∨
    ∃ k c', 0 < k ∧ k ≤ 2048 ∧ c'.toNat = c.toNat + k ∧ c' ≤ env.currentHeight pass ∧
      syncLoop env (fuel + 1) pass c =
        if env.syncBlocksFails pass (segment chain c.toNat k) then
          some ([segment chain c.toNat k], some .syncError, c')
        else if env.stopped pass then some ([segment chain c.toNat k], some .earlyStop, c')
        else (syncLoop env fuel (pass + 1) c').map
          fun r => (segment chain c.toNat k :: r.1, r.2) := by
  have hb := blocksToSync_eq hd hc hh
  obtain ⟨k, hk⟩ : ∃ k, min 2048 ((env.currentHeight pass).toNat - c.toNat) = k := ⟨_, rfl⟩
  rw [hk] at hb
  cases k with
  | zero =>
    refine .inl ⟨uint64_le_iff.2 (by omega), ?_⟩
    simp [syncLoop, hb, segment]
  | succ k =>
    have hlt : (env.currentHeight pass).toNat < 2 ^ 64 := (env.currentHeight pass).toNat_lt_size
    have hn : (UInt64.ofNat (c.toNat + k + 1)).toNat = c.toNat + k + 1 :=
      UInt64.toNat_ofNat_of_lt (show _ < 2 ^ 64 by omega)
    obtain ⟨-, hheight⟩ := hd (UInt64.ofNat (c.toNat + k + 1))
      (show lo.toNat < (UInt64.ofNat (c.toNat + k + 1)).toNat by
        rw [hn]; have := uint64_le_iff.1 hc; omega)
      (uint64_le_iff.2 (by rw [hn]; have := uint64_le_iff.1 hh; omega))
    rw [hn] at hheight
    refine .inr ⟨k + 1, _, by omega, by omega, hn, uint64_le_iff.2 (by omega), ?_⟩
    rw [syncLoop, hb, Option.some_bind, getLast?_segment]
    simp [← List.length_eq_zero, hheight]

/-! ## Whole runs -/

/-- **What a run of the sync loop has done**, from pass `pass` and core height `c`, given the
batches it handed to the syncer, how it ended and the height it reached. -/
structure Fed (env : SyncEnv) (chain : ℕ → Block) (H : UInt64) (pass : ℕ) (c : UInt64)
    (batches : List (List Block)) (e : Option LoopEnd) (final : UInt64) : Prop where
  /-- The batches are the chain's blocks above `c` up to `final`, in order. -/
  flatten_eq : batches.flatten = segment chain c.toNat (final.toNat - c.toNat)
  le_final : c ≤ final
  final_le : final ≤ H
  /-- No batch is empty, and none holds more than 2048 blocks. -/
  batch_size : ∀ batch ∈ batches, batch ≠ [] ∧ batch.length ≤ 2048
  /-- When the loop ends caught up, the head its last pass read is at or below the height
  reached. -/
  caughtUp_le : e = some .caughtUp → env.currentHeight (pass + batches.length) ≤ final

variable {pass : ℕ} {c : UInt64} {e : Option LoopEnd}

/-- A run that hands nothing over stays where it started. -/
theorem Fed.stay (hcH : c ≤ H) (he : e = some .caughtUp → env.currentHeight pass ≤ c) :
    Fed env chain H pass c [] e c :=
  ⟨by simp [segment], uint64_le_iff.2 le_rfl, hcH, by simp, by simpa using he⟩

/-- A pass that hands over the chain's next `k` blocks, followed by a run from the height of
the last of them. -/
theorem Fed.cons {k : ℕ} {c' final : UInt64} {batches : List (List Block)} (hk0 : 0 < k)
    (hk : k ≤ 2048) (hc' : c'.toNat = c.toNat + k)
    (hf : Fed env chain H (pass + 1) c' batches e final) :
    Fed env chain H pass c (segment chain c.toNat k :: batches) e final := by
  have hle := uint64_le_iff.1 hf.le_final
  refine ⟨?_, uint64_le_iff.2 (by omega), hf.final_le, ?_, fun he => ?_⟩
  · rw [List.flatten_cons, hf.flatten_eq, hc', ← segment_add]
    congr 1; omega
  · rintro batch (_ | ⟨_, hb⟩)
    · exact ⟨List.ne_nil_of_length_pos (by simpa using hk0), by simpa using hk⟩
    · exact hf.batch_size batch hb
  · simpa [Nat.add_right_comm, Nat.add_assoc] using hf.caughtUp_le he

/-- **What a run handed the syncer**, from core height `c`: the chain's blocks above `c` up to
`final`, in order, in batches of 1 to 2048 blocks. -/
structure Feeds (chain : ℕ → Block) (H c : UInt64) (batches : List (List Block)) (final : UInt64) :
    Prop where
  /-- The batches are the chain's blocks above `c` up to `final`, in order. -/
  flatten_eq : batches.flatten = segment chain c.toNat (final.toNat - c.toNat)
  le_final : c ≤ final
  final_le : final ≤ H
  /-- No batch is empty, and none holds more than 2048 blocks. -/
  batch_size : ∀ batch ∈ batches, batch ≠ [] ∧ batch.length ≤ 2048

theorem Fed.feeds {batches : List (List Block)} {final : UInt64}
    (h : Fed env chain H pass c batches e final) : Feeds chain H c batches final :=
  ⟨h.flatten_eq, h.le_final, h.final_le, h.batch_size⟩

theorem Feeds.stay (hcH : c ≤ H) : Feeds chain H c [] c :=
  ⟨by simp [segment], uint64_le_iff.2 le_rfl, hcH, by simp⟩

/-- **Runs compose**: one from `c` to `c'`, then one from `c'`, feed the chain from `c`. -/
theorem Feeds.append {c' c'' : UInt64} {b₁ b₂ : List (List Block)}
    (h₁ : Feeds chain H c b₁ c') (h₂ : Feeds chain H c' b₂ c'') :
    Feeds chain H c (b₁ ++ b₂) c'' := by
  have hle₁ := uint64_le_iff.1 h₁.le_final
  have hle₂ := uint64_le_iff.1 h₂.le_final
  refine ⟨?_, uint64_le_iff.2 (by omega), h₂.final_le, fun b hb => ?_⟩
  · obtain ⟨k, hk⟩ : ∃ k, c'.toNat = c.toNat + k := ⟨_, (Nat.add_sub_cancel' hle₁).symm⟩
    rw [List.flatten_append, h₁.flatten_eq, h₂.flatten_eq, hk, Nat.add_sub_cancel_left,
      ← segment_add]
    congr 1; omega
  · rcases List.mem_append.1 hb with hb | hb
    · exact h₁.batch_size b hb
    · exact h₂.batch_size b hb

/-- **Every run of the sync loop** from a height the chain decodes above hands the syncer the
chain's blocks in order, never panics, and keeps `Fed`. -/
theorem fed_syncLoop (hd : Decodes env.dexconMeta chain lo H)
    (hhead : ∀ pass, env.currentHeight pass ≤ H) (fuel : ℕ) :
    ∀ (pass : ℕ) (c : UInt64), lo ≤ c → c ≤ H →
      ∃ batches e final, syncLoop env fuel pass c = some (batches, e, final) ∧
        Fed env chain H pass c batches e final := by
  induction fuel with
  | zero => exact fun pass c _ hcH => ⟨[], none, c, rfl, Fed.stay hcH (by simp)⟩
  | succ fuel ih =>
    intro pass c hc hcH
    rcases syncLoop_pass hd fuel (hhead pass) hc with
      ⟨hle, heq⟩ | ⟨k, c', hk0, hk, hc', hle, heq⟩
    · exact ⟨_, _, _, heq, Fed.stay hcH fun _ => hle⟩
    have hc'H : c' ≤ H := uint64_le_iff.2 (Nat.le_trans hle (hhead pass))
    have hlo : lo ≤ c' := uint64_le_iff.2 (by have := uint64_le_iff.1 hc; omega)
    have hone : ∀ e, e ≠ some .caughtUp →
        Fed env chain H pass c [segment chain c.toNat k] e c' := fun e he =>
      Fed.cons hk0 hk hc' (Fed.stay hc'H fun h => absurd h he)
    rw [heq]
    split_ifs
    · exact ⟨_, _, _, rfl, hone _ (by simp)⟩
    · exact ⟨_, _, _, rfl, hone _ (by simp)⟩
    · obtain ⟨batches, e, final, hrun, hf⟩ := ih (pass + 1) c' hlo hc'H
      exact ⟨_, _, _, by rw [hrun]; rfl, Fed.cons hk0 hk hc' hf⟩

/-- **Enough passes end the loop.** Every pass that does not end the loop moves the core
height up, so more passes than the heights left to sync end it: caught up, on a batch the
syncer rejects, or on a stop. -/
theorem syncLoop_ends_of_fuel (hd : Decodes env.dexconMeta chain lo H)
    (hhead : ∀ pass, env.currentHeight pass ≤ H) (fuel : ℕ) :
    ∀ (pass : ℕ) (c : UInt64), lo ≤ c → H.toNat - c.toNat < fuel →
      ∃ batches e final, syncLoop env fuel pass c = some (batches, some e, final) ∧
        (e = .syncError → ∃ p b, env.syncBlocksFails p b = true) ∧
        (e = .earlyStop → ∃ p, env.stopped p = true) := by
  induction fuel with
  | zero => intro _ _ _ h; omega
  | succ fuel ih =>
    intro pass c hc hfuel
    rcases syncLoop_pass hd fuel (hhead pass) hc with
      ⟨-, heq⟩ | ⟨k, c', hk0, -, hc', hle, heq⟩
    · exact ⟨_, _, _, heq, by simp, by simp⟩
    rw [heq]
    by_cases hf : env.syncBlocksFails pass (segment chain c.toNat k)
    · exact ⟨_, _, _, if_pos hf, fun _ => ⟨_, _, hf⟩, by simp⟩
    by_cases hs : env.stopped pass
    · exact ⟨_, _, _, by rw [if_neg hf, if_pos hs], by simp, fun _ => ⟨_, hs⟩⟩
    have hc'H : c'.toNat ≤ H.toNat := Nat.le_trans hle (hhead pass)
    obtain ⟨batches, e, final, hrun, he⟩ := ih (pass + 1) c'
      (uint64_le_iff.2 (by have := uint64_le_iff.1 hc; omega)) (by omega)
    exact ⟨_, _, _, by rw [if_neg hf, if_neg hs, hrun]; rfl, he⟩

/-- **Enough passes catch up** when the syncer accepts every batch and the node is not
stopping. -/
theorem syncLoop_caughtUp_of_fuel (hd : Decodes env.dexconMeta chain lo H)
    (hhead : ∀ pass, env.currentHeight pass ≤ H)
    (hfail : ∀ p b, env.syncBlocksFails p b = false) (hstop : ∀ p, env.stopped p = false)
    {fuel pass : ℕ} {c : UInt64} (hc : lo ≤ c) (hfuel : H.toNat - c.toNat < fuel) :
    ∃ batches final, syncLoop env fuel pass c = some (batches, some .caughtUp, final) := by
  obtain ⟨batches, e, final, hrun, hse, hst⟩ := syncLoop_ends_of_fuel hd hhead fuel pass c hc hfuel
  cases e with
  | caughtUp => exact ⟨_, _, hrun⟩
  | syncError => obtain ⟨p, b, h⟩ := hse rfl; simp [hfail] at h
  | earlyStop => obtain ⟨p, h⟩ := hst rfl; simp [hstop] at h

/-- **`ListenLoop` feeds the chain on.** From a height the chain decodes above, with every
chain head it hears at or below `H`, `ListenLoop` never panics nor runs out of passes, and
whatever the syncer answers and however it ends, the batches it hands over are the chain's
blocks from there on, in order. -/
theorem listenLoop_feeds (hd : Decodes dexconMeta chain lo H) (listen : ListenEnv)
    (events : List ListenEvent) :
    ∀ (i : ℕ) (c : UInt64), lo ≤ c → c ≤ H → (∀ h, .chainHead h ∈ events → h ≤ H) →
      ∃ batches e final, listenLoop listen dexconMeta events i c = some (batches, e, final) ∧
        Feeds chain H c batches final := by
  induction events with
  | nil => exact fun i c _ hcH _ => ⟨_, _, _, rfl, Feeds.stay hcH⟩
  | cons event events ih =>
    intro i c hc hcH hev
    have hev' : ∀ h, .chainHead h ∈ events → h ≤ H := fun h hm => hev h (List.mem_cons_of_mem _ hm)
    cases event with
    | chainHead h =>
      have hh : h ≤ H := hev h (List.mem_cons_self _ _)
      have hhead : ∀ pass, (listen.headEnv dexconMeta i h).currentHeight pass ≤ H := fun _ => hh
      have hhead' : ∀ pass, (listen.headEnv dexconMeta i h).currentHeight pass ≤ h :=
        fun _ => uint64_le_iff.2 le_rfl
      obtain ⟨b, e, c', hrun, -⟩ :=
        syncLoop_ends_of_fuel (hd.mono hh) hhead' (h.toNat - c.toNat + 1) 0 c hc (by omega)
      obtain ⟨_, _, _, hrun', hfed⟩ := fed_syncLoop hd hhead (h.toNat - c.toNat + 1) 0 c hc hcH
      rw [hrun] at hrun'
      cases hrun'
      have hlo : lo ≤ c' := uint64_le_iff.2 (Nat.le_trans hc (uint64_le_iff.1 hfed.le_final))
      rw [listenLoop, hrun, Option.some_bind]
      cases e with
      | caughtUp =>
        obtain ⟨b₂, e₂, f₂, hrun₂, hf₂⟩ := ih (i + 1) c' hlo hfed.final_le hev'
        exact ⟨_, _, _, by rw [hrun₂]; rfl, hfed.feeds.append hf₂⟩
      | syncError => exact ⟨_, _, _, rfl, hfed.feeds⟩
      | earlyStop => exact ⟨_, _, _, rfl, hfed.feeds⟩
    | subErr => exact ⟨_, _, _, rfl, Feeds.stay hcH⟩
    | stop => exact ⟨_, _, _, rfl, Feeds.stay hcH⟩
    | forceSyncTimeout => exact ih (i + 1) c hc hcH hev'
    | meow => exact ⟨_, _, _, rfl, Feeds.stay hcH⟩

end Chain

/-- **`syncConsensus` feeds the core the compaction chain.** Start the sync loop at the core's
tip height `core`, with the chain's blocks up to `H` decoding to blocks of their own heights
and the head never past `H`. Whatever the syncer answers and whenever the node stops, the loop
does not panic, and the batches it hands over are the chain's blocks from `core + 1` up to the
height it reached, in order, in batches of 1 to 2048 blocks; when it ends caught up, the head
its last pass read is at or below that height. When the syncer accepts every batch and the node
is not stopping, `H - core + 1` passes end it caught up. -/
theorem syncLoop_feeds_chain (env : SyncEnv) (chain : ℕ → Block) (core H : UInt64)
    (hd : Decodes env.dexconMeta chain core H) (hc : core ≤ H)
    (hhead : ∀ pass, env.currentHeight pass ≤ H) (fuel : ℕ) :
    ∃ batches e final, syncLoop env fuel 0 core = some (batches, e, final) ∧
      Fed env chain H 0 core batches e final ∧
      ((∀ p b, env.syncBlocksFails p b = false) → (∀ p, env.stopped p = false) →
        H.toNat - core.toNat < fuel → e = some .caughtUp) := by
  have hcore : core ≤ core := uint64_le_iff.2 le_rfl
  obtain ⟨batches, e, final, hrun, hf⟩ := fed_syncLoop hd hhead fuel 0 core hcore hc
  refine ⟨batches, e, final, hrun, hf, fun hfail hstop hfuel => ?_⟩
  obtain ⟨_, _, hrun'⟩ := syncLoop_caughtUp_of_fuel hd hhead hfail hstop hcore hfuel
  rw [hrun] at hrun'
  exact (Prod.mk.inj (Prod.mk.inj (Option.some.inj hrun')).2).1

/-- The block at compaction-chain height `n`, every other field zero. -/
def blockAtHeight (n : ℕ) : Block :=
  ⟨⟨Hash.zero⟩, Hash.zero, Hash.zero, ⟨0, UInt64.ofNat n⟩, Time.zero, [], Hash.zero, ⟨0, []⟩,
    [], Signature.empty, Signature.empty⟩

/-- A node whose local chain holds blocks up to height `3`, all decoding, whose syncer accepts
everything and which is not stopping. -/
def wholeChain : SyncEnv :=
  ⟨fun n => some (blockAtHeight n.toNat), fun _ => 3, fun _ _ => false, fun _ => false⟩

/-- From an empty core, five passes sync the whole chain and catch up. -/
theorem syncLoop_feeds_chain_wholeChain :
    Decodes wholeChain.dexconMeta blockAtHeight 0 3 ∧
    ∃ batches e final, syncLoop wholeChain 5 0 0 = some (batches, e, final) ∧
      Fed wholeChain blockAtHeight 3 0 0 batches e final ∧
      ((∀ p b, wholeChain.syncBlocksFails p b = false) → (∀ p, wholeChain.stopped p = false) →
        (3 : UInt64).toNat - (0 : UInt64).toNat < 5 → e = some .caughtUp) := by
  have hd : Decodes wholeChain.dexconMeta blockAtHeight 0 3 :=
    fun n _ _ => ⟨rfl, UInt64.toNat.inj (UInt64.toNat_ofNat_of_lt n.toNat_lt_size)⟩
  exact ⟨hd, syncLoop_feeds_chain wholeChain blockAtHeight 0 3 hd (by decide)
    (fun _ => uint64_le_iff.2 (Nat.le_refl _)) 5⟩

example : (syncLoop wholeChain 5 0 0).map (fun r => (r.1.map List.length, r.2)) =
    some ([3], some .caughtUp, 3) := by
  decide

/-- **Feeding `cb` panics exactly when `cb` is not the genesis block and does not decode.** -/
theorem feedCurrentBlock_eq_none {dexconMeta : UInt64 → Option Block} {cb : UInt64} :
    feedCurrentBlock dexconMeta cb = none ↔ 0 < cb ∧ dexconMeta cb = none := by
  unfold feedCurrentBlock
  split_ifs with h <;> simp [h]

/-- **`syncConsensus` feeds the core the compaction chain, from its tip on.** Start at the
core's tip height `core`, with the chain's blocks up to `H` decoding to blocks of their own
heights, the head never past `H` while the sync loop runs, and every chain head `ListenLoop`
hears at or below `H`. Whatever the syncer answers, whenever the node stops and whatever else
the `select` receives, `syncConsensus` panics exactly when the sync loop catches up and the
head `cb` it read on entry is not the genesis block and does not decode; so with `cb` among
the decoded heights it never panics. When it returns, the batches it handed to `SyncBlocks`,
in both loops together, are the chain's blocks from `core + 1` up to the height it reached, in
order, with none skipped or repeated, in batches of 1 to 2048 blocks. -/
theorem syncConsensus_feeds_chain (env : SyncEnv) (listen : ListenEnv) (chain : ℕ → Block)
    (cb core H : UInt64) (hd : Decodes env.dexconMeta chain core H) (hc : core ≤ H)
    (hhead : ∀ pass, env.currentHeight pass ≤ H) (events : List ListenEvent)
    (hev : ∀ h, .chainHead h ∈ events → h ≤ H) (fuel : ℕ) :
    (syncConsensusFeed env listen events fuel cb core = none ↔
      0 < cb ∧ env.dexconMeta cb = none ∧
        ∃ batches final, syncLoop env fuel 0 core = some (batches, some .caughtUp, final)) ∧
    ∀ batches e final, syncConsensusFeed env listen events fuel cb core = some (batches, e, final) →
      Feeds chain H core batches final := by
  obtain ⟨b, e, c', hrun, hfed⟩ := fed_syncLoop hd hhead fuel 0 core (uint64_le_iff.2 le_rfl) hc
  rw [syncConsensusFeed, hrun, Option.some_bind]
  -- the loop's other ends return what it fed
  rcases e with _ | _ | _ | _ <;> try exact ⟨by simp, fun _ _ _ h => by cases h; exact hfed.feeds⟩
  -- caught up: `cb` goes to the watch cat, then `ListenLoop` runs
  obtain ⟨b₂, e₂, f₂, hrun₂, hf₂⟩ :=
    listenLoop_feeds hd listen events 0 c' hfed.le_final hfed.final_le hev
  dsimp only
  rw [hrun₂]
  cases hf : feedCurrentBlock env.dexconMeta cb with
  | none =>
    obtain ⟨h0, hm⟩ := feedCurrentBlock_eq_none.1 hf
    exact ⟨iff_of_true rfl ⟨h0, hm, _, _, rfl⟩, fun _ _ _ h => nomatch h⟩
  | some _ =>
    refine ⟨iff_of_false nofun fun ⟨h0, hm, _⟩ => ?_, fun _ _ _ h => ?_⟩
    · rw [feedCurrentBlock_eq_none.2 ⟨h0, hm⟩] at hf
      cases hf
    · cases h
      exact hfed.feeds.append hf₂

/-- A syncer that never reports synced: with the chain at height `3` and a chain head at `3`
heard after a forced sync, `syncConsensus` feeds the whole chain once and listens on. -/
theorem syncConsensus_feeds_chain_wholeChain :
    Decodes wholeChain.dexconMeta blockAtHeight 0 3 ∧
    (syncConsensusFeed wholeChain ⟨fun _ _ _ => false, fun _ _ => false⟩
        [.forceSyncTimeout, .chainHead 3] 5 3 0 = none ↔
      0 < (3 : UInt64) ∧ wholeChain.dexconMeta 3 = none ∧
        ∃ batches final, syncLoop wholeChain 5 0 0 = some (batches, some .caughtUp, final)) ∧
    ∀ batches e final, syncConsensusFeed wholeChain ⟨fun _ _ _ => false, fun _ _ => false⟩
        [.forceSyncTimeout, .chainHead 3] 5 3 0 = some (batches, e, final) →
      Feeds blockAtHeight 3 0 batches final := by
  have hd : Decodes wholeChain.dexconMeta blockAtHeight 0 3 :=
    fun n _ _ => ⟨rfl, UInt64.toNat.inj (UInt64.toNat_ofNat_of_lt n.toNat_lt_size)⟩
  refine ⟨hd, syncConsensus_feeds_chain wholeChain _ blockAtHeight 3 0 3 hd (by decide)
    (fun _ => uint64_le_iff.2 (Nat.le_refl _)) _ (fun h hm => ?_) 5⟩
  simp at hm
  exact hm ▸ uint64_le_iff.2 (Nat.le_refl _)

example : (syncConsensusFeed wholeChain ⟨fun _ _ _ => false, fun _ _ => false⟩
    [.forceSyncTimeout, .chainHead 3] 5 3 0).map (fun r => (r.1.map List.length, r.2)) =
      some ([3], none, 3) := by
  decide

/-- The core at height `1`, the chain's head `cb` at `1`, and its `DexconMeta` not decoding:
the sync loop finds nothing to sync, and the decoding of `cb` panics. -/
example : syncConsensusFeed ⟨fun _ => none, fun _ => 1, fun _ _ => false, fun _ => false⟩
    ⟨fun _ _ _ => false, fun _ _ => false⟩ [] 1 1 1 = none := by
  decide

end BlockProposer
