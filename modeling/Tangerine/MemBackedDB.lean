import Mathlib.Data.Finset.Card
import Tangerine.Types

/-!
# The memory-backed block store

`db.MemBackedDB` keeps the blocks in a map from hash to block, `blocksByHash`, and the
order in which they were put in a slice of hashes, `blockHashSequence`, which the
iterator of `GetAllBlocks` walks. `PutBlock` and `UpdateBlock` each make two critical
sections: `HasBlock`, under the read lock, and then the insert or overwrite, under the
write lock. Between the two, another call may run.

Calls are modelled as they interleave: each call is a `PutBlock` or an `UpdateBlock` of
one block, and a run is any schedule of their steps, a step being one critical section
of one call (`step`). Run back to back, a call's two steps are the Go function
(`step_step`).

What every run keeps (`Inv`): the hashes of the sequence are exactly the keys of the map,
and each hash occurs in the sequence once per `PutBlock` of it that returned `nil`. Two
`PutBlock`s of one hash whose `HasBlock` both run before either write both return `nil`
and append the hash twice (`putBlock_race`), so the sequence is duplicate-free exactly
in the runs where no two `PutBlock`s of a hash succeed (`nodup_iff_putsNil_card_le_one`).
`block_store_run` gathers what every run keeps, with what `GetAllBlocks` then yields.
-/

/-- The errors of the block calls of package `db`. -/
inductive DBError
  /-- `ErrBlockExists`. -/
  | blockExists
  /-- `ErrBlockDoesNotExist`. -/
  | blockDoesNotExist
  /-- `ErrIterationFinished`. -/
  | iterationFinished
deriving DecidableEq

/-- `db.MemBackedDB`, with the two fields its block calls read and write. -/
structure MemBackedDB where
  /-- `blockHashSequence`: the hashes in the order they were put. -/
  blockHashSequence : List Hash
  /-- `blocksByHash`. -/
  blocksByHash : AList (fun _ : Hash => Block)

namespace MemBackedDB

/-- `NewMemBackedDB()` without a file: no block. -/
def new : MemBackedDB := ⟨[], ∅⟩

/-- `HasBlock(hash)`. -/
def hasBlock (m : MemBackedDB) (hash : Hash) : Bool := decide (hash ∈ m.blocksByHash)

/-- `internalGetBlock(hash)`. -/
def internalGetBlock (m : MemBackedDB) (hash : Hash) : Except DBError Block :=
  match m.blocksByHash.lookup hash with
  | some b => .ok b
  | none => .error .blockDoesNotExist

/-- The write-locked section of `PutBlock`. -/
def putBlockLocked (m : MemBackedDB) (block : Block) : MemBackedDB :=
  ⟨m.blockHashSequence ++ [block.hash], m.blocksByHash.insert block.hash block⟩

/-- The write-locked section of `UpdateBlock`. -/
def updateBlockLocked (m : MemBackedDB) (block : Block) : MemBackedDB :=
  { m with blocksByHash := m.blocksByHash.insert block.hash block }

/-- `PutBlock(block)`, run alone. -/
def putBlock (m : MemBackedDB) (block : Block) : MemBackedDB × Option DBError :=
  if m.hasBlock block.hash then (m, some .blockExists) else (m.putBlockLocked block, none)

/-- `UpdateBlock(block)`, run alone. -/
def updateBlock (m : MemBackedDB) (block : Block) : MemBackedDB × Option DBError :=
  if m.hasBlock block.hash then (m.updateBlockLocked block, none)
  else (m, some .blockDoesNotExist)

/-- `getBlockByIndex(idx)`. -/
def getBlockByIndex (m : MemBackedDB) (idx : ℕ) : Except DBError Block :=
  match m.blockHashSequence.get? idx with
  | some hash => m.internalGetBlock hash
  | none => .error .iterationFinished

/-- What the `NextBlock`s of a `GetAllBlocks` iterator return before
`ErrIterationFinished`, when no call runs in between. -/
def getAllBlocks (m : MemBackedDB) : List (Except DBError Block) :=
  (List.range m.blockHashSequence.length).map m.getBlockByIndex

theorem getBlockByIndex_length (m : MemBackedDB) :
    m.getBlockByIndex m.blockHashSequence.length = .error .iterationFinished := by
  simp [getBlockByIndex]

/-! ## Interleaved calls -/

/-- A block call. -/
inductive Call
  /-- `PutBlock(block)`. -/
  | putBlock (block : Block)
  /-- `UpdateBlock(block)`. -/
  | updateBlock (block : Block)

/-- Where a call is. -/
inductive Phase
  /-- Not started. -/
  | idle
  /-- `HasBlock` has answered as the call needs it to, and the call waits for the write
  lock. -/
  | checked
  /-- The call has returned this error, or `nil`. -/
  | returned (err : Option DBError)
deriving DecidableEq

namespace Call

/-- The call run alone. -/
def run : Call → MemBackedDB → MemBackedDB × Option DBError
  | putBlock b, m => m.putBlock b
  | updateBlock b, m => m.updateBlock b

/-- The read-locked `HasBlock` of the call, and where the call is after it. -/
def check : Call → MemBackedDB → Phase
  | putBlock b, m => if m.hasBlock b.hash then .returned (some .blockExists) else .checked
  | updateBlock b, m =>
    if m.hasBlock b.hash then .checked else .returned (some .blockDoesNotExist)

/-- The write-locked section of the call. -/
def write : Call → MemBackedDB → MemBackedDB
  | putBlock b, m => m.putBlockLocked b
  | updateBlock b, m => m.updateBlockLocked b

/-- The hash a `PutBlock` puts. -/
def putHash : Call → Option Hash
  | putBlock b => some b.hash
  | updateBlock _ => none

theorem check_ne_returned_none (c : Call) (m : MemBackedDB) : c.check m ≠ .returned none := by
  cases c <;> simp only [check] <;> split <;> simp

end Call

/-- The database and where each call is. -/
structure RunState where
  /-- The database. -/
  db : MemBackedDB
  /-- Where call `i` is. -/
  phase : ℕ → Phase

/-- One critical section of call `i`: its `HasBlock` if it has not started, its write
if `HasBlock` let it through; `none` if the call has no step left. -/
def step (calls : List Call) (s : RunState) (i : ℕ) : Option RunState :=
  match calls[i]?, s.phase i with
  | some c, .idle => some ⟨s.db, Function.update s.phase i (c.check s.db)⟩
  | some c, .checked => some ⟨c.write s.db, Function.update s.phase i (.returned none)⟩
  | _, _ => none

/-- No call started, no block. -/
def init : RunState := ⟨new, fun _ => .idle⟩

/-- A schedule of the calls' steps, from the empty database. -/
def run (calls : List Call) (sched : List ℕ) : Option RunState :=
  sched.foldlM (step calls) init

/-- **Run back to back, a call's two steps are the Go function**: its `HasBlock`, and its
write if `HasBlock` lets it through, leave the database and the result of the call run
alone. -/
theorem step_step (calls : List Call) (s : RunState) {i : ℕ} {c : Call}
    (hc : calls[i]? = some c) (hi : s.phase i = .idle) :
    ((step calls s i).bind fun s₁ =>
        if s₁.phase i = .checked then step calls s₁ i else some s₁).map
      (fun s' => (s'.db, s'.phase i)) = some ((c.run s.db).1, .returned (c.run s.db).2) := by
  cases c with
  | putBlock b => by_cases hb : s.db.hasBlock b.hash <;>
      simp [step, hc, hi, hb, Call.check, Call.run, Call.write, MemBackedDB.putBlock]
  | updateBlock b => by_cases hb : s.db.hasBlock b.hash <;>
      simp [step, hc, hi, hb, Call.check, Call.run, Call.write, MemBackedDB.updateBlock]

/-- **What one step can do**: a call's `HasBlock`, or its write. -/
theorem step_cases {calls : List Call} {s s' : RunState} {i : ℕ}
    (h : step calls s i = some s') : ∃ c, calls[i]? = some c ∧
      ((s.phase i = .idle ∧ s' = ⟨s.db, Function.update s.phase i (c.check s.db)⟩) ∨
        (s.phase i = .checked ∧
          s' = ⟨c.write s.db, Function.update s.phase i (.returned none)⟩)) := by
  unfold step at h
  split at h
  next c hc hp => exact ⟨c, hc, .inl ⟨hp, (Option.some.inj h).symm⟩⟩
  next c hc hp => exact ⟨c, hc, .inr ⟨hp, (Option.some.inj h).symm⟩⟩
  next => cases h

/-! ## What every run keeps -/

/-- The `PutBlock` calls for `hash` that have returned `nil`. -/
def putsNil (calls : List Call) (phase : ℕ → Phase) (hash : Hash) : Finset ℕ :=
  (Finset.range calls.length).filter fun i =>
    (calls[i]?).bind Call.putHash = some hash ∧ phase i = .returned none

/-- **The run invariant.** -/
structure Inv (calls : List Call) (s : RunState) : Prop where
  /-- The sequence lists exactly the stored hashes. -/
  mem_iff : ∀ h, h ∈ s.db.blockHashSequence ↔ h ∈ s.db.blocksByHash
  /-- A hash occurs once per `PutBlock` of it that returned `nil`. -/
  count_eq : ∀ h, s.db.blockHashSequence.count h = (putsNil calls s.phase h).card
  /-- An `UpdateBlock` let through by `HasBlock` finds its block stored. -/
  checked_update : ∀ i b, calls[i]? = some (.updateBlock b) → s.phase i = .checked →
    b.hash ∈ s.db.blocksByHash

theorem inv_init (calls : List Call) : Inv calls init :=
  ⟨fun _ => by simp [init, new], fun _ => by simp [init, new, putsNil],
    fun _ _ _ h => nomatch h⟩

/-- A call's `HasBlock` changes no count: the call does not return `nil` from it. -/
theorem putsNil_check {calls : List Call} {phase : ℕ → Phase} {i : ℕ} (c : Call)
    (m : MemBackedDB) (hi : phase i = .idle) (h : Hash) :
    putsNil calls (Function.update phase i (c.check m)) h = putsNil calls phase h := by
  refine Finset.filter_congr fun j _ => ?_
  by_cases hj : j = i
  · subst hj; simp [hi, Call.check_ne_returned_none]
  · rw [Function.update_noteq hj]

/-- A write changes the counts of the hash a `PutBlock` puts, by one. -/
theorem putsNil_write {calls : List Call} {phase : ℕ → Phase} {i : ℕ} {c : Call}
    (hc : calls[i]? = some c) (hi : phase i = .checked) (h : Hash) :
    putsNil calls (Function.update phase i (.returned none)) h =
      if c.putHash = some h then insert i (putsNil calls phase h) else putsNil calls phase h := by
  have hlt : i < calls.length := (List.getElem?_eq_some.1 hc).1
  ext j
  by_cases hj : j = i
  · subst hj; split_ifs with hp <;> simp [putsNil, hc, hp, hi, hlt]
  · split_ifs <;> simp [putsNil, Function.update_noteq hj, hj]

theorem Inv.step {calls : List Call} {s s' : RunState} {i : ℕ} (hs : Inv calls s)
    (h : step calls s i = some s') : Inv calls s' := by
  obtain ⟨c, hc, ⟨hi, rfl⟩ | ⟨hi, rfl⟩⟩ := step_cases h
  · refine ⟨hs.mem_iff, fun x => ?_, fun j b hj hp => ?_⟩ <;> dsimp only at *
    · rw [putsNil_check c s.db hi, hs.count_eq]
    by_cases hji : j = i
    · subst hji
      rw [hc, Option.some.injEq] at hj
      subst hj
      simp only [Function.update_same, Call.check] at hp
      split at hp
      · rename_i hb
        simpa [MemBackedDB.hasBlock] using hb
      · cases hp
    · rw [Function.update_noteq hji] at hp
      exact hs.checked_update j b hj hp
  · refine ⟨fun x => ?_, fun x => ?_, fun j b hj hp => ?_⟩ <;> dsimp only at *
    · cases c with
      | putBlock b => simp [Call.write, putBlockLocked, hs.mem_iff, or_comm]
      | updateBlock b =>
        have hb := hs.checked_update i b hc hi
        simp only [Call.write, updateBlockLocked, hs.mem_iff, AList.mem_insert]
        exact ⟨.inr, fun h' => h'.elim (· ▸ hb) id⟩
    · rw [putsNil_write hc hi]
      cases c with
      | putBlock b =>
        have hni : i ∉ putsNil calls s.phase x := by simp [putsNil, hi]
        by_cases hbh : b.hash = x <;>
          simp [Call.write, putBlockLocked, Call.putHash, hbh, hs.count_eq,
            Finset.card_insert_of_not_mem hni, List.count_singleton']
      | updateBlock b => simp [Call.write, updateBlockLocked, Call.putHash, hs.count_eq]
    · have hji : j ≠ i := by
        rintro rfl
        simp at hp
      rw [Function.update_noteq hji] at hp
      have hb := hs.checked_update j b hj hp
      cases c <;> simp [Call.write, putBlockLocked, updateBlockLocked, hb]

theorem inv_of_run {calls : List Call} :
    ∀ {sched : List ℕ} {s₀ s : RunState}, Inv calls s₀ →
      sched.foldlM (step calls) s₀ = some s → Inv calls s
  | [], _, _, hs, h => by cases h; exact hs
  | i :: sched, _, _, hs, h => by
    obtain ⟨s₁, h₁, h₂⟩ := Option.bind_eq_some.1 h
    exact inv_of_run (hs.step h₁) h₂

/-- **Every run keeps the invariant.** -/
theorem inv_run {calls : List Call} {sched : List ℕ} {s : RunState}
    (h : run calls sched = some s) : Inv calls s :=
  inv_of_run (inv_init calls) h

/-- **The sequence is duplicate-free exactly when no two `PutBlock`s of one hash have
returned `nil`.** -/
theorem nodup_iff_putsNil_card_le_one {calls : List Call} {sched : List ℕ} {s : RunState}
    (h : run calls sched = some s) :
    s.db.blockHashSequence.Nodup ↔ ∀ hash, (putsNil calls s.phase hash).card ≤ 1 := by
  simp only [List.nodup_iff_count_le_one, (inv_run h).count_eq]

theorem getAllBlocks_eq_map (m : MemBackedDB) :
    m.getAllBlocks = m.blockHashSequence.map m.internalGetBlock := by
  refine List.ext_getElem (by simp [getAllBlocks]) fun i h₁ _ => ?_
  have hi : i < m.blockHashSequence.length := by simpa [getAllBlocks] using h₁
  simp [getAllBlocks, getBlockByIndex, List.getElem?_eq_getElem hi]

/-- **After any run, `GetAllBlocks` yields the stored blocks**: never an error, only
stored blocks, and every stored block. -/
theorem getAllBlocks_run {calls : List Call} {sched : List ℕ} {s : RunState}
    (h : run calls sched = some s) :
    (∀ r ∈ s.db.getAllBlocks,
        ∃ hash b, s.db.blocksByHash.lookup hash = some b ∧ r = .ok b) ∧
      ∀ hash b, s.db.blocksByHash.lookup hash = some b → .ok b ∈ s.db.getAllBlocks := by
  rw [getAllBlocks_eq_map]
  refine ⟨fun r hr => ?_, fun hash b hb => List.mem_map.2 ⟨hash,
    ((inv_run h).mem_iff hash).2 (AList.lookup_isSome.1 (by simp [hb])),
    by simp [internalGetBlock, hb]⟩⟩
  obtain ⟨hash, hm, rfl⟩ := List.mem_map.1 hr
  obtain ⟨b, hb⟩ := Option.isSome_iff_exists.1
    (AList.lookup_isSome.2 (((inv_run h).mem_iff hash).1 hm))
  exact ⟨hash, b, hb, by simp [internalGetBlock, hb]⟩

/-- Every stored block sits under its own hash. -/
def Keyed (m : MemBackedDB) : Prop := ∀ hash b, m.blocksByHash.lookup hash = some b → b.hash = hash

theorem Keyed.insert {m : MemBackedDB} (hm : m.Keyed) (block : Block) :
    ∀ hash b, (m.blocksByHash.insert block.hash block).lookup hash = some b → b.hash = hash := by
  intro hash b hb
  by_cases hh : hash = block.hash
  · subst hh
    rw [AList.lookup_insert, Option.some.injEq] at hb
    exact hb ▸ rfl
  · exact hm hash b (by rwa [AList.lookup_insert_ne hh] at hb)

theorem Keyed.write {m : MemBackedDB} (hm : m.Keyed) : ∀ c : Call, (c.write m).Keyed
  | .putBlock b => hm.insert b
  | .updateBlock b => hm.insert b

theorem keyed_of_run {calls : List Call} :
    ∀ {sched : List ℕ} {s₀ s : RunState}, s₀.db.Keyed →
      sched.foldlM (step calls) s₀ = some s → s.db.Keyed
  | [], _, _, hs, h => by cases h; exact hs
  | i :: sched, _, _, hs, h => by
    obtain ⟨s₁, h₁, h₂⟩ := Option.bind_eq_some.1 h
    refine keyed_of_run ?_ h₂
    obtain ⟨c, -, ⟨-, rfl⟩ | ⟨-, rfl⟩⟩ := step_cases h₁
    · exact hs
    · exact hs.write c

/-- **After any run, every block sits under its own hash**, so `GetBlock(hash)` returns
only a block with that hash. -/
theorem internalGetBlock_run {calls : List Call} {sched : List ℕ} {s : RunState}
    (h : run calls sched = some s) (hash : Hash) (b : Block)
    (hb : s.db.internalGetBlock hash = .ok b) : b.hash = hash := by
  refine keyed_of_run (fun _ _ h => by simp [init, new] at h) h hash b ?_
  unfold internalGetBlock at hb
  split at hb
  · rename_i b' hb'
    cases hb
    exact hb'
  · cases hb

/-- **The block store after any interleaving.** After every schedule of the steps of
`PutBlock` and `UpdateBlock` calls, the sequence lists exactly the stored hashes, each as many
times as the `PutBlock`s of it that returned `nil`, so it is duplicate-free exactly when no two
of them did. The iterator of `GetAllBlocks` yields the stored blocks, every one of them and
never an error, and then `ErrIterationFinished`; `GetBlock(hash)` returns only a block with
that hash. From every state of the run, a call's two steps run back to back are the Go
function run alone. -/
theorem block_store_run {calls : List Call} {sched : List ℕ} {s : RunState}
    (h : run calls sched = some s) :
    (∀ hash, hash ∈ s.db.blockHashSequence ↔ hash ∈ s.db.blocksByHash) ∧
    (∀ hash, s.db.blockHashSequence.count hash = (putsNil calls s.phase hash).card) ∧
    (s.db.blockHashSequence.Nodup ↔ ∀ hash, (putsNil calls s.phase hash).card ≤ 1) ∧
    (∀ r ∈ s.db.getAllBlocks, ∃ hash b, s.db.blocksByHash.lookup hash = some b ∧ r = .ok b) ∧
    (∀ hash b, s.db.blocksByHash.lookup hash = some b → .ok b ∈ s.db.getAllBlocks) ∧
    s.db.getBlockByIndex s.db.blockHashSequence.length = .error .iterationFinished ∧
    (∀ hash b, s.db.internalGetBlock hash = .ok b → b.hash = hash) ∧
    ∀ i c, calls[i]? = some c → s.phase i = .idle →
      ((step calls s i).bind fun s₁ =>
          if s₁.phase i = .checked then step calls s₁ i else some s₁).map
        (fun s' => (s'.db, s'.phase i)) = some ((c.run s.db).1, .returned (c.run s.db).2) :=
  ⟨(inv_run h).mem_iff, (inv_run h).count_eq, nodup_iff_putsNil_card_le_one h,
    (getAllBlocks_run h).1, (getAllBlocks_run h).2, getBlockByIndex_length s.db,
    internalGetBlock_run h, fun _ _ hc hi => step_step calls s hc hi⟩

/-- The block with hash `hash`, every other field zero. -/
def blockOf (hash : Hash) : Block :=
  ⟨⟨Hash.zero⟩, Hash.zero, hash, ⟨0, 0⟩, Time.zero, [], Hash.zero, ⟨0, []⟩, [], Signature.empty,
    Signature.empty⟩

/-- The race of two `PutBlock`s of one block, and an `UpdateBlock` of it after them: the hash
is in the sequence twice, once per `PutBlock` that returned `nil`, and the iterator yields the
stored block. -/
theorem block_store_run_race :
    ∃ s, run [.putBlock (blockOf Hash.skip), .putBlock (blockOf Hash.skip),
        .updateBlock (blockOf Hash.skip)] [0, 1, 0, 1, 2, 2] = some s ∧
      s.db.blockHashSequence = [Hash.skip, Hash.skip] ∧
      s.db.blockHashSequence.count Hash.skip = (putsNil [.putBlock (blockOf Hash.skip),
        .putBlock (blockOf Hash.skip), .updateBlock (blockOf Hash.skip)] s.phase Hash.skip).card ∧
      ∀ r ∈ s.db.getAllBlocks, ∃ hash b, s.db.blocksByHash.lookup hash = some b ∧ r = .ok b := by
  have h := @block_store_run [.putBlock (blockOf Hash.skip), .putBlock (blockOf Hash.skip),
    .updateBlock (blockOf Hash.skip)] [0, 1, 0, 1, 2, 2] _ rfl
  exact ⟨_, rfl, rfl, h.2.1 _, h.2.2.2.1⟩

/-- **Two `PutBlock`s of one block race.** Both `HasBlock`s run before either write: both
calls return `nil`, the hash is in the sequence twice, and `GetAllBlocks` yields the
block twice. -/
theorem putBlock_race (b : Block) :
    ∃ s, run [.putBlock b, .putBlock b] [0, 1, 0, 1] = some s ∧
      s.phase 0 = .returned none ∧ s.phase 1 = .returned none ∧
      s.db.blockHashSequence = [b.hash, b.hash] ∧ s.db.getAllBlocks = [.ok b, .ok b] := by
  refine ⟨_, rfl, rfl, rfl, rfl, ?_⟩
  simp [getAllBlocks, getBlockByIndex, internalGetBlock, init, new, List.range_succ, Call.write,
    putBlockLocked, AList.lookup, AList.singleton_entries]

end MemBackedDB
