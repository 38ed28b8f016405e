import Mathlib.Data.UInt
import Tangerine.MemBackedDB

/-!
# The block and vote cache of the `dex` protocol handler

`dex.cache` keeps recent votes and blocks for peers that ask for them. Votes are kept
per position, in a map from position to a map from `voteKey` to vote, with the
positions in the order they were first seen (`votePosition`) and a count of the votes
(`voteSize`). When the count reaches `size`, `addVote` first evicts the oldest position
with all its votes. Blocks are kept in two maps, by hash and, for finalized blocks, by
position; when one is full, an insertion first deletes one entry, whichever Go's
randomised map iteration yields first.

The vote cache keeps its representation (`VoteInv`): the positions listed are exactly
the cached ones, once each; no cached position is empty; the count is the number of
cached votes and never exceeds `size`. So `addVote` never indexes an empty
`votePosition`, and `votes(pos)` returns, for each key among the votes given for `pos`
since `pos` was last evicted, the first of them (`vote_cache_invariant`). What was given
since the last eviction is a record the code does not keep (`Traced`).

The block cache does not keep its intent. `addBlockNoLock` refuses a non-finalized block
at a position whose finalized block is cached in `finalizedBlockCache`, but the two maps
evict independently: once the finalized entry of a position is evicted and its block
is still in `blockCache`, a non-finalized block with the same hash replaces it
(`addBlock_replaces_finalized`). The entry each size-limit loop deletes is a parameter
of the call, so a statement over all runs holds for every choice Go's map order makes.
-/

namespace Dex

/-- `dex.voteKey`: the fields that identify a vote in the cache. -/
structure VoteKey where
  /-- The voter. -/
  proposerID : NodeID
  /-- The vote type. -/
  type : VoteType
  /-- The block voted for. -/
  blockHash : Hash
  /-- The agreement period. -/
  period : UInt64
  /-- The position. -/
  position : Position
deriving DecidableEq

/-- `voteToKey`. -/
def voteToKey (vote : Vote) : VoteKey :=
  ⟨vote.proposerID, vote.type, vote.blockHash, vote.period, vote.position⟩

/-- `dex.cache`, without its `db`, which only `blocks` reads and which is a parameter
there. -/
structure Cache where
  /-- `blockCache`. -/
  blockCache : AList (fun _ : Hash => Block)
  /-- `finalizedBlockCache`. -/
  finalizedBlockCache : AList (fun _ : Position => Block)
  /-- `voteCache`. -/
  voteCache : AList (fun _ : Position => AList (fun _ : VoteKey => Vote))
  /-- `votePosition`: the cached positions, oldest first. -/
  votePosition : List Position
  /-- `voteSize`, a Go `int`. -/
  voteSize : ℤ
  /-- `size`, a Go `int`. -/
  size : ℤ

/-- `newCache(size, db)`. -/
def newCache (size : ℤ) : Cache := ⟨∅, ∅, ∅, [], 0, size⟩

namespace Cache

/-! ## Votes -/

/-- The eviction at the top of `addVote`: the oldest position goes, with its votes;
`none` where `c.votePosition[0]` panics on an empty slice. -/
def evictVotes (c : Cache) : Option Cache :=
  match c.votePosition with
  | [] => none
  | pos :: rest => some
    { c with
      voteSize := c.voteSize - (((c.voteCache.lookup pos).map (·.entries.length)).getD 0 : ℕ)
      voteCache := c.voteCache.erase pos
      votePosition := rest }

/-- `addVote` on a position it has not cached: the position is appended to
`votePosition`, with an empty map of votes. -/
def openPosition (c : Cache) (pos : Position) : Cache :=
  if pos ∈ c.voteCache then c
  else { c with votePosition := c.votePosition ++ [pos], voteCache := c.voteCache.insert pos ∅ }

/-- `addVote` storing the vote under its key, unless the key is there. -/
def storeVote (c : Cache) (vote : Vote) : Cache :=
  let votes := (c.voteCache.lookup vote.position).getD ∅
  if voteToKey vote ∈ votes then c
  else
    { c with
      voteCache := c.voteCache.insert vote.position (votes.insert (voteToKey vote) vote)
      voteSize := c.voteSize + 1 }

/-- Whether `addVote` evicts first. -/
def evicts (c : Cache) : Prop := c.size ≤ c.voteSize

instance (c : Cache) : Decidable c.evicts := inferInstanceAs (Decidable (_ ≤ _))

/-- `cache.addVote`. -/
def addVote (c : Cache) (vote : Vote) : Option Cache :=
  (if c.evicts then c.evictVotes else some c).map fun c =>
    (c.openPosition vote.position).storeVote vote

/-- `cache.votes(pos)`: the votes of a position, in the map's order. -/
def votes (c : Cache) (pos : Position) : List Vote :=
  ((c.voteCache.lookup pos).map fun m => m.entries.map (·.2)).getD []

/-- The number of cached votes. -/
def totalVotes (c : Cache) : ℤ :=
  (c.voteCache.entries.map fun e => (e.2.entries.length : ℤ)).sum

end Cache

/-- A call on the vote cache. -/
inductive VoteCall
  /-- `addVote(vote)`. -/
  | addVote (vote : Vote)
  /-- `votes(pos)`. -/
  | votes (pos : Position)

/-- The cache, with the votes `addVote` was given for each position since the position
was last evicted. -/
structure Traced where
  /-- The cache. -/
  cache : Cache
  /-- The votes given for each position since it was last evicted, in order. -/
  since : Position → List Vote

namespace Traced

/-- The record after an `addVote`: an evicted position's votes are forgotten, then the
vote is recorded under its position. -/
def record (c : Cache) (since : Position → List Vote) (vote : Vote) : Position → List Vote :=
  let since := match c.votePosition with
    | pos :: _ => if c.evicts then Function.update since pos [] else since
    | [] => since
  Function.update since vote.position (since vote.position ++ [vote])

/-- A call on the traced cache; `none` if it panics. -/
def step (t : Traced) : VoteCall → Option Traced
  | .addVote vote => (t.cache.addVote vote).map (⟨·, record t.cache t.since vote⟩)
  | .votes _ => some t

end Traced

/-- A sequence of calls from `newCache(size, db)`. -/
def runVotes (size : ℤ) (calls : List VoteCall) : Option Traced :=
  calls.foldlM Traced.step ⟨newCache size, fun _ => []⟩

/-! ## Sums over a map -/

section Sums

variable {α β : Type} [DecidableEq α] (f : β → ℤ) (s : AList fun _ : α => β)

theorem sum_insert (a : α) (b : β) :
    ((s.insert a b).entries.map fun e => f e.2).sum =
      ((s.erase a).entries.map fun e => f e.2).sum + f b := by
  have he : (s.erase a).entries = s.entries.kerase a := rfl
  rw [AList.insert_entries, he, List.map_cons, List.sum_cons, add_comm]

theorem sum_erase {a : α} {b : β} (h : s.lookup a = some b) :
    (s.entries.map fun e => f e.2).sum = ((s.erase a).entries.map fun e => f e.2).sum + f b := by
  have hk : a ∈ s.entries.keys := AList.mem_keys.1 (AList.lookup_isSome.1 (by simp [h]))
  obtain ⟨b', l₁, l₂, -, he, hke⟩ := List.exists_of_kerase hk
  have hb : b' = b := by
    have : b' ∈ s.lookup a := AList.mem_lookup_iff.2 (by rw [he]; simp)
    rw [h] at this
    exact (Option.some.inj this).symm
  subst hb
  have he' : (s.erase a).entries = s.entries.kerase a := rfl
  rw [he', hke, he]
  simp only [List.map_append, List.map_cons, List.sum_append, List.sum_cons]
  omega

theorem sum_erase_of_not_mem {a : α} (h : a ∉ s) :
    ((s.erase a).entries.map fun e => f e.2).sum = (s.entries.map fun e => f e.2).sum := by
  have he' : (s.erase a).entries = s.entries.kerase a := rfl
  rw [he', List.kerase_of_not_mem_keys (fun hk => h (AList.mem_keys.2 hk))]

end Sums

/-! ## The vote cache keeps its representation -/

namespace Traced

/-- **The representation of the vote cache**, without its bound. -/
structure Wf (t : Traced) : Prop where
  /-- No position is listed twice. -/
  nodup : t.cache.votePosition.Nodup
  /-- The listed positions are the cached ones. -/
  mem_votePosition : ∀ p, p ∈ t.cache.votePosition ↔ p ∈ t.cache.voteCache
  /-- No cached position has an empty map. -/
  nonempty : ∀ p m, t.cache.voteCache.lookup p = some m → m.entries ≠ []
  /-- `voteSize` counts the cached votes. -/
  voteSize_eq : t.cache.voteSize = t.cache.totalVotes
  /-- Under each key of a position is the first vote with that key given for the position
  since it was last evicted. -/
  lookup_eq : ∀ p k, (t.cache.voteCache.lookup p).bind (·.lookup k) =
    (t.since p).find? fun v => voteToKey v = k

/-- **The representation invariant of the vote cache**: `Wf`, and the count within
`size`. -/
structure VoteInv (t : Traced) extends Wf t : Prop where
  /-- `voteSize` never exceeds `size`. -/
  voteSize_le : t.cache.voteSize ≤ t.cache.size

variable {t : Traced}

theorem bind_lookup_eq_getD (o : Option (AList fun _ : VoteKey => Vote)) (k : VoteKey) :
    o.bind (·.lookup k) = (o.getD ∅).lookup k := by
  cases o <;> rfl

theorem Wf.lookup_getD (hw : Wf t) (p : Position) (k : VoteKey) :
    ((t.cache.voteCache.lookup p).getD ∅).lookup k =
      (t.since p).find? fun v => voteToKey v = k := by
  rw [← hw.lookup_eq, bind_lookup_eq_getD]

/-- **The count split at one position**: the votes of the other positions, and those of
`p`. -/
theorem Cache.totalVotes_eq_erase (c : Cache) (p : Position) :
    c.totalVotes = ((c.voteCache.erase p).entries.map fun e => (e.2.entries.length : ℤ)).sum +
      ((c.voteCache.lookup p).getD ∅).entries.length := by
  cases hl : c.voteCache.lookup p with
  | none =>
    rw [sum_erase_of_not_mem (fun m : AList (fun _ : VoteKey => Vote) => (m.entries.length : ℤ))
      _ (AList.lookup_eq_none.1 hl)]
    simp [Cache.totalVotes]
  | some m =>
    exact sum_erase (fun m : AList (fun _ : VoteKey => Vote) => (m.entries.length : ℤ)) _ hl

/-- **One more vote for a position**: if the map of its votes holds the first vote of each
key given so far, then after `vote` is given the first vote of each key is what
`storeVote` leaves in the map: the map itself if it has `vote`'s key, else the map with
`vote` inserted. -/
theorem find?_append_vote {l : List Vote} {m : AList fun _ : VoteKey => Vote}
    (hl : ∀ k, m.lookup k = l.find? fun v => voteToKey v = k) (vote : Vote) (k : VoteKey) :
    (l ++ [vote]).find? (fun v => voteToKey v = k) =
      (if voteToKey vote ∈ m then m else m.insert (voteToKey vote) vote).lookup k := by
  rw [List.find?_append, ← hl, List.find?_singleton]
  by_cases hkv : voteToKey vote = k
  · subst hkv
    rw [if_pos (decide_eq_true rfl)]
    split_ifs with hk
    · exact Option.or_of_isSome (AList.lookup_isSome.2 hk)
    · rw [AList.lookup_eq_none.2 hk, Option.none_or, AList.lookup_insert]
  · rw [if_neg (by simpa using hkv), Option.or_none]
    split_ifs
    · rfl
    · rw [AList.lookup_insert_ne (Ne.symm hkv)]

/-- **Eviction keeps the representation**, and lowers the count by at least one. -/
theorem Wf.evict (hw : Wf t) {pos : Position} {rest : List Position}
    (hp : t.cache.votePosition = pos :: rest) : ∃ c', t.cache.evictVotes = some c' ∧
      Wf ⟨c', Function.update t.since pos []⟩ ∧ c'.voteSize ≤ t.cache.voteSize - 1 ∧
      c'.size = t.cache.size := by
  have hpos : pos ∈ t.cache.voteCache := (hw.mem_votePosition pos).1 (by simp [hp])
  obtain ⟨m, hm⟩ := Option.isSome_iff_exists.1 (AList.lookup_isSome.2 hpos)
  have hnd := hw.nodup
  rw [hp, List.nodup_cons] at hnd
  have hlen : 1 ≤ m.entries.length := List.length_pos.2 (hw.nonempty pos m hm)
  simp only [Cache.evictVotes, hp, Option.some.injEq, exists_eq_left', hm, Option.map_some',
    Option.getD_some]
  refine ⟨⟨hnd.2, fun q => ?_, fun q m' hq => ?_, ?_, fun q k => ?_⟩, by omega, trivial⟩
  · rw [AList.mem_erase, ← hw.mem_votePosition, hp, List.mem_cons]
    exact ⟨fun h => ⟨fun e => hnd.1 (e ▸ h), .inr h⟩, fun h => h.2.resolve_left h.1⟩
  · by_cases hqp : q = pos
    · subst hqp; simp at hq
    · exact hw.nonempty q m' (by rwa [AList.lookup_erase_ne hqp] at hq)
  · rw [hw.voteSize_eq, Cache.totalVotes_eq_erase _ pos, hm]
    simp [Cache.totalVotes]
  · by_cases hqp : q = pos
    · subst hqp; simp
    · simp only [AList.lookup_erase_ne hqp, Function.update_noteq hqp, hw.lookup_eq]

/-- **`addVote` after its eviction**: nothing if the key is stored, else the position is
listed if new and the vote stored under its key, one more in the count. -/
theorem openPosition_storeVote (c : Cache) (vote : Vote) :
    (c.openPosition vote.position).storeVote vote =
      if voteToKey vote ∈ (c.voteCache.lookup vote.position).getD ∅ then c
      else
        { c with
          votePosition := if vote.position ∈ c.voteCache then c.votePosition
            else c.votePosition ++ [vote.position]
          voteCache := c.voteCache.insert vote.position
            (((c.voteCache.lookup vote.position).getD ∅).insert (voteToKey vote) vote)
          voteSize := c.voteSize + 1 } := by
  unfold Cache.openPosition Cache.storeVote
  by_cases hp : vote.position ∈ c.voteCache
  · simp only [hp, if_true]
  · simp [hp, AList.lookup_eq_none.2 hp, AList.not_mem_empty, AList.insert_insert]

/-- **Storing a vote keeps the representation**, and raises the count by at most one. -/
theorem Wf.insert (hw : Wf t) (vote : Vote) :
    Wf ⟨(t.cache.openPosition vote.position).storeVote vote,
      Function.update t.since vote.position (t.since vote.position ++ [vote])⟩ ∧
      ((t.cache.openPosition vote.position).storeVote vote).voteSize ≤ t.cache.voteSize + 1 ∧
      ((t.cache.openPosition vote.position).storeVote vote).size = t.cache.size := by
  have hq (q : Position) (hqp : q ≠ vote.position) (k : VoteKey) :
      (Function.update t.since vote.position (t.since vote.position ++ [vote]) q).find?
        (fun v => voteToKey v = k) = (t.cache.voteCache.lookup q).bind (·.lookup k) := by
    rw [Function.update_noteq hqp, hw.lookup_eq]
  have hsame := find?_append_vote (hw.lookup_getD vote.position) vote
  rw [openPosition_storeVote]
  by_cases hk : voteToKey vote ∈ (t.cache.voteCache.lookup vote.position).getD ∅
  · rw [if_pos hk]
    refine ⟨⟨hw.nodup, hw.mem_votePosition, hw.nonempty, hw.voteSize_eq, fun q k => ?_⟩,
      by omega, rfl⟩
    dsimp only
    by_cases hqp : q = vote.position
    · subst hqp
      rw [Function.update_same, hsame, if_pos hk, bind_lookup_eq_getD]
    · exact (hq q hqp k).symm
  rw [if_neg hk]
  refine ⟨⟨?_, fun q => ?_, fun q m' hq' => ?_, ?_, fun q k => ?_⟩,
    by dsimp only; omega, rfl⟩ <;> dsimp only at *
  · split_ifs with hp
    · exact hw.nodup
    · exact hw.nodup.append (List.nodup_singleton _)
        (List.disjoint_singleton.2 fun h => hp ((hw.mem_votePosition _).1 h))
  · rw [AList.mem_insert]
    split_ifs with hp
    · rw [hw.mem_votePosition]
      exact ⟨.inr, fun h => h.elim (· ▸ hp) id⟩
    · rw [List.mem_append, hw.mem_votePosition, List.mem_singleton, or_comm]
  · by_cases hqp : q = vote.position
    · subst hqp
      rw [AList.lookup_insert, Option.some.injEq] at hq'
      simp [← hq', AList.insert_entries]
    · exact hw.nonempty q m' (by rwa [AList.lookup_insert_ne hqp] at hq')
  · rw [hw.voteSize_eq, Cache.totalVotes_eq_erase _ vote.position]
    simp only [Cache.totalVotes]
    rw [sum_insert (fun m : AList (fun _ : VoteKey => Vote) => (m.entries.length : ℤ)),
      AList.insert_entries_of_neg hk]
    simp only [List.length_cons, Nat.cast_add, Nat.cast_one]
    omega
  · by_cases hqp : q = vote.position
    · subst hqp
      rw [Function.update_same, hsame, if_neg hk, AList.lookup_insert, Option.some_bind]
    · rw [AList.lookup_insert_ne hqp]
      exact (hq q hqp k).symm

/-- **An eviction finds a position**: when the count has reached `size ≥ 1`, some
position is listed. -/
theorem Wf.votePosition_ne_nil (hw : Wf t) (hsize : 1 ≤ t.cache.size) (he : t.cache.evicts) :
    t.cache.votePosition ≠ [] := by
  intro hnil
  have hentries : t.cache.voteCache.entries = [] := by
    cases hs : t.cache.voteCache.entries with
    | nil => rfl
    | cons e _ =>
      have hmem : e.1 ∈ t.cache.voteCache := by rw [AList.mem_keys, AList.keys, hs]; simp
      have := (hw.mem_votePosition e.1).2 hmem
      rw [hnil] at this
      cases this
  have htot : t.cache.totalVotes = 0 := by simp [Cache.totalVotes, hentries]
  have := hw.voteSize_eq
  unfold Cache.evicts at he
  omega

/-- **A call keeps the invariant**, and never panics. -/
theorem VoteInv.step (hi : VoteInv t) (hsize : 1 ≤ t.cache.size) (call : VoteCall) :
    ∃ t', t.step call = some t' ∧ VoteInv t' ∧ t'.cache.size = t.cache.size := by
  cases call with
  | votes _ => exact ⟨t, rfl, hi, rfl⟩
  | addVote vote =>
    by_cases he : t.cache.evicts
    · obtain ⟨pos, rest, hp⟩ := List.exists_cons_of_ne_nil (hi.votePosition_ne_nil hsize he)
      obtain ⟨c', hc', hw', hle, hs⟩ := hi.toWf.evict hp
      obtain ⟨hw'', hle', hs'⟩ := hw'.insert vote
      have hrec : record t.cache t.since vote =
          Function.update (Function.update t.since pos []) vote.position
            (Function.update t.since pos [] vote.position ++ [vote]) := by
        simp only [record, hp, if_pos he]
      refine ⟨⟨(c'.openPosition vote.position).storeVote vote, record t.cache t.since vote⟩,
        by show Option.map _ _ = _; simp only [Cache.addVote, if_pos he, hc', Option.map_some'],
        ⟨by rw [hrec]; exact hw'', ?_⟩, hs'.trans hs⟩
      have := hi.voteSize_le
      dsimp only at hle' hs' ⊢
      omega
    · obtain ⟨hw'', hle', hs'⟩ := hi.toWf.insert vote
      have hrec : record t.cache t.since vote =
          Function.update t.since vote.position (t.since vote.position ++ [vote]) := by
        unfold record
        split <;> simp only [if_neg he]
      refine ⟨⟨(t.cache.openPosition vote.position).storeVote vote,
          record t.cache t.since vote⟩,
        by show Option.map _ _ = _; simp only [Cache.addVote, if_neg he, Option.map_some'],
        ⟨by rw [hrec]; exact hw'', ?_⟩, hs'⟩
      unfold Cache.evicts at he
      dsimp only at hle' hs' ⊢
      omega

theorem voteInv_new {size : ℤ} (hsize : 1 ≤ size) : VoteInv ⟨newCache size, fun _ => []⟩ :=
  ⟨⟨List.nodup_nil, fun p => by simp [newCache, AList.not_mem_empty],
    fun p m h => by simp [newCache] at h, by simp [newCache, Cache.totalVotes],
    fun p k => by simp [newCache]⟩, by simp only [newCache]; omega⟩

theorem voteInv_foldlM {size : ℤ} (hsize : 1 ≤ size) :
    ∀ (calls : List VoteCall) (t : Traced), VoteInv t → t.cache.size = size →
      ∃ t', calls.foldlM step t = some t' ∧ VoteInv t' ∧ t'.cache.size = size
  | [], t, hi, hs => ⟨t, rfl, hi, hs⟩
  | call :: calls, t, hi, hs => by
    obtain ⟨t₁, h₁, hi₁, hs₁⟩ := hi.step (hs ▸ hsize) call
    obtain ⟨t', h', hi', hs'⟩ := voteInv_foldlM hsize calls t₁ hi₁ (hs₁.trans hs)
    exact ⟨t', by simp [h₁, h'], hi', hs'⟩

/-- **What `votes(pos)` returns**: one vote per key among the votes given for `pos` since
it was last evicted, the first given with that key. -/
theorem Wf.votes (hw : Wf t) (pos : Position) :
    ((t.cache.votes pos).map voteToKey).Nodup ∧
      (∀ k, k ∈ (t.cache.votes pos).map voteToKey ↔
        ∃ v ∈ t.since pos, voteToKey v = k) ∧
      ∀ v ∈ t.cache.votes pos,
        (t.since pos).find? (fun w => voteToKey w = voteToKey v) = some v := by
  cases hl : t.cache.voteCache.lookup pos with
  | none =>
    have hnil : t.since pos = [] := by
      cases hs : t.since pos with
      | nil => rfl
      | cons v _ =>
        have := hw.lookup_eq pos (voteToKey v)
        simp [hl, hs] at this
    simp [Cache.votes, hl, hnil]
  | some m =>
    have hentry (e) (he : e ∈ m.entries) :
        (t.since pos).find? (fun w => voteToKey w = e.1) = some e.2 := by
      rw [← hw.lookup_eq, hl, Option.some_bind]
      exact AList.mem_lookup_iff.2 he
    have hkey (e) (he : e ∈ m.entries) : voteToKey e.2 = e.1 := by
      simpa using List.find?_some (hentry e he)
    have hmap : (m.entries.map (·.2)).map voteToKey = m.keys := by
      rw [List.map_map]
      exact List.map_congr_left fun e he => hkey e he
    simp only [Cache.votes, hl, Option.map_some', Option.getD_some, hmap]
    refine ⟨m.keys_nodup, fun k => ?_, fun v hv => ?_⟩
    · have := hw.lookup_eq pos k
      rw [hl, Option.some_bind] at this
      rw [← AList.mem_keys, ← AList.lookup_isSome, this, List.find?_isSome]
      simp
    · obtain ⟨e, he, rfl⟩ := List.mem_map.1 hv
      rw [hkey e he]
      exact hentry e he

end Traced

/-- **The vote cache keeps its representation.** For every `size ≥ 1` and every
sequence of `addVote` and `votes` calls from `newCache(size, db)`, no call panics, and
the state reached satisfies `VoteInv`: `votePosition` is duplicate-free and lists exactly
the cached positions, no cached position is empty, and `voteSize` is the number of
cached votes and at most `size`. And `votes(pos)` returns one vote per `voteKey` among
the votes given for `pos` since `pos` was last evicted, the first given with that key. -/
theorem vote_cache_invariant {size : ℤ} (hsize : 1 ≤ size) (calls : List VoteCall) :
    ∃ t, runVotes size calls = some t ∧ t.VoteInv ∧ ∀ pos,
      ((t.cache.votes pos).map voteToKey).Nodup ∧
      (∀ k, k ∈ (t.cache.votes pos).map voteToKey ↔ ∃ v ∈ t.since pos, voteToKey v = k) ∧
      ∀ v ∈ t.cache.votes pos,
        (t.since pos).find? (fun w => voteToKey w = voteToKey v) = some v := by
  obtain ⟨t, h, hi, -⟩ := Traced.voteInv_foldlM hsize calls _ (Traced.voteInv_new hsize) rfl
  exact ⟨t, h, hi, hi.toWf.votes⟩

/-- Two votes on a cache of size one: the second evicts the first one's position. -/
theorem vote_cache_invariant_size_one :
    (1 : ℤ) ≤ 1 ∧ ∃ t, runVotes 1 [.addVote (newVote .init Hash.zero 0),
        .addVote (newVote .com Hash.zero 0)] = some t ∧ t.VoteInv ∧ ∀ pos,
      ((t.cache.votes pos).map voteToKey).Nodup ∧
      (∀ k, k ∈ (t.cache.votes pos).map voteToKey ↔ ∃ v ∈ t.since pos, voteToKey v = k) ∧
      ∀ v ∈ t.cache.votes pos,
        (t.since pos).find? (fun w => voteToKey w = voteToKey v) = some v :=
  ⟨le_refl 1, vote_cache_invariant (le_refl 1) _⟩

/-! ## Blocks -/

namespace Cache

/-- The loop `for k := range m { delete(m, k); break }`, which deletes whichever key Go's
map iteration yields first: here the key at position `pick` of the association list,
modulo its length, so that every key can be the one. -/
def deleteOne {α β : Type} [DecidableEq α] (m : AList fun _ : α => β) (pick : ℕ) :
    AList fun _ : α => β :=
  match m.keys[pick % m.keys.length]? with
  | some k => m.erase k
  | none => m

/-- `addBlockNoLock`; `pick` chooses what its size-limit loop deletes. -/
def addBlockNoLock (c : Cache) (block : Block) (pick : ℕ) : Cache :=
  if block.position ∈ c.finalizedBlockCache then c
  else
    { c with
      blockCache := (if c.size ≤ c.blockCache.entries.length then deleteOne c.blockCache pick
        else c.blockCache).insert block.hash block }

/-- `addFinalizedBlockNoLock`; `pick` and `pickFinalized` choose what its two size-limit
loops delete. -/
def addFinalizedBlockNoLock (c : Cache) (block : Block) (pick pickFinalized : ℕ) : Cache :=
  { c with
    blockCache := (if c.size ≤ c.blockCache.entries.length then deleteOne c.blockCache pick
      else c.blockCache).insert block.hash block
    finalizedBlockCache := (if c.size ≤ c.finalizedBlockCache.entries.length
      then deleteOne c.finalizedBlockCache pickFinalized
      else c.finalizedBlockCache).insert block.position block }

/-- `cache.addBlock`. -/
def addBlock (c : Cache) (block : Block) (pick : ℕ) : Cache := c.addBlockNoLock block pick

/-- `cache.addFinalizedBlock`. -/
def addFinalizedBlock (c : Cache) (block : Block) (pick pickFinalized : ℕ) : Cache :=
  c.addFinalizedBlockNoLock block pick pickFinalized

/-- `cache.addBlocks`, each block given with the choices of its size-limit loops. -/
def addBlocks (c : Cache) (blocks : List (Block × ℕ × ℕ)) : Cache :=
  blocks.foldl (fun c b => if b.1.isFinalized then c.addFinalizedBlockNoLock b.1 b.2.1 b.2.2
    else c.addBlockNoLock b.1 b.2.1) c

/-- `cache.blocks(hashes, includeDB)`, with `getBlock` for `c.db.GetBlock`. -/
def blocks (c : Cache) (getBlock : Hash → Except DBError Block) (hashes : List Hash)
    (includeDB : Bool) : List Block :=
  hashes.filterMap fun hash =>
    match c.blockCache.lookup hash with
    | some b => some b
    | none =>
      if includeDB then
        match getBlock hash with
        | .ok b => some b
        | .error _ => none
      else none

/-- `cache.finalizedBlock(pos)`. -/
def finalizedBlock (c : Cache) (pos : Position) : Option Block :=
  c.finalizedBlockCache.lookup pos

end Cache

/-- A block with the given hash, position and randomness, every other field zero. -/
def blockWith (hash : Hash) (position : Position) (randomness : Bytes) : Block :=
  ⟨⟨Hash.zero⟩, Hash.zero, hash, position, Time.zero, [], Hash.zero, ⟨0, []⟩, randomness,
    Signature.empty, Signature.empty⟩

/-- **A finalized block is replaced by a non-finalized one.** With `size = 2`: finalized
blocks at positions 1, 2 and 3, the third one's loops deleting the second block from
`blockCache` and position 1 from `finalizedBlockCache`. The first block is then still in
`blockCache`, and a non-finalized block with its hash and position, whose loop deletes the
third block, replaces it; `blocks` hands it out. -/
theorem addBlock_replaces_finalized :
    (blockWith Hash.zero ⟨0, 1⟩ [1]).isFinalized = true ∧
    ((((newCache 2).addFinalizedBlock (blockWith Hash.zero ⟨0, 1⟩ [1]) 0 0).addFinalizedBlock
        (blockWith Hash.skip ⟨0, 2⟩ [1]) 0 0).addFinalizedBlock
        (blockWith ⟨List.replicate 32 1, List.length_replicate _ _⟩ ⟨0, 3⟩ [1]) 0 1).blockCache.lookup
      Hash.zero = some (blockWith Hash.zero ⟨0, 1⟩ [1]) ∧
    (((((newCache 2).addFinalizedBlock (blockWith Hash.zero ⟨0, 1⟩ [1]) 0 0).addFinalizedBlock
        (blockWith Hash.skip ⟨0, 2⟩ [1]) 0 0).addFinalizedBlock
        (blockWith ⟨List.replicate 32 1, List.length_replicate _ _⟩ ⟨0, 3⟩ [1]) 0 1).addBlock
        (blockWith Hash.zero ⟨0, 1⟩ []) 0).blocks (fun _ => .error .blockDoesNotExist)
      [Hash.zero] false = [blockWith Hash.zero ⟨0, 1⟩ []] ∧
    (blockWith Hash.zero ⟨0, 1⟩ []).isFinalized = false := by
  decide

end Dex
