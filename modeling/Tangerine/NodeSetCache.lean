import Tangerine.Types

/-!
# The node-set cache

`utils.NodeSetCache` (`core/utils/nodeset-cache.go`) memoises, per round, the node set,
the notary set and the CRS its provider reports, and keeps one shared record per public
key with a count of the rounds that reference it. This module is the cache as the code
computes it; the invariants it keeps and the ones it does not are in the modules that
follow.

Go maps become association lists (`AList`), which keep their keys distinct by
construction; iterating a map is iterating the list, in the one order the list has.
A record in the key pool is reached through a pointer, so `rec.refCnt--` on a node
without a record dereferences `nil` and the program panics: every operation returns an
`Option`, `none` standing for that panic. A record's `refCnt` is a Go `int`, 64 bits wide:
it wraps around. Go's `(value, error)` results are
`Except Error`.

The provider (`NodeSetCacheInterface`) is handed to every operation rather than stored:
its answers may change from one call to the next, and the cache only ever sees them
through the calls. What `core/types` contributes, the node identity of a key and the
choice of a notary subset, is the parameter `Committee`.

Each operation's lock is taken for the whole of its body, so the model runs each
body atomically. `Exists`, `GetNodeSet` and `GetNotarySet` take the lock twice, once
to look and once to update; they are modelled as one step, as a run without
concurrent callers executes them.
-/

/-- `types.Config`, with the one field the cache reads. -/
structure Config where
  /-- The size of the notary set. -/
  notarySetSize : UInt32
deriving DecidableEq

/-- `types.NodeSet`: a set of node identities, kept as a duplicate-free list. -/
structure NodeSet where
  /-- The identities, each once. -/
  ids : List NodeID
  /-- A set has no duplicates. -/
  nodup : ids.Nodup
deriving DecidableEq

namespace NodeSet

/-- `types.NewNodeSet`. -/
def empty : NodeSet := ⟨[], List.nodup_nil⟩

/-- `NodeSet.Add`. -/
def add (ns : NodeSet) (id : NodeID) : NodeSet := ⟨ns.ids.insert id, ns.nodup.insert⟩

@[simp] theorem mem_add {ns : NodeSet} {id n : NodeID} :
    n ∈ (ns.add id).ids ↔ n = id ∨ n ∈ ns.ids := List.mem_insert_iff

end NodeSet

/-- What `core/types` supplies to the cache, over a type of public keys. -/
structure Committee (Pub : Type) where
  /-- `types.NewNodeID(key)`. -/
  newNodeID : Pub → NodeID
  /-- `nodeSet.GetSubSet(size, types.NewNotarySetTarget(crs))`. -/
  getSubSet : NodeSet → ℕ → Hash → List NodeID

/-- `utils.NodeSetCacheInterface`, the round-information provider. `nodeSet` is `none`
for a `nil` slice and `configuration` is `none` for a `nil` pointer. -/
structure NodeSetCacheInterface (Pub : Type) where
  /-- `Configuration(round)`. -/
  configuration : UInt64 → Option Config
  /-- `CRS(round)`. -/
  crs : UInt64 → Hash
  /-- `NodeSet(round)`. -/
  nodeSet : UInt64 → Option (List Pub)

/-- `utils.sets`: what the cache keeps for a round. -/
structure Sets where
  /-- The round's CRS. -/
  crs : Hash
  /-- The round's node set. -/
  nodeSet : NodeSet
  /-- The round's notary set. -/
  notarySet : List NodeID
deriving DecidableEq

/-- A key-pool record: a public key and the count of references to it. -/
structure KeyRec (Pub : Type) where
  /-- The public key. -/
  pubKey : Pub
  /-- `refCnt`, a Go `int` of 64 bits. The code only adds one, subtracts one and compares
  with zero, which two's complement arithmetic on the 64 bits computes. -/
  refCnt : BitVec 64

/-- `utils.NodeSetCache`: the cached rounds, and the shared key pool. -/
structure NodeSetCache (Pub : Type) where
  /-- `rounds`: the sets of each cached round. -/
  rounds : AList (fun _ : UInt64 => Sets)
  /-- `keyPool`: a record per referenced node. -/
  keyPool : AList (fun _ : NodeID => KeyRec Pub)

variable {Pub : Type} (T : Committee Pub)

namespace NodeSetCache

/-- `utils.NewNodeSetCache`: no round cached, no key referenced. -/
def new : NodeSetCache Pub := ⟨∅, ∅⟩

/-! ## Reference counting -/

/-- `rec.refCnt++` on the record of `key`'s node, or a new record at `1`: one more
reference to `key`. -/
def incRef (pool : AList (fun _ : NodeID => KeyRec Pub)) (key : Pub) :
    AList (fun _ : NodeID => KeyRec Pub) :=
  match pool.lookup (T.newNodeID key) with
  | some rec => pool.insert (T.newNodeID key) { rec with refCnt := rec.refCnt + 1 }
  | none => pool.insert (T.newNodeID key) ⟨key, 1⟩

/-- `rec.refCnt--`, deleting the record when it reaches zero; `none` when the node has
no record, where Go dereferences `nil` and panics. -/
def decRef (pool : AList (fun _ : NodeID => KeyRec Pub)) (nID : NodeID) :
    Option (AList (fun _ : NodeID => KeyRec Pub)) :=
  match pool.lookup nID with
  | none => none
  | some rec =>
    if rec.refCnt - 1 = 0 then some (pool.erase nID)
    else some (pool.insert nID { rec with refCnt := rec.refCnt - 1 })

/-- The body `Purge` and the sweep of `update` share: release every node of the round,
then forget the round. -/
def dropRound (c : NodeSetCache Pub) (rID : UInt64) (s : Sets) :
    Option (NodeSetCache Pub) :=
  (s.nodeSet.ids.foldlM decRef c.keyPool).map fun pool =>
    { keyPool := pool, rounds := c.rounds.erase rID }

/-- `NodeSetCache.Purge`. -/
def purge (c : NodeSetCache Pub) (rID : UInt64) : Option (NodeSetCache Pub) :=
  match c.rounds.lookup rID with
  | none => some c
  | some s => dropRound c rID s

/-! ## Populating a round -/

/-- The loop of `update` over the provider's keys: add each key's node to the new
node set, and take a reference to the key. -/
def addKeys (pool : AList (fun _ : NodeID => KeyRec Pub)) (keySet : List Pub) :
    NodeSet × AList (fun _ : NodeID => KeyRec Pub) :=
  keySet.foldl (fun acc key => (acc.1.add (T.newNodeID key), incRef T acc.2 key))
    (NodeSet.empty, pool)

/-- The sweep at the end of `update`: every cached round `rID` with `round - rID > 5`,
in `uint64` arithmetic, is dropped as `Purge` drops it. The loop visits the entries
the map holds when it starts. -/
def sweep (round : UInt64) (c : NodeSetCache Pub) : Option (NodeSetCache Pub) :=
  c.rounds.entries.foldlM
    (fun c e => if round - e.1 ≤ 5 then some c else dropRound c e.1 e.2) c

/-- `NodeSetCache.update`. The key references are taken before the configuration is
read, and stay taken when it is missing. -/
def update (nsIntf : NodeSetCacheInterface Pub) (c : NodeSetCache Pub) (round : UInt64) :
    Option (NodeSetCache Pub × Except Error Sets) :=
  match nsIntf.nodeSet round with
  | none => some (c, .error .nodeSetNotReady)
  | some keySet =>
    if nsIntf.crs round = Hash.zero then some (c, .error .crsNotReady)
    else
      let added := addKeys T c.keyPool keySet
      match nsIntf.configuration round with
      | none => some ({ c with keyPool := added.2 }, .error .configurationNotReady)
      | some cfg =>
        let s : Sets := ⟨nsIntf.crs round, added.1,
          T.getSubSet added.1 cfg.notarySetSize.toNat (nsIntf.crs round)⟩
        (sweep round ⟨c.rounds.insert round s, added.2⟩).map (·, .ok s)

/-- The node set `update` builds from a round's keys. -/
def buildNodeSet (keySet : List Pub) : NodeSet :=
  keySet.foldl (fun ns key => ns.add (T.newNodeID key)) NodeSet.empty

/-- **The sets of a round, computed afresh from the provider**, with the errors
`update` reports, in the order it checks: what a cache is meant to memoise. -/
def freshSets (nsIntf : NodeSetCacheInterface Pub) (round : UInt64) : Except Error Sets :=
  match nsIntf.nodeSet round with
  | none => .error .nodeSetNotReady
  | some keySet =>
    if nsIntf.crs round = Hash.zero then .error .crsNotReady
    else match nsIntf.configuration round with
      | none => .error .configurationNotReady
      | some cfg => .ok ⟨nsIntf.crs round, buildNodeSet T keySet,
          T.getSubSet (buildNodeSet T keySet) cfg.notarySetSize.toNat (nsIntf.crs round)⟩

theorem addKeys_fst (pool : AList (fun _ : NodeID => KeyRec Pub)) (keySet : List Pub) :
    (addKeys T pool keySet).1 = buildNodeSet T keySet := by
  unfold addKeys buildNodeSet
  generalize NodeSet.empty = ns
  induction keySet generalizing ns pool with
  | nil => rfl
  | cons key keySet ih => exact ih _ _

theorem addKeys_snd (pool : AList (fun _ : NodeID => KeyRec Pub)) (keySet : List Pub) :
    (addKeys T pool keySet).2 = keySet.foldl (incRef T) pool := by
  unfold addKeys
  generalize NodeSet.empty = ns
  induction keySet generalizing ns pool with
  | nil => rfl
  | cons key keySet ih => exact ih _ _

@[simp] theorem mem_buildNodeSet {keySet : List Pub} {n : NodeID} :
    n ∈ (buildNodeSet T keySet).ids ↔ ∃ key ∈ keySet, T.newNodeID key = n := by
  suffices ∀ ns : NodeSet,
      n ∈ (keySet.foldl (fun ns key => ns.add (T.newNodeID key)) ns).ids ↔
        n ∈ ns.ids ∨ ∃ key ∈ keySet, T.newNodeID key = n by
    simpa [buildNodeSet, NodeSet.empty] using this NodeSet.empty
  induction keySet with
  | nil => simp
  | cons key keySet ih =>
    intro ns
    rw [List.foldl_cons, ih]
    simp only [NodeSet.mem_add, List.mem_cons, exists_eq_or_imp]
    tauto

/-! ## What each operation does to the rounds -/

theorem dropRound_rounds {c c' : NodeSetCache Pub} {rID : UInt64} {s : Sets}
    (h : dropRound c rID s = some c') : c'.rounds = c.rounds.erase rID := by
  obtain ⟨pool, -, rfl⟩ := Option.map_eq_some'.1 h
  rfl

theorem purge_lookup {c c' : NodeSetCache Pub} {rID : UInt64} (h : c.purge rID = some c')
    (r : UInt64) : c'.rounds.lookup r = if r = rID then none else c.rounds.lookup r := by
  unfold purge at h
  split at h
  · rename_i hl
    cases h
    split_ifs with hr
    · rw [hr, hl]
    · rfl
  · rw [dropRound_rounds h]
    split_ifs with hr
    · rw [hr, AList.lookup_erase]
    · exact AList.lookup_erase_ne hr

/-- The rounds a run of sweep steps over the entries `es` leaves: those of `es` whose
distance to `round` exceeds 5 are gone, the others are untouched. -/
theorem foldlM_sweep_lookup (round : UInt64) :
    ∀ (es : List (Σ _ : UInt64, Sets)) (c c' : NodeSetCache Pub),
      es.foldlM (fun c e => if round - e.1 ≤ 5 then some c else dropRound c e.1 e.2) c =
        some c' →
      ∀ r, c'.rounds.lookup r =
        if r ∈ es.map Sigma.fst ∧ ¬ round - r ≤ 5 then none else c.rounds.lookup r
  | [], c, c', h, r => by cases h; simp
  | e :: es, c, c', h, r => by
    obtain ⟨c₁, h₁, h₂⟩ := Option.bind_eq_some.1 h
    rw [foldlM_sweep_lookup round es c₁ c' h₂ r]
    have hc₁ : c₁.rounds.lookup r =
        if r = e.1 ∧ ¬ round - r ≤ 5 then none else c.rounds.lookup r := by
      dsimp only at h₁
      split at h₁
      · rename_i hpe
        cases h₁
        split_ifs with hr
        · exact absurd (by rw [hr.1]; exact hpe) hr.2
        · rfl
      · rw [dropRound_rounds h₁]
        split_ifs with hr
        · rw [hr.1, AList.lookup_erase]
        · by_cases he : r = e.1
          · rename_i hpe
            exact absurd (he ▸ hpe) (not_and.1 hr he)
          · exact AList.lookup_erase_ne he
    rw [hc₁]
    simp only [List.map_cons, List.mem_cons]
    split_ifs <;> first | rfl | (exfalso; tauto)

/-- **The sweep keeps exactly the rounds within distance 5** of `round`, in `uint64`
arithmetic. -/
theorem sweep_lookup {round : UInt64} {c c' : NodeSetCache Pub}
    (h : sweep round c = some c') (r : UInt64) :
    c'.rounds.lookup r = if round - r ≤ 5 then c.rounds.lookup r else none := by
  rw [foldlM_sweep_lookup round _ c c' h r]
  by_cases hp : round - r ≤ 5
  · rw [if_neg (fun h => h.2 hp), if_pos hp]
  · rw [if_neg hp]
    by_cases hm : r ∈ c.rounds
    · exact if_pos ⟨AList.mem_keys.1 hm, hp⟩
    · rw [AList.lookup_eq_none.2 hm]
      split_ifs <;> rfl

/-- **What `update` returns is the fresh computation**, whatever the cache held. -/
theorem update_result {nsIntf : NodeSetCacheInterface Pub} {c c' : NodeSetCache Pub}
    {round : UInt64} {r : Except Error Sets} (h : update T nsIntf c round = some (c', r)) :
    r = freshSets T nsIntf round := by
  unfold update at h
  unfold freshSets
  split at h
  · cases h; rfl
  · split_ifs at h ⊢
    · cases h; rfl
    · split at h
      · cases h; rename_i hc; simp [hc]
      · obtain ⟨_, -, h⟩ := Option.map_eq_some'.1 h
        cases h
        rename_i hc
        simp [hc, addKeys_fst]

/-- **What `update` does to the rounds**: nothing when it fails; when it succeeds, the
fresh sets are stored under the round and the sweep applied. -/
theorem update_rounds {nsIntf : NodeSetCacheInterface Pub} {c c' : NodeSetCache Pub}
    {round : UInt64} {r : Except Error Sets} (h : update T nsIntf c round = some (c', r)) :
    (∀ e, r = .error e → c'.rounds = c.rounds) ∧
      ∀ s, r = .ok s → ∀ r', c'.rounds.lookup r' =
        if round - r' ≤ 5 then (c.rounds.insert round s).lookup r' else none := by
  unfold update at h
  split at h
  · cases h; exact ⟨fun _ _ => rfl, fun _ h => nomatch h⟩
  · split_ifs at h
    · cases h; exact ⟨fun _ _ => rfl, fun _ h => nomatch h⟩
    · split at h
      · cases h; exact ⟨fun _ _ => rfl, fun _ h => nomatch h⟩
      · obtain ⟨c₁, hs, h⟩ := Option.map_eq_some'.1 h
        cases h
        exact ⟨fun _ h => (nomatch h), fun s hs' r' => by
          cases hs'; exact sweep_lookup hs r'⟩

/-! ## The public operations -/

/-- `NodeSetCache.get`. -/
def get (c : NodeSetCache Pub) (round : UInt64) : Option Sets := c.rounds.lookup round

/-- `NodeSetCache.getOrUpdate`: the cached sets, or a fresh `update`. `Exists` and
`GetNodeSet` inline the same two steps. -/
def getOrUpdate (nsIntf : NodeSetCacheInterface Pub) (c : NodeSetCache Pub)
    (round : UInt64) : Option (NodeSetCache Pub × Except Error Sets) :=
  match c.get round with
  | some s => some (c, .ok s)
  | none => update T nsIntf c round

end NodeSetCache

/-- `NodeSetCache.Exists`. -/
def NodeSetCache.exists (nsIntf : NodeSetCacheInterface Pub) (c : NodeSetCache Pub)
    (round : UInt64) (nodeID : NodeID) : Option (NodeSetCache Pub × Except Error Bool) :=
  (c.getOrUpdate T nsIntf round).map fun r => (r.1, r.2.map fun s => decide (nodeID ∈ s.nodeSet.ids))

namespace NodeSetCache

/-- `NodeSetCache.GetNodeSet`, returning a clone of the node set. -/
def getNodeSet (nsIntf : NodeSetCacheInterface Pub) (c : NodeSetCache Pub)
    (round : UInt64) : Option (NodeSetCache Pub × Except Error NodeSet) :=
  (c.getOrUpdate T nsIntf round).map fun r => (r.1, r.2.map (·.nodeSet))

/-- `NodeSetCache.GetNotarySet`, returning a clone of the notary set. -/
def getNotarySet (nsIntf : NodeSetCacheInterface Pub) (c : NodeSetCache Pub)
    (round : UInt64) : Option (NodeSetCache Pub × Except Error (List NodeID)) :=
  (c.getOrUpdate T nsIntf round).map fun r => (r.1, r.2.map (·.notarySet))

/-- `NodeSetCache.Touch`: an `update`, whose sets are dropped. -/
def touch (nsIntf : NodeSetCacheInterface Pub) (c : NodeSetCache Pub) (round : UInt64) :
    Option (NodeSetCache Pub × Option Error) :=
  (update T nsIntf c round).map fun r =>
    (r.1, match r.2 with
      | .ok _ => none
      | .error e => some e)

/-- `NodeSetCache.GetPublicKey`: the key pool only, no provider call. -/
def getPublicKey (c : NodeSetCache Pub) (nodeID : NodeID) : Option Pub :=
  (c.keyPool.lookup nodeID).map (·.pubKey)

/-! ## Runs -/

/-- A call to the cache. -/
inductive Op
  /-- `Exists(round, nodeID)`. -/
  | «exists» (round : UInt64) (nodeID : NodeID)
  /-- `GetNodeSet(round)`. -/
  | getNodeSet (round : UInt64)
  /-- `GetNotarySet(round)`. -/
  | getNotarySet (round : UInt64)
  /-- `Touch(round)`. -/
  | touch (round : UInt64)
  /-- `Purge(round)`. -/
  | purge (round : UInt64)

/-- The cache after a call, given the provider's answers at the time; `none` if the
call panics. -/
def step (nsIntf : NodeSetCacheInterface Pub) (c : NodeSetCache Pub) :
    Op → Option (NodeSetCache Pub)
  | .exists round nodeID => (c.exists T nsIntf round nodeID).map Prod.fst
  | .getNodeSet round => (c.getNodeSet T nsIntf round).map Prod.fst
  | .getNotarySet round => (c.getNotarySet T nsIntf round).map Prod.fst
  | .touch round => (c.touch T nsIntf round).map Prod.fst
  | .purge round => c.purge round

/-- The number of keys the provider lists for a round, `0` for a `nil` node set. -/
def keysListed (nsIntf : NodeSetCacheInterface Pub) (round : UInt64) : ℕ :=
  ((nsIntf.nodeSet round).map List.length).getD 0

/-- **The references a call may take**: the `update` of its round takes one per key the
provider lists; `Purge` takes none. -/
def Op.refs (nsIntf : NodeSetCacheInterface Pub) : Op → ℕ
  | .exists round _ | .getNodeSet round | .getNotarySet round | .touch round =>
    keysListed nsIntf round
  | .purge _ => 0

/-- **The reachable caches**, and the references taken on the way: those `NewNodeSetCache`
leads to through calls that do not panic, each answered by a provider that `allowed` admits,
where `k` adds up the references the calls may take (`Op.refs`). With `allowed` true of every
provider, the answers are arbitrary and may change from call to call; with `(· = p)`, they
are the fixed answers of `p`. -/
inductive Reachable (allowed : NodeSetCacheInterface Pub → Prop) : ℕ → NodeSetCache Pub → Prop
  | new : Reachable allowed 0 new
  | step {k : ℕ} {c c' : NodeSetCache Pub} {nsIntf : NodeSetCacheInterface Pub} {op : Op} :
      Reachable allowed k c → allowed nsIntf → step T nsIntf c op = some c' →
        Reachable allowed (k + op.refs nsIntf) c'

/-- **What one call can do to the cache**: nothing, an `update` of some round, or a
`Purge`. Every invariant below is proved for these three cases only. -/
theorem step_cases {nsIntf : NodeSetCacheInterface Pub} {c c' : NodeSetCache Pub} {op : Op}
    (h : step T nsIntf c op = some c') :
    c' = c ∨ (∃ round r, update T nsIntf c round = some (c', r)) ∨
      ∃ round, c.purge round = some c' := by
  have hgu : ∀ round, (c.getOrUpdate T nsIntf round).map Prod.fst = some c' →
      c' = c ∨ ∃ round r, update T nsIntf c round = some (c', r) := by
    intro round hg
    unfold getOrUpdate at hg
    split at hg
    · exact .inl (Option.some.inj hg).symm
    · obtain ⟨⟨c₁, r⟩, hu, rfl⟩ := Option.map_eq_some'.1 hg
      exact .inr ⟨round, r, hu⟩
  cases op with
  | «exists» round nodeID =>
    simp only [step, NodeSetCache.exists, Option.map_map] at h
    exact (hgu round h).elim .inl (.inr ∘ .inl)
  | getNodeSet round =>
    simp only [step, getNodeSet, Option.map_map] at h
    exact (hgu round h).elim .inl (.inr ∘ .inl)
  | getNotarySet round =>
    simp only [step, getNotarySet, Option.map_map] at h
    exact (hgu round h).elim .inl (.inr ∘ .inl)
  | touch round =>
    simp only [step, touch, Option.map_map] at h
    obtain ⟨⟨c₁, r⟩, hu, rfl⟩ := Option.map_eq_some'.1 h
    exact .inr (.inl ⟨round, r, hu⟩)
  | purge round => exact .inr (.inr ⟨round, h⟩)

/-- A run of calls, each answered by its own provider. -/
def run (calls : List (NodeSetCacheInterface Pub × Op)) (c : NodeSetCache Pub) :
    Option (NodeSetCache Pub) :=
  calls.foldlM (fun c call => step T call.1 c call.2) c

/-- The references a run of calls may take. -/
def refsOf : List (NodeSetCacheInterface Pub × Op) → ℕ
  | [] => 0
  | call :: calls => call.2.refs call.1 + refsOf calls

/-- **A run that does not panic reaches a reachable cache**, with the references the run may
take added. -/
theorem reachable_run {allowed : NodeSetCacheInterface Pub → Prop} :
    ∀ {calls : List (NodeSetCacheInterface Pub × Op)} {k : ℕ} {c c' : NodeSetCache Pub},
      Reachable T allowed k c → (∀ call ∈ calls, allowed call.1) → run T calls c = some c' →
        Reachable T allowed (k + refsOf calls) c'
  | [], _, _, _, hc, _, h => by cases h; exact hc
  | call :: calls, k, c, c', hc, ha, h => by
    obtain ⟨c₁, h₁, h₂⟩ := Option.bind_eq_some.1 h
    have := reachable_run (.step hc (ha call (.head _)) h₁)
      (fun call' h' => ha call' (.tail _ h')) h₂
    rwa [refsOf, ← Nat.add_assoc]

end NodeSetCache
