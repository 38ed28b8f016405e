import Tangerine.NodeSetCache

/-!
# The key pool

Every cached round holds a reference to the record of each of its nodes, and `Purge`
and the sweep of `update` give the references back one `rec.refCnt--` at a time. The
pool keeps one half of what reference counting promises: every node of a cached
round has a record, whose count is at least the number of cached rounds that contain
the node (`KeysCovered`). That half is what makes every `rec.refCnt--` find a record,
so no call on a reachable cache panics (`step_progress`).

The count is a 64-bit `int`, so the half holds only while no count wraps around: the
invariant also bounds every count by the references the calls may have taken, and the
results hold while those stay below `2^64`. Past that, a count can wrap back to a small
value and reach zero while rounds still hold the node.

The other half, a count *equal* to the number of rounds, is not kept. `update` takes
one reference per key the provider lists, a listed key twice included; it takes them
before it reads the configuration, and keeps them when the configuration is missing;
and it replaces a round already cached without giving back the old round's
references. `refCnt_exceeds_rounds` runs each of the three paths, and
`update_cached_round_changes_cache` a second population of a cached round.

The invariant is stated through a demand `need : NodeID → ℕ` the pool must cover
(`Covers`), so that one lemma per operation on the pool (`incRef`, `decRef`) and one
per loop (`addKeys`, the release loop of `dropRound`, the sweep) carry it.
-/

variable {Pub : Type} (T : Committee Pub)

namespace NodeSetCache

/-- The count a pool records for a node, its 64 bits read as a natural number (the code
only adds and subtracts one and compares with zero, which do not read the sign), `0` when
the node has no record. -/
def refCount (pool : AList (fun _ : NodeID => KeyRec Pub)) (n : NodeID) : ℕ :=
  ((pool.lookup n).map (·.refCnt.toNat)).getD 0

/-- The number of cached rounds whose node set contains `n`. -/
def roundCount (rounds : AList (fun _ : UInt64 => Sets)) (n : NodeID) : ℕ :=
  rounds.entries.countP fun e => decide (n ∈ e.2.nodeSet.ids)

/-- **A pool covers a demand within `k`**: every node has at least the references `need`
asks for and at most `k`, and every record's count is positive. -/
def Covers (pool : AList (fun _ : NodeID => KeyRec Pub)) (need : NodeID → ℕ) (k : ℕ) : Prop :=
  ∀ n, need n ≤ refCount pool n ∧ refCount pool n ≤ k ∧ (n ∈ pool → 0 < refCount pool n)

/-- **The key-pool invariant within `k`**: the pool covers the references of the cached
rounds, and no count exceeds `k`. -/
def KeysCovered (k : ℕ) (c : NodeSetCache Pub) : Prop := Covers c.keyPool (roundCount c.rounds) k

/-! ## Counting references -/

section Pool

variable {pool : AList (fun _ : NodeID => KeyRec Pub)} {need : NodeID → ℕ} {k : ℕ}

theorem refCount_lt (pool : AList (fun _ : NodeID => KeyRec Pub)) (n : NodeID) :
    refCount pool n < 2 ^ 64 := by
  unfold refCount
  cases pool.lookup n with
  | none => exact Nat.two_pow_pos 64
  | some rec => exact rec.refCnt.isLt

theorem refCount_insert (m : NodeID) (rec : KeyRec Pub) (n : NodeID) :
    refCount (pool.insert m rec) n = if n = m then rec.refCnt.toNat else refCount pool n := by
  split_ifs with h
  · subst h; simp [refCount]
  · simp [refCount, AList.lookup_insert_ne h]

theorem refCount_erase (m n : NodeID) :
    refCount (pool.erase m) n = if n = m then 0 else refCount pool n := by
  split_ifs with h
  · subst h; simp [refCount]
  · simp [refCount, AList.lookup_erase_ne h]

theorem refCount_of_lookup {n : NodeID} {rec : KeyRec Pub} (h : pool.lookup n = some rec) :
    refCount pool n = rec.refCnt.toNat := by
  simp [refCount, h]

theorem Covers.mono {need' : NodeID → ℕ} {k' : ℕ} (h : Covers pool need k)
    (hle : ∀ n, need' n ≤ need n) (hk : k ≤ k') : Covers pool need' k' :=
  fun n => ⟨(hle n).trans (h n).1, (h n).2.1.trans hk, (h n).2.2⟩

/-- **`incRef` adds one reference to the key's node**, in 64-bit arithmetic. -/
theorem refCount_incRef (key : Pub) (n : NodeID) :
    refCount (incRef T pool key) n =
      (refCount pool n + if n = T.newNodeID key then 1 else 0) % 2 ^ 64 := by
  have hlt := refCount_lt pool n
  unfold incRef
  split <;> rename_i h <;> rw [refCount_insert] <;> split_ifs with hn
  · rw [hn, refCount_of_lookup h]; simp [BitVec.toNat_add]
  · omega
  · rw [hn, refCount, h]; simp
  · omega

theorem mem_incRef (key : Pub) (n : NodeID) :
    n ∈ incRef T pool key ↔ n = T.newNodeID key ∨ n ∈ pool := by
  unfold incRef
  split <;> exact AList.mem_insert _

/-- **`incRef` keeps the cover**, with the key's node asking one more, while the bound
`k + 1` fits in 64 bits. -/
theorem covers_incRef (key : Pub) (h : Covers pool need k) (hk : k + 1 < 2 ^ 64) :
    Covers (incRef T pool key) (fun n => need n + if n = T.newNodeID key then 1 else 0)
      (k + 1) := fun n => by
  obtain ⟨h₁, h₂, h₃⟩ := h n
  rw [refCount_incRef, mem_incRef]
  by_cases hn : n = T.newNodeID key
  · subst hn
    simp only [if_true, true_or, true_implies]
    omega
  · simp only [hn, if_false, false_or, Nat.add_zero, Nat.mod_eq_of_lt (refCount_lt pool n)]
    exact ⟨h₁, by omega, h₃⟩

/-- **Taking the references of a key list** adds to each node's count the number of
times the list names it, in 64-bit arithmetic. -/
theorem refCount_foldl_incRef (keySet : List Pub) (n : NodeID) :
    refCount (keySet.foldl (incRef T) pool) n =
      (refCount pool n + (keySet.map T.newNodeID).count n) % 2 ^ 64 := by
  induction keySet generalizing pool with
  | nil => simpa using (Nat.mod_eq_of_lt (refCount_lt pool n)).symm
  | cons key keySet ih =>
    rw [List.foldl_cons, ih, refCount_incRef]
    simp only [List.map_cons, List.count_cons, beq_iff_eq, @eq_comm _ (T.newNodeID key) n]
    split_ifs <;> omega

/-- **Taking the references of a key list** keeps the cover, with each node's demand
raised by the number of times the list names it, while the bound fits in 64 bits. -/
theorem Covers.foldl_incRef (keySet : List Pub) :
    ∀ {pool : AList (fun _ : NodeID => KeyRec Pub)} {need : NodeID → ℕ} {k : ℕ},
      Covers pool need k → k + keySet.length < 2 ^ 64 →
        Covers (keySet.foldl (incRef T) pool)
          (fun n => need n + (keySet.map T.newNodeID).count n) (k + keySet.length) := by
  induction keySet with
  | nil => intro _ _ _ h _; simpa using h
  | cons key keySet ih =>
    intro pool need k h hk
    rw [List.length_cons] at hk
    refine (ih (covers_incRef T key h (by omega)) (by omega)).mono (fun n => ?_) (by simp; omega)
    simp only [List.map_cons, List.count_cons, beq_iff_eq, @eq_comm _ (T.newNodeID key) n]
    split_ifs <;> omega

theorem toNat_sub_one {x : BitVec 64} (hx : 0 < x.toNat) : (x - 1).toNat = x.toNat - 1 := by
  rw [BitVec.toNat_sub]; simp; omega

/-- **`decRef` succeeds on a demanded node, and gives back one reference.** -/
theorem Covers.exists_decRef {n : NodeID}
    (h : Covers pool (fun m => need m + if m = n then 1 else 0) k) :
    ∃ pool', decRef pool n = some pool' ∧ Covers pool' need k := by
  have hn := h n
  simp only [if_true] at hn
  cases hl : pool.lookup n with
  | none => rw [refCount, hl] at hn; simp at hn
  | some rec =>
    rw [refCount_of_lookup hl] at hn
    have hsub := toNat_sub_one (x := rec.refCnt) (by omega)
    simp only [decRef, hl]
    split_ifs with hz <;> refine ⟨_, rfl, fun m => ?_⟩ <;> obtain ⟨h₁, h₂, h₃⟩ := h m
    · have h1 : rec.refCnt.toNat = 1 := by
        have := congrArg BitVec.toNat hz; rw [hsub] at this; simp at this; omega
      rw [refCount_erase, AList.mem_erase]
      by_cases hm : m = n
      · subst hm
        simp only [if_true]
        exact ⟨by omega, Nat.zero_le _, fun h' => absurd rfl h'.1⟩
      · simp only [hm, if_false, Nat.add_zero] at h₁ ⊢
        exact ⟨h₁, h₂, fun h' => h₃ h'.2⟩
    · have h2 : rec.refCnt.toNat ≠ 1 := fun h1 => hz (BitVec.eq_of_toNat_eq (by simp [hsub, h1]))
      rw [refCount_insert, AList.mem_insert]
      by_cases hm : m = n
      · subst hm
        rw [refCount_of_lookup hl] at h₂
        simp only [if_true, hsub]
        exact ⟨by omega, by omega, fun _ => by omega⟩
      · simp only [hm, if_false, false_or, Nat.add_zero] at h₁ ⊢
        exact ⟨h₁, h₂, h₃⟩

/-- **The release loop of `dropRound` succeeds** when the pool covers one more
reference per node of the list than the demand, and leaves the demand covered. -/
theorem Covers.exists_foldlM_decRef (ids : List NodeID)
    (h : Covers pool (fun m => need m + ids.count m) k) :
    ∃ pool', ids.foldlM decRef pool = some pool' ∧ Covers pool' need k := by
  induction ids generalizing pool with
  | nil => exact ⟨pool, rfl, by simpa using h⟩
  | cons n ids ih =>
    obtain ⟨pool₁, h₁, hc₁⟩ := @Covers.exists_decRef _ _ (fun m => need m + ids.count m) _ n
      (h.mono (fun m => by
        simp only [List.count_cons, beq_iff_eq, @eq_comm _ n m]; split_ifs <;> omega) le_rfl)
    obtain ⟨pool', h', hc'⟩ := ih hc₁
    exact ⟨pool', by simp [h₁, h'], hc'⟩

end Pool

/-! ## Counting rounds -/

section Rounds

variable {rounds : AList (fun _ : UInt64 => Sets)}

theorem roundCount_insert (r : UInt64) (s : Sets) (n : NodeID) :
    roundCount (rounds.insert r s) n =
      roundCount (rounds.erase r) n + if n ∈ s.nodeSet.ids then 1 else 0 := by
  have he : (rounds.erase r).entries = rounds.entries.kerase r := rfl
  simp [roundCount, AList.insert_entries, List.countP_cons, he]

theorem roundCount_erase {r : UInt64} {s : Sets} (h : rounds.lookup r = some s) (n : NodeID) :
    roundCount rounds n = roundCount (rounds.erase r) n + if n ∈ s.nodeSet.ids then 1 else 0 := by
  have hk : r ∈ rounds.entries.keys := AList.mem_keys.1 (AList.lookup_isSome.1 (by simp [h]))
  obtain ⟨s', l₁, l₂, -, he, hke⟩ := List.exists_of_kerase hk
  have hs : s' = s := by
    have : s' ∈ rounds.lookup r := AList.mem_lookup_iff.2 (by rw [he]; simp)
    rw [h] at this
    exact (Option.some.inj this).symm
  subst hs
  show List.countP _ rounds.entries = List.countP _ (rounds.entries.kerase r) + _
  rw [hke, he]
  simp only [List.countP_append, List.countP_cons, decide_eq_true_eq]
  omega

theorem roundCount_erase_le (r : UInt64) (n : NodeID) :
    roundCount (rounds.erase r) n ≤ roundCount rounds n :=
  (List.kerase_sublist r rounds.entries).countP_le _

end Rounds

/-! ## Every operation keeps the pool covering the rounds -/

section Invariant

variable {c : NodeSetCache Pub} {k : ℕ}

theorem KeysCovered.mono {k' : ℕ} (hc : KeysCovered k c) (hk : k ≤ k') : KeysCovered k' c :=
  Covers.mono hc (fun _ => le_rfl) hk

/-- **Dropping a cached round succeeds**: each of its nodes holds a reference. -/
theorem dropRound_covered {rID : UInt64} {s : Sets} (hc : KeysCovered k c)
    (hs : c.rounds.lookup rID = some s) :
    ∃ c', dropRound c rID s = some c' ∧ KeysCovered k c' := by
  obtain ⟨pool, hp, hcov⟩ := @Covers.exists_foldlM_decRef _ _ (roundCount (c.rounds.erase rID))
    _ s.nodeSet.ids (Covers.mono hc (fun n => le_of_eq <| by
      rw [roundCount_erase hs n, List.count_eq_of_nodup s.nodeSet.nodup]) le_rfl)
  exact ⟨⟨c.rounds.erase rID, pool⟩, by simp [dropRound, hp], hcov⟩

/-- The sweep loop succeeds over distinct entries that are cached as listed, each
dropped entry leaving the others in place. -/
theorem foldlM_sweep_covered (round : UInt64) :
    ∀ (es : List (Σ _ : UInt64, Sets)) (c : NodeSetCache Pub), KeysCovered k c →
      (es.map Sigma.fst).Nodup → (∀ e ∈ es, c.rounds.lookup e.1 = some e.2) →
      ∃ c', es.foldlM (fun c e => if round - e.1 ≤ 5 then some c else dropRound c e.1 e.2) c =
        some c' ∧ KeysCovered k c'
  | [], c, hc, _, _ => ⟨c, rfl, hc⟩
  | e :: es, c, hc, hnd, hl => by
    rw [List.map_cons, List.nodup_cons] at hnd
    have hes : ∀ c₁ : NodeSetCache Pub,
        (∀ r, r ≠ e.1 → c₁.rounds.lookup r = c.rounds.lookup r) →
        ∀ e' ∈ es, c₁.rounds.lookup e'.1 = some e'.2 := fun c₁ h e' he' =>
      (h _ fun h' => hnd.1 (h' ▸ List.mem_map_of_mem _ he')).trans (hl e' (.tail _ he'))
    by_cases hp : round - e.1 ≤ 5
    · obtain ⟨c', h', hc'⟩ := foldlM_sweep_covered round es c hc hnd.2 (hes c fun _ _ => rfl)
      exact ⟨c', by simp [hp, h'], hc'⟩
    · obtain ⟨c₁, h₁, hc₁⟩ := dropRound_covered hc (hl e (.head _))
      obtain ⟨c', h', hc'⟩ := foldlM_sweep_covered round es c₁ hc₁ hnd.2
        (hes c₁ fun r hr => by rw [dropRound_rounds h₁]; exact AList.lookup_erase_ne hr)
      exact ⟨c', by simp [hp, h₁, h'], hc'⟩

theorem sweep_covered (round : UInt64) (hc : KeysCovered k c) :
    ∃ c', sweep round c = some c' ∧ KeysCovered k c' :=
  foldlM_sweep_covered round _ c hc c.rounds.keys_nodup fun _ he => AList.mem_lookup_iff.2 he

/-- **`update` never panics, and keeps the invariant** while the references it takes fit in
64 bits: its references cover the round it stores, and its sweep drops only covered
rounds. -/
theorem update_covered (nsIntf : NodeSetCacheInterface Pub) (round : UInt64)
    (hc : KeysCovered k c) (hk : k + keysListed nsIntf round < 2 ^ 64) :
    ∃ c' r, update T nsIntf c round = some (c', r) ∧
      KeysCovered (k + keysListed nsIntf round) c' := by
  unfold update
  split
  · exact ⟨c, _, rfl, hc.mono (Nat.le_add_right _ _)⟩
  · rename_i keySet hn
    have hlen : keysListed nsIntf round = keySet.length := by simp [keysListed, hn]
    rw [hlen] at hk ⊢
    have hadd : Covers (addKeys T c.keyPool keySet).2
        (fun n => roundCount c.rounds n + (keySet.map T.newNodeID).count n)
        (k + keySet.length) := by
      rw [addKeys_snd]; exact hc.foldl_incRef T keySet hk
    split_ifs
    · exact ⟨c, _, rfl, hc.mono (Nat.le_add_right _ _)⟩
    · split
      · exact ⟨_, _, rfl, hadd.mono (fun n => Nat.le_add_right _ _) le_rfl⟩
      · rename_i cfg _
        let added := addKeys T c.keyPool keySet
        obtain ⟨c', hs, hc'⟩ := sweep_covered (c := ⟨c.rounds.insert round
            ⟨nsIntf.crs round, added.1, T.getSubSet added.1 cfg.notarySetSize.toNat
              (nsIntf.crs round)⟩, added.2⟩) round
          (hadd.mono (fun n => by
            have hle := @roundCount_erase_le c.rounds round n
            rw [roundCount_insert, addKeys_fst]
            split_ifs with hn
            · have := List.count_pos_iff.2 (List.mem_map.2 ((mem_buildNodeSet T).1 hn))
              omega
            · omega) le_rfl)
        exact ⟨c', _, Option.map_eq_some'.2 ⟨c', hs, rfl⟩, hc'⟩

theorem purge_covered (rID : UInt64) (hc : KeysCovered k c) :
    ∃ c', c.purge rID = some c' ∧ KeysCovered k c' := by
  unfold purge
  split
  · exact ⟨c, rfl, hc⟩
  · exact dropRound_covered hc ‹_›

theorem getOrUpdate_covered (nsIntf : NodeSetCacheInterface Pub) (round : UInt64)
    (hc : KeysCovered k c) (hk : k + keysListed nsIntf round < 2 ^ 64) :
    ∃ c' r, c.getOrUpdate T nsIntf round = some (c', r) ∧
      KeysCovered (k + keysListed nsIntf round) c' := by
  unfold getOrUpdate
  split
  · exact ⟨c, _, rfl, hc.mono (Nat.le_add_right _ _)⟩
  · exact update_covered T nsIntf round hc hk

/-- **Every call on a covered cache returns, to a covered cache**, while the references it
may take fit in 64 bits. -/
theorem step_covered (nsIntf : NodeSetCacheInterface Pub) (op : Op) (hc : KeysCovered k c)
    (hk : k + op.refs nsIntf < 2 ^ 64) :
    ∃ c', step T nsIntf c op = some c' ∧ KeysCovered (k + op.refs nsIntf) c' := by
  have hg : ∀ round, k + keysListed nsIntf round < 2 ^ 64 →
      ∃ c', (c.getOrUpdate T nsIntf round).map Prod.fst = some c' ∧
        KeysCovered (k + keysListed nsIntf round) c' := fun round hk => by
    obtain ⟨c', r, h, hc'⟩ := getOrUpdate_covered T nsIntf round hc hk
    exact ⟨c', by rw [h]; rfl, hc'⟩
  cases op with
  | «exists» round nodeID =>
    simpa only [step, NodeSetCache.exists, Option.map_map] using hg round hk
  | getNodeSet round => simpa only [step, getNodeSet, Option.map_map] using hg round hk
  | getNotarySet round => simpa only [step, getNotarySet, Option.map_map] using hg round hk
  | touch round =>
    obtain ⟨c', r, h, hc'⟩ := update_covered T nsIntf round hc hk
    exact ⟨c', by simp [step, touch, h], hc'⟩
  | purge round => exact purge_covered round hc

/-- **Every reachable cache keeps the invariant** while the references taken to reach it fit
in 64 bits. -/
theorem keysCovered_of_reachable {allowed : NodeSetCacheInterface Pub → Prop}
    (h : Reachable T allowed k c) : k < 2 ^ 64 → KeysCovered k c := by
  induction h with
  | new => exact fun _ n => by simp [refCount, roundCount, new]
  | step _ _ hs ih =>
    intro hk
    obtain ⟨c', h', hc'⟩ := step_covered T _ _ (ih (by omega)) hk
    rw [hs] at h'
    cases h'
    exact hc'

/-- **No call on a reachable cache panics**, whatever the provider answers, while the
references taken, the call's included, fit in 64 bits. -/
theorem step_progress {allowed : NodeSetCacheInterface Pub → Prop} (h : Reachable T allowed k c)
    (nsIntf : NodeSetCacheInterface Pub) (op : Op) (hk : k + op.refs nsIntf < 2 ^ 64) :
    ∃ c', step T nsIntf c op = some c' :=
  (step_covered T nsIntf op (keysCovered_of_reachable T h (by omega)) hk).imp fun _ h => h.1

/-- **`GetPublicKey` finds a key for every node of a cached round.** -/
theorem getPublicKey_isSome {allowed : NodeSetCacheInterface Pub → Prop}
    (h : Reachable T allowed k c) (hk : k < 2 ^ 64) {r : UInt64} {s : Sets}
    (hs : c.rounds.lookup r = some s) {n : NodeID} (hn : n ∈ s.nodeSet.ids) :
    (c.getPublicKey n).isSome := by
  have hcount : 0 < roundCount c.rounds n := by
    rw [roundCount_erase hs n, if_pos hn]; omega
  have hpos := (keysCovered_of_reachable T h hk n).1
  cases hl : c.keyPool.lookup n with
  | none => rw [refCount, hl] at hpos; simp at hpos; omega
  | some rec => simp [getPublicKey, hl]

/-- **The key pool covers the cached rounds.** In every cache reachable by calls whose
references fit in 64 bits, whatever the providers answered: every node holds at least as
many references as cached rounds contain it, and at most the references taken, so
`GetPublicKey` finds a key for every node of a cached round; and every next call whose
references still fit returns, so no `rec.refCnt--` of `Purge` or of the sweep of `update`
dereferences a missing record. -/
theorem keyPool_covers_rounds {allowed : NodeSetCacheInterface Pub → Prop}
    (h : Reachable T allowed k c) (hk : k < 2 ^ 64) :
    (∀ n, roundCount c.rounds n ≤ refCount c.keyPool n ∧ refCount c.keyPool n ≤ k) ∧
    (∀ r s, c.rounds.lookup r = some s → ∀ n ∈ s.nodeSet.ids, (c.getPublicKey n).isSome) ∧
    ∀ nsIntf op, k + op.refs nsIntf < 2 ^ 64 → ∃ c', step T nsIntf c op = some c' := by
  have hc := keysCovered_of_reachable T h hk
  exact ⟨fun n => ⟨(hc n).1, (hc n).2.1⟩, fun _ _ hs _ hn => getPublicKey_isSome T h hk hs hn,
    fun nsIntf op hk' => step_progress T h nsIntf op hk'⟩

end Invariant

/-- A committee over keys that are their own node identities, with the whole node set
as notary set. -/
def hashCommittee : Committee Hash := ⟨fun h => ⟨h⟩, fun ns _ _ => ns.ids⟩

/-- A provider that answers every round with the same keys and configuration, and a
non-zero CRS. -/
def constProvider (keys : List Hash) (cfg : Option Config) : NodeSetCacheInterface Hash :=
  ⟨fun _ => cfg, fun _ => Hash.skip, fun _ => some keys⟩

/-- After `Touch(0)` twice, the round's node holds at least one reference and has a key. -/
theorem keyPool_covers_rounds_touches :
    ∃ c, run hashCommittee [(constProvider [Hash.skip] (some ⟨1⟩), .touch 0),
        (constProvider [Hash.skip] (some ⟨1⟩), .touch 0)] new = some c ∧
      roundCount c.rounds ⟨Hash.skip⟩ ≤ refCount c.keyPool ⟨Hash.skip⟩ ∧
      (c.getPublicKey ⟨Hash.skip⟩).isSome := by
  have h := keyPool_covers_rounds hashCommittee (@reachable_run _ hashCommittee (fun _ => True)
    [(constProvider [Hash.skip] (some ⟨1⟩), .touch 0),
      (constProvider [Hash.skip] (some ⟨1⟩), .touch 0)] _ _ _ .new (fun _ _ => trivial) rfl)
    (by decide)
  exact ⟨_, rfl, (h.1 _).1, h.2.1 0 _ rfl _ (by decide)⟩

/-! ## Where the count runs ahead of the rounds -/

/-- The reference count of a node and the number of cached rounds that contain it,
after a run from `NewNodeSetCache`. -/
def countsAfter (calls : List (NodeSetCacheInterface Hash × Op)) (n : NodeID) :
    Option (ℕ × ℕ) :=
  (run hashCommittee calls new).map fun c => (refCount c.keyPool n, roundCount c.rounds n)

/-- **The count exceeds the rounds on each of three paths**: a second `Touch` of a
cached round, a `Touch` whose configuration is missing (a record left for a node of no
round), and a provider listing one key twice, whose extra reference outlives `Purge`. -/
theorem refCnt_exceeds_rounds :
    countsAfter [(constProvider [Hash.skip] (some ⟨1⟩), .touch 0),
      (constProvider [Hash.skip] (some ⟨1⟩), .touch 0)] ⟨Hash.skip⟩ = some (2, 1) ∧
    countsAfter [(constProvider [Hash.skip] none, .touch 0)] ⟨Hash.skip⟩ = some (1, 0) ∧
    countsAfter [(constProvider [Hash.skip, Hash.skip] (some ⟨1⟩), .touch 0),
      (constProvider [Hash.skip, Hash.skip] (some ⟨1⟩), .purge 0)] ⟨Hash.skip⟩ =
      some (1, 0) := by
  decide

/-- **Populating a cached round again changes the cache**: a second `Touch(0)` takes a
second reference to the round's key, and `Touch(1)` after `Touch(1)`, `Touch(6)` drops
round 6, since `1 - 6` wraps around to more than 5. -/
theorem update_cached_round_changes_cache :
    (run hashCommittee [(constProvider [Hash.skip] (some ⟨1⟩), .touch 0)] new).map
        (fun c => (refCount c.keyPool ⟨Hash.skip⟩, c.rounds.keys)) = some (1, [0]) ∧
    (run hashCommittee [(constProvider [Hash.skip] (some ⟨1⟩), .touch 0),
        (constProvider [Hash.skip] (some ⟨1⟩), .touch 0)] new).map
        (fun c => (refCount c.keyPool ⟨Hash.skip⟩, c.rounds.keys)) = some (2, [0]) ∧
    (run hashCommittee [(constProvider [Hash.skip] (some ⟨1⟩), .touch 1),
        (constProvider [Hash.skip] (some ⟨1⟩), .touch 6)] new).map
        (fun c => c.rounds.keys) = some [6, 1] ∧
    (run hashCommittee [(constProvider [Hash.skip] (some ⟨1⟩), .touch 1),
        (constProvider [Hash.skip] (some ⟨1⟩), .touch 6),
        (constProvider [Hash.skip] (some ⟨1⟩), .touch 1)] new).map
        (fun c => c.rounds.keys) = some [1] := by
  decide

/-! ## What a failed `update` leaves -/

/-- **`update` fails exactly on a missing node set, CRS or configuration**, in the
order it reads them. -/
theorem freshSets_error_iff (nsIntf : NodeSetCacheInterface Pub) (round : UInt64) :
    (∃ e, freshSets T nsIntf round = .error e) ↔ nsIntf.nodeSet round = none ∨
      nsIntf.crs round = Hash.zero ∨ nsIntf.configuration round = none := by
  cases hn : nsIntf.nodeSet round <;> cases hf : nsIntf.configuration round <;>
    by_cases hc : nsIntf.crs round = Hash.zero <;> simp [freshSets, hn, hf, hc]

/-- **What a failed `update` leaves.** Whatever the cache holds and the provider answers,
`update(R)` fails exactly when `NodeSet(R)` is `nil`, `CRS(R)` is zero or
`Configuration(R)` is `nil`: an empty node set is accepted. A failure on the node set
or the CRS leaves the cache as it was. A failure on the configuration leaves the rounds
but not the key pool, where each node holds one more reference per time the provider
lists its key, in 64-bit arithmetic. -/
theorem update_error_iff {nsIntf : NodeSetCacheInterface Pub} {c c' : NodeSetCache Pub}
    {round : UInt64} {r : Except Error Sets} (h : update T nsIntf c round = some (c', r)) :
    ((∃ e, r = .error e) ↔ nsIntf.nodeSet round = none ∨ nsIntf.crs round = Hash.zero ∨
      nsIntf.configuration round = none) ∧
    (nsIntf.nodeSet round = none ∨ nsIntf.crs round = Hash.zero → c' = c) ∧
    ∀ keySet, nsIntf.nodeSet round = some keySet → nsIntf.crs round ≠ Hash.zero →
      nsIntf.configuration round = none → c'.rounds = c.rounds ∧
        ∀ n, refCount c'.keyPool n =
          (refCount c.keyPool n + (keySet.map T.newNodeID).count n) % 2 ^ 64 := by
  refine ⟨update_result T h ▸ freshSets_error_iff T nsIntf round, fun hnc => ?_,
    fun keySet hn hc hf => ?_⟩
  · rcases hnc with hn | hc
    · simp only [update, hn, Option.some.injEq, Prod.mk.injEq] at h
      exact h.1.symm
    · cases hn : nsIntf.nodeSet round <;> simp [update, hn, hc] at h <;> exact h.1.symm
  · simp only [update, hn, hc, if_false, hf, Option.some.injEq, Prod.mk.injEq] at h
    obtain ⟨rfl, -⟩ := h
    exact ⟨rfl, fun n => by rw [addKeys_snd]; exact refCount_foldl_incRef T keySet n⟩

/-- A `Touch(0)` on a new cache whose configuration is missing: the call fails, caches
no round, and leaves a reference to the listed key. -/
theorem update_error_iff_config_missing :
    ∃ c' r, update hashCommittee (constProvider [Hash.skip] none) new 0 = some (c', r) ∧
      (((∃ e, r = .error e) ↔ (constProvider [Hash.skip] none).nodeSet 0 = none ∨
          (constProvider [Hash.skip] none).crs 0 = Hash.zero ∨
          (constProvider [Hash.skip] none).configuration 0 = none) ∧
        ((constProvider [Hash.skip] none).nodeSet 0 = none ∨
          (constProvider [Hash.skip] none).crs 0 = Hash.zero → c' = new) ∧
        ∀ keySet, (constProvider [Hash.skip] none).nodeSet 0 = some keySet →
          (constProvider [Hash.skip] none).crs 0 ≠ Hash.zero →
          (constProvider [Hash.skip] none).configuration 0 = none →
          c'.rounds = (new : NodeSetCache Hash).rounds ∧
            ∀ n, refCount c'.keyPool n = (refCount (new : NodeSetCache Hash).keyPool n +
              (keySet.map hashCommittee.newNodeID).count n) % 2 ^ 64) :=
  ⟨_, _, rfl, update_error_iff hashCommittee rfl⟩

end NodeSetCache
