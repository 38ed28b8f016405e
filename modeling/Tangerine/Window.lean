import Mathlib.Data.UInt
import Tangerine.KeyPool

/-!
# The window of cached rounds

The sweep at the end of a successful `update` keeps only the rounds within distance 5
below the round just stored, the distance taken in `uint64` arithmetic. So at every
reachable state some round `R` has every cached round among `R`, `R - 1`, …, `R - 5`
(`InWindow`), whatever order the rounds were asked in: a round asked after larger ones
sends them out, its distance to them wrapping around. Hence at most six rounds are
cached.
-/

namespace NodeSetCache

variable {Pub : Type} (T : Committee Pub) {c c' : NodeSetCache Pub}

/-- **The window invariant**: every cached round lies within distance 5 below some
round `R`. -/
def InWindow (c : NodeSetCache Pub) : Prop :=
  ∃ R : UInt64, ∀ r ∈ c.rounds, R - r ≤ 5

theorem InWindow.update {nsIntf : NodeSetCacheInterface Pub} {round : UInt64}
    {res : Except Error Sets} (hw : InWindow c) (h : update T nsIntf c round = some (c', res)) :
    InWindow c' := by
  obtain ⟨herr, hok⟩ := update_rounds T h
  cases res with
  | error e => rw [InWindow, herr e rfl]; exact hw
  | ok s =>
    refine ⟨round, fun r hr => ?_⟩
    by_contra hn
    exact AList.lookup_eq_none.1 (by rw [hok s rfl r, if_neg hn]) hr

theorem InWindow.purge {rID : UInt64} (hw : InWindow c) (h : c.purge rID = some c') :
    InWindow c' := by
  obtain ⟨R, hR⟩ := hw
  refine ⟨R, fun r hr => hR r ?_⟩
  rw [← AList.lookup_isSome] at hr ⊢
  rw [purge_lookup h r] at hr
  split_ifs at hr
  · simp at hr
  · exact hr

theorem inWindow_of_reachable {allowed : NodeSetCacheInterface Pub → Prop} {k : ℕ}
    (h : Reachable T allowed k c) : InWindow c := by
  induction h with
  | new => exact ⟨0, fun r hr => by simp [new] at hr⟩
  | step _ _ hs hw =>
    obtain rfl | ⟨round, res, hu⟩ | ⟨round, hp⟩ := step_cases T hs
    · exact hw
    · exact hw.update T hu
    · exact hw.purge hp

/-- **A window holds at most six rounds**: `r ↦ R - r` sends the cached rounds, one to
one, into `0, …, 5`. -/
theorem InWindow.length_keys_le (hw : InWindow c) : c.rounds.keys.length ≤ 6 := by
  obtain ⟨R, hR⟩ := hw
  have hnd : (c.rounds.keys.map fun r => (R - r).toNat).Nodup :=
    c.rounds.keys_nodup.map_on fun _ _ _ _ h => sub_right_inj.1 (UInt64.toNat.inj h)
  have hsub : (c.rounds.keys.map fun r => (R - r).toNat) ⊆ List.range 6 := by
    intro d hd
    obtain ⟨r, hr, rfl⟩ := List.mem_map.1 hd
    have h5 := hR r (AList.mem_keys.1 hr)
    rw [UInt64.le_def, BitVec.le_def] at h5
    exact List.mem_range.2 (Nat.lt_succ_of_le h5)
  simpa using (hnd.subperm hsub).length_le

/-- **At most six rounds are cached** in every reachable state, whatever the provider
answers and in whatever order the rounds are asked. -/
theorem rounds_length_le_six {allowed : NodeSetCacheInterface Pub → Prop} {k : ℕ}
    (h : Reachable T allowed k c) : c.rounds.keys.length ≤ 6 :=
  (inWindow_of_reachable T h).length_keys_le

/-- Six consecutive `Touch` calls fill the window. -/
theorem rounds_length_le_six_touches :
    ∃ c, run hashCommittee ((List.range 6).map fun r =>
        (constProvider [Hash.skip] (some ⟨1⟩), Op.touch r.toUInt64)) new = some c ∧
      c.rounds.keys.length ≤ 6 :=
  ⟨_, rfl, @rounds_length_le_six _ hashCommittee _ (fun _ => True) _
    (@reachable_run _ hashCommittee _ ((List.range 6).map fun r : ℕ =>
      (constProvider [Hash.skip] (some ⟨1⟩), Op.touch r.toUInt64)) _ _ _ .new
      (fun _ _ => trivial) rfl)⟩

example :
    ((run hashCommittee ((List.range 6).map fun r =>
        (constProvider [Hash.skip] (some ⟨1⟩), Op.touch r.toUInt64)) new).map
      fun c => c.rounds.keys) = some [5, 4, 3, 2, 1, 0] := by
  decide

end NodeSetCache
