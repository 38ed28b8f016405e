import Tangerine.BigFloat
import Tangerine.BlockRLP

/-!
# The block reward of the `Dexcon` engine

`Finalize` credits the coinbase of every non-empty block outside an extended round with
`calculateBlockReward(round)`: the mining velocity times the total stake times the round's
duration, over a year's milliseconds and the number of blocks in a round,

`miningVelocity · totalStaked · (roundLength · minBlockInterval) / (86400·1000·365 · roundLength)`,

computed in `big.Float`, truncated to an integer and divided as `big.Int`s.

The round length cancels, so the reward is meant to be
`miningVelocity · totalStaked · minBlockInterval / 31536000000`. Five roundings to 53 or
to at least 64 bits, the truncation and the integer division keep the reward within a
relative `2^-51` and two wei of that value, whatever the stake and the configuration, for
a nonnegative velocity and stake and a round length in `(0, 2^63)`
(`calculateBlockReward_spec`). The divisor is built with `int64(blocksPerRound)`: a round
length of `0` divides by zero and panics, and one of `2^63` or more wraps around to a
negative divisor, which makes the reward nonpositive.
-/

namespace Dexcon

/-- The fields of `params.DexconConfig` that `calculateBlockReward` reads. -/
structure DexconConfig where
  /-- `MiningVelocity`, a `float32`. -/
  miningVelocity : Float32Value
  /-- `RoundLength`, in blocks. -/
  roundLength : UInt64
  /-- `MinBlockInterval`, in milliseconds. -/
  minBlockInterval : UInt64

/-- What `calculateBlockReward` reads of a `vm.GovernanceState`: its `Configuration()`
and its `TotalStaked()`. -/
structure GovernanceState where
  /-- `gs.Configuration()`. -/
  configuration : DexconConfig
  /-- `gs.TotalStaked()`. -/
  totalStaked : ℤ

/-- `GovernanceStateFetcher`: `GetConfigState(round)`, `none` where it returns an error. -/
structure GovernanceStateFetcher where
  /-- `GetConfigState(round)`. -/
  getConfigState : UInt64 → Option GovernanceState

/-- `(*Dexcon).calculateBlockReward(round)`; `none` where it panics, on an error of
`GetConfigState` or a zero divisor in `big.Int.Div`. `big.Int.Div` is Euclidean division,
as `/` on `ℤ` is. -/
def calculateBlockReward (fetcher : GovernanceStateFetcher) (round : UInt64) : Option ℤ := do
  let gs ← fetcher.getConfigState round
  let config := gs.configuration
  let blocksPerRound := config.roundLength
  let roundInterval := BigFloat.mul (BigFloat.newFloat (float64OfUInt64 blocksPerRound))
    (BigFloat.newFloat (float64OfUInt64 config.minBlockInterval))
  let numerator := (BigFloat.mul (BigFloat.mul (BigFloat.newFloat config.miningVelocity.toFloat64)
    (BigFloat.setInt gs.totalStaked)) roundInterval).int
  let divisor := 86400 * 1000 * 365 * int64Of blocksPerRound
  if divisor = 0 then none else some (numerator / divisor)

/-! ## The roundings -/

/-- `big.NewFloat(float64(n))` is `n` rounded to 53 bits. -/
theorem newFloat_float64OfUInt64 (n : UInt64) :
    BigFloat.newFloat (float64OfUInt64 n) = BigFloat.round ⟨false, n.toNat, 0, 53⟩ := by
  simp only [BigFloat.newFloat, float64OfUInt64, BigFloat.round, zero_add]

theorem newFloat_float64OfUInt64_bound (n : UInt64) :
    |(BigFloat.newFloat (float64OfUInt64 n)).toRat - n.toNat| ≤ (2 ^ 53)⁻¹ * n.toNat := by
  have := BigFloat.round_bound ⟨false, n.toNat, 0, 53⟩
  simpa [newFloat_float64OfUInt64, BigFloat.toRat, signOf] using this

theorem toRat_newFloat_toFloat64 (v : Float32Value) :
    (BigFloat.newFloat v.toFloat64).toRat = v.toRat := rfl

theorem int64Of_of_lt {n : UInt64} (h : n.toNat < 2 ^ 63) : int64Of n = n.toNat := by
  simp only [int64Of]; rw [if_pos (by simpa using h)]

theorem int64Of_neg {n : UInt64} (h : 2 ^ 63 ≤ n.toNat) : int64Of n < 0 := by
  have : n.toNat < 2 ^ 64 := n.toNat_lt_size
  simp only [int64Of]; rw [if_neg (by simp only [Nat.reducePow] at h; omega)]; omega

/-- **The numerator approximates `v · S · roundLength · minBlockInterval`** within a
relative `2^-51`, for a nonnegative velocity and stake. -/
theorem numerator_bound (v : Float32Value) (S : ℤ) (rl mbi : UInt64) (hv : v.neg = false)
    (hS : 0 ≤ S) :
    let u := BigFloat.mul (BigFloat.mul (BigFloat.newFloat v.toFloat64) (BigFloat.setInt S))
      (BigFloat.mul (BigFloat.newFloat (float64OfUInt64 rl))
        (BigFloat.newFloat (float64OfUInt64 mbi)))
    u.neg = false ∧
      |u.toRat - v.toRat * S * (rl.toNat * mbi.toNat)| ≤
        (2 ^ 51)⁻¹ * (v.toRat * S * (rl.toNat * mbi.toNat)) := by
  intro u
  set a := BigFloat.newFloat (float64OfUInt64 rl)
  set b := BigFloat.newFloat (float64OfUInt64 mbi)
  set t := BigFloat.mul (BigFloat.newFloat v.toFloat64) (BigFloat.setInt S)
  have hv₀ : 0 ≤ v.toRat := by
    simp only [Float32Value.toRat, hv, signOf, Bool.false_eq_true, if_false, one_mul]
    positivity
  have hvS : 0 ≤ v.toRat * S := mul_nonneg hv₀ (by exact_mod_cast hS)
  have hrm : (0 : ℚ) ≤ rl.toNat * mbi.toNat := by positivity
  have h64 (p : ℕ) (hp : 64 ≤ p) (y : ℚ) (hy : 0 ≤ y) : (2 ^ p)⁻¹ * y ≤ (2 ^ 64)⁻¹ * y :=
    mul_le_mul_of_nonneg_right (inv_pow_le_inv_pow_of_le one_le_two hp) hy
  -- `roundLength · minBlockInterval`, as `float64`s and their product at 53 bits
  have hab := BigFloat.relErr_mul (newFloat_float64OfUInt64_bound rl)
    (newFloat_float64OfUInt64_bound mbi) (Nat.cast_nonneg _) (Nat.cast_nonneg _) (by norm_num)
  have hmab : |(BigFloat.mul a b).toRat - a.toRat * b.toRat| ≤
      (2 ^ 53)⁻¹ * |a.toRat * b.toRat| := BigFloat.mul_bound a b
  have hri := BigFloat.relErr_round hab hmab hrm (by norm_num)
  -- `v · S`, at a precision of at least 64 bits
  have ht : |t.toRat - v.toRat * S| ≤ (2 ^ 64)⁻¹ * (v.toRat * S) := by
    have := BigFloat.mul_bound (BigFloat.newFloat v.toFloat64) (BigFloat.setInt S)
    rw [toRat_newFloat_toFloat64, BigFloat.toRat_setInt, abs_of_nonneg hvS] at this
    exact this.trans (h64 _ (by simp [BigFloat.newFloat, BigFloat.setInt]) _ hvS)
  -- their product, at a precision of at least 64 bits
  have htri := BigFloat.relErr_mul ht hri hvS hrm (by norm_num)
  have hu : |u.toRat - t.toRat * (BigFloat.mul a b).toRat| ≤
      (2 ^ 64)⁻¹ * |t.toRat * (BigFloat.mul a b).toRat| :=
    (BigFloat.mul_bound t _).trans (h64 _ (by simp [t, BigFloat.newFloat, BigFloat.setInt]) _
      (abs_nonneg _))
  refine ⟨by simp [u, t, a, b, BigFloat.newFloat, BigFloat.setInt, float64OfUInt64,
    Float32Value.toFloat64, hv, hS], ?_⟩
  refine (BigFloat.relErr_round htri hu (mul_nonneg hvS hrm) (by norm_num)).trans ?_
  exact mul_le_mul_of_nonneg_right (by norm_num) (mul_nonneg hvS hrm)

/-- **Truncating, then dividing by `D`**, as `numerator / divisor` does: a value within a
relative `2^-51` of `E · D` gives an integer within `E / 2^51 + 2` of `E`. -/
theorem truncDiv_bound (u : BigFloat) (hneg : u.neg = false) {D : ℤ} (hD : 0 < D) {E : ℚ}
    (hu : |u.toRat - E * D| ≤ (2 ^ 51)⁻¹ * (E * D)) :
    |((u.int / D : ℤ) : ℚ) - E| ≤ E / 2 ^ 51 + 2 := by
  set r := u.int / D
  obtain ⟨hu₁, hu₂⟩ := abs_le.1 hu
  -- `Int` truncates `u`, and `/` is Euclidean division by `D > 0`
  obtain ⟨hN₁, hN₂⟩ := BigFloat.int_spec u hneg
  have h₁ : (r : ℚ) * D ≤ u.int := by exact_mod_cast Int.ediv_mul_le u.int hD.ne'
  have h₂ : (u.int : ℚ) < (r + 1) * D := by exact_mod_cast Int.lt_ediv_add_one_mul_self u.int hD
  have hD₁ : (1 : ℚ) ≤ D := by exact_mod_cast hD
  have hup : (r : ℚ) * D ≤ (E + (2 ^ 51)⁻¹ * E) * D := by
    rw [add_mul, mul_assoc]; linarith only [h₁, hN₁, hu₂]
  have hlo : (E - (2 ^ 51)⁻¹ * E - 2) * D < r * D := by
    rw [sub_mul, sub_mul, mul_assoc]; rw [add_mul, one_mul] at h₂
    linarith only [h₂, hN₂, hu₁, hD₁]
  have hD₀ : (0 : ℚ) < D := zero_lt_one.trans_le hD₁
  have hup' := le_of_mul_le_mul_right hup hD₀
  have hlo' := lt_of_mul_lt_mul_right hlo hD₀.le
  rw [abs_le, div_eq_inv_mul _ ((2 : ℚ) ^ 51)]
  constructor <;> linarith only [hup', hlo']

/-! ## The reward -/

/-- **The block reward.** For a stake `S ≥ 0` and a mining velocity `v ≥ 0` of the
configuration `GetConfigState(round)` returns, let
`E = v · S · minBlockInterval / 31536000000`, the reward with the round length cancelled.
A round length of `0` makes `calculateBlockReward` panic on a division by zero. A round
length in `(0, 2^63)` gives a reward within `E / 2^51 + 2` of `E`. A round length of
`2^63` or more wraps around in `int64(blocksPerRound)` to a negative divisor, and the reward
is at most `0`. -/
theorem calculateBlockReward_spec (fetcher : GovernanceStateFetcher) (round : UInt64)
    (gs : GovernanceState) (h : fetcher.getConfigState round = some gs)
    (hv : gs.configuration.miningVelocity.neg = false) (hS : 0 ≤ gs.totalStaked) :
    (gs.configuration.roundLength = 0 → calculateBlockReward fetcher round = none) ∧
    (0 < gs.configuration.roundLength.toNat → gs.configuration.roundLength.toNat < 2 ^ 63 →
      ∃ reward, calculateBlockReward fetcher round = some reward ∧
        |(reward : ℚ) - gs.configuration.miningVelocity.toRat * gs.totalStaked *
            gs.configuration.minBlockInterval.toNat / 31536000000| ≤
          gs.configuration.miningVelocity.toRat * gs.totalStaked *
            gs.configuration.minBlockInterval.toNat / 31536000000 / 2 ^ 51 + 2) ∧
    (2 ^ 63 ≤ gs.configuration.roundLength.toNat →
      ∃ reward, calculateBlockReward fetcher round = some reward ∧ reward ≤ 0) := by
  obtain ⟨⟨v, rl, mbi⟩, S⟩ := gs
  obtain ⟨hneg, hu⟩ := numerator_bound v S rl mbi hv hS
  simp only at hv hS hneg hu ⊢
  set u := BigFloat.mul (BigFloat.mul (BigFloat.newFloat v.toFloat64) (BigFloat.setInt S))
    (BigFloat.mul (BigFloat.newFloat (float64OfUInt64 rl))
      (BigFloat.newFloat (float64OfUInt64 mbi)))
  simp only [calculateBlockReward, h, Option.bind_eq_bind, Option.some_bind]
  refine ⟨fun h0 => ?_, fun hpos hlt => ?_, fun hge => ?_⟩
  · simp [h0, int64Of]
  · have hD : (0 : ℤ) < 31536000000 * rl.toNat := by
      have : (0 : ℤ) < rl.toNat := by exact_mod_cast hpos
      omega
    rw [int64Of_of_lt hlt, show (86400 * 1000 * 365 : ℤ) = 31536000000 by norm_num,
      if_neg hD.ne']
    refine ⟨_, rfl, truncDiv_bound u hneg hD ?_⟩
    have hX : v.toRat * S * (rl.toNat * mbi.toNat) =
        v.toRat * S * mbi.toNat / 31536000000 * ((31536000000 * rl.toNat : ℤ) : ℚ) := by
      push_cast; ring
    rwa [hX] at hu
  · have hd : 86400 * 1000 * 365 * int64Of rl < 0 := by
      have := int64Of_neg hge; omega
    rw [if_neg hd.ne]
    exact ⟨_, rfl, Int.ediv_nonpos (BigFloat.int_nonneg u hneg) hd.le⟩

/-- The configuration of the engine's test suite: a velocity of `0.1875`, 3600 blocks a
round, a second a block, and a stake of `10^18`. -/
theorem calculateBlockReward_spec_testSuite :
    ∃ (fetcher : GovernanceStateFetcher) (gs : GovernanceState),
      fetcher.getConfigState 0 = some gs ∧ gs.configuration.miningVelocity.neg = false ∧
      0 ≤ gs.totalStaked ∧
      (gs.configuration.roundLength = 0 → calculateBlockReward fetcher 0 = none) ∧
      (0 < gs.configuration.roundLength.toNat → gs.configuration.roundLength.toNat < 2 ^ 63 →
        ∃ reward, calculateBlockReward fetcher 0 = some reward ∧
          |(reward : ℚ) - gs.configuration.miningVelocity.toRat * gs.totalStaked *
              gs.configuration.minBlockInterval.toNat / 31536000000| ≤
            gs.configuration.miningVelocity.toRat * gs.totalStaked *
              gs.configuration.minBlockInterval.toNat / 31536000000 / 2 ^ 51 + 2) ∧
      (2 ^ 63 ≤ gs.configuration.roundLength.toNat →
        ∃ reward, calculateBlockReward fetcher 0 = some reward ∧ reward ≤ 0) :=
  ⟨⟨fun _ => some ⟨⟨⟨false, 3, -4, by decide, by decide, by decide⟩, 3600, 1000⟩, 10 ^ 18⟩⟩,
    _, rfl, rfl, by decide, calculateBlockReward_spec _ 0 _ rfl rfl (by decide)⟩

/-- The reward the engine's test suite expects for that configuration. -/
example : calculateBlockReward
    ⟨fun _ => some ⟨⟨⟨false, 3, -4, by decide, by decide, by decide⟩, 3600, 1000⟩, 10 ^ 18⟩⟩ 0 =
      some 5945585996 := by
  decide

end Dexcon
