import Mathlib.Algebra.Order.Field.Rat
import Mathlib.Algebra.Order.Field.Power
import Mathlib.Tactic.Linarith
import Mathlib.Tactic.NormNum
import Mathlib.Tactic.Ring
import Mathlib.Tactic.Positivity
import Mathlib.Tactic.Qify

/-!
# The arithmetic of `math/big.Float`

`calculateBlockReward` computes in `big.Float`. Every operation it uses computes its exact
result and rounds it to the precision of the receiver, to nearest with ties to even, the
default `RoundingMode`; a fresh `new(big.Float)` has precision `0` and takes the larger
precision of the operands. `NewFloat(x)` has precision 53 and `SetInt(x)` the larger of 64
and the bit length of `x`, both exact. `Int` truncates toward zero.

Only finite values occur: a `big.Float` is modelled by its value `(-1)^neg · mant · 2^exp`
and its precision (`BigFloat`), not by Go's normalised mantissa, so that rounding is
arithmetic on natural numbers (`roundShift`). What a rounding can do is said once
(`round_bound`: the error is at most `2^-prec` of the value), and every multiplication's
error follows from it (`mul_bound`).
-/

namespace BigFloat

/-! ## Bit length -/

/-- The number of bits of `n`, with `fuel` steps. -/
def bitLenAux : ℕ → ℕ → ℕ
  | 0, _ => 0
  | fuel + 1, n => if n = 0 then 0 else bitLenAux fuel (n / 2) + 1

/-- `x.BitLen()`: the number of bits of `n`, `0` for `0`. -/
def bitLen (n : ℕ) : ℕ := bitLenAux n n

@[simp] theorem bitLenAux_zero (fuel : ℕ) : bitLenAux fuel 0 = 0 := by
  cases fuel <;> simp [bitLenAux]

theorem bitLenAux_spec : ∀ fuel n, n ≤ fuel →
    n < 2 ^ bitLenAux fuel n ∧ (n ≠ 0 → 2 ^ bitLenAux fuel n ≤ 2 * n)
  | 0, n, h => by simp [bitLenAux, Nat.le_zero.1 h]
  | fuel + 1, n, h => by
    by_cases hn : n = 0
    · simp [hn]
    obtain ⟨ih₁, ih₂⟩ := bitLenAux_spec fuel (n / 2) (by omega)
    simp only [bitLenAux, if_neg hn, Nat.pow_succ]
    refine ⟨by omega, fun _ => ?_⟩
    by_cases hh : n / 2 = 0
    · rw [hh, bitLenAux_zero]; omega
    · have := ih₂ hh; omega

/-- **The bit length bounds its number**: `2^(bitLen n - 1) ≤ n < 2^bitLen n`. -/
theorem bitLen_spec (n : ℕ) : n < 2 ^ bitLen n ∧ (n ≠ 0 → 2 ^ bitLen n ≤ 2 * n) :=
  bitLenAux_spec n n le_rfl

theorem bitLen_eq_zero {n : ℕ} (h : bitLen n = 0) : n = 0 := by
  have := (bitLen_spec n).1
  rw [h] at this
  omega

/-! ## Rounding to nearest, ties to even -/

/-- `m / 2^s` rounded to the nearest integer, ties to the even one: the mantissa that
`(*Float).round` keeps when it drops the `s` low bits of `m`. -/
def roundShift (m s : ℕ) : ℕ :=
  if 2 ^ s < 2 * (m % 2 ^ s) ∨ (2 * (m % 2 ^ s) = 2 ^ s ∧ m / 2 ^ s % 2 = 1) then
    m / 2 ^ s + 1
  else m / 2 ^ s

@[simp] theorem roundShift_zero (m : ℕ) : roundShift m 0 = m := by
  simp [roundShift, Nat.mod_one]

/-- **Rounding is to nearest**: it moves `m` by at most half of `2^s`. -/
theorem roundShift_near (m s : ℕ) :
    2 * (roundShift m s * 2 ^ s) ≤ 2 * m + 2 ^ s ∧
      2 * m ≤ 2 * (roundShift m s * 2 ^ s) + 2 ^ s := by
  have hm := Nat.div_add_mod m (2 ^ s)
  have hr := Nat.mod_lt m (Nat.two_pow_pos s)
  unfold roundShift
  split_ifs with h
  · rw [Nat.add_mul, one_mul, Nat.mul_comm (m / 2 ^ s)]; omega
  · rw [Nat.mul_comm (m / 2 ^ s)]; omega

/-- **Rounding to `p` bits errs by at most `2^-p` of the value.** Dropping the
`s = bitLen m - p` low bits of `m` and rounding gives `m'` with `m' · 2^s` within
`m / 2^p` of `m`. -/
theorem roundShift_bound (p m : ℕ) :
    2 ^ p * (roundShift m (bitLen m - p) * 2 ^ (bitLen m - p)) ≤ 2 ^ p * m + m ∧
      2 ^ p * m ≤ 2 ^ p * (roundShift m (bitLen m - p) * 2 ^ (bitLen m - p)) + m := by
  by_cases hs : bitLen m - p = 0
  · rw [hs, roundShift_zero, pow_zero, mul_one]; omega
  have hm : m ≠ 0 := fun h => hs (by simp [h, bitLen])
  have hlen : 2 ^ (bitLen m - p) * 2 ^ p ≤ 2 * m := by
    rw [← pow_add, Nat.sub_add_cancel (by omega)]
    exact (bitLen_spec m).2 hm
  obtain ⟨h₁, h₂⟩ := roundShift_near m (bitLen m - p)
  -- scale the rounding error by `2^p`, then use `2^s · 2^p ≤ 2m`
  have scale (a b : ℕ) (h : 2 * a ≤ 2 * b + 2 ^ (bitLen m - p)) :
      2 * (2 ^ p * a) ≤ 2 * (2 ^ p * b) + 2 ^ (bitLen m - p) * 2 ^ p := by
    have := Nat.mul_le_mul_left (2 ^ p) h
    rwa [Nat.mul_add, Nat.mul_left_comm _ 2 a, Nat.mul_left_comm _ 2 b,
      Nat.mul_comm (2 ^ p) (2 ^ _)] at this
  constructor
  · have := scale _ _ h₁; omega
  · have := scale _ _ h₂; omega

end BigFloat

/-! ## Values -/

/-- A finite `big.Float`: the value `(-1)^neg · mant · 2^exp`, at precision `prec`. -/
structure BigFloat where
  /-- The sign. -/
  neg : Bool
  /-- The mantissa. -/
  mant : ℕ
  /-- The exponent. -/
  exp : ℤ
  /-- The precision, in bits. -/
  prec : ℕ
  deriving DecidableEq, Repr

/-- A finite `float64` value `(-1)^neg · mant · 2^exp`, with at most 53 significant bits. -/
structure Float64Value where
  /-- The sign. -/
  neg : Bool
  /-- The mantissa. -/
  mant : ℕ
  /-- The exponent. -/
  exp : ℤ
  /-- The mantissa fits a `float64` significand. -/
  mant_le : mant ≤ 2 ^ 53

/-- A finite `float32` value `(-1)^neg · mant · 2^exp`: a 24-bit mantissa and an exponent
in the `float32` range. Every finite `float32` is one, and every one is a `float32`. -/
structure Float32Value where
  /-- The sign. -/
  neg : Bool
  /-- The mantissa. -/
  mant : ℕ
  /-- The exponent. -/
  exp : ℤ
  /-- The mantissa fits a `float32` significand. -/
  mant_lt : mant < 2 ^ 24
  /-- The exponent is that of a `float32`, subnormals included. -/
  exp_ge : -149 ≤ exp
  /-- The exponent is that of a finite `float32`. -/
  exp_le : exp ≤ 104

/-- The sign `(-1)^neg`. -/
def signOf (neg : Bool) : ℚ := if neg then -1 else 1

/-- `float64(x)` for a `float32` `x`: exact. -/
def Float32Value.toFloat64 (x : Float32Value) : Float64Value :=
  ⟨x.neg, x.mant, x.exp, by have := x.mant_lt; omega⟩

/-- The value of a `float32`. -/
def Float32Value.toRat (x : Float32Value) : ℚ := signOf x.neg * x.mant * 2 ^ x.exp

/-- `float64(n)` for a `uint64` `n`: `n` rounded to 53 bits, to nearest with ties to even. -/
def float64OfUInt64 (n : UInt64) : Float64Value :=
  ⟨false, BigFloat.roundShift n.toNat (BigFloat.bitLen n.toNat - 53),
    (BigFloat.bitLen n.toNat - 53 : ℕ), by
      have ⟨h₁, _⟩ := BigFloat.roundShift_near n.toNat (BigFloat.bitLen n.toNat - 53)
      have h₂ := (BigFloat.bitLen_spec n.toNat).1
      by_cases hs : BigFloat.bitLen n.toNat - 53 = 0
      · rw [hs, BigFloat.roundShift_zero]
        exact (h₂.trans_le (Nat.pow_le_pow_right (by norm_num) (by omega))).le
      · have hp : 2 ^ BigFloat.bitLen n.toNat = 2 ^ (BigFloat.bitLen n.toNat - 53) * 2 ^ 53 := by
          rw [← pow_add, Nat.sub_add_cancel (by omega)]
        have h2s : 2 ≤ 2 ^ (BigFloat.bitLen n.toNat - 53) :=
          Nat.le_self_pow hs 2 |>.trans' le_rfl
        nlinarith⟩

namespace BigFloat

/-- The value. -/
def toRat (x : BigFloat) : ℚ := signOf x.neg * x.mant * 2 ^ x.exp

/-- `(*Float).round`: the value rounded to `prec` bits, to nearest with ties to even. -/
def round (x : BigFloat) : BigFloat :=
  { x with
    mant := roundShift x.mant (bitLen x.mant - x.prec)
    exp := x.exp + (bitLen x.mant - x.prec : ℕ) }

/-- `big.NewFloat(x)`: the value of `x`, at precision 53. -/
def newFloat (x : Float64Value) : BigFloat := ⟨x.neg, x.mant, x.exp, 53⟩

/-- `new(big.Float).SetInt(x)`: the value of `x`, at precision `max(x.BitLen(), 64)`. -/
def setInt (x : ℤ) : BigFloat := ⟨decide (x < 0), x.natAbs, 0, max (bitLen x.natAbs) 64⟩

/-- `new(big.Float).Mul(x, y)`: the exact product, rounded to the larger precision of
the two operands. -/
def mul (x y : BigFloat) : BigFloat :=
  round ⟨x.neg != y.neg, x.mant * y.mant, x.exp + y.exp, max x.prec y.prec⟩

/-- `x.Int(nil)`: the value truncated toward zero. -/
def int (x : BigFloat) : ℤ :=
  let t : ℕ := if 0 ≤ x.exp then x.mant * 2 ^ x.exp.toNat else x.mant / 2 ^ (-x.exp).toNat
  if x.neg then -t else t

/-! ## What each operation computes -/

@[simp] theorem round_neg (x : BigFloat) : x.round.neg = x.neg := rfl

@[simp] theorem round_prec (x : BigFloat) : x.round.prec = x.prec := rfl

@[simp] theorem mul_neg_eq (x y : BigFloat) : (mul x y).neg = (x.neg != y.neg) := rfl

@[simp] theorem mul_prec (x y : BigFloat) : (mul x y).prec = max x.prec y.prec := rfl

@[simp] theorem abs_signOf (neg : Bool) : |signOf neg| = 1 := by
  cases neg <;> simp [signOf]

theorem toRat_round (x : BigFloat) :
    x.round.toRat = signOf x.neg *
      (roundShift x.mant (bitLen x.mant - x.prec) * 2 ^ (bitLen x.mant - x.prec) : ℕ) *
        2 ^ x.exp := by
  simp only [toRat, round, zpow_add₀ (two_ne_zero' ℚ), zpow_natCast, Nat.cast_mul,
    Nat.cast_pow, Nat.cast_ofNat]
  ring

/-- **A rounding errs by at most `2^-prec` of the value.** -/
theorem round_bound (x : BigFloat) :
    |x.round.toRat - x.toRat| ≤ (2 ^ x.prec)⁻¹ * |x.toRat| := by
  rw [inv_mul_eq_div, le_div_iff₀ (by positivity)]
  obtain ⟨h₁, h₂⟩ := roundShift_bound x.prec x.mant
  set X := roundShift x.mant (bitLen x.mant - x.prec) * 2 ^ (bitLen x.mant - x.prec)
  have hX : ((X : ℚ) - x.mant) * 2 ^ x.prec ≤ x.mant ∧
      ((x.mant : ℚ) - X) * 2 ^ x.prec ≤ x.mant := by
    constructor <;> [have := h₁; have := h₂] <;>
      · qify at this
        linarith
  have he : (0 : ℚ) < 2 ^ x.exp := zpow_pos two_pos _
  have hd : signOf x.neg * (X : ℚ) * 2 ^ x.exp - signOf x.neg * x.mant * 2 ^ x.exp =
      signOf x.neg * (X - x.mant) * 2 ^ x.exp := by ring
  rw [toRat_round, toRat, hd, abs_mul, abs_mul, abs_mul, abs_mul, abs_signOf, abs_of_pos he,
    Nat.abs_cast]
  have : |(X : ℚ) - x.mant| * 2 ^ x.prec ≤ x.mant := by
    rcases abs_cases ((X : ℚ) - x.mant) with ⟨h, -⟩ | ⟨h, -⟩ <;> rw [h] <;> linarith [hX.1, hX.2]
  rw [one_mul, one_mul, mul_right_comm]
  exact mul_le_mul_of_nonneg_right this he.le

theorem toRat_setInt (x : ℤ) : (setInt x).toRat = x := by
  have hx : ((x.natAbs : ℕ) : ℚ) = |(x : ℚ)| := by rw [Nat.cast_natAbs, Int.cast_abs]
  by_cases h : x < 0
  · have : (x : ℚ) < 0 := by exact_mod_cast h
    simp [setInt, toRat, signOf, h, hx, abs_of_neg this]
  · have : (0 : ℚ) ≤ x := by exact_mod_cast not_lt.1 h
    simp [setInt, toRat, signOf, h, hx, abs_of_nonneg this]

theorem toRat_newFloat (x : Float64Value) :
    (newFloat x).toRat = signOf x.neg * x.mant * 2 ^ x.exp := rfl

/-- **A product errs by at most `2^-prec` of the exact product**, `prec` the larger
precision of the operands. -/
theorem mul_bound (x y : BigFloat) :
    |(mul x y).toRat - x.toRat * y.toRat| ≤ (2 ^ max x.prec y.prec)⁻¹ * |x.toRat * y.toRat| := by
  have he : toRat ⟨x.neg != y.neg, x.mant * y.mant, x.exp + y.exp, max x.prec y.prec⟩ =
      x.toRat * y.toRat := by
    simp only [toRat, signOf, zpow_add₀ (two_ne_zero' ℚ), Nat.cast_mul]
    cases x.neg <;> cases y.neg <;> simp <;> ring
  exact he ▸ round_bound _

theorem int_nonneg (x : BigFloat) (h : x.neg = false) : 0 ≤ x.int := by
  simp only [int, h, Bool.false_eq_true, if_false]
  positivity

/-- **`Int` truncates**: a nonnegative value lies in `[Int, Int + 1)`. -/
theorem int_spec (x : BigFloat) (h : x.neg = false) :
    (x.int : ℚ) ≤ x.toRat ∧ x.toRat < x.int + 1 := by
  simp only [int, toRat, h, signOf, Bool.false_eq_true, if_false, one_mul]
  split_ifs with he
  · have : (2 : ℚ) ^ x.exp = 2 ^ x.exp.toNat := by rw [← zpow_natCast, Int.toNat_of_nonneg he]
    push_cast
    rw [this]
    constructor <;> linarith
  · have hP : (2 : ℚ) ^ x.exp = ((2 ^ (-x.exp).toNat : ℕ) : ℚ)⁻¹ := by
      rw [Nat.cast_pow, Nat.cast_ofNat, ← zpow_natCast, Int.toNat_of_nonneg (by omega), zpow_neg,
        inv_inv]
    have hpos : (0 : ℚ) < (2 ^ (-x.exp).toNat : ℕ) := by positivity
    have hm := Nat.div_add_mod x.mant (2 ^ (-x.exp).toNat)
    have hr := Nat.mod_lt x.mant (Nat.two_pow_pos (-x.exp).toNat)
    rw [hP, ← div_eq_mul_inv, le_div_iff₀ hpos, div_lt_iff₀ hpos]
    constructor
    · exact_mod_cast Nat.div_mul_le_self _ _
    · have : x.mant < (x.mant / 2 ^ (-x.exp).toNat + 1) * 2 ^ (-x.exp).toNat := by
        rw [Nat.add_mul, one_mul, Nat.mul_comm]; omega
      exact_mod_cast this

/-! ## Relative errors of nonnegative values -/

/-- **Relative errors of a product add up**, with their product. -/
theorem relErr_mul {ε₁ ε₂ y₁ y₂ r₁ r₂ : ℚ} (h₁ : |r₁ - y₁| ≤ ε₁ * y₁) (h₂ : |r₂ - y₂| ≤ ε₂ * y₂)
    (hy₁ : 0 ≤ y₁) (hy₂ : 0 ≤ y₂) (hε₁ : 0 ≤ ε₁) :
    |r₁ * r₂ - y₁ * y₂| ≤ (ε₁ + ε₂ + ε₁ * ε₂) * (y₁ * y₂) := by
  have hr₂ : |r₂| ≤ (1 + ε₂) * y₂ := by
    have := abs_sub_abs_le_abs_sub r₂ y₂
    rw [abs_of_nonneg hy₂] at this
    linarith
  calc |r₁ * r₂ - y₁ * y₂| = |(r₁ - y₁) * r₂ + y₁ * (r₂ - y₂)| := by ring_nf
    _ ≤ |(r₁ - y₁) * r₂| + |y₁ * (r₂ - y₂)| := abs_add _ _
    _ = |r₁ - y₁| * |r₂| + y₁ * |r₂ - y₂| := by rw [abs_mul, abs_mul, abs_of_nonneg hy₁]
    _ ≤ ε₁ * y₁ * ((1 + ε₂) * y₂) + y₁ * (ε₂ * y₂) :=
      add_le_add (mul_le_mul h₁ hr₂ (abs_nonneg _) (mul_nonneg hε₁ hy₁))
        (mul_le_mul_of_nonneg_left h₂ hy₁)
    _ = (ε₁ + ε₂ + ε₁ * ε₂) * (y₁ * y₂) := by ring

/-- **A rounding on top of an approximation**: the relative errors add up, with their
product. -/
theorem relErr_round {ε₁ ε₂ y r s : ℚ} (h₁ : |r - y| ≤ ε₁ * y) (h₂ : |s - r| ≤ ε₂ * |r|)
    (hy : 0 ≤ y) (hε₂ : 0 ≤ ε₂) : |s - y| ≤ (ε₁ + ε₂ + ε₁ * ε₂) * y := by
  have hr : |r| ≤ (1 + ε₁) * y := by
    have := abs_sub_abs_le_abs_sub r y
    rw [abs_of_nonneg hy] at this
    linarith
  calc |s - y| ≤ |s - r| + |r - y| := abs_sub_le s r y
    _ ≤ ε₂ * ((1 + ε₁) * y) + ε₁ * y :=
      add_le_add (h₂.trans (mul_le_mul_of_nonneg_left hr hε₂)) h₁
    _ = (ε₁ + ε₂ + ε₁ * ε₂) * y := by ring

end BigFloat
