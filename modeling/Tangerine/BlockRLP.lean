import Tangerine.Signer

/-!
# Blocks over RLP

A `types.Block` goes over the wire through RLP. `Block.EncodeRLP` copies its fields
into an `rlpBlock`, the timestamp wrapped as an `rlpTimestamp`, whose encoder writes
`uint64(t.UTC().UnixNano())`; `Block.DecodeRLP` reads an `rlpBlock` and copies the fields
back, the timestamp through `time.Unix(int64(nano) / 1e9, int64(nano) % 1e9)`.

The RLP library itself is not modelled: an `rlpBlock` is taken to come out of the
stream as it went in, its timestamp as the `uint64` the encoder wrote, and a byte
slice as the same bytes (Go's `nil` and empty slices are both the empty list here).
What is left are the two field mappings and the timestamp codec.

The codec is exact on the instants whose Unix time in nanoseconds is an `int64`, and
on no other (`decodeRLP_encodeRLP_iff`): `UnixNano` wraps around outside that range, as
for the zero `time.Time{}`. The decoder's truncating `/` and `%` and the normalisation in
`time.Unix` together compute floored division (`unixNormalize_tdiv_tmod`), so an
`int64` number of nanoseconds comes back as the instant it counts.
-/

/-- Go's `unixToInternal`: the seconds from January 1 of year 1 to the Unix epoch. -/
def unixToInternal : ℤ := 62135596800

/-- The Unix time of an instant in nanoseconds. `t.UnixNano()` computes it in `int64`,
wrapping around outside the `int64` range. -/
def Time.unixNanos (t : Time) : ℤ := (t.sec - unixToInternal) * 1000000000 + t.nsec

/-- An integer fits in `int64`. -/
def InInt64 (x : ℤ) : Prop := -9223372036854775808 ≤ x ∧ x < 9223372036854775808

instance (x : ℤ) : Decidable (InInt64 x) := inferInstanceAs (Decidable (_ ∧ _))

/-- `int64(nano)`: the bits of a `uint64` read as a two's-complement `int64`. -/
def int64Of (nano : UInt64) : ℤ :=
  if nano.toNat < 9223372036854775808 then nano.toNat else (nano.toNat : ℤ) - 18446744073709551616

/-- The normalisation in `time.Unix(sec, nsec)`, which brings `nsec` into `[0, 1e9)`. -/
def unixNormalize (sec nsec : ℤ) : ℤ × ℤ :=
  if nsec < 0 ∨ 1000000000 ≤ nsec then
    let n := nsec.tdiv 1000000000
    if nsec - n * 1000000000 < 0 then (sec + n - 1, nsec - n * 1000000000 + 1000000000)
    else (sec + n, nsec - n * 1000000000)
  else (sec, nsec)

/-- **`time.Unix` turns truncated division into floored division**: Go's `x / 1e9` and
`x % 1e9`, normalised, are the floored quotient and the remainder in `[0, 1e9)`. -/
theorem unixNormalize_tdiv_tmod (x : ℤ) :
    unixNormalize (x.tdiv 1000000000) (x.tmod 1000000000) = (x / 1000000000, x % 1000000000) := by
  have hq : x.tdiv 1000000000 = if 0 ≤ x then x / 1000000000 else -((-x) / 1000000000) := by
    split_ifs with hx
    · exact Int.tdiv_eq_ediv hx (by decide)
    · rw [← Int.tdiv_eq_ediv (by omega) (by decide), Int.neg_tdiv, Int.neg_neg]
  have hr := Int.tmod_def x 1000000000
  have hn : (x.tmod 1000000000).tdiv 1000000000 = 0 := by
    by_cases h0 : 0 ≤ x.tmod 1000000000
    · exact Int.tdiv_eq_zero_of_lt h0 (by split_ifs at hq <;> omega)
    · rw [← Int.neg_neg (x.tmod 1000000000), Int.neg_tdiv,
        Int.tdiv_eq_zero_of_lt (by omega) (by split_ifs at hq <;> omega), Int.neg_zero]
  unfold unixNormalize
  dsimp only
  rw [hn]
  split_ifs at hq <;> rw [hr, hq] <;> split_ifs <;> simp only [Prod.mk.injEq, true_and] <;> omega

namespace RLPTimestamp

/-- `rlpTimestamp.EncodeRLP`: `uint64(t.UTC().UnixNano())`. `UnixNano` wraps in `int64`
and the conversion keeps the bits, so this is the Unix time in nanoseconds modulo
`2^64`. -/
def encodeRLP (t : Time) : UInt64 := UInt64.ofNat (t.unixNanos % 18446744073709551616).toNat

theorem decode_bounds (nano : UInt64) :
    -2 ^ 63 ≤ int64Of nano / 1000000000 + unixToInternal ∧
      int64Of nano / 1000000000 + unixToInternal < 2 ^ 63 ∧
      (int64Of nano % 1000000000).toNat < 10 ^ 9 := by
  have h := nano.toNat_lt_size
  have h63 : (2 : ℤ) ^ 63 = 9223372036854775808 := rfl
  have h9 : (10 : ℕ) ^ 9 = 1000000000 := rfl
  simp only [UInt64.size] at h
  unfold int64Of unixToInternal
  rw [h63, h9]
  split_ifs <;> omega

/-- `rlpTimestamp.DecodeRLP`: `time.Unix(int64(nano) / 1e9, int64(nano) % 1e9).UTC()`,
with Go's truncating `/` and `%`. -/
def decodeRLP (nano : UInt64) : Time :=
  ⟨(unixNormalize ((int64Of nano).tdiv 1000000000) ((int64Of nano).tmod 1000000000)).1 +
      unixToInternal,
    (unixNormalize ((int64Of nano).tdiv 1000000000) ((int64Of nano).tmod 1000000000)).2.toNat,
    by rw [unixNormalize_tdiv_tmod]; exact (decode_bounds nano).1,
    by rw [unixNormalize_tdiv_tmod]; exact (decode_bounds nano).2.1,
    by rw [unixNormalize_tdiv_tmod]; exact (decode_bounds nano).2.2⟩

end RLPTimestamp

/-! ## The codec round trip -/

/-- **An instant is its Unix time in nanoseconds.** -/
theorem Time.eq_of_unixNanos_eq {t₁ t₂ : Time} (h : t₁.unixNanos = t₂.unixNanos) :
    t₁ = t₂ := by
  have h₁ := t₁.nsec_lt
  have h₂ := t₂.nsec_lt
  have h9 : (10 : ℕ) ^ 9 = 1000000000 := rfl
  rw [h9] at h₁ h₂
  simp only [Time.unixNanos, unixToInternal] at h
  have hs : t₁.sec = t₂.sec := by omega
  have hn : t₁.nsec = t₂.nsec := by omega
  cases t₁
  cases t₂
  cases hs
  cases hn
  rfl

/-- The decoder gives the instant `int64(nano)` nanoseconds after the Unix epoch. -/
theorem unixNanos_decodeRLP (nano : UInt64) :
    (RLPTimestamp.decodeRLP nano).unixNanos = int64Of nano := by
  simp only [Time.unixNanos, RLPTimestamp.decodeRLP, unixNormalize_tdiv_tmod]
  omega

/-- The encoder read back as an `int64` is the Unix time in nanoseconds, when that fits. -/
theorem int64Of_encodeRLP (t : Time) :
    int64Of (RLPTimestamp.encodeRLP t) = t.unixNanos ↔ InInt64 t.unixNanos := by
  have hmod : (RLPTimestamp.encodeRLP t).toNat = (t.unixNanos % 18446744073709551616).toNat := by
    exact UInt64.toNat_ofNat_of_lt (by simp only [UInt64.size]; omega)
  unfold int64Of InInt64
  rw [hmod]
  split_ifs <;> omega

/-- **The timestamp codec round-trips exactly on the `int64` range.** -/
theorem decodeRLP_encodeRLP_iff (t : Time) :
    RLPTimestamp.decodeRLP (RLPTimestamp.encodeRLP t) = t ↔ InInt64 t.unixNanos := by
  rw [← int64Of_encodeRLP, ← unixNanos_decodeRLP]
  exact ⟨congrArg Time.unixNanos, Time.eq_of_unixNanos_eq⟩

/-! ## Blocks -/

/-- `types.rlpBlock` as it comes out of the stream: the block's fields, the timestamp as
the `uint64` its `rlpTimestamp` wrote. -/
structure RLPBlock where
  /-- `ProposerID`. -/
  proposerID : NodeID
  /-- `ParentHash`. -/
  parentHash : Hash
  /-- `Hash`. -/
  hash : Hash
  /-- `Position`. -/
  position : Position
  /-- `Timestamp`, as encoded. -/
  timestamp : UInt64
  /-- `Payload`. -/
  payload : Bytes
  /-- `PayloadHash`. -/
  payloadHash : Hash
  /-- `Witness`. -/
  witness : Witness
  /-- `Randomness`. -/
  randomness : Bytes
  /-- `Signature`. -/
  signature : Signature
  /-- `CRSSignature`. -/
  crsSignature : Signature
deriving DecidableEq

/-- `Block.EncodeRLP`: the `rlpBlock` of a block. -/
def Block.encodeRLP (b : Block) : RLPBlock :=
  ⟨b.proposerID, b.parentHash, b.hash, b.position, RLPTimestamp.encodeRLP b.timestamp,
    b.payload, b.payloadHash, b.witness, b.randomness, b.signature, b.crsSignature⟩

/-- `Block.DecodeRLP`: the block of a decoded `rlpBlock`. -/
def Block.decodeRLP (dec : RLPBlock) : Block :=
  ⟨dec.proposerID, dec.parentHash, dec.hash, dec.position, RLPTimestamp.decodeRLP dec.timestamp,
    dec.payload, dec.payloadHash, dec.witness, dec.randomness, dec.signature, dec.crsSignature⟩

/-- **The field mappings**: a block comes back with its timestamp through the codec and
every other field as it was. -/
theorem decodeRLP_encodeRLP (b : Block) :
    Block.decodeRLP b.encodeRLP =
      { b with timestamp := RLPTimestamp.decodeRLP (RLPTimestamp.encodeRLP b.timestamp) } :=
  rfl

/-- A block that `VerifyBlockSignature` accepts has the payload hash and the block hash
it carries. -/
theorem hashes_of_verifyBlockSignature {Priv Pub : Type} (C : Crypto Priv Pub) {b : Block}
    (h : verifyBlockSignature C b = none) :
    keccak256Hash C.keccak [b.payload] = b.payloadHash ∧ hashBlock C.keccak b = b.hash := by
  unfold verifyBlockSignature verifyBlockSignatureWithoutPayload at h
  split_ifs at h with h₁ h₂
  exact ⟨not_not.1 h₁, not_not.1 h₂⟩

/-- **Block transport over RLP.** Decoding the encoding of a block gives its timestamp
back exactly when its Unix time in nanoseconds fits in `int64`, and every other field
unchanged. So for such timestamps the decoded block is the block, and `HashBlock` and
`VerifyBlockSignature` give the same result on both. For other timestamps the hash input
changes: where Keccak-256 has no collision on the two inputs, `HashBlock` differs, and a
block that `VerifyBlockSignature` accepts is refused after the transport with
`ErrIncorrectHash`. -/
theorem rlp_transport_hash {Priv Pub : Type} (C : Crypto Priv Pub) (b : Block) :
    ((Block.decodeRLP b.encodeRLP).timestamp = b.timestamp ↔ InInt64 b.timestamp.unixNanos) ∧
    Block.decodeRLP b.encodeRLP = { b with timestamp := (Block.decodeRLP b.encodeRLP).timestamp } ∧
    (InInt64 b.timestamp.unixNanos →
      hashBlock C.keccak (Block.decodeRLP b.encodeRLP) = hashBlock C.keccak b ∧
      verifyBlockSignature C (Block.decodeRLP b.encodeRLP) = verifyBlockSignature C b) ∧
    (¬ InInt64 b.timestamp.unixNanos →
      CollisionFreeOn C.keccak [(hashBlockParts C.keccak (Block.decodeRLP b.encodeRLP)).flatten,
        (hashBlockParts C.keccak b).flatten] →
      hashBlock C.keccak (Block.decodeRLP b.encodeRLP) ≠ hashBlock C.keccak b ∧
      (verifyBlockSignature C b = none →
        verifyBlockSignature C (Block.decodeRLP b.encodeRLP) = some .incorrectHash)) := by
  have hts : (Block.decodeRLP b.encodeRLP).timestamp = b.timestamp ↔
      InInt64 b.timestamp.unixNanos := decodeRLP_encodeRLP_iff b.timestamp
  refine ⟨hts, rfl, fun hr => ?_, fun hr hcf => ?_⟩
  · have ht : RLPTimestamp.decodeRLP (RLPTimestamp.encodeRLP b.timestamp) = b.timestamp :=
      hts.2 hr
    have hb : Block.decodeRLP b.encodeRLP = b := by rw [decodeRLP_encodeRLP, ht]
    rw [hb]
    exact ⟨rfl, rfl⟩
  · have hne : hashBlock C.keccak (Block.decodeRLP b.encodeRLP) ≠ hashBlock C.keccak b :=
      fun he => mt hts.1 hr (hashBlockParts_inj C.keccak
        (hcf.eq (.head _) (.tail _ (.head _)) he)).2.2.2.1
    refine ⟨hne, fun hv => ?_⟩
    obtain ⟨hp, hh⟩ := hashes_of_verifyBlockSignature C hv
    have hp' : keccak256Hash C.keccak [(Block.decodeRLP b.encodeRLP).payload] =
        (Block.decodeRLP b.encodeRLP).payloadHash := hp
    have hh' : hashBlock C.keccak (Block.decodeRLP b.encodeRLP) ≠
        (Block.decodeRLP b.encodeRLP).hash := by
      rw [show (Block.decodeRLP b.encodeRLP).hash = b.hash from rfl, ← hh]
      exact hne
    simp [verifyBlockSignature, verifyBlockSignatureWithoutPayload, hp', hh']

/-- A block at the zero `time.Time{}`, out of the `int64` range, whose payload hash does
not match its payload: the transport changes its timestamp, and `VerifyBlockSignature`
refuses it with `ErrIncorrectHash` before and after. -/
theorem rlp_transport_verify_agrees_out_of_range :
    ¬ InInt64 Time.zero.unixNanos ∧
    (Block.decodeRLP (⟨⟨Hash.zero⟩, Hash.zero, Hash.zero, ⟨0, 0⟩, Time.zero, [1], Hash.zero,
        ⟨0, []⟩, [], .empty, .empty⟩ : Block).encodeRLP).timestamp ≠ Time.zero ∧
    verifyBlockSignature Crypto.toy (Block.decodeRLP (⟨⟨Hash.zero⟩, Hash.zero, Hash.zero, ⟨0, 0⟩,
        Time.zero, [1], Hash.zero, ⟨0, []⟩, [], .empty, .empty⟩ : Block).encodeRLP) =
      verifyBlockSignature Crypto.toy ⟨⟨Hash.zero⟩, Hash.zero, Hash.zero, ⟨0, 0⟩, Time.zero, [1],
        Hash.zero, ⟨0, []⟩, [], .empty, .empty⟩ := by
  decide
