import Tangerine.Bytes

/-!
# Blocks, votes and DKG messages

The records the consensus core signs, with the fields its hashing and signing code
reads (`core/types` and `core/types/dkg`). Go nests some of them (a `Vote` embeds a
`VoteHeader`); here every record is flat, with the Go field names.

Three pieces of the DKG types live outside this repository: the serialisations
`PrivateShare.Bytes()`, `DKGID.GetLittleEndian()` and `PublicKeyShares.MasterKeyBytes()`.
The hashing code only ever reads them as byte strings, so the records store those byte
strings in their place.

A timestamp is kept as the instant `t.UTC().MarshalBinary()` writes: every use of a
block's `Timestamp` in the modelled code goes through `UTC()`, so the location is not
part of the record.
-/

/-- `types.Position`: a (round, height) coordinate. -/
structure Position where
  /-- The round. -/
  round : UInt64
  /-- The height within the chain. -/
  height : UInt64
deriving DecidableEq

/-- `types.Witness`: the compaction-chain anchor a block carries. -/
structure Witness where
  /-- The compaction-chain height. -/
  height : UInt64
  /-- The anchor's data. -/
  data : Bytes
deriving DecidableEq

/-- An instant of `time.Time`: the seconds since January 1 of year 1 (`t.sec()`, an
`int64`) and the nanoseconds within the second (`t.nsec()`). -/
structure Time where
  /-- Seconds since January 1 of year 1. -/
  sec : ℤ
  /-- Nanoseconds within the second. -/
  nsec : ℕ
  /-- `sec` is an `int64`. -/
  sec_ge : -2 ^ 63 ≤ sec
  /-- `sec` is an `int64`. -/
  sec_lt : sec < 2 ^ 63
  /-- A second has `10 ^ 9` nanoseconds. -/
  nsec_lt : nsec < 10 ^ 9
deriving DecidableEq

namespace Time

/-- The parts of `t.UTC().MarshalBinary()`: the version byte `1`, the seconds as
eight big-endian bytes of the `int64`, the nanoseconds as four big-endian bytes, and
the zone offset `-1` that stands for UTC. -/
def marshalParts (t : Time) : List Bytes :=
  [[1], beBytes 8 (t.sec % 2 ^ 64).toNat, beBytes 4 t.nsec, [0xff, 0xff]]

/-- `t.UTC().MarshalBinary()`, fifteen bytes. The error branch of `MarshalBinary` is
for zone offsets that are not whole minutes, and a UTC time has none. -/
def marshalBinary (t : Time) : Bytes := t.marshalParts.flatten

@[simp] theorem length_marshalBinary (t : Time) : t.marshalBinary.length = 15 := by
  simp [marshalBinary, marshalParts]

/-- **The marshalled form determines the instant.** -/
theorem marshalBinary_injective : Function.Injective marshalBinary := by
  rintro ⟨s₁, n₁, hs₁, hs₁', hn₁⟩ ⟨s₂, n₂, hs₂, hs₂', hn₂⟩ h
  have hp := flatten_inj_of_lengths (by simp [marshalParts]) h
  simp only [marshalParts, List.cons.injEq, and_true, true_and] at hp
  have hs := beBytes_inj (by omega) (by omega) hp.1
  have hn := beBytes_inj (by omega) (by omega) hp.2
  simp only [mk.injEq]
  exact ⟨by omega, hn⟩

/-- The zero `time.Time{}`: January 1 of year 1, UTC. -/
def zero : Time := ⟨0, 0, by decide, by decide, by decide⟩

end Time

/-- `crypto.Signature`: a scheme name and the signature bytes. -/
structure Signature where
  /-- The signature scheme, such as `"bls"`. -/
  type : String
  /-- The signature bytes. -/
  signature : Bytes
deriving DecidableEq

/-- The zero `crypto.Signature`. -/
def Signature.empty : Signature := ⟨"", []⟩

/-- `types.Block`. -/
structure Block where
  /-- The proposer's node identity. -/
  proposerID : NodeID
  /-- The parent block's hash. -/
  parentHash : Hash
  /-- The block's own hash, as `HashBlock` computes it. -/
  hash : Hash
  /-- Where the block sits. -/
  position : Position
  /-- When the block was proposed. -/
  timestamp : Time
  /-- The application payload. -/
  payload : Bytes
  /-- The hash of `payload`. -/
  payloadHash : Hash
  /-- The compaction-chain anchor. -/
  witness : Witness
  /-- Set once the block is finalized. -/
  randomness : Bytes
  /-- The proposer's signature on `hash`. -/
  signature : Signature
  /-- The CRS signature. -/
  crsSignature : Signature
deriving DecidableEq

/-- `Block.IsFinalized`: the block carries randomness. -/
def Block.isFinalized (b : Block) : Bool := 0 < b.randomness.length

/-- `types.VoteType`, a byte; `MaxVoteType` bounds the named values, but any byte
can be stored. -/
@[ext] structure VoteType where
  /-- The byte. -/
  byte : UInt8
deriving DecidableEq

namespace VoteType

/-- `types.VoteInit`. -/
def init : VoteType := ⟨0⟩
/-- `types.VotePreCom`. -/
def preCom : VoteType := ⟨1⟩
/-- `types.VoteCom`. -/
def com : VoteType := ⟨2⟩
/-- `types.VoteFast`. -/
def fast : VoteType := ⟨3⟩
/-- `types.VoteFastCom`. -/
def fastCom : VoteType := ⟨4⟩

end VoteType

/-- `types.Vote`, with the fields of its `VoteHeader` inlined. -/
structure Vote where
  /-- The voter. -/
  proposerID : NodeID
  /-- What the vote is for. -/
  type : VoteType
  /-- The block voted for. -/
  blockHash : Hash
  /-- The agreement period. -/
  period : UInt64
  /-- The position agreed on. -/
  position : Position
  /-- The DKG partial signature carried by the vote. -/
  partialSignature : Signature
  /-- The voter's signature. -/
  signature : Signature
deriving DecidableEq

/-- `types.NewVote`: a vote with its header's type, block hash and period set and
every other field zero. -/
def newVote (t : VoteType) (hash : Hash) (period : UInt64) : Vote where
  proposerID := ⟨Hash.zero⟩
  type := t
  blockHash := hash
  period := period
  position := ⟨0, 0⟩
  partialSignature := Signature.empty
  signature := Signature.empty

/-! ## DKG messages -/

/-- `typesDKG.PrivateShare`. -/
structure PrivateShare where
  /-- The sender. -/
  proposerID : NodeID
  /-- The receiver. -/
  receiverID : NodeID
  /-- The DKG round. -/
  round : UInt64
  /-- The DKG reset count. -/
  reset : UInt64
  /-- `PrivateShare.Bytes()`, the serialised share. -/
  privateShare : Bytes
  /-- The sender's signature. -/
  signature : Signature
deriving DecidableEq

/-- `typesDKG.MasterPublicKey`. -/
structure MasterPublicKey where
  /-- The sender. -/
  proposerID : NodeID
  /-- The DKG round. -/
  round : UInt64
  /-- The DKG reset count. -/
  reset : UInt64
  /-- `DKGID.GetLittleEndian()`. -/
  dkgID : Bytes
  /-- `PublicKeyShares.MasterKeyBytes()`. -/
  masterKeyBytes : Bytes
  /-- The sender's signature. -/
  signature : Signature
deriving DecidableEq

/-- `typesDKG.Complaint`: a complaint about a private share. -/
structure Complaint where
  /-- The complainer. -/
  proposerID : NodeID
  /-- The DKG round. -/
  round : UInt64
  /-- The DKG reset count. -/
  reset : UInt64
  /-- The share complained about. -/
  privateShare : PrivateShare
  /-- The complainer's signature. -/
  signature : Signature
deriving DecidableEq

/-- `typesDKG.PartialSignature`: a partial threshold signature on a hash. -/
structure PartialSignature where
  /-- The signer. -/
  proposerID : NodeID
  /-- The DKG round. -/
  round : UInt64
  /-- The hash partially signed. -/
  hash : Hash
  /-- The partial signature. -/
  partialSignature : Signature
  /-- The signer's signature on the message. -/
  signature : Signature
deriving DecidableEq

/-- `typesDKG.MPKReady`. -/
structure MPKReady where
  /-- The sender. -/
  proposerID : NodeID
  /-- The DKG round. -/
  round : UInt64
  /-- The DKG reset count. -/
  reset : UInt64
  /-- The sender's signature. -/
  signature : Signature
deriving DecidableEq

/-- `typesDKG.Finalize`. -/
structure Finalize where
  /-- The sender. -/
  proposerID : NodeID
  /-- The DKG round. -/
  round : UInt64
  /-- The DKG reset count. -/
  reset : UInt64
  /-- The sender's signature. -/
  signature : Signature
deriving DecidableEq

/-- `typesDKG.Success`. -/
structure Success where
  /-- The sender. -/
  proposerID : NodeID
  /-- The DKG round. -/
  round : UInt64
  /-- The DKG reset count. -/
  reset : UInt64
  /-- The sender's signature. -/
  signature : Signature
deriving DecidableEq

/-- The errors of `core/utils` (`signer.go` and the node-set cache), and an error
raised by a collaborator outside it, such as `core/crypto`. -/
inductive Error
  /-- `ErrInvalidProposerID`. -/
  | invalidProposerID
  /-- `ErrIncorrectHash`. -/
  | incorrectHash
  /-- `ErrIncorrectSignature`. -/
  | incorrectSignature
  /-- `ErrNoBLSSigner`. -/
  | noBLSSigner
  /-- `ErrNodeSetNotReady`. -/
  | nodeSetNotReady
  /-- `ErrCRSNotReady`. -/
  | crsNotReady
  /-- `ErrConfigurationNotReady`. -/
  | configurationNotReady
  /-- An error from outside `core/utils`. -/
  | external (code : ℕ)
deriving DecidableEq
