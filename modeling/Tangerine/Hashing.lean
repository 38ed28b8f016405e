import Tangerine.Types

/-!
# Canonical digests

`core/utils/crypto.go` hashes every signable record by handing a list of byte
strings to `crypto.Keccak256Hash`, which hashes their concatenation. Each hash
function below is written as that list of parts (`…Parts`) followed by the hash of
its concatenation, so that a statement about "the bytes that are signed" is a
statement about the concatenated parts, whatever Keccak-256 does with them.

Keccak-256 itself is a parameter `keccak`. Nothing here assumes anything of it: a
collision-freeness hypothesis only appears in the statements that need one, and
only on the few byte strings those statements hash (no function from all byte
strings to 32-byte hashes is injective).

The main results are injectivity lemmas: two messages of one kind whose byte
strings agree agree on every field the kind's hash function reads, nested digests
being compared as 32-byte values. They all go through `flatten_inj_of_lengths`:
each byte string is a concatenation of parts whose lengths are fixed, except for at
most one part of each kind whose length the total then determines.
-/

variable (keccak : Bytes → Hash)

/-- `crypto.Keccak256Hash(data...)`: Keccak-256 of the concatenation. -/
def keccak256Hash (data : List Bytes) : Hash := keccak data.flatten

/-! ## Positions, witnesses and blocks -/

/-- The parts `HashPosition` hashes: round, then height. -/
def hashPositionParts (position : Position) : List Bytes :=
  [putUint64 position.round, putUint64 position.height]

/-- `utils.HashPosition`. -/
def hashPosition (position : Position) : Hash :=
  keccak256Hash keccak (hashPositionParts position)

/-- The parts `hashWitness` hashes: height, then data. -/
def hashWitnessParts (witness : Witness) : List Bytes :=
  [putUint64 witness.height, witness.data]

/-- `utils.hashWitness`; its error result is always `nil`. -/
def hashWitness (witness : Witness) : Hash :=
  keccak256Hash keccak (hashWitnessParts witness)

/-- The parts `HashBlock` hashes. -/
def hashBlockParts (block : Block) : List Bytes :=
  [block.proposerID.hash.bytes, block.parentHash.bytes,
    (hashPosition keccak block.position).bytes, block.timestamp.marshalBinary,
    block.payloadHash.bytes, (hashWitness keccak block.witness).bytes]

/-- `utils.HashBlock`. Its two error branches come from `MarshalBinary` of a UTC
time and from `hashWitness`, and neither can fail. -/
def hashBlock (block : Block) : Hash :=
  keccak256Hash keccak (hashBlockParts keccak block)

/-! ## Votes and the CRS -/

/-- The parts `HashVote` hashes; the vote type is the last byte. -/
def hashVoteParts (vote : Vote) : List Bytes :=
  [vote.proposerID.hash.bytes, vote.blockHash.bytes, putUint64 vote.period,
    (hashPosition keccak vote.position).bytes, vote.partialSignature.signature,
    [vote.type.byte]]

/-- `utils.HashVote`. -/
def hashVote (vote : Vote) : Hash :=
  keccak256Hash keccak (hashVoteParts keccak vote)

/-- `utils.hashCRS`: below `dkgDelayRound` the proposer is hashed in, from it on
it is not. -/
def hashCRS (dkgDelayRound : UInt64) (block : Block) (crs : Hash) : Hash :=
  if block.position.round < dkgDelayRound then
    keccak256Hash keccak
      [crs.bytes, (hashPosition keccak block.position).bytes, block.proposerID.hash.bytes]
  else keccak256Hash keccak [crs.bytes, (hashPosition keccak block.position).bytes]

/-! ## DKG messages -/

/-- The parts `hashDKGPrivateShare` hashes. -/
def hashDKGPrivateShareParts (prvShare : PrivateShare) : List Bytes :=
  [prvShare.proposerID.hash.bytes, prvShare.receiverID.hash.bytes,
    putUint64 prvShare.round, putUint64 prvShare.reset, prvShare.privateShare]

/-- `utils.hashDKGPrivateShare`. -/
def hashDKGPrivateShare (prvShare : PrivateShare) : Hash :=
  keccak256Hash keccak (hashDKGPrivateShareParts prvShare)

/-- The parts `hashDKGMasterPublicKey` hashes. -/
def hashDKGMasterPublicKeyParts (mpk : MasterPublicKey) : List Bytes :=
  [mpk.proposerID.hash.bytes, mpk.dkgID, mpk.masterKeyBytes, putUint64 mpk.round,
    putUint64 mpk.reset]

/-- `utils.hashDKGMasterPublicKey`. -/
def hashDKGMasterPublicKey (mpk : MasterPublicKey) : Hash :=
  keccak256Hash keccak (hashDKGMasterPublicKeyParts mpk)

/-- The parts `hashDKGComplaint` hashes: the embedded share enters as its digest. -/
def hashDKGComplaintParts (complaint : Complaint) : List Bytes :=
  [complaint.proposerID.hash.bytes, putUint64 complaint.round,
    putUint64 complaint.reset, (hashDKGPrivateShare keccak complaint.privateShare).bytes]

/-- `utils.hashDKGComplaint`. -/
def hashDKGComplaint (complaint : Complaint) : Hash :=
  keccak256Hash keccak (hashDKGComplaintParts keccak complaint)

/-- The parts `hashDKGPartialSignature` hashes. -/
def hashDKGPartialSignatureParts (psig : PartialSignature) : List Bytes :=
  [psig.proposerID.hash.bytes, putUint64 psig.round, psig.hash.bytes,
    psig.partialSignature.signature]

/-- `utils.hashDKGPartialSignature`. -/
def hashDKGPartialSignature (psig : PartialSignature) : Hash :=
  keccak256Hash keccak (hashDKGPartialSignatureParts psig)

/-- The parts shared by `hashDKGMPKReady`, `hashDKGFinalize` and `hashDKGSuccess`:
each hashes its proposer, round and reset, and nothing else. -/
def proposerRoundResetParts (proposerID : NodeID) (round reset : UInt64) : List Bytes :=
  [proposerID.hash.bytes, putUint64 round, putUint64 reset]

/-- `utils.hashDKGMPKReady`. -/
def hashDKGMPKReady (ready : MPKReady) : Hash :=
  keccak256Hash keccak (proposerRoundResetParts ready.proposerID ready.round ready.reset)

/-- `utils.hashDKGFinalize`. -/
def hashDKGFinalize (final : Finalize) : Hash :=
  keccak256Hash keccak (proposerRoundResetParts final.proposerID final.round final.reset)

/-- `utils.hashDKGSuccess`. -/
def hashDKGSuccess (success : Success) : Hash :=
  keccak256Hash keccak
    (proposerRoundResetParts success.proposerID success.round success.reset)

/-! ## Injectivity of the digest inputs

Each lemma reads the fields back from the concatenated parts. Nested digests
(`HashPosition`, `hashWitness`, the embedded `hashDKGPrivateShare`) come back as
32-byte values, and the first two lemmas show their own inputs are injective too. -/

/-- **A position is determined by the bytes `HashPosition` hashes.** -/
theorem hashPositionParts_inj {p₁ p₂ : Position}
    (h : (hashPositionParts p₁).flatten = (hashPositionParts p₂).flatten) : p₁ = p₂ := by
  have hp := flatten_inj_of_lengths (by simp [hashPositionParts]) h
  simp only [hashPositionParts, List.cons.injEq, putUint64_inj, and_true] at hp
  cases p₁; cases p₂
  simpa using hp

/-- **A witness is determined by the bytes `hashWitness` hashes.** -/
theorem hashWitnessParts_inj {w₁ w₂ : Witness}
    (h : (hashWitnessParts w₁).flatten = (hashWitnessParts w₂).flatten) : w₁ = w₂ := by
  have hl := congrArg List.length h
  simp [hashWitnessParts] at hl
  have hp := flatten_inj_of_lengths (by simp [hashWitnessParts, hl]) h
  simp only [hashWitnessParts, List.cons.injEq, putUint64_inj, and_true] at hp
  cases w₁; cases w₂
  simpa using hp

/-- **The bytes `HashBlock` hashes determine the signed fields**: proposer, parent,
position digest, UTC instant, payload hash and witness digest. -/
theorem hashBlockParts_inj {b₁ b₂ : Block}
    (h : (hashBlockParts keccak b₁).flatten = (hashBlockParts keccak b₂).flatten) :
    b₁.proposerID = b₂.proposerID ∧ b₁.parentHash = b₂.parentHash ∧
      hashPosition keccak b₁.position = hashPosition keccak b₂.position ∧
      b₁.timestamp = b₂.timestamp ∧ b₁.payloadHash = b₂.payloadHash ∧
      hashWitness keccak b₁.witness = hashWitness keccak b₂.witness := by
  have hp := flatten_inj_of_lengths (by simp [hashBlockParts]) h
  simp only [hashBlockParts, List.cons.injEq, Hash.bytes_inj, NodeID.hash_inj,
    and_true] at hp
  exact ⟨hp.1, hp.2.1, hp.2.2.1, Time.marshalBinary_injective hp.2.2.2.1, hp.2.2.2.2⟩

/-- **The bytes `HashVote` hashes determine the signed fields.** The partial
signature has no fixed length, but the type byte after it does, so the total length
fixes where one ends and the other begins. -/
theorem hashVoteParts_inj {v₁ v₂ : Vote}
    (h : (hashVoteParts keccak v₁).flatten = (hashVoteParts keccak v₂).flatten) :
    v₁.proposerID = v₂.proposerID ∧ v₁.blockHash = v₂.blockHash ∧
      v₁.period = v₂.period ∧
      hashPosition keccak v₁.position = hashPosition keccak v₂.position ∧
      v₁.partialSignature.signature = v₂.partialSignature.signature ∧
      v₁.type = v₂.type := by
  have hl := congrArg List.length h
  simp [hashVoteParts] at hl
  have hp := flatten_inj_of_lengths (by simp [hashVoteParts, hl]) h
  simp only [hashVoteParts, List.cons.injEq, Hash.bytes_inj, NodeID.hash_inj,
    putUint64_inj, and_true] at hp
  exact ⟨hp.1, hp.2.1, hp.2.2.1, hp.2.2.2.1, hp.2.2.2.2.1, VoteType.ext hp.2.2.2.2.2⟩

/-- **The bytes `hashDKGPrivateShare` hashes determine its fields.** -/
theorem hashDKGPrivateShareParts_inj {p₁ p₂ : PrivateShare}
    (h : (hashDKGPrivateShareParts p₁).flatten = (hashDKGPrivateShareParts p₂).flatten) :
    p₁.proposerID = p₂.proposerID ∧ p₁.receiverID = p₂.receiverID ∧
      p₁.round = p₂.round ∧ p₁.reset = p₂.reset ∧ p₁.privateShare = p₂.privateShare := by
  have hl := congrArg List.length h
  simp [hashDKGPrivateShareParts] at hl
  have hp := flatten_inj_of_lengths (by simp [hashDKGPrivateShareParts, hl]) h
  simpa only [hashDKGPrivateShareParts, List.cons.injEq, Hash.bytes_inj, NodeID.hash_inj,
    putUint64_inj, and_true] using hp

/-- **The bytes `hashDKGMasterPublicKey` hashes determine its fields**, when the two
DKG identifiers serialise to the same length: the identifier and the master key
bytes are both of variable length and sit side by side. -/
theorem hashDKGMasterPublicKeyParts_inj {m₁ m₂ : MasterPublicKey}
    (hid : m₁.dkgID.length = m₂.dkgID.length)
    (h : (hashDKGMasterPublicKeyParts m₁).flatten =
      (hashDKGMasterPublicKeyParts m₂).flatten) :
    m₁.proposerID = m₂.proposerID ∧ m₁.dkgID = m₂.dkgID ∧
      m₁.masterKeyBytes = m₂.masterKeyBytes ∧ m₁.round = m₂.round ∧
      m₁.reset = m₂.reset := by
  have hl := congrArg List.length h
  simp [hashDKGMasterPublicKeyParts, hid] at hl
  have hp := flatten_inj_of_lengths (by simp [hashDKGMasterPublicKeyParts, hl, hid]) h
  simpa only [hashDKGMasterPublicKeyParts, List.cons.injEq, Hash.bytes_inj,
    NodeID.hash_inj, putUint64_inj, and_true] using hp

/-- **The bytes `hashDKGComplaint` hashes determine its fields**, the embedded share
as its digest. -/
theorem hashDKGComplaintParts_inj {c₁ c₂ : Complaint}
    (h : (hashDKGComplaintParts keccak c₁).flatten =
      (hashDKGComplaintParts keccak c₂).flatten) :
    c₁.proposerID = c₂.proposerID ∧ c₁.round = c₂.round ∧ c₁.reset = c₂.reset ∧
      hashDKGPrivateShare keccak c₁.privateShare =
        hashDKGPrivateShare keccak c₂.privateShare := by
  have hp := flatten_inj_of_lengths (by simp [hashDKGComplaintParts]) h
  simpa only [hashDKGComplaintParts, List.cons.injEq, Hash.bytes_inj, NodeID.hash_inj,
    putUint64_inj, and_true] using hp

/-- **The bytes `hashDKGPartialSignature` hashes determine its fields.** -/
theorem hashDKGPartialSignatureParts_inj {p₁ p₂ : PartialSignature}
    (h : (hashDKGPartialSignatureParts p₁).flatten =
      (hashDKGPartialSignatureParts p₂).flatten) :
    p₁.proposerID = p₂.proposerID ∧ p₁.round = p₂.round ∧ p₁.hash = p₂.hash ∧
      p₁.partialSignature.signature = p₂.partialSignature.signature := by
  have hl := congrArg List.length h
  simp [hashDKGPartialSignatureParts] at hl
  have hp := flatten_inj_of_lengths (by simp [hashDKGPartialSignatureParts, hl]) h
  simpa only [hashDKGPartialSignatureParts, List.cons.injEq, Hash.bytes_inj,
    NodeID.hash_inj, putUint64_inj, and_true] using hp

/-- **The bytes of `hashDKGMPKReady`, `hashDKGFinalize` and `hashDKGSuccess`
determine proposer, round and reset.** -/
theorem proposerRoundResetParts_inj {id₁ id₂ : NodeID} {r₁ r₂ s₁ s₂ : UInt64}
    (h : (proposerRoundResetParts id₁ r₁ s₁).flatten =
      (proposerRoundResetParts id₂ r₂ s₂).flatten) :
    id₁ = id₂ ∧ r₁ = r₂ ∧ s₁ = s₂ := by
  have hp := flatten_inj_of_lengths (by simp [proposerRoundResetParts]) h
  simpa only [proposerRoundResetParts, List.cons.injEq, Hash.bytes_inj, NodeID.hash_inj,
    putUint64_inj, and_true] using hp

/-! ## Collision-freeness where it is needed -/

/-- `keccak` has no collision among the byte strings of `xs`. No function from all
byte strings to 32-byte hashes is injective, so this is the form a collision-freeness
hypothesis takes: on the strings a statement hashes. -/
def CollisionFreeOn (xs : List Bytes) : Prop :=
  ∀ x ∈ xs, ∀ y ∈ xs, keccak x = keccak y → x = y

instance (xs : List Bytes) : Decidable (CollisionFreeOn keccak xs) :=
  inferInstanceAs (Decidable (∀ x ∈ xs, ∀ y ∈ xs, _))

theorem CollisionFreeOn.eq {keccak : Bytes → Hash} {xs : List Bytes}
    (h : CollisionFreeOn keccak xs) {x y : Bytes} (hx : x ∈ xs) (hy : y ∈ xs)
    (he : keccak x = keccak y) : x = y :=
  h x hx y hy he

/-- The byte strings that checking a block hashes: its payload, its position's and
witness's inputs, and the block input. -/
def blockHashInputs (b : Block) : List Bytes :=
  [b.payload, (hashPositionParts b.position).flatten, (hashWitnessParts b.witness).flatten,
    (hashBlockParts keccak b).flatten]

/-! ## Messages of every signed kind -/

/-- The nine kinds of message the signer signs. -/
inductive SignedKind
  | block | vote | privateShare | masterPublicKey | complaint | partialSignature
  | mpkReady | finalize | success
deriving DecidableEq

/-- A message of one of the nine signed kinds. -/
inductive SignedMessage
  | block (b : Block)
  | vote (v : Vote)
  | privateShare (p : PrivateShare)
  | masterPublicKey (m : MasterPublicKey)
  | complaint (c : Complaint)
  | partialSignature (p : PartialSignature)
  | mpkReady (r : MPKReady)
  | finalize (f : Finalize)
  | success (s : Success)

namespace SignedMessage

/-- The kind of a message. -/
def kind : SignedMessage → SignedKind
  | block _ => .block
  | vote _ => .vote
  | privateShare _ => .privateShare
  | masterPublicKey _ => .masterPublicKey
  | complaint _ => .complaint
  | partialSignature _ => .partialSignature
  | mpkReady _ => .mpkReady
  | finalize _ => .finalize
  | success _ => .success

/-- The byte string a message's hash function passes to `crypto.Keccak256Hash`. -/
def digestInput : SignedMessage → Bytes
  | block b => (hashBlockParts keccak b).flatten
  | vote v => (hashVoteParts keccak v).flatten
  | privateShare p => (hashDKGPrivateShareParts p).flatten
  | masterPublicKey m => (hashDKGMasterPublicKeyParts m).flatten
  | complaint c => (hashDKGComplaintParts keccak c).flatten
  | partialSignature p => (hashDKGPartialSignatureParts p).flatten
  | mpkReady r => (proposerRoundResetParts r.proposerID r.round r.reset).flatten
  | finalize f => (proposerRoundResetParts f.proposerID f.round f.reset).flatten
  | success s => (proposerRoundResetParts s.proposerID s.round s.reset).flatten

/-- **No hash function separates the kinds.** Whatever Keccak-256 is, an `MPKReady`
and a `Finalize` from the same proposer for the same round and reset hand it the
same bytes. -/
theorem digestInput_not_domain_separated :
    ¬ ∃ keccak : Bytes → Hash, ∀ m₁ m₂ : SignedMessage, m₁.kind ≠ m₂.kind →
      m₁.digestInput keccak ≠ m₂.digestInput keccak := by
  rintro ⟨keccak, h⟩
  exact h (mpkReady ⟨⟨Hash.zero⟩, 0, 0, .empty⟩) (finalize ⟨⟨Hash.zero⟩, 0, 0, .empty⟩)
    (by decide) rfl

/-- The length of a message's digest input, read off its kind's layout: hashes are
32 bytes, integers 8, a UTC timestamp 15, the vote type 1. -/
def digestLength : SignedMessage → ℕ
  | block _ => 175
  | vote v => 105 + v.partialSignature.signature.length
  | privateShare p => 80 + p.privateShare.length
  | masterPublicKey m => 48 + m.dkgID.length + m.masterKeyBytes.length
  | complaint _ => 80
  | partialSignature p => 72 + p.partialSignature.signature.length
  | mpkReady _ | finalize _ | success _ => 48

theorem length_digestInput (m : SignedMessage) :
    (m.digestInput keccak).length = m.digestLength := by
  cases m <;>
    simp [digestInput, digestLength, hashBlockParts, hashVoteParts,
      hashDKGPrivateShareParts, hashDKGMasterPublicKeyParts, hashDKGComplaintParts,
      hashDKGPartialSignatureParts, proposerRoundResetParts] <;> omega

end SignedMessage

@[simp] theorem keccak256Hash_singleton (data : Bytes) :
    keccak256Hash keccak [data] = keccak data := by
  simp [keccak256Hash]

/-! ## Rehashing -/

/-- The loop of `Rehash`: while `i < count`, `result = crypto.Keccak256Hash(result[:])`
and `i++`, from counter value `i`, for at most `fuel` more turns. -/
def rehashLoop (count : UInt64) : ℕ → UInt64 → Hash → Hash
  | 0, _, result => result
  | fuel + 1, i, result =>
    if i < count then rehashLoop count fuel (i + 1) (keccak256Hash keccak [result.bytes])
    else result

/-- `Rehash(hash, count)`: the loop from `i := uint(0)`, given `count` turns of fuel. -/
def rehash (hash : Hash) (count : UInt64) : Hash :=
  rehashLoop keccak count count.toNat 0 hash

/-- **The loop hashes `count - i` times** from counter value `i`, when the fuel covers
that many turns: the `uint` counter stops at `count`, so it never wraps. -/
theorem rehashLoop_eq_iterate (count : UInt64) (fuel : ℕ) (i : UInt64) (result : Hash)
    (hfuel : count.toNat ≤ i.toNat + fuel) :
    rehashLoop keccak count fuel i result =
      (fun r : Hash => keccak r.bytes)^[count.toNat - i.toNat] result := by
  induction fuel generalizing i result with
  | zero => rw [rehashLoop, show count.toNat - i.toNat = 0 by omega]; rfl
  | succ fuel ih =>
    by_cases hi : i < count
    · have hlt : i.toNat < count.toNat := hi
      have hsucc : (i + 1).toNat = i.toNat + 1 :=
        UInt64.toNat_add_of_lt (by have := count.toNat_lt_size; simp [UInt64.size] at *; omega)
      rw [rehashLoop, if_pos hi, ih (i + 1) _ (by omega), hsucc,
        show count.toNat - i.toNat = count.toNat - (i.toNat + 1) + 1 by omega,
        Function.iterate_succ_apply, keccak256Hash_singleton]
    · have hle : count.toNat ≤ i.toNat := Nat.le_of_not_lt hi
      rw [rehashLoop, if_neg hi, Nat.sub_eq_zero_of_le hle]; rfl

/-- **`Rehash(hash, count)` hashes `count` times.** -/
theorem rehash_eq_iterate (hash : Hash) (count : UInt64) :
    rehash keccak hash count = (fun r : Hash => keccak r.bytes)^[count.toNat] hash := by
  rw [rehash, rehashLoop_eq_iterate keccak count _ 0 hash (by simp), UInt64.toNat_zero,
    Nat.sub_zero]

/-- **`Rehash` composes.** `Rehash(h, n + m) = Rehash(Rehash(h, n), m)` whenever `n + m`
does not wrap, `Rehash(h, 0) = h`, and `Rehash(h, n)` is Keccak-256 iterated `n` times
on `h`. -/
theorem rehash_add (h : Hash) (n m : UInt64) (hnm : n.toNat + m.toNat < 2 ^ 64) :
    rehash keccak h (n + m) = rehash keccak (rehash keccak h n) m ∧ rehash keccak h 0 = h ∧
      rehash keccak h n = (fun r : Hash => keccak r.bytes)^[n.toNat] h := by
  refine ⟨?_, by simp [rehash_eq_iterate], rehash_eq_iterate keccak h n⟩
  rw [rehash_eq_iterate, rehash_eq_iterate, rehash_eq_iterate, UInt64.toNat_add_of_lt hnm,
    add_comm, Function.iterate_add_apply]

/-- Rehashing three times with a constant hash function, split as once and twice. -/
theorem rehash_add_one_two :
    (1 : UInt64).toNat + (2 : UInt64).toNat < 2 ^ 64 ∧
      (rehash (fun _ => Hash.zero) Hash.skip (1 + 2) =
          rehash (fun _ => Hash.zero) (rehash (fun _ => Hash.zero) Hash.skip 1) 2 ∧
        rehash (fun _ => Hash.zero) Hash.skip 0 = Hash.skip ∧
        rehash (fun _ => Hash.zero) Hash.skip 1 =
          (fun r : Hash => (fun _ => Hash.zero) r.bytes)^[(1 : UInt64).toNat] Hash.skip) :=
  ⟨by decide, rehash_add _ Hash.skip 1 2 (by decide)⟩
