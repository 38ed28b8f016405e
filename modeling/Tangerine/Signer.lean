import Tangerine.Hashing

/-!
# Signing and verifying

`core/utils/signer.go` signs, and `core/utils/crypto.go` verifies, every message
kind. The cryptography is a collaborator: `Crypto` collects the primitives the two
files call, over abstract types of private and public keys. Go's in-place mutation
becomes a function that returns the updated message together with the `error` the
Go function returns (`none` for `nil`).

Seven of the nine kinds are signed and verified by one and the same body: set the
proposer, sign the digest; recover the key from the signature, compare identities.
That body is `signMessage`/`verifyMessage`, over a `Signable` description of the
kind's proposer and signature fields, and each `Sign…`/`Verify…Signature` of the
source is that body applied to its kind's fields and hash function. Blocks, the CRS
and complaints keep bodies of their own.

The round threshold `dkgDelayRound` is a package variable of `core/utils` that is not
in this repository, and the DKG public keys a CRS signature is checked against are
of a type outside it: both are parameters.
-/

/-- The primitives of `core/crypto` the signer and the verifiers call. -/
structure Crypto (Priv Pub : Type) where
  /-- Keccak-256 of a byte string. -/
  keccak : Bytes → Hash
  /-- `PrivateKey.PublicKey()`. -/
  publicKey : Priv → Pub
  /-- `PrivateKey.Sign(hash)`: a signature, and an error or `nil`. -/
  sign : Priv → Hash → Signature × Option Error
  /-- `crypto.SigToPub(hash, signature)`: the public key a signature recovers. -/
  sigToPub : Hash → Signature → Except Error Pub
  /-- `types.NewNodeID(pubKey)`. -/
  newNodeID : Pub → NodeID

/-- **The one cryptographic assumption**: when `k.Sign(h)` succeeds,
`SigToPub(h, ·)` recovers `k.PublicKey()` from its signature. -/
def Crypto.Recovers {Priv Pub : Type} (C : Crypto Priv Pub) : Prop :=
  ∀ k h, (C.sign k h).2 = none → C.sigToPub h (C.sign k h).1 = .ok (C.publicKey k)

variable {Priv Pub : Type} (C : Crypto Priv Pub)

/-- `utils.Signer`, as `NewSigner` builds it: its public key and node identity are
those of its private key. -/
structure Signer where
  /-- The private key. -/
  prvKey : Priv
  /-- The public key, `prvKey.PublicKey()`. -/
  pubKey : Pub
  /-- The node identity, `NewNodeID(pubKey)`. -/
  proposerID : NodeID
  /-- The threshold signer for CRS signatures, once `SetBLSSigner` has set it. -/
  blsSign : Option (UInt64 → Hash → Signature × Option Error)
  /-- The public key is the private key's. -/
  pubKey_eq : pubKey = C.publicKey prvKey
  /-- The node identity is the public key's. -/
  proposerID_eq : proposerID = C.newNodeID pubKey

namespace Signer

variable {C}

/-- `utils.NewSigner`. -/
def new (prvKey : Priv) : Signer C :=
  ⟨prvKey, C.publicKey prvKey, C.newNodeID (C.publicKey prvKey), none, rfl, rfl⟩

/-- `Signer.SetBLSSigner`. -/
def setBLSSigner (s : Signer C) (signer : UInt64 → Hash → Signature × Option Error) :
    Signer C :=
  { s with blsSign := some signer }

theorem newNodeID_publicKey (s : Signer C) :
    C.newNodeID (C.publicKey s.prvKey) = s.proposerID := by
  rw [s.proposerID_eq, s.pubKey_eq]

end Signer

/-! ## The shared body -/

/-- How the signer reaches into a message kind: its proposer and signature fields,
with the laws a record's fields obey. -/
structure Signable (α : Type) where
  /-- The proposer field. -/
  proposerID : α → NodeID
  /-- Assigning the proposer field. -/
  setProposerID : α → NodeID → α
  /-- The signature field. -/
  signature : α → Signature
  /-- Assigning the signature field. -/
  setSignature : α → Signature → α
  proposerID_setProposerID : ∀ m id, proposerID (setProposerID m id) = id
  proposerID_setSignature : ∀ m sig, proposerID (setSignature m sig) = proposerID m
  signature_setSignature : ∀ m sig, signature (setSignature m sig) = sig

variable {α : Type}

/-- The body of `SignVote` and of every `SignDKG…`: assign the signer's identity,
then sign the digest of the result. -/
def signMessage (M : Signable α) (digest : α → Hash) (s : Signer C) (m : α) :
    α × Option Error :=
  let m := M.setProposerID m s.proposerID
  let r := C.sign s.prvKey (digest m)
  (M.setSignature m r.1, r.2)

/-- The body of `VerifyVoteSignature` and of every `VerifyDKG…Signature` but the
complaint's: recover the key from the signature and compare its node identity with
the claimed proposer. -/
def verifyMessage (M : Signable α) (digest : α → Hash) (m : α) : Except Error Bool :=
  match C.sigToPub (digest m) (M.signature m) with
  | .error e => .error e
  | .ok pubKey => .ok (decide (M.proposerID m = C.newNodeID pubKey))

/-- **What `signMessage` signs, `verifyMessage` accepts**, for any kind whose digest
does not read the signature. -/
theorem verifyMessage_signMessage (hC : C.Recovers) (M : Signable α) (digest : α → Hash)
    (hd : ∀ m sig, digest (M.setSignature m sig) = digest m) {s : Signer C} {m m' : α}
    (h : signMessage C M digest s m = (m', none)) :
    verifyMessage C M digest m' = .ok true := by
  simp only [signMessage, Prod.mk.injEq] at h
  obtain ⟨rfl, hs⟩ := h
  simp [verifyMessage, hd, M.signature_setSignature, hC _ _ hs,
    M.proposerID_setSignature, M.proposerID_setProposerID, s.newNodeID_publicKey]

theorem verifyMessage_eq_ok_true {M : Signable α} {digest : α → Hash} {m : α} :
    verifyMessage C M digest m = .ok true ↔
      ∃ pubKey, C.sigToPub (digest m) (M.signature m) = .ok pubKey ∧
        M.proposerID m = C.newNodeID pubKey := by
  unfold verifyMessage
  split <;> simp_all

/-! ## The kinds signed by the shared body -/

/-- The proposer and signature fields of a vote. -/
def Vote.signable : Signable Vote where
  proposerID := Vote.proposerID
  setProposerID v id := { v with proposerID := id }
  signature := Vote.signature
  setSignature v sig := { v with signature := sig }
  proposerID_setProposerID _ _ := rfl
  proposerID_setSignature _ _ := rfl
  signature_setSignature _ _ := rfl

/-- The proposer and signature fields of a private share. -/
def PrivateShare.signable : Signable PrivateShare where
  proposerID := PrivateShare.proposerID
  setProposerID p id := { p with proposerID := id }
  signature := PrivateShare.signature
  setSignature p sig := { p with signature := sig }
  proposerID_setProposerID _ _ := rfl
  proposerID_setSignature _ _ := rfl
  signature_setSignature _ _ := rfl

/-- The proposer and signature fields of a master public key. -/
def MasterPublicKey.signable : Signable MasterPublicKey where
  proposerID := MasterPublicKey.proposerID
  setProposerID m id := { m with proposerID := id }
  signature := MasterPublicKey.signature
  setSignature m sig := { m with signature := sig }
  proposerID_setProposerID _ _ := rfl
  proposerID_setSignature _ _ := rfl
  signature_setSignature _ _ := rfl

/-- The proposer and signature fields of a complaint. -/
def Complaint.signable : Signable Complaint where
  proposerID := Complaint.proposerID
  setProposerID c id := { c with proposerID := id }
  signature := Complaint.signature
  setSignature c sig := { c with signature := sig }
  proposerID_setProposerID _ _ := rfl
  proposerID_setSignature _ _ := rfl
  signature_setSignature _ _ := rfl

/-- The proposer and signature fields of a partial signature message. -/
def PartialSignature.signable : Signable PartialSignature where
  proposerID := PartialSignature.proposerID
  setProposerID p id := { p with proposerID := id }
  signature := PartialSignature.signature
  setSignature p sig := { p with signature := sig }
  proposerID_setProposerID _ _ := rfl
  proposerID_setSignature _ _ := rfl
  signature_setSignature _ _ := rfl

/-- The proposer and signature fields of an `MPKReady`. -/
def MPKReady.signable : Signable MPKReady where
  proposerID := MPKReady.proposerID
  setProposerID r id := { r with proposerID := id }
  signature := MPKReady.signature
  setSignature r sig := { r with signature := sig }
  proposerID_setProposerID _ _ := rfl
  proposerID_setSignature _ _ := rfl
  signature_setSignature _ _ := rfl

/-- The proposer and signature fields of a `Finalize`. -/
def Finalize.signable : Signable Finalize where
  proposerID := Finalize.proposerID
  setProposerID f id := { f with proposerID := id }
  signature := Finalize.signature
  setSignature f sig := { f with signature := sig }
  proposerID_setProposerID _ _ := rfl
  proposerID_setSignature _ _ := rfl
  signature_setSignature _ _ := rfl

/-- The proposer and signature fields of a `Success`. -/
def Success.signable : Signable Success where
  proposerID := Success.proposerID
  setProposerID s id := { s with proposerID := id }
  signature := Success.signature
  setSignature s sig := { s with signature := sig }
  proposerID_setProposerID _ _ := rfl
  proposerID_setSignature _ _ := rfl
  signature_setSignature _ _ := rfl

/-- `Signer.SignVote`. -/
def signVote (s : Signer C) (vote : Vote) : Vote × Option Error :=
  signMessage C Vote.signable (hashVote C.keccak) s vote

/-- `utils.VerifyVoteSignature`. -/
def verifyVoteSignature (vote : Vote) : Except Error Bool :=
  verifyMessage C Vote.signable (hashVote C.keccak) vote

/-- `Signer.SignDKGPrivateShare`. -/
def signDKGPrivateShare (s : Signer C) (prvShare : PrivateShare) :
    PrivateShare × Option Error :=
  signMessage C PrivateShare.signable (hashDKGPrivateShare C.keccak) s prvShare

/-- `utils.VerifyDKGPrivateShareSignature`. -/
def verifyDKGPrivateShareSignature (prvShare : PrivateShare) : Except Error Bool :=
  verifyMessage C PrivateShare.signable (hashDKGPrivateShare C.keccak) prvShare

/-- `Signer.SignDKGMasterPublicKey`. -/
def signDKGMasterPublicKey (s : Signer C) (mpk : MasterPublicKey) :
    MasterPublicKey × Option Error :=
  signMessage C MasterPublicKey.signable (hashDKGMasterPublicKey C.keccak) s mpk

/-- `utils.VerifyDKGMasterPublicKeySignature`. -/
def verifyDKGMasterPublicKeySignature (mpk : MasterPublicKey) : Except Error Bool :=
  verifyMessage C MasterPublicKey.signable (hashDKGMasterPublicKey C.keccak) mpk

/-- `Signer.SignDKGComplaint`. -/
def signDKGComplaint (s : Signer C) (complaint : Complaint) : Complaint × Option Error :=
  signMessage C Complaint.signable (hashDKGComplaint C.keccak) s complaint

/-- `Signer.SignDKGPartialSignature`. -/
def signDKGPartialSignature (s : Signer C) (pSig : PartialSignature) :
    PartialSignature × Option Error :=
  signMessage C PartialSignature.signable (hashDKGPartialSignature C.keccak) s pSig

/-- `utils.VerifyDKGPartialSignatureSignature`. -/
def verifyDKGPartialSignatureSignature (psig : PartialSignature) : Except Error Bool :=
  verifyMessage C PartialSignature.signable (hashDKGPartialSignature C.keccak) psig

/-- `Signer.SignDKGMPKReady`. -/
def signDKGMPKReady (s : Signer C) (ready : MPKReady) : MPKReady × Option Error :=
  signMessage C MPKReady.signable (hashDKGMPKReady C.keccak) s ready

/-- `utils.VerifyDKGMPKReadySignature`. -/
def verifyDKGMPKReadySignature (ready : MPKReady) : Except Error Bool :=
  verifyMessage C MPKReady.signable (hashDKGMPKReady C.keccak) ready

/-- `Signer.SignDKGFinalize`. -/
def signDKGFinalize (s : Signer C) (final : Finalize) : Finalize × Option Error :=
  signMessage C Finalize.signable (hashDKGFinalize C.keccak) s final

/-- `utils.VerifyDKGFinalizeSignature`. -/
def verifyDKGFinalizeSignature (final : Finalize) : Except Error Bool :=
  verifyMessage C Finalize.signable (hashDKGFinalize C.keccak) final

/-- `Signer.SignDKGSuccess`. -/
def signDKGSuccess (s : Signer C) (success : Success) : Success × Option Error :=
  signMessage C Success.signable (hashDKGSuccess C.keccak) s success

/-- `utils.VerifyDKGSuccessSignature`. -/
def verifyDKGSuccessSignature (success : Success) : Except Error Bool :=
  verifyMessage C Success.signable (hashDKGSuccess C.keccak) success

/-! ## Kinds with bodies of their own -/

/-- `utils.VerifyDKGComplaintSignature`. A complaint's round and reset must be its
share's; unless it is a nack, the share's own signature is checked as well.
`IsNack` is a method of `typesDKG.Complaint`, outside this repository, and is a
parameter. -/
def verifyDKGComplaintSignature (isNack : Complaint → Bool) (complaint : Complaint) :
    Except Error Bool :=
  if complaint.round ≠ complaint.privateShare.round then .ok false
  else if complaint.reset ≠ complaint.privateShare.reset then .ok false
  else match C.sigToPub (hashDKGComplaint C.keccak complaint) complaint.signature with
    | .error e => .error e
    | .ok pubKey =>
      if complaint.proposerID ≠ C.newNodeID pubKey then .ok false
      else if !isNack complaint then verifyDKGPrivateShareSignature C complaint.privateShare
      else .ok true

/-- `Signer.SignBlock`: assign the proposer and the payload hash, hash the block,
sign the hash. `HashBlock` cannot fail (see `hashBlock`). -/
def signBlock (s : Signer C) (b : Block) : Block × Option Error :=
  let b := { b with proposerID := s.proposerID,
                    payloadHash := keccak256Hash C.keccak [b.payload] }
  let b := { b with hash := hashBlock C.keccak b }
  let r := C.sign s.prvKey b.hash
  ({ b with signature := r.1 }, r.2)

/-- `utils.VerifyBlockSignatureWithoutPayload`. -/
def verifyBlockSignatureWithoutPayload (b : Block) : Option Error :=
  if hashBlock C.keccak b ≠ b.hash then some .incorrectHash
  else match C.sigToPub b.hash b.signature with
    | .error e => some e
    | .ok pubKey =>
      if b.proposerID ≠ C.newNodeID pubKey then some .incorrectSignature else none

/-- `utils.VerifyBlockSignature`: the payload hash first, then the rest. -/
def verifyBlockSignature (b : Block) : Option Error :=
  if keccak256Hash C.keccak [b.payload] ≠ b.payloadHash then some .incorrectHash
  else verifyBlockSignatureWithoutPayload C b

/-- `Signer.SignCRS`. Below `dkgDelayRound` the "signature" is the digest itself;
from it on, the threshold signer signs, if one is set. -/
def signCRS (dkgDelayRound : UInt64) (s : Signer C) (b : Block) (crs : Hash) :
    Block × Option Error :=
  if b.proposerID ≠ s.proposerID then (b, some .invalidProposerID)
  else if b.position.round < dkgDelayRound then
    ({ b with crsSignature := ⟨"bls", (hashCRS C.keccak dkgDelayRound b crs).bytes⟩ }, none)
  else match s.blsSign with
    | none => (b, some .noBLSSigner)
    | some blsSign =>
      let r := blsSign b.position.round (hashCRS C.keccak dkgDelayRound b crs)
      ({ b with crsSignature := r.1 }, r.2)

/-- `utils.VerifyCRSSignature`. `npks` stands for the round's
`typesDKG.NodePublicKeys`: `none` for `nil`, otherwise its map from node identities
to DKG public keys; `verifySignature` is the DKG public key's `VerifySignature`. -/
def verifyCRSSignature {DKGPub : Type} (verifySignature : DKGPub → Hash → Signature → Bool)
    (dkgDelayRound : UInt64) (b : Block) (crs : Hash)
    (npks : Option (NodeID → Option DKGPub)) : Bool :=
  let hash := hashCRS C.keccak dkgDelayRound b crs
  if b.position.round < dkgDelayRound then decide (b.crsSignature.signature = hash.bytes)
  else match npks with
    | none => false
    | some publicKeys =>
      match publicKeys b.proposerID with
      | none => false
      | some pubKey => verifySignature pubKey hash b.crsSignature

/-! ## Sign and verify agree -/

section Agree

variable {C} (hC : C.Recovers) {s : Signer C}
include hC

/-- **A block `SignBlock` signed passes `VerifyBlockSignature`.** -/
theorem verifyBlockSignature_signBlock {b b' : Block} (h : signBlock C s b = (b', none)) :
    verifyBlockSignature C b' = none := by
  simp only [signBlock, Prod.mk.injEq] at h
  obtain ⟨rfl, hs⟩ := h
  simp only [hashBlock, hashBlockParts, keccak256Hash_singleton] at hs
  simp [verifyBlockSignature, verifyBlockSignatureWithoutPayload, hashBlock, hashBlockParts,
    hC _ _ hs, s.newNodeID_publicKey]

/-- **A complaint `SignDKGComplaint` signed passes `VerifyDKGComplaintSignature`
exactly when** its round and reset are its share's and it is a nack or its share's
signature verifies. -/
theorem verifyDKGComplaintSignature_signDKGComplaint (isNack : Complaint → Bool)
    {c c' : Complaint} (h : signDKGComplaint C s c = (c', none)) :
    verifyDKGComplaintSignature C isNack c' = .ok true ↔
      c'.round = c'.privateShare.round ∧ c'.reset = c'.privateShare.reset ∧
        (isNack c' = true ∨ verifyDKGPrivateShareSignature C c'.privateShare = .ok true) := by
  obtain ⟨pubKey, hpub, hid⟩ := (verifyMessage_eq_ok_true C).1
    (verifyMessage_signMessage C hC _ _ (fun _ _ => rfl) h)
  simp only [Complaint.signable] at hpub hid
  unfold verifyDKGComplaintSignature
  by_cases hr : c'.round = c'.privateShare.round <;>
    by_cases hs : c'.reset = c'.privateShare.reset <;>
    cases hn : isNack c' <;> simp [hr, hs, hn, hpub, hid]

end Agree

/-- What may happen to a signed block without its being signed again: a CRS
signature, by any signer, or its randomness being set. -/
inductive BlockUpdate
  /-- `Signer.SignCRS`, successful or not. -/
  | withCRS (s : Signer C) (crs : Hash)
  /-- An assignment to `Randomness`. -/
  | withRandomness (randomness : Bytes)

/-- Applies an update to a block. -/
def BlockUpdate.apply (dkgDelayRound : UInt64) : BlockUpdate C → Block → Block
  | withCRS s crs, b => (signCRS C dkgDelayRound s b crs).1
  | withRandomness r, b => { b with randomness := r }

/-- An update touches the CRS signature and the randomness only. -/
theorem BlockUpdate.apply_eq (dkgDelayRound : UInt64) (u : BlockUpdate C) (b : Block) :
    ∃ sig r, u.apply C dkgDelayRound b = { b with crsSignature := sig, randomness := r } := by
  cases u with
  | withRandomness r => exact ⟨b.crsSignature, r, rfl⟩
  | withCRS s crs =>
    simp only [apply, signCRS]
    split
    · exact ⟨b.crsSignature, b.randomness, rfl⟩
    split
    · exact ⟨_, b.randomness, rfl⟩
    split
    · exact ⟨b.crsSignature, b.randomness, rfl⟩
    · exact ⟨_, b.randomness, rfl⟩

/-- **Updates after signing leave block verification alone**: it reads neither the
CRS signature nor the randomness. -/
theorem verifyBlockSignature_foldl_apply (dkgDelayRound : UInt64) (us : List (BlockUpdate C))
    (b : Block) :
    verifyBlockSignature C (us.foldl (fun b u => u.apply C dkgDelayRound b) b) =
      verifyBlockSignature C b := by
  induction us generalizing b with
  | nil => rfl
  | cons u us ih =>
    obtain ⟨sig, r, hu⟩ := u.apply_eq C dkgDelayRound b
    rw [List.foldl_cons, ih, hu]
    rfl

/-- **A CRS signature `SignCRS` made passes `VerifyCRSSignature`.** Below
`dkgDelayRound` for every `npks`; from it on, against a key of the proposer under
which the signer's threshold signatures verify. -/
theorem verifyCRSSignature_signCRS {DKGPub : Type}
    (verifySignature : DKGPub → Hash → Signature → Bool) (dkgDelayRound : UInt64)
    {s : Signer C} {b b' : Block} {crs : Hash}
    (h : signCRS C dkgDelayRound s b crs = (b', none)) :
    (b.position.round < dkgDelayRound →
      ∀ npks, verifyCRSSignature C verifySignature dkgDelayRound b' crs npks = true) ∧
    (dkgDelayRound ≤ b.position.round →
      ∀ publicKeys pubKey, publicKeys b.proposerID = some pubKey →
        (∀ blsSign, s.blsSign = some blsSign → ∀ hash sig,
          blsSign b.position.round hash = (sig, none) → verifySignature pubKey hash sig) →
        verifyCRSSignature C verifySignature dkgDelayRound b' crs (some publicKeys)) := by
  unfold signCRS at h
  split at h
  · cases h
  by_cases hr : b.position.round < dkgDelayRound
  · simp only [hr, if_true, Prod.mk.injEq] at h
    obtain ⟨rfl, -⟩ := h
    refine ⟨fun _ _ => ?_, fun hle => absurd hr (UInt64.not_lt.2 hle)⟩
    simp [verifyCRSSignature, hashCRS, hashPosition, hr]
  · simp only [hr, if_false] at h
    refine ⟨fun h' => absurd h' hr, fun _ publicKeys pubKey hk hbls => ?_⟩
    split at h
    · cases h
    · rename_i blsSign hb
      simp only [Prod.mk.injEq] at h
      obtain ⟨rfl, hs⟩ := h
      have hv := hbls blsSign hb _ _ (Prod.ext rfl hs)
      simpa [verifyCRSSignature, hr, hk] using hv

/-- **What `SignBlock` stores**, whether or not signing succeeds: the payload hash of
the payload, and the hash of the block. -/
theorem signBlock_spec {s : Signer C} {b₀ b : Block} {e : Option Error}
    (h : signBlock C s b₀ = (b, e)) :
    b.payloadHash = keccak256Hash C.keccak [b.payload] ∧ b.hash = hashBlock C.keccak b := by
  simp only [signBlock, Prod.mk.injEq] at h
  obtain ⟨rfl, -⟩ := h
  exact ⟨rfl, rfl⟩

/-- **Tampering with a signed block is detected.** Change any field `HashBlock`
signs, or the payload, of a block `SignBlock` produced, keep its hash: if Keccak-256
has no collision among the strings the two blocks hash, `VerifyBlockSignature`
reports `ErrIncorrectHash`. -/
theorem verifyBlockSignature_tampered {s : Signer C} {b₀ b b' : Block}
    (h : signBlock C s b₀ = (b, none)) (hh : b'.hash = b.hash)
    (hK : CollisionFreeOn C.keccak (blockHashInputs C.keccak b ++ blockHashInputs C.keccak b'))
    (hd : b'.proposerID ≠ b.proposerID ∨ b'.parentHash ≠ b.parentHash ∨
      b'.position ≠ b.position ∨ b'.timestamp ≠ b.timestamp ∨ b'.payload ≠ b.payload ∨
      b'.payloadHash ≠ b.payloadHash ∨ b'.witness ≠ b.witness) :
    verifyBlockSignature C b' = some .incorrectHash := by
  by_contra hne
  have hp : keccak256Hash C.keccak [b'.payload] = b'.payloadHash := by
    by_contra hp
    exact hne (by simp only [verifyBlockSignature, if_pos hp])
  have hb : hashBlock C.keccak b' = b'.hash := by
    by_contra hb
    exact hne (by simp only [verifyBlockSignature, verifyBlockSignatureWithoutPayload, hp,
      if_pos hb, ne_eq, not_true_eq_false, if_false])
  obtain ⟨hbp, hbh⟩ := signBlock_spec C h
  obtain ⟨h₁, h₂, h₃, h₄, h₅, h₆⟩ := hashBlockParts_inj C.keccak
    (hK.eq (by simp [blockHashInputs]) (by simp [blockHashInputs]) (hb.trans (hh.trans hbh)))
  have hpos := hashPositionParts_inj
    (hK.eq (by simp [blockHashInputs]) (by simp [blockHashInputs]) h₃)
  have hw := hashWitnessParts_inj
    (hK.eq (by simp [blockHashInputs]) (by simp [blockHashInputs]) h₆)
  have hpay : b'.payload = b.payload := by
    refine hK.eq (by simp [blockHashInputs]) (by simp [blockHashInputs]) ?_
    simpa using hp.trans (h₅.trans hbp)
  rcases hd with hd | hd | hd | hd | hd | hd | hd <;> contradiction

/-! ## Every kind, at once -/

/-- **Sign and verify agree for every signable kind.** When `SigToPub` recovers the
signer's key: a block `SignBlock` signed passes `VerifyBlockSignature`, and keeps
passing through any later CRS signing and randomness assignment; a vote or a DKG
message its `Sign…` signed passes its `Verify…Signature`; a signed complaint passes
exactly when its round and reset are its share's and it is a nack or its share
verifies; a CRS signature `SignCRS` made verifies, below `dkgDelayRound` against any
keys, from it on against a proposer key its threshold signatures verify under. -/
theorem sign_verify_agree (hC : C.Recovers) (s : Signer C) (dkgDelayRound : UInt64)
    (isNack : Complaint → Bool) {DKGPub : Type}
    (verifySignature : DKGPub → Hash → Signature → Bool) :
    (∀ b b', signBlock C s b = (b', none) → ∀ us : List (BlockUpdate C),
      verifyBlockSignature C (us.foldl (fun b u => u.apply C dkgDelayRound b) b') = none) ∧
    (∀ v v', signVote C s v = (v', none) → verifyVoteSignature C v' = .ok true) ∧
    (∀ p p', signDKGPrivateShare C s p = (p', none) →
      verifyDKGPrivateShareSignature C p' = .ok true) ∧
    (∀ m m', signDKGMasterPublicKey C s m = (m', none) →
      verifyDKGMasterPublicKeySignature C m' = .ok true) ∧
    (∀ p p', signDKGPartialSignature C s p = (p', none) →
      verifyDKGPartialSignatureSignature C p' = .ok true) ∧
    (∀ r r', signDKGMPKReady C s r = (r', none) → verifyDKGMPKReadySignature C r' = .ok true) ∧
    (∀ f f', signDKGFinalize C s f = (f', none) → verifyDKGFinalizeSignature C f' = .ok true) ∧
    (∀ x x', signDKGSuccess C s x = (x', none) → verifyDKGSuccessSignature C x' = .ok true) ∧
    (∀ c c', signDKGComplaint C s c = (c', none) →
      (verifyDKGComplaintSignature C isNack c' = .ok true ↔
        c'.round = c'.privateShare.round ∧ c'.reset = c'.privateShare.reset ∧
          (isNack c' = true ∨ verifyDKGPrivateShareSignature C c'.privateShare = .ok true))) ∧
    (∀ b b' crs, signCRS C dkgDelayRound s b crs = (b', none) →
      (b.position.round < dkgDelayRound →
        ∀ npks, verifyCRSSignature C verifySignature dkgDelayRound b' crs npks = true) ∧
      (dkgDelayRound ≤ b.position.round →
        ∀ publicKeys pubKey, publicKeys b.proposerID = some pubKey →
          (∀ blsSign, s.blsSign = some blsSign → ∀ hash sig,
            blsSign b.position.round hash = (sig, none) → verifySignature pubKey hash sig) →
          verifyCRSSignature C verifySignature dkgDelayRound b' crs (some publicKeys))) := by
  have shared := fun {α} (M : Signable α) digest hd {m m'} =>
    @verifyMessage_signMessage _ _ C α hC M digest hd s m m'
  refine ⟨fun b b' h us => ?_, fun _ _ => shared _ _ (fun _ _ => rfl),
    fun _ _ => shared _ _ (fun _ _ => rfl), fun _ _ => shared _ _ (fun _ _ => rfl),
    fun _ _ => shared _ _ (fun _ _ => rfl), fun _ _ => shared _ _ (fun _ _ => rfl),
    fun _ _ => shared _ _ (fun _ _ => rfl), fun _ _ => shared _ _ (fun _ _ => rfl),
    fun _ _ => verifyDKGComplaintSignature_signDKGComplaint hC isNack,
    fun _ _ _ => verifyCRSSignature_signCRS C verifySignature dkgDelayRound⟩
  rw [verifyBlockSignature_foldl_apply, verifyBlockSignature_signBlock hC h]

/-- Primitives where a signature is the hash it signs and every key is the one
key: the simplest instance of `Crypto.Recovers`. -/
def Crypto.toy : Crypto Unit Unit where
  keccak x := ⟨(x ++ List.replicate 32 0).take 32, by simp⟩
  publicKey _ := ()
  sign _ h := (⟨"toy", h.bytes⟩, none)
  sigToPub _ _ := .ok ()
  newNodeID _ := ⟨Hash.skip⟩

theorem sign_verify_agree_toy :
    Crypto.toy.Recovers ∧
      verifyVoteSignature Crypto.toy
        (signVote Crypto.toy (Signer.new ()) (newVote .init Hash.zero 0)).1 = .ok true :=
  ⟨fun _ _ _ => rfl,
    (sign_verify_agree Crypto.toy (fun _ _ _ => rfl) (Signer.new ()) 0 (fun _ => true)
      (fun (_ : Unit) _ _ => true)).2.1 _ _ rfl⟩

/-- The `Finalize` verifier is the `MPKReady` verifier on the same fields. -/
theorem verifyDKGFinalizeSignature_eq (id : NodeID) (round reset : UInt64)
    (sig : Signature) :
    verifyDKGFinalizeSignature C ⟨id, round, reset, sig⟩ =
      verifyDKGMPKReadySignature C ⟨id, round, reset, sig⟩ := rfl

/-- The `Success` verifier is the `MPKReady` verifier on the same fields. -/
theorem verifyDKGSuccessSignature_eq (id : NodeID) (round reset : UInt64)
    (sig : Signature) :
    verifyDKGSuccessSignature C ⟨id, round, reset, sig⟩ =
      verifyDKGMPKReadySignature C ⟨id, round, reset, sig⟩ := rfl

/-- **Kinds are separated only by the lengths of their digest inputs, and the three
DKG acknowledgements not at all.** The nine kinds hand Keccak-256 strings of the
lengths `SignedMessage.digestLength` gives, so two kinds whose lengths differ never
share a string. `MPKReady`, `Finalize` and `Success` hash their proposer, round and
reset alone: with equal fields they hand it the same string, and a signature any of
their `Sign…` made passes the verifiers of the other two. -/
theorem dkg_acks_share_digest (hC : C.Recovers) (s : Signer C) :
    (∀ m : SignedMessage, (m.digestInput C.keccak).length = m.digestLength) ∧
    (∀ (id : NodeID) (round reset : UInt64) (sig₁ sig₂ sig₃ : Signature),
      (SignedMessage.mpkReady ⟨id, round, reset, sig₁⟩).digestInput C.keccak =
          (SignedMessage.finalize ⟨id, round, reset, sig₂⟩).digestInput C.keccak ∧
        (SignedMessage.finalize ⟨id, round, reset, sig₂⟩).digestInput C.keccak =
          (SignedMessage.success ⟨id, round, reset, sig₃⟩).digestInput C.keccak) ∧
    (∀ r r', signDKGMPKReady C s r = (r', none) →
      verifyDKGFinalizeSignature C ⟨r'.proposerID, r'.round, r'.reset, r'.signature⟩ =
          .ok true ∧
        verifyDKGSuccessSignature C ⟨r'.proposerID, r'.round, r'.reset, r'.signature⟩ =
          .ok true) ∧
    (∀ f f', signDKGFinalize C s f = (f', none) →
      verifyDKGMPKReadySignature C ⟨f'.proposerID, f'.round, f'.reset, f'.signature⟩ =
          .ok true ∧
        verifyDKGSuccessSignature C ⟨f'.proposerID, f'.round, f'.reset, f'.signature⟩ =
          .ok true) ∧
    (∀ x x', signDKGSuccess C s x = (x', none) →
      verifyDKGMPKReadySignature C ⟨x'.proposerID, x'.round, x'.reset, x'.signature⟩ =
          .ok true ∧
        verifyDKGFinalizeSignature C ⟨x'.proposerID, x'.round, x'.reset, x'.signature⟩ =
          .ok true) := by
  have hr : ∀ r r', signDKGMPKReady C s r = (r', none) →
      verifyDKGMPKReadySignature C r' = .ok true :=
    fun _ _ => verifyMessage_signMessage C hC _ _ (fun _ _ => rfl)
  have hf : ∀ f f', signDKGFinalize C s f = (f', none) →
      verifyDKGFinalizeSignature C f' = .ok true :=
    fun _ _ => verifyMessage_signMessage C hC _ _ (fun _ _ => rfl)
  have hx : ∀ x x', signDKGSuccess C s x = (x', none) →
      verifyDKGSuccessSignature C x' = .ok true :=
    fun _ _ => verifyMessage_signMessage C hC _ _ (fun _ _ => rfl)
  refine ⟨SignedMessage.length_digestInput C.keccak, fun _ _ _ _ _ _ => ⟨rfl, rfl⟩,
    fun _ _ h => ⟨?_, ?_⟩, fun _ _ h => ⟨?_, ?_⟩, fun _ _ h => ⟨?_, ?_⟩⟩
  · rw [verifyDKGFinalizeSignature_eq]; exact hr _ _ h
  · rw [verifyDKGSuccessSignature_eq]; exact hr _ _ h
  · rw [← verifyDKGFinalizeSignature_eq]; exact hf _ _ h
  · rw [verifyDKGSuccessSignature_eq, ← verifyDKGFinalizeSignature_eq]; exact hf _ _ h
  · rw [← verifyDKGSuccessSignature_eq]; exact hx _ _ h
  · rw [verifyDKGFinalizeSignature_eq, ← verifyDKGSuccessSignature_eq]; exact hx _ _ h

theorem dkg_acks_share_digest_toy :
    Crypto.toy.Recovers ∧
      verifyDKGFinalizeSignature Crypto.toy
        (let r := (signDKGMPKReady Crypto.toy (Signer.new ()) ⟨⟨Hash.zero⟩, 1, 0, .empty⟩).1
         ⟨r.proposerID, r.round, r.reset, r.signature⟩) = .ok true :=
  ⟨fun _ _ _ => rfl,
    ((dkg_acks_share_digest Crypto.toy (fun _ _ _ => rfl) (Signer.new ())).2.2.1 _ _ rfl).1⟩

/-- **Each digest input is injective in the fields it signs.** Two messages of one
kind that hand Keccak-256 the same string agree on every field their hash function
reads, nested digests compared as 32-byte values, whose own inputs are injective
too; for master public keys, when their DKG identifiers serialise to one length.
Hence a block `SignBlock` produced, whose signed fields or payload are changed and
whose hash is kept, fails `VerifyBlockSignature` with `ErrIncorrectHash` when
Keccak-256 has no collision among the strings the two blocks hash. -/
theorem digest_inputs_injective (s : Signer C) :
    (∀ p₁ p₂ : Position,
      (hashPositionParts p₁).flatten = (hashPositionParts p₂).flatten → p₁ = p₂) ∧
    (∀ w₁ w₂ : Witness,
      (hashWitnessParts w₁).flatten = (hashWitnessParts w₂).flatten → w₁ = w₂) ∧
    (∀ b₁ b₂ : Block,
      (SignedMessage.block b₁).digestInput C.keccak =
          (SignedMessage.block b₂).digestInput C.keccak →
        b₁.proposerID = b₂.proposerID ∧ b₁.parentHash = b₂.parentHash ∧
          hashPosition C.keccak b₁.position = hashPosition C.keccak b₂.position ∧
          b₁.timestamp = b₂.timestamp ∧ b₁.payloadHash = b₂.payloadHash ∧
          hashWitness C.keccak b₁.witness = hashWitness C.keccak b₂.witness) ∧
    (∀ v₁ v₂ : Vote,
      (SignedMessage.vote v₁).digestInput C.keccak =
          (SignedMessage.vote v₂).digestInput C.keccak →
        v₁.proposerID = v₂.proposerID ∧ v₁.blockHash = v₂.blockHash ∧
          v₁.period = v₂.period ∧
          hashPosition C.keccak v₁.position = hashPosition C.keccak v₂.position ∧
          v₁.partialSignature.signature = v₂.partialSignature.signature ∧
          v₁.type = v₂.type) ∧
    (∀ p₁ p₂ : PrivateShare,
      (SignedMessage.privateShare p₁).digestInput C.keccak =
          (SignedMessage.privateShare p₂).digestInput C.keccak →
        p₁.proposerID = p₂.proposerID ∧ p₁.receiverID = p₂.receiverID ∧
          p₁.round = p₂.round ∧ p₁.reset = p₂.reset ∧ p₁.privateShare = p₂.privateShare) ∧
    (∀ m₁ m₂ : MasterPublicKey, m₁.dkgID.length = m₂.dkgID.length →
      (SignedMessage.masterPublicKey m₁).digestInput C.keccak =
          (SignedMessage.masterPublicKey m₂).digestInput C.keccak →
        m₁.proposerID = m₂.proposerID ∧ m₁.dkgID = m₂.dkgID ∧
          m₁.masterKeyBytes = m₂.masterKeyBytes ∧ m₁.round = m₂.round ∧
          m₁.reset = m₂.reset) ∧
    (∀ c₁ c₂ : Complaint,
      (SignedMessage.complaint c₁).digestInput C.keccak =
          (SignedMessage.complaint c₂).digestInput C.keccak →
        c₁.proposerID = c₂.proposerID ∧ c₁.round = c₂.round ∧ c₁.reset = c₂.reset ∧
          hashDKGPrivateShare C.keccak c₁.privateShare =
            hashDKGPrivateShare C.keccak c₂.privateShare) ∧
    (∀ p₁ p₂ : PartialSignature,
      (SignedMessage.partialSignature p₁).digestInput C.keccak =
          (SignedMessage.partialSignature p₂).digestInput C.keccak →
        p₁.proposerID = p₂.proposerID ∧ p₁.round = p₂.round ∧ p₁.hash = p₂.hash ∧
          p₁.partialSignature.signature = p₂.partialSignature.signature) ∧
    (∀ r₁ r₂ : MPKReady,
      (SignedMessage.mpkReady r₁).digestInput C.keccak =
          (SignedMessage.mpkReady r₂).digestInput C.keccak →
        r₁.proposerID = r₂.proposerID ∧ r₁.round = r₂.round ∧ r₁.reset = r₂.reset) ∧
    (∀ f₁ f₂ : Finalize,
      (SignedMessage.finalize f₁).digestInput C.keccak =
          (SignedMessage.finalize f₂).digestInput C.keccak →
        f₁.proposerID = f₂.proposerID ∧ f₁.round = f₂.round ∧ f₁.reset = f₂.reset) ∧
    (∀ x₁ x₂ : Success,
      (SignedMessage.success x₁).digestInput C.keccak =
          (SignedMessage.success x₂).digestInput C.keccak →
        x₁.proposerID = x₂.proposerID ∧ x₁.round = x₂.round ∧ x₁.reset = x₂.reset) ∧
    (∀ b₀ b b', signBlock C s b₀ = (b, none) → b'.hash = b.hash →
      CollisionFreeOn C.keccak (blockHashInputs C.keccak b ++ blockHashInputs C.keccak b') →
      (b'.proposerID ≠ b.proposerID ∨ b'.parentHash ≠ b.parentHash ∨
        b'.position ≠ b.position ∨ b'.timestamp ≠ b.timestamp ∨ b'.payload ≠ b.payload ∨
        b'.payloadHash ≠ b.payloadHash ∨ b'.witness ≠ b.witness) →
      verifyBlockSignature C b' = some .incorrectHash) :=
  ⟨fun _ _ => hashPositionParts_inj, fun _ _ => hashWitnessParts_inj,
    fun _ _ => hashBlockParts_inj C.keccak, fun _ _ => hashVoteParts_inj C.keccak,
    fun _ _ => hashDKGPrivateShareParts_inj, fun _ _ => hashDKGMasterPublicKeyParts_inj,
    fun _ _ => hashDKGComplaintParts_inj C.keccak, fun _ _ => hashDKGPartialSignatureParts_inj,
    fun _ _ => proposerRoundResetParts_inj, fun _ _ => proposerRoundResetParts_inj,
    fun _ _ => proposerRoundResetParts_inj, fun _ _ _ => verifyBlockSignature_tampered C⟩

set_option maxRecDepth 20000 in
theorem digest_inputs_injective_tampered_payload :
    verifyBlockSignature Crypto.toy
      { (signBlock Crypto.toy (Signer.new ())
          ⟨⟨Hash.zero⟩, Hash.zero, Hash.zero, ⟨2, 0⟩, ⟨0, 0, by decide, by decide, by decide⟩,
            [1], Hash.zero, ⟨3, []⟩, [], .empty, .empty⟩).1 with payload := [4] } =
      some .incorrectHash :=
  (digest_inputs_injective Crypto.toy (Signer.new ())).2.2.2.2.2.2.2.2.2.2.2 _ _ _ rfl rfl
    (by decide) (Or.inr (Or.inr (Or.inr (Or.inr (Or.inl (by decide))))))
