import Mathlib.Data.List.AList
import Mathlib.Algebra.Group.Int
import Mathlib.Algebra.Group.Nat.Basic

/-!
# Bytes, fixed-width integers and hashes

Everything the consensus core signs is a byte string assembled from fixed-width
integers and 32-byte hashes. The integers are written the way `encoding/binary`
writes them: `binary.LittleEndian.PutUint64` for rounds, heights, periods and resets,
and big-endian for the seconds and nanoseconds of `time.Time.MarshalBinary`.

Both encodings are injective on the width they are written in, and this is the only
property of them the hashing layer needs: it is proved once here, through the decoder
`decodeLE` that reads an encoding back, and every digest input later reduces to it.
-/

/-- A Go `[]byte`. -/
abbrev Bytes := List UInt8

/-! ## Little- and big-endian encodings -/

/-- The `n` low bytes of `x`, least significant first. -/
def leBytes : ℕ → ℕ → Bytes
  | 0, _ => []
  | n + 1, x => x.toUInt8 :: leBytes n (x / 256)

/-- The `n` low bytes of `x`, most significant first. -/
def beBytes (n x : ℕ) : Bytes := (leBytes n x).reverse

/-- Reads a little-endian byte string back as a number. -/
def decodeLE : Bytes → ℕ
  | [] => 0
  | b :: bs => b.toNat + 256 * decodeLE bs

@[simp] theorem length_leBytes (n x : ℕ) : (leBytes n x).length = n := by
  induction n generalizing x with
  | zero => rfl
  | succ n ih => simp [leBytes, ih]

@[simp] theorem length_beBytes (n x : ℕ) : (beBytes n x).length = n := by
  simp [beBytes]

theorem toNat_toUInt8 (x : ℕ) : x.toUInt8.toNat = x % 256 := by
  simp [Nat.toUInt8, UInt8.toNat, UInt8.ofNat, BitVec.toNat_ofNat]

/-- **Decoding inverts encoding** up to the width: what comes back is `x` modulo
`256 ^ n`. -/
theorem decodeLE_leBytes (n x : ℕ) : decodeLE (leBytes n x) = x % 256 ^ n := by
  induction n generalizing x with
  | zero => simp [leBytes, decodeLE, Nat.mod_one]
  | succ n ih => rw [leBytes, decodeLE, ih, toNat_toUInt8, Nat.pow_succ', Nat.mod_mul]

theorem leBytes_inj {n x y : ℕ} (hx : x < 256 ^ n) (hy : y < 256 ^ n)
    (h : leBytes n x = leBytes n y) : x = y := by
  have := congrArg decodeLE h
  rwa [decodeLE_leBytes, decodeLE_leBytes, Nat.mod_eq_of_lt hx, Nat.mod_eq_of_lt hy]
    at this

theorem beBytes_inj {n x y : ℕ} (hx : x < 256 ^ n) (hy : y < 256 ^ n)
    (h : beBytes n x = beBytes n y) : x = y :=
  leBytes_inj hx hy (List.reverse_injective h)

/-- `binary.LittleEndian.PutUint64`: the eight bytes of a `uint64`, least significant
first. -/
def putUint64 (x : UInt64) : Bytes := leBytes 8 x.toNat

@[simp] theorem length_putUint64 (x : UInt64) : (putUint64 x).length = 8 :=
  length_leBytes 8 _

theorem putUint64_injective : Function.Injective putUint64 := fun x y h =>
  UInt64.toNat.inj (leBytes_inj x.toNat_lt_size y.toNat_lt_size h)

@[simp] theorem putUint64_inj {x y : UInt64} : putUint64 x = putUint64 y ↔ x = y :=
  putUint64_injective.eq_iff

/-- **A `uint64` sum that does not wrap** is the sum of the values. -/
theorem UInt64.toNat_add_of_lt {a b : UInt64} (h : a.toNat + b.toNat < 2 ^ 64) :
    (a + b).toNat = a.toNat + b.toNat := by
  simp only [UInt64.toNat, UInt64.add_def, BitVec.toNat_add] at *
  exact Nat.mod_eq_of_lt h

/-! ## Concatenations -/

/-- **Concatenations with the same part lengths split the same way.** Two lists of
parts whose lengths agree part by part, and whose concatenations are equal, are
equal part by part. Every digest input of the hashing layer is such a
concatenation. -/
theorem flatten_inj_of_lengths :
    ∀ {L₁ L₂ : List Bytes}, L₁.map List.length = L₂.map List.length →
      L₁.flatten = L₂.flatten → L₁ = L₂
  | [], [], _, _ => rfl
  | a :: L₁, b :: L₂, hl, h => by
    simp only [List.map_cons, List.cons.injEq] at hl
    simp only [List.flatten_cons] at h
    obtain ⟨rfl, h'⟩ := List.append_inj h hl.1
    rw [flatten_inj_of_lengths hl.2 h']

/-! ## Hashes and node identities -/

/-- `common.Hash`: exactly 32 bytes. -/
@[ext] structure Hash where
  /-- The 32 bytes. -/
  bytes : Bytes
  /-- A hash is 32 bytes long. -/
  length_bytes : bytes.length = 32
deriving DecidableEq

attribute [simp] Hash.length_bytes

namespace Hash

@[simp] theorem bytes_inj {a b : Hash} : a.bytes = b.bytes ↔ a = b := Hash.ext_iff.symm

/-- `common.Hash{}`, the zero hash; it is also `types.NullBlockHash`. -/
def zero : Hash := ⟨List.replicate 32 0, List.length_replicate _ _⟩

/-- `types.SkipBlockHash`: every byte `0xff`. -/
def skip : Hash := ⟨List.replicate 32 0xff, List.length_replicate _ _⟩

end Hash

/-- `types.NodeID`: a node is named by a hash of its public key. -/
@[ext] structure NodeID where
  /-- The hash naming the node. -/
  hash : Hash
deriving DecidableEq

@[simp] theorem NodeID.hash_inj {a b : NodeID} : a.hash = b.hash ↔ a = b :=
  NodeID.ext_iff.symm
