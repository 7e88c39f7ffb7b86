import OneToThree.Lib.Base64

/-!
# Keys and key derivation of the ratchet

The ratchet is built from X25519, HKDF-SHA256, HMAC-SHA256 and AES-GCM, which come
from outside the repository: they are the fields of `Primitives`, and what the
ratchet relies on is `Primitives.Ideal`. On top of them, the derivations of the
repository: the root chain (`rootKdf`), the symmetric chains (`kdfMessageKey`)
and the AEAD key and iv of a message (`deriveMessageAead`).
-/

namespace OneToThree.Ratchet

/-- Byte strings. -/
abbrev Bytes := List UInt8

/-- The bytes of an ASCII text. -/
def utf8 (s : String) : Bytes := s.toUTF8.toList

/-- The primitives the ratchet is built from. -/
structure Primitives where
  /-- The X25519 public key of a private key. -/
  getPublicKey : Bytes → Bytes
  /-- The X25519 agreement of a private key with a public key, if the public key is one
      it accepts: of 32 bytes, and not of low order. -/
  getSharedSecret : Bytes → Bytes → Option Bytes
  /-- HKDF-SHA256 of input keying material, salt, info and output length. -/
  hkdf : Bytes → Bytes → Bytes → ℕ → Bytes
  /-- HMAC-SHA256 of a key and a message. -/
  hmac : Bytes → Bytes → Bytes
  /-- AES-GCM encryption under a key, iv and additional data. -/
  gcmEncrypt : Bytes → Bytes → Bytes → Bytes → Bytes
  /-- AES-GCM decryption under a key, iv and additional data, if the tag verifies. -/
  gcmDecrypt : Bytes → Bytes → Bytes → Bytes → Option Bytes

/-- The primitives behave ideally: X25519 is commutative and accepts the public keys it
    computes, and decryption inverts encryption under the same key, iv and additional
    data. -/
structure Primitives.Ideal (P : Primitives) : Prop where
  dh_accepts : ∀ a b, ∃ secret, P.getSharedSecret a (P.getPublicKey b) = some secret
  dh_comm : ∀ a b, P.getSharedSecret a (P.getPublicKey b) = P.getSharedSecret b (P.getPublicKey a)
  decrypt_encrypt : ∀ key iv aad pt, P.gcmDecrypt key iv aad (P.gcmEncrypt key iv aad pt) = some pt

structure KeyPair where
  privateKey : Bytes
  publicKey : Bytes
  deriving DecidableEq

variable (P : Primitives)

/-- The pair is one that `generateX25519KeyPair` may return. -/
def KeyPair.Proper (k : KeyPair) : Prop := k.publicKey = P.getPublicKey k.privateKey

/-- The agreement with a public key; `none` is a throw. -/
def dh (ourPrivate theirPublic : Bytes) : Option Bytes := P.getSharedSecret ourPrivate theirPublic

theorem dh_comm {P : Primitives} (hP : P.Ideal) {k k' : KeyPair} (hk : k.Proper P)
    (hk' : k'.Proper P) : dh P k.privateKey k'.publicKey = dh P k'.privateKey k.publicKey := by
  rw [hk, hk', dh, dh, hP.dh_comm]

theorem dh_accepts {P : Primitives} (hP : P.Ideal) (ourPrivate : Bytes) {k : KeyPair}
    (hk : k.Proper P) : ∃ secret, dh P ourPrivate k.publicKey = some secret := by
  rw [hk]
  exact hP.dh_accepts _ _

def rootInfo : Bytes := utf8 "ForestMsg/root/1"
def msgSubkey : Bytes := [0x01]
def nextChainSubkey : Bytes := [0x02]

structure RootStep where
  rootKey : Bytes
  chainKey : Bytes

def rootKdf (rootKey dhOutput : Bytes) : RootStep :=
  let okm := P.hkdf dhOutput rootKey rootInfo 64
  { rootKey := okm.take 32, chainKey := (okm.drop 32).take 32 }

structure ChainStep where
  messageKey : Bytes
  nextChainKey : Bytes

def kdfMessageKey (chainKey : Bytes) : ChainStep :=
  { messageKey := P.hmac chainKey msgSubkey, nextChainKey := P.hmac chainKey nextChainSubkey }

structure MessageAead where
  aesKey : Bytes
  iv : Bytes
  deriving DecidableEq

def deriveMessageAead (messageKey : Bytes) : MessageAead :=
  let okm := P.hkdf messageKey (List.replicate 32 0) (utf8 "ForestMsg/msg/1") 44
  { aesKey := okm.take 32, iv := (okm.drop 32).take 12 }

/-- The chain key after `n` messages of the chain starting at `ck`. -/
def chainAt (ck : Bytes) : ℕ → Bytes
  | 0 => ck
  | n + 1 => (kdfMessageKey P (chainAt ck n)).nextChainKey

/-- The key of the message number `n` of the chain starting at `ck`. -/
def messageKeyAt (ck : Bytes) (n : ℕ) : Bytes := (kdfMessageKey P (chainAt P ck n)).messageKey

end OneToThree.Ratchet
