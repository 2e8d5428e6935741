import Mathlib.Tactic.Common

/-!
# Authenticated encryption

A cipher that binds a context to what it seals. Nonces and tags have the lengths of AES-256-GCM. The law is
the one that a program relies on to read its own envelopes: what was sealed opens under the same key, nonce
and context.
-/

namespace Planipus.Library

abbrev Bytes : Type := List UInt8

/-- A nonce of twelve bytes. -/
structure Nonce where
  bytes : Bytes
  length_eq : bytes.length = 12

/-- What the cipher makes of a plaintext. -/
structure Sealed where
  ciphertext : Bytes
  tag : Bytes
deriving DecidableEq

/-- A cipher for plaintexts of the type `π`. -/
structure Aead (π : Type) where
  encrypt (key nonce : Bytes) (context : String) (plaintext : π) : Sealed
  decrypt (key nonce : Bytes) (context : String) (box : Sealed) : Option π
  decrypt_encrypt : ∀ key (nonce : Nonce) context plaintext,
    decrypt key nonce.bytes context (encrypt key nonce.bytes context plaintext) = some plaintext
  tag_length : ∀ key nonce context plaintext, (encrypt key nonce context plaintext).tag.length = 16

end Planipus.Library
