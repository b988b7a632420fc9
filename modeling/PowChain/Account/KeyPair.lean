import PowChain.Account.Address
import PowChain.Curve.Ecdsa
import PowChain.Text.Space

/-!
# Key pairs, signing and recovery

A key pair is a secret scalar in `1 … n − 1` and its public point.  A
secret is read from 32 bytes, or from their hexadecimal text with white space
trimmed.  Signatures are 65 bytes: recovery id, `r`, `s`; recovering the
signer of a digest from them is how a transaction proves its sender.
-/

namespace PowChain

/-- A secret scalar and its public key. -/
structure KeyPair where
  secret : Nat
  publicKey : Secp256k1.Point

namespace KeyPair

open Secp256k1

/-- The key pair of a valid secret scalar. -/
def ofScalar (d : Nat) : KeyPair := ⟨d, mul d G⟩

/-- The key pair of 32 secret bytes.  Any other length, and a scalar that is
zero or not below the group order, are refused. -/
def ofSecretBytes (b : ByteArray) : Result KeyPair :=
  if b.size != 32 then
    .error (.crypto ("Secret key must be 32 bytes, got " ++ toString b.size))
  else
    let d := Bytes.toNatBE b
    if d = 0 ∨ d ≥ n then
      .error (.crypto "Invalid secret key bytes: malformed or out-of-range secret key")
    else .ok (ofScalar d)

/-- The key pair of a hexadecimal secret, white space at either end ignored. -/
def ofSecretHex (s : String) : Result KeyPair :=
  match Hex.decode (Text.trim s) with
  | .error e => .error (.crypto ("Invalid secret key hex: " ++ e.message))
  | .ok b => ofSecretBytes b

/-- The compressed public key, 33 bytes. -/
def publicKeyBytes (k : KeyPair) : ByteArray := k.publicKey.compressed

/-- The account this key controls. -/
def address (k : KeyPair) : Address := Address.ofPublicKey k.publicKeyBytes

/-- The secret as 64 lowercase hexadecimal digits. -/
def secretHex (k : KeyPair) : String := Hex.encode (Bytes.ofNatBE k.secret 32)

/-- The 65-byte recoverable signature of a digest. -/
def signDigest (k : KeyPair) (digest : Digest) : ByteArray :=
  match Ecdsa.sign k.secret digest.bytes with
  | some sig => sig.toBytes
  | none => Bytes.replicate 65 0

end KeyPair

/-- The compressed public key that made a 65-byte signature of `digest`.
Any malformed or unrecoverable signature is `invalidSignature`. -/
def recoverPublicKey (digest : Digest) (sig : ByteArray) : Result ByteArray :=
  if sig.size != 65 then .error .invalidSignature
  else
    let s : Ecdsa.Signature :=
      ⟨(Bytes.getD sig 0).toNat, Bytes.toNatBE (Bytes.slice sig 1 32),
        Bytes.toNatBE (Bytes.slice sig 33 32)⟩
    match Ecdsa.recover digest.bytes s with
    | some q => .ok q.compressed
    | none => .error .invalidSignature

/-- The address whose key made a signature of `digest`. -/
def recoverAddress (digest : Digest) (sig : ByteArray) : Result Address :=
  (recoverPublicKey digest sig).map Address.ofPublicKey

end PowChain
