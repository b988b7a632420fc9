import PowChain.Curve.Secp256k1
import PowChain.Hash.Hmac

/-!
# Recoverable ECDSA signatures over secp256k1

Signing is deterministic: the nonce comes from the HMAC-SHA-256 generator of
RFC 6979, seeded with the secret key and the digest reduced modulo `n`; a
candidate nonce that is zero or not below `n`, or that gives `r = 0` or
`s = 0`, is replaced by the generator's next output.  The `s` half is always
the lower of `s` and `n − s`, and the recovery id records the parity of the
nonce point's ordinate (bit 0, flipped when `s` was replaced by `n − s`) and
whether its abscissa reached `n` (bit 1).

Recovery inverts this: from `r`, the recovery id and the digest it finds the
one public key for which the signature verifies.
-/

namespace PowChain
namespace Ecdsa

open Secp256k1

/-- The state of the deterministic nonce generator. -/
structure NonceGen where
  key : ByteArray
  v : ByteArray

/-- The generator seeded with `seed` (the secret key then the reduced digest). -/
def NonceGen.init (seed : ByteArray) : NonceGen :=
  let v0 := Bytes.replicate 32 1
  let k0 := Bytes.replicate 32 0
  let k1 := Hmac.sha256 k0 (v0 ++ ByteArray.empty.push 0 ++ seed)
  let v1 := Hmac.sha256 k1 v0
  let k2 := Hmac.sha256 k1 (v1 ++ ByteArray.empty.push 1 ++ seed)
  let v2 := Hmac.sha256 k2 v1
  ⟨k2, v2⟩

/-- The first output of a fresh generator, and the generator after it. -/
def NonceGen.first (g : NonceGen) : ByteArray × NonceGen :=
  let v := Hmac.sha256 g.key g.v
  (v, ⟨g.key, v⟩)

/-- Any later output: the state is stirred with a zero byte first. -/
def NonceGen.next (g : NonceGen) : ByteArray × NonceGen :=
  let k := Hmac.sha256 g.key (g.v ++ ByteArray.empty.push 0)
  let v := Hmac.sha256 k g.v
  NonceGen.first ⟨k, v⟩

/-- A signature: the recovery id and the two scalars. -/
structure Signature where
  recid : Nat
  r : Nat
  s : Nat
  deriving DecidableEq, Repr

/-- The 65-byte form: recovery id, then `r` and `s` big-endian. -/
def Signature.toBytes (sig : Signature) : ByteArray :=
  (ByteArray.empty.push sig.recid.toUInt8) ++ Bytes.ofNatBE sig.r 32 ++ Bytes.ofNatBE sig.s 32

/-- The signature made with nonce `k`, unless `k`, `r` or `s` is unusable. -/
def signWith (d m k : Nat) : Option Signature :=
  if k = 0 ∨ k ≥ n then none
  else match mul k G with
    | .infinity => none
    | .affine x y =>
      let r := x % n
      let s := invMod k n * ((m + r * d) % n) % n
      if r = 0 ∨ s = 0 then none
      else
        let recid := (if x ≥ n then 2 else 0) + (if y % 2 = 1 then 1 else 0)
        if s > n / 2 then some ⟨recid ^^^ 1, r, n - s⟩ else some ⟨recid, r, s⟩

/-- Tries nonces from the generator until one gives a signature; `fuel`
bounds the tries (each fails with probability below 2⁻¹²⁷). -/
def signLoop (d m : Nat) : Nat → NonceGen → Option Signature
  | 0, _ => none
  | fuel + 1, g =>
    let (out, g') := g.next
    match signWith d m (Bytes.toNatBE out) with
    | some sig => some sig
    | none => signLoop d m fuel g'

/-- The deterministic signature of the 32-byte `digest` under the secret
scalar `d` (which must lie in `1 … n − 1`). -/
def sign (d : Nat) (digest : ByteArray) : Option Signature :=
  let m := Bytes.toNatBE digest % n
  let g := NonceGen.init (Bytes.ofNatBE d 32 ++ Bytes.ofNatBE m 32)
  let (out, g') := g.first
  match signWith d m (Bytes.toNatBE out) with
  | some sig => some sig
  | none => signLoop d m 64 g'

/-- The public key that signed `digest`, if the signature is well formed and
some key fits it. -/
def recover (digest : ByteArray) (sig : Signature) : Option Point :=
  let m := Bytes.toNatBE digest % n
  if sig.recid > 3 ∨ sig.r = 0 ∨ sig.s = 0 ∨ sig.r ≥ n ∨ sig.s ≥ n then none
  else if sig.recid ≥ 2 ∧ sig.r ≥ p - n then none
  else
    let x := if sig.recid ≥ 2 then sig.r + n else sig.r
    match liftX x (sig.recid % 2 == 1) with
    | none => none
    | some big =>
      let rInv := invMod sig.r n
      let u1 := (n - rInv * m % n) % n
      let u2 := rInv * sig.s % n
      match addPoints (mul u1 G) (mul u2 big) with
      | .infinity => none
      | q => some q

end Ecdsa
end PowChain
