import PowChain.Hash.Digest
import PowChain.Bytes.Base58
import PowChain.Error

/-!
# Addresses

An account is named by the twenty-byte hash of its compressed public key.
Its text form is base58 of a version byte (zero), the hash, and a four-byte
checksum, the start of the double SHA-256 of the first two parts.  The zero
address sends block rewards.  Addresses are ordered by their hash bytes.

Reading a text checks, in order: that it is base58, that it decodes to
twenty-five bytes, the version byte, and the checksum.
-/

namespace PowChain

/-- The twenty-byte public-key hash that names an account. -/
structure Address where
  hash : ByteArray
  size_eq : hash.size = 20

namespace Address

/-- Equal exactly when the bytes are, decided by the byte arrays' own equality. -/
instance : DecidableEq Address := fun ⟨a, _⟩ ⟨b, _⟩ =>
  match ByteArray.instDecidableEq a b with
  | isTrue h => isTrue (by subst h; rfl)
  | isFalse h => isFalse fun e => h (congrArg Address.hash e)

instance : BEq Address := ⟨fun a b => a.hash == b.hash⟩

/-- The version byte of every address text. -/
def version : UInt8 := 0

/-- The address of twenty zero bytes, the sender of block rewards. -/
def zero : Address := ⟨Bytes.replicate 20 0, by simp [Bytes.replicate, ByteArray.size]⟩

instance : Inhabited Address := ⟨zero⟩

/-- Whether this is the zero address. -/
def isZero (a : Address) : Bool := Bytes.isZero a.hash

/-- Twenty bytes as an address. -/
def ofBytes? (b : ByteArray) : Option Address :=
  if h : b.size = 20 then some ⟨b, h⟩ else none

/-- The address of a compressed public key. -/
def ofPublicKey (pk : ByteArray) : Address := ⟨hash160 pk, size_hash160 pk⟩

/-- The four checksum bytes of a versioned hash. -/
def checksum (versioned : ByteArray) : ByteArray :=
  Bytes.take (doubleSha256 versioned).bytes 4

/-- The base58 text of an address. -/
def encode (a : Address) : String :=
  let versioned := (ByteArray.empty.push version) ++ a.hash
  Base58.encode (versioned ++ checksum versioned)

/-- The debugging form, `Address(<text>)`. -/
def debug (a : Address) : String := "Address(" ++ a.encode ++ ")"

instance : ToString Address := ⟨encode⟩

/-- Why a text does not name an address; each carries the text. -/
inductive DecodeError where
  | base58 (text : String) (e : Base58.DecodeError)
  | badLength (text : String) (n : Nat)
  | badVersion (text : String) (v : UInt8)
  | badChecksum (text : String)
  deriving DecidableEq

/-- The sentence that reports a decoding failure. -/
def DecodeError.message : DecodeError → String
  | .base58 s e => s ++ ": " ++ e.message
  | .badLength s n => s ++ ": decoded length " ++ toString n ++ " is not 25"
  | .badVersion s v =>
    s ++ ": unknown version byte 0x" ++ String.ofList (Nat.toDigits 16 (v.toNat / 16)) ++
      String.ofList (Nat.toDigits 16 (v.toNat % 16))
  | .badChecksum s => s ++ ": checksum mismatch"

/-- Reads an address text, reporting the first fault. -/
def decodeChecked (s : String) : Except DecodeError Address := do
  let payload ← (Base58.decode s).mapError (DecodeError.base58 s)
  if payload.size != 25 then throw (.badLength s payload.size)
  let v := Bytes.getD payload 0
  if v != version then throw (.badVersion s v)
  let versioned := Bytes.take payload 21
  if checksum versioned != Bytes.drop payload 21 then throw (.badChecksum s)
  match ofBytes? (Bytes.slice payload 1 20) with
  | some a => pure a
  | none => throw (.badLength s payload.size)

/-- Reads an address text; a fault is an `invalidAddress` error. -/
def decode (s : String) : Result Address :=
  (decodeChecked s).mapError fun e => .invalidAddress e.message

/-- Whether a text names an address. -/
def isValid (s : String) : Bool := (decodeChecked s).toBool

end Address
end PowChain
