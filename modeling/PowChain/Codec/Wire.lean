import PowChain.Text.Utf8
import PowChain.Error

/-!
# The wire format

Values travel and are stored in a compact binary form: integers little-endian
at their full width, a byte string or text after its length as a 64-bit word,
a sequence after its element count, an optional value after a tag byte
(`0` absent, `1` present), a choice between variants after the variant's
index as a 32-bit word.  Trailing bytes after a value are ignored.

Reading reports the first fault: a fixed-width field cut off by the end, a
length-prefixed run longer than what is left, text that is not UTF-8, a tag
or variant index out of range, or a field whose own check fails.
-/

namespace PowChain
namespace Wire

/-! ## Writing -/

def u8 (v : UInt8) : ByteArray := ByteArray.empty.push v
def u32 (v : UInt32) : ByteArray := Bytes.u32 v
def u64 (v : UInt64) : ByteArray := Bytes.u64 v
def i64 (v : Int) : ByteArray := Bytes.i64 v
def bool (b : Bool) : ByteArray := u8 (if b then 1 else 0)

/-- A byte string after its length. -/
def bytes (b : ByteArray) : ByteArray := u64 b.size.toUInt64 ++ b

/-- A text, as its UTF-8 bytes after their length. -/
def str (s : String) : ByteArray := bytes s.toUTF8

/-- A sequence: the element count, then each element. -/
def seq {α : Type} (write : α → ByteArray) (xs : List α) : ByteArray :=
  xs.foldl (fun acc x => acc ++ write x) (u64 xs.length.toUInt64)

/-- An optional value after its tag byte. -/
def option {α : Type} (write : α → ByteArray) : Option α → ByteArray
  | none => u8 0
  | some x => u8 1 ++ write x

/-! ## Reading -/

/-- Why bytes are not the wire form of a value. -/
inductive Fault where
  /-- A fixed-width field runs past the end. -/
  | truncated
  /-- A length-prefixed run is longer than the bytes left. -/
  | truncatedRun
  | badUtf8 (f : Utf8.Fault)
  | badBool (b : UInt8)
  | badTag (t : Nat)
  /-- A variant index at or above the number of variants. -/
  | badVariant (index count : Nat)
  /-- A field's own check failed, with its message. -/
  | custom (msg : String)
  deriving DecidableEq, Repr

/-- The sentence that reports a fault. -/
def Fault.message : Fault → String
  | .truncated => "io error: unexpected end of file"
  | .truncatedRun => "io error: "
  | .badUtf8 f => "string is not valid utf8: " ++ f.message
  | .badBool b => s!"invalid u8 while decoding bool, expected 0 or 1, found {b}"
  | .badTag t => s!"tag for enum is not valid, found {t}"
  | .badVariant i n => s!"invalid value: integer `{i}`, expected variant index 0 <= i < {n}"
  | .custom m => m

/-- A reader: from the input and a position, a value and the next position. -/
abbrev Reader (α : Type) := ReaderT ByteArray (StateT Nat (Except Fault)) α

/-- `n` raw bytes of a fixed-width field. -/
def take (n : Nat) : Reader ByteArray := do
  let b ← read
  let pos ← get
  if pos + n > b.size then throw .truncated
  set (pos + n)
  pure (b.extract pos (pos + n))

def readU8 : Reader UInt8 := do
  let b ← take 1
  pure (Bytes.getD b 0)

def readU32 : Reader UInt32 := do
  pure (Bytes.toNatLE (← take 4)).toUInt32

def readU64 : Reader UInt64 := do
  pure (Bytes.toNatLE (← take 8)).toUInt64

/-- A signed 64-bit integer in two's complement. -/
def readI64 : Reader Int := do
  let n := Bytes.toNatLE (← take 8)
  pure (if n < Nat.pow 2 63 then Int.ofNat n else Int.ofNat n - Int.ofNat (Nat.pow 2 64))

def readBool : Reader Bool := do
  let v ← readU8
  if v == 0 then pure false
  else if v == 1 then pure true
  else throw (.badBool v)

/-- A length-prefixed byte string. -/
def readBytes : Reader ByteArray := do
  let len := (← readU64).toNat
  let b ← read
  let pos ← get
  if pos + len > b.size then throw .truncatedRun
  set (pos + len)
  pure (b.extract pos (pos + len))

/-- A length-prefixed UTF-8 text. -/
def readStr : Reader String := do
  let raw ← readBytes
  match Utf8.decode raw with
  | .ok s => pure s
  | .error f => throw (.badUtf8 f)

/-- Exactly `n` raw bytes (a fixed array). -/
def readFixed (n : Nat) : Reader ByteArray := take n

/-- `n` more elements read one after another, after those in `acc`. -/
def readManyAux {α : Type} (r : Reader α) : Nat → Array α → Reader (List α)
  | 0, acc => pure acc.toList
  | n + 1, acc => do
    let x ← r
    readManyAux r n (acc.push x)

/-- `n` elements read one after another. -/
def readMany {α : Type} (r : Reader α) (n : Nat) : Reader (List α) := readManyAux r n #[]

/-- A sequence: its element count, then the elements. -/
def readSeq {α : Type} (r : Reader α) : Reader (List α) := do
  let n := (← readU64).toNat
  readMany r n

/-- An optional value after its tag byte. -/
def readOption {α : Type} (r : Reader α) : Reader (Option α) := do
  let t ← readU8
  if t == 0 then pure none
  else if t == 1 then some <$> r
  else throw (.badTag t.toNat)

/-- The index of a variant among `count`. -/
def readVariant (count : Nat) : Reader Nat := do
  let i := (← readU32).toNat
  if i < count then pure i else throw (.badVariant i count)

/-- Runs a reader from the start of `b`; trailing bytes are ignored. -/
def decode {α : Type} (r : Reader α) (b : ByteArray) : Except Fault α :=
  (r.run b |>.run 0).map Prod.fst

/-- Runs a reader and also reports where it stopped. -/
def decodeWithEnd {α : Type} (r : Reader α) (b : ByteArray) : Except Fault (α × Nat) :=
  r.run b |>.run 0

/-- A failed check inside a reader, as a fault carrying the error's message. -/
def liftResult {α : Type} : Result α → Reader α
  | .ok a => pure a
  | .error e => throw (.custom e.message)

end Wire
end PowChain
