import PowChain.Bytes.Basic
import PowChain.Sql.Value

/-!
# Records of a paged database file

A paged database file keeps every row of a table, and every entry of an
index, as a record: a header that gives one serial type per column, then the
columns' bodies in order.  The header begins with its own length in bytes.

Numbers in headers and cells are variable-length integers of one to nine
bytes, most significant group first: each of the first eight bytes gives
seven bits and says by its high bit whether another byte follows; a ninth
byte gives all eight of its bits.  A number of 2^56 or more takes all nine.

A serial type says how a column is kept: `0` null; `1` to `6` a big-endian
two's-complement integer of 1, 2, 3, 4, 6 or 8 bytes; `7` a big-endian IEEE
double; `8` and `9` the integers 0 and 1, with no body; an even type
`n ≥ 12` a blob of `(n - 12) / 2` bytes; an odd type `n ≥ 13` a text of
`(n - 13) / 2` bytes.  Types 10 and 11 are never written, and a record that
uses them is malformed.

A text is kept in the bytes of the file's text encoding.
-/

namespace PowChain
namespace PageFile

open Sql (Value)

/-! ## Variable-length integers -/

/-- Seven-bit groups of `n`, least significant first, at least one. -/
def groups7 (n : Nat) : Nat → List Nat
  | 0 => [n % 128]
  | fuel + 1 => if n < 128 then [n] else n % 128 :: groups7 (n / 128) fuel

/-- The variable-length form of a number below 2^64. -/
def varint (n : Nat) : ByteArray :=
  let big := Nat.pow 2 56
  if n ≥ big then
    let high := n / 256
    let bytes := (List.range 8).reverse.map fun i => (high / Nat.pow 128 i % 128 + 128).toUInt8
    Bytes.ofList (bytes ++ [(n % 256).toUInt8])
  else
    match (groups7 n 8).reverse with
    | [] => Bytes.ofList [0]
    | g :: gs =>
      let init := (g :: gs).dropLast.map fun x => (x + 128).toUInt8
      Bytes.ofList (init ++ [((g :: gs).getLastD 0).toUInt8])

/-- How many bytes the variable-length form of `n` takes. -/
def varintSize (n : Nat) : Nat := (varint n).size

/-- Reads the rest of a variable-length integer whose `i` bytes so far gave `acc`. -/
def readVarintFrom (b : ByteArray) (pos : Nat) : Nat → Nat → Option (Nat × Nat)
  | i, acc =>
    if h : i < 9 then
      if pos + i < b.size then
        let x := (Bytes.getD b (pos + i)).toNat
        if i == 8 then some (acc * 256 + x, pos + 9)
        else if x < 128 then some (acc * 128 + x, pos + i + 1)
        else readVarintFrom b pos (i + 1) (acc * 128 + (x - 128))
      else none
    else none
termination_by i => 9 - i

/-- The variable-length integer at `pos`, and the position after it; `none`
when the bytes end inside it. -/
def readVarint (b : ByteArray) (pos : Nat) : Option (Nat × Nat) := readVarintFrom b pos 0 0

/-- A 64-bit word read as a signed number. -/
def signed64 (n : Nat) : Int :=
  if n ≥ Nat.pow 2 63 then Int.ofNat n - Int.ofNat (Nat.pow 2 64) else Int.ofNat n

/-- A signed number as the 64-bit word that holds it. -/
def word64 (v : Int) : Nat := (v % Int.ofNat (Nat.pow 2 64)).toNat

/-! ## Serial types -/

/-- The width of an integer body for serial types 1 to 6. -/
def intWidth : Nat → Nat
  | 1 => 1
  | 2 => 2
  | 3 => 3
  | 4 => 4
  | 5 => 6
  | _ => 8

/-- The number of body bytes a serial type takes; `none` for the reserved
types. -/
def bodySize (t : Nat) : Option Nat :=
  if t == 0 || t == 8 || t == 9 then some 0
  else if t ≤ 6 then some (intWidth t)
  else if t == 7 then some 8
  else if t ≥ 12 then some ((t - 12) / 2)
  else none

/-- The big-endian two's-complement number of the bytes `b`. -/
def signedBE (b : ByteArray) : Int :=
  let n := Bytes.toNatBE b
  let bound := Nat.pow 256 b.size
  if b.size > 0 && 2 * n ≥ bound then Int.ofNat n - Int.ofNat bound else Int.ofNat n

/-- The value a serial type and its body give, in a file of text encoding
`enc`. -/
def valueOf (enc : Sql.Encoding) (t : Nat) (body : ByteArray) : Value :=
  if t == 0 then .null
  else if t == 8 then .int 0
  else if t == 9 then .int 1
  else if t ≤ 6 then .int (signedBE body)
  else if t == 7 then .real (Bytes.toNatBE body).toUInt64
  else if t % 2 == 0 then .blob body enc
  else .text body enc

/-- The smallest serial type for an integer. -/
def intType (v : Int) : Nat :=
  if v == 0 then 8
  else if v == 1 then 9
  else if -128 ≤ v && v < 128 then 1
  else if -32768 ≤ v && v < 32768 then 2
  else if -8388608 ≤ v && v < 8388608 then 3
  else if -2147483648 ≤ v && v < 2147483648 then 4
  else if -140737488355328 ≤ v && v < 140737488355328 then 5
  else 6

/-- The serial type a value is written with. -/
def serialType : Value → Nat
  | .null => 0
  | .int v => intType v
  | .real _ => 7
  | .text b _ => 2 * b.size + 13
  | .blob b _ => 2 * b.size + 12

/-- The body a value is written with. -/
def bodyOf : Value → ByteArray
  | .null => ByteArray.empty
  | .int v =>
    let t := intType v
    if t ≥ 8 then ByteArray.empty
    else
      let w := intWidth t
      Bytes.ofNatBE (v % Int.ofNat (Nat.pow 256 w)).toNat w
  | .real bits => Bytes.ofNatBE bits.toNat 8
  | .text b _ => b
  | .blob b _ => b

/-! ## Records -/

/-- The serial types of a record header, read from `pos` up to `stop`. -/
def readTypes (b : ByteArray) (stop : Nat) : Nat → Nat → Option (List Nat)
  | 0, _ => some []
  | fuel + 1, pos =>
    if pos ≥ stop then some []
    else
      match readVarint b pos with
      | none => none
      | some (t, next) =>
        if next > stop then none
        else (readTypes b stop fuel next).map (t :: ·)

/-- The bodies of the columns whose serial types are `ts`, from `pos`. -/
def readBodies (enc : Sql.Encoding) (b : ByteArray) : List Nat → Nat → Option (List Value)
  | [], _ => some []
  | t :: ts, pos =>
    match bodySize t with
    | none => none
    | some n =>
      if pos + n > b.size then none
      else (readBodies enc b ts (pos + n)).map (valueOf enc t (b.extract pos (pos + n)) :: ·)

/-- The values of a record of a file of text encoding `enc`; `none` when it
is malformed. -/
def decodeRecord (enc : Sql.Encoding) (b : ByteArray) : Option (List Value) :=
  match readVarint b 0 with
  | none => none
  | some (headerSize, pos) =>
    if headerSize > b.size || headerSize < pos then none
    else
      match readTypes b headerSize headerSize pos with
      | none => none
      | some ts => readBodies enc b ts headerSize

/-- The length of a record header whose serial types take `n` bytes: the
length counts its own bytes too. -/
def headerLength (n : Nat) : Nat :=
  if n ≤ 126 then n + 1
  else
    let k := varintSize n
    if k < varintSize (n + k) then n + k + 1 else n + k

/-- The record of a list of values. -/
def encodeRecord (vs : List Value) : ByteArray :=
  let types := Bytes.concat (vs.map fun v => varint (serialType v))
  varint (headerLength types.size) ++ types ++ Bytes.concat (vs.map bodyOf)

/-- The column `i` of a record, null past its end. -/
def column (vs : List Value) (i : Nat) : Value := vs.getD i .null

end PageFile
end PowChain
