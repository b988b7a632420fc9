import PowChain.PageFile.Journal

/-!
# Write-ahead logs

A database in write-ahead mode keeps its new pages in a log beside the file
until they are copied back.  The log is a 32-byte header, then frames:

* the header gives the magic `0x377f0682` or `0x377f0683` (whose low bit
  says the checksums read words big-endian), the version 3007000, the page
  size, a checkpoint number, two salts and the checksum of its first 24
  bytes;
* a frame is a 24-byte header (the page number, the database's size in pages
  after a commit or zero, the two salts, a checksum) and a page.

The checksum runs over 32-bit words two at a time, `s1 += a + s2` and then
`s2 += b + s1`, each frame's continuing from the one before and covering
the first 8 bytes of its header and its page.  The frames of a log count up
to the last commit frame before the first frame whose salts or checksum do
not match; their pages, later ones over earlier ones, make the database, cut
or grown to the commit's size.
-/

namespace PowChain
namespace PageFile

/-- The 32-bit words of some bytes, in the given byte order. -/
def words32 (b : ByteArray) (bigEndian : Bool) : List Nat :=
  (List.range (b.size / 4)).map fun i =>
    let x (k : Nat) : Nat := (Bytes.getD b (4 * i + k)).toNat
    if bigEndian then ((x 0 * 256 + x 1) * 256 + x 2) * 256 + x 3
    else ((x 3 * 256 + x 2) * 256 + x 1) * 256 + x 0

/-- Continues a log checksum over some bytes. -/
def logChecksum (bigEndian : Bool) (s : Nat × Nat) (b : ByteArray) : Nat × Nat :=
  let m := Nat.pow 2 32
  let rec go : List Nat → Nat × Nat → Nat × Nat
    | a :: c :: rest, (s1, s2) =>
      let s1 := (s1 + a + s2) % m
      let s2 := (s2 + c + s1) % m
      go rest (s1, s2)
    | _, acc => acc
  go (words32 b bigEndian) s

/-- The database with the committed frames of a log put in place; `none`
when the log holds no committed frame. -/
def applyLog (db wal : ByteArray) : Option ByteArray :=
  let field (i : Nat) : Nat := Bytes.toNatBE (Bytes.slice wal i 4)
  let magic := field 0
  if wal.size < 32 || (magic != 0x377f0682 && magic != 0x377f0683) || field 4 != 3007000 then none
  else
    let bigEndian := magic % 2 == 1
    let pageSize := field 8
    let salts := Bytes.slice wal 16 8
    let headerSum := logChecksum bigEndian (0, 0) (Bytes.take wal 24)
    if !powerOfTwoIn 512 65536 pageSize || headerSum != (field 24, field 28) then none
    else
      let frameSize := pageSize + 24
      let count := (wal.size - 32) / frameSize
      -- walk the frames while they check, remembering the last commit
      let step (acc : Bool × (Nat × Nat) × List (Nat × ByteArray) × Option (Nat × Nat)) (k : Nat) :=
        let (ok, sum, frames, commit) := acc
        if !ok then acc
        else
          let pos := 32 + k * frameSize
          let head := Bytes.slice wal pos 24
          let page := Bytes.slice wal (pos + 24) pageSize
          let n := Bytes.toNatBE (Bytes.slice head 0 4)
          let size := Bytes.toNatBE (Bytes.slice head 4 4)
          let sum' := logChecksum bigEndian (logChecksum bigEndian sum (Bytes.take head 8)) page
          let good := n != 0 && Bytes.slice head 8 8 == salts &&
            sum' == (Bytes.toNatBE (Bytes.slice head 16 4), Bytes.toNatBE (Bytes.slice head 20 4))
          if !good then (false, sum, frames, commit)
          else
            let frames := frames ++ [(n, page)]
            (true, sum', frames, if size != 0 then some (frames.length, size) else commit)
      let (_, _, frames, commit) := (List.range count).foldl step (true, headerSum, [], none)
      match commit with
      | none => none
      | some (upTo, size) =>
        let applied := (frames.take upTo).foldl (fun acc (n, page) => putPage acc pageSize n page) db
        let sized := if applied.size < size * pageSize then applied ++ Bytes.replicate (size * pageSize - applied.size) 0
          else Bytes.take applied (size * pageSize)
        some sized

/-- The index beside a database in write-ahead mode, as a reader first makes
it: its version word, then zeros. -/
def sharedIndex : ByteArray := Bytes.ofList [0x18, 0xe2, 0x2d, 0x00] ++ Bytes.replicate 32764 0

end PageFile
end PowChain
