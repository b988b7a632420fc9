import PowChain.PageFile.Page

/-!
# Database images

A database file begins with a 100-byte header on page 1:

* bytes 0–15, the text `SQLite format 3` and a zero byte;
* bytes 16–17, the page size, big-endian, `1` standing for 65536;
* bytes 18 and 19, the write and read versions;
* byte 20, the bytes reserved at the end of every page;
* bytes 21–23, the payload fractions, always 64, 32 and 32;
* bytes 24–27, a change counter, bumped by every write;
* bytes 28–31, the size of the database in pages, trusted only when bytes
  92–95 repeat the change counter;
* bytes 32–35 and 36–39, the first free-list trunk page and the number of
  free pages;
* bytes 40–43, the schema cookie, bumped by every change of the schema;
* bytes 44–47, the schema format, at most 4;
* bytes 56–59, the text encoding: 1 UTF-8, 2 UTF-16LE, 3 UTF-16BE;
* bytes 96–99, the version of the library that wrote the file last.

A file with no bytes is an empty database.  Any other file is read as its
header says, the missing part of a short file reading as zero bytes.  It is
refused as not a database when the magic text differs, the read version is
above 2, the payload fractions differ, the page size is not a power of two
from 512 to 65536, or fewer than 480 bytes of a page are usable; it is
malformed when its header claims more pages than the file holds.  A write
version above 2 lets the file be read but not written.

Trees are read with a budget of one visit per page and a depth of at most
twenty, so a cycle of page links is found malformed rather than followed.
-/

namespace PowChain
namespace PageFile

/-- The first sixteen bytes of every database file. -/
def magic : ByteArray := "SQLite format 3".toUTF8 ++ Bytes.ofList [0]

/-- The library version a file records when written. -/
def writerVersion : Nat := 3045000

/-- The page size of a new database. -/
def defaultPageSize : Nat := 4096

/-- The deepest tree that is read. -/
def maxDepth : Nat := 20

/-- A database image: its pages, all of one size. -/
structure Image where
  pageSize : Nat
  /-- Bytes at the end of every page that trees leave alone. -/
  reserved : Nat
  /-- Page `n` at index `n - 1`; page 1 holds the file header. -/
  pages : Array ByteArray
  /-- Whether the file forbids writing. -/
  readOnly : Bool := false

namespace Image

def usable (img : Image) : Nat := img.pageSize - img.reserved

/-- Page `n`; a number outside the database is malformed. -/
def page (img : Image) (n : Nat) : Except Fault ByteArray :=
  if h : 0 < n ∧ n ≤ img.pages.size then .ok img.pages[n - 1]
  else .error .malformed

/-- The four-byte header field at `offset`. -/
def field (img : Image) (offset : Nat) : Nat := beAt (img.pages.getD 0 ByteArray.empty) offset 4

def changeCounter (img : Image) : Nat := img.field 24
def freeTrunk (img : Image) : Nat := img.field 32
def freeCount (img : Image) : Nat := img.field 36
def schemaCookie (img : Image) : Nat := img.field 40
def schemaFormat (img : Image) : Nat := img.field 44

/-- The text encoding: 1 UTF-8, 2 UTF-16LE, 3 UTF-16BE. -/
def textEncoding (img : Image) : Nat :=
  let e := img.field 56 % 4
  if e == 0 then 1 else e

/-- The file's bytes. -/
def toBytes (img : Image) : ByteArray := Bytes.concat img.pages.toList

end Image

/-- The page size a header's bytes 16–17 give. -/
def pageSizeOf (head : ByteArray) : Nat :=
  (Bytes.getD head 16).toNat * 256 + (Bytes.getD head 17).toNat * 65536

/-- Whether a page size is a power of two from 512 to 65536. -/
def validPageSize (n : Nat) : Bool :=
  (List.range 8).any fun i => n == Nat.pow 2 (i + 9)

/-- Page `i` (from 0) of a file, zero-filled past its end. -/
def pageOfFile (b : ByteArray) (pageSize i : Nat) : ByteArray :=
  let part := b.extract (i * pageSize) ((i + 1) * pageSize)
  part ++ Bytes.replicate (pageSize - part.size) 0

/-- The image a file holds: `none` for an empty database, or the fault that
makes the file unusable. -/
def Image.ofBytes (b : ByteArray) : Except Fault (Option Image) := do
  if b.size == 0 then return none
  let head := Bytes.take b 100
  let byteAt (i : Nat) : Nat := (Bytes.getD head i).toNat
  if Bytes.take head 16 != magic then throw .notADatabase
  if byteAt 19 > 2 then throw .notADatabase
  if byteAt 21 != 64 || byteAt 22 != 32 || byteAt 23 != 32 then throw .notADatabase
  let pageSize := pageSizeOf head
  if !validPageSize pageSize then throw .notADatabase
  let filePages := (b.size + pageSize - 1) / pageSize
  let claimed := beAt head 28 4
  let trusted := claimed != 0 && Bytes.slice head 24 4 == Bytes.slice head 92 4
  let count := if trusted then claimed else filePages
  if count > filePages then throw .malformed
  let reserved := byteAt 20
  if pageSize - reserved < 480 then throw .notADatabase
  let pages := (List.range count).map (pageOfFile b pageSize)
  pure (some { pageSize, reserved, pages := pages.toArray, readOnly := byteAt 18 > 2 })

/-! ## Reading trees -/

/-- Reads `rest` more payload bytes from the overflow chain at `pageNo`. -/
def Image.overflowBytes (img : Image) : Nat → Nat → Nat → Except Fault ByteArray
  | 0, _, _ => .error .malformed
  | fuel + 1, pageNo, rest =>
    if rest == 0 then .ok ByteArray.empty
    else if pageNo < 2 then .error .malformed
    else do
      let page ← img.page pageNo
      let n := min rest (img.usable - 4)
      let more ← img.overflowBytes fuel (beAt page 0 4) (rest - n)
      pure (page.extract 4 (4 + n) ++ more)

/-- A cell's whole payload, its overflow pages followed. -/
def Image.payload (img : Image) (c : Cell) : Except Fault ByteArray := do
  let rest := c.payloadSize - c.onPage.size
  if rest == 0 then return c.onPage
  pure (c.onPage ++ (← img.overflowBytes (img.pages.size + 1) c.overflow rest))

/-- The page numbers of an overflow chain holding `rest` bytes. -/
def Image.overflowPages (img : Image) : Nat → Nat → Nat → Except Fault (List Nat)
  | 0, _, _ => .error .malformed
  | fuel + 1, pageNo, rest =>
    if rest == 0 then .ok []
    else if pageNo < 2 then .error .malformed
    else do
      let page ← img.page pageNo
      let n := min rest (img.usable - 4)
      pure (pageNo :: (← img.overflowPages fuel (beAt page 0 4) (rest - n)))

/-- A tree walk: the pages it may still visit. -/
abbrev WalkM := StateT Nat (Except Fault)

/-- The result of a walk that may visit `budget` pages. -/
def WalkM.result {α : Type} (x : WalkM α) (budget : Nat) : Except Fault α :=
  match x.run budget with
  | .ok (a, _) => .ok a
  | .error e => .error e

/-- Counts one page visit against the budget. -/
def visit : WalkM Unit := do
  let left ← get
  if left == 0 then throw .malformed
  set (left - 1)

/-- The rows of the table tree under `pageNo`, in rowid order, each with its
payload. -/
def Image.walkTable (img : Image) : Nat → Nat → WalkM (List (Int × ByteArray))
  | 0, _ => throw .malformed
  | depth + 1, pageNo => do
    visit
    let page ← img.page pageNo
    let hd ← readHeader page pageNo
    let cells ← readCells page pageNo img.usable hd
    match hd.kind with
    | .tableLeaf => cells.mapM fun c => do pure (c.rowid, ← img.payload c)
    | .tableInterior =>
      let parts ← (cells.map (·.child) ++ [hd.right]).mapM (img.walkTable depth)
      pure parts.flatten
    | _ => throw .malformed

/-- The rows of the table rooted at `root`, in rowid order. -/
def Image.tableRows (img : Image) (root : Nat) : Except Fault (List (Int × ByteArray)) :=
  (img.walkTable maxDepth root).result img.pages.size

/-- The entries of the index tree under `pageNo`, in key order: an interior
page's entry comes after its left child's. -/
def Image.walkIndex (img : Image) : Nat → Nat → WalkM (List ByteArray)
  | 0, _ => throw .malformed
  | depth + 1, pageNo => do
    visit
    let page ← img.page pageNo
    let hd ← readHeader page pageNo
    let cells ← readCells page pageNo img.usable hd
    match hd.kind with
    | .indexLeaf => cells.mapM fun c => do pure (← img.payload c)
    | .indexInterior =>
      let parts ← cells.mapM fun c => do
        let below ← img.walkIndex depth c.child
        pure (below ++ [← img.payload c])
      let last ← img.walkIndex depth hd.right
      pure (parts.flatten ++ last)
    | _ => throw .malformed

/-- The entries of the index rooted at `root`, in key order. -/
def Image.indexEntries (img : Image) (root : Nat) : Except Fault (List ByteArray) :=
  (img.walkIndex maxDepth root).result img.pages.size

/-- Every page of the tree under `pageNo`, its cells' overflow pages
included. -/
def Image.walkPages (img : Image) : Nat → Nat → WalkM (List Nat)
  | 0, _ => throw .malformed
  | depth + 1, pageNo => do
    visit
    let page ← img.page pageNo
    let hd ← readHeader page pageNo
    let cells ← readCells page pageNo img.usable hd
    let overflow ← cells.mapM fun c =>
      img.overflowPages (img.pages.size + 1) c.overflow (c.payloadSize - c.onPage.size)
    let below ← if hd.kind.isLeaf then pure []
      else (cells.map (·.child) ++ [hd.right]).mapM (img.walkPages depth)
    pure (pageNo :: overflow.flatten ++ below.flatten)

/-- Every page of the tree rooted at `root`, the root first. -/
def Image.treePages (img : Image) (root : Nat) : Except Fault (List Nat) :=
  (img.walkPages maxDepth root).result img.pages.size

/-- The most leaf numbers a free-list trunk page may hold. -/
def Image.trunkCapacity (img : Image) : Nat := img.usable / 4 - 2

/-- The free pages from the trunk at `pageNo` on. -/
def Image.freeFrom (img : Image) : Nat → Nat → Except Fault (List Nat)
  | 0, _ => .error .malformed
  | fuel + 1, pageNo =>
    if pageNo == 0 then .ok []
    else do
      let page ← img.page pageNo
      if pageNo < 2 then throw .malformed
      let n := beAt page 4 4
      if n > img.trunkCapacity then throw .malformed
      let leaves := (List.range n).map fun i => beAt page (8 + 4 * i) 4
      if leaves.any fun l => l < 2 || l > img.pages.size then throw .malformed
      pure (pageNo :: leaves ++ (← img.freeFrom fuel (beAt page 0 4)))

/-- The pages on the free list, trunks and leaves. -/
def Image.freePages (img : Image) : Except Fault (List Nat) :=
  img.freeFrom (img.pages.size + 1) img.freeTrunk

end PageFile
end PowChain
