import PowChain.PageFile.Record

/-!
# B-tree pages

A paged database file is a run of pages of one size, numbered from 1.  A
table or an index is a B-tree of pages.  Each tree page starts with a header
(at byte 100 on page 1, after the file header): its kind, the start of its
first free block, its cell count, the start of its cell content, its count of
fragmented free bytes and, on an interior page, the page number of its
right-most child.  An array of two-byte cell offsets follows the header, in
key order; the cells themselves sit in the content area at the end of the
usable part of the page.

* A table leaf cell holds a payload size, a rowid and the payload.
* A table interior cell holds a left child and the largest rowid under it.
* An index leaf cell holds a payload size and the payload.
* An index interior cell holds a left child, a payload size and the payload.

A payload too large for its page keeps a part on the page, followed by the
number of its first overflow page; each overflow page holds the number of
the next one (zero at the end) and then as much of the rest as fits.  How
much stays on the page depends only on the payload's size and the usable
page size (`localSize`).

Pages are laid out here the way a tree is written afresh: cells packed from
the end of the usable area towards the header, with no free blocks.
-/

namespace PowChain
namespace PageFile

/-- Why a database file cannot be used, or a statement on it fails. -/
inductive Fault where
  /-- The file is not a database of this format. -/
  | notADatabase
  /-- The file's structure is inconsistent. -/
  | malformed
  /-- The schema format is newer than this library reads. -/
  | unsupportedFormat
  /-- The file may be read but not written. -/
  | readOnly
  /-- A row of the schema, named, does not describe an object. -/
  | malformedSchema (name : String)
  deriving DecidableEq, Repr

/-- The sentence that reports a fault. -/
def Fault.message : Fault → String
  | .notADatabase => "file is not a database"
  | .malformed => "database disk image is malformed"
  | .unsupportedFormat => "unsupported file format"
  | .readOnly => "attempt to write a readonly database"
  | .malformedSchema name => s!"malformed database schema ({name})"

/-- The kinds of tree page. -/
inductive PageKind where
  | tableLeaf
  | tableInterior
  | indexLeaf
  | indexInterior
  deriving DecidableEq, Repr

namespace PageKind

/-- The kind a page's first header byte names. -/
def ofByte (b : UInt8) : Option PageKind :=
  if b == 13 then some .tableLeaf
  else if b == 5 then some .tableInterior
  else if b == 10 then some .indexLeaf
  else if b == 2 then some .indexInterior
  else none

def byte : PageKind → UInt8
  | .tableLeaf => 13
  | .tableInterior => 5
  | .indexLeaf => 10
  | .indexInterior => 2

def isLeaf : PageKind → Bool
  | .tableLeaf | .indexLeaf => true
  | _ => false

def isTable : PageKind → Bool
  | .tableLeaf | .tableInterior => true
  | _ => false

/-- The size of the page header. -/
def headerSize (k : PageKind) : Nat := if k.isLeaf then 8 else 12

end PageKind

/-- Where a page's tree header starts: after the file header on page 1. -/
def headerOffset (pageNo : Nat) : Nat := if pageNo == 1 then 100 else 0

/-- The most payload a cell keeps on its page. -/
def maxLocal (usable : Nat) (tableLeaf : Bool) : Nat :=
  if tableLeaf then usable - 35 else (usable - 12) * 64 / 255 - 23

/-- The least payload a cell keeps on its page once it overflows. -/
def minLocal (usable : Nat) : Nat := (usable - 12) * 32 / 255 - 23

/-- How many bytes of a payload of `p` bytes stay on the page; the rest goes
to overflow pages. -/
def localSize (usable : Nat) (tableLeaf : Bool) (p : Nat) : Nat :=
  let most := maxLocal usable tableLeaf
  let least := minLocal usable
  if p ≤ most then p
  else
    let k := least + (p - least) % (usable - 4)
    if k ≤ most then k else least

/-- A big-endian number of `width` bytes at `pos`. -/
def beAt (b : ByteArray) (pos width : Nat) : Nat := Bytes.toNatBE (Bytes.slice b pos width)

/-- A cell as read from a page. -/
structure Cell where
  /-- The left child of an interior cell. -/
  child : Nat := 0
  /-- The rowid of a table cell. -/
  rowid : Int := 0
  /-- The whole payload's size. -/
  payloadSize : Nat := 0
  /-- The part of the payload on the page. -/
  onPage : ByteArray := ByteArray.empty
  /-- The first overflow page, or zero. -/
  overflow : Nat := 0

/-- A tree page's header fields. -/
structure PageHeader where
  kind : PageKind
  cellCount : Nat
  /-- The right-most child of an interior page. -/
  right : Nat

/-- Reads the header of tree page `pageNo`. -/
def readHeader (page : ByteArray) (pageNo : Nat) : Except Fault PageHeader := do
  let h := headerOffset pageNo
  let some kind := PageKind.ofByte (Bytes.getD page h) | throw .malformed
  let right := if kind.isLeaf then 0 else beAt page (h + 8) 4
  pure { kind, cellCount := beAt page (h + 3) 2, right }

/-- Reads the payload part of a cell at `pos`, given its size; it must lie
within the page. -/
def readPayload (page : ByteArray) (usable : Nat) (tableLeaf : Bool) (size pos : Nat) :
    Except Fault (ByteArray × Nat) := do
  let n := localSize usable tableLeaf size
  let stop := if n < size then pos + n + 4 else pos + n
  if stop > page.size then throw .malformed
  let overflow := if n < size then beAt page (pos + n) 4 else 0
  pure (page.extract pos (pos + n), overflow)

/-- Reads the cell at `pos` of a page of kind `k`. -/
def readCell (page : ByteArray) (usable : Nat) (k : PageKind) (pos : Nat) : Except Fault Cell := do
  match k with
  | .tableInterior =>
    let some (rowid, _) := readVarint page (pos + 4) | throw .malformed
    pure { child := beAt page pos 4, rowid := signed64 rowid }
  | .tableLeaf =>
    let some (size, p) := readVarint page pos | throw .malformed
    let some (rowid, p) := readVarint page p | throw .malformed
    let (onPage, overflow) ← readPayload page usable true size p
    pure { rowid := signed64 rowid, payloadSize := size, onPage, overflow }
  | .indexLeaf =>
    let some (size, p) := readVarint page pos | throw .malformed
    let (onPage, overflow) ← readPayload page usable false size p
    pure { payloadSize := size, onPage, overflow }
  | .indexInterior =>
    let some (size, p) := readVarint page (pos + 4) | throw .malformed
    let (onPage, overflow) ← readPayload page usable false size p
    pure { child := beAt page pos 4, payloadSize := size, onPage, overflow }

/-- The cells of tree page `pageNo`, in key order.  Every cell must start
after the cell offset array and end within the page. -/
def readCells (page : ByteArray) (pageNo usable : Nat) (hd : PageHeader) : Except Fault (List Cell) := do
  let h := headerOffset pageNo
  let first := h + hd.kind.headerSize + 2 * hd.cellCount
  if first > usable then throw .malformed
  (List.range hd.cellCount).mapM fun i => do
    let pos := beAt page (h + hd.kind.headerSize + 2 * i) 2
    if pos < first || pos + 4 > page.size then throw .malformed
    readCell page usable hd.kind pos

/-! ## Writing pages -/

/-- A cell's bytes as laid out on a page: at least four of them. -/
def padCell (b : ByteArray) : ByteArray :=
  if b.size < 4 then b ++ Bytes.replicate (4 - b.size) 0 else b

/-- The bytes cells and their offsets take on a page. -/
def cellsRoom (cells : List ByteArray) : Nat :=
  cells.foldl (fun acc c => acc + (padCell c).size + 2) 0

/-- Whether cells fit on a page of kind `k` whose tree header starts at
`offset`. -/
def fits (usable offset : Nat) (k : PageKind) (cells : List ByteArray) : Bool :=
  offset + k.headerSize + cellsRoom cells ≤ usable

/-- Cell offsets when the cells are packed from `top` downwards, first cell
highest. -/
def cellOffsets (top : Nat) : List ByteArray → List Nat
  | [] => []
  | c :: cs => let pos := top - (padCell c).size; pos :: cellOffsets pos cs

/-- A tree page of kind `k`: `front` (the file header on page 1) then the
tree header, the cell offsets and the cells, packed at the end of the usable
area, and zero bytes in the reserved area. -/
def assemble (pageSize usable : Nat) (front : ByteArray) (k : PageKind) (cells : List ByteArray)
    (right : Nat) : ByteArray :=
  let cells := cells.map padCell
  let offsets := cellOffsets usable cells
  let contentStart := offsets.getLastD usable
  let header :=
    Bytes.ofList [k.byte, 0, 0] ++ Bytes.ofNatBE cells.length 2 ++
      Bytes.ofNatBE (contentStart % 65536) 2 ++ Bytes.ofList [0] ++
      (if k.isLeaf then ByteArray.empty else Bytes.ofNatBE right 4)
  let pointers := Bytes.concat (offsets.map fun o => Bytes.ofNatBE o 2)
  let used := front.size + header.size + pointers.size
  let gap := contentStart - used
  front ++ header ++ pointers ++ Bytes.replicate gap 0 ++ Bytes.concat cells.reverse ++
    Bytes.replicate (pageSize - usable) 0

end PageFile
end PowChain
