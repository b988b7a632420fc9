import PowChain.PageFile.Schema

/-!
# Writing trees

A write rebuilds whole trees.  The pages of the trees being replaced, but
not their roots, join the free pages; new pages are handed out lowest number
first, and past the end of the file once none is free.  Whatever is still
free at the end becomes the free list: trunk pages, each naming the next
trunk and up to `usable / 4 - 8` leaf pages.

A tree is laid out bottom up.  Its cells are packed into leaves in key order,
each leaf as full as it goes; while a level has more than one page, a level
of interior pages above it names them.  The single page at the top is
written to the tree's root, which never moves.

* A table interior page names its children by cells holding each child's
  largest rowid; its last child is its right-most pointer, and at least two
  children share every interior page.
* An index keeps each entry once: between two neighbouring pages of a level
  one entry moves up to the level above, as the separator of the two.

A finished write records the free list, the page count, a bumped change
counter (repeated in bytes 92–95, so that the page count is trusted) and the
writer's version.
-/

namespace PowChain
namespace PageFile

/-- An image being written, with the pages still free, lowest first. -/
structure Draft where
  img : Image
  free : List Nat

/-- A computation that writes an image. -/
abbrev DraftM := StateM Draft

namespace Draft

/-- A free page, or a new one at the end of the file. -/
def allocate : DraftM Nat := do
  let d ← get
  match d.free with
  | n :: rest =>
    set { d with free := rest }
    pure n
  | [] =>
    set { d with img := { d.img with pages := d.img.pages.push (Bytes.replicate d.img.pageSize 0) } }
    pure (d.img.pages.size + 1)

def writePage (n : Nat) (bytes : ByteArray) : DraftM Unit :=
  modify fun d => { d with img := { d.img with pages := d.img.pages.setIfInBounds (n - 1) bytes } }

/-- Hands pages back to be used again. -/
def release (ns : List Nat) : DraftM Unit :=
  modify fun d =>
    { d with free := ((d.free ++ ns).mergeSort fun a b => decide (a ≤ b)).eraseDups }

/-- Sets the four-byte header field at `offset`. -/
def setField (offset value : Nat) : DraftM Unit := do
  let p1 := (← get).img.pages.getD 0 ByteArray.empty
  writePage 1 (p1.extract 0 offset ++ Bytes.ofNatBE value 4 ++ p1.extract (offset + 4) p1.size)

end Draft

open Draft

/-- Bytes cut into chunks of `n`, the last one shorter. -/
def chunks (b : ByteArray) (n : Nat) : List ByteArray :=
  if n == 0 then [b]
  else (List.range ((b.size + n - 1) / n)).map fun i => b.extract (i * n) ((i + 1) * n)

/-- Writes bytes to a new overflow chain: the number of its first page. -/
def writeOverflow (rest : ByteArray) : DraftM Nat := do
  let img := (← get).img
  let parts := chunks rest (img.usable - 4)
  let nums ← parts.mapM fun _ => allocate
  let nexts := nums.drop 1 ++ [0]
  for ((part, n), next) in (parts.zip nums).zip nexts do
    let body := Bytes.ofNatBE next 4 ++ part
    writePage n (body ++ Bytes.replicate (img.pageSize - body.size) 0)
  pure (nums.headD 0)

/-- A payload laid out for a cell: its size, the part kept on the page, and
its first overflow page. -/
structure Laid where
  size : Nat
  onPage : ByteArray
  overflow : Nat

/-- The part of a cell after the payload size. -/
def Laid.tail (l : Laid) : ByteArray :=
  l.onPage ++ (if l.onPage.size < l.size then Bytes.ofNatBE l.overflow 4 else ByteArray.empty)

/-- Lays out a payload for a table leaf or an index cell. -/
def lay (tableLeaf : Bool) (payload : ByteArray) : DraftM Laid := do
  let n := localSize (← get).img.usable tableLeaf payload.size
  let overflow ← if n < payload.size then writeOverflow (payload.extract n payload.size) else pure 0
  pure ⟨payload.size, payload.extract 0 n, overflow⟩

/-- Runs of items in order, each as long as fits in `room` bytes, an item
costing `cost`; a run holds at least one item. -/
def pack {α : Type} (room : Nat) (cost : α → Nat) : List α → List α → Nat → List (List α)
  | [], cur, _ => if cur.isEmpty then [] else [cur.reverse]
  | x :: xs, cur, used =>
    if cur.isEmpty || used + cost x ≤ room then pack room cost xs (x :: cur) (used + cost x)
    else cur.reverse :: pack room cost xs [x] (cost x)

/-- Moves one item into a last run of one from the run before it. -/
def balanceTail {α : Type} (runs : List (List α)) : List (List α) :=
  match runs.reverse with
  | [x] :: prev :: rest =>
    match prev.getLast? with
    | some y => rest.reverse ++ [prev.dropLast, [y, x]]
    | none => runs
  | _ => runs

/-- The file header's bytes that stand before the tree header of `root`. -/
def frontOf (root : Nat) : DraftM ByteArray := do
  if root == 1 then pure (Bytes.take ((← get).img.pages.getD 0 ByteArray.empty) 100)
  else pure ByteArray.empty

/-! ## Tables -/

/-- A table interior cell: a child and its largest rowid. -/
def tableInteriorCell (k : Nat × Int) : ByteArray := Bytes.ofNatBE k.1 4 ++ varint (word64 k.2)

/-- Writes the interior levels of a table tree over children with their
largest rowids. -/
def tableLevels (root : Nat) (front : ByteArray) : Nat → List (Nat × Int) → DraftM Unit
  | 0, _ => pure ()
  | fuel + 1, kids => do
    let img := (← get).img
    let room := img.usable - front.size - 12
    let runs := balanceTail (pack room (fun k => (padCell (tableInteriorCell k)).size + 2) kids [] 0)
    let page (f : ByteArray) (run : List (Nat × Int)) : ByteArray :=
      assemble img.pageSize img.usable f .tableInterior (run.dropLast.map tableInteriorCell)
        ((run.getLast?.map (·.1)).getD 0)
    match runs with
    | [run] => writePage root (page front run)
    | _ =>
      let parents ← runs.mapM fun run => do
        let n ← allocate
        writePage n (page ByteArray.empty run)
        pure (n, (run.getLast?.map (·.2)).getD 0)
      tableLevels root front fuel parents

/-- Writes a table tree at `root` holding rows in rowid order. -/
def writeTable (root : Nat) (rows : List (Int × ByteArray)) : DraftM Unit := do
  let front ← frontOf root
  let cells ← rows.mapM fun (r, p) => do
    let l ← lay true p
    pure (r, varint l.size ++ varint (word64 r) ++ l.tail)
  let img := (← get).img
  let room := img.usable - front.size - 8
  let runs := pack room (fun c => (padCell c.2).size + 2) cells [] 0
  let leaf (f : ByteArray) (run : List (Int × ByteArray)) : ByteArray :=
    assemble img.pageSize img.usable f .tableLeaf (run.map (·.2)) 0
  match runs with
  | [] => writePage root (leaf front [])
  | [run] => writePage root (leaf front run)
  | _ =>
    let kids ← runs.mapM fun run => do
      let n ← allocate
      writePage n (leaf ByteArray.empty run)
      pure (n, (run.getLast?.map (·.1)).getD 0)
    tableLevels root front (kids.length + 1) kids

/-! ## Indexes -/

/-- Splits a level of index entries, each with its left child, into pages,
moving one entry up between neighbours; the pages' entries and the entries
moved up.  The last page is never left empty. -/
def splitLevel (room : Nat) (cost : Laid × Nat → Nat) :
    List (Laid × Nat) → List (Laid × Nat) → Nat → List (List (Laid × Nat)) × List (Laid × Nat)
  | [], cur, _ => ([cur.reverse], [])
  | x :: xs, cur, used =>
    if cur.isEmpty || used + cost x ≤ room then splitLevel room cost xs (x :: cur) (used + cost x)
    else
      let (runs, up) := splitLevel room cost xs [] 0
      match runs, xs with
      | [[]], [] =>
        -- `x` was the last entry: it ends the level, and the entry before it moves up
        match cur with
        | y :: before => ([before.reverse, [x]], [y])
        | [] => ([[x]], [])
      | _, _ => (cur.reverse :: runs, x :: up)

/-- Writes the levels of an index tree from `items` (entries with their left
children) and the right-most child `last`. -/
def indexLevels (root : Nat) : Nat → Bool → List (Laid × Nat) → Nat → DraftM Unit
  | 0, _, _, _ => pure ()
  | fuel + 1, leafLevel, items, last => do
    let img := (← get).img
    let kind := if leafLevel then PageKind.indexLeaf else .indexInterior
    let cellOf (x : Laid × Nat) : ByteArray :=
      (if leafLevel then ByteArray.empty else Bytes.ofNatBE x.2 4) ++ varint x.1.size ++ x.1.tail
    let room := img.usable - kind.headerSize
    let (runs, up) := splitLevel room (fun x => (padCell (cellOf x)).size + 2) items [] 0
    let rights := up.map (·.2) ++ [last]
    let page (run : List (Laid × Nat)) (right : Nat) : ByteArray :=
      assemble img.pageSize img.usable ByteArray.empty kind (run.map cellOf) right
    match runs with
    | [run] => writePage root (page run last)
    | _ =>
      let nums ← (runs.zip rights).mapM fun (run, right) => do
        let n ← allocate
        writePage n (page run right)
        pure n
      indexLevels root fuel false ((up.map (·.1)).zip nums) (nums.getLastD 0)

/-- Writes an index tree at `root` holding entries in key order. -/
def writeIndex (root : Nat) (entries : List ByteArray) : DraftM Unit := do
  let laid ← entries.mapM (lay false)
  indexLevels root (entries.length + 1) true (laid.map (·, 0)) 0

/-! ## Finishing a write -/

/-- A list cut into runs of `n`, the last one shorter. -/
def groupsOf {α : Type} (n : Nat) (xs : List α) : List (List α) :=
  (List.range ((xs.length + n - 1) / n)).map fun i => (xs.drop (i * n)).take n

/-- Writes the pages still free as the free list. -/
def writeFreeList : DraftM Unit := do
  let d ← get
  let parts := groupsOf (d.img.usable / 4 - 7) d.free
  let trunks := parts.filterMap List.head?
  let nexts := trunks.drop 1 ++ [0]
  for (part, next) in parts.zip nexts do
    match part with
    | trunk :: leaves =>
      let body := Bytes.ofNatBE next 4 ++ Bytes.ofNatBE leaves.length 4 ++
        Bytes.concat (leaves.map fun l => Bytes.ofNatBE l 4)
      writePage trunk (body ++ Bytes.replicate (d.img.pageSize - body.size) 0)
    | [] => pure ()
  setField 32 (trunks.headD 0)
  setField 36 d.free.length

/-- Closes a write: the free list, the page count, the change counter and the
writer's version. -/
def finishWrite : DraftM Unit := do
  writeFreeList
  let img := (← get).img
  let counter := img.changeCounter + 1
  setField 24 counter
  setField 28 img.pages.size
  setField 92 counter
  setField 96 writerVersion

/-- A new database: one page holding the file header and an empty schema. -/
def Image.fresh : Image :=
  let pageSize := defaultPageSize
  let header := magic ++ Bytes.ofList [(pageSize / 256 % 256).toUInt8, (pageSize / 65536).toUInt8,
    1, 1, 0, 64, 32, 32] ++ Bytes.replicate 4 0 ++ Bytes.ofNatBE 1 4 ++ Bytes.replicate 68 0
  { pageSize, reserved := 0, pages := #[assemble pageSize pageSize header .tableLeaf [] 0] }

/-- Runs a write on an image, with its free list as the free pages. -/
def Image.write (img : Image) (w : DraftM Unit) : Except Fault Image := do
  let free ← img.freePages
  let start : Draft := { img, free := free.mergeSort fun a b => decide (a ≤ b) }
  pure (Id.run ((do w; finishWrite : DraftM Unit).run start)).2.img

end PageFile
end PowChain
