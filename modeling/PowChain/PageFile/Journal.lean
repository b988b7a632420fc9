import PowChain.Bytes.Basic

/-!
# Rollback journals

Before a write changes a page of a database in rollback mode, the page's old
content goes to the journal beside the file.  A journal left behind by a
write that never finished is hot: the next reader puts the old pages back
and deletes it.

A journal begins with a header of one sector:

* bytes 0–7, the magic `d9 d5 05 f9 20 a1 63 d7`;
* bytes 8–11, the number of page records (all ones: as many as fit);
* bytes 12–15, the seed of the records' checksums;
* bytes 16–19, the size of the database, in pages, before the write;
* bytes 20–23 and 24–27, the sector size and the page size.

Each record after the header is a page number, the page's old content and a
checksum: the seed plus every 200th byte of the page, counted back from 200
bytes before its end.  Playing a journal back stops at the first record
whose number is zero or whose checksum is wrong; then the database is cut to
its old size.  A journal whose header is not valid puts nothing back.
-/

namespace PowChain
namespace PageFile

/-- The first eight bytes of a journal. -/
def journalMagic : ByteArray := Bytes.ofList [0xd9, 0xd5, 0x05, 0xf9, 0x20, 0xa1, 0x63, 0xd7]

/-- Whether a number is a power of two between two bounds. -/
def powerOfTwoIn (lo hi n : Nat) : Bool :=
  lo ≤ n && n ≤ hi && (List.range 17).any fun i => n == Nat.pow 2 i

/-- The checksum of a journal record's page. -/
def recordChecksum (seed : Nat) (page : ByteArray) : Nat :=
  let offsets := (List.range (page.size / 200 + 1)).filterMap fun k =>
    let back := 200 * (k + 1)
    if back < page.size then some (page.size - back) else none
  (offsets.foldl (fun acc i => acc + (Bytes.getD page i).toNat) seed) % Nat.pow 2 32

/-- Writes page `n` (from 1) of a database, growing it as needed. -/
def putPage (db : ByteArray) (pageSize n : Nat) (page : ByteArray) : ByteArray :=
  let start := (n - 1) * pageSize
  let grown := if db.size < start + pageSize then db ++ Bytes.replicate (start + pageSize - db.size) 0 else db
  Bytes.take grown start ++ page ++ grown.extract (start + pageSize) grown.size

/-- The database with a hot journal played back; a journal whose header is
not valid leaves it as it is. -/
def playJournal (db journal : ByteArray) : ByteArray :=
  let field (i : Nat) : Nat := Bytes.toNatBE (Bytes.slice journal i 4)
  if Bytes.take journal 8 != journalMagic || journal.size < 28 then db
  else
    let count := field 8
    let seed := field 12
    let oldPages := field 16
    let sector := field 20
    let pageSize := field 24
    if !powerOfTwoIn 512 65536 pageSize || !powerOfTwoIn 32 65536 sector then db
    else
      let recordSize := pageSize + 8
      let room := (journal.size - min journal.size sector) / recordSize
      let count := if count == Nat.pow 2 32 - 1 then room else min count room
      let records := (List.range count).map fun k =>
        let pos := sector + k * recordSize
        (Bytes.toNatBE (Bytes.slice journal pos 4), Bytes.slice journal (pos + 4) pageSize,
          Bytes.toNatBE (Bytes.slice journal (pos + 4 + pageSize) 4))
      let good := records.takeWhile fun (n, page, sum) => n != 0 && recordChecksum seed page == sum
      let restored := good.foldl (fun acc (n, page, _) => putPage acc pageSize n page) db
      Bytes.take restored (oldPages * pageSize)

end PageFile
end PowChain
