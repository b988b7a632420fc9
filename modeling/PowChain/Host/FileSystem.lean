/-!
# Files and directories

A file system is a map from absolute paths, as lists of names, to entries:
directories and files of bytes.  The root always exists, and every entry's
parent is a directory.

Every file is a node with a number of its own.  Writing a file that exists
changes its node's bytes; creating one makes a new node.  Removing a file
takes its path away but not its node: whoever holds the node open still
reads and writes its bytes.

Paths are texts, absolute or taken from a working directory; `.` parts are
dropped and `..` goes up a level.  An operation looks each ancestor up in
turn: a missing one fails with `notFound`, one that is a file with
`notADirectory`.  The faults carry the operating system's numbers and
sentences, which messages show.
-/

namespace PowChain
namespace Host

/-- Why a file operation failed. -/
inductive IoFault where
  | notFound
  | alreadyExists
  | notADirectory
  | isADirectory
  /-- A text file whose bytes are not UTF-8. -/
  | invalidData
  deriving DecidableEq, Repr

namespace IoFault

def code : IoFault → Nat
  | .invalidData => 0
  | .notFound => 2
  | .alreadyExists => 17
  | .notADirectory => 20
  | .isADirectory => 21

def description : IoFault → String
  | .notFound => "No such file or directory"
  | .alreadyExists => "File exists"
  | .notADirectory => "Not a directory"
  | .isADirectory => "Is a directory"
  | .invalidData => "stream did not contain valid UTF-8"

/-- The kind's name in a debugging printout. -/
def kindName : IoFault → String
  | .notFound => "NotFound"
  | .alreadyExists => "AlreadyExists"
  | .notADirectory => "NotADirectory"
  | .isADirectory => "IsADirectory"
  | .invalidData => "InvalidData"

def message (f : IoFault) : String :=
  if f == .invalidData then f.description else s!"{f.description} (os error {f.code})"

/-- The debugging printout of the fault. -/
def debug (f : IoFault) : String :=
  let d := f.description
  if f == .invalidData then s!"Error \x7b kind: {f.kindName}, message: \"{d}\" \x7d"
  else s!"Os \x7b code: {f.code}, kind: {f.kindName}, message: \"{d}\" \x7d"

end IoFault

/-- An entry of a file system. -/
inductive Entry where
  | dir
  /-- A file: its node and its bytes. -/
  | file (node : Nat) (bytes : ByteArray)

/-- Absolute paths, each a list of names from the root. -/
abbrev PathParts := List String

/-- The parts of a path text, read from `cwd` unless it is absolute. -/
def resolve (cwd : PathParts) (p : String) : PathParts :=
  let start := if p.startsWith "/" then [] else cwd
  (p.splitOn "/").foldl (fun acc c =>
    if c == "" || c == "." then acc else if c == ".." then acc.dropLast else acc ++ [c]) start

/-- `base` joined with `p`: `p` itself when absolute, else with one slash
between them. -/
def join (base p : String) : String :=
  if p.startsWith "/" then p
  else if base.isEmpty then p
  else if base.endsWith "/" then base ++ p
  else base ++ "/" ++ p

/-- The text of absolute parts. -/
def render (parts : PathParts) : String := "/" ++ "/".intercalate parts

/-- A file system. -/
structure FileSystem where
  /-- Entries other than the root, in no particular order. -/
  entries : List (PathParts × Entry) := []
  /-- The bytes of nodes that no path reaches any more. -/
  unlinked : List (Nat × ByteArray) := []
  /-- The number the next new node gets. -/
  nextNode : Nat := 1

namespace FileSystem

def entry? (fs : FileSystem) (p : PathParts) : Option Entry :=
  if p.isEmpty then some .dir else (fs.entries.find? (·.1 == p)).map (·.2)

def isDir (fs : FileSystem) (p : PathParts) : Bool :=
  match fs.entry? p with
  | some .dir => true
  | _ => false

def exists? (fs : FileSystem) (p : PathParts) : Bool := (fs.entry? p).isSome

def isFile (fs : FileSystem) (p : PathParts) : Bool :=
  match fs.entry? p with
  | some (.file _ _) => true
  | _ => false

/-- Checks that every proper ancestor of `p` is a directory. -/
def walk (fs : FileSystem) (p : PathParts) : Except IoFault Unit :=
  let rec go : Nat → Except IoFault Unit
    | 0 => .ok ()
    | k + 1 => do
      go k
      match fs.entry? (p.take k) with
      | some .dir => pure ()
      | some (.file _ _) => throw .notADirectory
      | none => throw .notFound
  go p.length

def put (fs : FileSystem) (p : PathParts) (e : Entry) : FileSystem :=
  { fs with entries := (fs.entries.filter (·.1 != p)) ++ [(p, e)] }

/-- Takes paths away; the nodes of files among them stay readable by
number. -/
def eraseWhere (fs : FileSystem) (gone : PathParts → Bool) : FileSystem :=
  let dropped := fs.entries.filterMap fun (q, e) => match e with
    | .file n b => if gone q then some (n, b) else none
    | .dir => none
  { fs with entries := fs.entries.filter (!gone ·.1), unlinked := fs.unlinked ++ dropped }

def erase (fs : FileSystem) (p : PathParts) : FileSystem := fs.eraseWhere (· == p)

/-- The node of the file at `p`. -/
def nodeAt (fs : FileSystem) (p : PathParts) : Option Nat :=
  match fs.entry? p with
  | some (.file n _) => some n
  | _ => none

/-- Puts bytes at `p` as the file's new content, keeping its node, or as a
new file. -/
def putBytes (fs : FileSystem) (p : PathParts) (b : ByteArray) : FileSystem :=
  match fs.nodeAt p with
  | some n => fs.put p (.file n b)
  | none => { fs.put p (.file fs.nextNode b) with nextNode := fs.nextNode + 1 }

/-- The bytes of node `n`, wherever it is. -/
def nodeBytes (fs : FileSystem) (n : Nat) : Option ByteArray :=
  let linked := fs.entries.findSome? fun (_, e) => match e with
    | .file m b => if m == n then some b else none
    | .dir => none
  linked.orElse fun _ => (fs.unlinked.find? (·.1 == n)).map (·.2)

/-- Replaces the bytes of node `n`, wherever it is. -/
def setNodeBytes (fs : FileSystem) (n : Nat) (b : ByteArray) : FileSystem :=
  { fs with
    entries := fs.entries.map fun (q, e) => match e with
      | .file m _ => if m == n then (q, .file m b) else (q, e)
      | .dir => (q, e)
    unlinked := fs.unlinked.map fun (m, old) => if m == n then (m, b) else (m, old) }

/-- Makes one directory, whose parent must exist. -/
def mkdir (fs : FileSystem) (p : PathParts) : Except IoFault FileSystem := do
  fs.walk p
  if fs.exists? p then throw .alreadyExists
  pure (fs.put p .dir)

/-- Makes a directory and any missing ancestors; an existing directory is
fine.  The directory itself is tried first; only when its parent is missing
are the ancestors made, from the top, and then the directory again. -/
def createDirAll (fs : FileSystem) (p : PathParts) : Except IoFault FileSystem :=
  let rec go (fs : FileSystem) : Nat → Except IoFault FileSystem
    | 0 => .ok fs
    | k + 1 =>
      let q := p.take (k + 1)
      let settle (fs : FileSystem) (e : IoFault) : Except IoFault FileSystem :=
        if fs.isDir q then .ok fs else .error e
      match fs.mkdir q with
      | .ok fs => .ok fs
      | .error .notFound => do
        let fs ← go fs k
        match fs.mkdir q with
        | .ok fs => pure fs
        | .error e => settle fs e
      | .error e => settle fs e
  go fs p.length

/-- The bytes of a file. -/
def readFile (fs : FileSystem) (p : PathParts) : Except IoFault ByteArray := do
  fs.walk p
  match fs.entry? p with
  | some (.file _ b) => pure b
  | some .dir => throw .isADirectory
  | none => throw .notFound

/-- The text of a file, which must be UTF-8. -/
def readText (fs : FileSystem) (p : PathParts) : Except IoFault String := do
  match String.fromUTF8? (← fs.readFile p) with
  | some t => pure t
  | none => throw .invalidData

/-- Writes a file, creating or emptying it first. -/
def writeFile (fs : FileSystem) (p : PathParts) (b : ByteArray) : Except IoFault FileSystem := do
  fs.walk p
  match fs.entry? p with
  | some .dir => throw .isADirectory
  | _ => if p.isEmpty then throw .isADirectory else pure (fs.putBytes p b)

/-- Creates a file that must not exist yet. -/
def createNew (fs : FileSystem) (p : PathParts) (b : ByteArray) : Except IoFault FileSystem := do
  fs.walk p
  if fs.exists? p then throw .alreadyExists
  pure (fs.putBytes p b)

/-- Removes a file; a directory is refused. -/
def removeFile (fs : FileSystem) (p : PathParts) : Except IoFault FileSystem := do
  fs.walk p
  match fs.entry? p with
  | some (.file _ _) => pure (fs.erase p)
  | some .dir => throw .isADirectory
  | none => throw .notFound

/-- Removes an empty directory. -/
def removeDir (fs : FileSystem) (p : PathParts) : Except IoFault FileSystem := do
  fs.walk p
  match fs.entry? p with
  | some .dir =>
    if fs.entries.any (fun e => e.1.length > p.length && e.1.take p.length == p) then
      throw .alreadyExists
    else pure (fs.erase p)
  | some (.file _ _) => throw .notADirectory
  | none => throw .notFound

/-- The names in a directory, in byte order. -/
def list (fs : FileSystem) (p : PathParts) : Except IoFault (List String) := do
  fs.walk p
  match fs.entry? p with
  | some .dir =>
    let names := fs.entries.filterMap fun (q, _) =>
      if q.length == p.length + 1 && q.take p.length == p then q.getLast? else none
    pure (names.mergeSort (fun a b => decide (a ≤ b)))
  | some (.file _ _) => throw .notADirectory
  | none => throw .notFound

end FileSystem
end Host
end PowChain
