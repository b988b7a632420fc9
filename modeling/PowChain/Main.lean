import PowChain.Cli.Node
import Std.Time.Format

/-!
# The node program on this computer

The node program itself works on a model of the machine.  This entry point
copies into the model the files the program may touch (with every directory
on their way), runs it, writes back what it changed, and prints what it
printed.  The process's id, the processes that hold lock files, the home
directory and the clock are read from the computer.
-/

namespace PowChain
namespace Launch

open Host

/-- What a path holds on this computer. -/
def probe (p : String) : IO (Option Entry) := do
  try
    pure (some (.file 0 (← IO.FS.readBinFile p)))
  catch e =>
    match e with
    | .inappropriateType _ 21 _ => pure (some .dir)
    | _ => pure none

/-- Copies a path, and the directories on its way, into the model. -/
def copyIn (fs : FileSystem) (parts : PathParts) : IO FileSystem := do
  let mut fs := fs
  for k in List.range parts.length do
    let q := parts.take (k + 1)
    match ← probe (render q) with
    | some .dir => fs := fs.put q .dir
    | some (.file _ b) =>
      fs := fs.putBytes q b
      return fs
    | none => return fs
  pure fs

/-- The model with the given paths copied in. -/
def copyAll (m : Machine) (paths : List String) : IO Machine := do
  let mut fs := m.fs
  for p in paths do
    fs ← copyIn fs (m.locate p)
  pure { m with fs }

/-- This process's id. -/
def ownPid : IO Nat := do
  try
    let stat ← IO.FS.readFile "/proc/self/stat"
    pure (((stat.splitOn " ").headD "").toNat?.getD 0)
  catch _ => pure 0

/-- The running processes named by lock files in the model. -/
def runningHolders (m : Machine) : IO (List Nat) := do
  let mut found := [1]
  for (parts, e) in m.fs.entries do
    if parts.getLast? == some DirLock.fileName then
      if let .file _ b := e then
        if let some pid := (String.fromUTF8? b).bind fun t => parseU32? (Text.trim t) then
          if (← probe ("/proc/" ++ toString pid)).isSome then found := pid :: found
  pure found

/-- Writes the model's changes back to this computer. -/
def writeBack (before after : FileSystem) : IO Unit := do
  let ordered := after.entries.mergeSort fun a b => a.1.length ≤ b.1.length
  for (parts, e) in ordered do
    match e, before.entry? parts with
    | .dir, some .dir => pure ()
    | .dir, _ => IO.FS.createDirAll (render parts)
    | .file _ b, some (.file _ old) => if b != old then IO.FS.writeBinFile (render parts) b
    | .file _ b, _ => IO.FS.writeBinFile (render parts) b
  for (parts, e) in before.entries do
    if let .file _ _ := e then
      if (after.entry? parts).isNone then
        try IO.FS.removeFile (render parts) catch _ => pure ()

/-- Waits for good: a serving node runs until it is stopped. -/
partial def serve : IO Unit := do
  IO.sleep 2000
  serve

end Launch
end PowChain

def main (args : List String) : IO UInt32 := do
  let cwd := PowChain.Host.resolve [] (← IO.currentDir).toString
  let home ← IO.getEnv "HOME"
  let base : PowChain.Host.Machine := { cwd, pid := ← PowChain.Launch.ownPid }
  let machine ← match PowChain.Cli.nodeProgram.parse args with
    | .error _ => pure base
    | .ok inv =>
      let configPath := (PowChain.Cli.lastValue inv.options "config").getD "config.toml"
      let m ← PowChain.Launch.copyAll base [configPath]
      PowChain.Launch.copyAll m (PowChain.Cli.touchedPaths home inv m)
  let machine := { machine with running := ← PowChain.Launch.runningHolders machine }
  let clock := (← Std.Time.Timestamp.now).toMillisecondsSinceUnixEpoch.val
  let (outcome, after) := PowChain.Cli.runNode home clock args machine
  PowChain.Launch.writeBack machine.fs after.fs
  IO.print outcome.stdout
  IO.eprint outcome.stderr
  if outcome.serving then PowChain.Launch.serve
  pure outcome.code.toUInt32
