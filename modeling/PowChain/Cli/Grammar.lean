import PowChain.Text.Number

/-!
# Command-line grammars

A program takes options and then one of its commands, which takes options
of its own.  An option has a long name, perhaps a one-letter short name, and
an action: show help, show the version, count its appearances, or take a
value (once, or any number of times).  A value may be checked: a path must
not be empty, a number must be a 32-bit unsigned integer.

Help lists a command's about line, its usage and its entries in aligned
columns: `[OPTIONS]` in a usage stands for the options that are not
required, required ones are spelled out, and `<COMMAND>` stands for the
command a program needs.

Mistyped names are matched against the known ones by Jaro similarity; those
more than 0.7 alike are suggested, the most alike last.  Once an option of a
command's group is given, usages show the group as one alternative of its
members.
-/

namespace PowChain
namespace Cli

/-- How a value is checked. -/
inductive ValueKind where
  | text
  | path
  | u32
  deriving DecidableEq, Repr

/-- What an option does when it appears. -/
inductive Action where
  | help
  | version
  | count
  | set
  | append
  deriving DecidableEq, Repr

/-- An option. -/
structure Param where
  long : String
  short : Option Char := none
  action : Action := .set
  /-- The placeholder of its value in usages. -/
  valueName : String := ""
  kind : ValueKind := .text
  help : String := ""
  default : Option String := none
  required : Bool := false
  deriving Repr

namespace Param

def takesValue (p : Param) : Bool := p.action == .set || p.action == .append

/-- The option as errors and usages show it: `--config <CONFIG>`,
`--verbose...`. -/
def shown (p : Param) : String :=
  "--" ++ p.long ++
    if p.takesValue then " <" ++ p.valueName ++ ">" else if p.action == .count then "..." else ""

def helpFlag : Param := { long := "help", short := some 'h', action := .help, help := "Print help" }

def versionFlag : Param :=
  { long := "version", short := some 'V', action := .version, help := "Print version" }

end Param

/-- A command: its name, the name its usage shows, its about line and its
options (help last).  The options of `group` belong together: once one of
them is given, usages name them as one alternative. -/
structure Command where
  name : String
  usageName : String
  about : String
  params : List Param
  group : List String := []
  deriving Repr

/-- A program: its own options, its commands, and its version line. -/
structure Program where
  main : Command
  commands : List Command
  version : String
  deriving Repr

/-! ## Similarity -/

/-- Marks the first unmatched position of `b` within `[lo, hi)` holding `c`. -/
def claim (c : Char) (lo hi : Nat) : List (Char × Bool) → Nat → Option (List (Char × Bool))
  | [], _ => none
  | (d, used) :: rest, j =>
    if lo ≤ j && j < hi && !used && c == d then some ((d, true) :: rest)
    else ((d, used) :: ·) <$> claim c lo hi rest (j + 1)

/-- The Jaro similarity of two texts, in double precision: the three ratios
are rounded one by one, so that a score meets the bound of a suggestion the
same way on every platform. -/
def jaro (a b : String) : Float :=
  let as := a.toList
  let bs := b.toList
  if as.isEmpty && bs.isEmpty then 1
  else if as.isEmpty || bs.isEmpty then 0
  else
    let range := max as.length bs.length / 2 - 1
    let step (acc : List Bool × List (Char × Bool) × Nat) (c : Char) :=
      let (aFlags, bState, i) := acc
      let lo := i - range
      let hi := min bs.length (i + range + 1)
      match claim c lo hi bState 0 with
      | some bState => (aFlags ++ [true], bState, i + 1)
      | none => (aFlags ++ [false], bState, i + 1)
    let (aFlags, bState, _) := as.foldl step ([], bs.map (·, false), 0)
    let aMatched := (as.zip aFlags).filterMap fun (c, f) => if f then some c else none
    let bMatched := bState.filterMap fun (c, f) => if f then some c else none
    let m := aMatched.length
    if m == 0 then 0
    else
      let t := ((aMatched.zip bMatched).filter fun (x, y) => x != y).length / 2
      (m.toFloat / as.length.toFloat + m.toFloat / bs.length.toFloat +
        (m - t).toFloat / m.toFloat) / 3

/-- The candidates more than 0.7 alike to `word`, the most alike last (ties
in their given order). -/
def similar (word : String) (candidates : List String) : List String :=
  let scored := candidates.filterMap fun c =>
    let score := jaro word c
    if score > 0.7 then some (c, score) else none
  (scored.mergeSort fun (_, x) (_, y) => x ≤ y).map (·.1)

/-! ## Help and usage -/

def spaces (n : Nat) : String := String.ofList (List.replicate n ' ')

namespace Command

/-- Whether the usage shows `[OPTIONS]`: some option other than help and
version is not required. -/
def needsOptionsTag (c : Command) : Bool :=
  c.params.any fun p => p.action != .help && p.action != .version && !p.required

def requiredShown (c : Command) : List String :=
  (c.params.filter (·.required)).map (·.shown)

/-- The usage of a command when nothing is known about the arguments. -/
def usage (c : Command) (needsCommand : Bool) : String :=
  c.usageName ++ (if c.needsOptionsTag then " [OPTIONS]" else "") ++
    String.join (c.requiredShown.map (" " ++ ·)) ++ (if needsCommand then " <COMMAND>" else "")

/-- The command's group as a usage shows it: `<--a <A>|--b...>`. -/
def groupShown (c : Command) : String :=
  let members := c.group.filterMap fun n => (c.params.find? (·.long == n)).map (·.shown)
  "<" ++ "|".intercalate members ++ ">"

/-- The usage of a command naming the required options and those `used`;
when `grouped`, the command's group stands for its members. -/
def usageWith (c : Command) (needsCommand : Bool) (used : List String) (grouped : Bool) : String :=
  if used.isEmpty && !grouped then c.usage needsCommand
  else
    let named := (c.params.filter (·.required)).map (·.long) ++ used
    let named := named.foldl (fun acc n => if acc.contains n then acc else acc ++ [n]) []
    let named := if grouped then named.filter (!c.group.contains ·) else named
    let shown := named.filterMap fun n => (c.params.find? (·.long == n)).map (·.shown)
    let shown := if grouped then shown ++ [c.groupShown] else shown
    c.usageName ++ String.join (shown.map (" " ++ ·)) ++ (if needsCommand then " <COMMAND>" else "")

/-- The help line of an option, its name column `width` wide. -/
def paramLine (width : Nat) (p : Param) : String :=
  let head := "  " ++ (match p.short with
    | some c => "-" ++ c.toString ++ ", "
    | none => "    ") ++ p.shown
  let spec := match p.default with
    | some d => "[default: " ++ d ++ "]"
    | none => ""
  let text := if p.help.isEmpty then spec else if spec.isEmpty then p.help else p.help ++ " " ++ spec
  head ++ spaces (width + 2 - p.shown.length) ++ text

/-- Lines of a two-column listing of names and texts. -/
def listing (entries : List (String × String)) : String :=
  let width := entries.foldl (fun m (n, _) => max m n.length) 2
  "\n".intercalate (entries.map fun (n, t) => "  " ++ n ++ spaces (width + 2 - n.length) ++ t)

/-- The help of a command; `commands` lists the commands it takes. -/
def help (c : Command) (commands : List (String × String)) : String :=
  let width := c.params.foldl (fun m p => max m p.shown.length) 2
  let sections :=
    (if commands.isEmpty then [] else ["Commands:\n" ++ listing commands]) ++
    (if c.params.isEmpty then [] else ["Options:\n" ++ "\n".intercalate (c.params.map (paramLine width))])
  c.about ++ "\n\nUsage: " ++ c.usage (!commands.isEmpty) ++ "\n\n" ++ "\n\n".intercalate sections ++ "\n"

end Command

namespace Program

def helpAbout : String := "Print this message or the help of the given subcommand(s)"

/-- The command list of the program's help, help last. -/
def commandList (p : Program) : List (String × String) :=
  p.commands.map (fun c => (c.name, c.about)) ++ [("help", helpAbout)]

def commandNames (p : Program) : List String := p.commandList.map (·.1)

def mainHelp (p : Program) : String := p.main.help p.commandList

/-- The help of the help command. -/
def helpHelp (p : Program) : String :=
  helpAbout ++ "\n\nUsage: " ++ p.main.usageName ++ " help [COMMAND]...\n\nArguments:\n" ++
    Command.listing [("[COMMAND]...", "Print help for the subcommand(s)")] ++ "\n"

end Program

/-! ## Exits -/

/-- How a program ended: its exit code and what it printed. -/
structure Outcome where
  code : Nat
  stdout : String := ""
  stderr : String := ""
  /-- The program is still running, serving others; it has no exit code. -/
  serving : Bool := false
  deriving DecidableEq, Repr

/-- A usage error: the message, tips, and usage, then a pointer to the help
flag when the command that reports it has one (`pointer`). -/
def usageErrorFrom (pointer : Bool) (message : String) (tips : List String) (usage : Option String) :
    Outcome :=
  let tipText := if tips.isEmpty then "" else "\n" ++ String.join (tips.map ("\n  tip: " ++ ·))
  let usageText := match usage with
    | some u => "\n\nUsage: " ++ u
    | none => ""
  { code := 2, stderr := "error: " ++ message ++ tipText ++ usageText ++
      (if pointer then "\n\nFor more information, try '--help'." else "") ++ "\n" }

/-- A usage error of a command with a help flag. -/
def usageError (message : String) (tips : List String) (usage : Option String) : Outcome :=
  usageErrorFrom true message tips usage

/-- A tip naming similar known names. -/
def similarTip (what : String) (names : List String) : String :=
  let quoted := ", ".intercalate (names.map fun n => "'" ++ n ++ "'")
  if names.length == 1 then "a similar " ++ what ++ " exists: " ++ quoted
  else "some similar " ++ what ++ "s exist: " ++ quoted

end Cli
end PowChain
