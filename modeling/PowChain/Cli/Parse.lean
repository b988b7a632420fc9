import PowChain.Cli.Grammar

/-!
# Reading a command line

Arguments are read from the left.  `--name` and `--name=value` are long
options; `-abc` is a cluster of short ones, where an option that takes a value
takes the rest of the cluster (after an optional `=`) or else the next
argument.  A value that is still missing when another option starts, or at
the end, is an error; so is an option given a value twice.  An argument that
is not an option is the value of an option waiting for one, or else names the
program's command (or, for a command, is an error); everything after the
command belongs to it.  `help` as a command shows the help of the commands
named after it.  After `--` no argument is taken, and an option still waiting
for its value is settled only at the end.

The command's arguments are read and checked before the program's pending
value and missing command are.  Defaults fill options not given, and
required ones must be given.
-/

namespace PowChain
namespace Cli

/-- Values given to options, by long name, in the order the options first
appeared; a counted flag has one empty value per appearance. -/
abbrev Given := List (String × List String)

def Given.has (g : Given) (long : String) : Bool := g.any (·.1 == long)

def Given.add (g : Given) (long v : String) : Given :=
  if g.has long then g.map fun (n, vs) => if n == long then (n, vs ++ [v]) else (n, vs)
  else g ++ [(long, [v])]

/-- The state of reading one command's arguments. -/
structure Scan where
  given : Given := []
  /-- An option waiting for its value, and the value once it came. -/
  pending : Option (Param × Option String) := none
  /-- Whether any option was given. -/
  explicit : Bool := false

/-- Whether an option waits for its value; the next plain argument is then
that value, even when it names a command. -/
def Scan.waiting (s : Scan) : Bool :=
  match s.pending with
  | some (_, none) => true
  | _ => false

/-- What follows a command's own arguments. -/
inductive Next where
  | finished
  | command (c : Command) (rest : List String)
  | helpCommand (names : List String)

/-- A command line read: the program's options, its command and the
command's options. -/
structure Invocation where
  options : Given
  command : String
  args : Given

def emptyValue (p : Param) : Outcome :=
  usageError ("a value is required for '" ++ p.shown ++ "' but none was supplied") [] none

def invalidValue (p : Param) (v reason : String) : Outcome :=
  usageError ("invalid value '" ++ v ++ "' for '" ++ p.shown ++ "': " ++ reason) [] none

/-- The value given to an option, once checked; a number is kept in its
plain decimal form. -/
def checkValue (p : Param) (v : String) : Except Outcome String :=
  match p.kind with
  | .text => .ok v
  | .path => if v.isEmpty then .error (emptyValue p) else .ok v
  | .u32 =>
    match Text.parseSigned (Nat.pow 2 63 - 1) v with
    | .error f => .error (invalidValue p v f.message)
    | .ok n =>
      if 0 ≤ n && n < Int.ofNat (Nat.pow 2 32) then .ok (toString n)
      else .error (invalidValue p (toString n) (toString n ++ " is not in 0..=4294967295"))

section Reading

variable (prog : Program) (cmd : Command) (top : Bool)

/-- Records a value of an option. -/
def give (s : Scan) (p : Param) (v : String) : Except Outcome Scan := do
  let v ← checkValue p v
  if p.action == .set && s.given.has p.long then
    throw (usageError ("the argument '" ++ p.shown ++ "' cannot be used multiple times") []
      (some (cmd.usage top)))
  pure { s with given := s.given.add p.long v }

/-- Settles the option waiting for its value. -/
def resolve (s : Scan) : Except Outcome Scan :=
  match s.pending with
  | none => .ok s
  | some (p, none) => .error (emptyValue p)
  | some (p, some v) => give cmd top { s with pending := none } p v

/-- The options whose values are recorded, for usages; an option still
waiting is not among them. -/
def committed (s : Scan) : List String := s.given.map (·.1)

/-- The options given so far once the waiting one is settled, if it can be,
for usages. -/
def settled (s : Scan) : List String :=
  match resolve cmd top s with
  | .ok s => committed s
  | .error _ => committed s

/-- What showing help or the version ends with. -/
def shows (p : Param) : Outcome :=
  if p.action == .version then { code := 0, stdout := prog.version ++ "\n" }
  else if top then { code := 0, stdout := prog.mainHelp }
  else { code := 0, stdout := cmd.help [] }

/-- An option that appeared, with the value attached to it, if any.  A value
attached to an option that takes none is refused before the waiting option
is settled; the usage then shows the group once a member is recorded. -/
def meet (s : Scan) (p : Param) (attached : Option String) : Except Outcome Scan := do
  if let some v := attached then
    if !p.takesValue then
      let named := committed s
      throw (usageError ("unexpected value '" ++ v ++ "' for '" ++ p.shown ++ "' found; no more were expected")
        [] (some (cmd.usageWith top (named ++ [p.long]) (named.any cmd.group.contains))))
  let s ← resolve cmd top s
  let s := { s with explicit := true }
  match p.action, attached with
  | .set, some v | .append, some v => give cmd top s p v
  | .set, none | .append, none => pure { s with pending := some (p, none) }
  | .count, _ => pure { s with given := s.given.add p.long "" }
  | _, _ => throw (shows prog cmd top p)

/-- An unknown long option, with the arguments after it; its usage names the
options one by one. -/
def unknownLong (s : Scan) (name : String) (rest : List String) : Outcome :=
  let mine := settled cmd top s
  match (similar name (cmd.params.map (·.long))).getLast? with
  | some best =>
    usageError ("unexpected argument '--" ++ name ++ "' found")
      [similarTip "argument" ["--" ++ best]] (some (cmd.usageWith top (mine ++ [best]) false))
  | none =>
    let elsewhere := if !top then none else prog.commands.findSome? fun c =>
      match (similar name (c.params.map (·.long))).getLast? with
      | some cand => if rest.contains c.name then some ("'" ++ c.name ++ " --" ++ cand ++ "' exists") else none
      | none => none
    usageError ("unexpected argument '--" ++ name ++ "' found") elsewhere.toList
      (some (cmd.usageWith top mine false))

/-- A cluster of short options. -/
def cluster (s : Scan) : List Char → Except Outcome Scan
  | [] => .ok s
  | c :: more =>
    match cmd.params.find? (·.short == some c) with
    | none =>
      .error (usageError ("unexpected argument '-" ++ c.toString ++ "' found") [] (some (cmd.usage top)))
    | some p =>
      if p.takesValue then
        let attached := match more with
          | '=' :: v => some (String.ofList v)
          | [] => none
          | v => some (String.ofList v)
        meet prog cmd top s p attached
      else do
        let s ← meet prog cmd top s p none
        cluster s more

/-- An argument that names no command where the program needs one. -/
def unknownCommand (a : String) : Outcome :=
  match similar a prog.commandNames with
  | [] => usageError ("unrecognized subcommand '" ++ a ++ "'") [] (some (cmd.usage true))
  | names =>
    usageError ("unrecognized subcommand '" ++ a ++ "'") [similarTip "subcommand" names]
      (some (cmd.usage true))

/-- An argument that is not an option. -/
def positional (s : Scan) (a : String) : Except Outcome Scan :=
  match s.pending with
  | some (p, none) => .ok { s with pending := some (p, some a) }
  | _ =>
    if top then .error (unknownCommand prog cmd a)
    else .error (usageError ("unexpected argument '" ++ a ++ "' found") [] (some (cmd.usage false)))

/-- An argument after `--`, where no argument is taken: a command's name
there is only misplaced. -/
def afterDashes (a : String) : Outcome :=
  if !top then usageError ("unexpected argument '" ++ a ++ "' found") [] (some (cmd.usage false))
  else if prog.commandNames.contains a then
    usageError ("unexpected argument '" ++ a ++ "' found")
      ["subcommand '" ++ a ++ "' exists; to use it, remove the '--' before it"] (some (cmd.usage true))
  else unknownCommand prog cmd a

/-- Reads a command's arguments up to its end or the program's command. -/
def scan : List String → Scan → Except Outcome (Scan × Next)
  | [], s => .ok (s, .finished)
  | a :: rest, s =>
    if a == "--" then
      -- an option still waiting keeps waiting: only the end settles it
      match rest with
      | [] => .ok (s, .finished)
      | b :: _ => .error (afterDashes prog cmd top b)
    else if a.startsWith "--" then do
      let body := (a.drop 2).toString
      let (name, attached) := match body.splitOn "=" with
        | [n] => (n, none)
        | n :: vs => (n, some ("=".intercalate vs))
        | [] => (body, none)
      match cmd.params.find? (·.long == name) with
      | none => throw (unknownLong prog cmd top s name rest)
      | some p => scan rest (← meet prog cmd top s p attached)
    else if a.startsWith "-" && a.length > 1 then do
      scan rest (← cluster prog cmd top s (a.drop 1).toString.toList)
    else if s.waiting then do scan rest (← positional prog cmd top s a)
    else if top && a == "help" then .ok (s, .helpCommand rest)
    else if top then
      match prog.commands.find? (·.name == a) with
      | some c => .ok (s, .command c rest)
      | none => do scan rest (← positional prog cmd top s a)
    else do scan rest (← positional prog cmd top s a)

/-- Settles a command's reading: the pending value, the defaults, and the
required options. -/
def finish (s : Scan) : Except Outcome Given := do
  let s ← resolve cmd top s
  let missing := cmd.params.filter fun p => p.required && !s.given.has p.long
  if !missing.isEmpty then
    throw (usageError ("the following required arguments were not provided:" ++
        String.join (missing.map fun p => "\n  " ++ p.shown)) []
      (some (cmd.usageWith top (committed s ++ missing.map (·.long)) false)))
  pure (cmd.params.foldl (fun g p =>
    match p.default with
    | some d => if g.has p.long then g else g ++ [(p.long, [d])]
    | none => g) s.given)

end Reading

/-- The help the help command shows for the commands it names. -/
def helpFor (prog : Program) : List String → Outcome
  | [] => { code := 0, stdout := prog.mainHelp }
  | name :: more =>
    -- the help text, the usage, and whether the command has a help flag
    let found : Option (String × String × Bool) :=
      if name == "help" then some (prog.helpHelp, prog.main.usageName ++ " help [COMMAND]...", false)
      else (prog.commands.find? (·.name == name)).map fun c => (c.help [], c.usage false, true)
    match found, more with
    | none, _ =>
      usageError ("unrecognized subcommand '" ++ name ++ "'") [] (some (prog.main.usage true))
    | some (text, _), [] => { code := 0, stdout := text }
    | some (_, usage, pointer), next :: _ =>
      usageErrorFrom pointer ("unrecognized subcommand '" ++ next ++ "'") [] (some usage)

/-- Reads a program's command line. -/
def Program.parse (prog : Program) (args : List String) : Except Outcome Invocation := do
  let (s, next) ← scan prog prog.main true args {}
  match next with
  | .helpCommand names => throw (helpFor prog names)
  | .command c rest =>
    let (cs, cnext) ← scan prog c false rest {}
    match cnext with
    | .finished => pure ()
    | _ => pure ()
    let cargs ← finish c false cs
    let options ← finish prog.main true s
    pure { options, command := c.name, args := cargs }
  | .finished =>
    let s ← resolve prog.main true s
    if !s.explicit then throw { code := 2, stderr := prog.mainHelp }
    throw (usageError ("'" ++ prog.main.usageName ++ "' requires a subcommand but one was not provided\n  [subcommands: " ++
      ", ".intercalate prog.commandNames ++ "]") [] (some (prog.main.usage true)))

end Cli
end PowChain
