/-!
# Socket addresses

A socket address is an IPv4 address with a port (`1.2.3.4:80`) or a
bracketed IPv6 address, optionally with a numeric zone, and a port
(`[::1]:80`, `[fe80::1%2]:80`).  Host names are not addresses.

Reading follows the usual grammar: IPv4 octets are decimal, at most three
digits, below 256 and without a leading zero; IPv6 groups are at most four hex
digits, at most one `::` stands for a run of zero groups, and an IPv4 address
may stand for the last two groups; a port is decimal and below 65536.  The
whole text must be used.

Writing gives the canonical form: IPv6 groups in lowercase hex without
leading zeros, the first longest run of two or more zero groups written `::`,
and an IPv4-mapped address as `::ffff:` and the dotted quad.
-/

namespace PowChain
namespace Net

/-- An IP address with a port. -/
inductive SocketAddr where
  | v4 (octets : List Nat) (port : Nat)
  | v6 (groups : List Nat) (scope : Nat) (port : Nat)
  deriving DecidableEq, Repr

namespace SocketAddr

/-- A parse of a prefix: the value and the rest of the text. -/
abbrev Parse (α : Type) := List Char → Option (α × List Char)

def digitValue (radix : Nat) (c : Char) : Option Nat :=
  if '0' ≤ c && c ≤ '9' then
    if c.toNat - 48 < radix then some (c.toNat - 48) else none
  else if radix == 16 && 'a' ≤ c && c ≤ 'f' then some (c.toNat - 87)
  else if radix == 16 && 'A' ≤ c && c ≤ 'F' then some (c.toNat - 55)
  else none

/-- Digits read greedily into `acc`, failing once the value passes `max` or
the count passes `maxDigits`. -/
def digits (radix max : Nat) (maxDigits : Option Nat) :
    List Char → Nat → Nat → Option (Nat × Nat × List Char)
  | [], acc, count => some (acc, count, [])
  | c :: rest, acc, count =>
    match digitValue radix c with
    | none => some (acc, count, c :: rest)
    | some d =>
      let v := acc * radix + d
      if v > max then none
      else if maxDigits.any (count + 1 > ·) then none
      else digits radix max maxDigits rest v (count + 1)

/-- A number of at least one digit; a leading zero only when allowed or
alone. -/
def number (radix max : Nat) (maxDigits : Option Nat) (zeroPrefix : Bool) : Parse Nat := fun s =>
  match digits radix max maxDigits s 0 0 with
  | none => none
  | some (v, count, rest) =>
    if count == 0 then none
    else if !zeroPrefix && s.head? == some '0' && count > 1 then none
    else some (v, rest)

def char (c : Char) : Parse Unit := fun s =>
  match s with
  | d :: rest => if d == c then some ((), rest) else none
  | [] => none

def ipv4 : Parse (List Nat) := fun s => do
  let octet := number 10 255 (some 3) false
  let (a, s) ← octet s
  let ((), s) ← char '.' s
  let (b, s) ← octet s
  let ((), s) ← char '.' s
  let (c, s) ← octet s
  let ((), s) ← char '.' s
  let (d, s) ← octet s
  pure ([a, b, c, d], s)

/-- Up to `limit` colon-separated groups; an IPv4 address may stand for the
last two when two are left.  The result is the groups and whether such an
address ended them. -/
def groups (limit : Nat) (i : Nat) (s : List Char) : List Nat × Bool × List Char :=
  match limit with
  | 0 => ([], false, s)
  | limit + 1 =>
    let sep : Option (List Char) := if i == 0 then some s else (char ':' s).map (·.2)
    let embedded : Option (List Nat × List Char) :=
      if limit ≥ 1 then sep.bind ipv4 else none
    match embedded with
    | some ([a, b, c, d], rest) => ([a * 256 + b, c * 256 + d], true, rest)
    | _ =>
      match sep.bind (number 16 0xffff (some 4) true) with
      | none => ([], false, s)
      | some (g, rest) =>
        let (more, endsV4, rest) := groups limit (i + 1) rest
        (g :: more, endsV4, rest)

def ipv6 : Parse (List Nat) := fun s =>
  let (head, headV4, s) := groups 8 0 s
  if head.length == 8 then some (head, s)
  else if headV4 then none
  else do
    let ((), s) ← char ':' s
    let ((), s) ← char ':' s
    let (tail, _, s) := groups (8 - (head.length + 1)) 0 s
    pure (head ++ List.replicate (8 - head.length - tail.length) 0 ++ tail, s)

def port : Parse Nat := fun s => do
  let ((), s) ← char ':' s
  number 10 0xffff none true s

def v4Addr : Parse SocketAddr := fun s => do
  let (ip, s) ← ipv4 s
  let (p, s) ← port s
  pure (.v4 ip p, s)

def v6Addr : Parse SocketAddr := fun s => do
  let ((), s) ← char '[' s
  let (ip, s) ← ipv6 s
  let (scope, s) := match char '%' s with
    | some ((), t) => match number 10 0xffffffff none true t with
      | some (z, u) => (z, u)
      | none => (0, s)
    | none => (0, s)
  let ((), s) ← char ']' s
  let (p, s) ← port s
  pure (.v6 ip scope p, s)

/-- The address a whole text spells, if any. -/
def parse? (t : String) : Option SocketAddr :=
  let s := t.toList
  match v4Addr s with
  | some (a, []) => some a
  | some _ => none
  | none =>
    match v6Addr s with
    | some (a, []) => some a
    | _ => none

def hexGroup (g : Nat) : String := String.ofList (Nat.toDigits 16 g)

/-- Groups joined by colons. -/
def joinGroups (gs : List Nat) : String := ":".intercalate (gs.map hexGroup)

/-- The first longest run of zero groups: its start and length. -/
def zeroRun (gs : List Nat) : Nat × Nat :=
  let step (acc : (Nat × Nat) × (Nat × Nat)) (ig : Nat × Nat) :=
    let ((best, cur)) := acc
    let (i, g) := ig
    if g == 0 then
      let cur := if cur.2 == 0 then (i, 1) else (cur.1, cur.2 + 1)
      (if cur.2 > best.2 then cur else best, cur)
    else (best, (0, 0))
  (gs.zipIdx.foldl (fun acc (g, i) => step acc (i, g)) ((0, 0), (0, 0))).1

/-- The canonical text of an IPv6 address. -/
def ipv6Text (gs : List Nat) : String :=
  match gs with
  | [0, 0, 0, 0, 0, 0xffff, ab, cd] =>
    s!"::ffff:{ab / 256}.{ab % 256}.{cd / 256}.{cd % 256}"
  | _ =>
    let (start, len) := zeroRun gs
    if len > 1 then joinGroups (gs.take start) ++ "::" ++ joinGroups (gs.drop (start + len))
    else joinGroups gs

def toText : SocketAddr → String
  | .v4 os p => ".".intercalate (os.map toString) ++ s!":{p}"
  | .v6 gs scope p =>
    if scope == 0 then "[" ++ ipv6Text gs ++ s!"]:{p}"
    else "[" ++ ipv6Text gs ++ s!"%{scope}]:{p}"

end SocketAddr
end Net
end PowChain
