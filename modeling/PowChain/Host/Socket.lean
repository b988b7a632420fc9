import PowChain.Net.SocketAddr

/-!
# Reaching addresses

An address text is a socket address, or a host and a port split at the last
colon.  A port is a decimal number below 65536 (a leading `+` allowed); a
host is a numeric IPv4 address in any of the classic spellings (one to four
parts, each decimal, octal after a `0` or hexadecimal after `0x`, the last
part filling the remaining bytes), a numeric IPv6 address, or `localhost`.
Any other name needs a name server, and the machine has none to reach.

The machine has no network beyond binding: a listener can be bound to any
address that resolves, and every connection fails as unreachable.
-/

namespace PowChain
namespace Host

/-- The value of one part of a classic IPv4 spelling. -/
def classicPart? (t : String) : Option Nat :=
  let cs := t.toList
  let digits (radix : Nat) (ds : List Char) : Option Nat :=
    ds.foldl (fun acc c => do
      let v ← Net.SocketAddr.digitValue radix c
      pure ((← acc) * radix + v)) (some 0)
  match cs with
  | [] => none
  | '0' :: 'x' :: rest | '0' :: 'X' :: rest => if rest.isEmpty then some 0 else digits 16 rest
  | '0' :: rest => digits 8 rest
  | _ => digits 10 cs

/-- Whether a text is a numeric IPv4 address in a classic spelling. -/
def classicIpv4 (t : String) : Bool :=
  match (t.splitOn ".").mapM classicPart? with
  | some [a] => a < Nat.pow 2 32
  | some [a, b] => a < 256 && b < Nat.pow 2 24
  | some [a, b, c] => a < 256 && b < 256 && c < Nat.pow 2 16
  | some [a, b, c, d] => a < 256 && b < 256 && c < 256 && d < 256
  | _ => false

/-- Whether a host name stands for an address on this machine. -/
def hostResolves (host : String) : Bool :=
  host == "localhost" || classicIpv4 host ||
    (Net.SocketAddr.parse? ("[" ++ host ++ "]:0")).isSome

/-- The decimal port a text spells, a leading `+` allowed. -/
def port? (t : String) : Option Nat :=
  let body := if t.startsWith "+" && t.length > 1 then (t.drop 1).toString else t
  let cs := body.toList
  if cs.isEmpty || !cs.all Char.isDigit then none
  else
    let n := cs.foldl (fun acc c => acc * 10 + (c.toNat - 48)) 0
    if n < 65536 then some n else none

/-- Finds the address a text names, or says why it cannot. -/
def lookup (addr : String) : Except String Unit :=
  if (Net.SocketAddr.parse? addr).isSome then .ok ()
  else
    match addr.revFind? ':' with
    | none => .error "invalid socket address"
    | some pos =>
      let host := (addr.sliceTo pos).toString
      let portText := (addr.sliceFrom pos).toString.drop 1
      match port? portText.toString with
      | none => .error "invalid port value"
      | some _ =>
        if hostResolves host then .ok ()
        else .error "failed to lookup address information: Temporary failure in name resolution"

/-- Binds a listener to an address. -/
def bind (addr : String) : Except String Unit := lookup addr

/-- Connects to an address: it fails, as there is no network. -/
def connect (addr : String) : Except String Unit := do
  lookup addr
  throw "Network is unreachable (os error 101)"

end Host
end PowChain
