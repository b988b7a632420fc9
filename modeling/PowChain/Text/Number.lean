/-!
# Reading integers

An integer is written in decimal, with a sign: `+` for any type, `-` only
for signed ones.  Reading fails on an empty text, on a sign alone or a
character that is not a digit, and on a value outside the type, which is too
large or too small.
-/

namespace PowChain
namespace Text

/-- Why a text is not an integer of a type. -/
inductive IntFault where
  | empty
  | invalidDigit
  | posOverflow
  | negOverflow
  deriving DecidableEq, Repr

namespace IntFault

/-- The kind's name in a debugging printout. -/
def name : IntFault → String
  | .empty => "Empty"
  | .invalidDigit => "InvalidDigit"
  | .posOverflow => "PosOverflow"
  | .negOverflow => "NegOverflow"

def message : IntFault → String
  | .empty => "cannot parse integer from empty string"
  | .invalidDigit => "invalid digit found in string"
  | .posOverflow => "number too large to fit in target type"
  | .negOverflow => "number too small to fit in target type"

/-- The debugging printout of the fault. -/
def debug (f : IntFault) : String := "ParseIntError \x7b kind: " ++ f.name ++ " \x7d"

end IntFault

/-- The value of a run of decimal digits, read from the left: it fails at
the first non-digit, or (with `overflow`) at the first digit that takes it past
`limit`, whichever comes first. -/
def digitsUpTo (limit : Nat) (overflow : IntFault) : List Char → Nat → Except IntFault Nat
  | [], acc => .ok acc
  | c :: rest, acc =>
    if !c.isDigit then .error .invalidDigit
    else
      let acc := acc * 10 + (c.toNat - 48)
      if acc > limit then .error overflow else digitsUpTo limit overflow rest acc

/-- Reads an unsigned integer of at most `max`. -/
def parseUnsigned (max : Nat) (t : String) : Except IntFault Nat :=
  match t.toList with
  | [] => .error .empty
  | ['+'] | ['-'] => .error .invalidDigit
  | '+' :: rest => digitsUpTo max .posOverflow rest 0
  | cs => digitsUpTo max .posOverflow cs 0

/-- Reads a signed integer between `-(max + 1)` and `max`. -/
def parseSigned (max : Nat) (t : String) : Except IntFault Int :=
  match t.toList with
  | [] => .error .empty
  | ['+'] | ['-'] => .error .invalidDigit
  | '-' :: rest => do pure (-(← digitsUpTo (max + 1) .negOverflow rest 0 : Int))
  | '+' :: rest => do pure (← digitsUpTo max .posOverflow rest 0 : Int)
  | cs => do pure (← digitsUpTo max .posOverflow cs 0 : Int)

end Text
end PowChain
