import PowChain.Sql.Value

/-!
# Sums

`sum`, `total` and `avg` add their arguments exactly while every one is an
integer and the running sum fits in 64 bits.  From the first argument that
is not an integer on, they add doubles with the compensated summation of
Kahan, Babuška and Neumaier: a running sum and a running error term, the
error being added back at the end unless it overflowed.  An integer of
magnitude `2^52` or more is added in two parts, its multiple of `16384`
and the rest, so that no bits are lost on the way.

* `sum` of no values is null; an integer sum that overflowed stays an
  error (`integer overflow`) unless a later double came along.
* `total` of no values is `0.0`, and always a double.
* `avg` is the sum as a double divided by the count.

A text that is wholly an integer counts as one; any other text or blob
adds the double at its start.
-/

namespace PowChain
namespace Sql
namespace Sum

/-- The running state of a sum. -/
structure State where
  rSum : Float := 0
  rErr : Float := 0
  iSum : Int := 0
  count : Nat := 0
  approx : Bool := false
  overflow : Bool := false

/-- What a value adds to a sum. -/
inductive Term where
  | int (i : Int)
  | real (bits : UInt64)

/-- What a value adds to a sum; nothing for null. -/
def termOf : Value → Option Term
  | .null => none
  | .int i => some (.int i)
  | .real b => some (.real b)
  | .text t e =>
    let t := e.decode t
    match numericText false t with
    | some (.int i) => some (.int i)
    | some (.real b) => some (.real b)
    | _ => some (.real (readReal t).2)
  | .blob b e => some (.real (readReal (e.decode b)).2)

/-- The double nearest to an integer. -/
def floatOfInt (i : Int) : Float := Float.ofBits (realOfInt i)

/-- Adds a double, keeping the lost low part in the error term. -/
def State.addReal (s : State) (r : Float) : State :=
  let t := s.rSum + r
  let err := if s.rSum.abs > r.abs then s.rErr + ((s.rSum - t) + r) else s.rErr + ((r - t) + s.rSum)
  { s with rSum := t, rErr := err }

/-- Whether an integer is too large to be a double without loss. -/
def isWide (i : Int) : Bool := i ≤ -4503599627370496 || i ≥ 4503599627370496

/-- Adds an integer as doubles, a wide one in two parts. -/
def State.addInt (s : State) (i : Int) : State :=
  if isWide i then
    let small := i.tmod 16384
    (s.addReal (floatOfInt (i - small))).addReal (floatOfInt small)
  else s.addReal (floatOfInt i)

/-- Turns the exact integer sum into the start of an approximate one. -/
def State.startApprox (s : State) : State :=
  let i := s.iSum
  if isWide i then
    let small := i.tmod 16384
    { s with rSum := floatOfInt (i - small), rErr := floatOfInt small, approx := true }
  else { s with rSum := floatOfInt i, rErr := 0, approx := true }

/-- Adds one value to a sum. -/
def State.step (s : State) (v : Value) : State :=
  match termOf v with
  | none => s
  | some t =>
    let s := { s with count := s.count + 1 }
    if !s.approx then
      match t with
      | .real b => s.startApprox.addReal (Float.ofBits b)
      | .int i =>
        if fits (s.iSum + i) then { s with iSum := s.iSum + i }
        else ({ s with overflow := true }.startApprox).addInt i
    else
      match t with
      | .int i => s.addInt i
      | .real b => { s with overflow := false }.addReal (Float.ofBits b)

/-- The state after adding values in order. -/
def ofValues (vs : List Value) : State := vs.foldl State.step {}

/-- Whether a double is an infinity or not a number. -/
def isOverflow (f : Float) : Bool := f.isInf || f.isNaN

/-- A double as a result: null when it is not a number. -/
def realResult (f : Float) : Value := if f.isNaN then .null else .real f.toBits

/-- The approximate sum as a double. -/
def State.approxValue (s : State) : Float :=
  if isOverflow s.rErr then s.rSum else s.rSum + s.rErr

/-- `sum(x)`. -/
def sum (vs : List Value) : Except String Value :=
  let s := ofValues vs
  if s.count == 0 then .ok .null
  else if s.approx then
    if s.overflow then .error "integer overflow" else .ok (realResult s.approxValue)
  else .ok (.int s.iSum)

/-- `total(x)`. -/
def total (vs : List Value) : Value :=
  let s := ofValues vs
  realResult (if s.approx then s.approxValue else floatOfInt s.iSum)

/-- `avg(x)`. -/
def avg (vs : List Value) : Value :=
  let s := ofValues vs
  if s.count == 0 then .null
  else
    let r := if s.approx then s.approxValue else floatOfInt s.iSum
    realResult (r / floatOfInt s.count)

end Sum
end Sql
end PowChain
