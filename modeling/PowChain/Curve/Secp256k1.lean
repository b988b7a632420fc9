import PowChain.Bytes.Basic

/-!
# The curve secp256k1

Points of `y² = x³ + 7` over the prime field of `p = 2²⁵⁶ − 2³² − 977`, with
the standard base point `G` of prime order `n`.  Arithmetic is on natural
numbers reduced modulo `p`.  Sums and doublings are computed in Jacobian
coordinates `(X, Y, Z)`, standing for `(X / Z², Y / Z³)`, so that a scalar
multiple needs a single inversion at the end.
-/

namespace PowChain
namespace Secp256k1

/-- The field prime. -/
def p : Nat := 0xFFFFFFFFFFFFFFFFFFFFFFFFFFFFFFFFFFFFFFFFFFFFFFFFFFFFFFFEFFFFFC2F

/-- The order of the base point. -/
def n : Nat := 0xFFFFFFFFFFFFFFFFFFFFFFFFFFFFFFFEBAAEDCE6AF48A03BBFD25E8CD0364141

/-- `b ^ e mod m`, by squaring. -/
def powMod (b e m : Nat) : Nat :=
  if e = 0 then 1 % m
  else
    let h := powMod (b * b % m) (e / 2) m
    if e % 2 = 1 then h * b % m else h
termination_by e
decreasing_by omega

/-- The inverse modulo a prime `m`, by Fermat's little theorem; zero for zero. -/
def invMod (a m : Nat) : Nat := powMod (a % m) (m - 2) m

/-- Subtraction modulo `p`. -/
@[inline] def fsub (a b : Nat) : Nat := (a + p - b % p) % p

/-- A point in affine coordinates, or the point at infinity. -/
inductive Point where
  | infinity
  | affine (x y : Nat)
  deriving DecidableEq, Repr, Inhabited

/-- The base point. -/
def G : Point :=
  .affine 0x79BE667EF9DCBBAC55A06295CE870B07029BFCDB2DCE28D959F2815B16F81798
    0x483ADA7726A3C4655DA4FBFC0E1108A8FD17B448A68554199C47D08FFB10D4B8

/-- A point in Jacobian coordinates; `z = 0` is the point at infinity. -/
structure Jacobian where
  x : Nat
  y : Nat
  z : Nat
  deriving Inhabited

namespace Jacobian

def infinity : Jacobian := ⟨1, 1, 0⟩

def ofPoint : Point → Jacobian
  | .infinity => infinity
  | .affine x y => ⟨x, y, 1⟩

/-- The doubling `2P`. -/
def double (q : Jacobian) : Jacobian :=
  if q.z = 0 ∨ q.y = 0 then infinity
  else
    let a := q.x * q.x % p
    let b := q.y * q.y % p
    let c := b * b % p
    let d := 2 * fsub (fsub ((q.x + b) * (q.x + b) % p) a) c % p
    let e := 3 * a % p
    let f := e * e % p
    let x3 := fsub f (2 * d)
    let y3 := fsub (e * fsub d x3 % p) (8 * c)
    let z3 := 2 * q.y * q.z % p
    ⟨x3, y3, z3⟩

/-- The sum `P + Q`. -/
def add (a b : Jacobian) : Jacobian :=
  if a.z = 0 then b
  else if b.z = 0 then a
  else
    let z1z1 := a.z * a.z % p
    let z2z2 := b.z * b.z % p
    let u1 := a.x * z2z2 % p
    let u2 := b.x * z1z1 % p
    let s1 := a.y * b.z % p * z2z2 % p
    let s2 := b.y * a.z % p * z1z1 % p
    if u1 = u2 then (if s1 = s2 then double a else infinity)
    else
      let h := fsub u2 u1
      let r := fsub s2 s1
      let hh := h * h % p
      let hhh := h * hh % p
      let v := u1 * hh % p
      let x3 := fsub (fsub (r * r % p) hhh) (2 * v)
      let y3 := fsub (r * fsub v x3 % p) (s1 * hhh)
      let z3 := h * a.z % p * b.z % p
      ⟨x3, y3, z3⟩

/-- Back to affine coordinates. -/
def toPoint (q : Jacobian) : Point :=
  if q.z % p = 0 then .infinity
  else
    let zi := invMod q.z p
    let zi2 := zi * zi % p
    .affine (q.x * zi2 % p) (q.y * zi2 % p * zi % p)

end Jacobian

/-- `k · P`, by doubling and adding over the 256 bits of `k`, most significant
first. -/
def mul (k : Nat) (pt : Point) : Point :=
  let base := Jacobian.ofPoint pt
  let acc := (List.range 256).foldr (fun i acc =>
    let d := acc.double
    if k.testBit i then d.add base else d) Jacobian.infinity
  acc.toPoint

/-- `P + Q` in affine coordinates. -/
def addPoints (a b : Point) : Point :=
  ((Jacobian.ofPoint a).add (Jacobian.ofPoint b)).toPoint

/-- The point with abscissa `x` whose ordinate has parity `odd`, if `x³ + 7`
is a square modulo `p`.  The square root is `c ^ ((p + 1) / 4)`, since
`p ≡ 3 (mod 4)`. -/
def liftX (x : Nat) (odd : Bool) : Option Point :=
  let c := (x * x % p * x + 7) % p
  let y := powMod c ((p + 1) / 4) p
  if y * y % p != c then none
  else
    let y' := if (y % 2 == 1) == odd then y else (p - y) % p
    some (.affine x y')

/-- The 33-byte compressed form: `2` or `3` for the parity of `y`, then `x`
big-endian. -/
def Point.compressed : Point → ByteArray
  | .infinity => Bytes.replicate 33 0
  | .affine x y => (ByteArray.empty.push (if y % 2 = 1 then 3 else 2)) ++ Bytes.ofNatBE x 32

end Secp256k1
end PowChain
