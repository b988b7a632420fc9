import PowChain.Hash.Digest

/-!
# Merkle roots

The root of a list of digests is computed level by level: each pair of
neighbours is replaced by the SHA-256 of their 64 concatenated bytes, and a
level of odd length first repeats its last digest.  One digest is its own
root; the empty list has the zero digest as root.
-/

namespace PowChain
namespace Merkle

/-- The parent of two neighbours. -/
def join (a b : Digest) : Digest := sha256 (a.bytes ++ b.bytes)

/-- The next level up: neighbours joined in pairs, a lone last digest joined
with itself. -/
def level : List Digest → List Digest
  | a :: b :: rest => join a b :: level rest
  | [a] => [join a a]
  | [] => []

theorem length_level (l : List Digest) : (level l).length = (l.length + 1) / 2 := by
  induction l using level.induct with
  | case1 a b rest ih =>
    rw [level, List.length_cons, ih, List.length_cons, List.length_cons]
    omega
  | case2 a => simp [level]
  | case3 => simp [level]

/-- The root of a list of digests. -/
def root (l : List Digest) : Digest :=
  match l with
  | [] => Digest.zero
  | [a] => a
  | a :: b :: rest => root (level (a :: b :: rest))
termination_by l.length
decreasing_by simp only [length_level, List.length_cons]; omega

end Merkle
end PowChain
