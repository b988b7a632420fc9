import PowChain.Mining.Target
import PowChain.Block.Basic

/-!
# Mining

Mining tries nonces 0, 1, 2, … and stops at the first whose header hash meets
the difficulty.  Each attempt hashes the header's seal prefix followed by the
nonce's little-endian word.

A search can be stopped from outside.  Before each attempt it looks whether it
has been told to stop (its token was cancelled, or another worker found a
seal) and fails with `miningCancelled`; once every 1024 attempts it looks at
its deadline and fails with `miningTimedOut` when that has passed.  A search
that would step past the last 64-bit nonce fails with `Nonce space
exhausted`.  Its count of attempts is a 64-bit word as well, counted up before
the next nonce is formed: a search through every nonce from zero overflows
that count first.

Parallel mining splits the nonces among `n` workers by residue: worker `j`
tries `j`, `j + n`, `j + 2n`, … .  What a worker sees of the others and of the
clock is a parameter (`Watch`), so every schedule of the workers is covered.
-/

namespace PowChain
namespace Mining

/-- A nonce and the hash it gives. -/
structure Seal where
  nonce : UInt64
  hash : Digest

/-- What can stop a run from outside, fixed for the whole run. -/
structure Stop where
  cancelled : Bool := false
  deadlinePassed : Bool := false

/-- What one search sees of the world at each of its attempts, counted from
zero: whether it has been told to stop, and whether its deadline has passed. -/
structure Watch where
  stopped : Nat → Bool
  late : Nat → Bool

/-- A world that never stops a search: no cancellation and no deadline. -/
def Watch.calm : Watch := ⟨fun _ => false, fun _ => false⟩

/-- A stop fixed for the whole run, as every attempt sees it. -/
def Stop.watch (stop : Stop) : Watch := ⟨fun _ => stop.cancelled, fun _ => stop.deadlinePassed⟩

/-- The number of nonces: every 64-bit word. -/
def nonceSpace : Nat := 18446744073709551616

/-- The deadline is looked at once in this many attempts. -/
def deadlineInterval : Nat := 1024

/-- Tries `nonce`, `nonce + stride`, … each appended to the seal prefix,
starting at attempt number `attempts`. -/
def search (pre : ByteArray) (bits stride : Nat) (w : Watch) (nonce attempts : Nat) : Result Seal :=
  if w.stopped attempts then .error .miningCancelled
  else if attempts % deadlineInterval == 0 && w.late attempts then .error .miningTimedOut
  else
    let d := sha256 (pre ++ Bytes.ofNatLE nonce 8)
    if Target.meets d bits then .ok ⟨nonce.toUInt64, d⟩
    else if nonceSpace ≤ attempts + 1 then .error (.arithmeticOverflow "add")
    else if nonceSpace ≤ nonce + stride then .error (.invalidBlock "Nonce space exhausted")
    else search pre bits stride w (nonce + stride) (attempts + 1)
termination_by nonceSpace - attempts

/-- Mining on the calling thread: nonces from zero, one at a time. -/
def mine (h : Header) (bits : Nat) (w : Watch) : Result Seal :=
  search h.sealPrefix bits 1 w 0 0

/-- How the workers' answers combine, in worker order: the first seal; else
the first failure that is neither a stop nor a timeout; else a timeout if some
worker timed out, and cancellation otherwise. -/
def collect : List (Result Seal) → Bool → Result Seal
  | [], timedOut => .error (if timedOut then .miningTimedOut else .miningCancelled)
  | .ok s :: _, _ => .ok s
  | .error .miningTimedOut :: rest, _ => collect rest true
  | .error .miningCancelled :: rest, timedOut => collect rest timedOut
  | .error e :: _, _ => .error e

/-- Mining on `threads` workers, worker `j` seeing the world as `watch j`;
with at most one worker, mining on the calling thread. -/
def mineParallel (h : Header) (bits : Nat) (threads : UInt64) (watch : Nat → Watch) : Result Seal :=
  if threads ≤ 1 then mine h bits (watch 0)
  else
    collect ((List.range threads.toNat).map fun j =>
      search h.sealPrefix bits threads.toNat (watch j) j 0) false

/-- The first nonce, from zero, that seals the header at difficulty `bits`,
under a stop fixed for the whole run. -/
def sealHeader (h : Header) (bits : Nat) (stop : Stop := {}) : Result Seal :=
  mine h bits stop.watch

/-- The block mined on `threads` workers, with the seal's nonce and hash in
its header. -/
def mineBlockWith (b : Block) (bits : Nat) (threads : UInt64) (watch : Nat → Watch) : Result Block := do
  let s ← mineParallel b.header bits threads watch
  pure { b with header := { b.header with nonce := s.nonce, hash := s.hash } }

/-- The block mined on the calling thread under a stop fixed for the whole
run. -/
def mineBlock (b : Block) (bits : Nat) (stop : Stop := {}) : Result Block :=
  mineBlockWith b bits 1 fun _ => stop.watch

/-- Whether the header's recomputed hash meets difficulty `bits`. -/
def validate (h : Header) (bits : Nat) : Bool := Target.meets h.computeHash bits

end Mining
end PowChain
