import PowChain.Tx.Wire

/-!
# Checks on a submitted transaction

The checks that need no ledger state, in the order they are made: the wire
size (at most 100000 bytes) and payload size (at most 4096 bytes), that it is
not a reward, that neither party is the zero address, that it does not send
to its own sender, that its nonce is not zero, that its cost fits 64 bits,
and last that the sender signed it.
-/

namespace PowChain
namespace SignedTx

/-- The largest wire size of a transaction. -/
def maxSize : Nat := 100000

/-- The largest payload. -/
def maxData : Nat := 4096

/-- Checks the wire size, then the payload size. -/
def validateSize (s : SignedTx) : Result Unit :=
  let size := s.wireSize
  if size > maxSize then
    .error (.invalidTransaction s!"Transaction too large: {size} bytes (max: {maxSize})")
  else if s.tx.data.size > maxData then
    .error (.invalidTransaction s!"Data payload too large: {s.tx.data.size} bytes (max: {maxData})")
  else .ok ()

/-- Every check a submitted transaction must pass before it meets the ledger. -/
def validate (s : SignedTx) : Result Unit := do
  s.validateSize
  if s.tx.isReward then
    throw (.invalidTransaction "Reward transactions cannot be submitted directly")
  if s.tx.sender.isZero then throw (.invalidTransaction "Sender address cannot be empty")
  if s.tx.recipient.isZero then throw (.invalidTransaction "Recipient address cannot be empty")
  if s.tx.sender == s.tx.recipient then throw (.invalidTransaction "Cannot send to self")
  if s.tx.nonce == 0 then throw (.invalidNonce 1 0)
  let _ ← s.tx.cost
  s.verifyAuthentic

end SignedTx
end PowChain
