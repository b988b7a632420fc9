import PowChain.Tx.Basic
import PowChain.Json.Typed
import PowChain.Json.Write

/-!
# Transactions as JSON

A transaction as a JSON object: `from` and `to` as address texts, the four
amounts, `data` as an array of bytes (a text is accepted too and stands for
its bytes), and `time`.  An address text that does not name an address fails
the read with the address error's message.
-/

namespace PowChain
namespace Transaction

open Json in
/-- An address given as text; a bad text is refused with its error's message. -/
def readAddress : P Address := do
  let s ← readString
  match Address.decode s with
  | .ok a => pure a
  | .error e => throw (custom e.message)

open Json in
def readJson : P Transaction :=
  readStruct "Transaction"
    [⟨"from", false, fun t => do pure { t with sender := ← readAddress }⟩,
     ⟨"to", false, fun t => do pure { t with recipient := ← readAddress }⟩,
     ⟨"nonce", false, fun t => do pure { t with nonce := (← readU64).toUInt64 }⟩,
     ⟨"value", false, fun t => do pure { t with value := (← readU64).toUInt64 }⟩,
     ⟨"fee", false, fun t => do pure { t with fee := (← readU64).toUInt64 }⟩,
     ⟨"fee_price", false, fun t => do pure { t with feePrice := (← readU64).toUInt64 }⟩,
     ⟨"data", false, fun t => do pure { t with data := ← readByteBuf }⟩,
     ⟨"time", false, fun t => do pure { t with time := Int64.ofInt (← readI64) }⟩]
    ⟨Address.zero, Address.zero, 0, 0, 0, 0, ByteArray.empty, 0⟩

/-- A transaction from its JSON text; a fault is a serialization error. -/
def ofJson (text : String) : Result Transaction :=
  (Json.readDocument readJson text).mapError fun e => .serialization e.message

/-- The compact JSON text of a transaction. -/
def toJson (t : Transaction) : String :=
  (Json.Doc.obj [("from", .str t.sender.encode), ("to", .str t.recipient.encode),
    ("nonce", .num (toString t.nonce)), ("value", .num (toString t.value)),
    ("fee", .num (toString t.fee)), ("fee_price", .num (toString t.feePrice)),
    ("data", .arr (t.data.toList.map fun b => .num (toString b.toNat))),
    ("time", .num (toString t.time.toInt))]).compact

end Transaction
end PowChain
