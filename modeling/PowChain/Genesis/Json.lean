import PowChain.Genesis.Basic
import PowChain.Json.Typed
import PowChain.Json.Write

/-!
# The genesis document

The genesis record as a JSON document: an object with `chain_id`,
`genesis_time`, `difficulty`, `gas_limit`, `coinbase`, `symbol`,
`parent_hash`, `extra_data` and `alloc` (a map from address text to
an object with `balance` and `nonce`).  `gas_limit`, `symbol`, `parent_hash`, `extra_data`,
`alloc` and an account's `nonce` may be left out.  Reading a document also
runs the record's checks.  The written form is pretty-printed, fields in the
order above.
-/

namespace PowChain
namespace Genesis

open Json in
/-- Reads one initial account. -/
def readAccount : P GenesisAccount :=
  readStruct "GenesisAccount"
    [⟨"balance", false, fun a => do pure { a with balance := (← readU64).toUInt64 }⟩,
     ⟨"nonce", true, fun a => do pure { a with nonce := (← readU64).toUInt64 }⟩]
    ⟨0, 0⟩

open Json in
/-- Reads the record's fields. -/
def read : P Genesis :=
  readStruct "Genesis"
    [⟨"chain_id", false, fun g => do pure { g with chainId := (← readU64).toUInt64 }⟩,
     ⟨"genesis_time", false, fun g => do pure { g with genesisTime := Int64.ofInt (← readI64) }⟩,
     ⟨"difficulty", false, fun g => do pure { g with difficulty := (← readU32).toUInt32 }⟩,
     ⟨"gas_limit", true, fun g => do pure { g with gasLimit := (← readU64).toUInt64 }⟩,
     ⟨"coinbase", false, fun g => do pure { g with coinbase := ← readString }⟩,
     ⟨"symbol", true, fun g => do pure { g with symbol := ← readString }⟩,
     ⟨"parent_hash", true, fun g => do pure { g with parentHash := ← readString }⟩,
     ⟨"extra_data", true, fun g => do pure { g with extraData := ← readString }⟩,
     ⟨"alloc", true, fun g => do
        let m ← readMap readAccount
        pure { g with alloc := m.foldl (fun acc (k, v) => insertAlloc k v acc) [] }⟩]
    { chainId := 0, genesisTime := 0, difficulty := 0, coinbase := "" }

/-- A record from its document; faults in the text are serialization errors,
then the record's own checks apply. -/
def ofJson (text : String) : Result Genesis := do
  let g ← (Json.readDocument read text).mapError fun e => .serialization e.message
  g.check
  pure g

/-- A record from stored document bytes, without the record's checks: the
record was checked before it was stored. -/
def ofStored (bytes : ByteArray) : Result Genesis :=
  (Json.readDocumentBytes read bytes).mapError fun e => .serialization e.message

/-- The document of a record. -/
def toDoc (g : Genesis) : Json.Doc :=
  .obj [("chain_id", .num (toString g.chainId)), ("genesis_time", .num (toString g.genesisTime.toInt)),
    ("difficulty", .num (toString g.difficulty)), ("gas_limit", .num (toString g.gasLimit)),
    ("coinbase", .str g.coinbase), ("symbol", .str g.symbol), ("parent_hash", .str g.parentHash),
    ("extra_data", .str g.extraData),
    ("alloc", .obj (g.alloc.map fun (k, v) =>
      (k, .obj [("balance", .num (toString v.balance)), ("nonce", .num (toString v.nonce))])))]

/-- The pretty-printed document. -/
def toJson (g : Genesis) : String := g.toDoc.pretty 0

end Genesis
end PowChain
