import PowChain.Chain.Basic
import PowChain.Pool.Basic
import PowChain.Json.Write

/-!
# Views of ledger records

A development console shows records as JSON documents: bytes and digests as
lowercase hex, addresses as their text, integers as JSON integers.  A failed
computation shows as an object naming the cause (`error`) and its sentence
(`message`); a computation with nothing to show as `{"ok": true}`.
-/

namespace PowChain
namespace View

open Json

def hex (b : ByteArray) : Doc := .str (Hex.encode b)

def digest (d : Digest) : Doc := hex d.bytes

def address (a : Address) : Doc := .str a.encode

def nat (n : Nat) : Doc := .num (toString n)

def int (n : Int) : Doc := .num (toString n)

def word (n : UInt64) : Doc := nat n.toNat

def list {α : Type} (f : α → Doc) (l : List α) : Doc := .arr (l.map f)

/-- A failure: its cause and its sentence. -/
def error (e : LedgerError) : Doc := .obj [("error", .str e.kind), ("message", .str e.message)]

/-- A view of a result, or of its failure. -/
def result {α : Type} (f : α → Doc) : Result α → Doc
  | .ok a => f a
  | .error e => error e

/-- A computation with nothing to show. -/
def done : Doc := .obj [("ok", .bool true)]

def unit (r : Result Unit) : Doc := result (fun () => done) r

def tx (s : SignedTx) : Doc :=
  let t := s.tx
  .obj [("hash", digest s.hash), ("from", address t.sender), ("to", address t.recipient),
    ("nonce", word t.nonce), ("value", word t.value), ("fee", word t.fee),
    ("fee_price", word t.feePrice), ("data", hex t.data), ("time", int t.time.toInt),
    ("signature", hex s.signature)]

def header (h : Header) : Doc :=
  .obj [("parent_hash", digest h.parentHash), ("hash", digest h.hash), ("number", word h.number),
    ("timestamp", int h.timestamp.toInt), ("state_root", digest h.stateRoot),
    ("tx_root", digest h.txRoot), ("receipt_root", digest h.receiptRoot),
    ("nether_used", word h.netherUsed), ("coinbase", address h.coinbase), ("nonce", word h.nonce)]

def block (b : Block) : Doc :=
  .obj [("header", header b.header), ("txs", list (fun s => digest s.hash) b.transactions)]

def receipt (r : Receipt) : Doc :=
  .obj [("address", address r.address), ("post_balance", word r.postBalance),
    ("tx_hash", digest r.txHash), ("block_hash", digest r.blockHash),
    ("block_number", word r.blockNumber), ("tx_index", nat r.txIndex.toNat),
    ("nether_used", word r.netherUsed), ("body_hash", digest r.bodyHash)]

def account (a : Account) : Doc := .obj [("balance", word a.balance), ("nonce", word a.nonce)]

/-- Accounts as `[address, balance, nonce]` triples. -/
def accounts (l : List (Address × Account)) : Doc :=
  list (fun (a, acct) => .arr [address a, word acct.balance, word acct.nonce]) l

/-- The tip of a chain with its height, the next number and its status. -/
def tip (c : Chain) : Doc :=
  .obj [("hash", digest c.tip.hash), ("length", word c.tip.length),
    ("best_height", word c.bestHeight), ("next_number", word c.tip.nextNumber),
    ("status", match c.status with
      | .bootstrapped => .str "bootstrapped"
      | .extended n => .obj [("extended", word n)])]

def appendOutcome : AppendOutcome → Doc
  | .alreadyKnown => .str "already_known"
  | .extended h n rs =>
    .obj [("extended", .obj [("hash", digest h), ("length", word n), ("receipts", list receipt rs)])]

def application (a : Application) : Doc :=
  .obj [("receipts", list receipt a.receipts), ("nether_used", word a.netherUsed),
    ("state_root", digest a.stateRoot), ("receipt_root", digest a.receiptRoot)]

def reconcileReport (r : ReconcileReport) : Doc :=
  .obj [("removed", nat r.removed), ("missing", nat r.missing), ("evicted", nat r.evicted)]

/-- A genesis record with its accounts, document and block 0. -/
def genesis (g : Genesis) : Result Doc := do
  let accts ← g.accounts
  pure (.obj [("chain_id", word g.chainId), ("genesis_time", int g.genesisTime.toInt),
    ("difficulty", nat g.difficulty.toNat), ("gas_limit", word g.gasLimit),
    ("coinbase", .str g.coinbase), ("symbol", .str g.symbol), ("parent_hash", .str g.parentHash),
    ("extra_data", .str g.extraData), ("accounts", accounts accts), ("json", .str g.toJson),
    ("block", result (fun b => header b.header) g.toBlock)])

end View
end PowChain
