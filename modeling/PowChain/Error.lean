import PowChain.Text.Escape

/-!
# Ledger errors

Every failure the ledger reports is a `LedgerError`.  Each constructor is one
cause; `LedgerError.message` gives the sentence shown to a user, `kind` the
name of the cause, and `debug` the structured form that the command-line
programs print.  Three classes group the causes: lookups that found nothing,
rejections of caller-supplied data, and interrupted mining.

An arithmetic overflow on 64-bit account fields is a fault of its own
(`arithmeticOverflow`); it stops the operation the way a failed assertion does.
So does a configured duration too long to normalise (`durationOverflow`).
-/

namespace PowChain

/-- The causes of failure. -/
inductive LedgerError where
  | invalidSignature
  | forgedTransaction
  | insufficientBalance (available required : Nat)
  | invalidNonce (expected got : Nat)
  | invalidParent
  | invalidNumber (expected got : Nat)
  | invalidHash
  | emptyBlock
  | invalidReward
  | invalidProofOfWork
  | invalidBlock (detail : String)
  | invalidTransaction (detail : String)
  | invalidAddress (detail : String)
  | blockNotFound (what : String)
  | genesisNotFound
  | transactionNotFound (what : String)
  | receiptNotFound (what : String)
  | alreadyInitialized
  | notInitialized
  | database (detail : String)
  | storeLocked (detail : String)
  | io (detail : String)
  | serialization (detail : String)
  | network (detail : String)
  | protocol (detail : String)
  | miningCancelled
  | miningTimedOut
  | crypto (detail : String)
  | config (detail : String)
  /-- A 64-bit quantity left its range; `op` names the operation (`add`, `multiply`). -/
  | arithmeticOverflow (op : String)
  /-- Normalising a duration carried its seconds past the 64-bit range. -/
  | durationOverflow
  deriving DecidableEq, Repr, Inhabited

namespace LedgerError

/-- The sentence shown to a user. -/
def message : LedgerError → String
  | invalidSignature => "Invalid signature"
  | forgedTransaction => "Forged transaction: signature does not match sender"
  | insufficientBalance a r => s!"Insufficient balance: have {a}, need {r}"
  | invalidNonce e g => s!"Invalid nonce: expected {e}, got {g}"
  | invalidParent => "Invalid parent hash"
  | invalidNumber e g => s!"Invalid block number: expected {e}, got {g}"
  | invalidHash => "Invalid block hash"
  | emptyBlock => "Block contains no transactions"
  | invalidReward => "Transaction is not a reward transaction"
  | invalidProofOfWork => "Invalid proof of work"
  | invalidBlock d => "Invalid block: " ++ d
  | invalidTransaction d => "Invalid transaction: " ++ d
  | invalidAddress d => "Invalid address: " ++ d
  | blockNotFound w => "Block not found: " ++ w
  | genesisNotFound => "Genesis record not found"
  | transactionNotFound w => "Transaction not found: " ++ w
  | receiptNotFound w => "Receipt not found: " ++ w
  | alreadyInitialized => "Chain is already initialized"
  | notInitialized => "Chain is not initialized"
  | database d => "Database error: " ++ d
  | storeLocked d => "Store is locked by another process: " ++ d
  | io d => "IO error: " ++ d
  | serialization d => "Serialization error: " ++ d
  | network d => "Network error: " ++ d
  | protocol d => "Protocol error: " ++ d
  | miningCancelled => "Mining cancelled"
  | miningTimedOut => "Mining deadline exceeded"
  | crypto d => "Cryptographic error: " ++ d
  | config d => "Configuration error: " ++ d
  | arithmeticOverflow op => "attempt to " ++ op ++ " with overflow"
  | durationOverflow => "overflow in Duration::new"

/-- The name of the cause. -/
def kind : LedgerError → String
  | invalidSignature => "InvalidSignature"
  | forgedTransaction => "ForgedTransaction"
  | insufficientBalance .. => "InsufficientBalance"
  | invalidNonce .. => "InvalidNonce"
  | invalidParent => "InvalidParent"
  | invalidNumber .. => "InvalidNumber"
  | invalidHash => "InvalidHash"
  | emptyBlock => "EmptyBlock"
  | invalidReward => "InvalidReward"
  | invalidProofOfWork => "InvalidProofOfWork"
  | invalidBlock _ => "InvalidBlock"
  | invalidTransaction _ => "InvalidTransaction"
  | invalidAddress _ => "InvalidAddress"
  | blockNotFound _ => "BlockNotFound"
  | genesisNotFound => "GenesisNotFound"
  | transactionNotFound _ => "TransactionNotFound"
  | receiptNotFound _ => "ReceiptNotFound"
  | alreadyInitialized => "AlreadyInitialized"
  | notInitialized => "NotInitialized"
  | database _ => "DatabaseError"
  | storeLocked _ => "StoreLocked"
  | io _ => "IoError"
  | serialization _ => "SerializationError"
  | network _ => "NetworkError"
  | protocol _ => "ProtocolError"
  | miningCancelled => "MiningCancelled"
  | miningTimedOut => "MiningTimedOut"
  | crypto _ => "CryptoError"
  | config _ => "ConfigError"
  | arithmeticOverflow _ => "Panic"
  | durationOverflow => "Panic"

/-- The structured form: the cause's name, then its fields (text quoted and
escaped, named numbers in braces). -/
def debug (e : LedgerError) : String :=
  let one (d : String) := e.kind ++ "(" ++ Text.quoteString d ++ ")"
  match e with
  | insufficientBalance a r => s!"InsufficientBalance \x7b available: {a}, required: {r} \x7d"
  | invalidNonce x g => s!"InvalidNonce \x7b expected: {x}, got: {g} \x7d"
  | invalidNumber x g => s!"InvalidNumber \x7b expected: {x}, got: {g} \x7d"
  | invalidBlock d | invalidTransaction d | invalidAddress d | blockNotFound d
  | transactionNotFound d | receiptNotFound d | database d | storeLocked d | io d
  | serialization d | network d | protocol d | crypto d | config d => one d
  | arithmeticOverflow op => one ("attempt to " ++ op ++ " with overflow")
  | durationOverflow => one "overflow in Duration::new"
  | _ => e.kind

/-- Lookups that found nothing, as opposed to storage failures. -/
def isNotFound : LedgerError → Bool
  | blockNotFound _ | genesisNotFound | transactionNotFound _ | receiptNotFound _ => true
  | _ => false

/-- Rejections of caller-supplied data, which a retry without change cannot fix. -/
def isValidation : LedgerError → Bool
  | invalidSignature | forgedTransaction | insufficientBalance .. | invalidNonce ..
  | invalidParent | invalidNumber .. | invalidHash | emptyBlock | invalidReward
  | invalidProofOfWork | invalidBlock _ | invalidTransaction _ | invalidAddress _ => true
  | _ => false

/-- Faults that stop the program where they happen: no caller answers them,
and whatever was changed before them stays changed. -/
def isPanic : LedgerError → Bool
  | arithmeticOverflow _ | durationOverflow => true
  | _ => false

/-- A mining run that was stopped rather than one that failed. -/
def isMiningInterrupted : LedgerError → Bool
  | miningCancelled | miningTimedOut => true
  | _ => false

end LedgerError

/-- A computation of the ledger that may fail with a `LedgerError`. -/
abbrev Result (α : Type) := Except LedgerError α

/-- Runs `x`, answering its failures with `h`; a panic is passed on
unanswered. -/
def tryRecover {m : Type → Type} {α : Type} [MonadExcept LedgerError m] (x : m α)
    (h : LedgerError → m α) : m α :=
  tryCatch x fun e => if e.isPanic then throw e else h e

/-- The outcome of `x` as a value, a panic apart, which is passed on. -/
def attemptResult {m : Type → Type} {α : Type} [Monad m] [MonadExcept LedgerError m] (x : m α) :
    m (Result α) :=
  tryRecover (do pure (Except.ok (← x))) fun e => pure (.error e)

end PowChain
