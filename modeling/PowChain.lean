import PowChain.Account.Address
import PowChain.Account.KeyPair
import PowChain.Block.Basic
import PowChain.Block.Validation
import PowChain.Bytes.Base58
import PowChain.Bytes.Basic
import PowChain.Bytes.Hex
import PowChain.Chain.Basic
import PowChain.Chain.Cache
import PowChain.Chain.Mine
import PowChain.Cli.Grammar
import PowChain.Cli.Keygen
import PowChain.Cli.Node
import PowChain.Cli.Parse
import PowChain.Codec.Canonical
import PowChain.Codec.Merkle
import PowChain.Codec.Wire
import PowChain.Curve.Ecdsa
import PowChain.Curve.Secp256k1
import PowChain.Decimal.Shortest
import PowChain.Devnet.Components
import PowChain.Devnet.Files
import PowChain.Devnet.Loopback
import PowChain.Devnet.Messages
import PowChain.Devnet.Network
import PowChain.Devnet.Session
import PowChain.Devnet.Spec
import PowChain.Devnet.View
import PowChain.Error
import PowChain.Genesis.Basic
import PowChain.Genesis.Json
import PowChain.Hash.Digest
import PowChain.Hash.Hmac
import PowChain.Hash.Ripemd160
import PowChain.Hash.Sha256
import PowChain.Host.FileSystem
import PowChain.Host.Machine
import PowChain.Host.Socket
import PowChain.Json.Reader
import PowChain.Json.Typed
import PowChain.Json.Write
import PowChain.Ledger.Account
import PowChain.Ledger.Engine
import PowChain.Ledger.Transfer
import PowChain.Main
import PowChain.Mining.Search
import PowChain.Mining.Target
import PowChain.Net.Message
import PowChain.Net.Peers
import PowChain.Net.SocketAddr
import PowChain.Node.Config
import PowChain.Node.Daemon
import PowChain.Node.View
import PowChain.PageFile.Build
import PowChain.PageFile.Image
import PowChain.PageFile.Journal
import PowChain.PageFile.Page
import PowChain.PageFile.Record
import PowChain.PageFile.Schema
import PowChain.PageFile.Wal
import PowChain.Pool.Basic
import PowChain.Proofs.Account.AddressForms
import PowChain.Proofs.Account.AddressText
import PowChain.Proofs.Bytes.Lists
import PowChain.Proofs.Chain.Accounting
import PowChain.Proofs.Chain.Append
import PowChain.Proofs.Chain.Consensus
import PowChain.Proofs.Chain.Ledger
import PowChain.Proofs.Chain.Mining
import PowChain.Proofs.Chain.Production
import PowChain.Proofs.Chain.Run
import PowChain.Proofs.Chain.Walk
import PowChain.Proofs.Chain.WellFormed
import PowChain.Proofs.Codec.Consumes
import PowChain.Proofs.Codec.MerkleBinding
import PowChain.Proofs.Codec.Preimage
import PowChain.Proofs.Codec.RoundTrip
import PowChain.Proofs.Genesis.Stored
import PowChain.Proofs.Json.Scan
import PowChain.Proofs.Ledger.Accounts
import PowChain.Proofs.Ledger.Application
import PowChain.Proofs.Ledger.Determinism
import PowChain.Proofs.Ledger.Placement
import PowChain.Proofs.Ledger.Steps
import PowChain.Proofs.Ledger.Transitions
import PowChain.Proofs.Net.Frame
import PowChain.Proofs.Mining.Search
import PowChain.Proofs.Mining.Target
import PowChain.Proofs.Pool.Invariant
import PowChain.Proofs.Pool.Replay
import PowChain.Proofs.Store.Contract
import PowChain.Proofs.Store.Map
import PowChain.Proofs.Text.Utf8
import PowChain.Rpc.Call
import PowChain.Rpc.Handler
import PowChain.Sql.Catalog
import PowChain.Sql.Eval
import PowChain.Sql.Exec
import PowChain.Sql.Functions
import PowChain.Sql.Lexer
import PowChain.Sql.Parser
import PowChain.Sql.Syntax
import PowChain.Sql.Value
import PowChain.Store.Basic
import PowChain.Store.File
import PowChain.Store.Map
import PowChain.Store.Statements
import PowChain.Sync.Engine
import PowChain.Sync.Settings
import PowChain.Text.Duration
import PowChain.Text.Escape
import PowChain.Text.Number
import PowChain.Text.Space
import PowChain.Text.Unicode
import PowChain.Text.Utf8
import PowChain.Toml.Basic
import PowChain.Toml.Decode
import PowChain.Toml.Document
import PowChain.Toml.Parse
import PowChain.Toml.Tree
import PowChain.Tx.Basic
import PowChain.Tx.Json
import PowChain.Tx.Validation
import PowChain.Tx.Wire
import PowChain.Proofs.Chain.Panics
import PowChain.Proofs.Chain.Trail
import PowChain.Proofs.Ledger.CheckFirst
import PowChain.Proofs.Store.View
import PowChain.Proofs.Chain.Check
import PowChain.Proofs.Net.Membership
import PowChain.Proofs.Sync.CatchUp
import PowChain.Proofs.Sync.Panics
