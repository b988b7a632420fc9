import PowChain.Proofs.Chain.Run
import PowChain.Proofs.Ledger.Steps
import PowChain.Proofs.Ledger.Application

/-!
# Appending a block is all or nothing

Every write of an append goes through one store transaction, and the tip moves
only after that transaction commits.  So an append that fails, at whichever
check, and an append of a block already known leave the store and the tip as
they were; an append that extends the chain changes the store exactly at the
block record, the tip hash, the chain length, and the records its
transactions write (`append_all_or_nothing`).

The store is taken through its contract (`Store.Faithful`): what holds of the
map a faithful store shows holds of every store in memory, and of a file
store as far as the database commits a batch as a unit.
-/

namespace PowChain

/-! ## The records of a chain -/

namespace Keys

theorem size_tip : tip.size = 2 := by decide

theorem size_chainLength : chainLength.size = 2 := by decide

theorem tip_ne_chainLength : tip ≠ chainLength := by decide

/-- A block record is keyed by thirty-two bytes, so by neither two-byte key. -/
theorem block_ne_tip (d : Digest) : block d.bytes ≠ tip := by
  intro h
  have hsize := congrArg ByteArray.size h
  rw [block, d.size_eq, size_tip] at hsize
  cases hsize

theorem block_ne_chainLength (d : Digest) : block d.bytes ≠ chainLength := by
  intro h
  have hsize := congrArg ByteArray.size h
  rw [block, d.size_eq, size_chainLength] at hsize
  cases hsize

end Keys

namespace Chain

/-! ## The commit of an append -/

/-- The commit applies the block, checks the header against the application,
and writes block, tip and length over the ledger's writes. -/
theorem commitBlock_run (b : Block) (length : UInt64) (t : Txn) :
    (commitBlock b length).run t =
      match (Ledger.applyBlockIn b).run t with
      | .error e => .error e
      | .ok (applied, t₁) =>
        (checkApplied applied b.header).map fun _ =>
          (applied.receipts, ((t₁.set (Keys.block b.hash.bytes) b.toBytes).set Keys.tip
            b.hash.bytes).set Keys.chainLength (Wire.u64 length)) := by
  simp only [commitBlock, TxnM.set, StateT.run_bind, liftM, monadLift, MonadLift.monadLift,
    StateT.run_lift, StateT.run_modify, StateT.run_pure, pure_bind, bind_assoc]
  cases (Ledger.applyBlockIn b).run t with
  | error e => rfl
  | ok p =>
    obtain ⟨applied, t₁⟩ := p
    simp only [bind, Except.bind]
    cases checkApplied applied b.header <;> rfl

/-- The records an extending append leaves in a map `m'` over the map `m` it
started from: the block under its hash, the tip, the length, and every other
record as it was, unless a transaction of the block may write it. -/
structure Commits (b : Block) (length : UInt64) (m m' : KvMap) : Prop where
  block : m'.get? (Keys.block b.hash.bytes) = some b.toBytes
  tip : m'.get? Keys.tip = some b.hash.bytes
  chainLength : m'.get? Keys.chainLength = some (Wire.u64 length)
  frame : ∀ k, k ≠ Keys.block b.hash.bytes → k ≠ Keys.tip → k ≠ Keys.chainLength →
    ¬ Ledger.LedgerKey b.transactions k → m'.get? k = m.get? k

/-- A commit run from an empty batch over a store showing the sorted map `m`
leaves a view that commits the block over `m`. -/
theorem commitBlock_commits {b : Block} {length : UInt64} {s : Store} {m : KvMap}
    {receipts : List Receipt} {t : Txn} (hm : m.Sorted)
    (h : (commitBlock b length).run ⟨s, []⟩ = .ok (receipts, t)) :
    Commits b length m (t.view m) := by
  rw [commitBlock_run] at h
  cases happly : (Ledger.applyBlockIn b).run ⟨s, []⟩ with
  | error e => simp [happly] at h
  | ok p =>
    obtain ⟨applied, t₁⟩ := p
    rw [happly] at h
    cases hcheck : checkApplied applied b.header with
    | error e => simp [hcheck, Except.map] at h
    | ok u =>
      simp only [hcheck, Except.map, Except.ok.injEq, Prod.mk.injEq] at h
      obtain ⟨-, rfl⟩ := h
      -- the ledger's writes keep each key once, so the three writes on top read as inserts
      have hw := Ledger.applyBlockIn_writesWithin happly
      have hnd₀ : Batch.KeysNodup [] := List.nodup_nil
      have hnd₁ := hw.nodup hnd₀
      have hnd₂ := Txn.keysNodup_set hnd₁ (Keys.block b.hash.bytes) b.toBytes
      have hnd₃ := Txn.keysNodup_set hnd₂ Keys.tip b.hash.bytes
      rw [Txn.view_set hm hnd₃, Txn.view_set hm hnd₂, Txn.view_set hm hnd₁]
      refine ⟨?_, ?_, ?_, ?_⟩
      · simp [KvMap.get?_insert, Keys.block_ne_tip, Keys.block_ne_chainLength]
      · simp [KvMap.get?_insert, Keys.tip_ne_chainLength]
      · simp [KvMap.get?_insert]
      · intro k hblock htip hlength hledger
        simp only [KvMap.get?_insert, if_neg hblock, if_neg htip, if_neg hlength]
        rw [hw.view_get? hnd₀ m hledger, Txn.view, KvMap.applyBatch_nil]

/-! ## All or nothing -/

/-- An append that fails or finds its block known leaves the store and the tip
as they were.  One that extends the chain by `b` moves the tip to `b`'s hash
with the length one more, and its store shows the block record, the new tip
and length, and every other record as before unless `b`'s transactions may
write it. -/
theorem append_all_or_nothing (b : Block) (c : Chain) {m : KvMap} (hm : c.store.Faithful m) :
    match (append b).run.run c with
    | (.ok (.extended h length _), c') =>
      h = b.hash ∧ length.toNat = c.tip.length.toNat + 1 ∧ c'.tip = ⟨b.hash, length⟩ ∧
        ∃ m', c'.store.Faithful m' ∧ Commits b length m m'
    | (_, c') => c'.store = c.store ∧ c'.tip = c.tip := by
  generalize happend : (append b).run.run c = p
  obtain ⟨r, c'⟩ := p
  rcases append_cases happend with ⟨e, rfl, hstate⟩ | ⟨rfl, rfl⟩ |
    ⟨c₁, length, receipts, store, -, hcheck, hlen, hupdate, rfl, rfl⟩
  · have hframe := append_error_frame hstate
    exact ⟨hframe.store, hframe.tip⟩
  · exact ⟨rfl, rfl⟩
  · have hframe := checkNext_frame b c
    rw [hcheck] at hframe
    have hm₁ : c₁.store.Faithful m := hframe.store ▸ hm
    obtain ⟨t, hrun, hfaithful⟩ := hm₁.update hupdate
    have hsum := Ledger.addWord_eq_ok hlen
    rw [hframe.tip] at hsum
    exact ⟨rfl, hsum, rfl, t.view m, hfaithful, commitBlock_commits hm.sorted hrun⟩

/-! ## A funded chain and a block mined on it -/

/-- A bootstrap that succeeds committed one update of the store, and the chain
keeps the store it left, at block 0 with a length of one. -/
theorem bootstrap_commits {s : Store} {g : Genesis} {c : Chain} (h : bootstrap s g = .ok c) :
    ∃ (f : TxnM Unit) (store : Store) (block : Block), g.toBlock = .ok block ∧
      s.update f = .ok (⟨⟩, store) ∧ c = { store, genesis := g, tip := ⟨block.hash, 1⟩ } := by
  unfold bootstrap at h
  rw [Except.bind_eq_ok] at h
  obtain ⟨initialized, -, h⟩ := h
  cases initialized with
  | true => cases h
  | false =>
  rw [if_neg Bool.false_ne_true, Except.bind_eq_ok] at h
  obtain ⟨block, hblock, h⟩ := h
  rw [Except.bind_eq_ok] at h
  obtain ⟨accounts, -, h⟩ := h
  rw [Except.bind_eq_ok] at h
  obtain ⟨⟨⟨⟩, store⟩, hupdate, h⟩ := h
  cases h
  exact ⟨_, store, block, hblock, hupdate, rfl⟩

/-- A bootstrap leaves a store that keeps the contract, if it found one. -/
theorem faithful_bootstrap {s : Store} {g : Genesis} {c : Chain} (hs : s.Faithful {})
    (h : bootstrap s g = .ok c) : ∃ m, c.store.Faithful m := by
  obtain ⟨f, store, block, -, hupdate, rfl⟩ := bootstrap_commits h
  obtain ⟨t, -, hfaithful⟩ := hs.update hupdate
  exact ⟨t.view {}, hfaithful⟩

/-- The address `19tUu5pyjWdgB2vnmN14Y6YJcHuqp7hkDv`, the sample's miner. -/
def minerAddress : Address :=
  ⟨⟨#[97, 125, 130, 37, 182, 243, 5, 104, 27, 249, 138, 110, 223, 205, 231, 97, 194, 106, 200, 235]⟩, rfl⟩

/-- A genesis record of difficulty zero that gives the miner 1000 at nonce 3. -/
def fundedGenesis : Genesis :=
  { chainId := 1, genesisTime := 0, difficulty := 0, coinbase := "19tUu5pyjWdgB2vnmN14Y6YJcHuqp7hkDv",
    alloc := [("19tUu5pyjWdgB2vnmN14Y6YJcHuqp7hkDv", ⟨1000, 3⟩)] }

end Chain

/-- The digest whose big-endian value is `n`. -/
def Digest.ofNat (n : Nat) : Digest := ⟨Bytes.ofNatBE n 32, Bytes.size_ofNatBE n 32⟩

/-- The block the miner seals on block 0 of the funded chain: the reward of
100 alone, dated 5, in a block dated 7 and sealed at nonce 0, with the roots
of crediting the miner. -/
def minedBlock : Block :=
  ⟨{ parentHash := Digest.ofNat 0xa60f8893ee32a795f98fc354b912137486ad47c493ba4e9e3235c32ba82d7624
     hash := Digest.ofNat 0x75611d706c4b02d967f5bee38abef6577b496a33910d019ba6674fb51e67d4ab
     number := 1
     timestamp := 7
     stateRoot := Digest.ofNat 0x5a4314a662e7f010b4220ad5461d57a24e3d40419b3c8af0f9c7697a894c9f12
     txRoot := Digest.ofNat 0xb94c74cc4596a1568a78ba5e02fd04bd0016bd1d7eaf989ddc97759f264c1558
     receiptRoot := Digest.ofNat 0xd63c770ca7c4eecb65f3c2ec7a9f6a7dc3308e08c1bfd25c47ca9c6306cd5c5b
     netherUsed := 0
     coinbase := Chain.minerAddress
     nonce := 0 },
    [SignedTx.reward Chain.minerAddress 100 1 5]⟩

/-- The block with its state root replaced and its hash recomputed: it passes
every check an append makes before applying it, and its application disagrees
with its header. -/
def Block.withStateRoot (b : Block) (r : Digest) : Block :=
  let h : Header := { b.header with stateRoot := r }
  ⟨{ h with hash := h.computeHash }, b.transactions⟩

namespace Chain

/-- What the kernel computes of an append on the funded chain, as one flag:
the chain bootstrapped from `fundedGenesis` holds block 0 alone, under a hash
that is not zero, and appending `minedBlock` extends it to two blocks, on
which both parties of `Ledger.toppedTransfer` still hold nonce 0. -/
theorem minedBlock_extends_check :
    (Chain.bootstrap {} fundedGenesis).map (fun c₀ =>
      !c₀.tip.hash.isZero && c₀.tip.length == 1 &&
        match (append minedBlock).run.run c₀ with
        | (.ok (.extended h length _), c₁) => decide (h = minedBlock.hash) && length == 2 &&
            (c₁.store.account Ledger.toppedTransfer.tx.sender).toOption.map Account.nonce == some 0 &&
            (c₁.store.account Ledger.toppedTransfer.tx.recipient).toOption.map Account.nonce == some 0
        | _ => false) = .ok true := by
  decide +kernel

/-- What the kernel computes of a second append on the funded chain: the copy
of `minedBlock` with a zero state root fails at the roots. -/
theorem withStateRoot_fails_check :
    (Chain.bootstrap {} fundedGenesis).map (fun c₀ =>
      match (append (minedBlock.withStateRoot Digest.zero)).run.run c₀ with
      | (.error e, _) => decide (e = .invalidBlock "State root mismatch")
      | _ => false) = .ok true := by
  decide +kernel

/-- The funded chain spelled out: `c₀`, bootstrapped from `fundedGenesis`, holds
block 0 under a hash that is not zero; appending `minedBlock` extends it to
`c₁`, of two blocks, on which the parties of `Ledger.toppedTransfer` hold
nonce 0; and appending the block's copy with a zero state root fails at the
roots. -/
theorem fundedChain_appends :
    ∃ c₀ rs c₁ c₂, Chain.bootstrap {} fundedGenesis = .ok c₀ ∧ c₀.tip.hash.isZero = false ∧
      c₀.tip.length = 1 ∧ (append minedBlock).run.run c₀ = (.ok (.extended minedBlock.hash 2 rs), c₁) ∧
      (c₁.store.account Ledger.toppedTransfer.tx.sender).toOption.map Account.nonce = some 0 ∧
      (c₁.store.account Ledger.toppedTransfer.tx.recipient).toOption.map Account.nonce = some 0 ∧
      (append (minedBlock.withStateRoot Digest.zero)).run.run c₀ =
        (.error (.invalidBlock "State root mismatch"), c₂) := by
  obtain ⟨c₀, hboot, hext⟩ := Except.map_eq_ok.mp minedBlock_extends_check
  have hlate := withStateRoot_fails_check
  rw [hboot] at hlate
  simp only [Except.map, Except.ok.injEq, Bool.and_eq_true, Bool.not_eq_true', beq_iff_eq] at hext hlate
  obtain ⟨⟨hzero, hlen⟩, hext⟩ := hext
  cases happ : (append minedBlock).run.run c₀ with
  | mk r₁ c₁ =>
  cases hbad : (append (minedBlock.withStateRoot Digest.zero)).run.run c₀ with
  | mk r₂ c₂ =>
  rw [happ] at hext
  rw [hbad] at hlate
  rcases r₁ with e | ⟨h, length, rs⟩ | _
  · cases hext
  · simp only [Bool.and_eq_true, decide_eq_true_eq, beq_iff_eq] at hext
    obtain ⟨⟨⟨rfl, rfl⟩, hsender⟩, hrecipient⟩ := hext
    rcases r₂ with e | o
    · simp only [decide_eq_true_eq] at hlate
      subst hlate
      exact ⟨c₀, rs, c₁, c₂, hboot, hzero, hlen, happ, hsender, hrecipient, hbad⟩
    · cases hlate
  · cases hext

/-- On the funded sample chain, `minedBlock` extends the chain by one and the
store then shows what the extension commits, while the copy of the block with
a zero state root is applied, disagrees with its header, and leaves the store
and the tip as they were. -/
theorem append_all_or_nothing_sample :
    ∃ c₀ rs c₁ c₂ m, Chain.bootstrap {} fundedGenesis = .ok c₀ ∧ c₀.store.Faithful m ∧
      (append minedBlock).run.run c₀ = (.ok (.extended minedBlock.hash 2 rs), c₁) ∧
      c₁.tip = ⟨minedBlock.hash, 2⟩ ∧ (∃ m', c₁.store.Faithful m' ∧ Commits minedBlock 2 m m') ∧
      (append (minedBlock.withStateRoot Digest.zero)).run.run c₀ =
        (.error (.invalidBlock "State root mismatch"), c₂) ∧
      c₂.store = c₀.store ∧ c₂.tip = c₀.tip := by
  obtain ⟨c₀, rs, c₁, c₂, hboot, -, -, happ, -, -, hbad⟩ := fundedChain_appends
  obtain ⟨m, hm⟩ := faithful_bootstrap Store.faithful_empty hboot
  have hext := append_all_or_nothing minedBlock c₀ hm
  have hlate := append_all_or_nothing (minedBlock.withStateRoot Digest.zero) c₀ hm
  rw [happ] at hext
  rw [hbad] at hlate
  obtain ⟨-, -, htip, hcommits⟩ := hext
  exact ⟨c₀, rs, c₁, c₂, m, hboot, hm, happ, htip, hcommits, hbad, hlate⟩

end Chain
end PowChain
