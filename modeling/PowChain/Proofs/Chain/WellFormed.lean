import PowChain.Proofs.Chain.Walk
import PowChain.Proofs.Chain.Append
import PowChain.Proofs.Genesis.Stored
import PowChain.Proofs.Codec.RoundTrip

/-!
# Well-formed chains

A chain is bootstrapped into an empty store, grown by appends of any blocks,
whatever each append returns, and reopened from its store (`Chain.Reachable`).
Every chain reached so is well formed (`Chain.WellFormed`): its store shows
the tip and the length it holds in memory, the blocks from the tip back to
block 0 form a stored lineage of that length, the cache holds only stored
blocks under their own hashes, and the stored genesis document carries the
difficulty the chain checks blocks against.

* `wellFormed_bootstrap`, `WellFormed.append`, `WellFormed.resume` — the
  three ways a chain is reached keep it well formed.  An append keeps the old
  records because a block's record is keyed by thirty-two bytes, which no
  record a block's transactions write is (`Ledger.size_of_ledgerKey`), and
  the block it adds is new (`containsBlock`).
* `reachable_wellFormed` — every reachable chain is well formed, so a walk
  from the tip reads exactly its blocks and stops after block 0, the chain
  check passes with the tip's length, and the canonical hashes are the blocks'
  hashes, oldest first.

Two assumptions enter as hypotheses of `Reachable`: the hash of block 0 is not
the zero digest, which would make block 1 look like block 0 to a walk, and an
appended block has fewer than `2 ^ 64` transactions, so that its record, which
writes the count in a 64-bit word, reads back as the block.
-/

namespace PowChain

/-! ## What the checks establish -/

/-- A header that may follow the tip names the tip as parent, has a non-zero
hash and the next number. -/
theorem validateNext_ok {tip : ChainTip} {h : Header} (hv : validateNext tip h = .ok ()) :
    h.parentHash = tip.hash ∧ h.hash.isZero = false ∧ h.number = tip.nextNumber := by
  unfold validateNext at hv
  dsimp only at hv
  split at hv
  · cases hv
  rename_i hparent
  split at hv
  · cases hv
  rename_i hzero
  split at hv
  · cases hv
  rename_i hnumber
  simp only [bne_iff_ne, ne_eq, Decidable.not_not, Bool.not_eq_true] at hparent hzero hnumber
  exact ⟨hparent, hzero, hnumber⟩

namespace SignedTx

/-- A transaction of acceptable size has a payload and a signature whose
lengths fit in the 64-bit words that carry them. -/
theorem fits_of_validateSize {s : SignedTx} (h : s.validateSize = .ok ()) :
    s.tx.data.size < 2 ^ 64 ∧ s.signature.size < 2 ^ 64 := by
  unfold validateSize at h
  dsimp only at h
  split at h
  · cases h
  rename_i hsize
  split at h
  · cases h
  rename_i hdata
  have hsig : s.signature.size ≤ s.wireSize := by
    simp only [wireSize, toWire, Wire.bytes, ByteArray.size_append]
    omega
  simp only [maxSize, maxData, gt_iff_lt, not_lt] at hsize hdata
  constructor <;> omega

end SignedTx

namespace Block

/-- A block with a valid body carries its recomputed hash, meets the
difficulty, commits to its transactions, and has transactions of acceptable
size. -/
theorem validateBody_ok {b : Block} {d : Nat} (hv : b.validateBody d = .ok ()) :
    b.header.computeHash = b.header.hash ∧ Target.meets b.header.hash d = true ∧
      txRootOf b.transactions = b.header.txRoot ∧ ∀ s ∈ b.transactions, s.validateSize = .ok () := by
  unfold validateBody at hv
  dsimp only at hv
  split at hv
  · cases hv
  rename_i hhash
  split at hv
  · cases hv
  rename_i hwork
  split at hv
  · cases hv
  split at hv
  · cases hv
  rename_i hroot
  obtain ⟨⟨⟩, -, hv⟩ := Except.bind_eq_ok.mp hv
  obtain ⟨⟨⟩, -, hv⟩ := Except.bind_eq_ok.mp hv
  simp only [bne_iff_ne, ne_eq, Decidable.not_not] at hhash hroot
  exact ⟨hhash, by simpa using hwork, hroot, List.forM_eq_ok.mp hv⟩

/-- A valid block of fewer than `2 ^ 64` transactions has a record that reads
back. -/
theorem wireFits_of_validateBody {b : Block} {d : Nat} (hv : b.validateBody d = .ok ())
    (hlen : b.transactions.length < 2 ^ 64) : b.WireFits :=
  ⟨hlen, fun s hs => SignedTx.fits_of_validateSize ((validateBody_ok hv).2.2.2 s hs)⟩

end Block

namespace Genesis

theorem parent_isZero {g : Genesis} {d : Digest} (h : g.parent = .ok d) : d.isZero = true := by
  unfold parent at h
  split at h
  · cases h
  split at h
  · cases h
  split at h
  · cases h
    assumption
  · cases h

/-- Block 0 has no transactions, the number zero, the zero parent, and the
hash its header recomputes. -/
theorem toBlock_ok {g : Genesis} {b : Block} (h : g.toBlock = .ok b) :
    b.transactions = [] ∧ b.header.number = 0 ∧ b.header.parentHash.isZero = true ∧
      b.header.computeHash = b.hash := by
  unfold toBlock at h
  obtain ⟨⟨⟩, -, h⟩ := Except.bind_eq_ok.mp h
  obtain ⟨parent, hparent, h⟩ := Except.bind_eq_ok.mp h
  obtain ⟨_, -, h⟩ := Except.bind_eq_ok.mp h
  obtain ⟨_, -, h⟩ := Except.bind_eq_ok.mp h
  cases h
  exact ⟨rfl, rfl, parent_isZero hparent, rfl⟩

end Genesis

/-! ## Keys of different sizes -/

namespace Keys

theorem size_genesis : genesis.size = 1 := by decide

theorem genesis_ne_tip : genesis ≠ tip := by decide

theorem genesis_ne_chainLength : genesis ≠ chainLength := by decide

theorem block_ne_genesis (d : Digest) : block d.bytes ≠ genesis := by
  intro h
  have hsize := congrArg ByteArray.size h
  rw [block, d.size_eq, size_genesis] at hsize
  cases hsize

end Keys

namespace Ledger

/-- Every record a block's transactions write has a key of at least
thirty-three bytes: a prefix and a hash, or a prefix and an address text. -/
theorem size_of_ledgerKey {txs : List SignedTx} {k : ByteArray} (h : LedgerKey txs k) :
    33 ≤ k.size := by
  obtain ⟨s, -, rfl | rfl | ⟨a, -, rfl⟩⟩ := h
  · have hp : Keys.txPrefix.size = 3 := by decide
    simp [Keys.transaction, ByteArray.size_append, hp, s.hash.size_eq]
  · have hp : Keys.receiptPrefix.size = 8 := by decide
    simp [Keys.receipt, ByteArray.size_append, hp, s.hash.size_eq]
  · have hp : Keys.balancesPrefix.size = 9 := by decide
    have htext := Address.le_size_toUTF8_encode a
    simp only [Keys.balance, ByteArray.size_append, hp]
    omega

end Ledger

namespace Chain

/-- An extending append keeps every record whose key is no longer than a block
hash and is not two bytes long, other than the new block's. -/
theorem Commits.get?_of_size {b : Block} {length : UInt64} {m m' : KvMap} (h : Commits b length m m')
    {k : ByteArray} (hk : k.size ≤ 32) (hk₂ : k.size ≠ 2) (hblock : k ≠ Keys.block b.hash.bytes) :
    m'.get? k = m.get? k := by
  refine h.frame k hblock (fun htip => ?_) (fun hlength => ?_) (fun hledger => ?_)
  · exact hk₂ (htip ▸ Keys.size_tip)
  · exact hk₂ (hlength ▸ Keys.size_chainLength)
  · have := Ledger.size_of_ledgerKey hledger
    omega

/-- An extending append keeps the genesis document. -/
theorem Commits.get?_genesis {b : Block} {length : UInt64} {m m' : KvMap} (h : Commits b length m m') :
    m'.get? Keys.genesis = m.get? Keys.genesis := by
  have hsize := Keys.size_genesis
  exact h.get?_of_size (by omega) (by omega) (Keys.block_ne_genesis _).symm

/-- An append of a new block keeps every stored block. -/
theorem Stored.of_commits {b x : Block} {length : UInt64} {m m' : KvMap} (h : Commits b length m m')
    (hnew : m.get? (Keys.block b.hash.bytes) = none) (hx : Stored m x) : Stored m' x := by
  obtain ⟨bytes, hget, hdec⟩ := hx
  have hne : Keys.block x.hash.bytes ≠ Keys.block b.hash.bytes := by
    intro heq
    rw [heq, hnew] at hget
    cases hget
  have hsize : (Keys.block x.hash.bytes).size = 32 := x.hash.size_eq
  refine ⟨bytes, ?_, hdec⟩
  rw [h.get?_of_size (by omega) (by omega) hne, hget]

/-! ## The invariant -/

/-- What holds of a chain reached from an empty store, over the map `m` its
store shows and its blocks `blocks`, newest first. -/
structure WellFormed (c : Chain) (m : KvMap) (blocks : List Block) : Prop where
  faithful : c.store.Faithful m
  storedTip : m.get? Keys.tip = some c.tip.hash.bytes
  storedLength : m.get? Keys.chainLength = some (Wire.u64 c.tip.length)
  length : blocks.length = c.tip.length.toNat
  tip : ∃ b rest, blocks = b :: rest ∧ b.hash = c.tip.hash
  lineage : Lineage c.difficulty blocks
  stored : ∀ b ∈ blocks, Stored m b
  cache : CacheSound m c.cache
  genesis : ∃ g : Genesis, m.get? Keys.genesis = some g.toJson.toUTF8 ∧
    g.difficulty = c.genesis.difficulty

/-- Changing only the cache, and keeping it sound, keeps a chain well formed. -/
theorem WellFormed.of_frame {c c' : Chain} {m : KvMap} {blocks : List Block} (hw : WellFormed c m blocks)
    (hframe : Frame c c') (hcache : CacheSound m c'.cache) : WellFormed c' m blocks := by
  have hdiff : c'.difficulty = c.difficulty := by
    unfold difficulty
    rw [hframe.genesis]
  obtain ⟨hm, htip, hlen, hlength, hhead, hl, hs, -, hg⟩ := hw
  refine ⟨hframe.store ▸ hm, hframe.tip ▸ htip, hframe.tip ▸ hlen, hframe.tip ▸ hlength,
    hframe.tip ▸ hhead, hdiff ▸ hl, hs, hcache, hframe.genesis ▸ hg⟩

/-! ## Bootstrapping -/

@[simp] theorem TxnM.run_set (k v : ByteArray) (t : Txn) : (TxnM.set k v).run t = .ok (⟨⟩, t.set k v) :=
  rfl

/-- A loop whose every round writes only keys in `K` writes only keys in `K`. -/
theorem forIn_writesWithin {α : Type} (K : ByteArray → Prop) {f : α → PUnit → TxnM (ForInStep PUnit)}
    (hf : ∀ x t, ∃ t', (f x ⟨⟩).run t = .ok (.yield ⟨⟩, t') ∧ t.WritesWithin t' K) :
    ∀ (l : List α) (t : Txn) {p : PUnit × Txn}, (forIn l ⟨⟩ f).run t = .ok p → t.WritesWithin p.2 K := by
  intro l
  induction l with
  | nil =>
    intro t p h
    cases h
    exact Txn.WritesWithin.refl t K
  | cons x l ih =>
    intro t p h
    obtain ⟨t₁, hx, hw₁⟩ := hf x t
    simp only [List.forIn_cons, StateT.run_bind, hx] at h
    exact hw₁.trans (ih t₁ h)

/-- What a bootstrap that succeeds did.  The store held no tip, and `g`
describes block 0 and an allocation.  One transaction ran a loop writing each
entry of the allocation to its balance record, and only balance records, then
wrote block 0, the genesis document, the tip and a length of one; its commit
is the chain's store, and the chain keeps `g` and points at block 0. -/
theorem bootstrap_eq_ok {s : Store} {g : Genesis} {c : Chain} (hs : s.Faithful {})
    (h : bootstrap s g = .ok c) :
    ∃ (block : Block) (alloc : List (Address × Account))
      (f : Address × Account → PUnit → TxnM (ForInStep PUnit)) (t₀ : Txn) (store : Store),
      g.toBlock = .ok block ∧ g.accounts = .ok alloc ∧
      (∀ x t, (f x ⟨⟩).run t = .ok (.yield ⟨⟩, t.set (Keys.balance x.1.encode) x.2.toWire)) ∧
      (forIn alloc ⟨⟩ f).run ⟨s, []⟩ = .ok (⟨⟩, t₀) ∧
      (⟨s, []⟩ : Txn).WritesWithin t₀ (fun k => ∃ a : Address, k = Keys.balance a.encode) ∧
      c = { store, genesis := g, tip := ⟨block.hash, 1⟩ } ∧
      store.Faithful (((((t₀.set (Keys.block block.hash.bytes) block.toBytes).set Keys.genesis
        g.toJson.toUTF8).set Keys.tip block.hash.bytes).set Keys.chainLength (Wire.u64 1)).view {}) := by
  unfold bootstrap at h
  rw [Except.bind_eq_ok] at h
  obtain ⟨initialized, -, h⟩ := h
  cases initialized with
  | true => cases h
  | false =>
  rw [if_neg Bool.false_ne_true, Except.bind_eq_ok] at h
  obtain ⟨block, hblock, h⟩ := h
  rw [Except.bind_eq_ok] at h
  obtain ⟨alloc, halloc, h⟩ := h
  rw [Except.bind_eq_ok] at h
  obtain ⟨⟨⟨⟩, store⟩, hupdate, h⟩ := h
  cases h
  obtain ⟨t, hrun, hfaithful⟩ := hs.update hupdate
  -- the allocation's loop goes first, then the four records over it
  simp only [StateT.run_bind] at hrun
  rw [Except.bind_eq_ok] at hrun
  obtain ⟨⟨⟨⟩, t₀⟩, hloop, hrun⟩ := hrun
  simp only [TxnM.run_set, bind, Except.bind] at hrun
  cases hrun
  refine ⟨block, alloc, _, t₀, store, hblock, halloc, ?_, hloop, ?_, rfl, hfaithful⟩
  · exact fun x t => rfl
  · exact forIn_writesWithin _ (fun x t => ⟨_, rfl, Txn.WritesWithin.set t ⟨x.1, rfl⟩ _⟩) alloc _ hloop

/-- Over a transaction that writes each key once, the four records written
after the allocation show as four insertions into its view. -/
theorem view_bootRecords {t₀ : Txn} (hnd : t₀.batch.KeysNodup) (g : Genesis) (block : Block) :
    ((((t₀.set (Keys.block block.hash.bytes) block.toBytes).set Keys.genesis g.toJson.toUTF8).set
      Keys.tip block.hash.bytes).set Keys.chainLength (Wire.u64 1)).view {} =
    ((((t₀.view {}).insert (Keys.block block.hash.bytes) block.toBytes).insert Keys.genesis
      g.toJson.toUTF8).insert Keys.tip block.hash.bytes).insert Keys.chainLength (Wire.u64 1) := by
  have hnd₁ := Txn.keysNodup_set hnd (Keys.block block.hash.bytes) block.toBytes
  have hnd₂ := Txn.keysNodup_set hnd₁ Keys.genesis g.toJson.toUTF8
  have hnd₃ := Txn.keysNodup_set hnd₂ Keys.tip block.hash.bytes
  rw [Txn.view_set KvMap.sorted_empty hnd₃, Txn.view_set KvMap.sorted_empty hnd₂,
    Txn.view_set KvMap.sorted_empty hnd₁, Txn.view_set KvMap.sorted_empty hnd]

/-- Bootstrapping into a store that shows nothing gives a well-formed chain of
block 0 alone, the block the genesis document describes, if its hash is not zero. -/
theorem wellFormed_bootstrap_genesis {s : Store} {g : Genesis} {c : Chain} (hs : s.Faithful {})
    (h : bootstrap s g = .ok c) (hzero : c.tip.hash.isZero = false) :
    ∃ m block, g.toBlock = .ok block ∧ WellFormed c m [block] := by
  obtain ⟨block, -, -, t₀, store, hblock, -, -, -, hw₀, rfl, hfaithful⟩ := bootstrap_eq_ok hs h
  rw [view_bootRecords (hw₀.nodup List.nodup_nil)] at hfaithful
  obtain ⟨hnone, hnumber, hparent, hhash⟩ := Genesis.toBlock_ok hblock
  refine ⟨_, block, hblock, hfaithful, ?_, ?_, rfl, ⟨block, [], rfl, rfl⟩,
    Lineage.genesis hnumber hparent hhash hzero, ?_, (fun e he => nomatch he), ⟨g, ?_, rfl⟩⟩
  · simp [KvMap.get?_insert, Keys.tip_ne_chainLength]
  · simp [KvMap.get?_insert]
  · intro b hb
    obtain rfl := List.mem_singleton.mp hb
    refine ⟨b.toBytes, ?_, Block.decodeRecord_toBytes ⟨by simp [hnone], by simp [hnone]⟩⟩
    simp [KvMap.get?_insert, Keys.block_ne_tip, Keys.block_ne_chainLength, Keys.block_ne_genesis]
  · simp [KvMap.get?_insert, Keys.genesis_ne_tip, Keys.genesis_ne_chainLength]

theorem wellFormed_bootstrap {s : Store} {g : Genesis} {c : Chain} (hs : s.Faithful {})
    (h : bootstrap s g = .ok c) (hzero : c.tip.hash.isZero = false) :
    ∃ m blocks, WellFormed c m blocks := by
  obtain ⟨m, block, -, hw⟩ := wellFormed_bootstrap_genesis hs h hzero
  exact ⟨m, [block], hw⟩

/-! ## Appending -/

/-- A block the chain does not know has no record in the store. -/
theorem get?_eq_none_of_containsBlock {c : Chain} {m : KvMap} {h : Digest} (hm : c.store.Faithful m)
    (hc : c.containsBlock h = .ok false) : m.get? (Keys.block h.bytes) = none := by
  unfold containsBlock at hc
  split at hc
  · cases hc
  rw [hm.contains] at hc
  cases hget : m.get? (Keys.block h.bytes) with
  | none => rfl
  | some v =>
    rw [hget] at hc
    cases hc

/-- Checking a block against a tip whose block `p` is stored keeps the cache
sound, and a block that passes follows the tip, has a valid body and is
younger than `p`. -/
theorem checkNext_stored {b p : Block} {c c₁ : Chain} {m : KvMap} {x : Except LedgerError Unit}
    (hm : c.store.Faithful m) (hc : CacheSound m c.cache) (hp : Stored m p)
    (htip : p.hash = c.tip.hash) (h : (checkNext b).run.run c = (x, c₁)) :
    CacheSound m c₁.cache ∧ (x = .ok () → validateNext c.tip b.header = .ok () ∧
      b.validateBody c.difficulty = .ok () ∧ p.header.timestamp.toInt < b.header.timestamp.toInt) := by
  obtain ⟨c₂, hget, -, hcache⟩ := getBlock_stored hm hc hp
  rw [htip] at hget
  constructor
  · rw [checkNext_run] at h
    split at h
    · cases h
      exact hc
    · split at h
      · cases h
        exact hc
      · rw [hget] at h
        dsimp only at h
        split at h <;> cases h <;> exact hcache
  · rintro rfl
    obtain ⟨hnext, hbody, parent, hparent, hts⟩ := checkNext_ok h
    rw [hget] at hparent
    cases hparent
    exact ⟨hnext, hbody, hts⟩

/-- An append that extends a well-formed chain by `b` leaves it well formed,
with `b` on top of its blocks. -/
theorem WellFormed.extend {c c₁ : Chain} {m : KvMap} {p b : Block} {rest : List Block}
    {length : UInt64} {receipts : List Receipt} {store : Store} (hw : WellFormed c m (p :: rest))
    (hp : p.hash = c.tip.hash) (hfits : b.transactions.length < 2 ^ 64)
    (hknown : c.containsBlock b.hash = .ok false) (hcheck : (checkNext b).run.run c = (.ok (), c₁))
    (hlen : addWord c₁.tip.length 1 = .ok length)
    (hupdate : c₁.store.update (commitBlock b length) = .ok (receipts, store)) :
    ∃ m', WellFormed { c₁ with store, tip := ⟨b.hash, length⟩, cache := c₁.cache.put b.hash b } m'
      (b :: p :: rest) := by
  have hframe := Frame.of_checkNext hcheck
  obtain ⟨hcache, hok⟩ := checkNext_stored hw.faithful hw.cache (hw.stored p List.mem_cons_self) hp hcheck
  obtain ⟨hnext, hbody, htime⟩ := hok rfl
  obtain ⟨hparent, hnonzero, hnumber⟩ := validateNext_ok hnext
  obtain ⟨hhash, hwork, hroot, -⟩ := Block.validateBody_ok hbody
  -- the commit writes over the map the store showed, keeping every block stored
  obtain ⟨t, hrun, hfaithful⟩ := (hframe.store ▸ hw.faithful : c₁.store.Faithful m).update hupdate
  have hcommits := commitBlock_commits hw.faithful.sorted hrun
  have hnew := get?_eq_none_of_containsBlock hw.faithful hknown
  have hstored : Stored (t.view m) b :=
    ⟨b.toBytes, hcommits.block, Block.decodeRecord_toBytes (Block.wireFits_of_validateBody hbody hfits)⟩
  have hlength : length.toNat = c.tip.length.toNat + 1 := by
    have hsum := Ledger.addWord_eq_ok hlen
    rw [hframe.tip] at hsum
    simpa using hsum
  obtain ⟨g, hg, hgdiff⟩ := hw.genesis
  refine ⟨t.view m, hfaithful, hcommits.tip, hcommits.chainLength, ?_, ⟨b, _, rfl, rfl⟩, ?_, ?_, ?_,
    ⟨g, ?_, hgdiff.trans (congrArg Genesis.difficulty hframe.genesis).symm⟩⟩
  · have hlen₀ := hw.length
    simp only [List.length_cons] at hlen₀ ⊢
    omega
  · have hnum : b.header.number.toNat = (p :: rest).length := by
      rw [hnumber, hw.length]
      rfl
    have hl := Lineage.cons hw.lineage hnum (hparent.trans hp.symm) hhash hnonzero hwork hroot htime
    simpa only [difficulty, hframe.genesis] using hl
  · intro x hx
    rcases List.mem_cons.mp hx with rfl | hx
    · exact hstored
    · exact Stored.of_commits hcommits hnew (hw.stored x hx)
  · intro e he
    rcases Lru.mem_put he with rfl | he
    · exact ⟨rfl, hstored⟩
    · obtain ⟨hkey, hs⟩ := hcache e he
      exact ⟨hkey, Stored.of_commits hcommits hnew hs⟩
  · rw [hcommits.get?_genesis, hg]

/-- Every append keeps a well-formed chain well formed: a failed one changes
the cache at most, by reading the tip's block; one that finds its block known
changes nothing; one that extends the chain adds the block on top. -/
theorem WellFormed.append {c c' : Chain} {m : KvMap} {blocks : List Block} {b : Block}
    {r : Except LedgerError AppendOutcome} (hw : WellFormed c m blocks)
    (hfits : b.transactions.length < 2 ^ 64) (h : (append b).run.run c = (r, c')) :
    ∃ m' blocks', WellFormed c' m' blocks' := by
  obtain ⟨p, rest, rfl, hp⟩ := hw.tip
  rcases append_cases h with ⟨e, -, hstate⟩ | ⟨-, rfl⟩ |
    ⟨c₁, length, receipts, store, hknown, hcheck, hlen, hupdate, -, rfl⟩
  · refine ⟨m, _, hw.of_frame (append_error_frame hstate) ?_⟩
    rcases hstate with rfl | ⟨x, hx⟩
    · exact hw.cache
    · exact (checkNext_stored hw.faithful hw.cache (hw.stored p List.mem_cons_self) hp hx).1
  · exact ⟨m, _, hw⟩
  · obtain ⟨m', hw'⟩ := hw.extend hp hfits hknown hcheck hlen hupdate
    exact ⟨m', _, hw'⟩

/-! ## Reopening -/

theorem Digest.ofBytes?_bytes (d : Digest) : Digest.ofBytes? d.bytes = some d := by
  rw [Digest.ofBytes?, dif_pos d.size_eq]

/-- A stored word reads back. -/
theorem Store.getDecoded_u64 {s : Store} {k : ByteArray} {v : UInt64}
    (h : s.get? k = .ok (some (Wire.u64 v))) : s.getDecoded Wire.readU64 k = .ok (some v) := by
  rw [Store.getDecoded, h]
  simp only [bind, Except.bind, (Wire.reads_u64 v).decode]
  rfl

/-- Reopening the store of a well-formed chain whose stored genesis document
is that of `g` gives the chain back with the same store and tip, an empty
cache, and the genesis record read back from the document. -/
theorem WellFormed.resume_eq {c c' : Chain} {m : KvMap} {blocks : List Block} {g : Genesis}
    (hw : WellFormed c m blocks) (hg : m.get? Keys.genesis = some g.toJson.toUTF8)
    (h : Chain.resume c.store = .ok c') :
    ∃ g', Genesis.ofStored g.toJson.toUTF8 = .ok g' ∧ c' = { store := c.store, genesis := g', tip := c.tip } := by
  unfold Chain.resume at h
  have hlength := Store.getDecoded_u64 ((hw.faithful.get? _).trans (congrArg _ hw.storedLength))
  simp only [hw.faithful.get?, hw.storedTip, hg, hlength, Digest.ofBytes?_bytes, bind, Except.bind] at h
  cases hdoc : Genesis.ofStored g.toJson.toUTF8 with
  | error e =>
    rw [hdoc] at h
    cases h
  | ok g' =>
    rw [hdoc] at h
    cases h
    exact ⟨g', rfl, rfl⟩

/-- Reopening the store of a well-formed chain gives the chain back, with an
empty cache and the difficulty of the stored genesis document. -/
theorem WellFormed.resume {c c' : Chain} {m : KvMap} {blocks : List Block} (hw : WellFormed c m blocks)
    (h : Chain.resume c.store = .ok c') : WellFormed c' m blocks := by
  obtain ⟨g, hg, hdiff⟩ := hw.genesis
  obtain ⟨g', hdoc, rfl⟩ := hw.resume_eq hg h
  -- the document read back carries the difficulty it was written with
  have hsame := Genesis.difficulty_ofStored hdoc
  obtain ⟨hm, htip, hlen, hlength, hhead, hl, hs, -, -⟩ := hw
  refine ⟨hm, htip, hlen, hlength, hhead, ?_, hs, (fun e he => nomatch he), ⟨g, hg, hsame.symm⟩⟩
  simpa only [difficulty, hsame, hdiff] using hl

/-! ## What a well-formed chain answers -/

section Answers

variable {c : Chain} {m : KvMap} {blocks : List Block}

/-- A walk from the tip of a well-formed chain, with fuel for every block,
reads exactly its blocks and stops after block 0. -/
theorem WellFormed.walkFrom {σ α : Type} (hw : WellFormed c m blocks)
    (step : σ → Block → Result (Walk σ α)) (finish : σ → Result α) {fuel : Nat}
    (hfuel : blocks.length ≤ fuel) (s : σ) :
    ((Chain.walkFrom step finish fuel c.tip.hash s).run.run c).1 = walkList step finish blocks s := by
  obtain ⟨b, rest, rfl, hb⟩ := hw.tip
  rw [← hb]
  generalize hrun : (Chain.walkFrom step finish fuel b.hash s).run.run c = p
  obtain ⟨r, c'⟩ := p
  have hfuel' : rest.length < fuel := by
    simp only [List.length_cons] at hfuel
    omega
  exact (walkFrom_lineage step finish hw.lineage hw.stored hw.faithful hw.cache hfuel' hrun).1

/-- The chain check passes on a well-formed chain and counts its blocks. -/
theorem WellFormed.verify (hw : WellFormed c m blocks) : (verify.run.run c).1 = .ok c.tip.length := by
  obtain ⟨b, rest, rfl, hb⟩ := hw.tip
  generalize hrun : Chain.verify.run.run c = p
  obtain ⟨r, c'⟩ := p
  exact (verify_lineage hw.lineage hw.stored hw.faithful hw.cache hb.symm hw.length hrun).1

/-- The canonical hashes of a well-formed chain are its blocks' hashes, oldest
first. -/
theorem WellFormed.blockHashes (hw : WellFormed c m blocks) :
    (blockHashes.run.run c).1 = .ok (blocks.map Block.hash).reverse := by
  obtain ⟨b, rest, rfl, hb⟩ := hw.tip
  generalize hrun : Chain.blockHashes.run.run c = p
  obtain ⟨r, c'⟩ := p
  exact (blockHashes_lineage hw.lineage hw.stored hw.faithful hw.cache hb.symm hrun).1

end Answers

/-! ## Reachable chains -/

/-- The chains a store comes to hold: one bootstrapped into a store that holds
nothing, if the hash of block 0 is not zero; one left by an append of any
block of fewer than `2 ^ 64` transactions, whatever the append returned; and
one reopened from the store of a reachable chain. -/
inductive Reachable : Chain → Prop
  | bootstrap {s : Store} {g : Genesis} {c : Chain} (empty : s.Faithful {})
      (boot : Chain.bootstrap s g = .ok c) (nonzero : c.tip.hash.isZero = false) : Reachable c
  | append {c c' : Chain} {b : Block} {r : Except LedgerError AppendOutcome} (prev : Reachable c)
      (fits : b.transactions.length < 2 ^ 64) (run : (Chain.append b).run.run c = (r, c')) :
      Reachable c'
  | resume {c c' : Chain} (prev : Reachable c) (run : Chain.resume c.store = .ok c') : Reachable c'

theorem Reachable.wellFormed {c : Chain} (h : Reachable c) : ∃ m blocks, WellFormed c m blocks := by
  induction h with
  | bootstrap empty boot nonzero => exact wellFormed_bootstrap empty boot nonzero
  | append _ fits run ih =>
    obtain ⟨m, blocks, hw⟩ := ih
    exact hw.append fits run
  | resume _ run ih =>
    obtain ⟨m, blocks, hw⟩ := ih
    exact ⟨m, blocks, hw.resume run⟩

/-- Every reachable chain is well formed: its store holds the tip and length
it keeps in memory, its blocks from the tip back form a stored lineage of that
length, and its cache holds stored blocks only.  A walk from its tip reads
exactly those blocks and stops after block 0, the chain check passes with the
tip's length, and the canonical hashes are the blocks' hashes, oldest first. -/
theorem reachable_wellFormed {c : Chain} (h : Reachable c) :
    ∃ m blocks, WellFormed c m blocks ∧
      (∀ {σ α : Type} (step : σ → Block → Result (Walk σ α)) (finish : σ → Result α) (fuel : Nat)
        (s : σ), blocks.length ≤ fuel →
          ((Chain.walkFrom step finish fuel c.tip.hash s).run.run c).1 = walkList step finish blocks s) ∧
      (Chain.verify.run.run c).1 = .ok c.tip.length ∧
      (Chain.blockHashes.run.run c).1 = .ok (blocks.map Block.hash).reverse := by
  obtain ⟨m, blocks, hw⟩ := h.wellFormed
  exact ⟨m, blocks, hw, fun step finish _ s hfuel => hw.walkFrom step finish hfuel s, hw.verify,
    hw.blockHashes⟩

/-- A genesis record of difficulty zero with no initial balances. -/
def sampleGenesis : Genesis :=
  { chainId := 1, genesisTime := 0, difficulty := 0, coinbase := "19tUu5pyjWdgB2vnmN14Y6YJcHuqp7hkDv" }

/-- The chain that `minedBlock` extends on the funded sample is reachable, so
well formed: a walk from its tip reads its blocks, the chain check answers its
two blocks, and its hashes are its blocks', oldest first. -/
theorem reachable_wellFormed_sample :
    ∃ c₀ rs c₁, Chain.bootstrap {} fundedGenesis = .ok c₀ ∧
      (append minedBlock).run.run c₀ = (.ok (.extended minedBlock.hash 2 rs), c₁) ∧ Reachable c₁ ∧
      ∃ m blocks, WellFormed c₁ m blocks ∧
      (∀ {σ α : Type} (step : σ → Block → Result (Walk σ α)) (finish : σ → Result α) (fuel : Nat)
        (s : σ), blocks.length ≤ fuel →
          ((Chain.walkFrom step finish fuel c₁.tip.hash s).run.run c₁).1 = walkList step finish blocks s) ∧
      (Chain.verify.run.run c₁).1 = .ok 2 ∧
      (Chain.blockHashes.run.run c₁).1 = .ok (blocks.map Block.hash).reverse := by
  obtain ⟨c₀, rs, c₁, -, hboot, hzero, -, happ, -⟩ := fundedChain_appends
  have hr : Reachable c₁ := .append (.bootstrap Store.faithful_empty hboot hzero) (by decide) happ
  obtain ⟨m, blocks, hw, hwalk, hverify, hhashes⟩ := reachable_wellFormed hr
  rw [tip_of_extended happ] at hverify
  exact ⟨c₀, rs, c₁, hboot, happ, hr, m, blocks, hw, hwalk, hverify, hhashes⟩

end Chain
end PowChain
