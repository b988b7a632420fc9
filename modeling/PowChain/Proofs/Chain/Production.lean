import PowChain.Proofs.Chain.Mining

/-!
# Block production agrees with block acceptance

Mining on the tip of a chain computes the reward of the chosen transactions,
prepares a block of them and the reward on the tip, fills the header's roots
from a dry run of the block's application under a header of zero hash, and
seals the header.  Appending the mined block to the chain that mining left
then goes through: the block is new, follows the tip, has a valid body and a
later timestamp than its parent, and its application under its sealed header
recomputes the roots of the dry run (`mined_block_extends_chain`).

* `mineBlock_run`, `prepareBlock_prepared` — what mining and preparing do;
  `Prepared` collects what preparing fixes of a block, and sealing keeps it
  (`Prepared.seal`);
* `get?_block_eq_none`, `containsBlock_eq_false` — a sealed block numbered
  past the chain is new to it, unless its hash collides with one of the
  chain's blocks;
* `checkNext_of_stored`, `update_commitBlock_ok`, `applyBlockIn_resealed` —
  the checks and the commit of an append, for a block that passes them.
-/

namespace PowChain
namespace Chain

open ChainM

/-! ## Mining on the tip -/

/-- Mining on the tip computes the reward of the chosen transactions, dated by
the first clock reading, prepares a block of them and their reward at the
second, and seals it on the workers. -/
theorem mineBlock_run {rewardTime now : Int} {txs : List SignedTx} {coinbase : Address} {threads : UInt64}
    {watch : Nat → Mining.Watch} {c c' : Chain} {b : Block}
    (h : (mineBlock rewardTime now txs coinbase threads watch).run.run c = (.ok b, c')) :
    ∃ v b₀, Block.reward txs = .ok v ∧
      (prepareBlock now (txs ++ [SignedTx.reward coinbase v c.tip.nextNumber (Int64.ofInt rewardTime)])
        coinbase).run.run c = (.ok b₀, c') ∧
      Mining.mineBlockWith b₀ c.difficulty threads watch = .ok b := by
  unfold mineBlock at h
  simp only [run_bind, run_get, run_lift] at h
  cases hreward : Block.reward txs with
  | error e =>
    rw [hreward] at h
    cases h
  | ok v =>
    rw [hreward] at h
    dsimp only at h
    cases hprep : (prepareBlock now (txs ++ [SignedTx.reward coinbase v c.tip.nextNumber
      (Int64.ofInt rewardTime)]) coinbase).run.run c with
    | mk r c₁ =>
    rw [hprep] at h
    cases r with
    | error e => cases h
    | ok b₀ =>
      dsimp only at h
      cases hmine : Mining.mineBlockWith b₀ c.difficulty threads watch with
      | error e =>
        rw [hmine] at h
        cases h
      | ok b' =>
        rw [hmine] at h
        cases h
        exact ⟨v, b₀, rfl, hprep, hmine⟩

/-! ## Prepared blocks -/

/-- What preparing `b` of `txs` on the tip of `c`, whose block is `parent`,
fixes of it: its transactions, its link to the tip, a timestamp after the
parent's, its coinbase, and roots taken from a dry run of its transactions
under a header of zero hash over the store. -/
structure Prepared (c : Chain) (parent : Block) (now : Int) (txs : List SignedTx) (coinbase : Address)
    (b : Block) : Prop where
  transactions : b.transactions = txs
  nonempty : txs ≠ []
  parentHash : b.header.parentHash = c.tip.hash
  number : b.header.number = c.tip.nextNumber
  timestamp : b.header.timestamp = Int64.ofInt (max now (parent.header.timestamp.toInt + 1))
  bounded : parent.header.timestamp.toInt + 1 < 2 ^ 63
  txRoot : b.header.txRoot = Block.txRootOf txs
  coinbase : b.header.coinbase = coinbase
  dryRun : ∃ h₀ applied t, h₀.hash = Digest.zero ∧
    (Ledger.applyBlockIn ⟨h₀, txs⟩).run ⟨c.store, []⟩ = .ok (applied, t) ∧
    applied.stateRoot = b.header.stateRoot ∧ applied.receiptRoot = b.header.receiptRoot ∧
    applied.netherUsed = b.header.netherUsed

/-- A prepared block is built on the block read at the tip, and the read is
all that preparing does to the chain. -/
theorem prepareBlock_prepared {now : Int} {txs : List SignedTx} {coinbase : Address} {c c' : Chain}
    {b : Block} (h : (prepareBlock now txs coinbase).run.run c = (.ok b, c')) :
    ∃ parent, (getBlock c.tip.hash).run.run c = (.ok parent, c') ∧ Prepared c parent now txs coinbase b := by
  unfold prepareBlock at h
  by_cases hemp : txs.isEmpty = true
  · rw [if_pos hemp] at h
    simp only [run_bind, run_throw] at h
    cases h
  rw [if_neg hemp] at h
  simp only [run_bind, run_get] at h
  cases hget : (getBlock c.tip.hash).run.run c with
  | mk r c₁ =>
  rw [hget] at h
  cases r with
  | error e => cases h
  | ok parent =>
  dsimp only at h
  by_cases hbound : parent.header.timestamp.toInt + 1 ≥ ↑(Nat.pow 2 63)
  · rw [if_pos hbound] at h
    simp only [run_bind, run_throw] at h
    cases h
  rw [if_neg hbound] at h
  simp only [run_bind, run_get, run_lift] at h
  -- the read changed the cache only, so the dry run sees the chain's store
  have hstore : c₁.store = c.store := (Frame.of_getBlock hget).store
  rw [Store.dryRun_eq, hstore] at h
  cases hrun : (Ledger.applyBlockIn ⟨⟨c.tip.hash, Header.zero.hash, c.tip.nextNumber,
      Int64.ofInt (max now (parent.header.timestamp.toInt + 1)), Header.zero.stateRoot, Block.txRootOf txs,
      Header.zero.receiptRoot, Header.zero.netherUsed, coinbase, Header.zero.nonce⟩, txs⟩).run
      ⟨c.store, []⟩ with
  | error e =>
    rw [hrun] at h
    cases h
  | ok p =>
    obtain ⟨applied, t⟩ := p
    rw [hrun] at h
    simp only [Except.map, run_pure] at h
    obtain ⟨rfl, rfl⟩ := h
    have hpow : ((Nat.pow 2 63 : Nat) : Int) = 2 ^ 63 := by norm_num
    refine ⟨parent, rfl, rfl, fun hnil => hemp (by simp [hnil]), rfl, rfl, rfl, ?_, rfl, rfl,
      ⟨_, applied, t, rfl, hrun, rfl, rfl, rfl⟩⟩
    rw [hpow] at hbound
    exact Int.lt_of_not_ge hbound

/-- Sealing keeps what preparing fixed: it writes the nonce and the hash
only. -/
theorem Prepared.seal {c : Chain} {parent : Block} {now : Int} {txs : List SignedTx} {coinbase : Address}
    {b₀ b : Block} {bits : Nat} {threads : UInt64} {watch : Nat → Mining.Watch}
    (hp : Prepared c parent now txs coinbase b₀) (h : Mining.mineBlockWith b₀ bits threads watch = .ok b) :
    Prepared c parent now txs coinbase b := by
  obtain ⟨htxs, ⟨s, hheader⟩, -, -⟩ := Mining.mineBlockWith_ok h
  obtain ⟨header, transactions⟩ := b
  dsimp only at htxs hheader
  subst htxs hheader
  exact ⟨hp.transactions, hp.nonempty, hp.parentHash, hp.number, hp.timestamp, hp.bounded, hp.txRoot,
    hp.coinbase, hp.dryRun⟩

/-- The timestamp of a prepared block is after its parent's, when the clock
reads a time that a 64-bit word holds. -/
theorem Prepared.after_parent {c : Chain} {parent : Block} {now : Int} {txs : List SignedTx}
    {coinbase : Address} {b : Block} (hp : Prepared c parent now txs coinbase b) (hnow : now < 2 ^ 63) :
    parent.header.timestamp.toInt < b.header.timestamp.toInt := by
  have hlow := Int64.le_toInt parent.header.timestamp
  have hbound := hp.bounded
  rw [hp.timestamp, Int64.toInt_ofInt_of_le (by omega) (by omega)]
  omega

/-! ## A mined block is new -/

/-- Every block of a lineage carries its own hash and a number below the
lineage's length. -/
theorem Lineage.sealed_of_mem {bits : Nat} {bs : List Block} (h : Lineage bits bs) :
    ∀ x ∈ bs, x.header.computeHash = x.hash ∧ x.header.number.toNat < bs.length := by
  induction h with
  | genesis number _ hash _ =>
    intro x hx
    obtain rfl := List.mem_singleton.mp hx
    refine ⟨hash, ?_⟩
    simp [number]
  | cons _ number _ hash _ _ _ _ ih =>
    intro x hx
    rcases List.mem_cons.mp hx with rfl | hx
    · refine ⟨hash, ?_⟩
      rw [number]
      exact Nat.lt_succ_self _
    · obtain ⟨hhash, hlt⟩ := ih x hx
      exact ⟨hhash, Nat.lt_succ_of_lt hlt⟩

/-- A sealed header numbered as the next block has a hash that keys no record
of the chain, unless it collides with the hash of a block of the chain. -/
theorem get?_block_eq_none {c : Chain} {m : KvMap} {blocks : List Block} (hw : WellFormed c m blocks)
    (hkeyed : BlocksKeyed m blocks) {h : Header} (hhash : h.computeHash = h.hash)
    (hnumber : h.number = c.tip.nextNumber)
    (hcoll : ∀ x ∈ blocks, sha256 x.header.canonical = sha256 h.canonical → x.header.canonical = h.canonical) :
    m.get? (Keys.block h.hash.bytes) = none := by
  cases hget : m.get? (Keys.block h.hash.bytes) with
  | none => rfl
  | some v =>
    obtain ⟨x, hx, hkey⟩ := hkeyed _ v hget h.hash.size_eq
    have hxhash : h.hash = x.hash := Digest.ext_bytes hkey
    obtain ⟨hsealed, hlt⟩ := hw.lineage.sealed_of_mem x hx
    -- a block of the chain under the same hash has the same preimage, so the same number
    have hcanon := hcoll x hx (by
      show x.header.computeHash = h.computeHash
      rw [hsealed, hhash, hxhash])
    rw [Header.number_eq_of_canonical hcanon, hnumber, ChainTip.nextNumber, ← hw.length] at hlt
    exact absurd hlt (Nat.lt_irrefl _)

/-- A chain does not know a block whose hash keys no record: its cache holds
stored blocks only. -/
theorem containsBlock_eq_false {c : Chain} {m : KvMap} {d : Digest} (hm : c.store.Faithful m)
    (hcache : CacheSound m c.cache) (hnone : m.get? (Keys.block d.bytes) = none) :
    c.containsBlock d = .ok false := by
  unfold containsBlock
  cases hpeek : c.cache.peek d with
  | some x =>
    obtain ⟨hkey, bytes, hget, -⟩ := hcache _ (Lru.mem_of_peek hpeek)
    rw [← show d = x.hash from hkey, hnone] at hget
    cases hget
  | none =>
    rw [if_neg (by simp), hm.contains, hnone]
    rfl

/-! ## Appending a mined block -/

/-- A header that links to the tip by its parent, carries a hash that is not
zero and the next number, follows the tip. -/
theorem validateNext_of_links {tip : ChainTip} {h : Header} (hparent : h.parentHash = tip.hash)
    (hzero : h.hash.isZero = false) (hnumber : h.number = tip.nextNumber) : validateNext tip h = .ok () := by
  simp [validateNext, hparent, hzero, hnumber, pure, Except.pure]

/-- An application whose roots and nether total are the header's passes the
check against it. -/
theorem checkApplied_of_roots {applied : Application} {h : Header} (hstate : applied.stateRoot = h.stateRoot)
    (hreceipt : applied.receiptRoot = h.receiptRoot) (hused : applied.netherUsed = h.netherUsed) :
    checkApplied applied h = .ok () := by
  simp [checkApplied, hstate, hreceipt, hused, pure, Except.pure]

/-- A block that follows the tip, has a valid body, and is younger than the
stored block at the tip passes the checks of an append. -/
theorem checkNext_of_stored {c : Chain} {m : KvMap} {p b : Block} (hm : c.store.Faithful m)
    (hcache : CacheSound m c.cache) (hp : Stored m p) (hphash : p.hash = c.tip.hash)
    (hnext : validateNext c.tip b.header = .ok ()) (hbody : b.validateBody c.difficulty = .ok ())
    (htime : p.header.timestamp.toInt < b.header.timestamp.toInt) :
    ∃ c₁, (checkNext b).run.run c = (.ok (), c₁) := by
  obtain ⟨c₁, hget, -, -⟩ := getBlock_stored hm hcache hp
  rw [hphash] at hget
  refine ⟨c₁, ?_⟩
  rw [checkNext_run]
  simp only [hnext, hbody, hget, if_neg (Int.not_le.mpr htime)]

/-- A block whose application over a store in memory gives its header's roots
commits. -/
theorem update_commitBlock_ok {s : Store} (hs : s.InMemory) {b : Block} (length : UInt64)
    {applied : Application} {t : Txn} (happly : (Ledger.applyBlockIn b).run ⟨s, []⟩ = .ok (applied, t))
    (hcheck : checkApplied applied b.header = .ok ()) :
    ∃ store, s.update (commitBlock b length) = .ok (applied.receipts, store) := by
  obtain ⟨m, rfl⟩ := hs
  rw [Store.update_memory, commitBlock_run, happly]
  simp only [hcheck, Except.map]
  exact ⟨_, rfl⟩

/-- The application of a block's transactions under its sealed header gives
the roots of their dry run under any other header. -/
theorem applyBlockIn_resealed {h₀ h : Header} {txs : List SignedTx} {s : Store} {applied₀ : Application}
    {t₀ : Txn} (hdry : (Ledger.applyBlockIn ⟨h₀, txs⟩).run ⟨s, []⟩ = .ok (applied₀, t₀)) :
    ∃ applied t, (Ledger.applyBlockIn ⟨h, txs⟩).run ⟨s, []⟩ = .ok (applied, t) ∧
      applied.stateRoot = applied₀.stateRoot ∧ applied.receiptRoot = applied₀.receiptRoot ∧
      applied.netherUsed = applied₀.netherUsed := by
  have hlike := @Ledger.applyBlockIn_reheader h₀ h txs ⟨s, []⟩ ⟨s, []⟩ rfl
  rw [hdry] at hlike
  cases hreal : (Ledger.applyBlockIn ⟨h, txs⟩).run ⟨s, []⟩ with
  | error e =>
    rw [hreal] at hlike
    cases hlike
  | ok p =>
    obtain ⟨applied, t⟩ := p
    rw [hreal] at hlike
    obtain ⟨hroots, -⟩ := RunAlike.ok_inv hlike
    simp only [Prod.mk.injEq] at hroots
    obtain ⟨hstate, hreceipt, hused⟩ := hroots
    exact ⟨applied, t, rfl, hstate.symm, hreceipt.symm, hused.symm⟩

/-! ## Production agrees with acceptance -/

/-- What the block `b` mined on `c` from `txs` for `coinbase` is, when the
clock read `rewardTime` for the reward: the chosen transactions followed by the
reward they earn, paid to the coinbase for the block's number, the next
number; a reward and a body that pass their checks; and roots from a dry run
under a header of zero hash that the application under the block's own header
recomputes. -/
structure Mined (c : Chain) (rewardTime : Int) (txs : List SignedTx) (coinbase : Address) (b : Block) :
    Prop where
  reward : ∃ v, Block.reward txs = .ok v ∧
    b.transactions = txs ++ [SignedTx.reward coinbase v b.header.number (Int64.ofInt rewardTime)]
  number : b.header.number = c.tip.length
  coinbase : b.header.coinbase = coinbase
  validReward : b.validateReward = .ok ()
  validBody : b.validateBody c.difficulty = .ok ()
  roots : ∃ h₀ applied₀ t₀ applied t, h₀.hash = Digest.zero ∧
    (Ledger.applyBlockIn ⟨h₀, b.transactions⟩).run ⟨c.store, []⟩ = .ok (applied₀, t₀) ∧
    (Ledger.applyBlockIn b).run ⟨c.store, []⟩ = .ok (applied, t) ∧
    applied₀.stateRoot = b.header.stateRoot ∧ applied₀.receiptRoot = b.header.receiptRoot ∧
    applied₀.netherUsed = b.header.netherUsed ∧
    applied.stateRoot = b.header.stateRoot ∧ applied.receiptRoot = b.header.receiptRoot ∧
    applied.netherUsed = b.header.netherUsed

/-- Block production agrees with block acceptance.  On a reachable chain kept
in memory, a block mined on any number of workers from transactions that are
no rewards and of acceptable size is the block described by `Mined`, and
appending it to the chain that mining left extends the chain by one.  This
holds whatever the clock read for the reward, when it read for the block a
time a 64-bit word holds, the length has a successor in 64 bits, the mined
hash is not zero, and SHA-256 has no collision between the header and those
of the chain, or between two of the block's transactions. -/
theorem mined_block_extends_chain {c : Chain} (hc : Reachable c) (hmem : c.store.InMemory) :
    ∃ m blocks, WellFormed c m blocks ∧
      ∀ (rewardTime now : Int) (txs : List SignedTx) (coinbase : Address) (threads : UInt64)
        (watch : Nat → Mining.Watch) (b : Block) (c' : Chain),
        (∀ s ∈ txs, s.isReward = false ∧ s.validateSize = .ok ()) → now < 2 ^ 63 →
        c.tip.length.toNat + 1 < 2 ^ 64 →
        (mineBlock rewardTime now txs coinbase threads watch).run.run c = (.ok b, c') →
        b.hash.isZero = false →
        (∀ x ∈ blocks, sha256 x.header.canonical = sha256 b.header.canonical →
          x.header.canonical = b.header.canonical) →
        (∀ s ∈ b.transactions, ∀ s' ∈ b.transactions, sha256 s.tx.canonical = sha256 s'.tx.canonical →
          s.tx.canonical = s'.tx.canonical) →
        Mined c rewardTime txs coinbase b ∧
          ∃ receipts c'', (append b).run.run c' = (.ok (.extended b.hash (c.tip.length + 1) receipts), c'') := by
  obtain ⟨g, hgrown⟩ := reachable_iff_grown.mp hc
  obtain ⟨m, blocks, σ, hb, hkeyed⟩ := hgrown.keyed
  have hw := hb.wellFormed
  refine ⟨m, blocks, hw, ?_⟩
  intro rewardTime now txs coinbase threads watch b c' htxs hnow hlen hmine hzero hheaders htxcoll
  obtain ⟨v, b₀, hreward, hprep, hseal⟩ := mineBlock_run hmine
  obtain ⟨parent, hget, hp₀⟩ := prepareBlock_prepared hprep
  have hp := hp₀.seal hseal
  obtain ⟨-, -, hhash, hvalid⟩ := Mining.mineBlockWith_ok hseal
  have hwork : Target.meets b.hash c.difficulty = true := by rwa [Mining.validate, hhash] at hvalid
  -- preparing read the stored block at the tip, and changed the cache only
  obtain ⟨tipBlock, rest, hblocks, htiphash⟩ := hw.tip
  have hstored := hw.stored tipBlock (by rw [hblocks]; exact List.mem_cons_self)
  obtain ⟨c₁, hget₁, hframe₁, hcache₁⟩ := getBlock_stored hw.faithful hw.cache hstored
  rw [htiphash, hget, Prod.mk.injEq, Except.ok.injEq] at hget₁
  obtain ⟨rfl, rfl⟩ := hget₁
  have hw' := hw.of_frame hframe₁ hcache₁
  -- the transactions of the block: the chosen ones and their reward
  have htxs' : b.transactions =
      txs ++ [SignedTx.reward b.header.coinbase v b.header.number (Int64.ofInt rewardTime)] := by
    rw [hp.transactions, hp.coinbase, hp.number]
  have hsizes := Block.validateSize_append_reward (fun s hs => (htxs s hs).2) b.header.coinbase v
    b.header.number (Int64.ofInt rewardTime)
  rw [← htxs'] at hsizes
  -- the dry run applies them, so they are distinct
  obtain ⟨h₀, applied₀, t₀, hzero₀, hdry, hstate₀, hreceipt₀, hused₀⟩ := hp.dryRun
  rw [← hp.transactions] at hdry
  obtain ⟨σ', happ, -⟩ := Ledger.applyBlockIn_reads hb.reads hdry
  have hnodup_tx := Block.nodup_tx_of_applies (htxs' ▸ happ) (fun s hs => (htxs s hs).1)
    (SignedTx.isReward_reward _ _ _ _)
  rw [← htxs'] at hnodup_tx
  have hnodup := Block.nodup_hash_of_nodup_tx hnodup_tx hsizes htxcoll
  have hbody := Block.validateBody_mined hhash hwork (hp.txRoot.trans (congrArg _ hp.transactions.symm))
    htxs' hreward (fun s hs => (htxs s hs).1) hsizes hnodup
  -- the application under the sealed header recomputes the roots of the dry run
  obtain ⟨applied, t, hreal, hstate, hreceipt, hused⟩ := @applyBlockIn_resealed h₀ b.header _ _ _ _ hdry
  refine ⟨⟨⟨v, hreward, by rw [hp.transactions, hp.number]⟩, hp.number, hp.coinbase,
    Block.validateReward_mined htxs' hreward fun s hs => (htxs s hs).1, hbody,
    ⟨h₀, applied₀, t₀, applied, t, hzero₀, hdry, hreal, hstate₀, hreceipt₀, hused₀,
      hstate.trans hstate₀, hreceipt.trans hreceipt₀, hused.trans hused₀⟩⟩, ?_⟩
  -- the append: the block is new, passes the checks and commits
  have hnone := get?_block_eq_none hw hkeyed hhash hp.number hheaders
  have hknown : c'.containsBlock b.hash = .ok false := containsBlock_eq_false hw'.faithful hw'.cache hnone
  have hnext : validateNext c'.tip b.header = .ok () := by
    rw [hframe₁.tip]
    exact validateNext_of_links hp.parentHash hzero hp.number
  have hdiff : c'.difficulty = c.difficulty := by
    unfold difficulty
    rw [hframe₁.genesis]
  obtain ⟨c₂, hcheck⟩ := checkNext_of_stored hw'.faithful hw'.cache hstored
    (by rw [hframe₁.tip]; exact htiphash) hnext (hdiff ▸ hbody) (hp.after_parent hnow)
  have hframe₂ : Frame c' c₂ := by
    have hframe := checkNext_frame b c'
    rwa [hcheck] at hframe
  have hadd : addWord c₂.tip.length 1 = .ok (c.tip.length + 1) := by
    rw [hframe₂.tip, hframe₁.tip, addWord, if_pos (by simpa using hlen)]
  obtain ⟨store, hupdate⟩ := update_commitBlock_ok (hframe₂.store.trans hframe₁.store ▸ hmem)
    (c.tip.length + 1) (hframe₂.store.trans hframe₁.store ▸ hreal)
    (checkApplied_of_roots (hstate.trans hstate₀) (hreceipt.trans hreceipt₀) (hused.trans hused₀))
  refine ⟨applied.receipts, ?_⟩
  rw [append_run, hknown]
  simp only [hcheck, hadd, hupdate]
  exact ⟨_, rfl⟩

/-- What the kernel computes of mining on the funded chain, as one flag: four
workers that nothing stops, mining from no chosen transactions with the reward
dated 5 and the block 7, seal a block of one transaction under `minedBlock`'s
hash, which is neither zero nor block 0's. -/
theorem fundedChain_mining_check :
    (Chain.bootstrap {} fundedGenesis).map (fun c₀ =>
      match (mineBlock 5 7 [] minerAddress 4 fun _ => Mining.Watch.calm).run.run c₀ with
      | (.ok b, _) =>
        decide (b.hash = minedBlock.hash) && !b.hash.isZero && !decide (c₀.tip.hash = b.hash) &&
          b.transactions.length == 1
      | _ => false) = .ok true := by
  decide +kernel

/-- Mining on the funded chain spelled out. -/
theorem fundedChain_mining :
    ∃ c₀ b c₀', Chain.bootstrap {} fundedGenesis = .ok c₀ ∧
      (mineBlock 5 7 [] minerAddress 4 fun _ => Mining.Watch.calm).run.run c₀ = (.ok b, c₀') ∧
      b.hash = minedBlock.hash ∧ b.hash.isZero = false ∧ c₀.tip.hash ≠ b.hash ∧ b.transactions.length = 1 := by
  obtain ⟨c₀, hboot, hcheck⟩ := Except.map_eq_ok.mp fundedChain_mining_check
  cases hmine : (mineBlock 5 7 [] minerAddress 4 fun _ => Mining.Watch.calm).run.run c₀ with
  | mk r c₀' =>
  rw [hmine] at hcheck
  rcases r with e | b
  · cases hcheck
  · simp only [Bool.and_eq_true, Bool.not_eq_true', beq_iff_eq, decide_eq_true_eq,
      decide_eq_false_iff_not] at hcheck
    obtain ⟨⟨⟨hsame, hzero⟩, hne⟩, hone⟩ := hcheck
    exact ⟨c₀, b, c₀', hboot, hmine, hsame, hzero, hne, hone⟩

/-- On the funded sample chain, four workers mining from no chosen
transactions, the clock read at 5 for the reward and at 7 for the block, seal
a block under `minedBlock`'s hash: the block `Mined` describes, which extends
the chain that mining left to two blocks. -/
theorem mined_block_extends_chain_sample :
    ∃ c₀ b c₀', Chain.bootstrap {} fundedGenesis = .ok c₀ ∧
      (mineBlock 5 7 [] minerAddress 4 fun _ => Mining.Watch.calm).run.run c₀ = (.ok b, c₀') ∧
      b.hash = minedBlock.hash ∧ Mined c₀ 5 [] minerAddress b ∧
      ∃ receipts c'', (append b).run.run c₀' = (.ok (.extended b.hash 2 receipts), c'') := by
  obtain ⟨c₀, b, c₀', hboot, hmine, hsame, hzero, hne, hone⟩ := fundedChain_mining
  obtain ⟨c, -, -, hboot', hg₀, hlen, -⟩ := grown_fundedChain
  obtain rfl : c = c₀ := Except.ok.inj (hboot'.symm.trans hboot)
  have hr : Reachable c := reachable_iff_grown.mpr ⟨_, hg₀⟩
  obtain ⟨m, blocks, hw, hprod⟩ := mined_block_extends_chain hr (inMemory_bootstrap ⟨{}, rfl⟩ hboot)
  -- the chain holds block 0 alone, whose hash is not the mined block's
  obtain ⟨tipBlock, rest, hblocks, htip⟩ := hw.tip
  have hrest : rest = [] := by
    have hlength := hw.length
    rw [hblocks, hlen] at hlength
    simpa using hlength
  subst hrest
  obtain ⟨v, b₀, -, -, hseal⟩ := mineBlock_run hmine
  obtain ⟨-, -, hhash, -⟩ := Mining.mineBlockWith_ok hseal
  have hheaders : ∀ x ∈ blocks, sha256 x.header.canonical = sha256 b.header.canonical →
      x.header.canonical = b.header.canonical := by
    intro x hx hsha
    rw [hblocks, List.mem_singleton] at hx
    subst hx
    have hsealed := (hw.lineage.sealed_of_mem x (by rw [hblocks]; exact List.mem_singleton_self x)).1
    exact absurd (htip.symm.trans (hsealed.symm.trans (hsha.trans hhash))) hne
  -- one transaction collides only with itself
  obtain ⟨t, ht⟩ := List.length_eq_one_iff.mp hone
  have htxs : ∀ s ∈ b.transactions, ∀ s' ∈ b.transactions,
      sha256 s.tx.canonical = sha256 s'.tx.canonical → s.tx.canonical = s'.tx.canonical := by
    intro s hs s' hs' _
    rw [ht, List.mem_singleton] at hs hs'
    rw [hs, hs']
  obtain ⟨hmined, receipts, c'', happ⟩ := hprod 5 7 [] minerAddress 4 (fun _ => Mining.Watch.calm) b c₀'
    (by simp) (by norm_num) (by rw [hlen]; decide) hmine hzero hheaders htxs
  rw [hlen] at happ
  exact ⟨c, b, c₀', hboot, hmine, hsame, hmined, receipts, c'', happ⟩

end Chain
end PowChain
