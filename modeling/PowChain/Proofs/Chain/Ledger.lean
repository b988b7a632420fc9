import PowChain.Proofs.Chain.WellFormed
import PowChain.Proofs.Ledger.Accounts
import PowChain.Proofs.Codec.Preimage

/-!
# The ledger a chain keeps

A chain grown from a genesis record keeps a ledger besides being well formed:
its store reads the accounts that the rules of `Ledger.Applies` reach from the
genesis allocation by the transactions of its blocks, oldest block first.

* `Ledger.initial` — the accounts of an allocation, and `supply_initial`, the
  balances it holds;
* `Txn.Reads.of_view` — a store that shows a transaction's view reads every
  account as the transaction did;
* `Chain.Grown` — the chains grown from one genesis record, the reachable
  chains of `Reachable` with the record they started from;
* `Chain.Booked` — the invariant, kept by a bootstrap (`booked_bootstrap`),
  by every append (`Booked.append`) and by reopening (`Booked.resume`), so
  by every grown chain (`Grown.booked`).
-/

namespace PowChain

/-! ## The accounts of an allocation -/

namespace Ledger

/-- The accounts of a genesis allocation: each listed address holds its entry,
a later entry over an earlier one, and every other address the empty account. -/
def initial (alloc : List (Address × Account)) : Accounts :=
  alloc.foldl (fun σ x => Function.update σ x.1 x.2) fun _ => {}

theorem foldl_update_of_not_mem (l : List (Address × Account)) (σ : Accounts) {a : Address}
    (ha : a ∉ l.map Prod.fst) : l.foldl (fun σ x => Function.update σ x.1 x.2) σ a = σ a := by
  induction l generalizing σ with
  | nil => rfl
  | cons x l ih =>
    simp only [List.map_cons, List.mem_cons, not_or] at ha
    rw [List.foldl_cons, ih _ ha.2, Function.update_of_ne ha.1]

theorem initial_of_not_mem {alloc : List (Address × Account)} {a : Address}
    (ha : a ∉ alloc.map Prod.fst) : initial alloc a = {} :=
  foldl_update_of_not_mem alloc _ ha

/-- Filling empty slots, each address once, adds the balances filled in. -/
theorem supply_foldl_update {l : List (Address × Account)} (hl : (l.map Prod.fst).Nodup)
    {A : Finset Address} (hA : ∀ x ∈ l, x.1 ∈ A) (σ : Accounts) (hσ : ∀ x ∈ l, σ x.1 = {}) :
    supply (l.foldl (fun σ x => Function.update σ x.1 x.2) σ) A =
      supply σ A + (l.map (·.2.balance.toNat)).sum := by
  induction l generalizing σ with
  | nil => simp
  | cons x l ih =>
    simp only [List.map_cons, List.nodup_cons] at hl
    -- the slots of the rest stay empty after `x` fills its own
    have hrest : ∀ y ∈ l, Function.update σ x.1 x.2 y.1 = {} := fun y hy => by
      have hne : y.1 ≠ x.1 := fun h => hl.1 (h ▸ List.mem_map_of_mem hy)
      rw [Function.update_of_ne hne, hσ y (List.mem_cons_of_mem x hy)]
    have hstep := supply_update σ (hA x List.mem_cons_self) x.2
    rw [hσ x List.mem_cons_self] at hstep
    rw [List.foldl_cons, ih hl.2 (fun y hy => hA y (List.mem_cons_of_mem x hy)) _ hrest,
      List.map_cons, List.sum_cons]
    simp only [UInt64.toNat_zero] at hstep
    omega

/-- An allocation that lists each address once holds the sum of its balances. -/
theorem supply_initial {alloc : List (Address × Account)} (hl : (alloc.map Prod.fst).Nodup) :
    supply (initial alloc) (alloc.map Prod.fst).toFinset = (alloc.map (·.2.balance.toNat)).sum := by
  have hA : ∀ x ∈ alloc, x.1 ∈ (alloc.map Prod.fst).toFinset := fun x hx =>
    List.mem_toFinset.mpr (List.mem_map_of_mem hx)
  rw [initial, supply_foldl_update hl hA _ (fun _ _ => rfl)]
  simp [supply]

end Ledger

theorem nodup_foldl_dedup :
    ∀ (l acc : List (Address × Account)), (acc.map Prod.fst).Nodup →
      ((l.foldl (fun acc p => acc.filter (·.1 != p.1) ++ [p]) acc).map Prod.fst).Nodup := by
  intro l
  induction l with
  | nil => exact fun acc h => h
  | cons p l ih =>
    intro acc hacc
    apply ih
    rw [List.map_append, List.nodup_append]
    refine ⟨hacc.sublist (List.filter_sublist.map _), by simp, ?_⟩
    simp

/-- Sorting an allocation keeps one entry per address. -/
theorem sortAccounts_nodup (l : List (Address × Account)) : ((sortAccounts l).map Prod.fst).Nodup :=
  ((Bytes.perm_sortByKey _ _).map Prod.fst).nodup_iff.mpr (nodup_foldl_dedup l [] List.nodup_nil)

theorem Genesis.accounts_nodup {g : Genesis} {alloc : List (Address × Account)}
    (h : g.accounts = .ok alloc) : (alloc.map Prod.fst).Nodup := by
  unfold Genesis.accounts at h
  obtain ⟨l, -, h⟩ := Except.bind_eq_ok.mp h
  cases h
  exact sortAccounts_nodup l

/-! ## Reading accounts through a store -/

namespace Txn

/-- A store that shows nothing reads every account empty. -/
theorem reads_empty {s : Store} (hs : s.Faithful {}) : (⟨s, []⟩ : Txn).Reads fun _ => {} := by
  intro a
  have hget : (⟨s, []⟩ : Txn).get? (Keys.balance a.encode) = .ok none := hs.get? _
  rw [account_eq, hget]

namespace Reads

variable {σ : Ledger.Accounts}

/-- A store showing a transaction's view reads every account as the
transaction does. -/
theorem of_view {s' : Store} {t : Txn} {m : KvMap} (hσ : t.Reads σ) (hs : t.base.Shows m)
    (hb : t.batch.KeysNodup) (hs' : s'.Faithful (t.view m)) : (⟨s', []⟩ : Txn).Reads σ := by
  intro a
  have hget : (⟨s', []⟩ : Txn).get? (Keys.balance a.encode) = t.get? (Keys.balance a.encode) := by
    rw [get?_eq hs hb]
    exact hs'.get? _
  rw [account_eq, hget, ← account_eq]
  exact hσ a

/-- Writing each entry of an allocation to its balance record, in order. -/
theorem forIn_putAccount {f : Address × Account → PUnit → TxnM (ForInStep PUnit)}
    (hf : ∀ x t, (f x ⟨⟩).run t = .ok (.yield ⟨⟩, t.set (Keys.balance x.1.encode) x.2.toWire)) :
    ∀ (l : List (Address × Account)) (t : Txn) (σ : Ledger.Accounts) {p : PUnit × Txn}, t.Reads σ →
      (forIn l ⟨⟩ f).run t = .ok p → p.2.Reads (l.foldl (fun σ x => Function.update σ x.1 x.2) σ) := by
  intro l
  induction l with
  | nil =>
    intro t σ p hσ h
    cases h
    exact hσ
  | cons x l ih =>
    intro t σ p hσ h
    simp only [List.forIn_cons, StateT.run_bind, hf x t] at h
    exact ih _ _ (hσ.set_balance x.1 x.2) h

/-- Keys shorter than a balance record leave every account. -/
theorem set_short {t : Txn} (hσ : t.Reads σ) {k : ByteArray} (hk : k.size < 33) (v : ByteArray) :
    (t.set k v).Reads σ :=
  hσ.set_other (Keys.ne_balance_of_size hk) v

end Reads

end Txn

theorem Store.Faithful.unique {s : Store} {m₁ m₂ : KvMap} (h₁ : s.Faithful m₁) (h₂ : s.Faithful m₂) :
    m₁ = m₂ :=
  KvMap.ext_of_sorted h₁.sorted h₂.sorted fun k => Except.ok.inj ((h₁.get? k).symm.trans (h₂.get? k))

/-! ## Receipt records -/

namespace Keys

theorem size_receipt (d : Digest) : (receipt d.bytes).size = 40 := by
  have hp : receiptPrefix.size = 8 := by decide
  simp [receipt, ByteArray.size_append, hp, d.size_eq]

theorem receipt_inj {d d' : Digest} (h : receipt d.bytes = receipt d'.bytes) : d = d' := by
  have hlist := congrArg ByteArray.toList h
  simp only [receipt, Bytes.toList_append, List.append_cancel_left_eq] at hlist
  exact Chain.Digest.ext_bytes (Bytes.toList_inj.mp hlist)

theorem transaction_ne_receipt (h : ByteArray) (d : Digest) : transaction h ≠ receipt d.bytes := by
  intro heq
  have hhead := congrArg (fun k : ByteArray => k.toList.head?) heq
  simp only [transaction, receipt] at hhead
  rw [head?_append (by decide), head?_append (by decide)] at hhead
  exact absurd hhead (by decide +kernel)

end Keys

namespace Chain

/-- An extending append leaves the receipt record of every hash that no
transaction of its block carries. -/
theorem Commits.get?_receipt {b : Block} {length : UInt64} {m m' : KvMap} (h : Commits b length m m')
    {x : Digest} (hx : ∀ s ∈ b.transactions, s.hash ≠ x) :
    m'.get? (Keys.receipt x.bytes) = m.get? (Keys.receipt x.bytes) := by
  have hsize := Keys.size_receipt x
  have hblock : (Keys.block b.hash.bytes).size = 32 := b.hash.size_eq
  refine h.frame _ (fun heq => ?_) (fun heq => ?_) (fun heq => ?_) ?_
  · rw [heq] at hsize
    omega
  · rw [heq, Keys.size_tip] at hsize
    cases hsize
  · rw [heq, Keys.size_chainLength] at hsize
    cases hsize
  · rintro ⟨s, hs, htx | hrec | ⟨a, -, hbal⟩⟩
    · exact Keys.transaction_ne_receipt _ x htx.symm
    · exact hx s hs (Keys.receipt_inj hrec.symm)
    · exact Keys.receipt_ne_balance _ a hbal

/-! ## Committing a block moves the accounts by the rules -/

/-- Committing a block over a store that reads `σ` leaves a store that reads
the accounts the rules reach from `σ` by the block's transactions. -/
theorem update_commitBlock_reads {b : Block} {length : UInt64} {s s' : Store} {m : KvMap}
    {receipts : List Receipt} {σ : Ledger.Accounts} (hs : s.Faithful m) (hσ : (⟨s, []⟩ : Txn).Reads σ)
    (h : s.update (commitBlock b length) = .ok (receipts, s')) :
    ∃ σ', Ledger.Applies σ b.transactions σ' ∧ (⟨s', []⟩ : Txn).Reads σ' := by
  obtain ⟨t, hrun, hfaithful⟩ := hs.update h
  rw [commitBlock_run] at hrun
  cases happly : (Ledger.applyBlockIn b).run ⟨s, []⟩ with
  | error e => simp [happly] at hrun
  | ok p =>
    obtain ⟨applied, t₁⟩ := p
    rw [happly] at hrun
    cases hcheck : checkApplied applied b.header with
    | error e => simp [hcheck, Except.map] at hrun
    | ok u =>
      simp only [hcheck, Except.map, Except.ok.injEq, Prod.mk.injEq] at hrun
      obtain ⟨-, rfl⟩ := hrun
      obtain ⟨σ', happ, hσ'⟩ := Ledger.applyBlockIn_reads hσ happly
      have hw := Ledger.applyBlockIn_writesWithin happly
      have hnd₁ := hw.nodup List.nodup_nil
      have hnd₂ := Txn.keysNodup_set hnd₁ (Keys.block b.hash.bytes) b.toBytes
      have hnd₃ := Txn.keysNodup_set hnd₂ Keys.tip b.hash.bytes
      have hbase : t₁.base = s := hw.base
      have hblock : (Keys.block b.hash.bytes).size < 33 := by
        have := b.hash.size_eq
        simp only [Keys.block]
        omega
      -- block, tip and length are no balance records
      have hreads := ((hσ'.set_short hblock b.toBytes).set_short (by rw [Keys.size_tip]; omega)
        b.hash.bytes).set_short (by rw [Keys.size_chainLength]; omega) (Wire.u64 length)
      exact ⟨σ', happ, hreads.of_view (by rw [← hbase] at hs; exact hs.shows)
        (Txn.keysNodup_set hnd₃ _ _) hfaithful⟩

/-! ## Grown chains -/

/-- The transactions of a chain's blocks, given newest first, in the order
they were applied: oldest block first, and each block's in order. -/
def appliedTxs (blocks : List Block) : List SignedTx := blocks.reverse.flatMap (·.transactions)

@[simp] theorem appliedTxs_nil : appliedTxs [] = [] := rfl

@[simp] theorem appliedTxs_cons (b : Block) (blocks : List Block) :
    appliedTxs (b :: blocks) = appliedTxs blocks ++ b.transactions := by
  simp [appliedTxs]

theorem mem_appliedTxs {s : SignedTx} {blocks : List Block} :
    s ∈ appliedTxs blocks ↔ ∃ b ∈ blocks, s ∈ b.transactions := by
  simp [appliedTxs]

/-- The chains grown from the genesis record `g`: bootstrapped from `g` into a
store that holds nothing, if the hash of block 0 is not zero; then left by an
append of any block of fewer than `2 ^ 64` transactions, whatever the append
returned, or reopened from the store. -/
inductive Grown (g : Genesis) : Chain → Prop
  | bootstrap {s : Store} {c : Chain} (empty : s.Faithful {}) (boot : Chain.bootstrap s g = .ok c)
      (nonzero : c.tip.hash.isZero = false) : Grown g c
  | append {c c' : Chain} {b : Block} {r : Except LedgerError AppendOutcome} (prev : Grown g c)
      (fits : b.transactions.length < 2 ^ 64) (run : (Chain.append b).run.run c = (r, c')) :
      Grown g c'
  | resume {c c' : Chain} (prev : Grown g c) (run : Chain.resume c.store = .ok c') : Grown g c'

/-- The reachable chains are the chains grown from some genesis record. -/
theorem reachable_iff_grown {c : Chain} : Reachable c ↔ ∃ g, Grown g c := by
  constructor
  · intro h
    induction h with
    | bootstrap empty boot nonzero => exact ⟨_, .bootstrap empty boot nonzero⟩
    | append _ fits run ih =>
      obtain ⟨g, hg⟩ := ih
      exact ⟨g, .append hg fits run⟩
    | resume _ run ih =>
      obtain ⟨g, hg⟩ := ih
      exact ⟨g, .resume hg run⟩
  · rintro ⟨g, h⟩
    induction h with
    | bootstrap empty boot nonzero => exact .bootstrap empty boot nonzero
    | append _ fits run ih => exact .append ih fits run
    | resume _ run ih => exact .resume ih run

/-- The chains of the funded sample are grown from `fundedGenesis`: `c₀`,
bootstrapped from it, and `c₁`, which `minedBlock` extends from `c₀` and on
which the parties of `Ledger.toppedTransfer` hold nonce 0. -/
theorem grown_fundedChain :
    ∃ c₀ rs c₁, Chain.bootstrap {} fundedGenesis = .ok c₀ ∧ Grown fundedGenesis c₀ ∧ c₀.tip.length = 1 ∧
      (append minedBlock).run.run c₀ = (.ok (.extended minedBlock.hash 2 rs), c₁) ∧
      Grown fundedGenesis c₁ ∧ c₁.tip.length = 2 ∧
      (c₁.store.account Ledger.toppedTransfer.tx.sender).toOption.map Account.nonce = some 0 ∧
      (c₁.store.account Ledger.toppedTransfer.tx.recipient).toOption.map Account.nonce = some 0 := by
  obtain ⟨c₀, rs, c₁, -, hboot, hzero, hlen, happ, hsender, hrecipient, -⟩ := fundedChain_appends
  have hg₀ : Grown fundedGenesis c₀ := .bootstrap Store.faithful_empty hboot hzero
  refine ⟨c₀, rs, c₁, hboot, hg₀, hlen, happ, .append hg₀ (by decide) happ, ?_, hsender, hrecipient⟩
  rw [tip_of_extended happ]

/-! ## The invariant -/

/-- What a chain grown from `g` keeps, over the map `m` its store shows, its
blocks `blocks`, newest first, and the accounts `σ`: it is well formed and
holds `g`'s difficulty and document; its store reads the accounts `σ`, which
the rules reach from `g`'s allocation by the transactions of its blocks;
every block after block 0 has a valid body and block 0 none; and every stored
receipt is that of a transaction of its blocks. -/
structure Booked (g : Genesis) (c : Chain) (m : KvMap) (blocks : List Block) (σ : Ledger.Accounts) :
    Prop where
  wellFormed : WellFormed c m blocks
  difficulty : c.genesis.difficulty = g.difficulty
  genesisDoc : m.get? Keys.genesis = some g.toJson.toUTF8
  reads : ∀ a, c.store.account a = .ok (σ a)
  applies : ∃ alloc, g.accounts = .ok alloc ∧ Ledger.Applies (Ledger.initial alloc) (appliedTxs blocks) σ
  bodies : ∀ b ∈ blocks, b.isGenesis = false → b.validateBody g.difficulty.toNat = .ok ()
  genesisEmpty : ∀ b ∈ blocks, b.isGenesis = true → b.transactions = []
  receipts : ∀ (x : Digest) v, m.get? (Keys.receipt x.bytes) = some v → ∃ s ∈ appliedTxs blocks, s.hash = x

/-- Bootstrapping into a store that shows nothing gives block 0 alone, whose
store reads the accounts of the genesis allocation and holds no receipt. -/
theorem booked_bootstrap {s : Store} {g : Genesis} {c : Chain} (hs : s.Faithful {})
    (h : bootstrap s g = .ok c) (hzero : c.tip.hash.isZero = false) :
    ∃ m blocks σ, Booked g c m blocks σ := by
  obtain ⟨m, block', hblock', hw⟩ := wellFormed_bootstrap_genesis hs h hzero
  obtain ⟨block, alloc, f, t₀, store, hblock, halloc, hf, hloop, hw₀, rfl, hfaithful⟩ :=
    bootstrap_eq_ok hs h
  obtain rfl : block = block' := Except.ok.inj (hblock.symm.trans hblock')
  obtain ⟨hnone, hnumber, -, -⟩ := Genesis.toBlock_ok hblock
  -- the allocation goes first, each entry to its balance record
  have hσ₀ := Txn.Reads.forIn_putAccount hf alloc _ _ (Txn.reads_empty hs) hloop
  have hnd₀ := hw₀.nodup List.nodup_nil
  have hsize : (Keys.block block.hash.bytes).size = 32 := block.hash.size_eq
  have hreads : ∀ a, store.account a = .ok (Ledger.initial alloc a) := by
    have ht := (((hσ₀.set_short (show (Keys.block block.hash.bytes).size < 33 by omega)
      block.toBytes).set_short (by rw [Keys.size_genesis]; omega)
      g.toJson.toUTF8).set_short (by rw [Keys.size_tip]; omega) block.hash.bytes).set_short
      (by rw [Keys.size_chainLength]; omega) (Wire.u64 1)
    have hbase : t₀.base = s := hw₀.base
    refine ht.of_view ?_ ?_ hfaithful
    · rw [← hbase] at hs
      exact hs.shows
    · exact Txn.keysNodup_set (Txn.keysNodup_set (Txn.keysNodup_set (Txn.keysNodup_set hnd₀ _ _) _ _) _ _) _ _
  rw [view_bootRecords hnd₀] at hfaithful
  have hm := hw.faithful.unique hfaithful
  refine ⟨_, [block], Ledger.initial alloc, hw, rfl, ?_, hreads, ⟨alloc, halloc, ?_⟩, ?_, ?_, ?_⟩
  · rw [hm]
    simp [KvMap.get?_insert, Keys.genesis_ne_tip, Keys.genesis_ne_chainLength]
  · simpa [hnone] using Ledger.Applies.nil (Ledger.initial alloc)
  · intro x hx hgen
    obtain rfl := List.mem_singleton.mp hx
    simp [Block.isGenesis, hnumber] at hgen
  · intro x hx _
    obtain rfl := List.mem_singleton.mp hx
    exact hnone
  · -- the allocation and the four records after it write no receipt
    intro x v hx
    have hreceipt := Keys.size_receipt x
    have hne : ∀ k : ByteArray, k.size ≠ 40 → Keys.receipt x.bytes ≠ k := fun k hk heq => hk (heq ▸ hreceipt)
    rw [hm, KvMap.get?_insert, if_neg (hne _ (by rw [Keys.size_chainLength]; omega)), KvMap.get?_insert,
      if_neg (hne _ (by rw [Keys.size_tip]; omega)), KvMap.get?_insert,
      if_neg (hne _ (by rw [Keys.size_genesis]; omega)), KvMap.get?_insert,
      if_neg (hne _ (by omega)), hw₀.view_get? List.nodup_nil {} ?_] at hx
    · simp [Txn.view, KvMap.applyBatch_nil] at hx
    · rintro ⟨a, ha⟩
      exact Keys.receipt_ne_balance _ a ha

variable {g : Genesis} {c c' : Chain} {m : KvMap} {blocks : List Block} {σ : Ledger.Accounts}

/-- Changing only the cache, and keeping it sound, keeps the invariant. -/
theorem Booked.of_frame (hb : Booked g c m blocks σ) (hframe : Frame c c')
    (hcache : CacheSound m c'.cache) : Booked g c' m blocks σ := by
  refine ⟨hb.wellFormed.of_frame hframe hcache, ?_, hb.genesisDoc, ?_, hb.applies, hb.bodies,
    hb.genesisEmpty, hb.receipts⟩
  · rw [hframe.genesis]
    exact hb.difficulty
  · rw [hframe.store]
    exact hb.reads

/-- An append that extends the chain by `b` keeps the invariant, with `b` on
top of the blocks, the accounts moved by its transactions and its records
committed over the map. -/
theorem Booked.extend {c₁ : Chain} {b : Block} {length : UInt64} {receipts : List Receipt}
    {store : Store} (hb : Booked g c m blocks σ) (hfits : b.transactions.length < 2 ^ 64)
    (hknown : c.containsBlock b.hash = .ok false) (hcheck : (checkNext b).run.run c = (.ok (), c₁))
    (hlen : addWord c₁.tip.length 1 = .ok length)
    (hupdate : c₁.store.update (commitBlock b length) = .ok (receipts, store)) :
    ∃ m' σ', Booked g { c₁ with store, tip := ⟨b.hash, length⟩, cache := c₁.cache.put b.hash b } m'
      (b :: blocks) σ' ∧ Ledger.Applies σ b.transactions σ' ∧ Commits b length m m' := by
  have hframe := Frame.of_checkNext hcheck
  have hw := hb.wellFormed
  obtain ⟨p, rest, rfl, hp⟩ := hw.tip
  obtain ⟨m', hw'⟩ := hw.extend hp hfits hknown hcheck hlen hupdate
  have hm₁ : c₁.store.Faithful m := hframe.store ▸ hw.faithful
  obtain ⟨t, hrun, hfaithful⟩ := hm₁.update hupdate
  obtain rfl := hw'.faithful.unique hfaithful
  have hcommits := commitBlock_commits hm₁.sorted hrun
  have hσ₁ : (⟨c₁.store, []⟩ : Txn).Reads σ := by
    rw [hframe.store]
    exact hb.reads
  obtain ⟨σ', happ, hσ'⟩ := update_commitBlock_reads hm₁ hσ₁ hupdate
  obtain ⟨-, hbody, -⟩ := (checkNext_stored hw.faithful hw.cache (hw.stored p List.mem_cons_self) hp
    hcheck).2 rfl
  obtain ⟨alloc, halloc, happlies⟩ := hb.applies
  refine ⟨_, σ', ⟨hw', ?_, ?_, hσ', ⟨alloc, halloc, ?_⟩, ?_, ?_, ?_⟩, happ, hcommits⟩
  · rw [hframe.genesis]
    exact hb.difficulty
  · rw [hcommits.get?_genesis, hb.genesisDoc]
  · rw [appliedTxs_cons]
    exact happlies.append happ
  · intro x hx hgen
    rcases List.mem_cons.mp hx with rfl | hx
    · have hdiff : c.difficulty = g.difficulty.toNat := by
        show c.genesis.difficulty.toNat = _
        rw [hb.difficulty]
      rwa [hdiff] at hbody
    · exact hb.bodies x hx hgen
  · -- `b` is numbered after block 0, so it is not block 0
    intro x hx hgen
    rcases List.mem_cons.mp hx with rfl | hx
    · have hnum := hw'.lineage.number_toNat
      simp only [Block.isGenesis, beq_iff_eq] at hgen
      simp [hgen] at hnum
    · exact hb.genesisEmpty x hx hgen
  · -- a receipt the commit writes is that of a transaction of `b`
    intro x v hx
    by_cases hnew : ∃ s ∈ b.transactions, s.hash = x
    · obtain ⟨s, hs, rfl⟩ := hnew
      exact ⟨s, by rw [appliedTxs_cons]; exact List.mem_append_right _ hs, rfl⟩
    · push Not at hnew
      rw [hcommits.get?_receipt hnew] at hx
      obtain ⟨s, hs, hsx⟩ := hb.receipts x v hx
      exact ⟨s, by rw [appliedTxs_cons]; exact List.mem_append_left _ hs, hsx⟩

/-- Every append keeps the invariant.  One that does not extend the chain
changes the cache at most; one that extends it puts `b` on top of the blocks,
moves the accounts by `b`'s transactions and commits `b`'s records. -/
theorem Booked.append {b : Block} {r : Except LedgerError AppendOutcome} (hb : Booked g c m blocks σ)
    (hfits : b.transactions.length < 2 ^ 64) (h : (append b).run.run c = (r, c')) :
    ((∀ hash length receipts, r ≠ .ok (.extended hash length receipts)) ∧ Booked g c' m blocks σ) ∨
      ∃ length receipts m' σ', r = .ok (.extended b.hash length receipts) ∧
        Booked g c' m' (b :: blocks) σ' ∧ Ledger.Applies σ b.transactions σ' ∧ Commits b length m m' := by
  have hw := hb.wellFormed
  obtain ⟨p, rest, rfl, hp⟩ := hw.tip
  rcases append_cases h with ⟨e, rfl, hstate⟩ | ⟨rfl, rfl⟩ |
    ⟨c₁, length, receipts, store, hknown, hcheck, hlen, hupdate, rfl, rfl⟩
  · refine .inl ⟨fun _ _ _ => nofun, hb.of_frame (append_error_frame hstate) ?_⟩
    rcases hstate with rfl | ⟨x, hx⟩
    · exact hw.cache
    · exact (checkNext_stored hw.faithful hw.cache (hw.stored p List.mem_cons_self) hp hx).1
  · exact .inl ⟨fun _ _ _ => nofun, hb⟩
  · obtain ⟨m', σ', hb', happ, hcommits⟩ := hb.extend hfits hknown hcheck hlen hupdate
    exact .inr ⟨length, receipts, m', σ', rfl, hb', happ, hcommits⟩

/-- Reopening the store keeps the invariant: the store is the same, and the
genesis record read back from the stored document has its difficulty. -/
theorem Booked.resume (hb : Booked g c m blocks σ) (h : Chain.resume c.store = .ok c') :
    Booked g c' m blocks σ := by
  have hw' := hb.wellFormed.resume h
  obtain ⟨g', hdoc, rfl⟩ := hb.wellFormed.resume_eq hb.genesisDoc h
  exact ⟨hw', Genesis.difficulty_ofStored hdoc, hb.genesisDoc, hb.reads, hb.applies, hb.bodies,
    hb.genesisEmpty, hb.receipts⟩

/-- Every chain grown from `g` keeps the invariant. -/
theorem Grown.booked (h : Grown g c) : ∃ m blocks σ, Booked g c m blocks σ := by
  induction h with
  | bootstrap empty boot nonzero => exact booked_bootstrap empty boot nonzero
  | append _ fits run ih =>
    obtain ⟨m, blocks, σ, hb⟩ := ih
    rcases hb.append fits run with ⟨-, hb'⟩ | ⟨-, -, m', σ', -, hb', -⟩
    · exact ⟨m, blocks, σ, hb'⟩
    · exact ⟨m', _, σ', hb'⟩
  | resume _ run ih =>
    obtain ⟨m, blocks, σ, hb⟩ := ih
    exact ⟨m, blocks, σ, hb.resume run⟩

end Chain
end PowChain
