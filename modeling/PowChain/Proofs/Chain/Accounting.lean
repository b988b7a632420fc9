import PowChain.Proofs.Chain.Ledger

/-!
# Nonces, replays and the supply of a grown chain

What the ledger invariant `Booked` gives about a chain grown from a genesis
record.

* `nonce_counts_standard_transactions` — every account's nonce is its genesis
  nonce plus the number of standard transactions of the chain that name it,
  as sender or as recipient.  No transaction of the chain appears twice in
  it: standard ones carry growing nonces, and each later block carries one
  reward numbered as the block.  An append never lowers a nonce, never takes
  a transaction the chain already holds, and, where the hash of canonical
  preimages does not collide, never overwrites a receipt.
* `supply_grows_by_block_reward` — the balances of a chain add up to the
  genesis allocation plus the block reward for each block after block 0; an
  append that extends the chain adds exactly the block reward, the fees its
  senders pay going back to the coinbase through the block's one reward.
-/

namespace PowChain

namespace Block

/-- A block with a valid body carries a well-formed reward. -/
theorem validateReward_of_validateBody {b : Block} {d : Nat} (hv : b.validateBody d = .ok ()) :
    b.validateReward = .ok () := by
  unfold validateBody at hv
  dsimp only at hv
  split at hv
  · cases hv
  split at hv
  · cases hv
  split at hv
  · cases hv
  split at hv
  · cases hv
  obtain ⟨⟨⟩, -, hv⟩ := Except.bind_eq_ok.mp hv
  obtain ⟨⟨⟩, hreward, -⟩ := Except.bind_eq_ok.mp hv
  exact hreward

/-- A block numbered above zero is not block 0. -/
theorem isGenesis_eq_false {b : Block} (h : b.header.number.toNat ≠ 0) : b.isGenesis = false := by
  simp only [isGenesis, beq_eq_false_iff_ne, ne_eq]
  rintro h0
  rw [h0] at h
  exact h rfl

end Block

namespace SignedTx

/-- A transaction of acceptable size has a payload that fits a 32-bit length. -/
theorem data_lt_of_validateSize {s : SignedTx} (h : s.validateSize = .ok ()) :
    s.tx.data.size < 2 ^ 32 := by
  unfold validateSize at h
  dsimp only at h
  split at h
  · cases h
  split at h
  · cases h
  rename_i hdata
  simp only [maxData, gt_iff_lt, not_lt] at hdata
  omega

/-- A reward is never a standard transaction, so transactions whose rewards
are distinct and whose standard transactions are distinct are distinct. -/
theorem nodup_map_tx {l : List SignedTx} (hr : ((l.filter (·.isReward)).map (·.tx)).Nodup)
    (hs : ((l.filter (!·.isReward)).map (·.tx)).Nodup) : (l.map (·.tx)).Nodup := by
  have hperm := List.filter_append_perm (·.isReward) l
  rw [← (hperm.map (·.tx)).nodup_iff, List.map_append, List.nodup_append]
  refine ⟨hr, hs, ?_⟩
  rintro x hx y hy rfl
  obtain ⟨s, hs, rfl⟩ := List.mem_map.mp hx
  obtain ⟨s', hs', hsame⟩ := List.mem_map.mp hy
  have hr₁ := (List.mem_filter.mp hs).2
  have hr₂ := (List.mem_filter.mp hs').2
  -- whether a transaction is a reward is read off its fields
  simp only [isReward, hsame, Bool.not_eq_true'] at hr₁ hr₂
  rw [hr₁] at hr₂
  cases hr₂

end SignedTx

/-! ## Supply -/

namespace Ledger

/-- Adding up the balances over any finite set outside which every balance is
zero gives one total. -/
theorem supply_eq_of_zero_outside {σ : Accounts} {A B : Finset Address}
    (hA : ∀ a ∉ A, (σ a).balance = 0) (hB : ∀ a ∉ B, (σ a).balance = 0) : supply σ A = supply σ B := by
  have hsub : ∀ {X Y : Finset Address}, X ⊆ Y → (∀ a ∉ X, (σ a).balance = 0) →
      supply σ X = supply σ Y := fun hXY hX =>
    Finset.sum_subset hXY fun a _ ha => by simp [hX a ha]
  rw [hsub Finset.subset_union_left hA, ← hsub Finset.subset_union_right hB]

end Ledger

/-- The balances a store holds add up to `n`: every account reads, every
balance outside a finite set of addresses is zero, and the balances over that
set add up to `n`. -/
def Store.HoldsSupply (s : Store) (n : Nat) : Prop :=
  ∃ (σ : Ledger.Accounts) (A : Finset Address), (∀ a, s.account a = .ok (σ a)) ∧
    (∀ a ∉ A, (σ a).balance = 0) ∧ Ledger.supply σ A = n

/-- A store holds one supply. -/
theorem Store.HoldsSupply.unique {s : Store} {n n' : Nat} (h : s.HoldsSupply n)
    (h' : s.HoldsSupply n') : n = n' := by
  obtain ⟨σ, A, hσ, hA, rfl⟩ := h
  obtain ⟨σ', A', hσ', hA', rfl⟩ := h'
  obtain rfl : σ' = σ := funext fun a => Except.ok.inj ((hσ' a).symm.trans (hσ a))
  exact Ledger.supply_eq_of_zero_outside hA hA'

namespace Chain

namespace Lineage

variable {bits : Nat} {bs : List Block}

/-- The blocks of a lineage carry distinct numbers. -/
theorem pairwise_number (h : Lineage bits bs) :
    bs.Pairwise fun a b => a.header.number ≠ b.header.number := by
  have hnums : (bs.map (·.header.number.toNat)).Nodup := by
    rw [h.map_number]
    exact List.nodup_reverse.mpr List.nodup_range
  exact (List.pairwise_map.mp hnums).imp fun hne heq => hne (congrArg UInt64.toNat heq)

/-- Every block of a lineage but the last is numbered above zero. -/
theorem countP_not_isGenesis (h : Lineage bits bs) : bs.countP (!·.isGenesis) = bs.length - 1 := by
  induction h with
  | genesis number => simp [Block.isGenesis, number]
  | @cons b p rest _ number _ _ _ _ _ _ ih =>
    have hgen : b.isGenesis = false := Block.isGenesis_eq_false (by rw [number]; simp)
    rw [List.countP_cons, ih, hgen]
    simp

end Lineage

/-- The rewards of blocks with distinct numbers, each reward numbered as its
block and no block holding one reward twice, are distinct. -/
theorem nodup_rewards {blocks : List Block}
    (hnum : blocks.Pairwise fun a b => a.header.number ≠ b.header.number)
    (hnonce : ∀ b ∈ blocks, ∀ s ∈ b.transactions, s.isReward = true → s.tx.nonce = b.header.number)
    (hone : ∀ b ∈ blocks, ((b.transactions.filter (·.isReward)).map (·.tx)).Nodup) :
    (((appliedTxs blocks).filter (·.isReward)).map (·.tx)).Nodup := by
  induction blocks with
  | nil => simp
  | cons b blocks ih =>
    rw [List.pairwise_cons] at hnum
    rw [appliedTxs_cons, List.filter_append, List.map_append, List.nodup_append]
    refine ⟨ih hnum.2 (fun x hx => hnonce x (.tail _ hx)) (fun x hx => hone x (.tail _ hx)),
      hone b List.mem_cons_self, ?_⟩
    -- an older reward carries its own block's number, which is not `b`'s
    rintro t hold t' hnew rfl
    obtain ⟨s, hs, rfl⟩ := List.mem_map.mp hold
    obtain ⟨s', hs', hsame⟩ := List.mem_map.mp hnew
    obtain ⟨hs, hr⟩ := List.mem_filter.mp hs
    obtain ⟨hs', hr'⟩ := List.mem_filter.mp hs'
    obtain ⟨x, hx, hsx⟩ := mem_appliedTxs.mp hs
    have hxnum := hnonce x (.tail _ hx) s hsx hr
    have hbnum := hnonce b List.mem_cons_self s' hs' hr'
    rw [hsame, hxnum] at hbnum
    exact hnum.1 x hx hbnum.symm

/-- Over blocks each with a well-formed reward, but block 0 which has no
transactions, what the rewards mint is what the standard transactions burn
plus the base reward for each block but block 0. -/
theorem sum_minted_appliedTxs {blocks : List Block}
    (hreward : ∀ b ∈ blocks, b.isGenesis = false → b.validateReward = .ok ())
    (hempty : ∀ b ∈ blocks, b.isGenesis = true → b.transactions = []) :
    ((appliedTxs blocks).map Ledger.minted).sum =
      ((appliedTxs blocks).map Ledger.burned).sum + Block.baseReward * blocks.countP (!·.isGenesis) := by
  induction blocks with
  | nil => simp
  | cons b blocks ih =>
    have ih' := ih (fun x hx => hreward x (.tail _ hx)) (fun x hx => hempty x (.tail _ hx))
    simp only [appliedTxs_cons, List.map_append, List.sum_append, List.countP_cons, ih']
    cases hg : b.isGenesis with
    | false =>
      rw [Block.sum_minted (hreward b List.mem_cons_self hg)]
      simp only [Bool.not_false, if_true]
      ring
    | true =>
      rw [hempty b List.mem_cons_self hg]
      simp

/-! ## What the invariant gives -/

variable {g : Genesis} {c : Chain} {m : KvMap} {blocks : List Block} {σ : Ledger.Accounts}

namespace Booked

/-- Each block after block 0 holds one reward, from the zero address to its
coinbase, numbered as the block and worth the base reward plus the fees of
the block's standard transactions. -/
theorem reward (hb : Booked g c m blocks σ) {b : Block} (hmem : b ∈ blocks) (hg : b.isGenesis = false) :
    ∃ r, b.transactions.filter SignedTx.isReward = [r] ∧ r.tx.nonce = b.header.number ∧
      r.tx.recipient = b.header.coinbase ∧
      r.tx.value.toNat = Block.baseReward + (b.transactions.map Ledger.burned).sum := by
  obtain ⟨r, hr, hnonce, -, hcoinbase, v, hv, hvalue⟩ :=
    Block.validateReward_ok (Block.validateReward_of_validateBody (hb.bodies b hmem hg))
  exact ⟨r, hr, hnonce, hcoinbase, by rw [hvalue, Block.reward_eq_ok hv]⟩

theorem reward_nonce (hb : Booked g c m blocks σ) {b : Block} (hmem : b ∈ blocks) {s : SignedTx}
    (hs : s ∈ b.transactions) (hr : s.isReward = true) : s.tx.nonce = b.header.number := by
  cases hg : b.isGenesis with
  | true => simp [hb.genesisEmpty b hmem hg] at hs
  | false =>
    obtain ⟨r, hfilter, hnonce, -⟩ := hb.reward hmem hg
    have hsr : s ∈ b.transactions.filter SignedTx.isReward := List.mem_filter.mpr ⟨hs, hr⟩
    rw [hfilter, List.mem_singleton] at hsr
    rw [hsr, hnonce]

/-- No transaction appears twice in a grown chain. -/
theorem nodup (hb : Booked g c m blocks σ) : ((appliedTxs blocks).map (·.tx)).Nodup := by
  obtain ⟨alloc, -, happ⟩ := hb.applies
  refine SignedTx.nodup_map_tx (nodup_rewards hb.wellFormed.lineage.pairwise_number
    (fun b hb' s hs hr => hb.reward_nonce hb' hs hr) fun b hmem => ?_) happ.nodup_standard
  cases hg : b.isGenesis with
  | true => simp [hb.genesisEmpty b hmem hg]
  | false =>
    obtain ⟨r, hfilter, -⟩ := hb.reward hmem hg
    simp [hfilter]

/-- Every transaction of a grown chain has a payload under `2 ^ 32` bytes. -/
theorem data_lt (hb : Booked g c m blocks σ) {s : SignedTx} (hs : s ∈ appliedTxs blocks) :
    s.tx.data.size < 2 ^ 32 := by
  obtain ⟨b, hmem, hsb⟩ := mem_appliedTxs.mp hs
  cases hg : b.isGenesis with
  | true => simp [hb.genesisEmpty b hmem hg] at hsb
  | false =>
    exact SignedTx.data_lt_of_validateSize
      ((Block.validateBody_ok (hb.bodies b hmem hg)).2.2.2 s hsb)

end Booked

/-! ## Nonce accounting and replay protection -/

/-- In every chain grown from `g`, every account's nonce is its genesis nonce
plus the number of standard transactions of the chain naming it as sender or
recipient, and no transaction appears twice: each block after block 0 holds
one reward, numbered as the block.  An append of a block of fewer than
`2 ^ 64` transactions never lowers a nonce; one that extends the chain takes
no transaction the chain already holds; and, as long as the hash of a
canonical preimage of one of the block's transactions equals that of one of
the chain's only for equal preimages, it leaves every receipt stored. -/
theorem nonce_counts_standard_transactions {g : Genesis} {c : Chain} (h : Grown g c) :
    ∃ alloc m blocks, g.accounts = .ok alloc ∧ WellFormed c m blocks ∧
      (∀ a, ∃ acct, c.store.account a = .ok acct ∧
        acct.nonce.toNat = (Ledger.initial alloc a).nonce.toNat +
          Ledger.nonceMoves (appliedTxs blocks) a) ∧
      ((appliedTxs blocks).map (·.tx)).Nodup ∧
      (∀ b ∈ blocks, b.isGenesis = false →
        ∃ r, b.transactions.filter SignedTx.isReward = [r] ∧ r.tx.nonce = b.header.number) ∧
      ∀ (b : Block) r c', b.transactions.length < 2 ^ 64 → (append b).run.run c = (r, c') →
        (∀ a acct acct', c.store.account a = .ok acct → c'.store.account a = .ok acct' →
          acct.nonce ≤ acct'.nonce) ∧
        (∀ hash length receipts, r = .ok (.extended hash length receipts) →
          ∀ s ∈ b.transactions, s.tx ∉ (appliedTxs blocks).map (·.tx)) ∧
        ((∀ s ∈ b.transactions, ∀ s' ∈ appliedTxs blocks,
            sha256 s.tx.canonical = sha256 s'.tx.canonical → s.tx.canonical = s'.tx.canonical) →
          ∀ m', c'.store.Faithful m' → ∀ (x : Digest) v, m.get? (Keys.receipt x.bytes) = some v →
            m'.get? (Keys.receipt x.bytes) = some v) := by
  obtain ⟨m, blocks, σ, hb⟩ := h.booked
  obtain ⟨alloc, halloc, happ⟩ := hb.applies
  refine ⟨alloc, m, blocks, halloc, hb.wellFormed, fun a => ⟨σ a, hb.reads a, happ.nonce a⟩, hb.nodup,
    fun b hmem hg => ?_, fun b r c' hfits hrun => ?_⟩
  · obtain ⟨r, hr, hnonce, -⟩ := hb.reward hmem hg
    exact ⟨r, hr, hnonce⟩
  rcases hb.append hfits hrun with ⟨hnot, hb'⟩ | ⟨length, receipts, m', σ', rfl, hb', happ', hcommits⟩
  · -- the append changed no record
    refine ⟨fun a acct acct' h₁ h₂ => ?_, fun hash length receipts hr => absurd hr (hnot _ _ _),
      fun _ m'' hm'' x v hx => ?_⟩
    · rw [hb.reads a, Except.ok.injEq] at h₁
      rw [hb'.reads a, Except.ok.injEq] at h₂
      rw [← h₁, ← h₂, UInt64.le_iff_toNat_le]
    · rwa [hm''.unique hb'.wellFormed.faithful]
  · -- the chain took `b`: its transactions come after the chain's, all distinct
    have hnew : ∀ s ∈ b.transactions, s.tx ∉ (appliedTxs blocks).map (·.tx) := by
      intro s hs hold
      have hnd := hb'.nodup
      rw [appliedTxs_cons, List.map_append, List.nodup_append] at hnd
      exact hnd.2.2 _ hold _ (List.mem_map_of_mem hs) rfl
    refine ⟨fun a acct acct' h₁ h₂ => ?_, fun _ _ _ _ => hnew, fun hsha m'' hm'' x v hx => ?_⟩
    · rw [hb.reads a, Except.ok.injEq] at h₁
      rw [hb'.reads a, Except.ok.injEq] at h₂
      have hmove := happ'.nonce a
      rw [← h₁, ← h₂, UInt64.le_iff_toNat_le]
      omega
    · -- a receipt stored is an old transaction's, whose hash no new one shares
      rw [hm''.unique hb'.wellFormed.faithful]
      obtain ⟨s', hs', rfl⟩ := hb.receipts x v hx
      rw [hcommits.get?_receipt fun s hs hsame => ?_, hx]
      have hcanon := hsha s hs s' hs' hsame
      have hs'new : s' ∈ appliedTxs (b :: blocks) := by
        rw [appliedTxs_cons]
        exact List.mem_append_left _ hs'
      have hsnew : s ∈ appliedTxs (b :: blocks) := by
        rw [appliedTxs_cons]
        exact List.mem_append_right _ hs
      have htx := Transaction.canonical_inj (hb'.data_lt hsnew) (hb'.data_lt hs'new) hcanon
      exact hnew s hs (htx ▸ List.mem_map_of_mem hs')

/-- On the funded sample's chain of two blocks, whose allocation gives the
miner nonce 3, every nonce counts the standard transactions naming its
account, and no transaction appears twice. -/
theorem nonce_counts_standard_transactions_sample :
    ∃ c₁, Grown fundedGenesis c₁ ∧ c₁.tip.length = 2 ∧
      ∃ alloc m blocks, fundedGenesis.accounts = .ok alloc ∧ WellFormed c₁ m blocks ∧
      (∀ a, ∃ acct, c₁.store.account a = .ok acct ∧
        acct.nonce.toNat = (Ledger.initial alloc a).nonce.toNat +
          Ledger.nonceMoves (appliedTxs blocks) a) ∧
      ((appliedTxs blocks).map (·.tx)).Nodup ∧
      (∀ b ∈ blocks, b.isGenesis = false →
        ∃ r, b.transactions.filter SignedTx.isReward = [r] ∧ r.tx.nonce = b.header.number) ∧
      ∀ (b : Block) r c', b.transactions.length < 2 ^ 64 → (append b).run.run c₁ = (r, c') →
        (∀ a acct acct', c₁.store.account a = .ok acct → c'.store.account a = .ok acct' →
          acct.nonce ≤ acct'.nonce) ∧
        (∀ hash length receipts, r = .ok (.extended hash length receipts) →
          ∀ s ∈ b.transactions, s.tx ∉ (appliedTxs blocks).map (·.tx)) ∧
        ((∀ s ∈ b.transactions, ∀ s' ∈ appliedTxs blocks,
            sha256 s.tx.canonical = sha256 s'.tx.canonical → s.tx.canonical = s'.tx.canonical) →
          ∀ m', c'.store.Faithful m' → ∀ (x : Digest) v, m.get? (Keys.receipt x.bytes) = some v →
            m'.get? (Keys.receipt x.bytes) = some v) := by
  obtain ⟨-, -, c₁, -, -, -, -, hg₁, hlen₁, -⟩ := grown_fundedChain
  exact ⟨c₁, hg₁, hlen₁, nonce_counts_standard_transactions hg₁⟩

/-! ## Supply conservation -/

/-- A grown chain holds its genesis allocation plus the base reward for each
block after block 0: what the senders burn, the rewards mint again, and no
transaction makes or destroys anything else. -/
theorem Booked.holdsSupply (hb : Booked g c m blocks σ) {alloc : List (Address × Account)}
    (halloc : g.accounts = .ok alloc) :
    c.store.HoldsSupply ((alloc.map (·.2.balance.toNat)).sum + Block.baseReward * (blocks.length - 1)) := by
  obtain ⟨alloc', halloc', happ⟩ := hb.applies
  rw [halloc, Except.ok.injEq] at halloc'
  subst halloc'
  -- the addresses of the allocation and those the chain's transactions touch
  let A₀ := (alloc.map Prod.fst).toFinset
  let A := A₀ ∪ ((appliedTxs blocks).flatMap Ledger.touchedBy).toFinset
  have htouched : ∀ s ∈ appliedTxs blocks, ∀ a ∈ Ledger.touchedBy s, a ∈ A := fun s hs a ha =>
    Finset.mem_union_right _ (List.mem_toFinset.mpr (List.mem_flatMap.mpr ⟨s, hs, ha⟩))
  have hzero₀ : ∀ a ∉ A₀, (Ledger.initial alloc a).balance = 0 := fun a ha => by
    rw [Ledger.initial_of_not_mem (by simpa [A₀] using ha)]
  have hzero : ∀ a ∉ A, (σ a).balance = 0 := fun a ha => by
    rw [happ.apply_of_not_mem fun s hs hmem => ha (htouched s hs a hmem)]
    exact hzero₀ a fun h => ha (Finset.mem_union_left _ h)
  have hinit : Ledger.supply (Ledger.initial alloc) A = (alloc.map (·.2.balance.toNat)).sum := by
    rw [← Ledger.supply_initial (Genesis.accounts_nodup halloc)]
    exact Ledger.supply_eq_of_zero_outside (fun a ha => hzero₀ a fun h => ha (Finset.mem_union_left _ h))
      hzero₀
  have hconserved := happ.supply htouched
  have hminted := sum_minted_appliedTxs
    (fun b hmem hg => Block.validateReward_of_validateBody (hb.bodies b hmem hg)) hb.genesisEmpty
  rw [hb.wellFormed.lineage.countP_not_isGenesis] at hminted
  refine ⟨σ, A, hb.reads, hzero, ?_⟩
  generalize Block.baseReward * (blocks.length - 1) = k at hminted ⊢
  omega

/-- In every chain grown from `g`, the balances add up to the genesis
allocation plus the base reward for each block after block 0.  An append of a
block of fewer than `2 ^ 64` transactions that extends the chain adds exactly
the base reward to the total; the block holds one reward, paid to its
coinbase and worth the base reward plus every fee its standard transactions
pay. -/
theorem supply_grows_by_block_reward {g : Genesis} {c : Chain} (h : Grown g c) :
    ∃ alloc, g.accounts = .ok alloc ∧
      (∀ n, c.store.HoldsSupply n ↔
        n = (alloc.map (·.2.balance.toNat)).sum + Block.baseReward * (c.tip.length.toNat - 1)) ∧
      ∀ (b : Block) hash length receipts c', b.transactions.length < 2 ^ 64 →
        (append b).run.run c = (.ok (.extended hash length receipts), c') →
        (∀ n, c.store.HoldsSupply n → c'.store.HoldsSupply (n + Block.baseReward)) ∧
        ∃ r, b.transactions.filter SignedTx.isReward = [r] ∧ r.tx.recipient = b.header.coinbase ∧
          r.tx.value.toNat = Block.baseReward + (b.transactions.map Ledger.burned).sum := by
  obtain ⟨m, blocks, σ, hb⟩ := h.booked
  obtain ⟨alloc, halloc, -⟩ := hb.applies
  have hholds := hb.holdsSupply halloc
  rw [hb.wellFormed.length] at hholds
  refine ⟨alloc, halloc, fun n => ⟨fun hn => hn.unique hholds, fun hn => hn ▸ hholds⟩, ?_⟩
  intro b hash length receipts c' hfits hrun
  rcases hb.append hfits hrun with ⟨hnot, -⟩ | ⟨-, -, m', σ', -, hb', -, -⟩
  · exact absurd rfl (hnot hash length receipts)
  -- `b` sits on top of the chain's blocks, numbered after them
  have hnum := hb'.wellFormed.lineage
  obtain ⟨p, rest, hblocks, -⟩ := hb.wellFormed.tip
  rw [hblocks] at hnum
  have hgen : b.isGenesis = false := Block.isGenesis_eq_false (by rw [hnum.number_toNat]; simp)
  obtain ⟨r, hfilter, -, hcoinbase, hvalue⟩ := hb'.reward List.mem_cons_self hgen
  refine ⟨fun n hn => ?_, r, hfilter, hcoinbase, hvalue⟩
  have hholds' := hb'.holdsSupply halloc
  rw [hn.unique hholds, ← hb.wellFormed.length]
  rw [hblocks] at hholds' ⊢
  simp only [List.length_cons, Block.baseReward] at hholds' ⊢
  convert hholds' using 1
  omega

/-- The allocation of `fundedGenesis` totals 1000. -/
theorem fundedGenesis_allocation :
    fundedGenesis.accounts.map (fun alloc => (alloc.map (·.2.balance.toNat)).sum) = .ok 1000 := by
  decide +kernel

/-- On the funded sample, block 0 holds the miner's 1000, and appending
`minedBlock` adds the base reward: the chain of two blocks holds 1100, paid to
the miner by the block's one reward. -/
theorem supply_grows_by_block_reward_sample :
    ∃ c₀ rs c₁, Chain.bootstrap {} fundedGenesis = .ok c₀ ∧
      (append minedBlock).run.run c₀ = (.ok (.extended minedBlock.hash 2 rs), c₁) ∧
      c₀.store.HoldsSupply 1000 ∧ c₁.store.HoldsSupply 1100 ∧
      ∃ r, minedBlock.transactions.filter SignedTx.isReward = [r] ∧
        r.tx.recipient = minedBlock.header.coinbase ∧
        r.tx.value.toNat = Block.baseReward + (minedBlock.transactions.map Ledger.burned).sum := by
  obtain ⟨c₀, rs, c₁, hboot, hg₀, hlen₀, happ, -, -⟩ := grown_fundedChain
  obtain ⟨alloc, halloc, hholds, happend⟩ := supply_grows_by_block_reward hg₀
  have htotal : (alloc.map (·.2.balance.toNat)).sum = 1000 := by
    have h := fundedGenesis_allocation
    rw [halloc] at h
    exact Except.ok.inj h
  -- block 0 holds the allocation alone
  have h₀ : c₀.store.HoldsSupply 1000 := (hholds 1000).mpr (by rw [htotal, hlen₀]; rfl)
  obtain ⟨hgrow, hreward⟩ := happend minedBlock _ _ _ c₁ (by decide) happ
  exact ⟨c₀, rs, c₁, hboot, happ, h₀, hgrow 1000 h₀, hreward⟩

end Chain
end PowChain
