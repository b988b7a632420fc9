import PowChain.Proofs.Chain.Accounting
import PowChain.Proofs.Chain.Consensus
import PowChain.Proofs.Codec.Preimage
import PowChain.Proofs.Ledger.Placement
import PowChain.Chain.Mine
import PowChain.Proofs.Mining.Search

/-!
# A mined block is accepted

Mining on a reachable chain prepares a header on the tip, fills its roots from
a dry run of the block's application, seals it, and adds the block's reward.
Appending the block then goes through and extends the chain by one.

* `Header.number_eq_of_canonical` — a header's preimage writes its number at
  a fixed place, so headers of different numbers have different preimages;
* `Block.validateBody_mined` — the mined block passes every check of its
  body: the transactions are distinct, and the reward is the block's;
* `Chain.Grown.keyed` — on a chain grown from a genesis record, every record
  keyed by thirty-two bytes is a block of the chain, so a block of a new
  number is new unless its hash collides with one of theirs.
-/

namespace PowChain

/-! ## Header preimages -/

namespace Header

open Bytes in
/-- Two headers with one preimage have one number: the number is written at a
fixed place, after the domain tag and the parent hash. -/
theorem number_eq_of_canonical {h h' : Header} (heq : h.canonical = h'.canonical) : h.number = h'.number := by
  have hl := congrArg ByteArray.toList heq
  simp only [canonical, sealPrefix, Canonical.tagged, Canonical.toList_preimage, unsealedFields,
    List.flatMap_cons, Canonical.Field.write, toList_append, List.cons_append, List.cons.injEq,
    true_and, List.append_assoc, List.append_cancel_left_eq] at hl
  have hsize : ∀ d : Digest, d.bytes.toList.length = 32 := fun d => by rw [length_toList, d.size_eq]
  obtain ⟨-, hl⟩ := List.append_inj hl (by rw [hsize, hsize])
  obtain ⟨hnumber, -⟩ := List.append_inj hl (by simp only [u64, length_ofNatLE])
  exact u64_inj hnumber

end Header

/-! ## The reward -/

namespace SignedTx

theorem isReward_reward (miner : Address) (value number : UInt64) (time : Int64) :
    (reward miner value number time).isReward = true := by
  simp [reward, isReward, Transaction.isReward, Transaction.reward]

/-- A reward fits every size limit: its payload is the six bytes of its mark,
and its addresses travel as texts of at most fifty bytes. -/
theorem validateSize_reward (miner : Address) (value number : UInt64) (time : Int64) :
    (reward miner value number time).validateSize = .ok () := by
  have hzero := Address.size_toUTF8_encode_le Address.zero
  have hminer := Address.size_toUTF8_encode_le miner
  have hdata : Transaction.rewardData.size = 6 := by decide
  have hsize : (reward miner value number time).wireSize ≤ maxSize := by
    simp only [wireSize, toWire, Transaction.toWire, reward, Transaction.reward, Address.toWire,
      Wire.str, Wire.bytes, Wire.i64, Bytes.i64, ByteArray.size_append, Wire.size_u64,
      Bytes.size_ofNatLE, ByteArray.size_empty, hdata, maxSize]
    omega
  have hpayload : (reward miner value number time).tx.data.size ≤ maxData := by
    simp only [reward, Transaction.reward, hdata, maxData]
    omega
  simp only [validateSize, if_neg (Nat.not_lt.mpr hsize), if_neg (Nat.not_lt.mpr hpayload)]

/-- A transaction of acceptable size has a payload of at most `maxData`
bytes. -/
theorem data_le_of_validateSize {s : SignedTx} (h : s.validateSize = .ok ()) : s.tx.data.size ≤ maxData := by
  unfold validateSize at h
  dsimp only at h
  split at h
  · cases h
  split at h
  · cases h
  rename_i hdata
  exact Nat.le_of_not_lt hdata

end SignedTx

namespace Block

/-- A reward among a block's transactions does not change what the block
earns. -/
theorem reward_append_reward (txs : List SignedTx) {r : SignedTx} (hr : r.isReward = true) :
    reward (txs ++ [r]) = reward txs := by
  simp only [reward, List.filter_append, List.filter_cons, hr, Bool.not_true, Bool.false_eq_true,
    if_false, List.filter_nil, List.append_nil]

/-! ## The body of a mined block -/

/-- A search for a repeat over distinct identities, none of them seen, finds
none. -/
theorem firstRepeat_go_eq_none {hashes : List Digest} (hnd : hashes.Nodup) :
    ∀ seen : List Digest, (∀ h ∈ hashes, h ∉ seen) → firstRepeat.go seen hashes = none := by
  induction hashes with
  | nil => intro seen _; rfl
  | cons h rest ih =>
    intro seen hout
    obtain ⟨hnotin, hnd'⟩ := List.nodup_cons.mp hnd
    have hfresh : seen.contains h = false := by simpa using hout h List.mem_cons_self
    rw [firstRepeat.go, hfresh, if_neg Bool.false_ne_true]
    refine ih hnd' (h :: seen) fun x hx hmem => ?_
    rcases List.mem_cons.mp hmem with rfl | hseen
    · exact hnotin hx
    · exact hout x (List.mem_cons_of_mem _ hx) hseen

theorem validateNoDuplicates_ok {b : Block} (hnd : (b.transactions.map SignedTx.hash).Nodup) :
    b.validateNoDuplicates = .ok () := by
  unfold validateNoDuplicates firstRepeat
  rw [firstRepeat_go_eq_none hnd [] fun _ _ hmem => nomatch hmem]

/-- A block whose transactions but the last are no rewards, and whose last is
the reward the block earns, paid to its coinbase for its number, passes the
reward check. -/
theorem validateReward_mined {b : Block} {txs : List SignedTx} {v : UInt64} {time : Int64}
    (hb : b.transactions = txs ++ [SignedTx.reward b.header.coinbase v b.header.number time])
    (hreward : reward txs = .ok v) (htxs : ∀ s ∈ txs, s.isReward = false) : b.validateReward = .ok () := by
  have hr := SignedTx.isReward_reward b.header.coinbase v b.header.number time
  have hfilter : b.transactions.filter SignedTx.isReward =
      [SignedTx.reward b.header.coinbase v b.header.number time] := by
    rw [hb, List.filter_append, List.filter_eq_nil_iff.mpr fun s hs => by simp [htxs s hs],
      List.nil_append, List.filter_singleton, hr]
    rfl
  have hvalue : reward b.transactions = .ok v := by
    rw [hb, reward_append_reward txs hr, hreward]
  have hzero : Address.zero.isZero = true := by decide +kernel
  unfold validateReward
  rw [hfilter]
  simp [SignedTx.reward, Transaction.reward, hzero, hvalue, bind, Except.bind, pure, Except.pure]

/-- The transactions of a block that applies, with no reward but the last,
are distinct: the standard ones by their nonces, and the reward by its mark. -/
theorem nodup_tx_of_applies {σ σ' : Ledger.Accounts} {txs : List SignedTx} {r : SignedTx}
    (happ : Ledger.Applies σ (txs ++ [r]) σ') (htxs : ∀ s ∈ txs, s.isReward = false)
    (hr : r.isReward = true) : ((txs ++ [r]).map (·.tx)).Nodup := by
  have hstd := happ.nodup_standard
  rw [List.filter_append, List.filter_eq_self.mpr fun s hs => by simp [htxs s hs],
    List.filter_singleton, hr] at hstd
  simp only [Bool.not_true, cond_false, List.append_nil] at hstd
  rw [List.map_append, List.nodup_append]
  refine ⟨hstd, List.nodup_singleton _, fun a ha b hb hab => ?_⟩
  obtain ⟨s, hs, rfl⟩ := List.mem_map.mp ha
  rw [List.map_singleton, List.mem_singleton] at hb
  subst hb
  have hsr : s.isReward = r.isReward := by
    simp only [SignedTx.isReward, hab]
  rw [htxs s hs, hr] at hsr
  cases hsr

/-- Distinct transactions of acceptable size have distinct identities, unless
their hashes collide. -/
theorem nodup_hash_of_nodup_tx {txs : List SignedTx} (hnd : (txs.map (·.tx)).Nodup)
    (hsize : ∀ s ∈ txs, s.validateSize = .ok ())
    (hcoll : ∀ s ∈ txs, ∀ s' ∈ txs, sha256 s.tx.canonical = sha256 s'.tx.canonical →
      s.tx.canonical = s'.tx.canonical) :
    (txs.map SignedTx.hash).Nodup := by
  have hd : ∀ s ∈ txs, s.tx.data.size < 2 ^ 32 := fun s hs => by
    have hle := SignedTx.data_le_of_validateSize (hsize s hs)
    simp only [SignedTx.maxData] at hle
    omega
  have hmap : txs.map SignedTx.hash = (txs.map (·.tx)).map Transaction.hash := by
    rw [List.map_map]
    rfl
  rw [hmap]
  refine hnd.map_on fun x hx y hy hxy => ?_
  obtain ⟨s, hs, rfl⟩ := List.mem_map.mp hx
  obtain ⟨s', hs', rfl⟩ := List.mem_map.mp hy
  exact Transaction.canonical_inj (hd s hs) (hd s' hs') (hcoll s hs s' hs' hxy)

/-- The chosen transactions of acceptable size, followed by a reward, are all
of acceptable size. -/
theorem validateSize_append_reward {txs : List SignedTx} (htxs : ∀ s ∈ txs, s.validateSize = .ok ())
    (miner : Address) (value number : UInt64) (time : Int64) :
    ∀ s ∈ txs ++ [SignedTx.reward miner value number time], s.validateSize = .ok () := by
  intro s hs
  rcases List.mem_append.mp hs with hs | hs
  · exact htxs s hs
  · rw [List.mem_singleton.mp hs]
    exact SignedTx.validateSize_reward miner value number time

/-- A sealed block of distinct transactions of acceptable size, the chosen
ones followed by the block's reward, passes every check of its body. -/
theorem validateBody_mined {b : Block} {bits : Nat} {txs : List SignedTx} {v : UInt64} {time : Int64}
    (hhash : b.header.computeHash = b.hash) (hwork : Target.meets b.hash bits = true)
    (hroot : b.header.txRoot = txRootOf b.transactions)
    (hb : b.transactions = txs ++ [SignedTx.reward b.header.coinbase v b.header.number time])
    (hreward : reward txs = .ok v) (htxs : ∀ s ∈ txs, s.isReward = false)
    (hsizes : ∀ s ∈ b.transactions, s.validateSize = .ok ())
    (hnd : (b.transactions.map SignedTx.hash).Nodup) : b.validateBody bits = .ok () := by
  have hne : b.transactions.isEmpty = false := by
    rw [hb]
    simp
  have hrewarded := validateReward_mined hb hreward htxs
  simp only [Block.hash] at hhash hwork
  unfold validateBody
  simp only [hhash, hwork, hne, hroot, bne_self_eq_false, Bool.not_true, Bool.false_eq_true, if_false,
    validateNoDuplicates_ok hnd, hrewarded, List.forM_eq_ok.mpr hsizes, bind, Except.bind]

end Block

/-! ## Blocks are the records keyed by thirty-two bytes -/

namespace Chain

/-- Every record of `m` keyed by thirty-two bytes is the record of one of
`blocks`, under its hash. -/
def BlocksKeyed (m : KvMap) (blocks : List Block) : Prop :=
  ∀ k v, m.get? k = some v → k.size = 32 → ∃ x ∈ blocks, k = Keys.block x.hash.bytes

/-- Bootstrapping writes one record keyed by thirty-two bytes: block 0's. -/
theorem blocksKeyed_bootstrap {s : Store} {g : Genesis} {c : Chain} (hs : s.Faithful {})
    (h : bootstrap s g = .ok c) :
    ∃ m block, c.store.Faithful m ∧ c.tip = ⟨block.hash, 1⟩ ∧ BlocksKeyed m [block] := by
  obtain ⟨block, -, -, t₀, store, -, -, -, -, hw₀, rfl, hfaithful⟩ := bootstrap_eq_ok hs h
  rw [view_bootRecords (hw₀.nodup List.nodup_nil)] at hfaithful
  refine ⟨_, block, hfaithful, rfl, fun k v hk hsize => ?_⟩
  -- of the records bootstrap writes, only block 0's has a key of thirty-two bytes
  have hlength : k ≠ Keys.chainLength := fun he => by
    rw [he, Keys.size_chainLength] at hsize
    cases hsize
  have htip : k ≠ Keys.tip := fun he => by
    rw [he, Keys.size_tip] at hsize
    cases hsize
  have hgenesis : k ≠ Keys.genesis := fun he => by
    rw [he, Keys.size_genesis] at hsize
    cases hsize
  simp only [KvMap.get?_insert, if_neg hlength, if_neg htip, if_neg hgenesis] at hk
  by_cases hblock : k = Keys.block block.hash.bytes
  · exact ⟨block, List.mem_singleton_self _, hblock⟩
  · -- no balance record is thirty-two bytes long
    have hbalance : ¬ ∃ a : Address, k = Keys.balance a.encode := fun ⟨a, ha⟩ =>
      Keys.ne_balance_of_size (by omega) a ha
    rw [if_neg hblock, hw₀.view_get? List.nodup_nil {} hbalance, Txn.view, KvMap.applyBatch_nil,
      KvMap.get?_empty] at hk
    cases hk

/-- On a chain grown from `g`, every record keyed by thirty-two bytes is a
block of the chain.  An append that extends the chain writes its block's
record, its tip and length, and records of its transactions, none of which is
thirty-two bytes long but the block's. -/
theorem Grown.keyed {g : Genesis} {c : Chain} (h : Grown g c) :
    ∃ m blocks σ, Booked g c m blocks σ ∧ BlocksKeyed m blocks := by
  induction h with
  | bootstrap empty boot nonzero =>
    obtain ⟨m, blocks, σ, hb⟩ := booked_bootstrap empty boot nonzero
    obtain ⟨m₀, block, hm₀, htip, hkeyed⟩ := blocksKeyed_bootstrap empty boot
    obtain rfl := hb.wellFormed.faithful.unique hm₀
    -- the chain holds block 0 alone, whose hash is the tip's
    obtain ⟨b, rest, rfl, hhash⟩ := hb.wellFormed.tip
    have hlen := hb.wellFormed.length
    rw [htip] at hlen hhash
    obtain rfl : rest = [] := List.eq_nil_of_length_eq_zero (by simpa using hlen)
    refine ⟨m, [b], σ, hb, fun k v hk hsize => ?_⟩
    obtain ⟨x, hx, rfl⟩ := hkeyed k v hk hsize
    obtain rfl := List.mem_singleton.mp hx
    exact ⟨b, List.mem_singleton_self _, by rw [hhash]⟩
  | append _ fits run ih =>
    obtain ⟨m, blocks, σ, hb, hkeyed⟩ := ih
    rcases hb.append fits run with ⟨-, hb'⟩ | ⟨length, receipts, m', σ', -, hb', -, hcommits⟩
    · exact ⟨m, blocks, σ, hb', hkeyed⟩
    · refine ⟨m', _, σ', hb', fun k v hk hsize => ?_⟩
      rename_i b _ _
      by_cases hblock : k = Keys.block b.hash.bytes
      · exact ⟨b, List.mem_cons_self, hblock⟩
      · have htip : k ≠ Keys.tip := fun he => by
          rw [he, Keys.size_tip] at hsize
          cases hsize
        have hlength : k ≠ Keys.chainLength := fun he => by
          rw [he, Keys.size_chainLength] at hsize
          cases hsize
        have hledger : ¬ Ledger.LedgerKey b.transactions k := fun hl => by
          have := Ledger.size_of_ledgerKey hl
          omega
        rw [hcommits.frame k hblock htip hlength hledger] at hk
        obtain ⟨x, hx, rfl⟩ := hkeyed k v hk hsize
        exact ⟨x, List.mem_cons_of_mem _ hx, rfl⟩
  | resume _ run ih =>
    obtain ⟨m, blocks, σ, hb, hkeyed⟩ := ih
    exact ⟨m, blocks, σ, hb.resume run, hkeyed⟩

end Chain

end PowChain
