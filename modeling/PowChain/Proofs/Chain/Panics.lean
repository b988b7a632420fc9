import PowChain.Proofs.Chain.Production
import PowChain.Proofs.Ledger.Panics

/-!
# Where a chain can panic

Every check a block or a transaction meets on its way into the chain fails as
an error that its caller answers, with four exceptions, each an addition
that overflows at the top of its word:

* a transfer's nonce increments, at a sender or recipient whose nonce is
  `2 ^ 64 - 1` (`Ledger.ReachesNonceTop`, from `Ledger.applyBlockIn_noPanic`);
* the chain length of an append, at a chain of `2 ^ 64 - 1` blocks;
* the timestamp of a prepared block, one past its parent's, at a parent dated
  `2 ^ 63 - 1` milliseconds;
* the count of a mining run's attempts, when no nonce seals the header and
  the run is on the calling thread alone; workers that stride over the nonces
  count fewer attempts than the nonces they pass.

`Grown.panic_causes` gathers them for every chain grown from a genesis record
(`PanicCauses`): appending, preparing and mining on it, admitting a
transaction against its store and applying a block panic only for these
causes.  A genesis record may carry any timestamp, so the third is reached at
once by a genesis dated `2 ^ 63 - 1`.
-/

namespace PowChain

/-- A result that is a panic. -/
def Panics {α : Type} (r : Result α) : Prop := ∃ e, r = .error e ∧ e.isPanic = true

theorem panics_iff_not_noPanic {α : Type} {r : Result α} : Panics r ↔ ¬ NoPanic r := by
  simp [Panics, NoPanic]

section Folds

variable {α β : Type}

theorem noPanic_foldlM {f : β → α → Result β} (hf : ∀ b a, NoPanic (f b a)) (l : List α) (init : β) :
    NoPanic (l.foldlM f init) := by
  induction l generalizing init with
  | nil => exact noPanic_pure init
  | cons a l ih =>
    rw [List.foldlM_cons, noPanic_bind]
    exact ⟨hf init a, fun b _ => ih b⟩

theorem noPanic_forM {f : α → Result Unit} (hf : ∀ a, NoPanic (f a)) (l : List α) : NoPanic (l.forM f) := by
  induction l with
  | nil => exact noPanic_pure _
  | cons a l ih =>
    rw [List.forM, noPanic_bind]
    exact ⟨hf a, fun _ _ => ih⟩

end Folds

/-! ## The checks on a block -/

theorem validateNext_noPanic (tip : ChainTip) (h : Header) : NoPanic (validateNext tip h) := by
  simp [validateNext, noPanic_ite, LedgerError.isPanic]

namespace Block

theorem reward_noPanic (txs : List SignedTx) : NoPanic (reward txs) := by
  have hfees := noPanic_foldlM (f := fun (acc : Nat) (s : SignedTx) => do
      let used ← s.tx.netherUsed
      let t := acc + used.toNat
      if t > Transaction.wordMax then throw (LedgerError.invalidBlock "Fee total overflows") else pure t)
    (fun _ s => by simp [noPanic_ite, LedgerError.isPanic, s.tx.netherUsed_noPanic])
    (txs.filter (!·.isReward)) 0
  simp [reward, noPanic_ite, LedgerError.isPanic, hfees]

theorem validateBody_noPanic (b : Block) (difficulty : Nat) : NoPanic (b.validateBody difficulty) := by
  have hdup : NoPanic b.validateNoDuplicates := by
    unfold validateNoDuplicates
    split <;> simp [LedgerError.isPanic]
  have hreward : NoPanic b.validateReward := by
    unfold validateReward
    split <;> simp [noPanic_ite, LedgerError.isPanic, reward_noPanic]
  have hsizes : NoPanic (forM b.transactions fun s => s.validateSize) :=
    noPanic_forM (fun s => by simp [SignedTx.validateSize, noPanic_ite, LedgerError.isPanic]) _
  simp [validateBody, noPanic_ite, LedgerError.isPanic, hdup, hreward, hsizes]

end Block

namespace Chain

open ChainM

theorem containsBlock_noPanic (c : Chain) (h : Digest) : NoPanic (c.containsBlock h) := by
  unfold containsBlock Store.contains
  split
  · simp
  · simp [c.store.get?_noPanic]

theorem getBlock_noPanic (h : Digest) (c : Chain) : NoPanic ((getBlock h).run.run c).1 := by
  rw [getBlock_run]
  split
  · simp
  · split
    · rename_i e hget
      exact noPanic_error.mpr (c.store.get?_noPanic _ e hget)
    · simp [LedgerError.isPanic]
    · split
      · rename_i e hdec
        exact noPanic_error.mpr (decodeRecord_noPanic _ _ e hdec)
      · simp

theorem checkNext_noPanic (b : Block) (c : Chain) : NoPanic ((checkNext b).run.run c).1 := by
  rw [checkNext_run]
  split
  · rename_i e hnext
    exact noPanic_error.mpr (validateNext_noPanic c.tip b.header e hnext)
  · split
    · rename_i e hbody
      exact noPanic_error.mpr (b.validateBody_noPanic _ e hbody)
    · have hget := getBlock_noPanic c.tip.hash c
      split
      · rename_i e c₁ hrun
        rw [hrun] at hget
        exact noPanic_error.mpr (noPanic_error.mp hget)
      · split <;> simp [LedgerError.isPanic]

theorem checkApplied_noPanic (applied : Application) (h : Header) : NoPanic (checkApplied applied h) := by
  simp [checkApplied, noPanic_ite, LedgerError.isPanic]

variable {σ : Ledger.Accounts}

/-- Committing a block panics only as its application does. -/
theorem commitBlock_noPanic {b : Block} {length : UInt64} {t : Txn} (hσ : t.Reads σ)
    (h : ¬ Ledger.ReachesNonceTop σ b.transactions) : NoPanic ((commitBlock b length).run t) := by
  rw [commitBlock_run]
  have happly := Ledger.applyBlockIn_noPanic hσ h
  revert happly
  cases (Ledger.applyBlockIn b).run t with
  | error e => exact fun h => noPanic_error.mpr (noPanic_error.mp h)
  | ok p => exact fun _ => noPanic_map.mpr (checkApplied_noPanic _ _)

/-- An append panics only at a chain of `2 ^ 64 - 1` blocks, or when a
transaction of the block meets a party with the top nonce. -/
theorem append_noPanic {b : Block} {c : Chain} (hσ : ∀ a, c.store.account a = .ok (σ a))
    (hlen : c.tip.length.toNat ≠ 2 ^ 64 - 1) (h : ¬ Ledger.ReachesNonceTop σ b.transactions) :
    NoPanic ((append b).run.run c).1 := by
  rw [append_run]
  split
  · rename_i e hknown
    exact noPanic_error.mpr (c.containsBlock_noPanic _ e hknown)
  · simp
  · have hcheck := checkNext_noPanic b c
    have hframe := checkNext_frame b c
    split
    · rename_i e c₁ hrun
      rw [hrun] at hcheck
      exact noPanic_error.mpr (noPanic_error.mp hcheck)
    · rename_i c₁ hrun
      rw [hrun] at hframe
      -- the checks leave the store and the tip, so the length and the accounts are the chain's
      split
      · rename_i e hadd
        have hlt : c₁.tip.length.toNat + 1 < 2 ^ 64 := by
          rw [hframe.tip]
          have := c.tip.length.toNat_lt
          omega
        exact noPanic_error.mpr (noPanic_addWord.mpr (by simpa using hlt) e hadd)
      · rename_i length _
        have hreads : (⟨c₁.store, []⟩ : Txn).Reads σ := by
          rw [hframe.store]
          exact hσ
        split
        · rename_i e hupdate
          exact noPanic_error.mpr (Store.update_noPanic (commitBlock_noPanic hreads h) e hupdate)
        · simp

/-- Preparing a block panics only when the tip block is dated `2 ^ 63 - 1`,
or when a transaction meets a party with the top nonce in the dry run. -/
theorem prepareBlock_noPanic {now : Int} {txs : List SignedTx} {coinbase : Address} {c : Chain}
    (hσ : ∀ a, c.store.account a = .ok (σ a))
    (htime : ∀ parent c₁, (getBlock c.tip.hash).run.run c = (.ok parent, c₁) →
      parent.header.timestamp.toInt ≠ 2 ^ 63 - 1)
    (h : ¬ Ledger.ReachesNonceTop σ txs) : NoPanic ((prepareBlock now txs coinbase).run.run c).1 := by
  unfold prepareBlock
  by_cases hemp : txs.isEmpty = true
  · rw [if_pos hemp]
    exact noPanic_error.mpr rfl
  rw [if_neg hemp]
  simp only [run_bind, run_get]
  have hget := getBlock_noPanic c.tip.hash c
  cases hrun : (getBlock c.tip.hash).run.run c with
  | mk r c₁ =>
  rw [hrun] at hget
  have hframe := Frame.of_getBlock hrun
  cases r with
  | error e => exact hget
  | ok parent =>
  dsimp only
  -- one past the parent's time fits unless the parent is dated at the top
  have hbound : ¬ parent.header.timestamp.toInt + 1 ≥ ↑(Nat.pow 2 63) := by
    have hne := htime parent c₁ hrun
    have hlt := parent.header.timestamp.toInt_lt
    have hpow : ((Nat.pow 2 63 : Nat) : Int) = 2 ^ 63 := by norm_num
    rw [hpow]
    omega
  rw [if_neg hbound]
  simp only [run_bind, run_get, run_lift]
  rw [Store.dryRun_eq, hframe.store]
  have hnp : ∀ hdr : Header, NoPanic ((Ledger.applyBlockIn ⟨hdr, txs⟩).run ⟨c.store, []⟩) :=
    fun _ => Ledger.applyBlockIn_noPanic hσ h
  cases happly : (Ledger.applyBlockIn ⟨⟨c.tip.hash, Header.zero.hash, c.tip.nextNumber,
      Int64.ofInt (max now (parent.header.timestamp.toInt + 1)), Header.zero.stateRoot, Block.txRootOf txs,
      Header.zero.receiptRoot, Header.zero.netherUsed, coinbase, Header.zero.nonce⟩, txs⟩).run
      ⟨c.store, []⟩ with
  | error e => exact noPanic_error.mpr (hnp _ e happly)
  | ok p => exact noPanic_ok _

/-- The converse at the time: on a tip block dated `2 ^ 63 - 1`, preparing any
block panics, for its timestamp, one past the tip's, does not fit. -/
theorem prepareBlock_at_last_time {now : Int} {txs : List SignedTx} {coinbase : Address} {c c₁ : Chain}
    {parent : Block} (hne : txs ≠ []) (hrun : (getBlock c.tip.hash).run.run c = (.ok parent, c₁))
    (htop : parent.header.timestamp.toInt = 2 ^ 63 - 1) :
    ((prepareBlock now txs coinbase).run.run c).1 = .error (.arithmeticOverflow "add") := by
  unfold prepareBlock
  rw [if_neg (by simpa using hne)]
  simp only [run_bind, run_get]
  rw [hrun]
  dsimp only
  have hbound : parent.header.timestamp.toInt + 1 ≥ ↑(Nat.pow 2 63) := by
    rw [htop]
    norm_num
  rw [if_pos hbound]
  rfl

end Chain

/-! ## Mining -/

namespace Mining

/-- A search of stride one whose attempts count its nonces panics only when
no nonce from its own on seals: the count overflows after the last one. -/
theorem search_noPanic {pre : ByteArray} {bits nonce attempts : Nat} {w : Watch} (hcount : nonce = attempts)
    (hseal : ∃ m, nonce ≤ m ∧ m < nonceSpace ∧ Target.meets (hashAt pre m) bits = true) :
    NoPanic (search pre bits 1 w nonce attempts) := by
  fun_induction search pre bits 1 w nonce attempts with
  | case1 => simp [LedgerError.isPanic]
  | case2 => simp [LedgerError.isPanic]
  | case3 => simp
  | case4 nonce attempts _ _ _ hmiss hlast =>
    -- the only nonce left to seal is the last one, which this attempt tried
    obtain ⟨m, hle, hlt, hmeets⟩ := hseal
    obtain rfl : m = nonce := by
      simp only [nonceSpace] at hlt hlast
      omega
    exact absurd hmeets hmiss
  | case5 => simp [LedgerError.isPanic]
  | case6 nonce attempts _ _ _ hmiss _ _ ih =>
    obtain ⟨m, hle, hlt, hmeets⟩ := hseal
    have hne : m ≠ nonce := by
      rintro rfl
      exact hmiss hmeets
    exact ih (by omega) ⟨m, by omega, hlt, hmeets⟩

/-- A search of stride at least two never panics: its nonce grows by the
stride at every attempt, so the count of attempts stays below half the nonce
space and the nonces run out first. -/
theorem search_noPanic_of_stride {pre : ByteArray} {bits stride nonce attempts : Nat} {w : Watch}
    (hstride : 2 ≤ stride) (hlt : nonce < nonceSpace) (hcount : 2 * attempts ≤ nonce) :
    NoPanic (search pre bits stride w nonce attempts) := by
  fun_induction search pre bits stride w nonce attempts with
  | case1 => simp [LedgerError.isPanic]
  | case2 => simp [LedgerError.isPanic]
  | case3 => simp
  | case4 nonce attempts _ _ _ _ hlast =>
    simp only [nonceSpace] at hlt hlast
    omega
  | case5 => simp [LedgerError.isPanic]
  | case6 nonce attempts _ _ _ _ _ hnext ih => exact ih (by omega) (by omega)

/-- The workers' answers combine into one of their failures, a timeout or a
cancellation: no panic of its own. -/
theorem collect_noPanic {rs : List (Result Seal)} (h : ∀ r ∈ rs, NoPanic r) (timedOut : Bool) :
    NoPanic (collect rs timedOut) := by
  fun_induction collect rs timedOut with
  | case1 timedOut => cases timedOut <;> simp [LedgerError.isPanic]
  | case2 => simp
  | case3 rest _ ih => exact ih fun r hr => h r (List.mem_cons_of_mem _ hr)
  | case4 rest _ ih => exact ih fun r hr => h r (List.mem_cons_of_mem _ hr)
  | case5 e rest _ _ _ => exact h _ List.mem_cons_self

/-- Mining panics only on the calling thread, when no nonce seals the header:
workers in parallel stride by two or more. -/
theorem mineParallel_noPanic {h : Header} {bits : Nat} {threads : UInt64} {watch : Nat → Watch}
    (hseal : threads ≤ 1 → ∃ n, Seals h bits n) : NoPanic (mineParallel h bits threads watch) := by
  unfold mineParallel
  split
  · rename_i hle
    obtain ⟨n, hn⟩ := hseal hle
    exact search_noPanic rfl ⟨n.toNat, Nat.zero_le _, n.toNat_lt, (seals_iff _ _ _).mp hn⟩
  · rename_i hgt
    have htwo : 2 ≤ threads.toNat := by
      rw [UInt64.le_iff_toNat_le] at hgt
      simp at hgt
      omega
    refine collect_noPanic (fun r hr => ?_) false
    obtain ⟨j, hj, rfl⟩ := List.mem_map.mp hr
    exact search_noPanic_of_stride htwo ((List.mem_range.mp hj).trans threads.toNat_lt) (by omega)

theorem mineBlockWith_noPanic {b : Block} {bits : Nat} {threads : UInt64} {watch : Nat → Watch}
    (hseal : threads ≤ 1 → ∃ n, Seals b.header bits n) : NoPanic (mineBlockWith b bits threads watch) := by
  have hmine : NoPanic (mineParallel b.header bits threads watch) := mineParallel_noPanic hseal
  unfold mineBlockWith
  cases hm : mineParallel b.header bits threads watch with
  | error e =>
    rw [hm] at hmine
    simpa using hmine
  | ok s => simp

end Mining

namespace Chain

open ChainM

variable {σ : Ledger.Accounts}

/-- Mining on the tip panics only as preparing its block does, or, on the
calling thread alone, when no nonce seals the prepared header. -/
theorem mineBlock_noPanic {rewardTime now : Int} {txs : List SignedTx} {coinbase : Address}
    {threads : UInt64} {watch : Nat → Mining.Watch} {c : Chain} (hσ : ∀ a, c.store.account a = .ok (σ a))
    (htime : ∀ parent c₁, (getBlock c.tip.hash).run.run c = (.ok parent, c₁) →
      parent.header.timestamp.toInt ≠ 2 ^ 63 - 1)
    (h : ¬ Ledger.ReachesNonceTop σ txs)
    (hseal : threads ≤ 1 → ∀ r b c₁, r.isReward = true →
      (prepareBlock now (txs ++ [r]) coinbase).run.run c = (.ok b, c₁) → ∃ n, Mining.Seals b.header c.difficulty n) :
    NoPanic ((mineBlock rewardTime now txs coinbase threads watch).run.run c).1 := by
  unfold mineBlock
  simp only [run_bind, run_get, run_lift]
  cases hreward : Block.reward txs with
  | error e => exact noPanic_error.mpr (Block.reward_noPanic txs e hreward)
  | ok v =>
  dsimp only
  -- the reward moves no nonce, so the block meets the top nonce only where `txs` does
  have hreach : ¬ Ledger.ReachesNonceTop σ
      (txs ++ [SignedTx.reward coinbase v c.tip.nextNumber (Int64.ofInt rewardTime)]) :=
    fun hr => h (Ledger.ReachesNonceTop.of_append_reward rfl hr)
  have hprep : NoPanic ((prepareBlock now (txs ++ [SignedTx.reward coinbase v c.tip.nextNumber
      (Int64.ofInt rewardTime)]) coinbase).run.run c).1 := prepareBlock_noPanic hσ htime hreach
  cases hrun : (prepareBlock now (txs ++ [SignedTx.reward coinbase v c.tip.nextNumber
    (Int64.ofInt rewardTime)]) coinbase).run.run c with
  | mk r c₁ =>
  rw [hrun] at hprep
  cases r with
  | error e => exact hprep
  | ok b =>
  dsimp only
  have hmine : NoPanic (Mining.mineBlockWith b c.difficulty threads watch) :=
    Mining.mineBlockWith_noPanic fun hle => hseal hle _ b c₁ rfl hrun
  cases hm : Mining.mineBlockWith b c.difficulty threads watch with
  | error e => exact noPanic_error.mpr (hmine e hm)
  | ok b' => simp

/-! ## Every chain grown from a genesis record -/

/-- Where a chain `c`, whose store reads the accounts `σ`, can panic.  An
append panics only at a chain of `2 ^ 64 - 1` blocks or at a transaction of
the block that meets a party with the top nonce; preparing a block only at a
tip block dated `2 ^ 63 - 1` or at such a transaction; mining only for those
causes or, on the calling thread alone, when no nonce seals the prepared
header; admitting a transaction only when the pending accounts show one of its
parties with the top nonce; and applying a block, in any store transaction,
only at such a transaction. -/
structure PanicCauses (c : Chain) (σ : Ledger.Accounts) : Prop where
  append : ∀ b, Panics ((append b).run.run c).1 →
    c.tip.length.toNat = 2 ^ 64 - 1 ∨ Ledger.ReachesNonceTop σ b.transactions
  prepare : ∀ now txs coinbase, Panics ((prepareBlock now txs coinbase).run.run c).1 →
    (∃ parent c₁, (getBlock c.tip.hash).run.run c = (.ok parent, c₁) ∧
      parent.header.timestamp.toInt = 2 ^ 63 - 1) ∨ Ledger.ReachesNonceTop σ txs
  mine : ∀ rewardTime now txs coinbase threads watch,
    Panics ((mineBlock rewardTime now txs coinbase threads watch).run.run c).1 →
      (∃ parent c₁, (getBlock c.tip.hash).run.run c = (.ok parent, c₁) ∧
        parent.header.timestamp.toInt = 2 ^ 63 - 1) ∨ Ledger.ReachesNonceTop σ txs ∨
      threads ≤ 1 ∧ ∃ r b c₁, r.isReward = true ∧ (prepareBlock now (txs ++ [r]) coinbase).run.run c = (.ok b, c₁) ∧
        ∀ n, ¬ Mining.Seals b.header c.difficulty n
  accept : ∀ (p : Pool) (tx : SignedTx), Panics (p.accept c.store tx) →
    ∃ a acct, (a = tx.tx.sender ∨ a = tx.tx.recipient) ∧ p.pendingAccount c.store a = .ok acct ∧
      acct.nonce.toNat = 2 ^ 64 - 1
  apply : ∀ (t : Txn) (σ' : Ledger.Accounts) (b : Block), t.Reads σ' →
    Panics ((Ledger.applyBlockIn b).run t) → Ledger.ReachesNonceTop σ' b.transactions

/-- On a chain grown from a genesis record, a panic has one of the causes of
`PanicCauses` and no other. -/
theorem Grown.panic_causes {g : Genesis} {c : Chain} (hg : Grown g c) :
    ∃ σ : Ledger.Accounts, (∀ a, c.store.account a = .ok (σ a)) ∧ PanicCauses c σ := by
  obtain ⟨m, blocks, σ, hb⟩ := hg.booked
  -- each part is the contrapositive of the matching no-panic lemma
  refine ⟨σ, hb.reads, ⟨?_, ?_, ?_, ?_, ?_⟩⟩
  · intro b hp
    by_contra hno
    rw [not_or] at hno
    exact panics_iff_not_noPanic.mp hp (append_noPanic hb.reads hno.1 hno.2)
  · intro now txs coinbase hp
    by_contra hno
    rw [not_or] at hno
    exact panics_iff_not_noPanic.mp hp (prepareBlock_noPanic hb.reads
      (fun parent c₁ hrun htop => hno.1 ⟨parent, c₁, hrun, htop⟩) hno.2)
  · intro rewardTime now txs coinbase threads watch hp
    by_contra hno
    rw [not_or, not_or] at hno
    obtain ⟨htime, hreach, hseal⟩ := hno
    have hsealed : threads ≤ 1 → ∀ r b c₁, r.isReward = true →
        (prepareBlock now (txs ++ [r]) coinbase).run.run c = (.ok b, c₁) →
        ∃ n, Mining.Seals b.header c.difficulty n := fun hle r b c₁ hr hprep => by
      by_contra hnone
      exact hseal ⟨hle, r, b, c₁, hr, hprep, not_exists.mp hnone⟩
    exact panics_iff_not_noPanic.mp hp (mineBlock_noPanic hb.reads
      (fun parent c₁ hrun htop => htime ⟨parent, c₁, hrun, htop⟩) hreach hsealed)
  · intro p tx hp
    by_contra hno
    exact panics_iff_not_noPanic.mp hp (p.accept_noPanic c.store tx
      fun a ha acct hacct htop => hno ⟨a, acct, ha, hacct, htop⟩)
  · intro t σ' b ht hp
    by_contra hno
    exact panics_iff_not_noPanic.mp hp (Ledger.applyBlockIn_noPanic ht hno)

end Chain
end PowChain
