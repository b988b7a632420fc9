import PowChain.Ledger.Engine
import PowChain.Proofs.Store.Contract

/-!
# Applying a block one transaction at a time

`Ledger.applyFrom` applies a block's transactions in order inside a store
transaction.  This file states what one step does as an equation on the
transaction state (`applyReward_run`, `applyStandard_run`,
`applyFrom_cons_run`, `applyBlockIn_run`), so that every later property of
block application is an induction over the block's transactions that does not
reopen the monadic code.

The first such property is the write set: applying a block writes only the
balance records of the addresses it touches (the recipient of a reward, both
parties of a standard transaction) and the transaction and receipt records of
its transactions (`applyBlockIn_writesWithin`).
-/

namespace PowChain

/-! ## Results -/

theorem Except.bind_eq_ok {ε α β : Type} {x : Except ε α} {f : α → Except ε β} {b : β} :
    x >>= f = .ok b ↔ ∃ a, x = .ok a ∧ f a = .ok b := by
  cases x with
  | error e => simp [bind, Except.bind]
  | ok a => simp [bind, Except.bind]

/-- A mapped result is `ok` exactly when the result is, with the value
mapped. -/
theorem Except.map_eq_ok {ε α β : Type} {x : Except ε α} {f : α → β} {b : β} :
    x.map f = .ok b ↔ ∃ a, x = .ok a ∧ f a = b := by
  cases x with
  | error e => simp [Except.map]
  | ok a => simp [Except.map]

theorem List.forM_eq_ok {ε α : Type} {f : α → Except ε Unit} {l : List α} :
    l.forM f = .ok () ↔ ∀ x ∈ l, f x = .ok () := by
  induction l with
  | nil => simp [List.forM, pure, Except.pure]
  | cons x l ih =>
    rw [List.forM, Except.bind_eq_ok, List.forall_mem_cons, ← ih]
    constructor
    · rintro ⟨⟨⟩, hx, hl⟩
      exact ⟨hx, hl⟩
    · rintro ⟨hx, hl⟩
      exact ⟨(), hx, hl⟩

namespace Ledger

/-- One transaction of a block, its receipt not yet placed: a reward is
credited; a standard transaction has its signature checked and is
transferred. -/
def applyOne (s : SignedTx) : TxnM Receipt :=
  if s.isReward then applyReward s
  else (liftM s.verifyAuthentic : TxnM Unit) >>= fun _ => applyStandard s

/-- The addresses whose records one transaction writes. -/
def touchedBy (s : SignedTx) : List Address :=
  if s.isReward then [s.tx.recipient] else [s.tx.recipient, s.tx.sender]

/-- A receipt placed at position `i` of the block with header `h`. -/
def placeReceipt (r : Receipt) (h : Header) (i : Nat) : Receipt :=
  { r with blockHash := h.hash, blockNumber := h.number, txIndex := i.toUInt32 }

/-- The accounts of some addresses as a transaction sees them. -/
def readPost (t : Txn) (l : List Address) : Result (List (Address × Account)) :=
  l.mapM fun a => do pure (a, ← t.account a)

/-- A sum of two words that fits in 64 bits is the sum of their values. -/
theorem UInt64.toNat_add_of_lt {a b : UInt64} (h : a.toNat + b.toNat < 2 ^ 64) :
    (a + b).toNat = a.toNat + b.toNat := by
  rw [UInt64.toNat_add]
  exact Nat.mod_eq_of_lt h

/-- A checked addition succeeds exactly when the sum fits in 64 bits, and then
with the sum. -/
theorem addWord_eq_ok_iff {a b r : UInt64} :
    addWord a b = .ok r ↔ a.toNat + b.toNat < 2 ^ 64 ∧ r = a + b := by
  unfold addWord
  split
  · rename_i hlt
    exact ⟨fun h => ⟨hlt, (Except.ok.inj h).symm⟩, fun ⟨_, h⟩ => h ▸ rfl⟩
  · rename_i hge
    exact ⟨nofun, fun ⟨hlt, _⟩ => absurd hlt hge⟩

/-- A checked addition succeeds with the sum of the two words. -/
theorem addWord_eq_ok {a b r : UInt64} (h : addWord a b = .ok r) : r.toNat = a.toNat + b.toNat := by
  obtain ⟨hlt, rfl⟩ := addWord_eq_ok_iff.mp h
  exact UInt64.toNat_add_of_lt hlt

/-- A checked addition within 64 bits succeeds with the sum. -/
theorem addWord_of_lt {a b : UInt64} (h : a.toNat + b.toNat < 2 ^ 64) : addWord a b = .ok (a + b) :=
  if_pos h

/-! ## One step at a time -/

theorem applyReward_run (s : SignedTx) (t : Txn) :
    (applyReward s).run t = (s.tx.credit t.account).map fun miner =>
      (Receipt.unplaced s.tx.recipient miner.balance s 0,
        t.set (Keys.balance s.tx.recipient.encode) miner.toWire) := by
  simp only [applyReward, TxnM.putAccount, TxnM.set, StateT.run_bind, StateT.run_get, liftM,
    monadLift, MonadLift.monadLift, StateT.run_lift, StateT.run_modify, StateT.run_pure, pure_bind,
    bind_assoc]
  cases s.tx.credit t.account <;> rfl

theorem applyStandard_run (s : SignedTx) (t : Txn) :
    (applyStandard s).run t = (s.tx.transfer t.account).bind fun p =>
      (s.tx.netherUsed).map fun used =>
        (Receipt.unplaced s.tx.sender p.1.balance s used,
          (t.set (Keys.balance s.tx.sender.encode) p.1.toWire).set
            (Keys.balance s.tx.recipient.encode) p.2.toWire) := by
  simp only [applyStandard, TxnM.putAccount, TxnM.set, StateT.run_bind, StateT.run_get, liftM,
    monadLift, MonadLift.monadLift, StateT.run_lift, StateT.run_modify, StateT.run_pure, pure_bind,
    bind_assoc]
  cases s.tx.transfer t.account with
  | error e => rfl
  | ok p => cases s.tx.netherUsed <;> rfl

theorem applyOne_run_reward {s : SignedTx} (hr : s.isReward = true) (t : Txn) :
    (applyOne s).run t = (applyReward s).run t := by
  simp [applyOne, hr]

theorem applyOne_run_standard {s : SignedTx} (hr : s.isReward = false) (t : Txn) :
    (applyOne s).run t = s.verifyAuthentic.bind fun _ => (applyStandard s).run t := by
  simp only [applyOne, hr, Bool.false_eq_true, if_false, StateT.run_bind, liftM, monadLift,
    MonadLift.monadLift, StateT.run_lift]
  cases s.verifyAuthentic <;> rfl

/-- What a transaction that applies did.  A reward was credited to its
recipient, whose record alone was written; a standard transaction was
authentic and transferred, and the sender's record was written, then the
recipient's. -/
theorem applyOne_eq_ok {s : SignedTx} {t t' : Txn} {r : Receipt} (h : (applyOne s).run t = .ok (r, t')) :
    (s.isReward = true ∧ ∃ miner, s.tx.credit t.account = .ok miner ∧
      r = Receipt.unplaced s.tx.recipient miner.balance s 0 ∧
      t' = t.set (Keys.balance s.tx.recipient.encode) miner.toWire) ∨
    (s.isReward = false ∧ s.verifyAuthentic = .ok () ∧ ∃ p used, s.tx.transfer t.account = .ok p ∧
      s.tx.netherUsed = .ok used ∧ r = Receipt.unplaced s.tx.sender p.1.balance s used ∧
      t' = (t.set (Keys.balance s.tx.sender.encode) p.1.toWire).set
        (Keys.balance s.tx.recipient.encode) p.2.toWire) := by
  cases hr : s.isReward with
  | true =>
    rw [applyOne_run_reward hr, applyReward_run] at h
    cases hc : s.tx.credit t.account with
    | error e => simp [hc, Except.map] at h
    | ok miner =>
      simp only [hc, Except.map, Except.ok.injEq, Prod.mk.injEq] at h
      exact .inl ⟨rfl, miner, rfl, h.1.symm, h.2.symm⟩
  | false =>
    rw [applyOne_run_standard hr, applyStandard_run] at h
    cases hv : s.verifyAuthentic with
    | error e => simp [hv, Except.bind] at h
    | ok u =>
      cases ht : s.tx.transfer t.account with
      | error e => simp [hv, ht, Except.bind] at h
      | ok p =>
        cases hn : s.tx.netherUsed with
        | error e => simp [hv, ht, hn, Except.bind, Except.map] at h
        | ok used =>
          simp only [hv, ht, hn, Except.bind, Except.map, Except.ok.injEq, Prod.mk.injEq] at h
          exact .inr ⟨rfl, rfl, p, used, rfl, rfl, h.1.symm, h.2.symm⟩

theorem applyFrom_nil_run (h : Header) (i : Nat) (touched : List Address) (used : UInt64)
    (acc : List Receipt) (t : Txn) :
    (applyFrom h i [] touched used acc).run t = .ok ((acc.reverse, touched, used), t) := rfl

/-- One step of `applyFrom`: the transaction is applied, its nether used
added to the running total, which must fit in 64 bits, and its placed
receipt recorded under its hash with the transaction itself. -/
theorem applyFrom_cons_run (h : Header) (i : Nat) (s : SignedTx) (rest : List SignedTx)
    (touched : List Address) (used : UInt64) (acc : List Receipt) (t : Txn) :
    (applyFrom h i (s :: rest) touched used acc).run t =
      match (applyOne s).run t with
      | .error e => .error e
      | .ok (r, t₁) =>
        if used.toNat + r.netherUsed.toNat ≥ Nat.pow 2 64 then
          .error (.invalidBlock "Block nether usage overflows")
        else
          (applyFrom h (i + 1) rest (touchedBy s ++ touched) (used + r.netherUsed)
            (placeReceipt r h i :: acc)).run
            ((t₁.set (Keys.transaction s.hash.bytes) s.toWire).set
              (Keys.receipt s.hash.bytes) (placeReceipt r h i).toWire) := by
  rw [applyFrom]
  by_cases hr : s.isReward
  · simp only [hr, if_true, StateT.run_bind, pure_bind, liftM, monadLift, MonadLift.monadLift,
      applyOne_run_reward hr]
    cases hrun : (applyReward s).run t with
    | error e => rfl
    | ok p =>
      obtain ⟨r, t₁⟩ := p
      -- a reward's receipt is recorded under the reward's own hash
      have hhash : r.txHash = s.hash := by
        rw [applyReward_run] at hrun
        cases hc : s.tx.credit t.account <;> simp [hc, Except.map] at hrun
        rw [← hrun.1]
        rfl
      simp only [bind, Except.bind, touchedBy, hr, if_true, List.singleton_append, placeReceipt,
        hhash]
      by_cases hov : used.toNat + r.netherUsed.toNat ≥ Nat.pow 2 64
      · rw [if_pos hov, if_pos hov]
        rfl
      · rw [if_neg hov, if_neg hov]
        rfl
  · simp only [hr, Bool.false_eq_true, if_false, StateT.run_bind, pure_bind, liftM, monadLift,
      MonadLift.monadLift, StateT.run_lift, applyOne_run_standard (Bool.eq_false_iff.mpr hr)]
    cases hv : s.verifyAuthentic with
    | error e => rfl
    | ok u =>
      simp only [bind, Except.bind, pure, Except.pure]
      cases hrun : (applyStandard s).run t with
      | error e => rfl
      | ok p =>
        obtain ⟨r, t₁⟩ := p
        have hhash : r.txHash = s.hash := by
          rw [applyStandard_run] at hrun
          cases hc : s.tx.transfer t.account <;>
            cases hn : s.tx.netherUsed <;> simp [hc, hn, Except.map, Except.bind] at hrun
          rw [← hrun.1]
          rfl
        simp only [touchedBy, hr, Bool.false_eq_true, if_false, List.cons_append, List.nil_append,
          placeReceipt, hhash]
        by_cases hov : used.toNat + r.netherUsed.toNat ≥ Nat.pow 2 64
        · rw [if_pos hov, if_pos hov]
          rfl
        · rw [if_neg hov, if_neg hov]
          rfl

/-- A step of `applyFrom` that goes through: the transaction applied, the
running total of nether stayed within 64 bits, and the rest of the block
applied over the transaction's record and its placed receipt. -/
theorem applyFrom_cons_eq_ok {h : Header} {i : Nat} {s : SignedTx} {rest : List SignedTx}
    {touched : List Address} {used : UInt64} {acc : List Receipt} {t t' : Txn}
    {res : List Receipt × List Address × UInt64}
    (hrun : (applyFrom h i (s :: rest) touched used acc).run t = .ok (res, t')) :
    ∃ r t₁, (applyOne s).run t = .ok (r, t₁) ∧ used.toNat + r.netherUsed.toNat < 2 ^ 64 ∧
      (applyFrom h (i + 1) rest (touchedBy s ++ touched) (used + r.netherUsed)
        (placeReceipt r h i :: acc)).run
        ((t₁.set (Keys.transaction s.hash.bytes) s.toWire).set
          (Keys.receipt s.hash.bytes) (placeReceipt r h i).toWire) = .ok (res, t') := by
  rw [applyFrom_cons_run] at hrun
  cases hone : (applyOne s).run t with
  | error e => simp [hone] at hrun
  | ok p =>
    obtain ⟨r, t₁⟩ := p
    rw [hone] at hrun
    simp only at hrun
    split at hrun
    · cases hrun
    · rename_i hfit
      simp only [ge_iff_le, Nat.pow_eq, not_le] at hfit
      exact ⟨r, t₁, rfl, hfit, hrun⟩

theorem account_run (a : Address) (t : Txn) : (TxnM.account a).run t = (t.account a).map (·, t) := by
  simp only [TxnM.account, StateT.run_bind, StateT.run_get, liftM, monadLift, MonadLift.monadLift,
    StateT.run_lift, pure_bind]
  cases t.account a <;> rfl

/-- Steps that leave the state alone leave it alone in sequence. -/
theorem mapM_run_of_keeps {σ ε α β : Type} (f : α → StateT σ (Except ε) β) (g : α → Except ε β)
    (s : σ) (hf : ∀ a, (f a).run s = (g a).map (·, s)) (l : List α) :
    (l.mapM f).run s = (l.mapM g).map (·, s) := by
  induction l with
  | nil => rfl
  | cons a l ih =>
    rw [List.mapM_cons, List.mapM_cons, StateT.run_bind, hf]
    cases g a with
    | error e => rfl
    | ok b =>
      show (l.mapM f >>= fun bs => pure (b :: bs)).run s = _
      rw [StateT.run_bind, ih]
      cases l.mapM g <;> rfl

/-- Reading accounts leaves the transaction as it is. -/
theorem mapM_account_run (l : List Address) (t : Txn) :
    (l.mapM fun a => do pure (a, ← TxnM.account a)).run t = (readPost t l).map (·, t) := by
  refine mapM_run_of_keeps _ _ t (fun a => ?_) l
  rw [StateT.run_bind, account_run]
  cases t.account a <;> rfl

/-- Applying a block: its transactions in order, then the accounts they
touched are read for the state root. -/
theorem applyBlockIn_run (b : Block) (t : Txn) :
    (applyBlockIn b).run t =
      match (applyFrom b.header 0 b.transactions [] 0 []).run t with
      | .error e => .error e
      | .ok ((receipts, touched, used), t₁) =>
        (readPost t₁ touched).map fun post =>
          (⟨receipts, used, stateRoot post, Merkle.root (receipts.map Receipt.bodyHash)⟩, t₁) := by
  simp only [applyBlockIn, StateT.run_bind]
  cases (applyFrom b.header 0 b.transactions [] 0 []).run t with
  | error e => rfl
  | ok p =>
    obtain ⟨⟨receipts, touched, used⟩, t₁⟩ := p
    simp only [bind, Except.bind]
    erw [mapM_account_run]
    cases readPost t₁ touched <;> rfl

/-- A block that applies: its transactions applied in order, leaving the
transaction state, and the accounts they touched were read back for the state
root. -/
theorem applyBlockIn_eq_ok {b : Block} {t t' : Txn} {a : Application}
    (h : (applyBlockIn b).run t = .ok (a, t')) :
    ∃ receipts touched used post,
      (applyFrom b.header 0 b.transactions [] 0 []).run t = .ok ((receipts, touched, used), t') ∧
      readPost t' touched = .ok post ∧
      a = ⟨receipts, used, stateRoot post, Merkle.root (receipts.map Receipt.bodyHash)⟩ := by
  rw [applyBlockIn_run] at h
  cases hrun : (applyFrom b.header 0 b.transactions [] 0 []).run t with
  | error e => simp [hrun] at h
  | ok p =>
    obtain ⟨⟨receipts, touched, used⟩, t₁⟩ := p
    rw [hrun] at h
    cases hp : readPost t₁ touched with
    | error e => simp [hp, Except.map] at h
    | ok post =>
      simp only [hp, Except.map, Except.ok.injEq, Prod.mk.injEq] at h
      obtain ⟨rfl, rfl⟩ := h
      exact ⟨receipts, touched, used, post, rfl, hp, rfl⟩

/-! ## What a block writes -/

/-- A key that applying `txs` may write: the transaction and receipt records
of each transaction, and the balance records of the addresses it touches. -/
def LedgerKey (txs : List SignedTx) (k : ByteArray) : Prop :=
  ∃ s ∈ txs, k = Keys.transaction s.hash.bytes ∨ k = Keys.receipt s.hash.bytes ∨
    ∃ a ∈ touchedBy s, k = Keys.balance a.encode

theorem ledgerKey_cons_of_mem {s : SignedTx} {rest : List SignedTx} {k : ByteArray}
    (h : k = Keys.transaction s.hash.bytes ∨ k = Keys.receipt s.hash.bytes ∨
      ∃ a ∈ touchedBy s, k = Keys.balance a.encode) : LedgerKey (s :: rest) k :=
  ⟨s, List.mem_cons_self, h⟩

theorem ledgerKey_cons_of_rest {s : SignedTx} {rest : List SignedTx} {k : ByteArray}
    (h : LedgerKey rest k) : LedgerKey (s :: rest) k := by
  obtain ⟨s', hs', hk⟩ := h
  exact ⟨s', List.mem_cons_of_mem _ hs', hk⟩

/-- One transaction writes only the balance records of the addresses it
touches. -/
theorem applyOne_writesWithin {s : SignedTx} {t t' : Txn} {r : Receipt}
    (h : (applyOne s).run t = .ok (r, t')) :
    t.WritesWithin t' fun k => ∃ a ∈ touchedBy s, k = Keys.balance a.encode := by
  rcases applyOne_eq_ok h with ⟨hr, miner, -, -, rfl⟩ | ⟨hr, -, p, -, -, -, -, rfl⟩
  · exact Txn.WritesWithin.set t ⟨s.tx.recipient, by simp [touchedBy, hr], rfl⟩ _
  · exact (Txn.WritesWithin.set t ⟨s.tx.sender, by simp [touchedBy, hr], rfl⟩ _).trans
      (Txn.WritesWithin.set _ ⟨s.tx.recipient, by simp [touchedBy, hr], rfl⟩ _)

/-- Applying transactions writes only the keys they may write. -/
theorem applyFrom_writesWithin (h : Header) (txs : List SignedTx) :
    ∀ (i : Nat) (touched : List Address) (used : UInt64) (acc : List Receipt) (t t' : Txn) a,
      (applyFrom h i txs touched used acc).run t = .ok (a, t') → t.WritesWithin t' (LedgerKey txs) := by
  induction txs with
  | nil =>
    intro i touched used acc t t' a hrun
    rw [applyFrom_nil_run] at hrun
    cases hrun
    exact Txn.WritesWithin.refl t _
  | cons s rest ih =>
    intro i touched used acc t t' a hrun
    obtain ⟨r, t₁, hone, -, hrun⟩ := applyFrom_cons_eq_ok hrun
    -- the step's own writes, then the records of the transaction, then the rest
    have h₁ := (applyOne_writesWithin hone).mono fun k hk =>
      @ledgerKey_cons_of_mem s rest k (Or.inr (Or.inr hk))
    have h₂ := Txn.WritesWithin.set t₁
      (@ledgerKey_cons_of_mem s rest _ (Or.inl rfl)) s.toWire
    have h₃ := Txn.WritesWithin.set (t₁.set (Keys.transaction s.hash.bytes) s.toWire)
      (@ledgerKey_cons_of_mem s rest _ (Or.inr (Or.inl rfl))) (placeReceipt r h i).toWire
    have h₄ := (ih _ _ _ _ _ _ _ hrun).mono fun k hk => @ledgerKey_cons_of_rest s rest k hk
    exact h₁.trans (h₂.trans (h₃.trans h₄))

/-- Applying a block writes only the keys its transactions may write. -/
theorem applyBlockIn_writesWithin {b : Block} {t t' : Txn} {a : Application}
    (h : (applyBlockIn b).run t = .ok (a, t')) : t.WritesWithin t' (LedgerKey b.transactions) := by
  obtain ⟨_, _, _, _, hrun, -, -⟩ := applyBlockIn_eq_ok h
  exact applyFrom_writesWithin _ _ _ _ _ _ _ _ _ hrun

end Ledger
end PowChain
