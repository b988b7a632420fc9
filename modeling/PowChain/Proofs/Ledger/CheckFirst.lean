import PowChain.Proofs.Pool.Invariant

/-!
# Transfers check everything before they write

A transfer is computed from a lookup of accounts and gives back the two
accounts it leaves; the records are written by whoever asked for it, and only
once it went through.  This holds for both places accounts are kept: a store
transaction, and the pending pool's overlay.

* `Transaction.transfer_eq_ok_iff`, `Transaction.credit_eq_ok_iff` — when a
  transfer or a reward goes through, and what it leaves;
* `Transaction.transfer_of_short` — a sender that cannot cover the cost is
  reported as such whatever nonce the transaction carries: the balance is
  checked before the nonce;
* `Ledger.applyStandard_writes`, `Ledger.applyReward_writes` — in a store
  transaction, a transaction that fails writes nothing and one that goes
  through writes exactly its parties' accounts;
* `Pool.accept_absorbs` — the overlay takes a new transaction's two accounts
  only once its transfer went through on the overlay.

The checks of a transfer include one that is easy to miss: the recipient's
nonce must have room to move up.  At its top, a transfer that passes every
other check panics (`transfer_into_top_nonce_panics`).
-/

namespace PowChain

namespace Transaction

variable {load : AccountLookup} {tx : Transaction}

/-- A transfer goes through exactly when the parties differ, the cost fits,
the sender covers it and sends its next nonce, and the recipient's balance and
nonce both have room; the sender is then debited and the recipient credited. -/
theorem transfer_eq_ok_iff {q : Account × Account} :
    tx.transfer load = .ok q ↔ ∃ cost sender recipient, tx.sender ≠ tx.recipient ∧
      tx.cost = .ok cost ∧ load tx.sender = .ok sender ∧ load tx.recipient = .ok recipient ∧
      cost ≤ sender.balance ∧ tx.nonce.toNat = sender.nonce.toNat + 1 ∧
      recipient.balance.toNat + tx.value.toNat < 2 ^ 64 ∧ recipient.nonce.toNat + 1 < 2 ^ 64 ∧
      q = (⟨sender.balance - cost, tx.nonce⟩, ⟨recipient.balance + tx.value, recipient.nonce + 1⟩) := by
  constructor
  · exact transfer_eq_ok
  · rintro ⟨cost, sender, recipient, hne, hcost, hs, hr, hcov, hnonce, hfit, hrn, rfl⟩
    exact transfer_of_checks hne hcost hs hr hcov hnonce hfit hrn

/-- A reward goes through exactly when it is one and its recipient's balance
has room for its value, which is all that changes. -/
theorem credit_eq_ok_iff {miner : Account} :
    tx.credit load = .ok miner ↔ tx.isReward = true ∧ ∃ acct, load tx.recipient = .ok acct ∧
      acct.balance.toNat + tx.value.toNat < 2 ^ 64 ∧ miner = { acct with balance := acct.balance + tx.value } := by
  constructor
  · exact credit_eq_ok
  · rintro ⟨hreward, acct, hacct, hfit, rfl⟩
    exact credit_of_checks hreward hacct hfit

/-- A sender that cannot cover the cost is reported as short, whatever nonce
the transaction carries. -/
theorem transfer_of_short {cost : UInt64} {sender : Account} (hne : tx.sender ≠ tx.recipient)
    (hcost : tx.cost = .ok cost) (hs : load tx.sender = .ok sender) (hshort : sender.balance < cost) :
    tx.transfer load = .error (.insufficientBalance sender.balance.toNat cost.toNat) := by
  simp only [transfer, beq_iff_eq, hne, if_false, hcost, hs, hshort, if_true, bind, Except.bind]
  rfl

end Transaction

namespace Ledger

/-- In a store transaction, a standard transaction either fails as its
transfer does, before any write, or writes the two accounts its transfer
leaves: the sender's, then the recipient's. -/
theorem applyStandard_writes (s : SignedTx) (t : Txn) :
    (∃ e, s.tx.transfer t.account = .error e ∧ (applyStandard s).run t = .error e) ∨
      ∃ q r, s.tx.transfer t.account = .ok q ∧ (applyStandard s).run t =
        .ok (r, (t.set (Keys.balance s.tx.sender.encode) q.1.toWire).set
          (Keys.balance s.tx.recipient.encode) q.2.toWire) := by
  rw [applyStandard_run]
  cases ht : s.tx.transfer t.account with
  | error e => exact .inl ⟨e, rfl, rfl⟩
  | ok q =>
    right
    obtain ⟨cost, -, -, -, hcost, -⟩ := Transaction.transfer_eq_ok ht
    -- the fee fits, since the cost that holds it does
    rw [Transaction.netherUsed_of_cost hcost]
    exact ⟨q, _, rfl, rfl⟩

/-- In a store transaction, a reward either fails as its credit does, before
any write, or writes the one account its credit leaves. -/
theorem applyReward_writes (s : SignedTx) (t : Txn) :
    (∃ e, s.tx.credit t.account = .error e ∧ (applyReward s).run t = .error e) ∨
      ∃ miner r, s.tx.credit t.account = .ok miner ∧
        (applyReward s).run t = .ok (r, t.set (Keys.balance s.tx.recipient.encode) miner.toWire) := by
  rw [applyReward_run]
  cases s.tx.credit t.account with
  | error e => exact .inl ⟨e, rfl, rfl⟩
  | ok miner => exact .inr ⟨miner, _, rfl, rfl⟩

end Ledger

namespace Pool

/-- A new transaction that is admitted went through on the overlay, and the
overlay takes exactly the two accounts its transfer left. -/
theorem accept_absorbs {p p' : Pool} {s s' : Store} {stx : SignedTx} {r : Receipt}
    (h : p.accept s stx = .ok (r, p', s')) (hnew : p.find? stx.hash = none) :
    ∃ q, stx.tx.transfer (p.shadows.lookup s.account) = .ok q ∧
      p'.shadows = (p.shadows.put stx.tx.sender q.1).put stx.tx.recipient q.2 := by
  obtain ⟨-, ⟨e, hfind, -⟩ | ⟨-, q, htransfer, -, rfl⟩⟩ := accept_ok h
  · rw [hnew] at hfind
    cases hfind
  · exact ⟨q, htransfer, rfl⟩

end Pool

/-- Transfers and rewards write nothing on failure.  For every transaction
and every lookup of accounts, a transfer goes through exactly when its checks
pass (the recipient's nonce having room among them) and a short sender is
reported before a stale nonce; a reward goes through exactly when the
recipient's balance has room.  A store transaction writes the transaction's
accounts only once it went through, exactly those, and the pending pool's
overlay takes them only once the transfer went through there. -/
theorem transfer_writes_only_after_checks (s : SignedTx) (load : AccountLookup) :
    (∀ q : Account × Account,
      s.tx.transfer load = .ok q ↔ ∃ cost sender recipient, s.tx.sender ≠ s.tx.recipient ∧
        s.tx.cost = .ok cost ∧ load s.tx.sender = .ok sender ∧ load s.tx.recipient = .ok recipient ∧
        cost ≤ sender.balance ∧ s.tx.nonce.toNat = sender.nonce.toNat + 1 ∧
        recipient.balance.toNat + s.tx.value.toNat < 2 ^ 64 ∧ recipient.nonce.toNat + 1 < 2 ^ 64 ∧
        q = (⟨sender.balance - cost, s.tx.nonce⟩, ⟨recipient.balance + s.tx.value, recipient.nonce + 1⟩)) ∧
    (∀ (cost : UInt64) (sender : Account), s.tx.sender ≠ s.tx.recipient → s.tx.cost = .ok cost →
      load s.tx.sender = .ok sender → sender.balance < cost →
        s.tx.transfer load = .error (.insufficientBalance sender.balance.toNat cost.toNat)) ∧
    (∀ miner : Account,
      s.tx.credit load = .ok miner ↔ s.tx.isReward = true ∧ ∃ acct, load s.tx.recipient = .ok acct ∧
        acct.balance.toNat + s.tx.value.toNat < 2 ^ 64 ∧
        miner = { acct with balance := acct.balance + s.tx.value }) ∧
    (∀ t : Txn,
      (∃ e, s.tx.transfer t.account = .error e ∧ (Ledger.applyStandard s).run t = .error e) ∨
        ∃ q r, s.tx.transfer t.account = .ok q ∧ (Ledger.applyStandard s).run t =
          .ok (r, (t.set (Keys.balance s.tx.sender.encode) q.1.toWire).set
            (Keys.balance s.tx.recipient.encode) q.2.toWire)) ∧
    (∀ t : Txn,
      (∃ e, s.tx.credit t.account = .error e ∧ (Ledger.applyReward s).run t = .error e) ∨
        ∃ miner r, s.tx.credit t.account = .ok miner ∧
          (Ledger.applyReward s).run t = .ok (r, t.set (Keys.balance s.tx.recipient.encode) miner.toWire)) ∧
    (∀ (p p' : Pool) (st st' : Store) (r : Receipt),
      p.accept st s = .ok (r, p', st') → p.find? s.hash = none →
        ∃ q, s.tx.transfer (p.shadows.lookup st.account) = .ok q ∧
          p'.shadows = (p.shadows.put s.tx.sender q.1).put s.tx.recipient q.2) :=
  ⟨fun _ => Transaction.transfer_eq_ok_iff,
    fun _ _ hne hcost hs hshort => Transaction.transfer_of_short hne hcost hs hshort,
    fun _ => Transaction.credit_eq_ok_iff, Ledger.applyStandard_writes s, Ledger.applyReward_writes s,
    fun _ _ _ _ _ h hnew => Pool.accept_absorbs h hnew⟩

/-! ## A recipient at the top nonce -/

/-- A transfer of 10 from the zero address, its first, to the address of
twenty 3 bytes, with no fee. -/
def topTransfer : Transaction :=
  ⟨Address.zero, ⟨Bytes.replicate 20 3, Array.size_replicate⟩, 1, 10, 0, 0, ByteArray.empty, 0⟩

/-- The zero address holds 1000 and every other address nothing and the top
nonce. -/
def topLoad : AccountLookup := fun a =>
  if a = Address.zero then .ok ⟨1000, 0⟩ else .ok ⟨0, 18446744073709551615⟩

/-- Every check a transfer is said to make passes (the parties differ, the
cost of 10 fits and is covered, the nonce is the sender's next, the
recipient's balance has room), yet the transfer panics: the recipient's nonce
cannot move up. -/
theorem transfer_into_top_nonce_panics :
    topTransfer.sender ≠ topTransfer.recipient ∧ topTransfer.cost = .ok 10 ∧
      topLoad topTransfer.sender = .ok ⟨1000, 0⟩ ∧
      topLoad topTransfer.recipient = .ok ⟨0, 18446744073709551615⟩ ∧
      topTransfer.transfer topLoad = .error (.arithmeticOverflow "add") := by
  have hne : topTransfer.sender ≠ topTransfer.recipient := by decide
  refine ⟨hne, rfl, if_pos rfl, if_neg (Ne.symm hne), ?_⟩
  unfold Transaction.transfer
  simp only [topLoad]
  rfl

end PowChain
