import PowChain.Proofs.Ledger.Transitions
import PowChain.Proofs.Account.AddressText
import PowChain.Proofs.Codec.RoundTrip

/-!
# Accounts as a store transaction reads them

A store transaction reads an address's account from its balance record, and
finds the empty account where there is none.  `Txn.Reads t σ` says that every
address's account reads as `σ` gives it.

* `Txn.get?_set`, `Txn.account_set_balance`, `Txn.account_set_other` — a
  write reads back, and a write to any key that is not a balance record leaves
  every account as it was (`Keys.transaction_ne_balance` and its kin);
* `applyOne_reads`, `applyFrom_reads`, `applyBlockIn_reads` — applying a
  block's transactions inside a store transaction that reads `σ` takes the
  steps of the ledger's rules (`Ledger.Applies`), and leaves a transaction
  that reads the accounts the rules give.
-/

namespace PowChain

/-! ## Balance records among the other keys -/

namespace Keys

theorem size_balancesPrefix : balancesPrefix.size = 9 := by decide

theorem size_balance (a : Address) : 33 ≤ (balance a.encode).size := by
  have htext := Address.le_size_toUTF8_encode a
  simp only [balance, ByteArray.size_append, size_balancesPrefix]
  omega

/-- Each address has its own balance record. -/
theorem balance_inj {a b : Address} (h : balance a.encode = balance b.encode) : a = b := by
  have hlist := congrArg ByteArray.toList h
  simp only [balance, Bytes.toList_append, List.append_cancel_left_eq] at hlist
  exact Address.encode_injective (String.toByteArray_inj.mp (Bytes.toList_inj.mp hlist))

/-- The first byte of a key with a non-empty prefix is the prefix's. -/
theorem head?_append {p : ByteArray} (hp : 0 < p.size) (x : ByteArray) :
    (p ++ x).toList.head? = p.toList.head? := by
  rw [Bytes.toList_append]
  cases hl : p.toList with
  | nil =>
    have := congrArg List.length hl
    simp only [Bytes.length_toList, List.length_nil] at this
    omega
  | cons y ys => rfl

theorem transaction_ne_balance (h : ByteArray) (a : Address) : transaction h ≠ balance a.encode := by
  intro heq
  have hhead := congrArg (fun k : ByteArray => k.toList.head?) heq
  simp only [transaction, balance] at hhead
  rw [head?_append (by decide), head?_append (by decide)] at hhead
  exact absurd hhead (by decide +kernel)

theorem receipt_ne_balance (h : ByteArray) (a : Address) : receipt h ≠ balance a.encode := by
  intro heq
  have hhead := congrArg (fun k : ByteArray => k.toList.head?) heq
  simp only [receipt, balance] at hhead
  rw [head?_append (by decide), head?_append (by decide)] at hhead
  exact absurd hhead (by decide +kernel)

/-- A key shorter than thirty-three bytes is no balance record: no block
hash, tip, length or genesis key is. -/
theorem ne_balance_of_size {k : ByteArray} (hk : k.size < 33) (a : Address) : k ≠ balance a.encode := by
  intro heq
  have := size_balance a
  rw [← heq] at this
  omega

end Keys

/-! ## Reading through a transaction -/

namespace Txn

/-- A transaction reads a key from its pending writes, and from its store when
it has none for the key. -/
theorem get?_eq_lookup (t : Txn) (k : ByteArray) :
    t.get? k = match Batch.lookup t.batch k with
      | some op => .ok op
      | none => t.base.get? k := by
  unfold Txn.get? Batch.lookup
  cases t.batch.find? (·.1 == k) <;> rfl

/-- A write reads back, and leaves every other key as it was. -/
theorem get?_set (t : Txn) (k v k' : ByteArray) :
    (t.set k v).get? k' = if k' = k then .ok (some v) else t.get? k' := by
  rw [get?_eq_lookup, get?_eq_lookup t]
  simp only [Txn.set, Batch.lookup_cons_filter]
  split_ifs <;> rfl

theorem account_eq (t : Txn) (a : Address) :
    t.account a = match t.get? (Keys.balance a.encode) with
      | .error e => .error e
      | .ok none => .ok {}
      | .ok (some b) => decodeRecord Account.readWire b := by
  unfold Txn.account
  rcases t.get? (Keys.balance a.encode) with e | _ | b <;> rfl

/-- Writing the record of `x` gives `x` the written account and leaves every
other account as it was. -/
theorem account_set_balance (t : Txn) (x a : Address) (acct : Account) :
    (t.set (Keys.balance x.encode) acct.toWire).account a = if a = x then .ok acct else t.account a := by
  rw [account_eq, get?_set, account_eq t]
  by_cases h : a = x
  · subst h
    simp [Account.decodeRecord_toWire]
  · have hk : Keys.balance a.encode ≠ Keys.balance x.encode := fun heq => h (Keys.balance_inj heq)
    simp [h, hk]

/-- A write to a key that is no balance record leaves every account. -/
theorem account_set_other (t : Txn) {k : ByteArray} (hk : ∀ a : Address, k ≠ Keys.balance a.encode)
    (v : ByteArray) (a : Address) : (t.set k v).account a = t.account a := by
  rw [account_eq, get?_set, if_neg (Ne.symm (hk a)), ← account_eq]

/-- The transaction reads every address's account as `σ` gives it. -/
def Reads (t : Txn) (σ : Ledger.Accounts) : Prop := ∀ a, t.account a = .ok (σ a)

namespace Reads

variable {t : Txn} {σ : Ledger.Accounts}

theorem lookup (h : t.Reads σ) : t.account = fun a => .ok (σ a) := funext h

theorem set_balance (h : t.Reads σ) (x : Address) (acct : Account) :
    (t.set (Keys.balance x.encode) acct.toWire).Reads (Function.update σ x acct) := by
  intro a
  rw [account_set_balance]
  by_cases hax : a = x
  · subst hax
    simp
  · simp [hax, h a]

theorem set_other (h : t.Reads σ) {k : ByteArray} (hk : ∀ a : Address, k ≠ Keys.balance a.encode)
    (v : ByteArray) : (t.set k v).Reads σ := fun a => (account_set_other t hk v a).trans (h a)

/-- The records of a transaction and its receipt are no balance records. -/
theorem set_records (h : t.Reads σ) (s : SignedTx) (v w : ByteArray) :
    ((t.set (Keys.transaction s.hash.bytes) v).set (Keys.receipt s.hash.bytes) w).Reads σ :=
  (h.set_other (Keys.transaction_ne_balance _) v).set_other (Keys.receipt_ne_balance _) w

end Reads

end Txn

/-! ## Block application refines the rules -/

namespace Ledger

open Txn

/-- One transaction applied inside a store transaction takes a step of the
rules, and the transaction then reads the accounts that step leaves. -/
theorem applyOne_reads {s : SignedTx} {t t' : Txn} {r : Receipt} {σ : Accounts} (hσ : t.Reads σ)
    (h : (applyOne s).run t = .ok (r, t')) : ∃ σ', TxStep σ s σ' ∧ t'.Reads σ' := by
  rcases applyOne_eq_ok h with ⟨-, miner, hc, -, rfl⟩ | ⟨hr, -, p, -, ht, -, -, rfl⟩
  · rw [hσ.lookup] at hc
    exact ⟨_, TxStep.of_credit hc, hσ.set_balance _ miner⟩
  · rw [hσ.lookup] at ht
    -- the sender's record is written first, then the recipient's
    exact ⟨_, TxStep.of_transfer hr ht, (hσ.set_balance _ p.1).set_balance _ p.2⟩

/-- Applying transactions in order inside a store transaction follows the
rules step by step. -/
theorem applyFrom_reads (h : Header) (txs : List SignedTx) :
    ∀ (i : Nat) (touched : List Address) (used : UInt64) (acc : List Receipt) (t t' : Txn) res
      (σ : Accounts), t.Reads σ → (applyFrom h i txs touched used acc).run t = .ok (res, t') →
      ∃ σ', Applies σ txs σ' ∧ t'.Reads σ' := by
  induction txs with
  | nil =>
    intro i touched used acc t t' res σ hσ hrun
    rw [applyFrom_nil_run] at hrun
    cases hrun
    exact ⟨σ, Applies.nil σ, hσ⟩
  | cons s rest ih =>
    intro i touched used acc t t' res σ hσ hrun
    obtain ⟨r, t₁, hone, -, hrun⟩ := applyFrom_cons_eq_ok hrun
    obtain ⟨σ₁, hstep, hσ₁⟩ := applyOne_reads hσ hone
    obtain ⟨σ₂, hrest, hσ₂⟩ := ih _ _ _ _ _ _ _ _ (hσ₁.set_records s _ _) hrun
    exact ⟨σ₂, Applies.cons hstep hrest, hσ₂⟩

/-- Applying a block inside a store transaction follows the rules over its
transactions. -/
theorem applyBlockIn_reads {b : Block} {t t' : Txn} {a : Application} {σ : Accounts}
    (hσ : t.Reads σ) (h : (applyBlockIn b).run t = .ok (a, t')) :
    ∃ σ', Applies σ b.transactions σ' ∧ t'.Reads σ' := by
  obtain ⟨_, _, _, _, hrun, -, -⟩ := applyBlockIn_eq_ok h
  exact applyFrom_reads _ _ _ _ _ _ _ _ _ _ hσ hrun

end Ledger
end PowChain
