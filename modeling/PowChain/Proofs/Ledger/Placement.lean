import PowChain.Proofs.Ledger.Determinism
import PowChain.Proofs.Ledger.Accounts

/-!
# A block's application reads its header only to place receipts

Applying a block's transactions writes each receipt with the block's hash and
number, and reads nothing else of the header.  A receipt enters the receipt
root by its body hash, which leaves both out, and the state root reads the
accounts the transactions touched.  So one list of transactions applied under
two headers, from transactions that read every account alike, ends alike:
with one error, or with one state root, one receipt root and one nether total
(`applyBlockIn_reheader`).  Block production relies on this when it fills the
roots of a header from a dry run, before the header's hash is known.

* `SameAccounts` — two transactions that read every account alike; a write
  to one key keeps it, whatever the two values, unless the key is a balance
  record (`SameAccounts.set`);
* `applyFrom_reheader`, `applyBlockIn_reheader` — the application under two
  headers, step by step.
-/

namespace PowChain
namespace Ledger

/-- Two transactions that read every account alike. -/
def SameAccounts (t₁ t₂ : Txn) : Prop := t₁.account = t₂.account

namespace SameAccounts

variable {t₁ t₂ : Txn}

/-- Writing one key in both keeps them reading accounts alike: with one value,
or with any two values when the key is no balance record. -/
theorem set (h : SameAccounts t₁ t₂) (k : ByteArray) {v₁ v₂ : ByteArray}
    (hv : v₁ = v₂ ∨ ∀ a : Address, Keys.balance a.encode ≠ k) :
    SameAccounts (t₁.set k v₁) (t₂.set k v₂) := by
  funext a
  rw [Txn.account_set, Txn.account_set, h]
  by_cases hk : Keys.balance a.encode = k
  · rcases hv with rfl | hne
    · rfl
    · exact absurd hk (hne a)
  · rw [if_neg hk, if_neg hk]

theorem readPost (h : SameAccounts t₁ t₂) (l : List Address) : readPost t₁ l = readPost t₂ l := by
  simp only [Ledger.readPost, show t₁.account = t₂.account from h]

end SameAccounts

/-- A placed receipt's body hash does not depend on the block it is placed in. -/
theorem bodyHash_placeReceipt (r : Receipt) (h₁ h₂ : Header) (i : Nat) :
    (placeReceipt r h₁ i).bodyHash = (placeReceipt r h₂ i).bodyHash := rfl

/-- What an application of transactions gives that its header cannot change:
the receipts' body hashes, the touched addresses and the nether total. -/
def unplaced (p : (List Receipt × List Address × UInt64) × Txn) :
    (List Digest × List Address × UInt64) × Txn :=
  ((p.1.1.map Receipt.bodyHash, p.1.2), p.2)

/-- Transactions applied under two headers, from transactions that read
accounts alike and receipts so far with one list of body hashes, end alike up
to where their receipts are placed.  The induction is on the transactions,
over any position, running totals and transactions. -/
theorem applyFrom_reheader (h₁ h₂ : Header) (txs : List SignedTx) :
    ∀ (i : Nat) (touched : List Address) (used : UInt64) (acc₁ acc₂ : List Receipt) {t₁ t₂ : Txn},
      acc₁.map Receipt.bodyHash = acc₂.map Receipt.bodyHash → SameAccounts t₁ t₂ →
      RunAlike SameAccounts (((applyFrom h₁ i txs touched used acc₁).run t₁).map unplaced)
        (((applyFrom h₂ i txs touched used acc₂).run t₂).map unplaced) := by
  induction txs with
  | nil =>
    intro i touched used acc₁ acc₂ t₁ t₂ hacc ht
    rw [applyFrom_nil_run, applyFrom_nil_run]
    have hrev : acc₁.reverse.map Receipt.bodyHash = acc₂.reverse.map Receipt.bodyHash := by
      rw [List.map_reverse, List.map_reverse, hacc]
    show RunAlike SameAccounts (.ok ((acc₁.reverse.map Receipt.bodyHash, touched, used), t₁))
      (.ok ((acc₂.reverse.map Receipt.bodyHash, touched, used), t₂))
    rw [hrev]
    exact .ok _ ht
  | cons s rest ih =>
    intro i touched used acc₁ acc₂ t₁ t₂ hacc ht
    rw [applyFrom_cons_run, applyFrom_cons_run]
    have hone := @applyOne_related t₁ t₂ SameAccounts (fun h => h)
      (fun h k v => SameAccounts.set h k (.inl rfl)) s ht
    revert hone
    generalize (applyOne s).run t₁ = x₁
    generalize (applyOne s).run t₂ = x₂
    rintro (⟨e⟩ | ⟨r, hu⟩)
    · exact .error e
    · -- one receipt, checked against one running total, placed under each header
      dsimp only
      split
      · exact .error _
      · refine ih _ _ _ _ _ ?_ (SameAccounts.set (SameAccounts.set hu _ (.inl rfl)) _
          (.inr fun a => (Keys.receipt_ne_balance _ a).symm))
        simp only [List.map_cons, bodyHash_placeReceipt r h₁ h₂, hacc]

/-- A block's transactions applied under two headers, from transactions that
read accounts alike, end with one error, or with one state root, receipt root
and nether total. -/
theorem applyBlockIn_reheader (h₁ h₂ : Header) (txs : List SignedTx) {t₁ t₂ : Txn}
    (ht : SameAccounts t₁ t₂) :
    RunAlike SameAccounts
      (((applyBlockIn ⟨h₁, txs⟩).run t₁).map fun p => ((p.1.stateRoot, p.1.receiptRoot, p.1.netherUsed), p.2))
      (((applyBlockIn ⟨h₂, txs⟩).run t₂).map fun p => ((p.1.stateRoot, p.1.receiptRoot, p.1.netherUsed), p.2)) := by
  rw [applyBlockIn_run, applyBlockIn_run]
  have hrun := applyFrom_reheader h₁ h₂ txs 0 [] 0 [] [] rfl ht
  revert hrun
  generalize (applyFrom h₁ 0 txs [] 0 []).run t₁ = x₁
  generalize (applyFrom h₂ 0 txs [] 0 []).run t₂ = x₂
  cases x₁ with
  | error e =>
    cases x₂ with
    | error e' =>
      rintro ⟨⟩
      exact .error e
    | ok p => rintro ⟨⟩
  | ok p₁ =>
    cases x₂ with
    | error e => rintro ⟨⟩
    | ok p₂ =>
      obtain ⟨⟨receipts₁, touched₁, used₁⟩, t₁'⟩ := p₁
      obtain ⟨⟨receipts₂, touched₂, used₂⟩, t₂'⟩ := p₂
      intro hrun
      obtain ⟨hsame, hu⟩ := RunAlike.ok_inv hrun
      simp only [Prod.mk.injEq] at hsame
      obtain ⟨hbody, rfl, rfl⟩ := hsame
      -- the post-state is read from accounts read alike, the receipt root from one list of body hashes
      dsimp only
      rw [SameAccounts.readPost hu, hbody]
      cases readPost t₂' touched₁ with
      | error e => exact .error e
      | ok post => exact .ok _ hu

end Ledger
end PowChain
