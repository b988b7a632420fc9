import PowChain.Proofs.Ledger.Accounts

/-!
# Applying a block reads nothing but accounts

A store transaction that applies a block reads the accounts of the addresses
it touches and nothing else: not the records of transactions, of peers or of
blocks.  Two transactions with one pending batch that read every account
alike (`Txn.Alike`) therefore run a block's application to one answer and to
alike transactions again (`RunAlike`): the same error, or the same receipts
and the same batch of writes.

* `Txn.Alike.set` — one write keeps two alike transactions alike;
* `applyOne_alike`, `applyFrom_alike`, `applyBlockIn_alike` — a block's
  application, step by step.
-/

namespace PowChain

namespace Txn

/-- Two transactions with one pending batch that read every account alike. -/
structure Alike (t₁ t₂ : Txn) : Prop where
  batch : t₁.batch = t₂.batch
  account : t₁.account = t₂.account

/-- A write to a balance record gives its account the decoded value; any
other write leaves every account. -/
theorem account_set (t : Txn) (k v : ByteArray) (a : Address) :
    (t.set k v).account a =
      if Keys.balance a.encode = k then decodeRecord Account.readWire v else t.account a := by
  rw [account_eq, get?_set]
  by_cases hk : Keys.balance a.encode = k
  · rw [if_pos hk, if_pos hk]
  · rw [if_neg hk, if_neg hk, account_eq]

theorem Alike.set {t₁ t₂ : Txn} (h : t₁.Alike t₂) (k v : ByteArray) : (t₁.set k v).Alike (t₂.set k v) :=
  ⟨by simp only [Txn.set, h.batch], funext fun a => by rw [account_set, account_set, h.account]⟩

/-- Two transactions on empty batches are alike when their stores read every
account alike. -/
theorem alike_of_account {s₁ s₂ : Store} (h : ∀ a, s₁.account a = s₂.account a) :
    (⟨s₁, []⟩ : Txn).Alike ⟨s₂, []⟩ :=
  ⟨rfl, funext h⟩

end Txn

/-- Two runs that end alike: with one error, or with one answer and states
related by `R`. -/
inductive RunAlike {α σ : Type} (R : σ → σ → Prop) : Except LedgerError (α × σ) → Except LedgerError (α × σ) → Prop
  | error (e : LedgerError) : RunAlike R (.error e) (.error e)
  | ok (a : α) {s₁ s₂ : σ} (h : R s₁ s₂) : RunAlike R (.ok (a, s₁)) (.ok (a, s₂))

namespace RunAlike

variable {α β σ : Type} {R : σ → σ → Prop}

/-- A computation on accounts alone, whose answers lead to related states. -/
theorem map (r : Result β) (f : β → α) {g₁ g₂ : β → σ} (hg : ∀ x, R (g₁ x) (g₂ x)) :
    RunAlike R (r.map fun x => (f x, g₁ x)) (r.map fun x => (f x, g₂ x)) := by
  cases r with
  | error e => exact .error e
  | ok x => exact .ok (f x) (hg x)

theorem ok_inv {a₁ a₂ : α} {s₁ s₂ : σ} (h : RunAlike R (.ok (a₁, s₁)) (.ok (a₂, s₂))) : a₁ = a₂ ∧ R s₁ s₂ := by
  cases h with
  | ok a h => exact ⟨rfl, h⟩

end RunAlike

namespace Ledger

variable {t₁ t₂ : Txn}

theorem readPost_alike (h : t₁.Alike t₂) (l : List Address) : readPost t₁ l = readPost t₂ l := by
  simp only [readPost, h.account]

/-- One transaction applied from two transactions related by `R` ends alike,
for any `R` under which they read every account alike and which one write to
both keeps. -/
theorem applyOne_related {R : Txn → Txn → Prop} (hacc : ∀ {t₁ t₂ : Txn}, R t₁ t₂ → t₁.account = t₂.account)
    (hset : ∀ {t₁ t₂ : Txn}, R t₁ t₂ → ∀ k v, R (t₁.set k v) (t₂.set k v)) (s : SignedTx) (h : R t₁ t₂) :
    RunAlike R ((applyOne s).run t₁) ((applyOne s).run t₂) := by
  cases hr : s.isReward with
  | true =>
    rw [applyOne_run_reward hr, applyOne_run_reward hr, applyReward_run, applyReward_run, hacc h]
    exact RunAlike.map _ _ fun miner => hset h _ _
  | false =>
    rw [applyOne_run_standard hr, applyOne_run_standard hr, applyStandard_run, applyStandard_run,
      hacc h]
    cases s.verifyAuthentic with
    | error e => exact .error e
    | ok u =>
      cases s.tx.transfer t₂.account with
      | error e => exact .error e
      | ok p => exact RunAlike.map _ _ fun used => hset (hset h _ _) _ _

theorem applyOne_alike (s : SignedTx) (h : t₁.Alike t₂) :
    RunAlike Txn.Alike ((applyOne s).run t₁) ((applyOne s).run t₂) :=
  applyOne_related (fun h => h.account) (fun h => h.set) s h

/-- Applying transactions in order from alike transactions ends alike. -/
theorem applyFrom_alike (h : Header) (txs : List SignedTx) :
    ∀ (i : Nat) (touched : List Address) (used : UInt64) (acc : List Receipt) {t₁ t₂ : Txn},
      t₁.Alike t₂ → RunAlike Txn.Alike ((applyFrom h i txs touched used acc).run t₁)
        ((applyFrom h i txs touched used acc).run t₂) := by
  induction txs with
  | nil =>
    intro i touched used acc t₁ t₂ ht
    exact .ok _ ht
  | cons s rest ih =>
    intro i touched used acc t₁ t₂ ht
    rw [applyFrom_cons_run, applyFrom_cons_run]
    have hone := applyOne_alike s ht
    revert hone
    generalize (applyOne s).run t₁ = x₁
    generalize (applyOne s).run t₂ = x₂
    rintro (⟨e⟩ | ⟨r, hu⟩)
    · exact .error e
    · -- the same receipt is checked against the same running total
      dsimp only
      split
      · exact .error _
      · exact ih _ _ _ _ ((hu.set _ _).set _ _)

theorem applyBlockIn_alike (b : Block) (h : t₁.Alike t₂) :
    RunAlike Txn.Alike ((applyBlockIn b).run t₁) ((applyBlockIn b).run t₂) := by
  rw [applyBlockIn_run, applyBlockIn_run]
  have hrun := applyFrom_alike b.header b.transactions 0 [] 0 [] h
  revert hrun
  generalize (applyFrom b.header 0 b.transactions [] 0 []).run t₁ = x₁
  generalize (applyFrom b.header 0 b.transactions [] 0 []).run t₂ = x₂
  rintro (⟨e⟩ | ⟨⟨receipts, touched, used⟩, hu⟩)
  · exact .error e
  · dsimp only
    rw [readPost_alike hu]
    exact RunAlike.map _ _ fun _ => hu

end Ledger
end PowChain
