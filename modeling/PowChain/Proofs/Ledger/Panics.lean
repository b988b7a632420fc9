import PowChain.Proofs.Ledger.Application
import PowChain.Pool.Basic

/-!
# Where the ledger can panic

A panic (`LedgerError.isPanic`) stops the program where it happens; every
other failure is answered by a caller.  Nothing the ledger computes on
balances panics: costs, credits and the nether total are checked and fail as
errors.  What is left are the two nonce increments of a transfer, plain
additions that overflow at the top nonce: the sender's nonce plus one and the
recipient's.

* `NoPanic r` — `r` is a value or an answered failure.  The simp set
  `noPanic_bind`, `noPanic_ite`, `noPanic_map`, … takes it through the `do`
  blocks of the checks, so a check without arithmetic is one `simp`.
* `Transaction.transfer_noPanic` — a transfer panics only at a party with the
  top nonce; `Transaction.credit_noPanic` — a credit never panics.
* `Ledger.applyBlockIn_noPanic` — applying a block panics only when one of
  its standard transactions meets a party with the top nonce, on the accounts
  the transactions before it leave (`Ledger.ReachesNonceTop`).
* `Pool.accept_noPanic` — admitting a transaction panics only when the
  pending accounts show its sender or its recipient with the top nonce.
-/

namespace PowChain

/-- A result that is no panic: a value, or a failure that a caller answers. -/
def NoPanic {α : Type} (r : Result α) : Prop := ∀ e, r = .error e → e.isPanic = false

section NoPanic

variable {α β : Type}

@[simp] theorem noPanic_ok (a : α) : NoPanic (.ok a : Result α) := fun _ h => nomatch h

@[simp] theorem noPanic_error {e : LedgerError} : NoPanic (.error e : Result α) ↔ e.isPanic = false :=
  ⟨fun h => h e rfl, fun h _ he => by cases he; exact h⟩

@[simp] theorem noPanic_pure (a : α) : NoPanic (pure a : Result α) := noPanic_ok a

@[simp] theorem noPanic_throw {e : LedgerError} : NoPanic (throw e : Result α) ↔ e.isPanic = false :=
  noPanic_error

@[simp] theorem throw_eq_ok {e : LedgerError} {a : α} : (throw e : Result α) = .ok a ↔ False :=
  ⟨fun h => (nomatch h), False.elim⟩

@[simp] theorem noPanic_bind {x : Result α} {f : α → Result β} :
    NoPanic (x >>= f) ↔ NoPanic x ∧ ∀ a, x = .ok a → NoPanic (f a) := by
  cases x with
  | error e => simp [bind, Except.bind]
  | ok a => simp [bind, Except.bind]

@[simp] theorem noPanic_map {r : Result α} {f : α → β} : NoPanic (r.map f) ↔ NoPanic r := by
  cases r <;> simp [Except.map]

@[simp] theorem noPanic_fmap {r : Result α} {f : α → β} : NoPanic (f <$> r) ↔ NoPanic r :=
  noPanic_map

theorem noPanic_ite {c : Prop} [Decidable c] {x y : Result α} :
    NoPanic (if c then x else y) ↔ (c → NoPanic x) ∧ (¬ c → NoPanic y) := by
  split <;> simp_all

/-- A checked addition panics exactly when the sum leaves 64 bits. -/
@[simp] theorem noPanic_addWord {a b : UInt64} : NoPanic (addWord a b) ↔ a.toNat + b.toNat < 2 ^ 64 := by
  unfold addWord
  split <;> simp_all [LedgerError.isPanic]

end NoPanic

/-! ## Reading records -/

theorem Store.get?_noPanic (s : Store) (k : ByteArray) : NoPanic (s.get? k) := by
  unfold Store.get?
  split
  · simp
  · split <;> simp [LedgerError.isPanic]

theorem Txn.get?_noPanic (t : Txn) (k : ByteArray) : NoPanic (t.get? k) := by
  rw [Txn.get?_eq_lookup]
  split
  · simp
  · exact t.base.get?_noPanic k

theorem decodeRecord_noPanic {α : Type} (r : Wire.Reader α) (b : ByteArray) :
    NoPanic (decodeRecord r b) := by
  unfold decodeRecord
  split <;> simp [LedgerError.isPanic]

/-- Reading an account fails only as the store or the record's decoding
fails. -/
theorem Txn.account_noPanic (t : Txn) (a : Address) : NoPanic (t.account a) := by
  rw [Txn.account_eq]
  split
  · rename_i e h
    exact noPanic_error.mpr (t.get?_noPanic _ e h)
  · simp
  · exact decodeRecord_noPanic _ _

theorem Store.account_noPanic (s : Store) (a : Address) : NoPanic (s.account a) :=
  Txn.account_noPanic _ a

theorem Overlay.lookup_noPanic (o : Overlay) {base : AccountLookup} (h : ∀ a, NoPanic (base a))
    (a : Address) : NoPanic (o.lookup base a) := by
  unfold Overlay.lookup
  split
  · simp
  · exact h a

/-! ## Checks on a transaction -/

namespace Transaction

theorem netherUsed_noPanic (tx : Transaction) : NoPanic tx.netherUsed := by
  simp [netherUsed, noPanic_ite, LedgerError.isPanic]

theorem cost_noPanic (tx : Transaction) : NoPanic tx.cost := by
  simp [cost, netherUsed, noPanic_ite, LedgerError.isPanic]

/-- A transfer panics only when its sender or its recipient holds the top
nonce: every other check fails as an error. -/
theorem transfer_noPanic {load : AccountLookup} {tx : Transaction} (hload : ∀ a, NoPanic (load a))
    (hs : ∀ acct, load tx.sender = .ok acct → acct.nonce.toNat ≠ 2 ^ 64 - 1)
    (hr : ∀ acct, load tx.recipient = .ok acct → acct.nonce.toNat ≠ 2 ^ 64 - 1) :
    NoPanic (tx.transfer load) := by
  -- the two increments fit: below the top nonce, one more is a 64-bit word
  have hs' : ∀ acct, load tx.sender = .ok acct → acct.nonce.toNat + 1 < 2 ^ 64 := fun acct h => by
    have := hs acct h
    have := acct.nonce.toNat_lt
    omega
  have hr' : ∀ acct, load tx.recipient = .ok acct → acct.nonce.toNat + 1 < 2 ^ 64 := fun acct h => by
    have := hr acct h
    have := acct.nonce.toNat_lt
    omega
  simp [transfer, noPanic_ite, LedgerError.isPanic, hload, tx.cost_noPanic]
  intro _ _ _ sender hsender _
  exact ⟨by simpa using hs' sender hsender, fun _ _ _ recipient hrec _ => by simpa using hr' recipient hrec⟩

/-- A credit never panics: the miner's balance is checked. -/
theorem credit_noPanic {load : AccountLookup} (tx : Transaction) (hload : ∀ a, NoPanic (load a)) :
    NoPanic (tx.credit load) := by
  simp [credit, noPanic_ite, LedgerError.isPanic, hload]

end Transaction

namespace SignedTx

theorem verifyAuthentic_noPanic (s : SignedTx) : NoPanic s.verifyAuthentic := by
  have hrecover : NoPanic (recoverPublicKey s.hash s.signature) := by
    unfold recoverPublicKey
    split
    · simp [LedgerError.isPanic]
    · dsimp only
      split <;> simp [LedgerError.isPanic]
  simp [verifyAuthentic, isAuthentic, recoverAddress, hrecover, noPanic_ite, LedgerError.isPanic]

theorem validate_noPanic (s : SignedTx) : NoPanic s.validate := by
  have hsize : NoPanic s.validateSize := by simp [validateSize, noPanic_ite, LedgerError.isPanic]
  simp [validate, noPanic_ite, LedgerError.isPanic, hsize, s.tx.cost_noPanic, s.verifyAuthentic_noPanic]

end SignedTx

/-! ## Committing -/

theorem Store.commit_noPanic (s : Store) (b : Batch) : NoPanic (s.commit b) := by
  unfold Store.commit
  split
  · simp
  · split <;> simp [LedgerError.isPanic]

/-- An update panics only as its computation does. -/
theorem Store.update_noPanic {α : Type} {s : Store} {f : TxnM α} (hf : NoPanic (f.run ⟨s, []⟩)) :
    NoPanic (s.update f) := by
  simp only [Store.update, noPanic_bind, hf, true_and]
  intro _ _
  split <;> simp [s.commit_noPanic]

/-! ## A block -/

namespace Ledger

/-- A standard transaction one of whose parties holds the top nonce in `σ`. -/
def MeetsNonceTop (σ : Accounts) (s : SignedTx) : Prop :=
  s.isReward = false ∧ ((σ s.tx.sender).nonce.toNat = 2 ^ 64 - 1 ∨ (σ s.tx.recipient).nonce.toNat = 2 ^ 64 - 1)

/-- Some transaction of `txs` meets the top nonce on the accounts that the
transactions before it leave from `σ`. -/
def ReachesNonceTop (σ : Accounts) (txs : List SignedTx) : Prop :=
  ∃ l₁ s l₂ σ₁, txs = l₁ ++ s :: l₂ ∧ Applies σ l₁ σ₁ ∧ MeetsNonceTop σ₁ s

namespace ReachesNonceTop

theorem head {σ : Accounts} {s : SignedTx} {rest : List SignedTx} (h : MeetsNonceTop σ s) :
    ReachesNonceTop σ (s :: rest) :=
  ⟨[], s, rest, σ, rfl, Applies.nil σ, h⟩

theorem tail {σ σ₁ : Accounts} {s : SignedTx} {rest : List SignedTx} (step : TxStep σ s σ₁)
    (h : ReachesNonceTop σ₁ rest) : ReachesNonceTop σ (s :: rest) := by
  obtain ⟨l₁, s', l₂, σ₂, rfl, happ, hmeet⟩ := h
  exact ⟨s :: l₁, s', l₂, σ₂, rfl, Applies.cons step happ, hmeet⟩

/-- A reward at the end meets no top nonce: it moves no nonce. -/
theorem of_append_reward {σ : Accounts} {l : List SignedTx} {r : SignedTx} (hr : r.isReward = true)
    (h : ReachesNonceTop σ (l ++ [r])) : ReachesNonceTop σ l := by
  obtain ⟨l₁, s, l₂, σ₁, heq, happ, hmeet⟩ := h
  rcases List.eq_nil_or_concat l₂ with rfl | ⟨l₂', x, rfl⟩
  · -- the transaction meeting the top would be the reward itself
    obtain ⟨-, hrs⟩ := List.append_inj' heq rfl
    obtain rfl : r = s := List.singleton_inj.mp hrs
    simp [MeetsNonceTop, hr] at hmeet
  · rw [List.concat_eq_append, ← List.cons_append, ← List.append_assoc] at heq
    exact ⟨l₁, s, l₂', σ₁, (List.append_inj' heq rfl).1, happ, hmeet⟩

end ReachesNonceTop

variable {σ : Accounts} {t : Txn}

/-- One transaction panics only when it is standard and a party holds the
top nonce. -/
theorem applyOne_noPanic {s : SignedTx} (hσ : t.Reads σ) (h : ¬ MeetsNonceTop σ s) :
    NoPanic ((applyOne s).run t) := by
  have hload : ∀ a, NoPanic ((fun a => .ok (σ a) : AccountLookup) a) := fun _ => noPanic_ok _
  cases hr : s.isReward with
  | true =>
    rw [applyOne_run_reward hr, applyReward_run, hσ.lookup, noPanic_map]
    exact s.tx.credit_noPanic hload
  | false =>
    rw [applyOne_run_standard hr, applyStandard_run, hσ.lookup]
    -- neither party holds the top nonce
    have htop : (σ s.tx.sender).nonce.toNat ≠ 2 ^ 64 - 1 ∧ (σ s.tx.recipient).nonce.toNat ≠ 2 ^ 64 - 1 := by
      simp only [MeetsNonceTop, hr, true_and, not_or] at h
      exact h
    have htransfer : NoPanic (s.tx.transfer fun a => .ok (σ a)) :=
      Transaction.transfer_noPanic hload (fun _ h => by cases h; exact htop.1)
        (fun _ h => by cases h; exact htop.2)
    change NoPanic (s.verifyAuthentic >>= fun _ => s.tx.transfer _ >>= _)
    simp only [noPanic_bind, noPanic_map, s.verifyAuthentic_noPanic, htransfer,
      s.tx.netherUsed_noPanic, true_and]
    exact fun _ _ _ _ => trivial

/-- Applying transactions in order panics only when one of them meets a party
with the top nonce, on the accounts the ones before it leave. -/
theorem applyFrom_noPanic (h : Header) (txs : List SignedTx) :
    ∀ (i : Nat) (touched : List Address) (used : UInt64) (acc : List Receipt) {t : Txn} {σ : Accounts},
      t.Reads σ → ¬ ReachesNonceTop σ txs → NoPanic ((applyFrom h i txs touched used acc).run t) := by
  induction txs with
  | nil =>
    intro i touched used acc t σ _ _
    rw [applyFrom_nil_run]
    exact noPanic_ok _
  | cons s rest ih =>
    intro i touched used acc t σ hσ hreach
    rw [applyFrom_cons_run]
    cases hone : (applyOne s).run t with
    | error e => exact noPanic_error.mpr (applyOne_noPanic hσ (fun hm => hreach (.head hm)) e hone)
    | ok p =>
      obtain ⟨r, t₁⟩ := p
      dsimp only
      split
      · simp [LedgerError.isPanic]
      · -- the step the transaction took, and the rest from the accounts it left
        obtain ⟨σ₁, hstep, hσ₁⟩ := applyOne_reads hσ hone
        exact ih _ _ _ _ (hσ₁.set_records s _ _) fun hr => hreach (.tail hstep hr)

/-- Applying a block panics only when one of its standard transactions meets
a party with the top nonce, on the accounts the transactions before it
leave. -/
theorem applyBlockIn_noPanic {b : Block} (hσ : t.Reads σ) (h : ¬ ReachesNonceTop σ b.transactions) :
    NoPanic ((applyBlockIn b).run t) := by
  rw [applyBlockIn_run]
  have hrun := applyFrom_noPanic b.header b.transactions 0 [] 0 [] hσ h
  revert hrun
  cases (applyFrom b.header 0 b.transactions [] 0 []).run t with
  | error e => exact fun h => noPanic_error.mpr (noPanic_error.mp h)
  | ok p =>
    rintro -
    obtain ⟨⟨receipts, touched, used⟩, t₁⟩ := p
    dsimp only
    rw [noPanic_map]
    -- reading the post-state fails only as a record read does
    unfold readPost
    induction touched with
    | nil => simp
    | cons a l ih =>
      rw [List.mapM_cons]
      simp only [noPanic_bind, noPanic_pure, t₁.account_noPanic a, true_and, implies_true, and_true]
      exact fun _ _ => ih

end Ledger

/-! ## Admission to the pool -/

namespace Pool

/-- Admitting a transaction panics only when the pending accounts show its
sender or its recipient with the top nonce. -/
theorem accept_noPanic (p : Pool) (s : Store) (tx : SignedTx)
    (h : ∀ a, a = tx.tx.sender ∨ a = tx.tx.recipient → ∀ acct, p.pendingAccount s a = .ok acct →
      acct.nonce.toNat ≠ 2 ^ 64 - 1) :
    NoPanic (p.accept s tx) := by
  have hload := p.shadows.lookup_noPanic s.account_noPanic
  have htransfer : NoPanic (tx.tx.transfer (p.shadows.lookup s.account)) :=
    Transaction.transfer_noPanic hload (h _ (.inl rfl)) (h _ (.inr rfl))
  have hupdate : NoPanic (s.update (TxnM.set (Keys.transaction tx.hash.bytes) tx.toWire)) :=
    Store.update_noPanic (by simp [TxnM.set])
  simp only [accept, noPanic_bind, tx.validate_noPanic, true_and]
  intro _ _
  split
  · simp
  · simp [noPanic_ite, LedgerError.isPanic, htransfer, hupdate, tx.tx.netherUsed_noPanic]

end Pool
end PowChain
