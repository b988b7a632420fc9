import PowChain.Proofs.Ledger.Accounts

/-!
# Applying a block, exactly

`Ledger.applyBlockIn` applies a block's transactions in order inside a store
transaction.  This file says exactly when it succeeds and what it then
answers, in terms of the ledger's rules on accounts alone.

* `Admits h i σ txs σ' rs` — the transactions go through from the accounts
  `σ`: each standard transaction is authentic, and each takes a step of the
  rules (`TxStep`) on the accounts the earlier ones left.  They leave `σ'`,
  and the receipts `rs`: the receipt of a transaction records its party's
  balance right after it (`receiptOf`).
* `applyFrom_of_admits`, `applyFrom_admits` — the two directions, one
  transaction at a time (`applyOne_of_step`, `applyOne_authentic`).
* `block_transition` — application succeeds exactly when the block's
  transactions are admitted and the nether they use adds up to less than
  `2 ^ 64`; it then answers the rules' receipts, the nether total, the state
  root over the touched accounts and the receipt root, and every balance and
  nonce moves as the transactions say.
* The rules refuse a transfer into an account whose nonce is at its top
  (`TxStep.standard`'s `nonceFits`), and so does application: it fails with
  an overflow (`recipient_nonce_top_refuses_block`).
-/

namespace PowChain

namespace Txn

/-- A fresh store in memory reads every account as empty. -/
theorem reads_fresh : (⟨{}, []⟩ : Txn).Reads fun _ => {} := fun _ => rfl

/-- Reading the accounts of some addresses gives what `σ` says of them. -/
theorem Reads.readPost {t : Txn} {σ : Ledger.Accounts} (h : t.Reads σ) (l : List Address) :
    Ledger.readPost t l = .ok (l.map fun a => (a, σ a)) := by
  induction l with
  | nil => rfl
  | cons a l ih =>
    simp only [Ledger.readPost] at ih ⊢
    rw [List.mapM_cons, h a]
    simp only [bind, Except.bind, pure, Except.pure] at ih ⊢
    rw [ih]
    rfl

end Txn

namespace Ledger

/-! ## Receipts and admission -/

/-- The address whose balance a transaction's receipt records: the recipient
of a reward, the sender of a standard transaction. -/
def party (s : SignedTx) : Address := if s.isReward then s.tx.recipient else s.tx.sender

/-- The receipt of `s` at position `i` of the block with header `h`, when the
accounts after it are `σ₁`: its party's balance then, and what it burned. -/
def receiptOf (h : Header) (i : Nat) (s : SignedTx) (σ₁ : Accounts) : Receipt :=
  ⟨party s, (σ₁ (party s)).balance, s.hash, h.hash, h.number, i.toUInt32, (burned s).toUInt64⟩

/-- `Admits h i σ txs σ' rs`: the transactions `txs`, the first at position
`i` of the block with header `h`, go through from the accounts `σ` in order.
Each standard transaction is authentic, and each transaction takes a step of
the rules on the accounts the earlier ones left.  They leave `σ'`, and `rs`
are their receipts. -/
inductive Admits (h : Header) : Nat → Accounts → List SignedTx → Accounts → List Receipt → Prop
  | nil (i : Nat) (σ : Accounts) : Admits h i σ [] σ []
  | cons {i : Nat} {σ σ₁ σ₂ : Accounts} {s : SignedTx} {txs : List SignedTx} {rs : List Receipt}
      (authentic : s.isReward = false → s.verifyAuthentic = .ok ())
      (step : TxStep σ s σ₁) (rest : Admits h (i + 1) σ₁ txs σ₂ rs) :
      Admits h i σ (s :: txs) σ₂ (receiptOf h i s σ₁ :: rs)

namespace Admits

variable {h : Header} {i : Nat} {σ σ' : Accounts} {txs : List SignedTx} {rs : List Receipt}

theorem applies (ha : Admits h i σ txs σ' rs) : Applies σ txs σ' := by
  induction ha with
  | nil => exact Applies.nil _
  | cons _ step _ ih => exact Applies.cons step ih

/-- Admitted transactions leave one set of accounts and one list of
receipts. -/
theorem deterministic {σ₂ : Accounts} {rs₂ : List Receipt} (ha : Admits h i σ txs σ' rs)
    (hb : Admits h i σ txs σ₂ rs₂) : σ' = σ₂ ∧ rs = rs₂ := by
  induction ha generalizing rs₂ with
  | nil => cases hb with
    | nil => exact ⟨rfl, rfl⟩
  | cons _ step _ ih =>
    cases hb with
    | cons _ step' rest' =>
      -- both runs take the one step the rules allow, then agree on the rest
      obtain rfl := step.deterministic step'
      obtain ⟨rfl, rfl⟩ := ih rest'
      exact ⟨rfl, rfl⟩

end Admits

/-- What a step burns fits in a word: the fee of a standard transaction is
part of its cost. -/
theorem TxStep.burned_lt {σ σ₁ : Accounts} {s : SignedTx} (h : TxStep σ s σ₁) : burned s < 2 ^ 64 := by
  cases h with
  | reward hr => simp [burned, hr]
  | @standard cost hr _ hcost =>
    have hc := Transaction.cost_eq_ok hcost
    have hlt := cost.toNat_lt
    simp only [burned, hr, Bool.false_eq_true, if_false]
    omega

/-! ## Balances -/

/-- What a transaction takes from `a`: the cost of a standard transaction
that `a` sends. -/
def debited (s : SignedTx) (a : Address) : Nat :=
  if !s.isReward && decide (s.tx.sender = a) then s.tx.value.toNat + s.tx.fee.toNat * s.tx.feePrice.toNat
  else 0

/-- What a transaction gives `a`: the value of a transaction, reward or
standard, that `a` receives. -/
def credited (s : SignedTx) (a : Address) : Nat := if s.tx.recipient = a then s.tx.value.toNat else 0

/-- A step debits the sender the cost and credits the recipient the value,
and leaves every other balance alone. -/
theorem TxStep.balance {σ σ₁ : Accounts} {s : SignedTx} (h : TxStep σ s σ₁) (a : Address) :
    (σ₁ a).balance.toNat + debited s a = (σ a).balance.toNat + credited s a := by
  cases h with
  | reward hr hfit =>
    by_cases ha : a = s.tx.recipient
    · subst ha
      have hbal := UInt64.toNat_add_of_lt hfit
      simp [debited, credited, hr, hbal]
    · simp [Function.update_of_ne ha, debited, credited, hr, Ne.symm ha]
  | @standard cost hr hne hcost hcov _ hfit =>
    have hc := Transaction.cost_eq_ok hcost
    have hle : cost.toNat ≤ (σ s.tx.sender).balance.toNat := UInt64.le_iff_toNat_le.mp hcov
    by_cases har : a = s.tx.recipient
    · subst har
      have hbal := UInt64.toNat_add_of_lt hfit
      simp [debited, credited, hr, hne, hbal]
    · rw [Function.update_of_ne har]
      by_cases has : a = s.tx.sender
      · subst has
        simp only [Function.update_self, debited, credited, hr, Bool.not_false, decide_true,
          Bool.and_self, if_true, Ne.symm har, if_false, UInt64.toNat_sub_of_le _ _ hcov]
        omega
      · simp [Function.update_of_ne has, debited, credited, hr, Ne.symm has, Ne.symm har]

/-- Over transactions applied in order, each balance ends as it began, less
the costs of what the address sent and plus the values of what it
received. -/
theorem Applies.balance {σ σ' : Accounts} {txs : List SignedTx} (h : Applies σ txs σ') (a : Address) :
    (σ' a).balance.toNat + (txs.map (debited · a)).sum =
      (σ a).balance.toNat + (txs.map (credited · a)).sum := by
  induction h with
  | nil => simp
  | cons step _ ih =>
    have hstep := step.balance a
    simp only [List.map_cons, List.sum_cons]
    omega

/-! ## One transaction -/

/-- A transaction that takes a step of the rules, and is authentic when it is
standard, applies inside any store transaction that reads the accounts, with
its party's new balance and what it burned on its receipt. -/
theorem applyOne_of_step {s : SignedTx} {σ σ₁ : Accounts} {t : Txn} (hσ : t.Reads σ)
    (step : TxStep σ s σ₁) (authentic : s.isReward = false → s.verifyAuthentic = .ok ()) :
    ∃ t₁, (applyOne s).run t =
      .ok (Receipt.unplaced (party s) (σ₁ (party s)).balance s (burned s).toUInt64, t₁) ∧ t₁.Reads σ₁ := by
  cases step with
  | reward hr hfit =>
    refine ⟨_, ?_, hσ.set_balance s.tx.recipient _⟩
    rw [applyOne_run_reward hr, applyReward_run, hσ.lookup,
      Transaction.credit_of_checks hr rfl hfit]
    simp [party, burned, hr, Except.map]
  | standard hr hne hcost hcov hnonce hfit hrn =>
    refine ⟨_, ?_, (hσ.set_balance s.tx.sender _).set_balance s.tx.recipient _⟩
    rw [applyOne_run_standard hr, authentic hr, applyStandard_run, hσ.lookup,
      Transaction.transfer_of_checks hne hcost rfl rfl hcov hnonce hfit hrn,
      Transaction.netherUsed_of_cost hcost]
    -- the receipt reads the sender's record, which the recipient's write leaves
    simp [party, burned, hr, Function.update_of_ne hne, Except.map, Except.bind]

/-- A standard transaction that applies is authentic. -/
theorem applyOne_authentic {s : SignedTx} {t : Txn} {p : Receipt × Txn} (h : (applyOne s).run t = .ok p)
    (hr : s.isReward = false) : s.verifyAuthentic = .ok () := by
  obtain ⟨r, t'⟩ := p
  rcases applyOne_eq_ok h with ⟨hr', -⟩ | ⟨-, hv, -⟩
  · rw [hr] at hr'
    cases hr'
  · exact hv

/-! ## A block's transactions -/

/-- Admitted transactions whose nether adds up within 64 bits apply, with
the rules' receipts in order, the addresses they touch, the nether total, and
a store transaction that reads the accounts they leave. -/
theorem applyFrom_of_admits {h : Header} {i : Nat} {σ σ' : Accounts} {txs : List SignedTx}
    {rs : List Receipt} (ha : Admits h i σ txs σ' rs) :
    ∀ (touched : List Address) (used : UInt64) (acc : List Receipt) {t : Txn}, t.Reads σ →
      used.toNat + (txs.map burned).sum < 2 ^ 64 →
      ∃ t', (applyFrom h i txs touched used acc).run t =
        .ok ((acc.reverse ++ rs, txs.reverse.flatMap touchedBy ++ touched,
          (used.toNat + (txs.map burned).sum).toUInt64), t') ∧ t'.Reads σ' := by
  induction ha with
  | nil =>
    intro touched used acc t hσ _
    refine ⟨t, ?_, hσ⟩
    simp [applyFrom_nil_run]
  | @cons i σ σ₁ σ₂ s txs rs authentic step _ ih =>
    intro touched used acc t hσ hfit
    obtain ⟨t₁, hrun, hσ₁⟩ := applyOne_of_step hσ step authentic
    -- the receipt's nether is what the step burns, and the running total fits
    have hburned : ((burned s).toUInt64).toNat = burned s := UInt64.toNat_ofNat_of_lt' step.burned_lt
    have hsum : (used + (burned s).toUInt64).toNat = used.toNat + burned s := by
      simp only [List.map_cons, List.sum_cons] at hfit
      rw [UInt64.toNat_add_of_lt (by omega), hburned]
    have hrest : (used + (burned s).toUInt64).toNat + (txs.map burned).sum < 2 ^ 64 := by
      simp only [List.map_cons, List.sum_cons] at hfit
      rw [hsum]
      omega
    obtain ⟨t₂, hrun₂, hσ₂⟩ := ih (touchedBy s ++ touched) (used + (burned s).toUInt64)
      (receiptOf h i s σ₁ :: acc) (hσ₁.set_records s s.toWire (receiptOf h i s σ₁).toWire) hrest
    refine ⟨t₂, ?_, hσ₂⟩
    rw [applyFrom_cons_run, hrun]
    -- the placed receipt is the rules' receipt
    show (if used.toNat + ((burned s).toUInt64).toNat ≥ Nat.pow 2 64 then _
      else (applyFrom h (i + 1) txs (touchedBy s ++ touched) (used + (burned s).toUInt64)
        (receiptOf h i s σ₁ :: acc)).run ((t₁.set (Keys.transaction s.hash.bytes) s.toWire).set
          (Keys.receipt s.hash.bytes) (receiptOf h i s σ₁).toWire)) = _
    have hpow : Nat.pow 2 64 = 2 ^ 64 := rfl
    simp only [List.map_cons, List.sum_cons] at hfit
    rw [if_neg (by rw [hburned, hpow]; omega), hrun₂, hsum]
    simp [Nat.add_assoc]

/-- Transactions that apply are admitted, and their nether adds up within
64 bits. -/
theorem applyFrom_admits (h : Header) (txs : List SignedTx) :
    ∀ {i : Nat} {touched : List Address} {used : UInt64} {acc : List Receipt} {t t' : Txn}
      {res : List Receipt × List Address × UInt64} {σ : Accounts}, t.Reads σ →
      (applyFrom h i txs touched used acc).run t = .ok (res, t') →
      ∃ σ' rs, Admits h i σ txs σ' rs ∧ used.toNat + (txs.map burned).sum < 2 ^ 64 := by
  induction txs with
  | nil =>
    intro i touched used acc t t' res σ _ _
    exact ⟨σ, [], Admits.nil i σ, by simpa using used.toNat_lt⟩
  | cons s rest ih =>
    intro i touched used acc t t' res σ hσ hrun
    obtain ⟨r, t₁, hone, hfit, hrun⟩ := applyFrom_cons_eq_ok hrun
    -- the step the transaction took, and the receipt the rules give it
    obtain ⟨σ₁, hstep, -⟩ := applyOne_reads hσ hone
    have hauth := fun hr => applyOne_authentic hone hr
    obtain ⟨t₁', hrun', hσ₁⟩ := applyOne_of_step hσ hstep hauth
    rw [hone] at hrun'
    obtain ⟨rfl, rfl⟩ := Prod.mk.inj (Except.ok.inj hrun')
    have hburned : ((burned s).toUInt64).toNat = burned s := UInt64.toNat_ofNat_of_lt' hstep.burned_lt
    simp only [Receipt.unplaced, hburned] at hfit
    obtain ⟨σ', rs, hadm, hrest⟩ := ih (hσ₁.set_records s _ _) hrun
    refine ⟨σ', _, Admits.cons hauth hstep hadm, ?_⟩
    simp only [Receipt.unplaced, UInt64.toNat_add, hburned, Nat.mod_eq_of_lt hfit] at hrest
    simp only [List.map_cons, List.sum_cons]
    omega

/-! ## A block -/

/-- An admitted block whose nether adds up within 64 bits applies, with the
rules' receipts, the nether total, the state root over the accounts its
transactions touched and the root of its receipts. -/
theorem applyBlockIn_of_admits {b : Block} {σ σ' : Accounts} {rs : List Receipt} {t : Txn}
    (ha : Admits b.header 0 σ b.transactions σ' rs) (hfit : (b.transactions.map burned).sum < 2 ^ 64)
    (hσ : t.Reads σ) :
    ∃ t', (applyBlockIn b).run t =
      .ok (⟨rs, ((b.transactions.map burned).sum).toUInt64,
        stateRoot ((b.transactions.reverse.flatMap touchedBy).map fun a => (a, σ' a)),
        Merkle.root (rs.map Receipt.bodyHash)⟩, t') ∧ t'.Reads σ' := by
  obtain ⟨t', hrun, hσ'⟩ := applyFrom_of_admits ha [] 0 [] hσ (by simpa using hfit)
  refine ⟨t', ?_, hσ'⟩
  rw [applyBlockIn_run, hrun]
  simp [hσ'.readPost, Except.map]

/-- A block that applies is admitted, and its nether adds up within 64
bits. -/
theorem applyBlockIn_admits {b : Block} {σ : Accounts} {t : Txn} {r : Application × Txn}
    (hσ : t.Reads σ) (h : (applyBlockIn b).run t = .ok r) :
    ∃ σ' rs, Admits b.header 0 σ b.transactions σ' rs ∧ (b.transactions.map burned).sum < 2 ^ 64 := by
  obtain ⟨app, t'⟩ := r
  obtain ⟨_, _, _, _, hrun, -, -⟩ := applyBlockIn_eq_ok h
  obtain ⟨σ', rs, hadm, hfit⟩ := applyFrom_admits _ _ hσ hrun
  exact ⟨σ', rs, hadm, by simpa using hfit⟩

/-- Applying a block to accounts `σ` succeeds exactly when its transactions
are admitted in order and the nether they use adds up to less than `2 ^ 64`.
It then answers the rules' receipts (each with the block's hash and number,
its position, what it burned and its party's balance right after it), the
nether total, the state root over the accounts the transactions touched and
the root of the receipts; each balance ends less the costs of what its
address sent and plus the values of what it received, and each nonce moves
up by one for each standard transaction that names its address. -/
theorem block_transition {t : Txn} {σ : Accounts} (hσ : t.Reads σ) (b : Block) :
    ((∃ r, (applyBlockIn b).run t = .ok r) ↔
      ∃ σ' rs, Admits b.header 0 σ b.transactions σ' rs ∧ (b.transactions.map burned).sum < 2 ^ 64) ∧
    ∀ app t' σ' rs, (applyBlockIn b).run t = .ok (app, t') → Admits b.header 0 σ b.transactions σ' rs →
      t'.Reads σ' ∧
      (∀ a, (σ' a).balance.toNat + (b.transactions.map (debited · a)).sum =
        (σ a).balance.toNat + (b.transactions.map (credited · a)).sum) ∧
      (∀ a, (σ' a).nonce.toNat = (σ a).nonce.toNat + nonceMoves b.transactions a) ∧
      app.receipts = rs ∧ app.netherUsed.toNat = (b.transactions.map burned).sum ∧
      app.stateRoot = stateRoot ((b.transactions.reverse.flatMap touchedBy).map fun a => (a, σ' a)) ∧
      app.receiptRoot = Merkle.root (rs.map Receipt.bodyHash) := by
  refine ⟨⟨fun ⟨_, hrun⟩ => applyBlockIn_admits hσ hrun, fun ⟨σ', rs, hadm, hfit⟩ => ?_⟩, ?_⟩
  · obtain ⟨t', hrun, -⟩ := applyBlockIn_of_admits hadm hfit hσ
    exact ⟨_, hrun⟩
  · intro app t' σ' rs hrun hadm
    obtain ⟨-, -, -, hfit⟩ := applyBlockIn_admits hσ hrun
    -- the run is a function, so it answers what the rules give
    obtain ⟨t'', hrun', hσ'⟩ := applyBlockIn_of_admits hadm hfit hσ
    rw [hrun] at hrun'
    obtain ⟨rfl, rfl⟩ := Prod.mk.inj (Except.ok.inj hrun')
    have happ := hadm.applies
    refine ⟨hσ', happ.balance, happ.nonce, rfl, ?_, rfl, rfl⟩
    rw [Nat.toUInt64_eq, UInt64.toNat_ofNat']
    exact Nat.mod_eq_of_lt hfit

/-- A block of one reward applies to an empty store. -/
theorem block_transition_reward :
    (⟨{}, []⟩ : Txn).Reads (fun _ => {}) ∧
      ∃ r, (applyBlockIn ⟨Header.zero, [SignedTx.reward Address.zero 100 1 0]⟩).run ⟨{}, []⟩ = .ok r :=
  ⟨Txn.reads_fresh, (block_transition Txn.reads_fresh _).1.mpr
    ⟨_, _, Admits.cons (fun h => absurd h (by decide)) (TxStep.reward (by decide) (by decide))
      (Admits.nil _ _), by decide⟩⟩

/-! ## A recipient whose nonce is at its top -/

/-- The address of the key whose secret scalar is one. -/
def unitKeyAddress : Address := ⟨⟨#[117, 30, 118, 232, 25, 145, 150, 212, 84, 148, 28, 69, 209, 179, 163, 35,
  241, 67, 59, 214]⟩, rfl⟩

/-- A transfer of nothing from `unitKeyAddress`, its first, signed by its
key. -/
def toppedTransfer : SignedTx :=
  ⟨⟨unitKeyAddress, ⟨Bytes.replicate 20 2, by simp [Bytes.replicate, ByteArray.size]⟩, 1, 0, 0, 0,
      ByteArray.empty, 0⟩,
    ⟨#[0, 144, 229, 201, 18, 127, 192, 231, 45, 166, 182, 193, 4, 41, 72, 246, 210, 11, 101, 78, 191,
      106, 203, 201, 50, 40, 120, 38, 173, 15, 228, 152, 142, 44, 57, 211, 66, 100, 102, 10, 156, 165,
      22, 25, 57, 60, 119, 48, 169, 248, 5, 86, 135, 223, 27, 27, 25, 65, 149, 75, 242, 40, 102, 112,
      65]⟩⟩

/-- An empty store in which the transfer's recipient holds nothing and the
top nonce. -/
def toppedTxn : Txn :=
  (⟨{}, []⟩ : Txn).set (Keys.balance toppedTransfer.tx.recipient.encode)
    (Account.toWire ⟨0, 18446744073709551615⟩)

/-- A transfer that passes every check on balances, on its sender's nonce and
on its signature still fails when its recipient's nonce is at the top: the
recipient's nonce cannot move up. -/
theorem recipient_nonce_top_refuses_block :
    toppedTxn.account toppedTransfer.tx.sender = .ok {} ∧
      toppedTxn.account toppedTransfer.tx.recipient = .ok ⟨0, 18446744073709551615⟩ ∧
      toppedTransfer.verifyAuthentic = .ok () ∧ toppedTransfer.tx.sender ≠ toppedTransfer.tx.recipient ∧
      toppedTransfer.tx.cost = .ok 0 ∧ toppedTransfer.tx.nonce = 1 ∧
      (applyBlockIn ⟨Header.zero, [toppedTransfer]⟩).run toppedTxn = .error (.arithmeticOverflow "add") := by
  have hne : toppedTransfer.tx.sender ≠ toppedTransfer.tx.recipient := by decide
  have hreads := Txn.reads_fresh.set_balance toppedTransfer.tx.recipient ⟨0, 18446744073709551615⟩
  have hsender : toppedTxn.account toppedTransfer.tx.sender = .ok {} := by
    rw [toppedTxn, hreads, Function.update_of_ne hne]
  have hrecipient : toppedTxn.account toppedTransfer.tx.recipient = .ok ⟨0, 18446744073709551615⟩ := by
    rw [toppedTxn, hreads, Function.update_self]
  -- the signature is checked by running the recovery on the concrete bytes
  have hauth : toppedTransfer.isAuthentic.toOption = some true := by decide +kernel
  have hverify : toppedTransfer.verifyAuthentic = .ok () := by
    unfold SignedTx.verifyAuthentic
    cases h : toppedTransfer.isAuthentic with
    | error e => simp [h, Except.toOption] at hauth
    | ok v =>
      simp only [h, Except.toOption, Option.some.injEq] at hauth
      subst hauth
      rfl
  have hcost : toppedTransfer.tx.cost = .ok 0 := rfl
  have htransfer : toppedTransfer.tx.transfer toppedTxn.account = .error (.arithmeticOverflow "add") := by
    unfold Transaction.transfer
    simp only [hsender, hrecipient]
    rfl
  refine ⟨hsender, hrecipient, hverify, hne, hcost, rfl, ?_⟩
  rw [applyBlockIn_run, applyFrom_cons_run, applyOne_run_standard rfl, hverify, applyStandard_run,
    htransfer]
  rfl

end Ledger
end PowChain
