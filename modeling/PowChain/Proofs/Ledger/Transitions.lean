import PowChain.Block.Validation
import PowChain.Proofs.Ledger.Steps

/-!
# What a transaction does to the accounts

The ledger's rules, said once over accounts as a function from addresses and
apart from the store that keeps them:

* `TxStep σ s σ'` — the accounts `σ'` one transaction `s` of a block leaves
  after `σ`.  A reward credits its recipient.  A standard transaction moves
  its value to a recipient other than its sender, burns its fee and must carry
  the sender's next nonce; the sender's nonce becomes the transaction's and the
  recipient's moves up by one.  The transfer rules compute exactly this
  (`TxStep.of_transfer`, `TxStep.of_credit`).
* `Applies σ txs σ'` — transactions applied in order, each to the accounts
  the earlier ones left.

From the rules alone:

* `Applies.nonce` — every nonce grows by the number of standard transactions
  that name its address as sender or recipient;
* `Applies.nonce_eq`, `Applies.nodup_standard` — a standard transaction
  carries its sender's nonce plus one, counted over the transactions before
  it, so no standard transaction is applied twice;
* `Applies.supply` — the balances grow by what rewards mint and shrink by the
  fees that standard transactions burn; a block's reward is the base reward
  plus those fees (`Block.reward_eq_ok`).
-/

namespace PowChain

/-- Addresses compare by `==` on their hash bytes, which is equality. -/
instance : LawfulBEq Address where
  eq_of_beq {a b} h := by
    obtain ⟨a, ha⟩ := a
    obtain ⟨b, hb⟩ := b
    have hab : a = b := Bytes.beq_eq_true_iff.mp h
    subst hab
    rfl
  rfl {a} := Bytes.beq_eq_true_iff.mpr rfl

/-! ## The transfer rules -/

namespace Transaction

/-- What the miner earns is the product of fee and fee price. -/
theorem netherUsed_eq_ok {tx : Transaction} {u : UInt64} (h : tx.netherUsed = .ok u) :
    u.toNat = tx.fee.toNat * tx.feePrice.toNat := by
  unfold netherUsed at h
  dsimp only at h
  split at h
  · cases h
  · rename_i hle
    cases h
    simp only [wordMax, gt_iff_lt, not_lt] at hle
    rw [Nat.toUInt64_eq, UInt64.toNat_ofNat']
    have hpow : Nat.pow 2 64 = 2 ^ 64 := rfl
    omega

/-- The cost of a transaction is its value plus what the miner earns. -/
theorem cost_eq_ok {tx : Transaction} {c : UInt64} (h : tx.cost = .ok c) :
    c.toNat = tx.value.toNat + tx.fee.toNat * tx.feePrice.toNat := by
  unfold cost at h
  obtain ⟨used, hused, h⟩ := Except.bind_eq_ok.mp h
  dsimp only at h
  split at h
  · cases h
  · rename_i hle
    cases h
    simp only [wordMax, gt_iff_lt, not_lt] at hle
    rw [Nat.toUInt64_eq, UInt64.toNat_ofNat', ← netherUsed_eq_ok hused]
    have hpow : Nat.pow 2 64 = 2 ^ 64 := rfl
    omega

/-- A transfer that goes through: the parties differ, the cost fits, the
sender covers it and sends its next nonce, and the recipient's balance and
nonce do not overflow.  The sender's nonce becomes the transaction's. -/
theorem transfer_eq_ok {load : AccountLookup} {tx : Transaction} {p : Account × Account}
    (h : tx.transfer load = .ok p) :
    ∃ cost sender recipient, tx.sender ≠ tx.recipient ∧ tx.cost = .ok cost ∧
      load tx.sender = .ok sender ∧ load tx.recipient = .ok recipient ∧
      cost ≤ sender.balance ∧ tx.nonce.toNat = sender.nonce.toNat + 1 ∧
      recipient.balance.toNat + tx.value.toNat < 2 ^ 64 ∧ recipient.nonce.toNat + 1 < 2 ^ 64 ∧
      p = (⟨sender.balance - cost, tx.nonce⟩, ⟨recipient.balance + tx.value, recipient.nonce + 1⟩) := by
  unfold transfer at h
  dsimp only at h
  split at h
  · cases h
  rename_i hne
  obtain ⟨cost, hcost, h⟩ := Except.bind_eq_ok.mp h
  obtain ⟨sender, hsender, h⟩ := Except.bind_eq_ok.mp h
  split at h
  · cases h
  rename_i hbal
  obtain ⟨expected, hexp, h⟩ := Except.bind_eq_ok.mp h
  split at h
  · cases h
  rename_i hnonce
  obtain ⟨recipient, hrec, h⟩ := Except.bind_eq_ok.mp h
  split at h
  · cases h
  rename_i hfit
  obtain ⟨rn, hrn, h⟩ := Except.bind_eq_ok.mp h
  cases h
  -- the two checked additions are the sender's next nonce and the recipient's
  obtain ⟨hexp_fit, rfl⟩ := Ledger.addWord_eq_ok_iff.mp hexp
  obtain ⟨hrn_fit, rfl⟩ := Ledger.addWord_eq_ok_iff.mp hrn
  simp only [UInt64.toNat_one] at hexp_fit hrn_fit
  simp only [bne_iff_ne, ne_eq, Decidable.not_not] at hnonce
  have hpow : Nat.pow 2 64 = 2 ^ 64 := rfl
  refine ⟨cost, sender, recipient, fun heq => hne (by simp [heq]), hcost, hsender, hrec,
    UInt64.not_lt.mp hbal, ?_, by omega, hrn_fit, rfl⟩
  rw [hnonce, Ledger.UInt64.toNat_add_of_lt hexp_fit, UInt64.toNat_one]

/-- A reward that is credited: the recipient's balance takes the value without
overflow, and nothing else of its account changes. -/
theorem credit_eq_ok {load : AccountLookup} {tx : Transaction} {miner : Account}
    (h : tx.credit load = .ok miner) :
    tx.isReward = true ∧ ∃ acct, load tx.recipient = .ok acct ∧
      acct.balance.toNat + tx.value.toNat < 2 ^ 64 ∧
      miner = { acct with balance := acct.balance + tx.value } := by
  unfold credit at h
  dsimp only at h
  split at h
  · cases h
  rename_i hreward
  obtain ⟨acct, hacct, h⟩ := Except.bind_eq_ok.mp h
  split at h
  · cases h
  rename_i hfit
  cases h
  have hpow : Nat.pow 2 64 = 2 ^ 64 := rfl
  exact ⟨by simpa using hreward, acct, hacct, by omega, rfl⟩

/-- A cost that fits means a fee that fits. -/
theorem netherUsed_of_cost {tx : Transaction} {c : UInt64} (h : tx.cost = .ok c) :
    tx.netherUsed = .ok (tx.fee.toNat * tx.feePrice.toNat).toUInt64 := by
  unfold cost at h
  obtain ⟨used, hused, -⟩ := Except.bind_eq_ok.mp h
  rw [hused]
  congr 1
  apply UInt64.toNat_inj.mp
  have hlt := used.toNat_lt
  rw [netherUsed_eq_ok hused, Nat.toUInt64_eq, UInt64.toNat_ofNat']
  rw [netherUsed_eq_ok hused] at hlt
  omega

/-- The converse of `transfer_eq_ok`: a transfer whose checks all pass goes
through. -/
theorem transfer_of_checks {load : AccountLookup} {tx : Transaction} {cost : UInt64}
    {sender recipient : Account} (hne : tx.sender ≠ tx.recipient) (hcost : tx.cost = .ok cost)
    (hs : load tx.sender = .ok sender) (hr : load tx.recipient = .ok recipient)
    (hcov : cost ≤ sender.balance) (hnonce : tx.nonce.toNat = sender.nonce.toNat + 1)
    (hfit : recipient.balance.toNat + tx.value.toNat < 2 ^ 64)
    (hrn : recipient.nonce.toNat + 1 < 2 ^ 64) :
    tx.transfer load =
      .ok (⟨sender.balance - cost, tx.nonce⟩, ⟨recipient.balance + tx.value, recipient.nonce + 1⟩) := by
  -- the sender's next nonce is the transaction's, and the recipient's fits
  have hlt := tx.nonce.toNat_lt
  have hexp : addWord sender.nonce 1 = .ok tx.nonce := by
    rw [Ledger.addWord_of_lt (by simp only [UInt64.toNat_one]; omega)]
    congr 1
    apply UInt64.toNat_inj.mp
    simp only [UInt64.toNat_add, UInt64.toNat_one]
    omega
  have hrec : addWord recipient.nonce 1 = .ok (recipient.nonce + 1) :=
    Ledger.addWord_of_lt (by simpa using hrn)
  have hpow : Nat.pow 2 64 = 2 ^ 64 := rfl
  simp only [transfer, beq_iff_eq, hne, if_false, hcost, hs, hr, hexp, hrec, bne_self_eq_false,
    UInt64.not_lt.mpr hcov, hpow, ge_iff_le, bind, Except.bind, pure, Except.pure, Bool.false_eq_true]
  rw [if_neg (Nat.not_le.mpr hfit)]

/-- The converse of `credit_eq_ok`. -/
theorem credit_of_checks {load : AccountLookup} {tx : Transaction} {acct : Account}
    (hreward : tx.isReward = true) (h : load tx.recipient = .ok acct)
    (hfit : acct.balance.toNat + tx.value.toNat < 2 ^ 64) :
    tx.credit load = .ok { acct with balance := acct.balance + tx.value } := by
  have hpow : Nat.pow 2 64 = 2 ^ 64 := rfl
  simp only [credit, hreward, Bool.not_true, h, hpow, ge_iff_le, bind, Except.bind, pure, Except.pure,
    Bool.false_eq_true, if_false]
  rw [if_neg (Nat.not_le.mpr hfit)]

end Transaction

namespace Ledger

/-! ## One transaction -/

/-- Every address's account. -/
abbrev Accounts := Address → Account

/-- What one transaction of a block does to the accounts.  A reward credits
its recipient, whose balance must not overflow.  A standard transaction goes
between two different addresses, costs its value plus its fee, which the
sender must cover, carries the sender's nonce plus one, and must not overflow
the recipient's balance or nonce; the sender is debited the cost and takes
the transaction's nonce, the recipient is credited the value and its nonce
moves up by one. -/
inductive TxStep : Accounts → SignedTx → Accounts → Prop
  | reward {σ : Accounts} {s : SignedTx} (isReward : s.isReward = true)
      (fits : (σ s.tx.recipient).balance.toNat + s.tx.value.toNat < 2 ^ 64) :
      TxStep σ s (Function.update σ s.tx.recipient
        { σ s.tx.recipient with balance := (σ s.tx.recipient).balance + s.tx.value })
  | standard {σ : Accounts} {s : SignedTx} {cost : UInt64} (isReward : s.isReward = false)
      (distinct : s.tx.sender ≠ s.tx.recipient) (hcost : s.tx.cost = .ok cost)
      (covered : cost ≤ (σ s.tx.sender).balance)
      (nonce : s.tx.nonce.toNat = (σ s.tx.sender).nonce.toNat + 1)
      (fits : (σ s.tx.recipient).balance.toNat + s.tx.value.toNat < 2 ^ 64)
      (nonceFits : (σ s.tx.recipient).nonce.toNat + 1 < 2 ^ 64) :
      TxStep σ s (Function.update (Function.update σ s.tx.sender
          ⟨(σ s.tx.sender).balance - cost, s.tx.nonce⟩) s.tx.recipient
        ⟨(σ s.tx.recipient).balance + s.tx.value, (σ s.tx.recipient).nonce + 1⟩)

/-- A standard transfer computed on accounts is a step of the rules. -/
theorem TxStep.of_transfer {σ : Accounts} {s : SignedTx} {p : Account × Account}
    (hr : s.isReward = false) (h : s.tx.transfer (fun a => .ok (σ a)) = .ok p) :
    TxStep σ s (Function.update (Function.update σ s.tx.sender p.1) s.tx.recipient p.2) := by
  obtain ⟨cost, sender, recipient, hne, hcost, hs, hrec, hcov, hnonce, hfit, hrn, rfl⟩ :=
    Transaction.transfer_eq_ok h
  cases hs
  cases hrec
  exact TxStep.standard hr hne hcost hcov hnonce hfit hrn

/-- A reward credited on accounts is a step of the rules. -/
theorem TxStep.of_credit {σ : Accounts} {s : SignedTx} {miner : Account}
    (h : s.tx.credit (fun a => .ok (σ a)) = .ok miner) :
    TxStep σ s (Function.update σ s.tx.recipient miner) := by
  obtain ⟨hr, acct, hacct, hfit, rfl⟩ := Transaction.credit_eq_ok h
  cases hacct
  exact TxStep.reward hr hfit

/-- A step changes only the accounts of the addresses it touches. -/
theorem TxStep.apply_of_not_mem {σ σ' : Accounts} {s : SignedTx} (h : TxStep σ s σ')
    {a : Address} (ha : a ∉ touchedBy s) : σ' a = σ a := by
  cases h with
  | reward hr =>
    have hne : a ≠ s.tx.recipient := by simpa [touchedBy, hr] using ha
    rw [Function.update_of_ne hne]
  | standard hr =>
    have hne : a ≠ s.tx.recipient ∧ a ≠ s.tx.sender := by simpa [touchedBy, hr] using ha
    rw [Function.update_of_ne hne.1, Function.update_of_ne hne.2]

/-- After a standard step the sender holds the transaction's nonce. -/
theorem TxStep.sender_nonce {σ σ' : Accounts} {s : SignedTx} (h : TxStep σ s σ')
    (hr : s.isReward = false) : (σ' s.tx.sender).nonce = s.tx.nonce := by
  cases h with
  | reward hr' => simp [hr] at hr'
  | standard _ hne => rw [Function.update_of_ne hne, Function.update_self]

/-- The rules allow one outcome for a transaction. -/
theorem TxStep.deterministic {σ σ₁ σ₂ : Accounts} {s : SignedTx} (h₁ : TxStep σ s σ₁)
    (h₂ : TxStep σ s σ₂) : σ₁ = σ₂ := by
  cases h₁ with
  | reward hr =>
    cases h₂ with
    | reward => rfl
    | standard hr' => simp [hr] at hr'
  | standard hr _ hcost =>
    cases h₂ with
    | reward hr' => simp [hr] at hr'
    | standard _ _ hcost' =>
      -- both steps debit the one cost the transaction has
      rw [hcost] at hcost'
      cases hcost'
      rfl

/-! ## Transactions in order -/

/-- Transactions applied in order, each to the accounts the earlier ones
left. -/
inductive Applies : Accounts → List SignedTx → Accounts → Prop
  | nil (σ : Accounts) : Applies σ [] σ
  | cons {σ σ₁ σ₂ : Accounts} {s : SignedTx} {txs : List SignedTx} (step : TxStep σ s σ₁)
      (rest : Applies σ₁ txs σ₂) : Applies σ (s :: txs) σ₂

namespace Applies

variable {σ σ₁ σ' : Accounts} {txs l₁ l₂ : List SignedTx}

theorem append (h₁ : Applies σ l₁ σ₁) (h₂ : Applies σ₁ l₂ σ') : Applies σ (l₁ ++ l₂) σ' := by
  induction h₁ with
  | nil => exact h₂
  | cons step _ ih => exact Applies.cons step (ih h₂)

theorem of_append (h : Applies σ (l₁ ++ l₂) σ') : ∃ σ₁, Applies σ l₁ σ₁ ∧ Applies σ₁ l₂ σ' := by
  induction l₁ generalizing σ with
  | nil => exact ⟨σ, Applies.nil σ, h⟩
  | cons s l₁ ih =>
    cases h with
    | cons step rest =>
      obtain ⟨σ₁, h₁, h₂⟩ := ih rest
      exact ⟨σ₁, Applies.cons step h₁, h₂⟩

theorem apply_of_not_mem (h : Applies σ txs σ') {a : Address} (ha : ∀ s ∈ txs, a ∉ touchedBy s) :
    σ' a = σ a := by
  induction h with
  | nil => rfl
  | cons step _ ih =>
    rw [ih fun s hs => ha s (List.mem_cons_of_mem _ hs),
      step.apply_of_not_mem (ha _ List.mem_cons_self)]

end Applies

/-! ## Nonces -/

/-- Whether `s` moves the nonce of `a`: a standard transaction moves its
sender's and its recipient's. -/
def movesNonce (s : SignedTx) (a : Address) : Bool :=
  !s.isReward && (decide (s.tx.sender = a) || decide (s.tx.recipient = a))

/-- How many transactions of `txs` move the nonce of `a`. -/
def nonceMoves (txs : List SignedTx) (a : Address) : Nat := txs.countP (movesNonce · a)

theorem TxStep.nonce {σ σ' : Accounts} {s : SignedTx} (h : TxStep σ s σ') (a : Address) :
    (σ' a).nonce.toNat = (σ a).nonce.toNat + if movesNonce s a then 1 else 0 := by
  cases h with
  | reward hr =>
    by_cases ha : a = s.tx.recipient
    · subst ha
      simp [movesNonce, hr]
    · simp [Function.update_of_ne ha, movesNonce, hr]
  | standard hr hne _ _ hnonce _ hrn =>
    by_cases har : a = s.tx.recipient
    · subst har
      rw [Function.update_self]
      simp only [movesNonce, hr, decide_true, Bool.or_true, Bool.not_false, Bool.and_self,
        if_true, UInt64.toNat_add, UInt64.toNat_one]
      omega
    · rw [Function.update_of_ne har]
      by_cases has : a = s.tx.sender
      · subst has
        rw [Function.update_self]
        simp [movesNonce, hr, hnonce]
      · rw [Function.update_of_ne has]
        simp [movesNonce, hr, Ne.symm has, Ne.symm har]

/-- Every nonce grows by the number of standard transactions that name its
address as sender or recipient. -/
theorem Applies.nonce {σ σ' : Accounts} {txs : List SignedTx} (h : Applies σ txs σ') (a : Address) :
    (σ' a).nonce.toNat = (σ a).nonce.toNat + nonceMoves txs a := by
  induction h with
  | nil => simp [nonceMoves]
  | cons step _ ih =>
    rw [ih, step.nonce a, nonceMoves, nonceMoves, List.countP_cons]
    omega

/-- A standard transaction carries its sender's nonce plus one, counting the
transactions before it. -/
theorem Applies.nonce_eq {σ σ' : Accounts} {l₁ l₂ : List SignedTx} {s : SignedTx}
    (h : Applies σ (l₁ ++ s :: l₂) σ') (hs : s.isReward = false) :
    s.tx.nonce.toNat = (σ s.tx.sender).nonce.toNat + nonceMoves l₁ s.tx.sender + 1 := by
  obtain ⟨σ₁, h₁, h₂⟩ := Applies.of_append h
  cases h₂ with
  | cons step _ =>
    cases step with
    | reward hr => simp [hs] at hr
    | standard _ _ _ _ hnonce => rw [hnonce, h₁.nonce]

/-- Each standard transaction applied carries a nonce above what its sender
held at the start. -/
theorem Applies.nonce_lt {σ σ' : Accounts} {txs : List SignedTx} (h : Applies σ txs σ')
    {s : SignedTx} (hs : s ∈ txs) (hr : s.isReward = false) :
    (σ s.tx.sender).nonce.toNat < s.tx.nonce.toNat := by
  obtain ⟨l₁, l₂, rfl⟩ := List.append_of_mem hs
  rw [h.nonce_eq hr]
  omega

/-- No standard transaction is applied twice: a later one from the same
sender carries a greater nonce. -/
theorem Applies.nodup_standard {σ σ' : Accounts} {txs : List SignedTx} (h : Applies σ txs σ') :
    ((txs.filter (!·.isReward)).map (·.tx)).Nodup := by
  induction h with
  | nil => simp
  | @cons σ σ₁ σ₂ s txs step rest ih =>
    cases hr : s.isReward with
    | true => simpa [List.filter_cons, hr] using ih
    | false =>
      simp only [List.filter_cons, hr, Bool.not_false, if_true, List.map_cons, List.nodup_cons]
      refine ⟨fun hmem => ?_, ih⟩
      obtain ⟨s', hs', heq⟩ := List.mem_map.mp hmem
      obtain ⟨hs'mem, hs'r⟩ := List.mem_filter.mp hs'
      -- the sender already holds `s`'s nonce when the copy comes
      have hlt := rest.nonce_lt hs'mem (by simpa using hs'r)
      rw [heq, step.sender_nonce hr] at hlt
      exact Nat.lt_irrefl _ hlt

/-! ## Balances -/

/-- The balances of the addresses in `A`, added up without bound. -/
def supply (σ : Accounts) (A : Finset Address) : Nat := ∑ a ∈ A, (σ a).balance.toNat

/-- Replacing one account of `A` changes the supply by the new balance minus
the old. -/
theorem supply_update (σ : Accounts) {A : Finset Address} {a : Address} (ha : a ∈ A)
    (acct : Account) :
    supply (Function.update σ a acct) A + (σ a).balance.toNat = supply σ A + acct.balance.toNat := by
  unfold supply
  rw [← Finset.add_sum_erase A _ ha, ← Finset.add_sum_erase A (fun x => (σ x).balance.toNat) ha,
    Function.update_self]
  have hrest : ∑ x ∈ A.erase a, (Function.update σ a acct x).balance.toNat =
      ∑ x ∈ A.erase a, (σ x).balance.toNat :=
    Finset.sum_congr rfl fun x hx => by rw [Function.update_of_ne (Finset.ne_of_mem_erase hx)]
  rw [hrest]
  omega

/-- What a transaction takes out of circulation: the fee of a standard
transaction. -/
def burned (s : SignedTx) : Nat := if s.isReward then 0 else s.tx.fee.toNat * s.tx.feePrice.toNat

/-- What a transaction puts into circulation: the value of a reward. -/
def minted (s : SignedTx) : Nat := if s.isReward then s.tx.value.toNat else 0

/-- Over addresses that include the ones it touches, a step burns the fee of
a standard transaction and mints the value of a reward; the value a standard
transaction moves stays in circulation. -/
theorem TxStep.supply {σ σ' : Accounts} {s : SignedTx} (h : TxStep σ s σ') {A : Finset Address}
    (hA : ∀ a ∈ touchedBy s, a ∈ A) : supply σ' A + burned s = supply σ A + minted s := by
  cases h with
  | reward hr hfit =>
    have hmem := hA s.tx.recipient (by simp [touchedBy, hr])
    have hup := supply_update σ hmem { σ s.tx.recipient with balance := (σ s.tx.recipient).balance + s.tx.value }
    simp only [UInt64.toNat_add, Nat.mod_eq_of_lt hfit] at hup
    simp only [burned, minted, hr, if_true]
    omega
  | @standard cost hr hne hcost hcov _ hfit _ =>
    have hrec := hA s.tx.recipient (by simp [touchedBy, hr])
    have hsnd := hA s.tx.sender (by simp [touchedBy, hr])
    -- the sender's account is replaced first, then the recipient's
    have h₁ := supply_update σ hsnd ⟨(σ s.tx.sender).balance - cost, s.tx.nonce⟩
    have h₂ := supply_update (Function.update σ s.tx.sender
      ⟨(σ s.tx.sender).balance - cost, s.tx.nonce⟩) hrec
      ⟨(σ s.tx.recipient).balance + s.tx.value, (σ s.tx.recipient).nonce + 1⟩
    rw [Function.update_of_ne (Ne.symm hne)] at h₂
    have hcost' := Transaction.cost_eq_ok hcost
    have hle : cost.toNat ≤ (σ s.tx.sender).balance.toNat := UInt64.le_iff_toNat_le.mp hcov
    simp only [UInt64.toNat_sub_of_le _ _ hcov, UInt64.toNat_add, Nat.mod_eq_of_lt hfit] at h₁ h₂
    simp only [burned, minted, hr, Bool.false_eq_true, if_false]
    omega

/-- Over addresses that include every one they touch, transactions applied in
order change the supply by what they mint less what they burn. -/
theorem Applies.supply {σ σ' : Accounts} {txs : List SignedTx} (h : Applies σ txs σ')
    {A : Finset Address} (hA : ∀ s ∈ txs, ∀ a ∈ touchedBy s, a ∈ A) :
    supply σ' A + (txs.map burned).sum = supply σ A + (txs.map minted).sum := by
  induction h with
  | nil => simp
  | cons step _ ih =>
    have h₁ := step.supply (hA _ List.mem_cons_self)
    have h₂ := ih fun s hs => hA s (List.mem_cons_of_mem _ hs)
    simp only [List.map_cons, List.sum_cons]
    omega

end Ledger

/-! ## The reward of a block -/

namespace Block

/-- The fees of transactions added to a running total, as the reward adds
them. -/
theorem foldlM_fees_eq_ok {l : List SignedTx} {acc r : Nat}
    (h : l.foldlM (fun (acc : Nat) s => do
        let used ← s.tx.netherUsed
        let t := acc + used.toNat
        if t > Transaction.wordMax then throw (LedgerError.invalidBlock "Fee total overflows") else pure t)
      acc = .ok r) :
    r = acc + (l.map fun s => s.tx.fee.toNat * s.tx.feePrice.toNat).sum := by
  induction l generalizing acc with
  | nil =>
    cases h
    simp
  | cons s l ih =>
    rw [List.foldlM_cons] at h
    obtain ⟨acc', hstep, h⟩ := Except.bind_eq_ok.mp h
    obtain ⟨used, hused, hstep⟩ := Except.bind_eq_ok.mp hstep
    dsimp only at hstep
    split at hstep
    · cases hstep
    · cases hstep
      rw [ih h, Transaction.netherUsed_eq_ok hused, List.map_cons, List.sum_cons]
      omega

theorem sum_burned (txs : List SignedTx) :
    (txs.map Ledger.burned).sum =
      ((txs.filter (!·.isReward)).map fun s => s.tx.fee.toNat * s.tx.feePrice.toNat).sum := by
  induction txs with
  | nil => rfl
  | cons s txs ih =>
    cases hr : s.isReward <;> simp [Ledger.burned, hr, ih]

/-- A block's reward is the base reward plus the fees its standard
transactions burn. -/
theorem reward_eq_ok {txs : List SignedTx} {v : UInt64} (h : reward txs = .ok v) :
    v.toNat = baseReward + (txs.map Ledger.burned).sum := by
  unfold reward at h
  obtain ⟨fees, hfees, h⟩ := Except.bind_eq_ok.mp h
  obtain rfl := foldlM_fees_eq_ok hfees
  dsimp only at h
  split at h
  · cases h
  · rename_i hle
    cases h
    simp only [Transaction.wordMax, gt_iff_lt, not_lt] at hle
    rw [Nat.toUInt64_eq, UInt64.toNat_ofNat', sum_burned]
    have hpow : Nat.pow 2 64 = 2 ^ 64 := rfl
    omega

/-- A block with a well-formed reward holds exactly one reward, from the zero
address to its coinbase, numbered as the block and worth the block's
reward. -/
theorem validateReward_ok {b : Block} (h : b.validateReward = .ok ()) :
    ∃ r, b.transactions.filter SignedTx.isReward = [r] ∧ r.tx.nonce = b.header.number ∧
      r.tx.sender.isZero = true ∧ r.tx.recipient = b.header.coinbase ∧
      ∃ v, reward b.transactions = .ok v ∧ r.tx.value = v := by
  unfold validateReward at h
  split at h
  · cases h
  · rename_i r hr
    dsimp only at h
    split at h
    · cases h
    rename_i hfields
    obtain ⟨v, hv, h⟩ := Except.bind_eq_ok.mp h
    split at h
    · cases h
    rename_i hvalue
    simp only [Bool.or_eq_true, bne_iff_ne, ne_eq, Bool.not_eq_true', not_or,
      Decidable.not_not, Bool.not_eq_false] at hfields
    simp only [bne_iff_ne, ne_eq, Decidable.not_not] at hvalue
    exact ⟨r, hr, hfields.1.1, hfields.1.2, hfields.2, v, hv, hvalue⟩
  · cases h

/-- What a block with a well-formed reward mints is its base reward plus the
fees its standard transactions burn. -/
theorem sum_minted {b : Block} (h : b.validateReward = .ok ()) :
    (b.transactions.map Ledger.minted).sum = baseReward + (b.transactions.map Ledger.burned).sum := by
  obtain ⟨r, hr, -, -, -, v, hv, hval⟩ := validateReward_ok h
  have hsum : (b.transactions.map Ledger.minted).sum =
      ((b.transactions.filter SignedTx.isReward).map (·.tx.value.toNat)).sum := by
    clear hr
    induction b.transactions with
    | nil => rfl
    | cons s txs ih => cases hs : s.isReward <;> simp [Ledger.minted, hs, ih]
  rw [hsum, hr, ← reward_eq_ok hv, ← hval]
  simp

end Block
end PowChain
