import PowChain.Proofs.Pool.Replay
import PowChain.Proofs.Chain.Consensus
import PowChain.Proofs.Ledger.Application
import Mathlib.Data.Finset.Card

/-!
# The invariant of the pending pool

The pool's invariant over canonical accounts (`Pool.Consistent`): its order
lists the keys of its entries, each once; every entry holds a valid
transaction under its own hash; and its pending transactions, applied in
order over the canonical accounts, all go through and leave an overlay that
reads as the pool's.

* `Pool.Consistent.accept` — while the canonical accounts stay as they are,
  an admission keeps the invariant, and `Pool.accept_order` appends a new
  hash to the order;
* `Pool.accept_of_pending` — a transaction already pending is answered with
  its earlier preview, once it passes validation: a copy that fails
  validation, under the same hash, is refused;
* `Pool.reconcile_reconciled` — reconciling a pool whose bookkeeping is
  sound has an outcome of `Pool.Reconciled`: it keeps exactly the pending
  transactions outside the block that still apply in order, evicts the
  others and restores the invariant; or the transfer of one panics (a nonce
  past 64 bits), and the pool is left with no order;
* `Pool.forget_faithful` — forgetting evicted transactions deletes the record
  of those with no receipt, and nothing else, over any store that keeps the
  store contract, unless the store fails to commit, which leaves it as it was.
-/

namespace PowChain

/-- A delete reads back as a missing key, and leaves every other key as it
was. -/
theorem Txn.get?_delete (t : Txn) (k k' : ByteArray) :
    (t.delete k).get? k' = if k' = k then .ok none else t.get? k' := by
  rw [Txn.get?_eq_lookup, Txn.get?_eq_lookup t]
  simp only [Txn.delete, Batch.lookup_cons_filter]
  split_ifs <;> rfl

namespace Pool

/-- The pool's bookkeeping: the order lists the keys of the entries, each
once, and every entry holds a valid transaction under its own hash. -/
structure Sound (p : Pool) : Prop where
  nodup : p.order.Nodup
  keys : (p.entries.map (·.1)).Perm p.order
  valid : ∀ e ∈ p.entries, e.2.tx.hash = e.1 ∧ e.2.tx.validate = .ok ()

/-- The pool's invariant over the canonical accounts `base`: its bookkeeping
is sound, and its pending transactions, applied in order over `base`, all go
through and leave an overlay that reads as the pool's. -/
structure Consistent (p : Pool) (base : AccountLookup) : Prop where
  sound : p.Sound
  replays : ∃ o, Overlay.applyAll base {} p.transactions = .ok o ∧ o.lookup base = p.shadows.lookup base

/-- The empty pool holds its invariant over any accounts. -/
theorem consistent_empty (base : AccountLookup) : ({} : Pool).Consistent base :=
  ⟨⟨List.nodup_nil, List.Perm.refl _, fun _ he => absurd he List.not_mem_nil⟩, {}, rfl, rfl⟩

theorem Sound.keys_nodup {p : Pool} (h : p.Sound) : (p.entries.map (·.1)).Nodup :=
  h.keys.nodup_iff.mpr h.nodup

theorem get?_eq_entryTx (p : Pool) (h : Digest) : p.get? h = entryTx p.entries h := by
  simp only [get?, find?, entryTx, Option.map_map]
  rfl

theorem transactions_eq (p : Pool) : p.transactions = p.order.filterMap (entryTx p.entries) := by
  unfold transactions
  exact congrArg (fun f => List.filterMap f p.order) (funext (get?_eq_entryTx p))

/-! ## Looking up entries -/

section Entries

variable {entries : List (Digest × PendingEntry)}

/-- Among entries with distinct keys, an entry is the one found under its
key. -/
theorem find?_of_mem (hnd : (entries.map (·.1)).Nodup) {e : Digest × PendingEntry} (he : e ∈ entries) :
    entries.find? (·.1 == e.1) = some e := by
  induction entries with
  | nil => cases he
  | cons x rest ih =>
    rw [List.map_cons, List.nodup_cons] at hnd
    rcases List.mem_cons.mp he with rfl | he
    · simp
    · have hne : x.1 ≠ e.1 := fun heq => hnd.1 (heq ▸ List.mem_map_of_mem he)
      rw [List.find?_cons_of_neg (by simpa using hne)]
      exact ih hnd.2 he

theorem entryTx_of_mem (hnd : (entries.map (·.1)).Nodup) {e : Digest × PendingEntry} (he : e ∈ entries) :
    entryTx entries e.1 = some e.2.tx := by
  simp only [entryTx, find?_of_mem hnd he, Option.map_some]

theorem entryTx_eq_some {h : Digest} {t : SignedTx} (hs : entryTx entries h = some t) :
    ∃ e ∈ entries, e.1 = h ∧ e.2.tx = t := by
  obtain ⟨e, hfind, rfl⟩ := Option.map_eq_some_iff.mp hs
  have hp := List.find?_some hfind
  exact ⟨e, List.mem_of_find?_eq_some hfind, beq_iff_eq.mp hp, rfl⟩

/-- Entries that hold their transactions under their own hashes answer a
hash with a transaction of that hash. -/
theorem hash_of_entryTx (hkey : ∀ e ∈ entries, e.2.tx.hash = e.1) {h : Digest} {t : SignedTx}
    (hs : entryTx entries h = some t) : t.hash = h := by
  obtain ⟨e, he, rfl, rfl⟩ := entryTx_eq_some hs
  exact hkey e he

/-- Dropping entries under other keys changes no answer for `h`. -/
theorem entryTx_filter (keep : Digest × PendingEntry → Bool) {h : Digest}
    (hk : ∀ e ∈ entries, e.1 = h → keep e = true) : entryTx (entries.filter keep) h = entryTx entries h := by
  induction entries with
  | nil => rfl
  | cons x rest ih =>
    have ih' := ih fun e he => hk e (List.mem_cons_of_mem _ he)
    by_cases hx : x.1 = h
    · have hkx : keep x = true := hk x List.mem_cons_self hx
      simp [entryTx, hkx, hx]
    · have hxh : (x.1 == h) = false := beq_false_of_ne hx
      unfold entryTx at ih' ⊢
      by_cases hkx : keep x = true
      · rw [List.filter_cons_of_pos hkx, List.find?_cons, List.find?_cons, hxh]
        exact ih'
      · rw [List.filter_cons_of_neg hkx, List.find?_cons, hxh]
        exact ih'

end Entries

/-! ## Admission -/

/-- What an admission that goes through did: the transaction is valid, and
it was pending already and is answered with its earlier preview, or it is new,
its transfer applies on the overlay, its record is written and its hash and
preview are appended. -/
theorem accept_ok {p p' : Pool} {s s' : Store} {tx : SignedTx} {r : Receipt}
    (h : p.accept s tx = .ok (r, p', s')) :
    tx.validate = .ok () ∧
      ((∃ e, p.find? tx.hash = some e ∧ r = e.preview ∧ p' = p ∧ s' = s) ∨
        (p.find? tx.hash = none ∧ ∃ q, tx.tx.transfer (p.shadows.lookup s.account) = .ok q ∧
          s.update (TxnM.set (Keys.transaction tx.hash.bytes) tx.toWire) = .ok ((), s') ∧
          p' = ⟨p.order ++ [tx.hash], p.entries ++ [(tx.hash, ⟨tx, r⟩)], p.shadows.absorb tx.tx q⟩)) := by
  unfold accept at h
  cases hv : tx.validate with
  | error e => rw [hv] at h; cases h
  | ok u =>
    rw [hv] at h
    refine ⟨rfl, ?_⟩
    simp only [bind, Except.bind] at h
    split at h
    · -- already pending
      rename_i e hfind
      cases h
      exact .inl ⟨e, hfind, rfl, rfl, rfl⟩
    · rename_i hnone
      have hfind : p.find? tx.hash = none := by
        cases hf : p.find? tx.hash with
        | none => rfl
        | some e => exact absurd hf (hnone e)
      split at h
      · cases h
      · split at h
        · cases h
        · rename_i q htransfer
          split at h
          · cases h
          · rename_i v hupd
            split at h
            · cases h
            · cases h
              exact .inr ⟨hfind, q, htransfer, hupd, rfl⟩

/-- A transaction already pending is answered with its earlier preview, and
nothing changes, once it passes validation. -/
theorem accept_of_pending (p : Pool) (s : Store) {tx : SignedTx} {e : PendingEntry}
    (h : p.find? tx.hash = some e) : p.accept s tx = tx.validate.map fun _ => (e.preview, p, s) := by
  unfold accept
  cases tx.validate with
  | error err => rfl
  | ok u =>
    simp only [bind, Except.bind, h]
    rfl

theorem find?_eq_none_iff {p : Pool} {h : Digest} :
    p.find? h = none ↔ ∀ e ∈ p.entries, e.1 ≠ h := by
  simp only [find?, Option.map_eq_none_iff, List.find?_eq_none, beq_iff_eq]

/-- While the canonical accounts stay as they are, an admission keeps the
pool's invariant: a new transaction applies on the overlay of the ones before
it, and its hash goes to the end of the order. -/
theorem Consistent.accept {p p' : Pool} {s s' : Store} {tx : SignedTx} {r : Receipt}
    (hc : p.Consistent s.account) (h : p.accept s tx = .ok (r, p', s')) : p'.Consistent s.account := by
  obtain ⟨hv, ⟨e, -, -, rfl, -⟩ | ⟨hnone, q, htransfer, -, rfl⟩⟩ := accept_ok h
  · exact hc
  obtain ⟨⟨hnodup, hkeys, hvalid⟩, o, happly, hlookup⟩ := hc
  have hnew : ∀ e ∈ p.entries, e.1 ≠ tx.hash := find?_eq_none_iff.mp hnone
  have hnotin : tx.hash ∉ p.order := fun hin => by
    obtain ⟨e, he, heq⟩ := List.mem_map.mp (hkeys.symm.subset hin)
    exact hnew e he heq
  -- the pending transactions before it read as before
  have hold : ∀ h ∈ p.order, entryTx (p.entries ++ [(tx.hash, ⟨tx, r⟩)]) h = entryTx p.entries h := by
    intro h hin
    obtain ⟨e, he, rfl⟩ := List.mem_map.mp (hkeys.symm.subset hin)
    rw [entryTx_of_mem (hkeys.nodup_iff.mpr hnodup) he]
    simp [entryTx, List.find?_append, find?_of_mem (hkeys.nodup_iff.mpr hnodup) he]
  have hlast : entryTx (p.entries ++ [(tx.hash, ⟨tx, r⟩)]) tx.hash = some tx := by
    have hno : p.entries.find? (·.1 == tx.hash) = none :=
      List.find?_eq_none.mpr fun e he => by simpa using hnew e he
    simp [entryTx, List.find?_append, hno]
  have htxs : Pool.transactions ⟨p.order ++ [tx.hash], p.entries ++ [(tx.hash, ⟨tx, r⟩)],
      p.shadows.absorb tx.tx q⟩ = p.transactions ++ [tx] := by
    rw [transactions_eq, transactions_eq, List.filterMap_append, List.filterMap_cons_some hlast,
      List.filterMap_nil, List.filterMap_congr hold]
  refine ⟨⟨?_, ?_, ?_⟩, ?_⟩
  · exact List.nodup_append.mpr ⟨hnodup, List.nodup_singleton _, fun a ha b hb => by
      rw [List.mem_singleton.mp hb]
      exact fun heq => hnotin (heq ▸ ha)⟩
  · simpa using hkeys.append_right [tx.hash]
  · intro e he
    rcases List.mem_append.mp he with he | he
    · exact hvalid e he
    · rw [List.mem_singleton.mp he]
      exact ⟨rfl, hv⟩
  · -- the new transfer runs on an overlay that reads as the pool's
    have htr : tx.tx.transfer (o.lookup s.account) = .ok q := by rw [hlookup]; exact htransfer
    refine ⟨o.absorb tx.tx q, ?_, Overlay.lookup_absorb_congr hlookup tx.tx q⟩
    rw [htxs, Overlay.applyAll_append, happly]
    simp only [Except.bind, Overlay.applyAll, htr]

/-! ## Reconciling with a block -/

theorem nodup_eraseDups {α : Type} [BEq α] [LawfulBEq α] (l : List α) : l.eraseDups.Nodup := by
  induction hlen : l.length using Nat.strong_induction_on generalizing l with
  | _ n ih =>
    cases l with
    | nil => simp
    | cons a as =>
      rw [List.eraseDups_cons, List.nodup_cons]
      refine ⟨fun hmem => ?_, ih _ ?_ _ rfl⟩
      · simpa using List.mem_eraseDups.mp hmem
      · rw [← hlen, List.length_cons]
        exact Nat.lt_succ_of_le (List.length_filter_le _ _)

/-- The hashes a reconciliation drops are those of the block, each once. -/
theorem length_eraseDups {α : Type} [BEq α] [LawfulBEq α] [DecidableEq α] (l : List α) :
    l.eraseDups.length = l.toFinset.card := by
  rw [← List.toFinset_card_of_nodup (nodup_eraseDups l)]
  apply congrArg Finset.card
  ext x
  simp [List.mem_eraseDups]

theorem filterMap_eq_self {α : Type} {f : α → Option α} :
    ∀ {l : List α}, (∀ x ∈ l, f x = some x) → l.filterMap f = l
  | [], _ => rfl
  | x :: l, h => by
    rw [List.filterMap_cons_some (h x List.mem_cons_self),
      filterMap_eq_self fun y hy => h y (List.mem_cons_of_mem _ hy)]

section Sift

variable {es : List (Digest × PendingEntry)}

/-- Entries found under every hash of an order answer it with transactions
whose hashes are that order. -/
theorem map_hash_filterMap (hkey : ∀ e ∈ es, e.2.tx.hash = e.1) :
    ∀ {l : List Digest}, (∀ h ∈ l, (entryTx es h).isSome) → (l.filterMap (entryTx es)).map SignedTx.hash = l
  | [], _ => rfl
  | h :: l, hall => by
    obtain ⟨t, ht⟩ := Option.isSome_iff_exists.mp (hall h List.mem_cons_self)
    rw [List.filterMap_cons_some ht, List.map_cons, hash_of_entryTx hkey ht,
      map_hash_filterMap hkey fun h' hh' => hall h' (List.mem_cons_of_mem _ hh')]

end Sift

/-- The pending transactions a reconciliation replays are the pool's pending
transactions outside the block, in order. -/
theorem pending_outside {p : Pool} (hkey : ∀ e ∈ p.entries, e.2.tx.hash = e.1) (hashes : List Digest) :
    (p.order.filter fun h => !hashes.eraseDups.contains h).filterMap
        (entryTx (p.entries.filter fun e => !hashes.eraseDups.contains e.1)) =
      p.transactions.filter fun t => t.hash ∉ hashes := by
  rw [transactions_eq, List.filterMap_filter, List.filter_filterMap]
  refine congrArg (fun f => List.filterMap f p.order) (funext fun h => ?_)
  have hout : (!hashes.eraseDups.contains h) = decide (h ∉ hashes) := by simp [List.mem_eraseDups]
  cases hin : decide (h ∉ hashes)
  · -- a hash of the block: nothing of it is replayed
    rw [hout, hin]
    cases ht : entryTx p.entries h with
    | none => rfl
    | some t =>
      have hth := hash_of_entryTx hkey ht
      simp only [Option.filter_some, hth, hin, Bool.false_eq_true, if_false]
  · rw [hout, hin, if_pos rfl, entryTx_filter _ fun e _ he => by rw [he, hout, hin]]
    cases ht : entryTx p.entries h with
    | none => rfl
    | some t =>
      have hth := hash_of_entryTx hkey ht
      simp only [Option.filter_some, hth, hin, if_true]

theorem keys_filter (l : List (Digest × PendingEntry)) (q : Digest → Bool) :
    (l.filter fun e => q e.1).map (·.1) = (l.map (·.1)).filter q := by
  rw [List.filter_map]
  rfl

/-- After a replay that sifted the pending transactions outside the block,
the pool holds exactly the kept transactions, in order, and its invariant
holds again over the accounts the replay read.  The kept and the evicted
hashes split the replayed order, each once. -/
theorem sifted_pool {p : Pool} (hp : p.Sound) {hashes : List Digest} {base : AccountLookup}
    {kept evicted : List SignedTx} {o : Overlay}
    (hsieve : Sieve base {} ((p.order.filter fun h => !hashes.eraseDups.contains h).filterMap
      (entryTx (p.entries.filter fun e => !hashes.eraseDups.contains e.1))) kept evicted o) :
    let p' : Pool := ⟨kept.map SignedTx.hash, (p.entries.filter fun e => !hashes.eraseDups.contains e.1).filter
      fun e => !((evicted.map SignedTx.hash).reverse.contains e.1), o⟩
    p'.transactions = kept ∧ p'.Consistent base := by
  intro p'
  have hkey₀ : ∀ e ∈ p.entries.filter (fun e => !hashes.eraseDups.contains e.1), e.2.tx.hash = e.1 :=
    fun e he => (hp.valid e (List.mem_filter.mp he).1).1
  -- every hash left in the order has its entry
  have hall : ∀ h ∈ p.order.filter (fun h => !hashes.eraseDups.contains h),
      (entryTx (p.entries.filter fun e => !hashes.eraseDups.contains e.1) h).isSome := by
    intro h hh
    obtain ⟨hin, hout⟩ := List.mem_filter.mp hh
    obtain ⟨e, he, rfl⟩ := List.mem_map.mp (hp.keys.symm.subset hin)
    rw [entryTx_filter _ fun e' _ he' => by rw [he']; exact hout, entryTx_of_mem hp.keys_nodup he]
    rfl
  have hperm : (kept.map SignedTx.hash ++ evicted.map SignedTx.hash).Perm
      (p.order.filter fun h => !hashes.eraseDups.contains h) := by
    rw [← List.map_append, ← map_hash_filterMap hkey₀ hall]
    exact hsieve.perm.map _
  obtain ⟨hkeptNodup, -, hapart⟩ := List.nodup_append.mp (hperm.nodup_iff.mpr (hp.nodup.filter _))
  have hstay : ∀ t ∈ kept, (!((evicted.map SignedTx.hash).reverse.contains t.hash)) = true := by
    intro t ht
    have hout : t.hash ∉ evicted.map SignedTx.hash := fun hev => hapart _ (List.mem_map_of_mem ht) _ hev rfl
    simpa using hout
  -- each kept transaction is still found under its hash
  have hfound : ∀ t ∈ kept, entryTx p'.entries t.hash = some t := by
    intro t ht
    obtain ⟨h, -, hth⟩ := List.mem_filterMap.mp (hsieve.kept_sublist.subset ht)
    have hhash := hash_of_entryTx hkey₀ hth
    rw [entryTx_filter _ fun e _ he => by rw [he]; exact hstay t ht, hhash, hth]
  have htxs : p'.transactions = kept := by
    rw [transactions_eq, List.filterMap_map]
    exact filterMap_eq_self hfound
  refine ⟨htxs, ⟨hkeptNodup, ?_, fun e he => hp.valid e (List.mem_filter.mp (List.mem_filter.mp he).1).1⟩,
    o, by rw [htxs]; exact hsieve.applyAll, rfl⟩
  -- the entries left are keyed by the kept hashes
  show ((p.entries.filter _).filter _).map (·.1) |>.Perm (kept.map SignedTx.hash)
  rw [keys_filter _ fun h => !((evicted.map SignedTx.hash).reverse.contains h),
    keys_filter _ fun h => !hashes.eraseDups.contains h]
  refine ((hp.keys.filter _).filter _).trans ?_
  refine (hperm.symm.filter _).trans ?_
  rw [List.filter_append, List.filter_eq_self.mpr, List.filter_eq_nil_iff.mpr, List.append_nil]
  · intro h hev
    simpa using hev
  · intro h hk
    obtain ⟨t, ht, rfl⟩ := List.mem_map.mp hk
    exact hstay t ht

theorem length_filter_eraseDups {α : Type} [BEq α] [LawfulBEq α] [DecidableEq α] (l : List α) (q : α → Bool) :
    (l.eraseDups.filter q).length = (l.toFinset.filter fun x => q x = true).card := by
  rw [← List.toFinset_card_of_nodup ((nodup_eraseDups l).filter q)]
  apply congrArg Finset.card
  ext x
  simp [List.mem_eraseDups]

/-! ## Forgetting evicted records -/

/-- `k` is the record of a hash of `hashes` that has no receipt, as `read`
reads the store. -/
def Unconfirmed (read : ByteArray → Result (Option ByteArray)) (hashes : List Digest) (k : ByteArray) :
    Prop :=
  ∃ h ∈ hashes, k = Keys.transaction h.bytes ∧ read (Keys.receipt h.bytes) = .ok none

/-- Reads after forgetting `hashes`: the record of every hash with no receipt
is gone, and every other key reads as before. -/
def Forgets (read read' : ByteArray → Result (Option ByteArray)) (hashes : List Digest) : Prop :=
  ∀ k, (Unconfirmed read hashes k → read' k = .ok none) ∧ (¬ Unconfirmed read hashes k → read' k = read k)

/-- One round of forgetting reads the receipt of `h` and deletes the record
of `h` when there is none. -/
theorem forget_round_run (h : Digest) {t : Txn} {v : Option ByteArray}
    (hv : t.get? (Keys.receipt h.bytes) = .ok v) :
    (do if (← TxnM.get? (Keys.receipt h.bytes)).isNone then TxnM.delete (Keys.transaction h.bytes) :
      TxnM Unit).run t = .ok ((), if v.isNone then t.delete (Keys.transaction h.bytes) else t) := by
  rw [StateT.run_bind, TxnM.get?_run, hv]
  cases v <;> rfl

/-- Rounds of forgetting, one hash after another, over a transaction whose
reads go through, forget the hashes.  Only transaction records are deleted,
so every round reads the receipts the pass started with; the induction is
on the hashes, over any transaction. -/
theorem forget_pass {f : Digest → TxnM Unit}
    (hf : ∀ h t v, t.get? (Keys.receipt h.bytes) = .ok v →
      (f h).run t = .ok ((), if v.isNone then t.delete (Keys.transaction h.bytes) else t)) :
    ∀ (hashes : List Digest) (t : Txn), (∀ k, ∃ v, t.get? k = .ok v) →
      ∃ t', (hashes.forM f).run t = .ok ((), t') ∧ Forgets t.get? t'.get? hashes := by
  intro hashes
  induction hashes with
  | nil =>
    intro t _
    exact ⟨t, rfl, fun k => ⟨fun ⟨_, hh, _⟩ => absurd hh List.not_mem_nil, fun _ => rfl⟩⟩
  | cons h rest ih =>
    intro t hread
    obtain ⟨v, hv⟩ := hread (Keys.receipt h.bytes)
    -- the transaction after the first round
    set t₁ := if v.isNone then t.delete (Keys.transaction h.bytes) else t with ht₁
    have hget₁ : ∀ k, t₁.get? k = if v = none ∧ k = Keys.transaction h.bytes then .ok none else t.get? k := by
      intro k
      cases v with
      | none => simp [ht₁, Txn.get?_delete]
      | some _ => simp [ht₁]
    have hreceipt : ∀ d : Digest, t₁.get? (Keys.receipt d.bytes) = t.get? (Keys.receipt d.bytes) := by
      intro d
      rw [hget₁, if_neg fun hk => Keys.transaction_ne_receipt _ d hk.2.symm]
    have hread₁ : ∀ k, ∃ v, t₁.get? k = .ok v := by
      intro k
      rw [hget₁]
      split
      · exact ⟨none, rfl⟩
      · exact hread k
    obtain ⟨t', hrun, hforget⟩ := ih t₁ hread₁
    have hunc : ∀ k, Unconfirmed t₁.get? rest k ↔ Unconfirmed t.get? rest k := by
      intro k
      simp only [Unconfirmed, hreceipt]
    refine ⟨t', ?_, fun k => ⟨fun hk => ?_, fun hk => ?_⟩⟩
    · show ((f h >>= fun _ => rest.forM f).run t) = _
      rw [StateT.run_bind, hf h t v hv]
      exact hrun
    · -- the record is forgotten in the first round or in a later one
      by_cases hlater : Unconfirmed t.get? rest k
      · exact (hforget k).1 ((hunc k).mpr hlater)
      · obtain ⟨d, hd, rfl, hnone⟩ := hk
        rcases List.mem_cons.mp hd with rfl | hd
        · have hvnone : v = none := Except.ok.inj (hv.symm.trans hnone)
          rw [(hforget _).2 fun hu => hlater ((hunc _).mp hu), hget₁, if_pos ⟨hvnone, rfl⟩]
        · exact absurd ⟨d, hd, rfl, hnone⟩ hlater
    · have hrest : ¬ Unconfirmed t.get? rest k := fun ⟨d, hd, hkd, hnone⟩ => hk ⟨d, List.mem_cons_of_mem h hd, hkd, hnone⟩
      rw [(hforget k).2 fun hu => hrest ((hunc k).mp hu), hget₁, if_neg]
      rintro ⟨rfl, rfl⟩
      exact hk ⟨h, List.mem_cons_self, rfl, hv⟩

/-- Forgetting over a store that keeps the contract deletes the record of
every hash that has no receipt and keeps every other entry, unless the store
fails to commit the deletions: then it is left as it was. -/
theorem forget_faithful {s : Store} {m : KvMap} (hs : s.Faithful m) (hashes : List Digest) :
    Forgets s.get? (forget s hashes).get? hashes ∨ (forget s hashes = s ∧ ∃ b e, s.commit b = .error e) := by
  unfold forget
  split
  · rename_i hempty
    rw [List.isEmpty_iff.mp hempty]
    exact .inl fun k => ⟨fun ⟨_, hh, _⟩ => absurd hh List.not_mem_nil, fun _ => rfl⟩
  · dsimp only
    -- a faithful store answers every read, so the pass runs to its end
    obtain ⟨t', hrun, hforget⟩ := forget_pass (fun h _ _ hv => forget_round_run h hv) hashes
      ⟨s, []⟩ fun k => ⟨_, hs.get? k⟩
    have hwrites := Txn.WritesWithin.forM (fun h _ _ => forget_round h) hashes _ hrun
    have hread : t'.get? = fun k => .ok ((t'.view m).get? k) := by
      funext k
      exact Txn.get?_eq (hwrites.base ▸ hs.shows) (hwrites.nodup List.nodup_nil) k
    rw [Store.update_eq, hrun]
    dsimp only
    by_cases hempty : t'.batch.isEmpty
    · -- nothing was deleted: the store reads as the pass did
      rw [if_pos hempty]
      dsimp only
      refine .inl fun k => ?_
      have hsame : s.get? k = t'.get? k := by
        rw [hread, Txn.view, List.isEmpty_iff.mp hempty, KvMap.applyBatch_nil]
        exact hs.get? k
      have hk := hforget k
      rw [← hsame] at hk
      exact hk
    · rw [if_neg hempty]
      cases hc : s.commit t'.batch with
      | error e => exact .inr ⟨rfl, t'.batch, e, hc⟩
      | ok s' =>
        -- the committed store reads as the pass's transaction
        refine .inl fun k => ?_
        have hsame : s'.get? k = t'.get? k := by
          rw [hread, (hs.commit hc).get? k]
          rfl
        dsimp only [Except.map]
        rw [hsame]
        exact hforget k

/-- The outcomes of reconciling the pool `p` over the store `s` with the block
`b`.  Either the pending transactions outside the block are sifted over the
canonical accounts of `s`: the pool holds the kept ones, in order, and its
invariant again; the report counts the block's distinct hashes, those that
were pending and the evictions; and the evicted records are forgotten.  Or,
sifting them, the transfer of one panics on the overlay of those kept before
it, and the pool is left with no order and the store as it was. -/
inductive Reconciled (p : Pool) (s : Store) (b : Block) : Result ReconcileReport × Pool × Store → Prop
  | sifted {report : ReconcileReport} {p' : Pool} {kept evicted : List SignedTx} {o : Overlay}
      (sift : Sieve s.account {} (p.transactions.filter fun t => t.hash ∉ b.transactions.map SignedTx.hash)
        kept evicted o)
      (pending : p'.transactions = kept) (order : p'.order = kept.map SignedTx.hash)
      (consistent : p'.Consistent s.account)
      (removed : report.removed = ((b.transactions.map SignedTx.hash).toFinset.filter fun h => p.contains h = true).card)
      (counted : report.removed + report.missing = (b.transactions.map SignedTx.hash).toFinset.card)
      (evictedCount : report.evicted = evicted.length) :
      Reconciled p s b (.ok report, p', forget s (evicted.map SignedTx.hash))
  | panicked {e : LedgerError} {p' : Pool} {pre rest kept evicted : List SignedTx} {t : SignedTx}
      {o : Overlay} (sift : Sieve s.account {} pre kept evicted o)
      (split : p.transactions.filter (fun t => t.hash ∉ b.transactions.map SignedTx.hash) = pre ++ t :: rest)
      (fails : t.tx.transfer (o.lookup s.account) = .error e) (panic : e.isPanic = true)
      (order : p'.order = []) :
      Reconciled p s b (.error e, p', s)

/-- Reconciling a pool whose bookkeeping is sound has one of the outcomes of
`Reconciled`. -/
theorem reconcile_reconciled {p : Pool} (hp : p.Sound) (s : Store) (b : Block) :
    Reconciled p s b (p.reconcile s b) := by
  have hkey : ∀ e ∈ p.entries, e.2.tx.hash = e.1 := fun e he => (hp.valid e he).1
  unfold reconcile
  dsimp only
  split
  · rename_i r hr
    have hkey₀ : ∀ e ∈ p.entries.filter (fun e => !(b.transactions.map SignedTx.hash).eraseDups.contains e.1),
        e.2.tx.hash = e.1 := fun e he => hkey e (List.mem_filter.mp he).1
    obtain ⟨kept, evicted, hsieve, hkept, hev⟩ := replay_ok hkey₀ _ {} r hr
    have hk : r.kept = (kept.map SignedTx.hash).reverse := hkept.trans (List.append_nil _)
    have hv : r.evicted = (evicted.map SignedTx.hash).reverse := hev.trans (List.append_nil _)
    obtain ⟨htxs, hcons⟩ := sifted_pool hp hsieve
    have hsift := hsieve
    rw [pending_outside hkey] at hsift
    rw [hk, hv]
    simp only [List.reverse_reverse, List.length_reverse, List.length_map]
    refine .sifted hsift htxs rfl hcons (length_filter_eraseDups _ _) ?_ rfl
    -- the block's pending hashes and the others make up its distinct hashes
    have hle := List.length_filter_le p.contains (b.transactions.map SignedTx.hash).eraseDups
    have hlen := length_eraseDups (b.transactions.map SignedTx.hash)
    dsimp only
    omega
  · rename_i err r hr
    obtain ⟨pre, t, rest, kept, evicted, hsplit, hsieve, hfails, hpanic⟩ := replay_error _ _ hr
    rw [pending_outside hkey] at hsplit
    exact .panicked hsieve hsplit hfails hpanic rfl

/-- A replay that panics ends the reconciliation with the order emptied, the
entries outside the block that it did not evict, its overlay, and the store
as it was. -/
theorem reconcile_of_replay_error {p : Pool} {s : Store} {b : Block} {err : LedgerError} {r : Replay}
    (h : replay s.account (p.entries.filter fun e => !(b.transactions.map SignedTx.hash).eraseDups.contains e.1)
      (p.order.filter fun h => !(b.transactions.map SignedTx.hash).eraseDups.contains h) {} = .error (err, r)) :
    p.reconcile s b = (.error err, ⟨[], (p.entries.filter fun e =>
      !(b.transactions.map SignedTx.hash).eraseDups.contains e.1).filter fun e => !r.evicted.contains e.1,
      r.shadows⟩, s) := by
  unfold reconcile
  dsimp only
  rw [h]

/-! ## Admission: the order and the accounts -/

/-- An admission that goes through appends the hash to the order, unless it
was pending already. -/
theorem accept_order {p p' : Pool} {s s' : Store} {tx : SignedTx} {r : Receipt}
    (h : p.accept s tx = .ok (r, p', s')) :
    p'.order = if p.contains tx.hash then p.order else p.order ++ [tx.hash] := by
  obtain ⟨-, ⟨e, hfind, -, rfl, -⟩ | ⟨hnone, q, -, -, rfl⟩⟩ := accept_ok h
  · simp [contains, hfind]
  · simp [contains, hnone]

/-- An admission leaves the canonical accounts as they were. -/
theorem accept_account {p p' : Pool} {s s' : Store} {tx : SignedTx} {r : Receipt} {m : KvMap}
    (h : p.accept s tx = .ok (r, p', s')) (hm : s.Faithful m) (a : Address) : s'.account a = s.account a :=
  ((accept_changesWithin h).agree hm fun _ hk => hk ▸ Keys.not_consensus_transaction _).account a

/-! ## The invariant -/

/-- **The pool's invariant.**  From a pool whose bookkeeping is sound,
reconciling with any block sifts the pending transactions outside it over the
canonical accounts and restores the invariant, or stops where a transfer
panics with the order emptied; forgetting over a store that keeps the store
contract deletes the records with no receipt and nothing else, unless the
store fails a commit and is left as it was; while the canonical accounts stay,
an admission keeps the invariant, appends a new hash to the order and leaves
the canonical accounts as they were; and a transaction already pending is
answered with its earlier preview once it validates. -/
theorem pending_overlay_invariant {p : Pool} (hp : p.Sound) (s : Store) :
    (∀ b, Reconciled p s b (p.reconcile s b)) ∧
    (∀ m, s.Faithful m → ∀ hashes, Forgets s.get? (forget s hashes).get? hashes ∨
      (forget s hashes = s ∧ ∃ b e, s.commit b = .error e)) ∧
    (p.Consistent s.account → ∀ tx r p' s', p.accept s tx = .ok (r, p', s') →
      p'.Consistent s.account ∧ p'.order = (if p.contains tx.hash then p.order else p.order ++ [tx.hash]) ∧
        ∀ m, s.Faithful m → ∀ a, s'.account a = s.account a) ∧
    (∀ tx e, p.find? tx.hash = some e → p.accept s tx = tx.validate.map fun _ => (e.preview, p, s)) :=
  ⟨reconcile_reconciled hp s, fun _ hm => forget_faithful hm,
    fun hc _ _ _ _ h => ⟨hc.accept h, accept_order h, fun _ hm => accept_account h hm⟩,
    fun _ _ => accept_of_pending p s⟩

/-- The kernel's admission of `toppedTransfer` into the empty pool over the
empty store: the transfer validates, and its sender's first nonce fits. -/
theorem accept_toppedTransfer_check :
    (Pool.accept {} {} Ledger.toppedTransfer).toOption.isSome = true := by
  decide +kernel

/-- The empty pool admits `toppedTransfer` over the empty store: it becomes
the one pending transaction, with sound bookkeeping. -/
theorem admits_toppedTransfer :
    ∃ r p s, Pool.accept {} {} Ledger.toppedTransfer = .ok (r, p, s) ∧ p.Sound ∧
      p.order = [Ledger.toppedTransfer.hash] ∧ p.transactions = [Ledger.toppedTransfer] := by
  have hcheck := accept_toppedTransfer_check
  cases h : Pool.accept {} {} Ledger.toppedTransfer with
  | error e =>
    rw [h] at hcheck
    cases hcheck
  | ok res =>
  obtain ⟨r, p, s⟩ := res
  have hsound := ((consistent_empty ({} : Store).account).accept h).sound
  obtain ⟨-, ⟨e, hfind, -⟩ | ⟨-, q, -, -, rfl⟩⟩ := accept_ok h
  · cases hfind
  refine ⟨r, _, s, rfl, hsound, rfl, ?_⟩
  simp [transactions, get?, find?]

/-- The pool that admits `toppedTransfer` over the empty store holds one
pending transfer; its bookkeeping is sound, and the invariant's laws hold of
it over the store the admission left, which keeps the contract. -/
theorem pending_overlay_invariant_admitted :
    ∃ r p₁ s₁ m₁, Pool.accept {} {} Ledger.toppedTransfer = .ok (r, p₁, s₁) ∧
      p₁.order = [Ledger.toppedTransfer.hash] ∧ p₁.Sound ∧ p₁.Consistent s₁.account ∧ s₁.Faithful m₁ ∧
      (∀ b, Reconciled p₁ s₁ b (p₁.reconcile s₁ b)) ∧
      (∀ m, s₁.Faithful m → ∀ hashes, Forgets s₁.get? (forget s₁ hashes).get? hashes ∨
        (forget s₁ hashes = s₁ ∧ ∃ b e, s₁.commit b = .error e)) ∧
      (p₁.Consistent s₁.account → ∀ tx r p' s', p₁.accept s₁ tx = .ok (r, p', s') →
        p'.Consistent s₁.account ∧
          p'.order = (if p₁.contains tx.hash then p₁.order else p₁.order ++ [tx.hash]) ∧
          ∀ m, s₁.Faithful m → ∀ a, s'.account a = s₁.account a) ∧
      (∀ tx e, p₁.find? tx.hash = some e → p₁.accept s₁ tx = tx.validate.map fun _ => (e.preview, p₁, s₁)) := by
  obtain ⟨r, p₁, s₁, h, hsound, horder, -⟩ := admits_toppedTransfer
  have hc₁ := (consistent_empty ({} : Store).account).accept h
  -- the admission wrote the transaction's record alone: the accounts are the empty store's
  have haccounts : s₁.account = ({} : Store).account := funext (accept_account h Store.faithful_empty)
  obtain ⟨-, ⟨e, hfind, -⟩ | ⟨-, q, -, hupdate, -⟩⟩ := accept_ok h
  · cases hfind
  obtain ⟨t, -, hfaithful⟩ := Store.faithful_empty.update hupdate
  exact ⟨r, p₁, s₁, _, h, horder, hsound, haccounts ▸ hc₁, hfaithful, pending_overlay_invariant hsound s₁⟩

/-! ## A pending transfer that panics -/

/-- Writing an account's record into a store in memory gives that account,
and leaves every other account as it was. -/
theorem account_memory_insert (m : KvMap) (a x : Address) (acct : Account) :
    Store.account ⟨.memory (m.insert (Keys.balance a.encode) acct.toWire)⟩ x =
      if x = a then .ok acct else Store.account ⟨.memory m⟩ x := by
  unfold Store.account
  rw [Txn.account_eq, Txn.account_eq, Txn.get?_eq_lookup, Txn.get?_eq_lookup]
  simp only [Batch.lookup_nil]
  have hget : ∀ (m' : KvMap) k, Store.get? ⟨.memory m'⟩ k = .ok (m'.get? k) := fun _ _ => rfl
  rw [hget, hget, KvMap.get?_insert]
  by_cases hx : x = a
  · subst hx
    simp [Account.decodeRecord_toWire]
  · rw [if_neg fun h => hx (Keys.balance_inj h), if_neg hx]

/-- A transfer of nothing, with nonce 1, into an account whose nonce is at
its cap. -/
def cappedTransfer : SignedTx :=
  ⟨⟨⟨Bytes.replicate 20 1, Array.size_replicate⟩,
    ⟨Bytes.replicate 20 2, Array.size_replicate⟩, 1, 0, 0, 0, ByteArray.empty, 0⟩,
    ByteArray.empty⟩

/-- A store in memory whose one account, the recipient's, has its nonce at
the cap. -/
def cappedStore : Store :=
  ⟨.memory (({} : KvMap).insert (Keys.balance cappedTransfer.tx.recipient.encode)
    (Account.toWire ⟨0, 18446744073709551615⟩))⟩

/-- The pool holding `cappedTransfer` under one key, in order. -/
def cappedPool : Pool :=
  ⟨[Digest.zero], [(Digest.zero, ⟨cappedTransfer, ⟨Address.zero, 0, Digest.zero, Digest.zero, 0, 0, 0⟩⟩)], {}⟩

/-- A block with no transactions. -/
def emptyBlock : Block :=
  ⟨⟨Digest.zero, Digest.zero, 0, 0, Digest.zero, Digest.zero, Digest.zero, 0, Address.zero, 0⟩, []⟩

theorem cappedTransfer_panics :
    cappedTransfer.tx.transfer cappedStore.account = .error (.arithmeticOverflow "add") := by
  have hsender : cappedStore.account cappedTransfer.tx.sender = .ok {} := by
    rw [cappedStore, account_memory_insert, if_neg (by decide)]
    rfl
  have hrecipient : cappedStore.account cappedTransfer.tx.recipient = .ok ⟨0, 18446744073709551615⟩ := by
    rw [cappedStore, account_memory_insert, if_pos rfl]
  unfold Transaction.transfer
  simp only [hsender, hrecipient]
  rfl

/-- Reconciling a pool whose order and entries agree does not always keep
them agreeing: a pending transfer into an account whose nonce is at its cap
panics, and the order is emptied while the entry stays. -/
theorem reconcile_panic_empties_order :
    (cappedPool.entries.map (·.1)).Perm cappedPool.order ∧
      (cappedPool.reconcile cappedStore emptyBlock).1 = .error (.arithmeticOverflow "add") ∧
      ¬ ((cappedPool.reconcile cappedStore emptyBlock).2.1.entries.map (·.1)).Perm
        (cappedPool.reconcile cappedStore emptyBlock).2.1.order := by
  have hfind : (cappedPool.entries.find? (·.1 == Digest.zero)).map (·.2) =
      some ⟨cappedTransfer, ⟨Address.zero, 0, Digest.zero, Digest.zero, 0, 0, 0⟩⟩ := rfl
  -- the block takes nothing out, so the replay runs over the whole pool
  have hentries : cappedPool.entries.filter
      (fun e => !(emptyBlock.transactions.map SignedTx.hash).eraseDups.contains e.1) = cappedPool.entries := rfl
  have horder : cappedPool.order.filter
      (fun h => !(emptyBlock.transactions.map SignedTx.hash).eraseDups.contains h) = [Digest.zero] := rfl
  have hreplay : replay cappedStore.account cappedPool.entries [Digest.zero] {} =
      .error (.arithmeticOverflow "add", {}) :=
    replay_cons_panic hfind cappedTransfer_panics rfl
  rw [reconcile_of_replay_error (by rw [hentries, horder]; exact hreplay)]
  refine ⟨List.Perm.refl _, rfl, fun hperm => ?_⟩
  have hlen := hperm.length_eq
  simp [cappedPool, emptyBlock] at hlen

end Pool
end PowChain
