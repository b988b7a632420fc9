import PowChain.Proofs.Chain.Ledger
import PowChain.Proofs.Ledger.Determinism
import PowChain.Sync.Engine

/-!
# Consensus rests on consensus records alone

The records of blocks, under their raw 32-byte hash, the tip, the length,
the genesis document, the balances and the receipts are the consensus records
(`Keys.Consensus`).  An append reads and writes consensus records only, and
reads its block cache only where the cache agrees with the store; the pending
pool writes only transaction records and the peer set only peer records.  So
two nodes started from chains that agree, fed the same blocks, whatever their
pools and peer sets do in between, answer every append alike and keep the
same consensus records.

* `Store.ChangesWithin` — a store changed within a set of keys, staying in
  memory if it was;
* `Pool.accept_changesWithin`, `Pool.reconcile_changesWithin`,
  `PeerSet.insert_changesWithin`, `PeerSet.remove_changesWithin` — what the
  pool and the peer set write;
* `Chain.Agree` — two chains with one tip, one genesis record and the same
  consensus records, whatever their caches; `Chain.Ready` — well formed over
  a store in memory;
* `Chain.Agree.append` — appending one block to two ready chains that agree
  answers alike and leaves them agreeing;
* `InStep.runOps` — two nodes in step, given the same blocks among any other
  operations, answer alike and stay in step.
-/

namespace PowChain

/-! ## Consensus records -/

namespace Keys

/-- The records consensus rests on: blocks, under their 32-byte hash, the
tip, the length, the genesis document, the balances and the receipts. -/
def Consensus (k : ByteArray) : Prop :=
  k.size = 32 ∨ k = tip ∨ k = chainLength ∨ k = genesis ∨ (∃ a : Address, k = balance a.encode) ∨
    ∃ d : Digest, k = receipt d.bytes

theorem consensus_block (d : Digest) : Consensus (block d.bytes) := .inl d.size_eq

theorem consensus_tip : Consensus tip := .inr (.inl rfl)

theorem consensus_chainLength : Consensus chainLength := .inr (.inr (.inl rfl))

theorem consensus_genesis : Consensus genesis := .inr (.inr (.inr (.inl rfl)))

theorem consensus_balance (a : Address) : Consensus (balance a.encode) :=
  .inr (.inr (.inr (.inr (.inl ⟨a, rfl⟩))))

theorem size_transaction (d : Digest) : (transaction d.bytes).size = 35 := by
  have hp : txPrefix.size = 3 := by decide
  simp [transaction, ByteArray.size_append, hp, d.size_eq]

/-- The record of a transaction is no consensus record. -/
theorem not_consensus_transaction (d : Digest) : ¬ Consensus (transaction d.bytes) := by
  have hsize := size_transaction d
  rintro (h | h | h | h | ⟨a, h⟩ | ⟨d', h⟩)
  · omega
  · rw [h, size_tip] at hsize
    cases hsize
  · rw [h, size_chainLength] at hsize
    cases hsize
  · rw [h, size_genesis] at hsize
    cases hsize
  · exact transaction_ne_balance _ a h
  · exact transaction_ne_receipt _ d' h

theorem peer_ne_balance (addr : String) (a : Address) : peer addr ≠ balance a.encode := by
  intro heq
  have hhead := congrArg (fun k : ByteArray => k.toList.head?) heq
  simp only [peer, balance] at hhead
  rw [head?_append (by decide), head?_append (by decide)] at hhead
  exact absurd hhead (by decide +kernel)

theorem peer_ne_receipt (addr : String) (d : Digest) : peer addr ≠ receipt d.bytes := by
  intro heq
  have hhead := congrArg (fun k : ByteArray => k.toList.head?) heq
  simp only [peer, receipt] at hhead
  rw [head?_append (by decide), head?_append (by decide)] at hhead
  exact absurd hhead (by decide +kernel)

/-- The record of a peer is no consensus record, as long as its key is not
as long as a block hash. -/
theorem not_consensus_peer {addr : String} (h32 : (peer addr).size ≠ 32) : ¬ Consensus (peer addr) := by
  have hsize : 6 ≤ (peer addr).size := by
    have hp : peersPrefix.size = 6 := by decide
    simp [peer, ByteArray.size_append, hp]
  rintro (h | h | h | h | ⟨a, h⟩ | ⟨d, h⟩)
  · exact h32 h
  · rw [h, size_tip] at hsize
    omega
  · rw [h, size_chainLength] at hsize
    omega
  · rw [h, size_genesis] at hsize
    omega
  · exact peer_ne_balance addr a h
  · exact peer_ne_receipt addr d h

end Keys

/-! ## Stores in memory -/

theorem KvMap.get?_foldl_write_congr {m₁ m₂ : KvMap} {k : ByteArray} (h : m₁.get? k = m₂.get? k)
    (l : Batch) : (l.foldl KvMap.write m₁).get? k = (l.foldl KvMap.write m₂).get? k := by
  induction l generalizing m₁ m₂ with
  | nil => exact h
  | cons e l ih =>
    apply ih
    rw [KvMap.get?_write, KvMap.get?_write, h]

/-- A batch applied to two maps that agree at a key leaves them agreeing
there, whatever it writes. -/
theorem KvMap.get?_applyBatch_congr {m₁ m₂ : KvMap} {k : ByteArray} (h : m₁.get? k = m₂.get? k)
    (b : Batch) : (m₁.applyBatch b).get? k = (m₂.applyBatch b).get? k :=
  KvMap.get?_foldl_write_congr h _

namespace Store

/-- The store keeps its entries in memory. -/
def InMemory (s : Store) : Prop := ∃ m, s = ⟨.memory m⟩

/-- A store in memory commits whatever its transaction wrote. -/
theorem update_memory {α : Type} (m : KvMap) (f : TxnM α) :
    Store.update ⟨.memory m⟩ f =
      (f.run ⟨⟨.memory m⟩, []⟩).map fun p => (p.1, ⟨.memory (m.applyBatch p.2.batch)⟩) := by
  rw [update_eq]
  cases f.run ⟨⟨.memory m⟩, []⟩ with
  | error e => rfl
  | ok p =>
    obtain ⟨a, t⟩ := p
    dsimp only
    by_cases hb : t.batch.isEmpty
    · rw [if_pos hb]
      show Except.ok (a, _) = .ok (a, (⟨.memory (m.applyBatch t.batch)⟩ : Store))
      rw [List.isEmpty_iff.mp hb, KvMap.applyBatch_nil]
    · rw [if_neg hb, commit_memory]
      rfl

theorem InMemory.update {α : Type} {s s' : Store} (hs : s.InMemory) {f : TxnM α} {a : α}
    (h : s.update f = .ok (a, s')) : s'.InMemory := by
  obtain ⟨m, rfl⟩ := hs
  rw [update_memory] at h
  cases hf : f.run ⟨⟨.memory m⟩, []⟩ with
  | error e =>
    rw [hf] at h
    cases h
  | ok p =>
    rw [hf] at h
    cases h
    exact ⟨_, rfl⟩

theorem InMemory.commit {s s' : Store} (hs : s.InMemory) {b : Batch} (h : s.commit b = .ok s') :
    s'.InMemory := by
  obtain ⟨m, rfl⟩ := hs
  rw [Store.commit_memory] at h
  cases h
  exact ⟨_, rfl⟩

/-- Two stores that hold the same consensus records. -/
def Agree (s₁ s₂ : Store) : Prop := ∀ k, Keys.Consensus k → s₁.get? k = s₂.get? k

namespace Agree

variable {s₁ s₂ s₃ : Store}

theorem symm (h : s₁.Agree s₂) : s₂.Agree s₁ := fun k hk => (h k hk).symm

theorem trans (h₁ : s₁.Agree s₂) (h₂ : s₂.Agree s₃) : s₁.Agree s₃ := fun k hk => (h₁ k hk).trans (h₂ k hk)

theorem get? {m₁ m₂ : KvMap} (h : s₁.Agree s₂) (hm₁ : s₁.Faithful m₁) (hm₂ : s₂.Faithful m₂)
    {k : ByteArray} (hk : Keys.Consensus k) : m₁.get? k = m₂.get? k := by
  have hget := h k hk
  rw [hm₁.get?, hm₂.get?] at hget
  exact Except.ok.inj hget

/-- Balances are consensus records: two stores that agree read every account
alike. -/
theorem account (h : s₁.Agree s₂) (a : Address) : s₁.account a = s₂.account a := by
  unfold Store.account
  rw [Txn.account_eq, Txn.account_eq, Txn.get?_eq_lookup, Txn.get?_eq_lookup]
  simp only [Batch.lookup_nil]
  rw [h _ (Keys.consensus_balance a)]

end Agree

/-- `s'` is `s` changed at keys in `K` alone: a store in memory stays in
memory, and over any map `s` shows, `s'` shows one that agrees with it
outside `K`. -/
structure ChangesWithin (s s' : Store) (K : ByteArray → Prop) : Prop where
  inMemory : s.InMemory → s'.InMemory
  shows : ∀ m, s.Faithful m → ∃ m', s'.Faithful m' ∧ ∀ k, ¬ K k → m'.get? k = m.get? k

namespace ChangesWithin

variable {s s' : Store} {K L : ByteArray → Prop}

theorem refl (s : Store) (K : ByteArray → Prop) : s.ChangesWithin s K :=
  ⟨id, fun m hm => ⟨m, hm, fun _ _ => rfl⟩⟩

theorem mono (h : s.ChangesWithin s' K) (hKL : ∀ k, K k → L k) : s.ChangesWithin s' L :=
  ⟨h.inMemory, fun m hm =>
    let ⟨m', hm', hk⟩ := h.shows m hm
    ⟨m', hm', fun k hL => hk k fun hK => hL (hKL k hK)⟩⟩

/-- A transaction that writes within `K` changes the store within `K`. -/
theorem of_update {α : Type} {f : TxnM α} {a : α} (h : s.update f = .ok (a, s'))
    (hw : ∀ t, f.run ⟨s, []⟩ = .ok (a, t) → (⟨s, []⟩ : Txn).WritesWithin t K) : s.ChangesWithin s' K := by
  refine ⟨fun hs => hs.update h, fun m hm => ?_⟩
  obtain ⟨t, hrun, hfaithful⟩ := hm.update h
  refine ⟨_, hfaithful, fun k hk => ?_⟩
  rw [(hw t hrun).view_get? List.nodup_nil m hk]
  simp [Txn.view]

/-- Writing or deleting one key changes the store at that key alone. -/
theorem of_commit_single {k : ByteArray} {op : Option ByteArray} (h : s.commit [(k, op)] = .ok s') :
    s.ChangesWithin s' (· = k) := by
  refine ⟨fun hs => hs.commit h, fun m hm => ⟨_, hm.commit h, fun k' hk' => ?_⟩⟩
  rw [KvMap.get?_applyBatch m (by simp [Batch.KeysNodup])]
  simp only [Batch.lookup_cons, Batch.lookup_nil]
  rw [if_neg (Ne.symm hk')]

/-- A change that spares the consensus records keeps them. -/
theorem agree {m : KvMap} (h : s.ChangesWithin s' K) (hm : s.Faithful m)
    (hK : ∀ k, K k → ¬ Keys.Consensus k) : s'.Agree s := by
  intro k hk
  obtain ⟨m', hm', hkeep⟩ := h.shows m hm
  rw [hm'.get?, hm.get?, hkeep k fun hKk => hK k hKk hk]

end ChangesWithin

end Store

theorem TxnM.get?_run (k : ByteArray) (t : Txn) : (TxnM.get? k).run t = (t.get? k).map (·, t) := by
  simp only [TxnM.get?, StateT.run_bind, StateT.run_get, liftM, monadLift, MonadLift.monadLift,
    StateT.run_lift, pure_bind]
  cases t.get? k <;> rfl

namespace Txn.WritesWithin

variable {t : Txn} {K : ByteArray → Prop}

theorem delete (t : Txn) {k : ByteArray} (hk : K k) : WritesWithin t (t.delete k) K := by
  refine ⟨rfl, fun hb => ?_, fun k' hk' => ?_⟩
  · simp only [Txn.delete, Batch.KeysNodup, List.map_cons, List.nodup_cons]
    constructor
    · simp
    · exact hb.sublist ((List.filter_sublist).map _)
  · have hne : k' ≠ k := fun h => hk' (h ▸ hk)
    simp only [Txn.delete, Batch.lookup_cons]
    rw [if_neg (Ne.symm hne), Batch.lookup_filter_ne _ hne]

/-- A run over a list, each round writing within `K`, writes within `K`. -/
theorem forM {α : Type} {f : α → TxnM Unit}
    (hf : ∀ x t t', (f x).run t = .ok (⟨⟩, t') → WritesWithin t t' K) :
    ∀ (l : List α) (t : Txn) {p : Unit × Txn}, (l.forM f).run t = .ok p → WritesWithin t p.2 K := by
  intro l
  induction l with
  | nil =>
    intro t p h
    cases h
    exact refl t K
  | cons x l ih =>
    intro t p h
    replace h : ((f x >>= fun _ => l.forM f).run t) = .ok p := h
    rw [StateT.run_bind] at h
    obtain ⟨⟨⟨⟩, t₁⟩, hx, h⟩ := Except.bind_eq_ok.mp h
    exact (hf x t t₁ hx).trans (ih t₁ h)

end Txn.WritesWithin

/-! ## What the pool and the peer set write -/

namespace Pool

/-- The store after an admission is the store before, or the store with the
transaction's record written. -/
theorem accept_store {p p' : Pool} {s s' : Store} {tx : SignedTx} {r : Receipt}
    (h : p.accept s tx = .ok (r, p', s')) :
    s' = s ∨ s.update (TxnM.set (Keys.transaction tx.hash.bytes) tx.toWire) = .ok ((), s') := by
  unfold accept at h
  cases hv : tx.validate with
  | error e => rw [hv] at h; cases h
  | ok u =>
    rw [hv] at h
    simp only [bind, Except.bind] at h
    split at h
    · -- already pending: nothing is written
      cases h
      exact .inl rfl
    · split at h
      · cases h
      · split at h
        · cases h
        · split at h
          · cases h
          · rename_i v₁ hupd
            split at h
            · cases h
            · cases h
              exact .inr hupd

/-- Admitting a transaction writes its record alone. -/
theorem accept_changesWithin {p p' : Pool} {s s' : Store} {tx : SignedTx} {r : Receipt}
    (h : p.accept s tx = .ok (r, p', s')) : s.ChangesWithin s' (· = Keys.transaction tx.hash.bytes) := by
  rcases accept_store h with heq | hupd
  · rw [heq]
    exact .refl s _
  · exact .of_update hupd fun t hrun => by
      cases hrun
      dsimp only
      exact .set _ (by rfl) _

/-- One round of forgetting deletes a transaction record or nothing. -/
theorem forget_round (h : Digest) {t t' : Txn}
    (hx : (do if (← TxnM.get? (Keys.receipt h.bytes)).isNone then TxnM.delete (Keys.transaction h.bytes) :
      TxnM Unit).run t = .ok ((), t')) :
    t.WritesWithin t' fun k => ∃ d : Digest, k = Keys.transaction d.bytes := by
  rw [StateT.run_bind, TxnM.get?_run] at hx
  cases hg : t.get? (Keys.receipt h.bytes) with
  | error e => rw [hg] at hx; cases hx
  | ok v =>
    rw [hg] at hx
    cases v with
    | none =>
      cases hx
      exact .delete t ⟨h, rfl⟩
    | some v =>
      cases hx
      exact .refl t _

theorem forget_changesWithin (s : Store) (hashes : List Digest) :
    s.ChangesWithin (forget s hashes) fun k => ∃ d : Digest, k = Keys.transaction d.bytes := by
  unfold forget
  dsimp only
  split
  · exact .refl s _
  · split
    · rename_i s' hupd
      exact .of_update hupd fun t hrun =>
        Txn.WritesWithin.forM (fun h _ _ => forget_round h) hashes _ hrun
    · exact .refl s _

/-- Reconciling with a block deletes transaction records only. -/
theorem reconcile_changesWithin (p : Pool) (s : Store) (b : Block) :
    s.ChangesWithin (p.reconcile s b).2.2 fun k => ∃ d : Digest, k = Keys.transaction d.bytes := by
  unfold reconcile
  dsimp only
  split
  · exact forget_changesWithin s _
  · exact .refl s _

end Pool

namespace Net.PeerSet

/-- Adding a peer writes its record alone. -/
theorem insert_changesWithin (ps : PeerSet) (s : Store) (p : PeerNode) :
    s.ChangesWithin (ps.insert s p).2.2 (· = Keys.peer p.addr) := by
  unfold insert
  split
  · exact .refl s _
  · dsimp only
    split
    · rename_i s' hw
      split at hw
      · exact .of_commit_single hw
      · cases hw
        exact .refl s _
    · exact .refl s _

/-- Dropping a peer deletes its record alone. -/
theorem remove_changesWithin (ps : PeerSet) (s : Store) (addr : String) :
    s.ChangesWithin (ps.remove s addr).2.2 (· = Keys.peer addr) := by
  unfold remove
  split
  · exact .refl s _
  · dsimp only
    split
    · rename_i s' hw
      split at hw
      · exact .of_commit_single hw
      · cases hw
        exact .refl s _
    · exact .refl s _

end Net.PeerSet

/-! ## Running a block's commit on stores that agree -/

theorem Txn.alike_of_agree {s₁ s₂ : Store} (h : s₁.Agree s₂) : (⟨s₁, []⟩ : Txn).Alike ⟨s₂, []⟩ :=
  Txn.alike_of_account h.account

/-- Two stores in memory that agree, running one transaction that runs alike
on both, answer alike and agree again. -/
theorem RunAlike.update {α : Type} {s₁ s₂ : Store} (h₁ : s₁.InMemory) (h₂ : s₂.InMemory)
    (hs : s₁.Agree s₂) {f : TxnM α} (hf : RunAlike Txn.Alike (f.run ⟨s₁, []⟩) (f.run ⟨s₂, []⟩)) :
    RunAlike Store.Agree (s₁.update f) (s₂.update f) := by
  obtain ⟨m₁, rfl⟩ := h₁
  obtain ⟨m₂, rfl⟩ := h₂
  rw [Store.update_memory, Store.update_memory]
  revert hf
  generalize f.run ⟨⟨.memory m₁⟩, []⟩ = x₁
  generalize f.run ⟨⟨.memory m₂⟩, []⟩ = x₂
  rintro (⟨e⟩ | ⟨a, ht⟩)
  · exact .error e
  · refine .ok a fun k hk => ?_
    -- the one batch lands on maps that agree at every consensus key
    have hk' : m₁.get? k = m₂.get? k := Except.ok.inj (hs k hk)
    show Except.ok ((m₁.applyBatch _).get? k) = .ok ((m₂.applyBatch _).get? k)
    rw [ht.batch, KvMap.get?_applyBatch_congr hk']

namespace Chain

theorem commitBlock_alike (b : Block) (length : UInt64) {t₁ t₂ : Txn} (h : t₁.Alike t₂) :
    RunAlike Txn.Alike ((commitBlock b length).run t₁) ((commitBlock b length).run t₂) := by
  rw [commitBlock_run, commitBlock_run]
  have happ := Ledger.applyBlockIn_alike b h
  revert happ
  generalize (Ledger.applyBlockIn b).run t₁ = x₁
  generalize (Ledger.applyBlockIn b).run t₂ = x₂
  rintro (⟨e⟩ | ⟨applied, hu⟩)
  · exact .error e
  · exact RunAlike.map _ _ fun _ => ((hu.set _ _).set _ _).set _ _

/-! ## Chains that agree -/

/-- Two chains with one tip and one genesis record whose stores hold the same
consensus records; their caches may differ. -/
structure Agree (c₁ c₂ : Chain) : Prop where
  tip : c₁.tip = c₂.tip
  genesis : c₁.genesis = c₂.genesis
  store : c₁.store.Agree c₂.store

/-- A chain a node runs on: well formed, over a store in memory. -/
structure Ready (c : Chain) : Prop where
  inMemory : c.store.InMemory
  wellFormed : ∃ m blocks, WellFormed c m blocks

namespace Agree

variable {c₁ c₂ c₁' c₂' : Chain}

theorem symm (h : Agree c₁ c₂) : Agree c₂ c₁ := ⟨h.tip.symm, h.genesis.symm, h.store.symm⟩

theorem of_frame (h : Agree c₁ c₂) (h₁ : Frame c₁ c₁') (h₂ : Frame c₂ c₂') : Agree c₁' c₂' := by
  refine ⟨?_, ?_, ?_⟩
  · rw [h₁.tip, h₂.tip, h.tip]
  · rw [h₁.genesis, h₂.genesis, h.genesis]
  · rw [h₁.store, h₂.store]
    exact h.store

end Agree

/-- A sound cache holds stored blocks only, so a lookup answers as the store
does. -/
theorem containsBlock_eq {c : Chain} {m : KvMap} {blocks : List Block} (hw : WellFormed c m blocks)
    (h : Digest) : c.containsBlock h = .ok (m.get? (Keys.block h.bytes)).isSome := by
  unfold containsBlock
  split
  · rename_i hpeek
    obtain ⟨b, hb⟩ := Option.isSome_iff_exists.mp hpeek
    obtain ⟨hkey, bytes, hget, -⟩ := hw.cache _ (Lru.mem_of_peek hb)
    dsimp only at hkey
    rw [hkey, hget]
    rfl
  · exact hw.faithful.contains _

theorem Agree.containsBlock {c₁ c₂ : Chain} {m₁ m₂ : KvMap} {bl₁ bl₂ : List Block} (h : Agree c₁ c₂)
    (hw₁ : WellFormed c₁ m₁ bl₁) (hw₂ : WellFormed c₂ m₂ bl₂) (d : Digest) :
    c₁.containsBlock d = c₂.containsBlock d := by
  rw [containsBlock_eq hw₁, containsBlock_eq hw₂,
    h.store.get? hw₁.faithful hw₂.faithful (Keys.consensus_block d)]

theorem Stored.of_agree {m₁ m₂ : KvMap} {b : Block} (h : Stored m₁ b)
    (hk : m₂.get? (Keys.block b.hash.bytes) = m₁.get? (Keys.block b.hash.bytes)) : Stored m₂ b := by
  obtain ⟨bytes, hget, hdec⟩ := h
  exact ⟨bytes, hk.trans hget, hdec⟩

/-- Two ready chains that agree read one block at their tip, so the checks of
a block answer alike on both. -/
theorem Agree.checkNext {c₁ c₂ : Chain} {m₁ m₂ : KvMap} {bl₁ bl₂ : List Block} (h : Agree c₁ c₂)
    (hw₁ : WellFormed c₁ m₁ bl₁) (hw₂ : WellFormed c₂ m₂ bl₂) (b : Block) :
    ((checkNext b).run.run c₁).1 = ((checkNext b).run.run c₂).1 := by
  obtain ⟨p, rest, rfl, hp⟩ := hw₁.tip
  have hp₁ : Stored m₁ p := hw₁.stored p List.mem_cons_self
  have hp₂ : Stored m₂ p :=
    hp₁.of_agree (h.store.get? hw₁.faithful hw₂.faithful (Keys.consensus_block _)).symm
  obtain ⟨c₁', hget₁, -, -⟩ := getBlock_stored hw₁.faithful hw₁.cache hp₁
  obtain ⟨c₂', hget₂, -, -⟩ := getBlock_stored hw₂.faithful hw₂.cache hp₂
  have hdiff : c₂.difficulty = c₁.difficulty := by
    show c₂.genesis.difficulty.toNat = _
    rw [← h.genesis]
    rfl
  rw [hp] at hget₁
  rw [hp, h.tip] at hget₂
  rw [checkNext_run, checkNext_run, hget₁, hget₂, h.tip, hdiff]
  rcases validateNext c₂.tip b.header with e | ⟨⟩
  · rfl
  · rcases b.validateBody c₁.difficulty with e | ⟨⟩
    · rfl
    · dsimp only
      split <;> rfl

theorem Ready.checkNext {c : Chain} (h : Ready c) (b : Block) :
    Ready ((Chain.checkNext b).run.run c).2 ∧ Frame c ((Chain.checkNext b).run.run c).2 := by
  obtain ⟨m, blocks, hw⟩ := h.wellFormed
  obtain ⟨p, rest, rfl, hp⟩ := hw.tip
  have hframe := checkNext_frame b c
  have hrun : (Chain.checkNext b).run.run c = (((Chain.checkNext b).run.run c).1, ((Chain.checkNext b).run.run c).2) := rfl
  have hcache := (checkNext_stored hw.faithful hw.cache (hw.stored p List.mem_cons_self) hp hrun).1
  refine ⟨⟨hframe.store ▸ h.inMemory, m, _, hw.of_frame hframe hcache⟩, hframe⟩

/-- Every append keeps a ready chain ready. -/
theorem Ready.append {c : Chain} {b : Block} (h : Ready c) (hfits : b.transactions.length < 2 ^ 64) :
    Ready ((Chain.append b).run.run c).2 := by
  obtain ⟨m, blocks, hw⟩ := h.wellFormed
  have hrun : (Chain.append b).run.run c = (((Chain.append b).run.run c).1, ((Chain.append b).run.run c).2) := rfl
  refine ⟨?_, hw.append hfits hrun⟩
  rcases append_cases hrun with ⟨e, -, hstate⟩ | ⟨-, hc⟩ |
    ⟨c₁, length, receipts, store, -, hcheck, -, hupdate, -, hc⟩
  · rw [(append_error_frame hstate).store]
    exact h.inMemory
  · rw [hc]
    exact h.inMemory
  · have hframe := Frame.of_checkNext hcheck
    rw [hc]
    exact Store.InMemory.update (hframe.store ▸ h.inMemory) hupdate

/-- Appending one block to two ready chains that agree answers alike and
leaves them agreeing: an append reads the consensus records, and its cache
only where the cache answers as the store. -/
theorem Agree.append {c₁ c₂ : Chain} (h : Agree c₁ c₂) (h₁ : Ready c₁) (h₂ : Ready c₂) (b : Block) :
    ((Chain.append b).run.run c₁).1 = ((Chain.append b).run.run c₂).1 ∧
      Agree ((Chain.append b).run.run c₁).2 ((Chain.append b).run.run c₂).2 := by
  obtain ⟨m₁, bl₁, hw₁⟩ := h₁.wellFormed
  obtain ⟨m₂, bl₂, hw₂⟩ := h₂.wellFormed
  have hcheck := h.checkNext hw₁ hw₂ b
  obtain ⟨hready₁, hframe₁⟩ := h₁.checkNext b
  obtain ⟨hready₂, hframe₂⟩ := h₂.checkNext b
  rw [append_run, append_run, h.containsBlock hw₁ hw₂ b.hash]
  revert hcheck hready₁ hframe₁ hready₂ hframe₂
  generalize (Chain.checkNext b).run.run c₁ = x₁
  generalize (Chain.checkNext b).run.run c₂ = x₂
  rintro hcheck hready₁ hframe₁ hready₂ hframe₂
  obtain ⟨r₁, c₁'⟩ := x₁
  obtain ⟨r₂, c₂'⟩ := x₂
  dsimp only at hcheck hready₁ hframe₁ hready₂ hframe₂
  subst hcheck
  have h' : Agree c₁' c₂' := h.of_frame hframe₁ hframe₂
  rcases c₂.containsBlock b.hash with e | _ | _
  · exact ⟨rfl, h⟩
  · -- not known: checked, then committed
    dsimp only
    rcases r₁ with e | ⟨⟩
    · exact ⟨rfl, h'⟩
    · dsimp only
      rw [h'.tip]
      rcases addWord c₂'.tip.length 1 with e | length
      · exact ⟨rfl, h'⟩
      · dsimp only
        have hu := RunAlike.update hready₁.inMemory hready₂.inMemory h'.store
          (commitBlock_alike b length (Txn.alike_of_agree h'.store))
        revert hu
        generalize c₁'.store.update (commitBlock b length) = u₁
        generalize c₂'.store.update (commitBlock b length) = u₂
        rintro (⟨e⟩ | ⟨receipts, hs⟩)
        · exact ⟨rfl, h'⟩
        · exact ⟨rfl, rfl, h'.genesis, hs⟩
  · exact ⟨rfl, h⟩

/-! ## Changes outside the consensus records -/

/-- Changing a well-formed chain's store outside the consensus records keeps
it well formed. -/
theorem WellFormed.of_store {c : Chain} {m m' : KvMap} {blocks : List Block} (hw : WellFormed c m blocks)
    {s' : Store} (hs : s'.Faithful m') (hk : ∀ k, Keys.Consensus k → m'.get? k = m.get? k) :
    WellFormed { c with store := s' } m' blocks := by
  obtain ⟨-, htip, hlen, hlength, hhead, hl, hstored, hcache, g, hg, hdiff⟩ := hw
  refine ⟨hs, ?_, ?_, hlength, hhead, hl, fun b hb => (hstored b hb).of_agree (hk _ (Keys.consensus_block _)),
    fun e he => ?_, g, ?_, hdiff⟩
  · rw [hk _ Keys.consensus_tip, htip]
  · rw [hk _ Keys.consensus_chainLength, hlen]
  · obtain ⟨hkey, hst⟩ := hcache e he
    exact ⟨hkey, hst.of_agree (hk _ (Keys.consensus_block _))⟩
  · rw [hk _ Keys.consensus_genesis, hg]

variable {K : ByteArray → Prop} {s' : Store}

theorem Ready.of_store {c : Chain} (h : Ready c) (hs : c.store.ChangesWithin s' K)
    (hK : ∀ k, K k → ¬ Keys.Consensus k) : Ready { c with store := s' } := by
  obtain ⟨m, blocks, hw⟩ := h.wellFormed
  obtain ⟨m', hm', hkeep⟩ := hs.shows m hw.faithful
  exact ⟨hs.inMemory h.inMemory, m', blocks, hw.of_store hm' fun k hk => hkeep k fun hKk => hK k hKk hk⟩

theorem Agree.of_store {c₁ c₂ : Chain} (h : Agree c₁ c₂) (h₁ : Ready c₁) (hs : c₁.store.ChangesWithin s' K)
    (hK : ∀ k, K k → ¬ Keys.Consensus k) : Agree { c₁ with store := s' } c₂ := by
  obtain ⟨m, blocks, hw⟩ := h₁.wellFormed
  exact ⟨h.tip, h.genesis, (hs.agree hw.faithful hK).trans h.store⟩

/-- A chain bootstrapped in a store in memory keeps its store in memory. -/
theorem inMemory_bootstrap {s : Store} {g : Genesis} {c : Chain} (hs : s.InMemory)
    (h : bootstrap s g = .ok c) : c.store.InMemory := by
  unfold bootstrap at h
  rw [Except.bind_eq_ok] at h
  obtain ⟨initialized, -, h⟩ := h
  cases initialized with
  | true => cases h
  | false =>
  rw [if_neg Bool.false_ne_true, Except.bind_eq_ok] at h
  obtain ⟨block, -, h⟩ := h
  rw [Except.bind_eq_ok] at h
  obtain ⟨accounts, -, h⟩ := h
  rw [Except.bind_eq_ok] at h
  obtain ⟨⟨⟨⟩, store⟩, hupdate, h⟩ := h
  cases h
  exact hs.update hupdate

end Chain

/-! ## Nodes -/

/-- What a node is asked to do: append a block, or an operation of its
pending pool or of its peer set. -/
inductive NodeOp where
  | append (b : Block)
  | accept (tx : SignedTx)
  | reconcile (b : Block)
  | insertPeer (p : Net.PeerNode)
  | removePeer (addr : String)

namespace NodeOp

/-- The block an operation appends. -/
def block? : NodeOp → Option Block
  | .append b => some b
  | _ => none

/-- The address of the peer whose record an operation may write. -/
def peerAddr? : NodeOp → Option String
  | .insertPeer p => some p.addr
  | .removePeer addr => some addr
  | _ => none

/-- Carries out an operation on a node as the network does: an append
answers its outcome and keeps the chain it leaves; the pool and the peer set
keep the store they leave, except that a refused transaction leaves the node
as it was. -/
def run : NodeOp → Sync.Node → Option (Result AppendOutcome) × Sync.Node
  | .append b, n =>
    let after := (Chain.append b).run.run n.chain
    (some after.1, { n with chain := after.2 })
  | .accept tx, n =>
    match n.pool.accept n.chain.store tx with
    | .ok after => (none, { n with pool := after.2.1, chain := { n.chain with store := after.2.2 } })
    | .error _ => (none, n)
  | .reconcile b, n =>
    let after := n.pool.reconcile n.chain.store b
    (none, { n with pool := after.2.1, chain := { n.chain with store := after.2.2 } })
  | .insertPeer p, n =>
    let after := n.peers.insert n.chain.store p
    (none, { n with peers := after.2.1, chain := { n.chain with store := after.2.2 } })
  | .removePeer addr, n =>
    let after := n.peers.remove n.chain.store addr
    (none, { n with peers := after.2.1, chain := { n.chain with store := after.2.2 } })

/-- The keys an operation other than an append may write: transaction
records, and the record of the peer it names. -/
def Touches (op : NodeOp) (k : ByteArray) : Prop :=
  (∃ d : Digest, k = Keys.transaction d.bytes) ∨ ∃ addr ∈ op.peerAddr?, k = Keys.peer addr

theorem block?_eq_some {op : NodeOp} {b : Block} (h : op.block? = some b) : op = .append b := by
  cases op with
  | append b' =>
    cases h
    rfl
  | _ => cases h

/-- An operation other than an append answers nothing and changes the store
of the chain alone, at keys it touches. -/
theorem run_local {op : NodeOp} (hop : op.block? = none) (n : Sync.Node) :
    (op.run n).1 = none ∧ (op.run n).2.chain = { n.chain with store := (op.run n).2.chain.store } ∧
      n.chain.store.ChangesWithin (op.run n).2.chain.store op.Touches := by
  cases op with
  | append b => cases hop
  | accept tx =>
    cases h : n.pool.accept n.chain.store tx with
    | ok after =>
      have hrun : (NodeOp.accept tx).run n =
          (none, { n with pool := after.2.1, chain := { n.chain with store := after.2.2 } }) := by
        simp only [run, h]
      rw [hrun]
      exact ⟨rfl, rfl, (Pool.accept_changesWithin h).mono fun k hk => .inl ⟨tx.hash, hk⟩⟩
    | error e =>
      have hrun : (NodeOp.accept tx).run n = (none, n) := by simp only [run, h]
      rw [hrun]
      exact ⟨rfl, rfl, .refl _ _⟩
  | reconcile b => exact ⟨rfl, rfl, (Pool.reconcile_changesWithin _ _ b).mono fun k hk => .inl hk⟩
  | insertPeer p =>
    exact ⟨rfl, rfl, (Net.PeerSet.insert_changesWithin _ _ p).mono fun k hk => .inr ⟨p.addr, rfl, hk⟩⟩
  | removePeer addr =>
    exact ⟨rfl, rfl, (Net.PeerSet.remove_changesWithin _ _ addr).mono fun k hk => .inr ⟨addr, rfl, hk⟩⟩

/-- An operation whose peer record is not as long as a block hash touches no
consensus record. -/
theorem not_consensus_of_touches {op : NodeOp}
    (hpeer : ∀ addr ∈ op.peerAddr?, (Keys.peer addr).size ≠ 32) {k : ByteArray} (hk : op.Touches k) :
    ¬ Keys.Consensus k := by
  rcases hk with ⟨d, rfl⟩ | ⟨addr, haddr, rfl⟩
  · exact Keys.not_consensus_transaction d
  · exact Keys.not_consensus_peer (hpeer addr haddr)

end NodeOp

/-- Carries out operations in order; the answers of the appends, in order. -/
def runOps : List NodeOp → Sync.Node → List (Result AppendOutcome) × Sync.Node
  | [], n => ([], n)
  | op :: ops, n =>
    let (r, n₁) := op.run n
    let (rs, n₂) := runOps ops n₁
    (r.toList ++ rs, n₂)

theorem runOps_cons (op : NodeOp) (ops : List NodeOp) (n : Sync.Node) :
    runOps (op :: ops) n =
      ((op.run n).1.toList ++ (runOps ops (op.run n).2).1, (runOps ops (op.run n).2).2) := rfl

theorem runOps_append (l₁ l₂ : List NodeOp) (n : Sync.Node) :
    runOps (l₁ ++ l₂) n =
      ((runOps l₁ n).1 ++ (runOps l₂ (runOps l₁ n).2).1, (runOps l₂ (runOps l₁ n).2).2) := by
  induction l₁ generalizing n with
  | nil => rfl
  | cons op l₁ ih => rw [List.cons_append, runOps_cons, ih, runOps_cons, List.append_assoc]

/-- Two nodes whose chains are ready and agree. -/
structure InStep (n₁ n₂ : Sync.Node) : Prop where
  ready₁ : n₁.chain.Ready
  ready₂ : n₂.chain.Ready
  agree : n₁.chain.Agree n₂.chain

namespace InStep

variable {n₁ n₂ : Sync.Node}

theorem symm (h : InStep n₁ n₂) : InStep n₂ n₁ := ⟨h.ready₂, h.ready₁, h.agree.symm⟩

/-- An operation other than an append, on the first node, keeps two nodes in
step. -/
theorem run_local (h : InStep n₁ n₂) {op : NodeOp} (hop : op.block? = none)
    (hpeer : ∀ addr ∈ op.peerAddr?, (Keys.peer addr).size ≠ 32) : InStep (op.run n₁).2 n₂ := by
  obtain ⟨-, hchain, hs⟩ := NodeOp.run_local hop n₁
  have hK : ∀ k, op.Touches k → ¬ Keys.Consensus k := fun _ => NodeOp.not_consensus_of_touches hpeer
  refine ⟨?_, h.ready₂, ?_⟩
  · rw [hchain]
    exact h.ready₁.of_store hs hK
  · rw [hchain]
    exact h.agree.of_store h.ready₁ hs hK

/-- Operations other than appends, on the first node, answer nothing and keep
two nodes in step. -/
theorem runOps_local (h : InStep n₁ n₂) {ops : List NodeOp} (hops : ∀ op ∈ ops, op.block? = none)
    (hpeer : ∀ op ∈ ops, ∀ addr ∈ op.peerAddr?, (Keys.peer addr).size ≠ 32) :
    (runOps ops n₁).1 = [] ∧ InStep (runOps ops n₁).2 n₂ := by
  induction ops generalizing n₁ with
  | nil => exact ⟨rfl, h⟩
  | cons op ops ih =>
    have hop := hops op List.mem_cons_self
    obtain ⟨hnone, -, -⟩ := NodeOp.run_local hop n₁
    obtain ⟨hrest, hstep⟩ := ih (h.run_local hop (hpeer op List.mem_cons_self))
      (fun o ho => hops o (List.mem_cons_of_mem _ ho)) (fun o ho => hpeer o (List.mem_cons_of_mem _ ho))
    rw [runOps_cons, hnone, hrest]
    exact ⟨rfl, hstep⟩

/-- Appending one block to two nodes in step answers alike and keeps them in
step. -/
theorem append (h : InStep n₁ n₂) {b : Block} (hfits : b.transactions.length < 2 ^ 64) :
    ((NodeOp.append b).run n₁).1 = ((NodeOp.append b).run n₂).1 ∧
      InStep ((NodeOp.append b).run n₁).2 ((NodeOp.append b).run n₂).2 := by
  obtain ⟨hans, hagree⟩ := h.agree.append h.ready₁ h.ready₂ b
  exact ⟨congrArg some hans, h.ready₁.append hfits, h.ready₂.append hfits, hagree⟩

/-- Two nodes in step, given the same blocks to append among any other
operations, answer every append alike and stay in step.  The induction is on
the first node's operations: an operation other than an append keeps the
nodes in step, and at an append the second node first carries out its own
operations up to the same append. -/
theorem runOps (h : InStep n₁ n₂) {ops₁ ops₂ : List NodeOp}
    (hblocks : ops₁.filterMap NodeOp.block? = ops₂.filterMap NodeOp.block?)
    (hfits : ∀ b ∈ ops₁.filterMap NodeOp.block?, b.transactions.length < 2 ^ 64)
    (hpeer₁ : ∀ op ∈ ops₁, ∀ addr ∈ op.peerAddr?, (Keys.peer addr).size ≠ 32)
    (hpeer₂ : ∀ op ∈ ops₂, ∀ addr ∈ op.peerAddr?, (Keys.peer addr).size ≠ 32) :
    (runOps ops₁ n₁).1 = (runOps ops₂ n₂).1 ∧ InStep (runOps ops₁ n₁).2 (runOps ops₂ n₂).2 := by
  induction ops₁ generalizing n₁ ops₂ n₂ with
  | nil =>
    have hlocal : ∀ op ∈ ops₂, op.block? = none := List.filterMap_eq_nil_iff.mp hblocks.symm
    obtain ⟨hans, hstep⟩ := h.symm.runOps_local hlocal hpeer₂
    exact ⟨hans.symm, hstep.symm⟩
  | cons op ops₁ ih =>
    have hrest₁ : ∀ o ∈ ops₁, ∀ addr ∈ o.peerAddr?, (Keys.peer addr).size ≠ 32 :=
      fun o ho => hpeer₁ o (List.mem_cons_of_mem _ ho)
    cases hop : op.block? with
    | none =>
      rw [List.filterMap_cons_none hop] at hblocks hfits
      obtain ⟨hnone, -, -⟩ := NodeOp.run_local hop n₁
      obtain ⟨hans, hstep⟩ := ih (h.run_local hop (hpeer₁ op List.mem_cons_self)) hblocks hfits hrest₁ hpeer₂
      rw [runOps_cons, hnone]
      exact ⟨hans, hstep⟩
    | some b =>
      obtain rfl := NodeOp.block?_eq_some hop
      rw [List.filterMap_cons_some hop] at hblocks hfits
      -- the second node reaches the same append after operations of its own
      obtain ⟨pre, op', post, rfl, hpre, hop', hpost⟩ := List.filterMap_eq_cons_iff.mp hblocks.symm
      obtain rfl := NodeOp.block?_eq_some hop'
      obtain ⟨hpre_ans, hpre_step⟩ :=
        h.symm.runOps_local hpre fun o ho => hpeer₂ o (List.mem_append_left _ ho)
      obtain ⟨happ_ans, happ_step⟩ := hpre_step.symm.append (hfits b List.mem_cons_self)
      obtain ⟨hans, hstep⟩ := ih happ_step hpost.symm (fun b' hb' => hfits b' (List.mem_cons_of_mem _ hb'))
        hrest₁ fun o ho => hpeer₂ o (List.mem_append_right _ (List.mem_cons_of_mem _ ho))
      rw [runOps_cons, runOps_append, runOps_cons, hpre_ans, ← happ_ans, hans, List.nil_append]
      exact ⟨rfl, hstep⟩

end InStep

/-! ## Consensus across nodes -/

/-- Consensus does not depend on what is local to a node.  Admitting a
transaction writes its record alone, reconciling the pool deletes transaction
records only, and adding or dropping a peer writes that peer's record alone.
So two nodes whose chains are reachable over stores in memory, with one tip,
one genesis record and the same consensus records, whatever their caches,
pools, peer sets and other records, given the same blocks to append among any
operations of their pools and peer sets, answer every append alike and end
with one tip and the same consensus records, as long as no peer's record key
is as long as a block hash. -/
theorem appends_agree_across_nodes {n₁ n₂ : Sync.Node} {ops₁ ops₂ : List NodeOp}
    (hr₁ : Chain.Reachable n₁.chain) (hr₂ : Chain.Reachable n₂.chain)
    (hm₁ : n₁.chain.store.InMemory) (hm₂ : n₂.chain.store.InMemory)
    (htip : n₁.chain.tip = n₂.chain.tip) (hgen : n₁.chain.genesis = n₂.chain.genesis)
    (hrec : ∀ k, Keys.Consensus k → n₁.chain.store.get? k = n₂.chain.store.get? k)
    (hblocks : ops₁.filterMap NodeOp.block? = ops₂.filterMap NodeOp.block?)
    (hfits : ∀ b ∈ ops₁.filterMap NodeOp.block?, b.transactions.length < 2 ^ 64)
    (hpeers : ∀ op ∈ ops₁ ++ ops₂, ∀ addr ∈ op.peerAddr?, (Keys.peer addr).size ≠ 32) :
    (∀ (p p' : Pool) (s s' : Store) (tx : SignedTx) (r : Receipt), p.accept s tx = .ok (r, p', s') →
      s.ChangesWithin s' (· = Keys.transaction tx.hash.bytes)) ∧
    (∀ (p : Pool) (s : Store) (b : Block),
      s.ChangesWithin (p.reconcile s b).2.2 fun k => ∃ d : Digest, k = Keys.transaction d.bytes) ∧
    (∀ (ps : Net.PeerSet) (s : Store) (p : Net.PeerNode),
      s.ChangesWithin (ps.insert s p).2.2 (· = Keys.peer p.addr)) ∧
    (∀ (ps : Net.PeerSet) (s : Store) (addr : String),
      s.ChangesWithin (ps.remove s addr).2.2 (· = Keys.peer addr)) ∧
    (runOps ops₁ n₁).1 = (runOps ops₂ n₂).1 ∧
    (runOps ops₁ n₁).2.chain.tip = (runOps ops₂ n₂).2.chain.tip ∧
    ∀ k, Keys.Consensus k → (runOps ops₁ n₁).2.chain.store.get? k = (runOps ops₂ n₂).2.chain.store.get? k := by
  have h : InStep n₁ n₂ := ⟨⟨hm₁, hr₁.wellFormed⟩, ⟨hm₂, hr₂.wellFormed⟩, htip, hgen, hrec⟩
  obtain ⟨hans, hstep⟩ := h.runOps hblocks hfits (fun op hop => hpeers op (List.mem_append_left _ hop))
    fun op hop => hpeers op (List.mem_append_right _ hop)
  exact ⟨fun _ _ _ _ _ _ => Pool.accept_changesWithin, Pool.reconcile_changesWithin,
    Net.PeerSet.insert_changesWithin, Net.PeerSet.remove_changesWithin, hans, hstep.agree.tip,
    hstep.agree.store⟩

/-- Two nodes on the funded sample chain take `minedBlock`, one after adding a
peer and before reconciling its pool with the block, the other alone: both
extend the chain to two blocks, and they keep one tip and the same consensus
records. -/
theorem appends_agree_across_nodes_sample :
    ∃ c₀ rs, Chain.bootstrap {} Chain.fundedGenesis = .ok c₀ ∧
      (runOps [.insertPeer { addr := "10.0.0.1:9000" }, .append minedBlock, .reconcile minedBlock]
          { name := "a", chain := c₀ }).1 = [.ok (.extended minedBlock.hash 2 rs)] ∧
      (runOps [.append minedBlock] { name := "b", chain := c₀ }).1 = [.ok (.extended minedBlock.hash 2 rs)] ∧
      (runOps [.insertPeer { addr := "10.0.0.1:9000" }, .append minedBlock, .reconcile minedBlock]
          { name := "a", chain := c₀ }).2.chain.tip = (runOps [.append minedBlock] { name := "b", chain := c₀ }).2.chain.tip ∧
      ∀ k, Keys.Consensus k →
        (runOps [.insertPeer { addr := "10.0.0.1:9000" }, .append minedBlock, .reconcile minedBlock]
            { name := "a", chain := c₀ }).2.chain.store.get? k =
          (runOps [.append minedBlock] { name := "b", chain := c₀ }).2.chain.store.get? k := by
  obtain ⟨c₀, rs, c₁, hboot, hg₀, -, happ, -, -⟩ := Chain.grown_fundedChain
  have hr : Chain.Reachable c₀ := Chain.reachable_iff_grown.mpr ⟨_, hg₀⟩
  have hm : c₀.store.InMemory := Chain.inMemory_bootstrap ⟨{}, rfl⟩ hboot
  have hpeers : ∀ op ∈ [NodeOp.insertPeer { addr := "10.0.0.1:9000" }, .append minedBlock,
      .reconcile minedBlock] ++ [.append minedBlock], ∀ addr ∈ op.peerAddr?, (Keys.peer addr).size ≠ 32 := by
    intro op hop addr haddr
    simp only [List.cons_append, List.nil_append, List.mem_cons, List.not_mem_nil, or_false] at hop
    rcases hop with rfl | rfl | rfl | rfl <;> cases haddr
    decide
  obtain ⟨-, -, -, -, hans, htip, hrec⟩ := @appends_agree_across_nodes { name := "a", chain := c₀ }
    { name := "b", chain := c₀ } [.insertPeer { addr := "10.0.0.1:9000" }, .append minedBlock,
      .reconcile minedBlock] [.append minedBlock] hr hr hm hm rfl rfl (fun _ _ => rfl) rfl
    (fun b hb => by simp [NodeOp.block?] at hb; rw [← hb]; decide) hpeers
  -- the node that only appends answers the extension
  have hb : (runOps [.append minedBlock] { name := "b", chain := c₀ }).1 =
      [.ok (.extended minedBlock.hash 2 rs)] := by
    simp [runOps, NodeOp.run, happ]
  exact ⟨c₀, rs, hboot, hans.trans hb, hb, htip, hrec⟩

end PowChain
