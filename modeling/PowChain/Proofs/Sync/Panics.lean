import PowChain.Proofs.Sync.Run
import PowChain.Proofs.Chain.Panics
import PowChain.Proofs.Chain.Check
import PowChain.Proofs.Pool.Invariant

/-!
# Where a node of the network can panic

A node answers each message with one of the handlers of `Network.handle`.
Most of them read the chain, the store or the peer set and send: they never
panic (`NetM.Quiet`), since a send catches whatever its transport answers,
reading a record fails as the store does, and walking or checking the chain
fails only with the check that fails.  Two messages change the ledger, and
they panic where the ledger does:

* a block, where appending it panics (`Chain.PanicCauses.append`), or, once
  it extends the chain, where reconciling the pool with it replays a pending
  transfer that meets a party with the top nonce (`Pool.ReplayMeetsTop`): a
  block that raises an account's nonce to the top makes a pending transfer
  into that account panic;
* a transaction, where admitting it panics: at a party whose pending nonce is
  the top one.

A transaction may start a mining run, but the run is carried out after the
step that handled it, as `Chain.PanicCauses.mine` describes, with the node's
number of workers.

`panics_only_at_counters` gathers them for every node whose chain was grown
from a genesis record.  A genesis record may carry any timestamp, so a chain
on which preparing a block panics is reached at once
(`prepare_overflows_after_last_time`).
-/

namespace PowChain

/-! ## Reads that never panic -/

namespace Chain

open ChainM

section Walks

variable {σ α : Type} {step : σ → Block → Result (Walk σ α)} {finish : σ → Result α}

/-- A walk whose steps and end never panic never panics: reading a block
fails as the store does.  The induction is on the fuel. -/
theorem walkFrom_noPanic (hstep : ∀ s b, NoPanic (step s b)) (hfinish : ∀ s, NoPanic (finish s)) :
    ∀ fuel h s c, NoPanic ((walkFrom step finish fuel h s).run.run c).1 := by
  intro fuel
  induction fuel with
  | zero =>
    intro h s c
    rw [walkFrom_zero_run]
    exact hfinish s
  | succ fuel ih =>
    intro h s c
    have hget := getBlock_noPanic h c
    rcases hrun : (getBlock h).run.run c with ⟨_ | b, c₁⟩
    · rw [walkFrom_succ_of_error step finish hrun]
      rw [hrun] at hget
      exact noPanic_error.mpr (noPanic_error.mp hget)
    · rw [walkFrom_succ_run step finish hrun]
      have hs := hstep s b
      split
      · rename_i e he
        rw [he] at hs
        exact noPanic_error.mpr (noPanic_error.mp hs)
      · exact noPanic_ok _
      · split
        · exact hfinish _
        · exact ih _ _ _

end Walks

theorem blockHashes_noPanic (c : Chain) : NoPanic (blockHashes.run.run c).1 := by
  unfold blockHashes
  simp only [run_bind, run_get]
  exact walkFrom_noPanic (fun _ _ => noPanic_ok _) (fun _ => noPanic_ok _) _ _ _ _

/-- Checking the chain fails only with the finding of the check that fails. -/
theorem verify_noPanic (c : Chain) : NoPanic (verify.run.run c).1 := by
  unfold verify
  simp only [run_bind, run_get]
  refine walkFrom_noPanic (fun k b => ?_) (fun k => ?_) _ _ _ _
  · simp [noPanic_ite, LedgerError.isPanic]
  · simp [noPanic_ite, LedgerError.isPanic]

end Chain

theorem Store.transaction_noPanic (s : Store) (h : Digest) : NoPanic (s.transaction h) := by
  simp only [Store.transaction, noPanic_bind, s.get?_noPanic, true_and]
  intro v _
  split
  · simp [LedgerError.isPanic]
  · exact decodeRecord_noPanic _ _

namespace Net

/-- Adding a peer fails only as writing its record does. -/
theorem PeerSet.insert_noPanic (ps : PeerSet) (s : Store) (p : PeerNode) : NoPanic (ps.insert s p).1 := by
  have hput : NoPanic (if ps.persistent then s.put (Keys.peer p.addr) p.toWire else .ok s) := by
    split
    · exact s.commit_noPanic _
    · exact noPanic_ok s
  unfold PeerSet.insert
  dsimp only
  split_ifs with hfull hpersist
  · exact noPanic_ok _
  · rw [if_pos hpersist] at hput
    split
    · exact noPanic_ok _
    · rename_i e he
      exact noPanic_error.mpr (hput e he)
  · exact noPanic_ok _

theorem decodeBlockPayload_noPanic (b : ByteArray) : NoPanic (decodeBlockPayload b) := by
  unfold decodeBlockPayload
  cases Block.ofBytes b <;> simp [Except.mapError, LedgerError.isPanic]

theorem decodeTxPayload_noPanic (b : ByteArray) : NoPanic (decodeTxPayload b) := by
  unfold decodeTxPayload
  cases SignedTx.ofBytes b <;> simp [Except.mapError, LedgerError.isPanic]

end Net

/-! ## Reconciling the pool -/

namespace Pool

/-- Replaying the pending transactions of `p` outside the block `b` over the
canonical accounts of `s` meets a party with the top nonce: once the ones
before it are sifted, one of them finds its sender or its recipient at the
top nonce on the overlay of those kept. -/
def ReplayMeetsTop (p : Pool) (s : Store) (b : Block) : Prop :=
  ∃ pre t rest kept evicted o, Sieve s.account {} pre kept evicted o ∧
    p.transactions.filter (fun t => t.hash ∉ b.transactions.map SignedTx.hash) = pre ++ t :: rest ∧
    ∃ a acct, (a = t.tx.sender ∨ a = t.tx.recipient) ∧ o.lookup s.account a = .ok acct ∧
      acct.nonce.toNat = 2 ^ 64 - 1

/-- Reconciling a pool whose bookkeeping is sound panics only where its
replay meets a party with the top nonce. -/
theorem reconcile_panics {p : Pool} (hp : p.Sound) {s : Store} {b : Block}
    (h : Panics (p.reconcile s b).1) : p.ReplayMeetsTop s b := by
  have hrec := reconcile_reconciled hp s b
  generalize p.reconcile s b = out at hrec h
  cases hrec with
  | sifted =>
    obtain ⟨e, he, -⟩ := h
    cases he
  | panicked sift split fails panic =>
    refine ⟨_, _, _, _, _, _, sift, split, ?_⟩
    by_contra hno
    -- with neither party at the top nonce the transfer fails as an error
    have hquiet := Transaction.transfer_noPanic (Overlay.lookup_noPanic _ s.account_noPanic)
      (fun acct hacct htop => hno ⟨_, acct, .inl rfl, hacct, htop⟩)
      (fun acct hacct htop => hno ⟨_, acct, .inr rfl, hacct, htop⟩)
    rw [hquiet _ fails] at panic
    cases panic

end Pool

namespace Sync

/-! ## Network computations that never panic -/

namespace NetM

variable {α β : Type}

/-- A network computation that ends in no panic, on any network. -/
def Quiet (x : NetM α) : Prop := ∀ w, NoPanic (x.run.run w).1

theorem noPanic_bind_quiet {x : NetM α} {f : α → NetM β} {w : Network} (hx : NoPanic (x.run.run w).1)
    (hf : ∀ a, Quiet (f a)) : NoPanic ((x >>= f).run.run w).1 := by
  rw [run_bind]
  rcases hrun : x.run.run w with ⟨_ | a, w'⟩
  · rw [hrun] at hx
    exact noPanic_error.mpr (noPanic_error.mp hx)
  · exact hf a w'

theorem Quiet.bind {x : NetM α} {f : α → NetM β} (hx : Quiet x) (hf : ∀ a, Quiet (f a)) :
    Quiet (x >>= f) :=
  fun w => noPanic_bind_quiet (hx w) hf

theorem quiet_pure (a : α) : Quiet (pure a : NetM α) := fun _ => noPanic_ok a

theorem quiet_throw {e : LedgerError} (he : e.isPanic = false) : Quiet (throw e : NetM α) :=
  fun _ => noPanic_error.mpr he

theorem quiet_lift {r : Result α} (h : NoPanic r) : Quiet (liftM r : NetM α) := by
  intro w
  rw [run_lift]
  exact h

theorem quiet_ite {c : Prop} [Decidable c] {x y : NetM α} (hx : Quiet x) (hy : Quiet y) :
    Quiet (if c then x else y) := by
  split
  · exact hx
  · exact hy

theorem quiet_modify (f : Network → Network) : Quiet (modify f : NetM PUnit) := fun _ => noPanic_ok _

/-- A computation whose every failure is caught ends as its handler does. -/
theorem quiet_tryCatch {x : NetM α} {h : LedgerError → NetM α} (hh : ∀ e, Quiet (h e)) :
    Quiet (tryCatch x h) := by
  intro w
  rw [run_tryCatch]
  rcases x.run.run w with ⟨_ | a, w'⟩
  · exact hh _ w'
  · exact noPanic_ok a

/-- A loop whose body never panics never panics.  The induction is on the
list, from any starting value. -/
theorem quiet_forIn {l : List α} {body : α → β → NetM (ForInStep β)} (hbody : ∀ a b, Quiet (body a b)) :
    ∀ init, Quiet (forIn l init body) := by
  induction l with
  | nil =>
    intro init
    rw [List.forIn_nil]
    exact quiet_pure init
  | cons a l ih =>
    intro init
    rw [List.forIn_cons]
    refine (hbody a init).bind fun next => ?_
    cases next with
    | done b => exact quiet_pure b
    | yield b => exact ih b

theorem quiet_filterM {l : List α} {p : α → NetM Bool} (hp : ∀ a, Quiet (p a)) : Quiet (l.filterM p) := by
  -- the accumulator of the loop, newest first
  have haux : ∀ (l acc : List α), Quiet (List.filterAuxM p l acc) := by
    intro l
    induction l with
    | nil => exact fun acc => quiet_pure acc
    | cons a l ih => exact fun acc => (hp a).bind fun _ => ih _
  unfold List.filterM
  exact (haux l []).bind fun _ => quiet_pure _

end NetM

open NetM

namespace Network

open Net

variable {w : Network} {n : Node} {me src : String}

/-- A node put back under its own name is what the network shows there. -/
theorem nodeAt_put_of_name {name : String} {m : Node} (h : w.nodeAt name = some n) (hname : m.name = n.name) :
    (w.put m).nodeAt name = some m := by
  have hn := name_of_nodeAt h
  subst hn
  rw [← hname] at h ⊢
  exact nodeAt_put_self h

/-! ### Operations on nodes -/

theorem quiet_node? (name : String) : (node? name).Quiet := by
  intro w
  rw [run_node?]
  exact noPanic_ok _

theorem quiet_node (name : String) : (node name).Quiet := by
  unfold node
  refine (quiet_node? name).bind fun found => ?_
  cases found with
  | none => exact quiet_throw rfl
  | some n => exact quiet_pure n

theorem quiet_setNode (n : Node) : (setNode n).Quiet := fun _ => noPanic_ok _

theorem quiet_modifyNode (name : String) (f : Node → Node) : (modifyNode name f).Quiet :=
  (quiet_node name).bind fun _ => quiet_setNode _

theorem quiet_onChain {α : Type} {name : String} {x : ChainM α} (hx : ∀ c, NoPanic (x.run.run c).1) :
    (onChain name x).Quiet := by
  unfold onChain
  refine (quiet_node name).bind fun n => ?_
  have hn := hx n.chain
  rcases hrun : x.run.run n.chain with ⟨r, c⟩
  rw [hrun] at hn
  refine (quiet_setNode _).bind fun _ => ?_
  cases r with
  | ok a => exact quiet_pure a
  | error e => exact quiet_throw (noPanic_error.mp hn)

theorem quiet_onPeers {α : Type} {name : String} {f : PeerSet → Store → Result α × PeerSet × Store}
    (hf : ∀ ps s, NoPanic (f ps s).1) : (onPeers name f).Quiet := by
  unfold onPeers
  refine (quiet_node name).bind fun n => ?_
  have hn := hf n.peers n.chain.store
  rcases hrun : f n.peers n.chain.store with ⟨r, ps, s⟩
  rw [hrun] at hn
  exact (quiet_setNode _).bind fun _ => quiet_lift hn

/-- A send never panics: whatever the transport answers is caught, and a
peer that cannot be reached is dropped whether or not its record goes. -/
theorem quiet_sendTo (me dest : String) (m : Message) : (sendTo me dest m).Quiet := by
  unfold sendTo
  refine (quiet_tryCatch fun _ => quiet_pure false).bind fun arrived => ?_
  split
  · exact (quiet_modifyNode _ _).bind fun _ => quiet_pure arrived
  · refine (quiet_onPeers fun ps s => ?_).bind fun _ => quiet_pure arrived
    split
    exact noPanic_ok _

theorem quiet_broadcast (me : String) (m : Message) (except : Option String) :
    (broadcast me m except).Quiet := by
  unfold broadcast
  refine (quiet_node me).bind fun n => (quiet_forIn (fun addr _ => ?_) _).bind fun _ => quiet_pure ()
  split
  · exact (quiet_sendTo _ _ _).bind fun _ => quiet_pure _
  · exact quiet_pure _

theorem quiet_rememberPeer (me addr : String) : (rememberPeer me addr).Quiet := by
  unfold rememberPeer
  split
  · exact (quiet_onPeers fun ps s => ps.insert_noPanic s _).bind fun _ => quiet_pure ()
  · exact quiet_pure ()

/-- Starting a mining run only marks it to be carried out. -/
theorem quiet_maybeMine (me : String) : (maybeMine me).Quiet := by
  unfold maybeMine
  refine (quiet_node me).bind fun n => ?_
  split
  · exact quiet_pure false
  · split
    · exact quiet_pure false
    · exact (quiet_setNode _).bind fun _ => (quiet_modify _).bind fun _ => quiet_pure true

theorem knowsTransaction_noPanic (n : Node) (h : Digest) : NoPanic (knowsTransaction n h) := by
  unfold knowsTransaction Store.contains
  split
  · exact noPanic_ok _
  · simp [n.chain.store.get?_noPanic]

/-! ### The handlers that only read and send -/

theorem quiet_handleVersion (me src : String) (remote : UInt64) : (handleVersion me src remote).Quiet := by
  unfold handleVersion
  refine (quiet_rememberPeer me src).bind fun _ => (quiet_node me).bind fun n => ?_
  dsimp only
  split
  · split
    · exact (quiet_sendTo _ _ _).bind fun _ => quiet_pure ()
    · exact quiet_pure ()
  · split
    · exact (quiet_sendTo _ _ _).bind fun _ => quiet_pure ()
    · exact quiet_pure ()

theorem quiet_handleAddr (me src : String) (announced : List String) :
    (handleAddr me src announced).Quiet := by
  unfold handleAddr
  refine (quiet_rememberPeer me src).bind fun _ => (quiet_node me).bind fun n => ?_
  dsimp only
  refine (quiet_forIn (fun addr _ => ?_) _).bind fun _ => quiet_pure ()
  split
  · refine (quiet_onPeers fun ps s => ps.insert_noPanic s _).bind fun added => ?_
    split
    · exact (quiet_sendTo _ _ _).bind fun _ => quiet_pure _
    · exact quiet_pure _
  · exact quiet_pure _

theorem quiet_handleGetBlocks (me src : String) : (handleGetBlocks me src).Quiet :=
  (quiet_onChain Chain.blockHashes_noPanic).bind fun _ => (quiet_sendTo _ _ _).bind fun _ => quiet_pure ()

theorem quiet_handleBlockInv (me src : String) (items : List Digest) :
    (handleBlockInv me src items).Quiet := by
  unfold handleBlockInv
  refine (quiet_node me).bind fun n => ?_
  split
  · exact quiet_pure ()
  · refine (quiet_filterM fun h => (quiet_lift (n.chain.containsBlock_noPanic h)).bind fun _ => quiet_pure _).bind
      fun unknown => (quiet_setNode _).bind fun _ => ?_
    split
    · exact (quiet_sendTo _ _ _).bind fun _ => quiet_pure ()
    · exact quiet_pure ()

theorem quiet_handleTxInv (me src : String) (items : List Digest) : (handleTxInv me src items).Quiet := by
  unfold handleTxInv
  refine (quiet_forIn (fun h _ => ?_) _).bind fun _ => quiet_pure ()
  refine (quiet_node me).bind fun n => (quiet_lift (knowsTransaction_noPanic n h)).bind fun _ => ?_
  split
  · exact (quiet_sendTo _ _ _).bind fun _ => quiet_pure _
  · exact quiet_pure _

theorem quiet_handleGetData (me src : String) (kind : InvKind) (id : Digest) :
    (handleGetData me src kind id).Quiet := by
  unfold handleGetData
  dsimp only
  -- whatever the reply, sending it never panics
  have hreply : ∀ reply, (do let _ ← sendTo me src reply; pure () : NetM Unit).Quiet :=
    fun _ => (quiet_sendTo _ _ _).bind fun _ => quiet_pure ()
  split
  · exact (quiet_onChain (Chain.getBlock_noPanic id)).bind fun _ => (quiet_pure _).bind hreply
  · refine (quiet_node me).bind fun n => ?_
    split
    · exact (quiet_pure _).bind hreply
    · exact (quiet_lift (n.chain.store.transaction_noPanic id)).bind fun _ => (quiet_pure _).bind hreply

theorem quiet_requestNextBlock (me : String) : (requestNextBlock me).Quiet := by
  unfold requestNextBlock
  refine (quiet_node me).bind fun n => ?_
  dsimp only
  refine (quiet_setNode _).bind fun _ => ?_
  split
  · exact (quiet_sendTo _ _ _).bind fun _ => quiet_pure ()
  · refine (quiet_modifyNode _ _).bind fun _ => ?_
    split
    · exact (quiet_onChain Chain.verify_noPanic).bind fun _ => quiet_pure ()
    · exact quiet_pure ()

/-! ### The handlers that change the ledger -/

theorem run_attemptResult_error {α : Type} {x : NetM α} {e : LedgerError} {w' : Network}
    (h : x.run.run w = (.error e, w')) (he : e.isPanic = false) :
    (attemptResult x).run.run w = (.ok (.error e), w') := by
  unfold attemptResult tryRecover
  rw [run_tryCatch, run_bind, h]
  simp [he]
  rfl

theorem reconcile_noPanic {b : Block} (hn : w.nodeAt me = some n)
    (hrec : NoPanic (n.pool.reconcile n.chain.store b).1) : NoPanic ((reconcile me b).run.run w).1 := by
  unfold reconcile
  rw [run_bind, run_node hn]
  dsimp only
  rcases hrun : n.pool.reconcile n.chain.store b with ⟨r, p, s⟩
  rw [hrun] at hrec
  exact ((quiet_setNode _).bind fun _ => (quiet_lift hrec).bind fun _ => quiet_pure ()) w

/-- Handling a block panics only where appending it does, or, once it
extends the chain, where reconciling the pool with it does; counting it,
relaying it, asking for more and every answered failure never panic. -/
theorem handleBlock_noPanic {b : Block} (hn : w.nodeAt me = some n)
    (happ : NoPanic ((Chain.append b).run.run n.chain).1)
    (hrec : ∀ h length rs c', (Chain.append b).run.run n.chain = (.ok (.extended h length rs), c') →
      NoPanic (n.pool.reconcile c'.store b).1) :
    NoPanic ((handleBlock me src b).run.run w).1 := by
  have hn₁ := nodeAt_put_of_name (m := { n with blocksReceived := n.blocksReceived + 1 }) hn rfl
  unfold handleBlock
  rw [run_bind, run_modifyNode hn]
  dsimp only
  rw [run_bind]
  rcases hrun : (Chain.append b).run.run n.chain with ⟨_ | outcome, c'⟩
  · rename_i e
    rw [hrun] at happ
    -- the failure is answered: the node asks for the inventory again or fails with it
    rw [run_attemptResult_error (run_onChain hn₁ hrun) (noPanic_error.mp happ)]
    exact ((quiet_node me).bind fun _ => quiet_ite ((quiet_sendTo _ _ _).bind fun _ => quiet_pure ())
      ((quiet_throw (noPanic_error.mp happ)).bind fun _ => quiet_requestNextBlock me)) _
  · rw [run_attemptResult_ok (run_onChain hn₁ hrun)]
    dsimp only
    cases outcome with
    | extended h length rs =>
      have hn₂ := nodeAt_put_of_name (m := { n with blocksReceived := n.blocksReceived + 1, chain := c' }) hn₁ rfl
      refine noPanic_bind_quiet (reconcile_noPanic hn₂ (hrec h length rs c' hrun)) fun _ => ?_
      refine (quiet_node me).bind fun _ => ?_
      split
      · exact (quiet_broadcast _ _ _).bind fun _ => quiet_requestNextBlock me
      · exact quiet_requestNextBlock me
    | alreadyKnown => exact quiet_requestNextBlock me _

/-- Handling a transaction panics only where admitting it does; relaying it
and starting a mining run never panic. -/
theorem handleTx_noPanic {tx : SignedTx} (hn : w.nodeAt me = some n)
    (hacc : NoPanic (n.pool.accept n.chain.store tx)) : NoPanic ((handleTx me src tx).run.run w).1 := by
  unfold handleTx
  rw [run_bind, run_node hn]
  dsimp only
  split
  · exact noPanic_ok _
  · have haccept : NoPanic ((accept me tx).run.run w).1 := by
      unfold accept
      rw [run_bind, run_node hn]
      dsimp only
      refine noPanic_bind_quiet (by rw [run_lift]; exact hacc) fun ⟨r, _, _⟩ => ?_
      exact (quiet_setNode _).bind fun _ => quiet_pure r
    refine noPanic_bind_quiet haccept fun _ => (quiet_node me).bind fun _ => ?_
    split
    · exact quiet_broadcast _ _ _
    · exact (quiet_maybeMine me).bind fun _ => quiet_pure ()

/-! ## Every node whose chain was grown from a genesis record -/

/-- Why handling a message can panic at the node `n`, whose store reads the
accounts `σ`: only a block or a transaction can.  A block, where appending it
panics — a chain of `2 ^ 64 - 1` blocks, or a transaction of the block
meeting a party with the top nonce — or, once it extends the chain, where
the pool's replay over the longer chain meets a party with the top nonce.  A
transaction, where the pending accounts show one of its parties with the top
nonce. -/
def PanicCause (σ : Ledger.Accounts) (n : Node) : Payload → Prop
  | .block bytes => ∃ b, decodeBlockPayload bytes = .ok b ∧
      (n.chain.tip.length.toNat = 2 ^ 64 - 1 ∨ Ledger.ReachesNonceTop σ b.transactions ∨
        ∃ h length rs c', (Chain.append b).run.run n.chain = (.ok (.extended h length rs), c') ∧
          n.pool.ReplayMeetsTop c'.store b)
  | .tx bytes => ∃ tx, decodeTxPayload bytes = .ok tx ∧
      ∃ a acct, (a = tx.tx.sender ∨ a = tx.tx.recipient) ∧ n.pool.pendingAccount n.chain.store a = .ok acct ∧
        acct.nonce.toNat = 2 ^ 64 - 1
  | _ => False

/-- **Where a node can panic.**  At a node whose chain was grown from a
genesis record and whose pool's bookkeeping is sound, with `σ` the accounts
its store reads: appending, preparing and mining on its chain, admitting a
transaction to a pool and applying a block panic only at the causes of
`Chain.PanicCauses` — mining with any number of workers; and handling any
message panics only at a block or a transaction, for the causes of
`PanicCause`: a counter at the top of its word, or a pending transfer the
pool replays meeting one.  Every other failure is an error the caller
answers. -/
theorem panics_only_at_counters {g : Genesis} {w : Network} {me : String} {n : Node}
    (hn : w.nodeAt me = some n) (hg : Chain.Grown g n.chain) (hpool : n.pool.Sound) :
    ∃ σ : Ledger.Accounts, (∀ a, n.chain.store.account a = .ok (σ a)) ∧ Chain.PanicCauses n.chain σ ∧
      ∀ m : Message, Panics ((handle me m).run.run w).1 → PanicCause σ n m.payload := by
  obtain ⟨σ, hσ, hcauses⟩ := hg.panic_causes
  refine ⟨σ, hσ, hcauses, fun m hp => ?_⟩
  by_contra hcause
  apply panics_iff_not_noPanic.mp hp
  unfold handle
  split
  · exact quiet_handleVersion _ _ _ w
  · exact quiet_handleAddr _ _ _ w
  · exact quiet_handleGetBlocks _ _ w
  · exact quiet_handleBlockInv _ _ _ w
  · exact quiet_handleTxInv _ _ _ w
  · exact quiet_handleGetData _ _ _ _ w
  · rename_i bytes hpay
    rw [hpay] at hcause
    rw [run_bind, run_lift]
    rcases hdec : decodeBlockPayload bytes with e | b
    · exact noPanic_error.mpr (decodeBlockPayload_noPanic bytes e hdec)
    · dsimp only
      -- the block meets neither cause of an append nor a replay at the top
      refine handleBlock_noPanic hn (fun e he => ?_) fun h length rs c' happ => fun e he => ?_
      · by_contra hpanic
        have := hcauses.append b ⟨e, he, by simpa using hpanic⟩
        exact hcause ⟨b, hdec, this.elim .inl (.inr ∘ .inl)⟩
      · by_contra hpanic
        exact hcause ⟨b, hdec, .inr (.inr ⟨h, length, rs, c', happ,
          Pool.reconcile_panics hpool ⟨e, he, by simpa using hpanic⟩⟩)⟩
  · rename_i bytes hpay
    rw [hpay] at hcause
    rw [run_bind, run_lift]
    rcases hdec : decodeTxPayload bytes with e | tx
    · exact noPanic_error.mpr (decodeTxPayload_noPanic bytes e hdec)
    · dsimp only
      refine handleTx_noPanic hn fun e he => ?_
      by_contra hpanic
      obtain ⟨a, acct, hparty, hacct, htop⟩ := hcauses.accept n.pool tx ⟨e, he, by simpa using hpanic⟩
      exact hcause ⟨tx, hdec, a, acct, hparty, hacct, htop⟩

/-- A node holding the funded chain that `minedBlock` extends, with a signed
transfer pending: at that node, every panic of a handler has a cause of
`PanicCause`. -/
theorem panics_only_at_counters_sample :
    ∃ c₁ p, Chain.Grown Chain.fundedGenesis c₁ ∧ c₁.tip.length = 2 ∧ p.order.length = 1 ∧ p.Sound ∧
      ∃ σ : Ledger.Accounts, (∀ a, c₁.store.account a = .ok (σ a)) ∧ Chain.PanicCauses c₁ σ ∧
        ∀ m : Message, Panics ((handle "a" m).run.run ⟨[{ name := "a", chain := c₁, pool := p }], [], 0⟩).1 →
          PanicCause σ { name := "a", chain := c₁, pool := p } m.payload := by
  obtain ⟨c₀, rs, c₁, -, -, -, -, hg₁, hlen, -⟩ := Chain.grown_fundedChain
  obtain ⟨r, p, s, -, hsound, horder, -⟩ := Pool.admits_toppedTransfer
  refine ⟨c₁, p, hg₁, hlen, by simp [horder], hsound,
    panics_only_at_counters (n := { name := "a", chain := c₁, pool := p }) ?_ hg₁ hsound⟩
  simp [nodeAt]

end Network
end Sync

namespace Chain

/-- The sample genesis record dated at the last millisecond an `i64` holds. -/
def lastTimeGenesis : Genesis := { sampleGenesis with genesisTime := 9223372036854775807 }

/-- A genesis record dated at the last millisecond bootstraps a chain grown
from it, and preparing any block on that chain panics: the next timestamp
does not fit. -/
theorem prepare_overflows_after_last_time :
    ∃ c, Chain.bootstrap {} lastTimeGenesis = .ok c ∧ Grown lastTimeGenesis c ∧
      ((prepareBlock 0 [SignedTx.reward Address.zero 100 1 0] Address.zero).run.run c).1 =
        .error (.arithmeticOverflow "add") := by
  have hboot : (Chain.bootstrap {} lastTimeGenesis).map (fun c => c.tip.hash.isZero) = .ok false := by
    decide +kernel
  have htime : lastTimeGenesis.toBlock.map (fun b => b.header.timestamp.toInt) = .ok 9223372036854775807 := by
    decide +kernel
  cases hc : Chain.bootstrap {} lastTimeGenesis with
  | error e =>
    rw [hc] at hboot
    cases hboot
  | ok c =>
    rw [hc] at hboot
    have hzero : c.tip.hash.isZero = false := by simpa [Except.map] using hboot
    obtain ⟨m, block, hblock, hw⟩ := wellFormed_bootstrap_genesis Store.faithful_empty hc hzero
    obtain ⟨b, rest, hblocks, hhash⟩ := hw.tip
    obtain ⟨rfl, rfl⟩ := List.cons_eq_cons.mp hblocks
    -- the tip is the genesis block, read from the store
    obtain ⟨c₁, hrun, -, -⟩ := getBlock_stored hw.faithful hw.cache (hw.stored block (List.mem_singleton_self block))
    rw [hhash] at hrun
    have htop : block.header.timestamp.toInt = 2 ^ 63 - 1 := by
      rw [hblock] at htime
      simpa [Except.map] using htime
    exact ⟨c, rfl, .bootstrap Store.faithful_empty hc hzero, prepareBlock_at_last_time (List.cons_ne_nil _ _) hrun htop⟩

end Chain
end PowChain
