import PowChain.Proofs.Sync.Panics
import PowChain.Proofs.Chain.Trail
import PowChain.Proofs.Net.Membership

/-!
# Catching up with a peer

A node `b` that trails a node `a` catches up by the exchange its handlers
start when it hears `a`'s height, or `a`'s inventory: `b` asks for the
inventory, queues the hashes it does not know and asks for their blocks one
at a time, appending each as it arrives.  Each node waits for the other's
answer, so one message is under way at a time and the two nodes handling
their messages in turn (`Network.alternate`) is the order they arrive in.

* step lemmas under `Network.Shows`, one per handler and outcome: `a` serving
  its inventory or a block, `b` taking a height, an inventory or a block, and
  asking for the next block or ending the download;
* `Network.Fetching`, the state in the middle of a download, and
  `Fetching.run`: a download runs to its end, by induction on the blocks left;
* `Network.catch_up_converges`: after exactly the messages of
  `catchUpTraffic`, `b` holds `a`'s block hashes, tip and accounts, with
  nothing queued and a chain that checks, as long as reconciling `b`'s pool
  with each block it appends does not panic (`Pool.ReplaysQuietly`), which
  happens only where a pending transfer's replay meets a party with the top
  nonce;
* `Shows.take_block_reconcile_error`, why that condition: a pending
  transaction whose reconciliation with a new block fails ends `b`'s turn, and
  the download stops there.
-/

namespace PowChain

/-! ## Reading a well-formed chain -/

namespace Chain

variable {c : Chain} {m : KvMap} {blocks : List Block}

/-- Reading a stored block changes the cache only, and keeps the chain well
formed over the same records. -/
theorem WellFormed.getBlock (hw : WellFormed c m blocks) {b : Block} (hb : Stored m b) :
    ∃ c', (Chain.getBlock b.hash).run.run c = (.ok b, c') ∧ Frame c c' ∧ WellFormed c' m blocks := by
  obtain ⟨c', hget, hframe, hcache⟩ := getBlock_stored hw.faithful hw.cache hb
  exact ⟨c', hget, hframe, hw.of_frame hframe hcache⟩

theorem WellFormed.blockHashes_run (hw : WellFormed c m blocks) :
    ∃ c', Chain.blockHashes.run.run c = (.ok (blocks.map Block.hash).reverse, c') ∧ Frame c c' ∧
      WellFormed c' m blocks := by
  obtain ⟨b, rest, rfl, hb⟩ := hw.tip
  rcases hrun : Chain.blockHashes.run.run c with ⟨r, c'⟩
  obtain ⟨rfl, hframe, hcache⟩ := blockHashes_lineage hw.lineage hw.stored hw.faithful hw.cache hb.symm hrun
  exact ⟨c', rfl, hframe, hw.of_frame hframe hcache⟩

theorem WellFormed.verify_run (hw : WellFormed c m blocks) :
    ∃ c', Chain.verify.run.run c = (.ok c.tip.length, c') ∧ Frame c c' ∧ WellFormed c' m blocks := by
  obtain ⟨b, rest, rfl, hb⟩ := hw.tip
  rcases hrun : Chain.verify.run.run c with ⟨r, c'⟩
  obtain ⟨rfl, hframe, hcache⟩ :=
    verify_lineage hw.lineage hw.stored hw.faithful hw.cache hb.symm hw.length hrun
  exact ⟨c', rfl, hframe, hw.of_frame hframe hcache⟩

/-- A well-formed chain's best height is one less than its number of blocks. -/
theorem WellFormed.bestHeight_succ (hw : WellFormed c m blocks) : c.bestHeight.toNat + 1 = blocks.length := by
  obtain ⟨b, rest, hbl, -⟩ := hw.tip
  have hlen : blocks.length = c.tip.length.toNat := hw.length
  have hpos : 0 < c.tip.length.toNat := by
    rw [← hlen, hbl]
    exact Nat.succ_pos _
  have h1 : (1 : UInt64) ≤ c.tip.length := UInt64.le_iff_toNat_le.mpr (by simp only [UInt64.toNat_one]; omega)
  have hne : c.tip.length ≠ 0 := fun h0 => by simp [h0] at hpos
  unfold bestHeight
  rw [if_neg hne, UInt64.toNat_sub_of_le _ _ h1, hlen]
  simp only [UInt64.toNat_one]
  omega

theorem Ready.of_frame {c' : Chain} (h : c.Ready) (hframe : Frame c c') (hw : WellFormed c' m blocks) :
    c'.Ready :=
  ⟨hframe.store ▸ h.inMemory, m, blocks, hw⟩

/-- A block that extends a chain passed the checks of its body against the
chain's difficulty, so its record reads back. -/
theorem append_extended_body {c c' : Chain} {b : Block} {length : UInt64} {receipts : List Receipt}
    (h : (append b).run.run c = (.ok (.extended b.hash length receipts), c')) :
    b.validateBody c.difficulty = .ok () := by
  rcases append_cases h with ⟨e, he, -⟩ | ⟨he, -⟩ | ⟨c₁, -, -, -, -, hcheck, -⟩
  · cases he
  · cases he
  exact (checkNext_ok hcheck).2.1

theorem Extends.wireFits {c c' : Chain} {bs : List Block} (h : Extends c bs c')
    (hfits : ∀ b ∈ bs, b.transactions.length < 2 ^ 64) : ∀ b ∈ bs, b.WireFits := by
  induction h with
  | nil c => simp
  | cons head _ ih =>
    intro x hx
    rcases List.mem_cons.mp hx with rfl | hx
    · exact Block.wireFits_of_validateBody (append_extended_body head) (hfits _ List.mem_cons_self)
    · exact ih (fun b hb => hfits b (List.mem_cons_of_mem _ hb)) x hx

theorem Extends.cons_inv {c d : Chain} {x : Block} {rest : List Block} (h : Extends c (x :: rest) d) :
    ∃ len rs c₁, (append x).run.run c = (.ok (.extended x.hash len rs), c₁) ∧ Extends c₁ rest d := by
  cases h with
  | cons head tail => exact ⟨_, _, _, head, tail⟩

theorem Extends.eq_of_nil {c d : Chain} (h : Extends c [] d) : d = c := by
  cases h
  rfl

/-- The chain behind is itself extended by the blocks ahead, to a ready chain
that agrees with the chain ahead. -/
theorem Trails.extend {cB cA : Chain} {bs : List Block} (h : Trails cB bs cA) (hB : cB.Ready)
    (hfits : ∀ b ∈ bs, b.transactions.length < 2 ^ 64) : ∃ d, Extends cB bs d ∧ d.Ready ∧ d.Agree cA := by
  obtain ⟨c₀, c', hready₀, hagree₀, hext₀, hagree'⟩ := h
  obtain ⟨d, hext, hagree, hd⟩ := hext₀.of_agree hagree₀ hready₀ hB hfits
  exact ⟨d, hext, hd, hagree.symm.trans hagree'⟩

end Chain

/-! ## Reconciling the pool along a download -/

namespace Pool

/-- Reconciling replays the pending transactions over the canonical accounts
alone: two stores that read the same accounts give the same answer and the
same pool. -/
theorem reconcile_of_account {s₁ s₂ : Store} (h : s₁.account = s₂.account) (p : Pool) (b : Block) :
    (p.reconcile s₁ b).1 = (p.reconcile s₂ b).1 ∧ (p.reconcile s₁ b).2.1 = (p.reconcile s₂ b).2.1 := by
  unfold reconcile
  rw [h]
  dsimp only
  split <;> exact ⟨rfl, rfl⟩

/-- A reconciliation that does not panic succeeds: the pending transactions
outside the block are sifted, and the pool's bookkeeping stays sound. -/
theorem reconcile_quiet {p : Pool} (hp : p.Sound) {s : Store} {b : Block} (h : NoPanic (p.reconcile s b).1) :
    ∃ report p' s', p.reconcile s b = (.ok report, p', s') ∧ p'.Sound := by
  rcases hrec : p.reconcile s b with ⟨r, p', s'⟩
  have hreconciled := reconcile_reconciled hp s b
  rw [hrec] at hreconciled
  cases hreconciled with
  | sifted _ _ _ consistent => exact ⟨_, _, _, rfl, consistent.sound⟩
  | panicked _ _ _ panic => cases (h _ (by rw [hrec])).symm.trans panic

/-- Reconciling the pool `p` with each block of `bs` in turn, over the chain
that appending the blocks to `c` one by one leaves, never panics.  By
`reconcile_panics` it panics only where a pending transfer's replay meets a
party with the top nonce. -/
def ReplaysQuietly : Pool → Chain → List Block → Prop
  | _, _, [] => True
  | p, c, x :: rest =>
    NoPanic (p.reconcile ((Chain.append x).run.run c).2.store x).1 ∧
      ReplaysQuietly (p.reconcile ((Chain.append x).run.run c).2.store x).2.1 ((Chain.append x).run.run c).2 rest

/-- Replaying quietly along blocks depends on the chain's consensus records
alone.  The induction is on the blocks, over any two ready chains that
agree. -/
theorem ReplaysQuietly.of_agree {bs : List Block} (hfits : ∀ b ∈ bs, b.transactions.length < 2 ^ 64) :
    ∀ {p : Pool} {c c' : Chain}, p.ReplaysQuietly c bs → c.Agree c' → c.Ready → c'.Ready →
      p.ReplaysQuietly c' bs := by
  induction bs with
  | nil => exact fun _ _ _ _ => trivial
  | cons x rest ih =>
    intro p c c' ⟨hquiet, htail⟩ hagree hc hc'
    have hfit : x.transactions.length < 2 ^ 64 := hfits x List.mem_cons_self
    obtain ⟨-, hagree₁⟩ := hagree.append hc hc' x
    -- the chains the block leaves read the same accounts
    have haccount : ((Chain.append x).run.run c).2.store.account = ((Chain.append x).run.run c').2.store.account :=
      funext hagree₁.store.account
    refine ⟨(reconcile_of_account haccount p x).1 ▸ hquiet, ?_⟩
    rw [← (reconcile_of_account haccount p x).2]
    exact ih (fun b hb => hfits b (List.mem_cons_of_mem _ hb)) htail hagree₁ (hc.append hfit) (hc'.append hfit)

end Pool

/-! ## Two nodes of a network -/

namespace Net

/-- A block payload carries the block whose wire bytes it holds. -/
theorem decodeBlockPayload_toBytes {x : Block} (h : x.WireFits) : decodeBlockPayload x.toBytes = .ok x := by
  rw [decodeBlockPayload, Block.ofBytes, Block.toBytes, (Block.reads_toWire h).decode]
  rfl

end Net

namespace Sync
namespace Network

open Net

/-- Delivers the oldest message waiting at `me`, if there is one, and handles
it: one turn of a node's message loop. -/
def deliver (me : String) : NetM (Option Message) := do
  match ← pop me with
  | none => pure none
  | some m => do
    handle me m
    pure (some m)

variable {w : Network}

theorem run_deliver {me : String} {n : Node} {m : Message} {rest : List Message} (h : w.nodeAt me = some n)
    (hin : n.inbox = m :: rest) {w' : Network} (hhandle : (handle me m).run.run (w.put { n with inbox := rest }) = (.ok ⟨⟩, w')) :
    (deliver me).run.run w = (.ok (some m), w') := by
  unfold deliver
  rw [NetM.run_bind, run_pop h hin]
  dsimp only
  rw [NetM.run_bind, hhandle]
  rfl

/-- Reconciling the pool of a node keeps the pool and the store it leaves,
failure or not, and passes its failure on. -/
theorem run_reconcile {me : String} {n : Node} {b : Block} {r : Result ReconcileReport} {p' : Pool} {s' : Store}
    (h : w.nodeAt me = some n) (hrec : n.pool.reconcile n.chain.store b = (r, p', s')) :
    (reconcile me b).run.run w =
      (r.map fun _ => ⟨⟩, w.put { n with pool := p', chain := { n.chain with store := s' } }) := by
  unfold reconcile
  rw [NetM.run_bind, run_node h]
  dsimp only
  rw [hrec]
  cases r <;> rfl

/-- A node remembers a peer it already knows without any change. -/
theorem run_rememberPeer_known {me addr : String} {n : Node} (h : w.nodeAt me = some n) (hne : addr ≠ me)
    (hknown : addr ∈ n.peers.addrs) : (rememberPeer me addr).run.run w = (.ok ⟨⟩, w.put n) := by
  have hadd : n.peers.addPeer n.chain.store addr = (.ok false, n.peers, n.chain.store) := by
    unfold PeerSet.addPeer PeerSet.insert
    rw [if_pos (by simp [(PeerSet.contains_iff _ _).mpr hknown])]
  unfold rememberPeer
  simp only [bne_iff_ne, ne_eq, hne, not_false_eq_true, ↓reduceIte, NetM.run_bind,
    run_onPeers (f := fun ps s => ps.addPeer s addr) h hadd]
  rfl

theorem run_pop_nil {me : String} {n : Node} (h : w.nodeAt me = some n) (hin : n.inbox = []) :
    (pop me).run.run w = (.ok none, w) := by
  unfold pop
  rw [NetM.run_bind, run_node h]
  dsimp only
  rw [hin]
  rfl

/-- A node with nothing waiting handles nothing. -/
theorem run_deliver_idle {me : String} {n : Node} (h : w.nodeAt me = some n) (hin : n.inbox = []) :
    (deliver me).run.run w = (.ok none, w) := by
  unfold deliver
  rw [NetM.run_bind, run_pop_nil h hin]
  rfl

/-- Two nodes take turns, `me` first, each handling the oldest message
waiting at it, for `n` turns; the messages handled, in order.  Between two
nodes that only answer one another, one message at a time, this is the order
in which messages arrive. -/
def alternate (me peer : String) : Nat → NetM (List Message)
  | 0 => pure []
  | n + 1 => do
    let m ← deliver me
    let rest ← alternate peer me n
    pure (m.toList ++ rest)

theorem run_alternate_succ {me peer : String} {n : Nat} {m : Option Message} {ms : List Message}
    {w₁ w₂ : Network} (h₁ : (deliver me).run.run w = (.ok m, w₁))
    (h₂ : (alternate peer me n).run.run w₁ = (.ok ms, w₂)) :
    (alternate me peer (n + 1)).run.run w = (.ok (m.toList ++ ms), w₂) := by
  rw [alternate, NetM.run_bind, h₁]
  dsimp only
  rw [NetM.run_bind, h₂]
  rfl

/-- Two nodes with nothing waiting stay as they are, turn after turn. -/
theorem run_alternate_idle {me peer : String} {M P : Node} (hM : w.nodeAt me = some M) (hMin : M.inbox = [])
    (hP : w.nodeAt peer = some P) (hPin : P.inbox = []) (n : Nat) :
    (alternate me peer n).run.run w = (.ok [], w) := by
  induction n generalizing me peer M P with
  | zero => rfl
  | succ n ih => exact run_alternate_succ (run_deliver_idle hM hMin) (ih hP hPin hM hMin)

/-- The network shows `A` under `a` and `B` under `b`, two different
names. -/
structure Shows (w : Network) (a b : String) (A B : Node) : Prop where
  ne : a ≠ b
  left : w.nodeAt a = some A
  right : w.nodeAt b = some B

namespace Shows

variable {w : Network} {a b : String} {A B n : Node}

theorem name_left (h : w.Shows a b A B) : A.name = a := name_of_nodeAt h.left

theorem name_right (h : w.Shows a b A B) : B.name = b := name_of_nodeAt h.right

theorem put_left (h : w.Shows a b A B) (hn : n.name = a) : (w.put n).Shows a b n B := by
  refine ⟨h.ne, ?_, ?_⟩
  · rw [← hn]
    exact nodeAt_put_self (hn ▸ h.left)
  · rw [nodeAt_put_of_ne (hn ▸ h.ne.symm)]
    exact h.right

theorem put_right (h : w.Shows a b A B) (hn : n.name = b) : (w.put n).Shows a b A n := by
  refine ⟨h.ne, ?_, ?_⟩
  · rw [nodeAt_put_of_ne (hn ▸ h.ne)]
    exact h.left
  · rw [← hn]
    exact nodeAt_put_self (hn ▸ h.right)

/-- `a` sends a message that fits to `b`, which is on the network. -/
theorem sendTo_right {msg : Message} {frame : ByteArray} (h : w.Shows a b A B)
    (henc : msg.encode = .ok frame) (hreach : B.reachable = true) :
    ∃ w', (sendTo a b msg).run.run w = (.ok true, w') ∧
      w'.Shows a b { A with peers := A.peers.markConnected b true } { B with inbox := B.inbox ++ [msg] } := by
  have h₁ := h.put_right (n := { B with inbox := B.inbox ++ [msg] }) h.name_right
  exact ⟨_, run_sendTo henc h.right hreach h₁.left, h₁.put_left h.name_left⟩

/-- `b` sends a message that fits to `a`, which is on the network. -/
theorem sendTo_left {msg : Message} {frame : ByteArray} (h : w.Shows a b A B)
    (henc : msg.encode = .ok frame) (hreach : A.reachable = true) :
    ∃ w', (sendTo b a msg).run.run w = (.ok true, w') ∧
      w'.Shows a b { A with inbox := A.inbox ++ [msg] } { B with peers := B.peers.markConnected a true } := by
  have h₁ := h.put_left (n := { A with inbox := A.inbox ++ [msg] }) h.name_left
  exact ⟨_, run_sendTo henc h.left hreach h₁.right, h₁.put_right h.name_right⟩

/-- `a` answers a request for a block it stores with the block. -/
theorem serve_block {blk : Block} {m : KvMap} {bl : List Block} {frame : ByteArray} (h : w.Shows a b A B)
    (hw : A.chain.WellFormed m bl) (hb : Chain.Stored m blk)
    (henc : (blockMessage a blk).encode = .ok frame) (hreach : B.reachable = true) :
    ∃ w' cA, (handle a ⟨b, .getData .block blk.hash⟩).run.run w = (.ok ⟨⟩, w') ∧ Chain.Frame A.chain cA ∧
      cA.WellFormed m bl ∧ w'.Shows a b { A with chain := cA, peers := A.peers.markConnected b true }
        { B with inbox := B.inbox ++ [blockMessage a blk] } := by
  obtain ⟨cA, hget, hframe, hwA⟩ := hw.getBlock hb
  have h₁ : (w.put { A with chain := cA }).Shows a b { A with chain := cA } B := h.put_left h.name_left
  obtain ⟨w', hsend, h'⟩ := h₁.sendTo_right henc hreach
  refine ⟨w', cA, ?_, hframe, hwA, h'⟩
  show (handleGetData a b .block blk.hash).run.run w = _
  unfold handleGetData
  simp only [NetM.run_bind, run_onChain h.left hget, NetM.run_pure]
  rw [hsend]

/-- `a` answers a request for its inventory with the hashes of its blocks,
oldest first. -/
theorem serve_inventory {m : KvMap} {bl : List Block} {frame : ByteArray} (h : w.Shows a b A B)
    (hw : A.chain.WellFormed m bl)
    (henc : (⟨a, .inv .block (bl.map Block.hash).reverse⟩ : Message).encode = .ok frame)
    (hreach : B.reachable = true) :
    ∃ w' cA, (handle a ⟨b, .getBlocks⟩).run.run w = (.ok ⟨⟩, w') ∧ Chain.Frame A.chain cA ∧
      cA.WellFormed m bl ∧ w'.Shows a b { A with chain := cA, peers := A.peers.markConnected b true }
        { B with inbox := B.inbox ++ [⟨a, .inv .block (bl.map Block.hash).reverse⟩] } := by
  obtain ⟨cA, hhashes, hframe, hwA⟩ := hw.blockHashes_run
  have h₁ : (w.put { A with chain := cA }).Shows a b { A with chain := cA } B := h.put_left h.name_left
  obtain ⟨w', hsend, h'⟩ := h₁.sendTo_right henc hreach
  refine ⟨w', cA, ?_, hframe, hwA, h'⟩
  show (handleGetBlocks a b).run.run w = _
  unfold handleGetBlocks
  simp only [NetM.run_bind, run_onChain h.left hhashes]
  rw [hsend]
  rfl

/-- The hashes of an inventory that a node's chain does not know, when the
chain answers every lookup. -/
theorem filter_unknown {n : Node} {items : List Digest} {known : Digest → Bool}
    (hknown : ∀ x ∈ items, n.chain.containsBlock x = .ok (known x)) (w : Network) :
    (items.filterM fun h => do pure !(← n.chain.containsBlock h) : NetM (List Digest)).run.run w =
      (.ok (items.filter fun x => !known x), w) := by
  refine NetM.run_filterM (fun x hx w => ?_) w
  simp only [NetM.run_bind, NetM.run_lift, hknown x hx]
  rfl

/-- `b`, which pulls blocks, takes an inventory from `a` holding no hash it
does not know: it records `a` as the source of an empty download. -/
theorem take_inventory_known {items : List Digest} {known : Digest → Bool} (h : w.Shows a b A B)
    (hdl : B.settings.syncMode.downloadsBlocks = true)
    (hknown : ∀ x ∈ items, B.chain.containsBlock x = .ok (known x))
    (hnone : items.filter (fun x => !known x) = []) :
    ∃ w', (handle b ⟨a, .inv .block items⟩).run.run w = (.ok ⟨⟩, w') ∧
      w'.Shows a b A { B with inTransit := { source := some a, queue := [] } } := by
  refine ⟨_, ?_, h.put_right (n := { B with inTransit := { source := some a, queue := [] } }) h.name_right⟩
  show (handleBlockInv b a items).run.run w = _
  unfold handleBlockInv
  simp only [NetM.run_bind, run_node h.right, hdl, Bool.not_true, Bool.false_eq_true, ↓reduceIte,
    filter_unknown hknown, hnone, run_setNode]
  rfl

/-- `b`, which pulls blocks, takes an inventory from `a`: it queues the hashes
it does not know but the first, records `a` as their source, and asks `a` for
the first. -/
theorem take_inventory_unknown {items rest : List Digest} {known : Digest → Bool} {first : Digest}
    {frame : ByteArray} (h : w.Shows a b A B) (hdl : B.settings.syncMode.downloadsBlocks = true)
    (hknown : ∀ x ∈ items, B.chain.containsBlock x = .ok (known x))
    (hsome : items.filter (fun x => !known x) = first :: rest)
    (henc : (⟨b, .getData .block first⟩ : Message).encode = .ok frame) (hreach : A.reachable = true) :
    ∃ w', (handle b ⟨a, .inv .block items⟩).run.run w = (.ok ⟨⟩, w') ∧
      w'.Shows a b { A with inbox := A.inbox ++ [⟨b, .getData .block first⟩] }
        { B with inTransit := { source := some a, queue := rest }, peers := B.peers.markConnected a true } := by
  have h₁ := h.put_right (n := { B with inTransit := { source := some a, queue := rest } }) h.name_right
  obtain ⟨w', hsend, h'⟩ := h₁.sendTo_left henc hreach
  refine ⟨w', ?_, h'⟩
  show (handleBlockInv b a items).run.run w = _
  unfold handleBlockInv
  simp only [NetM.run_bind, run_node h.right, hdl, Bool.not_true, Bool.false_eq_true, ↓reduceIte,
    filter_unknown hknown, hsome, run_setNode, List.drop_succ_cons, List.drop_zero, List.head?_cons]
  rw [hsend]
  rfl

/-- `b` takes a block that extends its chain: it counts it, appends it,
reconciles its pool with it (a root relays it to its peers but `a`, which are
none) and then asks for the next block. -/
theorem take_block {blk : Block} {d : Chain} {len : UInt64} {rs : List Receipt} {report : ReconcileReport}
    {p' : Pool} {s' : Store} (h : w.Shows a b A B)
    (happ : (Chain.append blk).run.run B.chain = (.ok (.extended blk.hash len rs), d))
    (hrec : B.pool.reconcile d.store blk = (.ok report, p', s')) (hpeers : ∀ x ∈ B.peers.addrs, x = a) :
    ∃ w', (handleBlock b a blk).run.run w = (requestNextBlock b).run.run w' ∧
      w'.Shows a b A { B with blocksReceived := B.blocksReceived + 1, chain := { d with store := s' }, pool := p' } := by
  have h₁ := h.put_right (n := { B with blocksReceived := B.blocksReceived + 1 }) h.name_right
  have h₂ := h₁.put_right (n := { B with blocksReceived := B.blocksReceived + 1, chain := d }) h.name_right
  have h₃ := h₂.put_right
    (n := { B with blocksReceived := B.blocksReceived + 1, chain := { d with store := s' }, pool := p' }) h.name_right
  refine ⟨_, ?_, h₃⟩
  unfold handleBlock
  rw [NetM.run_bind, run_modifyNode h.right]
  dsimp only
  rw [NetM.run_bind, NetM.run_attemptResult_ok (run_onChain h₁.right happ)]
  dsimp only
  rw [NetM.run_bind, run_reconcile h₂.right hrec]
  dsimp only [Except.map]
  rw [NetM.run_bind, run_node h₃.right]
  dsimp only
  -- a root relays the block to its peers but `a`: there are none
  cases hroot : B.settings.isRoot
  · rfl
  · rw [if_pos rfl, NetM.run_bind, run_broadcast_of_only h₃.right hpeers]

/-- `b` takes a block that extends its chain, but reconciling its pool with
the block fails: the failure ends its turn before it asks for anything more,
so a download stops there with the rest of its queue unfetched. -/
theorem take_block_reconcile_error {blk : Block} {d : Chain} {len : UInt64} {rs : List Receipt}
    {e : LedgerError} {p' : Pool} {s' : Store} (h : w.Shows a b A B)
    (happ : (Chain.append blk).run.run B.chain = (.ok (.extended blk.hash len rs), d))
    (hrec : B.pool.reconcile d.store blk = (.error e, p', s')) :
    ∃ w', (handleBlock b a blk).run.run w = (.error e, w') ∧
      w'.Shows a b A { B with blocksReceived := B.blocksReceived + 1, chain := { d with store := s' }, pool := p' } := by
  have h₁ := h.put_right (n := { B with blocksReceived := B.blocksReceived + 1 }) h.name_right
  have h₂ := h₁.put_right (n := { B with blocksReceived := B.blocksReceived + 1, chain := d }) h.name_right
  have h₃ := h₂.put_right
    (n := { B with blocksReceived := B.blocksReceived + 1, chain := { d with store := s' }, pool := p' }) h.name_right
  refine ⟨_, ?_, h₃⟩
  unfold handleBlock
  rw [NetM.run_bind, run_modifyNode h.right]
  dsimp only
  rw [NetM.run_bind, NetM.run_attemptResult_ok (run_onChain h₁.right happ)]
  dsimp only
  rw [NetM.run_bind, run_reconcile h₂.right hrec]
  rfl

/-- With blocks left in its queue, `b` asks their source `a` for the next. -/
theorem ask_next {next : Digest} {rest : List Digest} {frame : ByteArray} (h : w.Shows a b A B)
    (hq : B.inTransit = { source := some a, queue := next :: rest })
    (henc : (⟨b, .getData .block next⟩ : Message).encode = .ok frame) (hreach : A.reachable = true) :
    ∃ w', (requestNextBlock b).run.run w = (.ok ⟨⟩, w') ∧
      w'.Shows a b { A with inbox := A.inbox ++ [⟨b, .getData .block next⟩] }
        { B with inTransit := { source := some a, queue := rest }, peers := B.peers.markConnected a true } := by
  have h₁ := h.put_right (n := { B with inTransit := { source := some a, queue := rest } }) h.name_right
  obtain ⟨w', hsend, h'⟩ := h₁.sendTo_left henc hreach
  refine ⟨w', ?_, h'⟩
  unfold requestNextBlock
  rw [NetM.run_bind, run_node h.right]
  dsimp only
  rw [hq]
  simp only [List.drop_succ_cons, List.drop_zero, List.head?_cons, NetM.run_bind, run_setNode]
  rw [hsend]
  rfl

/-- With nothing left in its queue, `b` ends the download, and a `full` node
checks its whole chain. -/
theorem finish_download {m : KvMap} {bl : List Block} (h : w.Shows a b A B) (hq : B.inTransit.queue = [])
    (hw : B.chain.WellFormed m bl) :
    ∃ w' c', (requestNextBlock b).run.run w = (.ok ⟨⟩, w') ∧ Chain.Frame B.chain c' ∧ c'.WellFormed m bl ∧
      w'.Shows a b A { B with inTransit := { B.inTransit with source := none }, chain := c' } := by
  have h₁ := h.put_right (n := { B with inTransit := { B.inTransit with queue := [] } }) h.name_right
  have h₂ := h₁.put_right (n := { B with inTransit := { B.inTransit with queue := [], source := none } })
    h.name_right
  have hq' : B.inTransit = { B.inTransit with queue := [] } := by
    rw [← hq]
  cases hfull : B.settings.syncMode == .full
  · -- a node that does not verify keeps its chain as it is
    refine ⟨(w.put { B with inTransit := { B.inTransit with queue := [] } }).put
      { B with inTransit := { B.inTransit with queue := [], source := none } }, B.chain, ?_,
      Chain.Frame.refl _, hw, ?_⟩
    · unfold requestNextBlock
      rw [NetM.run_bind, run_node h.right]
      dsimp only
      rw [hq]
      simp only [List.drop_nil, List.head?_nil, NetM.run_bind, run_setNode, run_modifyNode h₁.right, hfull]
      rfl
    · rw [hq'] at h₂ ⊢
      exact h₂
  · obtain ⟨c', hverify, hframe, hw'⟩ := hw.verify_run
    have h₃ := h₂.put_right
      (n := { B with inTransit := { B.inTransit with queue := [], source := none }, chain := c' }) h.name_right
    refine ⟨((w.put { B with inTransit := { B.inTransit with queue := [] } }).put
      { B with inTransit := { B.inTransit with queue := [], source := none } }).put
      { B with inTransit := { B.inTransit with queue := [], source := none }, chain := c' }, c', ?_,
      hframe, hw', ?_⟩
    · unfold requestNextBlock
      rw [NetM.run_bind, run_node h.right]
      dsimp only
      rw [hq]
      simp only [List.drop_nil, List.head?_nil, NetM.run_bind, run_setNode, run_modifyNode h₁.right, hfull,
        ↓reduceIte, run_onChain h₂.right hverify]
      rfl
    · rw [hq'] at h₃ ⊢
      exact h₃

/-- `b`, which knows `a` and pulls blocks, hears from `a` a height above its
own: it asks `a` for its inventory. -/
theorem take_version_above {height : UInt64} {frame : ByteArray} (h : w.Shows a b A B)
    (hknown : a ∈ B.peers.addrs) (hlt : B.chain.bestHeight < height)
    (hdl : B.settings.syncMode.downloadsBlocks = true)
    (henc : (⟨b, .getBlocks⟩ : Message).encode = .ok frame) (hreach : A.reachable = true) :
    ∃ w', (handle b ⟨a, .version height⟩).run.run w = (.ok ⟨⟩, w') ∧
      w'.Shows a b { A with inbox := A.inbox ++ [⟨b, .getBlocks⟩] }
        { B with peers := B.peers.markConnected a true } := by
  have h₁ : (w.put B).Shows a b A B := h.put_right h.name_right
  obtain ⟨w', hsend, h'⟩ := h₁.sendTo_left henc hreach
  refine ⟨w', ?_, h'⟩
  show (handleVersion b a height).run.run w = _
  unfold handleVersion
  rw [NetM.run_bind, run_rememberPeer_known h.right h.ne hknown]
  dsimp only
  rw [NetM.run_bind, run_node h₁.right]
  simp only [hlt, hdl, ↓reduceIte, NetM.run_bind, hsend]
  rfl

/-- `b`, which knows `a`, hears from `a` its own height: it sends nothing. -/
theorem take_version_level (h : w.Shows a b A B) (hknown : a ∈ B.peers.addrs) :
    (handle b ⟨a, .version B.chain.bestHeight⟩).run.run w = (.ok ⟨⟩, w.put B) := by
  show (handleVersion b a B.chain.bestHeight).run.run w = _
  unfold handleVersion
  rw [NetM.run_bind, run_rememberPeer_known h.right h.ne hknown]
  dsimp only
  rw [NetM.run_bind, run_node (h.put_right h.name_right).right]
  dsimp only
  rw [if_neg (UInt64.lt_irrefl _), if_neg (UInt64.lt_irrefl _)]
  rfl

/-- A block message that reads back is handled as its block. -/
theorem handle_blockMessage {x : Block} (hx : x.WireFits) (w : Network) :
    (handle b (blockMessage a x)).run.run w = (handleBlock b a x).run.run w := by
  simp only [handle, blockMessage, NetM.run_bind, NetM.run_lift, decodeBlockPayload_toBytes hx]

end Shows

/-! ## Fetching blocks one at a time -/

/-- The requests of `b` for the blocks `bs`, one after another, each followed
by `a`'s answer. -/
def fetches (a b : String) (bs : List Block) : List Message :=
  bs.flatMap fun x => [⟨b, .getData .block x.hash⟩, blockMessage a x]

@[simp] theorem fetches_nil (a b : String) : fetches a b [] = [] := rfl

@[simp] theorem fetches_cons (a b : String) (x : Block) (bs : List Block) :
    fetches a b (x :: bs) = ⟨b, .getData .block x.hash⟩ :: blockMessage a x :: fetches a b bs := rfl

/-- `b` is fetching the blocks `x :: rest` from `a`, which stores them as
records of `mA`: its request for `x` waits at `a`, the others wait in its
queue, oldest first, with `a` as their source, and appending them all takes
its ready chain to `d`.  `b`'s pool keeps sound bookkeeping, and reconciling
it with each of the blocks does not panic; `b` has no peer but `a`, both nodes
are on the network, and every message left to send fits a frame. -/
structure Fetching (w : Network) (a b : String) (A B : Node) (mA : KvMap) (blA : List Block) (x : Block)
    (rest : List Block) (d : Chain) : Prop where
  shows : w.Shows a b A B
  request : A.inbox = [⟨b, .getData .block x.hash⟩]
  idle : B.inbox = []
  queue : B.inTransit = { source := some a, queue := rest.map Block.hash }
  ready : B.chain.Ready
  ahead : Chain.Extends B.chain (x :: rest) d
  fits : ∀ y ∈ x :: rest, y.WireFits
  source : A.chain.WellFormed mA blA
  held : ∀ y ∈ x :: rest, Chain.Stored mA y
  frames : ∀ msg ∈ fetches a b (x :: rest), ∃ frame, msg.encode = .ok frame
  sound : B.pool.Sound
  replays : B.pool.ReplaysQuietly B.chain (x :: rest)
  peers : ∀ y ∈ B.peers.addrs, y = a
  reachLeft : A.reachable = true
  reachRight : B.reachable = true

/-- How a download from `a` ends, `d` being the chain it was to reach:
nothing waits at either node, `a` kept its chain but for what it read, and `b`
holds a well-formed chain that agrees with `d`, with nothing left to fetch. -/
structure Fetched (A : Node) (mA : KvMap) (blA : List Block) (d : Chain) (A' B' : Node) : Prop where
  idleLeft : A'.inbox = []
  idleRight : B'.inbox = []
  keeps : Chain.Frame A.chain A'.chain
  source : A'.chain.WellFormed mA blA
  reached : Chain.Agree d B'.chain
  wellFormed : ∃ m bl, B'.chain.WellFormed m bl
  done : B'.inTransit = {}

namespace Fetching

variable {w : Network} {a b : String} {A B : Node} {mA : KvMap} {blA : List Block} {x : Block}
  {rest : List Block} {d : Chain}

/-- One round of a download: `a` answers the request for `x` with the block,
and `b` appends it and reconciles its pool, which forgets only transaction
records: `b` is left on a ready chain that the rest of the blocks extend to
one that agrees with `d`, with a pool that replays quietly along them. -/
theorem round (h : Fetching w a b A B mA blA x rest d) :
    ∃ w₁ w₂ c₁ d' cA p', (deliver a).run.run w = (.ok (some ⟨b, .getData .block x.hash⟩), w₁) ∧
      (∀ w₃, (requestNextBlock b).run.run w₂ = (.ok ⟨⟩, w₃) →
        (deliver b).run.run w₁ = (.ok (some (blockMessage a x)), w₃)) ∧
      c₁.Ready ∧ Chain.Extends c₁ rest d' ∧ d.Agree d' ∧ Chain.Frame A.chain cA ∧ cA.WellFormed mA blA ∧
      p'.Sound ∧ p'.ReplaysQuietly c₁ rest ∧
      w₂.Shows a b { A with chain := cA, peers := A.peers.markConnected b true, inbox := [] }
        { B with blocksReceived := B.blocksReceived + 1, chain := c₁, pool := p', inbox := [] } := by
  obtain ⟨frame, henc⟩ := h.frames (blockMessage a x) (by simp)
  obtain ⟨len, rs, c₁, happ, hrest⟩ := h.ahead.cons_inv
  have hsizes : ∀ y ∈ x :: rest, y.transactions.length < 2 ^ 64 := fun y hy => (h.fits y hy).1
  have hsizes' : ∀ y ∈ rest, y.transactions.length < 2 ^ 64 := fun y hy => hsizes y (List.mem_cons_of_mem _ hy)
  -- reconciling the pool over the longer chain does not panic, so it succeeds
  obtain ⟨hquiet, htail⟩ := h.replays
  rw [happ] at hquiet htail
  obtain ⟨report, p', s', hrec, hsound⟩ := Pool.reconcile_quiet h.sound hquiet
  rw [hrec] at htail
  -- forgetting the evicted records keeps the chain ready and its consensus records
  have hready₁ : c₁.Ready := by
    have hready := h.ready.append (hsizes x List.mem_cons_self)
    rwa [happ] at hready
  have hchanges : c₁.store.ChangesWithin s' fun k => ∃ d : Digest, k = Keys.transaction d.bytes := by
    have hwithin := Pool.reconcile_changesWithin B.pool c₁.store x
    rwa [hrec] at hwithin
  have hK : ∀ k, (∃ d : Digest, k = Keys.transaction d.bytes) → ¬ Keys.Consensus k :=
    fun _ ⟨_, hk⟩ => hk ▸ Keys.not_consensus_transaction _
  have hready₂ := hready₁.of_store hchanges hK
  have hagree₂ : Chain.Agree c₁ { c₁ with store := s' } := ((Chain.Agree.refl c₁).of_store hready₁ hchanges hK).symm
  obtain ⟨d', hext, hdd', -⟩ := hrest.of_agree hagree₂ hready₁ hready₂ hsizes'
  -- `a` takes the request and sends the block
  have h₀ := h.shows.put_left (n := { A with inbox := [] }) h.shows.name_left
  obtain ⟨w₁, cA, hserve, hframe, hwA, h₁⟩ :=
    h₀.serve_block h.source (h.held x List.mem_cons_self) henc h.reachRight
  -- `b` takes the block, which extends its chain
  have hin : B.inbox ++ [blockMessage a x] = [blockMessage a x] := by rw [h.idle]; rfl
  have h₂ := h₁.put_right (n := { B with inbox := [] }) h.shows.name_right
  obtain ⟨w₂, hblock, h₃⟩ := h₂.take_block happ hrec h.peers
  refine ⟨w₁, w₂, _, d', cA, p', run_deliver h.shows.left h.request hserve, fun w₃ hnext => ?_, hready₂, hext,
    hdd', hframe, hwA, hsound, htail.of_agree hsizes' hagree₂ hready₁ hready₂, h₃⟩
  refine run_deliver h₁.right hin ?_
  rw [Shows.handle_blockMessage (h.fits x List.mem_cons_self)]
  exact hblock.trans hnext

/-- A round with blocks left after `x`: `b` asks for the next one, and the
download goes on from there, towards a chain that agrees with `d`. -/
theorem next {y : Block} (h : Fetching w a b A B mA blA x (y :: rest) d) :
    ∃ w₁ w₂ A' B' d', (deliver a).run.run w = (.ok (some ⟨b, .getData .block x.hash⟩), w₁) ∧
      (deliver b).run.run w₁ = (.ok (some (blockMessage a x)), w₂) ∧
      Fetching w₂ a b A' B' mA blA y rest d' ∧ d.Agree d' ∧ Chain.Frame A.chain A'.chain := by
  obtain ⟨w₁, w₂, c₁, d', cA, p', hA, hB, hready, hext, hdd', hframe, hwA, hsound, hreplays, h₂⟩ := h.round
  obtain ⟨frame, henc⟩ := h.frames ⟨b, .getData .block y.hash⟩ (by simp)
  obtain ⟨w₃, hask, h₃⟩ := h₂.ask_next h.queue henc h.reachLeft
  refine ⟨w₁, w₃, _, _, d', hA, hB w₃ hask, ⟨h₃, rfl, rfl, rfl, hready, hext,
    fun z hz => h.fits z (List.mem_cons_of_mem _ hz), hwA, fun z hz => h.held z (List.mem_cons_of_mem _ hz),
    fun msg hmsg => h.frames msg (by simp only [fetches_cons] at hmsg ⊢; simp [hmsg]), hsound, hreplays,
    by simpa using h.peers, h.reachLeft, h.reachRight⟩, hdd', hframe⟩

/-- The last round: `b` has nothing left to ask for, ends the download and
holds a chain that agrees with the one it was to reach. -/
theorem last (h : Fetching w a b A B mA blA x [] d) :
    ∃ w₁ w₂ A' B', (deliver a).run.run w = (.ok (some ⟨b, .getData .block x.hash⟩), w₁) ∧
      (deliver b).run.run w₁ = (.ok (some (blockMessage a x)), w₂) ∧
      w₂.Shows a b A' B' ∧ Fetched A mA blA d A' B' := by
  obtain ⟨w₁, w₂, c₁, d', cA, p', hA, hB, hready, hrest, hdd', hframe, hwA, -, -, h₂⟩ := h.round
  obtain rfl := hrest.eq_of_nil
  obtain ⟨-, m, bl, hw⟩ := hready
  have hq : B.inTransit.queue = [] := by rw [h.queue]; rfl
  obtain ⟨w₃, c', hfinish, hframe', hw', h₃⟩ := h₂.finish_download hq hw
  refine ⟨w₁, w₃, _, _, hA, hB w₃ hfinish, h₃, rfl, rfl, hframe, hwA,
    hdd'.trans ((Chain.Agree.refl _).of_frame (.refl _) hframe'), ⟨m, bl, hw'⟩, ?_⟩
  show { B.inTransit with source := none } = {}
  rw [h.queue]
  rfl

/-- A whole download: turn after turn, `a` answers each request and `b` asks
for the next block, until `b` holds a chain that agrees with the one it was to
reach and both fall silent.  The induction is on the blocks left after the
one requested, over the chain each round leaves to reach. -/
theorem run (h : Fetching w a b A B mA blA x rest d) :
    ∃ w' A' B', (∀ n, 2 * (rest.length + 1) ≤ n →
      (alternate a b n).run.run w = (.ok (fetches a b (x :: rest)), w')) ∧
      w'.Shows a b A' B' ∧ Fetched A mA blA d A' B' := by
  induction rest generalizing w A B x d with
  | nil =>
    obtain ⟨w₁, w₂, A', B', hA, hB, h₂, hdone⟩ := h.last
    refine ⟨w₂, A', B', fun n hn => ?_, h₂, hdone⟩
    obtain ⟨k, rfl⟩ : ∃ k, n = k + 2 := ⟨n - 2, by omega⟩
    exact run_alternate_succ hA
      (run_alternate_succ hB (run_alternate_idle h₂.left hdone.idleLeft h₂.right hdone.idleRight k))
  | cons y rest ih =>
    obtain ⟨w₁, w₂, A₂, B₂, d', hA, hB, h₂, hdd', hframe⟩ := h.next
    obtain ⟨w', A', B', hrun, h', hdone⟩ := ih h₂
    refine ⟨w', A', B', fun n hn => ?_, h',
      { hdone with keeps := hframe.trans hdone.keeps, reached := hdd'.trans hdone.reached }⟩
    obtain ⟨k, rfl⟩ : ∃ k, n = k + 2 := ⟨n - 2, by omega⟩
    exact run_alternate_succ hA (run_alternate_succ hB (hrun k (by simp only [List.length_cons] at hn; omega)))

end Fetching

/-! ## Catching up -/

/-- The messages of `b` catching up with `a` after hearing `a`'s height, in
the order they are handled: when `b` lacks the blocks `bs`, it asks for `a`'s
inventory, `a` sends the hashes of its blocks, `hashes`, and `b` fetches the
blocks it lacks one at a time.  When it lacks none, it sends nothing. -/
def catchUpTraffic (a b : String) (hashes : List Digest) : List Block → List Message
  | [] => []
  | x :: rest => ⟨b, .getBlocks⟩ :: ⟨a, .inv .block hashes⟩ :: fetches a b (x :: rest)

/-- `b`, as `B'`, has caught up with `a`, as `A'`, which was `A`: no message
waits at either, `a` kept its chain but for what it read, `b` holds the same
blocks as `a`, whose hashes are `hashes`, oldest first, the same tip and the
same accounts, it has nothing left to fetch, and its chain checks. -/
structure CaughtUp (A A' B' : Node) (hashes : List Digest) : Prop where
  idleLeft : A'.inbox = []
  idleRight : B'.inbox = []
  keeps : Chain.Frame A.chain A'.chain
  hashesLeft : (Chain.blockHashes.run.run A'.chain).1 = .ok hashes
  hashesRight : (Chain.blockHashes.run.run B'.chain).1 = .ok hashes
  tip : B'.chain.tip = A'.chain.tip
  accounts : ∀ addr, B'.chain.store.account addr = A'.chain.store.account addr
  queue : B'.inTransit.queue = []
  verify : (Chain.verify.run.run B'.chain).1 = .ok B'.chain.tip.length

/-- Two silent nodes whose well-formed chains agree have caught up: chains
that agree hold the same blocks. -/
theorem CaughtUp.intro {A A' B' : Node} {mA mB : KvMap} {blA blB : List Block}
    (hinA : A'.inbox = []) (hinB : B'.inbox = []) (hkeep : Chain.Frame A.chain A'.chain)
    (hwA : A'.chain.WellFormed mA blA) (hwB : B'.chain.WellFormed mB blB) (hagree : B'.chain.Agree A'.chain)
    (hq : B'.inTransit.queue = []) : CaughtUp A A' B' (blA.map Block.hash).reverse := by
  obtain rfl := Chain.WellFormed.blocks_eq_of_agree hagree hwB hwA
  obtain ⟨cA, hA, -⟩ := hwA.blockHashes_run
  obtain ⟨cB, hB, -⟩ := hwB.blockHashes_run
  exact ⟨hinA, hinB, hkeep, by rw [hA], by rw [hB], hagree.tip, hagree.store.account, hq, hwB.verify⟩

namespace Shows

variable {w : Network} {a b : String} {A B : Node}

/-- The inventory of a chain that runs ahead by `bs` is the inventory of the
chain behind, then the hashes of `bs`; the chain behind knows the first part
and none of the second. -/
theorem unknown_of_inventory {bs blB : List Block} {mB : KvMap} (hwB : B.chain.WellFormed mB blB)
    (hunknown : ∀ x ∈ bs, mB.get? (Keys.block x.hash.bytes) = none) :
    (((bs.reverse ++ blB).map Block.hash).reverse.filter fun y => !(mB.get? (Keys.block y.bytes)).isSome) =
      bs.map Block.hash := by
  rw [List.map_append, List.reverse_append, List.filter_append, List.map_reverse, List.reverse_reverse]
  have hknown : ((blB.map Block.hash).reverse.filter fun y => !(mB.get? (Keys.block y.bytes)).isSome) = [] := by
    refine List.filter_eq_nil_iff.mpr fun y hy => ?_
    obtain ⟨z, hz, rfl⟩ := List.mem_map.mp (List.mem_reverse.mp hy)
    obtain ⟨bytes, hget, -⟩ := hwB.stored z hz
    simp [hget]
  have hnew : (bs.map Block.hash).filter (fun y => !(mB.get? (Keys.block y.bytes)).isSome) = bs.map Block.hash := by
    refine List.filter_eq_self.mpr fun y hy => ?_
    obtain ⟨z, hz, rfl⟩ := List.mem_map.mp hy
    simp [hunknown z hz]
  rw [hknown, hnew, List.nil_append]

/-- `b`, which lacks exactly the blocks `bs` of `a`, takes `a`'s inventory
and fetches what it lacks, after which both nodes fall silent and `b` has
caught up. -/
theorem take_inventory_and_fetch {bs : List Block} {d : Chain} {mA mB : KvMap} {blA blB : List Block}
    (h : w.Shows a b A B) (hinA : A.inbox = [])
    (hinB : B.inbox = [⟨a, .inv .block (blA.map Block.hash).reverse⟩])
    (hwA : A.chain.WellFormed mA blA) (hwB : B.chain.WellFormed mB blB) (hreadyB : B.chain.Ready)
    (hbl : blA = bs.reverse ++ blB) (hunknown : ∀ x ∈ bs, mB.get? (Keys.block x.hash.bytes) = none)
    (hext : Chain.Extends B.chain bs d) (hagree : d.Agree A.chain) (hfits : ∀ x ∈ bs, x.WireFits)
    (hframes : ∀ msg ∈ fetches a b bs, ∃ frame, msg.encode = .ok frame)
    (hdl : B.settings.syncMode.downloadsBlocks = true) (hsound : B.pool.Sound)
    (hreplays : B.pool.ReplaysQuietly B.chain bs)
    (hpeers : ∀ y ∈ B.peers.addrs, y = a) (hreachA : A.reachable = true) (hreachB : B.reachable = true) :
    ∃ w' A' B', (∀ n, 2 * bs.length + 1 ≤ n →
      (alternate b a n).run.run w = (.ok (⟨a, .inv .block (blA.map Block.hash).reverse⟩ :: fetches a b bs), w')) ∧
      w'.Shows a b A' B' ∧ CaughtUp A A' B' (blA.map Block.hash).reverse := by
  have hknown : ∀ y ∈ (blA.map Block.hash).reverse,
      B.chain.containsBlock y = .ok (mB.get? (Keys.block y.bytes)).isSome := fun y _ => Chain.containsBlock_eq hwB y
  have hfilter := unknown_of_inventory hwB hunknown
  rw [← hbl] at hfilter
  -- `b` takes the inventory
  have h₀ := h.put_right (n := { B with inbox := [] }) h.name_right
  cases bs with
  | nil =>
    obtain rfl := hext.eq_of_nil
    obtain ⟨w₁, hinv, h₁⟩ := h₀.take_inventory_known hdl hknown hfilter
    refine ⟨w₁, A, _, fun n hn => ?_, h₁, CaughtUp.intro hinA rfl (Chain.Frame.refl _) hwA hwB hagree rfl⟩
    obtain ⟨k, rfl⟩ : ∃ k, n = k + 1 := ⟨n - 1, by omega⟩
    exact run_alternate_succ (run_deliver h.right hinB hinv) (run_alternate_idle h₁.left hinA h₁.right rfl k)
  | cons x rest =>
    obtain ⟨frame, henc⟩ := hframes ⟨b, .getData .block x.hash⟩ (by simp)
    obtain ⟨w₁, hinv, h₁⟩ := h₀.take_inventory_unknown hdl hknown hfilter henc hreachA
    have hfetch : Fetching w₁ a b _ _ mA blA x rest d :=
      ⟨h₁, by rw [hinA]; rfl, rfl, rfl, hreadyB, hext, hfits, hwA,
        fun y hy => hwA.stored y (by rw [hbl]; exact List.mem_append_left _ (List.mem_reverse.mpr hy)),
        hframes, hsound, hreplays, by simpa using hpeers, hreachA, hreachB⟩
    obtain ⟨w', A', B', hrun, h', hdone⟩ := hfetch.run
    obtain ⟨m', bl', hw'⟩ := hdone.wellFormed
    refine ⟨w', A', B', fun n hn => ?_, h',
      CaughtUp.intro hdone.idleLeft hdone.idleRight hdone.keeps hdone.source hw'
        (hdone.reached.symm.trans (hagree.of_frame (.refl d) hdone.keeps)) (by rw [hdone.done])⟩
    obtain ⟨k, rfl⟩ : ∃ k, n = k + 1 := ⟨n - 1, by omega⟩
    exact run_alternate_succ (run_deliver h.right hinB hinv)
      (hrun k (by simp only [List.length_cons] at hn; omega))

/-- `b`, which knows `a` and pulls blocks, hears from `a` a height above its
own, and `a` answers the request for its inventory that follows: after these
two turns `b` holds `a`'s inventory, `a` having only read its chain. -/
theorem ask_inventory {mA : KvMap} {blA : List Block} {fr₁ fr₂ : ByteArray} (h : w.Shows a b A B)
    (hinA : A.inbox = []) (hinB : B.inbox = [version a A.chain.bestHeight]) (hwA : A.chain.WellFormed mA blA)
    (hlt : B.chain.bestHeight < A.chain.bestHeight) (hdl : B.settings.syncMode.downloadsBlocks = true)
    (hknown : a ∈ B.peers.addrs) (henc₁ : (⟨b, .getBlocks⟩ : Message).encode = .ok fr₁)
    (henc₂ : (⟨a, .inv .block (blA.map Block.hash).reverse⟩ : Message).encode = .ok fr₂)
    (hreachA : A.reachable = true) (hreachB : B.reachable = true) :
    ∃ w₁ w₂ cA, (deliver b).run.run w = (.ok (some (version a A.chain.bestHeight)), w₁) ∧
      (deliver a).run.run w₁ = (.ok (some ⟨b, .getBlocks⟩), w₂) ∧ Chain.Frame A.chain cA ∧
      cA.WellFormed mA blA ∧
      w₂.Shows a b { A with chain := cA, peers := A.peers.markConnected b true, inbox := [] }
        { B with peers := B.peers.markConnected a true, inbox := [⟨a, .inv .block (blA.map Block.hash).reverse⟩] } := by
  have h₀ := h.put_right (n := { B with inbox := [] }) h.name_right
  obtain ⟨w₁, hver, h₁⟩ := h₀.take_version_above hknown hlt hdl henc₁ hreachA
  have h₁' := h₁.put_left (n := { A with inbox := [] }) h.name_left
  obtain ⟨w₂, cA, hinv, hframe, hwA', h₂⟩ := h₁'.serve_inventory hwA henc₂ hreachB
  exact ⟨w₁, w₂, cA, run_deliver h.right hinB hver, run_deliver h₁.left (by rw [hinA]; rfl) hinv, hframe, hwA', h₂⟩

end Shows

/-- A node catches up with a peer it trails.  Take two nodes `a` and `b` of a
network, with chains ready to run on, where `b`'s chain trails `a`'s by the
blocks `bs` (a chain that agrees with `b`'s is extended by `bs` to one that
agrees with `a`'s), `b` pulls blocks, knows `a` and no other peer, has nothing
queued and a pool with sound bookkeeping whose reconciliation with each block
of `bs` in turn does not panic, no
message waits at `a`, both are on the network, and every message of the
exchange fits a frame.  When `b` hears `a`'s height,
the two nodes taking turns exchange exactly the messages of `catchUpTraffic`:
`b` asks for each block it lacks once, in chain order.  After as many turns
as those messages both fall silent, and `b` has caught up with `a`: the same
block hashes, tip and accounts, nothing left to fetch, and a chain that
checks.  The same holds when `b` starts from `a`'s inventory, `hashes`. -/
theorem catch_up_converges (w : Network) (a b : String) (A B : Node) (bs : List Block) (hashes : List Digest)
    (hshow : w.Shows a b A B) (hreadyA : A.chain.Ready) (hreadyB : B.chain.Ready)
    (htrail : Chain.Trails B.chain bs A.chain) (hsizes : ∀ x ∈ bs, x.transactions.length < 2 ^ 64)
    (hhashes : (Chain.blockHashes.run.run A.chain).1 = .ok hashes)
    (hframes : ∀ msg ∈ catchUpTraffic a b hashes bs, ∃ frame, msg.encode = .ok frame)
    (hdl : B.settings.syncMode.downloadsBlocks = true) (hknown : a ∈ B.peers.addrs)
    (honly : ∀ x ∈ B.peers.addrs, x = a) (hsound : B.pool.Sound) (hreplays : B.pool.ReplaysQuietly B.chain bs)
    (hqueue : B.inTransit.queue = [])
    (hinA : A.inbox = []) (hreachA : A.reachable = true) (hreachB : B.reachable = true) :
    (B.inbox = [version a A.chain.bestHeight] →
      ∃ w' A' B', (∀ n, 2 * bs.length + 3 ≤ n →
        (alternate b a n).run.run w = (.ok (version a A.chain.bestHeight :: catchUpTraffic a b hashes bs), w')) ∧
        w'.Shows a b A' B' ∧ CaughtUp A A' B' hashes) ∧
    (B.inbox = [⟨a, .inv .block hashes⟩] →
      ∃ w' A' B', (∀ n, 2 * bs.length + 1 ≤ n →
        (alternate b a n).run.run w = (.ok (⟨a, .inv .block hashes⟩ :: fetches a b bs), w')) ∧
        w'.Shows a b A' B' ∧ CaughtUp A A' B' hashes) := by
  obtain ⟨mA, blA, hwA⟩ := hreadyA.wellFormed
  obtain ⟨mB, blB, hwB⟩ := hreadyB.wellFormed
  have hbl := htrail.blocks hsizes hwA hwB
  have hunknown := htrail.unknown hsizes hwB
  obtain ⟨d, hext, -, hdA⟩ := htrail.extend hreadyB hsizes
  have hfits := hext.wireFits hsizes
  obtain rfl : hashes = (blA.map Block.hash).reverse := by
    obtain ⟨cA, hrun, -⟩ := hwA.blockHashes_run
    rw [hrun] at hhashes
    exact (Except.ok.inj hhashes).symm
  have hfetch : ∀ msg ∈ fetches a b bs, ∃ frame, msg.encode = .ok frame := by
    intro msg hmsg
    cases bs with
    | nil => simp at hmsg
    | cons x rest => exact hframes msg (List.mem_cons_of_mem _ (List.mem_cons_of_mem _ hmsg))
  refine ⟨fun hinB => ?_, fun hinB => hshow.take_inventory_and_fetch hinA hinB hwA hwB hreadyB hbl hunknown hext
    hdA hfits hfetch hdl hsound hreplays honly hreachA hreachB⟩
  have hheightA := hwA.bestHeight_succ
  have hheightB := hwB.bestHeight_succ
  rw [hbl, List.length_append, List.length_reverse] at hheightA
  cases bs with
  | nil =>
    -- the same height: `b` sends nothing
    obtain rfl := hext.eq_of_nil
    have hbest : A.chain.bestHeight = B.chain.bestHeight := UInt64.toNat_inj.mp (by simp at hheightA; omega)
    have h₀ := hshow.put_right (n := { B with inbox := [] }) hshow.name_right
    have hver : (handle b (version a A.chain.bestHeight)).run.run (w.put { B with inbox := [] }) =
        (.ok ⟨⟩, (w.put { B with inbox := [] }).put { B with inbox := [] }) := by
      rw [hbest]
      exact h₀.take_version_level hknown
    have h₁ := h₀.put_right (n := { B with inbox := [] }) hshow.name_right
    refine ⟨_, A, { B with inbox := [] }, fun n hn => ?_, h₁, CaughtUp.intro hinA rfl (.refl _) hwA hwB hdA hqueue⟩
    obtain ⟨k, rfl⟩ : ∃ k, n = k + 1 := ⟨n - 1, by omega⟩
    exact run_alternate_succ (run_deliver hshow.right hinB hver) (run_alternate_idle h₁.left hinA h₁.right rfl k)
  | cons x rest =>
    -- `b` is behind: it asks for the inventory, then fetches what it lacks
    have hlt : B.chain.bestHeight < A.chain.bestHeight :=
      UInt64.lt_iff_toNat_lt.mpr (by simp only [List.length_cons] at hheightA; omega)
    obtain ⟨fr₁, henc₁⟩ := hframes ⟨b, .getBlocks⟩ List.mem_cons_self
    obtain ⟨fr₂, henc₂⟩ := hframes _ (List.mem_cons_of_mem _ List.mem_cons_self)
    obtain ⟨w₁, w₂, cA, hver, hgb, hframe, hwA', h₂⟩ :=
      hshow.ask_inventory hinA hinB hwA hlt hdl hknown henc₁ henc₂ hreachA hreachB
    obtain ⟨w', A', B', hrun, h', hcaught⟩ := h₂.take_inventory_and_fetch rfl rfl hwA' hwB hreadyB hbl hunknown
      hext (hdA.of_frame (.refl d) hframe) hfits hfetch hdl hsound hreplays (by simpa using honly) hreachA hreachB
    refine ⟨w', A', B', fun n hn => ?_, h', { hcaught with keeps := hframe.trans hcaught.keeps }⟩
    obtain ⟨k, rfl⟩ : ∃ k, n = k + 2 := ⟨n - 2, by omega⟩
    exact run_alternate_succ hver (run_alternate_succ hgb (hrun k (by omega)))

/-- Two nodes: `a` on the chain `cA`, and `b` on `cB` with the pool `p`,
which knows only `a` and has just heard `a`'s height. -/
def trailingPair (cA cB : Chain) (p : Pool) : Network :=
  { nodes := [{ name := "a", chain := cA },
      { name := "b", chain := cB, pool := p, peers := { peers := [{ addr := "a" }] },
        inbox := [version "a" cA.bestHeight] }],
    clock := 0 }

/-- `b`, on the funded chain of one block with `Ledger.toppedTransfer`
pending, hears the height of `a`, whose chain `minedBlock` extends by one
block.  The transfer is not in the block and its parties hold nonce 0 on the
longer chain, so reconciling the pool with the block does not panic; after
the five messages of the exchange `b` holds `a`'s hashes, tip and accounts. -/
theorem catch_up_converges_mined :
    ∃ c₀ c₁ p hashes, Chain.bootstrap {} Chain.fundedGenesis = .ok c₀ ∧ c₁.tip.length = 2 ∧
      Chain.Trails c₀ [minedBlock] c₁ ∧ p.transactions = [Ledger.toppedTransfer] ∧ p.Sound ∧
      p.ReplaysQuietly c₀ [minedBlock] ∧ (Chain.blockHashes.run.run c₁).1 = .ok hashes ∧
      ∃ w' A' B', (∀ n, 5 ≤ n → (alternate "b" "a" n).run.run (trailingPair c₁ c₀ p) =
          (.ok (version "a" c₁.bestHeight :: catchUpTraffic "a" "b" hashes [minedBlock]), w')) ∧
        w'.Shows "a" "b" A' B' ∧ CaughtUp { name := "a", chain := c₁ } A' B' hashes := by
  obtain ⟨c₀, rs, c₁, hboot, hg₀, -, happ, -, hlen₁, hsender, hrecipient⟩ := Chain.grown_fundedChain
  obtain ⟨r, p, s, -, hsound, -, htxs⟩ := Pool.admits_toppedTransfer
  have hfits : minedBlock.transactions.length < 2 ^ 64 := by decide
  -- both chains are ready, and `minedBlock` takes the shorter to the longer
  obtain ⟨m₀, bl₀, hw₀⟩ := (Chain.reachable_iff_grown.mpr ⟨_, hg₀⟩).wellFormed
  have hready₀ : c₀.Ready := ⟨Chain.inMemory_bootstrap ⟨{}, rfl⟩ hboot, m₀, bl₀, hw₀⟩
  have hready₁ : c₁.Ready := by
    have hready := hready₀.append hfits
    rwa [happ] at hready
  have htrail : Chain.Trails c₀ [minedBlock] c₁ := ⟨c₀, c₁, hready₀, .refl c₀, .cons happ (.nil c₁), .refl c₁⟩
  -- the replay of the pool over `c₁` starts with the transfer, over the
  -- canonical accounts, where neither party is at the top nonce
  have hnew : Ledger.toppedTransfer.hash ∉ minedBlock.transactions.map SignedTx.hash := by
    decide +kernel
  have hcalm : ¬ p.ReplayMeetsTop c₁.store minedBlock := by
    rintro ⟨pre, t, rest, kept, evicted, o, hsieve, hsplit, a, acct, hparty, hlookup, htop⟩
    have hfilter : p.transactions.filter (fun t => t.hash ∉ minedBlock.transactions.map SignedTx.hash) =
        [Ledger.toppedTransfer] := by
      rw [htxs]
      exact List.filter_cons_of_pos (decide_eq_true hnew)
    rw [hfilter] at hsplit
    obtain ⟨rfl, rfl⟩ : pre = [] ∧ t = Ledger.toppedTransfer := by
      cases pre with
      | nil =>
        simp only [List.nil_append, List.cons.injEq] at hsplit
        exact ⟨rfl, hsplit.1.symm⟩
      | cons x pre => simp at hsplit
    cases hsieve
    rw [Overlay.lookup_empty] at hlookup
    have hzero : acct.nonce = 0 := by
      rcases hparty with rfl | rfl
      · rw [hlookup] at hsender
        simpa [Except.toOption] using hsender
      · rw [hlookup] at hrecipient
        simpa [Except.toOption] using hrecipient
    rw [hzero] at htop
    simp at htop
  have hquiet : p.ReplaysQuietly c₀ [minedBlock] := by
    refine ⟨?_, trivial⟩
    rw [happ]
    by_contra hpanic
    exact hcalm (Pool.reconcile_panics hsound (panics_iff_not_noPanic.mpr hpanic))
  -- the exchange: `b`'s request, `a`'s inventory of two hashes, the block's request and the block
  obtain ⟨m₁, bl₁, hw₁⟩ := hready₁.wellFormed
  obtain ⟨c', hhashes, -⟩ := hw₁.blockHashes_run
  have hlength : bl₁.length = 2 := by
    rw [hw₁.length, hlen₁]
    rfl
  have hframes : ∀ msg ∈ catchUpTraffic "a" "b" (bl₁.map Block.hash).reverse [minedBlock],
      ∃ frame, msg.encode = .ok frame := by
    intro msg hmsg
    simp only [catchUpTraffic, fetches_cons, fetches_nil, List.mem_cons, List.not_mem_nil, or_false] at hmsg
    rcases hmsg with rfl | rfl | rfl | rfl
    · exact ⟨_, Net.Message.encode_eq_ok_iff.mpr ⟨rfl, by decide +kernel⟩⟩
    · apply Net.Message.encode_inv_of_le
      simp only [List.length_reverse, List.length_map, hlength]
      decide
    · exact ⟨_, Net.Message.encode_eq_ok_iff.mpr ⟨rfl, by decide +kernel⟩⟩
    · exact ⟨_, Net.Message.encode_eq_ok_iff.mpr ⟨rfl, by decide +kernel⟩⟩
  have hshow : (trailingPair c₁ c₀ p).Shows "a" "b" { name := "a", chain := c₁ }
      { name := "b", chain := c₀, pool := p, peers := { peers := [{ addr := "a" }] },
        inbox := [version "a" c₁.bestHeight] } :=
    ⟨by decide, rfl, rfl⟩
  have hconv := (catch_up_converges (trailingPair c₁ c₀ p) "a" "b" _ _ [minedBlock] _ hshow hready₁ hready₀
    htrail (by simpa using hfits) (by rw [hhashes]) hframes rfl (by simp [PeerSet.addrs])
    (by simp [PeerSet.addrs]) hsound hquiet rfl rfl rfl rfl).1 rfl
  exact ⟨c₀, c₁, p, _, hboot, hlen₁, htrail, htxs, hsound, hquiet, by rw [hhashes], hconv⟩

end Network
end Sync
end PowChain
