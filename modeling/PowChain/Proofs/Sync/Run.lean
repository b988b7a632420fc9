import PowChain.Sync.Engine
import PowChain.Proofs.Net.Frame
import PowChain.Proofs.Chain.Consensus

/-!
# Running the sync network

A network computation runs in `NetM`: it may fail, and the network it leaves
behind is kept either way.  This file gives each operation the message
handlers are built from a pure equation over the nodes the network shows under
each name (`Network.nodeAt`), so that proofs about the handlers cite the
equations and never unfold the monad:

* `NetM.run_bind` and its companions reduce a `do` block step by step;
* `Network.put` is the network with one node replaced, read back by
  `nodeAt_put_self` and `nodeAt_put_of_ne`;
* `run_onChain`, `run_onPeers`: an operation on a node's chain or peer set
  keeps what it leaves, failure or not;
* `run_sendTo`: a message whose frame fits reaches a node on the network as
  sent, at the end of its inbox, and the sender marks the peer connected;
* `run_pop`: a delivery takes the oldest message;
* `run_broadcast_of_only`: a broadcast that spares the one peer a node knows
  sends nothing.
-/

namespace PowChain
namespace Sync

/-! ## The monad -/

namespace NetM

variable {α β : Type}

theorem run_bind (x : NetM α) (f : α → NetM β) (w : Network) :
    (x >>= f).run.run w = match x.run.run w with
      | (.ok a, w') => (f a).run.run w'
      | (.error e, w') => (.error e, w') := by
  simp only [ExceptT.run_bind, StateT.run_bind]
  rcases x.run.run w with ⟨_ | _, w'⟩ <;> rfl

@[simp] theorem run_get (w : Network) : (get : NetM Network).run.run w = (.ok w, w) := rfl

@[simp] theorem run_modify (f : Network → Network) (w : Network) :
    (modify f : NetM PUnit).run.run w = (.ok ⟨⟩, f w) := rfl

@[simp] theorem run_pure (a : α) (w : Network) : (pure a : NetM α).run.run w = (.ok a, w) := rfl

@[simp] theorem run_throw (e : LedgerError) (w : Network) :
    (throw e : NetM α).run.run w = (.error e, w) := rfl

/-- A computation of `Result` runs without touching the network. -/
@[simp] theorem run_lift (r : Result α) (w : Network) : (liftM r : NetM α).run.run w = (r, w) := by
  cases r <;> rfl

theorem run_tryCatch (x : NetM α) (h : LedgerError → NetM α) (w : Network) :
    (tryCatch x h).run.run w = match x.run.run w with
      | (.ok a, w') => (.ok a, w')
      | (.error e, w') => (h e).run.run w' := by
  show (ExceptT.tryCatch x h).run.run w = _
  simp only [ExceptT.tryCatch, ExceptT.run_mk, StateT.run_bind]
  rcases hx : x.run.run w with ⟨r, w'⟩
  have hx' : StateT.run x w = (r, w') := hx
  rw [hx']
  cases r <;> rfl

/-- A computation that succeeds answers its value as a result. -/
theorem run_attemptResult_ok {x : NetM α} {a : α} {w w' : Network} (h : x.run.run w = (.ok a, w')) :
    (attemptResult x).run.run w = (.ok (.ok a), w') := by
  unfold attemptResult tryRecover
  rw [run_tryCatch, run_bind, h]
  rfl

/-- Filtering by a predicate that reads the network without changing it
filters by its answers. -/
theorem run_filterM {l : List α} {p : α → NetM Bool} {q : α → Bool}
    (hp : ∀ x ∈ l, ∀ w, (p x).run.run w = (.ok (q x), w)) (w : Network) :
    (l.filterM p).run.run w = (.ok (l.filter q), w) := by
  -- the accumulator holds what passed so far, newest first
  have haux : ∀ (l acc : List α), (∀ x ∈ l, ∀ w, (p x).run.run w = (.ok (q x), w)) →
      (List.filterAuxM p l acc).run.run w = (.ok ((l.filter q).reverse ++ acc), w) := by
    intro l
    induction l with
    | nil => exact fun _ _ => rfl
    | cons x xs ih =>
      intro acc hp
      rw [List.filterAuxM, run_bind, hp x List.mem_cons_self]
      dsimp only
      rw [ih _ fun y hy => hp y (List.mem_cons_of_mem _ hy)]
      cases hq : q x <;> simp [hq]
  unfold List.filterM
  rw [run_bind, haux l [] hp]
  simp only [List.append_nil, List.reverse_reverse]
  rfl

end NetM

/-! ## The nodes a network shows -/

namespace Network

/-- The node a network shows under a name: the first that carries it. -/
def nodeAt (w : Network) (name : String) : Option Node := w.nodes.find? (·.name == name)

/-- The network with `n` in place of every node of its name. -/
def put (w : Network) (n : Node) : Network :=
  { w with nodes := w.nodes.map fun m => if m.name == n.name then n else m }

variable {w : Network} {n m : Node} {x : String}

theorem name_of_nodeAt (h : w.nodeAt x = some n) : n.name = x := by
  simpa using List.find?_some h

theorem nodeAt_put_self (h : w.nodeAt n.name = some m) : (w.put n).nodeAt n.name = some n := by
  unfold nodeAt put at *
  rw [List.find?_map]
  -- replacing keeps every name that is `n`'s
  have hp : ((fun k : Node => k.name == n.name) ∘ fun k => if k.name == n.name then n else k) =
      (·.name == n.name) := by
    funext k
    by_cases hk : k.name = n.name <;> simp [hk]
  rw [hp, h]
  simp [name_of_nodeAt h]

theorem nodeAt_put_of_ne (hx : x ≠ n.name) : (w.put n).nodeAt x = w.nodeAt x := by
  unfold nodeAt put
  rw [List.find?_map]
  -- a node of `n`'s name carries no other name, before or after
  have hp : ((fun k : Node => k.name == x) ∘ fun k => if k.name == n.name then n else k) =
      (·.name == x) := by
    funext k
    by_cases hk : k.name = n.name
    · simp [hk]
    · simp [hk]
  rw [hp]
  cases hfind : w.nodes.find? (·.name == x) with
  | none => rfl
  | some k =>
    have hk : k.name = x := by simpa using List.find?_some hfind
    simp [hk, hx]

end Network

/-! ## Operations on nodes -/

namespace Network

open Net

variable {w : Network} {n : Node} {name : String}

theorem run_node? (name : String) (w : Network) : (node? name).run.run w = (.ok (w.nodeAt name), w) :=
  rfl

theorem run_node (h : w.nodeAt name = some n) : (node name).run.run w = (.ok n, w) := by
  unfold node
  rw [NetM.run_bind, run_node?]
  simp only [h]
  rfl

theorem run_setNode (n : Node) (w : Network) : (setNode n).run.run w = (.ok ⟨⟩, w.put n) := rfl

theorem run_modifyNode {f : Node → Node} (h : w.nodeAt name = some n) :
    (modifyNode name f).run.run w = (.ok ⟨⟩, w.put (f n)) := by
  unfold modifyNode
  rw [NetM.run_bind, run_node h]
  rfl

/-- A chain operation on a node runs on its chain; the chain it leaves is
kept, and its answer is passed on. -/
theorem run_onChain {α : Type} {x : ChainM α} {r : Result α} {c : Chain} (h : w.nodeAt name = some n)
    (hx : x.run.run n.chain = (r, c)) :
    (onChain name x).run.run w = (r, w.put { n with chain := c }) := by
  unfold onChain
  rw [NetM.run_bind, run_node h]
  dsimp only
  rw [hx]
  cases r <;> rfl

/-- A peer-set operation on a node keeps the peer set and the store it
leaves, and passes its answer on. -/
theorem run_onPeers {α : Type} {f : PeerSet → Store → Result α × PeerSet × Store} {r : Result α}
    {ps : PeerSet} {s : Store} (h : w.nodeAt name = some n) (hf : f n.peers n.chain.store = (r, ps, s)) :
    (onPeers name f).run.run w = (r, w.put { n with peers := ps, chain := { n.chain with store := s } }) := by
  unfold onPeers
  rw [NetM.run_bind, run_node h]
  dsimp only
  rw [hf]
  cases r <;> rfl

variable {m : Message} {frame : ByteArray} {dest me : String} {D M : Node}

/-- A message whose frame fits reaches a node on the network as the message
sent, at the end of its inbox. -/
theorem run_transmit (henc : m.encode = .ok frame) (hD : w.nodeAt dest = some D)
    (hreach : D.reachable = true) :
    (transmit dest m).run.run w = (.ok ⟨⟩, w.put { D with inbox := D.inbox ++ [m] }) := by
  unfold transmit
  simp only [NetM.run_bind, NetM.run_lift, henc, Message.decode_of_encode henc, run_node?, hD, hreach]
  rfl

/-- A send that arrives: the message is at the end of the inbox of `dest`,
and `me` marks `dest` connected. -/
theorem run_sendTo (henc : m.encode = .ok frame) (hD : w.nodeAt dest = some D)
    (hreach : D.reachable = true) (hM : (w.put { D with inbox := D.inbox ++ [m] }).nodeAt me = some M) :
    (sendTo me dest m).run.run w =
      (.ok true, (w.put { D with inbox := D.inbox ++ [m] }).put
        { M with peers := M.peers.markConnected dest true }) := by
  unfold sendTo
  rw [NetM.run_bind, NetM.run_tryCatch, NetM.run_bind, run_transmit henc hD hreach]
  simp only [NetM.run_pure, ↓reduceIte]
  rw [NetM.run_bind, run_modifyNode hM]
  rfl

/-- Delivery takes the oldest message of a node's inbox. -/
theorem run_pop {rest : List Message} (h : w.nodeAt me = some n) (hin : n.inbox = m :: rest) :
    (pop me).run.run w = (.ok (some m), w.put { n with inbox := rest }) := by
  unfold pop
  rw [NetM.run_bind, run_node h]
  dsimp only
  rw [hin]
  rfl

/-- A broadcast from a node that knows no peer but `src`, sparing `src`,
sends nothing. -/
theorem run_broadcast_of_only {src : String} (h : w.nodeAt me = some n)
    (honly : ∀ x ∈ n.peers.addrs, x = src) : (broadcast me m (some src)).run.run w = (.ok ⟨⟩, w) := by
  unfold broadcast
  rw [NetM.run_bind, run_node h]
  dsimp only
  generalize n.peers.addrs = addrs at honly
  induction addrs with
  | nil => rfl
  | cons x xs ih =>
    obtain rfl := honly x List.mem_cons_self
    rw [List.forIn_cons]
    simp only [bne_self_eq_false, Bool.false_eq_true, ↓reduceIte, pure_bind]
    exact ih fun y hy => honly y (List.mem_cons_of_mem _ hy)

end Network
end Sync
end PowChain
