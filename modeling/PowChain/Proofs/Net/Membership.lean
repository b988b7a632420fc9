import Mathlib.Data.String.Basic
import PowChain.Proofs.Store.View
import PowChain.Proofs.Codec.RoundTrip
import PowChain.Proofs.Text.Utf8
import PowChain.Net.Peers

/-!
# Peer membership and its records

A peer set backed by the store keeps a record of each member under `peers/`
and the member's address.  This file proves what the records and the members
have in common along any run of the set's operations.

* `PeerNode.reads_toWire` — a peer's record reads back as the peer.
* `PeerSet.insertSorted_perm`, `PeerSet.inOrder_insertSorted` — members stay
  in address order, and a new address is one more member.
* `PeerSet.Mirrors` — the invariant: members in address order and within the
  limit, the keys under `peers/` exactly the members' keys, each record reading
  back as its member but for the connection.  Inserting (and so adding), marking
  and a remove that goes through keep it (`Mirrors.insert`, `Mirrors.remove`,
  `Mirrors.markConnected`); reading the set back from a store it mirrors gives
  its members, none connected (`Mirrors.load`).
* Failures: an insert that fails changes nothing (`insert_of_error`), but a
  remove whose delete fails has dropped the member while its record stays
  (`remove_of_error`).
* Reading a set back takes every readable record, whatever the limit
  (`load_clean`): a store of more records than the limit reads back as a set
  over the limit (`load_two_over_one`).
-/

namespace PowChain

/-! ## A peer's record -/

namespace Wire

theorem reads_u8 (v : UInt8) : Reads readU8 (u8 v) v :=
  (reads_take (u8 v)).bind_pure rfl

theorem reads_bool (b : Bool) : Reads readBool (bool b) b :=
  (reads_u8 _).bind_pure (by cases b <;> rfl)

theorem Reads.map {α β : Type} {r : Reader α} {w : ByteArray} {v : α} (h : Reads r w v) (f : α → β) :
    Reads (f <$> r) w (f v) := by
  rw [map_eq_pure_bind]
  exact h.bind_pure rfl

/-- An optional value reads back after its tag. -/
theorem reads_option {α : Type} {r : Reader α} {write : α → ByteArray} (hr : ∀ x, Reads r (write x) x) :
    ∀ o, Reads (readOption r) (option write o) o
  | none => (reads_u8 0).bind_pure rfl
  | some x => (reads_u8 1).bind ((hr x).map some)

end Wire

namespace Net

theorem SyncMode.reads_toWire (m : SyncMode) :
    Wire.Reads SyncMode.readWire (Wire.u32 m.index.toUInt32) m := by
  cases m
  · exact Wire.Reads.bind_pure (a := 0) ((Wire.reads_u32 _).bind_pure rfl) rfl
  · exact Wire.Reads.bind_pure (a := 1) ((Wire.reads_u32 _).bind_pure rfl) rfl
  · exact Wire.Reads.bind_pure (a := 2) ((Wire.reads_u32 _).bind_pure rfl) rfl

namespace PeerNode

/-- A peer as its record is read back: not connected. -/
def idle (p : PeerNode) : PeerNode := { p with connected := false }

@[simp] theorem addr_idle (p : PeerNode) : p.idle.addr = p.addr := rfl

/-- The record of a peer whose address is shorter than `2 ^ 64` bytes reads
back as the peer. -/
theorem reads_toWire (p : PeerNode) (hsize : p.addr.toUTF8.size < 2 ^ 64) :
    Wire.Reads readWire p.toWire p := by
  unfold toWire
  simp only [ByteArray.append_assoc]
  exact (Wire.reads_str (Utf8.decode_toUTF8 _) hsize).bind <| (Wire.reads_bool _).bind <|
    (SyncMode.reads_toWire _).bind <| (Wire.reads_option Wire.reads_address _).bind <|
      (Wire.reads_bool _).bind_pure rfl

end PeerNode

/-! ## Members in address order -/

namespace PeerSet

variable {p q : PeerNode} {l : List PeerNode}

/-- Peers in strictly increasing address order, so of distinct addresses. -/
def InOrder (l : List PeerNode) : Prop := l.Pairwise fun p q => p.addr < q.addr

theorem InOrder.nodup_addrs (h : InOrder l) : (l.map (·.addr)).Nodup :=
  List.pairwise_map.mpr (h.imp ne_of_lt)

/-- Two arrangements in address order of the same peers are one. -/
theorem InOrder.eq_of_perm {l' : List PeerNode} (h : InOrder l) (h' : InOrder l') (hp : l.Perm l') : l = l' :=
  hp.eq_of_pairwise (fun _ _ _ _ hab hba => absurd (lt_trans hab hba) (lt_irrefl _)) h h'

theorem mem_insertSorted : ∀ {l : List PeerNode}, q ∈ insertSorted p l → q = p ∨ q ∈ l
  | [], h => .inl (List.mem_singleton.mp h)
  | r :: rest, h => by
    unfold insertSorted at h
    split at h
    · exact List.mem_cons.mp h
    · split at h
      · rcases List.mem_cons.mp h with rfl | h
        · exact .inl rfl
        · exact .inr (List.mem_cons_of_mem _ h)
      · rcases List.mem_cons.mp h with rfl | h
        · exact .inr List.mem_cons_self
        · rcases mem_insertSorted h with rfl | h
          · exact .inl rfl
          · exact .inr (List.mem_cons_of_mem _ h)

/-- A peer of a new address is one more member. -/
theorem insertSorted_perm : ∀ {l : List PeerNode}, p.addr ∉ l.map (·.addr) → (insertSorted p l).Perm (p :: l)
  | [], _ => List.Perm.refl _
  | r :: rest, hp => by
    have hpr : p.addr ≠ r.addr := fun h => hp (h ▸ List.mem_cons_self)
    have hrest : p.addr ∉ rest.map (·.addr) := fun h => hp (List.mem_cons_of_mem _ h)
    unfold insertSorted
    split
    · exact List.Perm.refl _
    · split
      · rename_i heq
        exact absurd (beq_iff_eq.mp heq) hpr
      · exact ((insertSorted_perm hrest).cons r).trans (List.Perm.swap p r rest)

/-- Inserting keeps the members in address order. -/
theorem inOrder_insertSorted (p : PeerNode) : ∀ {l : List PeerNode}, InOrder l → InOrder (insertSorted p l)
  | [], _ => List.pairwise_singleton _ _
  | r :: rest, hl => by
    obtain ⟨hr, hrest⟩ := List.pairwise_cons.mp hl
    unfold insertSorted
    split
    · rename_i hlt
      refine List.pairwise_cons.mpr ⟨fun x hx => ?_, hl⟩
      rcases List.mem_cons.mp hx with rfl | hx
      · exact hlt
      · exact lt_trans hlt (hr x hx)
    · rename_i hnlt
      split
      · rename_i heq
        rw [beq_iff_eq] at heq
        exact List.pairwise_cons.mpr ⟨fun x hx => heq ▸ hr x hx, hrest⟩
      · rename_i hne
        rw [beq_iff_eq] at hne
        -- `p` goes after `r`, whose address is below every address of the rest
        have hrp : r.addr < p.addr := (lt_trichotomy p.addr r.addr).resolve_left hnlt |>.resolve_left hne
        refine List.pairwise_cons.mpr ⟨fun x hx => ?_, inOrder_insertSorted p hrest⟩
        rcases mem_insertSorted hx with rfl | hx
        · exact hrp
        · exact hr x hx

/-- Peers of distinct addresses, inserted one after another into an ordered
list of other addresses, end up all there and in address order. -/
theorem foldl_insertSorted :
    ∀ (l acc : List PeerNode), InOrder acc → (l.map (·.addr)).Nodup → (∀ p ∈ l, p.addr ∉ acc.map (·.addr)) →
      InOrder (l.foldl (fun acc p => insertSorted p acc) acc) ∧
        (l.foldl (fun acc p => insertSorted p acc) acc).Perm (l.reverse ++ acc)
  | [], acc, hacc, _, _ => ⟨hacc, List.Perm.refl _⟩
  | p :: rest, acc, hacc, hnodup, hfresh => by
    rw [List.map_cons, List.nodup_cons] at hnodup
    have hp := insertSorted_perm (hfresh p List.mem_cons_self)
    -- the rest are new to the list with `p` inserted
    have hfresh' : ∀ x ∈ rest, x.addr ∉ (insertSorted p acc).map (·.addr) := by
      intro x hx hmem
      rw [(hp.map _).mem_iff, List.map_cons, List.mem_cons] at hmem
      rcases hmem with heq | hmem
      · exact hnodup.1 (heq ▸ List.mem_map_of_mem hx)
      · exact hfresh x (List.mem_cons_of_mem _ hx) hmem
    obtain ⟨hord, hperm⟩ := foldl_insertSorted rest _ (inOrder_insertSorted p hacc) hnodup.2 hfresh'
    refine ⟨hord, hperm.trans ?_⟩
    rw [List.reverse_cons, List.append_assoc, List.singleton_append]
    exact hp.append_left _

/-- A set holds an address exactly when one of its members has it. -/
theorem contains_iff (ps : PeerSet) (a : String) : ps.contains a = true ↔ a ∈ ps.addrs := by
  simp only [contains, get?, List.find?_isSome, beq_iff_eq, addrs, List.mem_map]

/-- Marking a peer keeps every address. -/
@[simp] theorem addrs_markConnected (ps : PeerSet) (a : String) (c : Bool) :
    (ps.markConnected a c).addrs = ps.addrs := by
  unfold addrs markConnected
  rw [List.map_map]
  congr 1
  funext p
  simp only [Function.comp_apply]
  split <;> rfl

end PeerSet

end Net

/-! ## Peer keys and single writes -/

namespace Keys

theorem startsWith_peer (a : String) : Bytes.startsWith (peer a) peersPrefix = true := by
  rw [Bytes.startsWith_iff, peer, Bytes.toList_append]
  exact List.prefix_append _ _

/-- Distinct addresses have distinct keys. -/
theorem peer_inj {a b : String} (h : peer a = peer b) : a = b := by
  have hl := congrArg ByteArray.toList h
  simp only [peer, Bytes.toList_append] at hl
  have hbytes : a.toUTF8 = b.toUTF8 := Bytes.toList_inj.mp (List.append_cancel_left hl)
  have hdec := Utf8.decode_toUTF8 a
  rw [hbytes, Utf8.decode_toUTF8 b, Except.ok.injEq] at hdec
  exact hdec.symm

end Keys

namespace KvMap

/-- A batch of one write acts on its key alone. -/
theorem get?_applyBatch_single (m : KvMap) (k : ByteArray) (op : Option ByteArray) (k' : ByteArray) :
    (m.applyBatch [(k, op)]).get? k' = if k' = k then op else m.get? k' := by
  rw [get?_applyBatch m (by simp [Batch.KeysNodup])]
  by_cases h : k' = k
  · subst h
    simp [Batch.lookup]
  · have hne : (k == k') = false := by
      rw [Bool.eq_false_iff, ne_eq, Bytes.beq_eq_true_iff]
      exact Ne.symm h
    simp [Batch.lookup, hne, h]

end KvMap

namespace Net
namespace PeerSet

/-! ## Members mirrored by records -/

/-- A peer set mirrors the records a store shows as `m`: it writes them, its
members are in address order and within the limit, the keys under `peers/` are
exactly the members' keys, and each member's record reads back as the member
but for the connection. -/
structure Mirrors (ps : PeerSet) (m : KvMap) : Prop where
  persistent : ps.persistent = true
  inOrder : InOrder ps.peers
  bounded : ps.size ≤ ps.maxPeers
  keys : ∀ k v, m.get? k = some v → Bytes.startsWith k Keys.peersPrefix = true →
    ∃ p ∈ ps.peers, k = Keys.peer p.addr
  records : ∀ p ∈ ps.peers, ∃ v r, m.get? (Keys.peer p.addr) = some v ∧
    Wire.decode PeerNode.readWire v = .ok r ∧ r.idle = p.idle

variable {ps : PeerSet} {m : KvMap} {s : Store}

/-- The addresses a mirroring set holds are the addresses with a record. -/
theorem Mirrors.mem_addrs_iff (h : Mirrors ps m) (a : String) :
    a ∈ ps.addrs ↔ ∃ v, m.get? (Keys.peer a) = some v := by
  constructor
  · intro ha
    obtain ⟨p, hp, rfl⟩ := List.mem_map.mp ha
    obtain ⟨v, -, hv, -⟩ := h.records p hp
    exact ⟨v, hv⟩
  · rintro ⟨v, hv⟩
    obtain ⟨p, hp, hkey⟩ := h.keys _ v hv (Keys.startsWith_peer a)
    exact List.mem_map.mpr ⟨p, hp, (Keys.peer_inj hkey).symm⟩

/-- A new peer, once its record is written, is one more member, and the set
still mirrors the records. -/
theorem Mirrors.add (h : Mirrors ps m) {p : PeerNode} (hsize : p.addr.toUTF8.size < 2 ^ 64)
    (hnew : p.addr ∉ ps.addrs) (hroom : ps.size < ps.maxPeers) :
    Mirrors { ps with peers := insertSorted p ps.peers } (m.applyBatch [(Keys.peer p.addr, some p.toWire)]) := by
  have hperm := insertSorted_perm hnew
  have hmem : ∀ q, q ∈ insertSorted p ps.peers ↔ q = p ∨ q ∈ ps.peers := fun q => by
    rw [hperm.mem_iff, List.mem_cons]
  -- a member other than `p` has another address, so another key
  have hother : ∀ q ∈ ps.peers, Keys.peer q.addr ≠ Keys.peer p.addr := fun q hq hkey =>
    hnew (Keys.peer_inj hkey ▸ List.mem_map_of_mem hq)
  refine ⟨h.persistent, inOrder_insertSorted p h.inOrder, ?_, fun k v hv hk => ?_, fun q hq => ?_⟩
  · show (insertSorted p ps.peers).length ≤ ps.maxPeers
    rw [hperm.length_eq]
    exact hroom
  · rw [KvMap.get?_applyBatch_single] at hv
    split at hv
    · rename_i hkey
      exact ⟨p, (hmem p).mpr (.inl rfl), hkey⟩
    · obtain ⟨q, hq, hkey⟩ := h.keys k v hv hk
      exact ⟨q, (hmem q).mpr (.inr hq), hkey⟩
  · rcases (hmem q).mp hq with rfl | hq
    · exact ⟨_, q, by rw [KvMap.get?_applyBatch_single, if_pos rfl], (q.reads_toWire hsize).decode, rfl⟩
    · obtain ⟨v, r, hv, hdec, hidle⟩ := h.records q hq
      exact ⟨v, r, by rw [KvMap.get?_applyBatch_single, if_neg (hother q hq)]; exact hv, hdec, hidle⟩

/-- Inserting a peer keeps the set mirroring the store's records, whether it
adds the peer, finds it there or no room, or fails to write. -/
theorem Mirrors.insert (h : Mirrors ps m) (hs : s.Faithful m) {p : PeerNode}
    (hsize : p.addr.toUTF8.size < 2 ^ 64) :
    ∃ m', (ps.insert s p).2.2.Faithful m' ∧ Mirrors (ps.insert s p).2.1 m' := by
  unfold PeerSet.insert
  split
  · exact ⟨m, hs, h⟩
  rename_i hskip
  simp only [Bool.or_eq_true, decide_eq_true_eq, not_or] at hskip
  obtain ⟨hnew, hroom⟩ := hskip
  rw [Bool.not_eq_true, ← Bool.not_eq_true, contains_iff] at hnew
  rw [if_pos h.persistent]
  dsimp only
  split
  · rename_i s' hput
    exact ⟨_, hs.commit hput, h.add hsize hnew (by omega)⟩
  · exact ⟨m, hs, h⟩

/-- Dropping a member and its record keeps the set mirroring the records. -/
theorem Mirrors.drop (h : Mirrors ps m) (a : String) :
    Mirrors { ps with peers := ps.peers.filter (·.addr != a) } (m.applyBatch [(Keys.peer a, none)]) := by
  have hmem : ∀ q, q ∈ ps.peers.filter (·.addr != a) ↔ q ∈ ps.peers ∧ q.addr ≠ a := fun q => by
    simp only [List.mem_filter, bne_iff_ne, ne_eq]
  refine ⟨h.persistent, h.inOrder.filter _, (List.length_filter_le _ _).trans h.bounded,
    fun k v hv hk => ?_, fun q hq => ?_⟩
  · rw [KvMap.get?_applyBatch_single] at hv
    split at hv
    · cases hv
    · rename_i hka
      obtain ⟨q, hq, rfl⟩ := h.keys k v hv hk
      exact ⟨q, (hmem q).mpr ⟨hq, fun hqa => hka (hqa ▸ rfl)⟩, rfl⟩
  · obtain ⟨hq, hqa⟩ := (hmem q).mp hq
    obtain ⟨v, r, hv, hdec, hidle⟩ := h.records q hq
    refine ⟨v, r, ?_, hdec, hidle⟩
    rw [KvMap.get?_applyBatch_single, if_neg fun hkey => hqa (Keys.peer_inj hkey)]
    exact hv

/-- A remove that goes through keeps the set mirroring the store's records. -/
theorem Mirrors.remove (h : Mirrors ps m) (hs : s.Faithful m) {a : String} {b : Bool}
    (hok : (ps.remove s a).1 = .ok b) :
    ∃ m', (ps.remove s a).2.2.Faithful m' ∧ Mirrors (ps.remove s a).2.1 m' := by
  revert hok
  unfold PeerSet.remove
  split
  · exact fun _ => ⟨m, hs, h⟩
  dsimp only
  rw [if_pos h.persistent]
  split
  · rename_i s' herase
    exact fun _ => ⟨_, hs.commit herase, h.drop a⟩
  · intro hok
    cases hok

/-- Marking a member connected or not keeps the set mirroring the records:
a record does not say whether its peer is connected. -/
theorem Mirrors.markConnected (h : Mirrors ps m) (a : String) (c : Bool) :
    Mirrors (ps.markConnected a c) m := by
  -- marking changes neither a member's address nor what its record reads back as
  have haddr : ∀ p : PeerNode, (if p.addr == a then { p with connected := c } else p).addr = p.addr :=
    fun p => by split <;> rfl
  have hidle : ∀ p : PeerNode, (if p.addr == a then { p with connected := c } else p).idle = p.idle :=
    fun p => by split <;> rfl
  refine ⟨h.persistent, ?_, ?_, fun k v hv hk => ?_, fun q hq => ?_⟩
  · exact List.pairwise_map.mpr (h.inOrder.imp fun hlt => by rw [haddr, haddr]; exact hlt)
  · show (ps.peers.map _).length ≤ ps.maxPeers
    rw [List.length_map]
    exact h.bounded
  · obtain ⟨p, hp, hkey⟩ := h.keys k v hv hk
    exact ⟨_, List.mem_map_of_mem hp, by rw [haddr]; exact hkey⟩
  · obtain ⟨p, hp, rfl⟩ := List.mem_map.mp hq
    obtain ⟨v, r, hv, hdec, hr⟩ := h.records p hp
    exact ⟨v, r, by rw [haddr]; exact hv, hdec, by rw [hidle]; exact hr⟩

/-! ## Reading a set back -/

/-- What a record gives a set read back: the peer it reads as, not connected,
or nothing when it does not read. -/
def recordPeer (e : ByteArray × ByteArray) : Option PeerNode :=
  match Wire.decode PeerNode.readWire e.2 with
  | .ok p => some p.idle
  | .error _ => none

theorem recordPeer_eq_some {e : ByteArray × ByteArray} {x : PeerNode} :
    recordPeer e = some x ↔ ∃ p, Wire.decode PeerNode.readWire e.2 = .ok p ∧ x = p.idle := by
  unfold recordPeer
  split
  · rename_i p hp
    simp [hp, eq_comm]
  · rename_i hp
    simp [hp]

/-- The peers a set read back from a store showing `m` is built from: the
records under `peers/` that read, in key order, none connected. -/
def readBack (m : KvMap) : List PeerNode := (m.scan Keys.peersPrefix).filterMap recordPeer

/-- Reading a set back inserts the records, one after another, into an empty
list; no limit is applied. -/
theorem load_of_faithful (hs : s.Faithful m) (max : Nat) :
    load s max = .ok
      { peers := (readBack m).foldl (fun acc p => insertSorted p acc) []
        maxPeers := max, persistent := true } := by
  unfold load
  rw [hs.shows.scan]
  rfl

theorem mem_readBack (hm : m.Sorted) {x : PeerNode} :
    x ∈ readBack m ↔ ∃ k v p, m.get? k = some v ∧ Bytes.startsWith k Keys.peersPrefix = true ∧
      Wire.decode PeerNode.readWire v = .ok p ∧ x = p.idle := by
  simp only [readBack, List.mem_filterMap, recordPeer_eq_some]
  constructor
  · rintro ⟨⟨k, v⟩, he, p, hp, rfl⟩
    obtain ⟨hget, hk⟩ := ((KvMap.listsPrefix_scan hm _).mem k v).mp he
    exact ⟨k, v, p, hget, hk, hp, rfl⟩
  · rintro ⟨k, v, p, hget, hk, hp, rfl⟩
    exact ⟨(k, v), ((KvMap.listsPrefix_scan hm _).mem k v).mpr ⟨hget, hk⟩, p, hp, rfl⟩

/-- Every record under `peers/` reads back as a peer, kept under that peer's
address. -/
def Clean (m : KvMap) : Prop :=
  ∀ k v, m.get? k = some v → Bytes.startsWith k Keys.peersPrefix = true →
    ∃ p, Wire.decode PeerNode.readWire v = .ok p ∧ k = Keys.peer p.addr

/-- The records of a clean store read back as peers of distinct addresses:
their keys are distinct, and each is its peer's key. -/
theorem Clean.nodup_addrs (hm : m.Sorted) (hc : Clean m) : ((readBack m).map (·.addr)).Nodup := by
  have hscan := KvMap.listsPrefix_scan hm Keys.peersPrefix
  refine List.pairwise_map.mpr (List.pairwise_filterMap.mpr (hscan.ascending.imp_of_mem ?_))
  rintro ⟨k, v⟩ ⟨k', v'⟩ he he' hlt x hx x' hx' hxx
  obtain ⟨p, hp, rfl⟩ := recordPeer_eq_some.mp hx
  obtain ⟨p', hp', rfl⟩ := recordPeer_eq_some.mp hx'
  obtain ⟨hget, hk⟩ := (hscan.mem k v).mp he
  obtain ⟨hget', hk'⟩ := (hscan.mem k' v').mp he'
  obtain ⟨q, hq, hkey⟩ := hc k v hget hk
  obtain ⟨q', hq', hkey'⟩ := hc k' v' hget' hk'
  rw [hp, Except.ok.injEq] at hq
  rw [hp', Except.ok.injEq] at hq'
  subst hq hq'
  have hsame : k = k' := by
    rw [hkey, hkey']
    exact congrArg Keys.peer hxx
  exact Bytes.ne_of_compare_lt hlt hsame

/-- Read back from a clean store, the records end up in address order, all
of them. -/
theorem Clean.arrange (hm : m.Sorted) (hc : Clean m) :
    InOrder ((readBack m).foldl (fun acc p => insertSorted p acc) []) ∧
      ((readBack m).foldl (fun acc p => insertSorted p acc) []).Perm (readBack m) := by
  obtain ⟨hord, hperm⟩ :=
    foldl_insertSorted (readBack m) [] List.Pairwise.nil (hc.nodup_addrs hm) (fun _ _ h => by simp at h)
  refine ⟨hord, hperm.trans ?_⟩
  rw [List.append_nil]
  exact List.reverse_perm _

/-- A store that a set mirrors is clean. -/
theorem Mirrors.clean (h : Mirrors ps m) : Clean m := by
  intro k v hv hk
  obtain ⟨q, hq, rfl⟩ := h.keys k v hv hk
  obtain ⟨v', r, hv', hdec, hidle⟩ := h.records q hq
  rw [hv, Option.some.injEq] at hv'
  subst hv'
  refine ⟨r, hdec, ?_⟩
  rw [← PeerNode.addr_idle r, hidle, PeerNode.addr_idle]

/-- Read back from a store a set mirrors, the set gives back its members in
address order, none connected, under any limit. -/
theorem Mirrors.load (h : Mirrors ps m) (hs : s.Faithful m) (max : Nat) :
    load s max = .ok { peers := ps.peers.map PeerNode.idle, maxPeers := max, persistent := true } := by
  rw [load_of_faithful hs]
  obtain ⟨hord, hperm⟩ := h.clean.arrange hs.sorted
  -- the records read back are the members, not connected
  have hsame : (readBack m).Perm (ps.peers.map PeerNode.idle) := by
    have hnd : (readBack m).Nodup := List.Nodup.of_map _ (h.clean.nodup_addrs hs.sorted)
    have hnd' : (ps.peers.map PeerNode.idle).Nodup := by
      refine List.Nodup.of_map (·.addr) ?_
      rw [List.map_map]
      exact h.inOrder.nodup_addrs
    refine (List.perm_ext_iff_of_nodup hnd hnd').mpr fun x => ?_
    rw [mem_readBack hs.sorted, List.mem_map]
    constructor
    · rintro ⟨k, v, p, hget, hk, hdec, rfl⟩
      obtain ⟨q, hq, rfl⟩ := h.keys k v hget hk
      obtain ⟨v', r, hv', hdec', hidle⟩ := h.records q hq
      rw [hget, Option.some.injEq] at hv'
      subst hv'
      rw [hdec, Except.ok.injEq] at hdec'
      subst hdec'
      exact ⟨q, hq, hidle.symm⟩
    · rintro ⟨q, hq, rfl⟩
      obtain ⟨v, r, hv, hdec, hidle⟩ := h.records q hq
      exact ⟨_, v, r, hv, Keys.startsWith_peer _, hdec, hidle.symm⟩
  have hord' : InOrder (ps.peers.map PeerNode.idle) := List.pairwise_map.mpr h.inOrder
  rw [hord.eq_of_perm hord' (hperm.trans hsame)]

/-- Read back from a clean store, a set holds every record, whatever the
limit, and mirrors the store when the records are within the limit. -/
theorem load_clean (hs : s.Faithful m) (hc : Clean m) (max : Nat) :
    ∃ ps, load s max = .ok ps ∧ ps.maxPeers = max ∧ ps.size = (m.scan Keys.peersPrefix).length ∧
      (ps.size ≤ max → Mirrors ps m) := by
  obtain ⟨hord, hperm⟩ := hc.arrange hs.sorted
  refine ⟨_, load_of_faithful hs max, rfl, ?_, fun hbound => ⟨rfl, hord, hbound, fun k v hget hk => ?_, fun q hq => ?_⟩⟩
  · -- every record reads, so each gives one member
    show (List.foldl _ [] (readBack m)).length = _
    rw [hperm.length_eq, readBack, List.filterMap_length_eq_length.mpr]
    rintro ⟨k, v⟩ he
    obtain ⟨hget, hk⟩ := ((KvMap.listsPrefix_scan hs.sorted _).mem k v).mp he
    obtain ⟨p, hdec, -⟩ := hc k v hget hk
    simp [recordPeer, hdec]
  · obtain ⟨p, hdec, rfl⟩ := hc k v hget hk
    exact ⟨p.idle, hperm.mem_iff.mpr ((mem_readBack hs.sorted).mpr ⟨_, v, p, hget, hk, hdec, rfl⟩), rfl⟩
  · obtain ⟨k, v, p, hget, hk, hdec, rfl⟩ := (mem_readBack hs.sorted).mp (hperm.mem_iff.mp hq)
    obtain ⟨p', hdec', hkey⟩ := hc k v hget hk
    rw [hdec, Except.ok.injEq] at hdec'
    subst hdec'
    exact ⟨v, p, by rw [PeerNode.addr_idle, ← hkey]; exact hget, hdec, rfl⟩

/-! ## Failed writes -/

/-- An insert that fails leaves the set and the store as they were. -/
theorem insert_of_error {ps : PeerSet} {s : Store} {p : PeerNode} {e : LedgerError}
    (h : (ps.insert s p).1 = .error e) : (ps.insert s p).2 = (ps, s) := by
  revert h
  unfold PeerSet.insert
  dsimp only
  split
  · intro h
    cases h
  split
  · intro h
    cases h
  · intro _
    rfl

/-- A remove whose delete fails has dropped the member all the same, and left
the store, with the member's record, as it was. -/
theorem remove_of_error {ps : PeerSet} {s : Store} {a : String} {e : LedgerError}
    (h : (ps.remove s a).1 = .error e) :
    (ps.remove s a).2 = ({ ps with peers := ps.peers.filter (·.addr != a) }, s) := by
  revert h
  unfold PeerSet.remove
  dsimp only
  split
  · intro h
    cases h
  split
  · intro h
    cases h
  · intro _
    rfl

/-! ## Membership and records along a run -/

/-- A peer set and the records of the store behind it.  Read back from a store
whose records under `peers/` all read as peers kept under their own
addresses, a set holds every record whatever its limit, and mirrors the store
when the records are within the limit.  A mirroring set holds exactly the
addresses that have a record.  Inserting a peer (so adding one) and marking
keep the mirror, and so does a remove that goes through.  A failed insert
changes nothing; a remove whose delete fails has dropped the member while the
store, with its record, is as it was.  Read back again, a mirrored store gives
the members, none connected. -/
theorem peer_set_mirrors_records (s : Store) (m : KvMap) :
    (∀ max : Nat, s.Faithful m → Clean m →
      ∃ ps, load s max = .ok ps ∧ ps.maxPeers = max ∧ ps.size = (m.scan Keys.peersPrefix).length ∧
        (ps.size ≤ max → Mirrors ps m)) ∧
    (∀ ps : PeerSet, Mirrors ps m → ∀ a, a ∈ ps.addrs ↔ ∃ v, m.get? (Keys.peer a) = some v) ∧
    (∀ (ps : PeerSet) (p : PeerNode), Mirrors ps m → s.Faithful m → p.addr.toUTF8.size < 2 ^ 64 →
      ∃ m', (ps.insert s p).2.2.Faithful m' ∧ Mirrors (ps.insert s p).2.1 m') ∧
    (∀ (ps : PeerSet) (a : String) (b : Bool), Mirrors ps m → s.Faithful m → (ps.remove s a).1 = .ok b →
      ∃ m', (ps.remove s a).2.2.Faithful m' ∧ Mirrors (ps.remove s a).2.1 m') ∧
    (∀ (ps : PeerSet) (a : String) (c : Bool), Mirrors ps m → Mirrors (ps.markConnected a c) m) ∧
    (∀ (ps : PeerSet) (p : PeerNode) (e : LedgerError), (ps.insert s p).1 = .error e → (ps.insert s p).2 = (ps, s)) ∧
    (∀ (ps : PeerSet) (a : String) (e : LedgerError), (ps.remove s a).1 = .error e →
      (ps.remove s a).2 = ({ ps with peers := ps.peers.filter (·.addr != a) }, s)) ∧
    (∀ (ps : PeerSet) (max : Nat), Mirrors ps m → s.Faithful m →
      load s max = .ok { peers := ps.peers.map PeerNode.idle, maxPeers := max, persistent := true }) :=
  ⟨fun max hs hc => load_clean hs hc max, fun _ h => h.mem_addrs_iff,
    fun _ _ h hs hsize => h.insert hs hsize, fun _ _ _ h hs hok => h.remove hs hok,
    fun _ a c h => h.markConnected a c, fun _ _ _ h => insert_of_error h, fun _ _ _ h => remove_of_error h,
    fun _ max h hs => h.load hs max⟩

/-- The empty set written back, with room for eight peers. -/
def emptyBacked : PeerSet := { maxPeers := 8, persistent := true }

theorem peer_set_mirrors_records_empty :
    Mirrors emptyBacked {} ∧ Store.Faithful {} {} ∧ "10.0.0.1:3000".toUTF8.size < 2 ^ 64 ∧
      ∃ m', (emptyBacked.insert {} { addr := "10.0.0.1:3000" }).2.2.Faithful m' ∧
        Mirrors (emptyBacked.insert {} { addr := "10.0.0.1:3000" }).2.1 m' := by
  have hempty : Mirrors emptyBacked {} :=
    ⟨rfl, List.Pairwise.nil, by decide, (fun _ _ hv _ => by cases hv), (fun _ hp => by cases hp)⟩
  have hsize : "10.0.0.1:3000".toUTF8.size < 2 ^ 64 := by decide
  exact ⟨hempty, Store.faithful_empty, hsize,
    (peer_set_mirrors_records {} {}).2.2.1 emptyBacked _ hempty Store.faithful_empty hsize⟩

/-- A store holding the records of two peers, `a:1` and `b:1`. -/
def twoRecords : KvMap :=
  ⟨[(Keys.peer "a:1", PeerNode.toWire { addr := "a:1" }), (Keys.peer "b:1", PeerNode.toWire { addr := "b:1" })]⟩

/-- Read back under a limit of one peer, the two records give a set of two. -/
theorem load_two_over_one :
    (load ⟨.memory twoRecords⟩ 1).map (fun ps => (ps.addrs, ps.size, ps.maxPeers)) = .ok (["a:1", "b:1"], 2, 1) := by
  decide +kernel

end PeerSet

end Net
end PowChain
