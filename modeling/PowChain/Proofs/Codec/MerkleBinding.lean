import PowChain.Proofs.Codec.Preimage

/-!
# The transaction root commits to the transactions

A merkle root is computed level by level, and it is also the digest of a
binary tree: `Merkle.tree l` has the digests of `l` at its leaves, each level
pairing neighbours and joining a lone last node with itself, and `root l` is
its digest (`root_eq_digest_tree`), reached after `⌈log₂ |l|⌉` levels
(`height_tree`).

Model the hash as having no collision on the preimages a root is computed
from.  Then equal digests mean equal trees (`Tree.eq_of_digest_eq`), as long
as no leaf is the digest of an inner node; trees grown over lists without
repeats come from one list only (`build_inj`); so two lists of digests without
repeats and with one root are equal (`eq_of_root_eq`).  For transactions the
leaves are digests of preimages of at least ninety-one bytes and the inner
nodes digests of sixty-four bytes, so a leaf is never an inner node, and one
transaction root names one list of transaction identities
(`txRootOf_commits`).

Repeats break this: a list of odd length and the same list with its last
digest repeated have one root (`root_append_last`).
-/

namespace PowChain
namespace Merkle

/-- The shape of a root's computation: digests at the leaves, a join at each
inner node. -/
inductive Tree where
  | leaf (d : Digest)
  | node (l r : Tree)

namespace Tree

/-- The digest a tree stands for. -/
def digest : Tree → Digest
  | leaf d => d
  | node l r => join l.digest r.digest

/-- The preimages hashed at the inner nodes. -/
def joins : Tree → List ByteArray
  | leaf _ => []
  | node l r => (l.digest.bytes ++ r.digest.bytes) :: (l.joins ++ r.joins)

def leaves : Tree → List Digest
  | leaf d => [d]
  | node l r => l.leaves ++ r.leaves

/-- The number of levels above the leaves, along the leftmost path. -/
def height : Tree → Nat
  | leaf _ => 0
  | node l _ => l.height + 1

theorem size_of_mem_joins {t : Tree} {p : ByteArray} (h : p ∈ t.joins) : p.size = 64 := by
  induction t with
  | leaf d => simp [joins] at h
  | node l r ihl ihr =>
    simp only [joins, List.mem_cons, List.mem_append] at h
    rcases h with rfl | h | h
    · rw [ByteArray.size_append, l.digest.size_eq, r.digest.size_eq]
    · exact ihl h
    · exact ihr h

section Binding

variable {t u : Tree}

/-- With no collision among the joins, and no leaf the digest of a join, a
digest determines its tree. -/
theorem eq_of_digest_eq (hinj : Set.InjOn sha256 {p | p ∈ t.joins ++ u.joins})
    (hleaf : ∀ d ∈ t.leaves ++ u.leaves, ∀ p ∈ t.joins ++ u.joins, sha256 p ≠ d)
    (h : t.digest = u.digest) : t = u := by
  induction t generalizing u with
  | leaf d =>
    cases u with
    | leaf d' => rw [show d = d' from h]
    | node l' r' =>
      -- a leaf against an inner node: the leaf would be the digest of a join
      exact absurd h.symm (hleaf d (by simp [leaves]) _ (by simp [joins]))
  | node l r ihl ihr =>
    cases u with
    | leaf d' => exact absurd h (hleaf d' (by simp [leaves]) _ (by simp [joins]))
    | node l' r' =>
      -- one digest of two joins: the joins are one preimage, so the children
      -- have one digest each
      have hp : l.digest.bytes ++ r.digest.bytes = l'.digest.bytes ++ r'.digest.bytes :=
        hinj (by simp [joins]) (by simp [joins]) h
      have hlist := congrArg ByteArray.toList hp
      rw [Bytes.toList_append, Bytes.toList_append] at hlist
      have hsplit := List.append_inj hlist
        (by rw [Bytes.length_toList, Bytes.length_toList, l.digest.size_eq, l'.digest.size_eq])
      have hl : l.digest = l'.digest := Digest.eq_of_bytes (Bytes.toList_inj.mp hsplit.1)
      have hr : r.digest = r'.digest := Digest.eq_of_bytes (Bytes.toList_inj.mp hsplit.2)
      rw [ihl (hinj.mono fun p hp => by simp [joins] at hp ⊢; tauto)
          (fun d hd p hp => hleaf d (by simp [leaves] at hd ⊢; tauto) p (by simp [joins] at hp ⊢; tauto)) hl,
        ihr (hinj.mono fun p hp => by simp [joins] at hp ⊢; tauto)
          (fun d hd p hp => hleaf d (by simp [leaves] at hd ⊢; tauto) p (by simp [joins] at hp ⊢; tauto)) hr]

end Binding

end Tree

/-! ## Levels of trees -/

/-- One level up, as `level` forms it: neighbours paired, a lone last tree
paired with itself. -/
def pairUp : List Tree → List Tree
  | a :: b :: rest => .node a b :: pairUp rest
  | [a] => [.node a a]
  | [] => []

theorem length_pairUp (ts : List Tree) : (pairUp ts).length = (ts.length + 1) / 2 := by
  induction ts using pairUp.induct with
  | case1 a b rest ih => simp only [pairUp, List.length_cons, ih]; omega
  | case2 a => simp [pairUp]
  | case3 => simp [pairUp]

/-- The tree of a level, as `root` computes: levels paired until one tree is
left; an empty level is the zero leaf. -/
def build (ts : List Tree) : Tree :=
  match ts with
  | [] => .leaf Digest.zero
  | [t] => t
  | a :: b :: rest => build (pairUp (a :: b :: rest))
termination_by ts.length
decreasing_by simp only [length_pairUp, List.length_cons]; omega

/-- The tree over a list of digests. -/
def tree (l : List Digest) : Tree := build (l.map .leaf)

theorem build_singleton (t : Tree) : build [t] = t := by rw [build]

theorem build_cons_cons (a b : Tree) (rest : List Tree) :
    build (a :: b :: rest) = build (pairUp (a :: b :: rest)) := by
  rw [build]

theorem map_digest_pairUp (ts : List Tree) :
    (pairUp ts).map Tree.digest = level (ts.map Tree.digest) := by
  induction ts using pairUp.induct with
  | case1 a b rest ih => simp [pairUp, level, Tree.digest, ih]
  | case2 a => simp [pairUp, level, Tree.digest]
  | case3 => simp [pairUp, level]

theorem root_map_digest (ts : List Tree) : root (ts.map Tree.digest) = (build ts).digest := by
  fun_induction build ts with
  | case1 => simp [root, Tree.digest]
  | case2 t => simp [root]
  | case3 a b rest ih =>
    rw [List.map_cons, List.map_cons, root, ← List.map_cons, ← List.map_cons, ← map_digest_pairUp, ih]

/-- A root is the digest of the tree over its list. -/
theorem root_eq_digest_tree (l : List Digest) : root l = (tree l).digest := by
  rw [tree, ← root_map_digest, List.map_map]
  exact congrArg root (List.map_id' l).symm

theorem mem_pairUp {ts : List Tree} {t : Tree} (h : t ∈ pairUp ts) :
    ∃ a b, t = .node a b ∧ a ∈ ts ∧ b ∈ ts := by
  induction ts using pairUp.induct with
  | case1 a b rest ih =>
    simp only [pairUp, List.mem_cons] at h
    rcases h with rfl | h
    · exact ⟨a, b, rfl, by simp, by simp⟩
    · obtain ⟨x, y, rfl, hx, hy⟩ := ih h
      exact ⟨x, y, rfl, by simp [hx], by simp [hy]⟩
  | case2 a =>
    simp only [pairUp, List.mem_singleton] at h
    exact ⟨a, a, h, by simp, by simp⟩
  | case3 => simp [pairUp] at h

/-! ## Heights -/

/-- Every tree of the level has height `h`. -/
def Uniform (h : Nat) (ts : List Tree) : Prop := ∀ t ∈ ts, t.height = h

theorem uniform_pairUp {h : Nat} {ts : List Tree} (hu : Uniform h ts) : Uniform (h + 1) (pairUp ts) := by
  intro t ht
  obtain ⟨a, b, rfl, ha, -⟩ := mem_pairUp ht
  simp [Tree.height, hu a ha]

/-- A level of `n` trees of height `h` grows into a tree of height
`h + ⌈log₂ n⌉`: each pairing halves the level, rounding up, and adds one. -/
theorem height_build {h : Nat} {ts : List Tree} (hne : ts ≠ []) (hu : Uniform h ts) :
    (build ts).height = h + Nat.clog 2 ts.length := by
  fun_induction build ts generalizing h with
  | case1 => exact absurd rfl hne
  | case2 t => simp [hu t (by simp)]
  | case3 a b rest ih =>
    -- one pairing adds a level and halves the count, rounding up
    have hhalf : (a :: b :: rest).length + 2 - 1 = (a :: b :: rest).length + 1 := by omega
    rw [ih (by simp [pairUp]) (uniform_pairUp hu), length_pairUp,
      Nat.clog_of_two_le (n := (a :: b :: rest).length) (by omega) (by simp), hhalf]
    omega

theorem height_tree (l : List Digest) : (tree l).height = Nat.clog 2 l.length := by
  cases l with
  | nil => simp [tree, build, Tree.height]
  | cons d l =>
    rw [tree, height_build (h := 0) (by simp) (by simp [Uniform, Tree.height]), List.length_map,
      Nat.zero_add]

/-! ## Levels without repeats -/

theorem nodup_pairUp {ts : List Tree} (hnd : ts.Nodup) : (pairUp ts).Nodup := by
  induction ts using pairUp.induct with
  | case1 a b rest ih =>
    have hnd' := List.nodup_cons.mp (List.nodup_cons.mp hnd).2
    refine List.nodup_cons.mpr ⟨fun hmem => ?_, ih hnd'.2⟩
    -- a pair of `rest` would put `a` in `rest`
    obtain ⟨x, y, hxy, hx, -⟩ := mem_pairUp hmem
    cases hxy
    exact (List.nodup_cons.mp hnd).1 (by simp [hx])
  | case2 a => simp [pairUp]
  | case3 => simp [pairUp]

/-- Pairing is injective on levels without repeats: a lone last tree joined
with itself cannot stand for a pair of two different trees. -/
theorem pairUp_inj {ts us : List Tree} (hnd : ts.Nodup) (hnd' : us.Nodup)
    (h : pairUp ts = pairUp us) : ts = us := by
  induction ts using pairUp.induct generalizing us with
  | case1 a b rest ih =>
    match us, hnd', h with
    | c :: d :: rest', hnd', h =>
      simp only [pairUp, List.cons.injEq, Tree.node.injEq] at h
      obtain ⟨⟨rfl, rfl⟩, hrest⟩ := h
      rw [ih (List.nodup_cons.mp (List.nodup_cons.mp hnd).2).2
        (List.nodup_cons.mp (List.nodup_cons.mp hnd').2).2 hrest]
    | [c], _, h =>
      simp only [pairUp, List.cons.injEq, Tree.node.injEq] at h
      obtain ⟨⟨rfl, rfl⟩, -⟩ := h
      exact absurd (by simp) (List.nodup_cons.mp hnd).1
    | [], _, h => simp [pairUp] at h
  | case2 a =>
    match us, hnd', h with
    | c :: d :: rest', hnd', h =>
      simp only [pairUp, List.cons.injEq, Tree.node.injEq] at h
      obtain ⟨⟨rfl, rfl⟩, -⟩ := h
      exact absurd (by simp) (List.nodup_cons.mp hnd').1
    | [c], _, h =>
      simp only [pairUp, List.cons.injEq, Tree.node.injEq] at h
      rw [h.1.1]
    | [], _, h => simp [pairUp] at h
  | case3 =>
    match us, h with
    | [], _ => rfl
    | c :: d :: rest', h => simp [pairUp] at h
    | [c], h => simp [pairUp] at h

/-- A single tree of height `h` is not what a level of two or more trees of
height `h` grows into: that tree is higher. -/
theorem ne_build_of_two_le {h : Nat} {t : Tree} {us : List Tree} (ht : t.height = h)
    (hu : Uniform h us) (hlen : 2 ≤ us.length) : t ≠ build us := by
  intro heq
  have hheight := congrArg Tree.height heq
  rw [height_build (by rintro rfl; simp at hlen) hu, ht] at hheight
  have := Nat.clog_pos (b := 2) (by omega) hlen
  omega

/-- Levels of trees of one height, without repeats, grow into one tree only
if they are the same level: a single tree and a level of two or more differ in
height, and two longer levels grow from their pairings. -/
theorem build_inj {h : Nat} {ts us : List Tree} (hne : ts ≠ []) (hne' : us ≠ [])
    (hu : Uniform h ts) (hu' : Uniform h us) (hnd : ts.Nodup) (hnd' : us.Nodup)
    (heq : build ts = build us) : ts = us := by
  fun_induction build ts generalizing h us with
  | case1 => exact absurd rfl hne
  | case2 t =>
    match us, hu', heq with
    | [u], _, heq => rw [build_singleton] at heq; rw [heq]
    | c :: d :: rest', hu', heq =>
      exact absurd heq (ne_build_of_two_le (hu t (by simp)) hu' (by simp))
  | case3 a b rest ih =>
    match us, hne', hu', hnd', heq with
    | [], hne', _, _, _ => exact absurd rfl hne'
    | [u], _, hu', _, heq =>
      rw [← build_cons_cons, build_singleton] at heq
      exact absurd heq.symm (ne_build_of_two_le (hu' u (by simp)) hu (by simp))
    | c :: d :: rest', _, hu', hnd', heq =>
      rw [build_cons_cons] at heq
      exact pairUp_inj hnd hnd' (ih (by simp [pairUp]) (by simp [pairUp]) (uniform_pairUp hu)
        (uniform_pairUp hu') (nodup_pairUp hnd) (nodup_pairUp hnd') heq)

/-! ## Roots of lists without repeats -/

theorem mem_leaves_pairUp {ts : List Tree} {t : Tree} (ht : t ∈ pairUp ts) {d : Digest}
    (hd : d ∈ t.leaves) : ∃ t' ∈ ts, d ∈ t'.leaves := by
  obtain ⟨a, b, rfl, ha, hb⟩ := mem_pairUp ht
  simp only [Tree.leaves, List.mem_append] at hd
  rcases hd with hd | hd
  · exact ⟨a, ha, hd⟩
  · exact ⟨b, hb, hd⟩

theorem mem_leaves_build {ts : List Tree} {d : Digest} (hd : d ∈ (build ts).leaves) :
    (ts = [] ∧ d = Digest.zero) ∨ ∃ t ∈ ts, d ∈ t.leaves := by
  fun_induction build ts with
  | case1 =>
    simp only [Tree.leaves, List.mem_singleton] at hd
    exact .inl ⟨rfl, hd⟩
  | case2 t => exact .inr ⟨t, List.mem_singleton_self t, hd⟩
  | case3 a b rest ih =>
    rcases ih hd with ⟨hnil, -⟩ | ⟨t, ht, hdt⟩
    · simp [pairUp] at hnil
    · exact .inr (mem_leaves_pairUp ht hdt)

/-- The leaves of the tree over a list are its digests, or the zero digest
for the empty list. -/
theorem mem_leaves_tree {l : List Digest} {d : Digest} (hd : d ∈ (tree l).leaves) :
    d = Digest.zero ∨ d ∈ l := by
  rcases mem_leaves_build hd with ⟨-, hz⟩ | ⟨t, ht, hdt⟩
  · exact .inl hz
  · obtain ⟨d', hd', rfl⟩ := List.mem_map.mp ht
    simp only [Tree.leaves, List.mem_singleton] at hdt
    exact .inr (hdt ▸ hd')

theorem uniform_map_leaf (l : List Digest) : Uniform 0 (l.map .leaf) := by
  intro t ht
  obtain ⟨d, -, rfl⟩ := List.mem_map.mp ht
  rfl

theorem nodup_map_leaf {l : List Digest} (hnd : l.Nodup) : (l.map Tree.leaf).Nodup :=
  hnd.map fun _ _ h => Tree.leaf.inj h

/-- The empty list has the tree of the single zero digest. -/
theorem tree_nil : tree [] = build [.leaf Digest.zero] := by
  rw [build_singleton, tree, List.map_nil, build]

/-- Two lists of digests without repeats, neither holding the zero digest, have
one root only if they are equal, provided the joins of their trees do not
collide and no leaf (nor the zero digest of the empty list) is the digest of a
join. -/
theorem eq_of_root_eq {l l' : List Digest} (hnd : l.Nodup) (hnd' : l'.Nodup)
    (hzero : Digest.zero ∉ l ++ l')
    (hinj : Set.InjOn sha256 {p | p ∈ (tree l).joins ++ (tree l').joins})
    (hleaf : ∀ d ∈ Digest.zero :: (l ++ l'), ∀ p ∈ (tree l).joins ++ (tree l').joins, sha256 p ≠ d)
    (h : root l = root l') : l = l' := by
  rw [root_eq_digest_tree, root_eq_digest_tree] at h
  have htree : tree l = tree l' := Tree.eq_of_digest_eq hinj (fun d hd => hleaf d (by
    simp only [List.mem_append] at hd
    rcases hd with hd | hd <;> rcases mem_leaves_tree hd with rfl | hd <;> simp [hd])) h
  -- an empty list stands for the single zero digest, which neither list holds
  have hsingle : ∀ {k : List Digest}, k.Nodup → k ≠ [] → Digest.zero ∉ k →
      tree [] ≠ tree k := by
    intro k hk hne hz heq
    rw [tree_nil, tree] at heq
    have hk' := build_inj (by simp) (by simpa using hne) (uniform_map_leaf [Digest.zero])
      (uniform_map_leaf k) (by simp) (nodup_map_leaf hk) heq
    exact hz (List.map_injective_iff.mpr (fun _ _ h => Tree.leaf.inj h) hk' ▸ List.mem_singleton_self _)
  cases l with
  | nil =>
    cases l' with
    | nil => rfl
    | cons d l' => exact absurd htree (hsingle hnd' (List.cons_ne_nil _ _) fun h => hzero (by simp [h]))
  | cons d l =>
    cases l' with
    | nil => exact absurd htree.symm (hsingle hnd (List.cons_ne_nil _ _) fun h => hzero (by simp [h]))
    | cons d' l' =>
      exact List.map_injective_iff.mpr (fun _ _ h => Tree.leaf.inj h)
        (build_inj (by simp) (by simp) (uniform_map_leaf _) (uniform_map_leaf _) (nodup_map_leaf hnd)
          (nodup_map_leaf hnd') htree)

/-! ## Repeats -/

theorem root_of_two_le {l : List Digest} (h : 2 ≤ l.length) : root l = root (level l) := by
  match l, h with
  | a :: b :: rest, _ => rw [root]

/-- Repeating the last digest of a list of odd length does not change the
level above it: the lone last digest is already joined with itself. -/
theorem level_append_last (l : List Digest) (d : Digest) (he : Even l.length) :
    level (l ++ [d, d]) = level (l ++ [d]) := by
  induction l using level.induct with
  | case1 a b rest ih =>
    simp only [List.cons_append, level, List.cons.injEq, true_and]
    exact ih (by simpa [Nat.even_add_one] using he)
  | case2 a => simp at he
  | case3 => simp [level]

/-- A list of odd length, at least three, and the list with its last digest
repeated have one root. -/
theorem root_append_last {l : List Digest} {d : Digest} (hlast : l.getLast? = some d)
    (hodd : Odd l.length) (h3 : 3 ≤ l.length) : root (l ++ [d]) = root l := by
  obtain ⟨l₀, rfl⟩ := List.getLast?_eq_some_iff.mp hlast
  have he : Even l₀.length := by simpa [Nat.odd_add_one] using hodd
  have hlen : 3 ≤ l₀.length + 1 := by simpa using h3
  have hlong : 2 ≤ (l₀ ++ [d, d]).length := by simp only [List.length_append, List.length_cons]; omega
  have hlong' : 2 ≤ (l₀ ++ [d]).length := by simp only [List.length_append, List.length_cons]; omega
  rw [List.append_assoc, List.singleton_append, root_of_two_le hlong, root_of_two_le hlong',
    level_append_last l₀ d he]

end Merkle

/-! ## Transaction roots -/

namespace Block

/-- The preimages hashed on the way to a transaction root: the transactions'
canonical preimages at the leaves, and the joins above them. -/
def txRootPreimages (txs : List SignedTx) : List ByteArray :=
  txs.map (·.tx.canonical) ++ (Merkle.tree (txs.map SignedTx.hash)).joins

theorem canonical_mem_txRootPreimages {txs : List SignedTx} {s : SignedTx} (hs : s ∈ txs) :
    s.tx.canonical ∈ txRootPreimages txs :=
  List.mem_append_left _ (List.mem_map_of_mem hs)

theorem joins_subset_txRootPreimages (txs : List SignedTx) :
    ∀ p ∈ (Merkle.tree (txs.map SignedTx.hash)).joins, p ∈ txRootPreimages txs :=
  fun _ hp => List.mem_append_right _ hp

section Commitment

variable {txs txs' : List SignedTx}

/-- With no collision on the preimages of either root and no preimage hashing
to zero, the leaves are neither zero nor the digest of a join: a join has
sixty-four bytes, a transaction's preimage at least ninety-one. -/
theorem leaf_ne_join (hinj : Set.InjOn sha256 {p | p ∈ txRootPreimages txs ++ txRootPreimages txs'})
    (hzero : ∀ p ∈ txRootPreimages txs ++ txRootPreimages txs', sha256 p ≠ Digest.zero) :
    ∀ d ∈ Digest.zero :: (txs.map SignedTx.hash ++ txs'.map SignedTx.hash),
      ∀ p ∈ (Merkle.tree (txs.map SignedTx.hash)).joins ++ (Merkle.tree (txs'.map SignedTx.hash)).joins,
        sha256 p ≠ d := by
  intro d hd p hp
  have hpmem : p ∈ txRootPreimages txs ++ txRootPreimages txs' := by
    simp only [List.mem_append] at hp ⊢
    rcases hp with hp | hp
    · exact .inl (joins_subset_txRootPreimages _ p hp)
    · exact .inr (joins_subset_txRootPreimages _ p hp)
  have hsize : p.size = 64 := by
    rcases List.mem_append.mp hp with hp | hp <;> exact Merkle.Tree.size_of_mem_joins hp
  simp only [List.mem_cons, List.mem_append, List.mem_map] at hd
  rcases hd with rfl | ⟨s, hs, rfl⟩ | ⟨s, hs, rfl⟩
  · exact hzero p hpmem
  all_goals
    intro heq
    have hc : s.tx.canonical ∈ txRootPreimages txs ++ txRootPreimages txs' := by
      simp [canonical_mem_txRootPreimages hs]
    have hsame : p = s.tx.canonical := hinj hpmem hc heq
    have := Transaction.size_canonical s.tx
    rw [hsame] at hsize
    omega

/-- Under a hash with no collision on the preimages of two transaction roots,
none of them hashing to zero, two lists of transactions whose identities do
not repeat have one root only if they list the same identities. -/
theorem eq_of_txRootOf_eq (hnd : (txs.map SignedTx.hash).Nodup) (hnd' : (txs'.map SignedTx.hash).Nodup)
    (hinj : Set.InjOn sha256 {p | p ∈ txRootPreimages txs ++ txRootPreimages txs'})
    (hzero : ∀ p ∈ txRootPreimages txs ++ txRootPreimages txs', sha256 p ≠ Digest.zero)
    (h : txRootOf txs = txRootOf txs') : txs.map SignedTx.hash = txs'.map SignedTx.hash := by
  have hleaf := leaf_ne_join hinj hzero
  refine Merkle.eq_of_root_eq hnd hnd' ?_ ?_ (fun d hd p hp => hleaf d hd p hp) h
  · -- an identity is the digest of a preimage, which is not zero
    simp only [List.mem_append, List.mem_map, not_or, not_exists, not_and]
    constructor <;> intro s hs heq <;>
      exact hzero _ (by simp [canonical_mem_txRootPreimages hs]) heq
  · refine hinj.mono fun p hp => ?_
    simp only [Set.mem_ofPred_eq, List.mem_append] at hp ⊢
    rcases hp with hp | hp
    · exact .inl (joins_subset_txRootPreimages _ p hp)
    · exact .inr (joins_subset_txRootPreimages _ p hp)

/-- The transaction root commits to a list of identities without repeats.
Under a hash with no collision on the preimages of two roots, none of them
hashing to zero, two lists without repeated identities share a root only if
they list the same identities; leaves are digests of preimages of at least
ninety-one bytes and joins of sixty-four, so no leaf is a join.  Repeats break
the commitment: a list of odd length and the list with its last digest
repeated share a root.  Every root is the digest of the tree over its list,
reached after `⌈log₂ n⌉` levels. -/
theorem txRootOf_commits :
    (∀ txs txs' : List SignedTx, (txs.map SignedTx.hash).Nodup → (txs'.map SignedTx.hash).Nodup →
      Set.InjOn sha256 {p | p ∈ txRootPreimages txs ++ txRootPreimages txs'} →
      (∀ p ∈ txRootPreimages txs ++ txRootPreimages txs', sha256 p ≠ Digest.zero) →
      txRootOf txs = txRootOf txs' → txs.map SignedTx.hash = txs'.map SignedTx.hash) ∧
    (∀ s : SignedTx, 91 ≤ s.tx.canonical.size) ∧
    (∀ l : List Digest, ∀ p ∈ (Merkle.tree l).joins, p.size = 64) ∧
    (∀ (l : List Digest) (d : Digest), l.getLast? = some d → Odd l.length → 3 ≤ l.length →
      Merkle.root (l ++ [d]) = Merkle.root l) ∧
    (∀ l : List Digest, Merkle.root l = (Merkle.tree l).digest ∧
      (Merkle.tree l).height = Nat.clog 2 l.length) :=
  ⟨fun _ _ hnd hnd' hinj hzero h => eq_of_txRootOf_eq hnd hnd' hinj hzero h,
    fun s => by rw [Transaction.size_canonical]; omega,
    fun _ _ hp => Merkle.Tree.size_of_mem_joins hp,
    fun _ _ hlast hodd h3 => Merkle.root_append_last hlast hodd h3,
    fun l => ⟨Merkle.root_eq_digest_tree l, Merkle.height_tree l⟩⟩

/-- A transfer of nothing from the zero address to itself, numbered `n`, under
the signature `sig`. -/
def numberedTransfer (n : UInt64) (sig : ByteArray) : SignedTx :=
  ⟨⟨Address.zero, Address.zero, n, 0, 0, 0, ByteArray.empty, 0⟩, sig⟩

/-- Three transfers numbered 1 to 3, unsigned. -/
def threeTransfers : List SignedTx := [1, 2, 3].map (numberedTransfer · ByteArray.empty)

/-- The same three transfers under another signature. -/
def resignedTransfers : List SignedTx := [1, 2, 3].map (numberedTransfer · ⟨#[1]⟩)

/-- The kernel's digests of the three transfers: distinct identities, and
distinct digests, none zero, of the preimages of their root — the three
transactions and the three joins above them. -/
theorem threeTransfers_digests :
    (threeTransfers.map SignedTx.hash).Nodup ∧ ((txRootPreimages threeTransfers).map sha256).Nodup ∧
      ∀ p ∈ txRootPreimages threeTransfers, sha256 p ≠ Digest.zero := by
  decide +kernel

/-- Three transfers, and the same three signed otherwise, share a root, and
the commitment identifies them: their identities agree, signatures apart.  The
three with the last repeated share the root of the three, the repeat the root
cannot see. -/
theorem txRootOf_commits_three :
    txRootOf threeTransfers = txRootOf resignedTransfers ∧
      threeTransfers.map SignedTx.hash = resignedTransfers.map SignedTx.hash ∧
      txRootOf (threeTransfers ++ [numberedTransfer 3 ByteArray.empty]) = txRootOf threeTransfers := by
  obtain ⟨hnd, hdigests, hzero⟩ := threeTransfers_digests
  -- a signature is part of neither an identity nor a preimage
  have hsame : txRootPreimages resignedTransfers = txRootPreimages threeTransfers := rfl
  have hroot : txRootOf threeTransfers = txRootOf resignedTransfers := rfl
  have hinj : Set.InjOn sha256 {p | p ∈ txRootPreimages threeTransfers ++ txRootPreimages resignedTransfers} := by
    intro p hp q hq h
    simp only [hsame, Set.mem_ofPred_eq, List.mem_append, or_self] at hp hq
    exact List.inj_on_of_nodup_map hdigests hp hq h
  have hzero' : ∀ p ∈ txRootPreimages threeTransfers ++ txRootPreimages resignedTransfers,
      sha256 p ≠ Digest.zero := by
    intro p hp
    rw [hsame, List.mem_append, or_self] at hp
    exact hzero p hp
  obtain ⟨hcommit, -, -, hrepeat, -⟩ := txRootOf_commits
  refine ⟨hroot, hcommit _ _ hnd hnd hinj hzero' hroot, ?_⟩
  rw [txRootOf, txRootOf, List.map_append, List.map_singleton]
  exact hrepeat _ _ rfl ⟨1, rfl⟩ (by decide)

end Commitment

end Block
end PowChain
