import PowChain.Proofs.Chain.Run
import PowChain.Proofs.Store.Contract

/-!
# Walking a chain back to block 0

A chain's blocks, newest first, form a lineage (`Chain.Lineage`): each block
is numbered by the count of blocks below it, carries a non-zero hash that its
header recomputes, and all but block 0 name the block below as parent, meet
the difficulty, commit to their transactions and are younger than their
parent; block 0 has the zero parent.

When every block of a lineage is stored under its hash (`Chain.Stored`) and
the cache holds only stored blocks under their own hashes
(`Chain.CacheSound`), reading a block gives the stored block
(`getBlock_stored`), and a walk from the newest block reads the lineage block
by block and stops after block 0: it computes the pure walk over the list
(`walkFrom_lineage`, `walkList_of_step`).  So:

* `blockHashes_lineage` — the canonical hashes are the lineage's hashes,
  oldest first: the walk bound is never reached, since the blocks of a
  lineage are stored under distinct keys (`length_le_size`);
* `verify_lineage` — the chain check passes and counts the lineage.

Walks change nothing but the cache, and leave it sound.
-/

namespace PowChain
namespace Chain

open ChainM

/-! ## Lineages -/

/-- The blocks of a chain, newest first, down to block 0 at difficulty
`bits`. -/
inductive Lineage (bits : Nat) : List Block → Prop
  /-- Block 0: numbered zero, with the zero parent. -/
  | genesis {b : Block} (number : b.header.number = 0) (parent : b.header.parentHash.isZero = true)
      (hash : b.header.computeHash = b.hash) (nonzero : b.hash.isZero = false) : Lineage bits [b]
  /-- A block on top of the lineage `p :: rest`. -/
  | cons {b p : Block} {rest : List Block} (below : Lineage bits (p :: rest))
      (number : b.header.number.toNat = (p :: rest).length) (parent : b.header.parentHash = p.hash)
      (hash : b.header.computeHash = b.hash) (nonzero : b.hash.isZero = false)
      (work : Target.meets b.hash bits = true)
      (txRoot : Block.txRootOf b.transactions = b.header.txRoot)
      (time : p.header.timestamp.toInt < b.header.timestamp.toInt) : Lineage bits (b :: p :: rest)

namespace Lineage

variable {bits : Nat} {b p : Block} {bs rest : List Block}

theorem number_toNat (h : Lineage bits (b :: bs)) : b.header.number.toNat = bs.length := by
  cases h with
  | genesis number => simp [number]
  | cons _ number => exact number

theorem hash_eq (h : Lineage bits (b :: bs)) : b.header.computeHash = b.hash := by
  cases h with
  | genesis _ _ hash => exact hash
  | cons _ _ _ hash => exact hash

theorem nonzero (h : Lineage bits (b :: bs)) : b.hash.isZero = false := by
  cases h with
  | genesis _ _ _ nonzero => exact nonzero
  | cons _ _ _ _ nonzero => exact nonzero

theorem tail (h : Lineage bits (b :: p :: rest)) : Lineage bits (p :: rest) := by
  cases h with
  | cons below => exact below

theorem parent_isZero (h : Lineage bits [b]) : b.header.parentHash.isZero = true := by
  cases h with
  | genesis _ parent => exact parent

theorem parent (h : Lineage bits (b :: p :: rest)) : b.header.parentHash = p.hash := by
  cases h with
  | cons _ _ parent => exact parent

theorem work (h : Lineage bits (b :: p :: rest)) : Target.meets b.hash bits = true := by
  cases h with
  | cons _ _ _ _ _ work => exact work

theorem txRoot (h : Lineage bits (b :: p :: rest)) :
    Block.txRootOf b.transactions = b.header.txRoot := by
  cases h with
  | cons _ _ _ _ _ _ txRoot => exact txRoot

/-- Block numbers count down from the newest block to zero. -/
theorem map_number (h : Lineage bits bs) :
    bs.map (·.header.number.toNat) = (List.range bs.length).reverse := by
  induction h with
  | genesis number => simp [number]
  | cons below number _ _ _ _ _ _ ih =>
    rw [List.map_cons, ih, number]
    simp [List.range_succ]

theorem nodup (h : Lineage bits bs) : bs.Nodup := by
  have hnums : (bs.map (·.header.number.toNat)).Nodup := by
    rw [h.map_number]
    exact List.nodup_reverse.mpr List.nodup_range
  exact List.Nodup.of_map _ hnums

end Lineage

/-! ## Stored blocks -/

/-- The record under `b`'s hash in `m` reads back as `b`. -/
def Stored (m : KvMap) (b : Block) : Prop :=
  ∃ bytes, m.get? (Keys.block b.hash.bytes) = some bytes ∧ decodeRecord Block.readWire bytes = .ok b

/-- Every entry of the cache is a stored block under its own hash. -/
def CacheSound (m : KvMap) (cache : Lru Digest Block) : Prop :=
  ∀ e ∈ cache.entries, e.1 = e.2.hash ∧ Stored m e.2

theorem Digest.ext_bytes {d d' : Digest} (h : d.bytes = d'.bytes) : d = d' := by
  cases d
  cases d'
  cases h
  rfl

/-- One record holds one block: two stored blocks with one hash are equal. -/
theorem Stored.unique {m : KvMap} {b b' : Block} (h : Stored m b) (h' : Stored m b')
    (hhash : b'.hash = b.hash) : b' = b := by
  obtain ⟨bytes, hget, hdec⟩ := h
  obtain ⟨bytes', hget', hdec'⟩ := h'
  rw [hhash, hget, Option.some.injEq] at hget'
  rw [← hget', hdec, Except.ok.injEq] at hdec'
  exact hdec'.symm

theorem KvMap.mem_keys_of_get? {m : KvMap} {k v : ByteArray} (h : m.get? k = some v) :
    k ∈ m.entries.map (·.1) := by
  obtain ⟨e, he, -⟩ := Option.map_eq_some_iff.mp h
  have hbeq := List.find?_some he
  have hk : e.1 = k := Bytes.beq_eq_true_iff.mp hbeq
  exact List.mem_map.mpr ⟨e, List.mem_of_find?_eq_some he, hk⟩

/-- A lineage stored in `m` takes as many entries of `m` as it has blocks:
its blocks have distinct numbers, so distinct hashes, so distinct keys. -/
theorem length_le_size {m : KvMap} {bits : Nat} {bs : List Block} (hl : Lineage bits bs)
    (hs : ∀ b ∈ bs, Stored m b) : bs.length ≤ m.size := by
  have hinj : ∀ x ∈ bs, ∀ y ∈ bs, x.hash.bytes = y.hash.bytes → x = y := by
    intro x hx y hy hxy
    have hhash : x.hash = y.hash := Digest.ext_bytes hxy
    exact (hs y hy).unique (hs x hx) hhash
  have hkeys : (bs.map (·.hash.bytes)).Nodup := hl.nodup.map_on hinj
  have hsub : bs.map (·.hash.bytes) ⊆ m.entries.map (·.1) := by
    intro k hk
    obtain ⟨b, hb, rfl⟩ := List.mem_map.mp hk
    obtain ⟨bytes, hget, -⟩ := hs b hb
    exact KvMap.mem_keys_of_get? hget
  simpa [KvMap.size] using hkeys.length_le_of_subset hsub

/-! ## Reading a stored block -/

/-- Reading a stored block by its hash gives the block, from the cache or
from the store, and keeps the cache sound. -/
theorem getBlock_stored {c : Chain} {m : KvMap} {b : Block} (hm : c.store.Faithful m)
    (hc : CacheSound m c.cache) (hb : Stored m b) :
    ∃ c', (getBlock b.hash).run.run c = (.ok b, c') ∧ Frame c c' ∧ CacheSound m c'.cache := by
  rw [getBlock_run]
  cases hpeek : c.cache.peek b.hash with
  | some b' =>
    -- a block cached under `b`'s hash is `b` itself
    obtain ⟨hkey, hstored⟩ := hc _ (Lru.mem_of_peek hpeek)
    obtain rfl : b' = b := hb.unique hstored hkey.symm
    exact ⟨_, rfl, Frame.of_cache _ _, fun e he => hc e (Lru.mem_get he)⟩
  | none =>
    obtain ⟨bytes, hget, hdec⟩ := hb
    simp only [hm.get?, hget, hdec]
    refine ⟨_, rfl, Frame.of_cache _ _, fun e he => ?_⟩
    rcases Lru.mem_put he with rfl | he
    · exact ⟨rfl, bytes, hget, hdec⟩
    · exact hc e (Lru.mem_get he)

/-! ## Walks -/

section Walks

variable {σ α : Type} (step : σ → Block → Result (Walk σ α)) (finish : σ → Result α)

/-- The walk over a list of blocks, newest first, that `walkFrom` makes along
a lineage. -/
def walkList : List Block → σ → Result α
  | [], s => finish s
  | b :: bs, s =>
    match step s b with
    | .error e => .error e
    | .ok (.stop a) => .ok a
    | .ok (.more s') => walkList bs s'

/-- One block of a walk, once read: it is fed to `step`, and the walk goes on
to its parent unless it is block 0. -/
theorem walkFrom_succ_run {fuel : Nat} {h : Digest} {s : σ} {c c₁ : Chain} {b : Block}
    (hget : (getBlock h).run.run c = (.ok b, c₁)) :
    (walkFrom step finish (fuel + 1) h s).run.run c =
      match step s b with
      | .error e => (.error e, c₁)
      | .ok (.stop a) => (.ok a, c₁)
      | .ok (.more s') =>
        if b.header.parentHash.isZero then (finish s', c₁)
        else (walkFrom step finish fuel b.header.parentHash s').run.run c₁ := by
  simp only [walkFrom, run_bind, hget, run_lift]
  cases step s b with
  | error e => rfl
  | ok w =>
    cases w with
    | stop a => rfl
    | more s' => by_cases hz : b.header.parentHash.isZero <;> simp [hz]

/-- Along a stored lineage, with fuel for every block, `walkFrom` from the
newest block computes `walkList` over the lineage. -/
theorem walkFrom_lineage {bits : Nat} {m : KvMap} :
    ∀ {bs : List Block} {b : Block}, Lineage bits (b :: bs) → (∀ x ∈ b :: bs, Stored m x) →
    ∀ {c c' : Chain} {fuel : Nat} {s : σ} {r : Result α}, c.store.Faithful m → CacheSound m c.cache →
      bs.length < fuel → (walkFrom step finish fuel b.hash s).run.run c = (r, c') →
      r = walkList step finish (b :: bs) s ∧ Frame c c' ∧ CacheSound m c'.cache := by
  intro bs
  induction bs with
  | nil =>
    intro b hl hs c c' fuel s r hm hc hfuel hrun
    obtain ⟨k, rfl⟩ : ∃ k, fuel = k + 1 := ⟨fuel - 1, by simp at hfuel; omega⟩
    obtain ⟨c₁, hget, hframe, hcache⟩ := getBlock_stored hm hc (hs b List.mem_cons_self)
    rw [walkFrom_succ_run _ _ hget] at hrun
    -- block 0 ends the walk whatever `step` makes of it
    have hzero := hl.parent_isZero
    simp only [walkList]
    cases hstep : step s b with
    | error e =>
      rw [hstep] at hrun
      cases hrun
      exact ⟨rfl, hframe, hcache⟩
    | ok w =>
      rw [hstep] at hrun
      cases w with
      | stop a =>
        cases hrun
        exact ⟨rfl, hframe, hcache⟩
      | more s' =>
        simp only [hzero, if_true] at hrun
        cases hrun
        exact ⟨rfl, hframe, hcache⟩
  | cons p rest ih =>
    intro b hl hs c c' fuel s r hm hc hfuel hrun
    obtain ⟨k, rfl⟩ : ∃ k, fuel = k + 1 := ⟨fuel - 1, by simp at hfuel; omega⟩
    obtain ⟨c₁, hget, hframe, hcache⟩ := getBlock_stored hm hc (hs b List.mem_cons_self)
    rw [walkFrom_succ_run _ _ hget] at hrun
    -- the parent is the next block of the lineage, whose hash is not zero
    have hparent := hl.parent
    have hnonzero := hl.tail.nonzero
    simp only [walkList]
    cases hstep : step s b with
    | error e =>
      rw [hstep] at hrun
      cases hrun
      exact ⟨rfl, hframe, hcache⟩
    | ok w =>
      rw [hstep] at hrun
      cases w with
      | stop a =>
        cases hrun
        exact ⟨rfl, hframe, hcache⟩
      | more s' =>
        simp only [hparent, hnonzero, Bool.false_eq_true, if_false] at hrun
        have hm₁ : c₁.store.Faithful m := hframe.store ▸ hm
        obtain ⟨hr, hframe', hcache'⟩ := ih hl.tail (fun x hx => hs x (List.mem_cons_of_mem _ hx))
          hm₁ hcache (by simp at hfuel; omega) hrun
        exact ⟨hr, hframe.trans hframe', hcache'⟩

/-- A walk in which every block moves the state on, keeping a relation
between the blocks still to come and the state, ends with `finish` at a state
related to no blocks left. -/
theorem walkList_of_step (R : List Block → σ → Prop)
    (hstep : ∀ b rest s, R (b :: rest) s → ∃ s', step s b = .ok (.more s') ∧ R rest s')
    {r : Result α} (hfinish : ∀ s, R [] s → finish s = r) :
    ∀ (bs : List Block) (s : σ), R bs s → walkList step finish bs s = r := by
  intro bs
  induction bs with
  | nil => exact fun s hs => hfinish s hs
  | cons b rest ih =>
    intro s hs
    obtain ⟨s', hs', hR⟩ := hstep b rest s hs
    rw [walkList, hs']
    exact ih s' hR

end Walks

/-! ## The canonical hashes and the chain check -/

section Lineage

variable {c c' : Chain} {m : KvMap} {b : Block} {bs : List Block}

/-- The canonical hashes of a chain whose tip heads a stored lineage are the
lineage's hashes, oldest first. -/
theorem blockHashes_lineage {bits : Nat} {r : Result (List Digest)} (hl : Lineage bits (b :: bs))
    (hs : ∀ x ∈ b :: bs, Stored m x) (hm : c.store.Faithful m) (hc : CacheSound m c.cache)
    (htip : c.tip.hash = b.hash) (hrun : blockHashes.run.run c = (r, c')) :
    r = .ok ((b :: bs).map Block.hash).reverse ∧ Frame c c' ∧ CacheSound m c'.cache := by
  simp only [blockHashes, run_bind, run_get, htip] at hrun
  have hfuel : bs.length < c.walkBound := by
    have hlen := length_le_size hl hs
    have hsize := hm.shows.size
    simp only [List.length_cons] at hlen
    unfold walkBound
    omega
  obtain ⟨rfl, hframe, hcache⟩ := walkFrom_lineage _ _ hl hs hm hc hfuel hrun
  refine ⟨?_, hframe, hcache⟩
  -- what is left to walk, reversed, then what was collected: always the answer
  refine walkList_of_step _ _
    (fun l acc => (l.map Block.hash).reverse ++ acc = ((b :: bs).map Block.hash).reverse)
    (fun x rest acc hR => ⟨x.hash :: acc, rfl, by simpa using hR⟩) (fun acc hR => ?_) (b :: bs) []
    (by simp)
  simp only [List.map_nil, List.reverse_nil, List.nil_append] at hR
  rw [hR]

/-- The counters of the chain check at a point of the walk: the blocks still
to come are `l`, of a chain of `n` blocks. -/
def CheckAt (bits n : Nat) (l : List Block) (k : Check) : Prop :=
  k.visited.toNat + l.length = n ∧ k.number.toNat = l.length ∧
    ∀ x rest, l = x :: rest → Lineage bits (x :: rest) ∧ k.hash = x.hash

/-- The chain check passes on a chain whose tip heads a stored lineage of as
many blocks as the tip counts. -/
theorem verify_lineage {r : Result UInt64} (hl : Lineage c.difficulty (b :: bs))
    (hs : ∀ x ∈ b :: bs, Stored m x) (hm : c.store.Faithful m) (hc : CacheSound m c.cache)
    (htip : c.tip.hash = b.hash) (hlen : (b :: bs).length = c.tip.length.toNat)
    (hrun : verify.run.run c = (r, c')) :
    r = .ok c.tip.length ∧ Frame c c' ∧ CacheSound m c'.cache := by
  simp only [verify, run_bind, run_get] at hrun
  rw [htip] at hrun
  obtain ⟨rfl, hframe, hcache⟩ :=
    walkFrom_lineage _ _ hl hs hm hc (by simp at hlen; omega) hrun
  clear hrun
  refine ⟨?_, hframe, hcache⟩
  have hn := c.tip.length.toNat_lt
  refine walkList_of_step _ _ (CheckAt c.difficulty c.tip.length.toNat) ?_ ?_ (b :: bs)
    ⟨b.hash, c.tip.length, 0⟩ ⟨by simpa using hlen, by simpa using hlen.symm,
      fun x rest h => by cases h; exact ⟨hl, rfl⟩⟩
  · intro x rest k ⟨hvisited, hnumber, hhead⟩
    obtain ⟨hx, hhash⟩ := hhead x rest rfl
    simp only [List.length_cons] at hvisited hnumber
    -- the walk has not passed the tip's count, and numbers count down
    have hnext : ¬ (k.visited + 1 > c.tip.length) := by
      simp only [gt_iff_lt, UInt64.lt_iff_toNat_lt, UInt64.toNat_add, UInt64.toNat_one]
      omega
    have hvis : (k.visited + 1).toNat = k.visited.toNat + 1 := by
      simp only [UInt64.toNat_add, UInt64.toNat_one]
      omega
    have hnum : (k.number - 1).toNat = rest.length := by
      rw [UInt64.toNat_sub_of_le _ _ (by rw [UInt64.le_iff_toNat_le]; simp [hnumber])]
      simp [hnumber]
    have hxnum : x.header.number = k.number - 1 :=
      UInt64.toNat_inj.mp (hx.number_toNat.trans hnum.symm)
    refine ⟨⟨x.header.parentHash, k.number - 1, k.visited + 1⟩, ?_, ?_⟩
    · cases rest with
      | nil =>
        have hgen : x.isGenesis = true := by
          simp [Block.isGenesis, ← UInt64.toNat_inj, hx.number_toNat]
        simp [hnext, hhash, hx.hash_eq, hxnum, hgen, pure, Except.pure]
      | cons p rest =>
        have hgen : x.isGenesis = false := by
          simp [Block.isGenesis, ← UInt64.toNat_inj, hx.number_toNat]
        simp [hnext, hhash, hx.hash_eq, hxnum, hgen, Mining.validate, hx.work, hx.txRoot, pure,
          Except.pure]
    · refine ⟨by simp only [hvis]; omega, hnum, fun y rest' hrest => ?_⟩
      subst hrest
      exact ⟨hx.tail, hx.parent⟩
  · intro k ⟨hvisited, _, _⟩
    have hk : k.visited = c.tip.length := by
      apply UInt64.toNat_inj.mp
      simpa using hvisited
    simp [hk]

end Lineage

end Chain
end PowChain
