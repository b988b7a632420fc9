import PowChain.Proofs.Chain.WellFormed

/-!
# The chain check on any store

`verify` walks from the tip back along parent links, re-checking each block,
for at most one block more than the tip counts (`verify_run`: its step is
`checkStep`, one of the steps `checkStepWith` gives).  Nothing is assumed here of the
store: it may miss blocks, hold a block under another block's hash, link in a
cycle, number blocks wrongly or keep a stale length.

* `verify_sound` — when the check passes, it answers the tip's count, and the
  walk read exactly that many blocks (`ReadsBack`), each under its own hash and
  the next under its parent, the last and only the last with the zero parent;
  they are numbered down to zero, their headers recompute their hashes, and all
  but block 0 meet the difficulty and commit to their transactions
  (`Checked`).
* `walk_exact_eq_verify` — on a store of fewer than `2 ^ 64 - 1` rows (cache
  included), counting the walk with counters that fail instead of wrapping
  (`checkStepExact`), and with any number of reads from the tip's count plus
  one on, gives exactly what `verify` gives: no counter wraps, and the walk
  stops by itself within the tip's count plus one reads.

The second rests on counting: the blocks a walk sees have distinct numbers, and
each is a cached block or decodes from a record (`readable`), so a walk cannot
see more blocks than the chain holds (`Partway`).
-/

namespace PowChain

/-- `a - b` on 64-bit words, failing as an overflow when it wraps. -/
def subWord (a b : UInt64) : Result UInt64 :=
  if b.toNat ≤ a.toNat then .ok (a - b) else .error (.arithmeticOverflow "sub")

theorem subWord_of_le {a b : UInt64} (h : b.toNat ≤ a.toNat) : subWord a b = .ok (a - b) :=
  if_pos h

namespace Chain

open ChainM

/-! ## The check, one block at a time -/

/-- The counters at the start of a check of the chain ending at `tip`. -/
def Check.start (tip : ChainTip) : Check := ⟨tip.hash, tip.length, 0⟩

/-- One block of the chain check, with the count of blocks seen moved up by
`inc` and the number expected next moved down by `dec`. -/
def checkStepWith (inc dec : UInt64 → Result UInt64) (tip : ChainTip) (bits : Nat) (k : Check)
    (b : Block) : Result (Walk Check UInt64) := do
  let visited ← inc k.visited
  if visited > tip.length then throw (.invalidBlock "Chain is longer than its recorded length")
  else if b.hash != k.hash || b.header.computeHash != b.hash then throw .invalidHash
  else
    let number ← dec k.number
    if b.header.number != number then throw (.invalidNumber number.toNat b.header.number.toNat)
    else if !b.isGenesis then
      if !Mining.validate b.header bits then throw .invalidProofOfWork
      else if Block.txRootOf b.transactions != b.header.txRoot then
        throw (.invalidBlock "Transaction root mismatch")
      else pure (.more ⟨b.header.parentHash, number, visited⟩)
    else pure (.more ⟨b.header.parentHash, number, visited⟩)

/-- The step `verify` takes: its counters wrap. -/
def checkStep : ChainTip → Nat → Check → Block → Result (Walk Check UInt64) :=
  checkStepWith (fun n => .ok (n + 1)) (fun n => .ok (n - 1))

/-- The step with counters that fail where they would wrap, as a build with
overflow checks does. -/
def checkStepExact : ChainTip → Nat → Check → Block → Result (Walk Check UInt64) :=
  checkStepWith (fun n => addWord n 1) (fun n => subWord n 1)

/-- The end of the walk: it must have seen as many blocks as the tip counts. -/
def checkFinish (tip : ChainTip) (k : Check) : Result UInt64 :=
  if k.visited != tip.length then
    .error (.invalidBlock s!"Walked {k.visited} blocks, expected {tip.length}")
  else .ok k.visited

/-- The chain check is the walk of `checkStep` from the tip, with fuel for one
block more than the tip counts. -/
theorem verify_run (c : Chain) : verify.run.run c =
    (walkFrom (checkStep c.tip c.difficulty) (checkFinish c.tip) (c.tip.length.toNat + 1) c.tip.hash
      (Check.start c.tip)).run.run c := by
  simp only [verify, run_bind, run_get]
  rfl

section Step

variable {tip : ChainTip} {bits : Nat} {k : Check} {b : Block} {w : Walk Check UInt64}

/-- A block passes the check only when the walk has not passed the tip's
count, the block sits under the hash expected and recomputes it, carries the
number expected, and, unless it is block 0, meets the difficulty and commits
to its transactions; the walk then goes on to its parent. -/
theorem checkStep_eq_ok (h : checkStep tip bits k b = .ok w) :
    w = .more ⟨b.header.parentHash, k.number - 1, k.visited + 1⟩ ∧ k.visited + 1 ≤ tip.length ∧
      b.hash = k.hash ∧ b.header.computeHash = b.hash ∧ b.header.number = k.number - 1 ∧
      (b.isGenesis = false → Mining.validate b.header bits = true ∧
        Block.txRootOf b.transactions = b.header.txRoot) := by
  unfold checkStep checkStepWith at h
  beta_reduce at h
  obtain ⟨_, ⟨⟩, h⟩ := Except.bind_eq_ok.mp h
  split at h
  · cases h
  rename_i hlong
  split at h
  · cases h
  rename_i hhash
  obtain ⟨_, ⟨⟩, h⟩ := Except.bind_eq_ok.mp h
  split at h
  · cases h
  rename_i hnumber
  simp only [Bool.or_eq_true, bne_iff_ne, ne_eq, not_or, Decidable.not_not] at hhash
  simp only [bne_iff_ne, ne_eq, Decidable.not_not] at hnumber
  refine ⟨?_, UInt64.not_lt.mp hlong, hhash.1, hhash.2, hnumber, fun hgen => ?_⟩
  · split at h
    · split at h
      · cases h
      split at h
      · cases h
      exact (Except.ok.inj h).symm
    · exact (Except.ok.inj h).symm
  · -- a block that is not block 0 passed the work and root checks
    rw [if_pos (by simpa using hgen)] at h
    split at h
    · cases h
    rename_i hwork
    split at h
    · cases h
    rename_i hroot
    exact ⟨by simpa using hwork, by simpa using hroot⟩

/-- The walk ends well only when it saw as many blocks as the tip counts. -/
theorem checkFinish_eq_ok {v : UInt64} (h : checkFinish tip k = .ok v) :
    k.visited = tip.length ∧ v = tip.length := by
  unfold checkFinish at h
  split at h
  · cases h
  rename_i hseen
  simp only [bne_iff_ne, ne_eq, Decidable.not_not] at hseen
  exact ⟨hseen, (Except.ok.inj h).symm.trans hseen⟩

/-- A count of blocks seen that wrapped to zero never matches a tip that
counts blocks, so the final check fails. -/
theorem checkFinish_of_wrapped {v : UInt64} (hwrap : k.visited = 0) (hpos : 0 < tip.length.toNat) :
    checkFinish tip k ≠ .ok v := by
  intro h
  have hseen := (checkFinish_eq_ok h).1
  rw [hwrap] at hseen
  rw [← hseen, UInt64.toNat_zero] at hpos
  exact absurd hpos (Nat.lt_irrefl 0)

/-- The counters after a block that passed: the count of blocks seen moved up
by one and the number expected down by one from at least one, or the count
wrapped, which takes a tip that counts `2 ^ 64 - 1` blocks, all seen already. -/
theorem counters_of_le (hle : k.visited + 1 ≤ tip.length)
    (hnum : k.number.toNat + k.visited.toNat = tip.length.toNat) :
    ((k.visited + 1).toNat = k.visited.toNat + 1 ∧ (k.number - 1).toNat = k.number.toNat - 1 ∧
      1 ≤ k.number.toNat) ∨
    (k.visited + 1 = 0 ∧ k.visited.toNat = 2 ^ 64 - 1 ∧ tip.length.toNat = 2 ^ 64 - 1) := by
  have hv := k.visited.toNat_lt
  have hn := tip.length.toNat_lt
  rw [UInt64.le_iff_toNat_le, UInt64.toNat_add, UInt64.toNat_one] at hle
  by_cases hw : k.visited.toNat + 1 < 2 ^ 64
  · left
    rw [Nat.mod_eq_of_lt hw] at hle
    have hnumber : 1 ≤ k.number.toNat := by omega
    refine ⟨by rw [UInt64.toNat_add, UInt64.toNat_one, Nat.mod_eq_of_lt hw], ?_, hnumber⟩
    rw [UInt64.toNat_sub_of_le _ _ (by rw [UInt64.le_iff_toNat_le]; simpa using hnumber)]
    simp
  · right
    have hvis : k.visited.toNat = 2 ^ 64 - 1 := by omega
    refine ⟨UInt64.toNat_inj.mp ?_, hvis, by omega⟩
    rw [UInt64.toNat_add, UInt64.toNat_one, hvis]
    rfl

end Step

/-! ## What a passing check establishes -/

/-- `bs`, newest first, is what a walk from `h` reads on `c`, leaving `c'`:
each block is read under its own hash and the next under its parent, and the
last block, and only the last, has the zero parent. -/
inductive ReadsBack : Chain → Digest → List Block → Chain → Prop
  | last {c c' : Chain} {b : Block} (read : (getBlock b.hash).run.run c = (.ok b, c'))
      (zero : b.header.parentHash.isZero = true) : ReadsBack c b.hash [b] c'
  | cons {c c₁ c' : Chain} {b : Block} {bs : List Block}
      (read : (getBlock b.hash).run.run c = (.ok b, c₁)) (nonzero : b.header.parentHash.isZero = false)
      (rest : ReadsBack c₁ b.header.parentHash bs c') : ReadsBack c b.hash (b :: bs) c'

/-- What the chain check asks of the blocks it walks, newest first: their
numbers count down to zero, their headers recompute their hashes, and all but
block 0 meet the difficulty `bits` and commit to their transactions. -/
structure Checked (bits : Nat) (bs : List Block) : Prop where
  numbers : bs.map (·.header.number.toNat) = (List.range bs.length).reverse
  hashes : ∀ b ∈ bs, b.header.computeHash = b.hash
  sealed : ∀ b ∈ bs, b.isGenesis = false →
    Mining.validate b.header bits = true ∧ Block.txRootOf b.transactions = b.header.txRoot

namespace Checked

variable {bits : Nat} {b : Block} {bs : List Block}

theorem nil (bits : Nat) : Checked bits [] := ⟨rfl, by simp, by simp⟩

theorem cons (h : Checked bits bs) (number : b.header.number.toNat = bs.length)
    (hash : b.header.computeHash = b.hash)
    (sealed : b.isGenesis = false →
      Mining.validate b.header bits = true ∧ Block.txRootOf b.transactions = b.header.txRoot) :
    Checked bits (b :: bs) where
  numbers := by
    rw [List.map_cons, h.numbers, number]
    simp [List.range_succ]
  hashes x hx := by
    rcases List.mem_cons.mp hx with rfl | hx
    · exact hash
    · exact h.hashes x hx
  sealed x hx := by
    rcases List.mem_cons.mp hx with rfl | hx
    · exact sealed
    · exact h.sealed x hx

end Checked

section Walks

variable {σ α : Type} (step : σ → Block → Result (Walk σ α)) (finish : σ → Result α)

theorem walkFrom_zero_run (h : Digest) (s : σ) (c : Chain) :
    (walkFrom step finish 0 h s).run.run c = (finish s, c) := by
  simp only [walkFrom, run_lift]

/-- A walk whose block cannot be read fails as the read does. -/
theorem walkFrom_succ_of_error {fuel : Nat} {h : Digest} {s : σ} {c c₁ : Chain} {e : LedgerError}
    (hget : (getBlock h).run.run c = (.error e, c₁)) :
    (walkFrom step finish (fuel + 1) h s).run.run c = (.error e, c₁) := by
  simp only [walkFrom, run_bind, hget]

/-- Two walks from one block agree, the first with fuel above a measure and
the second with at least as much, when their steps agree while an invariant of
the chain and the walk's state holds, and every block that moves the first walk
on keeps the invariant and moves the measure down. -/
theorem walkFrom_congr {step₁ step₂ : σ → Block → Result (Walk σ α)} (I : Chain → σ → Prop) (μ : σ → Nat)
    (same : ∀ {c s}, I c s → ∀ b, step₁ s b = step₂ s b)
    (keeps : ∀ {c c₁ h s b s'}, I c s → (getBlock h).run.run c = (.ok b, c₁) →
      step₁ s b = .ok (.more s') → I c₁ s' ∧ μ s' < μ s) :
    ∀ {fuel fuel' : Nat} {h : Digest} {c : Chain} {s : σ}, I c s → μ s < fuel → fuel ≤ fuel' →
      (walkFrom step₁ finish fuel h s).run.run c = (walkFrom step₂ finish fuel' h s).run.run c := by
  intro fuel
  induction fuel with
  | zero =>
    intro _ _ _ _ _ hμ
    omega
  | succ g ih =>
    intro fuel' h c s hI hμ hle
    obtain ⟨g', rfl⟩ : ∃ g', fuel' = g' + 1 := ⟨fuel' - 1, by omega⟩
    rcases hget : (getBlock h).run.run c with ⟨_ | b, c₁⟩
    · rw [walkFrom_succ_of_error _ _ hget, walkFrom_succ_of_error _ _ hget]
    rw [walkFrom_succ_run _ _ hget, walkFrom_succ_run _ _ hget, ← same hI b]
    rcases hstep : step₁ s b with e | s' | a
    · rfl
    · -- the walk goes on: the invariant holds of the parent and the measure fell
      obtain ⟨hI', hμ'⟩ := keeps hI hget hstep
      dsimp only
      split
      · rfl
      · exact ih hI' (by omega) (by omega)
    · rfl

end Walks

/-! ## How far a walk can go -/

/-- The blocks a chain reads while its store shows `m`: those of its cache
and those its records decode to. -/
def readable (cache : Lru Digest Block) (m : KvMap) : List Block :=
  cache.entries.map Prod.snd ++ m.entries.filterMap fun e => (decodeRecord Block.readWire e.2).toOption

theorem length_readable (cache : Lru Digest Block) (m : KvMap) :
    (readable cache m).length ≤ cache.size + m.size := by
  have hrecords := List.length_filterMap_le (fun e : ByteArray × ByteArray =>
    (decodeRecord Block.readWire e.2).toOption) m.entries
  simp only [readable, List.length_append, List.length_map, Lru.size, KvMap.size]
  omega

theorem mem_readable_of_get? {cache : Lru Digest Block} {m : KvMap} {key bytes : ByteArray} {b : Block}
    (hget : m.get? key = some bytes) (hdec : decodeRecord Block.readWire bytes = .ok b) :
    b ∈ readable cache m := by
  obtain ⟨e, he, rfl⟩ := Option.map_eq_some_iff.mp hget
  refine List.mem_append_right _ (List.mem_filterMap.mpr ⟨e, List.mem_of_find?_eq_some he, ?_⟩)
  simp [hdec, Except.toOption]

/-- A block read comes from the cache, or decodes from the record under the
key it was read by. -/
theorem getBlock_source {h : Digest} {c c₁ : Chain} {b : Block}
    (hget : (getBlock h).run.run c = (.ok b, c₁)) :
    (h, b) ∈ c.cache.entries ∨
      ∃ bytes, c.store.get? (Keys.block h.bytes) = .ok (some bytes) ∧ decodeRecord Block.readWire bytes = .ok b := by
  rw [getBlock_run] at hget
  split at hget
  · rename_i b' hpeek
    cases (Prod.mk.inj hget).1
    exact .inl (Lru.mem_of_peek hpeek)
  · split at hget
    · cases (Prod.mk.inj hget).1
    · cases (Prod.mk.inj hget).1
    · rename_i bytes hrecord
      split at hget
      · cases (Prod.mk.inj hget).1
      · rename_i b' hdec
        cases (Prod.mk.inj hget).1
        exact .inr ⟨bytes, hrecord, hdec⟩

/-- A chain check partway along its walk, on a chain whose store shows `m`
and which reads only blocks of `S`: the counters add up to the tip's count `N`,
and the blocks seen so far are blocks of `S`, as many as were counted, numbered
from the number expected next up. -/
structure Partway (S : List Block) (m : KvMap) (N : Nat) (c : Chain) (k : Check) : Prop where
  store : c.store.Faithful m
  records : ∀ key bytes b, m.get? key = some bytes → decodeRecord Block.readWire bytes = .ok b → b ∈ S
  cache : ∀ e ∈ c.cache.entries, e.2 ∈ S
  visited : k.visited.toNat ≤ N
  number : k.number.toNat + k.visited.toNat = N
  seen : ∃ seen : List Block, seen ⊆ S ∧
    seen.map (·.header.number.toNat) = List.range' k.number.toNat k.visited.toNat

namespace Partway

variable {S : List Block} {m : KvMap} {tip : ChainTip} {bits : Nat} {c c₁ : Chain} {k k' : Check}
  {h : Digest} {b : Block}

/-- The check starts partway at nothing seen, on a chain that reads its cache
and its records. -/
theorem start (hm : c.store.Faithful m) : Partway (readable c.cache m) m c.tip.length.toNat c (Check.start c.tip) where
  store := hm
  records _ _ _ hget hdec := mem_readable_of_get? hget hdec
  cache e he := List.mem_append_left _ (List.mem_map_of_mem he)
  visited := by simp [Check.start]
  number := by simp [Check.start]
  seen := ⟨[], List.nil_subset _, by simp [Check.start]⟩

/-- The blocks seen are distinct, since their numbers are: no more were
counted than the chain can read. -/
theorem visited_le_length (hk : Partway S m N c k) : k.visited.toNat ≤ S.length := by
  obtain ⟨seen, hsub, hnums⟩ := hk.seen
  have hnodup : seen.Nodup := List.Nodup.of_map _ (hnums ▸ List.nodup_range')
  have hlen : seen.length = k.visited.toNat := by simpa using congrArg List.length hnums
  rw [← hlen]
  exact hnodup.length_le_of_subset hsub

/-- A read gives a block of `S`, keeps the cache within `S` and the store as
it was. -/
theorem read (hk : Partway S m N c k) (hget : (getBlock h).run.run c = (.ok b, c₁)) :
    b ∈ S ∧ (∀ e ∈ c₁.cache.entries, e.2 ∈ S) ∧ c₁.store = c.store := by
  have hframe := Frame.of_getBlock hget
  refine ⟨?_, fun e he => ?_, hframe.store⟩
  · rcases getBlock_source hget with hcached | ⟨bytes, hrecord, hdec⟩
    · exact hk.cache _ hcached
    · rw [hk.store.get?, Except.ok.injEq] at hrecord
      exact hk.records _ _ _ hrecord hdec
  · have he' : e ∈ ((getBlock h).run.run c).2.cache.entries := by rw [hget]; exact he
    rcases getBlock_entries h c he' with hcached | ⟨bytes, hrecord, hdec, -⟩
    · exact hk.cache e hcached
    · rw [hk.store.get?, Except.ok.injEq] at hrecord
      exact hk.records _ _ _ hrecord hdec

/-- While the chain reads fewer than `2 ^ 64 - 1` blocks, a block that passes
keeps the check partway, one more block counted. -/
theorem step (hS : S.length < 2 ^ 64 - 1) (hk : Partway S m tip.length.toNat c k)
    (hget : (getBlock h).run.run c = (.ok b, c₁)) (hstep : checkStep tip bits k b = .ok (.more k')) :
    Partway S m tip.length.toNat c₁ k' ∧ k'.visited.toNat = k.visited.toNat + 1 := by
  obtain ⟨hw, hle, -, -, hnumber, -⟩ := checkStep_eq_ok hstep
  cases hw
  have hbound := hk.visited_le_length
  rcases counters_of_le hle hk.number with ⟨hvis, hnum, hpos⟩ | ⟨-, hall, -⟩
  swap
  · omega
  obtain ⟨hb, hcache, hstore⟩ := hk.read hget
  obtain ⟨seen, hsub, hnums⟩ := hk.seen
  refine ⟨⟨hstore ▸ hk.store, hk.records, hcache, ?_, ?_, ⟨b :: seen, ?_, ?_⟩⟩, hvis⟩
  · rw [hvis]
    rw [UInt64.le_iff_toNat_le, hvis] at hle
    exact hle
  · have := hk.number
    simp only [hvis, hnum]
    omega
  · exact List.cons_subset.mpr ⟨hb, hsub⟩
  · obtain ⟨n, hn⟩ : ∃ n, k.number.toNat = n + 1 := ⟨k.number.toNat - 1, by omega⟩
    simp only [List.map_cons, hnums, hvis, hnum, hnumber, hn, List.range'_succ]
    simp

/-- While the chain reads fewer than `2 ^ 64 - 1` blocks, counters that fail
on a wrap never do: the step with them is the step `verify` takes. -/
theorem checkStep_eq_exact (hS : S.length < 2 ^ 64 - 1) (hk : Partway S m tip.length.toNat c k)
    (b : Block) : checkStep tip bits k b = checkStepExact tip bits k b := by
  have hbound := hk.visited_le_length
  have hadd : addWord k.visited 1 = .ok (k.visited + 1) := Ledger.addWord_of_lt (by simp; omega)
  unfold checkStep checkStepExact checkStepWith
  by_cases hlong : k.visited + 1 > tip.length
  · -- both fail on the count before the number is moved
    simp only [hadd, hlong, bind, Except.bind, if_true]
  · have hpos : 1 ≤ k.number.toNat := by
      have := hk.number
      rw [gt_iff_lt, UInt64.lt_iff_toNat_lt, UInt64.toNat_add, UInt64.toNat_one,
        Nat.mod_eq_of_lt (by omega)] at hlong
      omega
    have hsub : subWord k.number 1 = .ok (k.number - 1) := subWord_of_le (by simpa using hpos)
    simp only [hadd, hsub, hlong, bind, Except.bind, if_false]

end Partway

/-- On a chain whose store shows `m` and has fewer than `2 ^ 64 - 1` rows,
cache included, a check whose counters fail instead of wrapping, given any
fuel from the tip's count plus one on, runs exactly as `verify`: no counter
wraps, and the walk stops by itself within the tip's count plus one reads. -/
theorem walk_exact_eq_verify {c : Chain} {m : KvMap} (hm : c.store.Faithful m)
    (hsize : c.store.size + c.cache.size < 2 ^ 64 - 1) {fuel : Nat} (hfuel : c.tip.length.toNat + 1 ≤ fuel) :
    (walkFrom (checkStepExact c.tip c.difficulty) (checkFinish c.tip) fuel c.tip.hash
      (Check.start c.tip)).run.run c = verify.run.run c := by
  have hS : (readable c.cache m).length < 2 ^ 64 - 1 := by
    have hlen := length_readable c.cache m
    have hrows := hm.shows.size
    omega
  rw [verify_run]
  symm
  refine walkFrom_congr _ (Partway (readable c.cache m) m c.tip.length.toNat)
    (fun k => c.tip.length.toNat - k.visited.toNat) (fun hk b => hk.checkStep_eq_exact hS b)
    (fun hk hget hstep => ?_) (Partway.start hm) (by simp [Check.start]) hfuel
  -- one more block counted, none past the tip's count
  obtain ⟨hk', hvis⟩ := hk.step hS hget hstep
  refine ⟨hk', ?_⟩
  have := hk'.visited
  omega

/-- A passing walk of the check from counters that add up to the tip's count,
with as much fuel as blocks are still to be seen plus one, answers the tip's
count, and read as many blocks as the number it expects next, all passing. -/
theorem walk_sound {tip : ChainTip} {bits : Nat} : ∀ {fuel : Nat} {c c' : Chain} {k : Check} {v : UInt64},
    k.visited.toNat ≤ tip.length.toNat → k.number.toNat + k.visited.toNat = tip.length.toNat →
    fuel + k.visited.toNat = tip.length.toNat + 1 →
    (walkFrom (checkStep tip bits) (checkFinish tip) fuel k.hash k).run.run c = (.ok v, c') →
    v = tip.length ∧ ∃ bs, ReadsBack c k.hash bs c' ∧ bs.length = k.number.toNat ∧ Checked bits bs := by
  intro fuel
  induction fuel with
  | zero =>
    intro c c' k v hvis _ hfuel _
    omega
  | succ g ih =>
    intro c c' k v hvis hnum hfuel hrun
    rcases hget : (getBlock k.hash).run.run c with ⟨_ | b, c₁⟩
    · rw [walkFrom_succ_of_error _ _ hget] at hrun
      cases hrun
    rw [walkFrom_succ_run _ _ hget] at hrun
    cases hstep : checkStep tip bits k b with
    | error e =>
      rw [hstep] at hrun
      cases hrun
    | ok w =>
      obtain ⟨rfl, hle, hhash, hcomp, hnumber, hsealed⟩ := checkStep_eq_ok hstep
      rw [hstep] at hrun
      rw [← hhash] at hget ⊢
      rcases counters_of_le hle hnum with ⟨hvis', hnum', hpos⟩ | ⟨hwrap, hall, htop⟩
      · by_cases hz : b.header.parentHash.isZero
        · -- block 0 ends the walk, which must have seen the tip's count
          simp only [hz, if_true] at hrun
          obtain ⟨hfin, rfl⟩ := Prod.mk.inj hrun
          obtain ⟨hseen, rfl⟩ := checkFinish_eq_ok hfin
          change k.visited + 1 = tip.length at hseen
          have hlast : k.visited.toNat + 1 = tip.length.toNat := by
            rw [← hvis', hseen]
          refine ⟨rfl, [b], ReadsBack.last hget hz, by simp; omega, (Checked.nil bits).cons ?_ hcomp hsealed⟩
          rw [hnumber, hnum']
          simp
          omega
        · simp only [hz, Bool.false_eq_true, if_false] at hrun
          obtain ⟨hv, bs, hreads, hlen, hchecked⟩ :=
            ih (k := ⟨b.header.parentHash, k.number - 1, k.visited + 1⟩) (by simp only; omega)
              (by simp only; omega) (by simp only; omega) hrun
          refine ⟨hv, b :: bs, ReadsBack.cons hget (by simpa using hz) hreads, ?_, hchecked.cons ?_ hcomp hsealed⟩
          · simp only [List.length_cons, hlen]
            omega
          · rw [hnumber, hlen]
      · -- the count wrapped past a tip of `2 ^ 64 - 1` blocks: no fuel is left,
        -- and a walk that saw no block does not pass
        have hg : g = 0 := by omega
        subst hg
        have hfin : checkFinish tip ⟨b.header.parentHash, k.number - 1, k.visited + 1⟩ ≠ .ok v :=
          checkFinish_of_wrapped hwrap (by omega)
        by_cases hz : b.header.parentHash.isZero
        · simp only [hz, if_true] at hrun
          exact absurd (Prod.mk.inj hrun).1 hfin
        · simp only [hz, Bool.false_eq_true, if_false, walkFrom_zero_run] at hrun
          exact absurd (Prod.mk.inj hrun).1 hfin

/-- When the chain check passes, it answers the tip's count, and the walk from
the tip read exactly that many blocks, each under its own hash and the next
under its parent, the last and only the last with the zero parent; they are
numbered down to zero, recompute their hashes, and all but block 0 meet the
chain's difficulty and commit to their transactions. -/
theorem verify_sound {c c' : Chain} {v : UInt64} (h : verify.run.run c = (.ok v, c')) :
    v = c.tip.length ∧ ∃ bs, ReadsBack c c.tip.hash bs c' ∧ bs.length = c.tip.length.toNat ∧
      Checked c.difficulty bs := by
  rw [verify_run] at h
  exact walk_sound (k := Check.start c.tip) (by simp [Check.start]) (by simp [Check.start])
    (by simp [Check.start]) h

/-! ## The chain check on any store -/

/-- The chain check on any store.  When it passes, it answers the tip's
count, and the walk from the tip read exactly that many blocks, each under its
own hash and the next under its parent, the last and only the last with the
zero parent, numbered down to zero, recomputing their hashes, and all but
block 0 meeting the difficulty and committing to their transactions.  On a
store that shows any content and has fewer than `2 ^ 64 - 1` rows, cache
included, the check with counters that fail instead of wrapping, given any
number of reads from the tip's count plus one on, runs exactly as the check:
no counter wraps, and the walk stops by itself within that many reads. -/
theorem chain_check_total_and_sound (c : Chain) :
    (∀ v c', verify.run.run c = (.ok v, c') → v = c.tip.length ∧
      ∃ bs, ReadsBack c c.tip.hash bs c' ∧ bs.length = c.tip.length.toNat ∧ Checked c.difficulty bs) ∧
    ∀ m : KvMap, c.store.Faithful m → c.store.size + c.cache.size < 2 ^ 64 - 1 →
      ∀ fuel, c.tip.length.toNat + 1 ≤ fuel →
        (walkFrom (checkStepExact c.tip c.difficulty) (checkFinish c.tip) fuel c.tip.hash
          (Check.start c.tip)).run.run c = verify.run.run c :=
  ⟨fun _ _ h => verify_sound h, fun _ hm hsize _ hfuel => walk_exact_eq_verify hm hsize hfuel⟩

/-- A chain whose store lost every record while its tip still counts
`2 ^ 64 - 1` blocks. -/
def strandedChain : Chain :=
  { store := {}, genesis := sampleGenesis, tip := ⟨Digest.zero, 18446744073709551615⟩ }

theorem chain_check_total_and_sound_stranded :
    strandedChain.store.Faithful {} ∧ strandedChain.store.size + strandedChain.cache.size < 2 ^ 64 - 1 ∧
      (walkFrom (checkStepExact strandedChain.tip strandedChain.difficulty) (checkFinish strandedChain.tip)
        (2 ^ 64) strandedChain.tip.hash (Check.start strandedChain.tip)).run.run strandedChain =
        verify.run.run strandedChain :=
  ⟨Store.faithful_empty, by decide,
    (chain_check_total_and_sound strandedChain).2 {} Store.faithful_empty (by decide) _ (by decide)⟩

end Chain
end PowChain
