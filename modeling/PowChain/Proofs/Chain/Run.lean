import PowChain.Chain.Basic
import PowChain.Proofs.Bytes.Lists

/-!
# Running chain operations

A chain operation runs in `ChainM`: it may fail, and the chain it leaves
behind is kept either way, since reading a block moves it into the cache.
This file gives each operation that `append` is built from a pure equation,
so that later proofs cite the equation and never unfold the monad:

* `ChainM.run_bind` and its companions reduce a `do` block step by step;
* `getBlock_run`: a read answers from the cache, or from the store and then
  caches the decoded block under its header hash;
* `Chain.Frame`: reads change the cache only (`getBlock_frame`,
  `checkNext_frame`), and every entry they cache is the cache's own or a block
  decoded from the store (`getBlock_entries`);
* `append_cases`: an append fails leaving the chain as it was or as
  `checkNext` left it (so store, genesis and tip alone, `append_error_frame`),
  or finds the block known and changes nothing, or passes `checkNext`, commits
  `commitBlock` in one `update` and then moves the tip.
-/

namespace PowChain

/-! ## The monad -/

namespace ChainM

variable {α β : Type}

theorem run_bind (x : ChainM α) (f : α → ChainM β) (c : Chain) :
    (x >>= f).run.run c = match x.run.run c with
      | (.ok a, c') => (f a).run.run c'
      | (.error e, c') => (.error e, c') := by
  simp only [ExceptT.run_bind, StateT.run_bind]
  rcases x.run.run c with ⟨_ | _, c'⟩ <;> rfl

@[simp] theorem run_get (c : Chain) : (get : ChainM Chain).run.run c = (.ok c, c) := rfl

@[simp] theorem run_set (c c' : Chain) : (set c' : ChainM PUnit).run.run c = (.ok ⟨⟩, c') := rfl

@[simp] theorem run_modify (f : Chain → Chain) (c : Chain) :
    (modify f : ChainM PUnit).run.run c = (.ok ⟨⟩, f c) := rfl

@[simp] theorem run_pure (a : α) (c : Chain) : (pure a : ChainM α).run.run c = (.ok a, c) := rfl

@[simp] theorem run_throw (e : LedgerError) (c : Chain) :
    (throw e : ChainM α).run.run c = (.error e, c) := rfl

/-- A computation of `Result` runs without touching the chain. -/
@[simp] theorem run_lift (r : Result α) (c : Chain) : (liftM r : ChainM α).run.run c = (r, c) := by
  cases r <;> rfl

end ChainM

/-! ## Frames -/

namespace Chain

/-- `c'` differs from `c` at most in its cache. -/
structure Frame (c c' : Chain) : Prop where
  store : c'.store = c.store
  genesis : c'.genesis = c.genesis
  tip : c'.tip = c.tip

namespace Frame

theorem refl (c : Chain) : Frame c c := ⟨rfl, rfl, rfl⟩

theorem trans {c c' c'' : Chain} (h₁ : Frame c c') (h₂ : Frame c' c'') : Frame c c'' :=
  ⟨h₂.store.trans h₁.store, h₂.genesis.trans h₁.genesis, h₂.tip.trans h₁.tip⟩

theorem of_cache (c : Chain) (cache : Lru Digest Block) : Frame c { c with cache } := ⟨rfl, rfl, rfl⟩

end Frame

end Chain

/-! ## The block cache -/

/-- Digests compare by `==` on their bytes, which is equality. -/
instance : LawfulBEq Digest where
  eq_of_beq {a b} h := by
    obtain ⟨a, ha⟩ := a
    obtain ⟨b, hb⟩ := b
    have hab : a = b := Bytes.beq_eq_true_iff.mp h
    subst hab
    rfl
  rfl {a} := Bytes.beq_eq_true_iff.mpr rfl

namespace Lru

variable {κ α : Type} [BEq κ]

theorem mem_of_peek [LawfulBEq κ] {c : Lru κ α} {k : κ} {v : α} (h : c.peek k = some v) : (k, v) ∈ c.entries := by
  unfold peek at h
  obtain ⟨e, he, rfl⟩ := Option.map_eq_some_iff.mp h
  have hbeq := List.find?_some he
  have hk : e.1 = k := eq_of_beq hbeq
  rw [← hk]
  exact List.mem_of_find?_eq_some he

theorem get_fst (c : Lru κ α) (k : κ) : (c.get k).1 = c.peek k := by
  unfold get
  cases c.peek k <;> rfl

/-- A lookup reorders the entries and adds none. -/
theorem mem_get [LawfulBEq κ] {c : Lru κ α} {k : κ} {e : κ × α} (h : e ∈ (c.get k).2.entries) : e ∈ c.entries := by
  unfold get at h
  cases hp : c.peek k with
  | none =>
    rw [hp] at h
    exact h
  | some v =>
    rw [hp] at h
    rcases List.mem_cons.mp h with rfl | h
    · exact mem_of_peek hp
    · exact (List.mem_filter.mp h).1

/-- A put holds the new entry and some of the old ones. -/
theorem mem_put {c : Lru κ α} {k : κ} {v : α} {e : κ × α} (h : e ∈ (c.put k v).entries) :
    e = (k, v) ∨ e ∈ c.entries := by
  unfold put at h
  rcases List.mem_cons.mp (List.mem_of_mem_take h) with rfl | h
  · exact .inl rfl
  · exact .inr (List.mem_filter.mp h).1

end Lru

namespace Chain

open ChainM

/-! ## Reading a block -/

/-- A read answers from the cache, making the entry the most recent; on a miss
it reads the store, decodes the record and caches the block under its header
hash. -/
theorem getBlock_run (h : Digest) (c : Chain) : (getBlock h).run.run c =
    match c.cache.peek h with
    | some b => (.ok b, { c with cache := (c.cache.get h).2 })
    | none =>
      match c.store.get? (Keys.block h.bytes) with
      | .error e => (.error e, { c with cache := (c.cache.get h).2 })
      | .ok none => (.error (.blockNotFound h.toHex), { c with cache := (c.cache.get h).2 })
      | .ok (some bytes) =>
        match decodeRecord Block.readWire bytes with
        | .error e => (.error e, { c with cache := (c.cache.get h).2 })
        | .ok b => (.ok b, { c with cache := (c.cache.get h).2.put b.hash b }) := by
  rw [← Lru.get_fst]
  simp only [getBlock, run_bind, run_get, run_set]
  rcases c.cache.get h with ⟨_ | b, cache⟩
  · simp only [run_bind, run_lift]
    rcases c.store.get? (Keys.block h.bytes) with e | _ | bytes
    · rfl
    · rfl
    · simp only [run_bind, run_lift]
      rcases decodeRecord Block.readWire bytes with e | b <;> rfl
  · rfl

theorem getBlock_frame (h : Digest) (c : Chain) : Frame c ((getBlock h).run.run c).2 := by
  rw [getBlock_run]
  split
  · exact Frame.of_cache _ _
  · split
    · exact Frame.of_cache _ _
    · exact Frame.of_cache _ _
    · split
      · exact Frame.of_cache _ _
      · exact Frame.of_cache _ _

/-- Whatever it finds, a read leaves the chain it read but for the cache. -/
theorem Frame.of_getBlock {h : Digest} {c c₁ : Chain} {x} (hget : (getBlock h).run.run c = (x, c₁)) :
    Frame c c₁ := by
  have hframe := getBlock_frame h c
  rwa [hget] at hframe

/-- Every entry a read leaves in the cache was there before, or is the block it
read from the store: one that decodes from the record under the key it was
asked for, cached under its own header hash. -/
theorem getBlock_entries (h : Digest) (c : Chain) {e : Digest × Block}
    (he : e ∈ ((getBlock h).run.run c).2.cache.entries) :
    e ∈ c.cache.entries ∨ ∃ bytes, c.store.get? (Keys.block h.bytes) = .ok (some bytes) ∧
      decodeRecord Block.readWire bytes = .ok e.2 ∧ e.1 = e.2.hash := by
  rw [getBlock_run] at he
  split at he
  · exact .inl (Lru.mem_get he)
  · rename_i hpeek
    split at he
    · exact .inl (Lru.mem_get he)
    · exact .inl (Lru.mem_get he)
    · rename_i bytes hget
      split at he
      · exact .inl (Lru.mem_get he)
      · rename_i b hdec
        rcases Lru.mem_put he with rfl | he
        · exact .inr ⟨bytes, hget, hdec, rfl⟩
        · exact .inl (Lru.mem_get he)

/-! ## Checking a block against the tip -/

/-- The checks that a block must pass to follow the tip, with the parent they
read. -/
theorem checkNext_run (b : Block) (c : Chain) : (checkNext b).run.run c =
    match validateNext c.tip b.header with
    | .error e => (.error e, c)
    | .ok () =>
      match b.validateBody c.difficulty with
      | .error e => (.error e, c)
      | .ok () =>
        match (getBlock c.tip.hash).run.run c with
        | (.error e, c₁) => (.error e, c₁)
        | (.ok parent, c₁) =>
          if b.header.timestamp.toInt ≤ parent.header.timestamp.toInt then
            (.error (.invalidBlock s!"Block timestamp {b.header.timestamp.toInt} is not after parent timestamp {parent.header.timestamp.toInt}"), c₁)
          else (.ok (), c₁) := by
  simp only [checkNext, run_bind, run_get, run_lift]
  rcases validateNext c.tip b.header with e | ⟨⟩
  · rfl
  · simp only
    rcases b.validateBody c.difficulty with e | ⟨⟩
    · rfl
    · simp only
      rcases (getBlock c.tip.hash).run.run c with ⟨_ | parent, c₁⟩
      · rfl
      · simp only
        split <;> rfl

theorem checkNext_frame (b : Block) (c : Chain) : Frame c ((checkNext b).run.run c).2 := by
  rw [checkNext_run]
  split
  · exact Frame.refl c
  · split
    · exact Frame.refl c
    · split
      · rename_i c₁ heq
        exact Frame.of_getBlock heq
      · rename_i parent c₁ heq
        split
        · exact Frame.of_getBlock heq
        · exact Frame.of_getBlock heq

/-- Passed or failed, a check leaves the chain it read but for the cache. -/
theorem Frame.of_checkNext {b : Block} {c c₁ : Chain} {x} (h : (checkNext b).run.run c = (x, c₁)) :
    Frame c c₁ := by
  have hframe := checkNext_frame b c
  rwa [h] at hframe

/-- A block passes the checks when it extends the tip, its body is valid, and
the parent read from the chain is older. -/
theorem checkNext_ok {b : Block} {c c' : Chain} (h : (checkNext b).run.run c = (.ok (), c')) :
    validateNext c.tip b.header = .ok () ∧ b.validateBody c.difficulty = .ok () ∧
      ∃ parent, (getBlock c.tip.hash).run.run c = (.ok parent, c') ∧
        parent.header.timestamp.toInt < b.header.timestamp.toInt := by
  rw [checkNext_run] at h
  split at h
  · cases h
  · rename_i hnext
    split at h
    · cases h
    · rename_i hbody
      split at h
      · cases h
      · rename_i parent c₁ hget
        split at h
        · cases h
        · rename_i hts
          cases h
          exact ⟨hnext, hbody, parent, hget, Int.lt_of_not_ge hts⟩

/-! ## Appending -/

/-- Appending checks the block, commits it in one transaction, and only then
publishes the new tip and caches the block. -/
theorem append_run (b : Block) (c : Chain) : (append b).run.run c =
    match c.containsBlock b.hash with
    | .error e => (.error e, c)
    | .ok true => (.ok .alreadyKnown, c)
    | .ok false =>
      match (checkNext b).run.run c with
      | (.error e, c₁) => (.error e, c₁)
      | (.ok (), c₁) =>
        match addWord c₁.tip.length 1 with
        | .error e => (.error e, c₁)
        | .ok length =>
          match c₁.store.update (commitBlock b length) with
          | .error e => (.error e, c₁)
          | .ok (receipts, store) =>
            (.ok (.extended b.hash length receipts),
              { c₁ with store, tip := ⟨b.hash, length⟩, cache := c₁.cache.put b.hash b }) := by
  simp only [append, run_bind, run_get, run_lift]
  cases c.containsBlock b.hash with
  | error e => rfl
  | ok found =>
    cases found with
    | true => rfl
    | false =>
      simp only [Bool.false_eq_true, if_false, run_bind]
      rcases (checkNext b).run.run c with ⟨_ | ⟨⟩, c₁⟩
      · rfl
      · simp only [run_get, run_lift]
        rcases addWord c₁.tip.length 1 with e | length
        · rfl
        · simp only
          rcases c₁.store.update (commitBlock b length) with e | ⟨receipts, store⟩ <;> rfl

/-- The three ways an append can end.  A failed append leaves the chain as it
found it, or as `checkNext` left it. -/
theorem append_cases {b : Block} {c c' : Chain} {r : Except LedgerError AppendOutcome}
    (h : (append b).run.run c = (r, c')) :
    (∃ e, r = .error e ∧ (c' = c ∨ ∃ x, (checkNext b).run.run c = (x, c'))) ∨
    (r = .ok .alreadyKnown ∧ c' = c) ∨
    (∃ c₁ length receipts store,
      c.containsBlock b.hash = .ok false ∧ (checkNext b).run.run c = (.ok (), c₁) ∧
      addWord c₁.tip.length 1 = .ok length ∧
      c₁.store.update (commitBlock b length) = .ok (receipts, store) ∧
      r = .ok (.extended b.hash length receipts) ∧
      c' = { c₁ with store, tip := ⟨b.hash, length⟩, cache := c₁.cache.put b.hash b }) := by
  rw [append_run] at h
  split at h
  · cases h
    exact .inl ⟨_, rfl, .inl rfl⟩
  · cases h
    exact .inr (.inl ⟨rfl, rfl⟩)
  · rename_i hknown
    split at h
    · rename_i e c₁ hcheck
      cases h
      exact .inl ⟨e, rfl, .inr ⟨_, hcheck⟩⟩
    · rename_i c₁ hcheck
      split at h
      · cases h
        exact .inl ⟨_, rfl, .inr ⟨_, hcheck⟩⟩
      · rename_i length hlen
        split at h
        · cases h
          exact .inl ⟨_, rfl, .inr ⟨_, hcheck⟩⟩
        · rename_i receipts store hupdate
          cases h
          exact .inr (.inr ⟨c₁, length, receipts, store, hknown, hcheck, hlen, hupdate, rfl, rfl⟩)

/-- An append that extends the chain leaves the tip at the block, under the
length it answers. -/
theorem tip_of_extended {b : Block} {c c' : Chain} {h : Digest} {length : UInt64} {rs : List Receipt}
    (happ : (append b).run.run c = (.ok (.extended h length rs), c')) : c'.tip = ⟨b.hash, length⟩ := by
  rcases append_cases happ with ⟨e, he, -⟩ | ⟨he, -⟩ | ⟨c₁, length', receipts, store, -, -, -, -, he, rfl⟩
  · cases he
  · cases he
  · cases he
    rfl

/-- A failed append changes the cache at most. -/
theorem append_error_frame {b : Block} {c c' : Chain} (h : c' = c ∨ ∃ x, (checkNext b).run.run c = (x, c')) :
    Frame c c' := by
  rcases h with rfl | ⟨x, hx⟩
  · exact Frame.refl _
  · exact Frame.of_checkNext hx

end Chain
end PowChain
