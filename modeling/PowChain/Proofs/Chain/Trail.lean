import PowChain.Proofs.Chain.Consensus

/-!
# A chain running ahead of another

A node that has appended blocks since it stood where another node stands now
runs ahead of it.  `Chain.Extends c bs c'` says that appending the blocks
`bs`, oldest first, takes `c` to `c'`, each append extending the chain, and
`Chain.Trails cB bs cA` that a ready chain agreeing with `cB` is extended so
by `bs` to a chain agreeing with `cA`.  What a node behind meets when it
catches up follows from the consensus records alone:

* `blocks_eq_of_agree`: chains that agree hold the same blocks;
* `Extends.wellFormed`: the blocks of the chain ahead are `bs`, newest first,
  on top of those behind, and `Extends.unknown`: none of `bs` is stored
  behind;
* `Extends.of_agree`: a chain that agrees with the one behind is extended by
  the same blocks, to a chain that agrees with the one ahead, since whether
  a block extends a chain depends on its consensus records only;
* `Trails.blocks`, `Trails.unknown`: the blocks ahead, seen from the two
  chains that trail one another.
-/

namespace PowChain

/-- Two maps one store shows agree at every key. -/
theorem Store.Faithful.get?_congr {s : Store} {m₁ m₂ : KvMap} (h₁ : s.Faithful m₁) (h₂ : s.Faithful m₂)
    (k : ByteArray) : m₁.get? k = m₂.get? k := by
  have hget := (h₁.get? k).symm.trans (h₂.get? k)
  exact Except.ok.inj hget

theorem Store.Agree.refl (s : Store) : s.Agree s := fun _ _ => rfl

namespace Chain

theorem Agree.refl (c : Chain) : Agree c c := ⟨rfl, rfl, Store.Agree.refl _⟩

theorem Agree.trans {c₁ c₂ c₃ : Chain} (h₁ : Agree c₁ c₂) (h₂ : Agree c₂ c₃) : Agree c₁ c₃ :=
  ⟨h₁.tip.trans h₂.tip, h₁.genesis.trans h₂.genesis, h₁.store.trans h₂.store⟩

/-! ## Chains that agree hold the same blocks -/

/-- Two stored lineages of one length under one newest hash, over maps that
agree on every block record, are one lineage: each block is the one stored
under its hash, and its parent's hash names the next. -/
theorem lineage_unique {d₁ d₂ : Nat} {m₁ m₂ : KvMap}
    (hkeys : ∀ d : Digest, m₁.get? (Keys.block d.bytes) = m₂.get? (Keys.block d.bytes)) :
    ∀ {bl₁ bl₂ : List Block}, Lineage d₁ bl₁ → Lineage d₂ bl₂ → (∀ x ∈ bl₁, Stored m₁ x) →
      (∀ x ∈ bl₂, Stored m₂ x) → bl₁.length = bl₂.length →
      bl₁.head?.map Block.hash = bl₂.head?.map Block.hash → bl₁ = bl₂
  | [], [], _, _, _, _, _, _ => rfl
  | b₁ :: r₁, b₂ :: r₂, hl₁, hl₂, hs₁, hs₂, hlen, hhead => by
    have hhash : b₂.hash = b₁.hash := by simpa using hhead.symm
    have hb₁ : Stored m₂ b₁ := (hs₁ b₁ List.mem_cons_self).of_agree (hkeys b₁.hash).symm
    obtain rfl : b₂ = b₁ := hb₁.unique (hs₂ b₂ List.mem_cons_self) hhash
    -- the tails have one length; past block 0 their heads are the parent
    match r₁, r₂, hl₁, hl₂ with
    | [], [], _, _ => rfl
    | p₁ :: t₁, p₂ :: t₂, hl₁, hl₂ =>
      have hparent : p₁.hash = p₂.hash := hl₁.parent.symm.trans hl₂.parent
      rw [lineage_unique hkeys hl₁.tail hl₂.tail (fun x hx => hs₁ x (List.mem_cons_of_mem _ hx))
        (fun x hx => hs₂ x (List.mem_cons_of_mem _ hx)) (by simpa using hlen) (by simp [hparent])]
    | [], _ :: _, _, _ => simp at hlen
    | _ :: _, [], _, _ => simp at hlen
  | [], _ :: _, _, _, _, _, hlen, _ => by simp at hlen
  | _ :: _, [], _, _, _, _, hlen, _ => by simp at hlen

/-- Two chains that agree hold the same blocks. -/
theorem WellFormed.blocks_eq_of_agree {c₁ c₂ : Chain} {m₁ m₂ : KvMap} {bl₁ bl₂ : List Block}
    (h : Agree c₁ c₂) (hw₁ : WellFormed c₁ m₁ bl₁) (hw₂ : WellFormed c₂ m₂ bl₂) : bl₁ = bl₂ := by
  have hkeys : ∀ d : Digest, m₁.get? (Keys.block d.bytes) = m₂.get? (Keys.block d.bytes) :=
    fun d => h.store.get? hw₁.faithful hw₂.faithful (Keys.consensus_block d)
  obtain ⟨b₁, r₁, rfl, hb₁⟩ := hw₁.tip
  obtain ⟨b₂, r₂, rfl, hb₂⟩ := hw₂.tip
  have hlen : (b₁ :: r₁).length = (b₂ :: r₂).length := by
    rw [hw₁.length, hw₂.length, h.tip]
  refine lineage_unique hkeys hw₁.lineage hw₂.lineage hw₁.stored hw₂.stored hlen ?_
  simp [hb₁, hb₂, h.tip]

/-! ## Appends that extend -/

/-- An append that extends a well-formed chain by `b` found `b` unknown, and
leaves the chain well formed with `b` on top, every other record as long as a
block hash as it was. -/
theorem WellFormed.append_extended {c c' : Chain} {m : KvMap} {blocks : List Block} {b : Block}
    {length : UInt64} {receipts : List Receipt} (hw : WellFormed c m blocks)
    (hfits : b.transactions.length < 2 ^ 64)
    (h : (Chain.append b).run.run c = (.ok (.extended b.hash length receipts), c')) :
    c.containsBlock b.hash = .ok false ∧ ∃ m', WellFormed c' m' (b :: blocks) ∧
      ∀ k : ByteArray, k.size = 32 → k ≠ Keys.block b.hash.bytes → m'.get? k = m.get? k := by
  obtain ⟨p, rest, rfl, hp⟩ := hw.tip
  rcases append_cases h with ⟨e, he, -⟩ | ⟨he, -⟩ |
    ⟨c₁, length', receipts', store, hknown, hcheck, hlen, hupdate, -, rfl⟩
  · cases he
  · cases he
  refine ⟨hknown, ?_⟩
  obtain ⟨m', hw'⟩ := hw.extend hp hfits hknown hcheck hlen hupdate
  refine ⟨m', hw', fun k hk hne => ?_⟩
  -- the store the commit leaves shows the map the commit wrote over `m`
  have hframe := Frame.of_checkNext hcheck
  obtain ⟨t, hrun, hfaithful⟩ := (hframe.store ▸ hw.faithful : c₁.store.Faithful m).update hupdate
  rw [Store.Faithful.get?_congr hw'.faithful hfaithful k]
  exact (commitBlock_commits hw.faithful.sorted hrun).get?_of_size (by omega) (by omega) hne

/-- `c'` is `c` after appending `bs`, oldest first, each append extending the
chain by its block. -/
inductive Extends : Chain → List Block → Chain → Prop
  | nil (c : Chain) : Extends c [] c
  | cons {c c₁ c' : Chain} {b : Block} {bs : List Block} {length : UInt64} {receipts : List Receipt}
      (head : (append b).run.run c = (.ok (.extended b.hash length receipts), c₁))
      (tail : Extends c₁ bs c') : Extends c (b :: bs) c'

namespace Extends

variable {c c' : Chain} {bs : List Block}

/-- The chain ahead holds the blocks appended, newest first, on top of the
blocks behind. -/
theorem wellFormed {m : KvMap} {blocks : List Block} (h : Extends c bs c') (hw : WellFormed c m blocks)
    (hfits : ∀ b ∈ bs, b.transactions.length < 2 ^ 64) : ∃ m', WellFormed c' m' (bs.reverse ++ blocks) := by
  induction h generalizing m blocks with
  | nil c => exact ⟨m, by simpa using hw⟩
  | cons head _ ih =>
    obtain ⟨-, m₁, hw₁, -⟩ := hw.append_extended (hfits _ List.mem_cons_self) head
    obtain ⟨m', hw'⟩ := ih hw₁ fun b hb => hfits b (List.mem_cons_of_mem _ hb)
    exact ⟨m', by simpa using hw'⟩

/-- None of the blocks appended is stored behind: each was unknown where it
was appended, and an append only adds records. -/
theorem unknown {m : KvMap} {blocks : List Block} (h : Extends c bs c') (hw : WellFormed c m blocks)
    (hfits : ∀ b ∈ bs, b.transactions.length < 2 ^ 64) :
    ∀ x ∈ bs, m.get? (Keys.block x.hash.bytes) = none := by
  induction h generalizing m blocks with
  | nil c => simp
  | @cons c c₁ c' b bs length receipts head _ ih =>
    obtain ⟨hknown, m₁, hw₁, hkeep⟩ := hw.append_extended (hfits _ List.mem_cons_self) head
    have hnew := get?_eq_none_of_containsBlock hw.faithful hknown
    intro x hx
    rcases List.mem_cons.mp hx with rfl | hx
    · exact hnew
    · by_cases heq : Keys.block x.hash.bytes = Keys.block b.hash.bytes
      · rw [heq]
        exact hnew
      · rw [← hkeep (Keys.block x.hash.bytes) x.hash.size_eq heq]
        exact ih hw₁ (fun b hb => hfits b (List.mem_cons_of_mem _ hb)) x hx

theorem ready (h : Extends c bs c') (hc : c.Ready) (hfits : ∀ b ∈ bs, b.transactions.length < 2 ^ 64) :
    c'.Ready := by
  induction h with
  | nil c => exact hc
  | cons head _ ih =>
    have hready := hc.append (hfits _ List.mem_cons_self)
    rw [head] at hready
    exact ih hready fun b hb => hfits b (List.mem_cons_of_mem _ hb)

/-- A ready chain that agrees with one that `bs` extends is extended by `bs`
too, to a ready chain that agrees with the end. -/
theorem of_agree {d : Chain} (h : Extends c bs c') (hagree : Agree c d) (hc : c.Ready) (hd : d.Ready)
    (hfits : ∀ b ∈ bs, b.transactions.length < 2 ^ 64) :
    ∃ d', Extends d bs d' ∧ Agree c' d' ∧ d'.Ready := by
  induction h generalizing d with
  | nil c => exact ⟨d, .nil d, hagree, hd⟩
  | @cons c c₁ c' b bs length receipts head _ ih =>
    have hfits' : b.transactions.length < 2 ^ 64 := hfits _ List.mem_cons_self
    obtain ⟨hans, hagree₁⟩ := hagree.append hc hd b
    have hready₁ := hc.append hfits'
    have hreadyd := hd.append hfits'
    rw [head] at hans hagree₁ hready₁
    -- the other chain answers the append alike, so it too is extended
    rcases hrun : (append b).run.run d with ⟨r, d₁⟩
    rw [hrun] at hans hagree₁ hreadyd
    dsimp only at hans hagree₁ hreadyd
    subst hans
    obtain ⟨d', hext, hagree', hready'⟩ :=
      ih hagree₁ hready₁ hreadyd fun b hb => hfits b (List.mem_cons_of_mem _ hb)
    exact ⟨d', .cons hrun hext, hagree', hready'⟩

end Extends

/-! ## Chains that trail one another -/

/-- `cA` is ahead of `cB` by the blocks `bs`: a ready chain that agrees with
`cB` is extended by `bs`, oldest first, to a chain that agrees with `cA`. -/
def Trails (cB : Chain) (bs : List Block) (cA : Chain) : Prop :=
  ∃ c₀ c', c₀.Ready ∧ Agree c₀ cB ∧ Extends c₀ bs c' ∧ Agree c' cA

namespace Trails

variable {cA cB : Chain} {bs : List Block} {mA mB : KvMap} {blA blB : List Block}

theorem refl (c : Chain) (h : c.Ready) : Trails c [] c := ⟨c, c, h, .refl c, .nil c, .refl c⟩

/-- The blocks of the chain ahead are the blocks ahead, newest first, on top
of the blocks behind. -/
theorem blocks (h : Trails cB bs cA) (hfits : ∀ b ∈ bs, b.transactions.length < 2 ^ 64)
    (hwA : WellFormed cA mA blA) (hwB : WellFormed cB mB blB) : blA = bs.reverse ++ blB := by
  obtain ⟨c₀, c', hready, hagree₀, hext, hagree'⟩ := h
  obtain ⟨m₀, bl₀, hw₀⟩ := hready.wellFormed
  obtain ⟨m', hw'⟩ := hext.wellFormed hw₀ hfits
  rw [← WellFormed.blocks_eq_of_agree hagree' hw' hwA, WellFormed.blocks_eq_of_agree hagree₀ hw₀ hwB]

/-- The chain behind stores none of the blocks ahead. -/
theorem unknown (h : Trails cB bs cA) (hfits : ∀ b ∈ bs, b.transactions.length < 2 ^ 64)
    (hwB : WellFormed cB mB blB) : ∀ x ∈ bs, mB.get? (Keys.block x.hash.bytes) = none := by
  obtain ⟨c₀, c', hready, hagree₀, hext, -⟩ := h
  obtain ⟨m₀, bl₀, hw₀⟩ := hready.wellFormed
  intro x hx
  rw [← hagree₀.store.get? hw₀.faithful hwB.faithful (Keys.consensus_block _)]
  exact hext.unknown hw₀ hfits x hx

end Trails
end Chain
end PowChain
