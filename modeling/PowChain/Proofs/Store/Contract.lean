import PowChain.Store.Basic
import PowChain.Proofs.Store.Map

/-!
# The contract of a key-value backend

The ledger asks of its store only what an ordered key-value backend promises:
lookups and prefix scans answer as a sorted map does, and a commit applies
every write of its batch.  `Store.Faithful s m` says that a store keeps this
promise for the map `m`, now and after any commits.  A store in memory keeps
it for the map it holds (`faithful_memory`); a store in a database file keeps
it as far as the database engine applies each batch as a unit.

On top of the contract:

* a transaction over a faithful store reads the store's map overwritten by
  its own pending writes (`Txn.get?_eq`, `Txn.view_set`);
* `update` commits exactly the batch its transaction built, or nothing when
  it fails (`Faithful.update`), and `dryRun` never commits.
-/

namespace PowChain
namespace Store

/-- The store shows the map `m`: lookups and prefix scans answer as `m` does,
and the store's size bounds the number of entries. -/
structure Shows (s : Store) (m : KvMap) : Prop where
  get : ∀ k, s.get? k = .ok (m.get? k)
  scan : ∀ p, s.scan p = .ok (m.scan p)
  size : m.size ≤ s.size

/-- Commits of several batches, one after another. -/
def commitAll (s : Store) : List Batch → Result Store
  | [] => .ok s
  | b :: bs =>
    match s.commit b with
    | .ok s' => s'.commitAll bs
    | .error e => .error e

/-- The store keeps the contract of an ordered backend for the sorted map `m`:
it shows `m`, and after any commits it shows `m` with their batches applied. -/
def Faithful (s : Store) (m : KvMap) : Prop :=
  m.Sorted ∧ ∀ bs s', s.commitAll bs = .ok s' → s'.Shows (bs.foldl KvMap.applyBatch m)

/-- A store in memory commits a batch by applying it to its map. -/
theorem commit_memory (m : KvMap) (b : Batch) :
    Store.commit ⟨.memory m⟩ b = .ok ⟨.memory (m.applyBatch b)⟩ := rfl

theorem shows_memory (m : KvMap) : Store.Shows ⟨.memory m⟩ m :=
  ⟨fun _ => rfl, fun _ => rfl, Nat.le_refl _⟩

/-- A store in memory keeps the contract for the map it holds. -/
theorem faithful_memory {m : KvMap} (hm : m.Sorted) : Store.Faithful ⟨.memory m⟩ m := by
  refine ⟨hm, fun bs => ?_⟩
  induction bs generalizing m with
  | nil =>
    rintro s' h
    cases h
    exact shows_memory m
  | cons b bs ih =>
    intro s' h
    exact ih (KvMap.sorted_applyBatch hm b) s' h

/-- The empty store of a new chain keeps the contract for the empty map. -/
theorem faithful_empty : Store.Faithful {} {} := faithful_memory KvMap.sorted_empty

namespace Faithful

variable {s : Store} {m : KvMap}

theorem sorted (h : s.Faithful m) : m.Sorted := h.1

theorem shows (h : s.Faithful m) : s.Shows m := h.2 [] s rfl

theorem commit (h : s.Faithful m) {b : Batch} {s' : Store} (hc : s.commit b = .ok s') :
    s'.Faithful (m.applyBatch b) := by
  refine ⟨KvMap.sorted_applyBatch h.1 b, fun bs s'' hs => ?_⟩
  have := h.2 (b :: bs) s'' (by simp [commitAll, hc, hs])
  simpa using this

theorem get? (h : s.Faithful m) (k : ByteArray) : s.get? k = .ok (m.get? k) := h.shows.get k

theorem contains (h : s.Faithful m) (k : ByteArray) : s.contains k = .ok (m.get? k).isSome := by
  simp [Store.contains, h.get? k, bind, Except.bind, pure, Except.pure]

end Faithful

end Store

/-! ## Transactions -/

namespace Txn

/-- The map a transaction sees over a store showing `m`: `m` overwritten by
the pending writes. -/
def view (t : Txn) (m : KvMap) : KvMap := m.applyBatch t.batch

theorem lookup_batch (t : Txn) (k : ByteArray) :
    Batch.lookup t.batch k = (t.batch.find? (·.1 == k)).map (·.2) := rfl

/-- A transaction reads its view. -/
theorem get?_eq {t : Txn} {m : KvMap} (hs : t.base.Shows m) (hb : t.batch.KeysNodup)
    (k : ByteArray) : t.get? k = .ok ((t.view m).get? k) := by
  rw [view, KvMap.get?_applyBatch m hb, lookup_batch]
  unfold Txn.get?
  cases t.batch.find? (·.1 == k) with
  | none => exact hs.get k
  | some e => rfl

theorem keysNodup_set {t : Txn} (hb : t.batch.KeysNodup) (k v : ByteArray) :
    (t.set k v).batch.KeysNodup := by
  simp only [Txn.set, Batch.KeysNodup, List.map_cons, List.nodup_cons]
  constructor
  · simp
  · exact hb.sublist ((List.filter_sublist).map _)

/-- A write replaces the value of its key in the view. -/
theorem view_set {t : Txn} {m : KvMap} (hm : m.Sorted) (hb : t.batch.KeysNodup)
    (k v : ByteArray) : (t.set k v).view m = (t.view m).insert k v := by
  refine KvMap.ext_of_sorted (KvMap.sorted_applyBatch hm _)
    (KvMap.sorted_insert (KvMap.sorted_applyBatch hm _) k v) fun k' => ?_
  rw [view, view, KvMap.get?_applyBatch m (keysNodup_set hb k v), KvMap.get?_insert,
    KvMap.get?_applyBatch m hb]
  simp only [Txn.set, Batch.lookup_cons_filter]
  split_ifs <;> rfl

/-- `t'` is `t` with writes to keys in `K` only: it reads the same store, keeps
each key written once, and holds the same pending write for every other key. -/
structure WritesWithin (t t' : Txn) (K : ByteArray → Prop) : Prop where
  base : t'.base = t.base
  nodup : t.batch.KeysNodup → t'.batch.KeysNodup
  frame : ∀ k, ¬ K k → Batch.lookup t'.batch k = Batch.lookup t.batch k

namespace WritesWithin

variable {t t' t'' : Txn} {K L : ByteArray → Prop}

theorem refl (t : Txn) (K : ByteArray → Prop) : WritesWithin t t K := ⟨rfl, id, fun _ _ => rfl⟩

theorem trans (h₁ : WritesWithin t t' K) (h₂ : WritesWithin t' t'' K) : WritesWithin t t'' K :=
  ⟨h₂.base.trans h₁.base, h₂.nodup ∘ h₁.nodup, fun k hk => (h₂.frame k hk).trans (h₁.frame k hk)⟩

theorem mono (h : WritesWithin t t' K) (hKL : ∀ k, K k → L k) : WritesWithin t t' L :=
  ⟨h.base, h.nodup, fun k hk => h.frame k fun hK => hk (hKL k hK)⟩

theorem set (t : Txn) {k : ByteArray} (hk : K k) (v : ByteArray) : WritesWithin t (t.set k v) K := by
  refine ⟨rfl, fun hb => keysNodup_set hb k v, fun k' hk' => ?_⟩
  have hne : k' ≠ k := fun h => hk' (h ▸ hk)
  simp only [Txn.set, Batch.lookup_cons]
  rw [if_neg (Ne.symm hne), Batch.lookup_filter_ne _ hne]

/-- Reading through the same store, two transactions that differ only at keys
in `K` see the same view elsewhere. -/
theorem view_get? (h : WritesWithin t t' K) (hb : t.batch.KeysNodup) (m : KvMap) {k : ByteArray}
    (hk : ¬ K k) : (t'.view m).get? k = (t.view m).get? k := by
  rw [view, view, KvMap.get?_applyBatch m (h.nodup hb), KvMap.get?_applyBatch m hb, h.frame k hk]

end WritesWithin

end Txn

/-! ## Committing a transaction -/

namespace Store

/-- `update` runs its transaction on an empty batch and commits the batch, if
the transaction succeeds and wrote anything. -/
theorem update_eq {α : Type} (s : Store) (f : TxnM α) :
    s.update f = match f.run ⟨s, []⟩ with
      | .error e => .error e
      | .ok (a, t) => if t.batch.isEmpty then .ok (a, s) else (s.commit t.batch).map (a, ·) := by
  unfold Store.update
  cases f.run ⟨s, []⟩ with
  | error e => rfl
  | ok p =>
    obtain ⟨a, t⟩ := p
    by_cases h : t.batch.isEmpty
    · simp [h, bind, Except.bind, pure, Except.pure]
    · simp only [h, bind, Except.bind, pure, Except.pure, Bool.false_eq_true, if_false]
      cases s.commit t.batch <;> rfl

theorem dryRun_eq {α : Type} (s : Store) (f : TxnM α) :
    s.dryRun f = (f.run ⟨s, []⟩).map (·.1) := by
  unfold Store.dryRun
  cases f.run ⟨s, []⟩ <;> rfl

/-- A successful `update` leaves a store that keeps the contract for the map
overwritten by the transaction's batch. -/
theorem Faithful.update {α : Type} {s s' : Store} {m : KvMap} (hs : s.Faithful m) {f : TxnM α}
    {a : α} (h : s.update f = .ok (a, s')) :
    ∃ t, f.run ⟨s, []⟩ = .ok (a, t) ∧ s'.Faithful (t.view m) := by
  rw [update_eq] at h
  cases hf : f.run ⟨s, []⟩ with
  | error e => simp [hf] at h
  | ok p =>
    obtain ⟨a', t⟩ := p
    rw [hf] at h
    simp only at h
    refine ⟨t, ?_, ?_⟩
    · by_cases hb : t.batch.isEmpty
      · simp only [hb, if_true, Except.ok.injEq, Prod.mk.injEq] at h
        rw [h.1]
      · simp only [hb, Bool.false_eq_true, if_false] at h
        cases hc : s.commit t.batch <;> simp [hc, Except.map] at h
        rw [h.1]
    · by_cases hb : t.batch.isEmpty
      · simp only [hb, if_true, Except.ok.injEq, Prod.mk.injEq] at h
        rw [← h.2, Txn.view, List.isEmpty_iff.mp hb, KvMap.applyBatch_nil]
        exact hs
      · simp only [hb, Bool.false_eq_true, if_false] at h
        cases hc : s.commit t.batch <;> simp [hc, Except.map] at h
        rw [← h.2]
        exact hs.commit hc

end Store
end PowChain
