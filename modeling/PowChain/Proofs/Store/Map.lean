import PowChain.Store.Map
import PowChain.Proofs.Bytes.Lists

/-!
# The ordered map behind a store

A `KvMap` keeps its entries in a list.  This file shows that it behaves as a
finite map from keys to values:

* lookups after an insert or a delete (`get?_insert`, `get?_erase`) hold
  whatever order the entries are in;
* kept in strictly increasing key order (`Sorted`, which every write
  preserves), a map is determined by its lookups (`ext_of_sorted`), and an
  insert replaces the one entry of its key (`insert_perm`);
* a batch of writes that names each key once acts key by key, whatever order
  it is applied in (`get?_applyBatch`).
-/

namespace PowChain

/-! ## Batches -/

namespace Batch

/-- The write a batch holds for `k`: a value, a delete, or nothing. -/
def lookup (b : Batch) (k : ByteArray) : Option (Option ByteArray) :=
  (b.find? (·.1 == k)).map (·.2)

/-- Each key is written at most once. -/
def KeysNodup (b : Batch) : Prop := (b.map (·.1)).Nodup

@[simp] theorem lookup_nil (k : ByteArray) : lookup [] k = none := rfl

theorem lookup_cons (e : ByteArray × Option ByteArray) (b : Batch) (k : ByteArray) :
    lookup (e :: b) k = if e.1 = k then some e.2 else lookup b k := by
  by_cases h : e.1 = k <;> simp [lookup, h]

/-- With each key once, the write of `k` is the one entry of `k`. -/
theorem lookup_eq_some_iff {b : Batch} (hb : b.KeysNodup) {k : ByteArray}
    {op : Option ByteArray} : lookup b k = some op ↔ (k, op) ∈ b := by
  induction b with
  | nil => simp
  | cons e b ih =>
    obtain ⟨k0, op0⟩ := e
    simp only [KeysNodup, List.map_cons, List.nodup_cons] at hb
    rw [lookup_cons, List.mem_cons]
    by_cases hk : k0 = k
    · subst hk
      have hnot : ∀ op', (k0, op') ∉ b := fun op' hm =>
        hb.1 (List.mem_map.mpr ⟨(k0, op'), hm, rfl⟩)
      simp only [if_true, Option.some.injEq, Prod.mk.injEq, true_and]
      constructor
      · rintro rfl
        exact Or.inl rfl
      · rintro (h | h)
        · exact h.symm
        · exact absurd h (hnot op)
    · rw [if_neg hk, ih hb.2]
      simp [Ne.symm hk]

theorem lookup_eq_none_iff {b : Batch} {k : ByteArray} :
    lookup b k = none ↔ ∀ op, (k, op) ∉ b := by
  simp only [lookup, Option.map_eq_none_iff, List.find?_eq_none, beq_iff_eq]
  constructor
  · intro h op hm
    exact h _ hm rfl
  · rintro h ⟨k', op⟩ hm rfl
    exact h op hm

/-- Dropping the writes of one key leaves the writes of the others. -/
theorem lookup_filter_ne (b : Batch) {k k' : ByteArray} (h : k' ≠ k) :
    lookup (b.filter (·.1 != k)) k' = lookup b k' := by
  induction b with
  | nil => rfl
  | cons e b ih =>
    rw [List.filter_cons, lookup_cons]
    by_cases he : e.1 = k
    · have hk' : e.1 ≠ k' := fun h' => h (h'.symm.trans he)
      rw [if_neg (by simp [he]), ih, if_neg hk']
    · rw [if_pos (by simpa using he), lookup_cons, ih]

/-- A write of `k` put in front of the batch, `k`'s earlier write dropped:
it answers for `k`, and every other key reads as before. -/
theorem lookup_cons_filter (b : Batch) (k k' : ByteArray) (op : Option ByteArray) :
    lookup ((k, op) :: b.filter (·.1 != k)) k' = if k' = k then some op else lookup b k' := by
  rw [lookup_cons]
  by_cases h : k' = k
  · simp [h]
  · rw [if_neg (Ne.symm h), if_neg h, lookup_filter_ne _ h]

/-- Ordering a batch only rearranges its writes. -/
theorem perm_ordered (b : Batch) : (Batch.ordered b).Perm b := Bytes.perm_sortByKey _ b

theorem keysNodup_ordered {b : Batch} (hb : b.KeysNodup) : (Batch.ordered b).KeysNodup := by
  unfold KeysNodup at hb ⊢
  exact ((perm_ordered b).map (·.1)).nodup_iff.mpr hb

/-- Ordering a batch keeps the write of every key. -/
theorem lookup_ordered {b : Batch} (hb : b.KeysNodup) (k : ByteArray) :
    lookup (Batch.ordered b) k = lookup b k := by
  have hp := perm_ordered b
  cases h : lookup b k with
  | none =>
    rw [lookup_eq_none_iff] at h ⊢
    exact fun op hm => h op (hp.mem_iff.mp hm)
  | some op =>
    rw [lookup_eq_some_iff (keysNodup_ordered hb)]
    exact hp.mem_iff.mpr ((lookup_eq_some_iff hb).mp h)

end Batch

namespace KvMap

/-! ## Lookups -/

/-- Lookup in a list of entries: the first entry of the key. -/
theorem get?_mk (l : List (ByteArray × ByteArray)) (k : ByteArray) :
    get? ⟨l⟩ k = (l.find? (·.1 == k)).map (·.2) := rfl

@[simp] theorem get?_empty (k : ByteArray) : get? {} k = none := rfl

theorem get?_cons (e : ByteArray × ByteArray) (l : List (ByteArray × ByteArray)) (k : ByteArray) :
    get? ⟨e :: l⟩ k = if e.1 = k then some e.2 else get? ⟨l⟩ k := by
  by_cases h : e.1 = k <;> simp [get?, h]

/-- Inserting replaces the value of one key and leaves every other lookup,
whatever order the entries are in. -/
theorem get?_insert (m : KvMap) (k v k' : ByteArray) :
    (m.insert k v).get? k' = if k' = k then some v else m.get? k' := by
  obtain ⟨l⟩ := m
  simp only [insert]
  induction l with
  | nil => simp [insertList, get?_cons, eq_comm]
  | cons e rest ih =>
    obtain ⟨k0, v0⟩ := e
    simp only [insertList]
    cases hc : Bytes.compare k k0 with
    | lt => simp only [get?_cons, eq_comm]
    | eq =>
      obtain rfl := Bytes.compare_eq_iff.mp hc
      by_cases h : k' = k
      · simp [get?_cons, h]
      · simp [get?_cons, h, Ne.symm h]
    | gt =>
      have hne : k0 ≠ k := fun h => by simp [h, Bytes.compare_self] at hc
      rw [get?_cons, get?_cons, ih]
      by_cases h : k' = k
      · subst h
        simp [hne]
      · simp [h]

theorem get?_erase (m : KvMap) (k k' : ByteArray) :
    (m.erase k).get? k' = if k' = k then none else m.get? k' := by
  obtain ⟨l⟩ := m
  simp only [erase]
  induction l with
  | nil => simp [get?_mk]
  | cons e rest ih =>
    rw [List.filter_cons]
    by_cases he : e.1 = k
    · have : (e.1 != k) = false := by simp [he]
      rw [this, if_neg (by simp), ih, get?_cons]
      by_cases h : k' = k
      · simp [h]
      · simp [h, he, Ne.symm h]
    · have : (e.1 != k) = true := by simp [he]
      rw [this, if_pos rfl, get?_cons, ih, get?_cons]
      by_cases h : k' = k
      · subst h
        simp [he]
      · simp [h]

/-! ## Sorted maps -/

/-- Keys in strictly increasing order. -/
def Sorted (m : KvMap) : Prop := m.entries.Pairwise fun a b => Bytes.compare a.1 b.1 = .lt

theorem sorted_empty : Sorted {} := List.Pairwise.nil

theorem mem_insertList {k v : ByteArray} {l : List (ByteArray × ByteArray)}
    {x : ByteArray × ByteArray} (h : x ∈ insertList k v l) : x = (k, v) ∨ x ∈ l := by
  induction l with
  | nil => simpa [insertList] using h
  | cons e rest ih =>
    simp only [insertList] at h
    split at h
    · simpa using h
    · rcases List.mem_cons.mp h with h | h
      · exact Or.inl h
      · exact Or.inr (List.mem_cons_of_mem _ h)
    · rcases List.mem_cons.mp h with h | h
      · exact Or.inr (h ▸ List.mem_cons_self)
      · rcases ih h with h | h
        · exact Or.inl h
        · exact Or.inr (List.mem_cons_of_mem _ h)

theorem sorted_insert {m : KvMap} (hm : m.Sorted) (k v : ByteArray) : (m.insert k v).Sorted := by
  obtain ⟨l⟩ := m
  simp only [Sorted, insert] at hm ⊢
  induction l with
  | nil => simp [insertList]
  | cons e rest ih =>
    obtain ⟨k0, v0⟩ := e
    rw [List.pairwise_cons] at hm
    simp only [insertList]
    cases hc : Bytes.compare k k0 with
    | lt =>
      -- the new entry goes first: it is below `k0`, hence below all the rest
      refine List.Pairwise.cons ?_ (List.Pairwise.cons hm.1 hm.2)
      intro x hx
      rcases List.mem_cons.mp hx with rfl | hx
      · exact hc
      · exact Bytes.compare_lt_trans hc (hm.1 x hx)
    | eq =>
      obtain rfl := Bytes.compare_eq_iff.mp hc
      exact List.Pairwise.cons hm.1 hm.2
    | gt =>
      refine List.Pairwise.cons ?_ (ih hm.2)
      intro x hx
      rcases mem_insertList hx with rfl | hx
      · exact Bytes.compare_gt_iff_lt.mp hc
      · exact hm.1 x hx

theorem sorted_erase {m : KvMap} (hm : m.Sorted) (k : ByteArray) : (m.erase k).Sorted :=
  List.Pairwise.filter _ hm

/-- A key below every key of a list is not in it. -/
theorem get?_of_lt_all {l : List (ByteArray × ByteArray)} {k : ByteArray}
    (h : ∀ x ∈ l, Bytes.compare k x.1 = .lt) : get? ⟨l⟩ k = none := by
  simp only [get?_mk, Option.map_eq_none_iff, List.find?_eq_none, beq_iff_eq]
  intro x hx hk
  exact Bytes.ne_of_compare_lt (h x hx) hk.symm

/-- Of two lists with the same lookups, the second sorted, the first key of the
first is not below the first key of the second: the second would miss it. -/
theorem not_compare_lt_head {e₁ e₂ : ByteArray × ByteArray} {r₁ r₂ : List (ByteArray × ByteArray)}
    (h₂ : ∀ x ∈ r₂, Bytes.compare e₂.1 x.1 = .lt) (h : ∀ k, get? ⟨e₁ :: r₁⟩ k = get? ⟨e₂ :: r₂⟩ k) :
    Bytes.compare e₁.1 e₂.1 ≠ .lt := by
  intro hc
  have hlook := h e₁.1
  rw [get?_cons, get?_cons, if_pos rfl, if_neg (Bytes.ne_of_compare_lt hc).symm,
    get?_of_lt_all fun x hx => Bytes.compare_lt_trans hc (h₂ x hx)] at hlook
  simp at hlook

/-- Two sorted maps with the same lookups are the same map. -/
theorem ext_of_sorted {m₁ m₂ : KvMap} (h₁ : m₁.Sorted) (h₂ : m₂.Sorted)
    (h : ∀ k, m₁.get? k = m₂.get? k) : m₁ = m₂ := by
  obtain ⟨l₁⟩ := m₁
  obtain ⟨l₂⟩ := m₂
  simp only [Sorted] at h₁ h₂
  congr 1
  induction l₁ generalizing l₂ with
  | nil =>
    cases l₂ with
    | nil => rfl
    | cons e r => simpa [get?_cons] using (h e.1).symm
  | cons e₁ r₁ ih =>
    cases l₂ with
    | nil => simpa [get?_cons] using h e₁.1
    | cons e₂ r₂ =>
      rw [List.pairwise_cons] at h₁ h₂
      -- the least key of each list must be the least key of the other
      have hkey : e₁.1 = e₂.1 := by
        cases hc : Bytes.compare e₁.1 e₂.1 with
        | eq => exact Bytes.compare_eq_iff.mp hc
        | lt => exact absurd hc (not_compare_lt_head h₂.1 h)
        | gt => exact absurd (Bytes.compare_gt_iff_lt.mp hc) (not_compare_lt_head h₁.1 fun k => (h k).symm)
      have hval : e₁.2 = e₂.2 := by
        have hlook := h e₁.1
        rw [get?_cons, get?_cons, if_pos rfl, if_pos hkey.symm] at hlook
        exact Option.some.inj hlook
      have hrest : r₁ = r₂ := by
        refine ih h₁.2 r₂ h₂.2 fun k => ?_
        by_cases hk : k = e₁.1
        · subst hk
          rw [get?_of_lt_all h₁.1, hkey, get?_of_lt_all h₂.1]
        · have := h k
          rwa [get?_cons, get?_cons, if_neg (Ne.symm hk),
            if_neg (fun h' => hk (h'.symm.trans hkey.symm))] at this
      rw [Prod.ext hkey hval, hrest]

/-- In a sorted map an insert replaces the one entry of its key. -/
theorem insert_perm {m : KvMap} (hm : m.Sorted) (k v : ByteArray) :
    (m.insert k v).entries.Perm ((k, v) :: m.entries.filter (·.1 != k)) := by
  obtain ⟨l⟩ := m
  simp only [Sorted, insert] at hm ⊢
  induction l with
  | nil => simp [insertList]
  | cons e rest ih =>
    obtain ⟨k0, v0⟩ := e
    rw [List.pairwise_cons] at hm
    -- no key of `rest` is `k0`, nor any key below `k0`
    have hfilter : ∀ k', Bytes.compare k' k0 ≠ .gt → rest.filter (·.1 != k') = rest := by
      intro k' hk'
      refine List.filter_eq_self.mpr fun x hx => ?_
      have hlt := hm.1 x hx
      have hne : x.1 ≠ k' := by
        rintro rfl
        cases hc : Bytes.compare x.1 k0 with
        | lt =>
          have hswap := Bytes.compare_swap k0 x.1
          rw [hlt, hc] at hswap
          exact absurd hswap (by decide)
        | eq => simp [Bytes.compare_eq_iff.mp hc, Bytes.compare_self] at hlt
        | gt => exact hk' hc
      simpa using hne
    simp only [insertList]
    cases hc : Bytes.compare k k0 with
    | lt =>
      have hne : k0 ≠ k := fun h => by simp [h, Bytes.compare_self] at hc
      rw [List.filter_cons, if_pos (by simpa using hne), hfilter k (by simp [hc])]
    | eq =>
      obtain rfl := Bytes.compare_eq_iff.mp hc
      rw [List.filter_cons, if_neg (by simp), hfilter k (by simp [Bytes.compare_self])]
    | gt =>
      have hne : k0 ≠ k := fun h => by simp [h, Bytes.compare_self] at hc
      rw [List.filter_cons, if_pos (by simpa using hne)]
      exact ((ih hm.2).cons _).trans (List.Perm.swap _ _ _)

/-! ## Applying a batch -/

/-- One write of a batch. -/
def write (m : KvMap) (e : ByteArray × Option ByteArray) : KvMap :=
  match e.2 with
  | some v => m.insert e.1 v
  | none => m.erase e.1

/-- A batch applied in key order, as an in-memory store commits it. -/
def applyBatch (m : KvMap) (b : Batch) : KvMap := (Batch.ordered b).foldl write m

@[simp] theorem applyBatch_nil (m : KvMap) : m.applyBatch [] = m := rfl

theorem get?_write (m : KvMap) (e : ByteArray × Option ByteArray) (k : ByteArray) :
    (m.write e).get? k = if k = e.1 then e.2 else m.get? k := by
  obtain ⟨k0, op⟩ := e
  cases op with
  | some v => simp [write, get?_insert]
  | none => simp [write, get?_erase]

theorem sorted_write {m : KvMap} (hm : m.Sorted) (e : ByteArray × Option ByteArray) :
    (m.write e).Sorted := by
  obtain ⟨k0, op⟩ := e
  cases op with
  | some v => exact sorted_insert hm k0 v
  | none => exact sorted_erase hm k0

theorem sorted_foldl_write {m : KvMap} (hm : m.Sorted) (l : Batch) : (l.foldl write m).Sorted := by
  induction l generalizing m with
  | nil => exact hm
  | cons e l ih => exact ih (sorted_write hm e)

theorem sorted_applyBatch {m : KvMap} (hm : m.Sorted) (b : Batch) : (m.applyBatch b).Sorted :=
  sorted_foldl_write hm _

/-- Writes to distinct keys, applied one after another. -/
theorem get?_foldl_write (m : KvMap) {l : Batch} (hl : l.KeysNodup) (k : ByteArray) :
    (l.foldl write m).get? k = match Batch.lookup l k with
      | some op => op
      | none => m.get? k := by
  induction l generalizing m with
  | nil => rfl
  | cons e l ih =>
    simp only [Batch.KeysNodup, List.map_cons, List.nodup_cons] at hl
    rw [List.foldl_cons, ih _ hl.2, Batch.lookup_cons]
    by_cases he : e.1 = k
    · subst he
      -- the later writes do not touch the key of this one
      have hnone : Batch.lookup l e.1 = none :=
        Batch.lookup_eq_none_iff.mpr fun op hm => hl.1 (List.mem_map.mpr ⟨_, hm, rfl⟩)
      simp [hnone, get?_write]
    · rw [if_neg he]
      cases Batch.lookup l k with
      | some op => rfl
      | none => simp [get?_write, Ne.symm he]

/-- A batch that names each key once acts key by key. -/
theorem get?_applyBatch (m : KvMap) {b : Batch} (hb : b.KeysNodup) (k : ByteArray) :
    (m.applyBatch b).get? k = match Batch.lookup b k with
      | some op => op
      | none => m.get? k := by
  rw [applyBatch, get?_foldl_write m (Batch.keysNodup_ordered hb), Batch.lookup_ordered hb]

end KvMap
end PowChain
