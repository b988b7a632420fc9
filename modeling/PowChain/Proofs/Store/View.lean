import PowChain.Proofs.Store.Contract

/-!
# A store transaction sees one commit

Keys are ordered bytewise, and the keys that start with a prefix `p` form one
interval of that order: every such key is at least `p`
(`Bytes.compare_ge_of_startsWith`), and past a key at least `p` without the
prefix no later key has it (`Bytes.not_startsWith_of_above`).  So a scan that
starts at `p` and stops at the first key without it, as both backends run one,
finds every entry under `p` (`KvMap.scan_eq_takeWhile`,
`StoreFile.shows_file`): it lists exactly the entries with the prefix, in
ascending key order (`KvMap.listsPrefix_scan`).

A transaction over a store that keeps the backend contract for a map `m`
reads `m` overwritten by its own writes: a lookup gives the value there, a
scan the entries there under its prefix (`Txn.scan_eq`).  Any sequence of
calls on a transaction answers so, each call seeing the writes before it
(`TxnCall.run_all`).

`update` commits a transaction's whole batch, or nothing when the transaction
fails, and a dry run commits nothing (`Store.Transacts`).  A store in a
database file keeps the contract when the database does what the code asks
of it: keys compare bytewise, and a batch of writes is committed as a whole
(`StoreFile.Handle.Keeps`, `Store.faithful_file`).
-/

namespace PowChain

/-! ## Prefixes in the order of keys -/

namespace Bytes

/-- A byte string starts with `p` exactly when `p`'s bytes are a prefix of
its bytes. -/
theorem startsWith_iff {b p : ByteArray} : startsWith b p = true ↔ p.toList <+: b.toList := by
  rw [List.prefix_iff_getElem?]
  simp only [startsWith, Bool.and_eq_true, decide_eq_true_eq, List.all_eq_true, List.mem_range,
    beq_iff_eq, getD_eq_getD_toList, List.getD_eq_getElem?_getD, ← length_toList]
  constructor
  · rintro ⟨hle, h⟩ i hi
    have hb : i < b.toList.length := by omega
    have := h i hi
    rw [List.getElem?_eq_getElem hb, List.getElem?_eq_getElem hi, Option.getD_some,
      Option.getD_some] at this
    rw [List.getElem?_eq_getElem hb, this]
  · intro h
    -- a prefix is no longer than the string
    have hle : p.toList.length ≤ b.toList.length := by
      by_contra hlt
      have := h b.toList.length (by omega)
      simp at this
    refine ⟨hle, fun i hi => ?_⟩
    rw [h i hi, List.getElem?_eq_getElem hi]

/-- A list is below, or equal to, every list it is a prefix of. -/
theorem compare_ne_gt_of_prefix {p k : List UInt8} (h : p <+: k) : Ord.compare p k ≠ .gt := by
  induction p generalizing k with
  | nil =>
    cases k with
    | nil => simp
    | cons y k => simp [List.compare_nil_cons]
  | cons x p ih =>
    obtain ⟨y, k, rfl⟩ : ∃ y k', k = y :: k' := by
      cases k with
      | nil => exact absurd h (by simp)
      | cons y k => exact ⟨y, k, rfl⟩
    obtain ⟨rfl, hp⟩ := List.cons_prefix_cons.mp h
    have hxx : Ord.compare x x = .eq := Std.ReflCmp.compare_self
    rw [List.compare_cons_cons, hxx, Ordering.eq_then]
    exact ih hp

/-- Past a list at least `p` that does not start with `p`, no greater list
starts with `p`: the lists starting with `p` are one interval of the order. -/
theorem not_prefix_of_above {p a b : List UInt8} (hpa : Ord.compare p a ≠ .gt) (hna : ¬ p <+: a)
    (hab : Ord.compare a b = .lt) : ¬ p <+: b := by
  induction p generalizing a b with
  | nil => exact absurd List.nil_prefix hna
  | cons x p ih =>
    intro hpb
    obtain ⟨z, b, rfl⟩ : ∃ z b', b = z :: b' := by
      cases b with
      | nil => exact absurd hpb (by simp)
      | cons z b => exact ⟨z, b, rfl⟩
    obtain ⟨rfl, hpb'⟩ := List.cons_prefix_cons.mp hpb
    cases a with
    | nil => exact hpa List.compare_cons_nil
    | cons y a =>
      rw [List.compare_cons_cons] at hpa hab
      cases hxy : Ord.compare x y with
      | gt => simp [hxy] at hpa
      | lt =>
        -- `b` begins with `x`, below `a`'s first byte, so `b` is below `a`
        have hyx : Ord.compare y x = .gt := Std.OrientedCmp.gt_of_lt hxy
        simp [hyx] at hab
      | eq =>
        obtain rfl := Std.LawfulEqCmp.eq_of_compare hxy
        rw [hxy, Ordering.eq_then] at hpa hab
        exact ih hpa (fun h => hna (List.cons_prefix_cons.mpr ⟨rfl, h⟩)) hab hpb'

/-- A key that starts with `p` is not below `p`. -/
theorem compare_ge_of_startsWith {k p : ByteArray} (h : startsWith k p = true) : compare k p ≠ .lt := by
  rw [compare_swap]
  intro hlt
  have hgt : compare p k = .gt := by
    cases hc : compare p k <;> simp_all
  exact compare_ne_gt_of_prefix (startsWith_iff.mp h) hgt

/-- Past a key at least `p` without the prefix `p`, no greater key has it. -/
theorem not_startsWith_of_above {p a b : ByteArray} (hpa : compare a p ≠ .lt)
    (hna : startsWith a p = false) (hab : compare a b = .lt) : startsWith b p = false := by
  have hpa' : Ord.compare p.toList a.toList ≠ .gt := by
    rw [compare_swap] at hpa
    intro hgt
    exact hpa (by simp [compare, hgt])
  have hb : ¬ p.toList <+: b.toList :=
    not_prefix_of_above hpa' (fun h => by simp [startsWith_iff.mpr h] at hna) hab
  cases h : startsWith b p with
  | false => rfl
  | true => exact absurd (startsWith_iff.mp h) hb

end Bytes

/-! ## Scans of a sorted map -/

namespace KvMap

/-- Keys in strictly increasing order, on a list of entries. -/
abbrev Ascending (l : List (ByteArray × ByteArray)) : Prop :=
  l.Pairwise fun a b => Bytes.compare a.1 b.1 = .lt

/-- The entries from `p` on: where a range scan that starts at `p` walks. -/
def entriesFrom (m : KvMap) (p : ByteArray) : List (ByteArray × ByteArray) :=
  m.entries.filter fun e => Bytes.compare e.1 p != .lt

/-- Walking ascending entries, all at least `p`, while they start with `p`
finds every one of them that does. -/
theorem takeWhile_eq_filter {p : ByteArray} :
    ∀ {l : List (ByteArray × ByteArray)}, Ascending l → (∀ e ∈ l, Bytes.compare e.1 p ≠ .lt) →
      l.takeWhile (fun e => Bytes.startsWith e.1 p) = l.filter fun e => Bytes.startsWith e.1 p
  | [], _, _ => rfl
  | e :: rest, hl, hge => by
    replace hl := List.pairwise_cons.mp hl
    have hrest := takeWhile_eq_filter hl.2 fun x hx => hge x (List.mem_cons_of_mem _ hx)
    rw [List.takeWhile_cons, List.filter_cons]
    cases he : Bytes.startsWith e.1 p with
    | true => simp [hrest]
    | false =>
      -- every later key is above `e`'s, which already left the prefix
      refine (List.filter_eq_nil_iff.mpr fun x hx => ?_).symm
      simp [Bytes.not_startsWith_of_above (hge e List.mem_cons_self) he (hl.1 x hx)]

/-- The scan of a sorted map is the range scan from `p`, stopped at the first
key without the prefix. -/
theorem scan_eq_takeWhile {m : KvMap} (hm : m.Sorted) (p : ByteArray) :
    m.scan p = (m.entriesFrom p).takeWhile fun e => Bytes.startsWith e.1 p := by
  have hasc : Ascending (m.entriesFrom p) := List.Pairwise.filter _ hm
  have hfrom : ∀ e ∈ m.entriesFrom p, Bytes.compare e.1 p ≠ .lt := fun e he => by
    simpa [entriesFrom] using (List.mem_filter.mp he).2
  rw [takeWhile_eq_filter hasc hfrom, entriesFrom, List.filter_filter]
  unfold scan
  congr 1
  funext e
  cases h : Bytes.startsWith e.1 p with
  | false => simp
  | true => simp [Bytes.compare_ge_of_startsWith h]

/-- In a sorted map an entry is listed exactly when a lookup of its key gives
its value. -/
theorem mem_entries_iff {m : KvMap} (hm : m.Sorted) {k v : ByteArray} :
    (k, v) ∈ m.entries ↔ m.get? k = some v := by
  obtain ⟨l⟩ := m
  simp only [Sorted] at hm
  induction l with
  | nil => simp [get?_mk]
  | cons e rest ih =>
    rw [List.pairwise_cons] at hm
    rw [get?_cons, List.mem_cons]
    by_cases hk : e.1 = k
    · subst hk
      -- no later entry has the first key
      have hnot : (e.1, v) ∉ rest := fun hm' => Bytes.ne_of_compare_lt (hm.1 _ hm') rfl
      simp only [if_true, Option.some.injEq]
      constructor
      · rintro (h | h)
        · rw [← h]
        · exact absurd h hnot
      · rintro rfl
        exact .inl rfl
    · rw [if_neg hk, ← ih hm.2]
      constructor
      · rintro (h | h)
        · exact absurd (congrArg Prod.fst h).symm hk
        · exact h
      · exact .inr

/-- `l` lists exactly the entries of `m` whose key starts with `p`, in
ascending key order. -/
structure ListsPrefix (m : KvMap) (p : ByteArray) (l : List (ByteArray × ByteArray)) : Prop where
  ascending : Ascending l
  mem : ∀ k v, (k, v) ∈ l ↔ m.get? k = some v ∧ Bytes.startsWith k p = true

theorem listsPrefix_scan {m : KvMap} (hm : m.Sorted) (p : ByteArray) : ListsPrefix m p (m.scan p) :=
  ⟨List.Pairwise.filter _ hm, fun k v => by rw [scan, List.mem_filter, mem_entries_iff hm]⟩

/-- A scan, read as a map, answers for the keys under its prefix. -/
theorem get?_scan (m : KvMap) (p k : ByteArray) :
    (⟨m.scan p⟩ : KvMap).get? k = if Bytes.startsWith k p then m.get? k else none := by
  obtain ⟨l⟩ := m
  simp only [scan]
  induction l with
  | nil => simp [get?_mk]
  | cons e rest ih =>
    rw [List.filter_cons]
    by_cases hk : e.1 = k
    · subst hk
      split <;> simp_all [get?_cons]
    · split <;> simp_all [get?_cons]

/-- The map of a list of entries with distinct keys answers as the list does,
and as `m₀` for the keys the list lacks. -/
theorem get?_foldl_insert {es : List (ByteArray × ByteArray)} (hes : (es.map (·.1)).Nodup)
    (m₀ : KvMap) (k : ByteArray) :
    (es.foldl (fun m (e : ByteArray × ByteArray) => m.insert e.1 e.2) m₀).get? k =
      match (⟨es⟩ : KvMap).get? k with
      | some v => some v
      | none => m₀.get? k := by
  induction es generalizing m₀ with
  | nil => rfl
  | cons e rest ih =>
    simp only [List.map_cons, List.nodup_cons] at hes
    rw [List.foldl_cons, ih hes.2, get?_cons]
    by_cases hk : e.1 = k
    · subst hk
      -- no later entry has the key
      have hnone : (⟨rest⟩ : KvMap).get? e.1 = none := by
        simp only [get?_mk, Option.map_eq_none_iff, List.find?_eq_none, beq_iff_eq]
        exact fun x hx hxk => hes.1 (List.mem_map.mpr ⟨x, hx, hxk⟩)
      simp [hnone, get?_insert]
    · rw [if_neg hk]
      cases (⟨rest⟩ : KvMap).get? k with
      | some v => rfl
      | none => simp [get?_insert, Ne.symm hk]

theorem sorted_foldl_insert {m₀ : KvMap} (hm : m₀.Sorted) (es : List (ByteArray × ByteArray)) :
    (es.foldl (fun m (e : ByteArray × ByteArray) => m.insert e.1 e.2) m₀).Sorted := by
  induction es generalizing m₀ with
  | nil => exact hm
  | cons e rest ih => exact ih (sorted_insert hm e.1 e.2)

/-- Writes to distinct keys, applied from the last one back. -/
theorem get?_foldr_write (m : KvMap) {l : Batch} (hl : l.KeysNodup) (k : ByteArray) :
    (l.foldr (fun e m => m.write e) m).get? k = match Batch.lookup l k with
      | some op => op
      | none => m.get? k := by
  induction l with
  | nil => rfl
  | cons e l ih =>
    simp only [Batch.KeysNodup, List.map_cons, List.nodup_cons] at hl
    rw [List.foldr_cons, get?_write, ih hl.2, Batch.lookup_cons]
    by_cases he : k = e.1
    · subst he
      simp
    · rw [if_neg he, if_neg (Ne.symm he)]

theorem sorted_foldl_applyBatch {m : KvMap} (hm : m.Sorted) (bs : List Batch) :
    (bs.foldl applyBatch m).Sorted := by
  induction bs generalizing m with
  | nil => exact hm
  | cons b bs ih => exact ih (sorted_applyBatch hm b)

theorem sorted_foldr_write {m : KvMap} (hm : m.Sorted) (l : Batch) :
    (l.foldr (fun e m => m.write e) m).Sorted := by
  induction l with
  | nil => exact hm
  | cons e l ih => exact sorted_write ih e

end KvMap

namespace Batch

/-- Keeping the writes under a prefix keeps their lookups and drops the
others'. -/
theorem lookup_filter_prefix (b : Batch) (p k : ByteArray) :
    lookup (b.filter fun e => Bytes.startsWith e.1 p) k =
      if Bytes.startsWith k p then lookup b k else none := by
  induction b with
  | nil => simp
  | cons e b ih =>
    rw [List.filter_cons, lookup_cons]
    by_cases hk : e.1 = k
    · subst hk
      cases hP : Bytes.startsWith e.1 p <;> simp [lookup_cons, hP, ih]
    · split <;> simp [lookup_cons, hk, ih]

theorem keysNodup_filter {b : Batch} (hb : b.KeysNodup) (P : ByteArray × Option ByteArray → Bool) :
    KeysNodup (b.filter P) :=
  hb.sublist (List.filter_sublist.map _)

end Batch

/-! ## Reading through a transaction -/

namespace KvMap

/-- The pending writes under `p`, laid over the stored entries under `p`,
give the entries under `p` of the map with every pending write. -/
theorem merge_scan {m : KvMap} (hm : m.Sorted) {b : Batch} (hb : b.KeysNodup) (p : ByteArray) :
    (b.filter fun e => Bytes.startsWith e.1 p).foldr (fun e (acc : KvMap) => acc.write e)
      ((m.scan p).foldl (fun (acc : KvMap) (e : ByteArray × ByteArray) => acc.insert e.1 e.2) {}) =
        ⟨(m.applyBatch b).scan p⟩ := by
  have hnodup : ((m.scan p).map (·.1)).Nodup :=
    List.pairwise_map.mpr ((List.Pairwise.filter _ hm).imp Bytes.ne_of_compare_lt)
  refine ext_of_sorted (sorted_foldr_write (sorted_foldl_insert sorted_empty _) _)
    (List.Pairwise.filter _ (sorted_applyBatch hm b)) fun k => ?_
  rw [get?_foldr_write _ (Batch.keysNodup_filter hb _), Batch.lookup_filter_prefix,
    get?_foldl_insert hnodup, get?_scan, get?_scan, get?_applyBatch m hb]
  cases Bytes.startsWith k p <;> simp
  cases Batch.lookup b k <;> cases m.get? k <;> rfl

end KvMap

namespace Txn

theorem keysNodup_delete {t : Txn} (hb : t.batch.KeysNodup) (k : ByteArray) :
    (t.delete k).batch.KeysNodup := by
  simp only [Txn.delete, Batch.KeysNodup, List.map_cons, List.nodup_cons]
  constructor
  · simp
  · exact hb.sublist ((List.filter_sublist).map _)

/-- A delete removes its key from the view. -/
theorem view_delete {t : Txn} {m : KvMap} (hm : m.Sorted) (hb : t.batch.KeysNodup) (k : ByteArray) :
    (t.delete k).view m = (t.view m).erase k := by
  refine KvMap.ext_of_sorted (KvMap.sorted_applyBatch hm _)
    (KvMap.sorted_erase (KvMap.sorted_applyBatch hm _) k) fun k' => ?_
  rw [view, view, KvMap.get?_applyBatch m (keysNodup_delete hb k), KvMap.get?_erase,
    KvMap.get?_applyBatch m hb]
  simp only [Txn.delete, Batch.lookup_cons_filter]
  split_ifs <;> rfl

/-- A scan through a transaction lists the entries under its prefix of the
transaction's view. -/
theorem scan_eq {t : Txn} {m : KvMap} (hm : m.Sorted) (hs : t.base.Shows m) (hb : t.batch.KeysNodup)
    (p : ByteArray) : t.scan p = .ok ((t.view m).scan p) := by
  unfold Txn.scan
  rw [hs.scan p]
  exact congrArg (fun m : KvMap => Except.ok m.entries) (KvMap.merge_scan hm hb p)

end Txn

/-! ## Calls on a transaction -/

/-- A call on a store transaction: a write, a delete, a lookup or a prefix
scan. -/
inductive TxnCall where
  | set (k v : ByteArray)
  | delete (k : ByteArray)
  | get (k : ByteArray)
  | iterate (p : ByteArray)

/-- What a call answers: a write nothing, a lookup a value, a scan its
entries. -/
inductive TxnAnswer where
  | done
  | value (v : Option ByteArray)
  | entries (l : List (ByteArray × ByteArray))

namespace TxnCall

/-- Makes the call inside the transaction. -/
def run : TxnCall → TxnM TxnAnswer
  | .set k v => do TxnM.set k v; pure .done
  | .delete k => do TxnM.delete k; pure .done
  | .get k => do pure (.value (← TxnM.get? k))
  | .iterate p => do pure (.entries (← TxnM.scan p))

/-- The map a call leaves: a write overwrites its key, a read changes
nothing. -/
def write (m : KvMap) : TxnCall → KvMap
  | .set k v => m.insert k v
  | .delete k => m.erase k
  | .get _ | .iterate _ => m

/-- What a call answers on the map `m`. -/
def answer (m : KvMap) : TxnCall → TxnAnswer
  | .set .. | .delete .. => .done
  | .get k => .value (m.get? k)
  | .iterate p => .entries (m.scan p)

/-- What calls made one after another answer, each on the map the writes
before it left. -/
def answers : KvMap → List TxnCall → List TxnAnswer
  | _, [] => []
  | m, c :: cs => c.answer m :: answers (c.write m) cs

theorem write_sorted {m : KvMap} (hm : m.Sorted) : ∀ c : TxnCall, (c.write m).Sorted
  | .set k v => KvMap.sorted_insert hm k v
  | .delete k => KvMap.sorted_erase hm k
  | .get _ | .iterate _ => hm

theorem foldl_write_sorted {m : KvMap} (hm : m.Sorted) (cs : List TxnCall) :
    (cs.foldl write m).Sorted := by
  induction cs generalizing m with
  | nil => exact hm
  | cons c cs ih => exact ih (write_sorted hm c)

variable {t : Txn} {m : KvMap}

/-- One call on a transaction over a store showing `m`: it answers from the
transaction's view and moves the view as it writes. -/
theorem run_step (hm : m.Sorted) (hs : t.base.Shows m) (hb : t.batch.KeysNodup) (c : TxnCall) :
    ∃ t', c.run.run t = .ok (c.answer (t.view m), t') ∧ t'.base = t.base ∧ t'.batch.KeysNodup ∧
      t'.view m = c.write (t.view m) := by
  cases c with
  | set k v => exact ⟨t.set k v, rfl, rfl, Txn.keysNodup_set hb k v, Txn.view_set hm hb k v⟩
  | delete k => exact ⟨t.delete k, rfl, rfl, Txn.keysNodup_delete hb k, Txn.view_delete hm hb k⟩
  | get k =>
    refine ⟨t, ?_, rfl, hb, rfl⟩
    simp only [run, TxnM.get?, StateT.run_bind, StateT.run_get, liftM, monadLift, MonadLift.monadLift,
      StateT.run_lift, StateT.run_pure, pure_bind, Txn.get?_eq hs hb k]
    rfl
  | iterate p =>
    refine ⟨t, ?_, rfl, hb, rfl⟩
    simp only [run, TxnM.scan, StateT.run_bind, StateT.run_get, liftM, monadLift, MonadLift.monadLift,
      StateT.run_lift, StateT.run_pure, pure_bind, Txn.scan_eq hm hs hb p]
    rfl

/-- Calls made one after another on a transaction over a store showing `m`
answer each from `m` overwritten by the writes before it, and leave `m`
overwritten by all of them. -/
theorem run_all (hm : m.Sorted) (hs : t.base.Shows m) (hb : t.batch.KeysNodup) (cs : List TxnCall) :
    ∃ t', (cs.mapM run).run t = .ok (answers (t.view m) cs, t') ∧ t'.view m = cs.foldl write (t.view m) := by
  induction cs generalizing t with
  | nil => exact ⟨t, rfl, rfl⟩
  | cons c cs ih =>
    obtain ⟨t₁, hrun, hbase, hb₁, hview⟩ := run_step hm hs hb c
    obtain ⟨t', hrest, hview'⟩ := ih (hbase ▸ hs) hb₁
    refine ⟨t', ?_, by rw [hview', hview, List.foldl_cons]⟩
    rw [hview] at hrest
    simp only [List.mapM_cons, StateT.run_bind, hrun, StateT.run_pure]
    simp only [bind, Except.bind, hrest, pure, Except.pure]
    rfl

end TxnCall

/-! ## Stores in database files -/

namespace StoreFile

/-- Several batches committed one after another. -/
def Handle.applyAll (h : Handle) : List Batch → Except WriteFailure Handle
  | [] => .ok h
  | b :: bs =>
    match h.apply b with
    | .ok h' => h'.applyAll bs
    | .error e => .error e

/-- The database answers as the map `m`: a lookup gives the key's value as a
blob, the scan from `p` gives the entries from `p` on in ascending key order
as blobs (keys compare bytewise), and the file holds a byte for each entry at
least. -/
structure Handle.Answers (h : Handle) (m : KvMap) : Prop where
  lookup : ∀ k, ∃ enc col, h.lookup k = .ok ((m.get? k).map fun v => (.blob v enc, col))
  scan : ∀ p, ∃ enc kc vc,
    h.scan p = .ok ((m.entriesFrom p).map fun e => (.blob e.1 enc, .blob e.2 enc), kc, vc)
  size : m.size ≤ h.bytes.size

/-- The database keeps the sorted map `m`: it answers as `m`, and after any
commits as `m` with their batches applied, each as a whole. -/
def Handle.Keeps (h : Handle) (m : KvMap) : Prop :=
  m.Sorted ∧ ∀ bs h', h.applyAll bs = .ok h' → h'.Answers (bs.foldl KvMap.applyBatch m)

/-- Rows of blobs are read while their keys start with `p`. -/
theorem takePrefixed_blobs (p : ByteArray) (kc vc : String) (enc : Sql.Encoding) :
    ∀ l : List (ByteArray × ByteArray),
      Store.takePrefixed p kc vc (l.map fun e => (.blob e.1 enc, .blob e.2 enc)) =
        .ok (l.takeWhile fun e => Bytes.startsWith e.1 p)
  | [] => rfl
  | e :: rest => by
    rw [List.map_cons, List.takeWhile_cons]
    cases h : Bytes.startsWith e.1 p with
    | false => simp [Store.takePrefixed, h]
    | true =>
      simp only [Store.takePrefixed, h, Bool.not_true, Bool.false_eq_true, if_false, if_true,
        takePrefixed_blobs p kc vc enc rest]
      rfl

/-- A store whose database answers as `m` shows `m`: the scan from `p`,
stopped at the first key without the prefix, finds every entry under `p`. -/
theorem shows_file {h : Handle} {m : KvMap} (hm : m.Sorted) (ha : h.Answers m) :
    Store.Shows ⟨.file h⟩ m := by
  refine ⟨fun k => ?_, fun p => ?_, ha.size⟩
  · obtain ⟨enc, col, hl⟩ := ha.lookup k
    simp only [Store.get?, hl]
    cases m.get? k <;> rfl
  · obtain ⟨enc, kc, vc, hsc⟩ := ha.scan p
    simp only [Store.scan, hsc]
    rw [takePrefixed_blobs, KvMap.scan_eq_takeWhile hm]

theorem commitAll_file (h : Handle) :
    ∀ (bs : List Batch) {s' : Store}, Store.commitAll ⟨.file h⟩ bs = .ok s' →
      ∃ h', h.applyAll bs = .ok h' ∧ s' = ⟨.file h'⟩
  | [], s', hc => by
    cases hc
    exact ⟨h, rfl, rfl⟩
  | b :: bs, s', hc => by
    simp only [Store.commitAll, Store.commit] at hc
    cases ha : h.apply b with
    | error e =>
      rw [ha] at hc
      cases e <;> cases hc
    | ok h₁ =>
      rw [ha] at hc
      obtain ⟨h', happ, rfl⟩ := commitAll_file h₁ bs hc
      exact ⟨h', by simp [Handle.applyAll, ha, happ], rfl⟩

end StoreFile

namespace Store

/-- A store in a database file that keeps `m` keeps the contract of an
ordered backend for `m`. -/
theorem faithful_file {h : StoreFile.Handle} {m : KvMap} (hk : h.Keeps m) : Faithful ⟨.file h⟩ m := by
  refine ⟨hk.1, fun bs s' hc => ?_⟩
  obtain ⟨h', happ, rfl⟩ := StoreFile.commitAll_file h bs hc
  exact StoreFile.shows_file (KvMap.sorted_foldl_applyBatch hk.1 bs) (hk.2 bs h' happ)

/-- A transaction that fails commits nothing: `update` answers its error. -/
theorem update_of_error {α : Type} {s : Store} {f : TxnM α} {e : LedgerError}
    (h : f.run ⟨s, []⟩ = .error e) : s.update f = .error e := by
  rw [update_eq, h]

/-- In memory a transaction that goes through is committed: the store then
holds its map overwritten by the transaction's batch. -/
theorem update_memory_of_run {α : Type} {m : KvMap} {f : TxnM α} {a : α} {t : Txn}
    (h : f.run ⟨⟨.memory m⟩, []⟩ = .ok (a, t)) :
    Store.update ⟨.memory m⟩ f = .ok (a, ⟨.memory (t.view m)⟩) := by
  rw [update_eq, h]
  by_cases hb : t.batch.isEmpty
  · simp [Txn.view, List.isEmpty_iff.mp hb]
  · simp [hb, commit_memory, Txn.view, Except.map]

/-- What transactions over a store see, when the store keeps the contract of
an ordered backend for `m`. -/
structure Transacts (s : Store) (m : KvMap) : Prop where
  /-- Calls on a fresh transaction answer from `m` overwritten by the writes
  before each; the transaction ends with `m` overwritten by all of them. -/
  calls : ∀ cs : List TxnCall, ∃ t, (cs.mapM TxnCall.run).run ⟨s, []⟩ = .ok (TxnCall.answers m cs, t) ∧
    t.view m = cs.foldl TxnCall.write m
  /-- Every map the calls see is sorted, so each scan lists the entries under
  its prefix in ascending key order (`KvMap.listsPrefix_scan`). -/
  sorted : ∀ cs : List TxnCall, (cs.foldl TxnCall.write m).Sorted
  /-- A transaction that fails commits nothing. -/
  update_error : ∀ {α : Type} (f : TxnM α) (e : LedgerError), f.run ⟨s, []⟩ = .error e →
    s.update f = .error e
  /-- A committed transaction leaves a store that keeps the contract for `m`
  overwritten by the transaction's batch. -/
  update_ok : ∀ {α : Type} (f : TxnM α) (a : α) (s' : Store), s.update f = .ok (a, s') →
    ∃ t, f.run ⟨s, []⟩ = .ok (a, t) ∧ s'.Faithful (t.view m)
  /-- A dry run answers what its transaction answers and commits nothing. -/
  dryRun : ∀ {α : Type} (f : TxnM α), s.dryRun f = (f.run ⟨s, []⟩).map (·.1)

theorem Faithful.transacts {s : Store} {m : KvMap} (hs : s.Faithful m) : s.Transacts m where
  calls cs := by
    obtain ⟨t, hrun, hview⟩ := TxnCall.run_all (t := ⟨s, []⟩) hs.sorted hs.shows List.nodup_nil cs
    -- a fresh transaction views the store's own map
    have hfresh : (⟨s, []⟩ : Txn).view m = m := KvMap.applyBatch_nil m
    rw [hfresh] at hrun hview
    exact ⟨t, hrun, hview⟩
  sorted cs := TxnCall.foldl_write_sorted hs.sorted cs
  update_error _ _ h := update_of_error h
  update_ok _ _ _ h := hs.update h
  dryRun f := dryRun_eq s f

end Store

/-- A store transaction is a view of one atomic commit.  Over any store that
keeps the contract of an ordered backend for a map `m`, calls on a
transaction answer from `m` overwritten by the writes so far, and `update`
commits the whole batch or, when the transaction fails, nothing; a dry run
commits nothing.  A scan lists exactly the entries under its prefix, in
ascending key order.  A store in memory keeps the contract for its map, scans
it from the prefix while keys start with it, and commits every transaction
that goes through; a store in a database file keeps it when the database
compares keys bytewise and commits batches as a whole. -/
theorem transactions_see_one_commit :
    (∀ (s : Store) (m : KvMap), s.Faithful m → s.Transacts m) ∧
    (∀ (m : KvMap) (p : ByteArray), m.Sorted → m.ListsPrefix p (m.scan p)) ∧
    (∀ m : KvMap, m.Sorted → Store.Faithful ⟨.memory m⟩ m ∧
      (∀ p, Store.scan ⟨.memory m⟩ p = .ok ((m.entriesFrom p).takeWhile fun e => Bytes.startsWith e.1 p)) ∧
      ∀ {α : Type} (f : TxnM α) (a : α) (t : Txn), f.run ⟨⟨.memory m⟩, []⟩ = .ok (a, t) →
        Store.update ⟨.memory m⟩ f = .ok (a, ⟨.memory (t.view m)⟩)) ∧
    (∀ (h : StoreFile.Handle) (m : KvMap), h.Keeps m → Store.Faithful ⟨.file h⟩ m) :=
  ⟨fun _ _ hs => hs.transacts, fun _ p hm => KvMap.listsPrefix_scan hm p,
    fun _ hm => ⟨Store.faithful_memory hm, fun p => congrArg Except.ok (KvMap.scan_eq_takeWhile hm p),
      fun _ _ _ h => Store.update_memory_of_run h⟩,
    fun _ _ hk => Store.faithful_file hk⟩

end PowChain
