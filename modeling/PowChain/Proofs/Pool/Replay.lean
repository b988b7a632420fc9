import PowChain.Pool.Basic
import PowChain.Proofs.Ledger.Transitions
import PowChain.Proofs.Chain.Run

/-!
# Replaying pending transactions

The pool keeps pending transfers in an overlay of account records over the
canonical accounts.  What matters of an overlay is what it reads, not how it
keeps its records: a transfer written into two overlays that read alike
leaves them reading alike (`Overlay.lookup_absorb_congr`).

* `Overlay.applyAll` — transfers applied in order, each on the overlay the
  ones before it leave; the pool's invariant asks that its pending
  transactions all go through this way.
* `Sieve` — pending transactions sifted in order: one that applies on the
  overlay of the ones kept before it is kept, one whose transfer fails
  without a panic is evicted.  The kept ones apply in order
  (`Sieve.applyAll`), and every one is kept or evicted (`Sieve.perm`).
* `Pool.replay_ok` — the pool's replay sifts exactly so, and a replay fails
  only on a panic (`Pool.replay_error`).
-/

namespace PowChain

namespace Overlay

theorem find?_put (o : Overlay) (a : Address) (acct : Account) (x : Address) :
    (o.put a acct).find? x = if x = a then some acct else o.find? x := by
  unfold find? put
  by_cases hx : x = a
  · subst hx
    simp
  · have hfilter : (o.written.filter (·.1 != a)).find? (·.1 == x) = o.written.find? (·.1 == x) := by
      rw [List.find?_filter]
      congr 1
      funext e
      by_cases he : e.1 = x
      · simp [he, hx]
      · simp [he]
    have hax : (a == x) = false := beq_false_of_ne (Ne.symm hx)
    rw [List.find?_cons, if_neg hx]
    simp only [hax]
    rw [hfilter]

/-- A written record answers for its address; every other address reads as
before. -/
theorem lookup_put (o : Overlay) (base : AccountLookup) (a : Address) (acct : Account) :
    (o.put a acct).lookup base = fun x => if x = a then .ok acct else o.lookup base x := by
  funext x
  unfold lookup
  rw [find?_put]
  by_cases hx : x = a
  · rw [if_pos hx, if_pos hx]
  · rw [if_neg hx, if_neg hx]

@[simp] theorem lookup_empty (base : AccountLookup) : ({} : Overlay).lookup base = base := rfl

/-- The overlay with a transfer's accounts written, the sender's and then the
recipient's. -/
def absorb (o : Overlay) (tx : Transaction) (p : Account × Account) : Overlay :=
  (o.put tx.sender p.1).put tx.recipient p.2

/-- What an overlay reads after a transfer depends on what it read before,
not on how it keeps its records. -/
theorem lookup_absorb_congr {o₁ o₂ : Overlay} {base : AccountLookup} (h : o₁.lookup base = o₂.lookup base)
    (tx : Transaction) (p : Account × Account) :
    (o₁.absorb tx p).lookup base = (o₂.absorb tx p).lookup base := by
  simp only [absorb, lookup_put, h]

/-- Transfers applied in order over `base`, each on the overlay the ones
before it leave. -/
def applyAll (base : AccountLookup) (o : Overlay) : List SignedTx → Result Overlay
  | [] => .ok o
  | t :: ts =>
    match t.tx.transfer (o.lookup base) with
    | .ok p => applyAll base (o.absorb t.tx p) ts
    | .error e => .error e

theorem applyAll_append (base : AccountLookup) (o : Overlay) (ts₁ ts₂ : List SignedTx) :
    applyAll base o (ts₁ ++ ts₂) = (applyAll base o ts₁).bind fun o' => applyAll base o' ts₂ := by
  induction ts₁ generalizing o with
  | nil => rfl
  | cons t ts ih =>
    simp only [List.cons_append, applyAll]
    cases t.tx.transfer (o.lookup base) with
    | error e => rfl
    | ok p => exact ih _

end Overlay

/-- Pending transactions sifted in order over `base`, from the overlay `o` to
the overlay `o'`: one that applies on the overlay of those kept before it is
kept, and one whose transfer fails without a panic is evicted. -/
inductive Sieve (base : AccountLookup) : Overlay → List SignedTx → List SignedTx → List SignedTx → Overlay → Prop
  | nil (o : Overlay) : Sieve base o [] [] [] o
  | keep {o o' : Overlay} {t : SignedTx} {rest kept evicted : List SignedTx} {p : Account × Account}
      (applies : t.tx.transfer (o.lookup base) = .ok p) (sift : Sieve base (o.absorb t.tx p) rest kept evicted o') :
      Sieve base o (t :: rest) (t :: kept) evicted o'
  | evict {o o' : Overlay} {t : SignedTx} {rest kept evicted : List SignedTx} {e : LedgerError}
      (fails : t.tx.transfer (o.lookup base) = .error e) (noPanic : e.isPanic = false)
      (sift : Sieve base o rest kept evicted o') :
      Sieve base o (t :: rest) kept (t :: evicted) o'

namespace Sieve

variable {base : AccountLookup} {o o' : Overlay} {txs kept evicted : List SignedTx}

/-- The kept transactions apply in order and leave the sieve's overlay. -/
theorem applyAll (h : Sieve base o txs kept evicted o') : Overlay.applyAll base o kept = .ok o' := by
  induction h with
  | nil o => rfl
  | keep applies _ ih => simp only [Overlay.applyAll, applies, ih]
  | evict _ _ _ ih => exact ih

/-- Every pending transaction is kept or evicted, and none twice. -/
theorem perm (h : Sieve base o txs kept evicted o') : (kept ++ evicted).Perm txs := by
  induction h with
  | nil o => exact List.Perm.refl _
  | keep _ _ ih => exact ih.cons _
  | evict _ _ _ ih => exact List.perm_middle.trans (ih.cons _)

theorem kept_sublist (h : Sieve base o txs kept evicted o') : kept.Sublist txs := by
  induction h with
  | nil o => exact List.Sublist.slnil
  | keep _ _ ih => exact ih.cons_cons _
  | evict _ _ _ ih => exact ih.cons _

end Sieve

namespace Pool

/-- The transaction pending under `h` among `entries`. -/
def entryTx (entries : List (Digest × PendingEntry)) (h : Digest) : Option SignedTx :=
  (entries.find? (·.1 == h)).map (·.2.tx)

/-- A replay that finishes has sifted the pending transactions of its order:
it keeps the hashes of the kept ones and evicts those of the others, latest
first.  The induction is on the order, over any replay state. -/
theorem replay_ok {base : AccountLookup} {entries : List (Digest × PendingEntry)}
    (hkey : ∀ e ∈ entries, e.2.tx.hash = e.1) :
    ∀ (order : List Digest) (r r' : Replay), replay base entries order r = .ok r' →
      ∃ kept evicted, Sieve base r.shadows (order.filterMap (entryTx entries)) kept evicted r'.shadows ∧
        r'.kept = (kept.map SignedTx.hash).reverse ++ r.kept ∧
        r'.evicted = (evicted.map SignedTx.hash).reverse ++ r.evicted := by
  intro order
  induction order with
  | nil =>
    intro r r' h
    cases h
    exact ⟨[], [], .nil _, rfl, rfl⟩
  | cons h rest ih =>
    intro r r' hrun
    unfold replay at hrun
    cases hfind : entries.find? (·.1 == h) with
    | none =>
      rw [hfind] at hrun
      have hnone : entryTx entries h = none := by simp [entryTx, hfind]
      rw [List.filterMap_cons_none hnone]
      exact ih r r' hrun
    | some e =>
      rw [hfind] at hrun
      have hsome : entryTx entries h = some e.2.tx := by simp [entryTx, hfind]
      -- the entry found under `h` holds a transaction of hash `h`
      have hhash : e.2.tx.hash = h := by
        have hp := List.find?_some hfind
        rw [hkey e (List.mem_of_find?_eq_some hfind)]
        exact beq_iff_eq.mp hp
      rw [List.filterMap_cons_some hsome]
      simp only [Option.map_some] at hrun
      cases htr : e.2.tx.tx.transfer (r.shadows.lookup base) with
      | ok p =>
        rw [htr] at hrun
        obtain ⟨kept, evicted, hsieve, hkept, hev⟩ := ih _ r' hrun
        refine ⟨e.2.tx :: kept, evicted, .keep htr hsieve, ?_, hev⟩
        rw [hkept, List.map_cons, List.reverse_cons, List.append_assoc, hhash]
        rfl
      | error err =>
        rw [htr] at hrun
        dsimp only at hrun
        cases hp : err.isPanic with
        | true =>
          rw [hp] at hrun
          cases hrun
        | false =>
          rw [hp] at hrun
          obtain ⟨kept, evicted, hsieve, hkept, hev⟩ := ih _ r' hrun
          refine ⟨kept, e.2.tx :: evicted, .evict htr hp hsieve, hkept, ?_⟩
          rw [hev, List.map_cons, List.reverse_cons, List.append_assoc, hhash]
          rfl

/-- A replay stops short only on a panic: the pending transactions of its
order up to the one that panicked were sifted, and that one's transfer
panics on the overlay they left. -/
theorem replay_error {base : AccountLookup} {entries : List (Digest × PendingEntry)} :
    ∀ (order : List Digest) (r : Replay) {e : LedgerError} {r' : Replay},
      replay base entries order r = .error (e, r') →
      ∃ pre t rest kept evicted, order.filterMap (entryTx entries) = pre ++ t :: rest ∧
        Sieve base r.shadows pre kept evicted r'.shadows ∧
        t.tx.transfer (r'.shadows.lookup base) = .error e ∧ e.isPanic = true := by
  intro order
  induction order with
  | nil =>
    intro r e r' h
    cases h
  | cons h rest ih =>
    intro r e r' hrun
    unfold replay at hrun
    cases hfind : entries.find? (·.1 == h) with
    | none =>
      rw [hfind] at hrun
      have hnone : entryTx entries h = none := by simp [entryTx, hfind]
      rw [List.filterMap_cons_none hnone]
      exact ih r hrun
    | some en =>
      rw [hfind] at hrun
      have hsome : entryTx entries h = some en.2.tx := by simp [entryTx, hfind]
      rw [List.filterMap_cons_some hsome]
      simp only [Option.map_some] at hrun
      cases htr : en.2.tx.tx.transfer (r.shadows.lookup base) with
      | ok p =>
        rw [htr] at hrun
        obtain ⟨pre, t, rest', kept, evicted, hsplit, hsieve, hfails, hpanic⟩ := ih _ hrun
        exact ⟨en.2.tx :: pre, t, rest', en.2.tx :: kept, evicted, by rw [hsplit]; rfl,
          .keep htr hsieve, hfails, hpanic⟩
      | error err =>
        rw [htr] at hrun
        dsimp only at hrun
        cases hp : err.isPanic with
        | true =>
          rw [hp] at hrun
          cases hrun
          exact ⟨[], en.2.tx, _, [], [], rfl, .nil _, htr, hp⟩
        | false =>
          rw [hp] at hrun
          obtain ⟨pre, t, rest', kept, evicted, hsplit, hsieve, hfails, hpanic⟩ := ih _ hrun
          exact ⟨en.2.tx :: pre, t, rest', kept, en.2.tx :: evicted, by rw [hsplit]; rfl,
            .evict htr hp hsieve, hfails, hpanic⟩

/-- A replay stops at a pending transaction whose transfer panics, with the
replay state it reached. -/
theorem replay_cons_panic {base : AccountLookup} {entries : List (Digest × PendingEntry)} {h : Digest}
    {rest : List Digest} {r : Replay} {e : PendingEntry} {err : LedgerError}
    (hfind : (entries.find? (·.1 == h)).map (·.2) = some e)
    (hfail : e.tx.tx.transfer (r.shadows.lookup base) = .error err) (hp : err.isPanic = true) :
    replay base entries (h :: rest) r = .error (err, r) := by
  rw [replay, hfind]
  dsimp only
  rw [hfail]
  dsimp only
  rw [hp]
  rfl

end Pool

end PowChain
