import PowChain.Proofs.Mining.Target
import PowChain.Proofs.Ledger.Steps

/-!
# What mining finds

A search hashes the header's seal prefix followed by the little-endian word of
a nonce; that is the header's own preimage with that nonce, so whatever a
search answers is a genuine seal of the header (`search_ok`,
`hashAt_eq_computeHash`).

On the calling thread, with nothing to stop it, mining tries every nonce from
zero in turn (`search_calm_step`).  It answers the least nonce that seals the
header (`search_calm_of_first`); when no nonce does, the count of attempts
overflows as the last nonce fails (`search_calm_none`), before the search
could report the nonce space exhausted.  Parallel mining answers the first
seal some worker found, whatever the schedule (`collect_ok`), so it too
answers only genuine seals.

* `Mining.mining_seals_least_nonce` — the least seal, or the overflow when
  there is none; genuine seals from any number of workers; a mined block is
  its block with that seal in its header, and it passes validation.
-/

namespace PowChain
namespace Mining

/-- The hash of the seal prefix followed by the nonce `n`. -/
def hashAt (pre : ByteArray) (n : Nat) : Digest := sha256 (pre ++ Bytes.ofNatLE n 8)

/-- Nonce `n` seals header `h` at difficulty `bits`. -/
def Seals (h : Header) (bits : Nat) (n : UInt64) : Prop :=
  Target.meets ({ h with nonce := n } : Header).computeHash bits = true

/-- `s` is the least seal of `h`: its nonce seals the header, its hash is the
header's hash with that nonce, and no smaller nonce seals the header. -/
structure LeastSeal (h : Header) (bits : Nat) (s : Seal) : Prop where
  seals : Seals h bits s.nonce
  hash : s.hash = ({ h with nonce := s.nonce } : Header).computeHash
  least : ∀ m : UInt64, m < s.nonce → ¬ Seals h bits m

/-- The seal prefix leaves out the nonce and the hash: hashing it with a nonce
is hashing the header with that nonce. -/
theorem hashAt_eq_computeHash (h : Header) (n : UInt64) :
    hashAt h.sealPrefix n.toNat = ({ h with nonce := n } : Header).computeHash := rfl

theorem seals_iff (h : Header) (bits : Nat) (n : UInt64) :
    Seals h bits n ↔ Target.meets (hashAt h.sealPrefix n.toNat) bits = true := Iff.rfl

/-! ## One search -/

/-- A search that starts within the nonces answers a nonce within them, with
the hash of the prefix and that nonce, which meets the difficulty. -/
theorem search_ok {pre : ByteArray} {bits stride nonce attempts : Nat} {w : Watch} {s : Seal}
    (hn : nonce < nonceSpace) (h : search pre bits stride w nonce attempts = .ok s) :
    s.nonce.toNat < nonceSpace ∧ s.hash = hashAt pre s.nonce.toNat ∧ Target.meets s.hash bits = true := by
  fun_induction search pre bits stride w nonce attempts with
  | case1 => cases h
  | case2 => cases h
  | case3 nonce attempts _ _ d hmeets =>
    cases h
    have hnat : nonce.toUInt64.toNat = nonce := UInt64.toNat_ofNat_of_lt' hn
    refine ⟨?_, ?_, hmeets⟩
    · show nonce.toUInt64.toNat < nonceSpace
      rw [hnat]
      exact hn
    · show d = hashAt pre nonce.toUInt64.toNat
      rw [hnat]
      rfl
  | case4 => cases h
  | case5 => cases h
  | case6 nonce attempts _ _ _ _ _ hnext ih => exact ih (by omega) h

/-- A search of stride at most one whose count of attempts is not behind its
nonce never reports the nonces exhausted: the count overflows first. -/
theorem search_ne_exhausted {pre : ByteArray} {bits stride nonce attempts : Nat} {w : Watch}
    (hstride : stride ≤ 1) (hcount : nonce ≤ attempts) :
    search pre bits stride w nonce attempts ≠ .error (.invalidBlock "Nonce space exhausted") := by
  fun_induction search pre bits stride w nonce attempts with
  | case1 => simp
  | case2 => simp
  | case3 => simp
  | case4 => simp
  | case5 nonce attempts _ _ _ _ hroom hexhausted => omega
  | case6 nonce attempts _ _ _ _ _ _ ih => exact ih (by omega)

/-- With nothing to stop it, a search of stride one whose attempts count its
nonces tries the nonce, and else goes on to the next one unless the count of
attempts would overflow. -/
theorem search_calm_step (pre : ByteArray) (bits n : Nat) :
    search pre bits 1 Watch.calm n n =
      if Target.meets (hashAt pre n) bits then .ok ⟨n.toUInt64, hashAt pre n⟩
      else if nonceSpace ≤ n + 1 then .error (.arithmeticOverflow "add")
      else search pre bits 1 Watch.calm (n + 1) (n + 1) := by
  rw [search]
  simp only [Watch.calm, Bool.false_eq_true, if_false, Bool.and_false]
  -- the nonce and the count of attempts run out together, the count first
  by_cases hmeets : Target.meets (hashAt pre n) bits = true
  · simp only [hashAt] at hmeets ⊢
    simp only [hmeets, if_true]
  · simp only [hashAt] at hmeets ⊢
    by_cases hlast : nonceSpace ≤ n + 1
    · simp only [hmeets, hlast, Bool.false_eq_true, if_false, if_true]
    · simp only [hmeets, hlast, Bool.false_eq_true, if_false]

/-- A calm search from `n` answers the first nonce from `n` on whose hash
meets the difficulty.  The induction is on how many nonces lie before it. -/
theorem search_calm_of_first {pre : ByteArray} {bits k : Nat} (hk : k < nonceSpace)
    (hmeets : Target.meets (hashAt pre k) bits = true) :
    ∀ n, n ≤ k → (∀ m, n ≤ m → m < k → Target.meets (hashAt pre m) bits = false) →
      search pre bits 1 Watch.calm n n = .ok ⟨k.toUInt64, hashAt pre k⟩ := by
  intro n hn hbefore
  induction hgap : k - n generalizing n with
  | zero =>
    obtain rfl : n = k := by omega
    rw [search_calm_step, if_pos hmeets]
  | succ gap ih =>
    have hfail := hbefore n le_rfl (by omega)
    rw [search_calm_step, hfail, if_neg Bool.false_ne_true, if_neg (by omega)]
    exact ih (n + 1) (by omega) (fun m hm hmk => hbefore m (by omega) hmk) (by omega)

/-- A calm search from `n` through nonces none of which meets the difficulty
fails when the last one fails: the count of attempts overflows. -/
theorem search_calm_none {pre : ByteArray} {bits : Nat}
    (hnone : ∀ m, m < nonceSpace → Target.meets (hashAt pre m) bits = false) :
    ∀ n, n < nonceSpace → search pre bits 1 Watch.calm n n = .error (.arithmeticOverflow "add") := by
  intro n hn
  induction hgap : nonceSpace - n generalizing n with
  | zero => omega
  | succ gap ih =>
    rw [search_calm_step, hnone n hn, if_neg Bool.false_ne_true]
    by_cases hlast : nonceSpace ≤ n + 1
    · rw [if_pos hlast]
    · rw [if_neg hlast]
      exact ih (n + 1) (by omega) (by omega)

/-! ## Mining on the calling thread -/

/-- A seal is the least one exactly when its nonce is the first, counted in
the natural numbers, whose hash meets the difficulty. -/
theorem leastSeal_iff {h : Header} {bits : Nat} {s : Seal} :
    LeastSeal h bits s ↔ Target.meets (hashAt h.sealPrefix s.nonce.toNat) bits = true ∧
      s.hash = hashAt h.sealPrefix s.nonce.toNat ∧
      ∀ m, m < s.nonce.toNat → Target.meets (hashAt h.sealPrefix m) bits = false := by
  constructor
  · rintro ⟨hseals, hhash, hleast⟩
    refine ⟨hseals, hhash, fun m hm => ?_⟩
    have hm' : m < nonceSpace := hm.trans s.nonce.toNat_lt
    have hmnat : m.toUInt64.toNat = m := UInt64.toNat_ofNat_of_lt' hm'
    have hnot := hleast m.toUInt64 (UInt64.lt_iff_toNat_lt.mpr (by rw [hmnat]; exact hm))
    rw [seals_iff, hmnat] at hnot
    simpa using hnot
  · rintro ⟨hmeets, hhash, hfirst⟩
    refine ⟨hmeets, hhash, fun m hm hseals => ?_⟩
    have hfail := hfirst m.toNat (UInt64.lt_iff_toNat_lt.mp hm)
    rw [seals_iff] at hseals
    rw [hseals] at hfail
    cases hfail

/-- Mining with nothing to stop it answers the least seal, if the header has
one. -/
theorem mine_calm_eq_ok_iff (h : Header) (bits : Nat) (s : Seal) :
    mine h bits Watch.calm = .ok s ↔ LeastSeal h bits s := by
  rw [leastSeal_iff]
  constructor
  · intro hmine
    by_cases hsome : ∃ k, k < nonceSpace ∧ Target.meets (hashAt h.sealPrefix k) bits = true
    · -- the first nonce that seals the header is the answer
      classical
      let k := Nat.find hsome
      obtain ⟨hk, hmeets⟩ : k < nonceSpace ∧ Target.meets (hashAt h.sealPrefix k) bits = true :=
        Nat.find_spec hsome
      have hbefore : ∀ m, 0 ≤ m → m < k → Target.meets (hashAt h.sealPrefix m) bits = false :=
        fun m _ hm => by
          have := Nat.find_min hsome hm
          simp only [not_and, Bool.not_eq_true] at this
          exact this (hm.trans hk)
      rw [mine, search_calm_of_first hk hmeets 0 (Nat.zero_le _) hbefore] at hmine
      cases hmine
      have hnat : k.toUInt64.toNat = k := UInt64.toNat_ofNat_of_lt' hk
      refine ⟨by rw [hnat]; exact hmeets, by rw [hnat], fun m hm => hbefore m (Nat.zero_le _) ?_⟩
      rw [hnat] at hm
      exact hm
    · have hnone : ∀ m, m < nonceSpace → Target.meets (hashAt h.sealPrefix m) bits = false :=
        fun m hm => by simpa using fun hmeets => hsome ⟨m, hm, hmeets⟩
      rw [mine, search_calm_none hnone 0 (by decide)] at hmine
      cases hmine
  · rintro ⟨hmeets, hhash, hfirst⟩
    have hsearch : search h.sealPrefix bits 1 Watch.calm 0 0 = .ok ⟨s.nonce.toNat.toUInt64, _⟩ :=
      search_calm_of_first s.nonce.toNat_lt hmeets 0 (Nat.zero_le _) fun m _ hm => hfirst m hm
    have hnat : s.nonce.toNat.toUInt64 = s.nonce := UInt64.ofNat_toNat
    rw [mine, hsearch, hnat, ← hhash]

/-- Mining with nothing to stop it, on a header no nonce seals, overflows its
count of attempts. -/
theorem mine_calm_none {h : Header} {bits : Nat} (hnone : ∀ n : UInt64, ¬ Seals h bits n) :
    mine h bits Watch.calm = .error (.arithmeticOverflow "add") := by
  refine search_calm_none (fun m hm => ?_) 0 (by decide)
  have hmnat : m.toUInt64.toNat = m := UInt64.toNat_ofNat_of_lt' hm
  have hnot := hnone m.toUInt64
  rw [seals_iff, hmnat] at hnot
  simpa using hnot

/-- Mining on the calling thread never reports the nonces exhausted, however
it is stopped. -/
theorem mine_ne_exhausted (h : Header) (bits : Nat) (w : Watch) :
    mine h bits w ≠ .error (.invalidBlock "Nonce space exhausted") :=
  search_ne_exhausted le_rfl le_rfl

/-- No digest meets a difficulty above 256. -/
theorem not_seals_of_lt {h : Header} {bits : Nat} (hbits : 256 < bits) (n : UInt64) : ¬ Seals h bits n := by
  rw [Seals, Target.meets_iff_lt]
  omega

/-! ## Parallel mining -/

/-- The combined answer of the workers, when it is a seal, is some worker's
seal. -/
theorem collect_ok {rs : List (Result Seal)} {timedOut : Bool} {s : Seal}
    (h : collect rs timedOut = .ok s) : (.ok s : Result Seal) ∈ rs := by
  induction rs generalizing timedOut with
  | nil => cases timedOut <;> cases h
  | cons r rs ih =>
    -- a seal is answered at once; a stop or a timeout passes to the rest
    rcases r with e | s'
    · cases e <;> first
        | exact List.mem_cons_of_mem _ (ih h)
        | simp [collect] at h
    · simp only [collect, Except.ok.injEq] at h
      rw [h]
      exact List.mem_cons_self

/-- Whatever the number of workers and however they are scheduled, a seal
from parallel mining seals the header, and its hash is the header's hash with
its nonce. -/
theorem mineParallel_ok {h : Header} {bits : Nat} {threads : UInt64} {watch : Nat → Watch} {s : Seal}
    (hmine : mineParallel h bits threads watch = .ok s) :
    Seals h bits s.nonce ∧ s.hash = ({ h with nonce := s.nonce } : Header).computeHash := by
  have hgenuine : ∀ {start stride attempts : Nat} {w : Watch}, start < nonceSpace →
      search h.sealPrefix bits stride w start attempts = .ok s →
        Seals h bits s.nonce ∧ s.hash = ({ h with nonce := s.nonce } : Header).computeHash :=
    fun hstart hsearch => by
      obtain ⟨-, hhash, hmeets⟩ := search_ok hstart hsearch
      rw [← hashAt_eq_computeHash, ← hhash]
      exact ⟨by rw [seals_iff, ← hhash]; exact hmeets, rfl⟩
  unfold mineParallel at hmine
  split at hmine
  · exact hgenuine (by decide) hmine
  · -- some worker's search found the seal, and each worker starts below the stride
    obtain ⟨j, hj, hsearch⟩ := List.mem_map.mp (collect_ok hmine)
    have hlt : j < nonceSpace := (List.mem_range.mp hj).trans threads.toNat_lt
    exact hgenuine hlt hsearch

/-- A block mined on any number of workers is its block with a seal's nonce
and hash in its header; its hash is its own and meets the difficulty. -/
theorem mineBlockWith_ok {b b' : Block} {bits : Nat} {threads : UInt64} {watch : Nat → Watch}
    (h : mineBlockWith b bits threads watch = .ok b') :
    b'.transactions = b.transactions ∧
      (∃ s : Seal, b'.header = { b.header with nonce := s.nonce, hash := s.hash }) ∧
      b'.header.computeHash = b'.hash ∧ validate b'.header bits = true := by
  unfold mineBlockWith at h
  obtain ⟨s, hs, h⟩ := Except.bind_eq_ok.mp h
  cases h
  obtain ⟨hseals, hhash⟩ := mineParallel_ok hs
  -- the hash written into the header is the hash of the header with the nonce
  have hown : ({ b.header with nonce := s.nonce, hash := s.hash } : Header).computeHash = s.hash :=
    hhash.symm
  refine ⟨rfl, ⟨s, rfl⟩, hown, ?_⟩
  rw [validate, hown, hhash]
  exact hseals

/-! ## Mining, altogether -/

/-- What mining finds.  With nothing to stop it, mining on the calling thread
answers exactly the least seal; when no nonce seals the header it overflows
its count of attempts, and it never reports the nonces exhausted.  Parallel
mining, on any number of workers and under any schedule, answers only seals
of the header; and a mined block is its block with a seal's nonce and hash in
its header, which passes validation. -/
theorem mining_seals_least_nonce (h : Header) (bits : Nat) :
    (∀ s, mine h bits Watch.calm = .ok s ↔ LeastSeal h bits s) ∧
      ((∀ n : UInt64, ¬ Seals h bits n) → mine h bits Watch.calm = .error (.arithmeticOverflow "add")) ∧
      (∀ w, mine h bits w ≠ .error (.invalidBlock "Nonce space exhausted")) ∧
      (∀ threads watch s, mineParallel h bits threads watch = .ok s →
        Seals h bits s.nonce ∧ s.hash = ({ h with nonce := s.nonce } : Header).computeHash) ∧
      ∀ (txs : List SignedTx) threads watch b', mineBlockWith ⟨h, txs⟩ bits threads watch = .ok b' →
        b'.transactions = txs ∧ (∃ s : Seal, b'.header = { h with nonce := s.nonce, hash := s.hash }) ∧
          validate b'.header bits = true :=
  ⟨mine_calm_eq_ok_iff h bits, mine_calm_none, mine_ne_exhausted h bits,
    fun _ _ _ hmine => mineParallel_ok hmine,
    fun _ _ _ _ hmine => by
      obtain ⟨htxs, hsealed, -, hvalid⟩ := mineBlockWith_ok hmine
      exact ⟨htxs, hsealed, hvalid⟩⟩

/-- At difficulty 257 no nonce seals the zero header, and mining it
overflows. -/
theorem mining_seals_least_nonce_above_256 :
    (∀ n : UInt64, ¬ Seals Header.zero 257 n) ∧
      mine Header.zero 257 Watch.calm = .error (.arithmeticOverflow "add") :=
  ⟨not_seals_of_lt (by decide), (mining_seals_least_nonce Header.zero 257).2.1 (not_seals_of_lt (by decide))⟩

/-- Mining the zero header at difficulty 257 with nothing to stop it
overflows its count of attempts where the nonces would be exhausted. -/
theorem mine_overflows_above_256 :
    mine Header.zero 257 Watch.calm = .error (.arithmeticOverflow "add") ∧
      mine Header.zero 257 Watch.calm ≠ .error (.invalidBlock "Nonce space exhausted") :=
  ⟨mine_calm_none (not_seals_of_lt (by decide)), mine_ne_exhausted Header.zero 257 Watch.calm⟩

end Mining
end PowChain
