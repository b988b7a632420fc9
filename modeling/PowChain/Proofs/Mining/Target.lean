import PowChain.Mining.Search
import PowChain.Proofs.Bytes.Lists
import PowChain.Proofs.Account.AddressText

/-!
# The proof-of-work rule

A hash meets difficulty `bits` when it has at least `bits` leading zero bits.
Read as a big-endian number, that is the rule `hash < 2 ^ (256 - bits)`:

* `Target.le_leadingZeroBitsOf_iff` — counting the zero bytes and then the
  zeros of the first non-zero byte reaches `k` exactly when the number the
  bytes write is below `2 ^ (8n - k)`; the count of one byte is read off a
  table of all 256 bytes (`byteLeadingZeros_table`);
* `Target.target_eq_ofNatBE` — the target, built by setting one bit of one
  byte, is the 32-byte big-endian form of `2 ^ (256 - bits)`;
* `Bytes.compare_lt_iff` — byte strings of one length compare as the numbers
  they write, so meeting the difficulty is being below the target;
* `Target.work_rule` — the rule in these three forms, and header validation.
-/

namespace PowChain

/-! ## Big-endian numbers -/

/-- A number of `B`-sized units plus less than one unit is below `c` units
exactly when its units are fewer than `c`. -/
theorem Nat.mul_add_lt_mul_iff {b c v B : Nat} (hv : v < B) : b * B + v < c * B ↔ b < c := by
  constructor
  · intro h
    by_contra hcb
    have : c * B ≤ b * B := Nat.mul_le_mul_right B (Nat.le_of_not_lt hcb)
    omega
  · intro h
    calc b * B + v < b * B + B := by omega
      _ = (b + 1) * B := by ring
      _ ≤ c * B := Nat.mul_le_mul_right B h

namespace Bytes

/-- The number that bytes write, most significant first. -/
def beValue (l : List UInt8) : Nat := l.foldl (fun acc x => acc * 256 + x.toNat) 0

theorem toNatBE_eq_beValue (b : ByteArray) : toNatBE b = beValue b.toList := rfl

theorem pow_256 (n : Nat) : 256 ^ n = 2 ^ (8 * n) := by
  rw [pow_mul]
  norm_num

/-- A running value is shifted past every byte that follows it. -/
theorem foldl_be_eq (l : List UInt8) (acc : Nat) :
    l.foldl (fun acc x => acc * 256 + x.toNat) acc = acc * 256 ^ l.length + beValue l := by
  induction l generalizing acc with
  | nil => simp [beValue]
  | cons x l ih =>
    rw [beValue, List.foldl_cons, List.foldl_cons, ih, ih, List.length_cons, pow_succ]
    ring

theorem beValue_cons (x : UInt8) (l : List UInt8) :
    beValue (x :: l) = x.toNat * 256 ^ l.length + beValue l := by
  rw [beValue, List.foldl_cons, foldl_be_eq, zero_mul, zero_add]

theorem beValue_lt (l : List UInt8) : beValue l < 256 ^ l.length := by
  simpa [beValue] using Base58.foldl_be_lt l 0

theorem toList_set! (b : ByteArray) (i : Nat) (v : UInt8) : (b.set! i v).toList = b.toList.set i v := by
  rw [toList_eq_data, toList_eq_data]
  simp [ByteArray.set!, Array.set!]

theorem toList_replicate (n : Nat) (x : UInt8) : (replicate n x).toList = List.replicate n x := by
  simp [toList_eq_data, replicate]

/-- The big-endian form of `n` in `w` bytes writes `n` less its bytes beyond
the `w`-th. -/
theorem beValue_ofNatBE (n w : Nat) : beValue (ofNatBE n w).toList = n % 256 ^ w := by
  induction w with
  | zero => simp [ofNatBE, beValue, Nat.mod_one]
  | succ w ih =>
    -- the most significant byte comes first
    have hl : (ofNatBE n (w + 1)).toList = (n / 256 ^ w % 256).toUInt8 :: (ofNatBE n w).toList := by
      simp [ofNatBE, List.range_succ]
    have hbyte : (n / 256 ^ w % 256).toUInt8.toNat = n / 256 ^ w % 256 := by
      simp [Nat.mod_eq_of_lt (Nat.mod_lt _ (by norm_num : 0 < 256))]
    rw [hl, beValue_cons, ih, length_toList, size_ofNatBE, hbyte, Nat.mod_pow_succ]
    ring

/-- Strings of one length compare as the numbers they write: the first byte
that differs decides, since what follows it is worth less than one unit of
it. -/
theorem compare_lt_iff {l₁ l₂ : List UInt8} (h : l₁.length = l₂.length) :
    Ord.compare l₁ l₂ = .lt ↔ beValue l₁ < beValue l₂ := by
  induction l₁ generalizing l₂ with
  | nil =>
    obtain rfl : l₂ = [] := List.eq_nil_of_length_eq_zero h.symm
    simp [beValue]
  | cons a as ih =>
    cases l₂ with
    | nil => simp at h
    | cons b bs =>
      have hlen : as.length = bs.length := by simpa using h
      have has := beValue_lt as
      have hbs := beValue_lt bs
      rw [hlen] at has
      rw [List.compare_cons_cons, beValue_cons, beValue_cons, hlen]
      rcases Nat.lt_trichotomy a.toNat b.toNat with hab | hab | hab
      · have hlt := (Nat.mul_add_lt_mul_iff has).mpr hab
        simp only [Std.compare_eq_lt.mpr (UInt8.lt_iff_toNat_lt.mpr hab), Ordering.lt_then, true_iff]
        omega
      · obtain rfl := UInt8.toNat_inj.mp hab
        simp only [Std.compare_self, Ordering.eq_then, ih hlen]
        omega
      · have hlt := (Nat.mul_add_lt_mul_iff hbs).mpr hab
        simp only [Std.compare_eq_gt.mpr (UInt8.lt_iff_toNat_lt.mpr hab), Ordering.gt_then,
          reduceCtorEq, false_iff]
        omega

end Bytes

/-! ## Leading zero bits -/

namespace Target

/-- Every byte, read off: at most eight leading zeros, and at least `k` of
them exactly when the byte is below `2 ^ (8 - k)`. -/
theorem byteLeadingZeros_table :
    ∀ n < 256, byteLeadingZeros n.toUInt8 ≤ 8 ∧
      ∀ k ≤ 8, (k ≤ byteLeadingZeros n.toUInt8 ↔ n < 2 ^ (8 - k)) := by
  decide +kernel

theorem le_byteLeadingZeros_iff (b : UInt8) (k : Nat) :
    k ≤ byteLeadingZeros b ↔ k ≤ 8 ∧ b.toNat < 2 ^ (8 - k) := by
  obtain ⟨hle, hrow⟩ := byteLeadingZeros_table b.toNat b.toNat_lt
  have hb : b.toNat.toUInt8 = b := UInt8.ofNat_toNat
  rw [hb] at hle hrow
  by_cases hk : k ≤ 8
  · rw [hrow k hk]
    exact ⟨fun h => ⟨hk, h⟩, fun h => h.2⟩
  · exact ⟨fun h => absurd (h.trans hle) hk, fun h => absurd h.1 hk⟩

/-- At least `k` leading zero bits in `n` bytes exactly when `k ≤ 8n` and the
number they write is below `2 ^ (8n - k)`.  The induction is on the bytes: a
zero byte adds eight zeros and nothing to the number, and the first non-zero
byte ends the count. -/
theorem le_leadingZeroBitsOf_iff (l : List UInt8) (k : Nat) :
    k ≤ leadingZeroBitsOf l ↔ k ≤ 8 * l.length ∧ Bytes.beValue l < 2 ^ (8 * l.length - k) := by
  induction l generalizing k with
  | nil => simp [leadingZeroBitsOf, Bytes.beValue]
  | cons b r ih =>
    have hr := Bytes.beValue_lt r
    rw [Bytes.pow_256] at hr
    rw [Bytes.beValue_cons, Bytes.pow_256, List.length_cons]
    by_cases hb : b = 0
    · subst hb
      simp only [leadingZeroBitsOf, beq_self_eq_true, if_true, UInt8.toNat_zero,
        zero_mul, zero_add]
      by_cases hk : k ≤ 8
      · have hpow : 2 ^ (8 * r.length) ≤ 2 ^ (8 * (r.length + 1) - k) :=
          Nat.pow_le_pow_right (by norm_num) (by omega)
        exact ⟨fun _ => ⟨by omega, by omega⟩, fun _ => by omega⟩
      · -- past the zero byte, `k - 8` zeros are left to find in the rest
        have he : 8 * (r.length + 1) - k = 8 * r.length - (k - 8) := by omega
        rw [he]
        constructor
        · intro h
          obtain ⟨h₁, h₂⟩ := (ih (k - 8)).mp (by omega)
          exact ⟨by omega, h₂⟩
        · intro h
          have := (ih (k - 8)).mpr ⟨by omega, h.2⟩
          omega
    · have hpos : 0 < b.toNat := by
        rcases Nat.eq_zero_or_pos b.toNat with h | h
        · exact absurd (UInt8.toNat_inj.mp (by simpa using h)) hb
        · exact h
      simp only [leadingZeroBitsOf, beq_iff_eq, hb, if_false]
      rw [le_byteLeadingZeros_iff]
      by_cases hk : k ≤ 8
      · have hsplit : 2 ^ (8 * (r.length + 1) - k) = 2 ^ (8 - k) * 2 ^ (8 * r.length) := by
          rw [← pow_add]
          congr 1
          omega
        rw [hsplit, Nat.mul_add_lt_mul_iff hr]
        exact ⟨fun h => ⟨by omega, h.2⟩, fun h => ⟨hk, h.2⟩⟩
      · -- a non-zero first byte already writes more than `2 ^ (8n - k)`
        have h₁ : 2 ^ (8 * (r.length + 1) - k) ≤ 2 ^ (8 * r.length) :=
          Nat.pow_le_pow_right (by norm_num) (by omega)
        have h₂ : 2 ^ (8 * r.length) ≤ b.toNat * 2 ^ (8 * r.length) := Nat.le_mul_of_pos_left _ hpos
        exact ⟨fun h => absurd h.1 hk, fun h => by omega⟩

/-- A digest meets difficulty `bits` exactly when `bits ≤ 256` and its
big-endian number is below `2 ^ (256 - bits)`. -/
theorem meets_iff_lt (d : Digest) (bits : Nat) :
    meets d bits = true ↔ bits ≤ 256 ∧ Bytes.toNatBE d.bytes < 2 ^ (256 - bits) := by
  have hlen : d.bytes.toList.length = 32 := by rw [Bytes.length_toList, d.size_eq]
  rw [meets, decide_eq_true_iff, ge_iff_le, leadingZeroBits, le_leadingZeroBitsOf_iff, hlen,
    Bytes.toNatBE_eq_beValue]

/-! ## The target -/

/-- Byte `m` from the end of `2 ^ e`, for `e < 256`: the bit `e % 8` in byte
`e / 8`, and nothing in any other. -/
theorem pow_div_pow_256_mod {e m : Nat} :
    2 ^ e / 256 ^ m % 256 = if m = e / 8 then 2 ^ (e % 8) else 0 := by
  rw [Bytes.pow_256]
  by_cases hle : 8 * m ≤ e
  · rw [Nat.pow_div hle (by norm_num)]
    by_cases hm : m = e / 8
    · rw [if_pos hm, show e - 8 * m = e % 8 by omega]
      have hlt : 2 ^ (e % 8) < 2 ^ 8 := Nat.pow_lt_pow_right (by norm_num) (Nat.mod_lt _ (by norm_num))
      exact Nat.mod_eq_of_lt (by simpa using hlt)
    · -- a byte below the set bit's: whole bytes of the power remain above it
      rw [if_neg hm]
      exact Nat.mod_eq_zero_of_dvd (by simpa using Nat.pow_dvd_pow 2 (show 8 ≤ e - 8 * m by omega))
  · rw [if_neg (by omega), Nat.div_eq_of_lt (Nat.pow_lt_pow_right (by norm_num) (by omega)),
      Nat.zero_mod]

/-- The target's one set bit: `1 <<< (e % 8)` as a byte is `2 ^ (e % 8)`. -/
theorem one_shiftLeft_mod (e : Nat) : (1 : UInt8) <<< (e % 8).toUInt8 = (2 ^ (e % 8)).toUInt8 := by
  have hlt : 2 ^ (e % 8) < 256 := by
    have := Nat.pow_lt_pow_right (show 1 < 2 by norm_num) (Nat.mod_lt e (show 0 < 8 by norm_num))
    simpa using this
  apply UInt8.toNat_inj.mp
  rw [UInt8.toNat_shiftLeft]
  simp [Nat.one_shiftLeft, Nat.mod_eq_of_lt hlt, Nat.mod_eq_of_lt (Nat.mod_lt e (show 0 < 8 by norm_num))]

/-- For a difficulty from 1 to 256, the target is the 32-byte big-endian form
of `2 ^ (256 - bits)`: byte `j` holds the bit when `31 - j` is the number of
whole bytes below it. -/
theorem target_eq_ofNatBE {bits : Nat} (h0 : 0 < bits) (h256 : bits ≤ 256) :
    target bits = some (Bytes.ofNatBE (2 ^ (256 - bits)) 32) := by
  have hguard : ¬ (bits == 0 || bits > maxBits) = true := by
    simp [maxBits]
    omega
  rw [target, if_neg hguard, Option.some.injEq]
  apply Bytes.toList_inj.mp
  rw [Bytes.toList_set!, Bytes.toList_replicate]
  apply List.ext_getElem
  · simp
  · intro j hj₁ hj₂
    have hj : j < 32 := by simpa using hj₁
    rw [List.getElem_set, List.getElem_replicate]
    simp only [Bytes.ofNatBE, Bytes.toList_ofList, List.getElem_map, List.getElem_reverse,
      List.getElem_range, List.length_range, Nat.pow_eq]
    rw [show 32 - 1 - j = 31 - j by omega, pow_div_pow_256_mod, one_shiftLeft_mod]
    by_cases hj' : 31 - j = (256 - bits) / 8
    · rw [if_pos hj', if_pos (by omega)]
    · rw [if_neg hj', if_neg (by omega)]
      rfl

/-- The test's difficulty 12: byte 1 holds `0x10`, every other byte zero. -/
example : target 12 = some (Bytes.ofList (0 :: 0x10 :: List.replicate 30 0)) := by decide

/-! ## The rule -/

/-- The proof-of-work rule, three ways.  A digest meets difficulty `bits`
exactly when `bits ≤ 256` and its big-endian number is below
`2 ^ (256 - bits)`, so no digest meets a difficulty above 256.  For a
difficulty from 1 to 256 the target is the big-endian form of that bound, and
meeting the difficulty is comparing below the target byte by byte.
Validating a header applies the rule to its recomputed hash. -/
theorem work_rule (d : Digest) (bits : Nat) :
    (meets d bits = true ↔ bits ≤ 256 ∧ Bytes.toNatBE d.bytes < 2 ^ (256 - bits)) ∧
    (0 < bits → bits ≤ 256 →
      target bits = some (Bytes.ofNatBE (2 ^ (256 - bits)) 32) ∧
      Bytes.toNatBE (Bytes.ofNatBE (2 ^ (256 - bits)) 32) = 2 ^ (256 - bits) ∧
      (meets d bits = true ↔ Bytes.compare d.bytes (Bytes.ofNatBE (2 ^ (256 - bits)) 32) = .lt)) ∧
    ∀ h : Header, Mining.validate h bits = true ↔
      bits ≤ 256 ∧ Bytes.toNatBE h.computeHash.bytes < 2 ^ (256 - bits) := by
  refine ⟨meets_iff_lt d bits, fun h0 h256 => ?_, fun h => meets_iff_lt h.computeHash bits⟩
  have hlt : 2 ^ (256 - bits) < 256 ^ 32 := by
    rw [Bytes.pow_256]
    exact Nat.pow_lt_pow_right (by norm_num) (by omega)
  have hvalue : Bytes.toNatBE (Bytes.ofNatBE (2 ^ (256 - bits)) 32) = 2 ^ (256 - bits) := by
    rw [Bytes.toNatBE_eq_beValue, Bytes.beValue_ofNatBE, Nat.mod_eq_of_lt hlt]
  refine ⟨target_eq_ofNatBE h0 h256, hvalue, ?_⟩
  -- both are 32 bytes long, so they compare as the numbers they write
  have hlen : d.bytes.toList.length = (Bytes.ofNatBE (2 ^ (256 - bits)) 32).toList.length := by
    simp [d.size_eq]
  rw [meets_iff_lt, Bytes.compare, Bytes.compare_lt_iff hlen, ← Bytes.toNatBE_eq_beValue,
    ← Bytes.toNatBE_eq_beValue, hvalue]
  exact ⟨fun h => h.2, fun h => ⟨h256, h⟩⟩

/-- At difficulty 12 the zero digest is below the target, and meets the
difficulty. -/
theorem work_rule_at_twelve :
    0 < 12 ∧ 12 ≤ 256 ∧
      (meets Digest.zero 12 = true ↔ Bytes.compare Digest.zero.bytes (Bytes.ofNatBE (2 ^ (256 - 12)) 32) = .lt) :=
  ⟨by decide, by decide, ((work_rule Digest.zero 12).2.1 (by decide) (by decide)).2.2⟩

end Target
end PowChain
