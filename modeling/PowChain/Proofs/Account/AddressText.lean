import PowChain.Tx.Wire
import PowChain.Proofs.Bytes.Lists

/-!
# Address texts

An address travels and is stored as base58 text: a `1` for each leading zero
byte of its twenty-five payload bytes (version, hash, checksum), then the
base-58 digits of the number the other bytes write.  This file proves that
the text reads back:

* `Base58.decode_encode` — decoding the base58 text of any bytes gives the
  bytes back;
* `Address.decodeChecked_encode`, `Address.encode_injective` — an address
  text reads back as its address, so different addresses have different
  texts, and different balance records;
* `Address.le_size_toUTF8_encode` — an address text takes at least
  twenty-four bytes, since the digits of a number cannot be fewer than its
  bytes allow, so no balance key is as short as a block key.
-/

namespace PowChain

namespace Base58

/-! ## Letters and digits -/

theorem letter_ascii : ∀ v < 58, (letter v).toNat ≤ 127 := by decide +kernel

theorem value?_letter : ∀ v < 58, value? (letter v) = some v := by decide +kernel

theorem letter_zero : letter 0 = '1' := by decide +kernel

theorem letter_ne_one {v : Nat} (hv : v < 58) (hpos : 0 < v) : letter v ≠ '1' := by
  intro h
  have h₁ := value?_letter v hv
  rw [h, ← letter_zero, value?_letter 0 (by omega)] at h₁
  cases h₁
  omega

theorem digits_zero : digits 0 = [] := by
  rw [digits]
  simp

theorem digits_of_pos {n : Nat} (h : 0 < n) : digits n = digits (n / 58) ++ [letter (n % 58)] := by
  rw [digits, if_neg (by omega)]

/-- Every digit is a letter of the alphabet. -/
theorem mem_alphabet_of_mem_digits (n : Nat) : ∀ c ∈ digits n, ∃ v < 58, c = letter v := by
  induction n using Nat.strong_induction_on with
  | _ n ih =>
    rcases Nat.eq_zero_or_pos n with rfl | hpos
    · simp [digits_zero]
    · intro c hc
      rw [digits_of_pos hpos, List.mem_append, List.mem_singleton] at hc
      rcases hc with hc | rfl
      · exact ih (n / 58) (by omega) c hc
      · exact ⟨n % 58, Nat.mod_lt _ (by omega), rfl⟩

theorem digits_ascii (n : Nat) : ∀ c ∈ digits n, c.toNat ≤ 127 := by
  intro c hc
  obtain ⟨v, hv, rfl⟩ := mem_alphabet_of_mem_digits n c hc
  exact letter_ascii v hv

theorem lt_pow_length_digits (n : Nat) : n < 58 ^ (digits n).length := by
  induction n using Nat.strong_induction_on with
  | _ n ih =>
    rcases Nat.eq_zero_or_pos n with rfl | hpos
    · simp [digits_zero]
    · rw [digits_of_pos hpos, List.length_append, List.length_singleton, pow_succ]
      have := ih (n / 58) (by omega)
      omega

/-- A number below `58 ^ k` has at most `k` digits. -/
theorem length_digits_le {n k : Nat} (h : n < 58 ^ k) : (digits n).length ≤ k := by
  induction n using Nat.strong_induction_on generalizing k with
  | _ n ih =>
    rcases Nat.eq_zero_or_pos n with rfl | hpos
    · simp [digits_zero]
    · cases k with
      | zero => simp at h; omega
      | succ k =>
        rw [digits_of_pos hpos, List.length_append, List.length_singleton]
        have hq : n / 58 < 58 ^ k := by
          rw [pow_succ] at h
          omega
        have := ih (n / 58) (by omega) hq
        omega

/-- The leading digit of a positive number is not zero, so its letter is not `1`. -/
theorem head?_digits_ne {n : Nat} (h : 0 < n) : (digits n).head? ≠ some '1' := by
  induction n using Nat.strong_induction_on with
  | _ n ih =>
    rw [digits_of_pos h]
    rcases Nat.eq_zero_or_pos (n / 58) with hq | hq
    · rw [hq, digits_zero, List.nil_append, List.head?_cons, ne_eq, Option.some.injEq]
      exact letter_ne_one (Nat.mod_lt _ (by omega)) (by omega)
    · have hne : digits (n / 58) ≠ [] := by
        intro he
        have hlt := lt_pow_length_digits (n / 58)
        rw [he] at hlt
        simp at hlt
        omega
      rw [List.head?_append_of_ne_nil _ hne]
      exact ih (n / 58) (by omega) hq

/-- The byte of an ASCII character is its code. -/
theorem toNat_toUInt8_ascii {c : Char} (h : c.toNat ≤ 127) : c.toNat.toUInt8.toNat = c.toNat := by
  rw [Nat.toUInt8_eq]
  have hsize : UInt8.size = 256 := rfl
  exact UInt8.toNat_ofNat_of_lt' (by omega)

/-- Reading the letters of `n` multiplies what was read so far by `58` per
letter and adds `n`. -/
theorem readNumber_digits (n : Nat) (rest : List UInt8) (i acc : Nat) :
    readNumber ((digits n).map (fun c => c.toNat.toUInt8) ++ rest) i acc =
      readNumber rest (i + (digits n).length) (acc * 58 ^ (digits n).length + n) := by
  induction n using Nat.strong_induction_on generalizing rest i acc with
  | _ n ih =>
    rcases Nat.eq_zero_or_pos n with rfl | hpos
    · simp [digits_zero]
    · have hr : n % 58 < 58 := Nat.mod_lt _ (by omega)
      have hascii := letter_ascii _ hr
      rw [digits_of_pos hpos, List.map_append, List.append_assoc, ih (n / 58) (by omega)]
      simp only [List.map_cons, List.map_nil, List.singleton_append, readNumber,
        toNat_toUInt8_ascii hascii]
      rw [if_neg (by omega), Char.ofNat_toNat, value?_letter _ hr]
      simp only [List.length_append, List.length_singleton]
      congr 1
      rw [pow_succ]
      have hdiv := Nat.div_add_mod n 58
      rw [Nat.add_mul, Nat.mul_assoc]
      omega

/-! ## Big-endian numbers -/

/-- A byte string with no leading zero byte. -/
def NoLeadingZero (r : List UInt8) : Prop := r.head? ≠ some 0

theorem mul_pow_le_foldl_be (l : List UInt8) (acc : Nat) :
    acc * 256 ^ l.length ≤ l.foldl (fun acc x => acc * 256 + x.toNat) acc := by
  induction l generalizing acc with
  | nil => simp
  | cons x l ih =>
    rw [List.foldl_cons, List.length_cons, pow_succ]
    calc acc * (256 ^ l.length * 256) = (acc * 256) * 256 ^ l.length := by ring
      _ ≤ (acc * 256 + x.toNat) * 256 ^ l.length := Nat.mul_le_mul_right _ (by omega)
      _ ≤ _ := ih _

theorem foldl_be_lt (l : List UInt8) (acc : Nat) :
    l.foldl (fun acc x => acc * 256 + x.toNat) acc < (acc + 1) * 256 ^ l.length := by
  induction l generalizing acc with
  | nil => simp
  | cons x l ih =>
    rw [List.foldl_cons, List.length_cons, pow_succ]
    have hx : x.toNat < 256 := x.toNat_lt
    calc _ < (acc * 256 + x.toNat + 1) * 256 ^ l.length := ih _
      _ ≤ ((acc + 1) * 256) * 256 ^ l.length := Nat.mul_le_mul_right _ (by omega)
      _ = _ := by ring

/-- A byte string of `k + 1` bytes with no leading zero writes a number of at
least `256 ^ k`. -/
theorem pow_le_foldl_be {x : UInt8} {r : List UInt8} (hx : NoLeadingZero (x :: r)) :
    256 ^ r.length ≤ (x :: r).foldl (fun acc x => acc * 256 + x.toNat) 0 := by
  have hx0 : x ≠ 0 := fun h => hx (by simp [h])
  have hpos : 1 ≤ x.toNat := by
    rcases Nat.eq_zero_or_pos x.toNat with h | h
    · exact absurd (UInt8.toNat_inj.mp (by simpa using h)) hx0
    · exact h
  rw [List.foldl_cons]
  calc 256 ^ r.length ≤ (0 * 256 + x.toNat) * 256 ^ r.length := by
        rw [Nat.zero_mul, Nat.zero_add]
        exact Nat.le_mul_of_pos_left _ hpos
    _ ≤ _ := mul_pow_le_foldl_be r _

/-- Writing the number of a byte string without leading zeros gives the
string back. -/
theorem natBytes_foldl (r : List UInt8) (hr : NoLeadingZero r) :
    natBytes (r.foldl (fun acc x => acc * 256 + x.toNat) 0) = r := by
  induction r using List.reverseRecOn with
  | nil => simp [natBytes]
  | append_singleton r x ih =>
    rw [List.foldl_append, List.foldl_cons, List.foldl_nil]
    have hpos : r.foldl (fun acc x => acc * 256 + x.toNat) 0 * 256 + x.toNat ≠ 0 := by
      -- the string is not empty and starts with a non-zero byte
      obtain ⟨y, t, hyt⟩ : ∃ y t, r ++ [x] = y :: t := by
        cases r with
        | nil => exact ⟨x, [], rfl⟩
        | cons y t => exact ⟨y, t ++ [x], rfl⟩
      have hle := pow_le_foldl_be (show NoLeadingZero (y :: t) from hyt ▸ hr)
      rw [← hyt, List.foldl_append, List.foldl_cons, List.foldl_nil] at hle
      have := Nat.one_le_two_pow.trans (Nat.pow_le_pow_left (by omega : 2 ≤ 256) t.length)
      omega
    have hx : x.toNat < 256 := x.toNat_lt
    rw [natBytes, if_neg hpos]
    have hdiv : (r.foldl (fun acc x => acc * 256 + x.toNat) 0 * 256 + x.toNat) / 256 =
        r.foldl (fun acc x => acc * 256 + x.toNat) 0 := by omega
    have hmod : (r.foldl (fun acc x => acc * 256 + x.toNat) 0 * 256 + x.toNat) % 256 = x.toNat := by
      omega
    rw [hdiv, hmod, Nat.toUInt8_eq, UInt8.ofNat_toNat]
    congr 1
    rcases List.eq_nil_or_concat' r with rfl | ⟨r', y, rfl⟩
    · simp [natBytes]
    · apply ih
      rw [NoLeadingZero, ← List.head?_append_of_ne_nil _ (by simp)]
      exact hr

/-! ## Encoding and decoding -/

theorem takeWhile_beq_eq_replicate (x : UInt8) (l : List UInt8) :
    l.takeWhile (· == x) = List.replicate (l.takeWhile (· == x)).length x :=
  List.eq_replicate_iff.mpr ⟨rfl, fun _ hb => by simpa using List.mem_takeWhile_imp hb⟩

theorem noLeadingZero_dropWhile (l : List UInt8) : NoLeadingZero (l.dropWhile (· == 0)) := by
  intro h
  have hnot := List.head?_dropWhile_not (· == 0) l
  rw [h] at hnot
  simp at hnot

/-- Bytes are their leading bytes equal to `x`, then the rest, which does not
start with `x`. -/
theorem eq_replicate_append_dropWhile (x : UInt8) (l : List UInt8) :
    l = List.replicate (l.takeWhile (· == x)).length x ++ l.dropWhile (· == x) := by
  rw [← takeWhile_beq_eq_replicate, List.takeWhile_append_dropWhile]

theorem drop_length_takeWhile (x : UInt8) (l : List UInt8) :
    l.drop (l.takeWhile (· == x)).length = l.dropWhile (· == x) := by
  have h := @List.takeWhile_append_dropWhile _ (· == x) l
  calc l.drop (l.takeWhile (· == x)).length
      = (l.takeWhile (· == x) ++ l.dropWhile (· == x)).drop (l.takeWhile (· == x)).length := by
        rw [h]
    _ = l.dropWhile (· == x) := List.drop_left' rfl

/-- The letters of a text in its UTF-8 form: a `1` is the byte 49. -/
theorem toUTF8_ones_digits (z n : Nat) :
    (String.ofList (List.replicate z '1' ++ digits n)).toUTF8.toList =
      List.replicate z 49 ++ (digits n).map fun c => c.toNat.toUInt8 := by
  rw [toUTF8_ofList_ascii, List.map_append, List.map_replicate]
  · rfl
  · intro c hc
    rcases List.mem_append.mp hc with hc | hc
    · rw [List.eq_of_mem_replicate hc]
      decide
    · exact digits_ascii n c hc

/-- The letters after the leading ones do not start with another `1`. -/
theorem takeWhile_digits (n : Nat) :
    ((digits n).map fun c => c.toNat.toUInt8).takeWhile (· == 49) = [] := by
  rcases Nat.eq_zero_or_pos n with rfl | hpos
  · simp [digits_zero]
  · obtain ⟨d, ds, hd⟩ : ∃ d ds, digits n = d :: ds := by
      cases h : digits n with
      | nil =>
        have := lt_pow_length_digits n
        rw [h] at this
        simp at this
        omega
      | cons d ds => exact ⟨d, ds, rfl⟩
    have hd1 : d ≠ '1' := by
      have := head?_digits_ne hpos
      rw [hd] at this
      simpa using this
    have hascii : d.toNat ≤ 127 := digits_ascii n d (by rw [hd]; exact List.mem_cons_self)
    rw [hd, List.map_cons, List.takeWhile_cons_of_neg]
    intro h49
    apply hd1
    have hbyte : d.toNat.toUInt8.toNat = 49 := by simpa using congrArg UInt8.toNat (beq_iff_eq.mp h49)
    rw [toNat_toUInt8_ascii hascii] at hbyte
    rw [← Char.ofNat_toNat d, hbyte]

/-- Decoding the text of some bytes gives the bytes back. -/
theorem decode_encode (b : ByteArray) : decode (encode b) = .ok b := by
  have hl := eq_replicate_append_dropWhile 0 b.toList
  set z := (b.toList.takeWhile (· == 0)).length with hz
  have hdrop : b.toList.drop z = b.toList.dropWhile (· == 0) := drop_length_takeWhile 0 b.toList
  set n := (b.toList.drop z).foldl (fun acc x => acc * 256 + x.toNat) 0 with hn
  have henc : encode b = String.ofList (List.replicate z '1' ++ digits n) := rfl
  have hones : ((List.replicate z 49 ++ (digits n).map fun (c : Char) => c.toNat.toUInt8).takeWhile
      (· == 49)).length = z := by
    rw [List.takeWhile_append_of_pos (by simp), takeWhile_digits]
    simp
  have hbytes : natBytes n = b.toList.dropWhile (· == 0) := by
    rw [hn, hdrop]
    exact natBytes_foldl _ (noLeadingZero_dropWhile b.toList)
  simp only [decode, henc, toUTF8_ones_digits, hones]
  rw [List.drop_left' (by simp), ← List.append_nil ((digits n).map _), readNumber_digits]
  simp only [readNumber, Nat.zero_mul, Nat.zero_add]
  show Except.ok (Bytes.ofList (List.replicate z 0 ++ natBytes n)) = Except.ok b
  rw [hbytes, ← hl]
  congr 1
  rw [← Bytes.toList_inj, Bytes.toList_ofList]

/-- A base58 text has one byte per leading zero byte and one per digit of the
number the rest writes. -/
theorem size_toUTF8_encode (b : ByteArray) :
    (encode b).toUTF8.size = (b.toList.takeWhile (· == 0)).length +
      (digits ((b.toList.dropWhile (· == 0)).foldl (fun acc x => acc * 256 + x.toNat) 0)).length := by
  have hdrop := drop_length_takeWhile 0 b.toList
  have henc : encode b = String.ofList (List.replicate (b.toList.takeWhile (· == 0)).length '1' ++
      digits ((b.toList.dropWhile (· == 0)).foldl (fun acc x => acc * 256 + x.toNat) 0)) := by
    rw [← hdrop]
    rfl
  rw [henc, ← Bytes.length_toList, toUTF8_ones_digits]
  simp

/-- A base58 text takes at most two bytes per byte it writes: a `1` per leading
zero, and at most two digits per other byte, since `256 < 58 ^ 2`. -/
theorem size_toUTF8_encode_le (b : ByteArray) : (encode b).toUTF8.size ≤ 2 * b.size := by
  have hl := eq_replicate_append_dropWhile 0 b.toList
  have hlen : b.toList.length = b.size := Bytes.length_toList b
  rw [size_toUTF8_encode]
  generalize (b.toList.takeWhile (· == 0)).length = z at hl ⊢
  generalize b.toList.dropWhile (· == 0) = r at hl ⊢
  have hzr : z + r.length = b.size := by
    rw [← hlen, hl, List.length_append, List.length_replicate]
  have hlt : r.foldl (fun acc x => acc * 256 + x.toNat) 0 < 58 ^ (2 * r.length) := by
    have h₁ := foldl_be_lt r 0
    rw [Nat.zero_add, Nat.one_mul] at h₁
    have h₂ : 256 ^ r.length ≤ 58 ^ (2 * r.length) := by
      rw [pow_mul]
      exact Nat.pow_le_pow_left (by norm_num) _
    omega
  have := length_digits_le hlt
  omega

end Base58

namespace Address

/-- The twenty-five bytes an address text writes: the version byte and the
hash, then their checksum. -/
def payload (a : Address) : ByteArray :=
  let versioned := (ByteArray.empty.push version) ++ a.hash
  versioned ++ checksum versioned

theorem encode_eq_payload (a : Address) : a.encode = Base58.encode a.payload := rfl

theorem size_checksum (v : ByteArray) : (checksum v).size = 4 := by
  rw [checksum, Bytes.take, ByteArray.size_extract, (doubleSha256 v).size_eq]
  rfl

theorem size_versioned (a : Address) : ((ByteArray.empty.push version) ++ a.hash).size = 21 := by
  rw [ByteArray.size_append, a.size_eq]
  rfl

theorem size_payload (a : Address) : a.payload.size = 25 := by
  rw [payload, ByteArray.size_append, size_versioned, size_checksum]

theorem take_payload (a : Address) : Bytes.take a.payload 21 = (ByteArray.empty.push version) ++ a.hash :=
  ByteArray.extract_append_eq_left a.size_versioned.symm

/-- The payload carries the checksum of its first twenty-one bytes. -/
theorem checksum_payload (a : Address) :
    checksum (Bytes.take a.payload 21) = Bytes.drop a.payload 21 := by
  rw [take_payload]
  exact (ByteArray.extract_append_eq_right a.size_versioned.symm
    (by rw [size_payload, size_versioned, size_checksum])).symm

theorem slice_payload (a : Address) : Bytes.slice a.payload 1 20 = a.hash := by
  have hp : (ByteArray.empty.push version).size = 1 := rfl
  unfold Bytes.slice payload
  rw [ByteArray.append_assoc, ByteArray.extract_append, hp, Nat.sub_self,
    show 1 + 20 - 1 = 20 from rfl, ByteArray.extract_append_eq_left a.size_eq.symm,
    ← Bytes.toList_inj, Bytes.toList_append, Bytes.toList_extract]
  simp [Bytes.toList_eq_data]

theorem getD_payload (a : Address) : Bytes.getD a.payload 0 = version := by
  simp [Bytes.getD, payload]
  rfl

/-- A text whose base58 bytes are an address's payload reads as that address. -/
theorem decodeChecked_of_payload {s : String} {a : Address} (h : Base58.decode s = .ok a.payload) :
    decodeChecked s = .ok a := by
  have hof : ofBytes? a.hash = some a := by
    rw [ofBytes?, dif_pos a.size_eq]
  simp [decodeChecked, h, Except.mapError, bind, Except.bind, size_payload, getD_payload,
    checksum_payload, slice_payload, hof]
  rfl

theorem decodeChecked_encode (a : Address) : decodeChecked a.encode = .ok a :=
  decodeChecked_of_payload (Base58.decode_encode a.payload)

theorem decode_encode (a : Address) : decode a.encode = .ok a := by
  rw [decode, decodeChecked_encode]
  rfl

theorem encode_injective : Function.Injective encode := by
  intro a b h
  have ha := decode_encode a
  rw [h, decode_encode] at ha
  exact (Except.ok.inj ha).symm

/-- The text of an address takes at least twenty-four bytes: its twenty-five
bytes hold at least one leading zero, and fewer base58 digits than the rest's
bytes would be too few to write it. -/
theorem le_size_toUTF8_encode (a : Address) : 24 ≤ a.encode.toUTF8.size := by
  have hlen : a.payload.toList.length = 25 := by
    rw [Bytes.length_toList, payload, ByteArray.size_append, ByteArray.size_append, a.size_eq,
      size_checksum]
    rfl
  have hl := Base58.eq_replicate_append_dropWhile 0 a.payload.toList
  rw [encode_eq_payload, Base58.size_toUTF8_encode]
  generalize (a.payload.toList.takeWhile (· == 0)).length = z at hl ⊢
  have hr := Base58.noLeadingZero_dropWhile a.payload.toList
  generalize a.payload.toList.dropWhile (· == 0) = r at hl hr ⊢
  have hzr : z + r.length = 25 := by
    rw [← hlen, hl, List.length_append, List.length_replicate]
  cases r with
  | nil => simp at hzr; omega
  | cons x t =>
    -- 256 ^ |t| ≤ n < 58 ^ d, and 58 ^ d ≤ 256 ^ (|t| - 1) whenever z + d < 24
    have hlow := Base58.pow_le_foldl_be hr
    have hhigh := Base58.lt_pow_length_digits ((x :: t).foldl (fun acc x => acc * 256 + x.toNat) 0)
    generalize ((x :: t).foldl (fun acc x => acc * 256 + x.toNat) 0) = n at hlow hhigh ⊢
    generalize (Base58.digits n).length = d at hhigh ⊢
    simp only [List.length_cons] at hzr
    by_contra hlt
    have h₁ : 58 ^ d ≤ 58 ^ (23 - z) := Nat.pow_le_pow_right (by omega) (by omega)
    have h₂ : 58 ^ (23 - z) ≤ 256 ^ (23 - z) := Nat.pow_le_pow_left (by omega) _
    have h₃ : 256 ^ (23 - z) < 256 ^ t.length := Nat.pow_lt_pow_right (by omega) (by omega)
    omega

/-- The text of an address takes at most fifty bytes. -/
theorem size_toUTF8_encode_le (a : Address) : a.encode.toUTF8.size ≤ 50 := by
  have hsize : a.payload.size = 25 := by
    rw [payload, ByteArray.size_append, ByteArray.size_append, a.size_eq, size_checksum]
    rfl
  have := Base58.size_toUTF8_encode_le a.payload
  rw [hsize] at this
  rw [encode_eq_payload]
  omega

end Address

end PowChain
