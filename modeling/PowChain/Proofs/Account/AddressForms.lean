import PowChain.Proofs.Ledger.Accounts
import PowChain.Proofs.Codec.Consumes
import PowChain.Proofs.Json.Scan
import PowChain.Tx.Json

/-!
# Address texts are canonical

`AddressText` shows that an address's text reads back as the address.  This
file shows the converse: a text that reads as an address is that address's
text, so each address has exactly one text, and the places that carry an
address as text carry it faithfully.

* `Base58.encode_decode` — a text that decodes to some bytes is their text:
  after the leading ones, `readNumber` accepts only letters, and letters
  whose first value is not zero are the digits of the number they write;
* `Address.decodeChecked_eq_ok_iff` — a text reads as an address exactly
  when it decodes to the address's twenty-five payload bytes, and
  `Address.decodeChecked_isOk_iff` — exactly when its bytes are twenty-five,
  start with the version and end with the checksum of the rest;
* `Address.consumes_readWire` — on the wire an address is read only from its
  own text; `Transaction.scans_readAddress` — in JSON a quoted address text
  reads back as the address;
* `Store.accounts_of_scan` — listing accounts decodes every balance key back
  to the address it was written for.
-/

namespace PowChain
namespace Base58

/-! ## Letters -/

theorem length_alphabet : alphabet.toList.length = 58 := by decide +kernel

/-- A character with a value is the letter of that value. -/
theorem letter_of_value? {c : Char} {v : Nat} (h : value? c = some v) : v < 58 ∧ letter v = c := by
  obtain ⟨hv, hget, -⟩ := List.idxOf?_eq_some_iff.mp h
  refine ⟨length_alphabet ▸ hv, ?_⟩
  rw [letter, List.getD_eq_getElem _ _ hv, hget]

/-- Each letter is an ASCII byte that stands for itself in a JSON string. -/
theorem plain_letter : ∀ v < 58, Json.Plain (letter v).toNat.toUInt8 ∧ (letter v).toNat ≤ 127 := by
  decide +kernel

theorem byte_ofNat_ascii {b : UInt8} (hb : b.toNat ≤ 127) : (Char.ofNat b.toNat).toNat.toUInt8 = b := by
  rw [Char.toNat_ofNat, if_pos (by unfold Nat.isValidChar; omega), Nat.toUInt8_eq, UInt8.ofNat_toNat]

/-- What `readNumber` accepts is the letters of some digits, and it returns
the number they write after what was read before. -/
theorem readNumber_eq_ok {l : List UInt8} {i acc n : Nat} (h : readNumber l i acc = .ok n) :
    ∃ vs : List Nat, (∀ v ∈ vs, v < 58) ∧ l = vs.map (fun v => (letter v).toNat.toUInt8) ∧
      n = vs.foldl (fun a v => a * 58 + v) acc := by
  induction l generalizing i acc with
  | nil =>
    rw [readNumber] at h
    cases h
    exact ⟨[], by simp, rfl, rfl⟩
  | cons b rest ih =>
    rw [readNumber] at h
    split at h
    · cases h
    · rename_i hb
      split at h
      · cases h
      · rename_i v hv
        obtain ⟨vs, hvs, rfl, rfl⟩ := ih h
        obtain ⟨hlt, hletter⟩ := letter_of_value? hv
        refine ⟨v :: vs, ?_, ?_, rfl⟩
        · intro w hw
          rcases List.mem_cons.mp hw with rfl | hw
          · exact hlt
          · exact hvs w hw
        · rw [List.map_cons, hletter, byte_ofNat_ascii (by omega)]

theorem le_foldl_digits (vs : List Nat) (acc : Nat) : acc ≤ vs.foldl (fun a v => a * 58 + v) acc := by
  induction vs generalizing acc with
  | nil => exact Nat.le_refl _
  | cons v vs ih =>
    rw [List.foldl_cons]
    exact Nat.le_trans (by omega) (ih _)

/-- Digits below 58 whose first is not zero are the digits of the number they
write. -/
theorem digits_foldl {vs : List Nat} (hvs : ∀ v ∈ vs, v < 58) (hhead : vs.head? ≠ some 0) :
    digits (vs.foldl (fun a v => a * 58 + v) 0) = vs.map letter := by
  induction vs using List.reverseRecOn with
  | nil => simp [digits_zero]
  | append_singleton vs v ih =>
    have hv : v < 58 := hvs v (by simp)
    set N := vs.foldl (fun a v => a * 58 + v) 0 with hN
    -- the number is positive: its first digit is not zero
    have hpos : 0 < N * 58 + v := by
      cases vs with
      | nil =>
        have : v ≠ 0 := fun h => hhead (by simp [h])
        omega
      | cons d ds =>
        have hd : d ≠ 0 := fun h => hhead (by simp [h])
        have hle := le_foldl_digits ds (0 * 58 + d)
        rw [hN, List.foldl_cons]
        have : 0 < 0 * 58 + d := by omega
        have := Nat.lt_of_lt_of_le this hle
        have : 0 < ds.foldl (fun a v => a * 58 + v) (0 * 58 + d) * 58 := by omega
        omega
    rw [List.foldl_append, List.foldl_cons, List.foldl_nil, ← hN, digits_of_pos hpos,
      show (N * 58 + v) / 58 = N by omega, show (N * 58 + v) % 58 = v by omega, List.map_append,
      List.map_singleton]
    congr 1
    refine ih (fun w hw => hvs w (by simp [hw])) ?_
    cases vs with
    | nil => simp
    | cons d ds => simpa using hhead

/-! ## Big-endian bytes -/

theorem natBytes_zero : natBytes 0 = [] := by
  rw [natBytes, if_pos rfl]

theorem natBytes_of_pos {n : Nat} (h : 0 < n) : natBytes n = natBytes (n / 256) ++ [(n % 256).toUInt8] := by
  rw [natBytes, if_neg (by omega)]

theorem toNat_toUInt8_mod (n : Nat) : (n % 256).toUInt8.toNat = n % 256 := by
  rw [Nat.toUInt8_eq]
  exact UInt8.toNat_ofNat_of_lt' (show n % 256 < 256 from Nat.mod_lt _ (by omega))

theorem foldl_natBytes (n : Nat) : (natBytes n).foldl (fun acc x => acc * 256 + x.toNat) 0 = n := by
  induction n using Nat.strong_induction_on with
  | _ n ih =>
    rcases Nat.eq_zero_or_pos n with rfl | hpos
    · rw [natBytes_zero]
      rfl
    · rw [natBytes_of_pos hpos, List.foldl_append, List.foldl_cons, List.foldl_nil, ih _ (by omega),
        toNat_toUInt8_mod]
      omega

theorem noLeadingZero_natBytes (n : Nat) : NoLeadingZero (natBytes n) := by
  induction n using Nat.strong_induction_on with
  | _ n ih =>
    rcases Nat.eq_zero_or_pos n with rfl | hpos
    · rw [natBytes_zero]
      simp [NoLeadingZero]
    · rw [natBytes_of_pos hpos]
      rcases Nat.eq_zero_or_pos (n / 256) with hq | hq
      · -- a single byte, which is the number itself
        rw [hq, natBytes_zero, List.nil_append, NoLeadingZero, List.head?_cons]
        intro h0
        have := congrArg UInt8.toNat (Option.some.inj h0)
        rw [toNat_toUInt8_mod] at this
        simp at this
        omega
      · have hne : natBytes (n / 256) ≠ [] := by
          rw [natBytes_of_pos hq]
          simp
        rw [NoLeadingZero, List.head?_append_of_ne_nil _ hne]
        exact ih _ (by omega)

/-! ## Canonical texts -/

/-- Bytes that start with no `1` letter are the letters of digits whose
first value is not zero. -/
theorem head_ne_zero_of_letters {vs : List Nat} {l : List UInt8}
    (hl : l = vs.map (fun v => (letter v).toNat.toUInt8)) (hhead : l.head? ≠ some 49) : vs.head? ≠ some 0 := by
  intro h0
  cases vs with
  | nil => simp at h0
  | cons v vs =>
    simp only [List.head?_cons, Option.some.injEq] at h0
    subst h0
    apply hhead
    rw [hl, List.map_cons, letter_zero]
    rfl

/-- The text form is canonical: a text that decodes to some bytes is their text. -/
theorem encode_decode {s : String} {b : ByteArray} (h : decode s = .ok b) : encode b = s := by
  set raw := s.toUTF8.toList with hraw
  set z := (raw.takeWhile (· == 49)).length with hz
  obtain ⟨n, hn, rfl⟩ : ∃ n, readNumber (raw.drop z) z 0 = .ok n ∧
      b = Bytes.ofList (List.replicate z 0 ++ natBytes n) := by
    simp only [decode, bind, Except.bind, pure, Except.pure] at h
    split at h
    · cases h
    · rename_i n hn
      cases h
      exact ⟨n, hn, rfl⟩
  obtain ⟨vs, hvs, hrest, rfl⟩ := readNumber_eq_ok hn
  -- after the ones comes a letter other than `1`, so the digits are canonical
  have hdrop : raw.drop z = raw.dropWhile (· == 49) := drop_length_takeWhile 49 raw
  have hhead : vs.head? ≠ some 0 := by
    refine head_ne_zero_of_letters hrest ?_
    intro h49
    have hnot := List.head?_dropWhile_not (· == 49) raw
    rw [← hdrop, h49] at hnot
    simp at hnot
  -- the bytes are `z` zeros, then the number's bytes without leading zeros
  set N := vs.foldl (fun a v => a * 58 + v) 0
  have hzeros : ((List.replicate z (0 : UInt8) ++ natBytes N).takeWhile (· == 0)).length = z := by
    rw [List.takeWhile_append_of_pos (by simp)]
    have h0 := noLeadingZero_natBytes N
    cases hb : natBytes N with
    | nil => simp
    | cons x r =>
      rw [hb, NoLeadingZero] at h0
      have hx : x ≠ 0 := fun h => h0 (by simp [h])
      simp [hx]
  have henc : encode (Bytes.ofList (List.replicate z 0 ++ natBytes N)) =
      String.ofList (List.replicate z '1' ++ vs.map letter) := by
    have hdigits : digits N = vs.map letter := digits_foldl hvs hhead
    simp only [encode, Bytes.toList_ofList, hzeros, List.drop_left' (List.length_replicate ..),
      foldl_natBytes, hdigits]
  rw [henc]
  apply String.toByteArray_inj.mp
  rw [← String.toUTF8_eq_toByteArray, ← String.toUTF8_eq_toByteArray, ← Bytes.toList_inj,
    toUTF8_ofList_ascii, List.map_append, List.map_replicate, List.map_map, ← hraw]
  · -- the text is its ones, then the letters
    rw [eq_replicate_append_dropWhile 49 raw, ← hdrop, hrest, ← hz]
    rfl
  · intro c hc
    rcases List.mem_append.mp hc with hc | hc
    · rw [List.eq_of_mem_replicate hc]
      decide
    · obtain ⟨v, hv, rfl⟩ := List.mem_map.mp hc
      exact (plain_letter v (hvs v hv)).2

end Base58

namespace Address

/-- An address whose hash is the middle of twenty-five bytes that start with
the version and end with the checksum of the rest has those bytes as its
payload. -/
theorem payload_eq {p : ByteArray} {a : Address} (hsize : p.size = 25) (hv : Bytes.getD p 0 = version)
    (hc : checksum (Bytes.take p 21) = Bytes.drop p 21) (ha : a.hash = Bytes.slice p 1 20) : a.payload = p := by
  have hversioned : (ByteArray.empty.push version) ++ a.hash = Bytes.take p 21 := by
    apply Bytes.toList_inj.mp
    rw [ha, Bytes.toList_append, Bytes.toList_push, Bytes.slice, Bytes.take, Bytes.toList_extract,
      Bytes.toList_extract, ← hv, Bytes.getD_eq_getD_toList]
    have hlen : p.toList.length = 25 := by rw [Bytes.length_toList, hsize]
    cases hl : p.toList with
    | nil => rw [hl] at hlen; cases hlen
    | cons x r => simp [List.extract_eq_take_drop]
  rw [payload, hversioned, hc, Bytes.take, Bytes.drop, ByteArray.extract_append_extract, Nat.zero_min,
    Nat.max_eq_right (by omega), ByteArray.extract_zero_size]

/-- A text reads as an address exactly when it decodes to the address's
payload. -/
theorem decodeChecked_eq_ok_iff {s : String} {a : Address} :
    decodeChecked s = .ok a ↔ Base58.decode s = .ok a.payload := by
  refine ⟨fun h => ?_, decodeChecked_of_payload⟩
  cases hb : Base58.decode s with
  | error e => simp [decodeChecked, hb, Except.mapError, bind, Except.bind] at h
  | ok p =>
    simp only [decodeChecked, hb, Except.mapError, bind, Except.bind, pure, Except.pure] at h
    split_ifs at h with hsize hv hc
    split at h
    · rename_i a' ha'
      cases h
      rw [ofBytes?] at ha'
      split at ha'
      · cases ha'
        exact congrArg Except.ok (payload_eq (by simpa using hsize) (by simpa using hv)
          (by simpa using hc) rfl).symm
      · cases ha'
    · cases h

/-- A text reads as an address exactly when its base58 bytes are twenty-five,
the first is the version, and the last four are the checksum of the rest. -/
theorem decodeChecked_isOk_iff (s : String) :
    (∃ a, decodeChecked s = .ok a) ↔
      ∃ p, Base58.decode s = .ok p ∧ p.size = 25 ∧ Bytes.getD p 0 = version ∧
        checksum (Bytes.take p 21) = Bytes.drop p 21 := by
  constructor
  · rintro ⟨a, h⟩
    exact ⟨a.payload, decodeChecked_eq_ok_iff.mp h, a.size_payload, a.getD_payload, a.checksum_payload⟩
  · rintro ⟨p, hp, hsize, hv, hc⟩
    have hslice : (Bytes.slice p 1 20).size = 20 := by
      simp [Bytes.slice, ByteArray.size_extract, hsize]
    exact ⟨⟨_, hslice⟩, decodeChecked_eq_ok_iff.mpr (by rw [payload_eq hsize hv hc rfl, hp])⟩

theorem decode_eq_ok_iff {s : String} {a : Address} : decode s = .ok a ↔ decodeChecked s = .ok a := by
  unfold decode
  cases decodeChecked s <;> simp [Except.mapError]

/-- What reads as an address is that address's text. -/
theorem encode_of_decode {s : String} {a : Address} (h : decode s = .ok a) : a.encode = s := by
  rw [encode_eq_payload]
  exact Base58.encode_decode (decodeChecked_eq_ok_iff.mp (decode_eq_ok_iff.mp h))

/-- On the wire an address is read only from its own text. -/
theorem consumes_readWire : Wire.Consumes readWire toWire := by
  intro pre rest v pos h
  obtain ⟨s, q, hs, hdec⟩ := Wire.run_bind_eq_ok h
  obtain ⟨post, rfl, rfl⟩ := Wire.consumes_str pre rest s q hs
  cases hd : decode s with
  | error e =>
    rw [hd] at hdec
    cases hdec
  | ok a =>
    rw [hd] at hdec
    cases hdec
    rw [toWire, encode_of_decode hd]
    exact ⟨post, rfl, rfl⟩

end Address

/-! ## JSON -/

namespace Base58

/-- Every byte of a base58 text stands for itself in a JSON string. -/
theorem plain_toUTF8_encode (b : ByteArray) : ∀ c ∈ (encode b).toUTF8.toList, Json.Plain c := by
  intro c hc
  rw [encode, toUTF8_ones_digits] at hc
  rcases List.mem_append.mp hc with hc | hc
  · rw [List.eq_of_mem_replicate hc]
    decide
  · obtain ⟨d, hd, rfl⟩ := List.mem_map.mp hc
    obtain ⟨v, hv, rfl⟩ := mem_alphabet_of_mem_digits _ d hd
    exact (plain_letter v hv).1

end Base58

namespace Json

/-- A quoted text of plain bytes, after white space. -/
theorem scans_readString {ws : List UInt8} (hws : ∀ c ∈ ws, isSpace c = true) {s : String}
    (hs : ∀ c ∈ s.toUTF8.toList, Plain c) :
    Scans readString (ws ++ 34 :: (s.toUTF8.toList ++ [34])) s fun _ => True := by
  intro b pre post hb hpost
  rw [readString, Runs.placing_iff]
  exact Scans.bind (scans_parseWhitespace hws (c := 34) (by decide))
    (Scans.bind (Scans.eat 34) (scans_parseStr hs) (fun _ _ => trivial) rfl) (fun _ _ => rfl) rfl
    b pre post hb hpost

end Json

namespace Transaction

/-- In JSON a quoted address text, after white space, reads back as the
address. -/
theorem scans_readAddress {ws : List UInt8} (hws : ∀ c ∈ ws, Json.isSpace c = true) (a : Address) :
    Json.Scans readAddress (ws ++ 34 :: (a.encode.toUTF8.toList ++ [34])) a fun _ => True := by
  refine Json.Scans.bind (Json.scans_readString hws (Base58.plain_toUTF8_encode _)) ?_
    (fun _ _ => trivial) (List.append_nil _)
  rw [show Address.decode (Base58.encode _) = .ok a from Address.decode_encode a]
  exact Json.Scans.pure a

end Transaction

/-! ## Listing accounts -/

namespace Keys

/-- The text after the prefix of an address's balance key reads as the
address. -/
theorem decode_balance (a : Address) :
    Address.decode (Utf8.lossy ((balance a.encode).extract balancesPrefix.size (balance a.encode).size)) =
      .ok a := by
  have htext : (balance a.encode).extract balancesPrefix.size (balance a.encode).size = a.encode.toUTF8 := by
    apply Bytes.toList_inj.mp
    simp [balance, List.extract_eq_take_drop, ← Bytes.length_toList]
  rw [htext, Utf8.lossy_toUTF8, Address.decode_encode]

end Keys

namespace Store

/-- Listing accounts reads every balance record back as the address its key
was written for and the account its value holds. -/
theorem accounts_of_scan {s : Store} {rows : List (Address × Account)}
    (h : s.scan Keys.balancesPrefix = .ok (rows.map fun r => (Keys.balance r.1.encode, r.2.toWire))) :
    s.accounts = .ok rows := by
  unfold accounts
  rw [h]
  clear h
  simp only [bind, Except.bind]
  -- each row reads back on its own, so the whole list does
  induction rows with
  | nil => rfl
  | cons r rows ih =>
    rw [List.map_cons, List.mapM_cons]
    simp only [bind, Except.bind, Keys.decode_balance, Account.decodeRecord_toWire]
    rw [ih]
    rfl

end Store

/-- Address texts are canonical: the text of every twenty-byte hash reads
back as its address, and a text that reads as an address is that address's
text.  A text is refused unless its base58 bytes are twenty-five, start with
the version and end with the checksum of the rest.  So balance keys are
distinct, an address travels on the wire and in JSON as its text and reads
back, a transaction's wire form reads back, and listing accounts reads every
balance key back as its address. -/
theorem address_text_canonical :
    (∀ (p : ByteArray) (hp : p.size = 20), Address.decode (⟨p, hp⟩ : Address).encode = .ok ⟨p, hp⟩) ∧
    (∀ (s : String) (a : Address), Address.decode s = .ok a → a.encode = s) ∧
    (∀ s : String, (∃ a, Address.decode s = .ok a) ↔
      ∃ p, Base58.decode s = .ok p ∧ p.size = 25 ∧ Bytes.getD p 0 = Address.version ∧
        Address.checksum (Bytes.take p 21) = Bytes.drop p 21) ∧
    Function.Injective (fun a : Address => Keys.balance a.encode) ∧
    (∀ a : Address, Wire.Reads Address.readWire a.toWire a) ∧
    Wire.Consumes Address.readWire Address.toWire ∧
    (∀ tx : Transaction, tx.data.size < 2 ^ 64 → Wire.decode Transaction.readWire tx.toWire = .ok tx) ∧
    (∀ a : Address,
      Json.Scans Transaction.readAddress (34 :: (a.encode.toUTF8.toList ++ [34])) a fun _ => True) ∧
    (∀ (s : Store) (rows : List (Address × Account)),
      s.scan Keys.balancesPrefix = .ok (rows.map fun r => (Keys.balance r.1.encode, r.2.toWire)) →
        s.accounts = .ok rows) := by
  refine ⟨fun p hp => Address.decode_encode _, fun _ _ => Address.encode_of_decode, fun s => ?_,
    fun _ _ => Keys.balance_inj, Wire.reads_address, Address.consumes_readWire,
    fun tx hdata => (Wire.reads_transaction tx hdata).decode,
    fun a => @Transaction.scans_readAddress [] (by simp) a, fun _ _ => Store.accounts_of_scan⟩
  simp only [Address.decode_eq_ok_iff]
  exact Address.decodeChecked_isOk_iff s

theorem address_text_canonical_zero : Address.decode Address.zero.encode = .ok Address.zero :=
  address_text_canonical.1 Address.zero.hash Address.zero.size_eq

end PowChain
