import PowChain.Proofs.Codec.RoundTrip

/-!
# Canonical preimages tell values apart

Every hashed value is named by the digest of its canonical preimage: the
version byte, a domain tag after its length, then the fields in a fixed
order.  Every field has a fixed width except a byte string, which carries its
length in a 32-bit word first.  A preimage therefore parses back: once the
widths of the fields are known, the bytes of each field are, and each field's
bytes give its value.

* `Canonical.toList_preimage` — a preimage is the version byte followed by the
  fields' bytes;
* `Canonical.forall₂_write_of_preimage` — fields of the same widths with one
  preimage write the same bytes, field by field;
* `Transaction.canonical_injective`, `Header.eq_of_canonical`,
  `Receipt.eq_of_canonical`, `statePreimage_injective` — each kind of preimage
  determines what it covers: the whole transaction (whatever the length of its
  payload, since the other fields have fixed widths), the header but its
  hash, the receipt but its block hash and number, the list of accounts;
* `Canonical.tagged_append_ne` — preimages under domain tags of different
  lengths differ in their first five bytes, so the four kinds never share a
  preimage;
* `canonical_preimages_injective` — all of the above together.
-/

namespace PowChain

namespace Bytes

/-- Words of one width tell apart the numbers that fit them. -/
theorem ofNatLE_inj {n n' w : Nat} (hn : n < 256 ^ w) (hn' : n' < 256 ^ w)
    (h : (ofNatLE n w).toList = (ofNatLE n' w).toList) : n = n' := by
  have hnat := congrArg toNatLE (toList_inj.mp h)
  rwa [Wire.toNatLE_ofNatLE, Wire.toNatLE_ofNatLE, Nat.mod_eq_of_lt hn, Nat.mod_eq_of_lt hn'] at hnat

theorem length_ofNatLE (n w : Nat) : (ofNatLE n w).toList.length = w := by
  rw [length_toList, size_ofNatLE]

theorem u64_inj {v v' : UInt64} (h : (u64 v).toList = (u64 v').toList) : v = v' := by
  have hlt : ∀ x : UInt64, x.toNat < 256 ^ 8 := fun x => by simpa using x.toNat_lt
  exact UInt64.toNat_inj.mp (ofNatLE_inj (hlt v) (hlt v') h)

theorem u32_inj {v v' : UInt32} (h : (u32 v).toList = (u32 v').toList) : v = v' := by
  have hlt : ∀ x : UInt32, x.toNat < 256 ^ 4 := fun x => by simpa using x.toNat_lt
  exact UInt32.toNat_inj.mp (ofNatLE_inj (hlt v) (hlt v') h)

/-- A signed word tells apart the values of `Int64`. -/
theorem i64_inj {t t' : Int64} (h : (i64 t.toInt).toList = (i64 t'.toInt).toList) : t = t' := by
  have hM : Int.ofNat (Nat.pow 2 64) = 18446744073709551616 := rfl
  have h8 : (256 : Nat) ^ 8 = 18446744073709551616 := by norm_num
  -- both words are residues modulo `2 ^ 64`, and two values of `Int64` that
  -- agree modulo `2 ^ 64` are equal
  have hres : ∀ x : Int64, ((x.toInt % 18446744073709551616).toNat : Int) = x.toInt % 18446744073709551616 :=
    fun x => Int.toNat_of_nonneg (Int.emod_nonneg _ (by decide))
  have hlt : ∀ x : Int64, (x.toInt % 18446744073709551616).toNat < 256 ^ 8 := fun x => by
    have := hres x
    rw [h8]
    omega
  simp only [i64, hM] at h
  have hnat := ofNatLE_inj (hlt t) (hlt t') h
  have hlo := Int64.le_toInt t
  have hhi := Int64.toInt_lt t
  have hlo' := Int64.le_toInt t'
  have hhi' := Int64.toInt_lt t'
  have hr := hres t
  have hr' := hres t'
  norm_num at hlo hhi hlo' hhi'
  apply Int64.toInt_inj.mp
  omega

end Bytes

theorem Digest.eq_of_bytes {d d' : Digest} (h : d.bytes = d'.bytes) : d = d' := by
  obtain ⟨b, _⟩ := d
  obtain ⟨b', _⟩ := d'
  cases h
  rfl

theorem Address.eq_of_hash {a a' : Address} (h : a.hash = a'.hash) : a = a' := by
  obtain ⟨b, _⟩ := a
  obtain ⟨b', _⟩ := a'
  cases h
  rfl

namespace Canonical

/-! ## Fields and their widths -/

/-- How many bytes a field takes. -/
def Field.width : Field → Nat
  | .u8 _ => 1
  | .u32 _ => 4
  | .u64 _ => 8
  | .i64 _ => 8
  | .fixed b => b.size
  | .bytes b => 4 + b.size

@[simp] theorem Field.size_write (f : Field) : f.write.size = f.width := by
  cases f <;> simp [Field.write, Field.width, Bytes.u32, Bytes.u64, Bytes.i64]

theorem Field.u32_inj {v v' : UInt32} (h : (Field.u32 v).write = (Field.u32 v').write) : v = v' :=
  Bytes.u32_inj (congrArg ByteArray.toList h)

theorem Field.u64_inj {v v' : UInt64} (h : (Field.u64 v).write = (Field.u64 v').write) : v = v' :=
  Bytes.u64_inj (congrArg ByteArray.toList h)

theorem Field.i64_inj {t t' : Int64} (h : (Field.i64 t.toInt).write = (Field.i64 t'.toInt).write) :
    t = t' :=
  Bytes.i64_inj (congrArg ByteArray.toList h)

/-- Two byte strings of one length written as fields are equal: their length
words are the same, and what follows them is the strings. -/
theorem Field.bytes_inj {b b' : ByteArray} (hsize : b.size = b'.size)
    (h : (Field.bytes b).write = (Field.bytes b').write) : b = b' := by
  have hl := congrArg ByteArray.toList h
  simp only [Field.write, Bytes.toList_append, hsize] at hl
  exact Bytes.toList_inj.mp (List.append_cancel_left hl)

theorem toList_foldl_write (fields : List Field) (acc : ByteArray) :
    (fields.foldl (fun acc f => acc ++ f.write) acc).toList =
      acc.toList ++ fields.flatMap (·.write.toList) := by
  induction fields generalizing acc with
  | nil => simp
  | cons f fields ih => simp [ih]

/-- A preimage is the version byte, then each field's bytes in order. -/
theorem toList_preimage (fields : List Field) :
    (preimage fields).toList = formatVersion :: fields.flatMap (·.write.toList) := by
  simp [preimage, toList_foldl_write]

theorem size_preimage (fields : List Field) :
    (preimage fields).size = 1 + (fields.map Field.width).sum := by
  rw [← Bytes.length_toList, toList_preimage, List.length_cons, List.length_flatMap]
  simp only [Bytes.length_toList, Field.size_write]
  exact Nat.add_comm _ _

/-- Writing one more field after a preimage gives the preimage of the longer
list. -/
theorem preimage_append_write (fields : List Field) (f : Field) :
    preimage fields ++ f.write = preimage (fields ++ [f]) := by
  rw [← Bytes.toList_inj, Bytes.toList_append, toList_preimage, toList_preimage]
  simp

theorem forall₂_write_of_flatMap {fs gs : List Field} (hw : fs.map Field.width = gs.map Field.width)
    (h : fs.flatMap (·.write.toList) = gs.flatMap (·.write.toList)) :
    List.Forall₂ (fun f g => f.write = g.write) fs gs := by
  induction fs generalizing gs with
  | nil =>
    cases gs with
    | nil => exact .nil
    | cons g gs => simp at hw
  | cons f fs ih =>
    cases gs with
    | nil => simp at hw
    | cons g gs =>
      simp only [List.map_cons, List.cons.injEq] at hw
      simp only [List.flatMap_cons] at h
      -- the first field's bytes end where its width says, on both sides
      obtain ⟨hfirst, hrest⟩ := List.append_inj h (by simp [hw.1])
      exact .cons (Bytes.toList_inj.mp hfirst) (ih hw.2 hrest)

/-- Fields of the same widths with one preimage write the same bytes, field by
field. -/
theorem forall₂_write_of_preimage {fs gs : List Field} (hw : fs.map Field.width = gs.map Field.width)
    (h : preimage fs = preimage gs) : List.Forall₂ (fun f g => f.write = g.write) fs gs := by
  have hl := congrArg ByteArray.toList h
  rw [toList_preimage, toList_preimage, List.cons.injEq] at hl
  exact forall₂_write_of_flatMap hw hl.2

/-! ## Domain tags -/

/-- A tagged preimage, with anything after it, opens with the version byte and
the length word of its tag. -/
theorem take_tagged_append (domain : ByteArray) (fields : List Field) (x : ByteArray) :
    (tagged domain fields ++ x).toList.take 5 = formatVersion :: (Bytes.u32 domain.size.toUInt32).toList := by
  have hword : (Bytes.u32 domain.size.toUInt32).toList.length = 4 := Bytes.length_ofNatLE _ _
  rw [Bytes.toList_append, tagged, toList_preimage, List.flatMap_cons, List.cons_append, List.take_succ_cons]
  simp only [Field.write, Bytes.toList_append, List.append_assoc]
  rw [List.take_left' hword]

/-- Preimages under tags of different lengths differ, whatever follows them. -/
theorem tagged_append_ne {d d' : ByteArray} (hd : d.size < 2 ^ 32) (hd' : d'.size < 2 ^ 32)
    (hne : d.size ≠ d'.size) (fields fields' : List Field) (x x' : ByteArray) :
    tagged d fields ++ x ≠ tagged d' fields' ++ x' := by
  intro h
  have hfive := congrArg (fun b : ByteArray => b.toList.take 5) h
  simp only [take_tagged_append, List.cons.injEq, true_and] at hfive
  have hword := congrArg UInt32.toNat (Bytes.u32_inj hfive)
  rw [Nat.toUInt32_eq, Nat.toUInt32_eq, UInt32.toNat_ofNat_of_lt' hd, UInt32.toNat_ofNat_of_lt' hd'] at hword
  exact hne hword

end Canonical

open Canonical

/-! ## Transactions -/

namespace Transaction

/-- A transaction's preimage takes ninety-one bytes besides its payload. -/
theorem size_canonical (tx : Transaction) : tx.canonical.size = 91 + tx.data.size := by
  simp only [canonical, tagged, size_preimage, canonicalFields, List.map_cons, List.map_nil,
    Field.width, tx.sender.size_eq, tx.recipient.size_eq, List.sum_cons, List.sum_nil]
  have htag : "tx".toUTF8.size = 2 := by decide
  omega

/-- The canonical preimage tells transactions apart.  No bound on the payload
is needed: the other fields have fixed widths, so the preimage's length gives
the payload's, even where its 32-bit length word wraps. -/
theorem canonical_injective : Function.Injective canonical := by
  intro tx tx' h
  have hdata : tx.data.size = tx'.data.size := by
    have hsize := congrArg ByteArray.size h
    rw [size_canonical, size_canonical] at hsize
    omega
  have hw : (Field.bytes "tx".toUTF8 :: tx.canonicalFields).map Field.width =
      (Field.bytes "tx".toUTF8 :: tx'.canonicalFields).map Field.width := by
    simp [canonicalFields, Field.width, Address.size_eq, hdata]
  have hfields := forall₂_write_of_preimage hw h
  simp only [canonicalFields, List.forall₂_cons, List.forall₂_nil_left_iff, and_true] at hfields
  obtain ⟨-, hsender, hrecipient, hnonce, hvalue, hfee, hprice, hpayload, htime⟩ := hfields
  obtain ⟨s, r, n, v, f, p, d, t⟩ := tx
  obtain ⟨s', r', n', v', f', p', d', t'⟩ := tx'
  obtain rfl := Address.eq_of_hash hsender
  obtain rfl := Address.eq_of_hash hrecipient
  obtain rfl := Field.u64_inj hnonce
  obtain rfl := Field.u64_inj hvalue
  obtain rfl := Field.u64_inj hfee
  obtain rfl := Field.u64_inj hprice
  obtain rfl := Field.bytes_inj hdata hpayload
  obtain rfl := Field.i64_inj htime
  rfl

/-- Two transactions whose payloads fit the 32-bit length word have one
canonical preimage only if they are equal. -/
theorem canonical_inj {tx tx' : Transaction} (_hd : tx.data.size < 2 ^ 32)
    (_hd' : tx'.data.size < 2 ^ 32) (h : tx.canonical = tx'.canonical) : tx = tx' :=
  canonical_injective h

end Transaction

/-! ## Headers, receipts, accounts -/

namespace Header

theorem canonical_eq_preimage (h : Header) :
    h.canonical = preimage (.bytes "header".toUTF8 :: h.unsealedFields ++ [.u64 h.nonce]) := by
  rw [canonical, sealPrefix, tagged, ← preimage_append_write]
  rfl

/-- A header's preimage determines every field but the recorded hash. -/
theorem eq_of_canonical {h h' : Header} (heq : h.canonical = h'.canonical) :
    { h with hash := h'.hash } = h' := by
  rw [canonical_eq_preimage, canonical_eq_preimage] at heq
  have hw := forall₂_write_of_preimage (by simp [unsealedFields, Field.width, Digest.size_eq,
    Address.size_eq]) heq
  simp only [unsealedFields, List.cons_append, List.nil_append, List.forall₂_cons,
    List.forall₂_nil_left_iff, and_true] at hw
  obtain ⟨-, hparent, hnumber, htime, hstate, htx, hreceipt, hused, hcoinbase, hnonce⟩ := hw
  obtain ⟨parent, _, number, time, state, tx, receipt, used, coinbase, nonce⟩ := h
  obtain ⟨parent', hash', number', time', state', tx', receipt', used', coinbase', nonce'⟩ := h'
  obtain rfl := Digest.eq_of_bytes hparent
  obtain rfl := Field.u64_inj hnumber
  obtain rfl := Field.i64_inj htime
  obtain rfl := Digest.eq_of_bytes hstate
  obtain rfl := Digest.eq_of_bytes htx
  obtain rfl := Digest.eq_of_bytes hreceipt
  obtain rfl := Field.u64_inj hused
  obtain rfl := Address.eq_of_hash hcoinbase
  obtain rfl := Field.u64_inj hnonce
  rfl

end Header

namespace Receipt

/-- A receipt's preimage determines every field but the block hash and number. -/
theorem eq_of_canonical {r r' : Receipt} (heq : r.canonical = r'.canonical) :
    { r with blockHash := r'.blockHash, blockNumber := r'.blockNumber } = r' := by
  have hw := forall₂_write_of_preimage (by simp [canonicalFields, Field.width, Digest.size_eq,
    Address.size_eq]) heq
  simp only [canonicalFields, List.forall₂_cons, List.forall₂_nil_left_iff, and_true] at hw
  obtain ⟨-, haddress, hbalance, htx, hindex, hused⟩ := hw
  obtain ⟨address, balance, tx, _, _, index, used⟩ := r
  obtain ⟨address', balance', tx', blockHash', blockNumber', index', used'⟩ := r'
  obtain rfl := Address.eq_of_hash haddress
  obtain rfl := Field.u64_inj hbalance
  obtain rfl := Digest.eq_of_bytes htx
  obtain rfl := Field.u32_inj hindex
  obtain rfl := Field.u64_inj hused
  rfl

end Receipt

/-- The fields of one account in the state preimage. -/
def accountFields (p : Address × Account) : List Field :=
  [.fixed p.1.hash, .u64 p.2.balance, .u64 p.2.nonce]

theorem accountFields_inj {p p' : Address × Account}
    (h : (accountFields p).flatMap (·.write.toList) = (accountFields p').flatMap (·.write.toList)) :
    p = p' := by
  have hw := forall₂_write_of_flatMap (by simp [accountFields, Field.width, Address.size_eq]) h
  simp only [accountFields, List.forall₂_cons, List.forall₂_nil_left_iff, and_true] at hw
  obtain ⟨haddress, hbalance, hnonce⟩ := hw
  obtain ⟨a, balance, nonce⟩ := p
  obtain ⟨a', balance', nonce'⟩ := p'
  obtain rfl := Address.eq_of_hash haddress
  obtain rfl := Field.u64_inj hbalance
  obtain rfl := Field.u64_inj hnonce
  rfl

theorem length_accountFields (p : Address × Account) :
    ((accountFields p).flatMap (·.write.toList)).length = 36 := by
  simp [accountFields, Field.width, Address.size_eq]

/-- Accounts written one after another, thirty-six bytes each, read back one
by one. -/
theorem accounts_eq_of_flatMap {l l' : List (Address × Account)}
    (h : l.flatMap (fun p => (accountFields p).flatMap (·.write.toList)) =
      l'.flatMap (fun p => (accountFields p).flatMap (·.write.toList))) : l = l' := by
  induction l generalizing l' with
  | nil =>
    cases l' with
    | nil => rfl
    | cons p' l' =>
      have hlen := congrArg List.length h
      rw [List.flatMap_cons, List.length_append, length_accountFields] at hlen
      simp only [List.flatMap_nil, List.length_nil] at hlen
      omega
  | cons p l ih =>
    cases l' with
    | nil =>
      have hlen := congrArg List.length h
      rw [List.flatMap_cons, List.length_append, length_accountFields] at hlen
      simp only [List.flatMap_nil, List.length_nil] at hlen
      omega
    | cons p' l' =>
      rw [List.flatMap_cons, List.flatMap_cons] at h
      obtain ⟨hfirst, hrest⟩ := List.append_inj h (by rw [length_accountFields, length_accountFields])
      rw [accountFields_inj hfirst, ih hrest]

/-- The state preimage tells lists of accounts apart. -/
theorem statePreimage_injective : Function.Injective statePreimage := by
  intro l l' h
  have hl := congrArg ByteArray.toList h
  simp only [statePreimage, tagged, toList_preimage, List.flatMap_cons, List.cons.injEq, true_and,
    List.append_cancel_left_eq] at hl
  -- after the count word, the accounts' bytes
  obtain ⟨-, hrest⟩ := List.append_inj hl (by simp [Field.write, Bytes.u64])
  rw [List.flatMap_assoc, List.flatMap_assoc] at hrest
  exact accounts_eq_of_flatMap hrest

/-! ## The four kinds of preimage -/

/-- The preimages of transactions, headers, receipts and account lists: each
determines what it covers, no two kinds share a preimage, and a signed
transaction is named by its transaction's preimage alone. -/
theorem canonical_preimages_injective :
    Function.Injective Transaction.canonical ∧
    (∀ h h' : Header, h.canonical = h'.canonical → { h with hash := h'.hash } = h') ∧
    (∀ r r' : Receipt, r.canonical = r'.canonical →
      { r with blockHash := r'.blockHash, blockNumber := r'.blockNumber } = r') ∧
    Function.Injective statePreimage ∧
    (∀ (tx : Transaction) (h : Header) (r : Receipt) (l : List (Address × Account)),
      tx.canonical ≠ h.canonical ∧ tx.canonical ≠ r.canonical ∧ tx.canonical ≠ statePreimage l ∧
      h.canonical ≠ r.canonical ∧ h.canonical ≠ statePreimage l ∧ r.canonical ≠ statePreimage l) ∧
    (∀ s : SignedTx, s.hash = sha256 s.tx.canonical) := by
  refine ⟨Transaction.canonical_injective, fun _ _ => Header.eq_of_canonical,
    fun _ _ => Receipt.eq_of_canonical, statePreimage_injective, ?_, fun _ => rfl⟩
  intro tx h r l
  -- every kind is a tagged preimage, possibly with more bytes after it
  have htx : tx.canonical = tagged "tx".toUTF8 tx.canonicalFields ++ ByteArray.empty :=
    ByteArray.append_empty.symm
  have hr : r.canonical = tagged "receipt".toUTF8 r.canonicalFields ++ ByteArray.empty :=
    ByteArray.append_empty.symm
  have hl : statePreimage l = tagged "state".toUTF8 _ ++ ByteArray.empty := ByteArray.append_empty.symm
  have hh : h.canonical = tagged "header".toUTF8 h.unsealedFields ++ Bytes.u64 h.nonce := rfl
  rw [htx, hr, hl, hh]
  refine ⟨?_, ?_, ?_, ?_, ?_, ?_⟩ <;> exact tagged_append_ne (by decide) (by decide) (by decide) _ _ _ _

end PowChain
