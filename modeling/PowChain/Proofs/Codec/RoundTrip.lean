import PowChain.Block.Basic
import PowChain.Ledger.Engine
import PowChain.Proofs.Account.AddressText
import PowChain.Proofs.Text.Utf8

/-!
# Reading back what was written

Blocks and accounts are stored in their wire form and read back when a chain
is walked or a transaction is applied.  `Wire.Reads r w v` says that the
reader `r`, started at the first byte of `w` wherever `w` stands in its
input, reads `v` and stops right after `w`.  Readers built with `>>=` read
the concatenation of what their parts read (`Reads.bind`), so each record's
round trip is one step per field:

* `reads_word` (with `reads_u32`, `reads_u64`), `reads_i64`, `reads_digest`,
  `reads_bytes`, `reads_str`, `reads_address`, `reads_seq` for the field
  kinds, a length or count provided it fits in the 64-bit word that carries
  it;
* `Block.decodeRecord_toBytes`: a stored block reads back as itself when its
  lengths fit (`Block.WireFits`), and `Account.decodeRecord_toWire` for
  account records.
-/

namespace PowChain
namespace Wire

/-! ## Running a reader -/

section Run

variable {α β : Type} (b : ByteArray) (pos : Nat)

theorem run_bind (x : Reader α) (f : α → Reader β) :
    ((x >>= f).run b).run pos = match (x.run b).run pos with
      | .ok (a, p) => ((f a).run b).run p
      | .error e => .error e := by
  show (x.run b).run pos >>= _ = _
  rcases (x.run b).run pos with e | ⟨a, p⟩ <;> rfl

@[simp] theorem run_read : ((read : Reader ByteArray).run b).run pos = .ok (b, pos) := rfl

@[simp] theorem run_get : ((get : Reader Nat).run b).run pos = .ok (pos, pos) := rfl

@[simp] theorem run_set (p : Nat) : ((set p : Reader PUnit).run b).run pos = .ok (⟨⟩, p) := rfl

@[simp] theorem run_pure (a : α) : ((pure a : Reader α).run b).run pos = .ok (a, pos) := rfl

@[simp] theorem run_throw (f : Fault) : ((throw f : Reader α).run b).run pos = .error f := rfl

end Run

/-- `r` reads the bytes `w` as the value `v`, wherever `w` stands in its
input: it starts at the first byte of `w` and stops right after it. -/
def Reads {α : Type} (r : Reader α) (w : ByteArray) (v : α) : Prop :=
  ∀ pre post : ByteArray, (r.run (pre ++ w ++ post)).run pre.size = .ok (v, pre.size + w.size)

namespace Reads

variable {α β : Type}

theorem bind {x : Reader α} {f : α → Reader β} {w₁ w₂ : ByteArray} {a : α} {v : β}
    (h₁ : Reads x w₁ a) (h₂ : Reads (f a) w₂ v) : Reads (x >>= f) (w₁ ++ w₂) v := by
  intro pre post
  have e₁ := h₁ pre (w₂ ++ post)
  have e₂ := h₂ (pre ++ w₁) post
  rw [ByteArray.size_append] at e₂
  simp only [ByteArray.append_assoc] at e₁ e₂ ⊢
  show (x.run (pre ++ (w₁ ++ (w₂ ++ post))) |>.run pre.size) >>= _ = _
  rw [e₁]
  refine e₂.trans ?_
  rw [ByteArray.size_append, Nat.add_assoc]

theorem bind_pure {x : Reader α} {f : α → Reader β} {w : ByteArray} {a : α} {v : β}
    (h₁ : Reads x w a) (h₂ : f a = pure v) : Reads (x >>= f) w v := by
  intro pre post
  show (x.run (pre ++ w ++ post) |>.run pre.size) >>= _ = _
  rw [h₁ pre post]
  show ((f a).run (pre ++ w ++ post)).run (pre.size + w.size) = _
  rw [h₂]
  rfl

end Reads

/-- Reading a run of `w.size` bytes, failing with `f` when fewer are left. -/
theorem reads_slice (f : Fault) (w : ByteArray) :
    Reads (do
      let b ← read
      let pos ← get
      if pos + w.size > b.size then throw f
      set (pos + w.size)
      pure (b.extract pos (pos + w.size))) w w := by
  intro pre post
  have hsize : (pre ++ w ++ post).size = pre.size + w.size + post.size := by
    simp only [ByteArray.size_append]
  have hext : (pre ++ w ++ post).extract pre.size (pre.size + w.size) = w := by
    rw [← Bytes.toList_inj]
    simp [List.extract, ← Bytes.length_toList]
  have hfit : ¬ pre.size + w.size > (pre ++ w ++ post).size := by omega
  simp only [run_bind, run_read, run_get]
  rw [if_neg hfit]
  simp only [run_bind, run_set, run_pure, hext]

theorem reads_take (w : ByteArray) : Reads (take w.size) w w := reads_slice .truncated w

theorem Reads.pure {α : Type} (v : α) : Reads (pure v) ByteArray.empty v := by
  intro pre post
  rw [run_pure, ByteArray.size_empty, Nat.add_zero]

/-- Decoding reads a value back from its form, whatever bytes follow it. -/
theorem Reads.decode_append {α : Type} {r : Reader α} {w : ByteArray} {v : α} (h : Reads r w v)
    (post : ByteArray) : Wire.decode r (w ++ post) = .ok v := by
  have e := h ByteArray.empty post
  rw [ByteArray.empty_append, ByteArray.size_empty] at e
  rw [Wire.decode, e]
  rfl

theorem Reads.decode {α : Type} {r : Reader α} {w : ByteArray} {v : α} (h : Reads r w v) :
    Wire.decode r w = .ok v := by
  rw [← ByteArray.append_empty (b := w)]
  exact h.decode_append _

/-! ## Words -/

/-- Reading `w` little-endian bytes back gives the number modulo `256 ^ w`. -/
theorem toNatLE_ofNatLE (n w : Nat) : Bytes.toNatLE (Bytes.ofNatLE n w) = n % 256 ^ w := by
  induction w generalizing n with
  | zero => simp [Bytes.toNatLE, Bytes.ofNatLE, Bytes.toList_ofList, Nat.mod_one]
  | succ w ih =>
    have hrest : Bytes.ofNatLE (n / 256) w = Bytes.ofList ((List.range w).map fun i =>
        (n / Nat.pow 256 (i + 1) % 256).toUInt8) := by
      rw [Bytes.ofNatLE]
      congr 2
      funext i
      rw [Nat.pow_eq, Nat.pow_eq, pow_succ', Nat.div_div_eq_div_mul]
    have h₀ : (n / Nat.pow 256 0 % 256).toUInt8.toNat = n % 256 := by
      rw [Nat.pow_eq, pow_zero, Nat.div_one, Nat.toUInt8_eq]
      exact UInt8.toNat_ofNat_of_lt' (Nat.mod_lt _ (by omega))
    have hstep : Bytes.toNatLE (Bytes.ofNatLE n (w + 1)) =
        Bytes.toNatLE (Bytes.ofNatLE (n / 256) w) * 256 + n % 256 := by
      rw [hrest, Bytes.ofNatLE, Bytes.toNatLE, Bytes.toNatLE, Bytes.toList_ofList, Bytes.toList_ofList,
        List.range_succ_eq_map, List.map_cons, List.foldr_cons, List.map_map, h₀]
      rfl
    rw [hstep, ih, pow_succ', Nat.mod_mul]
    ring

theorem size_u64 (v : UInt64) : (u64 v).size = 8 := Bytes.size_ofNatLE _ _

/-- A fixed-width word reads back from its little-endian form, as long as
every word fits in that many bytes. -/
theorem reads_word {β : Type} (w : Nat) (ofNat : Nat → β) (toNat : β → Nat)
    (hlt : ∀ v, toNat v < 256 ^ w) (hinv : ∀ v, ofNat (toNat v) = v) (v : β) :
    Reads (take w >>= fun b => pure (ofNat (Bytes.toNatLE b))) (Bytes.ofNatLE (toNat v) w) v := by
  have h := reads_take (Bytes.ofNatLE (toNat v) w)
  rw [Bytes.size_ofNatLE] at h
  refine h.bind_pure ?_
  rw [toNatLE_ofNatLE, Nat.mod_eq_of_lt (hlt v), hinv]

theorem reads_u64 (v : UInt64) : Reads readU64 (u64 v) v :=
  reads_word 8 Nat.toUInt64 UInt64.toNat (fun v => by simpa using v.toNat_lt)
    (fun v => by rw [Nat.toUInt64_eq, UInt64.ofNat_toNat]) v

theorem reads_u32 (v : UInt32) : Reads readU32 (u32 v) v :=
  reads_word 4 Nat.toUInt32 UInt32.toNat (fun v => by simpa using v.toNat_lt)
    (fun v => by rw [Nat.toUInt32_eq, UInt32.ofNat_toNat]) v

theorem reads_i64 (t : Int64) : Reads readI64 (i64 t.toInt) t.toInt := by
  have h := reads_take (i64 t.toInt)
  rw [show (i64 t.toInt).size = 8 from Bytes.size_ofNatLE _ _] at h
  refine h.bind_pure ?_
  show pure (if Bytes.toNatLE (Bytes.ofNatLE _ 8) < Nat.pow 2 63 then _ else _) = _
  -- the word is the residue of the value modulo 2 ^ 64, read back as signed
  have hlo := Int64.le_toInt t
  have hhi := Int64.toInt_lt t
  have hM : Int.ofNat (Nat.pow 2 64) = 18446744073709551616 := rfl
  have h63 : Nat.pow 2 63 = 9223372036854775808 := rfl
  have h8 : (256 : Nat) ^ 8 = 18446744073709551616 := by norm_num
  have hres : ((t.toInt % 18446744073709551616).toNat : Int) = t.toInt % 18446744073709551616 :=
    Int.toNat_of_nonneg (Int.emod_nonneg _ (by decide))
  have hlt : (t.toInt % 18446744073709551616).toNat < 18446744073709551616 := by omega
  simp only [i64, Bytes.i64, hM]
  rw [toNatLE_ofNatLE, h8, h63, Nat.mod_eq_of_lt hlt]
  norm_num at hlo hhi
  simp only [Int.ofNat_eq_natCast]
  congr 1
  split <;> omega

theorem reads_digest (d : Digest) : Reads Digest.readWire d.bytes d := by
  have h := reads_take d.bytes
  rw [d.size_eq] at h
  refine h.bind_pure ?_
  rw [Digest.ofBytes?, dif_pos d.size_eq]

/-- A byte string shorter than `2 ^ 64` reads back after its length. -/
theorem reads_bytes (x : ByteArray) (hx : x.size < 2 ^ 64) : Reads readBytes (bytes x) x := by
  refine (reads_u64 x.size.toUInt64).bind ?_
  have hlen : x.size.toUInt64.toNat = x.size := UInt64.toNat_ofNat_of_lt' hx
  show Reads (do
    let b ← read
    let pos ← get
    if pos + x.size.toUInt64.toNat > b.size then throw Fault.truncatedRun
    set (pos + x.size.toUInt64.toNat)
    pure (b.extract pos (pos + x.size.toUInt64.toNat))) x x
  rw [hlen]
  exact reads_slice .truncatedRun x

/-- A text whose UTF-8 form decodes to it and is shorter than `2 ^ 64` reads back. -/
theorem reads_str {s : String} (hs : Utf8.decode s.toUTF8 = .ok s) (hsize : s.toUTF8.size < 2 ^ 64) :
    Reads readStr (str s) s := by
  refine (reads_bytes _ hsize).bind_pure ?_
  rw [hs]

/-! ## Addresses, sequences, transactions, blocks -/

theorem reads_address (a : Address) : Reads Address.readWire a.toWire a := by
  have hsize : a.encode.toUTF8.size < 2 ^ 64 := by
    have := Address.size_toUTF8_encode_le a
    omega
  refine (reads_str (Utf8.decode_toUTF8 _) hsize).bind_pure ?_
  show liftResult (Address.decode a.encode) = _
  rw [Address.decode_encode]
  rfl

theorem foldl_append_write {α : Type} (write : α → ByteArray) (xs : List α) (init : ByteArray) :
    xs.foldl (fun acc x => acc ++ write x) init =
      init ++ xs.foldl (fun acc x => acc ++ write x) ByteArray.empty := by
  induction xs generalizing init with
  | nil => simp
  | cons x xs ih =>
    rw [List.foldl_cons, List.foldl_cons, ih, ih (ByteArray.empty ++ write x),
      ByteArray.empty_append, ByteArray.append_assoc]

theorem reads_readManyAux {α : Type} {r : Reader α} {write : α → ByteArray} (xs : List α)
    (h : ∀ x ∈ xs, Reads r (write x) x) (acc : Array α) :
    Reads (readManyAux r xs.length acc) (xs.foldl (fun acc x => acc ++ write x) ByteArray.empty)
      (acc.toList ++ xs) := by
  induction xs generalizing acc with
  | nil =>
    rw [List.append_nil]
    exact Reads.pure acc.toList
  | cons x xs ih =>
    rw [List.foldl_cons, foldl_append_write, ByteArray.empty_append]
    have hrest := ih (fun y hy => h y (List.mem_cons_of_mem x hy)) (acc.push x)
    rw [Array.toList_push, List.append_assoc, List.singleton_append] at hrest
    exact (h x List.mem_cons_self).bind hrest

/-- A sequence of fewer than `2 ^ 64` elements, each of which reads back,
reads back after its count. -/
theorem reads_seq {α : Type} {r : Reader α} {write : α → ByteArray} (xs : List α)
    (hlen : xs.length < 2 ^ 64) (h : ∀ x ∈ xs, Reads r (write x) x) :
    Reads (readSeq r) (seq write xs) xs := by
  rw [seq, foldl_append_write]
  refine (reads_u64 _).bind ?_
  have hcount : xs.length.toUInt64.toNat = xs.length := UInt64.toNat_ofNat_of_lt' hlen
  show Reads (readMany r xs.length.toUInt64.toNat) _ xs
  rw [hcount, readMany]
  simpa using reads_readManyAux xs h #[]

theorem reads_transaction (tx : Transaction) (hdata : tx.data.size < 2 ^ 64) :
    Reads Transaction.readWire tx.toWire tx := by
  unfold Transaction.readWire Transaction.toWire
  simp only [ByteArray.append_assoc]
  refine (reads_address _).bind ?_
  refine (reads_address _).bind ?_
  refine (reads_u64 _).bind ?_
  refine (reads_u64 _).bind ?_
  refine (reads_u64 _).bind ?_
  refine (reads_u64 _).bind ?_
  refine (reads_bytes _ hdata).bind ?_
  refine (reads_i64 _).bind_pure ?_
  rw [Int64.ofInt_toInt]

theorem reads_signedTx (s : SignedTx) (hdata : s.tx.data.size < 2 ^ 64)
    (hsig : s.signature.size < 2 ^ 64) : Reads SignedTx.readWire s.toWire s := by
  unfold SignedTx.readWire SignedTx.toWire
  refine (reads_transaction _ hdata).bind ?_
  exact (reads_bytes _ hsig).bind_pure rfl

theorem reads_header (h : Header) : Reads Header.readWire h.toWire h := by
  unfold Header.readWire Header.toWire
  simp only [ByteArray.append_assoc]
  refine (reads_digest _).bind ?_
  refine (reads_digest _).bind ?_
  refine (reads_u64 _).bind ?_
  refine (reads_i64 _).bind ?_
  refine (reads_digest _).bind ?_
  refine (reads_digest _).bind ?_
  refine (reads_digest _).bind ?_
  refine (reads_u64 _).bind ?_
  refine (reads_address _).bind ?_
  refine (reads_u64 _).bind_pure ?_
  rw [Int64.ofInt_toInt]

theorem reads_account (a : Account) : Reads Account.readWire a.toWire a := by
  unfold Account.readWire Account.toWire
  refine (reads_u64 _).bind ?_
  exact (reads_u64 _).bind_pure rfl

end Wire

namespace Block

/-- The lengths that a block's wire form writes as 64-bit words fit in them:
the number of transactions, and the payload and signature of each. -/
def WireFits (b : Block) : Prop :=
  b.transactions.length < 2 ^ 64 ∧
    ∀ s ∈ b.transactions, s.tx.data.size < 2 ^ 64 ∧ s.signature.size < 2 ^ 64

theorem reads_toWire {b : Block} (h : b.WireFits) : Wire.Reads readWire b.toWire b := by
  unfold readWire toWire
  refine (Wire.reads_header _).bind ?_
  refine (Wire.reads_seq _ h.1 fun s hs => Wire.reads_signedTx s (h.2 s hs).1 (h.2 s hs).2).bind_pure ?_
  rfl

/-- A stored block record reads back as the block. -/
theorem decodeRecord_toBytes {b : Block} (h : b.WireFits) : decodeRecord readWire b.toBytes = .ok b := by
  rw [decodeRecord, toBytes, (reads_toWire h).decode]

end Block

namespace Account

theorem decodeRecord_toWire (a : Account) : decodeRecord readWire a.toWire = .ok a := by
  rw [decodeRecord, (Wire.reads_account a).decode]

end Account
end PowChain
