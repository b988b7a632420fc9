import PowChain.Proofs.Codec.RoundTrip
import PowChain.Proofs.Text.Utf8

/-!
# Readers accept only written forms

`Wire.Reads r w v` (in `RoundTrip`) says that the reader `r` reads the bytes
`w` back as `v`.  This file proves the converse for the wire readers:
whatever a reader returns, the bytes it stepped over are exactly the written
form of what it returned.  `Wire.Consumes r write` says so for every input and
every starting point, so the wire form is canonical: no two byte strings are
read as one value, and a successful read of a frame pins the frame down up to
the bytes after it.

* `consumes_word` for the little-endian words, `consumes_bytes`,
  `consumes_str` (text is read only from its own UTF-8 form),
  `consumes_digest`, `consumes_seq` for counted sequences;
* `Consumes.map` and `Consumes.seq` for readers that read their fields one
  after another and build the value from them.
-/

namespace PowChain
namespace Wire

section Run

variable {α β : Type}

theorem run_bind_eq_ok {x : Reader α} {f : α → Reader β} {b : ByteArray} {pos p : Nat} {v : β}
    (h : ((x >>= f).run b).run pos = .ok (v, p)) :
    ∃ a q, (x.run b).run pos = .ok (a, q) ∧ ((f a).run b).run q = .ok (v, p) := by
  rw [run_bind] at h
  rcases hx : (x.run b).run pos with e | ⟨a, q⟩ <;> rw [hx] at h
  · cases h
  · exact ⟨a, q, rfl, h⟩

theorem run_map_eq_ok {x : Reader α} {g : α → β} {b : ByteArray} {pos p : Nat} {v : β}
    (h : ((x >>= fun a => pure (g a)).run b).run pos = .ok (v, p)) :
    ∃ a, (x.run b).run pos = .ok (a, p) ∧ v = g a := by
  obtain ⟨a, q, hx, hg⟩ := run_bind_eq_ok h
  rw [run_pure] at hg
  cases hg
  exact ⟨a, hx, rfl⟩

theorem decode_eq_ok {r : Reader α} {b : ByteArray} {v : α} (h : decode r b = .ok v) :
    ∃ p, (r.run b).run 0 = .ok (v, p) := by
  unfold decode at h
  rcases hr : (r.run b).run 0 with e | ⟨a, p⟩ <;> rw [hr] at h
  · cases h
  · cases h
    exact ⟨p, rfl⟩

end Run

/-- Whatever `r` reads, it reads from the written form of the value: started
right after `pre`, it returns `v` only when what follows `pre` opens with
`write v`, and it stops right after those bytes. -/
def Consumes {α : Type} (r : Reader α) (write : α → ByteArray) : Prop :=
  ∀ (pre rest : ByteArray) (v : α) (pos : Nat), (r.run (pre ++ rest)).run pre.size = .ok (v, pos) →
    ∃ post, rest = write v ++ post ∧ pos = pre.size + (write v).size

namespace Consumes

variable {α β γ : Type}

/-- A reader that builds its value from one field consumes that field's form. -/
theorem map {x : Reader α} {g : α → β} {wx : α → ByteArray} {w : β → ByteArray}
    (hx : Consumes x wx) (hw : ∀ a, w (g a) = wx a) : Consumes (x >>= fun a => pure (g a)) w := by
  intro pre rest v pos h
  obtain ⟨a, hxa, rfl⟩ := run_map_eq_ok h
  rw [hw]
  exact hx pre rest a pos hxa

/-- A reader of two fields in a row consumes the first field's form, then the
second's. -/
theorem seq {x : Reader α} {y : Reader β} {g : α → β → γ} {wx : α → ByteArray} {wy : β → ByteArray}
    {w : γ → ByteArray} (hx : Consumes x wx) (hy : Consumes y wy) (hw : ∀ a b, w (g a b) = wx a ++ wy b) :
    Consumes (x >>= fun a => y >>= fun b => pure (g a b)) w := by
  intro pre rest v pos h
  obtain ⟨a, q, hxa, hrest⟩ := run_bind_eq_ok h
  obtain ⟨b, hyb, rfl⟩ := run_map_eq_ok hrest
  obtain ⟨post₁, rfl, rfl⟩ := hx pre rest a q hxa
  -- the second field is read with the first one's form added to what went before
  rw [← ByteArray.append_assoc, show pre.size + (wx a).size = (pre ++ wx a).size from
    (ByteArray.size_append ..).symm] at hyb
  obtain ⟨post₂, rfl, rfl⟩ := hy (pre ++ wx a) post₁ b pos hyb
  refine ⟨post₂, by rw [hw, ByteArray.append_assoc], ?_⟩
  rw [hw, ByteArray.size_append, ByteArray.size_append, Nat.add_assoc]

end Consumes

/-! ## Runs of bytes -/

theorem extract_append_size (pre rest : ByteArray) (n : Nat) :
    (pre ++ rest).extract pre.size (pre.size + n) = rest.extract 0 n := by
  apply Bytes.toList_inj.mp
  simp [List.extract_eq_take_drop, ← Bytes.length_toList]

/-- Reading a run of `n` bytes: it succeeds only when `n` bytes are left, and
returns them. -/
theorem run_slice_eq_ok {f : Fault} {n : Nat} {pre rest v : ByteArray} {pos : Nat}
    (h : ((do
      let b ← read
      let pos ← get
      if pos + n > b.size then throw f
      set (pos + n)
      pure (b.extract pos (pos + n)) : Reader ByteArray).run (pre ++ rest)).run pre.size = .ok (v, pos)) :
    v.size = n ∧ rest = v ++ rest.extract n rest.size ∧ pos = pre.size + n := by
  simp only [run_bind, run_read, run_get] at h
  split at h
  · cases h
  · rename_i hfit
    simp only [run_bind, run_set, run_pure, Except.ok.injEq, Prod.mk.injEq] at h
    obtain ⟨rfl, rfl⟩ := h
    rw [extract_append_size]
    have hn : n ≤ rest.size := by rw [ByteArray.size_append] at hfit; omega
    refine ⟨by simp [ByteArray.size_extract]; omega, ?_, rfl⟩
    rw [ByteArray.extract_append_extract, Nat.zero_min, Nat.max_eq_right hn,
      ByteArray.extract_zero_size]

theorem run_take_eq_ok {n : Nat} {pre rest v : ByteArray} {pos : Nat}
    (h : ((take n).run (pre ++ rest)).run pre.size = .ok (v, pos)) :
    v.size = n ∧ ∃ post, rest = v ++ post ∧ pos = pre.size + v.size := by
  obtain ⟨hv, hrest, hpos⟩ := run_slice_eq_ok h
  exact ⟨hv, _, hrest, hv ▸ hpos⟩

/-! ## Words -/

theorem toNatLE_lt_list (l : List UInt8) : l.foldr (fun x acc => acc * 256 + x.toNat) 0 < 256 ^ l.length := by
  induction l with
  | nil => simp
  | cons b l ih =>
    have hb := b.toNat_lt
    rw [List.foldr_cons, List.length_cons, pow_succ]
    omega

theorem toNatLE_lt (x : ByteArray) : Bytes.toNatLE x < 256 ^ x.size := by
  rw [Bytes.toNatLE, ← Bytes.length_toList]
  exact toNatLE_lt_list _

/-- The digits of a little-endian number, least significant first, are its bytes. -/
theorem digits_toNatLE_list (l : List UInt8) :
    (List.range l.length).map (fun i => (l.foldr (fun x acc => acc * 256 + x.toNat) 0 /
      Nat.pow 256 i % 256).toUInt8) = l := by
  induction l with
  | nil => rfl
  | cons b l ih =>
    have hb := b.toNat_lt
    rw [List.length_cons, List.range_succ_eq_map, List.map_cons, List.map_map]
    congr 1
    · have hmod : ∀ N : Nat, (N * 256 + b.toNat) % 256 = b.toNat := fun N => by omega
      rw [List.foldr_cons, Nat.pow_eq, pow_zero, Nat.div_one, hmod, Nat.toUInt8_eq, UInt8.ofNat_toNat]
    · conv_rhs => rw [← ih]
      apply List.map_congr_left
      intro i _
      -- one more digit: dividing by `256 ^ (i + 1)` drops the first byte
      rw [Function.comp_apply, List.foldr_cons, Nat.pow_eq, Nat.pow_eq, pow_succ', ← Nat.div_div_eq_div_mul,
        Nat.add_comm, Nat.add_mul_div_right _ _ (by omega), Nat.div_eq_of_lt hb, Nat.zero_add]

theorem ofNatLE_toNatLE (x : ByteArray) : Bytes.ofNatLE (Bytes.toNatLE x) x.size = x := by
  apply Bytes.toList_inj.mp
  rw [Bytes.ofNatLE, Bytes.toList_ofList, Bytes.toNatLE, ← Bytes.length_toList]
  exact digits_toNatLE_list _

/-- A fixed-width word reads only from its own little-endian form, as long as
the word type holds every number of that many bytes. -/
theorem consumes_word {β : Type} (w : Nat) (ofNat : Nat → β) (toNat : β → Nat)
    (h : ∀ n < 256 ^ w, toNat (ofNat n) = n) :
    Consumes (take w >>= fun b => pure (ofNat (Bytes.toNatLE b))) fun v => Bytes.ofNatLE (toNat v) w := by
  intro pre rest v pos hrun
  obtain ⟨x, hx, rfl⟩ := run_map_eq_ok hrun
  obtain ⟨hsize, post, rfl, rfl⟩ := run_take_eq_ok hx
  have hword : Bytes.ofNatLE (toNat (ofNat (Bytes.toNatLE x))) w = x := by
    rw [h _ (hsize ▸ toNatLE_lt x), ← hsize, ofNatLE_toNatLE]
  refine ⟨post, ?_, ?_⟩ <;> dsimp only <;> rw [hword]

theorem consumes_u32 : Consumes readU32 u32 :=
  consumes_word 4 Nat.toUInt32 UInt32.toNat fun n hn => UInt32.toNat_ofNat_of_lt' (by simpa using hn)

theorem consumes_u64 : Consumes readU64 u64 :=
  consumes_word 8 Nat.toUInt64 UInt64.toNat fun n hn => UInt64.toNat_ofNat_of_lt' (by simpa using hn)

/-! ## Byte strings and texts -/

/-- A byte string is read only after its own length. -/
theorem consumes_bytes : Consumes readBytes bytes := by
  intro pre rest v pos h
  obtain ⟨len, q, hlen, hrun⟩ := run_bind_eq_ok h
  obtain ⟨post₁, rfl, rfl⟩ := consumes_u64 pre rest len q hlen
  rw [← ByteArray.append_assoc, show pre.size + (u64 len).size = (pre ++ u64 len).size from
    (ByteArray.size_append ..).symm] at hrun
  obtain ⟨hv, hpost, rfl⟩ := run_slice_eq_ok hrun
  -- the length word is the size of the run read after it
  have hword : v.size.toUInt64 = len := by rw [hv, Nat.toUInt64_eq, UInt64.ofNat_toNat]
  refine ⟨post₁.extract len.toNat post₁.size, ?_, ?_⟩
  · rw [bytes, hword, ByteArray.append_assoc, ← hpost]
  · rw [bytes, hword, ByteArray.size_append, ByteArray.size_append, hv, Nat.add_assoc]

/-- A text is read only from its own UTF-8 form. -/
theorem consumes_str : Consumes readStr str := by
  intro pre rest v pos h
  obtain ⟨raw, q, hraw, hdec⟩ := run_bind_eq_ok h
  split at hdec
  · rename_i s hs
    rw [run_pure] at hdec
    cases hdec
    rw [str, ← Utf8.eq_toUTF8_of_decode hs]
    exact consumes_bytes pre rest raw pos hraw
  · cases hdec

theorem consumes_digest : Consumes Digest.readWire Digest.bytes := by
  intro pre rest v pos h
  obtain ⟨x, q, hx, hd⟩ := run_bind_eq_ok h
  obtain ⟨hsize, post, rfl, rfl⟩ := run_take_eq_ok hx
  rw [Digest.ofBytes?, dif_pos hsize, run_pure] at hd
  cases hd
  exact ⟨post, rfl, rfl⟩

/-! ## Sequences -/

/-- Reading `k` more elements consumes the written forms of `k` elements, one
after another. -/
theorem run_readManyAux_eq_ok {α : Type} {r : Reader α} {write : α → ByteArray} (hr : Consumes r write)
    (k : Nat) (acc : Array α) (pre rest : ByteArray) (v : List α) (pos : Nat)
    (h : ((readManyAux r k acc).run (pre ++ rest)).run pre.size = .ok (v, pos)) :
    ∃ xs post, xs.length = k ∧ v = acc.toList ++ xs ∧
      rest = xs.foldl (fun a x => a ++ write x) ByteArray.empty ++ post ∧
      pos = pre.size + (xs.foldl (fun a x => a ++ write x) ByteArray.empty).size := by
  induction k generalizing acc pre rest with
  | zero =>
    rw [readManyAux, run_pure] at h
    cases h
    exact ⟨[], rest, rfl, by simp, by simp, by simp⟩
  | succ k ih =>
    rw [readManyAux] at h
    obtain ⟨x, q, hx, hrest⟩ := run_bind_eq_ok h
    obtain ⟨post₁, rfl, rfl⟩ := hr pre rest x q hx
    rw [← ByteArray.append_assoc, show pre.size + (write x).size = (pre ++ write x).size from
      (ByteArray.size_append ..).symm] at hrest
    obtain ⟨xs, post, hlen, rfl, rfl, rfl⟩ := ih (acc.push x) (pre ++ write x) post₁ hrest
    refine ⟨x :: xs, post, by rw [List.length_cons, hlen], by simp, ?_, ?_⟩
    · rw [List.foldl_cons, foldl_append_write write xs (ByteArray.empty ++ write x), ByteArray.empty_append,
        ByteArray.append_assoc]
    · rw [List.foldl_cons, foldl_append_write write xs (ByteArray.empty ++ write x), ByteArray.empty_append,
        ByteArray.size_append, ByteArray.size_append, Nat.add_assoc]

/-- A sequence is read only after its own element count, each element from
its written form. -/
theorem consumes_seq {α : Type} {r : Reader α} {write : α → ByteArray} (hr : Consumes r write) :
    Consumes (readSeq r) (seq write) := by
  intro pre rest v pos h
  obtain ⟨count, q, hcount, hrun⟩ := run_bind_eq_ok h
  obtain ⟨post₁, rfl, rfl⟩ := consumes_u64 pre rest count q hcount
  rw [← ByteArray.append_assoc, show pre.size + (u64 count).size = (pre ++ u64 count).size from
    (ByteArray.size_append ..).symm] at hrun
  obtain ⟨xs, post, hlen, hv, rfl, rfl⟩ := run_readManyAux_eq_ok hr _ #[] _ _ v pos hrun
  simp only [List.nil_append] at hv
  subst hv
  -- the count word is the number of elements read after it
  have hword : v.length.toUInt64 = count := by rw [hlen, Nat.toUInt64_eq, UInt64.ofNat_toNat]
  refine ⟨post, ?_, ?_⟩
  · rw [seq, foldl_append_write write v (u64 _), hword, ByteArray.append_assoc]
  · rw [seq, foldl_append_write write v (u64 _), hword, ByteArray.size_append, ByteArray.size_append,
      Nat.add_assoc]

end Wire
end PowChain
