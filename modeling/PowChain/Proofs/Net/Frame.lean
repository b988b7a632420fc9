import PowChain.Net.Message
import PowChain.Proofs.Codec.Consumes

/-!
# Message frames

A frame is the command's tag padded with zeros to twelve bytes, the protocol
version byte, then the wire form of the sender's address text and of the
payload.  This file shows that framing is a bijection up to trailing bytes:

* `Message.decode_frame_append`: a frame decodes to its message whatever
  bytes follow it, within the size limit;
* `Message.eq_frame_of_decode`: whatever `decode` accepts is the frame of the
  message it returns, followed by bytes that decoding ignores;
* `Message.onlyProtocolErrors_decode`: every refusal is a protocol error;
* `Message.frames_round_trip` puts the three together with `encode`.

The two directions rest on the wire readers' round trip (`Wire.Reads`) and
its converse (`Wire.Consumes`), and on the tag field being read only from a
command's own padded tag (`Command.eq_toBytes_of_ofBytes`).
-/

namespace PowChain
namespace Wire

/-! ## Sizes of sequences -/

theorem size_foldl_append {α : Type} (write : α → ByteArray) (xs : List α) :
    (xs.foldl (fun acc x => acc ++ write x) ByteArray.empty).size = (xs.map fun x => (write x).size).sum := by
  induction xs with
  | nil => rfl
  | cons x xs ih =>
    rw [List.foldl_cons, foldl_append_write write xs, ByteArray.size_append, ih, ByteArray.empty_append,
      List.map_cons, List.sum_cons]

theorem size_seq {α : Type} (write : α → ByteArray) (xs : List α) :
    (seq write xs).size = 8 + (xs.map fun x => (write x).size).sum := by
  rw [seq, foldl_append_write, ByteArray.size_append, size_u64, size_foldl_append]

theorem size_le_size_seq {α : Type} {write : α → ByteArray} {xs : List α} {x : α} (hx : x ∈ xs) :
    (write x).size ≤ (seq write xs).size := by
  have hle := List.le_sum_of_mem (List.mem_map_of_mem (f := fun x => (write x).size) hx)
  rw [size_seq]
  omega

/-- Elements that are never written empty are at most as many as the bytes
of their sequence. -/
theorem length_le_size_seq {α : Type} {write : α → ByteArray} {xs : List α}
    (h : ∀ x ∈ xs, 1 ≤ (write x).size) : xs.length ≤ (seq write xs).size := by
  have hle := List.length_le_sum_of_one_le (xs.map fun x => (write x).size) (by simpa using h)
  rw [List.length_map] at hle
  rw [size_seq]
  omega

end Wire

namespace Net

/-! ## Refusals -/

/-- Every failure of `r` is a protocol error. -/
def OnlyProtocolErrors {α : Type} (r : Result α) : Prop := ∀ e, r = .error e → ∃ msg, e = .protocol msg

section OnlyProtocolErrors

variable {α β : Type}

@[simp] theorem onlyProtocolErrors_pure (a : α) : OnlyProtocolErrors (pure a : Result α) := fun _ h => nomatch h

@[simp] theorem onlyProtocolErrors_throw (msg : String) :
    OnlyProtocolErrors (throw (.protocol msg) : Result α) := fun _ h => by
  cases h
  exact ⟨msg, rfl⟩

@[simp] theorem onlyProtocolErrors_bind {x : Result α} {f : α → Result β} :
    OnlyProtocolErrors (x >>= f) ↔ OnlyProtocolErrors x ∧ ∀ a, x = .ok a → OnlyProtocolErrors (f a) := by
  cases x with
  | error e => simp [bind, Except.bind, OnlyProtocolErrors]
  | ok a => simp [bind, Except.bind, OnlyProtocolErrors]

/-- A check that refuses with a protocol error passes its refusals on. -/
@[simp] theorem onlyProtocolErrors_guard {c : Prop} [Decidable c] {msg : String} {f : β → Result α}
    {y : Result α} :
    OnlyProtocolErrors (if c then throw (.protocol msg) >>= f else y) ↔ (¬ c → OnlyProtocolErrors y) := by
  by_cases hc : c
  · simp only [hc, if_true, not_true_eq_false, false_implies, iff_true]
    exact onlyProtocolErrors_throw msg
  · simp only [hc, if_false, not_false_eq_true, forall_const]

end OnlyProtocolErrors

/-! ## Command tags -/

namespace Command

theorem ofBytes_toBytes (c : Command) : ofBytes c.toBytes = .ok c := by
  cases c <;> decide +kernel

/-- Every tag fits the command field and has no zero byte, so the padding
after it is where the first zero byte stands. -/
theorem tag_fits (c : Command) :
    c.tag.toUTF8.size ≤ commandLength ∧ ∀ x ∈ c.tag.toUTF8.toList, x ≠ 0 := by
  cases c <;> decide +kernel

theorem toList_toBytes (c : Command) :
    c.toBytes.toList = c.tag.toUTF8.toList ++ List.replicate (commandLength - c.tag.toUTF8.size) 0 := by
  have hsize : c.tag.utf8ByteSize = c.tag.toUTF8.size := by
    rw [String.toUTF8_eq_toByteArray, String.size_toByteArray]
  rw [toBytes, Bytes.toList_append, hsize]
  simp [Bytes.replicate, Bytes.toList_eq_data]

theorem size_toBytes (c : Command) : c.toBytes.size = commandLength := by
  rw [← Bytes.length_toList, toList_toBytes, List.length_append, List.length_replicate,
    Bytes.length_toList]
  have := (tag_fits c).1
  omega

/-- The tag field is read only from a command's own padded tag: the bytes
before the first zero are the tag, and every byte after it is zero. -/
theorem eq_toBytes_of_ofBytes {b : ByteArray} {c : Command} (h : ofBytes b = .ok c) : b = c.toBytes := by
  unfold ofBytes at h
  simp only [bind, Except.bind, pure, Except.pure] at h
  split_ifs at h with hsize hpad
  split at h
  · rename_i c' hfind
    simp only [Except.ok.injEq] at h
    subst h
    have hsize' : b.size = commandLength := by simpa using hsize
    have hname : c'.tag.toUTF8.toList = b.toList.takeWhile (· != 0) := by
      simpa using List.find?_some hfind
    -- the bytes are the name, then zeros up to the field's length
    have hpad' : ∀ x ∈ b.toList.drop c'.tag.toUTF8.toList.length, x = 0 := by
      rw [hname]
      simpa using hpad
    have hzero : b.toList.drop c'.tag.toUTF8.toList.length =
        List.replicate (commandLength - c'.tag.toUTF8.size) 0 := by
      refine List.eq_replicate_iff.mpr ⟨?_, hpad'⟩
      rw [List.length_drop, Bytes.length_toList, Bytes.length_toList, hsize']
    apply Bytes.toList_inj.mp
    rw [toList_toBytes, ← hzero, hname]
    exact (List.prefix_iff_eq_append.mp (List.takeWhile_prefix _)).symm
  · cases h

theorem onlyProtocolErrors_ofBytes (b : ByteArray) : OnlyProtocolErrors (ofBytes b) := by
  unfold ofBytes
  simp only [onlyProtocolErrors_guard]
  intro _ _
  split <;> simp

end Command

/-! ## Payloads -/

namespace InvKind

theorem reads_toWire (k : InvKind) : Wire.Reads readWire k.toWire k := by
  cases k
  · exact Wire.Reads.bind_pure (a := 0) ((Wire.reads_u32 0).bind_pure rfl) rfl
  · exact Wire.Reads.bind_pure (a := 1) ((Wire.reads_u32 1).bind_pure rfl) rfl

/-- A kind is read only from its own variant index. -/
theorem consumes_readWire : Wire.Consumes readWire toWire := by
  intro pre rest v pos h
  obtain ⟨i, hi, rfl⟩ := Wire.run_map_eq_ok h
  obtain ⟨w, q, hw, hv⟩ := Wire.run_bind_eq_ok hi
  dsimp only at hv
  split at hv
  · rename_i hlt
    rw [Wire.run_pure] at hv
    cases hv
    obtain ⟨post, rfl, rfl⟩ := Wire.consumes_u32 pre rest w pos hw
    -- the index is 0 or 1, and each names its kind
    have hw' : w = 0 ∨ w = 1 := by
      rcases (by omega : w.toNat = 0 ∨ w.toNat = 1) with h0 | h1
      · exact .inl (UInt32.toNat_inj.mp h0)
      · exact .inr (UInt32.toNat_inj.mp h1)
    rcases hw' with rfl | rfl <;> exact ⟨post, rfl, rfl⟩
  · cases hv

end InvKind

namespace Payload

/-- A payload whose wire form is shorter than `2 ^ 64` bytes reads back under
its own command. -/
theorem reads_toWire (p : Payload) (hp : p.toWire.size < 2 ^ 64) : Wire.Reads (readWire p.command) p.toWire p := by
  cases p with
  | version h => exact (Wire.reads_u64 h).bind_pure rfl
  | addr peers =>
    -- every text is at least its eight-byte length, so the count fits too
    have hlen : peers.length < 2 ^ 64 :=
      lt_of_le_of_lt (Wire.length_le_size_seq fun s _ => by
        simp only [Wire.str, Wire.bytes, ByteArray.size_append, Wire.size_u64]; omega) hp
    refine (Wire.reads_seq peers hlen fun s hs => Wire.reads_str (Utf8.decode_toUTF8 s) ?_).bind_pure rfl
    have hle : (Wire.str s).size ≤ (Wire.seq Wire.str peers).size := Wire.size_le_size_seq hs
    have hp' : (Wire.seq Wire.str peers).size < 2 ^ 64 := hp
    simp only [Wire.str, Wire.bytes, ByteArray.size_append, Wire.size_u64] at hle
    omega
  | getBlocks => exact Wire.Reads.pure _
  | inv k items =>
    have hlen : items.length < 2 ^ 64 :=
      lt_of_le_of_lt ((show items.length ≤ (Wire.seq (fun d : Digest => d.bytes) items).size from
        Wire.length_le_size_seq fun d _ => by rw [d.size_eq]; omega).trans
        (by simp only [toWire, ByteArray.size_append]; omega)) hp
    exact (InvKind.reads_toWire k).bind
      ((Wire.reads_seq items hlen fun d _ => Wire.reads_digest d).bind_pure rfl)
  | getData k id => exact (InvKind.reads_toWire k).bind ((Wire.reads_digest id).bind_pure rfl)
  | block b =>
    refine (Wire.reads_bytes b ?_).bind_pure rfl
    simp only [toWire, Wire.bytes, ByteArray.size_append] at hp
    omega
  | tx b =>
    refine (Wire.reads_bytes b ?_).bind_pure rfl
    simp only [toWire, Wire.bytes, ByteArray.size_append] at hp
    omega

/-- Each command's payload is read only from a payload's wire form. -/
theorem consumes_readWire (c : Command) : Wire.Consumes (readWire c) toWire := by
  cases c
  · exact Wire.consumes_u64.map fun _ => rfl
  · exact (Wire.consumes_seq Wire.consumes_str).map fun _ => rfl
  · intro pre rest v pos h
    cases h
    exact ⟨rest, by rw [toWire, ByteArray.empty_append], by rw [toWire, ByteArray.size_empty, Nat.add_zero]⟩
  · exact InvKind.consumes_readWire.seq (Wire.consumes_seq Wire.consumes_digest) fun _ _ => rfl
  · exact InvKind.consumes_readWire.seq Wire.consumes_digest fun _ _ => rfl
  · exact Wire.consumes_bytes.map fun _ => rfl
  · exact Wire.consumes_bytes.map fun _ => rfl

/-- What a command's reader returns is a payload of that command. -/
theorem command_of_readWire {c : Command} {b : ByteArray} {pos p : Nat} {v : Payload}
    (h : ((readWire c).run b).run pos = .ok (v, p)) : v.command = c := by
  cases c
  · obtain ⟨_, _, rfl⟩ := Wire.run_map_eq_ok h; rfl
  · obtain ⟨_, _, rfl⟩ := Wire.run_map_eq_ok h; rfl
  · cases h; rfl
  · obtain ⟨_, _, _, hrest⟩ := Wire.run_bind_eq_ok h
    obtain ⟨_, _, rfl⟩ := Wire.run_map_eq_ok hrest; rfl
  · obtain ⟨_, _, _, hrest⟩ := Wire.run_bind_eq_ok h
    obtain ⟨_, _, rfl⟩ := Wire.run_map_eq_ok hrest; rfl
  · obtain ⟨_, _, rfl⟩ := Wire.run_map_eq_ok h; rfl
  · obtain ⟨_, _, rfl⟩ := Wire.run_map_eq_ok h; rfl

end Payload

/-! ## Frames -/

namespace Message

theorem encode_eq_ok_iff {m : Message} {b : ByteArray} :
    m.encode = .ok b ↔
      b = m.command.toBytes.push protocolVersion ++ Wire.str m.sender ++ m.payload.toWire ∧
        b.size ≤ maxMessageSize := by
  unfold encode
  simp only [bind, Except.bind, pure, Except.pure]
  split_ifs with h
  · simp only [false_iff, not_and]
    rintro rfl
    omega
  · simp only [Except.ok.injEq]
    constructor
    · rintro rfl
      exact ⟨rfl, by omega⟩
    · rintro ⟨rfl, -⟩
      rfl

/-- The bytes of a frame past its header: the sender, then the payload. -/
def bodyReader (c : Command) : Wire.Reader Message := do
  let sender ← Wire.readStr
  pure ⟨sender, ← Payload.readWire c⟩

theorem consumes_bodyReader (c : Command) :
    Wire.Consumes (bodyReader c) fun m => Wire.str m.sender ++ m.payload.toWire :=
  Wire.consumes_str.seq (Payload.consumes_readWire c) fun _ _ => rfl

/-- A frame splits at its header: the tag field, the version byte, the body. -/
theorem eq_header_append (b : ByteArray) (h : commandLength + 1 ≤ b.size) :
    b = (b.extract 0 commandLength).push (Bytes.getD b commandLength) ++
      b.extract (commandLength + 1) b.size := by
  apply Bytes.toList_inj.mp
  have hlt : commandLength < b.toList.length := by rw [Bytes.length_toList]; omega
  have hget : Bytes.getD b commandLength = b.toList[commandLength] := by
    rw [Bytes.getD_eq_getD_toList, List.getD_eq_getElem _ _ hlt]
  rw [Bytes.toList_append, Bytes.toList_push, Bytes.toList_extract, Bytes.toList_extract, hget,
    List.extract_eq_take_drop, List.extract_eq_take_drop, Nat.sub_zero, List.drop_zero, List.append_assoc,
    List.singleton_append, List.take_of_length_le (l := List.drop (commandLength + 1) b.toList) (by simp),
    List.getElem_cons_drop, List.take_append_drop]

/-- The header of a frame built from a tag, a version byte and a body gives
them back. -/
theorem header_parts (c : Command) (v : UInt8) (body : ByteArray) :
    (c.toBytes.push v ++ body).extract 0 commandLength = c.toBytes ∧
      Bytes.getD (c.toBytes.push v ++ body) commandLength = v ∧
      (c.toBytes.push v ++ body).extract (commandLength + 1) (c.toBytes.push v ++ body).size = body := by
  have hlen : c.toBytes.toList.length = commandLength := by rw [Bytes.length_toList, c.size_toBytes]
  refine ⟨?_, ?_, ?_⟩
  · apply Bytes.toList_inj.mp
    rw [Bytes.toList_extract, Bytes.toList_append, Bytes.toList_push, List.extract_eq_take_drop, List.drop_zero,
      Nat.sub_zero, List.append_assoc]
    exact List.take_left' hlen
  · rw [Bytes.getD_eq_getD_toList, Bytes.toList_append, Bytes.toList_push, List.append_assoc,
      List.getD_append_right _ _ _ _ hlen.le, hlen, Nat.sub_self]
    rfl
  · apply Bytes.toList_inj.mp
    have hhead : (c.toBytes.toList ++ [v]).length = commandLength + 1 := by
      rw [List.length_append, hlen, List.length_singleton]
    rw [Bytes.toList_extract, Bytes.toList_append, Bytes.toList_push, List.extract_eq_take_drop,
      List.drop_left' hhead, List.take_of_length_le (by
        simp only [Bytes.length_toList, ByteArray.size_append, ByteArray.size_push, Command.size_toBytes]; omega)]

theorem onlyProtocolErrors_decode (b : ByteArray) : OnlyProtocolErrors (decode b) := by
  unfold decode
  simp only [onlyProtocolErrors_guard, onlyProtocolErrors_bind, Command.onlyProtocolErrors_ofBytes, true_and]
  intro _ _ _ _ _
  split <;> simp

/-- A frame decodes to its message whatever bytes follow it, as long as the
whole stays within the size limit. -/
theorem decode_frame_append (m : Message) (post : ByteArray)
    (hsize : (m.command.toBytes.push protocolVersion ++ Wire.str m.sender ++ m.payload.toWire ++ post).size ≤
      maxMessageSize) :
    decode (m.command.toBytes.push protocolVersion ++ Wire.str m.sender ++ m.payload.toWire ++ post) = .ok m := by
  have hassoc : m.command.toBytes.push protocolVersion ++ Wire.str m.sender ++ m.payload.toWire ++ post =
      m.command.toBytes.push protocolVersion ++ (Wire.str m.sender ++ m.payload.toWire ++ post) := by
    simp only [ByteArray.append_assoc]
  rw [hassoc] at hsize ⊢
  obtain ⟨htag, hver, hbody⟩ := header_parts m.command protocolVersion (Wire.str m.sender ++ m.payload.toWire ++ post)
  have hsizes := hsize
  simp only [ByteArray.size_append, ByteArray.size_push, Command.size_toBytes, Wire.str, Wire.bytes,
    Wire.size_u64] at hsizes
  have hmax : maxMessageSize = 33554432 := rfl
  have hlen : commandLength = 12 := rfl
  -- both fields are far shorter than their 64-bit lengths allow
  have hread : Wire.decode (bodyReader m.command) (Wire.str m.sender ++ m.payload.toWire ++ post) = .ok m :=
    Wire.Reads.decode_append ((Wire.reads_str (Utf8.decode_toUTF8 m.sender) (by omega)).bind
      (Wire.Reads.bind_pure (f := fun p => pure (⟨m.sender, p⟩ : Message))
        (Payload.reads_toWire m.payload (by omega)) rfl)) post
  unfold decode
  simp only [bind, Except.bind, pure, Except.pure]
  rw [if_neg (by omega), if_neg (by rw [ByteArray.size_append, ByteArray.size_push, Command.size_toBytes]; omega),
    htag, Command.ofBytes_toBytes]
  simp only [hver, bne_self_eq_false, Bool.false_eq_true, if_false, hbody]
  split
  · rename_i m' hm
    cases hread.symm.trans hm
    rfl
  · rename_i f hf
    cases hread.symm.trans hf

/-- A frame that `encode` gives decodes to its message. -/
theorem decode_of_encode {m : Message} {b : ByteArray} (h : m.encode = .ok b) : decode b = .ok m := by
  obtain ⟨rfl, hsize⟩ := encode_eq_ok_iff.mp h
  have hframe := decode_frame_append m ByteArray.empty (by rwa [ByteArray.append_empty])
  rwa [ByteArray.append_empty] at hframe

/-- Whatever `decode` accepts is within the size limit and is the frame of
the message it returns, followed by bytes that decoding ignores. -/
theorem eq_frame_of_decode {b : ByteArray} {m : Message} (h : decode b = .ok m) :
    b.size ≤ maxMessageSize ∧
      ∃ post, b = m.command.toBytes.push protocolVersion ++ Wire.str m.sender ++ m.payload.toWire ++ post := by
  unfold decode at h
  simp only [bind, Except.bind, pure, Except.pure] at h
  split_ifs at h with hmax hhead hver
  · -- a wrong version byte is refused
    cases hc : Command.ofBytes (b.extract 0 commandLength) <;> rw [hc] at h <;> cases h
  obtain ⟨c, hc⟩ : ∃ c, Command.ofBytes (b.extract 0 commandLength) = .ok c := by
    cases hc : Command.ofBytes (b.extract 0 commandLength) with
    | error e => rw [hc] at h; cases h
    | ok c => exact ⟨c, rfl⟩
  rw [hc] at h
  dsimp only at h
  -- the body is the sender and a payload of the tag's command, then bytes left over
  have hm' : Wire.decode (bodyReader c) (b.extract (commandLength + 1) b.size) = .ok m := by
    split at h
    · rename_i m' hm
      cases h
      exact hm
    · cases h
  obtain ⟨p, hrun⟩ := Wire.decode_eq_ok hm'
  have hcmd : m.payload.command = c := by
    obtain ⟨_, _, _, hrest⟩ := Wire.run_bind_eq_ok hrun
    obtain ⟨_, hpay, rfl⟩ := Wire.run_map_eq_ok hrest
    exact Payload.command_of_readWire hpay
  obtain ⟨post, hbody, -⟩ := consumes_bodyReader c ByteArray.empty _ m p
    (by rwa [ByteArray.empty_append, ByteArray.size_empty])
  refine ⟨by omega, post, ?_⟩
  have hver' : Bytes.getD b commandLength = protocolVersion := by simpa using hver
  rw [eq_header_append b (by omega), Command.eq_toBytes_of_ofBytes hc, hver', hbody, ← hcmd]
  simp only [ByteArray.append_assoc]
  rfl

/-- Framing round-trips: an encoded message decodes to itself, its frame is
the padded tag, the version byte, the sender and the payload; `decode`
accepts exactly the frames within the size limit followed by any bytes; and
every refusal is a protocol error. -/
theorem frames_round_trip :
    (∀ (m : Message) (b : ByteArray), m.encode = .ok b →
      decode b = .ok m ∧
        b = m.command.toBytes.push protocolVersion ++ Wire.str m.sender ++ m.payload.toWire ∧
        m.command.toBytes.toList =
          m.command.tag.toUTF8.toList ++ List.replicate (commandLength - m.command.tag.toUTF8.size) 0 ∧
        m.command.tag.toUTF8.size ≤ commandLength ∧ ∀ x ∈ m.command.tag.toUTF8.toList, x ≠ 0) ∧
    (∀ (b : ByteArray) (m : Message), decode b = .ok m ↔
      b.size ≤ maxMessageSize ∧ ∃ frame post, m.encode = .ok frame ∧ b = frame ++ post) ∧
    (∀ (b : ByteArray) (e : LedgerError), decode b = .error e → ∃ msg, e = .protocol msg) := by
  refine ⟨fun m b h => ?_, fun b m => ⟨fun h => ?_, fun ⟨hsize, frame, post, henc, hb⟩ => ?_⟩,
    fun b => onlyProtocolErrors_decode b⟩
  · obtain ⟨rfl, hsize⟩ := encode_eq_ok_iff.mp h
    refine ⟨?_, rfl, Command.toList_toBytes _, Command.tag_fits _⟩
    have hdec := decode_frame_append m ByteArray.empty (by rwa [ByteArray.append_empty])
    rwa [ByteArray.append_empty] at hdec
  · obtain ⟨hsize, post, hb⟩ := eq_frame_of_decode h
    refine ⟨hsize, _, post, encode_eq_ok_iff.mpr ⟨rfl, ?_⟩, hb⟩
    rw [hb, ByteArray.size_append] at hsize
    omega
  · obtain ⟨rfl, -⟩ := encode_eq_ok_iff.mp henc
    subst hb
    exact decode_frame_append m post hsize

/-- An inventory frames as long as it fits: its frame is the header, the
sender's name after its length, the kind, and 32 bytes a digest after the
count. -/
theorem encode_inv_of_le {sender : String} {k : InvKind} {items : List Digest}
    (h : commandLength + 1 + (8 + sender.toUTF8.size) + (4 + (8 + 32 * items.length)) ≤ maxMessageSize) :
    ∃ frame, (⟨sender, .inv k items⟩ : Message).encode = .ok frame := by
  refine ⟨_, encode_eq_ok_iff.mpr ⟨rfl, ?_⟩⟩
  have hseq : (Wire.seq (fun d : Digest => d.bytes) items).size = 8 + 32 * items.length := by
    simp [Wire.size_seq, Digest.size_eq, Nat.mul_comm]
  have hkind : k.toWire.size = 4 := by
    cases k <;> rfl
  simp only [ByteArray.size_append, ByteArray.size_push, Command.size_toBytes, Wire.str, Wire.bytes, Wire.size_u64,
    Payload.toWire, hkind, hseq]
  omega

theorem frames_round_trip_getBlocks :
    ∃ b, (⟨"", .getBlocks⟩ : Message).encode = .ok b ∧ decode b = .ok ⟨"", .getBlocks⟩ := by
  have henc : (⟨"", .getBlocks⟩ : Message).encode =
      .ok (Command.getBlocks.toBytes.push protocolVersion ++ Wire.str "" ++ ByteArray.empty) :=
    encode_eq_ok_iff.mpr ⟨rfl, by decide +kernel⟩
  exact ⟨_, henc, (frames_round_trip.1 _ _ henc).1⟩

end Message
end Net
end PowChain
