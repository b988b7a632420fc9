import PowChain.Text.Utf8
import PowChain.Proofs.Bytes.Lists

/-!
# Well-formed UTF-8 is exactly the encoding of texts

`Utf8.check` walks bytes one sequence at a time: `Utf8.step` reads the lead
byte, decides the sequence's width, and checks the bytes after it against
the ranges that rule out overlong forms, surrogates and code points past
`U+10FFFF`.  This file shows that the walk accepts exactly the bytes that
encode some text:

* `step_ok_shape` — what an accepted sequence looks like, byte by byte;
* `step_encodeChar` — every character's encoding is one accepted sequence, so
  the UTF-8 form of every text passes the check (`check_toUTF8`);
* `step_ok_encodes` — every accepted sequence is the encoding of one
  character, so bytes that pass the check encode a text
  (`exists_chars_of_firstFault`);
* `decode_toUTF8`, `eq_toUTF8_of_decode` — decoding gives back every text
  from its UTF-8 form, and what decodes to a text is its UTF-8 form;
  `lossy_toUTF8` — lossy decoding of a text's UTF-8 form replaces nothing.
-/

namespace PowChain
namespace Utf8

/-! ## Bytes and characters as numbers -/

theorem toNat_ofNat_byte {x : Nat} (h : x < 256) : (UInt8.ofNat x).toNat = x :=
  UInt8.toNat_ofNat_of_lt' h

theorem eq_ofNat_of_toNat {b : UInt8} {x : Nat} (h : b.toNat = x) : UInt8.ofNat x = b := by
  apply UInt8.toNat_inj.mp
  rw [toNat_ofNat_byte (h ▸ b.toNat_lt), h]

/-- A code point that is a Unicode scalar value is its character's code. -/
theorem val_toNat_ofNat {v : Nat} (h : v.isValidChar) : (Char.ofNat v).val.toNat = v := by
  have hv := Char.toNat_ofNat v
  rw [if_pos h] at hv
  exact hv

/-- The byte after a lead byte of three or four bytes lies in `secondRange`
exactly when it is a continuation byte that rules out an overlong form (after
`E0` and `F0`), a surrogate (after `ED`) and a code point past `U+10FFFF`
(after `F4`). -/
theorem inSecondRange_iff (b c : UInt8) :
    ((secondRange b).1 ≤ c ∧ c ≤ (secondRange b).2) ↔
      0x80 ≤ c.toNat ∧ c.toNat ≤ 0xbf ∧ (b.toNat = 0xe0 → 0xa0 ≤ c.toNat) ∧
        (b.toNat = 0xed → c.toNat ≤ 0x9f) ∧ (b.toNat = 0xf0 → 0x90 ≤ c.toNat) ∧
        (b.toNat = 0xf4 → c.toNat ≤ 0x8f) := by
  unfold secondRange
  split_ifs with h₁ h₂ h₃ h₄ <;>
    simp only [beq_iff_eq, ← UInt8.toNat_inj, UInt8.reduceToNat] at * <;>
    simp [UInt8.le_iff_toNat_le] <;> omega

/-! ## One sequence -/

/-- What `step` accepts: a byte below `80`, or a lead byte of two, three or
four bytes followed by the bytes its width asks for, each in its range. -/
theorem step_ok_shape {b : UInt8} {rest : List UInt8} {n : Nat} (h : step (b :: rest) = .ok n) :
    (n = 0 ∧ b.toNat < 0x80) ∨
    (n = 1 ∧ ∃ c r, rest = c :: r ∧ 0xc2 ≤ b.toNat ∧ b.toNat ≤ 0xdf ∧ 0x80 ≤ c.toNat ∧ c.toNat ≤ 0xbf) ∨
    (n = 2 ∧ ∃ c₁ c₂ r, rest = c₁ :: c₂ :: r ∧ 0xe0 ≤ b.toNat ∧ b.toNat ≤ 0xef ∧
      ((secondRange b).1 ≤ c₁ ∧ c₁ ≤ (secondRange b).2) ∧ 0x80 ≤ c₂.toNat ∧ c₂.toNat ≤ 0xbf) ∨
    (n = 3 ∧ ∃ c₁ c₂ c₃ r, rest = c₁ :: c₂ :: c₃ :: r ∧ 0xf0 ≤ b.toNat ∧ b.toNat ≤ 0xf4 ∧
      ((secondRange b).1 ≤ c₁ ∧ c₁ ≤ (secondRange b).2) ∧ 0x80 ≤ c₂.toNat ∧ c₂.toNat ≤ 0xbf ∧
      0x80 ≤ c₃.toNat ∧ c₃.toNat ≤ 0xbf) := by
  by_cases h0 : b < 0x80
  · simp only [step, h0, if_true, Except.ok.injEq] at h
    exact .inl ⟨h.symm, by simpa [UInt8.lt_iff_toNat_lt] using h0⟩
  -- the width is read off the lead byte; each width then checks its bytes in turn
  by_cases h2 : (0xc2 ≤ b && b ≤ 0xdf) = true
  · simp only [step, h0, h2, if_true, if_false] at h
    rcases rest with _ | ⟨c, r⟩
    · simp at h
    · simp at h
      split at h
      · cases h
      · rename_i hc
        cases h
        simp [UInt8.le_iff_toNat_le, UInt8.lt_iff_toNat_lt] at h2 hc
        exact .inr (.inl ⟨rfl, c, r, rfl, h2.1, h2.2, hc.1, hc.2⟩)
  by_cases h3 : (0xe0 ≤ b && b ≤ 0xef) = true
  · simp only [step, h0, h2, h3, if_true, if_false] at h
    rcases rest with _ | ⟨c₁, _ | ⟨c₂, r⟩⟩
    · simp at h
    · simp at h
      split at h <;> cases h
    · simp [isCont] at h
      split at h
      · cases h
      · rename_i hc₁
        split at h
        · cases h
        · rename_i hc₂
          cases h
          simp [UInt8.le_iff_toNat_le, UInt8.lt_iff_toNat_lt] at h3 hc₁ hc₂
          exact .inr (.inr (.inl ⟨rfl, c₁, c₂, r, rfl, h3.1, h3.2, hc₁, hc₂.1, hc₂.2⟩))
  by_cases h4 : (0xf0 ≤ b && b ≤ 0xf4) = true
  · simp only [step, h0, h2, h3, h4, if_true, if_false] at h
    rcases rest with _ | ⟨c₁, _ | ⟨c₂, _ | ⟨c₃, r⟩⟩⟩
    · simp at h
    · simp at h
      split at h <;> cases h
    · simp [isCont] at h
      split at h
      · cases h
      · split at h <;> cases h
    · simp [isCont] at h
      split at h
      · cases h
      · rename_i hc₁
        split at h
        · cases h
        · rename_i hc₂
          split at h
          · rename_i hc₃
            cases h
            simp [UInt8.le_iff_toNat_le, UInt8.lt_iff_toNat_lt] at h4 hc₁ hc₂ hc₃
            exact .inr (.inr (.inr ⟨rfl, c₁, c₂, c₃, r, rfl, h4.1, h4.2, hc₁, hc₂.1, hc₂.2, hc₃.1, hc₃.2⟩))
          · cases h
  -- a lead byte of no width is refused at once
  simp [step, h0, h2, h3, h4] at h

theorem step_lead {b : UInt8} {rest : List UInt8} (hb : b.toNat < 0x80) : step (b :: rest) = .ok 0 := by
  have h0 : b < 0x80 := by simpa [UInt8.lt_iff_toNat_lt] using hb
  simp [step, h0]

theorem step_two {b c : UInt8} {rest : List UInt8} (hb : 0xc2 ≤ b.toNat ∧ b.toNat ≤ 0xdf)
    (hc : 0x80 ≤ c.toNat ∧ c.toNat ≤ 0xbf) : step (b :: c :: rest) = .ok 1 := by
  have h0 : ¬ b < 0x80 := by simp [UInt8.lt_iff_toNat_lt]; omega
  have h2 : (0xc2 ≤ b && b ≤ 0xdf) = true := by simp [UInt8.le_iff_toNat_le]; omega
  have h3 : (0x80 ≤ c && c ≤ 0xbf) = true := by simp [UInt8.le_iff_toNat_le]; omega
  simp [step, h0, h2, h3]

theorem step_three {b c₁ c₂ : UInt8} {rest : List UInt8} (hb : 0xe0 ≤ b.toNat ∧ b.toNat ≤ 0xef)
    (hc₁ : (secondRange b).1 ≤ c₁ ∧ c₁ ≤ (secondRange b).2) (hc₂ : 0x80 ≤ c₂.toNat ∧ c₂.toNat ≤ 0xbf) :
    step (b :: c₁ :: c₂ :: rest) = .ok 2 := by
  have h0 : ¬ b < 0x80 := by simp [UInt8.lt_iff_toNat_lt]; omega
  have h2 : (0xc2 ≤ b && b ≤ 0xdf) = false := by simp [UInt8.le_iff_toNat_le]; omega
  have h3 : (0xe0 ≤ b && b ≤ 0xef) = true := by simp [UInt8.le_iff_toNat_le]; omega
  have h4 : isCont c₂ = true := by simp [isCont, UInt8.le_iff_toNat_le]; omega
  simp [step, h0, h2, h3, h4, hc₁]

theorem step_four {b c₁ c₂ c₃ : UInt8} {rest : List UInt8} (hb : 0xf0 ≤ b.toNat ∧ b.toNat ≤ 0xf4)
    (hc₁ : (secondRange b).1 ≤ c₁ ∧ c₁ ≤ (secondRange b).2) (hc₂ : 0x80 ≤ c₂.toNat ∧ c₂.toNat ≤ 0xbf)
    (hc₃ : 0x80 ≤ c₃.toNat ∧ c₃.toNat ≤ 0xbf) :
    step (b :: c₁ :: c₂ :: c₃ :: rest) = .ok 3 := by
  have h0 : ¬ b < 0x80 := by simp [UInt8.lt_iff_toNat_lt]; omega
  have h2 : (0xc2 ≤ b && b ≤ 0xdf) = false := by simp [UInt8.le_iff_toNat_le]; omega
  have h3 : (0xe0 ≤ b && b ≤ 0xef) = false := by simp [UInt8.le_iff_toNat_le]; omega
  have h4 : (0xf0 ≤ b && b ≤ 0xf4) = true := by simp [UInt8.le_iff_toNat_le]; omega
  have h5 : isCont c₂ = true := by simp [isCont, UInt8.le_iff_toNat_le]; omega
  have h6 : isCont c₃ = true := by simp [isCont, UInt8.le_iff_toNat_le]; omega
  simp [step, h0, h2, h3, h4, h5, h6, hc₁]

/-- The encoding of a character is one sequence that `step` accepts whole. -/
theorem step_encodeChar (c : Char) (rest : List UInt8) :
    step (String.utf8EncodeChar c ++ rest) = .ok ((String.utf8EncodeChar c).length - 1) := by
  have hvalid : c.val.toNat < 0xd800 ∨ (0xdfff < c.val.toNat ∧ c.val.toNat < 0x110000) := c.valid
  simp only [String.utf8EncodeChar]
  -- one case per width of the encoding; the byte ranges follow from the code's range
  split_ifs with h₁ h₂ h₃
  · exact step_lead (by rw [toNat_ofNat_byte (by omega)]; omega)
  · exact step_two (by rw [toNat_ofNat_byte (by omega)]; omega) (by rw [toNat_ofNat_byte (by omega)]; omega)
  · refine step_three (by rw [toNat_ofNat_byte (by omega)]; omega) ((inSecondRange_iff _ _).mpr ?_)
      (by rw [toNat_ofNat_byte (by omega)]; omega)
    simp only [toNat_ofNat_byte (show c.val.toNat / 4096 % 16 + 224 < 256 by omega),
      toNat_ofNat_byte (show c.val.toNat / 64 % 64 + 128 < 256 by omega)]
    omega
  · refine step_four (by rw [toNat_ofNat_byte (by omega)]; omega) ((inSecondRange_iff _ _).mpr ?_)
      (by rw [toNat_ofNat_byte (by omega)]; omega) (by rw [toNat_ofNat_byte (by omega)]; omega)
    simp only [toNat_ofNat_byte (show c.val.toNat / 262144 % 8 + 240 < 256 by omega),
      toNat_ofNat_byte (show c.val.toNat / 4096 % 64 + 128 < 256 by omega)]
    omega

/-! ## Characters of accepted sequences -/

theorem encodeChar_one {b : UInt8} (hb : b.toNat < 0x80) : ∃ ch : Char, String.utf8EncodeChar ch = [b] := by
  have hv := val_toNat_ofNat (v := b.toNat) (by unfold Nat.isValidChar; omega)
  refine ⟨Char.ofNat b.toNat, ?_⟩
  simp only [String.utf8EncodeChar, hv]
  rw [if_pos (by omega), eq_ofNat_of_toNat rfl]

theorem encodeChar_two {b c : UInt8} (hb : 0xc2 ≤ b.toNat ∧ b.toNat ≤ 0xdf)
    (hc : 0x80 ≤ c.toNat ∧ c.toNat ≤ 0xbf) : ∃ ch : Char, String.utf8EncodeChar ch = [b, c] := by
  have hv := val_toNat_ofNat (v := (b.toNat - 0xc0) * 64 + (c.toNat - 0x80)) (by unfold Nat.isValidChar; omega)
  refine ⟨Char.ofNat ((b.toNat - 0xc0) * 64 + (c.toNat - 0x80)), ?_⟩
  simp only [String.utf8EncodeChar, hv]
  rw [if_neg (by omega), if_pos (by omega), eq_ofNat_of_toNat (b := b) (by omega),
    eq_ofNat_of_toNat (b := c) (by omega)]

/-- Three accepted bytes encode a character of `U+0800` to `U+FFFF` outside
the surrogates: `E0` forbids the overlong forms, `ED` the surrogates. -/
theorem encodeChar_three {b c₁ c₂ : UInt8} (hb : 0xe0 ≤ b.toNat ∧ b.toNat ≤ 0xef)
    (hc₁ : (secondRange b).1 ≤ c₁ ∧ c₁ ≤ (secondRange b).2) (hc₂ : 0x80 ≤ c₂.toNat ∧ c₂.toNat ≤ 0xbf) :
    ∃ ch : Char, String.utf8EncodeChar ch = [b, c₁, c₂] := by
  obtain ⟨hlo, hhi, he0, hed, -, -⟩ := (inSecondRange_iff b c₁).mp hc₁
  have hv := val_toNat_ofNat (v := (b.toNat - 0xe0) * 4096 + (c₁.toNat - 0x80) * 64 + (c₂.toNat - 0x80))
    (by unfold Nat.isValidChar; omega)
  refine ⟨Char.ofNat ((b.toNat - 0xe0) * 4096 + (c₁.toNat - 0x80) * 64 + (c₂.toNat - 0x80)), ?_⟩
  simp only [String.utf8EncodeChar, hv]
  rw [if_neg (by omega), if_neg (by omega), if_pos (by omega), eq_ofNat_of_toNat (b := b) (by omega),
    eq_ofNat_of_toNat (b := c₁) (by omega), eq_ofNat_of_toNat (b := c₂) (by omega)]

/-- Four accepted bytes encode a character of `U+10000` to `U+10FFFF`: `F0`
forbids the overlong forms, `F4` the code points past the last. -/
theorem encodeChar_four {b c₁ c₂ c₃ : UInt8} (hb : 0xf0 ≤ b.toNat ∧ b.toNat ≤ 0xf4)
    (hc₁ : (secondRange b).1 ≤ c₁ ∧ c₁ ≤ (secondRange b).2) (hc₂ : 0x80 ≤ c₂.toNat ∧ c₂.toNat ≤ 0xbf)
    (hc₃ : 0x80 ≤ c₃.toNat ∧ c₃.toNat ≤ 0xbf) :
    ∃ ch : Char, String.utf8EncodeChar ch = [b, c₁, c₂, c₃] := by
  obtain ⟨hlo, hhi, -, -, hf0, hf4⟩ := (inSecondRange_iff b c₁).mp hc₁
  have hv := val_toNat_ofNat (v := (b.toNat - 0xf0) * 262144 + (c₁.toNat - 0x80) * 4096 +
    (c₂.toNat - 0x80) * 64 + (c₃.toNat - 0x80)) (by unfold Nat.isValidChar; omega)
  refine ⟨Char.ofNat ((b.toNat - 0xf0) * 262144 + (c₁.toNat - 0x80) * 4096 +
    (c₂.toNat - 0x80) * 64 + (c₃.toNat - 0x80)), ?_⟩
  simp only [String.utf8EncodeChar, hv]
  rw [if_neg (by omega), if_neg (by omega), if_neg (by omega), eq_ofNat_of_toNat (b := b) (by omega),
    eq_ofNat_of_toNat (b := c₁) (by omega), eq_ofNat_of_toNat (b := c₂) (by omega),
    eq_ofNat_of_toNat (b := c₃) (by omega)]

/-- Every sequence `step` accepts is the encoding of a character. -/
theorem step_ok_encodes {b : UInt8} {rest : List UInt8} {n : Nat} (h : step (b :: rest) = .ok n) :
    ∃ c : Char, b :: rest = String.utf8EncodeChar c ++ rest.drop n := by
  rcases step_ok_shape h with ⟨rfl, hb⟩ | ⟨rfl, c, r, rfl, hb, hb', hc⟩ |
      ⟨rfl, c₁, c₂, r, rfl, hb, hb', hc₁, hc₂⟩ | ⟨rfl, c₁, c₂, c₃, r, rfl, hb, hb', hc₁, hc₂, hc₂', hc₃⟩
  · obtain ⟨ch, hch⟩ := encodeChar_one hb
    exact ⟨ch, by rw [hch]; rfl⟩
  · obtain ⟨ch, hch⟩ := encodeChar_two ⟨hb, hb'⟩ hc
    exact ⟨ch, by rw [hch]; rfl⟩
  · obtain ⟨ch, hch⟩ := encodeChar_three ⟨hb, hb'⟩ hc₁ hc₂
    exact ⟨ch, by rw [hch]; rfl⟩
  · obtain ⟨ch, hch⟩ := encodeChar_four ⟨hb, hb'⟩ hc₁ ⟨hc₂, hc₂'⟩ hc₃
    exact ⟨ch, by rw [hch]; rfl⟩

/-! ## Whole texts -/

/-- The UTF-8 form of a text is its characters' encodings, one after another. -/
theorem toList_toUTF8 (s : String) : s.toUTF8.toList = s.toList.flatMap String.utf8EncodeChar := by
  have hs : s.toUTF8 = s.toList.utf8Encode := by
    rw [String.toUTF8_eq_toByteArray, ← String.toByteArray_ofList, String.ofList_toList]
  rw [hs, List.utf8Encode]
  simp [Bytes.toList_eq_data]

theorem firstFault_flatMap_encodeChar (cs : List Char) (pos : Nat) :
    firstFault (cs.flatMap String.utf8EncodeChar) pos = none := by
  induction cs generalizing pos with
  | nil => simp [firstFault]
  | cons c cs ih =>
    obtain ⟨b, bs, hb⟩ := List.exists_cons_of_ne_nil (String.utf8EncodeChar_ne_nil (c := c))
    have hstep := step_encodeChar c (cs.flatMap String.utf8EncodeChar)
    rw [hb, List.cons_append] at hstep
    rw [List.flatMap_cons, hb, List.cons_append, firstFault, hstep]
    simp only [List.length_cons, Nat.add_sub_cancel, List.drop_left]
    exact ih _

/-- The UTF-8 form of every text passes the check. -/
theorem check_toUTF8 (s : String) : check s.toUTF8 = none := by
  rw [check, toList_toUTF8]
  exact firstFault_flatMap_encodeChar _ _

/-- Bytes that pass the check are the encodings of some characters. -/
theorem exists_chars_of_firstFault {l : List UInt8} {pos : Nat} (h : firstFault l pos = none) :
    ∃ cs : List Char, l = cs.flatMap String.utf8EncodeChar := by
  fun_induction firstFault l pos with
  | case1 => exact ⟨[], rfl⟩
  | case2 b rest pos e he => simp at h
  | case3 b rest pos n hn ih =>
    obtain ⟨cs, hcs⟩ := ih h
    obtain ⟨c, hc⟩ := step_ok_encodes hn
    exact ⟨c :: cs, by rw [hc, hcs, List.flatMap_cons]⟩

theorem fromUTF8?_toUTF8 (s : String) : String.fromUTF8? s.toUTF8 = some s := by
  rw [String.fromUTF8?, dif_pos (by simpa using s.isValidUTF8)]
  rfl

/-- Decoding gives every text back from its UTF-8 form. -/
theorem decode_toUTF8 (s : String) : decode s.toUTF8 = .ok s := by
  rw [decode, check_toUTF8, fromUTF8?_toUTF8]
  rfl

/-- What decodes to a text is that text's UTF-8 form. -/
theorem eq_toUTF8_of_decode {b : ByteArray} {s : String} (h : decode b = .ok s) : b = s.toUTF8 := by
  unfold decode at h
  split at h
  · cases h
  · rename_i hcheck
    obtain ⟨cs, hcs⟩ := exists_chars_of_firstFault hcheck
    have hb : b = (String.ofList cs).toUTF8 := by
      apply Bytes.toList_inj.mp
      rw [toList_toUTF8, String.toList_ofList, ← hcs]
    rw [hb, fromUTF8?_toUTF8] at h
    cases h
    exact hb

/-- Lossy decoding of a text's UTF-8 form replaces nothing. -/
theorem lossyAux_flatMap_encodeChar (cs : List Char) (acc : String) :
    lossyAux (cs.flatMap String.utf8EncodeChar) acc = acc ++ String.ofList cs := by
  induction cs generalizing acc with
  | nil => simp [lossyAux]
  | cons c cs ih =>
    obtain ⟨b, bs, hb⟩ := List.exists_cons_of_ne_nil (String.utf8EncodeChar_ne_nil (c := c))
    have hstep := step_encodeChar c (cs.flatMap String.utf8EncodeChar)
    rw [hb, List.cons_append] at hstep
    -- the piece read is the character's own encoding
    have hpiece : (String.fromUTF8? (Bytes.ofList ((b :: (bs ++ cs.flatMap String.utf8EncodeChar)).take
        ((b :: bs).length - 1 + 1)))).getD "" = String.singleton c := by
      have htake : (b :: (bs ++ cs.flatMap String.utf8EncodeChar)).take ((b :: bs).length - 1 + 1) =
          String.utf8EncodeChar c := by
        rw [hb, ← List.cons_append, List.length_cons, Nat.add_sub_cancel]
        exact List.take_left' rfl
      have hofList : Bytes.ofList (String.utf8EncodeChar c) = (String.singleton c).toUTF8 := by
        apply Bytes.toList_inj.mp
        rw [Bytes.toList_ofList, toList_toUTF8, String.singleton_eq_ofList, String.toList_ofList,
          List.flatMap_singleton]
      rw [htake, hofList, fromUTF8?_toUTF8]
      rfl
    rw [List.flatMap_cons, hb, List.cons_append, lossyAux, hstep]
    simp only [hpiece]
    rw [List.length_cons, Nat.add_sub_cancel, List.drop_left, ih, String.ofList_cons, String.append_assoc]

theorem lossy_toUTF8 (s : String) : lossy s.toUTF8 = s := by
  rw [lossy, toList_toUTF8, lossyAux_flatMap_encodeChar, String.empty_append, String.ofList_toList]

end Utf8
end PowChain
