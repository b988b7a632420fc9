import PowChain.Json.Typed
import PowChain.Proofs.Bytes.Lists
import PowChain.Proofs.Text.Utf8

/-!
# Reading JSON text back

A stored document is read back by the reader that reads documents from
outside, byte by byte.  This file proves what that reader does on the text the
ledger writes.  `Json.Runs x b i v j` says that the reader `x`, run over the
text `b` from offset `i`, returns `v` and stops at offset `j`.
`Json.Scans x w v next` says that `x` reads the bytes `w` as `v` wherever they
stand in a text, provided the byte after them passes `next`; readers in
sequence scan the concatenation of what each scans (`Scans.bind`).

* `scans_parseWhitespace`, `scans_parseStr`, `scans_nextKey_first`,
  `scans_nextKey_next`, `scans_objectColon` — white space, keys of plain
  bytes, and the colon after a key;
* `scans_readU64`, `scans_readU32`, `scans_readI64` — numbers as `toString`
  writes them, when no digit, decimal point or exponent follows;
* `runs_entries_succ`, `entries_keep` — what one entry of a record can do, and
  a property of the record that only some fields can change, kept once those
  fields were read, since a second entry for a field is refused;
* `runs_readStruct`, `runs_of_readDocumentBytes` — a document that reads as a
  record was read entry by entry from its opening brace.
-/

namespace PowChain
namespace Json

/-! ## Running a reader -/

section Run

variable {α β : Type} (b : ByteArray) (i : Nat)

theorem run_bind (x : P α) (f : α → P β) :
    Id.run ((((x >>= f).run b).run).run i) = match Id.run (((x.run b).run).run i) with
      | (.ok a, j) => Id.run ((((f a).run b).run).run j)
      | (.error e, j) => (.error e, j) := by
  simp only [ReaderT.run_bind, ExceptT.run_bind, StateT.run_bind, Id.run_bind]
  rcases Id.run (((x.run b).run).run i) with ⟨e | a, j⟩ <;> rfl

@[simp] theorem run_read : Id.run ((((read : P ByteArray).run b).run).run i) = (.ok b, i) := rfl

@[simp] theorem run_get : Id.run ((((get : P Nat).run b).run).run i) = (.ok i, i) := rfl

@[simp] theorem run_set (j : Nat) : Id.run ((((set j : P PUnit).run b).run).run i) = (.ok ⟨⟩, j) := rfl

@[simp] theorem run_modify (f : Nat → Nat) :
    Id.run ((((modify f : P PUnit).run b).run).run i) = (.ok ⟨⟩, f i) := rfl

@[simp] theorem run_pure (a : α) : Id.run ((((pure a : P α).run b).run).run i) = (.ok a, i) := rfl

@[simp] theorem run_throw (e : Error) : Id.run ((((throw e : P α).run b).run).run i) = (.error e, i) := rfl

theorem run_tryCatch (x : P α) (h : Error → P α) :
    Id.run ((((tryCatch x h).run b).run).run i) = match Id.run (((x.run b).run).run i) with
      | (.ok a, j) => (.ok a, j)
      | (.error e, j) => Id.run ((((h e).run b).run).run j) := by
  change Id.run (((ExceptT.tryCatch (x.run b) fun e => (h e).run b).run).run i) = _
  rcases hx : Id.run (((x.run b).run).run i) with ⟨e | a, j⟩
  · simp only [ExceptT.tryCatch, ExceptT.mk, ExceptT.run, StateT.run_bind, Id.run_bind] at hx ⊢
    rw [hx]
  · simp only [ExceptT.tryCatch, ExceptT.mk, ExceptT.run, StateT.run_bind, Id.run_bind] at hx ⊢
    rw [hx]
    rfl

end Run

/-- Over the text `b`, the reader `x` started at offset `i` returns `v` and
stops at offset `j`. -/
def Runs {α : Type} (x : P α) (b : ByteArray) (i : Nat) (v : α) (j : Nat) : Prop :=
  Id.run (((x.run b).run).run i) = (.ok v, j)

namespace Runs

variable {α β : Type} {x : P α} {f : α → P β} {b : ByteArray} {i j k : Nat} {a : α} {v : β}

theorem bind (h₁ : Runs x b i a k) (h₂ : Runs (f a) b k v j) : Runs (x >>= f) b i v j := by
  unfold Runs at *
  rw [run_bind, h₁]
  exact h₂

theorem bind_iff (h₁ : Runs x b i a k) : Runs (x >>= f) b i v j ↔ Runs (f a) b k v j := by
  unfold Runs at *
  rw [run_bind, h₁]

theorem of_bind (h : Runs (x >>= f) b i v j) : ∃ a k, Runs x b i a k ∧ Runs (f a) b k v j := by
  unfold Runs at h
  rw [run_bind] at h
  rcases hx : Id.run (((x.run b).run).run i) with ⟨e | a, k⟩ <;> rw [hx] at h
  · cases h
  · exact ⟨a, k, hx, h⟩

theorem unique {a' : α} {k' : Nat} (h : Runs x b i a k) (h' : Runs x b i a' k') : a = a' ∧ k = k' := by
  unfold Runs at h h'
  rw [h] at h'
  cases h'
  exact ⟨rfl, rfl⟩

@[simp] theorem pure_iff {a' : α} : Runs (pure a : P α) b i a' j ↔ a = a' ∧ i = j := by
  simp [Runs]

@[simp] theorem not_throw {e : Error} : ¬ Runs (throw e : P α) b i a j := by
  simp [Runs]

theorem tryCatch_iff {h : Error → P α} :
    Runs (tryCatch x h) b i a j ↔
      Runs x b i a j ∨ ∃ e k, Id.run (((x.run b).run).run i) = (.error e, k) ∧ Runs (h e) b k a j := by
  unfold Runs
  rw [run_tryCatch]
  rcases Id.run (((x.run b).run).run i) with ⟨e | a', k⟩ <;> simp

/-- A placed fault is still a fault: `placing` returns what its reader returns. -/
@[simp] theorem placing_iff : Runs (placing x) b i a j ↔ Runs x b i a j := by
  rw [placing, tryCatch_iff]
  refine or_iff_left_of_imp fun ⟨e, k, _, hk⟩ => ?_
  obtain ⟨e', k', _, hthrow⟩ := of_bind hk
  exact absurd hthrow not_throw

/-- A reader followed by a pure step returns an image of the step. -/
theorem exists_of_bind_pure {g : α → β} (h : Runs (x >>= fun y => Pure.pure (g y)) b i v j) :
    ∃ y, v = g y := by
  obtain ⟨y, k, -, h⟩ := of_bind h
  exact ⟨y, (pure_iff.mp h).1.symm⟩

/-- A reader closed by `withEnd` returned what the reader inside returned. -/
theorem of_withEnd {fin : P Unit} (h : Runs (withEnd x fin) b i a j) : ∃ k, Runs x b i a k := by
  unfold withEnd at h
  obtain ⟨r, k₁, hr, h⟩ := of_bind h
  obtain ⟨o, k₂, -, h⟩ := of_bind h
  rcases r with e | a'
  · obtain ⟨_, _, _, hthrow⟩ := of_bind h
    exact absurd hthrow not_throw
  rcases o with _ | e
  · obtain ⟨rfl, -⟩ := pure_iff.mp h
    rcases tryCatch_iff.mp hr with hx | ⟨e, k, _, hpure⟩
    · obtain ⟨a'', k, hx, hpure⟩ := of_bind hx
      obtain ⟨heq, -⟩ := pure_iff.mp hpure
      cases heq
      exact ⟨k, hx⟩
    · cases (pure_iff.mp hpure).1
  · obtain ⟨_, _, _, hthrow⟩ := of_bind h
    exact absurd hthrow not_throw

end Runs

/-! ## Peeking and moving -/

section Primitives

variable (b : ByteArray) (i : Nat)

theorem runs_read : Runs read b i b i := rfl

theorem runs_get : Runs get b i i i := rfl

theorem runs_set (j : Nat) : Runs (set j) b i ⟨⟩ j := rfl

theorem runs_peek : Runs peek b i b[i]? i := rfl

theorem runs_peekOrNull : Runs peekOrNull b i (b[i]?.getD 0) i := rfl

theorem runs_eat : Runs eat b i () (i + 1) := rfl

theorem runs_fuelOf : Runs fuelOf b i (b.size + 1) i := rfl

theorem runs_nextChar {c : UInt8} (h : b[i]? = some c) : Runs nextChar b i (some c) (i + 1) := by
  unfold nextChar
  rw [Runs.bind_iff (runs_peek b i), h]
  rfl

theorem runs_parseWhitespace : Runs parseWhitespace b i b[skipSpaceFrom b i]? (skipSpaceFrom b i) := rfl

end Primitives


/-! ## Texts in pieces -/

theorem getElem?_eq_toList (b : ByteArray) (i : Nat) : b[i]? = b.toList[i]? := by
  by_cases h : i < b.size
  · rw [getElem?_pos b i h, List.getElem?_eq_getElem (by simpa using h)]
    simp [Bytes.toList_eq_data, ByteArray.getElem_eq_getElem_data]
  · rw [getElem?_neg b i h, List.getElem?_eq_none (by simpa using h)]

theorem getElem?_of_toList {b : ByteArray} (pre rest : List UInt8) (hb : b.toList = pre ++ rest)
    (k : Nat) : b[pre.length + k]? = rest[k]? := by
  rw [getElem?_eq_toList, hb, List.getElem?_append_right (by omega)]
  simp

/-- The reader `x` reads the bytes `w` as `v` wherever they stand in a text,
when the byte after them passes `next` (`none` at the end of the text):
started on the first byte of `w`, it returns `v` and stops right after `w`. -/
def Scans {α : Type} (x : P α) (w : List UInt8) (v : α) (next : Option UInt8 → Prop) : Prop :=
  ∀ (b : ByteArray) (pre post : List UInt8), b.toList = pre ++ w ++ post → next post.head? →
    Runs x b pre.length v (pre.length + w.length)

namespace Scans

variable {α β : Type} {x : P α} {f : α → P β} {w w₁ w₂ : List UInt8} {a : α} {v : β}
  {n n₁ n₂ : Option UInt8 → Prop}

/-- Readers in sequence read the concatenation of what each reads; the first
one's test of the next byte is answered by the second one's bytes. -/
theorem bind (h₁ : Scans x w₁ a n₁) (h₂ : Scans (f a) w₂ v n₂)
    (hn : ∀ post : List UInt8, n₂ post.head? → n₁ (w₂ ++ post).head?) (hw : w₁ ++ w₂ = w) :
    Scans (x >>= f) w v n₂ := by
  subst hw
  intro b pre post hb hpost
  have e₁ := h₁ b pre (w₂ ++ post) (by simpa using hb) (hn post hpost)
  have e₂ := h₂ b (pre ++ w₁) post (by simpa using hb) hpost
  rw [List.length_append] at e₂
  refine e₁.bind ?_
  rwa [List.length_append, ← Nat.add_assoc]

theorem pure (a : α) : Scans (Pure.pure a : P α) [] a n := by
  intro b pre post _ _
  simp

theorem eat (c : UInt8) : Scans eat [c] () fun _ => True := by
  intro b pre post _ _
  exact runs_eat b pre.length

/-- A reader followed by a pure step reads what the reader reads. -/
theorem map {g : α → β} (h : Scans x w a n) : Scans (x >>= fun y => Pure.pure (g y)) w (g a) n :=
  bind h (Scans.pure (g a)) (fun _ h => by simpa using h) (List.append_nil w)

end Scans

/-! ## White space -/

theorem skipSpaceFrom_of_some {b : ByteArray} {i : Nat} {c : UInt8} (h : b[i]? = some c) :
    skipSpaceFrom b i = if isSpace c then skipSpaceFrom b (i + 1) else i := by
  obtain ⟨hi, rfl⟩ := getElem?_eq_some_iff.mp h
  rw [skipSpaceFrom, dif_pos hi]

theorem skipSpaceFrom_of_none {b : ByteArray} {i : Nat} (h : b[i]? = none) : skipSpaceFrom b i = i := by
  rw [skipSpaceFrom, dif_neg (by simpa using h)]

/-- A scan that moves on while the byte passes `p` (as `skipSpaceFrom` and
`skipDigitsFrom` do) stops at the first byte that does not pass, or at the end. -/
theorem skip_stops {skip : Nat → Nat} {p : UInt8 → Bool} {b : ByteArray}
    (hsome : ∀ i c, b[i]? = some c → skip i = if p c then skip (i + 1) else i)
    (hnone : ∀ i, b[i]? = none → skip i = i) {pre w post : List UInt8}
    (hb : b.toList = pre ++ w ++ post) (hw : ∀ c ∈ w, p c = true)
    (hpost : ∀ c ∈ post.head?, p c = false) :
    skip pre.length = pre.length + w.length := by
  induction w generalizing pre with
  | nil =>
    have hget := getElem?_of_toList pre post (by simpa using hb) 0
    rw [Nat.add_zero, ← List.head?_eq_getElem?] at hget
    rcases hpc : post.head? with _ | c
    · rw [hnone _ (by rw [hget, hpc])]
      rfl
    · rw [hsome _ c (by rw [hget, hpc]), if_neg (by simp [hpost c hpc])]
      rfl
  | cons c w ih =>
    have hget := getElem?_of_toList pre (c :: w ++ post) (by simpa using hb) 0
    rw [Nat.add_zero, ← List.head?_eq_getElem?] at hget
    rw [hsome _ c (by simpa using hget), if_pos (hw c List.mem_cons_self)]
    have := @ih (pre ++ [c]) (by simpa using hb) fun d hd => hw d (List.mem_cons_of_mem c hd)
    simp only [List.length_append, List.length_cons, List.length_nil, Nat.zero_add] at this ⊢
    rw [this]
    omega

theorem scans_parseWhitespace {ws : List UInt8} (hws : ∀ c ∈ ws, isSpace c = true) {c : UInt8}
    (hc : isSpace c = false) : Scans parseWhitespace ws (some c) (· = some c) := by
  intro b pre post hb hpost
  have hskip := skip_stops (fun _ _ h => skipSpaceFrom_of_some h) (fun _ h => skipSpaceFrom_of_none h)
    hb hws (by simp [hpost, hc])
  have hget := getElem?_of_toList (pre ++ ws) post (by simpa using hb) 0
  rw [Nat.add_zero, ← List.head?_eq_getElem?, hpost, List.length_append] at hget
  have := runs_parseWhitespace b pre.length
  rwa [hskip, hget] at this

/-! ## Strings -/

/-- A byte that stands for itself inside a string: no quote, no backslash,
no control character. -/
def Plain (c : UInt8) : Prop := c ≠ 34 ∧ c ≠ 92 ∧ 32 ≤ c

instance : DecidablePred Plain := fun _ => inferInstanceAs (Decidable (_ ∧ _ ∧ _))

/-- The body of a string of plain bytes is read up to its closing quote,
byte by byte. -/
theorem runs_stringBody_plain (strict : Bool) {b : ByteArray} {pre w post : List UInt8}
    (hb : b.toList = pre ++ w ++ 34 :: post) (hw : ∀ c ∈ w, Plain c) {fuel : Nat}
    (hf : w.length < fuel) (acc : Array UInt8) :
    Runs (stringBody strict fuel acc) b pre.length ⟨acc ++ w.toArray⟩ (pre.length + w.length + 1) := by
  induction w generalizing pre fuel acc with
  | nil =>
    obtain ⟨f, rfl⟩ := Nat.exists_eq_succ_of_ne_zero (Nat.pos_iff_ne_zero.mp hf)
    have hget := getElem?_of_toList pre (34 :: post) (by simpa using hb) 0
    rw [Nat.add_zero] at hget
    rw [stringBody, Runs.bind_iff (runs_nextChar b pre.length hget)]
    simp
  | cons c w ih =>
    obtain ⟨f, rfl⟩ := Nat.exists_eq_succ_of_ne_zero (Nat.pos_iff_ne_zero.mp (Nat.zero_lt_of_lt hf))
    have hget := getElem?_of_toList pre (c :: (w ++ 34 :: post)) (by simpa using hb) 0
    rw [Nat.add_zero] at hget
    obtain ⟨hq, hbs, hsp⟩ := hw c List.mem_cons_self
    have hrest := @ih (pre ++ [c]) (by simpa using hb)
      (fun d hd => hw d (List.mem_cons_of_mem c hd)) f (Nat.lt_of_succ_lt_succ hf) (acc.push c)
    rw [stringBody, Runs.bind_iff (runs_nextChar b pre.length (by simpa using hget))]
    have hlt : ¬ (strict && decide (c < 32)) = true := by
      simp only [Bool.and_eq_true, decide_eq_true_eq, not_and]
      intro _ h
      exact absurd hsp (UInt8.not_le.mpr h)
    simp only [beq_iff_eq, hq, if_false, hbs, hlt]
    simpa [Nat.add_assoc, Nat.add_comm 1] using hrest

/-- A string of plain bytes is read up to its closing quote. -/
theorem scans_parseStr {s : String} (hs : ∀ c ∈ s.toUTF8.toList, Plain c) :
    Scans parseStr (s.toUTF8.toList ++ [34]) s fun _ => True := by
  intro b pre post hb _
  have hlen : s.toUTF8.toList.length < b.size + 1 := by
    have := congrArg List.length hb
    simp only [List.length_append, Bytes.length_toList] at this
    simp only [Bytes.length_toList]
    omega
  have hbody := runs_stringBody_plain true (by simpa using hb) hs hlen #[]
  have hraw : (⟨#[] ++ s.toUTF8.toList.toArray⟩ : ByteArray) = s.toUTF8 := by
    rw [← Bytes.toList_inj]
    simp [Bytes.toList_eq_data]
  rw [hraw] at hbody
  rw [parseStr, Runs.bind_iff (runs_fuelOf b pre.length), Runs.bind_iff hbody, Utf8.fromUTF8?_toUTF8]
  simp [Nat.add_assoc]

/-! ## Keys -/

/-- The first key of an object: white space, then a quoted key. -/
theorem scans_nextKey_first {ws : List UInt8} (hws : ∀ c ∈ ws, isSpace c = true) {key : String}
    (hkey : ∀ c ∈ key.toUTF8.toList, Plain c) :
    Scans (nextKey true) (ws ++ 34 :: (key.toUTF8.toList ++ [34])) (some key) fun _ => True := by
  unfold nextKey
  refine Scans.bind (scans_parseWhitespace hws (c := 34) (by decide)) ?_ (fun _ _ => rfl) rfl
  refine Scans.bind (Scans.pure (n := fun _ => True) (some 34)) ?_ (fun _ _ => trivial) (List.nil_append _)
  exact Scans.bind (Scans.eat 34) (Scans.bind (scans_parseStr hkey) (Scans.pure (some key))
    (fun _ _ => trivial) (List.append_nil _)) (fun _ _ => trivial) rfl

/-- A key after the previous entry: white space, the comma, white space, then
a quoted key. -/
theorem scans_nextKey_next {ws ws' : List UInt8} (hws : ∀ c ∈ ws, isSpace c = true)
    (hws' : ∀ c ∈ ws', isSpace c = true) {key : String} (hkey : ∀ c ∈ key.toUTF8.toList, Plain c) :
    Scans (nextKey false) (ws ++ 44 :: (ws' ++ 34 :: (key.toUTF8.toList ++ [34]))) (some key)
      fun _ => True := by
  unfold nextKey
  refine Scans.bind (scans_parseWhitespace hws (c := 44) (by decide)) ?_ (fun _ _ => rfl) rfl
  refine Scans.bind (Scans.eat 44) ?_ (fun _ _ => trivial) rfl
  refine Scans.bind (scans_parseWhitespace hws' (c := 34) (by decide)) ?_ (fun _ _ => rfl) rfl
  exact Scans.bind (Scans.eat 34) (Scans.bind (scans_parseStr hkey) (Scans.pure (some key))
    (fun _ _ => trivial) (List.append_nil _)) (fun _ _ => trivial) rfl

/-- The colon after a key. -/
theorem scans_objectColon {ws : List UInt8} (hws : ∀ c ∈ ws, isSpace c = true) :
    Scans objectColon (ws ++ [58]) () fun _ => True := by
  unfold objectColon
  exact Scans.bind (scans_parseWhitespace hws (c := 58) (by decide)) (Scans.eat 58)
    (fun _ _ => rfl) rfl

/-! ## Numbers -/

/-- The decimal digits of `n` as text bytes, as `toString` writes them. -/
def digitBytes (n : Nat) : List UInt8 := (Nat.toDigits 10 n).map fun c => c.toNat.toUInt8

theorem digitBytes_of_lt {n : Nat} (h : n < 10) : digitBytes n = [(48 + n).toUInt8] := by
  rw [digitBytes, Nat.toDigits_of_lt_base h, List.map_singleton, Nat.toNat_digitChar_of_lt_ten h]

theorem digitBytes_of_le {n : Nat} (h : 10 ≤ n) :
    digitBytes n = digitBytes (n / 10) ++ [(48 + n % 10).toUInt8] := by
  rw [digitBytes, Nat.toDigits_of_base_le (by decide) h, List.map_append, List.map_singleton,
    Nat.toNat_digitChar_of_lt_ten (Nat.mod_lt n (by decide))]
  rfl

theorem isDigit_of_mem_digitBytes {n : Nat} : ∀ c ∈ digitBytes n, isDigit c = true := by
  induction n using Nat.strong_induction_on with
  | _ n ih =>
    have hdigit : ∀ d < 10, isDigit (48 + d).toUInt8 = true := by decide
    intro c hc
    rcases Nat.lt_or_ge n 10 with h | h
    · rw [digitBytes_of_lt h, List.mem_singleton] at hc
      exact hc ▸ hdigit n h
    · rw [digitBytes_of_le h, List.mem_append, List.mem_singleton] at hc
      rcases hc with hc | rfl
      · exact ih (n / 10) (Nat.div_lt_self (by omega) (by decide)) c hc
      · exact hdigit _ (Nat.mod_lt n (by decide))

/-- Read back digit by digit, most significant first, the digits give `n`. -/
theorem foldl_digitBytes (n : Nat) :
    ((digitBytes n).map fun x => x.toNat - 48).foldl (fun s d => s * 10 + d) 0 = n := by
  induction n using Nat.strong_induction_on with
  | _ n ih =>
    rcases Nat.lt_or_ge n 10 with h | h
    · simp [digitBytes_of_lt h]
      omega
    · rw [digitBytes_of_le h, List.map_append, List.foldl_append,
        ih (n / 10) (Nat.div_lt_self (by omega) (by decide))]
      simp
      omega

theorem digitBytes_zero : digitBytes 0 = [48] := rfl

/-- The first digit of a positive number is not `0`. -/
theorem head_digitBytes {n : Nat} (hn : 0 < n) :
    ∃ c rest, digitBytes n = c :: rest ∧ 49 ≤ c ∧ c ≤ 57 := by
  induction n using Nat.strong_induction_on with
  | _ n ih =>
    rcases Nat.lt_or_ge n 10 with h | h
    · refine ⟨_, [], digitBytes_of_lt h, ?_⟩
      have : ∀ d < 10, 0 < d → 49 ≤ (48 + d).toUInt8 ∧ (48 + d).toUInt8 ≤ 57 := by decide
      exact this n h hn
    · obtain ⟨c, rest, hc, hlo, hhi⟩ := ih (n / 10) (Nat.div_lt_self (by omega) (by decide))
        (Nat.div_pos h (by decide))
      exact ⟨c, rest ++ _, by rw [digitBytes_of_le h, hc, List.cons_append], hlo, hhi⟩

theorem le_foldl_decimal (ds : List Nat) (s : Nat) : s ≤ ds.foldl (fun s d => s * 10 + d) s := by
  induction ds generalizing s with
  | nil => exact Nat.le_refl s
  | cons d ds ih => exact Nat.le_trans (by omega) (ih (s * 10 + d))

/-- While the number fits a word, the digit loop takes every digit. -/
theorem take_eq (ds : List Nat) (s c : Nat) (h : ds.foldl (fun s d => s * 10 + d) s ≤ wordMax) :
    parseInteger.take s c ds = (ds.foldl (fun s d => s * 10 + d) s, c + ds.length) := by
  induction ds generalizing s c with
  | nil => rfl
  | cons d ds ih =>
    have hfit : s * 10 + d ≤ wordMax := Nat.le_trans (le_foldl_decimal ds _) h
    rw [parseInteger.take, if_neg (by simp [overflows]; omega), ih _ _ h]
    simp [Nat.add_assoc, Nat.add_comm 1]

theorem skipDigitsFrom_of_some {b : ByteArray} {i : Nat} {c : UInt8} (h : b[i]? = some c) :
    skipDigitsFrom b i = if isDigit c then skipDigitsFrom b (i + 1) else i := by
  obtain ⟨hi, rfl⟩ := getElem?_eq_some_iff.mp h
  rw [skipDigitsFrom, dif_pos hi]
  rfl

theorem skipDigitsFrom_of_none {b : ByteArray} {i : Nat} (h : b[i]? = none) :
    skipDigitsFrom b i = i := by
  rw [skipDigitsFrom, dif_neg (by simpa using h)]

/-- On the digits of a number that fits a word, the integer reader ends where
the digits end, with the number read. -/
theorem runs_parseInteger_digits (positive : Bool) {n : Nat} (hn : n ≤ wordMax) {b : ByteArray}
    {pre post : List UInt8} (hb : b.toList = pre ++ digitBytes n ++ post)
    (hpost : ∀ c ∈ post.head?, isDigit c = false) {r : Num} {j : Nat} :
    Runs (parseInteger positive) b pre.length r j ↔
      Runs (parseInteger.afterDigits positive n) b (pre.length + (digitBytes n).length) r j := by
  rcases Nat.eq_zero_or_pos n with rfl | hpos
  · -- a lone zero: the next byte must not be a digit
    have h0 := getElem?_of_toList pre (48 :: post) (by simpa [digitBytes_zero] using hb) 0
    have h1 := getElem?_of_toList pre (48 :: post) (by simpa [digitBytes_zero] using hb) 1
    rw [Nat.add_zero] at h0
    unfold parseInteger
    rw [Runs.bind_iff (runs_nextChar b pre.length h0)]
    dsimp only
    rw [if_pos (by decide), Runs.bind_iff (runs_peekOrNull b _), h1]
    rcases hp : post.head? with _ | c
    · simp [← List.head?_eq_getElem?, hp, digitBytes_zero]
      rfl
    · simp [← List.head?_eq_getElem?, hp, hpost c hp, digitBytes_zero]
  · obtain ⟨c, rest, hc, hlo, hhi⟩ := head_digitBytes hpos
    have hb' : b.toList = pre ++ c :: (rest ++ post) := by simpa [hc] using hb
    have h0 := getElem?_of_toList pre (c :: (rest ++ post)) hb' 0
    rw [Nat.add_zero] at h0
    -- the digits after the first one run to the end of the number
    have hskip : skipDigitsFrom b (pre.length + 1) = pre.length + (digitBytes n).length := by
      have := skip_stops (fun _ _ h => skipDigitsFrom_of_some h) (fun _ h => skipDigitsFrom_of_none h)
        (show b.toList = (pre ++ [c]) ++ rest ++ post by simpa using hb')
        (fun d hd => isDigit_of_mem_digitBytes d (by rw [hc]; exact List.mem_cons_of_mem c hd)) hpost
      simpa [hc, Nat.add_assoc, Nat.add_comm 1] using this
    have hdigits : (b.extract (pre.length + 1 - 1) (pre.length + (digitBytes n).length)).toList =
        digitBytes n := by
      rw [Bytes.toList_extract, hb, Nat.add_sub_cancel]
      simp [List.extract]
    have htake := take_eq ((digitBytes n).map fun x => x.toNat - 48) 0 0
      (by rw [foldl_digitBytes]; exact hn)
    rw [foldl_digitBytes, Nat.zero_add, List.length_map] at htake
    unfold parseInteger
    rw [Runs.bind_iff (runs_nextChar b pre.length h0)]
    dsimp only
    have hne : ¬ (c == 48) = true := by
      rw [beq_iff_eq]
      rintro rfl
      exact absurd hlo (by decide)
    rw [if_neg hne, if_pos (by simp [hlo, hhi]), Runs.bind_iff (runs_read b _),
      Runs.bind_iff (runs_get b _)]
    rw [hskip, hdigits, htake]
    dsimp only
    rw [List.length_map, if_neg (Nat.lt_irrefl _), Runs.bind_iff (runs_set b _ _)]

/-- What may follow an integer's digits: the end of the text, or a byte that
is not a digit, a decimal point or an exponent mark. -/
def EndsNumber (o : Option UInt8) : Prop := ∀ c ∈ o, isDigit c = false ∧ c ≠ 46 ∧ c ≠ 101 ∧ c ≠ 69

theorem runs_afterDigits {b : ByteArray} {i : Nat} (h : EndsNumber b[i]?) (positive : Bool) (s : Nat) :
    Runs (parseInteger.afterDigits positive s) b i
      (if positive then .unsigned s
        else if s == 0 || s > Nat.pow 2 63 then .double (-s.toUInt64.toFloat) else .signed (-(s : Int))) i := by
  have hc : b[i]?.getD 0 ≠ 46 ∧ b[i]?.getD 0 ≠ 101 ∧ b[i]?.getD 0 ≠ 69 := by
    rcases hb : b[i]? with _ | c
    · decide
    · exact (h c hb).2
  unfold parseInteger.afterDigits
  rw [Runs.bind_iff (runs_peekOrNull b i), if_neg (by simpa using hc.1),
    if_neg (by simpa using And.intro hc.2.1 hc.2.2)]
  split_ifs <;> rfl

theorem isSpace_of_isDigit : ∀ c : UInt8, isDigit c = true → isSpace c = false := by decide +kernel

theorem exists_cons_digitBytes (n : Nat) : ∃ c rest, digitBytes n = c :: rest := by
  rcases Nat.eq_zero_or_pos n with rfl | hpos
  · exact ⟨48, [], digitBytes_zero⟩
  · obtain ⟨c, rest, hc, -⟩ := head_digitBytes hpos
    exact ⟨c, rest, hc⟩

/-- An unsigned number after white space: the reader sees its first digit,
then reads the whole number. -/
theorem runs_spaced_digits {ws : List UInt8} (hws : ∀ c ∈ ws, isSpace c = true) {n : Nat}
    (hn : n ≤ wordMax) {b : ByteArray} {pre post : List UInt8}
    (hb : b.toList = pre ++ (ws ++ digitBytes n) ++ post) (hpost : EndsNumber post.head?) :
    ∃ c, isDigit c = true ∧ ¬ (c == 45) = true ∧
      Runs parseWhitespace b pre.length (some c) (pre.length + ws.length) ∧
      Runs (parseInteger true) b (pre.length + ws.length) (.unsigned n)
        (pre.length + ws.length + (digitBytes n).length) := by
  obtain ⟨c, rest, hc⟩ := exists_cons_digitBytes n
  have hdigit : isDigit c = true := isDigit_of_mem_digitBytes c (by rw [hc]; exact List.mem_cons_self)
  have hpeek := scans_parseWhitespace hws (isSpace_of_isDigit c hdigit) b pre (digitBytes n ++ post)
    (by simpa using hb) (by simp [hc])
  have hend := getElem?_of_toList (pre ++ ws ++ digitBytes n) post (by simpa using hb) 0
  rw [Nat.add_zero, ← List.head?_eq_getElem?] at hend
  simp only [List.length_append] at hend
  have hint := (runs_parseInteger_digits true hn
    (show b.toList = (pre ++ ws) ++ digitBytes n ++ post by simpa using hb)
    (fun c hc => (hpost c hc).1)).mpr
    (runs_afterDigits (by rw [List.length_append, hend]; exact hpost) true n)
  rw [if_pos rfl, List.length_append] at hint
  refine ⟨c, hdigit, ?_, hpeek, hint⟩
  rw [beq_iff_eq]
  rintro rfl
  exact absurd hdigit (by decide)

/-- An unsigned integer up to `max`, after white space. -/
theorem scans_readUnsigned {max : Nat} (exp : String) (hmax : max ≤ wordMax) {ws : List UInt8}
    (hws : ∀ c ∈ ws, isSpace c = true) {n : Nat} (hn : n ≤ max) :
    Scans (readUnsigned max exp) (ws ++ digitBytes n) n EndsNumber := by
  intro b pre post hb hpost
  obtain ⟨c, hdigit, hminus, hpeek, hint⟩ := runs_spaced_digits hws (Nat.le_trans hn hmax) hb hpost
  rw [readUnsigned, Runs.placing_iff, Runs.bind_iff hpeek]
  dsimp only
  rw [if_neg hminus, if_pos hdigit, Runs.bind_iff hint]
  dsimp only
  rw [if_pos hn]
  simp [Nat.add_assoc]

/-- A signed integer that is not negative, after white space. -/
theorem scans_readI64_nonneg {ws : List UInt8} (hws : ∀ c ∈ ws, isSpace c = true) {n : Nat}
    (hn : n < Nat.pow 2 63) : Scans readI64 (ws ++ digitBytes n) (n : Int) EndsNumber := by
  intro b pre post hb hpost
  obtain ⟨c, hdigit, hminus, hpeek, hint⟩ :=
    runs_spaced_digits hws (Nat.le_trans hn.le (by decide)) hb hpost
  rw [readI64, Runs.placing_iff, Runs.bind_iff hpeek]
  dsimp only
  rw [if_neg hminus, if_pos hdigit, Runs.bind_iff hint]
  dsimp only
  rw [if_pos hn]
  simp [Nat.add_assoc]

/-- A negative integer, after white space: a minus sign, then the digits of
its magnitude. -/
theorem scans_readI64_neg {ws : List UInt8} (hws : ∀ c ∈ ws, isSpace c = true) {n : Nat}
    (hpos : 0 < n) (hn : n ≤ Nat.pow 2 63) :
    Scans readI64 (ws ++ 45 :: digitBytes n) (-(n : Int)) EndsNumber := by
  intro b pre post hb hpost
  have hpeek := scans_parseWhitespace hws (c := 45) (by decide) b pre (45 :: digitBytes n ++ post)
    (by simpa using hb) rfl
  have hend := getElem?_of_toList (pre ++ ws ++ 45 :: digitBytes n) post (by simpa using hb) 0
  rw [Nat.add_zero, ← List.head?_eq_getElem?] at hend
  simp only [List.length_append, List.length_cons] at hend
  have hint := (runs_parseInteger_digits false (Nat.le_trans hn (by decide))
    (show b.toList = (pre ++ ws ++ [45]) ++ digitBytes n ++ post by simpa using hb)
    (fun c hc => (hpost c hc).1)).mpr
    (runs_afterDigits (by
      have hpos : (pre ++ ws ++ [45]).length + (digitBytes n).length =
          pre.length + ws.length + ((digitBytes n).length + 1) := by
        simp only [List.length_append, List.length_singleton]
        omega
      rw [hpos, hend]
      exact hpost) false n)
  have hsigned : ¬ (n == 0 || decide (n > Nat.pow 2 63)) = true := by
    simp only [Bool.or_eq_true, beq_iff_eq, decide_eq_true_eq, not_or]
    exact ⟨Nat.pos_iff_ne_zero.mp hpos, Nat.not_lt.mpr hn⟩
  rw [if_neg (by decide), if_neg hsigned] at hint
  simp only [List.length_append, List.length_singleton] at hint
  rw [readI64, Runs.placing_iff, Runs.bind_iff hpeek]
  dsimp only
  rw [if_pos (by decide), Runs.bind_iff (runs_eat b _), Runs.bind_iff hint]
  simp [Nat.add_assoc]
  omega

/-! ## Records -/

section Struct

variable {σ : Type} {fields : List (FieldSpec σ)} {b : ByteArray}

/-- One entry of an object read as a record: the end of the object, a field
of the record not read before, or an unknown field, skipped. -/
theorem runs_entries_succ {first : Bool} {seen : List String} {st : σ} {n i j : Nat}
    {r : σ × List String} (h : Runs (readStruct.entries fields first seen st (n + 1)) b i r j) :
    (∃ k, Runs (nextKey first) b i none k ∧ r = (st, seen)) ∨
    (∃ key f k₁ k₂ st' k₃, Runs (nextKey first) b i (some key) k₁ ∧
      fields.find? (·.name == key) = some f ∧ seen.contains key = false ∧
      Runs objectColon b k₁ () k₂ ∧ Runs (f.read st) b k₂ st' k₃ ∧
      Runs (readStruct.entries fields false (key :: seen) st' n) b k₃ r j) ∨
    (∃ key k₁ k₂ k₃, Runs (nextKey first) b i (some key) k₁ ∧
      fields.find? (·.name == key) = none ∧ Runs objectColon b k₁ () k₂ ∧
      Runs ignoreValue b k₂ () k₃ ∧ Runs (readStruct.entries fields false seen st n) b k₃ r j) := by
  rw [readStruct.entries.eq_2] at h
  obtain ⟨o, k₁, hkey, h⟩ := Runs.of_bind h
  rcases o with _ | key
  · exact Or.inl ⟨k₁, hkey, (Runs.pure_iff.mp h).1.symm⟩
  dsimp only at h
  rcases hf : fields.find? (·.name == key) with _ | f
  · rw [hf] at h
    obtain ⟨_, k₂, hcolon, h⟩ := Runs.of_bind h
    obtain ⟨_, k₃, hignore, h⟩ := Runs.of_bind h
    exact Or.inr (Or.inr ⟨key, k₁, k₂, k₃, hkey, hf, hcolon, hignore, h⟩)
  · rw [hf] at h
    dsimp only at h
    by_cases hseen : seen.contains key = true
    · rw [if_pos hseen] at h
      obtain ⟨_, _, hthrow, _⟩ := Runs.of_bind h
      exact absurd hthrow Runs.not_throw
    · rw [if_neg hseen] at h
      obtain ⟨_, k₂, hcolon, h⟩ := Runs.of_bind h
      obtain ⟨st', k₃, hread, h⟩ := Runs.of_bind h
      exact Or.inr (Or.inl ⟨key, f, k₁, k₂, st', k₃, hkey, hf, by simpa using hseen, hcolon,
        hread, h⟩)

/-- A field of the record not read before is read, and the entries go on. -/
theorem runs_entries_field {first : Bool} {seen : List String} {st st' : σ} {n i j : Nat}
    {r : σ × List String} {key : String} {f : FieldSpec σ} {k₁ k₂ k₃ : Nat}
    (hkey : Runs (nextKey first) b i (some key) k₁) (hf : fields.find? (·.name == key) = some f)
    (hnew : seen.contains key = false) (hcolon : Runs objectColon b k₁ () k₂)
    (hread : Runs (f.read st) b k₂ st' k₃) :
    Runs (readStruct.entries fields first seen st (n + 1)) b i r j ↔
      Runs (readStruct.entries fields false (key :: seen) st' n) b k₃ r j := by
  rw [readStruct.entries.eq_2, Runs.bind_iff hkey]
  dsimp only
  rw [hf]
  dsimp only
  rw [if_neg (by rw [hnew]; exact Bool.false_ne_true), Runs.bind_iff hcolon, Runs.bind_iff hread]

/-- Reading the entries of an object keeps a property of the record that only
the fields named in `K` can change, once every one of them has been read: a
second entry for one of them is refused as a duplicate. -/
theorem entries_keep (Q : σ → Prop) (K : List String)
    (hkeep : ∀ f ∈ fields, f.name ∉ K → ∀ st st' i j, Q st → Runs (f.read st) b i st' j → Q st')
    (n : Nat) : ∀ {first : Bool} {seen : List String} {st : σ} {i j : Nat} {r : σ × List String},
      (∀ k ∈ K, k ∈ seen) → Q st → Runs (readStruct.entries fields first seen st n) b i r j → Q r.1 := by
  induction n with
  | zero =>
    intro first seen st i j r _ hq h
    rw [readStruct.entries.eq_1] at h
    rw [← (Runs.pure_iff.mp h).1]
    exact hq
  | succ n ih =>
    intro first seen st i j r hK hq h
    rcases runs_entries_succ h with ⟨_, _, rfl⟩ | ⟨key, f, _, _, st', _, _, hf, hnew, _, hread, h⟩ |
      ⟨_, _, _, _, _, _, _, _, h⟩
    · exact hq
    · have hname : f.name = key := by simpa using List.find?_some hf
      have hout : f.name ∉ K := fun hin => by
        have := hK _ hin
        rw [hname] at this
        simp [this] at hnew
      refine ih (fun k hk => List.mem_cons_of_mem key (hK k hk)) ?_ h
      exact hkeep f (List.mem_of_find?_eq_some hf) hout st st' _ _ hq hread
    · exact ih hK hq h

/-- An object read as a record: after the opening brace, its entries. -/
theorem runs_readStruct {name : String} {init v : σ} {i j : Nat}
    (h : Runs (readStruct name fields init) b i v j) (hopen : b[skipSpaceFrom b i]? = some 123) :
    ∃ seen k, Runs (readStruct.entries fields true [] init (b.size + 1)) b (skipSpaceFrom b i + 1)
      (v, seen) k := by
  rw [readStruct, Runs.placing_iff] at h
  obtain ⟨o, k₁, hws, h⟩ := Runs.of_bind h
  obtain ⟨rfl, rfl⟩ := Runs.unique hws (runs_parseWhitespace b i)
  rw [hopen] at h
  change Runs (eat >>= fun _ => withEnd _ endMap) b _ v j at h
  rw [Runs.bind_iff (runs_eat b _)] at h
  obtain ⟨k₂, h⟩ := Runs.of_withEnd h
  rw [Runs.bind_iff (runs_fuelOf b _)] at h
  obtain ⟨⟨st, seen⟩, k₃, hentries, h⟩ := Runs.of_bind h
  dsimp only at h
  rcases hmissing : fields.find? (fun f => !f.optional && !seen.contains f.name) with _ | f
  · rw [hmissing] at h
    obtain ⟨rfl, -⟩ := Runs.pure_iff.mp h
    exact ⟨seen, k₃, hentries⟩
  · rw [hmissing] at h
    exact absurd h Runs.not_throw

/-- One entry of an object whose key, colon and value scan as the bytes
`wk`, `wc` and `wv`, for a field not read before: the entries go on after
those bytes with the field read. -/
theorem runs_entries_next {first : Bool} {seen : List String} {st st' : σ} {n j : Nat}
    {r : σ × List String} (pre : List UInt8)
    (h : Runs (readStruct.entries fields first seen st (n + 1)) b pre.length r j) {key : String}
    {f : FieldSpec σ} (hf : fields.find? (·.name == key) = some f) (hnew : seen.contains key = false)
    {wk wc wv : List UInt8} {nv : Option UInt8 → Prop}
    (hkey : Scans (nextKey first) wk (some key) fun _ => True)
    (hcolon : Scans objectColon wc () fun _ => True) (hread : Scans (f.read st) wv st' nv)
    (post : List UInt8) (hb : b.toList = pre ++ (wk ++ wc ++ wv) ++ post) (hpost : nv post.head?) :
    Runs (readStruct.entries fields false (key :: seen) st' n) b (pre ++ (wk ++ wc ++ wv)).length r j := by
  have e₁ := hkey b pre (wc ++ wv ++ post) (by simpa using hb) trivial
  have e₂ := hcolon b (pre ++ wk) (wv ++ post) (by simpa using hb) trivial
  have e₃ := hread b (pre ++ wk ++ wc) post (by simpa using hb) hpost
  rw [List.length_append] at e₂
  have hend : (pre ++ wk ++ wc).length + wv.length = (pre ++ (wk ++ wc ++ wv)).length := by
    simp [Nat.add_assoc]
  rw [hend, List.length_append, List.length_append] at e₃
  exact (runs_entries_field e₁ hf hnew e₂ e₃).mp h

end Struct

/-- A number is written as its decimal digits. -/
theorem toUTF8_toString_nat (n : Nat) : (toString n).toUTF8.toList = digitBytes n := by
  show (String.ofList (Nat.toDigits 10 n)).toUTF8.toList = _
  rw [toUTF8_ofList_ascii]
  · rfl
  · intro c hc
    have := Nat.isDigit_of_mem_toDigits (by decide) (by decide) hc
    simp only [Char.isDigit, Bool.and_eq_true, decide_eq_true_eq] at this
    have h57 : c.val.toNat ≤ '9'.val.toNat := UInt32.le_iff_toNat_le.mp this.2
    show c.val.toNat ≤ 127
    exact Nat.le_trans h57 (by decide)

/-- A 64-bit word, after white space. -/
theorem scans_readU64 {ws : List UInt8} (hws : ∀ c ∈ ws, isSpace c = true) (n : UInt64) :
    Scans readU64 (ws ++ digitBytes n.toNat) n.toNat EndsNumber :=
  scans_readUnsigned "u64" (Nat.le_refl _) hws (by have := n.toNat_lt; simp [wordMax]; omega)

/-- A 32-bit word, after white space. -/
theorem scans_readU32 {ws : List UInt8} (hws : ∀ c ∈ ws, isSpace c = true) (n : UInt32) :
    Scans readU32 (ws ++ digitBytes n.toNat) n.toNat EndsNumber :=
  scans_readUnsigned "u32" (by decide) hws (by have := n.toNat_lt; simp; omega)

/-- A signed 64-bit integer is written as its digits, after a minus sign when
it is negative. -/
theorem toUTF8_toString_int (t : Int) :
    (toString t).toUTF8.toList =
      if 0 ≤ t then digitBytes t.toNat else 45 :: digitBytes (-t).toNat := by
  rw [Int.toString_eq_repr, Int.repr_eq_if]
  split
  · exact toUTF8_toString_nat t.toNat
  · rw [String.toUTF8_eq_toByteArray, String.toByteArray_append, Bytes.toList_append,
      ← String.toUTF8_eq_toByteArray, ← String.toUTF8_eq_toByteArray]
    exact congrArg₂ (· ++ ·) (show ("-" : String).toUTF8.toList = [45] by decide +kernel)
      (toUTF8_toString_nat _)

/-- A signed 64-bit integer as it is written, after white space. -/
theorem scans_readI64 {ws : List UInt8} (hws : ∀ c ∈ ws, isSpace c = true) (t : Int64) :
    Scans readI64 (ws ++ (toString t.toInt).toUTF8.toList) t.toInt EndsNumber := by
  have hlo := Int64.le_toInt t
  have hhi := Int64.toInt_lt t
  rw [toUTF8_toString_int]
  split
  · rename_i h
    have hn : (t.toInt.toNat : Int) = t.toInt := Int.toNat_of_nonneg h
    have := scans_readI64_nonneg hws (n := t.toInt.toNat)
      (show t.toInt.toNat < 9223372036854775808 by omega)
    rwa [hn] at this
  · rename_i h
    have hn : ((-t.toInt).toNat : Int) = -t.toInt := Int.toNat_of_nonneg (by omega)
    have := scans_readI64_neg hws (n := (-t.toInt).toNat) (by omega)
      (show (-t.toInt).toNat ≤ 9223372036854775808 by omega)
    rwa [hn, Int.neg_neg] at this

/-! ## Documents -/

theorem not_runs_failPeek {α : Type} {c : Code} {b : ByteArray} {i j : Nat} {v : α} :
    ¬ Runs (failPeek c : P α) b i v j := by
  intro h
  unfold failPeek at h
  rw [Runs.bind_iff (runs_read b i), Runs.bind_iff (runs_get b i)] at h
  exact Runs.not_throw h

/-- A document that reads as `v`: the reader returned `v` from its first byte. -/
theorem runs_of_readDocumentBytes {α : Type} {r : P α} {bytes : ByteArray} {v : α}
    (h : readDocumentBytes r bytes = .ok v) : ∃ j, Runs r bytes 0 v j := by
  unfold readDocumentBytes at h
  obtain ⟨a, k, hr, hend⟩ := Runs.of_bind (show Runs (r >>= _) bytes 0 v _ from Prod.ext h rfl)
  obtain ⟨o, _, _, hend⟩ := Runs.of_bind hend
  rcases o with _ | c
  · obtain ⟨rfl, -⟩ := Runs.pure_iff.mp hend
    exact ⟨k, hr⟩
  · exact absurd hend not_runs_failPeek

end Json
end PowChain
