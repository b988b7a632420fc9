import PowChain.Bytes.Basic
import Mathlib

/-!
# Byte strings as lists

Every byte-level statement of the ledger is made about `ByteArray.toList`: the
order of store keys, prefix tests, and the little-endian words of the wire and
canonical forms.  This file ties `toList` to the bytes the array holds and
collects what follows from it:

* `Bytes.toList_eq_data` — `toList` lists the array's bytes, so it is
  injective (`Bytes.toList_inj`) and commutes with `++` and `extract`;
* `Bytes.compare_eq_iff` — two byte strings compare equal exactly when they
  are equal, and the order is oriented and transitive, so a list of keys kept
  in strictly increasing order has each key once;
* `ByteArray` equality by `==` is lawful, so lookups by `==` on keys can be
  read as lookups by `=`;
* `toUTF8_ofList_ascii` — a text of ASCII characters is written one byte per
  character.
-/

namespace PowChain
namespace Bytes

/-! ## `toList` -/

/-- The loop behind `ByteArray.toList`: from position `i`, with the bytes
before it collected in reverse. -/
theorem toList_loop (b : ByteArray) (i : Nat) (r : List UInt8) :
    ByteArray.toList.loop b i r = r.reverse ++ b.data.toList.drop i := by
  fun_induction ByteArray.toList.loop b i r with
  | case1 i r hi ih =>
    -- one more byte moves from the array to the front of the collected list
    have hlen : i < b.data.toList.length := by simpa using hi
    have hdrop : b.data.toList.drop i = b.get! i :: b.data.toList.drop (i + 1) := by
      rw [List.drop_eq_getElem_cons hlen]
      simp [ByteArray.get!, hi]
    rw [ih, hdrop]
    simp
  | case2 i r hi =>
    have hlen : b.data.toList.length ≤ i := by simpa using hi
    simp [List.drop_of_length_le hlen]

/-- `toList` lists the bytes the array holds. -/
theorem toList_eq_data (b : ByteArray) : b.toList = b.data.toList := by
  simp [ByteArray.toList, toList_loop]

@[simp] theorem length_toList (b : ByteArray) : b.toList.length = b.size := by
  rw [toList_eq_data]
  simp

theorem toList_inj {a b : ByteArray} : a.toList = b.toList ↔ a = b := by
  constructor
  · intro h
    apply ByteArray.ext
    rw [toList_eq_data, toList_eq_data] at h
    exact Array.toList_inj.mp h
  · rintro rfl
    rfl

@[simp] theorem toList_append (a b : ByteArray) : (a ++ b).toList = a.toList ++ b.toList := by
  simp [toList_eq_data, ByteArray.data_append]

@[simp] theorem toList_ofList (l : List UInt8) : (ofList l).toList = l := by
  simp [toList_eq_data, ofList]

@[simp] theorem toList_extract (b : ByteArray) (i j : Nat) :
    (b.extract i j).toList = b.toList.extract i j := by
  simp [toList_eq_data, ByteArray.data_extract]

@[simp] theorem toList_push (b : ByteArray) (x : UInt8) : (b.push x).toList = b.toList ++ [x] := by
  simp [toList_eq_data, ByteArray.data_push]

@[simp] theorem toList_empty' : ByteArray.empty.toList = [] := ByteArray.toList_empty

/-- The byte at `i`, or zero past the end, is the list's. -/
theorem getD_eq_getD_toList (b : ByteArray) (i : Nat) : getD b i = b.toList.getD i 0 := by
  unfold getD
  split
  · simp [toList_eq_data, *]
    rfl
  · rw [List.getD_eq_default _ _ (by rw [length_toList]; omega)]

/-! ## Equality by `==` -/

theorem beq_eq_true_iff {a b : ByteArray} : (a == b) = true ↔ a = b := by
  change (a.data == b.data) = true ↔ a = b
  simp only [beq_iff_eq]
  exact ⟨ByteArray.ext, fun h => h ▸ rfl⟩

instance instLawfulBEq : LawfulBEq ByteArray where
  eq_of_beq h := beq_eq_true_iff.mp h
  rfl := beq_eq_true_iff.mpr rfl

/-! ## The order of keys -/

theorem compare_eq_iff {a b : ByteArray} : compare a b = .eq ↔ a = b := by
  rw [compare, Std.LawfulEqCmp.compare_eq_iff_eq, toList_inj]

theorem compare_swap (a b : ByteArray) : compare a b = (compare b a).swap := by
  show Ord.compare a.toList b.toList = (Ord.compare b.toList a.toList).swap
  exact Std.OrientedCmp.eq_swap

theorem compare_lt_trans {a b c : ByteArray} (hab : compare a b = .lt) (hbc : compare b c = .lt) :
    compare a c = .lt := by
  have htrans : Std.TransCmp (Ord.compare : List UInt8 → List UInt8 → Ordering) := inferInstance
  exact htrans.lt_trans hab hbc

theorem compare_self (a : ByteArray) : compare a a = .eq := compare_eq_iff.mpr rfl

theorem ne_of_compare_lt {a b : ByteArray} (h : compare a b = .lt) : a ≠ b := by
  rintro rfl
  simp [compare_self] at h

theorem compare_gt_iff_lt {a b : ByteArray} : compare a b = .gt ↔ compare b a = .lt := by
  rw [compare_swap]
  cases compare b a <;> simp

/-! ## Sorting by key -/

section SortByKey

variable {α : Type} (key : α → ByteArray)

theorem insertByKey_eq_orderedInsert (a : α) (l : List α) :
    insertByKey key a l = l.orderedInsert (fun x y => compare (key x) (key y) != .gt) a := by
  induction l with
  | nil => rfl
  | cons b l ih => simp only [insertByKey, List.orderedInsert, ih]

/-- Sorting by key is insertion sort in the order of the keys. -/
theorem sortByKey_eq_insertionSort (l : List α) :
    sortByKey key l = l.insertionSort (fun x y => compare (key x) (key y) != .gt) := by
  induction l with
  | nil => rfl
  | cons a l ih =>
    rw [List.insertionSort_cons, ← ih, ← insertByKey_eq_orderedInsert]
    rfl

/-- Sorting by key only rearranges the list. -/
theorem perm_sortByKey (l : List α) : (sortByKey key l).Perm l := by
  rw [sortByKey_eq_insertionSort]
  exact List.perm_insertionSort _ l

end SortByKey

end Bytes

/-! ## ASCII text -/

/-- The UTF-8 form of a text of ASCII characters has one byte per character,
its code. -/
theorem toUTF8_ofList_ascii {cs : List Char} (h : ∀ c ∈ cs, c.toNat ≤ 127) :
    (String.ofList cs).toUTF8.toList = cs.map fun c => c.toNat.toUInt8 := by
  rw [String.toUTF8_eq_toByteArray, String.toByteArray_ofList]
  induction cs with
  | nil => simp
  | cons c cs ih =>
    have hc : c.toNat ≤ 127 := h c List.mem_cons_self
    rw [List.utf8Encode_cons, List.utf8Encode_singleton, Bytes.toList_append,
      ih fun d hd => h d (List.mem_cons_of_mem c hd)]
    have henc : String.utf8EncodeChar c = [c.toNat.toUInt8] := by
      simp only [String.utf8EncodeChar]
      rw [if_pos (show c.val.toNat ≤ 127 from hc)]
      rfl
    simp [henc, Bytes.toList_eq_data]

end PowChain
