import PowChain.Genesis.Json
import PowChain.Proofs.Json.Scan

/-!
# The stored genesis document

A chain keeps its genesis record as the pretty-printed document under `g`,
and a chain reopened from its store takes its genesis record, difficulty
included, from that document.  The difficulty decides which blocks a chain
accepts, so it must survive the trip:

* `Genesis.toJson_toUTF8` — the written document opens with the chain id, the
  genesis time and the difficulty, each a number followed by a comma;
* `Genesis.difficulty_ofStored` — a stored document reads back with the
  difficulty it was written with.  The reader meets the difficulty as the
  third entry, and a later entry cannot set it again: every other field
  leaves it alone, and a second `difficulty` entry is refused.
-/

namespace PowChain
namespace Genesis

open Json

/-! ## The written document -/

theorem pretty_num (level : Nat) (t : String) : Json.Doc.pretty level (.num t) = t := rfl

theorem prettyFields_cons_cons (level : Nat) (k : String) (d : Json.Doc) (f : String × Json.Doc)
    (fs : List (String × Json.Doc)) :
    prettyFields level ((k, d) :: f :: fs) =
      indent level ++ quote k ++ ": " ++ d.pretty level ++ ",\n" ++ prettyFields level (f :: fs) :=
  rfl

theorem toList_toUTF8_append (s t : String) :
    (s ++ t).toUTF8.toList = s.toUTF8.toList ++ t.toUTF8.toList := by
  simp only [String.toUTF8_eq_toByteArray, String.toByteArray_append, Bytes.toList_append]

/-- A written genesis document begins with the opening brace, the entries
for the chain id, the genesis time and the difficulty, and a comma. -/
theorem toJson_prefix (g : Genesis) :
    [123] ++
      (([10, 32, 32] ++ 34 :: ("chain_id".toUTF8.toList ++ [34])) ++ ([] ++ [58]) ++
        ([32] ++ digitBytes g.chainId.toNat)) ++
      (([] ++ 44 :: ([10, 32, 32] ++ 34 :: ("genesis_time".toUTF8.toList ++ [34]))) ++
        ([] ++ [58]) ++ ([32] ++ (toString g.genesisTime.toInt).toUTF8.toList)) ++
      (([] ++ 44 :: ([10, 32, 32] ++ 34 :: ("difficulty".toUTF8.toList ++ [34]))) ++
        ([] ++ [58]) ++ ([32] ++ digitBytes g.difficulty.toNat)) ++ [44] <+:
      g.toJson.toUTF8.toList := by
  rw [toJson, toDoc, Json.Doc.pretty.eq_4 0 _ (List.cons_ne_nil _ _), prettyFields_cons_cons,
    prettyFields_cons_cons, prettyFields_cons_cons, pretty_num, pretty_num, pretty_num]
  simp only [toList_toUTF8_append]
  have hopen : ("\x7b\n" : String).toUTF8.toList = [123, 10] := by decide +kernel
  have hindent : (indent (0 + 1)).toUTF8.toList = [32, 32] := by decide +kernel
  have hcolon : (": " : String).toUTF8.toList = [58, 32] := by decide +kernel
  have hcomma : (",\n" : String).toUTF8.toList = [44, 10] := by decide +kernel
  have hkey₁ : (quote "chain_id").toUTF8.toList = 34 :: ("chain_id".toUTF8.toList ++ [34]) := by
    decide +kernel
  have hkey₂ : (quote "genesis_time").toUTF8.toList =
      34 :: ("genesis_time".toUTF8.toList ++ [34]) := by
    decide +kernel
  have hkey₃ : (quote "difficulty").toUTF8.toList = 34 :: ("difficulty".toUTF8.toList ++ [34]) := by
    decide +kernel
  have hword (n : UInt64) : (toString n).toUTF8.toList = digitBytes n.toNat := toUTF8_toString_nat _
  have hhalf (n : UInt32) : (toString n).toUTF8.toList = digitBytes n.toNat := toUTF8_toString_nat _
  rw [hopen, hindent, hcolon, hcomma, hkey₁, hkey₂, hkey₃, hword, hhalf]
  simp [List.append_assoc]

/-! ## Reading it back -/

theorem plain_keys : ∀ key ∈ ["chain_id", "genesis_time", "difficulty"],
    ∀ c ∈ key.toUTF8.toList, Plain c := by
  decide +kernel

theorem endsNumber_comma : EndsNumber (some 44) := by
  intro c hc
  cases hc
  decide

/-- A stored genesis document reads back with the difficulty it was written
with. -/
theorem difficulty_ofStored {g g' : Genesis} (h : ofStored g.toJson.toUTF8 = .ok g') :
    g'.difficulty = g.difficulty := by
  have hdoc : readDocumentBytes read g.toJson.toUTF8 = .ok g' := by
    unfold ofStored at h
    cases hd : readDocumentBytes read g.toJson.toUTF8 with
    | error e => rw [hd] at h; cases h
    | ok v => rw [hd] at h; cases h; rfl
  obtain ⟨j, hrun⟩ := runs_of_readDocumentBytes hdoc
  obtain ⟨rest, hrest⟩ := toJson_prefix g
  rw [read] at hrun
  -- the document opens with a brace, with no white space before it
  have hopen : g.toJson.toUTF8[0]? = some 123 := by
    rw [Json.getElem?_eq_toList, ← hrest]
    rfl
  have hskip : skipSpaceFrom g.toJson.toUTF8 0 = 0 := by
    rw [skipSpaceFrom_of_some hopen, if_neg (by decide)]
  obtain ⟨seen, k, hentries⟩ := runs_readStruct hrun (by rw [hskip]; exact hopen)
  have hsize : 2 ≤ g.toJson.toUTF8.size := by
    rw [← Bytes.length_toList, ← hrest]
    simp
  obtain ⟨m, hm⟩ : ∃ m, g.toJson.toUTF8.size + 1 = m + 1 + 1 + 1 :=
    ⟨g.toJson.toUTF8.size - 2, by omega⟩
  rw [hskip, hm] at hentries
  change Runs _ _ [123].length _ _ at hentries
  have hspaces : ∀ c ∈ ([10, 32, 32] : List UInt8), isSpace c = true := by decide +kernel
  have hspace : ∀ c ∈ ([32] : List UInt8), isSpace c = true := by decide +kernel
  have hnone : ∀ c ∈ ([] : List UInt8), isSpace c = true := by simp
  -- the chain id, the genesis time and the difficulty, in that order
  have hcolon := scans_objectColon hnone
  -- the entries for the genesis time and the difficulty, as they follow the chain id
  set E₂ : List UInt8 := ([] ++ 44 :: ([10, 32, 32] ++ 34 :: ("genesis_time".toUTF8.toList ++ [34]))) ++
    ([] ++ [58]) ++ ([32] ++ (toString g.genesisTime.toInt).toUTF8.toList) with hE₂
  set E₃ : List UInt8 := ([] ++ 44 :: ([10, 32, 32] ++ 34 :: ("difficulty".toUTF8.toList ++ [34]))) ++
    ([] ++ [58]) ++ ([32] ++ digitBytes g.difficulty.toNat) with hE₃
  have h₁ := runs_entries_next [123] hentries rfl rfl
    (scans_nextKey_first hspaces (plain_keys "chain_id" (by decide))) hcolon
    (Scans.map (scans_readU64 hspace g.chainId)) (E₂ ++ E₃ ++ 44 :: rest)
    (by rw [← hrest]; simp only [List.append_assoc, List.singleton_append]) endsNumber_comma
  have h₂ := runs_entries_next _ h₁ rfl rfl
    (scans_nextKey_next hnone hspaces (plain_keys "genesis_time" (by decide))) hcolon
    (Scans.map (scans_readI64 hspace g.genesisTime)) (E₃ ++ 44 :: rest)
    (by rw [← hrest]; simp only [hE₂, List.append_assoc, List.singleton_append]) endsNumber_comma
  have h₃ := runs_entries_next _ h₂ rfl rfl
    (scans_nextKey_next hnone hspaces (plain_keys "difficulty" (by decide))) hcolon
    (Scans.map (scans_readU32 hspace g.difficulty)) (44 :: rest)
    (by rw [← hrest]; simp only [hE₂, hE₃, List.append_assoc, List.singleton_append])
    endsNumber_comma
  -- no later entry sets the difficulty again
  refine entries_keep (fun st => st.difficulty = g.difficulty) ["difficulty"] ?_ m
    (by simp) (by simp) h₃
  intro f hf hname st st' _ _ hq hread
  simp only [List.mem_cons, List.not_mem_nil, or_false] at hf
  rcases hf with rfl | rfl | rfl | rfl | rfl | rfl | rfl | rfl | rfl
  -- the third reader is the difficulty's own, which is excluded by name
  pick_goal 3
  · exact absurd (List.mem_singleton_self _) hname
  -- every other reader sets another field of the record
  all_goals
    obtain ⟨_, rfl⟩ := Runs.exists_of_bind_pure hread
    exact hq

end Genesis
end PowChain
