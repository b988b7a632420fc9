import PowChain.Json.Reader

/-!
# Typed reading of JSON

Readers for the value types that JSON documents of the ledger hold: unsigned
and signed 64-bit integers (and narrower unsigned ones), text, byte strings
(a text or an array of bytes), maps from text to a value, and records with
named fields.  Each reader either returns the value or reports, in the words
of the format, what it found instead and what it expected.

A record accepts an object (fields in any order, unknown fields skipped, a
repeated field refused) or an array (fields in declaration order).  A field
may have a default, used when it is absent.  When fields are missing, the
first missing one in declaration order is reported, after the closing brace.
-/

namespace PowChain
namespace Json

/-- Runs `x` and, whatever it gives, also runs `finish`; the first fault of
`x` wins, then that of `finish`; an unplaced fault is placed afterwards. -/
def withEnd {α : Type} (x : P α) (finish : P Unit) : P α := do
  let r ← tryCatch (do pure (Except.ok (← x))) (fun e => pure (Except.error e))
  let f ← tryCatch (do finish; pure none) (fun e => pure (some e))
  match r, f with
  | .error e, _ => throw (← place e)
  | .ok _, some e => throw (← place e)
  | .ok v, none => pure v

/-- The closing bracket of an array. -/
def endSeq : P Unit := do
  match ← parseWhitespace with
  | some 93 => eat
  | some 44 =>
    eat
    match ← parseWhitespace with
    | some 93 => failPeek .trailingComma
    | _ => failPeek .trailingChars
  | some _ => failPeek .trailingChars
  | none => failPeek .eofList

/-- The closing brace of an object. -/
def endMap : P Unit := do
  match ← parseWhitespace with
  | some 125 => eat
  | some 44 => failPeek .trailingComma
  | some _ => failPeek .trailingChars
  | none => failPeek .eofObject

/-- Moves to the next element of an array: `false` at its end. -/
def nextElement (first : Bool) : P Bool := do
  match ← parseWhitespace with
  | some 93 => pure false
  | some 44 =>
    if first then pure true
    else
      eat
      match ← parseWhitespace with
      | some 93 => failPeek .trailingComma
      | some _ => pure true
      | none => failPeek .eofValue
  | some _ => if first then pure true else failPeek .expectedListCommaOrEnd
  | none => failPeek .eofList

/-- Moves to the next key of an object and reads it: none at its end. -/
def nextKey (first : Bool) : P (Option String) := do
  let c ← match ← parseWhitespace with
    | some 125 => pure none
    | some 44 =>
      if first then pure (some 44)
      else do eat; parseWhitespace
    | some c => if first then pure (some c) else failPeek .expectedObjectCommaOrEnd
    | none => failPeek .eofObject
  match c with
  | none =>
    -- distinguish the end of the object from a missing key after a comma
    match ← peek with
    | some 125 => pure none
    | _ => failPeek .eofValue
  | some 34 => do eat; pure (some (← parseStr))
  | some 125 => failPeek .trailingComma
  | some _ => failPeek .keyMustBeString

/-- The colon between a key and its value. -/
def objectColon : P Unit := do
  match ← parseWhitespace with
  | some 58 => eat
  | some _ => failPeek .expectedColon
  | none => failPeek .eofObject

/-- After a complete value inside the open bracket `frame`: closes brackets
while they end, and stops before the next element; none when the outermost
bracket has closed. -/
def closeFrames : Nat → Bool → UInt8 → List UInt8 → P (Option (UInt8 × List UInt8))
  | 0, _, _, _ => pure none
  | fuel + 1, acceptComma, frame, stack => do
    match ← parseWhitespace with
    | some c =>
      if c == 44 && acceptComma then do eat; pure (some (frame, stack))
      else if (c == 93 && frame == 91) || (c == 125 && frame == 123) then
        eat
        match stack with
        | [] => pure none
        | f :: rest => closeFrames fuel true f rest
      else if acceptComma then
        failPeek (if frame == 91 then .expectedListCommaOrEnd else .expectedObjectCommaOrEnd)
      else pure (some (frame, stack))
    | none => failPeek (if frame == 91 then .eofList else .eofObject)

/-- Skips values, checking their form, until the brackets opened so far are
closed; `enclosing` is the innermost open bracket, `stack` the others. -/
def ignoreLoop : Nat → Option UInt8 → List UInt8 → P Unit
  | 0, _, _ => pure ()
  | fuel + 1, enclosing, stack => do
    let c ← match ← parseWhitespace with
      | none => failPeek .eofValue
      | some c => pure c
    let opened ←
      if c == 110 then do eat; parseIdent [117, 108, 108]; pure none
      else if c == 116 then do eat; parseIdent [114, 117, 101]; pure none
      else if c == 102 then do eat; parseIdent [97, 108, 115, 101]; pure none
      else if c == 45 then do eat; ignoreNumber; pure none
      else if isDigit c then do ignoreNumber; pure none
      else if c == 34 then do eat; ignoreStr (← fuelOf); pure none
      else if c == 91 || c == 123 then do eat; pure (some c)
      else failPeek .expectedValue
    let next ← match opened with
      | some f => closeFrames fuel false f (enclosing.toList ++ stack)
      | none =>
        match enclosing, stack with
        | some f, _ => closeFrames fuel true f stack
        | none, f :: rest => closeFrames fuel true f rest
        | none, [] => pure none
    match next with
    | none => pure ()
    | some (frame, stack') =>
      if frame == 123 then
        match ← parseWhitespace with
        | some 34 => eat
        | some _ => failPeek .keyMustBeString
        | none => failPeek .eofObject
        ignoreStr (← fuelOf)
        match ← parseWhitespace with
        | some 58 => eat
        | some _ => failPeek .expectedColon
        | none => failPeek .eofObject
      ignoreLoop fuel (some frame) stack'

/-- Skips any one value, checking its form. -/
def ignoreValue : P Unit := do ignoreLoop (← fuelOf) none []

/-! ## Values -/

/-- An unsigned integer of at most `max`, named `exp` in faults. -/
def readUnsigned (max : Nat) (exp : String) : P Nat := placing do
  match ← parseWhitespace with
  | none => failPeek .eofValue
  | some c =>
    if c == 45 then
      eat
      match ← parseInteger false with
      | .signed i => throw (invalidValue (.signed i) exp)
      | n => throw (invalidType n.unexpected exp)
    else if isDigit c then
      match ← parseInteger true with
      | .unsigned n => if n ≤ max then pure n else throw (invalidValue (.unsigned n) exp)
      | n => throw (invalidType n.unexpected exp)
    else invalidHere exp

def readU64 : P Nat := readUnsigned (Nat.pow 2 64 - 1) "u64"
def readU32 : P Nat := readUnsigned (Nat.pow 2 32 - 1) "u32"
def readU8 : P Nat := readUnsigned 255 "u8"

/-- A signed 64-bit integer. -/
def readI64 : P Int := placing do
  match ← parseWhitespace with
  | none => failPeek .eofValue
  | some c =>
    if c == 45 then
      eat
      match ← parseInteger false with
      | .signed i => pure i
      | n => throw (invalidType n.unexpected "i64")
    else if isDigit c then
      match ← parseInteger true with
      | .unsigned n => if n < Nat.pow 2 63 then pure n else throw (invalidValue (.unsigned n) "i64")
      | n => throw (invalidType n.unexpected "i64")
    else invalidHere "i64"

/-- A text. -/
def readString : P String := placing do
  match ← parseWhitespace with
  | none => failPeek .eofValue
  | some 34 => do eat; parseStr
  | some _ => invalidHere "a string"

/-- A byte string: the bytes of a text, or an array of bytes. -/
def readByteBuf : P ByteArray := placing do
  match ← parseWhitespace with
  | none => failPeek .eofValue
  | some 34 => do eat; parseStrBytes
  | some 91 =>
    eat
    let rec items (first : Bool) (acc : Array UInt8) : Nat → P ByteArray
      | 0 => pure ⟨acc⟩
      | n + 1 => do
        if ← nextElement first then
          let b ← readU8
          items false (acc.push b.toUInt8) n
        else pure ⟨acc⟩
    withEnd (items true #[] (← fuelOf)) endSeq
  | some _ => invalidHere "byte array"

/-- A map from text to values; a later key replaces an earlier one. -/
def readMap {α : Type} (value : P α) : P (List (String × α)) := placing do
  match ← parseWhitespace with
  | none => failPeek .eofValue
  | some 123 =>
    eat
    let rec entries (first : Bool) (acc : List (String × α)) : Nat → P (List (String × α))
      | 0 => pure acc
      | n + 1 => do
        match ← nextKey first with
        | none => pure acc
        | some k =>
          objectColon
          let v ← value
          entries false ((k, v) :: acc.filter (·.1 != k)) n
    withEnd (do pure (← entries true [] (← fuelOf)).reverse) endMap
  | some _ => invalidHere "a map"

/-! ## Records -/

/-- One field of a record being built in `σ`. -/
structure FieldSpec (σ : Type) where
  name : String
  /-- Whether an absent field takes its default. -/
  optional : Bool
  read : σ → P σ

/-- A record named `name` with fields `fields`, built from `init`. -/
def readStruct {σ : Type} (name : String) (fields : List (FieldSpec σ)) (init : σ) : P σ := placing do
  match ← parseWhitespace with
  | none => failPeek .eofValue
  | some 123 =>
    eat
    let rec entries (first : Bool) (seen : List String) (st : σ) : Nat → P (σ × List String)
      | 0 => pure (st, seen)
      | n + 1 => do
        match ← nextKey first with
        | none => pure (st, seen)
        | some k =>
          match fields.find? (·.name == k) with
          | some f =>
            if seen.contains k then throw (duplicateField k)
            objectColon
            let st' ← f.read st
            entries false (k :: seen) st' n
          | none =>
            objectColon
            ignoreValue
            entries false seen st n
    let body : P σ := do
      let (st, seen) ← entries true [] init (← fuelOf)
      match fields.find? fun f => !f.optional && !seen.contains f.name with
      | some f => throw (missingField f.name)
      | none => pure st
    withEnd body endMap
  | some 91 =>
    eat
    let exp := s!"struct {name} with {fields.length} elements"
    let rec items (i : Nat) (first : Bool) (st : σ) : List (FieldSpec σ) → P σ
      | [] => pure st
      | f :: rest => do
        if ← nextElement first then
          let st' ← f.read st
          items (i + 1) false st' rest
        else if f.optional then items (i + 1) first st rest
        else throw (invalidLength i exp)
    withEnd (items 0 true init fields) endSeq
  | some _ => invalidHere s!"struct {name}"

/-- Reads a whole document of bytes with `r`: after the value only white
space may follow. -/
def readDocumentBytes {α : Type} (r : P α) (bytes : ByteArray) : Except Error α :=
  let doc : P α := do
    let v ← r
    match ← parseWhitespace with
    | some _ => failPeek .trailingChars
    | none => pure v
  (Id.run ((doc.run bytes).run.run 0)).1

/-- Reads a whole document with `r`: after the value only white space may
follow. -/
def readDocument {α : Type} (r : P α) (text : String) : Except Error α :=
  readDocumentBytes r text.toUTF8

end Json
end PowChain
