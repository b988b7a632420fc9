import PowChain.Sql.Builtin.Text
import PowChain.Sql.Builtin.Pattern
import PowChain.Sql.Builtin.Format
import PowChain.Sql.Builtin.Aggregate
import PowChain.Sql.Builtin.Date
import PowChain.Sql.Builtin.Json

/-!
# Built-in functions

The functions an expression may call, on values alone: the scalar functions
(`length`, `substr`, `hex`, `coalesce`, `format`, ...), the aggregates
(`count`, `sum`, `min`, ...) and `CAST`.  The text functions and the
patterns work on bytes (`Text`, `Pattern`), the formatter is `Format`, the
sums are `Sum`.

A null argument makes most functions null.  A function known to the
engine but not to this library (the date and JSON functions among them)
is found when a statement is prepared and fails when it runs.
-/

namespace PowChain
namespace Sql

/-- The text bytes of a value, as text functions read it. -/
def Value.textBytes (v : Value) : ByteArray := v.render.getD ByteArray.empty

/-! ## Casts -/

/-- A value cast to the affinity of a type name, in a database of text
encoding `enc`; a type name left empty casts as `NUMERIC` does.  A text
becomes a blob of its bytes in `enc`.  A blob becomes a text of its bytes
read in its own encoding, an odd last byte dropped under UTF-16. -/
def Value.castTo (enc : Encoding) (typeName : String) (v : Value) : Value :=
  match v with
  | .null => .null
  | _ =>
    let aff := if typeName.trimAscii.isEmpty then Affinity.numeric else Affinity.ofType typeName
    match aff with
    | .blob => match v with
      | .blob _ _ => v
      | _ => .blob ((v.encoded enc).getD ByteArray.empty) enc
    | .text => match v with
      | .blob b e =>
        let b := if enc == .utf8 then b else b.extract 0 (b.size / 2 * 2)
        .text (e.translate enc b) enc
      | _ => .text ((v.encoded enc).getD ByteArray.empty) enc
    | .integer => v.toInteger
    | .real => v.toReal
    | .numeric => v.numerify

/-! ## Scalar functions -/

/-- The SQL literal of a value: a double with fifteen digits, or twenty
when fifteen do not read back as the same double. -/
def Value.quoted : Value → ByteArray
  | .null => "NULL".toUTF8
  | .int i => (toString i).toUTF8
  | .real bits =>
    let short := formatReal bits .general (some 15) { alternate2 := true } 0
    if realEq (readReal short.toUTF8).2 bits then short.toUTF8
    else (formatReal bits .exponent (some 20) { alternate2 := true } 0).toUTF8
  | .text b e => Bytes.ofList (Text.quoteText (e.decode b).toList)
  | .blob b _ => Bytes.ofList ([88, 39] ++ Text.hexDigits b.toList ++ [39])

/-- The bytes `concat` takes of a value: its text, cut or padded with NULs
to the value's own size in bytes, which for a blob read in UTF-16 is not
the size of its text. -/
def Value.concatPiece (v : Value) : ByteArray :=
  match v with
  | .blob b _ =>
    let t := v.textBytes
    (t ++ Bytes.replicate (b.size - t.size) 0).extract 0 b.size
  | _ => v.textBytes

/-- `concat` and `concat_ws`: the pieces of the values that have bytes,
with the separator between them; a null or an empty value adds nothing. -/
def joinPieces (sep : ByteArray) (vs : List Value) : ByteArray :=
  match (vs.map Value.concatPiece).filter (·.size > 0) with
  | [] => ByteArray.empty
  | p :: ps => ps.foldl (fun acc q => acc ++ sep ++ q) p

/-- Why a call of a function fails. -/
def wrongArity (name : String) : String := s!"wrong number of arguments to function {name}()"

/-- The least, or with `most` the greatest, of values under a collation;
null when one is null.  Of equal values the first is kept. -/
def extreme (most : Bool) (coll : Collation) (vs : List Value) : Value :=
  if vs.any Value.isNull then .null
  else
    vs.foldl (fun acc v => match acc with
      | .null => v
      | a =>
        match Value.compareWith coll v a with
        | .lt => if most then a else v
        | .gt => if most then v else a
        | .eq => a) .null

/-- `round(x[, n])`: to `n` places after the point (0 to 30), half away
from zero; a double beyond `2^52` is left as it is. -/
def roundValue (x : Value) (places : Option Value) : Value :=
  if (places.map Value.isNull).getD false || x.isNull then .null
  else
    let n : Int := match places with
      | some p => max 0 (min 30 p.intValue)
      | none => 0
    let bits := x.realValue
    let r := Float.ofBits bits
    let bound : Float := 4503599627370496.0
    if r < -bound || r > bound then .real bits
    else if n == 0 then
      let half : Float := if r < 0 then -0.5 else 0.5
      .real (realOfInt (intOfReal (r + half).toBits))
    else
      let text := formatReal bits .fixed (some n.toNat) { alternate2 := true } 0
      .real (readReal text.toUTF8).2

/-- `abs(x)`: an integer's magnitude (an error for `-2^63`), a double's
for anything else. -/
def absValue (x : Value) : Except String Value :=
  match x with
  | .null => .ok .null
  | .int i => if i == minInt then .error "integer overflow" else .ok (.int i.natAbs)
  | v =>
    let bits := v.realValue
    .ok (.real (if (Float.ofBits bits) < 0 then bits ^^^ UInt64.ofNat (twoPow 63) else bits))

/-- `sign(x)`: `-1`, `0` or `1` for a number or a text that is one, null
otherwise. -/
def signValue (x : Value) : Value :=
  let num : Option UInt64 := match x with
    | .int i => some (realOfInt i)
    | .real b => some b
    | .text t e => (numericText false (e.decode t)).map Value.realValue
    | _ => none
  match num with
  | some b =>
    let f := Float.ofBits b
    .int (if f < 0 then -1 else if f > 0 then 1 else 0)
  | none => .null

/-- The options the engine was built with, as `sqlite_compileoption_used`
knows them. -/
def compileOptions : List String :=
  ["ATOMIC_INTRINSICS=1", "COMPILER=gcc", "DEFAULT_AUTOVACUUM", "DEFAULT_CACHE_SIZE=-2000",
   "DEFAULT_FILE_FORMAT=4", "DEFAULT_JOURNAL_SIZE_LIMIT=-1",
   "DEFAULT_MMAP_SIZE=0", "DEFAULT_PAGE_SIZE=4096", "DEFAULT_PCACHE_INITSZ=20",
   "DEFAULT_RECURSIVE_TRIGGERS", "DEFAULT_SECTOR_SIZE=4096", "DEFAULT_SYNCHRONOUS=2",
   "DEFAULT_WAL_AUTOCHECKPOINT=1000", "DEFAULT_WAL_SYNCHRONOUS=2", "DEFAULT_WORKER_THREADS=0",
   "ENABLE_API_ARMOR", "ENABLE_COLUMN_METADATA", "ENABLE_DBSTAT_VTAB", "ENABLE_FTS3",
   "ENABLE_FTS3_PARENTHESIS", "ENABLE_FTS5", "ENABLE_LOAD_EXTENSION", "ENABLE_MEMORY_MANAGEMENT",
   "ENABLE_RTREE", "ENABLE_STAT4", "MALLOC_SOFT_LIMIT=1024", "MAX_ATTACHED=10", "MAX_COLUMN=2000",
   "MAX_COMPOUND_SELECT=500", "MAX_DEFAULT_PAGE_SIZE=8192", "MAX_EXPR_DEPTH=1000",
   "MAX_FUNCTION_ARG=127", "MAX_LENGTH=1000000000", "MAX_LIKE_PATTERN_LENGTH=50000",
   "MAX_MMAP_SIZE=0x7fff0000", "MAX_PAGE_COUNT=1073741823", "MAX_PAGE_SIZE=65536",
   "MAX_SQL_LENGTH=1000000000", "MAX_TRIGGER_DEPTH=1000", "MAX_VARIABLE_NUMBER=32766",
   "MAX_VDBE_OP=250000000", "MAX_WORKER_THREADS=8", "MUTEX_PTHREADS", "SOUNDEX", "SYSTEM_MALLOC",
   "TEMP_STORE=1", "THREADSAFE=1", "USE_URI"]

/-- Whether an identifier character: a letter, a digit, `_`, `$` or a byte
past ASCII. -/
def isIdByte (b : UInt8) : Bool :=
  (48 ≤ b && b ≤ 57) || (65 ≤ b && b ≤ 90) || (97 ≤ b && b ≤ 122) || b == 95 || b == 36 || b ≥ 128

/-- `sqlite_compileoption_used(name)`: whether an option, named with or
without its prefix, is one of the build's; a name matches an option it is
a prefix of (letters folded) when no identifier character follows it
there. -/
def compileOptionUsed (x : Value) : Value :=
  match x.render with
  | none => .null
  | some b =>
    let name := (Text.untilNul b.toList).map Text.lowerByte
    let name := if name.take 7 == "sqlite_".toUTF8.toList then name.drop 7 else name
    .int (if compileOptions.any (fun o =>
        let ob := o.toUTF8.toList
        (ob.take name.length).map Text.lowerByte == name &&
          !((ob.drop name.length).head?.map isIdByte).getD false) then 1 else 0)

/-- The value of a scalar function of the given (lower-case) name, with the
collation its comparisons use. -/
def callScalar (name : String) (coll : Collation) (args : List Value) : Except String Value :=
  let arity (ok : Bool) (k : Unit → Except String Value) : Except String Value :=
    if ok then k () else .error (wrongArity name)
  let n := args.length
  let a0 := args.getD 0 .null
  let a1 := args.getD 1 .null
  let a2 := args.getD 2 .null
  let second : Option Value := if n ≥ 2 then some a1 else none
  let third : Option Value := if n ≥ 3 then some a2 else none
  match name with
  | "length" => arity (n == 1) fun _ => pure (Text.length a0)
  | "octet_length" => arity (n == 1) fun _ => pure (Text.octetLength a0)
  | "typeof" => arity (n == 1) fun _ => pure <| .ofString <| match a0 with
    | .null => "null"
    | .int _ => "integer"
    | .real _ => "real"
    | .text _ _ => "text"
    | .blob _ _ => "blob"
  | "hex" => arity (n == 1) fun _ => pure (Text.hex a0)
  | "unhex" => arity (n == 1 || n == 2) fun _ => pure (Text.unhex a0 second)
  | "lower" => arity (n == 1) fun _ => pure (Text.changeCase false a0)
  | "upper" => arity (n == 1) fun _ => pure (Text.changeCase true a0)
  | "abs" => arity (n == 1) fun _ => absValue a0
  | "sign" => arity (n == 1) fun _ => pure (signValue a0)
  | "round" => arity (n == 1 || n == 2) fun _ => pure (roundValue a0 second)
  | "coalesce" => arity (n ≥ 2) fun _ => pure ((args.find? (!·.isNull)).getD .null)
  | "ifnull" => arity (n == 2) fun _ => pure ((args.find? (!·.isNull)).getD .null)
  | "nullif" => arity (n == 2) fun _ =>
    pure (if !a0.isNull && !a1.isNull && Value.compareWith coll a0 a1 == .eq then .null else a0)
  | "iif" => arity (n == 3) fun _ => pure (if a0.truth == some true then a1 else a2)
  | "likely" | "unlikely" => arity (n == 1) fun _ => pure a0
  | "likelihood" => arity (n == 2) fun _ => pure a0
  | "zeroblob" => arity (n == 1) fun _ =>
    let k := a0.intValue
    if k > 1000000000 then .error "string or blob too big"
    else pure (.blob (Bytes.replicate (max 0 k).toNat 0) .utf8)
  | "quote" => arity (n == 1) fun _ => pure (.text a0.quoted .utf8)
  | "min" => arity (n ≥ 1) fun _ => pure (extreme false coll args)
  | "max" => arity (n ≥ 1) fun _ => pure (extreme true coll args)
  | "instr" => arity (n == 2) fun _ => pure (Text.instr a0 a1)
  | "replace" => arity (n == 3) fun _ => pure (Text.replace a0 a1 a2)
  | "trim" => arity (n == 1 || n == 2) fun _ => pure (Text.trim true true a0 second)
  | "ltrim" => arity (n == 1 || n == 2) fun _ => pure (Text.trim true false a0 second)
  | "rtrim" => arity (n == 1 || n == 2) fun _ => pure (Text.trim false true a0 second)
  | "substr" | "substring" => arity (n == 2 || n == 3) fun _ => pure (Text.substr a0 a1 third)
  | "unicode" => arity (n == 1) fun _ => pure (Text.unicode a0)
  | "char" => pure (Text.ofCodes args)
  | "soundex" => arity (n == 1) fun _ => pure (Text.soundex a0)
  | "printf" | "format" => pure (Format.format args)
  | "like" => arity (n == 2 || n == 3) fun _ => Pattern.like false a0 a1 third
  | "glob" => arity (n == 2) fun _ => Pattern.like true a0 a1 none
  | "sqlite_version" => arity (n == 0) fun _ => pure (.ofString "3.45.0")
  | "sqlite_compileoption_used" => arity (n == 1) fun _ => pure (compileOptionUsed a0)
  | "concat" => arity (n ≥ 1) fun _ => pure (.text (joinPieces ByteArray.empty args) .utf8)
  | "concat_ws" => arity (n ≥ 2) fun _ =>
    match a0 with
    | .null => pure .null
    | sep => pure (.text (joinPieces sep.textBytes (args.drop 1)) .utf8)
  | "match" => .error "unable to use function MATCH in the requested context"
  | "snippet" | "offsets" | "matchinfo" | "optimize" =>
    .error s!"unable to use function {name} in the requested context"
  | _ => .error s!"no such function: {name}"

/-- The arguments of a function as it reads them in a database of text
encoding `enc`: `hex` reads the bytes of a text, and `octet_length` those
of a text or a number, in `enc`. -/
def bytesArgs (enc : Encoding) (name : String) (args : List Value) : List Value :=
  let asBlob (v : Value) : Value := .blob ((v.encoded enc).getD ByteArray.empty) enc
  match name with
  | "hex" => args.map fun v => match v with
    | .text _ _ => asBlob v
    | _ => v
  | "octet_length" => args.map fun v => match v with
    | .text _ _ | .int _ | .real _ => asBlob v
    | _ => v
  | _ => args

/-- The functions the engine evaluates in place, whose value is one of their
arguments as it stands. -/
def passesValue (name : String) : Bool :=
  ["coalesce", "ifnull", "iif", "likely", "unlikely", "likelihood"].contains name

/-! ## Names and arities -/

/-- How many arguments a built-in function of a name takes, scalar and
aggregate alike; `none` when no built-in function has the name.  Some of
these names are known to a statement's preparation without being evaluated
here: a call of one fails only when it runs. -/
def builtinArity (name : String) : Option (Nat → Bool) :=
  let exactly (ks : List Nat) : Option (Nat → Bool) := some fun n => ks.contains n
  let atLeast (k : Nat) : Option (Nat → Bool) := some fun n => k ≤ n
  match name.toLower with
  | "abs" | "hex" | "length" | "lower" | "upper" | "octet_length" | "typeof" | "quote"
  | "likely" | "unlikely" | "unicode" | "zeroblob" | "randomblob" | "soundex" | "sign"
  | "avg" | "sum" | "total" | "json" | "jsonb" | "json_quote" | "json_error_position"
  | "json_group_array" | "jsonb_group_array" | "subtype" | "sqlite_compileoption_get"
  | "sqlite_compileoption_used" | "first_value" | "last_value" | "ntile" | "fts5"
  | "rtreedepth" | "optimize" | "offsets" => exactly [1]
  | "ifnull" | "nullif" | "instr" | "likelihood" | "glob" | "string_agg" | "json_patch"
  | "jsonb_patch" | "json_group_object" | "jsonb_group_object" | "timediff" | "nth_value"
  | "sqlite_log" | "->" | "->>" | "rtreenode" | "match" => exactly [2]
  | "iif" | "replace" => exactly [3]
  | "changes" | "total_changes" | "last_insert_rowid" | "random" | "sqlite_version"
  | "sqlite_source_id" | "current_date" | "current_time" | "current_timestamp"
  | "row_number" | "rank" | "dense_rank" | "percent_rank" | "cume_dist"
  | "fts5_source_id" => exactly [0]
  | "count" => exactly [0, 1]
  | "trim" | "ltrim" | "rtrim" | "round" | "group_concat" | "unhex" | "matchinfo"
  | "json_array_length" | "json_type" | "json_valid" | "fts3_tokenizer"
  | "load_extension" => exactly [1, 2]
  | "substr" | "substring" | "like" => exactly [2, 3]
  | "lag" | "lead" => exactly [1, 2, 3]
  | "min" | "max" | "concat" => atLeast 1
  | "coalesce" | "concat_ws" => atLeast 2
  | "char" | "printf" | "format" | "snippet" | "rtreecheck" | "date" | "time" | "datetime" | "julianday" | "strftime"
  | "unixepoch" | "json_array" | "jsonb_array" | "json_object" | "jsonb_object"
  | "json_extract" | "jsonb_extract" | "json_insert" | "jsonb_insert" | "json_replace"
  | "jsonb_replace" | "json_set" | "jsonb_set" | "json_remove" | "jsonb_remove" => atLeast 0
  | _ => none

/-- Why a call cannot be prepared: an unknown name, or a count of arguments
the function does not take. -/
def callProblem (name : String) (n : Nat) : Option String :=
  match builtinArity name with
  | none => some s!"no such function: {name}"
  | some takes => if takes n then none else some (wrongArity name)

/-! ## Aggregates -/

/-- Whether a function name with so many arguments is an aggregate. -/
def isAggregate (name : String) (n : Nat) (star : Bool) : Bool :=
  (name == "count" && (star || n ≤ 1)) || ((name == "min" || name == "max") && n == 1) ||
    ["sum", "total", "avg", "group_concat", "string_agg"].contains name || Json.isAggregate name

/-- The value of an aggregate over the argument lists of the rows of a group. -/
def callAggregate (name : String) (coll : Collation) (star : Bool) (rows : List (List Value)) :
    Except String Value :=
  let firsts := rows.map fun r => r.getD 0 .null
  let present := firsts.filter (!·.isNull)
  match name with
  | "count" => pure (.int (if star then rows.length else present.length))
  | "sum" => Sum.sum firsts
  | "total" => pure (Sum.total firsts)
  | "avg" => pure (Sum.avg firsts)
  | "min" => pure (if present.isEmpty then .null else extreme false coll present)
  | "max" => pure (if present.isEmpty then .null else extreme true coll present)
  | "group_concat" | "string_agg" =>
    let withSep := rows.filter fun r => !(r.getD 0 .null).isNull
    match withSep with
    | [] => pure .null
    | r :: rs =>
      let sepOf (r : List Value) : ByteArray :=
        if name == "string_agg" || r.length ≥ 2 then (r.getD 1 .null).textBytes else ",".toUTF8
      pure (.text (rs.foldl (fun acc r => acc ++ sepOf r ++ (r.getD 0 .null).textBytes) (r.getD 0 .null).textBytes) .utf8)
  | _ => .error s!"no such function: {name}"

end Sql
end PowChain
