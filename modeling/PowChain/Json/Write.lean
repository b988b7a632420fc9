import PowChain.Text.Escape

/-!
# Writing JSON text

Documents are written from a small tree: numbers as given, text quoted with
the escapes JSON requires (`\"`, `\\`, `\b`, `\f`, `\n`, `\r`, `\t`, and
`\u00XX` for other control characters, lowercase), arrays and objects in the
order given.  The compact form has no spaces; the pretty form puts each
element on its own line, indented by two spaces per level, with `": "`
between key and value, and writes an empty array or object as `[]` or `{}`.
-/

namespace PowChain
namespace Json

/-- A document to write. -/
inductive Doc where
  /-- A number, already in its text form. -/
  | num (text : String)
  | str (s : String)
  | bool (b : Bool)
  | null
  | arr (items : List Doc)
  | obj (fields : List (String × Doc))

/-- The quoted form of a text. -/
def quote (s : String) : String :=
  let esc (c : Char) : String :=
    if c == '"' then "\\\"" else if c == '\\' then "\\\\"
    else if c == '\n' then "\\n" else if c == '\r' then "\\r" else if c == '\t' then "\\t"
    else if c.toNat == 8 then "\\b" else if c.toNat == 12 then "\\f"
    else if c.toNat < 32 then
      "\\u00" ++ String.ofList [Char.ofNat (if c.toNat / 16 < 10 then 48 + c.toNat / 16 else 87 + c.toNat / 16),
        Char.ofNat (if c.toNat % 16 < 10 then 48 + c.toNat % 16 else 87 + c.toNat % 16)]
    else c.toString
  "\"" ++ String.join (s.toList.map esc) ++ "\""

mutual
/-- The compact text of a document. -/
def Doc.compact : Doc → String
  | .num t => t
  | .str s => quote s
  | .bool b => toString b
  | .null => "null"
  | .arr items => "[" ++ compactItems items ++ "]"
  | .obj fields => "\x7b" ++ compactFields fields ++ "\x7d"

def compactItems : List Doc → String
  | [] => ""
  | [d] => d.compact
  | d :: rest => d.compact ++ "," ++ compactItems rest

def compactFields : List (String × Doc) → String
  | [] => ""
  | [(k, d)] => quote k ++ ":" ++ d.compact
  | (k, d) :: rest => quote k ++ ":" ++ d.compact ++ "," ++ compactFields rest
end

/-- Two spaces per level. -/
def indent (level : Nat) : String := String.ofList (List.replicate (2 * level) ' ')

mutual
/-- The pretty text of a document at indentation `level`. -/
def Doc.pretty (level : Nat) : Doc → String
  | .arr [] => "[]"
  | .obj [] => "\x7b\x7d"
  | .arr items => "[\n" ++ prettyItems (level + 1) items ++ "\n" ++ indent level ++ "]"
  | .obj fields => "\x7b\n" ++ prettyFields (level + 1) fields ++ "\n" ++ indent level ++ "\x7d"
  | d => d.compact

def prettyItems (level : Nat) : List Doc → String
  | [] => ""
  | [d] => indent level ++ d.pretty level
  | d :: rest => indent level ++ d.pretty level ++ ",\n" ++ prettyItems level rest

def prettyFields (level : Nat) : List (String × Doc) → String
  | [] => ""
  | [(k, d)] => indent level ++ quote k ++ ": " ++ d.pretty level
  | (k, d) :: rest => indent level ++ quote k ++ ": " ++ d.pretty level ++ ",\n" ++ prettyFields level rest
end

end Json
end PowChain
