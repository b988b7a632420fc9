import PowChain.Sql.Value

/-!
# Tokens of statements

A statement's text is cut into tokens: words (keywords and names), quoted
names (`"x"`, `[x]` and the back-quoted form), strings (`'x'`, a doubled
quote standing for one), blob literals (`X'0a1b'`), numbers, parameters and
operators.  Blanks and comments (`-- ...` to the end of the line, `/* ... */`)
separate tokens.  Every token keeps where it starts and stops in the text, so
that the text of a part of a statement can be given back as written.
-/

namespace PowChain
namespace Sql

/-- A piece of a statement. -/
inductive Token where
  /-- A bare word: a keyword or a name. -/
  | word (text : String)
  /-- A quoted name. -/
  | quoted (text : String)
  /-- A quoted string. -/
  | str (text : String)
  | blob (bytes : ByteArray)
  | num (text : String)
  /-- A parameter as written: `?`, `?` and a number, or a name after `$`,
  `@`, `:` or `#`. -/
  | param (text : String)
  /-- An operator or a bracket. -/
  | op (text : String)
  /-- Text that is no token. -/
  | bad (text : String)

/-- A token and where it stands in the text, by character. -/
structure Tok where
  token : Token
  start : Nat
  stop : Nat

namespace Token

/-- Whether a token is the keyword `k`, given in capitals. -/
def isKw (t : Token) (k : String) : Bool :=
  match t with
  | .word w => w.toUpper == k
  | _ => false

def isOp (t : Token) (o : String) : Bool :=
  match t with
  | .op x => x == o
  | _ => false

end Token

/-- Whether a character may start a bare word. -/
def wordStart (c : Char) : Bool := c.isAlpha || c == '_' || c.toNat ≥ 128

/-- Whether a character may continue a bare word. -/
def wordChar (c : Char) : Bool := c.isAlphanum || c == '_' || c == '$' || c.toNat ≥ 128

/-- Whether a character separates tokens: a space, a tab, a line feed, a
form feed or a carriage return. -/
def blank (c : Char) : Bool :=
  c == ' ' || c == '\t' || c == '\n' || c.toNat == 12 || c == '\r'

/-- How many characters after `$`, `@`, `:` or `#` a named parameter takes,
and whether it has a name.  The name is made of word characters, may hold
`::`, and may end in a bracketed part, which must close before a blank. -/
def paramNameSpan : Nat → Bool → List Char → Nat × Bool
  | 0, named, _ => (0, named)
  | _, named, [] => (0, named)
  | fuel + 1, named, c :: more =>
    if wordChar c then
      let (k, ok) := paramNameSpan fuel true more
      (k + 1, ok)
    else if c == '(' && named then
      let body := more.takeWhile fun d => !(blank d || d.toNat == 11) && d != ')'
      match more.drop body.length with
      | ')' :: _ => (body.length + 2, true)
      | _ => (body.length + 1, false)
    else if c == ':' && more.head? == some ':' then
      let (k, ok) := paramNameSpan fuel named (more.drop 1)
      (k + 2, ok)
    else (0, named)

/-- Whether a character is a hexadecimal digit. -/
def hexDigit (c : Char) : Bool := c.isDigit || ('a' ≤ c && c ≤ 'f') || ('A' ≤ c && c ≤ 'F')

/-- The value of a hexadecimal digit. -/
def hexValue (c : Char) : Nat :=
  if c.isDigit then c.toNat - 48
  else if 'a' ≤ c && c ≤ 'f' then c.toNat - 87
  else c.toNat - 55

/-- The text up to the closing `close`, a doubled `close` standing for one
when `doubles`; the rest after it, and whether the closing one was found. -/
def quotedPart (close : Char) (doubles : Bool) : List Char → List Char × List Char × Bool
  | [] => ([], [], false)
  | c :: rest =>
    if c == close then
      match rest with
      | d :: more =>
        if doubles && d == close then
          let (t, r, ok) := quotedPart close doubles more
          (close :: t, r, ok)
        else ([], rest, true)
      | [] => ([], [], true)
    else
      let (t, r, ok) := quotedPart close doubles rest
      (c :: t, r, ok)

/-- The characters after a block comment's end. -/
def afterComment : List Char → List Char
  | [] => []
  | '*' :: '/' :: rest => rest
  | _ :: rest => afterComment rest

/-- Pairs of hexadecimal digits as bytes. -/
def hexBytes : List Char → List UInt8
  | a :: b :: rest => (hexValue a * 16 + hexValue b).toUInt8 :: hexBytes rest
  | _ => []

/-- The operators of two or three characters, longest first. -/
def longOps : List String := ["->>", "||", "<=", ">=", "==", "!=", "<>", "<<", ">>", "->"]

/-- The characters that are operators on their own. -/
def shortOps : List Char := ['(', ')', ',', ';', '.', '+', '-', '*', '/', '%', '=', '<', '>', '&', '|', '~']

/-- The tokens of a text from position `pos`. -/
def tokensFrom : Nat → Nat → List Char → List Tok
  | 0, _, _ => []
  | _, _, [] => []
  | fuel + 1, pos, c :: rest =>
    let here (t : Token) (n : Nat) (after : List Char) : List Tok :=
      ⟨t, pos, pos + n⟩ :: tokensFrom fuel (pos + n) after
    if blank c then tokensFrom fuel (pos + 1) rest
    else if c == '-' && rest.head? == some '-' then
      let body := rest.takeWhile (· != '\n')
      tokensFrom fuel (pos + 1 + body.length) (rest.drop body.length)
    else if c == '/' && rest.head? == some '*' then
      let after := afterComment (rest.drop 1)
      tokensFrom fuel (pos + (c :: rest).length - after.length) after
    else if (c == 'x' || c == 'X') && rest.head? == some '\'' then
      let body := (rest.drop 1).takeWhile hexDigit
      let after := rest.drop (1 + body.length)
      match after with
      | '\'' :: more =>
        if body.length % 2 == 0 then here (.blob (Bytes.ofList (hexBytes body))) (body.length + 3) more
        else here (.bad (String.ofList (c :: rest.take (body.length + 2)))) (body.length + 3) more
      | _ =>
        -- an illegal blob runs to its closing quote, which it takes
        let junk := (rest.drop 1).takeWhile (· != '\'')
        let after := (rest.drop 1).drop junk.length
        let close := after.take 1
        here (.bad (String.ofList (c :: '\'' :: junk ++ close))) (junk.length + 2 + close.length)
          (after.drop 1)
    else if c == '\'' || c == '"' || c.toNat == 96 || c == '[' then
      let close := if c == '[' then ']' else c
      let (t, after, ok) := quotedPart close (c != '[') rest
      let n := (c :: rest).length - after.length
      if !ok then here (.bad (String.ofList (c :: rest))) n after
      else if c == '\'' then here (.str (String.ofList t)) n after
      else here (.quoted (String.ofList t)) n after
    else if c.isDigit || (c == '.' && (rest.head?.map Char.isDigit).getD false) then
      if c == '0' && (rest.head? == some 'x' || rest.head? == some 'X') && ((rest.drop 1).head?.map hexDigit).getD false then
        let body := (rest.drop 1).takeWhile hexDigit
        let n := 2 + body.length
        here (.num (String.ofList (c :: rest.take (1 + body.length)))) n (rest.drop (1 + body.length))
      else
        let ip := (c :: rest).takeWhile Char.isDigit
        let afterInt := (c :: rest).drop ip.length
        let (fp, afterFrac) := match afterInt with
          | '.' :: more => let f := more.takeWhile Char.isDigit; ('.' :: f, more.drop f.length)
          | _ => ([], afterInt)
        let (ep, afterExp) := match afterFrac with
          | e :: more =>
            if e == 'e' || e == 'E' then
              let (sign, more') := match more with
                | '+' :: m => (['+'], m)
                | '-' :: m => (['-'], m)
                | _ => ([], more)
              let ds := more'.takeWhile Char.isDigit
              if ds.isEmpty then ([], afterFrac) else (e :: sign ++ ds, more'.drop ds.length)
            else ([], afterFrac)
          | [] => ([], [])
        let text := ip ++ fp ++ ep
        match afterExp with
        | d :: _ =>
          if wordChar d then
            let junk := afterExp.takeWhile wordChar
            here (.bad (String.ofList (text ++ junk))) (text.length + junk.length) (afterExp.drop junk.length)
          else here (.num (String.ofList text)) text.length afterExp
        | [] => here (.num (String.ofList text)) text.length afterExp
    else if c == '?' then
      let ds := rest.takeWhile Char.isDigit
      here (.param (String.ofList (c :: ds))) (1 + ds.length) (rest.drop ds.length)
    else if c == '$' || c == '@' || c == ':' || c == '#' then
      let (k, ok) := paramNameSpan rest.length false rest
      let text := String.ofList (c :: rest.take k)
      here (if ok then .param text else .bad text) (1 + k) (rest.drop k)
    else if wordStart c then
      let body := rest.takeWhile wordChar
      here (.word (String.ofList (c :: body))) (1 + body.length) (rest.drop body.length)
    else
      match longOps.find? fun o => (c :: rest).take o.length == o.toList with
      | some o => here (.op o) o.length ((c :: rest).drop o.length)
      | none =>
        if shortOps.contains c then here (.op (String.singleton c)) 1 rest
        else here (.bad (String.singleton c)) 1 rest

/-- The tokens of a text. -/
def tokenize (s : String) : List Tok :=
  let cs := s.toList
  tokensFrom (cs.length + 1) 0 cs

/-- The text between two positions. -/
def spanText (source : Array Char) (start stop : Nat) : String :=
  String.ofList ((source.toList.drop start).take (stop - start))

end Sql
end PowChain
