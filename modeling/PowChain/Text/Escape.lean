import PowChain.Text.Unicode

/-!
# Quoted characters and strings in diagnostics

Error messages quote the offending character or text the way a debugging
printer does: between single quotes for a character and double quotes for a
string, with backslash escapes for the quote itself, the backslash, the
common control characters, and `\u{..}` (lowercase hexadecimal, no leading
zeros) for any other character that does not print or that would join the
character before it.
-/

namespace PowChain
namespace Text

/-- Lowercase hexadecimal digits of `n`, without leading zeros. -/
def hexDigits (n : Nat) : String :=
  String.ofList (Nat.toDigits 16 n)

/-- The escaped form of one character; `quote` is the delimiter in use, which is
escaped too. -/
def escapeChar (quote : Char) (c : Char) : String :=
  if c == '\t' then "\\t"
  else if c == '\r' then "\\r"
  else if c == '\n' then "\\n"
  else if c == '\\' then "\\\\"
  else if c == quote then "\\" ++ c.toString
  else if c == '\x00' then "\\0"
  else if isGraphemeExtend c then "\\u\x7b" ++ hexDigits c.toNat ++ "\x7d"
  else if isPrintable c then c.toString
  else "\\u\x7b" ++ hexDigits c.toNat ++ "\x7d"

/-- A character between single quotes, escaped. -/
def quoteChar (c : Char) : String :=
  "'" ++ escapeChar '\'' c ++ "'"

/-- A string between double quotes, each character escaped. -/
def quoteString (s : String) : String :=
  "\"" ++ String.join (s.toList.map (escapeChar '"')) ++ "\""

end Text
end PowChain
