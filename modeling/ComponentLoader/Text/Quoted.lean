import ComponentLoader.Text.Printable

/-!
Texts in double quotes, with the quote, the backslash and every character that does not show on
its own escaped.
-/
namespace ComponentLoader.Text

/-- A number in lower-case hexadecimal digits, without padding. -/
def hex (n : Nat) : String := String.ofList (Nat.toDigits 16 n)

def quoteChar (c : Char) : String :=
  if c == '"' then "\\\""
  else if c == '\\' then "\\\\"
  else if c == '\n' then "\\n"
  else if c == '\r' then "\\r"
  else if c == '\t' then "\\t"
  else if c == '\x00' then "\\0"
  else if isPrintable c then c.toString
  else "\\u\x7b" ++ hex c.toNat ++ "\x7d"

def quote (s : String) : String :=
  "\"" ++ String.join (s.toList.map quoteChar) ++ "\""

end ComponentLoader.Text
