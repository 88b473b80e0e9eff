import CodeNav.Text.Printable

/-!
# Quoted text

Messages show a text between double quotes. The quote, the backslash, tab, line feed, carriage
return and NUL are written with a backslash; a character that could not be seen, or that would
attach itself to the one before it, is written as its code point in braces; everything else stands
for itself.

## Main definitions

* `quoteChar`: one character between quotes
* `quoted`: a quoted string
* `quotedList`: a list of quoted strings in brackets
-/

namespace CodeNav.Text

/-- A character as it stands between quotes. -/
def quoteChar (c : Char) : List Char :=
  if c = '"' then ['\\', '"']
  else if c = '\\' then ['\\', '\\']
  else if c = '\n' then ['\\', 'n']
  else if c = '\r' then ['\\', 'r']
  else if c = '\t' then ['\\', 't']
  else if c.toNat = 0 then ['\\', '0']
  else if isPrintable c && !extendsGrapheme c then [c]
  else ['\\', 'u', '\x7b'] ++ Nat.toDigits 16 c.toNat ++ ['\x7d']

/-- The characters of a text, each as it stands between quotes. -/
def quoteChars : List Char → List Char
  | [] => []
  | c :: cs => quoteChar c ++ quoteChars cs

/-- A string between double quotes. -/
def quoted (s : String) : String :=
  String.ofList ('"' :: (quoteChars s.toList ++ ['"']))

/-- A list of strings, each between double quotes, in brackets. -/
def quotedList (xs : List String) : String :=
  "[" ++ ", ".intercalate (xs.map quoted) ++ "]"

end CodeNav.Text
