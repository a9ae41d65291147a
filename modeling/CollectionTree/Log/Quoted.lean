import CollectionTree.Log.Printable

/-!
# Quoted text

A quoted text stands between double quotes. In it a backslash comes before what would be misread,
and characters that are not printable are written as their codes, so that it shows what is in it.
-/

namespace CollectionTree.Log

/-- How a character is written between quotes. -/
def quoteChar (c : Char) : List Char :=
  if c = '"' ∨ c = '\\' then ['\\', c]
  else if c = '\n' then ['\\', 'n']
  else if c = '\r' then ['\\', 'r']
  else if c = '\t' then ['\\', 't']
  else if c = '\x00' then ['\\', '0']
  else if isPrintable c then [c]
  else ['\\', 'u', '{'] ++ Nat.toDigits 16 c.toNat ++ ['}']

/-- A text between quotes. -/
def quoted (text : String) : String :=
  String.ofList ('"' :: text.toList.flatMap quoteChar ++ ['"'])

/-- A text without the quotes at its ends. -/
def trimQuotes (text : String) : String :=
  let inner := text.toList.dropWhile (· == '"')
  String.ofList (inner.reverse.dropWhile (· == '"')).reverse

end CollectionTree.Log
