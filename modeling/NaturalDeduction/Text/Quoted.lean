import NaturalDeduction.Text.Printable

/-!
# Quoted texts

A quoted text stands between single quotes, or between double quotes if it holds a single quote
and no double quote. The quote in use, the backslash, tab, line feed and carriage return are
written with a backslash; any other character that is not printable is written as `\x`, `\u` or
`\U` and two, four or eight hexadecimal digits, the shortest that suffices.

## Main definitions

* `quoteMark`: the quote that surrounds a text
* `escapeChar`: a character inside a quoted text
* `quote`: the quoted text
-/

namespace NaturalDeduction.Text

def singleQuote : Char := '\x27'

def doubleQuote : Char := '"'

/-- The quote that surrounds a text. -/
def quoteMark (cs : List Char) : Char :=
  if singleQuote ∈ cs && !(doubleQuote ∈ cs) then doubleQuote else singleQuote

/-- A number in lower case hexadecimal with at least the given number of digits. -/
def hexadecimal (width n : Nat) : List Char :=
  (Nat.toDigits 16 n).leftpad width '0'

/-- A character as it stands inside a text that is surrounded by `mark`. -/
def escapeChar (mark c : Char) : List Char :=
  if c = mark ∨ c = '\\' then ['\\', c]
  else if c = '\t' then ['\\', 't']
  else if c = '\n' then ['\\', 'n']
  else if c = '\r' then ['\\', 'r']
  else if isPrintable c then [c]
  else if c.toNat < 0x100 then '\\' :: 'x' :: hexadecimal 2 c.toNat
  else if c.toNat < 0x10000 then '\\' :: 'u' :: hexadecimal 4 c.toNat
  else '\\' :: 'U' :: hexadecimal 8 c.toNat

def quote (text : String) : String :=
  let mark := quoteMark text.toList
  String.ofList (mark :: text.toList.flatMap (escapeChar mark) ++ [mark])

end NaturalDeduction.Text
