import NaturalDeduction.Text.Blank

/-!
# Numerals

An integer is written with an optional sign and decimal digits of any script. Unicode gives each
script that counts in tens ten consecutive characters, from its zero to its nine. One underscore
may stand between two digits, and blanks may stand around the whole. A numeral of more than 4300
digits is refused.

## Main definitions

* `zeros`: the code points of the zeros
* `digit?`: the value of a digit
* `digits?`: the values of a run of digits
* `integer?`: the integer that a text denotes
-/

namespace NaturalDeduction.Text

/-- The zeros of the scripts, in increasing order. -/
def zeros : List Nat :=
  [0x30, 0x660, 0x6F0, 0x7C0, 0x966, 0x9E6, 0xA66, 0xAE6, 0xB66, 0xBE6, 0xC66, 0xCE6, 0xD66,
   0xDE6, 0xE50, 0xED0, 0xF20, 0x1040, 0x1090, 0x17E0, 0x1810, 0x1946, 0x19D0, 0x1A80, 0x1A90,
   0x1B50, 0x1BB0, 0x1C40, 0x1C50, 0xA620, 0xA8D0, 0xA900, 0xA9D0, 0xA9F0, 0xAA50, 0xABF0, 0xFF10,
   0x104A0, 0x10D30, 0x11066, 0x110F0, 0x11136, 0x111D0, 0x112F0, 0x11450, 0x114D0, 0x11650,
   0x116C0, 0x11730, 0x118E0, 0x11950, 0x11C50, 0x11D50, 0x11DA0, 0x16A60, 0x16AC0, 0x16B50,
   0x1D7CE, 0x1D7D8, 0x1D7E2, 0x1D7EC, 0x1D7F6, 0x1E140, 0x1E2F0, 0x1E950, 0x1FBF0]

/-- The value of a decimal digit of any script. -/
def digit? (c : Char) : Option Nat :=
  (zeros.find? fun z => z ≤ c.toNat && c.toNat < z + 10).map (c.toNat - ·)

/-- The values of the digits of a non-empty run; single underscores between digits are skipped. -/
def digits? : List Char → Option (List Nat)
  | [] => none
  | [c] => (digit? c).map fun d => [d]
  | c :: '_' :: cs => do
    let d ← digit? c
    let ds ← digits? cs
    return d :: ds
  | c :: cs => do
    let d ← digit? c
    let ds ← digits? cs
    return d :: ds

/-- The number with the given decimal digits, the highest first. -/
def ofDigits (ds : List Nat) : Nat :=
  ds.foldl (fun n d => 10 * n + d) 0

/-- The greatest number of digits that a numeral may have. -/
def maxDigits : Nat := 4300

def natural? (cs : List Char) : Option Nat := do
  let ds ← digits? cs
  if ds.length ≤ maxDigits then return ofDigits ds else none

/-- The integer denoted by a numeral. -/
def integer? (cs : List Char) : Option Int :=
  match strip cs with
  | '+' :: rest => (natural? rest).map Int.ofNat
  | '-' :: rest => (natural? rest).map fun n => -Int.ofNat n
  | rest => (natural? rest).map Int.ofNat

end NaturalDeduction.Text
