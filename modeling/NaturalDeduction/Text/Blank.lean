/-!
# Blanks and words

A text is divided into words by blanks. The blanks are the white space characters of Unicode
together with the four information separators U+001C to U+001F.

Keywords are recognised in any letter case. They consist of ASCII letters, so only the characters
whose lower case form is an ASCII letter matter: the capitals A to Z and the Kelvin sign.

## Main definitions

* `isBlank`: the characters between words
* `strip`: a text without the blanks at its two ends
* `splitWords`: the first words of a text and what remains after them
* `words`: all words of a text
* `firstWord?`: the first word of a text and what follows it
* `lowerAscii`: the ASCII letters in lower case
-/

namespace NaturalDeduction.Text

def isBlank (c : Char) : Bool :=
  let n := c.toNat
  (0x9 ≤ n && n ≤ 0xD) || (0x1C ≤ n && n ≤ 0x20) || n == 0x85 || n == 0xA0 || n == 0x1680 ||
    (0x2000 ≤ n && n ≤ 0x200A) || n == 0x2028 || n == 0x2029 || n == 0x202F || n == 0x205F ||
    n == 0x3000

/-- Remove the blanks at both ends. -/
def strip (cs : List Char) : List Char :=
  ((cs.dropWhile isBlank).reverse.dropWhile isBlank).reverse

@[simp] theorem strip_nil : strip [] = [] := rfl

/-- Split off at most `n` words. What follows them is the last entry, with its leading blanks
removed; there is no such entry if only blanks follow. -/
def splitWords : Nat → List Char → List (List Char)
  | 0, cs =>
    match cs.dropWhile isBlank with
    | [] => []
    | rest => [rest]
  | n + 1, cs =>
    match cs.dropWhile isBlank with
    | [] => []
    | rest => rest.takeWhile (!isBlank ·) :: splitWords n (rest.dropWhile (!isBlank ·))

/-- All words of a text: it has no more of them than characters. -/
def words (cs : List Char) : List (List Char) :=
  splitWords cs.length cs

/-- The first word of a text and what follows it, without leading blanks. -/
def firstWord? (cs : List Char) : Option (List Char × List Char) :=
  match cs.dropWhile isBlank with
  | [] => none
  | rest =>
    some (rest.takeWhile (!isBlank ·), (rest.dropWhile (!isBlank ·)).dropWhile isBlank)

@[simp] theorem splitWords_nil (n : Nat) : splitWords n [] = [] := by
  cases n <;> rfl

@[simp] theorem words_nil : words [] = [] := rfl

/-! ## Letter case -/

/-- The lower case form of the characters that have one in ASCII. -/
def lowerChar (c : Char) : Char :=
  if c = '\u212A' then 'k' else c.toLower

def lowerAscii (cs : List Char) : List Char :=
  cs.map lowerChar

end NaturalDeduction.Text
