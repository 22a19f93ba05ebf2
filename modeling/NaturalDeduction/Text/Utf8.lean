import NaturalDeduction.Text.Quoted

/-!
# UTF-8

A sequence of bytes is decoded from left to right. Decoding stops at the first bytes that are not
the encoding of a character; these are the longest start of an encoding at that place, or one byte
if no encoding starts there.

## Main definitions

* `followers`: which bytes may follow a lead byte
* `Fault`: bytes that encode no character
* `decode`: the characters of a sequence of bytes
-/

namespace NaturalDeduction.Text.Utf8

/-- The ranges of the bytes that follow a lead byte; none for a byte that starts no character.
The ranges leave out overlong encodings, surrogates and numbers beyond the last code point. -/
def followers (lead : UInt8) : Option (List (UInt8 × UInt8)) :=
  if lead < 0x80 then some []
  else if lead < 0xC2 then none
  else if lead < 0xE0 then some [(0x80, 0xBF)]
  else if lead = 0xE0 then some [(0xA0, 0xBF), (0x80, 0xBF)]
  else if lead = 0xED then some [(0x80, 0x9F), (0x80, 0xBF)]
  else if lead < 0xF0 then some [(0x80, 0xBF), (0x80, 0xBF)]
  else if lead = 0xF0 then some [(0x90, 0xBF), (0x80, 0xBF), (0x80, 0xBF)]
  else if lead < 0xF4 then some [(0x80, 0xBF), (0x80, 0xBF), (0x80, 0xBF)]
  else if lead = 0xF4 then some [(0x80, 0x8F), (0x80, 0xBF), (0x80, 0xBF)]
  else none

/-- The bits that a lead byte contributes to the code point. -/
def leadBits (lead : UInt8) : Nat :=
  if lead < 0x80 then lead.toNat
  else if lead < 0xE0 then lead.toNat - 0xC0
  else if lead < 0xF0 then lead.toNat - 0xE0
  else lead.toNat - 0xF0

/-- The character with the given lead byte and following bytes. -/
def character (lead : UInt8) (rest : List UInt8) : Char :=
  Char.ofNat (rest.foldl (fun n b => 64 * n + (b.toNat - 0x80)) (leadBits lead))

inductive Cause where
  | invalidStart
  | invalidContinuation
  | truncated
deriving DecidableEq

def Cause.reason : Cause → String
  | invalidStart => "invalid start byte"
  | invalidContinuation => "invalid continuation byte"
  | truncated => "unexpected end of data"

/-- Bytes that encode no character, the place of the first of them, and what is wrong. -/
structure Fault where
  position : Nat
  bytes : List UInt8
  cause : Cause
deriving DecidableEq

def Fault.message (f : Fault) : String :=
  let place :=
    match f.bytes with
    | [b] =>
      "byte 0x" ++ String.ofList (hexadecimal 2 b.toNat) ++ " in position " ++ toString f.position
    | bs =>
      "bytes in position " ++ toString f.position ++ "-" ++ toString (f.position + bs.length - 1)
  "'utf-8' codec can't decode " ++ place ++ ": " ++ f.cause.reason

/-- Take one byte for each range, as long as they lie in their ranges: the bytes taken, what
stopped this, and the rest. -/
def takeFollowers : List (UInt8 × UInt8) → List UInt8 → List UInt8 × Option Cause × List UInt8
  | [], bs => ([], none, bs)
  | _ :: _, [] => ([], some .truncated, [])
  | (low, high) :: ranges, b :: bs =>
    if low ≤ b ∧ b ≤ high then
      let (taken, cause, rest) := takeFollowers ranges bs
      (b :: taken, cause, rest)
    else ([], some .invalidContinuation, b :: bs)

theorem length_takeFollowers_le (ranges : List (UInt8 × UInt8)) (bs : List UInt8) :
    (takeFollowers ranges bs).2.2.length ≤ bs.length := by
  fun_induction takeFollowers ranges bs <;> grind

/-- Decode the bytes from a place on; the characters before it are given in reverse. -/
def decodeFrom (position : Nat) (before : List Char) (bs : List UInt8) :
    Except Fault (List Char) :=
  match bs with
  | [] => .ok before.reverse
  | lead :: bs =>
    match followers lead with
    | none => .error ⟨position, [lead], .invalidStart⟩
    | some ranges =>
      match _h : takeFollowers ranges bs with
      | (taken, some cause, _) => .error ⟨position, lead :: taken, cause⟩
      | (taken, none, rest) =>
        decodeFrom (position + 1 + taken.length) (character lead taken :: before) rest
termination_by bs.length
decreasing_by
  have := length_takeFollowers_le ranges bs
  rw [_h] at this
  exact Nat.lt_succ_of_le this

/-- The text that a sequence of bytes encodes. -/
def decode (bs : List UInt8) : Except Fault String :=
  (decodeFrom 0 [] bs).map String.ofList

end NaturalDeduction.Text.Utf8
