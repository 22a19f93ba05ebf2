import NaturalDeduction.Proof.Line

/-!
# Proofs

A proof consists of its lines, of which the first few are the premises, and of the depth at which
its next line will stand. Where the deductions begin is a position in the sequence of its lines: it
is counted from the start or, if it is negative, from the end, and a position beyond either end
stands for that end.

## Main definitions

* `Position.offset`: how many elements of a sequence come before a position
* `Position.before`, `Position.after`: the two parts of the sequence
* `Proof`: lines, end of the premises and depth of the next line
* `Proof.premises`, `Proof.deductions`: the two parts of the lines
* `Proof.conclusion?`: what has been derived in the main proof
* `Proof.listing`: the lines one below the other
* `Proof.line`: the line at an index
-/

namespace NaturalDeduction

namespace Position

variable {α : Type}

/-- The number of elements before a position in a sequence of the given length. -/
def offset (length : Nat) : Int → Nat
  | .ofNat n => n
  | .negSucc n => length - (n + 1)

@[simp] theorem offset_natCast (length n : Nat) : offset length n = n := rfl

/-- The elements before a position. -/
def before (xs : List α) (i : Int) : List α := xs.take (offset xs.length i)

/-- The elements from a position on. -/
def after (xs : List α) (i : Int) : List α := xs.drop (offset xs.length i)

@[simp] theorem before_natCast (xs : List α) (n : Nat) : before xs n = xs.take n := rfl

@[simp] theorem after_natCast (xs : List α) (n : Nat) : after xs n = xs.drop n := rfl

@[simp] theorem before_append_after (xs : List α) (i : Int) : before xs i ++ after xs i = xs :=
  List.take_append_drop _ _

/-- Nothing comes after a position at the end or beyond it. -/
theorem after_of_length_le {xs : List α} {i : Int} (h : xs.length ≤ i) : after xs i = [] := by
  obtain ⟨n, rfl⟩ := Int.eq_ofNat_of_zero_le (Int.le_trans (Int.natCast_nonneg _) h)
  exact List.drop_eq_nil_of_le (Int.ofNat_le.1 h)

theorem before_of_length_le {xs : List α} {i : Int} (h : xs.length ≤ i) : before xs i = xs := by
  have happend := before_append_after xs i
  rwa [after_of_length_le h, List.append_nil] at happend

end Position

/-- Why there is no line at an index. -/
inductive LookupError where
  /-- The index does not fit into a signed word. -/
  | oversized
  | outOfRange
deriving DecidableEq

def LookupError.message : LookupError → String
  | oversized => "cannot fit 'int' into an index-sized integer"
  | outOfRange => "list index out of range"

structure Proof where
  lines : List Line
  /-- The position of the first deduction: the premises come before it. -/
  boundary : Int
  /-- The depth of the next line. -/
  cursor : Int
deriving DecidableEq

namespace Proof

def empty : Proof := ⟨[], 0, 0⟩

def premises (p : Proof) : List Line := Position.before p.lines p.boundary

def deductions (p : Proof) : List Line := Position.after p.lines p.boundary

@[simp] theorem premises_append_deductions (p : Proof) : p.premises ++ p.deductions = p.lines :=
  Position.before_append_after _ _

/-- The formula of the last line of the main proof after the premises. -/
def conclusion? (p : Proof) : Option Formula :=
  (p.deductions.reverse.find? (·.depth = 0)).map (·.formula)

/-- The row between premises and deductions. -/
def divider : String := "------------------"

/-- The rows of a listing: one for each line, and a divider before the first deduction. -/
def listingRows (p : Proof) : List String :=
  p.lines.zipIdx.flatMap fun (l, i) => if i = p.boundary then [divider, l.text] else [l.text]

def listing (p : Proof) : String := "\n".intercalate p.listingRows

/-- The line at an index; a negative index counts from the end. -/
def line? (p : Proof) : Int → Option Line
  | .ofNat n => p.lines[n]?
  | .negSucc n => p.lines.reverse[n]?

/-- Whether an index fits into a signed word of 64 bits. -/
def isIndex (i : Int) : Bool := Int64.minValue.toInt ≤ i && i ≤ Int64.maxValue.toInt

/-- The line at an index, or why there is none. -/
def line (p : Proof) (i : Int) : Except LookupError Line :=
  if isIndex i then
    match p.line? i with
    | some l => .ok l
    | none => .error .outOfRange
  else .error .oversized

end Proof

end NaturalDeduction
