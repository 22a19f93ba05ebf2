import NaturalDeduction.Proof.Basic

/-!
# Scope

The subproofs of a proof are not marked; they follow from the depths. An assumption opens a
subproof, which runs until a line of smaller depth or another assumption that is no deeper.

## Main definitions

* `Line.closes`: whether a line ends the scopes of a depth
* `Scope.span?`: the first and the last line of a subproof
* `Scope.result?`: the formula on its last line
* `Scope.isOpen`: whether a scope has not been closed
* `Scope.isAvailable`: whether a line may be cited
* `Scope.isCitable`: whether a subproof may be cited as a whole
-/

namespace NaturalDeduction

/-- Whether a line ends a scope opened at the given depth. -/
def Line.closes (l : Line) (depth : Int) : Bool :=
  l.depth < depth || (l.isAssumption && l.depth ≤ depth)

namespace Scope

/-- The lines after a given one, up to the first that closes the depth. -/
def body (lines : List Line) (opener : Nat) (depth : Int) : List Line :=
  (lines.drop (opener + 1)).takeWhile fun l => !l.closes depth

/-- The first and the last index of the subproof opened at a line; none if the line is not an
assumption. -/
def span? (lines : List Line) (opener : Nat) : Option (Nat × Nat) :=
  match lines[opener]? with
  | some l =>
    if l.isAssumption then some (opener, opener + (body lines opener l.depth).length) else none
  | none => none

/-- The formula on the last line of the subproof opened at a line. -/
def result? (lines : List Line) (opener : Nat) : Option Formula := do
  let span ← span? lines opener
  let last ← lines[span.2]?
  return last.formula

/-- Whether the scope of the given depth is still open after some lines have followed. Depth zero
never closes; a nested scope is open if the next line stands at least as deep and none of those
lines has closed it. -/
def survives (following : List Line) (cursor depth : Int) : Bool :=
  depth = 0 || (depth ≤ cursor && !following.any (·.closes depth))

/-- Whether the scope of the given depth around a place is still open. -/
def isOpen (lines : List Line) (cursor : Int) (position : Nat) (depth : Int) : Bool :=
  survives (lines.drop (position + 1)) cursor depth

/-- Whether the scope of the given depth around a place is still open, where the lines that follow
the place start at a position that may be counted from the end. -/
def isOpenAt (lines : List Line) (cursor position depth : Int) : Bool :=
  survives (Position.after lines (position + 1)) cursor depth

/-- Whether a line may be cited by the next one. -/
def isAvailable (lines : List Line) (cursor : Int) (index : Nat) : Bool :=
  match lines[index]? with
  | some l => isOpen lines cursor index l.depth
  | none => false

/-- Whether the subproof opened at a line may be cited as a whole by the next line: it is nested
and closed, and the scope around it is open. -/
def isCitable (lines : List Line) (cursor : Int) (opener : Nat) : Bool :=
  match lines[opener]? with
  | some l =>
    l.isAssumption && l.depth != 0 && !isOpen lines cursor opener l.depth &&
      isOpen lines cursor opener (l.depth - 1)
  | none => false

end Scope

end NaturalDeduction
