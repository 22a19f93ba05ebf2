import NaturalDeduction.Proof.Basic
import NaturalDeduction.Proof.Scope

/-!
# Documents

A document is a proof under construction. A strict document demands that cited lines are available
and that cited subproofs are citable.

## Main definitions

* `Refusal`: why an operation is refused
* `Document`: a proof under construction
* `Document.linesInScope`, `Document.subproofsInScope`: what may be cited
* `Document.append`, `Document.dropLast`: one line more or less
-/

namespace NaturalDeduction

inductive Refusal where
  | deductionsStarted
  | noOpenSubproof
  | noLines
  | outOfRange
  | closedSubproof
  | outOfScope
  | subproofOutOfScope
  | notConjunction (f : Formula)
  | notConjunct (target f : Formula)
  | notDisjunction (f : Formula)
  | notDisjunct (f target : Formula)
  | disjunctionTooLate
  | leftNotAssumed (f : Formula)
  | rightNotAssumed (f : Formula)
  | differentConclusions
  | notJustClosed
  | noAbsurdity
  | notDoubleNegation (f : Formula)
  | notSubproof
  | notImplication (f : Formula)
  | antecedentMissing (f : Formula)
  | notDirectlyBelow
  | notMutual
  | notBiconditional (f : Formula)
  | neitherSide (known f : Formula)
  | noContradiction (f g : Formula)
  | notAbsurdity
deriving DecidableEq

namespace Refusal

def reason : Refusal → String
  | deductionsStarted => "deduction area already started"
  | noOpenSubproof => "already at depth 0"
  | noLines => "proof is empty"
  | outOfRange => "index out of range"
  | closedSubproof => "line belongs to a closed subproof"
  | outOfScope => "line is out of scope"
  | subproofOutOfScope => "subproof is not closed or out of scope"
  | notConjunction f => f.text .ascii ++ " is not a conjunction"
  | notConjunct target f => target.text .ascii ++ " is not a conjunct of " ++ f.text .ascii
  | notDisjunction f => f.text .ascii ++ " is not a disjunction"
  | notDisjunct f target => f.text .ascii ++ " is not a disjunct of " ++ target.text .ascii
  | disjunctionTooLate => "disjunction must precede both subproofs"
  | leftNotAssumed f => "left subproof does not assume " ++ f.text .ascii
  | rightNotAssumed f => "right subproof does not assume " ++ f.text .ascii
  | differentConclusions => "subproofs reach different conclusions"
  | notJustClosed => "subproof is not the one just closed"
  | noAbsurdity => "subproof does not end in absurdity"
  | notDoubleNegation f => f.text .ascii ++ " is not a double negation"
  | notSubproof => "line does not open a subproof"
  | notImplication f => f.text .ascii ++ " is not an implication"
  | antecedentMissing f => "antecedent " ++ f.text .ascii ++ " not found"
  | notDirectlyBelow => "subproofs are not directly below the current depth"
  | notMutual => "subproofs do not derive each other's hypothesis"
  | notBiconditional f => f.text .ascii ++ " is not a biconditional"
  | neitherSide known f => known.text .ascii ++ " is neither side of " ++ f.text .ascii
  | noContradiction f g =>
    f.text .ascii ++ " and " ++ g.text .ascii ++ " do not contradict each other"
  | notAbsurdity => "line is not an absurdity"

/-- The formulas that the reason names. -/
def formulas : Refusal → List Formula
  | notConjunction f | notDisjunction f | leftNotAssumed f | rightNotAssumed f
  | notDoubleNegation f | notImplication f | antecedentMissing f | notBiconditional f => [f]
  | notConjunct f g | notDisjunct f g | neitherSide f g | noContradiction f g => [f, g]
  | _ => []

end Refusal

/-- A proof under construction. -/
structure Document extends Proof where
  /-- Whether citations have to be in scope. -/
  strict : Bool
deriving DecidableEq

namespace Document

def empty (strict : Bool) : Document := ⟨Proof.empty, strict⟩

/-- Whether lines may be cited: in a strict document they have to be available. -/
def linesInScope (d : Document) (indices : List Nat) : Bool :=
  !d.strict || indices.all (Scope.isAvailable d.lines d.cursor)

/-- Whether subproofs may be cited: in a strict document they have to be citable. -/
def subproofsInScope (d : Document) (openers : List Nat) : Bool :=
  !d.strict || openers.all (Scope.isCitable d.lines d.cursor)

/-- Add a line at the end. -/
def append (d : Document) (l : Line) : Document :=
  { d with lines := d.lines ++ [l] }

/-- Remove the last line. The boundary is lowered to the new length if necessary, and the next
line will stand at the depth of the new last line. -/
def dropLast (d : Document) : Document :=
  let lines := d.lines.dropLast
  { d with
    lines := lines
    boundary := min d.boundary lines.length
    cursor := (lines.getLast?.map (·.depth)).getD 0 }

end Document

end NaturalDeduction
