import NaturalDeduction.Proof.Line

/-!
# Inferences and operations

An inference names a rule and what it is applied to: cited lines and, for some rules, the formula
to be derived. An operation is one step in the construction of a proof.

## Main definitions

* `LineRef`: a citation as it was given, which need not name a line
* `Inference`: the rules with what they are applied to
* `Inference.cited`: the cited lines in order
* `Operation`: the steps of a construction
-/

namespace NaturalDeduction

inductive LineRef where
  | number (i : Int)
  /-- Something else than an integer, which names no line. -/
  | other (text : String)
deriving DecidableEq

namespace LineRef

def text : LineRef → String
  | number i => toString i
  | other s => s

/-- The line that is meant in a proof of `n` lines. -/
def resolve? (n : Nat) : LineRef → Option (Fin n)
  | number (.ofNat i) => if h : i < n then some ⟨i, h⟩ else none
  | number (.negSucc _) => none
  | other _ => none

@[simp] theorem resolve?_number (n i : Nat) :
    resolve? n (number i) = if h : i < n then some ⟨i, h⟩ else none := rfl

end LineRef

/-- An inference whose citations are of type `ι`. -/
inductive Inference (ι : Type) where
  | reiterate (line : ι)
  | andIntro (left right : ι)
  | andElim (line : ι) (target : Formula)
  | orIntro (line : ι) (target : Formula)
  | orElim (line left right : ι)
  | notIntro (subproof : ι)
  | notElim (line : ι)
  | impliesIntro (subproof : ι)
  | impliesElim (line antecedent : ι)
  | iffIntro (left right : ι)
  | iffElim (line side : ι)
  | absurdIntro (first second : ι)
  | absurdElim (line : ι) (target : Formula)
deriving DecidableEq

namespace Inference

variable {ι κ : Type}

def rule : Inference ι → Rule
  | reiterate _ => .reiteration
  | andIntro .. => .introduction (.binary .and)
  | andElim .. => .elimination (.binary .and)
  | orIntro .. => .introduction (.binary .or)
  | orElim .. => .elimination (.binary .or)
  | notIntro _ => .introduction .not
  | notElim _ => .elimination .not
  | impliesIntro _ => .introduction (.binary .implies)
  | impliesElim .. => .elimination (.binary .implies)
  | iffIntro .. => .introduction (.binary .iff)
  | iffElim .. => .elimination (.binary .iff)
  | absurdIntro .. => .introduction .absurd
  | absurdElim .. => .elimination .absurd

/-- The citations of single lines. -/
def citedLines : Inference ι → List ι
  | reiterate i => [i]
  | andIntro i j => [i, j]
  | andElim i _ => [i]
  | orIntro i _ => [i]
  | orElim i _ _ => [i]
  | notElim i => [i]
  | impliesElim i j => [i, j]
  | iffElim i j => [i, j]
  | absurdIntro i j => [i, j]
  | absurdElim i _ => [i]
  | notIntro _ | impliesIntro _ | iffIntro .. => []

/-- The citations of whole subproofs, by the lines that open them. -/
def citedSubproofs : Inference ι → List ι
  | orElim _ j k => [j, k]
  | notIntro j => [j]
  | impliesIntro j => [j]
  | iffIntro j k => [j, k]
  | _ => []

/-- All citations in order. -/
def cited (i : Inference ι) : List ι := i.citedLines ++ i.citedSubproofs

/-- The formulas that are given along with the citations. -/
def formulas : Inference ι → List Formula
  | andElim _ f | orIntro _ f | absurdElim _ f => [f]
  | _ => []

/-- Replace every citation, unless one of them has no replacement. -/
def traverse (f : ι → Option κ) : Inference ι → Option (Inference κ)
  | reiterate i => return reiterate (← f i)
  | andIntro i j => return andIntro (← f i) (← f j)
  | andElim i target => return andElim (← f i) target
  | orIntro i target => return orIntro (← f i) target
  | orElim i j k => return orElim (← f i) (← f j) (← f k)
  | notIntro j => return notIntro (← f j)
  | notElim i => return notElim (← f i)
  | impliesIntro j => return impliesIntro (← f j)
  | impliesElim i j => return impliesElim (← f i) (← f j)
  | iffIntro j k => return iffIntro (← f j) (← f k)
  | iffElim i j => return iffElim (← f i) (← f j)
  | absurdIntro i j => return absurdIntro (← f i) (← f j)
  | absurdElim i target => return absurdElim (← f i) target

end Inference

inductive Operation where
  /-- Add a premise. -/
  | assume (f : Formula)
  /-- Open a subproof with a hypothesis. -/
  | suppose (f : Formula)
  /-- Close the innermost subproof. -/
  | discharge
  /-- Remove the last line. -/
  | delete
  /-- Derive a line. -/
  | infer (i : Inference LineRef)
deriving DecidableEq

/-- The formulas that an operation is given. -/
def Operation.formulas : Operation → List Formula
  | assume f | suppose f => [f]
  | discharge | delete => []
  | infer i => i.formulas

end NaturalDeduction
