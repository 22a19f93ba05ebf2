import NaturalDeduction.Formula.Printer

/-!
# Proof lines

A proof is a sequence of lines. Each line states a formula at some nesting depth and says how it
was obtained: as an assumption, or by a rule from the lines it cites.

## Main definitions

* `Rule`: where a line comes from
* `Justification`: a rule with the cited lines
* `Line`: a line of a proof
-/

namespace NaturalDeduction

inductive Rule where
  | premise
  | hypothesis
  | reiteration
  | introduction (c : Connective)
  | elimination (c : Connective)
deriving DecidableEq

def Rule.label : Rule → String
  | premise => "Premise"
  | hypothesis => "Hyp"
  | reiteration => "R"
  | introduction c => c.symbol .logic ++ "I"
  | elimination c => c.symbol .logic ++ "E"

/-- A rule and the indices of the lines it was applied to. They are recorded as they were given,
so that they need not be indices of lines. -/
structure Justification where
  rule : Rule
  cited : List Int
deriving DecidableEq

def Justification.text (j : Justification) : String :=
  if j.cited = [] then j.rule.label
  else j.rule.label ++ " " ++ ", ".intercalate (j.cited.map toString)

inductive Role where
  | assumption
  | derivation
deriving DecidableEq

structure Line where
  /-- The nesting level, which is zero for the main proof. -/
  depth : Int
  role : Role
  formula : Formula
  justification : Justification
deriving DecidableEq

namespace Line

def isAssumption (l : Line) : Bool := l.role = .assumption

/-- A standing assumption of the whole proof. -/
def premise (f : Formula) : Line := ⟨0, .assumption, f, ⟨.premise, []⟩⟩

/-- The assumption that opens a subproof. -/
def hypothesis (depth : Int) (f : Formula) : Line := ⟨depth, .assumption, f, ⟨.hypothesis, []⟩⟩

/-- A line obtained by a rule. -/
def derived (depth : Int) (f : Formula) (rule : Rule) (cited : List Nat) : Line :=
  ⟨depth, .derivation, f, ⟨rule, cited.map Int.ofNat⟩⟩

/-- A line in one row: two spaces for each nesting level, the formula and its justification. -/
def text (l : Line) : String :=
  String.ofList (List.replicate (2 * l.depth.toNat) ' ') ++ l.formula.text .ascii ++
    "  [" ++ l.justification.text ++ "]"

end Line

end NaturalDeduction
