/-!
# Formulas

Propositional formulas over named atoms, with falsehood, negation and four binary connectives.

## Main definitions

* `BinOp`: the binary connectives
* `Connective`: all connectives, falsehood being the one without operands
* `Formula`: formulas
* `Formula.depth`: how deeply a formula is nested
-/

namespace NaturalDeduction

inductive BinOp where
  | and
  | or
  | implies
  | iff
deriving DecidableEq

inductive Connective where
  | absurd
  | not
  | binary (op : BinOp)
deriving DecidableEq

inductive Formula where
  | atom (name : String)
  | absurd
  | not (operand : Formula)
  | binary (op : BinOp) (left right : Formula)
deriving DecidableEq

namespace Formula

@[match_pattern] abbrev and (left right : Formula) : Formula := binary .and left right

@[match_pattern] abbrev or (left right : Formula) : Formula := binary .or left right

@[match_pattern] abbrev implies (left right : Formula) : Formula := binary .implies left right

@[match_pattern] abbrev iff (left right : Formula) : Formula := binary .iff left right

/-- How many connectives stand around the innermost part. -/
def depth : Formula → Nat
  | atom _ | absurd => 0
  | not f => f.depth + 1
  | binary _ l r => max l.depth r.depth + 1

end Formula

end NaturalDeduction
