import NaturalDeduction.Formula.Parser
import NaturalDeduction.Formula.Printer
import NaturalDeduction.Log
import NaturalDeduction.Text.Value

/-!
# Reading formulas from loose values

Only a text can be a formula. A reading leaves records in the log: what was read, and what came
of it.

## Main definitions

* `Formula.read`: the formula that a value spells
* `Formula.readRecords`: the records of a reading
* `Formula.trialRecords`: the records of a reading whose failure is expected
-/

namespace NaturalDeduction.Formula

def read : Value → Except ParseError Formula
  | .text s => parse s
  | v => .error (.notText v.kind)

/-- The records that follow the announcement of a reading. -/
def outcomeRecords : Except ParseError Formula → List Record
  | .ok f => [.debug ("Successfully parsed formula into " ++ f.kind)]
  | .error .blank => [.debug "ParseError encountered during formula parsing"]
  | .error (.illegal i) =>
    [.debug ("Illegal character '" ++ i.char.toString ++ "' at position " ++ toString i.position),
     .debug ("Unexpected parsing error: " ++ i.message),
     .debug "ParseError encountered during formula parsing"]
  | .error (.notText kind) =>
    [.debug ("Unexpected parsing error: AttributeError: " ++ (ParseError.notText kind).message)]
  | .error _ =>
    [.debug "Parse error encountered", .debug "ParseError encountered during formula parsing"]

/-- The records of a reading. -/
def readRecords (v : Value) : List Record :=
  .debug ("Parsing formula: " ++ v.display) :: outcomeRecords (read v)

/-- The records of a reading whose failure is expected: a failure is noted with its reason. -/
def trialRecords (v : Value) : List Record :=
  readRecords v ++
    match read v with
    | .ok _ => []
    | .error e => [.debug ("Rejected formula " ++ v.quoted ++ ": " ++ e.message)]

end NaturalDeduction.Formula
