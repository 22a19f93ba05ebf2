import NaturalDeduction.Log
import NaturalDeduction.Proof.Document
import NaturalDeduction.Proof.Inference

/-!
# Procedures

An operation is carried out by a procedure, which looks at a document, changes it part by part and
tells the log about it. A procedure may be broken off on the way: because a condition is not met,
or because a formula is nested too deeply for the machine that has to write or to compare it. What
it has changed until then stays changed.

## Main definitions

* `Machine`: which formulas there is room for
* `Procedure`: what is done to a document and to the log, in order
* `Document.derive`: the checks of an inference, and what it derives
* `Operation.procedure`: how an operation is carried out
* `Document.call`: what comes of an operation on a machine
* `Document.apply`: what comes of it on a machine that has room for every formula
-/

namespace NaturalDeduction

/-- The machine that writes and compares formulas. Both are done by recursion, so a formula that is
nested too deeply is too much for it. -/
structure Machine where
  /-- Whether there is room to write a formula. -/
  writes : SymbolSet → Formula → Bool
  /-- Whether there is room to compare two formulas. -/
  compares : Formula → Formula → Bool

namespace Machine

/-- The machine with room for every formula. -/
def unlimited : Machine := ⟨fun _ _ => true, fun _ _ => true⟩

/-- Whether there is room to draw a proof, which takes writing the formulas of all its lines. -/
def draws (m : Machine) (s : SymbolSet) (p : Proof) : Bool :=
  p.lines.all fun l => m.writes s l.formula

@[simp] theorem draws_unlimited (s : SymbolSet) (p : Proof) : unlimited.draws s p :=
  List.all_eq_true.2 fun _ _ => rfl

/-- A machine with room for formulas up to a depth. Two formulas are compared only as deep as both
of them go. -/
def ofDepth (limit : Nat) : Machine :=
  ⟨fun _ f => f.depth ≤ limit, fun f g => min f.depth g.depth ≤ limit⟩

end Machine

/-- Why a procedure is broken off. -/
inductive Stop where
  | refused (r : Refusal)
  /-- There is no room for a formula. -/
  | overflow
deriving DecidableEq

/-- A document and what the log says about it. -/
structure Desk where
  document : Document
  log : List Record

abbrev Procedure := ExceptT Stop (StateM Desk)

namespace Procedure

variable {α : Type} (m : Machine) (note : Refusal → Record)

/-- The outcome of a procedure and what it leaves on the desk. -/
def on (p : Procedure α) (k : Desk) : Except Stop α × Desk := p.run.run k

/-- Tell the log. -/
def record (r : Record) : Procedure Unit := modify fun k => { k with log := k.log ++ [r] }

/-- Change the document. -/
def update (change : Document → Document) : Procedure Unit :=
  modify fun k => { k with document := change k.document }

/-- Go on only if there is room to write some formulas. -/
def room (fs : List Formula) : Procedure Unit :=
  if fs.all (m.writes .ascii) then pure () else throw .overflow

/-- Compare two formulas. -/
def same (f g : Formula) : Procedure Bool :=
  if m.compares f g then pure (decide (f = g)) else throw .overflow

/-- Refuse after the reason has been told. -/
def refuse (r : Refusal) : Procedure α := do
  room m r.formulas
  record (note r)
  throw (.refused r)

/-- Refuse unless a condition is met. -/
def require (p : Prop) [Decidable p] (r : Refusal) : Procedure Unit :=
  if p then pure () else refuse m note r

end Procedure

/-! ## Inferences -/

open Procedure

namespace Document

/-- The formula that an inference derives. The conditions are checked in a fixed order, and the
first that fails is the reason of the refusal. -/
def derive (m : Machine) (note : Refusal → Record) (d : Document) :
    Inference (Fin d.lines.length) → Procedure Formula
  | .reiterate i => do
    require m note (d.lines[i].depth ≤ d.cursor) .closedSubproof
    require m note (d.linesInScope [i]) .outOfScope
    return d.lines[i].formula
  | .andIntro i j => do
    require m note (d.linesInScope [i, j]) .outOfScope
    return .and d.lines[i].formula d.lines[j].formula
  | .andElim i target => do
    require m note (d.linesInScope [i]) .outOfScope
    match d.lines[i].formula with
    | .and l r =>
      if ← same m l target then return l
      else if ← same m r target then return r
      else refuse m note (.notConjunct target (.and l r))
    | f => refuse m note (.notConjunction f)
  | .orIntro i target => do
    require m note (d.linesInScope [i]) .outOfScope
    match target with
    | .or l r =>
      let f := d.lines[i].formula
      if ← same m f l then return .or l r
      else if ← same m f r then return .or l r
      else refuse m note (.notDisjunct f (.or l r))
    | f => refuse m note (.notDisjunction f)
  | .orElim i j k => do
    require m note (i < j ∧ i < k) .disjunctionTooLate
    require m note (d.linesInScope [i]) .outOfScope
    require m note (d.subproofsInScope [j, k]) .subproofOutOfScope
    match d.lines[i].formula with
    | .or l r =>
      if ← same m d.lines[j].formula l then
        if ← same m d.lines[k].formula r then
          match Scope.result? d.lines j, Scope.result? d.lines k with
          | some f, some g =>
            if ← same m f g then return f else refuse m note .differentConclusions
          | _, _ => refuse m note .differentConclusions
        else refuse m note (.rightNotAssumed r)
      else refuse m note (.leftNotAssumed l)
    | f => refuse m note (.notDisjunction f)
  | .notIntro j => do
    require m note (d.lines[j].depth = d.cursor + 1) .notJustClosed
    require m note (d.subproofsInScope [j]) .subproofOutOfScope
    require m note (Scope.result? d.lines j = some .absurd) .noAbsurdity
    return .not d.lines[j].formula
  | .notElim i => do
    require m note (d.linesInScope [i]) .outOfScope
    match d.lines[i].formula with
    | .not (.not f) => return f
    | f => refuse m note (.notDoubleNegation f)
  | .impliesIntro j => do
    require m note (d.lines[j].depth = d.cursor + 1) .notJustClosed
    require m note (d.subproofsInScope [j]) .subproofOutOfScope
    match Scope.result? d.lines j with
    | some f => return .implies d.lines[j].formula f
    | none => refuse m note .notSubproof
  | .impliesElim i j => do
    require m note (d.linesInScope [i, j]) .outOfScope
    match d.lines[i].formula with
    | .implies l r =>
      if ← same m d.lines[j].formula l then return r
      else refuse m note (.antecedentMissing l)
    | f => refuse m note (.notImplication f)
  | .iffIntro j k => do
    require m note (d.lines[j].depth = d.cursor + 1 ∧ d.lines[k].depth = d.cursor + 1)
      .notDirectlyBelow
    require m note (d.subproofsInScope [j, k]) .subproofOutOfScope
    match Scope.result? d.lines j, Scope.result? d.lines k with
    | some f, some g =>
      if ← same m d.lines[j].formula g then
        if ← same m f d.lines[k].formula then
          return .iff d.lines[j].formula d.lines[k].formula
        else refuse m note .notMutual
      else refuse m note .notMutual
    | _, _ => refuse m note .notSubproof
  | .iffElim i j => do
    require m note (d.linesInScope [i, j]) .outOfScope
    match d.lines[i].formula with
    | .iff l r =>
      let known := d.lines[j].formula
      if ← same m known l then return r
      else if ← same m known r then return l
      else refuse m note (.neitherSide known (.iff l r))
    | f => refuse m note (.notBiconditional f)
  | .absurdIntro i j => do
    require m note (d.linesInScope [i, j]) .outOfScope
    let f := d.lines[i].formula
    let g := d.lines[j].formula
    if ← same m g (.not f) then return .absurd
    else if ← same m f (.not g) then return .absurd
    else refuse m note (.noContradiction f g)
  | .absurdElim i target => do
    require m note (d.lines[i].formula = .absurd) .notAbsurdity
    require m note (d.lines[i].depth ≤ d.cursor) .closedSubproof
    require m note (d.linesInScope [i]) .outOfScope
    return target

end Document

/-! ## Operations -/

namespace Procedure

variable (m : Machine)

/-- Add a line at the end, which is made for the depth of the cursor. It is there before the log
is told. -/
def addLine (make : Int → Line) : Procedure Unit := do
  let d := (← get).document
  let l := make d.cursor
  update (·.append l)
  room m [l.formula]
  record (Log.lineAdded (toString d.lines.length) (toString l.depth) (l.formula.text .ascii)
    l.justification.text)

/-- Put a premise at the boundary, which is moved behind it. -/
def assume (f : Formula) : Procedure Unit := do
  let d := (← get).document
  if d.boundary < d.lines.length then
    refuse m (fun r => Log.ruleRejected Rule.premise.label [] r.reason) .deductionsStarted
  else
    let l := Line.premise f
    update fun d =>
      { d with
        lines := Position.before d.lines d.boundary ++ l :: Position.after d.lines d.boundary }
    update fun d => { d with boundary := d.boundary + 1 }
    room m [l.formula]
    record (Log.lineAdded (toString d.boundary) (toString l.depth) (l.formula.text .ascii)
      l.justification.text)

/-- Move the cursor into a new subproof, then add its hypothesis. -/
def suppose (f : Formula) : Procedure Unit := do
  let d := (← get).document
  update fun d => { d with cursor := d.cursor + 1 }
  record (Log.depthChanged (toString d.cursor) (toString (d.cursor + 1)))
  addLine m (.hypothesis · f)

/-- Move the cursor out of a subproof. -/
def discharge : Procedure Unit := do
  let d := (← get).document
  if d.cursor = 0 then
    refuse m (fun r => .debug ("end_subproof ignored: " ++ r.reason)) .noOpenSubproof
  else
    update fun d => { d with cursor := d.cursor - 1 }
    record (Log.depthChanged (toString d.cursor) (toString (d.cursor - 1)))

/-- Remove the last line, then lower the boundary if necessary, then move the cursor to the new
last line. -/
def delete : Procedure Unit := do
  if (← get).document.lines = [] then
    refuse m (fun r => .debug ("delete_last_line ignored: " ++ r.reason)) .noLines
  else
    update fun d => { d with lines := d.lines.dropLast }
    update fun d => { d with boundary := min d.boundary d.lines.length }
    update fun d => { d with cursor := (d.lines.getLast?.map (·.depth)).getD 0 }
    let d := (← get).document
    record (Log.lineDeleted (toString d.lines.length) (toString d.boundary) (toString d.cursor))

/-- Check an inference, then add what it derives. -/
def infer (i : Inference LineRef) : Procedure Unit := do
  let d := (← get).document
  let note (r : Refusal) := Log.ruleRejected i.rule.label (i.cited.map LineRef.text) r.reason
  match i.traverse (LineRef.resolve? d.lines.length) with
  | none => refuse m note .outOfRange
  | some j =>
    let f ← d.derive m note j
    addLine m (.derived · f j.rule (j.cited.map Fin.val))

end Procedure

def Operation.procedure (m : Machine) : Operation → Procedure Unit
  | assume f => Procedure.assume m f
  | suppose f => Procedure.suppose m f
  | discharge => Procedure.discharge m
  | delete => Procedure.delete m
  | infer i => Procedure.infer m i

namespace Document

/-- Carry out an operation on a machine. -/
def call (d : Document) (m : Machine) (op : Operation) : Except Stop Unit × Desk :=
  (op.procedure m).on ⟨d, []⟩

/-- Carry out an operation where there is room for every formula. -/
def apply (d : Document) (op : Operation) : Except Stop Document :=
  match d.call .unlimited op with
  | (.ok (), k) => .ok k.document
  | (.error s, _) => .error s

end Document

end NaturalDeduction
