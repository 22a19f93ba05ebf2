import NaturalDeduction.Proofs.Construction
import NaturalDeduction.Proofs.Rules

/-!
# Substitution

Proofs are schematic: formulas may be substituted for the atoms throughout a construction, and it
still goes through, line by line. Different formulas may become equal on the way, so that a rule
with two alternatives may apply in the other one afterwards; it derives the same line.

## Main definitions

* `Formula.subst`: formulas put for the atoms of a formula
* `Inference.map`: an inference with other citations and another formula to be derived
* `Operation.subst`, `Document.subst`: a substitution in an operation and in a document

## Main statements

* `Proof.Derives.subst`: the table of the rules is closed under substitution
* `Document.Step.subst`: one operation after a substitution
* `Document.execute_subst`: a whole construction after a substitution
-/

namespace NaturalDeduction

open Scope

variable {s : String → Formula}

/-! ## Substituting in formulas, lines and operations -/

/-- Put formulas for the atoms. -/
def Formula.subst (s : String → Formula) : Formula → Formula
  | atom name => s name
  | absurd => absurd
  | not f => not (f.subst s)
  | binary op l r => binary op (l.subst s) (r.subst s)

/-- Substitute in the formula of a line. -/
def Line.subst (s : String → Formula) (l : Line) : Line := { l with formula := l.formula.subst s }

/-- Substitute in all lines. -/
def Proof.subst (s : String → Formula) (p : Proof) : Proof :=
  { p with lines := p.lines.map (Line.subst s) }

/-- Substitute in all lines. -/
abbrev Document.subst (s : String → Formula) (d : Document) : Document :=
  { d with toProof := d.toProof.subst s }

namespace Inference

variable {ι κ ι' κ' : Type}

/-- Change the citations and the formula to be derived. -/
def map (cite : ι → κ) (rewrite : Formula → Formula) : Inference ι → Inference κ
  | reiterate i => reiterate (cite i)
  | andIntro i j => andIntro (cite i) (cite j)
  | andElim i target => andElim (cite i) (rewrite target)
  | orIntro i target => orIntro (cite i) (rewrite target)
  | orElim i j k => orElim (cite i) (cite j) (cite k)
  | notIntro j => notIntro (cite j)
  | notElim i => notElim (cite i)
  | impliesIntro j => impliesIntro (cite j)
  | impliesElim i j => impliesElim (cite i) (cite j)
  | iffIntro j k => iffIntro (cite j) (cite k)
  | iffElim i j => iffElim (cite i) (cite j)
  | absurdIntro i j => absurdIntro (cite i) (cite j)
  | absurdElim i target => absurdElim (cite i) (rewrite target)

variable (cite : ι → κ) (rewrite : Formula → Formula) (i : Inference ι)

@[simp] theorem rule_map : (i.map cite rewrite).rule = i.rule := by
  cases i <;> rfl

@[simp] theorem citedLines_map : (i.map cite rewrite).citedLines = i.citedLines.map cite := by
  cases i <;> rfl

@[simp] theorem citedSubproofs_map :
    (i.map cite rewrite).citedSubproofs = i.citedSubproofs.map cite := by
  cases i <;> rfl

@[simp] theorem cited_map : (i.map cite rewrite).cited = i.cited.map cite := by
  simp [cited]

variable {cite rewrite i}

/-- Citations that are replaced alike before and after a change are replaced alike in an
inference. -/
theorem traverse_map {cite' : ι' → κ'} {f : ι → Option ι'} {g : κ → Option κ'} {j : Inference ι'}
    (hfg : ∀ c k, f c = some k → g (cite c) = some (cite' k)) (h : i.traverse f = some j) :
    (i.map cite rewrite).traverse g = some (j.map cite' rewrite) := by
  cases i <;> simp only [traverse, bind, pure, Option.bind_eq_some_iff, Option.some.injEq] at h
  case orElim =>
    obtain ⟨i, hi, j, hj, k, hk, rfl⟩ := h
    simp [map, traverse, hfg _ _ hi, hfg _ _ hj, hfg _ _ hk]
  all_goals grind [map, traverse]

end Inference

/-- Substitute in the formulas that an operation names. -/
def Operation.subst (s : String → Formula) : Operation → Operation
  | assume f => assume (f.subst s)
  | suppose f => suppose (f.subst s)
  | discharge => discharge
  | delete => delete
  | infer i => infer (i.map id (Formula.subst s))

/-! ## What a substitution leaves as it is -/

@[simp] theorem Line.closes_subst (l : Line) (depth : Int) :
    (l.subst s).closes depth = l.closes depth := rfl

@[simp] theorem Line.isAssumption_subst (l : Line) : (l.subst s).isAssumption = l.isAssumption :=
  rfl

@[simp] theorem Line.depth_subst (l : Line) : (l.subst s).depth = l.depth := rfl

@[simp] theorem Line.subst_premise (f : Formula) : (premise f).subst s = premise (f.subst s) := rfl

@[simp] theorem Line.subst_hypothesis (depth : Int) (f : Formula) :
    (hypothesis depth f).subst s = hypothesis depth (f.subst s) := rfl

namespace Scope

variable (lines : List Line) (cursor : Int) (i : Nat)

theorem isOpen_map_subst (depth : Int) :
    isOpen (lines.map (Line.subst s)) cursor i depth = isOpen lines cursor i depth := by
  simp [isOpen, survives, ← List.map_drop, Function.comp_def]

theorem isAvailable_map_subst :
    isAvailable (lines.map (Line.subst s)) = isAvailable lines := by
  funext cursor i
  cases h : lines[i]? <;> simp [isAvailable, h, isOpen_map_subst]

theorem isCitable_map_subst :
    isCitable (lines.map (Line.subst s)) = isCitable lines := by
  funext cursor i
  cases h : lines[i]? <;> simp [isCitable, h, isOpen_map_subst]

theorem span?_map_subst : span? (lines.map (Line.subst s)) i = span? lines i := by
  cases h : lines[i]? <;>
    simp [span?, h, body, ← List.map_drop, List.takeWhile_map, Function.comp_def]

theorem result?_map_subst :
    result? (lines.map (Line.subst s)) i = (result? lines i).map (Formula.subst s) := by
  cases h : span? lines i with
  | none => simp [result?, span?_map_subst, h]
  | some span =>
    cases h' : lines[span.2]? <;> simp [result?, span?_map_subst, h, h', Line.subst]

end Scope

/-! ## Rules and operations after a substitution -/

/-- The line that a citation names, after a substitution. -/
def Proof.recite (s : String → Formula) (p : Proof) (k : Fin p.lines.length) :
    Fin (p.subst s).lines.length :=
  k.cast (by simp [Proof.subst])

namespace Proof

variable {p : Proof}

theorem get_recite (k : Fin p.lines.length) :
    (p.subst s).lines.get (p.recite s k) = (p.lines.get k).subst s :=
  List.getElem_map (Line.subst s)

theorem depth_recite (k : Fin p.lines.length) :
    ((p.subst s).lines.get (p.recite s k)).depth = (p.lines.get k).depth := by
  rw [get_recite]
  rfl

theorem result?_recite {k : Fin p.lines.length} {f : Formula} (h : result? p.lines k = some f) :
    result? (p.subst s).lines (p.recite s k) = some (f.subst s) :=
  (result?_map_subst p.lines k).trans (congrArg _ h)

/-- The table of the rules is closed under substitution. -/
theorem Derives.subst {j : Inference (Fin p.lines.length)} {f : Formula} (h : p.Derives j f) :
    (p.subst s).Derives (j.map (p.recite s) (Formula.subst s)) (f.subst s) := by
  have hformula (k : Fin p.lines.length) :
      (p.subst s).lines[p.recite s k].formula = p.lines[k].formula.subst s :=
    congrArg Line.formula (get_recite k)
  cases h with
  | @reiterate i hdepth =>
    rw [← hformula]
    exact .reiterate ((depth_recite i).trans_le hdepth)
  | @andIntro i j =>
    have h := Derives.andIntro (p := p.subst s) (i := p.recite s i) (j := p.recite s j)
    rwa [hformula, hformula] at h
  | @andElim i l r target hi htarget =>
    refine .andElim (l := l.subst s) (r := r.subst s) ?_ ?_
    · rw [hformula, hi]
      rfl
    · exact htarget.imp (congrArg _) (congrArg _)
  | @orIntro i l r hi =>
    refine .orIntro ?_
    rw [hformula]
    exact hi.imp (congrArg _) (congrArg _)
  | @orElim i j k f hj hk hi hfj hfk =>
    refine .orElim hj hk ?_ (result?_recite hfj) (result?_recite hfk)
    rw [hformula, hformula, hformula, hi]
    rfl
  | @notIntro j hdepth hj =>
    have h := Derives.notIntro ((depth_recite j).trans hdepth) (result?_recite (s := s) hj)
    rwa [hformula] at h
  | @notElim i f hi =>
    refine .notElim ?_
    rw [hformula, hi]
    rfl
  | @impliesIntro j f hdepth hj =>
    have h := Derives.impliesIntro ((depth_recite j).trans hdepth) (result?_recite (s := s) hj)
    rwa [hformula] at h
  | @impliesElim i j f hi =>
    refine .impliesElim ?_
    rw [hformula, hformula, hi]
    rfl
  | @iffIntro j k hdepthj hdepthk hj hk =>
    have hj := result?_recite (s := s) hj
    have hk := result?_recite (s := s) hk
    rw [← hformula] at hj hk
    have h := Derives.iffIntro ((depth_recite j).trans hdepthj) ((depth_recite k).trans hdepthk)
      hj hk
    rwa [hformula, hformula] at h
  | @iffElimLeft i j f hi =>
    refine .iffElimLeft ?_
    rw [hformula, hformula, hi]
    rfl
  | @iffElimRight i j f hi =>
    refine .iffElimRight ?_
    rw [hformula, hformula, hi]
    rfl
  | @absurdIntro i j hij =>
    refine .absurdIntro ?_
    rw [hformula, hformula]
    exact hij.imp (congrArg _) (congrArg _)
  | @absurdElim i target hi hdepth =>
    refine .absurdElim ?_ ((depth_recite i).trans_le hdepth)
    rw [hformula, hi]
    rfl

end Proof

namespace Document

variable {d d' : Document} {op : Operation}

@[simp] theorem linesInScope_subst (indices : List Nat) :
    (d.subst s).linesInScope indices = d.linesInScope indices := by
  simp [linesInScope, Proof.subst, isAvailable_map_subst]

@[simp] theorem subproofsInScope_subst (openers : List Nat) :
    (d.subst s).subproofsInScope openers = d.subproofsInScope openers := by
  simp [subproofsInScope, Proof.subst, isCitable_map_subst]

theorem append_subst (l : Line) : (d.append l).subst s = (d.subst s).append (l.subst s) := by
  simp [append, Proof.subst]

theorem dropLast_subst : d.dropLast.subst s = (d.subst s).dropLast := by
  simp only [dropLast, Proof.subst, ← List.map_dropLast, List.getLast?_map, Option.map_map,
    List.length_map]
  rfl

theorem Concludes.subst {j : Inference (Fin d.lines.length)} {f : Formula}
    (h : d.Concludes j f) :
    (d.subst s).Concludes (j.map (d.recite s) (Formula.subst s)) (f.subst s) := by
  refine ⟨?_, ?_, h.derives.subst⟩
  · rw [linesInScope_subst, Inference.citedLines_map, List.map_map]
    exact h.lines_inScope
  · rw [subproofsInScope_subst, Inference.citedSubproofs_map, List.map_map]
    exact h.subproofs_inScope

/-- An operation is accepted after a substitution as well, and does the same. -/
theorem Step.subst (s : String → Formula) (h : d.Step op d') :
    (d.subst s).Step (op.subst s) (d'.subst s) := by
  cases h with
  | assume f h =>
    have h := Step.assume (d := d.subst s) (f.subst s) (by simpa [Proof.subst])
    rwa [← Line.subst_premise, ← append_subst] at h
  | suppose f =>
    have h := Step.suppose (d := d.subst s) (f.subst s)
    rwa [← Line.subst_hypothesis, ← append_subst] at h
  | discharge h => exact .discharge h
  | delete h =>
    rw [dropLast_subst]
    exact .delete (by simpa [Proof.subst])
  | @infer i j f hj hf =>
    have hresolve (c : LineRef) (k : Fin d.lines.length) (hk : c.resolve? d.lines.length = some k) :
        c.resolve? (d.subst s).lines.length = some (d.recite s k) := by
      rw [LineRef.resolve?_eq_some_iff] at hk ⊢
      exact hk
    have h := Step.infer (Inference.traverse_map hresolve hj) hf.subst
    rw [Inference.rule_map, Inference.cited_map, List.map_map] at h
    rw [append_subst]
    exact h

/-- What a run leads to, after a substitution. -/
theorem execute_map_subst {e : Document} {ops : List Operation} (h : d.execute ops = .ok e) :
    (d.subst s).execute (ops.map (Operation.subst s)) = .ok (e.subst s) := by
  induction ops generalizing d with
  | nil =>
    cases h
    rfl
  | cons op ops ih =>
    obtain ⟨d', hstep, h⟩ := execute_cons_eq_ok_iff.1 h
    exact execute_cons_eq_ok_iff.2 ⟨_, hstep.subst s, ih h⟩

/-- If formulas are substituted for the atoms in all operations of a construction, none of which is
refused, then none is refused afterwards, and the formulas of the lines are those that result from
the substitution; everything else is as before. -/
theorem execute_subst (s : String → Formula) (strict : Bool) (ops : List Operation) (d : Document)
    (h : (empty strict).execute ops = .ok d) :
    (empty strict).execute (ops.map (Operation.subst s)) = .ok (d.subst s) :=
  execute_map_subst h

/-- A biconditional is used from right to left. -/
def biconditionalBackwards : List Operation :=
  let a := Formula.atom "A"
  let b := Formula.atom "B"
  [.assume (.iff a b), .assume b, .suppose (.not a),
    .infer (.iffElim (.number 0) (.number 1)), .delete,
    .infer (.iffElim (.number 0) (.number 1)), .infer (.absurdIntro (.number 3) (.number 2)),
    .discharge, .infer (.notIntro (.number 2))]

/-- When both sides become the same formula, the biconditional is used from left to right. -/
theorem execute_subst_biconditionalBackwards :
    let s := fun _ : String => Formula.or (.atom "C") .absurd
    let d := (empty true).run biconditionalBackwards
    (empty true).execute biconditionalBackwards = .ok d ∧
      (empty true).execute (biconditionalBackwards.map (Operation.subst s)) = .ok (d.subst s) := by
  intro s d
  have h : (empty true).execute biconditionalBackwards = .ok d := by rfl
  exact ⟨h, execute_subst s true biconditionalBackwards d h⟩

end Document

end NaturalDeduction
