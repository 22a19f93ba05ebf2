import NaturalDeduction.Proofs.Construction

/-!
# Strict and lax documents

A strict document differs from a lax one in what it refuses, and only in that: it accepts an
operation exactly if a lax document with the same lines accepts it and everything that is cited is
in scope. What the operation does is the same. So the operations that a strict document accepts in
the course of a construction construct the same proof in a lax document.

## Main definitions

* `Operation.citedLines`, `Operation.citedSubproofs`: what an operation cites
* `Proof.InScope`: everything that an operation cites is in scope
* `Document.accepted`: the operations of a run that are accepted

## Main statements

* `Document.Step.lax`, `Document.Step.strict`: a step of a document, when its strictness changes
* `Document.execute_accepted`: a run is what its accepted operations lead to
* `Document.strict_iff_lax_inScope`: strict documents compared with lax ones, for one operation
  and for a whole run
-/

namespace NaturalDeduction

open Scope

namespace Operation

/-- The citations of single lines. -/
def citedLines : Operation → List LineRef
  | infer i => i.citedLines
  | _ => []

/-- The citations of whole subproofs, by the lines that open them. -/
def citedSubproofs : Operation → List LineRef
  | infer i => i.citedSubproofs
  | _ => []

end Operation

/-- Every line that an operation cites is available, and every subproof is citable. -/
def Proof.InScope (p : Proof) (op : Operation) : Prop :=
  (∀ c ∈ op.citedLines, ∃ k : Nat, c = .number k ∧ isAvailable p.lines p.cursor k) ∧
    ∀ c ∈ op.citedSubproofs, ∃ o : Nat, c = .number o ∧ isCitable p.lines p.cursor o

/-! ## Citations that name lines -/

namespace Inference

variable {n : Nat} {i : Inference LineRef} {j : Inference (Fin n)}

/-- The citations of an inference are the numbers of the lines that they name. -/
theorem citedLines_of_traverse (h : i.traverse (LineRef.resolve? n) = some j) :
    i.citedLines = j.citedLines.map fun k : Fin n => .number k.val := by
  cases i <;> simp [traverse, Option.bind_eq_some_iff, LineRef.resolve?_eq_some_iff] at h <;>
    grind [citedLines]

theorem citedSubproofs_of_traverse (h : i.traverse (LineRef.resolve? n) = some j) :
    i.citedSubproofs = j.citedSubproofs.map fun k : Fin n => .number k.val := by
  cases i <;> simp [traverse, Option.bind_eq_some_iff, LineRef.resolve?_eq_some_iff] at h <;>
    grind [citedSubproofs]

end Inference

namespace Document

variable {d d' e : Document} {op : Operation} {ops : List Operation}

/-- The same document with another strictness. -/
def withStrict (d : Document) (strict : Bool) : Document := { d with strict }

/-! ## One operation -/

/-- A strict document has its citations in scope exactly if they are available and citable. -/
theorem inScope_infer_iff (hstrict : d.strict = true) {i : Inference LineRef}
    {j : Inference (Fin d.lines.length)}
    (hj : i.traverse (LineRef.resolve? d.lines.length) = some j) :
    d.InScope (.infer i) ↔ d.linesInScope (j.citedLines.map Fin.val) ∧
      d.subproofsInScope (j.citedSubproofs.map Fin.val) := by
  simp only [Proof.InScope, Operation.citedLines, Inference.citedLines_of_traverse hj,
    Operation.citedSubproofs, Inference.citedSubproofs_of_traverse hj, List.mem_map,
    forall_exists_index, and_imp, forall_apply_eq_imp_iff₂, LineRef.number.injEq, Int.ofNat_inj,
    exists_eq_left', linesInScope, subproofsInScope, hstrict, Bool.not_true, Bool.false_or,
    List.all_map, List.all_eq_true, Function.comp_apply]

/-- A lax document does whatever any document does. -/
theorem Step.lax (h : d.Step op d') : (d.withStrict false).Step op (d'.withStrict false) := by
  cases h with
  | assume f h => exact .assume f h
  | suppose f => exact .suppose f
  | discharge h => exact .discharge h
  | delete h => exact .delete h
  | infer hj hf =>
    refine .infer (d := d.withStrict false) hj ⟨?_, ?_, hf.derives⟩ <;>
      simp [linesInScope, subproofsInScope, withStrict]

/-- What a strict document does is in scope. -/
theorem Step.inScope (h : d.Step op d') (hstrict : d.strict = true) : d.InScope op := by
  cases h with
  | infer hj hf => 
    exact (inScope_infer_iff hstrict hj).2 ⟨hf.lines_inScope, hf.subproofs_inScope⟩
  | _ => simp [Proof.InScope, Operation.citedLines, Operation.citedSubproofs]

/-- A strict document does what any document does, as long as it is in scope. -/
theorem Step.strict (h : d.Step op d') (hscope : d.InScope op) :
    (d.withStrict true).Step op (d'.withStrict true) := by
  cases h with
  | assume f h => exact .assume f h
  | suppose f => exact .suppose f
  | discharge h => exact .discharge h
  | delete h => exact .delete h
  | infer hj hf =>
    have hscope := (inScope_infer_iff (d := d.withStrict true) rfl hj).1 hscope
    exact .infer (d := d.withStrict true) hj ⟨hscope.1, hscope.2, hf.derives⟩

/-! ## Runs -/

/-- The operations of a run that are accepted. -/
def accepted (d : Document) : List Operation → List Operation
  | [] => []
  | op :: ops =>
    match d.apply op with
    | .ok d' => op :: d'.accepted ops
    | .error _ => d.accepted ops

theorem accepted_sublist (d : Document) (ops : List Operation) : (d.accepted ops).Sublist ops := by
  induction ops generalizing d with
  | nil => exact .slnil
  | cons op ops ih =>
    rw [accepted]
    split
    · exact (ih _).cons_cons op
    · exact (ih d).cons op

/-- A run is what its accepted operations lead to. -/
theorem execute_accepted (d : Document) (ops : List Operation) :
    d.execute (d.accepted ops) = .ok (d.run ops) := by
  induction ops generalizing d with
  | nil => rfl
  | cons op ops ih =>
    cases h : d.apply op with
    | ok d' =>
      have hstep := apply_eq_ok_iff.1 h
      have hrun : d.run (op :: ops) = d'.run ops := by simp [run, attempt_of_step hstep]
      rw [accepted, h, hrun]
      exact execute_cons_eq_ok_iff.2 ⟨d', hstep, ih d'⟩
    | error r =>
      have hrun : d.run (op :: ops) = d.run ops := by simp [run, attempt_of_error h]
      rw [accepted, h, hrun]
      exact ih d

/-- A lax document carries out whatever any document carries out. -/
theorem execute_lax (h : d.execute ops = .ok e) :
    (d.withStrict false).execute ops = .ok (e.withStrict false) := by
  induction ops generalizing d with
  | nil =>
    cases h
    rfl
  | cons op ops ih =>
    obtain ⟨d', hstep, h⟩ := execute_cons_eq_ok_iff.1 h
    exact execute_cons_eq_ok_iff.2 ⟨_, hstep.lax, ih h⟩

/-- A strict document accepts an operation exactly if a lax one does and everything that is cited is
in scope, and both do the same then. So the operations that are accepted in the course of a strict
construction are all accepted by a lax document and construct the same proof. -/
theorem strict_iff_lax_inScope :
    (∀ (d : Document) (op : Operation),
      ((∃ e, (d.withStrict true).apply op = .ok e) ↔
        (∃ e, (d.withStrict false).apply op = .ok e) ∧ d.InScope op) ∧
      ∀ e e', (d.withStrict true).apply op = .ok e → (d.withStrict false).apply op = .ok e' →
        e.toProof = e'.toProof) ∧
    ∀ ops : List Operation, ((empty true).accepted ops).Sublist ops ∧
      ∃ e, (empty false).execute ((empty true).accepted ops) = .ok e ∧
        e.toProof = ((empty true).run ops).toProof := by
  refine ⟨fun d op => ⟨⟨?_, ?_⟩, ?_⟩, fun ops => ⟨accepted_sublist _ ops, ?_⟩⟩
  · rintro ⟨e, h⟩
    rw [apply_eq_ok_iff] at h
    exact ⟨⟨_, apply_eq_ok_iff.2 h.lax⟩, h.inScope rfl⟩
  · rintro ⟨⟨e, h⟩, hscope⟩
    rw [apply_eq_ok_iff] at h
    exact ⟨_, apply_eq_ok_iff.2 (h.strict hscope)⟩
  · intro e e' h h'
    have hlax := apply_eq_ok_iff.2 (apply_eq_ok_iff.1 h).lax
    obtain rfl : e.withStrict false = e' := Except.ok.inj (hlax.symm.trans h')
    rfl
  · exact ⟨_, execute_lax (execute_accepted (empty true) ops), rfl⟩

end Document

end NaturalDeduction
