import NaturalDeduction.Proofs.Acceptance
import NaturalDeduction.Proofs.Room

/-!
# What operations change

An accepted operation changes a few parts of a document and leaves everything else as it was; a
refused one changes nothing. Lines are only ever added and removed at the end. So a document that
was continued is restored by deleting the lines that were added, up to the cursor: a deletion sets
it to the depth of the last line that is left, whether or not the subproofs of that line had been
closed before.

## Main definitions

* `Document.Alters`: what an accepted operation changes
* `Document.Accepts`: when an operation is accepted
* `Document.cut`: a document after the deletion of all but its first lines
* `Document.Extends`: a document was continued without deletions

## Main statements

* `Document.call_alters`: when an operation is accepted, and what it changes then
* `Document.execute_replicate_delete`: the effect of several deletions
* `Document.Extends.revise`: what a continuation keeps
* `Document.delete_restores`: deletions undo a continuation, up to the cursor
-/

namespace NaturalDeduction.Document

open Scope

variable {d e e' : Document} {op : Operation} {es : List Edit} {k n : Nat}

/-! ## One operation -/

/-- What an accepted operation changes, everything else being as before. -/
def Alters (d e : Document) : Operation → Prop
  | .assume f =>
    e = { d with
      lines := d.lines ++ [⟨0, .assumption, f, ⟨.premise, []⟩⟩]
      boundary := d.boundary + 1 }
  | .suppose f =>
    e = { d with
      lines := d.lines ++ [⟨d.cursor + 1, .assumption, f, ⟨.hypothesis, []⟩⟩]
      cursor := d.cursor + 1 }
  | .discharge => e = { d with cursor := d.cursor - 1 }
  | .delete =>
    ∃ l, d.lines = e.lines ++ [l] ∧
      e = { d with
        lines := e.lines
        boundary := min d.boundary e.lines.length
        cursor := level e.lines }
  | .infer i =>
    ∃ f cited, i.cited = cited.map .number ∧
      e = { d with lines := d.lines ++ [⟨d.cursor, .derivation, f, ⟨i.rule, cited⟩⟩] }

/-- When an operation is accepted. -/
def Accepts (d : Document) : Operation → Prop
  | .assume _ => (d.lines.length : Int) ≤ d.boundary
  | .suppose _ => True
  | .discharge => d.cursor ≠ 0
  | .delete => d.lines ≠ []
  | .infer i =>
    (d.strict = true → d.InScope (.infer i)) ∧
      ∃ (j : Inference (Fin d.lines.length)) (f : Formula), i = j.numbered ∧ d.Derives j f

theorem Step.alters (h : d.Step op e) : d.Alters e op := by
  cases h with
  | assume f h => rfl
  | suppose f => rfl
  | discharge h => rfl
  | delete hne => exact ⟨d.lines.getLast hne, (List.dropLast_concat_getLast hne).symm, rfl⟩
  | @infer i j f hj hf =>
    obtain rfl := Inference.traverse_resolve?_eq_some_iff.1 hj
    refine ⟨f, j.cited.map fun k => (k.val : Int), ?_, ?_⟩
    · simp [Inference.numbered, Function.comp_def]
    · simp [append, Line.derived, Inference.numbered, Function.comp_def]

theorem exists_step_iff : (∃ e, d.Step op e) ↔ d.Accepts op := by
  constructor
  · rintro ⟨e, h⟩
    cases h with
    | assume f h => exact h
    | suppose f => exact trivial
    | discharge h => exact h
    | delete hne => exact hne
    | infer hj hf =>
      obtain ⟨hscope, j, f, hi, hf, -⟩ := step_infer_iff.1 (.infer hj hf)
      exact ⟨hscope, j, f, hi, hf⟩
  · intro h
    cases op with
    | assume f => exact ⟨_, .assume f h⟩
    | suppose f => exact ⟨_, .suppose f⟩
    | discharge => exact ⟨_, .discharge h⟩
    | delete => exact ⟨_, .delete h⟩
    | infer i =>
      obtain ⟨hscope, j, f, hi, hf⟩ := h
      exact ⟨_, step_infer_iff.2 ⟨hscope, j, f, hi, hf, rfl⟩⟩

/-- An operation is accepted or refused as a whole, although the document is changed part by part. A
refused one has changed nothing. An accepted one has changed only what it is meant to: an inference
adds one line, which stands where the cursor is and cites the given lines in order, a premise or a
hypothesis is added behind all other lines, the end of a subproof moves the cursor, and a deletion
removes the last line. Even where there is no room for a formula, the document is left as it was or
as the operation is meant to leave it. -/
theorem call_alters (d : Document) (m : Machine) (op : Operation) :
    match d.call m op with
    | (.ok (), k) => d.Accepts op ∧ d.Alters k.document op
    | (.error (.refused _), k) => ¬ d.Accepts op ∧ k.document = d
    | (.error .overflow, k) => m.Bounded ∧ (k.document = d ∨ d.Alters k.document op) := by
  split
  · rename_i k hcall
    have hstep := step_of_call hcall
    exact ⟨exists_step_iff.1 ⟨_, hstep⟩, hstep.alters⟩
  · rename_i r k hcall
    refine ⟨fun haccepts => ?_, document_of_refused hcall⟩
    obtain ⟨e, hstep⟩ := exists_step_iff.2 haccepts
    exact not_step_of_refused hcall hstep
  · rename_i k hcall
    obtain ⟨hbounded, hdocument⟩ := cases_of_overflow hcall
    exact ⟨hbounded, hdocument.imp_right Step.alters⟩

/-! ## Deleting lines -/

/-- The document cut back to its first lines. -/
def cut (d : Document) (n : Nat) : Document :=
  { d with
    lines := d.lines.take n
    boundary := min d.boundary n
    cursor := level (d.lines.take n) }

theorem dropLast_eq_cut (h : d.lines.length = n + 1) : d.dropLast = d.cut n := by
  simp [dropLast, cut, level, List.dropLast_eq_take, h]

theorem cut_cut (h : n ≤ k) : (d.cut k).cut n = d.cut n := by
  simp only [cut, List.take_take, Nat.min_eq_left h, mk.injEq, Proof.mk.injEq, true_and, and_true]
  omega

theorem Step.delete_cut (h : d.lines.length = n + 1) : d.Step .delete (d.cut n) := by
  rw [← dropLast_eq_cut h]
  exact .delete (List.ne_nil_of_length_eq_add_one h)

/-- Deleting some lines cuts the document back. The cursor is set anew every time, so that it
depends on the last deletion alone. -/
theorem execute_replicate_delete (h : d.lines.length = n + (k + 1)) :
    d.execute (List.replicate (k + 1) .delete) = .ok (d.cut n) := by
  induction k generalizing d with
  | zero => exact execute_cons_eq_ok_iff.2 ⟨_, .delete_cut h, rfl⟩
  | succ k ih =>
    have hlength : (d.cut (n + (k + 1))).lines.length = n + (k + 1) := by simp [cut, h]
    rw [← cut_cut (k := n + (k + 1)) (by omega)]
    exact execute_cons_eq_ok_iff.2 ⟨_, .delete_cut h, ih hlength⟩

/-! ## Continuing a document -/

/-- The lines of the first document are still the first lines of the second, and those of them
that were premises are still the premises among them. -/
structure Extends (d e : Document) : Prop where
  lines_prefix : d.lines <+: e.lines
  boundary_eq : min e.boundary d.lines.length = d.boundary

theorem WellFormed.extends_self (hd : d.WellFormed) : d.Extends d :=
  ⟨List.prefix_refl _, Int.min_eq_left hd.boundary_le⟩

namespace Extends

theorem step (h : d.Extends e) (hstep : e.Step op e') (hop : op ≠ .delete) : d.Extends e' := by
  obtain ⟨hlines, hboundary⟩ := h
  have hle := hlines.length_le
  cases hstep with
  | assume f hassume =>
    -- There are only premises, so that every old line is one.
    refine ⟨hlines.trans (List.prefix_append _ _), ?_⟩
    simp only
    omega
  | suppose f => exact ⟨hlines.trans (List.prefix_append _ _), hboundary⟩
  | discharge hcursor => exact ⟨hlines, hboundary⟩
  | delete hne => exact absurd rfl hop
  | infer hj hf => exact ⟨hlines.trans (List.prefix_append _ _), hboundary⟩

/-- Whatever is done apart from deletions continues the document. -/
theorem revise (h : d.Extends e) (hes : .operate .delete ∉ es) : d.Extends (e.revise es) := by
  induction es generalizing e with
  | nil => exact h
  | cons edit es ih =>
    rw [List.mem_cons, not_or] at hes
    refine ih ?_ hes.2
    cases edit with
    | setStrict strict => exact ⟨h.lines_prefix, h.boundary_eq⟩
    | operate op =>
      obtain hstep | heq := e.attempt_cases op
      · exact h.step hstep fun hop => hes.1 (by rw [hop])
      · rwa [edit, heq]

/-- A document that was continued is cut back to what it was, apart from the cursor. -/
theorem cut_eq (h : d.Extends e) :
    e.cut d.lines.length = { d with cursor := level d.lines, strict := e.strict } := by
  obtain ⟨ms, hms⟩ := h.lines_prefix
  simp [cut, ← hms, h.boundary_eq]

end Extends

/-- Deleting as many lines as were added since restores a document, except that the next line will
stand at the depth of the last one, or in the main proof if there is none. So a line that is
deleted at once leaves no trace exactly if the cursor stood there already. -/
theorem delete_restores (strict : Bool) (es : List Edit) :
    let d := (empty strict).revise es
    (∀ (es' : List Edit) (k : Nat), .operate .delete ∉ es' → 1 ≤ k →
      (d.revise es').lines.length = d.lines.length + k →
      ∃ e, (d.revise es').execute (List.replicate k .delete) = .ok e ∧
        e.toProof = { d.toProof with cursor := level d.lines }) ∧
    ∀ (op : Operation) (e : Document), d.apply op = .ok e →
      e.lines.length = d.lines.length + 1 →
      (e.apply .delete = .ok d ↔ d.cursor = level d.lines) := by
  intro d
  have hself : d.Extends d := (reachable_revise strict es).wellFormed.extends_self
  constructor
  · intro es' k hes hk hlength
    obtain ⟨k, rfl⟩ := Nat.exists_eq_add_of_le' hk
    refine ⟨_, execute_replicate_delete hlength, ?_⟩
    rw [(hself.revise hes).cut_eq]
  · intro op e happly hlength
    have hstep := apply_eq_ok_iff.1 happly
    have hop : op ≠ .delete := by
      rintro rfl
      obtain ⟨l, hl, -⟩ := hstep.alters
      have := congrArg List.length hl
      simp at this
      omega
    rw [apply_eq_ok_iff.2 (.delete_cut hlength), (hself.step hstep hop).cut_eq, hstep.strict_eq]
    constructor
    · intro h
      exact (congrArg (·.cursor) (Except.ok.inj h)).symm
    · intro h
      rw [← h]

/-- A subproof that was closed is reopened when a line is added behind it and deleted. -/
theorem delete_restores_reopened :
    let d := (empty true).revise [.operate (.suppose (.atom "A")), .operate .discharge]
    let e := d.attempt (.suppose (.atom "B"))
    d.apply (.suppose (.atom "B")) = .ok e ∧ e.lines.length = d.lines.length + 1 ∧
      d.cursor = 0 ∧ level d.lines = 1 ∧ e.apply .delete ≠ .ok d ∧
      ∃ e', e.execute [.delete] = .ok e' ∧ e'.toProof = { d.toProof with cursor := 1 } := by
  intro d e
  have happly : d.apply (.suppose (.atom "B")) = .ok e := rfl
  have hlength : e.lines.length = d.lines.length + 1 := rfl
  obtain ⟨hrestore, hexact⟩ := delete_restores true
    [.operate (.suppose (.atom "A")), .operate .discharge]
  refine ⟨happly, hlength, rfl, rfl, ?_, ?_⟩
  · rw [Ne, hexact _ e happly hlength]
    decide
  · exact hrestore [.operate (.suppose (.atom "B"))] 1 (by decide) le_rfl hlength

end NaturalDeduction.Document
