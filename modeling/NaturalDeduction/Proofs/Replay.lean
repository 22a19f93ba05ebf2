import NaturalDeduction.Proofs.Rules
import NaturalDeduction.Proofs.WellFormed

/-!
# Replaying a document

Every line of a document records how it was obtained. The records suffice to construct the
document anew: before each line subproofs are closed until the next line will stand where this
one stands, and then the operation that the line records is repeated. Nothing is refused and
nothing has to be deleted, whatever was deleted when the document was constructed.

## Main definitions

* `Line.operation?`: the operation that a line records
* `Line.place`: the depth at which the operation was carried out
* `Replay`: a document that is constructed anew
* `Replay.ofProof`: the replay of all lines of a proof

## Main statements

* `Document.Adds.exists_step`: the operation that a line records adds the line
* `Replay.Restores.add`: one more line is restored
* `Replay.ofProof_run`: a replay restores every document that can be constructed
-/

namespace NaturalDeduction

open Scope

/-! ## What a line records -/

/-- The inference by a rule from citations; a formula that it derives is needed where the
citations leave it open. -/
def Inference.ofRule? {ι : Type} : Rule → List ι → Formula → Option (Inference ι)
  | .reiteration, [i], _ => some (.reiterate i)
  | .introduction (.binary .and), [i, j], _ => some (.andIntro i j)
  | .elimination (.binary .and), [i], f => some (.andElim i f)
  | .introduction (.binary .or), [i], f => some (.orIntro i f)
  | .elimination (.binary .or), [i, j, k], _ => some (.orElim i j k)
  | .introduction .not, [j], _ => some (.notIntro j)
  | .elimination .not, [i], _ => some (.notElim i)
  | .introduction (.binary .implies), [j], _ => some (.impliesIntro j)
  | .elimination (.binary .implies), [i, j], _ => some (.impliesElim i j)
  | .introduction (.binary .iff), [j, k], _ => some (.iffIntro j k)
  | .elimination (.binary .iff), [i, j], _ => some (.iffElim i j)
  | .introduction .absurd, [i, j], _ => some (.absurdIntro i j)
  | .elimination .absurd, [i], f => some (.absurdElim i f)
  | _, _, _ => none

namespace Line

/-- The operation that a line records. -/
def operation? (l : Line) : Option Operation :=
  match l.justification.rule with
  | .premise => some (.assume l.formula)
  | .hypothesis => some (.suppose l.formula)
  | rule =>
    (Inference.ofRule? rule (l.justification.cited.map .number) l.formula).map .infer

/-- The depth at which the operation was carried out: a hypothesis stands one level deeper. -/
def place (l : Line) : Int :=
  if l.justification.rule = .hypothesis then l.depth - 1 else l.depth

theorem operation?_derived {n : Nat} (depth : Int) (f : Formula) (i : Inference (Fin n)) :
    (derived depth f i.rule (i.cited.map Fin.val)).operation? =
      (Inference.ofRule? i.rule (i.cited.map fun k : Fin n => LineRef.number k.val) f).map
        .infer := by
  cases i <;> rfl

end Line

/-- What an inference derives and its recorded citations determine the inference. -/
theorem Proof.Derives.ofRule?_eq_some {p : Proof} {i : Inference (Fin p.lines.length)}
    {f : Formula} (h : p.Derives i f) {κ : Type} {cite : Fin p.lines.length → κ}
    {resolve : κ → Option (Fin p.lines.length)} (hresolve : ∀ k, resolve (cite k) = some k) :
    ∃ j, Inference.ofRule? i.rule (i.cited.map cite) f = some j ∧
      j.traverse resolve = some i := by
  cases h <;> exact ⟨_, rfl, by simp [Inference.traverse, hresolve]⟩

namespace Document

variable {d e : Document} {l : Line}

theorem Adds.cursor_eq_place (h : d.Adds l) (hd : d.WellFormed) : d.cursor = l.place := by
  cases h with
  | premise f h => simp [Line.place, Line.premise, hd.cursor_eq_zero h]
  | hypothesis f => simp [Line.place, Line.hypothesis]
  | @derived i f h => simp [Line.place, Line.derived, i.rule_ne.2]

/-- The operation that a line records adds the line. -/
theorem Adds.exists_step (h : d.Adds l) (hd : d.WellFormed) :
    ∃ op d', l.operation? = some op ∧ op ≠ .delete ∧ d.Step op d' ∧
      d'.lines = d.lines ++ [l] ∧ d'.cursor = l.depth := by
  cases h with
  | premise f h => exact ⟨_, _, rfl, by simp, .assume f h, rfl, hd.cursor_eq_zero h⟩
  | hypothesis f => exact ⟨_, _, rfl, by simp, .suppose f, rfl, rfl⟩
  | @derived i f h =>
    have hresolve (k : Fin d.lines.length) :
        LineRef.resolve? d.lines.length (.number k.val) = some k := by simp
    obtain ⟨j, hj, hi⟩ := h.derives.ofRule?_eq_some hresolve
    refine ⟨.infer j, _, ?_, by simp, .infer hi h, rfl, rfl⟩
    rw [Line.operation?_derived, hj, Option.map_some]

theorem WellFormed.boundary_le_of_lines_eq (hd : d.WellFormed) (he : e.WellFormed)
    (h : d.lines = e.lines) : d.boundary ≤ e.boundary := by
  by_contra! hlt
  -- The line at the smaller boundary would be a premise of one document only.
  have hge := he.boundary_nonneg
  have hle := hd.boundary_le
  obtain ⟨l, hl⟩ : ∃ l, d.lines[e.boundary.toNat]? = some l :=
    ⟨_, List.getElem?_eq_getElem (by omega)⟩
  have hpremise := (hd.isPremise_iff _ l hl).2 (by omega)
  have := (he.isPremise_iff _ l (h ▸ hl)).1 hpremise
  omega

theorem WellFormed.boundary_eq_of_lines_eq (hd : d.WellFormed) (he : e.WellFormed)
    (h : d.lines = e.lines) : d.boundary = e.boundary :=
  le_antisymm (hd.boundary_le_of_lines_eq he h) (he.boundary_le_of_lines_eq hd h.symm)

/-- Apart from its strictness, a document is determined by its lines and its cursor. -/
theorem WellFormed.eq_of_lines_eq (hd : d.WellFormed) (he : e.WellFormed)
    (hlines : d.lines = e.lines) (hstrict : d.strict = e.strict) :
    { d with cursor := e.cursor } = e := by
  have hboundary := hd.boundary_eq_of_lines_eq he hlines
  obtain ⟨⟨dlines, dboundary, dcursor⟩, dstrict⟩ := d
  obtain ⟨⟨elines, eboundary, ecursor⟩, estrict⟩ := e
  simp_all

end Document

/-- A document that is constructed anew, and the operations carried out so far. -/
structure Replay where
  document : Document
  performed : List Operation

namespace Replay

variable {r : Replay} {strict : Bool} {lines : List Line} {l : Line}

def start (strict : Bool) : Replay := ⟨.empty strict, []⟩

/-- Carry out an operation, which must not be refused. -/
def perform (r : Replay) (op : Operation) : Option Replay :=
  match r.document.apply op with
  | .ok d => some ⟨d, r.performed ++ [op]⟩
  | .error _ => none

/-- Close subproofs, at most as many as given, until the next line will stand at a depth. -/
def closeWithin (depth : Int) : Nat → Replay → Option Replay
  | 0, r => if r.document.cursor = depth then some r else none
  | n + 1, r =>
    if r.document.cursor = depth then some r
    else (r.perform .discharge).bind (closeWithin depth n)

/-- Close subproofs until the next line will stand at a depth. No more can be closed than are
open. -/
def closeTo (depth : Int) (r : Replay) : Option Replay :=
  closeWithin depth r.document.cursor.toNat r

/-- Repeat what a line records. -/
def add (r : Replay) (l : Line) : Option Replay := do
  let r ← r.closeTo l.place
  let op ← l.operation?
  r.perform op

/-- Repeat what all lines of a proof record. -/
def ofProof (strict : Bool) (p : Proof) : Option Replay := do
  let r ← p.lines.foldlM add (start strict)
  r.closeTo p.cursor

theorem perform_of_step {op : Operation} {d : Document} (h : r.document.Step op d) :
    r.perform op = some ⟨d, r.performed ++ [op]⟩ := by
  simp [perform, Document.apply_eq_ok_iff.2 h]

theorem closeTo_of_eq {depth : Int} (h : r.document.cursor = depth) :
    r.closeTo depth = some r := by
  rw [closeTo]
  cases r.document.cursor.toNat <;> simp [closeWithin, h]

theorem closeTo_of_ne {depth : Int} (h : r.document.cursor ≠ depth)
    (hpos : 0 < r.document.cursor) :
    r.closeTo depth = (r.perform .discharge).bind (closeTo depth) := by
  obtain ⟨n, hn⟩ : ∃ n, r.document.cursor.toNat = n + 1 :=
    ⟨r.document.cursor.toNat - 1, by omega⟩
  have hpred : (r.document.cursor - 1).toNat = n := by omega
  rw [closeTo, hn, closeWithin, if_neg h, perform_of_step (.discharge hpos.ne')]
  simp [closeTo, hpred]

/-- Any smaller depth can be reached. -/
theorem closeTo_eq_some {depth : Int} (hge : 0 ≤ depth) {n : Nat}
    (hn : r.document.cursor = depth + n) :
    r.closeTo depth = some ⟨{ r.document with cursor := depth },
      r.performed ++ List.replicate n .discharge⟩ := by
  induction n generalizing r with
  | zero =>
    obtain rfl : r.document.cursor = depth := by simpa using hn
    rw [closeTo_of_eq rfl]
    simp
  | succ n ih =>
    have hpos : 0 < r.document.cursor := by omega
    rw [closeTo_of_ne (by omega) hpos, perform_of_step (.discharge hpos.ne'), Option.bind_some,
      ih (by simp only; omega)]
    simp [List.replicate_succ]

/-- The lines have been restored, and nothing was deleted. -/
structure Restores (r : Replay) (strict : Bool) (lines : List Line) : Prop where
  wellFormed : r.document.WellFormed
  lines_eq : r.document.lines = lines
  cursor_eq : r.document.cursor = level lines
  strict_eq : r.document.strict = strict
  delete_notMem : Operation.delete ∉ r.performed

theorem restores_start (strict : Bool) : (start strict).Restores strict [] where
  wellFormed := Document.wellFormed_empty strict
  lines_eq := rfl
  cursor_eq := rfl
  strict_eq := rfl
  delete_notMem := List.not_mem_nil

/-- A document with the restored lines is reached by closing subproofs. -/
theorem Restores.closeTo (hr : r.Restores strict lines) {d : Document} (hd : d.WellFormed)
    (hlines : d.lines = lines) (hstrict : d.strict = strict) :
    ∃ script, r.closeTo d.cursor = some ⟨d, script⟩ ∧ Operation.delete ∉ script := by
  have hge := hd.cursor_nonneg
  have hle : d.cursor ≤ r.document.cursor := by
    rw [hr.cursor_eq, ← hlines]
    exact hd.cursor_le
  have hclose := closeTo_eq_some (r := r) hge (n := (r.document.cursor - d.cursor).toNat) (by omega)
  rw [hr.wellFormed.eq_of_lines_eq hd (hr.lines_eq.trans hlines.symm)
    (hr.strict_eq.trans hstrict.symm)] at hclose
  refine ⟨_, hclose, ?_⟩
  simp [hr.delete_notMem]

/-- One more line is restored, if it could once be added. -/
theorem Restores.add (hr : r.Restores strict lines) {d : Document} (hd : d.WellFormed)
    (hlines : d.lines = lines) (hstrict : d.strict = strict) (hl : d.Adds l) :
    ∃ r', r.add l = some r' ∧ r'.Restores strict (lines ++ [l]) := by
  obtain ⟨script, hclose, hscript⟩ := hr.closeTo hd hlines hstrict
  obtain ⟨op, d', hop, hne, hstep, hlines', hcursor'⟩ := hl.exists_step hd
  rw [hl.cursor_eq_place hd] at hclose
  refine ⟨⟨d', script ++ [op]⟩, ?_, ?_⟩
  · rw [Replay.add, hclose, hop]
    exact perform_of_step (r := ⟨d, script⟩) hstep
  · exact {
      wellFormed := hstep.wellFormed hd
      lines_eq := hlines'.trans (hlines ▸ rfl)
      cursor_eq := hcursor'.trans (level_concat lines l).symm
      strict_eq := hstep.strict_eq.trans hstrict
      delete_notMem := by simp [hscript, hne.symm] }

/-- The first lines of a document are restored one after the other. -/
theorem exists_restores_take {d : Document} (hd : Document.Reachable {strict} d) (k : Nat)
    (hk : k ≤ d.lines.length) :
    ∃ r, (d.lines.take k).foldlM Replay.add (start strict) = some r ∧
      r.Restores strict (d.lines.take k) := by
  induction k with
  | zero => exact ⟨_, rfl, restores_start strict⟩
  | succ k ih =>
    obtain ⟨r, hfold, hr⟩ := ih (by omega)
    have hl := List.getElem?_eq_getElem (l := d.lines) (i := k) (by omega)
    obtain ⟨e, he, hlines, hadds⟩ := hd.line_added hl
    obtain ⟨r', hadd, hr'⟩ := hr.add he.wellFormed hlines he.strict_mem hadds
    rw [List.take_succ_eq_append_getElem (by omega)]
    refine ⟨r', ?_, hr'⟩
    rw [List.foldlM_append, hfold]
    simp [hadd]

/-- A replay restores every document that can be constructed. Every operation is accepted, and
none of them is a deletion. -/
theorem ofProof_run (strict : Bool) (ops : List Operation) :
    ∃ script, ofProof strict ((Document.empty strict).run ops).toProof =
      some ⟨(Document.empty strict).run ops, script⟩ ∧ Operation.delete ∉ script := by
  have hd := Document.reachable_run strict ops
  obtain ⟨r, hfold, hr⟩ := exists_restores_take hd _ le_rfl
  rw [List.take_length] at hfold hr
  obtain ⟨script, hclose, hscript⟩ := hr.closeTo hd.wellFormed rfl hd.strict_mem
  refine ⟨script, ?_, hscript⟩
  rw [ofProof, hfold]
  exact hclose

end Replay

end NaturalDeduction
