import NaturalDeduction.Proofs.Chain
import NaturalDeduction.Proofs.Rules

/-!
# Citations of strict documents

A strict document checks a citation when the citing line is added. What is cited stays in scope
afterwards: nothing that was cited can be changed without deleting the line that cites it first.

## Main definitions

* `Justification.citedLines`, `Justification.citedSubproofs`: the two kinds of citations
* `Scope.Sealed`: a subproof is closed at a line, and everything around it is open

## Main statements

* `Document.Reachable.derivation`: what a derived line cites, in terms of chains
* `Document.citations_in_scope`: citations respect the subproofs of the finished document
-/

namespace NaturalDeduction

open Scope

/-! ## Kinds of citations -/

/-- How many of the `n` citations of a rule are of single lines; the others are of subproofs. -/
def Rule.singles (n : Nat) : Rule → Nat
  | elimination (.binary .or) => 1
  | introduction .not | introduction (.binary .implies) | introduction (.binary .iff) => 0
  | _ => n

namespace Justification

/-- The citations of single lines. -/
def citedLines (j : Justification) : List Int := j.cited.take (j.rule.singles j.cited.length)

/-- The citations of whole subproofs, by the lines that open them. -/
def citedSubproofs (j : Justification) : List Int := j.cited.drop (j.rule.singles j.cited.length)

end Justification

namespace Line

variable {n : Nat} (depth : Int) (f : Formula) (i : Inference (Fin n))

theorem citedLines_derived :
    (derived depth f i.rule (i.cited.map Fin.val)).justification.citedLines =
      i.citedLines.map fun k : Fin n => (k.val : Int) := by
  cases i <;> rfl

theorem citedSubproofs_derived :
    (derived depth f i.rule (i.cited.map Fin.val)).justification.citedSubproofs =
      i.citedSubproofs.map fun k : Fin n => (k.val : Int) := by
  cases i <;> rfl

end Line

/-! ## Closed subproofs -/

namespace Scope

variable {lines : List Line} {l : Line} {i j o p last : Nat}

/-- The subproof opened at `o` is nested and closed where line `j` stands, but everything around
it is open there. -/
structure Sealed (lines : List Line) (o j : Nat) : Prop where
  nested : ∃ l, lines[o]? = some l ∧ l.isAssumption ∧ 0 < l.depth
  closed : ¬ chainAt lines o <+: chainAt lines j
  parent : (chainAt lines o).dropLast <+: chainAt lines j

theorem encloses_mono (h : WellNested lines) (hi : i < lines.length) (hj : j < lines.length)
    (hpre : chainAt lines i <+: chainAt lines j) (hp : encloses lines p i) :
    encloses lines p j := by
  obtain ⟨l, hl, ha, hd, hpi⟩ := (encloses_iff h hi).1 hp
  exact (encloses_iff h hj).2 ⟨l, hl, ha, hd, hpi.trans hpre⟩

/-- A subproof around another one, both being nested, is around everything that the inner one
stands in. -/
theorem prefix_dropLast_of_ne (hl : lines[o]? = some l) (ha : l.isAssumption) (hd : 0 < l.depth)
    {m : Line} (hm : lines[p]? = some m) (ha' : m.isAssumption) (hd' : 0 < m.depth) (hne : p ≠ o)
    (hpre : chainAt lines p <+: chainAt lines o) :
    chainAt lines p <+: (chainAt lines o).dropLast := by
  have hlast := getLast?_chainAt hl ha hd
  obtain ⟨init, hinit⟩ := List.getLast?_eq_some_iff.1 hlast
  rw [hinit] at hpre ⊢
  rw [List.dropLast_concat]
  obtain heq | hpre := List.prefix_concat_iff.1 hpre
  · have hp := getLast?_chainAt hm ha' hd'
    rw [heq, List.getLast?_concat, Option.some.injEq] at hp
    exact absurd hp.symm hne
  · exact hpre

theorem Sealed.encloses_of_ne (h : WellNested lines) (ho : o < lines.length)
    (hj : j < lines.length) (hs : Sealed lines o j) (hne : p ≠ o) (hp : encloses lines p o) :
    encloses lines p j := by
  obtain ⟨l, hl, ha, hd⟩ := hs.nested
  obtain ⟨m, hm, ha', hd', hpre⟩ := (encloses_iff h ho).1 hp
  have := prefix_dropLast_of_ne hl ha hd hm ha' hd' hne hpre
  exact (encloses_iff h hj).2 ⟨m, hm, ha', hd', this.trans hs.parent⟩

/-- A closed subproof ends before the line at which it is closed. -/
theorem Sealed.span_lt (h : WellNested lines) (hj : j < lines.length) (hs : Sealed lines o j)
    (hlt : o < j) : ∃ last, span? lines o = some (o, last) ∧ last < j := by
  obtain ⟨l, hl, ha, hd⟩ := hs.nested
  refine ⟨_, span?_eq_some hl ha, ?_⟩
  by_contra hle
  have hinside : encloses lines o j := (encloses_iff_le hl ha hd).2 (by omega)
  obtain ⟨-, -, -, -, hpre⟩ := (encloses_iff h hj).1 hinside
  exact hs.closed hpre

/-- The extent of a subproof does not depend on the lines after its end. -/
theorem span?_take (hs : span? lines o = some (o, last)) (hlt : last < j) :
    span? (lines.take j) o = some (o, last) := by
  cases hl : lines[o]? with
  | none => simp [span?, hl] at hs
  | some l =>
    cases ha : l.isAssumption with
    | false => simp [span?, hl, ha] at hs
    | true =>
      rw [span?_eq_some hl ha] at hs
      simp only [Option.some.injEq, Prod.mk.injEq, true_and] at hs
      have ho : o < j := by omega
      rw [span?_eq_some (getElem?_take_eq_some_iff.2 ⟨ho, hl⟩) ha, body, List.drop_take,
        ← List.take_takeWhile, List.length_take, ← body, Nat.min_eq_right (by omega), hs]

end Scope

namespace Document

variable {d : Document} {j : Nat} {l : Line}

/-- A derived line comes from an inference that was accepted by the lines before it. Whatever is
open around a cited line is open at the derived line, and a cited subproof is sealed there. -/
theorem Reachable.derivation (hd : Reachable {true} d) (hl : d.lines[j]? = some l)
    (hrole : l.role = .derivation) :
    ∃ (e : Document) (i : Inference (Fin e.lines.length)) (f : Formula),
      e.lines = d.lines.take j ∧ e.Concludes i f ∧
      l = .derived e.cursor f i.rule (i.cited.map Fin.val) ∧
      (∀ k ∈ i.citedLines, chainAt d.lines k <+: chainAt d.lines j) ∧
      ∀ o ∈ i.citedSubproofs, Sealed d.lines o j := by
  obtain ⟨e, he, hlines, hadds⟩ := hd.line_added hl
  cases hadds with
  | premise f h => cases hrole
  | hypothesis f => cases hrole
  | @derived i f hf =>
    have hwf := he.wellFormed
    have hstrict : e.strict = true := he.strict_mem
    have hchain : chainAt d.lines j = openChain e.lines e.cursor := by
      rw [chainAt_eq_extend hl, ← hlines]
      simp [extend, Line.derived, Line.isAssumption, openChain]
    have hat {k : Nat} (hk : k < e.lines.length) : chainAt e.lines k = chainAt d.lines k := by
      rw [hlines] at hk ⊢
      rw [List.length_take] at hk
      exact chainAt_take (by omega)
    have hlin := hf.lines_inScope
    have hsub := hf.subproofs_inScope
    simp only [linesInScope, subproofsInScope, hstrict, Bool.not_true, Bool.false_or,
      List.all_map, List.all_eq_true, Function.comp] at hlin hsub
    refine ⟨e, i, f, hlines, hf, rfl, ?_, ?_⟩
    · intro k hk
      have := ((isAvailable_iff hwf.nested hwf.cursor_nonneg).1 (hlin k hk)).2
      rwa [hat k.isLt, ← hchain] at this
    · intro o ho
      obtain ⟨m, hm, ha, hdepth, hclosed, hparent⟩ :=
        (isCitable_iff hwf.nested hwf.cursor_nonneg).1 (hsub o ho)
      rw [hat o.isLt, ← hchain] at hclosed hparent
      have hm' : (d.lines.take j)[(o : Nat)]? = some m := hlines ▸ hm
      exact ⟨⟨m, (getElem?_take_eq_some_iff.1 hm').2, ha, hdepth⟩, hclosed, hparent⟩

/-- Citations respect the subproofs of the finished document: every subproof around a cited line is
around the line that cites it; a cited subproof has ended before, where it ended when it was
cited, and every other subproof around it is around the citing line. -/
theorem citations_in_scope (ops : List Operation) {j : Nat} {l : Line}
    (hl : ((empty true).run ops).lines[j]? = some l) (hrole : l.role = .derivation) :
    let lines := ((empty true).run ops).lines
    (∀ c ∈ l.justification.citedLines, ∃ i : Nat, c = i ∧ i < j ∧
      ∀ p, encloses lines p i → encloses lines p j) ∧
    ∀ c ∈ l.justification.citedSubproofs, ∃ o : Nat, c = o ∧
      (∃ h, lines[o]? = some h ∧ h.isAssumption ∧ 0 < h.depth) ∧
      (∃ last, span? lines o = some (o, last) ∧ last < j ∧
        span? (lines.take j) o = some (o, last)) ∧
      ∀ p, p ≠ o → encloses lines p o → encloses lines p j := by
  intro lines
  have hd := reachable_run true ops
  have hnested := hd.wellFormed.nested
  have hj := lt_length_of_getElem? hl
  obtain ⟨e, i, f, hlines, -, rfl, hcited, hsealed⟩ := hd.derivation hl hrole
  have hlen : e.lines.length = j := by
    rw [hlines, List.length_take]
    omega
  constructor
  · intro c hc
    rw [Line.citedLines_derived] at hc
    obtain ⟨k, hk, rfl⟩ := List.mem_map.1 hc
    have hkj : (k : Nat) < j := by omega
    exact ⟨k, rfl, hkj, fun p => encloses_mono hnested (hkj.trans hj) hj (hcited k hk)⟩
  · intro c hc
    rw [Line.citedSubproofs_derived] at hc
    obtain ⟨o, ho, rfl⟩ := List.mem_map.1 hc
    have hs := hsealed o ho
    have hoj : (o : Nat) < j := by omega
    obtain ⟨last, hspan, hlast⟩ := hs.span_lt hnested hj hoj
    exact ⟨o, rfl, hs.nested, ⟨last, hspan, hlast, span?_take hspan hlast⟩,
      fun p hne hp => hs.encloses_of_ne hnested (hoj.trans hj) hj hne hp⟩

/-- A proof by cases inside a subproof, after a line has been deleted and one refused. -/
def nestedCases : List Operation :=
  let a := Formula.atom "A"
  [.assume (.or a a), .suppose (.atom "B"), .suppose a, .infer (.reiterate (.number 1)), .delete,
    .discharge, .infer (.reiterate (.number 2)), .suppose a, .discharge,
    .infer (.orElim (.number 0) (.number 2) (.number 3)), .discharge,
    .infer (.impliesIntro (.number 1))]

theorem citations_in_scope_nestedCases :
    let lines := ((empty true).run nestedCases).lines
    (lines[4]?.map (·.justification.citedSubproofs)) = some [2, 3] ∧
      encloses lines 1 2 ∧ encloses lines 1 4 := by
  have h := citations_in_scope nestedCases (j := 4) (l := .derived 1 (.atom "A")
    (.elimination (.binary .or)) [0, 2, 3]) (by decide) rfl
  obtain ⟨o, ho, -, -, hencloses⟩ := h.2 2 (by decide)
  obtain rfl : o = 2 := by omega
  exact ⟨by decide, by decide, hencloses 1 (by decide) (by decide)⟩

end Document

end NaturalDeduction
