import Mathlib.Data.List.Basic
import NaturalDeduction.Proofs.Construction

/-!
# Well-formed documents

The depths of the lines of a document, its cursor and its boundary are changed by different
operations. They nevertheless stay in step: a line is never deeper than the one before it, a
hypothesis by one at most, the next line is never deeper than the last one, and the premises come
first.

## Main definitions

* `Scope.level`: the depth reached at the end of some lines
* `Scope.WellNested`: each line stands at a depth that the lines before it allow
* `Document.WellFormed`: depths, cursor and boundary are in step
* `Document.Regular`: a well-formed document in which every line is justified as its kind demands

## Main statements

* `Document.Step.wellFormed`: every operation keeps a document well-formed
* `Document.Reachable.wellFormed`: every document that can be constructed is well-formed
* `Document.regular_revise`: every document that can be constructed is regular
-/

namespace NaturalDeduction

/-- A premise: an assumption of the main proof. -/
def Line.isPremise (l : Line) : Bool := l.isAssumption && l.depth = 0

/-- Whether a line may follow one of the given depth. -/
def Line.Fits (l : Line) (level : Int) : Prop :=
  0 ≤ l.depth ∧ l.depth ≤ level + if l.isAssumption then 1 else 0

/-- An inference never makes an assumption. -/
theorem Inference.rule_ne {ι : Type} (i : Inference ι) :
    i.rule ≠ .premise ∧ i.rule ≠ .hypothesis := by
  cases i <;> simp [rule]

namespace Scope

/-- The depth of the last line, which is zero if there is none. -/
def level (lines : List Line) : Int := (lines.getLast?.map (·.depth)).getD 0

@[simp] theorem level_nil : level [] = 0 := rfl

@[simp] theorem level_concat (lines : List Line) (l : Line) : level (lines ++ [l]) = l.depth := by
  simp [level]

/-- Each line fits to the one before it. -/
def WellNested (lines : List Line) : Prop :=
  ∀ (i : Nat) (l : Line), lines[i]? = some l → l.Fits (level (lines.take i))

theorem wellNested_nil : WellNested [] := by simp [WellNested]

theorem WellNested.concat {lines : List Line} {l : Line} (h : WellNested lines)
    (hl : l.Fits (level lines)) : WellNested (lines ++ [l]) := by
  intro i m hm
  obtain hm | ⟨rfl, rfl⟩ := getElem?_concat_eq_some_iff.1 hm
  · rw [List.take_append_of_le_length (lt_length_of_getElem? hm).le]
    exact h i m hm
  · simpa using hl

theorem WellNested.take {lines : List Line} (h : WellNested lines) (k : Nat) :
    WellNested (lines.take k) := by
  intro i l hl
  obtain ⟨hi, hl⟩ := getElem?_take_eq_some_iff.1 hl
  rw [List.take_take, Nat.min_eq_left hi.le]
  exact h i l hl

theorem WellNested.level_nonneg {lines : List Line} (h : WellNested lines) : 0 ≤ level lines := by
  rcases List.eq_nil_or_concat' lines with rfl | ⟨ls, l, rfl⟩
  · exact le_rfl
  · rw [level_concat]
    exact (h ls.length l (by simp)).1

end Scope

namespace Document

open Scope

variable {d d' : Document} {op : Operation} {modes : Set Bool}

/-- Depths, cursor and boundary are in step. -/
structure WellFormed (d : Document) : Prop where
  nested : WellNested d.lines
  cursor_nonneg : 0 ≤ d.cursor
  cursor_le : d.cursor ≤ level d.lines
  boundary_nonneg : 0 ≤ d.boundary
  boundary_le : d.boundary ≤ d.lines.length
  /-- The premises are the lines before the boundary. -/
  isPremise_iff : ∀ (i : Nat) (l : Line), d.lines[i]? = some l →
    (l.isPremise ↔ (i : Int) < d.boundary)

theorem wellFormed_empty (strict : Bool) : (empty strict).WellFormed where
  nested := wellNested_nil
  cursor_nonneg := le_rfl
  cursor_le := le_rfl
  boundary_nonneg := le_rfl
  boundary_le := le_rfl
  isPremise_iff := by simp [empty, Proof.empty]

namespace WellFormed

/-- As long as there are only premises, no subproof is open. -/
theorem level_eq_zero (hd : d.WellFormed) (h : (d.lines.length : Int) ≤ d.boundary) :
    level d.lines = 0 := by
  rcases List.eq_nil_or_concat' d.lines with hl | ⟨ls, l, hl⟩
  · rw [hl, level_nil]
  · have hp := (hd.isPremise_iff ls.length l (by simp [hl])).2 (by simp [hl] at h; omega)
    rw [hl, level_concat]
    simp only [Line.isPremise, Bool.and_eq_true, decide_eq_true_eq] at hp
    exact hp.2

theorem cursor_eq_zero (hd : d.WellFormed) (h : (d.lines.length : Int) ≤ d.boundary) :
    d.cursor = 0 :=
  le_antisymm (hd.level_eq_zero h ▸ hd.cursor_le) hd.cursor_nonneg

/-- A line that is no premise may be added if it fits. -/
theorem concat (hd : d.WellFormed) {l : Line} (hl : l.Fits (level d.lines))
    (hp : l.isPremise = false) :
    WellFormed { d.append l with cursor := l.depth } where
  nested := hd.nested.concat hl
  cursor_nonneg := hl.1
  cursor_le := (level_concat d.lines l).ge
  boundary_nonneg := hd.boundary_nonneg
  boundary_le := by
    have := hd.boundary_le
    simp only [append, List.length_append, List.length_singleton]
    omega
  isPremise_iff i m hm := by
    obtain hm | ⟨rfl, rfl⟩ := getElem?_concat_eq_some_iff.1 hm
    · exact hd.isPremise_iff i m hm
    · have := hd.boundary_le
      simpa [hp, append] using this

/-- A premise may be added as long as there is nothing else. -/
theorem concat_premise (hd : d.WellFormed) (h : (d.lines.length : Int) ≤ d.boundary)
    (f : Formula) :
    WellFormed { d.append (.premise f) with boundary := d.boundary + 1 } where
  nested := hd.nested.concat ⟨le_rfl, by simp [hd.level_eq_zero h, Line.premise, Line.isAssumption]⟩
  cursor_nonneg := hd.cursor_nonneg
  cursor_le := (hd.cursor_eq_zero h).le.trans (level_concat d.lines (.premise f)).ge
  boundary_nonneg := by
    have := hd.boundary_nonneg
    simp only
    omega
  boundary_le := by
    have := hd.boundary_le
    simp only [append, List.length_append, List.length_singleton]
    omega
  isPremise_iff i m hm := by
    simp only
    obtain hm | ⟨rfl, rfl⟩ := getElem?_concat_eq_some_iff.1 hm
    · have hi := lt_length_of_getElem? hm
      rw [hd.isPremise_iff i m hm]
      omega
    · simp only [Line.isPremise, Line.premise, Line.isAssumption, decide_true, Bool.and_true,
        true_iff]
      omega

theorem dropLast (hd : d.WellFormed) : d.dropLast.WellFormed where
  nested := by
    rw [Document.dropLast, List.dropLast_eq_take]
    exact hd.nested.take _
  cursor_nonneg := by
    simpa [Document.dropLast, level, List.dropLast_eq_take]
      using (hd.nested.take (d.lines.length - 1)).level_nonneg
  cursor_le := le_rfl
  boundary_nonneg := by
    have := hd.boundary_nonneg
    simp only [Document.dropLast]
    omega
  boundary_le := Int.min_le_right _ _
  isPremise_iff i l hl := by
    simp only [Document.dropLast, List.dropLast_eq_take, getElem?_take_eq_some_iff] at hl
    rw [hd.isPremise_iff i l hl.2]
    simp only [Document.dropLast, List.length_dropLast]
    omega

end WellFormed

theorem Step.wellFormed (h : d.Step op d') (hd : d.WellFormed) : d'.WellFormed := by
  have hle := hd.cursor_le
  have hge := hd.cursor_nonneg
  cases h with
  | assume f h => exact hd.concat_premise h f
  | suppose f =>
    refine hd.concat (l := .hypothesis (d.cursor + 1) f) ⟨?_, ?_⟩ ?_
    · simp only [Line.hypothesis]
      omega
    · simpa [Line.hypothesis, Line.isAssumption] using hle
    · have : d.cursor + 1 ≠ 0 := by omega
      simp [Line.isPremise, Line.hypothesis, this]
  | discharge h =>
    exact { hd with
      cursor_nonneg := by simp only; omega
      cursor_le := by simp only; omega }
  | delete h => exact hd.dropLast
  | @infer i j f hj hf =>
    refine hd.concat (l := .derived d.cursor f j.rule (j.cited.map Fin.val)) ⟨hge, ?_⟩ rfl
    simpa [Line.derived, Line.isAssumption] using hle

theorem Reachable.wellFormed (hd : Reachable modes d) : d.WellFormed := by
  induction hd with
  | empty h => exact wellFormed_empty _
  | step _ h ih => exact h.wellFormed ih
  | setStrict _ _ ih => exact { ih with }

/-! ## How the lines are justified -/

/-- A line is a premise, a hypothesis, or derived from lines before it. -/
theorem Reachable.line_cases (hd : Reachable modes d) {i : Nat} {l : Line}
    (hl : d.lines[i]? = some l) :
    (∃ f, l = .premise f) ∨ (∃ depth f, 0 < depth ∧ l = .hypothesis depth f) ∨
      ∃ depth f rule cited, l = .derived depth f rule cited ∧ rule ≠ .premise ∧
        rule ≠ .hypothesis ∧ ∀ k ∈ cited, k < i := by
  obtain ⟨e, he, hlines, hadds⟩ := hd.line_added hl
  cases hadds with
  | premise f h => exact .inl ⟨f, rfl⟩
  | hypothesis f =>
    have := he.wellFormed.cursor_nonneg
    exact .inr (.inl ⟨_, f, by omega, rfl⟩)
  | @derived j f h =>
    refine .inr (.inr ⟨_, f, _, _, rfl, j.rule_ne.1, j.rule_ne.2, ?_⟩)
    intro k hk
    obtain ⟨c, -, rfl⟩ := List.mem_map.1 hk
    have := congrArg List.length hlines
    rw [List.length_take] at this
    omega

/-- How the lines, the boundary and the cursor of a document belong together. -/
structure Regular (d : Document) : Prop where
  boundary_nonneg : 0 ≤ d.boundary
  boundary_le : d.boundary ≤ d.lines.length
  /-- The lines before the boundary are the assumptions of the main proof. -/
  lt_boundary_iff : ∀ (i : Nat) (l : Line), d.lines[i]? = some l →
    ((i : Int) < d.boundary ↔ l.role = .assumption ∧ l.depth = 0)
  /-- They are premises. -/
  premise : ∀ (i : Nat) (l : Line), d.lines[i]? = some l → (i : Int) < d.boundary →
    l.justification = ⟨.premise, []⟩
  /-- All other lines are hypotheses of subproofs or derived by a rule. -/
  deduction : ∀ (i : Nat) (l : Line), d.lines[i]? = some l → d.boundary ≤ i →
    (l.role = .assumption ∧ 1 ≤ l.depth ∧ l.justification = ⟨.hypothesis, []⟩) ∨
      (l.role = .derivation ∧ 0 ≤ l.depth ∧ l.justification.rule ≠ .premise ∧
        l.justification.rule ≠ .hypothesis)
  /-- Only earlier lines are cited. -/
  cited_lt : ∀ (i : Nat) (l : Line), d.lines[i]? = some l →
    ∀ c ∈ l.justification.cited, ∃ k : Nat, c = k ∧ k < i
  derivation_depth_le : ∀ (i : Nat) (l : Line), d.lines[i]? = some l → l.role = .derivation →
    l.depth ≤ level (d.lines.take i)
  hypothesis_depth_le : ∀ (i : Nat) (l : Line), d.lines[i]? = some l →
    l.justification.rule = .hypothesis → l.depth ≤ level (d.lines.take i) + 1
  cursor_nonneg : 0 ≤ d.cursor
  cursor_le : d.cursor ≤ level d.lines

theorem regular_revise (strict : Bool) (es : List Edit) :
    ((empty strict).revise es).Regular := by
  have hd := reachable_revise strict es
  have hwf := hd.wellFormed
  refine { hwf with
    lt_boundary_iff := ?_
    premise := ?_
    deduction := ?_
    cited_lt := ?_
    derivation_depth_le := ?_
    hypothesis_depth_le := ?_ }
  · intro i l hl
    rw [← hwf.isPremise_iff i l hl]
    simp [Line.isPremise, Line.isAssumption]
  · intro i l hl hi
    have hp := (hwf.isPremise_iff i l hl).2 hi
    obtain ⟨f, rfl⟩ | ⟨depth, f, hpos, rfl⟩ | ⟨depth, f, rule, cited, rfl, -⟩ := hd.line_cases hl
    · rfl
    · simp [Line.isPremise, Line.hypothesis, hpos.ne'] at hp
    · simp [Line.isPremise, Line.derived, Line.isAssumption] at hp
  · intro i l hl hi
    have hp := mt (hwf.isPremise_iff i l hl).1 (by omega)
    have hge := (hwf.nested i l hl).1
    obtain ⟨f, rfl⟩ | ⟨depth, f, hpos, rfl⟩ | ⟨depth, f, rule, cited, rfl, hrule, hrule', -⟩ :=
      hd.line_cases hl
    · simp [Line.isPremise, Line.premise, Line.isAssumption] at hp
    · exact .inl ⟨rfl, hpos, rfl⟩
    · exact .inr ⟨rfl, hge, hrule, hrule'⟩
  · intro i l hl c hc
    obtain ⟨f, rfl⟩ | ⟨depth, f, -, rfl⟩ | ⟨depth, f, rule, cited, rfl, -, -, hlt⟩ :=
      hd.line_cases hl
    · cases hc
    · cases hc
    · obtain ⟨k, hk, rfl⟩ := List.mem_map.1 hc
      exact ⟨k, rfl, hlt k hk⟩
  · intro i l hl hrole
    simpa [Line.isAssumption, hrole] using (hwf.nested i l hl).2
  · intro i l hl _
    have hle := (hwf.nested i l hl).2
    split at hle <;> omega

end Document

end NaturalDeduction
