import NaturalDeduction.Proofs.Rules

/-!
# Truth

Formulas are true or false under a valuation of their atoms, by truth tables. Every rule leads
from truths to truths, whatever the scopes of the cited lines are.

## Main definitions

* `Formula.eval`: the truth value of a formula

## Main statements

* `Proof.Derives.eval_true`: what an inference derives is true if the cited lines are true and the
  cited subproofs lead from their hypothesis to their result
-/

namespace NaturalDeduction

def BinOp.eval : BinOp → Bool → Bool → Bool
  | and, a, b => a && b
  | or, a, b => a || b
  | implies, a, b => !a || b
  | iff, a, b => a == b

namespace Formula

variable (v : String → Bool) (f l r : Formula)

/-- The truth value under a valuation of the atoms. -/
def eval (v : String → Bool) : Formula → Bool
  | atom name => v name
  | absurd => false
  | not f => !f.eval v
  | binary op l r => op.eval (l.eval v) (r.eval v)

@[simp] theorem eval_absurd : absurd.eval v = false := rfl

theorem eval_not : (not f).eval v ↔ ¬ f.eval v := by simp [eval]

theorem eval_and : (and l r).eval v ↔ l.eval v ∧ r.eval v := by simp [eval, BinOp.eval]

theorem eval_or : (or l r).eval v ↔ l.eval v ∨ r.eval v := by simp [eval, BinOp.eval]

theorem eval_implies : (implies l r).eval v ↔ (l.eval v → r.eval v) := by
  cases hl : l.eval v <;> simp [eval, BinOp.eval, hl]

theorem eval_iff : (iff l r).eval v ↔ (l.eval v ↔ r.eval v) := by
  cases hl : l.eval v <;> simp [eval, BinOp.eval, hl]

end Formula

open Scope Formula

variable {p : Proof} {i : Inference (Fin p.lines.length)} {f : Formula} {v : String → Bool}

/-- Every rule leads from truths to truths. -/
theorem Proof.Derives.eval_true (h : p.Derives i f)
    (hlines : ∀ k ∈ i.citedLines, (p.lines.get k).formula.eval v)
    (hsubproofs : ∀ o ∈ i.citedSubproofs, ∀ g, result? p.lines o = some g →
      (p.lines.get o).formula.eval v → g.eval v) :
    f.eval v := by
  replace hlines : ∀ k ∈ i.citedLines, p.lines[k].formula.eval v := hlines
  cases h with
  | @reiterate i => exact hlines i (by simp [Inference.citedLines])
  | @andIntro i j =>
    have hi := hlines i (by simp [Inference.citedLines])
    have hj := hlines j (by simp [Inference.citedLines])
    exact (eval_and ..).2 ⟨hi, hj⟩
  | @andElim i l r target hi htarget =>
    have h := hlines i (by simp [Inference.citedLines])
    rw [hi, eval_and] at h
    obtain rfl | rfl := htarget
    · exact h.1
    · exact h.2
  | @orIntro i l r hi =>
    have h := hlines i (by simp [Inference.citedLines])
    rw [eval_or]
    obtain hi | hi := hi
    · exact .inl (hi ▸ h)
    · exact .inr (hi ▸ h)
  | @orElim i j k f hj hk hi hfj hfk =>
    have h := hlines i (by simp [Inference.citedLines])
    rw [hi, eval_or] at h
    obtain h | h := h
    · exact hsubproofs j (by simp [Inference.citedSubproofs]) f hfj h
    · exact hsubproofs k (by simp [Inference.citedSubproofs]) f hfk h
  | @notIntro j hdepth hj =>
    rw [eval_not]
    intro h
    have := hsubproofs j (by simp [Inference.citedSubproofs]) _ hj h
    simp at this
  | @notElim i f hi =>
    have h := hlines i (by simp [Inference.citedLines])
    rwa [hi, eval_not, eval_not, Classical.not_not] at h
  | @impliesIntro j f hdepth hj =>
    rw [eval_implies]
    exact hsubproofs j (by simp [Inference.citedSubproofs]) f hj
  | @impliesElim i j f hi =>
    have h := hlines i (by simp [Inference.citedLines])
    rw [hi, eval_implies] at h
    exact h (hlines j (by simp [Inference.citedLines]))
  | @iffIntro j k hdepthj hdepthk hj hk =>
    rw [eval_iff]
    exact ⟨hsubproofs j (by simp [Inference.citedSubproofs]) _ hj,
      hsubproofs k (by simp [Inference.citedSubproofs]) _ hk⟩
  | @iffElimLeft i j f hi =>
    have h := hlines i (by simp [Inference.citedLines])
    rw [hi, eval_iff] at h
    exact h.1 (hlines j (by simp [Inference.citedLines]))
  | @iffElimRight i j f hi =>
    have h := hlines i (by simp [Inference.citedLines])
    rw [hi, eval_iff] at h
    exact h.2 (hlines j (by simp [Inference.citedLines]))
  | @absurdIntro i j hij =>
    have hi := hlines i (by simp [Inference.citedLines])
    have hj := hlines j (by simp [Inference.citedLines])
    obtain h | h := hij
    · rw [h, eval_not] at hj
      exact absurd hi hj
    · rw [h, eval_not] at hi
      exact absurd hj hi
  | @absurdElim i target hi hdepth =>
    have h := hlines i (by simp [Inference.citedLines])
    rw [hi] at h
    simp at h

end NaturalDeduction
