import NaturalDeduction.Proofs.Nesting
import NaturalDeduction.Proofs.Strictness
import NaturalDeduction.Proofs.Substitution

/-!
# Accepted inferences

An inference is given citations that need not name lines, and the formula on which a cited
subproof ends is found by a search. Here both are described without a search: an inference is
accepted exactly if its citations are the numbers of lines, the table of the rules lets it derive
something from these lines and, in a strict document, they are in scope. Then what the table says
is added as one line.

## Main definitions

* `Inference.numbered`: an inference that cites lines by their numbers
* `Scope.ResultOf`: the formula on which a subproof ends

## Main statements

* `Inference.traverse_resolve?_eq_some_iff`: citations that can be resolved are numbers of lines
* `Scope.result?_eq_some_iff`: what is found as the result of a subproof
* `Document.step_infer_iff`: when an inference is accepted, and what it adds
* `Document.apply_infer_iff_derives`: a lax document follows the table and nothing else
-/

namespace NaturalDeduction

/-! ## Citations -/

namespace Inference

variable {ι κ : Type} {n : Nat} {i : Inference ι} {j : Inference κ}

/-- Citations can all be replaced exactly if the inference arises from the replacements by putting
the citations back. -/
theorem traverse_eq_some_iff {f : ι → Option κ} {g : κ → ι}
    (hfg : ∀ c k, f c = some k ↔ c = g k) : i.traverse f = some j ↔ i = j.map g id := by
  constructor
  · intro h
    cases i <;> simp only [traverse, bind, pure, Option.bind_eq_some_iff, hfg,
      Option.some.injEq] at h <;> grind [map]
  · rintro rfl
    have hg (k : κ) : f (g k) = some k := (hfg _ _).2 rfl
    cases j <;> simp [map, traverse, hg]

/-- The inference that cites lines by their numbers. -/
def numbered (j : Inference (Fin n)) : Inference LineRef := j.map (fun k => .number k.val) id

theorem traverse_resolve?_eq_some_iff {i : Inference LineRef} {j : Inference (Fin n)} :
    i.traverse (LineRef.resolve? n) = some j ↔ i = j.numbered :=
  traverse_eq_some_iff fun _ _ => LineRef.resolve?_eq_some_iff

end Inference

/-! ## Results of subproofs -/

theorem Line.closes_iff_role {l : Line} {depth : Int} :
    l.closes depth ↔ l.role = .assumption ∧ l.depth ≤ depth ∨ l.depth < depth := by
  simp [closes_iff, isAssumption, or_comm]

namespace Scope

variable {lines : List Line} {o : Nat} {f : Formula}

/-- The formula on which a subproof ends. The subproof is opened by an assumption and goes on up to
the first later line that is an assumption of at most its depth or less deep. -/
inductive ResultOf (lines : List Line) (o : Nat) : Formula → Prop
  | intro {l m : Line} {last : Nat} (hl : lines[o]? = some l) (hrole : l.role = .assumption)
      (hle : o ≤ last) (hm : lines[last]? = some m)
      (hinside : ∀ k n, o < k → k ≤ last → lines[k]? = some n →
        ¬ (n.role = .assumption ∧ n.depth ≤ l.depth ∨ n.depth < l.depth))
      (hend : ∀ n, lines[last + 1]? = some n →
        n.role = .assumption ∧ n.depth ≤ l.depth ∨ n.depth < l.depth) :
      ResultOf lines o m.formula

theorem result?_eq_some_iff : result? lines o = some f ↔ ResultOf lines o f := by
  constructor
  · intro h
    simp only [result?, bind, pure, Option.bind_eq_some_iff, Option.some.injEq] at h
    obtain ⟨⟨first, last⟩, hspan, m, hm, rfl⟩ := h
    obtain ⟨rfl, l, hl, ha, hreaches⟩ := span?_eq_some_iff.1 hspan
    refine .intro hl (of_decide_eq_true ha) hreaches.le hm ?_ ?_
    · intro k n hok hk hn hcloses
      simpa [hreaches.inside k n hok hk hn] using Line.closes_iff_role.2 hcloses
    · intro n hn
      exact Line.closes_iff_role.1 (hreaches.ends.closes n hn)
  · rintro ⟨hl, hrole, hle, hm, hinside, hend⟩
    have hreaches : Reaches lines o _ _ :=
      { le := hle
        inside := fun k n hok hk hn =>
          Bool.eq_false_iff.2 (mt Line.closes_iff_role.1 (hinside k n hok hk hn))
        ends := ⟨lt_length_of_getElem? hm, fun n hn => Line.closes_iff_role.2 (hend n hn)⟩ }
    have hspan := span?_eq_some_iff.2 ⟨rfl, _, hl, decide_eq_true hrole, hreaches⟩
    simp [result?, hspan, hm]

end Scope

/-! ## Inferences -/

namespace Document

open Scope

variable {d e : Document} {i : Inference LineRef}

/-- Whether an inference may be carried out, and what it adds. -/
theorem step_infer_iff :
    d.Step (.infer i) e ↔ (d.strict = true → d.InScope (.infer i)) ∧
      ∃ (j : Inference (Fin d.lines.length)) (f : Formula), i = j.numbered ∧ d.Derives j f ∧
        e = d.append (.derived d.cursor f j.rule (j.cited.map Fin.val)) := by
  constructor
  · intro h
    refine ⟨h.inScope, ?_⟩
    cases h with
    | @infer _ j f hj hf =>
      exact ⟨j, f, Inference.traverse_resolve?_eq_some_iff.1 hj, hf.derives, rfl⟩
  · rintro ⟨hscope, j, f, hi, hf, rfl⟩
    have hj := Inference.traverse_resolve?_eq_some_iff.2 hi
    cases hstrict : d.strict with
    | true =>
      have hscope := (inScope_infer_iff hstrict hj).1 (hscope hstrict)
      exact .infer hj ⟨hscope.1, hscope.2, hf⟩
    | false =>
      refine .infer hj ⟨?_, ?_, hf⟩ <;> simp [linesInScope, subproofsInScope, hstrict]

/-- A lax document accepts an inference exactly if its citations are the numbers of lines and the
table of the rules lets it derive something from them, which is then added as one line. Where the
table asks for the result of a subproof, this is the formula on the last line of the subproof. -/
theorem apply_infer_iff_derives (d : Document) (hlax : d.strict = false) :
    (∀ (i : Inference LineRef) (e : Document), d.apply (.infer i) = .ok e ↔
      ∃ (j : Inference (Fin d.lines.length)) (f : Formula), i = j.numbered ∧ d.Derives j f ∧
        e = d.append (.derived d.cursor f j.rule (j.cited.map Fin.val))) ∧
    ∀ (o : Nat) (f : Formula), result? d.lines o = some f ↔ ResultOf d.lines o f := by
  refine ⟨fun i e => ?_, fun o f => result?_eq_some_iff⟩
  rw [apply_eq_ok_iff, step_infer_iff]
  simp [hlax]

/-- One subproof serves for both cases of a disjunction. -/
theorem apply_infer_iff_derives_sameCase :
    let a := Formula.atom "A"
    let d := (empty false).run
      [.assume (.or a a), .suppose a, .infer (.reiterate (.number 1)), .discharge]
    d.strict = false ∧ ResultOf d.lines 1 a ∧
      d.apply (.infer (.orElim (.number 0) (.number 1) (.number 1))) =
        .ok (d.append (.derived 0 a (.elimination (.binary .or)) [0, 1, 1])) := by
  intro a d
  obtain ⟨hiff, hresult⟩ := apply_infer_iff_derives d rfl
  have hfound : result? d.lines 1 = some a := by decide
  have hlt : (0 : Fin 3) < 1 := by decide
  have hderives : d.Derives (.orElim (0 : Fin 3) (1 : Fin 3) (1 : Fin 3)) a :=
    .orElim hlt hlt rfl hfound hfound
  exact ⟨rfl, (hresult 1 a).1 hfound, (hiff _ _).2 ⟨_, a, rfl, hderives, rfl⟩⟩

end Document

end NaturalDeduction
