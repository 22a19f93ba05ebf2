import Mathlib.Logic.Relation
import NaturalDeduction.Proofs.Citation
import NaturalDeduction.Proofs.Truth

/-!
# Soundness

What a strict document derives follows from its premises and from the hypotheses around the
derived line, with one exception. The result of a subproof is the formula on its last line, and
that line may stand in a subproof further inside, which is closed at the same time. Such a result
depends on a hypothesis that nothing discharges: it escapes.

## Main definitions

* `Scope.HypothesesHold`: a valuation makes the hypotheses around a line true
* `Scope.RestsOn`: a line was derived from another one
* `Scope.Escapes`: the result of a cited subproof depends on a hypothesis further inside
* `Scope.returns`: a subproof ends at the depth at which it was opened
* `Proof.IsConclusion`: the line that the conclusion stands on

## Main statements

* `Document.Reachable.eval_true`: a line is true if nothing that it rests on escapes
* `Document.conclusion_true_or_escapes`: the conclusion follows from the premises, unless a result
  escapes on the way to it
* `Document.line_true_of_returns`: every line follows from its hypotheses and the premises if all
  cited subproofs end at the depth at which they were opened
-/

namespace NaturalDeduction

open Scope

namespace Scope

variable {lines : List Line} {v : String → Bool} {i j o p last : Nat} {l m : Line}

/-- The hypotheses of all nested subproofs around a line are true. -/
def HypothesesHold (lines : List Line) (v : String → Bool) (i : Nat) : Prop :=
  ∀ (p : Nat) (l : Line), lines[p]? = some l → encloses lines p i → l.formula.eval v

instance (lines : List Line) (v : String → Bool) (i : Nat) :
    Decidable (HypothesesHold lines v i) :=
  decidable_of_iff (∀ p : Fin lines.length, encloses lines p i → lines[p].formula.eval v)
    ⟨fun h p l hl hp => by
      obtain ⟨hlt, rfl⟩ := List.getElem?_eq_some_iff.1 hl
      exact h ⟨p, hlt⟩ hp,
    fun h p hp => h p lines[p] (List.getElem?_eq_getElem p.isLt) hp⟩

/-- A line rests on the lines that it cites and on the last lines of the subproofs that it
cites. -/
def RestsOn (lines : List Line) (j i : Nat) : Prop :=
  ∃ l, lines[j]? = some l ∧ ((i : Int) ∈ l.justification.citedLines ∨
    ∃ o : Nat, (o : Int) ∈ l.justification.citedSubproofs ∧ span? lines o = some (o, i))

/-- A line cites a subproof whose last line stands further inside, and a valuation makes all
hypotheses around the opener true, but not all around that last line. -/
def Escapes (lines : List Line) (v : String → Bool) (j o : Nat) : Prop :=
  ∃ l opener last m, lines[j]? = some l ∧ (o : Int) ∈ l.justification.citedSubproofs ∧
    lines[o]? = some opener ∧ span? lines o = some (o, last) ∧ lines[last]? = some m ∧
    opener.depth < m.depth ∧ HypothesesHold lines v o ∧ ¬ HypothesesHold lines v last

/-- Whether the subproof opened at a line ends at the same depth. -/
def returns (lines : List Line) (opener : Nat) : Bool :=
  match lines[opener]?, span? lines opener with
  | some l, some (_, last) => (lines[last]?.map (·.depth)) = some l.depth
  | _, _ => false

/-! ## Hypotheses around a line -/

theorem not_escapes_of_returns
    (h : ∀ l ∈ lines, ∀ c ∈ l.justification.citedSubproofs, returns lines c.toNat) :
    ¬ Escapes lines v j o := by
  rintro ⟨l, n, last, m, hl, hcited, hn, hspan, hm, hdeeper, -, -⟩
  have hdepth := h l (List.mem_of_getElem? hl) o hcited
  simp only [returns, Int.toNat_natCast, hn, hspan, hm, Option.map_some, Option.some.injEq,
    decide_eq_true_eq] at hdepth
  omega

theorem result?_take (hspan : span? lines o = some (o, last)) (hlt : last < j) :
    result? (lines.take j) o = lines[last]?.map (·.formula) := by
  simp only [result?, span?_take hspan hlt, List.getElem?_take_of_lt hlt, bind, Option.bind_some,
    pure]
  exact Option.map_eq_bind.symm

/-- The result that a cited subproof had is still the formula of its last line. -/
theorem Sealed.exists_last (h : WellNested lines) (hj : j < lines.length) (hs : Sealed lines o j)
    (hlt : o < j) {g : Formula} (hg : result? (lines.take j) o = some g) :
    ∃ last m, span? lines o = some (o, last) ∧ last < j ∧ lines[last]? = some m ∧
      m.formula = g := by
  obtain ⟨last, hspan, hlast⟩ := hs.span_lt h hj hlt
  rw [result?_take hspan hlast] at hg
  obtain ⟨m, hm, hmg⟩ := Option.map_eq_some_iff.1 hg
  exact ⟨last, m, hspan, hlast, hm, hmg⟩

/-- No hypothesis is around a line of the main proof. -/
theorem hypothesesHold_of_depth_eq_zero (h : WellNested lines) (hl : lines[i]? = some l)
    (hd : l.depth = 0) : HypothesesHold lines v i := by
  intro p m hm hp
  obtain ⟨n, hn, ha, hdepth, hpre⟩ := (encloses_iff h (lt_length_of_getElem? hl)).1 hp
  have hnil : chainAt lines i = [] := by
    have := length_chainAt h hl
    exact List.length_eq_zero_iff.1 (by omega)
  rw [hnil, List.prefix_nil] at hpre
  exact absurd hpre (List.ne_nil_of_mem (mem_chainAt_self hn ha hdepth))

/-- Inside a subproof its own hypothesis is added to what holds outside. -/
theorem Sealed.hypothesesHold (h : WellNested lines) (hj : j < lines.length)
    (hs : Sealed lines o j) (hl : lines[o]? = some l) (htrue : l.formula.eval v)
    (hhyp : HypothesesHold lines v j) : HypothesesHold lines v o := by
  intro p m hm hp
  by_cases hpo : p = o
  · subst hpo
    rw [hl, Option.some.injEq] at hm
    exact hm ▸ htrue
  · exact hhyp p m hm (hs.encloses_of_ne h (lt_length_of_getElem? hl) hj hpo hp)

/-- The last line of a subproof has the same hypotheses as its opener, unless it stands further
inside. -/
theorem HypothesesHold.at_last (h : WellNested lines) (hhyp : HypothesesHold lines v o)
    (hl : lines[o]? = some l) (ha : l.isAssumption) (hd : 0 < l.depth)
    (hspan : span? lines o = some (o, last)) (hm : lines[last]? = some m)
    (hle : ¬ l.depth < m.depth) : HypothesesHold lines v last := by
  have hlast := lt_length_of_getElem? hm
  have hencloses : encloses lines o last := by
    rw [span?_eq_some hl ha, Option.some.injEq, Prod.mk.injEq] at hspan
    exact (encloses_iff_le hl ha hd).2 (by omega)
  obtain ⟨-, -, -, -, hpre⟩ := (encloses_iff h hlast).1 hencloses
  have heq : chainAt lines o = chainAt lines last := by
    have ho := length_chainAt h hl
    have hm' := length_chainAt h hm
    have := hpre.length_le
    exact hpre.eq_of_length (by omega)
  intro p n hn hp
  exact hhyp p n hn (encloses_mono h hlast (lt_length_of_getElem? hl) (heq ▸ List.prefix_refl _) hp)

/-- A cited subproof is entered with its hypothesis true. Either all hypotheses around its last
line are true then or its result escapes. -/
theorem Sealed.hypothesesHold_last_or_escapes (h : WellNested lines) (hl : lines[j]? = some l)
    (hcited : (o : Int) ∈ l.justification.citedSubproofs) (hs : Sealed lines o j)
    (hspan : span? lines o = some (o, last)) (hm : lines[last]? = some m)
    (htrue : ∀ n, lines[o]? = some n → n.formula.eval v) (hhyp : HypothesesHold lines v j) :
    HypothesesHold lines v last ∨ Escapes lines v j o := by
  obtain ⟨n, hn, ha, hd⟩ := hs.nested
  have hopened := hs.hypothesesHold h (lt_length_of_getElem? hl) hn (htrue n hn) hhyp
  by_cases hdeeper : n.depth < m.depth
  · by_cases hlast : HypothesesHold lines v last
    · exact .inl hlast
    · exact .inr ⟨l, n, last, m, hl, hcited, hn, hspan, hm, hdeeper, hopened, hlast⟩
  · exact .inl (hopened.at_last h hn ha hd hspan hm hdeeper)

end Scope

/-! ## Lines and conclusions -/

/-- A line is the last one of the main proof after the premises. -/
def Proof.IsConclusion (p : Proof) (c : Nat) : Prop :=
  p.boundary ≤ c ∧ (∃ l, p.lines[c]? = some l ∧ l.depth = 0) ∧
    ∀ (k : Nat) (m : Line), c < k → p.lines[k]? = some m → m.depth ≠ 0

namespace Document

variable {d : Document} {v : String → Bool} {j : Nat} {l : Line}

theorem WellFormed.mem_premises (hd : d.WellFormed) (hl : d.lines[j]? = some l)
    (hp : l.isPremise) : l ∈ d.premises := by
  have hlt := (hd.isPremise_iff j l hl).1 hp
  obtain ⟨n, hn⟩ := Int.eq_ofNat_of_zero_le hd.boundary_nonneg
  rw [hn] at hlt
  rw [Proof.premises, hn, Position.before_natCast]
  exact List.mem_of_getElem? (getElem?_take_eq_some_iff.2 ⟨by omega, hl⟩)

/-- An assumption is a premise or a hypothesis around itself. -/
theorem WellFormed.eval_true_of_isAssumption (hd : d.WellFormed)
    (hpremises : ∀ m ∈ d.premises, m.formula.eval v) (hl : d.lines[j]? = some l)
    (ha : l.isAssumption) (hhyp : HypothesesHold d.lines v j) : l.formula.eval v := by
  have hnonneg := (hd.nested j l hl).1
  obtain hzero | hpos := hnonneg.eq_or_lt
  · have hpremise : l.isPremise := by simp [Line.isPremise, ha, ← hzero]
    exact hpremises l (hd.mem_premises hl hpremise)
  · have hself : encloses d.lines j j := (encloses_iff_le hl ha hpos).2 ⟨le_rfl, by omega⟩
    exact hhyp j l hl hself

theorem WellFormed.exists_isConclusion (hd : d.WellFormed) {f : Formula}
    (hf : d.conclusion? = some f) :
    ∃ c l, d.IsConclusion c ∧ d.lines[c]? = some l ∧ l.formula = f := by
  obtain ⟨n, hn⟩ := Int.eq_ofNat_of_zero_le hd.boundary_nonneg
  obtain ⟨l, hfind, hl⟩ := Option.map_eq_some_iff.1 hf
  obtain ⟨hdepth, later, earlier, hsplit, hlater⟩ := List.find?_eq_some_iff_append.1 hfind
  rw [Proof.deductions, hn, Position.after_natCast, List.reverse_eq_iff, List.reverse_append,
    List.reverse_cons, List.append_assoc, List.singleton_append] at hsplit
  have hget (k : Nat) : d.lines[n + k]? = (earlier.reverse ++ l :: later.reverse)[k]? := by
    rw [← List.getElem?_drop, hsplit]
  have hline : d.lines[n + earlier.length]? = some l := by simp [hget]
  refine ⟨n + earlier.length, l, ⟨by omega, ⟨l, hline, by simpa using hdepth⟩, ?_⟩, hline, hl⟩
  intro k m hk hm
  obtain ⟨i, rfl⟩ := Nat.exists_eq_add_of_lt hk
  rw [Nat.add_assoc, Nat.add_assoc, hget, List.getElem?_append_right (by simp)] at hm
  have hmem : m ∈ later.reverse := List.mem_of_getElem? (i := i) (by simpa using hm)
  simpa using hlater m (List.mem_reverse.1 hmem)

/-- A line follows from the premises and the hypotheses around it if nothing that it rests on
escapes. -/
theorem Reachable.eval_true (hd : Reachable {true} d)
    (hpremises : ∀ m ∈ d.premises, m.formula.eval v) (hl : d.lines[j]? = some l)
    (hescapes : ∀ k o, Relation.ReflTransGen (RestsOn d.lines) j k → ¬ Escapes d.lines v k o)
    (hhyp : HypothesesHold d.lines v j) : l.formula.eval v := by
  -- A cited line stands before the line that cites it, and so does the last line of a cited
  -- subproof.
  induction j using Nat.strong_induction_on generalizing l with
  | _ j ih =>
    have hwf := hd.wellFormed
    have hj := lt_length_of_getElem? hl
    cases hrole : l.role with
    | assumption =>
      have ha : l.isAssumption := by simp [Line.isAssumption, hrole]
      exact hwf.eval_true_of_isAssumption hpremises hl ha hhyp
    | derivation =>
      obtain ⟨e, i, f, hlines, hf, rfl, hcited, hsealed⟩ := hd.derivation hl hrole
      have hget (k : Fin e.lines.length) : k < j ∧ d.lines[(k : Nat)]? = some (e.lines.get k) := by
        have hk : e.lines[(k : Nat)]? = some (e.lines.get k) := List.getElem?_eq_getElem k.isLt
        rw [← getElem?_take_eq_some_iff, ← hlines, hk]
      have hrests {k : Nat} (hk : RestsOn d.lines j k) (k' o : Nat)
          (hk' : Relation.ReflTransGen (RestsOn d.lines) k k') : ¬ Escapes d.lines v k' o :=
        hescapes k' o (.head hk hk')
      refine hf.derives.eval_true ?_ ?_
      · intro k hk
        obtain ⟨hkj, hline⟩ := hget k
        refine ih k hkj hline (hrests ⟨_, hl, .inl ?_⟩) ?_
        · rw [Line.citedLines_derived]
          exact List.mem_map_of_mem hk
        · intro p m hm hp
          exact hhyp p m hm (encloses_mono hwf.nested (by omega) hj (hcited k hk) hp)
      · intro o ho g hg htrue
        obtain ⟨hoj, hopener⟩ := hget o
        have hs := hsealed o ho
        have hmem : ((o : Nat) : Int) ∈ (Line.derived e.cursor f i.rule
            (i.cited.map Fin.val)).justification.citedSubproofs := by
          rw [Line.citedSubproofs_derived]
          exact List.mem_map_of_mem ho
        have hresult (k : Nat) : result? e.lines k = result? (d.lines.take j) k := by rw [hlines]
        rw [hresult] at hg
        obtain ⟨last, m, hspan, hlast, hm, rfl⟩ := hs.exists_last hwf.nested hj hoj hg
        have hopened (n : Line) (hn : d.lines[(o : Nat)]? = some n) : n.formula.eval v := by
          rw [hopener, Option.some.injEq] at hn
          exact hn ▸ htrue
        obtain hlasthyp | hescape :=
          hs.hypothesesHold_last_or_escapes hwf.nested hl hmem hspan hm hopened hhyp
        · exact ih last hlast hm (hrests ⟨_, hl, .inr ⟨o, hmem, hspan⟩⟩) hlasthyp
        · exact absurd hescape (hescapes j o .refl)

/-- Every line follows from the premises and the hypotheses around it, provided that all subproofs
that are cited end at the depth at which they were opened. -/
theorem line_true_of_returns (ops : List Operation)
    (hreturns : ∀ l ∈ ((empty true).run ops).lines, ∀ c ∈ l.justification.citedSubproofs,
      returns ((empty true).run ops).lines c.toNat)
    {j : Nat} {l : Line} (hl : ((empty true).run ops).lines[j]? = some l) (v : String → Bool)
    (hpremises : ∀ m ∈ ((empty true).run ops).premises, m.formula.eval v)
    (hhyp : HypothesesHold ((empty true).run ops).lines v j) : l.formula.eval v := by
  have hd := reachable_run true ops
  exact hd.eval_true hpremises hl (fun _ _ _ => not_escapes_of_returns hreturns) hhyp

/-- An implication is contraposed: two subproofs, one inside the other. -/
def contraposition : List Operation :=
  let a := Formula.atom "A"
  let b := Formula.atom "B"
  [.assume (.implies a b), .suppose (.not b), .suppose a,
    .infer (.impliesElim (.number 0) (.number 2)), .infer (.reiterate (.number 1)),
    .infer (.absurdIntro (.number 3) (.number 4)), .discharge, .infer (.notIntro (.number 2)),
    .discharge, .infer (.impliesIntro (.number 1))]

theorem line_true_of_returns_contraposition :
    let d := (empty true).run contraposition
    let l := Line.derived 1 (.not (.atom "A")) (.introduction .not) [2]
    (∀ l ∈ d.lines, ∀ c ∈ l.justification.citedSubproofs, returns d.lines c.toNat) ∧
      d.lines[6]? = some l ∧ (∀ m ∈ d.premises, m.formula.eval fun _ => false) ∧
      HypothesesHold d.lines (fun _ => false) 6 ∧ l.formula.eval fun _ => false := by
  intro d l
  have hreturns : ∀ l ∈ d.lines, ∀ c ∈ l.justification.citedSubproofs,
      returns d.lines c.toNat := by decide
  have hl : d.lines[6]? = some l := by decide
  have hpremises : ∀ m ∈ d.premises, m.formula.eval fun _ => false := by decide
  have hhyp : HypothesesHold d.lines (fun _ => false) 6 := by decide
  exact ⟨hreturns, hl, hpremises, hhyp,
    line_true_of_returns contraposition hreturns hl _ hpremises hhyp⟩

/-- The conclusion follows from the premises, unless on the way to it the result of a subproof
escapes. -/
theorem conclusion_true_or_escapes (ops : List Operation) {f : Formula}
    (hf : ((empty true).run ops).conclusion? = some f) (v : String → Bool)
    (hpremises : ∀ m ∈ ((empty true).run ops).premises, m.formula.eval v) :
    f.eval v ∨ ∃ c j o, ((empty true).run ops).IsConclusion c ∧
      Relation.ReflTransGen (RestsOn ((empty true).run ops).lines) c j ∧
      Escapes ((empty true).run ops).lines v j o := by
  have hd := reachable_run true ops
  obtain ⟨c, l, hc, hl, rfl⟩ := hd.wellFormed.exists_isConclusion hf
  by_contra! hnot
  obtain ⟨hfalse, hescapes⟩ := hnot
  obtain ⟨m, hm, hdepth⟩ := hc.2.1
  exact hfalse (hd.eval_true hpremises hl (fun k o => hescapes c k o hc)
    (hypothesesHold_of_depth_eq_zero hd.wellFormed.nested hm hdepth))

theorem conclusion_true_or_escapes_contraposition :
    let d := (empty true).run contraposition
    let f := Formula.implies (.not (.atom "B")) (.not (.atom "A"))
    d.conclusion? = some f ∧ (∀ m ∈ d.premises, m.formula.eval fun _ => false) ∧
      f.eval fun _ => false := by
  intro d f
  have hf : d.conclusion? = some f := by decide
  have hpremises : ∀ m ∈ d.premises, m.formula.eval fun _ => false := by decide
  refine ⟨hf, hpremises, ?_⟩
  obtain htrue | ⟨c, j, o, -, -, hescape⟩ :=
    conclusion_true_or_escapes contraposition hf _ hpremises
  · exact htrue
  · exact absurd hescape (not_escapes_of_returns (by decide))

/-- Both subproofs are closed at once, so the outer one ends with the hypothesis of the inner
one. -/
def nestedHypotheses : List Operation :=
  [.suppose (.atom "A"), .suppose (.atom "B"), .discharge, .discharge,
    .infer (.impliesIntro (.number 0))]

/-- The exception is needed: there are conclusions that do not follow from the premises. -/
theorem not_forall_conclusion_true :
    ¬ ∀ (ops : List Operation) (f : Formula), ((empty true).run ops).conclusion? = some f →
      ∀ v : String → Bool, (∀ m ∈ ((empty true).run ops).premises, m.formula.eval v) →
        f.eval v := by
  intro h
  have htrue := h nestedHypotheses (.implies (.atom "A") (.atom "B")) (by decide) (· == "A")
    (by decide)
  exact absurd htrue (by decide)

end Document

end NaturalDeduction
