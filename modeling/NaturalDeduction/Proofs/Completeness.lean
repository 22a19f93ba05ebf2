import NaturalDeduction.Proofs.Deduction
import NaturalDeduction.Proofs.Spelling

/-!
# Completeness

Whatever follows from some premises can be derived from them in a strict document. The rules are
first lifted from documents to formulas: some formulas settle another one if every document in
which they hold can be continued until the other one holds. Under a valuation the atoms, each of
them affirmed or denied, settle every formula one way or the other; and where a formula is settled
both by an atom and by its negation, the atom is not needed.

## Main definitions

* `Settles`: formulas that settle another one
* `Formula.signed`: a formula or its negation, whichever is true under a valuation

## Main statements

* `Settles.signed`: a valuation of the atoms settles every formula
* `Settles.of_literals`: atoms that are affirmed or denied need not be assumed
* `Settles.of_entails`: formulas settle what follows from them
* `Document.exists_execute_of_entails`: every consequence of some premises is the conclusion of a
  strict document
-/

namespace NaturalDeduction

open Scope Document

/-- Every document in which the formulas of `Γ` hold can be continued until `f` holds. -/
def Settles (Γ : List Formula) (f : Formula) : Prop :=
  ∀ d : Document, d.Orderly → (∀ g ∈ Γ, d.Holds g) → ∃ e, d.Continues e ∧ e.Holds f

namespace Settles

variable {Γ Δ : List Formula} {f g h : Formula} {d e : Document}

theorem of_mem (hf : f ∈ Γ) : Settles Γ f := fun d hd hΓ => ⟨d, .refl hd, hΓ f hf⟩

theorem head : Settles (f :: Γ) f := of_mem List.mem_cons_self

theorem mono (hf : Settles Γ f) (hsub : Γ ⊆ Δ) : Settles Δ f :=
  fun d hd hΔ => hf d hd fun g hg => hΔ g (hsub hg)

/-- An assumption that is not used may be added. -/
theorem cons (hf : Settles Γ f) (g : Formula) : Settles (g :: Γ) f :=
  hf.mono (List.subset_cons_self g Γ)

/-- What is settled may be used. -/
theorem cut (hf : Settles Γ f) (hg : Settles (f :: Γ) g) : Settles Γ g := by
  intro d hd hΓ
  obtain ⟨e, he, hf⟩ := hf d hd hΓ
  have hΓ' : ∀ h ∈ f :: Γ, e.Holds h :=
    List.forall_mem_cons.2 ⟨hf, fun h hh => he.holds hd.wellFormed (hΓ h hh)⟩
  obtain ⟨e', he', hg⟩ := hg e he.orderly hΓ'
  exact ⟨e', he.trans he', hg⟩

/-! ## Rules without subproofs -/

/-- What an inference derives from a line is settled if the formula of the line is. -/
theorem infer_line (hf : Settles Γ f)
    (h : ∀ (d : Document) (k : Fin d.lines.length), (d.lines.get k).formula = f →
      (d.lines.get k).depth ≤ d.cursor →
      ∃ i, d.Derives i g ∧ i.citedLines = [k] ∧ i.citedSubproofs = []) :
    Settles Γ g := by
  intro d hd hΓ
  obtain ⟨e, he, hf⟩ := hf d hd hΓ
  obtain ⟨k, hk, hkf⟩ := hf.exists_index
  obtain ⟨i, hderives, hlines, hsubproofs⟩ := h e k hkf (he.orderly.wellFormed.depth_le_cursor hk)
  have hinfer := he.orderly.infer hderives (by simpa [hlines] using hk) (by simp [hsubproofs])
  exact ⟨_, he.trans hinfer, hinfer.holds_derived⟩

/-- What an inference derives from two lines is settled if the formulas of both lines are. -/
theorem infer_lines (hf : Settles Γ f) (hg : Settles Γ g)
    (h' : ∀ (d : Document) (j k : Fin d.lines.length), (d.lines.get j).formula = f →
      (d.lines.get k).formula = g →
      ∃ i, d.Derives i h ∧ i.citedLines = [j, k] ∧ i.citedSubproofs = []) :
    Settles Γ h := by
  intro d hd hΓ
  obtain ⟨e, he, hf⟩ := hf d hd hΓ
  obtain ⟨e', he', hg⟩ := hg e he.orderly fun g hg => he.holds hd.wellFormed (hΓ g hg)
  obtain ⟨j, hj, hjf⟩ := (he'.holds he.orderly.wellFormed hf).exists_index
  obtain ⟨k, hk, hkg⟩ := hg.exists_index
  obtain ⟨i, hderives, hlines, hsubproofs⟩ := h' e' j k hjf hkg
  have hinfer := he'.orderly.infer hderives (by simpa [hlines] using ⟨hj, hk⟩)
    (by simp [hsubproofs])
  exact ⟨_, (he.trans he').trans hinfer, hinfer.holds_derived⟩

theorem andIntro (hf : Settles Γ f) (hg : Settles Γ g) : Settles Γ (.and f g) := by
  refine hf.infer_lines hg fun _ j k hj hk => ⟨.andIntro j k, ?_, rfl, rfl⟩
  rw [← hj, ← hk]
  exact .andIntro

theorem andLeft (hfg : Settles Γ (.and f g)) : Settles Γ f :=
  hfg.infer_line fun _ k hk _ => ⟨.andElim k f, .andElim hk (.inl rfl), rfl, rfl⟩

theorem andRight (hfg : Settles Γ (.and f g)) : Settles Γ g :=
  hfg.infer_line fun _ k hk _ => ⟨.andElim k g, .andElim hk (.inr rfl), rfl, rfl⟩

theorem orLeft (hf : Settles Γ f) (g : Formula) : Settles Γ (.or f g) :=
  hf.infer_line fun _ k hk _ => ⟨.orIntro k (.or f g), .orIntro (.inl hk), rfl, rfl⟩

theorem orRight (hg : Settles Γ g) (f : Formula) : Settles Γ (.or f g) :=
  hg.infer_line fun _ k hk _ => ⟨.orIntro k (.or f g), .orIntro (.inr hk), rfl, rfl⟩

theorem notElim (hf : Settles Γ (.not (.not f))) : Settles Γ f :=
  hf.infer_line fun _ k hk _ => ⟨.notElim k, .notElim hk, rfl, rfl⟩

theorem impliesElim (hfg : Settles Γ (.implies f g)) (hf : Settles Γ f) : Settles Γ g :=
  hfg.infer_lines hf fun _ j k hj hk =>
    ⟨.impliesElim j k, .impliesElim (hj.trans (hk ▸ rfl)), rfl, rfl⟩

theorem iffForward (hfg : Settles Γ (.iff f g)) (hf : Settles Γ f) : Settles Γ g :=
  hfg.infer_lines hf fun _ j k hj hk =>
    ⟨.iffElim j k, .iffElimLeft (hj.trans (hk ▸ rfl)), rfl, rfl⟩

theorem iffBackward (hfg : Settles Γ (.iff f g)) (hg : Settles Γ g) : Settles Γ f :=
  hfg.infer_lines hg fun _ j k hj hk =>
    ⟨.iffElim j k, .iffElimRight (hj.trans (hk ▸ rfl)), rfl, rfl⟩

theorem absurdIntro (hf : Settles Γ f) (hnot : Settles Γ (.not f)) : Settles Γ .absurd :=
  hf.infer_lines hnot fun _ j k hj hk =>
    ⟨.absurdIntro j k, .absurdIntro (.inl (hk.trans (hj ▸ rfl))), rfl, rfl⟩

theorem absurdElim (habsurd : Settles Γ .absurd) (f : Formula) : Settles Γ f :=
  habsurd.infer_line fun _ k hk hdepth => ⟨.absurdElim k f, .absurdElim hk hdepth, rfl, rfl⟩

/-! ## Rules with subproofs -/

theorem exists_subproof (hg : Settles (f :: Γ) g) (hd : d.Orderly) (hΓ : ∀ h ∈ Γ, d.Holds h) :
    ∃ e, d.Continues e ∧ e.Subproof d.lines.length f g := by
  have hΓ' : ∀ h ∈ f :: Γ, (d.supposing f).Holds h :=
    List.forall_mem_cons.2 ⟨hd.holds_supposing f, fun h hh => (hΓ h hh).supposing hd f⟩
  obtain ⟨e, he, hg⟩ := hg (d.supposing f) (hd.supposing f) hΓ'
  exact hd.subproof he hg

/-- What an inference derives from a subproof is settled if the subproof leads to its result. -/
theorem infer_subproof (hg : Settles (f :: Γ) g)
    (h' : ∀ (d : Document) (o : Fin d.lines.length), d.Subproof o f g →
      ∃ i, d.Derives i h ∧ i.citedLines = [] ∧ i.citedSubproofs = [o]) :
    Settles Γ h := by
  intro d hd hΓ
  obtain ⟨e, he, ho⟩ := hg.exists_subproof hd hΓ
  obtain ⟨i, hderives, hlines, hsubproofs⟩ := h' e ⟨_, ho.lt_length⟩ ho
  have hinfer := he.orderly.infer hderives (by simp [hlines])
    (by simpa [hsubproofs] using ⟨ho.citable, ho.returns⟩)
  exact ⟨_, he.trans hinfer, hinfer.holds_derived⟩

theorem notIntro (hf : Settles (f :: Γ) .absurd) : Settles Γ (.not f) := by
  refine hf.infer_subproof fun d o ho => ⟨.notIntro o, ?_, rfl, rfl⟩
  have hline : d.lines[o] = .hypothesis (d.cursor + 1) f := ho.get_eq
  have hderives := Proof.Derives.notIntro (p := d.toProof) (j := o) (by rw [hline]; rfl)
    ho.result?_eq
  rwa [hline] at hderives

theorem impliesIntro (hg : Settles (f :: Γ) g) : Settles Γ (.implies f g) := by
  refine hg.infer_subproof fun d o ho => ⟨.impliesIntro o, ?_, rfl, rfl⟩
  have hline : d.lines[o] = .hypothesis (d.cursor + 1) f := ho.get_eq
  have hderives := Proof.Derives.impliesIntro (p := d.toProof) (j := o) (by rw [hline]; rfl)
    ho.result?_eq
  rwa [hline] at hderives

theorem exists_subproofs {f' g' : Formula} (hf : Settles (f :: Γ) f') (hg : Settles (g :: Γ) g')
    (hd : d.Orderly) (hΓ : ∀ h ∈ Γ, d.Holds h) :
    ∃ (e : Document) (o o' : Fin e.lines.length), d.Continues e ∧ d.lines.length ≤ o ∧
      d.lines.length ≤ o' ∧ e.Subproof o f f' ∧ e.Subproof o' g g' := by
  obtain ⟨e, he, ho⟩ := hf.exists_subproof hd hΓ
  obtain ⟨e', he', ho'⟩ :=
    hg.exists_subproof he.orderly fun h hh => he.holds hd.wellFormed (hΓ h hh)
  have hle := (prefix_of_advances he.advances hd.wellFormed).2.1.length_le
  replace ho := he'.subproof he.orderly.wellFormed ho
  exact ⟨e', ⟨_, ho.lt_length⟩, ⟨_, ho'.lt_length⟩, he.trans he', le_rfl, hle, ho, ho'⟩

theorem orElim (hfg : Settles Γ (.or f g)) (hf : Settles (f :: Γ) h) (hg : Settles (g :: Γ) h) :
    Settles Γ h := by
  intro d hd hΓ
  obtain ⟨e, he, k, hk⟩ := hfg d hd hΓ
  obtain ⟨e', o, o', he', hle, hle', ho, ho'⟩ :=
    hf.exists_subproofs hg he.orderly fun h hh => he.holds hd.wellFormed (hΓ h hh)
  -- The disjunction stands before both subproofs.
  obtain ⟨l, hl, -⟩ := hk.line
  have hlt := lt_length_of_getElem? hl
  replace hk := he'.holdsAt he.orderly.wellFormed hk
  obtain ⟨i, rfl, hformula⟩ := hk.exists_index
  have hderives : e'.Derives (.orElim i o o') h := by
    have hline : e'.lines[o] = .hypothesis (e'.cursor + 1) f := ho.get_eq
    have hline' : e'.lines[o'] = .hypothesis (e'.cursor + 1) g := ho'.get_eq
    refine .orElim (by omega) (by omega) (hformula.trans ?_) ho.result?_eq ho'.result?_eq
    rw [hline, hline']
    rfl
  have hinfer := he'.orderly.infer hderives
    (by simpa [Inference.citedLines] using hk.available)
    (by simpa [Inference.citedSubproofs] using
      ⟨⟨ho.citable, ho.returns⟩, ho'.citable, ho'.returns⟩)
  exact ⟨_, (he.trans he').trans hinfer, hinfer.holds_derived⟩

theorem iffIntro (hf : Settles (f :: Γ) g) (hg : Settles (g :: Γ) f) : Settles Γ (.iff f g) := by
  intro d hd hΓ
  obtain ⟨e, o, o', he, -, -, ho, ho'⟩ := hf.exists_subproofs hg hd hΓ
  have hline : e.lines[o] = .hypothesis (e.cursor + 1) f := ho.get_eq
  have hline' : e.lines[o'] = .hypothesis (e.cursor + 1) g := ho'.get_eq
  have hderives : e.Derives (.iffIntro o o') (.iff f g) := by
    have hderives := Proof.Derives.iffIntro (p := e.toProof) (j := o) (k := o')
      (by rw [hline]; rfl) (by rw [hline']; rfl) (by rw [hline', ho.result?_eq]; rfl)
      (by rw [hline, ho'.result?_eq]; rfl)
    rwa [hline, hline'] at hderives
  have hinfer := he.orderly.infer hderives (by simp [Inference.citedLines])
    (by simpa [Inference.citedSubproofs] using
      ⟨⟨ho.citable, ho.returns⟩, ho'.citable, ho'.returns⟩)
  exact ⟨_, he.trans hinfer, hinfer.holds_derived⟩

/-! ## Classical reasoning -/

/-- Anything is settled by a contradiction. -/
theorem contradiction (hf : Settles Γ f) (hnot : Settles Γ (.not f)) (g : Formula) : Settles Γ g :=
  (hf.absurdIntro hnot).absurdElim g

/-- A formula is denied if it settles what is denied. -/
theorem refute (hg : Settles (f :: Γ) g) (hnot : Settles Γ (.not g)) : Settles Γ (.not f) :=
  notIntro (hg.absurdIntro (hnot.cons f))

/-- A formula may be affirmed in one case and denied in the other. -/
theorem by_cases (hpos : Settles (f :: Γ) g) (hneg : Settles (.not f :: Γ) g) : Settles Γ g := by
  refine notElim (notIntro ?_)
  have hnot : Settles (.not g :: Γ) (.not f) := by
    refine refute (hpos.mono ?_) head
    simp
  refine hnot.cut ((hneg.mono ?_).absurdIntro (of_mem (by simp)))
  simp

end Settles

/-! ## Formulas under a valuation -/

namespace Formula

variable {v w : String → Bool} {f : Formula}

/-- The formula if it is true, its negation if it is not. -/
def signed (v : String → Bool) (f : Formula) : Formula := if f.eval v then f else not f

theorem signed_of_eval (h : f.eval v) : f.signed v = f := if_pos h

theorem signed_of_not_eval (h : ¬ f.eval v) : f.signed v = not f := if_neg h

theorem signed_atom (v : String → Bool) (name : String) :
    (atom name).signed v = if v name then atom name else not (atom name) := rfl

/-- The atoms, each of them affirmed or denied. -/
def literals (v : String → Bool) (names : List String) : List Formula :=
  names.map fun name => (atom name).signed v

theorem literals_cons (v : String → Bool) (name : String) (names : List String) :
    literals v (name :: names) = (atom name).signed v :: literals v names := rfl

theorem literals_congr {names : List String} (h : ∀ name ∈ names, v name = w name) :
    literals v names = literals w names := by
  refine List.map_congr_left fun name hname => ?_
  rw [signed_atom, signed_atom, h name hname]

end Formula

open Formula

namespace Settles

variable {Γ : List Formula} {f g : Formula} {v : String → Bool}

theorem signed_not (hf : Settles Γ (f.signed v)) : Settles Γ ((Formula.not f).signed v) := by
  by_cases h : f.eval v
  · rw [signed_of_not_eval (by rwa [eval_not, Classical.not_not])]
    rw [signed_of_eval h] at hf
    exact notIntro ((hf.cons _).absurdIntro head)
  · rw [signed_of_eval (by rwa [eval_not])]
    rwa [signed_of_not_eval h] at hf

theorem signed_and (hf : Settles Γ (f.signed v)) (hg : Settles Γ (g.signed v)) :
    Settles Γ ((Formula.and f g).signed v) := by
  by_cases h : (Formula.and f g).eval v
  · rw [signed_of_eval h]
    rw [eval_and] at h
    rw [signed_of_eval h.1] at hf
    rw [signed_of_eval h.2] at hg
    exact hf.andIntro hg
  · rw [signed_of_not_eval h]
    rw [eval_and, not_and_or] at h
    have hself : Settles (.and f g :: Γ) (.and f g) := head
    obtain h | h := h
    · rw [signed_of_not_eval h] at hf
      exact hself.andLeft.refute hf
    · rw [signed_of_not_eval h] at hg
      exact hself.andRight.refute hg

theorem signed_or (hf : Settles Γ (f.signed v)) (hg : Settles Γ (g.signed v)) :
    Settles Γ ((Formula.or f g).signed v) := by
  by_cases h : (Formula.or f g).eval v
  · rw [signed_of_eval h]
    rw [eval_or] at h
    obtain h | h := h
    · rw [signed_of_eval h] at hf
      exact hf.orLeft g
    · rw [signed_of_eval h] at hg
      exact hg.orRight f
  · rw [signed_of_not_eval h]
    rw [eval_or, not_or] at h
    rw [signed_of_not_eval h.1] at hf
    rw [signed_of_not_eval h.2] at hg
    have hself : Settles (.or f g :: Γ) (.or f g) := head
    refine notIntro (hself.orElim ?_ ?_)
    · exact head.absurdIntro ((hf.cons _).cons _)
    · exact head.absurdIntro ((hg.cons _).cons _)

theorem signed_implies (hf : Settles Γ (f.signed v)) (hg : Settles Γ (g.signed v)) :
    Settles Γ ((Formula.implies f g).signed v) := by
  by_cases h : (Formula.implies f g).eval v
  · rw [signed_of_eval h]
    rw [eval_implies, imp_iff_not_or] at h
    obtain h | h := h
    · rw [signed_of_not_eval h] at hf
      exact impliesIntro (head.contradiction (hf.cons f) g)
    · rw [signed_of_eval h] at hg
      exact impliesIntro (hg.cons f)
  · rw [signed_of_not_eval h]
    rw [eval_implies, Classical.not_imp] at h
    rw [signed_of_eval h.1] at hf
    rw [signed_of_not_eval h.2] at hg
    have hself : Settles (.implies f g :: Γ) (.implies f g) := head
    exact (hself.impliesElim (hf.cons _)).refute hg

theorem signed_iff (hf : Settles Γ (f.signed v)) (hg : Settles Γ (g.signed v)) :
    Settles Γ ((Formula.iff f g).signed v) := by
  have hself : Settles (.iff f g :: Γ) (.iff f g) := head
  by_cases hfv : f.eval v <;> by_cases hgv : g.eval v
  · rw [signed_of_eval hfv] at hf
    rw [signed_of_eval hgv] at hg
    rw [signed_of_eval ((eval_iff ..).2 (iff_of_true hfv hgv))]
    exact iffIntro (hg.cons f) (hf.cons g)
  · rw [signed_of_eval hfv] at hf
    rw [signed_of_not_eval hgv] at hg
    rw [signed_of_not_eval fun h => hgv (((eval_iff ..).1 h).1 hfv)]
    exact (hself.iffForward (hf.cons _)).refute hg
  · rw [signed_of_not_eval hfv] at hf
    rw [signed_of_eval hgv] at hg
    rw [signed_of_not_eval fun h => hfv (((eval_iff ..).1 h).2 hgv)]
    exact (hself.iffBackward (hg.cons _)).refute hf
  · rw [signed_of_not_eval hfv] at hf
    rw [signed_of_not_eval hgv] at hg
    rw [signed_of_eval ((eval_iff ..).2 (iff_of_false hfv hgv))]
    exact iffIntro (head.contradiction (hf.cons f) g)
      (head.contradiction (hg.cons g) f)

/-- The atoms of a formula, affirmed or denied, settle the formula one way or the other. -/
theorem signed (f : Formula) (hnames : ∀ name ∈ f.names, Settles Γ ((atom name).signed v)) :
    Settles Γ (f.signed v) := by
  induction f with
  | atom name => exact hnames name List.mem_cons_self
  | absurd => exact notIntro head
  | not f ih => exact (ih hnames).signed_not
  | binary op l r ihl ihr =>
    have hl := ihl fun name hname => hnames name (List.mem_append_left _ hname)
    have hr := ihr fun name hname => hnames name (List.mem_append_right _ hname)
    cases op with
    | and => exact hl.signed_and hr
    | or => exact hl.signed_or hr
    | implies => exact hl.signed_implies hr
    | iff => exact hl.signed_iff hr

/-- What is settled whichever atoms are affirmed or denied is settled without them. -/
theorem of_literals (names : List String) (h : ∀ v, Settles (literals v names ++ Γ) f) :
    Settles Γ f := by
  induction names with
  | nil => exact h fun _ => true
  | cons name names ih =>
    refine ih fun v => ?_
    by_cases hmem : name ∈ names
    · -- The atom is affirmed or denied among the others already.
      have hname : (atom name).signed v ∈ literals v names := List.mem_map_of_mem hmem
      exact (h v).mono (List.cons_subset.2 ⟨List.mem_append_left _ hname, List.Subset.refl _⟩)
    · have hcongr (b : Bool) : literals (Function.update v name b) names = literals v names := by
        refine literals_congr fun other hother => Function.update_of_ne ?_ _ _
        rintro rfl
        exact hmem hother
      have hcase (b : Bool) := h (Function.update v name b)
      simp only [literals_cons, signed_atom, Function.update_self, hcongr] at hcase
      exact by_cases (hcase true) (hcase false)

/-- Formulas settle what follows from them. -/
theorem of_entails (h : ∀ v, (∀ g ∈ Γ, g.eval v) → f.eval v) : Settles Γ f := by
  refine of_literals ((f :: Γ).flatMap names) fun v => ?_
  have hsigned : ∀ g ∈ f :: Γ,
      Settles (literals v ((f :: Γ).flatMap names) ++ Γ) (g.signed v) := by
    refine fun g hg => signed g fun name hname => of_mem (List.mem_append_left _ ?_)
    exact List.mem_map_of_mem (List.mem_flatMap.2 ⟨g, hg, hname⟩)
  by_cases hΓ : ∀ g ∈ Γ, g.eval v
  · have hf := hsigned f List.mem_cons_self
    rwa [signed_of_eval (h v hΓ)] at hf
  · push Not at hΓ
    obtain ⟨g, hg, hfalse⟩ := hΓ
    have hnot := hsigned g (List.mem_cons_of_mem _ hg)
    rw [signed_of_not_eval hfalse] at hnot
    exact (of_mem (List.mem_append_right _ hg)).contradiction hnot f

end Settles

/-! ## Documents -/

namespace Document

variable {d e : Document} {G : List Formula} {f : Formula}

/-- The strict document that consists of premises. -/
def ofPremises (G : List Formula) : Document where
  lines := G.map .premise
  boundary := G.length
  cursor := 0
  strict := true

theorem execute_assume (G : List Formula) :
    (empty true).execute (G.map .assume) = .ok (ofPremises G) := by
  induction G using List.reverseRecOn with
  | nil => rfl
  | append_singleton G f ih =>
    rw [List.map_append, execute_append_eq_ok_iff]
    refine ⟨_, ih, execute_cons_eq_ok_iff.2 ⟨_, .assume f (by simp [ofPremises]), ?_⟩⟩
    simp [ofPremises, append]

theorem orderly_ofPremises (G : List Formula) : (ofPremises G).Orderly := by
  refine ⟨(Reachable.empty (Set.mem_singleton _)).execute (execute_assume G), ?_⟩
  intro j l hl c hc
  obtain ⟨g, -, rfl⟩ := List.mem_map.1 (List.mem_of_getElem? hl)
  cases hc

/-- The premises hold. -/
theorem holds_ofPremises (hf : f ∈ G) : (ofPremises G).Holds f := by
  have hwf := (orderly_ofPremises G).wellFormed
  obtain ⟨k, hk⟩ := List.mem_iff_getElem?.1 hf
  have hl : (ofPremises G).lines[k]? = some (.premise f) := by simp [ofPremises, hk]
  refine ⟨k, (isAvailable_iff hwf.nested le_rfl).2 ⟨lt_length_of_getElem? hl, ?_⟩, _, hl, rfl⟩
  have hchain : chainAt (ofPremises G).lines k = [] := by
    have hlen := length_chainAt hwf.nested hl
    exact List.eq_nil_of_length_eq_zero (by simpa [Line.premise] using hlen)
  rw [hchain]
  exact List.nil_prefix

/-- A run consists of operations that are accepted. -/
theorem exists_execute_of_advances (h : Relation.ReflTransGen Advances d e) :
    ∃ ops : List Operation, (∀ op ∈ ops, op.IsDeductive) ∧ d.execute ops = .ok e := by
  induction h with
  | refl => exact ⟨[], by simp, rfl⟩
  | tail _ h ih =>
    obtain ⟨ops, hops, hexecute⟩ := ih
    obtain ⟨op, hop, hstep⟩ := h
    refine ⟨ops ++ [op], by simpa [or_imp, forall_and] using ⟨hops, hop⟩, ?_⟩
    exact execute_append_eq_ok_iff.2 ⟨_, hexecute, execute_cons_eq_ok_iff.2 ⟨_, hstep, rfl⟩⟩

/-- A deduction in the main proof is the conclusion as long as it is the last line. -/
theorem WellFormed.conclusion?_append (hd : d.WellFormed) {l : Line} (hl : l.depth = 0) :
    (d.append l).conclusion? = some l.formula := by
  obtain ⟨n, hn⟩ := Int.eq_ofNat_of_zero_le hd.boundary_nonneg
  have hle := hd.boundary_le
  have hdeductions : (d.append l).deductions = d.lines.drop n ++ [l] := by
    simp only [Proof.deductions, append, hn, Position.after_natCast]
    exact List.drop_append_of_le_length (by omega)
  simp [Proof.conclusion?, hdeductions, hl]

/-- Every consequence of some premises is the conclusion of a strict document with these premises:
all its operations are accepted, and the subproofs that it cites end at the depth at which they
were opened. -/
theorem exists_execute_of_entails (G : List Formula) (C : Formula)
    (h : ∀ v, (∀ g ∈ G, g.eval v) → C.eval v) :
    ∃ ops d, (empty true).execute ops = .ok d ∧ .delete ∉ ops ∧
      (∀ l ∈ d.lines, ∀ c ∈ l.justification.citedSubproofs, returns d.lines c.toNat) ∧
      d.cursor = 0 ∧ d.premises.map (·.formula) = G ∧ d.conclusion? = some C := by
  have hwf := (orderly_ofPremises G).wellFormed
  obtain ⟨e, hcontinues, hC⟩ :=
    Settles.of_entails h (ofPremises G) (orderly_ofPremises G) fun g hg => holds_ofPremises hg
  obtain ⟨cited, hrepeat⟩ := hcontinues.orderly.reiterate hC
  have hcursor : e.cursor = 0 := hcontinues.cursor_eq hwf
  have hrun := hcontinues.trans hrepeat
  obtain ⟨ops, hops, hexecute⟩ := exists_execute_of_advances hrun.advances
  obtain ⟨-, ⟨ms, hms⟩, hboundary⟩ := prefix_of_advances hrun.advances hwf
  refine ⟨G.map .assume ++ ops, _, execute_append_eq_ok_iff.2 ⟨_, execute_assume G, hexecute⟩, ?_,
    fun l hl c hc => hrun.orderly.returns_of_mem hl hc, hcursor, ?_, ?_⟩
  · intro hdelete
    obtain hassume | hop := List.mem_append.1 hdelete
    · simp at hassume
    · exact hops _ hop
  · rw [Proof.premises, hboundary, ← hms]
    simp [ofPremises, Position.before_natCast, Line.premise, Function.comp_def]
  · exact hcontinues.orderly.wellFormed.conclusion?_append hcursor

/-- One of two alternatives is refuted, so the other one follows. -/
theorem exists_execute_of_entails_disjunctiveSyllogism :
    let G := [Formula.or (.atom "A") (.atom "B"), .not (.atom "A")]
    let C := Formula.atom "B"
    (∀ v, (∀ g ∈ G, g.eval v) → C.eval v) ∧
      ∃ ops d, (empty true).execute ops = .ok d ∧ .delete ∉ ops ∧
        (∀ l ∈ d.lines, ∀ c ∈ l.justification.citedSubproofs, returns d.lines c.toNat) ∧
        d.cursor = 0 ∧ d.premises.map (·.formula) = G ∧ d.conclusion? = some C := by
  intro G C
  have h : ∀ v, (∀ g ∈ G, g.eval v) → C.eval v := by
    intro v hG
    have hor := (eval_or ..).1 (hG (.or (.atom "A") (.atom "B")) (by simp [G]))
    have hnot := (eval_not ..).1 (hG (.not (.atom "A")) (by simp [G]))
    exact hor.resolve_left hnot
  exact ⟨h, exists_execute_of_entails G C h⟩

end Document

end NaturalDeduction
