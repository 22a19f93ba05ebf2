import NaturalDeduction.Proofs.Replay
import NaturalDeduction.Proofs.Soundness
import NaturalDeduction.Proofs.Tracking

/-!
# Deductions

How a strict document can be continued by subproofs and inferences. A continuation comes back to
the subproofs that were open at its start, so that everything that could be cited before it can be
cited after it, and more: what has been derived in the meantime, and the subproofs that have been
closed.

## Main definitions

* `Document.Orderly`: a strict document in which cited subproofs end at their own depth
* `Document.Advances`: one more operation, which is neither a premise nor a deletion
* `Document.Continues`: a document is continued until the same subproofs are open again
* `Document.Holds`: a formula stands on a line that may be cited
* `Document.Subproof`: a closed subproof that may be cited

## Main statements

* `Document.Advances.closed`: a closed subproof stays closed and keeps its extent
* `Document.Continues.holds`, `Document.Continues.subproof`: what may be cited may still be cited
  after a continuation
* `Document.Orderly.infer`: a document is continued by an inference
* `Document.Orderly.subproof`: a document is continued by a subproof
-/

namespace NaturalDeduction

open Scope

/-- The operations that go on with a proof: all but premises and deletions. -/
def Operation.IsDeductive : Operation → Prop
  | suppose _ | discharge | infer _ => True
  | assume _ | delete => False

/-- Whether a subproof returns to its depth does not depend on the lines after its end. -/
theorem Scope.returns_take {lines : List Line} {o j last : Nat}
    (hspan : span? lines o = some (o, last)) (hoj : o < j) (hlast : last < j) :
    returns (lines.take j) o = returns lines o := by
  cases h : lines[o]? <;>
    simp [returns, span?_take hspan hlast, hspan, List.getElem?_take_of_lt hoj,
      List.getElem?_take_of_lt hlast, h]

/-- A subproof around the last line ends with it. -/
theorem Scope.span?_eq_last {ls : List Line} {l m : Line} {o : Nat} (h : WellNested (ls ++ [m]))
    (hl : (ls ++ [m])[o]? = some l) (ha : l.isAssumption) (hd : 0 < l.depth)
    (hpre : chainAt (ls ++ [m]) o <+: chainAt (ls ++ [m]) ls.length) :
    span? (ls ++ [m]) o = some (o, ls.length) := by
  have hlast : encloses (ls ++ [m]) o ls.length :=
    (encloses_iff h (by simp)).2 ⟨l, hl, ha, hd, hpre⟩
  have hge := (encloses_iff_le hl ha hd).1 hlast
  have hlt := lt_length_of_getElem? hl
  have hle : (body (ls ++ [m]) o l.depth).length ≤ ((ls ++ [m]).drop (o + 1)).length :=
    (List.takeWhile_sublist _).length_le
  simp only [List.length_drop, List.length_append, List.length_singleton] at hle hlt
  rw [span?_eq_some hl ha]
  congr 2
  omega

namespace Document

variable {d e e' : Document} {op : Operation} {f g : Formula} {l m : Line} {o k : Nat}

/-- The chain of the next line. -/
def nextChain (d : Document) : List Nat := openChain d.lines d.cursor

/-! ## Steps and the chain of the next line -/

theorem WellFormed.length_nextChain (hd : d.WellFormed) :
    (d.nextChain.length : Int) = d.cursor := by
  have hlen := length_chain hd.nested
  have hle := hd.cursor_le
  have hge := hd.cursor_nonneg
  rw [nextChain, openChain, List.length_take]
  omega

/-- The chain of the next line changes as a stack of open subproofs does. -/
theorem Step.nextChain_eq (h : d.Step op e) (hd : d.WellFormed) :
    e.nextChain = (Tracked.accept ⟨d, d.nextChain, chains d.lines⟩ e op).stack := by
  have hfaithful : Tracked.Faithful ⟨d, d.nextChain, chains d.lines⟩ := ⟨hd, rfl, rfl⟩
  have hstack := (hfaithful.accept h).stack_eq
  rw [Tracked.document_accept] at hstack
  exact hstack.symm

/-- One more operation, which is neither a premise nor a deletion. -/
def Advances (d e : Document) : Prop := ∃ op : Operation, op.IsDeductive ∧ d.Step op e

/-- The chain of a new line is that of the next one, if it stands at the same depth. -/
theorem WellFormed.chainAt_length (he : e.WellFormed) {ls : List Line}
    (hlines : e.lines = ls ++ [m]) (hcursor : e.cursor = m.depth) :
    chainAt e.lines ls.length = e.nextChain := by
  have hlevel : e.cursor = level e.lines := by rw [hlines, level_concat, hcursor]
  rw [nextChain, hlevel, openChain_level he.nested, chainAt,
    List.take_of_length_le (by simp [hlines])]

/-- A new line stands in the subproofs that are open behind it; at most one of them is new. -/
theorem Advances.lines_cases (h : d.Advances e) (hd : d.WellFormed) :
    e.lines = d.lines ∧ e.nextChain <+: d.nextChain ∨
      ∃ m, e.lines = d.lines ++ [m] ∧ chainAt e.lines d.lines.length = e.nextChain ∧
        e.nextChain <+: d.nextChain ++ [d.lines.length] := by
  obtain ⟨op, hop, h⟩ := h
  have hchain := h.nextChain_eq hd
  have hwf := h.wellFormed hd
  cases h with
  | assume f h => cases hop
  | delete h => cases hop
  | discharge h =>
    rw [hchain]
    exact .inl ⟨rfl, List.dropLast_prefix _⟩
  | suppose f =>
    refine .inr ⟨_, rfl, hwf.chainAt_length rfl rfl, ?_⟩
    rw [hchain]
    exact List.prefix_refl _
  | infer hj hf =>
    refine .inr ⟨_, rfl, hwf.chainAt_length rfl rfl, ?_⟩
    rw [hchain]
    exact List.prefix_append _ _

theorem Advances.wellFormed (h : d.Advances e) (hd : d.WellFormed) : e.WellFormed :=
  h.elim fun _ h => h.2.wellFormed hd

theorem Advances.lines_prefix (h : d.Advances e) (hd : d.WellFormed) : d.lines <+: e.lines := by
  obtain ⟨heq, -⟩ | ⟨m, heq, -, -⟩ := h.lines_cases hd
  · exact heq ▸ List.prefix_refl _
  · exact heq ▸ List.prefix_append _ _

theorem Advances.boundary_eq (h : d.Advances e) : e.boundary = d.boundary := by
  obtain ⟨op, hop, h⟩ := h
  cases h with
  | assume f h => cases hop
  | delete h => cases hop
  | _ => rfl

/-! ## Closed subproofs -/

/-- The subproof opened at a line is nested and closed. -/
structure Closed (d : Document) (o : Nat) : Prop where
  nested : ∃ l, d.lines[o]? = some l ∧ l.isAssumption ∧ 0 < l.depth
  closed : ¬ chainAt d.lines o <+: d.nextChain

theorem Closed.lt_length (ho : d.Closed o) : o < d.lines.length :=
  ho.nested.elim fun _ h => lt_length_of_getElem? h.1

/-- A closed subproof stays closed and keeps its extent. -/
theorem Advances.closed (h : d.Advances e) (hd : d.WellFormed) (ho : d.Closed o) :
    e.Closed o ∧ span? e.lines o = span? d.lines o := by
  have hlt := ho.lt_length
  obtain ⟨l, hl, ha, hpos⟩ := ho.nested
  obtain ⟨heq, hpre⟩ | ⟨m, heq, hnew, hpre⟩ := h.lines_cases hd
  · rw [heq]
    exact ⟨⟨heq ▸ ho.nested, heq ▸ fun hopen => ho.closed (hopen.trans hpre)⟩, rfl⟩
  · have hchain : chainAt e.lines o = chainAt d.lines o := by rw [heq, chainAt_append hlt]
    have hl' : e.lines[o]? = some l := by rw [heq, List.getElem?_append_left hlt, hl]
    -- The only subproof that can be new is opened by the new line.
    have hclosed : ¬ chainAt e.lines o <+: e.nextChain := by
      intro hopen
      rw [hchain] at hopen
      obtain hself | hold := List.prefix_concat_iff.1 (hopen.trans hpre)
      · have hlast := getLast?_chainAt hl ha hpos
        rw [hself, List.getLast?_concat, Option.some.injEq] at hlast
        omega
      · exact ho.closed hold
    refine ⟨⟨⟨l, hl', ha, hpos⟩, hclosed⟩, ?_⟩
    have hspan := span?_eq_some hl' ha
    have hlast : o + (body e.lines o l.depth).length < d.lines.length := by
      by_contra hle
      have hinside : encloses e.lines o d.lines.length := (encloses_iff_le hl' ha hpos).2 (by omega)
      have hwf := h.wellFormed hd
      obtain ⟨-, -, -, -, hopen⟩ := (encloses_iff hwf.nested (by simp [heq])).1 hinside
      exact hclosed (hnew ▸ hopen)
    have htake : e.lines.take d.lines.length = d.lines := by rw [heq, List.take_left]
    rw [hspan, ← span?_take hspan hlast, htake]

/-- A run keeps all lines and adds no premises. -/
theorem prefix_of_advances (h : Relation.ReflTransGen Advances d e) (hd : d.WellFormed) :
    e.WellFormed ∧ d.lines <+: e.lines ∧ e.boundary = d.boundary := by
  induction h with
  | refl => exact ⟨hd, List.prefix_refl _, rfl⟩
  | tail _ h ih =>
    obtain ⟨hwf, hpre, hboundary⟩ := ih
    exact ⟨h.wellFormed hwf, hpre.trans (h.lines_prefix hwf), h.boundary_eq.trans hboundary⟩

/-- A closed subproof stays closed and keeps its extent during a run. -/
theorem closed_of_advances (h : Relation.ReflTransGen Advances d e) (hd : d.WellFormed)
    (ho : d.Closed o) : e.Closed o ∧ span? e.lines o = span? d.lines o := by
  induction h with
  | refl => exact ⟨ho, rfl⟩
  | tail hrun h ih =>
    obtain ⟨hclosed, hspan⟩ := h.closed (prefix_of_advances hrun hd).1 ih.1
    exact ⟨hclosed, hspan.trans ih.2⟩

/-! ## Orderly documents -/

/-- A strict document in which every subproof ended at the depth at which it was opened when it was
cited. -/
structure Orderly (d : Document) : Prop where
  reachable : Reachable {true} d
  returns : ∀ (j : Nat) (l : Line), d.lines[j]? = some l →
    ∀ c ∈ l.justification.citedSubproofs, returns (d.lines.take j) c.toNat

namespace Orderly

theorem wellFormed (hd : d.Orderly) : d.WellFormed := hd.reachable.wellFormed

theorem strict_eq (hd : d.Orderly) : d.strict = true := hd.reachable.strict_mem

/-- A line may be added if the subproofs that it cites end at the depth at which they were
opened. -/
theorem concat (hd : d.Orderly) (he : Reachable {true} e) (hlines : e.lines = d.lines ++ [m])
    (hm : ∀ c ∈ m.justification.citedSubproofs, Scope.returns d.lines c.toNat) : e.Orderly := by
  refine ⟨he, ?_⟩
  intro j l hl c hc
  rw [hlines] at hl ⊢
  obtain hl | ⟨rfl, rfl⟩ := getElem?_concat_eq_some_iff.1 hl
  · rw [List.take_append_of_le_length (lt_length_of_getElem? hl).le]
    exact hd.returns j l hl c hc
  · rw [List.take_left]
    exact hm c hc

/-- Cited subproofs still end where they ended when they were cited. -/
theorem returns_of_mem (hd : d.Orderly) (hl : l ∈ d.lines) {c : Int}
    (hc : c ∈ l.justification.citedSubproofs) : Scope.returns d.lines c.toNat := by
  obtain ⟨j, hj⟩ := List.mem_iff_getElem?.1 hl
  have hreturns := hd.returns j l hj c hc
  have hlt := lt_length_of_getElem? hj
  cases hrole : l.role with
  | assumption =>
    obtain ⟨f, rfl⟩ | ⟨depth, f, -, rfl⟩ | ⟨depth, f, rule, cited, rfl, -⟩ :=
      hd.reachable.line_cases hj
    · cases hc
    · cases hc
    · cases hrole
  | derivation =>
    obtain ⟨e, i, f, hlines, -, rfl, -, hsealed⟩ := hd.reachable.derivation hj hrole
    rw [Line.citedSubproofs_derived] at hc
    obtain ⟨o, ho, rfl⟩ := List.mem_map.1 hc
    have hoj : (o : Nat) < j := by
      have := congrArg List.length hlines
      rw [List.length_take] at this
      omega
    obtain ⟨last, hspan, hlast⟩ := (hsealed o ho).span_lt hd.wellFormed.nested hlt hoj
    rw [Int.toNat_natCast] at hreturns ⊢
    rwa [returns_take hspan hoj hlast] at hreturns

end Orderly

/-! ## Continuations -/

/-- A document is continued by operations until the same subproofs are open as before. -/
structure Continues (d e : Document) : Prop where
  orderly : e.Orderly
  advances : Relation.ReflTransGen Advances d e
  nextChain_eq : e.nextChain = d.nextChain

/-- A formula stands on a given line, and the line may be cited. -/
structure HoldsAt (d : Document) (k : Nat) (f : Formula) : Prop where
  available : isAvailable d.lines d.cursor k
  line : ∃ l, d.lines[k]? = some l ∧ l.formula = f

/-- A formula stands on a line that may be cited. -/
def Holds (d : Document) (f : Formula) : Prop := ∃ k, d.HoldsAt k f

/-- The subproof opened at a line leads from one formula to another, ends at the depth at which it
was opened, and may be cited. -/
structure Subproof (d : Document) (o : Nat) (f g : Formula) : Prop where
  opener : d.lines[o]? = some (.hypothesis (d.cursor + 1) f)
  citable : isCitable d.lines d.cursor o
  last : ∃ last l, span? d.lines o = some (o, last) ∧ d.lines[last]? = some l ∧
    l.depth = d.cursor + 1 ∧ l.formula = g

theorem HoldsAt.exists_index (hf : d.HoldsAt k f) :
    ∃ i : Fin d.lines.length, i = k ∧ (d.lines.get i).formula = f := by
  obtain ⟨l, hl, rfl⟩ := hf.line
  obtain ⟨hlt, rfl⟩ := List.getElem?_eq_some_iff.1 hl
  exact ⟨⟨k, hlt⟩, rfl, rfl⟩

theorem Holds.exists_index (hf : d.Holds f) :
    ∃ k : Fin d.lines.length, isAvailable d.lines d.cursor k ∧ (d.lines.get k).formula = f := by
  obtain ⟨k, hk⟩ := hf
  obtain ⟨i, rfl, hi⟩ := hk.exists_index
  exact ⟨i, hk.available, hi⟩

/-- What may be cited may be cited further inside as well. -/
theorem HoldsAt.mono (hf : d.HoldsAt k f) (hd : d.WellFormed) (he : e.WellFormed)
    (hlines : d.lines <+: e.lines) (hchain : d.nextChain <+: e.nextChain) : e.HoldsAt k f := by
  obtain ⟨hlt, hopen⟩ := (isAvailable_iff hd.nested hd.cursor_nonneg).1 hf.available
  obtain ⟨l, hl, hlf⟩ := hf.line
  obtain ⟨ms, hms⟩ := hlines
  have hl' : e.lines[k]? = some l := by rw [← hms, List.getElem?_append_left hlt, hl]
  have hlt' := lt_length_of_getElem? hl'
  refine ⟨(isAvailable_iff he.nested he.cursor_nonneg).2 ⟨hlt', ?_⟩, l, hl', hlf⟩
  rw [← hms, chainAt_append hlt, hms]
  exact hopen.trans hchain

/-- A line that has been added may be cited. -/
theorem WellFormed.holds_last (he : e.WellFormed) {ls : List Line} (hlines : e.lines = ls ++ [m])
    (hcursor : e.cursor = m.depth) : e.Holds m.formula := by
  refine ⟨ls.length, ?_, m, by simp [hlines], rfl⟩
  refine (isAvailable_iff he.nested he.cursor_nonneg).2 ⟨by simp [hlines], ?_⟩
  rw [he.chainAt_length hlines hcursor]
  exact List.prefix_refl _

namespace Continues

theorem refl (hd : d.Orderly) : d.Continues d := ⟨hd, .refl, rfl⟩

theorem trans (h : d.Continues e) (h' : e.Continues e') : d.Continues e' :=
  ⟨h'.orderly, h.advances.trans h'.advances, h'.nextChain_eq.trans h.nextChain_eq⟩

theorem cursor_eq (h : d.Continues e) (hd : d.WellFormed) : e.cursor = d.cursor := by
  rw [← h.orderly.wellFormed.length_nextChain, h.nextChain_eq, hd.length_nextChain]

theorem holdsAt (h : d.Continues e) (hd : d.WellFormed) (hf : d.HoldsAt k f) : e.HoldsAt k f :=
  hf.mono hd h.orderly.wellFormed (prefix_of_advances h.advances hd).2.1
    (h.nextChain_eq ▸ List.prefix_refl _)

theorem holds (h : d.Continues e) (hd : d.WellFormed) (hf : d.Holds f) : e.Holds f :=
  hf.imp fun _ => h.holdsAt hd

theorem subproof (h : d.Continues e) (hd : d.WellFormed) (ho : d.Subproof o f g) :
    e.Subproof o f g := by
  obtain ⟨hwf, ⟨ms, hms⟩, -⟩ := prefix_of_advances h.advances hd
  obtain ⟨last, l, hspan, hl, hdepth, hg⟩ := ho.last
  have hlt := lt_length_of_getElem? ho.opener
  have hopener : e.lines[o]? = some (.hypothesis (d.cursor + 1) f) := by
    rw [← hms, List.getElem?_append_left hlt, ho.opener]
  have hlast : e.lines[last]? = some l := by
    rw [← hms, List.getElem?_append_left (lt_length_of_getElem? hl), hl]
  obtain ⟨n, hn, ha, hpos, hclosed, hparent⟩ :=
    (isCitable_iff hd.nested hd.cursor_nonneg).1 ho.citable
  obtain ⟨-, hspan'⟩ := closed_of_advances h.advances hd ⟨⟨n, hn, ha, hpos⟩, hclosed⟩
  have hchain : chainAt e.lines o = chainAt d.lines o := by rw [← hms, chainAt_append hlt]
  refine ⟨h.cursor_eq hd ▸ hopener, ?_, last, l, hspan'.trans hspan, hlast, ?_, hg⟩
  · refine (isCitable_iff hwf.nested hwf.cursor_nonneg).2 ⟨n, ?_, ha, hpos, ?_, ?_⟩
    · rw [← hn, hopener, ho.opener]
    · rw [hchain, ← nextChain, h.nextChain_eq]
      exact hclosed
    · rw [hchain, ← nextChain, h.nextChain_eq]
      exact hparent
  · rw [h.cursor_eq hd, hdepth]

end Continues

/-! ## Continuing by an inference -/

/-- A document is continued by an inference whose citations are in scope. -/
theorem Orderly.infer (hd : d.Orderly) {i : Inference (Fin d.lines.length)} (h : d.Derives i f)
    (hlines : ∀ k ∈ i.citedLines, isAvailable d.lines d.cursor k)
    (hsubproofs : ∀ o ∈ i.citedSubproofs, isCitable d.lines d.cursor o ∧ Scope.returns d.lines o) :
    d.Continues (d.append (.derived d.cursor f i.rule (i.cited.map Fin.val))) := by
  have hconcludes : d.Concludes i f := by
    refine ⟨?_, ?_, h⟩
    · simpa [linesInScope, hd.strict_eq] using hlines
    · simpa [subproofsInScope, hd.strict_eq] using fun o ho => (hsubproofs o ho).1
  have hresolve (k : Fin d.lines.length) :
      LineRef.resolve? d.lines.length (.number k.val) = some k := by simp
  obtain ⟨j, -, hj⟩ := h.ofRule?_eq_some hresolve
  have hstep := Step.infer hj hconcludes
  refine ⟨hd.concat (.step hd.reachable hstep) rfl ?_, .single ⟨.infer j, trivial, hstep⟩,
    hstep.nextChain_eq hd.wellFormed⟩
  intro c hc
  rw [Line.citedSubproofs_derived] at hc
  obtain ⟨o, ho, rfl⟩ := List.mem_map.1 hc
  exact (hsubproofs o ho).2

theorem Continues.holds_derived {rule : Rule} {cited : List Nat}
    (h : d.Continues (d.append (.derived d.cursor f rule cited))) :
    (d.append (.derived d.cursor f rule cited)).Holds f :=
  h.orderly.wellFormed.holds_last (m := .derived d.cursor f rule cited) rfl rfl

/-- A line that may be cited is not deeper than the next line. -/
theorem WellFormed.depth_le_cursor (hd : d.WellFormed) {k : Fin d.lines.length}
    (hk : isAvailable d.lines d.cursor k) : (d.lines.get k).depth ≤ d.cursor := by
  have hchain := ((isAvailable_iff hd.nested hd.cursor_nonneg).1 hk).2.length_le
  have hlen := length_chainAt hd.nested (List.getElem?_eq_getElem k.isLt)
  have hnext := hd.length_nextChain
  rw [nextChain] at hnext
  rw [List.get_eq_getElem]
  omega

/-- A formula that holds can be repeated. -/
theorem Orderly.reiterate (hd : d.Orderly) (hf : d.Holds f) :
    ∃ cited, d.Continues (d.append (.derived d.cursor f .reiteration cited)) := by
  obtain ⟨k, hk, rfl⟩ := hf.exists_index
  refine ⟨_, hd.infer (.reiterate (hd.wellFormed.depth_le_cursor hk)) ?_ ?_⟩
  · simpa [Inference.citedLines] using hk
  · simp [Inference.citedSubproofs]

/-! ## Continuing by a subproof -/

/-- The document after a subproof has been opened. -/
def supposing (d : Document) (f : Formula) : Document :=
  { d.append (.hypothesis (d.cursor + 1) f) with cursor := d.cursor + 1 }

theorem Orderly.supposing (hd : d.Orderly) (f : Formula) : (d.supposing f).Orderly :=
  hd.concat (.step hd.reachable (.suppose f)) rfl fun _ hc => absurd hc List.not_mem_nil

theorem Orderly.nextChain_supposing (hd : d.Orderly) (f : Formula) :
    (d.supposing f).nextChain = d.nextChain ++ [d.lines.length] :=
  (Step.suppose f).nextChain_eq hd.wellFormed

/-- The hypothesis holds in the subproof. -/
theorem Orderly.holds_supposing (hd : d.Orderly) (f : Formula) : (d.supposing f).Holds f :=
  (hd.supposing f).wellFormed.holds_last (m := .hypothesis (d.cursor + 1) f) rfl rfl

/-- What holds outside a subproof holds inside. -/
theorem Holds.supposing (hg : d.Holds g) (hd : d.Orderly) (f : Formula) :
    (d.supposing f).Holds g := by
  obtain ⟨k, hk⟩ := hg
  refine ⟨k, hk.mono hd.wellFormed (hd.supposing f).wellFormed (List.prefix_append _ _) ?_⟩
  rw [hd.nextChain_supposing]
  exact List.prefix_append _ _

/-- A subproof whose last line stands at the depth of its hypothesis is closed. -/
theorem Orderly.discharge (hd : d.Orderly) (h : (d.supposing f).Continues e) {ls : List Line}
    (hlines : e.lines = ls ++ [m]) (hdepth : e.cursor = m.depth) :
    ∃ e', d.Continues e' ∧ e'.Subproof d.lines.length f m.formula := by
  have hsup := (hd.supposing f).wellFormed
  have hwf := h.orderly.wellFormed
  have hge := hd.wellFormed.cursor_nonneg
  have hcursor : e.cursor = d.cursor + 1 := h.cursor_eq hsup
  have hpred : e.cursor - 1 = d.cursor := by omega
  have hstep : e.Step .discharge { e with cursor := e.cursor - 1 } := .discharge (by omega)
  rw [hpred] at hstep
  have hnext : e.nextChain = d.nextChain ++ [d.lines.length] :=
    h.nextChain_eq.trans (hd.nextChain_supposing f)
  have hnext' : openChain e.lines d.cursor = d.nextChain := by
    have hdrop := hstep.nextChain_eq hwf
    simp only [Tracked.accept, hnext, List.dropLast_concat] at hdrop
    exact hdrop
  obtain ⟨-, ⟨ms, hms⟩, -⟩ := prefix_of_advances h.advances hsup
  have hopener : e.lines[d.lines.length]? = some (.hypothesis (d.cursor + 1) f) := by
    rw [← hms]
    simp [Document.supposing, append]
  have hpos : 0 < (Line.hypothesis (d.cursor + 1) f).depth := by
    simp only [Line.hypothesis]
    omega
  have hchain : chainAt e.lines d.lines.length = d.nextChain ++ [d.lines.length] := by
    rw [← hms, chainAt_append (by simp [Document.supposing, append]),
      hsup.chainAt_length (m := .hypothesis (d.cursor + 1) f) rfl rfl, hd.nextChain_supposing]
  refine ⟨{ e with cursor := d.cursor }, ⟨?_, ?_, hnext'⟩,
    hopener, ?_, ls.length, m, ?_, ?_, ?_, rfl⟩
  · exact ⟨.step h.orderly.reachable hstep, h.orderly.returns⟩
  · exact .head ⟨.suppose f, trivial, .suppose f⟩ (h.advances.tail ⟨.discharge, trivial, hstep⟩)
  · refine (isCitable_iff hwf.nested hge).2 ⟨_, hopener, rfl, hpos, ?_, ?_⟩
    · rw [hchain, hnext']
      intro hpre
      have hle := hpre.length_le
      rw [List.length_append, List.length_singleton] at hle
      omega
    · simp only [hchain, hnext', List.dropLast_concat, List.prefix_refl]
  · have hlast := hwf.chainAt_length hlines hdepth
    have hnested := hwf.nested
    simp only [hlines] at hopener hchain hlast hnested ⊢
    refine span?_eq_last hnested hopener rfl hpos ?_
    simp only [hchain, hlast, hnext, List.prefix_refl]
  · simp [hlines]
  · rw [← hdepth, hcursor]

/-- A subproof in which a formula has been derived is completed: the formula is repeated, so that it
stands on the last line and at the depth of the hypothesis, and the subproof is closed. -/
theorem Orderly.subproof (hd : d.Orderly) (h : (d.supposing f).Continues e) (hg : e.Holds g) :
    ∃ e', d.Continues e' ∧ e'.Subproof d.lines.length f g := by
  obtain ⟨cited, hrepeat⟩ := h.orderly.reiterate hg
  exact hd.discharge (m := .derived e.cursor g .reiteration cited) (h.trans hrepeat) rfl rfl

namespace Subproof

theorem lt_length (ho : d.Subproof o f g) : o < d.lines.length := lt_length_of_getElem? ho.opener

theorem get_eq {o : Fin d.lines.length} (ho : d.Subproof o f g) :
    d.lines.get o = .hypothesis (d.cursor + 1) f :=
  (List.getElem?_eq_some_iff.1 ho.opener).2

theorem result?_eq (ho : d.Subproof o f g) : result? d.lines o = some g := by
  obtain ⟨last, l, hspan, hl, -, rfl⟩ := ho.last
  simp [result?, hspan, hl]

theorem returns (ho : d.Subproof o f g) : Scope.returns d.lines o := by
  obtain ⟨last, l, hspan, hl, hdepth, -⟩ := ho.last
  simp [Scope.returns, ho.opener, hspan, hl, hdepth, Line.hypothesis]

end Subproof

end Document

end NaturalDeduction
