import NaturalDeduction.Proof.Layout
import NaturalDeduction.Proofs.Replay
import NaturalDeduction.Proofs.Writing

/-!
# Reading a drawn proof

A drawn proof shows everything: two documents that are drawn alike have the same lines, the same
boundary and the same cursor. The rows are told apart by what stands in front of them, a number or
only space, and the parts of a row by where each of them ends. The role of a line is not drawn, but
it follows from the rule; the boundary follows from the lines.

## Main definitions

* `Proof.isIndented`: a row that has no number

## Main statements

* `Proof.rows_inj`: the rows can be read off the drawing
* `Proof.filter_rows`: the rows with a number are those of the lines
* `Proof.lineRow_inj`: the row of a line shows its depth, formula and justification
* `Proof.markerRow_inj`: the last row shows the cursor
* `Document.eq_of_render_eq`: documents that are drawn alike are equal
-/

namespace NaturalDeduction

variable {s : SymbolSet} {p q : Proof} {l m : Line} {i : Nat}

/-! ## Bars and spaces -/

/-- The character of the bars. -/
def SymbolSet.bar : SymbolSet → Char
  | .ascii => '|'
  | .logic => '│'

theorem SymbolSet.toList_glyphs_bar (s : SymbolSet) : s.glyphs.bar.toList = [s.bar] := by
  cases s <;> rfl

theorem SymbolSet.toList_bars (s : SymbolSet) (depth : Int) :
    (s.glyphs.bars depth).toList = (List.replicate depth.toNat [s.bar, ' ']).flatten := by
  simp [Glyphs.bars, String.toList_join, List.flatMap_def, s.toList_glyphs_bar]

theorem SymbolSet.mem_bars {depth : Int} {c : Char} (hc : c ∈ (s.glyphs.bars depth).toList) :
    c = s.bar ∨ c = ' ' := by
  rw [s.toList_bars, List.mem_flatten] at hc
  obtain ⟨cs, hcs, hc⟩ := hc
  rw [List.eq_of_mem_replicate hcs] at hc
  simpa using hc

/-- A written formula begins neither with a bar nor with a space. -/
theorem Formula.not_bar_of_mem_head? {f : Formula} (hf : f.Named) (rest : List Char) :
    ∀ c ∈ ((f.text s).toList ++ rest).head?, ¬ (c = s.bar ∨ c = ' ') := by
  obtain ⟨c, cs, hcs, hinitial⟩ := exists_initial s hf
  suffices ¬ (c = s.bar ∨ c = ' ') by simpa [hcs] using this
  rintro (rfl | rfl)
  · revert hinitial
    cases s <;> decide
  · revert hinitial
    decide

/-- The number of bars can be counted. -/
theorem SymbolSet.bars_inj {depth depth' : Int}
    (h : s.glyphs.bars depth = s.glyphs.bars depth') : depth.toNat = depth'.toNat := by
  have hlength := congrArg (fun text => text.toList.length) h
  simp [s.toList_bars] at hlength
  omega

/-- Spaces are told from what follows them. -/
theorem spaces_append_inj {k k' : Nat} {cs ds : List Char} (hcs : ∀ c ∈ cs.head?, c ≠ ' ')
    (hds : ∀ d ∈ ds.head?, d ≠ ' ')
    (h : List.replicate k ' ' ++ cs = List.replicate k' ' ' ++ ds) : k = k' ∧ cs = ds := by
  obtain ⟨hspaces, hrest⟩ := append_inj_of_forall (p := (· = ' '))
    (fun _ hc => List.eq_of_mem_replicate hc) (fun _ hc => List.eq_of_mem_replicate hc) hcs hds h
  exact ⟨by simpa using congrArg List.length hspaces, hrest⟩

theorem Text.toList_padLeft (width : Nat) (text : String) :
    (padLeft width text).toList =
      List.replicate (width - text.toList.length) ' ' ++ text.toList := by
  rw [padLeft, List.leftpad, String.toList_ofList]

theorem Text.toList_padRight (width : Nat) (text : String) :
    (padRight width text).toList =
      text.toList ++ List.replicate (width - text.toList.length) ' ' := by
  rw [padRight, List.rightpad, String.toList_ofList]

/-! ## Rows and numbers -/

/-- A number begins with a digit. -/
theorem exists_digit (i : Nat) : ∃ c cs, (toString i).toList = c :: cs ∧ c.isDigit := by
  rw [Nat.toString_eq_repr, Nat.toList_repr]
  obtain ⟨c, cs, hcs⟩ := List.exists_cons_of_ne_nil (Nat.toDigits_ne_nil (n := i) (b := 10))
  exact ⟨c, cs, hcs, Nat.isDigit_of_mem_toDigits (by decide) (by decide) (hcs ▸ List.mem_cons_self)⟩

namespace Proof

theorem toList_gutter (p : Proof) : p.gutter.toList = List.replicate (p.numberWidth + 1) ' ' := by
  simp [gutter, List.replicate_succ']

theorem toList_markerRow (s : SymbolSet) (p : Proof) :
    (p.markerRow s).toList = List.replicate (p.numberWidth + 1) ' ' ++
      ((s.glyphs.bars p.cursor).toList ++ s.glyphs.marker.toList) := by
  simp [markerRow, toList_gutter]

theorem toList_lineRow (s : SymbolSet) (p : Proof) (i : Nat) (l : Line) :
    (p.lineRow s i l).toList = (Text.padLeft p.numberWidth (toString i)).toList ++
      ' ' :: ((s.glyphs.bars l.depth ++ s.glyphs.bar ++ " ").toList ++
        ((l.formula.text s).toList ++
          (List.replicate (p.bodyWidth s - (l.body s).toList.length + 3) ' ' ++
            (s.label l.justification.text).toList))) := by
  have hbody : (l.body s).toList =
      (s.glyphs.bars l.depth ++ s.glyphs.bar ++ " ").toList ++ (l.formula.text s).toList := by
    simp [Line.body]
  rw [← List.replicate_append_replicate]
  simp [lineRow, Text.toList_padRight, hbody]

/-- The last row shows the width of the numbers and the cursor. -/
theorem markerRow_inj (h : p.markerRow s = q.markerRow s) :
    p.numberWidth = q.numberWidth ∧ p.cursor.toNat = q.cursor.toNat := by
  have hhead (depth : Int) :
      ∀ c ∈ ((s.glyphs.bars depth).toList ++ s.glyphs.marker.toList).head?, c ≠ ' ' := by
    rw [s.toList_bars]
    cases depth.toNat <;> cases s <;> simp [List.replicate_succ, SymbolSet.glyphs, SymbolSet.bar]
  have hlist := congrArg String.toList h
  rw [toList_markerRow, toList_markerRow] at hlist
  obtain ⟨hwidth, hrest⟩ := spaces_append_inj (hhead _) (hhead _) hlist
  have hbars := String.toList_inj.1 (List.append_cancel_right hrest)
  exact ⟨by omega, SymbolSet.bars_inj hbars⟩

/-- A row that has no number. -/
def isIndented (p : Proof) (row : String) : Bool := p.gutter.toList.isPrefixOf row.toList

theorem isIndented_markerRow (s : SymbolSet) (p : Proof) : p.isIndented (p.markerRow s) := by
  simp [isIndented, markerRow]

theorem isIndented_separatorRow (s : SymbolSet) (p : Proof) (depth : Int) :
    p.isIndented (p.separatorRow s depth) := by
  simp [isIndented, separatorRow]

theorem not_isIndented_lineRow (s : SymbolSet) (p : Proof) (i : Nat) (l : Line) :
    p.isIndented (p.lineRow s i l) = false := by
  obtain ⟨c, cs, hcs, hdigit⟩ := exists_digit i
  rw [Bool.eq_false_iff, isIndented, Ne, List.isPrefixOf_iff_prefix]
  rintro ⟨rest, hrest⟩
  -- The first digit of the number would be one of the spaces.
  rw [toList_gutter, toList_lineRow, Text.toList_padLeft, hcs, List.append_assoc] at hrest
  have hget : (List.replicate (p.numberWidth + 1) ' ' ++ rest)[p.numberWidth - (c :: cs).length]? =
      some c := by
    rw [hrest]
    simp
  have hlt : p.numberWidth - (c :: cs).length < p.numberWidth + 1 := by omega
  rw [List.getElem?_append_left (by rwa [List.length_replicate]),
    List.getElem?_replicate_of_lt hlt] at hget
  cases hget
  exact absurd hdigit (by decide)

/-- The rows with a number are those of the lines. -/
theorem filter_rows (s : SymbolSet) (p : Proof) :
    (p.rows s).filter (fun row => !p.isIndented row) =
      p.lines.zipIdx.map fun (l, i) => p.lineRow s i l := by
  have hrowsAt (i : Nat) (l : Line) :
      (p.rowsAt s i l).filter (fun row => !p.isIndented row) = [p.lineRow s i l] := by
    unfold rowsAt
    split <;> simp [isIndented_separatorRow, not_isIndented_lineRow]
  simp [rows, List.filter_flatMap, hrowsAt, isIndented_markerRow, List.map_eq_flatMap]

/-- The row of a line shows its depth, its formula and its justification. -/
theorem lineRow_inj (hwidth : p.numberWidth = q.numberWidth) (hl : l.formula.Named)
    (hm : m.formula.Named) (h : p.lineRow s i l = q.lineRow s i m) :
    l.depth.toNat = m.depth.toNat ∧ l.formula = m.formula ∧
      l.justification = m.justification := by
  have hbars (depth : Int) : ∀ c ∈ (s.glyphs.bars depth ++ s.glyphs.bar ++ " ").toList,
      c = s.bar ∨ c = ' ' := by
    intro c hc
    simp only [String.toList_append, s.toList_glyphs_bar, List.mem_append] at hc
    obtain (hc | hc) | hc := hc
    · exact SymbolSet.mem_bars hc
    · exact .inl (by simpa using hc)
    · exact .inr (by simpa using hc)
  have hbreaks (k : Nat) (rest : List Char) : Breaks (List.replicate (k + 3) ' ' ++ rest) :=
    breaks_cons (by decide)
  have hlist := congrArg String.toList h
  rw [toList_lineRow, toList_lineRow, hwidth] at hlist
  have hbody := List.cons.inj (List.append_cancel_left hlist)
  obtain ⟨hmargin, hrest⟩ :=
    append_inj_of_forall (hbars _) (hbars _) (Formula.not_bar_of_mem_head? hl _)
      (Formula.not_bar_of_mem_head? hm _) hbody.2
  obtain ⟨hformula, hrest⟩ := Formula.text_append_inj hl hm (hbreaks _ _) (hbreaks _ _) hrest
  obtain ⟨-, hlabel⟩ := spaces_append_inj (Justification.head?_label_text s _)
    (Justification.head?_label_text s _) hrest
  refine ⟨SymbolSet.bars_inj (s := s) ?_, hformula,
    Justification.label_text_inj (String.toList_inj.1 hlabel)⟩
  simpa [← String.toList_inj] using hmargin

theorem mem_rows {row : String} (h : row ∈ p.rows s) :
    (∃ i, ∃ l ∈ p.lines, row = p.lineRow s i l) ∨ (∃ depth, row = p.separatorRow s depth) ∨
      row = p.markerRow s := by
  rw [rows, List.mem_append, List.mem_flatMap] at h
  obtain ⟨⟨l, i⟩, hl, hrow⟩ | hrow := h
  · have hrow : row = p.lineRow s i l ∨ row = p.separatorRow s l.depth := by
      simp only [rowsAt] at hrow
      split at hrow
      · simpa using hrow
      · exact .inl (by simpa using hrow)
    obtain rfl | rfl := hrow
    · exact .inl ⟨i, l, List.fst_mem_of_mem_zipIdx hl, rfl⟩
    · exact .inr (.inl ⟨l.depth, rfl⟩)
  · exact .inr (.inr (by simpa using hrow))

/-- No row is broken if no formula is. -/
theorem newline_notMem_rows (hp : ∀ l ∈ p.lines, '\n' ∉ (l.formula.text s).toList) :
    ∀ row ∈ (p.rows s).map String.toList, '\n' ∉ row := by
  have hbars (depth : Int) : '\n' ∉ (s.glyphs.bars depth).toList := by
    intro hmem
    have hchar := SymbolSet.mem_bars hmem
    cases s <;> exact absurd hchar (by decide)
  obtain ⟨hbar, hrule, hunderline, hmarker⟩ : '\n' ∉ s.glyphs.bar.toList ∧
      '\n' ∉ s.glyphs.rule.toList ∧ '\n' ∉ s.glyphs.underline.toList ∧
      '\n' ∉ s.glyphs.marker.toList := by cases s <;> decide
  intro cs hcs
  obtain ⟨row, hrow, rfl⟩ := List.mem_map.1 hcs
  obtain ⟨i, l, hl, rfl⟩ | ⟨depth, rfl⟩ | rfl := mem_rows hrow
  · have htext := hp l hl
    have hlabel := Justification.newline_notMem_label_text s l.justification
    have hnumber : '\n' ∉ (toString i).toList := by
      rw [Nat.toString_eq_repr, Nat.toList_repr]
      intro hmem
      exact absurd (Nat.isDigit_of_mem_toDigits (by decide) (by decide) hmem) (by decide)
    simp only [toList_lineRow, Text.toList_padLeft, String.toList_append, List.mem_append,
      List.mem_cons, List.mem_replicate, htext, hlabel, hnumber, hbars, hbar]
    simp
  · simp [separatorRow, toList_gutter, hbars, hrule, hunderline]
  · simp [markerRow, toList_gutter, hbars, hmarker]

/-- The rows can be read off the drawing. -/
theorem rows_inj (hp : ∀ l ∈ p.lines, l.formula.Named) (hq : ∀ l ∈ q.lines, l.formula.Named)
    (h : p.render s = q.render s) : p.rows s = q.rows s := by
  have hlist := congrArg String.toList h
  rw [render, render, String.toList_intercalate, String.toList_intercalate] at hlist
  have hne (p : Proof) : (p.rows s).map String.toList ≠ [] := by simp [rows]
  have hunbroken {p : Proof} (hp : ∀ l ∈ p.lines, l.formula.Named) :
      ∀ row ∈ (p.rows s).map String.toList, '\n' ∉ row :=
    newline_notMem_rows fun l hl => Formula.newline_notMem_text s (hp l hl)
  have hrows := intercalate_inj (hunbroken hp) (hunbroken hq) (hne p) (hne q) hlist
  exact List.map_injective_iff.2 (fun _ _ => String.toList_inj.1) hrows

/-- The rows show the cursor and the rows of the lines. -/
theorem lineRow_eq_of_rows_eq (h : p.rows s = q.rows s) :
    p.numberWidth = q.numberWidth ∧ p.cursor.toNat = q.cursor.toNat ∧
      ∀ i, p.lines[i]?.map (p.lineRow s i) = q.lines[i]?.map (q.lineRow s i) := by
  have hlast := congrArg List.getLast? h
  simp only [rows, List.getLast?_concat, Option.some.injEq] at hlast
  obtain ⟨hwidth, hcursor⟩ := markerRow_inj hlast
  refine ⟨hwidth, hcursor, fun i => ?_⟩
  have hindented : p.isIndented = q.isIndented := by
    funext row
    rw [isIndented, isIndented, toList_gutter, toList_gutter, hwidth]
  have hfilter := congrArg (List.filter fun row => !p.isIndented row) h
  nth_rewrite 2 [hindented] at hfilter
  rw [filter_rows, filter_rows] at hfilter
  simpa [List.getElem?_zipIdx, Function.comp_def] using congrArg (·[i]?) hfilter

end Proof

/-! ## Documents -/

/-- Where a line comes from decides its role. -/
def Rule.role : Rule → Role
  | premise | hypothesis => .assumption
  | reiteration | introduction _ | elimination _ => .derivation

namespace Document

variable {modes modes' : Set Bool} {d e : Document}

theorem Reachable.role_eq (hd : Reachable modes d) (hl : d.lines[i]? = some l) :
    l.role = l.justification.rule.role := by
  obtain ⟨f, rfl⟩ | ⟨depth, f, -, rfl⟩ | ⟨depth, f, rule, cited, rfl, hpremise, hhypothesis, -⟩ :=
    hd.line_cases hl
  · rfl
  · rfl
  · cases rule with
    | premise => exact absurd rfl hpremise
    | hypothesis => exact absurd rfl hhypothesis
    | _ => rfl

/-- Lines that are drawn alike, at the same index and with numbers of the same width, are equal. -/
theorem Reachable.line_eq_of_lineRow_eq (hd : Reachable modes d) (he : Reachable modes' e)
    (hl : d.lines[i]? = some l) (hm : e.lines[i]? = some m) (hlnamed : l.formula.Named)
    (hmnamed : m.formula.Named) (hwidth : d.numberWidth = e.numberWidth)
    (h : d.lineRow s i l = e.lineRow s i m) : l = m := by
  obtain ⟨htoNat, hformula, hjustification⟩ := Proof.lineRow_inj hwidth hlnamed hmnamed h
  have hdepth : l.depth = m.depth := by
    have hge := (hd.wellFormed.nested i l hl).1
    have hge' := (he.wellFormed.nested i m hm).1
    omega
  have hrole : l.role = m.role := by rw [hd.role_eq hl, he.role_eq hm, hjustification]
  cases l
  cases m
  simp_all

theorem Reachable.toProof_eq_of_render_eq (hd : Reachable modes d) (he : Reachable modes' e)
    (hdnamed : ∀ l ∈ d.lines, l.formula.Named) (henamed : ∀ l ∈ e.lines, l.formula.Named)
    (h : d.render s = e.render s) : d.toProof = e.toProof := by
  obtain ⟨hwidth, htoNat, hrows⟩ := Proof.lineRow_eq_of_rows_eq (Proof.rows_inj hdnamed henamed h)
  have hlines : d.lines = e.lines := by
    refine List.ext_getElem? fun i => ?_
    have hrow := hrows i
    cases hl : d.lines[i]? with
    | none =>
      rw [hl, Option.map_none, eq_comm, Option.map_eq_none_iff] at hrow
      exact hrow.symm
    | some l =>
      rw [hl, Option.map_some, eq_comm, Option.map_eq_some_iff] at hrow
      obtain ⟨m, hm, hrow⟩ := hrow
      rw [hm, hd.line_eq_of_lineRow_eq he hl hm (hdnamed l (List.mem_of_getElem? hl))
        (henamed m (List.mem_of_getElem? hm)) hwidth hrow.symm]
  have hboundary := hd.wellFormed.boundary_eq_of_lines_eq he.wellFormed hlines
  have hcursor : d.cursor = e.cursor := by
    have hge := hd.wellFormed.cursor_nonneg
    have hge' := he.wellFormed.cursor_nonneg
    omega
  obtain ⟨⟨dlines, dboundary, dcursor⟩, dstrict⟩ := d
  obtain ⟨⟨elines, eboundary, ecursor⟩, estrict⟩ := e
  simp_all

/-- Two documents that are drawn alike have the same lines, the same boundary and the same
cursor. -/
theorem eq_of_render_eq (s : SymbolSet) (strict strict' : Bool) (es es' : List Edit)
    (hnamed : ∀ l ∈ ((empty strict).revise es).lines, l.formula.Named)
    (hnamed' : ∀ l ∈ ((empty strict').revise es').lines, l.formula.Named)
    (h : ((empty strict).revise es).render s = ((empty strict').revise es').render s) :
    ((empty strict).revise es).toProof = ((empty strict').revise es').toProof :=
  (reachable_revise strict es).toProof_eq_of_render_eq (reachable_revise strict' es') hnamed
    hnamed' h

/-- The alternatives of a disjunction are exchanged, after some changes that may be made first. In
the drawing bars, disjunctions and the names of the rules share a character. -/
def exchange (detour : List Edit) : List Edit :=
  let a := Formula.atom "A"
  let b := Formula.atom "B"
  .operate (.assume (.or a b)) :: detour ++
    [.suppose a, .infer (.orIntro (.number 1) (.or b a)), .discharge, .suppose b,
      .infer (.orIntro (.number 3) (.or b a)), .discharge,
      .infer (.orElim (.number 0) (.number 1) (.number 3))].map .operate

/-- A detour on the way to a document is not seen in the drawing. -/
theorem eq_of_render_eq_exchange :
    let detour := [.operate (.suppose .absurd), .operate .delete, .setStrict true]
    let d := (empty true).revise (exchange [])
    let e := (empty false).revise (exchange detour)
    (∀ l ∈ d.lines, l.formula.Named) ∧ (∀ l ∈ e.lines, l.formula.Named) ∧
      d.render .ascii = e.render .ascii ∧ d.toProof = e.toProof := by
  intro detour d e
  have hnamed : ∀ l ∈ d.lines, l.formula.Named := by decide
  have hnamed' : ∀ l ∈ e.lines, l.formula.Named := by decide
  have h : d.render .ascii = e.render .ascii := by decide +kernel
  exact ⟨hnamed, hnamed', h,
    eq_of_render_eq .ascii true false (exchange []) (exchange detour) hnamed hnamed' h⟩

end Document

end NaturalDeduction
