import Mathlib.Data.Nat.Count
import NaturalDeduction.Proofs.Drawing
import NaturalDeduction.Text.Pieces

/-!
# The layout of a drawn proof

Every line of a proof has a row, and the rows stand in the order of the lines. Separators come in
between, so that the place of a row depends on how many lines above are underlined. The columns
are aligned: all numbers end in the same column and all justifications begin in the same one. This
holds for all proofs, be they reachable or not, and for a boundary anywhere.

## Main definitions

* `Proof.Underlined`: a separator stands below the line at an index
* `Proof.IsLineRow`: what the row of a line consists of
* `Proof.LaidOut`: the rows of a drawn proof

## Main statements

* `Proof.length_toString_le_numberWidth`, `Proof.length_body_le_bodyWidth`: every number and every
  body fits into its column
* `Proof.isLineRow_lineRow`: the parts of a row stand where they should
* `Proof.exists_rows_eq`: the rows above the row of a line
* `Proof.render_laidOut`: the rows that are read off a drawn proof
-/

namespace NaturalDeduction

/-- The bars of the nesting levels, each of them followed by a space. A negative depth has none. -/
def SymbolSet.margin (s : SymbolSet) (depth : Int) : List Char :=
  (List.replicate depth.toNat [s.bar, ' ']).flatten

namespace Proof

variable {s : SymbolSet} {p : Proof} {l : Line} {i : Nat}

/-! ## What a drawing should look like -/

/-- A line stands at the index and is the last premise or a hypothesis. -/
def Underlined (p : Proof) (i : Nat) : Prop :=
  ∃ l ∈ p.lines[i]?, (i : Int) = p.boundary - 1 ∨ l.role = .assumption ∧ 0 < l.depth

instance (p : Proof) : DecidablePred p.Underlined := fun i =>
  inferInstanceAs (Decidable (∃ l ∈ p.lines[i]?, _))

/-- The row of the line at an index. Its number ends where the width of the numbers ends, and its
justification begins in a column, at least three spaces after the formula. -/
def IsLineRow (s : SymbolSet) (width column i : Nat) (l : Line) (row : List Char) : Prop :=
  ∃ (indent gap : Nat) (front : List Char),
    indent + (toString i).length = width ∧ 3 ≤ gap ∧ front.length = column ∧
    front = List.replicate indent ' ' ++ (toString i).toList ++ ' ' :: (s.margin l.depth ++
      [s.bar, ' '] ++ (l.formula.text s).toList ++ List.replicate gap ' ') ∧
    row = front ++ (s.label l.justification.text).toList

/-- The rows are those of a drawing of the proof. The row of a line comes after the rows of the
lines before it and the separators among them. An underlined line is followed by a separator with
as many bars as the line has, so that the next row is that of the next line, or the last row,
which marks the cursor. -/
structure LaidOut (s : SymbolSet) (p : Proof) (rows : List (List Char)) : Prop where
  length_eq : rows.length = p.lines.length + Nat.count p.Underlined p.lines.length + 1
  lineRow : ∃ column, ∀ i l, p.lines[i]? = some l →
    ∃ row, rows[i + Nat.count p.Underlined i]? = some row ∧
      IsLineRow s (toString (p.lines.length - 1)).length column i l row
  separatorRow : ∀ i l, p.lines[i]? = some l → p.Underlined i →
    rows[i + Nat.count p.Underlined i + 1]? =
      some (List.replicate ((toString (p.lines.length - 1)).length + 1) ' ' ++
        s.margin l.depth ++ (s.glyphs.rule ++ s.glyphs.underline).toList)
  markerRow : rows.getLast? =
    some (List.replicate ((toString (p.lines.length - 1)).length + 1) ' ' ++
      s.margin p.cursor ++ s.glyphs.marker.toList)

/-! ## Columns -/

/-- No index is wider than the last one. -/
theorem length_toString_le_numberWidth (hi : i < p.lines.length) :
    (toString i).length ≤ p.numberWidth := by
  have hdigits (n : Nat) : (toString n).length = (Nat.toDigits 10 n).length := by
    rw [← String.length_toList, Nat.toString_eq_repr, Nat.toList_repr]
  rw [numberWidth, hdigits, hdigits]
  have hpos : 0 < (Nat.toDigits 10 (p.lines.length - 1)).length :=
    List.length_pos_iff.2 Nat.toDigits_ne_nil
  rw [Nat.length_toDigits_le_iff (by decide) hpos]
  have hlast := (Nat.length_toDigits_le_iff (by decide) hpos).1 (Nat.le_refl _)
  omega

/-- No body is wider than the widest one. -/
theorem length_body_le_bodyWidth (s : SymbolSet) (hl : l ∈ p.lines) :
    (l.body s).length ≤ p.bodyWidth s := by
  rw [bodyWidth, List.foldl_max, Nat.max_eq_right (Nat.zero_le _)]
  exact List.le_max?_getD_of_mem (List.mem_map_of_mem hl)

/-- The parts of a row stand in their columns. -/
theorem isLineRow_lineRow (s : SymbolSet) (h : p.lines[i]? = some l) :
    IsLineRow s p.numberWidth (p.numberWidth + 1 + p.bodyWidth s + 3) i l
      (p.lineRow s i l).toList := by
  have hnumber := length_toString_le_numberWidth (lt_length_of_getElem? h)
  have hbody := length_body_le_bodyWidth s (List.mem_of_getElem? h)
  have hparts : (l.body s).toList =
      s.margin l.depth ++ [s.bar, ' '] ++ (l.formula.text s).toList := by
    simp [Line.body, s.toList_bars, s.toList_glyphs_bar, SymbolSet.margin]
  refine ⟨p.numberWidth - (toString i).length, p.bodyWidth s - (l.body s).length + 3, _,
    Nat.sub_add_cancel hnumber, Nat.le_add_left 3 _, ?_, rfl, ?_⟩
  · rw [← hparts]
    simp only [List.length_append, List.length_cons, List.length_replicate, String.length_toList]
    omega
  · rw [← hparts]
    simp only [lineRow, String.toList_append, Text.toList_padLeft, Text.toList_padRight,
      String.length_toList, ← List.replicate_append_replicate, List.append_assoc,
      List.cons_append]
    rfl

/-! ## The places of the rows -/

theorem isSeparated_iff (h : p.lines[i]? = some l) : p.isSeparated i l ↔ p.Underlined i := by
  have hboundary : (i : Int) + 1 = p.boundary ↔ (i : Int) = p.boundary - 1 := by omega
  simp [isSeparated, Underlined, h, Line.isAssumption, hboundary]

theorem length_rowsAt (s : SymbolSet) (h : p.lines[i]? = some l) :
    (p.rowsAt s i l).length = 1 + if p.Underlined i then 1 else 0 := by
  simp only [rowsAt, isSeparated_iff h]
  split <;> rfl

/-- The number of rows that some lines at the start take up. -/
theorem length_flatMap_rowsAt (s : SymbolSet) (p : Proof) (hi : i ≤ p.lines.length) :
    ((p.lines.zipIdx.take i).flatMap fun (l, i) => p.rowsAt s i l).length =
      i + Nat.count p.Underlined i := by
  induction i with
  | zero => simp
  | succ i ih =>
    obtain ⟨l, hl⟩ : ∃ l, p.lines[i]? = some l := ⟨_, List.getElem?_eq_getElem hi⟩
    have hget : p.lines.zipIdx[i]? = some (l, i) := by simp [List.getElem?_zipIdx, hl]
    rw [List.take_add_one, hget, Option.toList_some, List.flatMap_append, List.length_append,
      ih (by omega), List.flatMap_singleton, length_rowsAt s hl, Nat.count_succ]
    omega

/-- What stands above the row of a line. -/
theorem exists_rows_eq (s : SymbolSet) (h : p.lines[i]? = some l) :
    ∃ above below, p.rows s = above ++ (p.rowsAt s i l ++ below) ∧
      above.length = i + Nat.count p.Underlined i := by
  have hget : p.lines.zipIdx[i]? = some (l, i) := by simp [List.getElem?_zipIdx, h]
  obtain ⟨hlt, hline⟩ := List.getElem?_eq_some_iff.1 hget
  have hsplit : p.lines.zipIdx =
      p.lines.zipIdx.take i ++ (l, i) :: p.lines.zipIdx.drop (i + 1) := by
    rw [← hline, List.getElem_cons_drop, List.take_append_drop]
  refine ⟨(p.lines.zipIdx.take i).flatMap fun (l, i) => p.rowsAt s i l,
    ((p.lines.zipIdx.drop (i + 1)).flatMap fun (l, i) => p.rowsAt s i l) ++ [p.markerRow s], ?_,
    length_flatMap_rowsAt s p (Nat.le_of_lt (lt_length_of_getElem? h))⟩
  conv_lhs => rw [rows, hsplit]
  simp

theorem getElem?_rows (s : SymbolSet) (h : p.lines[i]? = some l) :
    (p.rows s)[i + Nat.count p.Underlined i]? = some (p.lineRow s i l) := by
  obtain ⟨above, below, hrows, hlength⟩ := exists_rows_eq s h
  rw [hrows, ← hlength, List.getElem?_append_right (Nat.le_refl _), Nat.sub_self, rowsAt]
  split <;> rfl

theorem getElem?_rows_succ (s : SymbolSet) (h : p.lines[i]? = some l) (hi : p.Underlined i) :
    (p.rows s)[i + Nat.count p.Underlined i + 1]? = some (p.separatorRow s l.depth) := by
  obtain ⟨above, below, hrows, hlength⟩ := exists_rows_eq s h
  rw [hrows, ← hlength, List.getElem?_append_right (Nat.le_add_right ..), Nat.add_sub_cancel_left,
    rowsAt, if_pos ((isSeparated_iff h).2 hi)]
  rfl

theorem length_rows (s : SymbolSet) (p : Proof) :
    (p.rows s).length = p.lines.length + Nat.count p.Underlined p.lines.length + 1 := by
  have hlength := length_flatMap_rowsAt s p (Nat.le_refl _)
  rw [List.take_of_length_le (by simp)] at hlength
  rw [rows, List.length_append, hlength, List.length_singleton]

/-! ## Drawn proofs -/

/-- The rows are found again in the drawing. -/
theorem pieces_render (h : ∀ l ∈ p.lines, '\n' ∉ (l.formula.text s).toList) :
    Text.pieces (· == '\n') (p.render s).toList = (p.rows s).map String.toList := by
  rw [render, String.toList_intercalate]
  refine Text.pieces_intercalate rfl (by simp [rows]) fun row hrow c hc => ?_
  have hne : c ≠ '\n' := by
    rintro rfl
    exact newline_notMem_rows h row hrow hc
  simpa using hne

/-- A drawn proof has a row for every line, one more for every underlined line and one for the
cursor, and they are found where they should be. -/
theorem render_laidOut (s : SymbolSet) (p : Proof)
    (h : ∀ l ∈ p.lines, '\n' ∉ (l.formula.text s).toList) :
    LaidOut s p (Text.pieces (· == '\n') (p.render s).toList) := by
  rw [pieces_render h]
  refine ⟨by rw [List.length_map, length_rows], ⟨_, fun i l hl => ⟨_, ?_, isLineRow_lineRow s hl⟩⟩,
    fun i l hl hi => ?_, ?_⟩
  · rw [List.getElem?_map, getElem?_rows s hl, Option.map_some]
  · rw [List.getElem?_map, getElem?_rows_succ s hl hi, Option.map_some]
    simp [Proof.separatorRow, toList_gutter, s.toList_bars, SymbolSet.margin, numberWidth]
  · rw [List.getLast?_map, rows, List.getLast?_concat, Option.map_some, toList_markerRow,
      s.toList_bars, List.append_assoc]
    rfl

/-- Numbers of two widths, atoms with spaces, and a boundary beyond the lines. -/
theorem render_laidOut_twoDigits :
    let lines := List.replicate 10 (Line.premise (.atom "a b")) ++ [Line.hypothesis 2 .absurd]
    let p : Proof := ⟨lines, 20, 1⟩
    let rows := Text.pieces (· == '\n') (p.render .logic).toList
    (∀ l ∈ p.lines, '\n' ∉ (l.formula.text .logic).toList) ∧ LaidOut .logic p rows ∧
      rows.length = 13 := by
  intro lines p rows
  have hlines : ∀ l ∈ p.lines, '\n' ∉ (l.formula.text .logic).toList := by decide
  have hrows := render_laidOut .logic p hlines
  exact ⟨hlines, hrows, hrows.length_eq.trans (by decide)⟩

end Proof

end NaturalDeduction
