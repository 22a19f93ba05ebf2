import NaturalDeduction.Proofs.Encoding
import NaturalDeduction.Proofs.Words

/-!
# Loading scripts

The commands of a script are found line by line, so that those of two scripts, one written below
the other, are put together. It does not matter which characters end the lines: where a carriage
return and a line feed are taken for one break instead of two, only an empty line is lost. The
commands that are found are in a normal form. Written down again, one on each line, they are found
as they are.

## Main definitions

* `Text.lineBreaks`: the characters that end a line
* `Script.select`: the commands among some lines
* `Script.IsNormal`: a text that stands for itself as a line of a script

## Main statements

* `Script.commands_unifyBreaks`: it does not matter how the ends of lines are written
* `Script.ofBytes_toUTF8`: the commands of a script file
* `Script.commands_append`: the commands of two scripts, one below the other
* `Script.isNormal_of_mem_commands`: commands are in normal form
* `Script.commands_intercalate`: the commands among lines that are put together
* `Script.ofBytes_normal_form`: loading is a homomorphism into normal forms
-/

namespace NaturalDeduction

/-! ## Lines of a text -/

namespace Text

/-- The characters that end a line. -/
def lineBreaks : List Char :=
  ['\n', '\x0b', '\x0c', '\r', '\x1c', '\x1d', '\x1e', '\u0085', '\u2028', '\u2029']

theorem isLineBreak_iff {c : Char} : isLineBreak c ↔ c ∈ lineBreaks := by
  simp only [isLineBreak, lineBreaks, List.mem_cons, List.not_mem_nil, or_false,
    ← Char.toNat_inj, Bool.or_eq_true, Bool.and_eq_true, decide_eq_true_eq, beq_iff_eq,
    Char.reduceToNat]
  omega

end Text

namespace Script

variable {cs : List Char} {text : String}

/-! ## Commands among lines -/

/-- The commands among some lines. -/
def select (lines : List String) : List String :=
  ((lines.map fun line => Text.strip line.toList).filter isCommand).map String.ofList

theorem select_cons (line : String) (lines : List String) :
    select (line :: lines) =
      if isCommand (Text.strip line.toList) then
        String.ofList (Text.strip line.toList) :: select lines
      else select lines := by
  by_cases h : isCommand (Text.strip line.toList) <;> simp [select, h]

theorem select_append (lines lines' : List String) :
    select (lines ++ lines') = select lines ++ select lines' := by
  simp [select]

theorem commands_eq_select (text : String) :
    commands text = select ((Text.lines text.toList).map String.ofList) := by
  simp [commands, select, Function.comp_def]

/-- Unified breaks leave the first line as it is and cost at most empty lines. -/
theorem exists_lines_unifyBreaks (cs : List Char) :
    ∃ l ls ms, Text.lines (Text.unifyBreaks cs) = l :: ls ∧ Text.lines cs = l :: ms ∧
      select (ls.map String.ofList) = select (ms.map String.ofList) := by
  fun_induction Text.unifyBreaks cs with
  | case1 => exact ⟨[], [], [], rfl, rfl, rfl⟩
  | case2 cs ih =>
    obtain ⟨l, ls, ms, hunified, hlines, hselect⟩ := ih
    refine ⟨[], l :: ls, [] :: l :: ms, ?_, ?_, ?_⟩
    · exact congrArg ([] :: ·) hunified
    · exact congrArg ([] :: [] :: ·) hlines
    · simp [select_cons, hselect, isCommand]
  | case3 c cs hnot ih =>
    obtain ⟨l, ls, ms, hunified, hlines, hselect⟩ := ih
    simp only [Text.lines, Text.pieces_cons] at hunified hlines ⊢
    rw [hunified, hlines]
    by_cases hc : Text.isLineBreak c
    · have hunify : Text.isLineBreak (if c = '\r' then '\n' else c) := by
        split
        · decide
        · exact hc
      refine ⟨[], l :: ls, l :: ms, ?_, ?_, ?_⟩
      · simp [Text.extendPieces, hunify]
      · simp [Text.extendPieces, hc]
      · simp [select_cons, hselect]
    · have hreturn : c ≠ '\r' := by
        rintro rfl
        exact hc (by decide)
      exact ⟨c :: l, ls, ms, by simp [Text.extendPieces, hreturn, hc],
        by simp [Text.extendPieces, hc], hselect⟩

/-- It does not matter how the ends of lines are written. -/
theorem commands_unifyBreaks (text : String) :
    commands (String.ofList (Text.unifyBreaks text.toList)) = commands text := by
  obtain ⟨l, ls, ms, hunified, hlines, hselect⟩ := exists_lines_unifyBreaks text.toList
  simp [commands_eq_select, hunified, hlines, select_cons, hselect]

/-- The commands of a script file are those of the text in it. -/
theorem ofBytes_toUTF8 (path : Path) (text : String) :
    ofBytes path text.toUTF8.data.toList = .ok (commands text) := by
  rw [ofBytes, Text.ofFile, Text.Utf8.decode_toUTF8]
  simp [Except.map, commands_unifyBreaks]

theorem commands_append (t u : String) : commands (t ++ "\n" ++ u) = commands t ++ commands u := by
  have htext : (t ++ "\n" ++ u).toList = t.toList ++ '\n' :: u.toList := by simp
  have hlines : Text.lines (t.toList ++ '\n' :: u.toList) =
      Text.lines t.toList ++ Text.lines u.toList := Text.pieces_append_cons (by decide)
  simp only [commands_eq_select, htext, hlines, List.map_append, select_append]

/-- The commands among lines that are put together. -/
theorem commands_intercalate {lines : List String}
    (h : ∀ line ∈ lines, ∀ c ∈ line.toList, Text.isLineBreak c = false) :
    commands ("\n".intercalate lines) = select lines := by
  cases lines with
  | nil => decide
  | cons line lines =>
    have hlines : Text.lines ("\n".intercalate (line :: lines)).toList =
        (line :: lines).map String.toList := by
      rw [String.toList_intercalate]
      exact Text.pieces_intercalate (by decide) (by simp) (by simpa using h)
    rw [commands, hlines, select, List.map_map]
    rfl

/-! ## Normal forms -/

/-- The text stands for itself as a line of a script. -/
structure IsNormal (command : String) : Prop where
  ne_empty : command ≠ ""
  strip_eq : Text.strip command.toList = command.toList
  unbroken : ∀ c ∈ Text.lineBreaks, c ∉ command.toList
  not_comment : command.toList.head? ≠ some '#'

theorem isCommand_iff : isCommand cs ↔ cs ≠ [] ∧ cs.head? ≠ some '#' := by
  cases cs <;> simp [isCommand]

theorem mem_of_mem_strip {c : Char} (h : c ∈ Text.strip cs) : c ∈ cs := by
  have hstrip : Text.strip cs <+: cs.dropWhile Text.isBlank := List.rdropWhile_prefix Text.isBlank _
  exact (List.dropWhile_suffix Text.isBlank).subset (hstrip.subset h)

theorem isNormal_of_mem_commands {command : String} (h : command ∈ commands text) :
    IsNormal command := by
  rw [commands, List.mem_map] at h
  obtain ⟨cs, hcs, rfl⟩ := h
  rw [List.mem_filter, List.mem_map, isCommand_iff] at hcs
  obtain ⟨⟨l, hl, rfl⟩, hne, hhead⟩ := hcs
  refine ⟨by simpa using hne, by simp [Text.strip_strip], fun c hc hmem => ?_, by simpa using hhead⟩
  rw [String.toList_ofList] at hmem
  have hcut := Text.isCut_of_mem_pieces hl (mem_of_mem_strip hmem)
  rw [Text.isLineBreak_iff.2 hc] at hcut
  cases hcut

theorem select_of_isNormal {cs : List String} (h : ∀ command ∈ cs, IsNormal command) :
    select cs = cs := by
  induction cs with
  | nil => rfl
  | cons command cs ih =>
    rw [List.forall_mem_cons] at h
    have hcommand : isCommand command.toList := by
      rw [isCommand_iff]
      exact ⟨by simpa using h.1.ne_empty, h.1.not_comment⟩
    rw [select_cons, h.1.strip_eq, if_pos hcommand, ih h.2, String.ofList_toList]

/-- Texts in normal form, one on each line, are found as they are. -/
theorem commands_intercalate_of_isNormal {cs : List String}
    (h : ∀ command ∈ cs, IsNormal command) : commands ("\n".intercalate cs) = cs := by
  rw [commands_intercalate, select_of_isNormal h]
  intro command hcommand c hc
  by_contra hbreak
  exact (h command hcommand).unbroken c (Text.isLineBreak_iff.1 (by simpa using hbreak)) hc

/-- Every text can be loaded as a script. The commands of two texts with a line feed between them
are those of the first and then those of the second. The commands of a text are in normal form,
and if they are written down, one on each line, the same commands are loaded from that. -/
theorem ofBytes_normal_form (path : Path) (t u : String) :
    ∃ cs ds, ofBytes path t.toUTF8.data.toList = .ok cs ∧
      ofBytes path u.toUTF8.data.toList = .ok ds ∧
      ofBytes path (t ++ "\n" ++ u).toUTF8.data.toList = .ok (cs ++ ds) ∧
      ofBytes path ("\n".intercalate cs).toUTF8.data.toList = .ok cs ∧
      ∀ command ∈ cs, IsNormal command := by
  have hnormal : ∀ command ∈ commands t, IsNormal command :=
    fun command => isNormal_of_mem_commands
  refine ⟨commands t, commands u, ofBytes_toUTF8 path t, ofBytes_toUTF8 path u, ?_, ?_, hnormal⟩
  · rw [ofBytes_toUTF8, commands_append]
  · rw [ofBytes_toUTF8, commands_intercalate_of_isNormal hnormal]

end Script

end NaturalDeduction
