import NaturalDeduction.CommandLine.Dialogue
import NaturalDeduction.Proofs.Atomicity
import NaturalDeduction.Proofs.Loading
import NaturalDeduction.Proofs.Writing

/-!
# Conversations and their transcripts

The lines of a conversation can be written down as a script. The conversation passes on every line
that is not blank, as it was typed; the script leaves out the comments as well, and the blanks
around its lines. Since a comment is no command and blanks around a command do not matter, both
lead to the same session, and both end with the same line.

## Main statements

* `Session.execute_strip`: blanks around a line do not matter
* `Session.execute_of_not_isCommand`: a blank line or a comment changes nothing
* `Session.converse_eq_run`: a conversation has the effect of its commands
* `Session.converse_eq_run_script`: a conversation has the effect of its transcript
-/

namespace NaturalDeduction

/-! ## Commands among the lines -/

theorem Command.read_strip (line : String) :
    read (String.ofList (Text.strip line.toList)) = read line := by
  simp [read, Text.strip_strip]

/-- No keyword begins like a comment. -/
theorem Keyword.ofWord?_comment (cs : List Char) : ofWord? ('#' :: cs) = none := by
  rw [ofWord?, List.lookup_eq_none_iff]
  intro p hp
  have hhead : ∀ p ∈ names, p.1.toList.head? ≠ some '#' := by decide
  have hne : p.1 ≠ String.ofList (Text.lowerAscii ('#' :: cs)) := by
    intro heq
    apply hhead p hp
    rw [heq, String.toList_ofList]
    rfl
  simpa using hne.symm

namespace Session

variable {s : Session} {line : String}

/-- Blanks around a line do not matter. -/
theorem execute_strip (s : Session) (line : String) :
    s.execute (String.ofList (Text.strip line.toList)) = s.execute line := by
  simp only [execute, session_executeOn, reply_executeOn, Command.read_strip]

/-- A blank line or a comment changes nothing. -/
theorem execute_of_not_isCommand (h : Script.isCommand (Text.strip line.toList) = false) :
    (s.execute line).1 = s := by
  simp only [execute, session_executeOn, Command.read]
  cases hline : Text.strip line.toList with
  | nil => rfl
  | cons c cs =>
    obtain rfl : c = '#' := by simpa [hline, Script.isCommand] using h
    have hblank : Text.isBlank '#' = false := by decide
    simp [Text.firstWord?, hblank, Keyword.ofWord?_comment, Reading.complain, respond]

/-- A line that is typed at the prompt has the effect of the line. -/
theorem answerOn_unlimited (level : Level) (s : Session) (line : String) :
    (s.answerOn .unlimited level line).session = (s.execute line).1 ∧
      (s.answerOn .unlimited level line).broken = false := by
  simp only [answerOn, reply_executeOn_unlimited, session_executeOn_unlimited,
    Machine.draws_unlimited, if_true]
  split
  · rename_i hblank
    rw [execute_of_not_isCommand (by simp [hblank, Script.isCommand])]
    simp
  · split <;> simp

theorem converse_of_finished (level : Level) (h : s.finished) (lines : List String) :
    s.converse level lines = (s, "") := by
  cases lines <;> simp [converse, converseOn, h]

theorem converse_cons_fst (level : Level) (hs : s.finished = false) (lines : List String) :
    (s.converse level (line :: lines)).1 = ((s.execute line).1.converse level lines).1 := by
  obtain ⟨hsession, hbroken⟩ := answerOn_unlimited level s line
  simp [converse, converseOn, hs, hsession, hbroken]

theorem run_cons_fst (s : Session) (line : String) (lines : List String) :
    (s.run false (line :: lines)).1 =
      if (s.execute line).1.finished then (s.execute line).1
      else ((s.execute line).1.run false lines).1 := by
  simp only [run_cons, stops, Bool.false_and, Bool.or_false, apply_ite Prod.fst]

/-- A conversation has the effect of the commands among its lines. -/
theorem converse_eq_run (level : Level) (lines : List String) (hs : s.finished = false) :
    (s.converse level lines).1 = (s.run false (Script.select lines)).1 := by
  induction lines generalizing s with
  | nil => rfl
  | cons line lines ih =>
    rw [converse_cons_fst level hs, Script.select_cons]
    split
    · rw [run_cons_fst, execute_strip]
      split
      · rename_i hfinished
        rw [converse_of_finished level hfinished]
      · rename_i hfinished
        exact ih (by simpa using hfinished)
    · rename_i hcomment
      rw [execute_of_not_isCommand (by simpa using hcomment), ih hs]

/-- Lines that are typed one after the other, up to the end of the input, lead to the same session
as a script that consists of these lines. -/
theorem converse_eq_run_script (strict : Bool) (symbols : SymbolSet) (level : Level)
    (lines : List String) (hlines : ∀ line ∈ lines, ∀ c ∈ line.toList, Text.isLineBreak c = false)
    (files : FileTree) (path : Path)
    (hfile : files.read path.text = .ok ("\n".intercalate lines).toUTF8.data.toList) :
    ∃ commands, files.script path = .ok commands ∧
      ((start strict symbols).run false commands).1 =
        ((start strict symbols).converse level lines).1 := by
  have hreturn : '\r' ∉ ("\n".intercalate lines).toList := by
    rw [String.toList_intercalate]
    intro hmem
    obtain hsep | ⟨cs, hcs, hmem⟩ := mem_or_mem_of_mem_intercalate hmem
    · simp at hsep
    · obtain ⟨line, hline, rfl⟩ := List.mem_map.1 hcs
      exact absurd (hlines line hline _ hmem) (by decide)
  refine ⟨Script.select lines, ?_, (converse_eq_run level lines rfl).symm⟩
  rw [FileTree.script, hfile, Script.ofContents, Script.ofBytes, Text.ofFile_toUTF8 hreturn]
  simp [Script.commands_intercalate hlines]

/-- Comments, blank lines, blanks around commands, and lines after the end of the session. -/
theorem converse_eq_run_script_comments :
    let lines := ["\t# (A & B)", " assume (A & B)", "", "E n 0 A\u00a0", "QUIT now", "assume B"]
    let files : FileTree :=
      ⟨[(⟨.above 0, ["p"]⟩, .file ("\n".intercalate lines).toUTF8.data.toList)]⟩
    (∀ line ∈ lines, ∀ c ∈ line.toList, Text.isLineBreak c = false) ∧
      ∃ commands, files.script ⟨"", ["p"]⟩ = .ok commands ∧
        ((start true .logic).run false commands).1 =
          ((start true .logic).converse .info lines).1 := by
  intro lines files
  have hlines : ∀ line ∈ lines, ∀ c ∈ line.toList, Text.isLineBreak c = false := by
    simp [lines, Text.isLineBreak]
  have hread : files.read (Path.text ⟨"", ["p"]⟩) =
      .ok ("\n".intercalate lines).toUTF8.data.toList := rfl
  exact ⟨hlines, converse_eq_run_script true .logic .info lines hlines files ⟨"", ["p"]⟩ hread⟩

end Session

end NaturalDeduction
