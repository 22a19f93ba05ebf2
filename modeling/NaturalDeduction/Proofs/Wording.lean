import Mathlib.Data.List.Forall2
import NaturalDeduction.Proofs.Construction
import NaturalDeduction.Proofs.Spelling
import NaturalDeduction.Proofs.Words
import NaturalDeduction.Session.Basic

/-!
# The wording of operations

Every operation can be asked for by a command. A command consists of keywords, which may be
shortened and written in any letter case, of decimal numerals for the cited lines and of a written
formula, with blanks between and around them. However it is written, a command for an operation is
read as that operation, and so a session carries it out as the document itself would.

## Main definitions

* `Text.IsNumeral`: a decimal numeral for an integer
* `Part`: what a command consists of
* `Part.WrittenAs`: how a part can be written
* `Operation.parts`: the parts of the command for an operation
* `Operation.WrittenAs`: a line asks for an operation

## Main statements

* `Text.IsNumeral.integer?`: a numeral is read as its integer
* `Command.outcome_of_writtenAs`: a command for an operation is read as the operation
* `Session.execute_of_writtenAs`: it has the effect of the operation
-/

namespace NaturalDeduction

/-! ## Numerals -/

namespace Text

variable {c : Char} {cs ds : List Char} {i : Int}

/-- A decimal numeral of at most 4300 digits, which may have a minus sign. -/
inductive IsNumeral : List Char → Int → Prop
  | natural {ds : List Char} (hne : ds ≠ []) (hdigit : ∀ c ∈ ds, c.isDigit)
      (hlength : ds.length ≤ 4300) : IsNumeral ds (Nat.ofDigitChars 10 ds 0)
  | negative {ds : List Char} (hne : ds ≠ []) (hdigit : ∀ c ∈ ds, c.isDigit)
      (hlength : ds.length ≤ 4300) : IsNumeral ('-' :: ds) (-(Nat.ofDigitChars 10 ds 0 : Int))

theorem toNat_of_isDigit (hc : c.isDigit) : 0x30 ≤ c.toNat ∧ c.toNat < 0x3A :=
  (Char.isDigit_iff_toNat.1 hc).imp_right Nat.lt_succ_of_le

theorem digit?_of_isDigit (hc : c.isDigit) : digit? c = some (c.toNat - '0'.toNat) := by
  have hzero : zeros.find? (fun z => z ≤ c.toNat && c.toNat < z + 10) = some 0x30 :=
    List.find?_cons_of_pos (by simpa using toNat_of_isDigit hc)
  rw [digit?, hzero]
  rfl

theorem digits?_of_isDigit (hne : ds ≠ []) (hds : ∀ c ∈ ds, c.isDigit) :
    digits? ds = some (ds.map fun c => c.toNat - '0'.toNat) := by
  induction ds with
  | nil => exact absurd rfl hne
  | cons c ds ih =>
    rw [List.forall_mem_cons] at hds
    cases ds with
    | nil => simp [digits?, digit?_of_isDigit hds.1]
    | cons d ds =>
      have hd : d ≠ '_' := by
        rintro rfl
        exact absurd (hds.2 '_' List.mem_cons_self) (by decide)
      have htail := ih (List.cons_ne_nil d ds) hds.2
      simp [digits?, hd, digit?_of_isDigit hds.1, htail]

theorem natural?_of_isDigit (hne : ds ≠ []) (hds : ∀ c ∈ ds, c.isDigit)
    (hlength : ds.length ≤ 4300) : natural? ds = some (Nat.ofDigitChars 10 ds 0) := by
  have hmax : ds.length ≤ maxDigits := hlength
  simp [natural?, digits?_of_isDigit hne hds, hmax, ofDigits, Nat.ofDigitChars, List.foldl_map]

theorem isBlank_of_isDigit (hc : c.isDigit) : isBlank c = false := by
  have hrange := toNat_of_isDigit hc
  simp [isBlank]
  omega

theorem IsNumeral.isWord (h : IsNumeral cs i) : IsWord cs := by
  cases h with
  | natural hne hdigit _ => exact ⟨hne, fun c hc => isBlank_of_isDigit (hdigit c hc)⟩
  | negative hne hdigit _ =>
    refine ⟨List.cons_ne_nil _ _, List.forall_mem_cons.2 ⟨by decide, ?_⟩⟩
    exact fun c hc => isBlank_of_isDigit (hdigit c hc)

/-- A numeral is read as its integer. -/
theorem IsNumeral.integer? (h : IsNumeral cs i) : integer? cs = some i := by
  rw [Text.integer?, h.isWord.solid.strip]
  cases h with
  | natural hne hdigit hlength =>
    obtain ⟨d, ds, rfl⟩ := List.exists_cons_of_ne_nil hne
    have hd := hdigit d List.mem_cons_self
    split
    · exact absurd hd (by simp_all)
    · exact absurd hd (by simp_all)
    · simp [natural?_of_isDigit hne hdigit hlength]
  | negative hne hdigit hlength => simp [natural?_of_isDigit hne hdigit hlength]

end Text

/-! ## Keywords -/

/-- The words for a keyword. -/
def Keyword.words : Keyword → List String
  | assume => ["assume", "a"]
  | suppose => ["subproof", "s"]
  | discharge => ["end", "n"]
  | delete => ["delete", "d"]
  | reiterate => ["reiterate", "r"]
  | rule .introduction => ["intro", "i"]
  | rule .elimination => ["elim", "e"]
  | draw => ["show"]
  | help => ["help", "h"]
  | quit => ["quit", "q"]

/-- The words for a connective. -/
def Connective.words : Connective → List String
  | binary .and => ["and", "n"]
  | binary .or => ["or", "o"]
  | not => ["not", "t"]
  | binary .implies => ["implies", "i"]
  | binary .iff => ["iff", "f"]
  | absurd => ["absurd", "a"]

/-! ## Parts of commands -/

/-- A part of a command. -/
inductive Part where
  | keyword (k : Keyword)
  | connective (c : Connective)
  | index (c : LineRef)
  | formula (f : Formula)

/-- The part can be written as the text: a keyword and a connective by one of their words, in any
letter case, the index of a line as a numeral, and a formula in one of the two sets of symbols. -/
inductive Part.WrittenAs : Part → List Char → Prop
  | keyword {k : Keyword} {word : String} {cs : List Char} (hmem : word ∈ k.words)
      (hcs : cs.map Char.toLower = word.toList) : WrittenAs (.keyword k) cs
  | connective {c : Connective} {word : String} {cs : List Char} (hmem : word ∈ c.words)
      (hcs : cs.map Char.toLower = word.toList) : WrittenAs (.connective c) cs
  | index {i : Int} {cs : List Char} (h : Text.IsNumeral cs i) : WrittenAs (.index (.number i)) cs
  | formula {f : Formula} (s : SymbolSet) (h : f.Named) :
      WrittenAs (.formula f) (f.text s).toList

/-- The parts of a command for a rule. -/
def RuleKind.parts (kind : RuleKind) (c : Connective) (arguments : List Part) : List Part :=
  .keyword (.rule kind) :: .connective c :: arguments

open RuleKind in
/-- The parts of a command for an inference. -/
def Inference.parts : Inference LineRef → List Part
  | reiterate i => [.keyword .reiterate, .index i]
  | andIntro i j => introduction.parts (.binary .and) [.index i, .index j]
  | andElim i f => elimination.parts (.binary .and) [.index i, .formula f]
  | orIntro i f => introduction.parts (.binary .or) [.index i, .formula f]
  | orElim i j k => elimination.parts (.binary .or) [.index i, .index j, .index k]
  | notIntro j => introduction.parts .not [.index j]
  | notElim i => elimination.parts .not [.index i]
  | impliesIntro j => introduction.parts (.binary .implies) [.index j]
  | impliesElim i j => elimination.parts (.binary .implies) [.index i, .index j]
  | iffIntro j k => introduction.parts (.binary .iff) [.index j, .index k]
  | iffElim i j => elimination.parts (.binary .iff) [.index i, .index j]
  | absurdIntro i j => introduction.parts .absurd [.index i, .index j]
  | absurdElim i f => elimination.parts .absurd [.index i, .formula f]

/-- The parts of a command for an operation. -/
def Operation.parts : Operation → List Part
  | assume f => [.keyword .assume, .formula f]
  | suppose f => [.keyword .suppose, .formula f]
  | discharge => [.keyword .discharge]
  | delete => [.keyword .delete]
  | infer i => i.parts

/-- The line is a command for the operation: its parts are written in order, with blanks between
them and, possibly, around them. -/
def Operation.WrittenAs (op : Operation) (line : String) : Prop :=
  ∃ ws, List.Forall₂ Part.WrittenAs op.parts ws ∧ Text.Spaced ws line.toList

/-! ## Words in any letter case -/

section

variable {c : Char} {cs : List Char} {word : String}

/-- The word consists of small letters. -/
def Text.IsPlain (word : String) : Prop := word ≠ "" ∧ word.toList.all Char.isLower

instance (word : String) : Decidable (Text.IsPlain word) := inferInstanceAs (Decidable (_ ∧ _))

theorem Keyword.isPlain {k : Keyword} : ∀ word ∈ k.words, Text.IsPlain word := by
  rcases k with _ | _ | _ | _ | _ | (_ | _) | _ | _ | _ <;> decide

theorem Keyword.lookup_names {k : Keyword} : ∀ word ∈ k.words, names.lookup word = some k := by
  rcases k with _ | _ | _ | _ | _ | (_ | _) | _ | _ | _ <;> decide

theorem Connective.isPlain {c : Connective} : ∀ word ∈ c.words, Text.IsPlain word := by
  rcases c with _ | _ | (_ | _ | _ | _) <;> decide

theorem Connective.lookup_names {c : Connective} :
    ∀ word ∈ c.words, names.lookup word = some c := by
  rcases c with _ | _ | (_ | _ | _ | _) <;> decide

theorem Text.isBlank_of_isLower (hc : c.isLower) : isBlank c = false := by
  obtain ⟨hge, hle⟩ := Bool.and_eq_true_iff.1 hc
  have hge : 97 ≤ c.toNat := UInt32.le_iff_toNat_le.1 (of_decide_eq_true hge)
  have hle : c.toNat ≤ 122 := UInt32.le_iff_toNat_le.1 (of_decide_eq_true hle)
  simp [isBlank]
  omega

/-- A letter is not blank. -/
theorem Text.isBlank_of_isLower_toLower (hc : c.toLower.isLower) : isBlank c = false := by
  by_cases hupper : 'A'.val ≤ c.val ∧ c.val ≤ 'Z'.val
  · refine isBlank_of_isAtomChar ?_
    rw [isAtomChar_eq_isUpper]
    exact decide_eq_true hupper
  · have hsame : c.toLower = c := dif_neg hupper
    exact isBlank_of_isLower (hsame ▸ hc)

namespace Text.IsPlain

variable (hword : IsPlain word) (hcs : cs.map Char.toLower = word.toList)

include hword hcs

theorem isLower_toLower : ∀ c ∈ cs, c.toLower.isLower := by
  intro c hc
  exact List.all_eq_true.1 hword.2 _ (hcs ▸ List.mem_map_of_mem hc)

theorem isWord : IsWord cs where
  ne_nil := by
    rintro rfl
    exact hword.1 (String.toList_eq_nil_iff.1 hcs.symm)
  not_blank c hc := isBlank_of_isLower_toLower (hword.isLower_toLower hcs c hc)

/-- The Kelvin sign is not among the letters of a word. -/
theorem lowerAscii : String.ofList (Text.lowerAscii cs) = word := by
  have hchar : ∀ c ∈ cs, lowerChar c = c.toLower := by
    intro c hc
    have hne : c ≠ '\u212A' := by
      rintro rfl
      exact absurd (hword.isLower_toLower hcs _ hc) (by decide)
    exact if_neg hne
  rw [Text.lowerAscii, List.map_congr_left hchar, hcs, String.ofList_toList]

end Text.IsPlain

end

/-! ## Finding the parts -/

section

variable {p : Part} {parts : List Part} {cs w : List Char} {f : Formula}

theorem Formula.solid_text (s : SymbolSet) (h : f.Named) : Text.Solid (f.text s).toList := by
  have hparens (cs : List Char) : Text.Solid ('(' :: (cs ++ [')'])) :=
    ⟨by simp, by simp; decide, by simp [List.getLast?_cons]; decide⟩
  cases f with
  | atom name =>
    obtain ⟨hne, hchars⟩ := isName_iff.1 (h name List.mem_cons_self)
    exact Text.IsWord.solid ⟨hne, fun c hc => isBlank_of_isAtomChar (hchars c hc)⟩
  | absurd =>
    cases s <;> exact Text.IsWord.solid ⟨by decide, List.forall_mem_singleton.2 (by decide)⟩
  | not f => simpa [text] using hparens ((Connective.not.symbol s).toList ++ (f.text s).toList)
  | binary op l r =>
    simpa [text] using hparens ((l.text s).toList ++
      ' ' :: ((op.symbol s).toList ++ ' ' :: (r.text s).toList))

namespace Part.WrittenAs

theorem isWord_keyword {k : Keyword} (h : WrittenAs (.keyword k) w) : Text.IsWord w := by
  cases h with
  | keyword hmem hcs => exact (Keyword.isPlain _ hmem).isWord hcs

theorem isWord_connective {c : Connective} (h : WrittenAs (.connective c) w) : Text.IsWord w := by
  cases h with
  | connective hmem hcs => exact (Connective.isPlain _ hmem).isWord hcs

theorem isWord_index {c : LineRef} (h : WrittenAs (.index c) w) : Text.IsWord w := by
  cases h with
  | index h => exact h.isWord

theorem solid (h : p.WrittenAs w) : Text.Solid w := by
  cases p with
  | keyword k => exact h.isWord_keyword.solid
  | connective c => exact h.isWord_connective.solid
  | index c => exact h.isWord_index.solid
  | formula f =>
    cases h with
    | formula s h => exact Formula.solid_text s h

theorem ofWord?_keyword {k : Keyword} (h : WrittenAs (.keyword k) w) :
    Keyword.ofWord? w = some k := by
  cases h with
  | keyword hmem hcs =>
    rw [Keyword.ofWord?, (Keyword.isPlain _ hmem).lowerAscii hcs, Keyword.lookup_names _ hmem]

theorem ofWord?_connective {c : Connective} (h : WrittenAs (.connective c) w) :
    Connective.ofWord? w = some c := by
  cases h with
  | connective hmem hcs =>
    rw [Connective.ofWord?, (Connective.isPlain _ hmem).lowerAscii hcs,
      Connective.lookup_names _ hmem]

end Part.WrittenAs

/-- The text consists of the parts, with blanks between them. -/
def Phrase (parts : List Part) (cs : List Char) : Prop :=
  ∃ ws, List.Forall₂ Part.WrittenAs parts ws ∧ Text.Joined ws cs

theorem solid_of_forall₂ {ws : List (List Char)} (h : List.Forall₂ Part.WrittenAs parts ws) :
    ∀ w ∈ ws, Text.Solid w := by
  induction h with
  | nil => simp
  | cons hw _ ih => exact List.forall_mem_cons.2 ⟨hw.solid, ih⟩

theorem Phrase.firstWord? (h : Phrase (p :: parts) cs)
    (hp : ∀ w, p.WrittenAs w → Text.IsWord w) :
    ∃ w rest, Text.firstWord? cs = some (w, rest) ∧ p.WrittenAs w ∧ Phrase parts rest := by
  obtain ⟨_, hparts, hcs⟩ := h
  cases hparts with
  | cons hw hparts =>
    obtain ⟨rest, hfirst, hrest⟩ := hcs.firstWord? (hp _ hw) (solid_of_forall₂ hparts)
    exact ⟨_, rest, hfirst, hw, _, hparts, hrest⟩

theorem Operation.WrittenAs.phrase {op : Operation} {line : String} (h : op.WrittenAs line) :
    Phrase op.parts (Text.strip line.toList) := by
  obtain ⟨ws, hparts, hline⟩ := h
  exact ⟨ws, hparts, hline.strip (solid_of_forall₂ hparts)⟩

/-! ## Reading a command -/

variable {c c' c'' : LineRef}

theorem Part.WrittenAs.integer? (h : WrittenAs (.index c) w) :
    ∃ i, c = .number i ∧ Text.integer? w = some i := by
  cases h with
  | index h => exact ⟨_, rfl, h.integer?⟩

theorem Part.WrittenAs.parse (h : WrittenAs (.formula f) w) :
    Formula.parse (String.ofList w) = .ok f := by
  cases h with
  | formula s h => rw [String.ofList_toList, (Formula.spells_text s h).parse]

theorem Reading.outcome_index {op : LineRef → Operation} (h : Part.WrittenAs (.index c) w) :
    (Reading.index w op).outcome = .ok (.operate (op c)) := by
  obtain ⟨i, rfl, hi⟩ := h.integer?
  simp [Reading.index, hi, Reading.command]

theorem Reading.outcome_formula {op : Formula → Operation} (h : Part.WrittenAs (.formula f) w) :
    (Reading.formula w op).outcome = .ok (.operate (op f)) := by
  simp [Reading.formula, h.parse]

/-- A part that stands alone is the whole text. -/
theorem Phrase.single (h : Phrase [p] cs) : p.WrittenAs cs := by
  obtain ⟨_, hparts, hcs⟩ := h
  cases hparts with
  | cons hw hnil =>
    cases hnil
    cases hcs
    exact hw

/-- Numerals are found as the words of the text. -/
theorem Phrase.words_index {refs : List LineRef} (h : Phrase (refs.map .index) cs) :
    List.Forall₂ (fun c w => ∃ i, c = .number i ∧ Text.integer? w = some i) refs
      (Text.words cs) := by
  obtain ⟨ws, hws, hcs⟩ := h
  rw [List.forall₂_map_left_iff] at hws
  have hword : ∀ w ∈ ws, Text.IsWord w := by
    clear hcs
    induction hws with
    | nil => simp
    | cons hw _ ih => exact List.forall_mem_cons.2 ⟨hw.isWord_index, ih⟩
  rw [hcs.words hword]
  exact hws.imp fun c w hw => hw.integer?

namespace RuleForm

theorem outcome_one {build : LineRef → Inference LineRef} (h : Phrase [.index c] cs) :
    ((one build).read cs).outcome = .ok (.operate (.infer (build c))) := by
  have hwords : List.Forall₂ _ [c] _ := Phrase.words_index h
  unfold read
  generalize Text.words cs = ws at hwords
  rcases hwords with _ | ⟨⟨i, rfl, hi⟩, ⟨⟩⟩
  simp [Reading.index, Reading.command, hi]

theorem outcome_two {build : LineRef → LineRef → Inference LineRef}
    (h : Phrase [.index c, .index c'] cs) :
    ((two build).read cs).outcome = .ok (.operate (.infer (build c c'))) := by
  have hwords : List.Forall₂ _ [c, c'] _ := Phrase.words_index h
  unfold read
  generalize Text.words cs = ws at hwords
  rcases hwords with _ | ⟨⟨i, rfl, hi⟩, _ | ⟨⟨j, rfl, hj⟩, ⟨⟩⟩⟩
  simp [Reading.index, Reading.command, hi, hj]

theorem outcome_three {build : LineRef → LineRef → LineRef → Inference LineRef}
    (h : Phrase [.index c, .index c', .index c''] cs) :
    ((three build).read cs).outcome = .ok (.operate (.infer (build c c' c''))) := by
  have hwords : List.Forall₂ _ [c, c', c''] _ := Phrase.words_index h
  unfold read
  generalize Text.words cs = ws at hwords
  rcases hwords with _ | ⟨⟨i, rfl, hi⟩, _ | ⟨⟨j, rfl, hj⟩, _ | ⟨⟨k, rfl, hk⟩, ⟨⟩⟩⟩⟩
  simp [Reading.index, Reading.command, hi, hj, hk]

/-- The formula takes up all that follows the index, blanks included. -/
theorem outcome_oneAndFormula {build : LineRef → Formula → Inference LineRef}
    (h : Phrase [.index c, .formula f] cs) :
    ((oneAndFormula build).read cs).outcome = .ok (.operate (.infer (build c f))) := by
  obtain ⟨_, hws, hcs⟩ := h
  rcases hws with _ | ⟨hindex, _ | ⟨hformula, ⟨⟩⟩⟩
  obtain ⟨i, rfl, hi⟩ := hindex.integer?
  simp [read, hcs.splitWords_one hindex.isWord_index hformula.solid, Reading.formula, hi,
    hformula.parse]

end RuleForm

theorem RuleKind.outcome_read {kind : RuleKind} {connective : Connective} {i : Inference LineRef}
    (h : Phrase (.connective connective :: parts) cs)
    (hform : ∀ rest, Phrase parts rest →
      ((kind.form connective).read rest).outcome = .ok (.operate (.infer i))) :
    (kind.read cs).outcome = .ok (.operate (.infer i)) := by
  obtain ⟨w, rest, hfirst, hw, hrest⟩ := h.firstWord? fun w => Part.WrittenAs.isWord_connective
  simp [RuleKind.read, hfirst, hw.ofWord?_connective, hform rest hrest]

namespace Command

variable {line : String} {op : Operation}

theorem outcome_read {k : Keyword} (h : Phrase (.keyword k :: parts) (Text.strip line.toList))
    (hread : ∀ rest, Phrase parts rest → (k.read rest).outcome = .ok (.operate op)) :
    (read line).outcome = .ok (.operate op) := by
  obtain ⟨w, rest, hfirst, hw, hrest⟩ := h.firstWord? fun w => Part.WrittenAs.isWord_keyword
  simp [read, hfirst, hw.ofWord?_keyword, hread rest hrest]

theorem outcome_rule {kind : RuleKind} {connective : Connective} {i : Inference LineRef}
    (h : Phrase (kind.parts connective parts) (Text.strip line.toList))
    (hform : ∀ rest, Phrase parts rest →
      ((kind.form connective).read rest).outcome = .ok (.operate (.infer i))) :
    (read line).outcome = .ok (.operate (.infer i)) :=
  outcome_read h fun _ hrest => RuleKind.outcome_read hrest hform

/-- A command for an operation is read as the operation. -/
theorem outcome_of_writtenAs (h : op.WrittenAs line) :
    (read line).outcome = .ok (.operate op) := by
  have hphrase := h.phrase
  cases op with
  | assume f => exact outcome_read hphrase fun _ h => Reading.outcome_formula h.single
  | suppose f => exact outcome_read hphrase fun _ h => Reading.outcome_formula h.single
  | discharge => exact outcome_read hphrase fun _ _ => rfl
  | delete => exact outcome_read hphrase fun _ _ => rfl
  | infer i =>
    cases i with
    | reiterate i => exact outcome_read hphrase fun _ h => Reading.outcome_index h.single
    | andIntro i j => exact outcome_rule hphrase fun _ h => RuleForm.outcome_two h
    | andElim i f => exact outcome_rule hphrase fun _ h => RuleForm.outcome_oneAndFormula h
    | orIntro i f => exact outcome_rule hphrase fun _ h => RuleForm.outcome_oneAndFormula h
    | orElim i j k => exact outcome_rule hphrase fun _ h => RuleForm.outcome_three h
    | notIntro j => exact outcome_rule hphrase fun _ h => RuleForm.outcome_one h
    | notElim i => exact outcome_rule hphrase fun _ h => RuleForm.outcome_one h
    | impliesIntro j => exact outcome_rule hphrase fun _ h => RuleForm.outcome_one h
    | impliesElim i j => exact outcome_rule hphrase fun _ h => RuleForm.outcome_two h
    | iffIntro j k => exact outcome_rule hphrase fun _ h => RuleForm.outcome_two h
    | iffElim i j => exact outcome_rule hphrase fun _ h => RuleForm.outcome_two h
    | absurdIntro i j => exact outcome_rule hphrase fun _ h => RuleForm.outcome_two h
    | absurdElim i f => exact outcome_rule hphrase fun _ h => RuleForm.outcome_oneAndFormula h

end Command

namespace Session

/-- A command for an operation has the effect of the operation: it is answered by success exactly
if the document accepts the operation, and nothing is changed but the document, which is changed as
by the operation itself. -/
theorem execute_of_writtenAs (s : Session) (op : Operation) (line : String)
    (h : op.WrittenAs line) :
    (s.execute line).2.ok = (s.document.apply op).isOk ∧
      (s.execute line).1 = { s with document := s.document.attempt op } := by
  simp only [execute, session_executeOn, reply_executeOn, Command.outcome_of_writtenAs h, respond,
    Document.apply, Document.attempt]
  rcases hcall : s.document.call .unlimited op with ⟨⟨r | _⟩ | _, k⟩
  · exact ⟨rfl, rfl⟩
  · exact absurd hcall Document.call_unlimited_ne_overflow
  · exact ⟨rfl, rfl⟩

/-- A short form, capitals, several kinds of blanks, a sign and a formula with spaces. -/
theorem execute_of_writtenAs_recased :
    let f := Formula.and (.atom "A") (.atom "B")
    let d := (Document.empty true).run [.assume (.or .absurd f), .assume (.and f .absurd)]
    let s : Session := ⟨d, .ascii, false⟩
    let op := Operation.infer (.andElim (.number 1) f)
    let line := "\tELIM  n\u00a001 \u3000(A ∧ B)\n"
    op.WrittenAs line ∧ (s.execute line).2.ok ∧ (s.execute line).1.document.lines.length = 3 := by
  intro f d s op line
  have hkeyword : Part.WrittenAs (.keyword (.rule .elimination)) ['E', 'L', 'I', 'M'] :=
    .keyword (show "elim" ∈ _ by decide) (by decide)
  have hconnective : Part.WrittenAs (.connective (.binary .and)) ['n'] :=
    .connective (show "n" ∈ _ by decide) (by decide)
  have hindex : Part.WrittenAs (.index (.number 1)) ['0', '1'] :=
    .index (.natural (by decide) (List.all_eq_true.1 (by decide)) (by decide))
  have hformula : Part.WrittenAs (.formula f) "(A ∧ B)".toList := .formula .logic (by decide)
  have h : op.WrittenAs line := by
    refine ⟨_, .cons hkeyword (.cons hconnective (.cons hindex (.cons hformula .nil))),
      ['\t'], ['E', 'L', 'I', 'M'] ++ ([' ', ' '] ++ (['n'] ++ (['\u00a0'] ++ (['0', '1'] ++
        ([' ', '\u3000'] ++ "(A ∧ B)".toList))))), ['\n'], by decide,
      List.all_eq_true.1 (by decide), List.all_eq_true.1 (by decide), ?_⟩
    exact .cons (by decide) (List.all_eq_true.1 (by decide)) <|
      .cons (by decide) (List.all_eq_true.1 (by decide)) <|
      .cons (by decide) (List.all_eq_true.1 (by decide)) .single
  obtain ⟨hok, hsession⟩ := execute_of_writtenAs s op line h
  refine ⟨h, ?_, ?_⟩
  · rw [hok]
    decide
  · rw [hsession]
    decide

end Session

end

end NaturalDeduction
