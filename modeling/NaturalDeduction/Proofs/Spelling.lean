import NaturalDeduction.Formula.Printer
import NaturalDeduction.Proofs.Grammar

/-!
# Spellings of formulas

A formula can be spelled in many ways: its connectives have several symbols, it may be put in
redundant parentheses, and there may be blanks between its parts. The texts that can be read are
exactly the spellings, and none of them spells two formulas. The written forms of a formula are
among its spellings.

## Main definitions

* `Connective.spellings`: the symbols of a connective
* `IsName`: the names that an atom can be written with
* `Spells`: a text spells a formula
* `Formula.Named`: all atoms of a formula can be written

## Main statements

* `Spells.exists_lexes`: the tokens of a spelling are a sentence
* `Sentence.spells`: a sentence that is written down is a spelling
* `Formula.parse_eq_ok_iff_spells`: a text is read as a formula exactly if it spells it
* `Formula.parse_text`: a written formula is read as itself
-/

namespace NaturalDeduction

open Token

variable {cs ds bs w : List Char} {c : Char} {ts : List Token} {f : Formula}

/-! ## Spellings -/

/-- The symbols of a connective. -/
def Connective.spellings : Connective → List (List Char)
  | absurd => [['#'], ['⊥']]
  | not => [['~'], ['¬']]
  | binary .and => [['&'], ['^'], ['∧']]
  | binary .or => [['|'], ['∨']]
  | binary .implies => [['=', '>'], ['→']]
  | binary .iff => [['<', '=', '>'], ['↔']]

/-- The characters that may stand between the parts of a formula. -/
def blanks : List Char := [' ', '\t', '\r', '\n']

/-- Atoms are named by the capital letters from A to Z. -/
def IsName (name : String) : Prop := name ≠ "" ∧ name.toList.all Char.isUpper

instance (name : String) : Decidable (IsName name) := inferInstanceAs (Decidable (_ ∧ _))

/-- The text spells the formula. A connective is written with one of its symbols, and a binary one
stands between its operands, inside a pair of parentheses. Every part may be put in parentheses
once more and may have blanks around it. -/
inductive Spells : List Char → Formula → Prop
  | atom {name : String} (h : IsName name) : Spells name.toList (.atom name)
  | absurd {w : List Char} (hw : w ∈ Connective.absurd.spellings) : Spells w .absurd
  | not {w cs : List Char} {f : Formula} (hw : w ∈ Connective.not.spellings)
      (h : Spells cs f) : Spells (w ++ cs) (.not f)
  | binary {w cs ds : List Char} {l r : Formula} {op : BinOp} (hl : Spells cs l)
      (hw : w ∈ (Connective.binary op).spellings) (hr : Spells ds r) :
      Spells ('(' :: (cs ++ (w ++ ds) ++ [')'])) (.binary op l r)
  | group {cs : List Char} {f : Formula} (h : Spells cs f) : Spells ('(' :: (cs ++ [')'])) f
  | blankBefore {c : Char} {cs : List Char} {f : Formula} (hc : c ∈ blanks)
      (h : Spells cs f) : Spells (c :: cs) f
  | blankAfter {c : Char} {cs : List Char} {f : Formula} (h : Spells cs f) (hc : c ∈ blanks) :
      Spells (cs ++ [c]) f

theorem isIgnored_iff : isIgnored c ↔ c ∈ blanks := by
  simp [isIgnored, blanks, or_assoc]

theorem mem_spellings_iff {c : Connective} :
    (w, Token.symbol c) ∈ Token.spellings ↔ w ∈ c.spellings := by
  rcases c with _ | _ | (_ | _ | _ | _) <;> simp [Token.spellings, Connective.spellings]

theorem isAtomChar_eq_isUpper (c : Char) : isAtomChar c = c.isUpper :=
  (Bool.decide_and ('A' ≤ c) (c ≤ 'Z')).symm

theorem isName_iff {name : String} :
    IsName name ↔ name.toList ≠ [] ∧ ∀ c ∈ name.toList, isAtomChar c := by
  simp [IsName, isAtomChar_eq_isUpper]

theorem Token.Word.eq_toList {name : String} (h : (Token.atom name).Word w) :
    w = name.toList ∧ IsName name := by
  cases h with
  | symbol h => simp [Token.spellings] at h
  | atom hne h => exact ⟨by simp, isName_iff.2 (by simpa using ⟨hne, h⟩)⟩

theorem Token.Word.mem_symbols {c : Connective} (h : (Token.symbol c).Word w) :
    w ∈ c.spellings :=
  mem_spellings_iff.1 (h.mem_spellings (by simp))

/-! ## Reading a spelling -/

theorem Spells.exists_lexes (h : Spells cs f) : ∃ ts, Sentence ts f ∧ Lexes cs ts := by
  induction h with
  | @atom name h =>
    obtain ⟨hne, h⟩ := isName_iff.1 h
    exact ⟨_, .atom name, by simpa using Lexes.atom hne h⟩
  | absurd hw =>
    have hlex := Lexes.symbol (mem_spellings_iff.2 hw) .nil
    exact ⟨_, .absurd, by simpa using hlex⟩
  | not hw h ih =>
    obtain ⟨ts, hts, hlex⟩ := ih
    exact ⟨_, .not hts, .symbol (mem_spellings_iff.2 hw) hlex⟩
  | @binary w cs ds l r op hl hw hr ihl ihr =>
    obtain ⟨ts, hts, hlexl⟩ := ihl
    obtain ⟨us, hus, hlexr⟩ := ihr
    have hw := mem_spellings_iff.2 hw
    have hlex := hlexl.append (.symbol hw hlexr) (breaks_symbol hw _)
    exact ⟨_, .binary op hts hus, hlex.parens⟩
  | group h ih =>
    obtain ⟨ts, hts, hlex⟩ := ih
    exact ⟨_, .group hts, hlex.parens⟩
  | blankBefore hc h ih =>
    obtain ⟨ts, hts, hlex⟩ := ih
    exact ⟨ts, hts, hlex.blank (isIgnored_iff.2 hc)⟩
  | @blankAfter c cs f h hc ih =>
    obtain ⟨ts, hts, hlex⟩ := ih
    have hc := isIgnored_iff.2 hc
    have hlex' := hlex.append (.blank hc .nil) (breaks_cons (isAtomChar_of_isIgnored hc))
    exact ⟨ts, hts, by simpa using hlex'⟩

/-! ## Spelling what has been read -/

theorem Spells.blanks_append (h : Spells cs f) (hbs : ∀ c ∈ bs, isIgnored c) :
    Spells (bs ++ cs) f := by
  induction bs with
  | nil => exact h
  | cons b bs ih =>
    rw [List.forall_mem_cons] at hbs
    exact .blankBefore (isIgnored_iff.1 hbs.1) (ih hbs.2)

theorem Spells.append_blanks (h : Spells cs f) (hbs : ∀ c ∈ bs, isIgnored c) :
    Spells (cs ++ bs) f := by
  induction bs generalizing cs with
  | nil => simpa using h
  | cons b bs ih =>
    rw [List.forall_mem_cons] at hbs
    simpa using ih (.blankAfter h (isIgnored_iff.1 hbs.1)) hbs.2

theorem Sentence.spells (h : Sentence ts f) (hcs : Written cs ts) : Spells cs f := by
  induction h generalizing cs with
  | atom name =>
    obtain ⟨bs, w, ds, rfl, hbs, hw, hds⟩ := hcs.of_cons
    obtain ⟨rfl, hname⟩ := hw.eq_toList
    exact ((Spells.atom hname).append_blanks hds.isIgnored_of_nil).blanks_append hbs
  | absurd =>
    obtain ⟨bs, w, ds, rfl, hbs, hw, hds⟩ := hcs.of_cons
    have hspells := Spells.absurd hw.mem_symbols
    exact (hspells.append_blanks hds.isIgnored_of_nil).blanks_append hbs
  | not h ih =>
    obtain ⟨bs, w, ds, rfl, hbs, hw, hds⟩ := hcs.of_cons
    exact (Spells.not hw.mem_symbols (ih hds)).blanks_append hbs
  | group h ih =>
    obtain ⟨bs, ds, es, rfl, hbs, hds, hes⟩ := hcs.of_parens
    exact ((ih hds).group.append_blanks hes).blanks_append hbs
  | binary op hl hr ihl ihr =>
    obtain ⟨bs, ds, es, rfl, hbs, hds, hes⟩ := hcs.of_parens
    obtain ⟨as, ds, rfl, has, hds⟩ := hds.of_append
    obtain ⟨bs', w, ds, rfl, hbs', hw, hds⟩ := hds.of_cons
    -- The blanks before the symbol are counted to the left operand.
    have hspells := Spells.binary ((ihl has).append_blanks hbs') hw.mem_symbols (ihr hds)
    rw [List.append_assoc as] at hspells
    exact (hspells.append_blanks hes).blanks_append hbs

/-! ## Texts that can be read -/

theorem Text.strip_eq_nil_iff : Text.strip cs = [] ↔ ∀ c ∈ cs, Text.isBlank c := by
  rw [Text.strip, List.reverse_eq_nil_iff, List.dropWhile_eq_nil_iff]
  constructor
  · intro h
    by_contra hnot
    -- The first character that is left is not blank.
    have hne := mt List.dropWhile_eq_nil_iff.1 hnot
    have hhead := List.head_dropWhile_not Text.isBlank hne
    simp [h _ (List.mem_reverse.2 (List.head_mem hne))] at hhead
  · intro h c hc
    exact h c ((List.dropWhile_sublist _).subset (List.mem_reverse.1 hc))

theorem isBlank_of_isAtomChar (h : isAtomChar c) : Text.isBlank c = false := by
  simp only [isAtomChar, Bool.and_eq_true, decide_eq_true_eq, Char.le_def,
    UInt32.le_iff_toNat_le] at h
  have hge : 65 ≤ c.toNat := h.1
  have hle : c.toNat ≤ 90 := h.2
  simp [Text.isBlank]
  omega

/-- Every spelling has a character that is not blank. -/
theorem Spells.exists_not_isBlank (h : Spells cs f) : ∃ c ∈ cs, Text.isBlank c = false := by
  induction h with
  | @atom name h =>
    obtain ⟨hne, h⟩ := isName_iff.1 h
    obtain ⟨c, hc⟩ := List.exists_mem_of_ne_nil name.toList hne
    exact ⟨c, hc, isBlank_of_isAtomChar (h c hc)⟩
  | absurd hw =>
    simp only [Connective.spellings, List.mem_cons, List.not_mem_nil, or_false] at hw
    obtain rfl | rfl := hw
    · exact ⟨'#', List.mem_cons_self, by decide⟩
    · exact ⟨'⊥', List.mem_cons_self, by decide⟩
  | not hw h ih =>
    obtain ⟨c, hc, hblank⟩ := ih
    exact ⟨c, by simp [hc], hblank⟩
  | binary => exact ⟨'(', List.mem_cons_self, by decide⟩
  | group => exact ⟨'(', List.mem_cons_self, by decide⟩
  | blankBefore hc h ih =>
    obtain ⟨c, hc, hblank⟩ := ih
    exact ⟨c, by simp [hc], hblank⟩
  | blankAfter h hc ih =>
    obtain ⟨c, hc, hblank⟩ := ih
    exact ⟨c, by simp [hc], hblank⟩

theorem Spells.parse {text : String} (h : Spells text.toList f) : Formula.parse text = .ok f := by
  have hne : Text.strip text.toList ≠ [] := by
    obtain ⟨c, hc, hblank⟩ := h.exists_not_isBlank
    intro hnil
    simp [Text.strip_eq_nil_iff.1 hnil c hc] at hblank
  obtain ⟨ts, hts, hlex⟩ := h.exists_lexes
  obtain ⟨htokens, hillegal⟩ := hlex.scan 0
  rw [Formula.parse, if_neg hne, scan, Scan.parse_eq_ok_iff, htokens]
  exact ⟨hillegal, hts⟩

theorem spells_of_parse {text : String} (h : Formula.parse text = .ok f) :
    Spells text.toList f := by
  unfold Formula.parse at h
  split at h
  · cases h
  · obtain ⟨hillegal, hts⟩ := Scan.parse_eq_ok_iff.1 h
    exact hts.spells (written_scanFrom hillegal)

namespace Formula

/-- A text is read as a formula exactly if it spells it, and no text spells two formulas. -/
theorem parse_eq_ok_iff_spells (text : String) :
    (∀ f, parse text = .ok f ↔ Spells text.toList f) ∧
      ∀ f g, Spells text.toList f → Spells text.toList g → f = g := by
  refine ⟨fun f => ⟨spells_of_parse, Spells.parse⟩, ?_⟩
  intro f g hf hg
  exact Except.ok.inj (hf.parse.symm.trans hg.parse)

/-- Redundant parentheses, blanks of two kinds and symbols of both sets in one text. -/
theorem parse_eq_ok_iff_spells_mixed :
    let text := "((A)\t^ ¬#)"
    let f := Formula.and (.atom "A") (.not .absurd)
    Spells text.toList f ∧ parse text = .ok f ∧ ∀ g, Spells text.toList g → f = g := by
  intro text f
  have hname : Spells ['A'] (.atom "A") := Spells.atom (show IsName "A" by decide)
  have hleft := hname.group.blankAfter (c := '\t') (by decide)
  have habsurd : Spells ['#'] .absurd := .absurd (by decide)
  have hright := (habsurd.not (w := ['¬']) (by decide)).blankBefore (c := ' ') (by decide)
  have hand : ['^'] ∈ (Connective.binary .and).spellings := by decide
  have h : Spells text.toList f := by simpa [text] using hleft.binary hand hright
  obtain ⟨hiff, hunique⟩ := parse_eq_ok_iff_spells text
  exact ⟨h, (hiff f).2 h, fun g hg => hunique f g h hg⟩

/-! ## Written formulas -/

/-- The names of the atoms of a formula. -/
def names : Formula → List String
  | atom name => [name]
  | absurd => []
  | not f => f.names
  | binary _ l r => l.names ++ r.names

/-- All atoms have names that can be written. -/
def Named (f : Formula) : Prop := ∀ name ∈ f.names, IsName name

instance (f : Formula) : Decidable f.Named := inferInstanceAs (Decidable (∀ _ ∈ _, _))

theorem symbol_mem_spellings (s : SymbolSet) (c : Connective) :
    (c.symbol s).toList ∈ c.spellings := by
  rcases c with _ | _ | (_ | _ | _ | _) <;> cases s <;> decide

/-- A written formula is a spelling. -/
theorem spells_text (s : SymbolSet) (h : f.Named) : Spells (f.text s).toList f := by
  induction f with
  | atom name => exact .atom (h name List.mem_cons_self)
  | absurd => exact .absurd (symbol_mem_spellings s .absurd)
  | not f ih =>
    have hspells := Spells.not (symbol_mem_spellings s .not) (ih h)
    simpa [text] using hspells.group
  | binary op l r ihl ihr =>
    have hl := ihl fun name hname => h name (List.mem_append_left _ hname)
    have hr := ihr fun name hname => h name (List.mem_append_right _ hname)
    have hspells := Spells.binary (hl.blankAfter (c := ' ') (by decide))
      (symbol_mem_spellings s (.binary op)) (hr.blankBefore (c := ' ') (by decide))
    simpa [text, Connective.symbol] using hspells

/-- A written formula is read as itself. -/
theorem parse_text (s : SymbolSet) (f : Formula) (h : f.Named) : parse (f.text s) = .ok f :=
  (spells_text s h).parse

/-- A formula with every connective. -/
def everyConnective : Formula :=
  .iff (.not (.implies (.atom "P") .absurd)) (.and (.atom "QR") (.or (.atom "R") (.atom "P")))

theorem parse_text_everyConnective :
    everyConnective.Named ∧ parse (everyConnective.text .ascii) = .ok everyConnective ∧
      parse (everyConnective.text .logic) = .ok everyConnective := by
  have h : everyConnective.Named := by decide
  exact ⟨h, parse_text .ascii _ h, parse_text .logic _ h⟩

end Formula

end NaturalDeduction
