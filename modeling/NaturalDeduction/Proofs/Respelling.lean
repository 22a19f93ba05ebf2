import Mathlib.Data.List.Basic
import NaturalDeduction.Proofs.Spelling

/-!
# Respelled texts

A text in the symbols of logic is respelled in ASCII character by character, and some symbols become
several characters. Formulas are written in both sets of symbols without a detour over the other
one. Yet a formula that is written in the symbols of logic and then respelled is the formula
written in ASCII, unless the name of an atom holds a symbol of logic: the symbols of a formula may
be respelled, but names stay as they are.

## Main definitions

* `SymbolSet.logicSymbols`: the characters that are respelled
* `Formula.Plain`: no name of an atom holds such a character

## Main statements

* `SymbolSet.label_append`: respelling goes part by part
* `SymbolSet.label_eq_self`: a text without symbols of logic stays as it is
* `Formula.label_text`: respelling a written formula
* `Formula.label_text_eq_iff_plain`: when the two ways of writing a formula agree
-/

namespace NaturalDeduction

/-! ## Respelling -/

namespace SymbolSet

variable {c d : Char} {text : String}

/-- The symbols of logic. -/
def logicSymbols : List Char := ['∧', '∨', '¬', '→', '↔', '⊥']

theorem notMem_logicSymbols_of_lt (hc : c.toNat < 128) : c ∉ logicSymbols := by
  intro hmem
  simp only [logicSymbols, List.mem_cons, List.not_mem_nil, or_false] at hmem
  obtain rfl | rfl | rfl | rfl | rfl | rfl := hmem <;> exact absurd hc (by decide)

/-- The symbols of logic are respelled, and nothing else is. -/
theorem asciiSpelling_eq_self_iff : asciiSpelling c = [c] ↔ c ∉ logicSymbols := by
  unfold asciiSpelling
  split
  case h_7 h₁ h₂ h₃ h₄ h₅ h₆ => simpa [logicSymbols] using ⟨h₁, h₂, h₃, h₄, h₅, h₆⟩
  all_goals decide

/-- No spelling holds a symbol that would have to be respelled. -/
theorem notMem_logicSymbols_of_mem_asciiSpelling (hd : d ∈ asciiSpelling c) :
    d ∉ logicSymbols := by
  by_cases hc : c ∈ logicSymbols
  · have hall : ∀ c ∈ logicSymbols, ∀ d ∈ asciiSpelling c, d ∉ logicSymbols := by
      simp [logicSymbols, asciiSpelling]
    exact hall c hc d hd
  · rw [asciiSpelling_eq_self_iff.2 hc, List.mem_singleton] at hd
    exact hd ▸ hc

theorem label_append (s : SymbolSet) (a b : String) :
    s.label (a ++ b) = s.label a ++ s.label b := by
  cases s <;> simp [label]

theorem notMem_logicSymbols_of_mem_label (hc : c ∈ (SymbolSet.ascii.label text).toList) :
    c ∉ logicSymbols := by
  simp only [label, String.toList_ofList, List.mem_flatMap] at hc
  obtain ⟨d, -, hc⟩ := hc
  exact notMem_logicSymbols_of_mem_asciiSpelling hc

theorem label_eq_self (s : SymbolSet) (h : ∀ c ∈ text.toList, c ∉ logicSymbols) :
    s.label text = text := by
  cases s with
  | logic => rfl
  | ascii =>
    have hself : text.toList.flatMap asciiSpelling = text.toList.flatMap fun c => [c] :=
      List.flatMap_congr fun c hc => asciiSpelling_eq_self_iff.2 (h c hc)
    simp [label, hself]

/-- The tables of the symbols and of their spellings agree. -/
theorem label_symbol (s : SymbolSet) (k : Connective) :
    s.label (k.symbol .logic) = k.symbol s := by
  cases s with
  | logic => rfl
  | ascii => rcases k with _ | _ | (_ | _ | _ | _) <;> decide

end SymbolSet

/-! ## Respelled formulas -/

namespace Formula

open SymbolSet

variable {f : Formula} {name : String} {c : Char}

/-- No name of an atom holds a symbol of logic. -/
def Plain (f : Formula) : Prop := ∀ name ∈ f.names, ∀ c ∈ name.toList, c ∉ logicSymbols

/-- The names of the atoms are part of a written formula. -/
theorem mem_text_of_mem_names (s : SymbolSet) (hname : name ∈ f.names) (hc : c ∈ name.toList) :
    c ∈ (f.text s).toList := by
  induction f with
  | atom name' =>
    obtain rfl := List.mem_singleton.1 hname
    exact hc
  | absurd => cases hname
  | not f ih => simp [text, ih hname]
  | binary op l r ihl ihr =>
    obtain hl | hr := List.mem_append.1 hname
    · simp [text, ihl hl]
    · simp [text, ihr hr]

/-- A formula in the symbols of logic becomes the same formula in another set if its symbols are
respelled. -/
theorem label_text (s : SymbolSet) (h : f.Plain) : s.label (f.text .logic) = f.text s := by
  have hopen : s.label "(" = "(" := by cases s <;> decide
  have hclose : s.label ")" = ")" := by cases s <;> decide
  have hspace : s.label " " = " " := by cases s <;> decide
  induction f with
  | atom name => exact label_eq_self s (h name List.mem_cons_self)
  | absurd => exact label_symbol s .absurd
  | not f ih => simp only [text, label_append, label_symbol, hopen, hclose, ih h]
  | binary op l r ihl ihr =>
    have hl := ihl fun name hname => h name (List.mem_append_left _ hname)
    have hr := ihr fun name hname => h name (List.mem_append_right _ hname)
    have hop : s.label (op.symbol .logic) = op.symbol s := by
      simpa [Connective.symbol] using label_symbol s (.binary op)
    simp only [text, label_append, hopen, hclose, hspace, hop, hl, hr]

/-- A formula written in the symbols of logic and then respelled in ASCII is the formula written in
ASCII, exactly if no name of an atom holds a symbol of logic. -/
theorem label_text_eq_iff_plain (f : Formula) :
    SymbolSet.ascii.label (f.text .logic) = f.text .ascii ↔ f.Plain := by
  constructor
  · intro h name hname c hc
    -- A symbol in a name would be left in the text in ASCII, but not in a respelled one.
    have hmem := mem_text_of_mem_names .ascii hname hc
    rw [← h] at hmem
    exact notMem_logicSymbols_of_mem_label hmem
  · exact label_text .ascii

/-- A name that holds a symbol of logic would be respelled as well. -/
theorem label_text_eq_iff_plain_arrow :
    everyConnective.Plain ∧
      SymbolSet.ascii.label (everyConnective.text .logic) = everyConnective.text .ascii ∧
      ¬ (atom "A→B").Plain ∧
      SymbolSet.ascii.label ((atom "A→B").text .logic) ≠ (atom "A→B").text .ascii := by
  have hplain : everyConnective.Plain := by
    simp [Plain, everyConnective, names, logicSymbols]
  have harrow : ¬ (atom "A→B").Plain := by
    intro h
    exact h "A→B" List.mem_cons_self '→' (by decide) (by decide)
  exact ⟨hplain, (label_text_eq_iff_plain _).2 hplain, harrow,
    mt (label_text_eq_iff_plain _).1 harrow⟩

end Formula

end NaturalDeduction
