import Mathlib.Data.List.TakeWhile
import NaturalDeduction.Formula.Token

/-!
# Lexing

A scan divides a text into words that spell tokens, with blanks between them. It takes the words
greedily: a run of capital letters is one atom, however it might be divided. Where characters are
followed by something that does not continue an atom, what the scan takes from them does not
depend on what follows.

## Main definitions

* `Scan.tokens`: the tokens of a scan
* `Token.Word`: the words that spell a token
* `Written`: a text consists of words for some tokens, with blanks between them
* `Breaks`: a text before which an atom ends
* `Lexes`: what a scan takes from some characters

## Main statements

* `written_scanFrom`: a scanned text consists of words for its tokens
* `Lexes.symbol`, `Lexes.atom`, `Lexes.blank`, `Lexes.append`: what a scan takes from a text, put
  together from its parts
-/

namespace NaturalDeduction

def Scan.tokens (s : Scan) : List Token := s.lexemes.map (·.token)

@[simp] theorem Scan.tokens_cons (l : Lexeme) (s : Scan) :
    (s.cons l).tokens = l.token :: s.tokens := rfl

@[simp] theorem Scan.illegal_cons (l : Lexeme) (s : Scan) : (s.cons l).illegal = s.illegal := rfl

variable {cs ds w rest : List Char} {c : Char} {ts us : List Token} {t : Token} {position : Nat}

/-! ## Words -/

namespace Token

/-- The words that spell a token. -/
inductive Word : Token → List Char → Prop
  | symbol {t : Token} {w : List Char} (h : (w, t) ∈ spellings) : Word t w
  | atom {w : List Char} (hne : w ≠ []) (h : ∀ c ∈ w, isAtomChar c) :
      Word (.atom (String.ofList w)) w

/-- No symbol starts like an atom or a blank. -/
theorem head_of_mem_spellings (h : (c :: w, t) ∈ spellings) :
    isAtomChar c = false ∧ isIgnored c = false := by
  have hall : spellings.all fun s => s.1.head?.all fun c => !isAtomChar c && !isIgnored c := by
    decide
  simpa using List.all_eq_true.1 hall _ h

/-- No atom contains a blank. -/
theorem isAtomChar_of_isIgnored (h : isIgnored c) : isAtomChar c = false := by
  simp only [isIgnored, Bool.or_eq_true, decide_eq_true_eq] at h
  rcases h with ((rfl | rfl) | rfl) | rfl <;> decide

theorem word_of_first? (h : first? cs = some (t, w, rest)) : t.Word w := by
  rcases Option.or_eq_some_iff.1 h with h | ⟨-, h⟩
  · exact .symbol (symbol?_eq_some h).2
  · obtain ⟨-, hne, rfl⟩ := atom?_eq_some h
    refine .atom hne fun c hc => ?_
    unfold atom? at h
    split at h
    · cases h
    · simp only [Option.some.injEq, Prod.mk.injEq] at h
      obtain ⟨-, rfl, -⟩ := h
      exact List.mem_takeWhile_imp hc

theorem Word.mem_spellings (h : t.Word w) (ht : ∀ name, t ≠ .atom name) :
    (w, t) ∈ spellings := by
  cases h with
  | symbol h => exact h
  | atom => exact absurd rfl (ht _)

theorem symbol?_eq_none (hc : isAtomChar c) : symbol? (c :: cs) = none := by
  by_contra hsome
  obtain ⟨⟨t, w, rest⟩, h⟩ := Option.ne_none_iff_exists'.1 hsome
  obtain ⟨heq, hmem⟩ := symbol?_eq_some h
  cases w with
  | nil => exact ne_nil_of_mem_spellings hmem rfl
  | cons d w =>
    obtain ⟨rfl, -⟩ := List.cons.inj heq
    simpa [hc] using (head_of_mem_spellings hmem).1

/-- A symbol is found whatever follows it. -/
theorem first?_symbol (h : (w, t) ∈ spellings) (rest : List Char) :
    first? (w ++ rest) = some (t, w, rest) := by
  simp only [spellings, List.mem_cons, Prod.mk.injEq, List.not_mem_nil, or_false] at h
  rcases h with h | h | h | h | h | h | h | h | h | h | h | h | h | h | h <;>
    obtain ⟨rfl, rfl⟩ := h <;> rfl

end Token

/-- The text does not start with a character that would continue an atom. -/
def Breaks (cs : List Char) : Prop := ∀ c ∈ cs.head?, Token.isAtomChar c = false

open Token

theorem breaks_nil : Breaks [] := by simp [Breaks]

theorem breaks_cons (h : isAtomChar c = false) : Breaks (c :: cs) := by simp [Breaks, h]

theorem breaks_symbol (h : (w, t) ∈ spellings) (rest : List Char) : Breaks (w ++ rest) := by
  cases w with
  | nil => exact absurd rfl (ne_nil_of_mem_spellings h)
  | cons c w => exact breaks_cons (head_of_mem_spellings h).1

theorem Breaks.takeWhile_eq_nil (h : Breaks rest) : rest.takeWhile isAtomChar = [] := by
  cases rest with
  | nil => rfl
  | cons c rest => simp [h c rfl]

theorem Breaks.dropWhile_eq_self (h : Breaks rest) : rest.dropWhile isAtomChar = rest := by
  cases rest with
  | nil => rfl
  | cons c rest => simp [h c rfl]

/-- An atom is found up to the next character that does not continue it. -/
theorem Token.first?_atom (hne : w ≠ []) (hw : ∀ c ∈ w, isAtomChar c) (hrest : Breaks rest) :
    first? (w ++ rest) = some (.atom (String.ofList w), w, rest) := by
  have hatom : atom? (w ++ rest) = some (.atom (String.ofList w), w, rest) := by
    unfold atom?
    rw [List.takeWhile_append_of_pos hw, List.dropWhile_append_of_pos hw,
      hrest.takeWhile_eq_nil, hrest.dropWhile_eq_self, List.append_nil]
    split
    · exact absurd rfl hne
    · rfl
  cases w with
  | nil => exact absurd rfl hne
  | cons c w =>
    rw [first?, hatom, List.cons_append, symbol?_eq_none (hw c List.mem_cons_self)]
    rfl

/-! ## The steps of a scan -/

theorem Token.Word.exists_cons (h : t.Word w) : ∃ c v, w = c :: v ∧ isIgnored c = false := by
  cases h with
  | symbol h =>
    cases w with
    | nil => exact absurd rfl (ne_nil_of_mem_spellings h)
    | cons c v => exact ⟨c, v, rfl, (head_of_mem_spellings h).2⟩
  | atom hne h =>
    cases w with
    | nil => exact absurd rfl hne
    | cons c v =>
      refine ⟨c, v, rfl, ?_⟩
      by_contra hc
      simpa [isAtomChar_of_isIgnored (Bool.not_eq_false _ ▸ hc)] using h c List.mem_cons_self

theorem scanFrom_nil (position : Nat) : scanFrom position [] = ⟨[], none⟩ := by rw [scanFrom]

theorem scanFrom_blank (hc : isIgnored c) :
    scanFrom position (c :: cs) = scanFrom (position + 1) cs := by
  rw [scanFrom, if_pos hc]

theorem scanFrom_word (hw : t.Word w) (h : first? (w ++ rest) = some (t, w, rest)) :
    scanFrom position (w ++ rest) =
      (scanFrom (position + w.length) rest).cons ⟨t, w, position⟩ := by
  obtain ⟨c, v, rfl, hc⟩ := hw.exists_cons
  rw [List.cons_append] at h ⊢
  rw [scanFrom, if_neg (by simp [hc])]
  split
  · simp_all
  · rename_i heq
    rw [h] at heq
    cases heq
    rfl

/-! ## From a scan to its text -/

/-- The text consists of words for the tokens, with blanks before, between and after them. -/
inductive Written : List Char → List Token → Prop
  | nil : Written [] []
  | blank {c : Char} {cs : List Char} {ts : List Token} (hc : isIgnored c)
      (h : Written cs ts) : Written (c :: cs) ts
  | word {w cs : List Char} {t : Token} {ts : List Token} (hw : t.Word w) (h : Written cs ts) :
      Written (w ++ cs) (t :: ts)

/-- A text without an illegal character consists of words for its tokens. -/
theorem written_scanFrom (h : (scanFrom position cs).illegal = none) :
    Written cs (scanFrom position cs).tokens := by
  fun_induction scanFrom position cs with
  | case1 => exact .nil
  | case2 position c rest hc ih => exact .blank hc (ih h)
  | case3 => cases h
  | case4 position c rest hc t w after hfirst ih =>
    rw [(first?_eq_some hfirst).1]
    exact .word (word_of_first? hfirst) (ih h)

namespace Written

theorem blanks_append (h : Written cs ts) {bs : List Char} (hbs : ∀ c ∈ bs, isIgnored c) :
    Written (bs ++ cs) ts := by
  induction bs with
  | nil => exact h
  | cons b bs ih =>
    rw [List.forall_mem_cons] at hbs
    exact .blank hbs.1 (ih hbs.2)

theorem append (h : Written cs ts) (h' : Written ds us) : Written (cs ++ ds) (ts ++ us) := by
  induction h with
  | nil => exact h'
  | blank hc h ih => exact .blank hc ih
  | word hw h ih =>
    rw [List.append_assoc]
    exact .word hw ih

theorem isIgnored_of_nil (h : Written cs []) : ∀ c ∈ cs, isIgnored c := by
  generalize hts : ([] : List Token) = ts at h
  induction h with
  | nil => simp
  | blank hc h ih => simpa [hc] using ih hts
  | word hw h => cases hts

theorem of_cons (h : Written cs (t :: ts)) :
    ∃ bs w ds, cs = bs ++ (w ++ ds) ∧ (∀ c ∈ bs, isIgnored c) ∧ t.Word w ∧ Written ds ts := by
  generalize hus : t :: ts = us at h
  induction h with
  | nil => cases hus
  | @blank c cs us hc h ih =>
    obtain ⟨bs, w, ds, rfl, hbs, hw, hds⟩ := ih hus
    exact ⟨c :: bs, w, ds, rfl, by simpa [hc] using hbs, hw, hds⟩
  | @word w cs u us hw h =>
    cases hus
    exact ⟨[], w, cs, rfl, by simp, hw, h⟩

theorem of_append (h : Written cs (ts ++ us)) :
    ∃ as bs, cs = as ++ bs ∧ Written as ts ∧ Written bs us := by
  induction ts generalizing cs with
  | nil => exact ⟨[], cs, rfl, .nil, h⟩
  | cons t ts ih =>
    obtain ⟨bs, w, ds, rfl, hbs, hw, h⟩ := h.of_cons
    obtain ⟨as, ds, rfl, has, hds⟩ := ih h
    exact ⟨bs ++ (w ++ as), ds, by simp, .blanks_append (.word hw has) hbs, hds⟩

/-- What stands between a pair of parentheses. -/
theorem of_parens (h : Written cs (.opening :: (ts ++ [.closing]))) :
    ∃ bs ds es, cs = bs ++ ('(' :: (ds ++ [')']) ++ es) ∧ (∀ c ∈ bs, isIgnored c) ∧
      Written ds ts ∧ ∀ c ∈ es, isIgnored c := by
  obtain ⟨bs, w, as, rfl, hbs, hw, has⟩ := h.of_cons
  obtain rfl : w = ['('] := by simpa [spellings] using hw.mem_spellings
  obtain ⟨ds, fs, rfl, hds, hfs⟩ := has.of_append
  obtain ⟨bs', w, es, rfl, hbs', hw', hes⟩ := hfs.of_cons
  obtain rfl : w = [')'] := by simpa [spellings] using hw'.mem_spellings
  refine ⟨bs, ds ++ bs', es, by simp, hbs, ?_, hes.isIgnored_of_nil⟩
  simpa using hds.append (Written.nil.blanks_append hbs')

end Written

/-! ## From a text to its scan -/

/-- Before anything that does not continue an atom, a scan takes the tokens from the characters
and goes on after them. -/
def Lexes (cs : List Char) (ts : List Token) : Prop :=
  ∀ (position : Nat) (rest : List Char), Breaks rest →
    (scanFrom position (cs ++ rest)).tokens =
        ts ++ (scanFrom (position + cs.length) rest).tokens ∧
      (scanFrom position (cs ++ rest)).illegal = (scanFrom (position + cs.length) rest).illegal

namespace Lexes

theorem nil : Lexes [] [] := by simp [Lexes]

theorem blank (hc : isIgnored c) (h : Lexes cs ts) : Lexes (c :: cs) ts := by
  intro position rest hrest
  obtain ⟨htokens, hillegal⟩ := h (position + 1) rest hrest
  rw [List.cons_append, scanFrom_blank hc, List.length_cons, ← Nat.add_assoc,
    Nat.add_right_comm position]
  exact ⟨htokens, hillegal⟩

theorem symbol (hw : (w, t) ∈ spellings) (h : Lexes cs ts) : Lexes (w ++ cs) (t :: ts) := by
  intro position rest hrest
  obtain ⟨htokens, hillegal⟩ := h (position + w.length) rest hrest
  rw [List.append_assoc, scanFrom_word (.symbol hw) (first?_symbol hw _), List.length_append,
    ← Nat.add_assoc]
  exact ⟨by simp [htokens], hillegal⟩

theorem atom (hne : w ≠ []) (hw : ∀ c ∈ w, isAtomChar c) :
    Lexes w [.atom (String.ofList w)] := by
  intro position rest hrest
  rw [scanFrom_word (.atom hne hw) (first?_atom hne hw hrest)]
  exact ⟨rfl, rfl⟩

theorem append (h : Lexes cs ts) (h' : Lexes ds us) (hds : Breaks ds) :
    Lexes (cs ++ ds) (ts ++ us) := by
  intro position rest hrest
  have hbreaks : Breaks (ds ++ rest) := by
    cases ds with
    | nil => exact hrest
    | cons d ds => exact breaks_cons (hds d rfl)
  obtain ⟨htokens, hillegal⟩ := h position (ds ++ rest) hbreaks
  obtain ⟨htokens', hillegal'⟩ := h' (position + cs.length) rest hrest
  rw [List.append_assoc, htokens, htokens', hillegal, hillegal', List.length_append,
    ← Nat.add_assoc, List.append_assoc]
  exact ⟨rfl, rfl⟩

theorem parens (h : Lexes cs ts) :
    Lexes ('(' :: (cs ++ [')'])) (.opening :: (ts ++ [.closing])) := by
  have hclosing : Lexes [')'] [.closing] := symbol (w := [')']) (by decide) nil
  exact symbol (w := ['(']) (by decide) (h.append hclosing (breaks_cons (by decide)))

/-- The scan of a whole text. -/
theorem scan (h : Lexes cs ts) (position : Nat) :
    (scanFrom position cs).tokens = ts ∧ (scanFrom position cs).illegal = none := by
  simpa [scanFrom_nil, Scan.tokens] using h position [] breaks_nil

end Lexes

end NaturalDeduction
