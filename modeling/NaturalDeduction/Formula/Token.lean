import NaturalDeduction.Formula.Basic

/-!
# Tokens

A text is divided into lexemes from left to right. At each place the spellings of the symbols are
tried in a fixed order, and then a run of capital letters, which is an atom. Spaces, tabs and the
two line end characters between lexemes are skipped. The scan stops at the first character that
starts no lexeme.

## Main definitions

* `Token`: what a lexeme means
* `Lexeme`: a token with its text and place
* `spellings`: the spellings of the symbols
* `lexeme?`: the lexeme at the start of a text
* `scan`: all lexemes, up to the end or the first illegal character
-/

namespace NaturalDeduction

inductive Token where
  | atom (name : String)
  | symbol (c : Connective)
  | opening
  | closing
deriving DecidableEq

/-- The name of a token's class. -/
def Token.kind : Token → String
  | atom _ => "ATOM"
  | symbol .absurd => "ABSURD"
  | symbol .not => "NOT"
  | symbol (.binary .and) => "AND"
  | symbol (.binary .or) => "OR"
  | symbol (.binary .implies) => "IMPLIES"
  | symbol (.binary .iff) => "IFF"
  | opening => "LPAREN"
  | closing => "RPAREN"

/-- A token, the characters that spell it and the place where they start. -/
structure Lexeme where
  token : Token
  text : List Char
  start : Nat
deriving DecidableEq

/-- The place after the last character of a lexeme. -/
def Lexeme.stop (l : Lexeme) : Nat := l.start + l.text.length

/-- A character that starts no lexeme, and its place. -/
structure Illegal where
  char : Char
  position : Nat
deriving DecidableEq

/-- The lexemes of a text, up to its end or to an illegal character. -/
structure Scan where
  lexemes : List Lexeme
  illegal : Option Illegal
deriving DecidableEq

namespace Token

/-- The spellings of the symbols, in the order in which they are tried. -/
def spellings : List (List Char × Token) :=
  [(['<', '=', '>'], symbol (.binary .iff)), (['↔'], symbol (.binary .iff)),
   (['=', '>'], symbol (.binary .implies)), (['→'], symbol (.binary .implies)),
   (['#'], symbol .absurd), (['⊥'], symbol .absurd),
   (['~'], symbol .not), (['¬'], symbol .not),
   (['&'], symbol (.binary .and)), (['^'], symbol (.binary .and)), (['∧'], symbol (.binary .and)),
   (['|'], symbol (.binary .or)), (['∨'], symbol (.binary .or)),
   (['('], opening), ([')'], closing)]

/-- The characters that are skipped between lexemes. -/
def isIgnored (c : Char) : Bool :=
  c = ' ' || c = '\t' || c = '\r' || c = '\n'

/-- The characters of atoms. -/
def isAtomChar (c : Char) : Bool :=
  'A' ≤ c && c ≤ 'Z'

/-- The symbol at the start of a text, with its spelling and the rest of the text. -/
def symbol? (cs : List Char) : Option (Token × List Char × List Char) :=
  spellings.findSome? fun (spelling, token) =>
    (spelling.isPrefixOf? cs).map fun rest => (token, spelling, rest)

/-- The atom at the start of a text, with its name and the rest of the text. -/
def atom? (cs : List Char) : Option (Token × List Char × List Char) :=
  match cs.takeWhile isAtomChar with
  | [] => none
  | name => some (.atom (String.ofList name), name, cs.dropWhile isAtomChar)

/-- The token at the start of a text, with its spelling and the rest of the text. -/
def first? (cs : List Char) : Option (Token × List Char × List Char) :=
  (symbol? cs).or (atom? cs)

/-- A spelling found at the start of a text is followed there by the rest. -/
theorem append_eq_of_isPrefixOf? {spelling cs rest : List Char}
    (h : spelling.isPrefixOf? cs = some rest) : spelling ++ rest = cs := by
  induction spelling generalizing cs with
  | nil => exact (Option.some.inj h).symm
  | cons c spelling ih =>
    cases cs with
    | nil => cases h
    | cons d cs =>
      change (if c == d then spelling.isPrefixOf? cs else none) = some rest at h
      split at h
      · rename_i hd
        rw [List.cons_append, ih h, eq_of_beq hd]
      · cases h

theorem symbol?_eq_some {cs spelling rest : List Char} {token : Token}
    (h : symbol? cs = some (token, spelling, rest)) :
    cs = spelling ++ rest ∧ (spelling, token) ∈ spellings := by
  obtain ⟨⟨s, t⟩, hmem, hs⟩ := List.exists_of_findSome?_eq_some h
  obtain ⟨r, hr, heq⟩ := Option.map_eq_some_iff.1 hs
  cases heq
  exact ⟨(append_eq_of_isPrefixOf? hr).symm, hmem⟩

theorem atom?_eq_some {cs name rest : List Char} {token : Token}
    (h : atom? cs = some (token, name, rest)) :
    cs = name ++ rest ∧ name ≠ [] ∧ token = .atom (String.ofList name) := by
  unfold atom? at h
  split at h
  · simp at h
  · rename_i run hne
    simp only [Option.some.injEq, Prod.mk.injEq] at h
    obtain ⟨rfl, rfl, rfl⟩ := h
    exact ⟨List.takeWhile_append_dropWhile.symm, hne, rfl⟩

theorem ne_nil_of_mem_spellings {spelling : List Char} {token : Token}
    (h : (spelling, token) ∈ spellings) : spelling ≠ [] := by
  rintro rfl
  simp [spellings] at h

/-- A token is spelled by the characters at the start of the text, at least one of them. -/
theorem first?_eq_some {cs spelling rest : List Char} {token : Token}
    (h : first? cs = some (token, spelling, rest)) : cs = spelling ++ rest ∧ spelling ≠ [] := by
  unfold first? at h
  rcases Option.or_eq_some_iff.1 h with h | ⟨-, h⟩
  · exact ⟨(symbol?_eq_some h).1, ne_nil_of_mem_spellings (symbol?_eq_some h).2⟩
  · exact ⟨(atom?_eq_some h).1, (atom?_eq_some h).2.1⟩

theorem length_rest_lt {cs spelling rest : List Char} {token : Token}
    (h : first? cs = some (token, spelling, rest)) : rest.length < cs.length := by
  obtain ⟨rfl, hne⟩ := first?_eq_some h
  have := List.length_pos_iff.2 hne
  simp only [List.length_append]
  omega

end Token

/-- Put a lexeme in front of a scan. -/
def Scan.cons (l : Lexeme) (s : Scan) : Scan :=
  { s with lexemes := l :: s.lexemes }

/-- The lexemes of a text whose first character has the given place. -/
def scanFrom (position : Nat) (cs : List Char) : Scan :=
  match cs with
  | [] => ⟨[], none⟩
  | c :: rest =>
    if Token.isIgnored c then scanFrom (position + 1) rest
    else
      match _h : Token.first? (c :: rest) with
      | none => ⟨[], some ⟨c, position⟩⟩
      | some (token, spelling, after) =>
        (scanFrom (position + spelling.length) after).cons ⟨token, spelling, position⟩
termination_by cs.length
decreasing_by
  · simp
  · exact Token.length_rest_lt _h

def scan (text : String) : Scan :=
  scanFrom 0 text.toList

end NaturalDeduction
