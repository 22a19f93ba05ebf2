import NaturalDeduction.Formula.Parser
import NaturalDeduction.Proofs.Lexing

/-!
# The grammar of formulas

A formula is read from its tokens one by one, with a stack of what has been begun. Here the
sequences of tokens that are formulas are described by a grammar, and the reading is shown to
follow it: a stack stands for the tokens that were read, divided into formulas that are complete
and formulas that are not.

## Main definitions

* `Sentence`: the grammar
* `Progress.run`: the state after some tokens
* `Opens`, `Progress.Reads`: the tokens that a stack and a state stand for

## Main statements

* `Sentence.run_append`: reading a formula completes it
* `Progress.Reads.next`: one more token is read
* `Progress.run_eq_some_iff`: the tokens that are read as a formula are those of the grammar
* `Scan.parse_eq_ok_iff`: a scanned text is a formula if it has no illegal character and its
  tokens are a sentence
-/

namespace NaturalDeduction

variable {ts us vs : List Token} {t : Token} {f : Formula} {stack : List Frame} {p q : Progress}

/-- The tokens of a formula. -/
inductive Sentence : List Token → Formula → Prop
  | atom (name : String) : Sentence [.atom name] (.atom name)
  | absurd : Sentence [.symbol .absurd] .absurd
  | not {ts : List Token} {f : Formula} (h : Sentence ts f) :
      Sentence (.symbol .not :: ts) (.not f)
  | group {ts : List Token} {f : Formula} (h : Sentence ts f) :
      Sentence (.opening :: (ts ++ [.closing])) f
  | binary {ts us : List Token} {l r : Formula} (op : BinOp) (hl : Sentence ts l)
      (hr : Sentence us r) :
      Sentence (.opening :: (ts ++ .symbol (.binary op) :: us ++ [.closing])) (.binary op l r)

namespace Progress

/-- The state after some tokens, if each of them can follow. -/
def run (p : Progress) (ts : List Token) : Option Progress := ts.foldlM next? p

@[simp] theorem run_nil (p : Progress) : p.run [] = some p := rfl

@[simp] theorem run_cons (p : Progress) (t : Token) (ts : List Token) :
    p.run (t :: ts) = (p.next? t).bind (·.run ts) := rfl

theorem read_eq_ok_iff {ls : List Lexeme} :
    p.read ls = .ok q ↔ p.run (ls.map (·.token)) = some q := by
  induction ls generalizing p with
  | nil => simp [read]
  | cons l ls ih =>
    cases h : p.next? l.token with
    | none => simp [read, h]
    | some p' => simp [read, h, ih]

theorem finish_eq_ok_iff : p.finish = .ok f ↔ p = holding f [] := by
  unfold finish
  split
  · simp
  · simpa using ‹∀ g, p = holding g [] → False› f

end Progress

/-! ## Reading what the grammar allows -/

open Progress in
/-- Reading the tokens of a formula completes it, whatever has been begun before. -/
theorem Sentence.run_append (h : Sentence ts f) (stack : List Frame) (rest : List Token) :
    (awaiting stack).run (ts ++ rest) = (complete f stack).run rest := by
  induction h generalizing stack rest with
  | atom name => rfl
  | absurd => rfl
  | not h ih => simp [next?, ih, complete]
  | group h ih => simp [next?, ih, complete]
  | binary op hl hr ihl ihr => simp [next?, ihl, ihr, complete]

/-! ## What has been read -/

/-- The tokens that begin the formulas of a stack. -/
inductive Opens : List Token → List Frame → Prop
  | nil : Opens [] []
  | negation {ts : List Token} {stack : List Frame} (h : Opens ts stack) :
      Opens (ts ++ [.symbol .not]) (.negation :: stack)
  | group {ts : List Token} {stack : List Frame} (h : Opens ts stack) :
      Opens (ts ++ [.opening]) (.group :: stack)
  | operand {ts us : List Token} {stack : List Frame} {l : Formula} (op : BinOp)
      (h : Opens ts stack) (hl : Sentence us l) :
      Opens (ts ++ .opening :: (us ++ [.symbol (.binary op)])) (.operand op l :: stack)

namespace Progress

/-- The tokens that lead to a state. -/
def Reads (ts : List Token) : Progress → Prop
  | awaiting stack => Opens ts stack
  | holding f stack => ∃ us vs, ts = us ++ vs ∧ Opens us stack ∧ Sentence vs f

end Progress

/-- A formula may be completed after what has been begun. -/
theorem Opens.reads_complete (h : Opens us stack) (hf : Sentence vs f) :
    (Progress.complete f stack).Reads (us ++ vs) := by
  induction h generalizing vs f with
  | negation h ih =>
    rw [List.append_assoc]
    exact ih hf.not
  | nil => exact ⟨_, _, rfl, .nil, hf⟩
  | group h => exact ⟨_, _, rfl, .group h, hf⟩
  | operand op h hl => exact ⟨_, _, rfl, .operand op h hl, hf⟩

namespace Progress

theorem Reads.next (h : p.Reads ts) (hq : p.next? t = some q) : q.Reads (ts ++ [t]) := by
  unfold next? at hq
  split at hq <;> cases hq
  · exact h.reads_complete (.atom _)
  · exact h.reads_complete .absurd
  · exact h.negation
  · exact h.group
  · obtain ⟨us, vs, rfl, h, hf⟩ := h
    cases h with
    | group h => simpa [Reads] using h.operand _ hf
  · obtain ⟨us, vs, rfl, h, hf⟩ := h
    cases h with
    | group h => simpa using h.reads_complete hf.group
  · obtain ⟨us, vs, rfl, h, hf⟩ := h
    cases h with
    | operand _ h hl => simpa using h.reads_complete (.binary _ hl hf)

theorem Reads.run (h : p.Reads us) (hq : p.run ts = some q) : q.Reads (us ++ ts) := by
  induction ts generalizing p us with
  | nil =>
    cases hq
    simpa using h
  | cons t ts ih =>
    obtain ⟨p', hp', hq⟩ := Option.bind_eq_some_iff.1 hq
    simpa using ih (h.next hp') hq

theorem run_eq_some_iff : (awaiting []).run ts = some (holding f []) ↔ Sentence ts f := by
  constructor
  · intro h
    have hstart : (awaiting []).Reads [] := Opens.nil
    obtain ⟨us, vs, hts, hopens, hf⟩ := hstart.run h
    cases hopens
    obtain rfl : ts = vs := by simpa using hts
    exact hf
  · intro h
    simpa [complete] using h.run_append [] []

end Progress

theorem Scan.parse_eq_ok_iff {s : Scan} :
    s.parse = .ok f ↔ s.illegal = none ∧ Sentence s.tokens f := by
  rw [← Progress.run_eq_some_iff, tokens, ← Progress.read_eq_ok_iff]
  unfold parse
  cases h : (Progress.awaiting []).read s.lexemes <;> cases s.illegal <;>
    simp [Progress.finish_eq_ok_iff]

end NaturalDeduction
