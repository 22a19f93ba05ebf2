import NaturalDeduction.Proofs.Grammar

/-!
# Where a text stops being a formula

If a text is not a formula, the error names the first place where this shows. Some tokens are
viable if a formula begins with them. The reading goes on exactly as long as the tokens are
viable: a stack of what has been begun can always be finished, and no token is accepted that no
formula continues. So a token that cannot follow is found before anything behind it is looked at.

## Main definitions

* `Viable`: some formula begins with the tokens
* `Scan.FaultAt`: no formula begins with the tokens up to a place
* `Scan.Verdict`: what is to be said about a scanned text
* `Lexeme.StandsIn`: a lexeme is found in a text at its place

## Main statements

* `viable_iff_run`: the viable tokens are those that can be read
* `Scan.parse_eq_iff`: the verdict about a scanned text is its only outcome
* `Formula.parse_eq_iff_verdict`: what is said about a text, and that the places in it are right
-/

namespace NaturalDeduction

variable {ts us vs : List Token} {f : Formula} {stack : List Frame} {p q : Progress}
  {l : Lexeme} {ls : List Lexeme} {s : Scan}

/-! ## Viable tokens -/

/-- Some formula begins with the tokens. -/
def Viable (ts : List Token) : Prop := ∃ us f, Sentence (ts ++ us) f

theorem Sentence.viable (h : Sentence ts f) : Viable ts := ⟨[], f, by simpa using h⟩

theorem Viable.of_append (h : Viable (ts ++ us)) : Viable ts := by
  obtain ⟨vs, f, hf⟩ := h
  exact ⟨us ++ vs, f, by simpa using hf⟩

theorem Viable.take (h : Viable ts) (k : Nat) : Viable (ts.take k) := by
  rw [← List.take_append_drop k ts] at h
  exact h.of_append

/-- What has been begun can be finished after any formula: its parentheses are closed. -/
theorem Opens.viable_append (h : Opens us stack) (hf : Sentence vs f) : Viable (us ++ vs) := by
  induction h generalizing vs f with
  | nil => exact hf.viable
  | negation h ih =>
    rw [List.append_assoc]
    exact ih hf.not
  | group h ih =>
    have hgroup := ih hf.group
    rw [← List.cons_append, ← List.append_assoc] at hgroup
    simpa using hgroup.of_append
  | operand op h hl ih =>
    have hbinary := ih (.binary op hl hf)
    rw [← List.cons_append, ← List.append_assoc] at hbinary
    simpa using hbinary.of_append

theorem Progress.Reads.viable (h : p.Reads ts) : Viable ts := by
  cases p with
  | awaiting stack => exact (Opens.viable_append h .absurd).of_append
  | holding f stack =>
    obtain ⟨us, vs, rfl, hopens, hf⟩ := h
    exact hopens.viable_append hf

theorem Progress.run_append (p : Progress) (ts us : List Token) :
    p.run (ts ++ us) = (p.run ts).bind (·.run us) := List.foldlM_append

theorem viable_iff_run : Viable ts ↔ ∃ p, (Progress.awaiting []).run ts = some p := by
  constructor
  · rintro ⟨us, f, hf⟩
    have hrun := Progress.run_eq_some_iff.2 hf
    rw [Progress.run_append] at hrun
    obtain ⟨p, hp, -⟩ := Option.bind_eq_some_iff.1 hrun
    exact ⟨p, hp⟩
  · rintro ⟨p, hp⟩
    have hstart : (Progress.awaiting []).Reads [] := Opens.nil
    simpa using (hstart.run hp).viable

/-! ## The first token that cannot follow -/

/-- A reading fails at the first lexeme that cannot follow, whatever comes behind it. -/
theorem Progress.exists_of_read_eq_error {e : ParseError} (h : p.read ls = .error e) :
    ∃ ms l rest q, ls = ms ++ l :: rest ∧ p.run (ms.map (·.token)) = some q ∧
      q.next? l.token = none ∧ e = .unexpected l := by
  induction ls generalizing p with
  | nil => cases h
  | cons l ls ih =>
    cases hnext : p.next? l.token with
    | none =>
      simp only [read, hnext, Except.error.injEq] at h
      exact ⟨[], l, ls, p, rfl, rfl, hnext, h.symm⟩
    | some p' =>
      simp only [read, hnext] at h
      obtain ⟨ms, m, rest, q, rfl, hq, hm, he⟩ := ih h
      exact ⟨l :: ms, m, rest, q, rfl, by simp [hnext, hq], hm, he⟩

namespace Scan

/-- The tokens up to and including the one at an index are the beginning of no formula. -/
def FaultAt (s : Scan) (k : Nat) : Prop :=
  k < s.lexemes.length ∧ ¬ Viable (s.tokens.take (k + 1))

/-- What is to be said about a scanned text. The first token with which no formula can begin any
more comes before an illegal character, and this one before the end of the text. -/
inductive Verdict (s : Scan) : Except ParseError Formula → Prop
  | unexpected {k : Nat} {l : Lexeme} (hl : s.lexemes[k]? = some l) (hfault : s.FaultAt k)
      (hfirst : ∀ j < k, ¬ s.FaultAt j) : Verdict s (.error (.unexpected l))
  | illegal {i : Illegal} (hviable : ∀ k, ¬ s.FaultAt k) (hi : s.illegal = some i) :
      Verdict s (.error (.illegal i))
  | unexpectedEnd (hviable : ∀ k, ¬ s.FaultAt k) (hlegal : s.illegal = none)
      (hnot : ∀ f, ¬ Sentence s.tokens f) : Verdict s (.error .unexpectedEnd)
  | formula {f : Formula} (hviable : ∀ k, ¬ s.FaultAt k) (hlegal : s.illegal = none)
      (hf : Sentence s.tokens f) : Verdict s (.ok f)

theorem not_faultAt_of_viable (h : Viable s.tokens) (k : Nat) : ¬ s.FaultAt k :=
  fun hk => hk.2 (h.take _)

/-- The lexeme at which a reading fails is the first fault. -/
theorem verdict_of_next?_eq_none {ms rest : List Lexeme} (hs : s.lexemes = ms ++ l :: rest)
    (hq : (Progress.awaiting []).run (ms.map (·.token)) = some q)
    (hl : q.next? l.token = none) : s.Verdict (.error (.unexpected l)) := by
  have htokens : s.tokens = ms.map (·.token) ++ [l.token] ++ rest.map (·.token) := by
    simp [tokens, hs]
  refine .unexpected (k := ms.length) (by simp [hs]) ⟨by simp [hs], ?_⟩ ?_
  · rw [htokens, List.take_left' (by simp), viable_iff_run, Progress.run_append, hq]
    simp [hl]
  · intro j hj hfault
    have hlt : j + 1 ≤ (ms.map (·.token)).length := by simpa using Nat.succ_le_of_lt hj
    rw [FaultAt, htokens, List.append_assoc, List.take_append_of_le_length hlt] at hfault
    exact hfault.2 ((viable_iff_run.2 ⟨q, hq⟩).take _)

theorem verdict_parse (s : Scan) : s.Verdict s.parse := by
  cases hread : (Progress.awaiting []).read s.lexemes with
  | error e =>
    obtain ⟨ms, l, rest, q, hs, hq, hl, rfl⟩ := Progress.exists_of_read_eq_error hread
    rw [parse, hread]
    exact verdict_of_next?_eq_none hs hq hl
  | ok p =>
    have hrun : (Progress.awaiting []).run s.tokens = some p := Progress.read_eq_ok_iff.1 hread
    have hviable := not_faultAt_of_viable (viable_iff_run.2 ⟨p, hrun⟩)
    cases hillegal : s.illegal with
    | some i =>
      rw [parse, hread, hillegal]
      exact .illegal hviable hillegal
    | none =>
      cases hparse : s.parse with
      | ok f => exact .formula hviable hillegal (parse_eq_ok_iff.1 hparse).2
      | error e =>
        have hnot (f : Formula) (hf : Sentence s.tokens f) : False := by
          simp [parse_eq_ok_iff.2 ⟨hillegal, hf⟩] at hparse
        obtain rfl : e = .unexpectedEnd := by
          rw [parse, hread, hillegal] at hparse
          unfold Progress.finish at hparse
          split at hparse <;> grind
        exact .unexpectedEnd hviable hillegal hnot

theorem Verdict.unique {r r' : Except ParseError Formula} (h : s.Verdict r) (h' : s.Verdict r') :
    r = r' := by
  cases h with
  | @unexpected k l hl hfault hfirst =>
    cases h' with
    | @unexpected k' l' hl' hfault' hfirst' =>
      obtain hlt | rfl | hlt := Nat.lt_trichotomy k k'
      · exact absurd hfault (hfirst' k hlt)
      · simp [Option.some.inj (hl.symm.trans hl')]
      · exact absurd hfault' (hfirst k' hlt)
    | illegal hviable => exact absurd hfault (hviable k)
    | unexpectedEnd hviable => exact absurd hfault (hviable k)
    | formula hviable => exact absurd hfault (hviable k)
  | illegal hviable hi => cases h' <;> grind
  | unexpectedEnd hviable hlegal hnot => cases h' <;> grind
  | formula hviable hlegal hf =>
    have hparse := parse_eq_ok_iff.2 ⟨hlegal, hf⟩
    cases h' <;> grind [parse_eq_ok_iff]

theorem parse_eq_iff {r : Except ParseError Formula} : s.parse = r ↔ s.Verdict r :=
  ⟨fun h => h ▸ s.verdict_parse, s.verdict_parse.unique⟩

end Scan

/-! ## Places in a text -/

/-- The lexeme is found in the text at its place, and spells its token. -/
def Lexeme.StandsIn (l : Lexeme) (cs : List Char) : Prop :=
  l.text <+: cs.drop l.start ∧ l.token.Word l.text

/-- The illegal character is found in the text at its place. -/
def Illegal.StandsIn (i : Illegal) (cs : List Char) : Prop := cs[i.position]? = some i.char

/-- A scan of the rest of a text counts places from the start of the text. -/
theorem standsIn_scanFrom {position : Nat} (before cs : List Char)
    (hposition : before.length = position) :
    (∀ l ∈ (scanFrom position cs).lexemes, l.StandsIn (before ++ cs)) ∧
      ∀ i, (scanFrom position cs).illegal = some i → i.StandsIn (before ++ cs) := by
  fun_induction scanFrom position cs generalizing before with
  | case1 => simp
  | case2 position c rest hc ih => simpa using ih (before ++ [c]) (by simp [hposition])
  | case3 position c rest hc hfirst =>
    simp [Illegal.StandsIn, ← hposition]
  | case4 position c rest hc t w after hfirst ih =>
    obtain ⟨hcs, -⟩ := Token.first?_eq_some hfirst
    obtain ⟨hlexemes, hillegal⟩ := ih (before ++ w) (by simp [hposition])
    rw [List.append_assoc, ← hcs] at hlexemes hillegal
    refine ⟨?_, hillegal⟩
    intro l hl
    obtain rfl | hl := List.mem_cons.1 hl
    · refine ⟨?_, Token.word_of_first? hfirst⟩
      simp [← hposition, hcs]
    · exact hlexemes l hl

namespace Formula

/-- What is said about a text that is not blank. The first token up to which the text begins no
formula is reported, whatever follows it. If there is none, an illegal character is reported; if
there is no such character either, the text is a formula or has ended too early. The places that
are reported are places in the text. -/
theorem parse_eq_iff_verdict (text : String) (h : Text.strip text.toList ≠ []) :
    (∀ r, parse text = r ↔ (scan text).Verdict r) ∧
      (∀ l ∈ (scan text).lexemes, l.StandsIn text.toList) ∧
      ∀ i, (scan text).illegal = some i → i.StandsIn text.toList := by
  refine ⟨fun r => ?_, standsIn_scanFrom [] text.toList rfl⟩
  rw [parse, if_neg h, Scan.parse_eq_iff]

/-- The second atom is reported, not the character behind it. -/
theorem parse_eq_iff_verdict_missingConnective :
    let text := "(A B ?"
    let l : Lexeme := ⟨.atom "B", ['B'], 3⟩
    Text.strip text.toList ≠ [] ∧ parse text = .error (.unexpected l) ∧
      (scan text).Verdict (.error (.unexpected l)) ∧ l.StandsIn text.toList := by
  intro text l
  have hne : Text.strip text.toList ≠ [] := by decide
  have hscan : scan text =
      ⟨[⟨.opening, ['('], 0⟩, ⟨.atom "A", ['A'], 1⟩, l], some ⟨'?', 5⟩⟩ := by decide +kernel
  have hparse : parse text = .error (.unexpected l) := by
    rw [parse, if_neg hne, hscan]
    rfl
  obtain ⟨hverdict, hlexemes, -⟩ := parse_eq_iff_verdict text hne
  exact ⟨hne, hparse, (hverdict _).1 hparse, hlexemes l (by simp [hscan])⟩

end Formula

end NaturalDeduction
