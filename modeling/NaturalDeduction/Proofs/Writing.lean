import Mathlib.Data.List.Nodup
import NaturalDeduction.Proof.Line
import NaturalDeduction.Proofs.Respelling

/-!
# Telling written texts apart

Where a text is put together from parts, the parts can be found again if it is clear where each of
them ends. A written formula ends where it is complete, since nothing can follow a complete
formula; a number ends at the comma after it, and the name of a rule at the first space.

## Main statements

* `append_inj_of_forall`: a run of characters ends at the first character of another kind
* `intercalate_inj`: a list can be read off its parts and separators
* `Sentence.eq_of_append`: no sentence begins with the sentence of another formula
* `Formula.text_append_inj`: a written formula can be told from what follows it
* `Justification.label_text_inj`: a justification is determined by its label
-/

namespace NaturalDeduction

/-! ## Finding parts of a list -/

section

variable {α : Type} {p : α → Prop} {c : α} {xs ys zs ws sep : List α}

/-- Elements of one kind are told from a rest that begins with an element of another kind. -/
theorem append_inj_of_forall (hxs : ∀ x ∈ xs, p x) (hys : ∀ y ∈ ys, p y)
    (hzs : ∀ z ∈ zs.head?, ¬ p z) (hws : ∀ w ∈ ws.head?, ¬ p w) (h : xs ++ zs = ys ++ ws) :
    xs = ys ∧ zs = ws := by
  induction xs generalizing ys with
  | nil =>
    cases ys with
    | nil => exact ⟨rfl, h⟩
    | cons y ys =>
      obtain rfl : zs = y :: (ys ++ ws) := h
      exact absurd (hys y List.mem_cons_self) (hzs y rfl)
  | cons x xs ih =>
    cases ys with
    | nil =>
      obtain rfl : x :: (xs ++ zs) = ws := h
      exact absurd (hxs x List.mem_cons_self) (hws x rfl)
    | cons y ys =>
      rw [List.forall_mem_cons] at hxs hys
      obtain ⟨rfl, htail⟩ := List.cons.inj h
      obtain ⟨rfl, rfl⟩ := ih hxs.2 hys.2 htail
      exact ⟨rfl, rfl⟩

/-- A list that does not hold an element ends where the element comes first. -/
theorem append_separator_inj (hxs : c ∉ xs) (hys : c ∉ ys)
    (h : xs ++ c :: zs = ys ++ c :: ws) : xs = ys ∧ zs = ws := by
  have hinj := append_inj_of_forall (p := (· ≠ c)) (fun x hx => ne_of_mem_of_not_mem hx hxs)
    (fun y hy => ne_of_mem_of_not_mem hy hys) (by simp) (by simp) h
  exact ⟨hinj.1, (List.cons.inj hinj.2).2⟩

/-- Lists are found again between separators that begin with an element none of them holds. -/
theorem intercalate_inj {xss yss : List (List α)} (hxss : ∀ xs ∈ xss, c ∉ xs)
    (hyss : ∀ ys ∈ yss, c ∉ ys) (hx : xss ≠ []) (hy : yss ≠ [])
    (h : (c :: sep).intercalate xss = (c :: sep).intercalate yss) : xss = yss := by
  induction xss generalizing yss with
  | nil => exact absurd rfl hx
  | cons xs xss ih =>
    obtain ⟨ys, yss, rfl⟩ := List.exists_cons_of_ne_nil hy
    rw [List.forall_mem_cons] at hxss hyss
    cases xss with
    | nil =>
      cases yss with
      | nil => simpa using h
      | cons ys' yss =>
        rw [List.intercalate_singleton, List.intercalate_cons_cons] at h
        exact absurd (h ▸ by simp) hxss.1
    | cons xs' xss =>
      cases yss with
      | nil =>
        rw [List.intercalate_singleton, List.intercalate_cons_cons] at h
        exact absurd (h ▸ by simp) hyss.1
      | cons ys' yss =>
        simp only [List.intercalate_cons_cons, List.append_assoc, List.cons_append] at h
        obtain ⟨rfl, htail⟩ := append_separator_inj hxss.1 hyss.1 h
        rw [ih hxss.2 hyss.2 (List.cons_ne_nil _ _) (List.cons_ne_nil _ _)
          (List.append_cancel_left htail)]

theorem mem_or_mem_of_mem_intercalate {xss : List (List α)} (h : c ∈ sep.intercalate xss) :
    c ∈ sep ∨ ∃ xs ∈ xss, c ∈ xs := by
  induction xss with
  | nil => cases h
  | cons xs xss ih =>
    cases xss with
    | nil => exact .inr ⟨xs, List.mem_cons_self, by simpa using h⟩
    | cons ys xss =>
      rw [List.intercalate_cons_cons, List.mem_append, List.mem_append] at h
      obtain (h | h) | h := h
      · exact .inr ⟨xs, List.mem_cons_self, h⟩
      · exact .inl h
      · exact (ih h).imp_right fun ⟨zs, hzs, h⟩ => ⟨zs, List.mem_cons_of_mem _ hzs, h⟩

end

/-! ## Formulas -/

section

variable {ts us vs ws : List Token} {cs ds rest rest' : List Char} {f g : Formula}

/-- No sentence begins with the sentence of another formula. -/
theorem Sentence.eq_of_append (hf : Sentence ts f) (hg : Sentence (ts ++ us) g) : f = g := by
  have hrun := Progress.run_eq_some_iff.2 hg
  rw [hf.run_append] at hrun
  cases us with
  | nil => simpa [Progress.complete] using hrun
  | cons u us =>
    -- Nothing can follow a complete formula.
    simp [Progress.complete, Progress.next?] at hrun

theorem Sentence.append_inj (hf : Sentence ts f) (hg : Sentence us g)
    (h : ts ++ vs = us ++ ws) : f = g := by
  obtain ⟨xs, rfl, -⟩ | ⟨xs, rfl, -⟩ := List.append_eq_append_iff.1 h
  · exact hf.eq_of_append hg
  · exact (hg.eq_of_append hf).symm

/-- No text begins with spellings of two formulas. -/
theorem Spells.append_inj (hf : Spells cs f) (hg : Spells ds g) (hrest : Breaks rest)
    (hrest' : Breaks rest') (h : cs ++ rest = ds ++ rest') : f = g := by
  obtain ⟨ts, hts, hlexf⟩ := hf.exists_lexes
  obtain ⟨us, hus, hlexg⟩ := hg.exists_lexes
  have htokens := (hlexf 0 rest hrest).1
  rw [h, (hlexg 0 rest' hrest').1] at htokens
  exact hts.append_inj hus htokens.symm

namespace Formula

/-- A written formula can be told from what follows it. -/
theorem text_append_inj {s : SymbolSet} (hf : f.Named) (hg : g.Named) (hrest : Breaks rest)
    (hrest' : Breaks rest') (h : (f.text s).toList ++ rest = (g.text s).toList ++ rest') :
    f = g ∧ rest = rest' := by
  obtain rfl := (spells_text s hf).append_inj (spells_text s hg) hrest hrest' h
  exact ⟨rfl, List.append_cancel_left h⟩

/-- A written formula begins with the name of an atom, the sign of falsehood or a parenthesis. -/
theorem exists_initial (s : SymbolSet) (hf : f.Named) :
    ∃ c cs, (f.text s).toList = c :: cs ∧ (Token.isAtomChar c ∨ c ∈ ['#', '⊥', '(']) := by
  cases f with
  | atom name =>
    obtain ⟨hne, hchars⟩ := isName_iff.1 (hf name List.mem_cons_self)
    obtain ⟨c, cs, hcs⟩ := List.exists_cons_of_ne_nil hne
    exact ⟨c, cs, hcs, .inl (hchars c (hcs ▸ List.mem_cons_self))⟩
  | absurd => cases s <;> exact ⟨_, _, rfl, .inr (by decide)⟩
  | not f =>
    have htext : (text s (.not f)).toList =
        '(' :: ((Connective.not.symbol s).toList ++ (f.text s).toList ++ [')']) := by simp [text]
    exact ⟨_, _, htext, .inr (by decide)⟩
  | binary op l r =>
    have htext : (text s (.binary op l r)).toList =
        '(' :: ((l.text s).toList ++ ' ' :: (op.symbol s).toList ++ ' ' :: (r.text s).toList ++
          [')']) := by simp [text]
    exact ⟨_, _, htext, .inr (by decide)⟩

theorem newline_notMem_text (s : SymbolSet) (hf : f.Named) : '\n' ∉ (f.text s).toList := by
  induction f with
  | atom name =>
    intro hmem
    have hchar := (isName_iff.1 (hf name List.mem_cons_self)).2 _ hmem
    simp [Token.isAtomChar] at hchar
  | absurd => cases s <;> decide
  | not f ih => cases s <;> simpa [text, Connective.symbol] using ih hf
  | binary op l r ihl ihr =>
    have hl := ihl fun name hname => hf name (List.mem_append_left _ hname)
    have hr := ihr fun name hname => hf name (List.mem_append_right _ hname)
    cases s <;> cases op <;> simp [text, BinOp.symbol, hl, hr]

end Formula

end

/-! ## Justifications -/

/-- The rules. -/
def Rule.all : List Rule :=
  let connectives : List Connective :=
    [.absurd, .not, .binary .and, .binary .or, .binary .implies, .binary .iff]
  [.premise, .hypothesis, .reiteration] ++ connectives.map .introduction ++
    connectives.map .elimination

theorem Rule.mem_all (r : Rule) : r ∈ all := by
  rcases r with _ | _ | _ | (_ | _ | (_ | _ | _ | _)) | (_ | _ | (_ | _ | _ | _)) <;> decide

theorem isDigit_of_mem_repr {k : Nat} {c : Char} (hc : c ∈ k.repr.toList) : c.isDigit := by
  rw [Nat.toList_repr] at hc
  exact Nat.isDigit_of_mem_toDigits (by decide) (by decide) hc

/-- The characters of a number. -/
theorem isDigit_or_eq_of_mem_toString {n : Int} {c : Char} (hc : c ∈ (toString n).toList) :
    c.isDigit ∨ c = '-' := by
  rw [Int.toString_eq_repr, Int.repr_eq_if] at hc
  split at hc
  · exact .inl (isDigit_of_mem_repr hc)
  · simp only [String.toList_append, List.mem_append] at hc
    obtain hc | hc := hc
    · exact .inr (by simpa using hc)
    · exact .inl (isDigit_of_mem_repr hc)

/-- Numbers are told apart by their digits and their sign. -/
theorem toList_toString_inj {m n : Int} (h : (toString m).toList = (toString n).toList) :
    m = n := by
  have hdigits {j k : Nat} (h : j.repr.toList = k.repr.toList) : j = k := by
    have hvalue := congrArg (fun ds => Nat.ofDigitChars 10 ds 0) h
    simpa only [Nat.toList_repr, Nat.ofDigitChars_ten_toDigits] using hvalue
  have hsign {j k : Nat} : j.repr.toList ≠ '-' :: k.repr.toList := by
    intro h
    have hmem : '-' ∈ j.repr.toList := by simp [h]
    exact absurd (isDigit_of_mem_repr hmem) (by decide)
  simp only [Int.toString_eq_repr, Int.repr_eq_if, apply_ite String.toList, String.toList_append]
    at h
  split at h <;> split at h
  · have := hdigits h
    omega
  · exact absurd h hsign
  · exact absurd h.symm hsign
  · have := hdigits (List.cons.inj h).2
    omega

namespace SymbolSet

variable {s : SymbolSet} {r r' : Rule}

/-- The names of rules differ. -/
theorem label_rule_inj (h : s.label r.label = s.label r'.label) : r = r' := by
  have hnodup : (Rule.all.map fun r => s.label r.label).Nodup := by cases s <;> decide
  exact List.inj_on_of_nodup_map hnodup (Rule.mem_all r) (Rule.mem_all r') h

/-- The name of a rule is one word. -/
theorem label_rule_word (s : SymbolSet) (r : Rule) :
    (s.label r.label).toList ≠ [] ∧ ' ' ∉ (s.label r.label).toList ∧
      '\n' ∉ (s.label r.label).toList := by
  have hall : ∀ r ∈ Rule.all, (s.label r.label).toList ≠ [] ∧ ' ' ∉ (s.label r.label).toList ∧
      '\n' ∉ (s.label r.label).toList := by cases s <;> decide
  exact hall r (Rule.mem_all r)

end SymbolSet

namespace Justification

variable {s : SymbolSet} {j k : Justification} {cited cited' : List Int} {c : Char}

/-- What is written after the name of a rule. -/
def citations (cited : List Int) : List Char :=
  if cited = [] then [] else ' ' :: [',', ' '].intercalate (cited.map fun n => (toString n).toList)

theorem citations_nil : citations [] = [] := rfl

theorem citations_of_ne_nil (h : cited ≠ []) :
    citations cited = ' ' :: [',', ' '].intercalate (cited.map fun n => (toString n).toList) :=
  if_neg h

theorem mem_citations (hc : c ∈ citations cited) : c.isDigit ∨ c ∈ ['-', ',', ' '] := by
  have hne : cited ≠ [] := by
    rintro rfl
    cases hc
  rw [citations_of_ne_nil hne, List.mem_cons] at hc
  obtain rfl | hc := hc
  · exact .inr (by decide)
  obtain hsep | ⟨xs, hxs, hc⟩ := mem_or_mem_of_mem_intercalate hc
  · exact .inr (List.mem_cons_of_mem _ hsep)
  · obtain ⟨n, -, rfl⟩ := List.mem_map.1 hxs
    exact (isDigit_or_eq_of_mem_toString hc).imp_right fun h => by simp [h]

theorem citations_inj (h : citations cited = citations cited') : cited = cited' := by
  by_cases hne : cited = [] <;> by_cases hne' : cited' = []
  · rw [hne, hne']
  · rw [hne, citations_nil, citations_of_ne_nil hne'] at h
    cases h
  · rw [hne', citations_nil, citations_of_ne_nil hne] at h
    cases h
  · rw [citations_of_ne_nil hne, citations_of_ne_nil hne'] at h
    have hcomma (cited : List Int) :
        ∀ xs ∈ cited.map fun n : Int => (toString n).toList, ',' ∉ xs := by
      intro xs hxs hmem
      obtain ⟨n, -, rfl⟩ := List.mem_map.1 hxs
      exact absurd (isDigit_or_eq_of_mem_toString hmem) (by decide)
    have hnumbers := intercalate_inj (hcomma cited) (hcomma cited') (by simpa) (by simpa)
      (List.cons.inj h).2
    exact List.map_injective_iff.2 (fun m n => toList_toString_inj) hnumbers

theorem text_eq (j : Justification) :
    j.text = j.rule.label ++ String.ofList (citations j.cited) := by
  by_cases h : j.cited = []
  · simp [text, h, citations_nil]
  · rw [← String.toList_inj]
    simp [text, h, citations_of_ne_nil h, String.toList_intercalate, Function.comp_def]

/-- A label is the name of a rule and what is written after it, which is the same in both sets. -/
theorem toList_label_text (s : SymbolSet) (j : Justification) :
    (s.label j.text).toList = (s.label j.rule.label).toList ++ citations j.cited := by
  have hplain : ∀ c ∈ (String.ofList (citations j.cited)).toList, c ∉ SymbolSet.logicSymbols := by
    intro c hc
    refine SymbolSet.notMem_logicSymbols_of_lt ?_
    rw [String.toList_ofList] at hc
    obtain hdigit | hc := mem_citations hc
    · have hle : c.toNat ≤ 57 := (Char.isDigit_iff_toNat.1 hdigit).2
      omega
    · simp only [List.mem_cons, List.not_mem_nil, or_false] at hc
      obtain rfl | rfl | rfl := hc <;> decide
  rw [text_eq, SymbolSet.label_append, SymbolSet.label_eq_self s hplain, String.toList_append,
    String.toList_ofList]

/-- A label begins with a character that is not a space. -/
theorem head?_label_text (s : SymbolSet) (j : Justification) :
    ∀ c ∈ (s.label j.text).toList.head?, c ≠ ' ' := by
  obtain ⟨hne, hspace, -⟩ := s.label_rule_word j.rule
  obtain ⟨c, cs, hcs⟩ := List.exists_cons_of_ne_nil hne
  rw [hcs, List.mem_cons, not_or] at hspace
  simpa [toList_label_text, hcs, eq_comm] using hspace.1

theorem newline_notMem_label_text (s : SymbolSet) (j : Justification) :
    '\n' ∉ (s.label j.text).toList := by
  rw [toList_label_text, List.mem_append, not_or]
  exact ⟨(s.label_rule_word j.rule).2.2, fun h => absurd (mem_citations h) (by decide)⟩

/-- A justification is determined by its label. -/
theorem label_text_inj (h : s.label j.text = s.label k.text) : j = k := by
  have hhead (cited : List Int) : ∀ c ∈ (citations cited).head?, ¬ c ≠ ' ' := by
    unfold citations
    split <;> simp
  have hlist := congrArg String.toList h
  rw [toList_label_text, toList_label_text] at hlist
  have hword (r : Rule) : ∀ c ∈ (s.label r.label).toList, c ≠ ' ' :=
    fun c hc => ne_of_mem_of_not_mem hc (s.label_rule_word r).2.1
  obtain ⟨hrule, hcited⟩ :=
    append_inj_of_forall (hword _) (hword _) (hhead _) (hhead _) hlist
  obtain ⟨rule, cited⟩ := j
  obtain ⟨rule', cited'⟩ := k
  obtain rfl : rule = rule' := SymbolSet.label_rule_inj (String.toList_inj.1 hrule)
  obtain rfl : cited = cited' := citations_inj hcited
  rfl

end Justification

end NaturalDeduction
