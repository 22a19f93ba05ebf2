import Mathlib.Data.List.DropRight
import NaturalDeduction.Text.Blank

/-!
# Words between blanks

Texts are put together from words with blanks between and around them. Whatever the blanks are,
the words are found again.

## Main definitions

* `Text.Solid`: a text that neither begins nor ends with a blank
* `Text.IsWord`: a text without blanks
* `Text.Joined`: a text that consists of some words, with blanks between them
* `Text.Spaced`: the same with blanks around

## Main statements

* `Text.Spaced.strip`: blanks around a text are removed
* `Text.Joined.firstWord?`, `Text.Joined.words`: the words of a text are found
* `Text.strip_strip`: nothing is left to be removed at the ends
-/

namespace NaturalDeduction.Text

variable {bs cs gap rest v w : List Char} {ws : List (List Char)} {n : Nat}

/-! ## Solid texts -/

/-- The text is not empty, and neither its first nor its last character is blank. -/
structure Solid (cs : List Char) : Prop where
  ne_nil : cs ≠ []
  head : ∀ c ∈ cs.head?, isBlank c = false
  last : ∀ c ∈ cs.getLast?, isBlank c = false

/-- The text is not empty and has no blanks. -/
structure IsWord (w : List Char) : Prop where
  ne_nil : w ≠ []
  not_blank : ∀ c ∈ w, isBlank c = false

theorem IsWord.solid (hw : IsWord w) : Solid w where
  ne_nil := hw.ne_nil
  head c hc := hw.not_blank c (List.mem_of_mem_head? hc)
  last c hc := hw.not_blank c (List.mem_of_mem_getLast? hc)

theorem dropWhile_isBlank (hcs : ∀ c ∈ cs.head?, isBlank c = false) :
    cs.dropWhile isBlank = cs := by
  cases cs with
  | nil => rfl
  | cons c cs => simp [hcs c rfl]

theorem Solid.dropWhile_append (hcs : Solid cs) (hbs : ∀ c ∈ bs, isBlank c) :
    (bs ++ cs).dropWhile isBlank = cs := by
  rw [List.dropWhile_append_of_pos hbs, dropWhile_isBlank hcs.head]

theorem Solid.append (hcs : Solid cs) (hrest : Solid rest) : Solid (cs ++ (gap ++ rest)) where
  ne_nil := by simp [hcs.ne_nil]
  head := by
    obtain ⟨c, cs, rfl⟩ := List.exists_cons_of_ne_nil hcs.ne_nil
    simpa using hcs.head
  last := by
    have hlast : (cs ++ (gap ++ rest)).getLast? = rest.getLast? := by
      rw [← List.append_assoc, List.getLast?_append_of_ne_nil _ hrest.ne_nil]
    rw [hlast]
    exact hrest.last

theorem Solid.reverse (hcs : Solid cs) : Solid cs.reverse where
  ne_nil := by simpa using hcs.ne_nil
  head := by simpa using hcs.last
  last := by simpa using hcs.head

/-- Blanks around a text are removed. -/
theorem Solid.strip_append (hcs : Solid cs) (hbs : ∀ c ∈ bs, isBlank c)
    (hrest : ∀ c ∈ rest, isBlank c) : strip (bs ++ (cs ++ rest)) = cs := by
  obtain ⟨c, tail, rfl⟩ := List.exists_cons_of_ne_nil hcs.ne_nil
  have hhead : ((c :: tail) ++ rest).dropWhile isBlank = (c :: tail) ++ rest :=
    dropWhile_isBlank hcs.head
  rw [strip, List.dropWhile_append_of_pos hbs, hhead, List.reverse_append,
    hcs.reverse.dropWhile_append (by simpa using hrest), List.reverse_reverse]

theorem Solid.strip (hcs : Solid cs) : strip cs = cs := by
  have h : Text.strip ([] ++ (cs ++ [])) = cs := hcs.strip_append (by simp) (by simp)
  simpa using h

theorem not_blank_of_mem_dropWhile {c : Char} (hc : c ∈ (cs.dropWhile isBlank).head?) :
    isBlank c = false := by
  have hnot := List.head?_dropWhile_not isBlank cs
  rwa [Option.mem_def.1 hc] at hnot

/-- What is left of a text has no blanks at its ends. -/
theorem solid_strip (h : Text.strip cs ≠ []) : Solid (Text.strip cs) where
  ne_nil := h
  head c hc := by
    -- Only characters at the end have been removed since the text begins like this.
    obtain ⟨removed, hremoved⟩ : Text.strip cs <+: cs.dropWhile isBlank :=
      List.rdropWhile_prefix isBlank _
    have hhead : c ∈ (cs.dropWhile isBlank).head? := by
      rw [← hremoved, List.head?_append, Option.mem_def.1 hc]
      rfl
    exact not_blank_of_mem_dropWhile hhead
  last c hc := by
    rw [Text.strip, List.getLast?_reverse] at hc
    exact not_blank_of_mem_dropWhile hc

theorem strip_strip (cs : List Char) : strip (strip cs) = strip cs := by
  by_cases h : Text.strip cs = []
  · rw [h, strip_nil]
  · exact (solid_strip h).strip

/-! ## Words with blanks between them -/

/-- The text consists of the words, with blanks between them. -/
inductive Joined : List (List Char) → List Char → Prop
  | nil : Joined [] []
  | single {w : List Char} : Joined [w] w
  | cons {v w gap cs : List Char} {ws : List (List Char)} (hne : gap ≠ [])
      (hgap : ∀ c ∈ gap, isBlank c) (h : Joined (v :: ws) cs) :
      Joined (w :: v :: ws) (w ++ (gap ++ cs))

/-- The text consists of the words, with blanks between them and, possibly, around them. -/
def Spaced (ws : List (List Char)) (cs : List Char) : Prop :=
  ∃ before inner after, cs = before ++ (inner ++ after) ∧ (∀ c ∈ before, isBlank c) ∧
    (∀ c ∈ after, isBlank c) ∧ Joined ws inner

theorem Joined.solid (h : Joined (w :: ws) cs) (hws : ∀ v ∈ w :: ws, Solid v) : Solid cs := by
  induction ws generalizing w cs with
  | nil =>
    cases h
    exact hws _ List.mem_cons_self
  | cons v ws ih =>
    rw [List.forall_mem_cons] at hws
    cases h with
    | cons hne hgap h => exact hws.1.append (ih h hws.2)

/-- Once the blanks around them are removed, the words stand from end to end. -/
theorem Spaced.strip (h : Spaced ws cs) (hws : ∀ w ∈ ws, Solid w) :
    Joined ws (Text.strip cs) := by
  obtain ⟨before, inner, after, rfl, hbefore, hafter, hinner⟩ := h
  cases ws with
  | nil =>
    cases hinner
    have hblank : (before ++ ([] ++ after)).dropWhile isBlank = [] := by
      rw [List.dropWhile_append_of_pos hbefore]
      exact List.dropWhile_eq_nil_iff.2 hafter
    rw [Text.strip, hblank]
    exact .nil
  | cons w ws => rwa [(hinner.solid hws).strip_append hbefore hafter]

/-! ## Finding the words -/

/-- A text before which a word ends. -/
def EndsWord (rest : List Char) : Prop := ∀ c ∈ rest.head?, isBlank c

theorem IsWord.takeWhile_append (hw : IsWord w) (hrest : EndsWord rest) :
    (w ++ rest).takeWhile (!isBlank ·) = w := by
  rw [List.takeWhile_append_of_pos (by simpa using hw.not_blank)]
  cases rest with
  | nil => simp
  | cons c rest => simp [hrest c rfl]

theorem IsWord.dropWhile_append (hw : IsWord w) (hrest : EndsWord rest) :
    (w ++ rest).dropWhile (!isBlank ·) = rest := by
  rw [List.dropWhile_append_of_pos (by simpa using hw.not_blank)]
  cases rest with
  | nil => rfl
  | cons c rest => simp [hrest c rfl]

theorem endsWord_append (hne : gap ≠ []) (hgap : ∀ c ∈ gap, isBlank c) : EndsWord (gap ++ cs) := by
  obtain ⟨c, gap, rfl⟩ := List.exists_cons_of_ne_nil hne
  simpa [EndsWord] using hgap c List.mem_cons_self

theorem IsWord.firstWord?_append (hw : IsWord w) (hrest : EndsWord rest) :
    firstWord? (w ++ rest) = some (w, rest.dropWhile isBlank) := by
  have hword := hw.takeWhile_append hrest
  have hafter := hw.dropWhile_append hrest
  obtain ⟨c, tail, rfl⟩ := List.exists_cons_of_ne_nil hw.ne_nil
  have hhead : (c :: (tail ++ rest)).dropWhile isBlank = c :: (tail ++ rest) :=
    dropWhile_isBlank hw.solid.head
  rw [List.cons_append] at hword hafter ⊢
  simp only [firstWord?, hhead, hword, hafter]

/-- The first word is found, and after it the other words. -/
theorem Joined.firstWord? (h : Joined (w :: ws) cs) (hw : IsWord w) (hws : ∀ v ∈ ws, Solid v) :
    ∃ rest, Text.firstWord? cs = some (w, rest) ∧ Joined ws rest := by
  cases h with
  | single =>
    have hfirst : Text.firstWord? (cs ++ []) = some (cs, []) :=
      hw.firstWord?_append (by simp [EndsWord])
    exact ⟨[], by simpa using hfirst, .nil⟩
  | cons hne hgap h =>
    refine ⟨_, ?_, h⟩
    rw [hw.firstWord?_append (endsWord_append hne hgap), (h.solid hws).dropWhile_append hgap]

theorem splitWords_dropWhile (n : Nat) (cs : List Char) :
    splitWords n (cs.dropWhile isBlank) = splitWords n cs := by
  cases n <;> simp only [splitWords, List.dropWhile_idempotent isBlank cs]

theorem splitWords_succ_of_firstWord? (h : firstWord? cs = some (w, rest)) (n : Nat) :
    splitWords (n + 1) cs = w :: splitWords n rest := by
  unfold firstWord? at h
  split at h
  · cases h
  · rename_i hne
    cases h
    rw [splitWords, splitWords_dropWhile]
    split
    · exact absurd ‹_› hne
    · rfl

theorem Solid.splitWords_zero (hcs : Solid cs) : splitWords 0 cs = [cs] := by
  obtain ⟨c, tail, rfl⟩ := List.exists_cons_of_ne_nil hcs.ne_nil
  simp only [splitWords, dropWhile_isBlank hcs.head]

/-- All words are found if it is allowed to split off as many. -/
theorem Joined.splitWords (h : Joined ws cs) (hws : ∀ w ∈ ws, IsWord w) (hn : ws.length ≤ n) :
    Text.splitWords n cs = ws := by
  induction n generalizing ws cs with
  | zero =>
    obtain rfl := List.eq_nil_of_length_eq_zero (Nat.le_zero.1 hn)
    cases h
    rfl
  | succ n ih =>
    cases ws with
    | nil =>
      cases h
      rfl
    | cons w ws =>
      rw [List.forall_mem_cons] at hws
      obtain ⟨rest, hfirst, hrest⟩ := h.firstWord? hws.1 fun v hv => (hws.2 v hv).solid
      rw [splitWords_succ_of_firstWord? hfirst, ih hrest hws.2 (Nat.le_of_succ_le_succ hn)]

theorem Joined.length_le (h : Joined ws cs) (hws : ∀ w ∈ ws, IsWord w) :
    ws.length ≤ cs.length := by
  induction h with
  | nil => rfl
  | @single w => exact List.length_pos_iff.2 (hws w List.mem_cons_self).ne_nil
  | @cons v w gap cs ws hne hgap h ih =>
    rw [List.forall_mem_cons] at hws
    have hlength := ih hws.2
    have hword := List.length_pos_iff.2 hws.1.ne_nil
    simp only [List.length_append, List.length_cons] at hlength ⊢
    omega

theorem Joined.words (h : Joined ws cs) (hws : ∀ w ∈ ws, IsWord w) : Text.words cs = ws :=
  h.splitWords hws (h.length_le hws)

/-- The text after the first word may have blanks inside. -/
theorem Joined.splitWords_one (h : Joined [w, v] cs) (hw : IsWord w) (hv : Solid v) :
    Text.splitWords 1 cs = [w, v] := by
  obtain ⟨rest, hfirst, hrest⟩ := h.firstWord? hw (by simpa using hv)
  cases hrest
  rw [splitWords_succ_of_firstWord? hfirst, hv.splitWords_zero]

end NaturalDeduction.Text
