/-!
# Pieces and lines of a text

A text is cut at every character of some class; the characters at the cuts are dropped. A line
ends at any of the vertical separators: line feed, carriage return, vertical tab, form feed, the
file, group and record separators, next line, and the line and paragraph separators.

## Main definitions

* `pieces`: what stands between the cuts
* `isLineBreak`: the characters that end a line
* `lines`: the lines of a text
* `unifyBreaks`: a text with line feeds for carriage returns
-/

namespace NaturalDeduction.Text

variable {isCut : Char → Bool} {c : Char} {cs ds p : List Char} {ps qs : List (List Char)}

/-- Put a character in front of the pieces that follow it. -/
def extendPieces (isCut : Char → Bool) (c : Char) (ps : List (List Char)) : List (List Char) :=
  if isCut c then [] :: ps
  else
    match ps with
    | [] => [[c]]
    | p :: rest => (c :: p) :: rest

/-- The pieces between the characters of a class, one more than there are such characters. -/
def pieces (isCut : Char → Bool) (cs : List Char) : List (List Char) :=
  cs.foldr (extendPieces isCut) [[]]

@[simp] theorem pieces_nil (isCut : Char → Bool) : pieces isCut [] = [[]] := rfl

@[simp] theorem pieces_cons (isCut : Char → Bool) (c : Char) (cs : List Char) :
    pieces isCut (c :: cs) = extendPieces isCut c (pieces isCut cs) := rfl

theorem pieces_ne_nil (isCut : Char → Bool) (cs : List Char) : pieces isCut cs ≠ [] := by
  cases cs with
  | nil => simp
  | cons c cs =>
    rw [pieces_cons]
    unfold extendPieces
    split
    · simp
    · split <;> simp

theorem extendPieces_append (h : ps ≠ []) :
    extendPieces isCut c (ps ++ qs) = extendPieces isCut c ps ++ qs := by
  obtain ⟨p, ps, rfl⟩ := List.exists_cons_of_ne_nil h
  unfold extendPieces
  split <;> rfl

/-- The pieces of two texts with a cut between them. -/
theorem pieces_append_cons (hc : isCut c) :
    pieces isCut (cs ++ c :: ds) = pieces isCut cs ++ pieces isCut ds := by
  induction cs with
  | nil => simp [extendPieces, hc]
  | cons b cs ih =>
    rw [List.cons_append, pieces_cons, ih, pieces_cons,
      extendPieces_append (pieces_ne_nil isCut cs)]

theorem pieces_of_forall (h : ∀ c ∈ cs, isCut c = false) : pieces isCut cs = [cs] := by
  induction cs with
  | nil => rfl
  | cons b cs ih =>
    rw [List.forall_mem_cons] at h
    simp [ih h.2, extendPieces, h.1]

/-- Pieces that are put together are found again. -/
theorem pieces_intercalate (hc : isCut c) (hne : ps ≠ [])
    (h : ∀ p ∈ ps, ∀ c ∈ p, isCut c = false) : pieces isCut ([c].intercalate ps) = ps := by
  induction ps with
  | nil => exact absurd rfl hne
  | cons p ps ih =>
    rw [List.forall_mem_cons] at h
    cases ps with
    | nil => simpa using pieces_of_forall h.1
    | cons q qs =>
      rw [List.intercalate_cons_cons, List.append_assoc, List.singleton_append,
        pieces_append_cons hc, pieces_of_forall h.1, ih (List.cons_ne_nil q qs) h.2,
        List.singleton_append]

/-- No piece has a cut inside. -/
theorem isCut_of_mem_pieces (hp : p ∈ pieces isCut cs) (hc : c ∈ p) : isCut c = false := by
  induction cs generalizing p with
  | nil => simp_all
  | cons b cs ih =>
    rw [pieces_cons] at hp
    unfold extendPieces at hp
    split at hp
    · obtain rfl | hp := List.mem_cons.1 hp
      · cases hc
      · exact ih hp hc
    · rename_i hb
      obtain ⟨q, qs, hq⟩ := List.exists_cons_of_ne_nil (pieces_ne_nil isCut cs)
      rw [hq] at hp ih
      obtain rfl | hp := List.mem_cons.1 hp
      · obtain rfl | hc := List.mem_cons.1 hc
        · simpa using hb
        · exact ih List.mem_cons_self hc
      · exact ih (List.mem_cons_of_mem q hp) hc

/-! ## Lines -/

def isLineBreak (c : Char) : Bool :=
  let n := c.toNat
  (0xA ≤ n && n ≤ 0xD) || (0x1C ≤ n && n ≤ 0x1E) || n == 0x85 || n == 0x2028 || n == 0x2029

/-- The lines of a text. A carriage return and the line feed after it have an empty line between
them, and an empty line follows the last line break. -/
def lines (cs : List Char) : List (List Char) :=
  pieces isLineBreak cs

/-- A carriage return is replaced by a line feed, together with the line feed after it. -/
def unifyBreaks : List Char → List Char
  | [] => []
  | '\r' :: '\n' :: cs => '\n' :: unifyBreaks cs
  | c :: cs => (if c = '\r' then '\n' else c) :: unifyBreaks cs

@[simp] theorem unifyBreaks_nil : unifyBreaks [] = [] := by simp [unifyBreaks]

end NaturalDeduction.Text
