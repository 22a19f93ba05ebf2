import Mathlib.Data.List.Basic
import Mathlib.Order.Bounds.Basic
import NaturalDeduction.Proofs.Spelling

/-!
# Lexemes tile a text

The lexemes of a scan lie in the text side by side, each of them a word for its token, and between
them there are only blanks. A run of capital letters is never divided. A text can be tiled in this
way at most once, so that the scan finds the tiling if there is one; otherwise it stops at the
first place, after its last lexeme, where neither a blank nor a word begins.

## Main definitions

* `Token.Declares`: the words that are declared for a token
* `IsRun`: a run of capital letters that cannot be extended
* `Lexeme.Fits`: a lexeme is found in a text at its place
* `Tiles`: some lexemes and the blanks between them make up a stretch of a text
* `strays`: the places after some lexemes where neither a blank nor a word begins

## Main statements

* `tiles_scanFrom`: the lexemes of a scan tile the text, as far as the scan gets
* `Tiles.scanFrom_eq`: lexemes that tile the whole text are those of its scan
* `Tiles.le_of_mem_strays`: no stray place lies in a stretch that is tiled
* `scan_tiles`: what the scan of a text finds, and when and where it fails
-/

namespace NaturalDeduction

open Token

variable {text before cs w : List Char} {c : Char} {t : Token} {l : Lexeme} {ls : List Lexeme}
  {start stop k p position : Nat}

/-! ## Words and runs -/

/-- The words that are declared for a token. -/
def Token.Declares : Token → List Char → Prop
  | .atom name, w => w = name.toList ∧ IsName name
  | .symbol c, w => w ∈ c.spellings
  | .opening, w => w = ['(']
  | .closing, w => w = [')']

theorem Token.word_iff_declares : t.Word w ↔ t.Declares w := by
  constructor
  · intro h
    cases t with
    | atom name => exact h.eq_toList
    | symbol c => exact h.mem_symbols
    | opening => simpa [spellings, Declares] using h.mem_spellings
    | closing => simpa [spellings, Declares] using h.mem_spellings
  · intro h
    cases t with
    | atom name =>
      obtain ⟨rfl, hname⟩ := h
      obtain ⟨hne, hletters⟩ := isName_iff.1 hname
      simpa using Word.atom hne hletters
    | symbol c => exact .symbol (mem_spellings_iff.2 h)
    | opening =>
      obtain rfl : w = ['('] := h
      exact .symbol (by decide)
    | closing =>
      obtain rfl : w = [')'] := h
      exact .symbol (by decide)

/-- A word of a symbol has no capital letter. -/
theorem Token.isAtomChar_of_mem_spellings (h : (w, t) ∈ spellings) (hc : c ∈ w) :
    isAtomChar c = false := by
  have hall : spellings.all fun s => s.1.all (!isAtomChar ·) := by decide
  simpa using List.all_eq_true.1 (List.all_eq_true.1 hall _ h) c hc

theorem breaks_dropWhile (cs : List Char) : Breaks (cs.dropWhile isAtomChar) := by
  intro c hc
  have hnot := List.head?_dropWhile_not isAtomChar cs
  rwa [Option.mem_def.1 hc] at hnot

/-- An atom ends where its letters end. -/
theorem Token.breaks_of_first? {name : String} {rest : List Char}
    (h : first? cs = some (.atom name, w, rest)) : Breaks rest := by
  rcases Option.or_eq_some_iff.1 h with h | ⟨-, h⟩
  · simpa [spellings] using (symbol?_eq_some h).2
  · unfold atom? at h
    split at h
    · cases h
    · simp only [Option.some.injEq, Prod.mk.injEq] at h
      obtain ⟨-, -, rfl⟩ := h
      exact breaks_dropWhile cs

/-- Where no token is found, no word begins. -/
theorem Token.not_isPrefix_of_first?_eq_none (h : first? cs = none) (hw : t.Word w) :
    ¬ w <+: cs := by
  rintro ⟨rest, rfl⟩
  cases hw with
  | symbol hw => simp [first?_symbol hw] at h
  | atom hne hw =>
    -- The letters that follow belong to the same atom.
    have hrun : ∀ c ∈ w ++ rest.takeWhile isAtomChar, isAtomChar c := by
      intro c hc
      rcases List.mem_append.1 hc with hc | hc
      · exact hw c hc
      · exact List.mem_takeWhile_imp hc
    have hfirst := first?_atom (by simp [hne]) hrun (breaks_dropWhile rest)
    rw [List.append_assoc, List.takeWhile_append_dropWhile, h] at hfirst
    cases hfirst

/-- From `start` to `stop` there are capital letters, and none just before or after them. -/
structure IsRun (text : List Char) (start stop : Nat) : Prop where
  letters : ∀ p, start ≤ p → p < stop → ∃ c ∈ text[p]?, c.isUpper
  before : ∀ p, p + 1 = start → ∀ c ∈ text[p]?, c.isUpper = false
  after : ∀ c ∈ text[stop]?, c.isUpper = false

/-- The character after a word. -/
theorem getElem?_after_word (before w rest : List Char) :
    (before ++ (w ++ rest))[before.length + w.length]? = rest.head? := by
  simp [List.getElem?_append_right, List.head?_eq_getElem?]

/-- No run of capital letters goes on from the first text to the second. -/
def Parted (before cs : List Char) : Prop :=
  (∀ c ∈ before.getLast?, isAtomChar c = false) ∨ Breaks cs

theorem Parted.isRun {rest : List Char} (h : Parted before (w ++ rest)) (hne : w ≠ [])
    (hw : ∀ c ∈ w, isAtomChar c) (hrest : Breaks rest) :
    IsRun (before ++ (w ++ rest)) before.length (before.length + w.length) where
  letters p hp hlt := by
    obtain ⟨i, rfl⟩ := Nat.exists_eq_add_of_le hp
    have hi : i < w.length := by omega
    refine ⟨w[i], ?_, ?_⟩
    · simp [List.getElem?_append_right, List.getElem?_append_left, hi]
    · rw [← isAtomChar_eq_isUpper]
      exact hw _ (List.getElem_mem hi)
  before p hp c hc := by
    have hlast : c ∈ before.getLast? := by
      rw [List.getLast?_eq_getElem?, ← hp, Nat.add_sub_cancel]
      rwa [List.getElem?_append_left (by omega)] at hc
    rw [← isAtomChar_eq_isUpper]
    rcases h with h | h
    · exact h c hlast
    · obtain ⟨d, v, rfl⟩ := List.exists_cons_of_ne_nil hne
      have hd := hw d List.mem_cons_self
      rw [h d rfl] at hd
      cases hd
  after c hc := by
    rw [getElem?_after_word] at hc
    rw [← isAtomChar_eq_isUpper]
    exact hrest c hc

/-! ## Tilings -/

/-- The place belongs to the lexeme. -/
def Lexeme.Covers (l : Lexeme) (p : Nat) : Prop := l.start ≤ p ∧ p < l.stop

/-- The lexeme consists of the characters that stand in the text at its place. They are a word for
its token, and if this is an atom, a whole run of capital letters. -/
structure Lexeme.Fits (l : Lexeme) (text : List Char) : Prop where
  nonempty : l.start < l.stop
  slice : l.text = text.extract l.start l.stop
  declared : l.token.Declares l.text
  run : ∀ name, l.token = .atom name → IsRun text l.start l.stop

/-- The stretch of the text from `start` to `stop` consists of the lexemes, one after the other,
and of blanks. -/
structure Tiles (text : List Char) (start stop : Nat) (ls : List Lexeme) : Prop where
  le : start ≤ stop
  fits : ∀ l ∈ ls, l.Fits text
  ordered : ls.Pairwise fun l m => l.stop ≤ m.start
  within : ∀ l ∈ ls, start ≤ l.start ∧ l.stop ≤ stop
  blank : ∀ p, start ≤ p → p < stop → (∀ l ∈ ls, ¬ l.Covers p) → ∃ c ∈ text[p]?, c ∈ blanks

namespace Lexeme.Fits

theorem isPrefix_drop (h : l.Fits text) : l.text <+: text.drop l.start := by
  rw [h.slice]
  exact List.take_prefix _ _

/-- No blank stands where a lexeme begins. -/
theorem not_blank_start (h : l.Fits text) (hc : c ∈ text[l.start]?) : c ∉ blanks := by
  obtain ⟨d, v, hv, hd⟩ := (word_iff_declares.2 h.declared).exists_cons
  obtain ⟨rest, hrest⟩ := h.isPrefix_drop
  have hhead : text[l.start]? = some d := by
    rw [← List.head?_drop, ← hrest, hv]
    rfl
  obtain rfl : d = c := Option.some.inj (hhead.symm.trans hc)
  rw [← isIgnored_iff, hd]
  exact Bool.false_ne_true

/-- The lexeme is what is found at its place. -/
theorem first?_eq (h : l.Fits (before ++ cs)) (hl : l.start = before.length) :
    ∃ rest, cs = l.text ++ rest ∧ first? cs = some (l.token, l.text, rest) := by
  have hplace := h.isPrefix_drop
  rw [hl, List.drop_left] at hplace
  obtain ⟨rest, rfl⟩ := hplace
  refine ⟨rest, rfl, ?_⟩
  obtain ⟨t, w, k⟩ := l
  obtain rfl : k = before.length := hl
  cases show t.Word w from word_iff_declares.2 h.declared with
  | symbol hw => exact first?_symbol hw rest
  | atom hne hw =>
    refine first?_atom hne hw fun c hc => ?_
    rw [isAtomChar_eq_isUpper]
    refine (h.run _ rfl).after c ?_
    rwa [← getElem?_after_word before w rest] at hc

end Lexeme.Fits

namespace Tiles

theorem nil (text : List Char) (k : Nat) : Tiles text k k [] where
  le := Nat.le_refl k
  fits := by simp
  ordered := .nil
  within := by simp
  blank p hp hlt := absurd hlt (Nat.not_lt.2 hp)

theorem skip (h : Tiles text (k + 1) stop ls) (hc : c ∈ text[k]?) (hblank : c ∈ blanks) :
    Tiles text k stop ls where
  le := Nat.le_of_succ_le h.le
  fits := h.fits
  ordered := h.ordered
  within l hl := ⟨Nat.le_of_succ_le (h.within l hl).1, (h.within l hl).2⟩
  blank p hp hlt hnone := by
    obtain rfl | hne := eq_or_ne p k
    · exact ⟨c, hc, hblank⟩
    · exact h.blank p (by omega) hlt hnone

theorem cons (h : Tiles text l.stop stop ls) (hl : l.Fits text) :
    Tiles text l.start stop (l :: ls) where
  le := Nat.le_trans (Nat.le_add_right ..) h.le
  fits := List.forall_mem_cons.2 ⟨hl, h.fits⟩
  ordered := List.pairwise_cons.2 ⟨fun m hm => (h.within m hm).1, h.ordered⟩
  within := by
    refine List.forall_mem_cons.2 ⟨⟨Nat.le_refl _, h.le⟩, fun m hm => ?_⟩
    exact ⟨Nat.le_trans (Nat.le_add_right ..) (h.within m hm).1, (h.within m hm).2⟩
  blank p hp hlt hnone := by
    rw [List.forall_mem_cons] at hnone
    have hafter : l.stop ≤ p := Nat.le_of_not_lt fun hin => hnone.1 ⟨hp, hin⟩
    exact h.blank p hafter hlt hnone.2

theorem tail (h : Tiles text start stop (l :: ls)) : Tiles text l.stop stop ls where
  le := (h.within l List.mem_cons_self).2
  fits := (List.forall_mem_cons.1 h.fits).2
  ordered := (List.pairwise_cons.1 h.ordered).2
  within m hm :=
    ⟨(List.pairwise_cons.1 h.ordered).1 m hm, (h.within m (List.mem_cons_of_mem l hm)).2⟩
  blank p hp hlt hnone := by
    have hstart := (h.within l List.mem_cons_self).1
    have hnonempty := (h.fits l List.mem_cons_self).nonempty
    refine h.blank p (by omega) hlt (List.forall_mem_cons.2 ⟨fun hcovers => ?_, hnone⟩)
    exact absurd hcovers.2 (Nat.not_lt.2 hp)

theorem drop_blank (h : Tiles text k stop ls) (hlt : k < stop) (hc : c ∈ text[k]?)
    (hblank : c ∈ blanks) : Tiles text (k + 1) stop ls where
  le := hlt
  fits := h.fits
  ordered := h.ordered
  within l hl := by
    have hne : l.start ≠ k := by
      rintro rfl
      exact (h.fits l hl).not_blank_start hc hblank
    have hwithin := h.within l hl
    omega
  blank p hp := h.blank p (by omega)

/-- Where no blank stands, there is a lexeme. -/
theorem exists_covers (h : Tiles text start stop ls) (hp : start ≤ p) (hlt : p < stop)
    (hc : c ∈ text[p]?) (hblank : c ∉ blanks) : ∃ l ∈ ls, l.Covers p := by
  by_contra hnone
  obtain ⟨d, hd, hdblank⟩ := h.blank p hp hlt (by simpa using hnone)
  obtain rfl : c = d := Option.some.inj (hc.symm.trans hd)
  exact hblank hdblank

/-- Where no blank stands at the start, the first lexeme begins. -/
theorem exists_cons (h : Tiles text k stop ls) (hlt : k < stop) (hc : c ∈ text[k]?)
    (hblank : c ∉ blanks) : ∃ l ms, ls = l :: ms ∧ l.start = k := by
  obtain ⟨m, hm, hcovers⟩ := h.exists_covers (Nat.le_refl k) hlt hc hblank
  cases ls with
  | nil => cases hm
  | cons l ms =>
    refine ⟨l, ms, rfl, Nat.le_antisymm ?_ (h.within l List.mem_cons_self).1⟩
    obtain rfl | hm := List.mem_cons.1 hm
    · exact hcovers.1
    · -- The first lexeme begins before any other that covers the place.
      have hnonempty := (h.fits l List.mem_cons_self).nonempty
      have hle := (h.tail.within m hm).1
      exact Nat.le_trans (by omega) hcovers.1

end Tiles

/-! ## The lexemes of a scan -/

/-- How far a scan gets in a text of the given length. -/
def Scan.reach (s : Scan) (length : Nat) : Nat := (s.illegal.map (·.position)).getD length

/-- The lexemes of a scan tile the text, up to the illegal character or to the end. -/
theorem tiles_scanFrom (before cs : List Char) (hposition : before.length = position)
    (h : Parted before cs) :
    Tiles (before ++ cs) position ((scanFrom position cs).reach (before ++ cs).length)
      (scanFrom position cs).lexemes := by
  fun_induction scanFrom position cs generalizing before with
  | case1 => simpa [Scan.reach, hposition] using Tiles.nil before _
  | case2 position c rest hc ih =>
    have hparted : Parted (before ++ [c]) rest := .inl (by simpa using isAtomChar_of_isIgnored hc)
    have htail := ih (before ++ [c]) (by simp [hposition]) hparted
    rw [List.append_assoc, List.singleton_append] at htail
    exact htail.skip (by simp [← hposition]) (isIgnored_iff.1 hc)
  | case3 => exact .nil _ _
  | case4 position c rest hc t w after hfirst ih =>
    obtain ⟨hcs, hne⟩ := first?_eq_some hfirst
    have hw := word_of_first? hfirst
    rw [hcs] at h ⊢
    have hparted : Parted (before ++ w) after := by
      cases hw with
      | symbol hw =>
        refine .inl fun d hd => isAtomChar_of_mem_spellings hw ?_
        rw [List.getLast?_append_of_ne_nil _ hne] at hd
        exact List.mem_of_mem_getLast? hd
      | atom => exact .inr (breaks_of_first? hfirst)
    have htail := ih (before ++ w) (by simp [hposition]) hparted
    rw [List.append_assoc] at htail
    refine htail.cons (l := ⟨t, w, position⟩) ⟨?_, ?_, word_iff_declares.1 hw, ?_⟩
    · exact Nat.lt_add_of_pos_right (List.length_pos_iff.2 hne)
    · simp [Lexeme.stop, ← hposition]
    · rintro name rfl
      rw [← hposition]
      cases hw with
      | symbol hw => simp [spellings] at hw
      | atom hne hw => exact h.isRun hne hw (breaks_of_first? hfirst)

/-- Lexemes that tile a text to its end are those of its scan. -/
theorem Tiles.scanFrom_eq (before cs : List Char) (hposition : before.length = position)
    (h : Tiles (before ++ cs) position (before ++ cs).length ls) :
    scanFrom position cs = ⟨ls, none⟩ := by
  fun_induction scanFrom position cs generalizing before ls with
  | case1 position =>
    cases ls with
    | nil => rfl
    | cons l ls =>
      have hwithin := h.within l List.mem_cons_self
      have hnonempty := (h.fits l List.mem_cons_self).nonempty
      simp only [List.append_nil] at hwithin
      omega
  | case2 position c rest hc ih =>
    have htail := h.drop_blank (c := c) (by simp [← hposition]) (by simp [← hposition])
      (isIgnored_iff.1 hc)
    exact ih (before ++ [c]) (by simp [hposition]) (by simpa using htail)
  | case3 position c rest hc hfirst =>
    obtain ⟨l, ms, rfl, hl⟩ := h.exists_cons (c := c) (by simp [← hposition])
      (by simp [← hposition]) (by simpa [← isIgnored_iff] using hc)
    obtain ⟨after, -, hsome⟩ :=
      (h.fits l List.mem_cons_self).first?_eq (hl.trans hposition.symm)
    simp [hfirst] at hsome
  | case4 position c rest hc t w after hfirst ih =>
    obtain ⟨l, ms, rfl, hl⟩ := h.exists_cons (c := c) (by simp [← hposition])
      (by simp [← hposition]) (by simpa [← isIgnored_iff] using hc)
    obtain ⟨rest', hcs, hsome⟩ :=
      (h.fits l List.mem_cons_self).first?_eq (hl.trans hposition.symm)
    obtain ⟨rfl, rfl, rfl⟩ : t = l.token ∧ w = l.text ∧ after = rest' := by
      simpa [hfirst] using hsome
    have htail := h.tail
    rw [hcs, ← List.append_assoc, Lexeme.stop, hl] at htail
    rw [ih (before ++ l.text) (by simp [hposition]) htail]
    cases l
    simp_all [Scan.cons]

/-! ## Illegal characters -/

/-- The places, after all of the lexemes, of a character that is no blank and with which no word
begins. -/
def strays (text : List Char) (ls : List Lexeme) : Set Nat :=
  {p | (∀ l ∈ ls, l.stop ≤ p) ∧ (∃ c ∈ text[p]?, c ∉ blanks) ∧
    ∀ t w, Token.Declares t w → ¬ w <+: text.drop p}

/-- No stray place lies in a stretch that is tiled. -/
theorem Tiles.le_of_mem_strays (h : Tiles text start stop ls) (hstart : start ≤ p)
    (hp : p ∈ strays text ls) : stop ≤ p := by
  obtain ⟨hafter, ⟨c, hc, hblank⟩, -⟩ := hp
  by_contra hlt
  obtain ⟨l, hl, hcovers⟩ := h.exists_covers hstart (Nat.lt_of_not_le hlt) hc hblank
  exact absurd hcovers.2 (Nat.not_lt.2 (hafter l hl))

/-- Where a scan meets an illegal character, there is neither a blank nor a token. -/
theorem exists_drop_of_illegal {i : Illegal} (before cs : List Char)
    (hposition : before.length = position) (h : (scanFrom position cs).illegal = some i) :
    ∃ rest, (before ++ cs).drop i.position = i.char :: rest ∧ isIgnored i.char = false ∧
      first? (i.char :: rest) = none := by
  fun_induction scanFrom position cs generalizing before with
  | case1 => cases h
  | case2 position c rest hc ih =>
    simpa using ih (before ++ [c]) (by simp [hposition]) h
  | case3 position c rest hc hfirst =>
    cases h
    exact ⟨rest, by simp [← hposition], by simpa using hc, hfirst⟩
  | case4 position c rest hc t w after hfirst ih =>
    rw [(first?_eq_some hfirst).1, ← List.append_assoc]
    exact ih (before ++ w) (by simp [hposition]) h

/-- The scan of a text. Its lexemes tile the text as far as the scan gets. It gets to the end
exactly if the text can be tiled, and then there is no other tiling. Otherwise the illegal
character stands at the first place after the lexemes where neither a blank nor a word begins. -/
theorem scan_tiles (text : String) :
    let s := scan text
    let cs := text.toList
    Tiles cs 0 (s.reach cs.length) s.lexemes ∧
      (s.illegal = none ↔ ∃ ls, Tiles cs 0 cs.length ls) ∧
      (∀ ls, Tiles cs 0 cs.length ls → ls = s.lexemes) ∧
      ∀ i, s.illegal = some i →
        cs[i.position]? = some i.char ∧ IsLeast (strays cs s.lexemes) i.position := by
  intro s cs
  have htiles : Tiles cs 0 (s.reach cs.length) s.lexemes :=
    tiles_scanFrom [] cs rfl (.inl (by simp))
  have hunique (ls : List Lexeme) (hls : Tiles cs 0 cs.length ls) : s = ⟨ls, none⟩ :=
    Tiles.scanFrom_eq [] cs rfl hls
  refine ⟨htiles, ⟨fun hlegal => ⟨s.lexemes, ?_⟩, ?_⟩, fun ls hls => by rw [hunique ls hls],
    fun i hi => ?_⟩
  · rwa [Scan.reach, hlegal] at htiles
  · rintro ⟨ls, hls⟩
    rw [hunique ls hls]
  · obtain ⟨rest, hdrop, hblank, hfirst⟩ := exists_drop_of_illegal [] cs rfl hi
    have hreach : s.reach cs.length = i.position := by simp [Scan.reach, hi]
    have hget : cs[i.position]? = some i.char := by
      rw [← List.head?_drop]
      exact congrArg List.head? hdrop
    refine ⟨hget, ⟨?_, ⟨i.char, hget, ?_⟩, fun t w hw => ?_⟩, fun p hp => ?_⟩
    · exact fun l hl => hreach ▸ (htiles.within l hl).2
    · rw [← isIgnored_iff, hblank]
      exact Bool.false_ne_true
    · rw [show cs.drop i.position = i.char :: rest from hdrop]
      exact not_isPrefix_of_first?_eq_none hfirst (word_iff_declares.2 hw)
    · exact hreach ▸ htiles.le_of_mem_strays (Nat.zero_le p) hp

end NaturalDeduction
