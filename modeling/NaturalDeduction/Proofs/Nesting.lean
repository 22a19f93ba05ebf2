import NaturalDeduction.Proofs.Chain

/-!
# Nested subproofs

The end of every subproof is found by a search of its own, which stops at the first line that
closes the depth of the opener. Nevertheless no two subproofs overlap, whatever the depths are:
what closes a scope closes every deeper one, so that a subproof which is opened inside another one
also ends inside it. A line that is added to a proof can only make those subproofs longer that reach
up to it.

## Main definitions

* `Line.opens`: whether a line opens a subproof inside a scope
* `Scope.Ends`, `Scope.Reaches`: where the scopes of a depth end
* `Scope.Laminar`: how the subproofs of some lines lie to each other
* `Scope.Grows`: what becomes of the subproofs when a line is added

## Main statements

* `Scope.span?_eq_some_iff`: the extent of a subproof, described without a search
* `Scope.Reaches.inner`: what is opened inside a subproof is deeper and ends inside it
* `Scope.encloses_trans`: subproofs are nested
* `Scope.Reaches.concat`, `Scope.Reaches.concat_inside`: what one more line does to a scope
* `Scope.spans_laminar`: subproofs do not overlap, and they grow only at the end
-/

namespace NaturalDeduction

/-! ## Lines that open and close -/

namespace Line

variable {l : Line} {depth outer : Int}

/-- Whether a line opens a subproof inside a scope of the given depth. -/
def opens (l : Line) (depth : Int) : Bool := l.isAssumption && depth < l.depth

theorem opens_iff : l.opens depth ↔ l.isAssumption ∧ depth < l.depth := by simp [opens]

theorem closes_iff :
    l.closes depth ↔ l.depth < depth ∨ l.isAssumption ∧ l.depth ≤ depth := by
  simp [closes]

/-- What ends a scope ends every deeper one. -/
theorem closes_of_le (hle : outer ≤ depth) (h : l.closes outer) : l.closes depth := by
  rw [closes_iff] at h ⊢
  exact h.imp (fun hlt => hlt.trans_le hle) (And.imp_right fun hdepth => hdepth.trans hle)

/-- Of the lines that do not end a scope, the assumptions are those that open another inside. -/
theorem opens_of_closes_eq_false (h : l.closes depth = false) : l.opens depth = l.isAssumption := by
  simp only [closes, Bool.or_eq_false_iff, Bool.and_eq_false_imp, decide_eq_false_iff_not] at h
  cases ha : l.isAssumption <;> simp_all [opens]

end Line

namespace Scope

variable {lines : List Line} {l m n : Line} {i j k p first last last' stop : Nat}
  {depth outer : Int} {s t : Nat × Nat}

/-! ## Where a scope ends -/

/-- Whether the scopes of a depth end before a position: there is no line at the position, or it
closes them. -/
structure Ends (lines : List Line) (stop : Nat) (depth : Int) : Prop where
  le_length : stop ≤ lines.length
  closes : ∀ m, lines[stop]? = some m → m.closes depth

/-- Whether a scope of the given depth reaches from its opener to a last line. -/
structure Reaches (lines : List Line) (opener last : Nat) (depth : Int) : Prop where
  le : opener ≤ last
  inside : ∀ k m, opener < k → k ≤ last → lines[k]? = some m → m.closes depth = false
  ends : Ends lines (last + 1) depth

theorem ends_length (lines : List Line) (depth : Int) : Ends lines lines.length depth where
  le_length := le_rfl
  closes m hm := by simp at hm

theorem le_span_iff_forall (hi : i < lines.length) (hp : p ≤ i) :
    i ≤ p + (body lines p depth).length ↔
      ∀ k m, p < k → k ≤ i → lines[k]? = some m → m.closes depth = false := by
  rw [le_span_iff hi hp]
  constructor
  · intro h k m hpk hki hm
    refine h m (List.mem_iff_getElem?.2 ⟨k - (p + 1), ?_⟩)
    rw [List.getElem?_take_of_lt (by omega), List.getElem?_drop, Nat.add_sub_cancel' hpk, hm]
  · intro h m hm
    obtain ⟨k, hk⟩ := List.mem_iff_getElem?.1 hm
    simp only [List.getElem?_take, Option.ite_none_right_eq_some, List.getElem?_drop] at hk
    exact h _ m (by omega) (by omega) hk.2

theorem reaches_body (hp : p < lines.length) (depth : Int) :
    Reaches lines p (p + (body lines p depth).length) depth := by
  have hlen : (body lines p depth).length ≤ (lines.drop (p + 1)).length :=
    (List.takeWhile_sublist _).length_le
  rw [List.length_drop] at hlen
  have hlt : p + (body lines p depth).length < lines.length := by omega
  have hle : p ≤ p + (body lines p depth).length := Nat.le_add_right _ _
  have hinside := (le_span_iff_forall hlt hle).1 le_rfl
  refine ⟨hle, hinside, hlt, fun m hm => ?_⟩
  -- If the line behind the last one did not close the scope, the scope would reach it.
  by_contra hopen
  have hnext : p + (body lines p depth).length + 1 ≤ p + (body lines p depth).length := by
    refine (le_span_iff_forall (lt_length_of_getElem? hm) (by omega)).2 fun k n hpk hk hn => ?_
    obtain hk | rfl := Nat.le_succ_iff.1 hk
    · exact hinside k n hpk hk hn
    · rw [hm, Option.some.injEq] at hn
      simpa [← hn] using hopen
  omega

/-- A scope does not reach beyond a place where less deep ones end. -/
theorem Reaches.lt_of_ends (h : Reaches lines p last depth) (hp : p < stop)
    (hends : Ends lines stop outer) (hle : outer ≤ depth) : last < stop := by
  by_contra hlast
  obtain ⟨m, hm⟩ : ∃ m, lines[stop]? = some m :=
    ⟨_, List.getElem?_eq_getElem (by have := h.ends.le_length; omega)⟩
  have hclosed := Line.closes_of_le hle (hends.closes m hm)
  rw [h.inside stop m hp (by omega) hm] at hclosed
  contradiction

/-- A scope reaches to one last line only. -/
theorem Reaches.last_unique (h : Reaches lines p last depth) (h' : Reaches lines p last' depth) :
    last = last' := by
  have hlt := h.lt_of_ends (Nat.lt_succ_of_le h'.le) h'.ends le_rfl
  have hlt' := h'.lt_of_ends (Nat.lt_succ_of_le h.le) h.ends le_rfl
  omega

/-- A subproof starts with the assumption that opens it and extends as far as its scope reaches. -/
theorem span?_eq_some_iff : span? lines p = some (first, last) ↔
    first = p ∧ ∃ l, lines[p]? = some l ∧ l.isAssumption ∧ Reaches lines p last l.depth := by
  constructor
  · intro h
    cases hl : lines[p]? with
    | none => simp [span?, hl] at h
    | some l =>
      simp only [span?, hl, Option.ite_none_right_eq_some, Option.some.injEq, Prod.mk.injEq] at h
      obtain ⟨ha, rfl, rfl⟩ := h
      exact ⟨rfl, l, rfl, ha, reaches_body (lt_length_of_getElem? hl) _⟩
  · rintro ⟨rfl, l, hl, ha, hreach⟩
    rw [span?_eq_some hl ha, (reaches_body (lt_length_of_getElem? hl) _).last_unique hreach]

theorem reaches_of_span?_eq_some (hl : lines[p]? = some l)
    (h : span? lines p = some (first, last)) :
    first = p ∧ Reaches lines p last l.depth := by
  obtain ⟨rfl, l', hl', -, hreach⟩ := span?_eq_some_iff.1 h
  obtain rfl := Option.some.inj (hl.symm.trans hl')
  exact ⟨rfl, hreach⟩

/-! ## Scopes inside scopes -/

/-- An assumption inside a scope is deeper, and the subproof that it opens ends inside as well. -/
theorem Reaches.inner (h : Reaches lines p last depth) (hm : lines[i]? = some m)
    (ha : m.isAssumption) (hp : p < i) (hi : i ≤ last) :
    depth < m.depth ∧ ∀ last', Reaches lines i last' m.depth → last' ≤ last := by
  have hopens : m.opens depth := by
    rw [Line.opens_of_closes_eq_false (h.inside i m hp hi hm), ha]
  have hdeeper := (Line.opens_iff.1 hopens).2
  refine ⟨hdeeper, fun last' h' => ?_⟩
  exact Nat.lt_succ_iff.1 (h'.lt_of_ends (Nat.lt_succ_of_le hi) h.ends hdeeper.le)

/-- The lines of a nested subproof are those that its scope reaches. -/
theorem encloses_iff_of_reaches (hl : lines[p]? = some l) (hopen : l.opens 0)
    (h : Reaches lines p last l.depth) : encloses lines p i ↔ p ≤ i ∧ i ≤ last := by
  obtain ⟨ha, hd⟩ := Line.opens_iff.1 hopen
  rw [encloses_iff_le hl ha hd, (reaches_body (lt_length_of_getElem? hl) _).last_unique h]

theorem exists_reaches_of_encloses (h : encloses lines p i) :
    ∃ l last, lines[p]? = some l ∧ l.opens 0 ∧ Reaches lines p last l.depth := by
  obtain ⟨l, hl, ha, hd⟩ := exists_of_encloses h
  exact ⟨l, _, hl, Line.opens_iff.2 ⟨ha, hd⟩, reaches_body (lt_length_of_getElem? hl) _⟩

theorem encloses_of_le (h : encloses lines p k) (hp : p ≤ i) (hi : i ≤ k) : encloses lines p i := by
  obtain ⟨l, last, hl, hopen, hreach⟩ := exists_reaches_of_encloses h
  rw [encloses_iff_of_reaches hl hopen hreach] at h ⊢
  omega

theorem le_of_encloses (h : encloses lines p i) : p ≤ i := by
  obtain ⟨l, last, hl, hopen, hreach⟩ := exists_reaches_of_encloses h
  exact ((encloses_iff_of_reaches hl hopen hreach).1 h).1

/-- A subproof that is opened inside another one ends inside it. -/
theorem encloses_trans (hpi : encloses lines p i) (hik : encloses lines i k) :
    encloses lines p k := by
  obtain ⟨l, last, hl, hopen, hreach⟩ := exists_reaches_of_encloses hpi
  obtain ⟨m, last', hm, hopen', hreach'⟩ := exists_reaches_of_encloses hik
  obtain ⟨hle, hlast⟩ := (encloses_iff_of_reaches hl hopen hreach).1 hpi
  obtain ⟨hle', hlast'⟩ := (encloses_iff_of_reaches hm hopen' hreach').1 hik
  obtain rfl | hlt := eq_or_lt_of_le hle
  · exact hik
  · have hends := (hreach.inner hm (Line.opens_iff.1 hopen').1 hlt hlast).2 last' hreach'
    exact (encloses_iff_of_reaches hl hopen hreach).2 (by omega)

/-! ## One more line -/

/-- A scope that does not reach the end, or is closed by the new line, reaches as far as before. -/
theorem Reaches.concat (h : Reaches lines p last depth)
    (hn : last + 1 = lines.length → n.closes depth) : Reaches (lines ++ [n]) p last depth := by
  have hlast := h.ends.le_length
  refine ⟨h.le, ?_, by simp; omega, ?_⟩
  · intro k m hpk hk hm
    obtain hm | ⟨rfl, rfl⟩ := getElem?_concat_eq_some_iff.1 hm
    · exact h.inside k m hpk hk hm
    · omega
  · intro m hm
    obtain hm | ⟨hend, rfl⟩ := getElem?_concat_eq_some_iff.1 hm
    · exact h.ends.closes m hm
    · exact hn hend

/-- A scope that reaches the end goes on with a line that does not close it. -/
theorem Reaches.concat_inside (h : Reaches lines p last depth) (hlast : last + 1 = lines.length)
    (hn : n.closes depth = false) : Reaches (lines ++ [n]) p (last + 1) depth := by
  refine ⟨Nat.le_succ_of_le h.le, ?_, ?_⟩
  · intro k m hpk hk hm
    obtain hm | ⟨rfl, rfl⟩ := getElem?_concat_eq_some_iff.1 hm
    · have hlt := lt_length_of_getElem? hm
      exact h.inside k m hpk (by omega) hm
    · exact hn
  · have hends := ends_length (lines ++ [n]) depth
    rwa [List.length_append, List.length_singleton, ← hlast] at hends

/-! ## Spans side by side -/

/-- Whether a line is one of a span, which is given by its first and its last line. -/
def Covers (span : Nat × Nat) (index : Nat) : Prop := span.1 ≤ index ∧ index ≤ span.2

/-- Whether all lines of the first span come after all lines of the second one. -/
def After (t s : Nat × Nat) : Prop := ∀ a b, Covers s a → Covers t b → a < b

/-- Whether all lines of the first span are lines of the second one. -/
def Inside (t s : Nat × Nat) : Prop := ∀ a, Covers t a → Covers s a

theorem after_iff (hs : s.1 ≤ s.2) (ht : t.1 ≤ t.2) : After t s ↔ s.2 < t.1 := by
  constructor
  · intro h
    exact h s.2 t.1 ⟨hs, le_rfl⟩ ⟨le_rfl, ht⟩
  · intro h a b ha hb
    exact ha.2.trans_lt (h.trans_le hb.1)

theorem inside_iff (ht : t.1 ≤ t.2) : Inside t s ↔ s.1 ≤ t.1 ∧ t.2 ≤ s.2 := by
  constructor
  · intro h
    exact ⟨(h t.1 ⟨le_rfl, ht⟩).1, (h t.2 ⟨ht, le_rfl⟩).2⟩
  · intro h a ha
    exact ⟨h.1.trans ha.1, ha.2.trans h.2⟩

/-- How the subproofs of some lines lie to each other. -/
structure Laminar (lines : List Line) : Prop where
  /-- Exactly the assumptions open subproofs, and each is the first line of its own. -/
  opened : ∀ i, (∃ l, lines[i]? = some l ∧ l.isAssumption) ↔
    ∃ last, span? lines i = some (i, last) ∧ i ≤ last ∧ last < lines.length
  /-- Of two subproofs, the one that is opened later comes after the other one or is part of it. -/
  after_or_inside : ∀ i j s t, i < j → span? lines i = some s → span? lines j = some t →
    Xor (After t s) (Inside t s)
  /-- It is part of the other one exactly if it is opened there. -/
  inside_iff_covers : ∀ i j s t, i < j → span? lines i = some s → span? lines j = some t →
    (Inside t s ↔ Covers s j)
  /-- Then it is deeper. -/
  depth_lt : ∀ i j s t l m, i < j → span? lines i = some s → span? lines j = some t →
    lines[i]? = some l → lines[j]? = some m → Inside t s → l.depth < m.depth

/-- What becomes of the subproofs of some lines when one more line is added. -/
structure Grows (lines : List Line) (n : Line) : Prop where
  /-- A subproof that ends before the last line stays as it is. -/
  kept : ∀ p first last, span? lines p = some (first, last) → last + 1 < lines.length →
    span? (lines ++ [n]) p = some (first, last)
  /-- A subproof that reaches the last line stays as it is if the new line is less deep than the
  opener, or an assumption that is at most as deep, and otherwise goes on with the new line. -/
  extended : ∀ p first last l, span? lines p = some (first, last) → last + 1 = lines.length →
    lines[p]? = some l →
    span? (lines ++ [n]) p = some (first,
      if n.depth < l.depth ∨ n.isAssumption ∧ n.depth ≤ l.depth then last else last + 1)

/-- A subproof that is opened later is part of another one exactly if the other one goes on until
then. -/
theorem inside_iff_le (hij : i < j) (hs : span? lines i = some (i, last))
    (ht : span? lines j = some (j, last')) : Inside (j, last') (i, last) ↔ j ≤ last := by
  obtain ⟨-, l, hl, -, hreach⟩ := span?_eq_some_iff.1 hs
  obtain ⟨-, m, hm, ha, hreach'⟩ := span?_eq_some_iff.1 ht
  rw [inside_iff hreach'.le]
  constructor
  · rintro ⟨-, hlast⟩
    exact hreach'.le.trans hlast
  · intro hj
    exact ⟨hij.le, (hreach.inner hm ha hij hj).2 last' hreach'⟩

theorem laminar (lines : List Line) : Laminar lines := by
  constructor
  case opened =>
    intro i
    constructor
    · rintro ⟨l, hl, ha⟩
      have hreach := reaches_body (lt_length_of_getElem? hl) l.depth
      exact ⟨_, span?_eq_some hl ha, hreach.le, hreach.ends.le_length⟩
    · rintro ⟨last, hspan, -⟩
      obtain ⟨-, l, hl, ha, -⟩ := span?_eq_some_iff.1 hspan
      exact ⟨l, hl, ha⟩
  case after_or_inside =>
    rintro i j ⟨first, last⟩ ⟨first', last'⟩ hij hs ht
    obtain ⟨rfl, l, -, -, hreach⟩ := span?_eq_some_iff.1 hs
    obtain ⟨rfl, m, -, -, hreach'⟩ := span?_eq_some_iff.1 ht
    rw [xor_iff_iff_not, after_iff hreach.le hreach'.le, inside_iff_le hij hs ht, not_le]
  case inside_iff_covers =>
    rintro i j ⟨first, last⟩ ⟨first', last'⟩ hij hs ht
    obtain ⟨rfl, l, -, -, hreach⟩ := span?_eq_some_iff.1 hs
    obtain ⟨rfl, m, -, -, hreach'⟩ := span?_eq_some_iff.1 ht
    rw [inside_iff_le hij hs ht]
    exact ⟨fun h => ⟨hij.le, h⟩, fun h => h.2⟩
  case depth_lt =>
    rintro i j ⟨first, last⟩ ⟨first', last'⟩ l m hij hs ht hl hm hinside
    obtain ⟨rfl, hreach⟩ := reaches_of_span?_eq_some hl hs
    obtain ⟨rfl, m, hm', ha, -⟩ := span?_eq_some_iff.1 ht
    obtain rfl := Option.some.inj (hm.symm.trans hm')
    exact (hreach.inner hm ha hij ((inside_iff_le hij hs ht).1 hinside)).1

theorem grows (lines : List Line) (n : Line) : Grows lines n := by
  have hold {p : Nat} {l : Line} (hl : lines[p]? = some l) : (lines ++ [n])[p]? = some l :=
    getElem?_concat_eq_some_iff.2 (.inl hl)
  constructor
  case kept =>
    intro p first last hspan hlast
    obtain ⟨rfl, l, hl, ha, hreach⟩ := span?_eq_some_iff.1 hspan
    have hkept : Reaches (lines ++ [n]) first last l.depth :=
      hreach.concat fun hend => absurd hend hlast.ne
    exact span?_eq_some_iff.2 ⟨rfl, l, hold hl, ha, hkept⟩
  case extended =>
    intro p first last l hspan hlast hl
    obtain ⟨rfl, l', hl', ha, hreach⟩ := span?_eq_some_iff.1 hspan
    obtain rfl := Option.some.inj (hl.symm.trans hl')
    refine span?_eq_some_iff.2 ⟨rfl, l, hold hl, ha, ?_⟩
    split
    case isTrue hcloses => exact hreach.concat fun _ => Line.closes_iff.2 hcloses
    case isFalse hopen =>
      exact hreach.concat_inside hlast (Bool.eq_false_iff.2 (mt Line.closes_iff.1 hopen))

/-- Whatever the depths of some lines are, no two subproofs overlap: of two of them, the one that
is opened later comes after the other one or is a deeper part of it. One more line changes only the
subproofs that reach the end, and it makes exactly those longer that it does not close. -/
theorem spans_laminar (lines : List Line) : Laminar lines ∧ ∀ n, Grows lines n :=
  ⟨laminar lines, grows lines⟩

/-- Depths that skip levels, so that no construction leads to them. -/
theorem spans_laminar_skippedLevels :
    let a := Formula.atom "A"
    let lines : List Line :=
      [.hypothesis 2 a, .hypothesis 5 a, .derived 3 a .reiteration [], .hypothesis 2 a]
    let n := Line.derived 2 a .reiteration [0]
    span? lines 0 = some (0, 2) ∧ span? lines 1 = some (1, 1) ∧ span? lines 3 = some (3, 3) ∧
      Inside (1, 1) (0, 2) ∧ (2 : Int) < 5 ∧ After (3, 3) (0, 2) ∧
      span? (lines ++ [n]) 0 = some (0, 2) ∧ span? (lines ++ [n]) 3 = some (3, 4) := by
  intro a lines n
  obtain ⟨hlaminar, hgrows⟩ := spans_laminar lines
  have h₀ : span? lines 0 = some (0, 2) := by decide
  have h₁ : span? lines 1 = some (1, 1) := by decide
  have h₃ : span? lines 3 = some (3, 3) := by decide
  have hinside : Inside (1, 1) (0, 2) :=
    (hlaminar.inside_iff_covers 0 1 _ _ (by decide) h₀ h₁).2 ⟨by decide, by decide⟩
  have hafter : After (3, 3) (0, 2) := by
    have hxor := hlaminar.after_or_inside 0 3 _ _ (by decide) h₀ h₃
    refine (xor_iff_iff_not.1 hxor).2 fun hin => ?_
    have hcovers := (hlaminar.inside_iff_covers 0 3 _ _ (by decide) h₀ h₃).1 hin
    exact absurd hcovers.2 (by decide)
  exact ⟨h₀, h₁, h₃, hinside, hlaminar.depth_lt 0 1 _ _ _ _ (by decide) h₀ h₁ rfl rfl hinside,
    hafter, (hgrows n).kept 0 0 2 h₀ (by decide), (hgrows n).extended 3 3 3 _ h₃ rfl rfl⟩

end Scope

end NaturalDeduction
