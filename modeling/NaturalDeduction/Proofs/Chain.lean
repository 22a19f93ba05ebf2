import Mathlib.Data.List.Induction
import NaturalDeduction.Proofs.WellFormed

/-!
# Chains of subproofs

Every line stands in a chain of nested subproofs, which are named by the indices of their
hypotheses, from the outermost to the innermost. All questions about scope are questions about
prefixes of chains: a scope is open if its chain is a prefix of the chain of the next line, and a
subproof contains a line if its own chain is a prefix of the chain of that line.

## Main definitions

* `Scope.chain`: the chain of the last of some lines
* `Scope.chainAt`: the chain of a line
* `Scope.openChain`: the chain of the next line
* `Scope.encloses`: whether a nested subproof contains a line

## Main statements

* `Scope.prefix_chainFrom_iff`: a chain is left exactly by the lines that close its depth
* `Scope.isAvailable_iff`, `Scope.isCitable_iff`: what may be cited, in terms of chains
* `Scope.encloses_iff`: what a subproof contains, in terms of chains
-/

namespace NaturalDeduction.Scope

variable {lines ls ms : List Line} {l : Line} {outer t : List Nat} {i index p : Nat} {cursor : Int}

/-! ## Growing chains -/

/-- The chain of a line that comes after one with the chain `outer`: as much of that chain as the
depth has room for and, for a hypothesis, the subproof that it opens. -/
def extend (outer : List Nat) (index : Nat) (l : Line) : List Nat :=
  if l.isAssumption && 0 < l.depth then outer.take (l.depth - 1).toNat ++ [index]
  else outer.take l.depth.toNat

/-- The chain at the end of some lines that come after one with the chain `outer`. -/
def chainFrom (outer : List Nat) (index : Nat) : List Line → List Nat
  | [] => outer
  | l :: ls => chainFrom (extend outer index l) (index + 1) ls

/-- A chain of earlier subproofs survives a line exactly if the line does not close its depth. -/
theorem prefix_extend_iff (ht : t ≠ []) (hi : index ∉ t) :
    t <+: extend outer index l ↔ t <+: outer ∧ l.closes t.length = false := by
  have hpos := List.length_pos_iff.2 ht
  cases ha : l.isAssumption with
  | false =>
    simp only [extend, ha, Bool.false_and, Bool.false_eq_true, ↓reduceIte, List.prefix_take_iff,
      Line.closes, Bool.or_false, decide_eq_false_iff_not]
    exact and_congr_right fun _ => by omega
  | true =>
    simp only [extend, ha, Bool.true_and, decide_eq_true_eq, Line.closes, Bool.or_eq_false_iff,
      decide_eq_false_iff_not]
    split
    · have hne : t ≠ outer.take (l.depth - 1).toNat ++ [index] := by
        rintro rfl
        simp at hi
      rw [List.prefix_concat_iff, or_iff_right hne, List.prefix_take_iff]
      exact and_congr_right fun _ => by omega
    · rw [List.prefix_take_iff]
      exact and_congr_right fun _ => by omega

theorem mem_extend {x : Nat} (h : x ∈ extend outer index l) : x ∈ outer ∨ x = index := by
  unfold extend at h
  split at h
  · obtain h | h := List.mem_append.1 h
    · exact .inl (List.mem_of_mem_take h)
    · exact .inr (List.mem_singleton.1 h)
  · exact .inl (List.mem_of_mem_take h)

/-- The chain of a line is as long as the line is deep. -/
theorem length_extend (h : l.Fits outer.length) :
    ((extend outer index l).length : Int) = l.depth := by
  obtain ⟨hnonneg, hle⟩ := h
  unfold extend
  split
  · rename_i hopen
    simp only [Bool.and_eq_true, decide_eq_true_eq] at hopen
    rw [if_pos hopen.1] at hle
    simp only [List.length_append, List.length_take, List.length_singleton]
    omega
  · rename_i hopen
    rw [List.length_take]
    cases ha : l.isAssumption <;> simp [ha] at hle hopen <;> omega

theorem chainFrom_append (outer : List Nat) (index : Nat) (ls ms : List Line) :
    chainFrom outer index (ls ++ ms) =
      chainFrom (chainFrom outer index ls) (index + ls.length) ms := by
  induction ls generalizing outer index with
  | nil => rfl
  | cons l ls ih =>
    simp only [List.cons_append, chainFrom, ih, List.length_cons]
    congr 1
    omega

/-- A chain of earlier subproofs survives some lines exactly if none of them closes its depth. -/
theorem prefix_chainFrom_iff (ht : t ≠ []) (hlt : ∀ x ∈ t, x < index) :
    t <+: chainFrom outer index ls ↔ t <+: outer ∧ ∀ l ∈ ls, l.closes t.length = false := by
  induction ls generalizing outer index with
  | nil => simp [chainFrom]
  | cons l ls ih =>
    have hi : index ∉ t := fun h => (hlt index h).false
    have hlt' : ∀ x ∈ t, x < index + 1 := fun x hx => (hlt x hx).trans (Nat.lt_succ_self _)
    rw [chainFrom, ih hlt', prefix_extend_iff ht hi, List.forall_mem_cons, and_assoc]

theorem lt_of_mem_chainFrom {x : Nat} (hlt : ∀ x ∈ outer, x < index)
    (hx : x ∈ chainFrom outer index ls) : x < index + ls.length := by
  induction ls generalizing outer index with
  | nil => exact hlt x hx
  | cons l ls ih =>
    have hlt' : ∀ y ∈ extend outer index l, y < index + 1 := by
      intro y hy
      obtain hy | rfl := mem_extend hy
      · exact (hlt y hy).trans (Nat.lt_succ_self _)
      · exact Nat.lt_succ_self _
    have := ih hlt' hx
    simp only [List.length_cons]
    omega

/-! ## Chains of lines -/

/-- The chain of the last line. -/
def chain (lines : List Line) : List Nat := chainFrom [] 0 lines

/-- The chain of the line at an index. -/
def chainAt (lines : List Line) (i : Nat) : List Nat := chain (lines.take (i + 1))

/-- The chain of the next line. -/
def openChain (lines : List Line) (cursor : Int) : List Nat := (chain lines).take cursor.toNat

@[simp] theorem chain_nil : chain [] = [] := rfl

theorem chain_append (ls ms : List Line) :
    chain (ls ++ ms) = chainFrom (chain ls) ls.length ms := by
  simp [chain, chainFrom_append]

@[simp] theorem chain_concat (ls : List Line) (l : Line) :
    chain (ls ++ [l]) = extend (chain ls) ls.length l := by
  rw [chain_append]
  rfl

theorem lt_length_of_mem_chain {x : Nat} (hx : x ∈ chain lines) : x < lines.length := by
  simpa using lt_of_mem_chainFrom (by simp) hx

theorem length_chain (h : WellNested lines) : ((chain lines).length : Int) = level lines := by
  induction lines using List.reverseRecOn with
  | nil => rfl
  | append_singleton ls l ih =>
    have hls : WellNested ls := by simpa using h.take ls.length
    have hl : l.Fits (level ls) := by simpa using h ls.length l (by simp)
    rw [chain_concat, level_concat, length_extend (by rwa [ih hls])]

theorem take_succ_of_getElem? (hl : lines[i]? = some l) :
    lines.take (i + 1) = lines.take i ++ [l] := by
  rw [List.take_add_one, hl, Option.toList_some]

theorem chainAt_eq_extend (hl : lines[i]? = some l) :
    chainAt lines i = extend (chain (lines.take i)) i l := by
  have hi := lt_length_of_getElem? hl
  rw [chainAt, take_succ_of_getElem? hl, chain_concat, List.length_take, Nat.min_eq_left hi.le]

theorem length_chainAt (h : WellNested lines) (hl : lines[i]? = some l) :
    ((chainAt lines i).length : Int) = l.depth := by
  rw [chainAt, length_chain (h.take _), take_succ_of_getElem? hl, level_concat]

theorem lt_of_mem_chainAt {x : Nat} (hx : x ∈ chainAt lines i) : x < i + 1 := by
  have := lt_length_of_mem_chain hx
  rw [List.length_take] at this
  omega

theorem chainAt_take {k : Nat} (h : i < k) : chainAt (lines.take k) i = chainAt lines i := by
  rw [chainAt, List.take_take, Nat.min_eq_left h, chainAt]

theorem chainAt_append (h : i < ls.length) : chainAt (ls ++ ms) i = chainAt ls i := by
  rw [chainAt, List.take_append_of_le_length h, chainAt]

/-- The chain of a later line goes on from the chain of an earlier one. -/
theorem chainAt_eq_chainFrom (hi : i < lines.length) (h : p ≤ i) :
    chainAt lines i =
      chainFrom (chainAt lines p) (p + 1) ((lines.drop (p + 1)).take (i - p)) := by
  have hlen : (lines.take (p + 1)).length = p + 1 := by
    rw [List.length_take]
    omega
  rw [chainAt, show i + 1 = p + 1 + (i - p) by omega, List.take_add, chain_append, hlen, chainAt]

theorem chain_eq_chainFrom (hi : i < lines.length) :
    chain lines = chainFrom (chainAt lines i) (i + 1) (lines.drop (i + 1)) := by
  have hlen : (lines.take (i + 1)).length = i + 1 := by
    rw [List.length_take]
    omega
  conv_lhs => rw [← List.take_append_drop (i + 1) lines, chain_append, hlen]
  rfl

/-- A hypothesis is the innermost subproof of its own chain. -/
theorem getLast?_chainAt (hl : lines[i]? = some l) (ha : l.isAssumption) (hd : 0 < l.depth) :
    (chainAt lines i).getLast? = some i := by
  simp [chainAt_eq_extend hl, extend, ha, hd]

theorem mem_chainAt_self (hl : lines[i]? = some l) (ha : l.isAssumption) (hd : 0 < l.depth) :
    i ∈ chainAt lines i :=
  List.mem_of_getLast? (getLast?_chainAt hl ha hd)

/-! ## Open scopes -/

/-- A scope around a line is open exactly if its chain is a prefix of the chain of the next
line. -/
theorem isOpen_iff (hi : i < lines.length) (hc : 0 ≤ cursor) (ht : t <+: chainAt lines i) :
    isOpen lines cursor i t.length ↔ t <+: openChain lines cursor := by
  rcases eq_or_ne t [] with rfl | hne
  · simp [isOpen, survives]
  · have hpos := List.length_pos_iff.2 hne
    have hlt : ∀ x ∈ t, x < i + 1 := fun x hx => lt_of_mem_chainAt (ht.subset hx)
    rw [openChain, List.prefix_take_iff, chain_eq_chainFrom hi, prefix_chainFrom_iff hne hlt,
      and_iff_right ht]
    simp only [isOpen, survives, Bool.or_eq_true, decide_eq_true_eq, Bool.and_eq_true,
      Bool.not_eq_true', List.any_eq_false, Bool.not_eq_true]
    constructor
    · rintro (h | ⟨hle, h⟩)
      · omega
      · exact ⟨h, by omega⟩
    · rintro ⟨h, hle⟩
      exact .inr ⟨by omega, h⟩

theorem isAvailable_iff (h : WellNested lines) (hc : 0 ≤ cursor) :
    isAvailable lines cursor i ↔
      i < lines.length ∧ chainAt lines i <+: openChain lines cursor := by
  unfold isAvailable
  split
  · rename_i l hl
    have hi := lt_length_of_getElem? hl
    rw [← length_chainAt h hl, isOpen_iff hi hc (List.prefix_refl _), and_iff_right hi]
  · rename_i hnone
    have := List.getElem?_eq_none_iff.1 hnone
    simp
    omega

/-- A subproof may be cited as a whole exactly if it is nested and the next line stands outside
it, but inside everything around it. -/
theorem isCitable_iff (h : WellNested lines) (hc : 0 ≤ cursor) :
    isCitable lines cursor i ↔ ∃ l, lines[i]? = some l ∧ l.isAssumption ∧ 0 < l.depth ∧
      ¬ chainAt lines i <+: openChain lines cursor ∧
      (chainAt lines i).dropLast <+: openChain lines cursor := by
  unfold isCitable
  split
  · rename_i l hl
    have hi := lt_length_of_getElem? hl
    have hlen := length_chainAt h hl
    have hself := isOpen_iff hi hc (List.prefix_refl (chainAt lines i))
    have hparent := isOpen_iff hi hc (List.dropLast_prefix (chainAt lines i))
    simp only [hl, Option.some.injEq, exists_eq_left', Bool.and_eq_true, bne_iff_ne, ne_eq,
      Bool.not_eq_true', and_assoc, ← hself, ← hparent, hlen, Bool.not_eq_true]
    rw [List.length_dropLast]
    have hcast (hd : 0 < l.depth) : (((chainAt lines i).length - 1 : Nat) : Int) = l.depth - 1 := by
      omega
    constructor
    · rintro ⟨ha, hd, hnot, hopen⟩
      have hpos : 0 < l.depth := by omega
      exact ⟨ha, hpos, hnot, by rwa [hcast hpos]⟩
    · rintro ⟨ha, hd, hnot, hopen⟩
      exact ⟨ha, by omega, hnot, by rwa [hcast hd] at hopen⟩
  · rename_i hnone
    simp [hnone]

/-! ## What a subproof contains -/

/-- Whether the nested subproof opened at a line contains another line. -/
def encloses (lines : List Line) (opener index : Nat) : Bool :=
  match lines[opener]?, span? lines opener with
  | some l, some (first, last) => 0 < l.depth && first ≤ index && index ≤ last
  | _, _ => false

theorem le_length_takeWhile_iff {α : Type} {q : α → Bool} {xs : List α} {k : Nat} :
    k ≤ (xs.takeWhile q).length ↔ k ≤ xs.length ∧ ∀ x ∈ xs.take k, q x := by
  induction xs generalizing k with
  | nil => simp
  | cons x xs ih =>
    cases k with
    | zero => simp
    | succ k => cases hx : q x <;> simp [hx, ih]

theorem span?_eq_some (hl : lines[p]? = some l) (ha : l.isAssumption) :
    span? lines p = some (p, p + (body lines p l.depth).length) := by
  simp [span?, hl, ha]

/-- The lines of a subproof are those from its opener on, up to the first that closes it. -/
theorem le_span_iff (hi : i < lines.length) (hp : p ≤ i) {depth : Int} :
    i ≤ p + (body lines p depth).length ↔
      ∀ m ∈ (lines.drop (p + 1)).take (i - p), m.closes depth = false := by
  have hlen : i - p ≤ (lines.drop (p + 1)).length := by
    rw [List.length_drop]
    omega
  rw [← Nat.sub_le_iff_le_add', body, le_length_takeWhile_iff, and_iff_right hlen]
  simp

theorem encloses_iff_le (hl : lines[p]? = some l) (ha : l.isAssumption) (hd : 0 < l.depth) :
    encloses lines p i ↔ p ≤ i ∧ i ≤ p + (body lines p l.depth).length := by
  simp [encloses, hl, span?_eq_some hl ha, hd]

theorem exists_of_encloses (h : encloses lines p i) :
    ∃ l, lines[p]? = some l ∧ l.isAssumption ∧ 0 < l.depth := by
  cases hl : lines[p]? with
  | none => simp [encloses, hl] at h
  | some l =>
    cases ha : l.isAssumption with
    | false => simp [encloses, span?, hl, ha] at h
    | true =>
      simp only [encloses, hl, span?_eq_some hl ha, Bool.and_eq_true, decide_eq_true_eq] at h
      exact ⟨l, rfl, ha, h.1.1⟩

/-- The chain of a later line contains that of a hypothesis as long as nothing closes it. -/
theorem chainAt_prefix_iff (h : WellNested lines) (hi : i < lines.length)
    (hl : lines[p]? = some l) (hd : 0 < l.depth) (hp : p ≤ i) :
    chainAt lines p <+: chainAt lines i ↔
      ∀ m ∈ (lines.drop (p + 1)).take (i - p), m.closes l.depth = false := by
  have hlen := length_chainAt h hl
  have hne : chainAt lines p ≠ [] := List.length_pos_iff.1 (by omega)
  have hlt : ∀ x ∈ chainAt lines p, x < p + 1 := fun x hx => lt_of_mem_chainAt hx
  rw [chainAt_eq_chainFrom hi hp, prefix_chainFrom_iff hne hlt, hlen,
    and_iff_right (List.prefix_refl _)]

theorem encloses_iff (h : WellNested lines) (hi : i < lines.length) :
    encloses lines p i ↔ ∃ l, lines[p]? = some l ∧ l.isAssumption ∧ 0 < l.depth ∧
      chainAt lines p <+: chainAt lines i := by
  constructor
  · intro hp
    obtain ⟨l, hl, ha, hd⟩ := exists_of_encloses hp
    obtain ⟨hle, hspan⟩ := (encloses_iff_le hl ha hd).1 hp
    exact ⟨l, hl, ha, hd, (chainAt_prefix_iff h hi hl hd hle).2 ((le_span_iff hi hle).1 hspan)⟩
  · rintro ⟨l, hl, ha, hd, hpre⟩
    have hle : p ≤ i :=
      Nat.lt_succ_iff.1 (lt_of_mem_chainAt (hpre.subset (mem_chainAt_self hl ha hd)))
    have hclosed := (chainAt_prefix_iff h hi hl hd hle).1 hpre
    exact (encloses_iff_le hl ha hd).2 ⟨hle, (le_span_iff hi hle).2 hclosed⟩

end NaturalDeduction.Scope
