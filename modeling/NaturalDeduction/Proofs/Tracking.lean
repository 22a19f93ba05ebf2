import NaturalDeduction.Proofs.Chain

/-!
# Tracked documents

A document stores only the depths of its lines. Here it is constructed together with an explicit
stack of the subproofs that are open: opening a subproof pushes its hypothesis, closing it pops
it, every new line records the stack, and a deletion goes back to what the new last line has
recorded. The stacks turn out to be the chains that follow from the depths, so that the scopes of
a document are those of its stack.

## Main definitions

* `Tracked`: a document, the stack of its open subproofs and the recorded stacks
* `Tracked.run`: the tracked document after some operations and changes of the strictness
* `Tracked.Faithful`: the stacks are the chains of the lines

## Main statements

* `Tracked.faithful_run`: the stacks are faithful after every run
* `Tracked.scope_iff_stack`: depths and stacks agree about what may be cited
-/

namespace NaturalDeduction

open Scope

/-! ## Chains of all lines -/

namespace Scope

variable {lines ls : List Line} {l : Line} {cursor : Int}

/-- The chains of the lines in order. -/
def chains (lines : List Line) : List (List Nat) :=
  (List.range lines.length).map (chainAt lines)

theorem chains_concat (ls : List Line) (l : Line) :
    chains (ls ++ [l]) = chains ls ++ [chain (ls ++ [l])] := by
  have hold : (List.range ls.length).map (chainAt (ls ++ [l])) = chains ls :=
    List.map_congr_left fun i hi => chainAt_append (List.mem_range.1 hi)
  have hnew : chainAt (ls ++ [l]) ls.length = chain (ls ++ [l]) := by
    rw [chainAt, List.take_of_length_le (by simp)]
  rw [chains, List.length_append, List.length_singleton, List.range_succ, List.map_append, hold,
    List.map_singleton, hnew]

theorem chains_dropLast (lines : List Line) : chains lines.dropLast = (chains lines).dropLast := by
  rcases List.eq_nil_or_concat' lines with rfl | ⟨ls, l, rfl⟩
  · rfl
  · rw [chains_concat, List.dropLast_concat, List.dropLast_concat]

theorem getLast?_chains (lines : List Line) : (chains lines).getLast?.getD [] = chain lines := by
  rcases List.eq_nil_or_concat' lines with rfl | ⟨ls, l, rfl⟩
  · rfl
  · rw [chains_concat, List.getLast?_concat, Option.getD_some]

theorem getElem?_chains {i : Nat} {s : List Nat} :
    (chains lines)[i]? = some s ↔ i < lines.length ∧ chainAt lines i = s := by
  rw [List.getElem?_eq_some_iff]
  simp [chains]

/-- At the depth of the last line all of its chain is open. -/
theorem openChain_level (h : WellNested lines) : openChain lines (level lines) = chain lines := by
  rw [openChain, ← length_chain h, Int.toNat_natCast, List.take_length]

theorem dropLast_openChain (hc : 0 ≤ cursor) (hle : cursor ≤ (chain lines).length) :
    (openChain lines cursor).dropLast = openChain lines (cursor - 1) := by
  rw [openChain, List.dropLast_eq_take, List.take_take, openChain, List.length_take]
  congr 1
  omega

end Scope

/-- A document with the stack of its open subproofs, from the outermost to the innermost, and the
stacks that its lines have recorded. -/
structure Tracked where
  document : Document
  stack : List Nat
  recorded : List (List Nat)

namespace Tracked

variable {t : Tracked} {d' : Document} {op : Operation}

def start (strict : Bool) : Tracked := ⟨.empty strict, [], []⟩

/-- What happens to the stacks when an operation leads to a document. -/
def accept (t : Tracked) (d' : Document) : Operation → Tracked
  | .assume _ | .infer _ => ⟨d', t.stack, t.recorded ++ [t.stack]⟩
  | .suppose _ =>
    let stack := t.stack ++ [t.document.lines.length]
    ⟨d', stack, t.recorded ++ [stack]⟩
  | .discharge => ⟨d', t.stack.dropLast, t.recorded⟩
  | .delete =>
    let recorded := t.recorded.dropLast
    ⟨d', recorded.getLast?.getD [], recorded⟩

def attempt (t : Tracked) (op : Operation) : Tracked :=
  match t.document.apply op with
  | .ok d' => t.accept d' op
  | .error _ => t

def edit (t : Tracked) : Edit → Tracked
  | .operate op => t.attempt op
  | .setStrict strict => { t with document := { t.document with strict } }

def revise (t : Tracked) (es : List Edit) : Tracked := es.foldl edit t

/-- The tracked document after some operations and changes of the strictness. -/
def run (strict : Bool) (es : List Edit) : Tracked := (start strict).revise es

/-! ## The stacks are the chains -/

/-- The stacks are those that follow from the depths. -/
structure Faithful (t : Tracked) : Prop where
  wellFormed : t.document.WellFormed
  recorded_eq : t.recorded = chains t.document.lines
  stack_eq : t.stack = openChain t.document.lines t.document.cursor

theorem faithful_start (strict : Bool) : (start strict).Faithful where
  wellFormed := Document.wellFormed_empty strict
  recorded_eq := rfl
  stack_eq := rfl

/-- A line at the end records its own chain. -/
theorem Faithful.concat (ht : t.Faithful) {l : Line}
    (hwf : Document.WellFormed { t.document.append l with cursor := l.depth })
    {stack : List Nat} (hstack : chain (t.document.lines ++ [l]) = stack) :
    Faithful ⟨{ t.document.append l with cursor := l.depth }, stack, t.recorded ++ [stack]⟩ where
  wellFormed := hwf
  recorded_eq := by simp only [Document.append, ht.recorded_eq, chains_concat, hstack]
  stack_eq := by
    have hopen := openChain_level hwf.nested
    simp only [Document.append, level_concat] at hopen ⊢
    rw [hopen, hstack]

/-- An accepted operation keeps the stacks faithful. -/
theorem Faithful.accept (ht : t.Faithful) (h : t.document.Step op d') :
    (t.accept d' op).Faithful := by
  have hwf := h.wellFormed ht.wellFormed
  have hd := ht.wellFormed
  have hlen := length_chain hd.nested
  have hle := hd.cursor_le
  have hge := hd.cursor_nonneg
  cases h with
  | assume f h =>
    -- The cursor is at zero, so that the stack is empty before and after.
    have hcursor := hd.cursor_eq_zero h
    have hnil : t.stack = [] := by simp [ht.stack_eq, openChain, hcursor]
    refine ⟨hwf, ?_, ?_⟩
    · simp [Tracked.accept, Document.append, ht.recorded_eq, chains_concat, hnil, extend,
        Line.premise]
    · simp [Tracked.accept, Document.append, hnil, openChain, hcursor]
  | suppose f =>
    refine ht.concat (l := .hypothesis (t.document.cursor + 1) f) hwf ?_
    have hpos : 0 < t.document.cursor + 1 := by omega
    simp [extend, Line.hypothesis, Line.isAssumption, hpos, ht.stack_eq, openChain]
  | discharge h =>
    refine ⟨hwf, ht.recorded_eq, ?_⟩
    rw [Tracked.accept, ht.stack_eq, dropLast_openChain hge (by omega)]
  | delete h =>
    have hrecorded : t.recorded.dropLast = chains t.document.dropLast.lines := by
      rw [ht.recorded_eq, Document.dropLast, chains_dropLast]
    refine ⟨hwf, hrecorded, ?_⟩
    simp only [Tracked.accept, hrecorded, getLast?_chains]
    exact (openChain_level hwf.nested).symm
  | @infer i j f hj hf =>
    refine ht.concat (l := .derived t.document.cursor f j.rule (j.cited.map Fin.val)) hwf ?_
    simp [extend, Line.derived, Line.isAssumption, ht.stack_eq, openChain]

theorem Faithful.attempt (ht : t.Faithful) (op : Operation) : (t.attempt op).Faithful := by
  unfold Tracked.attempt
  split
  · exact ht.accept (Document.apply_eq_ok_iff.1 ‹_›)
  · exact ht

theorem Faithful.edit (ht : t.Faithful) (e : Edit) : (t.edit e).Faithful := by
  cases e with
  | operate op => exact ht.attempt op
  | setStrict strict => exact ⟨{ ht.wellFormed with }, ht.recorded_eq, ht.stack_eq⟩

theorem Faithful.revise (ht : t.Faithful) (es : List Edit) : (t.revise es).Faithful := by
  induction es generalizing t with
  | nil => exact ht
  | cons e es ih => exact ih (ht.edit e)

theorem faithful_run (strict : Bool) (es : List Edit) : (run strict es).Faithful :=
  (faithful_start strict).revise es

/-! ## The document is the same as without stacks -/

theorem document_accept (t : Tracked) (d' : Document) (op : Operation) :
    (t.accept d' op).document = d' := by
  cases op <;> rfl

theorem document_edit (t : Tracked) (e : Edit) : (t.edit e).document = t.document.edit e := by
  cases e with
  | operate op =>
    cases h : t.document.apply op with
    | ok d' =>
      have hstep := Document.apply_eq_ok_iff.1 h
      simp [edit, attempt, Document.edit, Document.attempt_of_step hstep, h, document_accept]
    | error r => simp [edit, attempt, Document.edit, Document.attempt_of_error h, h]
  | setStrict strict => rfl

theorem document_revise (t : Tracked) (es : List Edit) :
    (t.revise es).document = t.document.revise es := by
  induction es generalizing t with
  | nil => rfl
  | cons e es ih =>
    have h := ih (t.edit e)
    rw [document_edit] at h
    exact h

/-- The depths of a document say the same about scopes as its stacks. The cursor and the depths
are the heights of the stacks; a line may be cited exactly if the stack that it has recorded is a
part of the current one; and a subproof may be cited exactly if its own stack is none, but the
stack around it is. -/
theorem scope_iff_stack (strict : Bool) (es : List Edit) :
    let t := run strict es
    t.document = (Document.empty strict).revise es ∧
    t.document.cursor = t.stack.length ∧
    t.document.lines.map (·.depth) = t.recorded.map (fun s => (s.length : Int)) ∧
    (∀ i, isAvailable t.document.lines t.document.cursor i ↔
      ∃ s, t.recorded[i]? = some s ∧ s <+: t.stack) ∧
    (∀ i, isCitable t.document.lines t.document.cursor i ↔
      ∃ l s, t.document.lines[i]? = some l ∧ t.recorded[i]? = some s ∧ l.isAssumption ∧
        s ≠ [] ∧ ¬ s <+: t.stack ∧ s.dropLast <+: t.stack) := by
  intro t
  have ht : t.Faithful := faithful_run strict es
  have hnested := ht.wellFormed.nested
  have hc := ht.wellFormed.cursor_nonneg
  refine ⟨document_revise _ es, ?_, ?_, ?_, ?_⟩
  · have hle := ht.wellFormed.cursor_le
    have hlen := length_chain hnested
    rw [ht.stack_eq, openChain, List.length_take]
    omega
  · rw [ht.recorded_eq]
    refine List.ext_getElem (by simp [chains]) fun i hi _ => ?_
    have hi' : i < t.document.lines.length := by simpa using hi
    simp [chains, length_chainAt hnested (List.getElem?_eq_getElem hi')]
  · intro i
    rw [isAvailable_iff hnested hc, ht.recorded_eq, ht.stack_eq]
    simp [getElem?_chains, and_assoc]
  · intro i
    rw [isCitable_iff hnested hc, ht.recorded_eq, ht.stack_eq]
    refine exists_congr fun l => ?_
    constructor
    · rintro ⟨hl, ha, hd, hnot, hparent⟩
      refine ⟨_, hl, getElem?_chains.2 ⟨lt_length_of_getElem? hl, rfl⟩, ha, ?_, hnot, hparent⟩
      exact List.ne_nil_of_mem (mem_chainAt_self hl ha hd)
    · rintro ⟨s, hl, hs, ha, hne, hnot, hparent⟩
      obtain ⟨-, rfl⟩ := getElem?_chains.1 hs
      have hpos := List.length_pos_iff.2 hne
      have hlen := length_chainAt hnested hl
      exact ⟨hl, ha, by omega, hnot, hparent⟩

end Tracked

end NaturalDeduction
