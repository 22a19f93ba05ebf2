import Mathlib.Data.Set.Insert
import NaturalDeduction.Proofs.Rules

/-!
# Constructions

A document is constructed from the empty one by operations, of which some may be refused, and by
changes of its strictness. What an accepted operation does is said once, by `Document.Step`;
every fact about constructions is derived from it by induction.

## Main definitions

* `Document.Step`: what an accepted operation does
* `Document.Adds`: the lines that can come next in a document
* `Document.run`: the document after some operations, refused ones included
* `Document.execute`: the document after some operations, none of which is refused
* `Edit`, `Document.revise`: operations and changes of the strictness
* `Document.Reachable`: the documents that can be constructed

## Main statements

* `Document.apply_eq_ok_iff`: the steps are the accepted operations
* `Document.Reachable.line_added`: every line was added to the lines that stand before it
-/

namespace NaturalDeduction

/-! ## Reading a list that has grown or was cut -/

section

variable {α : Type} {xs : List α} {x y : α} {i k : Nat}

theorem getElem?_concat_eq_some_iff :
    (xs ++ [x])[i]? = some y ↔ xs[i]? = some y ∨ i = xs.length ∧ x = y := by
  obtain hi | rfl | hi := Nat.lt_trichotomy i xs.length
  · rw [List.getElem?_append_left hi]
    simp [hi.ne]
  · simp
  · rw [List.getElem?_eq_none (by simp; omega), List.getElem?_eq_none (by omega)]
    simp [hi.ne']

theorem getElem?_take_eq_some_iff : (xs.take k)[i]? = some y ↔ i < k ∧ xs[i]? = some y := by
  simp [List.getElem?_take]

theorem lt_length_of_getElem? (h : xs[i]? = some y) : i < xs.length :=
  (List.getElem?_eq_some_iff.1 h).1

end

/-- A citation names a line exactly if it is the number of the line. -/
theorem LineRef.resolve?_eq_some_iff {n : Nat} {c : LineRef} {k : Fin n} :
    c.resolve? n = some k ↔ c = .number k.val := by
  cases c with
  | number i =>
    cases i with
    | ofNat i =>
      have hlt := k.isLt
      simp only [resolve?, Option.dite_none_right_eq_some, Option.some.injEq, Fin.ext_iff,
        number.injEq, Int.ofNat_eq_natCast, exists_prop]
      omega
    | negSucc i => simp [resolve?]
  | other text => simp [resolve?]

/-- A change of a document: an operation, or a decision about its strictness. -/
inductive Edit where
  | operate (op : Operation)
  | setStrict (strict : Bool)
deriving DecidableEq

namespace Document

open Procedure

variable {d d' : Document} {op : Operation} {modes : Set Bool} {m : Machine} {k : Desk}

/-! ## Steps -/

/-- What an accepted operation does. -/
inductive Step (d : Document) : Operation → Document → Prop
  | assume (f : Formula) (h : (d.lines.length : Int) ≤ d.boundary) :
      Step d (.assume f) { d.append (.premise f) with boundary := d.boundary + 1 }
  | suppose (f : Formula) :
      Step d (.suppose f)
        { d.append (.hypothesis (d.cursor + 1) f) with cursor := d.cursor + 1 }
  | discharge (h : d.cursor ≠ 0) : Step d .discharge { d with cursor := d.cursor - 1 }
  | delete (h : d.lines ≠ []) : Step d .delete d.dropLast
  | infer {i : Inference LineRef} {j : Inference (Fin d.lines.length)} {f : Formula}
      (hj : i.traverse (LineRef.resolve? d.lines.length) = some j) (hf : d.Concludes j f) :
      Step d (.infer i) (d.append (.derived d.cursor f j.rule (j.cited.map Fin.val)))

/-- However an operation is carried out: it ends only with a step. If it is refused, the document is
as before. If there is no room for a formula, it is as before or after a step. -/
theorem procedure_meets {done : Unit → Desk → Prop} {broken : Stop → Desk → Prop}
    (hdone : ∀ k', k.document.Step op k'.document → done () k')
    (hrefused : ∀ r k', k'.document = k.document → broken (.refused r) k')
    (hoverflow : m.Bounded → ∀ k', k'.document = k.document ∨ k.document.Step op k'.document →
      broken .overflow k') :
    Meets (op.procedure m) k done broken := by
  have hrefuse {α : Type} {done : α → Desk → Prop} (note : Refusal → Record) (r : Refusal) :
      Meets (refuse m note r) k done broken :=
    meets_refuse_of (fun k' => hrefused r k') fun h => hoverflow h k (.inl rfl)
  have hroom {k' : Desk} {f : Formula} {done : Unit → Desk → Prop}
      (hstep : k.document.Step op k'.document) (h : done () k') :
      Meets (room m [f]) k' done broken :=
    meets_room_of h fun h => hoverflow h k' (.inr hstep)
  cases op with
  | assume f =>
    simp only [Operation.procedure, Procedure.assume, meets_bind, meets_get, meets_ite,
      meets_update, meets_record, hrefuse, implies_true, true_and]
    intro hboundary
    have hle := Int.not_lt.1 hboundary
    rw [Position.after_of_length_le hle, Position.before_of_length_le hle]
    have hstep := Step.assume (d := k.document) f hle
    exact hroom hstep (hdone _ hstep)
  | suppose f =>
    simp only [Operation.procedure, Procedure.suppose, addLine, meets_bind, meets_get,
      meets_update, meets_record]
    have hstep := Step.suppose (d := k.document) f
    exact hroom hstep (hdone _ hstep)
  | discharge =>
    simp only [Operation.procedure, Procedure.discharge, meets_bind, meets_get, meets_ite,
      meets_update, meets_record, hrefuse, implies_true, true_and]
    intro hcursor
    exact hdone _ (.discharge hcursor)
  | delete =>
    simp only [Operation.procedure, Procedure.delete, meets_bind, meets_get, meets_ite,
      meets_update, meets_record, hrefuse, implies_true, true_and]
    intro hlines
    exact hdone _ (.delete hlines)
  | infer i =>
    simp only [Operation.procedure, Procedure.infer, meets_bind, meets_get]
    split
    · exact hrefuse _ _
    · rename_i j hj
      rw [meets_bind]
      refine derive_meets (fun f hf => ?_) hrefused fun h => hoverflow h k (.inl rfl)
      simp only [addLine, meets_bind, meets_get, meets_update, meets_record]
      have hstep := Step.infer hj hf
      exact hroom hstep (hdone _ hstep)

/-- What comes of an operation on any machine. -/
theorem call_cases (d : Document) (m : Machine) (op : Operation) :
    match d.call m op with
    | (.ok (), k) => d.Step op k.document
    | (.error (.refused _), k) => k.document = d
    | (.error .overflow, k) => m.Bounded ∧ (k.document = d ∨ d.Step op k.document) := by
  have h : Meets (op.procedure m) ⟨d, []⟩ (fun _ k => d.Step op k.document) fun s k =>
      match s with
      | .refused _ => k.document = d
      | .overflow => m.Bounded ∧ (k.document = d ∨ d.Step op k.document) :=
    procedure_meets (fun _ hk => hk) (fun _ _ hk => hk) fun hm _ hk => ⟨hm, hk⟩
  unfold call
  revert h
  unfold Meets
  rcases (op.procedure m).on ⟨d, []⟩ with ⟨⟨_ | _⟩ | _, k⟩ <;> exact id

theorem step_of_call (h : d.call m op = (.ok (), k)) : d.Step op k.document := by
  have hcases := d.call_cases m op
  rwa [h] at hcases

theorem document_of_refused {r : Refusal} (h : d.call m op = (.error (.refused r), k)) :
    k.document = d := by
  have hcases := d.call_cases m op
  rwa [h] at hcases

theorem cases_of_overflow (h : d.call m op = (.error .overflow, k)) :
    m.Bounded ∧ (k.document = d ∨ d.Step op k.document) := by
  have hcases := d.call_cases m op
  rwa [h] at hcases

theorem not_bounded_unlimited : ¬ Machine.unlimited.Bounded := by
  simp [Machine.Bounded, Machine.unlimited]

/-- Where there is room for every formula, only a refusal keeps an operation from its end. -/
theorem call_unlimited_ne_overflow : d.call .unlimited op ≠ (.error .overflow, k) :=
  fun h => not_bounded_unlimited (cases_of_overflow h).1

/-- Every step is taken where there is room for every formula. -/
theorem call_of_step (h : d.Step op d') : ∃ log, d.call .unlimited op = (.ok (), ⟨d', log⟩) := by
  have hmeets : Meets (op.procedure .unlimited) ⟨d, []⟩ (fun _ k => k.document = d')
      fun _ _ => False := by
    cases h with
    | assume f h =>
      simp only [Operation.procedure, Procedure.assume, meets_bind, meets_get,
        if_neg (Int.not_lt.2 h), meets_update, room_unlimited, meets_pure, meets_record,
        Position.after_of_length_le h, Position.before_of_length_le h]
      rfl
    | suppose f =>
      simp only [Operation.procedure, Procedure.suppose, addLine, meets_bind, meets_get,
        meets_update, room_unlimited, meets_pure, meets_record]
      rfl
    | discharge h =>
      simp only [Operation.procedure, Procedure.discharge, meets_bind, meets_get, if_neg h,
        meets_update, meets_record]
    | delete h =>
      simp only [Operation.procedure, Procedure.delete, meets_bind, meets_get, if_neg h,
        meets_update, meets_record]
      rfl
    | infer hj hf =>
      simp only [Operation.procedure, Procedure.infer, addLine, meets_bind, meets_get, hj,
        derive_of_concludes hf, pure_bind, meets_update, room_unlimited, meets_record]
  unfold call
  revert hmeets
  unfold Meets
  rcases (op.procedure .unlimited).on ⟨d, []⟩ with ⟨_ | _, k⟩
  · exact False.elim
  · rintro rfl
    exact ⟨k.log, rfl⟩

theorem apply_eq_ok_iff : d.apply op = .ok d' ↔ d.Step op d' := by
  unfold apply
  constructor
  · intro h
    split at h
    · cases h
      exact step_of_call ‹_›
    · cases h
  · intro h
    obtain ⟨log, h⟩ := call_of_step h
    rw [h]

/-- The lines that can come next. -/
inductive Adds (d : Document) : Line → Prop
  | premise (f : Formula) (h : (d.lines.length : Int) ≤ d.boundary) : Adds d (.premise f)
  | hypothesis (f : Formula) : Adds d (.hypothesis (d.cursor + 1) f)
  | derived {i : Inference (Fin d.lines.length)} {f : Formula} (h : d.Concludes i f) :
      Adds d (.derived d.cursor f i.rule (i.cited.map Fin.val))

/-- A step adds a line at the end or keeps the first lines. -/
theorem Step.lines_cases (h : d.Step op d') :
    (∃ l, d.Adds l ∧ d'.lines = d.lines ++ [l]) ∨ ∃ k, d'.lines = d.lines.take k := by
  cases h with
  | assume f h => exact .inl ⟨_, .premise f h, rfl⟩
  | suppose f => exact .inl ⟨_, .hypothesis f, rfl⟩
  | discharge h => exact .inr ⟨d.lines.length, List.take_length.symm⟩
  | delete h => exact .inr ⟨d.lines.length - 1, List.dropLast_eq_take⟩
  | infer hj hf => exact .inl ⟨_, .derived hf, rfl⟩

theorem Step.strict_eq (h : d.Step op d') : d'.strict = d.strict := by
  cases h <;> rfl

/-! ## Runs -/

/-- The document that is left by an operation, accepted or refused. -/
def attempt (d : Document) (op : Operation) : Document := (d.call .unlimited op).2.document

/-- The document after some operations. -/
def run (d : Document) (ops : List Operation) : Document := ops.foldl attempt d

def edit (d : Document) : Edit → Document
  | .operate op => d.attempt op
  | .setStrict strict => { d with strict }

/-- The document after some operations and changes of the strictness. -/
def revise (d : Document) (es : List Edit) : Document := es.foldl edit d

/-- The document after some operations, all of which have to be accepted. -/
def execute (d : Document) (ops : List Operation) : Except Stop Document := ops.foldlM apply d

@[simp] theorem execute_nil (d : Document) : d.execute [] = .ok d := rfl

theorem execute_cons_eq_ok_iff {e : Document} {ops : List Operation} :
    d.execute (op :: ops) = .ok e ↔ ∃ d', d.Step op d' ∧ d'.execute ops = .ok e := by
  simp only [execute, List.foldlM_cons, ← apply_eq_ok_iff]
  cases d.apply op <;> simp [bind, Except.bind]

theorem execute_append_eq_ok_iff {e : Document} {ops ops' : List Operation} :
    d.execute (ops ++ ops') = .ok e ↔ ∃ d', d.execute ops = .ok d' ∧ d'.execute ops' = .ok e := by
  simp only [execute, List.foldlM_append]
  cases ops.foldlM apply d <;> simp [bind, Except.bind]

theorem attempt_of_step (h : d.Step op d') : d.attempt op = d' := by
  obtain ⟨log, h⟩ := call_of_step h
  rw [attempt, h]

/-- A refused operation leaves the document as it was. -/
theorem attempt_of_error {s : Stop} (h : d.apply op = .error s) : d.attempt op = d := by
  unfold apply at h
  unfold attempt
  rcases hcall : d.call .unlimited op with ⟨⟨r | _⟩ | _, k⟩
  · exact document_of_refused hcall
  · exact absurd hcall call_unlimited_ne_overflow
  · simp [hcall] at h

theorem attempt_cases (d : Document) (op : Operation) :
    d.Step op (d.attempt op) ∨ d.attempt op = d := by
  cases h : d.apply op with
  | error s => exact .inr (attempt_of_error h)
  | ok d' =>
    have hstep := apply_eq_ok_iff.1 h
    rw [attempt_of_step hstep]
    exact .inl hstep

/-- The documents that can be constructed while the strictness is one of `modes`. -/
inductive Reachable (modes : Set Bool) : Document → Prop
  | empty {strict : Bool} (h : strict ∈ modes) : Reachable modes (.empty strict)
  | step {d d' : Document} {op : Operation} (hd : Reachable modes d) (h : d.Step op d') :
      Reachable modes d'
  | setStrict {d : Document} {strict : Bool} (hd : Reachable modes d) (h : strict ∈ modes) :
      Reachable modes { d with strict }

namespace Reachable

theorem attempt (hd : Reachable modes d) (op : Operation) : Reachable modes (d.attempt op) := by
  obtain h | h := d.attempt_cases op
  · exact .step hd h
  · rwa [h]

theorem run (hd : Reachable modes d) (ops : List Operation) : Reachable modes (d.run ops) := by
  induction ops generalizing d with
  | nil => exact hd
  | cons op ops ih => exact ih (hd.attempt op)

theorem revise (hd : Reachable Set.univ d) (es : List Edit) :
    Reachable Set.univ (d.revise es) := by
  induction es generalizing d with
  | nil => exact hd
  | cons e es ih =>
    cases e with
    | operate op => exact ih (hd.attempt op)
    | setStrict strict => exact ih (.setStrict hd trivial)

theorem execute (hd : Reachable modes d) {ops : List Operation} (h : d.execute ops = .ok d') :
    Reachable modes d' := by
  induction ops generalizing d with
  | nil =>
    cases h
    exact hd
  | cons op ops ih =>
    obtain ⟨e, hstep, h⟩ := execute_cons_eq_ok_iff.1 h
    exact ih (.step hd hstep) h

theorem strict_mem (hd : Reachable modes d) : d.strict ∈ modes := by
  induction hd with
  | empty h => exact h
  | step _ h ih => rwa [h.strict_eq]
  | setStrict _ h _ => exact h

/-- Every line was added to a document that consisted of the lines before it: lines that came
after it may have been deleted since, but none of those before it. -/
theorem line_added (hd : Reachable modes d) {k : Nat} {l : Line} (hl : d.lines[k]? = some l) :
    ∃ e, Reachable modes e ∧ e.lines = d.lines.take k ∧ e.Adds l := by
  induction hd with
  | empty h => simp [Document.empty, Proof.empty] at hl
  | setStrict _ _ ih => exact ih hl
  | @step d d' op hd h ih =>
    obtain ⟨m, hm, hlines⟩ | ⟨n, hlines⟩ := h.lines_cases
    · rw [hlines] at hl ⊢
      obtain hl | ⟨rfl, rfl⟩ := getElem?_concat_eq_some_iff.1 hl
      · rw [List.take_append_of_le_length (lt_length_of_getElem? hl).le]
        exact ih hl
      · exact ⟨d, hd, by simp, hm⟩
    · rw [hlines] at hl ⊢
      obtain ⟨hk, hl⟩ := getElem?_take_eq_some_iff.1 hl
      rw [List.take_take, Nat.min_eq_left hk.le]
      exact ih hl

end Reachable

/-- A document that is never made strict or lax on the way stays as it was started. -/
theorem reachable_run (strict : Bool) (ops : List Operation) :
    Reachable {strict} ((empty strict).run ops) :=
  (Reachable.empty (Set.mem_singleton _)).run ops

theorem reachable_revise (strict : Bool) (es : List Edit) :
    Reachable Set.univ ((empty strict).revise es) :=
  (Reachable.empty (Set.mem_univ _)).revise es

end Document

end NaturalDeduction
