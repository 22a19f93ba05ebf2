import Mathlib.Algebra.Order.BigOperators.Group.List
import Mathlib.Algebra.Order.Group.Nat
import NaturalDeduction.Proofs.Construction

/-!
# Machines with little room

A machine that has not room for every formula may break an operation off. Until then it does the
same as any other machine, so the only difference that it makes is where it stops. And it does not
stop at all if it has room for formulas that are nested a little deeper than those of the document
and of the operation. Both are read off one comparison of a machine with the unlimited one.

## Main definitions

* `Machine.RoomFor`: there is room for all formulas up to a depth
* `Document.DepthAtMost`: how deeply the formulas of a document are nested
* `Procedure.Agrees`: a procedure does the same as another one as far as there is room

## Main statements

* `Document.call_agrees`: an operation is broken off or has the same outcome as with unlimited room
* `Document.call_ne_overflow`: how much room an operation takes at most
-/

namespace NaturalDeduction

/-- There is room for all formulas up to the given depth. -/
structure Machine.RoomFor (m : Machine) (n : Nat) : Prop where
  writes {s : SymbolSet} {f : Formula} : f.depth ≤ n → m.writes s f
  compares {f g : Formula} : f.depth ≤ n → g.depth ≤ n → m.compares f g

theorem Machine.roomFor_ofDepth (n : Nat) : (Machine.ofDepth n).RoomFor n where
  writes h := by simpa [ofDepth]
  compares hf hg := by
    simp [ofDepth]
    omega

/-! ## How deeply formulas are nested -/

theorem Inference.formulas_of_traverse {ι κ : Type} {g : ι → Option κ} {i : Inference ι}
    {j : Inference κ} (h : i.traverse g = some j) : j.formulas = i.formulas := by
  cases i <;> simp [traverse, Option.bind_eq_some_iff] at h <;> grind [formulas]

namespace Document

variable {d : Document} {n : Nat} {i : Inference (Fin d.lines.length)} {f : Formula}

/-- The formulas of a document are not nested deeper than given. -/
def DepthAtMost (d : Document) (n : Nat) : Prop := ∀ l ∈ d.lines, l.formula.depth ≤ n

namespace DepthAtMost

theorem get (hd : d.DepthAtMost n) (i : Fin d.lines.length) :
    (d.lines.get i).formula.depth ≤ n := hd _ (d.lines.get_mem i)

theorem result (hd : d.DepthAtMost n) {o : Nat} (h : Scope.result? d.lines o = some f) :
    f.depth ≤ n := by
  simp only [Scope.result?, Option.bind_eq_bind, Option.bind_eq_some_iff] at h
  obtain ⟨span, -, l, hl, hf⟩ := h
  cases hf
  exact hd _ (List.mem_of_getElem? hl)

/-- What an inference derives is nested at most one level deeper. -/
theorem derives (hd : d.DepthAtMost n) (hi : ∀ f ∈ i.formulas, f.depth ≤ n)
    (h : d.Derives i f) : f.depth ≤ n + 1 := by
  have hline (i : Fin d.lines.length) : d.lines[i].formula.depth ≤ n := hd.get i
  have hresult {o : Nat} {g : Formula} := hd.result (o := o) (f := g)
  cases h <;> grind [Formula.depth, Inference.formulas]

end DepthAtMost

/-- The formulas of a document and of an operation have a greatest depth. -/
theorem exists_depthAtMost (d : Document) (op : Operation) :
    ∃ n, d.DepthAtMost n ∧ ∀ f ∈ op.formulas, f.depth ≤ n := by
  have hbound (fs : List Formula) : ∃ n, ∀ f ∈ fs, f.depth ≤ n :=
    ⟨(fs.map Formula.depth).sum, fun f hf => List.le_sum_of_mem (List.mem_map_of_mem hf)⟩
  obtain ⟨n, hn⟩ := hbound (d.lines.map (·.formula) ++ op.formulas)
  simp only [List.mem_append, List.mem_map] at hn
  exact ⟨n, fun l hl => hn _ (.inl ⟨l, hl, rfl⟩), fun f hf => hn f (.inr hf)⟩

end Document

/-! ## Doing the same as far as there is room -/

namespace Procedure

variable {α β : Type} {m : Machine} {note : Refusal → Record} {n : Nat} {k : Desk}

/-- On the given desk the first procedure has the outcome of the second, or it is broken off, which
does not happen if there is room for formulas of the given depth. -/
def Agrees (m : Machine) (n : Nat) (k : Desk) (p q : Procedure α) : Prop :=
  p.on k = q.on k ∨ (p.on k).1 = .error .overflow ∧ ¬ m.RoomFor n

theorem Agrees.refl (p : Procedure α) : Agrees m n k p p := .inl rfl

theorem Agrees.bind {p p' : Procedure β} {q q' : β → Procedure α} (hp : Agrees m n k p p')
    (hq : Meets p k (fun b k' => Agrees m n k' (q b) (q' b)) fun _ _ => True) :
    Agrees m n k (p >>= q) (p' >>= q') := by
  unfold Agrees at hp ⊢
  unfold Meets at hq
  rw [on_bind, on_bind]
  obtain h | ⟨h, hm⟩ := hp
  · rw [← h]
    revert hq
    rcases p.on k with ⟨_ | b, k'⟩
    · exact fun _ => .inl rfl
    · exact id
  · refine .inr ⟨?_, hm⟩
    revert h
    rcases p.on k with ⟨_ | b, k'⟩ <;> simp +contextual

/-- What is done on any machine alike. -/
theorem Agrees.step {p : Procedure β} {q q' : β → Procedure α}
    (hq : Meets p k (fun b k' => Agrees m n k' (q b) (q' b)) fun _ _ => True) :
    Agrees m n k (p >>= q) (p >>= q') := .bind (.refl p) hq

theorem agrees_room {fs : List Formula} (h : ∀ f ∈ fs, f.depth ≤ n) :
    Agrees m n k (room m fs) (room .unlimited fs) := by
  by_cases hroom : fs.all (m.writes .ascii)
  · exact .inl (by rw [room_unlimited, room, if_pos hroom])
  · refine .inr ⟨by rw [room, if_neg hroom]; rfl, fun hm => hroom ?_⟩
    exact List.all_eq_true.2 fun f hf => hm.writes (h f hf)

theorem agrees_same {f g : Formula} (hf : f.depth ≤ n) (hg : g.depth ≤ n) :
    Agrees m n k (same m f g) (same .unlimited f g) := by
  by_cases hsame : m.compares f g
  · exact .inl (by rw [same_unlimited, same, if_pos hsame])
  · exact .inr ⟨by rw [same, if_neg hsame]; rfl, fun hm => hsame (hm.compares hf hg)⟩

theorem agrees_refuse {r : Refusal} (h : ∀ f ∈ r.formulas, f.depth ≤ n) :
    Agrees m n k (refuse m note r : Procedure α) (refuse .unlimited note r) :=
  .bind (agrees_room h) (by simp [meets_room, Agrees.refl])

/-- A refusal that names no formula takes no room. -/
theorem agrees_refuse_of_nil {r : Refusal} (h : r.formulas = []) :
    Agrees m n k (refuse m note r : Procedure α) (refuse .unlimited note r) :=
  agrees_refuse (by simp [h])

/-- A condition that is required before all others. -/
theorem Agrees.require {c : Prop} [Decidable c] {r : Refusal} {p p' : Procedure α}
    (hr : r.formulas = []) (h : Agrees m n k p p') :
    Agrees m n k (do Procedure.require m note c r; p)
      (do Procedure.require .unlimited note c r; p') := by
  by_cases hc : c
  · rw [require_of hc, require_of hc]
    exact h
  · rw [Procedure.require, Procedure.require, if_neg hc, if_neg hc]
    exact .bind (agrees_refuse_of_nil hr)
      (meets_refuse_of (fun _ _ => trivial) fun _ => trivial)

/-- A comparison that decides between two continuations. -/
theorem Agrees.ifSame {f g : Formula} {p p' q q' : Procedure α} (hf : f.depth ≤ n)
    (hg : g.depth ≤ n) (hp : Agrees m n k p p') (hq : Agrees m n k q q') :
    Agrees m n k (do if ← same m f g then p else q)
      (do if ← same .unlimited f g then p' else q') := by
  refine .bind (agrees_same hf hg) (meets_same.2 ⟨fun _ => ?_, fun _ => trivial⟩)
  split
  · exact hp
  · exact hq

theorem agrees_addLine {make : Int → Line} (h : ∀ depth, (make depth).formula.depth ≤ n) :
    Agrees m n k (addLine m make) (addLine .unlimited make) := by
  refine .step (meets_get.2 (.step (meets_update.2 (.bind (agrees_room (by simpa using h _)) ?_))))
  simp [meets_room, Agrees.refl]

end Procedure

namespace Document

open Procedure

variable {m : Machine} {note : Refusal → Record} {d : Document} {op : Operation} {n : Nat}
  {k : Desk} {i : Inference (Fin d.lines.length)}

/-- The checks of an inference take room for one level more than the formulas have, since a formula
may be compared with the negation of another one. -/
theorem derive_agrees (hd : d.DepthAtMost n) (hi : ∀ f ∈ i.formulas, f.depth ≤ n) :
    Agrees m (n + 1) k (d.derive m note i) (d.derive .unlimited note i) := by
  have hline (i : Fin d.lines.length) : d.lines[i].formula.depth ≤ n + 1 :=
    Nat.le_succ_of_le (hd.get i)
  have hresult {o : Nat} {g : Formula} (h : Scope.result? d.lines o = some g) :=
    Nat.le_succ_of_le (hd.result h)
  have hparts {o : BinOp} {f l r : Formula} (hf : f = .binary o l r) (hdepth : f.depth ≤ n + 1) :
      l.depth ≤ n + 1 ∧ r.depth ≤ n + 1 := by
    grind [Formula.depth]
  -- A refusal names a line, the formula that is asked for, or a part of one of them.
  cases i with
  | reiterate i => exact .require rfl (.require rfl (.refl _))
  | andIntro i j => exact .require rfl (.refl _)
  | andElim i target =>
    have htarget := Nat.le_succ_of_le (hi target (by simp [Inference.formulas]))
    refine .require rfl ?_
    split
    · rename_i l r hf
      obtain ⟨hl, hr⟩ := hparts hf (hline i)
      refine .ifSame hl htarget (.refl _) (.ifSame hr htarget (.refl _) (agrees_refuse ?_))
      grind [Refusal.formulas]
    · exact agrees_refuse (by grind [Refusal.formulas])
  | orIntro i target =>
    have htarget := Nat.le_succ_of_le (hi target (by simp [Inference.formulas]))
    refine .require rfl ?_
    split
    · obtain ⟨hl, hr⟩ := hparts rfl htarget
      refine .ifSame (hline i) hl (.refl _) (.ifSame (hline i) hr (.refl _) (agrees_refuse ?_))
      grind [Refusal.formulas]
    · exact agrees_refuse (by grind [Refusal.formulas])
  | orElim i j k =>
    refine .require rfl (.require rfl (.require rfl ?_))
    split
    · rename_i l r hf
      obtain ⟨hl, hr⟩ := hparts hf (hline i)
      refine .ifSame (hline j) hl (.ifSame (hline k) hr ?_ (agrees_refuse ?_)) (agrees_refuse ?_)
      · split
        · rename_i hj hk
          exact .ifSame (hresult hj) (hresult hk) (.refl _) (agrees_refuse_of_nil rfl)
        · exact agrees_refuse_of_nil rfl
      · grind [Refusal.formulas]
      · grind [Refusal.formulas]
    · exact agrees_refuse (by grind [Refusal.formulas])
  | notIntro j => exact .require rfl (.require rfl (.require rfl (.refl _)))
  | notElim i =>
    refine .require rfl ?_
    split
    · exact .refl _
    · exact agrees_refuse (by grind [Refusal.formulas])
  | impliesIntro j =>
    refine .require rfl (.require rfl ?_)
    split
    · exact .refl _
    · exact agrees_refuse_of_nil rfl
  | impliesElim i j =>
    refine .require rfl ?_
    split
    · rename_i l r hf
      obtain ⟨hl, hr⟩ := hparts hf (hline i)
      exact .ifSame (hline j) hl (.refl _) (agrees_refuse (by grind [Refusal.formulas]))
    · exact agrees_refuse (by grind [Refusal.formulas])
  | iffIntro j k =>
    refine .require rfl (.require rfl ?_)
    split
    · rename_i hj hk
      exact .ifSame (hline j) (hresult hk)
        (.ifSame (hresult hj) (hline k) (.refl _) (agrees_refuse_of_nil rfl))
        (agrees_refuse_of_nil rfl)
    · exact agrees_refuse_of_nil rfl
  | iffElim i j =>
    refine .require rfl ?_
    split
    · rename_i l r hf
      obtain ⟨hl, hr⟩ := hparts hf (hline i)
      refine .ifSame (hline j) hl (.refl _) (.ifSame (hline j) hr (.refl _) (agrees_refuse ?_))
      grind [Refusal.formulas]
    · exact agrees_refuse (by grind [Refusal.formulas])
  | absurdIntro i j =>
    have hnot (i : Fin d.lines.length) : d.lines[i].formula.not.depth ≤ n + 1 :=
      Nat.succ_le_succ (hd.get i)
    refine .require rfl (.ifSame (hline j) (hnot i) (.refl _)
      (.ifSame (hline i) (hnot j) (.refl _) (agrees_refuse ?_)))
    grind [Refusal.formulas]
  | absurdElim i target => exact .require rfl (.require rfl (.require rfl (.refl _)))

theorem procedure_agrees (hd : k.document.DepthAtMost n) (hop : ∀ f ∈ op.formulas, f.depth ≤ n) :
    Agrees m (n + 1) k (op.procedure m) (op.procedure .unlimited) := by
  cases op with
  | assume f =>
    have hf := Nat.le_succ_of_le (hop f (by simp [Operation.formulas]))
    refine .step (meets_get.2 ?_)
    dsimp only
    split
    · exact agrees_refuse_of_nil rfl
    · refine .step (meets_update.2 (.step (meets_update.2 (.bind (agrees_room ?_) ?_))))
      · exact List.forall_mem_singleton.2 hf
      · simp [meets_room, Agrees.refl]
  | suppose f =>
    have hf := Nat.le_succ_of_le (hop f (by simp [Operation.formulas]))
    exact .step (meets_get.2 (.step (meets_update.2 (.step (meets_record.2
      (agrees_addLine fun _ => hf))))))
  | discharge | delete =>
    refine .step (meets_get.2 ?_)
    dsimp only
    split
    · exact agrees_refuse_of_nil rfl
    · exact .refl _
  | infer i =>
    refine .step (meets_get.2 ?_)
    dsimp only
    split
    · exact agrees_refuse_of_nil rfl
    · rename_i j hj
      have hformulas : ∀ f ∈ j.formulas, f.depth ≤ n := by
        rw [Inference.formulas_of_traverse hj]
        exact hop
      refine .bind (derive_agrees hd hformulas) ?_
      exact derive_meets (fun f hf => agrees_addLine fun _ => hd.derives hformulas hf.derives)
        (fun _ _ _ => trivial) fun _ => trivial

/-! ## Operations -/

/-- An operation is broken off for want of room or has the same outcome as with unlimited room. -/
theorem call_agrees (d : Document) (m : Machine) (op : Operation) :
    d.call m op = d.call .unlimited op ∨ (d.call m op).1 = .error .overflow := by
  obtain ⟨n, hd, hop⟩ := d.exists_depthAtMost op
  exact (procedure_agrees (k := ⟨d, []⟩) hd hop).imp_right And.left

/-- With room for one level more than the formulas of the document and of an operation have, the
operation is not broken off. -/
theorem call_ne_overflow (hm : m.RoomFor (n + 1)) (hd : d.DepthAtMost n)
    (hop : ∀ f ∈ op.formulas, f.depth ≤ n) : (d.call m op).1 ≠ .error .overflow := by
  obtain h | ⟨-, hroom⟩ := procedure_agrees (m := m) (k := ⟨d, []⟩) hd hop
  · intro hoverflow
    rw [call, h] at hoverflow
    exact call_unlimited_ne_overflow (Prod.ext hoverflow rfl)
  · exact absurd hm hroom

/-- What is refused on some machine can be done on none. -/
theorem not_step_of_refused {r : Refusal} {e : Document}
    (h : d.call m op = (.error (.refused r), k)) : ¬ d.Step op e := by
  intro hstep
  obtain ⟨log, hcall⟩ := call_of_step hstep
  have hagrees := d.call_agrees m op
  simp [h, hcall] at hagrees

end Document

end NaturalDeduction
