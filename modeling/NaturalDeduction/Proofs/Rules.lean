import NaturalDeduction.Proof.Procedure

/-!
# The rules

What each inference derives from the cited lines, and when, as a table with one entry for each
rule. The conditions do not mention strictness: a strict document accepts the same inferences,
provided that what they cite is in scope. The checks that are carried out for an inference are
those of the table: they let pass only what the table lets pass, they leave the document as it is,
and where there is room for every formula they let pass all of it.

## Main definitions

* `Proof.Derives`: the table of the rules
* `Document.Concludes`: what an inference derives if its citations are in scope
* `Procedure.Meets`: how a procedure ends or is broken off
* `Machine.Bounded`: there are formulas that there is no room for

## Main statements

* `Document.derive_meets`: the checks let only pass what the table lets pass, and change nothing
* `Document.derive_of_concludes`: they let pass what the table lets pass, if there is room
-/

namespace NaturalDeduction

open Scope

/-- The table of the rules. -/
inductive Proof.Derives (p : Proof) : Inference (Fin p.lines.length) → Formula → Prop
  | reiterate {i : Fin p.lines.length} (hdepth : p.lines[i].depth ≤ p.cursor) :
      Derives p (.reiterate i) p.lines[i].formula
  | andIntro {i j : Fin p.lines.length} :
      Derives p (.andIntro i j) (.and p.lines[i].formula p.lines[j].formula)
  | andElim {i : Fin p.lines.length} {l r target : Formula}
      (hi : p.lines[i].formula = .and l r) (htarget : l = target ∨ r = target) :
      Derives p (.andElim i target) target
  | orIntro {i : Fin p.lines.length} {l r : Formula}
      (hi : p.lines[i].formula = l ∨ p.lines[i].formula = r) :
      Derives p (.orIntro i (.or l r)) (.or l r)
  | orElim {i j k : Fin p.lines.length} {f : Formula} (hj : i < j) (hk : i < k)
      (hi : p.lines[i].formula = .or p.lines[j].formula p.lines[k].formula)
      (hfj : result? p.lines j = some f) (hfk : result? p.lines k = some f) :
      Derives p (.orElim i j k) f
  | notIntro {j : Fin p.lines.length} (hdepth : p.lines[j].depth = p.cursor + 1)
      (hj : result? p.lines j = some .absurd) :
      Derives p (.notIntro j) (.not p.lines[j].formula)
  | notElim {i : Fin p.lines.length} {f : Formula} (hi : p.lines[i].formula = .not (.not f)) :
      Derives p (.notElim i) f
  | impliesIntro {j : Fin p.lines.length} {f : Formula}
      (hdepth : p.lines[j].depth = p.cursor + 1) (hj : result? p.lines j = some f) :
      Derives p (.impliesIntro j) (.implies p.lines[j].formula f)
  | impliesElim {i j : Fin p.lines.length} {f : Formula}
      (hi : p.lines[i].formula = .implies p.lines[j].formula f) :
      Derives p (.impliesElim i j) f
  | iffIntro {j k : Fin p.lines.length} (hdepthj : p.lines[j].depth = p.cursor + 1)
      (hdepthk : p.lines[k].depth = p.cursor + 1)
      (hj : result? p.lines j = some p.lines[k].formula)
      (hk : result? p.lines k = some p.lines[j].formula) :
      Derives p (.iffIntro j k) (.iff p.lines[j].formula p.lines[k].formula)
  | iffElimLeft {i j : Fin p.lines.length} {f : Formula}
      (hi : p.lines[i].formula = .iff p.lines[j].formula f) :
      Derives p (.iffElim i j) f
  | iffElimRight {i j : Fin p.lines.length} {f : Formula}
      (hi : p.lines[i].formula = .iff f p.lines[j].formula) :
      Derives p (.iffElim i j) f
  | absurdIntro {i j : Fin p.lines.length}
      (hij : p.lines[j].formula = .not p.lines[i].formula ∨
        p.lines[i].formula = .not p.lines[j].formula) :
      Derives p (.absurdIntro i j) .absurd
  | absurdElim {i : Fin p.lines.length} {target : Formula}
      (hi : p.lines[i].formula = .absurd) (hdepth : p.lines[i].depth ≤ p.cursor) :
      Derives p (.absurdElim i target) target

/-- What an inference derives in a document: what the table says, provided that the citations are
in scope. -/
structure Document.Concludes (d : Document) (i : Inference (Fin d.lines.length)) (f : Formula) :
    Prop where
  lines_inScope : d.linesInScope (i.citedLines.map Fin.val)
  subproofs_inScope : d.subproofsInScope (i.citedSubproofs.map Fin.val)
  derives : d.Derives i f

/-! ## How procedures end -/

/-- There is not room for every formula. -/
def Machine.Bounded (m : Machine) : Prop :=
  (∃ s f, ¬ m.writes s f) ∨ ∃ f g, ¬ m.compares f g

namespace Procedure

variable {α β : Type} {m : Machine} {note : Refusal → Record} {k : Desk} {p : Procedure α}
  {done : α → Desk → Prop} {broken : Stop → Desk → Prop}

theorem on_bind (p : Procedure β) (q : β → Procedure α) (k : Desk) :
    (p >>= q).on k = match p.on k with
      | (.ok b, k') => (q b).on k'
      | (.error s, k') => (.error s, k') := by
  simp only [on, ExceptT.run_bind, StateT.run_bind]
  rcases h : StateT.run (ExceptT.run p) k with ⟨_ | _, _⟩ <;> rfl

/-- On the given desk the procedure ends as described, or it is broken off as described. -/
def Meets (p : Procedure α) (k : Desk) (done : α → Desk → Prop) (broken : Stop → Desk → Prop) :
    Prop :=
  match p.on k with
  | (.ok a, k') => done a k'
  | (.error s, k') => broken s k'

theorem meets_pure {a : α} : Meets (pure a) k done broken ↔ done a k := Iff.rfl

theorem meets_bind {p : Procedure β} {q : β → Procedure α} :
    Meets (p >>= q) k done broken ↔
      Meets p k (fun b k' => Meets (q b) k' done broken) broken := by
  unfold Meets
  rw [on_bind]
  rcases p.on k with ⟨_ | _, _⟩ <;> rfl

theorem meets_ite {c : Prop} [Decidable c] {p q : Procedure α} :
    Meets (if c then p else q) k done broken ↔
      (c → Meets p k done broken) ∧ (¬ c → Meets q k done broken) := by
  by_cases h : c <;> simp [h]

theorem meets_throw {s : Stop} : Meets (throw s : Procedure α) k done broken ↔ broken s k :=
  Iff.rfl

theorem meets_get {done : Desk → Desk → Prop} :
    Meets (get : Procedure Desk) k done broken ↔ done k k := Iff.rfl

variable {done : Unit → Desk → Prop}

theorem meets_record {r : Record} :
    Meets (record r) k done broken ↔ done () { k with log := k.log ++ [r] } := Iff.rfl

theorem meets_update {change : Document → Document} :
    Meets (update change) k done broken ↔ done () { k with document := change k.document } :=
  Iff.rfl

theorem meets_room {fs : List Formula} :
    Meets (room m fs) k done broken ↔
      (fs.all (m.writes .ascii) → done () k) ∧
        (¬ fs.all (m.writes .ascii) → broken .overflow k) := by
  rw [room, meets_ite, meets_pure, meets_throw]

theorem meets_same {f g : Formula} {done : Bool → Desk → Prop} :
    Meets (same m f g) k done broken ↔
      (m.compares f g → done (decide (f = g)) k) ∧
        (¬ m.compares f g → broken .overflow k) := by
  rw [same, meets_ite, meets_pure, meets_throw]

/-- The way in which every comparison is used. -/
theorem meets_ifSame {f g : Formula} {p q : Procedure α} {done : α → Desk → Prop} :
    Meets (do if ← same m f g then p else q) k done broken ↔
      (m.compares f g → (f = g → Meets p k done broken) ∧ (f ≠ g → Meets q k done broken)) ∧
        (¬ m.compares f g → broken .overflow k) := by
  simp only [meets_bind, meets_same, meets_ite, decide_eq_true_eq, ne_eq]

theorem room_unlimited (fs : List Formula) : room .unlimited fs = pure () :=
  if_pos (List.all_eq_true.2 fun _ _ => rfl)

theorem same_unlimited (f g : Formula) : same .unlimited f g = pure (decide (f = g)) := rfl

theorem require_of {c : Prop} [Decidable c] {r : Refusal} (h : c) :
    require m note c r = pure () := if_pos h

theorem meets_require {c : Prop} [Decidable c] {r : Refusal} :
    Meets (require m note c r) k done broken ↔
      (c → done () k) ∧ (¬ c → Meets (refuse m note r) k done broken) := by
  rw [require, meets_ite, meets_pure]

theorem meets_room_of {fs : List Formula} (hdone : done () k)
    (hoverflow : m.Bounded → broken .overflow k) : Meets (room m fs) k done broken := by
  rw [meets_room]
  refine ⟨fun _ => hdone, fun h => hoverflow ?_⟩
  simp only [List.all_eq_true, Classical.not_forall] at h
  obtain ⟨f, _, hf⟩ := h
  exact .inl ⟨.ascii, f, hf⟩

theorem meets_refuse_of {r : Refusal} {done : α → Desk → Prop}
    (hrefused : ∀ k', k'.document = k.document → broken (.refused r) k')
    (hoverflow : m.Bounded → broken .overflow k) : Meets (refuse m note r) k done broken := by
  simp only [refuse, meets_bind, meets_record, meets_throw]
  exact meets_room_of (hrefused _ rfl) hoverflow

end Procedure

namespace Document

open Procedure

variable {m : Machine} {note : Refusal → Record} {k : Desk} {done : Formula → Desk → Prop}
  {broken : Stop → Desk → Prop} {d : Document} {i : Inference (Fin d.lines.length)} {f : Formula}

/-- The checks of an inference end only with what it derives according to the table, and then they
have changed nothing. If they are broken off, the document is as before; and only a machine that
has no room for some formula breaks them off without a refusal. -/
theorem derive_meets (hdone : ∀ f, d.Concludes i f → done f k)
    (hrefused : ∀ r k', k'.document = k.document → broken (.refused r) k')
    (hoverflow : m.Bounded → broken .overflow k) :
    Meets (d.derive m note i) k done broken := by
  have hrefuse {α : Type} {done : α → Desk → Prop} (r : Refusal) :
      Meets (refuse m note r) k done broken := meets_refuse_of (hrefused r) hoverflow
  have hcompare (f g : Formula) : (¬ m.compares f g → broken .overflow k) ↔ True :=
    iff_true_intro fun h => hoverflow (.inr ⟨f, g, h⟩)
  have hnil : d.linesInScope [] ∧ d.subproofsInScope [] := by
    simp [linesInScope, subproofsInScope]
  cases i <;>
    simp only [derive, ↓meets_ifSame, meets_bind, meets_require, meets_pure, hrefuse, hcompare,
      implies_true, and_true]
  case reiterate i =>
    intro hdepth hscope
    exact hdone _ ⟨hscope, hnil.2, .reiterate hdepth⟩
  case andIntro i j =>
    intro hscope
    exact hdone _ ⟨hscope, hnil.2, .andIntro⟩
  case andElim i target =>
    intro hscope
    split
    · rename_i l r hi
      simp only [meets_ifSame, meets_pure, hrefuse, hcompare, implies_true, and_true]
      refine fun _ => ⟨?_, fun _ _ => ?_⟩
      · rintro rfl
        exact hdone _ ⟨hscope, hnil.2, .andElim hi (.inl rfl)⟩
      · rintro rfl
        exact hdone _ ⟨hscope, hnil.2, .andElim hi (.inr rfl)⟩
    · exact hrefuse _
  case orIntro i target =>
    intro hscope
    split
    · simp only [meets_ifSame, meets_pure, hrefuse, hcompare, implies_true, and_true]
      refine fun _ => ⟨?_, fun _ _ => ?_⟩
      · intro hl
        exact hdone _ ⟨hscope, hnil.2, .orIntro (.inl hl)⟩
      · intro hr
        exact hdone _ ⟨hscope, hnil.2, .orIntro (.inr hr)⟩
    · exact hrefuse _
  case orElim i j k =>
    rintro ⟨hj, hk⟩ hlines hsubproofs
    split
    · rename_i l r hi
      simp only [meets_ifSame, hrefuse, hcompare, implies_true, and_true]
      rintro - rfl - rfl
      split
      · rename_i f g hfj hfk
        simp only [meets_ifSame, meets_pure, hrefuse, hcompare, implies_true, and_true]
        rintro - rfl
        exact hdone _ ⟨hlines, hsubproofs, .orElim hj hk hi hfj hfk⟩
      · exact hrefuse _
    · exact hrefuse _
  case notIntro j =>
    intro hdepth hscope hj
    exact hdone _ ⟨hnil.1, hscope, .notIntro hdepth hj⟩
  case notElim i =>
    intro hscope
    split
    · rename_i f hi
      exact hdone _ ⟨hscope, hnil.2, .notElim hi⟩
    · exact hrefuse _
  case impliesIntro j =>
    intro hdepth hscope
    split
    · rename_i f hj
      exact hdone _ ⟨hnil.1, hscope, .impliesIntro hdepth hj⟩
    · exact hrefuse _
  case impliesElim i j =>
    intro hscope
    split
    · rename_i l r hi
      simp only [meets_ifSame, meets_pure, hrefuse, hcompare, implies_true, and_true]
      rintro - rfl
      exact hdone _ ⟨hscope, hnil.2, .impliesElim hi⟩
    · exact hrefuse _
  case iffIntro j k =>
    rintro ⟨hdepthj, hdepthk⟩ hscope
    split
    · rename_i f g hj hk
      simp only [meets_ifSame, meets_pure, hrefuse, hcompare, implies_true, and_true]
      rintro - rfl - rfl
      exact hdone _ ⟨hnil.1, hscope, .iffIntro hdepthj hdepthk hj hk⟩
    · exact hrefuse _
  case iffElim i j =>
    intro hscope
    split
    · rename_i l r hi
      simp only [meets_ifSame, meets_pure, hrefuse, hcompare, implies_true, and_true]
      refine fun _ => ⟨?_, fun _ _ => ?_⟩
      · rintro rfl
        exact hdone _ ⟨hscope, hnil.2, .iffElimLeft hi⟩
      · rintro rfl
        exact hdone _ ⟨hscope, hnil.2, .iffElimRight hi⟩
    · exact hrefuse _
  case absurdIntro i j =>
    intro hscope _
    refine ⟨fun hij => ?_, fun _ _ hij => ?_⟩
    · exact hdone _ ⟨hscope, hnil.2, .absurdIntro (.inl hij)⟩
    · exact hdone _ ⟨hscope, hnil.2, .absurdIntro (.inr hij)⟩
  case absurdElim i target =>
    intro hi hdepth hscope
    exact hdone _ ⟨hscope, hnil.2, .absurdElim hi hdepth⟩

/-- Whatever the table lets pass is let pass where there is room for every formula. -/
theorem derive_of_concludes (h : d.Concludes i f) : d.derive .unlimited note i = pure f := by
  obtain ⟨hlines, hsubproofs, h⟩ := h
  cases h <;>
    simp only [Inference.citedLines, Inference.citedSubproofs, List.map_cons, List.map_nil]
      at hlines hsubproofs
  case reiterate i hdepth =>
    simp only [derive, require_of hdepth, require_of hlines, pure_bind]
  case andIntro i j => simp only [derive, require_of hlines, pure_bind]
  case andElim i l r hi htarget =>
    simp only [derive, hi, require_of hlines, same_unlimited, pure_bind, decide_eq_true_eq]
    grind
  case orIntro i l r hi =>
    simp only [derive, require_of hlines, same_unlimited, pure_bind, decide_eq_true_eq]
    grind
  case orElim i j k hj hk hi hfj hfk =>
    simp only [derive, hi, hfj, hfk, require_of (And.intro hj hk), require_of hlines,
      require_of hsubproofs, same_unlimited, pure_bind, decide_true, if_true]
  case notIntro j hdepth hj =>
    simp only [derive, require_of hdepth, require_of hsubproofs, require_of hj, pure_bind]
  case notElim i hi => simp only [derive, hi, require_of hlines, pure_bind]
  case impliesIntro j f hdepth hj =>
    simp only [derive, hj, require_of hdepth, require_of hsubproofs, pure_bind]
  case impliesElim i j hi =>
    simp only [derive, hi, require_of hlines, same_unlimited, pure_bind, decide_true, if_true]
  case iffIntro j k hdepthj hdepthk hj hk =>
    simp only [derive, hj, hk, require_of (And.intro hdepthj hdepthk), require_of hsubproofs,
      same_unlimited, pure_bind, decide_true, if_true]
  case iffElimLeft i j hi =>
    simp only [derive, hi, require_of hlines, same_unlimited, pure_bind, decide_true, if_true]
  case iffElimRight i j hi =>
    simp only [derive, hi, require_of hlines, same_unlimited, pure_bind, decide_eq_true_eq]
    grind
  case absurdIntro i j hij =>
    simp only [derive, require_of hlines, same_unlimited, pure_bind, decide_eq_true_eq]
    grind
  case absurdElim i hi hdepth =>
    simp only [derive, require_of hi, require_of hdepth, require_of hlines, pure_bind]

end Document

end NaturalDeduction
