import NaturalDeduction.Proofs.Room
import NaturalDeduction.Proofs.Wording

/-!
# Commands are atomic

A line given to a session is either carried out as a whole or changes nothing. What a line can do
is said once, by `Session.Effect`: at most one operation is carried out, and the answer tells
whether this was done. So a session only ever holds documents that can be constructed. A line goes
without an answer only if there is no room for a formula, and then the operation may have been
carried out nevertheless.

## Main definitions

* `Session.Effect`: what a line can do
* `Session.afterOn`: the session after some lines

## Main statements

* `Session.effect_executeOn`: every line has one of the effects
* `Session.executeOn_agrees`: a line has no answer, or it has the effect that it has with room for
  every formula
* `Document.Step.success_eq`: the answer names the line that was added
* `Session.executeOn_atomic`: a line that fails changes nothing, and another one carries out one
  operation
* `Session.not_forall_answered`: there is always a line without an answer that changes the session
-/

namespace NaturalDeduction

namespace Document

variable {d d' : Document} {op : Operation} {l : Line}

theorem lastLineMessage_of_concat (h : d'.lines = d.lines ++ [l]) :
    d'.lastLineMessage =
      "Added line " ++ toString d.lines.length ++ ": " ++ l.formula.text .ascii := by
  simp [lastLineMessage, h]

/-- If an operation has added a line, the answer names its index and its formula. -/
theorem Step.success_eq (h : d.Step op d') (hl : d'.lines = d.lines ++ [l]) :
    op.success d' = "Added line " ++ toString d.lines.length ++ ": " ++ l.formula.text .ascii := by
  cases op with
  | assume f => exact lastLineMessage_of_concat hl
  | suppose f => exact lastLineMessage_of_concat hl
  | infer i => exact lastLineMessage_of_concat hl
  | discharge =>
    cases h
    simp at hl
  | delete =>
    cases h
    have hlength := congrArg List.length hl
    simp [dropLast] at hlength

end Document

namespace Session

variable {m : Machine} {s s' : Session} {line : String} {outcome : Except Complaint Command}
  {reply : Option Reply} {message : String}

/-! ## Effects -/

/-- What a line can do to a session, and how it is answered. -/
inductive Effect (m : Machine) (s : Session) :
    Except Complaint Command → Session → Option Reply → Prop
  /-- The line is not a command. -/
  | unread (c : Complaint) : Effect m s (.error c) s (some ⟨false, c.message⟩)
  | refused {op : Operation} (message : String) (h : ∀ d, ¬ s.document.Step op d) :
      Effect m s (.ok (.operate op)) s (some ⟨false, message⟩)
  | operated {op : Operation} {d : Document} (h : s.document.Step op d) :
      Effect m s (.ok (.operate op)) { s with document := d } (some ⟨true, op.success d⟩)
  | drawn (message : String) : Effect m s (.ok .draw) s (some ⟨true, message⟩)
  | helped (message : String) : Effect m s (.ok .help) s (some ⟨true, message⟩)
  | ended (message : String) :
      Effect m s (.ok .quit) { s with finished := true } (some ⟨true, message⟩)
  /-- There is no room for a formula before anything has been done. -/
  | blocked {c : Command} (h : m.Bounded) : Effect m s (.ok c) s none
  /-- There is no room for a formula after the operation has been carried out. -/
  | unanswered {op : Operation} {d : Document} (hm : m.Bounded) (h : s.document.Step op d) :
      Effect m s (.ok (.operate op)) { s with document := d } none

theorem effect_respond (m : Machine) (s : Session) (outcome : Except Complaint Command) :
    s.Effect m outcome (s.respond m outcome).session (s.respond m outcome).reply := by
  rcases outcome with c | op | _ | _ | _
  · exact .unread c
  · rcases hcall : s.document.call m op with ⟨⟨r | _⟩ | _, k⟩
    · simp only [respond, hcall, Document.document_of_refused hcall]
      exact .refused _ fun d => Document.not_step_of_refused hcall
    · obtain ⟨hm, hdocument | hstep⟩ := Document.cases_of_overflow hcall
      · simp only [respond, hcall, hdocument]
        exact .blocked hm
      · simp only [respond, hcall]
        exact .unanswered hm hstep
    · simp only [respond, hcall]
      exact .operated (Document.step_of_call hcall)
  · simp only [respond]
    split
    · exact .drawn _
    · rename_i hdraws
      simp only [Machine.draws, List.all_eq_true, not_forall] at hdraws
      obtain ⟨l, -, hl⟩ := hdraws
      exact .blocked (.inl ⟨_, _, hl⟩)
  · exact .helped _
  · exact .ended _

theorem effect_executeOn (m : Machine) (s : Session) (line : String) :
    s.Effect m (Command.read line).outcome (s.executeOn m line).session
      (s.executeOn m line).reply := by
  rw [session_executeOn, reply_executeOn]
  exact s.effect_respond m _

theorem Effect.eq_of_not_ok (h : s.Effect m outcome s' (some ⟨false, message⟩)) : s' = s := by
  cases h with
  | unread c => rfl
  | refused message h => rfl

/-- What has been done if a line is answered by success. -/
theorem Effect.cases_of_ok (h : s.Effect m outcome s' (some ⟨true, message⟩)) :
    (outcome = .ok .draw ∨ outcome = .ok .help) ∧ s' = s ∨
    outcome = .ok .quit ∧ s' = { s with finished := true } ∨
    ∃ op d, outcome = .ok (.operate op) ∧ s.document.Step op d ∧ s' = { s with document := d } ∧
      message = op.success d := by
  cases h with
  | operated h => exact .inr (.inr ⟨_, _, rfl, h, rfl, rfl⟩)
  | drawn message => exact .inl ⟨.inl rfl, rfl⟩
  | helped message => exact .inl ⟨.inr rfl, rfl⟩
  | ended message => exact .inr (.inl ⟨rfl, rfl⟩)

/-- What can have been done if a line is not answered. -/
theorem Effect.cases_of_none (h : s.Effect m outcome s' none) :
    m.Bounded ∧ (s' = s ∨ ∃ op d, outcome = .ok (.operate op) ∧ s.document.Step op d ∧
      s' = { s with document := d }) := by
  cases h with
  | blocked hm => exact ⟨hm, .inl rfl⟩
  | unanswered hm h => exact ⟨hm, .inr ⟨_, _, rfl, h, rfl⟩⟩

/-- An effect takes at most one operation. -/
theorem Effect.exists_execute (h : s.Effect m outcome s' reply) :
    ∃ ops, s.document.execute ops = .ok s'.document := by
  cases h with
  | operated h | unanswered hm h =>
    exact ⟨[_], Document.execute_cons_eq_ok_iff.2 ⟨_, h, rfl⟩⟩
  | unread | refused | drawn | helped | ended | blocked => exact ⟨[], rfl⟩

/-! ## Room -/

theorem session_executeOn_unlimited (s : Session) (line : String) :
    (s.executeOn .unlimited line).session = (s.execute line).1 := by
  rw [execute]

/-- Where there is room for every formula, every line is answered. -/
theorem reply_executeOn_unlimited (s : Session) (line : String) :
    (s.executeOn .unlimited line).reply = some (s.execute line).2 := by
  have heffect := s.effect_executeOn .unlimited line
  cases h : (s.executeOn .unlimited line).reply with
  | none =>
    rw [h] at heffect
    exact absurd heffect.cases_of_none.1 Document.not_bounded_unlimited
  | some reply => simp [execute, h]

/-- A line is answered if there is room for one level more than the formulas of the document and of
the line have. -/
theorem reply_ne_none {n : Nat} (hm : m.RoomFor (n + 1)) (hs : s.document.DepthAtMost n)
    (hline : ∀ op, (Command.read line).outcome = .ok (.operate op) →
      ∀ f ∈ op.formulas, f.depth ≤ n) : (s.executeOn m line).reply ≠ none := by
  rw [reply_executeOn]
  rcases houtcome : (Command.read line).outcome with c | op | _ | _ | _
  · simp [respond]
  · have hcall := Document.call_ne_overflow hm hs (hline op houtcome)
    simp only [respond]
    revert hcall
    rcases s.document.call m op with ⟨⟨r | _⟩ | _, k⟩ <;> simp
  · have hdraws : m.draws s.symbols s.document.toProof :=
      List.all_eq_true.2 fun l hl => hm.writes (Nat.le_succ_of_le (hs l hl))
    simp [respond, hdraws]
  · simp [respond]
  · simp [respond]

/-! ## Runs -/

/-- The session after some lines, whatever the answers to them are. -/
def afterOn (m : Machine) (s : Session) (lines : List String) : Session :=
  lines.foldl (fun s line => (s.executeOn m line).session) s

theorem run_cons (stopOnError : Bool) (s : Session) (line : String) (lines : List String) :
    s.run stopOnError (line :: lines) =
      if (s.execute line).1.stops stopOnError (s.execute line).2 then
        ((s.execute line).1, [(s.execute line).2])
      else
        (((s.execute line).1.run stopOnError lines).1,
          (s.execute line).2 :: ((s.execute line).1.run stopOnError lines).2) := by
  by_cases hstops : (s.execute line).1.stops stopOnError (s.execute line).2 <;>
    simp [run, runOn, reply_executeOn_unlimited, session_executeOn_unlimited, hstops]

/-- The lines that have been carried out are operations that the document accepts in turn. -/
theorem exists_execute_afterOn (m : Machine) (s : Session) (lines : List String) :
    ∃ ops, s.document.execute ops = .ok (s.afterOn m lines).document := by
  induction lines generalizing s with
  | nil => exact ⟨[], rfl⟩
  | cons line lines ih =>
    obtain ⟨ops, hops⟩ := (s.effect_executeOn m line).exists_execute
    obtain ⟨ops', hops'⟩ := ih (s.executeOn m line).session
    exact ⟨ops ++ ops', Document.execute_append_eq_ok_iff.2 ⟨_, hops, hops'⟩⟩

/-- Every line is carried out as a whole or not at all. If it is answered by failure, the session is
as before. If it is answered by success, it has drawn the proof or given help, which change nothing,
it has ended the session without touching the document, or it has carried out one operation that the
document accepts; if this has added a line, the answer names its index and its formula. The line is
answered if there is room for one level more than the formulas of the document and of the line have;
if there is less room and it is not answered, it has changed nothing or carried out one operation
all the same. At any time the document is what some accepted operations make of the empty one. -/
theorem executeOn_atomic (m : Machine) (strict : Bool) (symbols : SymbolSet)
    (lines : List String) (line : String) :
    let s := (start strict symbols).afterOn m lines
    let r := s.executeOn m line
    let outcome := (Command.read line).outcome
    (∀ message, r.reply = some ⟨false, message⟩ → r.session = s) ∧
    (∀ message, r.reply = some ⟨true, message⟩ →
      (outcome = .ok .draw ∨ outcome = .ok .help) ∧ r.session = s ∨
      outcome = .ok .quit ∧ r.session = { s with finished := true } ∨
      ∃ op d, outcome = .ok (.operate op) ∧ s.document.apply op = .ok d ∧
        r.session = { s with document := d } ∧
        ∀ l, d.lines = s.document.lines ++ [l] →
          message = "Added line " ++ toString (d.lines.length - 1) ++ ": " ++
            l.formula.text .ascii) ∧
    (r.reply = none →
      r.session = s ∨ ∃ op d, outcome = .ok (.operate op) ∧ s.document.apply op = .ok d ∧
        r.session = { s with document := d }) ∧
    (∀ n, m.RoomFor (n + 1) → s.document.DepthAtMost n →
      (∀ op, outcome = .ok (.operate op) → ∀ f ∈ op.formulas, f.depth ≤ n) → r.reply ≠ none) ∧
    ∃ ops, (Document.empty strict).execute ops = .ok r.session.document := by
  intro s r outcome
  have heffect : s.Effect m outcome r.session r.reply := s.effect_executeOn m line
  refine ⟨fun message hreply => ?_, fun message hreply => ?_, fun hreply => ?_,
    fun n hm hs hline => reply_ne_none hm hs hline, ?_⟩
  · rw [hreply] at heffect
    exact heffect.eq_of_not_ok
  · rw [hreply] at heffect
    obtain hnothing | hquit | ⟨op, d, houtcome, hstep, hs, hmessage⟩ := heffect.cases_of_ok
    · exact .inl hnothing
    · exact .inr (.inl hquit)
    · refine .inr (.inr ⟨op, d, houtcome, Document.apply_eq_ok_iff.2 hstep, hs, fun l hl => ?_⟩)
      rw [hmessage, hstep.success_eq hl, hl, List.length_append, List.length_singleton,
        Nat.add_sub_cancel]
  · rw [hreply] at heffect
    obtain ⟨-, hs | ⟨op, d, houtcome, hstep, hs⟩⟩ := heffect.cases_of_none
    · exact .inl hs
    · exact .inr ⟨op, d, houtcome, Document.apply_eq_ok_iff.2 hstep, hs⟩
  · obtain ⟨ops, hops⟩ := (start strict symbols).exists_execute_afterOn m (lines ++ [line])
    rw [afterOn, List.foldl_append] at hops
    exact ⟨ops, hops⟩

/-- A machine with room for one connective answers the first line of a proof if that names an
atom. -/
theorem executeOn_atomic_suppose :
    (Machine.ofDepth 1).RoomFor 1 ∧
      ((start true .logic).executeOn (.ofDepth 1) "s A").reply ≠ none := by
  have hroom := Machine.roomFor_ofDepth 1
  have houtcome : (Command.read "s A").outcome = .ok (.operate (.suppose (.atom "A"))) := by
    decide +kernel
  obtain ⟨-, -, -, hanswered, -⟩ := executeOn_atomic (.ofDepth 1) true .logic [] "s A"
  refine ⟨hroom, hanswered 0 hroom (fun l hl => nomatch hl) fun op hop => ?_⟩
  cases houtcome.symm.trans hop
  decide

/-! ## Lines without an answer -/

/-- An atom with so many negations. -/
def negations : Nat → Formula
  | 0 => .atom "A"
  | n + 1 => .not (negations n)

theorem depth_negations (n : Nat) : (negations n).depth = n := by
  induction n with
  | zero => rfl
  | succ n ih => rw [negations, Formula.depth, ih]

theorem named_negations (n : Nat) : (negations n).Named := by
  induction n with
  | zero => decide
  | succ n ih => exact ih

/-- The command for a hypothesis, in its short form. -/
theorem writtenAs_suppose {f : Formula} (h : f.Named) :
    (Operation.suppose f).WrittenAs ("s " ++ f.text .ascii) := by
  have hkeyword : Part.WrittenAs (.keyword .suppose) ['s'] :=
    .keyword (show "s" ∈ _ by decide) (by decide)
  refine ⟨_, .cons hkeyword (.cons (.formula .ascii h) .nil), [],
    ['s'] ++ ([' '] ++ (f.text .ascii).toList), [], by simp, by simp, by simp, ?_⟩
  exact .cons (by simp) (List.all_eq_true.1 (by decide)) .single

/-- A hypothesis that there is no room for is added all the same. -/
theorem call_suppose_of_not_writes {d : Document} {f : Formula} (h : m.writes .ascii f = false) :
    ∃ log, d.call m (.suppose f) = (.error .overflow,
      ⟨{ d.append (.hypothesis (d.cursor + 1) f) with cursor := d.cursor + 1 }, log⟩) := by
  have hroom : Procedure.room m [f] = throw .overflow := if_neg (by simp [h])
  simp only [Document.call, Operation.procedure, Procedure.suppose, Procedure.addLine,
    Line.hypothesis, hroom]
  exact ⟨_, rfl⟩

/-- However much room there is, some line asks for a hypothesis that there is no room for. It is not
answered, although the subproof has been opened. -/
theorem not_forall_answered :
    ¬ ∃ n, ∀ line, ((start true .logic).executeOn (.ofDepth n) line).reply ≠ none ∨
      ((start true .logic).executeOn (.ofDepth n) line).session = start true .logic := by
  rintro ⟨n, h⟩
  have houtcome := Command.outcome_of_writtenAs (writtenAs_suppose (named_negations (n + 1)))
  have hwrites : (Machine.ofDepth n).writes .ascii (negations (n + 1)) = false := by
    simp [Machine.ofDepth, depth_negations]
  obtain ⟨log, hcall⟩ := call_suppose_of_not_writes (d := .empty true) hwrites
  specialize h ("s " ++ (negations (n + 1)).text .ascii)
  simp only [reply_executeOn, session_executeOn, houtcome, respond, start, hcall] at h
  simp [Document.append, Document.empty, Proof.empty] at h

end Session

end NaturalDeduction
