/-
  IssueTracker/Proofs/Store/Atomicity.lean --- what is refused leaves no trace.

  A refused operation leaves the whole store as it was: all beads, edges and comments, and both
  counters.  The operations of a run that are refused can therefore be left out of it
  (`run_accepted`), and the others are answered as if those had never been tried
  (`answers_accepted`).
-/
import IssueTracker.Proofs.Store.Effect
import Mathlib.Control.Monad.Basic

set_option autoImplicit false

namespace IssueTracker

namespace Store

variable {now : Instant} {s : Store} {op : Operation} {f : Fault}

/-- What the operations of a run answer, in their order. -/
def answers (s : Store) : List (Instant × Operation) → List (Except Fault Change)
  | [] => []
  | (now, op) :: rest => (s.perform now op).1 :: (s.step now op).answers rest

/-- The operations of a run that are not refused. -/
def accepted (s : Store) : List (Instant × Operation) → List (Instant × Operation)
  | [] => []
  | (now, op) :: rest =>
      if (s.perform now op).1.isOk then (now, op) :: (s.step now op).accepted rest
      else (s.step now op).accepted rest

/-- A refused operation leaves the store as it was. -/
theorem step_of_refused (h : (s.perform now op).1 = .error f) : s.step now op = s := by
  rcases s.perform_cases now op with ⟨g, hrefused⟩ | ⟨c, s', hdone, -⟩
  · rw [step, hrefused]
  · rw [hdone] at h
    cases h

/-- Without the operations that are refused, a run leads to the same store. -/
theorem run_accepted (s : Store) (ops : List (Instant × Operation)) :
    s.run (s.accepted ops) = s.run ops := by
  induction ops generalizing s with
  | nil => rfl
  | cons x rest ih =>
      obtain ⟨now, op⟩ := x
      rw [accepted, run]
      cases hanswer : (s.perform now op).1 with
      | ok c => exact ih (s.step now op)
      | error f =>
          have hsame : s.step now op = s := step_of_refused hanswer
          rw [hsame]
          exact ih s

/-- Without the operations that are refused, the others are answered as they are with them. -/
theorem answers_accepted (s : Store) (ops : List (Instant × Operation)) :
    s.answers (s.accepted ops) = (s.answers ops).filter (·.isOk) := by
  induction ops generalizing s with
  | nil => rfl
  | cons x rest ih =>
      obtain ⟨now, op⟩ := x
      rw [accepted, answers]
      cases hanswer : (s.perform now op).1 with
      | ok c =>
          have hkept : (Except.ok c : Except Fault Change).isOk = true := rfl
          rw [if_pos hkept, List.filter_cons_of_pos hkept, answers, hanswer, ih]
      | error f =>
          have hdropped : ¬ (Except.error f : Except Fault Change).isOk = true := by
            simp [Except.isOk, Except.toBool]
          rw [if_neg hdropped, List.filter_cons_of_neg hdropped, step_of_refused hanswer]
          exact ih s

/-- Whatever was done to a store before, an operation that is refused changes nothing in it, and
whatever is done later has the same answers and leads to the same store as without it.  So
all that is refused in the course of a run can be left out. -/
theorem refused_operations_leave_no_trace (before : List (Instant × Operation)) :
    let s := empty.run before
    (∀ (now : Instant) (op : Operation) (f : Fault), (s.perform now op).1 = .error f →
      (s.perform now op).2 = s ∧
        ∀ later, (s.step now op).answers later = s.answers later ∧
          (s.step now op).run later = s.run later) ∧
      ∀ later, s.answers (s.accepted later) = (s.answers later).filter (·.isOk) ∧
        s.run (s.accepted later) = s.run later := by
  intro s
  refine ⟨?_, fun later => ⟨s.answers_accepted later, s.run_accepted later⟩⟩
  intro now op f hrefused
  have hsame : s.step now op = s := step_of_refused hrefused
  refine ⟨hsame, fun later => ?_⟩
  rw [hsame]
  exact ⟨rfl, rfl⟩

/-- A patch that would close the bead is refused; its title, which is in order, is not put on
the bead either, and the comment that comes next is the first one. -/
theorem refused_patch_leaves_no_trace :
    let t : Instant := ⟨0, 0⟩
    let s := empty.run [(t, .create ⟨"old", "", 2, .task, none, []⟩)]
    let patch : Patch := { title := some "new", status := some .closed }
    let after := s.step ⟨1, 0⟩ (.update "bd-1" patch)
    (s.perform ⟨1, 0⟩ (.update "bd-1" patch)).1 = .error .closedStateChange ∧ after = s ∧
      after.answers [(t, .addComment "bd-1" "eve" "hi")] =
        [.ok (.commentAdded ⟨1, "bd-1", "eve", "hi", t⟩)] := by
  intro t s patch after
  have hrefused : (s.perform ⟨1, 0⟩ (.update "bd-1" patch)).1 = .error .closedStateChange := by
    decide +kernel
  have htrace := (refused_operations_leave_no_trace
    [(t, .create ⟨"old", "", 2, .task, none, []⟩)]).1 ⟨1, 0⟩ (.update "bd-1" patch) _ hrefused
  refine ⟨hrefused, htrace.1, ?_⟩
  rw [(htrace.2 [(t, .addComment "bd-1" "eve" "hi")]).1]
  decide +kernel

end Store

end IssueTracker
