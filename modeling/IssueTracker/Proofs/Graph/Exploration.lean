/-
  IssueTracker/Proofs/Graph/Exploration.lean --- the search turn by turn.

  An `Exploration` is what a search holds between two turns: the nodes that it has seen, and the
  stack of the nodes where it still has to look.  `Turned` lists what a turn can do.  Each turn that
  gives no answer does one unit of the work that is left (`Turned.work`), so that the number of
  turns is bounded from the start, whatever the graph is.  `Explores` is what every turn keeps, and
  it makes the answer that comes in the end the right one (`Explores.exists_answer`).
-/
import IssueTracker.Proofs.Graph.Reach
import Mathlib.Logic.Relation

set_option autoImplicit false

namespace IssueTracker

namespace Graph

variable {edges : List Dependency} {a b start target : String}

/-! ## Ways and stacks -/

/-- Some edge of kind `blocks` leads from the first node to the second. -/
def Blocks (edges : List Dependency) (a b : String) : Prop :=
  ∃ d ∈ edges, d.kind = .blocks ∧ d.dependent = a ∧ d.prerequisite = b

theorem leads_iff_transGen : Leads edges a b ↔ Relation.TransGen (Blocks edges) a b := by
  constructor
  · intro h
    induction h with
    | edge h => exact .single (mem_prerequisites.1 h)
    | step h _ ih => exact .head (mem_prerequisites.1 h) ih
  · intro h
    induction h using Relation.TransGen.head_induction_on with
    | single h => exact .edge (mem_prerequisites.2 h)
    | head h _ ih => exact .step (mem_prerequisites.2 h) ih

/-- It does not matter in which order the nodes stand on the stack. -/
theorem Expanded.of_perm {seen stack stack' : List String}
    (h : Expanded edges target seen stack) (hperm : stack.Perm stack') :
    Expanded edges target seen stack' :=
  fun x hx => ⟨(h x hx).1, fun y hy => ((h x hx).2 y hy).imp_right hperm.mem_iff.1⟩

/-! ## Turns -/

/-- Where a search stands. -/
structure Exploration where
  seen : List String
  /-- The nodes where the search still has to look, the next one last. -/
  stack : List String
  deriving DecidableEq, Repr

namespace Exploration

variable {e e' : Exploration}

/-- A search that has not begun. -/
def first (start : String) : Exploration := ⟨[], [start]⟩

/-- A turn takes the last node off the stack.  It answers if there is none or it is the target, and
else goes on, past a node that was seen and to the prerequisites of one that was not. -/
def turn (edges : List Dependency) (target : String) (e : Exploration) : Bool ⊕ Exploration :=
  match e.stack.getLast? with
  | none => .inl false
  | some node =>
      if node = target then .inl true
      else if e.seen.contains node then .inr { e with stack := e.stack.dropLast }
      else .inr ⟨node :: e.seen, e.stack.dropLast ++ prerequisites edges node⟩

/-- The answer of a search that gives one in so many turns. -/
def run (edges : List Dependency) (target : String) : Nat → Exploration → Option Bool
  | 0, _ => none
  | turns + 1, e =>
      match e.turn edges target with
      | .inl answer => some answer
      | .inr e' => run edges target turns e'

/-- What a turn can do. -/
inductive Turned (edges : List Dependency) (target : String) :
    Exploration → Bool ⊕ Exploration → Prop where
  | exhausted {seen : List String} : Turned edges target ⟨seen, []⟩ (.inl false)
  | found {seen stack : List String} : Turned edges target ⟨seen, stack ++ [target]⟩ (.inl true)
  | skipped {seen stack : List String} {node : String} (hne : node ≠ target)
      (hseen : node ∈ seen) : Turned edges target ⟨seen, stack ++ [node]⟩ (.inr ⟨seen, stack⟩)
  | expanded {seen stack : List String} {node : String} (hne : node ≠ target)
      (hseen : node ∉ seen) :
      Turned edges target ⟨seen, stack ++ [node]⟩
        (.inr ⟨node :: seen, stack ++ prerequisites edges node⟩)

theorem turn_cases (edges : List Dependency) (target : String) (e : Exploration) :
    Turned edges target e (e.turn edges target) := by
  obtain ⟨seen, stack⟩ := e
  rcases List.eq_nil_or_concat stack with rfl | ⟨stack, node, rfl⟩
  · exact .exhausted
  · simp only [turn, List.concat_eq_append, List.getLast?_concat, List.dropLast_concat]
    by_cases hne : node = target
    · rw [if_pos hne, hne]
      exact .found
    · rw [if_neg hne]
      by_cases hseen : node ∈ seen
      · rw [if_pos (List.contains_iff_mem.2 hseen)]
        exact .skipped hne hseen
      · rw [if_neg (mt List.contains_iff_mem.1 hseen)]
        exact .expanded hne hseen

/-! ## The end of a search -/

/-- The work that is left: a turn for each node on the stack, and one for each node that a blocking
edge of an unseen node may still put there. -/
def work (edges : List Dependency) (e : Exploration) : Nat :=
  unseenEdges edges e.seen + e.stack.length

theorem work_first (edges : List Dependency) (start : String) :
    (first start).work edges = edges.countP (·.kind = .blocks) + 1 := by
  simp [work, first, unseenEdges]

/-- A turn without an answer does a unit of the work. -/
theorem Turned.work (h : Turned edges target e (.inr e')) : e'.work edges + 1 = e.work edges := by
  cases h with
  | skipped hne hseen =>
      simp only [Exploration.work, List.length_append, List.length_singleton]
      omega
  | @expanded seen stack node hne hseen =>
      have hleave := @unseenEdges_cons edges node seen (by simpa using hseen)
      simp only [Exploration.work, List.length_append, List.length_singleton]
      omega

/-! ## The answer of a search -/

/-- What is kept from one turn to the next: a node on the stack is the start or blocking edges lead
there from the start, the start was seen or is on the stack, and so are the prerequisites of what
was seen, which does not include the target. -/
structure Explores (edges : List Dependency) (start target : String) (e : Exploration) : Prop where
  stacked : ∀ x ∈ e.stack, start = x ∨ Leads edges start x
  started : start ∈ e.seen ∨ start ∈ e.stack
  expanded : Expanded edges target e.seen e.stack

theorem explores_first (edges : List Dependency) (start target : String) :
    Explores edges start target (first start) where
  stacked _ hx := Or.inl (List.mem_singleton.1 hx).symm
  started := Or.inr List.mem_cons_self
  expanded _ hx := absurd hx List.not_mem_nil

/-- Each turn keeps what a search knows. -/
theorem Explores.turn (h : Explores edges start target e)
    (hturn : Turned edges target e (.inr e')) : Explores edges start target e' := by
  obtain ⟨hstacked, hstarted, hexpanded⟩ := h
  cases hturn with
  | @skipped seen stack node hne hseen =>
      have hlast : Expanded edges target seen (node :: stack) :=
        hexpanded.of_perm (List.perm_append_singleton node stack)
      refine ⟨fun x hx => hstacked x (List.mem_append_left _ hx), ?_, hlast.skip hseen⟩
      simp only [List.mem_append, List.mem_singleton] at hstarted
      rcases hstarted with hstart | hstart | rfl
      · exact Or.inl hstart
      · exact Or.inr hstart
      · exact Or.inl hseen
  | @expanded seen stack node hne hseen =>
      have hlast : Expanded edges target seen (node :: stack) :=
        hexpanded.of_perm (List.perm_append_singleton node stack)
      refine ⟨fun x hx => ?_, ?_, (hlast.cons hne).of_perm List.perm_append_comm⟩
      · rcases List.mem_append.1 hx with hx | hx
        · exact hstacked x (List.mem_append_left _ hx)
        · rcases hstacked node (List.mem_append_right _ List.mem_cons_self) with rfl | hleads
          · exact Or.inr (.edge hx)
          · exact Or.inr (hleads.trans (.edge hx))
      · simp only [List.mem_append, List.mem_singleton] at hstarted
        rcases hstarted with hstart | hstart | rfl
        · exact Or.inl (List.mem_cons_of_mem _ hstart)
        · exact Or.inr (List.mem_append_left _ hstart)
        · exact Or.inl List.mem_cons_self

/-- When the stack is empty, what was seen is left by no blocking edge. -/
theorem Explores.closed {seen : List String} (h : Explores edges start target ⟨seen, []⟩) :
    Closed edges seen ∧ start ∈ seen ∧ target ∉ seen := by
  refine ⟨fun x hx y hy => ?_, ?_, fun htarget => (h.expanded target htarget).1 rfl⟩
  · exact ((h.expanded x hx).2 y hy).resolve_right List.not_mem_nil
  · exact h.started.resolve_right List.not_mem_nil

/-- An answer that a turn gives is the right one. -/
theorem Explores.answer (h : Explores edges start target e) {answer : Bool}
    (hturn : Turned edges target e (.inl answer)) :
    answer = true ↔ start = target ∨ Leads edges start target := by
  cases hturn with
  | exhausted =>
      obtain ⟨hclosed, hstart, htarget⟩ := h.closed
      refine ⟨fun hfalse => Bool.noConfusion hfalse, ?_⟩
      rintro (rfl | hleads)
      · exact absurd hstart htarget
      · exact absurd (hclosed.mem_of_leads hstart hleads) htarget
  | found =>
      refine ⟨fun _ => ?_, fun _ => rfl⟩
      exact h.stacked target (List.mem_append_right _ List.mem_cons_self)

/-- A search with a turn more than there is work gives an answer, and it is the right one. -/
theorem Explores.exists_answer (h : Explores edges start target e) {turns : Nat}
    (hturns : e.work edges < turns) :
    ∃ answer, e.run edges target turns = some answer ∧
      (answer = true ↔ start = target ∨ Leads edges start target) := by
  induction turns generalizing e with
  | zero => exact absurd hturns (Nat.not_lt_zero _)
  | succ turns ih =>
      have hturn := turn_cases edges target e
      rw [run]
      cases hgiven : e.turn edges target with
      | inl answer =>
          rw [hgiven] at hturn
          exact ⟨answer, rfl, h.answer hturn⟩
      | inr e' =>
          rw [hgiven] at hturn
          have hwork := hturn.work
          exact ih (h.turn hturn) (by omega)

end Exploration

/-- A search on any edges whatsoever, from any node for any target, ends: two turns more than there
are blocking edges are enough, and further ones change nothing.  Its answer is the one that
`reaches` gives, and says whether the target is the start or one or more blocking edges lead
there. -/
theorem search_ends_with_the_answer (edges : List Dependency) (start target : String) :
    (∀ more, (Exploration.first start).run edges target
        (edges.countP (·.kind = .blocks) + 2 + more) = some (reaches edges start target)) ∧
      (reaches edges start target = true ↔
        start = target ∨ Relation.TransGen (Blocks edges) start target) := by
  refine ⟨fun more => ?_, by rw [reaches_iff, leads_iff_transGen]⟩
  have hwork : (Exploration.first start).work edges <
      edges.countP (·.kind = .blocks) + 2 + more := by
    rw [Exploration.work_first]
    omega
  obtain ⟨answer, hrun, hanswer⟩ :=
    (Exploration.explores_first edges start target).exists_answer hwork
  have hsame : answer = reaches edges start target := by
    rw [Bool.eq_iff_iff, hanswer, reaches_iff]
  rw [hrun, hsame]

/-- The bound is met: without edges, a search takes its first turn at the start, and answers in
the second. -/
example : (Exploration.first "bd-1").run [] "bd-2" 1 = none ∧
    (Exploration.first "bd-1").run [] "bd-2" 2 = some false := by
  decide +kernel

end Graph

end IssueTracker
