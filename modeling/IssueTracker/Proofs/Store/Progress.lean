/-
  IssueTracker/Proofs/Store/Progress.lean --- work never waits for itself.

  Blocking edges make no cycle, so among the beads that are not closed there is always one that
  waits for none of them (`exists_unblocked`).  If those beads are all open, this one is
  ready.  A schedule closes beads that are ready when their turn comes; it can be continued
  until all beads are closed, and takes as many steps as there were open beads
  (`openCount_closeAll`).
-/
import IssueTracker.Proofs.Store.Identity
import IssueTracker.Proofs.Store.Integrity

set_option autoImplicit false

namespace IssueTracker

namespace Store

variable {s : Store} {id : String} {b : Bead}

/-! ## Ready beads -/

theorem isSettled_iff :
    s.isSettled id = true ↔ ∀ b, s.get? id = some b → b.status = .closed := by
  unfold isSettled
  cases s.get? id with
  | none => simp
  | some b => simp [Status.isClosed_iff]

/-- An edge never leads to a bead that is not there, so a prerequisite is settled if it is closed. -/
theorem Sound.isSettled_iff (hs : Sound s) {x p : String}
    (hp : p ∈ Graph.prerequisites s.dependencies x) :
    s.isSettled p = true ↔ ∃ a, s.get? p = some a ∧ a.status = .closed := by
  obtain ⟨d, hd, -, -, rfl⟩ := Graph.mem_prerequisites.1 hp
  obtain ⟨a, ha⟩ := exists_get?_iff.2 (hs.endpoints d hd).2
  simp only [Store.isSettled_iff, ha, Option.some_inj, forall_eq', exists_eq_left']

theorem mem_ready :
    b ∈ s.ready ↔ b ∈ s.beads ∧ b.status = .opened ∧
      ∀ p ∈ Graph.prerequisites s.dependencies b.id, s.isSettled p = true := by
  simp only [ready, listed, List.mem_mergeSort, List.mem_filter, isReady, Bool.and_eq_true,
    decide_eq_true_eq, List.all_eq_true]

/-- Among the beads that are not closed, one waits for none of them. -/
theorem exists_unblocked (hs : Sound s) (hopen : ∃ b ∈ s.beads, b.status ≠ .closed) :
    ∃ b ∈ s.beads, b.status ≠ .closed ∧
      ∀ p ∈ Graph.prerequisites s.dependencies b.id, ∃ a, s.get? p = some a ∧ a.status = .closed := by
  let unclosed := s.beads.filter fun b => decide (b.status ≠ .closed)
  have hunclosed : ∀ b, b ∈ unclosed ↔ b ∈ s.beads ∧ b.status ≠ .closed := by
    intro b
    simp only [unclosed, List.mem_filter, decide_eq_true_eq]
  have hne : unclosed.map (·.id) ≠ [] := by
    obtain ⟨b, hb, hstatus⟩ := hopen
    exact List.ne_nil_of_mem (List.mem_map_of_mem ((hunclosed b).2 ⟨hb, hstatus⟩))
  obtain ⟨free, hfree, houtside⟩ := hs.acyclic.exists_free hne
  obtain ⟨b, hb, rfl⟩ := List.mem_map.1 hfree
  obtain ⟨hmem, hstatus⟩ := (hunclosed b).1 hb
  refine ⟨b, hmem, hstatus, fun p hp => ?_⟩
  obtain ⟨d, hd, -, -, rfl⟩ := Graph.mem_prerequisites.1 hp
  obtain ⟨a, ha⟩ := exists_get?_iff.2 (hs.endpoints d hd).2
  refine ⟨a, ha, ?_⟩
  obtain ⟨hamem, haid⟩ := mem_beads_of_get? ha
  by_contra hopen
  exact houtside _ hp (haid ▸ List.mem_map_of_mem ((hunclosed a).2 ⟨hamem, hopen⟩))

/-! ## Schedules -/

/-- One close: when it is done, of which bead, and why. -/
structure Closing where
  now : Instant
  id : String
  reason : Option String

/-- The close as an operation with its reading of the clock. -/
def Closing.operation (c : Closing) : Instant × Operation := (c.now, .close c.id c.reason)

/-- The store after closes one after the other. -/
def closeAll (s : Store) (schedule : List Closing) : Store := s.run (schedule.map (·.operation))

/-- Is each bead of a schedule ready when its turn comes? -/
def IsSchedule (s : Store) : List Closing → Prop
  | [] => True
  | c :: rest => (∃ b ∈ s.ready, b.id = c.id) ∧ (s.step c.now (.close c.id c.reason)).IsSchedule rest

/-- How many beads are open. -/
def openCount (s : Store) : Nat := s.beads.countP fun b => b.status = .opened

theorem isSchedule_append {first second : List Closing} :
    s.IsSchedule (first ++ second) ↔
      s.IsSchedule first ∧ (s.closeAll first).IsSchedule second := by
  induction first generalizing s with
  | nil => exact ⟨fun h => ⟨trivial, h⟩, And.right⟩
  | cons c first ih =>
      simp only [List.cons_append, IsSchedule, ih, and_assoc]
      rfl

/-- A store in which no bead is held up by anything but its edges. -/
structure Workable (s : Store) : Prop where
  sound : Sound s
  numbered : Numbered s
  idle : ∀ b ∈ s.beads, b.status ≠ .closed → b.status = .opened

namespace Workable

/-- Nothing is ready only if everything is closed. -/
theorem ready_eq_nil_iff (h : Workable s) : s.ready = [] ↔ ∀ b ∈ s.beads, b.status = .closed := by
  constructor
  · intro hready b hb
    by_contra hopen
    obtain ⟨free, hfree, hstatus, hclosed⟩ := exists_unblocked h.sound ⟨b, hb, hopen⟩
    have hmem : free ∈ s.ready := by
      refine mem_ready.2 ⟨hfree, h.idle free hfree hstatus, fun p hp => ?_⟩
      obtain ⟨a, ha, haclosed⟩ := hclosed p hp
      rw [isSettled_iff, ha]
      rintro _ ⟨⟩
      exact haclosed
    rw [hready] at hmem
    exact absurd hmem List.not_mem_nil
  · intro hclosed
    refine List.eq_nil_iff_forall_not_mem.2 fun b hb => ?_
    obtain ⟨hmem, hopened, -⟩ := mem_ready.1 hb
    rw [hclosed b hmem] at hopened
    cases hopened

theorem openCount_eq_zero_iff (h : Workable s) :
    s.openCount = 0 ↔ ∀ b ∈ s.beads, b.status = .closed := by
  simp only [openCount, List.countP_eq_zero, decide_eq_true_eq]
  constructor
  · intro hnone b hb
    by_contra hopen
    exact hnone b hb (h.idle b hb hopen)
  · intro hclosed b hb hopened
    rw [hclosed b hb] at hopened
    cases hopened

/-- A ready bead can be closed; then it is the one that is not open any more. -/
theorem close_ready (h : Workable s) (now : Instant) (reason : Option String)
    (hready : ∃ b ∈ s.ready, b.id = id) :
    ∃ b, s.close now id reason = (.ok (shut now reason b), s.put (shut now reason b)) ∧
      Workable (s.put (shut now reason b)) ∧
      (s.put (shut now reason b)).openCount + 1 = s.openCount := by
  obtain ⟨b, hb, rfl⟩ := hready
  obtain ⟨hmem, hopened, -⟩ := mem_ready.1 hb
  have hget : s.get? b.id = some b := h.numbered.get?_eq_some_iff.2 ⟨hmem, rfl⟩
  have hid : (shut now reason b).id = b.id := rfl
  obtain ⟨before, after, hbeads, hput⟩ := h.numbered.beads_put hget hid
  refine ⟨b, ?_, ⟨h.sound.put _, h.numbered.put _, ?_⟩, ?_⟩
  · simp [close, get, hget, hopened, Status.isClosed]
  · intro x hx hstatus
    rw [hput, List.mem_append, List.mem_cons] at hx
    rcases hx with hx | rfl | hx
    · exact h.idle x (hbeads ▸ List.mem_append_left _ hx) hstatus
    · exact absurd rfl hstatus
    · exact h.idle x (hbeads ▸ List.mem_append_right _ (List.mem_cons_of_mem _ hx)) hstatus
  · have hshut : (shut now reason b).status = .closed := rfl
    simp only [openCount, hbeads, hput, List.countP_append, List.countP_cons, hopened, hshut]
    simp only [decide_true, reduceCtorEq, decide_false, if_true, Bool.false_eq_true, if_false]
    omega

theorem step_close (h : Workable s) (now : Instant) (reason : Option String)
    (hready : ∃ b ∈ s.ready, b.id = id) :
    Workable (s.step now (.close id reason)) ∧
      (s.step now (.close id reason)).openCount + 1 = s.openCount := by
  obtain ⟨b, hclose, hafter⟩ := h.close_ready now reason hready
  simp only [step, perform, hclose]
  exact hafter

/-- Each close of a schedule leaves one open bead fewer. -/
theorem openCount_closeAll (h : Workable s) {schedule : List Closing}
    (hschedule : s.IsSchedule schedule) :
    Workable (s.closeAll schedule) ∧
      (s.closeAll schedule).openCount + schedule.length = s.openCount := by
  induction schedule generalizing s with
  | nil => exact ⟨h, rfl⟩
  | cons c rest ih =>
      obtain ⟨hready, hrest⟩ := hschedule
      obtain ⟨hstep, hcount⟩ := h.step_close c.now c.reason hready
      obtain ⟨hlater, hcounts⟩ := ih hstep hrest
      refine ⟨hlater, ?_⟩
      rw [List.length_cons, ← hcount, ← hcounts]
      exact (Nat.add_assoc _ _ _).symm

end Workable

/-- Whatever was done, some bead that is not closed waits for closed ones only, unless all are
closed.

If the beads that are not closed are all open, then one of them is ready, and beads may be
closed in any order in which they are ready: each close succeeds, there is a next one as long
as fewer beads were closed than were open, and then all are closed. -/
theorem work_never_deadlocks (ops : List (Instant × Operation)) :
    let s := empty.run ops
    ((∃ b ∈ s.beads, b.status ≠ .closed) →
      ∃ b ∈ s.beads, b.status ≠ .closed ∧
        ∀ d ∈ s.dependencies, d.kind = .blocks → d.dependent = b.id →
          ∃ a, s.get? d.prerequisite = some a ∧ a.status = .closed) ∧
      ((∀ b ∈ s.beads, b.status ≠ .closed → b.status = .opened) →
        (s.ready = [] ↔ ∀ b ∈ s.beads, b.status = .closed) ∧
        ∀ schedule : List Closing, s.IsSchedule schedule →
          let t := s.closeAll schedule
          (∀ before c after, schedule = before ++ c :: after →
            ∃ b, ((s.closeAll before).close c.now c.id c.reason).1 = .ok b) ∧
          schedule.length ≤ s.openCount ∧
          (t.ready = [] ↔ schedule.length = s.openCount) ∧
          ((∀ b ∈ t.beads, b.status = .closed) ↔ schedule.length = s.openCount)) := by
  intro s
  have hsound : Sound s := Sound.empty.run ops
  have hnumbered : Numbered s := Numbered.empty.run ops
  constructor
  · intro hopen
    obtain ⟨b, hb, hstatus, hclosed⟩ := exists_unblocked hsound hopen
    refine ⟨b, hb, hstatus, fun d hd hkind hfrom => ?_⟩
    exact hclosed _ (Graph.mem_prerequisites.2 ⟨d, hd, hkind, hfrom, rfl⟩)
  · intro hidle
    have hworkable : Workable s := ⟨hsound, hnumbered, hidle⟩
    refine ⟨hworkable.ready_eq_nil_iff, ?_⟩
    intro schedule hschedule t
    obtain ⟨hlater, hcount⟩ := hworkable.openCount_closeAll hschedule
    have hdone : (∀ b ∈ t.beads, b.status = .closed) ↔ schedule.length = s.openCount := by
      rw [← hlater.openCount_eq_zero_iff]
      omega
    refine ⟨?_, by omega, hlater.ready_eq_nil_iff.trans hdone, hdone⟩
    rintro before c after rfl
    obtain ⟨hbefore, hready, -⟩ := isSchedule_append.1 hschedule
    obtain ⟨b, hclose, -⟩ := (hworkable.openCount_closeAll hbefore).1.close_ready c.now c.reason hready
    exact ⟨_, congrArg Prod.fst hclose⟩

/-- Three beads, of which the first needs the second and the second needs the third, are closed
from the last to the first. -/
theorem chain_is_worked_off :
    let t : Instant := ⟨0, 0⟩
    let draft : Draft := ⟨"work", "", 2, .task, none, []⟩
    let ops : List (Instant × Operation) :=
      [(t, .create draft), (t, .create draft), (t, .create draft),
        (t, .addDependency "bd-1" "bd-2" .blocks), (t, .addDependency "bd-2" "bd-3" .blocks)]
    let s := empty.run ops
    let schedule : List Closing := [⟨t, "bd-3", none⟩, ⟨t, "bd-2", none⟩, ⟨t, "bd-1", none⟩]
    s.ready.map (·.id) = ["bd-3"] ∧ s.openCount = schedule.length ∧ s.IsSchedule schedule ∧
      ∀ b ∈ (s.closeAll schedule).beads, b.status = .closed := by
  intro t draft ops s schedule
  have hidle : ∀ b ∈ s.beads, b.status ≠ .closed → b.status = .opened := by decide +kernel
  have hcount : s.openCount = schedule.length := by decide +kernel
  have hschedule : s.IsSchedule schedule :=
    ⟨by decide +kernel, by decide +kernel, by decide +kernel, trivial⟩
  have hschedules := ((work_never_deadlocks ops).2 hidle).2 schedule hschedule
  exact ⟨by decide +kernel, hcount, hschedule, hschedules.2.2.2.2 hcount.symm⟩

end Store

end IssueTracker
