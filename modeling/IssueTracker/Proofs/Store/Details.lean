/-
  IssueTracker/Proofs/Store/Details.lean --- what the beads show, taken together.

  The ways to look at one bead agree, and fail together.  Taken over all beads (`details`), the
  lists that they show are the edges and the comments of the store: each edge is shown by the bead
  that it leaves and by the bead that it leads to, and each comment by the bead that it is on.
  Nothing is left over, since no edge and no comment lacks its bead, and nothing is shown twice,
  since no edge leads back to the bead that it leaves and beads have identities of their own.
-/
import IssueTracker.Proofs.List.Cut
import IssueTracker.Proofs.Store.Permanence

set_option autoImplicit false

namespace IssueTracker

namespace Store

variable {now : Instant} {s s' : Store} {id : String} {b : Bead} {d : Detail}

/-! ## One bead -/

theorem detail_of_get? (hget : s.get? id = some b) :
    s.detail id = .ok ⟨b, s.edgesOf id, s.commentsOn id⟩ ∧ s.edges id = .ok (s.edgesOf id) ∧
      s.commentList id = .ok (s.commentsOn id) := by
  simp only [detail, edges, commentList, get, hget, and_self]

theorem detail_of_absent (hget : s.get? id = none) :
    s.detail id = .error (.beadNotFound id) ∧ s.edges id = .error (.beadNotFound id) ∧
      s.commentList id = .error (.beadNotFound id) := by
  simp only [detail, edges, commentList, get, hget, and_self]

/-- An edge that leads to a bead does not leave it. -/
theorem Sound.dependents_eq (h : Sound s) (id : String) :
    (s.edgesOf id).dependents = s.dependencies.filter (·.prerequisite == id) := by
  refine List.filter_congr fun d hd => ?_
  by_cases hto : d.prerequisite = id
  · have hfrom : d.dependent ≠ id := fun heq => h.irreflexive d hd (heq.trans hto.symm)
    simp [hto, hfrom]
  · simp [hto]

/-! ## All beads -/

/-- What is shown of each bead, in the order of the beads. -/
def details (s : Store) : List Detail := s.beads.filterMap fun b => (s.detail b.id).toOption

theorem Numbered.details_eq (h : Numbered s) :
    s.details = s.beads.map fun b => ⟨b, s.edgesOf b.id, s.commentsOn b.id⟩ := by
  rw [details, ← List.filterMap_eq_map]
  refine List.filterMap_congr fun b hb => ?_
  rw [(detail_of_get? (h.get?_eq_some_iff.2 ⟨hb, rfl⟩)).1]
  rfl

/-- What belongs to the beads by a key is shown once by all of them together. -/
theorem Numbered.count_flatMap_details {α : Type} [DecidableEq α] (h : Numbered s)
    {shown : Detail → List α} {key : α → String} {items : List α}
    (hshown : ∀ d ∈ s.details, shown d = items.filter (key · == d.bead.id))
    (hitems : ∀ x ∈ items, key x ∈ s.ids) (hnodup : items.Nodup) {x : α} (hx : x ∈ items) :
    (s.details.flatMap shown).count x = 1 := by
  have hparts : s.details.flatMap shown = s.ids.flatMap fun id => items.filter (key · == id) := by
    rw [List.flatMap_congr hshown, h.details_eq, List.flatMap_map, ids, List.flatMap_map]
  rw [hparts, (perm_flatMap_filter h.distinct hitems).count_eq]
  exact List.count_eq_one_of_mem hnodup hx

/-! ## The order in which things came -/

/-- The edge that an answer tells of as new. -/
def linked? : Except Fault Change → Option Dependency
  | .ok (.dependencyAdded d) => some d
  | _ => none

/-- The edges that operations put between beads, in their order. -/
def linkings (s : Store) (ops : List (Instant × Operation)) : List Dependency :=
  (s.answers ops).filterMap linked?

/-- If what is new goes behind the others, a list has the order in which things came. -/
theorem sublist_answers {α : Type} {items : Store → List α} {new? : Except Fault Change → Option α}
    (hstep : ∀ (s : Store) (now : Instant) (op : Operation),
      (items (s.step now op)).Sublist (items s ++ (new? (s.perform now op).1).toList))
    (s : Store) (ops : List (Instant × Operation)) :
    (items (s.run ops)).Sublist (items s ++ (s.answers ops).filterMap new?) := by
  induction ops generalizing s with
  | nil => exact List.sublist_append_left _ _
  | cons x rest ih =>
      obtain ⟨now, op⟩ := x
      have hfirst := (hstep s now op).append_right (((s.step now op).answers rest).filterMap new?)
      refine (ih (s.step now op)).trans (hfirst.trans ?_)
      rw [answers, List.append_assoc]
      cases hnew : new? (s.perform now op).1 with
      | none => rw [List.filterMap_cons_none hnew]; exact List.Sublist.refl _
      | some a => rw [List.filterMap_cons_some hnew]; exact List.Sublist.refl _

theorem dependencies_step (s : Store) (now : Instant) (op : Operation) :
    (s.step now op).dependencies.Sublist
      (s.dependencies ++ (linked? (s.perform now op).1).toList) := by
  refine perform_induction
    (P := fun r s' => s'.dependencies.Sublist (s.dependencies ++ (linked? r).toList)) now s op
    (fun f => List.sublist_append_left _ _) fun heffect => ?_
  cases heffect with
  | delete _ => exact List.filter_sublist.trans (List.sublist_append_left _ _)
  | addDependency _ _ _ _ _ => exact List.Sublist.refl _
  | removeDependency _ => exact List.eraseP_sublist.trans (List.sublist_append_left _ _)
  | _ => exact List.sublist_append_left _ _

theorem comments_step (s : Store) (now : Instant) (op : Operation) :
    (s.step now op).comments.Sublist
      (s.comments ++ (commented? (s.perform now op).1).toList) := by
  refine perform_induction
    (P := fun r s' => s'.comments.Sublist (s.comments ++ (commented? r).toList)) now s op
    (fun f => List.sublist_append_left _ _) fun heffect => ?_
  cases heffect with
  | delete _ => exact List.filter_sublist.trans (List.sublist_append_left _ _)
  | addComment _ _ => exact List.Sublist.refl _
  | _ => exact List.sublist_append_left _ _

/-- After any operations, the detail of a bead is there if and only if the bead is, and it has the
bead, the edges and the comments that are found under its identity; for an identity without a bead
all three ways to look fail alike.  The details of all beads show each edge once at the bead that
it leaves and once at the bead that it leads to, and each comment once, at the bead that it is on.
All lists have the order in which the edges and the comments came. -/
theorem details_show_everything_once (ops : List (Instant × Operation)) :
    let s := empty.run ops
    (∀ id b, s.get? id = some b →
      ∃ d, s.detail id = .ok d ∧ d.bead = b ∧ s.edges id = .ok d.edges ∧
        s.commentList id = .ok d.comments) ∧
    (∀ id, s.get? id = none →
      s.detail id = .error (.beadNotFound id) ∧ s.edges id = .error (.beadNotFound id) ∧
        s.commentList id = .error (.beadNotFound id)) ∧
    s.details.map (·.bead) = s.beads ∧
    (∀ d ∈ s.details,
      d.edges.dependsOn = s.dependencies.filter (·.dependent == d.bead.id) ∧
        d.edges.dependents = s.dependencies.filter (·.prerequisite == d.bead.id) ∧
        d.comments = s.comments.filter (·.beadId == d.bead.id)) ∧
    (∀ e ∈ s.dependencies,
      (s.details.flatMap (·.edges.dependsOn)).count e = 1 ∧
        (s.details.flatMap (·.edges.dependents)).count e = 1) ∧
    (∀ c ∈ s.comments, (s.details.flatMap (·.comments)).count c = 1) ∧
    s.dependencies.Sublist (empty.linkings ops) ∧ s.comments.Sublist (empty.remarks ops) := by
  intro s
  have hn : Numbered s := Numbered.empty.run ops
  have hs : Sound s := Sound.empty.run ops
  have hw : WellFormed s := WellFormed.empty.run ops
  have hshown : ∀ d ∈ s.details,
      d.edges.dependsOn = s.dependencies.filter (·.dependent == d.bead.id) ∧
        d.edges.dependents = s.dependencies.filter (·.prerequisite == d.bead.id) ∧
        d.comments = s.comments.filter (·.beadId == d.bead.id) := by
    rw [hn.details_eq]
    intro d hd
    obtain ⟨b, -, rfl⟩ := List.mem_map.1 hd
    exact ⟨rfl, hs.dependents_eq b.id, rfl⟩
  have hedges : s.dependencies.Nodup := by
    refine hs.pairs.imp ?_
    rintro d e hdiffer rfl
    exact hdiffer ⟨rfl, rfl⟩
  have hcomments : s.comments.Nodup := by
    refine hw.ascending.imp ?_
    rintro c c' hlt rfl
    exact Nat.lt_irrefl _ hlt
  refine ⟨fun id b hget => ?_, fun id => detail_of_absent, ?_, hshown, fun e he => ⟨?_, ?_⟩,
    fun c hc => ?_, sublist_answers dependencies_step empty ops,
    sublist_answers comments_step empty ops⟩
  · obtain ⟨hdetail, hedges, hcomments⟩ := detail_of_get? hget
    exact ⟨_, hdetail, rfl, hedges, hcomments⟩
  · rw [hn.details_eq, List.map_map]
    exact List.map_id' _
  · exact hn.count_flatMap_details (fun d hd => (hshown d hd).1)
      (fun e he => (hs.endpoints e he).1) hedges he
  · exact hn.count_flatMap_details (fun d hd => (hshown d hd).2.1)
      (fun e he => (hs.endpoints e he).2) hedges he
  · exact hn.count_flatMap_details (fun d hd => (hshown d hd).2.2) hw.owners hcomments hc

/-- Of three beads, two need each other and the third one is deleted, with the edge to it.  Each of
the two edges that are left is shown at both beads. -/
theorem two_beads_show_both_edges :
    let t : Instant := ⟨0, 0⟩
    let draft : Draft := ⟨"work", "", 2, .task, none, []⟩
    let bead : Bead := drafted t 1 "work" 2 [] draft
    let remark : Comment := ⟨2, "bd-1", "eve", "b", t⟩
    let out : Dependency := ⟨"bd-1", "bd-2", .related, t⟩
    let back : Dependency := ⟨"bd-2", "bd-1", .blocks, t⟩
    let ops : List (Instant × Operation) :=
      [(t, .create draft), (t, .create draft), (t, .create draft),
        (t, .addDependency "bd-1" "bd-3" .blocks), (t, .addDependency "bd-2" "bd-1" .blocks),
        (t, .addDependency "bd-1" "bd-2" .related), (t, .addComment "bd-2" "eve" "a"),
        (t, .addComment "bd-1" "eve" "b"), (t, .delete "bd-3")]
    let s := empty.run ops
    let shown : Detail := ⟨bead, ⟨[out], [back]⟩, [remark]⟩
    (∃ d, s.detail "bd-1" = .ok d ∧ d.bead = bead ∧ s.edges "bd-1" = .ok d.edges ∧
      s.commentList "bd-1" = .ok d.comments) ∧
      s.detail "bd-3" = .error (.beadNotFound "bd-3") ∧
      shown ∈ s.details ∧
      shown.edges.dependents = s.dependencies.filter (·.prerequisite == shown.bead.id) ∧
      (s.details.flatMap (·.edges.dependsOn)).count back = 1 ∧
      (s.details.flatMap (·.edges.dependents)).count back = 1 ∧
      (s.details.flatMap (·.comments)).count remark = 1 := by
  intro t draft bead remark out back ops s shown
  obtain ⟨hthere, habsent, -, hlists, hedges, hcomments, -⟩ := details_show_everything_once ops
  have hshown : shown ∈ s.details := by decide +kernel
  obtain ⟨hout, hin⟩ := hedges back (by decide +kernel)
  exact ⟨hthere "bd-1" bead (by decide +kernel), (habsent "bd-3" (by decide +kernel)).1, hshown,
    (hlists shown hshown).2.1, hout, hin, hcomments remark (by decide +kernel)⟩

end Store

end IssueTracker
