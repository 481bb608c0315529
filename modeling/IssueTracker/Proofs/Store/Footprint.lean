/-
  IssueTracker/Proofs/Store/Footprint.lean --- what an operation writes, and what it leaves.

  An operation that is done writes at one place: an item goes behind one of the three lists, one
  bead is rewritten where it stands, or one edge is taken out.  Only to delete a bead changes all
  three lists.  `Footprint` says so with the store after the operation, each as the store before it
  with one thing changed, so that whatever is not spoken of is as it was.  That there is one bead of
  an identity, and one edge between two beads, holds in the stores that can come about
  (`Footprint.of_effect`).
-/
import IssueTracker.Proofs.List.Cut
import IssueTracker.Proofs.Store.Integrity
import IssueTracker.Proofs.Store.Permanence

set_option autoImplicit false

namespace IssueTracker

namespace Store

variable {now : Instant} {s s' : Store} {op : Operation} {c : Change} {id : String} {b b' : Bead}

/-! ## What an operation is about -/

/-- The bead that an operation rewrites, if it is one that rewrites a bead. -/
def Operation.rewrites? : Operation → Option String
  | update id _ | close id _ | reopen id | addLabel id _ | removeLabel id _ => some id
  | create _ | delete _ | addDependency _ _ _ | removeDependency _ _ | addComment _ _ _ => none

/-- The bead as it was rewritten. -/
def Change.rewritten? : Change → Option Bead
  | updated b | closed b | reopened b | labelAdded b _ | labelRemoved b _ => some b
  | created _ | deleted _ | dependencyAdded _ | dependencyRemoved _ | commentAdded _ => none

/-- Is the change about the bead of an identity?  An edge is about both of its ends, and a comment
about the bead that it is on. -/
def Change.concerns (id : String) : Change → Bool
  | created b | updated b | closed b | reopened b | deleted b => id == b.id
  | labelAdded b _ | labelRemoved b _ => id == b.id
  | dependencyAdded d | dependencyRemoved d => d.touches id
  | commentAdded c => id == c.beadId

theorem names_iff_of_rewrites (h : op.rewrites? = some b.id) : op.Names id ↔ b.id = id := by
  cases op with
  | update _ _ | close _ _ | reopen _ | addLabel _ _ | removeLabel _ _ =>
      cases h
      rfl
  | _ => cases h

theorem concerns_of_rewritten (h : c.rewritten? = some b) : c.concerns id = (id == b.id) := by
  cases c with
  | updated _ | closed _ | reopened _ | labelAdded _ _ | labelRemoved _ _ =>
      cases h
      rfl
  | _ => cases h

/-! ## Footprints -/

/-- What is written, and the store after it. -/
inductive Footprint (s : Store) : Operation → Change → Store → Prop where
  /-- A bead with a new identity goes behind the others. -/
  | create {draft : Draft} {b : Bead} (hnew : b.id ∉ s.ids) :
      Footprint s (.create draft) (.created b)
        { s with created := s.created + 1, beads := s.beads ++ [b] }
  /-- The one bead of an identity is rewritten where it stands. -/
  | rewrite {op : Operation} {c : Change} {b b' : Bead} {before after : List Bead}
      (hop : op.rewrites? = some b.id) (hc : c.rewritten? = some b') (hid : b'.id = b.id)
      (hbeads : s.beads = before ++ b :: after) (hothers : ∀ x ∈ before ++ after, x.id ≠ b.id) :
      Footprint s op c { s with beads := before ++ b' :: after }
  /-- The one bead of an identity leaves, with the edges at it and the comments on it. -/
  | delete {b : Bead} {before after : List Bead}
      (hbeads : s.beads = before ++ b :: after) (hothers : ∀ x ∈ before ++ after, x.id ≠ b.id) :
      Footprint s (.delete b.id) (.deleted b)
        { s with
          beads := before ++ after
          dependencies := s.dependencies.filter fun d => !d.touches b.id
          comments := s.comments.filter (·.beadId != b.id) }
  /-- An edge goes behind the others. -/
  | join (d : Dependency) :
      Footprint s (.addDependency d.dependent d.prerequisite d.kind) (.dependencyAdded d)
        { s with dependencies := s.dependencies ++ [d] }
  /-- The one edge that leads from the one bead to the other is taken out. -/
  | part {d : Dependency} {before after : List Dependency}
      (hedges : s.dependencies = before ++ d :: after)
      (hothers : ∀ e ∈ before ++ after, e.joins d.dependent d.prerequisite = false) :
      Footprint s (.removeDependency d.dependent d.prerequisite) (.dependencyRemoved d)
        { s with dependencies := before ++ after }
  /-- A comment goes behind the others. -/
  | remark (c : Comment) (text : String) :
      Footprint s (.addComment c.beadId c.author text) (.commentAdded c)
        { s with commented := s.commented + 1, comments := s.comments ++ [c] }

namespace Footprint

theorem of_put (hnumbered : Numbered s) (hget : s.get? id = some b) (hid : b'.id = b.id)
    (hop : op.rewrites? = some id) (hc : c.rewritten? = some b') :
    Footprint s op c (s.put b') := by
  obtain ⟨before, after, hbeads, rfl, hothers⟩ := hnumbered.exists_split hget
  have hput : s.put b' = { s with beads := before ++ b' :: after } := by
    rw [← beads_put_of_split hbeads hid.symm (hid ▸ hothers)]
    rfl
  rw [hput]
  exact .rewrite hop hc hid hbeads hothers

theorem of_forget (hnumbered : Numbered s) (hget : s.get? id = some b) :
    Footprint s (.delete id) (.deleted b) (s.forget id) := by
  obtain ⟨before, after, hbeads, rfl, hothers⟩ := hnumbered.exists_split hget
  have hforget : s.forget b.id =
      { s with
        beads := before ++ after
        dependencies := s.dependencies.filter fun d => !d.touches b.id
        comments := s.comments.filter (·.beadId != b.id) } := by
    rw [← beads_forget_of_split hbeads hothers]
    rfl
  rw [hforget]
  exact .delete hbeads hothers

/-- The first edge from the one bead to the other is the only one. -/
theorem of_eraseP (hsound : Sound s) {dependent prerequisite : String} {d : Dependency}
    (hfind : s.dependencies.find? (·.joins dependent prerequisite) = some d) :
    Footprint s (.removeDependency dependent prerequisite) (.dependencyRemoved d)
      { s with dependencies := s.dependencies.eraseP (·.joins dependent prerequisite) } := by
  obtain ⟨hd, before, after, hedges, hbefore⟩ := List.find?_eq_some_iff_append.1 hfind
  obtain ⟨rfl, rfl⟩ := Dependency.joins_iff.1 hd
  have hbefore : ∀ e ∈ before, e.joins d.dependent d.prerequisite = false := by
    simpa using hbefore
  have hpairs := hsound.pairs
  rw [hedges, List.pairwise_append, List.pairwise_cons] at hpairs
  have hafter : ∀ e ∈ after, e.joins d.dependent d.prerequisite = false := by
    intro e he
    rw [Bool.eq_false_iff, ne_eq, Dependency.joins_iff]
    exact fun hsame => hpairs.2.1.1 e he ⟨hsame.1.symm, hsame.2.symm⟩
  have herase : s.dependencies.eraseP (·.joins d.dependent d.prerequisite) = before ++ after := by
    rw [hedges, List.eraseP_append_right _ (by simpa using hbefore), List.eraseP_cons_of_pos hd]
  rw [herase]
  exact .part hedges (List.forall_mem_append.2 ⟨hbefore, hafter⟩)

/-- In a store that can come about, what an operation does is one of these. -/
theorem of_effect (hnumbered : Numbered s) (hsound : Sound s) (heffect : Effect now s op c s') :
    Footprint s op c s' := by
  cases heffect with
  | create _ _ _ => exact .create hnumbered.next_not_mem
  | update _ _ hget _ => exact of_put hnumbered hget rfl rfl rfl
  | close hget _ => exact of_put hnumbered hget rfl rfl rfl
  | reopen hget _ => exact of_put hnumbered hget rfl rfl rfl
  | delete hget => exact of_forget hnumbered hget
  | addLabel _ hget _ => exact of_put hnumbered hget rfl rfl rfl
  | removeLabel hget _ => exact of_put hnumbered hget rfl rfl rfl
  | addDependency _ _ _ _ _ => exact .join ⟨_, _, _, _⟩
  | removeDependency hfind => exact of_eraseP hsound hfind
  | addComment _ _ => exact .remark ⟨_, _, _, _, _⟩ _

/-! ## The others -/

/-- A change is about the beads that the operation names, and about the bead that it makes. -/
theorem concerns_iff (h : Footprint s op c s') (id : String) :
    c.concerns id = true ↔ op.Names id ∨ ∃ b, c = .created b ∧ b.id = id := by
  cases h with
  | create _ => simp [Change.concerns, Operation.Names, @eq_comm _ id]
  | rewrite hop hc hid _ _ =>
      rw [names_iff_of_rewrites hop, concerns_of_rewritten hc, hid, beq_iff_eq, eq_comm]
      refine ⟨Or.inl, Or.rec (fun hsame => hsame) ?_⟩
      rintro ⟨_, rfl, -⟩
      cases hc
  | delete _ _ => simp [Change.concerns, Operation.Names, @eq_comm _ id]
  | join d => simp [Change.concerns, Operation.Names, Dependency.touches_iff]
  | part _ _ => simp [Change.concerns, Operation.Names, Dependency.touches_iff]
  | remark c text => simp [Change.concerns, Operation.Names, @eq_comm _ id]

/-- The beads that the change is not about, the edges between them and the comments on them are what
they were, in their order. -/
theorem others (h : Footprint s op c s') :
    s'.beads.filter (fun b => !c.concerns b.id) = s.beads.filter (fun b => !c.concerns b.id) ∧
      s'.dependencies.filter (fun d => !(c.concerns d.dependent || c.concerns d.prerequisite)) =
        s.dependencies.filter (fun d => !(c.concerns d.dependent || c.concerns d.prerequisite)) ∧
      s'.comments.filter (fun x => !c.concerns x.beadId) =
        s.comments.filter (fun x => !c.concerns x.beadId) := by
  cases h with
  | create _ =>
      refine ⟨?_, rfl, rfl⟩
      rw [filter_middle_of_neg (by simp [Change.concerns]), List.append_nil]
  | rewrite _ hc hid hbeads _ =>
      refine ⟨?_, rfl, rfl⟩
      rw [hbeads, filter_middle_of_neg (by simp [concerns_of_rewritten hc]),
        filter_middle_of_neg (by simp [concerns_of_rewritten hc, hid])]
  | delete hbeads _ =>
      refine ⟨?_, ?_, ?_⟩
      · rw [hbeads, filter_middle_of_neg (by simp [Change.concerns])]
      · rw [List.filter_filter]
        exact List.filter_congr fun d _ => Bool.and_self _
      · rw [List.filter_filter]
        exact List.filter_congr fun x _ => Bool.and_self _
  | join d =>
      refine ⟨rfl, ?_, rfl⟩
      rw [filter_middle_of_neg (by simp [Change.concerns, Dependency.touches]), List.append_nil]
  | part hedges _ =>
      refine ⟨rfl, ?_, rfl⟩
      rw [hedges, filter_middle_of_neg (by simp [Change.concerns, Dependency.touches])]
  | remark c text =>
      refine ⟨rfl, rfl, ?_⟩
      rw [filter_middle_of_neg (by simp [Change.concerns]), List.append_nil]

end Footprint

/-- Whatever was done before, an operation that is done writes what its footprint says and nothing
else.  To update, close, reopen or label a bead rewrites this bead where it stands, and no edge and
no comment; a comment, or an edge that comes or goes, is all that changes, and no bead is written
for it; a bead that is deleted takes with it the edges at it and the comments on it.  What is
about other beads is as it was and in the same order: the beads, the edges between them and
the comments on them. -/
theorem operations_write_at_one_place (ops : List (Instant × Operation)) (now : Instant)
    (op : Operation) (c : Change) :
    let s := empty.run ops
    let s' := s.step now op
    (s.perform now op).1 = .ok c →
      Footprint s op c s' ∧
        (∀ id, c.concerns id = true ↔ op.Names id ∨ ∃ b, c = .created b ∧ b.id = id) ∧
        s'.beads.filter (fun b => !c.concerns b.id) = s.beads.filter (fun b => !c.concerns b.id) ∧
        s'.dependencies.filter (fun d => !(c.concerns d.dependent || c.concerns d.prerequisite)) =
          s.dependencies.filter (fun d => !(c.concerns d.dependent || c.concerns d.prerequisite)) ∧
        s'.comments.filter (fun x => !c.concerns x.beadId) =
          s.comments.filter (fun x => !c.concerns x.beadId) := by
  intro s s' hdone
  have hfootprint : Footprint s op c s' :=
    .of_effect (Numbered.empty.run ops) (Sound.empty.run ops) (effect_of_answer hdone)
  exact ⟨hfootprint, hfootprint.concerns_iff, hfootprint.others⟩

/-- The second of three beads is deleted.  The edges at it leave, in whatever direction and of
whatever kind, and so does the comment on it; the edge between the others stays, and so do the
comments before and behind. -/
theorem second_bead_leaves_alone :
    let t : Instant := ⟨0, 0⟩
    let draft : Draft := ⟨"work", "", 2, .task, none, []⟩
    let bead : Bead := drafted t 2 "work" 2 [] draft
    let ops : List (Instant × Operation) :=
      [(t, .create draft), (t, .create draft), (t, .create draft),
        (t, .addDependency "bd-2" "bd-1" .blocks), (t, .addDependency "bd-3" "bd-1" .blocks),
        (t, .addDependency "bd-1" "bd-2" .related), (t, .addComment "bd-1" "eve" "a"),
        (t, .addComment "bd-2" "eve" "b"), (t, .addComment "bd-1" "eve" "c")]
    let s := empty.run ops
    let s' := s.step t (.delete "bd-2")
    (s.perform t (.delete "bd-2")).1 = .ok (.deleted bead) ∧
      Footprint s (.delete "bd-2") (.deleted bead) s' ∧
      s'.beads.filter (fun b => !Change.concerns b.id (.deleted bead)) =
        s.beads.filter (fun b => !Change.concerns b.id (.deleted bead)) ∧
      s'.ids = ["bd-1", "bd-3"] ∧ s'.dependencies = [⟨"bd-3", "bd-1", .blocks, t⟩] ∧
      s'.comments = [⟨1, "bd-1", "eve", "a", t⟩, ⟨3, "bd-1", "eve", "c", t⟩] := by
  intro t draft bead ops s s'
  have hdone : (s.perform t (.delete "bd-2")).1 = .ok (.deleted bead) := by decide +kernel
  obtain ⟨hfootprint, -, hbeads, -⟩ :=
    operations_write_at_one_place ops t (.delete "bd-2") (.deleted bead) hdone
  exact ⟨hdone, hfootprint, hbeads, by decide +kernel, by decide +kernel, by decide +kernel⟩

end Store

end IssueTracker
