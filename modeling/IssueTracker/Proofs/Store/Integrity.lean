/-
  IssueTracker/Proofs/Store/Integrity.lean --- the graph of every store that can come about.

  `Sound` is what the edges of a store keep: they join two different beads that are there,
  no two of them join the same pair in the same direction, and blocking edges make no
  cycle.  Each effect keeps it (`Sound.effect`), hence each run.
-/
import IssueTracker.Proofs.Graph.Reach
import IssueTracker.Proofs.Store.Effect
import Mathlib.Data.List.Pairwise

set_option autoImplicit false

namespace IssueTracker

namespace Store

variable {now : Instant} {s s' : Store} {op : Operation} {c : Change}

/-- Do two edges join the same beads in the same direction? -/
def SamePair (d e : Dependency) : Prop :=
  d.dependent = e.dependent ∧ d.prerequisite = e.prerequisite

/-- No more than one edge leads from the one bead to the other. -/
theorem eraseP_joins {ds : List Dependency} (hpairs : ds.Pairwise fun d e => ¬ SamePair d e)
    (dependent prerequisite : String) :
    ds.eraseP (·.joins dependent prerequisite) =
      ds.filter fun d => !d.joins dependent prerequisite := by
  induction ds with
  | nil => rfl
  | cons d ds ih =>
      rw [List.pairwise_cons] at hpairs
      cases hd : d.joins dependent prerequisite with
      | true =>
          have hothers : ∀ e ∈ ds, (!e.joins dependent prerequisite) = true := by
            intro e he
            cases hjoins : e.joins dependent prerequisite with
            | false => rfl
            | true =>
                rw [Dependency.joins_iff] at hd hjoins
                refine absurd ?_ (hpairs.1 e he)
                exact ⟨hd.1.trans hjoins.1.symm, hd.2.trans hjoins.2.symm⟩
          rw [List.eraseP_cons_of_pos hd, List.filter_cons_of_neg (by simp [hd]),
            List.filter_eq_self.2 hothers]
      | false =>
          rw [List.eraseP_cons_of_neg (by simp [hd]), List.filter_cons_of_pos (by simp [hd]),
            ih hpairs.2]

/-- The edges of the store are those of a graph on its beads in which nothing waits for
itself. -/
structure Sound (s : Store) : Prop where
  /-- No edge leads back to the bead that it leaves. -/
  irreflexive : ∀ d ∈ s.dependencies, d.dependent ≠ d.prerequisite
  /-- The endpoints of an edge are beads. -/
  endpoints : ∀ d ∈ s.dependencies, d.dependent ∈ s.ids ∧ d.prerequisite ∈ s.ids
  /-- A pair of beads has one edge at most in each direction, of whatever kind. -/
  pairs : s.dependencies.Pairwise fun d e => ¬ SamePair d e
  /-- Blocking edges make no cycle. -/
  acyclic : Graph.Acyclic s.dependencies

theorem Sound.empty : Sound Store.empty where
  irreflexive _ hd := absurd hd List.not_mem_nil
  endpoints _ hd := absurd hd List.not_mem_nil
  pairs := List.Pairwise.nil
  acyclic := Graph.acyclic_nil

/-- Edges that join the same pair are one edge. -/
theorem Sound.eq_of_samePair (h : Sound s) {d e : Dependency} (hd : d ∈ s.dependencies)
    (he : e ∈ s.dependencies) (hsame : SamePair d e) : d = e := by
  have hsymm : Std.Symm fun d e : Dependency => ¬ SamePair d e :=
    ⟨fun _ _ hnot hsame => hnot ⟨hsame.1.symm, hsame.2.symm⟩⟩
  by_contra hne
  exact h.pairs.forall hd he hne hsame

/-- A store is sound with the edges of a sound one, or with fewer, as long as their
endpoints are there. -/
theorem Sound.of_sublist (h : Sound s) (hedges : s'.dependencies.Sublist s.dependencies)
    (hends : ∀ d ∈ s'.dependencies, d.dependent ∈ s'.ids ∧ d.prerequisite ∈ s'.ids) :
    Sound s' where
  irreflexive d hd := h.irreflexive d (hedges.subset hd)
  endpoints := hends
  pairs := h.pairs.sublist hedges
  acyclic := h.acyclic.mono hedges.subset

/-- Soundness depends on nothing but the edges and the identities, and more beads do it no
harm. -/
theorem Sound.of_ids_subset (h : Sound s) (hedges : s'.dependencies = s.dependencies)
    (hids : s.ids ⊆ s'.ids) : Sound s' := by
  refine h.of_sublist (hedges ▸ List.Sublist.refl _) ?_
  intro d hd
  rw [hedges] at hd
  exact ⟨hids (h.endpoints d hd).1, hids (h.endpoints d hd).2⟩

theorem Sound.put (h : Sound s) (b : Bead) : Sound (s.put b) := by
  refine h.of_ids_subset rfl ?_
  rw [ids_put]
  exact List.Subset.refl _

/-- The edges of a bead leave with it, so that no edge loses an endpoint. -/
theorem Sound.forget (h : Sound s) (id : String) : Sound (s.forget id) := by
  have hsublist : (s.forget id).dependencies.Sublist s.dependencies := List.filter_sublist
  refine h.of_sublist hsublist ?_
  intro d hd
  obtain ⟨hfrom, hto⟩ := h.endpoints d (hsublist.subset hd)
  have huntouched : ¬ d.touches id = true := by
    have := (List.mem_filter.1 hd).2
    simpa using this
  rw [Dependency.touches_iff, not_or] at huntouched
  exact ⟨mem_ids_forget.2 ⟨hfrom, huntouched.1⟩, mem_ids_forget.2 ⟨hto, huntouched.2⟩⟩

/-- A new edge between two different beads that are there, the first between them in its
direction, keeps the graph sound if it closes no cycle. -/
theorem Sound.join (h : Sound s) {d : Dependency} (hne : d.dependent ≠ d.prerequisite)
    (hends : d.dependent ∈ s.ids ∧ d.prerequisite ∈ s.ids)
    (hnew : ∀ e ∈ s.dependencies, ¬ e.joins d.dependent d.prerequisite = true)
    (hcycle : d.kind = .blocks →
      Graph.reaches s.dependencies d.prerequisite d.dependent = false) :
    Sound { s with dependencies := s.dependencies ++ [d] } where
  irreflexive e he := by
    rcases List.mem_append.1 he with he | he
    · exact h.irreflexive e he
    · rw [List.mem_singleton.1 he]
      exact hne
  endpoints e he := by
    rcases List.mem_append.1 he with he | he
    · exact h.endpoints e he
    · rw [List.mem_singleton.1 he]
      exact hends
  pairs := by
    refine List.pairwise_append.2 ⟨h.pairs, List.pairwise_singleton _ _, ?_⟩
    intro e he d' hd' hsame
    rw [List.mem_singleton.1 hd'] at hsame
    exact hnew e he (Dependency.joins_iff.2 hsame)
  acyclic := h.acyclic.append hcycle

/-- Each effect keeps the graph sound. -/
theorem Sound.effect (h : Sound s) (heffect : Effect now s op c s') : Sound s' := by
  cases heffect with
  | create _ _ _ =>
      refine h.of_ids_subset rfl ?_
      intro id hid
      simp only [ids, List.map_append]
      exact List.mem_append_left _ hid
  | update _ _ _ _ => exact h.put _
  | close _ _ => exact h.put _
  | reopen _ _ => exact h.put _
  | delete _ => exact h.forget _
  | addLabel _ _ _ => exact h.put _
  | removeLabel _ _ => exact h.put _
  | addDependency hne hdependent hprerequisite hnew hcycle =>
      refine h.join hne ⟨?_, ?_⟩ hnew hcycle
      · exact exists_get?_iff.1 ⟨_, hdependent⟩
      · exact exists_get?_iff.1 ⟨_, hprerequisite⟩
  | removeDependency _ =>
      refine h.of_sublist List.eraseP_sublist ?_
      intro d hd
      exact h.endpoints d (List.mem_of_mem_eraseP hd)
  | addComment _ _ => exact h.of_ids_subset rfl (List.Subset.refl _)

theorem Sound.step (h : Sound s) (now : Instant) (op : Operation) : Sound (s.step now op) :=
  step_induction op h h.effect

/-- Every run leads to a sound store. -/
theorem Sound.run (h : Sound s) (ops : List (Instant × Operation)) : Sound (s.run ops) :=
  run_induction (fun now op hs => hs.step now op) h ops

/-- After any operations, whether they were refused or not and whatever the clock said, each
edge joins two different beads that are there, no two edges join the same pair in the same
direction, and no blocking edges make a cycle. -/
theorem dependency_graph_integrity (ops : List (Instant × Operation)) :
    (∀ d ∈ (empty.run ops).dependencies,
      d.dependent ≠ d.prerequisite ∧
        (∃ b, (empty.run ops).get? d.dependent = some b) ∧
        ∃ b, (empty.run ops).get? d.prerequisite = some b) ∧
      (empty.run ops).dependencies.Pairwise
        (fun d e => ¬ (d.dependent = e.dependent ∧ d.prerequisite = e.prerequisite)) ∧
      Graph.Acyclic (empty.run ops).dependencies := by
  have hsound : Sound (empty.run ops) := Sound.empty.run ops
  refine ⟨?_, hsound.pairs, hsound.acyclic⟩
  intro d hd
  obtain ⟨hfrom, hto⟩ := hsound.endpoints d hd
  exact ⟨hsound.irreflexive d hd, exists_get?_iff.2 hfrom, exists_get?_iff.2 hto⟩

end Store

end IssueTracker
