/-
  IssueTracker/Proofs/Store/Linking.lean --- which edges the store takes.

  `Legal` lists what an edge must be like for the graph to stay one without loops, double edges
  and cycles, and `Breaks` gives the failure of the first of these rules that an edge breaks.  The
  store takes a legal edge (`addDependency_of_legal`) and answers any other one with that failure
  (`addDependency_of_breaks`).  The rule on cycles is stated of the blocking edges alone; that the
  search from the prerequisite decides it rests on there being no cycle before.
-/
import IssueTracker.Proofs.Store.Integrity

set_option autoImplicit false

namespace IssueTracker

namespace Store

variable {s : Store} {d : Dependency}

/-- The edges that hold work back. -/
def blocking (s : Store) : List Dependency := s.dependencies.filter fun d => d.kind = .blocks

/-- An edge that keeps the graph legal. -/
structure Legal (s : Store) (d : Dependency) : Prop where
  different : d.dependent ≠ d.prerequisite
  dependent_mem : ∃ b, s.get? d.dependent = some b
  prerequisite_mem : ∃ b, s.get? d.prerequisite = some b
  /-- No edge of any kind leads from the one to the other yet. -/
  unjoined : ∀ e ∈ s.dependencies, ¬ SamePair e d
  acyclic : d.kind = .blocks → Graph.Acyclic (s.blocking ++ [d])

/-- The failure of the first rule that an edge breaks. -/
inductive Breaks (s : Store) (d : Dependency) : Failure → Prop where
  | loop (hloop : d.dependent = d.prerequisite) :
      Breaks s d (.invalidInput "a bead cannot depend on itself")
  | noDependent (hne : d.dependent ≠ d.prerequisite) (hnone : s.get? d.dependent = none) :
      Breaks s d (.notFound ("Bead " ++ d.dependent ++ " not found"))
  | noPrerequisite {a : Bead} (hne : d.dependent ≠ d.prerequisite)
      (hdependent : s.get? d.dependent = some a) (hnone : s.get? d.prerequisite = none) :
      Breaks s d (.notFound ("Bead " ++ d.prerequisite ++ " not found"))
  | joined {a b : Bead} {e : Dependency} (hne : d.dependent ≠ d.prerequisite)
      (hdependent : s.get? d.dependent = some a) (hprerequisite : s.get? d.prerequisite = some b)
      (he : e ∈ s.dependencies) (hsame : SamePair e d) :
      Breaks s d (.conflict (d.dependent ++ " already depends on " ++ d.prerequisite))
  | cycle {a b : Bead} (hne : d.dependent ≠ d.prerequisite)
      (hdependent : s.get? d.dependent = some a) (hprerequisite : s.get? d.prerequisite = some b)
      (hnew : ∀ e ∈ s.dependencies, ¬ SamePair e d) (hkind : d.kind = .blocks)
      (hcycle : ¬ Graph.Acyclic (s.blocking ++ [d])) :
      Breaks s d
        (.invalidInput (d.dependent ++ " -> " ++ d.prerequisite ++ " would create a dependency cycle"))

/-- What is not legal breaks a rule. -/
theorem exists_breaks (h : ¬ Legal s d) : ∃ f, Breaks s d f := by
  by_cases hne : d.dependent = d.prerequisite
  · exact ⟨_, .loop hne⟩
  cases ha : s.get? d.dependent with
  | none => exact ⟨_, .noDependent hne ha⟩
  | some a =>
      cases hb : s.get? d.prerequisite with
      | none => exact ⟨_, .noPrerequisite hne ha hb⟩
      | some b =>
          by_cases hjoined : ∃ e ∈ s.dependencies, SamePair e d
          · obtain ⟨e, he, hsame⟩ := hjoined
            exact ⟨_, .joined hne ha hb he hsame⟩
          · have hnew : ∀ e ∈ s.dependencies, ¬ SamePair e d :=
              fun e he hsame => hjoined ⟨e, he, hsame⟩
            -- All rules but the last one hold, so that this is the one that is broken.
            have hlast : ¬ (d.kind = .blocks → Graph.Acyclic (s.blocking ++ [d])) :=
              fun hacyclic => h ⟨hne, ⟨a, ha⟩, ⟨b, hb⟩, hnew, hacyclic⟩
            obtain ⟨hkind, hcycle⟩ := Classical.not_imp.1 hlast
            exact ⟨_, .cycle hne ha hb hnew hkind hcycle⟩

/-- Edges of other kinds make no difference to cycles. -/
theorem acyclic_blocking_append (s : Store) (d : Dependency) :
    Graph.Acyclic (s.blocking ++ [d]) ↔ Graph.Acyclic (s.dependencies ++ [d]) := by
  refine Graph.acyclic_congr fun x => ?_
  rw [Graph.prerequisites_append, Graph.prerequisites_append, blocking,
    Graph.prerequisites_filter_blocks]

/-- The search decides whether a blocking edge is legal. -/
theorem Sound.reaches_eq_false_iff (h : Sound s) (hkind : d.kind = .blocks) :
    Graph.reaches s.dependencies d.prerequisite d.dependent = false ↔
      Graph.Acyclic (s.blocking ++ [d]) := by
  rw [acyclic_blocking_append, Graph.acyclic_append_iff h.acyclic]
  exact ⟨fun hfalse _ => hfalse, fun hfalse => hfalse hkind⟩

theorem any_joins_eq_true_iff :
    s.dependencies.any (·.joins d.dependent d.prerequisite) = true ↔
      ∃ e ∈ s.dependencies, SamePair e d := by
  simp only [List.any_eq_true, Dependency.joins_iff, SamePair]

theorem any_joins_eq_false (h : ∀ e ∈ s.dependencies, ¬ SamePair e d) :
    s.dependencies.any (·.joins d.dependent d.prerequisite) = false := by
  rw [Bool.eq_false_iff, Ne, any_joins_eq_true_iff]
  rintro ⟨e, he, hsame⟩
  exact h e he hsame

/-- A legal edge is put behind the others, and nothing else changes. -/
theorem addDependency_of_legal (hs : Sound s) (h : Legal s d) :
    s.addDependency d.createdAt d.dependent d.prerequisite d.kind =
      (.ok d, { s with dependencies := s.dependencies ++ [d] }) := by
  obtain ⟨a, ha⟩ := h.dependent_mem
  obtain ⟨b, hb⟩ := h.prerequisite_mem
  have hsearch : (decide (d.kind = .blocks) &&
      Graph.reaches s.dependencies d.prerequisite d.dependent) = false := by
    by_cases hkind : d.kind = .blocks
    · rw [(hs.reaches_eq_false_iff hkind).2 (h.acyclic hkind), Bool.and_false]
    · rw [decide_eq_false hkind, Bool.false_and]
  simp only [addDependency, if_neg h.different, get, ha, hb, any_joins_eq_false h.unjoined,
    hsearch, Bool.false_eq_true, if_false]

/-- An edge is refused with the failure of the first rule that it breaks, and the store stays as
it was. -/
theorem addDependency_of_breaks (hs : Sound s) {g : Failure} (h : Breaks s d g) :
    ∃ f, s.addDependency d.createdAt d.dependent d.prerequisite d.kind = (.error f, s) ∧
      f.failure = g := by
  cases h with
  | loop hloop =>
      refine ⟨.selfDependency, ?_, rfl⟩
      rw [addDependency, if_pos hloop]
  | noDependent hne hnone =>
      refine ⟨.beadNotFound d.dependent, ?_, rfl⟩
      simp only [addDependency, if_neg hne, get, hnone]
  | noPrerequisite hne ha hnone =>
      refine ⟨.beadNotFound d.prerequisite, ?_, rfl⟩
      simp only [addDependency, if_neg hne, get, ha, hnone]
  | joined hne ha hb he hsame =>
      have hany := any_joins_eq_true_iff.2 ⟨_, he, hsame⟩
      refine ⟨.dependencyPresent d.dependent d.prerequisite, ?_, rfl⟩
      simp only [addDependency, if_neg hne, get, ha, hb, hany, if_true]
  | cycle hne ha hb hnew hkind hcycle =>
      have hfound : Graph.reaches s.dependencies d.prerequisite d.dependent = true := by
        rw [← Bool.not_eq_false, hs.reaches_eq_false_iff hkind]
        exact hcycle
      refine ⟨.dependencyCycle d.dependent d.prerequisite, ?_, rfl⟩
      simp only [addDependency, if_neg hne, get, ha, hb, any_joins_eq_false hnew, hkind, hfound,
        decide_true, Bool.and_self, Bool.false_eq_true, if_false, if_true]

/-- After any operations, an edge is taken exactly if it joins two different beads that are there,
in whose direction no edge of any kind leads yet, and, if it blocks, the blocking edges with it
still make no cycle.  Then it stands behind the other edges and nothing else has changed.  Any
other edge fails by the first of these rules that it breaks.

An edge that does not block is therefore taken wherever it leads, and no way goes over it. -/
theorem legal_edges_are_taken (before : List (Instant × Operation)) (now : Instant)
    (dependent prerequisite : String) (kind : Dependency.Kind) :
    let s := empty.run before
    let d : Dependency := ⟨dependent, prerequisite, kind, now⟩
    let r := s.addDependency now dependent prerequisite kind
    ((∃ e, r.1 = .ok e) ↔ Legal s d) ∧
      (Legal s d → r = (.ok d, { s with dependencies := s.dependencies ++ [d] })) ∧
      (∀ g, Breaks s d g ↔ ∃ f, r = (.error f, s) ∧ f.failure = g) ∧
      (kind ≠ .blocks →
        (Legal s d ↔ dependent ≠ prerequisite ∧ (∃ b, s.get? dependent = some b) ∧
          (∃ b, s.get? prerequisite = some b) ∧ ∀ e ∈ s.dependencies, ¬ SamePair e d) ∧
        ∀ a b, Graph.Leads (s.dependencies ++ [d]) a b ↔ Graph.Leads s.dependencies a b) := by
  intro s d r
  have hs : Sound s := Sound.empty.run before
  have htaken : Legal s d → r = (.ok d, { s with dependencies := s.dependencies ++ [d] }) :=
    addDependency_of_legal hs
  have hrefused : ∀ {g}, Breaks s d g → ∃ f, r = (.error f, s) ∧ f.failure = g :=
    addDependency_of_breaks hs
  refine ⟨⟨?_, fun hlegal => ⟨d, congrArg Prod.fst (htaken hlegal)⟩⟩, htaken, ?_, ?_⟩
  · rintro ⟨e, he⟩
    by_contra hnot
    obtain ⟨g, hbreaks⟩ := exists_breaks hnot
    obtain ⟨f, hf, -⟩ := hrefused hbreaks
    rw [hf] at he
    cases he
  · refine fun g => ⟨hrefused, ?_⟩
    rintro ⟨f, hf, rfl⟩
    have hnot : ¬ Legal s d := by
      intro hlegal
      rw [htaken hlegal] at hf
      cases hf
    obtain ⟨g, hbreaks⟩ := exists_breaks hnot
    obtain ⟨f', hf', rfl⟩ := hrefused hbreaks
    rw [hf] at hf'
    cases hf'
    exact hbreaks
  · intro hkind
    refine ⟨⟨fun h => ⟨h.different, h.dependent_mem, h.prerequisite_mem, h.unjoined⟩, ?_⟩, ?_⟩
    · rintro ⟨hne, hdependent, hprerequisite, hnew⟩
      exact ⟨hne, hdependent, hprerequisite, hnew, fun hblocks => absurd hblocks hkind⟩
    · intro a b
      exact Graph.leads_congr fun x => Graph.prerequisites_append_of_ne hkind

/-- With the first bead waiting for the second and the second for the third, an edge from the third
to the first is refused as a cycle if it blocks, and taken as a remark. -/
theorem backward_edge_as_remark :
    let t : Instant := ⟨0, 0⟩
    let draft : Draft := ⟨"work", "", 2, .task, none, []⟩
    let ops : List (Instant × Operation) :=
      [(t, .create draft), (t, .create draft), (t, .create draft),
        (t, .addDependency "bd-1" "bd-2" .blocks), (t, .addDependency "bd-2" "bd-3" .blocks)]
    let s := empty.run ops
    (∃ f, s.addDependency t "bd-3" "bd-1" .blocks = (.error f, s) ∧
        f.failure = .invalidInput "bd-3 -> bd-1 would create a dependency cycle") ∧
      Dependency.Kind.related ≠ .blocks ∧ Legal s ⟨"bd-3", "bd-1", .related, t⟩ ∧
        s.addDependency t "bd-3" "bd-1" .related =
          (.ok ⟨"bd-3", "bd-1", .related, t⟩,
            { s with dependencies := s.dependencies ++ [⟨"bd-3", "bd-1", .related, t⟩] }) := by
  intro t draft ops s
  obtain ⟨a, ha⟩ : ∃ a, s.get? "bd-3" = some a := Option.isSome_iff_exists.1 (by decide +kernel)
  obtain ⟨b, hb⟩ : ∃ b, s.get? "bd-1" = some b := Option.isSome_iff_exists.1 (by decide +kernel)
  have hnew : ∀ kind, ∀ e ∈ s.dependencies, ¬ SamePair e ⟨"bd-3", "bd-1", kind, t⟩ := by
    intro kind
    have hends : ∀ e ∈ s.dependencies, ¬ (e.dependent = "bd-3" ∧ e.prerequisite = "bd-1") := by
      decide +kernel
    exact hends
  have hcycle : ¬ Graph.Acyclic (s.blocking ++ [⟨"bd-3", "bd-1", .blocks, t⟩]) := by
    intro hacyclic
    apply hacyclic "bd-3"
    apply Graph.Leads.step (b := "bd-1") (by decide +kernel)
    apply Graph.Leads.step (b := "bd-2") (by decide +kernel)
    exact Graph.Leads.edge (by decide +kernel)
  have hblocks := (legal_edges_are_taken ops t "bd-3" "bd-1" .blocks).2.2.1
  obtain ⟨-, htaken, -, hother⟩ := legal_edges_are_taken ops t "bd-3" "bd-1" .related
  have hkind : Dependency.Kind.related ≠ .blocks := by decide
  have hlegal : Legal s ⟨"bd-3", "bd-1", .related, t⟩ :=
    (hother hkind).1.2 ⟨by decide, ⟨a, ha⟩, ⟨b, hb⟩, hnew .related⟩
  refine ⟨(hblocks _).1 (.cycle (by decide) ha hb (hnew .blocks) rfl hcycle), hkind, hlegal, ?_⟩
  exact htaken hlegal

end Store

end IssueTracker
