/-
  IssueTracker/Proofs/Graph/Reach.lean --- the search for a way, and cycles.

  `reaches_iff` says that the search answers whether blocking edges lead from the one node
  to the other.  A search that finds nothing leaves a set of nodes behind that holds the
  start, does not hold the target, and is left by no blocking edge; nothing in it leads to
  the target.

  One edge more leaves the graph without cycles exactly if the search from its prerequisite does
  not find its dependent (`acyclic_append_iff`).  In a graph without cycles some node of every
  finite set has all its prerequisites outside (`Acyclic.exists_free`).
-/
import IssueTracker.Store.Graph
import Mathlib.Data.Set.Finite.Basic
import Mathlib.Order.WellFounded

set_option autoImplicit false

namespace IssueTracker

namespace Graph

variable {edges more : List Dependency} {a b c start target : String}

/-! ## Ways -/

theorem mem_prerequisites :
    b ∈ prerequisites edges a ↔
      ∃ d ∈ edges, d.kind = .blocks ∧ d.dependent = a ∧ d.prerequisite = b := by
  simp only [prerequisites, blocksFrom, List.mem_map, List.mem_filter, Bool.and_eq_true,
    decide_eq_true_eq, beq_iff_eq]
  constructor
  · rintro ⟨d, ⟨hd, hkind, hfrom⟩, hto⟩
    exact ⟨d, hd, hkind, hfrom, hto⟩
  · rintro ⟨d, hd, hkind, hfrom, hto⟩
    exact ⟨d, ⟨hd, hkind, hfrom⟩, hto⟩

theorem prerequisites_append :
    prerequisites (edges ++ more) a = prerequisites edges a ++ prerequisites more a := by
  simp only [prerequisites, List.filter_append, List.map_append]

/-- An edge of another kind is no prerequisite of anything. -/
theorem prerequisites_append_of_ne {d : Dependency} (hkind : d.kind ≠ .blocks) :
    prerequisites (edges ++ [d]) a = prerequisites edges a := by
  have hnot : ¬ blocksFrom a d = true := by simp [blocksFrom, hkind]
  have hnone : prerequisites [d] a = [] := by
    rw [prerequisites, List.filter_cons_of_neg hnot, List.filter_nil, List.map_nil]
  rw [prerequisites_append, hnone, List.append_nil]

/-- Without the edges of other kinds the prerequisites are the same. -/
theorem prerequisites_filter_blocks :
    prerequisites (edges.filter fun d => d.kind = .blocks) a = prerequisites edges a := by
  simp only [prerequisites, List.filter_filter]
  congr 1
  refine List.filter_congr fun d _ => ?_
  by_cases hkind : d.kind = .blocks <;> simp [blocksFrom, hkind]

theorem Leads.trans (hab : Leads edges a b) (hbc : Leads edges b c) : Leads edges a c := by
  induction hab with
  | edge h => exact .step h hbc
  | step h _ ih => exact .step h (ih hbc)

/-- A way stays where edges are added. -/
theorem Leads.mono (hsub : edges ⊆ more) (h : Leads edges a b) : Leads more a b := by
  have hkeep : ∀ {x y : String}, y ∈ prerequisites edges x → y ∈ prerequisites more x := by
    intro x y hy
    obtain ⟨d, hd, hends⟩ := mem_prerequisites.1 hy
    exact mem_prerequisites.2 ⟨d, hsub hd, hends⟩
  induction h with
  | edge h => exact .edge (hkeep h)
  | step h _ ih => exact .step (hkeep h) ih

/-- Where the prerequisites are the same, the ways are the same. -/
theorem leads_congr (h : ∀ x, prerequisites edges x = prerequisites more x) :
    Leads edges a b ↔ Leads more a b := by
  have hkeep : ∀ {es fs : List Dependency}, (∀ x, prerequisites es x = prerequisites fs x) →
      Leads es a b → Leads fs a b := by
    intro es fs hsame hleads
    induction hleads with
    | @edge a _ hb => exact .edge (hsame a ▸ hb)
    | @step a _ _ hb _ ih => exact .step (hsame a ▸ hb) ih
  exact ⟨hkeep h, hkeep fun x => (h x).symm⟩

/-- The first edge of a way, and what is left of it. -/
theorem Leads.exists_first (h : Leads edges a c) :
    ∃ b ∈ prerequisites edges a, b = c ∨ Leads edges b c := by
  cases h with
  | edge h => exact ⟨c, h, Or.inl rfl⟩
  | step h hrest => exact ⟨_, h, Or.inr hrest⟩

/-! ## The search -/

/-- What is found is the target, from a node that was on the stack. -/
theorem leads_of_search {seen stack : List String} (h : search edges target seen stack = true) :
    ∃ node ∈ stack, node = target ∨ Leads edges node target := by
  induction seen, stack using search.induct edges target with
  | case1 seen => simp [search] at h
  | case2 seen stack => exact ⟨target, by simp, Or.inl rfl⟩
  | case3 seen node stack hne hseen ih =>
      rw [search, if_neg hne, if_pos hseen] at h
      obtain ⟨found, hfound, hleads⟩ := ih h
      exact ⟨found, List.mem_cons_of_mem _ hfound, hleads⟩
  | case4 seen node stack hne hseen ih =>
      rw [search, if_neg hne, if_neg hseen] at h
      obtain ⟨found, hfound, hleads⟩ := ih h
      rcases List.mem_append.1 hfound with hnext | hstack
      · refine ⟨node, by simp, Or.inr ?_⟩
        rcases hleads with rfl | hleads
        · exact .edge hnext
        · exact .step hnext hleads
      · exact ⟨found, List.mem_cons_of_mem _ hstack, hleads⟩

/-- A set of nodes that no blocking edge leaves. -/
def Closed (edges : List Dependency) (nodes : List String) : Prop :=
  ∀ x ∈ nodes, ∀ y ∈ prerequisites edges x, y ∈ nodes

/-- Ways from a closed set stay in it. -/
theorem Closed.mem_of_leads {nodes : List String} (hclosed : Closed edges nodes)
    (ha : a ∈ nodes) (h : Leads edges a b) : b ∈ nodes := by
  induction h with
  | edge h => exact hclosed _ ha _ h
  | step h _ ih => exact ih (hclosed _ ha _ h)

/-- What is kept from one node to the next by a search that has found nothing yet: a seen
node is not the target, and each of its prerequisites was seen or waits on the stack. -/
def Expanded (edges : List Dependency) (target : String) (seen stack : List String) : Prop :=
  ∀ x ∈ seen, x ≠ target ∧ ∀ y ∈ prerequisites edges x, y ∈ seen ∨ y ∈ stack

theorem Expanded.cons {seen stack : List String} {node : String}
    (h : Expanded edges target seen (node :: stack)) (hne : node ≠ target) :
    Expanded edges target (node :: seen) (prerequisites edges node ++ stack) := by
  intro x hx
  rcases List.mem_cons.1 hx with rfl | hx
  · exact ⟨hne, fun y hy => Or.inr (List.mem_append_left _ hy)⟩
  · obtain ⟨hxt, hnext⟩ := h x hx
    refine ⟨hxt, fun y hy => ?_⟩
    rcases hnext y hy with hseen | hstack
    · exact Or.inl (List.mem_cons_of_mem _ hseen)
    · rcases List.mem_cons.1 hstack with rfl | hstack
      · exact Or.inl (by simp)
      · exact Or.inr (List.mem_append_right _ hstack)

/-- A node that was seen already leaves the stack. -/
theorem Expanded.skip {seen stack : List String} {node : String}
    (h : Expanded edges target seen (node :: stack)) (hseen : node ∈ seen) :
    Expanded edges target seen stack := by
  intro x hx
  obtain ⟨hxt, hnext⟩ := h x hx
  refine ⟨hxt, fun y hy => ?_⟩
  rcases hnext y hy with hy | hy
  · exact Or.inl hy
  · rcases List.mem_cons.1 hy with rfl | hy
    · exact Or.inl hseen
    · exact Or.inr hy

/-- A search that finds nothing ends with a closed set around its stack, without the
target. -/
theorem exists_closed_of_search {seen stack : List String}
    (h : search edges target seen stack = false) (hexpanded : Expanded edges target seen stack) :
    ∃ nodes, Closed edges nodes ∧ target ∉ nodes ∧ seen ⊆ nodes ∧ stack ⊆ nodes := by
  induction seen, stack using search.induct edges target with
  | case1 seen =>
      refine ⟨seen, ?_, ?_, fun _ hx => hx, by simp⟩
      · intro x hx y hy
        exact ((hexpanded x hx).2 y hy).elim id (by simp)
      · intro htarget
        exact (hexpanded target htarget).1 rfl
  | case2 seen stack => simp [search] at h
  | case3 seen node stack hne hseen ih =>
      rw [search, if_neg hne, if_pos hseen] at h
      have hmem : node ∈ seen := by simpa using hseen
      obtain ⟨nodes, hclosed, htarget, hsub, hstack⟩ := ih h (hexpanded.skip hmem)
      exact ⟨nodes, hclosed, htarget, hsub, List.cons_subset.2 ⟨hsub hmem, hstack⟩⟩
  | case4 seen node stack hne hseen ih =>
      rw [search, if_neg hne, if_neg hseen] at h
      obtain ⟨nodes, hclosed, htarget, hsub, hstack⟩ := ih h (hexpanded.cons hne)
      obtain ⟨hnode, hsub⟩ := List.cons_subset.1 hsub
      refine ⟨nodes, hclosed, htarget, hsub, List.cons_subset.2 ⟨hnode, ?_⟩⟩
      exact fun x hx => hstack (List.mem_append_right _ hx)

/-- The search answers whether the target is the start, or blocking edges lead there. -/
theorem reaches_iff :
    reaches edges start target = true ↔ start = target ∨ Leads edges start target := by
  constructor
  · intro h
    obtain ⟨node, hnode, hleads⟩ := leads_of_search h
    rw [List.mem_singleton.1 hnode] at hleads
    exact hleads
  · intro hleads
    cases hsearch : reaches edges start target with
    | true => rfl
    | false =>
        obtain ⟨nodes, hclosed, htarget, -, hstack⟩ :=
          exists_closed_of_search hsearch (fun x hx => absurd hx (by simp))
        have hstart : start ∈ nodes := hstack (by simp)
        rcases hleads with rfl | hleads
        · exact absurd hstart htarget
        · exact absurd (hclosed.mem_of_leads hstart hleads) htarget

/-! ## Cycles -/

theorem acyclic_nil : Acyclic [] := by
  intro x hx
  obtain ⟨y, hy, -⟩ := hx.exists_first
  simp [prerequisites] at hy

/-- Fewer edges close no cycle. -/
theorem Acyclic.mono (hsub : edges ⊆ more) (h : Acyclic more) : Acyclic edges :=
  fun x hx => h x (hx.mono hsub)

/-- A way over one edge more goes by the old edges, or has the new edge on it. -/
theorem leads_append {d : Dependency} (h : Leads (edges ++ [d]) a b) :
    Leads edges a b ∨
      d.kind = .blocks ∧ (a = d.dependent ∨ Leads edges a d.dependent) ∧
        (d.prerequisite = b ∨ Leads edges d.prerequisite b) := by
  have hfirst : ∀ {x y : String}, y ∈ prerequisites (edges ++ [d]) x →
      y ∈ prerequisites edges x ∨ d.kind = .blocks ∧ x = d.dependent ∧ d.prerequisite = y := by
    intro x y hy
    obtain ⟨e, he, hkind, hfrom, hto⟩ := mem_prerequisites.1 hy
    rcases List.mem_append.1 he with he | he
    · exact Or.inl (mem_prerequisites.2 ⟨e, he, hkind, hfrom, hto⟩)
    · rw [List.mem_singleton.1 he] at hkind hfrom hto
      exact Or.inr ⟨hkind, hfrom.symm, hto⟩
  induction h with
  | edge h =>
      rcases hfirst h with hold | ⟨hkind, hx, hy⟩
      · exact Or.inl (.edge hold)
      · exact Or.inr ⟨hkind, Or.inl hx, Or.inl hy⟩
  | step h _ ih =>
      rcases hfirst h with hold | ⟨hkind, hx, rfl⟩
      · rcases ih with hrest | ⟨hkind, hbefore, hafter⟩
        · exact Or.inl (.step hold hrest)
        · refine Or.inr ⟨hkind, Or.inr ?_, hafter⟩
          rcases hbefore with rfl | hbefore
          · exact .edge hold
          · exact .step hold hbefore
      · rcases ih with hrest | ⟨-, -, hafter⟩
        · exact Or.inr ⟨hkind, Or.inl hx, Or.inr hrest⟩
        · exact Or.inr ⟨hkind, Or.inl hx, hafter⟩

/-- One edge more closes no cycle if it does not block, or if its prerequisite neither is
its dependent nor leads there. -/
theorem Acyclic.append {d : Dependency} (h : Acyclic edges)
    (hnew : d.kind = .blocks → reaches edges d.prerequisite d.dependent = false) :
    Acyclic (edges ++ [d]) := by
  intro x hx
  rcases leads_append hx with hold | ⟨hkind, hbefore, hafter⟩
  · exact h x hold
  · -- The way from the prerequisite to `x` and on to the dependent would be a cycle.
    have hback : d.prerequisite = d.dependent ∨ Leads edges d.prerequisite d.dependent := by
      rcases hbefore with rfl | hbefore
      · exact hafter
      · rcases hafter with hafter | hafter
        · exact Or.inr (hafter ▸ hbefore)
        · exact Or.inr (hafter.trans hbefore)
    have hfalse := hnew hkind
    rw [reaches_iff.2 hback] at hfalse
    exact Bool.noConfusion hfalse

theorem acyclic_congr (h : ∀ x, prerequisites edges x = prerequisites more x) :
    Acyclic edges ↔ Acyclic more :=
  forall_congr' fun _ => not_congr (leads_congr h)

/-- In a graph without cycles the search from the prerequisite finds the dependent exactly if the
new edge closes a cycle. -/
theorem acyclic_append_iff {d : Dependency} (h : Acyclic edges) :
    Acyclic (edges ++ [d]) ↔
      (d.kind = .blocks → reaches edges d.prerequisite d.dependent = false) := by
  refine ⟨fun hacyclic hkind => ?_, h.append⟩
  have hnew : d.prerequisite ∈ prerequisites (edges ++ [d]) d.dependent :=
    mem_prerequisites.2 ⟨d, by simp, hkind, rfl, rfl⟩
  rw [Bool.eq_false_iff]
  intro hreaches
  -- The way back, if it is there, and the new edge are a cycle.
  apply hacyclic d.dependent
  rcases reaches_iff.1 hreaches with heq | hback
  · rw [heq] at hnew
    exact .edge hnew
  · exact .step hnew (hback.mono (List.subset_append_left _ _))

/-- Without cycles, some node of a finite set that is not empty needs no other node of it. -/
theorem Acyclic.exists_free (h : Acyclic edges) {nodes : List String} (hne : nodes ≠ []) :
    ∃ x ∈ nodes, ∀ y ∈ prerequisites edges x, y ∉ nodes := by
  -- `y` is below `x` if ways lead from `x` to `y`; among finitely many nodes this ends.
  let below (y x : {n // n ∈ nodes}) : Prop := Leads edges x.1 y.1
  have htrans : IsTrans _ below := ⟨fun _ _ _ hxy hyz => hyz.trans hxy⟩
  have hirrefl : Std.Irrefl below := ⟨fun x => h x.1⟩
  have hfinite : Finite {n // n ∈ nodes} := nodes.finite_toSet
  obtain ⟨first, hfirst⟩ := List.exists_mem_of_ne_nil nodes hne
  obtain ⟨x, -, hleast⟩ :=
    (Finite.wellFounded_of_trans_of_irrefl below).has_min Set.univ ⟨⟨first, hfirst⟩, trivial⟩
  refine ⟨x.1, x.2, fun y hy hmem => ?_⟩
  exact hleast ⟨y, hmem⟩ trivial (.edge hy)

end Graph

end IssueTracker
