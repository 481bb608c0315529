/-
  IssueTracker/Proofs/Store/Effect.lean --- what an operation does to the store.

  `Effect` lists, once for each operation, the guards under which it is done, the change
  that it makes, and the store after it.  `perform_cases` says that an operation either is
  refused and leaves the store as it was, or has its effect.  What is proved of runs
  elsewhere goes by the cases of `Effect` and does not open the operations again.
-/
import IssueTracker.Store.Change

set_option autoImplicit false

namespace IssueTracker

namespace Store

variable {now : Instant} {s s' : Store} {id x : String} {b b' : Bead}

/-! ## Looking up -/

/-- The identities of the beads, in the order of the beads. -/
def ids (s : Store) : List String := s.beads.map (·.id)

theorem mem_beads_of_get? (h : s.get? id = some b) : b ∈ s.beads ∧ b.id = id :=
  ⟨List.mem_of_find?_eq_some h, by simpa using List.find?_some h⟩

theorem exists_get?_iff : (∃ b, s.get? id = some b) ↔ id ∈ s.ids := by
  constructor
  · rintro ⟨b, hb⟩
    obtain ⟨hmem, hid⟩ := mem_beads_of_get? hb
    exact List.mem_map.2 ⟨b, hmem, hid⟩
  · intro hid
    obtain ⟨b, hmem, hb⟩ := List.mem_map.1 hid
    cases hget : s.get? id with
    | some found => exact ⟨found, rfl⟩
    | none =>
        have hnone := List.find?_eq_none.1 hget b hmem
        exact absurd hb (by simpa using hnone)

theorem get?_eq_none_iff : s.get? id = none ↔ id ∉ s.ids := by
  rw [← exists_get?_iff, ← Option.isSome_iff_exists, Option.not_isSome_iff_eq_none]

theorem get_cases (s : Store) (id : String) :
    (∃ f, s.get id = .error f) ∨ ∃ b, s.get? id = some b ∧ s.get id = .ok b := by
  unfold get
  cases s.get? id with
  | none => exact Or.inl ⟨_, rfl⟩
  | some b => exact Or.inr ⟨b, rfl, rfl⟩

/-- To put a bead in the place of another one changes no identity. -/
@[simp] theorem ids_put (b : Bead) (s : Store) : (s.put b).ids = s.ids := by
  simp only [ids, put, List.map_map]
  apply List.map_congr_left
  intro x _
  by_cases hx : x.id = b.id <;> simp [hx]

@[simp] theorem mem_ids_forget {other : String} :
    other ∈ (s.forget id).ids ↔ other ∈ s.ids ∧ other ≠ id := by
  simp only [ids, forget, List.mem_map, List.mem_filter, bne_iff_ne]
  constructor
  · rintro ⟨x, ⟨hx, hne⟩, rfl⟩
    exact ⟨⟨x, hx, rfl⟩, hne⟩
  · rintro ⟨⟨x, hx, rfl⟩, hne⟩
    exact ⟨x, ⟨hx, hne⟩, rfl⟩

/-- What is found after a bead was put into its place is what was found there, or that bead. -/
theorem get?_put_eq_map (b : Bead) (s : Store) (x : String) :
    (s.put b).get? x = (s.get? x).map fun y => if y.id = b.id then b else y := by
  have hkeys : ((fun y : Bead => y.id == x) ∘ fun y => if y.id = b.id then b else y) =
      fun y => y.id == x := by
    funext y
    by_cases hy : y.id = b.id <;> simp [hy]
  simp only [get?, put, List.find?_map, hkeys]

theorem get?_put (hget : s.get? id = some b) (hid : b'.id = b.id) :
    (s.put b').get? id = some b' := by
  rw [get?_put_eq_map, hget, Option.map_some, if_pos hid.symm]

theorem get?_put_of_ne (hne : x ≠ b.id) : (s.put b).get? x = s.get? x := by
  rw [get?_put_eq_map]
  cases hget : s.get? x with
  | none => rfl
  | some y =>
      have hy : y.id = x := (mem_beads_of_get? hget).2
      rw [Option.map_some, if_neg (hy ▸ hne)]

theorem get?_forget (id : String) (s : Store) : (s.forget id).get? id = none := by
  rw [get?, List.find?_eq_none]
  intro b hb
  simpa using (List.mem_filter.1 hb).2

/-! ## Patches -/

theorem checkGiven_eq_ok_iff {α : Type} {check : α → Except Fault α} {given kept : Option α} :
    checkGiven check given = .ok kept ↔
      given = none ∧ kept = none ∨ ∃ a k, given = some a ∧ check a = .ok k ∧ kept = some k := by
  cases given with
  | none => simp [checkGiven, eq_comm]
  | some a => cases hcheck : check a <;> simp [checkGiven, hcheck, eq_comm]

theorem changesClosedness_eq_false_iff {patch : Patch} :
    changesClosedness patch b = false ↔
      ∀ status, patch.status = some status → (status = .closed ↔ b.status = .closed) := by
  unfold changesClosedness
  cases patch.status with
  | none => simp
  | some status =>
      rw [bne_eq_false_iff_eq, Bool.eq_iff_iff, Status.isClosed_iff, Status.isClosed_iff]
      simp only [Option.some.injEq, forall_eq']

/-- What is closed stays so, and what is not is not closed by a patch. -/
theorem patched_closed_iff {patch : Patch} {title : Option String} {priority : Option Nat}
    (h : changesClosedness patch b = false) :
    (patched now title priority patch b).status = .closed ↔ b.status = .closed := by
  have hstatus : (patched now title priority patch b).status = patch.status.getD b.status := rfl
  rw [hstatus]
  cases hgiven : patch.status with
  | none => rfl
  | some status => exact changesClosedness_eq_false_iff.1 h status hgiven

/-! ## Effects -/

/-- The effect of an operation that is not refused: what it changes, and the store after it. -/
inductive Effect (now : Instant) (s : Store) : Operation → Change → Store → Prop where
  | create {draft : Draft} {title : String} {priority : Nat} {labels : List String}
      (htitle : checkTitle draft.title = .ok title)
      (hpriority : checkPriority draft.priority = .ok priority)
      (hlabels : checkLabels draft.labels = .ok labels) :
      Effect now s (.create draft)
        (.created (drafted now (s.created + 1) title priority labels draft))
        { s with
          created := s.created + 1
          beads := s.beads ++ [drafted now (s.created + 1) title priority labels draft] }
  | update {id : String} {patch : Patch} {title : Option String} {priority : Option Nat} {b : Bead}
      (htitle : checkGiven checkTitle patch.title = .ok title)
      (hpriority : checkGiven checkPriority patch.priority = .ok priority)
      (hget : s.get? id = some b) (hclosedness : changesClosedness patch b = false) :
      Effect now s (.update id patch) (.updated (patched now title priority patch b))
        (s.put (patched now title priority patch b))
  | close {id : String} {reason : Option String} {b : Bead}
      (hget : s.get? id = some b) (hopen : b.status.isClosed = false) :
      Effect now s (.close id reason) (.closed (shut now reason b)) (s.put (shut now reason b))
  | reopen {id : String} {b : Bead}
      (hget : s.get? id = some b) (hclosed : b.status.isClosed = true) :
      Effect now s (.reopen id) (.reopened (reopened now b)) (s.put (reopened now b))
  | delete {id : String} {b : Bead} (hget : s.get? id = some b) :
      Effect now s (.delete id) (.deleted b) (s.forget id)
  | addLabel {id label kept : String} {b : Bead}
      (hlabel : checkLabel label = .ok kept) (hget : s.get? id = some b)
      (hnew : ¬ kept ∈ b.labels) :
      Effect now s (.addLabel id label) (.labelAdded (labelled now kept b) kept)
        (s.put (labelled now kept b))
  | removeLabel {id label : String} {b : Bead}
      (hget : s.get? id = some b) (hlabel : label ∈ b.labels) :
      Effect now s (.removeLabel id label) (.labelRemoved (unlabelled now label b) label)
        (s.put (unlabelled now label b))
  | addDependency {dependent prerequisite : String} {kind : Dependency.Kind} {a b : Bead}
      (hne : dependent ≠ prerequisite)
      (hdependent : s.get? dependent = some a) (hprerequisite : s.get? prerequisite = some b)
      (hnew : ∀ d ∈ s.dependencies, ¬ d.joins dependent prerequisite = true)
      (hcycle : kind = .blocks → Graph.reaches s.dependencies prerequisite dependent = false) :
      Effect now s (.addDependency dependent prerequisite kind)
        (.dependencyAdded ⟨dependent, prerequisite, kind, now⟩)
        { s with dependencies := s.dependencies ++ [⟨dependent, prerequisite, kind, now⟩] }
  | removeDependency {dependent prerequisite : String} {d : Dependency}
      (hfind : s.dependencies.find? (·.joins dependent prerequisite) = some d) :
      Effect now s (.removeDependency dependent prerequisite) (.dependencyRemoved d)
        { s with dependencies := s.dependencies.eraseP (·.joins dependent prerequisite) }
  | addComment {id author text kept : String} {b : Bead}
      (htext : checkComment text = .ok kept) (hget : s.get? id = some b) :
      Effect now s (.addComment id author text)
        (.commentAdded ⟨s.commented + 1, id, author, kept, now⟩)
        { s with
          commented := s.commented + 1
          comments := s.comments ++ [⟨s.commented + 1, id, author, kept, now⟩] }

/-- An outcome that is a fault with the store as it was, or has a certain effect. -/
def Decided (now : Instant) (s : Store) (op : Operation) (r : Outcome Change) : Prop :=
  (∃ f, r = (.error f, s)) ∨ ∃ c s', r = (.ok c, s') ∧ Effect now s op c s'

theorem Decided.refused {op : Operation} (f : Fault) : Decided now s op (.error f, s) :=
  Or.inl ⟨f, rfl⟩

theorem Decided.done {op : Operation} {c : Change} (h : Effect now s op c s') :
    Decided now s op (.ok c, s') :=
  Or.inr ⟨c, s', rfl, h⟩

/-! ## One lemma for each operation -/

theorem create_decided (now : Instant) (s : Store) (draft : Draft) :
    Decided now s (.create draft) (s.perform now (.create draft)) := by
  simp only [perform, create]
  cases htitle : checkTitle draft.title with
  | error f => exact .refused f
  | ok title =>
      cases hpriority : checkPriority draft.priority with
      | error f => exact .refused f
      | ok priority =>
          cases hlabels : checkLabels draft.labels with
          | error f => exact .refused f
          | ok labels => exact .done (.create htitle hpriority hlabels)

theorem update_decided (now : Instant) (s : Store) (id : String) (patch : Patch) :
    Decided now s (.update id patch) (s.perform now (.update id patch)) := by
  simp only [perform, update]
  cases htitle : checkGiven checkTitle patch.title with
  | error f => exact .refused f
  | ok title =>
      cases hpriority : checkGiven checkPriority patch.priority with
      | error f => exact .refused f
      | ok priority =>
          rcases s.get_cases id with ⟨f, hget⟩ | ⟨b, hfound, hget⟩
          · simp only [hget]
            exact .refused f
          · simp only [hget]
            cases hclosedness : changesClosedness patch b with
            | true => exact .refused .closedStateChange
            | false => exact .done (.update htitle hpriority hfound hclosedness)

theorem close_decided (now : Instant) (s : Store) (id : String) (reason : Option String) :
    Decided now s (.close id reason) (s.perform now (.close id reason)) := by
  simp only [perform, close]
  rcases s.get_cases id with ⟨f, hget⟩ | ⟨b, hfound, hget⟩
  · simp only [hget]
    exact .refused f
  · simp only [hget]
    cases hclosed : b.status.isClosed with
    | true => exact .refused (.alreadyClosed id)
    | false => exact .done (.close hfound hclosed)

theorem reopen_decided (now : Instant) (s : Store) (id : String) :
    Decided now s (.reopen id) (s.perform now (.reopen id)) := by
  simp only [perform, reopen]
  rcases s.get_cases id with ⟨f, hget⟩ | ⟨b, hfound, hget⟩
  · simp only [hget]
    exact .refused f
  · simp only [hget]
    cases hclosed : b.status.isClosed with
    | true => exact .done (.reopen hfound hclosed)
    | false => exact .refused (.notClosed id)

theorem delete_decided (now : Instant) (s : Store) (id : String) :
    Decided now s (.delete id) (s.perform now (.delete id)) := by
  simp only [perform, delete]
  rcases s.get_cases id with ⟨f, hget⟩ | ⟨b, hfound, hget⟩
  · simp only [hget]
    exact .refused f
  · simp only [hget]
    exact .done (.delete hfound)

theorem addLabel_decided (now : Instant) (s : Store) (id label : String) :
    Decided now s (.addLabel id label) (s.perform now (.addLabel id label)) := by
  simp only [perform, addLabel]
  cases hlabel : checkLabel label with
  | error f => exact .refused f
  | ok kept =>
      rcases s.get_cases id with ⟨f, hget⟩ | ⟨b, hfound, hget⟩
      · simp only [hget]
        exact .refused f
      · simp only [hget]
        by_cases hmem : kept ∈ b.labels
        · rw [if_pos hmem]
          exact .refused (.labelPresent id kept)
        · rw [if_neg hmem]
          have htrimmed : Text.trimmed label = kept := (checkLabel_eq_ok.1 hlabel).1.symm
          simp only [Outcome.map, htrimmed]
          exact .done (.addLabel hlabel hfound hmem)

theorem removeLabel_decided (now : Instant) (s : Store) (id label : String) :
    Decided now s (.removeLabel id label) (s.perform now (.removeLabel id label)) := by
  simp only [perform, removeLabel]
  rcases s.get_cases id with ⟨f, hget⟩ | ⟨b, hfound, hget⟩
  · simp only [hget]
    exact .refused f
  · simp only [hget]
    by_cases hmem : label ∈ b.labels
    · rw [if_pos hmem]
      exact .done (.removeLabel hfound hmem)
    · rw [if_neg hmem]
      exact .refused (.labelAbsent id label)

theorem addDependency_decided (now : Instant) (s : Store) (dependent prerequisite : String)
    (kind : Dependency.Kind) :
    Decided now s (.addDependency dependent prerequisite kind)
      (s.perform now (.addDependency dependent prerequisite kind)) := by
  simp only [perform, addDependency]
  by_cases hne : dependent = prerequisite
  · rw [if_pos hne]
    exact .refused .selfDependency
  · rw [if_neg hne]
    rcases s.get_cases dependent with ⟨f, hget⟩ | ⟨a, hdependent, hget⟩
    · simp only [hget]
      exact .refused f
    · simp only [hget]
      rcases s.get_cases prerequisite with ⟨f, hget⟩ | ⟨b, hprerequisite, hget⟩
      · simp only [hget]
        exact .refused f
      · simp only [hget]
        cases hany : s.dependencies.any (·.joins dependent prerequisite) with
        | true => exact .refused (.dependencyPresent dependent prerequisite)
        | false =>
            cases hcycle : (decide (kind = .blocks) &&
                Graph.reaches s.dependencies prerequisite dependent) with
            | true => exact .refused (.dependencyCycle dependent prerequisite)
            | false =>
                refine .done (.addDependency hne hdependent hprerequisite ?_ ?_)
                · exact List.any_eq_false.1 hany
                · intro hkind
                  simpa [hkind] using hcycle

theorem removeDependency_decided (now : Instant) (s : Store) (dependent prerequisite : String) :
    Decided now s (.removeDependency dependent prerequisite)
      (s.perform now (.removeDependency dependent prerequisite)) := by
  simp only [perform, removeDependency]
  cases hfind : s.dependencies.find? (·.joins dependent prerequisite) with
  | none => exact .refused (.dependencyAbsent dependent prerequisite)
  | some d => exact .done (.removeDependency hfind)

theorem addComment_decided (now : Instant) (s : Store) (id author text : String) :
    Decided now s (.addComment id author text) (s.perform now (.addComment id author text)) := by
  simp only [perform, addComment]
  cases htext : checkComment text with
  | error f => exact .refused f
  | ok kept =>
      rcases s.get_cases id with ⟨f, hget⟩ | ⟨b, hfound, hget⟩
      · simp only [hget]
        exact .refused f
      · simp only [hget]
        exact .done (.addComment htext hfound)

/-! ## All operations -/

/-- An operation is refused and leaves the store as it was, or it has its effect. -/
theorem perform_cases (now : Instant) (s : Store) (op : Operation) :
    Decided now s op (s.perform now op) := by
  cases op with
  | create draft => exact create_decided now s draft
  | update id patch => exact update_decided now s id patch
  | close id reason => exact close_decided now s id reason
  | reopen id => exact reopen_decided now s id
  | delete id => exact delete_decided now s id
  | addLabel id label => exact addLabel_decided now s id label
  | removeLabel id label => exact removeLabel_decided now s id label
  | addDependency dependent prerequisite kind =>
      exact addDependency_decided now s dependent prerequisite kind
  | removeDependency dependent prerequisite =>
      exact removeDependency_decided now s dependent prerequisite
  | addComment id author text => exact addComment_decided now s id author text

/-- An operation that is done has its effect. -/
theorem effect_of_perform {op : Operation} {c : Change} (h : s.perform now op = (.ok c, s')) :
    Effect now s op c s' := by
  rcases s.perform_cases now op with ⟨f, hr⟩ | ⟨c', s'', hr, heff⟩
  · rw [hr] at h
    cases h
  · rw [hr] at h
    cases h
    exact heff

/-- What is answered was done to the store. -/
theorem effect_of_answer {op : Operation} {c : Change} (h : (s.perform now op).1 = .ok c) :
    Effect now s op c (s.step now op) :=
  effect_of_perform (Prod.ext h rfl)

/-- What holds of a refusal, and of the answer and the store after each effect, holds of every
operation. -/
theorem perform_induction {P : Except Fault Change → Store → Prop} (now : Instant) (s : Store)
    (op : Operation) (hrefused : ∀ f, P (.error f) s)
    (heffect : ∀ {c : Change} {s' : Store}, Effect now s op c s' → P (.ok c) s') :
    P (s.perform now op).1 (s.step now op) := by
  unfold step
  rcases s.perform_cases now op with ⟨f, hr⟩ | ⟨c, s', hr, heff⟩
  · rw [hr]
    exact hrefused f
  · rw [hr]
    exact heffect heff

/-- What holds of a store and after each effect on a store where it holds, is kept by an
operation. -/
theorem step_induction {P : Store → Prop} (op : Operation) (hs : P s)
    (heffect : ∀ {c : Change} {s' : Store}, Effect now s op c s' → P s') : P (s.step now op) :=
  perform_induction (P := fun _ s' => P s') now s op (fun _ => hs) heffect

/-- What every operation keeps, every run keeps. -/
theorem run_induction {P : Store → Prop}
    (hstep : ∀ {s : Store} (now : Instant) (op : Operation), P s → P (s.step now op))
    (hs : P s) (ops : List (Instant × Operation)) : P (s.run ops) := by
  induction ops generalizing s with
  | nil => exact hs
  | cons x rest ih => exact ih (hstep x.1 x.2 hs)

end Store

end IssueTracker
