/-
  IssueTracker/Proofs/Store/Permanence.lean --- an identity is given once, and stays with its bead.

  What is new is numbered by a counter that moves on with it and with nothing else (`Numbers`), so
  that the answers of a run are numbered without gaps (`names_of_answers`).  A bead that was
  deleted has a number that was given and is not there (`Retired`).  No effect brings it back,
  and whatever names it is refused.
-/
import IssueTracker.Proofs.Store.Atomicity
import IssueTracker.Proofs.Store.Integrity
import IssueTracker.Proofs.Store.Payload
import IssueTracker.Proofs.Store.WellFormed

set_option autoImplicit false

namespace IssueTracker

namespace Store

variable {now : Instant} {s s' : Store} {op : Operation} {c : Change} {id : String} {b : Bead}

/-! ## Numbers -/

/-- The bead that an answer tells of as new. -/
def created? : Except Fault Change → Option Bead
  | .ok (.created b) => some b
  | _ => none

/-- The comment that an answer tells of as new. -/
def commented? : Except Fault Change → Option Comment
  | .ok (.commentAdded c) => some c
  | _ => none

/-- The beads that operations create, in their order. -/
def creations (s : Store) (ops : List (Instant × Operation)) : List Bead :=
  (s.answers ops).filterMap created?

/-- The comments that operations make, in their order. -/
def remarks (s : Store) (ops : List (Instant × Operation)) : List Comment :=
  (s.answers ops).filterMap commented?

/-- An answer has something new, which is named by the next number, and the counter goes on by one;
or it has nothing new, and the counter stays. -/
def Numbers {α κ : Type} (new? : Except Fault Change → Option α) (key : α → κ) (name : Nat → κ)
    (before : Nat) (answer : Except Fault Change) (after : Nat) : Prop :=
  (∃ a, new? answer = some a ∧ key a = name (before + 1) ∧ after = before + 1) ∨
    new? answer = none ∧ after = before

/-- What is new in the answers of a run is named by consecutive numbers. -/
theorem names_of_answers {α κ : Type} {new? : Except Fault Change → Option α} {key : α → κ}
    {name : Nat → κ} {count : Store → Nat}
    (hstep : ∀ (s : Store) (now : Instant) (op : Operation),
      Numbers new? key name (count s) (s.perform now op).1 (count (s.step now op)))
    (s : Store) (ops : List (Instant × Operation)) :
    ((s.answers ops).filterMap new?).map key =
      (List.range' (count s + 1) ((s.answers ops).filterMap new?).length).map name := by
  induction ops generalizing s with
  | nil => rfl
  | cons x rest ih =>
      obtain ⟨now, op⟩ := x
      have hrest := ih (s.step now op)
      rw [answers]
      rcases hstep s now op with ⟨a, hnew, hname, hcount⟩ | ⟨hnone, hcount⟩
      · rw [hcount] at hrest
        rw [List.filterMap_cons_some hnew, List.map_cons, List.length_cons, List.range'_succ,
          List.map_cons, hname, hrest]
      · rw [hcount] at hrest
        rw [List.filterMap_cons_none hnone, hrest]

theorem numbers_created (s : Store) (now : Instant) (op : Operation) :
    Numbers created? (·.id) beadId s.created (s.perform now op).1 (s.step now op).created := by
  refine perform_induction (P := fun r s' => Numbers created? (·.id) beadId s.created r s'.created)
    now s op (fun f => Or.inr ⟨rfl, rfl⟩) fun heffect => ?_
  cases heffect with
  | create _ _ _ => exact Or.inl ⟨_, rfl, rfl, rfl⟩
  | _ => exact Or.inr ⟨rfl, rfl⟩

theorem numbers_commented (s : Store) (now : Instant) (op : Operation) :
    Numbers commented? (·.id) (fun n => n) s.commented (s.perform now op).1
      (s.step now op).commented := by
  refine perform_induction
    (P := fun r s' => Numbers commented? (·.id) (fun n => n) s.commented r s'.commented) now s op
    (fun f => Or.inr ⟨rfl, rfl⟩) fun heffect => ?_
  cases heffect with
  | addComment _ _ => exact Or.inl ⟨_, rfl, rfl, rfl⟩
  | _ => exact Or.inr ⟨rfl, rfl⟩

/-! ## Beads that are not there -/

/-- Does the operation name the bead of an identity? -/
def Operation.Names (id : String) : Operation → Prop
  | create _ => False
  | update other _ | close other _ | reopen other | delete other => other = id
  | addLabel other _ | removeLabel other _ | addComment other _ _ => other = id
  | addDependency dependent prerequisite _ | removeDependency dependent prerequisite =>
      dependent = id ∨ prerequisite = id

/-- No edge is at a bead that is not there. -/
theorem Sound.touches_eq_false (h : Sound s) (habsent : id ∉ s.ids) {d : Dependency}
    (hd : d ∈ s.dependencies) : d.touches id = false := by
  obtain ⟨hfrom, hto⟩ := h.endpoints d hd
  rw [Bool.eq_false_iff, ne_eq, Dependency.touches_iff]
  rintro (rfl | rfl)
  · exact habsent hfrom
  · exact habsent hto

/-- An operation that has an effect names only beads that are there. -/
theorem mem_ids_of_names (h : Sound s) (heffect : Effect now s op c s') (hnames : op.Names id) :
    id ∈ s.ids := by
  cases heffect with
  | create _ _ _ => exact hnames.elim
  | update _ _ hget _ => exact hnames ▸ exists_get?_iff.1 ⟨_, hget⟩
  | close hget _ => exact hnames ▸ exists_get?_iff.1 ⟨_, hget⟩
  | reopen hget _ => exact hnames ▸ exists_get?_iff.1 ⟨_, hget⟩
  | delete hget => exact hnames ▸ exists_get?_iff.1 ⟨_, hget⟩
  | addLabel _ hget _ => exact hnames ▸ exists_get?_iff.1 ⟨_, hget⟩
  | removeLabel hget _ => exact hnames ▸ exists_get?_iff.1 ⟨_, hget⟩
  | addDependency _ hdependent hprerequisite _ _ =>
      rcases hnames with rfl | rfl
      · exact exists_get?_iff.1 ⟨_, hdependent⟩
      · exact exists_get?_iff.1 ⟨_, hprerequisite⟩
  | removeDependency hfind =>
      obtain ⟨hfrom, hto⟩ := Dependency.joins_iff.1 (List.find?_some hfind)
      have hends := h.endpoints _ (List.mem_of_find?_eq_some hfind)
      rcases hnames with rfl | rfl
      · exact hfrom ▸ hends.1
      · exact hto ▸ hends.2
  | addComment _ hget => exact hnames ▸ exists_get?_iff.1 ⟨_, hget⟩

/-- What names a bead that is not there is refused. -/
theorem refused_of_names (h : Sound s) (habsent : id ∉ s.ids) (hnames : op.Names id) :
    ∃ f, (s.perform now op).1 = .error f :=
  perform_induction (P := fun r _ => ∃ f, r = .error f) now s op (fun f => ⟨f, rfl⟩)
    fun heffect => absurd (mem_ids_of_names h heffect hnames) habsent

/-! ## Beads that are gone -/

/-- The identity was given, and its bead is not there any more. -/
structure Retired (id : String) (s : Store) : Prop where
  given : ∃ n ≤ s.created, id = beadId n
  absent : id ∉ s.ids

namespace Retired

theorem of_same (h : Retired id s) (hcreated : s'.created = s.created) (hids : s'.ids = s.ids) :
    Retired id s' where
  given := hcreated ▸ h.given
  absent := hids ▸ h.absent

/-- No effect brings the bead back: the next bead has a number that was not given. -/
theorem effect (h : Retired id s) (heffect : Effect now s op c s') : Retired id s' := by
  cases heffect with
  | create _ _ _ =>
      obtain ⟨n, hn, hid⟩ := h.given
      refine ⟨⟨n, Nat.le_succ_of_le hn, hid⟩, ?_⟩
      simp only [ids, List.map_append, List.mem_append, not_or]
      refine ⟨h.absent, fun hnew => ?_⟩
      have hnext : id = beadId (s.created + 1) := List.mem_singleton.1 hnew
      have hsame : n = s.created + 1 := beadId_injective (hid.symm.trans hnext)
      omega
  | update _ _ _ _ => exact h.of_same rfl (ids_put _ s)
  | close _ _ => exact h.of_same rfl (ids_put _ s)
  | reopen _ _ => exact h.of_same rfl (ids_put _ s)
  | delete _ => exact ⟨h.given, fun hmem => h.absent (mem_ids_forget.1 hmem).1⟩
  | addLabel _ _ _ => exact h.of_same rfl (ids_put _ s)
  | removeLabel _ _ => exact h.of_same rfl (ids_put _ s)
  | addDependency _ _ _ _ _ => exact h.of_same rfl rfl
  | removeDependency _ => exact h.of_same rfl rfl
  | addComment _ _ => exact h.of_same rfl rfl

theorem step (h : Retired id s) (now : Instant) (op : Operation) : Retired id (s.step now op) :=
  step_induction op h h.effect

theorem run (h : Retired id s) (ops : List (Instant × Operation)) : Retired id (s.run ops) :=
  run_induction (fun now op hs => hs.step now op) h ops

/-- A bead that is deleted is gone. -/
theorem of_delete (h : Numbered s) (hdelete : Effect now s (.delete id) c s') : Retired id s' := by
  cases hdelete with
  | delete hget =>
      obtain ⟨n, hn, hid⟩ := h.issued id (exists_get?_iff.1 ⟨_, hget⟩)
      exact ⟨⟨n, hn, hid⟩, fun hmem => (mem_ids_forget.1 hmem).2 rfl⟩

end Retired

/-- A new bead is not there before, no edge and no comment speaks of it, and it has the labels that
are asked for. -/
theorem new_of_create (hsound : Sound s) (hnumbered : Numbered s) (hformed : WellFormed s)
    {draft : Draft} (hcreate : Effect now s (.create draft) (.created b) s') :
    b.id ∉ s.ids ∧ s'.get? b.id = some b ∧ (∀ d ∈ s'.dependencies, d.touches b.id = false) ∧
      (∀ c ∈ s'.comments, c.beadId ≠ b.id) ∧
      ∀ l, l ∈ b.labels ↔ ∃ given ∈ draft.labels, Text.trimmed given = l := by
  have hnumbered' := hnumbered.effect hcreate
  cases hcreate with
  | create _ _ hlabels =>
      have hnew := hnumbered.next_not_mem
      refine ⟨hnew, ?_, fun d => hsound.touches_eq_false hnew, fun c hc hid => ?_, fun l => ?_⟩
      · exact hnumbered'.get?_eq_some_iff.2
          ⟨List.mem_append_right _ (List.mem_singleton_self _), rfl⟩
      · have howner : c.beadId ∈ s.ids := hformed.owners c hc
        rw [hid] at howner
        exact hnew howner
      · rw [drafted, Labels.mem_ofList, (mem_of_checkLabels hlabels).1, List.mem_map]

/-- The beads that a run creates are named by consecutive numbers and so are its comments, whatever
else is done and whatever is refused.  A new bead has an identity that no bead, no edge and no
comment has, and no labels but those that are asked for.  A bead that was deleted never comes
back: whatever is done later, it is not found, no edge and no comment speaks of it, and everything
that names it is refused. -/
theorem identities_are_never_reused (ops : List (Instant × Operation)) :
    let s := empty.run ops
    (empty.creations ops).map (·.id) =
      (List.range' 1 (empty.creations ops).length).map (fun n => "bd-" ++ Text.decimal n) ∧
    ((empty.creations ops).map (·.id)).Nodup ∧
    (empty.remarks ops).map (·.id) = List.range' 1 (empty.remarks ops).length ∧
    (∀ now draft b, (s.perform now (.create draft)).1 = .ok (.created b) →
      let s' := s.step now (.create draft)
      s.get? b.id = none ∧ s'.get? b.id = some b ∧
        (∀ d ∈ s'.dependencies, d.touches b.id = false) ∧ (∀ c ∈ s'.comments, c.beadId ≠ b.id) ∧
        ∀ l, l ∈ b.labels ↔ ∃ given ∈ draft.labels, Text.trimmed given = l) ∧
    ∀ now id c, (s.perform now (.delete id)).1 = .ok c → ∀ later,
      let t := (s.step now (.delete id)).run later
      t.get? id = none ∧ (∀ d ∈ t.dependencies, d.touches id = false) ∧
        (∀ c ∈ t.comments, c.beadId ≠ id) ∧
        (∀ now op, op.Names id → ∃ f, (t.perform now op).1 = .error f) ∧
        t.detail id = .error (.beadNotFound id) ∧ t.edges id = .error (.beadNotFound id) ∧
        t.commentList id = .error (.beadNotFound id) := by
  intro s
  have hnumbered : Numbered s := Numbered.empty.run ops
  have hsound : Sound s := Sound.empty.run ops
  have hformed : WellFormed s := WellFormed.empty.run ops
  have hids : (empty.creations ops).map (·.id) =
      (List.range' 1 (empty.creations ops).length).map beadId :=
    names_of_answers numbers_created empty ops
  refine ⟨hids, ?_, ?_, ?_, ?_⟩
  · rw [hids]
    exact List.Nodup.map (fun _ _ => beadId_injective) List.nodup_range'
  · exact (names_of_answers numbers_commented empty ops).trans (List.map_id' _)
  · intro now draft b hcreate s'
    obtain ⟨hnew, hrest⟩ := new_of_create hsound hnumbered hformed (effect_of_answer hcreate)
    exact ⟨get?_eq_none_iff.2 hnew, hrest⟩
  · intro now id c hdelete later t
    have hgone : Retired id t := (Retired.of_delete hnumbered (effect_of_answer hdelete)).run later
    have hsound' : Sound t := (hsound.step now _).run later
    have hformed' : WellFormed t := (hformed.step now _).run later
    have hget : t.get id = .error (.beadNotFound id) := by
      rw [get, get?_eq_none_iff.2 hgone.absent]
    refine ⟨get?_eq_none_iff.2 hgone.absent, fun d => hsound'.touches_eq_false hgone.absent,
      fun c hc hid => hgone.absent (hid ▸ hformed'.owners c hc),
      fun now op => refused_of_names hsound' hgone.absent, ?_, ?_, ?_⟩
    · rw [detail, hget]
    · rw [edges, hget]
    · rw [commentList, hget]

/-- The first of two beads is deleted, with the edge and the comment on it.  The next bead is the
third one, and no edge can be put between it and the first. -/
theorem first_bead_stays_away :
    let t : Instant := ⟨0, 0⟩
    let draft : Draft := ⟨"work", "", 2, .task, none, [" x "]⟩
    let bead : Bead := drafted t 1 "work" 2 ["x"] draft
    let ops : List (Instant × Operation) :=
      [(t, .create draft), (t, .create { draft with title := " " }), (t, .create draft),
        (t, .addDependency "bd-2" "bd-1" .blocks), (t, .addComment "bd-1" "eve" "hi")]
    let s := empty.run ops
    let later : List (Instant × Operation) :=
      [(t, .create draft), (t, .addComment "bd-3" "eve" "hi")]
    let u := (s.step t (.delete "bd-1")).run later
    (empty.creations ops).map (·.id) = ["bd-1", "bd-2"] ∧
      (s.perform t (.delete "bd-1")).1 = .ok (.deleted bead) ∧
      u.ids = ["bd-2", "bd-3"] ∧ u.get? "bd-1" = none ∧
      (∃ f, (u.perform t (.addDependency "bd-3" "bd-1" .related)).1 = .error f) ∧
      u.detail "bd-1" = .error (.beadNotFound "bd-1") := by
  intro t draft bead ops s later u
  have hdelete : (s.perform t (.delete "bd-1")).1 = .ok (.deleted bead) := by decide +kernel
  obtain ⟨-, -, -, -, hgone⟩ := identities_are_never_reused ops
  obtain ⟨hget, -, -, hrefused, hdetail, -⟩ := hgone t "bd-1" (.deleted bead) hdelete later
  exact ⟨by decide +kernel, hdelete, by decide +kernel, hget, hrefused t _ (Or.inr rfl), hdetail⟩

end Store

end IssueTracker
