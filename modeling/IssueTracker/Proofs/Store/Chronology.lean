/-
  IssueTracker/Proofs/Store/Chronology.lean --- the times of the records.

  `readings` are the readings of the clock that a run makes.  If they never go back, each of them
  is at or after every time that is on a bead, so that a bead is created before it is changed and
  closed, and its edges and comments are no older than the bead (`Dated`).  `Dated.effect` is the
  step of this, `Dated.run` the run.
-/
import IssueTracker.Proofs.Store.Atomicity
import IssueTracker.Proofs.Store.Integrity
import IssueTracker.Proofs.Store.WellFormed

set_option autoImplicit false

namespace IssueTracker

variable {now : Instant}

/-! ## Beads -/

namespace Bead

variable {b b' : Bead}

/-- The times of a bead follow each other. -/
structure Dated (b : Bead) : Prop where
  created : b.createdAt.notAfter b.updatedAt
  closed : ∀ t, b.closedAt = some t → b.createdAt.notAfter t ∧ t.notAfter b.updatedAt

/-- The one bead is the other after a change. -/
structure Succeeds (now : Instant) (b b' : Bead) : Prop where
  id_eq : b'.id = b.id
  createdAt_eq : b'.createdAt = b.createdAt
  updatedAt_eq : b'.updatedAt = now
  closedAt_or : ∀ t, b'.closedAt = some t → b.closedAt = some t ∨ t = now

/-- A change that comes no earlier than the one before keeps the order of the times. -/
theorem Dated.succeed (h : b.Dated) (hnext : Succeeds now b b')
    (hclock : b.updatedAt.notAfter now) : b'.Dated := by
  have hcreated : b.createdAt.notAfter now := Instant.notAfter_trans h.created hclock
  constructor
  · rw [hnext.createdAt_eq, hnext.updatedAt_eq]
    exact hcreated
  · intro t ht
    rw [hnext.createdAt_eq, hnext.updatedAt_eq]
    rcases hnext.closedAt_or t ht with hold | rfl
    · exact ⟨(h.closed t hold).1, Instant.notAfter_trans (h.closed t hold).2 hclock⟩
    · exact ⟨hcreated, Instant.notAfter_refl _⟩

end Bead

namespace Store

open Bead (Succeeds)

variable {s s' : Store} {op : Operation} {c : Change} {id : String} {b b' : Bead}

theorem dated_drafted (now : Instant) (n : Nat) (title : String) (priority : Nat)
    (labels : List String) (draft : Draft) : (drafted now n title priority labels draft).Dated where
  created := Instant.notAfter_refl now
  closed _ ht := nomatch ht

theorem succeeds_patched (title : Option String) (priority : Option Nat) (patch : Patch)
    (b : Bead) : Succeeds now b (patched now title priority patch b) :=
  ⟨rfl, rfl, rfl, fun _ => Or.inl⟩

theorem succeeds_shut (reason : Option String) (b : Bead) : Succeeds now b (shut now reason b) :=
  ⟨rfl, rfl, rfl, fun _ ht => Or.inr (Option.some.inj ht).symm⟩

theorem succeeds_reopened (b : Bead) : Succeeds now b (reopened now b) :=
  ⟨rfl, rfl, rfl, fun _ ht => nomatch ht⟩

theorem succeeds_labelled (label : String) (b : Bead) : Succeeds now b (labelled now label b) :=
  ⟨rfl, rfl, rfl, fun _ => Or.inl⟩

theorem succeeds_unlabelled (label : String) (b : Bead) :
    Succeeds now b (unlabelled now label b) :=
  ⟨rfl, rfl, rfl, fun _ => Or.inl⟩

/-! ## Stores -/

/-- The times of the beads follow each other, and edges and comments are no older than the beads
that they are on. -/
structure Dated (s : Store) : Prop where
  beads : ∀ b ∈ s.beads, b.Dated
  dependencies : ∀ d ∈ s.dependencies, ∀ b ∈ s.beads, d.touches b.id = true →
    b.createdAt.notAfter d.createdAt
  comments : ∀ c ∈ s.comments, ∀ b ∈ s.beads, b.id = c.beadId → b.createdAt.notAfter c.createdAt

/-- No bead was changed after the instant. -/
def Quiet (s : Store) (t : Instant) : Prop := ∀ b ∈ s.beads, b.updatedAt.notAfter t

/-- What was created was created before the bead is changed next. -/
theorem Dated.created (h : Dated s) (hclock : s.Quiet now) (hb : b ∈ s.beads) :
    b.createdAt.notAfter now :=
  Instant.notAfter_trans (h.beads b hb).created (hclock b hb)

namespace Dated

theorem empty : Dated Store.empty where
  beads _ hb := absurd hb List.not_mem_nil
  dependencies _ hd := absurd hd List.not_mem_nil
  comments _ hc := absurd hc List.not_mem_nil

/-- No edge and no comment is on a bead whose identity is new. -/
theorem create (h : Dated s) (hsound : Sound s) (hformed : WellFormed s) (hnew : b.id ∉ s.ids)
    (hb : b.Dated) (n : Nat) : Dated { s with created := n, beads := s.beads ++ [b] } where
  beads x hx := by
    rcases List.mem_append.1 hx with hx | hx
    · exact h.beads x hx
    · rw [List.mem_singleton.1 hx]
      exact hb
  dependencies d hd x hx htouches := by
    rcases List.mem_append.1 hx with hx | hx
    · exact h.dependencies d hd x hx htouches
    · rw [List.mem_singleton.1 hx, Dependency.touches_iff] at htouches
      obtain ⟨hfrom, hto⟩ := hsound.endpoints d hd
      rcases htouches with hid | hid
      · exact absurd (hid ▸ hfrom) hnew
      · exact absurd (hid ▸ hto) hnew
  comments c hc x hx hid := by
    rcases List.mem_append.1 hx with hx | hx
    · exact h.comments c hc x hx hid
    · rw [List.mem_singleton.1 hx] at hid
      exact absurd (hid ▸ hformed.owners c hc) hnew

/-- A bead that was changed has the edges, the comments and the time of creation that it had. -/
theorem put (h : Dated s) (hclock : s.Quiet now) (hget : s.get? id = some b)
    (hnext : Succeeds now b b') : Dated (s.put b') := by
  obtain ⟨hb, -⟩ := mem_beads_of_get? hget
  refine ⟨fun x hx => ?_, fun d hd x hx htouches => ?_, fun c hc x hx hid => ?_⟩
  · rcases mem_put hx with rfl | hx
    · exact (h.beads b hb).succeed hnext (hclock b hb)
    · exact h.beads x hx
  · rcases mem_put hx with rfl | hx
    · rw [hnext.id_eq] at htouches
      rw [hnext.createdAt_eq]
      exact h.dependencies d hd b hb htouches
    · exact h.dependencies d hd x hx htouches
  · rcases mem_put hx with rfl | hx
    · rw [hnext.id_eq] at hid
      rw [hnext.createdAt_eq]
      exact h.comments c hc b hb hid
    · exact h.comments c hc x hx hid

/-- What is left keeps its times. -/
theorem of_subset (h : Dated s) (hbeads : s'.beads ⊆ s.beads)
    (hdependencies : s'.dependencies ⊆ s.dependencies) (hcomments : s'.comments ⊆ s.comments) :
    Dated s' where
  beads b hb := h.beads b (hbeads hb)
  dependencies d hd b hb := h.dependencies d (hdependencies hd) b (hbeads hb)
  comments c hc b hb := h.comments c (hcomments hc) b (hbeads hb)

theorem join (h : Dated s) (hclock : s.Quiet now) {d : Dependency} (hd : d.createdAt = now) :
    Dated { s with dependencies := s.dependencies ++ [d] } where
  beads := h.beads
  dependencies e he b hb htouches := by
    rcases List.mem_append.1 he with he | he
    · exact h.dependencies e he b hb htouches
    · rw [List.mem_singleton.1 he, hd]
      exact h.created hclock hb
  comments := h.comments

theorem comment (h : Dated s) (hclock : s.Quiet now) {c : Comment} (hc : c.createdAt = now)
    (n : Nat) : Dated { s with commented := n, comments := s.comments ++ [c] } where
  beads := h.beads
  dependencies := h.dependencies
  comments e he b hb hid := by
    rcases List.mem_append.1 he with he | he
    · exact h.comments e he b hb hid
    · rw [List.mem_singleton.1 he, hc]
      exact h.created hclock hb

end Dated

/-! ## Effects -/

/-- Does the operation look at the clock?  To remove something takes no time of day. -/
def Operation.isTimed : Operation → Bool
  | delete _ | removeDependency _ _ => false
  | _ => true

/-- Each effect keeps the times in order, if it comes no earlier than the changes before. -/
theorem Dated.effect (h : Dated s) (hsound : Sound s) (hnumbered : Numbered s)
    (hformed : WellFormed s) (heffect : Effect now s op c s')
    (hclock : op.isTimed = true → s.Quiet now) : Dated s' := by
  cases heffect with
  | create _ _ _ =>
      exact h.create hsound hformed hnumbered.next_not_mem (dated_drafted _ _ _ _ _ _) _
  | update _ _ hget _ => exact h.put (hclock rfl) hget (succeeds_patched _ _ _ _)
  | close hget _ => exact h.put (hclock rfl) hget (succeeds_shut _ _)
  | reopen hget _ => exact h.put (hclock rfl) hget (succeeds_reopened _)
  | delete _ =>
      exact h.of_subset List.filter_sublist.subset List.filter_sublist.subset
        List.filter_sublist.subset
  | addLabel _ hget _ => exact h.put (hclock rfl) hget (succeeds_labelled _ _)
  | removeLabel hget _ => exact h.put (hclock rfl) hget (succeeds_unlabelled _ _)
  | addDependency _ _ _ _ _ => exact h.join (hclock rfl) rfl
  | removeDependency _ =>
      exact h.of_subset (List.Subset.refl _) (fun _ => List.mem_of_mem_eraseP)
        (List.Subset.refl _)
  | addComment _ _ => exact h.comment (hclock rfl) rfl _

/-- A bead is as it was, or it is new, or it is one that was there after a change. -/
theorem origin_of_effect (heffect : Effect now s op c s') (hb : b ∈ s'.beads) :
    b ∈ s.beads ∨ op.isTimed = true ∧
      (c = .created b ∧ b.updatedAt = now ∨ ∃ x ∈ s.beads, Succeeds now x b) := by
  have hput : ∀ {id : String} {x x' : Bead} {isNew : Prop}, s.get? id = some x →
      Succeeds now x x' → b ∈ (s.put x').beads →
        b ∈ s.beads ∨ true = true ∧ (isNew ∨ ∃ x ∈ s.beads, Succeeds now x b) := by
    intro id x x' isNew hget hnext hb
    rcases mem_put hb with rfl | hb
    · exact Or.inr ⟨rfl, Or.inr ⟨x, (mem_beads_of_get? hget).1, hnext⟩⟩
    · exact Or.inl hb
  cases heffect with
  | create _ _ _ =>
      rcases List.mem_append.1 hb with hb | hb
      · exact Or.inl hb
      · rw [List.mem_singleton.1 hb]
        exact Or.inr ⟨rfl, Or.inl ⟨rfl, rfl⟩⟩
  | update _ _ hget _ => exact hput hget (succeeds_patched _ _ _ _) hb
  | close hget _ => exact hput hget (succeeds_shut _ _) hb
  | reopen hget _ => exact hput hget (succeeds_reopened _) hb
  | delete _ => exact Or.inl (List.mem_filter.1 hb).1
  | addLabel _ hget _ => exact hput hget (succeeds_labelled _ _) hb
  | removeLabel hget _ => exact hput hget (succeeds_unlabelled _ _) hb
  | addDependency _ _ _ _ _ => exact Or.inl hb
  | removeDependency _ => exact Or.inl hb
  | addComment _ _ => exact Or.inl hb

/-- A bead is as it was, or it has the time of the operation. -/
theorem mem_beads_of_effect (heffect : Effect now s op c s') (hb : b ∈ s'.beads) :
    b ∈ s.beads ∨ op.isTimed = true ∧ b.updatedAt = now := by
  rcases origin_of_effect heffect hb with hold | ⟨htimed, ⟨-, hnow⟩ | ⟨x, -, hnext⟩⟩
  · exact Or.inl hold
  · exact Or.inr ⟨htimed, hnow⟩
  · exact Or.inr ⟨htimed, hnext.updatedAt_eq⟩

/-! ## Runs -/

/-- The reading of the clock that an operation makes.  What is refused is refused before the clock
is looked at. -/
def reading? (s : Store) (now : Instant) (op : Operation) : Option Instant :=
  if op.isTimed && (s.perform now op).1.isOk then some now else none

/-- The readings of the clock that a run makes. -/
def readings (s : Store) : List (Instant × Operation) → List Instant
  | [] => []
  | (now, op) :: rest => (s.reading? now op).toList ++ (s.step now op).readings rest

/-- An operation does nothing, or it has an effect and makes the reading that it is to make. -/
theorem step_cases (s : Store) (now : Instant) (op : Operation) :
    s.step now op = s ∨ ∃ c, Effect now s op c (s.step now op) ∧
      (op.isTimed = true → s.reading? now op = some now) := by
  rcases s.perform_cases now op with ⟨f, hrefused⟩ | ⟨c, s', hdone, heffect⟩
  · exact Or.inl (step_of_refused (congrArg Prod.fst hrefused))
  · refine Or.inr ⟨c, ?_, fun htimed => ?_⟩
    · rw [Store.step, hdone]
      exact heffect
    · rw [reading?, hdone, htimed]
      rfl

/-- An operation keeps the times in order, if the clock did not go back since the last change. -/
theorem Dated.step (h : Dated s) (hsound : Sound s) (hnumbered : Numbered s)
    (hformed : WellFormed s) (hclock : ∀ t, s.reading? now op = some t → s.Quiet t) :
    Dated (s.step now op) := by
  rcases s.step_cases now op with hsame | ⟨c, heffect, hreading⟩
  · rw [hsame]
    exact h
  · exact h.effect hsound hnumbered hformed heffect fun htimed => hclock now (hreading htimed)

/-- A bead is not changed after an instant, if it was not before and the clock does not show a
later one. -/
theorem Quiet.step {t : Instant} (h : s.Quiet t)
    (hclock : ∀ r, s.reading? now op = some r → r.notAfter t) : (s.step now op).Quiet t := by
  rcases s.step_cases now op with hsame | ⟨c, heffect, hreading⟩
  · rw [hsame]
    exact h
  · intro b hb
    rcases mem_beads_of_effect heffect hb with hold | ⟨htimed, hnow⟩
    · exact h b hold
    · rw [hnow]
      exact hclock now (hreading htimed)

/-- A clock that never goes back, and did not go back since the last change, keeps the times in
order. -/
theorem Dated.run (h : Dated s) (hsound : Sound s) (hnumbered : Numbered s)
    (hformed : WellFormed s) {ops : List (Instant × Operation)}
    (hsince : ∀ t ∈ s.readings ops, s.Quiet t)
    (hclock : (s.readings ops).Pairwise fun t u => t.notAfter u) : Dated (s.run ops) := by
  induction ops generalizing s with
  | nil => exact h
  | cons x rest ih =>
      obtain ⟨now, op⟩ := x
      obtain ⟨-, hlater, hnext⟩ := List.pairwise_append.1 hclock
      have hdated : Dated (s.step now op) := h.step hsound hnumbered hformed fun t ht =>
        hsince t (List.mem_append_left _ (Option.mem_toList.2 ht))
      refine ih hdated (hsound.step now op) (hnumbered.step now op) (hformed.step now op) ?_ hlater
      intro t ht
      refine (hsince t (List.mem_append_right _ ht)).step fun r hr => ?_
      exact hnext r (Option.mem_toList.2 hr) t ht

/-- After any operations, refused or not, the beads are found under their own identities, and
every bead and every comment is well formed: titles and comments are trimmed and not empty, a
priority is at most 4, a label has 1 to 64 bytes and no blank, a time of closing is there exactly
for the closed beads and a reason for none but them, and each comment has its bead and a greater
number than those before it.

If the clock never goes back, then no bead is changed or closed before it is created, none is
closed after its last change, and no edge and no comment is older than a bead that it is on. -/
theorem records_stay_well_formed (ops : List (Instant × Operation)) :
    let s := empty.run ops
    (∀ id b, s.get? id = some b ↔ b ∈ s.beads ∧ b.id = id) ∧
    (∀ b ∈ s.beads, b.title ≠ "" ∧ Text.trimmed b.title = b.title ∧ b.priority ≤ 4 ∧
      (∀ l ∈ b.labels, l ≠ "" ∧ (∀ x ∈ l.toList, Text.isBlank x = false) ∧ l.utf8ByteSize ≤ 64) ∧
      (b.closedAt.isSome = true ↔ b.status = .closed) ∧
      (b.status ≠ .closed → b.closeReason = none)) ∧
    (∀ c ∈ s.comments, (∃ b, s.get? c.beadId = some b) ∧ c.text ≠ "" ∧
      Text.trimmed c.text = c.text) ∧
    s.comments.Pairwise (·.id < ·.id) ∧
    ((empty.readings ops).Pairwise (fun t u => t.notAfter u) →
      (∀ b ∈ s.beads, b.createdAt.notAfter b.updatedAt ∧
        ∀ t, b.closedAt = some t → b.createdAt.notAfter t ∧ t.notAfter b.updatedAt) ∧
      (∀ d ∈ s.dependencies, ∀ b ∈ s.beads, d.touches b.id = true →
        b.createdAt.notAfter d.createdAt) ∧
      ∀ c ∈ s.comments, ∀ b ∈ s.beads, b.id = c.beadId →
        b.createdAt.notAfter c.createdAt) := by
  intro s
  have hnumbered : Numbered s := Numbered.empty.run ops
  have hformed : WellFormed s := WellFormed.empty.run ops
  refine ⟨fun id b => hnumbered.get?_eq_some_iff, fun b hb => ?_, fun c hc => ?_,
    hformed.ascending, fun hclock => ?_⟩
  · have h := hformed.beads b hb
    refine ⟨h.title_ne, h.title_trimmed, h.priority_le, fun l hl => ?_, h.closedAt_iff,
      h.closeReason_eq⟩
    exact isLabel_iff.1 (h.labels l hl)
  · obtain ⟨htrimmed, hne⟩ := hformed.texts c hc
    exact ⟨exists_get?_iff.2 (hformed.owners c hc), hne, htrimmed⟩
  · have hdated : Dated s := Dated.empty.run .empty .empty .empty
      (fun _ _ b hb => absurd hb List.not_mem_nil) hclock
    exact ⟨fun b hb => ⟨(hdated.beads b hb).created, (hdated.beads b hb).closed⟩,
      hdated.dependencies, hdated.comments⟩

/-- A clock that stood at zero when an operation was refused and when an edge was removed did not
go back: those two do not look at it.  The closed bead has its times in order, and so has the edge
that is left. -/
theorem times_of_a_closed_bead :
    let draft : Draft := ⟨" work ", "", 2, .task, none, [" x "]⟩
    let ops : List (Instant × Operation) :=
      [(⟨1, 0⟩, .create draft), (⟨2, 0⟩, .create draft), (⟨0, 0⟩, .reopen "bd-1"),
        (⟨2, 0⟩, .addDependency "bd-1" "bd-2" .blocks), (⟨3, 5⟩, .close "bd-1" none),
        (⟨0, 0⟩, .removeDependency "bd-1" "bd-2"), (⟨4, 0⟩, .addDependency "bd-2" "bd-1" .blocks),
        (⟨5, 0⟩, .addComment "bd-1" "eve" " hi "), (⟨6, 0⟩, .addLabel "bd-1" "y")]
    let s := empty.run ops
    empty.readings ops = [⟨1, 0⟩, ⟨2, 0⟩, ⟨2, 0⟩, ⟨3, 5⟩, ⟨4, 0⟩, ⟨5, 0⟩, ⟨6, 0⟩] ∧
      s.beads.map (·.closedAt) = [some ⟨3, 5⟩, none] ∧
      (∀ b ∈ s.beads, ∀ t, b.closedAt = some t →
        b.createdAt.notAfter t ∧ t.notAfter b.updatedAt) ∧
      ∀ d ∈ s.dependencies, ∀ b ∈ s.beads, d.touches b.id = true →
        b.createdAt.notAfter d.createdAt := by
  intro draft ops s
  have hreadings : empty.readings ops =
      [⟨1, 0⟩, ⟨2, 0⟩, ⟨2, 0⟩, ⟨3, 5⟩, ⟨4, 0⟩, ⟨5, 0⟩, ⟨6, 0⟩] := by
    decide +kernel
  have hclock : (empty.readings ops).Pairwise fun t u => t.notAfter u := by
    rw [hreadings]
    decide
  obtain ⟨-, -, -, -, hdated⟩ := records_stay_well_formed ops
  obtain ⟨hbeads, hdependencies, -⟩ := hdated hclock
  exact ⟨hreadings, by decide +kernel, fun b hb => (hbeads b hb).2, hdependencies⟩

end Store

end IssueTracker
