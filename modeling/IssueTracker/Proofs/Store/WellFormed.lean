/-
  IssueTracker/Proofs/Store/WellFormed.lean --- the records of every store that can come about.

  `Bead.WellFormed` is what the store keeps of one bead: its title is trimmed, its priority and
  its labels are accepted ones, and it has a time of closing exactly if it is closed.  Whatever an
  operation makes of a bead is well formed again, so that `Store.WellFormed`, which says the same
  of all beads and comments, is kept by each effect and hence by each run.
-/
import IssueTracker.Proofs.Store.Contents
import IssueTracker.Proofs.Store.Identity
import IssueTracker.Proofs.Text.Trim

set_option autoImplicit false

namespace IssueTracker

open Store (checkGiven checkTitle checkTitle_eq_ok checkPriority checkPriority_eq_ok checkLabel
  checkLabel_eq_ok checkLabels checkComment checkComment_eq_ok changesClosedness
  exists_of_checkGiven isLabel)

variable {now : Instant}

/-! ## Beads -/

/-- A bead as the store keeps it. -/
structure Bead.WellFormed (b : Bead) : Prop where
  title_trimmed : Text.trimmed b.title = b.title
  title_ne : b.title ≠ ""
  priority_le : b.priority ≤ greatestPriority
  labels : ∀ l ∈ b.labels, isLabel l = true
  closedAt_iff : b.closedAt.isSome = true ↔ b.status = .closed
  closeReason_eq : b.status ≠ .closed → b.closeReason = none

/-- What is accepted as a title, trimmed. -/
theorem Store.trimmed_of_checkTitle {title kept : String} (h : checkTitle title = .ok kept) :
    Text.trimmed kept = kept ∧ kept ≠ "" := by
  obtain ⟨rfl, hne⟩ := checkTitle_eq_ok.1 h
  exact ⟨Text.trimmed_trimmed title, hne⟩

theorem Store.isLabel_iff {l : String} :
    isLabel l = true ↔
      l ≠ "" ∧ (∀ c ∈ l.toList, Text.isBlank c = false) ∧ l.utf8ByteSize ≤ 64 := by
  simp only [isLabel, Bool.and_eq_true, bne_iff_ne, decide_eq_true_eq,
    Bool.not_eq_true', List.any_eq_false, Bool.not_eq_true]
  constructor
  · rintro ⟨⟨hne, hsize⟩, hblank⟩
    exact ⟨hne, hblank, hsize⟩
  · rintro ⟨hne, hblank, hsize⟩
    exact ⟨⟨hne, hsize⟩, hblank⟩

/-- Each label is checked for itself. -/
theorem Store.checkLabels_eq (given : List String) :
    checkLabels given =
      if ∀ l ∈ given, isLabel (Text.trimmed l) = true then .ok (given.map Text.trimmed)
      else .error .badLabel := by
  induction given with
  | nil => rfl
  | cons l given ih =>
      have hcons : (∀ m ∈ l :: given, isLabel (Text.trimmed m) = true) ↔
          isLabel (Text.trimmed l) = true ∧ ∀ m ∈ given, isLabel (Text.trimmed m) = true :=
        List.forall_mem_cons
      by_cases hfirst : isLabel (Text.trimmed l) = true
      · by_cases hrest : ∀ m ∈ given, isLabel (Text.trimmed m) = true
        · rw [if_pos hrest] at ih
          rw [if_pos (hcons.2 ⟨hfirst, hrest⟩), checkLabels, checkLabel, if_pos hfirst, ih]
          rfl
        · rw [if_neg hrest] at ih
          rw [if_neg (mt hcons.1 fun h => hrest h.2), checkLabels, checkLabel, if_pos hfirst, ih]
      · rw [if_neg (mt hcons.1 fun h => hfirst h.1), checkLabels, checkLabel, if_neg hfirst]

theorem Store.mem_of_checkLabels {given kept : List String} (h : checkLabels given = .ok kept) :
    kept = given.map Text.trimmed ∧ ∀ l ∈ kept, isLabel l = true := by
  rw [checkLabels_eq] at h
  split at h
  · rename_i hall
    obtain rfl := Except.ok.inj h
    exact ⟨rfl, List.forall_mem_map.2 hall⟩
  · cases h

namespace Bead.WellFormed

variable {b : Bead}

/-- A new bead is open and made of what was accepted. -/
theorem drafted {draft : Draft} {title : String} {priority n : Nat} {labels : List String}
    (htitle : checkTitle draft.title = .ok title)
    (hpriority : checkPriority draft.priority = .ok priority)
    (hlabels : checkLabels draft.labels = .ok labels) :
    (Store.drafted now n title priority labels draft).WellFormed where
  title_trimmed := (Store.trimmed_of_checkTitle htitle).1
  title_ne := (Store.trimmed_of_checkTitle htitle).2
  priority_le := by
    obtain ⟨rfl, hle⟩ := checkPriority_eq_ok.1 hpriority
    exact hle
  labels l hl := (Store.mem_of_checkLabels hlabels).2 l (Labels.mem_ofList.1 hl)
  closedAt_iff := by simp [Store.drafted]
  closeReason_eq _ := rfl

/-- A patch may set any status, but it neither closes a bead nor opens a closed one. -/
theorem patched (h : b.WellFormed) {title : Option String} {priority : Option Nat} {patch : Patch}
    (htitle : checkGiven checkTitle patch.title = .ok title)
    (hpriority : checkGiven checkPriority patch.priority = .ok priority)
    (hclosedness : changesClosedness patch b = false) :
    (Store.patched now title priority patch b).WellFormed := by
  have hkept : ∀ t, title = some t → Text.trimmed t = t ∧ t ≠ "" := by
    rintro t rfl
    obtain ⟨x, hcheck⟩ := exists_of_checkGiven htitle
    exact Store.trimmed_of_checkTitle hcheck
  have hstatus : (Store.patched now title priority patch b).status = .closed ↔
      b.status = .closed := Store.patched_closed_iff hclosedness
  refine ⟨?_, ?_, ?_, h.labels, h.closedAt_iff.trans hstatus.symm,
    fun hne => h.closeReason_eq (mt hstatus.2 hne)⟩
  · cases title with
    | none => exact h.title_trimmed
    | some t => exact (hkept t rfl).1
  · cases title with
    | none => exact h.title_ne
    | some t => exact (hkept t rfl).2
  · cases priority with
    | none => exact h.priority_le
    | some p =>
        obtain ⟨x, hcheck⟩ := exists_of_checkGiven hpriority
        obtain ⟨rfl, hle⟩ := checkPriority_eq_ok.1 hcheck
        exact hle

theorem shut (h : b.WellFormed) (reason : Option String) :
    (Store.shut now reason b).WellFormed where
  title_trimmed := h.title_trimmed
  title_ne := h.title_ne
  priority_le := h.priority_le
  labels := h.labels
  closedAt_iff := iff_of_true rfl rfl
  closeReason_eq hne := absurd rfl hne

theorem reopened (h : b.WellFormed) : (Store.reopened now b).WellFormed where
  title_trimmed := h.title_trimmed
  title_ne := h.title_ne
  priority_le := h.priority_le
  labels := h.labels
  closedAt_iff := by simp [Store.reopened]
  closeReason_eq _ := rfl

/-- Other labels make no difference to the rest of a bead. -/
theorem relabelled (h : b.WellFormed) {labels : Labels} (hlabels : ∀ l ∈ labels, isLabel l = true) :
    { b with labels, updatedAt := now }.WellFormed where
  title_trimmed := h.title_trimmed
  title_ne := h.title_ne
  priority_le := h.priority_le
  labels := hlabels
  closedAt_iff := h.closedAt_iff
  closeReason_eq := h.closeReason_eq

theorem labelled (h : b.WellFormed) {label kept : String} (hlabel : checkLabel label = .ok kept) :
    (Store.labelled now kept b).WellFormed := by
  refine h.relabelled fun l hl => ?_
  rcases Labels.mem_insert.1 hl with rfl | hl
  · obtain ⟨rfl, hkept⟩ := checkLabel_eq_ok.1 hlabel
    exact hkept
  · exact h.labels l hl

theorem unlabelled (h : b.WellFormed) (label : String) :
    (Store.unlabelled now label b).WellFormed :=
  h.relabelled fun l hl => h.labels l (Labels.mem_erase.1 hl).1

end Bead.WellFormed

/-! ## Stores -/

namespace Store

variable {s s' : Store} {op : Operation} {c : Change} {id : String} {b : Bead}

/-- A bead that is put into its place is the only one that can be new. -/
theorem mem_put {x : Bead} (h : x ∈ (s.put b).beads) : x = b ∨ x ∈ s.beads := by
  obtain ⟨y, hy, rfl⟩ := List.mem_map.1 h
  split
  · exact Or.inl rfl
  · exact Or.inr hy

/-- The beads are well formed.  The comments are trimmed, belong to beads that are there, and are
numbered upwards, the latest with the count of all that were made. -/
structure WellFormed (s : Store) : Prop where
  beads : ∀ b ∈ s.beads, b.WellFormed
  texts : ∀ c ∈ s.comments, Text.trimmed c.text = c.text ∧ c.text ≠ ""
  owners : ∀ c ∈ s.comments, c.beadId ∈ s.ids
  numbers : ∀ c ∈ s.comments, c.id ≤ s.commented
  ascending : s.comments.Pairwise (·.id < ·.id)

namespace WellFormed

theorem empty : WellFormed Store.empty where
  beads _ hb := absurd hb List.not_mem_nil
  texts _ hc := absurd hc List.not_mem_nil
  owners _ hc := absurd hc List.not_mem_nil
  numbers _ hc := absurd hc List.not_mem_nil
  ascending := List.Pairwise.nil

theorem get? (h : WellFormed s) (hget : s.get? id = some b) : b.WellFormed :=
  h.beads b (mem_beads_of_get? hget).1

/-- Edges do not matter. -/
theorem of_same (h : WellFormed s) (hbeads : s'.beads = s.beads)
    (hcomments : s'.comments = s.comments) (hcommented : s'.commented = s.commented) :
    WellFormed s' where
  beads := hbeads ▸ h.beads
  texts := hcomments ▸ h.texts
  owners := by
    rw [hcomments, ids, hbeads]
    exact h.owners
  numbers := by
    rw [hcomments, hcommented]
    exact h.numbers
  ascending := hcomments ▸ h.ascending

theorem create (h : WellFormed s) (hb : b.WellFormed) (n : Nat) :
    WellFormed { s with created := n, beads := s.beads ++ [b] } where
  beads x hx := by
    rcases List.mem_append.1 hx with hx | hx
    · exact h.beads x hx
    · rw [List.mem_singleton.1 hx]
      exact hb
  texts := h.texts
  owners c hc := by
    simp only [ids, List.map_append]
    exact List.mem_append_left _ (h.owners c hc)
  numbers := h.numbers
  ascending := h.ascending

theorem put (h : WellFormed s) (hb : b.WellFormed) : WellFormed (s.put b) where
  beads x hx := by
    rcases mem_put hx with rfl | hx
    · exact hb
    · exact h.beads x hx
  texts := h.texts
  owners c hc := by
    rw [ids_put]
    exact h.owners c hc
  numbers := h.numbers
  ascending := h.ascending

/-- The comments of a bead leave with it, so that no comment loses its bead. -/
theorem forget (h : WellFormed s) (id : String) : WellFormed (s.forget id) where
  beads x hx := h.beads x (List.mem_filter.1 hx).1
  texts c hc := h.texts c (List.mem_filter.1 hc).1
  owners c hc := by
    obtain ⟨hc, hother⟩ := List.mem_filter.1 hc
    exact mem_ids_forget.2 ⟨h.owners c hc, by simpa using hother⟩
  numbers c hc := h.numbers c (List.mem_filter.1 hc).1
  ascending := h.ascending.filter _

/-- A new comment has a greater number than all others. -/
theorem comment (h : WellFormed s) {author text kept : String}
    (htext : checkComment text = .ok kept) (hget : s.get? id = some b) :
    WellFormed { s with
      commented := s.commented + 1
      comments := s.comments ++ [⟨s.commented + 1, id, author, kept, now⟩] } where
  beads := h.beads
  texts c hc := by
    rcases List.mem_append.1 hc with hc | hc
    · exact h.texts c hc
    · rw [List.mem_singleton.1 hc]
      obtain ⟨rfl, hne⟩ := checkComment_eq_ok.1 htext
      exact ⟨Text.trimmed_trimmed text, hne⟩
  owners c hc := by
    rcases List.mem_append.1 hc with hc | hc
    · exact h.owners c hc
    · rw [List.mem_singleton.1 hc]
      exact exists_get?_iff.1 ⟨b, hget⟩
  numbers c hc := by
    rcases List.mem_append.1 hc with hc | hc
    · exact Nat.le_succ_of_le (h.numbers c hc)
    · rw [List.mem_singleton.1 hc]
  ascending := by
    refine List.pairwise_append.2 ⟨h.ascending, List.pairwise_singleton _ _, ?_⟩
    intro c hc c' hc'
    rw [List.mem_singleton.1 hc']
    exact Nat.lt_succ_of_le (h.numbers c hc)

/-- Each effect keeps the records well formed. -/
theorem effect (h : WellFormed s) (heffect : Effect now s op c s') : WellFormed s' := by
  cases heffect with
  | create htitle hpriority hlabels => exact h.create (.drafted htitle hpriority hlabels) _
  | update htitle hpriority hget hclosedness =>
      exact h.put ((h.get? hget).patched htitle hpriority hclosedness)
  | close hget _ => exact h.put ((h.get? hget).shut _)
  | reopen hget _ => exact h.put (h.get? hget).reopened
  | delete _ => exact h.forget _
  | addLabel hlabel hget _ => exact h.put ((h.get? hget).labelled hlabel)
  | removeLabel hget _ => exact h.put ((h.get? hget).unlabelled _)
  | addDependency _ _ _ _ _ => exact h.of_same rfl rfl rfl
  | removeDependency _ => exact h.of_same rfl rfl rfl
  | addComment htext hget => exact h.comment htext hget

theorem step (h : WellFormed s) (now : Instant) (op : Operation) : WellFormed (s.step now op) :=
  step_induction op h h.effect

theorem run (h : WellFormed s) (ops : List (Instant × Operation)) : WellFormed (s.run ops) :=
  run_induction (fun now op hs => hs.step now op) h ops

end WellFormed

end Store

end IssueTracker
