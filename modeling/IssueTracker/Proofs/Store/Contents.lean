/-
  IssueTracker/Proofs/Store/Contents.lean --- what is in a store can be written and read.

  A store keeps the priorities in their range, and its instants are those that the clock showed
  (`Keeps`).  What a change is published with is made of these, so its text is JSON that reads
  back (`Change.fits_payload`), as long as the comments are numbered in 64 bits.
-/
import IssueTracker.Proofs.Bead.RoundTrip
import IssueTracker.Proofs.Store.Effect

set_option autoImplicit false

namespace IssueTracker

variable {P : Instant → Prop} {now : Instant}

/-! ## Beads -/

namespace Bead

variable {b b' : Bead}

/-- Is the priority one that is accepted, and has each instant of the bead the property? -/
structure Keeps (P : Instant → Prop) (b : Bead) : Prop where
  priority : b.priority ≤ greatestPriority
  instants : ∀ t ∈ b.instants, P t

/-- A bead whose times are old ones or now. -/
theorem Keeps.of_times (h : b.Keeps P) (hnow : P now) (hpriority : b'.priority ≤ greatestPriority)
    (hcreated : b'.createdAt = b.createdAt) (hupdated : b'.updatedAt = now)
    (hclosed : ∀ t, b'.closedAt = some t → b.closedAt = some t ∨ t = now) : b'.Keeps P where
  priority := hpriority
  instants t ht := by
    simp only [Bead.instants, List.mem_cons, Option.mem_toList, hcreated, hupdated] at ht
    rcases ht with rfl | rfl | ht
    · exact h.instants _ (by simp [Bead.instants])
    · exact hnow
    · rcases hclosed t ht with hold | rfl
      · exact h.instants _ (by simp [Bead.instants, hold])
      · exact hnow

/-- A bead whose times are old ones, apart from the time of the change. -/
theorem Keeps.touched (h : b.Keeps P) (hnow : P now) (hpriority : b'.priority = b.priority)
    (hcreated : b'.createdAt = b.createdAt) (hupdated : b'.updatedAt = now)
    (hclosed : b'.closedAt = b.closedAt) : b'.Keeps P :=
  h.of_times hnow (hpriority ▸ h.priority) hcreated hupdated fun _ ht => Or.inl (hclosed ▸ ht)

end Bead

namespace Store

variable {s s' : Store} {op : Operation} {c : Change} {id : String} {b : Bead}

/-! ## Stores -/

/-- The priorities of the beads are accepted ones, and the instants of the beads and the edges have
the property. -/
structure Keeps (P : Instant → Prop) (s : Store) : Prop where
  beads : ∀ b ∈ s.beads, b.Keeps P
  dependencies : ∀ d ∈ s.dependencies, P d.createdAt

/-- The same of the beads, edges and comments that a change speaks of; the comment has a number of
64 bits. -/
def Change.Keeps (P : Instant → Prop) : Change → Prop
  | .created b | .updated b | .closed b | .reopened b | .deleted b => b.Keeps P
  | .labelAdded b _ | .labelRemoved b _ => b.Keeps P
  | .dependencyAdded d | .dependencyRemoved d => P d.createdAt
  | .commentAdded c => c.id ≤ Text.maxWord64 ∧ P c.createdAt

theorem Keeps.empty : Keeps P Store.empty where
  beads _ hb := absurd hb List.not_mem_nil
  dependencies _ hd := absurd hd List.not_mem_nil

theorem Keeps.get? (h : Keeps P s) (hget : s.get? id = some b) : b.Keeps P :=
  h.beads b (mem_beads_of_get? hget).1

/-- A bead that is put into the place of another one is the only one that can be new. -/
theorem Keeps.put (h : Keeps P s) (hb : b.Keeps P) : b.Keeps P ∧ Keeps P (s.put b) := by
  refine ⟨hb, ?_, h.dependencies⟩
  intro x hx
  obtain ⟨y, hy, rfl⟩ := List.mem_map.1 hx
  split
  · exact hb
  · exact h.beads y hy

/-- Fewer beads and edges have the same property. -/
theorem Keeps.of_subset (h : Keeps P s) (hbeads : s'.beads ⊆ s.beads)
    (hdependencies : s'.dependencies ⊆ s.dependencies) : Keeps P s' where
  beads b hb := h.beads b (hbeads hb)
  dependencies d hd := h.dependencies d (hdependencies hd)

theorem drafted_keeps {draft : Draft} {title : String} {priority n : Nat} {labels : List String}
    (hnow : P now) (hpriority : checkPriority draft.priority = .ok priority) :
    (drafted now n title priority labels draft).Keeps P where
  priority := by
    obtain ⟨rfl, hle⟩ := checkPriority_eq_ok.1 hpriority
    exact hle
  instants t ht := by
    have hnows : t = now ∨ t = now := by simpa [Bead.instants, drafted] using ht
    rcases hnows with rfl | rfl <;> exact hnow

/-- What is left of a checked value was accepted by the check. -/
theorem exists_of_checkGiven {α : Type} {check : α → Except Fault α} {given : Option α} {a : α}
    (h : checkGiven check given = .ok (some a)) : ∃ x, check x = .ok a := by
  obtain ⟨-, hnone⟩ | ⟨x, k, -, hcheck, hkept⟩ := checkGiven_eq_ok_iff.1 h
  · cases hnone
  · cases hkept
    exact ⟨x, hcheck⟩

theorem patched_keeps {title : Option String} {priority : Option Nat} {patch : Patch}
    (hb : b.Keeps P) (hnow : P now)
    (hpriority : checkGiven checkPriority patch.priority = .ok priority) :
    (patched now title priority patch b).Keeps P := by
  refine hb.of_times hnow ?_ rfl rfl fun _ ht => Or.inl ht
  cases priority with
  | none => exact hb.priority
  | some p =>
      obtain ⟨x, hcheck⟩ := exists_of_checkGiven hpriority
      obtain ⟨rfl, hle⟩ := checkPriority_eq_ok.1 hcheck
      exact hle

/-- An effect keeps the store so, and what it changes is so. -/
theorem Keeps.effect (h : Keeps P s) (hnow : P now) (heffect : Effect now s op c s')
    (hnumber : s'.commented ≤ Text.maxWord64) : c.Keeps P ∧ Keeps P s' := by
  cases heffect with
  | create htitle hpriority hlabels =>
      refine ⟨drafted_keeps hnow hpriority, ?_, h.dependencies⟩
      intro b hb
      rcases List.mem_append.1 hb with hb | hb
      · exact h.beads b hb
      · rw [List.mem_singleton.1 hb]
        exact drafted_keeps hnow hpriority
  | update htitle hpriority hget hclosedness =>
      exact h.put (patched_keeps (h.get? hget) hnow hpriority)
  | close hget hopen =>
      have hb := h.get? hget
      refine h.put (hb.of_times hnow hb.priority rfl rfl ?_)
      rintro _ ⟨⟩
      exact Or.inr rfl
  | reopen hget hclosed =>
      have hb := h.get? hget
      refine h.put (hb.of_times hnow hb.priority rfl rfl ?_)
      rintro _ ⟨⟩
  | delete hget =>
      exact ⟨h.get? hget, h.of_subset List.filter_sublist.subset List.filter_sublist.subset⟩
  | addLabel hlabel hget hnew => exact h.put ((h.get? hget).touched hnow rfl rfl rfl rfl)
  | removeLabel hget hlabel => exact h.put ((h.get? hget).touched hnow rfl rfl rfl rfl)
  | addDependency hne hdependent hprerequisite hnew hcycle =>
      refine ⟨hnow, h.beads, ?_⟩
      intro d hd
      rcases List.mem_append.1 hd with hd | hd
      · exact h.dependencies d hd
      · rw [List.mem_singleton.1 hd]
        exact hnow
  | removeDependency hfind =>
      refine ⟨h.dependencies _ (List.mem_of_find?_eq_some hfind), ?_⟩
      exact h.of_subset (List.Subset.refl _) fun _ => List.mem_of_mem_eraseP
  | addComment htext hget => exact ⟨⟨hnumber, hnow⟩, h.beads, h.dependencies⟩

/-- Comments are never counted back. -/
theorem commented_le_of_effect (h : Effect now s op c s') : s.commented ≤ s'.commented := by
  cases h with
  | addComment _ _ => exact Nat.le_succ _
  | _ => exact Nat.le_refl _

/-- An operation adds one comment at most. -/
theorem le_commented_of_effect (h : Effect now s op c s') : s'.commented ≤ s.commented + 1 := by
  cases h with
  | addComment _ _ => exact Nat.le_refl _
  | _ => exact Nat.le_succ _

/-! ## Payloads -/

/-- What a change is published with can be written and read. -/
theorem Change.fits_payload (h : c.Keeps P) : Json.fits Json.greatestDepth c.payload = true := by
  have hlimit : greatestPriority ≤ priorityLimit := by decide
  cases c with
  | created b | updated b | closed b | reopened b =>
      exact Bead.fits_toJson (Nat.le_trans h.priority hlimit) _
  | deleted b => rfl
  | labelAdded b label | labelRemoved b label => rfl
  | dependencyAdded d | dependencyRemoved d => exact Dependency.fits_toJson d _
  | commentAdded c => exact Comment.fits_toJson h.1 _

end Store

end IssueTracker
