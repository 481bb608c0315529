/-
  IssueTracker/Proofs/Store/Identity.lean --- every bead has an identity of its own.

  Beads are numbered by a counter that never goes back, so an identity is given once
  (`Numbered`).  Then a bead that is in the store is what is found under its identity
  (`Numbered.get?_eq_some_iff`), and to put a bead in the place of the one of its identity
  touches no other (`Numbered.beads_put`).
-/
import IssueTracker.Proofs.Store.Effect
import Mathlib.Data.List.Nodup

set_option autoImplicit false

namespace IssueTracker

namespace Store

variable {now : Instant} {s s' : Store} {op : Operation} {c : Change} {id : String} {b b' : Bead}

/-- Different beads have different identities. -/
theorem beadId_injective {m n : Nat} (h : beadId m = beadId n) : m = n := by
  have hchars := congrArg String.toList h
  simp only [beadId, Text.decimal, String.toList_append, String.toList_ofList] at hchars
  exact Text.digits_injective (List.append_cancel_left hchars)

theorem ids_forget (id : String) (s : Store) : (s.forget id).ids = s.ids.filter (· != id) := by
  simp only [ids, forget, List.filter_map]
  rfl

/-- Where no other bead has the identity, the bead is put in one place. -/
theorem beads_put_of_split {before after : List Bead} (hbeads : s.beads = before ++ b :: after)
    (hid : b.id = b'.id) (hothers : ∀ x ∈ before ++ after, x.id ≠ b'.id) :
    (s.put b').beads = before ++ b' :: after := by
  have hkept : ∀ xs : List Bead, (∀ x ∈ xs, x.id ≠ b'.id) →
      xs.map (fun x => if x.id = b'.id then b' else x) = xs := by
    intro xs hxs
    refine (List.map_congr_left fun x hx => ?_).trans xs.map_id
    rw [if_neg (hxs x hx)]
    rfl
  rw [List.forall_mem_append] at hothers
  simp only [put, hbeads, List.map_append, List.map_cons]
  rw [hkept before hothers.1, hkept after hothers.2, if_pos hid]

/-- Where no other bead has the identity, one bead is forgotten. -/
theorem beads_forget_of_split {before after : List Bead} (hbeads : s.beads = before ++ b :: after)
    (hothers : ∀ x ∈ before ++ after, x.id ≠ b.id) : (s.forget b.id).beads = before ++ after := by
  have hkept : ∀ x ∈ before ++ after, (x.id != b.id) = true := by
    intro x hx
    exact bne_iff_ne.2 (hothers x hx)
  rw [List.forall_mem_append] at hkept
  simp only [forget, hbeads, List.filter_append]
  rw [List.filter_cons_of_neg (by simp), List.filter_eq_self.2 hkept.1,
    List.filter_eq_self.2 hkept.2]

/-- The identities are those of beads that were created, and each is there once. -/
structure Numbered (s : Store) : Prop where
  /-- No bead has the number of one that is still to come. -/
  issued : ∀ id ∈ s.ids, ∃ n ≤ s.created, id = beadId n
  distinct : s.ids.Nodup

namespace Numbered

theorem empty : Numbered Store.empty where
  issued _ hid := absurd hid List.not_mem_nil
  distinct := List.nodup_nil

/-- The next identity is not taken. -/
theorem next_not_mem (h : Numbered s) : beadId (s.created + 1) ∉ s.ids := by
  intro hmem
  obtain ⟨n, hn, heq⟩ := h.issued _ hmem
  have := beadId_injective heq
  omega

/-- What leaves the counter and the identities alone keeps them distinct. -/
theorem of_same (h : Numbered s) (hcreated : s'.created = s.created) (hids : s'.ids = s.ids) :
    Numbered s' where
  issued := by
    rw [hcreated, hids]
    exact h.issued
  distinct := hids ▸ h.distinct

theorem put (h : Numbered s) (b : Bead) : Numbered (s.put b) := h.of_same rfl (ids_put b s)

theorem forget (h : Numbered s) (id : String) : Numbered (s.forget id) where
  issued other hother := h.issued other (mem_ids_forget.1 hother).1
  distinct := by
    rw [ids_forget]
    exact h.distinct.filter _

/-- A bead with the next identity joins the others. -/
theorem create (h : Numbered s) (hb : b.id = beadId (s.created + 1)) :
    Numbered { s with created := s.created + 1, beads := s.beads ++ [b] } where
  issued id hid := by
    simp only [ids, List.map_append, List.map_cons, List.map_nil, List.mem_append,
      List.mem_singleton] at hid
    rcases hid with hid | rfl
    · obtain ⟨n, hn, heq⟩ := h.issued id hid
      exact ⟨n, Nat.le_succ_of_le hn, heq⟩
    · exact ⟨s.created + 1, Nat.le_refl _, hb⟩
  distinct := by
    simp only [ids, List.map_append, List.map_cons, List.map_nil]
    refine List.nodup_append.2 ⟨h.distinct, List.nodup_singleton _, ?_⟩
    rintro id hid _ hnew rfl
    rw [List.mem_singleton.1 hnew, hb] at hid
    exact h.next_not_mem hid

/-- Each effect keeps the identities distinct. -/
theorem effect (h : Numbered s) (heffect : Effect now s op c s') : Numbered s' := by
  cases heffect with
  | create _ _ _ => exact h.create rfl
  | update _ _ _ _ => exact h.put _
  | close _ _ => exact h.put _
  | reopen _ _ => exact h.put _
  | delete _ => exact h.forget _
  | addLabel _ _ _ => exact h.put _
  | removeLabel _ _ => exact h.put _
  | addDependency _ _ _ _ _ => exact h.of_same rfl rfl
  | removeDependency _ => exact h.of_same rfl rfl
  | addComment _ _ => exact h.of_same rfl rfl

theorem step (h : Numbered s) (now : Instant) (op : Operation) : Numbered (s.step now op) :=
  step_induction op h h.effect

theorem run (h : Numbered s) (ops : List (Instant × Operation)) : Numbered (s.run ops) :=
  run_induction (fun now op hs => hs.step now op) h ops

/-! ## Finding and replacing -/

/-- Beads with one identity are one bead. -/
theorem eq_of_id_eq (h : Numbered s) (hb : b ∈ s.beads) (hb' : b' ∈ s.beads) (hid : b.id = b'.id) :
    b = b' :=
  List.inj_on_of_nodup_map h.distinct hb hb' hid

/-- What is found under an identity is the bead that has it. -/
theorem get?_eq_some_iff (h : Numbered s) : s.get? id = some b ↔ b ∈ s.beads ∧ b.id = id := by
  refine ⟨mem_beads_of_get?, ?_⟩
  rintro ⟨hb, rfl⟩
  obtain ⟨found, hfound⟩ := exists_get?_iff.2 (List.mem_map_of_mem hb : b.id ∈ s.ids)
  obtain ⟨hmem, hid⟩ := mem_beads_of_get? hfound
  rw [hfound, h.eq_of_id_eq hmem hb hid]

/-- A bead has one place among the beads, and no other bead has its identity. -/
theorem exists_split (h : Numbered s) (hget : s.get? id = some b) :
    ∃ before after, s.beads = before ++ b :: after ∧ b.id = id ∧
      ∀ x ∈ before ++ after, x.id ≠ id := by
  obtain ⟨hb, rfl⟩ := mem_beads_of_get? hget
  obtain ⟨before, after, hbeads⟩ := List.append_of_mem hb
  have hdistinct := h.distinct
  rw [ids, hbeads, List.map_append, List.map_cons, List.nodup_middle,
    ← List.map_append] at hdistinct
  refine ⟨before, after, hbeads, rfl, fun x hx hid => ?_⟩
  exact (List.nodup_cons.1 hdistinct).1 (hid ▸ List.mem_map_of_mem hx)

/-- A bead takes the place of the one of its identity, and the others stay where they are. -/
theorem beads_put (h : Numbered s) (hget : s.get? id = some b) (hid : b'.id = id) :
    ∃ before after, s.beads = before ++ b :: after ∧
      (s.put b').beads = before ++ b' :: after := by
  obtain ⟨before, after, hbeads, hbid, hothers⟩ := h.exists_split hget
  exact ⟨before, after, hbeads, beads_put_of_split hbeads (hbid.trans hid.symm) (hid ▸ hothers)⟩

end Numbered

end Store

end IssueTracker
