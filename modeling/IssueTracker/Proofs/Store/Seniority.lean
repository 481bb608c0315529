/-
  IssueTracker/Proofs/Store/Seniority.lean --- lists and the order in which beads were created.

  A bead keeps the identity and the time of its creation (`births_run`), and beads that were created
  later have greater numbers and, under a clock that never goes back, no earlier times
  (`notAfter_of_earlier`).  Lists of one priority go by time and then by identity, which is compared
  as a text.  So they have the order of creation but for beads that were created at one reading of
  the clock and whose numbers differ in length: there the later one may stand first (`Overtakes`).
-/
import IssueTracker.Proofs.Store.Chronology
import IssueTracker.Proofs.Store.Listing
import IssueTracker.Proofs.Store.Permanence
import IssueTracker.Proofs.Store.Progress
import IssueTracker.Proofs.Text.Numeral
import Mathlib.Data.List.Sort

set_option autoImplicit false

namespace IssueTracker

/-- What stands in an order that has no way back is a sublist of all that does. -/
theorem sublist_of_pairwise {α : Type} {before : α → α → Prop} {xs ys : List α}
    (hasymm : ∀ a b, before a b → ¬ before b a) (hys : ys.Pairwise before)
    (hxs : xs.Pairwise before) (hsub : ys ⊆ xs) : ys.Sublist xs := by
  have hantisymm : Std.Antisymm before := ⟨fun a b hab hba => absurd hba (hasymm a b hab)⟩
  have hirrefl : Std.Irrefl before := ⟨fun a haa => hasymm a a haa haa⟩
  exact List.sublist_of_subperm_of_pairwise (List.subperm_of_subset hys.nodup hsub) hys hxs

theorem pair_sublist_of_pairwise {α : Type} {before : α → α → Prop} {xs : List α} {a b : α}
    (hasymm : ∀ a b, before a b → ¬ before b a) (hxs : xs.Pairwise before) (ha : a ∈ xs)
    (hb : b ∈ xs) (h : before a b) : [a, b].Sublist xs := by
  refine sublist_of_pairwise hasymm (List.pairwise_pair.2 h) hxs ?_
  exact List.cons_subset.2 ⟨ha, List.cons_subset.2 ⟨hb, List.nil_subset _⟩⟩

/-- What a bead has from its creation. -/
def Bead.birth (b : Bead) : String × Instant := (b.id, b.createdAt)

/-- Of two beads of one priority, the one that was created earlier is listed first, and of two that
were created at the same time the one whose identity comes first as a text. -/
theorem Bead.rank_lt_iff {a b : Bead} (hpriority : a.priority = b.priority) :
    a.rank < b.rank ↔ ¬ b.createdAt.notAfter a.createdAt = true ∨
      a.createdAt = b.createdAt ∧ a.id < b.id := by
  rw [rank, rank, Prod.Lex.toLex_lt_toLex, Prod.Lex.toLex_lt_toLex, Instant.rank_inj,
    Instant.notAfter_iff_rank, not_le]
  simp [hpriority]

namespace Store

variable {now : Instant} {s : Store} {op : Operation} {a b : Bead} {x y : String} {m n : Nat}
  {xs : List Bead} {ops : List (Instant × Operation)}

/-! ## Numbers -/

/-- Are the identities those of two beads of which the first was created before the second? -/
def Earlier (x y : String) : Prop := ∃ m n, x = beadId m ∧ y = beadId n ∧ m < n

theorem Earlier.asymm (h : Earlier x y) : ¬ Earlier y x := by
  obtain ⟨m, n, rfl, rfl, hlt⟩ := h
  rintro ⟨k, l, hk, hl, hback⟩
  rw [← beadId_injective hk, ← beadId_injective hl] at hback
  exact Nat.lt_asymm hlt hback

/-- The identity of the earlier bead comes first as a text if and only if its number is not greater
than the digits with which the other number begins. -/
theorem beadId_lt_beadId_iff (h : m < n) :
    beadId m < beadId n ↔ m ≤ Text.leading (Text.digits m).length n := by
  rw [← Text.digits_lt_digits_iff h, String.lt_iff_toList_lt]
  simp [beadId, Text.decimal, String.toList_append]

/-! ## What was created -/

theorem ids_creations (ops : List (Instant × Operation)) :
    (empty.creations ops).map (·.id) =
      (List.range' 1 (empty.creations ops).length).map beadId :=
  names_of_answers numbers_created empty ops

theorem pairwise_creations (ops : List (Instant × Operation)) :
    ((empty.creations ops).map (·.id)).Pairwise Earlier := by
  rw [ids_creations, List.pairwise_map]
  exact (List.pairwise_lt_range' 1 Nat.one_pos).imp fun hlt => ⟨_, _, rfl, rfl, hlt⟩

/-- Identities that were given are in the order of creation if each was given before those after
it. -/
theorem sublist_creations_iff {ids : List String}
    (hgiven : ids ⊆ (empty.creations ops).map (·.id)) :
    ids.Sublist ((empty.creations ops).map (·.id)) ↔ ids.Pairwise Earlier := by
  refine ⟨fun h => (pairwise_creations ops).sublist h, fun h => ?_⟩
  exact sublist_of_pairwise (fun _ _ => Earlier.asymm) h (pairwise_creations ops) hgiven

theorem creations_cons (s : Store) (now : Instant) (op : Operation)
    (rest : List (Instant × Operation)) :
    s.creations ((now, op) :: rest) =
      (created? (s.perform now op).1).toList ++ (s.step now op).creations rest := by
  rw [creations, answers]
  cases hnew : created? (s.perform now op).1 with
  | none => rw [List.filterMap_cons_none hnew]; rfl
  | some b => rw [List.filterMap_cons_some hnew]; rfl

/-- What is created has the time of a reading of the clock. -/
theorem createdAt_step (s : Store) (now : Instant) (op : Operation) :
    ((created? (s.perform now op).1).toList.map (·.createdAt)).Sublist
      (s.reading? now op).toList := by
  rcases s.perform_cases now op with ⟨f, hrefused⟩ | ⟨c, s', hdone, heffect⟩
  · rw [hrefused]
    exact List.nil_sublist _
  · cases heffect with
    | create _ _ _ =>
        rw [reading?, hdone]
        exact List.Sublist.refl _
    | _ =>
        rw [hdone]
        exact List.nil_sublist _

theorem createdAt_creations (s : Store) (ops : List (Instant × Operation)) :
    ((s.creations ops).map (·.createdAt)).Sublist (s.readings ops) := by
  induction ops generalizing s with
  | nil => exact List.Sublist.refl _
  | cons x rest ih =>
      obtain ⟨now, op⟩ := x
      rw [creations_cons, List.map_append]
      exact (createdAt_step s now op).append (ih (s.step now op))

/-! ## What a bead keeps -/

theorem births_step (s : Store) (now : Instant) (op : Operation) :
    ∀ b ∈ (s.step now op).beads,
      b.birth ∈ (s.beads ++ (created? (s.perform now op).1).toList).map Bead.birth := by
  refine perform_induction
    (P := fun r s' => ∀ b ∈ s'.beads, b.birth ∈ (s.beads ++ (created? r).toList).map Bead.birth)
    now s op (fun f b hb => List.mem_map_of_mem (List.mem_append_left _ hb)) fun heffect b hb => ?_
  rcases origin_of_effect heffect hb with hold | ⟨-, ⟨rfl, -⟩ | ⟨x, hx, hnext⟩⟩
  · exact List.mem_map_of_mem (List.mem_append_left _ hold)
  · exact List.mem_map_of_mem (List.mem_append_right _ List.mem_cons_self)
  · have hbirth : b.birth = x.birth := by
      rw [Bead.birth, Bead.birth, hnext.id_eq, hnext.createdAt_eq]
    rw [hbirth]
    exact List.mem_map_of_mem (List.mem_append_left _ hx)

/-- A bead has the identity and the time of creation that it was created with. -/
theorem births_run (s : Store) (ops : List (Instant × Operation)) :
    ∀ b ∈ (s.run ops).beads, b.birth ∈ (s.beads ++ s.creations ops).map Bead.birth := by
  induction ops generalizing s with
  | nil => exact fun b hb => List.mem_map_of_mem (List.mem_append_left _ hb)
  | cons x rest ih =>
      obtain ⟨now, op⟩ := x
      intro b hb
      rw [creations_cons, ← List.append_assoc, List.map_append, List.mem_append]
      have hbirth := ih (s.step now op) b hb
      rw [List.map_append, List.mem_append] at hbirth
      rcases hbirth with hold | hlater
      · obtain ⟨x, hx, hsame⟩ := List.mem_map.1 hold
        exact Or.inl (hsame ▸ births_step s now op x hx)
      · exact Or.inr hlater

theorem exists_creation (hb : b ∈ (empty.run ops).beads) :
    ∃ c ∈ empty.creations ops, c.id = b.id ∧ c.createdAt = b.createdAt := by
  obtain ⟨c, hc, hbirth⟩ := List.mem_map.1 (births_run empty ops b hb)
  exact ⟨c, hc, congrArg Prod.fst hbirth, congrArg Prod.snd hbirth⟩

/-- A bead has the number of one of those that were created. -/
theorem exists_number (hb : b ∈ (empty.run ops).beads) :
    ∃ n ≤ (empty.creations ops).length, b.id = beadId n := by
  obtain ⟨c, hc, hid, -⟩ := exists_creation hb
  have hgiven : c.id ∈ (empty.creations ops).map (·.id) := List.mem_map_of_mem hc
  rw [ids_creations, List.mem_map] at hgiven
  obtain ⟨n, hn, hnumber⟩ := hgiven
  have := List.mem_range'_1.1 hn
  exact ⟨n, by omega, hid.symm.trans hnumber.symm⟩

/-- If the clock never goes back, a bead that was created before another one has no later time. -/
theorem notAfter_of_earlier (hclock : (empty.readings ops).Pairwise fun t u => t.notAfter u)
    (ha : a ∈ (empty.run ops).beads) (hb : b ∈ (empty.run ops).beads)
    (h : Earlier a.id b.id) : a.createdAt.notAfter b.createdAt := by
  obtain ⟨c, hc, hcid, hcreated⟩ := exists_creation ha
  obtain ⟨d, hd, hdid, hdcreated⟩ := exists_creation hb
  rw [← hcid, ← hdid] at h
  rw [← hcreated, ← hdcreated]
  have htimes : (empty.creations ops).Pairwise fun c d => c.createdAt.notAfter d.createdAt :=
    List.pairwise_map.1 (hclock.sublist (createdAt_creations empty ops))
  have hnumbers : (empty.creations ops).Pairwise fun c d => Earlier c.id d.id :=
    List.pairwise_map.1 (pairwise_creations ops)
  -- Of two that were created, the earlier one stands first.
  have hpair : [c, d].Sublist (empty.creations ops) :=
    pair_sublist_of_pairwise (fun _ _ => Earlier.asymm) hnumbers hc hd h
  exact List.pairwise_iff_forall_sublist.1 htimes hpair

/-! ## Beads that overtake -/

/-- Both beads have one priority and one time of creation, the first was created after the
second; but the digits with which its number begins are less than the number of the second. -/
def Overtakes (a b : Bead) : Prop :=
  a.priority = b.priority ∧ a.createdAt = b.createdAt ∧
    ∃ m n, a.id = beadId m ∧ b.id = beadId n ∧ n < m ∧
      Text.leading (Text.digits n).length m < n

theorem Overtakes.earlier (h : Overtakes a b) : Earlier b.id a.id := by
  obtain ⟨-, -, m, n, hm, hn, hlt, -⟩ := h
  exact ⟨n, m, hn, hm, hlt⟩

theorem overtakes_of_lt (hpriority : a.priority = b.priority)
    (hcreated : a.createdAt = b.createdAt) (hlt : a.id < b.id) (h : Earlier b.id a.id) :
    Overtakes a b := by
  obtain ⟨n, m, hn, hm, hnumbers⟩ := h
  refine ⟨hpriority, hcreated, m, n, hm, hn, hnumbers, ?_⟩
  rw [hm, hn] at hlt
  exact Nat.lt_of_not_le (mt (beadId_lt_beadId_iff hnumbers).2 hlt.not_gt)

theorem Overtakes.rank_lt (h : Overtakes a b) : a.rank < b.rank := by
  obtain ⟨hpriority, hcreated, m, n, hm, hn, hnumbers, hleading⟩ := h
  rw [Bead.rank_lt_iff hpriority, hm, hn]
  refine Or.inr ⟨hcreated, lt_of_le_of_ne (le_of_not_gt fun hlt => ?_) fun hsame => ?_⟩
  · exact absurd ((beadId_lt_beadId_iff hnumbers).1 hlt) (Nat.not_le_of_lt hleading)
  · exact absurd (beadId_injective hsame) (Nat.ne_of_gt hnumbers)

/-- Of two beads of one priority, the one that is listed first was created first, or it overtakes
the other. -/
theorem earlier_iff_not_overtakes
    (hclock : (empty.readings ops).Pairwise fun t u => t.notAfter u)
    (ha : a ∈ (empty.run ops).beads) (hb : b ∈ (empty.run ops).beads)
    (hpriority : a.priority = b.priority) (hrank : a.rank < b.rank) :
    Earlier a.id b.id ↔ ¬ Overtakes a b := by
  refine ⟨fun h hover => h.asymm hover.earlier, fun h => ?_⟩
  obtain ⟨m, -, hm⟩ := exists_number ha
  obtain ⟨n, -, hn⟩ := exists_number hb
  rcases Nat.lt_trichotomy m n with hlt | rfl | hgt
  · exact ⟨m, n, hm, hn, hlt⟩
  · have hsame : a = b := (Numbered.empty.run ops).eq_of_id_eq ha hb (hm.trans hn.symm)
    exact absurd (hsame ▸ hrank) (lt_irrefl _)
  · -- The second was created first, so that its time is no later, and the text decided.
    have hback : Earlier b.id a.id := ⟨n, m, hn, hm, hgt⟩
    have htime := notAfter_of_earlier hclock hb ha hback
    obtain ⟨hcreated, hid⟩ := ((Bead.rank_lt_iff hpriority).1 hrank).resolve_left (not_not.2 htime)
    exact absurd (overtakes_of_lt hpriority hcreated hid hback) h

/-! ## Lists -/

/-- The beads of each priority stand in the order in which they were created. -/
def Chronological (ops : List (Instant × Operation)) (xs : List Bead) : Prop :=
  ∀ priority, ((xs.filter (·.priority = priority)).map (·.id)).Sublist
    ((empty.creations ops).map (·.id))

/-- In a list that goes by rank, a bead of lower rank stands before one of higher rank. -/
theorem Ascending.pair (h : Ascending xs) (ha : a ∈ xs) (hb : b ∈ xs) (hlt : a.rank < b.rank) :
    [a, b].Sublist xs :=
  pair_sublist_of_pairwise (fun _ _ hab => hab.asymm) h ha hb hlt

/-- A list of beads of a store is chronological if of any two of one priority the first was created
first. -/
theorem chronological_iff_pairwise (hsub : xs ⊆ (empty.run ops).beads) :
    Chronological ops xs ↔ xs.Pairwise fun a b => a.priority = b.priority → Earlier a.id b.id := by
  have hgiven : ∀ priority, (xs.filter (·.priority = priority)).map (·.id) ⊆
      (empty.creations ops).map (·.id) := by
    intro priority id hid
    obtain ⟨b, hb, rfl⟩ := List.mem_map.1 hid
    obtain ⟨c, hc, hsame, -⟩ := exists_creation (hsub (List.mem_filter.1 hb).1)
    exact hsame ▸ List.mem_map_of_mem hc
  have hpairs : ∀ priority, ((xs.filter (·.priority = priority)).map (·.id)).Sublist
      ((empty.creations ops).map (·.id)) ↔ ∀ {a b : Bead}, [a, b].Sublist xs →
        a.priority = priority → b.priority = priority → Earlier a.id b.id := by
    intro priority
    rw [sublist_creations_iff (hgiven priority), List.pairwise_map, List.pairwise_filter,
      List.pairwise_iff_forall_sublist]
    simp only [decide_eq_true_eq]
  rw [List.pairwise_iff_forall_sublist]
  constructor
  · exact fun h a b hab hpriority => (hpairs b.priority).1 (h b.priority) hab hpriority rfl
  · exact fun h priority => (hpairs priority).2 fun hab ha hb => h hab (ha.trans hb.symm)

/-- A list by rank is chronological if and only if no bead overtakes another one. -/
theorem chronological_iff (hclock : (empty.readings ops).Pairwise fun t u => t.notAfter u)
    (hsub : xs ⊆ (empty.run ops).beads) (h : Ascending xs) :
    Chronological ops xs ↔ ∀ a ∈ xs, ∀ b ∈ xs, ¬ Overtakes a b := by
  rw [chronological_iff_pairwise hsub, List.pairwise_iff_forall_sublist]
  constructor
  · intro hfirst a ha b hb hover
    have hearlier := hfirst (h.pair ha hb hover.rank_lt) hover.1
    exact hearlier.asymm hover.earlier
  · intro hnone a b hab hpriority
    have ha : a ∈ xs := hab.subset List.mem_cons_self
    have hb : b ∈ xs := hab.subset (List.mem_cons_of_mem _ List.mem_cons_self)
    have hrank : a.rank < b.rank := List.pairwise_iff_forall_sublist.1 h hab
    exact (earlier_iff_not_overtakes hclock (hsub ha) (hsub hb) hpriority hrank).2 (hnone a ha b hb)

/-- Among at most nine beads none overtakes another one: their numbers have one digit. -/
theorem not_overtakes_of_few (hfew : (empty.creations ops).length ≤ 9)
    (ha : a ∈ (empty.run ops).beads) : ¬ Overtakes a b := by
  rintro ⟨-, -, m, n, hm, -, hlt, hleading⟩
  obtain ⟨k, hk, hid⟩ := exists_number ha
  have hmk : m = k := beadId_injective (hm.symm.trans hid)
  have hlength : (Text.digits n).length = (Text.digits m).length := by
    rw [Text.digits_of_lt (by omega : n < 10), Text.digits_of_lt (by omega : m < 10)]
    rfl
  rw [hlength, Text.leading_self] at hleading
  exact Nat.lt_asymm hlt hleading

/-- Beads of different times do not overtake each other. -/
theorem not_overtakes_of_nodup (htimes : ((empty.creations ops).map (·.createdAt)).Nodup)
    (ha : a ∈ (empty.run ops).beads) (hb : b ∈ (empty.run ops).beads) : ¬ Overtakes a b := by
  intro hover
  obtain ⟨c, hc, hcid, hcreated⟩ := exists_creation ha
  obtain ⟨d, hd, hdid, hdcreated⟩ := exists_creation hb
  have hsame : c = d := List.inj_on_of_nodup_map htimes hc hd
    (hcreated.trans (hover.2.1.trans hdcreated.symm))
  have hearlier := hover.earlier
  rw [← hcid, ← hdid, hsame] at hearlier
  exact hearlier.asymm hearlier

theorem ascending_of_run (ops : List (Instant × Operation)) (p : Bead → Bool) :
    listed ((empty.run ops).beads.filter p) ⊆ (empty.run ops).beads ∧
      Ascending (listed ((empty.run ops).beads.filter p)) := by
  refine ⟨fun b hb => ?_, ascending_listed ((Numbered.empty.run ops).nodup_map_filter p)⟩
  exact (List.mem_filter.1 ((listed_perm _).mem_iff.1 hb)).1

/-- Of two beads of one priority in a list by rank, the one that was created later stands first if it
overtakes the other, and behind it if it does not. -/
theorem Ascending.place (hclock : (empty.readings ops).Pairwise fun t u => t.notAfter u)
    (hsub : xs ⊆ (empty.run ops).beads) (h : Ascending xs) (ha : a ∈ xs) (hb : b ∈ xs)
    (hpriority : a.priority = b.priority) (hearlier : Earlier a.id b.id) :
    Overtakes b a ∧ [b, a].Sublist xs ∨ ¬ Overtakes b a ∧ [a, b].Sublist xs := by
  by_cases hover : Overtakes b a
  · exact Or.inl ⟨hover, h.pair hb ha hover.rank_lt⟩
  · refine Or.inr ⟨hover, h.pair ha hb ?_⟩
    rcases lt_trichotomy a.rank b.rank with hlt | heq | hgt
    · exact hlt
    · rw [Bead.id_eq_of_rank_eq heq] at hearlier
      exact absurd hearlier hearlier.asymm
    · have hback := earlier_iff_not_overtakes hclock (hsub hb) (hsub ha) hpriority.symm hgt
      exact absurd (hback.2 hover) hearlier.asymm

/-- After any operations under a clock that never goes back, the answer to a query and the list of
what is ready have the beads of each priority in the order of their creation if and only if no
bead in them overtakes another one; one that does stands before it, and one that does not stands
behind it.  Only beads of the same time overtake each other, and not before there are
ten. -/
theorem lists_are_chronological_but_for_ties (ops : List (Instant × Operation)) (xs : List Bead)
    (hclock : (empty.readings ops).Pairwise fun t u => t.notAfter u)
    (hxs : xs = (empty.run ops).ready ∨ ∃ q, xs = (empty.run ops).list q) :
    (Chronological ops xs ↔ ∀ a ∈ xs, ∀ b ∈ xs, ¬ Overtakes a b) ∧
      (∀ a ∈ xs, ∀ b ∈ xs, a.priority = b.priority → Earlier a.id b.id →
        Overtakes b a ∧ [b, a].Sublist xs ∨ ¬ Overtakes b a ∧ [a, b].Sublist xs) ∧
      ((empty.creations ops).length ≤ 9 → Chronological ops xs) ∧
      (((empty.creations ops).map (·.createdAt)).Nodup → Chronological ops xs) := by
  have hlisted : xs ⊆ (empty.run ops).beads ∧ Ascending xs := by
    rcases hxs with rfl | ⟨q, rfl⟩
    · exact ascending_of_run ops _
    · exact ascending_of_run ops _
  obtain ⟨hsub, hascending⟩ := hlisted
  have hiff := chronological_iff hclock hsub hascending
  refine ⟨hiff, fun a ha b hb => hascending.place hclock hsub ha hb, fun hfew => ?_,
    fun htimes => ?_⟩
  · exact hiff.2 fun a ha b _ => not_overtakes_of_few hfew (hsub ha)
  · exact hiff.2 fun a ha b hb => not_overtakes_of_nodup htimes (hsub ha) (hsub hb)

/-- Ten beads are created while the clock stands still. -/
def tenAtOnce : List (Instant × Operation) :=
  List.replicate 10 (⟨0, 0⟩, .create ⟨"work", "", 2, .task, none, []⟩)

/-- The bead of a number among them. -/
def oneOfTen (n : Nat) : Bead :=
  drafted ⟨0, 0⟩ n "work" 2 [] ⟨"work", "", 2, .task, none, []⟩

theorem tenth_overtakes_second : Overtakes (oneOfTen 10) (oneOfTen 2) :=
  ⟨rfl, rfl, 10, 2, rfl, rfl, by decide, by decide +kernel⟩

theorem readings_tenAtOnce : (empty.readings tenAtOnce).Pairwise fun t u => t.notAfter u := by
  decide +kernel

theorem mem_list_tenAtOnce (n : Nat) (hn : n = 2 ∨ n = 10) :
    oneOfTen n ∈ (empty.run tenAtOnce).list {} := by
  rw [mem_list]
  rcases hn with rfl | rfl <;> decide +kernel

theorem mem_ready_tenAtOnce (n : Nat) (hn : n = 2 ∨ n = 10) :
    oneOfTen n ∈ (empty.run tenAtOnce).ready := by
  rw [mem_ready]
  rcases hn with rfl | rfl <;> decide +kernel

/-- Of ten beads of the same time, the tenth stands before the second, in the answer to a query and
among those that are ready. -/
theorem tenth_stands_before_second :
    (empty.readings tenAtOnce).Pairwise (fun t u => t.notAfter u) ∧
      [oneOfTen 10, oneOfTen 2].Sublist ((empty.run tenAtOnce).list {}) ∧
      [oneOfTen 10, oneOfTen 2].Sublist (empty.run tenAtOnce).ready ∧
      ¬ Chronological tenAtOnce (empty.run tenAtOnce).ready := by
  have hover : Overtakes (oneOfTen 10) (oneOfTen 2) := tenth_overtakes_second
  obtain ⟨-, hlist, -⟩ := lists_are_chronological_but_for_ties tenAtOnce
    ((empty.run tenAtOnce).list {}) readings_tenAtOnce (Or.inr ⟨{}, rfl⟩)
  obtain ⟨hiff, hready, -⟩ := lists_are_chronological_but_for_ties tenAtOnce
    (empty.run tenAtOnce).ready readings_tenAtOnce (Or.inl rfl)
  have hlisted := hlist _ (mem_list_tenAtOnce 2 (Or.inl rfl)) _
    (mem_list_tenAtOnce 10 (Or.inr rfl)) rfl hover.earlier
  have hsecond := mem_ready_tenAtOnce 2 (Or.inl rfl)
  have htenth := mem_ready_tenAtOnce 10 (Or.inr rfl)
  have hthere := hready _ hsecond _ htenth rfl hover.earlier
  refine ⟨readings_tenAtOnce, ?_, ?_, fun h => hiff.1 h _ htenth _ hsecond hover⟩
  · exact (hlisted.resolve_right fun h => h.1 hover).2
  · exact (hthere.resolve_right fun h => h.1 hover).2

/-- Not all lists are chronological, though the clock never goes back. -/
theorem lists_are_not_all_chronological :
    ¬ ∀ ops : List (Instant × Operation),
      (empty.readings ops).Pairwise (fun t u => t.notAfter u) →
        (∀ q, Chronological ops ((empty.run ops).list q)) ∧
          Chronological ops (empty.run ops).ready := by
  intro hall
  obtain ⟨hsub, hascending⟩ := ascending_of_run tenAtOnce (Query.accepts {})
  have hnone := (chronological_iff readings_tenAtOnce hsub hascending).1
    ((hall tenAtOnce readings_tenAtOnce).1 {})
  exact hnone _ (mem_list_tenAtOnce 10 (Or.inr rfl)) _ (mem_list_tenAtOnce 2 (Or.inl rfl))
    tenth_overtakes_second

end Store

end IssueTracker
