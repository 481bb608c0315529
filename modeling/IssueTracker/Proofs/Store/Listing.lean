/-
  IssueTracker/Proofs/Store/Listing.lean --- lists of beads do not depend on how the beads are kept.

  The order in which beads are listed compares their ranks (`Bead.listsBefore_iff`), and two beads
  of a store never have the same rank, because the identity is a part of it.  So a list ascends
  strictly (`ascending_listed`), and the same beads make one such list only
  (`Ascending.eq_of_perm`).  From this it follows that a list is the same in whatever order the
  store holds its beads, and that the ready beads are a part of the list of the open ones.
-/
import IssueTracker.Proofs.Store.Progress
import Mathlib.Data.Prod.Lex
import Mathlib.Data.String.Basic

set_option autoImplicit false

namespace IssueTracker

/-! ## Ranks -/

/-- An instant as a pair that is compared by seconds, then nanoseconds. -/
def Instant.rank (t : Instant) : ℤ ×ₗ ℕ := toLex (t.seconds, t.nanos)

theorem Instant.notAfter_iff_rank {a b : Instant} : a.notAfter b = true ↔ a.rank ≤ b.rank := by
  rw [notAfter_iff, rank, rank, Prod.Lex.toLex_le_toLex]

theorem Instant.rank_inj {a b : Instant} : a.rank = b.rank ↔ a = b := by
  refine ⟨fun h => ?_, congrArg rank⟩
  apply notAfter_antisymm
  · exact notAfter_iff_rank.2 h.le
  · exact notAfter_iff_rank.2 h.ge

/-- What decides on the place of a bead in a list: its priority, then the time of its creation, then
its identity as a text. -/
def Bead.rank (b : Bead) : ℕ ×ₗ (ℤ ×ₗ ℕ) ×ₗ String :=
  toLex (b.priority, toLex (b.createdAt.rank, b.id))

theorem Bead.listsBefore_iff {a b : Bead} : a.listsBefore b = true ↔ a.rank ≤ b.rank := by
  rw [rank, rank, Prod.Lex.toLex_le_toLex, Prod.Lex.toLex_le_toLex]
  unfold listsBefore
  by_cases hpriority : a.priority = b.priority
  · by_cases hcreated : a.createdAt = b.createdAt
    · simp [hpriority, hcreated]
    · have hrank : a.createdAt.rank ≠ b.createdAt.rank := mt Instant.rank_inj.1 hcreated
      simp [hpriority, hcreated, hrank, Instant.notAfter_iff_rank, hrank.le_iff_lt]
  · simp [hpriority]

theorem Bead.id_eq_of_rank_eq {a b : Bead} (h : a.rank = b.rank) : a.id = b.id := by
  simp only [rank, toLex_inj, Prod.mk.injEq] at h
  exact h.2.2

/-! ## Criteria -/

theorem Query.accepts_iff {q : Query} {b : Bead} :
    q.accepts b = true ↔ (∀ status, q.status = some status → b.status = status) ∧
      (∀ label, q.label = some label → label ∈ b.labels) ∧
        ∀ assignee, q.assignee = some assignee → b.assignee = some assignee := by
  obtain ⟨status, label, assignee⟩ := q
  cases status <;> cases label <;> cases assignee <;> simp [accepts, and_assoc]

namespace Store

variable {s : Store} {q : Query} {b : Bead} {xs ys : List Bead}

/-! ## Ascending lists -/

/-- Every bead of the list has a lower rank than those after it. -/
def Ascending (xs : List Bead) : Prop := xs.Pairwise fun a b => a.rank < b.rank

theorem Ascending.nodup (h : Ascending xs) : xs.Nodup :=
  h.imp fun hlt heq => absurd (congrArg Bead.rank heq) hlt.ne

/-- The beads of an ascending list have one order only. -/
theorem Ascending.eq_of_perm (hxs : Ascending xs) (hys : Ascending ys) (hperm : xs.Perm ys) :
    xs = ys :=
  hperm.eq_of_pairwise (fun _ _ _ _ hab hba => absurd hba hab.asymm) hxs hys

theorem listed_perm (xs : List Bead) : (listed xs).Perm xs := List.mergeSort_perm xs _

/-- Beads with different identities are listed by rank. -/
theorem ascending_listed (h : (xs.map (·.id)).Nodup) : Ascending (listed xs) := by
  have hsorted : (listed xs).Pairwise fun a b => a.listsBefore b = true := by
    apply List.pairwise_mergeSort
    · intro a b c hab hbc
      rw [Bead.listsBefore_iff] at *
      exact hab.trans hbc
    · intro a b
      rw [Bool.or_eq_true, Bead.listsBefore_iff, Bead.listsBefore_iff]
      exact le_total a.rank b.rank
  have hids : (listed xs).Pairwise fun a b => a.id ≠ b.id :=
    List.pairwise_map.1 (((listed_perm xs).map _).nodup_iff.2 h)
  refine (hsorted.and hids).imp fun {a b} hab => ?_
  exact (Bead.listsBefore_iff.1 hab.1).lt_of_ne (mt Bead.id_eq_of_rank_eq hab.2)

/-- The same beads are listed the same, in whatever order they come. -/
theorem listed_eq_of_perm (hperm : xs.Perm ys) (h : (xs.map (·.id)).Nodup) :
    listed xs = listed ys := by
  have hys : (ys.map (·.id)).Nodup := (hperm.map _).nodup_iff.1 h
  apply (ascending_listed h).eq_of_perm (ascending_listed hys)
  exact (listed_perm xs).trans (hperm.trans (listed_perm ys).symm)

/-- It does not matter whether beads are chosen before they are listed or after it. -/
theorem filter_listed (p : Bead → Bool) (h : (xs.map (·.id)).Nodup) :
    (listed xs).filter p = listed (xs.filter p) := by
  have hchosen : ((xs.filter p).map (·.id)).Nodup := (List.filter_sublist.map _).nodup h
  have hascending : Ascending ((listed xs).filter p) := (ascending_listed h).filter p
  apply hascending.eq_of_perm (ascending_listed hchosen)
  exact ((listed_perm xs).filter p).trans (listed_perm _).symm

/-! ## Lists of the store -/

theorem mem_list : b ∈ s.list q ↔ b ∈ s.beads ∧ q.accepts b = true := by
  rw [list, (listed_perm _).mem_iff, List.mem_filter]

theorem Numbered.nodup_map_filter (h : Numbered s) (p : Bead → Bool) :
    ((s.beads.filter p).map (·.id)).Nodup :=
  (List.filter_sublist.map _).nodup h.distinct

/-- The store with its beads in another order. -/
def reordered (s : Store) (order : List Bead) : Store := { s with beads := order }

theorem Numbered.reordered {order : List Bead} (h : Numbered s) (hperm : order.Perm s.beads) :
    Numbered (s.reordered order) where
  issued id hid := h.issued id ((hperm.map _).mem_iff.1 hid)
  distinct := (hperm.map _).nodup_iff.2 h.distinct

/-- A bead is found under its identity in whatever order the beads are kept. -/
theorem Numbered.get?_reordered {order : List Bead} (h : Numbered s) (hperm : order.Perm s.beads)
    (id : String) : (s.reordered order).get? id = s.get? id := by
  apply Option.ext
  intro b
  rw [h.get?_eq_some_iff, (h.reordered hperm).get?_eq_some_iff]
  exact and_congr_left fun _ => hperm.mem_iff

theorem Numbered.isReady_reordered {order : List Bead} (h : Numbered s)
    (hperm : order.Perm s.beads) : (s.reordered order).isReady = s.isReady := by
  have hsettled : (s.reordered order).isSettled = s.isSettled := by
    funext id
    rw [isSettled, isSettled, h.get?_reordered hperm]
  funext b
  rw [isReady, isReady, hsettled]
  rfl

/-- Are all beads closed to which a blocking edge leads from the bead? -/
def Unblocked (s : Store) (b : Bead) : Prop :=
  ∀ p ∈ Graph.prerequisites s.dependencies b.id, ∃ a ∈ s.beads, a.id = p ∧ a.status = .closed

instance (s : Store) (b : Bead) : Decidable (s.Unblocked b) :=
  inferInstanceAs (Decidable (∀ p ∈ Graph.prerequisites s.dependencies b.id,
    ∃ a ∈ s.beads, a.id = p ∧ a.status = .closed))

theorem isReady_iff (hs : Sound s) (hn : Numbered s) :
    s.isReady b = true ↔ b.status = .opened ∧ s.Unblocked b := by
  rw [isReady, Bool.and_eq_true, decide_eq_true_eq, List.all_eq_true]
  refine and_congr_right fun _ => forall₂_congr fun p hp => ?_
  simp only [hs.isSettled_iff hp, hn.get?_eq_some_iff, and_assoc]

/-- What is ready is chosen from the list of the open beads. -/
theorem ready_eq_filter_list (hs : Sound s) (hn : Numbered s) :
    s.ready = (s.list { status := some .opened }).filter fun b => decide (s.Unblocked b) := by
  rw [list, filter_listed _ (hn.nodup_map_filter _), List.filter_filter, ready]
  congr 1
  apply List.filter_congr
  intro b _
  rw [Bool.eq_iff_iff, isReady_iff hs hn, Bool.and_eq_true, decide_eq_true_eq, and_comm]
  refine and_congr_right fun _ => ?_
  simp [Query.accepts]

/-- After any operations, a query lists the beads that meet all its criteria, each once and by
ascending rank, and the ready beads are those of the list of the open ones that are unblocked.
Neither depends on the order in which the store holds its beads. -/
theorem lists_are_exact (before : List (Instant × Operation)) :
    let s := empty.run before
    (∀ q : Query, (s.list q).Nodup ∧ (s.list q).Pairwise (fun a b => a.rank < b.rank) ∧
        ∀ b, b ∈ s.list q ↔ b ∈ s.beads ∧
          (∀ status, q.status = some status → b.status = status) ∧
          (∀ label, q.label = some label → label ∈ b.labels) ∧
          ∀ assignee, q.assignee = some assignee → b.assignee = some assignee) ∧
      (∀ order : List Bead, order.Perm s.beads →
        (∀ q : Query, (s.reordered order).list q = s.list q) ∧
          (s.reordered order).ready = s.ready) ∧
      s.ready = (s.list { status := some .opened }).filter fun b => decide (s.Unblocked b) := by
  intro s
  have hs : Sound s := Sound.empty.run before
  have hn : Numbered s := Numbered.empty.run before
  refine ⟨fun q => ?_, fun order hperm => ?_, ready_eq_filter_list hs hn⟩
  · have hascending : Ascending (s.list q) := ascending_listed (hn.nodup_map_filter _)
    refine ⟨hascending.nodup, hascending, fun b => ?_⟩
    rw [mem_list, Query.accepts_iff]
  · have hsame : ∀ p : Bead → Bool, listed (order.filter p) = listed (s.beads.filter p) :=
      fun p => listed_eq_of_perm (hperm.filter p) ((hn.reordered hperm).nodup_map_filter p)
    refine ⟨fun q => hsame q.accepts, ?_⟩
    rw [ready, hn.isReady_reordered hperm]
    exact hsame s.isReady

/-- Three beads of one instant.  The second is the most urgent; the others are listed by identity,
also if the store holds the last one first.  The first waits for the third. -/
theorem reversed_beads_are_listed_alike :
    let t : Instant := ⟨0, 0⟩
    let draft (priority : Nat) : Draft := ⟨"work", "", priority, .task, none, []⟩
    let bead (id : String) (priority : Nat) : Bead :=
      ⟨id, "work", "", .opened, priority, .task, none, Labels.empty, t, t, none, none⟩
    let ops : List (Instant × Operation) :=
      [(t, .create (draft 2)), (t, .create (draft 1)), (t, .create (draft 2)),
        (t, .addDependency "bd-1" "bd-3" .blocks)]
    let reversed := (empty.run ops).reordered [bead "bd-3" 2, bead "bd-2" 1, bead "bd-1" 2]
    reversed.list { status := some .opened } = [bead "bd-2" 1, bead "bd-1" 2, bead "bd-3" 2] ∧
      reversed.ready = [bead "bd-2" 1, bead "bd-3" 2] := by
  intro t draft bead ops reversed
  obtain ⟨hexact, hsame, hchosen⟩ := lists_are_exact ops
  obtain ⟨hlists, hready⟩ := hsame [bead "bd-3" 2, bead "bd-2" 1, bead "bd-1" 2] (by decide +kernel)
  have hopened : (empty.run ops).list { status := some .opened } =
      [bead "bd-2" 1, bead "bd-1" 2, bead "bd-3" 2] := by
    apply Ascending.eq_of_perm (hexact { status := some .opened }).2.1
    · unfold Ascending
      decide +kernel
    · exact (listed_perm _).trans (by decide +kernel)
  refine ⟨(hlists _).trans hopened, ?_⟩
  rw [hready, hchosen, hopened]
  decide +kernel

end Store

end IssueTracker
