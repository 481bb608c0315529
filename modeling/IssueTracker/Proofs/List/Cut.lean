/-
  IssueTracker/Proofs/List/Cut.lean --- lists cut into parts.

  The history of the hub keeps the end of a list, the pages of the ledger and the answer of the
  history are what comes behind some item, and an operation of the store takes out one item.  The
  lemmas say when two ways to cut are one, and that the parts by some key are the whole list.
-/
import Mathlib.Data.List.DropRight

set_option autoImplicit false

namespace IssueTracker

variable {α : Type} {xs ys : List α} {n : Nat}

/-- What is older than the last `n` does not count for the last `n`. -/
theorem rtake_append_of_le (hle : n ≤ ys.length) : (xs ++ ys).rtake n = ys.rtake n := by
  simp only [List.rtake, List.length_append]
  have hcut : xs.length + ys.length - n = xs.length + (ys.length - n) := by omega
  rw [hcut, List.drop_length_add_append]

/-- The whole list is its own end if there is room for it. -/
theorem rtake_of_length_le (hle : xs.length ≤ n) : xs.rtake n = xs := by
  simp only [List.rtake]
  rw [Nat.sub_eq_zero_of_le hle, List.drop_zero]

/-- To keep the last `n` and then more, and the last `n` of that, is to keep the last `n` of
all. -/
theorem rtake_rtake_append (xs ys : List α) (n : Nat) :
    (xs.rtake n ++ ys).rtake n = (xs ++ ys).rtake n := by
  by_cases hle : xs.length ≤ n
  · rw [rtake_of_length_le hle]
  · have hsplit : xs.take (xs.length - n) ++ xs.rtake n = xs := List.take_append_drop _ _
    have hlong : n ≤ (xs.rtake n ++ ys).length := by
      simp only [List.rtake, List.length_append, List.length_drop]
      omega
    calc (xs.rtake n ++ ys).rtake n
        = (xs.take (xs.length - n) ++ (xs.rtake n ++ ys)).rtake n := (rtake_append_of_le hlong).symm
      _ = (xs ++ ys).rtake n := by rw [← List.append_assoc, hsplit]

/-- An item that does not count can be left out. -/
theorem filter_middle_of_neg {p : α → Bool} {x : α} (hx : p x = false) (before after : List α) :
    (before ++ x :: after).filter p = (before ++ after).filter p := by
  rw [List.filter_append, List.filter_append, List.filter_cons_of_neg (by simp [hx])]

/-- Where a list passes from items that do not count to items that do, it is cut by the filter. -/
theorem filter_eq_drop {p : α → Bool} {k : Nat} (hbefore : ∀ x ∈ xs.take k, ¬ p x)
    (hbehind : ∀ x ∈ xs.drop k, p x) : xs.filter p = xs.drop k := by
  conv_lhs => rw [← List.take_append_drop k xs]
  rw [List.filter_append, List.filter_eq_nil_iff.2 hbefore, List.filter_eq_self.2 hbehind,
    List.nil_append]

/-- Distinct keys part a list that has no other keys. -/
theorem perm_flatMap_filter {κ : Type} [DecidableEq κ] {key : α → κ} {keys : List κ}
    (hkeys : keys.Nodup) (hxs : ∀ x ∈ xs, key x ∈ keys) :
    (keys.flatMap fun k => xs.filter (key · == k)).Perm xs := by
  induction keys generalizing xs with
  | nil =>
      have hnil : xs = [] := List.eq_nil_iff_forall_not_mem.2 fun x hx => by simpa using hxs x hx
      rw [hnil]
      exact List.Perm.nil
  | cons k keys ih =>
      obtain ⟨hk, hkeys⟩ := List.nodup_cons.1 hkeys
      -- The items with other keys are parted by these as all items are.
      have hothers : (keys.flatMap fun k' => xs.filter (key · == k')) =
          keys.flatMap fun k' => (xs.filter (key · != k)).filter (key · == k') := by
        refine List.flatMap_congr fun k' hk' => ?_
        rw [List.filter_filter]
        refine List.filter_congr fun x _ => ?_
        by_cases hx : key x = k'
        · have hne : key x ≠ k := fun heq => hk (heq ▸ hx ▸ hk')
          simp [hx, hx ▸ hne]
        · simp [hx]
      have hrest : ∀ x ∈ xs.filter (key · != k), key x ∈ keys := by
        intro x hx
        obtain ⟨hx, hne⟩ := List.mem_filter.1 hx
        exact (List.mem_cons.1 (hxs x hx)).resolve_left (by simpa using hne)
      rw [List.flatMap_cons, hothers]
      exact ((ih hkeys hrest).append_left _).trans (List.filter_append_perm _ xs)

end IssueTracker
