/-
  IssueTracker/Proofs/Hub/History.lean --- the circle of slots as a list.

  `toList_append` says that a new event goes behind the others, and that of all events so many
  stay, from the newest on, as there is room for.  `toList_foldl_append` says the same of many
  events: what is retained are the latest of all that ever came.
-/
import IssueTracker.Hub.History
import IssueTracker.Proofs.List.Cut

set_option autoImplicit false

namespace IssueTracker

namespace History

variable {e : Event} {h : History}

/-! ## One event -/

@[simp] theorem capacity_append (e : Event) (h : History) :
    (h.append e).capacity = h.capacity := by
  unfold append
  split <;> rfl

theorem capacity_pos (h : History) : 0 < h.capacity :=
  Nat.lt_of_le_of_lt (Nat.zero_le _) h.cursor_lt

@[simp] theorem toList_ofCapacity (capacity : Nat) : (ofCapacity capacity).toList = [] := by
  simp [toList, ofCapacity]

/-- The circle is read from one of its slots, or from behind the last one. -/
theorem start_le_size (h : History) : h.start ≤ h.slots.size := by
  unfold start
  have := h.cursor_lt
  split <;> omega

theorem length_toList (h : History) : h.toList.length = h.size := by
  have := h.start_le_size
  simp only [toList, size, List.length_append, List.length_drop, List.length_take,
    Array.length_toList]
  omega

/-- While there is room, nothing is lost. -/
theorem toList_append_of_lt (hroom : h.slots.size < h.capacity) :
    (h.append e).toList = h.toList ++ [e] := by
  have hnext : (h.append e).start = 0 := by
    simp only [start, append, dif_pos hroom, Array.size_push]
    split
    · rfl
    · -- The last slot was taken: the cursor is back at the first one.
      have hlast : h.slots.size + 1 = h.capacity := by omega
      rw [h.cursor_eq hroom, hlast, Nat.mod_self]
  have hslots : (h.append e).slots.toList = h.slots.toList ++ [e] := by
    simp only [append, dif_pos hroom, Array.toList_push]
  have hold : h.start = 0 := if_pos hroom
  rw [toList, toList, hnext, hold, hslots, List.drop_zero, List.take_zero, List.append_nil,
    List.drop_zero, List.take_zero, List.append_nil]

/-- Without room, the oldest event is lost. -/
theorem toList_append_of_not_lt (hfull : ¬ h.slots.size < h.capacity) :
    (h.append e).toList = h.toList.tail ++ [e] := by
  have hsize : h.slots.toList.length = h.capacity := by
    have := h.size_le
    rw [Array.length_toList]
    omega
  have hcursor : h.cursor < h.slots.toList.length := hsize ▸ h.cursor_lt
  have hslots : (h.append e).slots.toList = h.slots.toList.set h.cursor e := by
    simp only [append, dif_neg hfull, Array.toList_set]
  have hstart : (h.append e).start = (h.cursor + 1) % h.capacity := by
    simp only [start, append, dif_neg hfull, Array.size_set, if_neg hfull]
  have hold : h.toList.tail = h.slots.toList.drop (h.cursor + 1) ++ h.slots.toList.take h.cursor := by
    simp only [toList, start, if_neg hfull]
    rw [List.drop_eq_getElem_cons hcursor, List.cons_append, List.tail_cons]
  have hnew : (h.slots.toList.set h.cursor e).take (h.cursor + 1) =
      h.slots.toList.take h.cursor ++ [e] := by
    rw [List.take_succ_eq_append_getElem (by simpa using hcursor), List.getElem_set_self,
      List.take_set_of_le (Nat.le_refl _)]
  rw [hold, toList, hslots, hstart]
  by_cases hwrap : h.cursor + 1 = h.capacity
  · -- The slot of the last event in the circle: reading starts over at the first slot.
    have hall : (h.slots.toList.set h.cursor e).take (h.cursor + 1) =
        h.slots.toList.set h.cursor e := by
      rw [hwrap, ← hsize]
      exact List.take_of_length_le (by simp)
    have hnone : h.slots.toList.drop (h.cursor + 1) = [] := by
      rw [hwrap, ← hsize]
      exact List.drop_length
    rw [hwrap, Nat.mod_self, List.drop_zero, List.take_zero, List.append_nil, ← hwrap, hnone,
      List.nil_append, ← hnew, hall]
  · have hlt : h.cursor + 1 < h.capacity := by omega
    rw [Nat.mod_eq_of_lt hlt, hnew, List.drop_set_of_lt (Nat.lt_succ_self _), List.append_assoc]

/-- A new event goes behind the others, and the latest stay for which there is room. -/
theorem toList_append (e : Event) (h : History) :
    (h.append e).toList = (h.toList ++ [e]).rtake h.capacity := by
  have hlength := h.length_toList
  by_cases hroom : h.slots.size < h.capacity
  · have hfits : (h.toList ++ [e]).length ≤ h.capacity := by
      rw [List.length_append, hlength]
      exact hroom
    rw [toList_append_of_lt hroom, rtake_of_length_le hfits]
  · have hsize : h.toList.length = h.capacity := by
      rw [hlength]
      exact Nat.le_antisymm h.size_le (Nat.le_of_not_lt hroom)
    rw [toList_append_of_not_lt hroom]
    cases hold : h.toList with
    | nil =>
        have := h.capacity_pos
        rw [hold, List.length_nil] at hsize
        omega
    | cons x rest =>
        rw [hold, List.length_cons] at hsize
        rw [List.tail_cons, ← hsize, List.cons_append, List.rtake, List.length_cons,
          List.length_append, List.length_singleton, Nat.add_sub_cancel_left, List.drop_one,
          List.tail_cons]

/-! ## Many events -/

/-- What is retained are the latest of all events that came. -/
theorem toList_foldl_append (es : List Event) (h : History) :
    (es.foldl (fun h e => h.append e) h).toList = (h.toList ++ es).rtake h.capacity := by
  induction es generalizing h with
  | nil =>
      rw [List.foldl_nil, List.append_nil, rtake_of_length_le]
      rw [length_toList]
      exact h.size_le
  | cons e es ih =>
      rw [List.foldl_cons, ih, toList_append, capacity_append, rtake_rtake_append,
        List.append_assoc, List.singleton_append]

end History

end IssueTracker
