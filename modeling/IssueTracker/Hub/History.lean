/-
  IssueTracker/Hub/History.lean --- the latest events, in a circle of slots.

  The history keeps as many events as it has room for.  While there is room a new
  event takes a new slot; after that it takes the slot of the oldest event, which
  the cursor points to.  `toList` gives the events from the oldest to the newest.
-/
import IssueTracker.Hub.Event

set_option autoImplicit false

namespace IssueTracker

/-- The latest events. -/
structure History where
  slots : Array Event
  capacity : Nat
  /-- The slot of the oldest event, once all slots are taken. -/
  cursor : Nat
  size_le : slots.size ≤ capacity
  cursor_lt : cursor < capacity
  /-- While there is room, the cursor is where the next event goes. -/
  cursor_eq : slots.size < capacity → cursor = slots.size

namespace History

/-- A history without events.  It has room for one at least. -/
def ofCapacity (capacity : Nat) : History :=
  ⟨#[], max capacity 1, 0, by simp, by omega, fun _ => rfl⟩

instance : Inhabited History := ⟨ofCapacity 1⟩

/-- The history with one event more, and without the oldest if there was no room. -/
def append (e : Event) (h : History) : History :=
  if hroom : h.slots.size < h.capacity then
    { slots := h.slots.push e
      capacity := h.capacity
      cursor := (h.cursor + 1) % h.capacity
      size_le := by
        simp only [Array.size_push]
        omega
      cursor_lt := Nat.mod_lt _ (by omega)
      cursor_eq := by
        intro hmore
        simp only [Array.size_push] at hmore ⊢
        rw [h.cursor_eq hroom, Nat.mod_eq_of_lt hmore] }
  else
    { slots := h.slots.set h.cursor e (Nat.lt_of_lt_of_le h.cursor_lt (Nat.le_of_not_lt hroom))
      capacity := h.capacity
      cursor := (h.cursor + 1) % h.capacity
      size_le := by
        simp only [Array.size_set]
        exact h.size_le
      cursor_lt := Nat.mod_lt _ (Nat.lt_of_le_of_lt (Nat.zero_le _) h.cursor_lt)
      cursor_eq := by
        intro hmore
        simp only [Array.size_set] at hmore
        exact absurd hmore hroom }

/-- The slot from which the events are read. -/
def start (h : History) : Nat := if h.slots.size < h.capacity then 0 else h.cursor

/-- The events from the oldest to the newest. -/
def toList (h : History) : List Event :=
  h.slots.toList.drop h.start ++ h.slots.toList.take h.start

/-- The events after a sequence number, from the oldest to the newest. -/
def since (last : Nat) (h : History) : List Event := h.toList.filter (last < ·.sequence)

/-- How many events there are. -/
def size (h : History) : Nat := h.slots.size

/-- The sequence number of the oldest event. -/
def oldest? (h : History) : Option Nat := h.toList.head?.map (·.sequence)

end History

end IssueTracker
