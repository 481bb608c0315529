/-
  IssueTracker/Proofs/Hub/Circle.lean --- the history never leaves its slots.

  A history has it in its type that the cursor points to a slot.  A `Circle` has the same slots and
  the same cursor and knows nothing of them: to append to it, or to read it, fails where a slot is
  named that is not there.  It does what the history does (`append?_circle`, `toList?_circle`), so
  no run that begins with an empty history fails.
-/
import IssueTracker.Proofs.Hub.History

set_option autoImplicit false

namespace IssueTracker

/-- Slots and a cursor of which nothing is known. -/
structure Circle where
  slots : Array Event
  capacity : Nat
  cursor : Nat
  deriving DecidableEq

namespace Circle

/-- The circle with one event more; none if the event would take a slot that is not there, or if
there is no room to go around in. -/
def append? (e : Event) (c : Circle) : Option Circle :=
  if c.capacity = 0 then none
  else if c.slots.size < c.capacity then
    some { c with slots := c.slots.push e, cursor := (c.cursor + 1) % c.capacity }
  else if hslot : c.cursor < c.slots.size then
    some { c with slots := c.slots.set c.cursor e hslot, cursor := (c.cursor + 1) % c.capacity }
  else none

/-- Where the circle is cut to be read. -/
def start (c : Circle) : Nat := if c.slots.size < c.capacity then 0 else c.cursor

/-- The events from the oldest to the newest; none if the circle would be cut behind its slots. -/
def toList? (c : Circle) : Option (List Event) :=
  if c.start ≤ c.slots.size then
    some (c.slots.toList.drop c.start ++ c.slots.toList.take c.start)
  else none

end Circle

namespace History

/-- The slots and the cursor of a history. -/
def circle (h : History) : Circle := ⟨h.slots, h.capacity, h.cursor⟩

/-! ## One event -/

theorem append?_circle (e : Event) (h : History) :
    h.circle.append? e = some (h.append e).circle := by
  have hsome : ¬ h.circle.capacity = 0 := Nat.ne_of_gt h.capacity_pos
  unfold Circle.append? append
  rw [if_neg hsome]
  by_cases hroom : h.slots.size < h.capacity
  · have hroom' : h.circle.slots.size < h.circle.capacity := hroom
    rw [if_pos hroom', dif_pos hroom]
    rfl
  · have hroom' : ¬ h.circle.slots.size < h.circle.capacity := hroom
    have hslot : h.circle.cursor < h.circle.slots.size :=
      Nat.lt_of_lt_of_le h.cursor_lt (Nat.le_of_not_lt hroom)
    rw [if_neg hroom', dif_pos hslot, dif_neg hroom]
    rfl

theorem toList?_circle (h : History) : h.circle.toList? = some h.toList :=
  if_pos h.start_le_size

theorem cursor_append (e : Event) (h : History) :
    (h.append e).cursor = (h.cursor + 1) % h.capacity := by
  unfold append
  split <;> rfl

/-! ## Many events -/

/-- A circle that begins as a history takes all events, and stays the circle of the history. -/
theorem foldlM_append?_circle (es : List Event) (h : History) :
    es.foldlM (fun c e => c.append? e) h.circle =
      some (es.foldl (fun h e => h.append e) h).circle := by
  induction es generalizing h with
  | nil => rfl
  | cons e es ih =>
      rw [List.foldlM_cons, append?_circle, List.foldl_cons]
      exact ih (h.append e)

/-- The cursor goes around with the count of the events. -/
theorem cursor_foldl_append (es : List Event) (h : History) :
    (es.foldl (fun h e => h.append e) h).cursor = (h.cursor + es.length) % h.capacity := by
  induction es generalizing h with
  | nil => exact (Nat.mod_eq_of_lt h.cursor_lt).symm
  | cons e es ih =>
      rw [List.foldl_cons, ih, capacity_append, cursor_append, Nat.mod_add_mod, List.length_cons,
        Nat.add_assoc, Nat.add_comm 1]

/-- Whatever room is asked for and whatever numbers the events have, the history is the end of the
list of all events that came: it has as many of the latest as there is room for, one at least,
in their order.  Its size, its oldest number and what it answers after a number are those of these
events.  The cursor is found by counting all events around the circle; no event ever goes to a slot
that is not there, and the circle is never cut behind its slots. -/
theorem history_is_the_latest_events (capacity : Nat) (es : List Event) :
    let room := max capacity 1
    let latest := es.drop (es.length - room)
    let h := es.foldl (fun h e => h.append e) (ofCapacity capacity)
    h.toList = latest ∧ latest.length = min es.length room ∧ h.size = min es.length room ∧
      h.oldest? = latest.head?.map (·.sequence) ∧
      (∀ last, h.since last = latest.filter (last < ·.sequence)) ∧
      h.cursor = es.length % room ∧
      es.foldlM (fun c e => c.append? e) (ofCapacity capacity).circle = some h.circle ∧
      h.circle.toList? = some latest := by
  intro room latest h
  have hlist : h.toList = latest := by
    rw [toList_foldl_append, toList_ofCapacity, List.nil_append]
    rfl
  have hlength : latest.length = min es.length room := by
    rw [List.length_drop]
    omega
  refine ⟨hlist, hlength, ?_, ?_, fun last => ?_, ?_, foldlM_append?_circle es _, ?_⟩
  · rw [← length_toList, hlist, hlength]
  · rw [oldest?, hlist]
  · rw [since, hlist]
  · rw [cursor_foldl_append]
    exact congrArg (· % room) (Nat.zero_add _)
  · rw [toList?_circle, hlist]

end History

end IssueTracker
