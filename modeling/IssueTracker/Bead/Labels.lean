/-
  IssueTracker/Bead/Labels.lean --- sets of labels.

  The labels of a bead are a set of texts.  It is kept as the list of its members in
  ascending order, so that a set has one form and is written in that order.
-/
import IssueTracker.Json.Read
import IssueTracker.Json.Value

set_option autoImplicit false

namespace IssueTracker

/-- A set of texts, as the ascending list of its members. -/
structure Labels where
  items : List String
  ascending : items.Pairwise (· < ·)
  deriving DecidableEq

namespace Labels

/-! ## Ascending lists -/

/-- Puts a text in its place in an ascending list that may hold it already. -/
def insertItem (l : String) : List String → List String
  | [] => [l]
  | m :: ms => if l < m then l :: m :: ms else if l = m then m :: ms else m :: insertItem l ms

theorem mem_insertItem {l x : String} {ms : List String} :
    x ∈ insertItem l ms ↔ x = l ∨ x ∈ ms := by
  induction ms with
  | nil => simp [insertItem]
  | cons m ms ih =>
      unfold insertItem
      split
      · simp
      · split
        · rename_i h
          subst h
          simp
        · simp only [List.mem_cons, ih]
          constructor
          · rintro (h | h | h) <;> simp [h]
          · rintro (h | h | h) <;> simp [h]

theorem pairwise_insertItem {l : String} {ms : List String} (h : ms.Pairwise (· < ·)) :
    (insertItem l ms).Pairwise (· < ·) := by
  induction ms with
  | nil => simp [insertItem]
  | cons m ms ih =>
      rw [List.pairwise_cons] at h
      unfold insertItem
      split
      · rename_i hlt
        refine List.pairwise_cons.2 ⟨?_, List.pairwise_cons.2 h⟩
        intro x hx
        rcases List.mem_cons.1 hx with rfl | hx
        · exact hlt
        · exact String.lt_trans hlt (h.1 x hx)
      · split
        · exact List.pairwise_cons.2 h
        · rename_i hlt hne
          refine List.pairwise_cons.2 ⟨?_, ih h.2⟩
          intro x hx
          rcases mem_insertItem.1 hx with rfl | hx
          · rcases Classical.em (m < x) with hmx | hmx
            · exact hmx
            · exact absurd (String.le_antisymm (String.not_lt.1 hmx) (String.not_lt.1 hlt)) hne
          · exact h.1 x hx

/-! ## The operations -/

/-- No labels. -/
def empty : Labels := ⟨[], List.Pairwise.nil⟩

instance : Inhabited Labels := ⟨empty⟩

instance : Membership String Labels := ⟨fun ls l => l ∈ ls.items⟩

theorem mem_def {l : String} {ls : Labels} : l ∈ ls ↔ l ∈ ls.items := Iff.rfl

instance (l : String) (ls : Labels) : Decidable (l ∈ ls) :=
  inferInstanceAs (Decidable (l ∈ ls.items))

/-- The set with one label more. -/
def insert (l : String) (ls : Labels) : Labels :=
  ⟨insertItem l ls.items, pairwise_insertItem ls.ascending⟩

/-- The set without a label. -/
def erase (l : String) (ls : Labels) : Labels :=
  ⟨ls.items.filter (· != l), ls.ascending.filter _⟩

/-- The set of the members of a list. -/
def ofList (ls : List String) : Labels := ls.foldl (fun s l => s.insert l) empty

@[simp] theorem mem_insert {l x : String} {ls : Labels} : x ∈ ls.insert l ↔ x = l ∨ x ∈ ls :=
  mem_insertItem

@[simp] theorem mem_erase {l x : String} {ls : Labels} : x ∈ ls.erase l ↔ x ∈ ls ∧ x ≠ l := by
  simp [mem_def, erase]

@[simp] theorem not_mem_empty {l : String} : ¬ l ∈ empty := by simp [mem_def, empty]

theorem mem_foldl_insert {x : String} {ls : List String} {s : Labels} :
    x ∈ ls.foldl (fun s l => s.insert l) s ↔ x ∈ s ∨ x ∈ ls := by
  induction ls generalizing s with
  | nil => simp
  | cons l ls ih =>
      rw [List.foldl_cons, ih, mem_insert, List.mem_cons]
      constructor
      · rintro ((h | h) | h) <;> simp [h]
      · rintro (h | h | h) <;> simp [h]

@[simp] theorem mem_ofList {x : String} {ls : List String} : x ∈ ofList ls ↔ x ∈ ls := by
  simp [ofList, mem_foldl_insert]

/-! ## JSON -/

/-- The labels in ascending order. -/
def toJson (ls : Labels) : Json := .list (ls.items.map .text)

/-- Reads a list of texts in any order. -/
def read : Json.Reader Labels := fun d => (d.asList Json.Doc.asText).map ofList

end Labels

end IssueTracker
