/-
  IssueTracker/Proofs/Http/Header.lean --- what the headers of a request tell.

  Of the headers of a name the first one counts (`sent?`), and only if it is plain text.  Where a
  text is wanted, the blanks around it do not count, and nothing but blanks tells nothing
  (`Tells`).  What is not told has a value all the same: `TellsOr` says which.
-/
import IssueTracker.Http.Request

set_option autoImplicit false

namespace IssueTracker

namespace Http.Request

variable {r : Request} {name value fallback text : String}

/-- The value of the first header of a name, as it is sent. -/
def sent? (r : Request) (name : String) : Option String :=
  (r.headers.find? fun h => sameName h.1 name).map (·.2)

/-- Is a value plain text? -/
def isPlain (value : String) : Bool := value.toList.all isHeaderChar

/-- A header that is not plain text does not count. -/
theorem header?_eq_some_iff :
    r.header? name = some value ↔ r.sent? name = some value ∧ isPlain value = true := by
  unfold header? sent? isPlain
  cases r.headers.find? fun h => sameName h.1 name with
  | none => simp
  | some h =>
      simp only [Option.map_some, Option.ite_none_right_eq_some, Option.some.injEq]
      constructor
      · rintro ⟨hplain, rfl⟩
        exact ⟨rfl, hplain⟩
      · rintro ⟨rfl, hplain⟩
        exact ⟨hplain, rfl⟩

/-- The first header of a name tells a text: it is plain, and the text is what is left of it
without the blanks around it. -/
def Tells (r : Request) (name text : String) : Prop :=
  ∃ value, r.sent? name = some value ∧ isPlain value = true ∧ Text.trimmed value = text ∧
    text ≠ ""

/-- The first header of a name tells a text, or none does and the text is another one. -/
def TellsOr (r : Request) (name fallback text : String) : Prop :=
  r.Tells name text ∨ (∀ told, ¬ r.Tells name told) ∧ text = fallback

theorem headerText?_eq_some_iff : r.headerText? name = some text ↔ r.Tells name text := by
  unfold headerText?
  constructor
  · intro h
    split at h
    · next value hvalue =>
      obtain ⟨hsent, hplain⟩ := header?_eq_some_iff.1 hvalue
      split at h
      · cases h
      · next hne =>
        cases h
        exact ⟨value, hsent, hplain, rfl, hne⟩
    · cases h
  · rintro ⟨value, hsent, hplain, rfl, hne⟩
    rw [header?_eq_some_iff.2 ⟨hsent, hplain⟩]
    exact if_neg hne

theorem tellsOr_getD (r : Request) (name fallback : String) :
    r.TellsOr name fallback ((r.headerText? name).getD fallback) := by
  cases htext : r.headerText? name with
  | some text => exact Or.inl (headerText?_eq_some_iff.1 htext)
  | none =>
      refine Or.inr ⟨fun told htold => ?_, rfl⟩
      rw [← headerText?_eq_some_iff, htext] at htold
      cases htold

end Http.Request

end IssueTracker
