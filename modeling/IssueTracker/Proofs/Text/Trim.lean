/-
  IssueTracker/Proofs/Text/Trim.lean --- what was trimmed has no blanks left to trim.

  Trimming takes blanks off the front and then off the end.  What it takes off the end never
  uncovers a blank at the front, so that a second trimming changes nothing (`trimmed_trimmed`).
  What has a blank at neither end is left as it is (`trim_eq_self_iff`), and nothing is left of
  a blank text (`trimmed_eq_empty_iff`).
-/
import IssueTracker.Text.Blank
import Mathlib.Data.List.DropRight

set_option autoImplicit false

namespace IssueTracker.Text

variable {cs : List Char}

theorem trimEnd_eq_rdropWhile (cs : List Char) : trimEnd cs = cs.rdropWhile isBlank := rfl

/-- The text of which no blank starts is left alone at the front. -/
theorem trimStart_eq_self (h : ∀ c, cs.head? = some c → isBlank c = false) :
    trimStart cs = cs := by
  cases cs with
  | nil => rfl
  | cons c cs =>
      have hc : ¬ isBlank c = true := by simp [h c rfl]
      exact List.dropWhile_cons_of_neg hc

/-- No blank starts what is left. -/
theorem isBlank_of_head?_trimStart {c : Char} (h : (trimStart cs).head? = some c) :
    isBlank c = false := by
  have hfirst := List.head?_dropWhile_not isBlank cs
  rw [trimStart] at h
  rw [h] at hfirst
  simpa using hfirst

theorem trim_front (cs : List Char) : trim cs <+: trimStart cs := by
  rw [trim, trimEnd_eq_rdropWhile]
  exact List.rdropWhile_prefix isBlank _

theorem trim_sublist (cs : List Char) : (trim cs).Sublist cs :=
  (trim_front cs).sublist.trans (List.dropWhile_sublist isBlank)

/-- To take blanks off the end uncovers none at the front. -/
theorem trimStart_trim (cs : List Char) : trimStart (trim cs) = trim cs := by
  apply trimStart_eq_self
  intro c hc
  obtain ⟨rest, hrest⟩ := trim_front cs
  have hhead : (trimStart cs).head? = some c := by
    rw [← hrest, List.head?_append, hc, Option.some_or]
  exact isBlank_of_head?_trimStart hhead

theorem trim_trim (cs : List Char) : trim (trim cs) = trim cs := by
  rw [trim, trimStart_trim, trim, trimEnd_eq_rdropWhile, trimEnd_eq_rdropWhile]
  exact List.rdropWhile_idempotent isBlank _

/-- A trimmed text is its own trimmed form. -/
@[simp] theorem trimmed_trimmed (s : String) : trimmed (trimmed s) = trimmed s := by
  rw [trimmed, toList_trimmed, trim_trim, trimmed]

/-- A text is left as it is if no blank starts it and none ends it. -/
theorem trim_eq_self_iff :
    trim cs = cs ↔ (∀ c, cs.head? = some c → isBlank c = false) ∧
      ∀ c, cs.getLast? = some c → isBlank c = false := by
  have hend : trimEnd cs = cs ↔ ∀ c, cs.getLast? = some c → isBlank c = false := by
    rw [trimEnd_eq_rdropWhile, List.rdropWhile_eq_self_iff]
    cases cs using List.reverseRecOn with
    | nil => simp
    | append_singleton cs c => simp
  constructor
  · intro hsame
    have hstart : trimStart cs = cs := by rw [← hsame, trimStart_trim]
    refine ⟨fun c hc => isBlank_of_head?_trimStart (hstart.symm ▸ hc), hend.1 ?_⟩
    rwa [trim, hstart] at hsame
  · rintro ⟨hfirst, hlast⟩
    rw [trim, trimStart_eq_self hfirst, hend.2 hlast]

/-- Nothing is left of a text that is all blank, and of no other. -/
theorem trim_eq_nil_iff : trim cs = [] ↔ ∀ c ∈ cs, isBlank c = true := by
  rw [trim, trimEnd_eq_rdropWhile, List.rdropWhile_eq_nil_iff]
  constructor
  · intro h c hc
    rw [← List.takeWhile_append_dropWhile (p := isBlank) (l := cs), List.mem_append] at hc
    exact hc.elim (fun hfront => List.mem_takeWhile_imp hfront) (h c)
  · exact fun h c hc => h c ((List.dropWhile_sublist isBlank).subset hc)

theorem trimmed_eq_empty_iff {s : String} :
    trimmed s = "" ↔ ∀ c ∈ s.toList, isBlank c = true := by
  rw [← trim_eq_nil_iff, ← toList_trimmed, String.toList_eq_nil_iff]

end IssueTracker.Text
