/-
  IssueTracker/Proofs/Json/Unbroken.lean --- a value is written on one line.

  No character of a written value is a control below the space: strings are escaped, and what
  else stands in a value are digits, words and marks.  So there is neither a line feed nor a
  carriage return in it, whatever texts the value holds (`unbroken_chars`).
-/
import IssueTracker.Json.Value

set_option autoImplicit false

namespace IssueTracker

/-! ## Texts without controls -/

namespace Text

variable {c : Char} {cs ds : List Char}

/-- There is no control below the space in the text. -/
def Unbroken (cs : List Char) : Prop := ∀ c ∈ cs, 0x20 ≤ c.toNat

instance : Decidable (Unbroken cs) := List.decidableBAll (fun c : Char => 0x20 ≤ c.toNat) cs

theorem Unbroken.not_mem (h : Unbroken cs) (hc : c.toNat < 0x20) : c ∉ cs :=
  fun hmem => absurd (h c hmem) (Nat.not_le_of_lt hc)

theorem Unbroken.lineFeed_not_mem (h : Unbroken cs) : '\n' ∉ cs := h.not_mem (by decide)

theorem Unbroken.return_not_mem (h : Unbroken cs) : '\r' ∉ cs := h.not_mem (by decide)

@[simp] theorem unbroken_nil : Unbroken [] := nofun

@[simp] theorem unbroken_cons : Unbroken (c :: cs) ↔ 0x20 ≤ c.toNat ∧ Unbroken cs :=
  List.forall_mem_cons

@[simp] theorem unbroken_append : Unbroken (cs ++ ds) ↔ Unbroken cs ∧ Unbroken ds :=
  List.forall_mem_append

@[simp] theorem unbroken_digits (n : Nat) : Unbroken (digits n) := by
  intro c hc
  have hdigit := isDigit_of_mem_digits hc
  simp only [isDigit, digitValue?, Option.isSome_ite] at hdigit
  omega

theorem unbroken_replicate (n : Nat) (hc : 0x20 ≤ c.toNat) : Unbroken (List.replicate n c) := by
  intro d hd
  rw [List.eq_of_mem_replicate hd]
  exact hc

theorem Unbroken.sublist (h : Unbroken ds) (hsub : cs.Sublist ds) : Unbroken cs :=
  fun c hc => h c (hsub.subset hc)

theorem unbroken_signedDecimal (n : Int) : Unbroken (signedDecimal n).toList := by
  cases n with
  | ofNat n => simp [signedDecimal, decimal]
  | negSucc n => simp [signedDecimal, decimal]

end Text

open Text (Unbroken)

/-! ## Doubles -/

namespace Decimal

variable {ds : List Char}

theorem unbroken_placePoint (hds : Unbroken ds) (whole : Int) (keepsPoint : Bool) :
    Unbroken (placePoint ds whole keepsPoint) := by
  unfold placePoint
  split
  · simpa using hds
  · split
    · simp [hds.sublist (List.take_sublist _ _), hds.sublist (List.drop_sublist _ _)]
    · cases keepsPoint <;> simp [hds, Text.unbroken_replicate]
  · simp [hds, Text.unbroken_replicate]

theorem unbroken_scientific (hds : Unbroken ds) (e : Int) : Unbroken (scientific ds e) := by
  have hsign : 0x20 ≤ (if e < 0 then '-' else '+').toNat := by
    split <;> decide
  unfold scientific
  simp only [Text.unbroken_append, Text.unbroken_cons, hsign, Text.unbroken_digits, and_true]
  refine ⟨?_, by decide⟩
  split
  · exact Text.unbroken_nil
  · exact hds
  · simpa using hds

theorem unbroken_write (lay : Layout) (x : Decimal) : Unbroken (x.write lay) := by
  unfold write
  simp only
  split
  · cases lay.keepsPoint <;> simp
  · split
    · exact unbroken_placePoint (Text.unbroken_digits _) _ _
    · split
      · exact unbroken_placePoint (Text.unbroken_digits _) _ _
      · exact unbroken_scientific (Text.unbroken_digits _) _

end Decimal

theorem Double.unbroken_write (lay : Layout) (x : Double) : Unbroken (x.write lay) := by
  unfold Double.write
  cases x.negative <;> simp [Decimal.unbroken_write]

/-! ## Values -/

namespace Json

theorem unbroken_hexLower {n : Nat} (hn : n < 16) : 0x20 ≤ (hexLower n).toNat := by
  revert n
  decide

/-- A control is escaped, and what stands for it is none. -/
theorem unbroken_escape (c : Char) : Unbroken (escape c) := by
  unfold escape
  iterate 7
    refine iteInduction (fun _ => by simp) fun _ => ?_
  refine iteInduction (fun hcontrol => ?_) fun hplain => ?_
  · simp [unbroken_hexLower (n := c.toNat / 16) (by omega),
      unbroken_hexLower (n := c.toNat % 16) (by omega)]
  · simpa using hplain

theorem unbroken_quote (s : String) : Unbroken (quote s) := by
  have hescaped : Unbroken (s.toList.flatMap escape) := by
    intro c hc
    obtain ⟨d, -, hc⟩ := List.mem_flatMap.1 hc
    exact unbroken_escape d c hc
  simp [quote, hescaped]

mutual

/-- There is no control in a written value. -/
theorem unbroken_chars : ∀ j : Json, Unbroken j.chars
  | .null => by simp [chars]
  | .bool true => by simp [chars]
  | .bool false => by simp [chars]
  | .int n => Text.unbroken_signedDecimal n
  | .real x => x.unbroken_write layout
  | .text s => unbroken_quote s
  | .list [] => by simp [chars]
  | .list (j :: js) => by simp [chars, unbroken_chars j, unbroken_itemChars js]
  | .object [] => by simp [chars]
  | .object ((k, j) :: ms) => by
      simp [chars, unbroken_quote k, unbroken_chars j, unbroken_memberChars ms]

theorem unbroken_itemChars : ∀ js : List Json, Unbroken (itemChars js)
  | [] => by simp [itemChars]
  | j :: js => by simp [itemChars, unbroken_chars j, unbroken_itemChars js]

theorem unbroken_memberChars : ∀ ms : List (String × Json), Unbroken (memberChars ms)
  | [] => by simp [memberChars]
  | (k, j) :: ms => by
      simp [memberChars, unbroken_quote k, unbroken_chars j, unbroken_memberChars ms]

end

/-- An object starts with its brace. -/
theorem head?_chars_object (ms : List (String × Json)) :
    (Json.object ms).chars.head? = some '{' := by
  cases ms <;> simp [chars]

end Json

end IssueTracker
