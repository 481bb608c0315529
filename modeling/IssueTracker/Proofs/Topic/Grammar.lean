/-
  IssueTracker/Proofs/Topic/Grammar.lean --- which topics a pattern describes.

  `Describes` says it by position: up to the first `>` of the pattern each segment is `*` or the
  segment of the topic at its place, and at the place of the `>` the topic has a segment still;
  without a `>` there are as many segments on both sides.  The walk over the segments decides
  exactly this (`matchSegments_iff`), one case of the walk at a time: a `>` in front settles the
  matter, and any other segment in front is taken off both sides (`describes_cons_iff`).
-/
import IssueTracker.Topic.Basic

set_option autoImplicit false

namespace IssueTracker

namespace Topic

variable {p t : List Char} {ps ts P T : List (List Char)} {k : Nat}

/-! ## The grammar -/

/-- The segment that stands for any one segment. -/
def anySegment : List Char := ['*']

/-- The segment that stands for all that is left. -/
def restSegment : List Char := ['>']

/-- Each of the first `k` segments of a pattern is `*`, or the segment of the topic there. -/
def Agree (k : Nat) (P T : List (List Char)) : Prop :=
  ∀ i < k, P[i]? = some anySegment ∨ P[i]? = T[i]?

/-- The segments of the pattern describe those of the topic. -/
def Describes (P T : List (List Char)) : Prop :=
  (∃ k < T.length, P[k]? = some restSegment ∧ restSegment ∉ P.take k ∧ Agree k P T) ∨
    (restSegment ∉ P ∧ P.length = T.length ∧ Agree P.length P T)

theorem agree_zero (P T : List (List Char)) : Agree 0 P T :=
  fun _ hi => absurd hi (Nat.not_lt_zero _)

theorem agree_cons_iff :
    Agree (k + 1) (p :: ps) (t :: ts) ↔ (p = anySegment ∨ p = t) ∧ Agree k ps ts := by
  constructor
  · intro h
    exact ⟨by simpa using h 0 (Nat.succ_pos k), fun i hi => h (i + 1) (Nat.succ_lt_succ hi)⟩
  · rintro ⟨hfirst, hrest⟩ i hi
    cases i with
    | zero => simpa using hfirst
    | succ i => exact hrest i (Nat.lt_of_succ_lt_succ hi)

/-- A `>` in front takes all that is left, if something is. -/
theorem describes_rest (ps : List (List Char)) (t : List Char) (ts : List (List Char)) :
    Describes (restSegment :: ps) (t :: ts) :=
  Or.inl ⟨0, Nat.succ_pos _, rfl, List.not_mem_nil, agree_zero _ _⟩

/-- Any other segment in front takes one segment of the topic. -/
theorem describes_cons_iff (hp : p ≠ restSegment) :
    Describes (p :: ps) (t :: ts) ↔ (p = anySegment ∨ p = t) ∧ Describes ps ts := by
  have hmem : ∀ ws : List (List Char), restSegment ∉ p :: ws ↔ restSegment ∉ ws := by
    intro ws
    rw [List.mem_cons, not_or]
    exact and_iff_right hp.symm
  constructor
  · rintro (⟨k, hk, hrest, hbefore, hagree⟩ | ⟨hnone, hlength, hagree⟩)
    · cases k with
      | zero => exact absurd (Option.some.inj hrest) hp
      | succ k =>
          obtain ⟨hfirst, hagree⟩ := agree_cons_iff.1 hagree
          rw [List.take_succ_cons, hmem] at hbefore
          exact ⟨hfirst, Or.inl ⟨k, Nat.lt_of_succ_lt_succ hk, hrest, hbefore, hagree⟩⟩
    · obtain ⟨hfirst, hagree⟩ := agree_cons_iff.1 hagree
      exact ⟨hfirst, Or.inr ⟨(hmem ps).1 hnone, Nat.succ.inj hlength, hagree⟩⟩
  · rintro ⟨hfirst, ⟨k, hk, hrest, hbefore, hagree⟩ | ⟨hnone, hlength, hagree⟩⟩
    · refine Or.inl ⟨k + 1, Nat.succ_lt_succ hk, hrest, ?_, agree_cons_iff.2 ⟨hfirst, hagree⟩⟩
      rw [List.take_succ_cons, hmem]
      exact hbefore
    · exact Or.inr ⟨(hmem ps).2 hnone, congrArg (· + 1) hlength,
        agree_cons_iff.2 ⟨hfirst, hagree⟩⟩

/-- No pattern without segments describes a segment, and none with a segment describes nothing. -/
theorem describes_nil_iff : Describes [] T ↔ T = [] := by
  constructor
  · rintro (⟨k, -, hrest, -, -⟩ | ⟨-, hlength, -⟩)
    · cases hrest
    · exact List.eq_nil_of_length_eq_zero hlength.symm
  · rintro rfl
    exact Or.inr ⟨List.not_mem_nil, rfl, agree_zero _ _⟩

theorem not_describes_cons_nil (p : List Char) (ps : List (List Char)) :
    ¬ Describes (p :: ps) [] := by
  rintro (⟨k, hk, -, -, -⟩ | ⟨-, hlength, -⟩)
  · exact absurd hk (Nat.not_lt_zero _)
  · cases hlength

/-! ## The walk -/

/-- The walk over the segments decides what the grammar says. -/
theorem matchSegments_iff (P T : List (List Char)) :
    matchSegments P T = true ↔ Describes P T := by
  induction P generalizing T with
  | nil => rw [matchSegments, List.isEmpty_iff, describes_nil_iff]
  | cons p ps ih =>
      cases T with
      | nil => simp [matchSegments, not_describes_cons_nil]
      | cons t ts =>
          by_cases hp : p = restSegment
          · subst hp
            exact iff_of_true rfl (describes_rest ps t ts)
          · have hwalk : matchSegments (p :: ps) (t :: ts) =
                if p = anySegment || p = t then matchSegments ps ts else false := if_neg hp
            rw [describes_cons_iff hp, ← ih ts, hwalk]
            simp

/-- The segments of a topic describe themselves, also if wildcards are among them. -/
theorem matchSegments_self (T : List (List Char)) : matchSegments T T = true := by
  induction T with
  | nil => rfl
  | cons t ts ih => simp [matchSegments, ih]

/-- To ask first whether both are the same text does not change the answer. -/
theorem satisfies_eq (pattern topic : String) :
    satisfies pattern topic = matchSegments (segments pattern) (segments topic) := by
  unfold satisfies
  by_cases hsame : pattern = topic
  · rw [hsame, matchSegments_self, Bool.or_true]
  · rw [beq_eq_false_iff_ne.2 hsame, Bool.false_or]

/-- What stands behind a `>` does not matter. -/
theorem matchSegments_append_rest (front back other T : List (List Char)) :
    matchSegments (front ++ restSegment :: back) T =
      matchSegments (front ++ restSegment :: other) T := by
  induction front generalizing T with
  | nil => cases T <;> rfl
  | cons p front ih =>
      cases T with
      | nil => rfl
      | cons t ts => simp only [List.cons_append, matchSegments, ih ts]

/-- A `>` needs a segment at its place. -/
theorem Describes.lt_length (h : Describes P T) (hrest : P[k]? = some restSegment)
    (hfirst : restSegment ∉ P.take k) : k < T.length := by
  rcases h with ⟨j, hj, hjrest, -, -⟩ | ⟨hnone, -, -⟩
  · refine Nat.lt_of_le_of_lt ?_ hj
    refine Nat.le_of_not_lt fun hlt => hfirst ?_
    exact List.mem_of_getElem? ((List.getElem?_take_of_lt hlt).trans hjrest)
  · exact absurd (List.mem_of_getElem? hrest) hnone

/-- A segment before the first `>`, and not `*`, stands for itself alone. -/
theorem Describes.getElem?_eq (h : Describes P T) (hp : P[k]? = some p) (hany : p ≠ anySegment)
    (hfirst : restSegment ∉ P.take (k + 1)) : T[k]? = some p := by
  have hagree : ∀ n, k < n → Agree n P T → T[k]? = some p := by
    intro n hn hagree
    rcases hagree k hn with heq | heq
    · exact absurd (Option.some.inj (hp.symm.trans heq)) hany
    · exact heq.symm.trans hp
  rcases h with ⟨j, -, hrest, -, hbefore⟩ | ⟨-, -, hall⟩
  · refine hagree j (Nat.lt_of_not_le fun hle => hfirst ?_) hbefore
    have hlt : j < k + 1 := Nat.lt_succ_of_le hle
    exact List.mem_of_getElem? ((List.getElem?_take_of_lt hlt).trans hrest)
  · exact hagree P.length (List.getElem?_eq_some_iff.1 hp).1 hall

/-- A pattern matches exactly the topics that it describes, segment by segment.  That equal texts
match at once changes no answer; a `>` never stands for nothing; what stands behind it does not
matter; and a segment before it that is not `*`, be there wildcards in it or not, matches
itself alone. -/
theorem satisfies_by_position (pattern topic : String) :
    let P := segments pattern
    let T := segments topic
    (satisfies pattern topic = true ↔ Describes P T) ∧
      satisfies pattern topic = matchSegments P T ∧
      (∀ k, P[k]? = some restSegment → restSegment ∉ P.take k → T.length ≤ k →
        satisfies pattern topic = false) ∧
      (∀ front back other pattern', P = front ++ restSegment :: back →
        segments pattern' = front ++ restSegment :: other →
          satisfies pattern' topic = satisfies pattern topic) ∧
      ∀ k p, P[k]? = some p → p ≠ anySegment → restSegment ∉ P.take (k + 1) →
        satisfies pattern topic = true → T[k]? = some p := by
  intro P T
  have hgrammar : satisfies pattern topic = true ↔ Describes P T := by
    rw [satisfies_eq, matchSegments_iff]
  refine ⟨hgrammar, satisfies_eq pattern topic, ?_, ?_, ?_⟩
  · intro k hrest hfirst hshort
    refine Bool.eq_false_iff.2 fun hmatch => ?_
    exact Nat.not_lt_of_le hshort ((hgrammar.1 hmatch).lt_length hrest hfirst)
  · intro front back other pattern' hP hP'
    rw [satisfies_eq, satisfies_eq, hP']
    have hbehind := matchSegments_append_rest front other back T
    rwa [← hP] at hbehind
  · intro k p hp hany hfirst hmatch
    exact (hgrammar.1 hmatch).getElem?_eq hp hany hfirst

/-- Empty segments and wildcards in the topic are segments like others; a `>` behind all segments
of the topic finds nothing; and `b*` is no wildcard. -/
theorem wildcards_stand_alone :
    Describes (segments "*..>.x") (segments "a..>") ∧ satisfies "*..>.x" "a..>" = true ∧
      satisfies "*..>.yy.>" "a..>" = true ∧
      (segments "a.>")[1]? = some restSegment ∧ satisfies "a.>" "a" = false ∧
      (segments "a.b*")[1]? = some ['b', '*'] ∧ satisfies "a.b*" "a.bc" = false := by
  have hdescribes : Describes (segments "*..>.x") (segments "a..>") := by
    refine Or.inl ⟨2, by decide, rfl, by decide, ?_⟩
    intro i hi
    match i with
    | 0 => exact Or.inl rfl
    | 1 => exact Or.inr rfl
  obtain ⟨hgrammar, -, -, hbehind, -⟩ := satisfies_by_position "*..>.x" "a..>"
  obtain ⟨-, -, hshort, -, -⟩ := satisfies_by_position "a.>" "a"
  obtain ⟨-, -, -, -, hliteral⟩ := satisfies_by_position "a.b*" "a.bc"
  have hmatch := hgrammar.2 hdescribes
  refine ⟨hdescribes, hmatch, ?_, rfl, hshort 1 rfl (by decide) (Nat.le_refl 1), rfl, ?_⟩
  · rw [hbehind [anySegment, []] [['x']] [['y', 'y'], restSegment] "*..>.yy.>" rfl rfl]
    exact hmatch
  · refine Bool.eq_false_iff.2 fun hmatch => ?_
    have hsegment := hliteral 1 ['b', '*'] rfl (by decide) (by decide) hmatch
    cases hsegment

end Topic

end IssueTracker
