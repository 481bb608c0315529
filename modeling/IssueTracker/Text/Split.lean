/-
  IssueTracker/Text/Split.lean --- cutting a list at a separator, and its inverse.

  Topics are cut at dots, filters at commas, paths at slashes and event blocks
  at line feeds.  All of them use `split`, which keeps empty pieces: a list with
  `n` separators has exactly `n + 1` pieces, and `joinWith` puts them together
  again (`joinWith_split`).  `cut` stops at the first separator.
-/
set_option autoImplicit false

namespace IssueTracker.Text

variable {α : Type} [DecidableEq α]

/-- The pieces of a list between the occurrences of `sep`, empty ones included. -/
def split (sep : α) : List α → List (List α)
  | [] => [[]]
  | c :: cs =>
      if c = sep then [] :: split sep cs
      else
        match split sep cs with
        | [] => [[c]]
        | w :: ws => (c :: w) :: ws

/-- The pieces with one `sep` between neighbours. -/
def joinWith (sep : α) : List (List α) → List α
  | [] => []
  | [w] => w
  | w :: v :: ws => w ++ sep :: joinWith sep (v :: ws)

/-- What stands before the first `sep`, and what stands after it if there is one. -/
def cut (sep : α) : List α → List α × Option (List α)
  | [] => ([], none)
  | c :: cs =>
      if c = sep then ([], some cs)
      else
        let (before, after) := cut sep cs
        (c :: before, after)

theorem split_ne_nil (sep : α) (cs : List α) : split sep cs ≠ [] := by
  cases cs with
  | nil => simp [split]
  | cons c cs =>
      simp only [split]
      split
      · simp
      · split <;> simp

theorem split_cons_self (sep : α) (cs : List α) :
    split sep (sep :: cs) = [] :: split sep cs := by
  rw [split, if_pos rfl]

/-- What is no separator belongs to the first piece. -/
theorem exists_split_cons {sep c : α} (h : c ≠ sep) (cs : List α) :
    ∃ w ws, split sep cs = w :: ws ∧ split sep (c :: cs) = (c :: w) :: ws := by
  cases hs : split sep cs with
  | nil => exact absurd hs (split_ne_nil sep cs)
  | cons w ws => exact ⟨w, ws, rfl, by rw [split, if_neg h, hs]⟩

/-- Nothing is lost by splitting. -/
theorem joinWith_split (sep : α) (cs : List α) : joinWith sep (split sep cs) = cs := by
  induction cs with
  | nil => rfl
  | cons c cs ih =>
      by_cases hc : c = sep
      · obtain ⟨w, ws, hs⟩ := List.exists_cons_of_ne_nil (split_ne_nil sep cs)
        rw [hc, split_cons_self, hs, joinWith, ← hs, ih]
        rfl
      · obtain ⟨w, ws, hs, hs'⟩ := exists_split_cons hc cs
        rw [hs] at ih
        rw [hs', ← ih]
        cases ws with
        | nil => rfl
        | cons v ws => rfl

/-- A separator between two lists separates their pieces. -/
theorem split_append_cons (sep : α) (xs ys : List α) :
    split sep (xs ++ sep :: ys) = split sep xs ++ split sep ys := by
  induction xs with
  | nil => exact split_cons_self sep ys
  | cons c cs ih =>
      by_cases hc : c = sep
      · rw [hc, List.cons_append, split_cons_self, split_cons_self, ih, List.cons_append]
      · obtain ⟨w, ws, hs, hs'⟩ := exists_split_cons hc cs
        rw [hs, List.cons_append] at ih
        rw [hs', List.cons_append, split, if_neg hc, ih, List.cons_append]

/-- A list without the separator is its own only piece. -/
theorem split_of_not_mem {sep : α} {cs : List α} (h : sep ∉ cs) : split sep cs = [cs] := by
  induction cs with
  | nil => rfl
  | cons c cs ih =>
      simp only [List.mem_cons, not_or] at h
      simp [split, Ne.symm h.1, ih h.2]

/-- No piece holds the separator. -/
theorem not_mem_of_mem_split {sep : α} {cs w : List α} (h : w ∈ split sep cs) : sep ∉ w := by
  induction cs generalizing w with
  | nil =>
      rw [split, List.mem_singleton] at h
      rw [h]
      exact List.not_mem_nil
  | cons c cs ih =>
      by_cases hc : c = sep
      · rw [hc, split_cons_self] at h
        rcases List.mem_cons.1 h with rfl | h
        · exact List.not_mem_nil
        · exact ih h
      · obtain ⟨v, vs, hs, hs'⟩ := exists_split_cons hc cs
        rw [hs] at ih
        rw [hs'] at h
        rcases List.mem_cons.1 h with rfl | h
        · rw [List.mem_cons, not_or]
          exact ⟨Ne.symm hc, ih List.mem_cons_self⟩
        · exact ih (List.mem_cons_of_mem _ h)

/-- The pieces hold everything but the separators. -/
theorem flatten_split (sep : α) (cs : List α) :
    (split sep cs).flatten = cs.filter (· ≠ sep) := by
  induction cs with
  | nil => rfl
  | cons c cs ih =>
      by_cases hc : c = sep
      · rw [hc, split_cons_self, List.filter_cons_of_neg (by simp), ← ih]
        rfl
      · obtain ⟨w, ws, hs, hs'⟩ := exists_split_cons hc cs
        rw [hs', List.filter_cons_of_pos (by simpa using hc), ← ih, hs]
        rfl

/-- What stands in a piece stands in the list. -/
theorem mem_of_mem_split {sep c : α} {cs w : List α} (hw : w ∈ split sep cs) (hc : c ∈ w) :
    c ∈ cs := by
  have hflat : c ∈ (split sep cs).flatten := List.mem_flatten.2 ⟨w, hw, hc⟩
  rw [flatten_split] at hflat
  exact (List.mem_filter.1 hflat).1

/-- There is one piece more than there are separators. -/
theorem length_split (sep : α) (cs : List α) : (split sep cs).length = cs.count sep + 1 := by
  induction cs with
  | nil => rfl
  | cons c cs ih =>
      by_cases hc : c = sep
      · rw [hc, split_cons_self, List.length_cons, ih, List.count_cons_self]
      · obtain ⟨w, ws, hs, hs'⟩ := exists_split_cons hc cs
        rw [hs', List.count_cons_of_ne hc, ← ih, hs]
        rfl

omit [DecidableEq α] in
/-- What stands between the pieces is the separator alone. -/
theorem mem_joinWith {sep c : α} {ws : List (List α)} (h : c ∈ joinWith sep ws) :
    c = sep ∨ ∃ w ∈ ws, c ∈ w := by
  induction ws with
  | nil => simp [joinWith] at h
  | cons w ws ih =>
      cases ws with
      | nil => exact Or.inr ⟨w, by simp, h⟩
      | cons v ws =>
          rw [joinWith, List.mem_append, List.mem_cons] at h
          rcases h with h | h | h
          · exact Or.inr ⟨w, by simp, h⟩
          · exact Or.inl h
          · exact (ih h).imp_right fun ⟨u, hu, hc⟩ => ⟨u, List.mem_cons_of_mem _ hu, hc⟩

/-- Pieces without the separator come back. -/
theorem split_joinWith {sep : α} {ws : List (List α)} (hne : ws ≠ []) (h : ∀ w ∈ ws, sep ∉ w) :
    split sep (joinWith sep ws) = ws := by
  induction ws with
  | nil => exact absurd rfl hne
  | cons w ws ih =>
      have hw := split_of_not_mem (h w List.mem_cons_self)
      cases ws with
      | nil => exact hw
      | cons v ws =>
          rw [joinWith, split_append_cons, hw, ih (by simp) fun u hu => h u (by simp [hu])]
          rfl

/-- What is left out of a list is left out of its pieces, the separator apart. -/
theorem split_filter {sep : α} {p : α → Bool} (hsep : p sep = true) (cs : List α) :
    split sep (cs.filter p) = (split sep cs).map (List.filter p) := by
  induction cs with
  | nil => rfl
  | cons c cs ih =>
      by_cases hc : c = sep
      · subst hc
        rw [List.filter_cons_of_pos hsep, split_cons_self, split_cons_self, ih]
        rfl
      · obtain ⟨w, ws, hs, hs'⟩ := exists_split_cons hc cs
        rw [hs, List.map_cons] at ih
        rw [hs', List.map_cons]
        by_cases hp : p c = true
        · rw [List.filter_cons_of_pos hp, List.filter_cons_of_pos hp, split, if_neg hc, ih]
        · rw [List.filter_cons_of_neg hp, List.filter_cons_of_neg hp, ih]

/-- The first separator cuts. -/
theorem cut_append_cons {sep : α} {xs : List α} (h : sep ∉ xs) (ys : List α) :
    cut sep (xs ++ sep :: ys) = (xs, some ys) := by
  induction xs with
  | nil => simp [cut]
  | cons x xs ih =>
      simp only [List.mem_cons, not_or] at h
      simp [cut, Ne.symm h.1, ih h.2]

end IssueTracker.Text
