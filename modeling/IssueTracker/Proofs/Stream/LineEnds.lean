/-
  IssueTracker/Proofs/Stream/LineEnds.lean --- blocks for readers that know three line ends.

  To a reader of event streams a line ends with a carriage return and a line feed, or with one of
  them alone.  The writer cuts data at line feeds and takes one carriage return off each line, so
  that its blocks are what such a reader expects as long as every carriage return of the data has
  a line feed behind it (`Paired`), and then only.  One direction holds because the block has no
  carriage return at all; the other because the name of the field is written once for each line
  feed, but is due once for each line end (`length_breakLines_iff`).
-/
import IssueTracker.Proofs.Stream.Fidelity

set_option autoImplicit false

namespace IssueTracker

namespace Text

variable {c : Char} {cs : List Char} {ls : List (List Char)}

/-! ## Lines -/

/-- The text with a line feed for each of its line ends: a carriage return with a line feed behind
it, a carriage return alone, or a line feed alone. -/
def plainEnds : List Char → List Char
  | [] => []
  | '\r' :: '\n' :: cs => '\n' :: plainEnds cs
  | c :: cs => (if c = '\r' then '\n' else c) :: plainEnds cs

/-- The pieces of a text between its line ends. -/
def breakLines (cs : List Char) : List (List Char) := split '\n' (plainEnds cs)

/-- The text consists of these lines: each has a line end behind it, and nothing follows. -/
def ConsistsOf (cs : List Char) (ls : List (List Char)) : Prop := breakLines cs = ls ++ [[]]

instance : Decidable (ConsistsOf cs ls) := inferInstanceAs (Decidable (_ = _))

/-- Each carriage return has a line feed behind it. -/
def Paired (cs : List Char) : Prop := ∀ i : Nat, cs[i]? = some '\r' → cs[i + 1]? = some '\n'

theorem paired_nil : Paired [] := nofun

theorem paired_cons : Paired (c :: cs) ↔ (c = '\r' → cs.head? = some '\n') ∧ Paired cs := by
  constructor
  · intro h
    refine ⟨fun hc => ?_, fun i hi => h (i + 1) hi⟩
    rw [List.head?_eq_getElem?]
    exact h 0 (congrArg some hc)
  · rintro ⟨hfirst, hrest⟩ i hi
    cases i with
    | zero =>
        rw [List.getElem?_cons_succ, ← List.head?_eq_getElem?]
        exact hfirst (Option.some.inj hi)
    | succ i => exact hrest i hi

/-- A carriage return without a line feed behind it is not paired. -/
theorem not_paired_of_lone (h : ∀ cs', cs ≠ '\n' :: cs') : ¬ Paired ('\r' :: cs) := by
  rw [paired_cons]
  rintro ⟨hhead, -⟩
  obtain ⟨cs', hcs⟩ := List.head?_eq_some_iff.1 (hhead rfl)
  exact h cs' hcs

instance decidablePaired : (cs : List Char) → Decidable (Paired cs)
  | [] => isTrue paired_nil
  | _ :: cs =>
      have := decidablePaired cs
      decidable_of_iff' _ paired_cons

theorem plainEnds_cons (h : ¬ (c = '\r' ∧ cs.head? = some '\n')) :
    plainEnds (c :: cs) = (if c = '\r' then '\n' else c) :: plainEnds cs := by
  rw [plainEnds]
  rintro cs' rfl rfl
  exact h ⟨rfl, rfl⟩

/-- A text without carriage returns has plain line ends already. -/
theorem plainEnds_of_not_mem (h : '\r' ∉ cs) : plainEnds cs = cs := by
  induction cs with
  | nil => rfl
  | cons c cs ih =>
      rw [List.mem_cons, not_or] at h
      rw [plainEnds_cons fun hpair => h.1 hpair.1.symm, if_neg (Ne.symm h.1), ih h.2]

/-- In a text without lone carriage returns the line ends become plain by leaving them out. -/
theorem Paired.plainEnds_eq (h : Paired cs) : plainEnds cs = Frame.clean cs := by
  fun_induction plainEnds cs with
  | case1 => rfl
  | case2 cs ih =>
      rw [paired_cons, paired_cons] at h
      rw [ih h.2.2]
      rfl
  | case3 c cs hpair ih =>
      have hc : c ≠ '\r' := by
        rintro rfl
        exact not_paired_of_lone (hpair · rfl) h
      rw [ih (paired_cons.1 h).2, if_neg hc, Frame.clean, Frame.clean,
        List.filter_cons_of_pos (by simpa using hc)]

/-! ## Counting line ends -/

/-- There are as many line ends as line feeds, and one more for each lone carriage return. -/
theorem count_plainEnds (cs : List Char) :
    cs.count '\n' ≤ (plainEnds cs).count '\n' ∧
      ((plainEnds cs).count '\n' = cs.count '\n' ↔ Paired cs) := by
  fun_induction plainEnds cs with
  | case1 => simp [paired_nil]
  | case2 cs ih => simpa [paired_cons] using ih
  | case3 c cs hpair ih =>
      by_cases hc : c = '\r'
      · subst hc
        have hlone : ¬ Paired ('\r' :: cs) := not_paired_of_lone (hpair · rfl)
        simp only [if_true, List.count_cons_self, hlone, iff_false]
        rw [List.count_cons_of_ne (by decide)]
        omega
      · rw [if_neg hc, paired_cons, List.count_cons, List.count_cons]
        simpa [hc] using ih

/-- The text has no more lines for having three line ends instead of one if every carriage return
has a line feed behind it, and only then. -/
theorem length_breakLines_iff : (breakLines cs).length = (split '\n' cs).length ↔ Paired cs := by
  rw [breakLines, length_split, length_split, Nat.add_right_cancel_iff]
  exact (count_plainEnds cs).2

/-! ## What is on the lines -/

/-- The characters of a text that belong to no line end. -/
def withoutEnds (cs : List Char) : List Char := cs.filter fun c => c ≠ '\n' ∧ c ≠ '\r'

theorem withoutEnds_append (xs ys : List Char) :
    withoutEnds (xs ++ ys) = withoutEnds xs ++ withoutEnds ys :=
  List.filter_append xs ys

theorem withoutEnds_of_not_mem (hfeed : '\n' ∉ cs) (hreturn : '\r' ∉ cs) :
    withoutEnds cs = cs := by
  apply List.filter_eq_self.2
  intro c hc
  have hne : c ≠ '\n' ∧ c ≠ '\r' := ⟨fun heq => hfeed (heq ▸ hc), fun heq => hreturn (heq ▸ hc)⟩
  simpa using hne

/-- The lines hold what belongs to no line end. -/
theorem flatten_breakLines (cs : List Char) : (breakLines cs).flatten = withoutEnds cs := by
  rw [breakLines, flatten_split]
  fun_induction plainEnds cs with
  | case1 => rfl
  | case2 cs ih => simpa [withoutEnds] using ih
  | case3 c cs _ ih =>
      by_cases hc : c = '\r'
      · subst hc
        simpa [withoutEnds] using ih
      · by_cases hfeed : c = '\n'
        · subst hfeed
          simpa [withoutEnds] using ih
        · simpa [withoutEnds, hc, hfeed] using ih

/-- To cut at line feeds only, and to drop line ends on the pieces, leaves the same. -/
theorem flatten_map_withoutEnds (cs : List Char) :
    ((split '\n' cs).map withoutEnds).flatten = withoutEnds cs := by
  have hfilter : ((split '\n' cs).map withoutEnds).flatten =
      withoutEnds (split '\n' cs).flatten := (List.filter_flatten).symm
  rw [hfilter, flatten_split, withoutEnds, List.filter_filter, withoutEnds]
  congr 1
  funext c
  simp +contextual

end Text

/-! ## Blocks -/

namespace Frame

open Text (breakLines ConsistsOf Paired withoutEnds)

variable {id : Nat} {topic data : String} {line : List Char} {cs : List Char}

/-- A line with the name of a field, the colon included, and its value. -/
def fieldLine (name : String) (value : List Char) : List Char := name.toList ++ value

/-- The lines that a block has for every reader: those of the number and the topic, one for each
line of the data, and an empty one. -/
def dueLines (id : Nat) (topic data : String) : List (List Char) :=
  fieldLine "id:" (Text.digits id) :: fieldLine "event:" topic.toList ::
    (breakLines data.toList).map (fieldLine "data:") ++ [[]]

theorem lines_event (id : Nat) (topic data : String) :
    (event id topic data).lines =
      fieldLine "id:" (Text.digits id) :: fieldLine "event:" topic.toList ::
        (Text.split '\n' data.toList).map fun piece => fieldLine "data:" (dropReturn piece) := rfl

theorem ends_fieldLine {name : String} (hname : '\r' ∉ name.toList ∧ '\n' ∉ name.toList)
    {value : List Char} (hvalue : '\r' ∉ value ∧ '\n' ∉ value) :
    '\r' ∉ fieldLine name value ∧ '\n' ∉ fieldLine name value := by
  rw [fieldLine, List.mem_append, List.mem_append, not_or, not_or]
  exact ⟨⟨hname.1, hvalue.1⟩, hname.2, hvalue.2⟩

theorem withoutEnds_fieldLine {name : String} (hname : '\r' ∉ name.toList ∧ '\n' ∉ name.toList)
    (value : List Char) :
    withoutEnds (fieldLine name value) = fieldLine name (withoutEnds value) := by
  rw [fieldLine, Text.withoutEnds_append, Text.withoutEnds_of_not_mem hname.2 hname.1, fieldLine]

/-- The name of the field counts once for each line. -/
theorem length_flatten_map_fieldLine (name : String) (values : List (List Char)) :
    (values.map (fieldLine name)).flatten.length =
      name.length * values.length + values.flatten.length := by
  induction values with
  | nil => rfl
  | cons value values ih =>
      rw [List.map_cons, List.flatten_cons, List.length_append, ih, fieldLine, List.length_append,
        String.length_toList, List.flatten_cons, List.length_append, List.length_cons, Nat.mul_succ]
      omega

theorem dropReturn_cons {c : Char} (h : line ≠ []) :
    dropReturn (c :: line) = c :: dropReturn line := by
  obtain ⟨d, rest, rfl⟩ := List.exists_cons_of_ne_nil h
  rw [dropReturn, dropReturn, List.getLast?_cons_cons, List.dropLast_cons_of_ne_nil h]
  split <;> rfl

/-- The return that is dropped is the only one of its line if all returns are paired. -/
theorem not_mem_dropReturn (h : Paired cs) (hline : line ∈ Text.split '\n' cs) :
    '\r' ∉ dropReturn line := by
  induction cs generalizing line with
  | nil =>
      rw [Text.split, List.mem_singleton] at hline
      rw [hline]
      exact List.not_mem_nil
  | cons c cs ih =>
      rw [Text.paired_cons] at h
      by_cases hfeed : c = '\n'
      · rw [hfeed, Text.split_cons_self] at hline
        rcases List.mem_cons.1 hline with rfl | hline
        · exact List.not_mem_nil
        · exact ih h.2 hline
      · obtain ⟨w, ws, hs, hs'⟩ := Text.exists_split_cons hfeed cs
        rw [hs] at ih
        rw [hs'] at hline
        rcases List.mem_cons.1 hline with rfl | hline
        · by_cases hw : w = []
          · subst hw
            by_cases hc : c = '\r' <;> simp [dropReturn, hc, eq_comm]
          · -- A return in front has its line feed behind it, and so would end the piece.
            have hc : c ≠ '\r' := by
              intro hc
              obtain ⟨cs', rfl⟩ := List.head?_eq_some_iff.1 (h.1 hc)
              rw [Text.split_cons_self] at hs
              exact hw (List.cons.inj hs).1.symm
            rw [dropReturn_cons hw, List.mem_cons, not_or]
            exact ⟨hc.symm, ih h.2 List.mem_cons_self⟩
        · exact ih h.2 (List.mem_cons_of_mem _ hline)

theorem dropReturn_sublist (line : List Char) : (dropReturn line).Sublist line := by
  rw [dropReturn]
  split
  · exact List.dropLast_sublist line
  · exact List.Sublist.refl line

/-- With paired returns in the data no line end is written inside a line. -/
theorem ends_of_mem_lines (h : Paired data.toList)
    (htopic : '\r' ∉ topic.toList ∧ '\n' ∉ topic.toList)
    (hline : line ∈ (event id topic data).lines) : '\r' ∉ line ∧ '\n' ∉ line := by
  rw [lines_event, List.mem_cons, List.mem_cons, List.mem_map] at hline
  rcases hline with rfl | rfl | ⟨piece, hpiece, rfl⟩
  · exact ends_fieldLine (by decide) ⟨Text.not_mem_digits rfl id, Text.not_mem_digits rfl id⟩
  · exact ends_fieldLine (by decide) htopic
  · refine ends_fieldLine (by decide) ⟨not_mem_dropReturn h hpiece, fun hfeed => ?_⟩
    exact Text.not_mem_of_mem_split hpiece ((dropReturn_sublist piece).subset hfeed)

/-- Then the block has the lines that are due. -/
theorem consistsOf_of_paired (h : Paired data.toList)
    (htopic : '\r' ∉ topic.toList ∧ '\n' ∉ topic.toList) :
    ConsistsOf (event id topic data).chars (dueLines id topic data) := by
  have hends : ∀ line ∈ (event id topic data).lines, '\r' ∉ line ∧ '\n' ∉ line :=
    fun line hline => ends_of_mem_lines h htopic hline
  have hclean : (event id topic data).lines.map clean = (event id topic data).lines :=
    (List.map_congr_left fun line hline => clean_of_not_mem (hends line hline).1).trans
      (List.map_id' _)
  have hdue : dueLines id topic data = (event id topic data).lines ++ [[]] := by
    rw [← hclean, map_clean_lines_event, clean_of_not_mem htopic.1, dueLines, breakLines,
      h.plainEnds_eq]
    rfl
  have hreturn : '\r' ∉ (event id topic data).chars := by
    rw [chars_eq, List.mem_append, not_or, List.mem_flatMap]
    refine ⟨?_, by decide⟩
    rintro ⟨line, hline, hmem⟩
    rcases List.mem_append.1 hmem with hmem | hmem
    · exact (hends line hline).1 hmem
    · exact absurd hmem (by decide)
  rw [ConsistsOf, breakLines, Text.plainEnds_of_not_mem hreturn, chars_eq,
    Text.split_lines fun line hline => (hends line hline).2, hdue, List.append_assoc]
  rfl

theorem withoutEnds_dropReturn (line : List Char) :
    withoutEnds (dropReturn line) = withoutEnds line := by
  have hclean : ∀ cs : List Char, withoutEnds cs = (clean cs).filter (· ≠ '\n') := by
    intro cs
    rw [clean, List.filter_filter, withoutEnds]
    congr 1
    funext c
    simp
  rw [hclean, hclean, clean_dropReturn]

/-- What is written of an event, line ends apart: the data has the name of its field in it once for
each of its pieces between line feeds. -/
theorem withoutEnds_chars (id : Nat) (htopic : '\r' ∉ topic.toList ∧ '\n' ∉ topic.toList)
    (data : String) :
    withoutEnds (event id topic data).chars =
      fieldLine "id:" (Text.digits id) ++ (fieldLine "event:" topic.toList ++
        (((Text.split '\n' data.toList).map withoutEnds).map (fieldLine "data:")).flatten) := by
  have hlast : ∀ xs : List Char, withoutEnds (xs ++ ['\n']) = withoutEnds xs := by
    intro xs
    rw [Text.withoutEnds_append]
    exact List.append_nil _
  have hlines : withoutEnds (event id topic data).chars =
      (event id topic data).lines.flatMap withoutEnds := by
    rw [chars_eq, hlast, withoutEnds, List.filter_flatMap]
    congr 1
    exact funext hlast
  have hvalues : (fun piece => withoutEnds (fieldLine "data:" (dropReturn piece))) =
      fieldLine "data:" ∘ withoutEnds := by
    funext piece
    rw [withoutEnds_fieldLine (by decide), withoutEnds_dropReturn]
    rfl
  have hdigits := Text.withoutEnds_of_not_mem (Text.not_mem_digits (c := '\n') rfl id)
    (Text.not_mem_digits rfl id)
  rw [hlines, lines_event, List.flatMap_cons, List.flatMap_cons, withoutEnds_fieldLine (by decide),
    hdigits, withoutEnds_fieldLine (by decide), Text.withoutEnds_of_not_mem htopic.2 htopic.1,
    List.flatMap_map, hvalues, List.map_map, List.flatMap_def]

/-- A block with the lines that are due has no more lines of data than the data has line feeds. -/
theorem paired_of_consistsOf (htopic : '\r' ∉ topic.toList ∧ '\n' ∉ topic.toList)
    (h : ConsistsOf (event id topic data).chars (dueLines id topic data)) :
    Paired data.toList := by
  have hwritten := congrArg List.flatten h
  rw [Text.flatten_breakLines, withoutEnds_chars id htopic data, dueLines] at hwritten
  have hvalues : (((Text.split '\n' data.toList).map withoutEnds).map (fieldLine "data:")).flatten =
      ((breakLines data.toList).map (fieldLine "data:")).flatten := by
    simpa using hwritten
  have hlength := congrArg List.length hvalues
  have hname : "data:".length = 5 := rfl
  rw [length_flatten_map_fieldLine, length_flatten_map_fieldLine, List.length_map,
    Text.flatten_map_withoutEnds, Text.flatten_breakLines, hname] at hlength
  refine Text.length_breakLines_iff.1 ?_
  omega

/-- A block of an event has a line for the number, one for the topic, one for each line of the data,
of which there is one at least, and an empty one, to every reader that knows the three line ends, if
and only if each carriage return of the data has a line feed behind it. -/
theorem block_stands_iff_returns_are_paired (id : Nat) (topic data : String)
    (htopic : '\r' ∉ topic.toList ∧ '\n' ∉ topic.toList) :
    breakLines data.toList ≠ [] ∧
      (ConsistsOf (event id topic data).write.toList
          (("id:".toList ++ Text.digits id) :: ("event:".toList ++ topic.toList) ::
            (breakLines data.toList).map ("data:".toList ++ ·) ++ [[]]) ↔
        Paired data.toList) := by
  refine ⟨Text.split_ne_nil _ _, ?_⟩
  rw [write, String.toList_ofList]
  exact ⟨paired_of_consistsOf htopic, fun h => consistsOf_of_paired h htopic⟩

/-- Line feeds with and without a return before them, and an empty line between them, are no more
than line ends of the data. -/
theorem block_of_three_lines :
    ConsistsOf (event 7 "beads.bead.created" "id:9\r\n\nb\r\n").write.toList
      ["id:7".toList, "event:beads.bead.created".toList, "data:id:9".toList, "data:".toList,
        "data:b".toList, "data:".toList, []] := by
  obtain ⟨-, hstands⟩ := block_stands_iff_returns_are_paired 7 "beads.bead.created"
    "id:9\r\n\nb\r\n" (by decide)
  have hlines := hstands.2 (by decide)
  have hdigits : Text.digits 7 = ['7'] := by decide +kernel
  rw [hdigits] at hlines
  exact hlines

/-- Not every data stays on its own lines: a return that stands alone lets the data write a line
that gives another number. -/
theorem lone_return_gives_another_number :
    ConsistsOf (event 1 "t" "a\rid:9").write.toList
        ["id:1".toList, "event:t".toList, "data:a".toList, "id:9".toList, []] ∧
      ¬ ∀ (id : Nat) (topic data : String), '\r' ∉ topic.toList ∧ '\n' ∉ topic.toList →
        ConsistsOf (event id topic data).write.toList
          (("id:".toList ++ Text.digits id) :: ("event:".toList ++ topic.toList) ::
            (breakLines data.toList).map ("data:".toList ++ ·) ++ [[]]) := by
  refine ⟨by decide +kernel, fun hall => ?_⟩
  have hclaimed := hall 1 "t" "a\rid:9" (by decide)
  revert hclaimed
  decide +kernel

end Frame

end IssueTracker
