/-
  IssueTracker/Proofs/Store/Labelling.lean --- which labels are taken, and how they are found.

  A label is kept in its trimmed form, and taken if that form is `Acceptable`: it has the 1 to 64
  characters without blanks of which the refusal speaks, and moreover at most 64 bytes.  Lists and
  removals take a label as it is spelled.  No label that is kept has a blank (`trimmed_of_isLabel`),
  so that a label that was added is found and removed under its trimmed form only
  (`mem_labelled_iff`), and to remove it undoes the addition (`removeLabel_of_added`).
-/
import IssueTracker.Proofs.Store.Listing
import IssueTracker.Proofs.Store.Patching
import IssueTracker.Proofs.Store.WellFormed

set_option autoImplicit false

namespace IssueTracker

/-! ## Sets of labels -/

namespace Labels

variable {l : String} {ms : List String} {ls : Labels}

theorem filter_insertItem (h : l ∉ ms) : (insertItem l ms).filter (· != l) = ms := by
  induction ms with
  | nil => simp [insertItem]
  | cons m ms ih =>
      rw [List.mem_cons, not_or] at h
      have hm : (m != l) = true := bne_iff_ne.2 (Ne.symm h.1)
      have hms : ms.filter (· != l) = ms := by
        apply List.filter_eq_self.2
        exact fun x hx => bne_iff_ne.2 fun heq => h.2 (heq ▸ hx)
      rw [insertItem, if_neg h.1]
      split
      · simp [hm, hms]
      · simp [hm, ih h.2]

/-- To take a new label out again gives the set back. -/
theorem erase_insert (h : ¬ l ∈ ls) : (ls.insert l).erase l = ls := by
  obtain ⟨items, ascending⟩ := ls
  simp only [erase, insert, mk.injEq]
  exact filter_insertItem h

end Labels

namespace Store

variable {now later : Instant} {s s' : Store} {id label l : String} {b b' : Bead} {draft : Draft}

/-! ## Labels that are taken -/

/-- One to 64 characters, none of them blank: what a refused label is said to lack. -/
def Worded (l : String) : Prop :=
  1 ≤ l.length ∧ l.length ≤ 64 ∧ ∀ c ∈ l.toList, Text.isBlank c = false

instance (l : String) : Decidable (Worded l) :=
  have := List.decidableBAll (fun c => Text.isBlank c = false) l.toList
  inferInstanceAs (Decidable (_ ∧ _ ∧ ∀ c ∈ l.toList, Text.isBlank c = false))

/-- A label as it is kept: it has at most 64 bytes of UTF-8 besides. -/
def Acceptable (l : String) : Prop := Worded l ∧ l.utf8ByteSize ≤ 64

instance (l : String) : Decidable (Acceptable l) := inferInstanceAs (Decidable (_ ∧ _))

/-- No character takes less than one byte. -/
theorem length_le_utf8ByteSize (l : String) : l.length ≤ l.utf8ByteSize := by
  have hchars : ∀ cs : List Char, cs.length ≤ String.utf8Len cs := by
    intro cs
    induction cs with
    | nil => exact Nat.le_refl 0
    | cons c cs ih =>
        have hc := c.utf8Size_pos
        rw [List.length_cons, String.utf8Len_cons]
        omega
  rw [← String.ofList_toList (s := l), String.utf8ByteSize_ofList, String.length_ofList]
  exact hchars l.toList

theorem isLabel_iff_acceptable : isLabel l = true ↔ Acceptable l := by
  have hlength := length_le_utf8ByteSize l
  have hne : l ≠ "" ↔ 1 ≤ l.length := by
    rw [Nat.one_le_iff_ne_zero, ne_eq, ne_eq, String.length_eq_zero_iff]
  rw [isLabel_iff, Acceptable, Worded, hne]
  constructor
  · rintro ⟨hpos, hblank, hsize⟩
    exact ⟨⟨hpos, hlength.trans hsize, hblank⟩, hsize⟩
  · rintro ⟨⟨hpos, -, hblank⟩, hsize⟩
    exact ⟨hpos, hblank, hsize⟩

/-- What is kept has no blanks at its ends. -/
theorem trimmed_of_isLabel (h : isLabel l = true) : Text.trimmed l = l := by
  obtain ⟨-, hblank, -⟩ := isLabel_iff.1 h
  have htrim : Text.trim l.toList = l.toList :=
    Text.trim_eq_self_iff.2 ⟨fun c hc => hblank c (List.mem_of_head? hc),
      fun c hc => hblank c (List.mem_of_getLast? hc)⟩
  rw [Text.trimmed, htrim, String.ofList_toList]

/-! ## Operations on labels -/

/-- What follows if a condition decides whether an operation is done. -/
theorem done_iff_of_eq_ite {α : Type} {P : Prop} [Decidable P] {r : Outcome α} {a : α} {f : Fault}
    (h : r = if P then (.ok a, s') else (.error f, s)) :
    ((∃ x, r.1 = .ok x) ↔ P) ∧ (¬ P → r = (.error f, s)) ∧ ∀ x, r.1 = .ok x → x = a ∧ r.2 = s' := by
  by_cases hP : P
  · rw [if_pos hP] at h
    subst h
    exact ⟨iff_of_true ⟨a, rfl⟩ hP, fun hnot => absurd hP hnot,
      fun x hx => ⟨(Except.ok.inj hx).symm, rfl⟩⟩
  · rw [if_neg hP] at h
    subst h
    exact ⟨iff_of_false nofun hP, fun _ => rfl, nofun⟩

/-- A bead that does not have the label takes it if it is acceptable. -/
theorem addLabel_of_get? (now : Instant) (hget : s.get? id = some b)
    (hnew : ¬ Text.trimmed label ∈ b.labels) :
    s.addLabel now id label =
      if isLabel (Text.trimmed label) = true then
        (.ok (labelled now (Text.trimmed label) b),
          s.put (labelled now (Text.trimmed label) b))
      else (.error .badLabel, s) := by
  by_cases hlabel : isLabel (Text.trimmed label) = true
  · simp [addLabel, checkLabel, hlabel, get, hget, hnew]
  · simp [addLabel, checkLabel, hlabel]

theorem addLabel_eq_ok_iff :
    s.addLabel now id label = (.ok b', s') ↔
      ∃ b, s.get? id = some b ∧ isLabel (Text.trimmed label) = true ∧
        ¬ Text.trimmed label ∈ b.labels ∧ b' = labelled now (Text.trimmed label) b ∧
        s' = s.put b' := by
  constructor
  · intro h
    have hdone : s.perform now (.addLabel id label) =
        (.ok (.labelAdded b' (Text.trimmed label)), s') := by
      rw [perform, h]
      rfl
    cases effect_of_perform hdone with
    | addLabel hlabel hget hnew =>
        exact ⟨_, hget, (checkLabel_eq_ok.1 hlabel).2, hnew, rfl, rfl⟩
  · rintro ⟨b, hget, hlabel, hnew, rfl, rfl⟩
    rw [addLabel_of_get? now hget hnew, if_pos hlabel]

/-- A draft is refused for its labels if one of them is not acceptable. -/
theorem create_of_checked (s : Store) (now : Instant)
    (htitle : ∃ c ∈ draft.title.toList, Text.isBlank c = false)
    (hpriority : draft.priority ≤ greatestPriority) :
    s.create now draft =
      if ∀ l ∈ draft.labels, isLabel (Text.trimmed l) = true then
        let b := drafted now (s.created + 1) (Text.trimmed draft.title) draft.priority
          (draft.labels.map Text.trimmed) draft
        (.ok b, { s with created := s.created + 1, beads := s.beads ++ [b] })
      else (.error .badLabel, s) := by
  have htitle' : Text.trimmed draft.title ≠ "" := by
    rw [ne_eq, Text.trimmed_eq_empty_iff]
    simpa using htitle
  by_cases hlabels : ∀ l ∈ draft.labels, isLabel (Text.trimmed l) = true
  · simp only [create, checkTitle, if_neg htitle', checkPriority, if_pos hpriority,
      checkLabels_eq, if_pos hlabels]
  · simp only [create, checkTitle, if_neg htitle', checkPriority, if_pos hpriority,
      checkLabels_eq, if_neg hlabels]

theorem removeLabel_of_mem (hget : s.get? id = some b) (hlabel : label ∈ b.labels) :
    s.removeLabel now id label =
      (.ok (unlabelled now label b), s.put (unlabelled now label b)) := by
  simp [removeLabel, get, hget, hlabel]

theorem removeLabel_of_not_mem (hget : s.get? id = some b) (hlabel : ¬ label ∈ b.labels) :
    s.removeLabel now id label = (.error (.labelAbsent id label), s) := by
  simp [removeLabel, get, hget, hlabel]

/-! ## Labels that were added -/

/-- A bead that is put in the place of one of its identity takes the place of that one's
predecessor. -/
theorem put_put {x y : Bead} (hid : x.id = y.id) (s : Store) : (s.put x).put y = s.put y := by
  have hbeads : ((s.put x).put y).beads = (s.put y).beads := by
    simp only [put, List.map_map]
    apply List.map_congr_left
    intro z _
    by_cases hz : z.id = y.id <;> simp [hid, hz]
  exact congrArg (fun beads => { s with beads }) hbeads

/-- Of a store with the bead in its place, the lists with a label show the bead if it has it. -/
theorem listed_put_iff (hget : s.get? id = some b) (hid : b'.id = b.id) :
    id ∈ ((s.put b').list { label := some l }).map (·.id) ↔ l ∈ b'.labels := by
  obtain ⟨hmem, rfl⟩ := mem_beads_of_get? (get?_put hget hid)
  have haccepts : ∀ x : Bead, ({ label := some l } : Query).accepts x = true ↔ l ∈ x.labels := by
    intro x
    simp [Query.accepts_iff]
  rw [List.mem_map]
  constructor
  · rintro ⟨x, hx, hsame⟩
    obtain ⟨hx, hlabel⟩ := mem_list.1 hx
    rw [← eq_of_mem_put hx hsame]
    exact (haccepts x).1 hlabel
  · intro hlabel
    exact ⟨b', mem_list.2 ⟨hmem, (haccepts b').2 hlabel⟩, rfl⟩

/-- With a label that was added, a spelling is on the bead exactly if it is trimmed. -/
theorem mem_labelled_iff (now : Instant) (label : String) (hb : b.WellFormed) :
    label ∈ (labelled now (Text.trimmed label) b).labels ↔ Text.trimmed label = label := by
  rw [labelled, Labels.mem_insert]
  constructor
  · rintro (hsame | hmem)
    · exact hsame.symm
    · exact trimmed_of_isLabel (hb.labels label hmem)
  · exact fun hsame => Or.inl hsame.symm

/-- To remove a label that was added leaves the bead as it was, with another time. -/
theorem removeLabel_of_added (now later : Instant) (hget : s.get? id = some b)
    (hnew : ¬ l ∈ b.labels) :
    (s.put (labelled now l b)).removeLabel later id l =
      (.ok { b with updatedAt := later }, s.put { b with updatedAt := later }) := by
  have hunlabelled : unlabelled later l (labelled now l b) = { b with updatedAt := later } := by
    rw [unlabelled, labelled, Labels.erase_insert hnew]
  have hmem : l ∈ (labelled now l b).labels := Labels.mem_insert.2 (Or.inl rfl)
  have hput : (s.put (labelled now l b)).get? id = some (labelled now l b) := get?_put hget rfl
  have hid : (labelled now l b).id = ({ b with updatedAt := later } : Bead).id := rfl
  rw [removeLabel_of_mem hput hmem, hunlabelled, put_put hid]

/-- A label is taken if its trimmed form has 1 to 64 characters, none of them blank, and at most 64
bytes, and for no other reason, be it put on a bead that does not have it, or listed in a draft with
other labels that are taken.  The trimmed form is kept; a draft makes the set of the trimmed forms.
A label that is not taken leaves the store as it was, and the refusal speaks of characters. -/
theorem labels_are_taken_by_characters_and_bytes (s : Store) (now : Instant) (label : String) :
    (∀ id b, s.get? id = some b → ¬ Text.trimmed label ∈ b.labels →
        ((∃ b', (s.addLabel now id label).1 = .ok b') ↔ Acceptable (Text.trimmed label)) ∧
          (¬ Acceptable (Text.trimmed label) →
            s.addLabel now id label = (.error .badLabel, s)) ∧
          ∀ b', (s.addLabel now id label).1 = .ok b' →
            b' = { b with labels := b.labels.insert (Text.trimmed label), updatedAt := now } ∧
              (s.addLabel now id label).2.get? id = some b') ∧
      (∀ (draft : Draft) (front back : List String),
        (∃ c ∈ draft.title.toList, Text.isBlank c = false) → draft.priority ≤ 4 →
        draft.labels = front ++ label :: back →
        (∀ other ∈ front ++ back, Acceptable (Text.trimmed other)) →
          ((∃ b, (s.create now draft).1 = .ok b) ↔ Acceptable (Text.trimmed label)) ∧
            (¬ Acceptable (Text.trimmed label) → s.create now draft = (.error .badLabel, s)) ∧
            ∀ b, (s.create now draft).1 = .ok b →
              (∀ l, l ∈ b.labels ↔ ∃ given ∈ draft.labels, l = Text.trimmed given) ∧
                (s.create now draft).2.beads = s.beads ++ [b]) ∧
      Fault.badLabel.failure =
        .invalidInput "label must be 1-64 characters without whitespace" := by
  refine ⟨fun id b hget hnew => ?_, fun draft front back htitle hpriority hgiven hothers => ?_, ?_⟩
  · obtain ⟨htaken, hrefused, hdone⟩ := done_iff_of_eq_ite (addLabel_of_get? now hget hnew)
    rw [isLabel_iff_acceptable] at htaken hrefused
    refine ⟨htaken, hrefused, fun b' hb' => ?_⟩
    obtain ⟨rfl, hafter⟩ := hdone b' hb'
    rw [hafter]
    exact ⟨rfl, get?_put hget rfl⟩
  · obtain ⟨htaken, hrefused, hdone⟩ :=
      done_iff_of_eq_ite (create_of_checked s now htitle hpriority)
    have hall : (∀ l ∈ draft.labels, isLabel (Text.trimmed l) = true) ↔
        Acceptable (Text.trimmed label) := by
      simp only [isLabel_iff_acceptable, hgiven]
      constructor
      · exact fun h => h label (List.mem_append_right _ List.mem_cons_self)
      · intro hlabel l hl
        rcases List.mem_append.1 hl with hl | hl
        · exact hothers l (List.mem_append_left _ hl)
        · rcases List.mem_cons.1 hl with rfl | hl
          · exact hlabel
          · exact hothers l (List.mem_append_right _ hl)
    rw [hall] at htaken hrefused
    refine ⟨htaken, hrefused, fun b hb => ?_⟩
    obtain ⟨rfl, hafter⟩ := hdone b hb
    rw [hafter]
    exact ⟨fun l => by simp [drafted, eq_comm], rfl⟩
  · decide +kernel

/-- A store with one bead. -/
def withBead : Store :=
  empty.run [(⟨0, 0⟩, .create ⟨"work", "", 2, .task, none, []⟩)]

theorem get?_withBead : ∃ b, withBead.get? "bd-1" = some b ∧ ∀ l, ¬ l ∈ b.labels := by
  have hbead : (withBead.get? "bd-1").map (·.labels) = some Labels.empty := by decide +kernel
  obtain ⟨b, hget, hlabels⟩ := Option.map_eq_some_iff.1 hbead
  exact ⟨b, hget, fun l => hlabels ▸ Labels.not_mem_empty⟩

/-- A label of 33 characters, each of two bytes. -/
def wideLabel : String := String.ofList (List.replicate 33 'é')

/-- A label is taken without the blanks around it, twice the same is one, and a wide one spoils the
draft. -/
theorem wide_label_spoils_the_draft :
    let now : Instant := ⟨1, 0⟩
    let draft (last : String) : Draft := ⟨"plan", "", 4, .bug, none, ["ui", last]⟩
    (∃ b', (withBead.addLabel now "bd-1" "\u3000ui ").1 = .ok b') ∧
      (∃ b, (withBead.create now (draft "ui ")).1 = .ok b ∧ ∀ l, l ∈ b.labels ↔ l = "ui") ∧
      withBead.create now (draft wideLabel) = (.error .badLabel, withBead) := by
  intro now draft
  obtain ⟨hadd, -, -⟩ := labels_are_taken_by_characters_and_bytes withBead now "\u3000ui "
  obtain ⟨-, htwice, -⟩ := labels_are_taken_by_characters_and_bytes withBead now "ui "
  obtain ⟨-, hwide, -⟩ := labels_are_taken_by_characters_and_bytes withBead now wideLabel
  obtain ⟨b, hget, hnew⟩ := get?_withBead
  refine ⟨(hadd "bd-1" b hget (hnew _)).1.2 (by decide +kernel), ?_, ?_⟩
  · obtain ⟨htaken, -, hkept⟩ := htwice (draft "ui ") ["ui"] [] ⟨'p', by decide, by decide⟩
      (by decide) rfl (by decide +kernel)
    obtain ⟨b', hb'⟩ := htaken.2 (by decide +kernel)
    refine ⟨b', hb', fun l => ?_⟩
    have htrimmed : Text.trimmed "ui" = "ui" ∧ Text.trimmed "ui " = "ui" := by decide +kernel
    rw [(hkept b' hb').1 l]
    simp [draft, htrimmed]
  · obtain ⟨-, hrefused, -⟩ := hwide (draft wideLabel) ["ui"] [] ⟨'p', by decide, by decide⟩
      (by decide) rfl (by decide +kernel)
    exact hrefused (by decide +kernel)

/-- Not every label of 1 to 64 characters without blanks is taken. -/
theorem worded_labels_are_not_all_taken :
    ¬ ∀ (before : List (Instant × Operation)) (now : Instant) (id label : String) (b : Bead),
      (empty.run before).get? id = some b → ¬ Text.trimmed label ∈ b.labels →
        ((∃ b', ((empty.run before).addLabel now id label).1 = .ok b') ↔
          Worded (Text.trimmed label)) := by
  intro hall
  obtain ⟨b, hget, hnew⟩ := get?_withBead
  have hworded : Worded (Text.trimmed wideLabel) := by decide +kernel
  obtain ⟨b', htaken⟩ := (hall _ ⟨1, 0⟩ "bd-1" wideLabel b hget (hnew _)).2 hworded
  have hrefused : (withBead.addLabel ⟨1, 0⟩ "bd-1" wideLabel).1 = .error .badLabel := by
    decide +kernel
  cases hrefused.symm.trans htaken

/-- After any operations, a label that was put on a bead stands there in its trimmed form: under
that form the bead is listed, and the label can be taken off, which leaves the store as it was
before but for the time of the bead.  Lists and removals do not trim, so that under a spelling that
is not trimmed the bead is not listed, and nothing can be taken off. -/
theorem labels_go_by_their_trimmed_form (before : List (Instant × Operation))
    (now later : Instant) (id label : String) (b' : Bead) (s' : Store) :
    let s := empty.run before
    s.addLabel now id label = (.ok b', s') →
      ∃ b, s.get? id = some b ∧
        (id ∈ (s'.list { label := some (Text.trimmed label) }).map (·.id) ∧
          s'.removeLabel later id (Text.trimmed label) =
            (.ok { b with updatedAt := later }, s.put { b with updatedAt := later })) ∧
        (id ∈ (s'.list { label := some label }).map (·.id) ↔ Text.trimmed label = label) ∧
        ((∃ b'', (s'.removeLabel later id label).1 = .ok b'') ↔ Text.trimmed label = label) ∧
        (Text.trimmed label ≠ label →
          s'.removeLabel later id label = (.error (.labelAbsent id label), s')) := by
  intro s hadded
  obtain ⟨b, hget, hlabel, hnew, rfl, rfl⟩ := addLabel_eq_ok_iff.1 hadded
  have hb : b.WellFormed := (WellFormed.empty.run before).get? hget
  have hspelled := mem_labelled_iff now label hb
  have hid : (labelled now (Text.trimmed label) b).id = b.id := rfl
  have hput := get?_put hget hid
  have hremoved := removeLabel_of_added now later hget hnew
  have hrefused : Text.trimmed label ≠ label →
      (s.put (labelled now (Text.trimmed label) b)).removeLabel later id label =
        (.error (.labelAbsent id label), s.put (labelled now (Text.trimmed label) b)) :=
    fun hne => removeLabel_of_not_mem hput (mt hspelled.1 hne)
  refine ⟨b, hget, ⟨?_, hremoved⟩, ?_, ⟨?_, ?_⟩, hrefused⟩
  · exact (listed_put_iff hget hid).2 (Labels.mem_insert.2 (Or.inl rfl))
  · exact (listed_put_iff hget hid).trans hspelled
  · rintro ⟨b'', hdone⟩
    by_contra hne
    rw [hrefused hne] at hdone
    cases hdone
  · intro hsame
    rw [hsame] at hremoved ⊢
    exact ⟨_, congrArg Prod.fst hremoved⟩

/-- A trimmed label is found and taken off again as it was given. -/
theorem trimmed_label_comes_off :
    let now : Instant := ⟨1, 0⟩
    ∃ b b' s', withBead.addLabel now "bd-1" "ui" = (.ok b', s') ∧ withBead.get? "bd-1" = some b ∧
      "bd-1" ∈ (s'.list { label := some "ui" }).map (·.id) ∧
      s'.removeLabel now "bd-1" "ui" =
        (.ok { b with updatedAt := now }, withBead.put { b with updatedAt := now }) := by
  intro now
  obtain ⟨b, hget, hnew⟩ := get?_withBead
  have htrimmed : Text.trimmed "ui" = "ui" := by decide +kernel
  have hadded : withBead.addLabel now "bd-1" "ui" =
      (.ok (labelled now (Text.trimmed "ui") b),
        withBead.put (labelled now (Text.trimmed "ui") b)) :=
    addLabel_eq_ok_iff.2 ⟨b, hget, by decide +kernel, hnew _, rfl, rfl⟩
  obtain ⟨found, hfound, hsame, -⟩ :=
    labels_go_by_their_trimmed_form _ now now "bd-1" "ui" _ _ hadded
  obtain rfl : b = found := Option.some.inj (hget.symm.trans hfound)
  rw [htrimmed] at hsame hadded
  exact ⟨b, _, _, hadded, hget, hsame⟩

/-- Not every label that was added is found and taken off as it was spelled. -/
theorem spelled_label_is_not_found :
    ¬ ∀ (before : List (Instant × Operation)) (now later : Instant) (id label : String) (b' : Bead)
      (s' : Store), (empty.run before).addLabel now id label = (.ok b', s') →
        id ∈ (s'.list { label := some label }).map (·.id) ∧
          ∃ b'', (s'.removeLabel later id label).1 = .ok b'' := by
  intro hall
  have hadded : ((withBead.addLabel ⟨1, 0⟩ "bd-1" " ui ").1.toOption).isSome = true := by
    decide +kernel
  have hrefused : ((withBead.addLabel ⟨1, 0⟩ "bd-1" " ui ").2.removeLabel ⟨2, 0⟩ "bd-1" " ui ").1 =
      .error (.labelAbsent "bd-1" " ui ") := by
    decide +kernel
  cases hanswer : (withBead.addLabel ⟨1, 0⟩ "bd-1" " ui ").1 with
  | error f =>
      rw [hanswer] at hadded
      cases hadded
  | ok b' =>
      obtain ⟨-, b'', hremoved⟩ := hall _ ⟨1, 0⟩ ⟨2, 0⟩ "bd-1" " ui " b' _ (Prod.ext hanswer rfl)
      cases hrefused.symm.trans hremoved

end Store

end IssueTracker
