/-
  IssueTracker/Proofs/Store/Patching.lean --- what a patch makes of a bead.

  A patch is applied if it is `Applicable` to the bead, and then the bead is `amended`
  (`update_eq_ok_iff`).  The amended bead is closed if and only if the bead was, so that the same
  patch can be applied to it again, and this sets nothing but the time (`amended_amended`).
-/
import IssueTracker.Proofs.Bead.PatchReading
import IssueTracker.Proofs.Store.Effect
import IssueTracker.Proofs.Text.Trim

set_option autoImplicit false

namespace IssueTracker

open Json (Doc Tail)

theorem Reassignment.apply_apply (a : Reassignment) (old : Option String) :
    a.apply (a.apply old) = a.apply old := by
  cases a <;> rfl

namespace Store

variable {now later : Instant} {s s' : Store} {id : String} {patch : Patch} {b b' : Bead}

/-! ## Checks -/

theorem checkTitle_given_iff {given kept : Option String} :
    checkGiven checkTitle given = .ok kept ↔ kept = given.map Text.trimmed ∧
      ∀ title, given = some title → ∃ c ∈ title.toList, Text.isBlank c = false := by
  have hblank : ∀ title, Text.trimmed title ≠ "" ↔
      ∃ c ∈ title.toList, Text.isBlank c = false := by
    intro title
    rw [ne_eq, Text.trimmed_eq_empty_iff]
    simp
  rw [checkGiven_eq_ok_iff]
  cases given with
  | none => simp
  | some title => simp [checkTitle_eq_ok, hblank, and_comm]

theorem checkPriority_given_iff {given kept : Option Nat} :
    checkGiven checkPriority given = .ok kept ↔ kept = given ∧
      ∀ priority, given = some priority → priority ≤ greatestPriority := by
  rw [checkGiven_eq_ok_iff]
  cases given with
  | none => simp
  | some priority => simp [checkPriority_eq_ok, and_comm]

/-- May the patch be applied to the bead? -/
structure Applicable (patch : Patch) (b : Bead) : Prop where
  /-- A title that is given is not blank. -/
  title : ∀ title, patch.title = some title → ∃ c ∈ title.toList, Text.isBlank c = false
  priority : ∀ priority, patch.priority = some priority → priority ≤ greatestPriority
  /-- A closed bead stays closed, and one that is not closed is not closed by a patch. -/
  status : ∀ status, patch.status = some status → (status = .closed ↔ b.status = .closed)

/-- The bead after the patch was applied to it. -/
def amended (now : Instant) (patch : Patch) (b : Bead) : Bead :=
  patched now (patch.title.map Text.trimmed) patch.priority patch b

/-! ## Updates -/

theorem update_of_applicable (hget : s.get? id = some b) (h : Applicable patch b) :
    s.update now id patch = (.ok (amended now patch b), s.put (amended now patch b)) := by
  have htitle := checkTitle_given_iff.2 ⟨rfl, h.title⟩
  have hpriority := checkPriority_given_iff.2 ⟨rfl, h.priority⟩
  have hclosedness := changesClosedness_eq_false_iff.2 h.status
  simp [update, htitle, hpriority, get, hget, hclosedness, amended]

/-- An update is done if and only if there is a bead to which the patch can be applied. -/
theorem update_eq_ok_iff :
    s.update now id patch = (.ok b', s') ↔ ∃ b, s.get? id = some b ∧ Applicable patch b ∧
      b' = amended now patch b ∧ s' = s.put b' := by
  constructor
  · intro h
    have hdone : s.perform now (.update id patch) = (.ok (.updated b'), s') := by
      rw [perform, h]
      rfl
    cases effect_of_perform hdone with
    | update htitle hpriority hget hclosedness =>
        obtain ⟨rfl, hfilled⟩ := checkTitle_given_iff.1 htitle
        obtain ⟨rfl, hrange⟩ := checkPriority_given_iff.1 hpriority
        have hstatus := changesClosedness_eq_false_iff.1 hclosedness
        exact ⟨_, hget, ⟨hfilled, hrange, hstatus⟩, rfl, rfl⟩
  · rintro ⟨b, hget, happlicable, rfl, rfl⟩
    exact update_of_applicable hget happlicable

theorem amended_eq (now : Instant) (patch : Patch) (b : Bead) : amended now patch b =
    { b with
      title := (patch.title.map Text.trimmed).getD b.title
      description := patch.description.getD b.description
      status := patch.status.getD b.status
      priority := patch.priority.getD b.priority
      issueType := patch.issueType.getD b.issueType
      assignee :=
        match patch.assignee with
        | .keep => b.assignee
        | .clear => none
        | .assign name => some name
      updatedAt := now } := by
  unfold amended patched
  cases patch.assignee <;> rfl

/-! ## Once more -/

/-- A patch can be applied again: it is checked against the status that it sets itself. -/
theorem Applicable.amended (h : Applicable patch b) (now : Instant) :
    Applicable patch (amended now patch b) where
  title := h.title
  priority := h.priority
  status status hgiven := by
    have hstatus : (Store.amended now patch b).status = status := by
      rw [amended_eq, hgiven, Option.getD_some]
    rw [hstatus]

/-- What the patch gives was set by the first time, and what it does not give is kept. -/
theorem amended_amended (now later : Instant) (patch : Patch) (b : Bead) :
    amended later patch (amended now patch b) = { amended now patch b with updatedAt := later } := by
  have hgetD : ∀ {α : Type} (given : Option α) (old : α),
      given.getD (given.getD old) = given.getD old := by
    intro α given old
    cases given <;> rfl
  simp only [amended, patched, hgetD, Reassignment.apply_apply]

/-- The bead that was put into its place is the only one with its identity. -/
theorem eq_of_mem_put {x : Bead} (hx : x ∈ (s.put b).beads) (hid : x.id = b.id) : x = b := by
  obtain ⟨y, -, rfl⟩ := List.mem_map.1 hx
  by_cases hy : y.id = b.id
  · rw [if_pos hy]
  · rw [if_neg hy] at hid
    exact absurd hid hy

/-- To put it there once more with another time sets that time, and nothing else. -/
theorem put_put_updatedAt (b : Bead) (s : Store) (later : Instant) :
    (s.put b).put { b with updatedAt := later } =
      { s.put b with
        beads := (s.put b).beads.map fun x =>
          if x.id = b.id then { x with updatedAt := later } else x } := by
  have hbeads : ((s.put b).put { b with updatedAt := later }).beads =
      (s.put b).beads.map fun x => if x.id = b.id then { x with updatedAt := later } else x := by
    apply List.map_congr_left
    intro x hx
    by_cases hid : x.id = b.id
    · rw [if_pos hid, if_pos hid, eq_of_mem_put hx hid]
    · rw [if_neg hid, if_neg hid]
  rw [← hbeads]
  rfl

theorem update_again (hget : s.get? id = some b) (h : Applicable patch b) (now later : Instant) :
    (s.put (amended now patch b)).update later id patch =
      (.ok { amended now patch b with updatedAt := later },
        { s.put (amended now patch b) with
          beads := (s.put (amended now patch b)).beads.map fun x =>
            if x.id = id then { x with updatedAt := later } else x }) := by
  have hid : (amended now patch b).id = id := (mem_beads_of_get? hget).2
  have hagain : (s.put (amended now patch b)).get? id = some (amended now patch b) :=
    get?_put hget rfl
  rw [update_of_applicable hagain (h.amended now), amended_amended, put_put_updatedAt, hid]

/-- In every store, a patch is applied if and only if the bead is there, a title that is given is not
blank, a priority is in range, and a status is that of a closed bead exactly if the bead is closed.
Then the patch sets what it gives and the time of the change, and nothing else.  A second time the
same patch sets the time only.

A patch is read from an object whose members can be read, and holds what they give: null is as
good as nothing, except that it clears the assignee. -/
theorem patches_set_what_they_give (s : Store) (now later : Instant) (id : String)
    (patch : Patch) :
    ((∃ b', (s.update now id patch).1 = .ok b') ↔ ∃ b, s.get? id = some b ∧
        (∀ title, patch.title = some title → ∃ c ∈ title.toList, Text.isBlank c = false) ∧
        (∀ priority, patch.priority = some priority → priority ≤ 4) ∧
        ∀ status, patch.status = some status → (status = .closed ↔ b.status = .closed)) ∧
      (∀ b b', s.get? id = some b → (s.update now id patch).1 = .ok b' →
        let s' := (s.update now id patch).2
        b' = { b with
          title := (patch.title.map Text.trimmed).getD b.title
          description := patch.description.getD b.description
          status := patch.status.getD b.status
          priority := patch.priority.getD b.priority
          issueType := patch.issueType.getD b.issueType
          assignee :=
            match patch.assignee with
            | .keep => b.assignee
            | .clear => none
            | .assign name => some name
          updatedAt := now } ∧
        s' = { s with beads := s.beads.map fun x => if x.id = id then b' else x } ∧
        s'.update later id patch = (.ok { b' with updatedAt := later },
          { s' with
            beads := s'.beads.map fun x =>
              if x.id = id then { x with updatedAt := later } else x })) ∧
      ∀ ms tail p, Patch.read (.object ms tail) = .ok p ↔
        Json.Readable Patch.fields ms tail ∧ Patch.Given (fun name => ms.lookup (some name)) p := by
  refine ⟨?_, ?_, fun ms tail p => Patch.read_object_eq_ok_iff⟩
  · constructor
    · rintro ⟨b', hdone⟩
      obtain ⟨b, hget, happlicable, -⟩ := update_eq_ok_iff.1 (Prod.ext hdone rfl)
      exact ⟨b, hget, happlicable.title, happlicable.priority, happlicable.status⟩
    · rintro ⟨b, hget, htitle, hpriority, hstatus⟩
      have hdone : s.update now id patch = _ :=
        update_of_applicable hget ⟨htitle, hpriority, hstatus⟩
      exact ⟨_, congrArg Prod.fst hdone⟩
  · intro b b' hget hdone s'
    obtain ⟨found, hfound, happlicable, rfl, hput⟩ := update_eq_ok_iff.1 (Prod.ext hdone rfl)
    obtain rfl : found = b := Option.some_inj.1 (hfound.symm.trans hget)
    have hid : (amended now patch found).id = id := (mem_beads_of_get? hget).2
    have hs' : s' = s.put (amended now patch found) := hput
    refine ⟨amended_eq now patch found, ?_, ?_⟩
    · rw [hs', put, hid]
    · rw [hs']
      exact update_again hget happlicable now later

/-- The title that is given is trimmed, and null takes the assignee away, but leaves the priority. -/
theorem null_clears_the_assignee :
    let t (seconds : Int) : Instant := ⟨seconds, 0⟩
    let s := empty.run [(t 0, .create ⟨"work", "", 2, .task, some "ann", []⟩)]
    let bead (title : String) (assignee : Option String) (updatedAt : Instant) : Bead :=
      ⟨"bd-1", title, "", .opened, 2, .task, assignee, Labels.empty, t 0, updatedAt, none, none⟩
    let members : List (Option String × Doc) :=
      [(some "title", .text (some " plan ")), (some "assignee", .null), (some "priority", .null)]
    let patch : Patch := { title := some " plan ", assignee := .clear }
    let s' := (s.update (t 1) "bd-1" patch).2
    Patch.read (.object members .closed) = .ok patch ∧
      s.get? "bd-1" = some (bead "work" (some "ann") (t 0)) ∧
        (s.update (t 1) "bd-1" patch).1 = .ok (bead "plan" none (t 1)) ∧
          (s'.update (t 2) "bd-1" patch).1 = .ok (bead "plan" none (t 2)) := by
  intro t s bead members patch s'
  obtain ⟨-, hchanges, hreads⟩ := patches_set_what_they_give s (t 1) (t 2) "bd-1" patch
  have hget : s.get? "bd-1" = some (bead "work" (some "ann") (t 0)) := by decide +kernel
  have hdone : (s.update (t 1) "bd-1" patch).1 = .ok (bead "plan" none (t 1)) := by decide +kernel
  obtain ⟨-, -, hagain⟩ := hchanges _ _ hget hdone
  have hlegible : ∀ m ∈ members, Json.Legible Patch.fields m := by
    intro m hm
    simp only [members, List.mem_cons, List.not_mem_nil, or_false] at hm
    rcases hm with rfl | rfl | rfl <;> rfl
  have htitle : Json.Gives Doc.asText (members.lookup (some "title")) (some " plan ") :=
    Or.inr ⟨_, _, rfl, Doc.noConfusion, rfl, rfl⟩
  have hgiven : Patch.Given (fun name => members.lookup (some name)) patch :=
    ⟨htitle, Or.inl ⟨Or.inl rfl, rfl⟩, Or.inl ⟨Or.inl rfl, rfl⟩, Or.inl ⟨Or.inr rfl, rfl⟩,
      Or.inl ⟨Or.inl rfl, rfl⟩, Or.inr (Or.inl ⟨rfl, rfl⟩)⟩
  have hread := (hreads members .closed patch).2 ⟨⟨rfl, hlegible, by decide⟩, hgiven⟩
  exact ⟨hread, hget, hdone, congrArg Prod.fst hagain⟩

end Store

end IssueTracker
