/-
  IssueTracker/Proofs/Bead/RoundTrip.lean --- beads, edges and comments are read from their text.

  What is answered and published is written so that nothing is lost: the text of a bead is read
  as that bead (`Bead.readText_toJson`), and likewise for an edge and a comment.  It takes no more
  than that the numbers are in their range and that a clock could show the instants.
-/
import IssueTracker.Bead.Comment
import IssueTracker.Bead.Dependency
import IssueTracker.Proofs.Instant.RoundTrip
import IssueTracker.Proofs.Json.Reading

set_option autoImplicit false

namespace IssueTracker

open Json (Field doc fits exists_record readText readText_render greatestDepth)

/-! ## Fields -/

namespace Json

variable {α : Type} {read : Reader α} {j : Json} {a : α} {name : String}

theorem Field.reads_required (h : read (doc j) = .ok a) :
    Field.Reads (.required name read) (name, j) := by
  refine ⟨rfl, ?_⟩
  simp only [Field.required, Reader.fault?, h]

theorem Field.reads_optionalIn (h : read (doc j) = .ok a) :
    Field.Reads (.optionalIn name read) (name, j) := by
  refine ⟨rfl, ?_⟩
  simp only [Field.optionalIn, Reader.fault?, h]

end Json

/-! ## Labels -/

namespace Labels

theorem insertItem_of_forall_lt {l : String} {ms : List String} (h : ∀ m ∈ ms, m < l) :
    insertItem l ms = ms ++ [l] := by
  induction ms with
  | nil => rfl
  | cons m ms ih =>
      rw [List.forall_mem_cons] at h
      have hafter : ¬ l < m := fun hlt => String.lt_irrefl l (String.lt_trans hlt h.1)
      have hne : l ≠ m := by
        rintro rfl
        exact hafter h.1
      rw [insertItem, if_neg hafter, if_neg hne, ih h.2, List.cons_append]

/-- Ascending labels that stand behind those of a set are put there one after the other. -/
theorem items_foldl_insert {ls : List String} {s : Labels}
    (h : (s.items ++ ls).Pairwise (· < ·)) :
    (ls.foldl (fun s l => s.insert l) s).items = s.items ++ ls := by
  induction ls generalizing s with
  | nil => simp
  | cons l ls ih =>
      have hbehind : (s.insert l).items = s.items ++ [l] := by
        refine insertItem_of_forall_lt fun m hm => ?_
        exact (List.pairwise_append.1 h).2.2 m hm l List.mem_cons_self
      rw [List.foldl_cons, ih, hbehind, List.append_assoc, List.singleton_append]
      rwa [hbehind, List.append_assoc, List.singleton_append]

/-- A set is that of its members. -/
theorem ofList_items (ls : Labels) : ofList ls.items = ls := by
  have hitems : (ofList ls.items).items = ls.items := items_foldl_insert ls.ascending
  cases hls : ofList ls.items
  cases ls
  simpa [hls] using hitems

theorem read_doc (ls : Labels) : read (doc ls.toJson) = .ok ls := by
  have hitems : Json.Doc.asList Json.Doc.asText (doc ls.toJson) = .ok ls.items :=
    Json.Doc.asList_doc fun l _ => Json.Doc.asText_doc l
  rw [read, hitems]
  exact congrArg Except.ok (ofList_items ls)

theorem itemsFit_map_text (depth : Nat) (ls : List String) :
    Json.itemsFit depth (ls.map .text) = true := by
  induction ls with
  | nil => cases depth <;> rfl
  | cons l ls ih => cases depth <;> simpa [Json.itemsFit, fits] using ih

end Labels

/-! ## Single values -/

theorem Status.read_doc (s : Status) : read (doc s.toJson) = .ok s :=
  Json.Doc.asName_doc s.lookup_name

theorem IssueType.read_doc (t : IssueType) : read (doc t.toJson) = .ok t :=
  Json.Doc.asName_doc t.lookup_name

theorem Dependency.Kind.read_doc (k : Dependency.Kind) : read (doc k.toJson) = .ok k :=
  Json.Doc.asName_doc k.lookup_name

theorem Instant.readJson_doc {t : Instant} (h : t.Shown) : readJson (doc t.toJson) = .ok t := by
  simp only [readJson, toJson, Json.Doc.asText_doc, bind, Except.bind, read?_write h]

/-! ## Beads -/

namespace Bead

/-- The instants of a bead. -/
def instants (b : Bead) : List Instant := b.createdAt :: b.updatedAt :: b.closedAt.toList

/-- The time at which a bead was closed is read, if there is one. -/
theorem read_closedAt {b : Bead} {j : Json} (hj : ("closed_at", j) ∈ b.members)
    (h : ∀ t ∈ b.instants, t.Shown) :
    Json.Doc.asOption Instant.readJson (doc j) = .ok b.closedAt := by
  simp only [members, List.mem_cons, Prod.mk.injEq, String.reduceEq, false_and, true_and, false_or,
    List.not_mem_nil, or_false] at hj
  cases hclosed : b.closedAt with
  | none =>
      rw [hclosed] at hj
      rw [hj]
      rfl
  | some t =>
      have ht : t.Shown := h t (by simp [instants, hclosed])
      have hread := Instant.readJson_doc ht
      rw [hclosed] at hj
      simp only [Instant.toJson] at hj hread
      rw [hj, Json.Doc.asOption_text, hread]
      rfl

/-- The members of a bead are those that its fields read. -/
theorem reads_members {b : Bead} (hpriority : b.priority ≤ priorityLimit)
    (hinstants : ∀ t ∈ b.instants, t.Shown) : List.Forall₂ Field.Reads fields b.members := by
  have hcreated : b.createdAt.Shown := hinstants _ (by simp [instants])
  have hupdated : b.updatedAt.Shown := hinstants _ (by simp [instants])
  refine .cons (Field.reads_required (Json.Doc.asText_doc _)) ?_
  refine .cons (Field.reads_required (Json.Doc.asText_doc _)) ?_
  refine .cons (Field.reads_required (Json.Doc.asText_doc _)) ?_
  refine .cons (Field.reads_required (Status.read_doc _)) ?_
  refine .cons (Field.reads_required (Json.Doc.asNat_doc hpriority (by decide))) ?_
  refine .cons (Field.reads_required (IssueType.read_doc _)) ?_
  refine .cons (Field.reads_optionalIn (Json.Doc.asOption_textOrNull _)) ?_
  refine .cons (Field.reads_required (Labels.read_doc _)) ?_
  refine .cons (Field.reads_required (Instant.readJson_doc hcreated)) ?_
  refine .cons (Field.reads_required (Instant.readJson_doc hupdated)) ?_
  refine .cons (Field.reads_optionalIn (read_closedAt (by simp [members]) hinstants)) ?_
  exact .cons (Field.reads_optionalIn (Json.Doc.asOption_textOrNull _)) .nil

theorem read_doc {b : Bead} (hpriority : b.priority ≤ priorityLimit)
    (hinstants : ∀ t ∈ b.instants, t.Shown) : read (doc b.toJson) = .ok b := by
  have hcreated : b.createdAt.Shown := hinstants _ (by simp [instants])
  have hupdated : b.updatedAt.Shown := hinstants _ (by simp [instants])
  obtain ⟨r, hrecord, hlookup⟩ := exists_record (by decide) (reads_members hpriority hinstants)
  obtain ⟨⟨_, j⟩, hj, rfl⟩ :=
    List.mem_map.1 (show "closed_at" ∈ b.members.map (·.1) by simp [members])
  have hclosed := hlookup _ hj
  have hreadClosed := read_closedAt hj hinstants
  simp only [members, List.forall_mem_cons, List.not_mem_nil, false_implies, implies_true,
    and_true] at hlookup
  obtain ⟨hid, htitle, hdescription, hstatus, hnumber, htype, hassignee, hlabels, hcreatedAt,
    hupdatedAt, -, hreason⟩ := hlookup
  simp only [read, toJson, hrecord, Json.Record.get, Json.Record.getD, hid, htitle, hdescription,
    hstatus, hnumber, htype, hassignee, hlabels, hcreatedAt, hupdatedAt, hclosed, hreason,
    Json.Doc.asText_doc, Status.read_doc, Json.Doc.asNat_doc hpriority (by decide),
    IssueType.read_doc, Json.Doc.asOption_textOrNull, Labels.read_doc,
    Instant.readJson_doc hcreated, Instant.readJson_doc hupdated, hreadClosed, bind, Except.bind,
    pure, Except.pure]

theorem fits_toJson {b : Bead} (hpriority : b.priority ≤ priorityLimit) (depth : Nat) :
    fits (depth + 2) b.toJson = true := by
  have hnumber : fits (depth + 1) (.int b.priority) = true :=
    Json.fits_nat (Nat.le_trans hpriority (by decide)) _
  have hassignee : fits (depth + 1) (Json.textOrNull b.assignee) = true := by
    cases b.assignee <;> rfl
  have hreason : fits (depth + 1) (Json.textOrNull b.closeReason) = true := by
    cases b.closeReason <;> rfl
  simp only [toJson, members, fits, Json.membersFit, Status.toJson, IssueType.toJson,
    Instant.toJson, Labels.toJson, Labels.itemsFit_map_text, Bool.and_eq_true, true_and, and_true]
  refine ⟨?_, hassignee, ?_, hreason⟩
  · simpa only [fits, Bool.and_eq_true] using hnumber
  · cases b.closedAt <;> rfl

/-- The text of a bead is read as the bead. -/
theorem readText_toJson {b : Bead} (hpriority : b.priority ≤ priorityLimit)
    (hinstants : ∀ t ∈ b.instants, t.Shown) : readText read b.toJson.render = .ok b := by
  rw [readText_render read (fits_toJson hpriority 0), read_doc hpriority hinstants]

end Bead

/-! ## Edges -/

namespace Dependency

theorem fits_toJson (d : Dependency) (depth : Nat) : fits (depth + 1) d.toJson = true := by
  cases depth <;> rfl

/-- The text of an edge is read as the edge. -/
theorem readText_toJson {d : Dependency} (h : d.createdAt.Shown) :
    readText read d.toJson.render = .ok d := by
  have hread : List.Forall₂ Field.Reads fields
      [("from_id", .text d.dependent), ("to_id", .text d.prerequisite), ("kind", d.kind.toJson),
        ("created_at", d.createdAt.toJson)] := by
    refine .cons (Field.reads_required (Json.Doc.asText_doc _)) ?_
    refine .cons (Field.reads_required (Json.Doc.asText_doc _)) ?_
    refine .cons (Field.reads_required (Kind.read_doc _)) ?_
    exact .cons (Field.reads_required (Instant.readJson_doc h)) .nil
  obtain ⟨r, hrecord, hlookup⟩ := exists_record (by decide) hread
  simp only [List.forall_mem_cons, List.not_mem_nil, false_implies, implies_true,
    and_true] at hlookup
  obtain ⟨hdependent, hprerequisite, hkind, hcreatedAt⟩ := hlookup
  rw [readText_render read (fits_toJson d 0)]
  simp only [read, toJson, hrecord, Json.Record.get, hdependent, hprerequisite, hkind, hcreatedAt,
    Json.Doc.asText_doc, Kind.read_doc, Instant.readJson_doc h, bind, Except.bind, pure,
    Except.pure]

end Dependency

/-! ## Comments -/

namespace Comment

theorem fits_toJson {c : Comment} (hid : c.id ≤ Text.maxWord64) (depth : Nat) :
    fits (depth + 1) c.toJson = true := by
  have hnumber : fits depth (.int c.id) = true := Json.fits_nat hid depth
  cases depth <;> simpa [toJson, fits, Json.membersFit, Instant.toJson] using hnumber

/-- The text of a comment is read as the comment. -/
theorem readText_toJson {c : Comment} (hid : c.id ≤ Text.maxWord64) (h : c.createdAt.Shown) :
    readText read c.toJson.render = .ok c := by
  have hread : List.Forall₂ Field.Reads fields
      [("id", .int c.id), ("bead_id", .text c.beadId), ("author", .text c.author),
        ("text", .text c.text), ("created_at", c.createdAt.toJson)] := by
    refine .cons (Field.reads_required (Json.Doc.asNat_doc hid (Nat.le_refl _))) ?_
    refine .cons (Field.reads_required (Json.Doc.asText_doc _)) ?_
    refine .cons (Field.reads_required (Json.Doc.asText_doc _)) ?_
    refine .cons (Field.reads_required (Json.Doc.asText_doc _)) ?_
    exact .cons (Field.reads_required (Instant.readJson_doc h)) .nil
  obtain ⟨r, hrecord, hlookup⟩ := exists_record (by decide) hread
  simp only [List.forall_mem_cons, List.not_mem_nil, false_implies, implies_true,
    and_true] at hlookup
  obtain ⟨hnumber, hbead, hauthor, htext, hcreatedAt⟩ := hlookup
  rw [readText_render read (fits_toJson hid 0)]
  simp only [read, toJson, hrecord, Json.Record.get, hnumber, hbead, hauthor, htext, hcreatedAt,
    Json.Doc.asText_doc, Json.Doc.asNat_doc hid (Nat.le_refl _), Instant.readJson_doc h, bind,
    Except.bind, pure, Except.pure]

end Comment

end IssueTracker
