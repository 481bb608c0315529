/-
  IssueTracker/Proofs/Bead/PatchReading.lean --- which patch an object is read as.

  `Patch.Given` says what the members of an object give to each field of a patch.  The reader
  finds that patch and no other (`Patch.read_object_eq_ok_iff`), and refuses an object only if it
  breaks off, gives a field twice, or has a member that does not read.
-/
import IssueTracker.Bead.Request
import IssueTracker.Proofs.Json.Reading

set_option autoImplicit false

namespace IssueTracker

namespace Json

variable {α β ε : Type} {read : Reader α} {r : Record} {name : String} {d : Doc}

theorem bind_eq_ok_iff {x : Except ε α} {f : α → Except ε β} {b : β} :
    (x >>= f) = .ok b ↔ ∃ a, x = .ok a ∧ f a = .ok b := by
  cases x with
  | error e => simp [bind, Except.bind]
  | ok a => simp [bind, Except.bind]

/-- The member of an optional field gives nothing if it is missing or null, and else what is
read. -/
def Gives (read : Reader α) (member : Option Doc) (value : Option α) : Prop :=
  (member = none ∨ member = some .null) ∧ value = none ∨
    ∃ d a, member = some d ∧ d ≠ .null ∧ read d = .ok a ∧ value = some a

theorem asOption_of_ne_null (hd : d ≠ .null) : d.asOption read = (read d).map some := by
  cases d with
  | null => exact absurd rfl hd
  | _ => rfl

theorem getD_asOption_eq_ok_iff {value : Option α} :
    r.getD name (Doc.asOption read) none = .ok value ↔ Gives read (r.lookup name) value := by
  unfold Record.getD Gives
  cases r.lookup name with
  | none => simp [eq_comm]
  | some d =>
      by_cases hd : d = .null
      · simp [hd, Doc.asOption, eq_comm]
      · simp only [asOption_of_ne_null hd]
        cases hread : read d with
        | error _ => simp [Except.map, hread, hd]
        | ok a => simp [Except.map, hread, hd, eq_comm]

end Json

open Json (Doc Tail Gives)

/-- A missing assignee stays, null clears it, and a text is the new one. -/
def Reassignment.Given (member : Option Doc) (assignee : Reassignment) : Prop :=
  member = none ∧ assignee = .keep ∨ member = some .null ∧ assignee = .clear ∨
    ∃ name, member = some (.text (some name)) ∧ assignee = .assign name

theorem Reassignment.getD_eq_ok_iff {r : Json.Record} {name : String} {a : Reassignment} :
    r.getD name read .keep = .ok a ↔ Given (r.lookup name) a := by
  unfold Json.Record.getD Given
  cases r.lookup name with
  | none => simp [eq_comm]
  | some d =>
      rcases d with _ | _ | _ | (_ | s) | _ | _ | _ <;>
        simp [read, Doc.asOption, Doc.asText, Except.map, bind, Except.bind, pure, Except.pure,
          eq_comm]

namespace Patch

variable {member member' : String → Option Doc} {ms : List (Option String × Doc)} {tail : Tail}
  {d : Doc} {p : Patch}

/-- What the members of an object give to a patch. -/
structure Given (member : String → Option Doc) (p : Patch) : Prop where
  title : Gives Doc.asText (member "title") p.title
  description : Gives Doc.asText (member "description") p.description
  status : Gives Status.read (member "status") p.status
  priority : Gives (Doc.asNat priorityLimit) (member "priority") p.priority
  issueType : Gives IssueType.read (member "issue_type") p.issueType
  assignee : Reassignment.Given (member "assignee") p.assignee

/-- Only the members with the names of fields give something. -/
theorem Given.congr (h : Given member p)
    (hsame : ∀ name ∈ fields.map (·.name), member name = member' name) : Given member' p where
  title := hsame "title" (by decide) ▸ h.title
  description := hsame "description" (by decide) ▸ h.description
  status := hsame "status" (by decide) ▸ h.status
  priority := hsame "priority" (by decide) ▸ h.priority
  issueType := hsame "issue_type" (by decide) ▸ h.issueType
  assignee := hsame "assignee" (by decide) ▸ h.assignee

/-- The fields are read one by one from the record. -/
theorem read_eq_ok_iff :
    read d = .ok p ↔ ∃ r, d.record fields = .ok r ∧ Given (fun name => r.lookup name) p := by
  simp only [read, Json.bind_eq_ok_iff, Json.getD_asOption_eq_ok_iff, Reassignment.getD_eq_ok_iff]
  refine exists_congr fun r => and_congr_right fun _ => ?_
  constructor
  · rintro ⟨title, htitle, description, hdescription, status, hstatus, priority, hpriority,
      issueType, hissueType, assignee, hassignee, heq⟩
    cases heq
    exact ⟨htitle, hdescription, hstatus, hpriority, hissueType, hassignee⟩
  · rintro ⟨htitle, hdescription, hstatus, hpriority, hissueType, hassignee⟩
    exact ⟨_, htitle, _, hdescription, _, hstatus, _, hpriority, _, hissueType, _, hassignee, rfl⟩

/-- An object is read as a patch if its members can be read, and then as the one that they give. -/
theorem read_object_eq_ok_iff :
    read (.object ms tail) = .ok p ↔
      Json.Readable fields ms tail ∧ Given (fun name => ms.lookup (some name)) p := by
  have hoptional : ∀ f ∈ fields, f.optional = true := by decide
  simp only [read_eq_ok_iff, Json.record_object_eq_ok_iff hoptional]
  constructor
  · rintro ⟨_, ⟨hreadable, rfl⟩, hgiven⟩
    exact ⟨hreadable, hgiven.congr fun name hname => hreadable.lookup hname⟩
  · rintro ⟨hreadable, hgiven⟩
    refine ⟨_, ⟨hreadable, rfl⟩, hgiven.congr fun name hname => ?_⟩
    exact (hreadable.lookup hname).symm

end Patch

end IssueTracker
