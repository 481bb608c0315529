/-
  IssueTracker/Proofs/Store/Replica.lean --- a copy of the store that is made of what is
  published.

  An observer sees topics and texts, and nothing else.  It reads each text as the value that its
  topic announces, and does to its copy what the topic says (`Replica.apply`).  The text of a
  change is all that it has to know of it (`Replica.apply_change`), and a copy that was like the
  store before an operation is like the store after it, apart from the time of the change
  (`Mirrors.effect`).
-/
import IssueTracker.Bus.Basic
import IssueTracker.Proofs.Store.Contents
import IssueTracker.Proofs.Store.Identity
import IssueTracker.Proofs.Store.Integrity

set_option autoImplicit false

namespace IssueTracker

/-- What an observer knows of a store. -/
structure Replica where
  beads : List Bead := []
  dependencies : List Dependency := []
  comments : List Comment := []
  deriving DecidableEq, Inhabited

namespace Replica

/-! ## Reading what is published -/

/-- The bead and the label of a change of labels. -/
structure Labelling where
  beadId : String
  label : String
  deriving DecidableEq, Repr

open Json (Field) in
/-- The fields of a change of labels. -/
def Labelling.fields : List Field :=
  [.required "bead_id" Json.Doc.asText, .required "label" Json.Doc.asText]

/-- Reads a change of labels. -/
def Labelling.read : Json.Reader Labelling := fun d => do
  let r ← d.record fields
  return {
    beadId := ← r.get "bead_id" Json.Doc.asText
    label := ← r.get "label" Json.Doc.asText }

open Json (Field) in
/-- The fields of the notice that a bead was deleted. -/
def deletionFields : List Field :=
  [.required "id" Json.Doc.asText, .required "title" Json.Doc.asText]

/-- Reads which bead was deleted. -/
def readDeletion : Json.Reader String := fun d => do
  let r ← d.record deletionFields
  r.get "id" Json.Doc.asText

/-! ## Following -/

/-- The copy with a bead more. -/
def insert (b : Bead) (r : Replica) : Replica := { r with beads := r.beads ++ [b] }

/-- The copy with a bead in the place of the one of its identity. -/
def replace (b : Bead) (r : Replica) : Replica :=
  { r with beads := r.beads.map fun x => if x.id = b.id then b else x }

/-- The copy without a bead, its edges and its comments. -/
def remove (id : String) (r : Replica) : Replica :=
  { beads := r.beads.filter (·.id != id)
    dependencies := r.dependencies.filter fun d => !d.touches id
    comments := r.comments.filter (·.beadId != id) }

/-- The copy with other labels on a bead. -/
def relabel (change : Labels → Labels) (id : String) (r : Replica) : Replica :=
  { r with
    beads := r.beads.map fun x => if x.id = id then { x with labels := change x.labels } else x }

/-- The copy with a label more on a bead. -/
def addLabel (l : Labelling) : Replica → Replica := relabel (·.insert l.label) l.beadId

/-- The copy without a label on a bead. -/
def removeLabel (l : Labelling) : Replica → Replica := relabel (·.erase l.label) l.beadId

/-- The copy with an edge more. -/
def join (d : Dependency) (r : Replica) : Replica :=
  { r with dependencies := r.dependencies ++ [d] }

/-- The copy without the edges that lead from the one bead to the other. -/
def cut (d : Dependency) (r : Replica) : Replica :=
  { r with
    dependencies := r.dependencies.filter fun e => !e.joins d.dependent d.prerequisite }

/-- The copy with a comment more. -/
def remark (c : Comment) (r : Replica) : Replica := { r with comments := r.comments ++ [c] }

/-- Does what is to be done with the value of a text; `none` if it cannot be read. -/
def follow {α : Type} (read : Json.Reader α) (act : α → Replica → Replica) (text : String)
    (r : Replica) : Option Replica :=
  match Json.readText read text with
  | .ok a => some (act a r)
  | .error _ => none

/-- What the topics announce. -/
def followers : List (String × (String → Replica → Option Replica)) :=
  [("beads.bead.created", follow Bead.read insert),
   ("beads.bead.updated", follow Bead.read replace),
   ("beads.bead.closed", follow Bead.read replace),
   ("beads.bead.reopened", follow Bead.read replace),
   ("beads.bead.deleted", follow readDeletion remove),
   ("beads.label.added", follow Labelling.read addLabel),
   ("beads.label.removed", follow Labelling.read removeLabel),
   ("beads.dependency.added", follow Dependency.read join),
   ("beads.dependency.removed", follow Dependency.read cut),
   ("beads.comment.added", follow Comment.read remark)]

/-- Does to the copy what was done to the store; `none` for an unknown topic, and for a text that
cannot be read. -/
def apply (r : Replica) (m : Bus.Message) : Option Replica :=
  (followers.lookup m.topic).bind fun f => f m.payload r

/-- Follows messages from an empty copy on. -/
def replay (ms : List Bus.Message) : Option Replica := ms.foldlM apply {}

/-! ## Reading texts back -/

/-- A text that reads as its topic announces is followed. -/
theorem apply_of_mem {α : Type} {read : Json.Reader α} (act : α → Replica → Replica)
    {topic text : String} {a : α} (hmem : (topic, follow read act) ∈ followers)
    (hread : Json.readText read text = .ok a) (r : Replica) :
    r.apply ⟨topic, text⟩ = some (act a r) := by
  have hlookup : followers.lookup topic = some (follow read act) :=
    Json.lookup_of_mem (by decide) hmem
  rw [apply, hlookup, Option.bind_some, follow, hread]

/-- Two texts are found under their names. -/
theorem exists_texts {k l : String} (hne : k ≠ l) (x y : String) :
    ∃ r, Json.Doc.record [.required k Json.Doc.asText, .required l Json.Doc.asText]
        (Json.doc (.object [(k, .text x), (l, .text y)])) = .ok r ∧
      Json.Record.get r k Json.Doc.asText = .ok x ∧
        Json.Record.get r l Json.Doc.asText = .ok y := by
  let fields : List Json.Field := [.required k Json.Doc.asText, .required l Json.Doc.asText]
  have hreads : List.Forall₂ Json.Field.Reads fields [(k, .text x), (l, .text y)] := by
    refine .cons (Json.Field.reads_required (Json.Doc.asText_doc _)) ?_
    exact .cons (Json.Field.reads_required (Json.Doc.asText_doc _)) .nil
  have hnames : (fields.map (·.name)).Nodup := by simp [fields, Json.Field.required, hne]
  obtain ⟨r, hrecord, hlookup⟩ := Json.exists_record hnames hreads
  simp only [List.forall_mem_cons, List.not_mem_nil, false_implies, implies_true,
    and_true] at hlookup
  refine ⟨r, hrecord, ?_, ?_⟩
  · simp only [Json.Record.get, hlookup.1, Json.Doc.asText_doc]
  · simp only [Json.Record.get, hlookup.2, Json.Doc.asText_doc]

theorem readText_labelling (id label : String) :
    Json.readText Labelling.read
        (Json.object [("bead_id", .text id), ("label", .text label)]).render =
      .ok ⟨id, label⟩ := by
  have hfits : Json.fits 1 (.object [("bead_id", .text id), ("label", .text label)]) = true := rfl
  obtain ⟨r, hrecord, hid, hlabel⟩ :=
    exists_texts (k := "bead_id") (l := "label") (by decide) id label
  rw [Json.readText_render Labelling.read hfits]
  simp only [Labelling.read, Labelling.fields, hrecord, hid, hlabel, bind, Except.bind, pure,
    Except.pure]

theorem readText_deletion (id title : String) :
    Json.readText readDeletion (Json.object [("id", .text id), ("title", .text title)]).render =
      .ok id := by
  have hfits : Json.fits 1 (.object [("id", .text id), ("title", .text title)]) = true := rfl
  obtain ⟨r, hrecord, hid, -⟩ := exists_texts (k := "id") (l := "title") (by decide) id title
  rw [Json.readText_render readDeletion hfits]
  simp only [readDeletion, deletionFields, hrecord, hid, bind, Except.bind]

/-- The copy after a change. -/
def after (r : Replica) : Store.Change → Replica
  | .created b => r.insert b
  | .updated b | .closed b | .reopened b => r.replace b
  | .deleted b => r.remove b.id
  | .labelAdded b label => r.addLabel ⟨b.id, label⟩
  | .labelRemoved b label => r.removeLabel ⟨b.id, label⟩
  | .dependencyAdded d => r.join d
  | .dependencyRemoved d => r.cut d
  | .commentAdded c => r.remark c

/-- What is published of a change is all that a copy has to know of it. -/
theorem apply_change {c : Store.Change} (h : c.Keeps Instant.Shown) (r : Replica) :
    r.apply ⟨c.topic, c.payload.render⟩ = some (r.after c) := by
  have hbead : ∀ {b : Bead}, b.Keeps Instant.Shown →
      Json.readText Bead.read b.toJson.render = .ok b := fun hb =>
    Bead.readText_toJson (Nat.le_trans hb.priority (by decide)) hb.instants
  cases c with
  | created b =>
      exact apply_of_mem insert (by simp [followers, Store.Change.topic, Topic.beadCreated])
        (hbead h) r
  | updated b =>
      exact apply_of_mem replace (by simp [followers, Store.Change.topic, Topic.beadUpdated])
        (hbead h) r
  | closed b =>
      exact apply_of_mem replace (by simp [followers, Store.Change.topic, Topic.beadClosed])
        (hbead h) r
  | reopened b =>
      exact apply_of_mem replace (by simp [followers, Store.Change.topic, Topic.beadReopened])
        (hbead h) r
  | deleted b =>
      exact apply_of_mem remove (by simp [followers, Store.Change.topic, Topic.beadDeleted])
        (readText_deletion b.id b.title) r
  | labelAdded b label =>
      exact apply_of_mem addLabel (by simp [followers, Store.Change.topic, Topic.labelAdded])
        (readText_labelling b.id label) r
  | labelRemoved b label =>
      exact apply_of_mem removeLabel (by simp [followers, Store.Change.topic, Topic.labelRemoved])
        (readText_labelling b.id label) r
  | dependencyAdded d =>
      exact apply_of_mem join (by simp [followers, Store.Change.topic, Topic.dependencyAdded])
        (Dependency.readText_toJson h) r
  | dependencyRemoved d =>
      exact apply_of_mem cut (by simp [followers, Store.Change.topic, Topic.dependencyRemoved])
        (Dependency.readText_toJson h) r
  | commentAdded c =>
      exact apply_of_mem remark (by simp [followers, Store.Change.topic, Topic.commentAdded])
        (Comment.readText_toJson h.1 h.2) r

end Replica

/-! ## Copies of a store -/

/-- The bead without the time of its last change. -/
def Bead.undated (b : Bead) : Bead := { b with updatedAt := ⟨0, 0⟩ }

namespace Store

variable {now : Instant} {s s' : Store} {op : Operation} {c : Change} {r : Replica}

/-- The copy has what the store has, apart from the times of the last changes. -/
structure Mirrors (r : Replica) (s : Store) : Prop where
  beads : r.beads.map Bead.undated = s.beads.map Bead.undated
  dependencies : r.dependencies = s.dependencies
  comments : r.comments = s.comments

/-- To change the bead of an identity commutes with leaving out the times. -/
theorem map_undated_at {f g : Bead → Bead} (h : ∀ x, (f x).undated = g x.undated) (id : String)
    (bs : List Bead) :
    (bs.map fun x => if x.id = id then f x else x).map Bead.undated =
      (bs.map Bead.undated).map fun x => if x.id = id then g x else x := by
  simp only [List.map_map]
  refine List.map_congr_left fun x _ => ?_
  have hid : x.undated.id = x.id := rfl
  by_cases hx : x.id = id
  · simp only [Function.comp, hid, if_pos hx, h]
  · simp only [Function.comp, hid, if_neg hx]

theorem Mirrors.replace (h : Mirrors r s) (b : Bead) : Mirrors (r.replace b) (s.put b) where
  beads := by
    have hput := map_undated_at (f := fun _ => b) (g := fun _ => b.undated) (fun _ => rfl) b.id
    simp only [Replica.replace, Store.put, hput, h.beads]
  dependencies := h.dependencies
  comments := h.comments

theorem Mirrors.remove (h : Mirrors r s) (id : String) : Mirrors (r.remove id) (s.forget id) where
  beads := by
    have hfilter : ∀ bs : List Bead,
        (bs.filter (·.id != id)).map Bead.undated = (bs.map Bead.undated).filter (·.id != id) := by
      intro bs
      rw [List.filter_map]
      rfl
    simp only [Replica.remove, Store.forget, hfilter, h.beads]
  dependencies := by simp only [Replica.remove, Store.forget, h.dependencies]
  comments := by simp only [Replica.remove, Store.forget, h.comments]

/-- To change the labels of a bead that has an identity of its own is to put the bead with the other
labels into its place. -/
theorem Mirrors.relabel (h : Mirrors r s) (hnumbered : Numbered s) {id : String} {b b' : Bead}
    (hget : s.get? id = some b) {change : Labels → Labels}
    (hb' : b'.undated = { b.undated with labels := change b.labels }) :
    Mirrors (r.relabel change id) (s.put b') where
  beads := by
    obtain ⟨hmem, hid⟩ := mem_beads_of_get? hget
    have hid' : b'.id = id := (congrArg Bead.id hb').trans hid
    have hrelabel := map_undated_at (f := fun x => { x with labels := change x.labels })
      (g := fun x => { x with labels := change x.labels }) (fun _ => rfl) id
    simp only [Replica.relabel, Store.put, hrelabel, h.beads, hid']
    simp only [List.map_map]
    refine List.map_congr_left fun x hx => ?_
    by_cases hxid : x.id = id
    · have heq : x = b := hnumbered.eq_of_id_eq hx hmem (hxid.trans hid.symm)
      simp only [Function.comp, heq, Bead.undated, hid, if_true] at hb' ⊢
      exact hb'.symm
    · simp [Bead.undated, hxid]
  dependencies := h.dependencies
  comments := h.comments

theorem Mirrors.cut (h : Mirrors r s) (hsound : Sound s) (d : Dependency) :
    Mirrors (r.cut d)
      { s with dependencies := s.dependencies.eraseP (·.joins d.dependent d.prerequisite) } where
  beads := h.beads
  dependencies := by
    simp only [Replica.cut, eraseP_joins hsound.pairs, h.dependencies]
  comments := h.comments

theorem Mirrors.empty : Mirrors {} Store.empty := ⟨rfl, rfl, rfl⟩

/-- A copy that does the changes that the store does stays a copy of the store. -/
theorem Mirrors.effect (h : Mirrors r s) (hnumbered : Numbered s) (hsound : Sound s)
    (heffect : Effect now s op c s') : Mirrors (r.after c) s' := by
  cases heffect with
  | create htitle hpriority hlabels =>
      refine ⟨?_, h.dependencies, h.comments⟩
      simp only [Replica.after, Replica.insert, List.map_append, h.beads]
  | update htitle hpriority hget hclosedness => exact h.replace _
  | close hget hopen => exact h.replace _
  | reopen hget hclosed => exact h.replace _
  | delete hget =>
      obtain ⟨-, rfl⟩ := mem_beads_of_get? hget
      exact h.remove _
  | addLabel hlabel hget hnew =>
      obtain ⟨-, rfl⟩ := mem_beads_of_get? hget
      exact h.relabel hnumbered hget rfl
  | removeLabel hget hlabel =>
      obtain ⟨-, rfl⟩ := mem_beads_of_get? hget
      exact h.relabel hnumbered hget rfl
  | addDependency hne hdependent hprerequisite hnew hcycle =>
      refine ⟨h.beads, ?_, h.comments⟩
      simp only [Replica.after, Replica.join, h.dependencies]
  | removeDependency hfind =>
      obtain ⟨rfl, rfl⟩ := Dependency.joins_iff.1 (List.find?_some hfind)
      exact h.cut hsound _
  | addComment htext hget =>
      refine ⟨h.beads, h.dependencies, ?_⟩
      simp only [Replica.after, Replica.remark, h.comments]

end Store

end IssueTracker
