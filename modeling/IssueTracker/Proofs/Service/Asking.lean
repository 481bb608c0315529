/-
  IssueTracker/Proofs/Service/Asking.lean --- which requests change the store.

  Ten routes change the store (`mutations`).  `Asks` says for each what a request on it asks for:
  the method and the place, the names that are spelled in the path (`Spells`) and the body decide
  the operation.  A request is read as that operation exactly if it asks for it
  (`ofRequest_eq_change_iff`), on the ten routes it is read as nothing else, and one that cannot be
  read is answered as a failure.
-/
import IssueTracker.Proofs.Store.Payload
import IssueTracker.Proofs.Text.Utf8
import IssueTracker.Service.Server
import Mathlib.Data.List.Forall2

set_option autoImplicit false

namespace IssueTracker

namespace Service

open Http (Request)

variable {caller : Caller} {actor : String} {r : Request} {p : Place} {names : List String}
  {op : Store.Operation} {action : Action} {a : Answer}

/-! ## Names in the path -/

/-- A segment spells a name: with its percent escapes replaced, it is the bytes of the name. -/
def Spells (segment name : String) : Prop :=
  Text.Percent.decode (Text.Utf8.bytes segment) = Text.Utf8.bytes name

theorem decodeSegment?_eq_some_iff {segment name : String} :
    decodeSegment? segment = some name ↔ Spells segment name := by
  rw [decodeSegment?, Option.map_eq_some_iff, Spells]
  constructor
  · rintro ⟨cs, hread, rfl⟩
    rw [← Text.Utf8.decode?_eq_some_iff.1 hread, Text.Utf8.bytes, String.toList_ofList]
  · intro hspells
    exact ⟨name.toList, Text.Utf8.decode?_eq_some_iff.2 hspells.symm, String.ofList_toList⟩

theorem decodeSegments?_eq_some_iff {segments : List String} :
    decodeSegments? segments = some names ↔ List.Forall₂ Spells segments names := by
  induction segments generalizing names with
  | nil =>
      rw [decodeSegments?, Option.some.injEq, List.forall₂_nil_left_iff]
      exact eq_comm
  | cons segment segments ih =>
      simp only [decodeSegments?, Option.bind_eq_bind, Option.bind_eq_some_iff, Option.pure_def,
        Option.some.injEq, List.forall₂_cons_left_iff, decodeSegment?_eq_some_iff, ih]
      constructor
      · rintro ⟨name, hname, rest, hrest, rfl⟩
        exact ⟨name, rest, hname, hrest, rfl⟩
      · rintro ⟨name, rest, hname, hrest, rfl⟩
        exact ⟨name, hname, rest, hrest, rfl⟩

/-! ## Routes -/

/-- The routes by which the store is changed, with the topics of the changes. -/
def mutations : List ((Http.Method × Place) × String) :=
  [((.post, .beads), "beads.bead.created"),
   ((.patch, .bead), "beads.bead.updated"),
   ((.delete, .bead), "beads.bead.deleted"),
   ((.post, .close), "beads.bead.closed"),
   ((.post, .reopen), "beads.bead.reopened"),
   ((.post, .labels), "beads.label.added"),
   ((.delete, .label), "beads.label.removed"),
   ((.post, .dependencies), "beads.dependency.added"),
   ((.delete, .dependency), "beads.dependency.removed"),
   ((.post, .comments), "beads.comment.added")]

/-- The topic of the route of a request, if it is one of these. -/
def mutationTopic? (r : Request) : Option String :=
  (Place.ofPath? r.path).bind fun p => mutations.lookup (r.method, p.1)

/-- The reason that a request to close gives.  It is optional: a body that does not read gives
none. -/
inductive GivesReason (r : Request) : Option String → Prop where
  | told {reason : Option String} (hbody : readBody readCloseReason r = .ok reason) :
      GivesReason r reason
  | untold {a : Answer} (hbody : readBody readCloseReason r = .error a) : GivesReason r none

theorem givesReason_iff {reason : Option String} :
    GivesReason r reason ↔ closeReason r = reason := by
  unfold closeReason
  constructor
  · rintro (hbody | hbody) <;> rw [hbody]
  · rintro rfl
    cases hbody : readBody readCloseReason r with
    | ok reason => exact .told hbody
    | error a => exact .untold hbody

/-- What a request of an actor asks for at a place, given the names in its path. -/
inductive AsksAt (actor : String) (r : Request) :
    Place → List String → Store.Operation → Prop where
  | create {names : List String} {draft : Draft} (hmethod : r.method = .post)
      (hbody : readBody Draft.read r = .ok draft) :
      AsksAt actor r .beads names (.create draft)
  | update {id : String} {patch : Patch} (hmethod : r.method = .patch)
      (hbody : readBody Patch.read r = .ok patch) :
      AsksAt actor r .bead [id] (.update id patch)
  | delete {id : String} (hmethod : r.method = .delete) : AsksAt actor r .bead [id] (.delete id)
  | close {id : String} {reason : Option String} (hmethod : r.method = .post)
      (hreason : GivesReason r reason) : AsksAt actor r .close [id] (.close id reason)
  | reopen {id : String} (hmethod : r.method = .post) : AsksAt actor r .reopen [id] (.reopen id)
  | addLabel {id label : String} (hmethod : r.method = .post)
      (hbody : readBody readLabel r = .ok label) :
      AsksAt actor r .labels [id] (.addLabel id label)
  | removeLabel {id label : String} (hmethod : r.method = .delete) :
      AsksAt actor r .label [id, label] (.removeLabel id label)
  | addDependency {id : String} {draft : DependencyDraft} (hmethod : r.method = .post)
      (hbody : readBody DependencyDraft.read r = .ok draft) :
      AsksAt actor r .dependencies [id] (.addDependency id draft.dependsOn draft.kind)
  | removeDependency {id other : String} (hmethod : r.method = .delete) :
      AsksAt actor r .dependency [id, other] (.removeDependency id other)
  /-- The author is who sends the request. -/
  | addComment {id text : String} (hmethod : r.method = .post)
      (hbody : readBody readCommentText r = .ok text) :
      AsksAt actor r .comments [id] (.addComment id actor text)

/-- The request of an actor asks for the operation. -/
def Asks (actor : String) (r : Request) (op : Store.Operation) : Prop :=
  ∃ p segments names, Place.ofPath? r.path = some (p, segments) ∧
    List.Forall₂ Spells segments names ∧ AsksAt actor r p names op

/-! ## Reading at a place -/

theorem method_eq_of_ne_get {m : Http.Method} (h : Place.method r = m) (hm : m ≠ .get) :
    r.method = m := by
  unfold Place.method at h
  split at h
  · exact absurd h.symm hm
  · exact h

/-- How a request is read at a place: as an operation that it asks for, as a look at something, or
not at all. -/
inductive ReadsAt (caller : Caller) (r : Request) (p : Place) (names : List String) :
    Except Answer Action → Prop where
  | asked {op : Store.Operation} (h : AsksAt caller.actor r p names op) :
      ReadsAt caller r p names (.ok (.change op))
  | shown {action : Action} (hmethod : Place.method r = .get)
      (hlook : ∀ op, action ≠ .change op) : ReadsAt caller r p names (.ok action)
  | refused {a : Answer} (hstatus : 400 ≤ a.status) : ReadsAt caller r p names (.error a)

/-- A body is rejected because it is no JSON, or too long, or not said to be JSON, or not what is
asked for. -/
theorem readBody_error {α : Type} {read : Json.Reader α} (h : readBody read r = .error a) :
    a.status = 400 ∨ a.status = 413 ∨ a.status = 415 ∨ a.status = 422 := by
  unfold readBody at h
  split at h
  · cases h
    simp [Answer.rejected]
  · split at h
    · cases h
      simp [Answer.rejected]
    · split at h
      · cases h
        simp [Answer.rejected]
      · split at h
        · cases h
        · next f _ =>
            cases h
            cases f <;> simp [Answer.rejected, bodyStatus]

/-- A body gives the operation that it asks for, or a failure. -/
theorem ReadsAt.body {α : Type} {read : Json.Reader α} {operation : α → Store.Operation}
    (h : ∀ x, readBody read r = .ok x → AsksAt caller.actor r p names (operation x)) :
    ReadsAt caller r p names (fromBody read r operation) := by
  unfold fromBody
  cases hbody : readBody read r with
  | ok x => exact .asked (h x hbody)
  | error a =>
      have hstatus := readBody_error hbody
      exact .refused (by omega)

/-- A query gives a look at something, or a failure. -/
theorem ReadsAt.query {read : Option Action} (hmethod : Place.method r = .get)
    (hlook : ∀ op, read ≠ some (.change op)) : ReadsAt caller r p names (orBadQuery read) := by
  unfold orBadQuery
  cases read with
  | none => exact .refused (by decide)
  | some action => exact .shown hmethod fun op heq => hlook op (congrArg some heq)

theorem readListing?_ne (form : Http.Form) (op : Store.Operation) :
    readListing? form ≠ some (.change op) := by
  intro h
  simp [readListing?, Option.bind_eq_some_iff] at h

theorem readPage?_ne (form : Http.Form) (op : Store.Operation) :
    readPage? form ≠ some (.change op) := by
  intro h
  simp [readPage?, Option.bind_eq_some_iff] at h

theorem readFollowing?_ne (r : Request) (form : Http.Form) (op : Store.Operation) :
    readFollowing? r form ≠ some (.change op) := by
  intro h
  simp [readFollowing?, Option.bind_eq_some_iff] at h

/-- One case for each route. -/
theorem readsAt_action (caller : Caller) (r : Request) (p : Place) (names : List String) :
    ReadsAt caller r p names (p.action caller r names) := by
  unfold Place.action
  split
  · next hmethod => exact .shown hmethod (by simp)
  · next hmethod => exact .query hmethod (readListing?_ne _)
  · next hmethod => exact .body fun _ h => .create (method_eq_of_ne_get hmethod (by simp)) h
  · next hmethod => exact .shown hmethod (by simp)
  · next hmethod => exact .shown hmethod (by simp)
  · next hmethod => exact .body fun _ h => .update (method_eq_of_ne_get hmethod (by simp)) h
  · next hmethod => exact .asked (.delete (method_eq_of_ne_get hmethod (by simp)))
  · next hmethod =>
      exact .asked (.close (method_eq_of_ne_get hmethod (by simp)) (givesReason_iff.2 rfl))
  · next hmethod => exact .asked (.reopen (method_eq_of_ne_get hmethod (by simp)))
  · next hmethod => exact .body fun _ h => .addLabel (method_eq_of_ne_get hmethod (by simp)) h
  · next hmethod => exact .asked (.removeLabel (method_eq_of_ne_get hmethod (by simp)))
  · next hmethod => exact .shown hmethod (by simp)
  · next hmethod =>
      exact .body fun _ h => .addDependency (method_eq_of_ne_get hmethod (by simp)) h
  · next hmethod => exact .asked (.removeDependency (method_eq_of_ne_get hmethod (by simp)))
  · next hmethod => exact .shown hmethod (by simp)
  · next hmethod => exact .body fun _ h => .addComment (method_eq_of_ne_get hmethod (by simp)) h
  · next hmethod => exact .query hmethod (readPage?_ne _)
  · next hmethod => exact .shown hmethod (by simp)
  · next hmethod => exact .query hmethod (readFollowing?_ne r _)
  · exact .refused (Nat.le_add_right 400 5)

theorem method_eq {m : Http.Method} (h : r.method = m) (hm : m ≠ .head) : Place.method r = m := by
  rw [Place.method, h, if_neg hm]

/-- What is asked for at a place is done there, on one of the ten routes. -/
theorem action_of_asksAt (h : AsksAt caller.actor r p names op) :
    mutations.lookup (r.method, p) = some op.topic ∧ r.method ∈ p.methods ∧
      p.action caller r names = .ok (.change op) := by
  cases h with
  | create hmethod hbody =>
      simp only [Place.action, method_eq hmethod (by simp), hmethod, fromBody, hbody]
      exact ⟨rfl, by decide, trivial⟩
  | update hmethod hbody =>
      simp only [Place.action, method_eq hmethod (by simp), hmethod, fromBody, hbody]
      exact ⟨rfl, by decide, trivial⟩
  | delete hmethod =>
      simp only [Place.action, method_eq hmethod (by simp), hmethod]
      exact ⟨rfl, by decide, trivial⟩
  | close hmethod hreason =>
      obtain rfl := givesReason_iff.1 hreason
      simp only [Place.action, method_eq hmethod (by simp), hmethod]
      exact ⟨rfl, by decide, trivial⟩
  | reopen hmethod =>
      simp only [Place.action, method_eq hmethod (by simp), hmethod]
      exact ⟨rfl, by decide, trivial⟩
  | addLabel hmethod hbody =>
      simp only [Place.action, method_eq hmethod (by simp), hmethod, fromBody, hbody]
      exact ⟨rfl, by decide, trivial⟩
  | removeLabel hmethod =>
      simp only [Place.action, method_eq hmethod (by simp), hmethod]
      exact ⟨rfl, by decide, trivial⟩
  | addDependency hmethod hbody =>
      simp only [Place.action, method_eq hmethod (by simp), hmethod, fromBody, hbody]
      exact ⟨rfl, by decide, trivial⟩
  | removeDependency hmethod =>
      simp only [Place.action, method_eq hmethod (by simp), hmethod]
      exact ⟨rfl, by decide, trivial⟩
  | addComment hmethod hbody =>
      simp only [Place.action, method_eq hmethod (by simp), hmethod, fromBody, hbody]
      exact ⟨rfl, by decide, trivial⟩

/-! ## Reading requests -/

/-- A look at something takes none of the ten routes. -/
theorem lookup_of_get (h : Place.method r = .get) (p : Place) :
    mutations.lookup (r.method, p) = none := by
  unfold Place.method at h
  split at h
  · next hhead =>
      rw [hhead]
      cases p <;> rfl
  · rw [h]
    cases p <;> rfl

/-- How a request is read: as an operation that it asks for, as a look at something, or not at
all. -/
inductive Reads (caller : Caller) (r : Request) : Except Answer Action → Prop where
  | asked {op : Store.Operation} (h : Asks caller.actor r op)
      (hroute : mutationTopic? r = some op.topic) : Reads caller r (.ok (.change op))
  | shown {action : Action} (hlook : ∀ op, action ≠ .change op)
      (hroute : mutationTopic? r = none) : Reads caller r (.ok action)
  | refused {a : Answer} (hstatus : 400 ≤ a.status) : Reads caller r (.error a)

theorem reads_ofRequest (caller : Caller) (r : Request) :
    Reads caller r (Action.ofRequest caller r) := by
  unfold Action.ofRequest
  cases hpath : Place.ofPath? r.path with
  | none => exact .refused (by decide)
  | some place =>
      obtain ⟨p, segments⟩ := place
      simp only
      split
      · cases hnames : decodeSegments? segments with
        | none => exact .refused (by decide)
        | some names =>
            simp only
            cases hread : p.action caller r names with
            | error a =>
                have hcases := readsAt_action caller r p names
                rw [hread] at hcases
                cases hcases with
                | refused hstatus => exact .refused hstatus
            | ok action =>
                have hcases := readsAt_action caller r p names
                rw [hread] at hcases
                cases hcases with
                | asked h =>
                    refine .asked ⟨p, segments, names, hpath,
                      decodeSegments?_eq_some_iff.1 hnames, h⟩ ?_
                    rw [mutationTopic?, hpath]
                    exact (action_of_asksAt h).1
                | shown hmethod hlook =>
                    refine .shown hlook ?_
                    rw [mutationTopic?, hpath]
                    exact lookup_of_get hmethod p
      · exact .refused (Nat.le_add_right 400 5)

/-- A request is read as an operation exactly if it asks for it. -/
theorem ofRequest_eq_change_iff :
    Action.ofRequest caller r = .ok (.change op) ↔ Asks caller.actor r op := by
  constructor
  · intro h
    have hcases := reads_ofRequest caller r
    rw [h] at hcases
    cases hcases with
    | asked h => exact h
    | shown hlook => exact absurd rfl (hlook op)
  · rintro ⟨p, segments, names, hpath, hnames, h⟩
    obtain ⟨-, hmethod, haction⟩ := action_of_asksAt h
    simp only [Action.ofRequest, hpath, if_pos hmethod, decodeSegments?_eq_some_iff.2 hnames,
      haction]

end Service

end IssueTracker
