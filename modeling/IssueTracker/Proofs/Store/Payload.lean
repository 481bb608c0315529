/-
  IssueTracker/Proofs/Store/Payload.lean --- a change is published as the store has it.

  `Commits` says, once for each operation, which value of the store the payload of a change is: of
  the store after the operation, or of the store before it if the operation removes the value.
  Each effect commits what it is published with (`Commits.of_effect`), under the topic of its
  operation.
-/
import IssueTracker.Proofs.Store.Effect

set_option autoImplicit false

namespace IssueTracker

namespace Store

variable {now : Instant} {s s' : Store} {op : Operation} {c : Change} {id : String} {b b' : Bead}

/-- The topic under which an operation is published. -/
def Operation.topic : Operation → String
  | create _ => Topic.beadCreated
  | update _ _ => Topic.beadUpdated
  | close _ _ => Topic.beadClosed
  | reopen _ => Topic.beadReopened
  | delete _ => Topic.beadDeleted
  | addLabel _ _ => Topic.labelAdded
  | removeLabel _ _ => Topic.labelRemoved
  | addDependency _ _ _ => Topic.dependencyAdded
  | removeDependency _ _ => Topic.dependencyRemoved
  | addComment _ _ _ => Topic.commentAdded

theorem topic_of_effect (h : Effect now s op c s') : c.topic = op.topic := by
  cases h <;> rfl

/-- The payload is the value that the operation left in the store, or that it took away. -/
inductive Commits (s s' : Store) : Operation → Json → Prop where
  | created {draft : Draft} {b : Bead} (hnew : s'.beads = s.beads ++ [b]) :
      Commits s s' (.create draft) b.toJson
  | updated {id : String} {patch : Patch} {b : Bead} (hafter : s'.get? id = some b) :
      Commits s s' (.update id patch) b.toJson
  | closed {id : String} {reason : Option String} {b : Bead} (hafter : s'.get? id = some b) :
      Commits s s' (.close id reason) b.toJson
  | reopened {id : String} {b : Bead} (hafter : s'.get? id = some b) :
      Commits s s' (.reopen id) b.toJson
  | deleted {id : String} {b : Bead} (hbefore : s.get? id = some b) (hafter : s'.get? id = none) :
      Commits s s' (.delete id) (.object [("id", .text id), ("title", .text b.title)])
  /-- The label is published as it is stored. -/
  | labelAdded {id label kept : String} {b b' : Bead} (hbefore : s.get? id = some b)
      (hafter : s'.get? id = some b') (hnew : ¬ kept ∈ b.labels)
      (hlabels : b'.labels = b.labels.insert kept) :
      Commits s s' (.addLabel id label) (.object [("bead_id", .text id), ("label", .text kept)])
  | labelRemoved {id label : String} {b b' : Bead} (hbefore : s.get? id = some b)
      (hafter : s'.get? id = some b') (hold : label ∈ b.labels)
      (hlabels : b'.labels = b.labels.erase label) :
      Commits s s' (.removeLabel id label) (.object [("bead_id", .text id), ("label", .text label)])
  | dependencyAdded {dependent prerequisite : String} {kind : Dependency.Kind} {d : Dependency}
      (hends : d.dependent = dependent ∧ d.prerequisite = prerequisite ∧ d.kind = kind)
      (hnew : s'.dependencies = s.dependencies ++ [d]) :
      Commits s s' (.addDependency dependent prerequisite kind) d.toJson
  | dependencyRemoved {dependent prerequisite : String} {d : Dependency}
      {before after : List Dependency}
      (hends : d.dependent = dependent ∧ d.prerequisite = prerequisite)
      (hbefore : s.dependencies = before ++ d :: after)
      (hafter : s'.dependencies = before ++ after) :
      Commits s s' (.removeDependency dependent prerequisite) d.toJson
  | commentAdded {id author text : String} {c : Comment}
      (hwhose : c.beadId = id ∧ c.author = author) (hnew : s'.comments = s.comments ++ [c]) :
      Commits s s' (.addComment id author text) c.toJson

/-- Each effect commits what it is published with. -/
theorem Commits.of_effect (h : Effect now s op c s') : Commits s s' op c.payload := by
  cases h with
  | create htitle hpriority hlabels => exact .created rfl
  | update htitle hpriority hget hclosedness => exact .updated (get?_put hget rfl)
  | close hget hopen => exact .closed (get?_put hget rfl)
  | reopen hget hclosed => exact .reopened (get?_put hget rfl)
  | delete hget =>
      obtain ⟨-, rfl⟩ := mem_beads_of_get? hget
      exact .deleted hget (get?_forget _ s)
  | addLabel hlabel hget hnew =>
      obtain ⟨-, rfl⟩ := mem_beads_of_get? hget
      exact .labelAdded hget (get?_put hget rfl) hnew rfl
  | removeLabel hget hlabel =>
      obtain ⟨-, rfl⟩ := mem_beads_of_get? hget
      exact .labelRemoved hget (get?_put hget rfl) hlabel rfl
  | addDependency hne hdependent hprerequisite hnew hcycle =>
      exact .dependencyAdded ⟨rfl, rfl, rfl⟩ rfl
  | removeDependency hfind =>
      obtain ⟨hjoins, before, after, hbefore, hothers⟩ := List.find?_eq_some_iff_append.1 hfind
      refine .dependencyRemoved (Dependency.joins_iff.1 hjoins) hbefore ?_
      rw [hbefore, List.eraseP_append_right, List.eraseP_cons_of_pos hjoins]
      intro e he
      simpa using hothers e he
  | addComment htext hget => exact .commentAdded ⟨rfl, rfl⟩ rfl

end Store

end IssueTracker
