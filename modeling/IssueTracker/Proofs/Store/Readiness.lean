/-
  IssueTracker/Proofs/Store/Readiness.lean --- how operations change what is ready.

  A bead is ready if it is open and no blocking edge leads from it to a bead that is not closed
  (`mem_readyIds`).  So whether it is ready depends on the statuses of the beads and on the
  blocking edges only (`startable_congr`), and each operation changes one status or one edge or
  takes one bead away.  `ReadyAfter` says, once for each operation, what becomes of the ready
  beads; every operation that is done follows it (`ReadyAfter.of_effect`).
-/
import IssueTracker.Proofs.Store.Progress

set_option autoImplicit false

namespace IssueTracker

namespace Graph

variable {edges : List Dependency} {d : Dependency} {x p id dependent prerequisite : String}

theorem mem_prerequisites_append_blocks (hkind : d.kind = .blocks) :
    p ∈ prerequisites (edges ++ [d]) x ↔
      p ∈ prerequisites edges x ∨ x = d.dependent ∧ p = d.prerequisite := by
  rw [prerequisites_append, List.mem_append]
  refine or_congr_right ?_
  simp only [mem_prerequisites, List.mem_singleton, exists_eq_left, hkind, true_and]
  exact and_congr eq_comm eq_comm

/-- Without the edges of a bead there is no way to it or from it. -/
theorem mem_prerequisites_untouched :
    p ∈ prerequisites (edges.filter fun d => !d.touches id) x ↔
      p ∈ prerequisites edges x ∧ x ≠ id ∧ p ≠ id := by
  simp only [mem_prerequisites, List.mem_filter, Bool.not_eq_true', Bool.eq_false_iff, ne_eq,
    Dependency.touches_iff, not_or]
  constructor
  · rintro ⟨d, ⟨hd, hfrom, hto⟩, hkind, rfl, rfl⟩
    exact ⟨⟨d, hd, hkind, rfl, rfl⟩, hfrom, hto⟩
  · rintro ⟨⟨d, hd, hkind, rfl, rfl⟩, hfrom, hto⟩
    exact ⟨d, ⟨hd, hfrom, hto⟩, hkind, rfl, rfl⟩

theorem mem_prerequisites_unjoined :
    p ∈ prerequisites (edges.filter fun d => !d.joins dependent prerequisite) x ↔
      p ∈ prerequisites edges x ∧ ¬ (x = dependent ∧ p = prerequisite) := by
  simp only [mem_prerequisites, List.mem_filter, Bool.not_eq_true', Bool.eq_false_iff, ne_eq,
    Dependency.joins_iff]
  constructor
  · rintro ⟨d, ⟨hd, hjoins⟩, hkind, rfl, rfl⟩
    exact ⟨⟨d, hd, hkind, rfl, rfl⟩, hjoins⟩
  · rintro ⟨⟨d, hd, hkind, rfl, rfl⟩, hjoins⟩
    exact ⟨d, ⟨hd, hjoins⟩, hkind, rfl, rfl⟩

end Graph

namespace Store

variable {now : Instant} {s s' : Store} {op : Operation} {c : Change} {id x p : String}
  {b b' : Bead}

/-! ## Statuses -/

/-- The status of the bead of an identity. -/
def status? (s : Store) (x : String) : Option Status := (s.get? x).map (·.status)

theorem status?_of_get? (h : s.get? x = some b) : s.status? x = some b.status := by
  rw [status?, h, Option.map_some]

theorem status?_congr (hbeads : s'.beads = s.beads) (x : String) :
    s'.status? x = s.status? x := by
  rw [status?, status?, get?, get?, hbeads]

theorem status?_put (hget : s.get? id = some b) (hid : b'.id = b.id) (x : String) :
    (s.put b').status? x = if x = id then some b'.status else s.status? x := by
  have hkey : b'.id = id := hid.trans (mem_beads_of_get? hget).2
  by_cases hx : x = id
  · rw [if_pos hx, hx, status?_of_get? (get?_put hget hid)]
  · rw [if_neg hx, status?, get?_put_of_ne (hkey ▸ hx), status?]

/-- A bead that keeps its status changes no status. -/
theorem status?_put_of_same (hget : s.get? id = some b) (hid : b'.id = b.id)
    (hstatus : b'.status = b.status) (x : String) : (s.put b').status? x = s.status? x := by
  rw [status?_put hget hid]
  split
  · rename_i hx
    rw [hx, hstatus, status?_of_get? hget]
  · rfl

theorem status?_forget (id x : String) (s : Store) :
    (s.forget id).status? x = if x = id then none else s.status? x := by
  by_cases hx : x = id
  · rw [if_pos hx, hx, status?, get?_forget, Option.map_none]
  · have hkeys : (fun y : Bead => decide ((y.id != id) = true ∧ (y.id == x) = true)) =
        fun y => y.id == x := by
      funext y
      by_cases hy : y.id = x <;> simp [hy, hx]
    rw [if_neg hx]
    simp only [status?, get?, forget, List.find?_filter, hkeys]

theorem status?_append (hbeads : s'.beads = s.beads ++ [b]) (hnew : b.id ∉ s.ids) (x : String) :
    s'.status? x = if x = b.id then some b.status else s.status? x := by
  have hget : s'.get? x = (s.get? x).or (if b.id = x then some b else none) := by
    simp only [get?, hbeads, List.find?_append, List.find?_singleton, beq_iff_eq]
  by_cases hx : x = b.id
  · have hnone : s.get? x = none := get?_eq_none_iff.2 (hx ▸ hnew)
    rw [if_pos hx, status?, hget, hnone, Option.none_or, if_pos hx.symm, Option.map_some]
  · rw [if_neg hx, status?, hget, if_neg (Ne.symm hx), Option.or_none, status?]

/-! ## Beads that can be started -/

/-- Is the second bead a blocking prerequisite of the first one that is not closed? -/
def Awaits (s : Store) (x p : String) : Prop :=
  p ∈ Graph.prerequisites s.dependencies x ∧ s.status? p ≠ some .closed

/-- Is the bead open, and waits for nothing? -/
def Startable (s : Store) (x : String) : Prop :=
  s.status? x = some .opened ∧ ∀ p, ¬ s.Awaits x p

/-- The open beads that wait for one bead and no other. -/
def awaitingOnly (s : Store) (p : String) : Set String :=
  {x | s.status? x = some .opened ∧ ∀ q, s.Awaits x q ↔ q = p}

/-- The beads from which a blocking edge leads to a bead. -/
def blockedBy (s : Store) (p : String) : Set String :=
  {x | p ∈ Graph.prerequisites s.dependencies x}

/-- The identities of the ready beads. -/
def readyIds (s : Store) : Set String := {x | ∃ b ∈ s.ready, b.id = x}

/-- What is ready is what can be started: no edge leads to a bead that is not there. -/
theorem mem_readyIds (hs : Sound s) (hn : Numbered s) : x ∈ s.readyIds ↔ s.Startable x := by
  have hsettled : ∀ y, ∀ p ∈ Graph.prerequisites s.dependencies y,
      (s.isSettled p = true ↔ s.status? p = some .closed) := by
    intro y p hp
    rw [hs.isSettled_iff hp, status?, Option.map_eq_some_iff]
  constructor
  · rintro ⟨b, hb, rfl⟩
    obtain ⟨hmem, hstatus, hprerequisites⟩ := mem_ready.1 hb
    refine ⟨?_, fun p hp => hp.2 ((hsettled _ p hp.1).1 (hprerequisites p hp.1))⟩
    rw [status?_of_get? (hn.get?_eq_some_iff.2 ⟨hmem, rfl⟩), hstatus]
  · rintro ⟨hstatus, hnone⟩
    obtain ⟨b, hget, hopened⟩ := Option.map_eq_some_iff.1 hstatus
    obtain ⟨hmem, rfl⟩ := hn.get?_eq_some_iff.1 hget
    refine ⟨b, mem_ready.2 ⟨hmem, hopened, fun p hp => (hsettled _ p hp).2 ?_⟩, rfl⟩
    by_contra hopen
    exact hnone p ⟨hp, hopen⟩

theorem Sound.mem_ids_of_prerequisites (hs : Sound s)
    (hp : p ∈ Graph.prerequisites s.dependencies x) : x ∈ s.ids ∧ p ∈ s.ids := by
  obtain ⟨d, hd, -, rfl, rfl⟩ := Graph.mem_prerequisites.1 hp
  exact hs.endpoints d hd

theorem Sound.not_awaits_self (hs : Sound s) (x : String) : ¬ s.Awaits x x := by
  rintro ⟨hx, -⟩
  obtain ⟨d, hd, -, hfrom, hto⟩ := Graph.mem_prerequisites.1 hx
  exact hs.irreflexive d hd (hfrom.trans hto.symm)

/-- Who waits for whom depends on the blocking edges and on which of their ends are closed. -/
theorem awaits_congr (hedges : Graph.prerequisites s'.dependencies x =
      Graph.prerequisites s.dependencies x)
    (hclosed : ∀ q ∈ Graph.prerequisites s.dependencies x,
      (s'.status? q = some .closed ↔ s.status? q = some .closed)) (p : String) :
    s'.Awaits x p ↔ s.Awaits x p := by
  rw [Awaits, Awaits, hedges]
  exact and_congr_right fun hp => not_congr (hclosed p hp)

theorem startable_congr (hstatus : s'.status? x = s.status? x)
    (hawaits : ∀ p, s'.Awaits x p ↔ s.Awaits x p) : s'.Startable x ↔ s.Startable x := by
  rw [Startable, Startable, hstatus]
  simp only [hawaits]

/-- When a bead is closed or taken away, it is not open any more and nothing waits for it.  Then
those can be started that could be started before, and those that waited for it only. -/
theorem startable_of_leave (hself : ¬ s.Awaits id id)
    (hopened : s'.status? x = some .opened ↔ s.status? x = some .opened ∧ x ≠ id)
    (hawaits : x ≠ id → ∀ p, s'.Awaits x p ↔ s.Awaits x p ∧ p ≠ id) :
    s'.Startable x ↔ (s.Startable x ∧ x ≠ id) ∨ x ∈ s.awaitingOnly id := by
  constructor
  · rintro ⟨hstatus, hnone⟩
    obtain ⟨hopen, hne⟩ := hopened.1 hstatus
    have honly : ∀ p, s.Awaits x p → p = id := by
      intro p hp
      by_contra hother
      exact hnone p ((hawaits hne p).2 ⟨hp, hother⟩)
    by_cases hid : s.Awaits x id
    · refine Or.inr ⟨hopen, fun p => ⟨honly p, ?_⟩⟩
      rintro rfl
      exact hid
    · refine Or.inl ⟨⟨hopen, fun p hp => hid ?_⟩, hne⟩
      exact honly p hp ▸ hp
  · rintro (⟨⟨hopen, hnone⟩, hne⟩ | ⟨hopen, honly⟩)
    · exact ⟨hopened.2 ⟨hopen, hne⟩, fun p hp => hnone p ((hawaits hne p).1 hp).1⟩
    · have hne : x ≠ id := by
        rintro rfl
        exact hself ((honly x).2 rfl)
      refine ⟨hopened.2 ⟨hopen, hne⟩, fun p hp => ?_⟩
      obtain ⟨hbefore, hother⟩ := (hawaits hne p).1 hp
      exact hother ((honly p).1 hbefore)

/-- When a closed bead is opened again, what depends on it has to wait, and it can be started itself
if it waits for nothing. -/
theorem startable_of_return (hself : ¬ id ∈ Graph.prerequisites s.dependencies id)
    (hbefore : s.status? id = some .closed) (hedges : s'.dependencies = s.dependencies)
    (hstatus : ∀ x, s'.status? x = if x = id then some .opened else s.status? x) :
    s'.Startable x ↔
      (s.Startable x ∧ x ∉ s.blockedBy id) ∨ (x = id ∧ ∀ p, ¬ s.Awaits id p) := by
  have hawaits : ∀ x p, s'.Awaits x p ↔ s.Awaits x p ∨ (p = id ∧ x ∈ s.blockedBy id) := by
    intro x p
    rw [Awaits, Awaits, hedges, hstatus]
    by_cases hp : p = id
    · subst hp
      simp [hbefore, blockedBy]
    · simp [hp]
  simp only [Startable, hawaits, hstatus, not_or, not_and]
  by_cases hx : x = id
  · subst hx
    simp [hbefore, hself, blockedBy]
  · simp only [hx, if_false, false_and, or_false, and_assoc]
    refine and_congr_right fun _ => ?_
    constructor
    · exact fun h => ⟨fun p => (h p).1, (h id).2 rfl⟩
    · exact fun h p => ⟨h.1 p, fun _ => h.2⟩

/-- A new bead waits for nothing, and nothing waits for it. -/
theorem startable_of_new (hs : Sound s) (hbeads : s'.beads = s.beads ++ [b])
    (hedges : s'.dependencies = s.dependencies) (hnew : b.id ∉ s.ids)
    (hopened : b.status = .opened) : s'.Startable x ↔ x = b.id ∨ s.Startable x := by
  have hstatus := status?_append hbeads hnew
  by_cases hx : x = b.id
  · refine ⟨fun _ => Or.inl hx, fun _ => ⟨?_, ?_⟩⟩
    · rw [hstatus, if_pos hx, hopened]
    · rintro p ⟨hp, -⟩
      rw [hedges] at hp
      exact hnew (hx ▸ (hs.mem_ids_of_prerequisites hp).1)
  · have hsame : s'.Startable x ↔ s.Startable x := by
      refine startable_congr (by rw [hstatus, if_neg hx]) (awaits_congr (by rw [hedges]) ?_)
      intro q hq
      have hold : q ≠ b.id := fun heq => hnew (heq ▸ (hs.mem_ids_of_prerequisites hq).2)
      rw [hstatus, if_neg hold]
    rw [hsame, or_iff_right hx]

/-- A bead that is changed but neither closed nor opened again holds back what it held back. -/
theorem awaits_put (hget : s.get? id = some b) (hid : b'.id = b.id)
    (hclosed : b'.status = .closed ↔ b.status = .closed) (p : String) :
    (s.put b').Awaits x p ↔ s.Awaits x p := by
  have hedges : Graph.prerequisites (s.put b').dependencies x =
      Graph.prerequisites s.dependencies x := rfl
  refine awaits_congr hedges (fun q _ => ?_) p
  rw [status?_put hget hid]
  split
  · rename_i hq
    rw [hq, status?_of_get? hget, Option.some_inj, Option.some_inj, hclosed]
  · rfl

/-- A bead that keeps its status changes nothing. -/
theorem startable_put_of_same (hget : s.get? id = some b) (hid : b'.id = b.id)
    (hstatus : b'.status = b.status) : (s.put b').Startable x ↔ s.Startable x :=
  startable_congr (status?_put_of_same hget hid hstatus x)
    (awaits_put hget hid (by rw [hstatus]))

theorem startable_put_of_closed (hs : Sound s) (hget : s.get? id = some b) (hid : b'.id = b.id)
    (hclosed : b'.status = .closed) :
    (s.put b').Startable x ↔ (s.Startable x ∧ x ≠ id) ∨ x ∈ s.awaitingOnly id := by
  have hstatus := status?_put hget hid
  refine startable_of_leave (hs.not_awaits_self id) ?_ fun _ p => ?_
  · rw [hstatus, hclosed]
    by_cases hx : x = id <;> simp [hx]
  · have hedges : (s.put b').dependencies = s.dependencies := rfl
    rw [Awaits, Awaits, hedges, hstatus, hclosed, and_assoc]
    by_cases hp : p = id <;> simp [hp]

theorem startable_forget (hs : Sound s) :
    (s.forget id).Startable x ↔ (s.Startable x ∧ x ≠ id) ∨ x ∈ s.awaitingOnly id := by
  refine startable_of_leave (hs.not_awaits_self id) ?_ fun hx p => ?_
  · rw [status?_forget]
    by_cases hx : x = id <;> simp [hx]
  · have hedges : (s.forget id).dependencies = s.dependencies.filter fun d => !d.touches id := rfl
    rw [Awaits, Awaits, hedges, status?_forget, Graph.mem_prerequisites_untouched]
    by_cases hp : p = id <;> simp [hp, hx]

section Edges

variable {d : Dependency} (hbeads : s'.beads = s.beads)
  (hedges : s'.dependencies = s.dependencies ++ [d])
include hbeads hedges

/-- A blocking edge to a bead that is not closed makes its dependent wait. -/
theorem startable_of_blocks (hkind : d.kind = .blocks)
    (hopen : s.status? d.prerequisite ≠ some .closed) :
    s'.Startable x ↔ s.Startable x ∧ x ≠ d.dependent := by
  have hawaits : ∀ p, s'.Awaits x p ↔ s.Awaits x p ∨ (x = d.dependent ∧ p = d.prerequisite) := by
    intro p
    rw [Awaits, Awaits, status?_congr hbeads, hedges, Graph.mem_prerequisites_append_blocks hkind,
      or_and_right]
    refine or_congr_right (and_iff_left_of_imp ?_)
    rintro ⟨-, rfl⟩
    exact hopen
  simp only [Startable, status?_congr hbeads, hawaits, not_or, and_assoc]
  refine and_congr_right fun _ => ?_
  constructor
  · exact fun h => ⟨fun p => (h p).1, fun hx => (h d.prerequisite).2 ⟨hx, rfl⟩⟩
  · exact fun h p => ⟨h.1 p, fun hp => h.2 hp.1⟩

/-- An edge that does not block, or leads to a closed bead, makes nothing wait. -/
theorem startable_of_remark
    (hfree : d.kind ≠ .blocks ∨ s.status? d.prerequisite = some .closed) :
    s'.Startable x ↔ s.Startable x := by
  refine startable_congr (status?_congr hbeads x) fun p => ?_
  rw [Awaits, Awaits, status?_congr hbeads, hedges]
  by_cases hkind : d.kind = .blocks
  · have hclosed := hfree.resolve_left (not_not_intro hkind)
    rw [Graph.mem_prerequisites_append_blocks hkind, or_and_right]
    refine or_iff_left ?_
    rintro ⟨⟨-, rfl⟩, hopen⟩
    exact hopen hclosed
  · rw [Graph.prerequisites_append_of_ne hkind]

end Edges

section Cut

variable {dependent prerequisite : String} (hs : Sound s) (hbeads : s'.beads = s.beads)
  (hedges : s'.dependencies = s.dependencies.eraseP (·.joins dependent prerequisite))
include hs hbeads hedges

/-- Without its edge the dependent does not wait for the prerequisite any more. -/
theorem awaits_of_cut : s'.Awaits x p ↔ s.Awaits x p ∧ ¬ (x = dependent ∧ p = prerequisite) := by
  rw [Awaits, Awaits, status?_congr hbeads, hedges, eraseP_joins hs.pairs,
    Graph.mem_prerequisites_unjoined, and_right_comm]

theorem startable_of_cut :
    s'.Startable x ↔
      s.Startable x ∨ (x = dependent ∧ dependent ∈ s.awaitingOnly prerequisite) := by
  simp only [Startable, status?_congr hbeads, awaits_of_cut hs hbeads hedges, not_and_not_right]
  constructor
  · rintro ⟨hopen, hnone⟩
    by_cases hwaits : s.Awaits x prerequisite
    · obtain ⟨rfl, -⟩ := hnone prerequisite hwaits
      refine Or.inr ⟨rfl, hopen, fun q => ⟨fun hq => (hnone q hq).2, ?_⟩⟩
      rintro rfl
      exact hwaits
    · refine Or.inl ⟨hopen, fun p hp => hwaits ?_⟩
      exact (hnone p hp).2 ▸ hp
  · rintro (⟨hopen, hnone⟩ | ⟨rfl, hopen, honly⟩)
    · exact ⟨hopen, fun p hp => absurd hp (hnone p)⟩
    · exact ⟨hopen, fun p hp => ⟨rfl, (honly p).1 hp⟩⟩

/-- Where it was not the only bead that was waited for, nothing changes. -/
theorem startable_of_cut_of_not_mem (hnot : dependent ∉ s.awaitingOnly prerequisite) :
    s'.Startable x ↔ s.Startable x := by
  rw [startable_of_cut hs hbeads hedges]
  exact or_iff_left fun h => hnot h.2

end Cut

/-! ## The law of each operation -/

/-- What becomes of the ready beads when an operation is done. -/
inductive ReadyAfter (s s' : Store) : Operation → Change → Prop where
  /-- The new bead is ready too. -/
  | create {draft : Draft} {b : Bead} (hnew : b.id ∉ s.readyIds)
      (hready : s'.readyIds = insert b.id s.readyIds) : ReadyAfter s s' (.create draft) (.created b)
  /-- Only the bead itself may have become ready, or not be ready any more. -/
  | update {id : String} {patch : Patch} {b : Bead}
      (hself : id ∈ s'.readyIds ↔ b.status = .opened ∧ ∀ p, ¬ s.Awaits id p)
      (hothers : ∀ x, x ≠ id → (x ∈ s'.readyIds ↔ x ∈ s.readyIds)) :
      ReadyAfter s s' (.update id patch) (.updated b)
  /-- The bead is not ready any more; those that waited for it only are. -/
  | close {id : String} {reason : Option String} {b : Bead}
      (hready : s'.readyIds = s.readyIds \ {id} ∪ s.awaitingOnly id) :
      ReadyAfter s s' (.close id reason) (.closed b)
  /-- The beads that it blocks are not ready any more; the bead itself is if it waits for nothing. -/
  | reopen {id : String} {b : Bead}
      (hready : s'.readyIds =
        s.readyIds \ s.blockedBy id ∪ {x | x = id ∧ ∀ p, ¬ s.Awaits id p}) :
      ReadyAfter s s' (.reopen id) (.reopened b)
  /-- As for a bead that is closed. -/
  | delete {id : String} {b : Bead}
      (hready : s'.readyIds = s.readyIds \ {id} ∪ s.awaitingOnly id) :
      ReadyAfter s s' (.delete id) (.deleted b)
  | addLabel {id label kept : String} {b : Bead} (hready : s'.readyIds = s.readyIds) :
      ReadyAfter s s' (.addLabel id label) (.labelAdded b kept)
  | removeLabel {id label kept : String} {b : Bead} (hready : s'.readyIds = s.readyIds) :
      ReadyAfter s s' (.removeLabel id label) (.labelRemoved b kept)
  /-- A blocking edge to a bead that is not closed holds its dependent back. -/
  | addDependency {x p : String} {kind : Dependency.Kind} {d : Dependency}
      (hblocked : kind = .blocks → s.status? p ≠ some .closed → s'.readyIds = s.readyIds \ {x})
      (hfree : kind ≠ .blocks ∨ s.status? p = some .closed → s'.readyIds = s.readyIds) :
      ReadyAfter s s' (.addDependency x p kind) (.dependencyAdded d)
  /-- The dependent of a blocking edge is ready if it is open and waited for nothing else. -/
  | removeDependency {x p : String} {d : Dependency}
      (hfreed : d.kind = .blocks → x ∈ s.awaitingOnly p → s'.readyIds = insert x s.readyIds)
      (hsame : d.kind ≠ .blocks ∨ x ∉ s.awaitingOnly p → s'.readyIds = s.readyIds) :
      ReadyAfter s s' (.removeDependency x p) (.dependencyRemoved d)
  | addComment {id author text : String} {comment : Comment} (hready : s'.readyIds = s.readyIds) :
      ReadyAfter s s' (.addComment id author text) (.commentAdded comment)

section Laws

variable (hs : Sound s) (hn : Numbered s) (hs' : Sound s') (hn' : Numbered s')
include hs hn hs' hn'

theorem readyIds_of_same (hsame : ∀ x, s'.Startable x ↔ s.Startable x) :
    s'.readyIds = s.readyIds := by
  ext x
  rw [mem_readyIds hs' hn', mem_readyIds hs hn, hsame]

/-- Of a bead that was closed or taken away. -/
theorem readyIds_of_leave
    (hleave : ∀ x, s'.Startable x ↔ (s.Startable x ∧ x ≠ id) ∨ x ∈ s.awaitingOnly id) :
    s'.readyIds = s.readyIds \ {id} ∪ s.awaitingOnly id := by
  ext x
  rw [mem_readyIds hs' hn', hleave, Set.mem_union, Set.mem_sdiff, mem_readyIds hs hn,
    Set.mem_singleton_iff]

end Laws

/-- Every effect follows the law of its operation. -/
theorem ReadyAfter.of_effect (hs : Sound s) (hn : Numbered s) (h : Effect now s op c s') :
    ReadyAfter s s' op c := by
  have hs' : Sound s' := hs.effect h
  have hn' : Numbered s' := hn.effect h
  have hafter : ∀ x, x ∈ s'.readyIds ↔ s'.Startable x := fun x => mem_readyIds hs' hn'
  have hbefore : ∀ x, x ∈ s.readyIds ↔ s.Startable x := fun x => mem_readyIds hs hn
  cases h with
  | @create draft title priority labels htitle hpriority hlabels =>
      let b := drafted now (s.created + 1) title priority labels draft
      have hnew : b.id ∉ s.ids := hn.next_not_mem
      refine .create ?_ (Set.ext fun x => ?_)
      · rintro ⟨b', hb', hid⟩
        exact hnew (List.mem_map.2 ⟨b', (mem_ready.1 hb').1, hid⟩)
      · rw [hafter, Set.mem_insert_iff, hbefore]
        exact startable_of_new hs rfl rfl hnew rfl
  | @update id patch title priority b htitle hpriority hget hclosedness =>
      let b' := patched now title priority patch b
      have hawaits : ∀ x p, (s.put b').Awaits x p ↔ s.Awaits x p :=
        fun x => awaits_put hget rfl (patched_closed_iff hclosedness)
      have hstatus : ∀ x, (s.put b').status? x = if x = id then some b'.status else s.status? x :=
        status?_put hget rfl
      refine .update ?_ fun x hx => ?_
      · rw [hafter, Startable, hstatus, if_pos rfl, Option.some_inj]
        exact and_congr_right fun _ => forall_congr' fun p => not_congr (hawaits id p)
      · rw [hafter, hbefore]
        exact startable_congr (by rw [hstatus, if_neg hx]) (hawaits x)
  | close hget hopen =>
      exact .close (readyIds_of_leave hs hn hs' hn'
        fun x => startable_put_of_closed hs hget rfl rfl)
  | @reopen id b hget hclosed =>
      refine .reopen (Set.ext fun x => ?_)
      rw [hafter, Set.mem_union, Set.mem_sdiff, hbefore, Set.mem_ofPred_eq]
      refine startable_of_return (fun hself => ?_) ?_ rfl (status?_put hget rfl)
      · obtain ⟨d, hd, -, hfrom, hto⟩ := Graph.mem_prerequisites.1 hself
        exact hs.irreflexive d hd (hfrom.trans hto.symm)
      · rw [status?_of_get? hget, Status.isClosed_iff.1 hclosed]
  | delete hget =>
      exact .delete (readyIds_of_leave hs hn hs' hn' fun x => startable_forget hs)
  | addLabel hlabel hget hnew =>
      exact .addLabel (readyIds_of_same hs hn hs' hn'
        fun x => startable_put_of_same hget rfl rfl)
  | removeLabel hget hlabel =>
      exact .removeLabel (readyIds_of_same hs hn hs' hn'
        fun x => startable_put_of_same hget rfl rfl)
  | @addDependency dependent prerequisite kind _ _ hne hdependent hprerequisite hnew hcycle =>
      let d : Dependency := ⟨dependent, prerequisite, kind, now⟩
      refine .addDependency (fun hkind hopen => Set.ext fun x => ?_) fun hfree => ?_
      · rw [hafter, Set.mem_sdiff, hbefore, Set.mem_singleton_iff]
        exact startable_of_blocks (d := d) rfl rfl hkind hopen
      · exact readyIds_of_same hs hn hs' hn'
          fun x => startable_of_remark (d := d) rfl rfl hfree
  | @removeDependency dependent prerequisite d hfind =>
      refine .removeDependency (fun _ honly => Set.ext fun x => ?_) fun hnot => ?_
      · rw [hafter, Set.mem_insert_iff, hbefore, or_comm]
        exact Iff.trans (startable_of_cut hs rfl rfl) (or_congr_right (and_iff_left honly))
      · refine readyIds_of_same hs hn hs' hn'
          fun x => startable_of_cut_of_not_mem hs rfl rfl ?_
        refine hnot.elim (fun hkind honly => ?_) id
        -- The edge that was removed is the only one between the two, and it did not block.
        obtain ⟨e, he, hblocks, hfrom, hto⟩ :=
          Graph.mem_prerequisites.1 ((honly.2 prerequisite).2 rfl).1
        obtain ⟨hdfrom, hdto⟩ := Dependency.joins_iff.1 (List.find?_some hfind)
        have heq : d = e := hs.eq_of_samePair (List.mem_of_find?_eq_some hfind) he
          ⟨hdfrom.trans hfrom.symm, hdto.trans hto.symm⟩
        exact hkind (heq ▸ hblocks)
  | addComment htext hget =>
      exact .addComment (readyIds_of_same hs hn hs' hn'
        fun x => startable_congr rfl fun p => Iff.rfl)

/-- After any operations, a bead is ready exactly if it is open and all its blocking prerequisites
are closed, and whatever is done next changes the ready beads by the law of its operation. -/
theorem ready_beads_follow_operations (before : List (Instant × Operation)) :
    let s := empty.run before
    (∀ x, x ∈ s.readyIds ↔ s.status? x = some .opened ∧
        ∀ p ∈ Graph.prerequisites s.dependencies x, s.status? p = some .closed) ∧
      ∀ now op c, (s.perform now op).1 = .ok c → ReadyAfter s (s.step now op) op c := by
  intro s
  have hs : Sound s := Sound.empty.run before
  have hn : Numbered s := Numbered.empty.run before
  refine ⟨fun x => ?_, fun now op c hdone => .of_effect hs hn (effect_of_answer hdone)⟩
  rw [mem_readyIds hs hn]
  simp only [Startable, Awaits, not_and, not_not]

/-- The first bead waits for the second and the third, of which the third is closed.  When the second
is closed too, the first becomes ready in its place. -/
theorem last_prerequisite_frees :
    let t : Instant := ⟨0, 0⟩
    let draft : Draft := ⟨"work", "", 2, .task, none, []⟩
    let ops : List (Instant × Operation) :=
      [(t, .create draft), (t, .create draft), (t, .create draft),
        (t, .addDependency "bd-1" "bd-2" .blocks), (t, .addDependency "bd-1" "bd-3" .blocks),
        (t, .close "bd-3" none)]
    let s := empty.run ops
    let s' := s.step t (.close "bd-2" none)
    let closed : Bead :=
      ⟨"bd-2", "work", "", .closed, 2, .task, none, Labels.empty, t, t, some t, none⟩
    (s.perform t (.close "bd-2" none)).1 = .ok (.closed closed) ∧
      s'.readyIds = s.readyIds \ {"bd-2"} ∪ s.awaitingOnly "bd-2" ∧
        "bd-2" ∈ s.readyIds ∧ "bd-1" ∉ s.readyIds ∧ "bd-1" ∈ s'.readyIds := by
  intro t draft ops s s' closed
  have hdone : (s.perform t (.close "bd-2" none)).1 = .ok (.closed closed) := by decide +kernel
  obtain ⟨hready, hnext⟩ := ready_beads_follow_operations ops
  have hlaw : s'.readyIds = s.readyIds \ {"bd-2"} ∪ s.awaitingOnly "bd-2" := by
    cases hnext t _ _ hdone with
    | close hlaw => exact hlaw
  refine ⟨hdone, hlaw, ?_, ?_, ?_⟩
  · exact (hready "bd-2").2 (by decide +kernel)
  · exact fun hmem => absurd ((hready "bd-1").1 hmem) (by decide +kernel)
  · have hafter := (ready_beads_follow_operations (ops ++ [(t, .close "bd-2" none)])).1 "bd-1"
    rw [run_append] at hafter
    exact hafter.2 (by decide +kernel)

end Store

end IssueTracker
