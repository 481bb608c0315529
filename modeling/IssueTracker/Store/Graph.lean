/-
  IssueTracker/Store/Graph.lean --- the graph of blocking dependencies.

  Edges of kind `blocks` form a directed graph on bead identities.  `Leads` is the
  relation "one or more edges lead from the one to the other", and `reaches` the
  search that decides "equal or `Leads`" with a stack and the set of the nodes seen.
-/
import IssueTracker.Bead.Dependency

set_option autoImplicit false

namespace IssueTracker

namespace Graph

/-- Does the edge lead away from a node and hold it back? -/
def blocksFrom (node : String) (d : Dependency) : Bool :=
  d.kind = .blocks && d.dependent == node

/-- The nodes to which blocking edges lead from a node. -/
def prerequisites (edges : List Dependency) (node : String) : List String :=
  (edges.filter (blocksFrom node)).map (·.prerequisite)

/-- One or more blocking edges lead from the first node to the second. -/
inductive Leads (edges : List Dependency) : String → String → Prop where
  | edge {a b : String} : b ∈ prerequisites edges a → Leads edges a b
  | step {a b c : String} : b ∈ prerequisites edges a → Leads edges b c → Leads edges a c

/-- No node leads back to itself. -/
def Acyclic (edges : List Dependency) : Prop := ∀ a, ¬ Leads edges a a

/-- The blocking edges that leave nodes not seen yet. -/
def unseenEdges (edges : List Dependency) (seen : List String) : Nat :=
  edges.countP fun d => d.kind = .blocks && !seen.contains d.dependent

/-- To see a node takes the edges that leave it, one for each of its prerequisites, out
of the edges that leave unseen nodes. -/
theorem unseenEdges_cons {edges : List Dependency} {node : String} {seen : List String}
    (hseen : seen.contains node = false) :
    unseenEdges edges (node :: seen) + (prerequisites edges node).length =
      unseenEdges edges seen := by
  simp only [unseenEdges, prerequisites, List.length_map, ← List.countP_eq_length_filter]
  induction edges with
  | nil => rfl
  | cons e es ih =>
      simp only [List.countP_cons, List.contains_cons, blocksFrom] at ih ⊢
      by_cases hk : e.kind = .blocks
      · by_cases hd : e.dependent = node
        · simp only [hk, hd, hseen, decide_true, beq_self_eq_true, Bool.true_or,
            Bool.not_true, Bool.and_false, Bool.false_eq_true, if_false, Bool.not_false,
            Bool.and_true, if_true]
          omega
        · have hd' : (e.dependent == node) = false := by simpa using hd
          simp only [hk, hd', decide_true, Bool.false_or, Bool.true_and, Bool.and_false,
            Bool.false_eq_true, if_false]
          omega
      · simp only [hk, decide_false, Bool.false_and, Bool.false_eq_true, if_false]
        omega

/-- Looks for the target from the nodes on the stack, by way of nodes that are not seen.
The nodes on the stack and the edges that leave unseen nodes are, together, one fewer at
each step: an expanded node leaves the stack, and its edges become nodes on it. -/
def search (edges : List Dependency) (target : String) :
    List String → List String → Bool
  | _, [] => false
  | seen, node :: stack =>
      if node = target then true
      else if seen.contains node then search edges target seen stack
      else search edges target (node :: seen) (prerequisites edges node ++ stack)
termination_by seen stack => unseenEdges edges seen + stack.length
decreasing_by
  · simp
  · rename_i hseen
    have h := @unseenEdges_cons edges node seen (by simpa using hseen)
    simp only [List.length_append, List.length_cons]
    omega

/-- Is the second node the first one, or do blocking edges lead there? -/
def reaches (edges : List Dependency) (start target : String) : Bool :=
  search edges target [] [start]

end Graph

end IssueTracker
