/-
  IssueTracker/Settings/Layers.lean --- laying settings over settings.

  Later layers win.  Tables are laid over each other key by key, other values replace what
  was there, and keys do not differ by case.  A key of a layer may be a path, such as
  `hub.ring_capacity` or `hub[0]`.
-/
import IssueTracker.Settings.Value
import IssueTracker.Text.Split

set_option autoImplicit false

namespace IssueTracker

namespace Settings

/-- The members of a table; none of any other value. -/
def Value.members : Value → List (String × Value)
  | .table ms => ms
  | _ => []

/-- The members with a value under a key, in the place of the one that was there. -/
def putValue (key : String) (v : Value) : List (String × Value) → List (String × Value)
  | [] => [(key, v)]
  | (k, w) :: ms => if k = key then (key, v) :: ms else (k, w) :: putValue key v ms

mutual

/-- Lays a value over what a target has under a key.  The target becomes a table. -/
def layUnder (key : String) : Value → Value → Value
  | .table incoming, target =>
      let inner := (target.members.lookup (lower key)).getD (.table [])
      .table (putValue (lower key) (layAll incoming inner) target.members)
  | v, target => .table (putValue (lower key) v target.members)

/-- Lays members over a target, one after the other. -/
def layAll : List (String × Value) → Value → Value
  | [], target => target
  | (k, v) :: ms, target => layAll ms (layUnder k v target)

end

/-! ## Paths -/

/-- A step of a path. -/
inductive Step where
  /-- To a member of a table. -/
  | member (key : String)
  /-- To an item of a list. -/
  | item (index : Int)
  deriving DecidableEq, Repr, Inhabited

/-- The items of a list; none of any other value. -/
def Value.items : Value → List Value
  | .list vs => vs
  | _ => []

/-- The place of an index in a list; one below zero counts from the end. -/
def placeOf (index : Int) (length : Nat) : Nat :=
  match index with
  | .ofNat n => n
  | .negSucc n => length - (n + 1)

/-- The items with a value at a place; nulls fill a list that is too short. -/
def putItem (place : Nat) (v : Value) (items : List Value) : List Value :=
  (items ++ List.replicate (place + 1 - items.length) Value.null).set place v

/-- Lays a value over what a target has at the end of a path.  On the way a target becomes a table
or a list, as the step needs it. -/
def layAt : List Step → Value → Value → Value
  | [], v, _ => v
  | [.member key], v, target => layUnder key v target
  | .member key :: path, v, target =>
      let inner := (target.members.lookup (lower key)).getD .null
      .table (putValue (lower key) (layAt path v inner) target.members)
  | .item index :: path, v, target =>
      let place := placeOf index target.items.length
      let inner := (target.items[place]?).getD .null
      .list (putItem place (layAt path v inner) target.items)

/-- May the character stand in the name of a member? -/
def isNameChar (c : Char) : Bool := c.isAlphanum || c = '_' || c = '-' || c = ' '

/-- May the character stand around an index? -/
def isSpace (c : Char) : Bool := c = ' ' || c = '\t'

/-- Reads an index and the bracket that closes it. -/
def readItem? (cs : List Char) : Option Step :=
  match cs.reverse with
  | ']' :: inner =>
      let index := ((inner.dropWhile isSpace).reverse).dropWhile isSpace
      if index.head? = some '+' then none else (Text.signed? index).map .item
  | _ => none

/-- Reads a name and the indices behind it. -/
def readSteps? (cs : List Char) : Option (List Step) :=
  match Text.split '[' cs with
  | name :: indices =>
      if !name.isEmpty && name.all isNameChar then
        (indices.mapM readItem?).map (.member (String.ofList name) :: ·)
      else none
  | [] => none

/-- The path of a key: steps between dots.  A key that reads as no path is one step. -/
def pathOf (key : String) : List Step :=
  (((Text.split '.' key.toList).mapM readSteps?).map List.flatten).getD [.member key]

/-- Lays a layer over a target. -/
def layLayer (layer : List (String × Value)) (target : Value) : Value :=
  layer.foldl (fun t m => layAt (pathOf m.1) m.2 t) target

/-! ## The environment -/

/-- The front part of the names of variables that hold settings. -/
def variableMark : List Char := "beads_".toList

/-- The text with each pair of underscores replaced by a dot. -/
def dotted : List Char → List Char
  | '_' :: '_' :: cs => '.' :: dotted cs
  | c :: cs => c :: dotted cs
  | [] => []

/-- The key of a variable that holds a setting. -/
def keyOfVariable? (name : String) : Option String :=
  let cs := (lower name).toList
  if variableMark.isPrefixOf cs then some (String.ofList (dotted (cs.drop variableMark.length)))
  else none

/-- The layer of the environment. -/
def ofVariables (environment : List (String × String)) : List (String × Value) :=
  environment.filterMap fun v => (keyOfVariable? v.1).map fun key => (key, Value.ofVariable v.2)

end Settings

end IssueTracker
