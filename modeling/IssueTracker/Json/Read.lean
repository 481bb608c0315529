/-
  IssueTracker/Json/Read.lean --- reading a tree as a type.

  A reader takes a `Doc` and gives a value or the fault that comes first in the
  text.  Records are read in two steps.  `Doc.record` walks the members once, in text
  order, under a list of `Field`s; it refuses the first thing that is wrong, also
  a missing field, and gives the value trees by name.  The type's own reader then
  takes each field out of the `Record` by name.

  A record may also be written as the list of its fields.  Unknown members are
  skipped, whatever they hold, as long as they are JSON.
-/
import IssueTracker.Json.Parse

set_option autoImplicit false

namespace IssueTracker.Json

/-- A reader of one type. -/
abbrev Reader (α : Type) : Type := Doc → Except Fault α

/-! ## Values that are skipped -/

mutual

/-- Is the tree whole? -/
def Doc.isWhole : Doc → Bool
  | .list ds tail => tail = .closed && areWhole ds
  | .object ms tail => tail = .closed && haveWhole ms
  | .broken => false
  | _ => true

/-- Are all the trees whole? -/
def areWhole : List Doc → Bool
  | [] => true
  | d :: ds => d.isWhole && areWhole ds

/-- Are all the members' trees whole? -/
def haveWhole : List (Option String × Doc) → Bool
  | [] => true
  | (_, d) :: ms => d.isWhole && haveWhole ms

end

/-! ## Single values -/

namespace Doc

/-- Reads a text. -/
def asText : Reader String
  | .text (some s) => .ok s
  | d => .error d.refusal

/-- Reads an unsigned number of at most `limit`. -/
def asNat (limit : Nat) : Reader Nat
  | .number n =>
      match n.value? with
      | some (.int (.ofNat v)) => if v ≤ limit then .ok v else .error .mismatch
      | some _ => .error .mismatch
      | none => .error .malformed
  | d => .error d.refusal

/-- Reads what `read` reads, or null as `none`. -/
def asOption {α : Type} (read : Reader α) : Reader (Option α)
  | .null => .ok none
  | d => (read d).map some

/-- Reads the items from the first on, then looks at how the list ends. -/
def readItems {α : Type} (read : Reader α) : List Doc → Tail → Except Fault (List α)
  | [], tail => if tail = .closed then .ok [] else .error .malformed
  | d :: ds, tail => do
      let x ← read d
      let xs ← readItems read ds tail
      return x :: xs

/-- Reads a list. -/
def asList {α : Type} (read : Reader α) : Reader (List α)
  | .list ds tail => readItems read ds tail
  | d => .error d.refusal

/-- Reads one of a table of names: as a text, or as an object with the name as its only
key and null as its value.  Any other kind of value is malformed. -/
def asName {α : Type} (table : List (String × α)) : Reader α
  | .text (some s) =>
      match table.lookup s with
      | some a => .ok a
      | none => .error .mismatch
  | .object [] (.stray fault) => .error fault
  | .object ((some k, d) :: ms) tail =>
      match table.lookup k with
      | none => .error .mismatch
      | some a =>
          match d with
          | .null => if ms.isEmpty && tail = .closed then .ok a else .error .malformed
          | d => .error d.refusal
  | _ => .error .malformed

end Doc

/-! ## Records -/

/-- A field of a record. -/
structure Field where
  name : String
  /-- The fault of a value tree that does not read as the field. -/
  fault? : Doc → Option Fault
  /-- May the field be missing in an object? -/
  optional : Bool
  /-- May the field be missing at the end of a list? -/
  defaulted : Bool

/-- The fault with which a reader refuses a tree. -/
def Reader.fault? {α : Type} (read : Reader α) (d : Doc) : Option Fault :=
  match read d with
  | .ok _ => none
  | .error f => some f

/-- A field that has to be there. -/
def Field.required {α : Type} (name : String) (read : Reader α) : Field :=
  ⟨name, Reader.fault? read, false, false⟩

/-- A field that may be missing in an object, and then is `none`. -/
def Field.optionalIn {α : Type} (name : String) (read : Reader α) : Field :=
  ⟨name, Reader.fault? read, true, false⟩

/-- A field that has a default. -/
def Field.withDefault {α : Type} (name : String) (read : Reader α) : Field :=
  ⟨name, Reader.fault? read, true, true⟩

/-- The value trees of the fields that are there. -/
abbrev Record : Type := List (String × Doc)

/-- Reads a field that is there. -/
def Record.get {α : Type} (r : Record) (name : String) (read : Reader α) : Except Fault α :=
  match r.lookup name with
  | some d => read d
  | none => .error .mismatch

/-- Reads a field, or takes its default. -/
def Record.getD {α : Type} (r : Record) (name : String) (read : Reader α) (default : α) :
    Except Fault α :=
  match r.lookup name with
  | some d => read d
  | none => .ok default

/-- Walks the members of an object: an unknown one is skipped, a known one has to read
and to be the first of its name, and at the end every required one has to be there. -/
def gatherMembers (fields : List Field) :
    Record → List (Option String × Doc) → Tail → Except Fault Record
  | done, [], tail =>
      if tail = .closed then
        if fields.all (fun f => f.optional || (done.lookup f.name).isSome) then .ok done
        else .error .mismatch
      else .error .malformed
  | _, (none, _) :: _, _ => .error .malformed
  | done, (some k, d) :: ms, tail =>
      match fields.find? (·.name == k) with
      | none => if d.isWhole then gatherMembers fields done ms tail else .error .malformed
      | some f =>
          if (done.lookup k).isSome then .error .mismatch
          else
            match f.fault? d with
            | some fault => .error fault
            | none => gatherMembers fields ((k, d) :: done) ms tail

/-- Walks the items of a list: each is the next field, there are no more of them than
fields, and the fields without an item have defaults. -/
def gatherItems : List Field → List Doc → Tail → Except Fault Record
  | [], [], tail => if tail = .closed then .ok [] else .error .malformed
  | [], _ :: _, _ => .error .malformed
  | f :: fs, [], tail =>
      if tail = .closed then
        if (f :: fs).all (·.defaulted) then .ok [] else .error .mismatch
      else .error .malformed
  | f :: fs, d :: ds, tail =>
      match f.fault? d with
      | some fault => .error fault
      | none => (gatherItems fs ds tail).map ((f.name, d) :: ·)

/-- Reads an object or a list as a record of the given fields. -/
def Doc.record (fields : List Field) : Reader Record
  | .object ms tail => gatherMembers fields [] ms tail
  | .list ds tail => gatherItems fields ds tail
  | d => .error d.refusal

/-! ## Texts -/

/-- Reads a whole text: nothing but blanks may stand behind the value. -/
def readText {α : Type} (read : Reader α) (s : String) : Except Fault α :=
  match read (parse s) with
  | .ok a => if endsAfterValue s then .ok a else .error .malformed
  | .error f => .error f

/-- Reads the value at the front of a text, whatever stands behind it. -/
def readFront {α : Type} (read : Reader α) (s : String) : Except Fault α := read (parse s)

end IssueTracker.Json
