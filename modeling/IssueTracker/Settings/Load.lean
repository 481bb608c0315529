/-
  IssueTracker/Settings/Load.lean --- the settings of a start.

  The layers are the file `default`, the file of the run mode, the file `local` and the
  environment.  Files that are not there are left out; a file that is not a JSON object
  is an error, and so is a value that does not fit its field.

  Numbers and truth values read as texts, and texts as numbers where they are written as
  numbers or say yes or no.
-/
import IssueTracker.Settings.Basic
import IssueTracker.Settings.Layers

set_option autoImplicit false

namespace IssueTracker

namespace Settings

/-! ## Fields -/

/-- A real number as a text: all digits, without an exponent. -/
def Real.chars : Real → List Char
  | .finite x => x.write ⟨none, false⟩
  | .infinite negative => if negative then "-inf".toList else "inf".toList
  | .notANumber => "NaN".toList

/-- The whole number nearest to a real one, as far as there is one from zero to the
greatest of 64 bits. -/
def Real.count : Real → Nat
  | .finite x => if x.negative then 0 else min x.roundAwayFromZero Text.maxWord64
  | .infinite negative => if negative then 0 else Text.maxWord64
  | .notANumber => 0

/-- Reads a text. -/
def Value.asText? : Value → Option String
  | .text s => some s
  | .bool b => some (if b then "true" else "false")
  | .int n => some (Text.signedDecimal n)
  | .real x => some (String.ofList x.chars)
  | _ => none

/-- Reads a text, or null as none. -/
def Value.asTextOption? : Value → Option (Option String)
  | .null => some none
  | v => v.asText?.map some

/-- The number that a text stands for. -/
def countOfText? (s : String) : Option Nat :=
  if lower s = "true" ∨ lower s = "on" ∨ lower s = "yes" then some 1
  else if lower s = "false" ∨ lower s = "off" ∨ lower s = "no" then some 0
  else Text.unsigned? Text.maxWord64 s.toList

/-- Reads an unsigned number of at most `limit`. -/
def Value.asCount? (limit : Nat) (v : Value) : Option Nat :=
  let count? := match v with
    | .int (.ofNat n) => some n
    | .bool b => some (if b then 1 else 0)
    | .real x => some x.count
    | .text s => countOfText? s
    | _ => none
  count?.filter (· ≤ limit)

/-! ## Records -/

/-- The fields of a record: the members of a table, or the items of a list, which
stand for the fields in their order. -/
def Value.asRecord? (names : List String) : Value → Option (List (String × Value))
  | .table ms => some ms
  | .list vs => some (names.zip vs)
  | _ => none

/-- Reads a field, or takes its default if it is missing. -/
def readField {α : Type} (r : List (String × Value)) (name : String) (read : Value → Option α)
    (default : α) : Option α :=
  match r.lookup name with
  | some v => read v
  | none => some default

/-- Reads a number of seconds or events. -/
def Value.asSize? : Value → Option Nat := Value.asCount? Text.maxWord64

/-- Reads the sizes of the hub. -/
def Value.asHub? (v : Value) : Option Hub.Config := do
  let r ← v.asRecord? ["ring_capacity", "subscriber_capacity"]
  return {
    ringCapacity := ← readField r "ring_capacity" Value.asSize? 1000
    subscriberCapacity := ← readField r "subscriber_capacity" Value.asSize? 64 }

/-- Reads a record of one number. -/
def Value.asSingle? (name : String) (default : Nat) (v : Value) : Option Nat := do
  let r ← v.asRecord? [name]
  readField r name Value.asSize? default

/-- Reads the settings. -/
def ofValue? (v : Value) : Option Settings := do
  let r ← v.asRecord? (fields.map (·.name))
  return {
    host := ← readField r "host" Value.asText? "0.0.0.0"
    port := ← readField r "port" (Value.asCount? greatestPort) 8080
    userToken := ← readField r "user_token" Value.asText? ""
    databaseUrl := ← readField r "database_url" Value.asTextOption? none
    busUrl := ← readField r "bus_url" Value.asTextOption? none
    hub := ← readField r "hub" Value.asHub? {}
    keepaliveSecs := ← readField r "stream" (Value.asSingle? "keepalive_secs" 15) 15
    sinkTimeoutSecs := ← readField r "dispatch" (Value.asSingle? "sink_timeout_secs" 5) 5 }

/-! ## Layers -/

/-- What a start finds: environment variables, and the files of settings by name. -/
structure Surroundings where
  environment : List (String × String) := []
  files : List (String × String) := []
  deriving Inhabited

/-- The ending of the names of files with settings. -/
def fileEnding : String := ".json"

/-- The text of the file of a layer: the one of exactly this name, or with the ending
after it. -/
def Surroundings.file? (s : Surroundings) (name : String) : Option String :=
  let exact := if name.endsWith fileEnding then s.files.lookup name else none
  exact.orElse fun _ => s.files.lookup (name ++ fileEnding)

/-- The layer of a file; empty if there is no file, `none` if it cannot be read. -/
def Surroundings.fileLayer? (s : Surroundings) (name : String) :
    Option (List (String × Value)) :=
  match s.file? name with
  | none => some []
  | some text =>
      match Json.ofText text with
      | .ok (.object ms) => some (membersOfJson ms)
      | _ => none

/-- The variable that names the run mode. -/
def runModeVariable : String := "RUN_MODE"

/-- The run mode. -/
def Surroundings.runMode (s : Surroundings) : String :=
  (s.environment.lookup runModeVariable).getD "development"

/-- The settings of a start; `none` if they cannot be read. -/
def load? (s : Surroundings) : Option Settings := do
  let general ← s.fileLayer? "default"
  let ofMode ← s.fileLayer? s.runMode
  let here ← s.fileLayer? "local"
  let layers := [general, ofMode, here, ofVariables s.environment]
  ofValue? (layers.foldl (fun target layer => layLayer layer target) (.table []))

end Settings

end IssueTracker
