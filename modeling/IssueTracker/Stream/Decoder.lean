/-
  IssueTracker/Stream/Decoder.lean --- reading the event stream piece by piece.

  The decoder is fed bytes as they come.  Carriage returns are dropped; what is left is
  cut at each pair of line feeds, from left to right, and each piece that is complete is read
  as a block of lines.  What is not complete waits in the buffer.
-/
import IssueTracker.Stream.Frame
import IssueTracker.Text.Blank
import IssueTracker.Text.Utf8

set_option autoImplicit false

namespace IssueTracker

/-! ## Blocks of lines -/

namespace Frame

/-- What the lines of a block say. -/
structure Fields where
  id : Option Nat := none
  topic : Option (List Char) := none
  data : Option (List Char) := none
  keepalive : Bool := false

namespace Fields

/-- Takes in a line `name:value`; one space before the value does not count.  A later
identity or topic stands for an earlier one, lines of data are joined. -/
def addField (fs : Fields) (name value : List Char) : Fields :=
  if name = "id".toList then { fs with id := Text.unsigned? Text.maxWord64 value }
  else if name = "event".toList then { fs with topic := some value }
  else if name = "data".toList then
    { fs with
      data := match fs.data with
        | some before => some (before ++ '\n' :: value)
        | none => some value }
  else fs

/-- A value without the space before it. -/
def dropSpace : List Char → List Char
  | ' ' :: cs => cs
  | cs => cs

/-- Takes in a line.  A line that starts with a colon is a remark. -/
def addLine (fs : Fields) : List Char → Fields
  | ':' :: remark =>
      { fs with keepalive := fs.keepalive || Text.trim remark = keepaliveWord }
  | line =>
      let (name, value) := Text.cut ':' line
      fs.addField name (dropSpace (value.getD []))

/-- The frame: an event if there are an identity and a topic. -/
def frame? (fs : Fields) : Option Frame :=
  match fs.id, fs.topic with
  | some id, some topic =>
      some (.event id (String.ofList topic) (String.ofList (fs.data.getD [])))
  | _, _ => if fs.keepalive then some .keepalive else none

end Fields

/-- Reads the characters of a block; `none` for one that is no frame. -/
def readBlock? (cs : List Char) : Option Frame :=
  ((Text.split '\n' cs).foldl Fields.addLine {}).frame?

/-- Reads the bytes of a block. -/
def ofBlock? (bs : List UInt8) : Option Frame := readBlock? (Text.Utf8.decode bs)

end Frame

/-! ## The decoder -/

/-- What was fed and is not read yet. -/
structure Decoder where
  buffer : List UInt8 := []
  deriving DecidableEq, Inhabited

namespace Decoder

/-- The byte of a carriage return. -/
def carriageReturn : UInt8 := 13

/-- The byte of a line feed. -/
def lineFeed : UInt8 := 10

/-- The bytes before the first pair of line feeds, and those behind it. -/
def takeBlock? : List UInt8 → Option (List UInt8 × List UInt8)
  | [] => none
  | [_] => none
  | b :: c :: bs =>
      if b = lineFeed ∧ c = lineFeed then some ([], bs)
      else
        match takeBlock? (c :: bs) with
        | some (block, rest) => some (b :: block, rest)
        | none => none

theorem length_of_takeBlock? {bs block rest : List UInt8}
    (h : takeBlock? bs = some (block, rest)) : rest.length < bs.length := by
  induction bs generalizing block rest with
  | nil => simp [takeBlock?] at h
  | cons b bs ih =>
      cases bs with
      | nil => simp [takeBlock?] at h
      | cons c bs =>
          simp only [takeBlock?] at h
          split at h
          · simp only [Option.some.injEq, Prod.mk.injEq] at h
            rw [← h.2]
            simp only [List.length_cons]
            omega
          · split at h
            · rename_i block' rest' h'
              simp only [Option.some.injEq, Prod.mk.injEq] at h
              have := ih h'
              rw [← h.2]
              simp only [List.length_cons] at *
              omega
            · simp at h

/-- The complete blocks, and the bytes behind the last of them. -/
def takeBlocks (bs : List UInt8) : List (List UInt8) × List UInt8 :=
  match h : takeBlock? bs with
  | none => ([], bs)
  | some (block, rest) =>
      have : rest.length < bs.length := length_of_takeBlock? h
      let (blocks, left) := takeBlocks rest
      (block :: blocks, left)
termination_by bs.length

/-- The bytes without carriage returns. -/
def dropReturns (bs : List UInt8) : List UInt8 := bs.filter (· != carriageReturn)

/-- Feeds bytes; gives the frames that are complete now, and the decoder after that. -/
def push (d : Decoder) (chunk : List UInt8) : List Frame × Decoder :=
  let (blocks, rest) := takeBlocks (d.buffer ++ dropReturns chunk)
  (blocks.filterMap Frame.ofBlock?, ⟨rest⟩)

/-- Feeds several pieces; gives the frames of each. -/
def pushAll (d : Decoder) : List (List UInt8) → List (List Frame) × Decoder
  | [] => ([], d)
  | chunk :: chunks =>
      let (frames, d) := d.push chunk
      let (rest, d) := d.pushAll chunks
      (frames :: rest, d)

end Decoder

end IssueTracker
