/-
  IssueTracker/Stream/Frame.lean --- the text of the event stream.

  A frame is an event with its sequence number, topic and data, or a keepalive.  It is
  written as lines of which the last is empty.  The data of an event is written line by
  line, so that no data ends a frame early.
-/
import IssueTracker.Text.Decimal
import IssueTracker.Text.Split

set_option autoImplicit false

namespace IssueTracker

/-- One block of the event stream. -/
inductive Frame where
  | event (id : Nat) (topic data : String)
  | keepalive
  deriving DecidableEq, Repr, Inhabited

namespace Frame

/-- The word that a keepalive carries. -/
def keepaliveWord : List Char := "keepalive".toList

/-- A line of data without one carriage return at its end. -/
def dropReturn (line : List Char) : List Char :=
  if line.getLast? = some '\r' then line.dropLast else line

/-- The line that carries a line of data. -/
def dataLine (line : List Char) : List Char := "data:".toList ++ dropReturn line ++ ['\n']

/-- The characters of an event. -/
def eventChars (id : Nat) (topic data : String) : List Char :=
  "id:".toList ++ Text.digits id ++ '\n' :: "event:".toList ++ topic.toList ++ '\n' ::
    (Text.split '\n' data.toList).flatMap dataLine ++ ['\n']

/-- The characters of a frame. -/
def chars : Frame → List Char
  | event id topic data => eventChars id topic data
  | keepalive => ':' :: keepaliveWord ++ ['\n', '\n']

/-- The text of a frame. -/
def write (f : Frame) : String := String.ofList f.chars

end Frame

end IssueTracker
