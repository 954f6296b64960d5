import RobotConsole.Command.Run

/-!
# Showing pages

A page is shown line by line on a sink.  A sink takes the bytes of a text as long as it has room;
when the room is used up, it takes what still fits and then fails, and the lines after that are not
shown.
-/

set_option autoImplicit false

namespace RobotConsole

structure Sink where
  /-- How many bytes the sink still takes; without a number it takes any. -/
  room : Option Nat
  shown : List UInt8
  deriving DecidableEq, Repr

namespace Sink

def ofRoom (room : Option Nat) : Sink := ⟨room, []⟩

def put (bytes : List UInt8) (sink : Sink) : Bool × Sink :=
  match sink.room with
  | none => (true, { sink with shown := sink.shown ++ bytes })
  | some room =>
      if bytes.length ≤ room then (true, ⟨some (room - bytes.length), sink.shown ++ bytes⟩)
      else (false, ⟨some 0, sink.shown ++ bytes.take room⟩)

def lineBytes (line : String) : List UInt8 :=
  (line ++ "\n").toUTF8.toList

/-- Shows the lines of a page until one does not fit. -/
def putPage : Page → Sink → Except Trouble Unit × Sink
  | [], sink => (.ok (), sink)
  | line :: rest, sink =>
      match sink.put (lineBytes line) with
      | (true, sink) => putPage rest sink
      | (false, sink) => (.error .outputClosed, sink)

/-- The bytes on a sink as a text.  A character of which only the first bytes fitted is shown as a
replacement mark. -/
def text (sink : Sink) : String :=
  match String.fromUTF8? sink.shown.toByteArray with
  | some text => text
  | none =>
      match [1, 2, 3].findSome? fun cut =>
        String.fromUTF8? (sink.shown.take (sink.shown.length - cut)).toByteArray with
      | some text => text ++ "\uFFFD"
      | none => "\uFFFD"

end Sink

end RobotConsole
