/-
This file cuts a text into its lines.
-/

namespace IdlBindings.Text

def withoutReturn (line : List Char) : List Char :=
  if line.getLast? == some '\r' then line.dropLast else line

/-- A line ends at a line feed, and a carriage return before the feed belongs to the ending. The
accumulator holds the line read so far, backwards. -/
def linesFrom : List Char → List Char → List (List Char)
  | [], [] => []
  | line, [] => [line.reverse]
  | line, '\n' :: rest => withoutReturn line.reverse :: linesFrom [] rest
  | line, character :: rest => linesFrom (character :: line) rest

def lines (text : String) : List String :=
  (linesFrom [] text.toList).map String.ofList

end IdlBindings.Text
