import IdlBindings.Text.Bytes
import IdlBindings.Yaml.Fault

/-
This file holds the buffer in which the text of a scalar is gathered. The buffer grows for single
characters only, so a long run of blanks can overrun it.
-/

namespace IdlBindings.Yaml

/-- The text so far, last character first, with its size and the room for it in bytes. -/
structure Buffer where
  reversed : List Char := []
  size : Nat := 0
  room : Nat := 16

namespace Buffer

def text (buffer : Buffer) : List Char := buffer.reversed.reverse

/-- The room is doubled first if five bytes or less are free. -/
def push (buffer : Buffer) (character : Char) : Buffer where
  reversed := character :: buffer.reversed
  size := buffer.size + character.utf8Size
  room := if buffer.room ≤ buffer.size + 5 then 2 * buffer.room else buffer.room

def pushAll (buffer : Buffer) (characters : List Char) : Buffer := characters.foldl push buffer

/-- A run is put in as a whole and has to fit into the free room. -/
def append (buffer : Buffer) (run : List Char) : Except Fault Buffer :=
  let size := buffer.size + Text.utf8Size run
  if size ≤ buffer.room then
    .ok { buffer with reversed := run.reverseAux buffer.reversed, size }
  else .error .overrun

end Buffer

end IdlBindings.Yaml
