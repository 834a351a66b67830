/-
This file views a text as the bytes of its UTF-8 form.
-/

namespace IdlBindings.Text

def utf8 (text : List Char) : List UInt8 :=
  text.flatMap String.utf8EncodeChar

/-- The number of bytes of a text. -/
def utf8Size (text : List Char) : Nat :=
  text.foldr (fun character size => character.utf8Size + size) 0

end IdlBindings.Text
