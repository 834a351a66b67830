import IdlBindings.Text.Numeral

/-
This file writes a character between single quotes, with escapes where it could not be read.
-/

namespace IdlBindings.Text

/-- These are the Latin-1 characters that show no glyph of their own. -/
def isHidden (character : Char) : Bool :=
  let code := character.toNat
  code < 0x20 || (0x7F ≤ code && code ≤ 0xA0) || code == 0xAD

def quotedBody (character : Char) : List Char :=
  match character with
  | '\x00' => ['\\', '0']
  | '\t' => ['\\', 't']
  | '\n' => ['\\', 'n']
  | '\r' => ['\\', 'r']
  | '\'' => ['\\', '\'']
  | '\\' => ['\\', '\\']
  | _ =>
      if isHidden character then
        ['\\', 'u', '\x7b'] ++ numeral 16 character.toNat ++ ['\x7d']
      else [character]

/-- This quotes a character of the Latin-1 range. -/
def quotedCharacter (character : Char) : String :=
  String.ofList (['\''] ++ quotedBody character ++ ['\''])

end IdlBindings.Text
