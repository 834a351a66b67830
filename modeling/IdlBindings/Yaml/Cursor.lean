import IdlBindings.Text.Bytes

/-
This file holds the character classes of YAML and the position of a reader in a text.
-/

namespace IdlBindings.Yaml

/-- The characters that a text may hold. -/
def isAllowed (character : Char) : Bool :=
  let code := character.toNat
  code == 0x09 || code == 0x0A || code == 0x0D || (0x20 ≤ code && code ≤ 0x7E) || code == 0x85 ||
    (0xA0 ≤ code && code ≤ 0xFFFD) || 0x10000 ≤ code

def isBlank (character : Char) : Bool := character == ' ' || character == '\t'

def isBreak (character : Char) : Bool :=
  character == '\n' || character == '\r' || character == '\u0085' || character == '\u2028' ||
    character == '\u2029'

def isSpace (character : Char) : Bool := isBlank character || isBreak character

/-- Whether a word ends here: at a blank, a break or the end of the text. -/
def endsWord : List Char → Bool
  | [] => true
  | character :: _ => isSpace character

/-- Whether a line ends here. -/
def endsLine : List Char → Bool
  | [] => true
  | character :: _ => isBreak character

/-- The mark that some editors put before a text. -/
def byteOrderMark : Char := '\ufeff'

/-- The rest of a text, with the place where it starts. The offset counts bytes, the column counts
characters. -/
structure Cursor where
  rest : List Char
  offset : Nat := 0
  line : Nat := 0
  column : Nat := 0

namespace Cursor

/-- This moves over characters of one line. -/
def advance (cursor : Cursor) (count : Nat) : Cursor :=
  { cursor with
    rest := cursor.rest.drop count
    offset := cursor.offset + Text.utf8Size (cursor.rest.take count)
    column := cursor.column + count }

def skipWhile (cursor : Cursor) (skips : Char → Bool) : Cursor :=
  cursor.advance (cursor.rest.takeWhile skips).length

/-- This moves over a line break; a carriage return and a line feed are one. -/
def advanceLine (cursor : Cursor) : Cursor :=
  match cursor.rest with
  | '\r' :: '\n' :: rest => { rest, offset := cursor.offset + 2, line := cursor.line + 1 }
  | character :: rest =>
      { rest, offset := cursor.offset + character.utf8Size, line := cursor.line + 1 }
  | [] => cursor

def startsWith (cursor : Cursor) (character : Char) : Bool :=
  cursor.rest.head? == some character

/-- Whether the text goes on with a word that ends there. -/
def hasWord (cursor : Cursor) (word : List Char) : Bool :=
  word.isPrefixOf cursor.rest && endsWord (cursor.rest.drop word.length)

def atDocumentStart (cursor : Cursor) : Bool := cursor.column == 0 && cursor.hasWord ['-', '-', '-']

def atDocumentEnd (cursor : Cursor) : Bool := cursor.column == 0 && cursor.hasWord ['.', '.', '.']

def atDocumentMark (cursor : Cursor) : Bool := cursor.atDocumentStart || cursor.atDocumentEnd

end Cursor

end IdlBindings.Yaml
