import IdlBindings.Text.Numeral
import IdlBindings.Yaml.Buffer
import IdlBindings.Yaml.Cursor

/-
This file reads the texts of plain and quoted scalars, which may go over several lines. Literal and
folded block scalars are left out.
-/

namespace IdlBindings.Yaml

/-- The space between two words of a scalar, each part last character first. The first break is
apart from the later ones; it has no text of its own if it was escaped. -/
structure Gap where
  blanks : List Char := []
  firstBreak : Option (List Char) := none
  laterBreaks : List Char := []

namespace Gap

def hasBreak (gap : Gap) : Bool := gap.firstBreak.isSome

/-- Blanks at the start of a line do not count. -/
def addBlank (gap : Gap) (character : Char) : Gap :=
  if gap.hasBreak then gap else { gap with blanks := character :: gap.blanks }

/-- Most breaks are held as a line feed. -/
def breakText (character : Char) : Char :=
  if character == '\u2028' || character == '\u2029' then character else '\n'

def addBreak (gap : Gap) (character : Char) : Gap :=
  if gap.hasBreak then { gap with laterBreaks := breakText character :: gap.laterBreaks }
  else { gap with blanks := [], firstBreak := some [breakText character] }

/-- What a gap adds to a text: one line feed becomes a blank, and of more the first is dropped. -/
def addTo (gap : Gap) (buffer : Buffer) : Except Fault Buffer :=
  match gap.firstBreak with
  | none => buffer.append gap.blanks.reverse
  | some ['\n'] =>
      if gap.laterBreaks.isEmpty then .ok (buffer.push ' ')
      else buffer.append gap.laterBreaks.reverse
  | some first => buffer.append (first ++ gap.laterBreaks.reverse)

end Gap

/-- This reads a gap to its end. A tab may not stand for indentation: on a new line it has to be at
the given column or after. -/
def readGap (indentation : Nat) : Nat → Gap → Cursor → Except Fault (Gap × Cursor)
  | 0, _, _ => .error .malformed
  | fuel + 1, gap, cursor =>
      match cursor.rest with
      | [] => .ok (gap, cursor)
      | character :: _ =>
          if isBlank character then
            if gap.hasBreak && cursor.column < indentation && character == '\t' then
              .error .malformed
            else readGap indentation fuel (gap.addBlank character) (cursor.advance 1)
          else if isBreak character then
            readGap indentation fuel (gap.addBreak character) cursor.advanceLine
          else .ok (gap, cursor)

def isFlowIndicator (character : Char) : Bool :=
  character == ',' || character == '[' || character == ']' || character == '\x7b' ||
    character == '\x7d'

/-- Whether a colon stands here that may not stand in a plain scalar of a flow collection. -/
def misplacesColon : List Char → Bool
  | ':' :: character :: _ => character == '?' || isFlowIndicator character
  | _ => false

/-- Whether a word of a plain scalar ends here. -/
def endsPlainWord (inFlow : Bool) : List Char → Bool
  | [] => true
  | character :: rest =>
      isSpace character || (character == ':' && endsWord rest) ||
        (inFlow && (isFlowIndicator character || misplacesColon (character :: rest)))

/-- One word of a plain scalar. -/
def plainWord (inFlow : Bool) : List Char → List Char
  | [] => []
  | character :: rest =>
      if endsPlainWord inFlow (character :: rest) then [] else character :: plainWord inFlow rest

/-- A scalar that was read, and whether a line break follows it. -/
structure PlainText where
  text : List Char
  endsLine : Bool
  cursor : Cursor

/-- A plain scalar ends at a comment, at a document mark, and in a block where the indentation
falls below its own. A gap counts only with a word after it. -/
def readPlain (inFlow : Bool) (indentation : Nat) :
    Nat → Buffer → Gap → Cursor → Except Fault PlainText
  | 0, _, _, _ => .error .malformed
  | fuel + 1, buffer, gap, cursor =>
      if cursor.atDocumentMark || cursor.startsWith '#' then
        .ok ⟨buffer.text, gap.hasBreak, cursor⟩
      else do
        let word := plainWord inFlow cursor.rest
        let extended ← if word.isEmpty then .ok buffer else
          (gap.addTo buffer).map fun spaced => spaced.pushAll word
        let pending := if word.isEmpty then gap else {}
        let after := cursor.advance word.length
        if inFlow && misplacesColon after.rest then .error .malformed
        else if after.rest.isEmpty || !endsWord after.rest then
          .ok ⟨extended.text, pending.hasBreak, after⟩
        else
          let (next, beyond) ← readGap indentation fuel pending after
          if !inFlow && beyond.column < indentation then
            .ok ⟨extended.text, next.hasBreak, beyond⟩
          else readPlain inFlow indentation fuel extended next beyond

/-- A word of a quoted scalar with the number of characters it is written by. -/
structure QuotedWord where
  text : List Char := []
  width : Nat := 0

def QuotedWord.cons (character : Char) (width : Nat) (word : QuotedWord) : QuotedWord :=
  { text := character :: word.text, width := width + word.width }

/-- The characters up to a space or the closing quote, which is doubled inside. -/
def singleQuotedWord : List Char → QuotedWord
  | [] => {}
  | '\'' :: '\'' :: rest => (singleQuotedWord rest).cons '\'' 2
  | character :: rest =>
      if character == '\'' || isSpace character then {}
      else (singleQuotedWord rest).cons character 1

def escapeOf? (character : Char) : Option Char :=
  match character with
  | '0' => some '\x00'
  | 'a' => some '\x07'
  | 'b' => some '\x08'
  | 't' | '\t' => some '\t'
  | 'n' => some '\n'
  | 'v' => some '\x0b'
  | 'f' => some '\x0c'
  | 'r' => some '\r'
  | 'e' => some '\x1b'
  | ' ' => some ' '
  | '"' => some '"'
  | '/' => some '/'
  | '\\' => some '\\'
  | 'N' => some '\u0085'
  | '_' => some '\u00a0'
  | 'L' => some '\u2028'
  | 'P' => some '\u2029'
  | _ => none

/-- The character with a code given in hexadecimal digits. -/
def characterOf? (digits : List Char) : Option Char :=
  match Text.readNumeral? 16 digits with
  | some code => if code.isValidChar then some (Char.ofNat code) else none
  | none => none

/-- The characters up to a space, the closing quote or an escaped line break. -/
def doubleQuotedWord? : List Char → Option QuotedWord
  | [] => some {}
  | '\\' :: 'x' :: a :: b :: rest => do
      let character ← characterOf? [a, b]
      return (← doubleQuotedWord? rest).cons character 4
  | '\\' :: 'u' :: a :: b :: c :: d :: rest => do
      let character ← characterOf? [a, b, c, d]
      return (← doubleQuotedWord? rest).cons character 6
  | '\\' :: 'U' :: a :: b :: c :: d :: e :: f :: g :: h :: rest => do
      let character ← characterOf? [a, b, c, d, e, f, g, h]
      return (← doubleQuotedWord? rest).cons character 10
  | '\\' :: escaped :: rest =>
      if isBreak escaped then some {}
      else do
        let character ← escapeOf? escaped
        return (← doubleQuotedWord? rest).cons character 2
  | character :: rest =>
      if character == '"' || isSpace character then some {}
      else if character == '\\' then none
      else return (← doubleQuotedWord? rest).cons character 1

def quotedWord (quote : Char) (text : List Char) : Except Fault QuotedWord :=
  if quote == '\'' then .ok (singleQuotedWord text)
  else
    match doubleQuotedWord? text with
    | some word => .ok word
    | none => .error .malformed

/-- This reads a quoted scalar from after its opening quote. -/
def readQuoted (quote : Char) : Nat → Buffer → Cursor → Except Fault (List Char × Cursor)
  | 0, _, _ => .error .malformed
  | fuel + 1, buffer, cursor =>
      if cursor.atDocumentMark || cursor.rest.isEmpty then .error .malformed
      else do
        let word ← quotedWord quote cursor.rest
        let extended := buffer.pushAll word.text
        let after := cursor.advance word.width
        if after.startsWith quote then .ok (extended.text, after.advance 1)
        else
          let escapes := after.startsWith '\\'
          let start : Gap := if escapes then { firstBreak := some [] } else {}
          let spaced := if escapes then (after.advance 1).advanceLine else after
          let (gap, beyond) ← readGap 0 fuel start spaced
          let joined ← gap.addTo extended
          readQuoted quote fuel joined beyond

end IdlBindings.Yaml
