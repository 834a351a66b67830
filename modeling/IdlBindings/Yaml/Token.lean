import IdlBindings.Yaml.ScalarText

/-
This file parts a YAML text into tokens. A key shows itself only by the colon after it, so a place
where a key may start is kept until the colon comes or can come no more. The tokens from such a
place on are not settled until then.

Tags, anchors, aliases, block scalars and directives are left out: their indicators start no token
here, so a text that has one of them is malformed, though it may be good YAML.
-/

namespace IdlBindings.Yaml

/-- The tokens of a text. An overrun stands where the text cannot be read on. -/
inductive Token where
  | documentStart
  | documentEnd
  | blockSequenceStart
  | blockMappingStart
  | blockEnd
  | flowSequenceStart
  | flowSequenceEnd
  | flowMappingStart
  | flowMappingEnd
  | blockEntry
  | flowEntry
  | key
  | value
  | scalar (plain : Bool) (text : String)
  | overrun
deriving DecidableEq

/-- A place where a key may start: the number of tokens before it, where it is, and whether there
has to be a key. -/
structure KeyPlace where
  number : Nat
  offset : Nat
  line : Nat
  column : Nat
  required : Bool

/-- The greatest distance in bytes between the start of a key and its colon. -/
def keyLimit : Nat := 1024

/-- The tokens so far stand last first with their count, and the columns of the open block
collections stand innermost first. There is one outer place for each open flow collection. -/
structure Scanner where
  cursor : Cursor
  tokens : List Token := []
  count : Nat := 0
  place : Option KeyPlace := none
  outerPlaces : List (Option KeyPlace) := []
  columns : List Nat := []
  keyAllowed : Bool := true

namespace Scanner

def inFlow (scanner : Scanner) : Bool := !scanner.outerPlaces.isEmpty

def emit (scanner : Scanner) (token : Token) : Scanner :=
  { scanner with tokens := token :: scanner.tokens, count := scanner.count + 1 }

def advance (scanner : Scanner) (count : Nat) : Scanner :=
  { scanner with cursor := scanner.cursor.advance count }

def allowKey (scanner : Scanner) (allowed : Bool) : Scanner :=
  { scanner with keyAllowed := allowed }

/-- This skips blanks, comments and line breaks. A tab may not stand where a block key may start. -/
def skipSpace : Nat → Scanner → Scanner
  | 0, scanner => scanner
  | fuel + 1, scanner =>
      let start := scanner.cursor
      let unmarked :=
        if start.column == 0 && start.startsWith byteOrderMark then start.advance 1 else start
      let blank := unmarked.skipWhile fun character =>
        character == ' ' || ((scanner.inFlow || !scanner.keyAllowed) && character == '\t')
      let cursor :=
        if blank.startsWith '#' then blank.skipWhile fun character => !isBreak character else blank
      if cursor.rest.isEmpty || !endsLine cursor.rest then { scanner with cursor }
      else
        skipSpace fuel { scanner with
          cursor := cursor.advanceLine
          keyAllowed := scanner.keyAllowed || !scanner.inFlow }

/-- A key is short and on one line. -/
def isStale (cursor : Cursor) (place : KeyPlace) : Bool :=
  place.line < cursor.line || place.offset + keyLimit < cursor.offset

/-- This gives up a place; there may not have to be a key at it. -/
def giveUp (place : KeyPlace) : Except Fault (Option KeyPlace) :=
  if place.required then .error .malformed else .ok none

/-- A place too far back is given up. -/
def currentPlace (cursor : Cursor) : Option KeyPlace → Except Fault (Option KeyPlace)
  | none => .ok none
  | some place => if isStale cursor place then giveUp place else .ok (some place)

def dropStalePlaces (scanner : Scanner) : Except Fault Scanner := do
  let place ← currentPlace scanner.cursor scanner.place
  let outerPlaces ← scanner.outerPlaces.mapM (currentPlace scanner.cursor)
  return { scanner with place, outerPlaces }

/-- This gives up the place at hand. -/
def dropPlace (scanner : Scanner) : Except Fault Scanner :=
  match scanner.place with
  | some known => (giveUp known).map fun place => { scanner with place }
  | none => .ok scanner

/-- This notes that a key may start here. -/
def notePlace (scanner : Scanner) : Except Fault Scanner :=
  if scanner.keyAllowed then do
    let free ← scanner.dropPlace
    let cursor := scanner.cursor
    return { free with
      place := some {
        number := scanner.count
        offset := cursor.offset
        line := cursor.line
        column := cursor.column
        required := !scanner.inFlow && scanner.columns.head? == some cursor.column } }
  else .ok scanner

/-- The number of tokens before every place at which a key may still start. -/
def settledCount (scanner : Scanner) : Nat :=
  (scanner.place :: scanner.outerPlaces).foldl
    (fun count place =>
      match place with
      | some known => if isStale scanner.cursor known then count else min count known.number
      | none => count) scanner.count

/-- The tokens that can be seen before the next one is read, last first. -/
def settled (scanner : Scanner) : List Token :=
  scanner.tokens.drop (scanner.count - scanner.settledCount)

/-- Whether a block collection at the column would be inside the innermost open one. -/
def isDeeper (scanner : Scanner) (column : Nat) : Bool :=
  match scanner.columns with
  | [] => true
  | innermost :: _ => innermost < column

/-- This opens a block collection here, unless one is open at this column. -/
def openBlock (scanner : Scanner) (token : Token) : Scanner :=
  let column := scanner.cursor.column
  if scanner.isDeeper column then
    { scanner with columns := column :: scanner.columns }.emit token
  else scanner

/-- This closes the block collections that the given test tells to close. -/
def closeBlocks (closes : Nat → Bool) (scanner : Scanner) : Scanner :=
  if scanner.inFlow then scanner
  else
    let closed := scanner.columns.takeWhile closes
    { scanner with
      columns := scanner.columns.dropWhile closes
      tokens := closed.map (fun _ => Token.blockEnd) ++ scanner.tokens
      count := scanner.count + closed.length }

/-- A mark that stands alone. -/
def documentMark (scanner : Scanner) (token : Token) : Except Fault Scanner := do
  let free ← (scanner.closeBlocks fun _ => true).dropPlace
  return ((free.emit token).advance 3).allowKey false

def openFlow (scanner : Scanner) (token : Token) : Except Fault Scanner := do
  let noted ← scanner.notePlace
  let inner : Scanner :=
    { noted with place := none, outerPlaces := noted.place :: noted.outerPlaces }
  return ((inner.emit token).advance 1).allowKey true

def closeFlow (scanner : Scanner) (token : Token) : Except Fault Scanner := do
  let free ← scanner.dropPlace
  let outer : Scanner :=
    match free.outerPlaces with
    | [] => free
    | place :: outerPlaces => { free with place, outerPlaces }
  return ((outer.emit token).advance 1).allowKey false

def flowComma (scanner : Scanner) : Except Fault Scanner := do
  let free ← scanner.dropPlace
  return ((free.emit .flowEntry).advance 1).allowKey true

/-- An indicator that opens a block collection may stand only where a key may. -/
def inBlock (scanner : Scanner) (token : Token) : Except Fault Scanner :=
  if scanner.inFlow then .ok scanner
  else if scanner.keyAllowed then .ok (scanner.openBlock token)
  else .error .malformed

def blockDash (scanner : Scanner) : Except Fault Scanner := do
  let opened ← scanner.inBlock .blockSequenceStart
  let free ← opened.dropPlace
  return ((free.emit .blockEntry).advance 1).allowKey true

def key (scanner : Scanner) : Except Fault Scanner := do
  let opened ← scanner.inBlock .blockMappingStart
  let free ← opened.dropPlace
  return ((free.emit .key).advance 1).allowKey (!scanner.inFlow)

/-- This puts the tokens of a key before what was read since the place was noted. -/
def insertKey (scanner : Scanner) (place : KeyPlace) : Scanner :=
  let later := scanner.tokens.take (scanner.count - place.number)
  let earlier := scanner.tokens.drop (scanner.count - place.number)
  if !scanner.inFlow && scanner.isDeeper place.column then
    { scanner with
      place := none
      columns := place.column :: scanner.columns
      tokens := later ++ .key :: .blockMappingStart :: earlier
      count := scanner.count + 2 }
  else
    { scanner with
      place := none
      tokens := later ++ .key :: earlier
      count := scanner.count + 1 }

def value (scanner : Scanner) : Except Fault Scanner :=
  match scanner.place with
  | some place => .ok ((((scanner.insertKey place).emit .value).advance 1).allowKey false)
  | none => do
      let opened ← scanner.inBlock .blockMappingStart
      return ((opened.emit .value).advance 1).allowKey (!scanner.inFlow)

def quoted (fuel : Nat) (scanner : Scanner) (quote : Char) : Except Fault Scanner := do
  let noted ← scanner.notePlace
  let (text, cursor) ← readQuoted quote fuel {} (scanner.cursor.advance 1)
  return { noted with cursor, keyAllowed := false }.emit (.scalar false (String.ofList text))

/-- The least column of the lines of a plain scalar. -/
def indentation (scanner : Scanner) : Nat :=
  match scanner.columns with
  | [] => 0
  | innermost :: _ => innermost + 1

def plain (fuel : Nat) (scanner : Scanner) : Except Fault Scanner := do
  let noted ← scanner.notePlace
  let read ← readPlain scanner.inFlow scanner.indentation fuel {} {} scanner.cursor
  return { noted with cursor := read.cursor, keyAllowed := read.endsLine }.emit
    (.scalar true (String.ofList read.text))

/-- The characters that no plain scalar starts with. -/
def isIndicator (character : Char) : Bool :=
  "-?:,[]\x7b\x7d#&*!|>'\"%@\x60".toList.contains character

def startsPlain (inFlow : Bool) (character : Char) (rest : List Char) : Bool :=
  !(isSpace character || isIndicator character) ||
    (character == '-' && !(rest.head?.any isBlank)) ||
    (!inFlow && (character == '?' || character == ':') && !endsWord rest)

/-- This reads the token at the cursor. -/
def readToken (fuel : Nat) (scanner : Scanner) : Except Fault Scanner :=
  if scanner.cursor.atDocumentStart then scanner.documentMark .documentStart
  else if scanner.cursor.atDocumentEnd then scanner.documentMark .documentEnd
  else
    match scanner.cursor.rest with
    | [] => .error .malformed
    | '[' :: _ => scanner.openFlow .flowSequenceStart
    | '\x7b' :: _ => scanner.openFlow .flowMappingStart
    | ']' :: _ => scanner.closeFlow .flowSequenceEnd
    | '\x7d' :: _ => scanner.closeFlow .flowMappingEnd
    | ',' :: _ => scanner.flowComma
    | character :: rest =>
        let stands := scanner.inFlow || endsWord rest
        if character == '-' && endsWord rest then scanner.blockDash
        else if character == '?' && stands then scanner.key
        else if character == ':' && stands then scanner.value
        else if character == '\'' || character == '"' then scanner.quoted fuel character
        else if startsPlain scanner.inFlow character rest then scanner.plain fuel
        else .error .malformed

/-- This reads to the end of the text. Where a scalar overruns its buffer, only the settled tokens
have been seen. Every token, line and word takes a character, so the length of the text is fuel
enough for each of them. -/
def readTokens : Nat → Scanner → Except Fault (List Token)
  | 0, _ => .error .malformed
  | fuel + 1, scanner => do
      let spaced := skipSpace (fuel + 1) scanner
      let current ← spaced.dropStalePlaces
      let column := current.cursor.column
      let closed := current.closeBlocks fun innermost => column < innermost
      if closed.cursor.rest.isEmpty then
        let done ← (closed.closeBlocks fun _ => true).dropPlace
        return done.tokens.reverse
      else
        match closed.readToken (fuel + 1) with
        | .ok next => readTokens fuel next
        | .error .malformed => .error .malformed
        | .error .overrun => .ok (.overrun :: scanner.settled).reverse

end Scanner

/-- The tokens of a text, unless it is ill-formed. -/
def Token.scan (text : String) : Except Fault (List Token) :=
  let characters := text.toList
  if characters.all isAllowed then
    Scanner.readTokens (characters.length + 2) { cursor := { rest := characters } }
  else .error .malformed

end IdlBindings.Yaml
