import IdlBindings.Json.Value
import IdlBindings.Text.Real

/-
This file reads JSON text. The text holds one value, and nothing but blanks around it.
-/

namespace IdlBindings.Json

def isSpace (character : Char) : Bool :=
  character == ' ' || character == '\n' || character == '\t' || character == '\r'

def skipSpace (text : List Char) : List Char := text.dropWhile isSpace

def escapeCode? (character : Char) : Option Nat :=
  match character with
  | '"' => some 0x22
  | '\\' => some 0x5C
  | '/' => some 0x2F
  | 'b' => some 0x08
  | 'f' => some 0x0C
  | 'n' => some 0x0A
  | 'r' => some 0x0D
  | 't' => some 0x09
  | _ => none

/-- The codes that a string literal spells up to its closing quote. Only an escape can spell a
surrogate. -/
def stringCodes? : List Char → Option (List Nat × List Char)
  | [] => none
  | '"' :: rest => some ([], rest)
  | '\\' :: 'u' :: first :: second :: third :: fourth :: rest =>
      match Text.readNumeral? 16 [first, second, third, fourth], stringCodes? rest with
      | some code, some (codes, after) => some (code :: codes, after)
      | _, _ => none
  | '\\' :: character :: rest =>
      match escapeCode? character, stringCodes? rest with
      | some code, some (codes, after) => some (code :: codes, after)
      | _, _ => none
  | character :: rest =>
      if character.toNat < 0x20 then none
      else
        match stringCodes? rest with
        | some (codes, after) => some (character.toNat :: codes, after)
        | none => none

def isHighSurrogate (code : Nat) : Bool := 0xD800 ≤ code && code ≤ 0xDBFF

def isLowSurrogate (code : Nat) : Bool := 0xDC00 ≤ code && code ≤ 0xDFFF

/-- The characters of a list of codes, unless a surrogate in it has no partner. -/
def characters? : List Nat → Option (List Char)
  | [] => some []
  | [code] =>
      if isHighSurrogate code || isLowSurrogate code then none else some [Char.ofNat code]
  | first :: second :: rest =>
      if isHighSurrogate first then
        if isLowSurrogate second then
          (characters? rest).map fun characters =>
            Char.ofNat (0x10000 + (first - 0xD800) * 0x400 + (second - 0xDC00)) :: characters
        else none
      else if isLowSurrogate first then none
      else (characters? (second :: rest)).map (Char.ofNat first :: ·)

/-- A string after its opening quote; it is `none` inside if a surrogate has no partner. -/
def readString? (text : List Char) : Option (Option String × List Char) :=
  (stringCodes? text).map fun result => ((characters? result.1).map String.ofList, result.2)

/-- A number is as long as its characters go, and then has to be well formed. -/
def isNumberCharacter (character : Char) : Bool :=
  character.isDigit || character == '-' || character == '+' || character == '.' ||
    character == 'e' || character == 'E'

/-- A whole part is one zero, or digits that do not start with one. -/
def isWholePart (digits : List Char) : Bool :=
  !digits.isEmpty && (digits == ['0'] || digits.head? != some '0')

def isFractionPart (text : List Char) : Bool :=
  match text with
  | '.' :: rest => !rest.isEmpty && rest.all Char.isDigit
  | other => other.isEmpty

def isExponentPart (text : List Char) : Bool :=
  match text with
  | [] => true
  | _ :: rest =>
      let digits := Text.withoutSign rest
      !digits.isEmpty && digits.all Char.isDigit

def isExponentMark (character : Char) : Bool := character == 'e' || character == 'E'

def isNumber (literal : List Char) : Bool :=
  let unsigned := if literal.head? == some '-' then literal.drop 1 else literal
  let mantissa := unsigned.takeWhile fun character => !isExponentMark character
  isWholePart (mantissa.takeWhile Char.isDigit) &&
    isFractionPart (mantissa.dropWhile Char.isDigit) &&
    isExponentPart (unsigned.dropWhile fun character => !isExponentMark character)

/-- A literal of digits is an integer if sixty-four bits hold it; minus zero is a real. -/
def ofNumber (literal : List Char) : Json :=
  let negative := literal.head? == some '-'
  let digits := if negative then literal.drop 1 else literal
  match Text.readNumeral? 10 digits with
  | some magnitude =>
      if negative then
        if magnitude == 0 || Nat.pow 2 63 < magnitude then .real literal else .integer (-magnitude)
      else if magnitude < Nat.pow 2 64 then .integer magnitude else .real literal
  | none => .real literal

def readNumber? (text : List Char) : Option (Json × List Char) :=
  let literal := text.takeWhile isNumberCharacter
  if isNumber literal then some (ofNumber literal, text.dropWhile isNumberCharacter) else none

/-- The text after a word, if it starts with the word. -/
def afterWord? (word : String) (text : List Char) : Option (List Char) :=
  if word.toList.isPrefixOf text then some (text.drop word.length) else none

/-- An object with a key that no text denotes cannot be used. -/
def ofMembers (members : List (Option String × Json)) : Json :=
  match members.mapM fun member => member.1.map fun key => (key, member.2) with
  | some named => .object named
  | none => .undecodable

mutual

/-- The fuel bounds the length of the text. -/
def readValue? : Nat → List Char → Option (Json × List Char)
  | 0, _ => none
  | fuel + 1, text =>
      match skipSpace text with
      | '"' :: rest =>
          (readString? rest).map fun result =>
            (match result.1 with
              | some value => .string value
              | none => .undecodable, result.2)
      | '[' :: rest =>
          match skipSpace rest with
          | ']' :: after => some (.array [], after)
          | _ => (readElements? fuel rest).map fun result => (.array result.1, result.2)
      | '\x7b' :: rest =>
          match skipSpace rest with
          | '\x7d' :: after => some (.object [], after)
          | _ => (readMembers? fuel rest).map fun result => (ofMembers result.1, result.2)
      | 't' :: rest => (afterWord? "rue" rest).map (Json.boolean true, ·)
      | 'f' :: rest => (afterWord? "alse" rest).map (Json.boolean false, ·)
      | 'n' :: rest => (afterWord? "ull" rest).map (Json.null, ·)
      | other => readNumber? other

/-- The elements of an array up to its closing bracket. -/
def readElements? : Nat → List Char → Option (List Json × List Char)
  | 0, _ => none
  | fuel + 1, text =>
      match readValue? fuel text with
      | none => none
      | some (element, rest) =>
          match skipSpace rest with
          | ',' :: more =>
              (readElements? fuel more).map fun result => (element :: result.1, result.2)
          | ']' :: after => some ([element], after)
          | _ => none

/-- The members of an object up to its closing brace. -/
def readMembers? : Nat → List Char → Option (List (Option String × Json) × List Char)
  | 0, _ => none
  | fuel + 1, text =>
      match skipSpace text with
      | '"' :: rest =>
          match readString? rest with
          | none => none
          | some (key, afterKey) =>
              match skipSpace afterKey with
              | ':' :: afterColon =>
                  match readValue? fuel afterColon with
                  | none => none
                  | some (value, afterValue) =>
                      match skipSpace afterValue with
                      | ',' :: more =>
                          (readMembers? fuel more).map fun result =>
                            ((key, value) :: result.1, result.2)
                      | '\x7d' :: after => some ([(key, value)], after)
                      | _ => none
              | _ => none
      | _ => none

end

def read? (text : String) : Option Json :=
  let characters := text.toList
  match readValue? (characters.length + 1) characters with
  | some (value, rest) => if (skipSpace rest).isEmpty then some value else none
  | none => none

end IdlBindings.Json
