import IdlBindings.Json.Value
import IdlBindings.Text.Numeral

/-
This file writes a JSON value over several lines, two blanks deeper at each level.
-/

namespace IdlBindings.Json

def escaped (character : Char) : List Char :=
  match character with
  | '"' => ['\\', '"']
  | '\\' => ['\\', '\\']
  | '\x08' => ['\\', 'b']
  | '\t' => ['\\', 't']
  | '\n' => ['\\', 'n']
  | '\x0c' => ['\\', 'f']
  | '\r' => ['\\', 'r']
  | _ =>
      if character.toNat < 0x20 then
        ['\\', 'u', '0', '0'] ++ Text.hexByte (UInt8.ofNat character.toNat)
      else [character]

def quoted (text : String) : String :=
  "\"" ++ String.ofList (text.toList.flatMap escaped) ++ "\""

/-- A new line at a level. -/
def newLine (level : Nat) : String :=
  "\n" ++ String.ofList (List.replicate (2 * level) ' ')

mutual

def prettyAt (level : Nat) : Json → String
  | null => "null"
  | boolean true => "true"
  | boolean false => "false"
  | integer value => Text.signedDecimal value
  | real literal => String.ofList literal
  | string value => quoted value
  | array [] => "[]"
  | array (element :: rest) =>
      "[" ++ newLine (level + 1) ++ prettyAt (level + 1) element ++
        prettyElements (level + 1) rest ++ newLine level ++ "]"
  | object [] => "\x7b\x7d"
  | object ((key, value) :: rest) =>
      "\x7b" ++ newLine (level + 1) ++ quoted key ++ ": " ++ prettyAt (level + 1) value ++
        prettyMembers (level + 1) rest ++ newLine level ++ "\x7d"
  | undecodable => "null"

def prettyElements (level : Nat) : List Json → String
  | [] => ""
  | element :: rest => "," ++ newLine level ++ prettyAt level element ++ prettyElements level rest

def prettyMembers (level : Nat) : List (String × Json) → String
  | [] => ""
  | (key, value) :: rest =>
      "," ++ newLine level ++ quoted key ++ ": " ++ prettyAt level value ++
        prettyMembers level rest

end

def pretty (value : Json) : String := prettyAt 0 value

end IdlBindings.Json
