/-
This file derives the identifiers of generated code from declared names.
All letter case is that of ASCII; any other character is kept as it is.
-/

namespace IdlBindings.Identifier

/-- The words the generated language keeps for itself. -/
def reservedWords : List String :=
  ["as", "break", "const", "continue", "crate", "else", "enum", "extern", "false", "fn", "for",
    "if", "impl", "in", "let", "loop", "match", "mod", "move", "mut", "pub", "ref", "return",
    "self", "Self", "static", "struct", "super", "trait", "true", "type", "unsafe", "use",
    "where", "while", "async", "await", "dyn", "abstract", "become", "box", "do", "final",
    "macro", "override", "priv", "typeof", "unsized", "virtual", "yield", "try"]

/-- The locals that every generated function body may declare. -/
def generatedLocals : List String := ["me", "p", "myself", "result_code"]

def isReserved (word : String) : Bool := reservedWords.contains word

/-- This moves an identifier clear of the reserved words. -/
def escape (word : String) : String :=
  if isReserved word then "_" ++ word else word

/-- An argument must also stay clear of the generated locals. -/
def escapeArgument (word : String) : String :=
  if generatedLocals.contains word then "_" ++ word else escape word

/-- The flag tells whether a separator may stand before a capital. -/
def snakeFrom : Bool → List Char → List Char
  | _, [] => []
  | separable, character :: rest =>
      if character.isUpper then
        (if separable then ['_', character.toLower] else [character.toLower]) ++
          snakeFrom false rest
      else character :: snakeFrom (character != '_') rest

/-- A separator goes before each capital that follows neither a capital nor a separator. -/
def snakeCase (word : String) : String :=
  String.ofList (snakeFrom false word.toList)

/-- The flag tells whether the next character starts a part of the name. -/
def camelFrom (inner : Char → Char) : Bool → List Char → List Char
  | _, [] => []
  | starts, character :: rest =>
      if character == '_' then camelFrom inner true rest
      else (if starts then character.toUpper else inner character) :: camelFrom inner false rest

/-- Each part between separators gets one leading capital. -/
def camelCase (word : String) : String :=
  String.ofList (camelFrom Char.toLower true word.toList)

def upperCase (word : String) : String :=
  String.ofList (word.toList.map Char.toUpper)

def separateCapitals (word : List Char) : List Char :=
  word.flatMap fun character =>
    if character.isUpper then ['_', character.toLower] else [character]

def withLeadingSeparator (word : List Char) : List Char :=
  if word.head? == some '_' then word else '_' :: word

/-- The name of the entry point through which a method is called from outside. -/
def nativeSymbol (method : String) : String :=
  String.ofList ("raw".toList ++ withLeadingSeparator (separateCapitals method.toList))

/-- The handle of an interface drops a leading `I`, and otherwise takes a leading `T`. -/
def handleName (interface : String) : String :=
  match interface.toList with
  | 'I' :: character :: rest => String.ofList (character :: rest)
  | _ => "T" ++ interface

def withoutEscape (word : List Char) : List Char :=
  match word with
  | '_' :: rest => rest
  | other => other

/-- The type parameter that stands for whatever provides a data argument. -/
def providerParameter (argument : String) : String :=
  String.ofList ("TypeOf".toList ++ camelFrom id true (withoutEscape argument.toList))

/-- The loop variable of a documentation example. -/
def exampleVariable (typeName : String) : String :=
  match typeName.toList with
  | [] => "_"
  | character :: rest =>
      if character.isUpper then String.ofList (character.toLower :: rest) else "_" ++ typeName

/-- This replaces the first occurrence of a nonempty pattern. -/
def replaceFirst (pattern replacement : List Char) : List Char → List Char
  | [] => []
  | character :: rest =>
      if pattern.isPrefixOf (character :: rest) then
        replacement ++ (character :: rest).drop pattern.length
      else character :: replaceFirst pattern replacement rest

/-- The module a documentation example imports from when none is configured. -/
def exampleModule (library : String) : String :=
  String.ofList (replaceFirst "capeopen".toList "cape_open".toList (snakeCase library).toList)

/-- In an expression, the brackets of a generic type follow a path separator. -/
def expressionPath (typeName : String) : String :=
  String.ofList (typeName.toList.flatMap fun character =>
    if character == '<' then "::<".toList else [character])

end IdlBindings.Identifier
