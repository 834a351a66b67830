import IdlBindings.Source.Shape
import IdlBindings.Text.Lines
import IdlBindings.Text.Numeral

/-
This file writes enumerations: a flag set as named bits, a plain enumeration as a closed set of
values with its conversions.
-/

namespace IdlBindings.Source

structure FlagSet where
  name : String
  flags : List (String × Nat)

namespace FlagSet

def ofBinding (enumeration : Binding.Enumeration) : FlagSet where
  name := enumeration.name
  flags := enumeration.items.map fun item => (item.name, item.value.toUInt32.toNat)

def flagText (flag : String × Nat) : String :=
  "\t\tconst " ++ flag.1 ++ " = 0x" ++ Text.hexadecimal flag.2 ++ ";\n"

def text (set : FlagSet) : String :=
  "bitflags! \x7b\n\t#[derive(Clone, Copy, Debug, PartialEq, Eq, Hash)]\n\tpub struct " ++
    set.name ++ ": u32 \x7b\n" ++ String.join (set.flags.map flagText) ++ "\t\x7d\n\x7d\n\n"

end FlagSet

/-- The tables of a plain enumeration: the number of each variant, the list of all variants with
its length, the variant of each number, and the name of each variant. -/
structure PlainEnumeration where
  name : String
  exampleModule : String
  discriminants : List (String × Int)
  valueCount : Nat
  values : List String
  numberArms : List (Int × String)
  nameArms : List (String × String)

namespace PlainEnumeration

def ofBinding (context : Context) (enumeration : Binding.Enumeration) : PlainEnumeration where
  name := enumeration.name
  exampleModule := context.exampleModule
  discriminants := enumeration.items.map fun item => (item.name, item.value.toInt)
  valueCount := enumeration.items.length
  values := enumeration.items.map Binding.EnumerationItem.name
  numberArms := enumeration.items.map fun item => (item.value.toInt, item.name)
  nameArms := enumeration.items.map fun item => (item.name, item.name)

def variant (enumeration : PlainEnumeration) (item : String) : String :=
  enumeration.name ++ "::" ++ item

def discriminantText (entry : String × Int) : String :=
  "\t" ++ entry.1 ++ " = " ++ Text.signedDecimal entry.2 ++ ",\n"

def declarationText (enumeration : PlainEnumeration) : String :=
  let name := enumeration.name
  "///" ++ name ++ "\n///\n///" ++ name ++ " enumeration\n///\n#[repr(i32)]\n" ++
    "#[derive(Debug,PartialEq,Eq,Clone,Copy)]\npub enum " ++ name ++ " \x7b\n" ++
    String.join (enumeration.discriminants.map discriminantText) ++ "\x7d\n\n"

def valuesText (enumeration : PlainEnumeration) : String :=
  "\t/// All values, in declaration order\n\tpub const VALUES: [" ++ enumeration.name ++ "; " ++
    Text.decimal enumeration.valueCount ++ "] = [" ++
    String.intercalate "," (enumeration.values.map enumeration.variant) ++ "];\n"

/-- The lines of the conversion example for the variant at a position. -/
def numberExample (enumeration : PlainEnumeration) (arm : (Int × String) × Nat) : String :=
  let position := Text.decimal arm.2
  "\t/// let v" ++ position ++ "=" ++ enumeration.name ++ "::from(" ++
    Text.signedDecimal arm.1.1 ++ ");\n\t/// assert_eq!(v" ++ position ++ ".unwrap()," ++
    enumeration.variant arm.1.2 ++ ");\n"

def numberArmText (enumeration : PlainEnumeration) (arm : Int × String) : String :=
  "\t\t\t" ++ Text.signedDecimal arm.1 ++ " => Some(" ++ enumeration.variant arm.2 ++ "),\n"

def ofNumberText (enumeration : PlainEnumeration) : String :=
  let name := enumeration.name
  "\t/// Convert from i32 to " ++ name ++ "\n\t///\n\t/// # Arguments\n\t///\n" ++
    "\t/// * `value` - i32 value to be converted to " ++ name ++ "\n" ++
    "\t///\n\t/// # Examples\n\t///\n\t/// ```\n\t/// use " ++ defaultSupport ++ "::*;\n" ++
    "\t/// use " ++ enumeration.exampleModule ++ "::" ++ name ++ ";\n" ++
    String.join (enumeration.numberArms.zipIdx.map enumeration.numberExample) ++
    "\t/// ```\n\tpub fn from(value: i32) -> Option<" ++ name ++ "> \x7b\n\t\tmatch value \x7b\n" ++
    String.join (enumeration.numberArms.map enumeration.numberArmText) ++
    "\t\t\t_ => None,\n\t\t\x7d\n\t\x7d\n"

def nameArmText (arm : String × String) : String :=
  "\t\t\tSelf::" ++ arm.1 ++ " => \"" ++ arm.2 ++ "\",\n"

def toNameText (enumeration : PlainEnumeration) : String :=
  "\t/// Convert to string\n\tpub fn as_string(&self) -> &str \x7b\n\t\tmatch self \x7b\n" ++
    String.join (enumeration.nameArms.map nameArmText) ++ "\t\t\x7d\n\t\x7d\n"

def iterationExample (enumeration : PlainEnumeration) : List String :=
  let name := enumeration.name
  let item := Identifier.exampleVariable name
  Text.lines ("```\nuse " ++ defaultSupport ++ "::*;\nuse " ++ enumeration.exampleModule ++ "::" ++
    name ++ ";\nfor " ++ item ++ " in " ++ name ++ "::iter() \x7b\n    println!(\"" ++
    "\x7b\x7d=\x7b\x7d\"," ++ item ++ "," ++ item ++ " as i32);\n\x7d\n```\n")

def exampleText (enumeration : PlainEnumeration) (indent : String) : String :=
  String.join (enumeration.iterationExample.map fun line => indent ++ "/// " ++ line ++ "\n")

def iterText (enumeration : PlainEnumeration) : String :=
  let name := enumeration.name
  "\t///get an iterator\n\t///\n\t/// # Examples\n\t///\n" ++ enumeration.exampleText "\t" ++
    "\tpub fn iter() -> " ++ name ++ "Iterator \x7b\n\t\t" ++ name ++
    "Iterator \x7b current: 0 \x7d\n\t\x7d\n\x7d\n\n"

def iteratorText (enumeration : PlainEnumeration) : String :=
  let name := enumeration.name
  "/// " ++ name ++ " iterator\n///\n/// Iterates over all " ++ name ++
    " values\n///\n/// # Examples\n///\n" ++ enumeration.exampleText "" ++
    "pub struct " ++ name ++ "Iterator \x7b\n\tcurrent: usize,\n\x7d\nimpl Iterator for " ++ name ++
    "Iterator \x7b\n\ttype Item = " ++ name ++
    ";\n\tfn next(&mut self) -> Option<Self::Item> \x7b\n\t\tlet result=" ++ name ++
    "::VALUES.get(self.current).copied();\n\t\tif result.is_some() \x7b\n" ++
    "\t\t\tself.current+=1;\n\t\t\x7d\n\t\tresult\n\t\x7d\n\x7d\n"

def displayText (enumeration : PlainEnumeration) : String :=
  "impl fmt::Display for " ++ enumeration.name ++
    " \x7b\n\tfn fmt(&self, f: &mut fmt::Formatter) -> fmt::Result \x7b\n" ++
    "\t\twrite!(f,\"\x7b\x7d\",self.as_string())\n\t\x7d\n\x7d\n"

def text (enumeration : PlainEnumeration) : String :=
  enumeration.declarationText ++ "impl " ++ enumeration.name ++ " \x7b\n" ++
    enumeration.valuesText ++ enumeration.ofNumberText ++ enumeration.toNameText ++
    enumeration.iterText ++ enumeration.iteratorText ++ enumeration.displayText

end PlainEnumeration

inductive EnumerationDefinition where
  | flagSet (set : FlagSet)
  | plain (enumeration : PlainEnumeration)

namespace EnumerationDefinition

def ofBinding (context : Context) (enumeration : Binding.Enumeration) : EnumerationDefinition :=
  match enumeration.kind with
  | .bitFlags => .flagSet (FlagSet.ofBinding enumeration)
  | .plain => .plain (PlainEnumeration.ofBinding context enumeration)

def text : EnumerationDefinition → String
  | flagSet set => set.text
  | plain enumeration => enumeration.text

end EnumerationDefinition

end IdlBindings.Source
