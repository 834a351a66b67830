import IdlBindings.Text.Numeral

/-
This file holds the reasons for which a declaration is refused, and their wording.
-/

namespace IdlBindings

/-- A reason to refuse one declared argument. -/
inductive TypeFault where
  | unknownAttribute (attributeName : String)
  | direction
  | returnWithoutOut
  | invalidType (typeName : String)
  | unresolvedInterface (typeName : String)
  | templateCount (typeName : String) (expected found : Nat)
  | nestedTemplate
  | invalidTemplateArgument (typeName : String)
  | templateIndex (index : Option UInt64)
  | windowIdOut
  | elementCount (found : Nat)
  | elementKind (typeName : String)
deriving DecidableEq

def TypeFault.indexText : Option UInt64 → String
  | none => "None"
  | some index => "Some(" ++ Text.decimal index.toNat ++ ")"

def TypeFault.message : TypeFault → String
  | .unknownAttribute attributeName => "invalid attribute '" ++ attributeName ++ "'"
  | .direction => "argument must be [in] or [out]"
  | .returnWithoutOut => "argument is [retval] but not [out]"
  | .invalidType typeName => "invalid data type '" ++ typeName ++ "'"
  | .unresolvedInterface typeName => "unable to resolve interface '" ++ typeName ++ "'"
  | .templateCount typeName expected found =>
      "interface '" ++ typeName ++ "' expects " ++ Text.decimal expected ++
        " template argument(s), found " ++ Text.decimal found
  | .nestedTemplate => "template argument cannot have template arguments"
  | .invalidTemplateArgument typeName => "invalid template argument type '" ++ typeName ++ "'"
  | .templateIndex index => "invalid template argument index " ++ indexText index
  | .windowIdOut => "CapeWindowId must be [in]"
  | .elementCount found =>
      "CapeArrayEnumeration must have one template argument, found " ++ Text.decimal found
  | .elementKind typeName =>
      "CapeArrayEnumeration template argument must be an enumeration, found '" ++ typeName ++ "'"

/-- A reason to refuse a library. -/
inductive BuildFault where
  | noLibraries
  | argument (library interface method argumentName : String) (cause : TypeFault)
  | unknownMethodAttribute (interface method attributeName : String)
  | conflictingNames (interface method : String)
  | longNameWithoutValue (interface method : String)
  | missingStatus (interface method : String)
  | emptyEnumeration (enumeration : String)
  | repeatedValue (enumeration : String) (value : Int32)
  | repeatedItem (enumeration item : String)
deriving DecidableEq

def BuildFault.message : BuildFault → String
  | .noLibraries => "no libraries found"
  | .argument library interface method argumentName cause =>
      "argument " ++ argumentName ++ " of method " ++ method ++ " of interface " ++ interface ++
        " in library " ++ library ++ ": " ++ cause.message
  | .unknownMethodAttribute interface method attributeName =>
      "method " ++ method ++ " of interface " ++ interface ++ " has invalid attribute " ++
        attributeName
  | .conflictingNames interface method =>
      "method " ++ method ++ " of interface " ++ interface ++ " has more than one naming attribute"
  | .longNameWithoutValue interface method =>
      "method " ++ method ++ " of interface " ++ interface ++
        " has a long_name attribute without a value"
  | .missingStatus interface method =>
      "method " ++ method ++ " of interface " ++ interface ++ " does not return a CapeResult"
  | .emptyEnumeration enumeration => "enumeration " ++ enumeration ++ " has no items"
  | .repeatedValue enumeration value =>
      "enumeration " ++ enumeration ++ " declares value " ++ Text.signedDecimal value.toInt ++
        " more than once"
  | .repeatedItem enumeration item =>
      "enumeration " ++ enumeration ++ " has more than one item named " ++ item

/-- The message followed by those of its causes, as a diagnostic shows them. -/
def BuildFault.chain (fault : BuildFault) : String :=
  match fault with
  | .argument _ _ _ _ cause => fault.message ++ ": " ++ cause.message
  | _ => fault.message

end IdlBindings
