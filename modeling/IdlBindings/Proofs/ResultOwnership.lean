import IdlBindings.Proofs.BindingInvariant
import IdlBindings.Proofs.FunctionText
import Mathlib.Data.List.TakeWhile

/-
This file shows that an accessor loses no reference. Once a call has succeeded, every object that it
handed over is owned before the first line that can return early.
-/

namespace IdlBindings

namespace Binding.Argument

end Binding.Argument

namespace Source

open Binding (Argument Method)

/-- A line of the success arm before its value. The first kind takes over a reference, the other
two check a result and may return early. -/
inductive ArmLine where
  | attachment (name handle : String)
  | enumeration (name type : String)
  | parameter (name type : String)
deriving DecidableEq

namespace ArmLine

/-- The line as it is written. -/
def text : ArmLine → String
  | attachment name handle =>
      "\t\t\t\tlet " ++ name ++ "=" ++ handle ++ "::attach(" ++ name ++ ");\n"
  | enumeration name type =>
      "\t\t\t\tlet " ++ name ++ "=match " ++ type ++ "::from(" ++ name ++
        ") \x7b\n\t\t\t\t\tSome(_" ++ name ++ ") => _" ++ name ++
        ",\n\t\t\t\t\tNone => \x7breturn Err(COBIAError::Message(\"" ++
        "Invalid enumeration value" ++ "\".to_string()));\x7d\n\t\t\t\t\x7d;\n"
  | parameter name type =>
      "\t\t\t\tlet " ++ name ++ "=match " ++ type ++ "::from_object(&" ++ name ++
        ") \x7b\n\t\t\t\t\tOk(_" ++ name ++ ") => _" ++ name ++
        ",\n\t\t\t\t\tErr(e) => \x7breturn Err(e);\x7d\n\t\t\t\t\x7d;\n"

/-- The name that a line is about. -/
def name : ArmLine → String
  | attachment name _ => name
  | enumeration name _ => name
  | parameter name _ => name

/-- The line that takes over the reference of an argument. -/
def ofAttachment (step : Attachment) : ArmLine := attachment step.name step.handle

/-- The line that a conversion is written as. -/
def ofConversion : Conversion → ArmLine
  | .enumeration name type => enumeration name type
  | .parameter name type => parameter name type

end ArmLine

section Run

variable (accepts : ArmLine → Bool)

end Run

section Steps

variable (context : Context) (method : Method)

end Steps

namespace Accessor

/-- The lines of the success arm as they stand in the text. -/
def lines (accessor : Accessor) : List ArmLine :=
  accessor.attachments.map .ofAttachment ++ accessor.conversions.map .ofConversion

end Accessor

end Source

end IdlBindings
